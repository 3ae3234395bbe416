import Mathlib.Data.List.Induction
import NodeScript.Proofs.Translation.Filing

/-!
How the methods of a class are put together. Every function of a graph becomes a part; parts of one
name are merged in the order of the graph, and the subscriptions to events go in front of one method.
-/

namespace NodeScript

/-- The name of the custom event that starts a function. -/
def FunctionDecl.customEvent? (f : FunctionDecl) : Option String :=
  match f.event with
  | some (.custom event) => some event
  | _ => none

/-- A function with the method that is made of it, before it is merged with others. -/
structure FunctionPart where
  function : NodeId
  decl : FunctionDecl
  method : MethodDecl

namespace FunctionPart

/-- The methods with the part among them. -/
def fileAmong (methods : OrderedMap String MethodDecl) (p : FunctionPart) :
    OrderedMap String MethodDecl :=
  match methods.get? p.method.name with
  | none => methods.insert p.method.name p.method
  | some present =>
    methods.insert p.method.name { present with body := present.body ++ p.method.body }

/-- The subscriptions with that of the part among them, unless its method is subscribed already. -/
def subscribeAmong (registrations : OrderedMap String Stmt) (p : FunctionPart) :
    OrderedMap String Stmt :=
  match p.decl.customEvent? with
  | none => registrations
  | some event =>
    if registrations.contains p.method.name then registrations
    else registrations.insert p.method.name (subscription p.function event p.method.name)

/-- The method that parts of one name are merged to. -/
def wholeOf (own : List FunctionPart) : Option MethodDecl :=
  own.head?.map fun first => { first.method with body := own.flatMap (·.method.body) }

variable (p : FunctionPart) {methods : OrderedMap String MethodDecl} {name : String}

theorem get?_fileAmong_of_ne (other : name ≠ p.method.name) :
    (fileAmong methods p).get? name = methods.get? name := by
  unfold fileAmong
  split <;> exact OrderedMap.get?_insert_of_ne other

theorem get?_fileAmong : (fileAmong methods p).get? p.method.name =
    some (match methods.get? p.method.name with
      | none => p.method
      | some present => { present with body := present.body ++ p.method.body }) := by
  unfold fileAmong
  split <;> exact OrderedMap.get?_insert_self

theorem get?_fileAll (parts : List FunctionPart) (name : String) :
    (parts.foldl fileAmong ∅).get? name = wholeOf (parts.filter (·.method.name = name)) := by
  induction parts using List.reverseRecOn with
  | nil => rfl
  | append_singleton earlier p ih =>
    rw [List.foldl_append, List.foldl_cons, List.foldl_nil, List.filter_append]
    by_cases same : p.method.name = name
    · subst same
      rw [get?_fileAmong, ih, List.filter_cons_of_pos (by simp), List.filter_nil]
      cases earlier.filter (·.method.name = p.method.name) with
      | nil => simp [wholeOf]
      | cons first rest => simp [wholeOf]
    · rw [get?_fileAmong_of_ne p (Ne.symm same), ih, List.filter_cons_of_neg (by simpa using same),
        List.filter_nil, List.append_nil]

theorem parameters_of_sameSignature {present : MethodDecl}
    (same : present.sameSignature p.method = true) : present.parameters = p.method.parameters := by
  simp only [MethodDecl.sameSignature, Bool.and_eq_true, decide_eq_true_eq] at same
  exact same.2

theorem get?_fileAmong_self (agrees : ∀ present, methods.get? p.method.name = some present →
      present.sameSignature p.method = true) :
    ∃ merged, (fileAmong methods p).get? p.method.name = some merged ∧
      merged.parameters = p.method.parameters := by
  refine ⟨_, p.get?_fileAmong, ?_⟩
  split
  · rfl
  · rename_i present held
    exact p.parameters_of_sameSignature (agrees present held)

/-- The subscription of a part. -/
def subscription? : Option Stmt :=
  p.decl.customEvent?.map fun event => subscription p.function event p.method.name

/-- The subscriptions of parts: of those with one name the first subscribes. -/
theorem get?_subscribeAll (parts : List FunctionPart) (name : String) :
    (parts.foldl subscribeAmong ∅).get? name =
      (parts.filter (·.method.name = name)).findSome? subscription? := by
  induction parts using List.reverseRecOn with
  | nil => rfl
  | append_singleton earlier p ih =>
    rw [List.foldl_append, List.foldl_cons, List.foldl_nil, List.filter_append,
      List.findSome?_append, ← ih]
    generalize earlier.foldl subscribeAmong ∅ = table
    unfold subscribeAmong
    cases event : p.decl.customEvent? with
    | none =>
      by_cases same : p.method.name = name <;> simp [same, subscription?, event]
    | some event' =>
      have subscribes : p.subscription? = some (subscription p.function event' p.method.name) := by
        rw [subscription?, event, Option.map_some]
      dsimp only
      split
      · rename_i there
        by_cases same : p.method.name = name
        · obtain ⟨held, found⟩ :=
            OrderedMap.exists_get?_of_mem_keys (OrderedMap.contains_eq_true_iff.mp there)
          rw [← same, found]
          rfl
        · simp [same]
      · rename_i absent
        by_cases same : p.method.name = name
        · have missing : table.get? name = none := by
            rw [OrderedMap.get?_eq_none_iff, ← same, ← OrderedMap.contains_eq_true_iff]
            exact absent
          rw [← same] at missing ⊢
          simp [missing, subscribes]
        · rw [OrderedMap.get?_insert_of_ne (Ne.symm same)]
          simp [same]

theorem mem_subscribeAll {parts : List FunctionPart} {s : Stmt}
    (inside : s ∈ (parts.foldl subscribeAmong ∅).values) :
    ∃ p ∈ parts, p.subscription? = some s := by
  obtain ⟨name, entry⟩ := OrderedMap.mem_values_iff.mp inside
  have held := get?_subscribeAll parts name
  rw [OrderedMap.get?_eq_some_iff.mpr entry] at held
  obtain ⟨p, member, subscribes⟩ := List.exists_of_findSome?_eq_some held.symm
  exact ⟨p, List.mem_of_mem_filter member, subscribes⟩

/-- The subscriptions of parts that stand in the method of a name. -/
def subscriptionsIn (parts : List FunctionPart) (registrationMethod name : String) : List Stmt :=
  if name = registrationMethod then (parts.foldl subscribeAmong ∅).values else []

/-- Parts are filed, and what they subscribe to is. -/
structure HeldBy (parts : List FunctionPart) (c : TranslationContext) : Prop where
  methods : c.methods = parts.foldl fileAmong ∅
  registrations : c.registrations = parts.foldl subscribeAmong ∅

namespace HeldBy

variable {parts : List FunctionPart} {c : TranslationContext} {name : String} {m : MethodDecl}

theorem get? (held : HeldBy parts c) (name : String) :
    c.methods.get? name = wholeOf (parts.filter (·.method.name = name)) := by
  rw [held.methods, get?_fileAll]

theorem of_wholeOf (whole : wholeOf (parts.filter (·.method.name = name)) = some m) :
    m.name = name ∧ m.body = (parts.filter (·.method.name = name)).flatMap (·.method.body) ∧
      ∀ first, parts.find? (·.method.name = name) = some first →
        m.sameSignature first.method = true := by
  rw [wholeOf, List.head?_filter, Option.map_eq_some_iff] at whole
  obtain ⟨first, head, rfl⟩ := whole
  have named : first.method.name = name := by simpa using List.find?_some head
  refine ⟨named, rfl, fun other found => ?_⟩
  obtain rfl := Option.some.inj (head.symm.trans found)
  simp [MethodDecl.sameSignature]

/-- The methods when the subscriptions are put in front of theirs: each has the signature of the
first part of its name, and holds the bodies of all parts of its name. -/
theorem flush (held : HeldBy parts c) (registrationMethod : String)
    (filed : (c.flushRegistrations registrationMethod).methods.get? name = some m) :
    m.name = name ∧
      m.body = subscriptionsIn parts registrationMethod name ++
        (parts.filter (·.method.name = name)).flatMap (·.method.body) ∧
      ∀ first, parts.find? (·.method.name = name) = some first →
        m.sameSignature first.method = true := by
  unfold TranslationContext.flushRegistrations at filed
  rw [subscriptionsIn, ← held.registrations]
  split at filed
  -- without subscriptions the methods stay as they were filed
  · rename_i nothing
    have none : c.registrations.values = [] := by
      rw [OrderedMap.values, List.isEmpty_iff.mp nothing, List.map_nil]
    rw [none, ite_self, List.nil_append]
    exact of_wholeOf ((held.get? name).symm.trans filed)
  · rw [OrderedMap.get?_insert] at filed
    split at filed
    · rename_i here
      subst here
      obtain rfl := Option.some.inj filed
      rw [if_pos rfl, held.get?]
      cases whole : wholeOf (parts.filter (·.method.name = name)) with
      | some present =>
        obtain ⟨named, body, signature⟩ := of_wholeOf whole
        exact ⟨named, by rw [Option.getD_some, body], signature⟩
      | none =>
        rw [wholeOf, Option.map_eq_none_iff] at whole
        refine ⟨rfl, by rw [List.head?_eq_none_iff.mp whole]; rfl, fun first found => ?_⟩
        rw [List.head?_filter, found] at whole
        exact absurd whole (Option.some_ne_none first)
    · rename_i other
      rw [if_neg other, List.nil_append]
      exact of_wholeOf ((held.get? name).symm.trans filed)

theorem isSome_flush (held : HeldBy parts c) (registrationMethod : String)
    (needed : parts.filter (·.method.name = name) ≠ [] ∨
      subscriptionsIn parts registrationMethod name ≠ []) :
    ((c.flushRegistrations registrationMethod).methods.get? name).isSome := by
  have filed (own : parts.filter (·.method.name = name) ≠ []) : (c.methods.get? name).isSome := by
    simpa [held.get?, wholeOf] using own
  rw [subscriptionsIn, ← held.registrations] at needed
  unfold TranslationContext.flushRegistrations
  split
  · rename_i nothing
    refine filed (needed.resolve_right fun some => some ?_)
    rw [OrderedMap.values, List.isEmpty_iff.mp nothing, List.map_nil, ite_self]
  · rw [OrderedMap.get?_insert]
    split
    · rfl
    · rename_i other
      rw [if_neg other] at needed
      exact filed (needed.resolve_right fun some => some rfl)

end HeldBy

/-- A part is made and filed without errors. -/
structure Files (env : TranslationEnv) (p : FunctionPart) (s s' : TranslatorState) : Prop where
  made : p.method = ((functionMethod env p.function p.decl).run s).1
  silent : ((functionMethod env p.function p.decl).run s).2.context.errors = s.context.errors
  agrees : ∀ present, s.context.methods.get? p.method.name = some present →
    present.sameSignature p.method = true
  methods : s'.context.methods = fileAmong s.context.methods p
  registrations : s'.context.registrations = subscribeAmong s.context.registrations p

end FunctionPart

variable {env : TranslationEnv}

/-- The parts that are made of functions one after the other. -/
def TranslationEnv.partsFrom (env : TranslationEnv) :
    List (NodeId × FunctionDecl) → TranslatorState → List FunctionPart
  | [], _ => []
  | (function, decl) :: rest, s =>
    let (method, s') := (functionMethod env function decl).run s
    ⟨function, decl, method⟩ ::
      env.partsFrom rest ((fileMethod function decl method).run s').2

/-- Parts are made and filed one after the other without errors. -/
inductive TranslationEnv.FilesAll (env : TranslationEnv) :
    TranslatorState → List FunctionPart → TranslatorState → Prop
  | done {s} : FilesAll env s [] s
  | next {s s' s'' p rest} : p.Files env s s' → FilesAll env s' rest s'' →
      FilesAll env s (p :: rest) s''

/-! ### One function -/

theorem TranslationContext.mergeMethod_fileAmong {c c' : TranslationContext} {p : FunctionPart}
    (merged : c.mergeMethod p.method = .ok c') :
    c' = { c with methods := FunctionPart.fileAmong c.methods p } ∧
      ∀ present, c.methods.get? p.method.name = some present →
        present.sameSignature p.method = true := by
  unfold mergeMethod at merged
  unfold FunctionPart.fileAmong
  split at merged
  · rename_i absent
    simp only [absent]
    exact ⟨(Except.ok.inj merged).symm, nofun⟩
  · rename_i present held
    split at merged
    · rename_i same
      simp only [held]
      refine ⟨(Except.ok.inj merged).symm, ?_⟩
      rintro _ ⟨⟩
      exact same
    · exact nomatch merged

section FileMethod

variable {p : FunctionPart} {s : TranslatorState}

theorem fileMethod_error {e : CompilerError} (failed : s.context.mergeMethod p.method = .error e) :
    ((fileMethod p.function p.decl p.method).run s).2 = { s with context := s.context.report e } := by
  simp only [fileMethod, StateT.run_bind, StateT.run_get, pure_bind, failed]
  rfl

theorem fileMethod_ok {c : TranslationContext} (merged : s.context.mergeMethod p.method = .ok c) :
    ((fileMethod p.function p.decl p.method).run s).2 =
      { s with context :=
        { s.context with
          methods := FunctionPart.fileAmong s.context.methods p
          registrations := FunctionPart.subscribeAmong s.context.registrations p } } := by
  obtain ⟨rfl, -⟩ := TranslationContext.mergeMethod_fileAmong merged
  simp only [fileMethod, StateT.run_bind, StateT.run_get, pure_bind, merged]
  unfold FunctionPart.subscribeAmong FunctionDecl.customEvent?
  cases event : p.decl.event with
  | none => rfl
  | some kind =>
    cases kind with
    | start | update | fixedUpdate => rfl
    | custom name =>
      change TranslatorState.mk (TranslationContext.addRegistration
        { s.context with methods := FunctionPart.fileAmong s.context.methods p } p.method.name
        (subscription p.function name p.method.name)) _ _ _ _ = _
      unfold TranslationContext.addRegistration
      dsimp only
      split <;> rfl

/-- What a part leaves behind when it is filed, unless an error is reported. -/
theorem fileMethod_files (p : FunctionPart) (s : TranslatorState) :
    (∃ e, ((fileMethod p.function p.decl p.method).run s).2.context.errors =
        s.context.errors ++ [e]) ∨
      ((fileMethod p.function p.decl p.method).run s).2.context =
          { s.context with
            methods := FunctionPart.fileAmong s.context.methods p
            registrations := FunctionPart.subscribeAmong s.context.registrations p } ∧
        ∀ present, s.context.methods.get? p.method.name = some present →
          present.sameSignature p.method = true := by
  cases found : s.context.mergeMethod p.method with
  | error e => exact .inl ⟨e, by rw [fileMethod_error found]; rfl⟩
  | ok merged =>
    exact .inr ⟨by rw [fileMethod_ok found], (TranslationContext.mergeMethod_fileAmong found).2⟩

end FileMethod

theorem functionMethod_name (env : TranslationEnv) (function : NodeId) (decl : FunctionDecl)
    (s : TranslatorState) :
    ((functionMethod env function decl).run s).1.name = sanitize decl.methodName := rfl

/-- What has been filed comes from parts, with errors or without: the bodies of a method are those of
some parts, in their order, and every subscription is that of a part. -/
structure FunctionPart.Gathers (parts : List FunctionPart) (c : TranslationContext) : Prop where
  methods : ∀ {name m}, c.methods.get? name = some m → ∃ own : List FunctionPart,
    own.Sublist parts ∧ m.body = own.flatMap (·.method.body)
  registrations : ∀ {name stmt}, c.registrations.get? name = some stmt →
    ∃ p ∈ parts, p.subscription? = some stmt

namespace FunctionPart.Gathers

variable {parts : List FunctionPart} {c c' : TranslationContext}

theorem nothing (methods : c.methods = ∅) (registrations : c.registrations = ∅) : Gathers [] c := by
  refine ⟨fun held => ?_, fun held => ?_⟩
  · rw [methods] at held
    cases held
  · rw [registrations] at held
    cases held

theorem kept (gathers : Gathers parts c) (kept : c.Kept c') : Gathers parts c' where
  methods := kept.methods ▸ gathers.methods
  registrations := kept.registrations ▸ gathers.registrations

theorem more (gathers : Gathers parts c) (p : FunctionPart) : Gathers (parts ++ [p]) c where
  methods held := by
    obtain ⟨own, sub, body⟩ := gathers.methods held
    exact ⟨own, sub.trans (List.sublist_append_left _ _), body⟩
  registrations held := by
    obtain ⟨q, member, subscribes⟩ := gathers.registrations held
    exact ⟨q, List.mem_append_left _ member, subscribes⟩

theorem filed (gathers : Gathers parts c) (p : FunctionPart)
    (methods : c'.methods = fileAmong c.methods p)
    (registrations : c'.registrations = subscribeAmong c.registrations p) :
    Gathers (parts ++ [p]) c' := by
  refine ⟨fun {name m} held => ?_, fun {name stmt} held => ?_⟩
  · rw [methods] at held
    by_cases same : p.method.name = name
    · subst same
      rw [p.get?_fileAmong] at held
      obtain rfl := Option.some.inj held
      split
      · exact ⟨[p], List.sublist_append_right _ _, by simp⟩
      · rename_i present there
        obtain ⟨own, sub, body⟩ := gathers.methods there
        exact ⟨own ++ [p], sub.append (.refl _), by simp [body]⟩
    · rw [p.get?_fileAmong_of_ne (Ne.symm same)] at held
      exact (gathers.more p).methods held
  · have earlier : c.registrations.get? name = some stmt →
        ∃ q ∈ parts ++ [p], q.subscription? = some stmt := (gathers.more p).registrations
    rw [registrations] at held
    unfold subscribeAmong at held
    split at held
    · exact earlier held
    rename_i event custom
    split at held
    · exact earlier held
    rw [OrderedMap.get?_insert] at held
    split at held
    · refine ⟨p, List.mem_append_right _ (List.mem_singleton_self p), ?_⟩
      rw [subscription?, custom]
      exact held
    · exact earlier held

end FunctionPart.Gathers

/-- A method is put together from parts: the bodies of some of them stand in it, in their order, and
nothing but subscriptions of parts stands in front of these. -/
def MethodDecl.MadeOf (m : MethodDecl) (parts : List FunctionPart) : Prop :=
  ∃ (subscriptions : List Stmt) (own : List FunctionPart),
    m.body = subscriptions ++ own.flatMap (·.method.body) ∧
    own.Sublist parts ∧ ∀ stmt ∈ subscriptions, ∃ p ∈ parts, p.subscription? = some stmt

theorem FunctionPart.Gathers.flush {parts : List FunctionPart} {c : TranslationContext}
    (gathers : Gathers parts c) (registrationMethod : String) {name : String} {m : MethodDecl}
    (held : (c.flushRegistrations registrationMethod).methods.get? name = some m) :
    m.MadeOf parts := by
  have plain (there : c.methods.get? name = some m) : m.MadeOf parts := by
    obtain ⟨own, sub, body⟩ := gathers.methods there
    exact ⟨[], own, body, sub, nofun⟩
  unfold TranslationContext.flushRegistrations at held
  split at held
  · exact plain held
  rw [OrderedMap.get?_insert] at held
  split at held
  · obtain rfl := Option.some.inj held
    have subscribed : ∀ stmt ∈ c.registrations.values,
        ∃ p ∈ parts, p.subscription? = some stmt := by
      intro stmt member
      obtain ⟨key, entry⟩ := OrderedMap.mem_values_iff.mp member
      exact gathers.registrations (OrderedMap.get?_eq_some_iff.mpr entry)
    cases found : c.methods.get? registrationMethod with
    | none => exact ⟨_, [], rfl, List.nil_sublist _, subscribed⟩
    | some present =>
      obtain ⟨own, sub, body⟩ := gathers.methods found
      exact ⟨_, own, by rw [Option.getD_some, body], sub, subscribed⟩
  · exact plain held

/-! ### All functions -/

/-- Translating functions only adds errors, and unless it adds any it files the parts of them all. -/
theorem translateFunctions_files (fileNothing : env.ExtensionsFileNothing)
    (functions : List (NodeId × FunctionDecl)) (s : TranslatorState) :
    s.context.errors <+: ((functions.forM fun (function, decl) =>
        translateFunction env function decl).run s).2.context.errors ∧
      (((functions.forM fun (function, decl) =>
          translateFunction env function decl).run s).2.context.errors = s.context.errors →
        env.FilesAll s (env.partsFrom functions s)
          ((functions.forM fun (function, decl) => translateFunction env function decl).run s).2) := by
  induction functions generalizing s with
  | nil => exact ⟨List.prefix_rfl, fun _ => .done⟩
  | cons f rest ih =>
    obtain ⟨function, decl⟩ := f
    have run : (((function, decl) :: rest).forM fun (function, decl) =>
          translateFunction env function decl).run s =
        (rest.forM fun (function, decl) => translateFunction env function decl).run
          ((fileMethod function decl ((functionMethod env function decl).run s).1).run
            ((functionMethod env function decl).run s).2).2 := rfl
    have kept := functionMethod_filesNothing fileNothing function decl s
    rw [run, TranslationEnv.partsFrom]
    cases made : (functionMethod env function decl).run s with
    | mk method s' =>
    rw [made] at kept
    dsimp only at kept ⊢
    obtain ⟨grows, files⟩ := ih ((fileMethod function decl method).run s').2
    rcases fileMethod_files ⟨function, decl, method⟩ s' with ⟨e, added⟩ | ⟨filed, agrees⟩
    -- an error stays, so the errors in the end are not those at the start
    · rw [added] at grows
      have longer := (kept.errors.trans (List.prefix_append _ _)).trans grows
      refine ⟨longer, fun same => absurd grows.length_le ?_⟩
      have least := kept.errors.length_le
      rw [same, List.length_append, List.length_singleton]
      omega
    · dsimp only at filed agrees
      have errors := congrArg TranslationContext.errors filed
      dsimp only at errors
      rw [errors] at grows files
      refine ⟨kept.errors.trans grows, fun same => ?_⟩
      have silent : s'.context.errors = s.context.errors :=
        (kept.errors.eq_of_length_le (same ▸ grows.length_le)).symm
      refine .next ?_ (files (same.trans silent.symm))
      refine ⟨by rw [made], by rw [made, silent], ?_, ?_, ?_⟩
      · rw [← kept.methods]
        exact agrees
      · rw [filed, ← kept.methods]
      · rw [filed, ← kept.registrations]

/-- Whatever errors there are, what is filed comes from the parts of the functions. -/
theorem translateFunctions_gathers (fileNothing : env.ExtensionsFileNothing)
    (functions : List (NodeId × FunctionDecl)) {before : List FunctionPart} (s : TranslatorState)
    (gathers : FunctionPart.Gathers before s.context) :
    FunctionPart.Gathers (before ++ env.partsFrom functions s)
      ((functions.forM fun (function, decl) => translateFunction env function decl).run s).2.context := by
  induction functions generalizing before s with
  | nil =>
    rw [TranslationEnv.partsFrom, List.append_nil]
    exact gathers
  | cons f rest ih =>
    obtain ⟨function, decl⟩ := f
    let p : FunctionPart := ⟨function, decl, ((functionMethod env function decl).run s).1⟩
    let made := ((functionMethod env function decl).run s).2
    let filed := ((fileMethod p.function p.decl p.method).run made).2
    have kept : FunctionPart.Gathers before made.context :=
      gathers.kept (functionMethod_filesNothing fileNothing function decl s)
    have further : FunctionPart.Gathers (before ++ [p]) filed.context := by
      cases merged : made.context.mergeMethod p.method with
      | error e =>
        have context : filed.context = made.context.report e :=
          congrArg TranslatorState.context (fileMethod_error merged)
        rw [context]
        exact (kept.more p).kept (.report _ e)
      | ok c =>
        have context := congrArg TranslatorState.context (fileMethod_ok merged)
        exact kept.filed p (congrArg TranslationContext.methods context)
          (congrArg TranslationContext.registrations context)
    have last := ih filed further
    rw [List.append_assoc] at last
    exact last

namespace TranslationEnv

/-- The state in which the functions of a graph are translated: its fields are there. -/
def opened (env : TranslationEnv) (trace : Option TraceRecord) : TranslatorState :=
  ((translateFields env).run ⟨.empty, trace.map (·.beginGraph env.graph.name), ∅, [], []⟩).2

/-- The parts that the methods of a graph are made of. -/
def parts (env : TranslationEnv) (trace : Option TraceRecord) : List FunctionPart :=
  env.partsFrom env.graph.functions (env.opened trace)

/-- The parts of the method of a name. -/
def partsOf (env : TranslationEnv) (trace : Option TraceRecord) (name : String) :
    List FunctionPart :=
  (env.parts trace).filter (·.method.name = name)

/-- The subscriptions to the events of a graph. -/
def subscriptions (env : TranslationEnv) (trace : Option TraceRecord) : List Stmt :=
  ((env.parts trace).foldl FunctionPart.subscribeAmong ∅).values

/-- The subscriptions in the method of a name. -/
def subscriptionsOf (env : TranslationEnv) (trace : Option TraceRecord) (name : String) :
    List Stmt :=
  if name = env.options.registrationMethod then env.subscriptions trace else []

theorem effect_of_mem_subscriptionsOf {trace : Option TraceRecord} {name : String} {s : Stmt}
    (inside : s ∈ env.subscriptionsOf trace name) : ∃ node value, s = .effect (some node) value := by
  unfold subscriptionsOf at inside
  split at inside
  · obtain ⟨p, -, subscribes⟩ := FunctionPart.mem_subscribeAll inside
    obtain ⟨event, -, rfl⟩ := Option.map_eq_some_iff.mp subscribes
    exact ⟨_, _, rfl⟩
  · exact nomatch inside

/-- Every function of a graph becomes one part, in the order of the graph. -/
theorem parts_functions (env : TranslationEnv) (trace : Option TraceRecord) :
    (env.parts trace).map (fun p => (p.function, p.decl)) = env.graph.functions := by
  unfold parts
  generalize env.opened trace = s
  induction env.graph.functions generalizing s with
  | nil => rfl
  | cons f rest ih => exact congrArg (f :: ·) (ih _)

theorem parts_named {trace : Option TraceRecord} {p : FunctionPart} (member : p ∈ env.parts trace) :
    p.method.name = sanitize p.decl.methodName := by
  unfold parts at member
  generalize env.opened trace = s, env.graph.functions = functions at member
  induction functions generalizing s with
  | nil => exact nomatch member
  | cons f rest ih =>
    rcases List.mem_cons.mp member with rfl | later
    · exact functionMethod_name env _ _ s
    · exact ih _ later

/-- The parts of a method are the functions that are named like it, in the order of the graph. -/
theorem partsOf_functions (env : TranslationEnv) (trace : Option TraceRecord) (name : String) :
    (env.partsOf trace name).map (fun p => (p.function, p.decl)) =
      env.graph.functions.filter fun f => sanitize f.2.methodName = name := by
  rw [partsOf, ← env.parts_functions trace, List.filter_map]
  congr 1
  refine List.filter_congr fun p member => ?_
  simp only [Function.comp_apply, parts_named member]

namespace FilesAll

variable {s s' : TranslatorState} {parts : List FunctionPart}

theorem methods (files : env.FilesAll s parts s') :
    s'.context.methods = parts.foldl FunctionPart.fileAmong s.context.methods := by
  induction files with
  | done => rfl
  | next first _ ih => rw [ih, first.methods, List.foldl_cons]

theorem registrations (files : env.FilesAll s parts s') :
    s'.context.registrations = parts.foldl FunctionPart.subscribeAmong s.context.registrations := by
  induction files with
  | done => rfl
  | next first _ ih => rw [ih, first.registrations, List.foldl_cons]

theorem made (files : env.FilesAll s parts s') {p : FunctionPart} (member : p ∈ parts) :
    ∃ before : TranslatorState, p.method = ((functionMethod env p.function p.decl).run before).1 ∧
      ((functionMethod env p.function p.decl).run before).2.context.errors =
        before.context.errors := by
  induction files with
  | done => exact nomatch member
  | next first _ ih =>
    rcases List.mem_cons.mp member with rfl | later
    · exact ⟨_, first.made, first.silent⟩
    · exact ih later

/-- Parts of one name have the parameters of the method that they are merged to. -/
theorem parameters (files : env.FilesAll s parts s') {name : String} {whole : MethodDecl}
    (filed : s'.context.methods.get? name = some whole) :
    (∀ old, s.context.methods.get? name = some old → old.parameters = whole.parameters) ∧
      ∀ p ∈ parts, p.method.name = name → p.method.parameters = whole.parameters := by
  induction files with
  | done =>
    refine ⟨fun old held => ?_, nofun⟩
    rw [Option.some.inj (held.symm.trans filed)]
  | @next s s' s'' p rest first _ ih =>
    obtain ⟨later, others⟩ := ih filed
    have here : p.method.name = name → ∃ merged, s'.context.methods.get? name = some merged ∧
        merged.parameters = p.method.parameters := by
      rintro rfl
      rw [first.methods]
      exact p.get?_fileAmong_self first.agrees
    refine ⟨fun old held => ?_, List.forall_mem_cons.mpr ⟨fun same => ?_, others⟩⟩
    · by_cases same : p.method.name = name
      · obtain ⟨merged, there, parameters⟩ := here same
        subst same
        rw [← later merged there, parameters]
        exact p.parameters_of_sameSignature (first.agrees old held)
      · refine later old ?_
        rw [first.methods, p.get?_fileAmong_of_ne (Ne.symm same), held]
    · obtain ⟨merged, there, parameters⟩ := here same
      rw [← later merged there, parameters]

end FilesAll

theorem flushRegistrations_errors (c : TranslationContext) (name : String) :
    (c.flushRegistrations name).errors = c.errors := by
  unfold TranslationContext.flushRegistrations
  split <;> rfl

/-- After a translation without errors all parts are filed, and the methods are those of the parts
when the subscriptions are put in front of theirs. -/
theorem translate_files (fileNothing : env.ExtensionsFileNothing) {trace : Option TraceRecord}
    (clean : (env.translate trace).errors = []) :
    ∃ s, env.FilesAll (env.opened trace) (env.parts trace) s ∧
      (env.translate trace).unit.classDecl.methods =
        (s.context.flushRegistrations env.options.registrationMethod).methods.values := by
  obtain ⟨grows, files⟩ :=
    translateFunctions_files fileNothing env.graph.functions (env.opened trace)
  have final := (flushRegistrations_errors _ _).symm.trans clean
  refine ⟨_, files (final.trans ?_), rfl⟩
  exact (List.prefix_nil.mp (final ▸ grows)).symm

theorem opened_files (env : TranslationEnv) (trace : Option TraceRecord) :
    (env.opened trace).context.methods = ∅ ∧ (env.opened trace).context.registrations = ∅ := by
  have kept := translateFields_filesNothing env
    ⟨.empty, trace.map (·.beginGraph env.graph.name), ∅, [], []⟩
  exact ⟨kept.methods, kept.registrations⟩

/-- Whatever errors there are, the methods of a class are put together from the parts. -/
theorem translate_madeOf (fileNothing : env.ExtensionsFileNothing) {trace : Option TraceRecord}
    {m : MethodDecl}
    (emitted : m ∈ (env.translate trace).unit.classDecl.methods) : m.MadeOf (env.parts trace) := by
  obtain ⟨methods, registrations⟩ := env.opened_files trace
  have gathers := translateFunctions_gathers fileNothing env.graph.functions (env.opened trace)
    (.nothing methods registrations)
  rw [List.nil_append] at gathers
  obtain ⟨name, entry⟩ := OrderedMap.mem_values_iff.mp emitted
  exact gathers.flush _ (OrderedMap.get?_eq_some_iff.mpr entry)

/-- How the method of a name is put together: the bodies of its parts stand in it one after the
other, behind the subscriptions if it holds any, and all of them have its parameters. -/
structure Assembles (env : TranslationEnv) (trace : Option TraceRecord) (name : String)
    (m : MethodDecl) : Prop where
  named : m.name = name
  body : m.body =
    env.subscriptionsOf trace name ++ (env.partsOf trace name).flatMap (·.method.body)
  parameters : ∀ p ∈ env.partsOf trace name, p.method.parameters = m.parameters

section Table

variable {trace : Option TraceRecord} {s : TranslatorState} {name : String} {m : MethodDecl}

theorem FilesAll.heldBy (files : env.FilesAll (env.opened trace) (env.parts trace) s) :
    FunctionPart.HeldBy (env.parts trace) s.context where
  methods := by rw [files.methods, (env.opened_files trace).1]
  registrations := by rw [files.registrations, (env.opened_files trace).2]

/-- All parts of a name have the parameters of a method with the signature of the first one. -/
theorem FilesAll.same_parameters (files : env.FilesAll (env.opened trace) (env.parts trace) s)
    (signature : ∀ first, (env.parts trace).find? (·.method.name = name) = some first →
      m.sameSignature first.method = true) {p : FunctionPart} (member : p ∈ env.partsOf trace name) :
    p.method.parameters = m.parameters := by
  obtain ⟨inside, named⟩ := List.mem_filter.mp member
  obtain ⟨first, head⟩ : ∃ first, (env.parts trace).find? (·.method.name = name) = some first :=
    Option.isSome_iff_exists.mp (List.find?_isSome.mpr ⟨p, inside, named⟩)
  obtain ⟨whole, filed⟩ : ∃ whole, s.context.methods.get? name = some whole := by
    rw [files.heldBy.get?, FunctionPart.wholeOf, List.head?_filter, head]
    exact ⟨_, rfl⟩
  obtain ⟨-, parameters⟩ := files.parameters filed
  have firstNamed : first.method.name = name := by simpa using List.find?_some head
  have own : m.parameters = first.method.parameters :=
    first.parameters_of_sameSignature (signature first head)
  rw [own, parameters p inside (of_decide_eq_true named),
    parameters first (List.mem_of_find?_eq_some head) firstNamed]

end Table

/-- The methods of a class by their names. -/
theorem translate_table (fileNothing : env.ExtensionsFileNothing) {trace : Option TraceRecord}
    (clean : (env.translate trace).errors = []) :
    ∃ table : OrderedMap String MethodDecl,
      (env.translate trace).unit.classDecl.methods = table.values ∧
      (∀ {name m}, table.get? name = some m → env.Assembles trace name m) ∧
      ∀ {name}, env.partsOf trace name ≠ [] ∨ env.subscriptionsOf trace name ≠ [] →
        (table.get? name).isSome := by
  obtain ⟨s, files, methods⟩ := translate_files fileNothing clean
  refine ⟨_, methods, fun filed => ?_, fun needed => files.heldBy.isSome_flush _ needed⟩
  obtain ⟨named, body, signature⟩ := files.heldBy.flush _ filed
  exact ⟨named, body, fun p member => files.same_parameters signature member⟩

theorem assembles (fileNothing : env.ExtensionsFileNothing) {trace : Option TraceRecord}
    (clean : (env.translate trace).errors = []) {m : MethodDecl}
    (emitted : m ∈ (env.translate trace).unit.classDecl.methods) :
    env.Assembles trace m.name m := by
  obtain ⟨table, methods, assembles, -⟩ := translate_table fileNothing clean
  rw [methods] at emitted
  obtain ⟨name, entry⟩ := OrderedMap.mem_values_iff.mp emitted
  have built := assembles (OrderedMap.get?_eq_some_iff.mpr entry)
  rw [built.named]
  exact built

theorem exists_method (fileNothing : env.ExtensionsFileNothing) {trace : Option TraceRecord}
    (clean : (env.translate trace).errors = []) {name : String}
    (needed : env.partsOf trace name ≠ [] ∨ env.subscriptionsOf trace name ≠ []) :
    ∃ m ∈ (env.translate trace).unit.classDecl.methods, m.name = name := by
  obtain ⟨table, methods, assembles, there⟩ := translate_table fileNothing clean
  obtain ⟨m, held⟩ := Option.isSome_iff_exists.mp (there needed)
  refine ⟨m, ?_, (assembles held).named⟩
  rw [methods]
  exact OrderedMap.mem_values_of_get? held

end TranslationEnv

end NodeScript
