import Mathlib
import NodeScript.Proofs.Code.Literals
import NodeScript.Proofs.Graph.Join
import NodeScript.Proofs.Translation.Assembly
import NodeScript.Typing.TypeDatabase

/-!
Subscriptions to custom events. Methods are subscribed, each of them once: of events whose methods
have one name, only that of the first function in the graph is subscribed to.
-/

namespace NodeScript

open NodeScript.Graph (placed wired numbered)

/-- The name of the method that waits for a custom event. -/
def handlerOf (event : String) : String := sanitize (EventKind.custom event).methodName

/-- The functions that custom events start, with the names of their events. -/
def Graph.customEntries (g : Graph) : List (NodeId × String) :=
  g.functions.filterMap fun f => f.2.customEvent?.map (f.1, ·)

/-- The first function whose method has the name of that of an event. -/
def Graph.firstEntry? (g : Graph) (event : String) : Option (NodeId × String) :=
  g.customEntries.find? fun entry => handlerOf entry.2 = handlerOf event

/-- Whether a statement subscribes a method to an event. -/
def Stmt.subscribes (event handler : String) : Stmt → Bool
  | .effect _ (.callOn (.ident bus) method [] [.literal text, .ident target]) =>
    bus = "EventBus" && method = "Subscribe" && target = handler &&
      text = String.ofList (quoteLiteral event.toList)
  | _ => false

theorem subscribes_subscription {function : NodeId} {event event' handler handler' : String} :
    (subscription function event' handler').subscribes event handler = true ↔
      event' = event ∧ handler' = handler := by
  have quoted : String.ofList (quoteLiteral event'.toList) =
      String.ofList (quoteLiteral event.toList) ↔ event' = event := by
    rw [String.ofList_inj, quoteLiteral_injective.eq_iff, String.toList_inj]
  simp [subscription, Expr.quoted, Stmt.subscribes, quoted, and_comm]

theorem FunctionDecl.methodName_of_customEvent? {decl : FunctionDecl} {event : String}
    (waits : decl.customEvent? = some event) : sanitize decl.methodName = handlerOf event := by
  unfold customEvent? at waits
  split at waits
  · rename_i kind
    obtain rfl := Option.some.inj waits
    rw [methodName, kind, handlerOf]
  · exact nomatch waits

/-- The first function for a method is the first for the method of its own event, which has the same
name. -/
theorem Graph.firstEntry?_first {g : Graph} {event : String} {first : NodeId × String}
    (found : g.firstEntry? event = some first) :
    handlerOf event = handlerOf first.2 ∧ g.firstEntry? first.2 = some first := by
  have same : handlerOf first.2 = handlerOf event := by simpa using List.find?_some found
  refine ⟨same.symm, ?_⟩
  rw [Graph.firstEntry?, same]
  exact found

namespace TranslationEnv

variable {env : TranslationEnv} {trace : Option TraceRecord}

theorem exists_part (env : TranslationEnv) (trace : Option TraceRecord) {function : NodeId}
    {event : String} (entry : (function, event) ∈ env.graph.customEntries) :
    ∃ p ∈ env.parts trace, p.function = function ∧ p.decl.customEvent? = some event := by
  rw [Graph.customEntries, ← env.parts_functions trace, List.filterMap_map] at entry
  obtain ⟨p, member, listed⟩ := List.mem_filterMap.mp entry
  obtain ⟨_, waits, same⟩ := Option.map_eq_some_iff.mp listed
  obtain ⟨rfl, rfl⟩ := Prod.mk.inj same
  exact ⟨p, member, rfl, waits⟩

/-- The subscriptions by the names of their methods. -/
theorem get?_subscriptions (env : TranslationEnv) (trace : Option TraceRecord) (event : String) :
    ((env.parts trace).foldl FunctionPart.subscribeAmong ∅).get? (handlerOf event) =
      (env.graph.firstEntry? event).map fun entry =>
        subscription entry.1 entry.2 (handlerOf event) := by
  rw [FunctionPart.get?_subscribeAll, Graph.firstEntry?, Graph.customEntries,
    ← env.parts_functions trace]
  have named : ∀ p ∈ env.parts trace, p.method.name = sanitize p.decl.methodName :=
    fun p member => parts_named member
  generalize env.parts trace = parts at named
  induction parts with
  | nil => rfl
  | cons p rest ih =>
    have later := ih fun p member => named p (.tail _ member)
    cases waits : p.decl.customEvent? with
    | none =>
      have silent : p.subscription? = none := by rw [FunctionPart.subscription?, waits]; rfl
      by_cases here : p.method.name = handlerOf event <;> simpa [here, waits, silent] using later
    | some event' =>
      have handler : p.method.name = handlerOf event' := by
        rw [named p (.head _), FunctionDecl.methodName_of_customEvent? waits]
      by_cases here : handlerOf event' = handlerOf event
      · simp [here, waits, handler, FunctionPart.subscription?]
      · simpa [here, waits, handler] using later

/-- A subscription stands under the name of its method, and it is that of the first function for the
method. -/
theorem subscription_origin {name : String} {s : Stmt}
    (entry : (name, s) ∈ ((env.parts trace).foldl FunctionPart.subscribeAmong ∅).entries) :
    ∃ function event, env.graph.firstEntry? event = some (function, event) ∧
      name = handlerOf event ∧ s = subscription function event name := by
  have held := OrderedMap.get?_eq_some_iff.mpr entry
  have made := held
  rw [FunctionPart.get?_subscribeAll] at made
  obtain ⟨p, member, subscribes⟩ := List.exists_of_findSome?_eq_some made
  obtain ⟨inside, named⟩ := List.mem_filter.mp member
  obtain ⟨event, waits, -⟩ := Option.map_eq_some_iff.mp subscribes
  have handler : name = handlerOf event := by
    rw [← of_decide_eq_true named, parts_named inside, FunctionDecl.methodName_of_customEvent? waits]
  subst handler
  rw [env.get?_subscriptions trace event] at held
  obtain ⟨⟨function, first⟩, found, rfl⟩ := Option.map_eq_some_iff.mp held
  obtain ⟨same, own⟩ := Graph.firstEntry?_first found
  exact ⟨function, first, own, same, rfl⟩

theorem mem_subscriptions {s : Stmt} :
    s ∈ env.subscriptions trace ↔ ∃ function event,
      env.graph.firstEntry? event = some (function, event) ∧
        s = subscription function event (handlerOf event) := by
  constructor
  · intro inside
    obtain ⟨name, entry⟩ := OrderedMap.mem_values_iff.mp inside
    obtain ⟨function, event, first, rfl, rfl⟩ := subscription_origin entry
    exact ⟨function, event, first, rfl⟩
  · rintro ⟨function, event, first, rfl⟩
    refine OrderedMap.mem_values_of_get? (k := handlerOf event) ?_
    rw [get?_subscriptions, first, Option.map_some]

/-- Of the events whose methods have one name, one is subscribed to. -/
theorem countP_subscriptions (env : TranslationEnv) (trace : Option TraceRecord) (event : String) :
    (env.subscriptions trace).countP (Stmt.subscribes event (handlerOf event)) =
      if (env.graph.firstEntry? event).any (·.2 = event) then 1 else 0 := by
  rw [subscriptions, OrderedMap.countP_values, get?_subscriptions]
  · cases env.graph.firstEntry? event with
    | none => rfl
    | some entry =>
      simp only [Option.map_some, Option.toList_some, List.countP_singleton, Option.any_some,
        subscribes_subscription, and_true, decide_eq_true_eq]
  · rintro ⟨name, s⟩ entry subscribes
    obtain ⟨function, other, -, -, rfl⟩ := subscription_origin entry
    exact (subscribes_subscription.mp subscribes).2

/-- The method for subscriptions begins with them. Each of them subscribes the method of a function
that waits for a custom event and is the first in the graph whose method has its name, so an event is
subscribed to, and then once, unless another event whose method has the same name comes before it. The
methods that are subscribed hold the statements of their functions. -/
theorem subscribes_first (env : TranslationEnv) (fileNothing : env.ExtensionsFileNothing)
    (trace : Option TraceRecord) (clean : (env.translate trace).errors = []) :
    let methods := (env.translate trace).unit.classDecl.methods
    let host := env.options.registrationMethod
    let subscriptions := env.subscriptions trace
    (∀ m ∈ methods, m.name = host →
        m.body = subscriptions ++ (env.partsOf trace host).flatMap (·.method.body)) ∧
      (∀ s ∈ subscriptions, ∃ function event, (function, event) ∈ env.graph.customEntries ∧
        s = subscription function event (handlerOf event)) ∧
      ∀ function event, (function, event) ∈ env.graph.customEntries →
        (∃ m ∈ methods, m.name = host) ∧
        (∃ m ∈ methods, m.name = handlerOf event ∧ ∃ p ∈ env.partsOf trace (handlerOf event),
          p.function = function ∧ p.decl.customEvent? = some event ∧ p.method.body <:+: m.body) ∧
        subscriptions.countP (Stmt.subscribes event (handlerOf event)) =
          if (env.graph.firstEntry? event).any (·.2 = event) then 1 else 0 := by
  refine ⟨?_, ?_, ?_⟩
  · intro m emitted named
    have body := (env.assembles fileNothing clean emitted).body
    rw [named, subscriptionsOf, if_pos rfl] at body
    exact body
  · intro s inside
    obtain ⟨function, event, first, rfl⟩ := mem_subscriptions.mp inside
    exact ⟨function, event, List.mem_of_find?_eq_some first, rfl⟩
  · intro function event entry
    refine ⟨?_, ?_, env.countP_subscriptions trace event⟩
    · have some : (env.graph.firstEntry? event).isSome :=
        List.find?_isSome.mpr ⟨_, entry, by simp⟩
      obtain ⟨first, found⟩ := Option.isSome_iff_exists.mp some
      have subscribed : subscription first.1 first.2 (handlerOf first.2) ∈
          env.subscriptions trace :=
        mem_subscriptions.mpr ⟨_, _, (Graph.firstEntry?_first found).2, rfl⟩
      refine env.exists_method fileNothing clean (.inr ?_)
      rw [subscriptionsOf, if_pos rfl]
      exact List.ne_nil_of_mem subscribed
    · obtain ⟨p, member, rfl, waits⟩ := env.exists_part trace entry
      have handler := (parts_named member).trans (FunctionDecl.methodName_of_customEvent? waits)
      have own : p ∈ env.partsOf trace (handlerOf event) :=
        List.mem_filter.mpr ⟨member, by simpa using handler⟩
      obtain ⟨m, emitted, named⟩ :=
        env.exists_method fileNothing clean (.inl (List.ne_nil_of_mem own))
      refine ⟨m, emitted, named, p, own, rfl, waits, ?_⟩
      have within : p.method.body <:+:
          (env.partsOf trace (handlerOf event)).flatMap (·.method.body) := by
        rw [List.flatMap_def]
        exact List.infix_of_mem_flatten (List.mem_map_of_mem own)
      rw [(env.assembles fileNothing clean emitted).body, named]
      exact within.trans (List.suffix_append _ _).isInfix

end TranslationEnv

/-- Two functions that wait for events whose names differ by a blank, which no identifier has. -/
def chorus : Graph :=
  { Graph.empty "Chorus" with
    nodes := ⟨
      [placed 10 (.function (.onEvent (.custom "Jump"))) none [] [.execOutput "Out"],
        placed 20 (.function (.onEvent (.custom "Ju mp"))) none [] [.execOutput "Out"]],
      by decide⟩ }

def chorusEnv : TranslationEnv := ⟨chorus, TypeDatabase.empty.toOracle, .standard, ∅⟩

/-- Only the first event of the chorus is subscribed to. -/
theorem TranslationEnv.subscribes_first_chorus :
    chorusEnv.ExtensionsFileNothing ∧ (chorusEnv.translate none).errors = [] ∧
      (⟨numbered 20⟩, "Ju mp") ∈ chorus.customEntries ∧
      (chorusEnv.subscriptions none).countP (Stmt.subscribes "Ju mp" (handlerOf "Ju mp")) = 0 := by
  have builtIn : chorus.BuiltIn := Graph.BuiltIn.of_entries (by decide)
  have clean : (chorusEnv.translate none).errors = [] := by decide +kernel
  have entry : (⟨numbered 20⟩, "Ju mp") ∈ chorus.customEntries := by decide +kernel
  have late : (chorus.firstEntry? "Ju mp").any (·.2 = "Ju mp") = false := by decide +kernel
  obtain ⟨-, -, each⟩ := subscribes_first chorusEnv builtIn.extensionsFileNothing none clean
  obtain ⟨-, -, count⟩ := each _ _ entry
  refine ⟨builtIn.extensionsFileNothing, clean, entry, count.trans ?_⟩
  rw [show chorusEnv.graph = chorus from rfl, late]
  rfl

/-- Two events with functions of their own, and a method that subscribes to one of them only. -/
theorem TranslationEnv.subscribes_first_neglected :
    (chorusEnv.translate none).errors = [] ∧
      chorus.customEntries = [(⟨numbered 10⟩, "Jump"), (⟨numbered 20⟩, "Ju mp")] ∧
      ∃ m ∈ (chorusEnv.translate none).unit.classDecl.methods, m.name = "Start" ∧
        m.body.countP (Stmt.subscribes "Jump" (handlerOf "Jump")) = 1 ∧
        m.body.countP (Stmt.subscribes "Ju mp" (handlerOf "Ju mp")) = 0 := by
  have methods : (chorusEnv.translate none).unit.classDecl.methods.map (fun m =>
      (m.name, m.body.countP (Stmt.subscribes "Jump" (handlerOf "Jump")),
        m.body.countP (Stmt.subscribes "Ju mp" (handlerOf "Ju mp")))) =
      [("OnJump", 0, 0), ("Start", 1, 0)] := by decide +kernel
  have last : ("Start", 1, 0) ∈ [("OnJump", 0, 0), ("Start", 1, 0)] := by decide
  obtain ⟨m, emitted, told⟩ := List.mem_map.mp (methods ▸ last)
  obtain ⟨named, counts⟩ := Prod.mk.inj told
  obtain ⟨jump, blank⟩ := Prod.mk.inj counts
  exact ⟨by decide +kernel, by decide +kernel, m, emitted, named, jump, blank⟩

end NodeScript
