import NodeScript.Proofs.Translation.Scoping

/-!
Declarations in blocks. What a block declares may be named in the whole block and in the blocks inside
it, so nothing inside may declare it again. The bodies of a selection stand in one block, and the item
of a loop belongs to its body.
-/

namespace NodeScript

/-- The name that a statement declares in the block that it stands in. -/
def Stmt.ownName? : Stmt → Option String
  | .declare _ _ name _ => some name
  | _ => none

/-- The names that a block declares itself. -/
def Stmt.blockNames (block : List Stmt) : List String := block.filterMap Stmt.ownName?

def SwitchCase.blockNames (cases : List SwitchCase) : List String :=
  cases.flatMap fun c => Stmt.blockNames c.body

mutual

/-- The names that are declared in the blocks inside a statement. -/
def Stmt.innerNames : Stmt → List String
  | .branch _ _ thenBody elseBody =>
    Stmt.blockNames thenBody ++ Stmt.innerNamesAll thenBody ++
      (Stmt.blockNames elseBody ++ Stmt.innerNamesAll elseBody)
  | .select _ _ cases fallback =>
    SwitchCase.blockNames cases ++ Stmt.blockNames fallback ++
      (SwitchCase.innerNamesAll cases ++ Stmt.innerNamesAll fallback)
  | .repeated _ _ body => Stmt.blockNames body ++ Stmt.innerNamesAll body
  | .forEach _ item _ body => item :: Stmt.blockNames body ++ Stmt.innerNamesAll body
  | _ => []

def Stmt.innerNamesAll : List Stmt → List String
  | [] => []
  | s :: rest => s.innerNames ++ Stmt.innerNamesAll rest

def SwitchCase.innerNamesAll : List SwitchCase → List String
  | [] => []
  | .mk _ body :: rest => Stmt.innerNamesAll body ++ SwitchCase.innerNamesAll rest

end

/-- A block that declares names declares none of them twice and none that is declared around it, and
what is inside it fits to all of these. -/
def OpensBlock (around own : List String) (inside : List String → Prop) : Prop :=
  own.Nodup ∧ (∀ name ∈ own, name ∉ around) ∧ inside (own ++ around)

mutual

/-- Nothing inside a statement declares a name whose declaration reaches there from around it. -/
def Stmt.Apart : Stmt → List String → Prop
  | .branch _ _ thenBody elseBody, around =>
    OpensBlock around (Stmt.blockNames thenBody) (Stmt.AllApart thenBody) ∧
      OpensBlock around (Stmt.blockNames elseBody) (Stmt.AllApart elseBody)
  | .select _ _ cases fallback, around =>
    OpensBlock around (SwitchCase.blockNames cases ++ Stmt.blockNames fallback) fun names =>
      SwitchCase.AllApart cases names ∧ Stmt.AllApart fallback names
  | .repeated _ _ body, around => OpensBlock around (Stmt.blockNames body) (Stmt.AllApart body)
  | .forEach _ item _ body, around =>
    OpensBlock around (item :: Stmt.blockNames body) (Stmt.AllApart body)
  | _, _ => True

def Stmt.AllApart : List Stmt → List String → Prop
  | [], _ => True
  | s :: rest, around => s.Apart around ∧ Stmt.AllApart rest around

def SwitchCase.AllApart : List SwitchCase → List String → Prop
  | [], _ => True
  | .mk _ body :: rest, around => Stmt.AllApart body around ∧ SwitchCase.AllApart rest around

end

/-- A method whose statements declare no parameter, and nothing twice in blocks that overlap. -/
def MethodDecl.Apart (m : MethodDecl) : Prop :=
  OpensBlock (m.parameters.map (·.name)) (Stmt.blockNames m.body) (Stmt.AllApart m.body)

/-! ### Names that are all distinct -/

theorem OpensBlock.of_nodup {around own inner : List String} {inside : List String → Prop}
    (distinct : (own ++ inner).Nodup) (free : ∀ name ∈ own ++ inner, name ∉ around)
    (fits : inner.Nodup → ∀ names, (∀ name ∈ inner, name ∉ names) → inside names) :
    OpensBlock around own inside := by
  obtain ⟨ownDistinct, innerDistinct, apart⟩ := List.nodup_append.mp distinct
  refine ⟨ownDistinct, fun name member => free name (List.mem_append_left _ member), ?_⟩
  refine fits innerDistinct _ fun name member => ?_
  rw [List.mem_append, not_or]
  exact ⟨fun own => apart name own name member rfl, free name (List.mem_append_right _ member)⟩

mutual

theorem Stmt.apart_of_nodup (s : Stmt) {around : List String} (distinct : s.innerNames.Nodup)
    (free : ∀ name ∈ s.innerNames, name ∉ around) : s.Apart around := by
  cases s with
  | branch origin condition thenBody elseBody =>
    rw [Stmt.innerNames] at distinct free
    obtain ⟨first, second, -⟩ := List.nodup_append.mp distinct
    rw [List.forall_mem_append] at free
    rw [Stmt.Apart]
    exact ⟨.of_nodup first free.1 fun distinct _ => Stmt.allApart_of_nodup thenBody distinct,
      .of_nodup second free.2 fun distinct _ => Stmt.allApart_of_nodup elseBody distinct⟩
  | select origin value cases fallback =>
    rw [Stmt.innerNames] at distinct free
    rw [Stmt.Apart]
    refine .of_nodup distinct free fun distinct names free => ?_
    obtain ⟨first, second, -⟩ := List.nodup_append.mp distinct
    rw [List.forall_mem_append] at free
    exact ⟨SwitchCase.allApart_of_nodup cases first free.1,
      Stmt.allApart_of_nodup fallback second free.2⟩
  | repeated origin condition body =>
    rw [Stmt.innerNames] at distinct free
    rw [Stmt.Apart]
    exact .of_nodup distinct free fun distinct _ => Stmt.allApart_of_nodup body distinct
  | forEach origin item collection body =>
    rw [Stmt.innerNames] at distinct free
    rw [Stmt.Apart]
    exact .of_nodup distinct free fun distinct _ => Stmt.allApart_of_nodup body distinct
  | _ => simp only [Stmt.Apart]

theorem Stmt.allApart_of_nodup (stmts : List Stmt) {around : List String}
    (distinct : (Stmt.innerNamesAll stmts).Nodup)
    (free : ∀ name ∈ Stmt.innerNamesAll stmts, name ∉ around) : Stmt.AllApart stmts around := by
  match stmts with
  | [] => trivial
  | s :: rest =>
    rw [Stmt.innerNamesAll] at distinct free
    obtain ⟨first, second, -⟩ := List.nodup_append.mp distinct
    rw [List.forall_mem_append] at free
    rw [Stmt.AllApart]
    exact ⟨s.apart_of_nodup first free.1, Stmt.allApart_of_nodup rest second free.2⟩

theorem SwitchCase.allApart_of_nodup (cases : List SwitchCase) {around : List String}
    (distinct : (SwitchCase.innerNamesAll cases).Nodup)
    (free : ∀ name ∈ SwitchCase.innerNamesAll cases, name ∉ around) :
    SwitchCase.AllApart cases around := by
  match cases with
  | [] => trivial
  | .mk label body :: rest =>
    rw [SwitchCase.innerNamesAll] at distinct free
    obtain ⟨first, second, -⟩ := List.nodup_append.mp distinct
    rw [List.forall_mem_append] at free
    rw [SwitchCase.AllApart]
    exact ⟨Stmt.allApart_of_nodup body first free.1,
      SwitchCase.allApart_of_nodup rest second free.2⟩

end

/-! ### More names around -/

/-- The names around a block, and further ones. -/
def Widens (extra around wide : List String) : Prop :=
  ∀ name, name ∈ wide ↔ name ∈ extra ∨ name ∈ around

section Widen

variable {extra : List String}

theorem OpensBlock.widen {around wide own inner : List String} {inside : List String → Prop}
    (widens : Widens extra around wide)
    (within : ∀ {around wide}, Widens extra around wide →
      (inside wide ↔ inside around ∧ ∀ name ∈ inner, name ∉ extra)) :
    OpensBlock wide own inside ↔
      OpensBlock around own inside ∧ ∀ name ∈ own ++ inner, name ∉ extra := by
  have deeper : Widens extra (own ++ around) (own ++ wide) :=
    fun name => by rw [List.mem_append, List.mem_append, widens name, or_left_comm]
  unfold OpensBlock
  rw [within deeper, List.forall_mem_append]
  constructor
  · rintro ⟨distinct, free, fits, later⟩
    refine ⟨⟨distinct, fun name member held => ?_, fits⟩, fun name member held => ?_, later⟩
    · exact free name member ((widens name).mpr (.inr held))
    · exact free name member ((widens name).mpr (.inl held))
  · rintro ⟨⟨distinct, free, fits⟩, first, later⟩
    refine ⟨distinct, fun name member held => ?_, fits, later⟩
    exact ((widens name).mp held).elim (first name member) (free name member)

mutual

/-- More names around a statement leave it apart if they are declared nowhere inside it. -/
theorem Stmt.apart_widen (s : Stmt) {around wide : List String}
    (widens : Widens extra around wide) :
    s.Apart wide ↔ s.Apart around ∧ ∀ name ∈ s.innerNames, name ∉ extra := by
  cases s with
  | branch origin condition thenBody elseBody =>
    rw [Stmt.Apart, Stmt.Apart, Stmt.innerNames, List.forall_mem_append,
      OpensBlock.widen widens (Stmt.allApart_widen thenBody),
      OpensBlock.widen widens (Stmt.allApart_widen elseBody)]
    exact and_and_and_comm
  | select origin value cases fallback =>
    rw [Stmt.Apart, Stmt.Apart, Stmt.innerNames]
    refine OpensBlock.widen widens fun widens => ?_
    rw [SwitchCase.allApart_widen cases widens, Stmt.allApart_widen fallback widens,
      List.forall_mem_append]
    exact and_and_and_comm
  | repeated origin condition body =>
    rw [Stmt.Apart, Stmt.Apart, Stmt.innerNames]
    exact OpensBlock.widen widens (Stmt.allApart_widen body)
  | forEach origin item collection body =>
    rw [Stmt.Apart, Stmt.Apart, Stmt.innerNames]
    exact OpensBlock.widen widens (Stmt.allApart_widen body)
  | _ => simp [Stmt.Apart, Stmt.innerNames]

theorem Stmt.allApart_widen (stmts : List Stmt) {around wide : List String}
    (widens : Widens extra around wide) :
    Stmt.AllApart stmts wide ↔
      Stmt.AllApart stmts around ∧ ∀ name ∈ Stmt.innerNamesAll stmts, name ∉ extra := by
  match stmts with
  | [] => simp [Stmt.AllApart, Stmt.innerNamesAll]
  | s :: rest =>
    rw [Stmt.AllApart, Stmt.AllApart, Stmt.innerNamesAll, List.forall_mem_append,
      s.apart_widen widens, Stmt.allApart_widen rest widens]
    exact and_and_and_comm

theorem SwitchCase.allApart_widen (cases : List SwitchCase) {around wide : List String}
    (widens : Widens extra around wide) :
    SwitchCase.AllApart cases wide ↔
      SwitchCase.AllApart cases around ∧
        ∀ name ∈ SwitchCase.innerNamesAll cases, name ∉ extra := by
  match cases with
  | [] => simp [SwitchCase.AllApart, SwitchCase.innerNamesAll]
  | .mk label body :: rest =>
    rw [SwitchCase.AllApart, SwitchCase.AllApart, SwitchCase.innerNamesAll,
      List.forall_mem_append, Stmt.allApart_widen body widens,
      SwitchCase.allApart_widen rest widens]
    exact and_and_and_comm

end

end Widen

/-! ### Statements one after the other -/

section Append

variable {a b : List Stmt} {around : List String}

theorem Stmt.blockNames_append :
    Stmt.blockNames (a ++ b) = Stmt.blockNames a ++ Stmt.blockNames b :=
  List.filterMap_append

theorem Stmt.innerNamesAll_append :
    Stmt.innerNamesAll (a ++ b) = Stmt.innerNamesAll a ++ Stmt.innerNamesAll b := by
  induction a with
  | nil => rfl
  | cons s rest ih => simp only [List.cons_append, Stmt.innerNamesAll, ih, List.append_assoc]

theorem Stmt.innerNamesAll_eq_nil (plain : ∀ s ∈ a, s.innerNames = []) :
    Stmt.innerNamesAll a = [] := by
  induction a with
  | nil => rfl
  | cons s rest ih =>
    obtain ⟨here, later⟩ := List.forall_mem_cons.mp plain
    rw [Stmt.innerNamesAll, here, ih later, List.nil_append]

theorem Stmt.allApart_append :
    Stmt.AllApart (a ++ b) around ↔ Stmt.AllApart a around ∧ Stmt.AllApart b around := by
  induction a with
  | nil => simp [Stmt.AllApart]
  | cons s rest ih => simp only [List.cons_append, Stmt.AllApart, ih, and_assoc]

/-- Statements that declare nothing may stand in front of a block. -/
theorem OpensBlock.behind_plain (plain : ∀ s ∈ a, s.ownName? = none ∧ s.innerNames = []) :
    OpensBlock around (Stmt.blockNames (a ++ b)) (Stmt.AllApart (a ++ b)) ↔
      OpensBlock around (Stmt.blockNames b) (Stmt.AllApart b) := by
  have own : Stmt.blockNames a = [] :=
    List.filterMap_eq_nil_iff.mpr fun s inside => (plain s inside).1
  have inner := Stmt.innerNamesAll_eq_nil fun s inside => (plain s inside).2
  have apart (names : List String) : Stmt.AllApart a names := by
    refine Stmt.allApart_of_nodup a ?_ ?_
    · rw [inner]
      exact List.nodup_nil
    · rw [inner]
      exact nofun
  unfold OpensBlock
  rw [Stmt.blockNames_append, own, List.nil_append, Stmt.allApart_append]
  exact and_congr_right fun _ => and_congr_right fun _ => and_iff_right (apart _)

end Append

/-! ### What is translated -/

variable {env : TranslationEnv} {scope after : Scope} {stmts : List Stmt}

theorem perm_append_append (a b c d : List String) :
    (a ++ b ++ (c ++ d)).Perm (a ++ c ++ (b ++ d)) := by
  rw [List.append_assoc, List.append_assoc]
  exact (List.perm_append_comm_assoc b c d).append_left a

theorem SwitchCase.names_perm {cases : List SwitchCase}
    (same : ∀ c ∈ cases, (Stmt.blockNames c.body ++ Stmt.innerNamesAll c.body).Perm
      (Stmt.localNamesAll c.body)) :
    (SwitchCase.blockNames cases ++ SwitchCase.innerNamesAll cases).Perm
      (SwitchCase.localNamesAll cases) := by
  induction cases with
  | nil => exact .nil
  | cons c rest ih =>
    obtain ⟨here, later⟩ := List.forall_mem_cons.mp same
    obtain ⟨label, body⟩ := c
    rw [blockNames, List.flatMap_cons, innerNamesAll, localNamesAll]
    exact (perm_append_append _ _ _ _).trans (here.append (ih later))

/-- Statements of stacks declare their locals and nothing else. -/
theorem Scoped.names_perm (reads : Scoped env scope stmts after) :
    (Stmt.blockNames stmts ++ Stmt.innerNamesAll stmts).Perm (Stmt.localNamesAll stmts) := by
  have later {s : Stmt} {rest : List Stmt} (own : s.ownName? = none)
      (here : s.innerNames.Perm s.localNames)
      (ih : (Stmt.blockNames rest ++ Stmt.innerNamesAll rest).Perm (Stmt.localNamesAll rest)) :
      (Stmt.blockNames (s :: rest) ++ Stmt.innerNamesAll (s :: rest)).Perm
        (Stmt.localNamesAll (s :: rest)) := by
    rw [Stmt.blockNames, List.filterMap_cons_none own, Stmt.innerNamesAll, Stmt.localNamesAll]
    exact (List.perm_append_comm_assoc _ _ _).trans (here.append ih)
  induction reads with
  | nil => exact .nil
  | hook _ ih => exact later rfl .nil ih
  | assign _ _ _ _ _ ih => exact later rfl .nil ih
  | effect _ _ _ _ ih => exact later rfl .nil ih
  | leave _ _ _ _ ih => exact later rfl .nil ih
  | declare _ _ _ _ ih => exact ih.cons _
  | branch _ _ _ _ _ _ thenNames elseNames ih =>
    refine later rfl ?_ ih
    rw [Stmt.innerNames, Stmt.localNames]
    exact thenNames.append elseNames
  | select _ _ _ _ _ _ _ caseNames fallbackNames ih =>
    refine later rfl ?_ ih
    rw [Stmt.innerNames, Stmt.localNames]
    exact (perm_append_append _ _ _ _).trans
      ((SwitchCase.names_perm caseNames).append fallbackNames)
  | repeated _ _ _ _ _ names ih =>
    refine later rfl ?_ ih
    rw [Stmt.innerNames, Stmt.localNames]
    exact names
  | forEach _ _ _ _ _ names ih =>
    refine later rfl ?_ ih
    rw [Stmt.innerNames, Stmt.localNames]
    exact names.cons _

end NodeScript
