import NodeScript.Proofs.Typing.Solving
import NodeScript.Proofs.Typing.TypeText

/-!
Type variables when they are bound and when they are replaced. Types without variables take the place
of the variables that are bound and leave the others in their order; to replace some variables and
then others is to replace all of them at once; and what was made a variable stays one.
-/

namespace NodeScript

/-- The types that variables are bound to have no variables themselves. -/
def Bindings.Closed (bindings : Bindings) : Prop := ∀ t ∈ bindings.values, t.isOpen = false

instance (bindings : Bindings) : Decidable bindings.Closed :=
  inferInstanceAs (Decidable (∀ t ∈ bindings.values, t.isOpen = false))

/-- A filter looks at a name in the same way whether it is added or was there already. -/
theorem filter_addName (keep : String → Bool) (names : List String) (name : String) :
    (addName names name).filter keep =
      if keep name then addName (names.filter keep) name else names.filter keep := by
  by_cases there : name ∈ names <;> cases kept : keep name <;> simp [addName, there, kept]

namespace TypeExpr

variable {v name : String} {t : TypeExpr} {args : List TypeExpr} {params : List String}
  {bindings more : Bindings}

/-! ### Which variables there are -/

theorem mem_vars_var : v ∈ (var name).vars ↔ v = name := by
  simp [vars, collectVars, addName]

theorem mem_vars_named : v ∈ (named name args).vars ↔ ∃ t ∈ args, v ∈ t.vars := by
  rw [vars, collectVars, mem_collectVarsAll]
  simp

theorem isOpen_iff (t : TypeExpr) : t.isOpen = true ↔ ∃ v, v ∈ t.vars := by
  cases t with
  | var name => simp [isOpen, mem_vars_var]
  | named name args =>
    simp only [isOpen, anyOpen_eq_any, List.any_eq_true, mem_vars_named]
    constructor
    · rintro ⟨t, member, opens⟩
      obtain ⟨v, occurs⟩ := (isOpen_iff t).mp opens
      exact ⟨v, t, member, occurs⟩
    · rintro ⟨v, t, member, occurs⟩
      exact ⟨t, member, (isOpen_iff t).mpr ⟨v, occurs⟩⟩

theorem isOpen_iff_vars_ne_nil (t : TypeExpr) : t.isOpen = true ↔ t.vars ≠ [] := by
  rw [isOpen_iff, ne_eq, List.eq_nil_iff_forall_not_mem, not_forall_not]

mutual

/-- A type without variables adds nothing to what was collected. -/
theorem collectVars_of_closed {found : List String} :
    (t : TypeExpr) → t.isOpen = false → t.collectVars found = found
  | .var _, closed => by simp [isOpen] at closed
  | .named _ args, closed => by rw [collectVars, collectVarsAll_of_closed args closed]

theorem collectVarsAll_of_closed {found : List String} :
    (ts : List TypeExpr) → anyOpen ts = false → collectVarsAll found ts = found
  | [], _ => rfl
  | t :: rest, closed => by
    obtain ⟨first, others⟩ := Bool.or_eq_false_iff.mp closed
    rw [collectVarsAll, collectVars_of_closed t first, collectVarsAll_of_closed rest others]

end

/-! ### Substitution -/

theorem isOpen_of_closed (closed : bindings.Closed)
    (bound : bindings.get? name = some t) : t.isOpen = false :=
  closed t (OrderedMap.mem_values_of_get? bound)

mutual

/-- What is collected after types without variables were put in is what was collected before, less
the variables they were put in for. The names collected so far are filtered as well, since the first
occurrence of a variable may lie among them. -/
theorem collectVars_substitute {found : List String} (closed : bindings.Closed) : (t : TypeExpr) →
    (t.substitute bindings).collectVars (found.filter (· ∉ bindings.keys)) =
      (t.collectVars found).filter (· ∉ bindings.keys)
  | .var name => by
    rw [substitute, collectVars, filter_addName]
    cases held : bindings.get? name with
    | none =>
      have unbound : name ∉ bindings.keys := OrderedMap.get?_eq_none_iff.mp held
      simp [collectVars, unbound]
    | some u =>
      have bound : name ∈ bindings.keys := OrderedMap.mem_keys_of_get? held
      simp [collectVars_of_closed u (isOpen_of_closed closed held), bound]
  | .named _ args => by
    rw [substitute, collectVars, collectVars, collectVarsAll_substitute closed args]

theorem collectVarsAll_substitute {found : List String} (closed : bindings.Closed) :
    (ts : List TypeExpr) → collectVarsAll (found.filter (· ∉ bindings.keys)) (substituteAll bindings ts) =
      (collectVarsAll found ts).filter (· ∉ bindings.keys)
  | [] => rfl
  | t :: rest => by
    rw [substituteAll, collectVarsAll, collectVarsAll, collectVars_substitute closed t,
      collectVarsAll_substitute closed rest]

end

theorem vars_substitute (closed : bindings.Closed) (t : TypeExpr) :
    (t.substitute bindings).vars = t.vars.filter (· ∉ bindings.keys) := by
  rw [vars, vars, ← collectVars_substitute closed t, List.filter_nil]

/-- Bindings to which others are added are looked up first. -/
theorem get?_addNewBindings_entries (bindings more : Bindings) (name : String) :
    (addNewBindings bindings more.entries).get? name =
      (bindings.get? name).or (more.get? name) :=
  get?_addNewBindings more.entries name

mutual

/-- Types without variables are not touched by what is put in later, so to put in both at once comes
to the same. -/
theorem substitute_substitute (closed : bindings.Closed) : (t : TypeExpr) →
    (t.substitute bindings).substitute more =
      t.substitute (addNewBindings bindings more.entries)
  | .var name => by
    rw [substitute, substitute, get?_addNewBindings_entries]
    cases held : bindings.get? name with
    | none => rw [Option.none_or, Option.getD_none, substitute]
    | some u =>
      rw [Option.some_or, Option.getD_some]
      exact substitute_of_closed u (isOpen_of_closed closed held)
  | .named _ args => by
    rw [substitute, substitute, substitute, substituteAll_substituteAll closed args]

theorem substituteAll_substituteAll (closed : bindings.Closed) : (ts : List TypeExpr) →
    substituteAll more (substituteAll bindings ts) =
      substituteAll (addNewBindings bindings more.entries) ts
  | [] => rfl
  | t :: rest => by
    rw [substituteAll, substituteAll, substituteAll, substitute_substitute closed t,
      substituteAll_substituteAll closed rest]

end

/-! ### Binding -/

theorem mem_plainNamesAll {ts : List TypeExpr} : v ∈ plainNamesAll ts ↔ ∃ t ∈ ts, v ∈ t.plainNames := by
  induction ts with
  | nil => simp [plainNamesAll]
  | cons t rest ih => rw [plainNamesAll, List.mem_append, ih, List.exists_mem_cons_iff]

theorem mem_plainNames_named : v ∈ (named name args).plainNames ↔
    (args = [] ∧ v = name) ∨ ∃ t ∈ args, v ∈ t.plainNames := by
  rw [plainNames]
  cases args with
  | nil => simp
  | cons a rest => simp [mem_plainNamesAll]

/-- Binding turns plain names into variables and leaves the variables that are there. -/
theorem mem_vars_bindParams (t : TypeExpr) :
    v ∈ (t.bindParams params).vars ↔ v ∈ t.vars ∨ v ∈ t.plainNames ∧ v ∈ params := by
  cases t with
  | var name => simp [bindParams, plainNames]
  | named name args =>
    have inside : (∃ t ∈ args, v ∈ (t.bindParams params).vars) ↔
        (∃ t ∈ args, v ∈ t.vars) ∨ (∃ t ∈ args, v ∈ t.plainNames) ∧ v ∈ params := by
      simp only [← exists_and_right, ← exists_or, ← and_or_left, and_assoc]
      refine exists_congr fun t => and_congr_right fun member => ?_
      exact mem_vars_bindParams t
    rw [bindParams, mem_vars_named, mem_plainNames_named]
    split
    · rename_i binds
      obtain ⟨empty, listed⟩ := Bool.and_eq_true_iff.mp binds
      obtain rfl := List.isEmpty_iff.mp empty
      have among : name ∈ params := by simpa using listed
      rw [mem_vars_var]
      simp +contextual [among]
    · rename_i keeps
      have unbound : args = [] → v = name → v ∉ params := by
        rintro rfl rfl listed
        exact keeps (by simpa using listed)
      rw [bindParamsAll_eq_map, mem_vars_named]
      simp only [List.mem_map, exists_exists_and_eq_and]
      rw [inside]
      constructor
      · rintro (there | ⟨plain, listed⟩)
        · exact .inl there
        · exact .inr ⟨.inr plain, listed⟩
      · rintro (there | ⟨⟨empty, same⟩ | plain, listed⟩)
        · exact .inl there
        · exact absurd listed (unbound empty same)
        · exact .inr ⟨plain, listed⟩

theorem isEmpty_bindParamsAll (ts : List TypeExpr) :
    (bindParamsAll params ts).isEmpty = ts.isEmpty := by
  cases ts <;> rfl

mutual

/-- Names that are bound are no names any more, and the others are as little in the list as before. -/
theorem bindParams_bindParams : (t : TypeExpr) →
    (t.bindParams params).bindParams params = t.bindParams params
  | .var _ => rfl
  | .named name args => by
    by_cases binds : (args.isEmpty && params.contains name) = true
    · rw [bindParams, if_pos binds, bindParams]
    · rw [bindParams, if_neg binds, bindParams, isEmpty_bindParamsAll, if_neg binds,
        bindParamsAll_bindParamsAll args]

theorem bindParamsAll_bindParamsAll : (ts : List TypeExpr) →
    bindParamsAll params (bindParamsAll params ts) = bindParamsAll params ts
  | [] => rfl
  | t :: rest => by
    rw [bindParamsAll, bindParamsAll, bindParams_bindParams t, bindParamsAll_bindParamsAll rest]

end

/-- Where types without variables are put in, the variables they are put in for are gone from the list
of variables and the others are left in their order; and what is put in afterwards may be put in at
once, together with the first types, which come first where both are for the same variable. A type has
variables exactly if any are listed, and to bind names twice is to bind them once. -/
theorem substitution_laws (t : TypeExpr) (params : List String) {bindings : Bindings}
    (closed : bindings.Closed) :
    (t.substitute bindings).vars = t.vars.filter (· ∉ bindings.keys) ∧
    (t.isOpen = true ↔ t.vars ≠ []) ∧
    (∀ more : Bindings,
      (t.substitute bindings).substitute more =
        t.substitute (addNewBindings bindings more.entries) ∧
      ∀ name, (addNewBindings bindings more.entries).get? name =
        (bindings.get? name).or (more.get? name)) ∧
    (t.bindParams params).bindParams params = t.bindParams params :=
  ⟨vars_substitute closed t, isOpen_iff_vars_ne_nil t,
    fun more => ⟨substitute_substitute closed t, get?_addNewBindings_entries bindings more⟩,
    bindParams_bindParams t⟩

/-- Tables from arrays of one variable to pairs of another one with the first, next to a third. -/
def ledgers : TypeExpr :=
  named "Ledger" [array (var "Key"), named "Pair" [var "Value", var "Key"], var "Note"]

/-- Amounts that are put in for two of the variables, and what is put in after that, partly for the
same ones. -/
theorem substitution_laws_ledgers :
    let amounts : Bindings := ⟨[("Value", array (plain "float")), ("Note", plain "string")], by decide⟩
    let later : Bindings := ⟨[("Note", plain "int"), ("Key", plain "Id")], by decide⟩
    amounts.Closed ∧ ledgers.vars = ["Key", "Value", "Note"] ∧
      (ledgers.substitute amounts).vars = ["Key"] ∧ (ledgers.substitute amounts).isOpen = true ∧
      ((ledgers.substitute amounts).substitute later).text =
        "Ledger<Id[], Pair<float[], Id>, string>" ∧
      (ledgers.substitute amounts).substitute later =
        ledgers.substitute (addNewBindings amounts later.entries) ∧
      ((ledgers.substitute amounts).bindParams ["float", "Pair"]).bindParams ["float", "Pair"] =
        (ledgers.substitute amounts).bindParams ["float", "Pair"] := by
  intro amounts later
  have closed : amounts.Closed := by decide
  obtain ⟨vars, -, atOnce, -⟩ := substitution_laws ledgers [] closed
  obtain ⟨-, isOpen, -, again⟩ :=
    substitution_laws (ledgers.substitute amounts) ["float", "Pair"] closed
  have left : (ledgers.substitute amounts).vars = ["Key"] := vars.trans (by decide)
  exact ⟨closed, by decide, left, isOpen.mpr (by simp [left]), by decide +kernel, (atOnce later).1,
    again⟩

/-- A type with variables that is put in leaves its own: the list is not just the shorter for it. -/
example : ((var "T").substitute ⟨[("T", var "U")], by decide⟩).vars = ["U"] := by decide

end TypeExpr

end NodeScript
