import NodeScript.Proofs.Graph.Inferred
import NodeScript.Proofs.Typing.Merges

/-!
Open slots of registered methods. A method is bound to all variables of its type when it is
registered, while it lists only those that its own declaring type is written with. So a variable of
the type that stands in a parameter or in the result is listed exactly if the signature writes it out,
there or among the variables of the method itself; and a call whose method lists its variables is
never passed over.
-/

namespace NodeScript

/-! ### Variables of bound types -/

namespace TypeExpr

/-- A name is a variable of the type, or becomes one where the names of a list are bound. -/
def HasVar (t : TypeExpr) (bound : List String) (v : String) : Prop :=
  v ∈ t.vars ∨ v ∈ t.plainNames ∧ v ∈ bound

end TypeExpr

/-! ### One registration -/

namespace MethodSignature

variable {m : MethodSignature} {v : String} {typeLevel : List String}

/-- Every variable that occurs in a slot is listed. -/
def Inferable (m : MethodSignature) : Prop :=
  ∀ t ∈ m.slotTypes, ∀ v ∈ t.vars, v ∈ m.typeVariables

theorem mem_typeVariables :
    v ∈ m.typeVariables ↔ v ∈ m.declaringType.vars ∨ v ∈ m.genericParameters := by
  have added : ∀ names : List String, v ∈ m.genericParameters.foldl addName names ↔
      v ∈ names ∨ v ∈ m.genericParameters := by
    induction m.genericParameters with
    | nil => simp
    | cons name rest ih =>
      intro names
      rw [List.foldl_cons, ih, List.mem_cons, ← or_assoc]
      refine or_congr_left ?_
      rw [addName]
      split
      · rename_i there
        have among : name ∈ names := by simpa using there
        exact ⟨.inl, fun either => either.elim id fun same => same ▸ among⟩
      · rw [List.mem_append, List.mem_singleton]
  exact added m.declaringType.vars

/-- A method that lists its variables is one to be inferred as soon as one of its slots is open. -/
theorem Inferable.isGeneric (inferable : m.Inferable) (opens : ∃ t ∈ m.slotTypes, t.isOpen = true) :
    m.isGeneric = true := by
  obtain ⟨t, slot, isOpen⟩ := opens
  obtain ⟨v, occurs⟩ := (TypeExpr.isOpen_iff t).mp isOpen
  have listed := inferable t slot v occurs
  cases names : m.typeVariables with
  | nil => exact absurd (names ▸ listed) List.not_mem_nil
  | cons name rest => rw [MethodSignature.isGeneric, names]; rfl

/-- The signature of a method of a type with some variables writes out those of them that its
parameters and its result use, in its declaring type or among its own; and likewise whatever else is a
variable in these. -/
def WritesOut (m : MethodSignature) (typeLevel : List String) : Prop :=
  ∀ t ∈ m.parameters.map (·.type) ++ [m.returnType], ∀ v,
    t.HasVar typeLevel v → m.declaringType.HasVar typeLevel v ∨ v ∈ m.genericParameters

theorem slotTypes_bindParams : (m.bindParams typeLevel).slotTypes =
    (if m.isStatic then [] else [m.declaringType.bindParams typeLevel]) ++
      (m.parameters.map (·.type) ++ [m.returnType]).map
        (·.bindParams (typeLevel ++ m.genericParameters)) := by
  simp only [slotTypes, inputTypes, bindParams, List.append_assoc, List.map_append, List.map_map,
    List.map_cons, List.map_nil, Function.comp_def]
  rfl

/-- A method that is registered lists all variables of its slots exactly if its signature writes them
out. -/
theorem inferable_bindParams_iff : (m.bindParams typeLevel).Inferable ↔ m.WritesOut typeLevel := by
  have listed : ∀ v, v ∈ (m.bindParams typeLevel).typeVariables ↔
      m.declaringType.HasVar typeLevel v ∨ v ∈ m.genericParameters := by
    intro v
    rw [mem_typeVariables]
    exact or_congr_left (TypeExpr.mem_vars_bindParams m.declaringType)
  -- The declaring type lists its own variables, whether the object is a slot or not.
  have object : ∀ t ∈ (if m.isStatic then [] else [m.declaringType.bindParams typeLevel]),
      ∀ v ∈ t.vars, v ∈ (m.bindParams typeLevel).typeVariables := by
    intro t slot v occurs
    split at slot
    · exact absurd slot List.not_mem_nil
    · obtain rfl := List.mem_singleton.mp slot
      exact (listed v).mpr (.inl ((TypeExpr.mem_vars_bindParams _).mp occurs))
  rw [Inferable, slotTypes_bindParams, List.forall_mem_append, and_iff_right object,
    List.forall_mem_map]
  refine forall₂_congr fun t _ => forall_congr' fun v => ?_
  rw [TypeExpr.mem_vars_bindParams, listed, List.mem_append]
  simp only [TypeExpr.HasVar]
  tauto

end MethodSignature

/-! ### Whole runs -/

/-- A method that is registered, with the variables that its type has at the moment. -/
structure MethodRegistration where
  method : MethodSignature
  typeLevel : List String

/-- The method that the register holds then. -/
def MethodRegistration.result (r : MethodRegistration) : MethodSignature :=
  r.method.bindParams r.typeLevel

namespace TypeDatabase

/-- The methods that an edit registers. -/
def registrations (db : TypeDatabase) : DatabaseEdit → List MethodRegistration
  | .method m => [⟨m, db.genericsOf m.declaringType.name⟩]
  | .merge other => other.methods.map fun m => ⟨m, (db.merge other).genericsOf m.declaringType.name⟩
  | .type _ | .operator _ => []

/-- The methods that edits register, one after the other. -/
def registrationsIn (db : TypeDatabase) : List DatabaseEdit → List MethodRegistration
  | [] => []
  | edit :: rest => db.registrations edit ++ (db.apply edit).registrationsIn rest

theorem methods_apply (db : TypeDatabase) (edit : DatabaseEdit) :
    (db.apply edit).methods =
      ((db.registrations edit).map (·.result)).foldl replaceMethod db.methods := by
  cases edit with
  | type info => rfl
  | method m => rfl
  | operator op => rfl
  | merge other =>
    rw [registrations, List.map_map]
    exact methods_merge db other

/-- After edits a register holds what was registered along the way, as far as it was not replaced. -/
theorem methods_after (db : TypeDatabase) (edits : List DatabaseEdit) :
    (db.after edits).methods =
      ((db.registrationsIn edits).map (·.result)).foldl replaceMethod db.methods := by
  induction edits generalizing db with
  | nil => rfl
  | cons edit rest ih =>
    rw [registrationsIn, List.map_append, List.foldl_append, ← methods_apply]
    exact ih (db.apply edit)

/-- The last registration of a reference in the course of edits. -/
def lastRegistration? (db : TypeDatabase) (edits : List DatabaseEdit) (ref : MethodRef) :
    Option MethodRegistration :=
  (db.registrationsIn edits).reverse.find? (·.method.ref = ref)

theorem method?_after_or (db : TypeDatabase) (edits : List DatabaseEdit) (ref : MethodRef) :
    (db.after edits).method? ref =
      ((db.lastRegistration? edits ref).map (·.result)).or (db.method? ref) := by
  have referred : ((fun m : MethodSignature => decide (m.ref = ref)) ∘ MethodRegistration.result) =
      fun r => decide (r.method.ref = ref) := by
    funext r
    rw [Function.comp_apply, MethodRegistration.result, MethodSignature.ref_bindParams]
  rw [method?, methods_after, find?_replaceMethods, ← List.map_reverse, List.find?_map, referred]
  rfl

theorem method?_after (edits : List DatabaseEdit) (ref : MethodRef) :
    (empty.after edits).method? ref = (empty.lastRegistration? edits ref).map (·.result) :=
  (method?_after_or empty edits ref).trans Option.or_none

end TypeDatabase

namespace Graph

/-- What comes of inferring a call that is not passed over: it is solved from what is connected to its
inputs, and its ports are defined anew. -/
def inferCall (g : Graph) (env : DefinitionEnv) (id : NodeId) (n : Node) (decl : CallDecl)
    (m : MethodSignature) (supply : IdSupply) : Except InferenceError Bindings × Graph × IdSupply :=
  let (s, failure) := g.solveCall env.oracle m id n
  let bound := g.withCall id (decl.withArguments s)
  match bound.defineNode env id supply with
  | .error e => (.error (.definition e), bound, supply)
  | .ok (g, supply) =>
    match failure with
    | some e => (.error (.solve e), g, supply)
    | none => (.ok s.bindings, g, supply)

end Graph

namespace TypeDatabase

/-- A register that is built by any edits. Each of its methods is what the last registration of its
reference made of a signature, and it lists all variables of its slots exactly if that signature wrote
them out. A method that does is one to be inferred if any slot is open, and no call of it is passed over.
-/
theorem after_inferable_iff (edits : List DatabaseEdit) :
    let db := empty.after edits
    ∀ m ∈ db.methods, ∃ r, empty.lastRegistration? edits m.ref = some r ∧ r.result = m ∧
      (m.Inferable ↔ r.method.WritesOut r.typeLevel) ∧
      (m.Inferable → (∃ t ∈ m.slotTypes, t.isOpen = true) → m.isGeneric = true ∧
        ∀ (g : Graph) env id n decl supply, env.oracle = db.toOracle → g.node? id = some n →
          n.kind = .call decl → decl.method = m.ref →
          g.inferNode env id supply = g.inferCall env id n decl m supply) := by
  intro db m member
  have known : db.method? m.ref = some m :=
    (find?_key_iff (empty_orderly.after edits).methods).mpr ⟨member, rfl⟩
  obtain ⟨r, last, result⟩ := Option.map_eq_some_iff.mp ((method?_after edits m.ref).symm.trans known)
  refine ⟨r, last, result, ?_, fun inferable opens => ?_⟩
  · rw [← result]
    exact MethodSignature.inferable_bindParams_iff
  · have generic : m.isGeneric = true := inferable.isGeneric opens
    refine ⟨generic, fun g env id n decl supply oracle found call named => ?_⟩
    have answered : env.oracle.method? decl.method = some m := by
      rw [oracle, named]
      exact known
    exact Graph.inferNode_of_generic found call answered generic supply

/-- A method that is registered before its type, and once more behind it by way of another register. -/
theorem after_inferable_iff_readded :
    let edits : List DatabaseEdit := [.method (listMethod "Add"), .type listType,
      .merge (empty.after [.method (listMethod "Add")])]
    let m := (listMethod "Add").bindParams ["T"]
    m ∈ (empty.after edits).methods ∧ m.Inferable ∧ (∃ t ∈ m.slotTypes, t.isOpen = true) ∧
      m.isGeneric = true ∧ ∃ r, empty.lastRegistration? edits m.ref = some r ∧ r.result = m ∧
        r.method.WritesOut r.typeLevel := by
  intro edits m
  have member : m ∈ (empty.after edits).methods := by decide +kernel
  have inferable : m.Inferable := by
    unfold MethodSignature.Inferable
    decide +kernel
  have opens : ∃ t ∈ m.slotTypes, t.isOpen = true := by decide +kernel
  obtain ⟨r, last, result, writes, generic⟩ := after_inferable_iff edits m member
  exact ⟨member, inferable, opens, (generic inferable opens).1, r, last, result,
    writes.mp inferable⟩

/-- A method of lists that takes an item, declared for lists without a word of what they hold. -/
def pushMethod : MethodSignature :=
  ⟨.plain "List", "Push", false, [], [⟨"item", .plain "T"⟩], .plain "void"⟩

/-- The item of the method is of a variable type, which the method does not list; so the method is not
one to be inferred. -/
theorem after_inferable_unlisted :
    let db := standard.after [.method pushMethod]
    ∃ m ∈ db.methods, m.ref = pushMethod.ref ∧ TypeExpr.var "T" ∈ m.slotTypes ∧
      "T" ∉ m.typeVariables ∧ m.isGeneric = false := by
  refine ⟨pushMethod.bindParams ["T"], ?_⟩
  decide +kernel

end TypeDatabase

end NodeScript
