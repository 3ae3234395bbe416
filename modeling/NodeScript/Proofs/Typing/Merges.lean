import NodeScript.Proofs.Typing.Registration
import NodeScript.Proofs.Typing.Substitution

/-!
Registers that take over what other registers hold. The types and methods that are taken over win
over those that were there, each by its own means: types are replaced in a table, methods are struck
from a list and put behind it. Operators are only put behind those that were there, so that where
both registers have ways to apply an operator to some types, the first one is the one that was
there. Where only one of them has some, those are the ways; where neither has, the built-in ones are
left, which go by the types of both.
-/

namespace NodeScript

/-- Something that is done to a register. -/
inductive DatabaseEdit where
  | type (info : TypeInfo)
  | method (m : MethodSignature)
  | operator (op : OperatorSignature)
  /-- Takes over whatever another register holds. -/
  | merge (other : TypeDatabase)

/-- Puts a method behind others, and strikes an earlier one of its reference. -/
def replaceMethod (methods : List MethodSignature) (m : MethodSignature) : List MethodSignature :=
  methods.filter (fun old => !(old.ref = m.ref)) ++ [m]

/-- The number of operands that an operator takes. -/
def Operator.operandCount : Operator → Nat
  | .binary _ => 2
  | .unary _ => 1

/-- What no step changes, a run does not change. -/
theorem foldl_keeps {α β γ : Type} (step : α → β → α) (view : α → γ)
    (kept : ∀ a b, view (step a b) = view a) (a : α) (steps : List β) :
    view (steps.foldl step a) = view a := by
  induction steps generalizing a with
  | nil => rfl
  | cons b rest ih => rw [List.foldl_cons, ih, kept]

namespace TypeDatabase

/-- What an edit makes of a register. -/
def apply (db : TypeDatabase) : DatabaseEdit → TypeDatabase
  | .type info => db.registerType info
  | .method m => db.registerMethod m
  | .operator op => db.registerOperator op
  | .merge other => db.merge other

/-- What edits make of a register, one after the other. -/
def after (db : TypeDatabase) (edits : List DatabaseEdit) : TypeDatabase := edits.foldl apply db

/-- A method with the type variables that its type has in a register. -/
def bound (db : TypeDatabase) (m : MethodSignature) : MethodSignature :=
  m.bindParams (db.genericsOf m.declaringType.name)

/-- The last type of a name. -/
def lastType? (db : TypeDatabase) (name : String) : Option TypeInfo :=
  db.types.values.reverse.find? (·.name = name)

/-- The last method of a reference. -/
def lastMethod? (db : TypeDatabase) (ref : MethodRef) : Option MethodSignature :=
  db.methods.reverse.find? (·.ref = ref)

/-- The ways to apply an operator to operands, of which there have to be as many as it takes. -/
def overloads (db : TypeDatabase) : Operator → List TypeExpr → List OperatorSignature
  | .binary op, [lhs, rhs] => db.binaryOverloads op lhs rhs
  | .unary op, [operand] => db.unaryOverloads op operand
  | _, _ => []

/-- Every type stands under its own name, with its variables bound, and no method stands there twice.
-/
structure Orderly (db : TypeDatabase) : Prop where
  types : ∀ name info, db.typeInfo? name = some info → info.name = name ∧ info.bindParams = info
  methods : (db.methods.map (·.ref)).Nodup

variable {db db' a b : TypeDatabase} {name : String} {ref : MethodRef} {op : Operator}
  {operands : List TypeExpr}

/-! ### Types -/

/-- Of the types of a name that are registered, the last one is kept. -/
theorem typeInfo?_registerTypes (db : TypeDatabase) (infos : List TypeInfo) (name : String) :
    (infos.foldl registerType db).typeInfo? name =
      ((infos.reverse.find? (·.name = name)).map TypeInfo.bindParams).or (db.typeInfo? name) := by
  induction infos using List.reverseRecOn with
  | nil => rfl
  | append_singleton infos info ih =>
    rw [List.foldl_append, List.reverse_concat, List.find?_cons]
    change ((infos.foldl registerType db).registerType info).typeInfo? name = _
    rw [typeInfo?_registerType]
    by_cases same : info.name = name
    · simp [same]
    · simp [same, Ne.symm same, ih]

theorem types_merge (a b : TypeDatabase) :
    (a.merge b).types = (b.types.values.foldl registerType a).types :=
  (foldl_keeps registerOperator types (fun _ _ => rfl) _ b.operators).trans
    (foldl_keeps registerMethod types (fun _ _ => rfl) _ b.methods)

theorem typeInfo?_merge (a b : TypeDatabase) (name : String) :
    (a.merge b).typeInfo? name =
      ((b.lastType? name).map TypeInfo.bindParams).or (a.typeInfo? name) := by
  rw [lastType?, ← typeInfo?_registerTypes, typeInfo?, types_merge]
  rfl

/-! ### Methods -/

theorem bound_congr (types : db.types = db'.types) : db.bound = db'.bound := by
  funext m
  rw [bound, bound, genericsOf, genericsOf, typeInfo?, typeInfo?, types]

theorem ref_bound (db : TypeDatabase) (m : MethodSignature) : (db.bound m).ref = m.ref :=
  m.ref_bindParams _

/-- Methods are bound to the variables of the types that are there already, one after the other. -/
theorem methods_registerMethods (db : TypeDatabase) (methods : List MethodSignature) :
    (methods.foldl registerMethod db).methods =
      (methods.map db.bound).foldl replaceMethod db.methods := by
  induction methods generalizing db with
  | nil => rfl
  | cons m rest ih =>
    have types : (db.registerMethod m).types = db.types := rfl
    rw [List.foldl_cons, ih, List.map_cons, List.foldl_cons, bound_congr types]
    rfl

/-- The methods that are taken over are bound to the variables of the types of both registers. -/
theorem methods_merge (a b : TypeDatabase) :
    (a.merge b).methods = (b.methods.map (a.merge b).bound).foldl replaceMethod a.methods := by
  have same : (a.merge b).bound = (b.types.values.foldl registerType a).bound :=
    bound_congr (types_merge a b)
  have before : (b.types.values.foldl registerType a).methods = a.methods :=
    foldl_keeps registerType methods (fun _ _ => rfl) a b.types.values
  rw [same, ← before, ← methods_registerMethods]
  exact foldl_keeps registerOperator methods (fun _ _ => rfl) _ b.operators

theorem find?_replaceMethod (methods : List MethodSignature) (m : MethodSignature) (ref : MethodRef) :
    (replaceMethod methods m).find? (·.ref = ref) =
      if m.ref = ref then some m else methods.find? (·.ref = ref) := by
  rw [replaceMethod, List.find?_append]
  split
  · rename_i same
    have struck : (methods.filter fun old => !(old.ref = m.ref)).find? (·.ref = ref) = none := by
      refine List.find?_eq_none.mpr fun old kept found => ?_
      have other := (List.mem_filter.mp kept).2
      simp only [of_decide_eq_true found, same, decide_true, Bool.not_true, Bool.false_eq_true] at other
    rw [struck, Option.none_or]
    exact List.find?_cons_of_pos (decide_eq_true same)
  · rename_i other
    have kept : (methods.filter fun old => !(old.ref = m.ref)).find? (·.ref = ref) =
        methods.find? (·.ref = ref) := by
      rw [List.find?_filter]
      congr 1
      funext old
      by_cases found : old.ref = ref <;> simp [found, Ne.symm other]
    have last : [m].find? (·.ref = ref) = none := List.find?_cons_of_neg (by simpa using other)
    rw [kept, last, Option.or_none]

/-- Of the methods of a reference that are put behind others, the last one is kept. -/
theorem find?_replaceMethods (methods more : List MethodSignature) (ref : MethodRef) :
    (more.foldl replaceMethod methods).find? (·.ref = ref) =
      (more.reverse.find? (·.ref = ref)).or (methods.find? (·.ref = ref)) := by
  induction more using List.reverseRecOn with
  | nil => rfl
  | append_singleton more m ih =>
    rw [List.foldl_append, List.reverse_concat, List.find?_cons, List.foldl_cons, List.foldl_nil,
      find?_replaceMethod, ih]
    by_cases same : m.ref = ref <;> simp [same]

theorem method?_merge (a b : TypeDatabase) (ref : MethodRef) :
    (a.merge b).method? ref =
      ((b.lastMethod? ref).map (a.merge b).bound).or (a.method? ref) := by
  have referred : ((fun m : MethodSignature => decide (m.ref = ref)) ∘ (a.merge b).bound) =
      fun m => decide (m.ref = ref) := by
    funext m
    rw [Function.comp_apply, ref_bound]
  rw [method?, methods_merge, find?_replaceMethods, ← List.map_reverse, List.find?_map, referred]
  rfl

/-! ### Operators -/

theorem operators_registerOperators (db : TypeDatabase) (ops : List OperatorSignature) :
    (ops.foldl registerOperator db).operators = db.operators ++ ops := by
  induction ops generalizing db with
  | nil => exact (List.append_nil _).symm
  | cons op rest ih =>
    rw [List.foldl_cons, ih, registerOperator, List.append_assoc, List.singleton_append]

theorem operators_merge (a b : TypeDatabase) :
    (a.merge b).operators = a.operators ++ b.operators := by
  refine (operators_registerOperators _ b.operators).trans ?_
  rw [foldl_keeps registerMethod operators (fun _ _ => rfl) _ b.methods,
    foldl_keeps registerType operators (fun _ _ => rfl) a b.types.values]

theorem registeredOperators_merge (a b : TypeDatabase) (op : Operator) (operands : List TypeExpr) :
    (a.merge b).registeredOperators op operands =
      a.registeredOperators op operands ++ b.registeredOperators op operands := by
  rw [registeredOperators, operators_merge, List.filter_append]
  rfl

/-- The ways to apply an operator are known from those that are registered, or else from the widths
of the operands. -/
theorem overloads_congr
    (same : db.registeredOperators op operands = db'.registeredOperators op operands)
    (ranks : db.registeredOperators op operands = [] → ∀ t ∈ operands, db.rank? t = db'.rank? t) :
    db.overloads op operands = db'.overloads op operands := by
  cases op with
  | binary op =>
    match operands with
    | [] | [_] | _ :: _ :: _ :: _ => rfl
    | [lhs, rhs] =>
      simp only [overloads, binaryOverloads, ← same]
      split
      · rename_i none
        have left := ranks none lhs (by simp)
        have right := ranks none rhs (by simp)
        simp only [builtinResult?, left, right]
      · rfl
  | unary op =>
    match operands with
    | [] | _ :: _ :: _ => rfl
    | [operand] =>
      simp only [overloads, unaryOverloads, ← same]
      split
      · rename_i none
        have numeric : db.isNumeric operand = db'.isNumeric operand :=
          congrArg Option.isSome (ranks none operand (by simp))
        rw [numeric]
      · rfl

/-- Where ways to apply an operator are registered, no others are offered. -/
theorem overloads_of_registered (registered : db.registeredOperators op operands ≠ []) :
    db.overloads op operands =
      if operands.length = op.operandCount then db.registeredOperators op operands else [] := by
  cases op with
  | binary op =>
    match operands with
    | [] | [_] | _ :: _ :: _ :: _ => simp [overloads, Operator.operandCount]
    | [lhs, rhs] =>
      simp only [overloads, binaryOverloads, Operator.operandCount, List.length_cons,
        List.length_nil,
        if_true]
  | unary op =>
    match operands with
    | [] | _ :: _ :: _ => simp [overloads, Operator.operandCount]
    | [operand] =>
      simp only [overloads, unaryOverloads, Operator.operandCount, List.length_cons,
        List.length_nil,
        if_true]

theorem mem_operators_of_registered {s : OperatorSignature}
    (registered : db.registeredOperators op operands ≠ []) (offered : s ∈ db.overloads op operands) :
    s ∈ db.operators := by
  rw [overloads_of_registered registered] at offered
  split at offered
  · exact List.mem_of_mem_filter offered
  · exact absurd offered List.not_mem_nil

/-- Where both registers have ways to apply an operator, those that were there come first. -/
theorem overloads_merge (former : a.registeredOperators op operands ≠ [])
    (later : b.registeredOperators op operands ≠ []) :
    (a.merge b).overloads op operands = a.overloads op operands ++ b.overloads op operands ∧
      ((a.merge b).overloads op operands).head? = (a.overloads op operands).head? := by
  have all := registeredOperators_merge a b op operands
  have some : (a.merge b).registeredOperators op operands ≠ [] := by
    rw [all]
    exact List.append_ne_nil_of_left_ne_nil former _
  rw [overloads_of_registered some, overloads_of_registered former, overloads_of_registered later,
    all]
  split
  · exact ⟨rfl, List.head?_append_of_ne_nil _ former⟩
  · exact ⟨rfl, rfl⟩

/-! ### Registers in order -/

end TypeDatabase

theorem TypeInfo.bindParams_bindParams (info : TypeInfo) :
    info.bindParams.bindParams = info.bindParams := by
  simp [TypeInfo.bindParams, Function.comp_def, TypeExpr.bindParams_bindParams]

namespace TypeDatabase

variable {db b : TypeDatabase}

namespace Orderly

theorem registerType (orderly : db.Orderly) (info : TypeInfo) : (db.registerType info).Orderly where
  types := by
    intro name found held
    rw [typeInfo?_registerType] at held
    split at held
    · rename_i same
      obtain rfl := Option.some.inj held
      exact ⟨same.symm, info.bindParams_bindParams⟩
    · exact orderly.types name found held
  methods := orderly.methods

theorem registerMethod (orderly : db.Orderly) (m : MethodSignature) :
    (db.registerMethod m).Orderly where
  types := orderly.types
  methods := by
    change ((replaceMethod db.methods (db.bound m)).map (·.ref)).Nodup
    rw [replaceMethod, List.map_append, List.map_singleton, ← List.concat_eq_append,
      List.nodup_concat]
    refine ⟨fun member => ?_, orderly.methods.sublist (List.filter_sublist.map _)⟩
    obtain ⟨old, kept, same⟩ := List.mem_map.mp member
    simpa [same] using (List.mem_filter.mp kept).2

theorem merge (orderly : db.Orderly) (other : TypeDatabase) : (db.merge other).Orderly := by
  have types : (other.types.values.foldl TypeDatabase.registerType db).Orderly :=
    List.foldlRecOn _ _ orderly fun _ held info _ => held.registerType info
  have methods : (other.methods.foldl TypeDatabase.registerMethod
      (other.types.values.foldl TypeDatabase.registerType db)).Orderly :=
    List.foldlRecOn _ _ types fun _ held m _ => held.registerMethod m
  have operators : (other.operators.foldl registerOperator (other.methods.foldl
      TypeDatabase.registerMethod (other.types.values.foldl TypeDatabase.registerType db))).Orderly :=
    List.foldlRecOn _ _ methods fun _ held _ _ => ⟨held.types, held.methods⟩
  exact ⟨operators.types, operators.methods⟩

theorem apply (orderly : db.Orderly) (edit : DatabaseEdit) : (db.apply edit).Orderly := by
  cases edit with
  | type info => exact orderly.registerType info
  | method m => exact orderly.registerMethod m
  | operator op => exact ⟨orderly.types, orderly.methods⟩
  | merge other => exact orderly.merge other

theorem after (orderly : db.Orderly) (edits : List DatabaseEdit) : (db.after edits).Orderly :=
  List.foldlRecOn _ _ orderly fun _ held edit _ => held.apply edit

/-- In a register in order the last type of a name is the one that stands under it. -/
theorem lastType?_eq (orderly : db.Orderly) (name : String) :
    db.lastType? name = db.typeInfo? name := by
  have named : db.types.values.map (·.name) = db.types.keys := by
    rw [OrderedMap.values, OrderedMap.keys, List.map_map]
    refine List.map_congr_left fun e member => ?_
    exact (orderly.types e.1 e.2 (OrderedMap.get?_eq_some_iff.mpr member)).1
  have single : (db.types.values.map (·.name)).Nodup := named ▸ db.types.nodup_keys
  refine Option.ext fun info => ?_
  rw [lastType?, find?_key_perm (List.reverse_perm _) single,
    find?_key_iff single, OrderedMap.mem_values_iff]
  constructor
  · rintro ⟨⟨k, member⟩, rfl⟩
    have held := OrderedMap.get?_eq_some_iff.mpr member
    rw [(orderly.types k info held).1]
    exact held
  · intro held
    exact ⟨⟨name, OrderedMap.get?_eq_some_iff.mp held⟩, (orderly.types name info held).1⟩

theorem lastMethod?_eq (orderly : db.Orderly) (ref : MethodRef) :
    db.lastMethod? ref = db.method? ref :=
  find?_key_perm (List.reverse_perm _) orderly.methods ref

end Orderly

theorem empty_orderly : empty.Orderly := ⟨fun _ _ held => (nomatch held), .nil⟩

/-! ### All answers -/

/-- A register that has taken over another one. A name has the type that the other register lists
last for it, or else the one it had; a reference has the method that the other lists last for it,
with the variables of the types that there are now, or else the one it had. If the other is in order
these are its own answers. The ways to apply an operator that were there stand in front of those
that are taken over: where both registers have some, the first is the one that was there, and it is
that of the other only if both begin with the same. Where only one has some, they are its answer;
where neither has, the built-in ones are left, which the types that were taken over may have
changed. -/
theorem merge_precedence (a b : TypeDatabase) :
    let merged := a.merge b
    (∀ name, merged.typeInfo? name =
      ((b.lastType? name).map TypeInfo.bindParams).or (a.typeInfo? name)) ∧
    (∀ ref, merged.method? ref = ((b.lastMethod? ref).map merged.bound).or (a.method? ref)) ∧
    (b.Orderly →
      (∀ name, merged.typeInfo? name = (b.typeInfo? name).or (a.typeInfo? name)) ∧
      ∀ ref, merged.method? ref = ((b.method? ref).map merged.bound).or (a.method? ref)) ∧
    ∀ op operands,
      let former := a.registeredOperators op operands
      let later := b.registeredOperators op operands
      merged.registeredOperators op operands = former ++ later ∧
      (former ≠ [] → later ≠ [] →
        merged.overloads op operands = a.overloads op operands ++ b.overloads op operands ∧
        (merged.overloads op operands).head? = (a.overloads op operands).head?) ∧
      (former = [] → later ≠ [] → merged.overloads op operands = b.overloads op operands ∧
        ∀ s ∈ merged.overloads op operands, s ∈ b.operators) ∧
      (later ≠ [] → ((merged.overloads op operands).head? = (b.overloads op operands).head? ↔
        former = [] ∨ (a.overloads op operands).head? = (b.overloads op operands).head?)) ∧
      (former ≠ [] → later = [] → merged.overloads op operands = a.overloads op operands) ∧
      (former = [] → later = [] →
        merged.overloads op operands = { merged with operators := [] }.overloads op operands ∧
        ((∀ t ∈ operands, merged.rank? t = a.rank? t) →
          merged.overloads op operands = a.overloads op operands)) := by
  intro merged
  refine ⟨typeInfo?_merge a b, method?_merge a b, fun orderly => ⟨fun name => ?_, fun ref => ?_⟩,
    fun op operands => ?_⟩
  · have bound : (b.typeInfo? name).map TypeInfo.bindParams = b.typeInfo? name := by
      cases held : b.typeInfo? name with
      | none => rfl
      | some info => exact congrArg some (orderly.types name info held).2
    rw [typeInfo?_merge, orderly.lastType?_eq, bound]
  · rw [method?_merge, orderly.lastMethod?_eq]
  · intro former later
    have all : merged.registeredOperators op operands = former ++ later :=
      registeredOperators_merge a b op operands
    have onlyFormer (noLater : later = []) : merged.registeredOperators op operands = former := by
      rw [all, noLater, List.append_nil]
    have onlyLater (noFormer : former = []) (someLater : later ≠ []) :
        merged.overloads op operands = b.overloads op operands := by
      have same : merged.registeredOperators op operands = later := by
        rw [all, noFormer, List.nil_append]
      exact overloads_congr same fun none => absurd (same.symm.trans none) someLater
    refine ⟨all, overloads_merge, fun noFormer someLater => ?_, fun someLater => ?_,
      fun someFormer noLater => ?_, fun noFormer noLater => ⟨?_, fun ranks => ?_⟩⟩
    · have answers := onlyLater noFormer someLater
      refine ⟨answers, fun s offered => ?_⟩
      rw [answers] at offered
      exact mem_operators_of_registered someLater offered
    · by_cases noFormer : former = []
      · simp [onlyLater noFormer someLater, noFormer]
      · rw [(overloads_merge noFormer someLater).2, or_iff_right noFormer]
    · have same := onlyFormer noLater
      exact overloads_congr same fun none => absurd (same.symm.trans none) someFormer
    · refine overloads_congr ?_ fun _ _ _ => rfl
      rw [all, noFormer, noLater]
      rfl
    · exact overloads_congr (onlyFormer noLater) fun _ => ranks

/-- A narrow type of numbers, the addition of vectors to such a number, and vectors that are multiplied
by it. -/
def halves : TypeDatabase :=
  let vector := TypeExpr.plain "Vector3"
  empty.after [.type (.numeric "Half" 1), .operator ⟨.binary .add, [vector, vector], .plain "Half"⟩,
    .operator ⟨.binary .multiply, [vector, .plain "Half"], vector⟩]

theorem merge_precedence_halves :
    let merged := standard.merge halves
    let vector := TypeExpr.plain "Vector3"
    let scaled := [vector, .plain "Half"]
    halves.Orderly ∧
      (∀ name, merged.typeInfo? name = (halves.typeInfo? name).or (standard.typeInfo? name)) ∧
      standard.registeredOperators (.binary .multiply) scaled = [] ∧
      halves.registeredOperators (.binary .multiply) scaled ≠ [] ∧
      merged.overloads (.binary .multiply) scaled = halves.overloads (.binary .multiply) scaled ∧
      standard.registeredOperators (.binary .add) [vector, vector] ≠ [] ∧
      halves.registeredOperators (.binary .add) [vector, vector] ≠ [] ∧
      (merged.overloads (.binary .add) [vector, vector]).head? =
        (standard.overloads (.binary .add) [vector, vector]).head? := by
  intro merged vector scaled
  have orderly : halves.Orderly := empty_orderly.after _
  obtain ⟨-, -, answers, operators⟩ := merge_precedence standard halves
  have noFormer : standard.registeredOperators (.binary .multiply) scaled = [] := by decide +kernel
  have later : halves.registeredOperators (.binary .multiply) scaled ≠ [] := by decide +kernel
  have added : standard.registeredOperators (.binary .add) [vector, vector] ≠ [] := by
    decide +kernel
  have again : halves.registeredOperators (.binary .add) [vector, vector] ≠ [] := by decide +kernel
  exact ⟨orderly, (answers orderly).1, noFormer, later,
    ((operators (.binary .multiply) scaled).2.2.1 noFormer later).1, added, again,
    ((operators (.binary .add) [vector, vector]).2.1 added again).2⟩

/-- Numbers of a type that was taken over can be added, though neither register has a way to add them
and in the first register alone they cannot; and vectors are still added as before. -/
theorem merge_changes_overloads :
    let merged := standard.merge halves
    let half := TypeExpr.plain "Half"
    let vector := TypeExpr.plain "Vector3"
    (halves.registeredOperators (.binary .add) [half, half] = [] ∧
      (merged.binaryOverloads .add half half).head? ≠
        (standard.binaryOverloads .add half half).head?) ∧
    halves.registeredOperators (.binary .add) [vector, vector] ≠ [] ∧
      ∀ s ∈ (merged.binaryOverloads .add vector vector).head?, s ∉ halves.operators := by
  decide +kernel

end TypeDatabase

end NodeScript
