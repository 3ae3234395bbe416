import NodeScript.Proofs.Typing.OpenSlots

/-!
Registers without their variables. In a stored register bare names stand for variables, and taking it
over binds them again: types say themselves what their variables are, and those of a method are known
from the types, which are registered in front of the methods. So all that is lost comes back, where
every variable is one that is bound, and no bare name is.
-/

namespace NodeScript

/-! ### Types -/

namespace TypeExpr

variable {t : TypeExpr} {params : List String} {v : String}

mutual

/-- Whether all names of a type can be read. -/
def decideWellNamed : (t : TypeExpr) → Decidable t.WellNamed
  | .var name =>
    if readable : IsTypeName name then isTrue (.var readable)
    else isFalse fun (.var reads) => readable reads
  | .named name args =>
    match decideAllWellNamed args with
    | isTrue inside =>
      if readable : IsTypeName name then isTrue (.named readable inside)
      else isFalse fun (.named reads _) => readable reads
    | isFalse outside => isFalse fun (.named _ inside) => outside inside

/-- Whether all names of some types can be read. -/
def decideAllWellNamed : (ts : List TypeExpr) → Decidable (∀ t ∈ ts, t.WellNamed)
  | [] => isTrue nofun
  | t :: rest =>
    match decideWellNamed t, decideAllWellNamed rest with
    | isTrue first, isTrue later => isTrue (List.forall_mem_cons.mpr ⟨first, later⟩)
    | isFalse first, _ => isFalse fun all => first (all t (.head _))
    | _, isFalse later => isFalse fun all => later fun t member => all t (.tail _ member)

end

instance : Decidable t.WellNamed := t.decideWellNamed

/-- All names of a type can be read, and its variables are among some names. -/
structure SpelledOver (params : List String) (t : TypeExpr) : Prop where
  wellNamed : t.WellNamed
  within : ∀ v ∈ t.vars, v ∈ params

instance : Decidable (t.SpelledOver params) :=
  decidable_of_iff (t.WellNamed ∧ ∀ v ∈ t.vars, v ∈ params)
    ⟨fun spelled => ⟨spelled.1, spelled.2⟩, fun spelled => ⟨spelled.wellNamed, spelled.within⟩⟩

/-- A type that is spelled over some names, all of which are bound in it. -/
structure BoundOver (params : List String) (t : TypeExpr) : Prop extends SpelledOver params t where
  plain : ∀ name ∈ t.plainNames, name ∉ params

theorem WellNamed.bindParams (named : t.WellNamed) (params : List String) :
    (t.bindParams params).WellNamed := by
  induction named with
  | var name => exact .var name
  | named name args ih =>
    rw [TypeExpr.bindParams]
    split
    · exact .var name
    · refine .named name ?_
      rw [bindParamsAll_eq_map, List.forall_mem_map]
      exact ih

/-- A name that is bound is bare nowhere. -/
theorem WellNamed.not_mem_of_plainNames_bindParams (named : t.WellNamed)
    (plain : v ∈ (t.bindParams params).plainNames) : v ∉ params := by
  induction named with
  | var name => exact nomatch plain
  | @named name args _ _ ih =>
    rw [TypeExpr.bindParams] at plain
    split at plain
    · exact nomatch plain
    · rename_i keeps
      rw [mem_plainNames_named, bindParamsAll_eq_map] at plain
      rcases plain with ⟨empty, rfl⟩ | ⟨a, member, inside⟩
      · rw [List.map_eq_nil_iff] at empty
        simpa [empty] using keeps
      · obtain ⟨b, among, rfl⟩ := List.mem_map.mp member
        exact ih b among inside

theorem SpelledOver.bind (spelled : t.SpelledOver params) :
    (t.bindParams params).BoundOver params where
  wellNamed := spelled.wellNamed.bindParams params
  within v occurs := by
    rcases (mem_vars_bindParams t).mp occurs with there | ⟨-, listed⟩
    · exact spelled.within v there
    · exact listed
  plain _ bare := spelled.wellNamed.not_mem_of_plainNames_bindParams bare

/-- What is bound over some names comes back when they are bound again. -/
theorem BoundOver.restored (bound : t.BoundOver params) : t.bare.bindParams params = t :=
  bound.wellNamed.bindParams_bare bound.within bound.plain

theorem WellNamed.bare_of_closed (named : t.WellNamed) (closed : t.isOpen = false) : t.bare = t := by
  induction named with
  | var name => exact nomatch closed
  | @named name args _ _ ih =>
    rw [isOpen, anyOpen_eq_any, List.any_eq_false] at closed
    have each : args.map bare = args.map id :=
      List.map_congr_left fun a member => ih a member (Bool.eq_false_iff.mpr (closed a member))
    rw [bare, bareAll_eq_map, each, List.map_id]

theorem name_bare (t : TypeExpr) : t.bare.name = t.name := by cases t <;> rfl

end TypeExpr

/-! ### Entries of a register -/

/-- A member without variables. -/
def Member.bare (m : Member) : Member := { m with type := m.type.bare }

namespace TypeInfo

variable {info : TypeInfo}

/-- The types that an entry is written with. -/
def types (info : TypeInfo) : List TypeExpr := info.members.map (·.type) ++ info.supertypes

/-- An entry without variables. -/
def bare (info : TypeInfo) : TypeInfo :=
  { info with members := info.members.map Member.bare, supertypes := info.supertypes.map (·.bare) }

/-- The types of an entry can be read, and have no other variables than the entry declares. -/
def SpelledOut (info : TypeInfo) : Prop :=
  ∀ t ∈ info.types, t.SpelledOver info.genericParameters

instance : Decidable info.SpelledOut :=
  inferInstanceAs (Decidable (∀ t ∈ info.types, t.SpelledOver info.genericParameters))

/-- The variables that an entry declares are bound in all of its types, and no others. -/
def BoundOut (info : TypeInfo) : Prop := ∀ t ∈ info.types, t.BoundOver info.genericParameters

theorem types_bindParams (info : TypeInfo) :
    info.bindParams.types = info.types.map (·.bindParams info.genericParameters) := by
  simp only [types, bindParams, List.map_append, List.map_map, Function.comp_def]

theorem SpelledOut.bind (spelled : info.SpelledOut) : info.bindParams.BoundOut := by
  rw [BoundOut, types_bindParams, List.forall_mem_map]
  exact fun t member => (spelled t member).bind

theorem BoundOut.restored (bound : info.BoundOut) : info.bare.bindParams = info := by
  obtain ⟨ofMembers, ofSupertypes⟩ := List.forall_mem_append.mp bound
  have members : info.members.map (fun m => { m with
      type := m.type.bare.bindParams info.genericParameters }) = info.members.map id := by
    refine List.map_congr_left fun m member => ?_
    rw [(ofMembers m.type (List.mem_map_of_mem member)).restored]
    rfl
  have supertypes : info.supertypes.map (fun t => t.bare.bindParams info.genericParameters) =
      info.supertypes.map id :=
    List.map_congr_left fun t member => (ofSupertypes t member).restored
  simp only [bare, bindParams, List.map_map, Function.comp_def, Member.bare]
  rw [members, supertypes, List.map_id, List.map_id]

end TypeInfo

/-- A parameter without variables. -/
def Parameter.bare (p : Parameter) : Parameter := { p with type := p.type.bare }

namespace MethodSignature

variable {m : MethodSignature} {typeLevel : List String}

/-- A method without variables. -/
def bare (m : MethodSignature) : MethodSignature :=
  { m with
    declaringType := m.declaringType.bare, parameters := m.parameters.map Parameter.bare
    returnType := m.returnType.bare }

/-- What is said of every type of a method, with the names that are bound in it: those of the declaring
type, and in the other types also those of the method itself. -/
def TypesAre (holds : List String → TypeExpr → Prop) (typeLevel : List String)
    (m : MethodSignature) : Prop :=
  holds typeLevel m.declaringType ∧
    ∀ t ∈ m.parameters.map (·.type) ++ [m.returnType], holds (typeLevel ++ m.genericParameters) t

instance {holds : List String → TypeExpr → Prop} [∀ names t, Decidable (holds names t)] :
    Decidable (m.TypesAre holds typeLevel) :=
  inferInstanceAs (Decidable (_ ∧ ∀ t ∈ _, _))

theorem TypesAre.bind (spelled : m.TypesAre TypeExpr.SpelledOver typeLevel) :
    (m.bindParams typeLevel).TypesAre TypeExpr.BoundOver typeLevel := by
  have slots : (m.bindParams typeLevel).parameters.map (·.type) ++
      [(m.bindParams typeLevel).returnType] = (m.parameters.map (·.type) ++ [m.returnType]).map
        (·.bindParams (typeLevel ++ m.genericParameters)) := by
    simp only [bindParams, List.map_append, List.map_map, List.map_cons, List.map_nil,
      Function.comp_def]
  rw [TypesAre, slots, List.forall_mem_map]
  exact ⟨spelled.1.bind, fun t slot => (spelled.2 t slot).bind⟩

theorem TypesAre.restored (bound : m.TypesAre TypeExpr.BoundOver typeLevel) :
    m.bare.bindParams typeLevel = m := by
  obtain ⟨ofDeclaring, ofSlots⟩ := bound
  obtain ⟨ofParameters, ofReturn⟩ := List.forall_mem_append.mp ofSlots
  have parameters : m.parameters.map (fun p => { p with
      type := p.type.bare.bindParams (typeLevel ++ m.genericParameters) }) =
        m.parameters.map id := by
    refine List.map_congr_left fun p member => ?_
    rw [(ofParameters p.type (List.mem_map_of_mem member)).restored]
    rfl
  simp only [bare, bindParams, List.map_map, Function.comp_def, Parameter.bare]
  rw [parameters, List.map_id, ofDeclaring.restored, (ofReturn _ (List.mem_singleton_self _)).restored]

end MethodSignature

namespace OperatorSignature

variable {s : OperatorSignature}

/-- A way to apply an operator without variables. -/
def bare (s : OperatorSignature) : OperatorSignature :=
  { s with operands := s.operands.map (·.bare), result := s.result.bare }

/-- The types of an operator can be read and have no variables. -/
def Closed (s : OperatorSignature) : Prop :=
  ∀ t ∈ s.operands ++ [s.result], t.WellNamed ∧ t.isOpen = false

instance : Decidable s.Closed :=
  inferInstanceAs (Decidable (∀ t ∈ s.operands ++ [s.result], t.WellNamed ∧ t.isOpen = false))

theorem Closed.restored (closed : s.Closed) : s.bare = s := by
  obtain ⟨ofOperands, ofResult⟩ := List.forall_mem_append.mp closed
  obtain ⟨named, isClosed⟩ := ofResult s.result (List.mem_singleton_self _)
  have operands : s.operands.map (·.bare) = s.operands.map id :=
    List.map_congr_left fun t member =>
      (ofOperands t member).1.bare_of_closed (ofOperands t member).2
  rw [bare, operands, List.map_id, named.bare_of_closed isClosed]

end OperatorSignature

/-! ### Registers -/

/-- The types that an edit registers. -/
def DatabaseEdit.types : DatabaseEdit → List TypeInfo
  | .type info => [info]
  | .merge other => other.types.values
  | .method _ | .operator _ => []

/-- The ways to apply operators that an edit registers. -/
def DatabaseEdit.operators : DatabaseEdit → List OperatorSignature
  | .operator s => [s]
  | .merge other => other.operators
  | .type _ | .method _ => []

/-- Methods of different references are put one behind the other. -/
theorem foldl_replaceMethod {methods more : List MethodSignature}
    (distinct : ((methods ++ more).map (·.ref)).Nodup) :
    more.foldl replaceMethod methods = methods ++ more := by
  induction more generalizing methods with
  | nil => exact (List.append_nil _).symm
  | cons m rest ih =>
    have new : replaceMethod methods m = methods ++ [m] := by
      rw [List.map_append, List.nodup_append] at distinct
      have others : ∀ old ∈ methods, (!decide (old.ref = m.ref)) = true := by
        intro old member
        have differ := distinct.2.2 old.ref (List.mem_map_of_mem member) m.ref (.head _)
        simpa using differ
      rw [replaceMethod, List.filter_eq_self.mpr others]
    rw [List.append_cons] at distinct ⊢
    rw [List.foldl_cons, new, ih distinct]

namespace TypeDatabase

variable {db : TypeDatabase} {edits : List DatabaseEdit}

/-- A register without variables. -/
def bare (db : TypeDatabase) : TypeDatabase :=
  { db with
    types := db.types.mapValues fun _ info => info.bare
    methods := db.methods.map (·.bare), operators := db.operators.map (·.bare) }

/-- A register that starts with the primitives, in which the variables that types declare are bound and
operators have none. -/
structure WellBound (db : TypeDatabase) : Prop where
  orderly : db.Orderly
  first : primitives.types.keys <+: db.types.keys
  types : ∀ name info, db.typeInfo? name = some info → info.BoundOut
  operators : ∀ s ∈ db.operators, s.Closed

/-- A register in which methods have the variables of their types as these are now. -/
structure Restorable (db : TypeDatabase) : Prop extends WellBound db where
  methods : ∀ m ∈ db.methods, m.TypesAre TypeExpr.BoundOver (db.genericsOf m.declaringType.name)

theorem ext_parts {a b : TypeDatabase} (types : a.types = b.types) (methods : a.methods = b.methods)
    (operators : a.operators = b.operators) (thisType : a.thisType = b.thisType) : a = b := by
  cases a
  cases b
  rw [mk.injEq]
  exact ⟨types, methods, operators, thisType⟩

theorem types_registerTypes (db : TypeDatabase) (infos : List TypeInfo) :
    (infos.foldl registerType db).types =
      db.types.insertAll (infos.map fun info => (info.name, info.bindParams)) := by
  induction infos generalizing db with
  | nil => rfl
  | cons info rest ih =>
    rw [List.foldl_cons, ih]
    rfl

namespace Restorable

variable (restorable : db.Restorable)
include restorable

theorem types_merge_bare : (primitives.merge db.bare).types = db.types := by
  have again : db.bare.types.values.map (fun info => (info.name, info.bindParams)) =
      db.types.entries.map id := by
    rw [bare, OrderedMap.values_mapValues, OrderedMap.values, List.map_map, List.map_map]
    refine List.map_congr_left fun e member => ?_
    have held : db.typeInfo? e.1 = some e.2 := OrderedMap.get?_eq_some_iff.mpr member
    exact Prod.ext (restorable.orderly.types e.1 e.2 held).1 (restorable.types e.1 e.2 held).restored
  rw [types_merge, types_registerTypes, again, List.map_id]
  exact OrderedMap.insertAll_entries restorable.first

theorem methods_merge_bare : (primitives.merge db.bare).methods = db.methods := by
  have again : db.bare.methods.map (primitives.merge db.bare).bound = db.methods.map id := by
    rw [bound_congr restorable.types_merge_bare, bare, List.map_map]
    refine List.map_congr_left fun m member => ?_
    have restored := (restorable.methods m member).restored
    rwa [← TypeExpr.name_bare] at restored
  rw [methods_merge, again, List.map_id]
  exact foldl_replaceMethod restorable.orderly.methods

/-- Taking over a register without its variables on top of the primitives gives back the register. -/
theorem merge_bare : primitives.merge db.bare = db := by
  have operators : (primitives.merge db.bare).operators = db.operators := by
    have again : db.operators.map (·.bare) = db.operators.map id :=
      List.map_congr_left fun s member => (restorable.operators s member).restored
    rw [operators_merge, bare, again, List.map_id]
    rfl
  exact ext_parts restorable.types_merge_bare restorable.methods_merge_bare operators rfl

end Restorable

/-! ### Whole runs -/

theorem keys_registerType (db : TypeDatabase) (info : TypeInfo) :
    db.types.keys <+: (db.registerType info).types.keys := by
  rw [registerType, OrderedMap.keys_insert]
  split
  · exact List.prefix_rfl
  · exact List.prefix_append _ _

/-- Types that are there already keep their places. -/
theorem keys_apply (db : TypeDatabase) (edit : DatabaseEdit) :
    db.types.keys <+: (db.apply edit).types.keys := by
  cases edit with
  | type info => exact keys_registerType db info
  | method m => exact List.prefix_rfl
  | operator s => exact List.prefix_rfl
  | merge other =>
    rw [apply, types_merge]
    induction other.types.values generalizing db with
    | nil => exact List.prefix_rfl
    | cons info rest ih => exact (keys_registerType db info).trans (ih (db.registerType info))

namespace WellBound

theorem registerTypes (wellBound : db.WellBound) {edit : DatabaseEdit}
    (spelled : ∀ info ∈ edit.types, info.SpelledOut) :
    ∀ name info, (db.apply edit).typeInfo? name = some info → info.BoundOut := by
  intro name info held
  cases edit with
  | type registered =>
    rw [apply, typeInfo?_registerType] at held
    split at held
    · obtain rfl := Option.some.inj held
      exact (spelled registered (List.mem_singleton_self _)).bind
    · exact wellBound.types name info held
  | method m => exact wellBound.types name info held
  | operator s => exact wellBound.types name info held
  | merge other =>
    rw [apply, typeInfo?_merge, Option.or_eq_some_iff] at held
    rcases held with taken | ⟨-, held⟩
    · obtain ⟨registered, last, rfl⟩ := Option.map_eq_some_iff.mp taken
      have member := List.mem_reverse.mp (List.mem_of_find?_eq_some last)
      exact (spelled registered member).bind
    · exact wellBound.types name info held

theorem apply (wellBound : db.WellBound) {edit : DatabaseEdit}
    (spelled : ∀ info ∈ edit.types, info.SpelledOut) (closed : ∀ s ∈ edit.operators, s.Closed) :
    (db.apply edit).WellBound where
  orderly := wellBound.orderly.apply edit
  first := wellBound.first.trans (keys_apply db edit)
  types := wellBound.registerTypes spelled
  operators := by
    have both : ∀ s ∈ db.operators ++ edit.operators, s.Closed :=
      List.forall_mem_append.mpr ⟨wellBound.operators, closed⟩
    cases edit with
    | type info => exact wellBound.operators
    | method m => exact wellBound.operators
    | operator s => exact both
    | merge other =>
      rw [TypeDatabase.apply, operators_merge]
      exact both

theorem after (wellBound : db.WellBound)
    (spelled : ∀ edit ∈ edits, ∀ info ∈ edit.types, info.SpelledOut)
    (closed : ∀ edit ∈ edits, ∀ s ∈ edit.operators, s.Closed) : (db.after edits).WellBound := by
  induction edits generalizing db with
  | nil => exact wellBound
  | cons edit rest ih =>
    obtain ⟨spelledFirst, spelled⟩ := List.forall_mem_cons.mp spelled
    obtain ⟨closedFirst, closed⟩ := List.forall_mem_cons.mp closed
    exact ih (wellBound.apply spelledFirst closedFirst) spelled closed

theorem primitives : TypeDatabase.primitives.WellBound where
  orderly := List.foldlRecOn _ _ empty_orderly fun _ orderly info _ => orderly.registerType info
  first := List.prefix_rfl
  types name info held := by
    have plain : ∀ e ∈ TypeDatabase.primitives.types.entries, e.2.types = [] := by decide +kernel
    rw [TypeInfo.BoundOut, plain _ (OrderedMap.get?_eq_some_iff.mp held)]
    exact List.forall_mem_nil _
  operators := List.forall_mem_nil _

end WellBound

/-- Edits of the primitives by what can be written as text: types whose variables are their own,
operators on types without variables, and methods. The last version of a method counts, and it is
registered when the type of the method has the variables that it has in the end. -/
structure Textual (edits : List DatabaseEdit) : Prop where
  types : ∀ edit ∈ edits, ∀ info ∈ edit.types, info.SpelledOut
  operators : ∀ edit ∈ edits, ∀ s ∈ edit.operators, s.Closed
  methods : ∀ ref r, primitives.lastRegistration? edits ref = some r →
    r.method.TypesAre TypeExpr.SpelledOver r.typeLevel ∧
      r.typeLevel = (primitives.after edits).genericsOf r.method.declaringType.name

theorem mem_of_lastRegistration? {ref : MethodRef} {r : MethodRegistration}
    (last : db.lastRegistration? edits ref = some r) : r ∈ db.registrationsIn edits :=
  List.mem_reverse.mp (List.mem_of_find?_eq_some last)

theorem Textual.restorable (textual : Textual edits) : (primitives.after edits).Restorable := by
  have wellBound := WellBound.primitives.after textual.types textual.operators
  refine ⟨wellBound, fun m member => ?_⟩
  have known : (primitives.after edits).method? m.ref = some m :=
    (find?_key_iff wellBound.orderly.methods).mpr ⟨member, rfl⟩
  have without : primitives.method? m.ref = none := rfl
  rw [method?_after_or, without, Option.or_none] at known
  obtain ⟨r, last, rfl⟩ := Option.map_eq_some_iff.mp known
  obtain ⟨spelled, final⟩ := textual.methods _ r last
  have named : r.result.declaringType.name = r.method.declaringType.name :=
    TypeExpr.name_bindParams _ _
  rw [named, ← final]
  exact spelled.bind

end TypeDatabase

end NodeScript
