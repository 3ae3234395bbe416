import Mathlib.Data.List.Induction
import Mathlib.Data.List.Nodup
import Mathlib.Data.List.TakeWhile
import NodeScript.Proofs.OrderedMap
import NodeScript.Typing.TypeDatabase

/-!
Types and methods registered in different orders. The entries of types do not depend on the order. A
method takes the type variables that its type has at the moment, so it may not change sides with the
registration of its type; and the members of a type list its methods in the order of registration.
-/

namespace NodeScript

/-- Something that is registered. -/
inductive Registration where
  | type (info : TypeInfo)
  | method (m : MethodSignature)
deriving DecidableEq

/-- The types among what is registered. -/
def typesIn (calls : List Registration) : List TypeInfo :=
  calls.filterMap fun | .type info => some info | .method _ => none

/-- The methods among what is registered. -/
def methodsIn (calls : List Registration) : List MethodSignature :=
  calls.filterMap fun | .type _ => none | .method m => some m

/-- No type name and no method reference is registered twice. -/
structure RegisteredOnce (calls : List Registration) : Prop where
  types : ((typesIn calls).map (·.name)).Nodup
  methods : ((methodsIn calls).map (·.ref)).Nodup

namespace TypeDatabase

/-- Registers a type or a method. -/
def register (db : TypeDatabase) : Registration → TypeDatabase
  | .type info => db.registerType info
  | .method m => db.registerMethod m

/-- Registers one after the other. -/
def registerAll (db : TypeDatabase) (calls : List Registration) : TypeDatabase :=
  calls.foldl register db

/-- Every method that its type's registration would bind otherwise stands on the same side of it. -/
def KeepsSides (db : TypeDatabase) (calls calls' : List Registration) : Prop :=
  ∀ info m, .type info ∈ calls → .method m ∈ calls → info.name = m.declaringType.name →
    m.bindParams info.genericParameters ≠ m.bindParams (db.genericsOf info.name) →
    ([.type info, .method m].Sublist calls ↔ [.type info, .method m].Sublist calls')

end TypeDatabase

section Lists

variable {calls calls' : List Registration} {info : TypeInfo} {m : MethodSignature}

theorem mem_typesIn : info ∈ typesIn calls ↔ .type info ∈ calls := by
  simp only [typesIn, List.mem_filterMap]
  constructor
  · rintro ⟨call, member, found⟩
    cases call with
    | type info' =>
      obtain rfl := Option.some.inj found
      exact member
    | method m => exact nomatch found
  · exact fun member => ⟨_, member, rfl⟩

theorem mem_methodsIn : m ∈ methodsIn calls ↔ .method m ∈ calls := by
  simp only [methodsIn, List.mem_filterMap]
  constructor
  · rintro ⟨call, member, found⟩
    cases call with
    | type info => exact nomatch found
    | method m' =>
      obtain rfl := Option.some.inj found
      exact member
  · exact fun member => ⟨_, member, rfl⟩

theorem methodsIn_append (calls calls' : List Registration) :
    methodsIn (calls ++ calls') = methodsIn calls ++ methodsIn calls' :=
  List.filterMap_append

theorem methodsIn_perm (perm : calls.Perm calls') : (methodsIn calls).Perm (methodsIn calls') :=
  perm.filterMap _

namespace RegisteredOnce

theorem sublist (once : RegisteredOnce calls) (within : calls'.Sublist calls) :
    RegisteredOnce calls' where
  types := once.types.sublist ((within.filterMap _).map _)
  methods := once.methods.sublist ((within.filterMap _).map _)

theorem perm (once : RegisteredOnce calls) (same : calls.Perm calls') : RegisteredOnce calls' where
  types := ((same.filterMap _).map _).nodup_iff.mp once.types
  methods := ((same.filterMap _).map _).nodup_iff.mp once.methods

/-- A type is registered under its name alone. -/
theorem type_unique (once : RegisteredOnce calls) {info' : TypeInfo} (member : .type info ∈ calls)
    (member' : .type info' ∈ calls) (same : info.name = info'.name) : info = info' :=
  List.inj_on_of_nodup_map once.types (mem_typesIn.mpr member) (mem_typesIn.mpr member') same

/-- A method is registered under its reference alone. -/
theorem method_unique (once : RegisteredOnce calls) {m' : MethodSignature}
    (member : .method m ∈ calls) (member' : .method m' ∈ calls) (same : m.ref = m'.ref) : m = m' :=
  List.inj_on_of_nodup_map once.methods (mem_methodsIn.mpr member) (mem_methodsIn.mpr member') same

/-- What is registered before and behind a type has other names. -/
theorem other_type {before after : List Registration}
    (once : RegisteredOnce (before ++ .type info :: after)) {info' : TypeInfo}
    (member : .type info' ∈ before ++ after) : info'.name ≠ info.name := by
  have distinct : ((typesIn (.type info :: (before ++ after))).map (·.name)).Nodup :=
    (once.perm List.perm_middle).types
  intro same
  have there : info'.name ∈ (typesIn (before ++ after)).map (·.name) :=
    List.mem_map_of_mem (mem_typesIn.mpr member)
  rw [same] at there
  exact (List.nodup_cons.mp distinct).1 there

/-- What is registered before and behind a method has other references. -/
theorem other_method {before after : List Registration}
    (once : RegisteredOnce (before ++ .method m :: after)) {m' : MethodSignature}
    (member : .method m' ∈ before ++ after) : m'.ref ≠ m.ref := by
  have distinct : ((methodsIn (.method m :: (before ++ after))).map (·.ref)).Nodup :=
    (once.perm List.perm_middle).methods
  intro same
  have there : m'.ref ∈ (methodsIn (before ++ after)).map (·.ref) :=
    List.mem_map_of_mem (mem_methodsIn.mpr member)
  rw [same] at there
  exact (List.nodup_cons.mp distinct).1 there

end RegisteredOnce

end Lists

theorem TypeExpr.name_bindParams (params : List String) (t : TypeExpr) :
    (t.bindParams params).name = t.name := by
  cases t with
  | var name => rfl
  | named name args =>
    rw [bindParams]
    split <;> rfl

theorem MethodSignature.ref_bindParams (params : List String) (m : MethodSignature) :
    (m.bindParams params).ref = m.ref := by
  simp [ref, bindParams, TypeExpr.name_bindParams]

namespace TypeDatabase

variable {db : TypeDatabase} {calls calls' : List Registration} {info : TypeInfo}
  {m : MethodSignature} {name : String}

theorem registerAll_append (db : TypeDatabase) (calls calls' : List Registration) :
    db.registerAll (calls ++ calls') = (db.registerAll calls).registerAll calls' :=
  List.foldl_append

theorem registerAll_concat (db : TypeDatabase) (calls : List Registration) (call : Registration) :
    db.registerAll (calls ++ [call]) = (db.registerAll calls).register call :=
  registerAll_append db calls [call]

/-! ### Types -/

theorem typeInfo?_registerType (db : TypeDatabase) (info : TypeInfo) (name : String) :
    (db.registerType info).typeInfo? name =
      if name = info.name then some info.bindParams else db.typeInfo? name :=
  OrderedMap.get?_insert

/-- A name that no type is registered under keeps its entry. -/
theorem typeInfo?_of_absent (absent : ∀ info, .type info ∈ calls → info.name ≠ name) :
    (db.registerAll calls).typeInfo? name = db.typeInfo? name := by
  induction calls using List.reverseRecOn with
  | nil => rfl
  | append_singleton calls call ih =>
    have before := ih fun info member => absent info (List.mem_append_left _ member)
    rw [registerAll_concat]
    cases call with
    | method m => exact before
    | type info =>
      have other := absent info (List.mem_append_right _ (.head _))
      rw [register, typeInfo?_registerType, if_neg (Ne.symm other), before]

/-- The entry of a name is that of the type registered under it. -/
theorem typeInfo?_of_mem (once : RegisteredOnce calls) (member : .type info ∈ calls) :
    (db.registerAll calls).typeInfo? info.name = some info.bindParams := by
  obtain ⟨before, after, rfl⟩ := List.append_of_mem member
  have absent : ∀ info', .type info' ∈ after → info'.name ≠ info.name :=
    fun info' later => once.other_type (List.mem_append_right before later)
  rw [registerAll_append]
  change (((db.registerAll before).registerType info).registerAll after).typeInfo? info.name = _
  rw [typeInfo?_of_absent absent, typeInfo?_registerType, if_pos rfl]

/-- The entries of types do not depend on the order of registration. -/
theorem typeInfo?_perm (once : RegisteredOnce calls) (perm : calls.Perm calls') (name : String) :
    (db.registerAll calls).typeInfo? name = (db.registerAll calls').typeInfo? name := by
  by_cases registered : ∃ info, .type info ∈ calls ∧ info.name = name
  · obtain ⟨info, member, rfl⟩ := registered
    rw [typeInfo?_of_mem once member, typeInfo?_of_mem (once.perm perm) (perm.mem_iff.mp member)]
  · have absent : ∀ info, .type info ∈ calls → info.name ≠ name :=
      fun info member same => registered ⟨info, member, same⟩
    rw [typeInfo?_of_absent absent,
      typeInfo?_of_absent fun info member => absent info (perm.mem_iff.mpr member)]

mutual

theorem isKnown_congr {db' : TypeDatabase} (same : ∀ name, db.typeInfo? name = db'.typeInfo? name) :
    (t : TypeExpr) → db.isKnown t = db'.isKnown t
  | .var _ => rfl
  | .named name args => by rw [isKnown, isKnown, same, areKnown_congr same args]

theorem areKnown_congr {db' : TypeDatabase} (same : ∀ name, db.typeInfo? name = db'.typeInfo? name) :
    (ts : List TypeExpr) → db.areKnown ts = db'.areKnown ts
  | [] => rfl
  | t :: rest => by rw [areKnown, areKnown, isKnown_congr same t, areKnown_congr same rest]

end

theorem thisType_registerAll (db : TypeDatabase) (calls : List Registration) :
    (db.registerAll calls).thisType = db.thisType := by
  induction calls using List.reverseRecOn with
  | nil => rfl
  | append_singleton calls call ih =>
    rw [registerAll_concat]
    cases call <;> exact ih

/-! ### Methods -/

/-- The type variables that the type of a method has when the method is registered. -/
def genericsFor (db : TypeDatabase) (calls : List Registration) (m : MethodSignature) : List String :=
  (db.registerAll (calls.takeWhile (· ≠ .method m))).genericsOf m.declaringType.name

/-- A method as it is registered. -/
def boundIn (db : TypeDatabase) (calls : List Registration) (m : MethodSignature) : MethodSignature :=
  m.bindParams (db.genericsFor calls m)

theorem takeWhile_append_of_mem {call : Registration} (member : call ∈ calls) :
    (calls ++ calls').takeWhile (· ≠ call) = calls.takeWhile (· ≠ call) := by
  rw [List.takeWhile_append]
  split
  · rename_i whole
    have all := List.takeWhile_eq_self_iff.mp (List.takeWhile_sublist _ |>.eq_of_length whole)
    exact absurd rfl (of_decide_eq_true (all call member))
  · rfl

theorem takeWhile_append_of_not_mem {call : Registration} (absent : call ∉ calls) :
    (calls ++ call :: calls').takeWhile (· ≠ call) = calls := by
  rw [List.takeWhile_append_of_pos, List.takeWhile_cons_of_neg (by simp), List.append_nil]
  exact fun other member => decide_eq_true fun same => absent (same ▸ member)

/-- What is registered: the methods that were there and are not replaced, then the new ones, each with
the type variables of the moment. -/
theorem methods_registerAll (db : TypeDatabase) (once : RegisteredOnce calls) :
    (db.registerAll calls).methods =
      (db.methods.filter fun old => old.ref ∉ (methodsIn calls).map (·.ref)) ++
        (methodsIn calls).map (db.boundIn calls) := by
  induction calls using List.reverseRecOn with
  | nil => simp [registerAll, methodsIn]
  | append_singleton calls call ih =>
    have earlier := once.sublist (List.sublist_append_left calls [call])
    have kept : (methodsIn calls).map (db.boundIn calls) =
        (methodsIn calls).map (db.boundIn (calls ++ [call])) := by
      refine List.map_congr_left fun m member => ?_
      rw [boundIn, boundIn, genericsFor, genericsFor,
        takeWhile_append_of_mem (mem_methodsIn.mp member)]
    rw [registerAll_concat, methodsIn_append]
    cases call with
    | type info =>
      have nothing : methodsIn [.type info] = [] := rfl
      rw [nothing, List.append_nil, ← kept]
      exact ih earlier
    | method m =>
      have only : methodsIn [.method m] = [m] := rfl
      have other : ∀ m', .method m' ∈ calls → m'.ref ≠ m.ref :=
        fun m' member => once.other_method (List.mem_append_left [] member)
      have absent : .method m ∉ calls := fun member => other m member rfl
      have bound : (methodsIn calls ++ [m]).map (db.boundIn (calls ++ [.method m])) =
          (methodsIn calls).map (db.boundIn calls) ++
            [m.bindParams ((db.registerAll calls).genericsOf m.declaringType.name)] := by
        rw [List.map_append, ← kept, List.map_singleton, boundIn, genericsFor,
          takeWhile_append_of_not_mem absent]
      have others : ((methodsIn calls).map (db.boundIn calls)).filter
          (fun old => !(old.ref = m.ref)) = (methodsIn calls).map (db.boundIn calls) := by
        rw [List.filter_eq_self]
        intro old member
        obtain ⟨m', inside, rfl⟩ := List.mem_map.mp member
        simpa [boundIn, MethodSignature.ref_bindParams] using other m' (mem_methodsIn.mp inside)
      have left : (db.methods.filter fun old => old.ref ∉ (methodsIn calls).map (·.ref)).filter
            (fun old => !(old.ref = m.ref)) =
          db.methods.filter fun old => old.ref ∉ (methodsIn calls ++ [m]).map (·.ref) := by
        rw [List.filter_filter]
        refine List.filter_congr fun old _ => ?_
        rw [List.map_append, Bool.eq_iff_iff]
        simp [and_comm]
      rw [only, bound, ← List.append_assoc, ← left]
      change ((db.registerAll calls).methods.filter
        (fun old => !(old.ref = (m.bindParams _).ref)) ++ [m.bindParams _]) = _
      rw [MethodSignature.ref_bindParams, ih earlier, List.filter_append, others]

theorem method?_of_mem (db : TypeDatabase) (once : RegisteredOnce calls)
    (member : .method m ∈ calls) : (db.registerAll calls).method? m.ref = some (db.boundIn calls m) := by
  have inside : m ∈ methodsIn calls := mem_methodsIn.mpr member
  have gone : (db.methods.filter fun old => old.ref ∉ (methodsIn calls).map (·.ref)).find?
      (·.ref = m.ref) = none := by
    refine List.find?_eq_none.mpr fun old kept same => ?_
    have other := of_decide_eq_true (List.mem_filter.mp kept).2
    exact other (of_decide_eq_true same ▸ List.mem_map_of_mem inside)
  obtain ⟨found, seen⟩ : ∃ found, ((methodsIn calls).map (db.boundIn calls)).find?
      (·.ref = m.ref) = some found := by
    refine Option.isSome_iff_exists.mp (List.find?_isSome.mpr ⟨_, List.mem_map_of_mem inside, ?_⟩)
    simp [boundIn, MethodSignature.ref_bindParams]
  obtain ⟨m', inside', rfl⟩ := List.mem_map.mp (List.mem_of_find?_eq_some seen)
  have same : m'.ref = m.ref := by
    have agrees := List.find?_some seen
    simpa [boundIn, MethodSignature.ref_bindParams] using agrees
  rw [method?, methods_registerAll db once, List.find?_append, gone, seen,
    once.method_unique (mem_methodsIn.mp inside') member same]
  rfl

theorem method?_of_absent (db : TypeDatabase) (once : RegisteredOnce calls) {ref : MethodRef}
    (absent : ∀ m, .method m ∈ calls → m.ref ≠ ref) :
    (db.registerAll calls).method? ref = db.method? ref := by
  have none : ((methodsIn calls).map (db.boundIn calls)).find? (·.ref = ref) = none := by
    refine List.find?_eq_none.mpr fun m member same => ?_
    obtain ⟨m', inside, rfl⟩ := List.mem_map.mp member
    rw [boundIn, MethodSignature.ref_bindParams] at same
    exact absent m' (mem_methodsIn.mp inside) (of_decide_eq_true same)
  rw [method?, methods_registerAll db once, List.find?_append, none, Option.or_none, method?,
    List.find?_filter]
  congr 1
  funext old
  rw [Bool.eq_iff_iff]
  simp only [decide_eq_true_eq, List.mem_map, not_exists, not_and]
  constructor
  · exact fun both => both.2
  · exact fun same => ⟨fun m member other => absent m (mem_methodsIn.mp member) (other.trans same), same⟩

/-- A method takes the variables of a type that is registered before it, and otherwise those that the
name of the type has had before. -/
theorem genericsFor_of_mem (once : RegisteredOnce calls) (member : .type info ∈ calls)
    (member' : .method m ∈ calls) (own : info.name = m.declaringType.name) :
    db.genericsFor calls m =
      if [.type info, .method m].Sublist calls then info.genericParameters
      else db.genericsOf info.name := by
  obtain ⟨before, after, rfl, absent⟩ := List.eq_append_cons_of_mem member'
  have earlier := once.sublist (List.sublist_append_left before (.method m :: after))
  have absent' : .method m ∉ after :=
    fun later => once.other_method (List.mem_append_right before later) rfl
  have seen : [.type info, .method m].Sublist (before ++ .method m :: after) ↔
      .type info ∈ before := by
    constructor
    · intro inOrder
      obtain ⟨front, back, split, inside, behind⟩ := List.sublist_append_iff.mp inOrder
      cases front with
      | nil =>
        obtain rfl : [.type info, .method m] = back := split
        rcases List.cons_sublist_cons'.mp behind with later | ⟨same, -⟩
        · exact absurd (later.subset (.tail _ (.head _))) absent'
        · exact nomatch same
      | cons call rest =>
        obtain rfl : .type info = call := (List.cons.inj split).1
        exact inside.subset (.head _)
    · intro inside
      exact (List.singleton_sublist.mpr inside).append (List.cons_sublist_cons.mpr (List.nil_sublist _))
  rw [genericsFor, takeWhile_append_of_not_mem absent, ← own]
  split
  · rename_i inOrder
    rw [genericsOf, typeInfo?_of_mem earlier (seen.mp inOrder)]
    rfl
  · rename_i missing
    have none : ∀ info', .type info' ∈ before → info'.name ≠ info.name := by
      intro info' inside same
      obtain rfl := once.type_unique (List.mem_append_left _ inside) member same
      exact missing (seen.mpr inside)
    rw [genericsOf, typeInfo?_of_absent none]
    rfl

theorem genericsFor_of_absent (absent : ∀ info, .type info ∈ calls → info.name ≠ m.declaringType.name) :
    db.genericsFor calls m = db.genericsOf m.declaringType.name := by
  have none : ∀ info, .type info ∈ calls.takeWhile (· ≠ .method m) →
      info.name ≠ m.declaringType.name :=
    fun info member => absent info ((List.takeWhile_sublist _).subset member)
  rw [genericsFor, genericsOf, typeInfo?_of_absent none]
  rfl

/-- Where no method changes sides with a type that matters to it, the methods are bound alike, and
only there. -/
theorem keepsSides_iff (once : RegisteredOnce calls) (perm : calls.Perm calls') :
    db.KeepsSides calls calls' ↔
      ∀ m, .method m ∈ calls → db.boundIn calls m = db.boundIn calls' m := by
  have bound : ∀ info m, .type info ∈ calls → .method m ∈ calls →
      info.name = m.declaringType.name →
      db.boundIn calls m = m.bindParams (if [.type info, .method m].Sublist calls then
        info.genericParameters else db.genericsOf info.name) ∧
      db.boundIn calls' m = m.bindParams (if [.type info, .method m].Sublist calls' then
        info.genericParameters else db.genericsOf info.name) := by
    intro info m member member' own
    rw [boundIn, boundIn, genericsFor_of_mem once member member' own,
      genericsFor_of_mem (once.perm perm) (perm.mem_iff.mp member) (perm.mem_iff.mp member') own]
    exact ⟨rfl, rfl⟩
  constructor
  · intro keeps m member'
    by_cases registered : ∃ info, .type info ∈ calls ∧ info.name = m.declaringType.name
    · obtain ⟨info, member, own⟩ := registered
      obtain ⟨here, there⟩ := bound info m member member' own
      rw [here, there]
      by_cases matters : m.bindParams info.genericParameters = m.bindParams (db.genericsOf info.name)
      · split <;> split
        · rfl
        · exact matters
        · exact matters.symm
        · rfl
      · simp only [keeps info m member member' own matters]
    · have absent : ∀ info, .type info ∈ calls → info.name ≠ m.declaringType.name :=
        fun info member own => registered ⟨info, member, own⟩
      have absent' : ∀ info, .type info ∈ calls' → info.name ≠ m.declaringType.name :=
        fun info member => absent info (perm.mem_iff.mpr member)
      rw [boundIn, boundIn, genericsFor_of_absent absent, genericsFor_of_absent absent']
  · intro alike info m member member' own matters
    obtain ⟨here, there⟩ := bound info m member member' own
    have same := alike m member'
    rw [here, there] at same
    split at same <;> split at same
    · exact iff_of_true ‹_› ‹_›
    · exact absurd same matters
    · exact absurd same.symm matters
    · exact iff_of_false ‹_› ‹_›

theorem method?_perm_iff (db : TypeDatabase) (once : RegisteredOnce calls)
    (perm : calls.Perm calls') :
    (∀ ref, (db.registerAll calls).method? ref = (db.registerAll calls').method? ref) ↔
      ∀ m, .method m ∈ calls → db.boundIn calls m = db.boundIn calls' m := by
  have once' := once.perm perm
  constructor
  · intro same m member
    have found := same m.ref
    rw [method?_of_mem db once member, method?_of_mem db once' (perm.mem_iff.mp member)] at found
    exact Option.some.inj found
  · intro alike ref
    by_cases registered : ∃ m, .method m ∈ calls ∧ m.ref = ref
    · obtain ⟨m, member, rfl⟩ := registered
      rw [method?_of_mem db once member, method?_of_mem db once' (perm.mem_iff.mp member),
        alike m member]
    · have absent : ∀ m, .method m ∈ calls → m.ref ≠ ref :=
        fun m member same => registered ⟨m, member, same⟩
      rw [method?_of_absent db once absent,
        method?_of_absent db once' fun m member => absent m (perm.mem_iff.mpr member)]

/-! ### Members -/

/-- The methods of a type among what is registered. -/
def ownMethods (calls : List Registration) (name : String) : List MethodSignature :=
  (methodsIn calls).filter (·.declaringType.name = name)

/-- The methods of a type that a filter lets pass: those that were there, then the new ones. -/
theorem filter_methods_registerAll (db : TypeDatabase) (once : RegisteredOnce calls) (name : String)
    (filter : MemberFilter) :
    ((db.registerAll calls).methods.filter fun m =>
        m.declaringType.name = name && filter.accepts m.isStatic) =
      ((db.methods.filter fun old => old.ref ∉ (methodsIn calls).map (·.ref)).filter fun m =>
        m.declaringType.name = name && filter.accepts m.isStatic) ++
      ((ownMethods calls name).filter fun m => filter.accepts m.isStatic).map (db.boundIn calls) := by
  have unbound : ((fun m => m.declaringType.name = name && filter.accepts m.isStatic) ∘
      db.boundIn calls) = fun m => m.declaringType.name = name && filter.accepts m.isStatic := by
    funext m
    simp [boundIn, MethodSignature.bindParams, TypeExpr.name_bindParams]
  have own : ((ownMethods calls name).filter fun m => filter.accepts m.isStatic) =
      (methodsIn calls).filter fun m => m.declaringType.name = name && filter.accepts m.isStatic := by
    rw [ownMethods, List.filter_filter]
    simp only [Bool.and_comm]
  rw [methods_registerAll db once, List.filter_append, List.filter_map, unbound, own]

theorem members_perm (db : TypeDatabase) (once : RegisteredOnce calls) (perm : calls.Perm calls')
    (alike : ∀ m, .method m ∈ calls → db.boundIn calls m = db.boundIn calls' m) (t : TypeExpr)
    (filter : MemberFilter) :
    ((db.registerAll calls).members t filter).Perm ((db.registerAll calls').members t filter) ∧
      (ownMethods calls t.name = ownMethods calls' t.name →
        (db.registerAll calls).members t filter = (db.registerAll calls').members t filter) := by
  have once' := once.perm perm
  have entries : (db.registerAll calls).typeInfo? t.name = (db.registerAll calls').typeInfo? t.name :=
    typeInfo?_perm once perm t.name
  have replaced : (db.methods.filter fun old => old.ref ∉ (methodsIn calls).map (·.ref)) =
      db.methods.filter fun old => old.ref ∉ (methodsIn calls').map (·.ref) := by
    refine List.filter_congr fun old _ => ?_
    exact decide_eq_decide.mpr (not_congr ((methodsIn_perm perm).map _).mem_iff)
  have own : ((ownMethods calls t.name).filter fun m => filter.accepts m.isStatic).map
        (db.boundIn calls) =
      ((ownMethods calls t.name).filter fun m => filter.accepts m.isStatic).map
        (db.boundIn calls') := by
    refine List.map_congr_left fun m member => alike m ?_
    exact mem_methodsIn.mp (List.mem_of_mem_filter (List.mem_of_mem_filter member))
  have listed : (ownMethods calls t.name).Perm (ownMethods calls' t.name) :=
    (methodsIn_perm perm).filter _
  rw [members, members, entries]
  cases (db.registerAll calls').typeInfo? t.name with
  | none => exact ⟨.refl _, fun _ => rfl⟩
  | some info =>
    dsimp only
    rw [filter_methods_registerAll db once, filter_methods_registerAll db once', replaced, own]
    constructor
    · exact (((listed.filter _).map _).append_left _ |>.map _).append_left _
    · intro sameOrder
      rw [sameOrder]

/-! ### All answers -/

/-- The answers of a register after the same registrations in two orders. The entries of types, the
types that handles denote and the supertypes are the same. The methods are the same exactly if none
changes sides with the registration of its type where that would bind it otherwise; and then the
members are the same up to the order of the methods, which is that of their registration. -/
theorem registerAll_perm (db : TypeDatabase) {calls calls' : List Registration}
    (once : RegisteredOnce calls) (perm : calls.Perm calls') :
    let one := db.registerAll calls
    let other := db.registerAll calls'
    (∀ name, one.typeInfo? name = other.typeInfo? name) ∧
      (∀ handle, one.resolve handle = other.resolve handle) ∧
      (∀ t, one.supertypes t = other.supertypes t) ∧
      ((∀ ref, one.method? ref = other.method? ref) ↔ db.KeepsSides calls calls') ∧
      (db.KeepsSides calls calls' → ∀ t filter,
        (one.members t filter).Perm (other.members t filter) ∧
          (ownMethods calls t.name = ownMethods calls' t.name →
            one.members t filter = other.members t filter)) := by
  intro one other
  have entries : ∀ name, one.typeInfo? name = other.typeInfo? name := typeInfo?_perm once perm
  refine ⟨entries, fun handle => ?_, fun t => ?_, ?_, fun keeps t filter => ?_⟩
  · have known : one.isKnown = other.isKnown := funext (isKnown_congr entries)
    rw [resolve, resolve, known, thisType_registerAll, thisType_registerAll]
  · rw [supertypes, supertypes, entries]
  · exact (method?_perm_iff db once perm).trans (keepsSides_iff once perm).symm
  · exact members_perm db once perm ((keepsSides_iff once perm).mp keeps) t filter

/-- The generic type of lists. -/
def listType : TypeInfo := (TypeInfo.plain "List" .reference).withGenerics ["T"]

/-- A method of lists that takes an item. -/
def listMethod (name : String) : MethodSignature :=
  ⟨.named "List" [.plain "T"], name, false, [], [⟨"item", .plain "T"⟩], .plain "void"⟩

/-- Behind their type, two methods of lists may change places. -/
theorem registerAll_perm_lists :
    let calls : List Registration :=
      [.type listType, .method (listMethod "Add"), .method (listMethod "Contains")]
    let calls' : List Registration :=
      [.type listType, .method (listMethod "Contains"), .method (listMethod "Add")]
    RegisteredOnce calls ∧ calls.Perm calls' ∧
      ∀ ref, (empty.registerAll calls).method? ref = (empty.registerAll calls').method? ref := by
  intro calls calls'
  have once : RegisteredOnce calls := ⟨by decide, by decide⟩
  have perm : calls.Perm calls' := .cons _ (.swap _ _ _)
  refine ⟨once, perm, (registerAll_perm empty once perm).2.2.2.1.mpr ?_⟩
  intro info m member member' own matters
  have onlyType : info = listType := by simpa [calls] using member
  have methods : m = listMethod "Add" ∨ m = listMethod "Contains" := by simpa [calls] using member'
  subst onlyType
  rcases methods with rfl | rfl <;> decide +kernel

/-- A method in front of its type is not bound to the variables of the type; and methods that change
places change places among the members. -/
theorem registration_order_matters :
    let add := listMethod "Add"
    let contains := listMethod "Contains"
    let early : List Registration := [.type listType, .method add]
    let late : List Registration := [.method add, .type listType]
    let forth : List Registration := [.type listType, .method add, .method contains]
    let back : List Registration := [.type listType, .method contains, .method add]
    (RegisteredOnce early ∧ early.Perm late ∧
      (empty.registerAll early).method? add.ref ≠ (empty.registerAll late).method? add.ref) ∧
    (RegisteredOnce forth ∧ forth.Perm back ∧
      (empty.registerAll forth).members (.named "List" [.plain "int"]) .all ≠
        (empty.registerAll back).members (.named "List" [.plain "int"]) .all) := by
  intro add contains early late forth back
  exact ⟨⟨⟨by decide, by decide⟩, .swap _ _ _, by decide +kernel⟩,
    ⟨by decide, by decide⟩, .cons _ (.swap _ _ _), by decide +kernel⟩

end TypeDatabase

end NodeScript
