import NodeScript.Proofs.Typing.Solving
import NodeScript.Proofs.Typing.TypeText
import NodeScript.Typing.TypeDatabase

/-!
Types that can be stored as handles. Their names are read as a whole and are no reserved words, so
the handle of such a type denotes the type again, with its variables as bare names. Where the names of
a register are of this kind, whatever is solved from its types can be stored.
-/

namespace NodeScript

/-- A name that is read as a whole and is no reserved word. -/
def IsStorableName (name : String) : Prop :=
  IsTypeName name ∧ (TypeHandle.mk name).isReserved = false

instance : DecidablePred IsStorableName := fun name =>
  inferInstanceAs (Decidable (IsTypeName name ∧ (TypeHandle.mk name).isReserved = false))

/-- A type all of whose names, variables included, can be stored. -/
inductive TypeExpr.Storable : TypeExpr → Prop
  | var {name} : IsStorableName name → Storable (.var name)
  | named {name args} : IsStorableName name → (∀ a ∈ args, Storable a) → Storable (.named name args)

mutual

/-- Whether a type can be stored is decided along its structure. -/
def TypeExpr.decStorable : (t : TypeExpr) → Decidable t.Storable
  | .var name =>
    if named : IsStorableName name then isTrue (.var named)
    else isFalse fun | .var storable => named storable
  | .named name args =>
    if named : IsStorableName name then
      match TypeExpr.decStorableAll args with
      | isTrue all => isTrue (.named named all)
      | isFalse notAll => isFalse fun | .named _ all => notAll all
    else isFalse fun | .named storable _ => named storable

/-- Whether all types of a list can be stored. -/
def TypeExpr.decStorableAll : (ts : List TypeExpr) → Decidable (∀ t ∈ ts, t.Storable)
  | [] => isTrue fun _ member => nomatch member
  | t :: rest =>
    match TypeExpr.decStorable t, TypeExpr.decStorableAll rest with
    | isTrue head, isTrue tail => isTrue (List.forall_mem_cons.mpr ⟨head, tail⟩)
    | isFalse head, _ => isFalse fun all => head (List.forall_mem_cons.mp all).1
    | _, isFalse tail => isFalse fun all => tail (List.forall_mem_cons.mp all).2

end

instance : DecidablePred TypeExpr.Storable := TypeExpr.decStorable

/-- Bindings to types that can be stored. -/
def Bindings.Storable (bindings : Bindings) : Prop :=
  ∀ k t, bindings.get? k = some t → t.Storable

theorem Bindings.storable_empty : Bindings.Storable ∅ := fun _ _ held => nomatch held

namespace TypeExpr

variable {t : TypeExpr} {bindings : Bindings}

theorem Storable.wellNamed (storable : t.Storable) : t.WellNamed := by
  induction storable with
  | var named => exact .var named.1
  | named named _ ih => exact .named named.1 ih

theorem Storable.args (storable : t.Storable) : ∀ a ∈ t.args, a.Storable := by
  cases storable with
  | var named => exact fun a member => nomatch member
  | named named args => exact args

theorem Storable.substitute (storable : t.Storable) (stored : bindings.Storable) :
    (t.substitute bindings).Storable := by
  induction storable with
  | @var name named =>
    rw [TypeExpr.substitute]
    cases held : bindings.get? name with
    | none => exact .var named
    | some u => exact stored name u held
  | named named _ ih =>
    rw [TypeExpr.substitute, substituteAll_eq_map]
    refine .named named fun a member => ?_
    obtain ⟨arg, inside, rfl⟩ := List.mem_map.mp member
    exact ih arg inside

/-! ### Texts -/

mutual

theorem textChars_bare : (t : TypeExpr) → t.bare.textChars = t.textChars
  | .var _ => rfl
  | .named _ [] => rfl
  | .named name [arg] => by
    rw [bare, bareAll, bareAll, textChars, textChars, textChars_bare arg]
  | .named name (arg :: b :: more) => by
    rw [bare, bareAll, bareAll, textChars, textChars, textChars_bare arg, ← bareAll,
      moreTextChars_bareAll (b :: more)]
    · exact fun same => nomatch same
    · exact fun same => nomatch same

theorem moreTextChars_bareAll : (ts : List TypeExpr) → moreTextChars (bareAll ts) = moreTextChars ts
  | [] => rfl
  | t :: rest => by
    rw [bareAll, moreTextChars, moreTextChars, textChars_bare t, moreTextChars_bareAll rest]

end

mutual

theorem bare_bare : (t : TypeExpr) → t.bare.bare = t.bare
  | .var _ => rfl
  | .named name args => by rw [bare, bare, bareAll_bareAll args]

theorem bareAll_bareAll : (ts : List TypeExpr) → bareAll (bareAll ts) = bareAll ts
  | [] => rfl
  | t :: rest => by rw [bareAll, bareAll, bare_bare t, bareAll_bareAll rest]

end

/-- The reserved words have no other characters than names have. -/
theorem isReserved_eq_false {text : String} {c : Char} (member : c ∈ text.toList)
    (other : isTypeNameChar c = false) : (TypeHandle.mk text).isReserved = false := by
  have words : ∀ h ∈ [TypeHandle.unknown, .execution, .thisType],
      h.text.toList.all isTypeNameChar = true := by decide
  cases reserved : (TypeHandle.mk text).isReserved with
  | false => rfl
  | true =>
    have listed : TypeHandle.mk text ∈ [TypeHandle.unknown, .execution, .thisType] := by
      simpa [TypeHandle.isReserved, or_assoc] using reserved
    exact absurd (List.all_eq_true.mp (words _ listed) c member) (Bool.eq_false_iff.mp other)

/-- The text of a type that can be stored is a name that is no reserved word, or it has brackets. -/
theorem Storable.not_reserved (storable : t.Storable) : (TypeHandle.of t).isReserved = false := by
  have bracket : ∀ {c}, c ∈ t.textChars → isTypeNameChar c = false →
      (TypeHandle.of t).isReserved = false := by
    intro c member other
    refine isReserved_eq_false (c := c) ?_ other
    rw [text, String.toList_ofList]
    exact member
  have plain : ∀ {name}, IsStorableName name → t.textChars = name.toList →
      (TypeHandle.of t).isReserved = false := by
    intro name named chars
    rw [TypeHandle.of, text, chars, String.ofList_toList]
    exact named.2
  cases storable with
  | var named => exact plain named rfl
  | @named name args named _ =>
    rcases args with _ | ⟨arg, _ | ⟨b, more⟩⟩
    · exact plain named rfl
    · by_cases array : name = arrayName
      · refine bracket (c := '[') ?_ (by decide)
        simp [textChars, array]
      · refine bracket (c := '<') ?_ (by decide)
        simp [textChars, array]
    · refine bracket (c := '<') ?_ (by decide)
      simp [textChars]

theorem Storable.toType?_of (storable : t.Storable) : (TypeHandle.of t).toType? = some t.bare := by
  have read : parse (TypeHandle.of t).text = .ok t.bare := parse_of_wellNamed storable.wellNamed
  rw [TypeHandle.toType?, storable.not_reserved, if_neg Bool.false_ne_true, read]
  rfl

/-! ### Substitution of what was stored -/

mutual

theorem substitute_congr {bindings bindings' : Bindings}
    (same : ∀ k, bindings.get? k = bindings'.get? k) :
    (t : TypeExpr) → t.substitute bindings = t.substitute bindings'
  | .var name => by rw [substitute, substitute, same]
  | .named name args => by rw [substitute, substitute, substituteAll_congr same args]

theorem substituteAll_congr {bindings bindings' : Bindings}
    (same : ∀ k, bindings.get? k = bindings'.get? k) :
    (ts : List TypeExpr) → substituteAll bindings ts = substituteAll bindings' ts
  | [] => rfl
  | t :: rest => by
    rw [substituteAll, substituteAll, substitute_congr same t, substituteAll_congr same rest]

end

mutual

theorem bare_substitute {bindings bindings' : Bindings}
    (same : ∀ k, bindings'.get? k = (bindings.get? k).map bare) :
    (t : TypeExpr) → (t.substitute bindings').bare = (t.substitute bindings).bare
  | .var name => by
    rw [substitute, substitute, same]
    cases bindings.get? name with
    | none => rfl
    | some u => exact bare_bare u
  | .named name args => by rw [substitute, substitute, bare, bare, bareAll_substitute same args]

theorem bareAll_substitute {bindings bindings' : Bindings}
    (same : ∀ k, bindings'.get? k = (bindings.get? k).map bare) :
    (ts : List TypeExpr) → bareAll (substituteAll bindings' ts) = bareAll (substituteAll bindings ts)
  | [] => rfl
  | t :: rest => by
    rw [substituteAll, substituteAll, bareAll, bareAll, bare_substitute same t,
      bareAll_substitute same rest]

end

/-- Types that are alike up to variables as bare names have one handle. -/
theorem handle_eq_of_bare {t u : TypeExpr} (same : t.bare = u.bare) :
    TypeHandle.of t = TypeHandle.of u := by
  rw [TypeHandle.of, TypeHandle.of, text, text, ← textChars_bare t, same, textChars_bare u]

end TypeExpr

/-! ### Types of a register -/

/-- The names of a register can be stored: those of its types, that of the type which scripts run on,
and all that stand in the types that its types convert to. -/
structure TypeDatabase.Storable (db : TypeDatabase) : Prop where
  types : ∀ name ∈ db.types.keys, IsStorableName name
  thisType : IsStorableName db.thisType
  supertypes : ∀ info ∈ db.types.values, ∀ t ∈ info.supertypes, t.Storable

instance : DecidablePred TypeDatabase.Storable := fun db =>
  decidable_of_iff ((∀ name ∈ db.types.keys, IsStorableName name) ∧ IsStorableName db.thisType ∧
    ∀ info ∈ db.types.values, ∀ t ∈ info.supertypes, t.Storable)
    ⟨fun ⟨types, thisType, supertypes⟩ => ⟨types, thisType, supertypes⟩,
      fun storable => ⟨storable.types, storable.thisType, storable.supertypes⟩⟩

namespace TypeDatabase

variable {db : TypeDatabase} {t u : TypeExpr}

mutual

theorem storable_of_isKnown (types : ∀ name ∈ db.types.keys, IsStorableName name) :
    (t : TypeExpr) → db.isKnown t = true → t.Storable
  | .var _, known => by simp [isKnown] at known
  | .named name args, known => by
    rw [isKnown, Bool.and_eq_true] at known
    refine .named ?_ (storable_of_areKnown types args known.2)
    have registered := known.1
    split at registered
    · rename_i array
      rw [array]
      decide
    · cases found : db.typeInfo? name with
      | none => rw [found] at registered; exact nomatch registered
      | some info => exact types name (OrderedMap.mem_keys_of_get? found)

theorem storable_of_areKnown (types : ∀ name ∈ db.types.keys, IsStorableName name) :
    (ts : List TypeExpr) → db.areKnown ts = true → ∀ t ∈ ts, t.Storable
  | [], _ => fun _ member => nomatch member
  | t :: rest, known => by
    rw [areKnown, Bool.and_eq_true] at known
    exact List.forall_mem_cons.mpr
      ⟨storable_of_isKnown types t known.1, storable_of_areKnown types rest known.2⟩

end

theorem Storable.resolve (storable : db.Storable) {handle : TypeHandle}
    (found : db.resolve handle = some t) : t.Storable := by
  unfold TypeDatabase.resolve at found
  split at found
  · obtain rfl := Option.some.inj found
    exact .named storable.thisType fun _ member => nomatch member
  · exact storable_of_isKnown storable.types t (Option.filter_eq_some_iff.mp found).2

theorem Storable.supertypes_of (storable : db.Storable) (stored : t.Storable) :
    ∀ u ∈ db.supertypes t, u.Storable := by
  unfold TypeDatabase.supertypes
  split
  · refine List.forall_mem_singleton.mpr (.named (by decide) stored.args)
  · split
    · exact fun _ member => nomatch member
    · rename_i info found
      intro u member
      obtain ⟨declared, listed, rfl⟩ := List.mem_map.mp member
      refine (storable.supertypes info (OrderedMap.mem_values_of_get? found) declared listed).substitute ?_
      intro k v bound
      exact stored.args v (List.of_mem_zip (OrderedMap.mem_of_get?_ofList bound)).2

theorem Storable.convertsIn (storable : db.Storable) (stored : t.Storable) {n : Nat}
    (path : db.toOracle.ConvertsIn t n u) : u.Storable := by
  induction n generalizing u with
  | zero => exact path ▸ stored
  | succ n ih =>
    obtain ⟨via, before, step⟩ := path
    exact storable.supertypes_of (ih before) u step

mutual

/-- What is solved from a type that can be stored can be stored. -/
theorem Storable.unify (storable : db.Storable) : (declared concrete : TypeExpr) →
    {solved more : Bindings} → concrete.Storable → solved.Storable →
    db.toOracle.unify solved declared concrete = .ok more → more.Storable
  | .var name, concrete, solved, more, stored, before, unified => by
    rw [TypeOracle.unify] at unified
    split at unified
    · split at unified
      · obtain rfl := Except.ok.inj unified
        exact before
      · exact nomatch unified
    · obtain rfl := Except.ok.inj unified
      intro k v held
      rw [OrderedMap.get?_insert] at held
      split at held
      · exact Option.some.inj held ▸ stored
      · exact before k v held
  | .named name args, concrete, solved, more, stored, before, unified => by
    rw [TypeOracle.unify] at unified
    split at unified
    · exact nomatch unified
    · rename_i fitting found
      obtain ⟨n, -, path, -⟩ := TypeOracle.sameShape_spec found
      have fits : fitting.Storable := storable.convertsIn stored path
      exact Storable.unifyAll storable args fitting.args fits.args before unified

theorem Storable.unifyAll (storable : db.Storable) : (declared concrete : List TypeExpr) →
    {solved more : Bindings} → (∀ c ∈ concrete, c.Storable) → solved.Storable →
    db.toOracle.unifyAll solved declared concrete = .ok more → more.Storable
  | d :: ds, c :: cs, solved, more, stored, before, unified => by
    rw [TypeOracle.unifyAll] at unified
    split at unified
    · rename_i between first
      obtain ⟨storedFirst, storedRest⟩ := List.forall_mem_cons.mp stored
      exact Storable.unifyAll storable ds cs storedRest
        (Storable.unify storable d c storedFirst before first) unified
    · exact nomatch unified
  | [], _, solved, more, _, before, unified => by
    rw [TypeOracle.unifyAll] at unified
    · exact Except.ok.inj unified ▸ before
    · exact fun _ _ _ _ empty => nomatch empty
  | _ :: _, [], solved, more, _, before, unified => by
    rw [TypeOracle.unifyAll] at unified
    · exact Except.ok.inj unified ▸ before
    · exact fun _ _ _ _ _ empty => nomatch empty

end

theorem Storable.step (storable : db.Storable) {m : MethodSignature} {s : Solution} {index : Nat}
    (stored : t.Storable) (before : s.bindings.Storable) :
    (s.step db.toOracle m t index).1.bindings.Storable := by
  rcases Solution.step_cases db.toOracle m t index with
    ⟨_, fails⟩ | ⟨_, idles⟩ | ⟨declared, solved, _, unified, takes⟩
  · rw [fails]; exact before
  · rw [idles]; exact before
  · rw [takes]
    intro k v held
    have held : (addNewBindings s.bindings solved.entries).get? k = some v := held
    have fresh : solved.Storable := storable.unify declared t stored Bindings.storable_empty unified
    rw [get?_addNewBindings] at held
    rcases Option.or_eq_some_iff.mp held with old | ⟨-, new⟩
    · exact before k v old
    · exact fresh k v new

theorem Storable.solveAll (storable : db.Storable) (m : MethodSignature)
    {calls : List (TypeExpr × Nat)} (stored : ∀ call ∈ calls, call.1.Storable) :
    (m.solveAll db.toOracle calls).bindings.Storable := by
  have run : ∀ (calls : List (TypeExpr × Nat)) (s : Solution), (∀ call ∈ calls, call.1.Storable) →
      s.bindings.Storable →
      (calls.foldl (fun s call => (s.step db.toOracle m call.1 call.2).1) s).bindings.Storable := by
    intro calls
    induction calls with
    | nil => exact fun s _ before => before
    | cons call rest ih =>
      intro s stored before
      obtain ⟨first, others⟩ := List.forall_mem_cons.mp stored
      exact ih _ others (storable.step first before)
  exact run calls m.unsolved stored Bindings.storable_empty

end TypeDatabase

end NodeScript
