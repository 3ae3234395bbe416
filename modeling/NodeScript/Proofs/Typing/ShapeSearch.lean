import NodeScript.Proofs.Typing.Fitting
import NodeScript.Typing.TypeDatabase

/-!
The search for a shape among the types that a type converts to. The search goes from level to level
and passes over types that it has seen. What it has seen has been followed, so neither that nor the
bound on the levels hides anything within the bound: it finds a type of the shape exactly if there is
one, and then a nearest one, whatever the conversions are like. They may come back to where they
began, and they may lead to ever larger types.
-/

namespace NodeScript

variable {oracle : TypeOracle} {concrete found t u : TypeExpr} {name : String} {arity n steps : Nat}
  {seen level : List TypeExpr}

/-- Nothing of a level gets lost: what is not new there has been seen before. -/
theorem mem_unseenTypes_or (member : t ∈ level) : t ∈ unseenTypes seen level ∨ t ∈ seen := by
  induction level generalizing seen with
  | nil => exact nomatch member
  | cons first rest ih =>
    rw [unseenTypes]
    split
    · rename_i already
      rcases List.mem_cons.mp member with rfl | later
      · exact .inr (List.contains_iff_mem.mp already)
      · exact ih later
    · rcases List.mem_cons.mp member with rfl | later
      · exact .inl (.head _)
      · have further : t ∈ unseenTypes (first :: seen) rest ∨ t ∈ first :: seen := ih later
        rcases further with new | old
        · exact .inl (.tail _ new)
        · rcases List.mem_cons.mp old with rfl | before
          · exact .inl (.head _)
          · exact .inr before

/-- A type of a shape that is come to by a number of conversions, and none is come to by fewer. -/
structure TypeOracle.NearestIn (oracle : TypeOracle) (name : String) (arity : Nat)
    (concrete : TypeExpr) (n : Nat) (found : TypeExpr) : Prop where
  path : oracle.ConvertsIn concrete n found
  shape : found.hasShape name arity = true
  nearest : ∀ k t, oracle.ConvertsIn concrete k t → t.hasShape name arity = true → n ≤ k

/-- What a search has done when it comes to a level. All that lies nearer has been seen, and so has
what it converts to unless that stands in the level; and nothing of it has the shape. -/
structure Searched (oracle : TypeOracle) (name : String) (arity : Nat) (concrete : TypeExpr) (n : Nat)
    (seen level : List TypeExpr) : Prop where
  reached : ∀ t ∈ level, oracle.ConvertsIn concrete n t
  nearer : ∀ k < n, ∀ t, oracle.ConvertsIn concrete k t → t ∈ seen
  here : ∀ t, oracle.ConvertsIn concrete n t → t ∈ seen ∨ t ∈ level
  followed : ∀ t ∈ seen, ∀ u ∈ oracle.supertypes t, u ∈ seen ∨ u ∈ level
  shapeless : ∀ t ∈ seen, t.hasShape name arity = false

namespace Searched

theorem start (oracle : TypeOracle) (name : String) (arity : Nat) (concrete : TypeExpr) :
    Searched oracle name arity concrete 0 [] [concrete] where
  reached _ member := List.mem_singleton.mp member
  nearer _ before := absurd before (Nat.not_lt_zero _)
  here _ same := .inr (List.mem_singleton.mpr same)
  followed _ member := nomatch member
  shapeless _ member := nomatch member

/-- A level without the shape is followed to the next one. -/
theorem next (searched : Searched oracle name arity concrete n seen level)
    (without : level.find? (·.hasShape name arity) = none) :
    Searched oracle name arity concrete (n + 1) (unseenTypes seen level ++ seen)
      ((unseenTypes seen level).flatMap oracle.supertypes) := by
  have keeps : ∀ t, t ∈ seen ∨ t ∈ level → t ∈ unseenTypes seen level ++ seen := by
    rintro t (old | member)
    · exact List.mem_append_right _ old
    · exact List.mem_append.mpr (mem_unseenTypes_or member)
  have follows : ∀ t ∈ unseenTypes seen level ++ seen, ∀ u ∈ oracle.supertypes t,
      u ∈ unseenTypes seen level ++ seen ∨
        u ∈ (unseenTypes seen level).flatMap oracle.supertypes := by
    intro t member u converts
    rcases List.mem_append.mp member with new | old
    · exact .inr (List.mem_flatMap.mpr ⟨t, new, converts⟩)
    · exact .inl (keeps u (searched.followed t old u converts))
  refine ⟨?_, ?_, ?_, follows, ?_⟩
  · intro u member
    obtain ⟨via, new, converts⟩ := List.mem_flatMap.mp member
    exact ⟨via, searched.reached via (mem_of_mem_unseenTypes new), converts⟩
  · intro k before t path
    rcases Nat.lt_succ_iff_lt_or_eq.mp before with nearer | rfl
    · exact keeps t (.inl (searched.nearer k nearer t path))
    · exact keeps t (searched.here t path)
  · rintro u ⟨via, path, converts⟩
    exact follows via (keeps via (searched.here via path)) u converts
  · intro t member
    rcases List.mem_append.mp member with new | old
    · simpa using List.find?_eq_none.mp without t (mem_of_mem_unseenTypes new)
    · exact searched.shapeless t old

/-- Where a level has the shape, what has it there is a nearest type of the shape. -/
theorem nearest (searched : Searched oracle name arity concrete n seen level) {k : Nat}
    (path : oracle.ConvertsIn concrete k t) (shape : t.hasShape name arity = true) : n ≤ k := by
  by_contra nearer
  have shapeless := searched.shapeless t (searched.nearer k (by omega) t path)
  exact Bool.false_ne_true (shapeless.symm.trans shape)

/-- Where a level does not have the shape, it is not had so near. -/
theorem beyond (searched : Searched oracle name arity concrete n seen level)
    (without : level.find? (·.hasShape name arity) = none) {k : Nat}
    (path : oracle.ConvertsIn concrete k t) (shape : t.hasShape name arity = true) : n < k :=
  (searched.next without).nearest path shape

theorem nearestIn (searched : Searched oracle name arity concrete n seen level)
    (here : level.find? (·.hasShape name arity) = some found) :
    oracle.NearestIn name arity concrete n found where
  path := searched.reached found (List.mem_of_find?_eq_some here)
  shape := List.find?_some here
  nearest _ _ := searched.nearest

/-- From a level on, the search finds a nearest type of the shape, or else there is none as far as
it looks. -/
theorem outcome (searched : Searched oracle name arity concrete n seen level) (steps : Nat) :
    match shapeAmong oracle.supertypes name arity steps seen level with
    | some found => ∃ k ≤ n + steps, oracle.NearestIn name arity concrete k found
    | none => ∀ k t, oracle.ConvertsIn concrete k t → t.hasShape name arity = true →
        n + steps < k := by
  induction steps generalizing n seen level with
  | zero =>
    rw [shapeAmong]
    cases here : level.find? (·.hasShape name arity) with
    | some found => exact ⟨n, Nat.le_refl _, searched.nearestIn here⟩
    | none => exact fun _ _ => searched.beyond here
  | succ steps ih =>
    rw [shapeAmong]
    cases here : level.find? (·.hasShape name arity) with
    | some found => exact ⟨n, Nat.le_add_right _ _, searched.nearestIn here⟩
    | none =>
      have later := ih (searched.next here)
      rwa [Nat.add_right_comm, Nat.add_assoc] at later

end Searched

/-- The search for a shape finds a type exactly if a type of the shape is come to by no more
conversions than are followed, and then it finds one that no other is nearer than. -/
theorem TypeOracle.sameShape_exact (oracle : TypeOracle) (name : String) (arity : Nat)
    (concrete : TypeExpr) :
    ((oracle.sameShape name arity concrete).isSome = true ↔ ∃ n ≤ supertypeSteps, ∃ t,
      oracle.ConvertsIn concrete n t ∧ t.hasShape name arity = true) ∧
    ∀ found, oracle.sameShape name arity concrete = some found →
      ∃ n ≤ supertypeSteps, oracle.NearestIn name arity concrete n found := by
  have outcome := (Searched.start oracle name arity concrete).outcome supertypeSteps
  rw [Nat.zero_add] at outcome
  change match oracle.sameShape name arity concrete with | some _ => _ | none => _ at outcome
  cases result : oracle.sameShape name arity concrete with
  | some found =>
    rw [result] at outcome
    obtain ⟨n, bound, near⟩ := outcome
    refine ⟨⟨fun _ => ⟨n, bound, found, near.path, near.shape⟩, fun _ => rfl⟩, ?_⟩
    rintro _ ⟨⟩
    exact ⟨n, bound, near⟩
  | none =>
    rw [result] at outcome
    refine ⟨⟨nofun, ?_⟩, nofun⟩
    rintro ⟨n, bound, t, path, shape⟩
    have beyond : supertypeSteps < n := outcome n t path shape
    omega

/-- Conversions that add an argument each time, so that there is no end to them: what is eight steps
away is found, and what is nine steps away is not. -/
example :
    let oracle := { TypeDatabase.empty.toOracle with
      supertypes := fun t => [.named t.name (.plain "Item" :: t.args)] }
    (oracle.sameShape "Row" 8 (.plain "Row")).isSome = true ∧
      oracle.sameShape "Row" 9 (.plain "Row") = none := by
  decide

end NodeScript
