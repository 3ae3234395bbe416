import NodeScript.Graph.Define
import NodeScript.Graph.Basic
import NodeScript.Proofs.OrderedMap

/-!
Supplies of identities. As long as a family lasts, what has been taken from it is not given again.
-/

namespace NodeScript

variable {family : UInt64} {supply supply' supply'' : IdSupply} {u : Uuid} {m n : Nat}

/-- A family numbers its identities without repeating itself. -/
theorem familyIdentity_inj (boundM : m < UInt64.size) (boundN : n < UInt64.size)
    (same : familyIdentity family m = familyIdentity family n) : m = n := by
  have bits : BitVec.ofNat 128 (family.toNat * UInt64.size + m) =
      BitVec.ofNat 128 (family.toNat * UInt64.size + n) := congrArg Uuid.bits same
  have family_lt := family.toNat_lt
  have values := congrArg BitVec.toNat bits
  rw [BitVec.toNat_ofNat, BitVec.toNat_ofNat] at values
  simp only [UInt64.size] at *
  omega

/-- The number of an identity is the one that it has in its family. -/
theorem IdSupply.number?_familyIdentity (bound : n < UInt64.size) :
    IdSupply.number? family (familyIdentity family n) = some n := by
  have family_lt := family.toNat_lt
  have value : (familyIdentity family n).bits.toNat = family.toNat * UInt64.size + n := by
    rw [familyIdentity, BitVec.toNat_ofNat]
    simp only [UInt64.size] at *
    omega
  simp only [IdSupply.number?, value]
  simp only [UInt64.size] at *
  rw [if_pos (by omega)]
  congr 1
  omega

namespace IdSupply

/-- Identities have been taken from a supply, and another is left. -/
structure Extends (supply supply' : IdSupply) : Prop where
  family : supply'.family = supply.family
  next : supply.next ≤ supply'.next

/-- An identity that a supply has still to give. -/
def Holds (supply : IdSupply) (u : Uuid) : Prop :=
  ∃ n, supply.next ≤ n ∧ n < UInt64.size ∧ u = familyIdentity supply.family n

/-- An identity that was taken from one supply until another was left. -/
def Taken (supply supply' : IdSupply) (u : Uuid) : Prop :=
  ∃ n, supply.next ≤ n ∧ n < supply'.next ∧ u = familyIdentity supply.family n

theorem Extends.refl (supply : IdSupply) : supply.Extends supply := ⟨rfl, Nat.le_refl _⟩

theorem Extends.trans (first : supply.Extends supply') (second : supply'.Extends supply'') :
    supply.Extends supply'' :=
  ⟨second.family.trans first.family, Nat.le_trans first.next second.next⟩

theorem extends_fresh (supply : IdSupply) : supply.Extends supply.fresh.2 :=
  ⟨rfl, Nat.le_succ _⟩

theorem Extends.holds (extended : supply.Extends supply') (held : supply'.Holds u) :
    supply.Holds u := by
  obtain ⟨n, later, bound, rfl⟩ := held
  exact ⟨n, Nat.le_trans extended.next later, bound, by rw [extended.family]⟩

theorem Taken.holds (taken : supply.Taken supply' u) (lasts : supply'.next ≤ UInt64.size) :
    supply.Holds u := by
  obtain ⟨n, later, before, same⟩ := taken
  exact ⟨n, later, Nat.lt_of_lt_of_le before lasts, same⟩

theorem Taken.earlier (extended : supply.Extends supply') (taken : supply'.Taken supply'' u) :
    supply.Taken supply'' u := by
  obtain ⟨n, later, before, rfl⟩ := taken
  exact ⟨n, Nat.le_trans extended.next later, before, by rw [extended.family]⟩

theorem Taken.later (extended : supply'.Extends supply'') (taken : supply.Taken supply' u) :
    supply.Taken supply'' u := by
  obtain ⟨n, later, before, same⟩ := taken
  exact ⟨n, later, Nat.lt_of_lt_of_le before extended.next, same⟩

/-- What has been taken is not given again. -/
theorem Taken.not_holds (extended : supply.Extends supply') (lasts : supply'.next ≤ UInt64.size)
    (taken : supply.Taken supply' u) : ¬ supply'.Holds u := by
  rintro ⟨n, later, bound, same⟩
  obtain ⟨m, _, before, same'⟩ := taken
  rw [extended.family, same'] at same
  have := familyIdentity_inj (Nat.lt_of_lt_of_le before lasts) bound same
  omega

theorem taken_fresh (extended : supply.fresh.2.Extends supply') :
    supply.Taken supply' supply.fresh.1 := ⟨supply.next, Nat.le_refl _, extended.next, rfl⟩

theorem realize_extends (spec : PortSpec) (node : NodeId) (former : List Port)
    (supply : IdSupply) : supply.Extends (spec.realize node former supply).2.2 := by
  unfold PortSpec.realize
  split
  · split <;> exact Extends.refl supply
  · exact extends_fresh supply

theorem realizePorts_extends (node : NodeId) (specs : List PortSpec) (former : List Port)
    (supply : IdSupply) : supply.Extends (realizePorts node specs former supply).2.2 := by
  induction specs generalizing former supply with
  | nil => exact Extends.refl supply
  | cons spec rest ih => exact (realize_extends spec node former supply).trans (ih _ _)

theorem lt_foldl_max (numbers : List Nat) (start : Nat) :
    start ≤ numbers.foldl (fun next n => max next (n + 1)) start ∧
      ∀ n ∈ numbers, n < numbers.foldl (fun next n => max next (n + 1)) start := by
  induction numbers generalizing start with
  | nil => simp
  | cons m rest ih =>
    obtain ⟨above, members⟩ := ih (max start (m + 1))
    rw [List.foldl_cons]
    refine ⟨by omega, fun n member => ?_⟩
    rcases List.mem_cons.mp member with rfl | member
    · omega
    · exact members n member

/-- A supply beyond the identities of a list holds none of them. -/
theorem not_holds_beyond {used : List Uuid} (member : u ∈ used) : ¬ (beyond used).Holds u := by
  rintro ⟨n, later, bound, rfl⟩
  have numbered : n ∈ used.filterMap (number? standardFamily) :=
    List.mem_filterMap.mpr ⟨_, member, number?_familyIdentity bound⟩
  exact absurd later (Nat.not_le.mpr ((lt_foldl_max _ 0).2 n numbered))

end IdSupply

end NodeScript
