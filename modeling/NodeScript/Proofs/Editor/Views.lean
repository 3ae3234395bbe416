import Mathlib.Data.List.Perm.Subperm
import Mathlib.Logic.Relation
import NodeScript.Editor.Reconcile
import NodeScript.Editor.View
import NodeScript.Proofs.OrderedMap

/-!
What elements of a view are shown in, however deep, and what goes with what. Of all that is no
longer in the graph, what is shown in nothing else of it is taken out one by one. Taking an element
out takes out what is shown in it, however deep, and nothing else, even where what the elements say
that they are shown in goes round in a ring or is not in the view at all; and in views in which nothing
is shown deeper than in something that stands on its own, it takes out what is shown in it directly.
-/

namespace NodeScript

namespace View

variable {g : Graph} {v : View} {e p : ElementRef} {set : OrderedSet ElementRef} {steps : Nat}

/-- An element is shown in another. -/
def Inside (v : View) (e p : ElementRef) : Prop :=
  ∃ visual, v.get? e = some visual ∧ visual.parent = some p

/-- An element is shown, but no longer in the graph. -/
def Stale (v : View) (g : Graph) (e : ElementRef) : Prop :=
  (∃ visual, v.get? e = some visual) ∧ e.existsIn g = false

section Within

theorem inside_iff : v.Inside e p ↔ (v.get? e).bind Visual.parent = some p :=
  Option.bind_eq_some_iff.symm

theorem isWithin_step (inside : v.Inside e p) :
    v.isWithin set (steps + 1) e = (set.contains p || v.isWithin set steps p) := by
  rw [isWithin, inside_iff.mp inside]

theorem exists_inside (within : v.isWithin set (steps + 1) e = true) : ∃ p, v.Inside e p := by
  cases shown : (v.get? e).bind Visual.parent with
  | none => simp [isWithin, shown] at within
  | some p => exact ⟨p, inside_iff.mpr shown⟩

theorem isWithin_mono {more : Nat} (enough : steps ≤ more) (within : v.isWithin set steps e = true) :
    v.isWithin set more e = true := by
  induction steps generalizing e more with
  | zero => simp [isWithin] at within
  | succ steps ih =>
    obtain ⟨more, rfl⟩ := Nat.exists_eq_succ_of_ne_zero (by omega : more ≠ 0)
    obtain ⟨p, inside⟩ := exists_inside within
    rw [isWithin_step inside, Bool.or_eq_true] at within ⊢
    exact within.imp_right (ih (by omega))

theorem exists_of_isWithin (within : v.isWithin set steps e = true) :
    ∃ outer ∈ set.keys, Relation.TransGen v.Inside e outer := by
  induction steps generalizing e with
  | zero => simp [isWithin] at within
  | succ steps ih =>
    obtain ⟨p, inside⟩ := exists_inside within
    rw [isWithin_step inside, Bool.or_eq_true, OrderedMap.contains_eq_true_iff] at within
    rcases within with here | further
    · exact ⟨p, here, .single inside⟩
    · obtain ⟨outer, member, path⟩ := ih further
      exact ⟨outer, member, .head inside path⟩

/-- Where the way out to a set takes a number of steps and no fewer, it passes as many elements that
are shown, and none of them twice. -/
theorem exists_passed (within : v.isWithin set (steps + 1) e = true)
    (least : v.isWithin set steps e = false) :
    ∃ passed : List ElementRef, passed.Nodup ∧ passed ⊆ v.visuals.keys ∧ passed.length = steps + 1 ∧
      ∀ x ∈ passed, v.isWithin set (steps + 1) x = true := by
  induction steps generalizing e with
  | zero =>
    obtain ⟨p, visual, found, -⟩ := exists_inside within
    have member : e ∈ v.visuals.keys := OrderedMap.mem_keys_of_get? found
    exact ⟨[e], by simp, by simpa using member, rfl, by simpa using within⟩
  | succ steps ih =>
    obtain ⟨p, inside⟩ := exists_inside within
    have ⟨_, found, _⟩ := inside
    have outward := within
    rw [isWithin_step inside, Bool.or_eq_true] at outward
    rw [isWithin_step inside, Bool.or_eq_false_iff] at least
    have further : v.isWithin set (steps + 1) p = true := outward.resolve_left (by simp [least.1])
    obtain ⟨passed, nodup, shown, length, near⟩ := ih further least.2
    -- what is passed later is nearer to the set, so the way does not come back
    have new : e ∉ passed := by
      intro again
      have early := near e again
      rw [isWithin_step inside, Bool.or_eq_true] at early
      simp [least.1, least.2] at early
    refine ⟨e :: passed, List.nodup_cons.mpr ⟨new, nodup⟩, ?_, by simp [length], ?_⟩
    · exact List.cons_subset.mpr ⟨OrderedMap.mem_keys_of_get? found, shown⟩
    · intro x member
      rcases List.mem_cons.mp member with rfl | later
      · exact within
      · exact isWithin_mono (Nat.le_succ _) (near x later)

/-- As many steps as there are elements are enough to come out to a set. -/
theorem isWithin_enough (within : v.isWithin set steps e = true) :
    v.isWithin set (v.visuals.size + 1) e = true := by
  induction steps with
  | zero => simp [isWithin] at within
  | succ steps ih =>
    cases least : v.isWithin set steps e with
    | true => exact ih least
    | false =>
      obtain ⟨passed, nodup, shown, length, -⟩ := exists_passed within least
      have bound : passed.length ≤ v.visuals.keys.length :=
        (List.subperm_of_subset nodup shown).length_le
      rw [OrderedMap.length_keys] at bound
      exact isWithin_mono (by omega) within

theorem isWithin_iff_exists : v.isWithin set (v.visuals.size + 1) e = true ↔
    ∃ outer ∈ set.keys, Relation.TransGen v.Inside e outer := by
  refine ⟨exists_of_isWithin, ?_⟩
  rintro ⟨outer, member, path⟩
  suffices reached : ∃ steps, v.isWithin set steps e = true from isWithin_enough reached.choose_spec
  induction path using Relation.TransGen.head_induction_on with
  | single inside =>
    refine ⟨1, ?_⟩
    rw [isWithin_step inside, Bool.or_eq_true]
    exact .inl (OrderedMap.contains_eq_true_iff.mpr member)
  | head inside _ ih =>
    obtain ⟨steps, within⟩ := ih
    refine ⟨steps + 1, ?_⟩
    rw [isWithin_step inside, within, Bool.or_true]

end Within

theorem mem_staleElements : e ∈ (v.staleElements g).keys ↔ v.Stale g e := by
  rw [staleElements, OrderedSet.mem_ofMembers, List.mem_filter, ← OrderedMap.isSome_get?_iff,
    Option.isSome_iff_exists, Bool.not_eq_eq_eq_not, Bool.not_true]
  rfl

/-- What is taken out one by one is what is stale and shown in nothing that is stale. -/
theorem mem_removals : e ∈ (v.removals g).keys ↔
    v.Stale g e ∧ ∀ outer, Relation.TransGen v.Inside e outer → ¬ v.Stale g outer := by
  have alone : v.isWithin (v.staleElements g) (v.visuals.size + 1) e = false ↔
      ∀ outer, Relation.TransGen v.Inside e outer → ¬ v.Stale g outer := by
    rw [← Bool.not_eq_true, isWithin_iff_exists]
    simp only [mem_staleElements, not_exists, not_and]
    exact forall_congr' fun outer => imp_not_comm
  rw [removals, ← OrderedMap.isSome_get?_iff, OrderedMap.get?_filter, ← mem_staleElements, ← alone,
    Option.isSome_iff_exists]
  constructor
  · rintro ⟨held, kept⟩
    obtain ⟨found, apart⟩ := Option.filter_eq_some_iff.mp kept
    exact ⟨OrderedMap.mem_keys_of_get? found, by simpa using apart⟩
  · rintro ⟨stale, apart⟩
    obtain ⟨held, found⟩ := OrderedMap.exists_get?_of_mem_keys stale
    exact ⟨held, Option.filter_eq_some_iff.mpr ⟨found, by simpa using apart⟩⟩

end View

namespace View

open Relation

variable {v : View} {visuals : OrderedMap ElementRef Visual} {keep : ElementRef → Visual → Bool}
  {e p target : ElementRef}

/-- An element of a table is shown in another one, which need not be in the table. -/
def ShownIn (visuals : OrderedMap ElementRef Visual) (e p : ElementRef) : Prop :=
  ∃ visual, visuals.get? e = some visual ∧ visual.parent = some p

theorem mem_childrenOf :
    e ∈ childrenOf visuals p ↔ ∃ visual, visuals.get? e = some visual ∧ visual.parent = some p := by
  simp only [childrenOf, List.mem_map, List.mem_filter, decide_eq_true_eq]
  constructor
  · rintro ⟨⟨e, visual⟩, ⟨member, inside⟩, rfl⟩
    exact ⟨visual, OrderedMap.get?_eq_some_iff.mpr member, inside⟩
  · rintro ⟨visual, found, inside⟩
    exact ⟨(e, visual), ⟨OrderedMap.get?_eq_some_iff.mp found, inside⟩, rfl⟩

theorem shownIn_of_mem {x : ElementRef × Visual} (member : x ∈ visuals.entries) :
    ShownIn visuals x.1 p ↔ x.2.parent = some p := by
  simp [ShownIn, OrderedMap.get?_eq_some_iff.mpr member]

/-! ### Ways outwards in what a filter leaves -/

theorem ShownIn.of_filter (shown : ShownIn (visuals.filter keep) e p) : ShownIn visuals e p := by
  obtain ⟨visual, found, inside⟩ := shown
  rw [OrderedMap.get?_filter, Option.filter_eq_some_iff] at found
  exact ⟨visual, found.1, inside⟩

theorem outwards_of_filter (way : TransGen (ShownIn (visuals.filter keep)) e target) :
    TransGen (ShownIn visuals) e target :=
  TransGen.mono (fun _ _ => ShownIn.of_filter) _ _ way

/-- What a filter leaves out is shown, but does not pass the test. -/
def Dropped (visuals : OrderedMap ElementRef Visual) (keep : ElementRef → Visual → Bool)
    (e : ElementRef) : Prop :=
  ∃ visual, visuals.get? e = some visual ∧ keep e visual = false

theorem ShownIn.filter_or_dropped (shown : ShownIn visuals e p) :
    ShownIn (visuals.filter keep) e p ∨ Dropped visuals keep e := by
  obtain ⟨visual, found, inside⟩ := shown
  cases kept : keep e visual with
  | true =>
    refine .inl ⟨visual, ?_, inside⟩
    rw [OrderedMap.get?_filter, Option.filter_eq_some_iff]
    exact ⟨found, kept⟩
  | false => exact .inr ⟨visual, found, kept⟩

/-- A way outwards is still there where a filter leaves something out, unless it passes what is left
out, and then it is there up to that. -/
theorem outwards_or_dropped (keep : ElementRef → Visual → Bool)
    (way : TransGen (ShownIn visuals) e target) :
    TransGen (ShownIn (visuals.filter keep)) e target ∨
      ∃ x, ReflTransGen (ShownIn (visuals.filter keep)) e x ∧ Dropped visuals keep x := by
  induction way using TransGen.head_induction_on with
  | single shown => exact shown.filter_or_dropped.imp .single fun dropped => ⟨_, .refl, dropped⟩
  | head shown _ ih =>
    rcases shown.filter_or_dropped with left | dropped
    · exact ih.imp (.head left) fun ⟨x, way, dropped⟩ => ⟨x, way.head left, dropped⟩
    · exact .inr ⟨_, .refl, dropped⟩

/-! ### What goes with what is gone -/

/-- An element goes with some that are gone if it is shown in one of them, however deep. -/
def GoesWith (visuals : OrderedMap ElementRef Visual) (doomed : List ElementRef) (e : ElementRef) :
    Prop :=
  ∃ gone ∈ doomed, TransGen (ShownIn visuals) e gone

/-- What goes with some elements is what is shown in the first of them itself, and what goes, in the
rest of the table, with the others and with that. -/
theorem goesWith_cons (visuals : OrderedMap ElementRef Visual) (gone : ElementRef)
    (rest : List ElementRef) : GoesWith visuals (gone :: rest) e ↔
    ShownIn visuals e gone ∨ GoesWith (visuals.filter fun _ visual => !(visual.parent = some gone))
      (rest ++ childrenOf visuals gone) e := by
  constructor
  · rintro ⟨target, member, way⟩
    rcases outwards_or_dropped (fun _ visual => !(visual.parent = some gone)) way with
      left | ⟨x, way, visual, found, dropped⟩
    · rcases List.mem_cons.mp member with rfl | later
      · -- nothing is left that is shown in the first one
        obtain ⟨x, -, visual, found, inside⟩ := TransGen.tail'_iff.mp left
        rw [OrderedMap.get?_filter, Option.filter_eq_some_iff] at found
        simp [inside] at found
      · exact .inr ⟨target, List.mem_append_left _ later, left⟩
    · have child : ShownIn visuals x gone := ⟨visual, found, by simpa using dropped⟩
      rcases Relation.reflTransGen_iff_eq_or_transGen.mp way with rfl | way
      · exact .inl child
      · exact .inr ⟨x, List.mem_append_right _ (mem_childrenOf.mpr child), way⟩
  · rintro (shown | ⟨target, member, way⟩)
    · exact ⟨gone, .head _, .single shown⟩
    · have way := outwards_of_filter way
      rcases List.mem_append.mp member with later | child
      · exact ⟨target, .tail _ later, way⟩
      · exact ⟨gone, .head _, way.tail (mem_childrenOf.mp child)⟩

open Classical in
/-- What is taken out with some elements that are gone is what goes with them. -/
theorem clearBelow_eq_filter (visuals : OrderedMap ElementRef Visual) (doomed : List ElementRef) :
    clearBelow visuals doomed = visuals.filter fun e _ => decide (¬ GoesWith visuals doomed e) := by
  fun_induction clearBelow visuals doomed with
  | case1 visuals => exact (OrderedMap.filter_eq_self fun e _ => by simp [GoesWith]).symm
  | case2 visuals gone rest ih =>
    rw [ih, OrderedMap.filter_filter]
    refine OrderedMap.ext (List.filter_congr fun x member => ?_)
    simp [goesWith_cons visuals gone rest, shownIn_of_mem member]

/-- An element that is taken out first does not bar the ways to it. -/
theorem outwards_erase (away : e ≠ target) :
    TransGen (ShownIn (visuals.erase target)) e target ↔ TransGen (ShownIn visuals) e target := by
  refine ⟨outwards_of_filter, fun way => ?_⟩
  rcases outwards_or_dropped (fun x _ => x ≠ target) way with left | ⟨x, way, _, _, dropped⟩
  · exact left
  · obtain rfl : x = target := by simpa using dropped
    exact (Relation.reflTransGen_iff_eq_or_transGen.mp way).resolve_left away.symm

open Classical in
/-- What stays where an element is taken out is what is not shown in it, however deep. -/
theorem remove_visuals_eq_filter (shown : v.shows e = true) : (v.remove e).2.visuals =
    v.visuals.filter fun x _ => decide (¬ ReflTransGen v.Inside x e) := by
  rw [remove, if_pos shown, clearBelow_eq_filter, OrderedMap.erase, OrderedMap.filter_filter]
  refine OrderedMap.ext (List.filter_congr fun x _ => ?_)
  by_cases same : x.1 = e
  · simp [same, ReflTransGen.refl]
  · have goes : GoesWith (v.visuals.erase e) [e] x.1 ↔ ReflTransGen v.Inside x.1 e := by
      rw [GoesWith, Relation.reflTransGen_iff_eq_or_transGen, or_iff_right (Ne.symm same)]
      simp only [List.mem_singleton, exists_eq_left]
      exact outwards_erase same
    simp [same, ← goes, OrderedMap.erase]

/-- Taking out an element always comes to an end, whatever the elements are shown in. If the element is
not shown, this is said and nothing changes. Else this is said, what is taken out is the element and
all that is shown in it, however deep, everything else stays as it was, in its order, and one removal
is noted. -/
theorem remove_exact (v : View) (e : ElementRef) :
    (v.get? e = none → v.remove e = (false, v)) ∧
    (∀ visual, v.get? e = some visual → (v.remove e).1 = true ∧
      (∃ stays : ElementRef → Bool, (∀ x, stays x = true ↔ ¬ ReflTransGen v.Inside x e) ∧
        (v.remove e).2.visuals = v.visuals.filter fun x _ => stays x) ∧
      (v.remove e).2.operations = v.operations ++ [.remove e]) := by
  constructor
  · intro absent
    have hidden : v.shows e = false :=
      OrderedMap.contains_eq_false_iff.mpr (OrderedMap.get?_eq_none_iff.mp absent)
    rw [remove, if_neg (by simp [hidden])]
  · intro visual found
    have shown : v.shows e = true :=
      OrderedMap.contains_eq_true_iff.mpr (OrderedMap.mem_keys_of_get? found)
    classical
    refine ⟨?_, ⟨_, fun x => decide_eq_true_iff, remove_visuals_eq_filter shown⟩, ?_⟩
    · rw [remove, if_pos shown]
    · rw [remove, if_pos shown]

/-- Two elements that are shown in each other are taken out together, with what is shown in one of
them; what is shown in something that is not there stays, and that cannot be taken out. -/
theorem remove_exact_ring :
    let node (n : Nat) : ElementRef := .node ⟨⟨BitVec.ofNat 128 n⟩⟩
    let shown (p : Option ElementRef) : Visual := ⟨⟨"stack", "Stack"⟩, p⟩
    let v : View := ⟨.ofList [(node 3, shown (node 2)), (node 1, shown (node 2)),
      (node 4, shown (node 9)), (node 2, shown (node 1)), (node 5, shown none)], []⟩
    (v.remove (node 1)).1 = true ∧ (v.remove (node 1)).2.visuals.keys = [node 4, node 5] ∧
      (v.remove (node 1)).2.operations = [.remove (node 1)] ∧ v.remove (node 9) = (false, v) := by
  intro node shown v
  have found : v.get? (node 1) = some (shown (node 2)) := by decide +kernel
  have absent : v.get? (node 9) = none := by decide +kernel
  obtain ⟨-, there⟩ := remove_exact v (node 1)
  obtain ⟨said, -, noted⟩ := there _ found
  exact ⟨said, by decide +kernel, noted, (remove_exact v (node 9)).1 absent⟩

end View

namespace View

variable {v : View} {e e' p : ElementRef} {visual : Visual}

/-- What an element is shown in is shown too, and stands on its own. -/
def Framed (v : View) : Prop :=
  ∀ {e visual p}, v.get? e = some visual → visual.parent = some p →
    ∃ outer, v.get? p = some outer ∧ outer.parent = none

/-- Whether an element stays when another one is taken out. -/
def staysBeside (gone : ElementRef) (e : ElementRef) (visual : Visual) : Bool :=
  e ≠ gone && visual.parent ≠ some gone

theorem get?_of_mem {x : ElementRef × Visual} (member : x ∈ v.visuals.entries) :
    v.get? x.1 = some x.2 := OrderedMap.get?_eq_some_iff.mpr member

/-- Nothing is shown deeper than in something that stands on its own. -/
theorem Framed.outwards_iff (framed : v.Framed) :
    Relation.ReflTransGen v.Inside e p ↔ e = p ∨ v.Inside e p := by
  constructor
  · intro way
    rcases way.cases_head with same | ⟨between, ⟨visual, found, inside⟩, further⟩
    · exact .inl same
    · rcases further.cases_head with rfl | ⟨_, ⟨outer, foundOuter, deeper⟩, -⟩
      · exact .inr ⟨visual, found, inside⟩
      · obtain ⟨free, foundFree, alone⟩ := framed found inside
        obtain rfl := Option.some.inj (foundFree.symm.trans foundOuter)
        exact nomatch alone.symm.trans deeper
  · rintro (rfl | inside)
    · exact .refl
    · exact .single inside

theorem remove_visuals (framed : v.Framed) (gone : ElementRef) :
    (v.remove gone).2.visuals = v.visuals.filter (staysBeside gone) := by
  cases shown : v.shows gone with
  | true =>
    rw [remove_visuals_eq_filter shown]
    refine OrderedMap.ext (List.filter_congr fun x member => ?_)
    have inside : v.Inside x.1 gone ↔ x.2.parent = some gone := shownIn_of_mem member
    simp [framed.outwards_iff, inside, staysBeside]
  | false =>
    have hidden : gone ∉ v.visuals.keys := OrderedMap.contains_eq_false_iff.mp shown
    rw [remove, if_neg (by simp [shown])]
    refine OrderedMap.ext (List.filter_eq_self.mpr fun x member => ?_).symm
    have other : x.1 ≠ gone := by
      rintro rfl
      exact hidden (List.mem_map_of_mem (f := Prod.fst) member)
    have outside : x.2.parent ≠ some gone := by
      intro inside
      obtain ⟨outer, found, _⟩ := framed (get?_of_mem member) inside
      exact hidden (OrderedMap.mem_keys_of_get? found)
    simp [staysBeside, other, outside]

theorem get?_remove (framed : v.Framed) (gone e : ElementRef) :
    (v.remove gone).2.get? e = (v.get? e).filter (staysBeside gone e) := by
  rw [get?, remove_visuals framed, OrderedMap.get?_filter, get?]

theorem Framed.remove (framed : v.Framed) (gone : ElementRef) : (v.remove gone).2.Framed := by
  intro e visual p found inside
  rw [get?_remove framed, Option.filter_eq_some_iff] at found
  obtain ⟨outer, foundOuter, alone⟩ := framed found.1 inside
  refine ⟨outer, ?_, alone⟩
  have away : p ≠ gone := by
    rintro rfl
    simp [staysBeside, inside] at found
  rw [get?_remove framed, Option.filter_eq_some_iff]
  exact ⟨foundOuter, by simp [staysBeside, away, alone]⟩

theorem childrenOf_filter {visuals : OrderedMap ElementRef Visual}
    {keep : ElementRef → Visual → Bool} :
    childrenOf (visuals.filter keep) p =
      ((visuals.entries.filter fun x => x.2.parent = some p ∧ keep x.1 x.2).map Prod.fst) := by
  simp only [childrenOf, OrderedMap.filter, List.filter_filter]
  congr 1
  refine List.filter_congr fun x _ => ?_
  simp [Bool.decide_and]

/-- What is left in the other elements, where the element itself was shown in none of them. -/
theorem childrenOf_remove (framed : v.Framed) {gone : ElementRef} (other : p ≠ gone)
    (alone : ∀ {visual}, v.get? gone = some visual → visual.parent ≠ some p) :
    childrenOf (v.remove gone).2.visuals p = childrenOf v.visuals p := by
  rw [remove_visuals framed, childrenOf_filter, childrenOf]
  congr 1
  refine List.filter_congr fun x member => ?_
  by_cases inside : x.2.parent = some p
  · have away : x.1 ≠ gone := by
      rintro rfl
      exact alone (get?_of_mem member) inside
    simp [inside, staysBeside, away, other]
  · simp [inside]

theorem childrenOf_remove_self (framed : v.Framed) (gone : ElementRef) :
    childrenOf (v.remove gone).2.visuals gone = [] := by
  refine List.eq_nil_iff_forall_not_mem.mpr fun e inside => ?_
  obtain ⟨visual, found, within⟩ := mem_childrenOf.mp inside
  rw [remove_visuals framed, OrderedMap.get?_filter, Option.filter_eq_some_iff] at found
  simp [staysBeside, within] at found

theorem get?_add : (v.add e visual).get? e' = if e' = e then some visual else v.get? e' :=
  OrderedMap.get?_insert

/-- An element that was not shown comes last in what it is shown in. -/
theorem childrenOf_add (hidden : v.get? e = none) (visual : Visual) (p : ElementRef) :
    childrenOf (v.add e visual).visuals p =
      childrenOf v.visuals p ++ if visual.parent = some p then [e] else [] := by
  have absent : v.visuals.contains e = false :=
    OrderedMap.contains_eq_false_iff.mpr (OrderedMap.get?_eq_none_iff.mp hidden)
  rw [add, childrenOf, OrderedMap.insert_of_not_contains absent, List.filter_append,
    List.map_append, childrenOf]
  congr 1
  by_cases inside : visual.parent = some p <;> simp [inside]

end View

end NodeScript
