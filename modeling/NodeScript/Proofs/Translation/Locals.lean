import Mathlib
import NodeScript.Proofs.OrderedMap
import NodeScript.Proofs.Translation.Evaluation

/-!
Locals that the translation makes. Every one gets a name that nothing in the function has yet; what
is bound may be read, and what is bound in a block is forgotten behind it.
-/

namespace NodeScript

theorem natDigits_injective : Function.Injective natDigits := by
  intro a b same
  have value := congrArg (fun digits => Nat.ofDigitChars 10 digits 0) same
  simpa only [natDigits, Nat.ofDigitChars_ten_toDigits] using value

namespace TranslatorState

variable {s : TranslatorState} {name stem : String}

theorem isTaken_iff :
    s.isTaken name = true ↔ name ∈ s.names ∨ name ∈ s.context.fields.map (·.name) := by
  simp [isTaken, TranslationContext.hasField]

/-- Not all names that are tried are taken, for there are more of them. -/
theorem exists_free (s : TranslatorState) (stem : String) :
    ∃ n < s.names.length + s.context.fields.length + 1,
      s.isTaken (stem ++ String.ofList (natDigits n)) = false := by
  by_contra all
  push Not at all
  have numbered : Function.Injective fun n => stem ++ String.ofList (natDigits n) := by
    intro a b same
    have digits := congrArg String.toList same
    simp only [String.toList_append, String.toList_ofList, List.append_cancel_left_eq] at digits
    exact natDigits_injective digits
  have within : (List.range (s.names.length + s.context.fields.length + 1)).map
      (fun n => stem ++ String.ofList (natDigits n)) ⊆ s.names ++ s.context.fields.map (·.name) := by
    intro name tried
    obtain ⟨n, small, rfl⟩ := List.mem_map.mp tried
    have taken := all n (List.mem_range.mp small)
    exact List.mem_append.mpr (isTaken_iff.mp (by simpa using taken))
  have bound := (List.subperm_of_subset (List.nodup_range.map numbered) within).length_le
  simp only [List.length_map, List.length_range, List.length_append] at bound
  omega

theorem freeName_free (s : TranslatorState) (stem : String) :
    s.isTaken (s.freeName stem) = false := by
  unfold freeName
  dsimp only
  cases found : List.find? (fun name => !s.isTaken name)
      ((List.range (s.names.length + s.context.fields.length + 1)).map fun n =>
        stem ++ String.ofList (natDigits n)) with
  | some name => simpa using List.find?_some found
  | none =>
    obtain ⟨n, small, free⟩ := s.exists_free stem
    have taken := List.find?_eq_none.mp found _ (List.mem_map_of_mem (List.mem_range.mpr small))
    simp [free] at taken

/-- What becomes of a state while locals are made: their names, each of them free before, are taken
from then on. -/
structure Grown (s s' : TranslatorState) (made : List String) : Prop where
  names : s'.names = made.reverse ++ s.names
  fields : s'.context.fields = s.context.fields
  nodup : made.Nodup
  free : ∀ name ∈ made, s.isTaken name = false

namespace Grown

variable {s' s'' : TranslatorState} {made made' : List String}

theorem of_same (names : s'.names = s.names) (fields : s'.context.fields = s.context.fields) :
    Grown s s' [] where
  names := names
  fields := fields
  nodup := List.nodup_nil
  free := nofun

theorem isTaken_iff (grown : Grown s s' made) :
    s'.isTaken name = true ↔ name ∈ made ∨ s.isTaken name = true := by
  rw [TranslatorState.isTaken_iff, TranslatorState.isTaken_iff, grown.names, grown.fields]
  simp [or_assoc]

theorem trans (first : Grown s s' made) (next : Grown s' s'' made') :
    Grown s s'' (made ++ made') := by
  have apart : ∀ name ∈ made', name ∉ made ∧ s.isTaken name = false := by
    intro name member
    have free := next.free name member
    rw [← Bool.not_eq_true, first.isTaken_iff, not_or] at free
    exact ⟨free.1, by simpa using free.2⟩
  constructor
  · rw [next.names, first.names, List.reverse_append, List.append_assoc]
  · exact next.fields.trans first.fields
  · refine List.nodup_append.mpr ⟨first.nodup, next.nodup, ?_⟩
    rintro name member _ member' rfl
    exact (apart name member').1 member
  · intro name member
    rcases List.mem_append.mp member with early | late
    · exact first.free name early
    · exact (apart name late).2

end Grown

end TranslatorState

open TranslatorState (Grown)

section Rules

variable {α β : Type} {m : Translate α} {P : Scope → α → List String → Scope → Prop}

/-- A part of the translation adds to the errors at most. Unless it adds any, whatever locals may be
read before it, it makes locals and leaves bound what may be read behind it, as told. -/
def Declares (m : Translate α) (P : Scope → α → List String → Scope → Prop) : Prop :=
  ∀ s, s.context.errors <+: (m.run s).2.context.errors ∧
    ((m.run s).2.context.errors = s.context.errors → ∀ scope, s.bound.entries ⊆ scope →
      ∃ made after, Grown s (m.run s).2 made ∧ (m.run s).2.bound.entries ⊆ after ∧
        P scope (m.run s).1 made after)

namespace Declares

theorem pure {a : α} (holds : ∀ scope, P scope a [] scope) : Declares (pure a) P :=
  fun _ => ⟨List.prefix_rfl, fun _ scope within =>
    ⟨[], scope, .of_same rfl rfl, within, holds scope⟩⟩

theorem bind {f : α → Translate β} {Q : Scope → β → List String → Scope → Prop}
    (first : Declares m P)
    (next : ∀ a, Declares (f a) fun middle b made' after =>
      ∀ {scope made}, P scope a made middle → Q scope b (made ++ made') after) :
    Declares (m >>= f) Q := by
  intro s
  obtain ⟨grows, holds⟩ := first s
  obtain ⟨grows', holds'⟩ := next (m.run s).1 (m.run s).2
  refine ⟨grows.trans grows', fun same scope within => ?_⟩
  -- what stands between two equal lists of errors is equal to both
  have same : ((f (m.run s).1).run (m.run s).2).2.context.errors = s.context.errors := same
  have middle : (m.run s).2.context.errors = s.context.errors :=
    (grows.eq_of_length_le (same ▸ grows'.length_le)).symm
  obtain ⟨made, between, grown, bound, told⟩ := holds middle scope within
  obtain ⟨made', after, grown', bound', told'⟩ :=
    holds' (same.trans middle.symm) between bound
  exact ⟨made ++ made', after, grown.trans grown', bound', told' told⟩

/-- More locals may be said to be readable than are bound. -/
theorem mono {Q : Scope → α → List String → Scope → Prop} (declares : Declares m P)
    (weaker : ∀ {scope a made after}, P scope a made after →
      ∃ larger, after ⊆ larger ∧ Q scope a made larger) : Declares m Q := by
  intro s
  obtain ⟨grows, holds⟩ := declares s
  refine ⟨grows, fun same scope within => ?_⟩
  obtain ⟨made, after, grown, bound, told⟩ := holds same scope within
  obtain ⟨larger, subset, told⟩ := weaker told
  exact ⟨made, larger, grown, List.Subset.trans bound subset, told⟩

theorem reported (e : CompilerError) (a : α) :
    Declares (reportError e >>= fun _ => Pure.pure a) P := by
  refine fun s => ⟨List.prefix_append _ _, fun same => ?_⟩
  have same : s.context.errors ++ [e] = s.context.errors := same
  simp at same

theorem of_evaluates {m : Evaluate α} {ok : Scope → α → Prop}
    (told : ∀ s, Evaluates m s (ok s.bound.entries))
    (larger : ∀ {scope scope' a}, scope ⊆ scope' → ok scope a → ok scope' a) :
    Declares m.run fun scope r made after =>
      made = [] ∧ after = scope ∧ ∀ a, r = .ok a → ok scope a := by
  intro s
  obtain ⟨unchanged, told⟩ := told s
  rw [unchanged]
  refine ⟨List.prefix_rfl, fun _ scope within =>
    ⟨[], scope, .of_same rfl rfl, within, rfl, rfl, fun a success => ?_⟩⟩
  rw [show (m.run.run s).1 = .ok a from success] at told
  exact larger within told

theorem inBlock {body : Translate (List Stmt)}
    {P : Scope → List Stmt → List String → Scope → Prop} (declares : Declares body P) :
    Declares (inBlock body) fun scope stmts made after =>
      after = scope ∧ ∃ inner, P scope stmts made inner := by
  intro s
  obtain ⟨grows, holds⟩ := declares s
  refine ⟨grows, fun same scope within => ?_⟩
  obtain ⟨made, inner, grown, -, told⟩ := holds same scope within
  exact ⟨made, scope, ⟨grown.names, grown.fields, grown.nodup, grown.free⟩, within, rfl, inner, told⟩

end Declares

theorem bindOutput_declares (node : NodeId) (output base : String) :
    Declares (bindOutput node output base) fun scope name made after =>
      made = [name] ∧ after = (⟨node, output⟩, name) :: scope := by
  intro s
  refine ⟨List.prefix_rfl, fun _ scope within => ?_⟩
  have free := s.freeName_free (localStem base)
  refine ⟨[s.freeName (localStem base)], _, ⟨rfl, rfl, List.nodup_singleton _, ?_⟩, ?_, rfl, rfl⟩
  · intro name member
    rwa [List.mem_singleton.mp member]
  · intro entry bound
    rcases OrderedMap.mem_entries_insert.mp bound with rfl | ⟨-, old⟩
    · exact .head _
    · exact .tail _ (within old)

end Rules

end NodeScript
