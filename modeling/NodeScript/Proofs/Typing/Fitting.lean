import NodeScript.Proofs.OrderedMap
import NodeScript.Typing.Solving

/-!
What it means that a type fits a declared one. A variable is fitted by the type that it stands for
and by no other; a name with arguments is fitted by every type that converts, within the bound on
conversions, to a type of that name whose arguments fit one by one. Unification finds bindings under
which the types fit, and they go on to fit under whatever is bound besides.
-/

namespace NodeScript

/-- The types that a type converts to in a number of steps. -/
def TypeOracle.ConvertsIn (oracle : TypeOracle) (t : TypeExpr) : Nat → TypeExpr → Prop
  | 0, u => u = t
  | n + 1, u => ∃ via, oracle.ConvertsIn t n via ∧ u ∈ oracle.supertypes via

mutual

/-- A type fits a declared one under bindings. -/
def TypeExpr.Fits (oracle : TypeOracle) (bindings : Bindings) :
    (declared concrete : TypeExpr) → Prop
  | .var name, concrete => bindings.get? name = some concrete
  | .named name args, concrete =>
    ∃ n ≤ supertypeSteps, ∃ fitting, oracle.ConvertsIn concrete n fitting ∧
      fitting.hasShape name args.length = true ∧
      TypeExpr.FitsAll oracle bindings args fitting.args

/-- Types fit declared ones pairwise, and there are as many of them. -/
def TypeExpr.FitsAll (oracle : TypeOracle) (bindings : Bindings) :
    (declared concrete : List TypeExpr) → Prop
  | [], [] => True
  | d :: ds, c :: cs => TypeExpr.Fits oracle bindings d c ∧ TypeExpr.FitsAll oracle bindings ds cs
  | _, _ => False

end

variable {oracle : TypeOracle} {bindings solved more : Bindings}

/-! ### Variables and substitution -/

mutual

theorem TypeExpr.substitute_empty : (t : TypeExpr) → t.substitute ∅ = t
  | .var _ => rfl
  | .named name args => by rw [TypeExpr.substitute, TypeExpr.substituteAll_empty args]

theorem TypeExpr.substituteAll_empty : (ts : List TypeExpr) → TypeExpr.substituteAll ∅ ts = ts
  | [] => rfl
  | t :: rest => by
    rw [TypeExpr.substituteAll, TypeExpr.substitute_empty t, TypeExpr.substituteAll_empty rest]

end

mutual

theorem TypeExpr.substitute_of_closed :
    (t : TypeExpr) → t.isOpen = false → t.substitute bindings = t
  | .var _, closed => by simp [TypeExpr.isOpen] at closed
  | .named name args, closed => by
    rw [TypeExpr.substitute, TypeExpr.substituteAll_of_closed args closed]

theorem TypeExpr.substituteAll_of_closed :
    (ts : List TypeExpr) → TypeExpr.anyOpen ts = false → TypeExpr.substituteAll bindings ts = ts
  | [], _ => rfl
  | t :: rest, closed => by
    obtain ⟨first, others⟩ := Bool.or_eq_false_iff.mp closed
    rw [TypeExpr.substituteAll, TypeExpr.substitute_of_closed t first,
      TypeExpr.substituteAll_of_closed rest others]

end

mutual

/-- What fits a type binds the variables that the type adds to those collected before. -/
theorem TypeExpr.Fits.collected {found : List String} {v : String} : (declared concrete : TypeExpr) →
    declared.Fits oracle bindings concrete → v ∈ declared.collectVars found →
    v ∈ found ∨ v ∈ bindings.keys
  | .var name, concrete, bound, member => by
    rw [TypeExpr.collectVars, addName] at member
    split at member
    · exact .inl member
    · rcases List.mem_append.mp member with before | last
      · exact .inl before
      · rw [List.mem_singleton.mp last]
        exact .inr (OrderedMap.mem_keys_of_get? bound)
  | .named name args, concrete, fits, member => by
    obtain ⟨_, _, fitting, _, _, pairwise⟩ := fits
    exact TypeExpr.FitsAll.collected args fitting.args pairwise member

theorem TypeExpr.FitsAll.collected {found : List String} {v : String} :
    (declared concrete : List TypeExpr) → TypeExpr.FitsAll oracle bindings declared concrete →
    v ∈ TypeExpr.collectVarsAll found declared → v ∈ found ∨ v ∈ bindings.keys
  | [], _, _, member => .inl member
  | d :: ds, c :: cs, ⟨first, others⟩, member => by
    rcases TypeExpr.FitsAll.collected ds cs others member with before | bound
    · exact TypeExpr.Fits.collected d c first before
    · exact .inr bound

end

theorem TypeExpr.Fits.bound {declared concrete : TypeExpr} {v : String}
    (fits : declared.Fits oracle bindings concrete) (occurs : v ∈ declared.vars) :
    v ∈ bindings.keys :=
  (TypeExpr.Fits.collected declared concrete fits occurs).resolve_left List.not_mem_nil

/-! ### The search for a shape -/

theorem mem_of_mem_unseenTypes {seen level : List TypeExpr} {t : TypeExpr}
    (unseen : t ∈ unseenTypes seen level) : t ∈ level := by
  induction level generalizing seen with
  | nil => exact unseen
  | cons first rest ih =>
    rw [unseenTypes] at unseen
    split at unseen
    · exact .tail _ (ih unseen)
    · rcases List.mem_cons.mp unseen with rfl | later
      · exact .head _
      · exact .tail _ (ih later)

/-- The search finds a type of the shape, and it has followed no more conversions than it had left.
-/
theorem shapeAmong_spec {concrete found : TypeExpr} {name : String} {arity : Nat} {steps n : Nat}
    {seen level : List TypeExpr} (reached : ∀ t ∈ level, oracle.ConvertsIn concrete n t)
    (result : shapeAmong oracle.supertypes name arity steps seen level = some found) :
    ∃ k ≤ n + steps, oracle.ConvertsIn concrete k found ∧ found.hasShape name arity = true := by
  induction steps generalizing n seen level with
  | zero =>
    rw [shapeAmong] at result
    exact ⟨n, Nat.le_refl _, reached found (List.mem_of_find?_eq_some result),
      List.find?_some result⟩
  | succ steps ih =>
    rw [shapeAmong] at result
    split at result
    · rename_i here
      obtain rfl := Option.some.inj result
      exact ⟨n, by omega, reached _ (List.mem_of_find?_eq_some here), List.find?_some here⟩
    · have next : ∀ t ∈ (unseenTypes seen level).flatMap oracle.supertypes,
          oracle.ConvertsIn concrete (n + 1) t := by
        intro t member
        obtain ⟨via, unseen, converts⟩ := List.mem_flatMap.mp member
        exact ⟨via, reached via (mem_of_mem_unseenTypes unseen), converts⟩
      obtain ⟨k, bound, path, shape⟩ := ih next result
      exact ⟨k, by omega, path, shape⟩

theorem TypeOracle.sameShape_spec {concrete found : TypeExpr} {name : String} {arity : Nat}
    (result : oracle.sameShape name arity concrete = some found) :
    ∃ n ≤ supertypeSteps, oracle.ConvertsIn concrete n found ∧ found.hasShape name arity = true := by
  have start : ∀ t ∈ [concrete], oracle.ConvertsIn concrete 0 t := by
    intro t member
    exact List.mem_singleton.mp member
  simpa only [Nat.zero_add] using shapeAmong_spec start result

theorem TypeExpr.length_args_of_hasShape {t : TypeExpr} {name : String} {arity : Nat}
    (shape : t.hasShape name arity = true) : t.args.length = arity := by
  simp only [TypeExpr.hasShape, Bool.and_eq_true, decide_eq_true_eq] at shape
  exact shape.2

/-! ### Unification -/

mutual

/-- Unification keeps what was bound, and under its result the types fit. They fit under larger
bindings as well, so that the arguments which were unified first still fit in the end. -/
theorem TypeOracle.unify_fits : (declared concrete : TypeExpr) → {solved more : Bindings} →
    oracle.unify solved declared concrete = .ok more →
    solved.Within more ∧
      ∀ larger : Bindings, more.Within larger → declared.Fits oracle larger concrete
  | .var name, concrete, solved, more, unified => by
    rw [TypeOracle.unify] at unified
    split at unified
    · rename_i existing held
      split at unified
      · rename_i same
        obtain rfl := Except.ok.inj unified
        exact ⟨OrderedMap.Within.refl, fun larger within => within (same ▸ held)⟩
      · exact nomatch unified
    · rename_i unbound
      obtain rfl := Except.ok.inj unified
      refine ⟨fun {k v} held => ?_, fun larger within => within OrderedMap.get?_insert_self⟩
      have other : k ≠ name := by
        rintro rfl
        exact Option.some_ne_none v (held.symm.trans unbound)
      rw [OrderedMap.get?_insert_of_ne other]
      exact held
  | .named name args, concrete, solved, more, unified => by
    rw [TypeOracle.unify] at unified
    split at unified
    · exact nomatch unified
    · rename_i fitting found
      obtain ⟨n, bound, path, shape⟩ := TypeOracle.sameShape_spec found
      obtain ⟨kept, fits⟩ := TypeOracle.unifyAll_fits args fitting.args
        (TypeExpr.length_args_of_hasShape shape).symm unified
      exact ⟨kept, fun larger within => ⟨n, bound, fitting, path, shape, fits larger within⟩⟩

theorem TypeOracle.unifyAll_fits : (declared concrete : List TypeExpr) →
    declared.length = concrete.length → {solved more : Bindings} →
    oracle.unifyAll solved declared concrete = .ok more →
    solved.Within more ∧
      ∀ larger : Bindings, more.Within larger →
        TypeExpr.FitsAll oracle larger declared concrete
  | [], [], _, solved, more, unified => by
    rw [TypeOracle.unifyAll] at unified
    · obtain rfl := Except.ok.inj unified
      exact ⟨OrderedMap.Within.refl, fun _ _ => trivial⟩
    · exact fun _ _ _ _ empty => nomatch empty
  | d :: ds, c :: cs, sameLength, solved, more, unified => by
    rw [TypeOracle.unifyAll] at unified
    split at unified
    · rename_i between first
      obtain ⟨kept, fits⟩ := TypeOracle.unify_fits d c first
      obtain ⟨keptOn, fitsOn⟩ := TypeOracle.unifyAll_fits ds cs (Nat.succ.inj sameLength) unified
      exact ⟨kept.trans keptOn,
        fun larger within => ⟨fits larger (keptOn.trans within), fitsOn larger within⟩⟩
    · exact nomatch unified

end

end NodeScript
