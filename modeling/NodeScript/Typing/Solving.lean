import NodeScript.Typing.Signature

/-!
Type arguments of a call, solved from the types that flow into its inputs. The first type that a
variable meets is kept; a later one that differs is reported.
-/

namespace NodeScript

/-- Why a type that flows into an input could not be used. -/
inductive SolveError where
  | parameterOutOfRange (index count : Nat)
  /-- The variable stands for another type already. -/
  | conflict (name : String) (existing conflicting : TypeExpr)
  /-- The type has not the shape that the input declares. -/
  | mismatch (declared concrete : TypeExpr)
deriving DecidableEq, Repr

/-- The wording of the error. -/
def SolveError.message : SolveError → String
  | .parameterOutOfRange index count =>
    s!"Parameter index {String.ofList (natDigits index)} out of range "
      ++ s!"({String.ofList (natDigits count)} inputs)"
  | .conflict name existing conflicting =>
    s!"Type variable `{name}` is `{existing.text}`, cannot also be `{conflicting.text}`"
  | .mismatch declared concrete =>
    s!"`{concrete.text}` does not match parameter type `{declared.text}`"

instance : ToString SolveError := ⟨SolveError.message⟩

/-- How many conversions are followed when a shape is looked for. -/
def supertypeSteps : Nat := 8

/-- Whether a type has a name and a number of arguments. -/
def TypeExpr.hasShape (name : String) (arity : Nat) (t : TypeExpr) : Bool :=
  t.name = name && t.args.length = arity

/-- The types of a list that are not among those seen, each once. -/
def unseenTypes (seen : List TypeExpr) : List TypeExpr → List TypeExpr
  | [] => []
  | t :: rest =>
    if seen.contains t then unseenTypes seen rest else t :: unseenTypes (t :: seen) rest

/-- Looks for a shape among the types of a level and then, as long as steps are left, among the
types that they convert to. -/
def shapeAmong (supertypes : TypeExpr → List TypeExpr) (name : String) (arity : Nat) :
    (steps : Nat) → (seen level : List TypeExpr) → Option TypeExpr
  | 0, _, level => level.find? (·.hasShape name arity)
  | steps + 1, seen, level =>
    match level.find? (·.hasShape name arity) with
    | some t => some t
    | none =>
      let fresh := unseenTypes seen level
      shapeAmong supertypes name arity steps (fresh ++ seen) (fresh.flatMap supertypes)

/-- The type itself or the nearest type it converts to with a name and a number of arguments. -/
def TypeOracle.sameShape (oracle : TypeOracle) (name : String) (arity : Nat)
    (concrete : TypeExpr) : Option TypeExpr :=
  shapeAmong oracle.supertypes name arity supertypeSteps [] [concrete]

mutual

/-- Fits a concrete type to a declared one and collects what its variables stand for. -/
def TypeOracle.unify (oracle : TypeOracle) (solved : Bindings) (declared concrete : TypeExpr) :
    Except SolveError Bindings :=
  match declared with
  | .var name =>
    match solved.get? name with
    | some existing =>
      if existing = concrete then .ok solved else .error (.conflict name existing concrete)
    | none => .ok (solved.insert name concrete)
  | .named name args =>
    match oracle.sameShape name args.length concrete with
    | none => .error (.mismatch declared concrete)
    | some fitting => oracle.unifyAll solved args fitting.args

/-- Fits types pairwise. -/
def TypeOracle.unifyAll (oracle : TypeOracle) (solved : Bindings)
    (declared concrete : List TypeExpr) : Except SolveError Bindings :=
  match declared, concrete with
  | d :: ds, c :: cs =>
    match oracle.unify solved d c with
    | .ok more => oracle.unifyAll more ds cs
    | .error e => .error e
  | _, _ => .ok solved

end

/-- What has been solved for a call: its variables, and a handle for each slot. -/
structure Solution where
  bindings : Bindings
  handles : List TypeHandle
deriving DecidableEq, Inhabited

/-- Nothing is solved: every slot has its declared type. -/
def MethodSignature.unsolved (m : MethodSignature) : Solution :=
  ⟨∅, m.slotTypes.map TypeHandle.of⟩

/-- The first of the pairs that contradicts a binding. -/
def firstConflict (bindings : Bindings) (solved : List (String × TypeExpr)) : Option SolveError :=
  solved.findSome? fun (name, t) =>
    match bindings.get? name with
    | some existing => if existing = t then none else some (.conflict name existing t)
    | none => none

/-- Adds the pairs whose variables are not bound. -/
def addNewBindings (bindings : Bindings) (solved : List (String × TypeExpr)) : Bindings :=
  solved.foldl (fun b (name, t) => if b.contains name then b else b.insert name t)
    bindings

/-- The handles of the slots under bindings; a slot without variables keeps its handle. -/
def rewriteHandles (bindings : Bindings) (slots : List TypeExpr) (handles : List TypeHandle) :
    List TypeHandle :=
  match slots, handles with
  | slot :: slots, handle :: handles =>
    (if slot.isOpen then .of (slot.substitute bindings) else handle)
      :: rewriteHandles bindings slots handles
  | _, handles => handles

/-- Solves type variables from a type that flows into an input. An input without variables changes
nothing. On a conflict with an earlier input the first binding is kept, everything else is taken
over, and the conflict is reported. -/
def Solution.step (oracle : TypeOracle) (m : MethodSignature) (s : Solution) (concrete : TypeExpr)
    (index : Nat) : Solution × Except SolveError Unit :=
  match m.inputTypes[index]? with
  | none => (s, .error (.parameterOutOfRange index m.inputTypes.length))
  | some declared =>
    if declared.isOpen then
      match oracle.unify ∅ declared concrete with
      | .error e => (s, .error e)
      | .ok solved =>
        let bindings := addNewBindings s.bindings solved.entries
        (⟨bindings, rewriteHandles bindings m.slotTypes s.handles⟩,
          match firstConflict s.bindings solved.entries with
          | some e => .error e
          | none => .ok ())
    else (s, .ok ())

end NodeScript
