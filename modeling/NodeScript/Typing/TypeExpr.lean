import NodeScript.OrderedMap

/-!
Types of scripts: a name with arguments, or a type variable. Arrays are types of the reserved name
`Array` with one argument. Variables are bound from bare names, listed in order of first occurrence,
and replaced by substitution.
-/

namespace NodeScript

/-- A type: a name with its arguments, or a type variable. -/
inductive TypeExpr where
  | named (name : String) (args : List TypeExpr)
  | var (name : String)
deriving Repr, Inhabited

mutual

/-- Equality of types is decided along their structure. -/
def TypeExpr.decEq : (a b : TypeExpr) → Decidable (a = b)
  | .var n, .var m =>
    if same : n = m then isTrue (by rw [same]) else isFalse (by simpa using same)
  | .named n as, .named m bs =>
    if same : n = m then
      match TypeExpr.decEqAll as bs with
      | isTrue equal => isTrue (by rw [same, equal])
      | isFalse differ => isFalse (by simp [differ])
    else isFalse (by simp [same])
  | .var _, .named _ _ => isFalse (by simp)
  | .named _ _, .var _ => isFalse (by simp)

/-- Equality of lists of types. -/
def TypeExpr.decEqAll : (as bs : List TypeExpr) → Decidable (as = bs)
  | [], [] => isTrue rfl
  | a :: as, b :: bs =>
    match TypeExpr.decEq a b, TypeExpr.decEqAll as bs with
    | isTrue head, isTrue tail => isTrue (by rw [head, tail])
    | isFalse differ, _ => isFalse (by simp [differ])
    | _, isFalse differ => isFalse (by simp [differ])
  | [], _ :: _ => isFalse (by simp)
  | _ :: _, [] => isFalse (by simp)

end

instance : DecidableEq TypeExpr := TypeExpr.decEq

/-- Type variables with the types they stand for, in the order in which they were bound. -/
abbrev Bindings := OrderedMap String TypeExpr

/-- The reserved name of arrays. -/
def arrayName : String := "Array"

/-- A name without arguments. -/
def TypeExpr.plain (name : String) : TypeExpr := .named name []

/-- The type of arrays of an element type. -/
def TypeExpr.array (element : TypeExpr) : TypeExpr := .named arrayName [element]

/-- The name of a type, or of a variable. -/
def TypeExpr.name : TypeExpr → String
  | .named name _ => name
  | .var name => name

/-- The arguments of a type; a variable has none. -/
def TypeExpr.args : TypeExpr → List TypeExpr
  | .named _ args => args
  | .var _ => []

/-- Whether a type is the type of methods that return nothing. -/
def TypeExpr.isVoid (t : TypeExpr) : Bool := t = .plain "void"

mutual

/-- Turns names without arguments into variables where they occur among `params`. -/
def TypeExpr.bindParams (params : List String) : TypeExpr → TypeExpr
  | .named name args =>
    if args.isEmpty && params.contains name then .var name
    else .named name (TypeExpr.bindParamsAll params args)
  | .var name => .var name

/-- Binds variables in every type of a list. -/
def TypeExpr.bindParamsAll (params : List String) : List TypeExpr → List TypeExpr
  | [] => []
  | t :: rest => t.bindParams params :: TypeExpr.bindParamsAll params rest

end

mutual

/-- Whether a variable occurs in a type. -/
def TypeExpr.isOpen : TypeExpr → Bool
  | .var _ => true
  | .named _ args => TypeExpr.anyOpen args

/-- Whether a variable occurs in one of the types. -/
def TypeExpr.anyOpen : List TypeExpr → Bool
  | [] => false
  | t :: rest => t.isOpen || TypeExpr.anyOpen rest

end

/-- Appends a name unless it is there already. -/
def addName (names : List String) (name : String) : List String :=
  if names.contains name then names else names ++ [name]

mutual

/-- The names in `found`, followed by the variables of the type that are not among them. -/
def TypeExpr.collectVars (found : List String) : TypeExpr → List String
  | .var name => addName found name
  | .named _ args => TypeExpr.collectVarsAll found args

/-- The names in `found`, followed by the other variables of the types. -/
def TypeExpr.collectVarsAll (found : List String) : List TypeExpr → List String
  | [] => found
  | t :: rest => TypeExpr.collectVarsAll (t.collectVars found) rest

end

/-- The variables of a type in order of first occurrence. -/
def TypeExpr.vars (t : TypeExpr) : List String := t.collectVars []

mutual

/-- Replaces the variables that are bound and leaves the others open. -/
def TypeExpr.substitute (bindings : Bindings) : TypeExpr → TypeExpr
  | .var name => (bindings.get? name).getD (.var name)
  | .named name args => .named name (TypeExpr.substituteAll bindings args)

/-- Replaces the bound variables in every type of a list. -/
def TypeExpr.substituteAll (bindings : Bindings) : List TypeExpr → List TypeExpr
  | [] => []
  | t :: rest => t.substitute bindings :: TypeExpr.substituteAll bindings rest

end

/-- Binding variables in a list binds them in each of its types. -/
theorem TypeExpr.bindParamsAll_eq_map (params : List String) (ts : List TypeExpr) :
    TypeExpr.bindParamsAll params ts = ts.map (·.bindParams params) := by
  induction ts with
  | nil => rfl
  | cons t rest ih => simp [TypeExpr.bindParamsAll, ih]

/-- Substitution in a list is substitution in each of its types. -/
theorem TypeExpr.substituteAll_eq_map (bindings : Bindings) (ts : List TypeExpr) :
    TypeExpr.substituteAll bindings ts = ts.map (·.substitute bindings) := by
  induction ts with
  | nil => rfl
  | cons t rest ih => simp [TypeExpr.substituteAll, ih]

/-- A list holds variables exactly when one of its types does. -/
theorem TypeExpr.anyOpen_eq_any (ts : List TypeExpr) :
    TypeExpr.anyOpen ts = ts.any TypeExpr.isOpen := by
  induction ts with
  | nil => rfl
  | cons t rest ih => simp [TypeExpr.anyOpen, ih]

end NodeScript
