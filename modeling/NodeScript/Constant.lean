import NodeScript.Numeric.Decimal
import NodeScript.Text.Quoted
import NodeScript.Typing.TypeText

/-!
Values that are written into a graph: by constant nodes, as defaults of unconnected inputs, and as
initial values of variables.
-/

namespace NodeScript

/-- A value that a graph holds. -/
inductive Constant where
  | bool (value : Bool)
  | int (value : Int64)
  | float (value : Single)
  | double (value : Double)
  | string (value : String)
  | enumMember (typeName member : String)
  | null
  /-- The default value of a type. -/
  | defaultOf (handle : TypeHandle)
deriving DecidableEq, Repr, Inhabited

/-- The type of a value. -/
def Constant.type : Constant → TypeHandle
  | .bool _ => .bool
  | .int _ => .int
  | .float _ => .float
  | .double _ => .double
  | .string _ => .string
  | .enumMember typeName _ => ⟨typeName⟩
  | .null => .object
  | .defaultOf handle => handle

/-- The text that shows a truth value. -/
def boolText (b : Bool) : String := if b then "true" else "false"

/-- The text of a value in the label of its visual. -/
def Constant.label : Constant → String
  | .bool value => s!"Bool({boolText value})"
  | .int value => s!"Int({intText value.toInt})"
  | .float value => s!"Float({NumberStyle.label.render value.read})"
  | .double value => s!"Double({NumberStyle.label.render value.read})"
  | .string value => s!"String({quoteLabel value})"
  | .enumMember typeName member =>
    "Enum \x7b type_name: " ++ quoteLabel typeName ++ ", value: " ++ quoteLabel member ++ " \x7d"
  | .null => "Null"
  | .defaultOf handle => s!"Default(TypeHandle({quoteLabel handle.text}))"

end NodeScript
