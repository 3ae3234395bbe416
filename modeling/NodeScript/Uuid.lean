/-!
Identities of 128 bits, their hyphenated text, and the supply that fresh ones are taken from.
-/

namespace NodeScript

/-- A 128-bit identity. -/
structure Uuid where
  bits : BitVec 128
deriving DecidableEq, Repr, Inhabited

/-- Identities are ordered as numbers. -/
def Uuid.below (a b : Uuid) : Bool := a.bits.toNat < b.bits.toNat

/-- The hexadecimal digits of a natural, filled up with zeros on the left. -/
def paddedHex (width n : Nat) : List Char :=
  let digits := Nat.toDigits 16 n
  List.replicate (width - digits.length) '0' ++ digits

/-- The identity in five groups of lower-case hexadecimal digits. -/
def Uuid.text (u : Uuid) : String :=
  let digits := paddedHex 32 u.bits.toNat
  String.ofList (digits.take 8 ++ '-' :: (digits.drop 8).take 4 ++ '-' :: (digits.drop 12).take 4
    ++ '-' :: (digits.drop 16).take 4 ++ '-' :: digits.drop 20)

instance : ToString Uuid := ⟨Uuid.text⟩

/-- The value of a hexadecimal digit. -/
def hexValue? (c : Char) : Option Nat :=
  if '0' ≤ c && c ≤ '9' then some (c.toNat - '0'.toNat)
  else if 'a' ≤ c && c ≤ 'f' then some (c.toNat - 'a'.toNat + 10)
  else if 'A' ≤ c && c ≤ 'F' then some (c.toNat - 'A'.toNat + 10)
  else none

/-- The natural that a list of hexadecimal digits stands for. -/
def hexNat? (digits : List Char) : Option Nat :=
  digits.foldlM (fun n c => (hexValue? c).map (16 * n + ·)) 0

/-- Reads 32 hexadecimal digits. -/
def Uuid.ofDigits? (digits : List Char) : Option Uuid :=
  if digits.length = 32 then (hexNat? digits).map fun n => ⟨BitVec.ofNat 128 n⟩ else none

/-- Reads an identity in five groups with hyphens between them. -/
def Uuid.ofHyphenated? (text : List Char) : Option Uuid :=
  if text.length = 36 && text[8]? = some '-' && text[13]? = some '-' && text[18]? = some '-'
      && text[23]? = some '-' then
    Uuid.ofDigits? (text.take 8 ++ (text.drop 9).take 4 ++ (text.drop 14).take 4
      ++ (text.drop 19).take 4 ++ text.drop 24)
  else none

/-- The text between an opening and a closing bracket. -/
def unwrapped? (opening closing : Char) (text : List Char) : Option (List Char) :=
  match text with
  | c :: rest => if c = opening && rest.getLast? = some closing then some rest.dropLast else none
  | [] => none

/-- The word in front of an identity, in lower case. -/
def uuidPrefix : List Char := ['u', 'r', 'n', ':', 'u', 'u', 'i', 'd', ':']

/-- Whether a text starts with the word in front of an identity, in any case. -/
def hasUuidPrefix (text : List Char) : Bool := (text.take 9).map Char.toLower = uuidPrefix

/-- Reads an identity: plain digits, groups with hyphens, groups in braces, or groups behind the
word `urn:uuid:`. -/
def Uuid.ofText? (text : String) : Option Uuid :=
  let chars := text.toList
  if chars.length = 32 then Uuid.ofDigits? chars
  else if chars.length = 36 then Uuid.ofHyphenated? chars
  else if chars.length = 38 then (unwrapped? '\x7b' '\x7d' chars).bind Uuid.ofHyphenated?
  else if chars.length = 45 && hasUuidPrefix chars then Uuid.ofHyphenated? (chars.drop 9)
  else none

/-- Why a text is no identity. -/
inductive UuidFault where
  | badChar (found : Char) (index : Nat)
  | badLength (found : Nat)
  | badGroupCount (found : Nat)
  | badGroupLength (group expected found : Nat)
deriving DecidableEq, Repr

/-- The wording of the fault. -/
def UuidFault.message : UuidFault → String
  | .badChar found index =>
    "invalid character: expected an optional prefix of `urn:uuid:` followed by [0-9a-fA-F-], found "
      ++ s!"`{found}` at {Nat.repr index}"
  | .badLength found =>
    s!"invalid length: expected length 32 for simple format, found {Nat.repr found}"
  | .badGroupCount found => s!"invalid group count: expected 5, found {Nat.repr found}"
  | .badGroupLength group expected found =>
    s!"invalid group length in group {Nat.repr group}: expected {Nat.repr expected}, "
      ++ s!"found {Nat.repr found}"

/-- The first group with the wrong number of characters. The characters of the last one are counted
up to the end of the text, whose length is given. -/
def groupFault (length : Nat) (groups : List (List Char)) : UuidFault :=
  match (groups.zip [8, 4, 4, 4]).findIdx? fun (group, size) => group.length ≠ size with
  | some i => .badGroupLength i ([8, 4, 4, 4].getD i 0) (groups.getD i []).length
  | none => .badGroupLength 4 12 (length - 24)

/-- What is wrong with a text that is no identity. -/
def Uuid.fault (text : String) : UuidFault :=
  let chars := text.toList
  let (inside, offset) := match unwrapped? '\x7b' '\x7d' chars with
    | some inside => (inside, 1)
    | none => if hasUuidPrefix chars then (chars.drop 9, 9) else (chars, 0)
  match inside.findIdx? fun c => c ≠ '-' && (hexValue? c).isNone with
  | some i => .badChar (inside.getD i '-') (i + offset + 1)
  | none =>
    let groups := inside.splitOn '-'
    if groups.length = 1 && offset = 0 then .badLength chars.length
    else if groups.length ≠ 5 then .badGroupCount groups.length
    else groupFault chars.length groups

/-- A source of identities that have not been given out before. All of them are of one family, which
takes up the high half, and are told apart by a number in the low half. -/
structure IdSupply where
  family : UInt64
  next : Nat
deriving DecidableEq, Repr, Inhabited

/-- The identity that a family holds under a number. -/
def familyIdentity (family : UInt64) (n : Nat) : Uuid :=
  ⟨BitVec.ofNat 128 (family.toNat * UInt64.size + n)⟩

/-- The supply of a family that has not been used. Families stand for chance: identities that come
from elsewhere are taken to be of another one. -/
def IdSupply.ofFamily (family : UInt64) : IdSupply := ⟨family, 0⟩

/-- Takes an identity. -/
def IdSupply.fresh (supply : IdSupply) : Uuid × IdSupply :=
  (familyIdentity supply.family supply.next, { supply with next := supply.next + 1 })

/-- The node with this identity. -/
structure NodeId where
  uuid : Uuid
deriving DecidableEq, Repr, Inhabited

/-- The port with this identity. -/
structure PortId where
  uuid : Uuid
deriving DecidableEq, Repr, Inhabited

/-- The edge with this identity. -/
structure EdgeId where
  uuid : Uuid
deriving DecidableEq, Repr, Inhabited

/-- The variable with this identity. -/
structure VariableId where
  uuid : Uuid
deriving DecidableEq, Repr, Inhabited

/-- The identity with its kind, as messages show it. -/
def NodeId.shown (id : NodeId) : String := s!"NodeId({id.uuid.text})"

/-- The identity with its kind, as messages show it. -/
def PortId.shown (id : PortId) : String := s!"PortId({id.uuid.text})"

/-- The identity with its kind, as messages show it. -/
def EdgeId.shown (id : EdgeId) : String := s!"EdgeId({id.uuid.text})"

/-- The identity with its kind, as messages show it. -/
def VariableId.shown (id : VariableId) : String := s!"VariableId({id.uuid.text})"

end NodeScript
