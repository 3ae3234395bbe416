/-!
Text as bytes: characters are encoded by one to four bytes, the first of which tells how many there
are. Bytes that encode nothing are read as the replacement character, one for every longest run that
starts like a character.
-/

namespace NodeScript

/-- The bytes of a text. -/
def utf8Bytes (text : List Char) : List UInt8 := text.flatMap String.utf8EncodeChar

/-- What the bytes behind a first byte have to lie between, if the byte may stand first. No encoding
is longer than it has to be, and none stands for a surrogate or for a number above the last. -/
def followingBounds? (first : UInt8) : Option (List (UInt8 × UInt8)) :=
  if first < 0x80 then some []
  else if first < 0xC2 then none
  else if first < 0xE0 then some [(0x80, 0xBF)]
  else if first = 0xE0 then some [(0xA0, 0xBF), (0x80, 0xBF)]
  else if first = 0xED then some [(0x80, 0x9F), (0x80, 0xBF)]
  else if first < 0xF0 then some [(0x80, 0xBF), (0x80, 0xBF)]
  else if first = 0xF0 then some [(0x90, 0xBF), (0x80, 0xBF), (0x80, 0xBF)]
  else if first < 0xF4 then some [(0x80, 0xBF), (0x80, 0xBF), (0x80, 0xBF)]
  else if first = 0xF4 then some [(0x80, 0x8F), (0x80, 0xBF), (0x80, 0xBF)]
  else none

/-- The bits that a first byte brings, by the number of bytes that follow it. -/
def leadingBits (first : UInt8) (following : Nat) : Nat :=
  match following with
  | 0 => first.toNat
  | 1 => first.toNat % 32
  | 2 => first.toNat % 16
  | _ => first.toNat % 8

/-- The number that a first byte and those behind it encode. -/
def encodedNumber (first : UInt8) (following : List UInt8) : Nat :=
  following.foldl (fun n byte => 64 * n + byte.toNat % 64) (leadingBits first following.length)

/-- The bytes at the start that lie within the bounds, one by one. -/
def takeWithin : List (UInt8 × UInt8) → List UInt8 → List UInt8
  | (least, greatest) :: bounds, byte :: rest =>
    if least ≤ byte && byte ≤ greatest then byte :: takeWithin bounds rest else []
  | _, _ => []

/-- The bytes that start like a character, from behind a first byte on, and the character if it is
complete. -/
def characterBehind (first : UInt8) (rest : List UInt8) : Nat × Option Char :=
  match followingBounds? first with
  | none => (0, none)
  | some bounds =>
    let following := takeWithin bounds rest
    if following.length = bounds.length then
      (following.length, some (Char.ofNat (encodedNumber first following)))
    else (following.length, none)

/-- The character that bytes encode, all of them together. -/
def charOfUtf8? : List UInt8 → Option Char
  | [] => none
  | first :: rest =>
    match characterBehind first rest with
    | (count, some c) => if rest.length = count then some c else none
    | (_, none) => none

/-- The replacement character. -/
def replacementChar : Char := '\uFFFD'

/-- The text of bytes, behind as many that belong to a character before them. -/
def decodeUtf8Behind : Nat → List UInt8 → List Char
  | _, [] => []
  | behind + 1, _ :: rest => decodeUtf8Behind behind rest
  | 0, first :: rest =>
    match characterBehind first rest with
    | (count, some c) => c :: decodeUtf8Behind count rest
    | (count, none) => replacementChar :: decodeUtf8Behind count rest

/-- The text of bytes, with replacement characters for those that encode nothing. -/
def decodeUtf8 (bytes : List UInt8) : List Char := decodeUtf8Behind 0 bytes

end NodeScript
