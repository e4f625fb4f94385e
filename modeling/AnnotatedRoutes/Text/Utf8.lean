import AnnotatedRoutes.Text.Basic

namespace AnnotatedRoutes.Text

/-- File contents. -/
abbrev Bytes := List UInt8

/-- The bytes of one character: one to four, the first of which gives their number. -/
def encodeChar (c : Char) : Bytes :=
  let n := c.toNat
  if n < 0x80 then [n.toUInt8]
  else if n < 0x800 then [(0xC0 + n / 0x40).toUInt8, (0x80 + n % 0x40).toUInt8]
  else if n < 0x10000 then
    [(0xE0 + n / 0x1000).toUInt8, (0x80 + n / 0x40 % 0x40).toUInt8, (0x80 + n % 0x40).toUInt8]
  else
    [(0xF0 + n / 0x40000).toUInt8, (0x80 + n / 0x1000 % 0x40).toUInt8,
      (0x80 + n / 0x40 % 0x40).toUInt8, (0x80 + n % 0x40).toUInt8]

def encode (t : Text) : Bytes := t.flatMap encodeChar

/-- Closed ranges for the bytes that may follow a leading byte, in order. Longer forms of shorter
characters, surrogates and numbers past the last code point are left out. -/
def followers (lead : UInt8) : Option (List (UInt8 × UInt8)) :=
  let rest : UInt8 × UInt8 := (0x80, 0xBF)
  if lead < 0x80 then some []
  else if lead < 0xC2 then none
  else if lead < 0xE0 then some [rest]
  else if lead = 0xE0 then some [(0xA0, 0xBF), rest]
  else if lead = 0xED then some [(0x80, 0x9F), rest]
  else if lead < 0xF0 then some [rest, rest]
  else if lead = 0xF0 then some [(0x90, 0xBF), rest, rest]
  else if lead < 0xF4 then some [rest, rest, rest]
  else if lead = 0xF4 then some [(0x80, 0x8F), rest, rest]
  else none

/-- The payload of a leading byte. -/
def leadValue (lead : UInt8) : Nat :=
  if lead < 0x80 then lead.toNat
  else if lead < 0xE0 then lead.toNat % 0x20
  else if lead < 0xF0 then lead.toNat % 0x10
  else lead.toNat % 0x08

/-- Takes following bytes as long as they lie in their ranges: the number read, or nothing if the
bytes end or leave a range too soon, and the bytes that are left. -/
def takeFollowers : List (UInt8 × UInt8) → Nat → Bytes → Option Nat × Bytes
  | [], value, bytes => (some value, bytes)
  | _ :: _, _, [] => (none, [])
  | (low, high) :: ranges, value, b :: bytes =>
    if low ≤ b ∧ b ≤ high then takeFollowers ranges (value * 0x40 + b.toNat % 0x40) bytes
    else (none, b :: bytes)

/-- The first character of some bytes, or nothing if they begin with a piece that is no character,
and the bytes after it. -/
def decodeFirst (lead : UInt8) (bytes : Bytes) : Option Char × Bytes :=
  match followers lead with
  | none => (none, bytes)
  | some ranges =>
    match takeFollowers ranges (leadValue lead) bytes with
    | (some value, rest) => (some (Char.ofNat value), rest)
    | (none, rest) => (none, rest)

theorem takeFollowers_length (ranges : List (UInt8 × UInt8)) (value : Nat) (bytes : Bytes) :
    (takeFollowers ranges value bytes).2.length ≤ bytes.length := by
  induction ranges generalizing value bytes with
  | nil => simp [takeFollowers]
  | cons range ranges ih =>
    cases bytes with
    | nil => simp [takeFollowers]
    | cons b bytes =>
      simp only [takeFollowers]
      split
      · exact Nat.le_succ_of_le (ih _ _)
      · simp

theorem decodeFirst_length (lead : UInt8) (bytes : Bytes) :
    (decodeFirst lead bytes).2.length ≤ bytes.length := by
  unfold decodeFirst
  split
  · simp
  next ranges _ =>
    have := takeFollowers_length ranges (leadValue lead) bytes
    split <;> simp_all

/-- The characters in some bytes; `none` stands for a piece that is no character. -/
def decodePieces : Bytes → List (Option Char)
  | [] => []
  | lead :: bytes => (decodeFirst lead bytes).1 :: decodePieces (decodeFirst lead bytes).2
termination_by bytes => bytes.length
decreasing_by
  have := decodeFirst_length lead bytes
  simp only [List.length_cons]
  omega

/-- The text in some bytes without the pieces that are no characters. -/
def decodeLossy (bytes : Bytes) : Text := (decodePieces bytes).filterMap id

/-- The text whose byte form is given, if there is one. -/
def decode? (bytes : Bytes) : Option Text := (decodePieces bytes).mapM id

end AnnotatedRoutes.Text
