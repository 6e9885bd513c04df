import WordCycle.Text.Slice

/-! UTF-16: characters beyond the basic plane take two units, all others one. Besides writing and
reading there are the two ways between positions in a text and positions in its units. -/

namespace WordCycle
set_option autoImplicit false

/-- A text as a text widget keeps it. -/
abbrev Units := List UInt16

namespace Units16

/-! ## Units of a text -/

/-- How many units a character takes. -/
def width (c : Char) : Nat := if 0xffff < c.toNat then 2 else 1

def encodeChar (c : Char) : Units :=
  if 0xffff < c.toNat then
    [(0xd800 + (c.toNat - 0x10000) / 0x400).toUInt16, (0xdc00 + c.toNat % 0x400).toUInt16]
  else [c.toNat.toUInt16]

def encode (t : Text) : Units := t.flatMap encodeChar

/-- How many units a text takes. -/
def length : Text → Nat
  | [] => 0
  | c :: t => width c + length t

theorem length_encodeChar (c : Char) : (encodeChar c).length = width c := by
  unfold encodeChar width
  split <;> rfl

theorem length_encode (t : Text) : (encode t).length = length t := by
  induction t with
  | nil => rfl
  | cons c t ih =>
    rw [length, ← ih, ← length_encodeChar]
    simp [encode]

theorem length_append (s t : Text) : length (s ++ t) = length s + length t := by
  rw [← length_encode, ← length_encode, ← length_encode, encode, List.flatMap_append,
    List.length_append, encode, encode]

theorem encode_append (s t : Text) : encode (s ++ t) = encode s ++ encode t :=
  List.flatMap_append

/-! ## Text of units -/

/-- Whether a unit is the first half of a surrogate pair. -/
def isHigh (u : UInt16) : Bool := 0xd800 ≤ u.toNat && u.toNat < 0xdc00

/-- Whether a unit is the second half of a surrogate pair. -/
def isLow (u : UInt16) : Bool := 0xdc00 ≤ u.toNat && u.toNat < 0xe000

/-- The text of units. A half without its other half is shown as the replacement character. -/
def decode : Units → Text
  | [] => []
  | [u] => [if isHigh u || isLow u then '\ufffd' else Char.ofNat u.toNat]
  | u :: v :: rest =>
    if isHigh u && isLow v then
      Char.ofNat (0x10000 + (u.toNat - 0xd800) * 0x400 + (v.toNat - 0xdc00)) :: decode rest
    else (if isHigh u || isLow u then '\ufffd' else Char.ofNat u.toNat) :: decode (v :: rest)

/-! ## Positions -/

/-- The number of units before a signed position of a text. -/
def ofPosition (t : Text) (pos : Int) : Nat := length (t.slice 0 pos)

/-- The first position of a text with at least the given number of units before it, or its end. -/
def toPosition : Text → Int → Nat
  | [], _ => 0
  | c :: t, units => if units ≤ 0 then 0 else 1 + toPosition t (units - width c)

end Units16
end WordCycle
