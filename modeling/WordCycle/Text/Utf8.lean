import WordCycle.Text.Slice

/-! UTF-8. Each character becomes one to four bytes; reading stops at the first byte that cannot go
on a character and says where that is and why. Overlong forms, surrogates and numbers beyond the
last code point are refused at their second byte. -/

namespace WordCycle
set_option autoImplicit false

/-- The content of a file. -/
abbrev Bytes := List UInt8

namespace Utf8

/-! ## Writing -/

def encodeChar (c : Char) : Bytes :=
  let n := c.toNat
  if n < 0x80 then [n.toUInt8]
  else if n < 0x800 then [(0xc0 + n / 0x40).toUInt8, (0x80 + n % 0x40).toUInt8]
  else if n < 0x10000 then
    [(0xe0 + n / 0x1000).toUInt8, (0x80 + n / 0x40 % 0x40).toUInt8, (0x80 + n % 0x40).toUInt8]
  else
    [(0xf0 + n / 0x40000).toUInt8, (0x80 + n / 0x1000 % 0x40).toUInt8,
      (0x80 + n / 0x40 % 0x40).toUInt8, (0x80 + n % 0x40).toUInt8]

def encode (t : Text) : Bytes := t.flatMap encodeChar

theorem encode_append (s t : Text) : encode (s ++ t) = encode s ++ encode t :=
  List.flatMap_append

/-! ## Reading -/

/-- What is wrong with bytes that form no character. -/
inductive Fault
  | invalidStart
  | invalidContinuation
  | unexpectedEnd
  deriving DecidableEq

/-- Where reading stopped: at `count` bytes, of which the first is `byte` at position `pos`. -/
structure DecodeError where
  byte : Nat
  pos : Nat
  count : Nat
  fault : Fault
  deriving DecidableEq

def Fault.message : Fault → String
  | invalidStart => "invalid start byte"
  | invalidContinuation => "invalid continuation byte"
  | unexpectedEnd => "unexpected end of data"

/-- A byte in two hexadecimal digits. -/
def hexByte (n : Nat) : String := String.ofList [Nat.digitChar (n / 16), Nat.digitChar (n % 16)]

/-- The wording of an error. A single byte is shown, several are only placed. -/
def DecodeError.message (e : DecodeError) : String :=
  (if e.count = 1 then
    "'utf-8' codec can't decode byte 0x" ++ hexByte e.byte ++ " in position " ++ toString e.pos
  else
    "'utf-8' codec can't decode bytes in position " ++ toString e.pos ++ "-"
      ++ toString (e.pos + e.count - 1))
    ++ ": " ++ e.fault.message

/-- Whether a byte goes on a character. -/
def isContinuation (b : Nat) : Bool := 0x80 ≤ b && b < 0xc0

/-- Whether a byte may be the second one of a character of three bytes. -/
def isSecondOfThree (first b : Nat) : Bool :=
  isContinuation b && (if first = 0xe0 then 0xa0 ≤ b else if first = 0xed then b < 0xa0 else true)

/-- Whether a byte may be the second one of a character of four bytes. -/
def isSecondOfFour (first b : Nat) : Bool :=
  isContinuation b && (if first = 0xf0 then 0x90 ≤ b else if first = 0xf4 then b < 0x90 else true)

/-- The text of bytes that begin at a position. -/
def decodeFrom (pos : Nat) : Bytes → Except DecodeError Text
  | [] => .ok []
  | b :: rest =>
    let n := b.toNat
    let stop (count : Nat) (fault : Fault) : Except DecodeError Text :=
      .error ⟨n, pos, count, fault⟩
    if n < 0x80 then do return Char.ofNat n :: (← decodeFrom (pos + 1) rest)
    else if n < 0xc2 then stop 1 .invalidStart
    else if n < 0xe0 then
      match rest with
      | [] => stop 1 .unexpectedEnd
      | b₁ :: rest =>
        if isContinuation b₁.toNat then do
          return Char.ofNat ((n - 0xc0) * 0x40 + (b₁.toNat - 0x80)) :: (← decodeFrom (pos + 2) rest)
        else stop 1 .invalidContinuation
    else if n < 0xf0 then
      match rest with
      | [] => stop 1 .unexpectedEnd
      | b₁ :: rest =>
        if isSecondOfThree n b₁.toNat then
          match rest with
          | [] => stop 2 .unexpectedEnd
          | b₂ :: rest =>
            if isContinuation b₂.toNat then do
              return Char.ofNat ((n - 0xe0) * 0x1000 + (b₁.toNat - 0x80) * 0x40 + (b₂.toNat - 0x80))
                :: (← decodeFrom (pos + 3) rest)
            else stop 2 .invalidContinuation
        else stop 1 .invalidContinuation
    else if n < 0xf5 then
      match rest with
      | [] => stop 1 .unexpectedEnd
      | b₁ :: rest =>
        if isSecondOfFour n b₁.toNat then
          match rest with
          | [] => stop 2 .unexpectedEnd
          | b₂ :: rest =>
            if isContinuation b₂.toNat then
              match rest with
              | [] => stop 3 .unexpectedEnd
              | b₃ :: rest =>
                if isContinuation b₃.toNat then do
                  return Char.ofNat ((n - 0xf0) * 0x40000 + (b₁.toNat - 0x80) * 0x1000
                    + (b₂.toNat - 0x80) * 0x40 + (b₃.toNat - 0x80)) :: (← decodeFrom (pos + 4) rest)
                else stop 3 .invalidContinuation
            else stop 2 .invalidContinuation
        else stop 1 .invalidContinuation
    else stop 1 .invalidStart

def decode (bytes : Bytes) : Except DecodeError Text := decodeFrom 0 bytes

end Utf8
end WordCycle
