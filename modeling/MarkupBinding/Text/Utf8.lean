import MarkupBinding.Text.Quoted

/-!
# UTF-8

Reading a sequence of bytes as UTF-8 gives pieces in order: characters, and faults with the bytes
they cover. A fault covers the longest beginning of a character that is there, at least one byte,
and reading goes on with the byte behind it. `utf8Decode` refuses bytes with a fault, and `utf8Mend`
puts one replacement character in the place of each.
-/

set_option autoImplicit false
set_option relaxedAutoImplicit false

namespace MarkupBinding.Text

/-- What is wrong with bytes that are not text. -/
inductive ByteFault where
  /-- No character begins with the byte. -/
  | invalidStart
  /-- The bytes end inside a character. -/
  | unexpectedEnd
  /-- A byte does not go on with the character begun. -/
  | invalidContinuation
  /-- The byte is beyond the seven bits of the encoding. -/
  | beyondSevenBits
  deriving DecidableEq, Repr

/-- The fault in words. -/
def ByteFault.message : ByteFault → String
  | invalidStart => "invalid start byte"
  | unexpectedEnd => "unexpected end of data"
  | invalidContinuation => "invalid continuation byte"
  | beyondSevenBits => "ordinal not in range(128)"

/-- A fault, the bytes it covers and the place of the first of them, counted from zero. -/
structure ByteError where
  place : Nat
  bytes : List UInt8
  fault : ByteFault
  deriving DecidableEq, Repr

/-- The error in words, for a named encoding. -/
def ByteError.message (encoding : String) (e : ByteError) : String :=
  "'" ++ encoding ++ "' codec can't decode " ++
    (match e.bytes with
      | [b] => "byte 0x" ++ String.ofList (hexDigits 2 b.toNat) ++ " in position " ++
          toString e.place
      | bytes => "bytes in position " ++ toString e.place ++ "-" ++
          toString (e.place + bytes.length - 1)) ++
    ": " ++ e.fault.message

/-- A part of a byte sequence. -/
inductive Piece where
  | char (c : Char)
  | fault (error : ByteError)
  deriving DecidableEq, Repr

/-- A character of which some bytes were read. -/
structure Begun where
  place : Nat
  /-- The bytes read so far. -/
  seen : List UInt8
  /-- The bits read so far. -/
  bits : Nat
  /-- The number of bytes still to come, one at least. -/
  missing : Nat
  /-- The bounds of the next byte. -/
  low : Nat
  high : Nat
  deriving DecidableEq, Repr

/-- The character that a first byte begins: how many bytes follow, and the bounds of the next.
Overlong forms, surrogates and numbers beyond the last character are ruled out by the bounds. -/
def leadByte (n : Nat) : Option (Nat × Nat × Nat) :=
  if n < 0xC2 then none
  else if n < 0xE0 then some (1, 0x80, 0xBF)
  else if n < 0xF0 then
    some (2, if n = 0xE0 then 0xA0 else 0x80, if n = 0xED then 0x9F else 0xBF)
  else if n < 0xF5 then
    some (3, if n = 0xF0 then 0x90 else 0x80, if n = 0xF4 then 0x8F else 0xBF)
  else none

/-- The bits of a character's number that its first byte holds, when so many bytes follow. -/
def leadBits (following n : Nat) : Nat :=
  n % Nat.pow 2 (6 - following)

/-- Reads a byte at which a character may begin. -/
def beginChar (place : Nat) (b : UInt8) : List Piece × Option Begun :=
  if b.toNat < 0x80 then ([.char (Char.ofNat b.toNat)], none)
  else match leadByte b.toNat with
    | none => ([.fault ⟨place, [b], .invalidStart⟩], none)
    | some (following, low, high) =>
      ([], some ⟨place, [b], leadBits following b.toNat, following, low, high⟩)

/-- Reads one byte: the pieces that it completes, and the character that is then begun. -/
def readByte (begun : Option Begun) (place : Nat) (b : UInt8) : List Piece × Option Begun :=
  match begun with
  | none => beginChar place b
  | some part =>
    if part.low ≤ b.toNat ∧ b.toNat ≤ part.high then
      let bits := part.bits * 64 + b.toNat % 64
      if part.missing ≤ 1 then ([.char (Char.ofNat bits)], none)
      else ([], some ⟨part.place, part.seen ++ [b], bits, part.missing - 1, 0x80, 0xBF⟩)
    else
      let (pieces, begun) := beginChar place b
      (.fault ⟨part.place, part.seen, .invalidContinuation⟩ :: pieces, begun)

/-- The pieces of a byte sequence behind a character begun; `place` counts the bytes before. -/
def piecesFrom (begun : Option Begun) (place : Nat) : List UInt8 → List Piece
  | [] =>
    match begun with
    | none => []
    | some part => [.fault ⟨part.place, part.seen, .unexpectedEnd⟩]
  | b :: rest =>
    let (pieces, begun) := readByte begun place b
    pieces ++ piecesFrom begun (place + 1) rest

/-- The characters of pieces without a fault, or the first fault. -/
def strictChars : List Piece → Except ByteError (List Char)
  | [] => .ok []
  | .fault e :: _ => .error e
  | .char c :: rest => (strictChars rest).map (c :: ·)

/-- The text that bytes stand for, or the first fault. -/
def utf8Decode (bytes : List UInt8) : Except ByteError String :=
  (strictChars (piecesFrom none 0 bytes)).map String.ofList

/-- The character that stands in for what cannot be read. -/
def replacementChar : Char := Char.ofNat 0xFFFD

/-- The text that bytes stand for, with a replacement character for each fault. -/
def utf8Mend (bytes : List UInt8) : String :=
  String.ofList ((piecesFrom none 0 bytes).map fun
    | .char c => c
    | .fault _ => replacementChar)

/-- The bytes of a text. -/
def utf8Encode (s : String) : List UInt8 :=
  s.toList.flatMap String.utf8EncodeChar

end MarkupBinding.Text
