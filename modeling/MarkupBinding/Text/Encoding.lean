import MarkupBinding.Text.Case
import MarkupBinding.Text.Utf8

/-!
# Encodings and line ends of text files

The encodings that a text file may be read in, by name, and the line ends of text that was read: a
carriage return, alone or before a line feed, counts as a line feed.
-/

set_option autoImplicit false
set_option relaxedAutoImplicit false

namespace MarkupBinding.Text

/-- An encoding of text files. -/
inductive Encoding where
  | utf8
  /-- UTF-8 behind a byte order mark, which is dropped. -/
  | markedUtf8
  /-- One byte per character. -/
  | latin1
  /-- One byte of seven bits per character. -/
  | ascii
  deriving DecidableEq, Repr

namespace Encoding

/-- A name of an encoding in small letters, with low lines for other marks. -/
def plainName (name : String) : String :=
  String.ofList ((lower name).toList.map fun c ↦ if c = '-' || c = ' ' then '_' else c)

/-- The encodings by plain name. -/
def names : List (String × Encoding) :=
  [("utf_8", utf8), ("utf8", utf8), ("u8", utf8), ("utf_8_sig", markedUtf8),
    ("latin_1", latin1), ("latin1", latin1), ("latin", latin1), ("l1", latin1),
    ("iso_8859_1", latin1), ("iso8859_1", latin1), ("8859", latin1),
    ("ascii", ascii), ("us_ascii", ascii), ("646", ascii)]

/-- The encoding of a name. -/
def ofName? (name : String) : Option Encoding :=
  names.lookup (plainName name)

/-- The name that errors show. -/
def shown : Encoding → String
  | utf8 | markedUtf8 => "utf-8"
  | latin1 => "latin-1"
  | ascii => "ascii"

/-- The bytes behind a byte order mark, or all. -/
def withoutMark : List UInt8 → List UInt8
  | 0xEF :: 0xBB :: 0xBF :: rest => rest
  | bytes => bytes

/-- The characters of seven bit bytes, the first of which is at the given place. -/
def asciiChars (place : Nat) : List UInt8 → Except ByteError (List Char)
  | [] => .ok []
  | b :: rest =>
    if b.toNat < 0x80 then (asciiChars (place + 1) rest).map (Char.ofNat b.toNat :: ·)
    else .error ⟨place, [b], .beyondSevenBits⟩

/-- The text that bytes stand for in the encoding. -/
def decode (encoding : Encoding) (bytes : List UInt8) : Except ByteError String :=
  match encoding with
  | utf8 => utf8Decode bytes
  | markedUtf8 => utf8Decode (withoutMark bytes)
  | latin1 => .ok (String.ofList (bytes.map fun b ↦ Char.ofNat b.toNat))
  | ascii => (asciiChars 0 bytes).map String.ofList

end Encoding

/-- The characters with every line end as one line feed. -/
def unifyLineEnds : List Char → List Char
  | [] => []
  | '\r' :: '\n' :: rest => '\n' :: unifyLineEnds rest
  | c :: rest => (if c = '\r' then '\n' else c) :: unifyLineEnds rest

/-- The text of a file's bytes in the encoding, with every line end as one line feed. -/
def Encoding.read (encoding : Encoding) (bytes : List UInt8) : Except ByteError String :=
  (encoding.decode bytes).map fun s ↦ String.ofList (unifyLineEnds s.toList)

end MarkupBinding.Text
