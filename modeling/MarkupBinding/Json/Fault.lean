/-!
# Faults of JSON text

Where and why a text is not JSON. A fault is found at a place of the text; the error shows the
place as a line, a column and a count of characters.
-/

set_option autoImplicit false
set_option relaxedAutoImplicit false

namespace MarkupBinding.Json

/-- Why a text is not JSON. -/
inductive Fault where
  | expectingValue
  | expectingName
  | expectingColon
  | expectingComma
  | extraData
  | unterminatedString
  | controlCharacter
  | badEscape
  | badUnicodeEscape
  | byteOrderMark
  /-- A whole number of more digits than are read, and how many it has. -/
  | hugeInteger (digits : Nat)
  deriving DecidableEq, Repr

/-- The longest whole number that is read, in digits. -/
def integerLimit : Nat := 4300

/-- The fault in words. -/
def Fault.message : Fault → String
  | expectingValue => "Expecting value"
  | expectingName => "Expecting property name enclosed in double quotes"
  | expectingColon => "Expecting ':' delimiter"
  | expectingComma => "Expecting ',' delimiter"
  | extraData => "Extra data"
  | unterminatedString => "Unterminated string starting at"
  | controlCharacter => "Invalid control character at"
  | badEscape => "Invalid \\escape"
  | badUnicodeEscape => "Invalid \\uXXXX escape"
  | byteOrderMark => "Unexpected UTF-8 BOM (decode using utf-8-sig)"
  | hugeInteger digits => "Exceeds the limit (" ++ toString integerLimit ++
      " digits) for integer string conversion: value has " ++ toString digits ++
      " digits; use sys.set_int_max_str_digits() to increase the limit"

/-- A fault and its place, counted from zero. -/
structure Error where
  fault : Fault
  line : Nat
  column : Nat
  place : Nat
  deriving DecidableEq, Repr

/-- The error for a fault after the characters `before`. -/
def Error.after (before : List Char) (fault : Fault) : Error where
  fault := fault
  line := before.count '\n'
  column := (before.reverse.takeWhile (· != '\n')).length
  place := before.length

/-- The error in words; lines and columns are counted from one. -/
def Error.message (e : Error) : String :=
  e.fault.message ++ ": line " ++ toString (e.line + 1) ++ " column " ++ toString (e.column + 1) ++
    " (char " ++ toString e.place ++ ")"

end MarkupBinding.Json
