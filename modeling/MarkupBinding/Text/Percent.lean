import MarkupBinding.Text.Encoding

/-!
# Percent escapes

A percent sign and two hexadecimal digits stand for a byte. Decoding puts the bytes in the place of
the escapes and reads all as UTF-8 with a replacement character for each fault; a percent sign that
begins no escape stands for itself. In the fields of queries and forms a plus sign stands for a
blank. Encoding writes the bytes of every character but the chosen ones as escapes.
-/

set_option autoImplicit false
set_option relaxedAutoImplicit false

namespace MarkupBinding.Text

/-- The bytes of characters with percent escapes. -/
def percentBytes : List Char → List UInt8
  | [] => []
  | '%' :: a :: b :: rest =>
    match hexValue? a, hexValue? b with
    | some high, some low => UInt8.ofNat (16 * high + low) :: percentBytes rest
    | _, _ => UInt8.ofNat '%'.toNat :: percentBytes (a :: b :: rest)
  | c :: rest => String.utf8EncodeChar c ++ percentBytes rest

/-- The text with its percent escapes decoded. -/
def percentDecode (s : String) : String :=
  utf8Mend (percentBytes s.toList)

/-- The text of a field of a query or a form. -/
def fieldDecode (s : String) : String :=
  utf8Mend (percentBytes (s.toList.map fun c ↦ if c = '+' then ' ' else c))

/-- A byte as an escape. -/
def percentEscape (byte : UInt8) : List Char :=
  '%' :: (hexDigits 2 byte.toNat).map Char.toUpper

/-- The text with all characters escaped that are not `plain`. -/
def percentEncode (plain : Char → Bool) (s : String) : String :=
  String.ofList (s.toList.flatMap fun c ↦
    if plain c then [c] else (String.utf8EncodeChar c).flatMap percentEscape)

/-- The fields of a query or a form that pieces stand for: a name and a value around the first sign
of equality, or a name without a value. -/
def fieldOf (piece : String) : String × String :=
  match cutOnce '=' piece.toList with
  | some (name, value) => (fieldDecode (String.ofList name), fieldDecode (String.ofList value))
  | none => (fieldDecode piece, "")

/-- The value of the last field of a name. -/
def lastField? (name : String) (fields : List (String × String)) : Option String :=
  fields.reverse.lookup name

end MarkupBinding.Text
