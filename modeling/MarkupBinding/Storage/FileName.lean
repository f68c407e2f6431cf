import MarkupBinding.Text.Utf8

/-!
# Names of files

A file is known by bytes, and the text that names it is the one that these are in UTF-8. A name that
is no UTF-8 is no text, but it is listed, compared and looked up like others: a byte that is part of
no character is spelled as a surrogate, which stands in no text and which no encoding writes.
-/

set_option autoImplicit false
set_option relaxedAutoImplicit false

namespace MarkupBinding

/-- The name of a file or a folder, by its bytes. -/
structure FileName where
  bytes : List UInt8
  deriving DecidableEq, Repr

namespace FileName

/-- The name that a text is. -/
def ofText (text : String) : FileName :=
  ⟨Text.utf8Encode text⟩

instance : Coe String FileName := ⟨ofText⟩

/-- The text that the name is, if it is one. -/
def text? (name : FileName) : Option String :=
  (Text.utf8Decode name.bytes).toOption

/-- The name as text, with a replacement character for bytes that are part of none. -/
def shown (name : FileName) : String :=
  Text.utf8Mend name.bytes

/-- The number of a character, or those of the surrogates for bytes that are part of none. -/
def spell : Text.Piece → List Nat
  | .char c => [c.toNat]
  | .fault e => e.bytes.map fun b ↦ 0xDC00 + b.toNat

/-- The numbers that the name is spelled with. -/
def spelling (name : FileName) : List Nat :=
  (Text.piecesFrom none 0 name.bytes).flatMap spell

/-- Names are in the order of their spellings. -/
instance : LT FileName := ⟨fun a b ↦ a.spelling < b.spelling⟩

instance : LE FileName := ⟨fun a b ↦ ¬ b < a⟩

instance (a b : FileName) : Decidable (a < b) :=
  inferInstanceAs (Decidable (a.spelling < b.spelling))

instance (a b : FileName) : Decidable (a ≤ b) :=
  inferInstanceAs (Decidable (¬ b < a))

end FileName

end MarkupBinding
