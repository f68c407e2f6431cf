import MarkupBinding.Value.Literal

/-!
# Writing JSON text

Three written forms share one writer: the spaced form with ASCII characters only, which text
bindings show; the compact form with all characters as they are, which answers and records use; and
the indented form of schema files. A record is written as an object of its fields, or as the text
of its summary where the form says so.
-/

set_option autoImplicit false
set_option relaxedAutoImplicit false

namespace MarkupBinding.Json

/-- What distinguishes the written forms. -/
structure Form where
  /-- Escape every character outside printable ASCII. -/
  asciiOnly : Bool
  /-- Between neighbours. -/
  comma : String
  /-- Between a key and its value. -/
  colon : String
  /-- Write a record as the text of its summary. -/
  summarize : Bool

/-- Blanks after commas and colons, ASCII only, records summarized. -/
def spaced : Form := ⟨true, ", ", ": ", true⟩

/-- No blanks and no needless escapes. -/
def compact : Form := ⟨false, ",", ":", false⟩

/-- Code units of a character: one, or a pair. -/
def codeUnits (n : Nat) : List Nat :=
  if n < 0x10000 then [n]
  else [0xD800 + (n - 0x10000) / 0x400, 0xDC00 + (n - 0x10000) % 0x400]

/-- A character as four-digit escapes of its code units. -/
def unicodeEscape (c : Char) : List Char :=
  (codeUnits c.toNat).flatMap fun unit ↦ '\\' :: 'u' :: Text.hexDigits 4 unit

/-- One character inside a string. -/
def writeChar (asciiOnly : Bool) (c : Char) : List Char :=
  if c = '"' then ['\\', '"']
  else if c = '\\' then ['\\', '\\']
  else if c = '\n' then ['\\', 'n']
  else if c = '\r' then ['\\', 'r']
  else if c = '\t' then ['\\', 't']
  else if c = '\x08' then ['\\', 'b']
  else if c = '\x0c' then ['\\', 'f']
  else if c.toNat < 0x20 then unicodeEscape c
  else if asciiOnly && 0x7e < c.toNat then unicodeEscape c
  else [c]

/-- A string with its quotes. -/
def writeString (asciiOnly : Bool) (s : String) : String :=
  String.ofList ('"' :: s.toList.flatMap (writeChar asciiOnly) ++ ['"'])

/-- A number of the binary format; the special ones have names. -/
def writeFloat : Binary64 → String
  | .nan => "NaN"
  | .infinite negative => if negative then "-Infinity" else "Infinity"
  | x => x.text

mutual

/-- A value in the given form. -/
def write (form : Form) : Value → String
  | .null => "null"
  | .bool b => if b then "true" else "false"
  | .int n => intText n
  | .float x => writeFloat x
  | .string s => writeString form.asciiOnly s
  | .list items => "[" ++ Text.join form.comma (writeItems form items) ++ "]"
  | .object fields => "\x7b" ++ Text.join form.comma (writeEntries form fields) ++ "\x7d"
  | .record _ fields =>
    if form.summarize then writeString form.asciiOnly (Value.summary fields)
    else "\x7b" ++ Text.join form.comma (writeFields form fields) ++ "\x7d"

/-- The items of a list. -/
def writeItems (form : Form) : List Value → List String
  | [] => []
  | v :: rest => write form v :: writeItems form rest

/-- The entries of an object. -/
def writeEntries (form : Form) : List (String × Value) → List String
  | [] => []
  | (key, v) :: rest =>
    (writeString form.asciiOnly key ++ form.colon ++ write form v) :: writeEntries form rest

/-- The fields of a record under their own names. -/
def writeFields (form : Form) : List (FieldName × Value) → List String
  | [] => []
  | (field, v) :: rest =>
    (writeString form.asciiOnly field.name ++ form.colon ++ write form v) :: writeFields form rest

end

/-- A line feed and four blanks per level. -/
def newline (level : Nat) : String :=
  String.ofList ('\n' :: List.replicate (4 * level) ' ')

/-- Parts one per line between brackets, or the brackets alone. -/
def bracketed (level : Nat) (opening closing : String) : List String → String
  | [] => opening ++ closing
  | parts => opening ++ newline (level + 1) ++ Text.join ("," ++ newline (level + 1)) parts ++
      newline level ++ closing

mutual

/-- A value with one item or entry per line, four blanks deeper per level, ASCII only. -/
def writeIndented (level : Nat) : Value → String
  | .list items => bracketed level "[" "]" (writeIndentedItems (level + 1) items)
  | .object fields => bracketed level "\x7b" "\x7d" (writeIndentedEntries (level + 1) fields)
  | other => write spaced other

/-- The items of a list at a level. -/
def writeIndentedItems (level : Nat) : List Value → List String
  | [] => []
  | v :: rest => writeIndented level v :: writeIndentedItems level rest

/-- The entries of an object at a level. -/
def writeIndentedEntries (level : Nat) : List (String × Value) → List String
  | [] => []
  | (key, v) :: rest =>
    (writeString true key ++ ": " ++ writeIndented level v) :: writeIndentedEntries level rest

end

/-- The indented text of a document. -/
def writeDocument (v : Value) : String :=
  writeIndented 0 v

mutual

/-- Whether every number in the value is finite, so that standard JSON can write it. -/
def isStandard : Value → Bool
  | .float (.finite _ _ _) => true
  | .float _ => false
  | .list items => areStandard items
  | .object fields => entriesStandard fields
  | .record _ fields => fieldsStandard fields
  | _ => true

/-- Whether every number in the items is finite. -/
def areStandard : List Value → Bool
  | [] => true
  | v :: rest => isStandard v && areStandard rest

/-- Whether every number in the entries is finite. -/
def entriesStandard : List (String × Value) → Bool
  | [] => true
  | (_, v) :: rest => isStandard v && entriesStandard rest

/-- Whether every number in the fields is finite. -/
def fieldsStandard : List (FieldName × Value) → Bool
  | [] => true
  | (_, v) :: rest => isStandard v && fieldsStandard rest

end

end MarkupBinding.Json
