import MarkupBinding.Text.Case
import MarkupBinding.Text.DigitClass
import MarkupBinding.Text.Split
import MarkupBinding.Text.WordClass

/-!
# Names of generated records

A template name becomes the name of a record class (`order-line` gives `OrderLine`) or of a record
field (`order-line` gives `order_line`). A field name avoids the reserved words of the language in
which records are written and the members that every record has, by an underscore at its end.
-/

set_option autoImplicit false
set_option relaxedAutoImplicit false

namespace MarkupBinding.RecordName

/-- A letter or digit of the basic alphabet. -/
def isBasic (c : Char) : Bool :=
  c.isAlphanum

/-- The maximal runs of letters and digits of the basic alphabet. -/
def basicParts : List Char → List (List Char)
  | [] => []
  | c :: rest =>
    if !isBasic c then basicParts rest
    else match rest, basicParts rest with
      | d :: _, part :: parts => if isBasic d then (c :: part) :: parts else [c] :: part :: parts
      | _, parts => [c] :: parts

/-- A part with its first letter as a capital. -/
def capitalized : List Char → List Char
  | [] => []
  | c :: rest => c.toUpper :: rest

/-- The characters of a class name: the parts run together, each with a capital letter, `Record`
when there is none, and an `R` in front of a digit. -/
def classChars (cs : List Char) : List Char :=
  match (basicParts cs).flatMap capitalized with
  | [] => "Record".toList
  | c :: rest => if c.isDigit then 'R' :: c :: rest else c :: rest

/-- The class name for a template name. -/
def className (name : String) : String :=
  String.ofList (classChars name.toList)

/-- The reserved words of the language in which records are written. -/
def reservedWords : List String :=
  ["False", "None", "True", "and", "as", "assert", "async", "await", "break", "class", "continue",
    "def", "del", "elif", "else", "except", "finally", "for", "from", "global", "if", "import",
    "in", "is", "lambda", "nonlocal", "not", "or", "pass", "raise", "return", "try", "while",
    "with", "yield"]

/-- The members that every record class answers to by a name without an underscore in front. What
they are is taken as given for the classes that records are built on: the lookup of records itself,
what their base class offers (names in the part that begins with `model_` apart), and `mro` and
`register`, which a class has from its own class. -/
def recordMembers : List String :=
  ["construct", "copy", "dict", "from_orm", "json", "lookup", "mro", "parse_file", "parse_obj",
    "parse_raw", "register", "schema", "schema_json", "update_forward_refs", "validate"]

/-- A name that no field may have: a reserved word, a member of records, or a name in the part of
the name space that records keep for themselves. -/
def isTaken (name : List Char) : Bool :=
  let s := String.ofList name
  reservedWords.contains s || Text.startsWith "model_".toList name || recordMembers.contains s

/-- The characters of a name with an underscore for each that is no word character, and no
underscore in front. -/
def wordChars (cs : List Char) : List Char :=
  (cs.map fun c ↦ if Text.isWord c then c else '_').dropWhile (· == '_')

/-- A name that is not empty and does not begin with a digit. -/
def started (cs : List Char) : List Char :=
  match cs with
  | [] => "field".toList
  | c :: rest => if Text.isDigit c then "field_".toList ++ c :: rest else c :: rest

/-- The field name for a template name. -/
def fieldName (name : String) : String :=
  let cs := started (wordChars name.toList)
  String.ofList (if isTaken cs then cs ++ ['_'] else cs)

end MarkupBinding.RecordName
