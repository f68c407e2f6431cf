import MarkupBinding.Keyed
import MarkupBinding.Text.Blank
import MarkupBinding.Text.Encoding

/-!
# Files of assignments

A file of assignments gives values to names, one on a line: a name, a sign of equality and a value,
with `export` in front or not. A value stands bare up to the end of the line or a comment, or in
quotes of either kind, and then it may go on over lines. A line that is no assignment is skipped. In
a value, `$` and a name in braces stand for the value of the name, with a default behind `:-`.
-/

set_option autoImplicit false
set_option relaxedAutoImplicit false

namespace MarkupBinding.Assignments

/-- A blank that does not end a line. -/
def isInlineBlank (c : Char) : Bool :=
  Text.isBlank c && c != '\n' && c != '\r'

/-- The rest of a line behind blanks. -/
def skipInline (cs : List Char) : List Char :=
  cs.dropWhile isInlineBlank

/-- The text behind the end of the line one is on. -/
def nextLine (cs : List Char) : List Char :=
  (cs.dropWhile (· != '\n')).drop 1

/-- The text up to the closing quote and the rest. A quote with a backslash in front closes only
where no other one does. -/
def readQuoted (quote : Char) : List Char → Option (List Char × List Char)
  | [] => none
  | '\\' :: c :: rest =>
    if c = quote then
      match readQuoted quote rest with
      | some (text, rest) => some ('\\' :: quote :: text, rest)
      | none => some (['\\'], rest)
    else (readQuoted quote (c :: rest)).map fun (text, rest) ↦ ('\\' :: text, rest)
  | c :: rest =>
    if c = quote then some ([], rest)
    else (readQuoted quote rest).map fun (text, rest) ↦ (c :: text, rest)

/-- The characters that a backslash changes between single quotes. -/
def singleEscapes : List (Char × Char) := [('\\', '\\'), ('\'', '\'')]

/-- The characters that a backslash changes between double quotes. -/
def doubleEscapes : List (Char × Char) :=
  [('\\', '\\'), ('\'', '\''), ('"', '"'), ('a', '\x07'), ('b', '\x08'), ('f', '\x0c'),
    ('n', '\n'), ('r', '\r'), ('t', '\t'), ('v', '\x0b')]

/-- The text with its escapes decoded. -/
def unescape (escapes : List (Char × Char)) : List Char → List Char
  | [] => []
  | '\\' :: c :: rest =>
    match escapes.lookup c with
    | some d => d :: unescape escapes rest
    | none => '\\' :: unescape escapes (c :: rest)
  | c :: rest => c :: unescape escapes rest

/-- The part of a bare value in front of a comment, which begins with a number sign behind a blank.
-/
def withoutComment : List Char → List Char
  | [] => []
  | c :: rest =>
    if Text.isBlank c && (rest.dropWhile Text.isBlank).head? == some '#' then []
    else c :: withoutComment rest

/-- Reads a value and gives the rest of the text. -/
def readValue (cs : List Char) : Option (String × List Char) :=
  match cs with
  | '\'' :: rest =>
    (readQuoted '\'' rest).map fun (text, rest) ↦
      (String.ofList (unescape singleEscapes text), rest)
  | '"' :: rest =>
    (readQuoted '"' rest).map fun (text, rest) ↦
      (String.ofList (unescape doubleEscapes text), rest)
  | _ =>
    let (line, rest) := cs.span (· != '\n')
    some (String.ofList ((withoutComment line).reverse.dropWhile Text.isBlank).reverse, rest)

/-- The text behind `export` and blanks, if that is in front. -/
def skipExport (cs : List Char) : List Char :=
  match Text.after? "export".toList cs with
  | some (c :: rest) => if isInlineBlank c then skipInline rest else cs
  | _ => cs

/-- Reads a name, bare or in single quotes; a comment has none. -/
def readName (cs : List Char) : Option (Option String × List Char) :=
  match cs with
  | '#' :: _ => some (none, cs)
  | '\'' :: rest =>
    match rest.span (· != '\'') with
    | (name, _ :: rest) => if name.isEmpty then none else some (some (String.ofList name), rest)
    | (_, []) => none
  | _ =>
    match cs.span fun c ↦ !(c == '=' || c == '#' || Text.isBlank c) with
    | ([], _) => none
    | (name, rest) => some (some (String.ofList name), rest)

/-- The text behind a comment and the end of the line, if nothing else is on it. -/
def endLine (cs : List Char) : Option (List Char) :=
  let rest := match skipInline cs with
    | '#' :: rest => rest.dropWhile (· != '\n')
    | rest => rest
  match skipInline rest with
  | [] => some []
  | '\n' :: rest => some rest
  | _ => none

/-- Reads one line: the name and value on it, and the rest; where it is no assignment, the text
behind the place of the fault. -/
def readLine (cs : List Char) : Except (List Char) (Option (String × Option String) × List Char) :=
  match readName (skipExport cs) with
  | none => .error (skipExport cs)
  | some (name, rest) =>
    let behind := skipInline rest
    let value : Except (List Char) (Option String × List Char) :=
      match behind with
      | '=' :: rest =>
        match readValue (skipInline rest) with
        | some (v, rest) => .ok (some v, rest)
        | none => .error (skipInline rest)
      | _ => .ok (none, behind)
    match value with
    | .error rest => .error rest
    | .ok (value, rest) =>
      match endLine rest with
      | none => .error rest
      | some next => .ok (name.map fun name ↦ (name, value), next)

/-- Reads lines; `fuel` bounds their number. -/
def readLines : Nat → List Char → List (String × Option String)
  | 0, _ => []
  | fuel + 1, cs =>
    match cs.dropWhile Text.isBlank with
    | [] => []
    | cs =>
      match readLine cs with
      | .error rest => readLines fuel (nextLine rest)
      | .ok (none, rest) => readLines fuel rest
      | .ok (some pair, rest) => pair :: readLines fuel rest

/-- Splits the inside of braces into a name and a default. -/
def splitDefault : List Char → Option (List Char × List Char)
  | [] => some ([], [])
  | ':' :: '-' :: default => some ([], default)
  | ':' :: _ => none
  | c :: rest => (splitDefault rest).map fun (name, default) ↦ (c :: name, default)

/-- The text with the names in braces replaced by their values; `fuel` bounds their number. -/
def fillIn (values : List (String × String)) : Nat → List Char → List Char
  | 0, cs => cs
  | _, [] => []
  | fuel + 1, '$' :: '\x7b' :: rest =>
    match rest.span (· != '\x7d') with
    | (_, []) => '$' :: fillIn values fuel ('\x7b' :: rest)
    | (inside, _ :: after) =>
      match splitDefault inside with
      | none => '$' :: fillIn values fuel ('\x7b' :: rest)
      | some (name, default) =>
        ((values.lookup (String.ofList name)).map String.toList).getD default ++
          fillIn values fuel after
  | fuel + 1, c :: rest => c :: fillIn values fuel rest

/-- The assignments carried out in order: a value may use the surroundings and what is assigned
before it. -/
def assignAll (around : List (String × String)) (done : List (String × Option String)) :
    List (String × Option String) → List (String × Option String)
  | [] => done
  | (name, value) :: rest =>
    let known := Keyed.update around
      (done.map fun (name, value) ↦ (name, value.getD ""))
    let value := value.map fun v ↦
      String.ofList (fillIn known (v.toList.length + 1) v.toList)
    assignAll around (Keyed.set name value done) rest

/-- The values that a file of assignments gives to names. -/
def read (around : List (String × String)) (text : String) : List (String × String) :=
  let cs := Text.unifyLineEnds text.toList
  (assignAll around [] (readLines (cs.length + 1) cs)).filterMap fun (name, value) ↦
    value.map fun value ↦ (name, value)

end MarkupBinding.Assignments
