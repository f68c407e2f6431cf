import MarkupBinding.Json.Fault
import MarkupBinding.Text.Quoted
import MarkupBinding.Text.Split
import MarkupBinding.Value.Basic

/-!
# Reading JSON text

`Json.parse` reads a text as one JSON value. Besides standard JSON it takes `NaN`, `Infinity` and
`-Infinity`. Of entries with equal keys the last value stands at the first place. Each reading
function returns the characters it did not use; a failure holds the characters from its place on,
so the place is known without counting.
-/

set_option autoImplicit false
set_option relaxedAutoImplicit false

namespace MarkupBinding.Json

/-- A fault and the characters from its place on. -/
structure Failure where
  fault : Fault
  rest : List Char

/-- The outcome of reading part of a text: what was read and the characters after it. -/
abbrev Reading (α : Type) := Except Failure (α × List Char)

/-- Space, tab, line feed and carriage return. -/
def isSpace (c : Char) : Bool :=
  c == ' ' || c == '\t' || c == '\n' || c == '\r'

/-- The characters after leading white space. -/
def skipSpace (cs : List Char) : List Char :=
  cs.dropWhile isSpace

/-- The number that four hexadecimal digits write. -/
def hexQuad? (a b c d : Char) : Option Nat := do
  let a ← Text.hexValue? a
  let b ← Text.hexValue? b
  let c ← Text.hexValue? c
  let d ← Text.hexValue? d
  return ((a * 16 + b) * 16 + c) * 16 + d

/-- The character for an escape of one letter. -/
def simpleEscape? : Char → Option Char
  | '"' => some '"'
  | '\\' => some '\\'
  | '/' => some '/'
  | 'b' => some '\x08'
  | 'f' => some '\x0c'
  | 'n' => some '\n'
  | 'r' => some '\r'
  | 't' => some '\t'
  | _ => none

/-- A code unit that begins a pair. -/
def isHighSurrogate (n : Nat) : Bool := 0xD800 ≤ n && n ≤ 0xDBFF

/-- A code unit that ends a pair. -/
def isLowSurrogate (n : Nat) : Bool := 0xDC00 ≤ n && n ≤ 0xDFFF

/-- The character of a code unit; one that stands for no character becomes the replacement
character. -/
def charOfUnit (n : Nat) : Char :=
  if isHighSurrogate n || isLowSurrogate n then Char.ofNat 0xFFFD else Char.ofNat n

/-- The character of a pair of code units. -/
def charOfPair (high low : Nat) : Char :=
  Char.ofNat (0x10000 + (high - 0xD800) * 0x400 + (low - 0xDC00))

/-- The characters of a string's code units: a pair of surrogates is one character. A surrogate
without its partner is no character, and the replacement character stands for it. -/
def joinUnits : List Nat → List Char
  | [] => []
  | [unit] => [charOfUnit unit]
  | high :: low :: rest =>
    if isHighSurrogate high && isLowSurrogate low then charOfPair high low :: joinUnits rest
    else charOfUnit high :: joinUnits (low :: rest)

/-- One more code unit before what was read. -/
def consUnit (unit : Nat) : Reading (List Nat) → Reading (List Nat)
  | .ok (units, rest) => .ok (unit :: units, rest)
  | .error e => .error e

/-- Reads the code units of a string up to its closing quote; `start` is the text from the opening
quote on. An escape of four digits must not be the last thing in the text. -/
def readUnits (start : List Char) : List Char → Reading (List Nat)
  | [] => .error ⟨.unterminatedString, start⟩
  | '"' :: rest => .ok ([], rest)
  | '\\' :: 'u' :: a :: b :: c :: d :: rest =>
    match rest.isEmpty, hexQuad? a b c d with
    | false, some unit => consUnit unit (readUnits start rest)
    | _, _ => .error ⟨.badUnicodeEscape, 'u' :: a :: b :: c :: d :: rest⟩
  | '\\' :: c :: rest =>
    match simpleEscape? c with
    | some escaped => consUnit escaped.toNat (readUnits start rest)
    | none =>
      if c = 'u' then .error ⟨.badUnicodeEscape, c :: rest⟩
      else .error ⟨.badEscape, '\\' :: c :: rest⟩
  | c :: rest =>
    if c = '\\' then .error ⟨.unterminatedString, start⟩
    else if c.toNat < 0x20 then .error ⟨.controlCharacter, c :: rest⟩
    else consUnit c.toNat (readUnits start rest)

/-- Reads a string after its opening quote; `start` is the text from that quote on. -/
def readString (start rest : List Char) : Reading String :=
  match readUnits start rest with
  | .ok (units, rest) => .ok (String.ofList (joinUnits units), rest)
  | .error e => .error e

/-- The number that decimal digits write. -/
def digitsValue (digits : List Char) : Nat :=
  digits.foldl (fun n c ↦ n * 10 + (c.toNat - 48)) 0

/-- The text of a number cut into its parts. -/
structure NumberParts where
  negative : Bool
  whole : List Char
  fraction : Option (List Char)
  exponent : Option (Bool × List Char)

/-- The digits before the point: a lone zero, or digits that begin with another one. -/
def readWhole : List Char → Option (List Char × List Char)
  | '0' :: rest => some (['0'], rest)
  | c :: rest =>
    if c.isDigit then
      some (c :: rest.takeWhile Char.isDigit, rest.dropWhile Char.isDigit)
    else none
  | [] => none

/-- The digits behind a point, if there are any. -/
def readFraction : List Char → Option (List Char) × List Char
  | '.' :: rest =>
    match rest.takeWhile Char.isDigit with
    | [] => (none, '.' :: rest)
    | digits => (some digits, rest.dropWhile Char.isDigit)
  | cs => (none, cs)

/-- The sign of an exponent and the characters after it. -/
def readExponentSign : List Char → Bool × List Char
  | '-' :: rest => (true, rest)
  | '+' :: rest => (false, rest)
  | cs => (false, cs)

/-- The sign and digits of an exponent, if there are any. -/
def readExponent : List Char → Option (Bool × List Char) × List Char
  | c :: rest =>
    if c == 'e' || c == 'E' then
      let (negative, after) := readExponentSign rest
      match after.takeWhile Char.isDigit with
      | [] => (none, c :: rest)
      | digits => (some (negative, digits), after.dropWhile Char.isDigit)
    else (none, c :: rest)
  | [] => (none, [])

/-- Cuts the longest number off the front. -/
def readNumber (cs : List Char) : Option (NumberParts × List Char) :=
  let (negative, unsigned) := match cs with
    | '-' :: rest => (true, rest)
    | _ => (false, cs)
  match readWhole unsigned with
  | none => none
  | some (whole, afterWhole) =>
    let (fraction, afterFraction) := readFraction afterWhole
    let (exponent, rest) := readExponent afterFraction
    some (⟨negative, whole, fraction, exponent⟩, rest)

/-- The value of a number: whole unless it has a fraction or an exponent. -/
def NumberParts.value? (n : NumberParts) : Option Value :=
  match n.fraction, n.exponent with
  | none, none =>
    if integerLimit < n.whole.length then none
    else
      let magnitude := Int.ofNat (digitsValue n.whole)
      some (.int (if n.negative then -magnitude else magnitude))
  | fraction, exponent =>
    let places := fraction.getD []
    let power := match exponent with
      | none => 0
      | some (negative, digits) =>
        let size := Int.ofNat (digitsValue digits)
        if negative then -size else size
    some (.float (.ofDecimal n.negative (digitsValue (n.whole ++ places))
      (power - Int.ofNat places.length)))

/-- The words that stand for a value. -/
def words : List (List Char × Value) :=
  [("null".toList, .null), ("true".toList, .bool true), ("false".toList, .bool false),
    ("NaN".toList, .float .nan), ("Infinity".toList, .float (.infinite false)),
    ("-Infinity".toList, .float (.infinite true))]

/-- Reads a word or a number. -/
def readScalar (cs : List Char) : Reading Value :=
  match words.findSome? fun (word, v) ↦ (Text.after? word cs).map fun rest ↦ (v, rest) with
  | some found => .ok found
  | none =>
    match readNumber cs with
    | none => .error ⟨.expectingValue, cs⟩
    | some (parts, rest) =>
      match parts.value? with
      | some v => .ok (v, rest)
      | none => .error ⟨.hugeInteger parts.whole.length, cs⟩

mutual

/-- Reads a value that begins at the first character. -/
def readValue : Nat → List Char → Reading Value
  | 0, cs => .error ⟨.expectingValue, cs⟩
  | fuel + 1, cs =>
    match cs with
    | '"' :: rest =>
      match readString cs rest with
      | .ok (s, rest) => .ok (.string s, rest)
      | .error e => .error e
    | '[' :: rest =>
      match skipSpace rest with
      | ']' :: rest => .ok (.list [], rest)
      | rest =>
        match readItems fuel rest with
        | .ok (items, rest) => .ok (.list items, rest)
        | .error e => .error e
    | '\x7b' :: rest =>
      match skipSpace rest with
      | '\x7d' :: rest => .ok (.object [], rest)
      | rest =>
        match readEntries fuel rest with
        | .ok (entries, rest) => .ok (.object (Keyed.ofPairs entries), rest)
        | .error e => .error e
    | _ => readScalar cs

/-- Reads the items of a list up to its closing bracket. -/
def readItems : Nat → List Char → Reading (List Value)
  | 0, cs => .error ⟨.expectingValue, cs⟩
  | fuel + 1, cs =>
    match readValue fuel cs with
    | .error e => .error e
    | .ok (item, rest) =>
      match skipSpace rest with
      | ']' :: rest => .ok ([item], rest)
      | ',' :: rest =>
        match readItems fuel (skipSpace rest) with
        | .ok (items, rest) => .ok (item :: items, rest)
        | .error e => .error e
      | rest => .error ⟨.expectingComma, rest⟩

/-- Reads the entries of an object up to its closing brace. -/
def readEntries : Nat → List Char → Reading (List (String × Value))
  | 0, cs => .error ⟨.expectingName, cs⟩
  | fuel + 1, cs =>
    match cs with
    | '"' :: rest =>
      match readString cs rest with
      | .error e => .error e
      | .ok (key, rest) =>
        match skipSpace rest with
        | ':' :: rest =>
          match readValue fuel (skipSpace rest) with
          | .error e => .error e
          | .ok (v, rest) =>
            match skipSpace rest with
            | '\x7d' :: rest => .ok ([(key, v)], rest)
            | ',' :: rest =>
              match readEntries fuel (skipSpace rest) with
              | .ok (entries, rest) => .ok ((key, v) :: entries, rest)
              | .error e => .error e
            | rest => .error ⟨.expectingComma, rest⟩
        | rest => .error ⟨.expectingColon, rest⟩
    | _ => .error ⟨.expectingName, cs⟩

end

/-- Reads a whole text: one value with white space around it. -/
def readText (cs : List Char) : Except Failure Value :=
  match cs with
  | '\ufeff' :: _ => .error ⟨.byteOrderMark, cs⟩
  | _ =>
    match readValue (2 * cs.length + 2) (skipSpace cs) with
    | .error e => .error e
    | .ok (v, rest) =>
      match skipSpace rest with
      | [] => .ok v
      | rest => .error ⟨.extraData, rest⟩

/-- The JSON value of a text. -/
def parse (s : String) : Except Error Value :=
  let cs := s.toList
  match readText cs with
  | .ok v => .ok v
  | .error e => .error (.after (cs.take (cs.length - e.rest.length)) e.fault)

end MarkupBinding.Json
