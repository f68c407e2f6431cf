import MarkupBinding.Markup.Reference
import MarkupBinding.Text.Blank
import MarkupBinding.Text.Case

/-!
# Markup events

A markup text is read as a sequence of events: start tags, end tags, character data and the bodies
of comments and other declarations. Reading is lenient: whatever is not a construct is character
data. It makes two runs over the text. The first stops at the first construct that the text leaves
unfinished; the second goes on from there, takes unfinished constructs as character data, and makes
all that remains character data where it has to stop. Only a marked section of an unknown kind is
refused.
-/

set_option autoImplicit false
set_option relaxedAutoImplicit false

namespace MarkupBinding.Markup

/-- An event of reading markup text. -/
inductive Event where
  /-- A start tag, with its attributes as written; `closed` for `<name/>`. -/
  | startTag (name : String) (attrs : List (String × String)) (closed : Bool)
  | endTag (name : String)
  | data (chars : List Char)
  | comment (body : List Char)
  | doctype (body : List Char)
  | declaration (body : List Char)
  | instruction (body : List Char)
  deriving Repr

/-! ### Character classes and searching -/

/-- A letter of the basic alphabet. -/
def isLetter (c : Char) : Bool :=
  c.isAlpha

/-- The characters that end the name of a tag. -/
def endsTagName (c : Char) : Bool :=
  c == '\t' || c == '\n' || c == '\r' || c == '\x0c' || c == ' ' || c == '/' || c == '>' ||
    c == '\x00'

/-- The characters before the first match of a pattern and those after the match. -/
def search (pattern : List Char → Option (List Char)) :
    List Char → Option (List Char × List Char)
  | [] => (pattern []).map fun rest ↦ ([], rest)
  | c :: cs =>
    match pattern (c :: cs) with
    | some rest => some ([], rest)
    | none => (search pattern cs).map fun (before, rest) ↦ (c :: before, rest)

/-- A pattern for given characters, in any case, ASCII only. -/
def literally : List Char → List Char → Option (List Char)
  | [], cs => some cs
  | _ :: _, [] => none
  | p :: ps, c :: cs => if p.toLower = c.toLower then literally ps cs else none

/-- Blanks and then one given character. -/
def blanksThen (c : Char) (cs : List Char) : Option (List Char) :=
  Text.after? [c] (cs.dropWhile Text.isBlank)

/-- The end of a comment: two hyphens, blanks, an angle bracket. -/
def commentEnd (cs : List Char) : Option (List Char) :=
  (Text.after? ['-', '-'] cs).bind (blanksThen '>')

/-- The end of a marked section: two brackets and an angle bracket with blanks between. -/
def sectionEnd (cs : List Char) : Option (List Char) :=
  ((Text.after? [']'] cs).bind (blanksThen ']')).bind (blanksThen '>')

/-- The end of a conditional section: a bracket, blanks, an angle bracket. -/
def conditionEnd (cs : List Char) : Option (List Char) :=
  (Text.after? [']'] cs).bind (blanksThen '>')

/-- The end tag that closes raw text: blanks around the name. -/
def rawTextEnd (name : List Char) (cs : List Char) : Option (List Char) :=
  ((Text.after? ['<', '/'] cs).map (·.dropWhile Text.isBlank)).bind fun cs ↦
    (literally name cs).bind (blanksThen '>')

/-! ### Start tags -/

/-- What was read of an attribute: name, value, the last character used, and the rest. -/
structure AttrRead where
  name : List Char
  value : Option (List Char)
  last : Char
  rest : List Char

/-- The characters up to a closing quote and those after it. -/
def quotedValue (quote : Char) (cs : List Char) : Option (List Char × List Char) :=
  Text.cutOnce quote cs

/-- The last of the characters, or another one if there are none. -/
def lastOr (other : Char) (cs : List Char) : Char :=
  cs.getLast?.getD other

/-- A value without quotes: up to a blank or an angle bracket. -/
def bareValue (cs : List Char) : List Char × List Char :=
  (cs.takeWhile fun c ↦ !(c == '>' || Text.isBlank c),
    cs.dropWhile fun c ↦ !(c == '>' || Text.isBlank c))

/-- Reads the value of an attribute after its name: equals signs with blanks around them, then a
value in quotes or a bare one. Where a quote is not closed, the value is empty if a blank stands
before the quote, and else begins at the last but one equals sign; with a single equals sign there
is no value. -/
def readAttrValue (cs : List Char) : Option (List Char × Char × List Char) :=
  let fromEquals := cs.dropWhile Text.isBlank
  let equals := fromEquals.takeWhile (· == '=')
  let afterEquals := fromEquals.dropWhile (· == '=')
  let blanks := afterEquals.takeWhile Text.isBlank
  let start := afterEquals.dropWhile Text.isBlank
  if equals.isEmpty then none
  else
    let bare := let (value, rest) := bareValue start
      some (value, lastOr (lastOr '=' blanks) value, rest)
    match start with
    | [] => bare
    | c :: more =>
      if c == '\'' || c == '"' then
        match quotedValue c more with
        | some (value, rest) => some (value, c, rest)
        | none =>
          match blanks.getLast? with
          | some blank => some ([], lastOr '=' blanks.dropLast, blank :: start)
          | none =>
            if equals.length < 2 then none
            else
              let (value, rest) := bareValue ('=' :: start)
              some (value, lastOr '=' value, rest)
      else bare

/-- An attribute may begin after a quote, a blank or a slash. -/
def allowsAttr (previous : Char) : Bool :=
  previous == '\'' || previous == '"' || previous == '/' || Text.isBlank previous

/-- Reads one attribute, if one begins here. -/
def readAttr (previous : Char) (cs : List Char) : Option AttrRead :=
  match cs with
  | [] => none
  | c :: more =>
    if allowsAttr previous && !(Text.isBlank c || c == '/' || c == '>') then
      let ends := fun c ↦ Text.isBlank c || c == '/' || c == '=' || c == '>'
      let name := c :: more.takeWhile fun c ↦ !ends c
      let afterName := more.dropWhile fun c ↦ !ends c
      match readAttrValue afterName with
      | some (value, last, rest) => some ⟨name, some value, last, rest⟩
      | none => some ⟨name, none, lastOr c name, afterName⟩
    else none

/-- Skips blanks and slashes, but not a slash before an angle bracket; the last character skipped
is returned with the rest. -/
def skipSeparators (previous : Char) : List Char → Char × List Char
  | [] => (previous, [])
  | ['/'] => ('/', [])
  | '/' :: '>' :: rest => (previous, '/' :: '>' :: rest)
  | c :: rest =>
    if c == '/' || Text.isBlank c then skipSeparators c rest else (previous, c :: rest)

/-- Reads attributes until none begins; `fuel` bounds their number. -/
def readAttrs : Nat → Char → List Char → List (List Char × Option (List Char)) × List Char
  | 0, _, cs => ([], cs)
  | fuel + 1, previous, cs =>
    let (previous, cs) := skipSeparators previous cs
    match readAttr previous cs with
    | none => ([], cs)
    | some read =>
      let (attrs, rest) := readAttrs fuel read.last read.rest
      ((read.name, read.value) :: attrs, rest)

/-- An attribute as the event holds it: the name in small letters, the references of the value
decoded, a missing value empty. -/
def attrPair (attr : List Char × Option (List Char)) : String × String :=
  (Text.lower (String.ofList attr.1),
    String.ofList (Reference.decodeValue (attr.2.getD [])))

/-- The outcome of reading a construct: unfinished, refused, or events with the rest. -/
inductive Construct where
  | unfinished
  | refused
  | found (events : List Event) (rest : List Char)

/-- Reads a start tag; `cs` begins behind the angle bracket with a letter. A tag that breaks off
before a character that cannot stand there is character data. -/
def readStartTag (cs : List Char) : Construct :=
  let name := cs.takeWhile fun c ↦ !endsTagName c
  let afterName := cs.dropWhile fun c ↦ !endsTagName c
  let (attrs, rest) := readAttrs (afterName.length + 1) (lastOr '<' name) afterName
  let tag := fun closed ↦
    Event.startTag (Text.lower (String.ofList name)) (attrs.map attrPair) closed
  match rest with
  | '>' :: rest => .found [tag false] rest
  | '/' :: '>' :: rest => .found [tag true] rest
  | [] => .unfinished
  | c :: _ =>
    if isLetter c || c == '=' || c == '/' then .unfinished
    else .found [.data ('<' :: cs.take (cs.length - rest.length))] rest

/-! ### Other constructs -/

/-- Reads an end tag; `cs` begins behind `</`. What follows the name is dropped; without a name at
once behind the slash it is a comment, or nothing if it is empty. -/
def readEndTag (cs : List Char) : Construct :=
  match Text.cutOnce '>' cs with
  | none => .unfinished
  | some (inside, rest) =>
    let trimmed := inside.dropWhile Text.isBlank
    let strict := trimmed.takeWhile fun c ↦
      c.isAlphanum || c == '-' || c == '.' || c == ':' || c == '_'
    let afterStrict := trimmed.dropWhile fun c ↦
      c.isAlphanum || c == '-' || c == '.' || c == ':' || c == '_'
    let endTag := fun name ↦ Construct.found [.endTag (Text.lower (String.ofList name))] rest
    if strict.head?.any isLetter && afterStrict.all Text.isBlank then endTag strict
    else if inside.head?.any isLetter then endTag (inside.takeWhile fun c ↦ !endsTagName c)
    else if inside.isEmpty then .found [] rest
    else .found [.comment inside] rest

/-- A construct that ends at the first angle bracket. -/
def readToBracket (event : List Char → Event) (cs : List Char) : Construct :=
  match Text.cutOnce '>' cs with
  | none => .unfinished
  | some (body, rest) => .found [event body] rest

/-- A construct that ends at the first match of a pattern. -/
def readToMatch (pattern : List Char → Option (List Char)) (event : List Char → Event)
    (cs : List Char) : Construct :=
  match search pattern cs with
  | none => .unfinished
  | some (body, rest) => .found [event body] rest

/-- The kinds of marked section that end with two brackets. -/
def sectionKinds : List String := ["temp", "cdata", "ignore", "include", "rcdata"]

/-- The kinds of marked section that end with one bracket. -/
def conditionKinds : List String := ["if", "else", "endif"]

/-- Reads a marked section; `cs` begins behind `<![`. -/
def readSection (cs : List Char) : Construct :=
  let isPart := fun (c : Char) ↦ c.isAlphanum || c == '-' || c == '_' || c == '.'
  match cs with
  | [] => .unfinished
  | c :: _ =>
    if !isLetter c then .refused
    else if ((cs.dropWhile isPart).dropWhile Text.isBlank).isEmpty then .unfinished
    else
      let kind := String.ofList ((cs.takeWhile isPart).map Char.toLower)
      if sectionKinds.contains kind then readToMatch sectionEnd .declaration cs
      else if conditionKinds.contains kind then readToMatch conditionEnd .declaration cs
      else .refused

/-- The part of a document type that names it: behind the keyword and one more character. -/
def doctypeBody (inside : List Char) : List Char :=
  inside.drop 1

/-- Reads the construct that begins with an angle bracket; `cs` is what follows the bracket.
`none` where the bracket begins nothing. -/
def readConstruct (cs : List Char) : Option Construct :=
  match cs with
  | '/' :: rest => some (readEndTag rest)
  | '!' :: '-' :: '-' :: rest => some (readToMatch commentEnd .comment rest)
  | '!' :: '[' :: rest => some (readSection rest)
  | '!' :: rest =>
    match literally "doctype".toList rest with
    | some inside => some (readToBracket (fun body ↦ .doctype (doctypeBody body)) inside)
    | none => some (readToBracket .comment rest)
  | '?' :: rest => some (readToBracket .instruction rest)
  | c :: _ => if isLetter c then some (readStartTag cs) else none
  | [] => none

/-- What an unfinished construct becomes: character data up to the next closing bracket, else up
to the next opening one, else the bracket alone. `cs` is what follows the bracket. -/
def unfinishedData (cs : List Char) : Event × List Char :=
  match Text.cutOnce '>' cs with
  | some (inside, rest) => (.data ('<' :: inside ++ ['>']), rest)
  | none =>
    match Text.cutOnce '<' cs with
    | some (inside, rest) => (.data ('<' :: inside), '<' :: rest)
    | none => (.data ['<'], cs)

/-! ### References in character data -/

/-- The reference behind an ampersand in character data. -/
inductive ReferenceRead where
  /-- Character data and the rest. -/
  | found (chars : List Char) (rest : List Char)
  /-- Reading cannot go on in this run: character data and the rest. -/
  | stuck (chars : List Char) (rest : List Char)

/-- Reads a numeric reference; `cs` begins behind `&#`. The digits must be followed by a character
that is no hexadecimal digit. -/
def readNumeric (cs : List Char) : ReferenceRead :=
  let stuck := if cs.contains ';' then ReferenceRead.stuck ['&', '#'] cs
    else .stuck [] ('&' :: '#' :: cs)
  let finish := fun (n : Nat) (rest : List Char) ↦
    match rest with
    | [] => stuck
    | c :: _ =>
      if Reference.isHexDigit c then stuck
      else .found [Reference.numeric n] (Reference.dropSemicolon rest)
  match cs.takeWhile Char.isDigit with
  | [] =>
    match cs with
    | x :: hex =>
      if (x == 'x' || x == 'X') && hex.head?.any Reference.isHexDigit then
        finish (Reference.hexNumber (hex.takeWhile Reference.isHexDigit))
          (hex.dropWhile Reference.isHexDigit)
      else stuck
    | [] => stuck
  | digits => finish (Json.digitsValue digits) (cs.dropWhile Char.isDigit)

/-- The character that a name stands for, or the name as it was written. -/
def namedData (name : List Char) : List Char :=
  match Reference.character? (String.ofList name) with
  | some c => [c]
  | none => '&' :: name

/-- Reads what follows an ampersand. A name must be followed by a character that is no letter or
digit; where it reaches the end of the text it is cut before its last hyphen or dot. In the last
run an ampersand before a single final letter is dropped. -/
def readReference (lastRun : Bool) (cs : List Char) : ReferenceRead :=
  let isPart := fun (c : Char) ↦ c.isAlphanum || c == '-' || c == '.'
  match cs with
  | [] => .stuck [] ['&']
  | '#' :: rest => readNumeric rest
  | c :: more =>
    if !isLetter c then .found ['&'] cs
    else
      let name := c :: more.takeWhile isPart
      match more.dropWhile isPart with
      | [] =>
        match name.reverse.dropWhile Char.isAlphanum with
        | [] => if lastRun && more.isEmpty then .stuck [] cs else .stuck [] ('&' :: cs)
        | _ :: front => .found (namedData front.reverse) (cs.drop front.length)
      | rest => .found (namedData name) (Reference.dropSemicolon rest)

/-! ### The two runs -/

/-- What a run has read: its events, the raw text element it is inside of, and the rest that it
left. -/
structure Run where
  events : List Event
  rawText : Option (List Char)
  rest : List Char

/-- The elements whose content is raw text. -/
def rawTextNames : List String := ["script", "style"]

/-- The raw text element that an event opens. -/
def opensRawText : List Event → Option (List Char)
  | [.startTag name _ false] => if rawTextNames.contains name then some name.toList else none
  | _ => none

/-- Character data as an event, if there is any. -/
def dataEvents : List Char → List Event
  | [] => []
  | chars => [.data chars]

/-- The run with events put in front. -/
def Run.after (events : List Event) (r : Run) : Run :=
  { r with events := events ++ r.events }

/-- Reads as far as a run gets, or refuses. `fuel` bounds the number of steps, each of which uses
at least one character. -/
def run (lastRun : Bool) : Nat → Option (List Char) → List Char → Option Run
  | 0, rawText, cs => some ⟨[], rawText, cs⟩
  | _, rawText, [] => some ⟨[], rawText, []⟩
  | fuel + 1, some name, cs =>
    match search (rawTextEnd name) cs with
    | none => some ⟨[], some name, cs⟩
    | some (body, rest) =>
      (run lastRun fuel none rest).map
        (·.after (dataEvents body ++ [.endTag (String.ofList name)]))
  | fuel + 1, none, '<' :: cs =>
    match readConstruct cs with
    | some .refused => none
    | some (.found events rest) =>
      (run lastRun fuel (opensRawText events) rest).map (·.after events)
    | some .unfinished =>
      if lastRun then
        let (event, rest) := unfinishedData cs
        (run lastRun fuel none rest).map (·.after [event])
      else some ⟨[], none, '<' :: cs⟩
    | none =>
      if cs.isEmpty then some ⟨[], none, ['<']⟩
      else (run lastRun fuel none cs).map (·.after [.data ['<']])
  | fuel + 1, none, '&' :: cs =>
    match readReference lastRun cs with
    | .found chars rest => (run lastRun fuel none rest).map (·.after (dataEvents chars))
    | .stuck chars rest => some ⟨dataEvents chars, none, rest⟩
  | fuel + 1, none, c :: cs =>
    let isPlain := fun c ↦ !(c == '<' || c == '&')
    (run lastRun fuel none (cs.dropWhile isPlain)).map
      (·.after [.data (c :: cs.takeWhile isPlain)])

/-- The events of a markup text, or `none` where it is refused. Raw text that is never closed is
lost. -/
def eventsOf (cs : List Char) : Option (List Event) := do
  let first ← run false (cs.length + 1) none cs
  let second ← run true (first.rest.length + 1) first.rawText first.rest
  let remaining := if second.rawText.isSome then [] else dataEvents second.rest
  return first.events ++ second.events ++ remaining

end MarkupBinding.Markup
