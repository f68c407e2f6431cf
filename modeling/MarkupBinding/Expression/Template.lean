import MarkupBinding.Expression.Path

/-!
# Template text

An annotation value is literal text with placeholders `${path}` in it; `$${` stands for a literal
`${`. `scan` cuts a text into tokens without losing a character, `TemplateText.parse` reads the
tokens as segments, and `TemplateText.unparse` writes segments back in the one form that `parse`
reads as them.
-/

set_option autoImplicit false
set_option relaxedAutoImplicit false

namespace MarkupBinding

/-- The lexical pieces of template text. -/
inductive Token where
  /-- `$${`, which stands for a literal `${`. -/
  | escapedOpen
  /-- `${`, which opens a placeholder. -/
  | opened
  /-- The closing brace. -/
  | closed
  /-- A dollar sign that opens nothing. -/
  | dollar
  /-- A run of other characters. -/
  | run (chars : List Char)
  deriving DecidableEq, Repr

namespace Token

/-- The characters that open a placeholder. -/
def openChars : List Char := ['$', '\x7b']

/-- The characters of a token as they stand in the text. -/
def chars : Token → List Char
  | escapedOpen => ['$', '$', '\x7b']
  | opened => openChars
  | closed => ['\x7d']
  | dollar => ['$']
  | run chars => chars

/-- A token as it stands in the text. -/
def text (t : Token) : String :=
  String.ofList t.chars

/-- Cuts a text into tokens; the escaped opening is tried before the plain one, and ordinary
characters are gathered into maximal runs. -/
def scan : List Char → List Token
  | [] => []
  | '$' :: '$' :: '\x7b' :: rest => escapedOpen :: scan rest
  | '$' :: '\x7b' :: rest => opened :: scan rest
  | '$' :: rest => dollar :: scan rest
  | '\x7d' :: rest => closed :: scan rest
  | c :: rest =>
    match scan rest with
    | run chars :: tokens => run (c :: chars) :: tokens
    | tokens => run [c] :: tokens

end Token

/-- The tokens of a text. -/
def tokenize (s : String) : List Token :=
  Token.scan s.toList

/-- A piece of template text: literal text, or a placeholder with its source between the braces. -/
inductive Segment where
  | literal (text : String)
  | placeholder (path : Path) (source : String)
  deriving DecidableEq, Repr

namespace Segment

/-- The path of a placeholder. -/
def path? : Segment → Option Path
  | literal _ => none
  | placeholder path _ => some path

end Segment

/-- A text split into its segments. -/
abbrev TemplateText := List Segment

namespace TemplateText

/-- Where the reader of template text stands: outside placeholders with the literal text gathered
so far, or inside one with the source gathered so far. -/
inductive Position where
  | outside (literal : List Char)
  | inside (source : List Char)

/-- The segment of a gathered literal, if it holds anything. -/
def flush : List Char → List Segment
  | [] => []
  | literal => [.literal (String.ofList literal)]

/-- Reads tokens as segments; `raw` is the whole text, for errors. -/
def read (raw : String) : Position → List Token → Except ExpressionError TemplateText
  | .outside literal, [] => .ok (flush literal)
  | .inside _, [] => .error ⟨raw, .unterminated⟩
  | .outside literal, token :: tokens =>
    match token with
    | .opened => do
      let rest ← read raw (.inside []) tokens
      return flush literal ++ rest
    | .escapedOpen => read raw (.outside (literal ++ Token.openChars)) tokens
    | other => read raw (.outside (literal ++ other.chars)) tokens
  | .inside source, token :: tokens =>
    match token with
    | .closed => do
      let text := String.ofList source
      let path ← Path.parse text
      let rest ← read raw (.outside []) tokens
      return .placeholder path text :: rest
    | .opened => .error ⟨raw, .nested⟩
    | .escapedOpen => .error ⟨raw, .nested⟩
    | other => read raw (.inside (source ++ other.chars)) tokens

/-- Reads a text as template text. -/
def parse (raw : String) : Except ExpressionError TemplateText :=
  read raw (.outside []) (tokenize raw)

/-- The paths of the placeholders, in order. -/
def paths (segments : TemplateText) : List Path :=
  segments.filterMap Segment.path?

/-- No placeholder at all. -/
def isLiteral (segments : TemplateText) : Bool :=
  segments.paths.isEmpty

/-- The source of the only placeholder, when there is nothing beside it. -/
def pure? : TemplateText → Option (Path × String)
  | [.placeholder path source] => some (path, source)
  | _ => none

/-- The text with every placeholder replaced by what `resolve` gives for its path. -/
def render (resolve : Path → String) (segments : TemplateText) : String :=
  String.join (segments.map fun
    | .literal text => text
    | .placeholder path _ => resolve path)

/-- The literal characters as template text: each `${` is escaped. -/
def escape : List Char → List Char
  | [] => []
  | '$' :: '\x7b' :: rest => '$' :: '$' :: '\x7b' :: escape rest
  | c :: rest => c :: escape rest

/-- The segments written as template text. -/
def unparse (segments : TemplateText) : String :=
  String.ofList (segments.flatMap fun
    | .literal text => escape text.toList
    | .placeholder _ source => Token.openChars ++ source.toList ++ ['\x7d'])

end TemplateText

/-- The inner path text of a value that is one placeholder, else the value itself. -/
def extractExpression (raw : String) : Except ExpressionError String := do
  let segments ← TemplateText.parse raw
  match segments.pure? with
  | some (_, source) => return Text.trim source
  | none => return raw

/-- Reads an annotation value as a path, with or without placeholder braces around it. -/
def Path.ofBinding (raw : String) : Except ExpressionError Path := do
  Path.parse (← extractExpression raw)

/-- Values for placeholders: one for all, or one by path text. -/
inductive Substitution where
  | all (value : String)
  | byPath (values : List (String × String))

/-- The value for a path, or the path text that has none. -/
def Substitution.value (s : Substitution) (path : Path) : Except String String :=
  match s with
  | all value => .ok value
  | byPath values =>
    match values.lookup path.text with
    | some value => .ok value
    | none => .error path.text

/-- Why a substitution into template text fails. -/
inductive SubstitutionError where
  | expression (error : ExpressionError)
  | missing (path : String)

/-- The text that stands for one segment. -/
def Substitution.piece (s : Substitution) : Segment → Except String String
  | .literal text => .ok text
  | .placeholder path _ => s.value path

/-- The text with every placeholder replaced by its value. -/
def Substitution.apply (s : Substitution) (raw : String) : Except SubstitutionError String :=
  match TemplateText.parse raw with
  | .error e => .error (.expression e)
  | .ok segments =>
    match segments.mapM s.piece with
    | .ok texts => .ok (String.join texts)
    | .error path => .error (.missing path)

end MarkupBinding
