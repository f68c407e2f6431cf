import MarkupBinding.Markup.Event
import MarkupBinding.Markup.Node
import MarkupBinding.Notice

/-!
# Building markup trees

`Document.ofEvents` builds the tree of a sequence of events. A start tag opens an element, and an
end tag closes the innermost open element of its name with all that is open inside it; an end tag
for which nothing is open is ignored, and whatever is open at the end is closed there. Neighbouring
character data is one text. A text of plain white space shrinks to one line feed or one blank,
except where white space is preserved.

A void element closes at its start tag. One later end tag of its name is expected and ignored, also
when that end tag is the slash of a closed tag `<br/>`, which then stays open.
-/

set_option autoImplicit false
set_option relaxedAutoImplicit false

namespace MarkupBinding.Markup

/-- The name of the reader of markup that comes with the language. It is assumed to be the only one
that is there, so every document is read by it, whatever reader is wanted. -/
def readerName : String := "html.parser"

/-- The notice for a reader that is asked for and is not there; the one that is there stands in. -/
def readerNotices (wanted : String) : List Notice :=
  if wanted == readerName then []
  else [⟨.warning, "HTML parser '" ++ wanted ++ "' unavailable, using '" ++ readerName ++ "'"⟩]

/-- The elements without content, which close at their start tag. -/
def voidNames : List String :=
  ["area", "base", "br", "col", "embed", "hr", "img", "input", "keygen", "link", "menuitem", "meta",
    "param", "source", "track", "wbr", "basefont", "bgsound", "command", "frame", "image",
    "isindex", "nextid", "spacer"]

/-- The elements in which white space is preserved. -/
def preservingNames : List String := ["pre", "textarea"]

/-- The attributes that hold several words, on any element or on one kind. -/
def holdsWords (element attr : String) : Bool :=
  match attr with
  | "class" => true
  | "accesskey" => true
  | "dropzone" => true
  | "rel" => element == "a" || element == "link" || element == "area"
  | "rev" => element == "a" || element == "link"
  | "headers" => element == "td" || element == "th"
  | "accept-charset" => element == "form"
  | "archive" => element == "object"
  | "sizes" => element == "icon"
  | "sandbox" => element == "iframe"
  | "for" => element == "output"
  | _ => false

/-- The name under which a content type states the encoding. -/
def charsetKey : List Char := "charset=".toList

/-- Whether a content type states an encoding: the key at its beginning, after a blank or after a
semicolon. -/
def statesCharset (previous : Option Char) : List Char → Bool
  | [] => false
  | c :: cs =>
    let starts := match previous with
      | none => true
      | some p => Text.isBlank p || p == ';'
    (starts && Text.startsWith charsetKey (c :: cs)) || statesCharset (some c) cs

/-- The values of a `meta` element that name the encoding: the value of `charset`, or else the
content type it stands in for. -/
def markEncoding (attrs : List (String × AttrValue)) : List (String × AttrValue) :=
  match attrs.lookup "charset", attrs.lookup "content", attrs.lookup "http-equiv" with
  | some charset, _, _ => Keyed.set "charset" (.encoding charset.text) attrs
  | none, some content, some header =>
    if Text.lower header.text == "content-type" && statesCharset none content.text.toList then
      Keyed.set "content" (.contentType content.text) attrs
    else attrs
  | _, _, _ => attrs

/-- The tag for a start tag: a repeated attribute has its first place and its last value. -/
def tagOf (name : String) (attrs : List (String × String)) : Tag :=
  let values := (Keyed.ofPairs attrs).map fun (attr, value) ↦
    (attr, if holdsWords name attr then AttrValue.words (Text.words value) else .plain value)
  ⟨name, if name == "meta" then markEncoding values else values⟩

/-- An open element with the children it has so far, the last one first. -/
structure Frame where
  tag : Tag
  children : List Node

/-- A tree under construction: the open elements, innermost first; the closed nodes of the
outermost level, the last one first; the character data that was read but not yet placed; and the
void elements whose end tags are still expected. -/
structure Building where
  frames : List Frame
  closed : List Node
  data : List Char
  voids : List String

namespace Building

/-- Puts a node behind the last child of the innermost open element. -/
def place (b : Building) (node : Node) : Building :=
  match b.frames with
  | [] => { b with closed := node :: b.closed }
  | frame :: outer =>
    { b with frames := { frame with children := node :: frame.children } :: outer }

/-- White space that shrinks. -/
def isPlainSpace (c : Char) : Bool :=
  c == ' ' || c == '\n' || c == '\t' || c == '\x0c' || c == '\r'

/-- Whether white space is preserved here. -/
def preserves (b : Building) : Bool :=
  b.frames.any fun frame ↦ preservingNames.contains frame.tag.name

/-- A text as it is placed: plain white space shrinks where it is not preserved. -/
def shrunk (b : Building) (chars : List Char) : List Char :=
  if b.preserves || !chars.all isPlainSpace then chars
  else if chars.contains '\n' then ['\n'] else [' ']

/-- Places a text of any kind. -/
def placeText (b : Building) (kind : TextKind) (chars : List Char) : Building :=
  b.place (.text kind (String.ofList (b.shrunk chars)))

/-- Places the character data that was read. -/
def flush (b : Building) : Building :=
  if b.data.isEmpty then b else { b.placeText .characters b.data with data := [] }

/-- Closes the innermost open element. -/
def closeTop (b : Building) : Building :=
  match b.frames with
  | [] => b
  | frame :: outer =>
    { b with frames := outer }.place (.element frame.tag frame.children.reverse)

/-- Closes open elements, at most `count` of them, up to the innermost one of the name. -/
def closeTo (name : String) : Nat → Building → Building
  | 0, b => b
  | count + 1, b =>
    match b.frames with
    | [] => b
    | frame :: _ =>
      if frame.tag.name == name then b.closeTop else closeTo name count b.closeTop

/-- Handles an end tag that is not expected by a void element. -/
def endElement (b : Building) (name : String) : Building :=
  let b := b.flush
  if b.frames.any fun frame ↦ frame.tag.name == name then closeTo name b.frames.length b else b

/-- Handles an end tag: the one that a void element expects is ignored. -/
def endTag (b : Building) (name : String) : Building :=
  if b.voids.contains name then { b with voids := b.voids.erase name } else b.endElement name

/-- Handles a start tag. -/
def startTag (b : Building) (tag : Tag) (closed : Bool) : Building :=
  let b := b.flush
  let b := { b with frames := ⟨tag, []⟩ :: b.frames }
  if closed then b.endTag tag.name
  else if voidNames.contains tag.name then
    { b.closeTop with voids := b.voids ++ [tag.name] }
  else b

/-- Handles the body of a comment or another declaration. -/
def declared (b : Building) (kind : TextKind) (body : List Char) : Building :=
  b.flush.placeText kind body

/-- Handles one event. -/
def step (b : Building) : Event → Building
  | .startTag name attrs closed => b.startTag (tagOf name attrs) closed
  | .endTag name => b.endTag name
  | .data chars => { b with data := b.data ++ chars }
  | .comment body => b.declared .comment body
  | .doctype body => b.declared .doctype body
  | .instruction body => b.declared .instruction body
  | .declaration body =>
    match literally "cdata[".toList body with
    | some inside => b.declared .cdata inside
    | none => b.declared .declaration body

/-- Closes all that is open. -/
def finish (b : Building) : Document :=
  let b := b.flush
  ((List.replicate b.frames.length ()).foldl (fun b _ ↦ b.closeTop) b).closed.reverse

end Building

end MarkupBinding.Markup

namespace MarkupBinding

/-- The document of a sequence of events. -/
def Document.ofEvents (events : List Markup.Event) : Document :=
  (events.foldl Markup.Building.step ⟨[], [], [], []⟩).finish

/-- The document of a markup text, or `none` where the text is refused. -/
def Document.parse (text : String) : Option Document :=
  (Markup.eventsOf text.toList).map Document.ofEvents

end MarkupBinding
