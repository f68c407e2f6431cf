import MarkupBinding.Keyed
import MarkupBinding.Text.Split

/-!
# Markup trees

A document is a list of nodes: elements, which have a tag and children, and texts of six kinds. The
tag of an element holds its name and its attributes in source order. Attribute values are plain
texts, lists of words for the attributes that hold several, and the two kinds of value that name a
character encoding.
-/

set_option autoImplicit false
set_option relaxedAutoImplicit false

namespace MarkupBinding

/-- The value of an attribute. -/
inductive AttrValue where
  | plain (text : String)
  /-- The words of an attribute that holds several. -/
  | words (list : List String)
  /-- A value that is the name of the document's encoding. -/
  | encoding (text : String)
  /-- A value in which the document's encoding is named. -/
  | contentType (text : String)
  deriving DecidableEq, Repr

/-- The value as one text; words are joined by a blank. -/
def AttrValue.text : AttrValue → String
  | plain text => text
  | words list => Text.join " " list
  | encoding text => text
  | contentType text => text

/-- The start of an element: its name and its attributes, whose names are distinct. -/
structure Tag where
  name : String
  attrs : List (String × AttrValue)
  deriving DecidableEq, Repr

namespace Tag

/-- Whether the attribute is there, whatever its value. -/
def has (t : Tag) (attr : String) : Bool :=
  Keyed.has attr t.attrs

/-- The text of an attribute. -/
def attr? (t : Tag) (attr : String) : Option String :=
  (t.attrs.lookup attr).map AttrValue.text

/-- The tag with an attribute set to a plain text, in place or as the last one. -/
def set (t : Tag) (attr text : String) : Tag :=
  { t with attrs := Keyed.set attr (.plain text) t.attrs }

/-- The tag without an attribute. -/
def erase (t : Tag) (attr : String) : Tag :=
  { t with attrs := Keyed.erase attr t.attrs }

end Tag

/-- The kinds of text. -/
inductive TextKind where
  | characters
  | comment
  | cdata
  | doctype
  | instruction
  | declaration
  deriving DecidableEq, Repr

/-- A node of a markup tree. -/
inductive Node where
  | element (tag : Tag) (children : List Node)
  | text (kind : TextKind) (content : String)
  deriving Repr, BEq

/-- A document: its nodes at the outermost level. -/
abbrev Document := List Node

namespace Node

mutual

/-- The number of levels of elements. -/
def height : Node → Nat
  | element _ children => heightAll children + 1
  | text _ _ => 0

/-- The greatest height among the nodes. -/
def heightAll : List Node → Nat
  | [] => 0
  | n :: rest => max n.height (heightAll rest)

end

mutual

/-- The tags of the elements of a tree in document order. -/
def tags : Node → List Tag
  | element tag children => tag :: tagsAll children
  | text _ _ => []

/-- The tags of the elements of several trees in document order. -/
def tagsAll : List Node → List Tag
  | [] => []
  | n :: rest => n.tags ++ tagsAll rest

end

/-- Whether the node is an element. -/
def isElement : Node → Bool
  | element _ _ => true
  | text _ _ => false

end Node

/-- The number of levels of elements in a document. -/
def Document.height (d : Document) : Nat :=
  Node.heightAll d

/-- The tags of a document's elements in document order. -/
def Document.tags (d : Document) : List Tag :=
  Node.tagsAll d

end MarkupBinding
