import MarkupBinding.Markup.Tree

/-!
# Printing markup

`Document.print` writes a document as markup text. Attributes are written in the order of their
names, and text and attribute values with their ampersands and angle brackets as references; the
text of `script` and `style` elements is written as it is. A value is put in double quotes, or in
single quotes when it holds a double quote and no single one.
-/

set_option autoImplicit false
set_option relaxedAutoImplicit false

namespace MarkupBinding

namespace Markup

/-- The encoding that a printed document names. -/
def encodingName : String := "utf-8"

/-- The characters of a content type with every stated encoding replaced. -/
def restateCharset (previous : Option Char) : Nat → List Char → List Char
  | 0, cs => cs
  | _, [] => []
  | fuel + 1, c :: cs =>
    let starts := match previous with
      | none => true
      | some p => Text.isBlank p || p == ';'
    match starts, Text.after? charsetKey (c :: cs) with
    | true, some rest =>
      charsetKey ++ encodingName.toList ++
        restateCharset (some 'a') fuel (rest.dropWhile (· != ';'))
    | _, _ => c :: restateCharset (some c) fuel cs

/-- The text of a value as it is printed: an encoding is the one of the printed document. -/
def printedValue : AttrValue → String
  | .encoding _ => encodingName
  | .contentType text =>
    String.ofList (restateCharset none text.toList.length text.toList)
  | other => other.text

/-- The value of an attribute in quotes. -/
def quotedAttr (escaped : String) : String :=
  let cs := escaped.toList
  if !cs.contains '"' then "\"" ++ escaped ++ "\""
  else if !cs.contains '\'' then "'" ++ escaped ++ "'"
  else "\"" ++ String.ofList (cs.flatMap fun c ↦ if c = '"' then "&quot;".toList else [c]) ++ "\""

/-- An attribute with a blank in front. -/
def printAttr (attr : String × AttrValue) : String :=
  " " ++ attr.1 ++ "=" ++ quotedAttr (Reference.escape (printedValue attr.2))

/-- Puts an attribute before the first one with a greater name. -/
def insertAttr (attr : String × AttrValue) :
    List (String × AttrValue) → List (String × AttrValue)
  | [] => [attr]
  | other :: rest =>
    if attr.1 < other.1 then attr :: other :: rest else other :: insertAttr attr rest

/-- The attributes in the order of their names. -/
def sortAttrs (attrs : List (String × AttrValue)) : List (String × AttrValue) :=
  attrs.foldr insertAttr []

/-- The name and attributes of a tag. -/
def printTag (tag : Tag) : String :=
  tag.name ++ String.join ((sortAttrs tag.attrs).map printAttr)

/-- A text inside an element of the given name, or outside of all. -/
def printText (parent : Option String) (kind : TextKind) (content : String) : String :=
  match kind with
  | .characters =>
    if parent.any rawTextNames.contains then content else Reference.escape content
  | .comment => "<!--" ++ content ++ "-->"
  | .cdata => "<![CDATA[" ++ content ++ "]]>"
  | .doctype => "<!DOCTYPE " ++ content ++ ">\n"
  | .instruction => "<?" ++ content ++ ">"
  | .declaration => "<?" ++ content ++ "?>"

end Markup

namespace Node

mutual

/-- A node inside an element of the given name as markup text. -/
def print (parent : Option String) : Node → String
  | text kind content => Markup.printText parent kind content
  | element tag children =>
    if children.isEmpty && Markup.voidNames.contains tag.name then
      "<" ++ Markup.printTag tag ++ "/>"
    else
      "<" ++ Markup.printTag tag ++ ">" ++ printAll (some tag.name) children ++
        "</" ++ tag.name ++ ">"

/-- Nodes inside an element of the given name as markup text. -/
def printAll (parent : Option String) : List Node → String
  | [] => ""
  | n :: rest => n.print parent ++ printAll parent rest

end

end Node

/-- A document as markup text. -/
def Document.print (d : Document) : String :=
  Node.printAll none d

end MarkupBinding
