import MarkupBinding.Service.Multipart
import MarkupBinding.Service.Request

/-!
# The input document of a request

A request carries an input document as its body, or in the field `jsonData` of a form. The content
type says which: its beginning, in exactly these letters, names a form, and then the whole type
names the kind of form. The last field of the name counts.
-/

set_option autoImplicit false
set_option relaxedAutoImplicit false

namespace MarkupBinding

/-- Why a request carries no input document. -/
inductive PayloadFault where
  /-- Nothing but blanks. -/
  | blank
  /-- A form without the field. -/
  | noField
  | notText (error : Text.ByteError)
  /-- The body is no form in parts. -/
  | badParts (fault : Multipart.Fault)
  deriving DecidableEq, Repr

namespace Payload

/-- The name of the form field. -/
def fieldName : String := "jsonData"

/-- The type of a form written as one line of fields. -/
def lineFormType : String := "application/x-www-form-urlencoded"

/-- The type of a form written in parts. -/
def partsFormType : String := "multipart/form-data"

/-- The kind of content and the parameters that a content type names. -/
def contentKind (contentType : String) : String × List (String × String) :=
  if contentType.toList.contains ';' then Multipart.headerParams contentType
  else (Text.trim (Text.lower contentType), [])

/-- The pieces of a line of fields. They are divided by ampersands; behind the last ampersand
semicolons divide them too, and in front of a field both are skipped. -/
def pieces (line : String) : List String :=
  let parts := Text.cut '&' line
  let last := (parts.getLast?.getD "")
  (parts.dropLast.map (fun part ↦ String.ofList (part.toList.dropWhile (· == ';'))) ++
    Text.cut ';' last).filter (!·.isEmpty)

/-- The fields of a form written as one line. -/
def lineFields (body : List UInt8) : List (String × FieldContent) :=
  (pieces (Multipart.byteText body)).map fun piece ↦
    let (name, value) := Text.fieldOf piece
    (name, .text value)

/-- The fields of a form of the given content type; another kind of content has none. -/
def formFields (contentType : String) (body : List UInt8) :
    Except Multipart.Fault (List (String × FieldContent)) :=
  let (kind, params) := contentKind contentType
  if kind == partsFormType then
    match Multipart.param? "boundary" params with
    | none => .error .noBoundary
    | some boundary => Multipart.parse boundary body
  else if kind == lineFormType then .ok (lineFields body)
  else .ok []

/-- The text of a field's content. -/
def contentText : FieldContent → Except PayloadFault String
  | .text value => .ok value
  | .file bytes => (Text.utf8Decode bytes).mapError .notText

/-- The text that a form carries. -/
def formText (contentType : String) (body : List UInt8) : Except PayloadFault String :=
  match formFields contentType body with
  | .error fault => .error (.badParts fault)
  | .ok fields =>
    match fields.reverse.lookup fieldName with
    | none => .error .noField
    | some content => contentText content

/-- Whether a content type begins like that of a form. -/
def isForm (contentType : String) : Bool :=
  contentType.startsWith lineFormType || contentType.startsWith partsFormType

end Payload

/-- The text of the input document that a request carries. -/
def Request.payload (r : Request) : Except PayloadFault String :=
  let contentType := (r.header? "content-type").getD ""
  let text := if Payload.isForm contentType then Payload.formText contentType r.body
    else (Text.utf8Decode r.body).mapError .notText
  match text with
  | .error fault => .error fault
  | .ok text => if Text.isBlankText text then .error .blank else .ok text

end MarkupBinding
