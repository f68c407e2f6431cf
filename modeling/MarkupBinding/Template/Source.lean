import MarkupBinding.Markup.Tree
import MarkupBinding.Storage.FileTree
import MarkupBinding.Text.Encoding

/-!
# Template files

A template source hands out the document of a template file. The document is kept and handed out
again as long as the time of the file is the one at which it was read, so that a file is read once
per change. What is handed out is a value of its own: binding data into it never changes what is
kept.
-/

set_option autoImplicit false
set_option relaxedAutoImplicit false

namespace MarkupBinding

/-- Why a template cannot be handed out. -/
inductive TemplateFault where
  /-- No file is there. -/
  | missing (l : Location)
  | unreachable (l : Location) (fault : PathFault)
  /-- The file is not text of the encoding. -/
  | unreadable (encoding : Text.Encoding) (error : Text.ByteError)
  /-- There is no encoding of the name. -/
  | unknownEncoding (name : String)
  /-- The text is refused as markup. -/
  | refused
  deriving DecidableEq, Repr

/-- A template file, how it is read, and what was read last. -/
structure TemplateSource where
  location : Location
  /-- The name of the wanted reader of markup. -/
  reader : String
  /-- The name of the encoding. -/
  encoding : String
  /-- Keep the document while the time of the file stays the same. -/
  caching : Bool
  /-- The document read last, and the time of the file then. -/
  kept : Option (Int × Document)

/-- What a template source hands out, the notices on the way, and the source afterwards. -/
structure Loading where
  source : TemplateSource
  notices : List Notice
  result : Except TemplateFault Document

namespace TemplateSource

/-- A source that has read nothing yet. -/
def fresh (l : Location) (reader encoding : String) (caching : Bool) : TemplateSource :=
  ⟨l, reader, encoding, caching, none⟩

/-- The kept document, if it was read at the given time. -/
def keptAt (s : TemplateSource) (time : Int) : Option Document :=
  match s.caching, s.kept with
  | true, some (read, d) => if read = time then some d else none
  | _, _ => none

/-- The text of the template file. -/
def text (s : TemplateSource) (t : FileTree) : Except TemplateFault String :=
  match t.read s.location with
  | .error fault => .error (.unreachable s.location fault)
  | .ok bytes =>
    match Text.Encoding.ofName? s.encoding with
    | none => .error (.unknownEncoding s.encoding)
    | some encoding => (encoding.read bytes).mapError (.unreadable encoding)

/-- Reads the template file, whose time is given, and keeps the document if that is wanted. -/
def readFile (s : TemplateSource) (t : FileTree) (time : Int) : Loading :=
  match s.text t with
  | .error fault => ⟨s, [], .error fault⟩
  | .ok text =>
    let notices := Markup.readerNotices s.reader
    match Document.parse text with
    | none => ⟨s, notices, .error .refused⟩
    | some d => ⟨if s.caching then { s with kept := some (time, d) } else s, notices, .ok d⟩

/-- Hands out the document of the template. -/
def load (s : TemplateSource) (t : FileTree) : Loading :=
  match t.find s.location with
  | .error .absent =>
    ⟨s, [⟨.error, "Template file not found: " ++ s.location.text⟩], .error (.missing s.location)⟩
  | .error fault => ⟨s, [], .error (.unreachable s.location fault)⟩
  | .ok entry =>
    match s.keptAt entry.time with
    | some d => ⟨s, [], .ok d⟩
    | none => s.readFile t entry.time

end TemplateSource

/-- The error in words, where it has some. -/
def TemplateFault.message : TemplateFault → String
  | missing l => "Template not found: " ++ l.text
  | unreachable l fault => fault.message l
  | unreadable encoding e => e.message encoding.shown
  | unknownEncoding name => "unknown encoding: " ++ name
  | refused => ""

end MarkupBinding
