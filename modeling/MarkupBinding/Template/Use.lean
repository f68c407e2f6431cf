import MarkupBinding.Binding.Bind
import MarkupBinding.Json.Input
import MarkupBinding.Schema.Extraction
import MarkupBinding.Template.Source

/-!
# Using template files

Binding input into the document of a template file, and reading the schema off it. Every use starts
from the document that the source hands out and leaves that document as it was.
-/

set_option autoImplicit false
set_option relaxedAutoImplicit false

namespace MarkupBinding

/-- Why a use of a template comes to nothing. -/
inductive UseFault where
  | template (fault : TemplateFault)
  | input (error : InputError)
  | bind (error : BindError)
  deriving DecidableEq, Repr

/-- The fault in words. -/
def UseFault.message : UseFault → String
  | template fault => fault.message
  | input error => error.message
  | bind error => error.message

/-- The outcome of using a template: the source afterwards, the notices in order and the result. -/
structure TemplateUse (α : Type) where
  source : TemplateSource
  notices : List Notice
  result : Except UseFault α

namespace TemplateSource

/-- Uses the document of the template. -/
def use {α : Type} (s : TemplateSource) (t : FileTree)
    (f : Document → List Notice × Except BindError α) : TemplateUse α :=
  let loading := s.load t
  match loading.result with
  | .error fault => ⟨loading.source, loading.notices, .error (.template fault)⟩
  | .ok d =>
    let (notices, result) := f d
    ⟨loading.source, loading.notices ++ notices, result.mapError .bind⟩

/-- The markup of the template with the input bound into it. -/
def render (s : TemplateSource) (t : FileTree) (input : Value) : TemplateUse String :=
  s.use t fun d ↦
    let walk := d.bind input
    (Binding.notices walk, walk.result.map Document.print)

/-- The markup of the template with an input document bound into it. The document is read first. -/
def renderText (s : TemplateSource) (t : FileTree) (text : String) : TemplateUse String :=
  match decodeInput text with
  | .error e => ⟨s, [], .error (.input e)⟩
  | .ok input => s.render t input

/-- The schema of the template, or nothing where no element declares a component. -/
def schema (s : TemplateSource) (t : FileTree) (includeEmpty : Bool) :
    TemplateUse (Option Schema) :=
  s.use t fun d ↦
    let walk := d.extract includeEmpty
    (Extraction.notices walk, walk.result)

end TemplateSource

end MarkupBinding
