import MarkupBinding.Record.Check
import MarkupBinding.Record.Source
import MarkupBinding.Schema.Document
import MarkupBinding.Service.IndexPage
import MarkupBinding.Service.Payload
import MarkupBinding.Service.Response
import MarkupBinding.Service.State

/-!
# Answering requests

What the service does for each of its routes: binding an input document into the template, telling
the template's schema and record types, and saving, listing and giving back inputs. A fault of the
input or of the template is a refusal that says what is wrong; other faults are failures.
-/

set_option autoImplicit false
set_option relaxedAutoImplicit false

namespace MarkupBinding.Service

/-- What became of a request: the service afterwards, the notices in order and the answer. -/
structure Handled where
  service : Service
  notices : List Notice
  result : Except Refusal Response

/-- The request is answered and nothing has changed. -/
def answered (s : Service) (result : Except Refusal Response) : Handled :=
  ⟨s, [], result⟩

/-- The request is refused with a notice. -/
def refused (s : Service) (notice : Notice) (refusal : Refusal) : Handled :=
  ⟨s, [notice], .error refusal⟩

/-- The word that notices use for a fault, and the status of its answer; nothing for a fault that no
answer provides for. -/
def faultAnswer? : UseFault → Option (String × Nat)
  | .input (.tooLong _) => none
  | .input _ => some ("InputFormatError", 400)
  | .template (.missing _) => some ("MissingTemplateError", 500)
  | .template _ => none
  | .bind (.expression _) => some ("ExpressionSyntaxError", 422)
  | .bind (.structural _) => some ("StructuralMismatchError", 422)
  | .bind (.resolution _) => some ("ResolutionError", 422)
  | .bind (.lostStencil _) => none

/-- Refuses a request for a fault of the input or the template, after the notices so far. -/
def refuseFault (s : Service) (notices : List Notice) (fault : UseFault) : Handled :=
  match faultAnswer? fault with
  | none => ⟨s, notices, .error (.failed fault.message)⟩
  | some (word, status) =>
    let level : Level := if 500 ≤ status then .error else .warning
    ⟨s, notices ++ [⟨level, word ++ ": " ++ fault.message⟩],
      .error (.because status ("Error: " ++ fault.message))⟩

/-- Goes on with the result of using the template, or refuses. -/
def withUse {α : Type} (s : Service) (u : TemplateUse α) (next : Service → α → Handled) : Handled :=
  let s := { s with source := u.source }
  match u.result with
  | .error fault => s.refuseFault u.notices fault
  | .ok value =>
    let h := next s value
    { h with notices := u.notices ++ h.notices }

/-- Goes on with the schema of the template, which must declare a component. -/
def withSchema (s : Service) (next : Service → Schema → Handled) : Handled :=
  s.withUse (s.source.schema s.tree s.settings.includeEmpty) fun s schema ↦
    match schema with
    | none => s.answered (.error (.because 404 "Template declares no data-component"))
    | some schema => next s schema

/-- Answers with the template bound to data. -/
def answerMarkup (s : Service) (data : Value) : Handled :=
  s.withUse (s.source.render s.tree data) fun s markup ↦
    s.answered (.ok (.good .html markup))

/-- Answers with the template bound to input that is read as a record first. -/
def answerTyped (s : Service) (input : Value) : Handled :=
  s.withSchema fun s schema ↦
    match schema.checkInput input with
    | .ok record => s.answerMarkup record
    | .error issues =>
      s.refused ⟨.warning, "Typed input rejected: " ++ toString issues.length ++ " error(s)"⟩
        (.refused 422 (.object [("detail", .list (issues.map Issue.toValue))]))

/-- Refuses a request that carries no input document. -/
def refusePayload (s : Service) : PayloadFault → Handled
  | .blank => s.answered (.error (.because 400 "Error: Missing JSON data"))
  | .noField =>
    s.refused ⟨.warning, "Form submitted without jsonData"⟩
      (.because 400 "Error: Missing jsonData parameter in form")
  | .notText e =>
    s.refused ⟨.warning, "Request body is not UTF-8: " ++ e.message Text.Encoding.utf8.shown⟩
      (.because 400 "Error: Request body must be UTF-8 text")
  | .badParts .noBoundary => s.answered (.error (.because 400 "Missing boundary in multipart."))
  | .badParts .noName => s.answered (.error (.because 400
      "The Content-Disposition header field \"name\" must be provided."))
  | .badParts .malformed => s.answered (.error (.failed "Malformed form body"))

/-- Whether the query asks for typed input; the last field of the name counts. -/
def wantsTyped (r : Request) : Checked Bool :=
  match Text.lastField? "typed" r.query with
  | none => .ok false
  | some word => ((checkFlag (.string word)).below (.key "typed")).below (.key "query")

/-- The issues of a query in their literal form. -/
def queryIssues (issues : List Issue) : String :=
  "[" ++ Text.join ", " (issues.map fun issue ↦
    "\x7b'type': " ++ Text.quoted issue.kind.code ++ ", 'loc': ('query', 'typed'), 'msg': " ++
      Text.quoted issue.kind.message ++ ", 'input': " ++ issue.input.literal ++ "\x7d") ++ "]"

/-- Binds the input document of a request into the template. -/
def answerRender (s : Service) (r : Request) : Handled :=
  match r.payload with
  | .error fault => s.refusePayload fault
  | .ok text =>
    match wantsTyped r with
    | .error issues =>
      s.refused ⟨.warning, "Validation error: " ++ queryIssues issues⟩
        (.refused 422 (.object [("detail", .string "Validation error"),
          ("errors", .list (issues.map Issue.toValue))]))
    | .ok typed =>
      match decodeInput text with
      | .error e => s.refuseFault [] (.input e)
      | .ok input => if typed then s.answerTyped input else s.answerMarkup input

/-- Tells the schema of the template. -/
def answerSchema (s : Service) : Handled :=
  s.withSchema fun s schema ↦ s.answered (Response.json 200 schema.toDocument)

/-- Tells the source text of the template's record types. -/
def answerRecordSource (s : Service) : Handled :=
  s.withSchema fun s schema ↦ s.answered (.ok (.good .recordSource schema.recordSource))

/-- Goes on with the names of the saved inputs. -/
def withNames (s : Service) (next : List FileName → Handled) : Handled :=
  match s.store.names s.tree with
  | .error fault => s.answered (.error (.failed (fault.message s.store.folder)))
  | .ok names => next names

/-- Why a content with a name that is no text is not answered. -/
def unwritable : Refusal :=
  .failed "surrogates not allowed"

/-- Lists the saved inputs. A name that is no text stands in the list, but then the list cannot be
written as bytes. -/
def answerForms (s : Service) : Handled :=
  s.withNames fun names ↦
    match names.mapM FileName.text? with
    | none => s.answered (.error unwritable)
    | some names =>
      s.answered (Response.json 200 (.object [("forms", .list (names.map .string)),
        ("total", .int names.length)]))

/-- Lists the saved inputs on a page. Names are bound whether they are texts or not, but a page with
one that is none cannot be written as bytes. -/
def answerIndex (s : Service) : Handled :=
  s.withNames fun names ↦
    let notices := if s.indexRead && s.settings.cacheTemplates then []
      else Markup.readerNotices s.settings.reader
    let s := { s with indexRead := true }
    match names.mapM FileName.text? with
    | none => ⟨s, notices, .error unwritable⟩
    | some names =>
      let walk := IndexPage.template.bind (IndexPage.input names)
      match walk.result with
      | .ok page => ⟨s, notices, .ok (.good .html page.print)⟩
      | .error e => s.refuseFault notices (.bind e)

/-- Gives a saved input back, which must be an input document. -/
def answerForm (s : Service) (name : String) : Handled :=
  match s.store.load s.tree name with
  | .error (.badName _) =>
    s.refused ⟨.warning, "Rejected form name: " ++ name⟩ (.because 400 "Error: Invalid filename")
  | .error (.unreachable fault) => s.answered (.error (.failed (fault.message s.store.folder)))
  | .error (.unreadable e) => s.answered (.error (.failed (FormFault.message (.unreadable e))))
  | .error fault => s.answered (.error (.because 404 ("Error: " ++ fault.message)))
  | .ok text =>
    match decodeInput text with
    | .ok _ => s.answered (.ok (.good .json text))
    | .error (.tooLong digits) =>
      s.answered (.error (.failed (InputError.tooLong digits).message))
    | .error e =>
      s.refused ⟨.error, "Stored form " ++ name ++ " is not valid JSON: " ++ e.message⟩
        (.because 500 ("Error reading file: " ++ e.message))

/-- Refuses to save what is no input document. -/
def refuseInput (s : Service) (reason : String) : Handled :=
  s.answered (.error (.because 400 ("Error: Invalid JSON format - " ++ reason)))

/-- Saves the body of a request, which must be an input document, at a time. -/
def answerSave (s : Service) (time : Int) (r : Request) : Handled :=
  match Text.utf8Decode r.body with
  | .error e => s.refuseInput (e.message Text.Encoding.utf8.shown)
  | .ok text =>
    match decodeInput text with
    | .error (.tooLong digits) =>
      s.answered (.error (.failed (InputError.tooLong digits).message))
    | .error e => s.refuseInput e.message
    | .ok _ =>
      let saving := s.store.save s.tree time s.ids text
      let s := { s with tree := saving.tree, ids := saving.ids }
      match saving.result with
      | .ok name =>
        s.answered (Response.json 200 (.object [("filename", .string name),
          ("message", .string ("Form data saved successfully as " ++ name))]))
      | .error fault =>
        let text := "Error saving form data: " ++ fault.message
        s.refused ⟨.error, text⟩ (.because 500 text)

/-- Says that the service runs. -/
def answerLiveness (s : Service) : Handled :=
  s.answered (.ok (.good .plain "Server is running"))

/-- The version of the service. -/
def version : String := "0.1.0"

/-- Says that the service is well. -/
def answerHealth (s : Service) : Handled :=
  s.answered (Response.json 200 (.object [("status", .string "healthy"),
    ("service", .string "bindery-api"), ("version", .string version)]))

end MarkupBinding.Service
