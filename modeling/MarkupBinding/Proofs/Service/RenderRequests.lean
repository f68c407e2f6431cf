import MarkupBinding.Proofs.Service.Requests
import MarkupBinding.Proofs.Text.Percent

/-!
# Input documents in bodies and in forms

A request to render carries its input document as its body or in the one field of a form. A form
with the bytes of a text in that field carries the text (`Payload.formText_formLine`): the field is
not cut, its name ends at the first sign of equality, and what was written is read back. A body with
the bytes of a text carries the text too, so that both requests carry the same document, or both are
blank (`Request.payload_of_carriesBody`, `Request.payload_of_carriesField`). Nothing else of a
request is looked at but its query: the service answers both with the same response, logs the same
and is left the same (`Service.respond_formLine_eq_respond`).
-/

set_option autoImplicit false
set_option relaxedAutoImplicit false

namespace MarkupBinding

namespace Payload

/-- The line of a form with one field, for the input document. -/
def formLine (written : String) : String :=
  fieldName ++ "=" ++ written

theorem toList_formLine (written : String) :
    (formLine written).toList = fieldName.toList ++ '=' :: written.toList := by
  rw [formLine, String.toList_append, String.toList_append, List.append_assoc]
  rfl

/-- The characters in front of the first separator and those behind it. -/
theorem cutOnce_append {separator : Char} {front : List Char} (h : separator ∉ front)
    (back : List Char) :
    Text.cutOnce separator (front ++ separator :: back) = some (front, back) := by
  induction front with
  | nil => exact if_pos rfl
  | cons c rest ih =>
    obtain ⟨hc, hrest⟩ := not_or.1 (mt List.mem_cons.2 h)
    rw [List.cons_append, Text.cutOnce, if_neg (Ne.symm hc), ih hrest]
    rfl

/-- A line without separators of fields is one piece. -/
theorem pieces_of_not_mem {line : String} (hempty : line.isEmpty = false)
    (hand : '&' ∉ line.toList) (hsemicolon : ';' ∉ line.toList) : pieces line = [line] := by
  have hcut : ∀ {separator : Char}, separator ∉ line.toList → Text.cut separator line = [line] := by
    intro separator h
    rw [Text.cut, Text.cutAt_of_not_mem h, List.map_singleton, String.ofList_toList]
  rw [pieces, hcut hand]
  simp [hcut hsemicolon, hempty]

variable {written text : String}

/-- A line with the bytes of a text in the field has that text in the field. -/
theorem lineFields_formLine (h : Text.FieldWritten written.toList (Text.utf8Encode text)) :
    lineFields (Text.utf8Encode (formLine written)) = [(fieldName, .text text)] := by
  have hmem : ∀ c ∈ (formLine written).toList, c.toNat < 0x80 ∧ c ≠ '&' ∧ c ≠ ';' := by
    rw [toList_formLine, List.forall_mem_append, List.forall_mem_cons]
    exact ⟨by simp [fieldName], by decide, h.mem⟩
  have hempty : (formLine written).isEmpty = false := by
    rw [Bool.eq_false_iff, Ne, String.isEmpty_iff, ← String.toList_inj, toList_formLine]
    exact List.append_ne_nil_of_right_ne_nil _ (List.cons_ne_nil _ _)
  have hfield : Text.fieldOf (formLine written) = (fieldName, text) := by
    have hname : Text.fieldDecode (String.ofList fieldName.toList) = fieldName := by decide +kernel
    rw [Text.fieldOf, toList_formLine, cutOnce_append (by decide)]
    simp only [String.ofList_toList] at hname ⊢
    rw [hname, Text.fieldDecode_of_fieldWritten h]
  rw [lineFields, Text.byteText_utf8Encode fun c hc ↦ (hmem c hc).1,
    pieces_of_not_mem hempty (fun hc ↦ (hmem _ hc).2.1 rfl) fun hc ↦ (hmem _ hc).2.2 rfl,
    List.map_singleton, hfield]

/-- A form with the bytes of a text in its field carries that text. -/
theorem formText_formLine (h : Text.FieldWritten written.toList (Text.utf8Encode text)) :
    formText lineFormType (Text.utf8Encode (formLine written)) = .ok text := by
  have hkind : contentKind lineFormType = (lineFormType, []) := by decide +kernel
  have hparts : (lineFormType == partsFormType) = false := by decide
  have hfields : formFields lineFormType (Text.utf8Encode (formLine written)) =
      .ok [(fieldName, .text text)] := by
    rw [formFields, hkind]
    simp only [hparts, Bool.false_eq_true, if_false, beq_self_eq_true, if_true]
    rw [lineFields_formLine h]
  rw [formText, hfields]
  rfl

end Payload

namespace Request

/-- The request asks for its input document to be bound into the template. -/
def IsRender (r : Request) : Prop :=
  r.verb = Route.render.method ∧ Route.ofPath? r.path = some .render

/-- The request carries the bytes of a text as its body. -/
def CarriesBody (r : Request) (text : String) : Prop :=
  Payload.isForm ((r.header? "content-type").getD "") = false ∧ r.body = Text.utf8Encode text

/-- The request carries the bytes of a text in the field of a form. -/
def CarriesField (r : Request) (text : String) : Prop :=
  r.header? "content-type" = some Payload.lineFormType ∧
    ∃ written : String, Text.FieldWritten written.toList (Text.utf8Encode text) ∧
      r.body = Text.utf8Encode (Payload.formLine written)

variable {r form : Request} {text : String}

/-- A text in a body is the input document, unless it is blank. -/
theorem payload_of_carriesBody (h : r.CarriesBody text) :
    r.payload = if Text.isBlankText text then .error .blank else .ok text := by
  rw [payload, h.1, h.2, Text.utf8Decode_utf8Encode]
  rfl

/-- A text in the field of a form is the input document, unless it is blank. -/
theorem payload_of_carriesField (h : r.CarriesField text) :
    r.payload = if Text.isBlankText text then .error .blank else .ok text := by
  obtain ⟨htype, written, hwritten, hbody⟩ := h
  have hform : Payload.isForm Payload.lineFormType = true := by decide +kernel
  rw [payload, htype, hbody, Option.getD_some, hform]
  simp only [if_true, Payload.formText_formLine hwritten]

end Request

/-- Requests to render with one query that carry one text, in a body or in the field of a form, are
answered with the same response and log and change the same. -/
theorem Service.respond_formLine_eq_respond (s : Service) (time : Int) {r form : Request}
    {text : String} (hrender : r.IsRender) (hbody : r.CarriesBody text)
    (hverb : form.verb = r.verb) (htarget : form.target = r.target)
    (hfield : form.CarriesField text) : s.respond time form = s.respond time r := by
  have hpath : form.path = r.path := by
    rw [Request.path, Request.path, Request.address, Request.address, htarget]
  have hquery : form.query = r.query := by
    rw [Request.query, Request.query, Request.address, Request.address, htarget]
  have hpayload : form.payload = r.payload := by
    rw [Request.payload_of_carriesField hfield, Request.payload_of_carriesBody hbody]
  have hanswer : s.answerRender form = s.answerRender r := by
    rw [answerRender, answerRender, hpayload, wantsTyped, wantsTyped, hquery]
  have hhandle : s.handle time form = s.handle time r := by
    rw [handle_of_route hrender.1 hrender.2, handle_of_route (hverb.trans hrender.1)
      ((congrArg Route.ofPath? hpath).trans hrender.2)]
    exact hanswer
  rw [respond, respond, hhandle, hverb]

/-- A document whose text has every character that means something in a form. -/
def signsText : String := "\x7b\"sum\": \"1+1=2 & 100%; \u00e9\"\x7d"

/-- A request that has the document in its body, under a content type that is none of a form. -/
def signsInBody : Request :=
  ⟨"post", "/render?typed=1", [("Content-Type", "text/plain")], Text.utf8Encode signsText⟩

/-- A request that has the document in a form, where only letters and digits are left as they are.
-/
def signsInForm : Request :=
  ⟨"POST", "/render?typed=1", [("content-type", Payload.lineFormType)],
    Text.utf8Encode (Payload.formLine (Text.percentEncode Char.isAlphanum signsText))⟩

theorem respond_formLine_eq_respond_signs :
    signsInBody.IsRender ∧ signsInBody.CarriesBody signsText ∧
      signsInForm.verb = signsInBody.verb ∧ signsInForm.target = signsInBody.target ∧
      signsInForm.CarriesField signsText ∧
      ∀ (s : Service) (time : Int), s.respond time signsInForm = s.respond time signsInBody := by
  have hrender : signsInBody.IsRender := by constructor <;> decide +kernel
  have hbody : signsInBody.CarriesBody signsText := ⟨by decide +kernel, rfl⟩
  have hverb : signsInForm.verb = signsInBody.verb := by decide +kernel
  have hfield : signsInForm.CarriesField signsText :=
    ⟨by decide +kernel, _, Text.fieldWritten_percentEncode
      (fun _ hc ↦ Text.isFieldPlain_of_isAlphanum hc) signsText, rfl⟩
  exact ⟨hrender, hbody, hverb, rfl, hfield, fun s time ↦
    s.respond_formLine_eq_respond time hrender hbody hverb rfl hfield⟩

end MarkupBinding
