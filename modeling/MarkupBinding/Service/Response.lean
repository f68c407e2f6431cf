import MarkupBinding.Json.Writer

/-!
# Responses

What the service answers: a status, the type of the content and the content. A request may be
refused with a status and a JSON body, or fail for a reason that no answer provides for; such a
failure tells nothing about its reason. A JSON body with a number that is not finite cannot be
written and is a failure.
-/

set_option autoImplicit false
set_option relaxedAutoImplicit false

namespace MarkupBinding

/-- An answer of the service. -/
structure Response where
  status : Nat
  contentType : String
  body : String
  deriving DecidableEq, Repr

/-- Why a request is not answered as it was asked. -/
inductive Refusal where
  | refused (status : Nat) (body : Value)
  /-- A fault that no answer provides for, in words for the log. -/
  | failed (reason : String)
  deriving Repr, BEq

/-- The types of content. -/
inductive ContentKind where
  | json
  | plain
  | html
  | recordSource
  deriving DecidableEq, Repr

/-- The name of a type of content. -/
def ContentKind.type : ContentKind → String
  | json => "application/json"
  | plain => "text/plain; charset=utf-8"
  | html => "text/html; charset=utf-8"
  | recordSource => "text/x-python; charset=utf-8"

namespace Response

/-- An answer as asked. -/
def good (kind : ContentKind) (body : String) : Response :=
  ⟨200, kind.type, body⟩

/-- An answer with a JSON body, which must hold finite numbers only. -/
def json (status : Nat) (body : Value) : Except Refusal Response :=
  if Json.isStandard body then
    .ok ⟨status, ContentKind.json.type, Json.write Json.compact body⟩
  else .error (.failed "Out of range float values are not JSON compliant")

/-- The answer to a failure. -/
def failure : Response :=
  ⟨500, ContentKind.json.type, Json.write Json.compact (.object
    [("detail", .string "Internal server error"), ("error_code", .string "INTERNAL_ERROR")])⟩

end Response

namespace Refusal

/-- A refusal that says why. -/
def because (status : Nat) (detail : String) : Refusal :=
  .refused status (.object [("detail", .string detail)])

/-- The reason of a failure: of this refusal itself, or of writing its body. -/
def failureReason? : Refusal → Option String
  | failed reason => some reason
  | refused status body =>
    match Response.json status body with
    | .error (failed reason) => some reason
    | _ => none

/-- The answer to a refused request. -/
def response : Refusal → Response
  | failed _ => Response.failure
  | refused status body =>
    match Response.json status body with
    | .ok r => r
    | .error _ => Response.failure

end Refusal

end MarkupBinding
