import MarkupBinding.Json.Reader
import MarkupBinding.Text.Blank

/-!
# Input documents

An input document is the JSON text of the data to bind. A text of blanks only is missing input.
-/

set_option autoImplicit false
set_option relaxedAutoImplicit false

namespace MarkupBinding

/-- Why a text is no input document. -/
inductive InputError where
  /-- Nothing but blanks. -/
  | missing
  /-- Not JSON. -/
  | malformed (error : Json.Error)
  /-- A whole number beyond the limit of what is read, of so many digits. -/
  | tooLong (digits : Nat)
  deriving DecidableEq, Repr

/-- The error in words. -/
def InputError.message : InputError → String
  | missing => "Missing JSON data"
  | malformed error => "Invalid JSON format - " ++ error.message
  | tooLong digits => (Json.Fault.hugeInteger digits).message

/-- The data of an input document. -/
def decodeInput (text : String) : Except InputError Value :=
  if Text.isBlankText text then .error .missing
  else match Json.parse text with
    | .ok data => .ok data
    | .error e =>
      match e.fault with
      | .hugeInteger digits => .error (.tooLong digits)
      | _ => .error (.malformed e)

end MarkupBinding
