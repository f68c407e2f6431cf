import MarkupBinding.Json.Writer

/-!
# Values as markup text

What a binding shows for a value: a text as it is, a truth value as a small word, a record as
compact JSON, lists and objects as spaced JSON, and all else in its literal form.
-/

set_option autoImplicit false
set_option relaxedAutoImplicit false

namespace MarkupBinding.Value

/-- The text that a binding shows for a value. -/
def display : Value → String
  | .bool b => if b then "true" else "false"
  | .string s => s
  | .record type fields => Json.write Json.compact (.record type fields)
  | .object fields => Json.write Json.spaced (.object fields)
  | .list items => Json.write Json.spaced (.list items)
  | other => other.literal

end MarkupBinding.Value
