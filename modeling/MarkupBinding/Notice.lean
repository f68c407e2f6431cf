/-!
# Notices

What an operation tells beside its result: texts of two levels, in the order in which they arise.
-/

set_option autoImplicit false
set_option relaxedAutoImplicit false

namespace MarkupBinding

/-- How serious a notice is. -/
inductive Level where
  | warning
  | error
  deriving DecidableEq, Repr

/-- A text that an operation reports beside its result. -/
structure Notice where
  level : Level
  text : String
  deriving DecidableEq, Repr

/-- The word for a level. -/
def Level.word : Level → String
  | warning => "WARNING"
  | error => "ERROR"

/-- The notice on one line. -/
def Notice.line (n : Notice) : String :=
  n.level.word ++ ": " ++ n.text

end MarkupBinding
