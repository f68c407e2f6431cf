import MarkupBinding.Value.Basic

/-!
# Validation issues

Validation reads a value as something of a known shape and lists everything that does not fit, each
issue with the place where it was found and the value that stands there. `Checked.both` and
`Checked.all` put results together without losing an issue.
-/

set_option autoImplicit false
set_option relaxedAutoImplicit false

namespace MarkupBinding

/-- One step on the way from a value to a part of it. -/
inductive PlaceStep where
  | key (name : String)
  | index (number : Nat)
  deriving DecidableEq, Repr

/-- What does not fit. -/
inductive IssueKind where
  | missing
  | notText
  /-- Neither an object nor a record of the named type. -/
  | notRecord (type : String)
  | notList
  | notObject
  | notLocation
  | notFlag
  /-- A number or text that reads as no truth value. -/
  | unreadableFlag
  deriving DecidableEq, Repr

/-- A misfit: its kind, its place and the value found there. -/
structure Issue where
  kind : IssueKind
  place : List PlaceStep
  input : Value
  deriving Repr, BEq

namespace IssueKind

/-- The short name of an issue. -/
def code : IssueKind → String
  | missing => "missing"
  | notText => "string_type"
  | notRecord _ => "model_type"
  | notList => "list_type"
  | notObject => "dict_type"
  | notLocation => "path_type"
  | notFlag => "bool_type"
  | unreadableFlag => "bool_parsing"

/-- The issue in words. -/
def message : IssueKind → String
  | missing => "Field required"
  | notText => "Input should be a valid string"
  | notRecord type => "Input should be a valid dictionary or instance of " ++ type
  | notList => "Input should be a valid list"
  | notObject => "Input should be a valid dictionary"
  | notLocation => "Input is not a valid path"
  | notFlag => "Input should be a valid boolean"
  | unreadableFlag => "Input should be a valid boolean, unable to interpret input"

end IssueKind

/-- The issue seen from one step further out. -/
def Issue.below (step : PlaceStep) (issue : Issue) : Issue :=
  { issue with place := step :: issue.place }

/-- A step as a JSON value. -/
def PlaceStep.toValue : PlaceStep → Value
  | key name => .string name
  | index number => .int number

/-- The issue as a JSON value. -/
def Issue.toValue (issue : Issue) : Value :=
  .object [("type", .string issue.kind.code), ("loc", .list (issue.place.map PlaceStep.toValue)),
    ("msg", .string issue.kind.message), ("input", issue.input)]

/-- A value of the wanted shape, or all that does not fit. -/
abbrev Checked (α : Type) := Except (List Issue) α

namespace Checked

variable {α β : Type}

/-- A single issue with the value as a whole. -/
def issue (kind : IssueKind) (input : Value) : Checked α :=
  .error [⟨kind, [], input⟩]

/-- The result seen from one step further out. -/
def below (step : PlaceStep) : Checked α → Checked α
  | .ok x => .ok x
  | .error issues => .error (issues.map (Issue.below step))

/-- Two results together; the issues of both. -/
def both : Checked α → Checked β → Checked (α × β)
  | .ok x, .ok y => .ok (x, y)
  | .error i, .ok _ => .error i
  | .ok _, .error j => .error j
  | .error i, .error j => .error (i ++ j)

/-- The results of a list together; all issues in order. -/
def all : List (Checked α) → Checked (List α)
  | [] => .ok []
  | x :: rest =>
    match both x (all rest) with
    | .ok (y, ys) => .ok (y :: ys)
    | .error issues => .error issues

end Checked

/-- The small words and digits that read as a truth value. -/
def flagWords : List (String × Bool) :=
  [("0", false), ("off", false), ("f", false), ("false", false), ("n", false), ("no", false),
    ("1", true), ("on", true), ("t", true), ("true", true), ("y", true), ("yes", true)]

/-- The truth value of a word, in any case. -/
def flagOfWord? (s : String) : Option Bool :=
  flagWords.lookup (String.ofList (s.toList.map Char.toLower))

/-- The truth value of an integer: zero and one have one. Integers of more than 64 bits, and among
floats the least of 64 bits as well, count as no truth value at all. -/
def flagOfInt (least : Int) (n : Int) (v : Value) : Checked Bool :=
  if n = 0 then .ok false
  else if n = 1 then .ok true
  else if least ≤ n ∧ n < 0x8000000000000000 then Checked.issue .unreadableFlag v
  else Checked.issue .notFlag v

/-- Reads a truth value: the two values themselves, zero and one, and certain words. -/
def checkFlag (v : Value) : Checked Bool :=
  match v with
  | .bool b => .ok b
  | .int n => flagOfInt (-0x8000000000000000) n v
  | .float x =>
    match x.toInt? with
    | some n => flagOfInt (-0x7fffffffffffffff) n v
    | none => Checked.issue .notFlag v
  | .string s =>
    match flagOfWord? s with
    | some b => .ok b
    | none => Checked.issue .unreadableFlag v
  | _ => Checked.issue .notFlag v

/-- Reads a text and nothing else. -/
def checkText (v : Value) : Checked String :=
  match v with
  | .string s => .ok s
  | _ => Checked.issue .notText v

end MarkupBinding
