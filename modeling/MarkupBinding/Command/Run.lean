import MarkupBinding.Command.Arguments
import MarkupBinding.Record.Source
import MarkupBinding.Schema.Document
import MarkupBinding.Template.Use

/-!
# The two commands

One command reads the schema off a template file and writes it as an indented schema document; the
other reads such a document and writes the source text of the record types. Both say what they did,
or what is wrong with the input.
-/

set_option autoImplicit false
set_option relaxedAutoImplicit false

namespace MarkupBinding.Command

/-- What a command that came to its end leaves: its status, what it said, and the files. -/
structure Ending where
  status : Nat
  said : String
  complained : String
  tree : FileTree

/-- Why a command does not come to its end. -/
inductive Break where
  | use (fault : UseFault)
  | file (l : Location) (fault : PathFault)
  | document (error : DocumentError)

/-- The reason in words. -/
def Break.message : Break → String
  | use fault => fault.message
  | file l fault => fault.message l
  | document error => error.message

/-- What a command comes to. -/
abbrev Outcome := Except Break Ending

/-- The ending of a command that stops at its arguments. -/
def Stop.ending (tree : FileTree) : Stop → Ending
  | help text => ⟨0, text, "", tree⟩
  | misuse text => ⟨2, "", text, tree⟩

/-- The ending of a command with wrong input. -/
def complaint (tree : FileTree) (text : String) : Outcome :=
  .ok ⟨1, "", text ++ "\n", tree⟩

/-- Writes the result of a command to a file and says so. -/
def deliver (tree : FileTree) (output text done : String) : Outcome :=
  let l := Location.ofText output
  match tree.write l 0 (Text.utf8Encode text) with
  | .error fault => .error (.file l fault)
  | .ok tree => .ok ⟨0, done ++ l.text ++ "\n", "", tree⟩

/-- The switch for the file that the result is written to. -/
def outputSwitch : Switch :=
  ⟨some 'o', "output", some "OUTPUT", ""⟩

/-- The file that a schema document is written to where none is named. -/
def schemaOutput : String := "data.json"

/-- The file that the source text of record types is written to where none is named. -/
def recordOutput : String := "records.py"

/-- The switch that leaves out components that take nothing. -/
def dropEmptySwitch : Switch :=
  ⟨none, "drop-empty", none, "Leave out components without properties"⟩

/-- What the command for schemas takes. -/
def schemaGrammar (program : String) : Grammar where
  program := program
  description := "Schema extraction script."
  operand := "template"
  operandHelp := "HTML template to scan"
  switches := [outputSwitch, dropEmptySwitch]

/-- What the command for record types takes. -/
def recordGrammar (program : String) : Grammar where
  program := program
  description := "Typed record generation script."
  operand := "schema"
  operandHelp := "Schema JSON file"
  switches := [outputSwitch]

/-- Whether the fault is one of the template's own, for which the command has words. -/
def isOwnFault : UseFault → Bool
  | .template (.missing _) => true
  | .bind (.lostStencil _) => false
  | .bind _ => true
  | _ => false

/-- Reads the schema off a template file and writes its document. -/
def extractSchema (tree : FileTree) (template : String) (dropEmpty : Bool) (output : String) :
    Outcome :=
  let source := TemplateSource.fresh (.ofText template) Markup.readerName "utf-8" false
  match (source.schema tree !dropEmpty).result with
  | .error fault =>
    if isOwnFault fault then complaint tree ("Error parsing HTML file: " ++ fault.message)
    else .error (.use fault)
  | .ok none => complaint tree "No data-component elements found"
  | .ok (some schema) =>
    deliver tree output (Json.writeDocument schema.toDocument) "Schema successfully saved to "

/-- Runs the command for schemas. -/
def runSchema (program : String) (tree : FileTree) (args : List String) : Outcome :=
  match (schemaGrammar program).read args with
  | .error stop => .ok (stop.ending tree)
  | .ok a =>
    extractSchema tree a.operand (a.has dropEmptySwitch.long)
      ((a.value? outputSwitch.long).getD schemaOutput)

/-- The greatest number of bytes of a value that is shown whole. -/
def shownLimit : Nat := 50

/-- The longest initial part that has no more bytes than the limit. -/
def fitting (limit : Nat) : List Char → List Char
  | [] => []
  | c :: rest =>
    let size := (String.utf8EncodeChar c).length
    if size ≤ limit then c :: fitting (limit - size) rest else []

/-- The text, with its middle left out where it is long. -/
def shortened (text : String) : String :=
  if (Text.utf8Encode text).length ≤ shownLimit then text
  else
    let half := shownLimit / 2
    String.ofList (fitting half text.toList) ++ "..." ++
      String.ofList (fitting (half - 1) text.toList.reverse).reverse

/-- The place of an issue, its steps with dots between. -/
def placeText (place : List PlaceStep) : String :=
  Text.join "." (place.map fun
    | .key name => name
    | .index number => toString number)

/-- An issue in words, with the place where more is said of it. -/
def issueText (guide : Option String) (issue : Issue) : String :=
  let place := if issue.place.isEmpty then "" else placeText issue.place ++ "\n"
  let more := match guide with
    | some guide => "\n    For further information visit " ++ guide ++ issue.kind.code
    | none => ""
  place ++ "  " ++ issue.kind.message ++ " [type=" ++ issue.kind.code ++ ", input_value=" ++
    shortened issue.input.literal ++ ", input_type=" ++ issue.input.kind ++ "]" ++ more

/-- Issues in words. -/
def issuesText (guide : Option String) (record : String) (issues : List Issue) : String :=
  toString issues.length ++ " validation error" ++ (if issues.length = 1 then "" else "s") ++
    " for " ++ record ++ "\n" ++ Text.join "\n" (issues.map (issueText guide))

/-- Why a value is no schema document, in words, if that is all that is wrong. -/
def documentFault? (guide : Option String) : DocumentError → Option String
  | .notSingle found => some (DocumentError.message (.notSingle found))
  | .badPair place length => some (DocumentError.message (.badPair place length))
  | .misfit record issues => some (issuesText guide record issues)
  | .notSized | .notEntries | .notPairs => none

/-- Why a JSON text cannot be read, in words. -/
def jsonFault (e : Json.Error) : String :=
  match e.fault with
  | .hugeInteger digits => (Json.Fault.hugeInteger digits).message
  | _ => e.message

/-- Reads a schema document and writes the source text of its record types. `guide` begins the
addresses where more is said of issues. -/
def generateRecords (guide : Option String) (tree : FileTree) (document output : String) :
    Outcome :=
  let l := Location.ofText document
  let reject := fun text ↦ complaint tree ("Error reading schema: " ++ text)
  match tree.read l with
  | .error .absent | .error .notFolder =>
    complaint tree ("Error: " ++ l.text ++ " not found!")
  | .error fault => .error (.file l fault)
  | .ok bytes =>
    match Text.Encoding.utf8.read bytes with
    | .error e => reject (e.message Text.Encoding.utf8.shown)
    | .ok text =>
      match Json.parse text with
      | .error e => reject (jsonFault e)
      | .ok value =>
        match Schema.ofDocument value with
        | .error e =>
          match documentFault? guide e with
          | some text => reject text
          | none => .error (.document e)
        | .ok schema => deliver tree output schema.recordSource "Records written to "

/-- Runs the command for record types. -/
def runRecords (guide : Option String) (program : String) (tree : FileTree)
    (args : List String) : Outcome :=
  match (recordGrammar program).read args with
  | .error stop => .ok (stop.ending tree)
  | .ok a =>
    generateRecords guide tree a.operand ((a.value? outputSwitch.long).getD recordOutput)

end MarkupBinding.Command
