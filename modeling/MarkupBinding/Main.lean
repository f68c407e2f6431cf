import MarkupBinding.Command.Run

/-!
# The command line

Runs one of the two commands over real files. The first argument names the command, `schema` or
`records`; the others are its own. The template or document that a command names is read into a tree
of files, the command runs on that tree, and the file that it has written there is written out.
-/

set_option autoImplicit false
set_option relaxedAutoImplicit false

namespace MarkupBinding.Command

/-- The name of the program in its messages. -/
def programName : String := "markup-binding"

/-- The commands by name: the grammar, the file written where none is named, and what runs. -/
def commands : List (String × Grammar × String × (FileTree → List String → Outcome)) :=
  let program := fun name ↦ programName ++ " " ++ name
  [("schema", schemaGrammar (program "schema"), schemaOutput, runSchema (program "schema")),
    ("records", recordGrammar (program "records"), recordOutput,
      runRecords none (program "records"))]

/-- The usage of the program. -/
def usage : String :=
  "usage: " ++ programName ++ " (" ++ Text.join " | " (commands.map (·.1)) ++ ") ...\n"

/-- Whether a folder is there. -/
def isFolder (path : String) : IO Bool := do
  try
    (← IO.FS.realPath path).isDir
  catch _ => pure false

/-- The tree with the folder of a path, where that is there. -/
def withFolder (t : FileTree) (l : Location) : IO FileTree := do
  if ← isFolder l.text then
    match t.makeFolders l with
    | .ok t => pure t
    | .error _ => pure t
  else pure t

/-- The tree with the file of a path, where that can be read. -/
def withFile (t : FileTree) (l : Location) : IO FileTree := do
  try
    let bytes ← IO.FS.readBinFile l.text
    match t.write l 0 bytes.toList with
    | .ok t => pure t
    | .error _ => pure t
  catch _ => pure t

/-- The tree with all folders on the way to a location that are there. -/
def withWay (t : FileTree) (l : Location) : IO FileTree :=
  (List.range (l.parts.length + 1)).foldlM
    (fun t depth ↦ withFolder t { l with parts := l.parts.take depth }) t

/-- The tree with what a command works on: the file it reads, and the folders on the way to both. -/
def gather (t : FileTree) (operand output : Location) : IO FileTree := do
  let t ← withWay t operand
  let t ← withWay t output
  withFile t operand

/-- Writes out the file that a command has written. -/
def deliverFile (before after : FileTree) (output : Location) : IO Unit := do
  match before.read output, after.read output with
  | .ok old, .ok new =>
    if old != new then IO.FS.writeBinFile output.text (ByteArray.mk new.toArray)
  | _, .ok new => IO.FS.writeBinFile output.text (ByteArray.mk new.toArray)
  | _, _ => pure ()

/-- Runs a command over the real files and gives its status. -/
def runOver (grammar : Grammar) (standard : String)
    (run : FileTree → List String → Outcome) (args : List String) : IO UInt32 := do
  let start := FileTree.empty (.ofText (← IO.currentDir).toString)
  let (before, output) ← match grammar.read args with
    | .error _ => pure (start, Location.ofText standard)
    | .ok a => do
      let output := Location.ofText ((a.value? outputSwitch.long).getD standard)
      pure (← gather start (.ofText a.operand) output, output)
  match run before args with
  | .error reason =>
    (← IO.getStderr).putStrLn reason.message
    pure 1
  | .ok ending =>
    deliverFile before ending.tree output
    (← IO.getStdout).putStr ending.said
    (← IO.getStderr).putStr ending.complained
    pure ending.status.toUInt32

end MarkupBinding.Command

/-- Runs the command that the first argument names. -/
def main (args : List String) : IO UInt32 := do
  match args with
  | [] =>
    (← IO.getStderr).putStr MarkupBinding.Command.usage
    pure 2
  | name :: rest =>
    match MarkupBinding.Command.commands.lookup name with
    | none =>
      (← IO.getStderr).putStr MarkupBinding.Command.usage
      pure 2
    | some (grammar, standard, run) => MarkupBinding.Command.runOver grammar standard run rest
