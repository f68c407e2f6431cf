import MarkupBinding.Storage.FileTree
import MarkupBinding.Text.Encoding

/-!
# Saved inputs

A form store keeps inputs as files of one folder. `FormStore.save` writes a new file under the first
name of a supply that is free, so that nothing is ever overwritten; `FormStore.names` lists the
files with the suffix of saved inputs in the order of their names; and `FormStore.load` reads a file
by its name, which must not lead out of the folder, or the one saved last. What a name holds is
tested on the name as it is shown: no test asks for the characters that stand in for others there.
-/

set_option autoImplicit false
set_option relaxedAutoImplicit false

namespace MarkupBinding

/-- A store of saved inputs: its folder, made when the first input is saved. -/
structure FormStore where
  folder : Location
  deriving DecidableEq, Repr

/-- Why a saved input cannot be read. -/
inductive FormFault where
  /-- Nothing is saved. -/
  | noneSaved
  /-- No file of the name. -/
  | unknown (name : FileName)
  /-- The name might lead out of the folder. -/
  | badName (name : FileName)
  /-- The file is not text. -/
  | unreadable (error : Text.ByteError)
  /-- The folder or the file cannot be reached. -/
  | unreachable (fault : PathFault)
  deriving DecidableEq, Repr

/-- Why an input cannot be saved. -/
inductive SaveFault where
  /-- What cannot be done at which location. -/
  | unreachable (l : Location) (fault : PathFault)
  /-- The supply of names came to its end. -/
  | noFreeName
  deriving DecidableEq, Repr

/-- The outcome of saving: the tree and the supply afterwards, and the name of the file. -/
structure Saving where
  tree : FileTree
  ids : List String
  result : Except SaveFault String

namespace FormStore

/-- The name that stands for the input saved last. -/
def latestName : String := "latest"

/-- The suffix of saved inputs. -/
def suffix : String := ".json"

/-- The name of the file for an identifier. -/
def fileName (id : String) : String :=
  id ++ suffix

/-- The part of a name from its last dot on; nothing where that dot is the first or the last
character. -/
def suffixOf (name : String) : String :=
  let cs := name.toList
  let tail := cs.reverse.takeWhile (· != '.')
  if tail.isEmpty || cs.length ≤ tail.length + 1 then ""
  else String.ofList ('.' :: tail.reverse)

/-- Whether a name has the suffix of saved inputs, in letters of either case. -/
def isInputName (name : FileName) : Bool :=
  Text.lower (suffixOf name.shown) == suffix

/-- Whether a name could lead out of the folder. -/
def isBadName (name : FileName) : Bool :=
  let cs := name.shown.toList
  cs.isEmpty || Text.occursIn "..".toList cs || cs.contains '/' || cs.contains '\\'

/-- The saved inputs among entries, with their times and bytes. -/
def inputs : List (FileName × Entry) → List (FileName × Int × List UInt8)
  | [] => []
  | (name, .file time bytes) :: rest =>
    if isInputName name then (name, time, bytes) :: inputs rest else inputs rest
  | (_, .folder _ _) :: rest => inputs rest

/-- The saved inputs of the store; none while the folder is not there. -/
def saved (s : FormStore) (t : FileTree) :
    Except PathFault (List (FileName × Int × List UInt8)) :=
  match t.find s.folder with
  | .ok (.folder _ entries) => .ok (inputs entries)
  | .ok (.file _ _) => .error .notFolder
  | .error .nameTooLong => .error .nameTooLong
  | .error _ => .ok []

/-- The names of the saved inputs in order. -/
def names (s : FormStore) (t : FileTree) : Except PathFault (List FileName) :=
  (s.saved t).map fun files ↦ (files.map (·.1)).mergeSort fun a b ↦ decide (a ≤ b)

/-- The one saved last; of several, the one that comes first. -/
def newest : List (FileName × Int × List UInt8) → Option (FileName × Int × List UInt8)
  | [] => none
  | f :: rest =>
    match newest rest with
    | none => some f
    | some g => if f.2.1 < g.2.1 then some g else some f

/-- The bytes of the saved input with a name. -/
def bytesOf (s : FormStore) (t : FileTree) (name : FileName) : Except FormFault (List UInt8) :=
  if name == latestName then
    match s.saved t with
    | .error fault => .error (.unreachable fault)
    | .ok files =>
      match newest files with
      | none => .error .noneSaved
      | some f => .ok f.2.2
  else if isBadName name then .error (.badName name)
  else
    match t.find (s.folder.child name) with
    | .ok (.file _ bytes) => .ok bytes
    | .error .nameTooLong => .error (.unreachable .nameTooLong)
    | _ => .error (.unknown name)

/-- The text of the saved input with a name. -/
def load (s : FormStore) (t : FileTree) (name : FileName) : Except FormFault String :=
  match s.bytesOf t name with
  | .error fault => .error fault
  | .ok bytes => (Text.Encoding.utf8.read bytes).mapError .unreadable

/-- The first identifier of a supply that passes, and the supply behind it. -/
def firstFree (free : String → Bool) : List String → Option (String × List String)
  | [] => none
  | id :: rest => if free id then some (id, rest) else firstFree free rest

/-- Makes the folder of the store, if nothing is there. -/
def ensureFolder (s : FormStore) (t : FileTree) : Except PathFault FileTree :=
  if t.has s.folder then .ok t else t.makeFolders s.folder

/-- Saves a text under the first free name of a supply of identifiers, at a time. -/
def save (s : FormStore) (t : FileTree) (time : Int) (ids : List String) (content : String) :
    Saving :=
  match s.ensureFolder t with
  | .error fault => ⟨t, ids, .error (.unreachable s.folder fault)⟩
  | .ok t =>
    match firstFree (fun id ↦ !t.has (s.folder.child (fileName id))) ids with
    | none => ⟨t, [], .error .noFreeName⟩
    | some (id, ids) =>
      let l := s.folder.child (fileName id)
      match t.write l time (Text.utf8Encode content) with
      | .error fault => ⟨t, ids, .error (.unreachable l fault)⟩
      | .ok t => ⟨t, ids, .ok (fileName id)⟩

end FormStore

/-- The error in words, where it has some. -/
def FormFault.message : FormFault → String
  | noneSaved => "No files found in forms directory"
  | unknown name => "File not found: " ++ name.shown
  | badName name => "Invalid filename: " ++ name.shown
  | unreadable e => e.message Text.Encoding.utf8.shown
  | unreachable _ => ""

/-- Why an input cannot be saved, in words. -/
def SaveFault.message : SaveFault → String
  | unreachable l fault => fault.message l
  | noFreeName => "No free name"

/-- A supply of identifiers: some that are given, and then the numbers from zero on, eight digits
each. -/
def idSupply (given : List String) (count : Nat) : List String :=
  given ++ (List.range count).map fun n ↦ String.ofList (Text.hexDigits 8 n)

end MarkupBinding
