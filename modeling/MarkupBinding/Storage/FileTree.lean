import MarkupBinding.Keyed
import MarkupBinding.Storage.Location

/-!
# File trees

Files and folders, each with the time of its last change. A way down is followed part by part: every
part but the last must lead to a folder, and a name is at most 255 bytes long. Writing, making
folders and removing give the tree after the change, or the fault for which nothing changes.
-/

set_option autoImplicit false
set_option relaxedAutoImplicit false

namespace MarkupBinding

/-- A file with its bytes, or a folder with its entries in the order in which they were made; each
with the time of its last change. -/
inductive Entry where
  | file (time : Int) (bytes : List UInt8)
  | folder (time : Int) (entries : List (FileName × Entry))
  deriving Repr

/-- Why something cannot be done at a location. -/
inductive PathFault where
  | absent
  /-- Something is there already. -/
  | present
  /-- A part that is not the last one leads to a file. -/
  | notFolder
  | isFolder
  | nameTooLong
  deriving DecidableEq, Repr

/-- The fault in words, for the location where it was met. -/
def PathFault.message (l : Location) (fault : PathFault) : String :=
  (match fault with
    | absent => "[Errno 2] No such file or directory"
    | present => "[Errno 17] File exists"
    | notFolder => "[Errno 20] Not a directory"
    | isFolder => "[Errno 21] Is a directory"
    | nameTooLong => "[Errno 36] File name too long") ++ ": " ++ Text.quoted l.text

namespace Entry

/-- The time of the last change. -/
def time : Entry → Int
  | file time _ => time
  | folder time _ => time

/-- The entry with another time. -/
def withTime (time : Int) : Entry → Entry
  | file _ bytes => file time bytes
  | folder _ entries => folder time entries

/-- The greatest number of bytes of a name. -/
def nameLimit : Nat := 255

/-- Looks a name up among entries. A name with a null byte is never there. -/
def lookUp (name : FileName) (entries : List (FileName × Entry)) :
    Except PathFault (Option Entry) :=
  if name.bytes.contains 0 then .ok none
  else if nameLimit < name.bytes.length then .error .nameTooLong
  else .ok (entries.lookup name)

/-- What is found on a way down. -/
def find : List FileName → Entry → Except PathFault Entry
  | [], e => .ok e
  | _ :: _, file _ _ => .error .notFolder
  | name :: rest, folder _ entries =>
    match lookUp name entries with
    | .error fault => .error fault
    | .ok none => .error .absent
    | .ok (some e) => find rest e

/-- Changes what a way down leads to; `change` gets what is there and gives what is to be there. -/
def changeAt (change : Option Entry → Except PathFault Entry) :
    List FileName → Entry → Except PathFault Entry
  | [], e => change (some e)
  | _ :: _, file _ _ => .error .notFolder
  | [name], folder time entries =>
    match lookUp name entries with
    | .error fault => .error fault
    | .ok there => (change there).map fun e ↦ folder time (Keyed.set name e entries)
  | name :: rest, folder time entries =>
    match lookUp name entries with
    | .error fault => .error fault
    | .ok none => .error .absent
    | .ok (some e) =>
      (changeAt change rest e).map fun e ↦ folder time (Keyed.set name e entries)

/-- Puts a file in the place of what is there, unless that is a folder. -/
def putFile (time : Int) (bytes : List UInt8) : Option Entry → Except PathFault Entry
  | some (folder _ _) => .error .isFolder
  | _ => .ok (file time bytes)

/-- Makes the folders on a way down that are not there. -/
def makeFolders : List FileName → Entry → Except PathFault Entry
  | [], folder time entries => .ok (folder time entries)
  | [], file _ _ => .error .present
  | _ :: _, file _ _ => .error .notFolder
  | name :: rest, folder time entries =>
    match lookUp name entries with
    | .error fault => .error fault
    | .ok there =>
      (makeFolders rest (there.getD (folder 0 []))).map fun e ↦
        folder time (Keyed.set name e entries)

/-- Removes the file that a way down leads to. -/
def removeFile : List FileName → Entry → Except PathFault Entry
  | [], _ => .error .isFolder
  | _ :: _, file _ _ => .error .notFolder
  | name :: rest, folder time entries =>
    match lookUp name entries, rest with
    | .error fault, _ => .error fault
    | .ok none, _ => .error .absent
    | .ok (some (file _ _)), [] => .ok (folder time (Keyed.erase name entries))
    | .ok (some (folder _ _)), [] => .error .isFolder
    | .ok (some e), next :: rest =>
      (removeFile (next :: rest) e).map fun e ↦ folder time (Keyed.set name e entries)

end Entry

/-- All files and folders, and the folder one is in. -/
structure FileTree where
  folder : Location
  top : Entry
  deriving Repr

namespace FileTree

/-- The parts of a way with every double dot taking back the part before it, which must lead to a
folder; `gone` holds the parts so far. -/
def followFrom (top : Entry) (gone : List FileName) :
    List FileName → Except PathFault (List FileName)
  | [] => .ok gone
  | part :: rest =>
    if part == Location.above then
      match top.find gone with
      | .error fault => .error fault
      | .ok (.file _ _) => .error .notFolder
      | .ok (.folder _ _) => followFrom top gone.dropLast rest
    else followFrom top (gone ++ [part]) rest

/-- The way from the top to a location. -/
def wayTo (t : FileTree) (l : Location) : Except PathFault (List FileName) :=
  followFrom t.top (if l.anchor.isEmpty then t.folder.parts else []) l.parts

/-- What is found at a location. -/
def find (t : FileTree) (l : Location) : Except PathFault Entry :=
  match t.wayTo l with
  | .error fault => .error fault
  | .ok parts => t.top.find parts

/-- The tree with its top changed on the way to a location. -/
def change (t : FileTree) (l : Location)
    (f : List FileName → Entry → Except PathFault Entry) : Except PathFault FileTree :=
  match t.wayTo l with
  | .error fault => .error fault
  | .ok parts => (f parts t.top).map fun top ↦ { t with top := top }

/-- The bytes of a file. -/
def read (t : FileTree) (l : Location) : Except PathFault (List UInt8) :=
  match t.find l with
  | .error fault => .error fault
  | .ok (.folder _ _) => .error .isFolder
  | .ok (.file _ bytes) => .ok bytes

/-- Writes a file. -/
def write (t : FileTree) (l : Location) (time : Int) (bytes : List UInt8) :
    Except PathFault FileTree :=
  t.change l (Entry.changeAt (Entry.putFile time bytes))

/-- Makes a folder and those above it, as far as they are not there. -/
def makeFolders (t : FileTree) (l : Location) : Except PathFault FileTree :=
  t.change l Entry.makeFolders

/-- Sets the time of what is at a location. -/
def setTime (t : FileTree) (l : Location) (time : Int) : Except PathFault FileTree :=
  t.change l (Entry.changeAt fun
    | some e => .ok (e.withTime time)
    | none => .error .absent)

/-- Removes a file. -/
def remove (t : FileTree) (l : Location) : Except PathFault FileTree :=
  t.change l Entry.removeFile

/-- Whether something is at a location. -/
def has (t : FileTree) (l : Location) : Bool :=
  match t.find l with
  | .ok _ => true
  | .error _ => false

/-- The tree that holds only the folder one is in. -/
def empty (folder : Location) : FileTree :=
  let bare := Entry.folder 0 []
  match bare.makeFolders folder.parts with
  | .ok top => ⟨folder, top⟩
  | .error _ => ⟨folder, bare⟩

end FileTree

end MarkupBinding
