import MarkupBinding.Storage.FileName
import MarkupBinding.Text.Split

/-!
# Locations of files

A location is a way down from an anchor: the top of everything, or the folder one is in. Empty parts
and single dots are no part of it. `Location.below` puts a location under a base and takes back a
part for every double dot.
-/

set_option autoImplicit false
set_option relaxedAutoImplicit false

namespace MarkupBinding

/-- A way down from an anchor: slashes for the top of everything, or nothing for the folder one is
in. -/
structure Location where
  anchor : String
  parts : List FileName
  deriving DecidableEq, Repr

namespace Location

/-- The part that stands for the folder above. -/
def above : FileName := ".."

/-- Whether a part leads on: an empty one and a single dot do not. -/
def leadsOn (part : FileName) : Bool :=
  !(part == "" || part == ".")

/-- The parts of a text between slashes, without those that do not lead on. -/
def partsOf (text : String) : List FileName :=
  ((Text.cut '/' text).map FileName.ofText).filter leadsOn

/-- The anchor of a text: exactly two slashes in front are kept, other numbers count as one. -/
def anchorOf : List Char → String
  | '/' :: '/' :: '/' :: _ => "/"
  | '/' :: '/' :: _ => "//"
  | '/' :: _ => "/"
  | _ => ""

/-- The location that a text names. -/
def ofText (text : String) : Location :=
  ⟨anchorOf text.toList, partsOf text⟩

/-- The location as text; the folder one is in is a single dot. -/
def text (l : Location) : String :=
  if l.parts.isEmpty && l.anchor.isEmpty then "."
  else l.anchor ++ Text.join "/" (l.parts.map FileName.shown)

/-- The location that a name leads to from a folder; the folder itself where it does not lead on. -/
def child (l : Location) (name : FileName) : Location :=
  { l with parts := l.parts ++ [name].filter leadsOn }

/-- The parts behind those gone already, with every double dot taking one back. -/
def follow (gone : List FileName) : List FileName → List FileName
  | [] => gone
  | part :: rest => follow (if part == above then gone.dropLast else gone ++ [part]) rest

/-- The location under a base, if it has no anchor of its own; without double dots. -/
def below (base l : Location) : Location :=
  if l.anchor.isEmpty then { base with parts := follow base.parts l.parts }
  else ⟨"/", follow [] l.parts⟩

/-- The location with a tilde in front replaced by the home folder; nothing where the tilde names
somebody's home. -/
def expandHome (l home : Location) : Option Location :=
  match l.anchor.isEmpty, l.parts with
  | true, part :: rest =>
    if part == "~" then some { home with parts := home.parts ++ rest }
    else if part.shown.startsWith "~" then none
    else some l
  | _, _ => some l

end Location

end MarkupBinding
