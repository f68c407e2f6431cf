/-!
# Cutting and joining texts

Cutting a text at every occurrence of one character, and joining a list of texts with a separator.
The cut keeps empty pieces, so joining the pieces with the same character gives the text back.
-/

set_option autoImplicit false
set_option relaxedAutoImplicit false

namespace MarkupBinding.Text

/-- The pieces between the occurrences of the separator; always at least one. -/
def cutAt (separator : Char) : List Char → List (List Char)
  | [] => [[]]
  | c :: rest =>
    if c = separator then [] :: cutAt separator rest
    else match cutAt separator rest with
      | [] => [[c]]
      | piece :: pieces => (c :: piece) :: pieces

/-- The pieces of a text between the occurrences of the separator. -/
def cut (separator : Char) (s : String) : List String :=
  (cutAt separator s.toList).map String.ofList

/-- The texts in order with the separator between neighbours. -/
def join (separator : String) : List String → String
  | [] => ""
  | [s] => s
  | s :: t :: rest => s ++ separator ++ join separator (t :: rest)

/-- The part before the first occurrence of the separator and the part after it. -/
def cutOnce (separator : Char) : List Char → Option (List Char × List Char)
  | [] => none
  | c :: rest =>
    if c = separator then some ([], rest)
    else (cutOnce separator rest).map fun (front, back) ↦ (c :: front, back)

/-- Whether the first list of characters is an initial part of the second. -/
def startsWith : List Char → List Char → Bool
  | [], _ => true
  | _ :: _, [] => false
  | p :: ps, c :: cs => p == c && startsWith ps cs

/-- The characters after an initial part, if the list begins with it. -/
def after? : List Char → List Char → Option (List Char)
  | [], cs => some cs
  | _ :: _, [] => none
  | p :: ps, c :: cs => if p = c then after? ps cs else none

/-- Whether the first list of characters occurs anywhere in the second. -/
def occursIn (needle : List Char) : List Char → Bool
  | [] => needle.isEmpty
  | c :: rest => startsWith needle (c :: rest) || occursIn needle rest

end MarkupBinding.Text
