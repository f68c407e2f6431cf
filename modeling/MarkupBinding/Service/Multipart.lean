import MarkupBinding.Text.Blank
import MarkupBinding.Text.Percent

/-!
# Form bodies in parts

A body in parts is cut at a boundary that its content type names. Each part has header lines, an
empty line and its content; the header `Content-Disposition` names the field that the part is for,
and the name of a file where the content is one. What stands before the first part is only line
ends, and what stands behind the last boundary is not read. A part without an end is no part.
-/

set_option autoImplicit false
set_option relaxedAutoImplicit false

namespace MarkupBinding

/-- The content of a form field. -/
inductive FieldContent where
  | text (value : String)
  | file (bytes : List UInt8)
  deriving DecidableEq, Repr

namespace Multipart

/-- Why a body is no form in parts. -/
inductive Fault where
  /-- The content type names no boundary. -/
  | noBoundary
  /-- A part does not say which field it is for. -/
  | noName
  /-- The body is not cut as it should be. -/
  | malformed
  deriving DecidableEq, Repr

/-- The parameters of a header value, cut at semicolons outside of quotes. -/
def cutParams (quoted : Bool) : List Char → List (List Char)
  | [] => [[]]
  | '\\' :: '"' :: rest =>
    match cutParams quoted rest with
    | [] => [['\\', '"']]
    | piece :: pieces => ('\\' :: '"' :: piece) :: pieces
  | c :: rest =>
    if c = ';' && !quoted then [] :: cutParams false rest
    else match cutParams (if c = '"' then !quoted else quoted) rest with
      | [] => [[c]]
      | piece :: pieces => (c :: piece) :: pieces

/-- The characters of a quoted value, with a backslash in front of quotes and backslashes taken
away. -/
def unescape : List Char → List Char
  | [] => []
  | '\\' :: '\\' :: rest => '\\' :: unescape rest
  | '\\' :: '"' :: rest => '"' :: unescape rest
  | c :: rest => c :: unescape rest

/-- A parameter's value without the quotes or angle brackets around it. -/
def unquote (value : String) : String :=
  match value.toList, value.toList.reverse with
  | '"' :: _ :: _, '"' :: _ => String.ofList (unescape (value.toList.drop 1).dropLast)
  | '<' :: _ :: _, '>' :: _ => String.ofList (value.toList.drop 1).dropLast
  | _, _ => value

/-- A parameter: its name in small letters and its value. -/
def paramOf (piece : List Char) : String × String :=
  match Text.cutOnce '=' piece with
  | some (name, value) =>
    (Text.lower (Text.trim (String.ofList name)), unquote (Text.trim (String.ofList value)))
  | none => (Text.trim (String.ofList piece), "")

/-- The first part of a header value and its parameters. -/
def headerParams (value : String) : String × List (String × String) :=
  match (cutParams false value.toList).map paramOf with
  | [] => ("", [])
  | (kind, _) :: params => (kind, params)

/-- The value of the last parameter of a name. -/
def param? (name : String) (params : List (String × String)) : Option String :=
  Text.lastField? name params

/-- The bytes before the first place where a pattern stands, and those behind it. -/
def cutAtBytes (pattern : List UInt8) : List UInt8 → Option (List UInt8 × List UInt8)
  | [] => if pattern.isEmpty then some ([], []) else none
  | b :: rest =>
    if pattern.isPrefixOf (b :: rest) then some ([], (b :: rest).drop pattern.length)
    else (cutAtBytes pattern rest).map fun (front, back) ↦ (b :: front, back)

/-- The two bytes of a line end. -/
def lineEnd : List UInt8 := [13, 10]

/-- The two hyphens in front of a boundary, and behind the last one. -/
def hyphens : List UInt8 := [45, 45]

/-- Whether a byte may stand in the name of a header. -/
def isNameByte (b : UInt8) : Bool :=
  let c := Char.ofNat b.toNat
  c.isAlphanum || "!#$%&'*+-.^_`|~".toList.contains c

/-- What follows in a body. -/
inductive Reading (α : Type) where
  | done (value : α) (rest : List UInt8)
  /-- The body ends too early. -/
  | unfinished
  | malformed

/-- The name and value of a header line. -/
def readHeader (line : List UInt8) : Option (List UInt8 × List UInt8) :=
  match line.span (· != 58) with
  | (name, _ :: value) =>
    if !name.isEmpty && name.all isNameByte then some (name, value.dropWhile (· == 32)) else none
  | (_, []) => none

/-- Reads header lines up to the empty one; `fuel` bounds their number. -/
def readHeaders : Nat → List UInt8 → Reading (List (List UInt8 × List UInt8))
  | 0, _ => .unfinished
  | fuel + 1, bytes =>
    match bytes with
    | [] => .unfinished
    | [13] => .unfinished
    | 13 :: 10 :: rest => .done [] rest
    | _ =>
      match bytes.span (· != 13) with
      | (line, []) => if (line.takeWhile (· != 58)).all isNameByte then .unfinished else .malformed
      | (line, [_]) => if (readHeader line).isSome then .unfinished else .malformed
      | (line, _ :: 10 :: rest) =>
        match readHeader line with
        | none => .malformed
        | some header =>
          match readHeaders fuel rest with
          | .done headers rest => .done (header :: headers) rest
          | .unfinished => .unfinished
          | .malformed => .malformed
      | _ => .malformed

/-- The content of a part up to its boundary: whether another part follows, and the rest. A boundary
counts where a line end or two hyphens follow it. -/
def readContent (boundary : List UInt8) :
    Nat → List UInt8 → Option (List UInt8 × Bool × List UInt8)
  | 0, _ => none
  | fuel + 1, bytes =>
    match cutAtBytes boundary bytes with
    | none => none
    | some (front, 13 :: 10 :: rest) => some (front, true, rest)
    | some (front, 45 :: 45 :: rest) => some (front, false, rest)
    | some (front, rest) =>
      (readContent boundary fuel rest).map fun (more, next) ↦ (front ++ boundary ++ more, next)

/-- The text of bytes that may be of the older one byte encoding. -/
def lenientText (bytes : List UInt8) : String :=
  match Text.utf8Decode bytes with
  | .ok s => s
  | .error _ => String.ofList (bytes.map fun b ↦ Char.ofNat b.toNat)

/-- The text of bytes, one character per byte. -/
def byteText (bytes : List UInt8) : String :=
  String.ofList (bytes.map fun b ↦ Char.ofNat b.toNat)

/-- The bytes of characters, one byte per character. -/
def textBytes (s : String) : List UInt8 :=
  s.toList.map fun c ↦ UInt8.ofNat c.toNat

/-- The field that a part with the given headers is for, and whether it holds a file. -/
def fieldOf (headers : List (List UInt8 × List UInt8)) : Option (String × Bool) :=
  let named := headers.map fun (name, value) ↦ (Text.lower (byteText name), byteText value)
  let (_, params) := headerParams ((Text.lastField? "content-disposition" named).getD "")
  (param? "name" params).map fun name ↦
    (lenientText (textBytes name), (param? "filename" params).isSome)

/-- Reads parts, the headers of the first of which begin here; `fuel` bounds their number. -/
def readParts (boundary : List UInt8) :
    Nat → List UInt8 → Except Fault (List (String × FieldContent))
  | 0, _ => .ok []
  | fuel + 1, bytes =>
    match readHeaders (bytes.length + 1) bytes with
    | .unfinished => .ok []
    | .malformed => .error .malformed
    | .done headers rest =>
      match fieldOf headers with
      | none => .error .noName
      | some (name, isFile) =>
        match readContent boundary (rest.length + 1) rest with
        | none => .ok []
        | some (content, more, rest) =>
          let field := (name, if isFile then .file content else .text (lenientText content))
          if more then (readParts boundary fuel rest).map (field :: ·) else .ok [field]

/-- The fields of a body whose parts are divided by a boundary. -/
def parse (boundary : String) (body : List UInt8) :
    Except Fault (List (String × FieldContent)) :=
  let opening := hyphens ++ textBytes boundary
  let bytes := body.dropWhile fun b ↦ b == 13 || b == 10
  if bytes.length < opening.length + 2 then
    if (opening ++ lineEnd).take bytes.length == bytes ||
        (opening ++ hyphens).take bytes.length == bytes then .ok []
    else .error .malformed
  else if !opening.isPrefixOf bytes then .error .malformed
  else match bytes.drop opening.length with
    | 13 :: 10 :: rest => readParts (lineEnd ++ opening) (rest.length + 1) rest
    | 45 :: 45 :: _ => .ok []
    | _ => .error .malformed

end Multipart

end MarkupBinding
