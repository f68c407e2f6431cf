import MarkupBinding.Text.Percent

/-!
# Requests

A request names a method and a target, and carries headers and a body. The target is an address
below the service: a path, and behind a question mark the fields of a query. Both are decoded where
they are read, and nothing else is done to them: dots are parts of a path like others.

A client does more to an address before it asks for it: it drops the parts of the path that are
single dots, and double dots take back the part before them. `Request.sent` is the request that a
client makes of one that is written down; what is escaped is no dot to it.
-/

set_option autoImplicit false
set_option relaxedAutoImplicit false

namespace MarkupBinding

/-- A request to the service. -/
structure Request where
  method : String
  target : String
  headers : List (String × String)
  body : List UInt8
  deriving DecidableEq, Repr

namespace Request

/-- The method in capital letters. -/
def verb (r : Request) : String :=
  Text.upper r.method

/-- The target up to the sign that ends an address within a page. -/
def address (r : Request) : List Char :=
  r.target.toList.takeWhile (· != '#')

/-- The path of the target, decoded. -/
def path (r : Request) : String :=
  Text.percentDecode (String.ofList (r.address.takeWhile (· != '?')))

/-- The fields of the target's query. -/
def query (r : Request) : List (String × String) :=
  let text := String.ofList ((r.address.dropWhile (· != '?')).drop 1)
  ((Text.cut '&' text).filter (!·.isEmpty)).map Text.fieldOf

/-- The first header of a name, whose letters count in either case. -/
def header? (r : Request) (name : String) : Option String :=
  (r.headers.find? fun h ↦ Text.lower h.1 == Text.lower name).map (·.2)

/-! ### What a client sends -/

/-- The parts of a path without the dots that lead nowhere; `gone` holds the parts so far. -/
def plainParts (gone : List String) : List String → List String
  | [] => gone
  | part :: rest =>
    if part == "." then plainParts gone rest
    else if part == ".." then plainParts (if gone == [""] then gone else gone.dropLast) rest
    else plainParts (gone ++ [part]) rest

/-- The path of an address without dots, beginning with a slash. -/
def plainPath (path : String) : String :=
  let plain := Text.join "/" (plainParts [] (Text.cut '/' path))
  if plain.startsWith "/" then plain else "/" ++ plain

/-- The request as a client sends it. -/
def sent (r : Request) : Request :=
  let path := r.address.takeWhile (· != '?')
  { r with target := plainPath (String.ofList path) ++ String.ofList (r.address.drop path.length) }

end Request

end MarkupBinding
