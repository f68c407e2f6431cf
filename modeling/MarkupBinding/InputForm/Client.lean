import MarkupBinding.InputForm.Drawing
import MarkupBinding.InputForm.Fields
import MarkupBinding.Json.Reader
import MarkupBinding.Service.Route

/-!
# Calls from the page to the service

The page works through the service: it asks for the schema, renders and saves the input document,
and lists and loads saved ones. A call that the service refuses and one that does not reach it are
faults with texts of their own; `CallFault.message` gives the text for each. An address with a
control character is not called at all and ends the drawing.
-/

set_option autoImplicit false
set_option relaxedAutoImplicit false

namespace MarkupBinding.InputForm

/-- What a page remembers from drawing to drawing. -/
inductive Remembered where
  /-- The number of rows of a list. -/
  | rows (count : Int)
  /-- The data of a loaded input. -/
  | defaults (data : Value)
  /-- The markup rendered last. -/
  | rendered (markup : String)
  deriving Repr

/-- All that is remembered, by key. -/
abbrev Session := List (String × Remembered)

namespace Session

/-- The key of the data of a loaded input. -/
def defaultsKey : String := "defaults"

/-- The key of the markup rendered last. -/
def renderedKey : String := "rendered"

/-- The remembered numbers of rows. -/
def rowCounts (session : Session) : RowCounts :=
  session.filterMap fun
    | (key, .rows count) => some (key, count)
    | _ => none

/-- The session with numbers of rows set. -/
def withRowCounts (counts : RowCounts) (session : Session) : Session :=
  Keyed.update session (counts.map fun (key, count) ↦ (key, .rows count))

/-- The data of a loaded input, else the empty object. -/
def defaults (session : Session) : Value :=
  match session.lookup defaultsKey with
  | some (.defaults data) => data
  | _ => .object []

/-- The session that remembers a loaded input and nothing else. -/
def load (data : Value) (session : Session) : Session :=
  Keyed.set defaultsKey (.defaults data) (session.filter fun entry ↦ entry.1 == defaultsKey)

/-- The markup rendered last, else nothing. -/
def markup (session : Session) : String :=
  match session.lookup renderedKey with
  | some (.rendered markup) => markup
  | _ => ""

/-- The session that remembers rendered markup. -/
def withMarkup (markup : String) (session : Session) : Session :=
  Keyed.set renderedKey (.rendered markup) session

end Session

/-- A page in use: the service it works through, what it remembers, the time of the last call, and
the notices of the service so far. -/
structure Visit where
  service : Service
  session : Session
  time : Int
  notices : List Notice

/-- How the page reaches the service. -/
structure Connection where
  /-- The address of the service. -/
  base : String
  /-- The address below which more is said of a status. -/
  guide : String
  /-- Why no call reaches the service, if so. -/
  outage : Option String

/-- Why a call brings no answer. -/
inductive CallFault where
  | unreachable (reason : String)
  | refused (address : String) (response : Response)
  deriving DecidableEq, Repr

/-- The short text for a status. -/
def statusPhrase : Nat → String
  | 400 => "Bad Request"
  | 404 => "Not Found"
  | 405 => "Method Not Allowed"
  | 422 => "Unprocessable Entity"
  | 500 => "Internal Server Error"
  | _ => ""

/-- The fault in words. -/
def CallFault.message (c : Connection) : CallFault → String
  | unreachable reason => reason
  | refused address response =>
    (if response.status < 500 then "Client" else "Server") ++ " error '" ++
      toString response.status ++ " " ++ statusPhrase response.status ++ "' for url '" ++ address ++
      "'\nFor more information check: " ++ c.guide ++ toString response.status

/-- Whether a character of a query stands for itself in an address. -/
def plainInQuery (c : Char) : Bool :=
  decide (' ' < c) && decide (c ≤ '~') && !(['"', '#', '<', '>'].contains c)

/-- Whether a character of a path stands for itself in an address. -/
def plainInPath (c : Char) : Bool :=
  plainInQuery c && !(['?', '\x60', '\x7b', '\x7d'].contains c)

/-- Whether a character behind the sign that ends an address within a page stands for itself. -/
def plainInFragment (c : Char) : Bool :=
  c == '#' || (plainInQuery c && c != '\x60')

/-- The written address of a request. -/
def writtenAddress (c : Connection) (r : Request) : String :=
  let path := r.address.takeWhile (· != '?')
  c.base ++ Text.percentEncode plainInPath (Request.plainPath (String.ofList path)) ++
    Text.percentEncode plainInQuery (String.ofList (r.address.drop path.length)) ++
    Text.percentEncode plainInFragment (String.ofList (r.target.toList.drop r.address.length))

/-- Whether a character has no place in an address. -/
def isControl (c : Char) : Bool :=
  decide (c < ' ') || c == '\x7f'

/-- Calls the service with the request as a client sends it. What is saved by the call gets the time
of the call. -/
def call (c : Connection) (r : Request) : Drawing Visit (Except CallFault Response) := do
  if r.target.toList.any isControl then Drawing.fail .badAddress
  else
    let visit ← Drawing.state
    let visit := { visit with time := visit.time + 1 }
    match c.outage with
    | some reason =>
      Drawing.change fun _ ↦ visit
      pure (.error (.unreachable reason))
    | none =>
      let (service, notices, response) := visit.service.respond visit.time r.sent
      Drawing.change fun _ ↦
        { visit with service := service, notices := visit.notices ++ notices }
      if response.status < 400 then pure (.ok response)
      else pure (.error (.refused (writtenAddress c r) response))

/-- The request for what stands below the address of the service. -/
def asking (target : String) : Request :=
  ⟨"GET", target, [], []⟩

/-- The request that hands an input document over. -/
def handing (target : String) (headers : List (String × String)) (document : Value) : Request :=
  ⟨"POST", target, headers, Text.utf8Encode (Json.write Json.spaced document)⟩

/-- The JSON body of a response. -/
def bodyOf (response : Response) : Drawing Visit Value :=
  match Json.parse response.body with
  | .ok value => pure value
  | .error e =>
    match e.fault with
    | .hugeInteger _ => Drawing.fail .hugeNumber
    | _ => Drawing.fail .notJson

/-- The named entry of an object, where it is a text. -/
def textIn (name : String) (body : Value) : String :=
  match body.property? name with
  | some (.string s) => s
  | _ => ""

/-- The named entry of an object, where it is a list of texts. -/
def textsIn (name : String) (body : Value) : List String :=
  match body.property? name with
  | some (.list items) => items.filterMap fun
    | .string s => some s
    | _ => none
  | _ => []

/-- Whether the service answers. -/
def isReached (c : Connection) : Drawing Visit Bool := do
  match ← call c (asking "/health") with
  | .ok _ => pure true
  | .error _ => pure false

/-- The names of the saved inputs; none where they cannot be had. -/
def savedNames (c : Connection) : Drawing Visit (List String) := do
  match ← call c (asking "/forms") with
  | .ok response => return textsIn "forms" (← bodyOf response)
  | .error _ => pure []

/-- Shows a fault of something that was tried. -/
def complain (c : Connection) (what : String) : CallFault → Drawing Visit Unit
  | .refused _ response => do
    Drawing.say .error (what ++ " failed: " ++ toString response.status)
    Drawing.say .error response.body
  | fault => Drawing.say .error (what ++ " error: " ++ fault.message c)

/-- The schema document of the template. -/
def fetchSchema (c : Connection) : Drawing Visit (Option Value) := do
  match ← call c (asking "/schema") with
  | .ok response => return some (← bodyOf response)
  | .error fault =>
    complain c "Schema fetch" fault
    pure none

/-- The data of a saved input. -/
def fetchSaved (c : Connection) (name : String) : Drawing Visit (Option Value) := do
  match ← call c (asking ("/forms/" ++ name)) with
  | .ok response => return some (← bodyOf response)
  | .error fault =>
    Drawing.say .error ("Could not load " ++ name ++ ": " ++ fault.message c)
    pure none

/-- Renders an input document and remembers the markup. -/
def renderDocument (c : Connection) (document : Value) : Drawing Visit Unit := do
  match ← call c (handing "/render" [("Content-Type", "application/json")] document) with
  | .ok response =>
    Drawing.change fun visit ↦ { visit with session := visit.session.withMarkup response.body }
  | .error fault => complain c "Render" fault

/-- Saves an input document and shows its name. -/
def saveDocument (c : Connection) (document : Value) : Drawing Visit Unit := do
  match ← call c (handing "/save" [] document) with
  | .ok response =>
    Drawing.say .success ("Saved as " ++ textIn "filename" (← bodyOf response))
  | .error fault => Drawing.say .error ("Save error: " ++ fault.message c)

end MarkupBinding.InputForm
