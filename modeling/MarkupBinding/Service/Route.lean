import MarkupBinding.Service.Answer

/-!
# Routes

Which answer a request gets: the path names a route, and the route takes one method. A line feed at
the end of a path is not looked at. Where a path names a route only without the slashes at its end,
the caller is sent on to the path without them, and the answer is the one given there. The answer to
`HEAD` has no body. A request that asks which methods pages of other origins may use is answered
before all that.
-/

set_option autoImplicit false
set_option relaxedAutoImplicit false

namespace MarkupBinding

/-- The routes of the service. -/
inductive Route where
  | liveness
  | health
  | render
  | schema
  | recordSource
  | index
  | forms
  | form (name : String)
  | save
  deriving DecidableEq, Repr

namespace Route

/-- The method that a route takes. -/
def method : Route → String
  | render => "POST"
  | save => "POST"
  | _ => "GET"

/-- The routes of fixed paths. -/
def fixed : List (String × Route) :=
  [("/", liveness), ("/health", health), ("/render", render), ("/schema", schema),
    ("/schema/models", recordSource), ("/index", index), ("/forms", forms), ("/save", save)]

/-- The path without a line feed at its end. -/
def withoutLineFeed (path : String) : String :=
  match path.toList.reverse with
  | '\n' :: rest => String.ofList rest.reverse
  | _ => path

/-- The route of a saved input: its name is the one part behind the folder. -/
def form? (path : String) : Option Route :=
  match Text.after? "/forms/".toList path.toList with
  | some name =>
    if name.isEmpty || name.contains '/' then none else some (form (String.ofList name))
  | none => none

/-- The route that a path names as it stands. -/
def strict? (path : String) : Option Route :=
  match fixed.lookup (withoutLineFeed path) with
  | some route => some route
  | none => form? path

/-- The route that a path names. -/
def ofPath? (path : String) : Option Route :=
  match strict? path with
  | some route => some route
  | none =>
    match path.toList.reverse with
    | '/' :: rest => strict? (String.ofList (rest.dropWhile (· == '/')).reverse)
    | _ => none

end Route

namespace Service

/-- The methods that pages of other origins may use. -/
def sharedMethods : List String :=
  ["DELETE", "GET", "HEAD", "OPTIONS", "PATCH", "POST", "PUT"]

/-- The answer to a request that asks which methods pages of other origins may use. -/
def sharing? (r : Request) : Option Response :=
  match r.verb == "OPTIONS", r.header? "origin", r.header? "access-control-request-method" with
  | true, some _, some wanted =>
    if sharedMethods.contains wanted then some (.good .plain "OK")
    else some ⟨400, ContentKind.plain.type, "Disallowed CORS method"⟩
  | _, _, _ => none

/-- Handles a request by the route that its path names. -/
def handleRoute (s : Service) (time : Int) (r : Request) : Route → Handled
  | .liveness => s.answerLiveness
  | .health => s.answerHealth
  | .render => s.answerRender r
  | .schema => s.answerSchema
  | .recordSource => s.answerRecordSource
  | .index => s.answerIndex
  | .forms => s.answerForms
  | .form name => s.answerForm name
  | .save => s.answerSave time r

/-- Handles a request. -/
def handle (s : Service) (time : Int) (r : Request) : Handled :=
  match sharing? r with
  | some response => s.answered (.ok response)
  | none =>
    match Route.ofPath? r.path with
    | none => s.answered (.error (.because 404 "Not Found"))
    | some route =>
      if r.verb == route.method then s.handleRoute time r route
      else s.answered (.error (.because 405 "Method Not Allowed"))

/-- The answer to a request: the service afterwards, the notices and the response. What is saved
gets the given time. -/
def respond (s : Service) (time : Int) (r : Request) : Service × List Notice × Response :=
  let h := s.handle time r
  let response := match h.result with
    | .ok response => response
    | .error refusal => refusal.response
  let failures := match h.result with
    | .ok _ => []
    | .error refusal =>
      match refusal.failureReason? with
      | some reason => [⟨.error, "Unhandled exception: " ++ reason⟩]
      | none => []
  (h.service, h.notices ++ failures,
    if r.verb == "HEAD" then { response with body := "" } else response)

end Service

end MarkupBinding
