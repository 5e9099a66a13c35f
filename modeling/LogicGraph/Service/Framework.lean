import LogicGraph.Json.Reader
import LogicGraph.Service.Address
import LogicGraph.Text.Encoding
import LogicGraph.Text.UpperCase

/-!
# Frameworks

A service stands on a framework, which has a part in every request: it finds the route, reads the
body and the query, refuses what has the wrong form, and sends the reply. How it does this is not up
to the library, so a framework is taken as it is.

## Main definitions

* `LogicGraph.Request`, `LogicGraph.Reply` — what goes in and out.
* `LogicGraph.Route`, `LogicGraph.routes` — what a request can ask for.
* `LogicGraph.Framework` — the part of a framework in serving a request.
* `LogicGraph.Framework.standard` — the framework that requests are served by unless another one is
  named.

## Implementation notes

In the standard framework separators at the end of a path are taken off if that makes the path a
known one. A request is refused as unprocessable when its body is missing, is no JSON object, or has
fields of the wrong type, and when a flag in its query is no word for true or false. The refusal
quotes the values that are at fault; if one of them holds a number that is not finite, it cannot be
quoted, and the refusal fails itself. A reply carries a value only up to a height.
-/

namespace LogicGraph

/-- The body of a request. -/
inductive RequestBody where
  /-- No body. -/
  | absent
  /-- A value. -/
  | value (v : Json)
  /-- Bytes that should be JSON text. -/
  | bytes (bytes : List UInt8)
  deriving DecidableEq, Repr

/-- A request. -/
structure Request where
  /-- The method, in letters of either case. -/
  method : String
  /-- The address. -/
  address : String
  /-- The query, if it is given apart from the address. -/
  query : Option (List (String × String)) := none
  /-- The body. -/
  body : RequestBody := .absent
  deriving DecidableEq, Repr

/-- The body of a reply. -/
inductive ReplyBody where
  /-- No body, or one that is left open. -/
  | none
  /-- A value. -/
  | value (v : Json)
  /-- Plain text. -/
  | text (s : String)
  deriving DecidableEq, Repr

/-- A reply. -/
structure Reply where
  /-- The status. -/
  status : Nat
  /-- The body. -/
  body : ReplyBody := .none
  deriving DecidableEq, Repr

/-- What a request asks for. -/
inductive Route where
  /-- Whether the service is up. -/
  | health
  /-- The held graph. -/
  | getGraph
  /-- To put another graph in place. -/
  | putGraph
  /-- To put the empty graph in place. -/
  | deleteGraph
  /-- To import an interface description. -/
  | importGraph
  /-- To compile a graph. -/
  | compile
  /-- The names of the targets. -/
  | targets
  /-- The kinds and their ports. -/
  | nodeKinds
  /-- A page about the service. -/
  | page
  deriving DecidableEq, Repr

/-- The paths of the pages about the service. -/
def pagePaths : List String :=
  ["/openapi.json", "/docs", "/docs/oauth2-redirect", "/redoc"]

/-- The methods and paths of all routes. -/
def routes : List (String × String × Route) :=
  [("GET", "/health", .health), ("GET", "/api/graph", .getGraph), ("PUT", "/api/graph", .putGraph),
   ("DELETE", "/api/graph", .deleteGraph), ("POST", "/api/graph/import", .importGraph),
   ("POST", "/api/compile", .compile), ("GET", "/api/targets", .targets),
   ("GET", "/api/node-kinds", .nodeKinds)] ++
  pagePaths.flatMap fun path => [("GET", path, .page), ("HEAD", path, .page)]

/-- A reply with an object that has the one field `detail`. -/
def detailReply (status : Nat) (detail : Json) : Reply :=
  ⟨status, .value (.object [("detail", detail)])⟩

/-- The reply to a failure that no route accounts for. -/
def internalError : Reply := ⟨500, .text "Internal Server Error"⟩

/-- The part of a framework in serving a request. -/
structure Framework where
  /-- The route that a request takes, or the reply to a request that takes none. -/
  route : Request → Except Reply Route
  /-- The value of a body, nothing if there is none, or the reply to a body that is not read. -/
  readBody : RequestBody → Except Reply (Option Json)
  /-- A flag in the query of a request, or the reply to one that is no flag. -/
  flag : Request → String → Except Reply Bool
  /-- The reply to a request that brings the given values where others are wanted, or none where one
  is. -/
  refuse : List Json → Reply
  /-- The reply that carries a value. -/
  carry : Json → Reply
  /-- What is sent of a reply to a request. -/
  send : Request → Reply → Reply

/-! ## The standard framework -/

/-- A path without the separators at its end. -/
def withoutTrailing (path : String) : String :=
  String.ofList (path.toList.reverse.dropWhile (· = '/')).reverse

/-- A path without a line feed at its end. -/
def withoutLineFeed (path : String) : String :=
  let cs := path.toList
  if cs.getLast? = some '\n' then String.ofList cs.dropLast else path

/-- Whether some route has the path. -/
def isKnownPath (path : String) : Bool :=
  routes.any (·.2.1 == path)

/-- The path that a request is served under. One line feed at the end does not count. -/
def servedPath (path : String) : String :=
  let direct := withoutLineFeed path
  let trimmed := withoutLineFeed (withoutTrailing path)
  if isKnownPath direct then direct
  else if isKnownPath trimmed then trimmed
  else path

/-- The reply to a request that cannot be processed. -/
def unprocessable : Reply := ⟨422, .none⟩

mutual

/-- A value as a reply carries it: doubles that are not finite become null. -/
def Json.sendable : Json → Json
  | .number (.float x) =>
    match x with
    | .finite _ _ _ => .number (.float x)
    | _ => .null
  | .array items => .array (Json.sendableItems items)
  | .object fields => .object (Json.sendableFields fields)
  | v => v

/-- The items of a list as a reply carries them. -/
def Json.sendableItems : List Json → List Json
  | [] => []
  | v :: vs => v.sendable :: Json.sendableItems vs

/-- The fields of an object as a reply carries them. -/
def Json.sendableFields : List (String × Json) → List (String × Json)
  | [] => []
  | (k, v) :: vs => (k, v.sendable) :: Json.sendableFields vs

end

/-- Whether a value is carried by a reply as it is. -/
def Json.isSendable (v : Json) : Bool :=
  v.sendable == v

/-- The reply to a request with values that are refused. -/
def refusal (refused : List Json) : Reply :=
  if refused.all Json.isSendable then unprocessable else internalError

/-- The value of a body, nothing if there is none, or the reply to a body that is no JSON. -/
def RequestBody.read : RequestBody → Except Reply (Option Json)
  | .absent | .bytes [] => .ok none
  | .value v => .ok (some v)
  | .bytes sent =>
    let unreadable := detailReply 400 (.string "There was an error parsing the body")
    match Encoding.detectAndDecode sent with
    | none => .error unreadable
    | some chars =>
      match Json.readChars chars with
      | .ok v => .ok (some v)
      | .error (.malformed _ _) => .error unprocessable
      | .error _ => .error unreadable

/-- The words for true. -/
def trueWords : List String := ["1", "on", "t", "true", "y", "yes"]

/-- The words for false. -/
def falseWords : List String := ["0", "off", "f", "false", "n", "no"]

/-- The query of a request: what is given apart replaces what stands in the address. -/
def Request.queryPairs (r : Request) : List (String × String) :=
  r.query.getD (Address.ofString r.address).query

/-- A flag in a query; absent is false, and the last of several counts. -/
def queryFlag (query : List (String × String)) (key : String) : Except Reply Bool :=
  match query.reverse.lookup key with
  | none => .ok false
  | some s =>
    let word := String.ofList (s.toList.map Char.toLower)
    if word ∈ trueWords then .ok true
    else if word ∈ falseWords then .ok false
    else .error unprocessable

/-- The greatest height of a value that a reply carries. -/
def replyHeightLimit : Nat := 256

/-- A reply with a value, or the reply to a failure if the value is too high to be carried. -/
def valueReply (v : Json) : Reply :=
  if v.height ≤ replyHeightLimit then ⟨200, .value v.sendable⟩ else internalError

/-- The route of a method, in capitals, and a path. -/
def findRoute (method path : String) : Except Reply Route :=
  match routes.find? fun route => route.1 == method && route.2.1 == path with
  | some (_, _, route) => .ok route
  | none =>
    if isKnownPath path then .error (detailReply 405 (.string "Method Not Allowed"))
    else .error (detailReply 404 (.string "Not Found"))

/-- The framework that requests are served by unless another one is named. The reply to a request
for the head alone has no body. -/
def Framework.standard : Framework where
  route r := findRoute (Text.upperCase r.method) (servedPath (Address.ofString r.address).path)
  readBody := RequestBody.read
  flag r key := queryFlag r.queryPairs key
  refuse := refusal
  carry := valueReply
  send r reply := if Text.upperCase r.method = "HEAD" then { reply with body := .none } else reply

end LogicGraph
