import LogicGraph.Json.Reader
import LogicGraph.Text.Stem

/-!
# Addresses of requests

A request is sent to an address. Its path says what is asked for and its query says how. A scheme
and a host in front of the path do not count, nor does the fragment at the end.

## Main definitions

* `LogicGraph.Address` — a path and a query.
* `LogicGraph.Address.ofString` — the address that a text spells.

## Implementation notes

The path always starts with one separator, and steps to the same or to the upper directory are
carried out before escapes are resolved. Escapes in a path are resolved twice, as the sender and the
receiver both do it. Only escapes of ASCII characters are resolved, as no other character stands in
the path or in the query of any request that is served.
-/

namespace LogicGraph

/-- What a request is sent to. -/
structure Address where
  /-- The path. -/
  path : String
  /-- The keys and values of the query, in order. -/
  query : List (String × String) := []
  deriving DecidableEq, Repr

namespace Address

/-- The characters with escapes of ASCII characters resolved. -/
def unescape : List Char → List Char
  | '%' :: a :: b :: rest =>
    match Json.Scan.hexDigit? a, Json.Scan.hexDigit? b with
    | some m, some n =>
      if m < 8 then Char.ofNat (16 * m + n) :: unescape rest
      else '%' :: unescape (a :: b :: rest)
    | _, _ => '%' :: unescape (a :: b :: rest)
  | c :: rest => c :: unescape rest
  | [] => []

/-- Whether a character may stand in the name of a scheme. -/
def isSchemeChar (c : Char) : Bool :=
  c.isAlphanum || c = '+' || c = '.' || c = '-'

/-- Whether characters are the name of a scheme, or none at all. -/
def isScheme : List Char → Bool
  | [] => true
  | c :: rest => c.isAlpha && rest.all isSchemeChar

/-- An address without its scheme. -/
def withoutScheme (cs : List Char) : List Char :=
  match Text.cutAt ':' cs with
  | (scheme, some rest) => if isScheme scheme then rest else cs
  | (_, none) => cs

/-- An address without its host. -/
def withoutHost : List Char → List Char
  | '/' :: '/' :: rest => rest.dropWhile fun c => c ≠ '/' && c ≠ '?'
  | cs => cs

/-- The names of a path with the steps carried out; `done` holds the names before, the last one
first. -/
def carryOut : List (List Char) → List (List Char) → List (List Char)
  | done, [] => done.reverse
  | done, ['.'] :: rest => carryOut done rest
  | done, ['.', '.'] :: rest => carryOut (done.drop 1) rest
  | done, name :: rest => carryOut (name :: done) rest

/-- A path with one separator in front and with its steps carried out. -/
def normalize (cs : List Char) : List Char :=
  let names := (cs.dropWhile (· = '/')).splitOnP (· = '/')
  '/' :: ['/'].intercalate (carryOut [] names)

/-- A key and a value of a query. -/
def queryPair (cs : List Char) : String × String :=
  let plain := fun part : List Char =>
    String.ofList (unescape (part.map fun c => if c = '+' then ' ' else c))
  match Text.cutAt '=' cs with
  | (key, behind) => (plain key, plain (behind.getD []))

/-- The keys and values of a query. -/
def queryPairs (cs : List Char) : List (String × String) :=
  ((cs.splitOnP (· = '&')).filter (!·.isEmpty)).map queryPair

/-- The address that a text spells. -/
def ofString (s : String) : Address :=
  let sent := (Text.cutAt '#' s.toList).1
  let (path, query) := Text.cutAt '?' (withoutHost (withoutScheme sent))
  { path := String.ofList (unescape (unescape (normalize path)))
    query := queryPairs (query.getD []) }

end Address

end LogicGraph
