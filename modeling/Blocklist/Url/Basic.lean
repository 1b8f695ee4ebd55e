/-!
# URLs

A URL taken apart, and its text. A URL whose rest after the scheme begins with no slash has an
opaque route, which is a text of its own; every other route is a list of segments.
-/

namespace Blocklist

/-- What a URL says after its host. -/
inductive Url.Route where
  | whole (text : String)
  | segments (names : List String)
deriving DecidableEq, Repr

/-- A URL without credentials. All parts are stored as they are written. -/
structure Url where
  scheme : String
  /-- The host. An empty host is written too; without a host there are no two slashes. -/
  host : Option String
  /-- The number behind the host, unless it is the scheme's own. -/
  portNumber : Option Nat
  route : Url.Route
  query : Option String
  fragment : Option String
deriving DecidableEq, Repr

inductive Url.Fault where
  | relative
  | emptyHost
  | invalidName
  | invalidCharacter
  | invalidPort
  | invalidIPv4
  | invalidIPv6
deriving DecidableEq, Repr

namespace Url

def Fault.message : Fault → String
  | relative => "relative URL without a base"
  | emptyHost => "empty host"
  | invalidName => "invalid international domain name"
  | invalidCharacter => "invalid domain character"
  | invalidPort => "invalid port number"
  | invalidIPv4 => "invalid IPv4 address"
  | invalidIPv6 => "invalid IPv6 address"

def Route.text : Route → String
  | whole text => text
  | segments names => String.join (names.map ("/" ++ ·))

/-- What stands between the scheme and the route. Without a host, a route that begins with two
slashes is kept apart from one. -/
def authority (url : Url) : String :=
  match url.host, url.route with
  | some host, _ => "//" ++ host ++ url.portNumber.elim "" (":" ++ toString ·)
  | none, .segments ("" :: _ :: _) => "/."
  | none, _ => ""

def text (url : Url) : String :=
  url.scheme ++ ":" ++ url.authority ++ url.route.text ++ url.query.elim "" ("?" ++ ·) ++
    url.fragment.elim "" ("#" ++ ·)

instance : ToString Url := ⟨text⟩

end Url

end Blocklist
