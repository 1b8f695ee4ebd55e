import Blocklist.Config
import Blocklist.Url.Reader

/-!
# Filter lists from the network

What is checked before a list is requested: that the name the program gives itself can stand in a
header, and that the list's URL is one of the web. The library opens no connections itself, so a
list that passes the checks is reported as out of reach.
-/

namespace Blocklist

structure HttpList where
  /-- The URL as configured, not checked yet. -/
  url : String
deriving DecidableEq, Repr

namespace HttpList

inductive Fault where
  | invalid (fault : Url.Fault)
  | forbiddenScheme (url : Url)
  | outOfReach (url : Url)
deriving DecidableEq, Repr

def Fault.message : Fault → String
  | invalid fault => "builder error: " ++ fault.message
  | forbiddenScheme url => "builder error for url (" ++ url.text ++ "): URL scheme is not allowed"
  | outOfReach url => "error sending request for url (" ++ url.text ++ ")"

def isHeaderChar (c : Char) : Bool := c == '\t' || (0x20 ≤ c.toNat && c.toNat ≠ 0x7F)

def ofConfig (config : Config) : Except EngineError HttpList :=
  if config.userAgent.toList.all isHeaderChar then .ok ⟨config.listUrl⟩
  else .error (.fetch
    "Failed to build HTTP client: builder error: failed to parse header value")

def target (list : HttpList) : Except Fault Url :=
  match Url.ofText list.url with
  | .error fault => .error (.invalid fault)
  | .ok url =>
    if url.scheme = "http" || url.scheme = "https" then .ok url else .error (.forbiddenScheme url)

def fetch (list : HttpList) : Except EngineError String :=
  let fault := match list.target with
    | .error fault => fault
    | .ok url => .outOfReach url
  .error (.fetch ("fetch error for " ++ list.url ++ ": " ++ fault.message))

end HttpList

end Blocklist
