import PageSpec.Json.Decoder
import PageSpec.Network.Response
/-!
Interception rules. Rules are kept in the order of registration; of the rules that admit a URL the
latest one answers it.
-/
namespace PageSpec.Network

/-- Why an aborted request fails. -/
inductive AbortReason where
  | failed | aborted | timedOut | accessDenied | connectionRefused | nameNotResolved
  | blockedByClient
  deriving DecidableEq, Repr

namespace AbortReason

def all : List AbortReason :=
  [.failed, .aborted, .timedOut, .accessDenied, .connectionRefused, .nameNotResolved,
    .blockedByClient]

/-- The word for a reason in documents. -/
def word : AbortReason → String
  | .failed => "failed"
  | .aborted => "aborted"
  | .timedOut => "timedOut"
  | .accessDenied => "accessDenied"
  | .connectionRefused => "connectionRefused"
  | .nameNotResolved => "nameNotResolved"
  | .blockedByClient => "blockedByClient"

def decode : Decoder AbortReason := fun v => do
  let (w, data) ← Decoder.alternative (all.map word) v
  Decoder.noData ((all.find? (·.word == w)).getD .failed) data

/-- The word for a reason in a browser's protocol. -/
def protocolWord : AbortReason → String
  | .failed => "Failed"
  | .aborted => "Aborted"
  | .timedOut => "TimedOut"
  | .accessDenied => "AccessDenied"
  | .connectionRefused => "ConnectionRefused"
  | .nameNotResolved => "NameNotResolved"
  | .blockedByClient => "BlockedByClient"

/-- What a page sees of the failure. -/
def message : AbortReason → String
  | .failed => "net::ERR_FAILED"
  | .aborted => "net::ERR_ABORTED"
  | .timedOut => "net::ERR_TIMED_OUT"
  | .accessDenied => "net::ERR_ACCESS_DENIED"
  | .connectionRefused => "net::ERR_CONNECTION_REFUSED"
  | .nameNotResolved => "net::ERR_NAME_NOT_RESOLVED"
  | .blockedByClient => "net::ERR_BLOCKED_BY_CLIENT"

end AbortReason

/-- What becomes of an intercepted request. -/
inductive RouteAction where
  | fulfill (response : Canned)
  | abort (reason : AbortReason)
  deriving DecidableEq, Repr

/-- A rule, under the pattern it was registered with. -/
structure Rule where
  source : String
  pattern : UrlPattern
  action : RouteAction
  deriving DecidableEq, Repr

/-- A rule for the URLs that a glob admits. -/
def Rule.glob (source : String) (action : RouteAction) : Rule :=
  ⟨source, .glob (.ofString source), action⟩

/-- The registered rules, oldest first. -/
structure RouteTable where
  rules : List Rule
  deriving DecidableEq, Repr

namespace RouteTable

def empty : RouteTable := ⟨[]⟩
def add (t : RouteTable) (r : Rule) : RouteTable := ⟨t.rules ++ [r]⟩
/-- The table without the rules of one source, and how many there were. -/
def remove (t : RouteTable) (source : String) : RouteTable × Nat :=
  (⟨t.rules.filter (·.source ≠ source)⟩, t.rules.countP (·.source = source))
/-- The latest rule that admits the URL. -/
def find? (t : RouteTable) (url : String) : Option Rule :=
  t.rules.reverse.find? (·.pattern.admits url)
def size (t : RouteTable) : Nat := t.rules.length

end RouteTable
end PageSpec.Network
