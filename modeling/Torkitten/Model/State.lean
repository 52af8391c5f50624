import Mathlib.Data.Int.Notation
import Mathlib.Data.List.Basic
import Mathlib.Data.List.Nodup

/-!
# The persistent state

The records of `internal/model`, their regular expressions and the validation of a whole
state. Times are nanoseconds since the zero time of the runtime (1 January of year 1, UTC),
so that `IsZero` is equality with `0`. Collections are plain lists: the difference between a
nil and an empty slice is removed by `normalize` before a state is used.

`State.validate` returns the error the source returns, with the source's text.
-/

namespace Torkitten

/-- An error value of the program: a text, a wrapped error, or two joined ones. An error made
by the operating system or by another process carries no text of this program. -/
inductive GoError where
  /-- `errors.New`. -/
  | new (text : String)
  /-- `fmt.Errorf("context: %w", cause)`. -/
  | wrap (context : String) (cause : GoError)
  /-- `errors.Join` of two errors that are not nil. -/
  | join (first second : GoError)
  /-- A failed call outside the program. -/
  | external
  deriving DecidableEq, Repr

/-- `errors.Join`: nil arguments are dropped. -/
def GoError.joined : Option GoError → Option GoError → Option GoError
  | some a, some b => some (.join a b)
  | some a, none => some a
  | none, b => b

/-- An instant, in nanoseconds since 1 January of year 1, UTC. -/
abbrev Time := ℤ

/-- A duration, in nanoseconds. -/
abbrev Duration := ℤ

/-- One second. -/
def second : Duration := 1000000000

/-- One minute. -/
def minute : Duration := 60 * second

/-- One hour. -/
def hour : Duration := 60 * minute

/-- The protocol of a mapping. A request may carry any text; only three texts are accepted by
`validateMapping`. -/
inductive Protocol where
  | http
  | https
  | h2c
  | other (text : String)
  deriving DecidableEq, Repr

/-- The text of a protocol. -/
def Protocol.text : Protocol → String
  | .http => "http"
  | .https => "https"
  | .h2c => "h2c"
  | .other text => text

/-- One published application. -/
structure Mapping where
  prefixLabel : String
  port : ℤ
  protocol : Protocol
  enabled : Bool
  deriving DecidableEq, Repr

/-- One acknowledged client device. -/
structure Device where
  id : String
  name : String
  publicKey : String
  createdAt : Time
  acknowledgedAt : Time
  deriving DecidableEq, Repr

/-- A device whose credential has been issued but not yet acknowledged. -/
structure PendingDevice extends Device where
  privateKey : String
  expiresAt : Time
  deriving DecidableEq, Repr

/-- One session of the local console. -/
structure LocalSession where
  id : String
  owner : String
  tokenHash : String
  createdAt : Time
  lastUseAt : Time
  authenticatedAt : Time
  expiresAt : Time
  deriving DecidableEq, Repr

/-- A permission of an agent token. -/
inductive Scope where
  | mappingsRead
  | mappingsWrite
  | other (text : String)
  deriving DecidableEq, Repr

/-- The text of a scope. -/
def Scope.text : Scope → String
  | .mappingsRead => "mappings:read"
  | .mappingsWrite => "mappings:write"
  | .other text => text

/-- One agent token, stored by its hash. -/
structure AgentToken where
  id : String
  name : String
  tokenHash : String
  scopes : List Scope
  createdAt : Time
  lastUseAt : Time
  expiresAt : Time
  deriving DecidableEq, Repr

/-- The bootstrap window of an earlier version; dropped when a store is opened. -/
structure BootstrapWindow where
  token : String
  expiresAt : Time
  deriving DecidableEq, Repr

/-- The whole durable state. -/
structure State where
  version : ℤ
  initialized : Bool
  serviceID : String
  publication : Bool
  mappings : List Mapping
  devices : List Device
  pending : Option PendingDevice
  sessions : List LocalSession
  tokens : List AgentToken
  bootstrap : Option BootstrapWindow
  deriving DecidableEq, Repr

/-- `StateVersion`. -/
def stateVersion : ℤ := 1

/-- `MaxMappings`. -/
def maxMappings : ℕ := 128

/-- `MaxDevices`. -/
def maxDevices : ℕ := 64

/-- `MaxSessions`. -/
def maxSessions : ℕ := 64

/-- `MaxTokens`. -/
def maxTokens : ℕ := 64

/-- `NewState`. -/
def newState : State :=
  { version := stateVersion, initialized := false, serviceID := "", publication := false,
    mappings := [], devices := [], pending := none, sessions := [], tokens := [],
    bootstrap := none }

/-! ## Character classes and texts -/

/-- `[a-z0-9]`. -/
def isLabelEdge (c : Char) : Bool := ('a' ≤ c && c ≤ 'z') || ('0' ≤ c && c ≤ '9')

/-- `[a-z0-9-]`. -/
def isLabelChar (c : Char) : Bool := isLabelEdge c || c == '-'

/-- `[a-z2-7]`. -/
def isBase32Char (c : Char) : Bool := ('a' ≤ c && c ≤ 'z') || ('2' ≤ c && c ≤ '7')

/-- `[a-f0-9]`. -/
def isHexChar (c : Char) : Bool := ('a' ≤ c && c ≤ 'f') || ('0' ≤ c && c ≤ '9')

/-- A text of exactly `n` characters of one class: `^[class]{n}$`. -/
def matchesClass (cls : Char → Bool) (n : ℕ) (v : String) : Bool :=
  v.toList.length == n && v.toList.all cls

/-- `prefixRE`: `^[a-z0-9](?:[a-z0-9-]{0,61}[a-z0-9])?$`. -/
def prefixRE (v : String) : Bool :=
  match v.toList with
  | [] => false
  | first :: rest =>
    isLabelEdge first &&
      match rest.getLast? with
      | none => true
      | some last => isLabelEdge last && rest.dropLast.all isLabelChar && rest.length ≤ 62

/-- `serviceIDRE`: `^[a-z2-7]{56}$`. -/
def serviceIDRE (v : String) : Bool := matchesClass isBase32Char 56 v

/-- `idRE`: `^[a-f0-9]{32}$`. -/
def idRE (v : String) : Bool := matchesClass isHexChar 32 v

/-- `keyRE`: `^[a-z2-7]{52}$`. -/
def keyRE (v : String) : Bool := matchesClass isBase32Char 52 v

/-- `usernameRE`: `^[a-z0-9][a-z0-9_-]{0,31}$`. -/
def usernameRE (v : String) : Bool :=
  match v.toList with
  | [] => false
  | first :: rest =>
    isLabelEdge first && rest.all (fun c => isLabelChar c || c == '_') && rest.length ≤ 31

/-- Letters, digits, dot, underscore, slash and hyphen. -/
def isPathChar (c : Char) : Bool :=
  ('A' ≤ c && c ≤ 'Z') || isLabelChar c || c == '.' || c == '_' || c == '/'

/-- `safePath`, the same expression in three packages: a slash followed by at least one path
character, and nothing else. -/
def safePath (v : String) : Bool :=
  match v.toList with
  | '/' :: rest => !rest.isEmpty && rest.all isPathChar
  | _ => false

/-- The prefixes no mapping may use. -/
def reserved : List String :=
  ["admin", "auth", "bootstrap", "ca", "control", "health", "localhost", "metrics",
    "onboarding", "setup", "www"]

/-- `unicode.IsSpace`. -/
def isSpace (c : Char) : Bool :=
  c ∈ ['\t', '\n', '\x0b', '\x0c', '\r', ' ', '\u0085', '\u00a0', '\u1680',
    '\u2028', '\u2029', '\u202f', '\u205f', '\u3000'] || ('\u2000' ≤ c && c ≤ '\u200a')

/-- `strings.TrimSpace`. -/
def trimSpace (v : String) : String :=
  String.ofList (((v.toList.dropWhile isSpace).reverse.dropWhile isSpace).reverse)

/-- `validHash`: 43 bytes without the characters `+`, `/` and `=`. -/
def validHash (v : String) : Bool :=
  v.utf8ByteSize == 43 && !v.toList.any (fun c => c == '+' || c == '/' || c == '=')

/-- `validName`: 1 to 64 bytes without space at either end. -/
def validName (v : String) : Bool :=
  1 ≤ v.utf8ByteSize && v.utf8ByteSize ≤ 64 && trimSpace v == v

/-! ## Validation -/

/-- `ValidatePrefix`. -/
def validatePrefix (v : String) : Option GoError :=
  if !prefixRE v || v ∈ reserved then
    some (.new "prefix must be a non-reserved lowercase RFC-style label")
  else none

/-- `ValidateUsername`. -/
def validateUsername (v : String) : Option GoError :=
  if !usernameRE v then
    some (.new "username must be 1-32 lowercase ASCII letters, digits, underscores, or interior hyphens")
  else none

/-- `ValidateMapping`. -/
def validateMapping (m : Mapping) : Option GoError :=
  match validatePrefix m.prefixLabel with
  | some err => some err
  | none =>
    if m.port < 1 || m.port > 65535 || m.port == 12755 then
      some (.new "port must be 1-65535 and not a Torkitten control port")
    else if m.protocol ≠ .http && m.protocol ≠ .https && m.protocol ≠ .h2c then
      some (.new "protocol must be http, https, or h2c")
    else none

/-- `State.Host`: the host name of a mapping prefix, or of the service itself for the empty
prefix. -/
def hostOf (serviceID label : String) : String :=
  if label = "" then serviceID ++ ".onion" else label ++ "." ++ serviceID ++ ".onion"

/-- `State.Host`. -/
def State.host (s : State) (label : String) : String := hostOf s.serviceID label

/-- A validation loop, from index `i` on: each record is checked, then its key is compared with
the keys seen so far and added to them. -/
def scan {α : Type} (check : ℕ → α → Option GoError) (key : α → String) (duplicate : α → GoError)
    (i : ℕ) (seen : List String) : List α → Except GoError (List String)
  | [] => .ok seen
  | x :: rest =>
    match check i x with
    | some err => .error err
    | none =>
      if key x ∈ seen then .error (duplicate x)
      else scan check key duplicate (i + 1) (key x :: seen) rest

/-- The loop of `Validate` over the mappings. -/
def validateMappings (seen : List String) (mappings : List Mapping) :
    Except GoError (List String) :=
  scan (fun i m => (validateMapping m).map (.wrap ("mapping " ++ toString i))) Mapping.prefixLabel
    (fun m => .new ("duplicate mapping prefix " ++ m.prefixLabel.quote)) 0 seen mappings

/-- The record checks of an acknowledged device. -/
def Device.wellFormed (d : Device) : Bool :=
  idRE d.id && validName d.name && keyRE d.publicKey && d.createdAt != 0 && d.acknowledgedAt != 0

/-- The record checks of a pending device. -/
def PendingDevice.wellFormed (d : PendingDevice) : Bool :=
  idRE d.id && validName d.name && keyRE d.publicKey && keyRE d.privateKey &&
    d.createdAt != 0 && d.createdAt < d.expiresAt

/-- The loop of `validateDevices` over the acknowledged devices. -/
def validateDeviceList (seen : List String) (devices : List Device) :
    Except GoError (List String) :=
  scan (fun _ d => if d.wellFormed then none
      else some (.new "invalid or duplicate acknowledged device"))
    (fun d => "device:" ++ d.id) (fun _ => .new "invalid or duplicate acknowledged device")
    0 seen devices

/-- `validateDevices`. The pending device is compared with the keys seen, but not added. -/
def validateDevices (s : State) (seen : List String) : Except GoError (List String) :=
  match validateDeviceList seen s.devices with
  | .error err => .error err
  | .ok seen' =>
    match s.pending with
    | none => .ok seen'
    | some d =>
      if !d.wellFormed || "device:" ++ d.id ∈ seen' then .error (.new "invalid pending device")
      else .ok seen'

/-- The record checks of a session. -/
def LocalSession.wellFormed (x : LocalSession) : Bool :=
  idRE x.id && validHash x.tokenHash && x.owner != "" && x.createdAt != 0 &&
    x.createdAt ≤ x.lastUseAt && x.createdAt < x.expiresAt

/-- The loop of `Validate` over the sessions. -/
def validateSessions (seen : List String) (sessions : List LocalSession) :
    Except GoError (List String) :=
  scan (fun _ x => if x.wellFormed then none else some (.new "invalid local session record"))
    (fun x => "session:" ++ x.id) (fun _ => .new "duplicate local session id") 0 seen sessions

/-- The record checks of a token, its scopes apart. -/
def AgentToken.wellFormed (t : AgentToken) : Bool :=
  idRE t.id && validName t.name && validHash t.tokenHash && !t.scopes.isEmpty

/-- The scopes a token may have. -/
def Scope.valid (scope : Scope) : Bool := scope == .mappingsRead || scope == .mappingsWrite

/-- The checks of one token: its record, then its scopes. -/
def checkToken (t : AgentToken) : Option GoError :=
  if !t.wellFormed then some (.new "invalid agent token record")
  else if !t.scopes.all Scope.valid then some (.new "invalid agent token scope")
  else none

/-- The loop of `Validate` over the tokens. -/
def validateTokens (seen : List String) (tokens : List AgentToken) :
    Except GoError (List String) :=
  scan (fun _ t => checkToken t) (fun t => "token:" ++ t.id)
    (fun _ => .new "duplicate agent token id") 0 seen tokens

/-- The checks of `Validate` that follow the loops. -/
def validateRest (s : State) : Option GoError :=
  if s.bootstrap.any (fun b => !validHash b.token || b.expiresAt == 0) then
    some (.new "invalid bootstrap window")
  else if s.publication && (!s.initialized || s.devices.isEmpty) then
    some (.new "publication requires initialized state and an acknowledged device")
  else none

/-- The four loops of `Validate`, which share one map of the keys already seen. -/
def validateCollections (s : State) : Except GoError (List String) := do
  let seen ← validateMappings [] s.mappings
  let seen ← validateDevices s seen
  let seen ← validateSessions seen s.sessions
  validateTokens seen s.tokens

/-- `State.Validate`. -/
def State.validate (s : State) : Option GoError :=
  if s.version ≠ stateVersion then
    some (.new ("unsupported state version " ++ toString s.version))
  else if s.serviceID ≠ "" && !serviceIDRE s.serviceID then
    some (.new "service_id must be a lowercase 56-character v3 onion service id")
  else if s.initialized && s.serviceID == "" then
    some (.new "initialized state requires an onion service id")
  else if s.mappings.length > maxMappings || s.devices.length > maxDevices ||
      s.sessions.length > maxSessions || s.tokens.length > maxTokens then
    some (.new "state collection limit exceeded")
  else
    match validateCollections s with
    | .error err => some err
    | .ok _ => validateRest s

/-- A state that `Validate` accepts. -/
def State.Valid (s : State) : Prop := s.validate = none

instance (s : State) : Decidable s.Valid := inferInstanceAs (Decidable (s.validate = none))

end Torkitten
