import Torkitten.Model.State

/-!
# The JSON text of a state

The encoding of a state as `json.MarshalIndent` writes it with two-space indentation: the
field names and their order are those of the struct tags, empty optional fields are omitted,
the record embedded in a pending device is flattened, strings are escaped with the HTML-safe
rules of the encoder and times are written in the RFC 3339 format with nanoseconds. Encoding
fails exactly when some time has a year outside 0 to 9999.

`clone` is the copy of a state through this encoding, whose errors the source ignores.
-/

namespace Torkitten

/-! ## Calendar -/

/-- Nanoseconds of a day. -/
def day : Duration := 24 * hour

/-- Days from 1 January of year 1 to 1 January of the given year. -/
def daysBefore (year : ℤ) : ℤ :=
  let y := year - 1
  365 * y + y / 4 - y / 100 + y / 400

/-- The year of a day number: the proleptic Gregorian average gives it up to one. -/
def yearOfDay (d : ℤ) : ℤ :=
  let estimate := d * 400 / 146097 + 1
  ([estimate - 1, estimate, estimate + 1].find? fun y =>
    decide (daysBefore y ≤ d) && decide (d < daysBefore (y + 1))).getD estimate

/-- The lengths of the twelve months of a year. -/
def monthLengths (year : ℤ) : List ℤ :=
  [31, if daysBefore (year + 1) - daysBefore year = 366 then 29 else 28, 31, 30, 31, 30, 31, 31,
    30, 31, 30, 31]

/-- Month and day of month of the `d`-th day of a year, counting both from one. -/
def monthDay : ℤ → ℤ → List ℤ → ℤ × ℤ
  | month, d, [] => (month, d + 1)
  | month, d, length :: rest => if d < length then (month, d + 1) else monthDay (month + 1) (d - length) rest

/-- A number in decimal, padded with zeros to a width. -/
def padded (width : ℕ) (n : ℤ) : String :=
  let digits := toString n
  String.ofList (List.replicate (width - digits.length) '0') ++ digits

/-- The year of an instant. -/
def Time.year (t : Time) : ℤ := yearOfDay (t / day)

/-- The fraction of a second, without its trailing zeros; empty when it is zero. -/
def fractionText (nanos : ℤ) : String :=
  if nanos = 0 then ""
  else "." ++ String.ofList ((padded 9 nanos).toList.reverse.dropWhile (· == '0')).reverse

/-- `Time.MarshalJSON` of an instant in UTC. -/
def Time.marshalText (t : Time) : Except GoError String :=
  let d := t / day
  let year := yearOfDay d
  if year < 0 || year > 9999 then
    .error (.new "Time.MarshalJSON: year outside of range [0,9999]")
  else
    let (month, dom) := monthDay 1 (d - daysBefore year) (monthLengths year)
    let ns := t % day
    .ok (padded 4 year ++ "-" ++ padded 2 month ++ "-" ++ padded 2 dom ++ "T" ++
      padded 2 (ns / hour) ++ ":" ++ padded 2 (ns % hour / minute) ++ ":" ++
      padded 2 (ns % minute / second) ++ fractionText (ns % second) ++ "Z")

/-! ## Documents -/

/-- The JSON documents the encoder produces. -/
inductive Json where
  | bool (b : Bool)
  | num (n : ℤ)
  | str (s : String)
  | arr (items : List Json)
  | obj (fields : List (String × Json))

/-- Two hexadecimal digits. -/
def hexByte (n : ℕ) : String :=
  String.ofList [Nat.digitChar (n / 16), Nat.digitChar (n % 16)]

/-- The escape of one character inside a JSON string. -/
def escapeChar (c : Char) : String :=
  if c == '"' then "\\\""
  else if c == '\\' then "\\\\"
  else if c == '\x08' then "\\b"
  else if c == '\x0c' then "\\f"
  else if c == '\n' then "\\n"
  else if c == '\r' then "\\r"
  else if c == '\t' then "\\t"
  else if c.toNat < 32 || c == '<' || c == '>' || c == '&' then "\\u00" ++ hexByte c.toNat
  else if c == '\u2028' then "\\u2028"
  else if c == '\u2029' then "\\u2029"
  else String.ofList [c]

/-- A JSON string literal. -/
def jsonString (s : String) : String :=
  "\"" ++ String.join (s.toList.map escapeChar) ++ "\""

/-- Two spaces for each level. -/
def indentation (depth : ℕ) : String := String.join (List.replicate depth "  ")

/-- A bracketed list of rendered items, one to a line; closed at once when it is empty. -/
def bracketed (opening closing : String) (depth : ℕ) (items : List String) : String :=
  if items.isEmpty then opening ++ closing
  else opening ++ "\n" ++
    String.intercalate ",\n" (items.map (indentation (depth + 1) ++ ·)) ++ "\n" ++
    indentation depth ++ closing

mutual

/-- The indented text of a document. -/
def Json.indent (depth : ℕ) : Json → String
  | .bool b => if b then "true" else "false"
  | .num n => toString n
  | .str s => jsonString s
  | .arr items => bracketed "[" "]" depth (indentItems (depth + 1) items)
  | .obj fields => bracketed "\x7b" "\x7d" depth (indentFields (depth + 1) fields)

/-- The indented texts of the items of an array. -/
def indentItems (depth : ℕ) : List Json → List String
  | [] => []
  | item :: rest => item.indent depth :: indentItems depth rest

/-- The indented texts of the fields of an object. -/
def indentFields (depth : ℕ) : List (String × Json) → List String
  | [] => []
  | field :: rest => indentField depth field :: indentFields depth rest

/-- The indented text of one field of an object. -/
def indentField (depth : ℕ) : String × Json → String
  | (name, value) => jsonString name ++ ": " ++ value.indent depth

end

/-! ## Records -/

/-- The document of an instant. -/
def Time.toJson (t : Time) : Except GoError Json := do
  return .str (← t.marshalText)

/-- The document of a mapping. -/
def Mapping.toJson (m : Mapping) : Json :=
  .obj [("prefix", .str m.prefixLabel), ("port", .num m.port), ("protocol", .str m.protocol.text),
    ("enabled", .bool m.enabled)]

/-- The fields of a device. -/
def Device.jsonFields (d : Device) : Except GoError (List (String × Json)) := do
  return [("id", .str d.id), ("name", .str d.name), ("public_key", .str d.publicKey),
    ("created_at", ← Time.toJson d.createdAt), ("acknowledged_at", ← Time.toJson d.acknowledgedAt)]

/-- The document of a device. -/
def Device.toJson (d : Device) : Except GoError Json := do
  return .obj (← d.jsonFields)

/-- The document of a pending device: the fields of the embedded device come first. -/
def PendingDevice.toJson (d : PendingDevice) : Except GoError Json := do
  return .obj ((← d.toDevice.jsonFields) ++
    [("private_key", .str d.privateKey), ("expires_at", ← Time.toJson d.expiresAt)])

/-- The document of a session. -/
def LocalSession.toJson (x : LocalSession) : Except GoError Json := do
  return .obj [("id", .str x.id), ("owner", .str x.owner), ("token_hash", .str x.tokenHash),
    ("created_at", ← Time.toJson x.createdAt), ("last_use_at", ← Time.toJson x.lastUseAt),
    ("authenticated_at", ← Time.toJson x.authenticatedAt),
    ("expires_at", ← Time.toJson x.expiresAt)]

/-- The document of a token. -/
def AgentToken.toJson (t : AgentToken) : Except GoError Json := do
  return .obj [("id", .str t.id), ("name", .str t.name), ("token_hash", .str t.tokenHash),
    ("scopes", .arr (t.scopes.map fun scope => .str scope.text)),
    ("created_at", ← Time.toJson t.createdAt), ("last_use_at", ← Time.toJson t.lastUseAt),
    ("expires_at", ← Time.toJson t.expiresAt)]

/-- The document of a bootstrap window. -/
def BootstrapWindow.toJson (b : BootstrapWindow) : Except GoError Json := do
  return .obj [("token", .str b.token), ("expires_at", ← Time.toJson b.expiresAt)]

/-- The documents of a list, or the first error among them. -/
def encodeAll {α : Type} (encode : α → Except GoError Json) : List α → Except GoError (List Json)
  | [] => .ok []
  | x :: rest => do
    let head ← encode x
    let tail ← encodeAll encode rest
    return head :: tail

/-- A field that is omitted when it has no value. -/
def optionalField {α : Type} (name : String) (encode : α → Except GoError Json) :
    Option α → Except GoError (List (String × Json))
  | none => .ok []
  | some x => do
    let value ← encode x
    return [(name, value)]

/-- The document of a state. -/
def State.toJson (s : State) : Except GoError Json := do
  let devices ← encodeAll Device.toJson s.devices
  let pending ← optionalField "pending_device" PendingDevice.toJson s.pending
  let sessions ← encodeAll LocalSession.toJson s.sessions
  let tokens ← encodeAll AgentToken.toJson s.tokens
  let bootstrap ← optionalField "bootstrap" BootstrapWindow.toJson s.bootstrap
  return .obj ([("version", .num s.version), ("initialized", .bool s.initialized)] ++
    (if s.serviceID = "" then [] else [("service_id", .str s.serviceID)]) ++
    [("publication_enabled", .bool s.publication),
      ("mappings", .arr (s.mappings.map Mapping.toJson)), ("devices", .arr devices)] ++ pending ++
    [("local_sessions", .arr sessions), ("agent_tokens", .arr tokens)] ++ bootstrap)

/-- `json.MarshalIndent(value, "", "  ")`. -/
def marshalIndent (s : State) : Except GoError String := do
  let document ← s.toJson
  return document.indent 0

/-- The state an ignored decoding error leaves behind, with its collections made. -/
def zeroState : State := { newState with version := 0 }

/-- `Clone`: encode and decode again, ignoring both errors. Decoding inverts encoding, so only
a state that cannot be encoded is changed. -/
def clone (s : State) : State :=
  match s.toJson with
  | .ok _ => s
  | .error _ => zeroState

/-- The state can be encoded: each of its times has a year the encoder accepts. -/
def State.Encodable (s : State) : Prop := ∃ document, s.toJson = .ok document

theorem clone_of_encodable {s : State} (h : s.Encodable) : clone s = s := by
  obtain ⟨document, hdoc⟩ := h
  simp [clone, hdoc]

theorem encodable_of_marshalIndent {s : State} {data : String} (h : marshalIndent s = .ok data) :
    s.Encodable := by
  unfold marshalIndent at h
  cases hdoc : s.toJson with
  | ok document => exact ⟨document, hdoc⟩
  | error err => rw [hdoc] at h; cases h

/-- A state is encodable when each of its records is. -/
theorem encodable_iff {s : State} : s.Encodable ↔
    (∃ x, encodeAll Device.toJson s.devices = .ok x) ∧
      (∃ x, optionalField "pending_device" PendingDevice.toJson s.pending = .ok x) ∧
      (∃ x, encodeAll LocalSession.toJson s.sessions = .ok x) ∧
      (∃ x, encodeAll AgentToken.toJson s.tokens = .ok x) ∧
      ∃ x, optionalField "bootstrap" BootstrapWindow.toJson s.bootstrap = .ok x := by
  unfold State.Encodable State.toJson
  cases encodeAll Device.toJson s.devices <;>
    cases optionalField "pending_device" PendingDevice.toJson s.pending <;>
    cases encodeAll LocalSession.toJson s.sessions <;>
    cases encodeAll AgentToken.toJson s.tokens <;>
    cases optionalField "bootstrap" BootstrapWindow.toJson s.bootstrap <;>
    simp [bind, Except.bind, pure, Except.pure]

theorem State.Encodable.dropSessions {s : State} (h : s.Encodable) :
    State.Encodable { s with sessions := [] } := by
  rw [encodable_iff] at h ⊢
  exact ⟨h.1, h.2.1, ⟨[], rfl⟩, h.2.2.2⟩

theorem State.Encodable.dropBootstrap {s : State} (h : s.Encodable) :
    State.Encodable { s with bootstrap := none } := by
  rw [encodable_iff] at h ⊢
  exact ⟨h.1, h.2.1, h.2.2.1, h.2.2.2.1, [], rfl⟩

end Torkitten
