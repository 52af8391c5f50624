import Torkitten.Model.Document
import Torkitten.Model.Validation

/-!
# Decoding a state

What `json.Decoder` does with the text of a state: records are decoded field by field into zero
values, a null leaves a field as it is, a collection that is null or missing is nil, and the strict
decoder refuses fields it does not know. A `Draft` is a state whose collections may be nil.

Instants are read by the exact form of RFC 3339. What the more lenient reader behind it accepts in
addition is not part of the model; the encoder writes the exact form.

## Main results

* `parseRFC3339_marshalText`: an instant is read back from its text;
* `decodeDraft_value`: a state is decoded from its document.
-/

namespace Torkitten

open JsonText

/-! ## Instants -/

/-- A number of fixed width within bounds. -/
def parseUint (digits : List Char) (low high : ℕ) : Option ℕ :=
  if digits.all Char.isDigit then
    let n := Nat.ofDigitChars 10 digits 0
    if low ≤ n && n ≤ high then some n else none
  else none

/-- The days of a month. -/
def daysIn (month year : ℕ) : ℕ := ((monthLengths year).getD (month - 1) 0).toNat

/-- The day number of a date. -/
def dayNumber (year month dom : ℕ) : ℤ :=
  daysBefore year + ((monthLengths year).take (month - 1)).sum + (dom - 1)

/-- The nanoseconds of the digits after the point; digits after the ninth do not count. -/
def parseNanoseconds (digits : List Char) : ℕ :=
  Nat.ofDigitChars 10 (digits.take 9) 0 * 10 ^ (9 - (digits.take 9).length)

/-- The fraction of a second, if there is one, and the text after it. -/
def parseFraction : List Char → ℕ × List Char
  | '.' :: rest =>
    match rest.span Char.isDigit with
    | ([], _) => (0, '.' :: rest)
    | (digits, rest) => (parseNanoseconds digits, rest)
  | rest => (0, rest)

/-- The offset of a time zone, in seconds. -/
def parseZone : List Char → Option ℤ
  | ['Z'] => some 0
  | [sign, h, h', ':', m, m'] => do
    let hours ← parseUint [h, h'] 0 23
    let minutes ← parseUint [m, m'] 0 59
    if sign = '+' then some ((hours * 60 + minutes) * 60)
    else if sign = '-' then some (-((hours * 60 + minutes) * 60))
    else none
  | _ => none

/-- `parseRFC3339`. -/
def parseRFC3339 : List Char → Option Time
  | y₁ :: y₂ :: y₃ :: y₄ :: '-' :: m :: m' :: '-' :: d :: d' :: 'T' :: h :: h' :: ':' :: n :: n' ::
      ':' :: s :: s' :: rest => do
    let year ← parseUint [y₁, y₂, y₃, y₄] 0 9999
    let month ← parseUint [m, m'] 1 12
    let dom ← parseUint [d, d'] 1 (daysIn month year)
    let hours ← parseUint [h, h'] 0 23
    let minutes ← parseUint [n, n'] 0 59
    let seconds ← parseUint [s, s'] 0 59
    let (nanos, rest) := parseFraction rest
    let offset ← parseZone rest
    return dayNumber year month dom * day + hours * hour + minutes * minute + seconds * second + nanos -
      offset * second
  | _ => none

/-! ## Values -/

/-- `Time.UnmarshalJSON`. -/
def storeTime : Value → Time → Option Time
  | .null, t => some t
  | .str l, _ => parseRFC3339 l
  | _, _ => none

/-- Decode into a string. -/
def storeString : Value → String → Option String
  | .null, s => some s
  | .str l, _ => some (String.ofList (unquote l))
  | _, _ => none

/-- Decode into a bool. -/
def storeBool : Value → Bool → Option Bool
  | .null, b => some b
  | .bool b, _ => some b
  | _, _ => none

/-- The number that digits spell. -/
def parseDigits (digits : List Char) : Option ℕ :=
  if digits.all Char.isDigit then some (Nat.ofDigitChars 10 digits 0) else none

/-- `strconv.ParseInt` of the literal of a number, which has a digit and no leading zero. -/
def parseInt (literal : List Char) : Option ℤ :=
  (match literal with
    | '-' :: digits => (parseDigits digits).map fun n : ℕ => -(n : ℤ)
    | digits => (parseDigits digits).map fun n : ℕ => (n : ℤ)).filter
    fun n => decide (-2 ^ 63 ≤ n) && decide (n < 2 ^ 63)

/-- Decode into an int. -/
def storeInt : Value → ℤ → Option ℤ
  | .null, n => some n
  | .num l, _ => parseInt l
  | _, _ => none

/-- The protocol of a text. -/
def protocolOf (text : String) : Protocol :=
  if text = "http" then .http
  else if text = "https" then .https
  else if text = "h2c" then .h2c
  else .other text

/-- The scope of a text. -/
def scopeOf (text : String) : Scope :=
  if text = "mappings:read" then .mappingsRead
  else if text = "mappings:write" then .mappingsWrite
  else .other text

/-- A member of a record. -/
def member {σ α : Type} (name : String) (store : Value → α → Option α) (get : σ → α)
    (set : α → σ → σ) : Member σ where
  name
  store v s := (store v (get s)).map (set · s)

/-! ## Records -/

/-- The fields of a mapping. -/
def mappingFields : List (Member Mapping) :=
  [member "prefix" storeString Mapping.prefixLabel fun x m => { m with prefixLabel := x },
   member "port" storeInt Mapping.port fun x m => { m with port := x },
   member "protocol" storeString (fun m => m.protocol.text) fun x m => { m with protocol := protocolOf x },
   member "enabled" storeBool Mapping.enabled fun x m => { m with enabled := x }]

/-- The fields of a device. -/
def deviceFields : List (Member Device) :=
  [member "id" storeString Device.id fun x d => { d with id := x },
   member "name" storeString Device.name fun x d => { d with name := x },
   member "public_key" storeString Device.publicKey fun x d => { d with publicKey := x },
   member "created_at" storeTime Device.createdAt fun x d => { d with createdAt := x },
   member "acknowledged_at" storeTime Device.acknowledgedAt fun x d => { d with acknowledgedAt := x }]

/-- A field of the device that is embedded in a pending one. -/
def embedded (f : Member Device) : Member PendingDevice where
  name := f.name
  store v p := (f.store v p.toDevice).map fun d => { p with toDevice := d }

/-- The fields of a pending device. -/
def pendingFields : List (Member PendingDevice) :=
  deviceFields.map embedded ++
  [member "private_key" storeString PendingDevice.privateKey fun x p => { p with privateKey := x },
   member "expires_at" storeTime PendingDevice.expiresAt fun x p => { p with expiresAt := x }]

/-- The fields of a session. -/
def sessionFields : List (Member LocalSession) :=
  [member "id" storeString LocalSession.id fun x s => { s with id := x },
   member "owner" storeString LocalSession.owner fun x s => { s with owner := x },
   member "token_hash" storeString LocalSession.tokenHash fun x s => { s with tokenHash := x },
   member "created_at" storeTime LocalSession.createdAt fun x s => { s with createdAt := x },
   member "last_use_at" storeTime LocalSession.lastUseAt fun x s => { s with lastUseAt := x },
   member "authenticated_at" storeTime LocalSession.authenticatedAt fun x s =>
     { s with authenticatedAt := x },
   member "expires_at" storeTime LocalSession.expiresAt fun x s => { s with expiresAt := x }]

/-- Decode into a list of scopes. -/
def storeScopes (v : Value) (_ : List Scope) : Option (List Scope) :=
  (decodeList (fun item => (storeString item "").map scopeOf) v).map (·.getD [])

/-- The fields of a token. -/
def tokenFields : List (Member AgentToken) :=
  [member "id" storeString AgentToken.id fun x t => { t with id := x },
   member "name" storeString AgentToken.name fun x t => { t with name := x },
   member "token_hash" storeString AgentToken.tokenHash fun x t => { t with tokenHash := x },
   member "scopes" storeScopes AgentToken.scopes fun x t => { t with scopes := x },
   member "created_at" storeTime AgentToken.createdAt fun x t => { t with createdAt := x },
   member "last_use_at" storeTime AgentToken.lastUseAt fun x t => { t with lastUseAt := x },
   member "expires_at" storeTime AgentToken.expiresAt fun x t => { t with expiresAt := x }]

/-- The fields of a bootstrap window. -/
def bootstrapFields : List (Member BootstrapWindow) :=
  [member "token" storeString BootstrapWindow.token fun x b => { b with token := x },
   member "expires_at" storeTime BootstrapWindow.expiresAt fun x b => { b with expiresAt := x }]

/-- A state whose collections may be nil. -/
structure Draft where
  version : ℤ
  initialized : Bool
  serviceID : String
  publication : Bool
  mappings : Option (List Mapping)
  devices : Option (List Device)
  pending : Option PendingDevice
  sessions : Option (List LocalSession)
  tokens : Option (List AgentToken)
  bootstrap : Option BootstrapWindow
  deriving DecidableEq, Repr

/-- Decode an object into the record that a pointer points to, which is made if there is none; a null
makes the pointer nil. -/
def storePointer {σ : Type} (strict : Bool) (fields : List (Member σ)) (zero : σ) (v : Value)
    (target : Option σ) : Option (Option σ) :=
  match v with
  | .null => some none
  | v => (decodeRecord strict fields v (target.getD zero)).map some

section Draft

variable (strict : Bool)

/-- Decode an array of records. -/
def storeRecords {σ : Type} (fields : List (Member σ)) (zero : σ) (v : Value) (_ : Option (List σ)) :
    Option (Option (List σ)) :=
  decodeList (fun item => decodeRecord strict fields item zero) v

/-- The fields of a state. -/
def draftFields : List (Member Draft) :=
  [member "version" storeInt Draft.version fun x s => { s with version := x },
   member "initialized" storeBool Draft.initialized fun x s => { s with initialized := x },
   member "service_id" storeString Draft.serviceID fun x s => { s with serviceID := x },
   member "publication_enabled" storeBool Draft.publication fun x s => { s with publication := x },
   member "mappings" (storeRecords strict mappingFields ⟨"", 0, .other "", false⟩) Draft.mappings
     fun x s => { s with mappings := x },
   member "devices" (storeRecords strict deviceFields ⟨"", "", "", 0, 0⟩) Draft.devices
     fun x s => { s with devices := x },
   member "pending_device" (storePointer strict pendingFields ⟨⟨"", "", "", 0, 0⟩, "", 0⟩) Draft.pending
     fun x s => { s with pending := x },
   member "local_sessions" (storeRecords strict sessionFields ⟨"", "", "", 0, 0, 0, 0⟩) Draft.sessions
     fun x s => { s with sessions := x },
   member "agent_tokens" (storeRecords strict tokenFields ⟨"", "", "", [], 0, 0, 0⟩) Draft.tokens
     fun x s => { s with tokens := x },
   member "bootstrap" (storePointer strict bootstrapFields ⟨"", 0⟩) Draft.bootstrap
     fun x s => { s with bootstrap := x }]

/-- The zero value of a state. -/
def Draft.zero : Draft := ⟨0, false, "", false, none, none, none, none, none, none⟩

/-- Decode a value into a state. -/
def decodeDraft (v : Value) : Option Draft := decodeRecord strict (draftFields strict) v .zero

end Draft

/-- A state as a draft: no collection is nil. -/
def State.draft (s : State) : Draft where
  version := s.version
  initialized := s.initialized
  serviceID := s.serviceID
  publication := s.publication
  mappings := some s.mappings
  devices := some s.devices
  pending := s.pending
  sessions := some s.sessions
  tokens := some s.tokens
  bootstrap := s.bootstrap

/-- The state of a draft, to which a nil collection is an empty one. -/
def Draft.state (d : Draft) : State where
  version := d.version
  initialized := d.initialized
  serviceID := d.serviceID
  publication := d.publication
  mappings := d.mappings.getD []
  devices := d.devices.getD []
  pending := d.pending
  sessions := d.sessions.getD []
  tokens := d.tokens.getD []
  bootstrap := d.bootstrap

/-! ## Instants are read back -/

theorem ofDigitChars_padded (width k : ℕ) : Nat.ofDigitChars 10 (padded width k).toList 0 = k := by
  rw [toList_padded, Nat.ofDigitChars_append, Nat.ofDigitChars_replicate_zero, Nat.mul_zero,
    Nat.ofDigitChars_ten_toDigits]

/-- A padded number is read back. -/
theorem parseUint_padded {width k low high : ℕ} (hlow : low ≤ k) (hhigh : k ≤ high) :
    parseUint (padded width k).toList low high = some k := by
  have hdigits : (padded width k).toList.all Char.isDigit = true :=
    List.all_eq_true.mpr fun _ hc => isDigit_of_mem_padded hc
  simp [parseUint, hdigits, ofDigitChars_padded, hlow, hhigh]

/-- A list of digits is the digits up to the last that is not zero, and zeros. -/
theorem trimmed_append (digits : List Char) :
    digits = (digits.reverse.dropWhile (· == '0')).reverse ++
      List.replicate (digits.reverse.takeWhile (· == '0')).length '0' := by
  have hzeros : digits.reverse.takeWhile (· == '0') =
      List.replicate (digits.reverse.takeWhile (· == '0')).length '0' :=
    List.eq_replicate_of_mem fun c hc => by
      simpa using List.all_eq_true.mp List.all_takeWhile c hc
  calc digits = (digits.reverse.takeWhile (· == '0') ++ digits.reverse.dropWhile (· == '0')).reverse := by
        rw [List.takeWhile_append_dropWhile, List.reverse_reverse]
    _ = _ := by
        rw [List.reverse_append]
        congr 1
        rw [hzeros, List.reverse_replicate, List.length_replicate]

/-- The zeros at the end of a fraction are not written, and make no difference. -/
theorem parseFraction_fractionText {k : ℕ} (hk : k < 10 ^ 9) :
    parseFraction ((fractionText k).toList ++ ['Z']) = (k, ['Z']) := by
  unfold fractionText
  split
  next hzero =>
    obtain rfl : k = 0 := by omega
    rfl
  next hne =>
    have hlength : (padded 9 k).toList.length = 9 := length_padded (by decide) hk
    have hdigits : ∀ c ∈ (padded 9 k).toList, c.isDigit = true := fun c hc => isDigit_of_mem_padded hc
    have hnumber := ofDigitChars_padded 9 k
    have hsplit := trimmed_append (padded 9 k).toList
    generalize (padded 9 k).toList = digits at hlength hdigits hnumber hsplit ⊢
    generalize (digits.reverse.dropWhile (· == '0')).reverse = trimmed at hsplit ⊢
    generalize (digits.reverse.takeWhile (· == '0')).length = zeros at hsplit
    rw [hsplit, Nat.ofDigitChars_append, Nat.ofDigitChars_replicate_zero] at hnumber
    rw [hsplit, List.length_append, List.length_replicate] at hlength
    have hnil : trimmed ≠ [] := by
      rintro rfl
      rw [Nat.ofDigitChars_nil, Nat.mul_zero] at hnumber
      omega
    have hall : ∀ c ∈ trimmed, c.isDigit = true := fun c hc =>
      hdigits c (hsplit ▸ List.mem_append_left _ hc)
    have hstops : Stops ['Z'] := fun c hc => by
      cases hc
      decide
    rw [String.toList_append, String.toList_ofList, String.toList_ofList, List.singleton_append,
      List.cons_append, parseFraction, span_digits hall hstops]
    split
    next heq => exact absurd (congrArg Prod.fst heq) hnil
    next digits' rest' _ heq =>
      cases heq
      rw [parseNanoseconds, List.take_of_length_le (by omega), ← hnumber, Nat.mul_comm,
        show 9 - trimmed.length = zeros by omega]

/-- A date is read back. -/
theorem dayNumber_monthDay {d : ℤ} {year month dom : ℕ} (hyear : (year : ℤ) = yearOfDay d)
    (hdate : monthDay 1 (d - daysBefore year) (monthLengths year) = ((month : ℤ), (dom : ℤ))) :
    (1 ≤ month ∧ month ≤ 12) ∧ (1 ≤ dom ∧ dom ≤ daysIn month year) ∧
      dayNumber year month dom = d := by
  obtain ⟨hle, hlt⟩ := yearOfDay_spec d
  rw [← hyear] at hle hlt
  have hsum := sum_monthLengths year
  obtain ⟨earlier, length, later, hlengths, hearlier, hlength, hresult⟩ :=
    monthDay_spec (monthLengths year) 1 (d := d - daysBefore year) (by omega) (by omega)
  rw [hdate] at hresult
  obtain ⟨hmonth, hdom⟩ := Prod.mk.inj hresult
  have hmonths : earlier.length < 12 := by
    have htotal : (monthLengths year).length = 12 := rfl
    rw [hlengths, List.length_append, List.length_cons] at htotal
    omega
  have hindex : month - 1 = earlier.length := by omega
  have htake : (monthLengths year).take (month - 1) = earlier := by
    rw [hlengths, hindex, List.take_left]
  have hdays : (monthLengths year).getD (month - 1) 0 = length := by
    simp [hlengths, hindex, List.getD_eq_getElem?_getD]
  unfold daysIn dayNumber
  rw [htake, hdays]
  omega

theorem toList_padded_two {k : ℕ} (hk : k < 100) : ∃ a b, (padded 2 k).toList = [a, b] :=
  List.length_eq_two.mp (length_padded (by decide) hk)

theorem toList_padded_four {k : ℕ} (hk : k < 10000) : ∃ a b c d, (padded 4 k).toList = [a, b, c, d] :=
  List.length_eq_four.mp (length_padded (by decide) hk)

/-- A date, a time of day and a fraction are read back. -/
theorem parseRFC3339_text {year month dom hours minutes seconds nanos : ℕ} (hyear : year ≤ 9999)
    (hmonth : 1 ≤ month ∧ month ≤ 12) (hdom : 1 ≤ dom ∧ dom ≤ daysIn month year) (hlong : dom < 100)
    (hhours : hours ≤ 23) (hminutes : minutes ≤ 59) (hseconds : seconds ≤ 59) (hnanos : nanos < 10 ^ 9) :
    parseRFC3339 (padded 4 year ++ "-" ++ padded 2 month ++ "-" ++ padded 2 dom ++ "T" ++
        padded 2 hours ++ ":" ++ padded 2 minutes ++ ":" ++ padded 2 seconds ++ fractionText nanos ++
        "Z").toList =
      some (dayNumber year month dom * day + hours * hour + minutes * minute + seconds * second + nanos) := by
  have hy : parseUint (padded 4 year).toList 0 9999 = some year := parseUint_padded (Nat.zero_le _) hyear
  have hm : parseUint (padded 2 month).toList 1 12 = some month := parseUint_padded hmonth.1 hmonth.2
  have hd : parseUint (padded 2 dom).toList 1 (daysIn month year) = some dom :=
    parseUint_padded hdom.1 hdom.2
  have hh : parseUint (padded 2 hours).toList 0 23 = some hours := parseUint_padded (Nat.zero_le _) hhours
  have hn : parseUint (padded 2 minutes).toList 0 59 = some minutes :=
    parseUint_padded (Nat.zero_le _) hminutes
  have hs : parseUint (padded 2 seconds).toList 0 59 = some seconds :=
    parseUint_padded (Nat.zero_le _) hseconds
  have hf := parseFraction_fractionText hnanos
  obtain ⟨y₁, y₂, y₃, y₄, hy4⟩ := toList_padded_four (k := year) (by omega)
  obtain ⟨m, m', hm2⟩ := toList_padded_two (k := month) (by omega)
  obtain ⟨d, d', hd2⟩ := toList_padded_two hlong
  obtain ⟨h, h', hh2⟩ := toList_padded_two (k := hours) (by omega)
  obtain ⟨n, n', hn2⟩ := toList_padded_two (k := minutes) (by omega)
  obtain ⟨s, s', hs2⟩ := toList_padded_two (k := seconds) (by omega)
  rw [hy4] at hy
  rw [hm2] at hm
  rw [hd2] at hd
  rw [hh2] at hh
  rw [hn2] at hn
  rw [hs2] at hs
  simp only [String.toList_append, hy4, hm2, hd2, hh2, hn2, hs2,
    show "-".toList = ['-'] from rfl, show "T".toList = ['T'] from rfl, show ":".toList = [':'] from rfl,
    show "Z".toList = ['Z'] from rfl, List.cons_append, List.nil_append, parseRFC3339, hy, hm, hd, hh,
    hn, hs, hf, parseZone, Option.bind_eq_bind, Option.bind_some]
  simp

/-- The parts of a time of day, and their sum. -/
theorem clock_parts (t : ℤ) : (0 ≤ t % day / hour ∧ t % day / hour ≤ 23) ∧
    (0 ≤ t % day % hour / minute ∧ t % day % hour / minute ≤ 59) ∧
    (0 ≤ t % day % minute / second ∧ t % day % minute / second ≤ 59) ∧
    (0 ≤ t % day % second ∧ t % day % second < 1000000000) ∧
    t / day * day + t % day / hour * hour + t % day % hour / minute * minute +
      t % day % minute / second * second + t % day % second = t := by
  rw [show day = 86400000000000 from rfl, show hour = 3600000000000 from rfl,
    show minute = 60000000000 from rfl, show second = 1000000000 from rfl]
  omega

/-- An instant is read back from its text. -/
theorem parseRFC3339_marshalText {t : Time} {text : String} (h : t.marshalText = .ok text) :
    parseRFC3339 text.toList = some t := by
  obtain ⟨⟨hmonth, hmonth'⟩, hdom, hdom'⟩ := monthDay_bounds (d := t / day) rfl
  unfold Time.marshalText at h
  dsimp only at h
  split at h
  next => cases h
  next hyear =>
    simp only [Bool.or_eq_true, decide_eq_true_eq, not_or, not_lt, gt_iff_lt] at hyear
    -- the numbers of the text
    obtain ⟨year, hy⟩ := Int.eq_ofNat_of_zero_le hyear.1
    rw [hy] at h hmonth hmonth' hdom hdom' hyear
    obtain ⟨month, hm⟩ := Int.eq_ofNat_of_zero_le hmonth
    obtain ⟨dom, hd⟩ := Int.eq_ofNat_of_zero_le hdom
    obtain ⟨hmonths, hdays, hdate⟩ := dayNumber_monthDay hy.symm (Prod.ext hm hd)
    obtain ⟨hhours, hminutes, hseconds, hnanos, htotal⟩ := clock_parts t
    obtain ⟨hours, hh⟩ := Int.eq_ofNat_of_zero_le hhours.1
    obtain ⟨minutes, hn⟩ := Int.eq_ofNat_of_zero_le hminutes.1
    obtain ⟨seconds, hs⟩ := Int.eq_ofNat_of_zero_le hseconds.1
    obtain ⟨nanos, hf⟩ := Int.eq_ofNat_of_zero_le hnanos.1
    rw [hm, hd, hh, hn, hs, hf] at h
    rw [hh, hn, hs, hf] at htotal
    rw [hh] at hhours
    rw [hn] at hminutes
    rw [hs] at hseconds
    rw [hf] at hnanos
    rw [← Except.ok.inj h, parseRFC3339_text (by omega) hmonths hdays (by omega) (by omega) (by omega)
      (by omega) (by omega), hdate, htotal]

/-! ## Numbers are read back -/

theorem parseDigits_toDigits (n : ℕ) : parseDigits (Nat.toDigits 10 n) = some n := by
  have hdigits : (Nat.toDigits 10 n).all Char.isDigit = true :=
    List.all_eq_true.mpr fun _ hc => Nat.isDigit_of_mem_toDigits (by decide) (by decide) hc
  rw [parseDigits, if_pos hdigits, Nat.ofDigitChars_ten_toDigits]

/-- An int is read back from its text. -/
theorem parseInt_toString {n : ℤ} (hlow : -2 ^ 63 ≤ n) (hhigh : n < 2 ^ 63) :
    parseInt (toString n).toList = some n := by
  have hrange : (decide (-2 ^ 63 ≤ n) && decide (n < 2 ^ 63)) = true := by
    rw [decide_eq_true hlow, decide_eq_true hhigh]
    rfl
  rw [Int.toString_eq_repr, Int.repr_eq_if]
  by_cases hn : 0 ≤ n
  · obtain ⟨c, l, hl, hc⟩ := (unsigned_toDigits n.toNat).head
    have hread : parseDigits (c :: l) = some n.toNat := hl ▸ parseDigits_toDigits n.toNat
    rw [if_pos hn, Nat.toList_repr, hl, parseInt]
    · rw [hread, Option.map_some, Int.toNat_of_nonneg hn, Option.filter_some, if_pos hrange]
    · rintro digits heq
      obtain ⟨rfl, -⟩ := List.cons.inj heq
      cases hc
  · have hneg : -(((-n).toNat : ℕ) : ℤ) = n := by omega
    rw [if_neg hn, String.toList_append, Nat.toList_repr]
    change Option.filter _ ((parseDigits (Nat.toDigits 10 (-n).toNat)).map fun n : ℕ => -(n : ℤ)) = _
    rw [parseDigits_toDigits, Option.map_some, hneg, Option.filter_some, if_pos hrange]

/-! ## Texts of instants have no escapes -/

/-- Every character of a text stands for itself. -/
def Unescaped (s : String) : Prop := ∀ c ∈ s.toList, escapeChar c = String.ofList [c]

theorem Unescaped.append {s s' : String} (h : Unescaped s) (h' : Unescaped s') : Unescaped (s ++ s') := by
  intro c hc
  rw [String.toList_append] at hc
  rcases List.mem_append.mp hc with hc | hc
  · exact h c hc
  · exact h' c hc

theorem escape_of_unescaped {s : String} (h : Unescaped s) : escape s = s.toList := by
  unfold escape
  unfold Unescaped at h
  generalize s.toList = l at h
  induction l with
  | nil => rfl
  | cons c l ih =>
    obtain ⟨hc, hl⟩ := List.forall_mem_cons.mp h
    rw [List.flatMap_cons, ih hl, hc, String.toList_ofList, List.singleton_append]

theorem escapeChar_of_isDigit {c : Char} (h : c.isDigit = true) : escapeChar c = String.ofList [c] := by
  have hall : ∀ n < 58, 48 ≤ n → escapeChar (Char.ofNat n) = String.ofList [Char.ofNat n] := by decide
  simp only [Char.isDigit, Bool.and_eq_true, decide_eq_true_eq] at h
  rw [← Char.ofNat_toNat c]
  exact hall c.toNat (Nat.lt_succ_of_le (UInt32.le_iff_toNat_le.mp h.2)) (UInt32.le_iff_toNat_le.mp h.1)

theorem unescaped_padded (width : ℕ) (n : ℤ) : Unescaped (padded width n) := by
  unfold padded
  refine Unescaped.append ?_ ?_
  · intro c hc
    rw [String.toList_ofList] at hc
    rw [List.eq_of_mem_replicate hc]
    rfl
  · intro c hc
    rcases numeral_toString n with hn | ⟨l, hl, hn⟩
    · exact escapeChar_of_isDigit (hn.digits c hc)
    · rw [hl] at hc
      rcases List.mem_cons.mp hc with rfl | hc
      · rfl
      · exact escapeChar_of_isDigit (hn.digits c hc)

theorem unescaped_fractionText (n : ℤ) : Unescaped (fractionText n) := by
  have hpoint : Unescaped "." := by
    intro c hc
    rw [List.mem_singleton.mp hc]
    rfl
  unfold fractionText
  split
  · exact fun c hc => absurd hc List.not_mem_nil
  · refine hpoint.append fun c hc => unescaped_padded 9 n c ?_
    rw [String.toList_ofList, List.mem_reverse] at hc
    exact List.mem_reverse.mp (List.dropWhile_subset _ hc)

theorem unescaped_marshalText {t : Time} {text : String} (h : t.marshalText = .ok text) :
    Unescaped text := by
  have hmark : ∀ s ∈ ["-", "T", ":", "Z"], Unescaped s := by
    simp [Unescaped, escapeChar]
  have hdash := hmark "-" (by simp)
  have hcolon := hmark ":" (by simp)
  have hp := unescaped_padded
  unfold Time.marshalText at h
  dsimp only at h
  split at h
  next => cases h
  next =>
    rw [← Except.ok.inj h]
    refine (Unescaped.append ?_ (unescaped_fractionText _)).append (hmark "Z" (by simp))
    refine ((((Unescaped.append ?_ (hmark "T" (by simp))).append (hp 2 _)).append hcolon).append
      (hp 2 _)).append hcolon |>.append (hp 2 _)
    exact ((((hp 4 _).append hdash).append (hp 2 _)).append hdash).append (hp 2 _)

theorem storeTime_value {t t' : Time} {j : Json} (h : t.toJson = .ok j) :
    storeTime j.value t' = some t := by
  obtain ⟨text, htext, hj⟩ := bind_eq_ok_iff.mp h
  cases hj
  change parseRFC3339 (escape text) = some t
  rw [escape_of_unescaped (unescaped_marshalText htext)]
  exact parseRFC3339_marshalText htext

theorem storeString_value (s s' : String) : storeString (Json.str s).value s' = some s := by
  change some (String.ofList (unquote (escape s))) = some s
  rw [unquote_escape, String.ofList_toList]

theorem storeInt_value {n : ℤ} (hlow : -2 ^ 63 ≤ n) (hhigh : n < 2 ^ 63) (n' : ℤ) :
    storeInt (Json.num n).value n' = some n := parseInt_toString hlow hhigh

theorem storeBool_value (b b' : Bool) : storeBool (Json.bool b).value b' = some b := rfl

/-! ## Records are decoded -/

section Records

variable {σ : Type} {strict : Bool}

/-- The members that are present, with their documents. -/
def present : List (Member σ) → List (Option Json) → List (String × Json)
  | m :: members, some j :: js => (m.name, j) :: present members js
  | _ :: members, none :: js => present members js
  | _, _ => []

/-- Store the members that are present. -/
def storeAll : List (Member σ) → List (Option Json) → σ → Option σ
  | m :: members, some j :: js, s => (m.store j.value s).bind (storeAll members js)
  | _ :: members, none :: js, s => storeAll members js s
  | _, _, s => some s

theorem present_cons (m : Member σ) (members : List (Member σ)) (j : Option Json)
    (js : List (Option Json)) :
    present (m :: members) (j :: js) = (j.toList.map fun j => (m.name, j)) ++ present members js := by
  cases j with
  | none => rfl
  | some j => rfl

theorem storeAll_cons (m : Member σ) (members : List (Member σ)) (j : Option Json)
    (js : List (Option Json)) (s : σ) : storeAll (m :: members) (j :: js) s =
      (j.elim (some s) fun j => m.store j.value s).bind (storeAll members js) := by
  cases j with
  | none => rfl
  | some j => rfl

theorem decodeFields_present {members : List (Member σ)}
    (hdistinct : members.Pairwise fun f g => sameName f.name.toList g.name.toList = false)
    (chosen : List (Member σ)) (hsub : ∀ m ∈ chosen, m ∈ members) (js : List (Option Json)) (s : σ) :
    decodeFields strict members (fieldValues (present chosen js)) s = storeAll chosen js s := by
  induction chosen generalizing js s with
  | nil => rfl
  | cons m rest ih =>
    obtain ⟨hm, hrest⟩ := List.forall_mem_cons.mp hsub
    match js with
    | [] => rfl
    | none :: js => exact ih hrest js s
    | some j :: js =>
      rw [present, fieldValues, fieldValue, decodeFields, unquote_escape, find?_field hm hdistinct,
        storeAll]
      exact Option.bind_congr fun s _ => ih hrest js s

/-- The members that are present are stored in their order. -/
theorem decodeRecord_present {members : List (Member σ)}
    (hdistinct : members.Pairwise fun f g => sameName f.name.toList g.name.toList = false)
    (js : List (Option Json)) (s : σ) :
    decodeRecord strict members (Json.obj (present members js)).value s = storeAll members js s :=
  decodeFields_present hdistinct members (fun _ h => h) js s

end Records

/-- The ints of a mapping fit, and its protocol is spelled in one way. -/
structure Mapping.Canonical (m : Mapping) : Prop where
  low : -2 ^ 63 ≤ m.port
  high : m.port < 2 ^ 63
  protocol : protocolOf m.protocol.text = m.protocol

section

variable (strict : Bool)

theorem decode_mapping {m zero : Mapping} (h : m.Canonical) :
    decodeRecord strict mappingFields m.toJson.value zero = some m := by
  have hdoc : m.toJson = .obj (present mappingFields
      [some (.str m.prefixLabel), some (.num m.port), some (.str m.protocol.text),
       some (.bool m.enabled)]) := rfl
  rw [hdoc, decodeRecord_present (by decide)]
  simp [mappingFields, storeAll, member, storeString_value, storeInt_value h.low h.high,
    storeBool_value, h.protocol]

theorem decode_device {d zero : Device} {j : Json} (h : d.toJson = .ok j) :
    decodeRecord strict deviceFields j.value zero = some d := by
  obtain ⟨fields, hfields, h⟩ := bind_eq_ok_iff.mp h
  obtain ⟨created, hcreated, hfields⟩ := bind_eq_ok_iff.mp hfields
  obtain ⟨acknowledged, hacknowledged, hfields⟩ := bind_eq_ok_iff.mp hfields
  cases hfields
  cases h
  change decodeRecord strict deviceFields (Json.obj (present deviceFields
    [some (.str d.id), some (.str d.name), some (.str d.publicKey), some created,
     some acknowledged])).value zero = _
  rw [decodeRecord_present (by decide)]
  simp [deviceFields, storeAll, member, storeString_value, storeTime_value hcreated,
    storeTime_value hacknowledged]

theorem decode_pending {d zero : PendingDevice} {j : Json} (h : d.toJson = .ok j) :
    decodeRecord strict pendingFields j.value zero = some d := by
  obtain ⟨fields, hfields, h⟩ := bind_eq_ok_iff.mp h
  obtain ⟨expires, hexpires, h⟩ := bind_eq_ok_iff.mp h
  obtain ⟨created, hcreated, hfields⟩ := bind_eq_ok_iff.mp hfields
  obtain ⟨acknowledged, hacknowledged, hfields⟩ := bind_eq_ok_iff.mp hfields
  cases hfields
  cases h
  change decodeRecord strict pendingFields (Json.obj (present pendingFields
    [some (.str d.id), some (.str d.name), some (.str d.publicKey), some created, some acknowledged,
     some (.str d.privateKey), some expires])).value zero = _
  rw [decodeRecord_present (by decide)]
  simp [pendingFields, deviceFields, storeAll, member, embedded, storeString_value,
    storeTime_value hcreated, storeTime_value hacknowledged, storeTime_value hexpires]

theorem decode_session {x zero : LocalSession} {j : Json} (h : x.toJson = .ok j) :
    decodeRecord strict sessionFields j.value zero = some x := by
  obtain ⟨created, hcreated, h⟩ := bind_eq_ok_iff.mp h
  obtain ⟨used, hused, h⟩ := bind_eq_ok_iff.mp h
  obtain ⟨authenticated, hauthenticated, h⟩ := bind_eq_ok_iff.mp h
  obtain ⟨expires, hexpires, h⟩ := bind_eq_ok_iff.mp h
  cases h
  change decodeRecord strict sessionFields (Json.obj (present sessionFields
    [some (.str x.id), some (.str x.owner), some (.str x.tokenHash), some created, some used,
     some authenticated, some expires])).value zero = _
  rw [decodeRecord_present (by decide)]
  simp [sessionFields, storeAll, member, storeString_value, storeTime_value hcreated,
    storeTime_value hused, storeTime_value hauthenticated, storeTime_value hexpires]

theorem decode_bootstrap {b zero : BootstrapWindow} {j : Json} (h : b.toJson = .ok j) :
    decodeRecord strict bootstrapFields j.value zero = some b := by
  obtain ⟨expires, hexpires, h⟩ := bind_eq_ok_iff.mp h
  cases h
  change decodeRecord strict bootstrapFields (Json.obj (present bootstrapFields
    [some (.str b.token), some expires])).value zero = _
  rw [decodeRecord_present (by decide)]
  simp [bootstrapFields, storeAll, member, storeString_value, storeTime_value hexpires]

theorem itemValues_eq (items : List Json) : itemValues items = items.map Json.value := by
  induction items with
  | nil => rfl
  | cons item rest ih => rw [itemValues, ih, List.map_cons]

/-- A list is decoded when its items are. -/
theorem decodeList_encodeAll {α : Type} {decode : Value → Option α} {encode : α → Except GoError Json}
    {xs : List α} {js : List Json} (hdecode : ∀ x ∈ xs, ∀ j, encode x = .ok j → decode j.value = some x)
    (h : encodeAll encode xs = .ok js) : decodeList decode (Json.arr js).value = some (some xs) := by
  have hitems : (js.map Json.value).mapM decode = some xs := by
    induction xs generalizing js with
    | nil =>
      cases h
      rfl
    | cons x xs ih =>
      obtain ⟨hx, hxs⟩ := List.forall_mem_cons.mp hdecode
      obtain ⟨head, hhead, h⟩ := bind_eq_ok_iff.mp h
      obtain ⟨tail, htail, h⟩ := bind_eq_ok_iff.mp h
      cases h
      simp [hx head hhead, ih hxs htail]
  rw [Json.value, itemValues_eq, decodeList, hitems, Option.map_some]

theorem encodeAll_map {α : Type} (encode : α → Json) (xs : List α) :
    encodeAll (fun x => .ok (encode x)) xs = .ok (xs.map encode) := by
  induction xs with
  | nil => rfl
  | cons x xs ih =>
    rw [encodeAll, ih]
    rfl

theorem decodeList_map {α : Type} {decode : Value → Option α} {encode : α → Json} {xs : List α}
    (h : ∀ x ∈ xs, decode (encode x).value = some x) :
    decodeList decode (Json.arr (xs.map encode)).value = some (some xs) := by
  refine decodeList_encodeAll (fun x hx j hj => ?_) (encodeAll_map encode xs)
  cases hj
  exact h x hx

theorem decode_token {x zero : AgentToken} {j : Json}
    (hscopes : ∀ scope ∈ x.scopes, scopeOf scope.text = scope) (h : x.toJson = .ok j) :
    decodeRecord strict tokenFields j.value zero = some x := by
  obtain ⟨created, hcreated, h⟩ := bind_eq_ok_iff.mp h
  obtain ⟨used, hused, h⟩ := bind_eq_ok_iff.mp h
  obtain ⟨expires, hexpires, h⟩ := bind_eq_ok_iff.mp h
  cases h
  have hlist (old : List Scope) : storeScopes (Json.arr (x.scopes.map fun scope => .str scope.text)).value
      old = some x.scopes := by
    rw [storeScopes, decodeList_map fun scope hscope => ?_]
    · rfl
    · rw [storeString_value, Option.map_some, hscopes scope hscope]
  change decodeRecord strict tokenFields (Json.obj (present tokenFields
    [some (.str x.id), some (.str x.name), some (.str x.tokenHash),
     some (.arr (x.scopes.map fun scope => .str scope.text)), some created, some used,
     some expires])).value zero = _
  rw [decodeRecord_present (by decide)]
  simp [tokenFields, storeAll, member, storeString_value, hlist, storeTime_value hcreated,
    storeTime_value hused, storeTime_value hexpires]

end

/-- The ints of a state fit, and its protocols and scopes are spelled in one way. -/
structure State.Canonical (s : State) : Prop where
  low : -2 ^ 63 ≤ s.version
  high : s.version < 2 ^ 63
  mapping : ∀ m ∈ s.mappings, m.Canonical
  scope : ∀ x ∈ s.tokens, ∀ scope ∈ x.scopes, scopeOf scope.text = scope

/-- An optional field is the document of its value, if there is one. -/
theorem optionalField_ok {α : Type} {name : String} {encode : α → Except GoError Json} {x : Option α}
    {fields : List (String × Json)} (h : optionalField name encode x = .ok fields) :
    ∃ j : Option Json, fields = j.toList.map (fun j => (name, j)) ∧
      (x = none ∧ j = none ∨ ∃ a d, x = some a ∧ j = some d ∧ encode a = .ok d) := by
  cases x with
  | none =>
    cases h
    exact ⟨none, rfl, .inl ⟨rfl, rfl⟩⟩
  | some a =>
    obtain ⟨d, hd, h⟩ := bind_eq_ok_iff.mp h
    cases h
    exact ⟨some d, rfl, .inr ⟨a, d, rfl, rfl, hd⟩⟩

theorem storePointer_value {σ : Type} {strict : Bool} {fields : List (Member σ)} {zero x : σ} {j : Json}
    (h : decodeRecord strict fields j.value zero = some x) :
    storePointer strict fields zero j.value none = some (some x) := by
  unfold storePointer
  split
  next hnull =>
    -- no document is null
    cases j with
    | bool b => cases hnull
    | num n => cases hnull
    | str s => cases hnull
    | arr items => cases hnull
    | obj members => cases hnull
  next => rw [Option.getD_none, h, Option.map_some]

section

variable (strict : Bool) {s : State}

theorem storePending {j : Option Json} (d : Draft) (hd : d.pending = none)
    (h : s.pending = none ∧ j = none ∨
      ∃ p doc, s.pending = some p ∧ j = some doc ∧ PendingDevice.toJson p = .ok doc) :
    (j.elim (some d) fun j => ((storePointer strict pendingFields ⟨⟨"", "", "", 0, 0⟩, "", 0⟩ j.value
      d.pending).map fun x => { d with pending := x })) = some { d with pending := s.pending } := by
  rcases h with ⟨hnone, rfl⟩ | ⟨p, doc, hsome, rfl, hdoc⟩
  · rw [hnone, ← hd]
    rfl
  · rw [Option.elim_some, hd, storePointer_value (decode_pending strict hdoc), Option.map_some, hsome]

theorem storeBootstrap {j : Option Json} (d : Draft) (hd : d.bootstrap = none)
    (h : s.bootstrap = none ∧ j = none ∨
      ∃ b doc, s.bootstrap = some b ∧ j = some doc ∧ BootstrapWindow.toJson b = .ok doc) :
    (j.elim (some d) fun j => ((storePointer strict bootstrapFields ⟨"", 0⟩ j.value
      d.bootstrap).map fun x => { d with bootstrap := x })) = some { d with bootstrap := s.bootstrap } := by
  rcases h with ⟨hnone, rfl⟩ | ⟨b, doc, hsome, rfl, hdoc⟩
  · rw [hnone, ← hd]
    rfl
  · rw [Option.elim_some, hd, storePointer_value (decode_bootstrap strict hdoc), Option.map_some, hsome]

theorem storeServiceID_value (d : Draft) (hd : d.serviceID = "") :
    ((if s.serviceID = "" then none else some (Json.str s.serviceID)).elim (some d) fun j =>
      (storeString j.value d.serviceID).map fun x => { d with serviceID := x }) =
        some { d with serviceID := s.serviceID } := by
  split
  next hnone =>
    rw [hnone, ← hd]
    rfl
  next => rw [Option.elim_some, storeString_value, Option.map_some]

theorem distinct_draftFields :
    (draftFields strict).Pairwise fun f g => sameName f.name.toList g.name.toList = false := by
  cases strict with
  | true => decide
  | false => decide

/-- A state is decoded from its document. -/
theorem decodeDraft_value {document : Json} (hs : s.Canonical) (h : s.toJson = .ok document) :
    decodeDraft strict document.value = some s.draft := by
  obtain ⟨devices, hdevices, h⟩ := bind_eq_ok_iff.mp h
  obtain ⟨pending, hpending, h⟩ := bind_eq_ok_iff.mp h
  obtain ⟨sessions, hsessions, h⟩ := bind_eq_ok_iff.mp h
  obtain ⟨tokens, htokens, h⟩ := bind_eq_ok_iff.mp h
  obtain ⟨bootstrap, hbootstrap, h⟩ := bind_eq_ok_iff.mp h
  obtain ⟨pendingDoc, rfl, hpendingDoc⟩ := optionalField_ok hpending
  obtain ⟨bootstrapDoc, rfl, hbootstrapDoc⟩ := optionalField_ok hbootstrap
  have hdoc : document = .obj (present (draftFields strict)
      [some (.num s.version), some (.bool s.initialized),
       if s.serviceID = "" then none else some (.str s.serviceID), some (.bool s.publication),
       some (.arr (s.mappings.map Mapping.toJson)), some (.arr devices), pendingDoc,
       some (.arr sessions), some (.arr tokens), bootstrapDoc]) := by
    cases h
    simp only [draftFields, present_cons, member]
    split
    · simp [present]
    · simp [present]
  have hmappings (old : Option (List Mapping)) : storeRecords strict mappingFields
      ⟨"", 0, .other "", false⟩ (Json.arr (s.mappings.map Mapping.toJson)).value old =
        some (some s.mappings) :=
    decodeList_map fun m hm => decode_mapping strict (hs.mapping m hm)
  have hdevices (old : Option (List Device)) : storeRecords strict deviceFields ⟨"", "", "", 0, 0⟩
      (Json.arr devices).value old = some (some s.devices) :=
    decodeList_encodeAll (fun d _ j hj => decode_device strict hj) hdevices
  have hsessions (old : Option (List LocalSession)) : storeRecords strict sessionFields
      ⟨"", "", "", 0, 0, 0, 0⟩ (Json.arr sessions).value old = some (some s.sessions) :=
    decodeList_encodeAll (fun x _ j hj => decode_session strict hj) hsessions
  have htokens (old : Option (List AgentToken)) : storeRecords strict tokenFields
      ⟨"", "", "", [], 0, 0, 0⟩ (Json.arr tokens).value old = some (some s.tokens) :=
    decodeList_encodeAll (fun x hx j hj => decode_token strict (hs.scope x hx) hj) htokens
  rw [hdoc, decodeDraft, decodeRecord_present (distinct_draftFields strict), draftFields]
  simp only [storeAll_cons, member, Option.elim_some, storeInt_value hs.low hs.high, storeBool_value,
    Option.map_some, Option.bind_some, hmappings, hdevices, hsessions, htokens]
  rw [storeServiceID_value _ rfl]
  simp only [Option.bind_some]
  rw [storePending strict _ rfl hpendingDoc]
  simp only [Option.bind_some]
  rw [storeBootstrap strict _ rfl hbootstrapDoc]
  rfl

end

end Torkitten
