import Torkitten.Authelia.Config
import Torkitten.Caddy.Routing
import Torkitten.Foundations.Pattern
import Torkitten.Model.Specification
import Torkitten.Tor.Identity

/-!
# Enrolment

`EnrollmentQR`, `ServePending` and the parsing of its answer in the browser. Each of them checks its
input against a pattern of its own. Together with the checks of the renderers and of the
authorisation files these are the checks that a state meets after `Validate`.

## Main results

* `accepted_of_valid`: none of these checks refuses a valid state with an owner.
-/

namespace Torkitten.Onboarding

open Pattern

/-! ## Patterns -/

/-- `[a-z2-7]`. -/
def base32Class : List Char := "abcdefghijklmnopqrstuvwxyz234567".toList

/-- `[a-z0-9]`. -/
def edgeClass : List Char := "abcdefghijklmnopqrstuvwxyz0123456789".toList

/-- `[a-z0-9-]`. -/
def labelClass : List Char := "abcdefghijklmnopqrstuvwxyz0123456789-".toList

/-- `[a-z0-9](?:[a-z0-9-]{0,61}[a-z0-9])?`. -/
def labelPattern : RegularExpression Char :=
  oneOf edgeClass * (1 + atMost 61 (oneOf labelClass) * oneOf edgeClass)

/-- `https://(?:[a-z0-9](?:[a-z0-9-]{0,61}[a-z0-9])?\.)?[a-z2-7]{56}\.onion/`. -/
def siteURL : RegularExpression Char :=
  literal "https://" * ((1 + labelPattern * literal ".") *
    (oneOf base32Class ^ 56 * literal ".onion/"))

/-- `http://[a-z2-7]{56}\.onion\?key=[a-z2-7]{52}`. -/
def enrollmentURL : RegularExpression Char :=
  literal "http://" * (oneOf base32Class ^ 56 * (literal ".onion?key=" * oneOf base32Class ^ 52))

/-- `^otpauth://totp/[^\r\n]+$`. -/
def otpauthRE (value : String) : Bool :=
  let scheme := "otpauth://totp/".toList
  let rest := value.toList.drop scheme.length
  scheme.isPrefixOf value.toList && !rest.isEmpty && rest.all fun c => c != '\r' && c != '\n'

/-- The addresses of Orbot. -/
def publicURLs : List String :=
  ["https://orbot.app/download/",
    "https://play.google.com/store/apps/details?id=org.torproject.android"]

/-- The check of `EnrollmentQR`. -/
def enrollmentValue (value : String) : Bool :=
  (decide (value.utf8ByteSize ≤ 1024) && otpauthRE value) ||
    (siteURL + enrollmentURL).rmatch value.toList || publicURLs.contains value

/-- `EnrollmentQR`, for an encoder of QR codes. -/
def enrollmentQR (encode : String → Except GoError (List UInt8)) (value : String) :
    Except GoError (List UInt8) :=
  if !enrollmentValue value then .error (.new "invalid enrollment value") else encode value

/-! ## The pending device -/

/-- The address that the QR code of a pending device holds. -/
def pendingURL (s : State) (pending : PendingDevice) : String :=
  "http://" ++ s.host "" ++ "?key=" ++ pending.privateKey

/-- The address of a mapping, or of the service itself for the empty prefix. -/
def applicationURL (s : State) (label : String) : String := "https://" ++ s.host label ++ "/"

/-- An answer of `ServePending`. -/
inductive Answer where
  | notFound
  | failed
  | image (data : List UInt8)
  | text (body : String)
  deriving DecidableEq, Repr

/-- `ServePending`. -/
def servePending (encode : String → Except GoError (List UInt8)) (current : State) (now : Time)
    (qr : Bool) : Answer :=
  match current.pending with
  | none => .notFound
  | some pending =>
    if !decide (now < pending.expiresAt) then .notFound
    else
      match Tor.credential current.serviceID pending.privateKey with
      | .error _ => .failed
      | .ok credential =>
        if qr then
          match enrollmentQR encode (pendingURL current pending) with
          | .error _ => .failed
          | .ok data => .image data
        else .text (credential ++ "\n")

/-! ## The browser -/

/-- White space that `trim` removes in the browser. -/
def isScriptSpace (c : Char) : Bool := c == '\uFEFF' || (isSpace c && c != '\u0085')

/-- `trim` in the browser. -/
def scriptTrim (v : String) : String :=
  String.ofList (((v.toList.dropWhile isScriptSpace).reverse.dropWhile isScriptSpace).reverse)

/-- `^([a-z2-7]{56}):descriptor:x25519:([a-z2-7]{52})$`. -/
def credentialPattern : RegularExpression Char :=
  oneOf base32Class ^ 56 * (literal ":descriptor:x25519:" * oneOf base32Class ^ 52)

/-- The part of `ensurePendingSecret` that follows the request: the address and the key found in the
body of the answer. -/
def pendingSecret (body : String) : Option (String × String) :=
  let credential := scriptTrim body
  if credentialPattern.rmatch credential.toList then
    some ("http://" ++ String.ofList (credential.toList.take 56) ++ ".onion",
      String.ofList (credential.toList.drop (credential.toList.length - 52)))
  else none

/-! ## Well-formed texts match -/

/-- A class of characters below `z` is checked by going through them. -/
theorem mem_of_le_z {p : Char → Bool} {cls : List Char} (hp : ∀ c, p c = true → c ≤ 'z')
    (hcls : ∀ n < 123, p (Char.ofNat n) = true → Char.ofNat n ∈ cls) {c : Char} (hc : p c = true) :
    c ∈ cls := by
  have hbound : c.toNat < 123 := Nat.lt_succ_of_le (hp c hc)
  have := hcls c.toNat hbound
  rw [Char.ofNat_toNat] at this
  exact this hc

theorem mem_base32Class {c : Char} (h : IsBase32 c) : c ∈ base32Class := by
  refine mem_of_le_z (p := isBase32Char) (fun c hc => ?_) (by decide) ((isBase32Char_iff c).mpr h)
  rcases (isBase32Char_iff c).mp hc with h | h
  · exact h.2
  · exact Char.le_trans h.2 (by decide)

theorem mem_edgeClass {c : Char} (h : IsAlphanumeric c) : c ∈ edgeClass := by
  refine mem_of_le_z (p := isLabelEdge) (fun c hc => ?_) (by decide) ((isLabelEdge_iff c).mpr h)
  rcases (isLabelEdge_iff c).mp hc with h | h
  · exact h.2
  · exact Char.le_trans h.2 (by decide)

theorem mem_labelClass {c : Char} (h : IsAlphanumeric c ∨ c = '-') : c ∈ labelClass := by
  rcases h with h | rfl
  · exact List.mem_append_left ['-'] (mem_edgeClass h)
  · decide

theorem mem_base32_pow {n : ℕ} {v : String} (h : Spelled IsBase32 n v) :
    v.toList ∈ (oneOf base32Class ^ n).matches' :=
  mem_oneOf_pow.mpr ⟨h.length, fun c hc => mem_base32Class (h.chars c hc)⟩

theorem mem_labelPattern {v : String} (h : IsLabel v) : v.toList ∈ labelPattern.matches' := by
  have hedge : ∀ c, IsAlphanumeric c → [c] ∈ (oneOf edgeClass).matches' :=
    fun c hc => mem_oneOf.mpr ⟨c, mem_edgeClass hc, rfl⟩
  obtain ⟨⟨hpos, hlength⟩, hchars, hhead, hlast⟩ := h
  cases hv : v.toList with
  | nil => simp [hv] at hpos
  | cons first rest =>
    rw [hv] at hlength hchars hhead hlast
    refine append_mem (a := [first]) (hedge first (hhead first rfl)) (mem_add.mpr ?_)
    -- what follows the first character is empty or has a last one
    rcases List.eq_nil_or_concat' rest with rfl | ⟨inner, last, rfl⟩
    · exact .inl nil_mem_one
    · refine .inr (append_mem (mem_atMost_oneOf ?_ fun c hc => ?_) (hedge last ?_))
      · simp only [List.length_cons, List.length_append, List.length_nil] at hlength
        omega
      · exact mem_labelClass (hchars c (by simp [hc]))
      · exact hlast last (by rw [← List.cons_append, List.getLast?_concat])

theorem siteURL_rmatch {id : String} (hid : Spelled IsBase32 56 id) {label : String}
    (hlabel : label = "" ∨ IsLabel label) :
    siteURL.rmatch ("https://" ++ hostOf id label ++ "/").toList = true := by
  rw [RegularExpression.rmatch_iff_matches']
  have hend : id.toList ++ ".onion/".toList ∈ (oneOf base32Class ^ 56 * literal ".onion/").matches' :=
    append_mem (mem_base32_pow hid) (literal_mem _)
  unfold hostOf
  split
  next =>
    have hword : "https://".toList ++ ([] ++ (id.toList ++ ".onion/".toList)) ∈ siteURL.matches' :=
      append_mem (literal_mem _) (append_mem (mem_add.mpr (.inl nil_mem_one)) hend)
    simpa using hword
  next hne =>
    have hlabel' : label.toList ++ ".".toList ∈ (labelPattern * literal ".").matches' :=
      append_mem (mem_labelPattern (hlabel.resolve_left hne)) (literal_mem _)
    have hword : "https://".toList ++ ((label.toList ++ ".".toList) ++
        (id.toList ++ ".onion/".toList)) ∈ siteURL.matches' :=
      append_mem (literal_mem _) (append_mem (mem_add.mpr (.inr hlabel')) hend)
    simpa using hword

theorem enrollmentURL_rmatch {id key : String} (hid : Spelled IsBase32 56 id)
    (hkey : Spelled IsBase32 52 key) :
    enrollmentURL.rmatch ("http://" ++ hostOf id "" ++ "?key=" ++ key).toList = true := by
  rw [RegularExpression.rmatch_iff_matches']
  have hword : "http://".toList ++ (id.toList ++ (".onion?key=".toList ++ key.toList)) ∈
      enrollmentURL.matches' :=
    append_mem (literal_mem _) (append_mem (mem_base32_pow hid)
      (append_mem (literal_mem _) (mem_base32_pow hkey)))
  simpa [hostOf] using hword

theorem credentialPattern_rmatch {id key : String} (hid : Spelled IsBase32 56 id)
    (hkey : Spelled IsBase32 52 key) :
    credentialPattern.rmatch (id ++ ":descriptor:x25519:" ++ key).toList = true := by
  rw [RegularExpression.rmatch_iff_matches']
  have hword : id.toList ++ (":descriptor:x25519:".toList ++ key.toList) ∈
      credentialPattern.matches' :=
    append_mem (mem_base32_pow hid) (append_mem (literal_mem _) (mem_base32_pow hkey))
  simpa using hword

theorem isScriptSpace_eq_false {c : Char} (h : IsBase32 c) : isScriptSpace c = false := by
  have hclass : base32Class.all (fun c => !isScriptSpace c) = true := by decide
  rw [List.all_eq_true] at hclass
  simpa using hclass c (mem_base32Class h)

/-- The browser drops the line end of a body, and nothing else where the text has no space at its
ends. -/
theorem scriptTrim_line {v : String} (hne : v.toList ≠ [])
    (h : Edged (fun c => isScriptSpace c = false) v.toList) : scriptTrim (v ++ "\n") = v := by
  have hfront : (v ++ "\n").toList.dropWhile isScriptSpace = v.toList ++ ['\n'] := by
    rw [String.toList_append]
    refine dropWhile_eq_self_iff_head.mpr fun c hc => h.head c ?_
    rwa [List.head?_append_of_ne_nil _ hne] at hc
  have hback : (v.toList ++ ['\n']).reverse.dropWhile isScriptSpace = v.toList.reverse := by
    rw [List.reverse_append, List.reverse_singleton, List.singleton_append,
      List.dropWhile_cons_of_pos (by decide)]
    exact dropWhile_eq_self_iff_head.mpr (by simpa using h.last)
  rw [scriptTrim, hfront, hback, List.reverse_reverse, String.ofList_toList]

/-! ## The result -/

/-- The browser finds the address and the key in the credential of a pending device. -/
theorem pendingSecret_credential {id key : String} (hid : Spelled IsBase32 56 id)
    (hkey : Spelled IsBase32 52 key) :
    pendingSecret (id ++ ":descriptor:x25519:" ++ key ++ "\n") =
      some ("http://" ++ id ++ ".onion", key) := by
  have htext : (id ++ ":descriptor:x25519:" ++ key).toList =
      id.toList ++ (":descriptor:x25519:".toList ++ key.toList) := by
    simp
  have hid' : id.toList ≠ [] := fun h => by simpa [h] using hid.length
  have hkey' : key.toList ≠ [] := fun h => by simpa [h] using hkey.length
  have hedges : Edged (fun c => isScriptSpace c = false)
      (id ++ ":descriptor:x25519:" ++ key).toList := by
    refine ⟨fun c hc => ?_, fun c hc => ?_⟩
    · rw [htext, List.head?_append_of_ne_nil _ hid'] at hc
      exact isScriptSpace_eq_false (hid.chars c (List.mem_of_head? hc))
    · rw [htext, ← List.append_assoc, List.getLast?_append_of_ne_nil _ hkey'] at hc
      exact isScriptSpace_eq_false (hkey.chars c (List.mem_of_getLast? hc))
  have htrim := scriptTrim_line (by simp [htext]) hedges
  -- the first and the last part have fixed lengths
  have hfirst : (id ++ ":descriptor:x25519:" ++ key).toList.take 56 = id.toList := by
    rw [htext, ← hid.length, List.take_left]
  have hlast : (id ++ ":descriptor:x25519:" ++ key).toList.drop
      ((id ++ ":descriptor:x25519:" ++ key).toList.length - 52) = key.toList := by
    have hlength : (id ++ ":descriptor:x25519:" ++ key).toList.length - 52 =
        (id.toList ++ ":descriptor:x25519:".toList).length := by
      rw [htext, ← List.append_assoc, List.length_append, hkey.length, Nat.add_sub_cancel]
    rw [hlength, htext, ← List.append_assoc, List.drop_left]
  unfold pendingSecret
  simp only [htrim, credentialPattern_rmatch hid hkey, ↓reduceIte, hfirst, hlast, String.ofList_toList]

theorem enrollmentValue_of_rmatch {value : String}
    (h : siteURL.rmatch value.toList = true ∨ enrollmentURL.rmatch value.toList = true) :
    enrollmentValue value = true := by
  have hmatch := (RegularExpression.add_rmatch_iff siteURL enrollmentURL value.toList).mpr h
  simp [enrollmentValue, hmatch]

/-- Until it expires, a pending device is served its credential, and the image that the encoder makes
of its address. -/
theorem servePending_of_specified {s : State} (hs : s.Specified) (hinit : s.initialized = true)
    {pending : PendingDevice} (hpending : s.pending = some pending) {now : Time}
    (hnow : now < pending.expiresAt) (encode : String → Except GoError (List UInt8)) :
    servePending encode s now false =
        .text (s.serviceID ++ ":descriptor:x25519:" ++ pending.privateKey ++ "\n") ∧
      ∀ data, encode (pendingURL s pending) = .ok data →
        servePending encode s now true = .image data := by
  have hid : Spelled IsBase32 56 s.serviceID := hs.serviceID.resolve_left (hs.owned hinit)
  have hkey := (hs.pending pending hpending).privateKey
  have hcredential : Tor.credential s.serviceID pending.privateKey =
      .ok (s.serviceID ++ ":descriptor:x25519:" ++ pending.privateKey) := by
    simp [Tor.credential, serviceIDRE_iff.mpr hid, keyRE_iff.mpr hkey]
  have hvalue : enrollmentValue (pendingURL s pending) = true :=
    enrollmentValue_of_rmatch (.inr (enrollmentURL_rmatch hid hkey))
  refine ⟨?_, fun data hdata => ?_⟩
  · simp [servePending, hpending, hnow, hcredential]
  · simp [servePending, hpending, hnow, hcredential, enrollmentQR, hvalue, hdata]

/-- The checks that a state meets after `Validate` all accept it. -/
structure Accepted (r : Caddy.Renderer) (paths : Authelia.Paths) (socket : String) (s : State) :
    Prop where
  caddy : ∃ text, r.render s = .ok text
  authelia : ∃ text, paths.render s.serviceID = .ok text
  client : ∃ client, Authelia.newClient socket s.serviceID = .ok client
  device : ∀ d ∈ s.devices, ∀ p, Tor.writeAuthorization p d.id d.publicKey =
    writeCall (Tor.withAuth p (Tor.putFile (Tor.authFile d.id) (Tor.authData d.publicKey)))
  pending : ∀ d ∈ s.pending, ∀ p, Tor.writeAuthorization p d.id d.publicKey =
    writeCall (Tor.withAuth p (Tor.putFile (Tor.authFile d.id) (Tor.authData d.publicKey)))
  credential : ∀ d ∈ s.pending, ∃ text, Tor.credential s.serviceID d.privateKey = .ok text ∧
    credentialPattern.rmatch text.toList = true ∧
    pendingSecret (text ++ "\n") = some ("http://" ++ s.host "", d.privateKey)
  base : enrollmentValue (applicationURL s "") = true
  mapping : ∀ m ∈ s.mappings, enrollmentValue (applicationURL s m.prefixLabel) = true
  enrollment : ∀ d ∈ s.pending, enrollmentValue (pendingURL s d) = true

/-- No check that follows `Validate` refuses a valid state with an owner. -/
theorem accepted_of_valid {s : State} (hvalid : s.Valid) (hinit : s.initialized = true)
    {r : Caddy.Renderer} (hsafe : r.Safe) (haliases : r.aliases = []) {paths : Authelia.Paths}
    (hpaths : paths.safe = true) {socket : String} (hsocket : safePath socket = true) :
    Accepted r paths socket s := by
  have hs := valid_iff_specified.mp hvalid
  have hid : Spelled IsBase32 56 s.serviceID := hs.serviceID.resolve_left (hs.owned hinit)
  have hre : serviceIDRE s.serviceID = true := serviceIDRE_iff.mpr hid
  have hwrite : ∀ id key p, Spelled IsHex 32 id → Spelled IsBase32 52 key →
      Tor.writeAuthorization p id key =
        writeCall (Tor.withAuth p (Tor.putFile (Tor.authFile id) (Tor.authData key))) := by
    intro id key p hid hkey
    simp [Tor.writeAuthorization, idRE_iff.mpr hid, keyRE_iff.mpr hkey]
  constructor
  case caddy =>
    refine ⟨(r.routed s).text, ?_⟩
    have hconfig : r.config s = .ok (r.routed s) := by
      unfold Caddy.Renderer.config
      rw [show s.validate = none from hvalid]
      simp [hsafe.1, hsafe.2, hs.owned hinit, hinit, haliases]
    rw [Caddy.Renderer.render, hconfig]
    rfl
  case authelia => exact ⟨paths.text s.serviceID, by simp [Authelia.Paths.render, hre, hpaths]⟩
  case client => exact ⟨⟨socket, s.serviceID⟩, by simp [Authelia.newClient, hre, hsocket]⟩
  case device => exact fun d hd p => hwrite _ _ p (hs.device d hd).id (hs.device d hd).publicKey
  case pending => exact fun d hd p => hwrite _ _ p (hs.pending d hd).id (hs.pending d hd).publicKey
  case credential =>
    intro d hd
    have hkey := (hs.pending d hd).privateKey
    refine ⟨s.serviceID ++ ":descriptor:x25519:" ++ d.privateKey, ?_, credentialPattern_rmatch hid hkey, ?_⟩
    · simp [Tor.credential, hre, keyRE_iff.mpr hkey]
    · rw [pendingSecret_credential hid hkey, State.host, hostOf, if_pos rfl, String.append_assoc]
  case base => exact enrollmentValue_of_rmatch (.inl (siteURL_rmatch hid (.inl rfl)))
  case mapping =>
    exact fun m hm => enrollmentValue_of_rmatch (.inl (siteURL_rmatch hid (.inr (hs.mapping m hm).label)))
  case enrollment =>
    exact fun d hd => enrollmentValue_of_rmatch (.inr (enrollmentURL_rmatch hid
      (hs.pending d hd).privateKey))

/-- A device that waits for its acknowledgement. -/
def waitingDevice : PendingDevice where
  id := String.ofList (List.replicate 32 '2')
  name := "tablet"
  publicKey := String.ofList (List.replicate 52 'c')
  createdAt := 1
  acknowledgedAt := 0
  privateKey := String.ofList (List.replicate 52 'd')
  expiresAt := 2

/-- A state with applications and a device that waits. -/
def enrollingState : State := { Caddy.sampleState with pending := some waitingDevice }

theorem enrollingState_accepted : enrollingState.mappings ≠ [] ∧ enrollingState.pending.isSome = true ∧
    Accepted Caddy.defaultRenderer Authelia.defaultPaths "/run/authelia.sock" enrollingState :=
  ⟨by decide, rfl, accepted_of_valid (by decide +kernel) rfl ⟨by decide +kernel, by decide +kernel⟩ rfl
    (by decide +kernel) (by decide +kernel)⟩

end Torkitten.Onboarding
