import Torkitten.Model.Validation

/-!
# What `Validate` accepts

The specification of a valid state, written without the loops of `State.Validate`: which texts, which
records and which collections are proper. `validate_iff_specified` says that `Validate` accepts exactly
the states that meet it.

The loops share one map of keys. A mapping is entered under its prefix and every other record under its
id with a tag before it, and the colon of a tag is no character of a prefix. So a record only ever
collides with a record of its own collection.
-/

namespace Torkitten

/-! ## Texts -/

/-- Lower-case letters and the digits 2 to 7. -/
def IsBase32 (c : Char) : Prop := ('a' ≤ c ∧ c ≤ 'z') ∨ ('2' ≤ c ∧ c ≤ '7')

/-- Lower-case hexadecimal digits. -/
def IsHex (c : Char) : Prop := ('a' ≤ c ∧ c ≤ 'f') ∨ ('0' ≤ c ∧ c ≤ '9')

/-- Lower-case letters and digits. -/
def IsAlphanumeric (c : Char) : Prop := ('a' ≤ c ∧ c ≤ 'z') ∨ ('0' ≤ c ∧ c ≤ '9')

/-- The text has `n` characters, all of one class. -/
structure Spelled (cls : Char → Prop) (n : ℕ) (v : String) : Prop where
  length : v.toList.length = n
  chars : ∀ c ∈ v.toList, cls c

/-- The text begins and ends with characters of one class, if it has any. -/
structure Edged (cls : Char → Prop) (l : List Char) : Prop where
  head : ∀ c, l.head? = some c → cls c
  last : ∀ c, l.getLast? = some c → cls c

/-- A label of a host name. -/
structure IsLabel (v : String) : Prop where
  length : 1 ≤ v.toList.length ∧ v.toList.length ≤ 63
  chars : ∀ c ∈ v.toList, IsAlphanumeric c ∨ c = '-'
  ends : Edged IsAlphanumeric v.toList

/-- A name given by a person. -/
structure IsName (v : String) : Prop where
  size : 1 ≤ v.utf8ByteSize ∧ v.utf8ByteSize ≤ 64
  ends : Edged (fun c => isSpace c = false) v.toList

/-- The text of a hash, which is not padded and is safe in URLs. -/
structure IsHash (v : String) : Prop where
  size : v.utf8ByteSize = 43
  chars : ∀ c ∈ v.toList, c ≠ '+' ∧ c ≠ '/' ∧ c ≠ '='

/-! ## Records -/

structure Mapping.Proper (m : Mapping) : Prop where
  label : IsLabel m.prefixLabel
  free : m.prefixLabel ∉ reserved
  port : 1 ≤ m.port ∧ m.port ≤ 65535
  control : m.port ≠ 12755
  protocol : m.protocol = .http ∨ m.protocol = .https ∨ m.protocol = .h2c

structure Device.Proper (d : Device) : Prop where
  id : Spelled IsHex 32 d.id
  name : IsName d.name
  publicKey : Spelled IsBase32 52 d.publicKey
  created : d.createdAt ≠ 0
  acknowledged : d.acknowledgedAt ≠ 0

structure PendingDevice.Proper (d : PendingDevice) : Prop where
  id : Spelled IsHex 32 d.id
  name : IsName d.name
  publicKey : Spelled IsBase32 52 d.publicKey
  privateKey : Spelled IsBase32 52 d.privateKey
  created : d.createdAt ≠ 0
  expires : d.createdAt < d.expiresAt

structure LocalSession.Proper (x : LocalSession) : Prop where
  id : Spelled IsHex 32 x.id
  tokenHash : IsHash x.tokenHash
  owner : x.owner ≠ ""
  created : x.createdAt ≠ 0
  used : x.createdAt ≤ x.lastUseAt
  expires : x.createdAt < x.expiresAt

structure AgentToken.Proper (t : AgentToken) : Prop where
  id : Spelled IsHex 32 t.id
  name : IsName t.name
  tokenHash : IsHash t.tokenHash
  authority : t.scopes ≠ []
  scopes : ∀ scope ∈ t.scopes, scope = .mappingsRead ∨ scope = .mappingsWrite

structure BootstrapWindow.Proper (b : BootstrapWindow) : Prop where
  token : IsHash b.token
  expires : b.expiresAt ≠ 0

/-- The specification of a valid state. -/
structure State.Specified (s : State) : Prop where
  version : s.version = 1
  serviceID : s.serviceID = "" ∨ Spelled IsBase32 56 s.serviceID
  owned : s.initialized = true → s.serviceID ≠ ""
  limits : s.mappings.length ≤ 128 ∧ s.devices.length ≤ 64 ∧ s.sessions.length ≤ 64 ∧
    s.tokens.length ≤ 64
  mapping : ∀ m ∈ s.mappings, m.Proper
  prefixes : (s.mappings.map Mapping.prefixLabel).Nodup
  device : ∀ d ∈ s.devices, d.Proper
  pending : ∀ d ∈ s.pending, d.Proper
  /-- The pending device is counted among the devices. -/
  deviceIDs : (s.devices.map Device.id ++ s.pending.toList.map fun d => d.id).Nodup
  session : ∀ x ∈ s.sessions, x.Proper
  sessionIDs : (s.sessions.map LocalSession.id).Nodup
  token : ∀ t ∈ s.tokens, t.Proper
  tokenIDs : (s.tokens.map AgentToken.id).Nodup
  bootstrap : ∀ b ∈ s.bootstrap, b.Proper
  publication : s.publication = true → s.initialized = true ∧ s.devices ≠ []

/-! ## The checks of texts -/

theorem matchesClass_iff_spelled {cls : Char → Bool} {p : Char → Prop} (hp : ∀ c, cls c = true ↔ p c)
    {n : ℕ} {v : String} : matchesClass cls n v = true ↔ Spelled p n v := by
  rw [matchesClass_iff]
  exact ⟨fun h => ⟨h.1, fun c hc => (hp c).mp (h.2 c hc)⟩,
    fun h => ⟨h.length, fun c hc => (hp c).mpr (h.chars c hc)⟩⟩

theorem isBase32Char_iff (c : Char) : isBase32Char c = true ↔ IsBase32 c := by
  simp [isBase32Char, IsBase32]

theorem isHexChar_iff (c : Char) : isHexChar c = true ↔ IsHex c := by
  simp [isHexChar, IsHex]

theorem isLabelEdge_iff (c : Char) : isLabelEdge c = true ↔ IsAlphanumeric c := by
  simp [isLabelEdge, IsAlphanumeric]

theorem isLabelChar_iff (c : Char) : isLabelChar c = true ↔ IsAlphanumeric c ∨ c = '-' := by
  simp [isLabelChar, isLabelEdge_iff]

theorem serviceIDRE_iff {v : String} : serviceIDRE v = true ↔ Spelled IsBase32 56 v :=
  matchesClass_iff_spelled isBase32Char_iff

theorem idRE_iff {v : String} : idRE v = true ↔ Spelled IsHex 32 v :=
  matchesClass_iff_spelled isHexChar_iff

theorem keyRE_iff {v : String} : keyRE v = true ↔ Spelled IsBase32 52 v :=
  matchesClass_iff_spelled isBase32Char_iff

theorem prefixRE_iff {v : String} : prefixRE v = true ↔ IsLabel v := by
  unfold prefixRE
  cases hv : v.toList with
  | nil =>
    refine ⟨fun h => (nomatch h), fun h => absurd h.length.1 ?_⟩
    simp [hv]
  | cons first rest =>
    dsimp only
    -- a single character is both ends of the label
    rcases List.eq_nil_or_concat' rest with rfl | ⟨inner, last, rfl⟩
    · simp only [List.getLast?_nil, Bool.and_true, isLabelEdge_iff]
      constructor
      · intro h
        refine ⟨by simp [hv], ?_, ?_, ?_⟩
        · simpa [hv] using .inl h
        · simpa [hv] using h
        · simpa [hv] using h
      · exact fun h => h.ends.head first (by simp [hv])
    · have hlast : (first :: (inner ++ [last])).getLast? = some last := by
        rw [← List.cons_append, List.getLast?_concat]
      simp only [List.getLast?_append, List.getLast?_singleton, Option.some_or, List.dropLast_concat,
        Bool.and_eq_true, List.all_eq_true, isLabelEdge_iff, isLabelChar_iff, decide_eq_true_eq,
        List.length_append, List.length_singleton]
      constructor
      · rintro ⟨hfirst, ⟨hend, hinner⟩, hlength⟩
        refine ⟨by simp [hv]; omega, ?_, ?_, ?_⟩
        · intro c hc
          simp only [hv, List.mem_cons, List.mem_append, List.not_mem_nil, or_false] at hc
          rcases hc with rfl | hc | rfl
          · exact .inl hfirst
          · exact hinner c hc
          · exact .inl hend
        · simpa [hv] using hfirst
        · simpa [hv, hlast] using hend
      · intro h
        have hlength := h.length.2
        simp only [hv, List.length_cons, List.length_append, List.length_nil] at hlength
        refine ⟨h.ends.head first (by simp [hv]), ⟨h.ends.last last (by rw [hv, hlast]), ?_⟩,
          by omega⟩
        exact fun c hc => h.chars c (by simp [hv, hc])

/-- Nothing is dropped in front when the first character stays. -/
theorem dropWhile_eq_self_iff_head {p : Char → Bool} {l : List Char} :
    l.dropWhile p = l ↔ ∀ c, l.head? = some c → p c = false := by
  cases l with
  | nil => simp
  | cons c rest =>
    cases hc : p c with
    | true =>
      simp only [List.dropWhile_cons, hc, List.head?_cons, Option.some.injEq, forall_eq',
        reduceCtorEq, iff_false]
      intro h
      have := congrArg List.length h
      have := (List.dropWhile_suffix p (l := rest)).length_le
      simp at *
      omega
    | false => simp [hc]

theorem trimSpace_eq_self_iff {v : String} :
    trimSpace v = v ↔ Edged (fun c => isSpace c = false) v.toList := by
  have hlist : trimSpace v = v ↔
      ((v.toList.dropWhile isSpace).reverse.dropWhile isSpace).reverse = v.toList := by
    unfold trimSpace
    constructor
    · intro h
      simpa using congrArg String.toList h
    · intro h
      rw [h, String.ofList_toList]
  rw [hlist]
  constructor
  · intro h
    -- nothing was dropped at either end, for the lengths agree
    have hfront : v.toList.dropWhile isSpace = v.toList := by
      refine (List.dropWhile_suffix isSpace).eq_of_length_le ?_
      have hback := (List.dropWhile_suffix isSpace
        (l := (v.toList.dropWhile isSpace).reverse)).length_le
      have := congrArg List.length h
      simp only [List.length_reverse] at this hback
      omega
    rw [hfront] at h
    have hback : v.toList.reverse.dropWhile isSpace = v.toList.reverse := by
      rw [← List.reverse_reverse (v.toList.reverse.dropWhile isSpace), h]
    refine ⟨dropWhile_eq_self_iff_head.mp hfront, ?_⟩
    simpa using dropWhile_eq_self_iff_head.mp hback
  · rintro ⟨hhead, hlast⟩
    rw [dropWhile_eq_self_iff_head.mpr hhead, dropWhile_eq_self_iff_head.mpr (by simpa using hlast),
      List.reverse_reverse]

theorem validName_iff {v : String} : validName v = true ↔ IsName v := by
  unfold validName
  simp only [Bool.and_eq_true, decide_eq_true_eq, beq_iff_eq, trimSpace_eq_self_iff]
  exact ⟨fun h => ⟨h.1, h.2⟩, fun h => ⟨h.size, h.ends⟩⟩

theorem validHash_iff {v : String} : validHash v = true ↔ IsHash v := by
  unfold validHash
  simp only [Bool.and_eq_true, beq_iff_eq, Bool.not_eq_true', List.any_eq_false, Bool.or_eq_true,
    not_or]
  exact ⟨fun h => ⟨h.1, fun c hc => by simpa [and_assoc] using h.2 c hc⟩,
    fun h => ⟨h.size, fun c hc => by simpa [and_assoc] using h.chars c hc⟩⟩

/-! ## The checks of records -/

theorem validateMapping_iff {m : Mapping} : validateMapping m = none ↔ m.Proper := by
  unfold validateMapping validatePrefix
  by_cases hlabel : prefixRE m.prefixLabel = true ∧ m.prefixLabel ∉ reserved
  · rw [if_neg (by simpa using hlabel)]
    dsimp only
    split
    next hport =>
      refine ⟨fun h => (nomatch h), fun h => ?_⟩
      simp only [Bool.or_eq_true, decide_eq_true_eq, beq_iff_eq] at hport
      have := h.port
      have := h.control
      omega
    next hport =>
      simp only [Bool.or_eq_true, decide_eq_true_eq, beq_iff_eq, not_or] at hport
      have hprotocol : (m.protocol = .http ∨ m.protocol = .https ∨ m.protocol = .h2c) ↔
          ¬ (m.protocol ≠ .http && m.protocol ≠ .https && m.protocol ≠ .h2c) = true := by
        simp only [ne_eq, decide_not, Bool.and_eq_true, Bool.not_eq_true', decide_eq_false_iff_not]
        tauto
      split
      next hother => exact ⟨fun h => (nomatch h), fun h => absurd hother (hprotocol.mp h.protocol)⟩
      next hother =>
        refine ⟨fun _ => ⟨prefixRE_iff.mp hlabel.1, hlabel.2, by omega, by omega, ?_⟩, fun _ => rfl⟩
        exact hprotocol.mpr hother
  · rw [if_pos]
    · exact ⟨fun h => (nomatch h), fun h => absurd ⟨prefixRE_iff.mpr h.label, h.free⟩ hlabel⟩
    · simp only [Bool.or_eq_true, Bool.not_eq_true', decide_eq_true_eq]
      by_cases hre : prefixRE m.prefixLabel = true
      · exact .inr (not_not.mp fun h => hlabel ⟨hre, h⟩)
      · exact .inl (by simpa using hre)

theorem device_wellFormed_iff {d : Device} : d.wellFormed = true ↔ d.Proper := by
  simp only [Device.wellFormed, Bool.and_eq_true, idRE_iff, validName_iff, keyRE_iff, bne_iff_ne,
    ne_eq]
  exact ⟨fun ⟨⟨⟨⟨h₁, h₂⟩, h₃⟩, h₄⟩, h₅⟩ => ⟨h₁, h₂, h₃, h₄, h₅⟩,
    fun ⟨h₁, h₂, h₃, h₄, h₅⟩ => ⟨⟨⟨⟨h₁, h₂⟩, h₃⟩, h₄⟩, h₅⟩⟩

theorem pending_wellFormed_iff {d : PendingDevice} : d.wellFormed = true ↔ d.Proper := by
  simp only [PendingDevice.wellFormed, Bool.and_eq_true, idRE_iff, validName_iff, keyRE_iff,
    bne_iff_ne, ne_eq, decide_eq_true_eq]
  exact ⟨fun ⟨⟨⟨⟨⟨h₁, h₂⟩, h₃⟩, h₄⟩, h₅⟩, h₆⟩ => ⟨h₁, h₂, h₃, h₄, h₅, h₆⟩,
    fun ⟨h₁, h₂, h₃, h₄, h₅, h₆⟩ => ⟨⟨⟨⟨⟨h₁, h₂⟩, h₃⟩, h₄⟩, h₅⟩, h₆⟩⟩

theorem session_wellFormed_iff {x : LocalSession} : x.wellFormed = true ↔ x.Proper := by
  simp only [LocalSession.wellFormed, Bool.and_eq_true, idRE_iff, validHash_iff, bne_iff_ne, ne_eq,
    decide_eq_true_eq]
  exact ⟨fun ⟨⟨⟨⟨⟨h₁, h₂⟩, h₃⟩, h₄⟩, h₅⟩, h₆⟩ => ⟨h₁, h₂, h₃, h₄, h₅, h₆⟩,
    fun ⟨h₁, h₂, h₃, h₄, h₅, h₆⟩ => ⟨⟨⟨⟨⟨h₁, h₂⟩, h₃⟩, h₄⟩, h₅⟩, h₆⟩⟩

theorem checkToken_iff {t : AgentToken} : checkToken t = none ↔ t.Proper := by
  have hform : t.wellFormed = true ↔ Spelled IsHex 32 t.id ∧ IsName t.name ∧ IsHash t.tokenHash ∧
      t.scopes ≠ [] := by
    simp [AgentToken.wellFormed, idRE_iff, validName_iff, validHash_iff, and_assoc]
  have hscopes : t.scopes.all Scope.valid = true ↔
      ∀ scope ∈ t.scopes, scope = .mappingsRead ∨ scope = .mappingsWrite := by
    simp [Scope.valid]
  unfold checkToken
  by_cases h : t.wellFormed = true ∧ t.scopes.all Scope.valid = true
  · simp only [h.1, h.2, Bool.not_true, Bool.false_eq_true, ↓reduceIte, true_iff]
    obtain ⟨hid, hname, hhash, hne⟩ := hform.mp h.1
    exact ⟨hid, hname, hhash, hne, hscopes.mp h.2⟩
  · refine ⟨fun hnone => ?_, fun hp => absurd ⟨hform.mpr ⟨hp.id, hp.name, hp.tokenHash, hp.authority⟩,
      hscopes.mpr hp.scopes⟩ h⟩
    split at hnone
    · cases hnone
    next hw =>
      split at hnone
      · cases hnone
      next hs => exact absurd ⟨by simpa using hw, by simpa using hs⟩ h

theorem validateRest_iff {s : State} : validateRest s = none ↔ (∀ b ∈ s.bootstrap, b.Proper) ∧
    (s.publication = true → s.initialized = true ∧ s.devices ≠ []) := by
  have hwindow : s.bootstrap.any (fun b => !validHash b.token || b.expiresAt == 0) = false ↔
      ∀ b ∈ s.bootstrap, b.Proper := by
    cases s.bootstrap with
    | none => simp
    | some b =>
      simp only [Option.any_some, Bool.or_eq_false_iff, Bool.not_eq_false', validHash_iff,
        beq_eq_false_iff_ne, Option.mem_def, Option.some.injEq, forall_eq']
      exact ⟨fun h => ⟨h.1, h.2⟩, fun h => ⟨h.token, h.expires⟩⟩
  have hpublished : (s.publication && (!s.initialized || s.devices.isEmpty)) = false ↔
      (s.publication = true → s.initialized = true ∧ s.devices ≠ []) := by
    cases s.publication <;> simp
  unfold validateRest
  rw [← hwindow, ← hpublished]
  cases s.bootstrap.any (fun b => !validHash b.token || b.expiresAt == 0) <;>
    cases (s.publication && (!s.initialized || s.devices.isEmpty)) <;> simp

/-! ## The keys -/

/-- A tag in front keeps different ids apart. -/
theorem tag_injective (tag : String) : Function.Injective (tag ++ ·) := by
  intro a b h
  have hlist := congrArg String.toList h
  simpa [String.toList_inj] using hlist

theorem nodup_map_tag {α : Type} (tag : String) (id : α → String) (l : List α) :
    (l.map fun x => tag ++ id x).Nodup ↔ (l.map id).Nodup := by
  have h := List.nodup_map_iff (tag_injective tag) (l := l.map id)
  rwa [List.map_map] at h

/-- Keys with tags that begin with different characters differ. -/
theorem tag_ne_tag {tag tag' : String} {c d : Char} (hc : tag.toList.head? = some c)
    (hd : tag'.toList.head? = some d) (hne : c ≠ d) (id id' : String) : tag ++ id ≠ tag' ++ id' := by
  intro h
  have hhead := congrArg (fun v => v.toList.head?) h
  simp [hc, hd, hne] at hhead

/-- A key with a tag is no prefix. -/
theorem tag_notMem_labels {tag : String} (htag : ':' ∈ tag.toList) (id : String)
    {mappings : List Mapping} (h : ∀ m ∈ mappings, m.Proper) :
    tag ++ id ∉ mappings.map Mapping.prefixLabel := by
  intro hmem
  obtain ⟨m, hm, heq⟩ := List.mem_map.mp hmem
  have hcolon : ':' ∈ m.prefixLabel.toList := by
    rw [heq, String.toList_append]
    exact List.mem_append_left _ htag
  have := (h m hm).label.chars ':' hcolon
  revert this
  simp only [IsAlphanumeric]
  decide

theorem validateMappings_ok_iff {seen' : List String} {mappings : List Mapping} :
    validateMappings [] mappings = .ok seen' ↔ (∀ m ∈ mappings, m.Proper) ∧
      (mappings.map Mapping.prefixLabel).Nodup ∧
      seen' = (mappings.map Mapping.prefixLabel).reverse := by
  unfold validateMappings
  rw [scan_eq_ok_iff (p := Mapping.Proper) (by simp [validateMapping_iff])]
  simp

theorem validateDeviceList_ok_iff {seen seen' : List String} {devices : List Device} :
    validateDeviceList seen devices = .ok seen' ↔ (∀ d ∈ devices, d.Proper) ∧
      (devices.map Device.id).Nodup ∧ (∀ d ∈ devices, "device:" ++ d.id ∉ seen) ∧
      seen' = (devices.map fun d => "device:" ++ d.id).reverse ++ seen := by
  unfold validateDeviceList
  rw [scan_eq_ok_iff (p := Device.Proper) (by simp [device_wellFormed_iff]), nodup_map_tag]

/-- The pending device is new when its id is not among those of the devices. -/
theorem validateDevices_ok_iff {s : State} {seen seen' : List String}
    (hnew : ∀ id, "device:" ++ id ∉ seen) :
    validateDevices s seen = .ok seen' ↔ (∀ d ∈ s.devices, d.Proper) ∧
      (∀ d ∈ s.pending, d.Proper) ∧
      (s.devices.map Device.id ++ s.pending.toList.map fun d => d.id).Nodup ∧
      seen' = (s.devices.map fun d => "device:" ++ d.id).reverse ++ seen := by
  have hlist : ∀ keys, validateDeviceList seen s.devices = .ok keys ↔ (∀ d ∈ s.devices, d.Proper) ∧
      (s.devices.map Device.id).Nodup ∧
      keys = (s.devices.map fun d => "device:" ++ d.id).reverse ++ seen := by
    intro keys
    rw [validateDeviceList_ok_iff]
    simp only [hnew, not_false_eq_true, implies_true, true_and]
  unfold validateDevices
  cases hkeys : validateDeviceList seen s.devices with
  | error err =>
    refine ⟨fun h => (nomatch h), fun ⟨hform, _, hnodup, _⟩ => ?_⟩
    have hok := (hlist _).mpr ⟨hform, (List.nodup_append.mp hnodup).1, rfl⟩
    rw [hkeys] at hok
    cases hok
  | ok keys =>
    obtain ⟨hform, hnodup, hkeys⟩ := (hlist _).mp hkeys
    cases hpending : s.pending with
    | none =>
      simp only [Except.ok.injEq, Option.toList_none, List.map_nil, List.append_nil]
      refine ⟨fun h => ⟨hform, fun d hd => (nomatch hd), hnodup, h ▸ hkeys⟩, fun h => ?_⟩
      exact hkeys.trans h.2.2.2.symm
    | some d =>
      have hmem : "device:" ++ d.id ∈ keys ↔ d.id ∈ s.devices.map Device.id := by
        simp only [hkeys, List.mem_append, List.mem_reverse, hnew, or_false, List.mem_map]
        exact exists_congr fun d' => and_congr_right fun _ => (tag_injective "device:").eq_iff
      have hrefused : (!d.wellFormed || decide ("device:" ++ d.id ∈ keys)) = true ↔
          ¬ (d.Proper ∧ d.id ∉ s.devices.map Device.id) := by
        rw [← pending_wellFormed_iff, ← hmem, not_and_or, not_not, Bool.or_eq_true,
          Bool.not_eq_true', Bool.not_eq_true, decide_eq_true_eq]
      have hids : (s.devices.map Device.id ++ (some d).toList.map fun d => d.id).Nodup ↔
          d.id ∉ s.devices.map Device.id := by
        rw [Option.toList_some, List.map_singleton, List.nodup_append_comm, List.singleton_append,
          List.nodup_cons]
        exact and_iff_left hnodup
      dsimp only
      by_cases hok : d.Proper ∧ d.id ∉ s.devices.map Device.id
      · rw [if_neg (mt hrefused.mp (not_not.mpr hok)), hids, Except.ok.injEq]
        refine ⟨fun h => ⟨hform, ?_, hok.2, h ▸ hkeys⟩, fun h => hkeys.trans h.2.2.2.symm⟩
        rintro _ ⟨⟩
        exact hok.1
      · rw [if_pos (hrefused.mpr hok), hids]
        exact ⟨fun h => (nomatch h), fun h => absurd ⟨h.2.1 d rfl, h.2.2.1⟩ hok⟩

/-- The four loops accept when each collection is proper in itself. -/
theorem validateCollections_ok_iff {s : State} : (∃ keys, validateCollections s = .ok keys) ↔
    ((∀ m ∈ s.mappings, m.Proper) ∧ (s.mappings.map Mapping.prefixLabel).Nodup) ∧
    ((∀ d ∈ s.devices, d.Proper) ∧ (∀ d ∈ s.pending, d.Proper) ∧
      (s.devices.map Device.id ++ s.pending.toList.map fun d => d.id).Nodup) ∧
    ((∀ x ∈ s.sessions, x.Proper) ∧ (s.sessions.map LocalSession.id).Nodup) ∧
    ((∀ t ∈ s.tokens, t.Proper) ∧ (s.tokens.map AgentToken.id).Nodup) := by
  -- no key of a later loop is among those of the earlier ones
  have hdevice : (∀ m ∈ s.mappings, m.Proper) → ∀ id : String,
      "device:" ++ id ∉ (s.mappings.map Mapping.prefixLabel).reverse :=
    fun h id hmem => tag_notMem_labels (by decide) id h (List.mem_reverse.mp hmem)
  have hsession : (∀ m ∈ s.mappings, m.Proper) → ∀ id : String,
      "session:" ++ id ∉ (s.devices.map fun d => "device:" ++ d.id).reverse ++
        (s.mappings.map Mapping.prefixLabel).reverse := by
    intro h id hmem
    rcases List.mem_append.mp hmem with hmem | hmem
    · obtain ⟨d, -, heq⟩ := List.mem_map.mp (List.mem_reverse.mp hmem)
      exact tag_ne_tag rfl rfl (by decide) _ _ heq
    · exact tag_notMem_labels (by decide) id h (List.mem_reverse.mp hmem)
  have htoken : (∀ m ∈ s.mappings, m.Proper) → ∀ id : String,
      "token:" ++ id ∉ (s.sessions.map fun x => "session:" ++ x.id).reverse ++
        ((s.devices.map fun d => "device:" ++ d.id).reverse ++
          (s.mappings.map Mapping.prefixLabel).reverse) := by
    intro h id hmem
    rcases List.mem_append.mp hmem with hmem | hmem
    · obtain ⟨d, -, heq⟩ := List.mem_map.mp (List.mem_reverse.mp hmem)
      exact tag_ne_tag rfl rfl (by decide) _ _ heq
    · rcases List.mem_append.mp hmem with hmem | hmem
      · obtain ⟨d, -, heq⟩ := List.mem_map.mp (List.mem_reverse.mp hmem)
        exact tag_ne_tag rfl rfl (by decide) _ _ heq
      · exact tag_notMem_labels (by decide) id h (List.mem_reverse.mp hmem)
  unfold validateCollections
  constructor
  · rintro ⟨keys, hkeys⟩
    obtain ⟨seen₁, h₁, hkeys⟩ := bind_eq_ok_iff.mp hkeys
    obtain ⟨hmapping, hprefixes, rfl⟩ := validateMappings_ok_iff.mp h₁
    obtain ⟨seen₂, h₂, hkeys⟩ := bind_eq_ok_iff.mp hkeys
    obtain ⟨hdevices, hpending, hids, rfl⟩ := (validateDevices_ok_iff (hdevice hmapping)).mp h₂
    obtain ⟨seen₃, h₃, h₄⟩ := bind_eq_ok_iff.mp hkeys
    obtain ⟨hsessions, hnodup, -, rfl⟩ := validateSessions_ok_iff.mp h₃
    obtain ⟨htokens, hnodup', -, -⟩ := validateTokens_ok_iff.mp h₄
    exact ⟨⟨hmapping, hprefixes⟩, ⟨hdevices, hpending, hids⟩,
      ⟨fun x hx => session_wellFormed_iff.mp (hsessions x hx), (nodup_map_tag _ _ _).mp hnodup⟩,
      fun t ht => checkToken_iff.mp (htokens t ht), (nodup_map_tag _ _ _).mp hnodup'⟩
  · rintro ⟨⟨hmapping, hprefixes⟩, ⟨hdevices, hpending, hids⟩, ⟨hsessions, hnodup⟩, htokens, hnodup'⟩
    have h₁ := validateMappings_ok_iff.mpr ⟨hmapping, hprefixes, rfl⟩
    have h₂ := (validateDevices_ok_iff (hdevice hmapping)).mpr ⟨hdevices, hpending, hids, rfl⟩
    have h₃ := validateSessions_ok_iff.mpr
      ⟨fun x hx => session_wellFormed_iff.mpr (hsessions x hx), (nodup_map_tag _ _ _).mpr hnodup,
        fun x _ => hsession hmapping x.id, rfl⟩
    have h₄ := validateTokens_ok_iff.mpr
      ⟨fun t ht => checkToken_iff.mpr (htokens t ht), (nodup_map_tag _ _ _).mpr hnodup',
        fun t _ => htoken hmapping t.id, rfl⟩
    exact ⟨_, bind_eq_ok_iff.mpr ⟨_, h₁, bind_eq_ok_iff.mpr ⟨_, h₂, bind_eq_ok_iff.mpr ⟨_, h₃, h₄⟩⟩⟩⟩

/-! ## The result -/

theorem valid_iff_specified {s : State} : s.Valid ↔ s.Specified := by
  rw [valid_iff, validateCollections_ok_iff, validateRest_iff]
  have hid : (s.serviceID ≠ "" → serviceIDRE s.serviceID = true) ↔
      (s.serviceID = "" ∨ Spelled IsBase32 56 s.serviceID) := by
    rw [serviceIDRE_iff, or_iff_not_imp_left]
  rw [hid]
  constructor
  · rintro ⟨hversion, hid, howned, hlimits, ⟨⟨hmapping, hprefixes⟩, ⟨hdevice, hpending, hids⟩,
      ⟨hsession, hsessions⟩, htoken, htokens⟩, hbootstrap, hpublication⟩
    exact ⟨hversion, hid, howned, hlimits, hmapping, hprefixes, hdevice, hpending, hids, hsession,
      hsessions, htoken, htokens, hbootstrap, hpublication⟩
  · intro h
    exact ⟨h.version, h.serviceID, h.owned, h.limits, ⟨⟨h.mapping, h.prefixes⟩,
      ⟨h.device, h.pending, h.deviceIDs⟩, ⟨h.session, h.sessionIDs⟩, h.token, h.tokenIDs⟩,
      h.bootstrap, h.publication⟩

/-- `Validate` accepts exactly the states that meet the specification. In particular the collections
are judged one by one: those of any valid states may be put together. -/
theorem validate_iff_specified (s : State) : (s.validate = none ↔ s.Specified) ∧
    ∀ mapped signedIn authorised : State, s.Specified → mapped.Specified → signedIn.Specified →
      authorised.Specified → State.validate { s with
        mappings := mapped.mappings, sessions := signedIn.sessions,
        tokens := authorised.tokens } = none := by
  refine ⟨valid_iff_specified, fun mapped signedIn authorised h hm hs ht => ?_⟩
  refine valid_iff_specified.mpr ⟨h.version, h.serviceID, h.owned, ?_, hm.mapping, hm.prefixes,
    h.device, h.pending, h.deviceIDs, hs.session, hs.sessionIDs, ht.token, ht.tokenIDs, h.bootstrap,
    h.publication⟩
  exact ⟨hm.limits.1, h.limits.2.1, hs.limits.2.2.1, ht.limits.2.2.2⟩

end Torkitten
