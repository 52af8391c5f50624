import Torkitten.Model.State

/-!
# What a valid state satisfies

`State.validate` runs four loops over one shared map of keys. This module says once what each
loop establishes, and collects the facts that the rest of the development uses about a state
that passed them.
-/

namespace Torkitten

/-- A sequence of steps succeeds when each of them does. -/
theorem bind_eq_ok_iff {ε α β : Type} {x : Except ε α} {f : α → Except ε β} {b : β} :
    x >>= f = .ok b ↔ ∃ a, x = .ok a ∧ f a = .ok b := by
  cases x with
  | error e => simp [bind, Except.bind]
  | ok a => simp [bind, Except.bind]

section Scan

variable {α : Type} {check : ℕ → α → Option GoError} {key : α → String}
  {duplicate : α → GoError} {p : α → Prop}

/-- A validation loop accepts when every record passes its check and the keys are new and
pairwise distinct; it then adds them to the map. -/
theorem scan_eq_ok_iff (hp : ∀ i x, check i x = none ↔ p x) (i : ℕ) (seen seen' : List String)
    (xs : List α) :
    scan check key duplicate i seen xs = .ok seen' ↔
      (∀ x ∈ xs, p x) ∧ (xs.map key).Nodup ∧ (∀ x ∈ xs, key x ∉ seen) ∧
        seen' = (xs.map key).reverse ++ seen := by
  induction xs generalizing i seen with
  | nil => simpa [scan] using ⟨Eq.symm, Eq.symm⟩
  | cons x xs ih =>
    have hx := hp i x
    cases hcheck : check i x with
    | some err =>
      have hnot : ¬ p x := fun h => by simp [hcheck] at hx; exact hx h
      simp [scan, hcheck, hnot]
    | none =>
      have hpx : p x := hx.mp hcheck
      by_cases hmem : key x ∈ seen
      · simp [scan, hcheck, hmem]
      · simp only [scan, hcheck, hmem, ↓reduceIte, ih, List.forall_mem_cons, hpx, true_and,
          List.map_cons, List.nodup_cons, List.reverse_cons, List.append_assoc,
          List.singleton_append, not_false_eq_true]
        -- the key of the head is new to the tail on both sides, stated differently
        have hiff : (∀ y ∈ xs, key y ∉ key x :: seen) ↔
            key x ∉ xs.map key ∧ ∀ y ∈ xs, key y ∉ seen := by
          simp only [List.mem_cons, not_or, List.mem_map, not_exists, not_and]
          constructor
          · exact fun h => ⟨fun y hy heq => (h y hy).1 heq, fun y hy => (h y hy).2⟩
          · exact fun h y hy => ⟨fun heq => h.1 y hy heq, h.2 y hy⟩
        rw [hiff]
        tauto

end Scan

/-! ## The four loops -/

theorem validateMappings_ok {seen seen' : List String} {mappings : List Mapping}
    (h : validateMappings seen mappings = .ok seen') :
    (∀ m ∈ mappings, validateMapping m = none) ∧ (mappings.map Mapping.prefixLabel).Nodup := by
  unfold validateMappings at h
  rw [scan_eq_ok_iff (p := fun m => validateMapping m = none) (by simp)] at h
  exact ⟨h.1, h.2.1⟩

theorem validateDeviceList_ok {seen seen' : List String} {devices : List Device}
    (h : validateDeviceList seen devices = .ok seen') :
    (∀ d ∈ devices, d.wellFormed = true) ∧ (devices.map Device.id).Nodup ∧
      ∀ d ∈ devices, "device:" ++ d.id ∈ seen' := by
  unfold validateDeviceList at h
  rw [scan_eq_ok_iff (p := fun d : Device => d.wellFormed = true) (by simp)] at h
  obtain ⟨hform, hnodup, -, rfl⟩ := h
  refine ⟨hform, ?_, ?_⟩
  · have hmap : devices.map (fun d => "device:" ++ d.id) =
        (devices.map Device.id).map fun id => "device:" ++ id := by simp [Function.comp_def]
    rw [hmap] at hnodup
    exact List.Nodup.of_map _ hnodup
  · intro d hd
    simp only [List.mem_append, List.mem_reverse, List.mem_map]
    exact .inl ⟨d, hd, rfl⟩

/-- The facts a valid state satisfies. -/
structure WellFormed (s : State) : Prop where
  /-- A service id is an onion address. -/
  serviceID : s.serviceID ≠ "" → serviceIDRE s.serviceID = true
  /-- An initialised state has a service id. -/
  owned : s.initialized = true → s.serviceID ≠ ""
  mapping : ∀ m ∈ s.mappings, validateMapping m = none
  prefixes : (s.mappings.map Mapping.prefixLabel).Nodup
  device : ∀ d ∈ s.devices, d.wellFormed = true
  deviceIDs : (s.devices.map Device.id).Nodup
  pending : ∀ d, s.pending = some d → d.wellFormed = true ∧ d.id ∉ s.devices.map Device.id
  /-- Publication needs an owner and a device. -/
  publication : s.publication = true → s.initialized = true ∧ s.devices ≠ []

theorem validateDevices_ok {s : State} {seen seen' : List String}
    (h : validateDevices s seen = .ok seen') :
    (∀ d ∈ s.devices, d.wellFormed = true) ∧ (s.devices.map Device.id).Nodup ∧
      ∀ d, s.pending = some d → d.wellFormed = true ∧ d.id ∉ s.devices.map Device.id := by
  unfold validateDevices at h
  split at h
  · cases h
  next keys hkeys =>
    obtain ⟨hform, hnodup, hmem⟩ := validateDeviceList_ok hkeys
    refine ⟨hform, hnodup, ?_⟩
    intro d hd
    rw [hd] at h
    simp only at h
    split at h
    · cases h
    next hok =>
      simp only [Bool.or_eq_true, Bool.not_eq_true', decide_eq_true_eq, not_or,
        Bool.not_eq_false] at hok
      refine ⟨hok.1, ?_⟩
      intro hin
      obtain ⟨d', hd', hid⟩ := List.mem_map.mp hin
      exact hok.2 (hid ▸ hmem d' hd')

theorem validateRest_eq_none {s : State} (h : validateRest s = none) :
    s.publication = true → s.initialized = true ∧ s.devices ≠ [] := by
  unfold validateRest at h
  split at h
  · cases h
  · split at h
    · cases h
    next hpub =>
      intro hp
      simp [hp] at hpub
      exact ⟨hpub.1, hpub.2⟩

theorem validateCollections_ok {s : State} {seen : List String}
    (h : validateCollections s = .ok seen) :
    (∃ keys, validateMappings [] s.mappings = .ok keys) ∧
      ∃ keys keys', validateDevices s keys = .ok keys' := by
  unfold validateCollections at h
  cases hm : validateMappings [] s.mappings with
  | error err => rw [hm] at h; cases h
  | ok keys =>
    rw [hm] at h
    cases hd : validateDevices s keys with
    | error err => simp only [bind, Except.bind, hd] at h; cases h
    | ok keys' => exact ⟨⟨keys, rfl⟩, keys, keys', hd⟩

/-- The tests of `Validate`, in their order. -/
theorem valid_iff {s : State} : s.Valid ↔ s.version = stateVersion ∧
    (s.serviceID ≠ "" → serviceIDRE s.serviceID = true) ∧
    (s.initialized = true → s.serviceID ≠ "") ∧
    (s.mappings.length ≤ maxMappings ∧ s.devices.length ≤ maxDevices ∧
      s.sessions.length ≤ maxSessions ∧ s.tokens.length ≤ maxTokens) ∧
    (∃ keys, validateCollections s = .ok keys) ∧ validateRest s = none := by
  unfold State.Valid State.validate
  split
  next hversion => simp [hversion]
  next hversion =>
    split
    next hid =>
      have hnot : ¬ (s.serviceID ≠ "" → serviceIDRE s.serviceID = true) := by simpa using hid
      simp [hnot]
    next hid =>
      have hid' : s.serviceID ≠ "" → serviceIDRE s.serviceID = true := by simpa using hid
      split
      next howned =>
        have hnot : ¬ (s.initialized = true → s.serviceID ≠ "") := by simpa using howned
        simp [hnot]
      next howned =>
        have howned' : s.initialized = true → s.serviceID ≠ "" := by simpa using howned
        split
        next hlimit =>
          simp only [Bool.or_eq_true, decide_eq_true_eq] at hlimit
          simp only [reduceCtorEq, false_iff, not_and]
          omega
        next hlimit =>
          simp only [Bool.or_eq_true, decide_eq_true_eq, not_or, Nat.not_lt] at hlimit
          cases hkeys : validateCollections s with
          | error err => simp
          | ok keys =>
            obtain ⟨⟨⟨hm, hd⟩, hs⟩, ht⟩ := hlimit
            exact ⟨fun h => ⟨not_not.mp hversion, hid', howned', ⟨hm, hd, hs, ht⟩, ⟨keys, rfl⟩, h⟩,
              fun h => h.2.2.2.2.2⟩

theorem State.Valid.wellFormed {s : State} (h : s.Valid) : WellFormed s := by
  obtain ⟨-, hid, howned, -, ⟨keys, hcollections⟩, hrest⟩ := valid_iff.mp h
  obtain ⟨⟨_, hmappings⟩, _, _, hdevices⟩ := validateCollections_ok hcollections
  obtain ⟨hmapping, hprefixes⟩ := validateMappings_ok hmappings
  obtain ⟨hdevice, hids, hpending⟩ := validateDevices_ok hdevices
  exact
    { serviceID := hid
      owned := howned
      mapping := hmapping
      prefixes := hprefixes
      device := hdevice
      deviceIDs := hids
      pending := hpending
      publication := validateRest_eq_none hrest }

/-! ## Dropping records -/

theorem validateSessions_ok_iff {seen seen' : List String} {sessions : List LocalSession} :
    validateSessions seen sessions = .ok seen' ↔ (∀ x ∈ sessions, x.wellFormed = true) ∧
      (sessions.map fun x => "session:" ++ x.id).Nodup ∧
      (∀ x ∈ sessions, "session:" ++ x.id ∉ seen) ∧
      seen' = (sessions.map fun x => "session:" ++ x.id).reverse ++ seen := by
  unfold validateSessions
  exact scan_eq_ok_iff (by simp) 0 seen seen' sessions

theorem validateTokens_ok_iff {seen seen' : List String} {tokens : List AgentToken} :
    validateTokens seen tokens = .ok seen' ↔ (∀ t ∈ tokens, checkToken t = none) ∧
      (tokens.map fun t => "token:" ++ t.id).Nodup ∧ (∀ t ∈ tokens, "token:" ++ t.id ∉ seen) ∧
      seen' = (tokens.map fun t => "token:" ++ t.id).reverse ++ seen := by
  unfold validateTokens
  exact scan_eq_ok_iff (by simp) 0 seen seen' tokens

theorem State.Valid.dropBootstrap {s : State} (h : s.Valid) :
    State.Valid { s with bootstrap := none } := by
  obtain ⟨hversion, hid, howned, hlimits, hkeys, hrest⟩ := valid_iff.mp h
  refine valid_iff.mpr ⟨hversion, hid, howned, hlimits, hkeys, ?_⟩
  unfold validateRest at hrest ⊢
  split at hrest
  · cases hrest
  · exact hrest

theorem State.Valid.session {s : State} (h : s.Valid) : ∀ x ∈ s.sessions, x.wellFormed = true := by
  obtain ⟨-, -, -, -, ⟨keys, hkeys⟩, -⟩ := valid_iff.mp h
  obtain ⟨_, _, hkeys⟩ := bind_eq_ok_iff.mp hkeys
  obtain ⟨_, _, hkeys⟩ := bind_eq_ok_iff.mp hkeys
  obtain ⟨_, hsessions, _⟩ := bind_eq_ok_iff.mp hkeys
  exact (validateSessions_ok_iff.mp hsessions).1

theorem State.Valid.token {s : State} (h : s.Valid) :
    (∀ t ∈ s.tokens, checkToken t = none) ∧ (s.tokens.map AgentToken.id).Nodup := by
  obtain ⟨-, -, -, -, ⟨keys, hkeys⟩, -⟩ := valid_iff.mp h
  obtain ⟨_, _, hkeys⟩ := bind_eq_ok_iff.mp hkeys
  obtain ⟨_, _, hkeys⟩ := bind_eq_ok_iff.mp hkeys
  obtain ⟨_, _, htokens⟩ := bind_eq_ok_iff.mp hkeys
  obtain ⟨hform, hnodup, -⟩ := validateTokens_ok_iff.mp htokens
  exact ⟨hform, List.Nodup.of_map ("token:" ++ ·) (by rwa [List.map_map])⟩

/-- A state stays valid when sessions and tokens are dropped or changed in place. -/
theorem State.Valid.withAccess {s : State} (h : s.Valid) {sessions : List LocalSession}
    {tokens : List AgentToken} (hsession : ∀ x ∈ sessions, x.wellFormed = true)
    (hsessions : (sessions.map LocalSession.id).Sublist (s.sessions.map LocalSession.id))
    (htoken : ∀ t ∈ tokens, checkToken t = none)
    (htokens : (tokens.map AgentToken.id).Sublist (s.tokens.map AgentToken.id)) :
    State.Valid { s with sessions, tokens } := by
  obtain ⟨hversion, hid, howned, ⟨hm, hd, hs, ht⟩, ⟨keys, hkeys⟩, hrest⟩ := valid_iff.mp h
  have hlengthS : sessions.length ≤ s.sessions.length := by simpa using hsessions.length_le
  have hlengthT : tokens.length ≤ s.tokens.length := by simpa using htokens.length_le
  refine valid_iff.mpr ⟨hversion, hid, howned, ⟨hm, hd, Nat.le_trans hlengthS hs, Nat.le_trans hlengthT ht⟩,
    ?_, hrest⟩
  unfold validateCollections at hkeys ⊢
  obtain ⟨seen₁, hseen₁, hkeys⟩ := bind_eq_ok_iff.mp hkeys
  obtain ⟨seen₂, hseen₂, hkeys⟩ := bind_eq_ok_iff.mp hkeys
  obtain ⟨seen₃, hseen₃, hkeys⟩ := bind_eq_ok_iff.mp hkeys
  obtain ⟨-, hnodupS, hnewS, rfl⟩ := validateSessions_ok_iff.mp hseen₃
  obtain ⟨-, hnodupT, hnewT, -⟩ := validateTokens_ok_iff.mp hkeys
  -- every key that is left was there before, in the same order
  have hsubS : (sessions.map fun x => "session:" ++ x.id).Sublist
      (s.sessions.map fun x => "session:" ++ x.id) := by
    simpa only [List.map_map, Function.comp_def] using hsessions.map ("session:" ++ ·)
  have hsubT : (tokens.map fun t => "token:" ++ t.id).Sublist
      (s.tokens.map fun t => "token:" ++ t.id) := by
    simpa only [List.map_map, Function.comp_def] using htokens.map ("token:" ++ ·)
  have hnew : ∀ x ∈ sessions, "session:" ++ x.id ∉ seen₂ := by
    intro x hx
    obtain ⟨y, hy, heq⟩ := List.mem_map.mp (hsubS.subset (List.mem_map_of_mem hx))
    exact heq ▸ hnewS y hy
  have hfresh : ∀ t ∈ tokens, "token:" ++ t.id ∉
      (sessions.map fun x => "session:" ++ x.id).reverse ++ seen₂ := by
    intro t ht hin
    obtain ⟨u, hu, heq⟩ := List.mem_map.mp (hsubT.subset (List.mem_map_of_mem ht))
    refine hnewT u hu (heq ▸ ?_)
    rcases List.mem_append.mp hin with hin | hin
    · exact List.mem_append_left _
        (List.mem_reverse.mpr (hsubS.subset (List.mem_reverse.mp hin)))
    · exact List.mem_append_right _ hin
  have hsession' := validateSessions_ok_iff.mpr ⟨hsession, hnodupS.sublist hsubS, hnew, rfl⟩
  have htoken' := validateTokens_ok_iff.mpr ⟨htoken, hnodupT.sublist hsubT, hfresh, rfl⟩
  exact ⟨_, bind_eq_ok_iff.mpr ⟨seen₁, hseen₁, bind_eq_ok_iff.mpr ⟨seen₂, hseen₂,
    bind_eq_ok_iff.mpr ⟨_, hsession', htoken'⟩⟩⟩⟩

/-- Signing everybody out keeps a state valid. -/
theorem State.Valid.dropSessions {s : State} (h : s.Valid) :
    State.Valid { s with sessions := [] } :=
  h.withAccess (by simp) (List.nil_sublist _) h.token.1 (List.Sublist.refl _)

/-! ## Texts without a dot -/

/-- A text of one character class holds only characters of the class. -/
theorem matchesClass_iff {cls : Char → Bool} {n : ℕ} {v : String} :
    matchesClass cls n v = true ↔ v.toList.length = n ∧ ∀ c ∈ v.toList, cls c = true := by
  simp [matchesClass]

theorem utf8ByteSize_of_ascii {l : List Char} (h : ∀ c ∈ l, c.utf8Size = 1) :
    (String.ofList l).utf8ByteSize = l.length := by
  induction l with
  | nil => simp
  | cons c l ih =>
    have hc := h c List.mem_cons_self
    rw [← List.singleton_append, String.ofList_append, String.utf8ByteSize_append,
      ih fun c hc => h c (List.mem_cons_of_mem _ hc), ← String.singleton_eq_ofList,
      String.utf8ByteSize_singleton, hc, List.length_append, List.length_singleton]

end Torkitten
