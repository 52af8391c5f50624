import Torkitten.Tor.Frames

/-!
# Where the onion identity is

What each function that moves the hidden service directory can do to the active directory and to
its backup, for every failure and at every point where the process may die. `Kept` is the property
that all of them preserve: one of the two directories holds the identity, and the active directory
does not pretend to.
-/

namespace Torkitten

namespace Tor

open Proc

/-! ## Complete identities -/

/-- The directory holds the keys and the host name of one onion address. -/
structure Complete (id : String) (d : HsDir) : Prop where
  hostname : readServiceID (some d) = .ok id
  keys : d.keys = some id

/-- The directory is complete, and its authorisations can be written. -/
structure Sound (id : String) (d : HsDir) : Prop extends Complete id d where
  usable : ∃ a, d.auth = some a ∧ PlainFiles a

/-! ## The text of a host name -/

theorem ascii_of_isBase32Char {c : Char} (h : isBase32Char c = true) : c.val ≤ 0x7f := by
  simp only [isBase32Char, Bool.or_eq_true, Bool.and_eq_true, decide_eq_true_eq] at h
  rcases h with ⟨_, h⟩ | ⟨_, h⟩
  · exact UInt32.le_trans h (by decide)
  · exact UInt32.le_trans h (by decide)

theorem isSpace_of_isBase32Char {c : Char} (h : isBase32Char c = true) : isSpace c = false := by
  have hall : ∀ n < 128, isBase32Char (Char.ofNat n) = true → isSpace (Char.ofNat n) = false := by
    decide
  have hlt : c.toNat < 128 := Nat.lt_of_le_of_lt (ascii_of_isBase32Char h) (by decide)
  rw [← Char.ofNat_toNat c] at h ⊢
  exact hall _ hlt h

theorem toList_hostnameText (id : String) :
    (hostnameText id).toList = id.toList ++ ['.', 'o', 'n', 'i', 'o', 'n', '\n'] := by
  simp [hostnameText]

theorem trimSpace_hostnameText {id : String} (h : serviceIDRE id = true) :
    trimSpace (hostnameText id) = id ++ ".onion" := by
  obtain ⟨hlen, hcls⟩ := matchesClass_iff.mp h
  have hfront : (hostnameText id).toList.dropWhile isSpace = (hostnameText id).toList := by
    rw [toList_hostnameText]
    cases hl : id.toList with
    | nil => simp [hl] at hlen
    | cons c rest =>
      have hc := isSpace_of_isBase32Char (hcls c (by simp [hl]))
      rw [List.cons_append, List.dropWhile_cons, hc]
      rfl
  unfold trimSpace
  rw [hfront, toList_hostnameText, ← String.toList_inj]
  have hn : isSpace '\n' = true := by decide
  have hlast : isSpace 'n' = false := by decide
  simp [hn, hlast]

theorem readServiceID_hostnameText {id : String} (h : serviceIDRE id = true) {d : HsDir}
    (hd : d.hostname = some (hostnameText id)) : readServiceID (some d) = .ok id := by
  obtain ⟨hlen, hcls⟩ := matchesClass_iff.mp h
  have hsize : (hostnameText id).utf8ByteSize = 63 := by
    rw [hostnameText, String.utf8ByteSize_append, ← String.ofList_toList (s := id),
      utf8ByteSize_of_ascii, hlen]
    · rfl
    · intro c hc
      simp [Char.utf8Size, ascii_of_isBase32Char (hcls c hc)]
  simp [readServiceID, hd, hsize, trimSpace_hostnameText h, onionHostRE, hasSuffix_append,
    trimSuffix_append, h]

theorem serviceIDRE_of_readServiceID {d : Option HsDir} {id : String}
    (h : readServiceID d = .ok id) : serviceIDRE id = true := by
  unfold readServiceID at h
  split at h
  next => cases h
  next data _ =>
    split at h
    next => cases h
    next =>
      dsimp only at h
      split at h
      next => cases h
      next hre =>
        rw [Bool.not_eq_true', Bool.not_eq_false, onionHostRE, Bool.and_eq_true] at hre
        rw [← Except.ok.inj h]
        exact hre.2

/-! ## The identity that is kept -/

/-- A directory holds an identity. -/
def Holds (w : World) (p : HsPath) (id : String) : Prop := ∃ d, w.dirs p = some d ∧ Sound id d

/-- The identity is in the active directory or in its backup, and the active directory has the
host name of the identity only if it holds it. -/
structure Kept (id : String) (w : World) : Prop where
  kept : Holds w .active id ∨ Holds w .previous id
  honest : ∀ d, w.dirs .active = some d → readServiceID (some d) = .ok id → Sound id d

variable {id new : String} {w w' : World}

theorem Holds.readServiceID {p : HsPath} (h : Holds w p id) :
    readServiceID (w.dirs p) = .ok id := by
  obtain ⟨d, hd, hsound⟩ := h
  rw [hd, hsound.hostname]

theorem Holds.named {p : HsPath} (h : Holds w p id) : id ≠ "" := by
  rintro rfl
  exact absurd (serviceIDRE_of_readServiceID h.readServiceID) (by decide)

theorem Holds.of_dirs {p q : HsPath} (h : Holds w p id) (hdirs : w'.dirs q = w.dirs p) :
    Holds w' q id := by
  obtain ⟨d, hd, hsound⟩ := h
  exact ⟨d, hdirs.trans hd, hsound⟩

/-- Whoever reads the host name of the identity in the active directory finds all of it there. -/
theorem Kept.holds_of_read (h : Kept id w) (hread : Tor.readServiceID (w.dirs .active) = .ok id) :
    Holds w .active id := by
  cases hd : w.dirs .active with
  | none =>
    rw [hd] at hread
    cases hread
  | some d =>
    rw [hd] at hread
    exact ⟨d, hd, h.honest d hd hread⟩

theorem Kept.of_active (h : Holds w .active id) : Kept id w := by
  refine ⟨.inl h, ?_⟩
  obtain ⟨d, hd, hsound⟩ := h
  intro d' hd' _
  rw [hd] at hd'
  cases hd'
  exact hsound

/-- The identity is kept by its backup alone when the active directory is missing or holds
another one. -/
theorem Kept.of_previous (h : Holds w .previous id)
    (hactive : w.dirs .active = none ∨ Holds w .active new ∧ new ≠ id) : Kept id w := by
  refine ⟨.inr h, ?_⟩
  intro d hd hread
  rcases hactive with hnone | ⟨hnew, hne⟩
  · rw [hnone] at hd
    cases hd
  · have hother := hnew.readServiceID
    rw [hd, hread] at hother
    cases hother
    exact absurd rfl hne

theorem Kept.of_missing (h : Holds w .previous id) (hactive : w.dirs .active = none) :
    Kept id w := by
  refine ⟨.inr h, fun d hd => ?_⟩
  rw [hactive] at hd
  cases hd

theorem Kept.of_dirs (h : Kept id w) (hactive : w'.dirs .active = w.dirs .active)
    (hprevious : w'.dirs .previous = w.dirs .previous) : Kept id w' := by
  refine ⟨h.kept.imp (·.of_dirs hactive) (·.of_dirs hprevious), ?_⟩
  intro d hd
  exact h.honest d (hactive ▸ hd)

/-! ## Renaming -/

theorem renamed_eq_some {p q : HsPath} (h : w.renamed p q = some w') :
    ∃ d, w.dirs p = some d ∧ w.dirs q = none ∧ w' = (w.setDir q (some d)).setDir p none := by
  unfold World.renamed at h
  split at h
  next d hp hq =>
    cases h
    exact ⟨d, hp, hq, rfl⟩
  next => cases h

theorem renamed_ne_none {p q : HsPath} {d : HsDir} (hp : w.dirs p = some d) (hq : w.dirs q = none) :
    w.renamed p q ≠ none := by
  simp [World.renamed, hp, hq]

theorem dirs_removed (q p : HsPath) :
    (w.removed p).dirs q = if q = p then none else w.dirs q := by
  unfold World.removed
  split <;> simp [World.setDir, Function.update_apply]

theorem dirs_partlyRemoved {p q : HsPath} (h : q ≠ p) (keeps : String → Bool) :
    (w.partlyRemoved p keeps).dirs q = w.dirs q := by
  simp [World.partlyRemoved, h]

section Moves

variable {E : Event → Prop} {C : World → Prop} {d ds : HsDir}

/-- Activating an identity: the active directory stays, or it becomes the backup and the staged
directory takes its place. Between the two renames there is no active directory, and a failure of
the second rename leaves it so if the first one cannot be undone. -/
theorem wp_activateIdentity {p : Paths} {stage : IdentityStage}
    {Q : Except GoError HsPath → World → Prop}
    (hd : w.dirs .active = some d) (hs : w.dirs (.stage stage.root) = some ds)
    (hsame : ∀ err w', w'.dirs .active = some d → Q (.error err) w')
    (hlost : DiskMayFail (undone E) → ∀ err w', w'.dirs .active = none → w'.dirs .previous = some d →
      Q (.error err) w')
    (hok : ∀ w', w'.dirs .active = some ds → w'.dirs .previous = some d →
      w'.dirs (.stage stage.root) = none → Q (.ok .previous) w')
    (hcrash : ∀ w', MayCrash E → (w'.dirs .active = some d ∨
      (w'.dirs .active = none ∨ w'.dirs .active = some ds) ∧ w'.dirs .previous = some d) → C w') :
    wp E (activateIdentity p stage) Q C w := by
  unfold activateIdentity
  split
  next => exact wp_fail (hsame _ _ hd)
  next =>
    -- the old backup goes; the active directory is not touched yet
    apply wp_bind
    apply wp_removeAll
    · exact fun hc keeps => hcrash _ hc (.inl (by rwa [dirs_partlyRemoved (by simp)]))
    · exact fun _ keeps => hsame _ _ (by rwa [dirs_partlyRemoved (by simp)])
    have hd₁ : (w.removed .previous).dirs .active = some d := by simpa [dirs_removed] using hd
    have hs₁ : (w.removed .previous).dirs (.stage stage.root) = some ds := by
      simpa [dirs_removed] using hs
    apply wp_bind
    apply wp_rename (fun hc => hcrash _ hc (.inl hd₁)) (fun _ => hsame _ _ hd₁)
      (fun _ => hsame _ _ hd₁)
    intro w₂ hw₂
    obtain ⟨d', hd', -, rfl⟩ := renamed_eq_some hw₂
    rw [hd₁] at hd'
    cases hd'
    -- between the renames
    apply wp_bind
    apply wp_attempt
    apply wp_rename
    · exact fun hc => hcrash _ hc (.inr ⟨.inl (by simp), by simp⟩)
    · intro _
      apply wp_bind
      apply wp_undoing
      apply wp_ignore
      apply wp_rename
      · exact fun hc => hcrash _ (mayCrash_undone.mp hc) (.inr ⟨.inl (by simp), by simp⟩)
      · exact fun hf => wp_fail (hlost hf _ _ (by simp) (by simp))
      · exact fun hnone => absurd hnone (renamed_ne_none (d := d) (by simp) (by simp))
      · intro w₃ hw₃
        obtain ⟨d', hd', -, rfl⟩ := renamed_eq_some hw₃
        have : d' = d := by simpa using hd'.symm
        exact wp_fail (hsame _ _ (by simp [this]))
    · exact fun hnone => absurd hnone (renamed_ne_none (d := ds) (by simpa using hs₁) (by simp))
    · intro w₃ hw₃
      obtain ⟨d', hd', -, rfl⟩ := renamed_eq_some hw₃
      have : d' = ds := by simpa [hs₁] using hd'.symm
      subst this
      -- both renames are done; removing the stage concerns nothing else
      apply wp_bind
      apply wp_ignore
      apply wp_removeAll
      · exact fun hc keeps => hcrash _ hc (.inr ⟨.inr (by simp [dirs_partlyRemoved]),
          by simp [dirs_partlyRemoved]⟩)
      · exact fun _ keeps => wp_pure (hok _ (by simp [dirs_partlyRemoved])
          (by simp [dirs_partlyRemoved]) (by simp [World.partlyRemoved]))
      · exact wp_pure (hok _ (by simp [dirs_removed]) (by simp [dirs_removed])
          (by simp [dirs_removed]))

/-- Exchanging the active directory for its backup: they stay as they are, or only the backup is
there, or the backup has become the active directory. -/
theorem wp_exchange {Q : Except GoError Unit → World → Prop}
    (hp : w.dirs .previous = some d)
    (hsame : DiskMayFail E ∨ w.dirs .active = none → ∀ err w', w'.dirs .previous = some d →
      (w'.dirs .active = w.dirs .active ∨ w'.dirs .active = none) → Q (.error err) w')
    (hpart : DiskMayFail E → ∀ err w', w'.dirs .active = some d → w'.dirs .previous = none →
      Q (.error err) w')
    (hok : ∀ w', w'.dirs .active = some d → w'.dirs .previous = none → w'.dirs .failed = none →
      Q (.ok ()) w')
    (hcrash : ∀ w', MayCrash E → (w'.dirs .previous = some d ∧
      (w'.dirs .active = w.dirs .active ∨ w'.dirs .active = none) ∨ w'.dirs .active = some d) →
      C w') :
    wp E exchange Q C w := by
  unfold exchange
  -- whatever happens to the directory of an earlier failure, the two others stay
  have hcleared : wp E (ignore (removeAll .failed))
      (fun r w₁ => r = .ok () ∧ w₁.dirs .active = w.dirs .active ∧ w₁.dirs .previous = some d ∧
        (¬ DiskMayFail E → w₁.dirs .failed = none)) C w := by
    apply wp_ignore
    apply wp_removeAll
    · exact fun hc keeps => hcrash _ hc (.inl ⟨by rwa [dirs_partlyRemoved (by simp)],
        .inl (dirs_partlyRemoved (by simp) keeps)⟩)
    · exact fun hf keeps => ⟨rfl, dirs_partlyRemoved (by simp) keeps,
        by rwa [dirs_partlyRemoved (by simp)], fun h => absurd hf h⟩
    · exact ⟨rfl, by simp [dirs_removed], by simpa [dirs_removed] using hp,
        fun _ => by simp [dirs_removed]⟩
  refine wp_bind (wp_mono hcleared ?_ fun _ h => h)
  rintro _ w₁ ⟨rfl, ha, hp₁, hfailed⟩
  apply wp_bind
  apply wp_rename
  · exact fun hc => hcrash _ hc (.inl ⟨hp₁, .inl ha⟩)
  · exact fun hf => hsame (.inl hf) _ _ hp₁ (.inl ha)
  · intro hnone
    refine hsame ?_ _ _ hp₁ (.inl ha)
    by_contra hcon
    rw [not_or] at hcon
    obtain ⟨da, hda⟩ := Option.ne_none_iff_exists'.mp hcon.2
    exact renamed_ne_none (ha.trans hda) (hfailed hcon.1) hnone
  intro w₂ hw₂
  obtain ⟨da, hda, -, rfl⟩ := renamed_eq_some hw₂
  apply wp_bind
  apply wp_attempt
  apply wp_rename
  · exact fun hc => hcrash _ hc (.inl ⟨by simpa using hp₁, .inr (by simp)⟩)
  · intro hf
    apply wp_bind
    apply wp_undoing
    apply wp_ignore
    apply wp_rename
    · exact fun hc => hcrash _ (mayCrash_undone.mp hc) (.inl ⟨by simpa using hp₁, .inr (by simp)⟩)
    · exact fun _ => wp_fail (hsame (.inl hf) _ _ (by simpa using hp₁) (.inr (by simp)))
    · exact fun hnone => absurd hnone (renamed_ne_none (d := da) (by simp) (by simp))
    · intro w₃ hw₃
      obtain ⟨d', hd', -, rfl⟩ := renamed_eq_some hw₃
      have hd'' : d' = da := by simpa using hd'.symm
      refine wp_fail (hsame (.inl hf) _ _ (by simpa using hp₁) (.inl ?_))
      rw [← ha, hda, hd'']
      simp
  · exact fun hnone => absurd hnone (renamed_ne_none (d := d) (by simpa using hp₁) (by simp))
  · intro w₃ hw₃
    obtain ⟨d', hd', -, rfl⟩ := renamed_eq_some hw₃
    have hd'' : d' = d := by simpa [hp₁] using hd'.symm
    subst hd''
    apply wp_removeAll
    · exact fun hc keeps => hcrash _ hc (.inr (by simp [dirs_partlyRemoved]))
    · exact fun hf keeps => hpart hf _ _ (by simp [dirs_partlyRemoved])
        (by simp [dirs_partlyRemoved])
    · exact hok _ (by simp [dirs_removed]) (by simp [dirs_removed]) (by simp [dirs_removed])

end Moves

/-! ## Making sure that the directories exist -/

section Ensure

variable {E : Event → Prop} {Q : Except GoError Unit → World → Prop} {C : World → Prop}

theorem ensuredAuth_ensuredDir (q : HsPath) (w : World) :
    ensuredAuth q (ensuredDir q w) = ensuredAuth q w := by
  simp [ensuredAuth, ensuredDir, World.setDir]

theorem wp_ensure {p : Paths} {q : HsPath} (hsafe : p.safe = false → ∀ err, Q (.error err) w)
    (hstop : ∀ w', w' = w ∨ w' = ensuredDir q w ∨ w' = ensuredAuth q w →
      (MayCrash E → C w') ∧ (DiskMayFail E → ∀ err, Q (.error err) w'))
    (hok : Q (.ok ()) (ensuredAuth q w)) : wp E (p.ensure q) Q C w := by
  unfold Paths.ensure
  split
  next h => exact wp_fail (hsafe (by simpa using h) _)
  next =>
    have hw := hstop w (.inl rfl)
    have hdir := hstop (ensuredDir q w) (.inr (.inl rfl))
    have hauth := hstop (ensuredAuth q w) (.inr (.inr rfl))
    -- the directories of the configuration and of the data
    apply wp_bind
    refine wp_diskCall_some hw.1 (fun hf => hw.2 hf _) ?_
    apply wp_bind
    refine wp_diskCall_some hw.1 (fun hf => hw.2 hf _) ?_
    apply wp_bind
    refine wp_diskCall_some hw.1 (fun hf => hw.2 hf _) ?_
    apply wp_bind
    refine wp_diskCall_some hdir.1 (fun hf => hdir.2 hf _) ?_
    rw [ensuredAuth_ensuredDir]
    -- the directory of the control socket
    refine wp_diskCall_some hauth.1 (fun hf => hauth.2 hf _) ?_
    exact hok

theorem readServiceID_auth (d : HsDir) (auth : Option AuthDir) :
    readServiceID (some { d with auth }) = readServiceID (some d) := rfl

theorem Kept.ensuredDir (h : Kept id w) : Kept id (ensuredDir .active w) := by
  cases hd : w.dirs .active with
  | some d => exact h.of_dirs (by simp [Tor.ensuredDir, hd]) (by simp [Tor.ensuredDir])
  | none =>
    refine ⟨.inr ?_, ?_⟩
    · rcases h.kept with ⟨d, hd', _⟩ | hp
      · rw [hd] at hd'
        cases hd'
      · exact hp.of_dirs (by simp [Tor.ensuredDir])
    · -- a new directory has no host name
      intro d hd' hread
      have hempty : d = HsDir.empty := by simpa [Tor.ensuredDir, hd] using hd'.symm
      subst hempty
      cases hread

theorem Kept.ensuredAuth (h : Kept id w) : Kept id (ensuredAuth .active w) := by
  rw [← ensuredAuth_ensuredDir]
  have h' := h.ensuredDir
  obtain ⟨d, hd⟩ : ∃ d, (Tor.ensuredDir .active w).dirs .active = some d := by
    simp [Tor.ensuredDir]
  have hactive : (Tor.ensuredAuth .active (Tor.ensuredDir .active w)).dirs .active =
      some { d with auth := some (d.auth.getD ∅) } := by
    simp [Tor.ensuredAuth, hd]
  by_cases hread : readServiceID (some d) = .ok id
  · -- a directory that holds the identity already has its authorisations
    have hsound := h'.honest d hd hread
    obtain ⟨a, ha, _⟩ := hsound.usable
    refine h'.of_dirs ?_ (by simp [Tor.ensuredAuth])
    rw [hactive, hd, ha, Option.getD_some, ← ha]
  · refine ⟨.inr ?_, ?_⟩
    · rcases h'.kept with ⟨d', hd', hsound⟩ | hp
      · rw [hd] at hd'
        cases hd'
        exact absurd hsound.hostname hread
      · exact hp.of_dirs (by simp [Tor.ensuredAuth])
    · intro d' hd' hread'
      rw [hactive] at hd'
      cases hd'
      rw [readServiceID_auth] at hread'
      exact absurd hread' hread

end Ensure

/-! ## Recovery -/

theorem Holds.setAuth {p q : HsPath} {a : AuthDir} (h : Holds w p id) (ha : PlainFiles a) :
    Holds (w.setAuth q a) p id := by
  obtain ⟨d, hd, hsound⟩ := h
  by_cases hpq : p = q
  · subst hpq
    exact ⟨{ d with auth := some a }, by simp [World.setAuth, hd],
      ⟨⟨hsound.hostname, hsound.keys⟩, a, rfl, ha⟩⟩
  · exact ⟨d, by simpa [World.setAuth, hpq] using hd, hsound⟩

theorem Holds.authAt {p : HsPath} (h : Holds w p id) : ∃ a, w.authAt p = some a ∧ PlainFiles a := by
  obtain ⟨d, hd, hsound⟩ := h
  obtain ⟨a, ha, hnodirs⟩ := hsound.usable
  exact ⟨a, by simp [World.authAt, hd, ha], hnodirs⟩

section Recover

variable {E : Event → Prop} {Q : Except GoError Unit → World → Prop} {C : World → Prop}

/-- Removing the stages never fails and touches no other directory. They are gone if the file system
does not fail. -/
theorem wp_removeStages (stages : List ℕ)
    (hok : ∀ w', (∀ p, (∀ n, p ≠ .stage n) → w'.dirs p = w.dirs p) →
      (¬ DiskMayFail E → ∀ n, n ∈ stages ∨ w.dirs (.stage n) = none → w'.dirs (.stage n) = none) →
      Q (.ok ()) w')
    (hcrash : ∀ w', MayCrash E → (∀ p, (∀ n, p ≠ .stage n) → w'.dirs p = w.dirs p) → C w') :
    wp E (forEach (fun n => ignore (removeAll (.stage n))) stages) Q C w := by
  apply wp_forEach (I := fun done w' => (∀ p, (∀ n, p ≠ .stage n) → w'.dirs p = w.dirs p) ∧
    (¬ DiskMayFail E → ∀ n, n ∈ done ∨ w.dirs (.stage n) = none → w'.dirs (.stage n) = none))
  · rintro done n rest w' _ ⟨hsame, hgone⟩
    have hpart : ∀ keeps, ∀ p, (∀ n, p ≠ .stage n) →
        (w'.partlyRemoved (.stage n) keeps).dirs p = w.dirs p := by
      intro keeps p hp
      rw [dirs_partlyRemoved (hp n), hsame p hp]
    apply wp_ignore
    apply wp_removeAll
    · exact fun hc keeps => hcrash _ hc (hpart keeps)
    · exact fun hf keeps => ⟨hpart keeps, fun hdisk => absurd hf hdisk⟩
    · refine ⟨fun p hp => by rw [dirs_removed, if_neg (hp n), hsame p hp], fun hdisk m hm => ?_⟩
      rw [dirs_removed]
      split
      next => rfl
      next hne =>
        refine hgone hdisk m (hm.imp_left fun hmem => ?_)
        rcases List.mem_append.mp hmem with hdone | hn
        · exact hdone
        · exact absurd (congrArg HsPath.stage (List.mem_singleton.mp hn)) hne
  · exact fun w' hw' => hok w' hw'.1 hw'.2
  · exact ⟨fun _ _ => rfl, fun _ n hn => hn.resolve_left List.not_mem_nil⟩

/-- What a recovery leaves of the other directories: nothing of the stages if the file system does
not fail; and a directory of an earlier failure only where the active directory had the right host
name. -/
structure Swept (E : Event → Prop) (id : String) (w w' : World) : Prop where
  previous : w'.dirs .previous = none
  stages : ¬ DiskMayFail E → ∀ n, n ∈ w.stages ∨ w.dirs (.stage n) = none → w'.dirs (.stage n) = none
  kept : readServiceID (w.dirs .active) = .ok id → w'.dirs .failed = w.dirs .failed
  failed : readServiceID (w.dirs .active) ≠ .ok id → w'.dirs .failed = none

/-- A restart finds the identity wherever it was kept, and puts it back into the active
directory. -/
theorem wp_recoverIdentity (hid : id ≠ "") (h : Kept id w) (hactive : w.dirs .active ≠ none)
    (hok : ∀ w', Holds w' .active id → Swept E id w w' → Q (.ok ()) w')
    (herr : DiskMayFail E → ∀ err w', Kept id w' → Q (.error err) w')
    (hcrash : ∀ w', MayCrash E → Kept id w' → C w') :
    wp E (recoverIdentity id) Q C w := by
  unfold recoverIdentity
  apply wp_bind
  apply wp_get
  apply wp_bind
  apply wp_removeStages
  rotate_left
  · exact fun w' hc hsame => hcrash _ hc (h.of_dirs (hsame _ (by simp)) (hsame _ (by simp)))
  intro w₁ hsame hgone
  have hgone₁ : ¬ DiskMayFail E → ∀ n, n ∈ w.stages ∨ w.dirs (.stage n) = none →
      w₁.dirs (.stage n) = none :=
    fun hdisk n hn => hgone hdisk n (hn.imp_left AList.mem_keys.mp)
  have ha₁ : w₁.dirs .active ≠ none := by rwa [hsame _ (by simp)]
  have h₁ : Kept id w₁ := h.of_dirs (hsame _ (by simp)) (hsame _ (by simp))
  apply wp_bind
  apply wp_get
  rw [either_ok]
  by_cases hread : readServiceID (w₁.dirs .active) = .ok id
  · -- the active directory holds the identity, so its backup may go
    have hholds := h₁.holds_of_read hread
    simp only [hread, Except.toOption, beq_self_eq_true, Bool.or_true, ↓reduceIte]
    apply wp_removeAll
    · exact fun hc keeps => hcrash _ hc
        (.of_active (hholds.of_dirs (dirs_partlyRemoved (by simp) keeps)))
    · exact fun hf keeps => herr hf _ _
        (.of_active (hholds.of_dirs (dirs_partlyRemoved (by simp) keeps)))
    · refine hok _ (hholds.of_dirs (by simp [dirs_removed])) ⟨by simp [dirs_removed], ?_, ?_, ?_⟩
      · exact fun hdisk n hn => by simpa [dirs_removed] using hgone₁ hdisk n hn
      · exact fun _ => by simpa [dirs_removed] using hsame .failed (by simp)
      · exact fun hne => absurd (hsame .active (by simp) ▸ hread) hne
  · -- it does not, so the backup holds it and takes its place
    have hprevious : Holds w₁ .previous id :=
      h₁.kept.resolve_left fun hholds => hread hholds.readServiceID
    have hne : (readServiceID (w₁.dirs .active)).toOption ≠ some id := by
      cases hr : readServiceID (w₁.dirs .active) with
      | error e => simp [Except.toOption]
      | ok other =>
        rw [hr] at hread
        simpa [Except.toOption] using hread
    rw [if_neg (by simp [hid, hne]), if_neg (by simp [hprevious.readServiceID, Except.toOption])]
    obtain ⟨d, hd, hsound⟩ := hprevious
    have hbackup : ∀ w' : World, w'.dirs .previous = some d →
        (w'.dirs .active = w₁.dirs .active ∨ w'.dirs .active = none) → Kept id w' := by
      intro w' hp ha
      refine ⟨.inr ⟨d, hp, hsound⟩, fun d' hd' hread' => ?_⟩
      rcases ha with ha | ha
      · rw [ha] at hd'
        exact absurd (hd' ▸ hread') hread
      · rw [ha] at hd'
        cases hd'
    -- the exchange leaves the stages alone
    refine (keeps_exchange (f := fun w n => w.dirs (.stage n)) (P := fun p => ∀ n, p ≠ .stage n)
      ⟨fun w p d hp => ?_, fun _ _ _ => rfl, fun _ _ _ _ => rfl⟩ (by simp) (by simp) (by simp)).with ?_
    · funext n
      simp [(hp n).symm]
    apply wp_exchange hd
    · exact fun hwhy err w' hp ha _ => herr (hwhy.resolve_right ha₁) _ _ (hbackup w' hp ha)
    · exact fun hf err w' ha _ _ => herr hf _ _ (.of_active ⟨d, ha, hsound⟩)
    · intro w' ha hp hf hstages
      refine hok _ ⟨d, ha, hsound⟩ ⟨hp, fun hdisk n hn => ?_, fun heq => ?_, fun _ => hf⟩
      · exact (congrFun hstages n).trans (hgone₁ hdisk n hn)
      · exact absurd (hsame .active (by simp) ▸ heq) hread
    · rintro w' hc (⟨hp, ha⟩ | ha) _
      · exact hcrash _ hc (hbackup w' hp ha)
      · exact hcrash _ hc (.of_active ⟨d, ha, hsound⟩)

end Recover

end Tor

end Torkitten
