import Torkitten.Control.Devices
import Torkitten.Control.Identity

/-!
# What the operations store

One statement for each operation of the manager: when it returns nil the store holds a state that
stands in a given relation to the one before, in memory and in the file, and when it returns an
error the store holds what it held. What Tor, Caddy and Authelia do in between does not matter for
it. The properties of the stored state that concern whole runs are proved from these statements.
-/

namespace Torkitten

open Proc Tor

/-- The states a system stores, in its file and in memory. -/
def World.stored (w : World) : State × State := (w.durable, w.value)

/-- The store holds `s`. The file may still have a bootstrap window of an earlier version. -/
structure Held (w : World) (s : State) : Prop where
  value : w.value = s
  durable : ∃ b, w.durable = { s with bootstrap := b }
  encodable : s.Encodable

theorem Held.of_stored {w w' : World} {s : State} (h : Held w s) (hw : w'.stored = w.stored) :
    Held w' s := by
  have hdurable : w'.durable = w.durable := congrArg Prod.fst hw
  have hvalue : w'.value = w.value := congrArg Prod.snd hw
  exact ⟨hvalue.trans h.value, hdurable ▸ h.durable, h.encodable⟩

/-- Nothing has been stored since `w₀`, and the clock has not gone back. -/
def World.Since (w₀ w : World) : Prop := w.stored = w₀.stored ∧ w₀.clock ≤ w.clock

theorem World.Since.refl (w : World) : w.Since w := ⟨rfl, le_rfl⟩

theorem World.Since.trans {w₀ w w' : World} (h : w₀.Since w) (h' : w.Since w') : w₀.Since w' :=
  ⟨h'.1.trans h.1, Int.le_trans h.2 h'.2⟩

theorem World.Since.elapsed {w₀ w : World} (h : w₀.Since w) (d : ℕ) :
    w₀.Since { w with clock := w.clock + d } :=
  ⟨h.1, Int.le_trans h.2 (Int.le_add_of_nonneg_right (Int.natCast_nonneg d))⟩

theorem Held.of_since {w w' : World} {s : State} (h : Held w s) (hw : w.Since w') : Held w' s :=
  h.of_stored hw.1

/-- A transition runs its function on the state that is held. -/
theorem Held.wp_transition {β : Type} {E : Event → Prop} {Q : Except GoError β → World → Prop}
    {C : World → Prop} {fn : State → Op (Change World Event β)} {s : State} {w : World}
    (hw : Held w s) (h : wp E (fn s) (either (fun change => wp E (worldStore.commit change) Q C)
      fun err => Q (.error err)) C w) : wp E (worldStore.transition (some fn)) Q C w := by
  obtain ⟨rfl, -, henc⟩ := hw
  exact wp_worldTransition henc h

/-- What is stored is held. -/
theorem held_stored {w : World} {s : State} (h : s.Encodable) :
    Held { w with durable := s, value := s } s :=
  ⟨rfl, ⟨_, rfl⟩, h⟩

/-- What a step that neither stores a state nor reads the clock leaves alone. -/
def World.timed (w : World) : (State × State) × Time := (w.stored, w.clock)

theorem World.Since.of_timed {w₀ w w' : World} (h : w₀.Since w) (hw : w'.timed = w.timed) :
    w₀.Since w' := by
  have hstored : w'.stored = w.stored := congrArg Prod.fst hw
  have hclock : w'.clock = w.clock := congrArg Prod.snd hw
  exact ⟨hstored.trans h.1, hclock ▸ h.2⟩

theorem ignoresServices_timed : IgnoresServices World.timed where
  restarted c w := by cases c <;> rfl
  loaded _ _ := rfl
  denied _ _ := rfl
  fresh _ _ := rfl
  authConfig _ _ := rfl
  clientID _ _ := rfl

theorem ignores_timed : Ignores World.timed (fun _ => True) where
  dir _ _ _ _ := rfl
  erased _ _ _ := rfl
  inserted _ _ _ _ := rfl

theorem maintains_since {α : Type} {E : Event → Prop} {c : Op α} (w₀ : World)
    (h : Keeps E (MayCrash E) World.timed c) : Maintains E (MayCrash E) w₀.Since c :=
  fun _ hw => h.step (fun _ _ hw' => hw.of_timed hw') fun hc _ hw' => ⟨hc, hw.of_timed hw'⟩

theorem admitsTor_since (w₀ : World) : AdmitsTor w₀.Since where
  torrc _ _ h := h
  tor _ _ h := h
  clock _ d h := h.elapsed d
  auth _ _ _ _ hw' h := h.of_timed (withAuth_ignored ignores_timed trivial hw')

/-- An operation that returns nil has stored a state that `R` allows; one that returns an error or
dies has stored nothing. -/
def Commits {β : Type} (op : Op β) (R : State → β → State → Prop) : Prop :=
  ∀ (E : Event → Prop) (s : State) (w : World), Held w s →
    wp E op
      (either (fun b w' => ∃ s', R s b s' ∧ (s.Valid → s'.Valid) ∧ Held w' s' ∧ w.clock ≤ w'.clock)
        fun _ w' => w.Since w')
      (fun w' => MayCrash E ∧ w.Since w') w

/-- The same, except that the operation may die after it has stored a state. -/
def Stores {β : Type} (op : Op β) (R : State → β → State → Prop) : Prop :=
  ∀ (E : Event → Prop) (s : State) (w : World), Held w s →
    wp E op
      (either (fun b w' => ∃ s', R s b s' ∧ (s.Valid → s'.Valid) ∧ Held w' s' ∧ w.clock ≤ w'.clock)
        fun _ w' => w.Since w')
      (fun w' => MayCrash E ∧ ∃ s', (s' = s ∨ ∃ b, R s b s') ∧ (s.Valid → s'.Valid) ∧
        Held w' s' ∧ w.clock ≤ w'.clock) w

theorem Commits.stores {β : Type} {op : Op β} {R : State → β → State → Prop} (h : Commits op R) :
    Stores op R := fun E s w hw =>
  wp_mono (h E s w hw) (fun _ _ hr => hr) fun _ hc =>
    ⟨hc.1, s, .inl rfl, id, hw.of_since hc.2, hc.2.2⟩

/-- However it ends, an operation leaves the state that was stored or one that `A` allows. -/
def Moves {β : Type} (op : Op β) (A : State → State → Prop) : Prop :=
  ∀ (E : Event → Prop) (s : State) (w : World), Held w s → s.Valid →
    wp E op (fun _ w' => ∃ s', (s' = s ∨ A s s') ∧ s'.Valid ∧ Held w' s' ∧ w.clock ≤ w'.clock)
      (fun w' => MayCrash E ∧
        ∃ s', (s' = s ∨ A s s') ∧ s'.Valid ∧ Held w' s' ∧ w.clock ≤ w'.clock) w

theorem Moves.mono {β : Type} {op : Op β} {A B : State → State → Prop} (h : Moves op A)
    (hAB : ∀ s s', A s s' → B s s') : Moves op B := fun E s w hw hvalid =>
  wp_mono (h E s w hw hvalid) (fun _ _ ⟨s', hs', hrest⟩ => ⟨s', hs'.imp_right (hAB s s'), hrest⟩)
    fun _ ⟨hc, s', hs', hrest⟩ => ⟨hc, s', hs'.imp_right (hAB s s'), hrest⟩

theorem Stores.moves {β : Type} {op : Op β} {R : State → β → State → Prop} (h : Stores op R) :
    Moves op fun s s' => ∃ b, R s b s' := by
  intro E s w hw hvalid
  refine wp_mono (h E s w hw) ?_ ?_
  · intro r w' hr
    cases r with
    | ok b =>
      obtain ⟨s', hs', hvalid', hw', hclock⟩ := hr
      exact ⟨s', .inr ⟨b, hs'⟩, hvalid' hvalid, hw', hclock⟩
    | error err => exact ⟨s, .inl rfl, hvalid, hw.of_since hr, hr.2⟩
  · rintro w' ⟨hc, s', hs', hvalid', hw', hclock⟩
    exact ⟨hc, s', hs', hvalid' hvalid, hw', hclock⟩

/-- What an operation returns does not matter for what it stores. -/
theorem Moves.discard {β γ : Type} {op : Op β} {A : State → State → Prop} (h : Moves op A)
    (result : β → γ) : Moves (do let b ← op; return result b) A := by
  intro E s w hw hvalid
  refine wp_bind (wp_mono (h E s w hw hvalid) ?_ fun _ hc => hc)
  intro r w' hr
  cases r with
  | ok b => exact wp_pure hr
  | error err => exact hr

/-- A step before an operation that stores nothing does not count. -/
theorem Commits.since {β : Type} {op : Op β} {R : State → β → State → Prop} (h : Commits op R)
    {E : Event → Prop} {s : State} {w₀ w : World} (hw₀ : Held w₀ s) (hw : w₀.Since w) :
    wp E op
      (either (fun b w' => ∃ s', R s b s' ∧ (s.Valid → s'.Valid) ∧ Held w' s' ∧ w₀.clock ≤ w'.clock)
        fun _ w' => w₀.Since w')
      (fun w' => MayCrash E ∧ w₀.Since w') w := by
  refine wp_mono (h E s w (hw₀.of_since hw)) ?_ fun _ hc => ⟨hc.1, hw.trans hc.2⟩
  intro r w' hr
  cases r with
  | ok b =>
    obtain ⟨s', hs', hvalid, hw', hclock⟩ := hr
    exact ⟨s', hs', hvalid, hw', Int.le_trans hw.2 hclock⟩
  | error err => exact hw.trans hr

/-- A transition commits what its function decides. -/
theorem commits_transition {β : Type} {fn : State → Op (Change World Event β)}
    {R : State → β → State → Prop} (h : ∀ E (w₀ : World), Determines E w₀.Since R fn) :
    Commits (worldStore.transition (some fn)) R := by
  intro E s w hw
  apply hw.wp_transition
  refine wp_mono (h E w s hw.encodable w (.refl w)) ?_ fun _ hc => hc
  intro r w' hr
  cases r with
  | error err => exact hr
  | ok change =>
    apply wp_worldCommit
    · intro err
      cases hrollback : change.rollback with
      | none => exact hr.inv
      | some rollback =>
        exact Store.Undone.of_wp (G := w.Since) (hr.rollback rollback hrollback w' hr.inv)
          (fun _ _ h => h) err
    · exact fun hc => ⟨hc, hr.inv⟩
    · exact fun _ hvalid henc =>
        ⟨change.next, hr.change, fun _ => hvalid, held_stored henc, hr.inv.2⟩

/-- A transition that only computes the next state. -/
theorem determines_pure {β : Type} {E : Event → Prop} {I : World → Prop}
    {R : State → β → State → Prop} {next : State → State} {result : State → β}
    (h : ∀ s, R s (result s) (next s)) :
    Determines E I R fun current => return changed (next current) none (result current) :=
  fun current _ _ hw => wp_pure ⟨hw, nofun, h current⟩

/-- What the function of a transition leaves: the invariant, and a rollback that keeps it. -/
structure Undoable {β : Type} (E : Event → Prop) (I : World → Prop) (change : Change World Event β)
    (w : World) : Prop where
  inv : I w
  rollback : ∀ r ∈ change.rollback, Maintains E (MayCrash E) I r

/-- A transition keeps an invariant that does not concern the stored states, and its result is one
that its function has decided on. -/
theorem wp_transition_of_undoable {β : Type} {E : Event → Prop} {I : World → Prop} {P : β → Prop}
    {fn : State → Op (Change World Event β)} {w : World}
    (hI : ∀ w s, I w → I { w with durable := s, value := s })
    (h : wp E (fn (clone w.value))
      (either (fun change w' => Undoable E I change w' ∧ P change.result) fun _ => I)
      (fun w' => MayCrash E ∧ I w') w) :
    wp E (worldStore.transition (some fn)) (either (fun b w' => I w' ∧ P b) fun _ => I)
      (fun w' => MayCrash E ∧ I w') w := by
  apply Store.wp_transition
  refine wp_mono h ?_ fun _ hc => hc
  intro r w' hr
  cases r with
  | error err => exact hr
  | ok change =>
    obtain ⟨hundo, hresult⟩ := hr
    apply wp_worldCommit
    · intro err
      cases hrollback : change.rollback with
      | none => exact hundo.inv
      | some rollback =>
        exact Store.Undone.of_wp (G := I) (hundo.rollback rollback hrollback w' hundo.inv)
          (fun _ _ h => h) err
    · exact fun hc => ⟨hc, hundo.inv⟩
    · exact fun _ _ _ => ⟨hI _ _ hundo.inv, hresult⟩

/-- A transition keeps an invariant that does not concern the stored states. -/
theorem maintains_transition {β : Type} {E : Event → Prop} {I : World → Prop}
    {fn : State → Op (Change World Event β)}
    (hI : ∀ w s, I w → I { w with durable := s, value := s })
    (h : ∀ current w, I w →
      wp E (fn current) (either (Undoable E I) fun _ => I) (fun w' => MayCrash E ∧ I w') w) :
    Maintains E (MayCrash E) I (worldStore.transition (some fn)) := by
  intro w hw
  refine wp_mono (wp_transition_of_undoable (P := fun _ => True) hI (wp_mono (h _ w hw) ?_
    fun _ hc => hc)) ?_ fun _ hc => hc
  · rintro (err | change) w' hr
    · exact hr
    · exact ⟨hr, trivial⟩
  · rintro (err | b) w' hr
    · exact hr
    · exact hr.1

/-! ## Routes -/

theorem componentCandidate_eq_ok {mutate : Mutation} {current candidate : State}
    (henc : current.Encodable) (h : componentCandidate mutate current = .ok candidate) :
    mutate current = .ok candidate ∧ candidate.initialized = true ∧ candidate.Valid := by
  unfold componentCandidate at h
  split at h
  · cases h
  next =>
    obtain ⟨next, hnext, h⟩ := bind_eq_ok_iff.mp h
    rw [clone_of_encodable henc] at hnext
    split at h
    · cases h
    next hinit =>
      split at h
      · cases h
      next hvalid =>
        cases h
        exact ⟨hnext, by simpa using hinit, hvalid⟩

theorem commits_caddyChange (rt : Runtime) (mutate : Mutation) :
    Commits (rt.caddyChange mutate) fun s _ s' =>
      mutate s = .ok s' ∧ s'.initialized = true ∧ s'.Valid := by
  refine commits_transition fun E w₀ current henc w hw => ?_
  unfold Runtime.componentChange
  split
  next => exact wp_fail hw
  next candidate hcandidate =>
    split
    next => exact wp_fail hw
    next config _ =>
      -- neither loading the new configuration nor loading the old one again touches the store
      have hrollback : Maintains E (MayCrash E) w₀.Since
          (undoing (rt.loadCaddy (rt.renderer.render current))) :=
        maintains_since w₀ (keeps_undoing (ignoresServices_timed.keeps_load rt _))
      have happly : Maintains E (MayCrash E) w₀.Since (rt.applyCaddy config) :=
        maintains_since w₀ (ignoresServices_timed.keeps_apply rt config)
      refine (Store.maintains_orUndo happly hrollback).then hw fun _ w' hw' => ?_
      refine wp_pure ⟨hw', ?_, componentCandidate_eq_ok henc hcandidate⟩
      rintro _ ⟨⟩
      exact hrollback

/-! ## Publication and devices -/

theorem commits_setPublication (rt : Runtime) (enabled : Bool) :
    Commits (rt.setPublication enabled) fun s _ s' => s' = { s with publication := enabled } :=
  commits_transition fun _ _ => determines_publicationChange (admitsTor_since _) rt enabled

theorem commits_createDevice (name : String) :
    Commits (createDevice name) fun s b s' => s.initialized = true ∧ s.pending = none ∧
      s.devices.length < maxDevices ∧ s' = { s with pending := some b.1 } :=
  commits_transition fun _ _ => determines_createDeviceChange (admitsTor_since _) name

theorem commits_acknowledgeDevice (id : String) :
    Commits (acknowledgeDevice id) fun s _ s' => ∃ pending acknowledgedAt,
      s.pending = some pending ∧ pending.id = id ∧ s' = { s with
        devices := s.devices ++ [{ pending.toDevice with acknowledgedAt }], pending := none } :=
  commits_transition fun _ _ => determines_acknowledgeChange (admitsTor_since _) id

theorem commits_revokeDevice (id : String) :
    Commits (revokeDevice id) fun s _ s' =>
      s' = { s with devices := s.devices.filter fun d => d.id != id } :=
  commits_transition fun _ _ => determines_revokeChange (admitsTor_since _) id

theorem commits_reconcileTor : Commits reconcileTor DropsPending :=
  commits_transition fun _ _ => determines_reconcileTorChange (admitsTor_since _)

theorem commits_expirePending : Commits expirePending DropsPending := by
  intro E s w hw
  have htransition : Commits (worldStore.transition (some expireChange)) DropsPending :=
    commits_transition fun _ _ => determines_expireChange (admitsTor_since _)
  unfold expirePending viewState
  refine wp_bind (wp_bind (wp_get (wp_pure ?_)))
  dsimp only [either_ok]
  split
  next => exact wp_pure ⟨s, .inl rfl, id, hw, Int.le_refl _⟩
  next =>
    refine wp_bind (wp_now fun d => ?_)
    have hsince := (World.Since.refl w).elapsed d
    dsimp only [either_ok]
    split
    · exact wp_pure ⟨s, .inl rfl, id, hw.of_since hsince, hsince.2⟩
    · exact htransition.since hw hsince

/-! ## The identity -/

/-- A state that a rotation of the identity of `s` may store. -/
def RotatedState (s s' : State) : Prop :=
  s.initialized = true ∧ s.pending = none ∧
    ∃ devices serviceID, devices.map Device.id = s.devices.map Device.id ∧
      s' = { s with sessions := [], devices, serviceID }

/-- New keys are made for the devices that there are. -/
theorem wp_generateKeys_ids {E : Event → Prop} {w : World} (devices : List Device) :
    wp E (generateKeys devices)
      (either (fun keys _ => keys.map (fun key => key.1.id) = devices.map Device.id) fun _ _ => True)
      (fun _ => True) w := by
  induction devices generalizing w with
  | nil => exact wp_pure rfl
  | cons d rest ih =>
    refine wp_bind (wp_bind (wp_generateKey trivial fun key => wp_pure ?_))
    refine wp_bind (wp_mono ih ?_ fun _ h => h)
    intro r w' hr
    cases r with
    | error err => trivial
    | ok keys => exact wp_pure (congrArg (d.id :: ·) hr)

theorem timed_of_outside {n : ℕ} {w w' : World} (h : w'.outside n = w.outside n) :
    w'.timed = w.timed :=
  (congrArg World.timed h :)

/-- Making a new identity leaves the stored states alone, and so does undoing it. -/
theorem wp_rotate_stored {E : Event → Prop} {w₀ w : World} (rt : Runtime)
    {current : State} (henc : current.Encodable) (hw : w₀.Since w) :
    wp E (rt.rotate current)
      (either (fun rotation w' => w₀.Since w' ∧
          (∃ devices serviceID, devices.map Device.id = current.devices.map Device.id ∧
            rotation.candidate = { current with devices, serviceID }) ∧
          Maintains E (MayCrash E) w₀.Since rotation.rollback ∧
          ∃ backup, rotation.finish = ignore (finishIdentity backup))
        fun _ w' => w₀.Since w')
      (fun w' => MayCrash E ∧ w₀.Since w') w := by
  unfold Runtime.rotate
  rw [clone_of_encodable henc]
  refine wp_bind (wp_mono (wp_and (maintains_since w₀ (keeps_generateKeys _) w hw)
    (wp_generateKeys_ids _)) ?_ fun _ hc => hc.1)
  rintro result w₁ ⟨hw₁, hids⟩
  cases result with
  | error err => exact hw₁
  | ok keys =>
  refine wp_bind (wp_stageIdentity _ _ (fun _ => hw₁) ?_ ?_ ?_)
  rotate_left
  · exact fun n err w' h _ => hw₁.of_timed (timed_of_outside h.outside)
  · rintro w' hc (rfl | ⟨n, h⟩)
    · exact ⟨hc, hw₁⟩
    · exact ⟨hc, hw₁.of_timed (timed_of_outside h.outside)⟩
  intro stage w₂ h₂ _ _ _ _
  have hw₂ : w₀.Since w₂ := hw₁.of_timed (timed_of_outside h₂.outside)
  dsimp only [either_ok]
  split
  next =>
    exact (maintains_since w₀ (keeps_undoing (keeps_ignore (keeps_removeAll ignores_timed
      trivial)))).then hw₂ fun _ w' hw' => wp_fail hw'
  next =>
    refine (maintains_since w₀ (keeps_switchIdentity ignores_timed ignoresServices_timed trivial
      trivial trivial trivial rt _ _)).then hw₂ fun backup w₃ hw₃ => ?_
    exact wp_pure ⟨hw₃, ⟨_, _, by rw [List.map_map]; exact hids, rfl⟩,
      maintains_since w₀ (keeps_rollback ignores_timed ignoresServices_timed trivial trivial trivial
        trivial rt _ _ _), backup, rfl⟩

theorem commits_rotationChange (rt : Runtime) :
    Commits (worldStore.transition (some rt.rotationChange)) fun s rotation s' =>
      RotatedState s s' ∧ ∃ backup, rotation.finish = ignore (finishIdentity backup) := by
  refine commits_transition fun E w₀ current henc w hw => ?_
  unfold Runtime.rotationChange
  split
  next => exact wp_fail hw
  next hready =>
    simp only [Bool.or_eq_true, not_or, Bool.not_eq_true', Bool.not_eq_true,
      Option.isSome_eq_false_iff, Option.isNone_iff_eq_none] at hready
    rw [clone_of_encodable henc]
    refine wp_bind (wp_mono (wp_rotate_stored rt henc.dropSessions hw) ?_ fun _ h => h)
    intro r w₁ hr
    cases r with
    | error err => exact hr
    | ok rotation =>
      obtain ⟨hw₁, ⟨devices, serviceID, hids, hcandidate⟩, hrollback, hfinish⟩ := hr
      rw [either_ok]
      split
      next =>
        exact (maintains_ignore hrollback).then hw₁ fun _ w' hw' => wp_fail hw'
      next =>
        refine wp_pure ⟨hw₁, ?_, ⟨by simpa using hready.1.1, hready.1.2, devices, serviceID,
          hids, hcandidate⟩, hfinish⟩
        rintro _ ⟨⟩
        exact hrollback

/-- Removing the backup of the identity is no part of what a rotation stores. -/
theorem keeps_finishIdentity {E : Event → Prop} (backup : HsPath) :
    Keeps E (MayCrash E) World.timed (finishIdentity backup) := by
  unfold finishIdentity
  split
  · exact keeps_fail _
  · exact keeps_removeAll ignores_timed trivial

theorem stores_rotateIdentity (rt : Runtime) (confirmation : String) :
    Stores (rt.rotateIdentity confirmation) fun s _ s' => RotatedState s s' := by
  intro E s w hw
  unfold Runtime.rotateIdentity
  split
  next => exact wp_fail (.refl w)
  next =>
    refine wp_bind (wp_mono (commits_rotationChange rt E s w hw) ?_ ?_)
    rotate_left
    · exact fun w' hc => ⟨hc.1, s, .inl rfl, id, hw.of_since hc.2, hc.2.2⟩
    intro r w₁ hr
    cases r with
    | error err => exact hr
    | ok rotation =>
      obtain ⟨s', ⟨hrotated, backup, hfinish⟩, hvalid, hw₁, hclock⟩ := hr
      rw [either_ok, hfinish]
      refine wp_bind (wp_ignore ((keeps_finishIdentity backup).step ?_ ?_))
      · intro _ w' hw'
        have hsince := (World.Since.refl w₁).of_timed hw'
        exact wp_pure ⟨s', hrotated, hvalid, hw₁.of_since hsince, Int.le_trans hclock hsince.2⟩
      · intro hc w' hw'
        have hsince := (World.Since.refl w₁).of_timed hw'
        exact ⟨hc, s', .inr ⟨[], hrotated⟩, hvalid, hw₁.of_since hsince, Int.le_trans hclock hsince.2⟩

/-! ## The owner -/

theorem commits_stageOwnerReset :
    Commits stageOwnerReset fun s _ s' => s.initialized = true ∧ s' = { s with
      initialized := false, publication := false, sessions := [], tokens := [], pending := none,
      bootstrap := none } := by
  refine commits_transition fun E w₀ current _ w hw => ?_
  split
  next => exact wp_fail hw
  next hinit => exact wp_pure ⟨hw, nofun, by simpa using hinit, rfl⟩

/-! ## A sample -/

/-- A state with an owner and nothing else. -/
def sampleOwned : State := { newState with initialized := true, serviceID := sampleAddress 'a' }

theorem encodable_sampleOwned : sampleOwned.Encodable :=
  encodable_iff.mpr ⟨⟨[], rfl⟩, ⟨[], rfl⟩, ⟨[], rfl⟩, ⟨[], rfl⟩, ⟨[], rfl⟩⟩

/-- A system that serves the state with an owner. -/
def ownedWorld : World := { sampleWorld with durable := sampleOwned, value := sampleOwned }

theorem valid_sampleOwned : sampleOwned.Valid := by decide +kernel

/-- A digest that keeps the first bytes. -/
def sampleDigest : Digest := ⟨takeBytes 32, fun data => by simp [takeBytes]⟩

theorem held_ownedWorld : Held ownedWorld sampleOwned := ⟨rfl, ⟨none, rfl⟩, encodable_sampleOwned⟩

end Torkitten
