import Torkitten.Api.Lifecycle
import Torkitten.Model.Specification

/-!
# Pending devices

A pending device can be acknowledged until it expires. `Validate` accepts sixty-four devices together
with a pending one, so the state alone does not say that there is room for it; the guards of the
operations do, over the whole life of the store.

## Main results

* `pending_acknowledgeable`: a pending device always has room, `AcknowledgeDevice` fails on it before
  its expiry only when the state cannot be persisted, and at every instant exactly one of
  `AcknowledgeDevice` and `ExpirePending` can take effect on it.
-/

namespace Torkitten

open Proc Api

/-! ## Room for the pending device -/

/-- There is room for the pending device. -/
def Roomy (s : State) : Prop := s.pending ≠ none → s.devices.length < maxDevices

theorem Roomy.of_eq {s s' : State} (h : Roomy s) (hpending : s'.pending = s.pending)
    (hdevices : s'.devices = s.devices) : Roomy s' := by
  intro hs'
  rw [hdevices]
  exact h (hpending ▸ hs')

theorem Roomy.of_none {s : State} (h : s.pending = none) : Roomy s := fun hs => absurd h hs

theorem Roomy.of_dropsPending {s s' : State} (h : Roomy s) (hdrops : DropsPending s () s') :
    Roomy s' := by
  rcases hdrops with rfl | rfl
  · exact h
  · exact .of_none rfl

theorem Roomy.storeCall {digest : Digest} {s s' : State} (h : Roomy s) {call : StoreCall}
    (hcall : (TokenCall.other call).Allows digest s s') : Roomy s' := by
  cases call with
  | completeSetup session =>
    obtain ⟨-, rfl⟩ := hcall
    exact h
  | mapping call =>
    obtain ⟨-, mappings, rfl⟩ := hcall
    exact h
  | rotateIdentity confirmation =>
    -- a rotation is refused while a device is pending
    obtain ⟨-, hnone, devices, serviceID, -, rfl⟩ := hcall
    exact .of_none hnone
  | setPublication enabled => exact h.of_eq (by rw [show s' = _ from hcall]) (by rw [show s' = _ from hcall])
  | createDevice name =>
    obtain ⟨hroom, -, -, pending, rfl⟩ := hcall
    exact fun _ => hroom
  | acknowledgeDevice id =>
    obtain ⟨pending, acknowledgedAt, -, rfl⟩ := hcall
    exact .of_none rfl
  | revokeDevice id =>
    obtain rfl : s' = _ := hcall
    exact fun hs => Nat.lt_of_le_of_lt (List.length_filter_le _ _) (h hs)
  | expirePending => exact h.of_dropsPending hcall
  | reconcileTor => exact h.of_dropsPending hcall
  | createSession owner =>
    obtain ⟨record, t, -, rfl⟩ := hcall
    exact h
  | authenticate cookie =>
    obtain ⟨raw, t, rfl⟩ := hcall
    exact h
  | revokeSession id =>
    obtain rfl : s' = _ := hcall
    exact h
  | revokeAllSessions =>
    obtain rfl : s' = _ := hcall
    exact h

theorem enduring_roomy (digest : Digest) : Enduring (fun _ => True) digest Roomy where
  new := .of_none rfl
  call {c s s'} _ h _ hcall := by
    cases c with
    | create name scopes lifetime =>
      obtain ⟨g, -, rfl⟩ := hcall
      exact h
    | authorize token required =>
      obtain ⟨used, rfl⟩ := hcall
      exact h
    | revoke id =>
      obtain rfl : s' = _ := hcall
      exact h
    | reset =>
      obtain rfl : s' = _ := hcall
      exact .of_none rfl
    | other call => exact h.storeCall hcall
  bootstrap h := h
  serviceID _ h := h
  pending _ := .of_none rfl
  reset _ := .of_none rfl

/-! ## Persisting -/

/-- The errors of `persist` about a valid state. -/
inductive PersistError : GoError → Prop where
  | encode (err : GoError) : PersistError (.wrap "encode state" err)
  | size : PersistError (.new "encoded state exceeds size limit")
  | write (err : GoError) : PersistError (.wrap "persist state" err)

/-- A valid state with nothing to roll back is stored, unless persisting it fails. -/
theorem wp_commit_valid {α : Type} {E : Event → Prop} {w : World} {next : State} {a : α}
    (h : next.Valid) :
    wp E (worldStore.commit (changed next none a))
      (either (fun _ w' => w'.durable = next ∧ w'.value = next) fun err _ => PersistError err)
      (fun _ => True) w := by
  have hnone : next.validate = none := h
  unfold Store.commit Store.persist
  dsimp only [changed]
  rw [hnone]
  dsimp only
  cases htext : marshalIndent next with
  | error err =>
    dsimp only
    exact wp_bind (wp_attempt (wp_fail (wp_fail (.encode err))))
  | ok text =>
    dsimp only
    split
    · exact wp_bind (wp_attempt (wp_fail (wp_fail .size)))
    · refine wp_bind (wp_attempt (wp_bind (wp_attempt (wp_writeState (fun _ => trivial) ?_ ?_))))
      · exact fun _ => wp_fail (wp_fail (.write _))
      · refine wp_pure (wp_bind (wp_modify (wp_pure ⟨rfl, ?_⟩)))
        exact clone_of_encodable (encodable_of_marshalIndent htext)

/-! ## Acknowledging -/

/-- The state in which the pending device has been acknowledged. -/
def acknowledged (s : State) (p : PendingDevice) (t : Time) : State :=
  { s with devices := s.devices ++ [{ p.toDevice with acknowledgedAt := t }], pending := none }

section Pending

variable {s : State} {p : PendingDevice} {w : World}

/-- The pending device has an id of its own. -/
theorem State.Valid.pending_id_ne (h : s.Valid) (hp : s.pending = some p) :
    ∀ d ∈ s.devices, d.id ≠ p.id := by
  have hnodup := (valid_iff_specified.mp h).deviceIDs
  rw [hp] at hnodup
  intro d hd heq
  exact (List.nodup_append.mp hnodup).2.2 d.id (List.mem_map_of_mem hd) p.id
    (List.mem_singleton.mpr rfl) heq

/-- With room for it, the pending device can join the others. -/
theorem State.Valid.acknowledged {t : Time} (h : s.Valid) (hp : s.pending = some p)
    (hroom : s.devices.length < maxDevices) (ht : t ≠ 0) : (acknowledged s p t).Valid := by
  have hs := valid_iff_specified.mp h
  have hproper := hs.pending p hp
  refine valid_iff_specified.mpr { hs with
    limits := ⟨hs.limits.1, ?_, hs.limits.2.2⟩
    device := ?_
    pending := nofun
    deviceIDs := ?_
    publication := fun hpublic => ⟨(hs.publication hpublic).1, by simp [Torkitten.acknowledged]⟩ }
  · have hroom' : s.devices.length < 64 := hroom
    simp only [Torkitten.acknowledged, List.length_append, List.length_singleton]
    omega
  · intro d hd
    rcases List.mem_append.mp hd with hd | hd
    · exact hs.device d hd
    · cases List.mem_singleton.mp hd
      exact ⟨hproper.id, hproper.name, hproper.publicKey, hproper.created, ht⟩
  · have hnodup := hs.deviceIDs
    rw [hp] at hnodup
    simpa [Torkitten.acknowledged] using hnodup

theorem State.Valid.dropPending (h : s.Valid) : ({ s with pending := none } : State).Valid := by
  have hs := valid_iff_specified.mp h
  refine valid_iff_specified.mpr { hs with pending := nofun, deviceIDs := ?_ }
  simpa using (List.nodup_append.mp hs.deviceIDs).1

/-- A transition of the control plane runs its function on the state that is held, and commits. -/
theorem Held.transition_run {α : Type} {fn : State → Op (Change World Event α)} (hw : Held w s)
    {env : ℕ → Event} {n n' : ℕ} {w' : World} {change : Change World Event α}
    (h : (fn s).run env n w = (.ok change, w', n')) :
    (worldStore.transition (some fn)).run env n w = (worldStore.commit change).run env n' w' := by
  have hclone : clone w.value = s := by rw [hw.value, clone_of_encodable hw.encodable]
  refine (bind_run_ok (show _ = (Outcome.ok w, w, n) from rfl)).trans (bind_run_ok ?_)
  exact hclone ▸ h

/-- Before the expiry, `AcknowledgeDevice` goes on to store the device. -/
theorem acknowledgeDevice_run (hw : Held w s) (hp : s.pending = some p) {env : ℕ → Event} {n : ℕ}
    (hlt : w.clock + (env n).elapsed < p.expiresAt) :
    (acknowledgeDevice p.id).run env n w =
      (worldStore.commit (changed (acknowledged s p
        (w.clock + (env n).elapsed + (env (n + 1)).elapsed)) none ())).run env (n + 2)
        { w with clock := w.clock + (env n).elapsed + (env (n + 1)).elapsed } := by
  refine hw.transition_run ?_
  unfold acknowledgeChange
  rw [hp]
  dsimp only
  rw [if_neg (not_not.mpr rfl)]
  refine (bind_run_ok rfl).trans ?_
  rw [if_neg (by simpa using hlt)]
  exact bind_run_ok rfl

/-- From the expiry on, `AcknowledgeDevice` does not find the device. -/
theorem acknowledgeDevice_run_late (hw : Held w s) (hp : s.pending = some p) {env : ℕ → Event} {n : ℕ}
    (hle : p.expiresAt ≤ w.clock + (env n).elapsed) :
    (acknowledgeDevice p.id).run env n w = (.error (.new "pending device not found"),
      { w with clock := w.clock + (env n).elapsed }, n + 1) := by
  have hclone : clone w.value = s := by rw [hw.value, clone_of_encodable hw.encodable]
  refine (bind_run_ok (show _ = (Outcome.ok w, w, n) from rfl)).trans (bind_run_error ?_)
  change (acknowledgeChange p.id (clone w.value)).run env n w = _
  unfold acknowledgeChange
  rw [hclone, hp]
  dsimp only
  rw [if_neg (not_not.mpr rfl)]
  refine (bind_run_ok rfl).trans ?_
  rw [if_pos (by simpa using hle)]
  rfl

/-! ## Expiring -/

/-- Before the expiry, `ExpirePending` does nothing. -/
theorem expirePending_run (hw : Held w s) (hp : s.pending = some p) {env : ℕ → Event} {n : ℕ}
    (hlt : w.clock + (env n).elapsed < p.expiresAt) :
    expirePending.run env n w = (.ok (), { w with clock := w.clock + (env n).elapsed }, n + 1) := by
  have hclone : clone w.value = s := by rw [hw.value, clone_of_encodable hw.encodable]
  refine (bind_run_ok (show _ = (Outcome.ok s, w, n) from ?_)).trans ?_
  · exact (bind_run_ok rfl).trans (by rw [hclone]; rfl)
  rw [hp]
  refine (bind_run_ok rfl).trans ?_
  rw [if_pos hlt]
  rfl

/-- From the expiry on, `ExpirePending` drops the device when Tor and the file system work. -/
theorem wp_expirePending_late (hw : Held w s) (hvalid : s.Valid) (hp : s.pending = some p)
    (hle : p.expiresAt ≤ w.clock) (hfits : ({ s with pending := none } : State).Fits) :
    wp (· = Event.calm) expirePending (fun _ w' => w'.value.pending = none)
      (fun w' => w'.value.pending = none) w := by
  have hcrash : ¬MayCrash (· = Event.calm) := by rintro ⟨_, rfl, h⟩; cases h
  have hdisk : ¬DiskMayFail (· = Event.calm) := by rintro ⟨_, rfl, h⟩; cases h
  have hservice : ¬ServiceMayFail (· = Event.calm) := by rintro ⟨_, rfl, h⟩; cases h
  have hid : idRE p.id = true := idRE_iff.mpr ((valid_iff_specified.mp hvalid).pending p hp).id
  have hclone : clone w.value = s := by rw [hw.value, clone_of_encodable hw.encodable]
  unfold expirePending viewState
  refine wp_bind (wp_bind (wp_get (wp_pure ?_)))
  rw [either_ok, hclone, hp]
  refine wp_bind (wp_now fun d => ?_)
  have hsince := (World.Since.refl w).elapsed d
  have hexpired : ¬w.clock + d < p.expiresAt := Int.not_lt.mpr (Int.le_trans hle hsince.2)
  rw [either_ok, if_neg hexpired]
  refine (hw.of_since hsince).wp_transition ?_
  unfold expireChange
  rw [hp]
  refine wp_bind (wp_now fun d' => ?_)
  have hstill : ¬w.clock + d + d' < p.expiresAt :=
    Int.not_lt.mpr (Int.le_trans hle (hsince.elapsed d').2)
  rw [either_ok, if_neg hstill]
  unfold revoking Tor.removeAuthorization
  rw [hid, clone_of_encodable hw.encodable]
  refine wp_bind (wp_diskCall_some (fun h => (hcrash h).elim) (fun h => (hdisk h).elim) ?_)
  refine wp_bind (Store.wp_orUndo (wp_serviceCall (fun h => (hcrash h).elim) (fun h => (hservice h).elim)
    (fun h => (hservice h).elim) ?_))
  refine wp_pure (wp_worldCommit_fits ?_ rfl hvalid.dropPending hfits rfl)
  rintro _ rfl
  exact ⟨rfl, rfl⟩

/-! ## Both together -/

/-- At time `t` the operation can take the pending device away: it does so in some surroundings in
which the clock stands still. -/
def TakesEffect (op : Op Unit) (w : World) (t : Time) : Prop :=
  ∃ env : ℕ → Event, (∀ i, (env i).elapsed = 0) ∧
    (op.run env 0 { w with clock := t }).2.1.value.pending = none

/-- The pending device can be acknowledged until it expires, and from then on it can be dropped. -/
structure Acknowledgeable (w : World) (p : PendingDevice) : Prop where
  room : w.value.devices.length < maxDevices
  unique : ∀ d ∈ w.value.devices, d.id ≠ p.id
  /-- In time, the device is acknowledged or the state cannot be persisted. -/
  inTime : ∀ (env : ℕ → Event) (n : ℕ), w.clock + (env n).elapsed < p.expiresAt →
    (∀ w' n', (acknowledgeDevice p.id).run env n w = (.ok (), w', n') →
      ∃ t, w'.durable = acknowledged w.value p t ∧ w'.value = acknowledged w.value p t) ∧
    ∀ err w' n', (acknowledgeDevice p.id).run env n w = (.error err, w', n') → PersistError err
  early : ∀ t, w.clock ≤ t → t < p.expiresAt →
    ((acknowledged w.value p t).Fits → TakesEffect (acknowledgeDevice p.id) w t) ∧
      ¬TakesEffect expirePending w t
  late : ∀ t, w.clock ≤ t → p.expiresAt ≤ t →
    (({ w.value with pending := none } : State).Fits → TakesEffect expirePending w t) ∧
      ¬TakesEffect (acknowledgeDevice p.id) w t

theorem Held.at_clock (hw : Held w s) (t : Time) : Held { w with clock := t } s := hw.of_stored rfl

section Instants

variable {t : Time} (hw : Held w s) (hp : s.pending = some p)

include hw hp

theorem takesEffect_acknowledgeDevice (hvalid : (acknowledged s p t).Valid)
    (hfits : (acknowledged s p t).Fits) (hlt : t < p.expiresAt) :
    TakesEffect (acknowledgeDevice p.id) w t := by
  -- both readings of the clock give `t`
  have hstill : t + ((Event.calm.elapsed : ℕ) : ℤ) = t := Int.add_zero t
  have hcommit : wp (· = Event.calm) (worldStore.commit (changed (acknowledged s p t) none ()))
      (fun _ w' => w'.value.pending = none) (fun w' => w'.value.pending = none)
      { w with clock := t } := by
    refine wp_worldCommit_fits ?_ rfl hvalid hfits rfl
    rintro _ rfl
    exact ⟨rfl, rfl⟩
  refine ⟨fun _ => Event.calm, fun _ => rfl, ?_⟩
  rw [acknowledgeDevice_run (hw.at_clock t) hp (hstill.symm ▸ hlt)]
  dsimp only
  rw [hstill, hstill]
  exact hcommit.leaves _ 2 fun _ => rfl

theorem not_takesEffect_acknowledgeDevice (hle : p.expiresAt ≤ t) :
    ¬TakesEffect (acknowledgeDevice p.id) w t := by
  rintro ⟨env, henv, hnone⟩
  have hstill : t + (((env 0).elapsed : ℕ) : ℤ) = t := by rw [henv]; exact Int.add_zero t
  rw [acknowledgeDevice_run_late (hw.at_clock t) hp (hstill.symm ▸ hle)] at hnone
  rw [show ({ w with clock := t } : World).value = s from hw.value, hp] at hnone
  cases hnone

theorem takesEffect_expirePending (hvalid : s.Valid)
    (hfits : ({ s with pending := none } : State).Fits) (hle : p.expiresAt ≤ t) :
    TakesEffect expirePending w t :=
  ⟨fun _ => Event.calm, fun _ => rfl,
    (wp_expirePending_late (hw.at_clock t) hvalid hp hle hfits).leaves _ 0 fun _ => rfl⟩

theorem not_takesEffect_expirePending (hlt : t < p.expiresAt) : ¬TakesEffect expirePending w t := by
  rintro ⟨env, henv, hnone⟩
  have hstill : t + (((env 0).elapsed : ℕ) : ℤ) = t := by rw [henv]; exact Int.add_zero t
  rw [expirePending_run (hw.at_clock t) hp (hstill.symm ▸ hlt)] at hnone
  rw [show ({ w with clock := t } : World).value = s from hw.value, hp] at hnone
  cases hnone

end Instants

/-- In a valid state with room, all of it follows from the comparisons with the expiry. -/
theorem Held.acknowledgeable (hw : Held w s) (hvalid : s.Valid) (hp : s.pending = some p)
    (hroom : s.devices.length < maxDevices) (hclock : 0 < w.clock) : Acknowledgeable w p := by
  refine ⟨hw.value ▸ hroom, hw.value ▸ hvalid.pending_id_ne hp, ?_, ?_, ?_⟩
  · intro env n hlt
    rw [hw.value, acknowledgeDevice_run hw hp hlt]
    have hsince := ((World.Since.refl w).elapsed (env n).elapsed).elapsed (env (n + 1)).elapsed
    have hpositive : w.clock + (env n).elapsed + (env (n + 1)).elapsed ≠ 0 :=
      (Int.lt_of_lt_of_le hclock hsince.2).ne'
    have hcommit := (wp_commit_valid (E := fun _ => True) (a := ())
      (w := { w with clock := w.clock + (env n).elapsed + (env (n + 1)).elapsed })
      (hvalid.acknowledged hp hroom hpositive)).at env (n + 2) fun _ => trivial
    refine ⟨fun w' n' hrun => ?_, fun err w' n' hrun => ?_⟩
    · rw [hrun] at hcommit
      exact ⟨_, hcommit⟩
    · rw [hrun] at hcommit
      exact hcommit
  · intro t hle hlt
    have hpositive : t ≠ 0 := (Int.lt_of_lt_of_le hclock hle).ne'
    rw [hw.value]
    exact ⟨fun hfits => takesEffect_acknowledgeDevice hw hp
      (hvalid.acknowledged hp hroom hpositive) hfits hlt, not_takesEffect_expirePending hw hp hlt⟩
  · intro t _ hle
    rw [hw.value]
    exact ⟨fun hfits => takesEffect_expirePending hw hp hvalid hfits hle,
      not_takesEffect_acknowledgeDevice hw hp hle⟩

end Pending

/-- In every state that a store reaches, a pending device can be acknowledged in time. -/
theorem pending_acknowledgeable (digest : Digest) (rt : Runtime) (deeds : List Deed) (h : Host)
    (r : LifeRun digest rt deeds h) (p : PendingDevice) (hp : h.world.value.pending = some p) :
    Acknowledgeable h.world p := by
  obtain ⟨⟨s, hroomy, hvalid, hheld⟩, hclock⟩ := (enduring_roomy digest).run r
  rw [hheld.value] at hp
  exact hheld.acknowledgeable hvalid hp (hroomy (by simp [hp])) hclock

/-- The daemon is started and set up, and a device is made; newest deed first. -/
def enrollingDeeds : List Deed :=
  .call (.other (.createDevice "phone")) sampleEvents :: setupDeeds

/-- The device that was made can be acknowledged. -/
theorem enrolling_acknowledgeable : ∃ h p, LifeRun sampleDigest sampleRuntime enrollingDeeds h ∧
    h.world.value.pending = some p ∧ Acknowledgeable h.world p := by
  have heval : (replay (Host.act sampleDigest sampleRuntime) emptyHost enrollingDeeds).any
      (fun h => h.world.value.pending.isSome) = true := by decide +kernel
  obtain ⟨h, hh, hpending⟩ := (Option.any_eq_true _ _).mp heval
  obtain ⟨p, hp⟩ := Option.isSome_iff_exists.mp hpending
  have hrun : LifeRun sampleDigest sampleRuntime enrollingDeeds h :=
    .of_replay fresh_emptyHost (fun _ _ _ h => ⟨fun _ _ _ => trivial, h⟩) hh
  exact ⟨h, p, hrun, hp, pending_acknowledgeable _ _ _ _ hrun p hp⟩

end Torkitten
