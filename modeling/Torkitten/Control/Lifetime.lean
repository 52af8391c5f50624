import Torkitten.Bootstrap.Runtime
import Torkitten.Control.Devices
import Torkitten.Foundations.Run

/-!
# Lifetimes of the control plane

A host runs operations of the control plane one after another. Each operation may be cut short by
the death of its process, and a restart may be cut short as well; the next restart finds what was
left. Since the process may die at every interaction, the worlds that are reached include those in
the middle of an operation.

## Main results

* `identity_kept_of_readableRun`: the durable identity survives every run in which a rotation only
  starts when the active directory has the durable host name;
* `recovery_of_reliableRun`: when the file system is reliable, a restart succeeds from wherever the
  host was left, and brings Tor's files back to the durable state.
-/

namespace Torkitten

open Proc Tor

/-- The operations that touch the files of Tor. -/
inductive Action where
  | rotateIdentity (confirmation : String)
  | createDevice (name : String)
  | acknowledgeDevice (id : String)
  | revokeDevice (id : String)
  | expirePending
  | setPublication (enabled : Bool)
  deriving DecidableEq, Repr

/-- Run an operation for its effect. -/
def Action.perform (rt : Runtime) : Action → Op Unit
  | .rotateIdentity confirmation => do
    let _ ← rt.rotateIdentity confirmation
  | .createDevice name => do
    let _ ← Torkitten.createDevice name
  | .acknowledgeDevice id => Torkitten.acknowledgeDevice id
  | .revokeDevice id => Torkitten.revokeDevice id
  | .expirePending => Torkitten.expirePending
  | .setPublication enabled => rt.setPublication enabled

/-- A host: the world, and whether the process of the control plane is running. -/
structure Host where
  world : World
  running : Bool

/-- What happens next on a host, with the events met. -/
inductive Step where
  | perform (a : Action) (env : ℕ → Event)
  | restart (env : ℕ → Event)

/-- The events of a step. -/
def Step.env : Step → ℕ → Event
  | .perform _ env => env
  | .restart env => env

namespace Host

/-- One step of a host. An operation needs a running process, which goes on unless it dies; after
a restart the process runs if its preparations have succeeded. -/
def step (rt : Runtime) (h : Host) : Step → Option Host
  | .perform a env =>
    if !h.running then none
    else
      match (a.perform rt).run env 0 h.world with
      | (.crash, w, _) => some ⟨w, false⟩
      | (_, w, _) => some ⟨w, true⟩
  | .restart env =>
    match rt.restart.run env 0 h.world with
    | (.ok _, w, _) => some ⟨w, true⟩
    | (_, w, _) => some ⟨w, false⟩

/-- A host as it is before the first step: the process runs, and the active directory holds the
durable identity. -/
def Initial (h : Host) : Prop := h.running = true ∧ Steady True h.world

/-- No rotation starts unless the active directory has the host name of the durable identity. -/
def Readable (h : Host) (l : Step) : Prop :=
  ∀ confirmation env, l = .perform (.rotateIdentity confirmation) env →
    readServiceID (h.world.dirs .active) = .ok h.world.durable.serviceID

/-- The runs of a host. -/
abbrev HostRun (rt : Runtime) : List Step → Host → Prop :=
  Run Initial fun h l h' => h.step rt l = some h'

/-- The runs in which rotations start only from the durable identity. -/
abbrev ReadableRun (rt : Runtime) : List Step → Host → Prop :=
  Run Initial fun h l h' => h.Readable l ∧ h.step rt l = some h'

/-- The runs in which no call of the file system fails. -/
abbrev ReliableRun (rt : Runtime) : List Step → Host → Prop :=
  Run Initial fun h l h' =>
    (∀ i, (l.env i).disk.fails = false ∧ (l.env i).undoDisk.fails = false) ∧ h.step rt l = some h'

end Host

/-! ## Operations on devices -/

section Operations

variable {E : Event → Prop} {ok : Prop} {w : World}

theorem Unharmed.setAuth {id : String} {a a' : AuthDir} (h : Unharmed ok id w)
    (ha : w.authAt .active = some a) (ha' : PlainFiles a → PlainFiles a') :
    Unharmed ok id (w.setAuth .active a') := by
  obtain ⟨d, hd, hauth⟩ : ∃ d, w.dirs .active = some d ∧ d.auth = some a := by
    simpa [World.authAt, Option.bind_eq_some_iff] using ha
  have hdir : (w.setAuth .active a').dirs .active = some { d with auth := some a' } := by
    simp [World.setAuth, hd]
  have hsound : Sound id d → Sound id { d with auth := some a' } := by
    rintro ⟨⟨hhostname, hkeys⟩, b, hb, hnodirs⟩
    rw [hauth] at hb
    cases hb
    exact ⟨⟨hhostname, hkeys⟩, a', rfl, ha' hnodirs⟩
  have hactive : Holds w .active id → Holds (w.setAuth .active a') .active id := by
    rintro ⟨d', hd', hs⟩
    rw [hd] at hd'
    cases hd'
    exact ⟨_, hdir, hsound hs⟩
  refine ⟨⟨h.1.kept.imp hactive fun hp => hp.of_dirs (by simp [World.setAuth]), ?_⟩,
    fun hok => hactive (h.2 hok)⟩
  intro d' hd' hread
  rw [hdir] at hd'
  cases hd'
  exact hsound (h.1.honest d hd hread)

/-- Neither the stores nor the identity depend on what is written for the devices. -/
theorem admitsTor_unharmed (x : State × State × List String) (id : String) :
    AdmitsTor fun w => w.stores = x ∧ Unharmed ok id w where
  torrc _ _ h := ⟨h.1, h.2.of_dirs rfl rfl⟩
  tor _ _ h := ⟨h.1, h.2.of_dirs rfl rfl⟩
  clock _ _ h := ⟨h.1, h.2.of_dirs rfl rfl⟩
  auth w w' change hchange hw' h := by
    cases ha : w.authAt .active with
    | none =>
      rw [withAuth_none ha] at hw'
      cases hw'
    | some a =>
      rw [withAuth_eq ha] at hw'
      obtain ⟨a', ha', rfl⟩ := Option.map_eq_some_iff.mp hw'
      exact ⟨h.1, h.2.setAuth ha (hchange a a' ha')⟩

theorem Steady.of_stores {w' : World} (h : Steady ok w) (hstores : w'.stores = w.stores)
    (hunharmed : Unharmed ok w.durable.serviceID w') : Steady ok w' := by
  have hdurable : w'.durable = w.durable := congrArg (fun x => x.1) hstores
  have hvalue : w'.value = w.value := congrArg (fun x => x.2.1) hstores
  have hused : w'.used = w.used := congrArg (fun x => x.2.2) hstores
  refine ⟨⟨hdurable ▸ hunharmed.1, ?_, hdurable ▸ h.named, hdurable ▸ h.valid,
    hdurable ▸ h.encodable⟩, hdurable ▸ hunharmed.2, ?_, hvalue ▸ h.encodableValue⟩
  · rw [hdurable, hused]
    exact h.used
  · rw [hvalue, hdurable]
    exact h.synced

/-- A transition that keeps the routes keeps a host steady. -/
theorem Steady.wp_transition {β : Type} {fn : State → Op (Change World Event β)} (h : Steady ok w)
    (hfn : ∀ I : World → Prop, AdmitsTor I → KeepsRoutes E I fn) :
    wp E (worldStore.transition (some fn)) (fun _ w' => Steady ok w')
      (fun w' => MayCrash E ∧ Grounded w') w := by
  let I : World → Prop := fun w' => w'.stores = w.stores ∧ Unharmed ok w.durable.serviceID w'
  refine (hfn I (admitsTor_unharmed _ _)).wp_transition h.encodableValue
    ⟨rfl, h.kept, h.active⟩ ?_ ?_ ?_
  · exact fun _ w' hw' => h.of_stores hw'.1 hw'.2
  · exact fun w' hc hw' => ⟨hc, (h.of_stores hw'.1 hw'.2).toGrounded⟩
  · intro next _ w' hw' hroutes hvalid hencodable
    -- the new state has the service id of the old one
    obtain ⟨b, hb⟩ := h.synced
    have hid : next.serviceID = w.durable.serviceID := by rw [hroutes.serviceID, hb]
    have hused : w'.used = w.used := congrArg (fun x => x.2.2) hw'.1
    refine ⟨⟨?_, ?_, ?_, hvalid, hencodable⟩, ?_, ⟨next.bootstrap, rfl⟩, hencodable⟩
    · exact hid ▸ hw'.2.1.of_dirs rfl rfl
    · exact hid ▸ hused ▸ h.used
    · exact hid ▸ h.named
    · exact fun hok => hid ▸ (hw'.2.2 hok).of_dirs rfl

/-- Forgetting the result of an operation. -/
theorem wp_discard {α : Type} {c : Op α} {I C : World → Prop} (h : wp E c (fun _ w' => I w') C w) :
    wp E (do let _ ← c) (fun _ w' => I w') C w := by
  refine wp_bind (wp_mono h ?_ fun _ hc => hc)
  intro r w' hr
  cases r with
  | ok _ => exact wp_pure hr
  | error e => exact hr

/-- Every operation keeps a host steady, and leaves it grounded when its process dies. -/
theorem wp_perform (hok : ok → Reliable E) (rt : Runtime) (a : Action) (h : Steady ok w)
    (hread : ∀ confirmation, a = .rotateIdentity confirmation →
      readServiceID (w.dirs .active) = .ok w.durable.serviceID) :
    wp E (a.perform rt) (fun _ w' => Steady ok w') (fun w' => MayCrash E ∧ Grounded w') w := by
  cases a with
  | rotateIdentity confirmation =>
    exact wp_discard (wp_rotateIdentity hok rt confirmation h (hread _ rfl))
  | createDevice name =>
    exact wp_discard (h.wp_transition fun I hI => keepsRoutes_createDeviceChange hI name)
  | acknowledgeDevice id => exact h.wp_transition fun I hI => keepsRoutes_acknowledgeChange hI id
  | revokeDevice id => exact h.wp_transition fun I hI => keepsRoutes_revokeChange hI id
  | setPublication enabled =>
    exact h.wp_transition fun I hI => keepsRoutes_publicationChange hI rt enabled
  | expirePending =>
    refine wp_bind (wp_bind (wp_get (wp_pure ?_)))
    rw [clone_of_encodable h.encodableValue, either_ok]
    split
    next => exact wp_pure h
    next pending _ =>
      -- the clock is read once before the transition
      refine wp_bind (wp_now fun d => ?_)
      have h' : Steady ok { w with clock := w.clock + d } := h.of_stores rfl ⟨h.kept.of_dirs rfl rfl,
        fun hok => (h.active hok).of_dirs rfl⟩
      rw [either_ok]
      split
      · exact wp_pure h'
      · exact h'.wp_transition fun I hI => keepsRoutes_expireChange hI

end Operations

/-! ## Runs -/

namespace Host

variable {rt : Runtime} {ok : Prop} {E : Event → Prop} {h h' : Host}

/-- What holds of a host in every run: its identity is kept, and while the process runs the host
is steady. -/
structure Standing (ok : Prop) (h : Host) : Prop where
  grounded : Grounded h.world
  steady : h.running = true → Steady ok h.world

theorem Initial.standing (h₀ : h.Initial) : Standing ok h :=
  ⟨h₀.2.toGrounded, fun _ => ⟨h₀.2.toGrounded, fun _ => h₀.2.active trivial, h₀.2.synced,
    h₀.2.encodableValue⟩⟩

/-- One step keeps a host standing. -/
theorem Standing.step (hok : ok → Reliable E) (hs : Standing ok h)
    {l : Step} (hE : ∀ i, E (l.env i)) (hread : h.Readable l) (hstep : h.step rt l = some h') :
    Standing ok h' := by
  cases l with
  | perform a env =>
    simp only [Host.step] at hstep
    split at hstep
    next => cases hstep
    next hrunning =>
      have hsteady := hs.steady (by simpa using hrunning)
      have hend := (wp_perform hok rt a hsteady fun c hc => hread c env (by rw [hc])).at env 0 hE
      rcases hrun : (a.perform rt).run env 0 h.world with ⟨o, w, n⟩
      rw [hrun] at hstep hend
      cases o with
      | crash =>
        cases hstep
        exact ⟨hend.2, fun hr => nomatch hr⟩
      | ok _ =>
        cases hstep
        exact ⟨Steady.toGrounded hend, fun _ => hend⟩
      | error _ =>
        cases hstep
        exact ⟨Steady.toGrounded hend, fun _ => hend⟩
  | restart env =>
    simp only [Host.step] at hstep
    have hend := (wp_restart (E := E) rt ok hs.grounded).at env 0 hE
    rcases hrun : rt.restart.run env 0 h.world with ⟨o, w, n⟩
    rw [hrun] at hstep hend
    cases o with
    | crash =>
      cases hstep
      exact ⟨hend.2, fun hr => nomatch hr⟩
    | ok _ =>
      cases hstep
      exact ⟨hend.1, fun _ => (hend.2.2.1 rfl).1⟩
    | error _ =>
      cases hstep
      exact ⟨hend.1, fun hr => nomatch hr⟩

/-- When the file system is reliable, a rotation always starts from the durable identity. -/
theorem Standing.step_reliable (hs : Standing True h) {l : Step}
    (hl : ∀ i, (l.env i).disk.fails = false ∧ (l.env i).undoDisk.fails = false)
    (hstep : h.step rt l = some h') : Standing True h' := by
  let E : Event → Prop := fun e => e.disk.fails = false ∧ e.undoDisk.fails = false
  have hE : Reliable E := by
    constructor
    · rintro ⟨e, he, hf⟩
      exact absurd hf (by simp [he.1])
    · rintro ⟨_, ⟨e, he, rfl⟩, hf⟩
      exact absurd hf (by simp [Event.undo, he.2])
  refine hs.step (fun _ => hE) hl ?_ hstep
  -- a host that runs is steady
  rintro confirmation env rfl
  refine ((hs.steady ?_).active trivial).readServiceID
  cases hrunning : h.running with
  | true => rfl
  | false => simp [Host.step, hrunning] at hstep

/-- In every run in which rotations start only from the durable identity, the active directory or
its backup holds the complete durable identity. -/
theorem identity_kept_of_readableRun {ls : List Step} (r : ReadableRun rt ls h) :
    ∃ p ∈ [HsPath.active, .previous], ∃ d, h.world.dirs p = some d ∧
      Complete h.world.durable.serviceID d := by
  have hstanding : Standing False h := by
    refine Run.invariant (I := fun _ h => Standing False h) (fun h h₀ => h₀.standing) ?_ r
    intro _ h l h' hs ⟨hread, hstep⟩
    exact hs.step (E := fun _ => True) False.elim (fun _ => trivial) hread hstep
  rcases hstanding.grounded.kept.kept with ⟨d, hd, hsound⟩ | ⟨d, hd, hsound⟩
  · exact ⟨.active, by simp, d, hd, hsound.toComplete⟩
  · exact ⟨.previous, by simp, d, hd, hsound.toComplete⟩

/-- The sample system with a running process. -/
def sample : Host := ⟨sampleWorld, true⟩

theorem initial_sample : sample.Initial :=
  ⟨rfl, ⟨⟨.of_active holds_sampleWorld, by decide, by decide, by decide +kernel, ⟨_, rfl⟩⟩,
    fun _ => holds_sampleWorld, ⟨none, rfl⟩, ⟨_, rfl⟩⟩⟩

/-- A rotation that stages a given address. The events change the uneventful one. -/
def rotation (c : Char) (change : ℕ → Event → Event) : Step :=
  .perform (.rotateIdentity "ROTATE") fun i =>
    change i { Event.calm with stage := 1, hostname := sampleAddress c }

/-- A rotation in which no call of the file system fails. -/
theorem reliable_rotation (c : Char) {change : ℕ → Event → Event}
    (hchange : ∀ i e, (change i e).disk = e.disk ∧ (change i e).undoDisk = e.undoDisk) (i : ℕ) :
    ((rotation c change).env i).disk.fails = false ∧
      ((rotation c change).env i).undoDisk.fails = false := by
  obtain ⟨hdisk, hundo⟩ := hchange i { Event.calm with stage := 1, hostname := sampleAddress c }
  exact ⟨congrArg Fault.fails hdisk, congrArg Fault.fails hundo⟩

/-- A rotation whose process dies between the two renames of `ActivateIdentity`. -/
def halfActivated : Step := rotation 'b' fun i e => { e with crash := i == 18 }

/-- A running process can always take a step, and a restart is always possible. -/
theorem exists_step (l : Step) (hl : h.running = true ∨ l = .restart l.env) :
    ∃ h', h.step rt l = some h' := by
  cases l with
  | perform a env =>
    have hrunning := hl.resolve_right (fun heq => nomatch heq)
    rw [Host.step, hrunning, Bool.not_true, if_neg (by simp)]
    split <;> exact ⟨_, rfl⟩
  | restart env =>
    rw [Host.step]
    split <;> exact ⟨_, rfl⟩

/-- The identity of the sample system is kept when a rotation is cut short. -/
theorem halfActivated_identity_kept : ∃ h, ReadableRun sampleRuntime [halfActivated] h ∧
    ∃ p ∈ [HsPath.active, .previous], ∃ d, h.world.dirs p = some d ∧
      Complete h.world.durable.serviceID d := by
  obtain ⟨h, hstep⟩ : ∃ h, sample.step sampleRuntime halfActivated = some h :=
    exists_step _ (.inl rfl)
  have r : ReadableRun sampleRuntime [halfActivated] h :=
    .next (.start initial_sample) ⟨fun _ _ _ => holds_sampleWorld.readServiceID, hstep⟩
  exact ⟨h, r, identity_kept_of_readableRun r⟩

/-- Two rotations, newest first. In the first one `ActivateIdentity` cannot put the new identity in
place, nor the old one back. The second one dies after `ActivateIdentity` has removed the backup. -/
def lostTrace : List Step :=
  [rotation 'c' fun i e => { e with crash := i == 18 },
    rotation 'b' fun i e => { e with disk := ⟨i == 18, false⟩, undoDisk := ⟨i == 19, false⟩ }]

/-- After `lostTrace` neither directory is there, so the durable identity is lost. -/
theorem lostTrace_identity_lost : ∃ h, HostRun sampleRuntime lostTrace h ∧
    ∀ p ∈ [HsPath.active, .previous], h.world.dirs p = none := by
  have heval : (replay (Host.step sampleRuntime) sample lostTrace).any (fun h =>
      (h.world.dirs .active).isNone && (h.world.dirs .previous).isNone) = true := by
    decide +kernel
  obtain ⟨h, hrun, hnone⟩ := (Option.any_eq_true _ _).mp heval
  rw [Bool.and_eq_true, Option.isNone_iff_eq_none, Option.isNone_iff_eq_none] at hnone
  refine ⟨h, .of_replay initial_sample (fun _ _ _ h => h) hrun, ?_⟩
  simpa using hnone

/-! ## Recovery -/

/-- When no call of the file system fails, a restart that is not interrupted succeeds from wherever
a run has left the host. Then the active directory holds the durable identity, there is no backup,
the authorisations are exactly those of the durable devices, and the configuration is the one of
the durable publication. -/
theorem recovery_of_reliableRun {ls : List Step} (hsafe : rt.tor.safe = true)
    (r : ReliableRun rt ls h) (env : ℕ → Event)
    (henv : ∀ i, (env i).crash = false ∧ (env i).disk.fails = false) :
    ∃ w n, rt.restart.run env 0 h.world = (.ok (), w, n) ∧ w.durable = h.world.durable ∧
      Prepared rt.tor h.world.durable w := by
  have hstanding : Standing True h :=
    Run.invariant (I := fun _ h => Standing True h) (fun h h₀ => h₀.standing)
      (fun _ _ _ _ hs hl => hs.step_reliable hl.1 hl.2) r
  have hend := (wp_restart (E := fun e => e.crash = false ∧ e.disk.fails = false) rt True
    hstanding.grounded).at env 0 henv
  have hdisk : ¬ DiskMayFail fun e => e.crash = false ∧ e.disk.fails = false := by
    rintro ⟨e, he, hf⟩
    exact absurd hf (by simp [he.2])
  rcases hrun : rt.restart.run env 0 h.world with ⟨o, w, n⟩
  rw [hrun] at hend
  cases o with
  | ok _ =>
    obtain ⟨-, hdurable, hok, -⟩ := hend
    exact ⟨w, n, rfl, hdurable, hdurable ▸ (hok rfl).2⟩
  | error e => exact absurd (hend.2.2.2 hsafe hdisk) (fun h => nomatch h)
  | crash =>
    obtain ⟨⟨e, he, hc⟩, -⟩ := hend
    exact absurd hc (by simp [he.1])

/-- A restart whose process dies between the two renames of `RecoverIdentity`. -/
def halfRecovered : Step := .restart fun i => { Event.calm with crash := i == 8 }

/-- A restart repairs the sample system after a rotation and a restart that were cut short. -/
theorem halfRecovered_recovery : ∃ h, ReliableRun sampleRuntime [halfRecovered, halfActivated] h ∧
    ∃ w n, sampleRuntime.restart.run (fun _ => Event.calm) 0 h.world = (.ok (), w, n) ∧
      w.durable = h.world.durable ∧ Prepared sampleRuntime.tor h.world.durable w := by
  obtain ⟨h₁, hstep₁⟩ : ∃ h₁, sample.step sampleRuntime halfActivated = some h₁ :=
    exists_step _ (.inl rfl)
  obtain ⟨h₂, hstep₂⟩ : ∃ h₂, h₁.step sampleRuntime halfRecovered = some h₂ :=
    exists_step _ (.inr rfl)
  have r : ReliableRun sampleRuntime [halfRecovered, halfActivated] h₂ :=
    .next (.next (.start initial_sample) ⟨reliable_rotation 'b' fun _ _ => ⟨rfl, rfl⟩, hstep₁⟩)
      ⟨fun _ => ⟨rfl, rfl⟩, hstep₂⟩
  exact ⟨h₂, r, recovery_of_reliableRun (by decide +kernel) r _ fun _ => ⟨rfl, rfl⟩⟩

end Host

end Torkitten
