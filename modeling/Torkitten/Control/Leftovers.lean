import Torkitten.Control.Lifetime
import Torkitten.Control.Stored

/-!
# What a recovery leaves behind

A rotation works with three kinds of directories beside the active one: stages, the backup, and the
directory of a failed identity. A restart cleans them up, with one gap: where the active directory
already has the durable host name, `RecoverIdentity` returns before it removes the directory of a
failed identity.

## Main results

* `keys_left_iff`: after a recovery, keys are left beside the active directory exactly when the
  restart found keys in the directory of a failed identity and the durable host name in the active
  one.
-/

namespace Torkitten

open Proc Tor

/-- Only stages that exist hold a hidden service directory. -/
def World.Listed (w : World) : Prop := ∀ n, w.dirs (.stage n) ≠ none → n ∈ w.stages

/-- The identity whose keys a directory holds. -/
def World.keysAt (w : World) (p : HsPath) : Option String := (w.dirs p).bind HsDir.keys

/-- The directories, with the stages that exist. -/
def World.disk (w : World) : (HsPath → Option HsDir) × AList fun _ : ℕ => Option Torrc :=
  (w.dirs, w.stages)

section Listed

variable {E : Event → Prop} {w w' : World} {n : ℕ}

theorem World.Listed.of_disk (h : w.Listed) (hw' : w'.disk = w.disk) : w'.Listed := by
  have hdirs : w'.dirs = w.dirs := congrArg Prod.fst hw'
  have hstages : w'.stages = w.stages := congrArg Prod.snd hw'
  intro n hn
  rw [hstages]
  exact h n (hdirs ▸ hn)

/-- A directory that is replaced is a stage only if it exists. -/
theorem World.Listed.setDir (h : w.Listed) {p : HsPath} {d : Option HsDir}
    (hp : ∀ n, p = .stage n → d ≠ none → n ∈ w.stages) : (w.setDir p d).Listed := by
  intro n hn
  by_cases heq : p = .stage n
  · subst heq
    exact hp n rfl (by simpa using hn)
  · rw [dirs_setDir, Function.update_of_ne (Ne.symm heq)] at hn
    exact h n hn

theorem ignoresServices_disk : IgnoresServices World.disk where
  restarted c w := by cases c <;> rfl
  loaded _ _ := rfl
  denied _ _ := rfl
  fresh _ _ := rfl
  authConfig _ _ := rfl
  clientID _ _ := rfl

theorem listed_withAuth {q : HsPath} {change : AuthDir → Option AuthDir} (h : w.Listed)
    (hw' : withAuth q change w = some w') : w'.Listed := by
  unfold withAuth at hw'
  simp only [Option.bind_eq_bind, Option.bind_eq_some_iff, Option.pure_def, Option.some.injEq] at hw'
  obtain ⟨d, hd, a, -, a', -, rfl⟩ := hw'
  refine h.setDir fun n hn _ => h n ?_
  rw [← hn, hd]
  exact Option.some_ne_none d

theorem admitsTor_listed : AdmitsTor World.Listed :=
  ⟨fun _ _ h => h, fun _ _ h => h, fun _ _ h => h, fun _ _ _ _ hw' h => listed_withAuth h hw'⟩

theorem admitsMoves_listed : AdmitsMoves World.Listed fun _ => True where
  removed w p _ h := by
    unfold World.removed
    split
    next n =>
      -- the other stages stay
      intro m hm
      have hne : m ≠ n := by
        rintro rfl
        simp at hm
      rw [AList.mem_erase]
      refine ⟨hne, h m ?_⟩
      simpa [hne] using hm
    next => exact h.setDir fun _ _ hnone => absurd rfl hnone
  partlyRemoved w p keeps _ h := by
    refine h.setDir fun n hn hsome => h n ?_
    rw [← hn]
    exact fun hnone => hsome (by rw [hnone]; rfl)
  renamed w w' p q _ _ htarget hw' h := by
    obtain ⟨d, -, -, rfl⟩ := renamed_eq_some hw'
    exact (h.setDir fun n hn => absurd hn (htarget n)).setDir fun _ _ hnone => absurd rfl hnone

/-! ## Staging -/

/-- What is done in a stage that exists keeps it listed. -/
theorem maintains_listed_fillStage (p : Paths) (devices : List Device) :
    Maintains E (MayCrash E) (fun w => w.Listed ∧ n ∈ w.stages) (fillStage p n devices) := by
  let I : World → Prop := fun w => w.Listed ∧ n ∈ w.stages
  have hset : ∀ (w : World) d, I w → I (w.setDir (.stage n) d) := fun w d hw =>
    ⟨hw.1.setDir fun m hm _ => by cases hm; exact hw.2, hw.2⟩
  have hgenerated : ∀ w id, I w → I (generatedAt n id w) := fun w id hw =>
    ⟨(hset w _ hw).1.of_disk rfl, hw.2⟩
  have hauth : ∀ w w' change, (∀ a a', change a = some a' → PlainFiles a → PlainFiles a') →
      withAuth (.stage n) change w = some w' → I w → I w' := by
    intro w w' change _ hw' hw
    refine ⟨listed_withAuth hw.1 hw', ?_⟩
    unfold withAuth at hw'
    simp only [Option.bind_eq_bind, Option.bind_eq_some_iff, Option.pure_def, Option.some.injEq] at hw'
    obtain ⟨_, _, _, _, _, _, rfl⟩ := hw'
    exact hw.2
  unfold fillStage
  refine maintains_bind (maintains_ensure (fun w d hw => hset w (some d) hw) _) fun _ => ?_
  refine maintains_bind (maintains_reconcile hauth _ _) fun _ => ?_
  split
  · exact maintains_fail _
  next config =>
    refine maintains_bind (maintains_writeCall ?_) fun _ => ?_
    · -- the configuration is written to the stage itself
      rintro w _ ⟨⟩ hw
      exact ⟨fun m hm => AList.mem_insert _ |>.mpr (.inr (hw.1 m hm)),
        AList.mem_insert _ |>.mpr (.inl rfl)⟩
    refine maintains_bind maintains_validate fun _ => ?_
    refine maintains_bind (maintains_serviceCall fun _ hw => hw) fun _ => ?_
    refine maintains_bind (maintains_attempt ?_) fun _ => ?_
    · intro w hw
      exact wp_generateIdentity (fun hc => ⟨hc, hw⟩) (fun _ => hw) (fun id _ => hgenerated w id hw)
        fun id _ _ => hgenerated w id hw
    refine maintains_bind maintains_get fun _ => ?_
    split
    · exact maintains_pure _
    · exact maintains_fail _

theorem maintains_listed_stageIdentity (p : Paths) (devices : List Device) :
    Maintains E (MayCrash E) World.Listed (stageIdentity p devices) := by
  intro w hw
  unfold stageIdentity
  have hmkdir : wp E mkdirTemp (either (fun n w' => w'.Listed ∧ n ∈ w'.stages) fun _ => World.Listed)
      (fun w' => MayCrash E ∧ w'.Listed) w := by
    apply wp_ask
    intro e he
    split
    next hc => exact ⟨⟨e, he, hc⟩, hw⟩
    next =>
      split
      next => exact hw
      next =>
        refine ⟨fun m hm => ?_, AList.mem_insert _ |>.mpr (.inl rfl)⟩
        refine AList.mem_insert _ |>.mpr (.inr (hw m ?_))
        by_cases heq : m = e.stage
        · simp [heq] at hm
        · simpa [heq] using hm
  refine wp_bind (wp_mono hmkdir ?_ fun _ hc => hc)
  intro r w₁ hr
  cases r with
  | error err => exact hr
  | ok n =>
    refine wp_bind (wp_attempt (wp_mono (maintains_listed_fillStage p devices w₁ hr) ?_
      fun _ hc => ⟨hc.1, hc.2.1⟩))
    intro r w₂ hr₂
    cases r with
    | ok stage => exact wp_pure hr₂.1
    | error err =>
      exact maintains_bind (maintains_undoing (maintains_ignore
        (maintains_removeAll admitsMoves_listed trivial))) (fun _ => maintains_fail err) w₂ hr₂.1

/-! ## Operations -/

/-- A rotation keeps the stages listed. -/
theorem maintains_listed_rotate (rt : Runtime) (current : State) (hw : w.Listed) :
    wp E (rt.rotate current)
      (either (fun rotation w' => w'.Listed ∧
          Maintains E (MayCrash E) World.Listed rotation.rollback ∧
          Maintains E (MayCrash E) World.Listed rotation.finish)
        fun _ => World.Listed)
      (fun w' => MayCrash E ∧ w'.Listed) w := by
  have hmoves := admitsMoves_listed
  have hdisk : ∀ w w' : World, w'.disk = w.disk → w.Listed → w'.Listed := fun _ _ h hw => hw.of_disk h
  unfold Runtime.rotate
  refine ((keeps_generateKeys _).maintains (f := World.disk) hdisk).then hw fun keys w₁ hw₁ => ?_
  refine (maintains_listed_stageIdentity _ _).then hw₁ fun stage w₂ hw₂ => ?_
  dsimp only
  split
  · exact (maintains_undoing (maintains_ignore (maintains_removeAll hmoves trivial))).then hw₂
      fun _ w₃ hw₃ => wp_fail hw₃
  · refine (maintains_switchIdentity hmoves ignoresServices_disk hdisk trivial trivial trivial trivial
      rt _ _).then hw₂ fun backup w₃ hw₃ => wp_pure ⟨hw₃, ?_, ?_⟩
    · exact maintains_rollback hmoves ignoresServices_disk hdisk trivial trivial trivial trivial rt _ _ _
    · refine maintains_ignore ?_
      unfold finishIdentity
      split
      · exact maintains_fail _
      · exact maintains_removeAll hmoves trivial

theorem maintains_listed_rotateIdentity (rt : Runtime) (confirmation : String) :
    Maintains E (MayCrash E) World.Listed (rt.rotateIdentity confirmation) := by
  intro w hw
  unfold Runtime.rotateIdentity
  split
  · exact wp_fail hw
  have hchange : ∀ current, wp E (rt.rotationChange current)
      (either (fun change w' => Undoable E World.Listed change w' ∧
        Maintains E (MayCrash E) World.Listed change.result.finish) fun _ => World.Listed)
      (fun w' => MayCrash E ∧ w'.Listed) w := by
    intro current
    unfold Runtime.rotationChange
    split
    · exact wp_fail hw
    refine wp_bind (wp_mono (maintains_listed_rotate rt _ hw) ?_ fun _ hc => hc)
    rintro (err | rotation) w₁ hr
    · exact hr
    obtain ⟨hw₁, hrollback, hfinish⟩ := hr
    rw [either_ok]
    split
    · exact (maintains_ignore hrollback).then hw₁ fun _ w₂ hw₂ => wp_fail hw₂
    · refine wp_pure ⟨⟨hw₁, ?_⟩, hfinish⟩
      rintro _ ⟨⟩
      exact hrollback
  refine wp_bind (wp_mono (wp_transition_of_undoable
    (P := fun rotation => Maintains E (MayCrash E) World.Listed rotation.finish) (fun _ _ h => h)
    (hchange _)) ?_ fun _ hc => hc)
  rintro (err | rotation) w₁ hr
  · exact hr
  · exact maintains_bind hr.2 (fun _ => maintains_pure _) w₁ hr.1

/-- Every operation keeps the stages listed. -/
theorem wp_perform_listed (rt : Runtime) (a : Action) (henc : w.value.Encodable) (hw : w.Listed) :
    wp E (a.perform rt) (fun _ w' => w'.Listed) (fun w' => MayCrash E ∧ w'.Listed) w := by
  have htransition : ∀ {β : Type} {fn : State → Op (Change World Event β)} {w : World},
      KeepsRoutes E World.Listed fn → w.value.Encodable → w.Listed →
      wp E (worldStore.transition (some fn)) (fun _ w' => w'.Listed)
        (fun w' => MayCrash E ∧ w'.Listed) w := by
    intro β fn w hfn henc hw
    exact hfn.wp_transition henc hw (fun _ _ h => h) (fun _ hc h => ⟨hc, h⟩) fun _ _ _ h _ _ _ => h
  cases a with
  | rotateIdentity confirmation => exact wp_discard (maintains_listed_rotateIdentity rt _ w hw)
  | createDevice name =>
    exact wp_discard (htransition (keepsRoutes_createDeviceChange admitsTor_listed name) henc hw)
  | acknowledgeDevice id => exact htransition (keepsRoutes_acknowledgeChange admitsTor_listed id) henc hw
  | revokeDevice id => exact htransition (keepsRoutes_revokeChange admitsTor_listed id) henc hw
  | setPublication enabled =>
    exact htransition (keepsRoutes_publicationChange admitsTor_listed rt enabled) henc hw
  | expirePending =>
    refine wp_bind (wp_bind (wp_get (wp_pure ?_)))
    rw [either_ok]
    split
    next => exact wp_pure hw
    next =>
      refine wp_bind (wp_now fun d => ?_)
      rw [either_ok]
      split
      · exact wp_pure hw
      · exact htransition (keepsRoutes_expireChange admitsTor_listed) henc hw

/-- A restart keeps the stages listed. -/
theorem maintains_listed_restart (rt : Runtime) :
    Maintains E (MayCrash E) World.Listed rt.restart := by
  unfold Runtime.restart openStore
  refine maintains_bind (maintains_bind maintains_get fun _ => ?_) fun _ => ?_
  · split
    · exact maintains_fail _
    · exact maintains_modify fun _ hw => hw
  refine maintains_bind (maintains_bind maintains_get fun _ => maintains_pure _) fun current => ?_
  unfold prepareTor
  refine maintains_bind (maintains_ensure (fun w d hw => hw.setDir fun _ hn => nomatch hn) _)
    fun _ => ?_
  refine maintains_bind (maintains_recoverIdentity admitsMoves_listed trivial trivial trivial
    (fun _ => trivial) _) fun _ => ?_
  exact maintains_bind (maintains_reconcile admitsTor_listed.auth _ _)
    fun _ => maintains_writeConfig admitsTor_listed _ _

end Listed

/-! ## Recovery -/

/-- What `Ensure` and `RecoverIdentity` do when they succeed and the file system does not fail. -/
theorem wp_recovery {E : Event → Prop} {p : Paths} {id : String} {w : World} (hid : id ≠ "")
    (h : Kept id w) (hdisk : ¬ DiskMayFail E) :
    wp E (do p.ensure .active; recoverIdentity id)
      (either (fun _ w' => Holds w' .active id ∧ Swept E id w w') fun _ _ => True)
      (fun _ => True) w := by
  refine wp_bind (wp_ensure (fun _ _ => trivial)
    (fun _ _ => ⟨fun _ => trivial, fun _ _ => trivial⟩) ?_)
  -- a new active directory has no host name either
  have hread : readServiceID ((ensuredAuth .active w).dirs .active) = .ok id ↔
      readServiceID (w.dirs .active) = .ok id := by
    cases hd : w.dirs .active with
    | none => simp [ensuredAuth, hd, readServiceID, HsDir.empty]
    | some d => simp [ensuredAuth, hd, readServiceID_auth]
  refine wp_recoverIdentity hid h.ensuredAuth (by simp [ensuredAuth]) ?_ (fun _ _ _ _ => trivial)
    fun _ _ _ => trivial
  intro w' hholds hswept
  refine ⟨hholds, hswept.previous, ?_, ?_, ?_⟩
  · exact fun hd n hn => hswept.stages hd n (by simpa [ensuredAuth, World.setDir] using hn)
  · intro heq
    rw [hswept.kept (hread.mpr heq)]
    simp [ensuredAuth]
  · exact fun hne => hswept.failed fun heq => hne (hread.mp heq)

namespace Host

variable {rt : Runtime} {h h' : Host}

/-- The runs in which no call of the file system fails, from a host whose stages are listed. The
process may die at every interaction. -/
abbrev CrashRun (rt : Runtime) : List Step → Host → Prop :=
  Run (fun h => h.Initial ∧ h.world.Listed) fun h l h' =>
    (∀ i, (l.env i).disk.fails = false ∧ (l.env i).undoDisk.fails = false) ∧ h.step rt l = some h'

/-- One step keeps the stages listed. -/
theorem listed_step (hs : Standing True h) (hw : h.world.Listed) {l : Step}
    (hstep : h.step rt l = some h') : h'.world.Listed := by
  cases l with
  | perform a env =>
    simp only [Host.step] at hstep
    split at hstep
    next => cases hstep
    next hrunning =>
      have hend := (wp_perform_listed (E := fun _ => True) rt a
        (hs.steady (by simpa using hrunning)).encodableValue hw).at env 0 fun _ => trivial
      rcases hrun : (a.perform rt).run env 0 h.world with ⟨o, w, n⟩
      rw [hrun] at hstep hend
      cases o <;> cases hstep
      · exact hend
      · exact hend
      · exact hend.2
  | restart env =>
    simp only [Host.step] at hstep
    have hend := (maintains_listed_restart (E := fun _ => True) rt h.world hw).at env 0
      fun _ => trivial
    rcases hrun : rt.restart.run env 0 h.world with ⟨o, w, n⟩
    rw [hrun] at hstep hend
    cases o <;> cases hstep
    · exact hend
    · exact hend
    · exact hend.2

/-- Wherever a run has left the host: when `Ensure` and `RecoverIdentity` succeed, the active
directory holds the keys of the durable identity, and no other directory holds any keys exactly if
the directory of a failed identity held none or the active one did not have the durable host
name. -/
theorem keys_left_iff {ls : List Step} (r : CrashRun rt ls h) {env : ℕ → Event}
    (henv : ∀ i, (env i).disk.fails = false) {w : World} {n : ℕ}
    (hrun : (do rt.tor.ensure .active; recoverIdentity h.world.durable.serviceID : Op Unit).run
      env 0 h.world = (.ok (), w, n)) :
    w.keysAt .active = some h.world.durable.serviceID ∧
      ((∀ p, p ≠ .active → w.keysAt p = none) ↔ h.world.keysAt .failed = none ∨
        readServiceID (h.world.dirs .active) ≠ .ok h.world.durable.serviceID) := by
  have hinv : Standing True h ∧ h.world.Listed :=
    Run.invariant (I := fun _ h => Standing True h ∧ h.world.Listed)
      (fun h h₀ => ⟨h₀.1.standing, h₀.2⟩)
      (fun _ _ _ _ hs hl => ⟨hs.1.step_reliable hl.1 hl.2, listed_step hs.1 hs.2 hl.2⟩) r
  have hdisk : ¬ DiskMayFail fun e => e.disk.fails = false := by
    rintro ⟨e, he, hf⟩
    rw [he] at hf
    cases hf
  have hend := (wp_recovery (p := rt.tor) hinv.1.grounded.named hinv.1.grounded.kept hdisk).at env 0
    henv
  rw [hrun] at hend
  obtain ⟨hholds, hswept⟩ :
      Holds w .active _ ∧ Swept (fun e => e.disk.fails = false) _ h.world w := hend
  obtain ⟨d, hd, hsound⟩ := hholds
  refine ⟨by simp [World.keysAt, hd, hsound.keys], ?_⟩
  have hothers : (∀ p, p ≠ .active → w.keysAt p = none) ↔ w.keysAt .failed = none := by
    refine ⟨fun hall => hall _ (by simp), fun hfailed p hp => ?_⟩
    cases p with
    | active => exact absurd rfl hp
    | previous => simp [World.keysAt, hswept.previous]
    | failed => exact hfailed
    | stage n =>
      -- a stage is removed, or there was none
      have hnone := hswept.stages hdisk n (Classical.or_iff_not_imp_right.mpr (hinv.2 n))
      simp [World.keysAt, hnone]
  rw [hothers]
  by_cases hread : readServiceID (h.world.dirs .active) = .ok h.world.durable.serviceID
  · have hkept : w.keysAt .failed = h.world.keysAt .failed := by
      rw [World.keysAt, hswept.kept hread, World.keysAt]
    rw [hkept]
    exact ⟨.inl, fun hor => hor.resolve_right (not_not.mpr hread)⟩
  · have hgone : w.keysAt .failed = none := by simp [World.keysAt, hswept.failed hread]
    exact ⟨fun _ => .inr hread, fun _ => hgone⟩

theorem sample_listed : sample.world.Listed := by
  intro n hn
  exact absurd rfl hn

/-- Nothing is left of the rotation of the sample system that died between its renames. -/
theorem halfActivated_keys_left : ∃ h, CrashRun sampleRuntime [halfActivated] h ∧
    ∃ w n, (do sampleRuntime.tor.ensure .active; recoverIdentity h.world.durable.serviceID
      : Op Unit).run (fun _ => Event.calm) 0 h.world = (.ok (), w, n) ∧
      ∀ p, p ≠ .active → w.keysAt p = none := by
  have heval : (replay (Host.step sampleRuntime) sample [halfActivated]).any (fun h =>
      ((do sampleRuntime.tor.ensure .active; recoverIdentity h.world.durable.serviceID
        : Op Unit).run (fun _ => Event.calm) 0 h.world).1.isOk &&
      (h.world.keysAt .failed).isNone) = true := by
    decide +kernel
  obtain ⟨h, hreplay, hok⟩ := (Option.any_eq_true _ _).mp heval
  rw [Bool.and_eq_true, Option.isNone_iff_eq_none] at hok
  have r : CrashRun sampleRuntime [halfActivated] h := by
    refine .of_replay_labels ⟨initial_sample, sample_listed⟩ ?_ hreplay
    rintro _ (_ | ⟨_, ⟨⟩⟩) s s' hstep
    exact ⟨reliable_rotation 'b' fun _ _ => ⟨rfl, rfl⟩, hstep⟩
  rcases hrun : (do sampleRuntime.tor.ensure .active; recoverIdentity h.world.durable.serviceID
    : Op Unit).run (fun _ => Event.calm) 0 h.world with ⟨o, w, n⟩
  rw [hrun] at hok
  cases o with
  | ok _ => exact ⟨h, r, w, n, hrun, (keys_left_iff r (fun _ => rfl) hrun).2.mpr (.inl hok.2)⟩
  | error e => exact nomatch hok.1
  | crash => exact nomatch hok.1

/-- A rotation that dies when both directories have been moved, and a restart that dies when
`RecoverIdentity` has moved them back; the newest first. -/
def leftTrace : List Step :=
  [.restart fun i => { Event.calm with crash := i == 9 },
    rotation 'b' fun i e => { e with crash := i == 19 }]

/-- After `leftTrace` the next restart leaves the keys of the new identity in the directory of the
failed identity. -/
theorem leftTrace_keys_left : ∃ h, CrashRun sampleRuntime leftTrace h ∧
    ∃ w n, (do sampleRuntime.tor.ensure .active; recoverIdentity h.world.durable.serviceID
      : Op Unit).run (fun _ => Event.calm) 0 h.world = (.ok (), w, n) ∧
      w.keysAt .failed = some (sampleAddress 'b') := by
  have heval : (replay (Host.step sampleRuntime) sample leftTrace).any (fun h =>
      let end_ := (do sampleRuntime.tor.ensure .active; recoverIdentity h.world.durable.serviceID
        : Op Unit).run (fun _ => Event.calm) 0 h.world
      end_.1.isOk && end_.2.1.keysAt .failed == some (sampleAddress 'b')) = true := by
    decide +kernel
  obtain ⟨h, hreplay, hok⟩ := (Option.any_eq_true _ _).mp heval
  have r : CrashRun sampleRuntime leftTrace h := by
    refine .of_replay_labels ⟨initial_sample, sample_listed⟩ ?_ hreplay
    rintro _ (_ | ⟨_, _ | ⟨_, ⟨⟩⟩⟩) s s' hstep
    · exact ⟨fun _ => ⟨rfl, rfl⟩, hstep⟩
    · exact ⟨reliable_rotation 'b' fun _ _ => ⟨rfl, rfl⟩, hstep⟩
  rcases hrun : (do sampleRuntime.tor.ensure .active; recoverIdentity h.world.durable.serviceID
    : Op Unit).run (fun _ => Event.calm) 0 h.world with ⟨o, w, n⟩
  rw [hrun] at hok
  obtain ⟨hok, hkeys⟩ := Bool.and_eq_true_iff.mp hok
  cases o with
  | ok _ => exact ⟨h, r, w, n, hrun, beq_iff_eq.mp hkeys⟩
  | error e => exact nomatch hok
  | crash => exact nomatch hok

end Host

end Torkitten
