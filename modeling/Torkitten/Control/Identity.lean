import Torkitten.Control.Manager
import Torkitten.Tor.Staging

/-!
# The identity through a rotation

A rotation keeps the durable identity at every point where the process may die, if it starts when
the active directory holds that identity. When the file system does not fail, the active directory
holds the durable identity again at its end, whether the rotation succeeds or not.
-/

namespace Torkitten

open Proc Tor

/-- What survives the process: the durable state and a directory with its identity. -/
structure Grounded (w : World) : Prop where
  kept : Kept w.durable.serviceID w
  used : w.durable.serviceID ∈ w.used
  named : w.durable.serviceID ≠ ""
  valid : w.durable.Valid
  encodable : w.durable.Encodable

/-- What holds between two operations of a running process. When the file system is reliable, as
`ok` says, the active directory is the one that holds the identity. -/
structure Steady (ok : Prop) (w : World) : Prop extends Grounded w where
  active : ok → Holds w .active w.durable.serviceID
  synced : ∃ b, w.value = { w.durable with bootstrap := b }
  encodableValue : w.value.Encodable

/-- No file-system call fails, be it to undo something or not. -/
structure Reliable (E : Event → Prop) : Prop where
  disk : ¬ DiskMayFail E
  undo : ¬ DiskMayFail (undone E)

/-- The part of the system that a rotation changes only by its moves. -/
def World.ground (w : World) : State × State × List String × (HsPath → Option HsDir) :=
  (w.durable, w.value, w.used, w.dirs)

/-- The part of the system that no move of a directory changes. -/
def World.stores (w : World) : State × State × List String := (w.durable, w.value, w.used)

theorem ignoresServices_ground : IgnoresServices World.ground where
  restarted c w := by cases c <;> rfl
  loaded _ _ := rfl
  denied _ _ := rfl
  fresh _ _ := rfl
  authConfig _ _ := rfl
  clientID _ _ := rfl

theorem ignoresServices_stores : IgnoresServices World.stores where
  restarted c w := by cases c <;> rfl
  loaded _ _ := rfl
  denied _ _ := rfl
  fresh _ _ := rfl
  authConfig _ _ := rfl
  clientID _ _ := rfl

theorem ignores_stores : Ignores World.stores (fun _ => True) where
  dir _ _ _ _ := rfl
  erased _ _ _ := rfl
  inserted _ _ _ _ := rfl

theorem dirs_of_ground {w w' : World} (h : w'.ground = w.ground) : w'.dirs = w.dirs :=
  congrArg (fun x => x.2.2.2) h

section Rotation

variable {E : Event → Prop} {ok : Prop} {id new : String} {w : World}

/-- Where a failed rotation leaves the identity. -/
def Unharmed (ok : Prop) (id : String) (w : World) : Prop :=
  Kept id w ∧ (ok → Holds w .active id)

/-- The identities have changed places. -/
def Switched (id new : String) (w : World) : Prop :=
  Holds w .active new ∧ Holds w .previous id ∧ new ≠ id

theorem Unharmed.of_active (h : Holds w .active id) : Unharmed ok id w := ⟨.of_active h, fun _ => h⟩

theorem Switched.kept (h : Switched id new w) : Kept id w := .of_previous h.2.1 (.inr ⟨h.1, h.2.2⟩)

theorem Switched.of_dirs {w' : World} (h : Switched id new w) (hdirs : w'.dirs = w.dirs) :
    Switched id new w' :=
  ⟨h.1.of_dirs (by rw [hdirs]), h.2.1.of_dirs (by rw [hdirs]), h.2.2⟩

theorem Unharmed.of_dirs {w' : World} (h : Unharmed ok id w)
    (hactive : w'.dirs .active = w.dirs .active) (hprevious : w'.dirs .previous = w.dirs .previous) :
    Unharmed ok id w' :=
  ⟨h.1.of_dirs hactive hprevious, fun hok => (h.2 hok).of_dirs hactive⟩

/-- Unless the directories have been moved, a rollback touches neither of them. -/
theorem wp_rollback_none (rt : Runtime) (current : State) (stage : IdentityStage)
    (authRestarted : Bool) (h : Unharmed ok id w) :
    wp E (rt.rollback current stage none authRestarted) (fun _ w' => Unharmed ok id w')
      (fun w' => MayCrash E ∧ Kept id w') w := by
  let f : World → Option HsDir × Option HsDir := fun w => (w.dirs .active, w.dirs .previous)
  have hf : Ignores f (fun p => p ≠ .active ∧ p ≠ .previous) :=
    ⟨fun w p d hp => by simp [f, hp.1.symm, hp.2.symm], fun _ _ _ => rfl, fun _ _ _ _ => rfl⟩
  have hservices : IgnoresServices f :=
    ⟨fun c w => by cases c <;> rfl, fun _ _ => rfl, fun _ _ => rfl, fun _ _ => rfl, fun _ _ => rfl,
      fun _ _ => rfl⟩
  have hkeeps : Keeps E (MayCrash E) f (rt.rollback current stage none authRestarted) := by
    unfold Runtime.rollback
    apply keeps_undoing
    refine keeps_bind (keeps_ignore (keeps_removeAll hf (by simp))) fun _ => ?_
    refine keeps_bind (keeps_pure none) fun _ => ?_
    refine keeps_bind (hservices.keeps_restoreServices rt _ _ _) fun _ => ?_
    split
    · exact keeps_pure ()
    · exact keeps_fail _
  have hsame : ∀ w', f w' = f w → Unharmed ok id w' := fun w' hw' =>
    h.of_dirs (congrArg Prod.fst hw') (congrArg Prod.snd hw')
  exact hkeeps.step (fun _ => hsame) fun hc w' hw' => ⟨hc, (hsame w' hw').1⟩

/-- After the directories have been moved, a rollback exchanges them again. -/
theorem wp_rollback_some (hok : ok → Reliable E) (rt : Runtime) (current : State)
    (stage : IdentityStage) (authRestarted : Bool) (h : Switched id new w) :
    wp E (rt.rollback current stage (some .previous) authRestarted)
      (fun _ w' => Unharmed ok id w') (fun w' => MayCrash E ∧ Kept id w') w := by
  unfold Runtime.rollback
  apply wp_undoing
  -- removing the stage touches neither directory
  have hstage : ∀ w' : World, (∀ p, p ≠ .stage stage.root → w'.dirs p = w.dirs p) →
      Switched id new w' := fun w' hw' =>
    ⟨h.1.of_dirs (hw' _ (by simp)), h.2.1.of_dirs (hw' _ (by simp)), h.2.2⟩
  have hremoved : wp (undone E) (ignore (removeAll (.stage stage.root)))
      (fun r w' => r = .ok () ∧ Switched id new w') (fun w' => MayCrash E ∧ Kept id w') w := by
    apply wp_ignore
    apply wp_removeAll
    · exact fun hc keeps => ⟨mayCrash_undone.mp hc,
        (hstage _ fun p hp => dirs_partlyRemoved hp keeps).kept⟩
    · exact fun _ keeps => ⟨rfl, hstage _ fun p hp => dirs_partlyRemoved hp keeps⟩
    · exact ⟨rfl, hstage _ fun p hp => by rw [dirs_removed, if_neg hp]⟩
  have hexchange : ∀ w₁ : World, Switched id new w₁ →
      wp (undone E) (failureIf true (restoreIdentity .previous))
        (fun r w' => (∃ identityErr, r = .ok identityErr) ∧ Unharmed ok id w')
        (fun w' => MayCrash E ∧ Kept id w') w₁ := by
    intro w₁ h₁
    obtain ⟨d, hd, hsound⟩ := h₁.2.1
    have hbackup : ∀ w' : World, w'.dirs .previous = some d →
        (w'.dirs .active = w₁.dirs .active ∨ w'.dirs .active = none) → Kept id w' := by
      intro w' hp ha
      exact .of_previous ⟨d, hp, hsound⟩
        (ha.symm.imp_right fun ha => ⟨h₁.1.of_dirs ha, h₁.2.2⟩)
    have hnotNone : w₁.dirs .active ≠ none := by
      obtain ⟨d', hd', _⟩ := h₁.1
      rw [hd']
      exact Option.some_ne_none d'
    apply wp_failure
    change wp (undone E) exchange _ _ w₁
    apply wp_exchange hd
    · intro hwhy err w' hp ha
      refine ⟨⟨_, rfl⟩, hbackup w' hp ha, fun hE => ?_⟩
      exact absurd (hwhy.resolve_right hnotNone) (hok hE).undo
    · exact fun _ err w' ha _ => ⟨⟨_, rfl⟩, .of_active ⟨d, ha, hsound⟩⟩
    · exact fun w' ha _ _ => ⟨⟨_, rfl⟩, .of_active ⟨d, ha, hsound⟩⟩
    · rintro w' hc (⟨hp, ha⟩ | ha)
      · exact ⟨mayCrash_undone.mp hc, hbackup w' hp ha⟩
      · exact ⟨mayCrash_undone.mp hc, .of_active ⟨d, ha, hsound⟩⟩
  refine wp_bind (wp_mono hremoved ?_ fun _ hw' => hw')
  rintro _ w₁ ⟨rfl, h₁⟩
  refine wp_bind (wp_mono (hexchange w₁ h₁) ?_ fun _ hw' => hw')
  rintro _ w' ⟨⟨identityErr, rfl⟩, hw'⟩
  -- what follows the exchange does not touch the directories
  have hmoved : ∀ w'' : World, w''.ground = w'.ground → Unharmed ok id w'' := fun w'' hw'' =>
    ⟨hw'.1.of_dirs (by rw [dirs_of_ground hw'']) (by rw [dirs_of_ground hw'']),
      fun hok => (hw'.2 hok).of_dirs (by rw [dirs_of_ground hw''])⟩
  refine (ignoresServices_ground.keeps_restoreServices rt _ _ _).bind
    (fun _ w'' hw'' => hmoved w'' hw'')
    (fun hc w'' hw'' => ⟨mayCrash_undone.mp hc, (hmoved w'' hw'').1⟩) fun errs w'' hw'' => ?_
  split
  · exact wp_pure (hmoved w'' hw'')
  · exact wp_fail (hmoved w'' hw'')

/-- The steps that follow the staging leave the identities unharmed or switched. -/
theorem wp_switchIdentity (hok : ok → Reliable E) (rt : Runtime) (current candidate : State)
    (stage : IdentityStage) (hactive : Holds w .active id) (hstage : Holds w (.stage stage.root) new)
    (hne : new ≠ id) :
    wp E (rt.switchIdentity current candidate stage)
      (either (fun backup w' => backup = .previous ∧ Switched id new w')
        fun _ w' => Unharmed ok id w')
      (fun w' => MayCrash E ∧ Kept id w') w := by
  have hservices := ignoresServices_ground
  -- a step that fails before or after the directories are moved
  have hundo₁ : ∀ {β : Type} {Q : Except GoError β → World → Prop} (err : GoError) (w' : World),
      (∀ err w', Unharmed ok id w' → Q (.error err) w') → Unharmed ok id w' →
      Store.Undone E Q (fun w' => MayCrash E ∧ Kept id w')
        (some (rt.rollback current stage none false)) err w' := fun err w' hQ h =>
    .of_wp (wp_rollback_none rt current stage false h) hQ err
  have hundo₂ : ∀ (auth : Bool) {β : Type} {Q : Except GoError β → World → Prop} (err : GoError)
      (w' : World), (∀ err w', Unharmed ok id w' → Q (.error err) w') → Switched id new w' →
      Store.Undone E Q (fun w' => MayCrash E ∧ Kept id w')
        (some (rt.rollback current stage (some .previous) auth)) err w' := fun auth β Q err w' hQ h =>
    .of_wp (wp_rollback_some hok rt current stage auth h) hQ err
  have hbefore : ∀ w' : World, w'.dirs = w.dirs → Unharmed ok id w' := fun w' hw' =>
    .of_active (hactive.of_dirs (by rw [hw']))
  dsimp only [Runtime.switchIdentity]
  -- before the activation every step keeps the directories
  refine Store.wp_orUndo_bind (hservices.keeps_load rt _)
    (fun err w' hw' => hundo₁ err w' (fun _ _ h => h) (hbefore w' (dirs_of_ground hw')))
    (fun hc w' hw' => ⟨hc, (hbefore w' (dirs_of_ground hw')).1⟩) fun _ w₁ hw₁ => ?_
  refine Store.wp_orUndo_bind
    (keeps_bind (hservices.keeps_writeAuthConfig rt _) fun _ => keeps_authelia_validate)
    (fun err w' hw' => hundo₁ err w' (fun _ _ h => h)
      (hbefore w' (dirs_of_ground (hw'.trans hw₁))))
    (fun hc w' hw' => ⟨hc, (hbefore w' (dirs_of_ground (hw'.trans hw₁))).1⟩) fun _ w₂ hw₂ => ?_
  have hdirs₂ := dirs_of_ground (hw₂.trans hw₁)
  have hactive₂ : Holds w₂ .active id := hactive.of_dirs (by rw [hdirs₂])
  have hstage₂ : Holds w₂ (.stage stage.root) new := hstage.of_dirs (by rw [hdirs₂])
  obtain ⟨d, hd, hsound⟩ := hactive₂
  obtain ⟨ds, hds, hsounds⟩ := hstage₂
  -- between the renames the active directory is missing
  have hmissing : ∀ w' : World, w'.dirs .active = none → w'.dirs .previous = some d → Kept id w' :=
    fun w' ha hp => .of_missing ⟨d, hp, hsound⟩ ha
  refine wp_bind (Store.wp_orUndo (wp_activateIdentity hd hds ?_ ?_ ?_ ?_))
  · exact fun err w' ha => hundo₁ err w' (fun _ _ h => h) (.of_active ⟨d, ha, hsound⟩)
  · exact fun hf err w' ha hp => hundo₁ err w' (fun _ _ h => h)
      ⟨hmissing w' ha hp, fun h => absurd hf (hok h).undo⟩
  rotate_left
  · rintro w' hc (ha | ⟨ha | ha, hp⟩)
    · exact ⟨hc, .of_active ⟨d, ha, hsound⟩⟩
    · exact ⟨hc, hmissing w' ha hp⟩
    · exact ⟨hc, .of_previous ⟨d, hp, hsound⟩ (.inr ⟨⟨ds, ha, hsounds⟩, hne⟩)⟩
  -- after it they are switched, and stay so
  intro w₃ ha hp _
  have h₃ : Switched id new w₃ := ⟨⟨ds, ha, hsounds⟩, ⟨d, hp, hsound⟩, hne⟩
  have hafter : ∀ w' : World, w'.ground = w₃.ground → Switched id new w' := fun w' hw' =>
    h₃.of_dirs (dirs_of_ground hw')
  refine Store.wp_orUndo_bind (hservices.keeps_restart .tor)
    (fun err w' hw' => hundo₂ false err w' (fun _ _ h => h) (hafter w' hw'))
    (fun hc w' hw' => ⟨hc, (hafter w' hw').kept⟩) fun _ w₄ hw₄ => ?_
  refine wp_bind (wp_modify ?_)
  let w₅ : World := { w₄ with clientID := candidate.serviceID }
  have hw₅ : w₅.ground = w₃.ground := hw₄
  refine Store.wp_orUndo_bind (hservices.keeps_restart .authelia)
    (fun err w' hw' => hundo₂ true err w' (fun _ _ h => h) (hafter w' (hw'.trans hw₅)))
    (fun hc w' hw' => ⟨hc, (hafter w' (hw'.trans hw₅)).kept⟩) fun _ w₆ hw₆ => ?_
  refine Store.wp_orUndo_bind (hservices.keeps_load rt _)
    (fun err w' hw' => hundo₂ true err w' (fun _ _ h => h)
      (hafter w' (hw'.trans (hw₆.trans hw₅))))
    (fun hc w' hw' => ⟨hc, (hafter w' (hw'.trans (hw₆.trans hw₅))).kept⟩) fun _ w₇ hw₇ => ?_
  exact wp_pure ⟨rfl, hafter w₇ (hw₇.trans (hw₆.trans hw₅))⟩

/-! ### Frames -/

section Frames

variable {τ : Type} {f : World → τ} {I : World → Prop} {P : HsPath → Prop} (h : AdmitsMoves I P)
  (hs : IgnoresServices f) (hf : ∀ w w', f w' = f w → I w → I w') (hactive : P .active)
  (hprevious : P .previous) (hfailed : P .failed) {stage : IdentityStage}
  (hstage : P (.stage stage.root))

include h hs hf hactive hprevious hfailed hstage

theorem maintains_rollback (rt : Runtime) (current : State) (backup : Option HsPath)
    (authRestarted : Bool) :
    Maintains E (MayCrash E) I (rt.rollback current stage backup authRestarted) := by
  unfold Runtime.rollback
  apply maintains_undoing
  refine maintains_bind (maintains_ignore (maintains_removeAll h hstage)) fun _ => ?_
  refine maintains_bind (maintains_failureIf ?_) fun _ => ?_
  · unfold restoreIdentity
    split
    · exact maintains_fail _
    · exact maintains_exchange h hactive hprevious hfailed
  refine maintains_bind ((hs.keeps_restoreServices rt _ _ _).maintains hf) fun _ => ?_
  split
  · exact maintains_pure ()
  · exact maintains_fail _

theorem maintains_switchIdentity (rt : Runtime) (current candidate : State) :
    Maintains E (MayCrash E) I (rt.switchIdentity current candidate stage) := by
  have hr := fun b a => maintains_rollback (E := E) h hs hf hactive hprevious hfailed hstage rt
    current b a
  -- a step that touches no directory
  have hstep : ∀ {step : Op Unit}, Keeps E (MayCrash E) f step → ∀ b a,
      Maintains E (MayCrash E) I (Store.orUndo (rt.rollback current stage b a) step) :=
    fun hstep b a => Store.maintains_orUndo (hstep.maintains hf) (hr b a)
  dsimp only [Runtime.switchIdentity]
  refine maintains_bind (hstep (hs.keeps_load rt _) _ _) fun _ => ?_
  refine maintains_bind (hstep
    (keeps_bind (hs.keeps_writeAuthConfig rt _) fun _ => keeps_authelia_validate) _ _) fun _ => ?_
  refine maintains_bind (Store.maintains_orUndo
    (maintains_activateIdentity h hactive hprevious hstage _) (hr _ _)) fun _ => ?_
  refine maintains_bind (hstep (hs.keeps_restart _) _ _) fun _ => ?_
  refine maintains_bind ((hs.keeps_setServiceID _).maintains hf) fun _ => ?_
  refine maintains_bind (hstep (hs.keeps_restart _) _ _) fun _ => ?_
  exact maintains_bind (hstep (hs.keeps_load rt _) _ _) fun _ => maintains_pure _

end Frames

section Frames

variable {τ : Type} {f : World → τ} {P : HsPath → Prop} (h : Ignores f P) (hs : IgnoresServices f)
  (hactive : P .active) (hprevious : P .previous) (hfailed : P .failed) {stage : IdentityStage}
  (hstage : P (.stage stage.root))

include h hs hactive hprevious hfailed hstage

theorem keeps_rollback (rt : Runtime) (current : State) (backup : Option HsPath)
    (authRestarted : Bool) :
    Keeps E (MayCrash E) f (rt.rollback current stage backup authRestarted) := fun x =>
  maintains_rollback (h.admitsMoves x) hs (fun _ _ hw hx => hw.trans hx) hactive hprevious hfailed
    hstage rt current backup authRestarted

theorem keeps_switchIdentity (rt : Runtime) (current candidate : State) :
    Keeps E (MayCrash E) f (rt.switchIdentity current candidate stage) := fun x =>
  maintains_switchIdentity (h.admitsMoves x) hs (fun _ _ hw hx => hw.trans hx) hactive hprevious
    hfailed hstage rt current candidate

end Frames

/-- The stores are changed neither by a rollback nor by the steps it undoes. -/
theorem keeps_stores_rollback (rt : Runtime) (current : State) (stage : IdentityStage)
    (backup : Option HsPath) (authRestarted : Bool) :
    Keeps E (MayCrash E) World.stores (rt.rollback current stage backup authRestarted) :=
  keeps_rollback ignores_stores ignoresServices_stores trivial trivial trivial trivial rt _ _ _

theorem keeps_stores_switchIdentity (rt : Runtime) (current candidate : State)
    (stage : IdentityStage) :
    Keeps E (MayCrash E) World.stores (rt.switchIdentity current candidate stage) :=
  keeps_switchIdentity ignores_stores ignoresServices_stores trivial trivial trivial trivial rt _ _

/-- What a rotation leaves that reaches its end: the new identity is active, the old one is its
backup, and the rollback can exchange them. -/
structure Rotated (rt : Runtime) (current : State) (id : String) (rotation : Rotation)
    (w' : World) : Prop where
  switched : Switched id rotation.candidate.serviceID w'
  used : rotation.candidate.serviceID ∈ w'.used
  named : rotation.candidate.serviceID ≠ ""
  rollback : ∃ stage, rotation.rollback = rt.rollback current stage (some .previous) true
  finish : rotation.finish = ignore (finishIdentity .previous)

/-- The stores are as before; addresses may have been used. -/
def SameStores (w w' : World) : Prop :=
  w'.durable = w.durable ∧ w'.value = w.value ∧ w.used ⊆ w'.used

theorem sameStores_of_outside {n : ℕ} {w' : World} (h : w'.outside n = w.outside n)
    (hused : w.used ⊆ w'.used) : SameStores w w' := by
  have hdurable : (w'.outside n).durable = (w.outside n).durable := congrArg World.durable h
  have hvalue : (w'.outside n).value = (w.outside n).value := congrArg World.value h
  exact ⟨hdurable, hvalue, hused⟩

theorem dirs_of_outside {n : ℕ} {p : HsPath} {w' : World} (h : w'.outside n = w.outside n)
    (hp : p ≠ .stage n) : w'.dirs p = w.dirs p := by
  have hdirs := congrFun (congrArg World.dirs h) p
  simpa [World.outside, hp] using hdirs

theorem SameStores.of_stores {w' w'' : World} (h : SameStores w w') (hw : w''.stores = w'.stores) :
    SameStores w w'' := by
  have hdurable : w''.durable = w'.durable := congrArg (fun x => x.1) hw
  have hvalue : w''.value = w'.value := congrArg (fun x => x.2.1) hw
  have hused : w''.used = w'.used := congrArg (fun x => x.2.2) hw
  exact ⟨hdurable.trans h.1, hvalue.trans h.2.1, hused ▸ h.2.2⟩

theorem wp_rotate (hok : ok → Reliable E) (rt : Runtime) (current : State)
    (hactive : Holds w .active id) (hid : id ∈ w.used) :
    wp E (rt.rotate current)
      (either (fun rotation w' => SameStores w w' ∧ Rotated rt current id rotation w')
        fun _ w' => SameStores w w' ∧ Unharmed ok id w')
      (fun w' => MayCrash E ∧ SameStores w w' ∧ Kept id w') w := by
  have hstart : SameStores w w := ⟨rfl, rfl, List.Subset.refl _⟩
  -- while the stage is filled, the two directories stay
  have hstaged : ∀ n (w' : World), Staged n w w' → SameStores w w' ∧ Unharmed ok id w' := by
    intro n w' h
    exact ⟨sameStores_of_outside h.outside h.used,
      .of_active (hactive.of_dirs (dirs_of_outside h.outside (by simp)))⟩
  unfold Runtime.rotate
  refine (keeps_generateKeys (f := fun w => w) _).bind ?_ ?_ fun keys w₁ hw₁ => ?_
  · rintro _ w' rfl
    exact ⟨hstart, .of_active hactive⟩
  · rintro hc w' rfl
    exact ⟨hc, hstart, .of_active hactive⟩
  cases hw₁
  refine wp_bind (wp_stageIdentity _ _ ?_ ?_ ?_ ?_)
  · exact fun err => ⟨hstart, .of_active hactive⟩
  rotate_left
  · exact fun n err w' h _ => hstaged n w' h
  · rintro w' hc (rfl | ⟨n, h⟩)
    · exact ⟨hc, hstart, .of_active hactive⟩
    · exact ⟨hc, (hstaged n w' h).1, (hstaged n w' h).2.1⟩
  intro stage w₂ h₂ hfresh hused hholds _
  have hsame₂ := (hstaged _ w₂ h₂).1
  have hactive₂ : Holds w₂ .active id := hactive.of_dirs (dirs_of_outside h₂.outside (by simp))
  have hne : stage.serviceID ≠ id := fun h => hfresh (h ▸ hid)
  dsimp only [either_ok]
  split
  next err _ =>
    -- the credentials are refused: the stage is removed
    let f : World → World × List String := fun w => (w.outside stage.root, w.used)
    have hf : Ignores f (fun p => p = .stage stage.root) := by
      have h := ignores_outside stage.root
      exact ⟨fun w p d hp => Prod.ext (h.dir w p d hp) rfl,
        fun w n hn => Prod.ext (h.erased w n hn) rfl,
        fun w n torrc hn => Prod.ext (h.inserted w n torrc hn) rfl⟩
    have hremoved : ∀ w', f w' = f w₂ → SameStores w w' ∧ Unharmed ok id w' := by
      intro w' hw'
      have hused' : w'.used = w₂.used := congrArg Prod.snd hw'
      exact hstaged _ w' ⟨h₂.fresh, (congrArg Prod.fst hw').trans h₂.outside, hused' ▸ h₂.used⟩
    refine (keeps_undoing (keeps_ignore (keeps_removeAll hf rfl))).bind (fun _ => hremoved)
      (fun hc w' hw' => ⟨hc, (hremoved w' hw').1, (hremoved w' hw').2.1⟩) fun _ w' hw' => ?_
    exact wp_fail (hremoved w' hw')
  next credentials _ =>
    refine wp_bind ?_
    apply (keeps_stores_switchIdentity rt _ _ stage).with
    refine wp_mono (wp_switchIdentity hok rt _ _ stage hactive₂ hholds hne) ?_ ?_
    · intro r w' hr hw'
      have hsame := hsame₂.of_stores hw'
      cases r with
      | error err => exact ⟨hsame, hr⟩
      | ok backup =>
        obtain ⟨rfl, hswitched⟩ := hr
        have hused' : w'.used = w₂.used := congrArg (fun x => x.2.2) hw'
        exact wp_pure ⟨hsame, hswitched, hused' ▸ hused, hholds.named, ⟨stage, rfl⟩, rfl⟩
    · exact fun w' hr hw' => ⟨hr.1, hsame₂.of_stores hw', hr.2⟩

/-- A rotation that starts when the active directory has the host name of the durable identity
keeps that identity, or the one it makes durable. -/
theorem wp_rotateIdentity (hok : ok → Reliable E) (rt : Runtime) (confirmation : String)
    (h : Steady ok w) (hread : readServiceID (w.dirs .active) = .ok w.durable.serviceID) :
    wp E (rt.rotateIdentity confirmation) (fun _ w' => Steady ok w')
      (fun w' => MayCrash E ∧ Grounded w') w := by
  have hactive := h.kept.holds_of_read hread
  have hclone : clone w.value = w.value := clone_of_encodable h.encodableValue
  have hgrounded : ∀ w', SameStores w w' → Kept w.durable.serviceID w' → Grounded w' := by
    intro w' hsame hkept
    obtain ⟨hdurable, -, hused⟩ := hsame
    exact ⟨hdurable ▸ hkept, hdurable ▸ hused h.used, hdurable ▸ h.named, hdurable ▸ h.valid,
      hdurable ▸ h.encodable⟩
  have hsteady : ∀ w', SameStores w w' → Unharmed ok w.durable.serviceID w' → Steady ok w' := by
    intro w' hsame hunharmed
    refine ⟨hgrounded w' hsame hunharmed.1, ?_, ?_, ?_⟩
    · rw [hsame.1]
      exact hunharmed.2
    · rw [hsame.1, hsame.2.1]
      exact h.synced
    · rw [hsame.2.1]
      exact h.encodableValue
  unfold Runtime.rotateIdentity
  split
  next => exact wp_fail h
  next =>
    refine wp_bind (wp_worldTransition h.encodableValue ?_)
    unfold Runtime.rotationChange
    rw [hclone]
    split
    next => exact wp_fail h
    next =>
      refine wp_bind (wp_mono (wp_rotate hok rt _ hactive h.used) ?_ ?_)
      rotate_left
      · exact fun w' hw' => ⟨hw'.1, hgrounded w' hw'.2.1 hw'.2.2⟩
      intro r w₁ hr
      cases r with
      | error err => exact hsteady w₁ hr.1 hr.2
      | ok rotation =>
        obtain ⟨hsame, hrotated⟩ := hr
        obtain ⟨stage, hrollback⟩ := hrotated.rollback
        have hback : wp E rotation.rollback (fun _ w' => Steady ok w')
            (fun w' => MayCrash E ∧ Grounded w') w₁ := by
          rw [hrollback]
          apply (keeps_stores_rollback rt _ stage _ _).with
          refine wp_mono (wp_rollback_some hok rt _ stage _ hrotated.switched) ?_ ?_
          · exact fun _ w' hw' hstores => hsteady w' (hsame.of_stores hstores) hw'
          · exact fun w' hw' hstores => ⟨hw'.1, hgrounded w' (hsame.of_stores hstores) hw'.2⟩
        rw [either_ok]
        split
        next err _ =>
          refine wp_bind (wp_ignore (wp_mono hback ?_ fun _ h => h))
          exact fun _ w' hw' => wp_fail hw'
        next =>
          refine wp_pure (wp_worldCommit ?_ ?_ ?_)
          · exact .of_wp hback fun _ _ hw' => hw'
          · exact fun hc => ⟨hc, hgrounded w₁ hsame hrotated.switched.kept⟩
          -- the new identity is durable; its backup may go
          intro _ hvalid hencodable
          have hnew : ∀ w' : World, w'.durable = rotation.candidate → w'.value = rotation.candidate →
              w'.used = w₁.used → w'.dirs .active = w₁.dirs .active → Steady ok w' := by
            intro w' hdurable hvalue hused hdir
            have hholds : Holds w' .active w'.durable.serviceID := by
              rw [hdurable]
              exact hrotated.switched.1.of_dirs hdir
            refine ⟨⟨.of_active hholds, ?_, ?_, hdurable ▸ hvalid, hdurable ▸ hencodable⟩,
              fun _ => hholds, ⟨w'.durable.bootstrap, ?_⟩, hvalue ▸ hencodable⟩
            · rw [hdurable, hused]
              exact hrotated.used
            · rw [hdurable]
              exact hrotated.named
            · rw [hvalue, hdurable]
          let w₂ : World :=
            { w₁ with durable := rotation.candidate, value := rotation.candidate }
          have hpart : ∀ keeps, Steady ok (w₂.partlyRemoved .previous keeps) := fun keeps =>
            hnew _ rfl rfl rfl (dirs_partlyRemoved (by simp) keeps)
          rw [either_ok, show (changed rotation.candidate (some rotation.rollback) rotation).result =
            rotation from rfl, hrotated.finish]
          refine wp_bind (wp_ignore (wp_removeAll ?_ ?_ ?_))
          · exact fun hc keeps => ⟨hc, (hpart keeps).toGrounded⟩
          · exact fun _ keeps => wp_pure (hpart keeps)
          · exact wp_pure (hnew _ rfl rfl rfl (by simp [dirs_removed]))

end Rotation

/-- The sample system holds the identity of its state. -/
theorem holds_sampleWorld : Holds sampleWorld .active sampleOwner.serviceID := by
  refine ⟨sampleService, rfl, ⟨?_, rfl⟩, _, rfl, plainFiles_empty.authorize _ _⟩
  exact readServiceID_hostnameText (by decide) rfl

end Torkitten
