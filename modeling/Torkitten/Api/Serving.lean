import Torkitten.Access.Frames
import Torkitten.Api.Lifecycle
import Torkitten.Control.Rotation

/-!
# Caddy serves the stored state

Of the operations that change the store, Initialize, the mapping operations and the rotation of the
identity load a configuration in Caddy; the others leave alone everything that a configuration
depends on. A load that fails may have taken effect, and Caddy may be restarted at any time, with a
configuration that denies every request. Whatever fails, an operation ends with the configuration of
the state that is stored, unless it reports that its rollback has failed.

## Main results

* `routed_of_caddyRun`: along every run that reports no failed rollback, Caddy serves the stored
  state, or nothing since it was restarted.
-/

namespace Torkitten

open Proc Tor

/-! ## What is served -/

/-- What Caddy runs with, and whether it has been restarted since the last load. -/
def World.served (w : World) : String × Bool := (w.caddy, w.caddyFresh)

/-- Caddy serves a state, or nothing since it was restarted. -/
def Routed (rt : Runtime) (s : State) (w : World) : Prop :=
  rt.renderer.render s = .ok w.caddy ∨
    w.caddyFresh = true ∧ w.caddy = rt.renderer.denyOnly.text

/-- The store holds a valid state, and Caddy serves it. -/
def Mirrored (rt : Runtime) (w : World) : Prop := ∃ s, Held w s ∧ s.Valid ∧ Routed rt s w

/-- The error of an operation whose rollback has failed. -/
def GoError.RollbackFailed (err : GoError) : Prop := ∃ cause rollbackErr, err = .join cause rollbackErr

/-- A failed rollback is reported, or `P` holds. -/
def Reported (P : World → Prop) (err : GoError) (w : World) : Prop := err.RollbackFailed ∨ P w

section Routed

variable {rt : Runtime} {s s' : State} {w w' : World}

theorem Routed.of_served (h : Routed rt s w) (hw : w'.served = w.served) : Routed rt s w' := by
  have hcaddy : w'.caddy = w.caddy := congrArg Prod.fst hw
  have hfresh : w'.caddyFresh = w.caddyFresh := congrArg Prod.snd hw
  unfold Routed
  rw [hcaddy, hfresh]
  exact h

theorem Routed.sameRoutes (h : Routed rt s w) (hroutes : SameRoutes s s') (hs : s.Valid)
    (hs' : s'.Valid) : Routed rt s' w := by
  unfold Routed
  rw [hroutes.render hs hs']
  exact h

theorem routed_denied : Routed rt s (w.denied rt.renderer) := .inr ⟨rfl, rfl⟩

end Routed

/-! ## Loading and rolling back -/

section Loading

variable {E : Event → Prop} {w : World} (rt : Runtime)

/-- A load that succeeds has loaded what it was given. -/
theorem wp_loadCaddy_served (config : Except GoError String) :
    wp E (rt.loadCaddy config) (either (fun _ w' => config = .ok w'.caddy) fun _ _ => True)
      (fun _ => True) w := by
  cases config with
  | error err => exact wp_fail trivial
  | ok text => exact wp_applyCaddy fun _ _ => ⟨fun _ => trivial, fun _ => ⟨trivial, trivial⟩, rfl⟩

/-- A rollback that succeeds has loaded the configuration of the state it goes back to. -/
theorem wp_rollback_served (current : State) (stage : IdentityStage) (backup : Option HsPath)
    (authRestarted : Bool) :
    wp E (rt.rollback current stage backup authRestarted)
      (either (fun _ w' => rt.renderer.render current = .ok w'.caddy) fun _ _ => True)
      (fun _ => True) w := by
  -- of the steps before the load only the errors count
  have hskip : ∀ {α β : Type} {step : Op α} {k : α → Op β} {Q : Except GoError β → World → Prop}
      {w : World}, (∀ err w', Q (.error err) w') → (∀ a w', wp (undone E) (k a) Q (fun _ => True) w') →
      wp (undone E) (step >>= k) Q (fun _ => True) w := by
    intro α β step k Q w herr hok
    refine wp_bind (wp_of_forall ?_ fun _ => trivial)
    intro r w'
    cases r with
    | ok a => exact hok a w'
    | error err => exact herr err w'
  unfold Runtime.rollback Runtime.restoreServices
  refine wp_undoing (hskip (fun _ _ => trivial) fun _ w₁ => ?_)
  refine hskip (fun _ _ => trivial) fun identityErr w₂ => wp_bind ?_
  refine hskip (fun _ _ => trivial) fun configErr w₃ => ?_
  refine hskip (fun _ _ => trivial) fun _ w₄ => ?_
  refine hskip (fun _ _ => trivial) fun torErr w₅ => ?_
  refine hskip (fun _ _ => trivial) fun authErr w₆ => ?_
  refine wp_bind (wp_failure (wp_mono (wp_loadCaddy_served rt _) ?_ fun _ h => h))
  intro r w₇ hr
  cases r with
  | ok _ =>
    refine wp_pure ?_
    rw [either_ok]
    split
    · exact wp_pure hr
    · exact wp_fail trivial
  | error err =>
    -- the error of the load is among those that the rollback joins
    refine wp_pure ?_
    rw [either_ok]
    split
    next hnone =>
      exfalso
      revert hnone
      cases identityErr <;> cases configErr <;> cases torErr <;> cases authErr <;>
        simp [joinErrors, GoError.joined]
    next => exact wp_fail trivial

variable {β : Type} {G : World → Prop}

/-- A step that is undone when it fails: the rollback restores `G`, or its failure is reported. -/
theorem wp_orUndo_reported {P : β → World → Prop} {rollback : Op Unit} {step : Op β}
    (hrollback : ∀ w, wp E rollback (either (fun _ => G) fun _ _ => True) (fun _ => True) w)
    (hstep : wp E step (either P fun _ _ => True) (fun _ => True) w) :
    wp E (Store.orUndo rollback step) (either P (Reported G)) (fun _ => True) w := by
  refine Store.wp_orUndo (wp_mono hstep ?_ fun _ h => h)
  intro r w' hr
  cases r with
  | ok b => exact hr
  | error err =>
    refine wp_mono (hrollback w') ?_ fun _ h => h
    intro r w'' hr
    cases r with
    | ok _ => exact .inr hr
    | error rollbackErr => exact .inl ⟨err, rollbackErr, rfl⟩

/-- The same, where the step matters by nothing but its error. -/
theorem wp_orUndo_skip {γ : Type} {P : γ → World → Prop} {rollback : Op Unit} {step : Op β}
    {k : β → Op γ}
    (hrollback : ∀ w, wp E rollback (either (fun _ => G) fun _ _ => True) (fun _ => True) w)
    (hk : ∀ b w', wp E (k b) (either P (Reported G)) (fun _ => True) w') :
    wp E (Store.orUndo rollback step >>= k) (either P (Reported G)) (fun _ => True) w := by
  have hstep : wp E step (either (fun _ _ => True) fun _ _ => True) (fun _ => True) w :=
    wp_of_forall (fun r _ => by cases r <;> trivial) fun _ => trivial
  refine wp_bind (wp_mono (wp_orUndo_reported hrollback hstep) ?_ fun _ h => h)
  intro r w' hr
  cases r with
  | ok b => exact hk b w'
  | error err => exact hr

end Loading

/-! ## The operations that load a configuration -/

section Operations

variable {E : Event → Prop} {s : State} {w : World} (rt : Runtime)

/-- A change of the routes ends with the configuration of the new state, or goes back to that of the
old one. -/
theorem wp_caddyChange_served (mutate : Mutation) (hw : Held w s) (hs : Routed rt s w) :
    wp E (rt.caddyChange mutate)
      (either (fun _ w' => rt.renderer.render w'.value = .ok w'.caddy) (Reported (Routed rt s)))
      (fun _ => True) w := by
  have hrollback : ∀ w', wp E (undoing (rt.loadCaddy (rt.renderer.render s)))
      (either (fun _ => Routed rt s) fun _ _ => True) (fun _ => True) w' := by
    intro w'
    refine wp_undoing (wp_mono (wp_loadCaddy_served rt _) ?_ fun _ h => h)
    intro r w'' hr
    cases r with
    | ok _ => exact .inl hr
    | error err => trivial
  refine hw.wp_transition ?_
  unfold Runtime.componentChange
  split
  next => exact wp_fail (.inr hs)
  next candidate _ =>
    split
    next => exact wp_fail (.inr hs)
    next config hconfig =>
      refine wp_bind (wp_mono (wp_orUndo_reported hrollback
        (wp_loadCaddy_served rt (.ok config))) ?_ fun _ h => h)
      intro r w₁ hr
      cases r with
      | error err => exact hr
      | ok _ =>
        refine wp_pure (wp_worldCommit ?_ (fun _ => trivial) ?_)
        · -- the new state is not stored: the configuration of the old one is loaded again
          intro err
          refine wp_mono (hrollback w₁) ?_ fun _ h => h
          intro r w₂ hr
          cases r with
          | ok _ => exact .inr hr
          | error rollbackErr => exact .inl ⟨err, rollbackErr, rfl⟩
        · exact fun _ _ _ => hconfig.trans hr

/-- The steps of a rotation end with the configuration of the new state, or go back to that of the
old one. -/
theorem wp_switchIdentity_served (current candidate : State) (stage : IdentityStage) :
    wp E (rt.switchIdentity current candidate stage)
      (either (fun _ w' => rt.renderer.render candidate = .ok w'.caddy)
        (Reported fun w' => rt.renderer.render current = .ok w'.caddy)) (fun _ => True) w := by
  have hrollback : ∀ backup auth w', wp E (rt.rollback current stage backup auth)
      (either (fun _ w' => rt.renderer.render current = .ok w'.caddy) fun _ _ => True)
      (fun _ => True) w' := fun backup auth w' => wp_rollback_served rt current stage backup auth
  unfold Runtime.switchIdentity
  refine wp_orUndo_skip (hrollback _ _) fun _ w₁ => ?_
  refine wp_orUndo_skip (hrollback _ _) fun _ w₂ => ?_
  refine wp_orUndo_skip (hrollback _ _) fun backup w₃ => ?_
  refine wp_orUndo_skip (hrollback _ _) fun _ w₄ => ?_
  refine wp_bind (wp_modify ?_)
  rw [either_ok]
  refine wp_orUndo_skip (hrollback _ _) fun _ w₅ => ?_
  refine wp_bind (wp_mono (wp_orUndo_reported (hrollback _ _) (wp_loadCaddy_served rt _)) ?_
    fun _ h => h)
  intro r w₆ hr
  cases r with
  | ok _ => exact wp_pure hr
  | error err => exact hr

theorem ignores_served : Ignores World.served (fun _ => True) where
  dir _ _ _ _ := rfl
  erased _ _ _ := rfl
  inserted _ _ _ _ := rfl

/-- What a rotation leaves loaded: nothing new while the new identity is staged, and later what its
steps load. -/
theorem wp_rotate_served (current : State) (hs : Routed rt current w) :
    wp E (rt.rotate current)
      (either (fun rotation w' => rt.renderer.render rotation.candidate = .ok w'.caddy ∧
          (∃ stage backup, rotation.rollback = rt.rollback current stage (some backup) true) ∧
          ∃ backup, rotation.finish = ignore (finishIdentity backup))
        (Reported (Routed rt current))) (fun _ => True) w := by
  unfold Runtime.rotate
  refine (keeps_generateKeys (f := World.served) _).bind
    (fun _ w' hw' => .inr (hs.of_served hw')) (fun _ _ _ => trivial) fun keys w₁ hw₁ => ?_
  have hs₁ := hs.of_served hw₁
  have hout : ∀ {n : ℕ} {w' : World}, w'.outside n = w₁.outside n → Routed rt current w' :=
    fun h => hs₁.of_served (congrArg World.served h :)
  refine wp_bind (wp_stageIdentity _ _ (fun _ => .inr hs₁) ?_ ?_ fun _ _ _ => trivial)
  rotate_left
  · exact fun n err w' h _ => .inr (hout h.outside)
  intro stage w₂ hstaged _ _ _ _
  have hs₂ := hout hstaged.outside
  dsimp only [either_ok]
  split
  next =>
    refine (keeps_undoing (keeps_ignore (keeps_removeAll ignores_served trivial))).bind
      (fun _ w' hw' => .inr (hs₂.of_served hw')) (fun _ _ _ => trivial) fun _ w' hw' => ?_
    exact wp_fail (.inr (hs₂.of_served hw'))
  next =>
    refine wp_bind (wp_mono (wp_switchIdentity_served rt current _ stage) ?_ fun _ h => h)
    intro r w₃ hr
    cases r with
    | ok backup => exact wp_pure ⟨hr, ⟨stage, backup, rfl⟩, backup, rfl⟩
    | error err => exact hr.imp_right .inl

theorem wp_rotateIdentity_served (confirmation : String) (hw : Held w s) (hvalid : s.Valid)
    (hs : Routed rt s w) :
    wp E (rt.rotateIdentity confirmation)
      (either (fun _ w' => rt.renderer.render w'.value = .ok w'.caddy) (Reported (Routed rt s)))
      (fun _ => True) w := by
  -- the rotation works on the state without its sessions, which is routed in the same way
  have hroutes : SameRoutes s { s with sessions := [] } := ⟨rfl, rfl, rfl⟩
  have hback : ∀ {w' : World}, Routed rt { s with sessions := [] } w' → Routed rt s w' :=
    fun h => h.sameRoutes ⟨rfl, rfl, rfl⟩ hvalid.dropSessions hvalid
  unfold Runtime.rotateIdentity
  split
  next => exact wp_fail (.inr hs)
  next =>
    refine wp_bind (hw.wp_transition ?_)
    unfold Runtime.rotationChange
    rw [clone_of_encodable hw.encodable]
    split
    next => exact wp_fail (.inr hs)
    next =>
      refine wp_bind (wp_mono (wp_rotate_served rt _
        (hs.sameRoutes hroutes hvalid hvalid.dropSessions)) ?_ fun _ h => h)
      intro r w₁ hr
      cases r with
      | error err => exact hr.imp_right hback
      | ok rotation =>
        obtain ⟨hcaddy, ⟨stage, backup, hrollback⟩, backup', hfinish⟩ := hr
        -- what has been rendered is valid, so the check that follows is passed
        have hcandidate : rotation.candidate.validate = none := valid_of_render hcaddy
        rw [either_ok, hcandidate]
        refine wp_pure (wp_worldCommit ?_ (fun _ => trivial) ?_)
        · intro err
          rw [show (changed rotation.candidate (some rotation.rollback) rotation).rollback =
            some rotation.rollback from rfl, hrollback]
          refine wp_mono (wp_rollback_served rt _ stage _ _) ?_ fun _ h => h
          intro r w₂ hr
          cases r with
          | ok _ => exact .inr (hback (.inl hr))
          | error rollbackErr => exact .inl ⟨err, rollbackErr, rfl⟩
        · intro _ _ _
          rw [either_ok, show (changed rotation.candidate (some rotation.rollback) rotation).result =
            rotation from rfl, hfinish]
          let part : World → State × String := fun w => (w.value, w.caddy)
          have hpart : Ignores part (fun _ => True) :=
            ⟨fun _ _ _ _ => rfl, fun _ _ _ => rfl, fun _ _ _ _ => rfl⟩
          have hkept : Keeps E (MayCrash E) part (finishIdentity backup') := by
            unfold finishIdentity
            split
            · exact keeps_fail _
            · exact keeps_removeAll hpart trivial
          refine wp_bind (wp_ignore (hkept.step ?_ fun _ _ _ => trivial))
          intro _ w' hw'
          have hvalue : w'.value = rotation.candidate := congrArg Prod.fst hw'
          have hcaddy' : w'.caddy = w₁.caddy := congrArg Prod.snd hw'
          exact wp_pure (by rw [either_ok, hvalue, hcaddy', hcaddy])

end Operations

/-! ## The operations that do not touch Caddy -/

theorem admitsStore_served (x : String × Bool) : AdmitsStore fun w => w.served = x :=
  ⟨fun _ _ h => h, fun _ _ h => h, fun _ _ h => h⟩

theorem admitsTor_served (x : String × Bool) : AdmitsTor fun w => w.served = x where
  torrc _ _ h := h
  tor _ _ h := h
  clock _ _ h := h
  auth _ _ _ _ hw' h := (withAuth_ignored ignores_served trivial hw').trans h

/-- A call that loads no configuration stores a state with the same routes, unless it is the reset of
the owner. -/
theorem TokenCall.Allows.sameRoutes {digest : Digest} {call : TokenCall} {s s' : State}
    (h : call.Allows digest s s') (hloads : call.loads = false) (hcall : call ≠ .reset) :
    SameRoutes s s' := by
  cases call with
  | create name scopes lifetime =>
    obtain ⟨g, -, rfl⟩ := h
    exact ⟨rfl, rfl, rfl⟩
  | authorize token required =>
    obtain ⟨used, rfl⟩ := h
    exact ⟨rfl, rfl, rfl⟩
  | revoke id =>
    cases h
    exact ⟨rfl, rfl, rfl⟩
  | reset => exact absurd rfl hcall
  | other call =>
    cases call with
    | completeSetup session => cases hloads
    | mapping call => cases hloads
    | rotateIdentity confirmation => cases hloads
    | setPublication enabled =>
      cases h
      exact ⟨rfl, rfl, rfl⟩
    | createDevice name =>
      obtain ⟨-, -, -, pending, rfl⟩ := h
      exact ⟨rfl, rfl, rfl⟩
    | acknowledgeDevice id =>
      obtain ⟨pending, acknowledgedAt, -, rfl⟩ := h
      exact ⟨rfl, rfl, rfl⟩
    | revokeDevice id =>
      cases h
      exact ⟨rfl, rfl, rfl⟩
    | expirePending => exact DropsPending.sameRoutes s () s' h
    | reconcileTor => exact DropsPending.sameRoutes s () s' h
    | createSession owner =>
      obtain ⟨record, t, -, rfl⟩ := h
      exact ⟨rfl, rfl, rfl⟩
    | authenticate cookie =>
      obtain ⟨raw, t, rfl⟩ := h
      exact ⟨rfl, rfl, rfl⟩
    | revokeSession id =>
      cases h
      exact ⟨rfl, rfl, rfl⟩
    | revokeAllSessions =>
      cases h
      exact ⟨rfl, rfl, rfl⟩

/-! ## Runs -/

section Calls

variable {E : Event → Prop} {digest : Digest} {rt : Runtime} {w : World}

/-- What an operation that loads a configuration establishes, together with what it stores. -/
theorem Mirrored.of_stores {β : Type} {op : Op β} {R : State → β → State → Prop} {s : State}
    (hstores : Stores op R) (hw : Held w s) (hvalid : s.Valid)
    (hserved : wp E op (either (fun _ w' => rt.renderer.render w'.value = .ok w'.caddy)
      (Reported (Routed rt s))) (fun _ => True) w) :
    wp E op (either (fun _ => Mirrored rt) (Reported (Mirrored rt))) (fun _ => True) w := by
  refine wp_mono (wp_and (hstores E s w hw) hserved) ?_ fun _ _ => trivial
  rintro r w' ⟨hstored, hcaddy⟩
  cases r with
  | ok b =>
    obtain ⟨s', -, hvalid', hw', -⟩ := hstored
    exact ⟨s', hw', hvalid' hvalid, .inl (hw'.value ▸ hcaddy)⟩
  | error err => exact hcaddy.imp_right fun hrouted => ⟨s, hw.of_since hstored, hvalid, hrouted⟩

/-- An operation that leaves Caddy and the routes alone. -/
theorem Mirrored.of_moves {β : Type} {op : Op β} {A : State → State → Prop} (h : Mirrored rt w)
    (hmoves : Moves op A) (hA : ∀ s s', A s s' → SameRoutes s s')
    (hkeeps : Keeps E (MayCrash E) World.served op) :
    wp E op (either (fun _ => Mirrored rt) (Reported (Mirrored rt))) (fun _ => True) w := by
  obtain ⟨s, hw, hvalid, hrouted⟩ := h
  have hend : ∀ w', (∃ s', (s' = s ∨ A s s') ∧ s'.Valid ∧ Held w' s' ∧ w.clock ≤ w'.clock) →
      w'.served = w.served → Mirrored rt w' := by
    rintro w' ⟨s', hs', hvalid', hw', -⟩ hserved
    refine ⟨s', hw', hvalid', (hrouted.of_served hserved).sameRoutes ?_ hvalid hvalid'⟩
    rcases hs' with rfl | hs'
    · exact .refl s'
    · exact hA s s' hs'
  refine wp_mono (wp_and (hmoves E s w hw hvalid) (hkeeps.wp w)) ?_ fun _ _ => trivial
  rintro r w' ⟨hmoved, hserved⟩
  cases r with
  | ok b => exact hend w' hmoved hserved
  | error err => exact .inr (hend w' hmoved hserved)

/-- What an operation returns does not matter for what is served. -/
theorem wp_reported_discard {β γ : Type} {op : Op β} (result : β → γ)
    (h : wp E op (either (fun _ => Mirrored rt) (Reported (Mirrored rt))) (fun _ => True) w) :
    wp E (do let b ← op; return result b) (either (fun _ => Mirrored rt) (Reported (Mirrored rt)))
      (fun _ => True) w := by
  refine wp_bind (wp_mono h ?_ fun _ h => h)
  intro r w' hr
  cases r with
  | ok b => exact wp_pure hr
  | error err => exact hr

theorem Mirrored.caddyChange (h : Mirrored rt w) (mutate : Mutation) :
    wp E (rt.caddyChange mutate) (either (fun _ => Mirrored rt) (Reported (Mirrored rt)))
      (fun _ => True) w := by
  obtain ⟨s, hw, hvalid, hrouted⟩ := h
  exact Mirrored.of_stores (commits_caddyChange rt mutate).stores hw hvalid
    (wp_caddyChange_served rt mutate hw hrouted)

theorem Mirrored.tokenCall (h : Mirrored rt w) {call : TokenCall} (hcall : call ≠ .reset) :
    wp E (call.op digest rt) (either (fun _ => Mirrored rt) (Reported (Mirrored rt)))
      (fun _ => True) w := by
  by_cases hloads : call.loads = true
  swap
  · have hloads : call.loads = false := by simpa using hloads
    exact h.of_moves (moves_tokenCall digest rt call)
      (fun s s' hallows => hallows.sameRoutes hloads hcall)
      fun x => (admitsStore_served x).maintains_tokenCall (admitsTor_served x) digest rt hloads
  cases call with
  | create name scopes lifetime => cases hloads
  | authorize token required => cases hloads
  | revoke id => cases hloads
  | reset => cases hloads
  | other call =>
    refine wp_reported_discard _ ?_
    cases call with
    | completeSetup session => exact h.caddyChange _
    | mapping call =>
      change wp E (call.op rt) _ _ w
      rw [call.op_eq]
      exact h.caddyChange _
    | rotateIdentity confirmation =>
      obtain ⟨s, hw, hvalid, hrouted⟩ := h
      exact wp_reported_discard _ (Mirrored.of_stores (stores_rotateIdentity rt confirmation) hw
        hvalid (wp_rotateIdentity_served rt confirmation hw hvalid hrouted))
    | _ => cases hloads

/-- `ReconcileCaddy` changes nothing but what is loaded, and what it tries to load is the stored
state. -/
theorem Mirrored.reconcileCaddy (h : Mirrored rt w) :
    wp E rt.reconcileCaddy (either (fun _ => Mirrored rt) (Reported (Mirrored rt))) (fun _ => True) w := by
  obtain ⟨s, hw, hvalid, hrouted⟩ := h
  refine wp_bind (wp_get ?_)
  have hclone : clone (worldStore.value w) = s := by
    rw [show worldStore.value w = s from hw.value, clone_of_encodable hw.encodable]
  change wp E (rt.loadCaddy (rt.renderer.render (clone (worldStore.value w)))) _ _ w
  rw [hclone]
  cases hrender : rt.renderer.render s with
  | error err => exact wp_fail (.inr ⟨s, hw, hvalid, hrouted⟩)
  | ok config =>
    refine wp_applyCaddy fun w₀ hw₀ => ?_
    have hstart : Held w₀ s ∧ Routed rt s w₀ := by
      rcases hw₀ with rfl | ⟨-, rfl⟩
      · exact ⟨hw, hrouted⟩
      · exact ⟨hw.of_stored rfl, routed_denied⟩
    exact ⟨fun _ => trivial,
      fun _ => ⟨.inr ⟨s, hstart.1, hvalid, hstart.2⟩,
        .inr ⟨s, hstart.1.of_stored rfl, hvalid, .inl hrender⟩⟩,
      s, hstart.1.of_stored rfl, hvalid, .inl hrender⟩

end Calls

/-- What happens next to a running system. -/
inductive CaddyTurn where
  | call (c : TokenCall)
  /-- Caddy is restarted, with the configuration that denies every request. -/
  | restart
  /-- `ReconcileCaddy`. -/
  | reconcile
  deriving DecidableEq, Repr

/-- What a turn runs. -/
def CaddyTurn.op (digest : Digest) (rt : Runtime) : CaddyTurn → Op Unit
  | .call c => do
    let _ ← c.op digest rt
    return ()
  | .restart => modify (World.denied rt.renderer)
  | .reconcile => rt.reconcileCaddy

/-- A turn, for any behaviour of the surroundings, and how it ended. The process does not die, and
the owner is not reset while it runs. -/
def CaddyStep (digest : Digest) (rt : Runtime) (w : World) (l : CaddyTurn × Outcome GoError Unit)
    (w' : World) : Prop :=
  l.1 ≠ .call .reset ∧ l.2 ≠ .crash ∧
    ∃ env n n', (l.1.op digest rt).run env n w = (l.2, w', n')

/-- The runs on a store that holds a valid state, which Caddy serves, or nothing since it was
started. -/
abbrev CaddyRun (digest : Digest) (rt : Runtime) : List (CaddyTurn × Outcome GoError Unit) → World →
    Prop :=
  Run (fun w => Held w w.value ∧ w.value.Valid ∧ Routed rt w.value w) (CaddyStep digest rt)

/-- A turn has reported that a rollback failed. -/
def ReportsRollback (l : CaddyTurn × Outcome GoError Unit) : Prop :=
  ∃ err : GoError, l.2 = .error err ∧ err.RollbackFailed

section Runs

variable {digest : Digest} {rt : Runtime} {w w' : World}

theorem Mirrored.turn {E : Event → Prop} (h : Mirrored rt w) {turn : CaddyTurn}
    (hturn : turn ≠ .call .reset) :
    wp E (turn.op digest rt) (either (fun _ => Mirrored rt) (Reported (Mirrored rt)))
      (fun _ => True) w := by
  cases turn with
  | call c => exact wp_reported_discard _ (h.tokenCall fun hc => hturn (hc ▸ rfl))
  | restart =>
    obtain ⟨s, hw, hvalid, -⟩ := h
    exact wp_modify ⟨s, hw.of_stored rfl, hvalid, routed_denied⟩
  | reconcile => exact h.reconcileCaddy

theorem Mirrored.step (h : Mirrored rt w) {l : CaddyTurn × Outcome GoError Unit}
    (hl : ¬ ReportsRollback l) (hstep : CaddyStep digest rt w l w') : Mirrored rt w' := by
  obtain ⟨hturn, hcrash, env, n, n', hrun⟩ := hstep
  have hwp : wp (fun _ => True) (l.1.op digest rt)
      (either (fun _ => Mirrored rt) (Reported (Mirrored rt))) (fun _ => True) w := h.turn hturn
  have hends := hwp.at env n fun _ => trivial
  rw [hrun] at hends
  cases hresult : l.2 with
  | ok _ =>
    rw [hresult] at hends
    exact hends
  | error err =>
    rw [hresult] at hends
    exact hends.resolve_left fun hfailed => hl ⟨err, hresult, hfailed⟩
  | crash => exact absurd hresult hcrash

/-- Caddy never serves routes that are not those of the stored state. -/
theorem routed_of_caddyRun {ls : List (CaddyTurn × Outcome GoError Unit)}
    (r : CaddyRun digest rt ls w) (h : ∀ l ∈ ls, ¬ ReportsRollback l) : Routed rt w.value w := by
  have hmirrored : (∀ l ∈ ls, ¬ ReportsRollback l) → Mirrored rt w := by
    refine r.invariant (I := fun ls w => (∀ l ∈ ls, ¬ ReportsRollback l) → Mirrored rt w) ?_ ?_
    · exact fun w hw _ => ⟨w.value, hw⟩
    · intro ls w l w' ih hstep hls
      obtain ⟨hl, hls⟩ := List.forall_mem_cons.mp hls
      exact (ih hls).step hl hstep
  obtain ⟨s, hw, -, hrouted⟩ := hmirrored h
  exact hw.value ▸ hrouted

end Runs

/-- A load that takes effect although it is reported to fail. -/
def rejectedLoad : Event := { Event.calm with service := { fails := true, applied := true } }

theorem createMapping_rejected : ((CaddyTurn.op sampleDigest sampleRuntime
    (.call (.other (.mapping (.create sampleMapping))))).run (fun _ => rejectedLoad) 0
      (sampleWorld.denied sampleRuntime.renderer)).1 = .error .external := by
  decide +kernel

/-- Caddy is restarted, and then a new mapping is rejected: the state without it is served. -/
theorem createMapping_rejected_routed : ∃ w,
    CaddyRun sampleDigest sampleRuntime
      [(.call (.other (.mapping (.create sampleMapping))), .error .external), (.restart, .ok ())] w ∧
      Routed sampleRuntime w.value w := by
  have hstart : Routed sampleRuntime sampleWorld.value sampleWorld :=
    .inl consistent_sampleWorld.caddy
  have hheld : Held sampleWorld sampleWorld.value := ⟨rfl, ⟨none, rfl⟩, consistent_sampleWorld.encodable⟩
  have r : CaddyRun sampleDigest sampleRuntime
      [(.call (.other (.mapping (.create sampleMapping))), .error .external), (.restart, .ok ())] _ :=
    .next (.next (.start ⟨hheld, valid_of_render consistent_sampleWorld.caddy, hstart⟩)
      ⟨nofun, nofun, fun _ => rejectedLoad, 0, 0, rfl⟩)
      ⟨nofun, nofun, fun _ => rejectedLoad, 0, _, Prod.ext createMapping_rejected rfl⟩
  refine ⟨_, r, routed_of_caddyRun r ?_⟩
  intro l hl
  simp only [List.mem_cons, List.not_mem_nil, or_false] at hl
  rcases hl with rfl | rfl
  · rintro ⟨_, ⟨⟩, _, _, ⟨⟩⟩
  · rintro ⟨_, ⟨⟩, _⟩

end Torkitten
