import Torkitten.Authelia.Config
import Torkitten.Tor.Identity

/-!
# Rotation of the onion identity

`IdentityRotator.Apply` of `internal/caddy`. The source steers one rollback closure by two
variables that the closure captures; here the rollback takes their values as arguments and every
step that can fail names the values it fails with.
-/

namespace Torkitten

open Proc

/-- The paths and the renderer that the managers are built with. -/
structure Runtime where
  tor : Tor.Paths
  authelia : Authelia.Paths
  renderer : Caddy.Renderer

/-- Another configuration has been loaded in Caddy. -/
def World.loaded (config : String) (w : World) : World := { w with caddy := config }

/-- Caddy has been restarted with a configuration that denies every request. -/
def World.denied (r : Caddy.Renderer) (w : World) : World :=
  { w with caddy := r.denyOnly.text, caddyFresh := true }

/-- The effect of restarting a component: Tor and Authelia read their files again. -/
def World.restarted (c : Component) (w : World) : World :=
  let w := { w with commands := (c, .restart) :: w.commands }
  match c with
  | .tor => { w with tor := { torrc := w.torrc, service := w.dirs .active } }
  | .authelia => { w with authelia := w.authConfig }
  | .caddy => w

/-- `RestartComponent`, which waits until the new process runs. -/
def restartComponent (c : Component) : Op Unit := serviceCall (World.restarted c)

namespace Runtime

variable (rt : Runtime)

/-- `Client.Apply` of Caddy. Caddy may have been restarted before the call, and a failed load may
have taken effect. -/
def applyCaddy (config : String) : Op Unit := .ask fun e w =>
  let w := if e.caddyRestarts then w.denied rt.renderer else w
  if e.crash then (.crash, w)
  else if e.service.fails then
    (.error .external, if e.service.applied then w.loaded config else w)
  else (.ok (), { w.loaded config with caddyFresh := false })

/-- Render a configuration and load it. -/
def loadCaddy (config : Except GoError String) : Op Unit :=
  match config with
  | .error err => .fail err
  | .ok text => rt.applyCaddy text

/-- Render the configuration of Authelia and write it. -/
def writeAuthConfig (id : String) : Op Unit :=
  match rt.authelia.render id with
  | .error err => .fail err
  | .ok text => writeCall fun w => some { w with authConfig := some text }

end Runtime

/-! ## Rules -/

section Rules

variable {E : Event → Prop} {Q : Except GoError Unit → World → Prop} {C : World → Prop} {w : World}
  {rt : Runtime}

/-- Some event permitted by `E` lets Caddy restart. -/
def CaddyMayRestart (E : Event → Prop) : Prop := ∃ e, E e ∧ e.caddyRestarts = true

/-- Loading a configuration in Caddy, which may have been restarted before. -/
theorem wp_applyCaddy {config : String}
    (h : ∀ w₀, w₀ = w ∨ CaddyMayRestart E ∧ w₀ = w.denied rt.renderer →
      (MayCrash E → C w₀) ∧
      (ServiceMayFail E → Q (.error .external) w₀ ∧ Q (.error .external) (w₀.loaded config)) ∧
      Q (.ok ()) { w₀.loaded config with caddyFresh := false }) :
    wp E (rt.applyCaddy config) Q C w := by
  apply wp_ask
  intro e he
  dsimp only
  generalize hw₀ : (if e.caddyRestarts then w.denied rt.renderer else w) = w₀
  have hstart : w₀ = w ∨ CaddyMayRestart E ∧ w₀ = w.denied rt.renderer := by
    rw [← hw₀]
    split
    next hr => exact .inr ⟨⟨e, he, hr⟩, rfl⟩
    next => exact .inl rfl
  obtain ⟨hcrash, hfail, hok⟩ := h w₀ hstart
  split
  next hc => exact hcrash ⟨e, he, hc⟩
  next =>
    split
    next hf =>
      split
      · exact (hfail ⟨e, he, hf⟩).2
      · exact (hfail ⟨e, he, hf⟩).1
    next => exact hok

theorem wp_writeAuthConfig {id : String}
    (hrefused : ∀ err, rt.authelia.render id = .error err → Q (.error err) w)
    (hcrash : MayCrash E → C w) (hfail : DiskMayFail E → Q (.error .external) w)
    (happlied : DiskMayFail E → ∀ text, rt.authelia.render id = .ok text →
      Q (.error .external) { w with authConfig := some text })
    (hok : ∀ text, rt.authelia.render id = .ok text →
      Q (.ok ()) { w with authConfig := some text }) : wp E (rt.writeAuthConfig id) Q C w := by
  unfold Runtime.writeAuthConfig
  split
  next err herr => exact wp_fail (hrefused err herr)
  next text htext =>
    apply wp_writeCall hcrash hfail
    · exact fun hnone => nomatch hnone
    · rintro _ ⟨e, he, hf, _⟩ ⟨⟩
      exact happlied ⟨e, he, hf⟩ text htext
    · rintro _ ⟨⟩
      exact hok text htext

end Rules

/-! ## Frames -/

section Frames

variable {τ : Type} {E : Event → Prop} {f : World → τ}

/-- The part `f` of the system does not depend on the processes and on the files of Authelia. -/
structure IgnoresServices (f : World → τ) : Prop where
  restarted : ∀ c w, f (World.restarted c w) = f w
  loaded : ∀ config w, f (World.loaded config w) = f w
  denied : ∀ r w, f (World.denied r w) = f w
  fresh : ∀ b w, f { w with caddyFresh := b } = f w
  authConfig : ∀ text w, f { w with authConfig := text } = f w
  clientID : ∀ id w, f { w with clientID := id } = f w

theorem keeps_authelia_validate : Keeps E (MayCrash E) f Authelia.validate := by
  unfold Authelia.validate
  apply keeps_bind (keeps_attempt (keeps_serviceCall fun _ => rfl))
  intro r
  cases r with
  | error e => exact keeps_fail _
  | ok _ => exact keeps_pure ()

namespace IgnoresServices

variable (h : IgnoresServices f) (rt : Runtime)

include h

theorem keeps_restart (c : Component) : Keeps E (MayCrash E) f (restartComponent c) :=
  keeps_serviceCall (h.restarted c)

theorem keeps_setServiceID (id : String) : Keeps E (MayCrash E) f (Authelia.setServiceID id) :=
  keeps_modify (h.clientID id)

theorem keeps_apply (config : String) : Keeps E (MayCrash E) f (rt.applyCaddy config) := by
  refine keeps_of_wp fun w => ?_
  apply wp_ask
  intro e he
  -- a restart of Caddy before the call is part of it
  have hw : f (if e.caddyRestarts then w.denied rt.renderer else w) = f w := by
    split
    · exact h.denied _ w
    · rfl
  dsimp only
  split
  next hc => exact ⟨⟨e, he, hc⟩, hw⟩
  next =>
    split
    next =>
      split
      · exact (h.loaded _ _).trans hw
      · exact hw
    next => exact ((h.fresh _ _).trans (h.loaded _ _)).trans hw

theorem keeps_load (config : Except GoError String) :
    Keeps E (MayCrash E) f (rt.loadCaddy config) := by
  cases config with
  | error err => exact keeps_fail err
  | ok text => exact h.keeps_apply rt text

theorem keeps_writeAuthConfig (id : String) : Keeps E (MayCrash E) f (rt.writeAuthConfig id) := by
  unfold Runtime.writeAuthConfig
  split
  next => exact keeps_fail _
  next =>
    apply keeps_writeCall
    rintro w _ ⟨⟩
    exact h.authConfig _ w

end IgnoresServices

end Frames

/-! ## The rotator -/

/-- `RotatedCredential`. -/
structure RotatedCredential where
  deviceID : String
  name : String
  credential : String
  deriving DecidableEq, Repr

/-- The first loop of `Apply`: new keys for every device, with the private halves. -/
def generateKeys : List Device → Op (List (Device × String))
  | [] => return []
  | d :: rest => do
    let (publicKey, secret) ← Tor.generateClientKey
    let rest ← generateKeys rest
    return ({ d with publicKey }, secret) :: rest

/-- The second loop of `Apply`: the credential of every device. -/
def rotatedCredentials (serviceID : String) :
    List (Device × String) → Except GoError (List RotatedCredential)
  | [] => .ok []
  | (d, secret) :: rest => do
    let credential ← Tor.credential serviceID secret
    let rest ← rotatedCredentials serviceID rest
    return { deviceID := d.id, name := d.name, credential } :: rest

/-- What `Apply` returns. -/
structure Rotation where
  candidate : State
  credentials : List RotatedCredential
  rollback : Op Unit
  finish : Op Unit

/-- The error of a step that is only taken under a condition. -/
def failureIf (cond : Bool) (step : Op Unit) : Op (Option GoError) :=
  if cond then failure step else return none

/-- `errors.Join` of a list. -/
def joinErrors : List (Option GoError) → Option GoError :=
  List.foldr GoError.joined none

namespace Runtime

variable (rt : Runtime)

/-- The part of the rollback that follows the restoring of the identity: the configuration of
Authelia, the processes and Caddy, with the errors met. -/
def restoreServices (current : State) (restored authRestarted : Bool) :
    Op (List (Option GoError)) := do
  let configErr ← failure (rt.writeAuthConfig current.serviceID)
  Authelia.setServiceID current.serviceID
  let torErr ← failureIf restored (restartComponent .tor)
  let authErr ← failureIf authRestarted (restartComponent .authelia)
  let priorErr ← failure (rt.loadCaddy (rt.renderer.render current))
  return [configErr, torErr, authErr, priorErr]

/-- The rollback of `Apply`, for the values of `backup` and `authRestarted` when it is called. -/
def rollback (current : State) (stage : Tor.IdentityStage) (backup : Option HsPath)
    (authRestarted : Bool) : Op Unit := undoing do
  ignore (removeAll (.stage stage.root))
  let identityErr ← failureIf backup.isSome (Tor.restoreIdentity (backup.getD .previous))
  let errs ← rt.restoreServices current backup.isSome authRestarted
  match joinErrors (identityErr :: errs) with
  | none => return ()
  | some err => .fail err

/-- The part of `Apply` that follows the staging: each step that fails rolls back. -/
def switchIdentity (current candidate : State) (stage : Tor.IdentityStage) : Op HsPath := do
  let rollback := rt.rollback current stage
  let aliases := { rt.renderer with aliases := [current.serviceID] }
  Store.orUndo (rollback none false) (rt.loadCaddy (aliases.render candidate))
  Store.orUndo (rollback none false) do
    rt.writeAuthConfig candidate.serviceID
    Authelia.validate
  let backup ← Store.orUndo (rollback none false) (Tor.activateIdentity rt.tor stage)
  Store.orUndo (rollback (some backup) false) (restartComponent .tor)
  Authelia.setServiceID candidate.serviceID
  Store.orUndo (rollback (some backup) true) (restartComponent .authelia)
  Store.orUndo (rollback (some backup) true) (rt.loadCaddy (rt.renderer.render candidate))
  return backup

/-- `IdentityRotator.Apply`. -/
def rotate (current : State) : Op Rotation := do
  let keys ← generateKeys (clone current).devices
  let devices := keys.map Prod.fst
  let stage ← Tor.stageIdentity rt.tor devices
  let candidate := { clone current with devices, serviceID := stage.serviceID }
  match rotatedCredentials candidate.serviceID keys with
  | .error err =>
    undoing (ignore (removeAll (.stage stage.root)))
    .fail err
  | .ok credentials =>
    let backup ← rt.switchIdentity current candidate stage
    return { candidate, credentials, rollback := rt.rollback current stage (some backup) true,
             finish := ignore (Tor.finishIdentity backup) }

end Runtime

theorem maintains_failureIf {E : Event → Prop} {I : World → Prop} {cond : Bool} {step : Op Unit}
    (h : Maintains E (MayCrash E) I step) : Maintains E (MayCrash E) I (failureIf cond step) := by
  unfold failureIf
  split
  · exact maintains_failure h
  · exact maintains_pure none

theorem keeps_failureIf {τ : Type} {E : Event → Prop} {f : World → τ} {cond : Bool} {step : Op Unit}
    (h : Keeps E (MayCrash E) f step) : Keeps E (MayCrash E) f (failureIf cond step) :=
  fun x => maintains_failureIf (h x)

theorem IgnoresServices.keeps_restoreServices {τ : Type} {E : Event → Prop} {f : World → τ}
    (h : IgnoresServices f) (rt : Runtime) (current : State) (restored authRestarted : Bool) :
    Keeps E (MayCrash E) f (rt.restoreServices current restored authRestarted) := by
  unfold Runtime.restoreServices
  refine keeps_bind (keeps_failure (h.keeps_writeAuthConfig rt _)) fun _ => ?_
  refine keeps_bind (h.keeps_setServiceID _) fun _ => ?_
  refine keeps_bind (keeps_failureIf (h.keeps_restart _)) fun _ => ?_
  refine keeps_bind (keeps_failureIf (h.keeps_restart _)) fun _ => ?_
  exact keeps_bind (keeps_failure (h.keeps_load rt _)) fun _ => keeps_pure _

theorem keeps_generateKeys {τ : Type} {E : Event → Prop} {f : World → τ} (devices : List Device) :
    Keeps E (MayCrash E) f (generateKeys devices) := by
  induction devices with
  | nil => exact keeps_pure []
  | cons d rest ih =>
    refine keeps_bind (keeps_bind keeps_generateKey fun _ => keeps_pure _) fun key => ?_
    exact keeps_bind ih fun _ => keeps_pure _

end Torkitten
