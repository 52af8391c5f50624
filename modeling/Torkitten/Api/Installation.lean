import Torkitten.Api.Conduct
import Torkitten.Bootstrap.Runtime
import Torkitten.Foundations.Run

/-!
# An installation

The daemon from its first start on: it serves requests, lets pending devices expire, may die at any
moment and is started again, and while it is stopped the owner can be reset with `torkittenctl`. A
run records what has happened turn by turn.
-/

namespace Torkitten.Api

open Proc Tor

/-! ## Starting the daemon -/

/-- Tor has been started. It makes an identity where it finds none. -/
def torStarted (hostname : String) (w : World) : World :=
  let d := (w.dirs .active).getD .empty
  let d := if d.keys.isSome then d
    else { d with hostname := some (hostnameText hostname), keys := some hostname }
  { w.setDir .active (some d) with
    tor := { torrc := w.torrc, service := some d }
    used := if d.keys == some hostname then hostname :: w.used else w.used }

/-- The supervisor starts Tor. -/
def startTor : Op Unit := .ask fun e w =>
  if e.crash then (.crash, w)
  else if e.service.fails then (.error .external, w)
  else (.ok (), torStarted e.hostname w)

/-- `WaitServiceID`, which gives up at its deadline. -/
def waitServiceID : Op String := do
  let w ← get
  match readServiceID (w.dirs .active) with
  | .ok id => return id
  | .error _ => .fail .external

/-- `PrepareAuthelia`. -/
def prepareAuthelia (rt : Runtime) (id : String) : Op Unit := do
  rt.writeAuthConfig id
  Authelia.setServiceID id
  Authelia.validate

/-- The processes are started: Caddy with the configuration that denies everything, and Authelia if
there is an owner. -/
def startProcesses (rt : Runtime) (current : State) : Op Unit := do
  startTor
  .modify (World.denied rt.renderer)
  .modify fun w => if current.initialized then { w with authelia := w.authConfig } else w

/-- The service id is stored when the daemon is started for the first time. -/
def storeServiceID (rt : Runtime) (current : State) (id : String) : Op Unit :=
  if current.serviceID = "" then do
    worldStore.transition (some fun next => return changed { next with serviceID := id } none ())
    prepareAuthelia rt id
  else if current.serviceID ≠ id then
    .fail (.new "Tor onion identity does not match durable state")
  else return ()

/-- `run`, up to the moment when the daemon listens. -/
def startDaemon (rt : Runtime) : Op Unit := do
  rt.restart
  let current ← viewState
  if current.serviceID = "" then pure () else prepareAuthelia rt current.serviceID
  startProcesses rt current
  let id ← waitServiceID
  storeServiceID rt current id
  reconcileTor
  rt.loadCaddy (rt.renderer.render (← viewState))

/-- `torkittenctl owner reset`, while the daemon is stopped. -/
def resetOwner : Op Unit := do
  openStore
  stageOwnerReset

/-! ## Runs -/

/-- A daemon, and whether it is running. -/
structure Installation where
  site : Site
  running : Bool

/-- What happens next, with the events met. -/
inductive Turn where
  | request (r : Request) (env : ℕ → Event)
  /-- The background loop calls `Expire`. -/
  | expire (env : ℕ → Event)
  | stop
  /-- The daemon is started, after it has been killed if it was running. -/
  | restart (env : ℕ → Event)
  | reset (env : ℕ → Event)

/-- What a new process of the daemon has in memory. -/
def Site.cleared (site : Site) : Site :=
  { site with
    world := { site.world with rates := ∅ }
    flows := [], setup := none, totp := none
    minute := 0, general := 0, authentication := 0, serving := 0 }

namespace Installation

variable (srv : Server) (inst : Installation)

/-- One turn, if it can happen. -/
def step : Turn → Option Installation
  | .request r env =>
    if !inst.running then none
    else
      match (srv.serveHTTP r).run env 0 inst.site with
      | (.crash, site, _) => some ⟨site, false⟩
      | (_, site, _) => some ⟨site, true⟩
  | .expire env =>
    if !inst.running then none
    else
      match expire.run env 0 inst.site with
      | (.crash, site, _) => some ⟨site, false⟩
      | (_, site, _) => some ⟨site, true⟩
  | .stop => some { inst with running := false }
  | .restart env =>
    match (onWorld (startDaemon srv.runtime)).run env 0 inst.site.cleared with
    | (.ok _, site, _) => some ⟨site, true⟩
    | (_, site, _) => some ⟨site, false⟩
  | .reset env =>
    if inst.running then none
    else some ⟨((onWorld resetOwner).run env 0 inst.site).2.1, false⟩

/-- A store that has just been created, before the first start. -/
structure Fresh : Prop where
  running : inst.running = false
  durable : inst.site.world.durable = newState
  value : inst.site.world.value = newState
  drawn : inst.site.drawn = []

end Installation

/-- The runs of an installation. -/
abbrev InstallationRun (srv : Server) : List Turn → Installation → Prop :=
  Run Installation.Fresh fun inst turn inst' => inst.step srv turn = some inst'

/-! ## What a start stores -/

/-- However it got there, the store holds a state that `A` allows. -/
def Evolved (A : State → Prop) (w : World) : Prop := ∃ s, A s ∧ s.Valid ∧ Held w s

/-- The same, and the clock has passed `t`. -/
def EvolvedSince (t : Time) (A : State → Prop) (w : World) : Prop := Evolved A w ∧ t ≤ w.clock

section Evolved

variable {α : Type} {E : Event → Prop} {A : State → Prop} {t : Time}

/-- What is kept from any moment on is kept. -/
theorem maintains_evolved_of_since {c : Op α}
    (h : ∀ t, Maintains E (MayCrash E) (EvolvedSince t A) c) :
    Maintains E (MayCrash E) (Evolved A) c := fun w hw =>
  wp_mono (h w.clock w ⟨hw, Int.le_refl _⟩) (fun _ _ hw' => hw'.1) fun _ hw' => ⟨hw'.1, hw'.2.1⟩

theorem maintains_since_timed {c : Op α} (h : Keeps E (MayCrash E) World.timed c) :
    Maintains E (MayCrash E) (EvolvedSince t A) c := by
  rintro w ⟨⟨s, hs, hvalid, hheld⟩, hclock⟩
  have hend : ∀ w' : World, w'.timed = w.timed → EvolvedSince t A w' := by
    intro w' hw'
    have hsame : w'.clock = w.clock := congrArg Prod.snd hw'
    exact ⟨⟨s, hs, hvalid, hheld.of_stored (congrArg Prod.fst hw')⟩, hsame ▸ hclock⟩
  exact h.step (fun _ w' hw' => hend w' hw') fun hc w' hw' => ⟨hc, hend w' hw'⟩

theorem maintains_since_moves {c : Op α} {B : State → State → Prop} (h : Moves c B)
    (hAB : ∀ s s', A s → s.Valid → B s s' → A s') :
    Maintains E (MayCrash E) (EvolvedSince t A) c := by
  rintro w ⟨⟨s, hs, hvalid, hheld⟩, hclock⟩
  have hend : ∀ w', (∃ s', (s' = s ∨ B s s') ∧ s'.Valid ∧ Held w' s' ∧ w.clock ≤ w'.clock) →
      EvolvedSince t A w' := by
    rintro w' ⟨s', hs', hvalid', hheld', hclock'⟩
    refine ⟨⟨s', ?_, hvalid', hheld'⟩, Int.le_trans hclock hclock'⟩
    rcases hs' with rfl | hs'
    · exact hs
    · exact hAB s s' hs hvalid hs'
  exact wp_mono (h E s w hheld hvalid) (fun _ w' hw' => hend w' hw') fun w' hw' =>
    ⟨hw'.1, hend w' hw'.2⟩

theorem maintains_evolved {c : Op α} {B : State → State → Prop} (h : Moves c B)
    (hAB : ∀ s s', A s → B s s' → A s') : Maintains E (MayCrash E) (Evolved A) c :=
  maintains_evolved_of_since fun _ => maintains_since_moves h fun s s' hs _ => hAB s s' hs

theorem maintains_since_openStore (hA : ∀ s, A s → A { s with bootstrap := none }) :
    Maintains E (MayCrash E) (EvolvedSince t A) openStore := by
  rintro w ⟨⟨s, hs, hvalid, hheld⟩, hclock⟩
  obtain ⟨b, hb⟩ := hheld.durable
  refine wp_bind (wp_get ?_)
  rw [either_ok]
  split
  · exact wp_fail ⟨⟨s, hs, hvalid, hheld⟩, hclock⟩
  · refine wp_modify ⟨⟨_, hA s hs, hvalid.dropBootstrap, ?_, ⟨b, hb⟩,
      hheld.encodable.dropBootstrap⟩, hclock⟩
    dsimp only
    rw [hb]

theorem maintains_evolved_openStore (hA : ∀ s, A s → A { s with bootstrap := none }) :
    Maintains E (MayCrash E) (Evolved A) openStore :=
  maintains_evolved_of_since fun _ => maintains_since_openStore hA

theorem keeps_timed_prepareTor {p : Paths} {s : State} :
    Keeps E (MayCrash E) World.timed (prepareTor p s) := by
  have h := ignores_timed
  unfold prepareTor
  refine keeps_bind (keeps_ensure h trivial p) fun _ => ?_
  refine keeps_bind
    (keeps_recoverIdentity h trivial trivial trivial (fun _ => trivial) _) fun _ => ?_
  refine keeps_bind (keeps_reconcile h trivial _ _) fun _ => ?_
  exact keeps_writeConfig (fun _ _ => rfl) p _

theorem keeps_timed_prepareAuthelia (rt : Runtime) (id : String) :
    Keeps E (MayCrash E) World.timed (prepareAuthelia rt id) := by
  have h := ignoresServices_timed
  refine keeps_bind (h.keeps_writeAuthConfig rt id) fun _ => ?_
  exact keeps_bind (h.keeps_setServiceID id) fun _ => keeps_authelia_validate

theorem keeps_timed_startProcesses (rt : Runtime) (s : State) :
    Keeps E (MayCrash E) World.timed (startProcesses rt s) := by
  refine keeps_bind (keeps_of_wp fun w => wp_ask fun e he => ?_) fun _ => ?_
  · split
    next hc => exact ⟨⟨e, he, hc⟩, rfl⟩
    next =>
      split
      · exact rfl
      · exact rfl
  · refine keeps_bind (keeps_modify fun _ => rfl) fun _ => keeps_modify fun w => ?_
    split
    · rfl
    · rfl

theorem keeps_timed_waitServiceID : Keeps E (MayCrash E) World.timed waitServiceID := by
  refine keeps_bind keeps_get fun w => ?_
  split
  · exact keeps_pure _
  · exact keeps_fail _

/-- A start drops the bootstrap window, stores the service id where there is none and drops an
expired pending device. -/
theorem maintains_since_startDaemon (rt : Runtime) (hboot : ∀ s, A s → A { s with bootstrap := none })
    (hid : ∀ s id, A s → A { s with serviceID := id })
    (hpending : ∀ s, A s → A { s with pending := none }) :
    Maintains E (MayCrash E) (EvolvedSince t A) (startDaemon rt) := by
  have hview : Maintains E (MayCrash E) (EvolvedSince t A) viewState :=
    maintains_bind maintains_get fun _ => maintains_pure _
  have hauthelia (id : String) : Maintains E (MayCrash E) (EvolvedSince t A) (prepareAuthelia rt id) :=
    maintains_since_timed (keeps_timed_prepareAuthelia rt id)
  have hrest (current : State) : Maintains E (MayCrash E) (EvolvedSince t A) (do
      startProcesses rt current
      let id ← waitServiceID
      storeServiceID rt current id
      reconcileTor
      rt.loadCaddy (rt.renderer.render (← viewState))) := by
    refine maintains_bind (maintains_since_timed (keeps_timed_startProcesses rt _)) fun _ => ?_
    refine maintains_bind (maintains_since_timed keeps_timed_waitServiceID) fun id => ?_
    refine maintains_bind ?_ fun _ => maintains_bind ?_ fun _ => ?_
    · unfold storeServiceID
      split
      · refine maintains_bind ?_ fun _ => hauthelia id
        have hcommits : Commits (worldStore.transition (some fun next =>
            return changed { next with serviceID := id } none ())) fun s _ s' =>
              s' = { s with serviceID := id } :=
          commits_transition fun _ _ => determines_pure fun _ => rfl
        refine maintains_since_moves hcommits.stores.moves ?_
        rintro s _ hs - ⟨_, rfl⟩
        exact hid s id hs
      · split
        · exact maintains_fail _
        · exact maintains_pure _
    · refine maintains_since_moves commits_reconcileTor.stores.moves ?_
      rintro s _ hs - ⟨_, rfl | rfl⟩
      · exact hs
      · exact hpending s hs
    · exact maintains_bind hview fun _ =>
        maintains_since_timed (ignoresServices_timed.keeps_load rt _)
  unfold startDaemon Runtime.restart
  refine maintains_bind ?_ fun _ => ?_
  · refine maintains_bind (maintains_since_openStore hboot) fun _ => ?_
    exact maintains_bind hview fun _ => maintains_since_timed keeps_timed_prepareTor
  · refine maintains_bind hview fun current => ?_
    split
    · exact hrest current
    · exact maintains_bind (hauthelia _) fun _ => hrest current

theorem maintains_startDaemon (rt : Runtime) (hboot : ∀ s, A s → A { s with bootstrap := none })
    (hid : ∀ s id, A s → A { s with serviceID := id })
    (hpending : ∀ s, A s → A { s with pending := none }) :
    Maintains E (MayCrash E) (Evolved A) (startDaemon rt) :=
  maintains_evolved_of_since fun _ => maintains_since_startDaemon rt hboot hid hpending

end Evolved

end Torkitten.Api
