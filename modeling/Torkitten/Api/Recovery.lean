import Torkitten.Api.Lifecycle

/-!
# Owner recovery beside a daemon

`torkittenctl owner reset` and the daemon are two processes. Each reads the state file once, keeps
the whole state in memory and writes the whole file. What keeps them apart is a port: the daemon
listens on `0.0.0.0:12755`, and the reset holds `127.0.0.1:12755` while it works. But the daemon
binds the port at the end of its start, long after it has read the file, and closes it at the
beginning of its end, while requests are still being served. A daemon that has read the file before
the reset and writes it afterwards brings the owner back.

## Main definitions

* `Phase`, `Stage`: how far the daemon and the reset have come;
* `System.step`: the moves of the two processes, in any order.

## Main results

* `reset_kept`: a reset stays in force when no daemon has the file open at the moment it is written;
* `reset_undone`: a daemon that is starting brings the owner back.
-/

namespace Torkitten.Recovery

open Proc Api

/-- How far a process of the daemon has come. -/
inductive Phase where
  | stopped
  /-- The file has been read. -/
  | opened
  /-- The service id is known and stored. -/
  | identified
  /-- Tor has been reconciled; the port is not bound yet. -/
  | reconciled
  | serving
  /-- The port is closed; the requests that have begun still run. -/
  | closing
  deriving DecidableEq, Repr

/-- How far `torkittenctl owner reset` has come. -/
inductive Stage where
  | absent
  /-- The port is held. -/
  | guarding
  /-- The file has been read. -/
  | opened (value : State)
  /-- The reset has been tried; the process still holds the port. -/
  | done
  deriving DecidableEq

/-- The two processes and what they share. The value in memory is the one of the daemon. -/
structure System where
  world : World
  daemon : Phase
  reset : Stage

/-- A move of one of the processes, with the events met. -/
inductive Move where
  /-- The daemon opens the state file. -/
  | launch (env : ℕ → Event)
  /-- The daemon starts its processes and stores the service id, if there is none. -/
  | identify (env : ℕ → Event)
  /-- The daemon reconciles Tor and loads Caddy's routes. -/
  | reconcile (env : ℕ → Event)
  /-- The daemon binds its port. -/
  | bind
  /-- A request, or the loop in the background, makes an operation run. -/
  | call (c : TokenCall) (env : ℕ → Event)
  /-- The daemon closes its port. -/
  | close
  /-- The process of the daemon ends. -/
  | exit
  /-- The reset binds its port. -/
  | guard
  /-- The reset opens the state file. -/
  | read (env : ℕ → Event)
  /-- The reset writes the state file. -/
  | stage (env : ℕ → Event)
  /-- The process of the reset ends. -/
  | release

/-- The console makes sessions and tokens for an owner only. -/
def needsOwner : TokenCall → Bool
  | .create _ _ _ => true
  | .other (.createSession _) => true
  | _ => false

/-- The start of the daemon, from the opened file to the service id. -/
def identify (rt : Runtime) : Op Unit := do
  let current ← viewState
  prepareTor rt.tor current
  if current.serviceID = "" then pure () else prepareAuthelia rt current.serviceID
  startProcesses rt current
  let id ← waitServiceID
  storeServiceID rt current id

/-- The rest of the start, up to the moment when the daemon listens. -/
def reconcile (rt : Runtime) : Op Unit := do
  reconcileTor
  rt.loadCaddy (rt.renderer.render (← viewState))

namespace System

variable (digest : Digest) (rt : Runtime) (sys : System)

/-- The port of the daemon is open. -/
def listening : Bool := sys.daemon == .serving

/-- The port of the reset is open. -/
def guarded : Bool := sys.reset != .absent

/-- The daemon runs an operation, in which it may die; the phases after it has returned nil and an
error. -/
def perform {α : Type} (c : Op α) (env : ℕ → Event) (next failed : Phase) : System × Bool :=
  match c.run env 0 sys.world with
  | (.ok _, world, _) => ({ sys with world, daemon := next }, true)
  | (.error _, world, _) => ({ sys with world, daemon := failed }, false)
  | (.crash, world, _) => ({ sys with world, daemon := .stopped }, false)

/-- The reset works on its own memory; only the file is shared. -/
def stage (value : State) (env : ℕ → Event) : System × Bool :=
  match stageOwnerReset.run env 0 { sys.world with value } with
  | (.ok _, w, _) =>
    ({ sys with world := { sys.world with durable := w.durable }, reset := .done }, true)
  | (_, w, _) =>
    ({ sys with world := { sys.world with durable := w.durable }, reset := .done }, false)

/-- One move, if it can be made, and whether it succeeded. -/
def step : Move → Option (System × Bool)
  | .launch env =>
    if sys.daemon ≠ .stopped then none
    -- a new process has no buckets
    else some ({ sys with world := { sys.world with rates := ∅ } }.perform openStore env .opened .stopped)
  | .identify env =>
    if sys.daemon ≠ .opened then none
    else some (sys.perform (identify rt) env .identified .stopped)
  | .reconcile env =>
    if sys.daemon ≠ .identified then none
    else some (sys.perform (reconcile rt) env .reconciled .stopped)
  | .bind =>
    if sys.daemon ≠ .reconciled then none
    else if sys.guarded then some ({ sys with daemon := .stopped }, false)
    else some ({ sys with daemon := .serving }, true)
  | .call c env =>
    if c = .reset || !(sys.listening || sys.daemon == .closing) then none
    else if needsOwner c && !sys.world.value.initialized then some (sys, false)
    else some (sys.perform (c.op digest rt) env sys.daemon sys.daemon)
  | .close => if !sys.listening then none else some ({ sys with daemon := .closing }, true)
  | .exit => some ({ sys with daemon := .stopped }, true)
  | .guard =>
    if sys.guarded then none
    else if sys.listening then some (sys, false)
    else some ({ sys with reset := .guarding }, true)
  | .read env =>
    if sys.reset ≠ .guarding then none
    else
      match openStore.run env 0 sys.world with
      | (.ok _, w, _) => some ({ sys with reset := .opened w.value }, true)
      | _ => some ({ sys with reset := .done }, false)
  | .stage env =>
    match sys.reset with
    | .opened value => some (sys.stage value env)
    | _ => none
  | .release => if !sys.guarded then none else some ({ sys with reset := .absent }, true)

/-- No process runs, and the file holds a valid state. -/
structure Initial : Prop where
  daemon : sys.daemon = .stopped
  reset : sys.reset = .absent
  valid : sys.world.durable.Valid
  encodable : sys.world.durable.Encodable

end System

/-- The runs of the two processes, each move with whether it succeeded. -/
abbrev RecoveryRun (digest : Digest) (rt : Runtime) : List (Move × Bool) → System → Prop :=
  Run System.Initial fun sys l sys' => sys.step digest rt l.1 = some (sys', l.2)

/-- The runs in which the reset writes the file only while no daemon has it open. -/
abbrev OrderlyRun (digest : Digest) (rt : Runtime) : List (Move × Bool) → System → Prop :=
  Run System.Initial fun sys l sys' =>
    (∀ env, l.1 = .stage env → sys.daemon = .stopped) ∧ sys.step digest rt l.1 = some (sys', l.2)

/-- Whether a recorded move puts a reset in force, or ends one. -/
def decides : Move × Bool → Option Bool
  | (.stage _, true) => some true
  | (.call (.other (.completeSetup _)) _, true) => some false
  | _ => none

/-- A reset has succeeded, and no setup has been completed since. -/
def inForce : List (Move × Bool) → Bool
  | [] => false
  | l :: ls => (decides l).getD (inForce ls)

/-- The state has no owner and gives no authority. -/
structure Ownerless (s : State) : Prop extends Blank s where
  initialized : s.initialized = false

/-! ## What keeps a state ownerless -/

theorem Ownerless.withBootstrap {s : State} (h : Ownerless s) (b : Option BootstrapWindow) :
    Ownerless { s with bootstrap := b } :=
  ⟨⟨h.sessions, h.tokens, h.pending, h.publication⟩, h.initialized⟩

theorem ownerless_ownerless (s : State) : Ownerless (ownerless s) := ⟨⟨rfl, rfl, rfl, rfl⟩, rfl⟩

theorem Ownerless.dropsPending {s s' : State} (h : Ownerless s) (hs' : DropsPending s () s') :
    Ownerless s' := by
  rcases hs' with rfl | rfl
  · exact h
  · exact ⟨⟨h.sessions, h.tokens, rfl, h.publication⟩, h.initialized⟩

/-- Without an owner a call other than the setup keeps the state ownerless. -/
theorem Ownerless.allows {digest : Digest} {s s' : State} {c : TokenCall} (h : Ownerless s)
    (hvalid : s'.Valid) (howner : needsOwner c = false)
    (hsetup : ∀ session, c ≠ .other (.completeSetup session)) (hs' : c.Allows digest s s') :
    Ownerless s' := by
  have hinit : s.initialized ≠ true := by simp [h.initialized]
  cases c with
  | create name scopes lifetime => cases howner
  | authorize token required =>
    obtain ⟨used, rfl⟩ := hs'
    exact ⟨⟨h.sessions, by simp [h.tokens], h.pending, h.publication⟩, h.initialized⟩
  | revoke id =>
    obtain rfl := hs'
    exact ⟨⟨h.sessions, by simp [h.tokens], h.pending, h.publication⟩, h.initialized⟩
  | reset =>
    obtain rfl := hs'
    exact ownerless_ownerless s
  | other call =>
    cases call with
    | completeSetup session => exact absurd rfl (hsetup session)
    | mapping call => exact absurd hs'.1 hinit
    | rotateIdentity confirmation => exact absurd hs'.1 hinit
    | setPublication enabled =>
      -- a published state without an owner is not valid
      obtain rfl := hs'
      refine ⟨⟨h.sessions, h.tokens, h.pending, ?_⟩, h.initialized⟩
      exact Bool.eq_false_iff.mpr fun hpublic => hinit (hvalid.wellFormed.publication hpublic).1
    | createDevice name => exact absurd hs'.2.1 hinit
    | acknowledgeDevice id =>
      obtain ⟨pending, _, hpending, -⟩ := hs'
      rw [h.pending] at hpending
      cases hpending
    | revokeDevice id =>
      obtain rfl := hs'
      exact ⟨⟨h.sessions, h.tokens, h.pending, h.publication⟩, h.initialized⟩
    | expirePending => exact h.dropsPending hs'
    | reconcileTor => exact h.dropsPending hs'
    | createSession owner => cases howner
    | authenticate cookie =>
      obtain ⟨raw, t, rfl⟩ := hs'
      exact ⟨⟨by simp [touched, touch, prune, h.sessions], h.tokens, h.pending, h.publication⟩, h.initialized⟩
    | revokeSession id =>
      obtain rfl := hs'
      exact ⟨⟨by simp [h.sessions], h.tokens, h.pending, h.publication⟩, h.initialized⟩
    | revokeAllSessions =>
      obtain rfl := hs'
      exact ⟨⟨rfl, h.tokens, h.pending, h.publication⟩, h.initialized⟩

/-! ## Runs -/

section Runs

variable {digest : Digest} {rt : Runtime} {sys sys' : System} {A : State → Prop}
  {ls : List (Move × Bool)} {l : Move × Bool}

/-- A state file that a daemon can open, and what is known of its state. -/
def Filed (A : State → Prop) (file : State) : Prop :=
  ∃ s b, A s ∧ s.Valid ∧ s.Encodable ∧ file = { s with bootstrap := b }

theorem filed_of_evolved {w : World} (h : Evolved A w) : Filed A w.durable := by
  obtain ⟨s, hs, hvalid, -, ⟨b, hb⟩, henc⟩ := h
  exact ⟨s, b, hs, hvalid, henc, hb⟩

/-- A store that has been opened holds the state of the file. -/
theorem Filed.opened {file : State} (h : Filed A file)
    (hA : ∀ s, A s → A { s with bootstrap := none }) :
    A { file with bootstrap := none } ∧ { file with bootstrap := none }.Valid ∧
      { file with bootstrap := none }.Encodable := by
  obtain ⟨s, b, hs, hvalid, henc, rfl⟩ := h
  exact ⟨hA s hs, hvalid.dropBootstrap, henc.dropBootstrap⟩

theorem wp_openStore {E : Event → Prop} {w : World} :
    wp E openStore
      (either (fun _ w' => w' = { w with value := { w.durable with bootstrap := none } })
        fun _ w' => w' = w) (fun _ => False) w := by
  refine wp_bind (wp_get ?_)
  rw [either_ok]
  split
  · exact wp_fail rfl
  · exact wp_modify rfl

/-- The reset replaces the file by the state it has read, without the owner, or leaves it alone. -/
theorem wp_stageOwnerReset {E : Event → Prop} {w : World} (henc : w.value.Encodable) :
    wp E stageOwnerReset
      (either (fun _ w' => w'.durable = ownerless w.value ∧ (ownerless w.value).Valid ∧
        (ownerless w.value).Encodable) fun _ w' => w'.durable = w.durable)
      (fun w' => w'.durable = w.durable) w := by
  refine wp_worldTransition henc ?_
  split
  · exact wp_fail rfl
  · refine wp_pure ?_
    exact wp_worldCommit (fun _ => rfl) (fun _ => rfl) fun _ hvalid henc' => ⟨rfl, hvalid, henc'⟩

/-- What is known of the stored state after a run. -/
def Standing (ls : List (Move × Bool)) (s : State) : Prop := inForce ls = true → Ownerless s

theorem standing_cons (hl : decides l = none) : Standing (l :: ls) = Standing ls := by
  funext s
  simp [Standing, inForce, hl]

/-- What the record of a run says about the two processes. -/
structure Inv (ls : List (Move × Bool)) (sys : System) : Prop where
  file : Filed (Standing ls) sys.world.durable
  memory : sys.daemon ≠ .stopped → Evolved (Standing ls) sys.world
  reset : ∀ v, sys.reset = .opened v → v.Valid ∧ v.Encodable

theorem Inv.perform {α : Type} {c : Op α} {env : ℕ → Event} {next failed : Phase}
    (h : Inv ls sys) (hc : Evolved (Standing (l :: ls)) (c.run env 0 sys.world).2.1) :
    Inv (l :: ls) (sys.perform c env next failed).1 := by
  unfold System.perform
  rcases hrun : c.run env 0 sys.world with ⟨out, w, n⟩
  rw [hrun] at hc
  cases out with
  | ok _ => exact ⟨filed_of_evolved hc, fun _ => hc, h.reset⟩
  | error _ => exact ⟨filed_of_evolved hc, fun _ => hc, h.reset⟩
  | crash => exact ⟨filed_of_evolved hc, fun hd => absurd rfl hd, h.reset⟩

/-- The port, and the processes, do not touch the file. -/
theorem Inv.still (h : Inv ls sys) (hl : decides l = none)
    (hworld : sys'.world = sys.world) (hdaemon : sys.daemon = .stopped → sys'.daemon = .stopped)
    (hreset : ∀ v, sys'.reset = .opened v → sys.reset = .opened v) : Inv (l :: ls) sys' := by
  have hsame : Standing (l :: ls) = Standing ls := standing_cons hl
  refine ⟨?_, fun hd => ?_, fun v hv => h.reset v (hreset v hv)⟩
  · rw [hsame, hworld]
    exact h.file
  · rw [hsame, hworld]
    exact h.memory fun hstopped => hd (hdaemon hstopped)

theorem Inv.launch {env : ℕ → Event} (h : Inv ls sys) (b : Bool) :
    Inv ((.launch env, b) :: ls) ({ sys with world := { sys.world with rates := ∅ } }.perform openStore
      env .opened .stopped).1 := by
  obtain ⟨hA, hvalid, henc⟩ := h.file.opened fun s hs hforce => (hs hforce).withBootstrap none
  have hopen := (wp_openStore (E := fun _ => True) (w := { sys.world with rates := ∅ })).at env 0
    fun _ => trivial
  unfold System.perform
  rcases hrun : openStore.run env 0 { sys.world with rates := ∅ } with ⟨out, w, n⟩
  rw [hrun] at hopen
  cases out with
  | ok _ =>
    obtain rfl := hopen
    exact ⟨h.file, fun _ => ⟨_, hA, hvalid, rfl, ⟨sys.world.durable.bootstrap, rfl⟩, henc⟩, h.reset⟩
  | error err =>
    obtain rfl := hopen
    exact ⟨h.file, fun hd => absurd rfl hd, h.reset⟩
  | crash => exact hopen.elim

theorem maintains_identify {E : Event → Prop} (hid : ∀ s id, A s → A { s with serviceID := id }) :
    Maintains E (MayCrash E) (Evolved A) (identify rt) := by
  refine maintains_evolved_of_since fun t => ?_
  have hauthelia (id : String) : Maintains E (MayCrash E) (EvolvedSince t A) (prepareAuthelia rt id) :=
    maintains_since_timed (keeps_timed_prepareAuthelia rt id)
  have hstore (current : State) (id : String) :
      Maintains E (MayCrash E) (EvolvedSince t A) (storeServiceID rt current id) := by
    unfold storeServiceID
    split
    · have hcommits : Commits (worldStore.transition (some fun next =>
          return changed { next with serviceID := id } none ())) fun s _ s' =>
            s' = { s with serviceID := id } :=
        commits_transition fun _ _ => determines_pure fun _ => rfl
      refine maintains_bind (maintains_since_moves hcommits.stores.moves ?_) fun _ => hauthelia id
      rintro s _ hs - ⟨_, rfl⟩
      exact hid s id hs
    · split
      · exact maintains_fail _
      · exact maintains_pure _
  have hrest (current : State) : Maintains E (MayCrash E) (EvolvedSince t A) (do
      startProcesses rt current
      let id ← waitServiceID
      storeServiceID rt current id) :=
    maintains_bind (maintains_since_timed (keeps_timed_startProcesses rt _)) fun _ =>
      maintains_bind (maintains_since_timed keeps_timed_waitServiceID) fun id => hstore current id
  unfold identify
  refine maintains_bind (maintains_bind maintains_get fun _ => maintains_pure _) fun current => ?_
  refine maintains_bind (maintains_since_timed keeps_timed_prepareTor) fun _ => ?_
  split
  · exact hrest current
  · exact maintains_bind (hauthelia _) fun _ => hrest current

theorem maintains_reconcile {E : Event → Prop} (hpending : ∀ s, A s → A { s with pending := none }) :
    Maintains E (MayCrash E) (Evolved A) (reconcile rt) := by
  refine maintains_evolved_of_since fun t => maintains_bind ?_ fun _ => ?_
  · refine maintains_since_moves commits_reconcileTor.stores.moves ?_
    rintro s _ hs - ⟨_, rfl | rfl⟩
    · exact hs
    · exact hpending s hs
  · exact maintains_bind (maintains_bind maintains_get fun _ => maintains_pure _) fun _ =>
      maintains_since_timed (ignoresServices_timed.keeps_load rt _)

/-- A setup that fails has stored nothing. -/
theorem evolved_completeSetup_fails {w : World} {session : LocalSession} {env : ℕ → Event}
    (h : Evolved A w) (hfails : ∀ a, (((TokenCall.other (.completeSetup session)).op digest rt).run env 0
      w).1 ≠ .ok a) :
    Evolved A (((TokenCall.other (.completeSetup session)).op digest rt).run env 0 w).2.1 := by
  obtain ⟨s, hs, hvalid, hheld⟩ := h
  have hend : wp (fun _ => True) ((TokenCall.other (.completeSetup session)).op digest rt)
      (either (fun _ _ => True) fun _ w' => w.Since w') (fun w' => w.Since w') w := by
    refine wp_bind (wp_mono (commits_caddyChange rt (initializeMutation session) _ s w hheld) ?_
      fun _ hc => hc.2)
    intro r w' hr
    cases r with
    | ok _ => exact wp_pure trivial
    | error err => exact hr
  have hends := hend.at env 0 fun _ => trivial
  refine ⟨s, hs, hvalid, hheld.of_since ?_⟩
  revert hends hfails
  cases (((TokenCall.other (.completeSetup session)).op digest rt).run env 0 w).1 with
  | ok a => exact fun hfails _ => absurd rfl (hfails a)
  | error err => exact fun _ hends => hends
  | crash => exact fun _ hends => hends

theorem evolved_of_moves {α : Type} {c : Op α} {B : State → State → Prop} {A' : State → Prop}
    {w : World} {env : ℕ → Event} (h : Moves c B) (hw : Evolved A w) (hsame : ∀ s, A s → A' s)
    (hmove : ∀ s', A w.value → s'.Valid → B w.value s' → A' s') :
    Evolved A' (c.run env 0 w).2.1 := by
  obtain ⟨s, hs, hvalid, hheld⟩ := hw
  obtain ⟨rfl, -⟩ := id hheld
  have hend : ∀ w', (∃ s', (s' = w.value ∨ B w.value s') ∧ s'.Valid ∧ Held w' s' ∧ w.clock ≤ w'.clock) →
      Evolved A' w' := by
    rintro w' ⟨s', rfl | hs', hvalid', hheld', -⟩
    · exact ⟨_, hsame _ hs, hvalid', hheld'⟩
    · exact ⟨s', hmove s' hs hvalid' hs', hvalid', hheld'⟩
  exact (wp_mono (h (fun _ => True) _ w hheld hvalid) (fun _ w' hw' => hend w' hw')
    fun w' hw' => hend w' hw'.2).leaves env 0 fun _ => trivial

theorem decides_call {c : TokenCall} {env : ℕ → Event} {b : Bool}
    (hsetup : ∀ session, c ≠ .other (.completeSetup session)) : decides (.call c env, b) = none := by
  unfold decides
  split
  next h => cases h
  next h =>
    cases h
    exact absurd rfl (hsetup _)
  next => rfl

/-- The calls of a daemon that has the file open. -/
theorem Inv.call {c : TokenCall} {env : ℕ → Event} (h : Inv ls sys) (hd : sys.daemon ≠ .stopped)
    (howner : needsOwner c = true → sys.world.value.initialized = true) :
    Inv ((.call c env, (sys.perform (c.op digest rt) env sys.daemon sys.daemon).2) :: ls)
      (sys.perform (c.op digest rt) env sys.daemon sys.daemon).1 := by
  refine h.perform ?_
  by_cases hsetup : ∃ session, c = .other (.completeSetup session)
  · obtain ⟨session, rfl⟩ := hsetup
    by_cases hok : (sys.perform ((TokenCall.other (.completeSetup session)).op digest rt) env sys.daemon
      sys.daemon).2 = true
    · -- a new setup ends the reset
      rw [hok]
      exact evolved_of_moves (moves_tokenCall digest rt _) (h.memory hd) (fun _ _ => nofun)
        fun _ _ _ _ => nofun
    · rw [Bool.eq_false_iff.mpr hok]
      refine evolved_completeSetup_fails (h.memory hd) fun a hrun => hok ?_
      unfold System.perform
      rcases hres : ((TokenCall.other (.completeSetup session)).op digest rt).run env 0 sys.world with
        ⟨out, w, n⟩
      rw [hres] at hrun
      obtain rfl : out = .ok a := hrun
      rfl
  · have hother : ∀ session, c ≠ .other (.completeSetup session) := fun session hc =>
      hsetup ⟨session, hc⟩
    rw [standing_cons (decides_call hother)]
    refine evolved_of_moves (moves_tokenCall digest rt c) (h.memory hd) (fun _ hs => hs) ?_
    intro s' hs hvalid hs' hforce
    refine (hs hforce).allows hvalid (Bool.eq_false_iff.mpr fun hneeds => ?_) hother hs'
    exact absurd (howner hneeds) (by simp [(hs hforce).initialized])

theorem Inv.stage {env : ℕ → Event} {v : State} (h : Inv ls sys) (hv : sys.reset = .opened v)
    (hd : sys.daemon = .stopped) :
    Inv ((.stage env, (sys.stage v env).2) :: ls) (sys.stage v env).1 := by
  obtain ⟨-, henc⟩ := h.reset v hv
  have hstage := (wp_stageOwnerReset (E := fun _ => True) (w := { sys.world with value := v }) henc).at
    env 0 fun _ => trivial
  unfold System.stage
  rcases hrun : stageOwnerReset.run env 0 { sys.world with value := v } with ⟨out, w, n⟩
  rw [hrun] at hstage
  cases out with
  | ok _ =>
    obtain ⟨hdurable, hvalid, henc'⟩ := hstage
    refine ⟨⟨ownerless v, none, fun _ => ownerless_ownerless v, hvalid, henc', hdurable⟩,
      fun h => absurd hd h, fun _ hv => by cases hv⟩
  | error err =>
    refine ⟨?_, fun h => absurd hd h, fun _ hv => by cases hv⟩
    have hdurable : w.durable = sys.world.durable := hstage
    rw [hdurable]
    exact h.file
  | crash =>
    refine ⟨?_, fun h => absurd hd h, fun _ hv => by cases hv⟩
    have hdurable : w.durable = sys.world.durable := hstage
    rw [hdurable]
    exact h.file

theorem Inv.read {env : ℕ → Event} {b : Bool} (h : Inv ls sys) {reset : Stage}
    (hreset : ∀ v, reset = .opened v → v = { sys.world.durable with bootstrap := none }) :
    Inv ((.read env, b) :: ls) { sys with reset } := by
  refine ⟨h.file, h.memory, fun v hv => ?_⟩
  rw [hreset v hv]
  exact (h.file.opened fun s hs hforce => (hs hforce).withBootstrap none).2

/-- One move, when the reset writes the file only while no daemon has it open. -/
theorem Inv.step (h : Inv ls sys) (horder : ∀ env, l.1 = .stage env → sys.daemon = .stopped)
    (hstep : sys.step digest rt l.1 = some (sys', l.2)) : Inv (l :: ls) sys' := by
  obtain ⟨move, b⟩ := l
  dsimp only at horder hstep
  cases move with
  | launch env =>
    obtain ⟨-, heq⟩ := Option.ite_none_left_eq_some.mp hstep
    obtain ⟨rfl, rfl⟩ := Prod.ext_iff.mp (Option.some.inj heq).symm
    exact h.launch _
  | identify env =>
    obtain ⟨hd, heq⟩ := Option.ite_none_left_eq_some.mp hstep
    obtain ⟨rfl, rfl⟩ := Prod.ext_iff.mp (Option.some.inj heq).symm
    refine h.perform ((maintains_identify ?_).run env 0 (h.memory (by simp_all)))
    exact fun s id hs hforce =>
      ⟨⟨(hs hforce).sessions, (hs hforce).tokens, (hs hforce).pending, (hs hforce).publication⟩,
        (hs hforce).initialized⟩
  | reconcile env =>
    obtain ⟨hd, heq⟩ := Option.ite_none_left_eq_some.mp hstep
    obtain ⟨rfl, rfl⟩ := Prod.ext_iff.mp (Option.some.inj heq).symm
    refine h.perform ((maintains_reconcile ?_).run env 0 (h.memory (by simp_all)))
    exact fun s hs hforce => (hs hforce).dropsPending (.inr rfl)
  | bind =>
    obtain ⟨hd, heq⟩ := Option.ite_none_left_eq_some.mp hstep
    have hphase : sys.daemon ≠ .stopped := by simp_all
    split at heq
    · cases heq
      exact h.still rfl rfl (fun _ => rfl) fun _ hv => hv
    · cases heq
      exact h.still rfl rfl (fun hs => absurd hs hphase) fun _ hv => hv
  | call c env =>
    obtain ⟨hd, heq⟩ := Option.ite_none_left_eq_some.mp hstep
    have hphase : sys.daemon ≠ .stopped := fun hs => by simp [System.listening, hs] at hd
    split at heq
    next hneeds =>
      cases heq
      refine h.still (decides_call fun session hc => ?_) rfl id fun _ hv => hv
      simp [hc, needsOwner] at hneeds
    next hneeds =>
      obtain ⟨rfl, rfl⟩ := Prod.ext_iff.mp (Option.some.inj heq).symm
      refine h.call hphase fun howner => ?_
      simpa [howner] using hneeds
  | close =>
    obtain ⟨hd, heq⟩ := Option.ite_none_left_eq_some.mp hstep
    cases heq
    refine h.still rfl rfl (fun hs => ?_) fun _ hv => hv
    simp [System.listening, hs] at hd
  | exit =>
    cases hstep
    exact h.still rfl rfl (fun _ => rfl) fun _ hv => hv
  | guard =>
    obtain ⟨hd, heq⟩ := Option.ite_none_left_eq_some.mp hstep
    split at heq
    · cases heq
      exact h.still rfl rfl id fun _ hv => hv
    · cases heq
      exact h.still rfl rfl id fun _ hv => by cases hv
  | read env =>
    obtain ⟨hd, heq⟩ := Option.ite_none_left_eq_some.mp hstep
    have hopen := (wp_openStore (E := fun _ => True) (w := sys.world)).at env 0 fun _ => trivial
    split at heq
    next w n hrun =>
      cases heq
      rw [hrun] at hopen
      obtain rfl := hopen
      refine h.read fun v hv => ?_
      cases hv
      rfl
    next =>
      cases heq
      exact h.read fun _ hv => by cases hv
  | stage env =>
    dsimp only [System.step] at hstep
    split at hstep
    next v hv =>
      obtain ⟨rfl, rfl⟩ := Prod.ext_iff.mp (Option.some.inj hstep).symm
      exact h.stage hv (horder env rfl)
    next => cases hstep
  | release =>
    obtain ⟨hd, heq⟩ := Option.ite_none_left_eq_some.mp hstep
    cases heq
    exact h.still rfl rfl id fun _ hv => by cases hv

end Runs

/-- A reset that has succeeded stays in force until a new setup is completed: the file has no owner,
no publication, no session and no token, in every run in which the reset writes it only while no
daemon has it open. -/
theorem reset_kept (digest : Digest) (rt : Runtime) (ls : List (Move × Bool)) (sys : System)
    (h : OrderlyRun digest rt ls sys) (hforce : inForce ls = true) :
    sys.world.durable.initialized = false ∧ sys.world.durable.publication = false ∧
      sys.world.durable.sessions = [] ∧ sys.world.durable.tokens = [] := by
  have hinv : Inv ls sys := by
    refine h.invariant ?_ fun ls sys l sys' hI hstep => hI.step hstep.1 hstep.2
    intro sys hinit
    refine ⟨⟨sys.world.durable, sys.world.durable.bootstrap, nofun, hinit.valid, hinit.encodable, rfl⟩,
      fun hd => absurd hinit.daemon hd, fun v hv => ?_⟩
    rw [hinit.reset] at hv
    cases hv
  obtain ⟨s, b, hs, -, -, hfile⟩ := hinv.file
  rw [hfile]
  exact ⟨(hs hforce).initialized, (hs hforce).publication, (hs hforce).sessions, (hs hforce).tokens⟩

/-- A host with an owner on which nothing runs. -/
def restingSystem : System := ⟨sampleWorld, .stopped, .absent⟩

theorem initial_restingSystem : restingSystem.Initial :=
  ⟨rfl, rfl, by decide +kernel, ⟨_, rfl⟩⟩

/-- The owner is reset, and then the daemon is started; newest move first. -/
def orderlyMoves : List Move :=
  [.launch sampleEvents, .release, .stage sampleEvents, .read sampleEvents, .guard]

/-- The owner is reset while the daemon is starting; newest move first. -/
def racingMoves : List Move :=
  [.reconcile sampleEvents, .stage sampleEvents, .read sampleEvents, .guard,
   .identify sampleEvents, .launch sampleEvents]

/-- A move of the sample system, with its record. -/
def System.recorded (sys : System) (move : Move) : Option (System × Move × Bool) :=
  (sys.step sampleDigest sampleRuntime move).map fun (next, ok) => (next, move, ok)

/-- A move that keeps the order. -/
def System.ordered (sys : System) (move : Move) : Option (System × Move × Bool) :=
  match move, sys.daemon with
  | .stage env, .stopped => sys.recorded (.stage env)
  | .stage _, _ => none
  | move, _ => sys.recorded move

theorem System.step_of_recorded {sys sys' : System} {move : Move} {l : Move × Bool}
    (h : sys.recorded move = some (sys', l)) :
    l.1 = move ∧ sys.step sampleDigest sampleRuntime l.1 = some (sys', l.2) := by
  obtain ⟨⟨next, ok⟩, hstep, heq⟩ := Option.map_eq_some_iff.mp h
  cases heq
  exact ⟨rfl, hstep⟩

theorem System.step_of_ordered {sys sys' : System} {move : Move} {l : Move × Bool}
    (h : sys.ordered move = some (sys', l)) :
    (∀ env, l.1 = .stage env → sys.daemon = .stopped) ∧
      sys.step sampleDigest sampleRuntime l.1 = some (sys', l.2) := by
  unfold System.ordered at h
  split at h
  next hd => exact ⟨fun _ _ => hd, (System.step_of_recorded h).2⟩
  next => cases h
  next hother _ =>
    obtain ⟨rfl, hstep⟩ := System.step_of_recorded h
    exact ⟨fun env henv => (hother env henv).elim, hstep⟩

/-- An orderly reset holds while the daemon is started again. -/
theorem reset_kept_restart : ∃ ls sys, OrderlyRun sampleDigest sampleRuntime ls sys ∧
    inForce ls = true ∧ sys.world.durable.initialized = false := by
  have heval : (follow System.ordered restingSystem orderlyMoves).any (fun (ls, _) => inForce ls) =
      true := by
    decide +kernel
  obtain ⟨⟨ls, sys⟩, hfollow, hforce⟩ := (Option.any_eq_true _ _).mp heval
  have hrun : OrderlyRun sampleDigest sampleRuntime ls sys :=
    .of_follow initial_restingSystem (fun _ _ _ _ h => System.step_of_ordered h) hfollow
  exact ⟨ls, sys, hrun, hforce, (reset_kept sampleDigest sampleRuntime ls sys hrun hforce).1⟩

/-- A daemon that has read the file before the reset, and reconciles Tor after it, brings back the
owner and the publication. -/
theorem reset_undone : ∃ ls sys, RecoveryRun sampleDigest sampleRuntime ls sys ∧
    inForce ls = true ∧ sys.world.durable.initialized = true ∧
      sys.world.durable.publication = true := by
  have heval : (follow System.recorded restingSystem racingMoves).any (fun (ls, sys) =>
      inForce ls && sys.world.durable.initialized && sys.world.durable.publication) = true := by
    decide +kernel
  obtain ⟨⟨ls, sys⟩, hfollow, hend⟩ := (Option.any_eq_true _ _).mp heval
  simp only [Bool.and_eq_true] at hend
  exact ⟨ls, sys, .of_follow initial_restingSystem (fun _ _ _ _ h => (System.step_of_recorded h).2)
    hfollow,
    hend.1.1, hend.1.2, hend.2⟩

end Torkitten.Recovery
