import Torkitten.Control.Identity

/-!
# A rotation is all-or-nothing

A rotation changes six things that refer to the onion identity: the hidden service directory, what
Tor runs with, the configuration file of Authelia, what Authelia runs with, the service id of its
client, and the configuration in Caddy. When a step fails and the compensating actions succeed, all
of them are as before the call; when no step fails, all of them refer to the new identity.

The proof follows the two halves of the rotation. Until the directories are moved, `Before` says
what a rollback without backup finds; afterwards, `After` says what a rollback with backup finds.
Either rollback ends in `Back`.

## Main results

* `rotateIdentity_allOrNothing`: the two possible ends of a rotation.
-/

namespace Torkitten

open Proc Tor

/-! ## What refers to the identity -/

/-- Everything that refers to an onion identity refers to the one of a state. -/
structure Serves (rt : Runtime) (s : State) (w : World) : Prop where
  active : Holds w .active s.serviceID
  tor : w.tor = { torrc := w.torrc, service := w.dirs .active }
  authConfig : ∃ text, rt.authelia.render s.serviceID = .ok text ∧ w.authConfig = some text
  authelia : w.authelia = w.authConfig
  clientID : w.clientID = s.serviceID
  caddy : rt.renderer.render s = .ok w.caddy

/-- A system in which everything agrees with the state in memory. -/
structure Consistent (rt : Runtime) (w : World) : Prop extends Serves rt w.value w where
  encodable : w.value.Encodable
  synced : ∃ b, w.value = { w.durable with bootstrap := b }
  /-- No other directory has the keys of the identity. -/
  alone : ∀ p d, p ≠ .active → w.dirs p = some d → d.keys ≠ some w.value.serviceID
  known : ∀ p d id, w.dirs p = some d → d.keys = some id → id ∈ w.used
  staged : ∀ n, n ∉ w.stages → w.dirs (.stage n) = none

/-- The system is as it was, and no stage remains. -/
structure Restored (w w' : World) : Prop where
  durable : w'.durable = w.durable
  value : w'.value = w.value
  active : w'.dirs .active = w.dirs .active
  tor : w'.tor = w.tor
  authConfig : w'.authConfig = w.authConfig
  authelia : w'.authelia = w.authelia
  clientID : w'.clientID = w.clientID
  caddy : w'.caddy = w.caddy
  stages : w'.stages = w.stages
  staged : ∀ n, w'.dirs (.stage n) = w.dirs (.stage n)

theorem Restored.refl (w : World) : Restored w w :=
  ⟨rfl, rfl, rfl, rfl, rfl, rfl, rfl, rfl, rfl, fun _ => rfl⟩

theorem Serves.sameRoutes {rt : Runtime} {s s' : State} {w : World} (h : Serves rt s w)
    (hroutes : SameRoutes s s') (hvalid : s'.Valid) : Serves rt s' w := by
  refine ⟨hroutes.serviceID ▸ h.active, h.tor, hroutes.serviceID ▸ h.authConfig, h.authelia,
    h.clientID.trans hroutes.serviceID.symm, ?_⟩
  rw [hroutes.render (valid_of_render h.caddy) hvalid, h.caddy]

/-! ## Environments in which compensating actions succeed -/

/-- Nothing fails. -/
structure Calm (E : Event → Prop) : Prop where
  crash : ¬ MayCrash E
  disk : ¬ DiskMayFail E
  service : ¬ ServiceMayFail E
  caddy : ¬ CaddyMayRestart E

/-- The process does not die, Caddy is not restarted, and no compensating action fails. -/
structure Sheltered (E : Event → Prop) : Prop where
  crash : ¬ MayCrash E
  caddy : ¬ CaddyMayRestart E
  undo : Calm (undone E)

namespace Calm

variable {E : Event → Prop} {Q : Except GoError Unit → World → Prop} {C : World → Prop} {w : World}
  {rt : Runtime} (h : Calm E)

include h

theorem wp_removeAll {p : HsPath} (hok : Q (.ok ()) (w.removed p)) : wp E (removeAll p) Q C w :=
  Torkitten.wp_removeAll (fun hc => absurd hc h.crash) (fun hf => absurd hf h.disk) hok

theorem wp_restart {c : Component} (hok : Q (.ok ()) (w.restarted c)) :
    wp E (restartComponent c) Q C w :=
  wp_serviceCall (fun hc => absurd hc h.crash) (fun hf => absurd hf h.service)
    (fun hf => absurd hf h.service) hok

theorem wp_failureIf_restart {Q : Except GoError (Option GoError) → World → Prop} (cond : Bool)
    (c : Component) (hok : Q (.ok none) (if cond then w.restarted c else w)) :
    wp E (failureIf cond (restartComponent c)) Q C w := by
  cases cond with
  | false => exact wp_pure hok
  | true => exact wp_failure (h.wp_restart hok)

theorem wp_writeAuthConfig {id text : String} (htext : rt.authelia.render id = .ok text)
    (hok : Q (.ok ()) { w with authConfig := some text }) :
    wp E (rt.writeAuthConfig id) Q C w := by
  apply Torkitten.wp_writeAuthConfig
  · intro err herr
    rw [htext] at herr
    cases herr
  · exact fun hc => absurd hc h.crash
  · exact fun hf => absurd hf h.disk
  · exact fun hf => absurd hf h.disk
  · intro text' htext'
    rw [htext] at htext'
    cases htext'
    exact hok

theorem wp_loadCaddy {config : String}
    (hok : Q (.ok ()) { w.loaded config with caddyFresh := false }) :
    wp E (rt.loadCaddy (.ok config)) Q C w := by
  apply wp_applyCaddy
  rintro _ (rfl | ⟨hr, _⟩)
  · exact ⟨fun hc => absurd hc h.crash, fun hf => absurd hf h.service, hok⟩
  · exact absurd hr h.caddy

end Calm

/-! ## Rolling back -/

/-- What the second half of a rollback leaves. -/
def World.servicesRestored (text id config : String) (tor auth : Bool) (w : World) : World :=
  let w := { w with authConfig := some text, clientID := id }
  let w := if tor then w.restarted .tor else w
  let w := if auth then w.restarted .authelia else w
  { w.loaded config with caddyFresh := false }

section ServicesRestored

variable (text id config : String) (tor auth : Bool) (w : World)

@[simp]
theorem servicesRestored_dirs : (w.servicesRestored text id config tor auth).dirs = w.dirs := by
  cases tor <;> cases auth <;> rfl

@[simp]
theorem servicesRestored_stages :
    (w.servicesRestored text id config tor auth).stages = w.stages := by
  cases tor <;> cases auth <;> rfl

@[simp]
theorem servicesRestored_tor : (w.servicesRestored text id config tor auth).tor =
    if tor then { torrc := w.torrc, service := w.dirs .active } else w.tor := by
  cases tor <;> cases auth <;> rfl

@[simp]
theorem servicesRestored_authelia : (w.servicesRestored text id config tor auth).authelia =
    if auth then some text else w.authelia := by
  cases tor <;> cases auth <;> rfl

@[simp]
theorem servicesRestored_authConfig :
    (w.servicesRestored text id config tor auth).authConfig = some text := by
  cases tor <;> cases auth <;> rfl

@[simp]
theorem servicesRestored_clientID : (w.servicesRestored text id config tor auth).clientID = id := by
  cases tor <;> cases auth <;> rfl

@[simp]
theorem servicesRestored_caddy : (w.servicesRestored text id config tor auth).caddy = config := by
  cases tor <;> cases auth <;> rfl

end ServicesRestored

/-- The directories that `hidden` does not hide. -/
def hide (hidden : HsPath → Bool) (dirs : HsPath → Option HsDir) (p : HsPath) : Option HsDir :=
  if hidden p then none else dirs p

theorem hide_update {hidden : HsPath → Bool} {p : HsPath} (hp : hidden p = true)
    (dirs : HsPath → Option HsDir) (d : Option HsDir) :
    hide hidden (Function.update dirs p d) = hide hidden dirs := by
  funext q
  unfold hide
  split
  next => rfl
  next hq =>
    rw [Function.update_of_ne]
    rintro rfl
    exact hq hp

/-- The directories that are moved by name: all but the stages. -/
def HsPath.named : HsPath → Bool
  | .stage _ => false
  | _ => true

/-- Everything but the directories that are moved by name. -/
def World.besideNamed (w : World) : World := { w with dirs := hide HsPath.named w.dirs }

theorem ignores_besideNamed : Ignores World.besideNamed (fun p => p.named = true) where
  dir w p d hp := by simp only [World.besideNamed, World.setDir, hide_update hp]
  erased _ _ h := by cases h
  inserted _ _ _ h := by cases h

section Rollback

variable {E : Event → Prop} {rt : Runtime} {current : State} {stage : IdentityStage}
  {w w₁ : World} {text config : String}

theorem Calm.wp_restoreServices (h : Calm E) (htext : rt.authelia.render current.serviceID = .ok text)
    (hconfig : rt.renderer.render current = .ok config) (tor auth : Bool) :
    wp E (rt.restoreServices current tor auth)
      (fun r w' => r = .ok [none, none, none, none] ∧
        w' = w.servicesRestored text current.serviceID config tor auth) (fun _ => False) w := by
  unfold Runtime.restoreServices
  refine wp_bind (wp_failure (h.wp_writeAuthConfig htext ?_))
  refine wp_bind (wp_modify ?_)
  refine wp_bind (h.wp_failureIf_restart tor .tor ?_)
  refine wp_bind (h.wp_failureIf_restart auth .authelia ?_)
  rw [hconfig]
  refine wp_bind (wp_failure (h.wp_loadCaddy ?_))
  exact wp_pure ⟨rfl, rfl⟩

/-- A rollback before the directories were moved. -/
theorem Sheltered.wp_rollback_none (h : Sheltered E)
    (htext : rt.authelia.render current.serviceID = .ok text)
    (hconfig : rt.renderer.render current = .ok config) (auth : Bool) :
    wp E (rt.rollback current stage none auth)
      (fun r w' => r = .ok () ∧ w' = (w.removed (.stage stage.root)).servicesRestored text
        current.serviceID config false auth) (fun _ => False) w := by
  unfold Runtime.rollback
  apply wp_undoing
  refine wp_bind (wp_ignore (h.undo.wp_removeAll ?_))
  refine wp_bind (wp_pure ?_)
  refine wp_bind (wp_mono (h.undo.wp_restoreServices htext hconfig false auth) ?_ fun _ hc => hc)
  rintro _ w' ⟨rfl, rfl⟩
  exact wp_pure ⟨rfl, rfl⟩

/-- A rollback after the directories were moved exchanges them first. -/
theorem Sheltered.wp_rollback_some (h : Sheltered E)
    (htext : rt.authelia.render current.serviceID = .ok text)
    (hconfig : rt.renderer.render current = .ok config) (auth : Bool) {d d' : HsDir}
    (hprevious : w.dirs .previous = some d) (hactive : w.dirs .active = some d') :
    wp E (rt.rollback current stage (some .previous) auth)
      (fun r w' => r = .ok () ∧ ∃ w₁ : World,
        w₁.besideNamed = (w.removed (.stage stage.root)).besideNamed ∧
        w₁.dirs .active = some d ∧
        w' = w₁.servicesRestored text current.serviceID config true auth) (fun _ => False) w := by
  unfold Runtime.rollback
  apply wp_undoing
  refine wp_bind (wp_ignore (h.undo.wp_removeAll ?_))
  refine wp_bind (wp_failure ?_)
  change wp (undone E) exchange _ _ _
  refine (keeps_exchange (f := World.besideNamed) ignores_besideNamed rfl rfl rfl).with ?_
  refine wp_exchange (d := d) (by simpa [dirs_removed] using hprevious) ?_ ?_ ?_ ?_
  · intro hwhy
    rcases hwhy with hf | hnone
    · exact absurd hf h.undo.disk
    · simp [dirs_removed, hactive] at hnone
  · exact fun hf => absurd hf h.undo.disk
  · intro w₁ hd _ _ hbeside
    refine wp_bind (wp_mono (h.undo.wp_restoreServices htext hconfig true auth) ?_ fun _ hc => hc)
    rintro _ w' ⟨rfl, rfl⟩
    exact wp_pure ⟨rfl, w₁, hbeside, hd, rfl⟩
  · exact fun _ hc => absurd hc h.undo.crash

/-! ## Before and after the directories are moved -/

/-- Nothing has been done yet that a rollback without backup could not undo. -/
structure Before (w w' : World) : Prop where
  active : w'.dirs .active = w.dirs .active
  failed : w'.dirs .failed = w.dirs .failed
  torrc : w'.torrc = w.torrc
  tor : w'.tor = w.tor
  authelia : w'.authelia = w.authelia

/-- The old identity is the backup of another one; unless Authelia has been restarted, it still
runs with its old configuration. -/
structure After (authRestarted : Bool) (w w' : World) : Prop where
  active : w'.dirs .active ≠ none
  previous : w'.dirs .previous = w.dirs .active
  failed : w'.dirs .failed = w.dirs .failed
  torrc : w'.torrc = w.torrc
  authelia : authRestarted = false → w'.authelia = w.authelia

/-- What refers to the identity is as before, and a stage is gone. -/
structure Back (n : ℕ) (w w' : World) : Prop where
  active : w'.dirs .active = w.dirs .active
  tor : w'.tor = w.tor
  authConfig : w'.authConfig = w.authConfig
  authelia : w'.authelia = w.authelia
  clientID : w'.clientID = w.clientID
  caddy : w'.caddy = w.caddy
  removed : w'.dirs (.stage n) = none ∧ n ∉ w'.stages

theorem Serves.wp_rollback_before (hE : Sheltered E) (h : Serves rt current w)
    (hbefore : Before w w₁) :
    wp E (rt.rollback current stage none false) (fun _ w' => Back stage.root w w')
      (fun _ => False) w₁ := by
  obtain ⟨text, htext, hauth⟩ := h.authConfig
  refine wp_mono (hE.wp_rollback_none htext h.caddy false) ?_ fun _ hc => hc
  rintro _ w' ⟨-, rfl⟩
  constructor
  case active => simpa [dirs_removed] using hbefore.active
  case tor => simpa [World.removed, World.setDir] using hbefore.tor
  case authConfig => simpa using hauth.symm
  case authelia => simpa [World.removed, World.setDir] using hbefore.authelia
  case clientID => simpa using h.clientID.symm
  case caddy => simp
  case removed => simp [World.removed, AList.mem_erase]

theorem Serves.wp_rollback_after (hE : Sheltered E) (h : Serves rt current w) {auth : Bool}
    (hafter : After auth w w₁) :
    wp E (rt.rollback current stage (some .previous) auth) (fun _ w' => Back stage.root w w')
      (fun _ => False) w₁ := by
  obtain ⟨text, htext, hauth⟩ := h.authConfig
  obtain ⟨d, hd, -⟩ := h.active
  obtain ⟨d', hd'⟩ := Option.ne_none_iff_exists'.mp hafter.active
  refine wp_mono (hE.wp_rollback_some htext h.caddy auth (hafter.previous.trans hd) hd') ?_
    fun _ hc => hc
  rintro _ w' ⟨-, w₂, hbeside, hactive, rfl⟩
  -- the exchange moves three directories and leaves the rest
  have htorrc : w₂.torrc = w.torrc := (congrArg World.torrc hbeside).trans hafter.torrc
  have hauthelia : w₂.authelia = w₁.authelia := (congrArg World.authelia hbeside).trans rfl
  have hstages : w₂.stages = w₁.stages.erase stage.root :=
    (congrArg World.stages hbeside).trans rfl
  have hstage : w₂.dirs (.stage stage.root) = none := by
    have := congrFun (congrArg World.dirs hbeside) (.stage stage.root)
    simpa [World.besideNamed, hide, HsPath.named, dirs_removed] using this
  constructor
  case active => simp [hactive, hd]
  case tor => simp [h.tor, htorrc, hactive, hd]
  case authConfig => simpa using hauth.symm
  case authelia =>
    cases auth with
    | true => simpa [h.authelia] using hauth.symm
    | false => simpa [hauthelia] using hafter.authelia rfl
  case clientID => simpa using h.clientID.symm
  case caddy => simp
  case removed => simp [hstage, hstages, AList.mem_erase]

end Rollback

/-! ## Switching the identity -/

section Switch

variable {E : Event → Prop} {rt : Runtime} {current candidate : State} {stage : IdentityStage}
  {w w₁ : World}

/-- Loading a configuration that may have to be rendered first, when Caddy is not restarted. -/
theorem Sheltered.wp_loadCaddy (hE : Sheltered E) {config : Except GoError String}
    {Q : Except GoError Unit → World → Prop} {C : World → Prop}
    (hsame : ∀ err, Q (.error err) w) (hloaded : ∀ err text, Q (.error err) (w.loaded text))
    (hok : ∀ text, config = .ok text → Q (.ok ()) { w.loaded text with caddyFresh := false }) :
    wp E (rt.loadCaddy config) Q C w := by
  cases config with
  | error err => exact wp_fail (hsame err)
  | ok text =>
    apply wp_applyCaddy
    rintro _ (rfl | ⟨hr, _⟩)
    · exact ⟨fun hc => absurd hc hE.crash, fun _ => ⟨hsame _, hloaded _ _⟩, hok text rfl⟩
    · exact absurd hr hE.caddy

/-- Everything but the directories, of which only the one of a failed identity is looked at. -/
def World.unmoved (w : World) : World × Option HsDir :=
  ({ w with dirs := fun _ => none, stages := ∅ }, w.dirs .failed)

theorem ignores_unmoved : Ignores World.unmoved (fun p => p ≠ .failed) where
  dir _ _ _ hp := Prod.ext rfl (by simp [World.unmoved, hp.symm])
  erased _ _ _ := rfl
  inserted _ _ _ _ := rfl

/-- The steps that follow the staging: a step that fails is undone, and when none fails everything
refers to the new identity. -/
theorem Serves.wp_switchIdentity (hE : Sheltered E) (h : Serves rt current w)
    (hbefore : Before w w₁) (hstage : Holds w₁ (.stage stage.root) candidate.serviceID) :
    wp E (rt.switchIdentity current candidate stage)
      (either (fun backup w' => backup = .previous ∧ After true w w' ∧ Serves rt candidate w' ∧
          w'.dirs (.stage stage.root) = none)
        fun _ w' => Back stage.root w w') (fun _ => False) w₁ := by
  have hundo₁ : ∀ {β : Type} {Q : Except GoError β → World → Prop} (err : GoError) (w' : World),
      (∀ err w', Back stage.root w w' → Q (.error err) w') → Before w w' →
      Store.Undone E Q (fun _ => False) (some (rt.rollback current stage none false)) err w' :=
    fun err w' hQ hw' => .of_wp (h.wp_rollback_before hE hw') hQ err
  have hundo₂ : ∀ (auth : Bool) {β : Type} {Q : Except GoError β → World → Prop} (err : GoError)
      (w' : World), (∀ err w', Back stage.root w w' → Q (.error err) w') → After auth w w' →
      Store.Undone E Q (fun _ => False) (some (rt.rollback current stage (some .previous) auth))
        err w' :=
    fun auth β Q err w' hQ hw' => .of_wp (h.wp_rollback_after hE hw') hQ err
  dsimp only [Runtime.switchIdentity]
  -- Caddy serves both identities
  refine wp_bind (Store.wp_orUndo (hE.wp_loadCaddy ?_ ?_ ?_))
  · exact fun err => hundo₁ err _ (fun _ _ h => h) hbefore
  · exact fun err text => hundo₁ err _ (fun _ _ h => h)
      ⟨hbefore.active, hbefore.failed, hbefore.torrc, hbefore.tor, hbefore.authelia⟩
  intro aliased _
  -- the configuration of Authelia is written and checked
  have hwritten : ∀ text, Before w
      { { w₁.loaded aliased with caddyFresh := false } with authConfig := text } := fun text =>
    ⟨hbefore.active, hbefore.failed, hbefore.torrc, hbefore.tor, hbefore.authelia⟩
  refine wp_bind (Store.wp_orUndo (wp_bind (wp_writeAuthConfig ?_ ?_ ?_ ?_ ?_)))
  · exact fun err _ => hundo₁ err _ (fun _ _ h => h) (hwritten _)
  · exact fun hc => absurd hc hE.crash
  · exact fun _ => hundo₁ _ _ (fun _ _ h => h) (hwritten _)
  · exact fun _ text _ => hundo₁ _ _ (fun _ _ h => h) (hwritten _)
  intro text htext
  let w₂ : World := { { w₁.loaded aliased with caddyFresh := false } with authConfig := some text }
  refine (keeps_authelia_validate (f := fun w => w)).step ?_ fun hc => absurd hc hE.crash
  rintro r _ rfl
  cases r with
  | error err => exact hundo₁ err _ (fun _ _ h => h) (hwritten _)
  | ok _ =>
    -- the directories are moved
    obtain ⟨d, hd, -⟩ := h.active
    have hd₂ : w₂.dirs .active = some d := hbefore.active.trans hd
    obtain ⟨ds, hds, hsound⟩ := hstage
    refine wp_bind (Store.wp_orUndo ?_)
    refine (keeps_activateIdentity ignores_unmoved (by simp) (by simp) (by simp) rt.tor).with ?_
    refine wp_activateIdentity (w := w₂) hd₂ hds ?_ ?_ ?_ ?_
    · intro err w' ha hsame
      have hbeside := congrArg Prod.fst hsame
      refine hundo₁ err w' (fun _ _ h => h) ⟨ha.trans hd.symm, ?_, ?_, ?_, ?_⟩
      · exact (congrArg Prod.snd hsame).trans hbefore.failed
      · exact (congrArg World.torrc hbeside).trans hbefore.torrc
      · exact (congrArg World.tor hbeside).trans hbefore.tor
      · exact (congrArg World.authelia hbeside).trans hbefore.authelia
    · exact fun hf => absurd hf hE.undo.disk
    rotate_left
    · exact fun _ hc => absurd hc hE.crash
    intro w₃ ha hp hs hsame
    have hbeside := congrArg Prod.fst hsame
    have hfailed : w₃.dirs .failed = w.dirs .failed :=
      (congrArg Prod.snd hsame).trans hbefore.failed
    have htorrc : w₃.torrc = w.torrc := (congrArg World.torrc hbeside).trans hbefore.torrc
    have hauth : w₃.authelia = w.authelia := (congrArg World.authelia hbeside).trans hbefore.authelia
    have hconfig : w₃.authConfig = some text := (congrArg World.authConfig hbeside).trans rfl
    have hmoved : ∀ (auth : Bool) (w' : World), w'.dirs = w₃.dirs → w'.torrc = w₃.torrc →
        (auth = false → w'.authelia = w₃.authelia) → After auth w w' := by
      intro auth w' hdirs htorrc' hauth'
      refine ⟨?_, ?_, ?_, htorrc'.trans htorrc, fun h => (hauth' h).trans hauth⟩
      · simp [hdirs, ha]
      · rw [hdirs, hp, hd]
      · rw [hdirs, hfailed]
    -- Tor and Authelia are restarted, and Caddy serves the new identity only
    refine wp_bind (Store.wp_orUndo (wp_serviceCall ?_ ?_ ?_ ?_))
    · exact fun hc => absurd hc hE.crash
    · exact fun _ => hundo₂ false _ _ (fun _ _ h => h) (hmoved _ _ rfl rfl fun _ => rfl)
    · exact fun _ => hundo₂ false _ _ (fun _ _ h => h) (hmoved _ _ rfl rfl fun _ => rfl)
    refine wp_bind (wp_modify ?_)
    refine wp_bind (Store.wp_orUndo (wp_serviceCall ?_ ?_ ?_ ?_))
    · exact fun hc => absurd hc hE.crash
    · exact fun _ => hundo₂ true _ _ (fun _ _ h => h) (hmoved _ _ rfl rfl fun h => nomatch h)
    · exact fun _ => hundo₂ true _ _ (fun _ _ h => h) (hmoved _ _ rfl rfl fun h => nomatch h)
    refine wp_bind (Store.wp_orUndo (hE.wp_loadCaddy ?_ ?_ ?_))
    · exact fun err => hundo₂ true _ _ (fun _ _ h => h) (hmoved _ _ rfl rfl fun h => nomatch h)
    · exact fun err _ => hundo₂ true _ _ (fun _ _ h => h) (hmoved _ _ rfl rfl fun h => nomatch h)
    intro config hrender
    refine wp_pure ⟨rfl, hmoved true _ rfl rfl (fun h => nomatch h), ?_, hs⟩
    exact ⟨⟨ds, ha, hsound⟩, rfl, ⟨text, htext, hconfig⟩, rfl, rfl, hrender⟩

end Switch

/-! ## The whole rotation -/

/-- The directories that a rotation with the stage `n` moves. -/
def HsPath.movedWith (n : ℕ) (p : HsPath) : Bool := p.named || p == .stage n

/-- What no rotation that uses the stage `n` changes, and no rollback. -/
def World.rest (n : ℕ) (w : World) : World :=
  { w with
    dirs := hide (HsPath.movedWith n) w.dirs
    stages := w.stages.erase n
    tor := { torrc := none, service := none }
    authConfig := none
    authelia := none
    clientID := ""
    caddy := ""
    caddyFresh := false
    commands := []
    used := [] }

theorem ignores_rest (n : ℕ) :
    Ignores (World.rest n) (fun p => p.movedWith n = true) where
  dir w p d hp := by simp only [World.rest, World.setDir, hide_update hp]
  erased w m hm := by
    have hmn : m = n := by simpa [HsPath.movedWith, HsPath.named] using hm
    subst hmn
    have hnot : m ∉ w.stages.erase m := by simp [AList.mem_erase]
    simp only [World.rest, erase_of_notMem hnot]
  inserted w m torrc hm := by
    have hmn : m = n := by simpa [HsPath.movedWith, HsPath.named] using hm
    subst hmn
    simp only [World.rest, erase_insert_self]

theorem ignoresServices_rest (n : ℕ) : IgnoresServices (World.rest n) where
  restarted c w := by cases c <;> rfl
  loaded _ _ := rfl
  denied _ _ := rfl
  fresh _ _ := rfl
  authConfig _ _ := rfl
  clientID _ _ := rfl

section Rotate

variable {E : Event → Prop} {rt : Runtime} {current : State} {n : ℕ} {w w' : World}

theorem rest_of_outside (h : w'.outside n = w.outside n) : w'.rest n = w.rest n := by
  have hthrough : ∀ w : World, (w.outside n).rest n = w.rest n := by
    intro w
    have hnot : n ∉ w.stages.erase n := by simp [AList.mem_erase]
    simp only [World.rest, World.outside, erase_of_notMem hnot]
    rw [hide_update (by simp [HsPath.movedWith])]
  rw [← hthrough w', h, hthrough]

theorem dirs_of_rest {p : HsPath} (h : w'.rest n = w.rest n) (hp : p.named = false)
    (hn : p ≠ .stage n) : w'.dirs p = w.dirs p := by
  have := congrFun (congrArg World.dirs h) p
  simpa [World.rest, hide, HsPath.movedWith, hp, hn] using this

theorem Tor.Staged.before (h : Staged n w w') : Before w w' := by
  refine ⟨dirs_of_outside h.outside (by simp), dirs_of_outside h.outside (by simp), ?_, ?_, ?_⟩
  · exact (congrArg World.torrc h.outside :)
  · exact (congrArg World.tor h.outside :)
  · exact (congrArg World.authelia h.outside :)

theorem Tor.Staged.back (h : Staged n w w') (hremoved : w'.dirs (.stage n) = none ∧ n ∉ w'.stages) :
    Back n w w' := by
  refine ⟨dirs_of_outside h.outside (by simp), ?_, ?_, ?_, ?_, ?_, hremoved⟩
  · exact (congrArg World.tor h.outside :)
  · exact (congrArg World.authConfig h.outside :)
  · exact (congrArg World.authelia h.outside :)
  · exact (congrArg World.clientID h.outside :)
  · exact (congrArg World.caddy h.outside :)

theorem Back.restored (h : Back n w w') (hrest : w'.rest n = w.rest n) (hfresh : n ∉ w.stages)
    (hempty : w.dirs (.stage n) = none) : Restored w w' where
  durable := (congrArg World.durable hrest :)
  value := (congrArg World.value hrest :)
  active := h.active
  tor := h.tor
  authConfig := h.authConfig
  authelia := h.authelia
  clientID := h.clientID
  caddy := h.caddy
  stages := by
    have : w'.stages.erase n = w.stages.erase n := congrArg World.stages hrest
    rwa [erase_of_notMem h.removed.2, erase_of_notMem hfresh] at this
  staged m := by
    by_cases hm : m = n
    · rw [hm, h.removed.1, hempty]
    · exact dirs_of_rest hrest rfl (by simpa using hm)

/-- A rotation that has reached its end: what it left, and what it returned to undo or finish it. -/
structure Rotating (rt : Runtime) (current : State) (stage : IdentityStage) (w : World)
    (rotation : Rotation) (w' : World) : Prop where
  rollback : rotation.rollback = rt.rollback current stage (some .previous) true
  finish : rotation.finish = ignore (finishIdentity .previous)
  after : After true w w'
  serves : Serves rt rotation.candidate w'
  unstaged : w'.dirs (.stage stage.root) = none
  rest : w'.rest stage.root = w.rest stage.root
  stage : stage.root ∉ w.stages
  fresh : rotation.candidate.serviceID ∉ w.used
  used : w.used ⊆ w'.used ∧ rotation.candidate.serviceID ∈ w'.used

theorem Serves.wp_rotate (hE : Sheltered E) (h : Serves rt current w)
    (hempty : ∀ n, n ∉ w.stages → w.dirs (.stage n) = none) :
    wp E (rt.rotate current)
      (either (fun rotation w' => ∃ stage, Rotating rt current stage w rotation w')
        fun _ w' => Restored w w') (fun _ => False) w := by
  unfold Runtime.rotate
  refine (keeps_generateKeys (f := fun w => w) _).bind ?_ (fun hc => absurd hc hE.crash)
    fun keys w₁ hw₁ => ?_
  · rintro _ w' rfl
    exact .refl w'
  cases hw₁
  refine wp_bind (wp_stageIdentity _ _ ?_ ?_ ?_ fun _ hc => absurd hc hE.crash)
  · exact fun _ => .refl w
  rotate_left
  · intro n _ w' hstaged hremoved
    exact (hstaged.back (hremoved hE.undo.disk)).restored (rest_of_outside hstaged.outside)
      hstaged.fresh (hempty n hstaged.fresh)
  intro stage w₂ hstaged hfresh hused hholds _
  dsimp only [either_ok]
  split
  next err _ =>
    -- the credentials are refused: the stage is removed
    have hi := ignores_outside stage.root
    refine wp_bind (wp_undoing (wp_ignore (hE.undo.wp_removeAll (wp_fail ?_))))
    have hout : (w₂.removed (.stage stage.root)).outside stage.root = w.outside stage.root :=
      ((hi.erased _ _ rfl).trans (hi.dir w₂ _ none rfl)).trans hstaged.outside
    have hstaged' : Staged stage.root w (w₂.removed (.stage stage.root)) :=
      ⟨hstaged.fresh, hout, hstaged.used⟩
    exact (hstaged'.back (by simp [World.removed, AList.mem_erase])).restored (rest_of_outside hout)
      hstaged.fresh (hempty _ hstaged.fresh)
  next credentials _ =>
    refine wp_bind ?_
    -- what the steps keep is added to what they establish
    let f : World → World × List String := fun w => (w.rest stage.root, w.used)
    have hf : Ignores f (fun p => p.movedWith stage.root = true) := by
      have hi := ignores_rest stage.root
      exact ⟨fun w p d hp => Prod.ext (hi.dir w p d hp) rfl,
        fun w n hn => Prod.ext (hi.erased w n hn) rfl,
        fun w n torrc hn => Prod.ext (hi.inserted w n torrc hn) rfl⟩
    have hs : IgnoresServices f :=
      ⟨fun c w => by cases c <;> rfl, fun _ _ => rfl, fun _ _ => rfl, fun _ _ => rfl,
        fun _ _ => rfl, fun _ _ => rfl⟩
    have hstage : (HsPath.stage stage.root).movedWith stage.root = true := by
      simp [HsPath.movedWith]
    refine (keeps_switchIdentity hf hs rfl rfl rfl hstage rt current _).with ?_
    refine wp_mono (h.wp_switchIdentity hE hstaged.before hholds) ?_ fun _ hc => hc.elim
    intro r w' hr hkept
    have hrest := (congrArg Prod.fst hkept).trans (rest_of_outside hstaged.outside)
    have hused' : w'.used = w₂.used := congrArg Prod.snd hkept
    cases r with
    | error err =>
      exact Back.restored hr hrest hstaged.fresh (hempty _ hstaged.fresh)
    | ok backup =>
      obtain ⟨rfl, hafter, hserves, hunstaged⟩ := hr
      exact wp_pure ⟨stage, rfl, rfl, hafter, hserves, hunstaged, hrest, hstaged.fresh, hfresh,
        hused' ▸ hstaged.used, hused' ▸ hused⟩

/-! ## The two ends of a rotation -/

/-- The world that a rotation commits: it is consistent with a new identity, and the old one is
nowhere but in the backup. -/
structure Renewed (rt : Runtime) (w w' : World) : Prop extends Consistent rt w' where
  fresh : w'.value.serviceID ∉ w.used
  previous : w'.dirs .previous = w.dirs .active
  moved : ∀ p d, p ≠ .previous → w'.dirs p = some d → d.keys ≠ some w.value.serviceID

variable {stage : IdentityStage} {rotation : Rotation}

theorem Rotating.dirs (hr : Rotating rt current stage w rotation w') {p : HsPath} {d : HsDir}
    (hd : w'.dirs p = some d) :
    p = .active ∧ d.keys = some rotation.candidate.serviceID ∨
      p = .previous ∧ w.dirs .active = some d ∨
      p ≠ .active ∧ p ≠ .previous ∧ w.dirs p = some d := by
  cases p with
  | active =>
    obtain ⟨ds, hds, hsound⟩ := hr.serves.active
    rw [hd] at hds
    cases hds
    exact .inl ⟨rfl, hsound.keys⟩
  | previous => exact .inr (.inl ⟨rfl, hr.after.previous ▸ hd⟩)
  | failed => exact .inr (.inr ⟨nofun, nofun, hr.after.failed ▸ hd⟩)
  | stage n =>
    refine .inr (.inr ⟨nofun, nofun, ?_⟩)
    by_cases hn : n = stage.root
    · rw [hn, hr.unstaged] at hd
      cases hd
    · rw [← hd, dirs_of_rest hr.rest rfl (by simpa using hn)]

/-- Committing the candidate of a rotation renews the identity. -/
theorem Rotating.renewed (h : Consistent rt w) (hr : Rotating rt current stage w rotation w')
    (hencodable : rotation.candidate.Encodable) :
    Renewed rt w { w' with durable := rotation.candidate, value := rotation.candidate } := by
  have hs := hr.serves
  have hold : w.value.serviceID ∈ w.used := by
    obtain ⟨d, hd, hsound⟩ := h.active
    exact h.known _ d _ hd hsound.keys
  have hne : rotation.candidate.serviceID ≠ w.value.serviceID := fun heq => hr.fresh (heq ▸ hold)
  refine ⟨⟨⟨hs.active.of_dirs rfl, hs.tor, hs.authConfig, hs.authelia, hs.clientID, hs.caddy⟩,
    hencodable, ⟨_, rfl⟩, ?_, ?_, ?_⟩, hr.fresh, hr.after.previous, ?_⟩
  · intro p d hp hd hkeys
    rcases hr.dirs hd with ⟨hactive, -⟩ | ⟨-, hd⟩ | ⟨-, -, hd⟩
    · exact hp hactive
    · exact hr.fresh (h.known _ d _ hd hkeys)
    · exact hr.fresh (h.known _ d _ hd hkeys)
  · intro p d id hd hkeys
    rcases hr.dirs hd with ⟨-, hnew⟩ | ⟨-, hd⟩ | ⟨-, -, hd⟩
    · rw [hnew] at hkeys
      cases hkeys
      exact hr.used.2
    · exact hr.used.1 (h.known _ d _ hd hkeys)
    · exact hr.used.1 (h.known _ d _ hd hkeys)
  · intro n hn
    by_cases hstage : n = stage.root
    · rw [hstage]
      exact hr.unstaged
    · -- another stage is there only if it was there before
      refine (dirs_of_rest hr.rest rfl (by simpa using hstage)).trans (h.staged n fun hin => hn ?_)
      have hstages : w'.stages.erase stage.root = w.stages.erase stage.root :=
        congrArg World.stages hr.rest
      have : n ∈ w'.stages.erase stage.root := by
        rw [hstages, AList.mem_erase]
        exact ⟨hstage, hin⟩
      exact (AList.mem_erase.mp this).2
  · intro p d hp hd hkeys
    rcases hr.dirs hd with ⟨-, hnew⟩ | ⟨hprevious, -⟩ | ⟨hactive, -, hd⟩
    · rw [hnew] at hkeys
      exact hne (Option.some.inj hkeys)
    · exact hp hprevious
    · exact h.alone p d hactive hd hkeys

/-- The transition of a rotation restores the system or renews its identity. -/
theorem Consistent.wp_transition (hE : Sheltered E) (h : Consistent rt w) :
    wp E (worldStore.transition (some rt.rotationChange))
      (either (fun rotation w' => rotation.finish = ignore (finishIdentity .previous) ∧
        Renewed rt w w') fun _ w' => Restored w w') (fun _ => False) w := by
  have hserves : Serves rt { w.value with sessions := [] } w :=
    h.toServes.sameRoutes ⟨rfl, rfl, rfl⟩ (valid_of_render h.caddy).dropSessions
  apply wp_worldTransition h.encodable
  unfold Runtime.rotationChange
  rw [clone_of_encodable h.encodable]
  split
  next => exact wp_fail (.refl w)
  next =>
    refine wp_bind (wp_mono (hserves.wp_rotate hE h.staged) ?_ fun _ hc => hc)
    intro r w₁ hr
    cases r with
    | error err => exact hr
    | ok rotation =>
      obtain ⟨stage, hr⟩ := hr
      -- the candidate may still be refused
      have hback : wp E rotation.rollback (fun _ w' => Restored w w') (fun _ => False) w₁ := by
        rw [hr.rollback]
        refine (keeps_rollback (ignores_rest stage.root) (ignoresServices_rest stage.root) rfl rfl
          rfl (by simp [HsPath.movedWith]) rt _ _ _).with ?_
        refine wp_mono (hserves.wp_rollback_after hE hr.after) ?_ fun _ hc => hc.elim
        exact fun _ w' hb hrest =>
          hb.restored (hrest.trans hr.rest) hr.stage (h.staged _ hr.stage)
      rw [either_ok]
      split
      next err _ =>
        exact wp_bind (wp_ignore (wp_mono hback (fun _ _ hw' => wp_fail hw') fun _ hc => hc))
      next =>
        refine wp_pure (wp_worldCommit ?_ ?_ ?_)
        · exact .of_wp hback fun _ _ hw' => hw'
        · exact fun hc => absurd hc hE.crash
        · exact fun _ _ hencodable => ⟨hr.finish, hr.renewed h hencodable⟩

/-- Removing the backup, be it only in part, keeps a system consistent. -/
theorem Consistent.setPrevious (h : Consistent rt w) {d : Option HsDir}
    (hd : ∀ d', d = some d' → ∃ d₀, w.dirs .previous = some d₀ ∧ (d'.keys = d₀.keys ∨ d'.keys = none)) :
    Consistent rt (w.setDir .previous d) := by
  have hdirs : ∀ p, p ≠ .previous → (w.setDir .previous d).dirs p = w.dirs p := fun p hp => by
    simp [hp]
  -- a directory of the new system has no keys but those of the old one
  have hkeys : ∀ p d' id, (w.setDir .previous d).dirs p = some d' → d'.keys = some id →
      ∃ d₀, w.dirs p = some d₀ ∧ d₀.keys = some id := by
    intro p d' id hd' hid
    by_cases hp : p = .previous
    · subst hp
      obtain ⟨d₀, hd₀, heq | hnone⟩ := hd d' (by simpa using hd')
      · exact ⟨d₀, hd₀, heq ▸ hid⟩
      · rw [hnone] at hid
        cases hid
    · exact ⟨d', (hdirs p hp).symm.trans hd', hid⟩
  refine ⟨⟨h.active.of_dirs (hdirs _ nofun), ?_, h.authConfig, h.authelia, h.clientID, h.caddy⟩,
    h.encodable, h.synced, ?_, ?_, ?_⟩
  · rw [hdirs .active nofun]
    exact h.tor
  · intro p d' hp hd' hid
    obtain ⟨d₀, hd₀, hid₀⟩ := hkeys p d' _ hd' hid
    exact h.alone p d₀ hp hd₀ hid₀
  · intro p d' id hd' hid
    obtain ⟨d₀, hd₀, hid₀⟩ := hkeys p d' _ hd' hid
    exact h.known p d₀ id hd₀ hid₀
  · intro n hn
    rw [hdirs (.stage n) nofun]
    exact h.staged n hn

/-- The end of a rotation removes the backup, unless the file system fails. -/
theorem Consistent.wp_finish (hE : Sheltered E) (h : Consistent rt w) :
    wp E (ignore (finishIdentity .previous))
      (fun r w' => r = .ok () ∧ Consistent rt w' ∧ w'.value = w.value ∧
        (¬ DiskMayFail E → w'.dirs .previous = none)) (fun _ => False) w := by
  apply wp_ignore
  change wp E (removeAll .previous) _ _ w
  apply wp_removeAll
  · exact fun hc => absurd hc hE.crash
  · intro hf keeps
    refine ⟨rfl, h.setPrevious ?_, rfl, fun hdisk => absurd hf hdisk⟩
    intro d' hd'
    obtain ⟨d₀, hd₀, rfl⟩ := Option.map_eq_some_iff.mp hd'
    refine ⟨d₀, hd₀, ?_⟩
    unfold HsDir.part
    dsimp only
    split
    · exact .inl rfl
    · exact .inr rfl
  · exact ⟨rfl, h.setPrevious (fun _ hd' => nomatch hd'), rfl, fun _ => by simp [dirs_removed]⟩

end Rotate

/-- An event in which the process goes on, Caddy is not restarted, and compensating actions
succeed. Whatever else happens in it may fail. -/
def Compensated (e : Event) : Prop :=
  e.crash = false ∧ e.caddyRestarts = false ∧ e.undoDisk.fails = false ∧
    e.undoService.fails = false

theorem sheltered_of_compensated {E : Event → Prop} (h : ∀ e, E e → Compensated e) :
    Sheltered E := by
  refine ⟨?_, ?_, ⟨?_, ?_, ?_, ?_⟩⟩
  · rintro ⟨e, he, hc⟩
    exact absurd hc (by simp [(h e he).1])
  · rintro ⟨e, he, hc⟩
    exact absurd hc (by simp [(h e he).2.1])
  all_goals
    rintro ⟨_, ⟨e, he, rfl⟩, hc⟩
    obtain ⟨hcrash, hcaddy, hdisk, hservice⟩ := h e he
    simp [Event.undo, hcrash, hcaddy, hdisk, hservice] at hc

/-- From a consistent system, and when compensating actions succeed, a rotation ends in one of two
ways. It fails, and everything that refers to the identity is as before, without a stage. Or it
succeeds, and everything refers to a new identity; the old one is then in the backup and nowhere
else, until the end of the rotation removes it. -/
theorem rotateIdentity_allOrNothing {rt : Runtime} {w : World} (h : Consistent rt w)
    (confirmation : String) (env : ℕ → Event) (henv : ∀ i, Compensated (env i)) :
    (∃ err w' n, (rt.rotateIdentity confirmation).run env 0 w = (.error err, w', n) ∧
      Restored w w') ∨
    ∃ rotation w₁ n₁ w' n',
      (worldStore.transition (some rt.rotationChange)).run env 0 w = (.ok rotation, w₁, n₁) ∧
      Renewed rt w w₁ ∧
      (rt.rotateIdentity confirmation).run env 0 w = (.ok rotation.credentials, w', n') ∧
      Consistent rt w' ∧ w'.value = w₁.value ∧
      ((∀ i, (env i).disk.fails = false) → w'.dirs .previous = none) := by
  unfold Runtime.rotateIdentity
  split
  next => exact .inl ⟨_, w, 0, rfl, .refl w⟩
  next =>
    let E : Event → Prop := fun e => ∃ i, e = env i
    have hevent : ∀ i, E (env i) := fun i => ⟨i, rfl⟩
    have hE : Sheltered E := sheltered_of_compensated fun e ⟨i, he⟩ => he ▸ henv i
    have hend := (h.wp_transition hE).at env 0 hevent
    rcases hrun : (worldStore.transition (some rt.rotationChange)).run env 0 w with ⟨o, w₁, n₁⟩
    rw [hrun] at hend
    cases o with
    | crash => exact hend.elim
    | error err => exact .inl ⟨err, w₁, n₁, bind_run_error hrun, hend⟩
    | ok rotation =>
      obtain ⟨hfinish, hrenewed⟩ := hend
      -- the transition is committed; what follows cannot fail
      have hend' := (hrenewed.toConsistent.wp_finish hE).at env n₁ hevent
      rcases hrun' : (ignore (finishIdentity .previous)).run env n₁ w₁ with ⟨o', w', n'⟩
      rw [hrun'] at hend'
      cases o' with
      | crash => exact hend'.elim
      | error err => exact nomatch hend'.1
      | ok _ =>
        obtain ⟨-, hconsistent, hvalue, hremoved⟩ := hend'
        refine .inr ⟨rotation, w₁, n₁, w', n', rfl, hrenewed, ?_, hconsistent, hvalue, ?_⟩
        · rw [bind_run_ok hrun, hfinish, bind_run_ok hrun']
          rfl
        · intro hdisk
          apply hremoved
          rintro ⟨_, ⟨i, rfl⟩, hf⟩
          rw [hdisk i] at hf
          cases hf

theorem render_authelia_sample : sampleRuntime.authelia.render (sampleAddress 'a') =
    .ok (sampleRuntime.authelia.text (sampleAddress 'a')) := by
  have hfine : (!serviceIDRE (sampleAddress 'a') || !sampleRuntime.authelia.safe) = false := by
    decide +kernel
  rw [Authelia.Paths.render, hfine]
  rfl

theorem render_caddy_sample : sampleRuntime.renderer.render sampleOwner =
    .ok (sampleRuntime.renderer.routed sampleOwner).text := by
  have hvalid : sampleOwner.validate = none := by decide +kernel
  have hpaths : sampleRuntime.renderer.paths.all safePath = true := by decide +kernel
  have hhost : Caddy.safeHost sampleRuntime.renderer.targetHost = true := by decide +kernel
  have hid : sampleOwner.serviceID ≠ "" := by decide
  simp only [Caddy.Renderer.render, Caddy.Renderer.config, hvalid, hpaths, hhost, hid]
  rfl

/-- The sample system is consistent. -/
theorem consistent_sampleWorld : Consistent sampleRuntime sampleWorld := by
  have honly : ∀ p d, sampleWorld.dirs p = some d → p = .active ∧ d = sampleService := by
    intro p d hd
    by_cases hp : p = .active
    · exact ⟨hp, by simpa [sampleWorld, hp] using hd.symm⟩
    · simp [sampleWorld, hp] at hd
  refine ⟨⟨holds_sampleWorld, rfl, ⟨_, render_authelia_sample, ?_⟩, rfl, rfl, ?_⟩, ⟨_, rfl⟩,
    ⟨none, rfl⟩, ?_, ?_, fun _ _ => rfl⟩
  · change (sampleRuntime.authelia.render (sampleAddress 'a')).toOption = _
    rw [render_authelia_sample]
    rfl
  · change sampleRuntime.renderer.render sampleOwner =
      .ok ((sampleRuntime.renderer.render sampleOwner).toOption.getD "")
    rw [render_caddy_sample]
    rfl
  · exact fun p d hp hd => absurd (honly p d hd).1 hp
  · intro p d id hd hkeys
    rw [(honly p d hd).2] at hkeys
    have : sampleAddress 'a' = id := Option.some.inj hkeys
    simp [sampleWorld, this]

/-- The events of a rotation in which nothing fails. -/
def calmRotation : Event := { Event.calm with stage := 1, hostname := sampleAddress 'b' }

/-- The sample system rotates to another identity when nothing fails. -/
theorem sampleWorld_rotates : ∃ credentials w' n',
    (sampleRuntime.rotateIdentity "ROTATE").run (fun _ => calmRotation) 0 sampleWorld =
        (.ok credentials, w', n') ∧
      Consistent sampleRuntime w' ∧ w'.dirs .previous = none := by
  have heval : ((sampleRuntime.rotateIdentity "ROTATE").run (fun _ => calmRotation) 0
      sampleWorld).1.isOk = true := by
    decide +kernel
  rcases rotateIdentity_allOrNothing consistent_sampleWorld "ROTATE" (fun _ => calmRotation)
      (fun _ => ⟨rfl, rfl, rfl, rfl⟩) with ⟨err, w', n, hrun, -⟩ | h
  · rw [hrun] at heval
    cases heval
  · obtain ⟨rotation, w₁, n₁, w', n', -, -, hrun, hconsistent, -, hprevious⟩ := h
    exact ⟨_, w', n', hrun, hconsistent, hprevious fun _ => rfl⟩

end Torkitten
