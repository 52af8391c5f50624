import Torkitten.Api.Attribution

/-!
# The handlers make only the moves of their requests

Every handler is followed through its text. Most of what a handler does is quiet: it reads, draws,
waits and keeps notes in memory. The other steps are one call of an operation each, of which
`Access.Operations` says what it may store.
-/

namespace Torkitten.Api

open Proc Relation

/-! ## Commands -/

section Commands

variable {E : Event → Prop}

/-- A transition that only computes commands nothing. -/
theorem keeps_commands_pure {β : Type} {next : State → State} {output : State → β} :
    Keeps E (MayCrash E) World.commands (worldStore.transition (some fun current =>
      return changed (next current) none (output current))) :=
  fun _ => maintains_transition (fun _ _ hw => hw) fun _ _ hw => wp_pure ⟨hw, nofun⟩

theorem keeps_commands_now : Keeps E (MayCrash E) World.commands now :=
  fun _ => maintains_now fun _ _ hw => hw

theorem keeps_commands_authenticate (digest : Digest) (cookie : String) :
    Keeps E (MayCrash E) World.commands (authenticate digest cookie) := by
  unfold authenticate
  split
  next => exact keeps_fail _
  next =>
    split
    next => exact keeps_fail _
    next =>
      refine keeps_bind keeps_commands_now fun t => ?_
      unfold recognise
      refine keeps_bind (keeps_attempt keeps_commands_pure) fun result => ?_
      split
      next =>
        split
        · exact keeps_fail _
        · exact keeps_pure _
      next => exact keeps_fail _

theorem keeps_commands_issue (owner : String) : Keeps E (MayCrash E) World.commands (issue owner) := by
  unfold issue
  split
  next => exact keeps_fail _
  next =>
    refine keeps_bind (fun _ => maintains_randomBytes 32) fun _ => ?_
    refine keeps_bind (fun _ => maintains_randomBytes 16) fun _ => ?_
    exact keeps_bind keeps_commands_now fun _ => keeps_pure _

theorem keeps_commands_createIssued (digest : Digest) (owner : String) :
    Keeps E (MayCrash E) World.commands (createIssued digest owner) := by
  refine keeps_bind (keeps_commands_issue owner) fun issued => ?_
  refine keeps_bind (fun _ => ?_) fun _ => keeps_pure _
  exact maintains_transition (fun _ _ hw => hw) fun _ _ hw =>
    wp_bind (wp_now fun _ => wp_pure ⟨hw, nofun⟩)

theorem keeps_commands_authorizeTokens (hash id : List UInt8) (required : Scope) (t : Time)
    (tokens : List AgentToken) :
    Keeps E (MayCrash E) World.commands (authorizeTokens hash id required t tokens) := by
  induction tokens with
  | nil => exact keeps_pure _
  | cons record rest ih =>
    have hallow : Keeps E (MayCrash E) World.commands (allow record.id t) := by
      refine keeps_bind keeps_get fun _ => ?_
      exact keeps_bind (keeps_modify fun _ => rfl) fun _ => keeps_pure _
    unfold authorizeTokens
    split
    · exact keeps_bind hallow fun _ => keeps_bind ih fun _ => keeps_pure _
    · exact keeps_bind (keeps_pure _) fun _ => keeps_bind ih fun _ => keeps_pure _

theorem keeps_commands_authorize (digest : Digest) (token : String) (required : Scope) :
    Keeps E (MayCrash E) World.commands (authorize digest token required) := by
  unfold authorize
  split
  next => exact keeps_fail _
  next id _ =>
    refine keeps_bind keeps_commands_now fun t => ?_
    unfold authorizeAt
    refine keeps_bind (keeps_attempt fun x => ?_) fun result => ?_
    · refine maintains_transition (fun _ _ hw => hw) fun current w hw => ?_
      refine (keeps_commands_authorizeTokens _ id required t current.tokens x).then hw
        fun found w' hw' => ?_
      obtain ⟨matched, tokens⟩ := found
      dsimp only
      split
      · exact wp_fail hw'
      · exact wp_pure ⟨hw', nofun⟩
    · split
      · exact keeps_pure _
      · exact keeps_fail _

theorem keeps_commands_applyCaddy (rt : Runtime) (config : String) :
    Keeps E (MayCrash E) World.commands (rt.applyCaddy config) := by
  refine keeps_of_wp fun w => wp_applyCaddy fun w₀ hw₀ => ?_
  have hsame : w₀.commands = w.commands := by
    rcases hw₀ with rfl | ⟨-, rfl⟩
    · rfl
    · rfl
  exact ⟨fun hc => ⟨hc, hsame⟩, fun _ => ⟨hsame, hsame⟩, hsame⟩

theorem keeps_commands_caddyChange (rt : Runtime) (mutate : Mutation) :
    Keeps E (MayCrash E) World.commands (rt.caddyChange mutate) := by
  intro x
  refine maintains_transition (fun _ _ hw => hw) fun current w hw => ?_
  unfold Runtime.componentChange
  split
  next => exact wp_fail hw
  next candidate _ =>
    split
    next => exact wp_fail hw
    next config _ =>
      have hrollback : Maintains E (MayCrash E) (fun w => w.commands = x)
          (undoing (rt.loadCaddy (rt.renderer.render current))) := by
        refine maintains_undoing ?_
        unfold Runtime.loadCaddy
        split
        · exact maintains_fail _
        · exact keeps_commands_applyCaddy rt _ x
      refine (Store.maintains_orUndo (keeps_commands_applyCaddy rt config x) hrollback).then hw
        fun _ w' hw' => wp_pure ⟨hw', ?_⟩
      rintro _ ⟨⟩
      exact hrollback

theorem keeps_componentAction (name action : String) :
    Keeps E (MayCrash E) World.timed (componentAction name action) := by
  have hcommand (c : Supervisor.Command) : Keeps E (MayCrash E) World.timed (command name c) := by
    unfold command
    split
    · exact keeps_fail _
    · exact keeps_modify fun _ => rfl
  unfold componentAction
  split
  · exact hcommand _
  · exact hcommand _
  · exact hcommand _
  · exact keeps_fail _

end Commands

theorem keeps_testMapping {τ : Type} {E : Event → Prop} {f : World → τ} (mapping : Mapping) :
    Keeps E (MayCrash E) f (Runtime.testMapping mapping) := by
  unfold Runtime.testMapping
  split
  next => exact keeps_fail _
  next =>
    refine keeps_bind (keeps_attempt (keeps_serviceCall fun _ => rfl)) fun result => ?_
    split
    · exact keeps_fail _
    · exact keeps_serviceCall fun _ => rfl

/-! ## Quiet steps -/

/-- An invariant that neither the passing of time nor the notes in memory can break. -/
structure Indifferent (I : Site → Prop) : Prop where
  clock : ∀ (site : Site) (d : ℕ), I site →
    I { site with world := { site.world with clock := site.world.clock + d } }
  memory : ∀ {site site' : Site}, site'.world = site.world → site'.verified = site.verified →
    site'.drawn = site.drawn → I site → I site'

section Quiet

variable {α : Type} {E : Event → Prop} {I : Site → Prop}

theorem maintains_onWorld {J : World → Prop} {c : Op α} (h : Maintains E (MayCrash E) J c)
    (hIJ : ∀ site, I site → J site.world)
    (hJI : ∀ site w, I site → J w → I { site with world := w }) :
    Maintains E (MayCrash E) I (onWorld c) := fun site hsite =>
  wp_focus (wp_mono (h site.world (hIJ site hsite)) (fun _ w hw => hJI site w hsite hw)
    fun w hw => ⟨hw.1, hJI site w hsite hw.2⟩)

/-- An operation that leaves the system alone. -/
theorem maintains_frozen {c : Op α} (h : Keeps E (MayCrash E) id c) :
    Maintains E (MayCrash E) I (onWorld c) := by
  intro site hsite
  refine wp_focus ((h.step (fun _ w hw => ?_) fun hc w hw => ⟨hc, ?_⟩))
  · rw [show w = site.world from hw]
    exact hsite
  · rw [show w = site.world from hw]
    exact hsite

theorem maintains_externalCall : Maintains E (MayCrash E) I externalCall :=
  maintains_frozen (keeps_serviceCall fun _ => rfl)

theorem maintains_externalWrite : Maintains E (MayCrash E) I externalWrite :=
  maintains_frozen (keeps_diskCall fun _ _ hw => (Option.some.inj hw).symm)

theorem maintains_draw (n : ℕ) : Maintains E (MayCrash E) I (onWorld (randomBytes n)) :=
  maintains_frozen fun _ => maintains_randomBytes n

theorem maintains_currentState : Maintains E (MayCrash E) I currentState :=
  maintains_frozen (keeps_bind keeps_get fun _ => keeps_pure _)

theorem maintains_failing {c : Handler α} {err : GoError} (h : Maintains E (MayCrash E) I c) :
    Maintains E (MayCrash E) I (failing err c) := by
  refine maintains_bind (maintains_attempt h) fun r => ?_
  cases r with
  | ok a => exact maintains_pure a
  | error _ => exact maintains_fail err

theorem maintains_answer {c : Handler α} {response : α → Response}
    (h : Maintains E (MayCrash E) I c) : Maintains E (MayCrash E) I (answer c response) := by
  refine maintains_bind (maintains_attempt h) fun r => ?_
  cases r with
  | ok a => exact maintains_pure _
  | error _ => exact maintains_pure _

theorem maintains_completeFactors (code : String) :
    Maintains E (MayCrash E) I (completeFactors code) := by
  unfold completeFactors
  split
  · exact maintains_fail _
  · exact maintains_failing maintains_externalCall

theorem maintains_beginFactors (username : String) (password : List UInt8) :
    Maintains E (MayCrash E) I (beginFactors username password) := by
  unfold beginFactors
  split
  · exact maintains_fail _
  · exact maintains_failing (maintains_bind maintains_externalCall fun _ => maintains_externalCall)

theorem maintains_verifyFactors (username : String) (password : List UInt8) (code : String) :
    Maintains E (MayCrash E) I (verifyFactors username password code) :=
  maintains_bind (maintains_beginFactors _ _) fun _ => maintains_completeFactors _

theorem maintains_hashPassword (password : List UInt8) :
    Maintains E (MayCrash E) I (hashPassword password) := by
  unfold hashPassword
  split
  · exact maintains_fail _
  · exact maintains_externalCall

theorem maintains_preauth (srv : Server) (r : Request) :
    Maintains E (MayCrash E) I (srv.preauth r) := by
  unfold Server.preauth
  split
  · exact maintains_pure _
  · exact maintains_bind (maintains_attempt (maintains_draw 32)) fun _ => maintains_pure _

theorem maintains_confirmed {c : Handler Unit} (input : Input) (word : String)
    (h : Maintains E (MayCrash E) I c) :
    Maintains E (MayCrash E) I (Server.confirmed input word c) := by
  unfold Server.confirmed
  split
  · exact h
  · exact maintains_fail _

theorem maintains_asset (r : Request) : Maintains E (MayCrash E) I (Server.asset r) := by
  unfold Server.asset
  split
  · exact maintains_pure _
  · exact maintains_pure _

variable (hI : Indifferent I)

include hI

theorem Indifferent.modify {f : Site → Site} (hworld : ∀ site, (f site).world = site.world)
    (hverified : ∀ site, (f site).verified = site.verified)
    (hdrawn : ∀ site, (f site).drawn = site.drawn) :
    Maintains E (MayCrash E) I (.modify f : Handler Unit) :=
  maintains_modify fun site hsite => hI.memory (hworld site) (hverified site) (hdrawn site) hsite

theorem Indifferent.now : Maintains E (MayCrash E) I (onWorld now) :=
  fun site hsite => wp_focus (wp_now fun d => hI.clock site d hsite)

theorem Indifferent.loginBegin (owner : String) (password : List UInt8) :
    Maintains E (MayCrash E) I (loginBegin owner password) := by
  refine maintains_bind (maintains_beginFactors _ _) fun _ => ?_
  refine maintains_bind (maintains_draw 32) fun raw => maintains_bind hI.now fun t => ?_
  refine maintains_bind (hI.modify (fun _ => rfl) (fun _ => rfl) fun _ => rfl) fun _ => ?_
  refine maintains_bind maintains_get fun site => ?_
  split
  · exact maintains_fail _
  · exact maintains_bind (hI.modify (fun _ => rfl) (fun _ => rfl) fun _ => rfl)
      fun _ => maintains_pure _

theorem Indifferent.validFlow (id : String) : Maintains E (MayCrash E) I (validFlow id) := by
  refine maintains_bind maintains_get fun site => ?_
  split
  next => exact maintains_pure _
  next flow _ =>
    refine maintains_bind hI.now fun t => ?_
    split
    · exact maintains_pure _
    · refine maintains_bind hI.now fun later => ?_
      split
      · exact maintains_pure _
      · exact maintains_bind (hI.modify (fun _ => rfl) (fun _ => rfl) fun _ => rfl)
          fun _ => maintains_pure _

theorem Indifferent.setupQR (id : String) : Maintains E (MayCrash E) I (setupQR id) := by
  refine maintains_bind (hI.validFlow id) fun flow => ?_
  cases flow with
  | none => exact maintains_fail _
  | some _ => exact maintains_externalWrite

theorem Indifferent.validTOTP : Maintains E (MayCrash E) I validTOTP := by
  refine maintains_bind maintains_get fun site => ?_
  split
  next => exact maintains_pure _
  next =>
    refine maintains_bind hI.now fun t => ?_
    split
    · exact maintains_pure _
    · exact maintains_bind (hI.modify (fun _ => rfl) (fun _ => rfl) fun _ => rfl)
        fun _ => maintains_pure _

theorem Indifferent.beginTOTP (username : String) (password : List UInt8) (code : String) :
    Maintains E (MayCrash E) I (beginTOTP username password code) := by
  refine maintains_bind (maintains_verifyFactors _ _ _) fun _ => ?_
  refine maintains_bind (maintains_failing maintains_externalCall) fun _ => ?_
  exact maintains_bind hI.now fun _ => hI.modify (fun _ => rfl) (fun _ => rfl) fun _ => rfl

theorem Indifferent.servePending (qr : Bool) :
    Maintains E (MayCrash E) I (Server.servePending qr) := by
  refine maintains_bind maintains_currentState fun current => ?_
  split
  next => exact maintains_pure _
  next =>
    refine maintains_bind hI.now fun t => ?_
    split
    · exact maintains_pure _
    · split
      · exact maintains_pure _
      · exact maintains_pure _

theorem Indifferent.sensitiveRead (r : Request) :
    Maintains E (MayCrash E) I (Server.sensitiveRead r) := by
  unfold Server.sensitiveRead
  split
  · exact maintains_bind maintains_currentState fun _ => maintains_pure _
  · exact hI.servePending false
  · exact hI.servePending true
  · refine maintains_bind maintains_currentState fun current => ?_
    split
    · exact maintains_pure _
    · exact maintains_pure _
  · exact maintains_pure _

theorem Indifferent.allowPath (path : String) :
    Maintains E (MayCrash E) I (Server.allowPath path) := by
  refine maintains_bind hI.now fun t => ?_
  refine maintains_bind (hI.modify ?_ ?_ ?_) fun _ => ?_
  iterate 3
    intro site
    split
    · rfl
    · rfl
  split
  · refine maintains_bind (hI.modify (fun _ => rfl) (fun _ => rfl) fun _ => rfl) fun _ => ?_
    exact maintains_bind maintains_get fun _ => maintains_pure _
  · refine maintains_bind (hI.modify (fun _ => rfl) (fun _ => rfl) fun _ => rfl) fun _ => ?_
    exact maintains_bind maintains_get fun _ => maintains_pure _

end Quiet

/-! ## Moves -/

section Moves

variable {α : Type} {E : Event → Prop} {srv : Server} {r : Request} {start site : Site} {w : World}
  {s : State}

theorem Held.sound (site : Site) (h : Held w s) (hvalid : s.Valid) :
    ({ site with world := w } : Site).Sound :=
  ⟨by rw [h.value]; exact h, by rw [h.value]; exact hvalid⟩

/-- An operation that leaves a state behind by a move of the request, and what it has drawn. -/
theorem Reached.drew (h : Reached srv r start site) {drawn : List Draw} (hheld : Held w s)
    (hvalid : s.Valid) (hmove : Move srv r start site.account
      { site.account with state := s, commands := w.commands, drawn, clock := w.clock }) :
    Reached srv r start { site with world := w, drawn } := by
  refine ⟨Held.sound { site with drawn } hheld hvalid, h.moves.tail ?_⟩
  have haccount : ({ site with world := w, drawn } : Site).account =
      { site.account with state := s, commands := w.commands, drawn, clock := w.clock } := by
    rw [← hheld.value]
    rfl
  rw [haccount]
  exact hmove

theorem Reached.moved (h : Reached srv r start site) (hheld : Held w s) (hvalid : s.Valid)
    (hmove : Move srv r start site.account
      { site.account with state := s, commands := w.commands, clock := w.clock }) :
    Reached srv r start { site with world := w } :=
  h.drew hheld hvalid hmove

theorem indifferent_reached : Indifferent (Reached srv r start) where
  clock site d h := by
    have hsince := (World.Since.refl site.world).elapsed d
    exact h.moved (h.sound.held.of_since hsince) h.sound.valid (.wait hsince.2)
  memory {site site'} hworld hverified hdrawn h := by
    have haccount : site'.account = site.account := by
      unfold Site.account
      rw [hworld, hverified, hdrawn]
    refine ⟨⟨by rw [hworld]; exact h.sound.held, by rw [hworld]; exact h.sound.valid⟩, ?_⟩
    rw [haccount]
    exact h.moves

theorem indifferent_still : Indifferent (Still start) where
  clock site d h := by
    have hsince := (World.Since.refl site.world).elapsed d
    exact ⟨Held.sound site (h.sound.held.of_since hsince) h.sound.valid, h.state, h.commands, h.rates,
      h.verified, h.drawn, Int.le_trans h.clock hsince.2⟩
  memory hworld hverified hdrawn h := by
    refine ⟨⟨by rw [hworld]; exact h.sound.held, by rw [hworld]; exact h.sound.valid⟩, ?_, ?_, ?_,
      hverified.trans h.verified, hdrawn.trans h.drawn, ?_⟩
    · rw [hworld, h.state]
    · rw [hworld, h.commands]
    · rw [hworld, h.rates]
    · rw [hworld]
      exact h.clock

theorem Still.refl (h : start.Sound) : Still start start :=
  ⟨h, rfl, rfl, rfl, rfl, rfl, Int.le_refl _⟩

theorem Still.account (h : Still start site) :
    site.account = { start.account with clock := site.world.clock } := by
  rw [Site.account, h.state, h.commands, h.verified, h.drawn]
  rfl

theorem Still.reached (h : Still start site) : Reached srv r start site := by
  refine ⟨h.sound, .single ?_⟩
  rw [h.account]
  exact .wait h.clock

/-! ## The owner -/

section Owner

variable (howner : FromOwner srv start r)

include howner

theorem maintains_ownerKeeps {c : Op α} (h : Keeps E (MayCrash E) World.timed c) :
    Maintains E (MayCrash E) (Reached srv r start) (onWorld c) := by
  intro site hsite
  have hend : ∀ w, w.timed = site.world.timed → Reached srv r start { site with world := w } := by
    intro w hw
    have hsince := (World.Since.refl site.world).of_timed hw
    exact hsite.moved (hsite.sound.held.of_since hsince) hsite.sound.valid
      (.owner w.commands hsince.2 howner (.inl rfl))
  exact wp_focus (h.step (fun _ w hw => hend w hw) fun hc w hw => ⟨hc, hend w hw⟩)

/-- An operation that stores what the owner may store. -/
theorem maintains_ownerCall {c : Op α} {A : State → State → Prop} (h : Moves c A)
    (hA : ∀ s s', A s s' → OwnerEffect srv.digest s s') :
    Maintains E (MayCrash E) (Reached srv r start) (onWorld c) := by
  intro site hsite
  have hend : ∀ w, (∃ s', (s' = site.world.value ∨ A site.world.value s') ∧ s'.Valid ∧ Held w s' ∧
      site.world.clock ≤ w.clock) → Reached srv r start { site with world := w } := by
    rintro w ⟨s', hs', hvalid, hheld, hclock⟩
    refine hsite.moved hheld hvalid (.owner w.commands hclock howner ?_)
    rcases hs' with rfl | hs'
    · exact .inl rfl
    · exact hA _ _ hs'
  exact wp_focus (wp_mono (h E _ site.world hsite.sound.held hsite.sound.valid)
    (fun _ w hw => hend w hw) fun w hw => ⟨hw.1, hend w hw.2⟩)

theorem maintains_storeCall (call : StoreCall) (hcall : byOwner call = true) :
    Maintains E (MayCrash E) (Reached srv r start) (onWorld (call.op srv.digest srv.runtime)) :=
  maintains_ownerCall howner (moves_storeCall srv.digest srv.runtime call)
    fun _ _ h => .inr (.inl ⟨call, hcall, h⟩)

/-- The end of an operation that has stored nothing. -/
theorem Reached.since (hsite : Reached srv r start site) (hsince : site.world.Since w) :
    Reached srv r start { site with world := w } :=
  hsite.moved (hsite.sound.held.of_since hsince) hsite.sound.valid
    (.owner w.commands hsince.2 howner (.inl rfl))

theorem maintains_createToken (name : String) (scopes : List Scope) (lifetime : Duration) :
    Maintains E (MayCrash E) (Reached srv r start) (srv.createToken name scopes lifetime) := by
  intro site hsite
  refine wp_bind (wp_focus (wp_mono (wp_createGrant hsite.sound.held) ?_
    fun w hw => ⟨hw.1, hsite.since howner hw.2⟩))
  intro result w hresult
  cases result with
  | error err => exact hsite.since howner hresult
  | ok g =>
    obtain ⟨hmade, -, s', rfl, hvalid, hheld⟩ := hresult
    refine wp_bind (wp_modify (wp_pure ?_))
    exact hsite.drew hheld hvalid
      (.grant g w.commands (Int.le_trans hmade.after hmade.before) howner)

theorem maintains_createDevice (name : String) :
    Maintains E (MayCrash E) (Reached srv r start) (createDevice name) := by
  intro site hsite
  refine wp_bind (wp_focus (wp_mono (commits_createDevice name E _ _ hsite.sound.held) ?_
    fun w hw => ⟨hw.1, hsite.since howner hw.2⟩))
  intro result w hresult
  cases result with
  | error err => exact hsite.since howner hresult
  | ok made =>
    obtain ⟨s', ⟨hinit, -, -, rfl⟩, hvalid, hheld, hclock⟩ := hresult
    refine wp_bind (wp_modify (wp_pure ?_))
    exact hsite.drew hheld (hvalid hsite.sound.valid)
      (.device made.1 w.commands hclock howner hinit)

theorem maintains_finishAuth : Maintains E (MayCrash E) (Reached srv r start) finishAuth :=
  maintains_ownerKeeps howner (ignoresServices_timed.keeps_restart .authelia)

theorem maintains_changePassword (username : String)
    (oldPassword newPassword confirmation : List UInt8) (code : String) :
    Maintains E (MayCrash E) (Reached srv r start)
      (changePassword username oldPassword newPassword confirmation code) := by
  unfold changePassword
  split
  · exact maintains_fail _
  · refine maintains_bind (maintains_verifyFactors _ _ _) fun _ => ?_
    refine maintains_bind (maintains_failing ?_) fun _ => maintains_finishAuth howner
    exact maintains_bind (maintains_storeCall howner .revokeAllSessions rfl)
      fun _ => maintains_externalCall

theorem maintains_completeTOTP : Maintains E (MayCrash E) (Reached srv r start) completeTOTP := by
  refine maintains_bind indifferent_reached.validTOTP fun valid => ?_
  split
  · exact maintains_fail _
  · refine maintains_bind (maintains_storeCall howner .revokeAllSessions rfl) fun _ => ?_
    refine maintains_bind (maintains_failing maintains_externalCall) fun _ => ?_
    refine maintains_bind (indifferent_reached.modify (fun _ => rfl) (fun _ => rfl) fun _ => rfl)
      fun _ => maintains_finishAuth howner

theorem maintains_sensitiveAction (path : String) (input : Input) :
    Maintains E (MayCrash E) (Reached srv r start) (srv.sensitiveAction path input) := by
  unfold Server.sensitiveAction
  split
  · exact maintains_answer (maintains_createDevice howner _)
  · exact maintains_answer (maintains_storeCall howner (.acknowledgeDevice _) rfl)
  · exact maintains_answer (maintains_confirmed _ _
      (maintains_storeCall howner (.revokeDevice _) rfl))
  · exact maintains_answer (maintains_confirmed _ _
      (maintains_storeCall howner (.setPublication _) rfl))
  · refine maintains_answer ?_
    split
    · exact maintains_fail _
    · exact maintains_ownerKeeps howner (keeps_componentAction _ _)
  · exact maintains_answer (maintains_confirmed _ _
      (maintains_storeCall howner (.revokeSession _) rfl))
  · refine maintains_answer (maintains_bind ?_ fun _ =>
      maintains_bind maintains_currentState fun _ => maintains_pure _)
    exact maintains_ownerCall howner (stores_rotateIdentity srv.runtime input.confirmation).moves
      fun _ _ ⟨_, h⟩ => .inr (.inl ⟨.rotateIdentity input.confirmation, rfl, h⟩)
  · exact maintains_answer (maintains_changePassword howner _ _ _ _ _)
  · exact maintains_answer (indifferent_reached.beginTOTP _ _ _)
  · exact maintains_answer (maintains_completeTOTP howner)
  · split
    · exact maintains_pure _
    · exact maintains_answer (maintains_createToken howner _ _ _)
  · exact maintains_answer (maintains_confirmed _ _ (maintains_ownerCall howner
      (commits_revokeToken input.id).stores.moves fun _ _ ⟨_, h⟩ => .inr (.inr ⟨_, h⟩)))
  · exact maintains_pure _

end Owner

/-! ## Credentials -/

/-- What `browserAuth` returns is due to a cookie that authenticates. -/
structure Recognised (srv : Server) (start : Site) (r : Request) (cookie : String) (auth : Auth) :
    Prop where
  signedIn : SignedIn srv start r cookie
  csrf : ∃ raw, base64Decode cookie = some raw ∧ auth.csrf = csrfFor srv.digest raw

theorem wp_browserAuth (h : Still start site) :
    wp E (srv.browserAuth r)
      (either (fun found site' => Reached srv r start site' ∧ ∀ cookie auth,
          found = some (cookie, auth) → Recognised srv start r cookie auth)
        fun _ => Reached srv r start)
      (fun site' => MayCrash E ∧ Reached srv r start site') site := by
  unfold Server.browserAuth
  split
  next => exact wp_pure ⟨h.reached, nofun⟩
  next cookie hcookie =>
    have hcommands := (keeps_commands_authenticate (E := E) srv.digest cookie).wp site.world
    refine wp_bind (wp_attempt (wp_focus (wp_mono (wp_and
      (wp_authenticate_stored h.sound.held h.sound.valid) hcommands) ?_ ?_)))
    · rintro result w ⟨hresult, hw⟩
      cases result with
      | ok auth =>
        obtain ⟨raw, x, hraw, hlength, hx, hsurvives, hmatch, hcsrf, hvalid, hheld, hclock⟩ := hresult
        -- a session that lasts until now also lasted when the request was received
        have hsigned : SignedIn srv start r cookie := by
          refine ⟨hcookie, raw, hraw, hlength, x, h.state ▸ hx, ?_, hmatch⟩
          exact survives_of_le (Int.le_trans h.clock hclock) hsurvives
        refine wp_pure ⟨h.reached.moved hheld hvalid ?_, ?_⟩
        · rw [hw]
          exact .renew raw hclock hsigned
        · rintro _ _ ⟨⟩
          exact ⟨hsigned, raw, hraw, hcsrf⟩
      | error err =>
        obtain ⟨s', hs', hvalid, hheld, hclock⟩ := hresult
        refine wp_pure ⟨h.reached.moved hheld hvalid ?_, nofun⟩
        rw [hw]
        rcases hs' with rfl | rfl
        · exact .wait hclock
        · exact .prune hclock
    · rintro w ⟨⟨hc, hsince⟩, -, hw⟩
      refine ⟨hc, h.reached.moved (h.sound.held.of_since hsince) h.sound.valid ?_⟩
      rw [hw]
      exact .wait hsince.2

/-- A request with the checks of `validMutation` is one of the owner. -/
theorem Recognised.fromOwner {cookie : String} {auth : Auth}
    (h : Recognised srv start r cookie auth) (hmethod : r.method = .post) (hhost : r.host = localHost)
    (hvalid : srv.validMutation r cookie auth.csrf = true) : FromOwner srv start r := by
  simp only [Server.validMutation, Bool.and_eq_true, beq_iff_eq, Request.jsonType] at hvalid
  obtain ⟨⟨⟨horigin, hjson⟩, -⟩, htoken⟩ := hvalid
  obtain ⟨raw, hraw, hcsrf⟩ := h.csrf
  exact ⟨hmethod, hhost, horigin, hjson, cookie, raw, h.signedIn, hraw, htoken.trans hcsrf⟩

theorem wp_tokenAuth (scope : Scope) (h : Still start site) :
    wp E (srv.tokenAuth r scope)
      (either (fun ok site' => Reached srv r start site' ∧ (ok = true → FromAgent srv start r scope))
        fun _ => Reached srv r start)
      (fun site' => MayCrash E ∧ Reached srv r start site') site := by
  have hcommands := (keeps_commands_authorize (E := E) srv.digest r.bearerToken scope).wp site.world
  refine wp_bind (wp_attempt (wp_focus (wp_mono (wp_and
    (wp_authorize srv.digest r.bearerToken scope h.sound.held h.sound.valid) hcommands) ?_ ?_)))
  · rintro result w ⟨hresult, hw⟩
    cases result with
    | ok _ =>
      obtain ⟨id, hid, hclock, hany, hheld, hvalid⟩ := hresult
      obtain ⟨x, hx, hgrants⟩ := List.any_eq_true.mp hany
      -- the buckets are those of the daemon that received the request
      have hsame : site.world.grants = start.world.grants := by
        funext hash id required t record
        unfold World.grants World.admits
        rw [h.rates]
      have hagent : FromAgent srv start r scope :=
        ⟨w.clock, x, Int.le_trans h.clock hclock, h.state ▸ hx, id, hid, hsame ▸ hgrants⟩
      have hauthorized : site.world.authorized (srv.digest.sum (utf8 r.bearerToken)) id scope w.clock
          site.world.value = start.world.authorized (srv.digest.sum (utf8 r.bearerToken)) id scope
          w.clock site.world.value := by
        unfold World.authorized
        rw [hsame]
      rw [hauthorized] at hheld hvalid
      refine wp_pure ⟨h.reached.moved hheld hvalid ?_, fun _ => hagent⟩
      rw [hw]
      exact .use hclock hagent hid
    | error err =>
      refine wp_pure ⟨h.reached.moved (h.sound.held.of_since hresult) h.sound.valid ?_, nofun⟩
      rw [hw]
      exact .wait hresult.2
  · rintro w ⟨⟨hc, hsince⟩, -, hw⟩
    refine ⟨hc, h.reached.moved (h.sound.held.of_since hsince) h.sound.valid ?_⟩
    rw [hw]
    exact .wait hsince.2

/-- From the moment a request is received, `c` makes only moves of the request. -/
def Conducts (srv : Server) (r : Request) (start : Site) (c : Handler α) : Prop :=
  ∀ (E : Event → Prop) (site : Site), Still start site →
    wp E c (fun _ => Reached srv r start) (fun site' => MayCrash E ∧ Reached srv r start site') site

theorem Conducts.of_maintains {c : Handler α}
    (h : ∀ E, Maintains E (MayCrash E) (Reached srv r start) c) : Conducts srv r start c :=
  fun E site hsite => h E site hsite.reached

theorem conducts_pure (a : α) : Conducts srv r start (pure a : Handler α) :=
  .of_maintains fun _ => maintains_pure a

/-- A quiet step before the others. -/
theorem Conducts.after {β : Type} {c : Handler β} {k : β → Handler α}
    (hc : ∀ E, Maintains E (MayCrash E) (Still start) c) (hk : ∀ b, Conducts srv r start (k b)) :
    Conducts srv r start (c >>= k) := fun E _ hsite =>
  (hc E).bind hsite (fun _ _ h => h.reached) (fun _ hc h => ⟨hc, h.reached⟩) fun b _ h => hk b E _ h

/-- What follows the others keeps what they have reached. -/
theorem Conducts.before {β : Type} {c : Handler β} {k : β → Handler α}
    (hc : Conducts srv r start c)
    (hk : ∀ E b, Maintains E (MayCrash E) (Reached srv r start) (k b)) :
    Conducts srv r start (c >>= k) := fun E site hsite =>
  wp_bind (wp_mono (hc E site hsite) (fun result site' h => by
    cases result with
    | ok b => exact hk E b site' h
    | error err => exact h) fun _ h => h)

theorem Conducts.attempt {c : Handler α} (hc : Conducts srv r start c) :
    Conducts srv r start c.attempt := fun E site hsite => wp_attempt (hc E site hsite)

/-- The state that a handler reads at first is the one in which the request was received. -/
theorem Conducts.currentState {k : State → Handler α}
    (hk : Conducts srv r start (k start.world.value)) :
    Conducts srv r start (currentState >>= k) := by
  intro E site hsite
  unfold Api.currentState viewState
  refine wp_bind (wp_focus (wp_bind (wp_get (wp_pure ?_))))
  rw [either_ok, clone_of_encodable hsite.sound.held.encodable, hsite.state]
  exact hk E site hsite

theorem Conducts.browserAuth {k : Option (String × Auth) → Handler α}
    (hnone : ∀ E, Maintains E (MayCrash E) (Reached srv r start) (k none))
    (hsome : ∀ E cookie auth, Recognised srv start r cookie auth →
      Maintains E (MayCrash E) (Reached srv r start) (k (some (cookie, auth)))) :
    Conducts srv r start (srv.browserAuth r >>= k) := by
  intro E site hsite
  refine wp_bind (wp_mono (wp_browserAuth hsite) ?_ fun _ hc => hc)
  intro result site' hresult
  match result with
  | .error err => exact hresult
  | .ok none => exact hnone E site' hresult.1
  | .ok (some (cookie, auth)) => exact hsome E cookie auth (hresult.2 _ _ rfl) site' hresult.1

/-! ## Mappings -/

section Mappings

variable (hright : FromOwner srv start r ∨ FromAgent srv start r .mappingsWrite)

include hright

theorem maintains_mappingCall (call : MappingCall) :
    Maintains E (MayCrash E) (Reached srv r start) (onWorld (call.op srv.runtime)) := by
  intro site hsite
  have hcommands : Keeps E (MayCrash E) World.commands (call.op srv.runtime) := by
    rw [call.op_eq]
    exact keeps_commands_caddyChange _ _
  have hend : ∀ w, (∃ s', (s' = site.world.value ∨
      StoreCall.Allows srv.digest site.world.value s' (.mapping call)) ∧ s'.Valid ∧ Held w s' ∧
      site.world.clock ≤ w.clock) → w.commands = site.world.commands →
      Reached srv r start { site with world := w } := by
    rintro w ⟨s', hs', hvalid, hheld, hclock⟩ hw
    refine hsite.moved hheld hvalid ?_
    rw [hw]
    rcases hs' with rfl | ⟨hinit, mappings, rfl⟩
    · exact .wait hclock
    · exact .route mappings hclock hright hinit
  refine wp_focus (wp_mono (wp_and (moves_mapping srv.digest srv.runtime call E _ _ hsite.sound.held
    hsite.sound.valid) (hcommands.wp site.world)) ?_ ?_)
  · exact fun _ w hw => hend w hw.1 hw.2
  · exact fun w hw => ⟨hw.1.1, hend w hw.1.2 hw.2.2⟩

theorem maintains_mappingAction (path : String) (input : Input) :
    Maintains E (MayCrash E) (Reached srv r start) (srv.mappingAction path input) := by
  unfold Server.mappingAction
  split
  · exact maintains_answer (maintains_mappingCall hright (.create _))
  · exact maintains_answer (maintains_mappingCall hright (.update _ _))
  · exact maintains_answer (maintains_mappingCall hright (.enable _ _))
  · refine maintains_answer ?_
    split
    · exact maintains_mappingCall hright (.delete _)
    · exact maintains_fail _
  · exact maintains_answer (maintains_frozen (keeps_testMapping _))
  · exact maintains_pure _

end Mappings

/-- `mappingWriteAuth` accepts the owner and agents that may write. -/
theorem wp_mappingWriteAuth (hmethod : r.method = .post) (hhost : r.host = localHost)
    (h : Still start site) :
    wp E (srv.mappingWriteAuth r)
      (either (fun ok site' => Reached srv r start site' ∧ (ok = true →
          FromOwner srv start r ∨ FromAgent srv start r .mappingsWrite))
        fun _ => Reached srv r start)
      (fun site' => MayCrash E ∧ Reached srv r start site') site := by
  unfold Server.mappingWriteAuth
  split
  · refine wp_mono (wp_tokenAuth .mappingsWrite h) ?_ fun _ hc => hc
    intro result site' hresult
    cases result with
    | ok ok => exact ⟨hresult.1, fun hok => .inr (hresult.2 hok)⟩
    | error err => exact hresult
  · refine wp_bind (wp_mono (wp_browserAuth h) ?_ fun _ hc => hc)
    intro result site' hresult
    match result with
    | .error err => exact hresult
    | .ok none => exact wp_pure ⟨hresult.1, nofun⟩
    | .ok (some (cookie, auth)) =>
      exact wp_pure ⟨hresult.1, fun hok => .inl ((hresult.2 _ _ rfl).fromOwner hmethod hhost hok)⟩

theorem conducts_mappingRoute (hhost : r.host = localHost) :
    Conducts srv r start (srv.mappingRoute r) := by
  intro E site hsite
  unfold Server.mappingRoute
  have hread : Maintains E (MayCrash E) (Reached srv r start) (do
      let current ← currentState
      return ({ content := .mappings current.mappings current.publication (current.host "") } :
        Response)) :=
    maintains_bind maintains_currentState fun _ => maintains_pure _
  split
  · have hauth : wp E (srv.mappingAuth r .mappingsRead) (fun _ => Reached srv r start)
        (fun site' => MayCrash E ∧ Reached srv r start site') site := by
      unfold Server.mappingAuth
      split
      · refine wp_mono (wp_tokenAuth .mappingsRead hsite) ?_ fun _ hc => hc
        intro result site' hresult
        cases result with
        | ok ok => exact hresult.1
        | error err => exact hresult
      · exact Conducts.browserAuth (k := fun auth => pure auth.isSome) (fun _ => maintains_pure _)
          (fun _ _ _ _ => maintains_pure _) E site hsite
    refine wp_bind (wp_mono hauth ?_ fun _ hc => hc)
    intro result site' hresult
    cases result with
    | error err => exact hresult
    | ok ok =>
      rw [either_ok]
      split
      · exact wp_pure hresult
      · exact hread site' hresult
  next =>
    split
    · exact wp_pure hsite.reached
    next hpost =>
      simp only [ne_eq, Bool.or_eq_true, decide_eq_true_eq, not_or, not_not] at hpost
      refine wp_bind (wp_mono (wp_mappingWriteAuth hpost.1 hhost hsite) ?_ fun _ hc => hc)
      intro result site' hresult
      cases result with
      | error err => exact hresult
      | ok ok =>
        rw [either_ok]
        split
        · exact wp_pure hresult.1
        next hok =>
          split
          · exact wp_pure hresult.1
          · exact maintains_mappingAction (hresult.2 (by simpa using hok)) _ _ site' hresult.1

/-! ## Pages -/

theorem conducts_dashboard : Conducts srv r start (srv.dashboard r) := by
  unfold Server.dashboard
  split
  · exact conducts_pure _
  · refine Conducts.currentState ?_
    split
    · exact conducts_pure _
    · exact Conducts.browserAuth (fun _ => maintains_pure _) fun _ _ _ _ => maintains_pure _

theorem conducts_logout (hhost : r.host = localHost) : Conducts srv r start (srv.logout r) := by
  refine Conducts.browserAuth (fun _ => maintains_pure _) fun E cookie auth hauth => ?_
  dsimp only
  split
  · exact maintains_pure _
  next hvalid =>
    simp only [ne_eq, Bool.or_eq_true, decide_eq_true_eq, not_or, not_not, Bool.not_eq_true',
      Bool.not_eq_false] at hvalid
    have howner := hauth.fromOwner hvalid.1 hhost hvalid.2
    exact maintains_bind (maintains_ignore (maintains_storeCall howner (.revokeSession auth.id) rfl))
      fun _ => maintains_pure _

theorem conducts_apiRoute (hhost : r.host = localHost) : Conducts srv r start (srv.apiRoute r) := by
  unfold Server.apiRoute
  split
  · exact conducts_mappingRoute hhost
  · refine Conducts.browserAuth (fun _ => maintains_pure _) fun E cookie auth hauth => ?_
    dsimp only
    split
    · exact indifferent_reached.sensitiveRead r
    · split
      · exact maintains_pure _
      next hvalid =>
        simp only [ne_eq, Bool.or_eq_true, decide_eq_true_eq, not_or, not_not, Bool.not_eq_true',
          Bool.not_eq_false] at hvalid
        split
        · exact maintains_pure _
        · exact maintains_sensitiveAction (hauth.fromOwner hvalid.1 hhost hvalid.2) _ _

/-! ## Logins -/

/-- `Complete` returns only the owner of a login that has been verified. -/
theorem wp_loginComplete (id code : String) (h : Still start site) :
    wp E (loginComplete id code)
      (either (fun owner site' => ∃ site₀, Still start site₀ ∧
          site' = { site₀ with verified := owner :: site₀.verified })
        fun _ => Reached srv r start)
      (fun site' => MayCrash E ∧ Reached srv r start site') site := by
  unfold loginComplete
  refine wp_bind (wp_get ?_)
  rw [either_ok]
  have hend : ∀ site' : Site, MayCrash E → Still start site' →
      MayCrash E ∧ Reached srv r start site' := fun _ hc h => ⟨hc, h.reached⟩
  refine Maintains.bind (I := Still start) ?_ h ?_ hend fun _ site₁ h₁ => ?_
  · exact indifferent_still.modify (fun _ => rfl) (fun _ => rfl) fun _ => rfl
  · exact fun _ _ h => h.reached
  split
  next => exact wp_fail h₁.reached
  next flow _ =>
    refine indifferent_still.now.bind h₁ (fun _ _ h => h.reached) hend fun t site₂ h₂ => ?_
    split
    · exact wp_fail h₂.reached
    · refine (maintains_completeFactors code).bind h₂ (fun _ _ h => h.reached) hend
        fun _ site₃ h₃ => ?_
      exact wp_bind (wp_modify (wp_pure ⟨site₃, h₃, rfl⟩))

/-- A login that has been verified is given a session. -/
theorem wp_createSession {owner name : String} {site₀ : Site} (h : Still start site₀)
    (hinit : start.world.value.initialized = true)
    (hsite : site = { site₀ with verified := owner :: site₀.verified }) :
    wp E (srv.createSession name) (fun _ => Reached srv r start)
      (fun site' => MayCrash E ∧ Reached srv r start site') site := by
  have hreached₀ : Reached srv r start site₀ := h.reached
  have hreached : Reached srv r start site := by
    rw [hsite]
    exact ⟨⟨h.sound.held, h.sound.valid⟩, hreached₀.moves.tail (.verify owner)⟩
  have hverified : site.account.verified = owner :: start.verified := by
    rw [hsite]
    exact congrArg _ h.verified
  have hstate : site.account.state = start.world.value := by
    rw [hsite]
    exact h.state
  have hcommands := (keeps_commands_createIssued (E := E) srv.digest name).wp site.world
  have hsince : ∀ w, site.world.Since w → w.commands = site.world.commands →
      Reached srv r start { site with world := w } := by
    intro w hw hsame
    refine hreached.moved (hreached.sound.held.of_since hw) hreached.sound.valid ?_
    rw [hsame]
    exact .wait hw.2
  refine wp_bind (wp_focus (wp_mono (wp_and (wp_createIssued hreached.sound.held) hcommands) ?_
    fun w hw => ⟨hw.1.1, hsince w hw.1.2 hw.2.2⟩))
  rintro result w ⟨hresult, hw⟩
  cases result with
  | error err => exact hsince w hresult hw
  | ok issued =>
    obtain ⟨hfrom, hto, -, -, s', rfl, hvalid, hheld⟩ := hresult
    refine wp_bind (wp_modify (wp_pure (hreached.drew hheld hvalid ?_)))
    rw [hw]
    exact .signIn issued (Int.le_trans hfrom hto) (hstate ▸ hinit) hverified

theorem conducts_finishLogin (hinit : start.world.value.initialized = true) (csrf : String) :
    Conducts srv r start (srv.finishLogin r csrf) := by
  unfold Server.finishLogin
  split
  · exact conducts_pure _
  · split
    · exact conducts_pure _
    next id _ =>
      intro E site hsite
      refine wp_bind (wp_attempt (wp_mono (wp_loginComplete id _ hsite) ?_ fun _ hc => hc))
      intro result site' hresult
      cases result with
      | error err => exact wp_pure hresult
      | ok owner =>
        obtain ⟨site₀, h₀, hsite'⟩ := hresult
        refine wp_bind (wp_attempt (wp_mono (wp_createSession h₀ hinit hsite') ?_ fun _ hc => hc))
        intro result site'' hresult
        cases result with
        | ok cookie => exact wp_pure hresult
        | error err => exact wp_pure hresult

theorem conducts_loginForm (hinit : start.world.value.initialized = true) (csrf : String) :
    Conducts srv r start (srv.loginForm r csrf) := by
  unfold Server.loginForm
  split
  · exact conducts_pure _
  · split
    · exact conducts_pure _
    · refine .of_maintains fun E =>
        maintains_bind (maintains_attempt (indifferent_reached.loginBegin _ _)) fun result => ?_
      cases result with
      | ok id => exact maintains_pure _
      | error err => exact maintains_pure _
  · exact conducts_pure _
  · exact conducts_finishLogin hinit csrf
  · exact conducts_pure _

theorem conducts_loginRoute : Conducts srv r start (srv.loginRoute r) := by
  refine Conducts.currentState ?_
  split
  · exact conducts_pure _
  next hinit =>
    refine .after (fun _ => maintains_preauth srv r) fun form => ?_
    exact (conducts_loginForm (by simpa using hinit) form.1).before fun _ _ => maintains_pure _

/-! ## First-time setup -/

section Setup

variable (hfresh : start.world.value.initialized = false)

include hfresh

theorem maintains_arrange (c : Component) (command : Supervisor.Command) :
    Maintains E (MayCrash E) (Reached srv r start) (do
      onWorld (.modify (commanded c command))
      externalCall) := by
  refine maintains_bind (fun site hsite => ?_) fun _ => maintains_externalCall
  exact wp_focus (wp_modify (hsite.moved (hsite.sound.held.of_stored rfl) hsite.sound.valid
    (.arrange _ hfresh)))

theorem maintains_setupBegin (username : String) (password confirmation : List UInt8) :
    Maintains E (MayCrash E) (Reached srv r start)
      (setupBegin username password confirmation) := by
  have hI : Indifferent (Reached srv r start) := indifferent_reached
  unfold setupBegin
  split
  · exact maintains_fail _
  · refine maintains_bind (hI.modify (fun _ => rfl) (fun _ => rfl) fun _ => rfl) fun _ => ?_
    refine maintains_bind (maintains_hashPassword _) fun _ => ?_
    refine maintains_bind (maintains_failing (maintains_arrange hfresh _ _)) fun _ => ?_
    refine maintains_bind
      (maintains_failing (maintains_forEach (fun _ => maintains_externalWrite) _)) fun _ => ?_
    refine maintains_bind maintains_externalWrite fun _ => ?_
    refine maintains_bind (maintains_failing (maintains_arrange hfresh _ _)) fun _ => ?_
    refine maintains_bind maintains_externalCall fun _ => ?_
    refine maintains_bind (maintains_draw 32) fun raw => maintains_bind hI.now fun t => ?_
    exact maintains_bind (hI.modify (fun _ => rfl) (fun _ => rfl) fun _ => rfl)
      fun _ => maintains_pure _

/-- `Initialize` with the session that was drawn for the setup. -/
theorem maintains_completeSetup {issued : Issued} :
    Maintains E (MayCrash E)
      (fun site => Reached srv r start site ∧ (site.world.value.initialized = false →
        site.drawn = .session issued :: start.drawn))
      (onWorld (srv.runtime.completeSetup (issued.record srv.digest))) := by
  rintro site ⟨hsite, hdrawn⟩
  have hcommands : Keeps E (MayCrash E) World.commands
      (srv.runtime.completeSetup (issued.record srv.digest)) := keeps_commands_caddyChange _ _
  have hend : ∀ w, (∃ s', (s' = site.world.value ∨ StoreCall.Allows srv.digest site.world.value s'
      (.completeSetup (issued.record srv.digest))) ∧ s'.Valid ∧ Held w s' ∧
      site.world.clock ≤ w.clock) → w.commands = site.world.commands →
      Reached srv r start { site with world := w } ∧ (w.value.initialized = false →
        site.drawn = .session issued :: start.drawn) := by
    rintro w ⟨s', hs', hvalid, hheld, hclock⟩ hw
    rcases hs' with rfl | ⟨hinit, rfl⟩
    · refine ⟨hsite.moved hheld hvalid ?_, hheld.value ▸ hdrawn⟩
      rw [hw]
      exact .wait hclock
    · refine ⟨hsite.moved hheld hvalid ?_, fun _ => hdrawn hinit⟩
      rw [hw]
      exact .complete hclock hfresh hinit (hdrawn hinit)
  refine wp_focus (wp_mono (wp_and (moves_completeSetup srv.digest srv.runtime _ E _ _
    hsite.sound.held hsite.sound.valid) (hcommands.wp site.world)) ?_ ?_)
  · exact fun _ w hw => hend w hw.1 hw.2
  · exact fun w hw => ⟨hw.1.1, hend w hw.1.2 hw.2.2⟩

theorem conducts_setupComplete (id code : String) :
    Conducts srv r start (srv.setupComplete id code) := by
  refine .after (fun _ => indifferent_still.validFlow id) fun flow => ?_
  cases flow with
  | none => exact .of_maintains fun _ => maintains_fail _
  | some flow =>
    refine .after (fun _ => maintains_failing (maintains_verifyFactors _ _ _)) fun _ => ?_
    intro E site hsite
    have hcommands := (keeps_commands_issue (E := E) flow.username).wp site.world
    have hsince : ∀ w, site.world.Since w → w.commands = site.world.commands →
        Reached srv r start { site with world := w } := by
      intro w hw hsame
      refine hsite.reached.moved (hsite.sound.held.of_since hw) hsite.sound.valid ?_
      rw [hsame]
      exact .wait hw.2
    refine wp_bind (wp_focus (wp_mono (wp_and (wp_issue (C := site.world.Since)) hcommands) ?_ ?_))
    rotate_left
    · exact fun w hw => ⟨hw.2.1, hsince w hw.1 hw.2.2⟩
    rintro result w ⟨hresult, hw⟩
    cases result with
    | error err => exact hsince w hresult hw
    | ok issued =>
      have hreached := hsince w hresult.1 hw
      -- the secret is recorded before the session is stored
      refine wp_bind (wp_modify ?_)
      have hdrawn : Reached srv r start { site with
          world := w, drawn := .session issued :: site.drawn } :=
        ⟨⟨hreached.sound.held, hreached.sound.valid⟩, hreached.moves.tail (.draw issued hfresh)⟩
      refine (maintains_completeSetup hfresh).bind ⟨hdrawn, fun _ => ?_⟩ (fun _ _ h => h.1)
        (fun _ hc h => ⟨hc, h.1⟩) fun _ site' h' => ?_
      · exact congrArg _ hsite.drawn
      · refine Maintains.bind (I := Reached srv r start) ?_ h'.1 (fun _ _ h => h)
          (fun _ hc h => ⟨hc, h⟩) fun _ => ?_
        · exact indifferent_reached.modify (fun _ => rfl) (fun _ => rfl) fun _ => rfl
        · exact maintains_bind (maintains_ignore maintains_externalWrite) fun _ => maintains_pure _

theorem conducts_setupForm (csrf : String) : Conducts srv r start (srv.setupForm r csrf) := by
  unfold Server.setupForm
  split
  · exact conducts_pure _
  · split
    · exact conducts_pure _
    · refine .of_maintains fun E =>
        maintains_bind (maintains_attempt (maintains_setupBegin hfresh _ _ _)) fun result => ?_
      cases result with
      | ok id => exact maintains_pure _
      | error err => exact maintains_pure _
  · exact conducts_pure _
  · split
    · exact conducts_pure _
    · refine .of_maintains fun E =>
        maintains_bind (maintains_attempt (indifferent_reached.setupQR _)) fun result => ?_
      cases result with
      | ok _ => exact maintains_pure _
      | error err => exact maintains_pure _
  · split
    · exact conducts_pure _
    · split
      · exact conducts_pure _
      · refine ((conducts_setupComplete hfresh _ _).attempt).before fun E result => ?_
        cases result with
        | ok cookie => exact maintains_pure _
        | error err => exact maintains_pure _
  · exact conducts_pure _

end Setup

theorem conducts_setupRoute : Conducts srv r start (srv.setupRoute r) := by
  refine Conducts.currentState ?_
  split
  · exact conducts_pure _
  next hinit =>
    refine .after (fun _ => maintains_preauth srv r) fun form => ?_
    exact (conducts_setupForm (by simpa using hinit) form.1).before fun _ _ => maintains_pure _

/-! ## All requests -/

theorem conducts_dispatch (hhost : r.host = localHost) : Conducts srv r start (srv.dispatch r) := by
  refine .after (fun _ => indifferent_still.allowPath _) fun allowed => ?_
  split
  · exact conducts_pure _
  split
  · exact .of_maintains fun _ => maintains_asset r
  split
  · exact conducts_setupRoute
  split
  · exact conducts_loginRoute
  split
  · exact conducts_dashboard
  split
  · exact conducts_logout hhost
  split
  · exact conducts_apiRoute hhost
  · exact conducts_pure _

/-- Whatever a request does is a sequence of its moves. -/
theorem conducts_serveHTTP (srv : Server) (r : Request) (start : Site) :
    Conducts srv r start (srv.serveHTTP r) := by
  unfold Server.serveHTTP
  split
  · exact conducts_pure _
  next hlocal =>
    simp only [ne_eq, not_or, not_not] at hlocal
    refine .after (fun _ => maintains_get) fun site => ?_
    split
    · exact conducts_pure _
    · refine .after (fun _ => indifferent_still.modify (fun _ => rfl) (fun _ => rfl) fun _ => rfl)
        fun _ => ?_
      refine ((conducts_dispatch hlocal.1).attempt).before fun E response => ?_
      refine maintains_bind (indifferent_reached.modify (fun _ => rfl) (fun _ => rfl) fun _ => rfl)
        fun _ => ?_
      cases response with
      | ok response => exact maintains_pure _
      | error err => exact maintains_fail _

/-- However the serving of a request ends, it has led there by moves of the request. -/
theorem reached_serveHTTP (srv : Server) (r : Request) (env : ℕ → Event) (n : ℕ)
    (hsite : site.Sound) : Reached srv r site ((srv.serveHTTP r).run env n site).2.1 := by
  have hends := (conducts_serveHTTP srv r site (fun _ => True) site (.refl hsite)).at env n
    fun _ => trivial
  revert hends
  cases ((srv.serveHTTP r).run env n site).1 with
  | ok _ => exact fun h => h
  | error _ => exact fun h => h
  | crash => exact fun h => h.2

end Moves

end Torkitten.Api
