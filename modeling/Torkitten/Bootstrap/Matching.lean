import Torkitten.Bootstrap.Manager

/-!
# The setup flow matches the credentials on disk

A flow exists only after `Begin` has done all of its steps, and the next call of `Begin` that passes
the checks of its arguments drops it before it touches a file. So while a flow exists, what has
happened last is the whole of the `Begin` call that returned its id.

## Main results

* `setup_matches`: along every sequence of calls, a flow matches the users file and the TOTP secret,
  `Complete` succeeds for such a flow only and stores a session of its user, and a `Complete` that
  fails stores nothing and keeps the flow.
-/

namespace Torkitten.Bootstrap

open Proc

/-! ## Rules -/

section Rules

variable {α : Type} {E : Event → Prop} {C : Desk → Prop} {d : Desk}

theorem wp_failing {err : GoError} {c : Task α} {Q : Except GoError α → Desk → Prop}
    (h : wp E c (either (fun a => Q (.ok a)) fun _ => Q (.error err)) C d) :
    wp E (failing err c) Q C d := by
  unfold failing
  apply wp_bind
  apply wp_attempt
  refine wp_mono h ?_ fun _ hc => hc
  intro r d' hr
  cases r with
  | ok a => exact wp_pure hr
  | error e => exact wp_fail hr

theorem wp_processCall {effect : Event → Desk → Desk} {Q : Except GoError Unit → Desk → Prop}
    (hfail : Q (.error .external) d) (happlied : ∀ e, Q (.error .external) (effect e d))
    (hok : ∀ e, Q (.ok ()) (effect e d)) : wp Lives (processCall effect) Q C d := by
  refine wp_ask fun e he => ?_
  rw [if_neg (by rw [show e.crash = false from he]; exact Bool.false_ne_true)]
  split
  · split
    · exact happlied e
    · exact hfail
  · exact hok e

theorem wp_fileCall {effect : Desk → Desk} {Q : Except GoError Unit → Desk → Prop}
    (hfail : Q (.error .external) d) (happlied : Q (.error .external) (effect d))
    (hok : Q (.ok ()) (effect d)) : wp Lives (fileCall effect) Q C d := by
  refine wp_ask fun e he => ?_
  rw [if_neg (by rw [show e.crash = false from he]; exact Bool.false_ne_true)]
  split
  · split
    · exact happlied
    · exact hfail
  · exact hok

theorem wp_now {Q : Except GoError Time → Desk → Prop}
    (h : ∀ later : ℕ, Q (.ok (d.world.clock + later))
      { d with world := { d.world with clock := d.world.clock + later } }) :
    wp E (onWorld now) Q C d :=
  wp_focus (wp_ask fun e _ => h e.elapsed)

theorem wp_random {size : ℕ} {Q : Except GoError (List UInt8) → Desk → Prop}
    (hfail : Q (.error .external) d) (hok : ∀ raw, Q (.ok raw) d) :
    wp E (onWorld (randomBytes size)) Q C d := by
  refine wp_focus (wp_ask fun e _ => ?_)
  split
  · exact hfail
  · exact hok _

theorem maintains_processCall {I : Desk → Prop} {effect : Event → Desk → Desk}
    (h : ∀ e d, I d → I (effect e d)) : Maintains Lives False I (processCall effect) :=
  fun d hd => wp_processCall hd (fun e => h e d hd) fun e => h e d hd

theorem maintains_fileCall {I : Desk → Prop} {effect : Desk → Desk} (h : ∀ d, I d → I (effect d)) :
    Maintains Lives False I (fileCall effect) :=
  fun d hd => wp_fileCall hd (h d hd) (h d hd)

theorem maintains_failing {I : Desk → Prop} {K : Prop} {err : GoError} {c : Task α}
    (h : Maintains E K I c) : Maintains E K I (failing err c) := by
  refine fun d hd => wp_failing (wp_mono (h d hd) ?_ fun _ hc => hc)
  intro r d' hr
  cases r with
  | ok a => exact hr
  | error e => exact hr

end Rules

/-! ## `Begin` -/

/-- A flow matches the credentials: what has happened last is the whole of the `Begin` call that
returned its id. -/
def Matches (d : Desk) (flow : SetupFlow) : Prop :=
  ∃ digest secret start older,
    d.history = .began flow.id start :: .generated flow.username secret ::
      .wrote flow.username digest :: .hashed flow.password digest :: .admitted :: older ∧
    d.users = ownerFile flow.username digest ∧ d.database = some (some (flow.username, secret)) ∧
    flow.expires = start + 10 * minute

/-- The store is open. -/
def Desk.Opened (d : Desk) : Prop := ∃ s, Held d.world s ∧ s.Valid

/-- What holds between two calls. -/
structure Inv (d : Desk) : Prop where
  opened : d.Opened
  flow : ∀ flow, d.flow = some flow → Matches d flow

/-- The store is open and there is no flow. -/
def Idle (d : Desk) : Prop := d.Opened ∧ d.flow = none

theorem Idle.inv {d : Desk} (h : Idle d) : Inv d :=
  ⟨h.1, fun flow hflow => by rw [h.2] at hflow; cases hflow⟩

/-- There is no flow, and the milestones are those given. -/
def Stands (history : List Milestone) (d : Desk) : Prop := Idle d ∧ d.history = history

/-- The same, with the users file of an owner written last. -/
def StandsOwned (history : List Milestone) (username digest : String) (d : Desk) : Prop :=
  Stands (.wrote username digest :: history) d ∧ d.users = ownerFile username digest

/-- The same, with the TOTP secret of the owner generated after that. -/
def StandsReady (history : List Milestone) (username digest : String) (secret : List UInt8) (d : Desk) :
    Prop :=
  Stands (.generated username secret :: .wrote username digest :: history) d ∧
    d.users = ownerFile username digest ∧ d.database = some (some (username, secret))

section Begin

variable {m : Manager} {d : Desk} {history : List Milestone} {username digest : String}
  {C : Desk → Prop}

theorem Idle.commanded (h : Idle d) (command : Component × Supervisor.Command) :
    Idle { d with world := { d.world with commands := command :: d.world.commands } } := by
  obtain ⟨⟨s, hheld, hvalid⟩, hflow⟩ := h
  exact ⟨⟨s, hheld.of_stored rfl, hvalid⟩, hflow⟩

theorem wp_hashPassword {password : List UInt8} (h : Stands history d) :
    wp Lives (m.hashPassword password)
      (either (fun digest => Stands (.hashed password digest :: history)) fun _ => Idle) C d := by
  unfold Manager.hashPassword
  split
  · exact wp_fail h.1
  · refine wp_ask fun e he => ?_
    rw [if_neg (by rw [show e.crash = false from he]; exact Bool.false_ne_true)]
    split
    · exact h.1
    · split
      · exact h.1
      · split
        · exact h.1
        · exact ⟨h.1, congrArg _ h.2⟩

theorem maintains_stopAuthelia : Maintains Lives False (Stands history) stopAuthelia :=
  maintains_processCall fun _ _ h => ⟨h.1.commanded _, h.2⟩

theorem maintains_removed (file : StaleFile) :
    Maintains Lives False (Stands history) (fileCall (Desk.removed file)) :=
  maintains_fileCall fun _ h => by cases file <;> exact h

theorem wp_writeOwner (h : Stands history d) :
    wp Lives (writeOwner username digest)
      (either (fun _ => StandsOwned history username digest) fun _ => Idle) C d := by
  unfold writeOwner
  split
  · exact wp_fail h.1
  · split
    · exact wp_fail h.1
    · exact wp_fileCall h.1 h.1 ⟨⟨h.1, congrArg _ h.2⟩, rfl⟩

theorem maintains_startAuthelia :
    Maintains Lives False (StandsOwned history username digest) startAuthelia :=
  maintains_processCall fun _ _ h => ⟨⟨h.1.1.commanded _, h.1.2⟩, h.2⟩

theorem wp_generateTOTP (h : StandsOwned history username digest d) :
    wp Lives (generateTOTP username)
      (either (fun _ d' => ∃ secret, StandsReady history username digest secret d') fun _ => Idle)
      (fun _ => False) d := by
  unfold generateTOTP
  split
  · exact wp_fail h.1.1
  · have hremove : Maintains Lives False (StandsOwned history username digest)
        (fileCall (Desk.removed .qr)) := maintains_fileCall fun _ h => h
    refine (maintains_ignore hremove).bind h (fun _ _ h => h.1.1) (fun _ hK _ => hK) fun _ d₁ h₁ => ?_
    refine wp_bind (wp_processCall h₁.1.1 (fun e => h₁.1.1) fun e => ?_)
    have h₂ : StandsReady history username digest (takeBytes 20 e.bytes)
        (d₁.generated username (takeBytes 20 e.bytes)) := ⟨⟨h₁.1.1, congrArg _ h₁.1.2⟩, h₁.2, rfl⟩
    generalize d₁.generated username (takeBytes 20 e.bytes) = d₂ at h₂
    -- what is left checks the QR code and changes its mode
    have hcheck : Maintains Lives False (StandsReady history username digest (takeBytes 20 e.bytes))
        (fileCall id) := maintains_fileCall fun _ h => h
    refine (maintains_failing hcheck).bind h₂ (fun _ _ h => h.1.1) (fun _ hK _ => hK) fun _ d₃ h₃ => ?_
    refine wp_mono (hcheck d₃ h₃) ?_ fun _ hc => hc.1
    intro r d₄ h₄
    cases r with
    | ok _ => exact ⟨_, h₄⟩
    | error _ => exact h₄.1.1

/-- `Begin` leaves a flow only if it has done all of its steps. -/
theorem wp_beginSetup (h : Inv d) (initialized : Bool) (username : String)
    (password confirmation : List UInt8) :
    wp Lives (m.beginSetup initialized username password confirmation) (fun _ => Inv)
      (fun _ => False) d := by
  unfold Manager.beginSetup
  split
  · exact wp_fail h
  split
  · exact wp_fail h
  refine wp_bind (wp_modify ?_)
  have h₁ : Stands (.admitted :: d.history) { d with flow := none, history := .admitted :: d.history } :=
    ⟨⟨h.opened, rfl⟩, rfl⟩
  refine wp_bind (wp_mono (wp_hashPassword h₁) ?_ fun _ hc => hc)
  rintro (_ | digest) d₂ h₂
  · exact h₂.inv
  refine (maintains_failing maintains_stopAuthelia).bind h₂ (fun _ _ h => h.1.inv) (fun _ hK _ => hK)
    fun _ d₃ h₃ => ?_
  refine (maintains_failing (maintains_forEach maintains_removed _)).bind h₃ (fun _ _ h => h.1.inv)
    (fun _ hK _ => hK) fun _ d₄ h₄ => ?_
  refine wp_bind (wp_mono (wp_writeOwner h₄) ?_ fun _ hc => hc)
  rintro (_ | _) d₅ h₅
  · exact Idle.inv h₅
  refine (maintains_failing maintains_startAuthelia).bind h₅ (fun _ _ h => h.1.1.inv)
    (fun _ hK _ => hK) fun _ d₆ h₆ => ?_
  refine wp_bind (wp_mono (wp_generateTOTP h₆) ?_ fun _ hc => hc)
  rintro (_ | _) d₇ h₇
  · exact Idle.inv h₇
  obtain ⟨secret, ⟨hidle, hhistory⟩, husers, hdatabase⟩ := h₇
  refine wp_bind (wp_random hidle.inv fun raw => ?_)
  refine wp_bind (wp_now fun later => ?_)
  refine wp_bind (wp_modify (wp_pure ?_))
  obtain ⟨s, hheld, hvalid⟩ := hidle.1
  refine ⟨⟨s, hheld.of_stored rfl, hvalid⟩, ?_⟩
  rintro _ ⟨⟩
  exact ⟨digest, secret, _, d.history, congrArg _ hhistory, husers, hdatabase, rfl⟩

end Begin

/-! ## `QR` and `Complete` -/

/-- Nothing has been stored or written since `d`, and the clock has not gone back. -/
structure Desk.Since (d d' : Desk) : Prop where
  world : d.world.Since d'.world
  users : d'.users = d.users
  database : d'.database = d.database
  history : d'.history = d.history

/-- The flow is still there, or it has expired. -/
def KeepsFlow (d d' : Desk) : Prop :=
  d'.flow = d.flow ∨ d'.flow = none ∧ ∀ flow, d.flow = some flow → flow.expires ≤ d'.world.clock

/-- `Complete` has succeeded for a flow id. -/
structure Completed (d : Desk) (id : String) (d' : Desk) : Prop where
  /-- The id is that of the flow, and the flow had not expired when the clock was read. -/
  flow : ∃ flow current, d.flow = some flow ∧ flow.id = id ∧ d.world.clock ≤ current ∧
    current ≤ d'.world.clock ∧ current < flow.expires ∧
    ∃ session, session.owner = flow.username ∧ d'.world.value =
      { d.world.value with initialized := true, sessions := d.world.value.sessions ++ [session] }
  opened : d'.Opened
  done : d'.flow = none
  users : d'.users = d.users

section Complete

variable {m : Manager} {d d' d'' : Desk} {E : Event → Prop} {C : Desk → Prop}

theorem Desk.Since.refl (d : Desk) : d.Since d := ⟨.refl _, rfl, rfl, rfl⟩

theorem Desk.Since.elapsed (h : d.Since d') (later : ℕ) :
    d.Since { d' with world := { d'.world with clock := d'.world.clock + later } } :=
  ⟨h.world.elapsed later, h.users, h.database, h.history⟩

theorem Desk.Opened.since (h : d.Opened) (hd : d.Since d') : d'.Opened := by
  obtain ⟨s, hheld, hvalid⟩ := h
  exact ⟨s, hheld.of_since hd.world, hvalid⟩

/-- A call that keeps the files and the flow keeps what holds between calls. -/
theorem Inv.since (h : Inv d) (hd : d.Since d') (hflow : KeepsFlow d d') : Inv d' := by
  refine ⟨h.opened.since hd, fun flow hsome => ?_⟩
  rcases hflow with hsame | ⟨hnone, -⟩
  · obtain ⟨digest, secret, start, older, hhistory, husers, hdatabase, hexpires⟩ :=
      h.flow flow (hsame ▸ hsome)
    exact ⟨digest, secret, start, older, hd.history ▸ hhistory, hd.users ▸ husers,
      hd.database ▸ hdatabase, hexpires⟩
  · rw [hnone] at hsome
    cases hsome

theorem wp_validFlow (id : String) :
    wp E (validFlow id)
      (either (fun result d' => d.Since d' ∧ match result with
          | some flow => d.flow = some flow ∧ d'.flow = some flow ∧ flow.id = id ∧
              d'.world.clock < flow.expires
          | none => KeepsFlow d d')
        fun _ _ => False) C d := by
  unfold validFlow
  refine wp_bind (wp_get ?_)
  rw [either_ok]
  split
  next hnone => exact wp_pure ⟨.refl d, .inl rfl⟩
  next flow hflow =>
    refine wp_bind (wp_now fun later => ?_)
    have hsince := (Desk.Since.refl d).elapsed later
    rw [either_ok]
    split
    next hvalid =>
      rw [Bool.and_eq_true, decide_eq_true_iff, beq_iff_eq] at hvalid
      exact wp_pure ⟨hsince, hflow, hflow, hvalid.2.symm, hvalid.1⟩
    next =>
      refine wp_bind (wp_now fun later' => ?_)
      have hsince' := hsince.elapsed later'
      rw [either_ok]
      split
      next => exact wp_pure ⟨hsince', .inl rfl⟩
      next hexpired =>
        refine wp_bind (wp_modify (wp_pure ⟨⟨hsince'.world, rfl, rfl, rfl⟩, .inr ⟨rfl, ?_⟩⟩))
        intro flow' hflow'
        cases hflow.symm.trans hflow'
        exact Int.not_lt.mp hexpired

theorem wp_setupQR (h : Inv d) (id : String) :
    wp Lives (Manager.setupQR id) (fun _ => Inv) (fun _ => False) d := by
  unfold Manager.setupQR
  refine wp_bind (wp_mono (wp_validFlow id) ?_ fun _ hc => hc)
  rintro (_ | result) d' hd'
  · exact hd'.elim
  obtain ⟨hsince, hresult⟩ := hd'
  cases result with
  | none => exact wp_fail (h.since hsince hresult)
  | some flow =>
    have hinv : Inv d' := h.since hsince (.inl (hresult.2.1.trans hresult.1.symm))
    exact wp_fileCall hinv hinv hinv

theorem maintains_verify {I : Desk → Prop} (username : String) (password : List UInt8) (code : String) :
    Maintains Lives False I (verify username password code) := by
  have hcall : Maintains Lives False I
      (failing (.new "authentication failed") (processCall fun _ => id)) :=
    maintains_failing (maintains_processCall fun _ _ h => h)
  unfold verify
  split
  · exact maintains_fail _
  · refine maintains_bind hcall fun _ => maintains_bind hcall fun _ => ?_
    split
    · exact maintains_fail _
    · exact hcall

/-- `Complete` stores a session of the user of the flow, or nothing. -/
theorem wp_complete (h : Inv d) (id code : String) :
    wp Lives (m.complete id code)
      (either (fun _ => Completed d id) fun _ d' => d.Since d' ∧ KeepsFlow d d') (fun _ => False) d := by
  unfold Manager.complete
  refine wp_bind (wp_mono (wp_validFlow id) ?_ fun _ hc => hc)
  rintro (_ | result) d₁ hd₁
  · exact hd₁.elim
  obtain ⟨hsince, hresult⟩ := hd₁
  cases result with
  | none => exact wp_fail ⟨hsince, hresult⟩
  | some flow =>
    obtain ⟨hflow, hflow₁, hid, hcurrent⟩ := hresult
    have hsame : d₁.flow = d.flow := hflow₁.trans hflow.symm
    refine (maintains_failing (maintains_verify flow.username flow.password code)).bind
      (I := (d₁ = ·)) rfl ?_ (fun _ hK _ => hK) ?_
    · rintro _ _ rfl
      exact ⟨hsince, .inl hsame⟩
    rintro _ _ rfl
    refine wp_bind (wp_focus (wp_mono (wp_issue (C := fun _ => False)) ?_ fun _ hc => hc))
    rintro (_ | issued) w₂ hw₂
    · exact ⟨⟨hsince.world.trans hw₂, hsince.users, hsince.database, hsince.history⟩, .inl hsame⟩
    obtain ⟨s, hheld, hvalid⟩ := h.opened
    have hsince₂ : d.world.Since w₂ := hsince.world.trans hw₂.1
    refine wp_bind (wp_focus (wp_mono (commits_caddyChange m.runtime _ Lives s w₂
      (hheld.of_since hsince₂)) ?_ fun _ hc => not_mayCrash_lives hc.1))
    rintro (_ | _) w₃ hw₃
    · exact ⟨⟨hsince₂.trans hw₃, hsince.users, hsince.database, hsince.history⟩, .inl hsame⟩
    obtain ⟨s', ⟨hmutation, -⟩, hvalid', hheld', hclock⟩ := hw₃
    refine wp_bind (wp_modify ?_)
    have hdone : Completed d id { d₁ with world := w₃, flow := none } := by
      refine ⟨⟨flow, d₁.world.clock, hflow, hid, hsince.world.2, ?_, hcurrent, ?_⟩, ?_, rfl, hsince.users⟩
      · exact Int.le_trans hw₂.1.2 hclock
      · refine ⟨issued.record m.digest, hw₂.2.2.2.1, ?_⟩
        unfold initializeMutation at hmutation
        split at hmutation <;> cases hmutation
        rw [hheld.value]
        exact hheld'.value
      · exact ⟨s', hheld', hvalid' hvalid⟩
    generalize { d₁ with world := w₃, flow := none } = d₄ at hdone
    have hremove : Maintains Lives False (Completed d id) (fileCall (Desk.removed .qr)) :=
      maintains_fileCall fun _ h => ⟨h.flow, h.opened, h.done, h.users⟩
    exact wp_bind (wp_ignore (wp_mono (hremove d₄ hdone) (fun _ _ h => wp_pure h) fun _ hc => hc.1))

end Complete

/-! ## The result -/

section Result

variable {m : Manager} {calls : List SetupCall} {d d' : Desk}

theorem Completed.inv {id : String} (h : Completed d id d') : Inv d' :=
  Idle.inv ⟨h.opened, h.done⟩

theorem inv_of_wp {α : Type} {c : Task α} (h : wp Lives c (fun _ => Inv) (fun _ => False) d)
    {env : ℕ → Event} {n : ℕ} (hlives : ∀ i, Lives (env i)) : Inv (c.run env n d).2.1 := by
  have hends := h.at env n hlives
  revert hends
  cases (c.run env n d).1 with
  | ok a => exact id
  | error e => exact id
  | crash => exact False.elim

/-- One call. -/
theorem Inv.called {call : SetupCall} (h : Inv d) (hcall : m.Called d call d') : Inv d' := by
  obtain ⟨env, n, hlives, hrun⟩ := hcall
  cases call with
  | beginSetup initialized username password confirmation =>
    exact hrun ▸ inv_of_wp (wp_beginSetup h initialized username password confirmation) hlives
  | setupQR id => exact hrun ▸ inv_of_wp (wp_setupQR h id) hlives
  | complete id code =>
    refine hrun ▸ inv_of_wp (wp_mono (wp_complete h id code) ?_ fun _ hc => hc) hlives
    rintro (_ | _) d' hd'
    · exact h.since hd'.1 hd'.2
    · exact Completed.inv hd'

theorem ManagerRun.inv (h : ManagerRun m calls d) : Inv d :=
  Run.invariant (I := fun _ d => Inv d) (fun _ hd => Idle.inv ⟨hd.2, hd.1⟩)
    (fun _ _ _ _ hd hcall => hd.called hcall) h

/-- A flow can be used until it expires. -/
theorem validFlow_eq_ok {flow : SetupFlow} (hflow : d.flow = some flow) {env : ℕ → Event} {n : ℕ}
    (hcurrent : d.world.clock + (env n).elapsed < flow.expires) :
    ((validFlow flow.id).run env n d).1 = .ok (some flow) := by
  have hget : (get : Task Desk).run env n d = (.ok d, d, n) := rfl
  unfold validFlow
  rw [bind_run_ok hget, hflow]
  have hnow : (onWorld now).run env n d = (.ok (d.world.clock + (env n).elapsed),
      { d with world := { d.world with clock := d.world.clock + (env n).elapsed } }, n + 1) := rfl
  rw [bind_run_ok hnow, if_pos (by simp [hcurrent])]
  rfl

/-- The setup flow matches the credentials, and `Complete` relies on them. -/
structure SetupMatches (m : Manager) (d : Desk) : Prop where
  /-- A flow matches the users file and the TOTP secret. -/
  flow : ∀ flow, d.flow = some flow → Matches d flow
  /-- `Complete` succeeds for the id that was returned last and less than ten minutes ago, with no
  attempt admitted since, and stores a session of the user in the users file. -/
  succeeds : ∀ id code env n cookie d' n', (∀ i, Lives (env i)) →
    (m.complete id code).run env n d = (.ok cookie, d', n') →
    ∃ start older current session digest, d.history = .began id start :: older ∧
      d.world.clock ≤ current ∧ current ≤ d'.world.clock ∧ current < start + 10 * minute ∧
      d'.world.value = { d.world.value with
        initialized := true, sessions := d.world.value.sessions ++ [session] } ∧
      d'.users = ownerFile session.owner digest
  /-- A `Complete` that fails has stored nothing, and the flow can be used until it expires. -/
  fails : ∀ id code env n err d' n', (∀ i, Lives (env i)) →
    (m.complete id code).run env n d = (.error err, d', n') →
    d'.world.stored = d.world.stored ∧ KeepsFlow d d' ∧
      ∀ flow, d'.flow = some flow → ∀ (env : ℕ → Event) (n : ℕ),
        d'.world.clock + (env n).elapsed < flow.expires →
          ((validFlow flow.id).run env n d').1 = .ok (some flow)

/-- Along every sequence of calls the setup flow matches the credentials on disk. -/
theorem setup_matches (h : ManagerRun m calls d) : SetupMatches m d := by
  have hinv : Inv d := ManagerRun.inv h
  refine ⟨hinv.flow, ?_, ?_⟩
  · intro id code env n cookie d' n' hlives hrun
    have hends := (wp_complete (m := m) hinv id code).at env n hlives
    rw [hrun] at hends
    obtain ⟨flow, current, hflow, rfl, hlow, hhigh, hcurrent, session, howner, hvalue⟩ := hends.flow
    obtain ⟨digest, secret, start, older, hhistory, husers, -, hexpires⟩ := hinv.flow flow hflow
    refine ⟨start, _, current, session, digest, hhistory, hlow, hhigh, hexpires ▸ hcurrent, hvalue, ?_⟩
    rw [howner]
    exact hends.users.trans husers
  · intro id code env n err d' n' hlives hrun
    have hends := (wp_complete (m := m) hinv id code).at env n hlives
    rw [hrun] at hends
    exact ⟨hends.1.world.1, hends.2, fun flow hflow env n hcurrent => validFlow_eq_ok hflow hcurrent⟩

end Result

/-- A manager whose hash is always the same. -/
def sampleManager : Manager where
  runtime := sampleRuntime
  digest := sampleDigest
  hash _ _ := some "$argon2id$sample"

/-- A system without an owner. -/
def sampleDesk : Desk where
  world := { ownedWorld with
    durable := { sampleOwned with initialized := false }, value := { sampleOwned with initialized := false } }
  users := "users: \x7b\x7d\n"
  database := none
  qr := false
  flow := none
  history := []

/-- A call of `Begin`. -/
def sampleBegin : SetupCall := .beginSetup false "owner" (List.replicate 12 1) (List.replicate 12 1)

/-- The system after this call, if nothing goes wrong. -/
def begunDesk : Desk :=
  ((sampleManager.beginSetup false "owner" (List.replicate 12 1) (List.replicate 12 1)).run
    (fun _ => .calm) 0 sampleDesk).2.1

theorem sampleDesk_matches : begunDesk.flow.isSome = true ∧ ∃ (d' : Desk) (session : LocalSession)
    (digest : String), d'.users = ownerFile session.owner digest ∧ d'.world.value.sessions = [session] := by
  have hopened : ∃ s, Held sampleDesk.world s ∧ s.Valid :=
    ⟨_, ⟨rfl, ⟨none, rfl⟩, encodable_iff.mpr ⟨⟨[], rfl⟩, ⟨[], rfl⟩, ⟨[], rfl⟩, ⟨[], rfl⟩, ⟨[], rfl⟩⟩⟩,
      by decide +kernel⟩
  have hcalled : sampleManager.Called sampleDesk sampleBegin begunDesk :=
    ⟨fun _ => Event.calm, 0, fun _ => rfl, rfl⟩
  have hmatches := setup_matches (.next (.start ⟨rfl, hopened⟩) hcalled)
  have hok : ((sampleManager.complete (base64Encode (List.replicate 32 0)) "123456").run
      (fun _ => .calm) 0 begunDesk).1.isOk = true := by decide +kernel
  have hnone : begunDesk.world.value.sessions = [] := by decide +kernel
  refine ⟨by decide +kernel, ?_⟩
  match hrun : (sampleManager.complete (base64Encode (List.replicate 32 0)) "123456").run
      (fun _ => .calm) 0 begunDesk with
  | (.ok cookie, d', n') =>
    obtain ⟨start, older, current, session, digest, -, -, -, -, hvalue, husers⟩ :=
      hmatches.succeeds _ _ (fun _ => Event.calm) _ cookie d' n' (fun _ => rfl) hrun
    refine ⟨d', session, digest, husers, ?_⟩
    rw [hvalue, hnone]
    rfl
  | (.error err, d', n') =>
    rw [hrun] at hok
    cases hok
  | (.crash, d', n') =>
    rw [hrun] at hok
    cases hok

end Torkitten.Bootstrap
