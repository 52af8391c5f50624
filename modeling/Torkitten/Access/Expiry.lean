import Torkitten.Access.Ledger

/-!
# When a cookie is accepted

The runs of the calls that touch sessions, for any behaviour of the disk and of the other
components and any passage of time. Along each of them the store follows the ledger, and from that
follows when `Authenticate` accepts a cookie.
-/

namespace Torkitten

open Proc

/-- A call that concerns sessions. -/
inductive SessionCall where
  | create (owner : String)
  | authenticate (cookie : String)
  | revoke (id : String)
  | revokeAll
  /-- The end of the setup: a session is issued and `Initialize` stores it. -/
  | setUp (owner : String)
  | rotate (confirmation : String)
  | reset
  deriving DecidableEq, Repr

/-- What a call runs. -/
def SessionCall.op (digest : Digest) (rt : Runtime) : SessionCall → Op SessionEvent
  | .create owner => do
    let issued ← createIssued digest owner
    return .created issued
  | .authenticate cookie => do
    let _ ← Torkitten.authenticate digest cookie
    return .authenticated cookie
  | .revoke id => do
    revokeSession id
    return .revoked id
  | .revokeAll => do
    revokeAllSessions
    return .cleared
  | .setUp owner => do
    let issued ← issue owner
    rt.completeSetup (issued.record digest)
    return .initialized issued
  | .rotate confirmation => do
    let _ ← rt.rotateIdentity confirmation
    return .cleared
  | .reset => do
    stageOwnerReset
    return .cleared

/-- A call, for any behaviour of the surroundings, and how it is recorded. -/
def SessionStep (digest : Digest) (rt : Runtime) (w : World) (entry : Option SessionEvent × Time)
    (w' : World) : Prop :=
  ∃ (call : SessionCall) (env : ℕ → Event) (n : ℕ), (∀ i, Lives (env i)) ∧
    ((call.op digest rt).run env n w).2.1 = w' ∧
    entry = (((call.op digest rt).run env n w).1.value, w'.clock)

/-- The runs of the calls that concern sessions, on a store that holds a valid state without
sessions. -/
abbrev SessionRun (digest : Digest) (rt : Runtime) : SessionLog → World → Prop :=
  Run (fun w => Held w w.value ∧ w.value.Valid ∧ w.value.sessions = []) (SessionStep digest rt)

/-- A run can go on with any call, whatever the surroundings do during it. -/
theorem SessionRun.call {digest : Digest} {rt : Runtime} {log : SessionLog} {w : World}
    (r : SessionRun digest rt log w) (call : SessionCall) (env : ℕ → Event) (n : ℕ)
    (hlives : ∀ i, Lives (env i)) :
    SessionRun digest rt ((((call.op digest rt).run env n w).1.value,
      ((call.op digest rt).run env n w).2.1.clock) :: log) ((call.op digest rt).run env n w).2.1 :=
  .next r ⟨call, env, n, hlives, rfl, rfl⟩

/-! ## The record -/

section Record

variable {digest : Digest} {log : SessionLog} {others : List (List UInt8)}

theorem issued_endFirst (p : SignIn → Bool) (entries : List SignIn) :
    (endFirst p entries).map (·.issued) = entries.map (·.issued) := by
  induction entries with
  | nil => rfl
  | cons e rest ih =>
    unfold endFirst
    split
    · rfl
    · rw [List.map_cons, ih, List.map_cons]

theorem issued_evict (t : Time) (entries : List SignIn) :
    (evict t entries).map (·.issued) = entries.map (·.issued) := by
  unfold evict
  split
  · exact issued_endFirst _ _
  · rfl

theorem issued_use (raw : List UInt8) (t : Time) (e : SignIn) : (e.use raw t).issued = e.issued := by
  unfold SignIn.use
  split
  · rfl
  · rfl

theorem issued_endIf (p : SignIn → Bool) (e : SignIn) : (e.endIf p).issued = e.issued := by
  unfold SignIn.endIf
  split
  · rfl
  · rfl

/-- The sessions that a call issues. -/
def SessionEvent.issued : SessionEvent → List Issued
  | .created issued => [issued]
  | .initialized issued => [issued]
  | _ => []

/-- A call enters the session it issues and forgets none. -/
theorem issued_entered (entries : List SignIn) (t : Time) (event : SessionEvent) :
    (entered entries t event).map (·.issued) = entries.map (·.issued) ++ event.issued := by
  cases event with
  | created issued => simp [entered, issued_evict, SessionEvent.issued, SignIn.new]
  | initialized issued => simp [entered, SessionEvent.issued, SignIn.new]
  | authenticated cookie =>
    dsimp only [entered]
    split
    · simp [SessionEvent.issued, Function.comp_def, issued_use]
    · simp [SessionEvent.issued]
  | revoked id => simp [entered, SessionEvent.issued, Function.comp_def, issued_endIf]
  | cleared => simp [entered, SessionEvent.issued, Function.comp_def, issued_endIf]

theorem drawn_cons (event : SessionEvent) (t : Time) (log : SessionLog) :
    drawn ((some event, t) :: log) = event.issued.map Issued.secret ++ drawn log := by
  cases event <;> rfl

/-- The secrets of the ledger are those that were drawn. -/
theorem secrets_ledger (log : SessionLog) :
    (ledger log).map (·.issued.secret) = (drawn log).reverse := by
  induction log with
  | nil => rfl
  | cons entry log ih =>
    obtain ⟨event, t⟩ := entry
    cases event with
    | none => exact ih
    | some event =>
      have hentered := congrArg (List.map Issued.secret) (issued_entered (ledger log) t event)
      rw [List.map_append, List.map_map, List.map_map] at hentered
      have hshort : (event.issued.map Issued.secret).reverse = event.issued.map Issued.secret := by
        cases event <;> rfl
      rw [drawn_cons, List.reverse_append, ← ih, hshort]
      exact hentered

theorem Distinct.earlier {entry : Option SessionEvent × Time}
    (h : Distinct digest (entry :: log) others) : Distinct digest log others := by
  have hdrawn : (drawn log).Sublist (drawn (entry :: log)) := by
    obtain ⟨event, t⟩ := entry
    cases event with
    | none => exact List.Sublist.refl _
    | some event =>
      rw [drawn_cons]
      exact List.sublist_append_right _ _
  have hpresented : presented log ⊆ presented (entry :: log) := by
    obtain ⟨event, t⟩ := entry
    cases event with
    | none => exact List.Subset.refl _
    | some event => exact List.subset_append_right event.presented _
  refine ⟨h.fresh.sublist hdrawn, h.injective.mono fun x hx => ?_⟩
  simp only [Set.mem_ofPred_eq, List.mem_append] at hx ⊢
  exact hx.imp_left (Or.imp (fun hx => hdrawn.subset hx) fun hx => hpresented hx)

theorem Distinct.alone (h : Distinct digest log others) : Distinct digest log [] :=
  ⟨h.fresh, h.injective.mono fun x hx => by
    rw [List.append_nil] at hx
    exact List.mem_append_left _ hx⟩

/-- The digest tells the secrets of the ledger from another one. -/
theorem Distinct.tells (h : Distinct digest log others) {raw : List UInt8} (hraw : raw ∈ others) :
    Tells digest raw (ledger log) := by
  intro e he heq
  have hdrawn : e.issued.secret ∈ drawn log := by
    rw [← List.mem_reverse, ← secrets_ledger]
    exact List.mem_map_of_mem he
  refine h.injective ?_ ?_ heq
  · simp only [Set.mem_ofPred_eq, List.mem_append]
    exact .inl (.inl hdrawn)
  · exact List.mem_append_right _ hraw

theorem Distinct.presented {cookie : String} {t : Time} {raw : List UInt8}
    (h : Distinct digest ((some (.authenticated cookie), t) :: log) [])
    (hraw : base64Decode cookie = some raw) : Distinct digest log [raw] := by
  have hpresented : Torkitten.presented ((some (.authenticated cookie), t) :: log) =
      raw :: Torkitten.presented log := by
    change (base64Decode cookie).toList ++ _ = _
    rw [hraw]
    rfl
  refine ⟨h.earlier.fresh, h.injective.mono fun x hx => ?_⟩
  simp only [Set.mem_ofPred_eq, List.append_nil, List.mem_append, hpresented] at hx ⊢
  rcases hx with (hx | hx) | hx
  · exact .inl hx
  · exact .inr (List.mem_cons_of_mem _ hx)
  · exact .inr (List.mem_singleton.mp hx ▸ List.mem_cons_self)

/-- An entry is determined by its secret. -/
theorem Distinct.unique (h : Distinct digest log others) {e e' : SignIn} (he : e ∈ ledger log)
    (he' : e' ∈ ledger log) (hsecret : e.issued.secret = e'.issued.secret) : e = e' := by
  have hnodup : ((ledger log).map (·.issued.secret)).Nodup := by
    rw [secrets_ledger]
    exact List.nodup_reverse.mpr h.fresh
  exact List.inj_on_of_nodup_map hnodup he he' hsecret

end Record

/-! ## The store follows the ledger -/

/-- What every run keeps. -/
structure Ledgered (digest : Digest) (log : SessionLog) (w : World) : Prop where
  held : Held w w.value
  valid : w.value.Valid
  tracks : Tracks digest (ledger log) w.value.sessions w.clock
  issued : ∀ i ∈ (ledger log).map (·.issued), i.issuedAt ≤ w.clock ∧ i.secret.length = 32

section Calls

variable {digest : Digest} {log : SessionLog} {w w' : World}

/-- A call that stores nothing enters nothing. -/
theorem Ledgered.since (h : Ledgered digest log w) (hw : w.Since w') (t : Time) :
    Ledgered digest ((none, t) :: log) w' := by
  have hvalue : w'.value = w.value := congrArg Prod.snd hw.1
  have htracks : Tracks digest (ledger log) w.value.sessions w'.clock := h.tracks.later hw.2
  rw [← hvalue] at htracks
  exact ⟨hvalue ▸ h.held.of_since hw, hvalue ▸ h.valid, htracks,
    fun i hi => (h.issued i hi).imp_left (Int.le_trans · hw.2)⟩

/-- A call that stores a state enters what it did. -/
theorem Ledgered.stored (h : Ledgered digest log w) {s' : State} {event : SessionEvent}
    (hheld : Held w' s') (hvalid : s'.Valid) (hclock : w.clock ≤ w'.clock)
    (htracks : Tracks digest (entered (ledger log) w'.clock event) s'.sessions w'.clock)
    (hissued : ∀ i ∈ event.issued, i.issuedAt ≤ w'.clock ∧ i.secret.length = 32) :
    Ledgered digest ((some event, w'.clock) :: log) w' := by
  obtain rfl := hheld.value
  refine ⟨hheld, hvalid, htracks, fun i hi => ?_⟩
  change i ∈ (entered (ledger log) w'.clock event).map (·.issued) at hi
  rw [issued_entered, List.mem_append] at hi
  exact hi.elim (fun hi => (h.issued i hi).imp_left (Int.le_trans · hclock)) (hissued i)

/-- A cookie is recorded as accepted only if it belongs to a live session. -/
def Justified (log : SessionLog) (t : Time) (event : SessionEvent) : Prop :=
  ∀ cookie, event = .authenticated cookie →
    ∃ e ∈ ledger log, e.live t = true ∧ base64Decode cookie = some e.issued.secret

/-- The postcondition of a call from `w`: the store follows the ledger, and what is recorded is
justified. -/
def Follows (digest : Digest) (log : SessionLog) (w : World) (r : Except GoError SessionEvent)
    (w' : World) : Prop :=
  Distinct digest ((r.toOption, w'.clock) :: log) [] →
    Ledgered digest ((r.toOption, w'.clock) :: log) w' ∧ w.clock ≤ w'.clock ∧
      ∀ event, r = .ok event → Justified log w'.clock event

/-- A call that commits one state or none. -/
theorem Ledgered.follows {β : Type} (h : Ledgered digest log w) {op : Op β}
    {R : State → β → State → Prop} (hop : Stores op R) {event : SessionEvent}
    (hnone : event.issued = []) (hevent : ∀ cookie, event ≠ .authenticated cookie)
    (htracks : ∀ b s' t, R w.value b s' → w.clock ≤ t →
      Tracks digest (entered (ledger log) t event) s'.sessions t) :
    wp Lives (do let _ ← op; return event) (Follows digest log w) (fun _ => False) w := by
  refine wp_bind (wp_mono (hop Lives w.value w h.held) ?_ fun _ hc => not_mayCrash_lives hc.1)
  intro r w' hr
  cases r with
  | error err => exact fun _ => ⟨h.since hr _, hr.2, nofun⟩
  | ok b =>
    obtain ⟨s', hs', hvalid, hheld, hclock⟩ := hr
    refine wp_pure fun _ => ⟨?_, hclock, ?_⟩
    · refine h.stored hheld (hvalid h.valid) hclock (htracks b s' _ hs' hclock) fun i hi => ?_
      rw [hnone] at hi
      cases hi
    · rintro _ ⟨⟩ cookie hcookie
      exact absurd hcookie (hevent cookie)

theorem wp_create (h : Ledgered digest log w) (owner : String) :
    wp Lives (do let issued ← createIssued digest owner; return SessionEvent.created issued)
      (Follows digest log w) (fun _ => False) w := by
  refine wp_bind (wp_mono (wp_createIssued h.held) ?_ fun _ hc => not_mayCrash_lives hc.1)
  intro r w' hr
  cases r with
  | error err => exact fun _ => ⟨h.since hr _, hr.2, nofun⟩
  | ok issued =>
    obtain ⟨hfrom, hto, hsecret, -, s', rfl, hvalid, hheld⟩ := hr
    have hclock := Int.le_trans hfrom hto
    refine wp_pure fun _ => ⟨h.stored hheld hvalid hclock ?_ ?_, hclock, by rintro _ ⟨⟩ _ ⟨⟩⟩
    · exact (h.tracks.later hclock).admitted issued
    · intro i hi
      rw [List.mem_singleton.mp hi]
      exact ⟨hto, hsecret⟩

theorem wp_setUp (h : Ledgered digest log w) (rt : Runtime) (owner : String) :
    wp Lives (do
        let issued ← issue owner
        rt.completeSetup (issued.record digest)
        return SessionEvent.initialized issued)
      (Follows digest log w) (fun _ => False) w := by
  refine wp_bind (wp_mono wp_issue ?_ fun _ hc => hc)
  intro r w₁ hr
  cases r with
  | error err => exact fun _ => ⟨h.since hr _, hr.2, nofun⟩
  | ok issued =>
    obtain ⟨hsince, hissued, hsecret, -⟩ := hr
    refine wp_bind (wp_mono (commits_caddyChange rt _ Lives w.value w₁ (h.held.of_since hsince)) ?_
      fun _ hc => not_mayCrash_lives hc.1)
    intro r w' hr
    cases r with
    | error err => exact fun _ => ⟨h.since (hsince.trans hr) _, (hsince.trans hr).2, nofun⟩
    | ok _ =>
      obtain ⟨s', ⟨hmutation, -, hvalid⟩, -, hheld, hclock⟩ := hr
      have hto : w.clock ≤ w'.clock := Int.le_trans hsince.2 hclock
      refine wp_pure fun _ => ⟨h.stored hheld hvalid hto ?_ ?_, hto, by rintro _ ⟨⟩ _ ⟨⟩⟩
      · -- `Initialize` appends the session without looking at the others
        unfold initializeMutation at hmutation
        split at hmutation
        · cases hmutation
        · cases hmutation
          exact (h.tracks.later hto).append issued
      · intro i hi
        rw [List.mem_singleton.mp hi, hissued]
        exact ⟨hclock, hsecret⟩

theorem wp_authenticated (h : Ledgered digest log w) (cookie : String) :
    wp Lives (do
        let _ ← authenticate digest cookie
        return SessionEvent.authenticated cookie)
      (Follows digest log w) (fun _ => False) w := by
  refine wp_bind (wp_mono (wp_authenticate h.held) ?_ fun _ hc => not_mayCrash_lives hc.1)
  intro r w' hr
  cases r with
  | error err =>
    rcases hr with hsince | ⟨raw, hvalid, hid, hheld, hclock⟩
    · exact fun _ => ⟨h.since hsince _, hsince.2, nofun⟩
    · -- a stored session has an id, so none was found
      have hnone : found digest raw (touched digest raw w'.clock w.value) = none := by
        rw [Option.eq_none_iff_forall_ne_some]
        intro x hx
        have hmem := (List.mem_filter.mp (List.mem_of_getLast? hx)).1
        exact id_ne_empty (hvalid.session x hmem) (hid x hx)
      rw [touched_of_found_eq_none hnone] at hvalid hheld
      obtain ⟨hvalue, -, -⟩ := id hheld
      refine fun _ => ⟨⟨hvalue ▸ hheld, hvalue ▸ hvalid, ?_, ?_⟩, hclock, nofun⟩
      · rw [hvalue]
        exact (h.tracks.later hclock).pruned
      · exact fun i hi => (h.issued i hi).imp_left (Int.le_trans · hclock)
  | ok auth =>
    obtain ⟨raw, x, hraw, -, hfound, -, hvalid, hheld, hclock⟩ := hr
    refine wp_pure fun hdistinct => ?_
    have htracks := h.tracks.later hclock
    have htells := (hdistinct.presented hraw).tells (List.mem_singleton_self raw)
    obtain ⟨e, he, hlive, hsecret, -⟩ := mem_of_found htracks htells hfound
    refine ⟨h.stored hheld hvalid hclock ?_ (by simp [SessionEvent.issued]), hclock, ?_⟩
    · simp only [entered, hraw]
      refine htracks.touch htells fun e' he' hsecret' => ?_
      rw [hdistinct.earlier.unique he' he (hsecret'.trans hsecret.symm)]
      exact hlive
    · rintro _ ⟨⟩ _ ⟨⟩
      exact ⟨e, he, hlive, hsecret ▸ hraw⟩

theorem wp_call (h : Ledgered digest log w) (rt : Runtime) (call : SessionCall) :
    wp Lives (call.op digest rt) (Follows digest log w) (fun _ => False) w := by
  cases call with
  | create owner => exact wp_create h owner
  | authenticate cookie => exact wp_authenticated h cookie
  | setUp owner => exact wp_setUp h rt owner
  | revoke id =>
    refine h.follows (commits_revokeSession id).stores rfl nofun fun _ s' t hs' hle => ?_
    rw [hs']
    exact (h.tracks.later hle).filter fun e => rfl
  | revokeAll =>
    refine h.follows commits_revokeAllSessions.stores rfl nofun fun _ s' t hs' _ => ?_
    rw [hs']
    exact Tracks.clear
  | rotate confirmation =>
    refine h.follows (stores_rotateIdentity rt confirmation) rfl nofun fun _ s' t hs' _ => ?_
    obtain ⟨-, -, devices, serviceID, -, rfl⟩ := hs'
    exact Tracks.clear
  | reset =>
    refine h.follows commits_stageOwnerReset.stores rfl nofun fun _ s' t hs' _ => ?_
    rw [hs'.2]
    exact Tracks.clear

end Calls

section Runs

variable {digest : Digest} {rt : Runtime} {log : SessionLog} {w : World}

/-- What one step keeps. -/
theorem Ledgered.step {w' : World} {entry : Option SessionEvent × Time} (h : Ledgered digest log w)
    (hstep : SessionStep digest rt w entry w') (hdistinct : Distinct digest (entry :: log) []) :
    Ledgered digest (entry :: log) w' ∧ w.clock ≤ w'.clock ∧ entry.2 = w'.clock ∧
      ∀ event, entry.1 = some event → Justified log w'.clock event := by
  obtain ⟨call, env, n, hlives, hw', rfl⟩ := hstep
  have hcall := (wp_call h rt call).at env n hlives
  revert hcall hw' hdistinct
  generalize (call.op digest rt).run env n w = out
  obtain ⟨outcome, w'', n'⟩ := out
  rintro rfl hdistinct hcall
  cases outcome with
  | ok event =>
    obtain ⟨hledgered, hclock, hjustified⟩ := hcall hdistinct
    refine ⟨hledgered, hclock, rfl, ?_⟩
    rintro _ ⟨⟩
    exact hjustified event rfl
  | error err =>
    obtain ⟨hledgered, hclock, -⟩ := hcall hdistinct
    exact ⟨hledgered, hclock, rfl, nofun⟩
  | crash => exact hcall.elim

theorem Ledgered.ofRun (r : SessionRun digest rt log w) (hdistinct : Distinct digest log []) :
    Ledgered digest log w := by
  revert hdistinct
  refine Run.invariant (I := fun log w => Distinct digest log [] → Ledgered digest log w) ?_ ?_ r
  · rintro w ⟨hheld, hvalid, hempty⟩ -
    refine ⟨hheld, hvalid, ?_, by simp [ledger]⟩
    rw [hempty]
    rfl
  · exact fun log w entry w' ih hstep hdistinct => ((ih hdistinct.earlier).step hstep hdistinct).1

/-! ### Sessions that are over -/

/-- No session with these data is alive. -/
def Over (i : Issued) (t : Time) (entries : List SignIn) : Prop :=
  ∀ e ∈ entries, e.issued = i → e.live t = false

theorem Over.later {i : Issued} {t t' : Time} {entries : List SignIn} (h : Over i t entries)
    (hle : t ≤ t') : Over i t' entries := by
  intro e he hi
  have hdead := h e he hi
  rw [Bool.eq_false_iff] at hdead ⊢
  exact fun hlive => hdead (live_of_le hle hlive)

theorem mem_endFirst {p : SignIn → Bool} {entries : List SignIn} {e : SignIn}
    (h : e ∈ endFirst p entries) : e.ended = true ∨ e ∈ entries := by
  induction entries with
  | nil => cases h
  | cons x rest ih =>
    unfold endFirst at h
    split at h
    · rcases List.mem_cons.mp h with rfl | h
      · exact .inl rfl
      · exact .inr (List.mem_cons_of_mem _ h)
    · rcases List.mem_cons.mp h with rfl | h
      · exact .inr List.mem_cons_self
      · exact (ih h).imp_right (List.mem_cons_of_mem _)

theorem live_of_ended {e : SignIn} {t : Time} (h : e.ended = true) : e.live t = false := by
  simp [SignIn.live, h]

theorem Over.endIf {i : Issued} {t : Time} {entries : List SignIn} (h : Over i t entries)
    (p : SignIn → Bool) : Over i t (entries.map (SignIn.endIf p)) := by
  intro e he hi
  obtain ⟨e', he', rfl⟩ := List.mem_map.mp he
  rw [issued_endIf] at hi
  unfold SignIn.endIf
  split
  · exact live_of_ended rfl
  · exact h e' he' hi

/-- Nothing that is entered brings a session back, unless it is issued again or its cookie is
accepted. -/
theorem Over.entered {i : Issued} {t : Time} {entries : List SignIn} {event : SessionEvent}
    (h : Over i t entries) (hnew : i ∉ event.issued)
    (hused : ∀ cookie, event = .authenticated cookie → base64Decode cookie ≠ some i.secret) :
    Over i t (entered entries t event) := by
  cases event with
  | created issued =>
    intro e he hi
    rcases List.mem_append.mp he with he | he
    · unfold evict at he
      split at he
      · exact (mem_endFirst he).elim live_of_ended fun he => h e he hi
      · exact h e he hi
    · cases List.mem_singleton.mp he
      exact absurd (List.mem_singleton.mpr hi.symm) hnew
  | initialized issued =>
    intro e he hi
    rcases List.mem_append.mp he with he | he
    · exact h e he hi
    · cases List.mem_singleton.mp he
      exact absurd (List.mem_singleton.mpr hi.symm) hnew
  | authenticated cookie =>
    dsimp only [Torkitten.entered]
    split
    next raw hraw =>
      intro e he hi
      obtain ⟨e', he', rfl⟩ := List.mem_map.mp he
      rw [issued_use] at hi
      have hother : e'.issued.secret ≠ raw := by
        rintro rfl
        exact hused cookie rfl (hi ▸ hraw)
      rw [SignIn.use, if_neg hother]
      exact h e' he' hi
    next => exact h
  | revoked id => exact h.endIf _
  | cleared => exact h.endIf _

/-- A session that is over stays over, however a run goes on. -/
theorem Over.ofRun {w' : World} {more : SessionLog} {i : Issued} (h : Ledgered digest log w)
    (hi : i ∈ (ledger log).map (·.issued)) (hover : Over i w.clock (ledger log))
    (r : Run (· = w) (SessionStep digest rt) more w') (hdistinct : Distinct digest (more ++ log) []) :
    i ∈ (ledger (more ++ log)).map (·.issued) ∧ Over i w'.clock (ledger (more ++ log)) := by
  let I : SessionLog → World → Prop := fun more w' => Distinct digest (more ++ log) [] →
    Ledgered digest (more ++ log) w' ∧ i ∈ (ledger (more ++ log)).map (·.issued) ∧
      Over i w'.clock (ledger (more ++ log))
  refine (Run.invariant (I := I) ?_ ?_ r hdistinct).2
  · rintro _ rfl -
    exact ⟨h, hi, hover⟩
  · rintro more w₁ ⟨event, t⟩ w₂ ih hstep hdistinct
    obtain ⟨hledgered, hmem, hover⟩ := ih hdistinct.earlier
    obtain ⟨hledgered', hclock, ht, hjustified⟩ := hledgered.step hstep hdistinct
    have hover' := hover.later hclock
    cases event with
    | none => exact ⟨hledgered', hmem, hover'⟩
    | some event =>
      obtain rfl : t = w₂.clock := ht
      obtain ⟨e, he, rfl⟩ := List.mem_map.mp hmem
      refine ⟨hledgered', ?_, hover'.entered ?_ ?_⟩
      · change _ ∈ (Torkitten.entered (ledger (more ++ log)) w₂.clock event).map (·.issued)
        rw [issued_entered]
        exact List.mem_append_left _ hmem
      · -- its secret was drawn before
        intro hnew
        have hfresh := hdistinct.fresh
        rw [List.cons_append, drawn_cons] at hfresh
        have hdrawn : e.issued.secret ∈ drawn (more ++ log) := by
          rw [← List.mem_reverse, ← secrets_ledger]
          exact List.mem_map_of_mem he
        exact (List.nodup_append.mp hfresh).2.2 _ (List.mem_map_of_mem hnew) _ hdrawn rfl
      · -- its cookie is not accepted, since it is over
        intro cookie hevent hsecret
        obtain ⟨e', he', hlive, hsecret'⟩ := hjustified event rfl cookie hevent
        have hsame := hdistinct.earlier.unique he' he
          (Option.some.inj (hsecret'.symm.trans hsecret))
        rw [hsame, hover' e he rfl] at hlive
        cases hlive

/-! ### Cookies -/

/-- What `Authenticate` returns for a session. -/
def SignIn.auth (digest : Digest) (e : SignIn) : Auth :=
  { id := e.issued.id, owner := e.issued.owner, csrf := e.issued.csrf digest
    authenticatedAt := e.issued.issuedAt }

/-- A cookie that is accepted belongs to a live session. -/
theorem live_of_authenticate (h : Ledgered digest log w) {cookie : String}
    (hdistinct : Distinct digest log (base64Decode cookie).toList) {env : ℕ → Event} {n : ℕ}
    (hlives : ∀ i, Lives (env i)) {auth : Auth}
    (hauth : ((authenticate digest cookie).run env n w).1 = .ok auth) :
    ∃ e ∈ ledger log, base64Decode cookie = some e.issued.secret ∧
      e.live (w.clock + (env n).elapsed) = true ∧ auth = e.auth digest := by
  obtain ⟨raw, hraw, hlength⟩ := decodes_of_authenticate hauth
  have hsince := (World.Since.refl w).elapsed (env n).elapsed
  have hends := (wp_recognise (E := Lives) digest raw (w.clock + (env n).elapsed)
    (h.held.of_since hsince)).at env (n + 1) hlives
  rw [authenticate_run hraw hlength] at hauth
  rw [hauth] at hends
  obtain ⟨x, hfound, rfl, -⟩ := hends
  have htells : Tells digest raw (ledger log) :=
    hdistinct.tells (by rw [hraw]; exact List.mem_singleton_self raw)
  obtain ⟨e, he, hlive, rfl, rfl⟩ := mem_of_found (h.tracks.later hsince.2) htells hfound
  exact ⟨e, he, hraw, hlive, rfl⟩

/-- Looking for a session keeps the state valid. -/
theorem valid_touched (h : Ledgered digest log w) (raw : List UInt8) {t : Time} (hle : w.clock ≤ t) :
    (touched digest raw t w.value).Valid := by
  have htracks := h.tracks.later hle
  refine h.valid.withAccess ?_ ?_ h.valid.token.1 (List.Sublist.refl _)
  · intro y hy
    obtain ⟨x, hx, rfl⟩ := List.mem_map.mp hy
    have hform := h.valid.session x (List.mem_filter.mp hx).1
    split
    · -- the time of the last use is not before the session was issued
      rw [htracks] at hx
      obtain ⟨e, he, rfl⟩ := List.mem_map.mp hx
      have hissued := (h.issued _ (List.mem_map_of_mem (List.mem_filter.mp he).1)).1
      simp only [LocalSession.wellFormed, Bool.and_eq_true, decide_eq_true_eq] at hform ⊢
      exact ⟨⟨hform.1.1, Int.le_trans hissued hle⟩, hform.2⟩
    · exact hform
  · have hids : (touch (digest.sum raw) t (prune w.value.sessions t)).map LocalSession.id =
        (prune w.value.sessions t).map LocalSession.id := by
      unfold touch
      rw [List.map_map]
      refine List.map_congr_left fun x _ => ?_
      rw [Function.comp_apply]
      split
      · rfl
      · rfl
    rw [hids]
    exact List.Sublist.map _ List.filter_sublist

/-- The cookie of a live session is accepted when the state file can be written. -/
theorem authenticate_of_live (h : Ledgered digest log w) {cookie : String}
    (hdistinct : Distinct digest log (base64Decode cookie).toList) {env : ℕ → Event} {n : ℕ}
    (henv : ∀ i, (env i).crash = false ∧ (env i).persistFails = false) {e : SignIn}
    (he : e ∈ ledger log) (hsecret : base64Decode cookie = some e.issued.secret)
    (hlive : e.live (w.clock + (env n).elapsed) = true)
    (hfits : (touched digest e.issued.secret (w.clock + (env n).elapsed) w.value).Fits) :
    ((authenticate digest cookie).run env n w).1 = .ok (e.auth digest) := by
  have hsince := (World.Since.refl w).elapsed (env n).elapsed
  have htracks := h.tracks.later hsince.2
  have htells : Tells digest e.issued.secret (ledger log) :=
    hdistinct.tells (by rw [hsecret]; exact List.mem_singleton_self _)
  have hvalid := valid_touched h e.issued.secret hsince.2
  obtain ⟨x, hfound⟩ := found_of_mem htracks htells he hlive rfl
  -- what is found is this session, since no other has its secret
  obtain ⟨e', he', -, hsecret', rfl⟩ := mem_of_found htracks htells hfound
  obtain rfl := hdistinct.unique he' he hsecret'
  have hid : (SignIn.record digest { e' with lastUse := w.clock + (env n).elapsed }).id ≠ "" :=
    id_ne_empty (hvalid.session _ (List.mem_filter.mp (List.mem_of_getLast? hfound)).1)
  have hends := (wp_recognise_found (E := fun e => e.crash = false ∧ e.persistFails = false)
    (h.held.of_since hsince) (fun _ he => he) hvalid hfits hfound hid).at env (n + 1) henv
  rw [authenticate_run hsecret (h.issued _ (List.mem_map_of_mem he)).2]
  revert hends
  generalize (recognise digest e'.issued.secret _).run env (n + 1) _ = out
  obtain ⟨outcome, w', n'⟩ := out
  cases outcome with
  | ok auth => exact fun hends => congrArg Outcome.ok (Except.ok.inj hends)
  | error err => exact nofun
  | crash => exact False.elim

/-- The exact lifetime of a session. When the state file can be written, a cookie is accepted
exactly if it decodes to the secret of a session that was issued less than twelve hours ago, was
last used at most half an hour ago and has been neither revoked nor evicted; and it is answered
with what was issued. A session that is over is never accepted again, however the run goes on. -/
theorem authenticate_iff_live (r : SessionRun digest rt log w) (cookie : String) (env : ℕ → Event)
    (n : ℕ) (henv : ∀ i, (env i).crash = false ∧ (env i).persistFails = false)
    (hfits : ∀ raw, base64Decode cookie = some raw →
      (touched digest raw (w.clock + (env n).elapsed) w.value).Fits)
    (hdistinct : Distinct digest log (base64Decode cookie).toList) :
    (∀ auth, ((authenticate digest cookie).run env n w).1 = .ok auth ↔
      ∃ e ∈ ledger log, base64Decode cookie = some e.issued.secret ∧
        e.live (w.clock + (env n).elapsed) = true ∧ auth = e.auth digest) ∧
    ∀ e ∈ ledger log, e.live w.clock = false → base64Decode cookie = some e.issued.secret →
      ∀ more w', Run (· = w) (SessionStep digest rt) more w' →
        Distinct digest (more ++ log) (base64Decode cookie).toList →
        ∀ env' n', (∀ i, Lives (env' i)) →
          ((authenticate digest cookie).run env' n' w').1.isOk = false := by
  have h := Ledgered.ofRun r hdistinct.alone
  refine ⟨fun auth => ⟨live_of_authenticate h hdistinct fun i => (henv i).1, ?_⟩, ?_⟩
  · rintro ⟨e, he, hsecret, hlive, rfl⟩
    exact authenticate_of_live h hdistinct henv he hsecret hlive (hfits _ hsecret)
  · intro e he hdead hsecret more w' r' hdistinct' env' n' hlives
    have hover : Over e.issued w.clock (ledger log) := by
      intro e' he' hissued
      rw [hdistinct.unique he' he (congrArg Issued.secret hissued), hdead]
    obtain ⟨hmem, hover'⟩ := hover.ofRun h (List.mem_map_of_mem he) r' hdistinct'.alone
    obtain ⟨e₁, he₁, hissued⟩ := List.mem_map.mp hmem
    have h' := Ledgered.ofRun (r.append r') hdistinct'.alone
    cases hout : ((authenticate digest cookie).run env' n' w').1 with
    | error err => rfl
    | crash => rfl
    | ok auth =>
      obtain ⟨e', he', hsecret', hlive, -⟩ := live_of_authenticate h' hdistinct' hlives hout
      have hsame : e'.issued.secret = e₁.issued.secret := by
        rw [hissued]
        exact Option.some.inj (hsecret'.symm.trans hsecret)
      have hlater := hover'.later ((World.Since.refl w').elapsed (env' n').elapsed).2
      have hdead' := hlater e' he' (by rw [hdistinct'.unique he' he₁ hsame, hissued])
      rw [hdead'] at hlive
      cases hlive

end Runs

/-! ### A sample -/

/-- The session that is issued where the random source gives zeros. -/
def sampleIssued : Issued where
  secret := takeBytes 32 []
  id := hexEncode (takeBytes 16 [])
  owner := "owner"
  issuedAt := ownedWorld.clock

/-- The state with an owner who is signed in. -/
def sampleSignedIn : State := { sampleOwned with sessions := [sampleIssued.record sampleDigest] }

theorem fits_sampleSignedIn : sampleSignedIn.Fits := by decide +kernel

/-- What a sign-in leaves that can be compared. -/
def seen {ω α : Type} (out : Outcome ω α × World × ℕ) : Option α × Time × State :=
  (out.1.value, out.2.1.clock, out.2.1.value)

theorem sampleSignIn_ok : seen (((SessionCall.create "owner").op sampleDigest
    sampleRuntime).run (fun _ => .calm) 0 ownedWorld) =
      (some (.created sampleIssued), ownedWorld.clock, sampleSignedIn) := by
  decide +kernel

/-- The record of the system in which the owner has signed in. -/
def sampleLog : SessionLog := [(some (.created sampleIssued), ownedWorld.clock)]

theorem sessionRun_of_seen {out : Outcome GoError SessionEvent × World × ℕ}
    (r : SessionRun sampleDigest sampleRuntime [(out.1.value, out.2.1.clock)] out.2.1)
    (hseen : seen out = (some (.created sampleIssued), ownedWorld.clock, sampleSignedIn)) :
    ∃ w, SessionRun sampleDigest sampleRuntime sampleLog w ∧ w.clock = ownedWorld.clock ∧
      w.value = sampleSignedIn := by
  have hevent : out.1.value = some (.created sampleIssued) := congrArg Prod.fst hseen
  have hclock : out.2.1.clock = ownedWorld.clock := congrArg (fun x => x.2.1) hseen
  have hvalue : out.2.1.value = sampleSignedIn := congrArg (fun x => x.2.2) hseen
  rw [hevent, hclock] at r
  exact ⟨_, r, hclock, hvalue⟩

theorem sessionRun_sample : ∃ w, SessionRun sampleDigest sampleRuntime sampleLog w ∧
    w.clock = ownedWorld.clock ∧ w.value = sampleSignedIn := by
  have hstart : SessionRun sampleDigest sampleRuntime [] ownedWorld :=
    .start ⟨held_ownedWorld, valid_sampleOwned, rfl⟩
  exact sessionRun_of_seen (hstart.call (.create "owner") (fun _ => .calm) 0 fun _ => rfl)
    sampleSignIn_ok

theorem touched_sampleSignedIn :
    touched sampleDigest sampleIssued.secret ownedWorld.clock sampleSignedIn = sampleSignedIn := by
  decide +kernel

theorem distinct_sample :
    Distinct sampleDigest sampleLog (base64Decode sampleIssued.cookie).toList := by
  have hdecode : base64Decode sampleIssued.cookie = some sampleIssued.secret :=
    base64Decode_base64Encode _
  have hall : ∀ x ∈ drawn sampleLog ++ presented sampleLog ++ [sampleIssued.secret],
      x = sampleIssued.secret := by
    simp [drawn, presented, sampleLog, SessionEvent.drawn, SessionEvent.presented]
  rw [hdecode]
  exact ⟨by simp [drawn, sampleLog, SessionEvent.drawn],
    fun x hx y hy _ => (hall x hx).trans (hall y hy).symm⟩

/-- The owner who has just signed in is recognised. -/
theorem sampleCookie_accepted : ∃ w, SessionRun sampleDigest sampleRuntime sampleLog w ∧
    ((authenticate sampleDigest sampleIssued.cookie).run (fun _ => .calm) 0 w).1 =
      .ok ((SignIn.new sampleIssued).auth sampleDigest) := by
  obtain ⟨w, r, hclock, hvalue⟩ := sessionRun_sample
  have hnow : w.clock + (Event.calm.elapsed : ℕ) = ownedWorld.clock := by
    rw [hclock]
    exact Int.add_zero _
  have hdecode : base64Decode sampleIssued.cookie = some sampleIssued.secret :=
    base64Decode_base64Encode _
  refine ⟨w, r, ((authenticate_iff_live r sampleIssued.cookie (fun _ => .calm) 0
    (fun _ => ⟨rfl, rfl⟩) ?_ distinct_sample).1 _).mpr
      ⟨.new sampleIssued, List.mem_singleton_self _, hdecode, ?_, rfl⟩⟩
  · -- nothing has changed since the session was stored
    intro raw hraw
    obtain rfl : sampleIssued.secret = raw := Option.some.inj (hdecode.symm.trans hraw)
    rw [hnow, hvalue, touched_sampleSignedIn]
    exact fits_sampleSignedIn
  · rw [hnow]
    decide

end Torkitten
