import Torkitten.Control.Stored
import Torkitten.Model.Codec

/-!
# Sessions of the local console

`internal/localsession`: how a session is issued and stored, how a cookie is recognised, and how
sessions are revoked. The store keeps the digest of the secret; the secret itself is only in the
cookie. A session that is too old or has not been used for too long is dropped by the next call
that stores or looks for one.
-/

namespace Torkitten

open Proc

/-- `Manager.idle`. -/
def idle : Duration := 30 * minute

/-- `Manager.absolute`. -/
def absolute : Duration := 12 * hour

/-- What `Manager.Issue` draws and reads. Its results are made of these. -/
structure Issued where
  secret : List UInt8
  id : String
  owner : String
  issuedAt : Time
  deriving DecidableEq, Repr

/-- `Auth`. -/
structure Auth where
  id : String
  owner : String
  csrf : String
  authenticatedAt : Time
  deriving DecidableEq, Repr

section Model

variable (digest : Digest)

/-- `csrfFor`. -/
def csrfFor (raw : List UInt8) : String :=
  base64Encode (digest.sum (utf8 "torkitten-local-csrf\x00" ++ raw))

/-- The cookie that `Issue` returns. -/
def Issued.cookie (issued : Issued) : String := base64Encode issued.secret

/-- The CSRF token that `Issue` returns. -/
def Issued.csrf (issued : Issued) : String := csrfFor digest issued.secret

/-- The record that `Issue` returns. -/
def Issued.record (issued : Issued) : LocalSession where
  id := issued.id
  owner := issued.owner
  tokenHash := base64Encode (digest.sum issued.secret)
  createdAt := issued.issuedAt
  lastUseAt := issued.issuedAt
  authenticatedAt := issued.issuedAt
  expiresAt := issued.issuedAt + absolute

/-- `Manager.Issue`. -/
def issue (owner : String) : Op Issued :=
  match validateUsername owner with
  | some err => .fail err
  | none => do
    let secret ← randomBytes 32
    let id ← randomBytes 16
    let issuedAt ← now
    return { secret, id := hexEncode id, owner, issuedAt }

/-- The test of `prune`. A difference of times that does not fit into a duration is cut off in
the source, which does not change the comparison. -/
def survives (now : Time) (x : LocalSession) : Bool :=
  decide (now < x.expiresAt) && decide (now - x.lastUseAt ≤ idle)

/-- `prune`. -/
def prune (sessions : List LocalSession) (now : Time) : List LocalSession :=
  sessions.filter (survives now)

/-- The sessions that `Manager.Create` stores. -/
def admitted (record : LocalSession) (now : Time) (sessions : List LocalSession) :
    List LocalSession :=
  let kept := prune sessions now
  (if kept.length ≥ maxSessions then kept.drop 1 else kept) ++ [record]

/-- `Manager.Create`, with all that was issued. -/
def createIssued (owner : String) : Op Issued := do
  let issued ← issue owner
  worldStore.transition (some fun current => do
    let now ← now
    return changed { current with sessions := admitted (issued.record digest) now current.sessions }
      none ())
  return issued

/-- `Manager.Create`. -/
def createSession (owner : String) : Op (String × String) := do
  let issued ← createIssued digest owner
  return (issued.cookie, issued.csrf digest)

/-- The stored digest of a session is `hash`. -/
def LocalSession.matches (hash : List UInt8) (x : LocalSession) : Bool :=
  base64Decode x.tokenHash == some hash

/-- The loop of `Manager.Authenticate`. -/
def touch (hash : List UInt8) (now : Time) (sessions : List LocalSession) : List LocalSession :=
  sessions.map fun x => if x.matches hash then { x with lastUseAt := now } else x

/-- The state that `Manager.Authenticate` stores. -/
def touched (raw : List UInt8) (now : Time) (s : State) : State :=
  { s with sessions := touch (digest.sum raw) now (prune s.sessions now) }

/-- The session that the loop of `Manager.Authenticate` leaves in `found`. -/
def found (raw : List UInt8) (s : State) : Option LocalSession :=
  (s.sessions.filter (·.matches (digest.sum raw))).getLast?

/-- The part of `Manager.Authenticate` that follows the reading of the clock. -/
def recognise (raw : List UInt8) (now : Time) : Op Auth := do
  let result ← attempt (worldStore.transition (some fun current =>
    return changed (touched digest raw now current) none
      (found digest raw (touched digest raw now current))))
  match result with
  | .ok (some x) =>
    if x.id = "" then .fail (.new "invalid session")
    else return { id := x.id, owner := x.owner, csrf := csrfFor digest raw,
                  authenticatedAt := x.authenticatedAt }
  | _ => .fail (.new "invalid session")

/-- `Manager.Authenticate`. -/
def authenticate (cookie : String) : Op Auth :=
  match base64Decode cookie with
  | none => .fail (.new "invalid session")
  | some raw =>
    if raw.length ≠ 32 then .fail (.new "invalid session")
    else do
      let now ← now
      recognise digest raw now

/-- `ValidateCSRF`. -/
def validateCSRF (cookie supplied : String) : Bool :=
  match base64Decode cookie with
  | none => false
  | some raw => raw.length == 32 && csrfFor digest raw == supplied

/-- `Manager.Revoke`. -/
def revokeSession (id : String) : Op Unit :=
  worldStore.transition (some fun current =>
    return changed { current with sessions := current.sessions.filter fun x => x.id != id } none ())

/-- `Manager.RevokeAll`. -/
def revokeAllSessions : Op Unit :=
  worldStore.transition (some fun current => return changed { current with sessions := [] } none ())

end Model

/-! ## Sessions that are too old -/

section Age

variable {digest : Digest} {t t' : Time} {raw : List UInt8} {sessions : List LocalSession}

theorem survives_of_le {x : LocalSession} (hle : t ≤ t') (h : survives t' x = true) :
    survives t x = true := by
  simp only [survives, Bool.and_eq_true, decide_eq_true_eq] at h ⊢
  exact ⟨Int.lt_of_le_of_lt hle h.1, Int.le_trans (Int.sub_le_sub_right hle _) h.2⟩

theorem prune_prune (hle : t ≤ t') : prune (prune sessions t) t' = prune sessions t' := by
  unfold prune
  rw [List.filter_filter]
  refine List.filter_congr fun x _ => ?_
  rw [Bool.eq_iff_iff, Bool.and_eq_true]
  exact ⟨And.left, fun h => ⟨h, survives_of_le hle h⟩⟩

/-- When nothing is found, nothing but the pruning happens. -/
theorem touched_of_found_eq_none {s : State}
    (hfound : found digest raw (touched digest raw t s) = none) :
    touched digest raw t s = { s with sessions := prune s.sessions t } := by
  have hnone : ∀ x ∈ prune s.sessions t, x.matches (digest.sum raw) = false := by
    intro x hx
    rw [found, List.getLast?_eq_none_iff, List.filter_eq_nil_iff] at hfound
    by_contra hmatch
    have hmatch' : x.matches (digest.sum raw) = true := by simpa using hmatch
    refine hfound { x with lastUseAt := t } (List.mem_map.mpr ⟨x, hx, ?_⟩) hmatch'
    rw [if_pos hmatch']
  have hsame : Torkitten.touch (digest.sum raw) t (prune s.sessions t) = prune s.sessions t := by
    refine (List.map_congr_left fun x hx => ?_).trans (List.map_id _)
    rw [hnone x hx]
    rfl
  rw [touched, hsame]

theorem id_ne_empty {x : LocalSession} (h : x.wellFormed = true) : x.id ≠ "" := by
  intro hid
  simp only [LocalSession.wellFormed, Bool.and_eq_true, hid] at h
  exact absurd h.1.1.1.1.1 (by decide)

end Age

/-! ## What the operations store -/

section Stored

variable {E : Event → Prop} {digest : Digest} {s : State} {w : World}

theorem wp_issue {C : World → Prop} {owner : String} :
    wp E (issue owner)
      (either (fun issued w' => w.Since w' ∧ issued.issuedAt = w'.clock ∧ issued.secret.length = 32 ∧
          issued.owner = owner ∧ validateUsername owner = none)
        fun _ w' => w.Since w') C w := by
  unfold issue
  split
  next => exact wp_fail (.refl w)
  next hname =>
    refine wp_bind (wp_randomBytes (.refl w) fun secret hsecret => ?_)
    refine wp_bind (wp_randomBytes (.refl w) fun id _ => ?_)
    refine wp_bind (wp_now fun d => ?_)
    exact wp_pure ⟨(World.Since.refl w).elapsed d, rfl, hsecret, rfl, hname⟩

/-- A session is stored when the clock shows the time of the last look at it. -/
theorem wp_createIssued {owner : String} (hw : Held w s) :
    wp E (createIssued digest owner)
      (either (fun issued w' => w.clock ≤ issued.issuedAt ∧ issued.issuedAt ≤ w'.clock ∧
          issued.secret.length = 32 ∧ (issued.owner = owner ∧ validateUsername owner = none) ∧
          ∃ s', s' = { s with
            sessions := admitted (issued.record digest) w'.clock s.sessions } ∧ s'.Valid ∧ Held w' s')
        fun _ w' => w.Since w')
      (fun w' => MayCrash E ∧ w.Since w') w := by
  unfold createIssued
  refine wp_bind (wp_mono wp_issue ?_ fun _ hc => hc)
  intro r w₁ hr
  cases r with
  | error err => exact hr
  | ok issued =>
    obtain ⟨hsince, hissued, hsecret, howner⟩ := hr
    have hw₁ := hw.of_since hsince
    refine wp_bind (hw₁.wp_transition ?_)
    refine wp_bind (wp_now fun d => wp_pure (wp_worldCommit ?_ ?_ ?_))
    · exact fun _ => hsince.elapsed d
    · exact fun hc => ⟨hc, hsince.elapsed d⟩
    · intro _ hvalid henc
      have hle : issued.issuedAt ≤ w₁.clock + d := by
        rw [hissued]
        exact ((World.Since.refl w₁).elapsed d).2
      exact wp_pure ⟨hissued ▸ hsince.2, hle, hsecret, howner, _, rfl, hvalid, held_stored henc⟩

/-- What `Authenticate` says of the session it found. -/
def LocalSession.auth (digest : Digest) (raw : List UInt8) (x : LocalSession) : Auth :=
  { id := x.id, owner := x.owner, csrf := csrfFor digest raw, authenticatedAt := x.authenticatedAt }

/-- Looking for a session drops those that are too old, and renews the one that is found. -/
theorem wp_recognise (digest : Digest) (raw : List UInt8) (t : Time) (hw : Held w s) :
    wp E (recognise digest raw t)
      (either (fun auth w' => ∃ x, found digest raw (touched digest raw t s) = some x ∧
          auth = x.auth digest raw ∧ w'.clock = w.clock ∧ (touched digest raw t s).Valid ∧
          Held w' (touched digest raw t s))
        fun _ w' => w' = w ∨ (∀ x, found digest raw (touched digest raw t s) = some x → x.id = "") ∧
          w'.clock = w.clock ∧ (touched digest raw t s).Valid ∧ Held w' (touched digest raw t s))
      (fun w' => MayCrash E ∧ w' = w) w := by
  unfold recognise
  refine wp_bind (wp_attempt (hw.wp_transition (wp_pure (wp_worldCommit ?_ ?_ ?_))))
  · exact fun _ => wp_fail (.inl rfl)
  · exact fun hc => ⟨hc, rfl⟩
  · intro _ hvalid henc
    dsimp only [changed, either_ok] at hvalid henc ⊢
    split
    next x hfound =>
      have hx := Except.ok.inj hfound
      split
      next hid =>
        refine wp_fail (.inr ⟨?_, rfl, hvalid, held_stored henc⟩)
        intro y hy
        obtain rfl : x = y := Option.some.inj (hx.symm.trans hy)
        exact hid
      next => exact wp_pure ⟨x, hx, rfl, rfl, hvalid, held_stored henc⟩
    next hnone =>
      refine wp_fail (.inr ⟨?_, rfl, hvalid, held_stored henc⟩)
      exact fun x hx => absurd (congrArg Except.ok hx) (hnone x)

/-- A session that is found is recognised, when the state file can be written. -/
theorem wp_recognise_found {raw : List UInt8} {t : Time} {x : LocalSession} (hw : Held w s)
    (hE : Persists E) (hvalid : (touched digest raw t s).Valid)
    (hfits : (touched digest raw t s).Fits)
    (hfound : found digest raw (touched digest raw t s) = some x) (hid : x.id ≠ "") :
    wp E (recognise digest raw t) (fun r _ => r = .ok (x.auth digest raw)) (fun _ => False) w := by
  unfold recognise
  refine wp_bind (wp_attempt (hw.wp_transition (wp_pure (wp_worldCommit_fits hE rfl hvalid hfits ?_))))
  dsimp only [changed]
  rw [hfound]
  change wp E (if x.id = "" then _ else _) _ _ _
  rw [if_neg hid]
  exact wp_pure rfl

theorem authenticate_run {cookie : String} {raw : List UInt8} (hraw : base64Decode cookie = some raw)
    (hlength : raw.length = 32) (env : ℕ → Event) (n : ℕ) (w : World) :
    (authenticate digest cookie).run env n w =
      (recognise digest raw (w.clock + (env n).elapsed)).run env (n + 1)
        { w with clock := w.clock + (env n).elapsed } := by
  unfold authenticate
  rw [hraw]
  simp only [hlength, ne_eq, not_true_eq_false, ↓reduceIte]
  exact bind_run_ok rfl

/-- Only a text that decodes to a secret can be accepted. -/
theorem decodes_of_authenticate {cookie : String} {env : ℕ → Event} {n : ℕ} {w : World} {auth : Auth}
    (h : ((authenticate digest cookie).run env n w).1 = .ok auth) :
    ∃ raw, base64Decode cookie = some raw ∧ raw.length = 32 := by
  unfold authenticate at h
  split at h
  · cases h
  next raw hraw =>
    split at h
    · cases h
    next hlength => exact ⟨raw, hraw, by simpa using hlength⟩

theorem wp_authenticate {cookie : String} (hw : Held w s) :
    wp E (authenticate digest cookie)
      (either (fun auth w' => ∃ raw x, base64Decode cookie = some raw ∧ raw.length = 32 ∧
          found digest raw (touched digest raw w'.clock s) = some x ∧ auth = x.auth digest raw ∧
          (touched digest raw w'.clock s).Valid ∧ Held w' (touched digest raw w'.clock s) ∧
          w.clock ≤ w'.clock)
        fun _ w' => w.Since w' ∨ ∃ raw, (touched digest raw w'.clock s).Valid ∧
          (∀ x, found digest raw (touched digest raw w'.clock s) = some x → x.id = "") ∧
          Held w' (touched digest raw w'.clock s) ∧ w.clock ≤ w'.clock)
      (fun w' => MayCrash E ∧ w.Since w') w := by
  unfold authenticate
  split
  next => exact wp_fail (.inl (.refl w))
  next raw hraw =>
    split
    next => exact wp_fail (.inl (.refl w))
    next hlength =>
      rw [not_not] at hlength
      refine wp_bind (wp_now fun d => ?_)
      have hsince := (World.Since.refl w).elapsed d
      refine wp_mono (wp_recognise digest raw _ (hw.of_since hsince)) ?_ ?_
      · intro r w' hr
        cases r with
        | ok auth =>
          obtain ⟨x, hfound, hauth, hclock, hvalid, hheld⟩ := hr
          change w'.clock = w.clock + d at hclock
          rw [← hclock] at hfound hvalid hheld
          exact ⟨raw, x, hraw, hlength, hfound, hauth, hvalid, hheld, hclock ▸ hsince.2⟩
        | error err =>
          rcases hr with rfl | ⟨hid, hclock, hvalid, hheld⟩
          · exact .inl hsince
          · change w'.clock = w.clock + d at hclock
            rw [← hclock] at hid hvalid hheld
            exact .inr ⟨raw, hvalid, hid, hheld, hclock ▸ hsince.2⟩
      · rintro w' ⟨hc, rfl⟩
        exact ⟨hc, hsince⟩

/-- The same where it only matters whether the cookie stands for a stored session: one that does not
makes the store drop the sessions that are too old. -/
theorem wp_authenticate_stored {cookie : String} (hw : Held w s) (hvalid : s.Valid) :
    wp E (authenticate digest cookie)
      (either (fun auth w' => ∃ raw x, base64Decode cookie = some raw ∧ raw.length = 32 ∧
          x ∈ s.sessions ∧ survives w'.clock x = true ∧ x.matches (digest.sum raw) = true ∧
          auth.csrf = csrfFor digest raw ∧ (touched digest raw w'.clock s).Valid ∧
          Held w' (touched digest raw w'.clock s) ∧ w.clock ≤ w'.clock)
        fun _ w' => ∃ s', (s' = s ∨ s' = { s with sessions := prune s.sessions w'.clock }) ∧
          s'.Valid ∧ Held w' s' ∧ w.clock ≤ w'.clock)
      (fun w' => MayCrash E ∧ w.Since w') w := by
  refine wp_mono (wp_authenticate hw) ?_ fun _ hc => hc
  intro r w' hr
  cases r with
  | ok auth =>
    obtain ⟨raw, x, hraw, hlength, hfound, rfl, hvalid', hheld, hclock⟩ := hr
    obtain ⟨hmem, hmatch⟩ := List.mem_filter.mp (List.mem_of_getLast? hfound)
    obtain ⟨y, hy, hxy⟩ := List.mem_map.mp hmem
    obtain ⟨hstored, hsurvives⟩ := List.mem_filter.mp hy
    refine ⟨raw, y, hraw, hlength, hstored, hsurvives, ?_, rfl, hvalid', hheld, hclock⟩
    rw [← hxy] at hmatch
    split at hmatch
    · exact hmatch
    · exact hmatch
  | error err =>
    rcases hr with hsince | ⟨raw, hvalid', hid, hheld, hclock⟩
    · exact ⟨s, .inl rfl, hvalid, hw.of_since hsince, hsince.2⟩
    · -- a stored session has an id, so none was found
      have hnone : found digest raw (touched digest raw w'.clock s) = none := by
        rw [Option.eq_none_iff_forall_ne_some]
        intro x hx
        have hmem := (List.mem_filter.mp (List.mem_of_getLast? hx)).1
        exact id_ne_empty (hvalid'.session x hmem) (hid x hx)
      rw [touched_of_found_eq_none hnone] at hvalid' hheld
      exact ⟨_, .inr rfl, hvalid', hheld, hclock⟩

theorem commits_revokeSession (id : String) : Commits (revokeSession id) fun s _ s' =>
    s' = { s with sessions := s.sessions.filter fun x => x.id != id } :=
  commits_transition fun _ _ => determines_pure fun _ => rfl

theorem commits_revokeAllSessions :
    Commits revokeAllSessions fun s _ s' => s' = { s with sessions := [] } :=
  commits_transition fun _ _ => determines_pure fun _ => rfl

end Stored

end Torkitten
