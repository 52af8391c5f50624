import Torkitten.Access.Session
import Torkitten.Foundations.Run

/-!
# A change of credentials among logins

One call of `ChangePassword` or `CompleteTOTP` while any number of login requests are served. A login
is two requests: `Login.Begin` has Authelia verify the password and keeps the factor session in a
map, and `finishLogin` takes it from there, has Authelia verify the code and stores a session. The
change revokes all sessions, changes the credential and restarts Authelia. No lock is shared by the
two, so their steps interleave freely, and every call outside the program may fail.

Authelia verifies a factor against the credentials it holds at that moment, and a restart
invalidates the factor sessions begun before it. Each verification is marked with the number of
changes made until then, so that the sessions can be told apart that were verified before and after
the change.
-/

namespace Torkitten.Credentials

/-- What Authelia holds. -/
structure Authelia where
  owner : String
  password : List UInt8
  /-- The code that the TOTP secret gives. -/
  code : String
  /-- How often a credential has been changed. -/
  changes : ℕ
  /-- How often Authelia has been started. -/
  starts : ℕ
  deriving DecidableEq, Repr

/-- `FactorSession`, with the number of changes made until its password was verified and the start
of Authelia it belongs to. -/
structure Factors where
  owner : String
  first : ℕ
  start : ℕ
  deriving DecidableEq, Repr

/-- `loginFlow`, with its key. -/
structure LoginFlow where
  id : String
  factors : Factors
  expires : Time
  deriving DecidableEq, Repr

/-- The number of changes made until each factor of a login was verified. -/
structure Origin where
  first : ℕ
  second : ℕ
  deriving DecidableEq, Repr

/-- A request served by `loginRoute` that passed its checks. -/
inductive Request where
  /-- `POST /login/password`. -/
  | password (owner : String) (password : List UInt8)
  /-- `POST /login/totp`, with the login cookie and the code it carries. -/
  | totp (flow code : String)
  deriving DecidableEq, Repr

/-- Where a login request stands: the step it takes next. -/
inductive Pc where
  /-- `Begin`: the first factor. -/
  | first (owner : String) (password : List UInt8)
  /-- `Begin`: the flow is kept. -/
  | register (factors : Factors)
  /-- `Complete`: the flow is taken. -/
  | take (flow code : String)
  /-- `Complete`: the second factor. -/
  | second (factors : Factors) (code : String)
  /-- `finishLogin`: the session is stored. -/
  | create (origin : Origin)
  | answered
  deriving DecidableEq, Repr

/-- What is changed. -/
inductive Change where
  | password (value : List UInt8)
  | totp (code : String)
  deriving DecidableEq, Repr

/-- Where the change stands. -/
inductive ChangePc where
  /-- `ChangePassword`: its arguments are checked. -/
  | check (newPassword confirmation : List UInt8)
  /-- `ChangePassword`: the old credentials are verified. -/
  | authenticate (change : Change)
  /-- `CompleteTOTP`: the code that the new secret gives and the expiry of the flow, if there is
  one. -/
  | complete (totp : Option (String × Time))
  /-- `PrepareCredentialChange`. -/
  | revoke (change : Change)
  /-- The call of Authelia that makes the change. -/
  | change (change : Change)
  /-- `FinishAuth`. -/
  | restart
  | returned (ok : Bool)
  deriving DecidableEq, Repr

/-- The part of the system that logins and the change share. Requests are numbered in the order of
their arrival. -/
structure Access where
  authelia : Authelia
  flows : List LoginFlow
  requests : List Pc
  change : ChangePc
  /-- The stored sessions, each with the login that created it. -/
  sessions : List (LocalSession × Origin)
  now : Time
  deriving DecidableEq, Repr

/-- What the surroundings decide in one step. -/
inductive Reply where
  /-- The call goes through. -/
  | ok
  /-- The call fails; `applied` says whether it took effect all the same. -/
  | fail (applied : Bool)
  /-- The random source gives a flow id. -/
  | id (text : String)
  /-- A session record has been issued and can be stored. -/
  | session (record : LocalSession)
  deriving DecidableEq, Repr

/-- What happens in one step. -/
inductive Label where
  /-- A request arrives. -/
  | arrive (r : Request)
  /-- Time passes. -/
  | tick (d : ℕ)
  /-- A request takes its next step, and the surroundings reply. -/
  | login (i : ℕ) (reply : Reply)
  /-- The change takes its next step. -/
  | change (reply : Reply)
  deriving DecidableEq, Repr

/-- The checks of `BeginFactors` and of Authelia on the first factor. -/
def Authelia.verifiesFirst (a : Authelia) (owner : String) (password : List UInt8) : Bool :=
  (validateUsername owner).isNone && 1 ≤ password.length && password.length ≤ 128 &&
    owner == a.owner && password == a.password

/-- The checks of `FactorSession.Complete` and of Authelia on the second factor. -/
def Authelia.verifiesSecond (a : Authelia) (factors : Factors) (code : String) : Bool :=
  matchesClass Char.isDigit 6 code && factors.start == a.starts && code == a.code

/-- Authelia makes a change. -/
def Authelia.apply (a : Authelia) : Change → Authelia
  | .password value => { a with password := value, changes := a.changes + 1 }
  | .totp code => { a with code, changes := a.changes + 1 }

/-- The checks of `ChangePassword` on its arguments. -/
def acceptsPassword (newPassword confirmation : List UInt8) : Bool :=
  12 ≤ newPassword.length && newPassword.length ≤ 128 && newPassword == confirmation &&
    !newPassword.contains 0

/-- The sessions after `Manager.Create`. -/
def created (record : LocalSession) (origin : Origin) (now : Time)
    (sessions : List (LocalSession × Origin)) : List (LocalSession × Origin) :=
  let kept := sessions.filter fun x => survives now x.1
  (if kept.length ≥ maxSessions then kept.drop 1 else kept) ++ [(record, origin)]

/-- The stored records are those that `Manager.Create` stores. -/
theorem map_fst_created (record : LocalSession) (origin : Origin) (now : Time)
    (sessions : List (LocalSession × Origin)) :
    (created record origin now sessions).map Prod.fst =
      admitted record now (sessions.map Prod.fst) := by
  have hkept : (sessions.filter fun x => survives now x.1).map Prod.fst =
      prune (sessions.map Prod.fst) now := by
    rw [prune, List.filter_map]
    rfl
  dsimp only [created, admitted]
  rw [← hkept, List.length_map]
  split
  · simp
  · simp

namespace Access

variable (s : Access)

/-- Request `i` goes on at `pc`. -/
def move (i : ℕ) (pc : Pc) : Access := { s with requests := s.requests.set i pc }

/-- Where a request starts. -/
def entry : Request → Pc
  | .password owner password => .first owner password
  | .totp flow code => .take flow code

/-- `Login.Begin` after the first factor: expired flows are dropped, and the new one is kept unless
there are too many. -/
def register (factors : Factors) (id : String) : Access :=
  let flows := s.flows.filter fun flow => decide (s.now < flow.expires)
  if flows.length ≥ 32 then { s with flows }
  else { s with flows := flows.filter (fun flow => flow.id != id) ++
           [{ id, factors, expires := s.now + 5 * minute }] }

/-- `Login.Complete` up to the second factor: the flow is taken from the map. -/
def take (i : ℕ) (id code : String) : Access :=
  let rest := { s with flows := s.flows.filter fun flow => flow.id != id }
  match s.flows.find? fun flow => flow.id == id with
  | none => rest.move i .answered
  | some flow =>
    if s.now < flow.expires then rest.move i (.second flow.factors code)
    else rest.move i .answered

/-- The step of request `i` that stands at `pc`. -/
def act (i : ℕ) (pc : Pc) (reply : Reply) : Option Access :=
  match pc, reply with
  | .first owner password, .ok =>
    if s.authelia.verifiesFirst owner password then
      some (s.move i (.register
        { owner, first := s.authelia.changes, start := s.authelia.starts }))
    else some (s.move i .answered)
  | .first _ _, .fail _ => some (s.move i .answered)
  | .register factors, .id text => some ((s.register factors text).move i .answered)
  | .register _, .fail _ => some (s.move i .answered)
  | .take flow code, .ok => some (s.take i flow code)
  | .second factors code, .ok =>
    if s.authelia.verifiesSecond factors code then
      some (s.move i (.create { first := factors.first, second := s.authelia.changes }))
    else some (s.move i .answered)
  | .second _ _, .fail _ => some (s.move i .answered)
  | .create origin, .session record =>
    some { s.move i .answered with sessions := created record origin s.now s.sessions }
  | .create _, .fail _ => some (s.move i .answered)
  | _, _ => none

/-- The step of the change. -/
def advance (reply : Reply) : Option Access :=
  match s.change, reply with
  | .check newPassword confirmation, .ok =>
    if acceptsPassword newPassword confirmation then
      some { s with change := .authenticate (.password newPassword) }
    else some { s with change := .returned false }
  | .authenticate change, .ok => some { s with change := .revoke change }
  | .authenticate _, .fail _ => some { s with change := .returned false }
  | .complete none, .ok => some { s with change := .returned false }
  | .complete (some (code, expires)), .ok =>
    if s.now < expires then some { s with change := .revoke (.totp code) }
    else some { s with change := .returned false }
  | .revoke change, .ok => some { s with change := .change change, sessions := [] }
  | .revoke _, .fail _ => some { s with change := .returned false }
  | .change change, .ok =>
    some { s with change := .restart, authelia := s.authelia.apply change }
  | .change change, .fail applied =>
    some { s with
      change := .returned false
      authelia := if applied then s.authelia.apply change else s.authelia }
  | .restart, .ok => some { s with
      change := .returned true
      authelia := { s.authelia with starts := s.authelia.starts + 1 } }
  | .restart, .fail applied => some { s with
      change := .returned false
      authelia := if applied then { s.authelia with starts := s.authelia.starts + 1 }
        else s.authelia }
  | _, _ => none

/-- One step of the system, if it can happen. -/
def step : Label → Option Access
  | .arrive r => some { s with requests := s.requests ++ [entry r] }
  | .tick d => some { s with now := s.now + d }
  | .login i reply => s.requests[i]?.bind fun pc => s.act i pc reply
  | .change reply => s.advance reply

/-- Before the call: no login is served, and nothing has been changed. -/
structure Before : Prop where
  requests : s.requests = []
  changes : s.authelia.changes = 0
  flows : ∀ flow ∈ s.flows, flow.factors.first = 0
  change : (∃ newPassword confirmation, s.change = .check newPassword confirmation) ∨
    ∃ totp, s.change = .complete totp

/-- The change has revoked the sessions and has not failed. -/
def revoked : Bool :=
  match s.change with
  | .change _ | .restart | .returned true => true
  | _ => false

/-- Every stored session was created by a login whose factors were verified after the change. -/
def Renewed : Prop := ∀ x ∈ s.sessions, 1 ≤ x.2.first ∧ 1 ≤ x.2.second

instance : Decidable s.Renewed := inferInstanceAs (Decidable (∀ x ∈ s.sessions, _))

/-- A session is not stored after the revocation by a login whose password was verified before the
change. -/
def timely : Label → Bool
  | .login i (.session _) =>
    match s.requests[i]? with
    | some (.create origin) => !s.revoked || 1 ≤ origin.first
    | _ => true
  | _ => true

end Access

/-! ## Runs -/

/-- The runs in which every step is timely. -/
abbrev TimelyRun : List Label → Access → Prop :=
  Run Access.Before fun s label s' => s.timely label = true ∧ s.step label = some s'

/-- What the marks at a position say. -/
def Pc.Marked (changes : ℕ) : Pc → Prop
  | .register factors => factors.first ≤ changes
  | .second factors _ => factors.first ≤ changes
  | .create origin => origin.first ≤ origin.second
  | _ => True

theorem Pc.Marked.mono {changes changes' : ℕ} {pc : Pc} (h : pc.Marked changes)
    (hle : changes ≤ changes') : pc.Marked changes' := by
  cases pc with
  | register factors => exact Nat.le_trans h hle
  | second factors code => exact Nat.le_trans h hle
  | first owner password => trivial
  | take flow code => trivial
  | create origin => exact h
  | answered => trivial

/-- What every timely run keeps. -/
structure Access.Good (s : Access) : Prop where
  flows : ∀ flow ∈ s.flows, flow.factors.first ≤ s.authelia.changes
  requests : ∀ pc ∈ s.requests, pc.Marked s.authelia.changes
  renewed : s.revoked = true → s.Renewed

namespace Access.Good

variable {s s' : Access}

theorem start (h : s.Before) : s.Good := by
  refine ⟨fun flow hflow => ?_, by simp [h.requests], fun hrevoked => ?_⟩
  · rw [h.flows flow hflow]
    exact Nat.zero_le _
  unfold revoked at hrevoked
  rcases h.change with ⟨newPassword, confirmation, hchange⟩ | ⟨totp, hchange⟩
  · rw [hchange] at hrevoked
    cases hrevoked
  · rw [hchange] at hrevoked
    cases hrevoked

/-- A request goes on at a position whose marks are right. -/
theorem move (h : s.Good) (i : ℕ) {pc : Pc} (hpc : pc.Marked s.authelia.changes) :
    (s.move i pc).Good := by
  refine ⟨h.flows, fun pc' hpc' => ?_, h.renewed⟩
  rcases List.mem_or_eq_of_mem_set hpc' with hmem | rfl
  · exact h.requests pc' hmem
  · exact hpc

theorem dropFlows (h : s.Good) (p : LoginFlow → Bool) :
    Access.Good { s with flows := s.flows.filter p } :=
  ⟨fun flow hflow => h.flows flow (List.mem_filter.mp hflow).1, h.requests, h.renewed⟩

theorem register (h : s.Good) {factors : Factors} (hfactors : factors.first ≤ s.authelia.changes)
    (id : String) : (s.register factors id).Good := by
  dsimp only [Access.register]
  split
  · exact h.dropFlows _
  · refine ⟨fun flow hflow => ?_, h.requests, h.renewed⟩
    rcases List.mem_append.mp hflow with hflow | hflow
    · exact h.flows flow (List.mem_filter.mp (List.mem_filter.mp hflow).1).1
    · rw [List.mem_singleton.mp hflow]
      exact hfactors

theorem take (h : s.Good) (i : ℕ) (id code : String) : (s.take i id code).Good := by
  have hrest := h.dropFlows fun flow => flow.id != id
  unfold Access.take
  split
  next => exact hrest.move i trivial
  next flow hflow =>
    split
    · exact hrest.move i (h.flows flow (List.mem_of_find?_eq_some hflow))
    · exact hrest.move i trivial

/-- A session is stored after the revocation only by a login that was verified after the change. -/
theorem create (h : s.Good) (i : ℕ) (record : LocalSession) {origin : Origin}
    (horigin : origin.first ≤ origin.second) (htimely : s.revoked = true → 1 ≤ origin.first) :
    Access.Good { s.move i .answered with
      sessions := created record origin s.now s.sessions } := by
  have hmoved : (s.move i .answered).Good := h.move i trivial
  refine ⟨hmoved.flows, hmoved.requests, fun hrevoked x hx => ?_⟩
  rcases List.mem_append.mp hx with hx | hx
  · have hkept : x ∈ s.sessions := by
      split at hx
      · exact (List.mem_filter.mp (List.mem_of_mem_drop hx)).1
      · exact (List.mem_filter.mp hx).1
    exact h.renewed hrevoked x hkept
  · rw [List.mem_singleton.mp hx]
    have hfirst := htimely hrevoked
    exact ⟨hfirst, hfirst.trans horigin⟩

/-- A step of a request. -/
theorem act (h : s.Good) {i : ℕ} {pc : Pc} {reply : Reply} (hpc : s.requests[i]? = some pc)
    (htimely : s.timely (.login i reply) = true) (hstep : s.act i pc reply = some s') : s'.Good := by
  have hmarked := h.requests pc (List.mem_of_getElem? hpc)
  unfold Access.act at hstep
  split at hstep
  case h_1 =>
    split at hstep
    · cases hstep
      exact h.move i le_rfl
    · cases hstep
      exact h.move i trivial
  case h_3 =>
    cases hstep
    exact (h.register hmarked _).move i trivial
  case h_5 =>
    cases hstep
    exact h.take i _ _
  case h_6 =>
    split at hstep
    · cases hstep
      exact h.move i hmarked
    · cases hstep
      exact h.move i trivial
  case h_8 origin record =>
    cases hstep
    refine h.create i record hmarked fun hrevoked => ?_
    simp only [timely, hpc, hrevoked, Bool.not_true, Bool.false_or, decide_eq_true_eq] at htimely
    exact htimely
  case h_10 => cases hstep
  all_goals
    cases hstep
    exact h.move i trivial

/-- A step of the change. Its revocation leaves no session behind. -/
theorem advance (h : s.Good) {reply : Reply} (hstep : s.advance reply = some s') : s'.Good := by
  have halive (a : Authelia) (ha : s.authelia.changes ≤ a.changes) (pc : ChangePc)
      (hpc : Access.revoked { s with change := pc } = true → s.revoked = true) :
      Access.Good { s with authelia := a, change := pc } := by
    refine ⟨fun flow hflow => (h.flows flow hflow).trans ha, fun pc' hpc' => ?_,
      fun hrevoked => h.renewed (hpc hrevoked)⟩
    exact (h.requests pc' hpc').mono ha
  have hend (a : Authelia) (ha : s.authelia.changes ≤ a.changes) :
      Access.Good { s with authelia := a, change := .returned false } :=
    halive a ha _ (by simp [revoked])
  have happly (change : Change) : s.authelia.changes ≤ (s.authelia.apply change).changes := by
    cases change <;> exact Nat.le_succ _
  unfold Access.advance at hstep
  split at hstep
  case h_1 =>
    split at hstep
    · cases hstep
      exact halive _ le_rfl _ (by simp [revoked])
    · cases hstep
      exact hend _ le_rfl
  case h_2 =>
    cases hstep
    exact halive _ le_rfl _ (by simp [revoked])
  case h_5 =>
    split at hstep
    · cases hstep
      exact halive _ le_rfl _ (by simp [revoked])
    · cases hstep
      exact hend _ le_rfl
  case h_6 =>
    cases hstep
    -- Nothing is stored now; later sessions come from `create`.
    exact ⟨h.flows, h.requests, fun _ x hx => absurd hx List.not_mem_nil⟩
  case h_8 change hchange =>
    cases hstep
    exact halive _ (happly change) _ fun _ => by simp [revoked, hchange]
  case h_9 change applied hchange =>
    cases hstep
    refine hend _ ?_
    split
    · exact happly change
    · exact le_rfl
  case h_10 hchange =>
    cases hstep
    exact halive { s.authelia with starts := s.authelia.starts + 1 } le_rfl _
      fun _ => by simp [revoked, hchange]
  case h_11 =>
    cases hstep
    refine hend _ ?_
    split
    · exact le_rfl
    · exact le_rfl
  case h_12 => cases hstep
  all_goals
    cases hstep
    exact hend _ le_rfl

/-- One step of a timely run. -/
theorem step (h : s.Good) {label : Label} (htimely : s.timely label = true)
    (hstep : s.step label = some s') : s'.Good := by
  cases label with
  | arrive r =>
    cases hstep
    refine ⟨h.flows, fun pc hpc => ?_, h.renewed⟩
    rcases List.mem_append.mp hpc with hpc | hpc
    · exact h.requests pc hpc
    · rw [List.mem_singleton.mp hpc]
      cases r <;> trivial
  | tick d =>
    cases hstep
    exact ⟨h.flows, h.requests, h.renewed⟩
  | login i reply =>
    obtain ⟨pc, hpc, hact⟩ := Option.bind_eq_some_iff.mp hstep
    exact h.act hpc htimely hact
  | change reply => exact h.advance hstep

/-- Timely runs keep the marks right and leave no old session after the revocation. -/
theorem run {labels : List Label} (h : TimelyRun labels s) : s.Good :=
  h.invariant (I := fun _ s => s.Good) (fun _ => start)
    fun _ _ _ _ hgood hstep => hgood.step hstep.1 hstep.2

end Access.Good

/-- A record that a login stores. -/
def loginRecord : LocalSession where
  id := "session"
  owner := "owner"
  tokenHash := "hash"
  createdAt := 0
  lastUseAt := 0
  authenticatedAt := 0
  expiresAt := 7 * 24 * hour

/-- The steps of a whole login with a password, as requests `i` and `i + 1`, up to its last. -/
def verifiedLogin (i : ℕ) (password : String) : List Label :=
  [.login (i + 1) .ok, .login (i + 1) .ok, .arrive (.totp "flow" "123456"),
    .login i (.id "flow"), .login i .ok, .arrive (.password "owner" (utf8 password))]

/-- The steps of a run, newest first: a login whose factors were verified before the change stores
its session after the revocation. -/
def overtakenTrace : List Label :=
  [.change .ok, .change .ok, .login 1 (.session loginRecord), .change .ok, .change .ok,
    .change .ok] ++ verifiedLogin 0 "old password"

end Torkitten.Credentials
