import Torkitten.Bootstrap.Setup

/-!
# A committed owner is not overwritten

Once `Complete` has committed `Initialized`, no setup request may touch the credentials of the
owner. New requests are refused by the check in `setupRoute`, and the mutex of the manager keeps
every other request outside `Begin` at the moment of the commit. What remains are the requests
that passed the check before the commit and wait for the mutex: `setupRoute` tells `Begin` that
the installation is not initialised, so one of them starts the setup over.
-/

namespace Torkitten.Bootstrap

/-- A request that `Begin` accepts when it is told that nothing is initialised. -/
def Request.begins : Request → Bool
  | .password _ username secret confirmation => acceptsDetails username secret confirmation
  | _ => false

namespace Pc

/-- Inside `Begin`, past the checks of its arguments. -/
def inBegin : Pc → Bool
  | .hash _ _ | .stop _ _ _ | .remove _ _ _ _ _ | .writeOwner _ _ _ | .start _ _ => true
  | .generate _ _ | .token _ _ => true
  | _ => false

/-- Inside `Complete`, past the check of its flow. -/
def inComplete : Pc → Bool
  | .verify _ _ _ | .issue _ | .initializing _ | .finish => true
  | _ => false

/-- Past the check of `Initialized`, and about to start a setup. -/
def mayBegin : Pc → Bool
  | .waiting r => r.begins
  | _ => false

/-- The next step removes the database, writes the users file or generates a TOTP secret. -/
def overwrites : Pc → Bool
  | .remove _ _ _ file _ => file != .qr
  | .writeOwner _ _ _ | .generate _ _ => true
  | _ => false

/-- The request holds the mutex. -/
def inside (pc : Pc) : Bool := pc.inBegin || pc.inComplete

theorem inBegin_of_overwrites {pc : Pc} (h : pc.overwrites = true) : pc.inBegin = true := by
  cases pc <;> first | rfl | cases h

end Pc

namespace Setup

/-- The step is the commit of one request while another has passed the check of `Initialized`
and is about to start a setup. -/
def commitsOver (s : Setup) : Label → Bool
  | .act i .ok =>
    match s.requests[i]? with
    | some (.initializing _) => s.requests.any Pc.mayBegin
    | _ => false
  | _ => false

/-- The step removes the database, writes the users file or generates a TOTP secret. -/
def Overwrites (s : Setup) (l : Label) : Prop :=
  ∃ i reply pc, l = .act i reply ∧ s.requests[i]? = some pc ∧ pc.overwrites = true

/-- The daemon after its start, in any stored state: no request has arrived yet. -/
def Fresh (s : Setup) : Prop := s.requests = [] ∧ s.holder = none ∧ s.flow = none

end Setup

/-- The runs of the setup system. -/
abbrev SetupRun : List Label → Setup → Prop := Run Setup.Fresh fun s l s' => s.step l = some s'

/-- The runs in which no commit overtakes a request that is about to start a setup. -/
abbrev OrderlySetupRun : List Label → Setup → Prop :=
  Run Setup.Fresh fun s l s' => s.commitsOver l = false ∧ s.step l = some s'

/-! ## What one step of a request does -/

/-- How the mutex changes hands when a request moves from `pc` to `pc'`. -/
inductive Handover (s : Setup) (i : ℕ) (pc pc' : Pc) (s' : Setup) : Prop where
  /-- The request is outside the manager. -/
  | outside (hout : pc'.inside = false) (hsame : s'.holder = s.holder)
  /-- The request takes the free mutex and keeps it. -/
  | enters (hfree : s.holder = none) (htaken : s'.holder = some i)
  /-- The request holds the mutex and keeps it. -/
  | stays (hin : pc.inside = true) (hsame : s'.holder = s.holder)
  /-- The request gives the mutex back, possibly in the step in which it took it. -/
  | leaves (hheld : pc.inside = true ∨ s.holder = none) (hout : pc'.inside = false)
      (hgiven : s'.holder = none)

/-- What the step of request `i` from `pc` to `pc'` does. -/
structure Acts (s : Setup) (i : ℕ) (pc : Pc) (reply : Reply) (pc' : Pc) (s' : Setup) : Prop where
  requests : s'.requests = s.requests.set i pc'
  handover : Handover s i pc pc' s'
  begins : pc'.inBegin = true → pc.inBegin = true ∨ pc.mayBegin = true
  checked : pc'.mayBegin = true → s.state.initialized = false
  committed : s'.state = s.state ∨ (reply = .ok ∧ pc' = .finish ∧ ∃ x, pc = .initializing x)
  credentials : pc.inBegin = false → s'.credentials = s.credentials

namespace Acts

variable {s s' : Setup} {i : ℕ} {pc pc' : Pc} {reply : Reply}

/-- A request inside the manager returns. -/
theorem leave (hrequests : s'.requests = s.requests.set i .answered) (hholder : s'.holder = none)
    (hin : pc.inside = true ∨ s.holder = none) (hstate : s'.state = s.state)
    (hcred : pc.inBegin = false → s'.credentials = s.credentials) :
    Acts s i pc reply .answered s' :=
  ⟨hrequests, .leaves hin rfl hholder, nofun, nofun, .inl hstate, hcred⟩

/-- A request inside `Begin` goes on inside `Begin`. -/
theorem inBegin (hrequests : s'.requests = s.requests.set i pc') (hholder : s'.holder = s.holder)
    (hin : pc.inBegin = true) (hin' : pc'.inBegin = true) (hstate : s'.state = s.state) :
    Acts s i pc reply pc' s' where
  requests := hrequests
  handover := .stays (by simp [Pc.inside, hin]) hholder
  begins := fun _ => .inl hin
  checked := by cases pc' <;> simp_all [Pc.inBegin, Pc.mayBegin]
  committed := .inl hstate
  credentials := by simp [hin]

/-- A request inside `Complete` goes on inside `Complete`. -/
theorem inComplete (hrequests : s'.requests = s.requests.set i pc') (hholder : s'.holder = s.holder)
    (hin : pc.inComplete = true) (hin' : pc'.inComplete = true) (hstate : s'.state = s.state)
    (hcred : s'.credentials = s.credentials) : Acts s i pc reply pc' s' where
  requests := hrequests
  handover := .stays (by simp [Pc.inside, hin]) hholder
  begins := by cases pc' <;> simp_all [Pc.inBegin, Pc.inComplete]
  checked := by cases pc' <;> simp_all [Pc.mayBegin, Pc.inComplete]
  committed := .inl hstate
  credentials := fun _ => hcred

end Acts

namespace Setup

variable {s s' : Setup} {i : ℕ} {reply : Reply}

theorem check_acts (s : Setup) (i : ℕ) (r : Request) :
    ∃ pc', Acts s i (.arrived r) reply pc' (s.check i r) := by
  unfold check
  split
  · exact ⟨.answered, rfl, .outside rfl rfl, nofun, nofun, .inl rfl, fun _ => rfl⟩
  next hinit =>
    split
    · exact ⟨.waiting r, rfl, .outside rfl rfl, nofun, fun _ => by simpa using hinit, .inl rfl,
        fun _ => rfl⟩
    · exact ⟨.answered, rfl, .outside rfl rfl, nofun, nofun, .inl rfl, fun _ => rfl⟩

theorem enter_acts {r : Request} (h : s.enter i r = some s') :
    ∃ pc', Acts s i (.waiting r) reply pc' s' := by
  unfold enter at h
  split at h
  · cases h
  next hfree =>
    have hfree : s.holder = none := by simpa using hfree
    cases r with
    | password form username password confirmation =>
      cases h
      simp only [beginSetup, Bool.false_eq_true, ↓reduceIte]
      split
      next haccepts =>
        exact ⟨.hash username password, rfl, .enters hfree rfl, fun _ => .inr haccepts, nofun,
          .inl rfl, fun _ => rfl⟩
      next => exact ⟨.answered, .leave rfl rfl (.inr hfree) rfl fun _ => rfl⟩
    | totp form flow code =>
      cases h
      simp only [completeSetup]
      split
      next flow _ =>
        exact ⟨.verify flow.username flow.password code, rfl, .enters hfree rfl, nofun, nofun,
          .inl rfl, fun _ => rfl⟩
      next => exact ⟨.answered, .leave rfl rfl (.inr hfree) rfl fun _ => rfl⟩
    | qr flow =>
      simp only at h
      split at h <;> cases h <;>
        exact ⟨.answered, .leave rfl rfl (.inr hfree) rfl fun _ => rfl⟩

@[simp]
theorem removeFile_requests (s : Setup) (file : StaleFile) :
    (s.removeFile file).requests = s.requests := by
  cases file <;> rfl

@[simp]
theorem removeFile_holder (s : Setup) (file : StaleFile) :
    (s.removeFile file).holder = s.holder := by
  cases file <;> rfl

@[simp]
theorem removeFile_state (s : Setup) (file : StaleFile) :
    (s.removeFile file).state = s.state := by
  cases file <;> rfl

theorem inBegin_afterRemove (username : String) (password : List UInt8) (digest : String)
    (files : List StaleFile) : (afterRemove username password digest files).inBegin = true := by
  cases files <;> rfl

/-- Every step of a request is described by `Acts`. -/
theorem act_acts {pc : Pc} (h : s.act i pc reply = some s') : ∃ pc', Acts s i pc reply pc' s' := by
  unfold act at h
  split at h
  next r => cases h; exact check_acts s i r
  next r => exact enter_acts h
  next username password text =>
    split at h <;> cases h
    · exact ⟨_, .leave rfl rfl (.inl rfl) rfl nofun⟩
    · exact ⟨_, .inBegin rfl rfl rfl rfl rfl⟩
  next => cases h; exact ⟨_, .leave rfl rfl (.inl rfl) rfl nofun⟩
  next => cases h; exact ⟨_, .inBegin rfl rfl rfl rfl rfl⟩
  next => cases h; exact ⟨_, .leave rfl rfl (.inl rfl) rfl nofun⟩
  next username password digest file rest =>
    cases h
    exact ⟨afterRemove username password digest rest, .inBegin (by simp [move]) (by simp [move]) rfl
      (inBegin_afterRemove username password digest rest) (by simp [move])⟩
  next => cases h; exact ⟨_, .leave rfl rfl (.inl rfl) rfl nofun⟩
  next =>
    split at h <;> cases h
    · exact ⟨_, .inBegin rfl rfl rfl rfl rfl⟩
    · exact ⟨_, .leave rfl rfl (.inl rfl) rfl nofun⟩
  next =>
    split at h <;> cases h
    · exact ⟨_, .leave rfl rfl (.inl rfl) rfl nofun⟩
    · exact ⟨_, .leave rfl rfl (.inl rfl) rfl nofun⟩
  next => cases h; exact ⟨_, .inBegin rfl rfl rfl rfl rfl⟩
  next => cases h; exact ⟨_, .leave rfl rfl (.inl rfl) rfl nofun⟩
  next =>
    split at h <;> cases h
    · exact ⟨_, .inBegin rfl rfl rfl rfl rfl⟩
    · exact ⟨_, .leave rfl rfl (.inl rfl) rfl nofun⟩
  next => cases h; exact ⟨_, .leave rfl rfl (.inl rfl) rfl nofun⟩
  next => cases h; exact ⟨_, .leave rfl rfl (.inl rfl) rfl nofun⟩
  next => cases h; exact ⟨_, .leave rfl rfl (.inl rfl) rfl nofun⟩
  next => cases h; exact ⟨_, .inComplete rfl rfl rfl rfl rfl rfl⟩
  next => cases h; exact ⟨_, .leave rfl rfl (.inl rfl) rfl fun _ => rfl⟩
  next => cases h; exact ⟨_, .inComplete rfl rfl rfl rfl rfl rfl⟩
  next => cases h; exact ⟨_, .leave rfl rfl (.inl rfl) rfl fun _ => rfl⟩
  next session =>
    split at h <;> cases h
    · exact ⟨.finish, rfl, .stays rfl rfl, nofun, nofun, .inr ⟨rfl, rfl, session, rfl⟩, fun _ => rfl⟩
    · exact ⟨_, .leave rfl rfl (.inl rfl) rfl fun _ => rfl⟩
  next => cases h; exact ⟨_, .leave rfl rfl (.inl rfl) rfl fun _ => rfl⟩
  next => cases h; exact ⟨_, .leave rfl rfl (.inl rfl) rfl fun _ => rfl⟩
  next => cases h; exact ⟨_, .leave rfl rfl (.inl rfl) rfl fun _ => rfl⟩
  next => cases h

end Setup

/-! ## The invariant -/

/-- What holds of the requests along a run without overtaking commits. -/
structure Guarded (s : Setup) : Prop where
  /-- Only the holder of the mutex is inside the manager. -/
  exclusive : ∀ (i : ℕ) (pc : Pc), s.requests[i]? = some pc → pc.inside = true →
    s.holder = some i
  /-- Once initialised, no request is inside `Begin` or about to be. -/
  settled : s.state.initialized = true → ∀ (i : ℕ) (pc : Pc), s.requests[i]? = some pc →
    pc.inBegin = false ∧ pc.mayBegin = false

namespace Guarded

variable {s s' : Setup} {l : Label}

theorem fresh (h : s.Fresh) : Guarded s := by
  obtain ⟨hnone, -, -⟩ := h
  constructor <;> simp [hnone]

/-- The arrival of a request keeps the invariant. -/
theorem arrive (h : Guarded s) (r : Request) :
    Guarded { s with requests := s.requests ++ [.arrived r] } := by
  have hcases : ∀ (i : ℕ) (pc : Pc), (s.requests ++ [.arrived r])[i]? = some pc →
      s.requests[i]? = some pc ∨ pc = .arrived r := by
    intro i pc hpc
    rw [List.getElem?_append] at hpc
    split at hpc
    · exact .inl hpc
    · rw [List.getElem?_singleton] at hpc
      split at hpc
      · exact .inr (Option.some.inj hpc).symm
      · cases hpc
  constructor
  · intro i pc hpc hin
    rcases hcases i pc hpc with hold | rfl
    · exact h.exclusive i pc hold hin
    · cases hin
  · intro hinit i pc hpc
    rcases hcases i pc hpc with hold | rfl
    · exact h.settled hinit i pc hold
    · exact ⟨rfl, rfl⟩

/-- After the step of request `i`, each request is where it was or is the one that moved. -/
theorem getElem?_set_cases {i j : ℕ} {pc : Pc} {requests : List Pc} {pc' : Pc}
    (h : (requests.set i pc')[j]? = some pc) : (j = i ∧ pc = pc') ∨ (j ≠ i ∧ requests[j]? = some pc) := by
  rw [List.getElem?_set] at h
  split at h
  next heq =>
    split at h
    · exact .inl ⟨heq.symm, (Option.some.inj h).symm⟩
    · cases h
  next hne => exact .inr ⟨fun heq => hne heq.symm, h⟩

/-- Mutual exclusion is kept by the step of a request. -/
theorem exclusive_acts {i : ℕ} {pc pc' : Pc} {reply : Reply} (h : Guarded s)
    (hpc : s.requests[i]? = some pc) (ha : Acts s i pc reply pc' s') :
    ∀ (j : ℕ) (q : Pc), s'.requests[j]? = some q → q.inside = true → s'.holder = some j := by
  intro j q hq hin
  rw [ha.requests] at hq
  rcases getElem?_set_cases hq with ⟨rfl, rfl⟩ | ⟨hne, hold⟩
  · -- the request that moved
    rcases ha.handover with ⟨hout, -⟩ | ⟨-, htaken⟩ | ⟨hwas, hsame⟩ | ⟨-, hout, -⟩
    · rw [hout] at hin; cases hin
    · exact htaken
    · rw [hsame]; exact h.exclusive j pc hpc hwas
    · rw [hout] at hin; cases hin
  · -- another request: it held the mutex before, so the moving request did not touch it
    have hheld : s.holder = some j := h.exclusive j q hold hin
    have hother : pc.inside = true → False := by
      intro hwas
      have hi := h.exclusive i pc hpc hwas
      rw [hheld] at hi
      exact hne (Option.some.inj hi)
    rcases ha.handover with ⟨-, hsame⟩ | ⟨hfree, -⟩ | ⟨hwas, -⟩ | ⟨hwas | hfree, -, -⟩
    · rw [hsame]; exact hheld
    · rw [hheld] at hfree; cases hfree
    · exact (hother hwas).elim
    · exact (hother hwas).elim
    · rw [hheld] at hfree; cases hfree

/-- At an orderly commit, no request is inside `Begin` or about to be. -/
theorem settled_of_commit {i : ℕ} {x : LocalSession} (h : Guarded s)
    (hpc : s.requests[i]? = some (.initializing x)) (hok : s.commitsOver (.act i .ok) = false) :
    ∀ (j : ℕ) (q : Pc), s.requests[j]? = some q → j ≠ i → q.inBegin = false ∧ q.mayBegin = false := by
  intro j q hq hne
  constructor
  · by_contra hin
    have hj := h.exclusive j q hq (by simp [Pc.inside, hin])
    have hi := h.exclusive i _ hpc rfl
    rw [hj] at hi
    exact hne (Option.some.inj hi)
  · simp only [Setup.commitsOver, hpc, List.any_eq_false] at hok
    simpa using hok q (List.mem_of_getElem? hq)

/-- The second half of the invariant is kept by an orderly step of a request. -/
theorem settled_acts {i : ℕ} {pc pc' : Pc} {reply : Reply} (h : Guarded s)
    (hpc : s.requests[i]? = some pc) (ha : Acts s i pc reply pc' s')
    (hok : s.commitsOver (.act i reply) = false) (hinit : s'.state.initialized = true) :
    ∀ (j : ℕ) (q : Pc), s'.requests[j]? = some q → q.inBegin = false ∧ q.mayBegin = false := by
  intro j q hq
  rw [ha.requests] at hq
  by_cases hbefore : s.state.initialized = true
  · -- already initialised: the request that moved cannot have entered `Begin`
    rcases getElem?_set_cases hq with ⟨rfl, rfl⟩ | ⟨-, hold⟩
    · obtain ⟨hnot, hnotMay⟩ := h.settled hbefore j pc hpc
      constructor
      · by_contra hin
        rcases ha.begins (by simpa using hin) with hwas | hmay
        · rw [hnot] at hwas; cases hwas
        · rw [hnotMay] at hmay; cases hmay
      · by_contra hmay
        have hclear := ha.checked (by simpa using hmay)
        rw [hbefore] at hclear
        cases hclear
    · exact h.settled hbefore j q hold
  · -- this step is the commit
    rcases ha.committed with hsame | ⟨rfl, hfinish, x, rfl⟩
    · rw [hsame] at hinit
      exact absurd hinit hbefore
    · rcases getElem?_set_cases hq with ⟨rfl, rfl⟩ | ⟨hne, hold⟩
      · rw [hfinish]
        exact ⟨rfl, rfl⟩
      · exact h.settled_of_commit hpc hok j q hold hne

/-- Every orderly step keeps the invariant. -/
theorem step (h : Guarded s) (hok : s.commitsOver l = false) (hstep : s.step l = some s') :
    Guarded s' := by
  cases l with
  | arrive r =>
    cases hstep
    exact h.arrive r
  | tick d =>
    cases hstep
    exact ⟨h.exclusive, h.settled⟩
  | act i reply =>
    obtain ⟨pc, hpc, hact⟩ := Option.bind_eq_some_iff.mp hstep
    obtain ⟨pc', ha⟩ := Setup.act_acts hact
    exact ⟨h.exclusive_acts hpc ha, h.settled_acts hpc ha hok⟩

/-- The invariant holds along every orderly run. -/
theorem ofRun {ls : List Label} (r : OrderlySetupRun ls s) : Guarded s :=
  Run.invariant (I := fun _ s => Guarded s) (fun _ => fresh) (fun _ _ _ _ h hs => h.step hs.1 hs.2) r

end Guarded

/-- In every run in which no commit overtakes a request that is about to start a setup, no step
taken once the installation is initialised removes the database, writes the users file or
generates a TOTP secret, and the credentials stay as they are. -/
theorem credentials_kept_of_orderlyRun {ls : List Label} {s s' : Setup} {l : Label}
    (r : OrderlySetupRun ls s) (hinit : s.state.initialized = true) (hstep : s.step l = some s') :
    ¬ s.Overwrites l ∧ s'.credentials = s.credentials := by
  have h := Guarded.ofRun r
  constructor
  · rintro ⟨i, reply, pc, rfl, hpc, hover⟩
    have hin := Pc.inBegin_of_overwrites hover
    rw [(h.settled hinit i pc hpc).1] at hin
    cases hin
  · cases l with
    | arrive r => cases hstep; rfl
    | tick d => cases hstep; rfl
    | act i reply =>
      obtain ⟨pc, hpc, hact⟩ := Option.bind_eq_some_iff.mp hstep
      obtain ⟨pc', ha⟩ := Setup.act_acts hact
      exact ha.credentials (h.settled hinit i pc hpc).1

/-- A daemon that has its onion address and waits for its owner. -/
def unclaimed : Setup where
  state := { newState with serviceID := String.ofList (List.replicate 56 'a') }
  credentials := { users := "users: \x7b\x7d\n", database := none }
  qr := false
  flow := none
  holder := none
  requests := []
  now := hour

/-- A request that sets the owner's password, the same for every name. -/
def passwordRequest (username : String) : Request :=
  .password true username (List.replicate 12 120) (List.replicate 12 120)

/-- The session that a setup issues. -/
def ownerSession : LocalSession where
  id := String.ofList (List.replicate 32 'a')
  owner := "owner"
  tokenHash := String.ofList (List.replicate 43 'h')
  createdAt := hour
  lastUseAt := hour
  authenticatedAt := hour
  expiresAt := 13 * hour

/-- The steps of request `i` through `Begin`, oldest first. -/
def beginSteps (i : ℕ) : List Label :=
  [.act i .ok, .act i .ok, .act i (.digest "$argon2id$v"), .act i .ok, .act i .ok, .act i .ok,
    .act i .ok, .act i .ok, .act i .ok, .act i .ok, .act i (.secret i true), .act i (.id "flow")]

/-- The steps of request `i` through `Complete`, oldest first. -/
def completeSteps (i : ℕ) : List Label :=
  [.act i .ok, .act i .ok, .act i .ok, .act i (.session ownerSession), .act i .ok, .act i .ok]

/-- A setup followed by a late request for another one, newest first. -/
def lateTrace : List Label :=
  (Label.arrive (passwordRequest "owner") :: beginSteps 0 ++
    Label.arrive (.totp true (some "flow") "123456") :: completeSteps 1 ++
    [Label.arrive (passwordRequest "other")]).reverse

/-- A step of the setup system, unless it is an overtaking commit. -/
def orderlySetupStep (s : Setup) (l : Label) : Option Setup :=
  if s.commitsOver l then none else s.step l

/-- After `lateTrace` the owner is committed, and the late request changes nothing. -/
theorem lateTrace_credentials_kept : ∃ s s', OrderlySetupRun lateTrace s ∧
    s.state.initialized = true ∧ s.step (.act 2 .ok) = some s' ∧
    s.credentials.database = some (some ("owner", 0)) ∧
    (¬ s.Overwrites (.act 2 .ok) ∧ s'.credentials = s.credentials) := by
  let s := (replay orderlySetupStep unclaimed lateTrace).getD unclaimed
  have r : OrderlySetupRun lateTrace s := by
    refine Run.of_replay (f := orderlySetupStep) (s := unclaimed) ⟨rfl, rfl, rfl⟩ ?_
      (by decide +kernel)
    intro s l s' h
    unfold orderlySetupStep at h
    split at h
    · cases h
    next hok => exact ⟨by simpa using hok, h⟩
  have hinit : s.state.initialized = true := by decide +kernel
  have hstep : s.step (.act 2 .ok) = some (s.move 2 .answered) := by decide +kernel
  exact ⟨s, _, r, hinit, hstep, by decide +kernel, credentials_kept_of_orderlyRun r hinit hstep⟩

/-- A setup that commits while another request has passed the check of `Initialized`, which then
goes on up to the removal of the database; newest first. -/
def overtakenTrace : List Label :=
  (Label.arrive (passwordRequest "owner") :: beginSteps 0 ++
    Label.arrive (passwordRequest "other") :: Label.act 1 .ok ::
    Label.arrive (.totp true (some "flow") "123456") :: completeSteps 2 ++
    [Label.act 1 .ok, .act 1 (.digest "$argon2id$w"), .act 1 .ok]).reverse

/-- After `overtakenTrace` the owner is committed, and the next step removes the database with
the owner's TOTP secret. -/
theorem overtakenTrace_overwrites : ∃ s s', SetupRun overtakenTrace s ∧
    s.state.initialized = true ∧ s.step (.act 1 .ok) = some s' ∧ s.Overwrites (.act 1 .ok) ∧
    s.credentials.database = some (some ("owner", 0)) ∧ s'.credentials.database = none := by
  let s := (replay Setup.step unclaimed overtakenTrace).getD unclaimed
  have r : SetupRun overtakenTrace s :=
    Run.of_replay (f := Setup.step) (s := unclaimed) ⟨rfl, rfl, rfl⟩ (fun _ _ _ h => h)
      (by decide +kernel)
  have hstep : s.step (.act 1 .ok) = some ((s.step (.act 1 .ok)).getD s) := by decide +kernel
  have hpc : s.requests[1]? = some (.remove "other" (List.replicate 12 120) "$argon2id$w" .database
      [.wal, .shm, .qr]) := by decide +kernel
  exact ⟨s, _, r, by decide +kernel, hstep, ⟨1, .ok, _, rfl, hpc, rfl⟩, by decide +kernel,
    by decide +kernel⟩

end Torkitten.Bootstrap
