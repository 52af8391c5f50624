import Torkitten.Access.Session

/-!
# The lifetime of a session

What the sessions are for: an owner who has signed in stays signed in for twelve hours, or until
they have been away for half an hour, or until somebody signs them out. The ledger says this for a
record of what happened: which sessions were issued, when each was last used and which were ended.
The stored list is another thing, since it is pruned by whatever call comes next. The two agree
about every session that is still alive, so a cookie is accepted exactly while its ledger entry
is alive.
-/

namespace Torkitten

open Proc

/-! ## The ledger -/

/-- What a call did. -/
inductive SessionEvent where
  | created (issued : Issued)
  | initialized (issued : Issued)
  | authenticated (cookie : String)
  | revoked (id : String)
  | cleared
  deriving DecidableEq, Repr

/-- The record of a run, newest call first: what each call did, or nothing if it returned an error,
and when it ended. -/
abbrev SessionLog := List (Option SessionEvent × Time)

/-- A session of the ledger. -/
structure SignIn where
  issued : Issued
  lastUse : Time
  /-- The session has been revoked or evicted. -/
  ended : Bool
  deriving DecidableEq, Repr

namespace SignIn

/-- A new entry. -/
def new (issued : Issued) : SignIn := { issued, lastUse := issued.issuedAt, ended := false }

/-- The session can be used. -/
def live (t : Time) (e : SignIn) : Bool :=
  !e.ended && decide (t < e.issued.issuedAt + absolute) && decide (t - e.lastUse ≤ idle)

/-- The session is used by somebody who knows `secret`. -/
def use (secret : List UInt8) (t : Time) (e : SignIn) : SignIn :=
  if e.issued.secret = secret then { e with lastUse := t } else e

/-- The session is ended if `p` holds of it. -/
def endIf (p : SignIn → Bool) (e : SignIn) : SignIn := if p e then { e with ended := true } else e

end SignIn

/-- End the first entry with property `p`. -/
def endFirst (p : SignIn → Bool) : List SignIn → List SignIn
  | [] => []
  | e :: rest => if p e then { e with ended := true } :: rest else e :: endFirst p rest

/-- Make room for a new session: the oldest of the full number of sessions is ended. -/
def evict (t : Time) (entries : List SignIn) : List SignIn :=
  if (entries.filter (SignIn.live t)).length ≥ maxSessions then endFirst (SignIn.live t) entries
  else entries

/-- The entries after one more call. -/
def entered (entries : List SignIn) (t : Time) : SessionEvent → List SignIn
  | .created issued => evict t entries ++ [.new issued]
  | .initialized issued => entries ++ [.new issued]
  | .authenticated cookie =>
    match base64Decode cookie with
    | some secret => entries.map (SignIn.use secret t)
    | none => entries
  | .revoked id => entries.map (SignIn.endIf fun e => e.issued.id == id)
  | .cleared => entries.map (SignIn.endIf fun _ => true)

/-- The ledger of a record, oldest session first. -/
def ledger : SessionLog → List SignIn
  | [] => []
  | (none, _) :: earlier => ledger earlier
  | (some event, t) :: earlier => entered (ledger earlier) t event

/-- The secrets that a call draws. -/
def SessionEvent.drawn : SessionEvent → List (List UInt8)
  | .created issued => [issued.secret]
  | .initialized issued => [issued.secret]
  | _ => []

/-- The secrets that a call presents. -/
def SessionEvent.presented : SessionEvent → List (List UInt8)
  | .authenticated cookie => (base64Decode cookie).toList
  | _ => []

/-- The secrets that were drawn, newest first. -/
def drawn (log : SessionLog) : List (List UInt8) :=
  (log.filterMap Prod.fst).flatMap SessionEvent.drawn

/-- The secrets that were presented, newest first. -/
def presented (log : SessionLog) : List (List UInt8) :=
  (log.filterMap Prod.fst).flatMap SessionEvent.presented

/-- No secret was drawn twice, and the digest tells the drawn secrets from the presented ones. -/
structure Distinct (digest : Digest) (log : SessionLog) (others : List (List UInt8)) : Prop where
  fresh : (drawn log).Nodup
  injective : Set.InjOn digest.sum { x | x ∈ drawn log ++ presented log ++ others }

/-! ## Entries and records -/

section Entries

variable {digest : Digest} {t t' : Time} {entries : List SignIn} {sessions : List LocalSession}

/-- The record of an entry. -/
def SignIn.record (digest : Digest) (e : SignIn) : LocalSession :=
  { e.issued.record digest with lastUseAt := e.lastUse }

/-- The stored sessions that are not too old are the live entries. -/
def Tracks (digest : Digest) (entries : List SignIn) (sessions : List LocalSession) (t : Time) : Prop :=
  prune sessions t = (entries.filter (SignIn.live t)).map (SignIn.record digest)

theorem survives_record {e : SignIn} (h : e.ended = false) :
    survives t (e.record digest) = e.live t := by
  unfold SignIn.live
  rw [h]
  rfl

theorem survives_of_live {e : SignIn} (h : e.live t = true) :
    survives t (e.record digest) = true := by
  have hended : e.ended = false := by
    simp only [SignIn.live, Bool.and_eq_true] at h
    simpa using h.1.1
  rw [survives_record hended, h]

theorem live_of_le {e : SignIn} (hle : t ≤ t') (h : e.live t' = true) : e.live t = true := by
  simp only [SignIn.live, Bool.and_eq_true, decide_eq_true_eq] at h ⊢
  exact ⟨⟨h.1.1, Int.lt_of_le_of_lt hle h.1.2⟩,
    Int.le_trans (Int.sub_le_sub_right hle _) h.2⟩

theorem filter_live_filter_live (hle : t ≤ t') :
    (entries.filter (SignIn.live t)).filter (SignIn.live t') = entries.filter (SignIn.live t') := by
  rw [List.filter_filter]
  refine List.filter_congr fun e _ => ?_
  rw [Bool.eq_iff_iff, Bool.and_eq_true]
  exact ⟨And.left, fun h => ⟨h, live_of_le hle h⟩⟩

/-- Records of live entries are pruned like the entries. -/
theorem prune_map_record (hlive : ∀ e ∈ entries, e.live t = true) :
    prune (entries.map (SignIn.record digest)) t' =
      (entries.filter (SignIn.live t')).map (SignIn.record digest) := by
  unfold prune
  rw [List.filter_map]
  refine congrArg _ (List.filter_congr fun e he => survives_record ?_)
  have := hlive e he
  simp only [SignIn.live, Bool.and_eq_true] at this
  simpa using this.1.1

theorem Tracks.later (h : Tracks digest entries sessions t) (hle : t ≤ t') :
    Tracks digest entries sessions t' := by
  unfold Tracks at h ⊢
  rw [← prune_prune hle, h, prune_map_record fun e he => (List.mem_filter.mp he).2,
    filter_live_filter_live hle]

theorem filter_live_endFirst :
    (endFirst (SignIn.live t) entries).filter (SignIn.live t) =
      (entries.filter (SignIn.live t)).drop 1 := by
  induction entries with
  | nil => rfl
  | cons e rest ih =>
    by_cases h : e.live t = true
    · have hdead : SignIn.live t { e with ended := true } = false := rfl
      simp [endFirst, h, hdead]
    · simp [endFirst, h, ih]

theorem filter_live_endIf {p : SignIn → Bool} :
    (entries.map (SignIn.endIf p)).filter (SignIn.live t) =
      (entries.filter (SignIn.live t)).filter fun e => !p e := by
  induction entries with
  | nil => rfl
  | cons e rest ih =>
    have hdead : SignIn.live t { e with ended := true } = false := rfl
    by_cases hp : p e = true
    · by_cases h : e.live t = true
      · simp [SignIn.endIf, hp, h, hdead, ih]
      · simp [SignIn.endIf, hp, h, hdead, ih]
    · by_cases h : e.live t = true
      · simp [SignIn.endIf, hp, h, ih]
      · simp [SignIn.endIf, hp, h, ih]

theorem record_new (issued : Issued) : (SignIn.new issued).record digest = issued.record digest := rfl

/-- A new session is stored as a new entry. -/
theorem Tracks.append (h : Tracks digest entries sessions t) (issued : Issued) :
    Tracks digest (entries ++ [.new issued]) (sessions ++ [issued.record digest]) t := by
  have hnew : prune [issued.record digest] t =
      ([SignIn.new issued].filter (SignIn.live t)).map (SignIn.record digest) := by
    have hsurvives : survives t (issued.record digest) = (SignIn.new issued).live t :=
      survives_record (e := .new issued) rfl
    by_cases hlive : (SignIn.new issued).live t = true
    · simp [prune, hsurvives, hlive, record_new]
    · simp [prune, hsurvives, hlive]
  unfold Tracks prune at h ⊢
  unfold prune at hnew
  rw [List.filter_append, List.filter_append, List.map_append, h, hnew]

/-- A session is evicted as its entry is ended. -/
theorem Tracks.evict (h : Tracks digest entries sessions t) :
    Tracks digest (evict t entries)
      (if (prune sessions t).length ≥ maxSessions then (prune sessions t).drop 1
        else prune sessions t) t := by
  have hlength : (prune sessions t).length = (entries.filter (SignIn.live t)).length := by
    rw [h, List.length_map]
  have hself : prune (prune sessions t) t = prune sessions t := prune_prune (Int.le_refl t)
  unfold Torkitten.evict
  rw [hlength]
  split
  next =>
    have hdrop : prune ((prune sessions t).drop 1) t = (prune sessions t).drop 1 :=
      List.filter_eq_self.mpr fun x hx => (List.mem_filter.mp (List.mem_of_mem_drop hx)).2
    unfold Tracks
    rw [hdrop, filter_live_endFirst, h, List.map_drop]
  next =>
    unfold Tracks
    rw [hself, h]

theorem Tracks.admitted (h : Tracks digest entries sessions t) (issued : Issued) :
    Tracks digest (Torkitten.evict t entries ++ [.new issued])
      (admitted (issued.record digest) t sessions) t :=
  h.evict.append issued

/-- Sessions are revoked as their entries are ended. -/
theorem Tracks.filter (h : Tracks digest entries sessions t) {p : SignIn → Bool}
    {q : LocalSession → Bool} (hpq : ∀ e, q (e.record digest) = !p e) :
    Tracks digest (entries.map (SignIn.endIf p)) (sessions.filter q) t := by
  have hcomm : prune (sessions.filter q) t = (prune sessions t).filter q := by
    unfold prune
    rw [List.filter_filter, List.filter_filter]
    exact List.filter_congr fun x _ => Bool.and_comm _ _
  unfold Tracks
  rw [hcomm, h, filter_live_endIf, List.filter_map]
  exact congrArg _ (List.filter_congr fun e _ => hpq e)

theorem Tracks.clear : Tracks digest (entries.map (SignIn.endIf fun _ => true)) [] t := by
  unfold Tracks
  rw [filter_live_endIf]
  simp [prune]

/-! ### Looking for a session -/

variable {raw : List UInt8}

theorem matches_record {e : SignIn} : (e.record digest).matches (digest.sum raw) = true ↔
    digest.sum e.issued.secret = digest.sum raw := by
  have hdecode : base64Decode (e.record digest).tokenHash = some (digest.sum e.issued.secret) :=
    base64Decode_base64Encode _
  unfold LocalSession.matches
  rw [hdecode, beq_iff_eq, Option.some.injEq]

/-- The digest tells the secrets of the entries from `raw`. -/
def Tells (digest : Digest) (raw : List UInt8) (entries : List SignIn) : Prop :=
  ∀ e ∈ entries, digest.sum e.issued.secret = digest.sum raw → e.issued.secret = raw

/-- The loop of `Authenticate` renews the entries with the given secret. -/
theorem touch_map_record (htells : Tells digest raw entries) :
    touch (digest.sum raw) t (entries.map (SignIn.record digest)) =
      (entries.map (SignIn.use raw t)).map (SignIn.record digest) := by
  unfold touch
  rw [List.map_map, List.map_map]
  refine List.map_congr_left fun e he => ?_
  simp only [Function.comp_apply]
  unfold SignIn.use
  by_cases hsecret : e.issued.secret = raw
  · rw [if_pos hsecret, if_pos (matches_record.mpr (by rw [hsecret]))]
    rfl
  · rw [if_neg hsecret, if_neg fun h => hsecret (htells e he (matches_record.mp h))]

theorem Tells.live (h : Tells digest raw entries) :
    Tells digest raw (entries.filter (SignIn.live t)) :=
  fun e he => h e (List.mem_filter.mp he).1

theorem live_use {e : SignIn} (h : e.live t = true) : (e.use raw t).live t = true := by
  unfold SignIn.use
  split
  · simp only [SignIn.live, Bool.and_eq_true, decide_eq_true_eq] at h ⊢
    refine ⟨h.1, ?_⟩
    rw [Int.sub_self]
    decide
  · exact h

/-- When the session with the presented secret is alive, using it renews its entry. -/
theorem Tracks.touch (h : Tracks digest entries sessions t) (htells : Tells digest raw entries)
    (hlive : ∀ e ∈ entries, e.issued.secret = raw → e.live t = true) :
    Tracks digest (entries.map (SignIn.use raw t)) (touch (digest.sum raw) t (prune sessions t)) t := by
  -- no entry comes back to life, since only live ones are used
  have huse : ∀ e ∈ entries, (e.use raw t).live t = e.live t := by
    intro e he
    by_cases hsecret : e.issued.secret = raw
    · rw [hlive e he hsecret, live_use (hlive e he hsecret)]
    · rw [SignIn.use, if_neg hsecret]
  have hfilter : (entries.map (SignIn.use raw t)).filter (SignIn.live t) =
      (entries.filter (SignIn.live t)).map (SignIn.use raw t) := by
    rw [List.filter_map]
    exact congrArg _ (List.filter_congr huse)
  have hall : ∀ e ∈ (entries.filter (SignIn.live t)).map (SignIn.use raw t), e.live t = true := by
    intro e he
    obtain ⟨e', he', rfl⟩ := List.mem_map.mp he
    exact live_use (List.mem_filter.mp he').2
  unfold Tracks
  rw [h, touch_map_record htells.live, prune_map_record hall, List.filter_eq_self.mpr hall, hfilter]

theorem Tracks.pruned (h : Tracks digest entries sessions t) :
    Tracks digest entries (prune sessions t) t := by
  unfold Tracks
  rw [prune_prune (Int.le_refl t), h]

/-- What `Authenticate` finds is the record of a live entry with the presented secret. -/
theorem mem_of_found {s : State} {x : LocalSession} (h : Tracks digest entries s.sessions t)
    (htells : Tells digest raw entries)
    (hfound : found digest raw (touched digest raw t s) = some x) :
    ∃ e ∈ entries, e.live t = true ∧ e.issued.secret = raw ∧
      x = SignIn.record digest { e with lastUse := t } := by
  obtain ⟨hmem, hmatch⟩ := List.mem_filter.mp (List.mem_of_getLast? hfound)
  dsimp only [touched] at hmem
  rw [h, touch_map_record htells.live] at hmem
  obtain ⟨_, hused, rfl⟩ := List.mem_map.mp hmem
  obtain ⟨e, he, rfl⟩ := List.mem_map.mp hused
  obtain ⟨hentry, hlive⟩ := List.mem_filter.mp he
  have hissued : (e.use raw t).issued = e.issued := by
    unfold SignIn.use
    split
    · rfl
    · rfl
  have hsecret : e.issued.secret = raw := by
    refine htells e hentry ?_
    rw [← hissued]
    exact matches_record.mp hmatch
  exact ⟨e, hentry, hlive, hsecret, by rw [SignIn.use, if_pos hsecret]⟩

/-- `Authenticate` finds something when a live entry has the presented secret. -/
theorem found_of_mem {s : State} {e : SignIn} (h : Tracks digest entries s.sessions t)
    (htells : Tells digest raw entries) (he : e ∈ entries) (hlive : e.live t = true)
    (hsecret : e.issued.secret = raw) :
    ∃ x, found digest raw (touched digest raw t s) = some x := by
  have hmem : SignIn.record digest (e.use raw t) ∈
      (touched digest raw t s).sessions.filter (·.matches (digest.sum raw)) := by
    refine List.mem_filter.mpr ⟨?_, matches_record.mpr ?_⟩
    · dsimp only [touched]
      rw [h, touch_map_record htells.live]
      exact List.mem_map_of_mem (List.mem_map_of_mem (List.mem_filter.mpr ⟨he, hlive⟩))
    · rw [SignIn.use, if_pos hsecret, hsecret]
  unfold found
  exact ⟨_, List.getLast?_eq_some_getLast (List.ne_nil_of_mem hmem)⟩

end Entries

end Torkitten
