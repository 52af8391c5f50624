import Mathlib.Algebra.Order.BigOperators.Group.List
import Mathlib.Algebra.Order.Group.Nat
import Torkitten.Access.Login

/-!
# Login flows are single use

A factor session changes hands: the `Begin` call that obtained it puts it under a flow id, a `Complete`
call takes it from there, and whoever gives it up destroys it. Two counts are kept by every step. The
places at which a session is, its destructions included, stay at one. The places at which a flow id is,
its submissions included, do not exceed the number of times it was drawn.

## Main results

* `loginRun_singleUse`: in every run with distinct flow ids, each id is submitted at most once, in time
  and for the session and the owner of its `Begin`; at most 32 flows are held; and no session is lost,
  shared or destroyed twice.
-/

namespace Torkitten.Login

/-! ## Places -/

namespace Call

/-- The factor session that a call has. -/
def factors : Call → Option ℕ
  | .draw f | .keep f _ | .await f => some f
  | .check _ (some flow) | .verify _ flow => some flow.factors
  | _ => none

/-- The flow id that a call has and that was not submitted. -/
def flowID : Call → Option String
  | .keep _ id => some id
  | .check _ (some flow) | .verify _ flow => some flow.id
  | _ => none

/-- The call is a call of `Begin` that has a session. -/
def owns (f : ℕ) : Call → Bool
  | .draw g | .keep g _ => g == f
  | _ => false

/-- The call is a call of `Complete` that has a session. -/
def uses (f : ℕ) : Call → Bool
  | .check _ (some flow) | .verify _ flow => flow.factors == f
  | .await g => g == f
  | _ => false

/-- The call is about to keep its session under the flow id. -/
def keeps (id : String) : Call → Bool
  | .keep _ id' => id' == id
  | _ => false

end Call

namespace Event

def obtains (f : ℕ) : Event → Bool
  | .obtained _ g _ => g == f
  | _ => false

def destroys (f : ℕ) : Event → Bool
  | .destroyed g => g == f
  | _ => false

def draws (id : String) : Event → Bool
  | .drawn id' => id' == id
  | _ => false

def stores (id : String) : Event → Bool
  | .stored _ id' _ _ => id' == id
  | _ => false

def submits (id : String) : Event → Bool
  | .submitted _ id' _ _ => id' == id
  | _ => false

/-- The flow id that the random source gave. -/
def drawnID : Event → Option String
  | .drawn id => some id
  | _ => none

end Event

/-- The flow ids that were drawn in a run. -/
def drawnIDs (record : List (List Event)) : List String := record.flatten.filterMap Event.drawnID

/-! ## Moves -/

/-- What the step of call `i` from `c` to `c'` does. -/
inductive Move (t : Table) (i : ℕ) : Call → Table → Call → List Event → Prop where
  /-- A call without a session fails. -/
  | fails {c : Call} {err : GoError} (hfactors : c.factors = none) (hid : c.flowID = none) :
      Move t i c t (.failed err) []
  | obtains {owner : String} {password : List UInt8} :
      Move t i (.authenticate owner password) { t with sessions := t.sessions ++ [⟨owner, true⟩] }
        (.draw t.sessions.length) [.obtained i t.sessions.length owner]
  | draws {f : ℕ} {id : String} : Move t i (.draw f) t (.keep f id) [.drawn id]
  /-- A call gives its session up and fails. -/
  | drops {c : Call} {f : ℕ} {err : GoError} (hfactors : c.factors = some f) :
      Move t i c (t.destroy f) (.failed err) [.destroyed f]
  /-- There is no room for another flow. -/
  | full {f : ℕ} {id : String} {now : Time} {err : GoError} :
      Move t i (.keep f id) ((t.purge now).destroy f) (.failed err)
        (.destroyed f :: (t.expired now).map .destroyed)
  | stores {f : ℕ} {id : String} {now : Time} (hroom : (t.purge now).flows.length < 32) :
      Move t i (.keep f id) ((t.purge now).store ⟨id, f, now + 5 * minute⟩) (.began id)
        (.stored i id f now :: (t.expired now).map .destroyed)
  | takes {id token : String} :
      Move t i (.take id token) { t with flows := t.flows.filter fun flow => flow.id != id }
        (.check token (t.flows.find? fun flow => flow.id == id)) []
  | passes {token : String} {flow : Flow} {now : Time} (hnow : now < flow.expires) :
      Move t i (.check token (some flow)) t (.verify token flow) [.passed i flow.id now]
  | submits {token : String} {flow : Flow} {owner : String}
      (hsession : t.sessions[flow.factors]? = some ⟨owner, true⟩) :
      Move t i (.verify token flow) t (.await flow.factors) [.submitted i flow.id flow.factors owner]
  /-- The session has been destroyed. -/
  | panics {token : String} {flow : Flow}
      (hsession : ∀ owner, t.sessions[flow.factors]? ≠ some ⟨owner, true⟩) :
      Move t i (.verify token flow) (t.destroy flow.factors) .panicked [.destroyed flow.factors]
  | completes {f : ℕ} :
      Move t i (.await f) (t.destroy f) (.completed (t.ownerOf f)) [.destroyed f]

/-- Every step of a call is a move. -/
theorem Table.advance_move {t t' : Table} {i : ℕ} {c c' : Call} {reply : Reply} {es : List Event}
    (h : t.advance i c reply = some (t', c', es)) : Move t i c t' c' es := by
  unfold advance at h
  split at h
  next owner password status info =>
    split at h
    · cases h; exact .fails rfl rfl
    split at h
    · cases h; exact .fails rfl rfl
    split at h <;> cases h
    · exact .fails rfl rfl
    · exact .obtains
  next => cases h; exact .drops rfl
  next => cases h; exact .draws
  next f id now =>
    unfold keep at h
    dsimp only at h
    split at h <;> cases h
    · exact .full
    · next hroom => exact .stores (by omega)
  next => cases h; exact .takes
  next => cases h; exact .fails rfl rfl
  next =>
    split at h <;> cases h
    · next hnow => exact .passes hnow
    · exact .drops rfl
  next token flow =>
    split at h
    · cases h; exact .drops rfl
    · split at h <;> cases h
      · next hsession => exact .submits hsession
      · next hsession => exact .panics hsession
  next =>
    split at h <;> cases h
    · exact .completes
    · exact .drops rfl
  next => cases h

/-! ## Purging -/

namespace Table

variable {t : Table}

theorem flows_foldl_destroy (fs : List ℕ) : (fs.foldl destroy t).flows = t.flows := by
  induction fs generalizing t with
  | nil => rfl
  | cons f fs ih => exact ih

theorem length_foldl_destroy (fs : List ℕ) :
    (fs.foldl destroy t).sessions.length = t.sessions.length := by
  induction fs generalizing t with
  | nil => rfl
  | cons f fs ih => exact ih.trans (List.length_modify _ _ _)

theorem sessions_destroy_of_ne {f g : ℕ} (h : g ≠ f) : (t.destroy f).sessions[g]? = t.sessions[g]? := by
  simp [destroy, h.symm]

theorem sessions_foldl_destroy {fs : List ℕ} {g : ℕ} (h : g ∉ fs) :
    (fs.foldl destroy t).sessions[g]? = t.sessions[g]? := by
  induction fs generalizing t with
  | nil => rfl
  | cons f fs ih =>
    rw [List.mem_cons, not_or] at h
    exact (ih h.2).trans (sessions_destroy_of_ne h.1)

@[simp]
theorem flows_purge (now : Time) :
    (t.purge now).flows = t.flows.filter fun flow => decide (now < flow.expires) :=
  flows_foldl_destroy _

@[simp]
theorem length_sessions_purge (now : Time) : (t.purge now).sessions.length = t.sessions.length :=
  length_foldl_destroy _

@[simp]
theorem length_sessions_destroy (f : ℕ) : (t.destroy f).sessions.length = t.sessions.length :=
  List.length_modify _ _ _

end Table

/-! ## Where sessions are -/

/-- The number of flows under which a session is held. -/
def Table.holding (t : Table) (f : ℕ) : ℕ := t.flows.countP fun flow => flow.factors == f

/-- The number of flows under an id. -/
def Table.under (t : Table) (id : String) : ℕ := t.flows.countP fun flow => flow.id == id

/-- How often a call has a session. -/
def Call.has (c : Call) (f : ℕ) : ℕ := if c.factors = some f then 1 else 0

/-- How often a call has a flow id. -/
def Call.carries (c : Call) (id : String) : ℕ := if c.flowID = some id then 1 else 0

theorem Table.holding_purge (t : Table) (now : Time) (f : ℕ) :
    (t.purge now).holding f + ((t.expired now).map Event.destroyed).countP (Event.destroys f) =
      t.holding f := by
  have hexpired : ((t.expired now).map Event.destroyed).countP (Event.destroys f) =
      (t.flows.filter fun flow => !decide (now < flow.expires)).countP fun flow => flow.factors == f := by
    rw [expired, List.countP_map, List.countP_map]
    rfl
  rw [hexpired, holding, holding, flows_purge]
  exact (List.countP_eq_countP_filter_add t.flows _ fun flow => decide (now < flow.expires)).symm

theorem Table.under_purge_le (t : Table) (now : Time) (id : String) :
    (t.purge now).under id ≤ t.under id := by
  rw [under, under, flows_purge]
  exact List.Sublist.countP_le List.filter_sublist

theorem Table.under_store_le (t : Table) (flow : Flow) (id : String) :
    (t.store flow).under id ≤ t.under id + if flow.id = id then 1 else 0 := by
  rw [under, store, List.countP_cons]
  refine Nat.add_le_add (List.Sublist.countP_le List.filter_sublist) ?_
  exact Nat.le_of_eq (if_congr beq_iff_eq rfl rfl)

/-- No flow is overwritten if none has the id. -/
theorem Table.holding_store {t : Table} {flow : Flow} (h : t.under flow.id = 0) (f : ℕ) :
    (t.store flow).holding f = t.holding f + if flow.factors = f then 1 else 0 := by
  have hfresh : t.flows.filter (fun other => other.id != flow.id) = t.flows := by
    rw [List.filter_eq_self]
    intro other hother
    have hne := List.countP_eq_zero.mp h other hother
    rwa [bne, Bool.not_eq_true', ← Bool.not_eq_true]
  rw [holding, store, hfresh, List.countP_cons]
  exact congrArg (_ + ·) (if_congr beq_iff_eq rfl rfl)

/-- The flow found under an id is all that is removed with it. -/
theorem Table.holding_take {t : Table} {id : String} (h : t.under id ≤ 1) (f : ℕ) (token : String) :
    (Call.check token (t.flows.find? fun flow => flow.id == id)).has f +
      (t.flows.filter fun flow => flow.id != id).countP (fun flow => flow.factors == f) = t.holding f := by
  have hsplit := List.countP_eq_countP_filter_add t.flows (fun flow => flow.factors == f)
    fun flow => flow.id == id
  have hhead : (t.flows.filter fun flow => flow.id == id).head? =
      t.flows.find? fun flow => flow.id == id := List.head?_filter
  rw [under, List.countP_eq_length_filter] at h
  rw [holding, hsplit, ← hhead]
  refine congrArg (· + _) ?_
  generalize t.flows.filter (fun flow => flow.id == id) = found at h
  match found, h with
  | [], _ => rfl
  | [flow], _ =>
    rw [List.countP_singleton, List.head?_cons, Call.has]
    exact if_congr (by simp [Call.factors]) rfl rfl
  | _ :: _ :: _, h => simp at h

section Moves

variable {t t' : Table} {i : ℕ} {c c' : Call} {es : List Event}

theorem has_of_factors {g : ℕ} (h : c.factors = some g) (f : ℕ) :
    c.has f = if g = f then 1 else 0 := by
  rw [Call.has, h]
  exact if_congr Option.some_inj rfl rfl

theorem has_of_factors_eq_none (h : c.factors = none) (f : ℕ) : c.has f = 0 := by
  rw [Call.has, h]
  exact if_neg nofun

theorem countP_destroyed (f g : ℕ) (es : List Event) :
    (Event.destroyed g :: es).countP (Event.destroys f) =
      es.countP (Event.destroys f) + if g = f then 1 else 0 := by
  rw [List.countP_cons]
  exact congrArg (_ + ·) (if_congr beq_iff_eq rfl rfl)

theorem countP_map_destroyed {p : Event → Bool} (hp : ∀ g, p (.destroyed g) = false) (gs : List ℕ) :
    (gs.map Event.destroyed).countP p = 0 := by
  rw [List.countP_eq_zero]
  rintro e he
  obtain ⟨g, -, rfl⟩ := List.mem_map.mp he
  rw [hp]
  exact Bool.false_ne_true

/-- A session that is given up is destroyed. -/
theorem has_eq_of_destroy {g : ℕ} (hc : c.factors = some g) (hc' : c'.factors = none) (f : ℕ)
    (es : List Event) :
    c'.has f + (t.destroy g).holding f + (Event.destroyed g :: es).countP (Event.destroys f) =
      c.has f + t.holding f + es.countP (Event.destroys f) := by
  have hholding : (t.destroy g).holding f = t.holding f := rfl
  rw [has_of_factors hc, has_of_factors_eq_none hc', countP_destroyed, hholding]
  omega

/-- A step moves sessions, and only the sessions that are obtained are new. -/
theorem Move.has_eq (h : Move t i c t' c' es) (hone : ∀ id, t.under id + c.carries id ≤ 1) (f : ℕ) :
    c'.has f + t'.holding f + es.countP (Event.destroys f) =
      c.has f + t.holding f + es.countP (Event.obtains f) := by
  cases h with
  | fails hfactors hid =>
    rw [has_of_factors_eq_none hfactors, has_of_factors_eq_none rfl]
    rfl
  | obtains =>
    rw [has_of_factors rfl, has_of_factors_eq_none (c := .authenticate _ _) rfl, List.countP_singleton,
      List.countP_singleton]
    simp only [Event.obtains, Event.destroys, beq_iff_eq, Table.holding, Bool.false_eq_true, if_false]
    omega
  | draws => rfl
  | drops hfactors => exact has_eq_of_destroy hfactors rfl f []
  | @full g id now err =>
    have hpurge := t.holding_purge now f
    have hgiven : (Call.failed err).has f + ((t.purge now).destroy g).holding f +
        (Event.destroyed g :: (t.expired now).map Event.destroyed).countP (Event.destroys f) =
        (Call.keep g id).has f + (t.purge now).holding f +
          ((t.expired now).map Event.destroyed).countP (Event.destroys f) :=
      has_eq_of_destroy rfl rfl f _
    have hobtains : (Event.destroyed g :: (t.expired now).map Event.destroyed).countP (Event.obtains f) = 0 :=
      countP_map_destroyed (fun _ => rfl) (g :: t.expired now)
    omega
  | @stores g id now hroom =>
    have hpurge := t.holding_purge now f
    have hunder := t.under_purge_le now id
    have hcarries : (Call.keep g id).carries id = 1 := if_pos rfl
    -- no other flow has the id, so that none is overwritten
    have hzero : (t.purge now).under id = 0 := by have := hone id; omega
    have hholding : ((t.purge now).store ⟨id, g, now + 5 * minute⟩).holding f =
        (t.purge now).holding f + if g = f then 1 else 0 := Table.holding_store hzero f
    have hobtains : (Event.stored i id g now :: (t.expired now).map Event.destroyed).countP
        (Event.obtains f) = 0 :=
      (List.countP_cons_of_neg Bool.false_ne_true).trans (countP_map_destroyed (fun _ => rfl) _)
    rw [hobtains, has_of_factors (c := .keep g id) rfl, has_of_factors_eq_none (c := .began id) rfl,
      List.countP_cons_of_neg Bool.false_ne_true]
    omega
  | @takes id token =>
    have htake := t.holding_take (Nat.le_trans (Nat.le_add_right _ _) (hone id)) f token
    rw [has_of_factors_eq_none (c := .take id token) rfl]
    rw [Nat.zero_add]
    exact htake
  | passes => rfl
  | submits => rfl
  | panics => exact has_eq_of_destroy rfl rfl f []
  | completes => exact has_eq_of_destroy rfl rfl f []

theorem carries_of_flowID {v : String} (h : c.flowID = some v) (id : String) :
    c.carries id = if v = id then 1 else 0 := by
  rw [Call.carries, h]
  exact if_congr Option.some_inj rfl rfl

theorem carries_of_flowID_eq_none (h : c.flowID = none) (id : String) : c.carries id = 0 := by
  rw [Call.carries, h]
  exact if_neg nofun

/-- Taking a flow takes its id out of the table. -/
theorem Table.under_take (t : Table) (id token v : String) :
    (Call.check token (t.flows.find? fun flow => flow.id == v)).carries id +
      (t.flows.filter fun flow => flow.id != v).countP (fun flow => flow.id == id) ≤ t.under id := by
  have hsplit := List.countP_eq_countP_filter_add t.flows (fun flow => flow.id == id)
    fun flow => flow.id == v
  rw [under, hsplit]
  refine Nat.add_le_add_right ?_ _
  cases hfound : t.flows.find? fun flow => flow.id == v with
  | none => 
    rw [carries_of_flowID_eq_none rfl]
    exact Nat.zero_le _
  | some flow =>
    rw [carries_of_flowID rfl]
    split
    next hid =>
      refine List.countP_pos_iff.mpr ⟨flow, ?_, beq_iff_eq.mpr hid⟩
      exact List.mem_filter.mpr ⟨List.mem_of_find?_eq_some hfound, List.find?_some (p := fun flow : Flow => flow.id == v) hfound⟩
    next => exact Nat.zero_le _

/-- A step moves flow ids, and only the ids that are drawn are new. -/
theorem Move.carries_le (h : Move t i c t' c' es) (id : String) :
    c'.carries id + t'.under id + es.countP (Event.submits id) ≤
      c.carries id + t.under id + es.countP (Event.draws id) := by
  have hdestroyed : ∀ gs : List ℕ, (gs.map Event.destroyed).countP (Event.submits id) = 0 :=
    countP_map_destroyed fun _ => rfl
  -- a call that ends takes its id with it
  have hend : ∀ {c c' : Call}, c'.flowID = none → c'.carries id + t.under id ≤ c.carries id + t.under id :=
    fun h => by rw [carries_of_flowID_eq_none h]; omega
  cases h with
  | fails => exact hend rfl
  | obtains => exact Nat.le_refl _
  | @draws f v =>
    rw [carries_of_flowID (c := .keep f v) rfl, List.countP_singleton, List.countP_singleton]
    simp only [Event.draws, Event.submits, beq_iff_eq, Bool.false_eq_true, if_false]
    omega
  | drops => exact hend rfl
  | @full g v now err =>
    have hunder := t.under_purge_le now id
    have hended : (Call.failed err).carries id + t.under id ≤ (Call.keep g v).carries id + t.under id :=
      hend rfl
    have hsame : ((t.purge now).destroy g).under id = (t.purge now).under id := rfl
    have hsubmits := hdestroyed (g :: t.expired now)
    rw [List.map_cons] at hsubmits
    omega
  | @stores g v now hroom =>
    have hunder := t.under_purge_le now id
    have hstored := (t.purge now).under_store_le ⟨v, g, now + 5 * minute⟩ id
    dsimp only at hstored
    rw [carries_of_flowID (c := .keep g v) rfl, carries_of_flowID_eq_none (c := .began v) rfl,
      List.countP_cons_of_neg Bool.false_ne_true, hdestroyed]
    omega
  | @takes v token => exact Nat.le_trans (t.under_take id token v) (Nat.le_add_left _ _)
  | passes => exact Nat.le_refl _
  | @submits token flow owner hsession =>
    rw [carries_of_flowID (c := .verify token flow) rfl,
      carries_of_flowID_eq_none (c := .await flow.factors) rfl, List.countP_singleton,
      List.countP_singleton]
    simp only [Event.draws, Event.submits, beq_iff_eq, Bool.false_eq_true, if_false]
    omega
  | panics => exact hend rfl
  | completes => exact Nat.le_refl _

/-- A flow id is stored by the call that drew it. -/
theorem Move.keeps_le (h : Move t i c t' c' es) (id : String) :
    (if c'.keeps id then 1 else 0) + es.countP (Event.stores id) ≤
      (if c.keeps id then 1 else 0) + es.countP (Event.draws id) := by
  have hdestroyed : ∀ gs : List ℕ, (gs.map Event.destroyed).countP (Event.stores id) = 0 :=
    countP_map_destroyed fun _ => rfl
  cases h with
  | @draws f v => by_cases hv : v = id <;> simp [Call.keeps, Event.draws, Event.stores, hv]
  | @full g v now err =>
    have hstores := hdestroyed (g :: t.expired now)
    rw [List.map_cons] at hstores
    rw [hstores]
    exact Nat.zero_le _
  | @stores g v now hroom =>
    rw [List.countP_cons, hdestroyed]
    by_cases hv : v = id <;> simp [Call.keeps, Event.stores, hv]
  | _ => exact Nat.zero_le _

theorem Move.obtains_eq (h : Move t i c t' c' es) (f : ℕ) :
    (if f < t'.sessions.length then 1 else 0) =
      (if f < t.sessions.length then 1 else 0) + es.countP (Event.obtains f) := by
  have hdestroyed : ∀ gs : List ℕ, (gs.map Event.destroyed).countP (Event.obtains f) = 0 :=
    countP_map_destroyed fun _ => rfl
  cases h with
  | obtains =>
    rw [List.countP_singleton, List.length_append, List.length_singleton]
    simp only [Event.obtains, beq_iff_eq]
    split <;> split <;> split <;> omega
  | drops | panics | completes =>
    rw [Table.length_sessions_destroy]
    rfl
  | @full g v now err =>
    have hobtains := hdestroyed (g :: t.expired now)
    rw [List.map_cons] at hobtains
    rw [hobtains, Table.length_sessions_destroy, Table.length_sessions_purge, Nat.add_zero]
  | @stores g v now hroom =>
    rw [List.countP_cons_of_neg Bool.false_ne_true, hdestroyed]
    change (if f < (t.purge now).sessions.length then 1 else 0) = _
    rw [Table.length_sessions_purge, Nat.add_zero]
  | _ => rfl

/-- Every flow is in the table already or put there by this step. -/
theorem Move.mem_flows (h : Move t i c t' c' es) {flow : Flow} (hflow : flow ∈ t'.flows) :
    flow ∈ t.flows ∨ ∃ now, c = .keep flow.factors flow.id ∧ flow.expires = now + 5 * minute ∧
      Event.stored i flow.id flow.factors now ∈ es := by
  cases h with
  | @full g v now err =>
    change flow ∈ (t.purge now).flows at hflow
    rw [Table.flows_purge] at hflow
    exact .inl (List.mem_filter.mp hflow).1
  | @stores g v now hroom =>
    rcases List.mem_cons.mp hflow with rfl | hflow
    · exact .inr ⟨now, rfl, rfl, List.mem_cons_self⟩
    · rw [Table.flows_purge] at hflow
      exact .inl (List.mem_filter.mp (List.mem_filter.mp hflow).1).1
  | takes => exact .inl (List.mem_filter.mp hflow).1
  | _ => exact .inl hflow

theorem Move.room (h : Move t i c t' c' es) (hroom : t.flows.length ≤ 32) : t'.flows.length ≤ 32 := by
  cases h with
  | @full g v now err =>
    change (t.purge now).flows.length ≤ 32
    rw [Table.flows_purge]
    exact Nat.le_trans (List.length_filter_le _ _) hroom
  | stores hspace =>
    exact Nat.succ_le_of_lt (Nat.lt_of_le_of_lt (List.length_filter_le _ _) hspace)
  | takes => exact Nat.le_trans (List.length_filter_le _ _) hroom
  | _ => exact hroom

/-- A session stays as it is until it is destroyed. -/
theorem Move.sessions_eq (h : Move t i c t' c' es) {f : ℕ} (hf : f < t.sessions.length)
    (hnot : Event.destroyed f ∉ es) : t'.sessions[f]? = t.sessions[f]? := by
  have hne : ∀ {g}, Event.destroyed g ∈ es → f ≠ g := by
    rintro g hg rfl
    exact hnot hg
  cases h with
  | obtains => exact List.getElem?_append_left hf
  | drops | panics | completes => exact Table.sessions_destroy_of_ne (hne List.mem_cons_self)
  | @full g v now err =>
    rw [Table.sessions_destroy_of_ne (hne List.mem_cons_self)]
    exact Table.sessions_foldl_destroy fun hmem =>
      hnot (List.mem_cons_of_mem _ (List.mem_map_of_mem hmem))
  | @stores g v now hroom =>
    exact Table.sessions_foldl_destroy fun hmem =>
      hnot (List.mem_cons_of_mem _ (List.mem_map_of_mem hmem))
  | _ => rfl

end Moves

/-! ## What every state satisfies -/

/-- The flow was stored by the `Begin` call that obtained its session. -/
def Stored (history : List Event) (flow : Flow) : Prop :=
  ∃ i owner began, Event.obtained i flow.factors owner ∈ history ∧
    Event.stored i flow.id flow.factors began ∈ history ∧ flow.expires = began + 5 * minute

/-- What a call has done until it came to where it stands. -/
def Sound (history : List Event) (k : ℕ) : Call → Prop
  | .draw f | .keep f _ => ∃ owner, .obtained k f owner ∈ history
  | .check _ (some flow) => Stored history flow
  | .verify _ flow => Stored history flow ∧
      ∃ now, Event.passed k flow.id now ∈ history ∧ now < flow.expires
  | .await f => ∃ id owner j, Event.submitted k id f owner ∈ history ∧ Event.obtained j f owner ∈ history
  | .completed owner => ∃ id f, Event.submitted k id f owner ∈ history
  | .panicked => False
  | _ => True

/-- A submission is made in time and for the session and the owner of the `Begin` call that stored the
flow. -/
def Justified (history : List Event) (k : ℕ) (id : String) (f : ℕ) (owner : String) : Prop :=
  ∃ i began now, Event.obtained i f owner ∈ history ∧ Event.stored i id f began ∈ history ∧
    Event.passed k id now ∈ history ∧ now < began + 5 * minute

theorem Stored.mono {history history' : List Event} {flow : Flow} (h : Stored history flow)
    (hsub : history ⊆ history') : Stored history' flow := by
  obtain ⟨i, owner, began, hobtained, hstored, hexpires⟩ := h
  exact ⟨i, owner, began, hsub hobtained, hsub hstored, hexpires⟩

theorem Sound.mono {history history' : List Event} {k : ℕ} {c : Call} (h : Sound history k c)
    (hsub : history ⊆ history') : Sound history' k c := by
  cases c with
  | draw f | keep f id => exact h.imp fun _ h => hsub h
  | check token flow =>
    cases flow with
    | none => trivial
    | some flow => exact Stored.mono h hsub
  | verify token flow => exact ⟨h.1.mono hsub, h.2.imp fun _ h => ⟨hsub h.1, h.2⟩⟩
  | await f =>
    obtain ⟨id, owner, j, hsubmitted, hobtained⟩ := h
    exact ⟨id, owner, j, hsub hsubmitted, hsub hobtained⟩
  | completed owner => exact h.imp fun _ h => h.imp fun _ h => hsub h
  | panicked => exact h
  | _ => trivial

/-- The state and the history of a run agree. -/
structure Inv (history : List Event) (s : System) : Prop where
  custody : ∀ f, (s.calls.map (Call.has · f)).sum + s.table.holding f +
    history.countP (Event.destroys f) = if f < s.table.sessions.length then 1 else 0
  obtained : ∀ f, history.countP (Event.obtains f) = if f < s.table.sessions.length then 1 else 0
  submitted : ∀ id, (s.calls.map (Call.carries · id)).sum + s.table.under id +
    history.countP (Event.submits id) ≤ history.countP (Event.draws id)
  stored : ∀ id, (s.calls.map fun c => if c.keeps id then 1 else 0).sum +
    history.countP (Event.stores id) ≤ history.countP (Event.draws id)
  flows : ∀ flow ∈ s.table.flows, Stored history flow
  calls : ∀ k c, s.calls[k]? = some c → Sound history k c
  live : ∀ i f owner, .obtained i f owner ∈ history → .destroyed f ∉ history →
    s.table.sessions[f]? = some ⟨owner, true⟩
  room : s.table.flows.length ≤ 32

/-- One of many calls goes on. -/
theorem sum_map_set {α : Type} {l : List α} {i : ℕ} {a : α} (h : l[i]? = some a) (b : α) (g : α → ℕ) :
    ((l.set i b).map g).sum + g a = (l.map g).sum + g b := by
  induction l generalizing i with
  | nil => simp at h
  | cons x l ih =>
    cases i with
    | zero =>
      cases h
      simp only [List.set_cons_zero, List.map_cons, List.sum_cons]
      omega
    | succ i =>
      have hrest := ih (by simpa using h)
      simp only [List.set_cons_succ, List.map_cons, List.sum_cons]
      omega

theorem le_sum_map {α : Type} {l : List α} {i : ℕ} {a : α} (h : l[i]? = some a) (g : α → ℕ) :
    g a ≤ (l.map g).sum :=
  List.le_sum_of_mem (List.mem_map_of_mem (List.mem_of_getElem? h))

namespace Inv

variable {history es : List Event} {s : System} {t' : Table} {i : ℕ} {c c' : Call}

/-- A session that a call has was not destroyed. -/
theorem notMem_destroyed (h : Inv history s) (hc : s.calls[i]? = some c) {f : ℕ}
    (hf : c.factors = some f) : Event.destroyed f ∉ history := by
  intro hmem
  have hhas : c.has f = 1 := if_pos hf
  have hle := le_sum_map hc (Call.has · f)
  have hpos : 0 < history.countP (Event.destroys f) :=
    List.countP_pos_iff.mpr ⟨_, hmem, beq_self_eq_true f⟩
  have hone := h.custody f
  split at hone <;> omega

/-- A flow that a call has belongs to a session that is alive. -/
theorem session_of_stored (h : Inv history s) (hc : s.calls[i]? = some c) {flow : Flow}
    (hf : c.factors = some flow.factors) (hstored : Stored history flow) :
    ∃ j owner began, s.table.sessions[flow.factors]? = some ⟨owner, true⟩ ∧
      Event.obtained j flow.factors owner ∈ history ∧
      Event.stored j flow.id flow.factors began ∈ history ∧ flow.expires = began + 5 * minute := by
  obtain ⟨j, owner, began, hobtained, hstored, hexpires⟩ := hstored
  exact ⟨j, owner, began, h.live j _ owner hobtained (h.notMem_destroyed hc hf), hobtained, hstored,
    hexpires⟩

/-- The submissions of a step. -/
theorem justified (h : Inv history s) (hc : s.calls[i]? = some c)
    (hmove : Move s.table i c t' c' es) {k : ℕ} {id : String} {f : ℕ} {owner : String}
    (hsubmitted : Event.submitted k id f owner ∈ es) : Justified history k id f owner := by
  cases hmove with
  | @submits token flow owner' hsession =>
    cases List.mem_singleton.mp hsubmitted
    obtain ⟨hflow, now, hpassed, hnow⟩ := h.calls i _ hc
    obtain ⟨j, owner', began, hlive, hobtained, hstored, hexpires⟩ := h.session_of_stored hc rfl hflow
    cases hsession.symm.trans hlive
    exact ⟨j, began, now, hobtained, hstored, hpassed, hexpires ▸ hnow⟩
  | _ => simp at hsubmitted

/-- A call that goes on is where its past has led it. -/
theorem sound (h : Inv history s) (hc : s.calls[i]? = some c) (hmove : Move s.table i c t' c' es) :
    Sound (es ++ history) i c' := by
  have hsound := h.calls i c hc
  cases hmove with
  | fails | drops | full | stores => trivial
  | @obtains owner => exact ⟨owner, List.mem_cons_self⟩
  | draws => exact hsound.imp fun _ h => List.mem_append_right _ h
  | @takes id token =>
    cases hfound : s.table.flows.find? fun flow => flow.id == id with
    | none => trivial
    | some flow => exact h.flows flow (List.mem_of_find?_eq_some hfound)
  | @passes token flow now hnow =>
    exact ⟨Stored.mono hsound (List.subset_append_right _ _), now, List.mem_cons_self, hnow⟩
  | @submits token flow owner hsession =>
    obtain ⟨j, owner', began, hlive, hobtained, -⟩ := h.session_of_stored hc rfl hsound.1
    cases hsession.symm.trans hlive
    exact ⟨flow.id, owner, j, List.mem_cons_self, List.mem_append_right _ hobtained⟩
  | panics hsession =>
    obtain ⟨j, owner, began, hlive, -⟩ := h.session_of_stored hc rfl hsound.1
    exact hsession owner hlive
  | @completes f =>
    obtain ⟨id, owner, j, hsubmitted, hobtained⟩ := hsound
    have hlive := h.live j f owner hobtained (h.notMem_destroyed hc rfl)
    rw [Table.ownerOf, hlive]
    exact ⟨id, f, List.mem_append_right _ hsubmitted⟩

/-- A call goes on. -/
theorem move (h : Inv history s) (hc : s.calls[i]? = some c) (hmove : Move s.table i c t' c' es)
    (hdraws : ∀ id, history.countP (Event.draws id) ≤ 1) :
    Inv (es ++ history) { table := t', calls := s.calls.set i c' } where
  custody f := by
    have hone : ∀ id, s.table.under id + c.carries id ≤ 1 := by
      intro id
      have hle := le_sum_map hc (Call.carries · id)
      have hsubmitted := h.submitted id
      have hdrawn := hdraws id
      omega
    have hset := sum_map_set hc c' (Call.has · f)
    have hmoved := hmove.has_eq hone f
    have hbefore := h.custody f
    have hlength := hmove.obtains_eq f
    rw [List.countP_append]
    dsimp only
    omega
  obtained f := by
    have hbefore := h.obtained f
    have hlength := hmove.obtains_eq f
    rw [List.countP_append]
    dsimp only
    omega
  submitted id := by
    have hset := sum_map_set hc c' (Call.carries · id)
    have hmoved := hmove.carries_le id
    have hbefore := h.submitted id
    rw [List.countP_append, List.countP_append]
    dsimp only
    omega
  stored id := by
    have hset := sum_map_set hc c' fun c => if c.keeps id then 1 else 0
    have hmoved := hmove.keeps_le id
    have hbefore := h.stored id
    rw [List.countP_append, List.countP_append]
    dsimp only
    omega
  flows flow hflow := by
    rcases hmove.mem_flows hflow with hold | ⟨now, rfl, hexpires, hstored⟩
    · exact (h.flows flow hold).mono (List.subset_append_right _ _)
    · obtain ⟨owner, hobtained⟩ := h.calls i _ hc
      exact ⟨i, owner, now, List.mem_append_right _ hobtained, List.mem_append_left _ hstored, hexpires⟩
  calls k d hd := by
    rw [List.getElem?_set] at hd
    split at hd
    next hik =>
      subst hik
      split at hd <;> cases hd
      exact h.sound hc hmove
    next => exact (h.calls k d hd).mono (List.subset_append_right _ _)
  live j f owner hobtained hnot := by
    rw [List.mem_append, not_or] at hnot
    rcases List.mem_append.mp hobtained with hnew | hold
    · cases hmove with
      | obtains =>
        cases List.mem_singleton.mp hnew
        exact List.getElem?_concat_length
      | _ => simp at hnew
    · have hlive := h.live j f owner hold hnot.2
      rw [← hlive]
      exact hmove.sessions_eq (List.getElem?_eq_some_iff.mp hlive).1 hnot.1
  room := hmove.room h.room

/-- Another call is made. -/
theorem call (h : Inv history s) (hfactors : c.factors = none) (hid : c.flowID = none)
    (hkeeps : ∀ id, c.keeps id = false) (hsound : ∀ k, Sound history k c) :
    Inv history { s with calls := s.calls ++ [c] } where
  custody f := by
    rw [List.map_append, List.sum_append, List.map_singleton, List.sum_singleton,
      has_of_factors_eq_none hfactors]
    exact h.custody f
  obtained := h.obtained
  submitted id := by
    rw [List.map_append, List.sum_append, List.map_singleton, List.sum_singleton,
      carries_of_flowID_eq_none hid]
    exact h.submitted id
  stored id := by
    rw [List.map_append, List.sum_append, List.map_singleton, List.sum_singleton, hkeeps]
    exact h.stored id
  flows := h.flows
  calls k d hd := by
    rw [List.getElem?_append] at hd
    split at hd
    · exact h.calls k d hd
    · rw [List.getElem?_singleton] at hd
      split at hd <;> cases hd
      exact hsound k
  live := h.live
  room := h.room

end Inv

/-! ## The result -/

namespace System

/-- The number of `Begin` calls that own a session. -/
def owning (s : System) (f : ℕ) : ℕ := s.calls.countP (Call.owns f)

/-- The number of flow ids under which a session is held. -/
def holding (s : System) (f : ℕ) : ℕ := s.table.holding f

/-- The number of `Complete` calls that use a session. -/
def inUse (s : System) (f : ℕ) : ℕ := s.calls.countP (Call.uses f)

end System

/-- What holds of the flows and sessions of a run. -/
structure SingleUse (record : List (List Event)) (s : System) : Prop where
  /-- No flow id is submitted twice. -/
  once : ∀ id, record.flatten.countP (Event.submits id) ≤ 1
  /-- A submission is made in time, and for the session and the owner of the `Begin` call that stored
  the flow. -/
  justified : ∀ es earlier, (es :: earlier) <:+ record → ∀ k id f owner,
    Event.submitted k id f owner ∈ es → Justified earlier.flatten k id f owner
  /-- There is one such `Begin` call only. -/
  origin : ∀ id, record.flatten.countP (Event.stores id) ≤ 1
  /-- `Complete` returns the owner it was submitted for. -/
  answer : ∀ k owner, s.calls[k]? = some (.completed owner) →
    ∃ id f, Event.submitted k id f owner ∈ record.flatten
  room : s.table.flows.length ≤ 32
  /-- A session is at one place, and destroyed once it is nowhere else. -/
  custody : ∀ i f owner, Event.obtained i f owner ∈ record.flatten →
    s.owning f + s.holding f + s.inUse f + record.flatten.countP (Event.destroys f) = 1
  /-- Only the `Begin` call that obtained a session owns it. -/
  owner : ∀ i f owner, Event.obtained i f owner ∈ record.flatten →
    ∀ k c, s.calls[k]? = some c → c.owns f = true → k = i
  /-- A destroyed session is not used. -/
  unbroken : ∀ k : ℕ, s.calls[k]? ≠ some .panicked

/-- A call that has a session owns it or uses it. -/
theorem sum_has (calls : List Call) (f : ℕ) :
    (calls.map (Call.has · f)).sum = calls.countP (Call.owns f) + calls.countP (Call.uses f) := by
  induction calls with
  | nil => rfl
  | cons c calls ih =>
    have hone : c.has f = (if c.owns f then 1 else 0) + if c.uses f then 1 else 0 := by
      rcases c with _ | _ | _ | _ | ⟨_, _ | _⟩ | _ | _ | _ | _ | _ | _ <;>
        simp [Call.has, Call.factors, Call.owns, Call.uses]
    rw [List.map_cons, List.sum_cons, List.countP_cons, List.countP_cons, ih, hone]
    omega

theorem countP_draws (history : List Event) (id : String) :
    history.countP (Event.draws id) = (history.filterMap Event.drawnID).count id := by
  rw [List.count, List.countP_filterMap]
  congr 1
  funext e
  cases e <;> rfl

theorem eq_of_countP_le_one {α : Type} {p : α → Bool} {l : List α} (h : l.countP p ≤ 1) {a b : α}
    (ha : a ∈ l) (hb : b ∈ l) (hpa : p a = true) (hpb : p b = true) : a = b := by
  rw [List.countP_eq_length_filter] at h
  have ha := List.mem_filter.mpr ⟨ha, hpa⟩
  have hb := List.mem_filter.mpr ⟨hb, hpb⟩
  generalize l.filter p = found at h ha hb
  match found, h with
  | [x], _ => rw [List.mem_singleton.mp ha, List.mem_singleton.mp hb]
  | _ :: _ :: _, h => simp at h

/-- One step of a run. -/
theorem Inv.step {history es : List Event} {s s' : System} {l : Label} (h : Inv history s)
    (hdraws : ∀ id, history.countP (Event.draws id) ≤ 1) (hstep : s.step l = some (s', es)) :
    Inv (es ++ history) s' ∧ ∀ k id f owner, Event.submitted k id f owner ∈ es →
      Justified history k id f owner := by
  cases l with
  | callBegin owner password =>
    cases hstep
    exact ⟨h.call rfl rfl (fun _ => rfl) fun _ => trivial, nofun⟩
  | callComplete id token =>
    cases hstep
    exact ⟨h.call rfl rfl (fun _ => rfl) fun _ => trivial, nofun⟩
  | act i reply =>
    obtain ⟨c, hc, hadvance⟩ := Option.bind_eq_some_iff.mp hstep
    obtain ⟨⟨t', c', es⟩, hadvance, heq⟩ := Option.map_eq_some_iff.mp hadvance
    cases heq
    have hmove := Table.advance_move hadvance
    exact ⟨h.move hc hmove hdraws, fun k id f owner => h.justified hc hmove⟩

theorem LoginRun.inv {record : List (List Event)} {s : System} (h : LoginRun record s) :
    (drawnIDs record).Nodup → Inv record.flatten s ∧ ∀ es earlier, (es :: earlier) <:+ record →
      ∀ k id f owner, Event.submitted k id f owner ∈ es → Justified earlier.flatten k id f owner := by
  refine Run.invariant (I := fun record s => (drawnIDs record).Nodup → Inv record.flatten s ∧
    ∀ es earlier, (es :: earlier) <:+ record → ∀ k id f owner, Event.submitted k id f owner ∈ es →
      Justified earlier.flatten k id f owner) ?_ ?_ h
  · rintro s rfl -
    exact ⟨⟨fun _ => rfl, fun _ => rfl, fun _ => Nat.le_refl _, fun _ => Nat.le_refl _, nofun, nofun,
      nofun, Nat.zero_le _⟩, fun _ _ hsuffix => absurd (List.suffix_nil.mp hsuffix) nofun⟩
  · rintro record s es s' ih ⟨l, hstep⟩ hnodup
    have hsplit : drawnIDs (es :: record) = es.filterMap Event.drawnID ++ drawnIDs record :=
      List.filterMap_append
    rw [hsplit] at hnodup
    have hrest := (List.nodup_append.mp hnodup).2.1
    obtain ⟨hinv, hjustified⟩ := ih hrest
    have hdraws : ∀ id, record.flatten.countP (Event.draws id) ≤ 1 := by
      intro id
      rw [countP_draws]
      exact List.nodup_iff_count_le_one.mp hrest id
    obtain ⟨hinv', hnew⟩ := hinv.step hdraws hstep
    refine ⟨hinv', fun es' earlier hsuffix => ?_⟩
    rcases List.suffix_cons_iff.mp hsuffix with heq | hold
    · cases heq
      exact hnew
    · exact hjustified es' earlier hold

/-- Login flows are single use, and no factor session is lost. -/
theorem loginRun_singleUse {record : List (List Event)} {s : System} (h : LoginRun record s)
    (hfresh : (drawnIDs record).Nodup) : SingleUse record s := by
  obtain ⟨hinv, hjustified⟩ := h.inv hfresh
  have hdraws : ∀ id, record.flatten.countP (Event.draws id) ≤ 1 := by
    intro id
    rw [countP_draws]
    exact List.nodup_iff_count_le_one.mp hfresh id
  have hobtained : ∀ {i f owner}, Event.obtained i f owner ∈ record.flatten →
      record.flatten.countP (Event.obtains f) = 1 ∧ f < s.table.sessions.length := by
    intro i f owner hmem
    have hpos : 0 < record.flatten.countP (Event.obtains f) :=
      List.countP_pos_iff.mpr ⟨_, hmem, beq_self_eq_true f⟩
    have hcount := hinv.obtained f
    split at hcount
    next hlt => exact ⟨hcount, hlt⟩
    next => omega
  refine ⟨fun id => ?_, hjustified, fun id => ?_, fun k owner hk => hinv.calls k _ hk, hinv.room,
    fun i f owner hmem => ?_, fun i f owner hmem k c hc howns => ?_, fun k hk => hinv.calls k _ hk⟩
  · exact Nat.le_trans (Nat.le_trans (Nat.le_add_left _ _) (hinv.submitted id)) (hdraws id)
  · exact Nat.le_trans (Nat.le_trans (Nat.le_add_left _ _) (hinv.stored id)) (hdraws id)
  · have hcustody := hinv.custody f
    rw [sum_has, if_pos (hobtained hmem).2] at hcustody
    rw [System.owning, System.holding, System.inUse]
    omega
  · -- the call that owns the session has obtained it, and it was obtained once
    have hsound : ∃ owner, Event.obtained k f owner ∈ record.flatten := by
      have hsound := hinv.calls k c hc
      rcases c with _ | g | ⟨g, _⟩ | _ | ⟨_, _ | _⟩ | _ | _ | _ | _ | _ | _ <;> try cases howns
      all_goals
        cases beq_iff_eq.mp howns
        exact hsound
    obtain ⟨owner', hmem'⟩ := hsound
    have heq := eq_of_countP_le_one (Nat.le_of_eq (hobtained hmem).1) hmem' hmem (beq_self_eq_true f)
      (beq_self_eq_true f)
    cases heq
    rfl

/-- The flow id of the sample. -/
def sampleID : String := base64Encode (List.replicate 32 0)

/-- A login that succeeds, and another attempt with the same flow id. -/
def sampleLabels : List Label :=
  [.act 2 .ok, .act 2 .ok, .callComplete sampleID "123456", .act 1 (.code (some "OK")), .act 1 .ok,
    .act 1 (.clock 7), .act 1 .ok, .callComplete sampleID "123456", .act 0 (.clock 5),
    .act 0 (.random (.ok (List.replicate 32 0))), .act 0 (.password (some "OK") (some ("OK", true))),
    .callBegin "owner" [1]]

/-- What is observed of the sample. -/
def sampleRecord : List (List Event) :=
  [[], [], [], [.destroyed 0], [.submitted 1 sampleID 0 "owner"], [.passed 1 sampleID 7], [], [],
    [.stored 0 sampleID 0 5], [.drawn sampleID], [.obtained 0 0 "owner"], []]

/-- Where the sample ends. -/
def sampleEnd : System where
  table := { flows := [], sessions := [⟨"", false⟩] }
  calls := [.began sampleID, .completed "owner", authenticationFailed]

theorem sampleRecord_singleUse : LoginRun sampleRecord sampleEnd ∧ SingleUse sampleRecord sampleEnd := by
  have hfollow : follow System.step newLogin sampleLabels = some (sampleRecord, sampleEnd) := by
    decide +kernel
  have hrun : LoginRun sampleRecord sampleEnd :=
    Run.of_follow rfl (fun s l s' out h => ⟨l, h⟩) hfollow
  exact ⟨hrun, loginRun_singleUse hrun (by decide)⟩

end Torkitten.Login
