import Mathlib.Tactic.Linarith
import Mathlib.Tactic.Ring
import Torkitten.Access.Token

/-!
# The rate limit of agent tokens

Each call of `Authorize` reads the clock before it takes the lock of the limiter, so that the calls
of `allow` for a token may carry time stamps in any order, and a refill may be negative. What the
limiter decides depends on the level of a bucket less the time of its last call, its potential: a
call never raises it, an admitted call lowers it by one call, and it is bounded from above and from
below at an admitted call by the time stamp of the call.

## Main results

* `allowed_rate_limited`: in every interval of time stamps at most twenty calls are admitted, and one
  more for each second; and a call that is denied changes no later answer.
-/

namespace Torkitten

open Proc

/-- A sequence of calls of `allow`, each with an id and a time stamp, and the answers. -/
def allowAll : List (String × Time) → Op (List Bool)
  | [] => return []
  | (id, now) :: calls => do
    let admits ← allow id now
    let rest ← allowAll calls
    return admits :: rest

/-- The call is for the id and has a time stamp from `a` to `b`. -/
def counts (id : String) (a b : Time) (call : String × Time) : Bool :=
  call.1 == id && decide (a ≤ call.2) && decide (call.2 ≤ b)

/-- The number of such calls that were admitted. -/
def admittedWithin (id : String) (a b : Time) (calls : List (String × Time)) (answers : List Bool) : ℕ :=
  (calls.zip answers).countP fun (call, admits) => admits && counts id a b call

/-! ## The potential of a bucket -/

/-- The level of a bucket less the time of its last call. -/
def Bucket.potential (b : Bucket) : ℤ := b.remaining - b.updated

section Bucket

variable {b c : Bucket} {now : Time}

/-- A bucket that would be filled to this level at the time of a call. -/
theorem Bucket.remaining_add (b : Bucket) (now : Time) :
    b.remaining + (now - b.updated) = b.potential + now := by
  unfold potential
  ring

theorem Bucket.draw_admits (b : Bucket) (now : Time) :
    (b.draw now).1 = decide (second ≤ min (b.potential + now) fullBucket) := by
  unfold draw
  rw [b.remaining_add]
  dsimp only
  split
  next h => exact (decide_eq_false (not_le.mpr h)).symm
  next h => exact (decide_eq_true (not_lt.mp h)).symm

theorem Bucket.draw_potential (b : Bucket) (now : Time) :
    (b.draw now).2.potential =
      min (b.potential + now) fullBucket - now - if (b.draw now).1 then second else 0 := by
  rw [b.draw_admits]
  unfold draw
  rw [b.remaining_add]
  dsimp only
  split
  next h =>
    rw [if_neg (by rw [decide_eq_true_iff]; exact not_le.mpr h)]
    exact (sub_zero _).symm
  next h =>
    rw [if_pos (decide_eq_true (not_lt.mp h))]
    dsimp only [potential]
    ring

/-- An admitted call lowers the potential by a call. It was at most that of a full bucket, and the
level does not fall below zero. -/
theorem Bucket.potential_of_admitted (h : (b.draw now).1 = true) :
    (b.draw now).2.potential + second ≤ b.potential ∧
      (b.draw now).2.potential + second ≤ fullBucket - now ∧ -now ≤ (b.draw now).2.potential := by
  have hpotential := b.draw_potential now
  rw [if_pos h] at hpotential
  rw [b.draw_admits, decide_eq_true_iff] at h
  have hleft := min_le_left (b.potential + now) fullBucket
  have hright := min_le_right (b.potential + now) fullBucket
  refine ⟨?_, ?_, ?_⟩
  · linarith
  · linarith
  · linarith

/-- A call that is denied leaves the potential alone. -/
theorem Bucket.potential_of_denied (h : (b.draw now).1 = false) :
    (b.draw now).2.potential = b.potential := by
  have hpotential := b.draw_potential now
  rw [if_neg (by simp [h])] at hpotential
  rw [b.draw_admits, decide_eq_false_iff_not, not_le, min_lt_iff] at h
  have hfull : ¬ fullBucket < second := by decide
  have hlow : b.potential + now < second := h.resolve_right hfull
  rw [min_eq_left (by linarith [not_lt.mp hfull])] at hpotential
  linarith

/-- No call raises the potential. -/
theorem Bucket.potential_draw_le (b : Bucket) (now : Time) : (b.draw now).2.potential ≤ b.potential := by
  cases h : (b.draw now).1 with
  | true =>
    have hsecond : (0 : ℤ) ≤ second := by decide
    linarith [(potential_of_admitted h).1]
  | false => exact (potential_of_denied h).le

/-- The potential decides. -/
theorem Bucket.draw_congr (h : b.potential = c.potential) (now : Time) :
    (b.draw now).1 = (c.draw now).1 ∧ (b.draw now).2.potential = (c.draw now).2.potential := by
  have hadmits : (b.draw now).1 = (c.draw now).1 := by rw [b.draw_admits, c.draw_admits, h]
  refine ⟨hadmits, ?_⟩
  rw [b.draw_potential, c.draw_potential, hadmits, h]

end Bucket

/-! ## Sequences of calls -/

/-- The buckets of the limiter. -/
abbrev Rates := AList fun _ : String => Bucket

/-- The buckets after a call. -/
def Rates.after (rates : Rates) (id : String) (now : Time) : Rates :=
  rates.insert id ((bucketOf rates id now).draw now).2

/-- The answers to a sequence of calls. -/
def Rates.answers (rates : Rates) : List (String × Time) → List Bool
  | [] => []
  | (id, now) :: calls =>
    ((bucketOf rates id now).draw now).1 :: answers (rates.after id now) calls

section Sequences

variable {rates rates' : Rates} {id other : String} {a b now : Time} {bucket : Bucket}
  {calls : List (String × Time)}

theorem run_allowAll (calls : List (String × Time)) (w : World) (env : ℕ → Event) (n : ℕ) :
    ∃ w', (allowAll calls).run env n w = (.ok (Rates.answers w.rates calls), w', n) := by
  induction calls generalizing w with
  | nil => exact ⟨w, rfl⟩
  | cons call calls ih =>
    obtain ⟨w', hrest⟩ := ih { w with rates := Rates.after w.rates call.1 call.2 }
    refine ⟨w', ?_⟩
    have hfirst : (allow call.1 call.2).run env n w =
        (.ok ((bucketOf w.rates call.1 call.2).draw call.2).1,
          { w with rates := Rates.after w.rates call.1 call.2 }, n) := rfl
    unfold allowAll
    rw [bind_run_ok hfirst, bind_run_ok hrest]
    rfl

theorem length_answers (rates : Rates) (calls : List (String × Time)) :
    (rates.answers calls).length = calls.length := by
  induction calls generalizing rates with
  | nil => rfl
  | cons call calls ih => exact congrArg (· + 1) (ih _)

theorem bucketOf_of_lookup (h : rates.lookup id = some bucket) : bucketOf rates id now = bucket := by
  rw [bucketOf, h]
  rfl

theorem lookup_after (rates : Rates) (id : String) (now : Time) :
    (rates.after id now).lookup id = some ((bucketOf rates id now).draw now).2 :=
  AList.lookup_insert _

theorem lookup_after_ne (h : id ≠ other) : (rates.after other now).lookup id = rates.lookup id :=
  AList.lookup_insert_ne h

theorem admittedWithin_cons (call : String × Time) (calls : List (String × Time)) (admits : Bool)
    (answers : List Bool) : admittedWithin id a b (call :: calls) (admits :: answers) =
      admittedWithin id a b calls answers + if admits && counts id a b call then 1 else 0 := by
  rw [admittedWithin, List.zip_cons_cons, List.countP_cons]
  rfl

/-- The potential of a bucket bounds the calls that it will still admit up to a time. -/
theorem admitted_le_potential (calls : List (String × Time)) (hbucket : rates.lookup id = some bucket) :
    admittedWithin id a b calls (rates.answers calls) = 0 ∨
      admittedWithin id a b calls (rates.answers calls) * second ≤ bucket.potential + b := by
  induction calls generalizing rates bucket with
  | nil => exact .inl rfl
  | cons call calls ih =>
    obtain ⟨other, now⟩ := call
    unfold Rates.answers
    rw [admittedWithin_cons]
    by_cases hother : id = other
    · subst hother
      have hnext := ih (lookup_after rates id now)
      rw [bucketOf_of_lookup hbucket] at hnext ⊢
      have hle := bucket.potential_draw_le now
      split
      next hcounts =>
        -- an admitted call in the interval pays for itself
        simp only [counts, Bool.and_eq_true, decide_eq_true_iff] at hcounts
        obtain ⟨hpaid, -, hlow⟩ := Bucket.potential_of_admitted hcounts.1
        right
        push_cast
        rcases hnext with hzero | hnext
        · rw [hzero]
          push_cast
          linarith [hcounts.2.2]
        · linarith
      next =>
        rw [Nat.add_zero]
        exact hnext.imp_right fun h => by linarith
    · have hnot : counts id a b (other, now) = false := by simp [counts, Ne.symm hother]
      rw [hnot, Bool.and_false, if_neg (by simp), Nat.add_zero]
      exact ih ((lookup_after_ne hother).trans hbucket)

/-- The first call in an interval finds at most a full bucket. -/
theorem admitted_le (hab : a ≤ b) :
    admittedWithin id a b calls (rates.answers calls) * second ≤ 20 * second + (b - a) := by
  have hsecond : (0 : ℤ) ≤ second := by decide
  induction calls generalizing rates with
  | nil =>
    change ((0 : ℕ) : ℤ) * second ≤ _
    push_cast
    linarith
  | cons call calls ih =>
    obtain ⟨other, now⟩ := call
    unfold Rates.answers
    rw [admittedWithin_cons]
    split
    next hcounts =>
      simp only [counts, Bool.and_eq_true, decide_eq_true_iff, beq_iff_eq] at hcounts
      obtain ⟨hadmits, ⟨rfl, hafter⟩, -⟩ := hcounts
      have hfull : fullBucket = 20 * second := rfl
      obtain ⟨-, hhigh, -⟩ := Bucket.potential_of_admitted hadmits
      push_cast
      rcases admitted_le_potential (a := a) (b := b) calls (lookup_after rates other now) with
        hzero | hnext
      · rw [hzero]
        push_cast
        linarith
      · linarith
    next =>
      rw [Nat.add_zero]
      exact ih

/-! ## Denied calls -/

/-- The buckets decide alike: they have the same potentials. -/
def Alike (rates rates' : Rates) : Prop :=
  ∀ id, (rates.lookup id).map Bucket.potential = (rates'.lookup id).map Bucket.potential

theorem Alike.bucketOf (h : Alike rates rates') (id : String) (now : Time) :
    (bucketOf rates id now).potential = (bucketOf rates' id now).potential := by
  have hid := h id
  unfold Torkitten.bucketOf
  cases hfirst : rates.lookup id with
  | none =>
    rw [hfirst] at hid
    rw [Option.map_eq_none_iff.mp hid.symm]
  | some bucket =>
    rw [hfirst] at hid
    obtain ⟨bucket', hsecond, hpotential⟩ := Option.map_eq_some_iff.mp hid.symm
    rw [hsecond]
    exact hpotential.symm

theorem Alike.answers (h : Alike rates rates') (calls : List (String × Time)) :
    rates.answers calls = rates'.answers calls := by
  induction calls generalizing rates rates' with
  | nil => rfl
  | cons call calls ih =>
    obtain ⟨hadmits, hpotential⟩ := Bucket.draw_congr (h.bucketOf call.1 call.2) call.2
    have hafter : Alike (rates.after call.1 call.2) (rates'.after call.1 call.2) := by
      intro id
      by_cases heq : id = call.1
      · subst heq
        rw [lookup_after, lookup_after, Option.map_some, Option.map_some, hpotential]
      · rw [lookup_after_ne heq, lookup_after_ne heq]
        exact h id
    exact congrArg₂ List.cons hadmits (ih hafter)

/-- A call that is denied leaves buckets that decide like those before it. -/
theorem alike_of_denied (h : ((bucketOf rates id now).draw now).1 = false) :
    Alike (rates.after id now) rates := by
  intro other
  by_cases heq : other = id
  · subst heq
    rw [lookup_after, Option.map_some, Bucket.potential_of_denied h]
    cases hlookup : rates.lookup other with
    | none =>
      -- a new bucket is full and admits the call
      rw [bucketOf, hlookup, Bucket.draw_admits, decide_eq_false_iff_not] at h
      refine absurd ?_ h
      dsimp only [Option.getD_none, Bucket.potential]
      rw [sub_add_cancel, min_self]
      decide
    | some bucket => rw [bucketOf_of_lookup hlookup, Option.map_some]
  · rw [lookup_after_ne heq]

end Sequences

/-- Whatever the buckets and the order of the time stamps, the calls for an id with a time stamp from
`a` to `b` that a sequence of calls has admitted are at most twenty and one for each second from `a`
to `b`; and a call that is denied does not change the answers to the calls after it. -/
theorem allowed_rate_limited (w : World) (env : ℕ → Event) (n : ℕ) :
    (∀ calls, ∃ answers w', (allowAll calls).run env n w = (.ok answers, w', n) ∧
      answers.length = calls.length ∧ ∀ id a b, a ≤ b →
        (admittedWithin id a b calls answers : ℤ) * second ≤ 20 * second + (b - a)) ∧
    ∀ id now w', (allow id now).run env n w = (.ok false, w', n) →
      ∀ calls, ((allowAll calls).run env n w').1 = ((allowAll calls).run env n w).1 := by
  constructor
  · intro calls
    obtain ⟨w', hrun⟩ := run_allowAll calls w env n
    exact ⟨_, w', hrun, length_answers _ _, fun id a b hab => admitted_le hab⟩
  · intro id now w' hdenied calls
    have hrun : (allow id now).run env n w = (.ok ((bucketOf w.rates id now).draw now).1,
        { w with rates := Rates.after w.rates id now }, n) := rfl
    rw [hrun] at hdenied
    simp only [Prod.mk.injEq, Outcome.ok.injEq, and_true] at hdenied
    obtain ⟨hadmits, rfl⟩ := hdenied
    obtain ⟨_, hafter⟩ := run_allowAll calls { w with rates := Rates.after w.rates id now } env n
    obtain ⟨_, hbefore⟩ := run_allowAll calls w env n
    rw [hafter, hbefore]
    exact congrArg Outcome.ok ((alike_of_denied hadmits).answers calls)

/-- A limiter with the empty bucket of a token. -/
def emptyBucketWorld : World :=
  { sampleWorld with rates := (∅ : Rates).insert "t" { remaining := 0, updated := 5 * second } }

/-- Three calls on an empty bucket are within the limit; and a call with an earlier time stamp is
denied and does not change the answer to the next. -/
theorem emptyBucketWorld_limited :
    (∃ answers w', (allowAll [("t", 6 * second), ("t", 7 * second), ("t", 7 * second)]).run
        (fun _ => .calm) 0 emptyBucketWorld = (.ok answers, w', 0) ∧
      (admittedWithin "t" (6 * second) (8 * second)
        [("t", 6 * second), ("t", 7 * second), ("t", 7 * second)] answers : ℤ) * second ≤
          20 * second + (8 * second - 6 * second)) ∧
    ∃ w', (allow "t" (4 * second)).run (fun _ => .calm) 0 emptyBucketWorld = (.ok false, w', 0) ∧
      ((allowAll [("t", 6 * second)]).run (fun _ => .calm) 0 w').1 =
        ((allowAll [("t", 6 * second)]).run (fun _ => .calm) 0 emptyBucketWorld).1 := by
  have hlimited := allowed_rate_limited emptyBucketWorld (fun _ => .calm) 0
  obtain ⟨answers, w', hrun, -, hcount⟩ :=
    hlimited.1 [("t", 6 * second), ("t", 7 * second), ("t", 7 * second)]
  exact ⟨⟨answers, w', hrun, hcount "t" _ _ (by decide)⟩, _, rfl, hlimited.2 "t" (4 * second) _ rfl _⟩

end Torkitten
