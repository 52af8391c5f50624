import Mathlib.Data.List.Basic
import Mathlib.Logic.Relation

/-!
# Procedures in a failing environment

A `Proc σ ε ω α` is a sequential procedure over a system state `σ`. Every interaction with
the outside world consumes one event `ε` from a stream, so quantifying over streams
quantifies over every pattern of failures. A procedure ends in one of three ways: it returns
a value, it returns an error `ω`, or the process running it dies; in each case it leaves a
system state behind.

`Proc.wp` is the weakest precondition of a procedure with two postconditions: one for both
kinds of return, and one for the state found after a crash. The rules below let a proof
follow the text of a procedure one interaction at a time.
-/

/-- How a procedure ends. -/
inductive Outcome (ω α : Type) where
  /-- The procedure returned a value. -/
  | ok (a : α)
  /-- The procedure returned an error. -/
  | error (e : ω)
  /-- The process died. -/
  | crash
  deriving DecidableEq, Repr

/-- The procedure returned a value. -/
def Outcome.isOk {ω α : Type} : Outcome ω α → Bool
  | .ok _ => true
  | _ => false

/-- The value that the procedure returned. -/
def Outcome.value {ω α : Type} : Outcome ω α → Option α
  | .ok a => some a
  | _ => none

/-- A procedure over states `σ` that reads its environment's events from the stream
`env : ℕ → ε`, starting at a given position. It returns how it ended, the state it left and
the position of the next unread event. -/
structure Proc (σ ε ω α : Type) where
  /-- Run the procedure. -/
  run : (ℕ → ε) → ℕ → σ → Outcome ω α × σ × ℕ

namespace Proc

variable {σ ε ω α β : Type}

/-- Return a value without touching the state. -/
def ret (a : α) : Proc σ ε ω α := ⟨fun _ n s => (.ok a, s, n)⟩

/-- Return an error without touching the state. -/
def fail (e : ω) : Proc σ ε ω α := ⟨fun _ n s => (.error e, s, n)⟩

/-- Run `c` and, if it returned a value, continue with `k`. -/
def andThen (c : Proc σ ε ω α) (k : α → Proc σ ε ω β) : Proc σ ε ω β :=
  ⟨fun env n s =>
    match c.run env n s with
    | (.ok a, s', n') => (k a).run env n' s'
    | (.error e, s', n') => (.error e, s', n')
    | (.crash, s', n') => (.crash, s', n')⟩

instance : Monad (Proc σ ε ω) where
  pure := ret
  bind := andThen

/-- Turn an error of `c` into a value, so that the caller decides what to do with it. -/
def attempt (c : Proc σ ε ω α) : Proc σ ε ω (Except ω α) :=
  ⟨fun env n s =>
    match c.run env n s with
    | (.ok a, s', n') => (.ok (.ok a), s', n')
    | (.error e, s', n') => (.ok (.error e), s', n')
    | (.crash, s', n') => (.crash, s', n')⟩

/-- Run `c` and ignore the error it may return. -/
def ignore (c : Proc σ ε ω α) : Proc σ ε ω Unit := do
  let _ ← attempt c
  return ()

/-- Run `c` and return the error it may return. -/
def failure (c : Proc σ ε ω α) : Proc σ ε ω (Option ω) := do
  match ← attempt c with
  | .ok _ => return none
  | .error e => return some e

/-- The current state. -/
def get : Proc σ ε ω σ := ⟨fun _ n s => (.ok s, s, n)⟩

/-- Update the state. -/
def modify (f : σ → σ) : Proc σ ε ω Unit := ⟨fun _ n s => (.ok (), f s, n)⟩

/-- One interaction with the environment: the next event decides the outcome. -/
def ask (f : ε → σ → Outcome ω α × σ) : Proc σ ε ω α :=
  ⟨fun env n s => ((f (env n) s).1, (f (env n) s).2, n + 1)⟩

/-- Run `c` on every element of a list, in order, stopping at the first error. -/
def forEach (c : β → Proc σ ε ω Unit) : List β → Proc σ ε ω Unit
  | [] => ret ()
  | x :: xs => andThen (c x) fun _ => forEach c xs

/-- Run `c` on events that are read through `f`. -/
def comap (f : ε → ε) (c : Proc σ ε ω α) : Proc σ ε ω α :=
  ⟨fun env n s => c.run (fun i => f (env i)) n s⟩

/-- Run `c` on a part of a larger state. -/
def focus {τ : Type} (part : τ → σ) (update : τ → σ → τ) (c : Proc σ ε ω α) : Proc τ ε ω α :=
  ⟨fun env n t =>
    let result := c.run env n (part t)
    (result.1, update t result.2.1, result.2.2)⟩

/-! ## Running a procedure -/

/-- A sequence whose first part returns a value continues from where that part stopped. -/
theorem bind_run_ok {c : Proc σ ε ω α} {k : α → Proc σ ε ω β} {env : ℕ → ε} {n n' : ℕ}
    {s s' : σ} {a : α} (h : c.run env n s = (.ok a, s', n')) :
    (c >>= k).run env n s = (k a).run env n' s' := by
  change (andThen c k).run env n s = _
  simp [andThen, h]

/-- A sequence whose first part returns an error stops there. -/
theorem bind_run_error {c : Proc σ ε ω α} {k : α → Proc σ ε ω β} {env : ℕ → ε} {n n' : ℕ}
    {s s' : σ} {e : ω} (h : c.run env n s = (.error e, s', n')) :
    (c >>= k).run env n s = (.error e, s', n') := by
  change (andThen c k).run env n s = _
  simp [andThen, h]

/-- A sequence that returns a value has run both of its parts. -/
theorem bind_eq_ok {c : Proc σ ε ω α} {k : α → Proc σ ε ω β} {env : ℕ → ε} {n n' : ℕ}
    {s s' : σ} {b : β} (h : (c >>= k).run env n s = (.ok b, s', n')) :
    ∃ a s₁ n₁, c.run env n s = (.ok a, s₁, n₁) ∧ (k a).run env n₁ s₁ = (.ok b, s', n') := by
  change (andThen c k).run env n s = _ at h
  simp only [andThen] at h
  split at h
  next a s₁ n₁ hc => exact ⟨a, s₁, n₁, hc, h⟩
  next => cases h
  next => cases h

theorem attempt_run_ok {c : Proc σ ε ω α} {env : ℕ → ε} {n n' : ℕ} {s s' : σ} {a : α}
    (h : c.run env n s = (.ok a, s', n')) : (attempt c).run env n s = (.ok (.ok a), s', n') := by
  simp [attempt, h]

theorem attempt_run_error {c : Proc σ ε ω α} {env : ℕ → ε} {n n' : ℕ} {s s' : σ} {e : ω}
    (h : c.run env n s = (.error e, s', n')) :
    (attempt c).run env n s = (.ok (.error e), s', n') := by
  simp [attempt, h]

/-! ## Weakest preconditions -/

/-- A postcondition made of one for values and one for errors. -/
def either (ok : α → σ → Prop) (err : ω → σ → Prop) : Except ω α → σ → Prop
  | .ok a => ok a
  | .error e => err e

@[simp]
theorem either_ok (ok : α → σ → Prop) (err : ω → σ → Prop) (a : α) (s : σ) :
    either ok err (.ok a) s = ok a s := rfl

@[simp]
theorem either_error (ok : α → σ → Prop) (err : ω → σ → Prop) (e : ω) (s : σ) :
    either ok err (.error e) s = err e s := rfl

/-- What a postcondition `Q` and a crash condition `C` say of one way to end. -/
def Ends (Q : Except ω α → σ → Prop) (C : σ → Prop) : Outcome ω α → σ → Prop
  | .ok a, s => Q (.ok a) s
  | .error e, s => Q (.error e) s
  | .crash, s => C s

/-- From state `s`, and for every stream of events satisfying `E`, the procedure returns in a
state satisfying `Q` or dies in a state satisfying `C`. Proofs about procedures use the rules
below and never look at the runs. -/
@[irreducible]
def wp (E : ε → Prop) (c : Proc σ ε ω α) (Q : Except ω α → σ → Prop) (C : σ → Prop)
    (s : σ) : Prop :=
  ∀ (env : ℕ → ε) (n : ℕ), (∀ i, E (env i)) → Ends Q C (c.run env n s).1 (c.run env n s).2.1

variable {E : ε → Prop} {Q Q' : Except ω α → σ → Prop} {C C' : σ → Prop} {s : σ}

theorem wp_of_run {c : Proc σ ε ω α} (h : ∀ (env : ℕ → ε) (n : ℕ), (∀ i, E (env i)) →
    Ends Q C (c.run env n s).1 (c.run env n s).2.1) : wp E c Q C s := by
  unfold wp
  exact h

/-- Read a weakest precondition at one stream of events. -/
theorem wp.at {c : Proc σ ε ω α} (h : wp E c Q C s) (env : ℕ → ε) (n : ℕ)
    (henv : ∀ i, E (env i)) : Ends Q C (c.run env n s).1 (c.run env n s).2.1 := by
  unfold wp at h
  exact h env n henv

/-- Read it where the procedure returns a value. -/
theorem wp.of_ok {c : Proc σ ε ω α} {P : α → σ → Prop} {R : ω → σ → Prop}
    (h : wp (fun _ => True) c (either P R) C s) {env : ℕ → ε} {n n' : ℕ} {a : α} {s' : σ}
    (hrun : c.run env n s = (.ok a, s', n')) : P a s' := by
  have hends := h.at env n fun _ => trivial
  rw [hrun] at hends
  exact hends

/-- Read it where the outcome does not matter. -/
theorem wp.leaves {c : Proc σ ε ω α} {P : σ → Prop} (h : wp E c (fun _ => P) P s) (env : ℕ → ε)
    (n : ℕ) (henv : ∀ i, E (env i)) : P (c.run env n s).2.1 := by
  have hends := h.at env n henv
  revert hends
  cases (c.run env n s).1 with
  | ok _ => exact fun h => h
  | error _ => exact fun h => h
  | crash => exact fun h => h

theorem wp_pure {a : α} (h : Q (.ok a) s) : wp E (pure a : Proc σ ε ω α) Q C s :=
  wp_of_run fun _ _ _ => h

theorem wp_ret {a : α} (h : Q (.ok a) s) : wp E (ret a : Proc σ ε ω α) Q C s :=
  wp_of_run fun _ _ _ => h

theorem wp_fail {e : ω} (h : Q (.error e) s) : wp E (fail e : Proc σ ε ω α) Q C s :=
  wp_of_run fun _ _ _ => h

theorem wp_mono {c : Proc σ ε ω α} (h : wp E c Q C s)
    (hQ : ∀ r s', Q r s' → Q' r s') (hC : ∀ s', C s' → C' s') : wp E c Q' C' s := by
  refine wp_of_run fun env n henv => ?_
  have hrun := h.at env n henv
  revert hrun
  cases (c.run env n s).1 with
  | ok a => exact hQ _ _
  | error e => exact hQ _ _
  | crash => exact hC _

/-- What two proofs show of a procedure holds together. -/
theorem wp_and {c : Proc σ ε ω α} (h : wp E c Q C s) (h' : wp E c Q' C' s) :
    wp E c (fun r s' => Q r s' ∧ Q' r s') (fun s' => C s' ∧ C' s') s := by
  refine wp_of_run fun env n henv => ?_
  have hrun := h.at env n henv
  have hrun' := h'.at env n henv
  revert hrun hrun'
  cases (c.run env n s).1 <;> exact fun hrun hrun' => ⟨hrun, hrun'⟩

/-- Every procedure meets what always holds. -/
theorem wp_of_forall {c : Proc σ ε ω α} (hQ : ∀ r s', Q r s') (hC : ∀ s', C s') : wp E c Q C s := by
  refine wp_of_run fun env n _ => ?_
  cases (c.run env n s).1 with
  | ok a => exact hQ _ _
  | error e => exact hQ _ _
  | crash => exact hC _

/-- Sequential composition: an error of the first part is the error of the whole. -/
theorem wp_bind {c : Proc σ ε ω β} {k : β → Proc σ ε ω α}
    (h : wp E c (either (fun b => wp E (k b) Q C) fun e => Q (.error e)) C s) :
    wp E (c >>= k) Q C s := by
  refine wp_of_run fun env n henv => ?_
  have hc := h.at env n henv
  change Ends Q C ((andThen c k).run env n s).1 ((andThen c k).run env n s).2.1
  simp only [andThen]
  rcases hrun : c.run env n s with ⟨o, s', n'⟩
  rw [hrun] at hc
  cases o with
  | ok b => exact wp.at hc env n' henv
  | error e => exact hc
  | crash => exact hc

theorem wp_attempt {c : Proc σ ε ω β} {Q : Except ω (Except ω β) → σ → Prop}
    (h : wp E c (fun r s' => Q (.ok r) s') C s) : wp E (attempt c) Q C s := by
  refine wp_of_run fun env n henv => ?_
  have hc := h.at env n henv
  simp only [attempt]
  rcases hrun : c.run env n s with ⟨o, s', n'⟩
  rw [hrun] at hc
  cases o <;> exact hc

theorem wp_ignore {c : Proc σ ε ω β} {Q : Except ω Unit → σ → Prop}
    (h : wp E c (fun _ s' => Q (.ok ()) s') C s) : wp E (ignore c) Q C s := by
  unfold ignore
  apply wp_bind
  apply wp_attempt
  exact wp_mono h (fun _ _ hq => wp_pure hq) fun _ hc => hc

theorem wp_failure {c : Proc σ ε ω β} {Q : Except ω (Option ω) → σ → Prop}
    (h : wp E c (either (fun _ => Q (.ok none)) fun e => Q (.ok (some e))) C s) :
    wp E (failure c) Q C s := by
  unfold failure
  apply wp_bind
  apply wp_attempt
  refine wp_mono h ?_ fun _ hc => hc
  intro r s' hr
  cases r with
  | ok _ => exact wp_pure hr
  | error e => exact wp_pure hr

theorem wp_get {Q : Except ω σ → σ → Prop} (h : Q (.ok s) s) :
    wp E (get : Proc σ ε ω σ) Q C s :=
  wp_of_run fun _ _ _ => h

theorem wp_modify {f : σ → σ} {Q : Except ω Unit → σ → Prop} (h : Q (.ok ()) (f s)) :
    wp E (modify f : Proc σ ε ω Unit) Q C s :=
  wp_of_run fun _ _ _ => h

theorem wp_ask {f : ε → σ → Outcome ω α × σ}
    (h : ∀ e, E e → Ends Q C (f e s).1 (f e s).2) : wp E (ask f) Q C s :=
  wp_of_run fun env n henv => h (env n) (henv n)

/-- A loop keeps an invariant that every iteration keeps; an iteration that fails ends the
loop with its error. -/
theorem wp_forEach {c : β → Proc σ ε ω Unit} {I : List β → σ → Prop}
    {Q : Except ω Unit → σ → Prop} {xs : List β}
    (hstep : ∀ done x rest s', xs = done ++ x :: rest → I done s' →
      wp E (c x) (either (fun _ => I (done ++ [x])) fun e => Q (.error e)) C s')
    (hdone : ∀ s', I xs s' → Q (.ok ()) s') (hinit : I [] s) :
    wp E (forEach c xs) Q C s := by
  -- generalise over the elements already visited, so that the invariant can grow
  suffices hgen : ∀ (rest done : List β) (s' : σ), xs = done ++ rest → I done s' →
      wp E (forEach c rest) Q C s' by
    exact hgen xs [] s rfl hinit
  intro rest
  induction rest with
  | nil =>
    intro done s' hxs hI
    rw [List.append_nil] at hxs
    subst hxs
    exact wp_ret (hdone s' hI)
  | cons x rest ih =>
    intro done s' hxs hI
    change wp E (c x >>= fun _ => forEach c rest) Q C s'
    apply wp_bind
    refine wp_mono (hstep done x rest s' hxs hI) ?_ fun _ hc => hc
    intro r s'' hr
    cases r with
    | ok _ => exact ih (done ++ [x]) s'' (by simp [hxs]) hr
    | error e => exact hr

/-- Events read through `f` satisfy what `f` makes of the conditions on the events. -/
theorem wp_comap {f : ε → ε} {E' : ε → Prop} {c : Proc σ ε ω α} (hE : ∀ e, E e → E' (f e))
    (h : wp E' c Q C s) : wp E (comap f c) Q C s :=
  wp_of_run fun env n henv => h.at (fun i => f (env i)) n fun i => hE _ (henv i)

/-- A procedure on a part of the state leaves the rest alone. -/
theorem wp_focus {τ : Type} {part : τ → σ} {update : τ → σ → τ} {c : Proc σ ε ω α}
    {Q : Except ω α → τ → Prop} {C : τ → Prop} {t : τ}
    (h : wp E c (fun r s' => Q r (update t s')) (fun s' => C (update t s')) (part t)) :
    wp E (focus part update c) Q C t := by
  refine wp_of_run fun env n henv => ?_
  have hc := h.at env n henv
  dsimp only [focus]
  revert hc
  cases (c.run env n (part t)).1 <;> exact id

/-! ## Invariants -/

/-- However `c` ends, it keeps `I`; and `c` dies only if `K`. -/
def Maintains (E : ε → Prop) (K : Prop) (I : σ → Prop) (c : Proc σ ε ω α) : Prop :=
  ∀ s, I s → wp E c (fun _ => I) (fun s' => K ∧ I s') s

section Maintains

variable {I : σ → Prop} {K : Prop}

/-- What is kept whatever happens holds where a run ends. -/
theorem Maintains.run {c : Proc σ ε ω α} (h : Maintains (fun _ => True) K I c) (env : ℕ → ε) (n : ℕ)
    (hs : I s) : I (c.run env n s).2.1 :=
  (wp_mono (h s hs) (fun _ _ hs' => hs') fun _ hs' => hs'.2).leaves env n fun _ => trivial

/-- A sequence whose first part matters only by the invariant. -/
theorem Maintains.bind {c : Proc σ ε ω β} {k : β → Proc σ ε ω α} (h : Maintains E K I c) (hs : I s)
    (herr : ∀ e s', I s' → Q (.error e) s') (hC : ∀ s', K → I s' → C s')
    (hok : ∀ b s', I s' → wp E (k b) Q C s') : wp E (c >>= k) Q C s := by
  apply wp_bind
  refine wp_mono (h s hs) ?_ fun s' hs' => hC s' hs'.1 hs'.2
  intro r s' hs'
  cases r with
  | ok b => exact hok b s' hs'
  | error e => exact herr e s' hs'

/-- The same, where the invariant is also what an error or a crash must leave. -/
theorem Maintains.then {P : α → σ → Prop} {c : Proc σ ε ω β} {k : β → Proc σ ε ω α}
    (h : Maintains E K I c) (hs : I s)
    (hok : ∀ b s', I s' → wp E (k b) (either P fun _ => I) (fun s' => K ∧ I s') s') :
    wp E (c >>= k) (either P fun _ => I) (fun s' => K ∧ I s') s :=
  h.bind hs (fun _ _ hs' => hs') (fun _ hK hs' => ⟨hK, hs'⟩) hok

theorem maintains_pure (a : α) : Maintains E K I (pure a : Proc σ ε ω α) := fun _ hs => wp_pure hs

theorem maintains_fail (e : ω) : Maintains E K I (fail e : Proc σ ε ω α) := fun _ hs => wp_fail hs

theorem maintains_get : Maintains E K I (get : Proc σ ε ω σ) := fun _ hs => wp_get hs

theorem maintains_modify {u : σ → σ} (h : ∀ s, I s → I (u s)) :
    Maintains E K I (modify u : Proc σ ε ω Unit) :=
  fun s hs => wp_modify (h s hs)

theorem maintains_bind {c : Proc σ ε ω β} {k : β → Proc σ ε ω α} (hc : Maintains E K I c)
    (hk : ∀ b, Maintains E K I (k b)) : Maintains E K I (c >>= k) :=
  fun _ hs => hc.bind hs (fun _ _ h => h) (fun _ hK h => ⟨hK, h⟩) fun b s' h => hk b s' h

theorem maintains_attempt {c : Proc σ ε ω α} (h : Maintains E K I c) :
    Maintains E K I (attempt c) :=
  fun s hs => wp_attempt (h s hs)

theorem maintains_ignore {c : Proc σ ε ω α} (h : Maintains E K I c) : Maintains E K I (ignore c) :=
  fun s hs => wp_ignore (h s hs)

theorem maintains_failure {c : Proc σ ε ω α} (h : Maintains E K I c) :
    Maintains E K I (failure c) := by
  refine maintains_bind (maintains_attempt h) fun r => ?_
  cases r with
  | ok _ => exact maintains_pure none
  | error e => exact maintains_pure (some e)

theorem maintains_comap {E' : ε → Prop} {g : ε → ε} {c : Proc σ ε ω α} (hE : ∀ e, E e → E' (g e))
    (h : Maintains E' K I c) : Maintains E K I (comap g c) :=
  fun s hs => wp_comap hE (h s hs)

theorem maintains_forEach {c : β → Proc σ ε ω Unit} (h : ∀ x, Maintains E K I (c x))
    (xs : List β) : Maintains E K I (forEach c xs) := by
  induction xs with
  | nil => exact maintains_pure ()
  | cons x xs ih => exact maintains_bind (h x) fun _ => ih

end Maintains

/-! ## Frames -/

/-- However `c` ends, the part `f` of the state is what it was; and `c` dies only if `K`. -/
def Keeps {τ : Type} (E : ε → Prop) (K : Prop) (f : σ → τ) (c : Proc σ ε ω α) : Prop :=
  ∀ x, Maintains E K (fun s => f s = x) c

section Keeps

variable {τ : Type} {f : σ → τ} {K : Prop}

/-- A property that depends on the part only is maintained. -/
theorem Keeps.maintains {I : σ → Prop} {c : Proc σ ε ω α} (h : Keeps E K f c)
    (hI : ∀ s s', f s' = f s → I s → I s') : Maintains E K I c := fun s hs =>
  wp_mono (h (f s) s rfl) (fun _ s' hs' => hI s s' hs' hs) fun s' hs' => ⟨hs'.1, hI s s' hs'.2 hs⟩

theorem Keeps.wp {c : Proc σ ε ω α} (h : Keeps E K f c) (s : σ) :
    wp E c (fun _ s' => f s' = f s) (fun s' => K ∧ f s' = f s) s :=
  h (f s) s rfl

theorem keeps_of_wp {c : Proc σ ε ω α}
    (h : ∀ s, Proc.wp E c (fun _ s' => f s' = f s) (fun s' => K ∧ f s' = f s) s) :
    Keeps E K f c := by
  rintro _ s rfl
  exact h s

/-- Step over a procedure of which only the frame matters. -/
theorem Keeps.step {c : Proc σ ε ω α} (h : Keeps E K f c) (hQ : ∀ r s', f s' = f s → Q r s')
    (hC : K → ∀ s', f s' = f s → C s') : Proc.wp E c Q C s :=
  wp_mono (h.wp s) hQ fun s' hs' => hC hs'.1 s' hs'.2

/-- A sequence whose first part matters only by its frame. -/
theorem Keeps.bind {c : Proc σ ε ω β} {k : β → Proc σ ε ω α} (h : Keeps E K f c)
    (herr : ∀ e s', f s' = f s → Q (.error e) s') (hC : K → ∀ s', f s' = f s → C s')
    (hok : ∀ b s', f s' = f s → Proc.wp E (k b) Q C s') : Proc.wp E (c >>= k) Q C s :=
  Maintains.bind (h (f s)) rfl herr (fun s' hK => hC hK s') hok

/-- Add what a procedure keeps to what it establishes. -/
theorem Keeps.with {c : Proc σ ε ω α} (h : Keeps E K f c)
    (hwp : Proc.wp E c (fun r s' => f s' = f s → Q r s') (fun s' => f s' = f s → C s') s) :
    Proc.wp E c Q C s := by
  refine wp_of_run fun env n henv => ?_
  have hq := hwp.at env n henv
  have hf := (h.wp s).at env n henv
  revert hq hf
  cases (c.run env n s).1 with
  | ok a => exact fun hq hf => hq hf
  | error e => exact fun hq hf => hq hf
  | crash => exact fun hq hf => hq hf.2

theorem keeps_pure (a : α) : Keeps E K f (pure a : Proc σ ε ω α) := fun _ => maintains_pure a

theorem keeps_fail (e : ω) : Keeps E K f (fail e : Proc σ ε ω α) := fun _ => maintains_fail e

theorem keeps_get : Keeps E K f (get : Proc σ ε ω σ) := fun _ => maintains_get

theorem keeps_modify {u : σ → σ} (h : ∀ s, f (u s) = f s) :
    Keeps E K f (modify u : Proc σ ε ω Unit) :=
  fun _ => maintains_modify fun s hs => (h s).trans hs

theorem keeps_bind {c : Proc σ ε ω β} {k : β → Proc σ ε ω α} (hc : Keeps E K f c)
    (hk : ∀ b, Keeps E K f (k b)) : Keeps E K f (c >>= k) :=
  fun x => maintains_bind (hc x) fun b => hk b x

theorem keeps_attempt {c : Proc σ ε ω α} (h : Keeps E K f c) : Keeps E K f (attempt c) :=
  fun x => maintains_attempt (h x)

theorem keeps_ignore {c : Proc σ ε ω α} (h : Keeps E K f c) : Keeps E K f (ignore c) :=
  fun x => maintains_ignore (h x)

theorem keeps_failure {c : Proc σ ε ω α} (h : Keeps E K f c) : Keeps E K f (failure c) :=
  fun x => maintains_failure (h x)

theorem keeps_comap {E' : ε → Prop} {g : ε → ε} {c : Proc σ ε ω α} (hE : ∀ e, E e → E' (g e))
    (h : Keeps E' K f c) : Keeps E K f (comap g c) :=
  fun x => maintains_comap hE (h x)

theorem keeps_forEach {c : β → Proc σ ε ω Unit} (h : ∀ x, Keeps E K f (c x)) (xs : List β) :
    Keeps E K f (forEach c xs) :=
  fun x => maintains_forEach (fun y => h y x) xs

end Keeps

end Proc
