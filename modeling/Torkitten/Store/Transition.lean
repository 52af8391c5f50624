import Torkitten.Foundations.Proc
import Torkitten.Model.Json

/-!
# Store transitions

`Store.Transition` and `Store.persist` of `internal/state`. The source keeps the function that
writes the state file in a field of the store; so does `Store` here, which makes the same
definitions usable over a disk modelled byte by byte and over the whole system, where the
write is one step.

A transition function may act on other components. It returns the next state, an optional
rollback and an optional error; an error thrown by the procedure itself stands for a return
without rollback. What the function leaves in the variables it captures is the result of the
transition.
-/

namespace Torkitten

/-- `MaxBytes`. -/
def maxBytes : ℕ := 2 * 1024 * 1024

/-- The store inside a system with states `σ`. -/
structure Store (σ ε : Type) where
  /-- The value held in memory. -/
  value : σ → State
  /-- Replace the value held in memory. -/
  setValue : State → σ → σ
  /-- Write the state file: the bytes that encode the given state. -/
  write : State → String → Proc σ ε GoError Unit

/-- What a transition function returns. -/
structure Change (σ ε β : Type) where
  next : State
  rollback : Option (Proc σ ε GoError Unit)
  err : Option GoError
  result : β

namespace Store

variable {σ ε β : Type} (store : Store σ ε)

/-- `Store.persist`. -/
def persist (value : State) : Proc σ ε GoError Unit :=
  match value.validate with
  | some err => .fail (.wrap "refusing invalid state" err)
  | none =>
    match marshalIndent value with
    | .error err => .fail (.wrap "encode state" err)
    | .ok text =>
      if (text ++ "\n").utf8ByteSize > maxBytes then
        .fail (.new "encoded state exceeds size limit")
      else do
        match ← (store.write value (text ++ "\n")).attempt with
        | .error err => .fail (.wrap "persist state" err)
        | .ok _ => return ()

/-- The end of a failed transition: the rollback runs once and its error is joined. -/
def undo (rollback : Option (Proc σ ε GoError Unit)) (err : GoError) : Proc σ ε GoError β :=
  match rollback with
  | none => .fail err
  | some rollback => do
    match ← rollback.attempt with
    | .error rollbackErr => .fail (.join err rollbackErr)
    | .ok _ => .fail err

/-- Run a step; when it fails, undo what was done before it and report both errors. -/
def orUndo (rollback : Proc σ ε GoError Unit) (step : Proc σ ε GoError β) : Proc σ ε GoError β := do
  match ← step.attempt with
  | .error err => undo (some rollback) err
  | .ok b => return b

/-- The second half of `Store.Transition`: validate, persist, and either keep the new value or
roll back. -/
def commit (change : Change σ ε β) : Proc σ ε GoError β :=
  match change.err with
  | some err => undo change.rollback err
  | none =>
    match change.next.validate with
    | some err => undo change.rollback err
    | none => do
      match ← (store.persist change.next).attempt with
      | .error err => undo change.rollback err
      | .ok _ =>
        Proc.modify (store.setValue (clone change.next))
        return change.result

/-- `Store.Transition`. -/
def transition (fn : Option (State → Proc σ ε GoError (Change σ ε β))) : Proc σ ε GoError β :=
  match fn with
  | none => .fail (.new "nil state transition")
  | some fn => do
    let current ← Proc.get
    let change ← fn (clone (store.value current))
    store.commit change

/-- `Store.Reconcile`: run `apply` on the current value without changing it. -/
def reconcile (apply : State → Proc σ ε GoError Unit) : Proc σ ε GoError Unit := do
  let current ← Proc.get
  apply (clone (store.value current))

/-! ## Rules -/

variable {E : ε → Prop} {Q : Except GoError β → σ → Prop} {C : σ → Prop} {s : σ}

open Proc

/-- What a transition must establish to end with an error `err`: without rollback at once, and
otherwise after the rollback, with both of its results. -/
def Undone (E : ε → Prop) (Q : Except GoError β → σ → Prop) (C : σ → Prop)
    (rollback : Option (Proc σ ε GoError Unit)) (err : GoError) (s : σ) : Prop :=
  match rollback with
  | none => Q (.error err) s
  | some rollback =>
    wp E rollback (either (fun _ => Q (.error err)) fun e => Q (.error (.join err e))) C s

/-- A rollback that restores a good state does so whatever it returns. -/
theorem Undone.of_wp {rollback : Proc σ ε GoError Unit} {G : σ → Prop}
    (h : wp E rollback (fun _ s' => G s') C s) (hG : ∀ err s', G s' → Q (.error err) s')
    (err : GoError) : Undone E Q C (some rollback) err s := by
  refine wp_mono h ?_ fun _ hc => hc
  intro r s' hs'
  cases r with
  | ok _ => exact hG _ _ hs'
  | error e => exact hG _ _ hs'

/-- Nothing is promised of an error. -/
theorem undone_of_forall {rollback : Option (Proc σ ε GoError Unit)} {err : GoError}
    (hQ : ∀ err s', Q (.error err) s') (hC : ∀ s', C s') : Undone E Q C rollback err s := by
  cases rollback with
  | none => exact hQ _ _
  | some rollback =>
    refine wp_of_forall (fun r s' => ?_) hC
    cases r with
    | ok _ => exact hQ _ _
    | error e => exact hQ _ _

theorem wp_undo {rollback : Option (Proc σ ε GoError Unit)} {err : GoError}
    (h : Undone E Q C rollback err s) : wp E (undo rollback err) Q C s := by
  cases rollback with
  | none => exact wp_fail h
  | some rollback =>
    apply wp_bind
    apply wp_attempt
    refine wp_mono h ?_ fun _ hc => hc
    intro r s' hr
    cases r with
    | ok _ => exact wp_fail hr
    | error e => exact wp_fail hr

theorem wp_orUndo {rollback : Proc σ ε GoError Unit} {step : Proc σ ε GoError β}
    (h : wp E step (either (fun b => Q (.ok b)) fun err => Undone E Q C (some rollback) err) C s) :
    wp E (orUndo rollback step) Q C s := by
  unfold orUndo
  apply wp_bind
  apply wp_attempt
  refine wp_mono h ?_ fun _ hc => hc
  intro r s' hr
  cases r with
  | ok b => exact wp_pure hr
  | error err => exact wp_undo hr

/-- A step that matters only by its frame, undone when it fails. -/
theorem wp_orUndo_bind {γ τ : Type} {K : Prop} {f : σ → τ} {rollback : Proc σ ε GoError Unit}
    {step : Proc σ ε GoError γ} {k : γ → Proc σ ε GoError β} (h : Keeps E K f step)
    (hundo : ∀ err s', f s' = f s → Undone E Q C (some rollback) err s')
    (hC : K → ∀ s', f s' = f s → C s') (hok : ∀ b s', f s' = f s → wp E (k b) Q C s') :
    wp E (orUndo rollback step >>= k) Q C s := by
  apply wp_bind
  apply wp_orUndo
  refine h.step ?_ hC
  intro r s' hs'
  cases r with
  | ok b => exact hok b s' hs'
  | error err => exact hundo err s' hs'

/-- Where nothing is promised of an error, only a step that succeeds counts. -/
theorem wp_orUndo_ok {γ : Type} {rollback : Proc σ ε GoError Unit} {step : Proc σ ε GoError γ}
    {k : γ → Proc σ ε GoError β} (hQ : ∀ err s', Q (.error err) s') (hC : ∀ s', C s')
    (h : wp E step (either (fun b s' => wp E (k b) Q C s') fun _ _ => True) C s) :
    wp E (orUndo rollback step >>= k) Q C s := by
  apply wp_bind
  apply wp_orUndo
  refine wp_mono h ?_ fun _ hc => hc
  intro r s' hr
  cases r with
  | ok b => exact hr
  | error err => exact (undone_of_forall hQ hC : Undone E Q C (some rollback) err s')

theorem maintains_undo {K : Prop} {I : σ → Prop} {rollback : Option (Proc σ ε GoError Unit)}
    (h : ∀ r ∈ rollback, Maintains E K I r) (err : GoError) :
    Maintains E K I (undo rollback err : Proc σ ε GoError β) := by
  cases rollback with
  | none => exact maintains_fail err
  | some rollback =>
    refine maintains_bind (maintains_attempt (h rollback rfl)) fun r => ?_
    cases r with
    | ok _ => exact maintains_fail _
    | error e => exact maintains_fail _

theorem maintains_orUndo {K : Prop} {I : σ → Prop} {rollback : Proc σ ε GoError Unit}
    {step : Proc σ ε GoError β} (hstep : Maintains E K I step)
    (hrollback : Maintains E K I rollback) : Maintains E K I (orUndo rollback step) := by
  refine maintains_bind (maintains_attempt hstep) fun r => ?_
  cases r with
  | ok b => exact maintains_pure b
  | error err =>
    apply maintains_undo
    rintro _ ⟨⟩
    exact hrollback

theorem keeps_orUndo {τ : Type} {K : Prop} {f : σ → τ} {rollback : Proc σ ε GoError Unit}
    {step : Proc σ ε GoError β} (hstep : Keeps E K f step) (hrollback : Keeps E K f rollback) :
    Keeps E K f (orUndo rollback step) :=
  fun x => maintains_orUndo (hstep x) (hrollback x)

/-- Persisting either is refused before the write or is the write. -/
theorem wp_persist {Q : Except GoError Unit → σ → Prop} {value : State}
    (hrefused : ∀ err, Q (.error err) s)
    (hwrite : ∀ text, value.Valid → marshalIndent value = .ok text →
      wp E (store.write value (text ++ "\n"))
        (either (fun _ => Q (.ok ())) fun e => Q (.error (.wrap "persist state" e))) C s) :
    wp E (store.persist value) Q C s := by
  unfold persist
  split
  next err _ => exact wp_fail (hrefused _)
  next hvalid =>
    split
    next err _ => exact wp_fail (hrefused _)
    next text htext =>
      split
      · exact wp_fail (hrefused _)
      · apply wp_bind
        apply wp_attempt
        refine wp_mono (hwrite text hvalid htext) ?_ fun _ hc => hc
        intro r s' hr
        cases r with
        | ok _ => exact wp_pure hr
        | error e => exact wp_fail hr

/-- A change is committed or undone: refused before the write, failed by the write, or
written. -/
theorem wp_commit {change : Change σ ε β}
    (hrefused : ∀ err, Undone E Q C change.rollback err s)
    (hwrite : ∀ text, change.err = none → change.next.Valid →
      marshalIndent change.next = .ok text →
      wp E (store.write change.next (text ++ "\n"))
        (either (fun _ s' => Q (.ok change.result) (store.setValue change.next s'))
          fun _ s' => ∀ err, Undone E Q C change.rollback err s') C s) :
    wp E (store.commit change) Q C s := by
  unfold commit
  split
  · exact wp_undo (hrefused _)
  next herr =>
    split
    · exact wp_undo (hrefused _)
    next hvalid =>
      apply wp_bind
      apply wp_attempt
      apply store.wp_persist
      · exact fun err => wp_undo (hrefused _)
      · intro text _ htext
        refine wp_mono (hwrite text herr hvalid htext) ?_ fun _ hc => hc
        intro r s' hr
        cases r with
        | ok _ =>
          apply wp_bind
          apply wp_modify
          rw [clone_of_encodable (encodable_of_marshalIndent htext)]
          exact wp_pure hr
        | error e => exact wp_undo (hr _)

/-- The rule for a whole transition: the transition function runs on a copy of the value, and
its result is committed or undone. -/
theorem wp_transition {fn : State → Proc σ ε GoError (Change σ ε β)}
    (h : wp E (fn (clone (store.value s)))
      (either (fun change => wp E (store.commit change) Q C) fun err => Q (.error err)) C s) :
    wp E (store.transition (some fn)) Q C s := by
  unfold transition
  apply wp_bind
  apply wp_get
  apply wp_bind
  exact h

end Store

end Torkitten
