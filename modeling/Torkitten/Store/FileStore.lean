import Torkitten.Store.AtomicWrite

/-!
# Atomicity of a store transition

A store whose state file is replaced by `atomicWrite`, together with an arbitrary external
component `κ` that transition functions and their rollbacks act on. A transition is atomic
when it either reports an error, with memory, file and component as they were before (the
rollback having run once), or succeeds, with the new value in memory and in the file and the
rollback not run.
-/

namespace Torkitten

open Proc

/-- A store in its surroundings: the value in memory, the disk and the component that
transition functions act on. -/
structure Site (κ : Type) where
  value : State
  disk : Disk
  component : κ

/-- A rollback acts on the component and may report an error. -/
abbrev Rollback (κ : Type) := κ → Option GoError × κ

/-- What a transition function decides. -/
structure Decision (κ : Type) where
  next : State
  rollback : Option (Rollback κ)
  err : Option GoError

/-- A transition function: it reads the current state and acts on the component. -/
abbrev TransitionFn (κ : Type) := State → κ → Decision κ × κ

variable {κ : Type}

/-- A rollback as a procedure over the whole site. -/
def Rollback.toProc (rollback : Rollback κ) : Proc (Site κ) WriteFaults GoError Unit := do
  let s ← get
  modify fun s => { s with component := (rollback s.component).2 }
  match (rollback s.component).1 with
  | some err => fail err
  | none => return ()

/-- A transition function as a procedure over the whole site. -/
def TransitionFn.toProc (fn : TransitionFn κ) (current : State) :
    Proc (Site κ) WriteFaults GoError (Change (Site κ) WriteFaults Unit) := do
  let s ← get
  let decision := (fn current s.component).1
  modify fun s => { s with component := (fn current s.component).2 }
  return { next := decision.next, rollback := decision.rollback.map Rollback.toProc,
           err := decision.err, result := () }

/-- The store whose file lies at `path`. -/
def fileStore (path : String) : Store (Site κ) WriteFaults where
  value := Site.value
  setValue value s := { s with value }
  write _ data := .ask fun f s =>
    let (err, disk) := atomicWrite f path data 0o600 s.disk
    (match err with
      | some err => .error err
      | none => .ok (), { s with disk })

/-- `Store.Transition` with the given faults of its write. -/
def runTransition (path : String) (fn : Option (TransitionFn κ)) (f : WriteFaults) (s : Site κ) :
    Outcome GoError Unit × Site κ :=
  let r := ((fileStore path).transition (fn.map TransitionFn.toProc)).run (fun _ => f) 0 s
  (r.1, r.2.1)

/-- The component after one run of an optional rollback. -/
def rollbackOnce (rollback : Option (Rollback κ)) (k : κ) : κ :=
  match rollback with
  | none => k
  | some rollback => (rollback k).2

/-- The component a failed transition must leave: the function ran, then its rollback ran
exactly once. -/
def componentAfterFailure (fn : Option (TransitionFn κ)) (s : Site κ) : κ :=
  match fn with
  | none => s.component
  | some fn =>
    let decided := fn (clone s.value) s.component
    rollbackOnce decided.1.rollback decided.2

/-- All-or-nothing: an error leaves the value in memory and the content of the state file as
they were, and has rolled the component back once; success puts the new value in both and
does not roll back. -/
def AllOrNothing (path : String) (fn : Option (TransitionFn κ)) (s : Site κ)
    (result : Outcome GoError Unit × Site κ) : Prop :=
  match result.1 with
  | .error _ =>
    result.2.value = s.value ∧ result.2.disk.content path = s.disk.content path ∧
      result.2.component = componentAfterFailure fn s
  | .ok _ => ∃ f text, fn = some f ∧
      marshalIndent (f (clone s.value) s.component).1.next = .ok text ∧
      result.2.value = (f (clone s.value) s.component).1.next ∧
      result.2.disk.content path = some (text ++ "\n") ∧
      result.2.component = (f (clone s.value) s.component).2
  | .crash => False

/-- The transition function accepts, the next state is valid and its encoding fits the limit:
the transition reaches the write, with these bytes. -/
def ReachesWrite (fn : TransitionFn κ) (s : Site κ) (data : String) : Prop :=
  (fn (clone s.value) s.component).1.err = none ∧
    (fn (clone s.value) s.component).1.next.Valid ∧
    ∃ text, marshalIndent (fn (clone s.value) s.component).1.next = .ok text ∧
      data = text ++ "\n" ∧ data.utf8ByteSize ≤ maxBytes

/-- The file is replaced by different bytes, and only then does opening or synchronising its
directory fail. -/
def ReplacedUnsynced (path : String) (fn : Option (TransitionFn κ)) (f : WriteFaults)
    (s : Site κ) : Prop :=
  ∃ g data, fn = some g ∧ ReachesWrite g s data ∧ f.Replaces path data s.disk ∧
    f.LosesDirectory ∧ s.disk.content path ≠ some data

/-! ## The run of a transition -/

theorem rollback_run (rollback : Rollback κ) (env : ℕ → WriteFaults) (n : ℕ) (s : Site κ) :
    rollback.toProc.run env n s =
      (match (rollback s.component).1 with
        | some err => .error err
        | none => .ok (), { s with component := (rollback s.component).2 }, n) := by
  unfold Rollback.toProc
  have hget : (get : Proc (Site κ) WriteFaults GoError (Site κ)).run env n s = (.ok s, s, n) := rfl
  rw [bind_run_ok hget, bind_run_ok rfl]
  cases (rollback s.component).1 <;> rfl

/-- Undoing reports an error and runs the rollback once. -/
theorem undo_run (rollback : Option (Rollback κ)) (err : GoError) (env : ℕ → WriteFaults)
    (n : ℕ) (s : Site κ) :
    ∃ err', (Store.undo (rollback.map Rollback.toProc) err : Proc _ _ _ Unit).run env n s =
      (.error err', { s with component := rollbackOnce rollback s.component }, n) := by
  cases rollback with
  | none => exact ⟨err, rfl⟩
  | some rollback =>
    have hrun := rollback_run rollback env n s
    unfold Store.undo
    cases hres : (rollback s.component).1 with
    | none =>
      rw [hres] at hrun
      exact ⟨err, by rw [Option.map_some, bind_run_ok (attempt_run_ok hrun)]; rfl⟩
    | some e =>
      rw [hres] at hrun
      exact ⟨.join err e, by rw [Option.map_some, bind_run_ok (attempt_run_error hrun)]; rfl⟩

section Run

variable (path : String) (fn : TransitionFn κ) (f : WriteFaults) (s : Site κ)

/-- The site after the transition function has acted on the component. -/
private abbrev decided : Site κ := { s with component := (fn (clone s.value) s.component).2 }

/-- A transition is the commit of what its function decides. -/
private theorem transition_run (env : ℕ → WriteFaults) :
    ((fileStore path).transition (some fn.toProc)).run env 0 s =
      ((fileStore path).commit
        { next := (fn (clone s.value) s.component).1.next,
          rollback := (fn (clone s.value) s.component).1.rollback.map Rollback.toProc,
          err := (fn (clone s.value) s.component).1.err, result := () }).run env 0
        (decided fn s) := by
  rfl

/-- A transition that does not reach the write reports an error and rolls back once. -/
theorem transition_refused (env : ℕ → WriteFaults)
    (h : ¬ ∃ data, ReachesWrite fn s data) :
    ∃ err, ((fileStore path).transition (some fn.toProc)).run env 0 s =
      (.error err, { s with component := componentAfterFailure (some fn) s }, 0) := by
  rw [transition_run]
  have hundo := fun err =>
    undo_run (fn (clone s.value) s.component).1.rollback err env 0 (decided fn s)
  unfold Store.commit
  cases herr : (fn (clone s.value) s.component).1.err with
  | some err => exact hundo err
  | none =>
    cases hvalid : (fn (clone s.value) s.component).1.next.validate with
    | some err => exact hundo err
    | none =>
      have hrefused : ∃ err, ((fileStore path).persist (fn (clone s.value) s.component).1.next).run
          env 0 (decided fn s) = (.error err, decided fn s, 0) := by
        unfold Store.persist
        simp only [hvalid]
        cases htext : marshalIndent (fn (clone s.value) s.component).1.next with
        | error err => exact ⟨_, rfl⟩
        | ok text =>
          by_cases hsize : (text ++ "\n").utf8ByteSize > maxBytes
          · simp only [hsize, ↓reduceIte]
            exact ⟨_, rfl⟩
          · exact absurd ⟨_, herr, hvalid, text, htext, rfl, Nat.le_of_not_lt hsize⟩ h
      obtain ⟨err, hrun⟩ := hrefused
      obtain ⟨err', hres⟩ := hundo err
      refine ⟨err', ?_⟩
      simp only
      rw [bind_run_ok (attempt_run_error hrun)]
      exact hres

/-- A transition that reaches the write ends as the write does: with the new value in memory,
or with an error and one rollback. -/
theorem transition_written {data : String} (env : ℕ → WriteFaults)
    (h : ReachesWrite fn s data) :
    let written := atomicWrite (env 0) path data 0o600 s.disk
    (written.1 = none ∧ ((fileStore path).transition (some fn.toProc)).run env 0 s =
      (.ok (), { value := (fn (clone s.value) s.component).1.next, disk := written.2,
                 component := (fn (clone s.value) s.component).2 }, 1)) ∨
    (written.1 ≠ none ∧ ∃ err, ((fileStore path).transition (some fn.toProc)).run env 0 s =
      (.error err, { value := s.value, disk := written.2,
                     component := componentAfterFailure (some fn) s }, 1)) := by
  intro written
  obtain ⟨herr, hvalid, text, htext, rfl, hsize⟩ := h
  have hvalid' : (fn (clone s.value) s.component).1.next.validate = none := hvalid
  have hsize' : ¬ (text ++ "\n").utf8ByteSize > maxBytes := Nat.not_lt.mpr hsize
  have hclone := clone_of_encodable (encodable_of_marshalIndent htext)
  rw [transition_run]
  unfold Store.commit
  simp only [herr, hvalid']
  unfold Store.persist
  simp only [hvalid', htext, hsize', ↓reduceIte]
  cases hres : written.1 with
  | none =>
    left
    have hwrite : ((fileStore path).write (fn (clone s.value) s.component).1.next
        (text ++ "\n")).run env 0 (decided fn s) = (.ok (), { decided fn s with disk := written.2 }, 1) := by
      simp [fileStore, Proc.ask, written, hres]
    refine ⟨rfl, ?_⟩
    rw [bind_run_ok (attempt_run_ok (bind_run_ok (attempt_run_ok hwrite)))]
    rw [hclone]
    rfl
  | some e =>
    right
    have hwrite : ((fileStore path).write (fn (clone s.value) s.component).1.next
        (text ++ "\n")).run env 0 (decided fn s) = (.error e, { decided fn s with disk := written.2 }, 1) := by
      simp [fileStore, Proc.ask, written, hres]
    obtain ⟨err', hundo⟩ := undo_run (fn (clone s.value) s.component).1.rollback
      (.wrap "persist state" e) env 1 { decided fn s with disk := written.2 }
    refine ⟨by simp, err', ?_⟩
    rw [bind_run_ok (attempt_run_error (bind_run_ok (attempt_run_error hwrite)))]
    exact hundo

/-- The bytes a transition writes are determined by what it starts from. -/
theorem reachesWrite_unique {data data' : String} (h : ReachesWrite fn s data)
    (h' : ReachesWrite fn s data') : data = data' := by
  obtain ⟨-, -, text, htext, rfl, -⟩ := h
  obtain ⟨-, -, text', htext', rfl, -⟩ := h'
  rw [htext] at htext'
  cases htext'
  rfl

/-- Refused before the write, a transition is all-or-nothing. -/
theorem allOrNothing_of_refused (h : ¬ ∃ data, ReachesWrite fn s data) :
    AllOrNothing path (some fn) s (runTransition path (some fn) f s) := by
  obtain ⟨err, hrun⟩ := transition_refused path fn s (fun _ => f) h
  simp [AllOrNothing, runTransition, hrun]

/-- Once the write is reached, a transition is all-or-nothing unless the file is replaced by
different bytes and the directory is lost. -/
theorem allOrNothing_of_reachesWrite {data : String} (h : ReachesWrite fn s data) :
    AllOrNothing path (some fn) s (runTransition path (some fn) f s) ↔
      ¬ (f.Replaces path data s.disk ∧ f.LosesDirectory ∧ s.disk.content path ≠ some data) := by
  have hreach := h
  obtain ⟨-, -, text, htext, rfl, -⟩ := hreach
  rcases transition_written path fn s (fun _ => f) h with ⟨hnone, hrun⟩ | ⟨hsome, err, hrun⟩
  · -- the write succeeded: it replaced the file and kept the directory
    by_cases hrep : f.Replaces path (text ++ "\n") s.disk
    · obtain ⟨hres, hcontent⟩ := atomicWrite_of_replaces 0o600 hrep
      have hkept : ¬ f.LosesDirectory := f.syncDir_eq_none_iff.mp (hres.symm.trans hnone)
      simp [AllOrNothing, runTransition, hrun, hkept, hcontent, htext]
    · exact absurd hnone (atomicWrite_of_not_replaces 0o600 hrep).1
  · by_cases hrep : f.Replaces path (text ++ "\n") s.disk
    · -- the file was replaced, so the error is that of the directory
      obtain ⟨hres, hcontent⟩ := atomicWrite_of_replaces 0o600 hrep
      have hlost : f.LosesDirectory := by
        by_contra hkept
        exact hsome (hres.trans (f.syncDir_eq_none_iff.mpr hkept))
      simp [AllOrNothing, runTransition, hrun, hrep, hlost, hcontent, eq_comm]
    · have hcontent := (atomicWrite_of_not_replaces 0o600 hrep).2
      simp [AllOrNothing, runTransition, hrun, hrep, hcontent]

end Run

/-- A transition is all-or-nothing exactly when its write does not replace the state file by
different bytes and then fail to open or synchronise the directory. -/
theorem transition_allOrNothing_iff (path : String) (fn : Option (TransitionFn κ))
    (f : WriteFaults) (s : Site κ) :
    AllOrNothing path fn s (runTransition path fn f s) ↔ ¬ ReplacedUnsynced path fn f s := by
  cases fn with
  | none =>
    have hrun : runTransition path (none : Option (TransitionFn κ)) f s =
        (.error (.new "nil state transition"), s) := rfl
    simp [AllOrNothing, hrun, componentAfterFailure, ReplacedUnsynced]
  | some g =>
    by_cases hreach : ∃ data, ReachesWrite g s data
    · obtain ⟨data, hdata⟩ := hreach
      rw [allOrNothing_of_reachesWrite path g f s hdata, not_iff_not]
      constructor
      · rintro ⟨hrep, hlost, hne⟩
        exact ⟨g, data, rfl, hdata, hrep, hlost, hne⟩
      · rintro ⟨g', data', hg, hdata', hrep, hlost, hne⟩
        cases hg
        rw [reachesWrite_unique g s hdata hdata']
        exact ⟨hrep, hlost, hne⟩
    · refine iff_of_true (allOrNothing_of_refused path g f s hreach) ?_
      rintro ⟨g', data', hg, hdata', -⟩
      cases hg
      exact hreach ⟨data', hdata'⟩

/-- A site with a freshly opened store: the state file encodes a new state, and the component
counts how often it has been rolled back. -/
def freshSite : Site ℕ where
  value := newState
  disk :=
    { files := fun name => if name = .path "/state.json" then
        (marshalIndent newState).toOption.map fun text => ⟨true, text ++ "\n", 0o600, (0, 0)⟩
      else none }
  component := 0

/-- Setting the service id of a fresh state, with a rollback that counts its runs. -/
def setServiceID : TransitionFn ℕ := fun current k =>
  ({ next := { current with serviceID := String.ofList (List.replicate 56 'a') },
     rollback := some fun k => (none, k + 1), err := none }, k)

/-- Only the final synchronisation of the directory fails. -/
def unsyncedDirectory : WriteFaults where
  fails step := step == .syncDir
  temp := 0
  copied := ""
  owner := (0, 0)

/-- When the final synchronisation of the directory fails, the transition reports an error and
rolls its component back, but the state file holds the new state. -/
theorem setServiceID_unsynced_not_allOrNothing :
    (runTransition "/state.json" (some setServiceID) unsyncedDirectory freshSite).1 =
        .error (.wrap "persist state" .external) ∧
      ¬ AllOrNothing "/state.json" (some setServiceID) freshSite
        (runTransition "/state.json" (some setServiceID) unsyncedDirectory freshSite) := by
  have herr : (runTransition "/state.json" (some setServiceID) unsyncedDirectory freshSite).1 =
      .error (.wrap "persist state" .external) := by decide +kernel
  have hcontent : (runTransition "/state.json" (some setServiceID) unsyncedDirectory
      freshSite).2.disk.content "/state.json" ≠ freshSite.disk.content "/state.json" := by
    decide +kernel
  refine ⟨herr, ?_⟩
  unfold AllOrNothing
  rw [herr]
  rintro ⟨-, hsame, -⟩
  exact hcontent hsame

end Torkitten
