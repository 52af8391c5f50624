import Torkitten.Store.Reopen

/-!
# A store of texts is a store of values

The other modules speak of a store as of two values, one in memory and one in the state file, which a
transition replaces together or leaves alone. `Ledger` is that store. The program keeps a text in a
file, copies its value by encoding and decoding it, and replaces the file in ten steps that can fail;
`TextSite` is that store, together with a component that transition functions act on and that their
rollbacks restore. Every run of the second is a run of the first.

## Main definitions

* `TextSite.transition`: `Store.Transition` with its texts and its rollback;
* `Ledger.Step`: what a transition is for.

## Main results

* `ledgerRun_of_textRun`: the runs of a store of texts are runs of a store of values, with the same
  functions and the same outcomes.
-/

namespace Torkitten

open DraftStore

variable {κ : Type}

/-! ## The store of texts -/

/-- What a transition function returns. -/
structure DraftDecision (κ : Type) where
  next : Draft
  rollback : Option (Rollback κ)
  err : Option GoError

/-- A transition function: it reads the current state and acts on the component. -/
abbrev DraftFn (κ : Type) := Draft → κ → DraftDecision κ × κ

/-- The next state, or the error of the function. -/
def DraftFn.decide (fn : DraftFn κ) (k : κ) (d : Draft) : Except GoError Draft :=
  match (fn d k).1.err with
  | some err => .error err
  | none => .ok (fn d k).1.next

/-- The function as one of states. -/
def DraftFn.onStates (fn : DraftFn κ) : TransitionFn κ := fun s k =>
  ({ next := (fn s.draft k).1.next.state
     rollback := (fn s.draft k).1.rollback
     err := (fn s.draft k).1.err }, (fn s.draft k).2)

/-- The error of a rollback is joined to the one that led to it. -/
def rollbackError (rollback : Option (Rollback κ)) (k : κ) (err : GoError) : GoError :=
  match rollback with
  | none => err
  | some rollback => (rollback k).1.elim err err.join

/-- A store of texts, and the component that transition functions act on. -/
structure TextSite (κ : Type) where
  store : DraftStore
  component : κ

/-- `Store.Transition`. -/
def TextSite.transition (path : String) (t : TextSite κ) (fn : Option (DraftFn κ)) (f : WriteFaults) :
    Option GoError × TextSite κ :=
  let result := t.store.transition path (fn.map fun fn => fn.decide t.component) f
  match fn with
  | none => (result.1, ⟨result.2, t.component⟩)
  | some fn =>
    let decided := fn t.store.value.clone t.component
    match result.1 with
    | none => (none, ⟨result.2, decided.2⟩)
    | some err => (some (rollbackError decided.1.rollback decided.2 err),
        ⟨result.2, rollbackOnce decided.1.rollback decided.2⟩)

/-- What happens to a store of texts. -/
inductive TextVisit (κ : Type) where
  /-- The store is opened again. -/
  | reopen (f : WriteFaults)
  | transition (fn : Option (DraftFn κ)) (f : WriteFaults)

/-- The faults of the write of a visit. -/
def TextVisit.faults : TextVisit κ → WriteFaults
  | .reopen f => f
  | .transition _ f => f

/-- One visit, and whether it succeeds. A store that cannot be opened is not used. -/
def TextSite.visit (path : String) (t : TextSite κ) : TextVisit κ → Option (Bool × TextSite κ)
  | .reopen f =>
    match openPath path f t.store.disk with
    | (.ok value, disk) => some (true, ⟨⟨value, disk⟩, t.component⟩)
    | (.error _, _) => none
  | .transition fn f => some ((t.transition path fn f).1.isNone, (t.transition path fn f).2)

/-- The runs of a store of texts whose writes are all-or-nothing, with the outcomes of the visits. -/
abbrev TextRun (κ : Type) (path : String) : List (TextVisit κ × Bool) → TextSite κ → Prop :=
  Run (fun t => Opened path t.store) fun t l t' =>
    ¬ l.1.faults.LosesDirectory ∧ t.visit path l.1 = some (l.2, t')

/-! ## The store of values -/

/-- A store: the value in memory, the one in the state file, and the component. -/
structure Ledger (κ : Type) where
  value : State
  durable : State
  component : κ

/-- A state that can be stored: it is valid, and its text is not too long. -/
def State.Storable (s : State) : Prop :=
  s.Valid ∧ ∃ document, s.toJson = .ok document ∧ (written document).utf8ByteSize ≤ maxBytes

/-- What happens to a store of values. -/
inductive LedgerVisit (κ : Type) where
  | reopen
  /-- A transition, and whether its write fails. -/
  | transition (fn : Option (TransitionFn κ)) (fails : Bool)

namespace Ledger

/-- What has just been opened: the bootstrap window is not kept. -/
structure Initial (a : Ledger κ) : Prop where
  valid : a.durable.Valid
  value : a.value = { a.durable with bootstrap := none }

/-- One visit, with its outcome. A transition function is handed the value in memory. Where it
succeeds, its state can be stored and the write does not fail, that state is the new value in memory
and in the file. Otherwise both stay, and the rollback has run once. -/
inductive Step : Ledger κ → LedgerVisit κ × Bool → Ledger κ → Prop where
  | reopen (a : Ledger κ) : Step a (.reopen, true) { a with value := { a.durable with bootstrap := none } }
  | absent (a : Ledger κ) (fails : Bool) : Step a (.transition none fails, false) a
  | stored (a : Ledger κ) (fn : TransitionFn κ) (herr : (fn a.value a.component).1.err = none)
      (h : (fn a.value a.component).1.next.Storable) :
      Step a (.transition (some fn) false, true)
        ⟨(fn a.value a.component).1.next, (fn a.value a.component).1.next, (fn a.value a.component).2⟩
  | undone (a : Ledger κ) (fn : TransitionFn κ) (fails : Bool)
      (h : (fn a.value a.component).1.err ≠ none ∨ ¬ (fn a.value a.component).1.next.Storable ∨
        fails = true) :
      Step a (.transition (some fn) fails, false)
        { a with component := rollbackOnce (fn a.value a.component).1.rollback (fn a.value a.component).2 }

end Ledger

/-- The runs of a store of values. -/
abbrev LedgerRun (κ : Type) : List (LedgerVisit κ × Bool) → Ledger κ → Prop :=
  Run Ledger.Initial Ledger.Step

/-- The same visit, with the same outcome. A write fails only if a system call of it does. -/
inductive Answers : TextVisit κ × Bool → LedgerVisit κ × Bool → Prop where
  | reopen (f : WriteFaults) (ok : Bool) : Answers (.reopen f, ok) (.reopen, ok)
  | transition (fn : Option (DraftFn κ)) (f : WriteFaults) (fails ok : Bool)
      (h : fails = true → ∃ step, f.fails step = true) :
      Answers (.transition fn f, ok) (.transition (fn.map DraftFn.onStates) fails, ok)

/-! ## Writing a text -/

section Persist

variable {path : String} {f : WriteFaults} {s : State} {disk : Disk}

/-- A state that has been stored could be stored. -/
theorem storable_of_persist (h : (persist path f s.draft disk).1 = none) : s.Storable := by
  unfold persist at h
  split at h
  next => cases h
  next hvalid =>
    split at h
    next => cases h
    next text htext =>
      obtain ⟨v, hv, htext⟩ := bind_eq_ok_iff.mp htext
      obtain ⟨document, hdocument, hv⟩ := bind_eq_ok_iff.mp hv
      cases hv
      cases htext
      rw [show s.draft.nils = [] from rfl, nullify_nil] at h
      split at h
      next => cases h
      next hsize => exact ⟨hvalid, document, hdocument, Nat.not_lt.mp hsize⟩

/-- A state that can be stored is stored, unless a system call fails. -/
theorem fails_of_persist (hs : s.Storable) (habsolute : path.startsWith "/" = true)
    (hregular : ∀ file, disk.files (.path path) = some file → file.regular = true)
    (hf : ¬ f.LosesDirectory) (h : (persist path f s.draft disk).1 ≠ none) :
    ∃ step, f.fails step = true := by
  by_contra hcalm
  rw [not_exists] at hcalm
  have hcalm : ∀ step, f.fails step = false := fun step => Bool.eq_false_iff.mpr (hcalm step)
  obtain ⟨hvalid, document, hdocument, hsize⟩ := hs
  have hreplaces : f.Replaces path (written document) disk :=
    ⟨habsolute, hsize, hcalm _, hregular, hcalm _, hcalm _, fun _ => hcalm _, hcalm _, hcalm _, hcalm _,
      hcalm _⟩
  have hwrite := (atomicWrite_of_replaces 0o600 hreplaces).1
  rw [f.syncDir_eq_none_iff.mpr hf] at hwrite
  apply h
  have hnone : s.draft.state.validate = none := hvalid
  have htext : s.draft.marshalIndent = .ok (document.value.print indented 0) := by
    rw [Draft.marshalIndent, encode_draft hdocument]
    rfl
  unfold persist
  rw [hnone, htext]
  dsimp only
  rw [← written, if_neg (Nat.not_lt.mpr hsize)]
  split
  next heq =>
    rw [heq] at hwrite
    cases hwrite
  next => rfl

end Persist

/-! ## Simulation -/

/-- A store of texts with the values that it stands for. -/
structure Represents (path : String) (t : TextSite κ) (a : Ledger κ) : Prop where
  durably : Durable path t.store
  value : t.store.value = a.value.draft
  durable : ∃ file d, t.store.disk.files (.path path) = some file ∧ load file = .ok d ∧
    d.state = a.durable
  component : t.component = a.component

section Simulation

variable {path : String} {t t' : TextSite κ} {a : Ledger κ}

theorem regular_of_load {file : File} {d : Draft} (h : load file = .ok d) : file.regular = true := by
  unfold load at h
  split at h
  next => cases h
  next hsafe =>
    simp only [Bool.or_eq_true, Bool.not_eq_true', not_or, Bool.not_eq_false] at hsafe
    exact hsafe.1.1

theorem bootstrap_of_openPath {f : WriteFaults} {disk disk' : Disk} {value : Draft}
    (h : openPath path f disk = (.ok value, disk')) : value.bootstrap = none := by
  unfold openPath at h
  split at h
  next => cases h
  next =>
    split at h
    next =>
      split at h
      next => cases h
      next =>
        cases h
        rfl
    next =>
      split at h
      next => cases h
      next =>
        cases h
        rfl

/-- What is opened stands for the state of the file. -/
theorem represents_opened (h : Opened path t.store) : ∃ a : Ledger κ, a.Initial ∧ Represents path t a := by
  have hdurable := h.durable
  obtain ⟨f, disk, -, hopen, -⟩ := h.opened
  obtain ⟨file, d, hfile, hload, hvalue⟩ := hdurable.file
  have hbootstrap := bootstrap_of_openPath hopen
  refine ⟨⟨t.store.value.state, d.state, t.component⟩, ⟨valid_of_load hload, ?_⟩, hdurable,
    hdurable.noNil.draft_state.symm, ⟨file, d, hfile, hload, rfl⟩, rfl⟩
  have hstate := congrArg Draft.state hvalue
  have hsame : ({ t.store.value with bootstrap := none } : Draft).state = t.store.value.state := by
    rw [← hbootstrap]
  rw [hsame] at hstate
  exact hstate.symm

theorem Represents.reopen (h : Represents path t a) {f : WriteFaults} {ok : Bool}
    (hvisit : t.visit path (.reopen f) = some (ok, t')) :
    ok = true ∧ Represents path t' { a with value := { a.durable with bootstrap := none } } := by
  dsimp only [TextSite.visit] at hvisit
  rw [h.durably.reopen f] at hvisit
  cases hvisit
  obtain ⟨file, d, hfile, hload, hdurable⟩ := h.durable
  refine ⟨rfl, h.durably.dropBootstrap, ?_, ⟨file, d, hfile, hload, hdurable⟩, h.component⟩
  -- the file holds the value in memory, apart from the window
  obtain ⟨file', d', hfile', hload', hvalue⟩ := h.durably.file
  rw [hfile] at hfile'
  cases hfile'
  rw [hload] at hload'
  cases hload'
  dsimp only
  rw [← hvalue, ← hdurable]
  rfl

/-- How a transition of a durable store ends: the new state is in memory and in the file, or both are
as they were. It fails only if the function does, the new state cannot be stored, or a system call
fails. -/
theorem transition_ends {store : DraftStore} (h : Durable path store)
    (g : Draft → Except GoError Draft) {f : WriteFaults} (hf : ¬ f.LosesDirectory) :
    (∃ next file, (store.transition path (some g) f).1 = none ∧ g store.value = .ok next ∧
        next.state.Storable ∧ (store.transition path (some g) f).2.value = next.state.draft ∧
        (store.transition path (some g) f).2.disk.files (.path path) = some file ∧
        load file = .ok next.state.draft) ∨
      ∃ err, (store.transition path (some g) f).1 = some err ∧
        (store.transition path (some g) f).2.value = store.value ∧
        (store.transition path (some g) f).2.disk.files (.path path) = store.disk.files (.path path) ∧
        ∀ next, g store.value = .ok next → next.state.Storable → ∃ step, f.fails step = true := by
  unfold DraftStore.transition
  rw [h.clone]
  dsimp only
  split
  next err herr => exact .inr ⟨err, rfl, rfl, rfl, fun next hnext => by rw [herr] at hnext; cases hnext⟩
  next next hnext =>
    split
    next err hinvalid =>
      refine .inr ⟨err, rfl, rfl, rfl, fun next' hnext' hs => ?_⟩
      rw [hnext] at hnext'
      cases hnext'
      have hvalid : next.normalize.state.validate = none := hs.1
      rw [hvalid] at hinvalid
      cases hinvalid
    next hvalid =>
      have hpersist := persist_spec path next.state store.disk hf
      have hfails : ∀ hs : next.state.Storable, (persist path f next.state.draft store.disk).1 ≠ none →
          ∃ step, f.fails step = true := by
        obtain ⟨file, d, hfile, hload, -⟩ := h.file
        refine fun hs => fails_of_persist hs h.absolute (fun file' hfile' => ?_) hf
        rw [hfile] at hfile'
        cases hfile'
        exact regular_of_load hload
      have hstorable : (persist path f next.state.draft store.disk).1 = none → next.state.Storable :=
        storable_of_persist
      rw [show next.state.draft = next.normalize from rfl] at hpersist hfails hstorable
      split
      next err disk heq =>
        rw [heq] at hpersist hfails
        obtain ⟨-, hkept⟩ := hpersist.resolve_left fun hok => by cases hok.1
        refine .inr ⟨err, rfl, rfl, hkept, fun next' hnext' hs => ?_⟩
        rw [hnext] at hnext'
        cases hnext'
        exact hfails hs (Option.some_ne_none err)
      next disk heq =>
        rw [heq] at hpersist hstorable
        obtain ⟨-, hvalid, henc, file, hfile, hload⟩ := hpersist.resolve_right fun hbad => hbad.1 rfl
        refine .inl ⟨next, file, rfl, hnext, hstorable rfl, ?_, hfile, hload⟩
        exact clone_draft hvalid.canonical henc

/-- A transition of the store of texts is one of the store of values. -/
theorem Represents.transition (h : Represents path t a) (fn : Option (DraftFn κ)) {f : WriteFaults}
    (hf : ¬ f.LosesDirectory) : ∃ fails a',
      a.Step (.transition (fn.map DraftFn.onStates) fails, (t.transition path fn f).1.isNone) a' ∧
        (fails = true → ∃ step, f.fails step = true) ∧ Represents path (t.transition path fn f).2 a' := by
  cases fn with
  | none =>
    exact ⟨false, a, .absent a false, fun hfails => absurd hfails Bool.false_ne_true, h.durably, h.value,
      h.durable, h.component⟩
  | some fn =>
    obtain ⟨store, k⟩ := t
    obtain ⟨hdurably, hvalue, hdurable, hcomponent⟩ := h
    dsimp only at hdurably hvalue hdurable hcomponent
    subst hcomponent
    -- the function is handed the value that the store of values has
    have hclone : store.value.clone = a.value.draft := hdurably.clone.trans hvalue
    have hdurably' := hdurably.visit (v := .transition (some (fn.decide a.component)) f) hf rfl
    have hends := transition_ends hdurably (fn.decide a.component) hf
    rw [hvalue] at hends
    unfold TextSite.transition
    dsimp only [Option.map_some]
    rw [hclone]
    rcases hends with ⟨next, file, hnone, hnext, hs, hvalue', hfile, hload⟩ | ⟨err, herr, hvalue', hkept, hwhy⟩
    · rw [hnone]
      -- the function has succeeded, with this state
      have hdecided : (fn a.value.draft a.component).1.err = none ∧
          (fn a.value.draft a.component).1.next = next := by
        unfold DraftFn.decide at hnext
        split at hnext
        next => cases hnext
        next hok => exact ⟨hok, Except.ok.inj hnext⟩
      obtain ⟨hok, rfl⟩ := hdecided
      refine ⟨false, _, .stored a fn.onStates hok hs, fun hfails => absurd hfails Bool.false_ne_true,
        hdurably', hvalue', ⟨file, _, hfile, hload, rfl⟩, rfl⟩
    · rw [herr]
      by_cases hok : (fn a.value.draft a.component).1.err = none ∧
          (fn a.value.draft a.component).1.next.state.Storable
      · have hnext : fn.decide a.component a.value.draft = .ok (fn a.value.draft a.component).1.next := by
          rw [DraftFn.decide, hok.1]
        refine ⟨true, _, .undone a fn.onStates true (.inr (.inr rfl)), fun _ => hwhy _ hnext hok.2,
          hdurably', hvalue', ?_, rfl⟩
        obtain ⟨file, d, hfile, hload, hstate⟩ := hdurable
        exact ⟨file, d, hkept.trans hfile, hload, hstate⟩
      · refine ⟨false, _, .undone a fn.onStates false ?_, fun hfails => absurd hfails Bool.false_ne_true,
          hdurably', hvalue', ?_, rfl⟩
        · rcases not_and_or.mp hok with hbad | hbad
          · exact .inl hbad
          · exact .inr (.inl hbad)
        · obtain ⟨file, d, hfile, hload, hstate⟩ := hdurable
          exact ⟨file, d, hkept.trans hfile, hload, hstate⟩

end Simulation

/-- Every run of a store of texts is a run of a store of values: the transition functions are handed
the same values, they succeed and fail alike, and the component is acted on alike. -/
theorem ledgerRun_of_textRun (path : String) {ls : List (TextVisit κ × Bool)} {t : TextSite κ}
    (r : TextRun κ path ls t) :
    ∃ ms a, LedgerRun κ ms a ∧ List.Forall₂ Answers ls ms ∧ Represents path t a := by
  refine r.simulate (fun _ hopened => represents_opened hopened) ?_
  rintro t ⟨v, ok⟩ t' a h ⟨hf, hvisit⟩
  cases v with
  | reopen f =>
    obtain ⟨rfl, h'⟩ := h.reopen hvisit
    exact ⟨_, _, .reopen a, .reopen f true, h'⟩
  | transition fn f =>
    cases hvisit
    obtain ⟨fails, a', hstep, hfails, h'⟩ := h.transition fn hf
    exact ⟨_, a', hstep, .transition fn f fails _ hfails, h'⟩

/-- A transition to a state with nil collections, whose rollback counts its runs. -/
def legacyChange (err : Option GoError) : DraftFn ℕ := fun d k =>
  ({ next := { d with mappings := none, tokens := none }
     rollback := some fun k => (none, k + 1), err }, k)

/-- The state is stored, and then the function refuses and is rolled back once. -/
def legacyVisits : List (TextVisit ℕ × Bool) :=
  [(.transition (some (legacyChange (some (.new "refused")))) noFaults, false),
   (.transition (some (legacyChange none)) noFaults, true)]

theorem legacyVisits_ledger : ∃ ms a, LedgerRun ℕ ms a ∧ List.Forall₂ Answers legacyVisits ms ∧
    a.component = 1 := by
  let start : TextSite ℕ := ⟨createdStore, 0⟩
  let site := (start.transition "/state.json" (some (legacyChange none)) noFaults).2
  have hstored : (start.transition "/state.json" (some (legacyChange none)) noFaults).1.isNone = true ∧
      site.component = 0 := by decide +kernel
  have r : TextRun ℕ "/state.json" legacyVisits _ :=
    .next (.next (.start (s := start) opened_createdStore)
      ⟨noFaults_keeps, congrArg (fun ok => some (ok, site)) hstored.1⟩) ⟨noFaults_keeps, rfl⟩
  obtain ⟨ms, a, rvalues, hanswers, h⟩ := ledgerRun_of_textRun _ r
  refine ⟨ms, a, rvalues, hanswers, h.component.symm.trans ?_⟩
  change site.component + 1 = 1
  rw [hstored.2]

end Torkitten
