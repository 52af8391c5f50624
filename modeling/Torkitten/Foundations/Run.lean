import Mathlib.Data.List.Basic

/-!
# Runs of labelled transition systems

The runs of a system whose steps carry labels. A run is recorded by its labels, the newest
first, so that "the most recent step of some kind" is a recursion on the record. An invariant
may relate the record to the state reached.
-/

/-- The states reached from `init` by steps, with the labels of the steps, newest first. -/
inductive Run {σ ℓ : Type} (init : σ → Prop) (step : σ → ℓ → σ → Prop) : List ℓ → σ → Prop where
  /-- Before the first step. -/
  | start {s : σ} (h : init s) : Run init step [] s
  /-- One more step. -/
  | next {ls : List ℓ} {s s' : σ} {l : ℓ} (r : Run init step ls s) (h : step s l s') :
      Run init step (l :: ls) s'

namespace Run

variable {σ ℓ : Type} {init : σ → Prop} {step : σ → ℓ → σ → Prop}

/-- What holds initially and is kept by every step holds along every run. -/
theorem invariant {I : List ℓ → σ → Prop} (hinit : ∀ s, init s → I [] s)
    (hstep : ∀ ls s l s', I ls s → step s l s' → I (l :: ls) s') {ls : List ℓ} {s : σ}
    (r : Run init step ls s) : I ls s := by
  induction r with
  | start h => exact hinit _ h
  | next _ h ih => exact hstep _ _ _ _ ih h

/-- A run can go on with a run from where it ended. -/
theorem append {ls ls' : List ℓ} {s s' : σ} (r : Run init step ls s)
    (r' : Run (· = s) step ls' s') : Run init step (ls' ++ ls) s' := by
  induction r' with
  | start h =>
    cases h
    exact r
  | next _ h ih => exact .next ih h

/-- A run can be split wherever its record can. -/
theorem split {ls ls' : List ℓ} {s' : σ} (r : Run init step (ls' ++ ls) s') :
    ∃ s, Run init step ls s ∧ Run (· = s) step ls' s' := by
  induction ls' generalizing s' with
  | nil => exact ⟨s', r, .start rfl⟩
  | cons l ls' ih =>
    cases r with
    | next r h =>
      obtain ⟨s, rearlier, rlater⟩ := ih r
      exact ⟨s, rearlier, .next rlater h⟩

/-- Every run of a system is matched by a run of another one, when the initial states are related and
every step from related states is matched by a step with a related label to related states. -/
theorem simulate {τ m : Type} {init' : τ → Prop} {step' : τ → m → τ → Prop} {R : σ → τ → Prop}
    {M : ℓ → m → Prop} (hinit : ∀ s, init s → ∃ t, init' t ∧ R s t)
    (hstep : ∀ s l s' t, R s t → step s l s' → ∃ l' t', step' t l' t' ∧ M l l' ∧ R s' t')
    {ls : List ℓ} {s : σ} (r : Run init step ls s) :
    ∃ ls' t, Run init' step' ls' t ∧ List.Forall₂ M ls ls' ∧ R s t := by
  induction r with
  | start h =>
    obtain ⟨t, ht, hR⟩ := hinit _ h
    exact ⟨[], t, .start ht, .nil, hR⟩
  | next _ h ih =>
    obtain ⟨ls', t, r', hM, hR⟩ := ih
    obtain ⟨l', t', h', hl, hR'⟩ := hstep _ _ _ t hR h
    exact ⟨l' :: ls', t', .next r' h', .cons hl hM, hR'⟩

end Run

/-- Replay the labels of a run, newest first, with a step function. -/
def replay {σ ℓ : Type} (f : σ → ℓ → Option σ) (s : σ) : List ℓ → Option σ
  | [] => some s
  | l :: ls => (replay f s ls).bind (f · l)

/-- A replay is a run, where every label meets the conditions of a step. -/
theorem Run.of_replay_labels {σ ℓ : Type} {init : σ → Prop} {step : σ → ℓ → σ → Prop}
    {f : σ → ℓ → Option σ} {s s' : σ} {ls : List ℓ} (hinit : init s)
    (hstep : ∀ l ∈ ls, ∀ s s', f s l = some s' → step s l s') (h : replay f s ls = some s') :
    Run init step ls s' := by
  induction ls generalizing s' with
  | nil =>
    cases h
    exact .start hinit
  | cons l ls ih =>
    obtain ⟨mid, hmid, hlast⟩ := Option.bind_eq_some_iff.mp h
    obtain ⟨hfirst, hrest⟩ := List.forall_mem_cons.mp hstep
    exact .next (ih hrest hmid) (hfirst _ _ hlast)

/-- A replay is a run. -/
theorem Run.of_replay {σ ℓ : Type} {init : σ → Prop} {step : σ → ℓ → σ → Prop}
    {f : σ → ℓ → Option σ} {s s' : σ} {ls : List ℓ} (hinit : init s)
    (hstep : ∀ s l s', f s l = some s' → step s l s') (h : replay f s ls = some s') :
    Run init step ls s' :=
  .of_replay_labels hinit (fun l _ s s' => hstep s l s') h

/-- Replay the labels of a run, newest first, and record the state each step was taken from. -/
def retrace {σ ℓ : Type} (f : σ → ℓ → Option σ) (s : σ) : List ℓ → Option (List (σ × ℓ) × σ)
  | [] => some ([], s)
  | l :: ls => (retrace f s ls).bind fun (es, s) => (f s l).map ((s, l) :: es, ·)

/-- What is retraced is a run recorded with the states its steps were taken from. -/
theorem Run.of_retrace {σ ℓ : Type} {init : σ → Prop} {step : σ → σ × ℓ → σ → Prop}
    {f : σ → ℓ → Option σ} {s s' : σ} {ls : List ℓ} {es : List (σ × ℓ)} (hinit : init s)
    (hstep : ∀ s l s', f s l = some s' → step s (s, l) s')
    (h : retrace f s ls = some (es, s')) : Run init step es s' := by
  induction ls generalizing es s' with
  | nil =>
    cases h
    exact .start hinit
  | cons l ls ih =>
    obtain ⟨⟨earlier, mid⟩, hmid, hlast⟩ := Option.bind_eq_some_iff.mp h
    obtain ⟨last, hf, heq⟩ := Option.map_eq_some_iff.mp hlast
    cases heq
    exact .next (ih hmid) (hstep _ _ _ hf)

/-- Replay the labels of a run, newest first, and record what each step puts out. -/
def follow {σ ℓ ω : Type} (f : σ → ℓ → Option (σ × ω)) (s : σ) : List ℓ → Option (List ω × σ)
  | [] => some ([], s)
  | l :: ls => (follow f s ls).bind fun (outs, s) => (f s l).map fun (s, out) => (out :: outs, s)

/-- What is followed is a run recorded by what its steps put out. -/
theorem Run.of_follow {σ ℓ ω : Type} {init : σ → Prop} {step : σ → ω → σ → Prop}
    {f : σ → ℓ → Option (σ × ω)} {s s' : σ} {ls : List ℓ} {outs : List ω} (hinit : init s)
    (hstep : ∀ s l s' out, f s l = some (s', out) → step s out s')
    (h : follow f s ls = some (outs, s')) : Run init step outs s' := by
  induction ls generalizing outs s' with
  | nil =>
    cases h
    exact .start hinit
  | cons l ls ih =>
    obtain ⟨⟨earlier, mid⟩, hmid, hlast⟩ := Option.bind_eq_some_iff.mp h
    obtain ⟨⟨last, out⟩, hf, heq⟩ := Option.map_eq_some_iff.mp hlast
    cases heq
    exact .next (ih hmid) (hstep _ _ _ _ hf)
