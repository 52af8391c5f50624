import Torkitten.Supervisor.Worker

/-!
# Commands are not lost

A command raises the generation of its worker and leaves a token in the wake channel; the
worker compares the generation it launched with whenever it takes a token. This module shows
what that protocol guarantees: a worker that rests in its monitoring `select` with an empty
wake channel watches a process launched after the most recent command.

It does not guarantee that the component is wanted. `launch` reads the generation in another
locked section than the one in which `shouldRun` reads `desired`, so a `Stop` that falls
between the two already belongs to the generation of the launch it should have prevented.
-/

namespace Torkitten.Supervisor

/-- In a record of steps, newest first, a process was started after the most recent command. -/
def launchedAfterLastCommand : List Label → Bool
  | [] => false
  | .started _ :: _ => true
  | .command _ :: _ => false
  | _ :: earlier => launchedAfterLastCommand earlier

/-- The generation read by the launch in progress, from its first section to the end of the
monitoring loop. -/
def Pc.captured : Pc → Option ℕ
  | .starting g | .publish g _ | .stamp g | .monitor g | .woken g => some g
  | .healthRead g _ | .recover g | .healthWrite g _ => some g
  | _ => none

/-- A `Stop` that arrives after `shouldRun` has decided to launch and before `launch` has read
the generation. -/
def Overtaken (w : Worker) (l : Label) : Prop := l = .command .stop ∧ w.pc = .launch

instance (w : Worker) (l : Label) : Decidable (Overtaken w l) :=
  inferInstanceAs (Decidable (_ ∧ _))

/-- The runs of a worker from its creation. -/
abbrev WorkerRun : List Label → Worker → Prop :=
  Run (fun w => ∃ disabled hasRecover now, w = Worker.new disabled hasRecover now)
    (fun w l w' => w.step l = some w')

/-- The runs of a worker in which no `Stop` is overtaken by a launch. -/
abbrev OrderlyRun : List Label → Worker → Prop :=
  Run (fun w => ∃ disabled hasRecover now, w = Worker.new disabled hasRecover now)
    (fun w l w' => ¬ Overtaken w l ∧ w.step l = some w')

/-! ## What a step does to the launch in progress -/

namespace Worker

variable {w w' : Worker} {l : Label}

@[simp]
theorem signal_pc (w : Worker) : w.signal.pc = w.pc := by
  unfold signal
  split <;> rfl

@[simp]
theorem signal_desired (w : Worker) : w.signal.desired = w.desired := by
  unfold signal
  split <;> rfl

@[simp]
theorem signal_generation (w : Worker) : w.signal.generation = w.generation := by
  unfold signal
  split <;> rfl

@[simp]
theorem signal_wake (w : Worker) : w.signal.wake = w.wake := by
  unfold signal
  split <;> rfl

@[simp]
theorem command_pc (w : Worker) (c : Command) : (w.command c).pc = w.pc := by
  unfold command
  cases c.interrupt <;> simp

@[simp]
theorem command_desired (w : Worker) (c : Command) : (w.command c).desired = c.desired := by
  unfold command
  cases c.interrupt <;> simp

@[simp]
theorem command_generation (w : Worker) (c : Command) :
    (w.command c).generation = w.generation + 1 := by
  unfold command
  cases c.interrupt <;> simp

@[simp]
theorem command_wake (w : Worker) (c : Command) : (w.command c).wake = true := rfl

/-- The step leaves the worker where it stands. -/
def Stays (w w' : Worker) : Prop :=
  w'.pc = w.pc ∧ w'.desired = w.desired ∧ w'.wake = w.wake

/-- The step leads to a position outside any launch, and to `launch` only when the component
is wanted. -/
def Leaves (w' : Worker) : Prop :=
  w'.pc.captured = none ∧ (w'.pc = .launch → w'.desired = true)

/-- The step reads the generation for a new launch. -/
def Captures (w w' : Worker) : Prop :=
  w.pc = .launch ∧ w'.pc = .starting w.generation ∧ w'.desired = w.desired

/-- The step goes on with the launch of generation `g`. -/
structure Follows (w : Worker) (l : Label) (w' : Worker) (g : ℕ) : Prop where
  before : w.pc.captured = some g
  after : w'.pc.captured = some g
  desired : w'.desired = w.desired
  started : w'.pc ≠ .starting g
  first : w.pc = .starting g → ∃ pid, l = .started pid
  wake : w'.wake = w.wake ∨ w'.pc = .woken g
  compared : w.pc = .woken g → w.generation = g

/-- What a step can do that is not a command. -/
def Moves (w : Worker) (l : Label) (w' : Worker) : Prop :=
  w'.generation = w.generation ∧
    (Stays w w' ∨ Leaves w' ∨ Captures w w' ∨ ∃ g, Follows w l w' g)

/-- A step to a position outside any launch, other than `launch` itself. -/
theorem Moves.leaves (hgen : w'.generation = w.generation) (hnone : w'.pc.captured = none)
    (hne : w'.pc ≠ .launch) : Moves w l w' :=
  ⟨hgen, .inr (.inl ⟨hnone, fun h => absurd h hne⟩)⟩

/-- A step inside a launch that has passed `cmd.Start`, and does not take a wake token. -/
theorem Moves.follows {g : ℕ} (hgen : w'.generation = w.generation)
    (hdesired : w'.desired = w.desired) (hwake : w'.wake = w.wake)
    (hbefore : w.pc.captured = some g) (hafter : w'.pc.captured = some g)
    (hne : w.pc ≠ .starting g) (hne' : w'.pc ≠ .starting g)
    (hcompared : w.pc = .woken g → w.generation = g) : Moves w l w' :=
  ⟨hgen, .inr (.inr (.inr ⟨g, hbefore, hafter, hdesired, hne', fun h => absurd h hne,
    .inl hwake, hcompared⟩))⟩

theorem shouldRun_moves (w : Worker) : Moves w l w.shouldRun := by
  unfold shouldRun
  split
  next hdesired => exact ⟨rfl, .inr (.inl ⟨rfl, fun _ => hdesired⟩)⟩
  next => exact .leaves rfl rfl nofun

theorem healthRead_moves {g : ℕ} {healthy : Bool} (hpc : w.pc = .healthRead g healthy) :
    Moves w l (w.healthRead g healthy) := by
  have hbefore : w.pc.captured = some g := by rw [hpc]; rfl
  unfold healthRead
  refine .follows rfl rfl rfl hbefore ?_ (by simp [hpc]) ?_ (by simp [hpc])
  · simp only
    split <;> rfl
  · simp only
    split <;> nofun

theorem healthWrite_moves {g : ℕ} {healthy : Bool} (hpc : w.pc = .healthWrite g healthy) :
    Moves w l (w.healthWrite g healthy) := by
  have hbefore : w.pc.captured = some g := by rw [hpc]; rfl
  -- every branch goes back to the monitoring `select`
  have hfacts : (w.healthWrite g healthy).generation = w.generation ∧
      (w.healthWrite g healthy).desired = w.desired ∧ (w.healthWrite g healthy).wake = w.wake ∧
      (w.healthWrite g healthy).pc = .monitor g := by
    unfold healthWrite
    split
    · simp
    · split
      · simp
      · split <;> simp
  obtain ⟨hgen, hdesired, hwake, hafter⟩ := hfacts
  exact .follows hgen hdesired hwake hbefore (by rw [hafter]; rfl) (by simp [hpc])
    (by simp [hafter]) (by simp [hpc])

theorem terminate_moves (w : Worker) (g : Option ℕ) : Moves w l (w.terminate g) := by
  unfold terminate
  split
  · cases g with
    | none => exact .leaves rfl rfl nofun
    | some g => exact .leaves rfl rfl nofun
  · exact .leaves (signal_generation w) rfl nofun

theorem compare_moves (w : Worker) (g : ℕ) : Moves w l (w.compare g) := by
  unfold compare
  split
  · exact .leaves rfl rfl nofun
  · exact .leaves rfl rfl nofun

/-- After a wake token the launch goes on only when no command has arrived since. -/
theorem woken_moves {g : ℕ} (hpc : w.pc = .woken g) :
    Moves w l { w with
      pc := if w.generation ≠ g then .terminate (some g) else .monitor g } := by
  by_cases hgen : w.generation = g
  · refine .follows (g := g) rfl rfl rfl (by rw [hpc]; rfl) ?_ (by simp [hpc]) ?_ fun _ => hgen
    · simp [hgen, Pc.captured]
    · simp [hgen]
  · refine .leaves rfl ?_ ?_
    · simp [hgen, Pc.captured]
    · simp [hgen]

/-- A choice between two positions outside any launch. -/
theorem Moves.leaves_ite {c : Prop} [Decidable c] {a b : Pc} (hgen : w'.generation = w.generation)
    (hpc : w'.pc = if c then a else b) (ha : a.captured = none) (hb : b.captured = none)
    (hane : a ≠ .launch) (hbne : b ≠ .launch) : Moves w l w' := by
  by_cases hc : c
  · rw [if_pos hc] at hpc
    exact .leaves hgen (hpc ▸ ha) (hpc ▸ hane)
  · rw [if_neg hc] at hpc
    exact .leaves hgen (hpc ▸ hb) (hpc ▸ hbne)

theorem work_moves (h : w.work = some w') : Moves w .work w' := by
  unfold work at h
  cases hpc : w.pc <;> rw [hpc] at h <;> cases h
  case check => exact shouldRun_moves w
  case launch => exact ⟨rfl, .inr (.inr (.inl ⟨hpc, rfl, rfl⟩))⟩
  case publish g pid =>
    exact .follows (g := g) rfl rfl rfl (by rw [hpc]; rfl) rfl (by simp [hpc]) nofun (by simp [hpc])
  case stamp g =>
    exact .follows (g := g) rfl rfl rfl (by rw [hpc]; rfl) rfl (by simp [hpc]) nofun (by simp [hpc])
  case startFailed => exact .leaves_ite rfl rfl rfl rfl nofun nofun
  case startCeiling => exact .leaves rfl rfl nofun
  case startContext => exact .leaves_ite rfl rfl rfl rfl nofun nofun
  case woken g => exact woken_moves hpc
  case healthRead g healthy => exact healthRead_moves hpc
  case healthWrite g healthy => exact healthWrite_moves hpc
  case terminate g => exact terminate_moves w g
  case clearReaped g => cases g <;> exact .leaves rfl rfl nofun
  case clear g => exact .leaves rfl rfl nofun
  case compare g => exact compare_moves w g
  case exitFailed => exact .leaves_ite rfl rfl rfl rfl nofun nofun
  case exitCeiling => exact .leaves rfl rfl nofun

theorem takeWake_moves (h : w.step .takeWake = some w') : Moves w .takeWake w' := by
  simp only [step, takeWake] at h
  split at h
  next hwake =>
    cases hpc : w.pc <;> rw [hpc] at h <;> cases h
    case monitor g =>
      exact ⟨rfl, .inr (.inr (.inr ⟨g, by rw [hpc]; rfl, rfl, rfl, nofun, by simp [hpc], .inr rfl,
        by simp [hpc]⟩))⟩
    all_goals exact .leaves rfl rfl nofun
  next => cases h

/-- Every step that is not a command moves the worker in one of the ways above. -/
theorem step_moves (h : w.step l = some w') (hl : ∀ c, l ≠ .command c) : Moves w l w' := by
  cases l with
  | command c => exact absurd rfl (hl c)
  | exit =>
    simp only [step] at h
    split at h <;> cases h
    exact ⟨rfl, .inl ⟨rfl, rfl, rfl⟩⟩
  | cancel =>
    cases h
    exact ⟨rfl, .inl ⟨rfl, rfl, rfl⟩⟩
  | tick d =>
    cases h
    exact ⟨rfl, .inl ⟨rfl, rfl, rfl⟩⟩
  | work => exact work_moves h
  | takeWake => exact takeWake_moves h
  | delayOver =>
    simp only [step, delayOver] at h
    cases hpc : w.pc <;> rw [hpc] at h <;> cases h
    all_goals exact .leaves rfl rfl nofun
  | seeDone =>
    simp only [step, seeDone] at h
    split at h
    · cases hpc : w.pc <;> rw [hpc] at h <;> cases h
      all_goals exact .leaves rfl rfl nofun
    · cases h
  | seeExit =>
    simp only [step, seeExit] at h
    split at h
    · cases h
    · cases hpc : w.pc <;> rw [hpc] at h <;> cases h
      all_goals exact .leaves rfl rfl nofun
  | started pid =>
    simp only [step] at h
    cases hpc : w.pc <;> rw [hpc] at h <;> cases h
    next g =>
      exact ⟨rfl, .inr (.inr (.inr ⟨g, by rw [hpc]; rfl, rfl, rfl, nofun, fun _ => ⟨pid, rfl⟩,
        .inl rfl, by simp [hpc]⟩))⟩
  | startError =>
    simp only [step] at h
    cases hpc : w.pc <;> rw [hpc] at h <;> cases h
    exact .leaves rfl rfl nofun
  | health healthy =>
    simp only [step] at h
    cases hpc : w.pc <;> rw [hpc] at h <;> cases h
    next g =>
      exact .follows (g := g) rfl rfl rfl (by rw [hpc]; rfl) rfl (by simp [hpc]) nofun
        (by simp [hpc])
  | recovered success =>
    simp only [step] at h
    cases hpc : w.pc <;> rw [hpc] at h <;> cases h
    next g =>
      exact .follows (g := g) rfl rfl rfl (by rw [hpc]; rfl) rfl (by simp [hpc]) nofun
        (by simp [hpc])

end Worker

/-! ## The invariant -/

/-- What a run without overtaken stops keeps. -/
structure Obeyed (ls : List Label) (w : Worker) : Prop where
  /-- A worker about to launch is wanted. -/
  wanted : w.pc = .launch → w.desired = true
  /-- Generations only grow. -/
  bounded : ∀ g, w.pc.captured = some g → g ≤ w.generation
  /-- Without a command since it was read, the generation stands for a wanted component. -/
  current : ∀ g, w.pc.captured = some g → w.generation = g → w.desired = true
  /-- A command that the launch has not taken into account has left a token. -/
  noticed : ∀ g, w.pc.captured = some g → w.generation ≠ g → w.wake = true ∨ w.pc = .woken g
  /-- Without a command since it was read, the process is newer than every command. -/
  fresh : ∀ g, w.pc.captured = some g → w.pc ≠ .starting g → w.generation = g →
    launchedAfterLastCommand ls = true

namespace Obeyed

variable {ls : List Label} {w w' : Worker} {l : Label}

theorem initial (disabled hasRecover : Bool) (now : Time) :
    Obeyed [] (Worker.new disabled hasRecover now) where
  wanted := nofun
  bounded := nofun
  current := nofun
  noticed := nofun
  fresh := nofun

/-- A command keeps the invariant unless it is a `Stop` overtaken by a launch. -/
theorem command {c : Command} (h : Obeyed ls w) (hok : ¬ Overtaken w (.command c)) :
    Obeyed (.command c :: ls) (w.command c) := by
  -- the generation of the launch in progress is now out of date
  have hpast : ∀ g, w.pc.captured = some g → w.generation + 1 ≠ g := by
    intro g hg
    have hle := h.bounded g hg
    omega
  refine ⟨?_, ?_, ?_, ?_, ?_⟩
  · intro hpc
    rw [Worker.command_pc] at hpc
    rw [Worker.command_desired]
    cases c with
    | start => rfl
    | restart => rfl
    | stop => exact absurd ⟨rfl, hpc⟩ hok
  · intro g hg
    rw [Worker.command_pc] at hg
    have hle := h.bounded g hg
    rw [Worker.command_generation]
    omega
  · intro g hg heq
    rw [Worker.command_pc] at hg
    exact absurd heq (by simpa using hpast g hg)
  · exact fun _ _ _ => .inl (Worker.command_wake w c)
  · intro g hg _ heq
    rw [Worker.command_pc] at hg
    exact absurd heq (by simpa using hpast g hg)

/-- A label that is neither a command nor a start does not change which of the two came
last. -/
theorem launchedAfterLastCommand_cons (hl : ∀ c, l ≠ .command c) (h : launchedAfterLastCommand ls) :
    launchedAfterLastCommand (l :: ls) = true := by
  cases l with
  | command c => exact absurd rfl (hl c)
  | started pid => rfl
  | _ => exact h

/-- Every other step keeps the invariant. -/
theorem moves (h : Obeyed ls w) (hl : ∀ c, l ≠ .command c) (hm : Worker.Moves w l w') :
    Obeyed (l :: ls) w' := by
  obtain ⟨hgen, hstays | hleaves | hcaptures | ⟨g, hf⟩⟩ := hm
  · obtain ⟨hpc, hdesired, hwake⟩ := hstays
    refine ⟨?_, ?_, ?_, ?_, ?_⟩
    · rw [hpc, hdesired]
      exact h.wanted
    · rw [hpc, hgen]
      exact h.bounded
    · rw [hpc, hgen, hdesired]
      exact h.current
    · rw [hpc, hgen, hwake]
      exact h.noticed
    · rw [hpc, hgen]
      exact fun g hg hne heq => launchedAfterLastCommand_cons hl (h.fresh g hg hne heq)
  · obtain ⟨hnone, hlaunch⟩ := hleaves
    refine ⟨hlaunch, ?_, ?_, ?_, ?_⟩ <;> simp [hnone]
  · obtain ⟨hpc, hpc', hdesired⟩ := hcaptures
    -- the generation has just been read, and the component is wanted at that moment
    have hcap : ∀ g, w'.pc.captured = some g → g = w.generation := by
      intro g hg
      rw [hpc'] at hg
      exact (Option.some.inj hg).symm
    refine ⟨?_, ?_, ?_, ?_, ?_⟩
    · simp [hpc']
    · intro g hg
      exact Nat.le_of_eq ((hcap g hg).trans hgen.symm)
    · exact fun _ _ _ => by rw [hdesired]; exact h.wanted hpc
    · exact fun g hg hne => absurd (by rw [hcap g hg, hgen]) hne
    · exact fun g hg hne _ => absurd (by rw [hpc', hcap g hg]) hne
  · have hcap : ∀ g', w'.pc.captured = some g' → g' = g := by
      intro g' hg'
      rw [hf.after] at hg'
      exact (Option.some.inj hg').symm
    refine ⟨?_, ?_, ?_, ?_, ?_⟩
    · intro hpc
      have hafter := hf.after
      rw [hpc] at hafter
      cases hafter
    · intro g' hg'
      rw [hcap g' hg', hgen]
      exact h.bounded g hf.before
    · intro g' hg' heq
      rw [hcap g' hg', hgen] at heq
      rw [hf.desired]
      exact h.current g hf.before heq
    · intro g' hg' hne
      rw [hcap g' hg', hgen] at hne
      rw [hcap g' hg']
      -- the token is still there, unless this step took it to compare the generations
      rcases h.noticed g hf.before hne with hwake | hpc
      · exact hf.wake.imp (fun heq => heq.trans hwake) id
      · exact absurd (hf.compared hpc) hne
    · intro g' hg' _ heq
      rw [hcap g' hg', hgen] at heq
      by_cases hpc : w.pc = .starting g
      · obtain ⟨pid, rfl⟩ := hf.first hpc
        rfl
      · exact launchedAfterLastCommand_cons hl (h.fresh g hf.before hpc heq)

theorem step (h : Obeyed ls w) (hok : ¬ Overtaken w l) (hstep : w.step l = some w') :
    Obeyed (l :: ls) w' := by
  by_cases hl : ∃ c, l = .command c
  · obtain ⟨c, rfl⟩ := hl
    cases hstep
    exact h.command hok
  · have hl' : ∀ c, l ≠ .command c := fun c hc => hl ⟨c, hc⟩
    exact h.moves hl' (Worker.step_moves hstep hl')

/-- The invariant holds along every run without overtaken stops. -/
theorem ofRun (r : OrderlyRun ls w) : Obeyed ls w := by
  refine Run.invariant ?_ ?_ r
  · rintro s ⟨disabled, hasRecover, now, rfl⟩
    exact initial disabled hasRecover now
  · rintro ls s l s' h ⟨hok, hstep⟩
    exact h.step hok hstep

end Obeyed

/-- In every run without overtaken stops, a worker that watches a running process and has no
token to take is wanted, and its process was launched after the most recent command. -/
theorem monitor_desired_of_orderlyRun {ls : List Label} {w : Worker} {g : ℕ} (r : OrderlyRun ls w)
    (hpc : w.pc = .monitor g) (_halive : w.alive = true) (hwake : w.wake = false) :
    w.desired = true ∧ launchedAfterLastCommand ls = true := by
  have h := Obeyed.ofRun r
  have hcap : w.pc.captured = some g := by rw [hpc]; rfl
  -- an unnoticed command would have left a token
  have hgen : w.generation = g := by
    by_contra hne
    rcases h.noticed g hcap hne with htoken | hwoken
    · rw [hwake] at htoken
      cases htoken
    · rw [hpc] at hwoken
      cases hwoken
  refine ⟨h.current g hcap hgen, h.fresh g hcap ?_ hgen⟩
  rw [hpc]
  nofun

/-- A component that is restarted while it runs: the steps of the worker, newest first. -/
def restartTrace : List Label :=
  [.work, .work, .started 8, .work, .work, .work, .work, .work, .seeExit, .exit, .work, .work,
    .takeWake, .command .restart, .work, .work, .started 7, .work, .work]

/-- A step of the worker, unless it is an overtaken `Stop`. -/
def orderlyStep (w : Worker) (l : Label) : Option Worker :=
  if Overtaken w l then none else w.step l

/-- The worker at the end of `restartTrace` is wanted and watches the new process. -/
theorem restartTrace_desired : ∃ w, OrderlyRun restartTrace w ∧ w.pc = .monitor 1 ∧
    w.process = some ⟨8, true, false⟩ ∧ w.desired = true ∧
    launchedAfterLastCommand restartTrace = true := by
  let w := (replay orderlyStep (Worker.new false false 0) restartTrace).getD
    (Worker.new false false 0)
  have r : OrderlyRun restartTrace w := by
    refine Run.of_replay (f := orderlyStep) ⟨false, false, 0, rfl⟩ ?_ (by decide)
    intro s l s' h
    unfold orderlyStep at h
    split at h
    · cases h
    · exact ⟨‹_›, h⟩
  have hpc : w.pc = .monitor 1 := by decide
  exact ⟨w, r, hpc, by decide, monitor_desired_of_orderlyRun r hpc (by decide) (by decide)⟩

/-- A `Stop` between `shouldRun` and the first section of `launch`: the steps of the worker,
newest first. -/
def overtakenTrace : List Label :=
  [.work, .takeWake, .work, .work, .started 7, .work, .command .stop, .work]

/-- After `overtakenTrace` the worker watches a running process with an empty wake channel,
although the most recent command is a `Stop`. -/
theorem overtakenTrace_not_desired : ∃ w, WorkerRun overtakenTrace w ∧ w.pc = .monitor 1 ∧
    w.alive = true ∧ w.wake = false ∧ w.desired = false := by
  refine ⟨(replay Worker.step (Worker.new false false 0) overtakenTrace).getD
    (Worker.new false false 0), ?_, by decide, by decide, by decide, by decide⟩
  exact Run.of_replay (f := Worker.step) ⟨false, false, 0, rfl⟩ (fun _ _ _ h => h) (by decide)

end Torkitten.Supervisor
