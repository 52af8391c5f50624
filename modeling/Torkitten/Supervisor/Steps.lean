import Torkitten.Supervisor.Commands

/-!
# The steps of a worker

`Worker.step` is a function of the label and of the position; what it does is said here once, as
a relation with one rule for each branch of the source. The invariants of the reports and of the
restart ceiling are proved by cases on these rules.

A traced run records, besides its labels, the worker each step was taken from, so that facts
about the past such as "this launch attempt failed" are recursions on the record.
-/

namespace Torkitten.Supervisor

/-- The rules by which a worker and its surroundings move. -/
inductive Stepped (w : Worker) : Label → Worker → Prop where
  | command (c : Command) (process : Option Process) :
      Stepped w (.command c) { w with
        desired := c.desired, generation := w.generation + 1,
        status := { w.status with intentional := !c.desired }, wake := true, process }
  | exit (process : Option Process) : Stepped w .exit { w with process }
  | cancel : Stepped w .cancel { w with ctxDone := true }
  | tick (d : ℕ) : Stepped w (.tick d) { w with now := w.now + d }
  | unwanted (hpc : w.pc = .check) (hdesired : w.desired = false) :
      Stepped w .work { w with
        status := { w.status with state := .stopped, pid := 0, intentional := true }
        pc := .idle }
  | wanted (hpc : w.pc = .check) (hdesired : w.desired = true) :
      Stepped w .work { w with pc := .launch }
  | capture (hpc : w.pc = .launch) : Stepped w .work { w with pc := .starting w.generation }
  | started {g pid : ℕ} (process : Option Process) (hpc : w.pc = .starting g) :
      Stepped w (.started pid) { w with process, pc := .publish g pid }
  | startError {g : ℕ} (hpc : w.pc = .starting g) :
      Stepped w .startError { w with failures := w.failures + 1, pc := .startFailed }
  | publish {g pid : ℕ} (hpc : w.pc = .publish g pid) :
      Stepped w .work { w with
        cmd := some pid
        status := { state := .starting, pid, restarts := w.status.restarts + 1, lastError := "",
                    intentional := false }
        pc := .stamp g }
  | stamp {g : ℕ} (hpc : w.pc = .stamp g) :
      Stepped w .work { w with started := w.now, pc := .monitor g }
  | startFailed (pc : Pc) (hpc : w.pc = .startFailed)
      (hnext : pc = .startCeiling ∧ Worker.ceiling ≤ w.failures ∨ pc = .startBackoff) :
      Stepped w .work (w.failed "component could not start" pc)
  | startCeiling (hpc : w.pc = .startCeiling) :
      Stepped w .work (w.disableCrashLoop .startContext)
  | startContext (pc : Pc) (hpc : w.pc = .startContext) (hnext : pc = .returned ∨ pc = .check) :
      Stepped w .work { w with pc }
  | changed {g : ℕ} (hpc : w.pc = .woken g) (hgen : w.generation ≠ g) :
      Stepped w .work { w with pc := .terminate (some g) }
  | unchanged {g : ℕ} (hpc : w.pc = .woken g) (hgen : w.generation = g) :
      Stepped w .work { w with pc := .monitor g }
  | health {g : ℕ} {healthy : Bool} (hpc : w.pc = .monitor g) :
      Stepped w (.health healthy) { w with pc := .healthRead g healthy }
  | toRecover {g : ℕ} {healthy : Bool} (hpc : w.pc = .healthRead g healthy) :
      Stepped w .work { w with pc := .recover g }
  | noRecover {g : ℕ} {healthy : Bool} (hpc : w.pc = .healthRead g healthy)
      (hskip : healthy = true → w.status.state = .starting → 1 < w.status.restarts →
        w.hasRecover = false) :
      Stepped w .work { w with pc := .healthWrite g healthy }
  | recovered {g : ℕ} {success : Bool} (hpc : w.pc = .recover g) :
      Stepped w (.recovered success) { w with pc := .healthWrite g success }
  | unreported {g : ℕ} {healthy : Bool} (hpc : w.pc = .healthWrite g healthy) :
      Stepped w .work { w with pc := .monitor g }
  | running {g : ℕ} (hpc : w.pc = .healthWrite g true) :
      Stepped w .work { w with
        status := { w.status with state := .running, lastError := "" }, pc := .monitor g }
  | unhealthy {g : ℕ} {healthy : Bool} (process : Option Process)
      (hpc : w.pc = .healthWrite g healthy) :
      Stepped w .work { w with
        process
        status := { w.status with state := .unhealthy, lastError := "readiness check failed" }
        pc := .monitor g }
  | terminated {g : Option ℕ} (pc : Pc) (hpc : w.pc = .terminate g)
      (hnext : g = none ∧ pc = .returned ∨ ∃ n, g = some n ∧ pc = .clear n) :
      Stepped w .work { w with pc }
  | terminate {g : Option ℕ} (process : Option Process) (hpc : w.pc = .terminate g) :
      Stepped w .work { w with process, pc := .reap g }
  | clearReaped {g : Option ℕ} (pc : Pc) (hpc : w.pc = .clearReaped g)
      (hnext : g = none ∧ pc = .returned ∨ ∃ n, g = some n ∧ pc = .clear n) :
      Stepped w .work (w.clearProcess pc)
  | clear {g : ℕ} (hpc : w.pc = .clear g) : Stepped w .work (w.clearProcess (.compare g))
  | asked {g : ℕ} (hpc : w.pc = .compare g) (hgen : w.generation ≠ g) :
      Stepped w .work { w with failures := 0, pc := .check }
  | exited {g : ℕ} (failures : ℕ) (hpc : w.pc = .compare g) (hgen : w.generation = g)
      (hfailures : failures ≤ w.failures + 1) :
      Stepped w .work { w with failures, pc := .exitFailed }
  | exitFailed (pc : Pc) (hpc : w.pc = .exitFailed)
      (hnext : pc = .exitCeiling ∧ Worker.ceiling ≤ w.failures ∨ pc = .exitBackoff) :
      Stepped w .work (w.failed "component exited" pc)
  | exitCeiling (hpc : w.pc = .exitCeiling) : Stepped w .work (w.disableCrashLoop .check)
  | woken {g : ℕ} (hpc : w.pc = .monitor g) :
      Stepped w .takeWake { w with wake := false, pc := .woken g }
  | awake (hpc : w.pc = .idle ∨ w.pc = .startBackoff ∨ w.pc = .exitBackoff) :
      Stepped w .takeWake { w with wake := false, pc := .check }
  | delayOver (hpc : w.pc = .startBackoff ∨ w.pc = .exitBackoff) :
      Stepped w .delayOver { w with pc := .check }
  | quit (hpc : w.pc = .idle ∨ w.pc = .startBackoff ∨ w.pc = .exitBackoff) :
      Stepped w .seeDone { w with pc := .returned }
  | quitMonitor {g : ℕ} (hpc : w.pc = .monitor g) :
      Stepped w .seeDone { w with pc := .terminate none }
  | seeExit {g : ℕ} (hpc : w.pc = .monitor g) : Stepped w .seeExit { w with pc := .clear g }
  | reaped {g : Option ℕ} (hpc : w.pc = .reap g) :
      Stepped w .seeExit { w with pc := .clearReaped g }

namespace Worker

variable {w w' : Worker} {l : Label}

/-- A signal changes nothing but the process. -/
theorem exists_signal_eq (w : Worker) : ∃ process, w.signal = { w with process } := by
  unfold signal
  split
  · exact ⟨w.process, rfl⟩
  · exact ⟨_, rfl⟩

theorem stepped_command (w : Worker) (c : Command) : Stepped w (.command c) (w.command c) := by
  have heq : w.command c = { w with
      desired := c.desired, generation := w.generation + 1,
      status := { w.status with intentional := !c.desired }, wake := true,
      process := (w.command c).process } := by
    obtain ⟨hasRecover, desired, generation, cmd, status, wake, pc, failures, started, process,
      ctxDone, now⟩ := w
    cases c <;> cases cmd <;> rfl
  rw [heq]
  exact .command c _

theorem stepped_healthRead {g : ℕ} {healthy : Bool} (hpc : w.pc = .healthRead g healthy) :
    Stepped w .work (w.healthRead g healthy) := by
  dsimp only [healthRead]
  split
  next => exact .toRecover hpc
  next h =>
    refine .noRecover hpc fun hhealthy hstate hrestarts => ?_
    simpa [hhealthy, hstate, hrestarts] using h

theorem stepped_healthWrite {g : ℕ} {healthy : Bool} (hpc : w.pc = .healthWrite g healthy) :
    Stepped w .work (w.healthWrite g healthy) := by
  unfold healthWrite
  split
  · exact .unreported hpc
  · split
    next hhealthy => exact .running (by rw [hpc, hhealthy])
    next =>
      split
      · obtain ⟨process, hsignal⟩ := exists_signal_eq w
        rw [hsignal]
        exact .unhealthy process hpc
      · exact .unreported hpc

/-- After `terminate` the worker returns, or goes on with the launch it has ended. -/
theorem afterTerminate_cases (g : Option ℕ) :
    g = none ∧ afterTerminate g = .returned ∨ ∃ n, g = some n ∧ afterTerminate g = .clear n := by
  cases g with
  | none => exact .inl ⟨rfl, rfl⟩
  | some n => exact .inr ⟨n, rfl, rfl⟩

theorem stepped_terminate {g : Option ℕ} (hpc : w.pc = .terminate g) :
    Stepped w .work (w.terminate g) := by
  unfold terminate
  split
  · exact .terminated _ hpc (afterTerminate_cases g)
  · obtain ⟨process, hsignal⟩ := exists_signal_eq w
    rw [hsignal]
    exact .terminate process hpc

theorem stepped_compare {g : ℕ} (hpc : w.pc = .compare g) : Stepped w .work (w.compare g) := by
  unfold compare
  split
  next hgen => exact .asked hpc hgen
  next hgen =>
    refine .exited _ hpc (not_not.mp hgen) ?_
    split <;> omega

theorem stepped_work (h : w.work = some w') : Stepped w .work w' := by
  unfold work at h
  cases hpc : w.pc <;> rw [hpc] at h <;> cases h
  case check =>
    unfold shouldRun
    split
    next hdesired => exact .wanted hpc hdesired
    next hdesired => exact .unwanted hpc (by simpa using hdesired)
  case launch => exact .capture hpc
  case publish g pid => exact .publish hpc
  case stamp g => exact .stamp hpc
  case startFailed =>
    refine .startFailed _ hpc ?_
    split
    next hceiling => exact .inl ⟨rfl, hceiling⟩
    next => exact .inr rfl
  case startCeiling => exact .startCeiling hpc
  case startContext =>
    refine .startContext _ hpc ?_
    split
    · exact .inl rfl
    · exact .inr rfl
  case woken g =>
    by_cases hgen : w.generation = g
    · rw [if_neg (not_not.mpr hgen)]
      exact .unchanged hpc hgen
    · rw [if_pos hgen]
      exact .changed hpc hgen
  case healthRead g healthy => exact stepped_healthRead hpc
  case healthWrite g healthy => exact stepped_healthWrite hpc
  case terminate g => exact stepped_terminate hpc
  case clearReaped g => exact .clearReaped _ hpc (afterTerminate_cases g)
  case clear g => exact .clear hpc
  case compare g => exact stepped_compare hpc
  case exitFailed =>
    refine .exitFailed _ hpc ?_
    split
    next hceiling => exact .inl ⟨rfl, hceiling⟩
    next => exact .inr rfl
  case exitCeiling => exact .exitCeiling hpc

theorem stepped_takeWake {pc : Pc} (h : w.takeWake = some pc) :
    Stepped w .takeWake { w with wake := false, pc } := by
  unfold takeWake at h
  cases hpc : w.pc <;> rw [hpc] at h <;> cases h
  case monitor g => exact .woken hpc
  all_goals exact .awake (by simp [hpc])

theorem stepped_seeDone {pc : Pc} (h : w.seeDone = some pc) :
    Stepped w .seeDone { w with pc } := by
  unfold seeDone at h
  cases hpc : w.pc <;> rw [hpc] at h <;> cases h
  case monitor g => exact .quitMonitor hpc
  all_goals exact .quit (by simp [hpc])

theorem stepped_seeExit {pc : Pc} (h : w.seeExit = some pc) :
    Stepped w .seeExit { w with pc } := by
  unfold seeExit at h
  cases hpc : w.pc <;> rw [hpc] at h <;> cases h
  case monitor g => exact .seeExit hpc
  case reap g => exact .reaped hpc

/-- Every step of the model is an instance of one of the rules. -/
theorem stepped_of_step (h : w.step l = some w') : Stepped w l w' := by
  cases l with
  | command c =>
    cases h
    exact stepped_command w c
  | exit =>
    simp only [step] at h
    split at h <;> cases h
    exact .exit _
  | cancel =>
    cases h
    exact .cancel
  | tick d =>
    cases h
    exact .tick d
  | work => exact stepped_work h
  | takeWake =>
    simp only [step] at h
    split at h
    · obtain ⟨pc, hnext, rfl⟩ := Option.map_eq_some_iff.mp h
      exact stepped_takeWake hnext
    · cases h
  | delayOver =>
    simp only [step, delayOver] at h
    cases hpc : w.pc <;> rw [hpc] at h <;> cases h
    all_goals exact .delayOver (by simp [hpc])
  | seeDone =>
    simp only [step] at h
    split at h
    · obtain ⟨pc, hnext, rfl⟩ := Option.map_eq_some_iff.mp h
      exact stepped_seeDone hnext
    · cases h
  | seeExit =>
    simp only [step] at h
    split at h
    · cases h
    · obtain ⟨pc, hnext, rfl⟩ := Option.map_eq_some_iff.mp h
      exact stepped_seeExit hnext
  | started pid =>
    simp only [step] at h
    cases hpc : w.pc <;> rw [hpc] at h <;> cases h
    exact .started _ hpc
  | startError =>
    simp only [step] at h
    cases hpc : w.pc <;> rw [hpc] at h <;> cases h
    exact .startError hpc
  | health healthy =>
    simp only [step] at h
    cases hpc : w.pc <;> rw [hpc] at h <;> cases h
    exact .health hpc
  | recovered success =>
    simp only [step] at h
    cases hpc : w.pc <;> rw [hpc] at h <;> cases h
    exact .recovered hpc

end Worker

/-! ## Traced runs -/

/-- The steps of a run, newest first, each with the worker it was taken from. -/
abbrev Trace := List (Worker × Label)

/-- The runs of the worker of a component, with their traces. -/
abbrev TracedRun (disabled hasRecover : Bool) : Trace → Worker → Prop :=
  Run (fun w => ∃ now, w = Worker.new disabled hasRecover now)
    (fun w e w' => e.1 = w ∧ w.step e.2 = some w')

/-- What holds of a new worker and is kept by every rule holds along every traced run. -/
theorem TracedRun.invariant {disabled hasRecover : Bool} {I : Trace → Worker → Prop}
    (hinit : ∀ now, I [] (Worker.new disabled hasRecover now))
    (hstep : ∀ es w l w', I es w → Stepped w l w' → I ((w, l) :: es) w') {es : Trace} {w : Worker}
    (r : TracedRun disabled hasRecover es w) : I es w := by
  refine Run.invariant ?_ ?_ r
  · rintro s ⟨now, rfl⟩
    exact hinit now
  · rintro es s ⟨w, l⟩ s' h ⟨rfl, hs⟩
    exact hstep es w l s' h (Worker.stepped_of_step hs)

end Torkitten.Supervisor
