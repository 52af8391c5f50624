import Torkitten.Supervisor.Steps

/-!
# Starting a component that runs

`StartComponent` is the one command that sends no signal. Like the others it raises the generation
of the worker and leaves a wake token, and this is how it ends a process that runs: the worker takes
the token in its monitoring `select`, finds another generation than the one it launched with, and
terminates the process.

## Main results

* `undisturbed_iff_not_compared`: after a `Start`, the process of a component is left alone for as
  long as the worker has not compared the generations, and no longer.
* `secondStart_terminates`: a `Start` ends a process that runs.
-/

namespace Torkitten.Supervisor

/-- The component is wanted, the worker watches its process `p`, which runs, and has taken every
command into account. -/
structure Watched (w : Worker) (p : Process) : Prop where
  desired : w.desired = true
  process : w.process = some p
  alive : p.alive = true
  generation : w.pc.captured = some w.generation
  launched : w.pc ≠ .starting w.generation
  active : w.ctxDone = false

/-- The step is one of the worker alone: it is no command, no exit and no end of the supervisor, and
it does not report a health check that failed. -/
def quiet (w : Worker) : Label → Bool
  | .command _ | .exit | .cancel => false
  | .work =>
    match w.pc with
    | .healthWrite _ false => false
    | _ => true
  | _ => true

/-- The step compares the generations in the monitoring loop. -/
def compares (w : Worker) : Label → Bool
  | .work =>
    match w.pc with
    | .woken _ => true
    | _ => false
  | _ => false

/-- The quiet runs of a worker from a given state, with their traces. -/
abbrev QuietRun (w₀ : Worker) : Trace → Worker → Prop :=
  Run (· = w₀) fun w e w' => e.1 = w ∧ quiet w e.2 = true ∧ w.step e.2 = some w'

/-- The worker watches the process `p`, which it launched in the generation `g`. -/
structure Watching (g : ℕ) (p : Process) (w : Worker) : Prop where
  process : w.process = some p
  captured : w.pc.captured = some g
  launched : w.pc ≠ .starting g
  active : w.ctxDone = false

section Steps

variable {w w' : Worker} {l : Label} {g : ℕ} {p : Process}

theorem quiet_ne_command (h : quiet w l = true) (c : Command) : l ≠ .command c := by
  rintro rfl
  cases h

/-- A step that goes on with the launch and changes nothing else that is watched. -/
theorem Watching.frame (h : Watching g p w) (hprocess : w'.process = w.process)
    (hctx : w'.ctxDone = w.ctxDone) (hcaptured : w'.pc.captured = w.pc.captured)
    (hlaunched : w'.pc ≠ .starting g) : Watching g p w' :=
  ⟨hprocess.trans h.process, hcaptured.trans h.captured, hlaunched, hctx.trans h.active⟩

theorem Watching.work (h : Watching g p w) (hquiet : quiet w .work = true)
    (hcompares : compares w .work = false) (hstep : w.work = some w') : Watching g p w' := by
  have hcaptured := h.captured
  unfold Worker.work at hstep
  cases hpc : w.pc <;> rw [hpc] at hstep <;> cases hstep <;> rw [hpc] at hcaptured <;>
    cases hcaptured
  case publish pid => exact h.frame rfl rfl (by rw [hpc]; rfl) nofun
  case stamp => exact h.frame rfl rfl (by rw [hpc]; rfl) nofun
  case woken =>
    -- the one step that would end the watch
    simp [compares, hpc] at hcompares
  case healthRead healthy =>
    refine h.frame rfl rfl ?_ ?_
    · rw [hpc]
      dsimp only [Worker.healthRead]
      split <;> rfl
    · dsimp only [Worker.healthRead]
      split <;> nofun
  case healthWrite healthy =>
    cases healthy with
    | false => simp [quiet, hpc] at hquiet
    | true =>
      unfold Worker.healthWrite
      split
      · exact h.frame rfl rfl (by rw [hpc]; rfl) nofun
      · exact h.frame rfl rfl (by rw [hpc]; rfl) nofun

theorem Watching.step (h : Watching g p w) (halive : p.alive = true) (hquiet : quiet w l = true)
    (hcompares : compares w l = false) (hstep : w.step l = some w') : Watching g p w' := by
  have hcaptured := h.captured
  have hlaunched := h.launched
  cases l with
  | command c => cases hquiet
  | exit => cases hquiet
  | cancel => cases hquiet
  | tick d =>
    cases hstep
    exact h.frame rfl rfl rfl hlaunched
  | work => exact h.work hquiet hcompares hstep
  | takeWake =>
    simp only [Worker.step, Worker.takeWake] at hstep
    split at hstep
    · cases hpc : w.pc <;> rw [hpc] at hstep <;> cases hstep <;> rw [hpc] at hcaptured <;>
        cases hcaptured
      exact h.frame rfl rfl (by rw [hpc]; rfl) fun hpc' => by cases hpc'
    · cases hstep
  | delayOver =>
    simp only [Worker.step, Worker.delayOver] at hstep
    cases hpc : w.pc <;> rw [hpc] at hstep <;> cases hstep <;> rw [hpc] at hcaptured <;>
      cases hcaptured
  | seeDone =>
    simp only [Worker.step, h.active] at hstep
    cases hstep
  | seeExit =>
    have hw : w.alive = true := by simp [Worker.alive, h.process, halive]
    simp only [Worker.step, hw] at hstep
    cases hstep
  | started pid =>
    simp only [Worker.step] at hstep
    cases hpc : w.pc <;> rw [hpc] at hstep <;> cases hstep
    rw [hpc] at hcaptured hlaunched
    cases hcaptured
    exact absurd rfl hlaunched
  | startError =>
    simp only [Worker.step] at hstep
    cases hpc : w.pc <;> rw [hpc] at hstep <;> cases hstep
    rw [hpc] at hcaptured hlaunched
    cases hcaptured
    exact absurd rfl hlaunched
  | health healthy =>
    simp only [Worker.step] at hstep
    cases hpc : w.pc <;> rw [hpc] at hstep <;> cases hstep
    exact h.frame rfl rfl (by rw [hpc]; rfl) fun hpc' => by cases hpc'
  | recovered success =>
    simp only [Worker.step] at hstep
    cases hpc : w.pc <;> rw [hpc] at hstep <;> cases hstep
    exact h.frame rfl rfl (by rw [hpc]; rfl) fun hpc' => by cases hpc'

/-- A worker that compares an old generation leaves the launch. -/
theorem Watching.compared (h : Watching g p w) (hgeneration : w.generation ≠ g)
    (hcompares : compares w l = true) (hstep : w.step l = some w') : w'.pc.captured ≠ some g := by
  have hcaptured := h.captured
  unfold compares at hcompares
  split at hcompares
  · split at hcompares
    next g' hpc =>
      rw [hpc] at hcaptured
      cases hcaptured
      simp only [Worker.step, Worker.work, hpc] at hstep
      cases hstep
      simp [hgeneration, Pc.captured]
    next => cases hcompares
  · cases hcompares

/-- A launch that was left is not taken up again. -/
theorem captured_ne_of_step (hcaptured : w.pc.captured ≠ some g) (hgeneration : w.generation ≠ g)
    (hquiet : quiet w l = true) (hstep : w.step l = some w') : w'.pc.captured ≠ some g := by
  obtain ⟨-, hstays | hleaves | hcaptures | ⟨g', hfollows⟩⟩ :=
    Worker.step_moves hstep (quiet_ne_command hquiet)
  · rw [hstays.1]
    exact hcaptured
  · rw [hleaves.1]
    nofun
  · rw [hcaptures.2.1]
    exact fun h => hgeneration (Option.some.inj h)
  · rw [hfollows.after, ← hfollows.before]
    exact hcaptured

end Steps

/-- After a `Start` of a component that runs, while the worker meets no other command, no exit and no
failing health check, it watches the same process until it compares the generations, and not any
more afterwards. -/
theorem undisturbed_iff_not_compared {w w' : Worker} {p : Process} {es : Trace} (h : Watched w p)
    (r : QuietRun (w.command .start) es w') :
    (w'.process = some p ∧ w'.pc.captured = some w.generation) ↔
      es.all (fun e => !compares e.1 e.2) = true := by
  have hstart : Watching w.generation p (w.command .start) :=
    ⟨h.process, h.generation, h.launched, h.active⟩
  -- the comparison is what decides whether the launch goes on
  have hinv : w'.generation = w.generation + 1 ∧
      if es.all (fun e => !compares e.1 e.2) then Watching w.generation p w'
      else w'.pc.captured ≠ some w.generation := by
    refine r.invariant (I := fun es w' => w'.generation = w.generation + 1 ∧
      if es.all (fun e => !compares e.1 e.2) then Watching w.generation p w'
      else w'.pc.captured ≠ some w.generation) ?_ ?_
    · rintro s rfl
      exact ⟨rfl, hstart⟩
    · rintro es _ ⟨s, l⟩ s' ⟨hgeneration, hI⟩ ⟨rfl, hquiet, hstep⟩
      dsimp only at hgeneration hI hquiet hstep
      have hne : s.generation ≠ w.generation := by omega
      have hgeneration' := (Worker.step_moves hstep (quiet_ne_command hquiet)).1
      refine ⟨hgeneration'.trans hgeneration, ?_⟩
      rw [List.all_cons]
      by_cases hall : es.all (fun e => !compares e.1 e.2) = true
      · rw [if_pos hall] at hI
        cases hcompares : compares s l with
        | false =>
          rw [if_pos (by simpa using hall)]
          exact hI.step h.alive hquiet hcompares hstep
        | true =>
          rw [if_neg (by simp)]
          exact hI.compared hne hcompares hstep
      · rw [if_neg hall] at hI
        rw [if_neg (by simp [hall])]
        exact captured_ne_of_step hI hne hquiet hstep
  obtain ⟨-, hinv⟩ := hinv
  split at hinv
  next hall => exact ⟨fun _ => hall, fun _ => ⟨hinv.process, hinv.captured⟩⟩
  next hall => exact ⟨fun hkept => absurd hkept.2 hinv, fun hnot => absurd hnot hall⟩

/-- A component is launched and found healthy: the steps of the worker, newest first. -/
def healthyTrace : List Label :=
  [.work, .work, .health true, .work, .work, .started 7, .work, .work]

/-- The worker at the end of `healthyTrace`. -/
def healthyWorker : Worker :=
  (replay Worker.step (Worker.new false false 0) healthyTrace).getD (Worker.new false false 0)

theorem workerRun_healthyWorker : WorkerRun healthyTrace healthyWorker :=
  Run.of_replay (f := Worker.step) ⟨false, false, 0, rfl⟩ (fun _ _ _ h => h) (by decide)

theorem watched_healthyWorker : Watched healthyWorker ⟨7, true, false⟩ :=
  ⟨by decide, by decide, rfl, by decide, by decide, by decide⟩

/-- A quiet step of a worker. -/
def quietStep (w : Worker) (l : Label) : Option Worker := if quiet w l then w.step l else none

theorem quietRun_of_retrace {w₀ w : Worker} {labels : List Label} {es : Trace}
    (h : retrace quietStep w₀ labels = some (es, w)) : QuietRun w₀ es w := by
  refine Run.of_retrace rfl (fun s l s' hstep => ?_) h
  unfold quietStep at hstep
  split at hstep
  next hquiet => exact ⟨rfl, hquiet, hstep⟩
  next => cases hstep

/-- A second `Start` is followed by a health check, and the process has been left alone. -/
theorem secondStart_watched : ∃ es w, QuietRun (healthyWorker.command .start) es w ∧ es.length = 3 ∧
    w.process = some ⟨7, true, false⟩ ∧ w.pc.captured = some healthyWorker.generation := by
  have heval : (retrace quietStep (healthyWorker.command .start) [.work, .work, .health true]).any
      (fun (es, _) => es.length == 3 && es.all fun e => !compares e.1 e.2) = true := by decide
  obtain ⟨⟨es, w⟩, hrun, heval⟩ := (Option.any_eq_true _ _).mp heval
  obtain ⟨hlength, hall⟩ := Bool.and_eq_true_iff.mp heval
  have r := quietRun_of_retrace hrun
  exact ⟨es, w, r, beq_iff_eq.mp hlength,
    (undisturbed_iff_not_compared watched_healthyWorker r).mpr hall⟩

/-- A second `Start` makes the worker terminate the process that runs. -/
theorem secondStart_terminates : ∃ w w' p es, WorkerRun healthyTrace w ∧ Watched w p ∧
    p.signalled = false ∧ QuietRun (w.command .start) es w' ∧ w'.pc = .reap (some w.generation) ∧
    w'.process = some { p with signalled := true } := by
  have heval : (retrace quietStep (healthyWorker.command .start) [.work, .work, .takeWake]).any
      (fun (_, w) => w.pc == .reap (some healthyWorker.generation) &&
        w.process == some ⟨7, true, true⟩) = true := by decide
  obtain ⟨⟨es, w⟩, hrun, heval⟩ := (Option.any_eq_true _ _).mp heval
  obtain ⟨hpc, hprocess⟩ := Bool.and_eq_true_iff.mp heval
  exact ⟨healthyWorker, w, _, es, workerRun_healthyWorker, watched_healthyWorker, rfl,
    quietRun_of_retrace hrun, beq_iff_eq.mp hpc, beq_iff_eq.mp hprocess⟩

end Torkitten.Supervisor
