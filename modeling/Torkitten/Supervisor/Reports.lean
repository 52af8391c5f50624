import Torkitten.Supervisor.Steps

/-!
# What a supervised component reports

Seven functions of the worker and the command path write the status of a component, each a few of
its fields. The invariant `Coherent` says which of these writes an observer sees at each position
of the worker. On top of it stand three questions about whole runs: whether a component that is
reported running has been recovered in this launch, whether the restart ceiling respects the
commands of the operator, and whether a reported stop was asked for.
-/

namespace Torkitten.Supervisor

/-- The states reported during a launch. -/
def Condition.launched : Condition → Bool
  | .starting | .running | .unhealthy => true
  | _ => false

/-- What the fields of a worker are at each of its positions. -/
def Worker.Fits (w : Worker) : Pc → Prop
  | .idle => w.status.state = .stopped ∧ (w.desired = true → w.wake = true)
  | .startBackoff | .exitBackoff => w.status.state = .backoff
  | .startCeiling | .exitCeiling => Worker.ceiling ≤ w.failures
  | .starting g | .publish g _ => g ≤ w.generation
  | .stamp g | .monitor g | .woken g | .healthRead g _ | .recover g | .healthWrite g _ =>
    w.status.state.launched = true ∧ g ≤ w.generation
  | .terminate g | .reap g | .clearReaped g =>
    w.status.state.launched = true ∧ ∀ n, g = some n → n ≤ w.generation
  | .clear g | .compare g => w.status.state.launched = true ∧ g ≤ w.generation
  | _ => True

/-- The fields of a worker fit its position, and it reports a stop as intended only when it is
not wanted. -/
structure Coherent (w : Worker) : Prop where
  fits : w.Fits w.pc
  intentional : w.status.intentional = true → w.desired = false

namespace Coherent

variable {w w' : Worker} {l : Label} {pc : Pc}

theorem at_pc (h : Coherent w) (hpc : w.pc = pc) : w.Fits pc := hpc ▸ h.fits

theorem initial (disabled hasRecover : Bool) (now : Time) :
    Coherent (Worker.new disabled hasRecover now) := ⟨trivial, nofun⟩

/-- A command raises the generation and leaves a token, so it keeps the fields fitting. -/
theorem command (h : Coherent w) (c : Command) (process : Option Process) :
    Coherent { w with
      desired := c.desired, generation := w.generation + 1,
      status := { w.status with intentional := !c.desired }, wake := true, process } := by
  refine ⟨?_, by simp⟩
  have hfits := h.fits
  cases hpc : w.pc <;> rw [hpc] at hfits
  case idle => exact ⟨hfits.1, fun _ => rfl⟩
  case startBackoff | exitBackoff | startCeiling | exitCeiling => exact hfits
  case starting | publish => exact Nat.le_succ_of_le hfits
  case terminate | reap | clearReaped =>
    exact ⟨hfits.1, fun n hn => Nat.le_succ_of_le (hfits.2 n hn)⟩
  case check | launch | startFailed | startContext | exitFailed | returned => trivial
  all_goals exact ⟨hfits.1, Nat.le_succ_of_le hfits.2⟩

/-- Where `terminate` ends, the fields still fit. -/
theorem fits_afterTerminate {g : Option ℕ}
    (h : w.status.state.launched = true ∧ ∀ n, g = some n → n ≤ w.generation)
    (hnext : g = none ∧ pc = .returned ∨ ∃ n, g = some n ∧ pc = .clear n) : w.Fits pc := by
  rcases hnext with ⟨-, rfl⟩ | ⟨n, hg, rfl⟩
  · trivial
  · exact ⟨h.1, h.2 n hg⟩

theorem step (h : Coherent w) (hs : Stepped w l w') : Coherent w' := by
  cases hs
  case command c process => exact h.command c process
  case exit | cancel | tick => exact ⟨h.fits, h.intentional⟩
  case unwanted hpc hdesired =>
    exact ⟨⟨rfl, fun hwanted => absurd hwanted (by simp [hdesired])⟩, fun _ => hdesired⟩
  case capture => exact ⟨Nat.le_refl _, h.intentional⟩
  case publish hpc => exact ⟨⟨rfl, h.at_pc hpc⟩, nofun⟩
  case running hpc | unhealthy hpc => exact ⟨⟨rfl, (h.at_pc hpc).2⟩, h.intentional⟩
  case startFailed hnext | exitFailed hnext =>
    rcases hnext with ⟨rfl, hceiling⟩ | rfl
    · exact ⟨hceiling, h.intentional⟩
    · exact ⟨rfl, h.intentional⟩
  case startCeiling | exitCeiling => exact ⟨trivial, fun _ => rfl⟩
  case startContext hnext => rcases hnext with rfl | rfl <;> exact ⟨trivial, h.intentional⟩
  case changed hpc _ =>
    refine ⟨⟨(h.at_pc hpc).1, ?_⟩, h.intentional⟩
    rintro n ⟨⟩
    exact (h.at_pc hpc).2
  case quitMonitor hpc => exact ⟨⟨(h.at_pc hpc).1, nofun⟩, h.intentional⟩
  case terminated hpc hnext | clearReaped hpc hnext =>
    exact ⟨fits_afterTerminate (h.at_pc hpc) hnext, h.intentional⟩
  -- the other rules go on with the launch, or leave it for a position that promises nothing
  case unchanged hpc _ | noRecover hpc _ => exact ⟨h.at_pc hpc, h.intentional⟩
  case started hpc | stamp hpc | health hpc | toRecover hpc | recovered hpc | unreported hpc |
      terminate hpc | clear hpc | woken hpc | seeExit hpc | reaped hpc =>
    exact ⟨h.at_pc hpc, h.intentional⟩
  all_goals exact ⟨trivial, h.intentional⟩

/-- The invariant holds along every traced run. -/
theorem ofRun {disabled hasRecover : Bool} {es : Trace} (r : TracedRun disabled hasRecover es w) :
    Coherent w :=
  TracedRun.invariant (I := fun _ w => Coherent w) (initial disabled hasRecover)
    (fun _ _ _ _ h hs => h.step hs) r

end Coherent

/-! ## Recovery before readiness -/

/-- In the launch that is being reported `Recover` has returned success. -/
def recoveredThisLaunch : Trace → Bool
  | [] => false
  | (w, l) :: earlier =>
    match l, w.pc with
    | .recovered true, _ => true
    | .work, .publish _ _ => false
    | _, _ => recoveredThisLaunch earlier

/-- A health check succeeds on a launch that was reported unhealthy before it was recovered. -/
def misjudged (earlier : Trace) (w : Worker) (l : Label) : Bool :=
  match l, w.pc with
  | .work, .healthRead _ true =>
    w.status.state == .unhealthy && !recoveredThisLaunch earlier
  | _, _ => false

/-- No health check of a run succeeds on a launch that was reported unhealthy before it was
recovered. -/
def judged : Trace → Bool
  | [] => true
  | (w, l) :: earlier => !misjudged earlier w l && judged earlier

/-- What a run without misjudged launches keeps: a launch other than the first is reported
running, or about to be, only when it has been recovered. -/
structure Recovered (es : Trace) (w : Worker) : Prop where
  hasRecover : w.hasRecover = true
  running : 1 < w.status.restarts → w.status.state = .running → recoveredThisLaunch es = true
  verdict : 1 < w.status.restarts → ∀ g, w.pc = .healthWrite g true →
    recoveredThisLaunch es = true

namespace Recovered

variable {es : Trace} {w w' : Worker} {l : Label}

/-- A step that does not publish a launch does not forget that it was recovered. -/
theorem recoveredThisLaunch_cons (h : recoveredThisLaunch es = true)
    (hne : ∀ g pid, w.pc ≠ .publish g pid) : recoveredThisLaunch ((w, l) :: es) = true := by
  unfold recoveredThisLaunch
  split
  · rfl
  next hpc => exact absurd hpc (hne _ _)
  · exact h

/-- A step that leaves the report as it is, or takes back that the component is running. -/
theorem frame (h : Recovered es w) (hhas : w'.hasRecover = w.hasRecover)
    (hrestarts : w'.status.restarts = w.status.restarts)
    (hstate : w'.status.state = .running → w.status.state = .running)
    (hpc' : ∀ g, w'.pc ≠ .healthWrite g true) (hne : ∀ g pid, w.pc ≠ .publish g pid) :
    Recovered ((w, l) :: es) w' where
  hasRecover := hhas.trans h.hasRecover
  running hmany hrunning :=
    recoveredThisLaunch_cons (h.running (hrestarts ▸ hmany) (hstate hrunning)) hne
  verdict _ g hpc := absurd hpc (hpc' g)

/-- A healthy component that is not recovered now has been recovered in this launch. -/
theorem of_noRecover {g : ℕ} (h : Recovered es w) (hc : Coherent w)
    (hpc : w.pc = .healthRead g true) (hjudged : misjudged es w .work = false)
    (hskip : w.status.state = .starting → 1 < w.status.restarts → w.hasRecover = false)
    (hmany : 1 < w.status.restarts) : recoveredThisLaunch es = true := by
  have hlaunched := (hc.at_pc hpc).1
  cases hstate : w.status.state <;> rw [hstate] at hlaunched <;> cases hlaunched
  case starting =>
    have hnone := hskip hstate hmany
    rw [h.hasRecover] at hnone
    cases hnone
  case running => exact h.running hmany hstate
  case unhealthy => simpa [misjudged, hpc, hstate] using hjudged

theorem step (h : Recovered es w) (hc : Coherent w) (hjudged : misjudged es w l = false)
    (hs : Stepped w l w') : Recovered ((w, l) :: es) w' := by
  cases hs
  case command => exact ⟨h.hasRecover, h.running, h.verdict⟩
  case exit => exact ⟨h.hasRecover, h.running, h.verdict⟩
  case cancel => exact ⟨h.hasRecover, h.running, h.verdict⟩
  case tick => exact ⟨h.hasRecover, h.running, h.verdict⟩
  case publish => exact ⟨h.hasRecover, nofun, nofun⟩
  case recovered g success hpc =>
    have hrec : ∀ {b}, recoveredThisLaunch es = true ∨ b = true →
        recoveredThisLaunch ((w, .recovered b) :: es) = true := by
      rintro b (hearlier | rfl)
      · exact recoveredThisLaunch_cons hearlier (by simp [hpc])
      · rfl
    refine ⟨h.hasRecover, fun hmany hrunning => hrec (.inl (h.running hmany hrunning)), ?_⟩
    rintro - g ⟨⟩
    exact hrec (.inr rfl)
  case noRecover g healthy hpc hskip =>
    refine ⟨h.hasRecover, fun hmany hrunning => ?_, fun hmany g' hpc' => ?_⟩
    · exact recoveredThisLaunch_cons (h.running hmany hrunning) (by simp [hpc])
    · obtain ⟨-, rfl⟩ := Pc.healthWrite.inj hpc'
      exact recoveredThisLaunch_cons (h.of_noRecover hc hpc hjudged (hskip rfl) hmany)
        (by simp [hpc])
  case running g hpc =>
    exact ⟨h.hasRecover,
      fun hmany _ => recoveredThisLaunch_cons (h.verdict hmany g hpc) (by simp [hpc]), nofun⟩
  -- no other rule reports that the component is running, or is about to
  case unwanted hpc _ => exact h.frame rfl rfl nofun nofun (by simp [hpc])
  case unhealthy hpc | startCeiling hpc | exitCeiling hpc =>
    exact h.frame rfl rfl nofun nofun (by simp [hpc])
  case startFailed hpc hnext | exitFailed hpc hnext =>
    rcases hnext with ⟨rfl, -⟩ | rfl <;> exact h.frame rfl rfl nofun nofun (by simp [hpc])
  case startContext hpc hnext =>
    rcases hnext with rfl | rfl <;> exact h.frame rfl rfl id nofun (by simp [hpc])
  case terminated hpc hnext | clearReaped hpc hnext =>
    rcases hnext with ⟨-, rfl⟩ | ⟨n, -, rfl⟩ <;> exact h.frame rfl rfl id nofun (by simp [hpc])
  case awake hpc | delayOver hpc | quit hpc =>
    exact h.frame rfl rfl id nofun fun g pid hpub => by simp [hpub] at hpc
  case wanted hpc _ | changed hpc _ | unchanged hpc _ | asked hpc _ | exited hpc _ _ =>
    exact h.frame rfl rfl id nofun (by simp [hpc])
  all_goals
    rename_i hpc
    exact h.frame rfl rfl id nofun (by simp [hpc])

/-- The invariant holds along every run without misjudged launches. -/
theorem ofRun {disabled : Bool} (r : TracedRun disabled true es w) (hjudged : judged es = true) :
    Recovered es w := by
  have hboth : Coherent w ∧ (judged es = true → Recovered es w) := by
    refine TracedRun.invariant (I := fun es w => Coherent w ∧ (judged es = true → Recovered es w))
      ?_ ?_ r
    · exact fun now => ⟨.initial disabled true now, fun _ => ⟨rfl, nofun, nofun⟩⟩
    · rintro es w l w' ⟨hc, h⟩ hs
      refine ⟨hc.step hs, fun hj => ?_⟩
      obtain ⟨hnow, hearlier⟩ := Bool.and_eq_true_iff.mp hj
      exact (h hearlier).step hc (by simpa using hnow) hs
  exact hboth.2 hjudged

end Recovered

/-- In every run in which no health check succeeds on a launch that was reported unhealthy before
it was recovered, a launch other than the first is reported running only after `Recover` has
returned success during it. -/
theorem running_recovered_of_judged {disabled : Bool} {es : Trace} {w : Worker}
    (r : TracedRun disabled true es w) (hjudged : judged es = true)
    (hmany : 1 < w.status.restarts) (hrunning : w.status.state = .running) :
    recoveredThisLaunch es = true :=
  (Recovered.ofRun r hjudged).running hmany hrunning

/-- A component that exits and is launched again: the steps of the worker until it monitors the
second process, newest first. -/
def relaunchTrace : List Label :=
  [.work, .work, .started 8, .work, .work, .delayOver, .work, .work, .work, .seeExit, .exit,
    .work, .work, .started 7, .work, .work]

/-- The second process is healthy and its recovery succeeds. -/
def recoveredTrace : List Label :=
  [.work, .recovered true, .work, .health true] ++ relaunchTrace

/-- The recovery of the second process fails after the readiness limit, and the process is slow to
follow the signal: another health check succeeds. -/
def unrecoveredTrace : List Label :=
  [.work, .work, .health true, .work, .recovered false, .work, .health true, .tick (46 * second).toNat]
    ++ relaunchTrace

/-- The run of a component with a recovery function that a list of labels describes. -/
def traced (labels : List Label) : Trace × Worker :=
  (retrace Worker.step (Worker.new false true 0) labels).getD ([], Worker.new false true 0)

theorem tracedRun_traced (labels : List Label)
    (h : (retrace Worker.step (Worker.new false true 0) labels).isSome = true) :
    TracedRun false true (traced labels).1 (traced labels).2 := by
  obtain ⟨⟨es, w⟩, hrun⟩ := Option.isSome_iff_exists.mp h
  have heq : traced labels = (es, w) := by rw [traced, hrun]; rfl
  rw [heq]
  exact Run.of_retrace ⟨0, rfl⟩ (fun _ _ _ hs => ⟨rfl, hs⟩) hrun

/-- At the end of `recoveredTrace` the second launch is running and has been recovered. -/
theorem recoveredTrace_recovered :
    (traced recoveredTrace).2.status.restarts = 2 ∧
      (traced recoveredTrace).2.status.state = .running ∧
      recoveredThisLaunch (traced recoveredTrace).1 = true :=
  ⟨by decide, by decide, running_recovered_of_judged (tracedRun_traced _ (by decide))
    (by decide) (by decide) (by decide)⟩

/-- At the end of `unrecoveredTrace` the second launch is reported running although no recovery
has succeeded. -/
theorem unrecoveredTrace_running : ∃ es w, TracedRun false true es w ∧
    w.status.restarts = 2 ∧ w.status.state = .running ∧ recoveredThisLaunch es = false :=
  ⟨_, _, tracedRun_traced unrecoveredTrace (by decide), by decide, by decide,
    by decide⟩

/-! ## Truthful stops -/

/-- The most recent command. -/
def lastCommand : Trace → Option Command
  | [] => none
  | (_, .command c) :: _ => some c
  | _ :: earlier => lastCommand earlier

/-- The restart ceiling was applied after the most recent command. -/
def ceilingReached : Trace → Bool
  | [] => false
  | (w, l) :: earlier =>
    match l, w.pc with
    | .command _, _ => false
    | .work, .startCeiling | .work, .exitCeiling => true
    | _, _ => ceilingReached earlier

/-- The most recent command is a `Stop`, or there was none and the component is disabled. -/
def StopAsked (disabled : Bool) (es : Trace) : Prop :=
  lastCommand es = some .stop ∨ disabled = true ∧ lastCommand es = none

/-- The worker is blocked: on its wake channel, a delay, its process or the health timer. -/
def Pc.waiting : Pc → Bool
  | .idle | .startBackoff | .exitBackoff | .monitor _ | .reap _ => true
  | _ => false

/-- The worker waits and its wake channel is empty. -/
def Settled (w : Worker) : Prop := w.pc.waiting = true ∧ w.wake = false

/-- What is reported about stops is true. -/
structure Truthful (disabled : Bool) (es : Trace) (w : Worker) : Prop where
  stopped : w.status.intentional = true ∨ w.status.state = .stopped → StopAsked disabled es
  crashLoop : ceilingReached es = true → w.status.state = .crashLoop

/-- The positions a worker can be in after the ceiling, until the next command. -/
def Pc.disabled : Pc → Bool
  | .startContext | .check | .idle | .returned => true
  | _ => false

/-- What is known of an unwanted component. -/
structure Accounted (disabled : Bool) (es : Trace) (w : Worker) : Prop where
  /-- Before the ceiling a component is unwanted only if that was asked for. -/
  asked : ceilingReached es = false → w.desired = false → StopAsked disabled es
  /-- After the ceiling it is unwanted and launches nothing. -/
  capped : ceilingReached es = true → w.desired = false ∧ w.pc.disabled = true

namespace Accounted

variable {disabled : Bool} {es : Trace} {w w' : Worker} {l : Label}

/-- A step that is no command and does not apply the ceiling. -/
theorem frame (h : Accounted disabled es w) (hlast : lastCommand ((w, l) :: es) = lastCommand es)
    (hceiling : ceilingReached ((w, l) :: es) = ceilingReached es)
    (hdesired : w'.desired = w.desired)
    (hpc : w.desired = false → w.pc.disabled = true → w'.pc.disabled = true) :
    Accounted disabled ((w, l) :: es) w' where
  asked hcapped hunwanted := by
    rw [hceiling] at hcapped
    rw [hdesired] at hunwanted
    rw [StopAsked, hlast]
    exact h.asked hcapped hunwanted
  capped hcapped := by
    rw [hceiling] at hcapped
    obtain ⟨hunwanted, hquiet⟩ := h.capped hcapped
    exact ⟨hdesired.trans hunwanted, hpc hunwanted hquiet⟩

/-- A step of the worker that does not apply the ceiling. -/
theorem work {pc : Pc} (h : Accounted disabled es w) (hpc : w.pc = pc) (hstart : pc ≠ .startCeiling)
    (hexit : pc ≠ .exitCeiling) (hdesired : w'.desired = w.desired)
    (hnext : pc.disabled = true → w.desired = false → w'.pc.disabled = true) :
    Accounted disabled ((w, .work) :: es) w' := by
  refine h.frame rfl ?_ hdesired fun hunwanted hquiet => hnext (hpc ▸ hquiet) hunwanted
  subst hpc
  conv_lhs => unfold ceilingReached
  split
  next hl => cases hl
  next hpc => exact absurd hpc hstart
  next hpc => exact absurd hpc hexit
  next => rfl

theorem step (h : Accounted disabled es w) (hs : Stepped w l w') :
    Accounted disabled ((w, l) :: es) w' := by
  cases hs
  case command c process =>
    refine ⟨fun _ hunwanted => ?_, nofun⟩
    cases c <;> cases hunwanted
    exact .inl rfl
  case exit | cancel | tick => exact h.frame rfl rfl rfl fun _ => id
  case startCeiling hpc | exitCeiling hpc =>
    have hreached : ceilingReached ((w, .work) :: es) = true := by
      unfold ceilingReached
      rw [hpc]
    refine ⟨fun hnot => ?_, fun _ => ⟨rfl, rfl⟩⟩
    rw [hreached] at hnot
    cases hnot
  case wanted hpc hdesired =>
    exact h.work hpc nofun nofun rfl fun _ hunwanted => by simp [hdesired] at hunwanted
  case unwanted hpc _ => exact h.work hpc nofun nofun rfl fun _ _ => rfl
  case startContext hpc hnext =>
    rcases hnext with rfl | rfl <;> exact h.work hpc nofun nofun rfl fun _ _ => rfl
  case awake | delayOver | quit => exact h.frame rfl rfl rfl fun _ _ => rfl
  case started hpc | startError hpc | health hpc | recovered hpc | woken hpc | quitMonitor hpc |
      seeExit hpc | reaped hpc =>
    exact h.frame rfl rfl rfl fun _ hquiet => by simp [hpc, Pc.disabled] at hquiet
  -- the other rules belong to a launch or to its failure, where the ceiling has not been applied
  case changed hpc _ | unchanged hpc _ | noRecover hpc _ | terminated hpc _ | clearReaped hpc _ |
      startFailed hpc _ | exitFailed hpc _ | asked hpc _ | exited hpc _ _ =>
    exact h.work hpc nofun nofun rfl nofun
  all_goals
    rename_i hpc
    exact h.work hpc nofun nofun rfl nofun

/-- The invariant holds along every traced run. -/
theorem ofRun {hasRecover : Bool} (r : TracedRun disabled hasRecover es w) :
    Accounted disabled es w := by
  refine TracedRun.invariant (I := fun es w => Accounted disabled es w) ?_ ?_ r
  · refine fun now => ⟨fun _ hunwanted => .inr ⟨?_, rfl⟩, nofun⟩
    simpa [Worker.new] using hunwanted
  · exact fun _ _ _ _ h hs => h.step hs

end Accounted

/-- The only position in which a worker waits after the ceiling. -/
theorem Pc.eq_idle_of_disabled {pc : Pc} (hdisabled : pc.disabled = true)
    (hwaiting : pc.waiting = true) : pc = .idle := by
  cases pc <;> simp_all [Pc.disabled, Pc.waiting]

/-- The only position in which a waiting worker reports a stop. -/
theorem Coherent.eq_idle_of_stopped {w : Worker} (h : Coherent w) (hwaiting : w.pc.waiting = true)
    (hstopped : w.status.state = .stopped) : w.pc = .idle := by
  have hfits := h.fits
  by_contra hne
  cases hpc : w.pc <;> rw [hpc] at hwaiting hfits hne <;> cases hwaiting
  case idle => exact hne rfl
  case startBackoff | exitBackoff =>
    rw [Worker.Fits, hstopped] at hfits
    cases hfits
  case monitor | reap =>
    have hlaunched := hfits.1
    rw [hstopped] at hlaunched
    cases hlaunched

/-- A settled worker that reports a stop, or an intended one, is not wanted. -/
theorem Coherent.unwanted_of_settled {w : Worker} (h : Coherent w) (hs : Settled w)
    (hreport : w.status.intentional = true ∨ w.status.state = .stopped) : w.desired = false := by
  rcases hreport with hintentional | hstopped
  · exact h.intentional hintentional
  · have hidle := h.eq_idle_of_stopped hs.1 hstopped
    by_contra hwanted
    -- a command for a worker that waits for one leaves a token
    have htoken := (h.at_pc hidle).2 (by simpa using hwanted)
    rw [hs.2] at htoken
    cases htoken

/-- In every reachable settled state the report of a component is truthful exactly when the
restart ceiling has not been applied since the most recent command. -/
theorem truthful_iff_of_settled {disabled hasRecover : Bool} {es : Trace} {w : Worker}
    (r : TracedRun disabled hasRecover es w) (hs : Settled w) :
    Truthful disabled es w ↔ ceilingReached es = false := by
  have hc := Coherent.ofRun r
  have ha := Accounted.ofRun r
  constructor
  · intro ht
    by_contra hcapped
    rw [Bool.not_eq_false] at hcapped
    -- after the ceiling the worker can only wait for a command, and then it reports a stop
    have hidle : w.pc = .idle := Pc.eq_idle_of_disabled (ha.capped hcapped).2 hs.1
    have hstopped := (hc.at_pc hidle).1
    rw [ht.crashLoop hcapped] at hstopped
    cases hstopped
  · intro hnot
    refine ⟨fun hreport => ha.asked hnot (hc.unwanted_of_settled hs hreport), fun hcapped => ?_⟩
    rw [hnot] at hcapped
    cases hcapped

/-- A component that cannot be started six times in a row: the steps of the worker until the
ceiling, newest first. -/
def sixFailures : List Label :=
  [.work, .startError, .work, .work, .delayOver, .work, .startError, .work, .work, .delayOver,
    .work, .startError, .work, .work, .delayOver, .work, .startError, .work, .work, .delayOver,
    .work, .startError, .work, .work, .delayOver, .work, .startError, .work, .work]

/-- The worker gives up, and waits for a command. -/
def givenUpTrace : List Label := [.work, .work, .work] ++ sixFailures

/-- A component whose operator has started it after it gave up: until the first process is
monitored. -/
def startedAgainTrace : List Label :=
  [.work, .work, .started 7, .work, .work, .takeWake, .command .start] ++ givenUpTrace

theorem settled_startedAgainTrace : Settled (traced startedAgainTrace).2 :=
  ⟨by decide, by decide⟩

/-- The component that was started again is reported truthfully. -/
theorem startedAgainTrace_truthful :
    ceilingReached (traced startedAgainTrace).1 = false ∧
      Truthful false (traced startedAgainTrace).1 (traced startedAgainTrace).2 :=
  ⟨by decide, (truthful_iff_of_settled (tracedRun_traced _ (by decide))
    settled_startedAgainTrace).mpr (by decide)⟩

/-- At the end of `givenUpTrace` a component that reached the ceiling waits for a command, and is
reported stopped on purpose although nobody has issued a command. -/
theorem givenUpTrace_not_truthful : ∃ es w, TracedRun false true es w ∧ Settled w ∧
    w.status.state = .stopped ∧ w.status.intentional = true ∧ lastCommand es = none ∧
    ¬ Truthful false es w := by
  refine ⟨_, _, tracedRun_traced givenUpTrace (by decide), ⟨by decide, by decide⟩, by decide,
    by decide, by decide, fun h => ?_⟩
  have hcrash := h.crashLoop (by decide)
  exact absurd hcrash (by decide)

/-! ## The restart ceiling and the operator -/

/-- The number of launch attempts that have failed in a row since the most recent `Start` or
`Restart`: `cmd.Start` failed, or the process exited without a command asking for it. -/
def failedSinceStart : Trace → ℕ
  | [] => 0
  | (w, l) :: earlier =>
    match l, w.pc with
    | .command .start, _ | .command .restart, _ => 0
    | .startError, _ => failedSinceStart earlier + 1
    | .work, .compare g => if w.generation = g then failedSinceStart earlier + 1 else 0
    | _, _ => failedSinceStart earlier

/-- A process has been started and its exit has not been compared with the commands yet, or the
worker returns. -/
def Pc.launched : Pc → Bool
  | .publish _ _ | .stamp _ | .monitor _ | .woken _ | .healthRead _ _ | .recover _ => true
  | .healthWrite _ _ | .terminate _ | .reap _ | .clearReaped _ | .clear _ | .compare _ => true
  | .returned => true
  | _ => false

/-- A `Start` or `Restart` arrives when no failure is counted, or when the worker will see it
before it counts the next one. -/
def Timely (w : Worker) (l : Label) : Prop :=
  ∀ c, l = .command c → c.desired = true → w.failures = 0 ∨ w.pc.launched = true

/-- The traced runs in which every `Start` and `Restart` is timely. -/
abbrev TimelyRun (disabled hasRecover : Bool) : Trace → Worker → Prop :=
  Run (fun w => ∃ now, w = Worker.new disabled hasRecover now)
    (fun w e w' => Timely w e.2 ∧ e.1 = w ∧ w.step e.2 = some w')

/-- A command has arrived that the worker will see before it counts another failure. -/
def Worker.Outdated (w : Worker) : Pc → Prop
  | .publish g _ | .stamp g | .monitor g | .woken g | .healthRead g _ | .recover g =>
    w.generation ≠ g
  | .healthWrite g _ | .clear g | .compare g => w.generation ≠ g
  | .terminate g | .reap g | .clearReaped g => ∀ n, g = some n → w.generation ≠ n
  | .returned => True
  | _ => False

/-- The failures a worker counts are failures since the most recent `Start` or `Restart`, unless
it is about to forget them. -/
def Counted (es : Trace) (w : Worker) : Prop :=
  w.failures ≤ failedSinceStart es ∨ w.Outdated w.pc

namespace Counted

variable {es : Trace} {w w' : Worker} {l : Label}

theorem launched_of_outdated {pc : Pc} (h : w.Outdated pc) : pc.launched = true := by
  cases pc <;> first | rfl | exact h.elim

/-- A command outdates the launch in progress. -/
theorem outdated_command (h : Coherent w) (hlaunched : w.pc.launched = true)
    (hgen : w'.generation = w.generation + 1) : w'.Outdated w.pc := by
  have hfits := h.fits
  have hpast : ∀ n, n ≤ w.generation → w'.generation ≠ n := by
    intro n hn
    omega
  cases hpc : w.pc <;> rw [hpc] at hlaunched hfits <;> cases hlaunched
  case returned => trivial
  case publish => exact hpast _ hfits
  case terminate | reap | clearReaped => exact fun n hn => hpast n (hfits.2 n hn)
  all_goals exact hpast _ hfits.2

theorem command {c : Command} (h : Counted es w) (hc : Coherent w) (ht : Timely w (.command c))
    (hfailures : w'.failures = w.failures) (hgen : w'.generation = w.generation + 1)
    (hpc : w'.pc = w.pc) : Counted ((w, .command c) :: es) w' := by
  have houtdated : w.pc.launched = true → w'.Outdated w'.pc := by
    intro hlaunched
    rw [hpc]
    exact outdated_command hc hlaunched hgen
  rw [Counted, hfailures]
  cases hdesired : c.desired with
  | true =>
    rcases ht c rfl hdesired with hnone | hlaunched
    · exact .inl (by rw [hnone]; exact Nat.zero_le _)
    · exact .inr (houtdated hlaunched)
  | false =>
    -- a `Stop` does not start a new count
    cases c <;> cases hdesired
    exact h.imp_right fun hout => houtdated (launched_of_outdated hout)

/-- A step that neither fails nor ends a launch. -/
theorem frame {pc : Pc} (h : Counted es w) (hpc : w.pc = pc)
    (hcount : failedSinceStart ((w, l) :: es) = failedSinceStart es)
    (hfailures : w'.failures = w.failures) (hout : w.Outdated pc → w'.Outdated w'.pc) :
    Counted ((w, l) :: es) w' := by
  subst hpc
  rw [Counted, hcount, hfailures]
  exact h.imp_right hout

/-- Only the comparison after an exit counts a failure among the steps of the worker. -/
theorem failedSinceStart_work {pc : Pc} (hpc : w.pc = pc) (hne : ∀ g, pc ≠ .compare g) :
    failedSinceStart ((w, .work) :: es) = failedSinceStart es := by
  subst hpc
  conv_lhs => unfold failedSinceStart
  split
  next hl => cases hl
  next hl => cases hl
  next hl => cases hl
  next hpc => exact absurd hpc (hne _)
  next => rfl

theorem step (h : Counted es w) (hc : Coherent w) (ht : Timely w l) (hs : Stepped w l w') :
    Counted ((w, l) :: es) w' := by
  cases hs
  case command c process => exact h.command hc ht rfl rfl rfl
  case exit | cancel | tick => exact h.frame rfl rfl rfl id
  case startError g hpc =>
    rcases h with hle | hout
    · exact .inl (Nat.succ_le_succ hle)
    · rw [hpc] at hout
      exact hout.elim
  case asked => exact .inl (Nat.zero_le _)
  case exited g failures hpc hgen hfailures =>
    have hcount : failedSinceStart ((w, .work) :: es) = failedSinceStart es + 1 := by
      simp [failedSinceStart, hpc, hgen]
    rcases h with hle | hout
    · refine .inl ?_
      rw [hcount]
      exact Nat.le_trans hfailures (Nat.succ_le_succ hle)
    · rw [hpc] at hout
      exact absurd hgen hout
  case changed g hpc hgen =>
    refine h.frame hpc (failedSinceStart_work hpc nofun) rfl fun _ => ?_
    rintro n ⟨⟩
    exact hgen
  case terminated hpc hnext | clearReaped hpc hnext =>
    refine h.frame hpc (failedSinceStart_work hpc nofun) rfl fun hout => ?_
    rcases hnext with ⟨-, rfl⟩ | ⟨n, hg, rfl⟩
    · trivial
    · exact hout n hg
  case quitMonitor hpc => exact h.frame hpc rfl rfl fun _ => nofun
  case awake hpc | quit hpc =>
    rcases hpc with hpc | hpc | hpc <;> exact h.frame hpc rfl rfl False.elim
  case delayOver hpc => rcases hpc with hpc | hpc <;> exact h.frame hpc rfl rfl False.elim
  case started hpc => exact h.frame hpc rfl rfl False.elim
  case health hpc | recovered hpc | woken hpc | seeExit hpc | reaped hpc =>
    exact h.frame hpc rfl rfl id
  case unchanged hpc _ | noRecover hpc _ =>
    exact h.frame hpc (failedSinceStart_work hpc nofun) rfl id
  case publish hpc | stamp hpc | toRecover hpc | unreported hpc | running hpc | unhealthy hpc |
      terminate hpc | clear hpc =>
    exact h.frame hpc (failedSinceStart_work hpc nofun) rfl id
  -- the other rules are taken outside a launch, where nothing is about to be forgotten
  case unwanted hpc _ | wanted hpc _ | startContext hpc _ | startFailed hpc _ | exitFailed hpc _ =>
    exact h.frame hpc (failedSinceStart_work hpc nofun) rfl False.elim
  case capture hpc | startCeiling hpc | exitCeiling hpc =>
    exact h.frame hpc (failedSinceStart_work hpc nofun) rfl False.elim

/-- The invariant holds along every run whose commands are timely. -/
theorem ofRun {disabled hasRecover : Bool} (r : TimelyRun disabled hasRecover es w) :
    Coherent w ∧ Counted es w := by
  refine Run.invariant (I := fun es w => Coherent w ∧ Counted es w) ?_ ?_ r
  · rintro s ⟨now, rfl⟩
    exact ⟨.initial disabled hasRecover now, .inl (Nat.le_refl 0)⟩
  · rintro es s ⟨w, l⟩ s' ⟨hc, h⟩ ⟨ht, rfl, hs⟩
    have hstepped := Worker.stepped_of_step hs
    exact ⟨hc.step hstepped, h.step hc ht hstepped⟩

end Counted

/-- A step that makes a wanted component unwanted is a `Stop` or applies the ceiling. -/
theorem Stepped.pc_of_unwanted {w w' : Worker} {l : Label} (hs : Stepped w l w')
    (hon : w.desired = true) (hoff : w'.desired = false) (hl : l ≠ .command .stop) :
    w.pc = .startCeiling ∨ w.pc = .exitCeiling := by
  cases hs
  case command c process =>
    cases c <;> cases hoff
    exact absurd rfl hl
  case startCeiling hpc => exact .inl hpc
  case exitCeiling hpc => exact .inr hpc
  all_goals
    exact absurd (hon.symm.trans hoff) nofun

/-- In every run whose `Start` and `Restart` commands are timely, a step other than a `Stop` makes a
wanted component unwanted only after six launch attempts have failed in a row since the most
recent `Start` or `Restart`. -/
theorem six_failures_of_timelyRun {disabled hasRecover : Bool} {es : Trace} {w w' : Worker}
    {l : Label} (r : TimelyRun disabled hasRecover es w) (hstep : w.step l = some w')
    (hon : w.desired = true) (hoff : w'.desired = false) (hl : l ≠ .command .stop) :
    6 ≤ failedSinceStart es := by
  obtain ⟨hc, hcount⟩ := Counted.ofRun r
  -- the step applies the ceiling, so six failures are counted and none is about to be forgotten
  rcases (Worker.stepped_of_step hstep).pc_of_unwanted hon hoff hl with hpc | hpc
  all_goals
    have hceiling : Worker.ceiling ≤ w.failures := hc.at_pc hpc
    rw [Counted, hpc] at hcount
    exact Nat.le_trans hceiling (hcount.resolve_right id)

instance (w : Worker) (l : Label) : Decidable (Timely w l) :=
  match l with
  | .command c => decidable_of_iff (c.desired = true → w.failures = 0 ∨ w.pc.launched = true)
      ⟨fun h _ hc => Label.command.inj hc ▸ h, fun h => h c rfl⟩
  | .exit | .cancel | .tick _ | .work | .takeWake | .delayOver | .seeDone | .seeExit
  | .started _ | .startError | .health _ | .recovered _ => .isTrue nofun

/-- A step of the worker, unless it is a command that is not timely. -/
def timelyStep (w : Worker) (l : Label) : Option Worker :=
  if Timely w l then w.step l else none

/-- Six failed starts after a `Start` make the component unwanted. -/
theorem sixFailures_unwanted : ∃ es w w', TimelyRun false true es w ∧ w.step .work = some w' ∧
    w.desired = true ∧ w'.desired = false ∧ lastCommand es = some .start ∧
    6 ≤ failedSinceStart es := by
  let labels := sixFailures ++ [.command .start]
  let p := (retrace timelyStep (Worker.new false true 0) labels).getD ([], Worker.new false true 0)
  have hrun : retrace timelyStep (Worker.new false true 0) labels = some p := by decide
  have r : TimelyRun false true p.1 p.2 := by
    refine Run.of_retrace ⟨0, rfl⟩ ?_ hrun
    intro w l w' h
    unfold timelyStep at h
    split at h
    next ht => exact ⟨ht, rfl, h⟩
    next => cases h
  have hstep : p.2.step .work = some (p.2.disableCrashLoop .startContext) := by decide
  exact ⟨p.1, p.2, _, r, hstep, by decide, by decide, by decide,
    six_failures_of_timelyRun r hstep (by decide) (by decide) nofun⟩

/-- A component that gave up is started again and fails to start once more: the steps of the
worker, newest first. -/
def oneMoreFailure : List Label :=
  [.work, .startError, .work, .work, .takeWake, .command .start] ++ givenUpTrace

/-- After `oneMoreFailure` the worker overrides the `Start`, although only one launch attempt has
failed since. -/
theorem oneMoreFailure_unwanted : ∃ es w w', TracedRun false true es w ∧
    w.step .work = some w' ∧ w.desired = true ∧ w'.desired = false ∧
    lastCommand es = some .start ∧ failedSinceStart es = 1 :=
  ⟨_, _, (traced oneMoreFailure).2.disableCrashLoop .startContext,
    tracedRun_traced oneMoreFailure (by decide), by decide, by decide, by decide, by decide,
    by decide⟩

end Torkitten.Supervisor
