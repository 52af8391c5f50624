import Torkitten.Supervisor.Reports

/-!
# The restart ceiling

A worker counts the launch attempts that fail in a row, and gives up at the sixth. A segment of a run
without commands is looked at: its launch attempts are listed with the time that each process lived,
and the counter of the worker bounds the length of every row of short-lived ones.

The worker measures the life of a process from its own reading of the clock after the launch to its
reading after it has noticed the exit. A process that exits during a health check is noticed late, so
that it may be taken to have lived longer than two minutes when it has not.

## Main results

* `at_most_six_attempts`: with lives as the worker measures them, no more than six attempts in a row
  are short-lived, and there is no launch after the ceiling.
* `lateExits_seven`: with lives as they are, there can be more.
-/

namespace Torkitten.Supervisor

/-- The segments of a run without commands, from a given worker on, with their traces. -/
abbrev Segment (w₀ : Worker) : Trace → Worker → Prop :=
  Run (· = w₀) fun w e w' => e.1 = w ∧ (∀ c, e.2 ≠ .command c) ∧ w.step e.2 = some w'

/-- The launch attempts begun in a segment, newest first, each with the life of its process as the
worker measures it when it accounts for the exit. It is zero before, and for a failed start. -/
def attempts : Trace → List Duration
  | [] => []
  | (w, l) :: earlier =>
    match l, w.pc with
    | .work, .launch => 0 :: attempts earlier
    | .work, .compare _ => (attempts earlier).modifyHead fun _ => w.now - w.started
    | _, _ => attempts earlier

/-- A process with this life did not live longer than two minutes. -/
def shortLived (life : Duration) : Bool := life ≤ 2 * minute

/-- The number of short-lived attempts since the last one that was not. -/
def streak (lives : List Duration) : ℕ := (lives.takeWhile shortLived).length

/-- Short-lived attempts in a row are at most as many as the ceiling allows. -/
def Bounded (lives : List Duration) : Prop :=
  ∀ row, row <:+: lives → (∀ life ∈ row, shortLived life = true) → row.length ≤ Worker.ceiling

section Lists

variable {lives : List Duration} {life : Duration}

theorem length_le_streak {row : List Duration} (hrow : row <+: lives)
    (hshort : ∀ life ∈ row, shortLived life = true) : row.length ≤ streak lives := by
  obtain ⟨rest, rfl⟩ := hrow
  rw [streak, List.takeWhile_append_of_pos hshort, List.length_append]
  exact Nat.le_add_right _ _

theorem streak_cons (hlife : shortLived life = true) : streak (life :: lives) = streak lives + 1 := by
  rw [streak, List.takeWhile_cons_of_pos hlife]
  rfl

theorem shortLived_zero : shortLived 0 = true := by decide

/-- A new attempt keeps the bound while the row that it ends does. -/
theorem Bounded.cons (h : Bounded lives) (hstreak : streak (0 :: lives) ≤ Worker.ceiling) :
    Bounded (0 :: lives) := by
  intro row hrow hshort
  rcases List.infix_cons_iff.mp hrow with hstart | hwithin
  · exact Nat.le_trans (length_le_streak hstart hshort) hstreak
  · exact h row hwithin hshort

/-- The life of the latest attempt, once it is known, does not make a row longer. -/
theorem Bounded.modifyHead (h : Bounded lives)
    (hstreak : streak (lives.modifyHead fun _ => life) ≤ Worker.ceiling) :
    Bounded (lives.modifyHead fun _ => life) := by
  cases lives with
  | nil => exact h
  | cons first rest =>
    intro row hrow hshort
    rcases List.infix_cons_iff.mp hrow with hstart | hwithin
    · exact Nat.le_trans (length_le_streak hstart hshort) hstreak
    · exact h row (hwithin.trans (List.suffix_cons first rest).isInfix) hshort

/-- The life of the latest attempt does not make its row longer. -/
theorem streak_modifyHead_le (hhead : ∀ first ∈ lives.head?, shortLived first = true) :
    streak (lives.modifyHead fun _ => life) ≤ streak lives := by
  cases lives with
  | nil => exact Nat.le_refl _
  | cons first rest =>
    rw [streak_cons (hhead first rfl)]
    cases hlife : shortLived life with
    | true => exact Nat.le_of_eq (streak_cons hlife)
    | false =>
      rw [List.modifyHead_cons, streak, List.takeWhile_cons_of_neg (by simp [hlife])]
      exact Nat.zero_le _

theorem streak_modifyHead_of_long (hlife : shortLived life = false) :
    streak (lives.modifyHead fun _ => life) = 0 := by
  cases lives with
  | nil => rfl
  | cons first rest =>
    rw [List.modifyHead_cons, streak, List.takeWhile_cons_of_neg (by simp [hlife])]
    rfl

end Lists

/-! ## What the counter says about the attempts -/

/-- The worker may launch again: no short-lived attempt precedes, or the counter knows of all that
do and is below the ceiling. -/
def Room (lives : List Duration) (failures : ℕ) : Prop :=
  streak lives = 0 ∨ streak lives ≤ failures ∧ failures < Worker.ceiling

/-- An attempt of the generation `g` is underway. The counter knows of all before it. -/
structure Underway (lives : List Duration) (generation failures g : ℕ) : Prop where
  latest : ∀ life ∈ lives.head?, life = 0 ∧ generation = g
  counted : streak lives ≤ 1 ∨ streak lives ≤ failures + 1 ∧ failures < Worker.ceiling

/-- What holds at each position of the worker. -/
def Within (lives : List Duration) (w : Worker) : Pc → Prop
  | .check | .idle | .startContext => w.desired = true → Room lives w.failures
  | .launch | .startBackoff | .exitBackoff => Room lives w.failures
  | .starting g | .publish g _ | .stamp g | .monitor g | .woken g | .healthRead g _ | .recover g
  | .healthWrite g _ | .clear g | .compare g => Underway lives w.generation w.failures g
  | .terminate n | .reap n | .clearReaped n =>
    ∀ g, n = some g → Underway lives w.generation w.failures g
  | .startFailed | .exitFailed => streak lives ≤ w.failures
  | .startCeiling | .exitCeiling | .returned => True

/-- What a segment keeps. -/
structure Limited (es : Trace) (w : Worker) : Prop where
  within : Within (attempts es) w w.pc
  bounded : Bounded (attempts es)

section Steps

variable {es : Trace} {w w' : Worker} {l : Label} {pc : Pc} {g : ℕ}

theorem attempts_cons (hl : l ≠ .work) : attempts ((w, l) :: es) = attempts es := by
  cases l with
  | work => exact absurd rfl hl
  | _ => rfl

theorem attempts_work (hpc : w.pc = pc) (hlaunch : pc ≠ .launch) (hcompare : ∀ g, pc ≠ .compare g) :
    attempts ((w, .work) :: es) = attempts es := by
  subst hpc
  conv_lhs => unfold attempts
  split
  next hpc => exact absurd hpc hlaunch
  next hpc => exact absurd hpc (hcompare _)
  next => rfl

theorem Limited.at_pc (h : Limited es w) (hpc : w.pc = pc) : Within (attempts es) w pc :=
  hpc ▸ h.within

theorem Limited.frame (h : Limited es w) (hattempts : attempts ((w, l) :: es) = attempts es)
    (hwithin : Within (attempts es) w' w'.pc) : Limited ((w, l) :: es) w' := by
  constructor
  · rw [hattempts]
    exact hwithin
  · rw [hattempts]
    exact h.bounded

/-- An attempt may begin where there is room for it. -/
theorem Limited.launch (h : Limited es w) (hpc : w.pc = .launch) :
    Limited ((w, .work) :: es) { w with pc := .starting w.generation } := by
  have hattempts : attempts ((w, .work) :: es) = 0 :: attempts es := by
    simp only [attempts, hpc]
  have hroom : Room (attempts es) w.failures := h.at_pc hpc
  have hstreak : streak (0 :: attempts es) = streak (attempts es) + 1 := streak_cons shortLived_zero
  have hcounted : streak (0 :: attempts es) ≤ 1 ∨
      streak (0 :: attempts es) ≤ w.failures + 1 ∧ w.failures < Worker.ceiling := by
    rw [hstreak]
    rcases hroom with hzero | ⟨hle, hlt⟩
    · exact .inl (by omega)
    · exact .inr ⟨by omega, hlt⟩
  constructor
  · rw [hattempts]
    exact ⟨fun life hlife => ⟨(Option.some.inj hlife).symm, rfl⟩, hcounted⟩
  · rw [hattempts]
    refine h.bounded.cons ?_
    have hceiling : Worker.ceiling = 6 := rfl
    omega

/-- The worker accounts for an exit. -/
theorem Limited.compare (h : Limited es w) (hpc : w.pc = .compare g) :
    Limited ((w, .work) :: es) (w.compare g) := by
  have hattempts : attempts ((w, .work) :: es) =
      (attempts es).modifyHead fun _ => w.now - w.started := by
    simp only [attempts, hpc]
  have hunderway : Underway (attempts es) w.generation w.failures g := h.at_pc hpc
  have hle : streak (attempts ((w, .work) :: es)) ≤ streak (attempts es) := by
    rw [hattempts]
    exact streak_modifyHead_le fun life hlife => (hunderway.latest life hlife).1 ▸ shortLived_zero
  have hceiling : Worker.ceiling = 6 := rfl
  have hcounted := hunderway.counted
  constructor
  · unfold Worker.compare
    split
    next hgen =>
      -- only an attempt from before the segment can have been overtaken by a command
      have hnil : attempts es = [] := by
        cases hlives : attempts es with
        | nil => rfl
        | cons life rest => exact absurd (hunderway.latest life (by rw [hlives]; rfl)).2 hgen
      intro _
      rw [hattempts, hnil]
      exact .inl rfl
    next =>
      change streak _ ≤ _
      dsimp only
      split
      next hlong =>
        have hnot : shortLived (w.now - w.started) = false := by
          rw [shortLived, decide_eq_false_iff_not]
          exact Int.not_le.mpr hlong
        rw [hattempts, streak_modifyHead_of_long hnot]
        exact Nat.zero_le _
      next => omega
  · rw [hattempts] at hle ⊢
    exact h.bounded.modifyHead (Nat.le_trans hle (by omega))

/-- After a failed attempt the worker goes on below the ceiling, and otherwise gives up. -/
theorem Limited.failed {message : String} {give back : Pc} (h : Limited es w)
    (hattempts : attempts ((w, .work) :: es) = attempts es) (hcounted : streak (attempts es) ≤ w.failures)
    (hgive : ∀ lives w, Within lives w give)
    (hback : ∀ lives w, Room lives w.failures → Within lives w back) :
    Limited ((w, .work) :: es)
      (w.failed message (if w.failures ≥ Worker.ceiling then give else back)) := by
  refine h.frame hattempts ?_
  dsimp only [Worker.failed]
  split
  next => exact hgive _ _
  next hroom => exact hback _ _ (.inr ⟨hcounted, Nat.lt_of_not_le hroom⟩)

theorem within_afterTerminate {lives : List Duration} {n : Option ℕ}
    (hn : ∀ g, n = some g → Underway lives w.generation w.failures g) :
    Within lives w (Worker.afterTerminate n) := by
  cases n with
  | none => trivial
  | some g => exact hn g rfl

theorem Limited.work (h : Limited es w) (hstep : w.work = some w') : Limited ((w, .work) :: es) w' := by
  unfold Worker.work at hstep
  cases hpc : w.pc <;> rw [hpc] at hstep <;> cases hstep
  case launch => exact h.launch hpc
  case compare g => exact h.compare hpc
  all_goals
    have hattempts : attempts ((w, .work) :: es) = attempts es := attempts_work hpc nofun nofun
    have hwithin := h.at_pc hpc
  case check =>
    refine h.frame hattempts ?_
    unfold Worker.shouldRun
    split
    next hdesired => exact hwithin hdesired
    next hdesired => exact fun hd => absurd hd hdesired
  case publish g pid => exact h.frame hattempts hwithin
  case stamp g => exact h.frame hattempts hwithin
  case startFailed => exact h.failed hattempts hwithin (fun _ _ => trivial) fun _ _ hroom => hroom
  case startCeiling => exact h.frame hattempts nofun
  case startContext =>
    refine h.frame hattempts ?_
    dsimp only
    split
    next => trivial
    next => exact hwithin
  case woken g =>
    refine h.frame hattempts ?_
    dsimp only
    split
    next =>
      rintro _ ⟨⟩
      exact hwithin
    next => exact hwithin
  case healthRead g healthy =>
    refine h.frame hattempts ?_
    dsimp only [Worker.healthRead]
    split
    next => exact hwithin
    next => exact hwithin
  case healthWrite g healthy =>
    obtain ⟨process, hsignal⟩ := Worker.exists_signal_eq w
    refine h.frame hattempts ?_
    unfold Worker.healthWrite
    rw [hsignal]
    split
    next => exact hwithin
    next =>
      split
      next => exact hwithin
      next =>
        split
        next => exact hwithin
        next => exact hwithin
  case terminate n =>
    refine h.frame hattempts ?_
    obtain ⟨process, hsignal⟩ := Worker.exists_signal_eq w
    unfold Worker.terminate
    rw [hsignal]
    split
    next => exact within_afterTerminate hwithin
    next => exact hwithin
  case clearReaped n => exact h.frame hattempts (within_afterTerminate hwithin)
  case clear g => exact h.frame hattempts hwithin
  case exitFailed => exact h.failed hattempts hwithin (fun _ _ => trivial) fun _ _ hroom => hroom
  case exitCeiling => exact h.frame hattempts nofun

theorem Within.congr {lives : List Duration} (h : Within lives w pc) (hdesired : w'.desired = w.desired)
    (hgeneration : w'.generation = w.generation) (hfailures : w'.failures = w.failures) :
    Within lives w' pc := by
  have heq : Within lives w' pc = Within lives w pc := by
    cases pc <;> simp only [Within, hdesired, hgeneration, hfailures]
  rw [heq]
  exact h

theorem Limited.step (h : Limited es w) (hl : ∀ c, l ≠ .command c) (hstep : w.step l = some w') :
    Limited ((w, l) :: es) w' := by
  by_cases hwork : l = .work
  · subst hwork
    exact h.work hstep
  have hattempts : attempts ((w, l) :: es) = attempts es := attempts_cons hwork
  cases Worker.stepped_of_step hstep with
  | command c process => exact absurd rfl (hl c)
  | exit process => exact h.frame hattempts (h.within.congr rfl rfl rfl)
  | cancel => exact h.frame hattempts (h.within.congr rfl rfl rfl)
  | tick d => exact h.frame hattempts (h.within.congr rfl rfl rfl)
  | started process hpc => exact h.frame hattempts (h.at_pc hpc)
  | startError hpc =>
    -- the failed start is counted at once
    refine h.frame hattempts ?_
    have hunderway : Underway (attempts es) w.generation w.failures _ := h.at_pc hpc
    change streak (attempts es) ≤ w.failures + 1
    have hcounted := hunderway.counted
    omega
  | health hpc => exact h.frame hattempts (h.at_pc hpc)
  | recovered hpc => exact h.frame hattempts (h.at_pc hpc)
  | woken hpc => exact h.frame hattempts (h.at_pc hpc)
  | awake hpc =>
    refine h.frame hattempts ?_
    rcases hpc with hpc | hpc | hpc
    · exact h.at_pc hpc
    · exact fun _ => h.at_pc hpc
    · exact fun _ => h.at_pc hpc
  | delayOver hpc =>
    refine h.frame hattempts ?_
    rcases hpc with hpc | hpc
    · exact fun _ => h.at_pc hpc
    · exact fun _ => h.at_pc hpc
  | quit hpc => exact h.frame hattempts trivial
  | quitMonitor hpc => exact h.frame hattempts nofun
  | seeExit hpc => exact h.frame hattempts (h.at_pc hpc)
  | reaped hpc => exact h.frame hattempts (h.at_pc hpc)
  | _ => exact absurd rfl hwork

/-- A segment begins without attempts, wherever its worker stands. -/
theorem limited_nil (w : Worker) : Limited [] w where
  within := by
    have hunderway (g : ℕ) : Underway [] w.generation w.failures g := ⟨nofun, .inl (Nat.zero_le _)⟩
    have hroom : Room [] w.failures := .inl rfl
    cases hpc : w.pc with
    | check | idle | startContext => exact fun _ => hroom
    | launch | startBackoff | exitBackoff => exact hroom
    | terminate n | reap n | clearReaped n => exact fun g _ => hunderway g
    | startFailed | exitFailed => exact Nat.zero_le _
    | startCeiling | exitCeiling | returned => trivial
    | _ => exact hunderway _
  bounded row hrow _ := by
    rw [List.infix_nil.mp hrow]
    exact Nat.zero_le _

/-- The counter bounds the attempts along every segment. -/
theorem Limited.ofSegment {w₀ : Worker} (r : Segment w₀ es w) : Limited es w := by
  refine r.invariant (fun s _ => limited_nil s) ?_
  rintro es _ ⟨s, l⟩ s' hI ⟨rfl, hl, hstep⟩
  exact hI.step hl hstep

/-! ## After the ceiling -/

/-- After the ceiling the component is not wanted, and the worker does not launch it. -/
structure GivenUp (w : Worker) : Prop where
  desired : w.desired = false
  pc : w.pc = .startContext ∨ w.pc = .check ∨ w.pc = .idle ∨ w.pc = .returned

theorem GivenUp.step (h : GivenUp w) (hl : ∀ c, l ≠ .command c) (hs : Stepped w l w') :
    GivenUp w' := by
  obtain ⟨hdesired, hpc⟩ := h
  cases hs with
  | command c => exact absurd rfl (hl c)
  | exit process => exact ⟨hdesired, hpc⟩
  | cancel => exact ⟨hdesired, hpc⟩
  | tick d => exact ⟨hdesired, hpc⟩
  | unwanted => exact ⟨hdesired, .inr (.inr (.inl rfl))⟩
  | wanted _ hwanted => exact absurd (hwanted.symm.trans hdesired) (by simp)
  | startContext pc _ hnext => exact ⟨hdesired, by tauto⟩
  | awake => exact ⟨hdesired, .inr (.inl rfl)⟩
  | delayOver => exact ⟨hdesired, .inr (.inl rfl)⟩
  | quit => exact ⟨hdesired, .inr (.inr (.inr rfl))⟩
  | _ => simp_all

theorem givenUp_of_ceilingReached {w₀ : Worker} (r : Segment w₀ es w) :
    ceilingReached es = true → GivenUp w := by
  refine r.invariant (I := fun es w => ceilingReached es = true → GivenUp w)
    (fun _ _ h => absurd h (by decide)) ?_
  rintro es _ ⟨s, l⟩ s' hI ⟨rfl, hl, hstep⟩ hreached
  dsimp only at hI hl hstep
  have hs := Worker.stepped_of_step hstep
  unfold ceilingReached at hreached
  split at hreached
  next => cases hreached
  next hpc =>
    rw [Worker.step, Worker.work, hpc] at hstep
    cases hstep
    exact ⟨rfl, .inl rfl⟩
  next hpc =>
    rw [Worker.step, Worker.work, hpc] at hstep
    cases hstep
    exact ⟨rfl, .inr (.inl rfl)⟩
  next => exact (hI hreached).step hl hs

end Steps

/-- The step begins a launch attempt or starts a process. -/
def launches (e : Worker × Label) : Bool :=
  match e.2 with
  | .work => e.1.pc == .launch
  | .started _ => true
  | _ => false

theorem launches_of_givenUp {w w' : Worker} {l : Label} (h : GivenUp w) (hstep : w.step l = some w') :
    launches (w, l) = false := by
  obtain ⟨-, hpc⟩ := h
  cases l with
  | work => rcases hpc with hpc | hpc | hpc | hpc <;> rw [launches, hpc] <;> rfl
  | started pid => rcases hpc with hpc | hpc | hpc | hpc <;> simp [Worker.step, hpc] at hstep
  | _ => rfl

/-- In every segment without commands, from any worker, launch attempts in a row none of whose
processes the worker took to live longer than two minutes are at most six; and once the ceiling has
been reached, no step of the segment launches the component. -/
theorem at_most_six_attempts {w₀ w : Worker} {es : Trace} (r : Segment w₀ es w) :
    (∀ row, row <:+: attempts es → (∀ life ∈ row, life ≤ 2 * minute) → row.length ≤ 6) ∧
      ∀ later e earlier, es = later ++ e :: earlier → ceilingReached earlier = true →
        launches e = false := by
  constructor
  · intro row hrow hshort
    exact (Limited.ofSegment r).bounded row hrow fun life hlife => decide_eq_true (hshort life hlife)
  · rintro later ⟨s, l⟩ earlier rfl hreached
    obtain ⟨s', rearlier, -⟩ := r.split
    cases rearlier with
    | next rearlier hnext =>
      obtain ⟨rfl, -, hstep⟩ := hnext
      exact launches_of_givenUp (givenUp_of_ceilingReached rearlier hreached) hstep

/-- A step that is not a command. -/
def uncommanded (w : Worker) : Label → Option Worker
  | .command _ => none
  | l => w.step l

theorem segment_of_retrace {w₀ w : Worker} {labels : List Label} {es : Trace}
    (h : retrace uncommanded w₀ labels = some (es, w)) : Segment w₀ es w := by
  refine Run.of_retrace rfl (fun s l s' hstep => ?_) h
  cases l with
  | command c => cases hstep
  | _ => exact ⟨rfl, nofun, hstep⟩

/-- A component that cannot be started is given up after six attempts. -/
theorem sixFailures_bounded : ∃ es w, Segment (Worker.new false true 0) es w ∧
    ceilingReached es = true ∧ (attempts es).length = 6 ∧
    ∀ row, row <:+: attempts es → (∀ life ∈ row, life ≤ 2 * minute) → row.length ≤ 6 := by
  have heval : (retrace uncommanded (Worker.new false true 0) givenUpTrace).any
      (fun (es, _) => ceilingReached es && (attempts es).length == 6) = true := by decide
  obtain ⟨⟨es, w⟩, hrun, heval⟩ := (Option.any_eq_true _ _).mp heval
  obtain ⟨hreached, hlength⟩ := Bool.and_eq_true_iff.mp heval
  have r := segment_of_retrace hrun
  exact ⟨es, w, r, hreached, beq_iff_eq.mp hlength, (at_most_six_attempts r).1⟩

/-! ## Exits that are noticed late -/

/-- When the latest process was started. -/
def startedAt : Trace → Time
  | [] => 0
  | (w, .started _) :: _ => w.now
  | _ :: earlier => startedAt earlier

/-- The launch attempts begun in a segment, newest first, each with the time from the start of its
process to its exit. -/
def lifetimes : Trace → List Duration
  | [] => []
  | (w, l) :: earlier =>
    match l, w.pc with
    | .work, .launch => 0 :: lifetimes earlier
    | .exit, _ => (lifetimes earlier).modifyHead fun _ => w.now - startedAt earlier
    | _, _ => lifetimes earlier

/-- A process exits after 119 seconds, during a health check that fails two seconds later: the steps
of the worker from one `shouldRun` to the next, newest first. -/
def lateExit : List Label :=
  [.delayOver, .work, .work, .work, .seeExit, .work, .work, .health false, .tick (2 * second).toNat,
    .exit, .tick (119 * second).toNat, .work, .work, .started 7, .work, .work]

/-- When every process exits a second before it has lived for two minutes and is noticed a second
after, the worker launches the component a seventh time. -/
theorem lateExits_seven : ∃ es w, Segment (Worker.new false true 0) es w ∧ (lifetimes es).length = 7 ∧
    ∀ life ∈ lifetimes es, life ≤ 2 * minute := by
  have heval : (retrace uncommanded (Worker.new false true 0) (List.replicate 7 lateExit).flatten).any
      (fun (es, _) => (lifetimes es).length == 7 && (lifetimes es).all (· ≤ 2 * minute)) = true := by
    decide +kernel
  obtain ⟨⟨es, w⟩, hrun, heval⟩ := (Option.any_eq_true _ _).mp heval
  obtain ⟨hlength, hall⟩ := Bool.and_eq_true_iff.mp heval
  refine ⟨es, w, segment_of_retrace hrun, beq_iff_eq.mp hlength, fun life hlife => ?_⟩
  exact of_decide_eq_true (List.all_eq_true.mp hall life hlife)

end Torkitten.Supervisor
