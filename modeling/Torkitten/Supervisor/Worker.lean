import Torkitten.Foundations.Run
import Torkitten.Model.State

/-!
# The worker of a supervised component

The goroutine `Supervisor.run` of one component, the process it watches, and the commands
issued to it. Components do not share any field of a worker, so one worker is modelled; the
supervisor's mutex makes each locked section one atomic step. Between two steps of the worker
any number of commands and of events of the environment may happen: the process exits, the
context of the supervisor is cancelled, time passes.

The point at which the goroutine stands is a `Pc`. A value that the source holds in a local
variable across several steps, such as the generation read by `launch`, is carried by the
`Pc` that needs it.
-/

namespace Torkitten.Supervisor

/-- The commands `StartComponent`, `StopComponent` and `RestartComponent`. -/
inductive Command where
  | start
  | stop
  | restart
  deriving DecidableEq, Repr

/-- The argument `desired` of `Supervisor.command`. -/
def Command.desired : Command → Bool
  | .start => true
  | .stop => false
  | .restart => true

/-- The argument `interrupt` of `Supervisor.command`. -/
def Command.interrupt : Command → Bool
  | .start => false
  | .stop => true
  | .restart => true

/-- The state a component reports. -/
inductive Condition where
  | pending
  | starting
  | running
  | unhealthy
  | backoff
  | crashLoop
  | stopped
  deriving DecidableEq, Repr

/-- The text of a reported state. -/
def Condition.text : Condition → String
  | .pending => "pending"
  | .starting => "starting"
  | .running => "running"
  | .unhealthy => "unhealthy"
  | .backoff => "backoff"
  | .crashLoop => "crash-loop"
  | .stopped => "stopped"

/-- `Status`. -/
structure Status where
  state : Condition
  pid : ℕ
  restarts : ℕ
  lastError : String
  intentional : Bool
  deriving DecidableEq, Repr

/-- A process as the operating system sees it. -/
structure Process where
  pid : ℕ
  alive : Bool
  /-- A signal has been sent to it. -/
  signalled : Bool
  deriving DecidableEq, Repr

/-- Where the goroutine stands: the step it takes next. -/
inductive Pc where
  /-- `shouldRun`. -/
  | check
  /-- `waitWake` without a delay, because the component is not wanted. -/
  | idle
  /-- The first section of `launch`, which reads the generation. -/
  | launch
  /-- `cmd.Start`. -/
  | starting (generation : ℕ)
  /-- The second section of `launch`, which publishes the command handle. -/
  | publish (generation pid : ℕ)
  /-- `started := time.Now()`. -/
  | stamp (generation : ℕ)
  /-- `failed`, after a failed start. -/
  | startFailed
  /-- `disableCrashLoop`, after a failed start. -/
  | startCeiling
  /-- `contextDone`, after the ceiling of failed starts. -/
  | startContext
  /-- `waitWake` with a delay, after a failed start. -/
  | startBackoff
  /-- The monitoring `select`. -/
  | monitor (generation : ℕ)
  /-- `generationChanged`, after a wake token was taken. -/
  | woken (generation : ℕ)
  /-- The first section of `checkHealth`, with the result of `Health`. -/
  | healthRead (generation : ℕ) (healthy : Bool)
  /-- The call of `Recover` in `checkHealth`. -/
  | recover (generation : ℕ)
  /-- The second section of `checkHealth`. -/
  | healthWrite (generation : ℕ) (healthy : Bool)
  /-- `terminate`; without a generation when the worker returns afterwards. -/
  | terminate (generation : Option ℕ)
  /-- The receive from `wait` inside `terminate`. -/
  | reap (generation : Option ℕ)
  /-- `clearProcess` inside `terminate`. -/
  | clearReaped (generation : Option ℕ)
  /-- `clearProcess` after the monitoring loop. -/
  | clear (generation : ℕ)
  /-- `generationChanged` after the monitoring loop. -/
  | compare (generation : ℕ)
  /-- `failed`, after an exit. -/
  | exitFailed
  /-- `disableCrashLoop`, after an exit. -/
  | exitCeiling
  /-- `waitWake` with a delay, after an exit. -/
  | exitBackoff
  /-- The goroutine has returned. -/
  | returned
  deriving DecidableEq, Repr

/-- A worker: the fields of the source's `worker`, the local variables of its goroutine, the
process it started last, the context and the clock. -/
structure Worker where
  /-- Whether `spec.Recover` is set. -/
  hasRecover : Bool
  desired : Bool
  generation : ℕ
  /-- The process of the published command handle. -/
  cmd : Option ℕ
  status : Status
  /-- Whether the one-slot wake channel holds a token. -/
  wake : Bool
  pc : Pc
  failures : ℕ
  started : Time
  process : Option Process
  ctxDone : Bool
  now : Time
  deriving DecidableEq, Repr

/-- The worker made by `New` for a component. -/
def Worker.new (disabled hasRecover : Bool) (now : Time) : Worker :=
  { hasRecover, desired := !disabled, generation := 0, cmd := none,
    status := { state := .pending, pid := 0, restarts := 0, lastError := "", intentional := false },
    wake := false, pc := .check, failures := 0, started := 0, process := none, ctxDone := false,
    now }

/-- What happens in one step. -/
inductive Label where
  /-- An operator's command. -/
  | command (c : Command)
  /-- The process exits. -/
  | exit
  /-- The supervisor's context is cancelled. -/
  | cancel
  /-- Time passes. -/
  | tick (d : ℕ)
  /-- The worker runs its next locked section or local computation. -/
  | work
  /-- The worker takes the token from the wake channel. -/
  | takeWake
  /-- The delay of a `waitWake` is over. -/
  | delayOver
  /-- The worker sees that the context is done. -/
  | seeDone
  /-- The worker receives the exit of its process. -/
  | seeExit
  /-- `cmd.Start` succeeds. -/
  | started (pid : ℕ)
  /-- `cmd.Start` fails. -/
  | startError
  /-- The health timer fires and `Health` returns. -/
  | health (healthy : Bool)
  /-- `Recover` returns. -/
  | recovered (success : Bool)
  deriving DecidableEq, Repr

namespace Worker

variable (w : Worker)

/-- Send a signal to the process of the published handle, if there is one. -/
def signal : Worker :=
  match w.cmd with
  | none => w
  | some pid =>
    { w with process := w.process.map fun p => { p with signalled := p.signalled || p.pid == pid } }

/-- `Supervisor.command`, one locked section. -/
def command (c : Command) : Worker :=
  let w := { w with
    desired := c.desired
    generation := w.generation + 1
    status := { w.status with intentional := !c.desired } }
  let w := if c.interrupt then w.signal else w
  { w with wake := true }

/-- `shouldRun`, and where its result leads. -/
def shouldRun : Worker :=
  if w.desired then { w with pc := .launch }
  else { w with
    status := { w.status with state := .stopped, pid := 0, intentional := true }
    pc := .idle }

/-- The second section of `launch`. -/
def publish (generation pid : ℕ) : Worker :=
  { w with
    cmd := some pid
    status := { state := .starting, pid, restarts := w.status.restarts + 1, lastError := "",
                intentional := false }
    pc := .stamp generation }

/-- `clearProcess`. -/
def clearProcess (next : Pc) : Worker :=
  { w with cmd := none, status := { w.status with pid := 0 }, pc := next }

/-- `failed`. -/
def failed (message : String) (next : Pc) : Worker :=
  { w with status := { w.status with state := .backoff, lastError := message, pid := 0 }, pc := next }

/-- `disableCrashLoop`. -/
def disableCrashLoop (next : Pc) : Worker :=
  { w with
    desired := false
    status := { w.status with state := .crashLoop, lastError := "restart ceiling reached" }
    pc := next }

/-- The number of consecutive failures at which a worker gives up. -/
def ceiling : ℕ := 6

/-- The first section of `checkHealth`: only a healthy component that was started again is
recovered. -/
def healthRead (generation : ℕ) (healthy : Bool) : Worker :=
  let starting := w.status.state == .starting && w.status.restarts > 1
  { w with pc := if healthy && starting && w.hasRecover then .recover generation
                 else .healthWrite generation healthy }

/-- The second section of `checkHealth`. -/
def healthWrite (generation : ℕ) (healthy : Bool) : Worker :=
  match w.cmd with
  | none => { w with pc := .monitor generation }
  | some _ =>
    if healthy then
      { w with status := { w.status with state := .running, lastError := "" }
               pc := .monitor generation }
    else if w.now - w.started > 45 * second then
      { w.signal with
        status := { w.status with state := .unhealthy, lastError := "readiness check failed" }
        pc := .monitor generation }
    else { w with pc := .monitor generation }

/-- Where the goroutine goes on after `terminate`. -/
def afterTerminate : Option ℕ → Pc
  | none => .returned
  | some generation => .clear generation

/-- The start of `terminate`: without a handle it returns at once. -/
def terminate (generation : Option ℕ) : Worker :=
  match w.cmd with
  | none => { w with pc := afterTerminate generation }
  | some _ => { w.signal with pc := .reap generation }

/-- `generationChanged` after the monitoring loop: an exit nobody asked for counts as a failure,
and a process that lived long forgives the earlier ones. -/
def compare (generation : ℕ) : Worker :=
  if w.generation ≠ generation then { w with failures := 0, pc := .check }
  else { w with
    failures := (if w.now - w.started > 2 * minute then 0 else w.failures) + 1
    pc := .exitFailed }

/-- The next locked section or local computation of the worker. -/
def work : Option Worker :=
  match w.pc with
  | .check => some w.shouldRun
  | .launch => some { w with pc := .starting w.generation }
  | .publish generation pid => some (w.publish generation pid)
  | .stamp generation => some { w with started := w.now, pc := .monitor generation }
  | .startFailed => some (w.failed "component could not start"
      (if w.failures ≥ ceiling then .startCeiling else .startBackoff))
  | .startCeiling => some (w.disableCrashLoop .startContext)
  | .startContext => some { w with pc := if w.ctxDone then .returned else .check }
  | .woken generation => some { w with
      pc := if w.generation ≠ generation then .terminate (some generation)
            else .monitor generation }
  | .healthRead generation healthy => some (w.healthRead generation healthy)
  | .healthWrite generation healthy => some (w.healthWrite generation healthy)
  | .terminate generation => some (w.terminate generation)
  | .clearReaped generation => some (w.clearProcess (afterTerminate generation))
  | .clear generation => some (w.clearProcess (.compare generation))
  | .compare generation => some (w.compare generation)
  | .exitFailed => some (w.failed "component exited"
      (if w.failures ≥ ceiling then .exitCeiling else .exitBackoff))
  | .exitCeiling => some (w.disableCrashLoop .check)
  | _ => none

/-- Where taking the wake token leads. -/
def takeWake : Option Pc :=
  match w.pc with
  | .idle | .startBackoff | .exitBackoff => some .check
  | .monitor generation => some (.woken generation)
  | _ => none

/-- Where the end of a delay leads. -/
def delayOver : Option Pc :=
  match w.pc with
  | .startBackoff | .exitBackoff => some .check
  | _ => none

/-- Where a done context leads. -/
def seeDone : Option Pc :=
  match w.pc with
  | .idle | .startBackoff | .exitBackoff => some .returned
  | .monitor _ => some (.terminate none)
  | _ => none

/-- Where receiving the exit of the process leads. -/
def seeExit : Option Pc :=
  match w.pc with
  | .monitor generation => some (.clear generation)
  | .reap generation => some (.clearReaped generation)
  | _ => none

/-- Whether the process of the last launch is running. -/
def alive : Bool := w.process.any Process.alive

/-- One step of the worker or of its surroundings, if it can happen. -/
def step : Label → Option Worker
  | .command c => some (w.command c)
  | .exit => if w.alive then some { w with process := w.process.map ({ · with alive := false }) }
             else none
  | .cancel => some { w with ctxDone := true }
  | .tick d => some { w with now := w.now + d }
  | .work => w.work
  | .takeWake => if w.wake then w.takeWake.map fun pc => { w with wake := false, pc } else none
  | .delayOver => w.delayOver.map fun pc => { w with pc }
  | .seeDone => if w.ctxDone then w.seeDone.map fun pc => { w with pc } else none
  | .seeExit => if w.alive then none else w.seeExit.map fun pc => { w with pc }
  | .started pid =>
    match w.pc with
    | .starting generation => some { w with
        process := some { pid, alive := true, signalled := false }
        pc := .publish generation pid }
    | _ => none
  | .startError =>
    match w.pc with
    | .starting _ => some { w with failures := w.failures + 1, pc := .startFailed }
    | _ => none
  | .health healthy =>
    match w.pc with
    | .monitor generation => some { w with pc := .healthRead generation healthy }
    | _ => none
  | .recovered success =>
    match w.pc with
    | .recover generation => some { w with pc := .healthWrite generation success }
    | _ => none

end Worker

end Torkitten.Supervisor
