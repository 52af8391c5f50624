import Torkitten.Foundations.Run
import Torkitten.Model.Encoding

/-!
# Login flows

`Login.Begin` has Authelia verify a password and keeps the factor session it obtains under a random
id. `Login.Complete` takes the session from there, has Authelia verify a code and destroys it. Any
number of calls are served at once. The two critical sections under the mutex of `Login` are single
steps; the calls of Authelia, the random source and the clock stand outside of them, so that the steps
of different calls interleave freely. The clock may answer anything.

A `FactorSession` is used through a pointer: the sessions obtained so far are numbered, and `Destroy`
clears the session in its place.
-/

namespace Torkitten.Login

/-- `FactorSession`. -/
structure FactorSession where
  owner : String
  /-- Whether `client` and `parent` are set. -/
  connected : Bool
  deriving DecidableEq, Repr

/-- `FactorSession.Destroy`. -/
def FactorSession.destroy (_ : FactorSession) : FactorSession := { owner := "", connected := false }

/-- `loginFlow`, with its key and the number of its factor session. -/
structure Flow where
  id : String
  factors : ℕ
  expires : Time
  deriving DecidableEq, Repr

/-- `Login.flows`, and the factor sessions obtained so far. -/
structure Table where
  flows : List Flow
  sessions : List FactorSession
  deriving DecidableEq, Repr

/-- Where a call stands: the step it takes next. -/
inductive Call where
  /-- `Begin`: `BeginFactors`. -/
  | authenticate (owner : String) (password : List UInt8)
  /-- `Begin`: the random flow id. -/
  | draw (factors : ℕ)
  /-- `Begin`: the critical section. -/
  | keep (factors : ℕ) (id : String)
  /-- `Complete`: the critical section. -/
  | take (id token : String)
  /-- `Complete`: the flow is checked. -/
  | check (token : String) (flow : Option Flow)
  /-- `Complete`: `FactorSession.Complete`, up to the request to Authelia. -/
  | verify (token : String) (flow : Flow)
  /-- `Complete`: the answer of Authelia is awaited. -/
  | await (factors : ℕ)
  /-- `Begin` has returned a flow id. -/
  | began (id : String)
  /-- `Complete` has returned an owner. -/
  | completed (owner : String)
  | failed (err : GoError)
  /-- A destroyed session was used. -/
  | panicked
  deriving DecidableEq, Repr

/-- What the surroundings decide in one step. -/
inductive Reply where
  | ok
  /-- The status that Authelia answers to the password, and the status and `has_totp` of the user. -/
  | password (status : Option String) (info : Option (String × Bool))
  /-- The random bytes. -/
  | random (raw : Except GoError (List UInt8))
  /-- The clock. -/
  | clock (now : Time)
  /-- The status that Authelia answers to the code. -/
  | code (status : Option String)

/-- What is observed of one step. Calls are numbered in the order in which they are made. -/
inductive Event where
  /-- Call `call` obtained the factor session for an owner. -/
  | obtained (call factors : ℕ) (owner : String)
  /-- The random source gave a flow id. -/
  | drawn (id : String)
  /-- Call `call` put the session under the flow id, at a reading of the clock. -/
  | stored (call : ℕ) (id : String) (factors : ℕ) (now : Time)
  /-- Call `call` found its flow unexpired at a reading of the clock. -/
  | passed (call : ℕ) (id : String) (now : Time)
  /-- Call `call` submitted a second factor to Authelia. -/
  | submitted (call : ℕ) (id : String) (factors : ℕ) (owner : String)
  /-- `Destroy` was called. -/
  | destroyed (factors : ℕ)
  deriving DecidableEq, Repr

/-- What happens in one step. -/
inductive Label where
  /-- `Begin` is called. -/
  | callBegin (owner : String) (password : List UInt8)
  /-- `Complete` is called. -/
  | callComplete (id token : String)
  /-- A call takes its next step, and the surroundings reply. -/
  | act (i : ℕ) (reply : Reply)

/-- The error of every check of a factor. -/
def authenticationFailed : Call := .failed (.new "authentication failed")

namespace Table

variable (t : Table)

/-- `Destroy` of a session. -/
def destroy (f : ℕ) : Table := { t with sessions := t.sessions.modify f FactorSession.destroy }

/-- The owner that a session names. -/
def ownerOf (f : ℕ) : String := (t.sessions[f]?.map FactorSession.owner).getD ""

/-- The sessions of the flows that have expired. -/
def expired (now : Time) : List ℕ :=
  (t.flows.filter fun flow => !decide (now < flow.expires)).map Flow.factors

/-- The loop of `Begin` that removes the expired flows. -/
def purge (now : Time) : Table :=
  (t.expired now).foldl destroy { t with flows := t.flows.filter fun flow => decide (now < flow.expires) }

/-- The assignment of a flow to its id. -/
def store (flow : Flow) : Table :=
  { t with flows := flow :: t.flows.filter fun other => other.id != flow.id }

/-- The critical section of `Begin`. -/
def keep (i f : ℕ) (id : String) (now : Time) : Table × Call × List Event :=
  let purged := t.purge now
  let removed := (t.expired now).map Event.destroyed
  if purged.flows.length ≥ 32 then
    (purged.destroy f, .failed (.new "too many login attempts"), .destroyed f :: removed)
  else
    (purged.store ⟨id, f, now + 5 * minute⟩, .began id, .stored i id f now :: removed)

/-- The step of call `i` that stands at `c`. -/
def advance (i : ℕ) (c : Call) (reply : Reply) : Option (Table × Call × List Event) :=
  match c, reply with
  | .authenticate owner password, .password status info =>
    if (validateUsername owner).isSome || password.length < 1 || password.length > 128 then
      some (t, authenticationFailed, [])
    else if status ≠ some "OK" then some (t, authenticationFailed, [])
    else if info ≠ some ("OK", true) then some (t, authenticationFailed, [])
    else some ({ t with sessions := t.sessions ++ [⟨owner, true⟩] }, .draw t.sessions.length,
      [.obtained i t.sessions.length owner])
  | .draw f, .random (.error err) => some (t.destroy f, .failed err, [.destroyed f])
  | .draw f, .random (.ok raw) => some (t, .keep f (base64Encode raw), [.drawn (base64Encode raw)])
  | .keep f id, .clock now => some (t.keep i f id now)
  | .take id token, .ok =>
    some ({ t with flows := t.flows.filter fun flow => flow.id != id },
      .check token (t.flows.find? fun flow => flow.id == id), [])
  | .check _ none, .ok => some (t, authenticationFailed, [])
  | .check token (some flow), .clock now =>
    if now < flow.expires then some (t, .verify token flow, [.passed i flow.id now])
    else some (t.destroy flow.factors, authenticationFailed, [.destroyed flow.factors])
  | .verify token flow, .ok =>
    if !matchesClass Char.isDigit 6 token then
      some (t.destroy flow.factors, authenticationFailed, [.destroyed flow.factors])
    else
      match t.sessions[flow.factors]? with
      | some ⟨owner, true⟩ =>
        some (t, .await flow.factors, [.submitted i flow.id flow.factors owner])
      | _ => some (t.destroy flow.factors, .panicked, [.destroyed flow.factors])
  | .await f, .code status =>
    if status = some "OK" then some (t.destroy f, .completed (t.ownerOf f), [.destroyed f])
    else some (t.destroy f, authenticationFailed, [.destroyed f])
  | _, _ => none

end Table

/-- A `Login` and the calls made of it. -/
structure System where
  table : Table
  calls : List Call
  deriving DecidableEq, Repr

/-- `NewLogin`. -/
def newLogin : System := { table := { flows := [], sessions := [] }, calls := [] }

/-- One step of the system, if it can happen, with what is observed of it. -/
def System.step (s : System) : Label → Option (System × List Event)
  | .callBegin owner password => some ({ s with calls := s.calls ++ [.authenticate owner password] }, [])
  | .callComplete id token => some ({ s with calls := s.calls ++ [.take id token] }, [])
  | .act i reply =>
    s.calls[i]?.bind fun c => (s.table.advance i c reply).map fun (table, c', events) =>
      ({ table, calls := s.calls.set i c' }, events)

/-- The runs of a `Login`, recorded by what is observed of each step, the newest first. -/
abbrev LoginRun : List (List Event) → System → Prop :=
  Run (· = newLogin) fun s events s' => ∃ l, s.step l = some (s', events)

end Torkitten.Login
