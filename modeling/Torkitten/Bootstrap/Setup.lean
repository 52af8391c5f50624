import Torkitten.Control.Changes
import Torkitten.Foundations.Run

/-!
# First-time setup

The setup requests served by `setupRoute` and the methods `Begin`, `QR` and `Complete` of the
bootstrap manager they enter. Any number of requests are served at once. A request first reads
`Initialized`; it then waits for the manager's mutex, and everything `Begin` and `Complete` do
happens while they hold it. The steps of different requests interleave freely, and every call
outside the program may fail.

The model follows the files a setup changes: the users file and the database of Authelia, with
the TOTP secret the database holds, and the QR code of that secret.
-/

namespace Torkitten.Bootstrap

/-- `setupFlow`: a setup that waits for its second factor. -/
structure SetupFlow where
  id : String
  username : String
  password : List UInt8
  expires : Time
  deriving DecidableEq, Repr

/-- The credentials of Authelia on disk. -/
structure Credentials where
  /-- The users file. -/
  users : String
  /-- The database, if it exists, with the owner and the value of its TOTP secret. -/
  database : Option (Option (String × ℕ))
  deriving DecidableEq, Repr

/-- A request served by `setupRoute`. `form` says whether `validForm` accepts it. -/
inductive Request where
  /-- `POST /setup/password`. -/
  | password (form : Bool) (username : String) (password confirmation : List UInt8)
  /-- `POST /setup/totp`, with the setup cookie and the code it carries. -/
  | totp (form : Bool) (flow : Option String) (code : String)
  /-- `GET /setup/qr`, with the setup cookie it carries. -/
  | qr (flow : Option String)
  deriving DecidableEq, Repr

/-- The files `Begin` removes, in this order. -/
inductive StaleFile where
  | database
  | wal
  | shm
  | qr
  deriving DecidableEq, Repr

/-- Where a request stands: the step it takes next. -/
inductive Pc where
  /-- The check of `Initialized` in `setupRoute`. -/
  | arrived (r : Request)
  /-- Waiting for the mutex of the manager. -/
  | waiting (r : Request)
  /-- `Begin`: the password hash. -/
  | hash (username : String) (password : List UInt8)
  /-- `Begin`: `StopAuthelia`. -/
  | stop (username : String) (password : List UInt8) (digest : String)
  /-- `Begin`: the removal of the files that are left. -/
  | remove (username : String) (password : List UInt8) (digest : String) (file : StaleFile)
      (rest : List StaleFile)
  /-- `Begin`: `WriteOwner`. -/
  | writeOwner (username : String) (password : List UInt8) (digest : String)
  /-- `Begin`: `StartAuthelia`. -/
  | start (username : String) (password : List UInt8)
  /-- `Begin`: `GenerateTOTP`. -/
  | generate (username : String) (password : List UInt8)
  /-- `Begin`: the random flow id. -/
  | token (username : String) (password : List UInt8)
  /-- `Complete`: the verification of both factors. -/
  | verify (username : String) (password : List UInt8) (code : String)
  /-- `Complete`: `Issue`. -/
  | issue (username : String)
  /-- `Complete`: `Initialize`. -/
  | initializing (session : LocalSession)
  /-- `Complete`: the removal of the QR code. -/
  | finish
  /-- The request has been answered. -/
  | answered
  deriving DecidableEq, Repr

/-- The system during setup. Requests are numbered in the order of their arrival. -/
structure Setup where
  state : State
  credentials : Credentials
  /-- Whether the QR code of the TOTP secret exists. -/
  qr : Bool
  flow : Option SetupFlow
  /-- The request that holds the mutex. -/
  holder : Option ℕ
  requests : List Pc
  now : Time
  deriving DecidableEq, Repr

/-- What the surroundings decide in one step. -/
inductive Reply where
  /-- The call succeeds. -/
  | ok
  /-- The call fails; `applied` says whether it took effect all the same. -/
  | fail (applied : Bool)
  /-- Authelia hashes the password to a digest. -/
  | digest (text : String)
  /-- Authelia generates a TOTP secret; `accepted` says whether its QR code passes the checks. -/
  | secret (value : ℕ) (accepted : Bool)
  /-- The random source gives a flow id. -/
  | id (text : String)
  /-- A session record has been issued. -/
  | session (record : LocalSession)
  deriving DecidableEq, Repr

/-- What happens in one step. -/
inductive Label where
  /-- A request arrives. -/
  | arrive (r : Request)
  /-- Time passes. -/
  | tick (d : ℕ)
  /-- A request takes its next step, and the surroundings reply. -/
  | act (i : ℕ) (reply : Reply)
  deriving DecidableEq, Repr

/-- The checks of `Begin` on its arguments. -/
def acceptsDetails (username : String) (password confirmation : List UInt8) : Bool :=
  (validateUsername username).isNone && 12 ≤ password.length && password.length ≤ 128 &&
    password == confirmation

/-- The checks of `WriteOwner` on the digest. -/
def acceptsDigest (digest : String) : Bool :=
  digest.startsWith "$argon2id$" && digest.utf8ByteSize ≤ 512 &&
    !digest.toList.any (fun c => c == '\r' || c == '\n' || c == '\x27')

/-- The users file that `WriteOwner` writes. -/
def ownerFile (username digest : String) : String :=
  "users:\n  " ++ username ++ ":\n    disabled: false\n    displayname: '" ++ username ++
    "'\n    password: '" ++ digest ++ "'\n    groups:\n      - 'torkitten-owner'\n"

/-- The condition `validForm` and the presence of a cookie put on a request before it enters the
manager. -/
def Request.admitted : Request → Bool
  | .password form _ _ _ => form
  | .totp form flow _ => form && flow.isSome
  | .qr flow => flow.isSome

namespace Setup

variable (s : Setup)

/-- Move request `i`. -/
def move (i : ℕ) (pc : Pc) : Setup := { s with requests := s.requests.set i pc }

/-- Request `i` returns from the manager and is answered. -/
def leave (i : ℕ) : Setup := { s.move i .answered with holder := none }

/-- The check of `Initialized` in `setupRoute`. -/
def check (i : ℕ) (r : Request) : Setup :=
  if s.state.initialized then s.move i .answered
  else if r.admitted then s.move i (.waiting r)
  else s.move i .answered

/-- `validFlow`: the flow with the given id that has not expired. -/
def validFlow (id : String) : Option SetupFlow :=
  s.flow.filter fun flow => s.now < flow.expires && id == flow.id

/-- What `validFlow` does to an expired flow. -/
def dropExpired : Setup :=
  { s with flow := s.flow.filter fun flow => s.now < flow.expires }

/-- The start of `Begin`, up to the password hash. -/
def beginSetup (i : ℕ) (initialized : Bool) (username : String)
    (password confirmation : List UInt8) : Setup :=
  if initialized then s.leave i
  else if acceptsDetails username password confirmation then
    { s.move i (.hash username password) with flow := none }
  else s.leave i

/-- The start of `Complete`, up to the verification. -/
def completeSetup (i : ℕ) (flowID code : String) : Setup :=
  match s.validFlow flowID with
  | some flow => s.move i (.verify flow.username flow.password code)
  | none => s.dropExpired.leave i

/-- A request enters the manager, which must be free. `setupRoute` tells `Begin` that the
installation is not initialised, whatever has happened since its own check. -/
def enter (i : ℕ) (r : Request) : Option Setup :=
  if s.holder.isSome then none
  else
    let s := { s with holder := some i }
    match r with
    | .password _ username password confirmation =>
      some (s.beginSetup i false username password confirmation)
    | .totp _ flow code => some (s.completeSetup i (flow.getD "") code)
    | .qr flow =>
      match s.validFlow (flow.getD "") with
      | some _ => some (s.leave i)
      | none => some (s.dropExpired.leave i)

/-- The removal of one file. -/
def removeFile (file : StaleFile) : Setup :=
  match file with
  | .database | .wal | .shm => { s with credentials := { s.credentials with database := none } }
  | .qr => { s with qr := false }

/-- Where `Begin` goes on after a removal. -/
def afterRemove (username : String) (password : List UInt8) (digest : String) :
    List StaleFile → Pc
  | [] => .writeOwner username password digest
  | file :: rest => .remove username password digest file rest

/-- Write the users file. -/
def writeUsers (username digest : String) : Setup :=
  { s with credentials := { s.credentials with users := ownerFile username digest } }

/-- Store a TOTP secret and write its QR code. -/
def storeSecret (username : String) (value : ℕ) : Setup :=
  { s with credentials := { s.credentials with database := some (some (username, value)) }
           qr := true }

/-- `Initialize` when loading and persisting succeed. -/
def commit (session : LocalSession) : Option State :=
  (componentCandidate (initializeMutation session) s.state).toOption

/-- The step of request `i` that stands at `pc`. -/
def act (i : ℕ) (pc : Pc) (reply : Reply) : Option Setup :=
  match pc, reply with
  | .arrived r, .ok => some (s.check i r)
  | .waiting r, .ok => s.enter i r
  | .hash username password, .digest text =>
    if password.contains 0 then some (s.leave i)
    else some (s.move i (.stop username password text))
  | .hash _ _, .fail _ => some (s.leave i)
  | .stop username password digest, .ok =>
    some (s.move i (.remove username password digest .database [.wal, .shm, .qr]))
  | .stop _ _ _, .fail _ => some (s.leave i)
  | .remove username password digest file rest, .ok =>
    some ((s.removeFile file).move i (afterRemove username password digest rest))
  | .remove _ _ _ _ _, .fail _ => some (s.leave i)
  | .writeOwner username password digest, .ok =>
    if acceptsDigest digest then some ((s.writeUsers username digest).move i (.start username password))
    else some (s.leave i)
  | .writeOwner username _ digest, .fail applied =>
    if acceptsDigest digest && applied then some ((s.writeUsers username digest).leave i)
    else some (s.leave i)
  | .start username password, .ok =>
    some { s.move i (.generate username password) with
      credentials := { s.credentials with database := some (s.credentials.database.getD none) } }
  | .start _ _, .fail _ => some (s.leave i)
  | .generate username password, .secret value accepted =>
    if accepted then some ((s.storeSecret username value).move i (.token username password))
    else some ((s.storeSecret username value).leave i)
  | .generate _ _, .fail _ => some ({ s with qr := false }.leave i)
  | .token username password, .id text =>
    some { s.leave i with flow := some { id := text, username, password, expires := s.now + 10 * minute } }
  | .token _ _, .fail _ => some (s.leave i)
  | .verify username _ _, .ok => some (s.move i (.issue username))
  | .verify _ _ _, .fail _ => some (s.leave i)
  | .issue _, .session record => some (s.move i (.initializing record))
  | .issue _, .fail _ => some (s.leave i)
  | .initializing session, .ok =>
    match s.commit session with
    | some state => some { s.move i .finish with state, flow := none }
    | none => some (s.leave i)
  | .initializing _, .fail _ => some (s.leave i)
  | .finish, .ok => some ({ s with qr := false }.leave i)
  | .finish, .fail _ => some (s.leave i)
  | _, _ => none

/-- One step of the system, if it can happen. -/
def step : Label → Option Setup
  | .arrive r => some { s with requests := s.requests ++ [.arrived r] }
  | .tick d => some { s with now := s.now + d }
  | .act i reply => s.requests[i]?.bind fun pc => s.act i pc reply

end Setup

end Torkitten.Bootstrap
