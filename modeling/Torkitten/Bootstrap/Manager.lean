import Torkitten.Access.Session
import Torkitten.Bootstrap.Setup

/-!
# The bootstrap manager

The methods `Begin`, `QR` and `Complete` of the bootstrap manager as procedures, one call after the
other: each of them holds the mutex of the manager from its first line to its last. `Bootstrap.Setup`
follows the requests that wait for the mutex.

The procedures work on the control plane, on the users file and the database of Authelia and on the QR
code. What Authelia prints for a password and a salt is a parameter.
-/

namespace Torkitten.Bootstrap

open Proc

/-- What has happened to a setup. -/
inductive Milestone where
  /-- A call of `Begin` passed the checks of its arguments. -/
  | admitted
  /-- Authelia hashed a password. -/
  | hashed (password : List UInt8) (digest : String)
  /-- The users file was written. -/
  | wrote (username digest : String)
  /-- A TOTP secret was stored in the database. -/
  | generated (username : String) (secret : List UInt8)
  /-- `Begin` returned a flow id, at a reading of the clock. -/
  | began (id : String) (start : Time)
  deriving DecidableEq, Repr

/-- The system as the manager sees it. The last field records what has happened, newest first; no call
reads it. -/
structure Desk where
  world : World
  /-- The users file. -/
  users : String
  /-- The database, if it exists, with the owner and the value of its TOTP secret. -/
  database : Option (Option (String × List UInt8))
  /-- Whether the QR code exists. -/
  qr : Bool
  flow : Option SetupFlow
  history : List Milestone

/-- What a call of the manager does. -/
abbrev Task := Proc Desk Event GoError

/-- Run an operation on the control plane. -/
def onWorld {α : Type} (c : Op α) : Task α := .focus Desk.world (fun d world => { d with world }) c

/-- Replace the error that a call may return. -/
def failing {α : Type} (err : GoError) (c : Task α) : Task α := do
  match ← c.attempt with
  | .ok a => return a
  | .error _ => .fail err

/-- A call of another process, which may have taken effect although it reports an error. -/
def processCall (effect : Event → Desk → Desk) : Task Unit := .ask fun e d =>
  if e.crash then (.crash, d)
  else if e.service.fails then (.error .external, if e.service.applied then effect e d else d)
  else (.ok (), effect e d)

/-- A file-system call, which may have taken effect although it reports an error. -/
def fileCall (effect : Desk → Desk) : Task Unit := .ask fun e d =>
  if e.crash then (.crash, d)
  else if e.disk.fails then (.error .external, if e.disk.applied then effect d else d)
  else (.ok (), effect d)

namespace Desk

/-- The removal of one file. -/
def removed (file : StaleFile) (d : Desk) : Desk :=
  match file with
  | .database | .wal | .shm => { d with database := none }
  | .qr => { d with qr := false }

/-- The users file of an owner has been written. -/
def wrote (username digest : String) (d : Desk) : Desk :=
  { d with users := ownerFile username digest, history := .wrote username digest :: d.history }

/-- Authelia has been started, and has created its database. -/
def started (d : Desk) : Desk := { d with database := some (d.database.getD none) }

/-- A TOTP secret has been stored and its QR code written. -/
def generated (username : String) (secret : List UInt8) (d : Desk) : Desk :=
  { d with database := some (some (username, secret)), qr := true,
           history := .generated username secret :: d.history }

end Desk

/-- `StopAuthelia`. -/
def stopAuthelia : Task Unit :=
  processCall fun _ d => { d with world := { d.world with commands := (.authelia, .stop) :: d.world.commands } }

/-- `StartAuthelia`. -/
def startAuthelia : Task Unit :=
  processCall fun _ d =>
    { d.started with world := { d.world with commands := (.authelia, .start) :: d.world.commands } }

/-- `WriteOwner`. -/
def writeOwner (username digest : String) : Task Unit :=
  match validateUsername username with
  | some err => .fail err
  | none =>
    if !acceptsDigest digest then .fail (.new "invalid Authelia password digest")
    else fileCall (Desk.wrote username digest)

/-- `GenerateTOTP`. -/
def generateTOTP (username : String) : Task Unit :=
  if (validateUsername username).isSome then .fail (.new "invalid owner")
  else do
    ignore (fileCall (Desk.removed .qr))
    processCall fun e d => d.generated username (takeBytes 20 e.bytes)
    failing (.new "Authelia did not create a bounded TOTP QR") (fileCall id)
    fileCall id

/-- `Client.Verify`. -/
def verify (username : String) (password : List UInt8) (code : String) : Task Unit :=
  if (validateUsername username).isSome || password.length < 1 || password.length > 128 then
    .fail (.new "authentication failed")
  else do
    failing (.new "authentication failed") (processCall fun _ => id)
    failing (.new "authentication failed") (processCall fun _ => id)
    if !matchesClass Char.isDigit 6 code then .fail (.new "authentication failed")
    else failing (.new "authentication failed") (processCall fun _ => id)

/-- `validFlow`: the flow with the given id, unless it has expired. -/
def validFlow (id : String) : Task (Option SetupFlow) := do
  let d ← get
  match d.flow with
  | none => return none
  | some flow =>
    let current ← onWorld now
    if current < flow.expires && id == flow.id then return some flow
    else do
      let later ← onWorld now
      if later < flow.expires then return none
      else do
        .modify fun d => { d with flow := none }
        return none

/-- The parts that the bootstrap manager is built with. -/
structure Manager where
  runtime : Runtime
  digest : Digest
  /-- The digest that Authelia prints for a password and a salt, if any. -/
  hash : List UInt8 → List UInt8 → Option String

namespace Manager

variable (m : Manager)

/-- `HashPassword`. -/
def hashPassword (password : List UInt8) : Task String :=
  if password.length < 12 || password.length > 128 || password.contains 0 then
    .fail (.new "password must contain 12-128 bytes")
  else .ask fun e d =>
    if e.crash then (.crash, d)
    else if e.service.fails then (.error (.new "Authelia password hashing failed"), d)
    else
      match m.hash password e.bytes with
      | none => (.error (.new "Authelia returned no password digest"), d)
      | some digest =>
        if digest.utf8ByteSize > 512 then (.error (.new "Authelia returned no password digest"), d)
        else (.ok digest, { d with history := .hashed password digest :: d.history })

/-- `Manager.Begin`. -/
def beginSetup (initialized : Bool) (username : String) (password confirmation : List UInt8) :
    Task String :=
  if initialized then .fail (.new "file does not exist")
  else if !acceptsDetails username password confirmation then .fail (.new "invalid setup details")
  else do
    .modify fun d => { d with flow := none, history := .admitted :: d.history }
    let digest ← m.hashPassword password
    failing (.new "could not reconcile Authelia") stopAuthelia
    failing (.new "could not clear incomplete setup")
      (forEach (fun file => fileCall (Desk.removed file)) [.database, .wal, .shm, .qr])
    writeOwner username digest
    failing (.new "Authelia did not become ready") startAuthelia
    generateTOTP username
    let raw ← onWorld (randomBytes 32)
    let start ← onWorld now
    .modify fun d =>
      { d with flow := some { id := base64Encode raw, username, password, expires := start + 10 * minute }
               history := .began (base64Encode raw) start :: d.history }
    return base64Encode raw

/-- `Manager.QR`. -/
def setupQR (id : String) : Task Unit := do
  match ← validFlow id with
  | none => .fail (.new "file does not exist")
  | some _ => fileCall fun d => d

/-- `Manager.Complete`. -/
def complete (id code : String) : Task String := do
  match ← validFlow id with
  | none => .fail (.new "setup expired")
  | some flow =>
    failing (.new "authentication failed") (verify flow.username flow.password code)
    let issued ← onWorld (issue flow.username)
    onWorld (m.runtime.completeSetup (issued.record m.digest))
    .modify fun d => { d with flow := none }
    ignore (fileCall (Desk.removed .qr))
    return issued.cookie

end Manager

/-- A call of the manager. -/
inductive SetupCall where
  | beginSetup (initialized : Bool) (username : String) (password confirmation : List UInt8)
  | setupQR (id : String)
  | complete (id code : String)
  deriving DecidableEq, Repr

/-- A call has been made and has returned, with or without an error. -/
def Manager.Called (m : Manager) (d : Desk) (call : SetupCall) (d' : Desk) : Prop :=
  ∃ (env : ℕ → Event) (n : ℕ), (∀ i, Lives (env i)) ∧
    match call with
    | .beginSetup initialized username password confirmation =>
      ((m.beginSetup initialized username password confirmation).run env n d).2.1 = d'
    | .setupQR id => ((Manager.setupQR id).run env n d).2.1 = d'
    | .complete id code => ((m.complete id code).run env n d).2.1 = d'

/-- The sequences of calls of a new manager, whose store has been opened. -/
abbrev ManagerRun (m : Manager) : List SetupCall → Desk → Prop :=
  Run (fun d => d.flow = none ∧ ∃ s, Held d.world s ∧ s.Valid) m.Called

end Torkitten.Bootstrap
