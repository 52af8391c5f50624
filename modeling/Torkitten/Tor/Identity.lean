import Torkitten.Model.Encoding
import Torkitten.Tor.Paths

/-!
# The onion identity and its rotation

`StageIdentity`, `ActivateIdentity`, `RestoreIdentity`, `FinishIdentity` and `RecoverIdentity` of
`internal/tor`: the functions that move the hidden service directory between its names. Reading a
host name never fails for a reason of its own; renaming and removing may.
-/

namespace Torkitten.Tor

open Proc

/-! ## Reading an identity -/

/-- `^[a-z2-7]{56}\.onion$`. -/
def onionHostRE (host : String) : Bool :=
  hasSuffix host ".onion" && serviceIDRE (trimSuffix host ".onion")

/-- `Paths.ServiceID` of a hidden service directory. -/
def readServiceID (d : Option HsDir) : Except GoError String :=
  match d.bind HsDir.hostname with
  | none => .error (.new "Tor onion hostname unavailable")
  | some data =>
    if data.utf8ByteSize > 128 then .error (.new "Tor onion hostname unavailable")
    else
      let host := trimSpace data
      if !onionHostRE host then .error (.new "Tor returned invalid v3 onion hostname")
      else .ok (trimSuffix host ".onion")

/-! ## Client keys -/

/-- `GenerateClientKey`: public and private half. -/
def generateClientKey : Op (String × String) := do
  let key ← generateKey
  return (base32Encode key.1, base32Encode key.2)

/-- `Credential`. -/
def credential (serviceID privateKey : String) : Except GoError String :=
  if !serviceIDRE serviceID || !keyRE privateKey then
    .error (.new "invalid Tor client credential")
  else .ok (serviceID ++ ":descriptor:x25519:" ++ privateKey)

/-! ## Staging -/

/-- `filepath.Dir` of a clean path. -/
def filepathDir (path : String) : String :=
  let parent := ((path.toList.reverse.dropWhile (· != '/')).drop 1).reverse
  if parent.isEmpty then "/" else String.ofList parent

/-- The start of the name of every stage directory. -/
def stageName : String := ".identity-stage-"

namespace Paths

variable (p : Paths)

/-- The directory that `os.MkdirTemp` creates for the stage with this number. -/
def stageRoot (n : ℕ) : String :=
  let dir := filepathDir p.hiddenServiceDir
  (if hasSuffix dir "/" then dir else dir ++ "/") ++ stageName ++ toString n

/-- The paths of a stage. -/
def staged (n : ℕ) : Paths :=
  let root := p.stageRoot n
  { p with
    config := root ++ "/torrc"
    dataDir := root ++ "/data"
    hiddenServiceDir := root ++ "/hidden-service"
    controlSocket := root ++ "/control.sock"
    cookieFile := root ++ "/cookie" }

end Paths

/-- `IdentityStage`: the number of the stage directory and the address generated in it. -/
structure IdentityStage where
  root : ℕ
  serviceID : String
  deriving DecidableEq, Repr

/-- `os.MkdirTemp`. -/
def mkdirTemp : Op ℕ := .ask fun e w =>
  if e.crash then (.crash, w)
  else if e.disk.fails || decide (e.stage ∈ w.stages) then (.error .external, w)
  else
    (.ok e.stage, { w.setDir (.stage e.stage) none with stages := w.stages.insert e.stage none })

/-- The text of a `hostname` file. -/
def hostnameText (id : String) : String := id ++ ".onion\n"

/-- The directory of a stage after Tor has generated an identity in it. -/
def generatedAt (n : ℕ) (id : String) (w : World) : World :=
  let d := (w.dirs (.stage n)).getD .empty
  { w.setDir (.stage n) (some { d with hostname := some (hostnameText id), keys := some id }) with
    used := id :: w.used }

/-- Tor runs on a stage until it has written a host name. No address is generated twice, and
every address is a v3 one. -/
def generateIdentity (n : ℕ) : Op Unit := .ask fun e w =>
  if e.crash then (.crash, w)
  else if e.hostname ∈ w.used || !serviceIDRE e.hostname then (.error .external, w)
  else if e.service.fails then
    (.error .external, if e.service.applied then generatedAt n e.hostname w else w)
  else (.ok (), generatedAt n e.hostname w)

/-- The configuration of a stage. -/
def writeStageConfig (n : ℕ) (config : Torrc) : Op Unit :=
  writeCall fun w => some { w with stages := w.stages.insert n (some config) }

/-- The part of `StageIdentity` after which a failure removes the stage. -/
def fillStage (p : Paths) (n : ℕ) (devices : List Device) : Op IdentityStage := do
  let candidate := p.staged n
  candidate.ensure (.stage n)
  reconcile (.stage n) devices none
  match candidate.render false with
  | .error err => .fail err
  | .ok config =>
    writeStageConfig n (config ++ [("DisableNetwork", "1")])
    Paths.validate
    -- `cmd.Start`
    serviceCall id
    let waited ← (generateIdentity n).attempt
    let w ← get
    match waited, readServiceID (w.dirs (.stage n)) with
    | .ok _, .ok serviceID => return { root := n, serviceID }
    | _, _ => .fail (.new "Tor could not stage an onion identity")

/-- `Paths.StageIdentity`. -/
def stageIdentity (p : Paths) (devices : List Device) : Op IdentityStage := do
  let n ← mkdirTemp
  match ← (fillStage p n devices).attempt with
  | .error err =>
    undoing (ignore (removeAll (.stage n)))
    .fail err
  | .ok stage => return stage

/-! ## Moving the hidden service directory -/

/-- `Paths.ActivateIdentity`: the name of the backup. -/
def activateIdentity (p : Paths) (stage : IdentityStage) : Op HsPath :=
  if !(filepathDir p.hiddenServiceDir ++ "/" ++ stageName).toList.isPrefixOf
      (p.stageRoot stage.root).toList then .fail (.new "invalid identity stage")
  else do
    removeAll .previous
    rename .active .previous
    match ← (rename (.stage stage.root) .active).attempt with
    | .error err =>
      undoing (ignore (rename .previous .active))
      .fail err
    | .ok _ =>
      ignore (removeAll (.stage stage.root))
      return .previous

/-- The exchange at the end of `RestoreIdentity` and `RecoverIdentity`: the active directory gives
way to the previous one. -/
def exchange : Op Unit := do
  ignore (removeAll .failed)
  rename .active .failed
  match ← (rename .previous .active).attempt with
  | .error err =>
    undoing (ignore (rename .failed .active))
    .fail err
  | .ok _ => removeAll .failed

/-- `Paths.RestoreIdentity`. -/
def restoreIdentity (backup : HsPath) : Op Unit :=
  if backup ≠ .previous then .fail (.new "invalid identity backup") else exchange

/-- `Paths.FinishIdentity`. -/
def finishIdentity (backup : HsPath) : Op Unit :=
  if backup ≠ .previous then .fail (.new "invalid identity backup") else removeAll backup

/-- `Paths.RecoverIdentity`. -/
def recoverIdentity (serviceID : String) : Op Unit := do
  let w ← get
  forEach (fun n => ignore (removeAll (.stage n))) w.stages.keys
  let w ← get
  if serviceID = "" || (readServiceID (w.dirs .active)).toOption == some serviceID then
    removeAll .previous
  else if (readServiceID (w.dirs .previous)).toOption != some serviceID then
    .fail (.new "durable Tor identity cannot be recovered")
  else exchange

end Torkitten.Tor
