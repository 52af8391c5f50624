import Torkitten.Caddy.Rotation

/-!
# The manager

The operations of `internal/control`. Each runs inside a transition of the store. Contexts and
their deadlines are not modelled: a call that runs into a deadline is a call that fails.
-/

namespace Torkitten

open Proc

/-- Simple case folding of the characters that fold to an ASCII letter. -/
def foldChar (c : Char) : Char :=
  if 'A' ≤ c && c ≤ 'Z' then Char.ofNat (c.toNat + 32)
  else if c == '\u017f' then 's'
  else if c == '\u212a' then 'k'
  else c

/-- `strings.EqualFold`, where one of the texts is ASCII. -/
def equalFold (a b : String) : Bool := a.toList.map foldChar == b.toList.map foldChar

/-- The effect of `Client.Reload`: Tor reads its files again. -/
def World.reloaded (w : World) : World :=
  { w with tor := { torrc := w.torrc, service := w.dirs .active } }

/-- `Client.Reload` of Tor. -/
def reload : Op Unit := serviceCall World.reloaded

/-- `Store.View`. -/
def viewState : Op State := do
  let w ← get
  return clone w.value

/-- A transition that gives a new state, a rollback and a result. -/
def changed {β : Type} (next : State) (rollback : Option (Op Unit)) (result : β) :
    Change World Event β :=
  { next, rollback, err := none, result }

namespace Runtime

variable (rt : Runtime)

/-! ## Identity -/

/-- The function of the transition of `RotateIdentity`. -/
def rotationChange (current : State) : Op (Change World Event Rotation) :=
  if !current.initialized || current.pending.isSome || current.devices.isEmpty then
    .fail (.new "identity cannot be rotated")
  else do
    let rotation ← rt.rotate { clone current with sessions := [] }
    match rotation.candidate.validate with
    | some err =>
      ignore rotation.rollback
      .fail err
    | none => return changed rotation.candidate (some rotation.rollback) rotation

/-- `Manager.RotateIdentity`. -/
def rotateIdentity (confirmation : String) : Op (List RotatedCredential) :=
  if !equalFold (trimSpace confirmation) "ROTATE" then
    .fail (.new "identity rotation unavailable")
  else do
    let rotation ← worldStore.transition (some rt.rotationChange)
    rotation.finish
    return rotation.credentials

/-! ## Routes -/

/-- The function of the transition of `ComponentChange`. -/
def componentChange (mutate : Mutation) (current : State) : Op (Change World Event Unit) :=
  match componentCandidate mutate current with
  | .error err => .fail err
  | .ok candidate =>
    match rt.renderer.render candidate with
    | .error err => .fail err
    | .ok config => do
      let rollback := undoing (rt.loadCaddy (rt.renderer.render current))
      Store.orUndo rollback (rt.applyCaddy config)
      return changed candidate (some rollback) ()

/-- `Manager.caddyChange`, which is `ComponentChange` for Caddy. -/
def caddyChange (mutate : Mutation) : Op Unit :=
  worldStore.transition (some (rt.componentChange mutate))

/-- `Manager.Initialize` (the word is reserved here). -/
def completeSetup (session : LocalSession) : Op Unit := rt.caddyChange (initializeMutation session)

/-- `Manager.CreateMapping`. -/
def createMapping (mapping : Mapping) : Op Unit := rt.caddyChange (createMappingMutation mapping)

/-- `Manager.UpdateMapping`. -/
def updateMapping (oldPrefix : String) (mapping : Mapping) : Op Unit :=
  rt.caddyChange (updateMappingMutation oldPrefix mapping)

/-- `Manager.EnableMapping`. -/
def enableMapping (label : String) (enabled : Bool) : Op Unit :=
  rt.caddyChange (enableMappingMutation label enabled)

/-- `Manager.DeleteMapping`. -/
def deleteMapping (label : String) : Op Unit := rt.caddyChange (deleteMappingMutation label)

/-- `Manager.TestMapping`. -/
def testMapping (mapping : Mapping) : Op Unit :=
  match validateMapping mapping with
  | some err => .fail err
  | none => do
    match ← (serviceCall id).attempt with
    | .error _ => .fail (.new "upstream connection failed")
    | .ok _ => serviceCall id

/-- `ReconcileCaddy`. -/
def reconcileCaddy : Op Unit :=
  worldStore.reconcile fun current => rt.loadCaddy (rt.renderer.render current)

/-! ## Publication and devices -/

/-- The function of the transition of `SetPublication`. -/
def publicationChange (enabled : Bool) (current : State) : Op (Change World Event Unit) :=
  let candidate := { current with publication := enabled }
  match candidate.validate with
  | some err => .fail err
  | none => do
    rt.tor.writeConfig enabled
    match ← Tor.Paths.validate.attempt with
    | .error err =>
      undoing (ignore (rt.tor.writeConfig current.publication))
      .fail err
    | .ok _ =>
      Store.orUndo (undoing do
        ignore (rt.tor.writeConfig current.publication)
        reload) reload
      return changed candidate (some (undoing do
        rt.tor.writeConfig current.publication
        reload)) ()

/-- `Manager.SetPublication`. -/
def setPublication (enabled : Bool) : Op Unit :=
  worldStore.transition (some (rt.publicationChange enabled))

end Runtime

/-- The pending device that `Manager.CreateDevice` makes. -/
def newPending (id : List UInt8) (name : String) (key : String × String) (now : Time) :
    PendingDevice :=
  { id := hexEncode id, name, publicKey := key.1, createdAt := now, acknowledgedAt := 0,
    privateKey := key.2, expiresAt := now + 15 * minute }

/-- The function of the transition of `CreateDevice`. -/
def createDeviceChange (name : String) (current : State) :
    Op (Change World Event (PendingDevice × String)) :=
  if !current.initialized || current.pending.isSome || decide (current.devices.length ≥ maxDevices)
  then .fail (.new "device cannot be created")
  else do
    let idRaw ← randomBytes 16
    let key ← Tor.generateClientKey
    let now ← now
    let pending := newPending idRaw name key now
    let candidate := { current with pending := some pending }
    match candidate.validate with
    | some err => .fail err
    | none =>
      match Tor.credential current.serviceID key.2 with
      | .error err => .fail err
      | .ok credential =>
        let withdraw := undoing do
          ignore (Tor.removeAuthorization .active pending.id)
          reload
        Store.orUndo withdraw do
          Tor.writeAuthorization .active pending.id pending.publicKey
          reload
        return changed candidate (some withdraw) (pending, credential)

/-- `Manager.CreateDevice`. -/
def createDevice (name : String) : Op (PendingDevice × String) :=
  worldStore.transition (some (createDeviceChange name))

/-- The function of the transition of `AcknowledgeDevice`. -/
def acknowledgeChange (id : String) (current : State) : Op (Change World Event Unit) :=
  match current.pending with
  | none => .fail (.new "pending device not found")
  | some pending =>
    if pending.id ≠ id then .fail (.new "pending device not found")
    else do
      let checked ← now
      if !decide (checked < pending.expiresAt) then .fail (.new "pending device not found")
      else
        let acknowledged ← now
        let device := { pending.toDevice with acknowledgedAt := acknowledged }
        return changed { current with devices := current.devices ++ [device], pending := none }
          none ()

/-- `Manager.AcknowledgeDevice`. -/
def acknowledgeDevice (id : String) : Op Unit := worldStore.transition (some (acknowledgeChange id))

/-- The end of `RevokeDevice` and `ExpirePending`: the authorisation of a device is removed, and
put back when a later step fails. -/
def revoking (id publicKey : String) (candidate : State) : Op (Change World Event Unit) := do
  Tor.removeAuthorization .active id
  Store.orUndo (undoing do
    ignore (Tor.writeAuthorization .active id publicKey)
    reload) reload
  return changed candidate (some (undoing do
    Tor.writeAuthorization .active id publicKey
    reload)) ()

/-- The function of the transition of `RevokeDevice`. When several devices have the identifier,
the last one counts. -/
def revokeChange (id : String) (current : State) : Op (Change World Event Unit) :=
  let candidate :=
    { clone current with devices := (clone current).devices.filter fun d => d.id != id }
  match ((clone current).devices.filter fun d => d.id == id).getLast? with
  | none => .fail (.new "device cannot be revoked")
  | some removed =>
    if candidate.publication && candidate.devices.isEmpty then
      .fail (.new "device cannot be revoked")
    else
      match candidate.validate with
      | some err => .fail err
      | none => revoking id removed.publicKey candidate

/-- `Manager.RevokeDevice`. -/
def revokeDevice (id : String) : Op Unit := worldStore.transition (some (revokeChange id))

/-- The function of the transition of `ExpirePending`. -/
def expireChange (current : State) : Op (Change World Event Unit) :=
  match current.pending with
  | none => return changed current none ()
  | some pending => do
    let checked ← now
    if checked < pending.expiresAt then return changed current none ()
    else revoking pending.id pending.publicKey { clone current with pending := none }

/-- `Manager.ExpirePending`. -/
def expirePending : Op Unit := do
  let view ← viewState
  match view.pending with
  | none => return ()
  | some pending =>
    let checked ← now
    if checked < pending.expiresAt then return () else worldStore.transition (some expireChange)

/-- The state that `ReconcileTor` goes on with: an expired pending device is dropped. -/
def unexpired (current : State) : Op State :=
  match (clone current).pending with
  | none => return clone current
  | some pending => do
    let checked ← now
    if checked < pending.expiresAt then return clone current
    else return { clone current with pending := none }

/-- Write the authorisations of a state and let Tor read them. -/
def applyTor (value : State) : Op Unit := do
  Tor.reconcile .active value.devices value.pending
  reload

/-- The function of the transition of `ReconcileTor`. -/
def reconcileTorChange (current : State) : Op (Change World Event Unit) := do
  let candidate ← unexpired current
  match ← (applyTor candidate).attempt with
  | .error err =>
    undoing (ignore (Tor.reconcile .active current.devices current.pending))
    .fail err
  | .ok _ => return changed candidate (some (undoing (applyTor current))) ()

/-- `Manager.ReconcileTor`. -/
def reconcileTor : Op Unit := worldStore.transition (some reconcileTorChange)

/-- `StageOwnerReset`. -/
def stageOwnerReset : Op Unit :=
  worldStore.transition <| some fun current =>
    if !current.initialized then .fail (.new "owner is not initialized")
    else
      return changed
        { current with
          initialized := false, publication := false, sessions := [], tokens := [],
          pending := none, bootstrap := none } none ()

/-! ## A small system -/

/-- An onion address. -/
def sampleAddress (c : Char) : String := String.ofList (List.replicate 56 c)

/-- A device that has been acknowledged. -/
def sampleDevice : Device where
  id := String.ofList (List.replicate 32 '1')
  name := "phone"
  publicKey := String.ofList (List.replicate 52 'b')
  createdAt := 1
  acknowledgedAt := 2

/-- A published state with one device. -/
def sampleOwner : State :=
  { newState with
    initialized := true
    serviceID := sampleAddress 'a'
    publication := true
    devices := [sampleDevice] }

/-- A runtime with short paths. -/
def sampleRuntime : Runtime where
  tor := ⟨"/t", "/c", "/d", "/v/h", "/s", "/k", "/p", "/q"⟩
  authelia := ⟨"/a", "/c", "/u", "/d", "/e", "/s", "/q", "/n"⟩
  renderer := ⟨"/a", "/q", "/p", "/s", "/l", "/r", "127.0.0.1", [], "/o"⟩

/-- The hidden service directory of the sample state. -/
def sampleService : HsDir where
  hostname := some (Tor.hostnameText (sampleAddress 'a'))
  keys := some (sampleAddress 'a')
  auth := some ((∅ : AuthDir).insert (Tor.authFile sampleDevice.id)
    (.file (Tor.authData sampleDevice.publicKey)))

/-- A system that serves the sample state. -/
def sampleWorld : World where
  durable := sampleOwner
  value := sampleOwner
  dirs p := if p = .active then some sampleService else none
  stages := ∅
  torrc := some (sampleRuntime.tor.lines true)
  tor := { torrc := some (sampleRuntime.tor.lines true), service := some sampleService }
  authConfig := (sampleRuntime.authelia.render (sampleAddress 'a')).toOption
  authelia := (sampleRuntime.authelia.render (sampleAddress 'a')).toOption
  clientID := sampleAddress 'a'
  caddy := ((sampleRuntime.renderer.render sampleOwner).toOption).getD ""
  caddyFresh := false
  commands := []
  rates := ∅
  clock := 1000
  used := [sampleAddress 'a']

end Torkitten
