import Torkitten.Bootstrap.Runtime
import Torkitten.Control.Rotation
import Torkitten.Control.Stored

/-!
# The credentials that a rotation hands out

`RotateIdentity` builds three lists side by side: the devices with their new public keys, the private
halves of these keys, and the credentials that are returned. The authorisations of the staged
identity are written from the first list before the host name is known. Here it is shown that, when
the rotation succeeds, they all agree.

## Main results

* `rotateIdentity_handsOut`: the state stored, the credentials returned and the authorisations of
  the activated identity belong together, device by device.
-/

namespace Torkitten

open Proc Tor

/-! ## The keys -/

/-- The key pair that the key generator yields at an event, public half first. -/
def Event.keys (e : Event) : String × String :=
  (base32Encode (takeBytes 32 e.keyPair.1), base32Encode (takeBytes 32 e.keyPair.2))

theorem generateClientKey_eq_ok {env : ℕ → Event} {n n' : ℕ} {w w' : World} {key : String × String}
    (h : generateClientKey.run env n w = (.ok key, w', n')) :
    key = (env n).keys ∧ w' = w ∧ n' = n + 1 := by
  obtain ⟨pair, w₁, n₁, hpair, hkey⟩ := bind_eq_ok h
  simp only [generateKey, ask] at hpair
  split at hpair
  · cases hpair
  · cases hpair
    cases hkey
    exact ⟨rfl, rfl, rfl⟩

/-- The keys are made in the order of the devices. -/
theorem generateKeys_eq_ok {env : ℕ → Event} {devices : List Device} {n n' : ℕ} {w w' : World}
    {keys : List (Device × String)} (h : (generateKeys devices).run env n w = (.ok keys, w', n')) :
    w' = w ∧ n' = n + devices.length ∧ keys = devices.mapIdx fun i d =>
      ({ d with publicKey := (env (n + i)).keys.1 }, (env (n + i)).keys.2) := by
  induction devices generalizing n n' w' keys with
  | nil =>
    cases h
    exact ⟨rfl, rfl, rfl⟩
  | cons d rest ih =>
    obtain ⟨key, w₁, n₁, hkey, h⟩ := bind_eq_ok h
    obtain ⟨rfl, rfl, rfl⟩ := generateClientKey_eq_ok hkey
    obtain ⟨others, w₂, n₂, hothers, h⟩ := bind_eq_ok h
    obtain ⟨rfl, rfl, rfl⟩ := ih hothers
    cases h
    refine ⟨rfl, by rw [List.length_cons, Nat.add_assoc, Nat.add_comm 1], ?_⟩
    rw [List.mapIdx_cons]
    simp only [Nat.add_zero, Nat.add_assoc, Nat.add_comm 1]
    rfl

/-- The credentials are made in the order of the keys. -/
theorem rotatedCredentials_eq_ok {serviceID : String} {keys : List (Device × String)}
    {credentials : List RotatedCredential} (h : rotatedCredentials serviceID keys = .ok credentials) :
    credentials = keys.map fun key =>
      { deviceID := key.1.id, name := key.1.name,
        credential := serviceID ++ ":descriptor:x25519:" ++ key.2 } := by
  induction keys generalizing credentials with
  | nil =>
    cases h
    rfl
  | cons key rest ih =>
    obtain ⟨d, secret⟩ := key
    unfold rotatedCredentials credential at h
    split at h
    · cases h
    · cases hrest : rotatedCredentials serviceID rest with
      | error err =>
        rw [hrest] at h
        cases h
      | ok others =>
        rw [hrest] at h
        cases h
        rw [ih hrest]
        rfl

theorem rotatedCredentials_mapIdx {serviceID : String} {devices : List Device}
    {keys : ℕ → String × String} {credentials : List RotatedCredential}
    (h : rotatedCredentials serviceID (devices.mapIdx fun i d =>
      ({ d with publicKey := (keys i).1 }, (keys i).2)) = .ok credentials) :
    credentials = devices.mapIdx fun i d =>
      { deviceID := d.id, name := d.name,
        credential := serviceID ++ ":descriptor:x25519:" ++ (keys i).2 } := by
  rw [rotatedCredentials_eq_ok h, List.mapIdx_eq_zipIdx_map, List.mapIdx_eq_zipIdx_map, List.map_map]
  rfl

/-! ## The directories -/

section Directories

variable {E : Event → Prop} {w : World}

/-- The directory of the stage becomes the active one. -/
theorem wp_activateIdentity_moved (p : Paths) (stage : IdentityStage) :
    wp E (activateIdentity p stage)
      (either (fun backup w' => backup = .previous ∧
        w'.dirs .active = w.dirs (.stage stage.root)) fun _ _ => True) (fun _ => True) w := by
  unfold activateIdentity
  split
  · exact wp_fail trivial
  refine wp_bind (wp_removeAll (fun _ _ => trivial) (fun _ _ => trivial) ?_)
  refine wp_bind (wp_rename (fun _ => trivial) (fun _ => trivial) (fun _ => trivial) ?_)
  intro w₂ hw₂
  obtain ⟨d, hd, -, rfl⟩ := renamed_eq_some hw₂
  have hback (err : GoError) (w₂ : World) :
      wp E (undoing (ignore (rename .previous .active)) >>= fun _ => .fail err)
        (either (fun backup w' => backup = HsPath.previous ∧
          w'.dirs .active = w.dirs (.stage stage.root)) fun _ _ => True) (fun _ => True) w₂ := by
    refine wp_bind (wp_of_forall (fun r _ => ?_) fun _ => trivial)
    cases r with
    | ok _ => exact wp_fail trivial
    | error _ => trivial
  refine wp_bind (wp_attempt (wp_rename (fun _ => trivial) (fun _ => hback _ _)
    (fun _ => hback _ _) ?_))
  intro w₃ hw₃
  obtain ⟨ds, hds, -, rfl⟩ := renamed_eq_some hw₃
  have hstage : w.dirs (.stage stage.root) = some ds := by simpa [dirs_removed] using hds
  rw [hstage]
  refine wp_bind (wp_ignore (wp_removeAll (fun _ _ => trivial) (fun _ keeps => ?_) ?_))
  · exact wp_pure ⟨rfl, by simp [dirs_partlyRemoved]⟩
  · exact wp_pure ⟨rfl, by simp [dirs_removed]⟩

/-- No service holds a directory of Tor. -/
theorem ignoresServices_dirs : IgnoresServices World.dirs where
  restarted c _ := by cases c <;> rfl
  loaded _ _ := rfl
  denied _ _ := rfl
  fresh _ _ := rfl
  authConfig _ _ := rfl
  clientID _ _ := rfl

/-- The steps that follow the staging end with the stage as the active directory. -/
theorem wp_switchIdentity_moved (rt : Runtime) (current candidate : State) (stage : IdentityStage) :
    wp E (rt.switchIdentity current candidate stage)
      (either (fun backup w' => backup = .previous ∧ w'.dirs .active = w.dirs (.stage stage.root))
        fun _ _ => True) (fun _ => True) w := by
  have hi := ignoresServices_dirs
  -- the services are loaded and restarted around the move, which moves no directory
  have hservice {γ : Type} {rollback : Op Unit} {step : Op γ} {k : γ → Op HsPath} {v : World}
      {K : Prop} (hstep : Keeps E K World.dirs step)
      (hk : ∀ b v', v'.dirs = v.dirs → wp E (k b)
        (either (fun backup w' => backup = .previous ∧
          w'.dirs .active = w.dirs (.stage stage.root)) fun _ _ => True) (fun _ => True) v') :
      wp E (Store.orUndo rollback step >>= k)
        (either (fun backup w' => backup = .previous ∧
          w'.dirs .active = w.dirs (.stage stage.root)) fun _ _ => True) (fun _ => True) v :=
    Store.wp_orUndo_bind hstep (fun _ _ _ => Store.undone_of_forall (fun _ _ => trivial)
      fun _ => trivial) (fun _ _ _ => trivial) hk
  dsimp only [Runtime.switchIdentity]
  refine hservice (hi.keeps_load rt _) fun _ w₁ h₁ => ?_
  refine hservice (keeps_bind (hi.keeps_writeAuthConfig rt _) fun _ => keeps_authelia_validate)
    fun _ w₂ h₂ => ?_
  refine Store.wp_orUndo_ok (fun _ _ => trivial) (fun _ => trivial)
    (wp_mono (wp_activateIdentity_moved rt.tor stage) ?_ fun _ h => h)
  intro r w₃ hr
  cases r with
  | error err => exact trivial
  | ok backup =>
    obtain ⟨rfl, hactive⟩ := hr
    refine hservice (hi.keeps_restart _) fun _ w₄ h₄ => ?_
    refine wp_bind (wp_modify ?_)
    refine hservice (hi.keeps_restart _) fun _ w₅ h₅ => ?_
    refine hservice (hi.keeps_load rt _) fun _ w₆ h₆ => ?_
    refine wp_pure ⟨rfl, ?_⟩
    have hdirs : w₆.dirs = w₃.dirs := h₆.trans (h₅.trans h₄)
    rw [hdirs, hactive, h₂, h₁]

end Directories

/-! ## The rotation -/

/-- What a successful rotation leaves behind, for the keys made and the identity staged: the state
differs from the one before it in the address, the sessions and the public keys, and the credentials
and the active directory go with it. -/
structure HandedOut (keys : ℕ → String × String) (stage : IdentityStage) (s : State)
    (credentials : List RotatedCredential) (w : World) : Prop where
  value : w.value = { s with
    sessions := [], serviceID := stage.serviceID
    devices := s.devices.mapIdx fun i d => { d with publicKey := (keys i).1 } }
  durable : w.durable = w.value
  credentials : credentials = s.devices.mapIdx fun i d =>
    { deviceID := d.id, name := d.name
      credential := stage.serviceID ++ ":descriptor:x25519:" ++ (keys i).2 }
  hostname : readServiceID (w.dirs .active) = .ok stage.serviceID
  authorizations : ∃ a, w.authAt .active = some a ∧ Exact (records w.value.devices none) a

section Inversion

variable {env : ℕ → Event} {n n' : ℕ} {w w' : World}

/-- A stage holds the host name that it reports and, for devices with proper keys, exactly their
authorisations. -/
theorem stageIdentity_eq_ok {p : Paths} {devices : List Device} {stage : IdentityStage}
    (h : (stageIdentity p devices).run env n w = (.ok stage, w', n')) :
    Holds w' (.stage stage.root) stage.serviceID ∧
      (Keyed (records devices none) → ∃ a, w'.authAt (.stage stage.root) = some a ∧
        Exact (records devices none) a) := by
  have hwp : wp (fun _ => True) (stageIdentity p devices)
      (either (fun stage w' => Holds w' (.stage stage.root) stage.serviceID ∧
        (Keyed (records devices none) → ∃ a, w'.authAt (.stage stage.root) = some a ∧
          Exact (records devices none) a)) fun _ _ => True) (fun _ => True) w :=
    wp_stageIdentity p devices (fun _ => trivial)
      (fun _ _ _ _ _ hholds hexact => ⟨hholds, hexact⟩) (fun _ _ _ _ _ => trivial)
      fun _ _ _ => trivial
  exact hwp.of_ok h

/-- `Apply` returns after the keys are made, the identity is staged and the stage is moved. -/
theorem rotate_eq_ok {rt : Runtime} {current : State} {rotation : Rotation}
    (henc : current.Encodable) (h : (rt.rotate current).run env n w = (.ok rotation, w', n')) :
    ∃ keys stage w₁ n₁,
      keys = current.devices.mapIdx (fun i d =>
        ({ d with publicKey := (env (n + i)).keys.1 }, (env (n + i)).keys.2)) ∧
      (stageIdentity rt.tor (keys.map Prod.fst)).run env (n + current.devices.length) w =
        (.ok stage, w₁, n₁) ∧
      w'.dirs .active = w₁.dirs (.stage stage.root) ∧
      rotation.candidate =
        { current with devices := keys.map Prod.fst, serviceID := stage.serviceID } ∧
      rotatedCredentials stage.serviceID keys = .ok rotation.credentials ∧
      rotation.finish = ignore (finishIdentity .previous) := by
  unfold Runtime.rotate at h
  rw [clone_of_encodable henc] at h
  obtain ⟨keys, w₀, n₀, hkeys, h⟩ := bind_eq_ok h
  obtain ⟨rfl, rfl, hmade⟩ := generateKeys_eq_ok hkeys
  obtain ⟨stage, w₁, n₁, hstage, h⟩ := bind_eq_ok h
  dsimp only at h
  split at h
  next err _ =>
    obtain ⟨_, _, _, _, h⟩ := bind_eq_ok h
    cases h
  next credentials hcredentials =>
    obtain ⟨backup, w₂, n₂, hbackup, h⟩ := bind_eq_ok h
    obtain ⟨rfl, hactive⟩ := (wp_switchIdentity_moved rt _ _ stage).of_ok hbackup
    cases h
    exact ⟨keys, stage, w₁, n₁, hmade, hstage, hactive, rfl, hcredentials, rfl⟩

/-- A transition that succeeds has run its function, and its change is what the store holds. -/
theorem transition_eq_ok {β : Type} {fn : State → Op (Change World Event β)} {b : β}
    (h : (worldStore.transition (some fn)).run env n w = (.ok b, w', n')) :
    ∃ change w₁ n₁, (fn (clone w.value)).run env n w = (.ok change, w₁, n₁) ∧
      b = change.result ∧ change.next.Valid ∧
      w' = { w₁ with durable := change.next, value := change.next } := by
  obtain ⟨_, _, _, hget, h⟩ := bind_eq_ok h
  cases hget
  obtain ⟨change, w₁, n₁, hchange, hcommit⟩ := bind_eq_ok h
  have hwp : wp (fun _ => True) (worldStore.commit change)
      (either (fun b w' => b = change.result ∧ change.next.Valid ∧
        w' = { w₁ with durable := change.next, value := change.next }) fun _ _ => True)
      (fun _ => True) w₁ :=
    wp_worldCommit (fun _ => Store.undone_of_forall (fun _ _ => trivial) fun _ => trivial)
      (fun _ => trivial) fun _ hvalid _ => ⟨rfl, hvalid, rfl⟩
  exact ⟨change, w₁, n₁, hchange, hwp.of_ok hcommit⟩

/-- The state in memory and the active directory. -/
def World.current (w : World) : (State × State) × Option HsDir := ((w.durable, w.value), w.dirs .active)

theorem ignores_current : Ignores World.current (fun p => p ≠ .active) where
  dir _ _ _ hp := Prod.ext rfl (by simp [World.current, hp.symm])
  erased _ _ _ := rfl
  inserted _ _ _ _ := rfl

/-- Removing the backup leaves the identity that was activated. -/
theorem finishIdentity_eq_ok {b : Unit}
    (h : (ignore (finishIdentity .previous)).run env n w = (.ok b, w', n')) :
    w'.current = w.current := by
  have hkeeps : Keeps (fun _ => True) (MayCrash fun _ => True) World.current
      (ignore (finishIdentity .previous)) :=
    keeps_ignore (keeps_removeAll ignores_current (by simp))
  have hwp : wp (fun _ => True) (ignore (finishIdentity .previous))
      (either (fun _ w' => w'.current = w.current) fun _ _ => True) (fun _ => True) w :=
    hkeeps.step (fun r w' hw' => by cases r <;> [exact trivial; exact hw']) fun _ _ _ => trivial
  exact hwp.of_ok h

/-- A state that cannot be encoded is copied to the zero state, which is not initialised. -/
theorem encodable_of_initialized_clone {s : State} (h : (clone s).initialized = true) :
    s.Encodable := by
  unfold clone at h
  split at h
  next document hdoc => exact ⟨document, hdoc⟩
  next => cases h

/-- The change of a rotation is the one that `Apply` has made, from a state that may be rotated. -/
theorem rotationChange_eq_ok {rt : Runtime} {s : State} {change : Change World Event Rotation}
    (h : (rt.rotationChange (clone s)).run env n w = (.ok change, w', n')) :
    s.Encodable ∧ s.pending = none ∧ change.next = change.result.candidate ∧
      (rt.rotate { s with sessions := [] }).run env n w = (.ok change.result, w', n') := by
  unfold Runtime.rotationChange at h
  split at h
  next => cases h
  next hready =>
    simp only [Bool.or_eq_true, not_or, Bool.not_eq_true', Bool.not_eq_true, Bool.not_eq_false,
      Option.isSome_eq_false_iff, Option.isNone_iff_eq_none] at hready
    have henc : s.Encodable := encodable_of_initialized_clone hready.1.1
    have hclone : clone s = s := clone_of_encodable henc
    rw [hclone] at h hready
    rw [hclone] at h
    obtain ⟨rotation, w₁, n₁, hrotate, h⟩ := bind_eq_ok h
    split at h
    next =>
      obtain ⟨_, _, _, _, h⟩ := bind_eq_ok h
      cases h
    next =>
      cases h
      exact ⟨henc, hready.1.2, rfl, hrotate⟩

/-- A successful rotation gives each device the public half of the key made for it, returns the
private half under its name, and activates an identity that authorises exactly these keys. -/
theorem rotateIdentity_handsOut {rt : Runtime} {confirmation : String}
    {credentials : List RotatedCredential}
    (h : (rt.rotateIdentity confirmation).run env n w = (.ok credentials, w', n')) :
    ∃ stage w₁ n₁,
      (stageIdentity rt.tor (w.value.devices.mapIdx fun i d =>
        { d with publicKey := (env (n + i)).keys.1 })).run env (n + w.value.devices.length) w =
          (.ok stage, w₁, n₁) ∧
      HandedOut (fun i => (env (n + i)).keys) stage w.value credentials w' := by
  unfold Runtime.rotateIdentity at h
  split at h
  next => cases h
  next =>
  obtain ⟨rotation, w₃, n₃, htransition, h⟩ := bind_eq_ok h
  obtain ⟨_, w₄, n₄, hfinish, h⟩ := bind_eq_ok h
  cases h
  obtain ⟨change, w₂, n₂, hchange, rfl, hvalid, rfl⟩ := transition_eq_ok htransition
  obtain ⟨henc, hpending, hnext, hrotate⟩ := rotationChange_eq_ok hchange
  obtain ⟨keys, stage, w₁, n₁, hkeys, hstage, hactive, hcandidate, hcredentials, hfinish'⟩ :=
    rotate_eq_ok henc.dropSessions hrotate
  -- after it only the backup is removed
  rw [hfinish'] at hfinish
  have hlast := finishIdentity_eq_ok hfinish
  have hdurable : w'.durable = change.next := congrArg (fun x => x.1.1) hlast
  have hvalue : w'.value = change.next := congrArg (fun x => x.1.2) hlast
  have hdir : w'.dirs .active = w₁.dirs (.stage stage.root) := (congrArg Prod.snd hlast).trans hactive
  have hdevices : keys.map Prod.fst = w.value.devices.mapIdx fun i d =>
      { d with publicKey := (env (n + i)).keys.1 } := by
    simp [hkeys, List.mapIdx_eq_zipIdx_map]
  rw [hdevices] at hstage hcandidate
  rw [← hnext] at hcandidate
  obtain ⟨⟨d, hd, hsound⟩, hexact⟩ := stageIdentity_eq_ok hstage
  refine ⟨stage, w₁, n₁, hstage, ?_⟩
  constructor
  case value => rw [hvalue, hcandidate]
  case durable => rw [hdurable, hvalue]
  case credentials =>
    rw [hkeys] at hcredentials
    exact rotatedCredentials_mapIdx hcredentials
  case hostname =>
    rw [hdir, hd]
    exact hsound.hostname
  case authorizations =>
    -- the devices of a valid state have proper keys, so that the stage was filled with their files
    have hkeyed := State.Valid.keyed hvalid
    rw [show change.next.pending = none by rw [hcandidate]; exact hpending] at hkeyed
    rw [hcandidate] at hkeyed
    obtain ⟨a, ha, hexact⟩ := hexact hkeyed
    refine ⟨a, ?_, ?_⟩
    · rw [World.authAt, hdir]
      exact ha
    · rw [hvalue, hcandidate]
      exact hexact

end Inversion

/-- The sample system hands out the credentials of its devices. -/
theorem sampleWorld_handsOut : ∃ credentials w' n' stage,
    (sampleRuntime.rotateIdentity "ROTATE").run (fun _ => calmRotation) 0 sampleWorld =
        (.ok credentials, w', n') ∧
      credentials.length = 1 ∧
      HandedOut (fun _ => calmRotation.keys) stage sampleWorld.value credentials w' := by
  have heval : ((sampleRuntime.rotateIdentity "ROTATE").run (fun _ => calmRotation) 0
      sampleWorld).1.isOk = true := by
    decide +kernel
  rcases hrun : (sampleRuntime.rotateIdentity "ROTATE").run (fun _ => calmRotation) 0 sampleWorld
    with ⟨result, w', n'⟩
  rw [hrun] at heval
  cases result with
  | error err => cases heval
  | crash => cases heval
  | ok credentials =>
    obtain ⟨stage, -, -, -, hhanded⟩ := rotateIdentity_handsOut hrun
    refine ⟨credentials, w', n', stage, rfl, ?_, hhanded⟩
    rw [hhanded.credentials, List.length_mapIdx]
    rfl

end Torkitten
