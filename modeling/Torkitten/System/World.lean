import Mathlib.Data.List.AList
import Torkitten.Store.Transition
import Torkitten.Supervisor.Worker

/-!
# The system around the control plane

One record for everything an operation of the control plane reads or changes: the state file,
the store in memory, the directories of onion identities, the configuration files, and what Tor,
Authelia and Caddy are running with. Operations are procedures over this record; every system
call, every call of another process and every random draw consumes one `Event`, which decides
whether the process dies there, whether the call fails and what it yields.

A write of a file is one step: `Store.AtomicWrite` shows that a write either leaves the target
alone or replaces it. The state file is assumed to be all-or-nothing as well in its error; the
other files may have been replaced although the write reports an error.
-/

namespace Torkitten

/-! ## Directories of onion identities -/

/-- The names of directories that can hold an onion identity: `HiddenServiceDir`, its two
variants, and the hidden service directory of a stage. -/
inductive HsPath where
  | active
  | previous
  | failed
  | stage (n : ℕ)
  deriving DecidableEq, Repr

/-- An entry of a directory. -/
inductive Entry where
  | file (data : String)
  | dir
  /-- A link, a device or a socket. -/
  | special
  deriving DecidableEq, Repr

/-- The content of an `authorized_clients` directory. -/
abbrev AuthDir := AList fun _ : String => Entry

/-- A hidden service directory. -/
structure HsDir where
  /-- The file `hostname`. -/
  hostname : Option String
  /-- The onion address whose secret key the key files hold. -/
  keys : Option String
  /-- The directory `authorized_clients`. -/
  auth : Option AuthDir
  deriving DecidableEq

/-- A new directory. -/
def HsDir.empty : HsDir := { hostname := none, keys := none, auth := none }

/-- What an interrupted removal leaves of a directory: the entries whose names are kept. -/
def HsDir.part (keeps : String → Bool) (d : HsDir) : HsDir where
  hostname := if keeps "hostname" then d.hostname else none
  keys := if keeps "keys" then d.keys else none
  auth := if keeps "authorized_clients" then
      d.auth.map fun a => (a.keys.filter fun name => !keeps name).foldl (fun a name => a.erase name) a
    else none

/-! ## Processes -/

/-- A line of a Tor configuration: keyword and value. -/
abbrev Torrc := List (String × String)

/-- What Tor is running with: the configuration and the hidden service directory it read. -/
structure TorProcess where
  torrc : Option Torrc
  service : Option HsDir
  deriving DecidableEq

/-- The supervised components. -/
inductive Component where
  | tor
  | caddy
  | authelia
  deriving DecidableEq, Repr

/-- The name of a component. -/
def Component.text : Component → String
  | .tor => "tor"
  | .caddy => "caddy"
  | .authelia => "authelia"

/-- A token bucket of the rate limiter. The level is counted in billionths of a call, so that a
nanosecond refills one unit. -/
structure Bucket where
  remaining : ℤ
  updated : Time
  deriving DecidableEq, Repr

/-- The whole system. -/
structure World where
  /-- The state in the state file. -/
  durable : State
  /-- The state in the memory of the store. -/
  value : State
  dirs : HsPath → Option HsDir
  /-- The stage directories that exist, with their configuration files. -/
  stages : AList fun _ : ℕ => Option Torrc
  /-- The configuration file of Tor. -/
  torrc : Option Torrc
  tor : TorProcess
  /-- The configuration file of Authelia. -/
  authConfig : Option String
  /-- The configuration Authelia was started with. -/
  authelia : Option String
  /-- The service id the Authelia client sends. -/
  clientID : String
  /-- The configuration loaded in Caddy. -/
  caddy : String
  /-- Caddy was restarted and no load has succeeded since. -/
  caddyFresh : Bool
  /-- The commands issued to the supervisor, newest first. -/
  commands : List (Component × Supervisor.Command)
  /-- The buckets of the rate limiter of agent tokens. -/
  rates : AList fun _ : String => Bucket
  clock : Time
  /-- The onion addresses that have ever been generated. -/
  used : List String

/-! ## Events -/

/-- How a call ends: whether it fails, and whether a failed call has taken effect. -/
structure Fault where
  fails : Bool
  applied : Bool
  deriving DecidableEq, Repr

/-- A call that succeeds. -/
def Fault.none : Fault := { fails := false, applied := false }

/-- What the surroundings decide in one interaction. -/
structure Event where
  /-- The process dies. -/
  crash : Bool
  /-- A file-system call. -/
  disk : Fault
  /-- A call of another process. -/
  service : Fault
  /-- A file-system call that undoes an earlier one. -/
  undoDisk : Fault
  /-- A call of another process that undoes an earlier one. -/
  undoService : Fault
  /-- The write of the state file fails. -/
  persistFails : Bool
  /-- The random source fails. -/
  entropyFails : Bool
  /-- Caddy has been restarted since the last call to it. -/
  caddyRestarts : Bool
  /-- The names of the entries that an interrupted removal leaves. -/
  keeps : String → Bool
  /-- Random bytes. -/
  bytes : List UInt8
  /-- A generated X25519 key pair, public half first. -/
  keyPair : List UInt8 × List UInt8
  /-- A generated onion address. -/
  hostname : String
  /-- The number of a new stage directory. -/
  stage : ℕ
  /-- The time that has passed since the clock was last read. -/
  elapsed : ℕ

/-- An uneventful interaction. -/
def Event.calm : Event where
  crash := false
  disk := .none
  service := .none
  undoDisk := .none
  undoService := .none
  persistFails := false
  entropyFails := false
  caddyRestarts := false
  keeps := fun _ => true
  bytes := []
  keyPair := ([], [])
  hostname := ""
  stage := 0
  elapsed := 0

/-- The event as a compensating action sees it. -/
def Event.undo (e : Event) : Event := { e with disk := e.undoDisk, service := e.undoService }

/-- Operations of the control plane. -/
abbrev Op := Proc World Event GoError

/-- A compensating action: its calls are those that undo earlier ones. -/
def undoing {α : Type} (c : Op α) : Op α := Proc.comap Event.undo c

/-! ## Interactions -/

/-- A call that fails without an effect, or has one; the effect itself may be impossible. -/
def diskCall (effect : World → Option World) : Op Unit := .ask fun e w =>
  if e.crash then (.crash, w)
  else if e.disk.fails then (.error .external, w)
  else
    match effect w with
    | some w' => (.ok (), w')
    | none => (.error .external, w)

/-- A write of a file, which may have happened although it reports an error. -/
def writeCall (effect : World → Option World) : Op Unit := .ask fun e w =>
  if e.crash then (.crash, w)
  else
    match effect w with
    | none => (.error .external, w)
    | some w' =>
      if e.disk.fails then (.error .external, if e.disk.applied then w' else w) else (.ok (), w')

/-- A call of another process, which may have taken effect although it reports an error. -/
def serviceCall (effect : World → World) : Op Unit := .ask fun e w =>
  if e.crash then (.crash, w)
  else if e.service.fails then (.error .external, if e.service.applied then effect w else w)
  else (.ok (), effect w)

namespace World

variable (w : World)

/-- Replace a directory. -/
def setDir (p : HsPath) (d : Option HsDir) : World := { w with dirs := Function.update w.dirs p d }

@[simp]
theorem dirs_setDir (p : HsPath) (d : Option HsDir) :
    (w.setDir p d).dirs = Function.update w.dirs p d := rfl

/-- The effect of `os.Rename` between directories: the source must exist and the target must
not. -/
def renamed (source target : HsPath) : Option World :=
  match w.dirs source, w.dirs target with
  | some d, none => some ((w.setDir target (some d)).setDir source none)
  | _, _ => none

/-- The effect of `os.RemoveAll` on a directory; a stage is removed with its root. -/
def removed (p : HsPath) : World :=
  match p with
  | .stage n => { w.setDir p none with stages := w.stages.erase n }
  | _ => w.setDir p none

/-- What an interrupted `os.RemoveAll` leaves. -/
def partlyRemoved (p : HsPath) (keeps : String → Bool) : World :=
  w.setDir p ((w.dirs p).map (HsDir.part keeps))

end World

/-- `os.Rename`. -/
def rename (source target : HsPath) : Op Unit := diskCall (·.renamed source target)

/-- `os.RemoveAll`, which may stop halfway. -/
def removeAll (p : HsPath) : Op Unit := .ask fun e w =>
  if e.crash then (.crash, w.partlyRemoved p e.keeps)
  else if e.disk.fails then (.error .external, w.partlyRemoved p e.keeps)
  else (.ok (), w.removed p)

/-- `time.Now`. -/
def now : Op Time := .ask fun e w =>
  (.ok (w.clock + e.elapsed), { w with clock := w.clock + e.elapsed })

/-- The first `n` bytes of a source, which is zero where it says nothing. -/
def takeBytes (n : ℕ) (source : List UInt8) : List UInt8 :=
  (List.range n).map fun i => source.getD i 0

/-- `rand.Read` of a number of bytes. -/
def randomBytes (n : ℕ) : Op (List UInt8) := .ask fun e w =>
  if e.entropyFails then (.error .external, w) else (.ok (takeBytes n e.bytes), w)

/-- `ecdh.X25519().GenerateKey`: the two halves of a key, public half first. -/
def generateKey : Op (List UInt8 × List UInt8) := .ask fun e w =>
  if e.entropyFails then (.error .external, w)
  else (.ok (takeBytes 32 e.keyPair.1, takeBytes 32 e.keyPair.2), w)

/-- The write of the state file, which is all-or-nothing. -/
def writeState (value : State) : Op Unit := .ask fun e w =>
  if e.crash then (.crash, w)
  else if e.persistFails then (.error .external, w)
  else (.ok (), { w with durable := value })

/-- The store of the control plane. -/
def worldStore : Store World Event where
  value := World.value
  setValue value w := { w with value }
  write value _ := writeState value

/-! ## Rules -/

open Proc

section Rules

variable {α τ : Type} {E : Event → Prop} {Q : Except GoError Unit → World → Prop} {C : World → Prop}
  {w : World}

/-- Some event permitted by `E` kills the process. -/
def MayCrash (E : Event → Prop) : Prop := ∃ e, E e ∧ e.crash = true

/-- Some event permitted by `E` lets a file-system call fail. -/
def DiskMayFail (E : Event → Prop) : Prop := ∃ e, E e ∧ e.disk.fails = true

/-- Some event permitted by `E` lets a call of another process fail. -/
def ServiceMayFail (E : Event → Prop) : Prop := ∃ e, E e ∧ e.service.fails = true

/-- The events of compensating actions, when the events satisfy `E`. -/
def undone (E : Event → Prop) (e : Event) : Prop := ∃ e', E e' ∧ e = e'.undo

/-- The process lives on. -/
def Lives (e : Event) : Prop := e.crash = false

theorem not_mayCrash_lives : ¬ MayCrash Lives := by
  rintro ⟨e, he, hc⟩
  rw [he] at hc
  cases hc

theorem mayCrash_undone : MayCrash (undone E) ↔ MayCrash E := by
  constructor
  · rintro ⟨_, ⟨e, he, rfl⟩, hc⟩
    exact ⟨e, he, hc⟩
  · rintro ⟨e, he, hc⟩
    exact ⟨e.undo, ⟨e, he, rfl⟩, hc⟩

theorem wp_undoing {Q : Except GoError α → World → Prop} {c : Op α} (h : wp (undone E) c Q C w) :
    wp E (undoing c) Q C w :=
  wp_comap (fun e he => ⟨e, he, rfl⟩) h

theorem wp_diskCall {effect : World → Option World} (hcrash : MayCrash E → C w)
    (hfail : DiskMayFail E → Q (.error .external) w)
    (hnone : effect w = none → Q (.error .external) w)
    (hok : ∀ w', effect w = some w' → Q (.ok ()) w') : wp E (diskCall effect) Q C w := by
  apply wp_ask
  intro e he
  split
  next hc => exact hcrash ⟨e, he, hc⟩
  next =>
    split
    next hf => exact hfail ⟨e, he, hf⟩
    next =>
      split
      next w' hw' => exact hok w' hw'
      next hnone' => exact hnone hnone'

/-- The rule for a call whose effect is always possible. -/
theorem wp_diskCall_some {effect : World → World} (hcrash : MayCrash E → C w)
    (hfail : DiskMayFail E → Q (.error .external) w) (hok : Q (.ok ()) (effect w)) :
    wp E (diskCall fun w => some (effect w)) Q C w := by
  apply wp_diskCall hcrash hfail
  · intro hnone
    cases hnone
  · rintro w' ⟨⟩
    exact hok

theorem wp_writeCall {effect : World → Option World} (hcrash : MayCrash E → C w)
    (hfail : DiskMayFail E → Q (.error .external) w)
    (hnone : effect w = none → Q (.error .external) w)
    (happlied : ∀ w', (∃ e, E e ∧ e.disk.fails = true ∧ e.disk.applied = true) →
      effect w = some w' → Q (.error .external) w')
    (hok : ∀ w', effect w = some w' → Q (.ok ()) w') : wp E (writeCall effect) Q C w := by
  apply wp_ask
  intro e he
  split
  next hc => exact hcrash ⟨e, he, hc⟩
  next =>
    split
    next hnone' => exact hnone hnone'
    next w' hw' =>
      split
      next hf =>
        split
        next ha => exact happlied w' ⟨e, he, hf, ha⟩ hw'
        next => exact hfail ⟨e, he, hf⟩
      next => exact hok w' hw'

theorem wp_serviceCall {effect : World → World} (hcrash : MayCrash E → C w)
    (hfail : ServiceMayFail E → Q (.error .external) w)
    (happlied : ServiceMayFail E → Q (.error .external) (effect w))
    (hok : Q (.ok ()) (effect w)) : wp E (serviceCall effect) Q C w := by
  apply wp_ask
  intro e he
  split
  next hc => exact hcrash ⟨e, he, hc⟩
  next =>
    split
    next hf =>
      split
      · exact happlied ⟨e, he, hf⟩
      · exact hfail ⟨e, he, hf⟩
    next => exact hok

theorem wp_rename {source target : HsPath} (hcrash : MayCrash E → C w)
    (hfail : DiskMayFail E → Q (.error .external) w)
    (hnone : w.renamed source target = none → Q (.error .external) w)
    (hok : ∀ w', w.renamed source target = some w' → Q (.ok ()) w') :
    wp E (rename source target) Q C w :=
  wp_diskCall hcrash hfail hnone hok

theorem wp_removeAll {p : HsPath} (hcrash : MayCrash E → ∀ keeps, C (w.partlyRemoved p keeps))
    (hfail : DiskMayFail E → ∀ keeps, Q (.error .external) (w.partlyRemoved p keeps))
    (hok : Q (.ok ()) (w.removed p)) : wp E (removeAll p) Q C w := by
  apply wp_ask
  intro e he
  split
  next hc => exact hcrash ⟨e, he, hc⟩ e.keeps
  next =>
    split
    next hf => exact hfail ⟨e, he, hf⟩ e.keeps
    next => exact hok

theorem wp_now {Q : Except GoError Time → World → Prop}
    (h : ∀ d : ℕ, Q (.ok (w.clock + d)) { w with clock := w.clock + d }) : wp E now Q C w := by
  apply wp_ask
  exact fun e _ => h e.elapsed

theorem wp_randomBytes {n : ℕ} {Q : Except GoError (List UInt8) → World → Prop}
    (hfail : Q (.error .external) w) (hok : ∀ bytes, bytes.length = n → Q (.ok bytes) w) :
    wp E (randomBytes n) Q C w := by
  apply wp_ask
  intro e _
  split
  · exact hfail
  · exact hok _ (by simp [takeBytes])

theorem wp_generateKey {Q : Except GoError (List UInt8 × List UInt8) → World → Prop}
    (hfail : Q (.error .external) w) (hok : ∀ keys, Q (.ok keys) w) : wp E generateKey Q C w := by
  apply wp_ask
  intro e _
  split
  · exact hfail
  · exact hok _

theorem wp_writeState {value : State} (hcrash : MayCrash E → C w)
    (hfail : (∃ e, E e ∧ e.persistFails = true) → Q (.error .external) w)
    (hok : Q (.ok ()) { w with durable := value }) : wp E (writeState value) Q C w := by
  apply wp_ask
  intro e he
  split
  next hc => exact hcrash ⟨e, he, hc⟩
  next =>
    split
    next hf => exact hfail ⟨e, he, hf⟩
    next => exact hok

/-- A transition of the control plane runs its function on the value in memory. -/
theorem wp_worldTransition {Q : Except GoError α → World → Prop}
    {fn : State → Op (Change World Event α)} (henc : w.value.Encodable)
    (h : wp E (fn w.value) (either (fun change => wp E (worldStore.commit change) Q C)
      fun err => Q (.error err)) C w) :
    wp E (worldStore.transition (some fn)) Q C w := by
  apply Store.wp_transition
  rw [show worldStore.value w = w.value from rfl, clone_of_encodable henc]
  exact h

/-- A change is refused and undone, or it becomes the state in the file and in memory. -/
theorem wp_worldCommit {Q : Except GoError α → World → Prop} {change : Change World Event α}
    (hrefused : ∀ err, Store.Undone E Q C change.rollback err w) (hcrash : MayCrash E → C w)
    (hok : change.err = none → change.next.Valid → change.next.Encodable →
      Q (.ok change.result) { w with durable := change.next, value := change.next }) :
    wp E (worldStore.commit change) Q C w := by
  apply Store.wp_commit _ hrefused
  intro text herr hvalid htext
  apply wp_writeState hcrash
  · exact fun _ => hrefused
  · exact hok herr hvalid (encodable_of_marshalIndent htext)

/-- The state file can hold a state. -/
def State.Fits (s : State) : Prop :=
  ∃ text, marshalIndent s = .ok text ∧ (text ++ "\n").utf8ByteSize ≤ maxBytes

instance (s : State) : Decidable s.Fits :=
  match h : marshalIndent s with
  | .ok text => decidable_of_iff ((text ++ "\n").utf8ByteSize ≤ maxBytes)
      ⟨fun hsize => ⟨text, h, hsize⟩, fun ⟨_, htext, hsize⟩ => by
        cases h.symm.trans htext
        exact hsize⟩
  | .error _ => isFalse fun ⟨_, htext, _⟩ => nomatch h.symm.trans htext

/-- No event permitted by `E` kills the process or lets the write of the state file fail. -/
def Persists (E : Event → Prop) : Prop := ∀ e, E e → e.crash = false ∧ e.persistFails = false

/-- When the state file can be written, the change to a valid state that fits is not refused. -/
theorem wp_worldCommit_fits {Q : Except GoError α → World → Prop}
    {change : Change World Event α} (hE : Persists E) (herr : change.err = none)
    (hvalid : change.next.Valid) (hfits : change.next.Fits)
    (hok : Q (.ok change.result) { w with durable := change.next, value := change.next }) :
    wp E (worldStore.commit change) Q C w := by
  obtain ⟨text, htext, hsize⟩ := hfits
  have hnone : change.next.validate = none := hvalid
  unfold Store.commit Store.persist
  simp only [herr, hnone, htext, gt_iff_lt, Nat.not_lt.mpr hsize, ↓reduceIte]
  refine wp_bind (wp_attempt (wp_bind (wp_attempt (wp_writeState ?_ ?_ ?_))))
  · rintro ⟨e, he, hc⟩
    rw [(hE e he).1] at hc
    cases hc
  · rintro ⟨e, he, hf⟩
    rw [(hE e he).2] at hf
    cases hf
  · refine wp_pure (wp_bind (wp_modify (wp_pure ?_)))
    rw [clone_of_encodable (encodable_of_marshalIndent htext)]
    exact hok

section Maintains

variable {I : World → Prop}

theorem maintains_undoing {c : Op α} (h : Maintains (undone E) (MayCrash (undone E)) I c) :
    Maintains E (MayCrash E) I (undoing c) := by
  rw [mayCrash_undone] at h
  exact maintains_comap (fun e he => ⟨e, he, rfl⟩) h

theorem maintains_diskCall {effect : World → Option World}
    (h : ∀ w w', effect w = some w' → I w → I w') : Maintains E (MayCrash E) I (diskCall effect) :=
  fun w hw => wp_diskCall (fun hc => ⟨hc, hw⟩) (fun _ => hw) (fun _ => hw) fun w' hw' => h w w' hw' hw

theorem maintains_writeCall {effect : World → Option World}
    (h : ∀ w w', effect w = some w' → I w → I w') :
    Maintains E (MayCrash E) I (writeCall effect) :=
  fun w hw => wp_writeCall (fun hc => ⟨hc, hw⟩) (fun _ => hw) (fun _ => hw)
    (fun w' _ hw' => h w w' hw' hw) fun w' hw' => h w w' hw' hw

theorem maintains_serviceCall {effect : World → World} (h : ∀ w, I w → I (effect w)) :
    Maintains E (MayCrash E) I (serviceCall effect) :=
  fun w hw => wp_serviceCall (fun hc => ⟨hc, hw⟩) (fun _ => hw) (fun _ => h w hw) (h w hw)

theorem maintains_now (h : ∀ (w : World) (d : ℕ), I w → I { w with clock := w.clock + d }) :
    Maintains E (MayCrash E) I now :=
  fun w hw => wp_now fun d => h w d hw

theorem maintains_randomBytes (n : ℕ) : Maintains E (MayCrash E) I (randomBytes n) :=
  fun _ hw => wp_randomBytes hw fun _ _ => hw

theorem maintains_generateKey : Maintains E (MayCrash E) I generateKey :=
  fun _ hw => wp_generateKey hw fun _ => hw

end Maintains

variable {f : World → τ}

theorem keeps_undoing {c : Op α} (h : Keeps (undone E) (MayCrash (undone E)) f c) :
    Keeps E (MayCrash E) f (undoing c) := by
  rw [mayCrash_undone] at h
  exact keeps_comap (fun e he => ⟨e, he, rfl⟩) h

theorem keeps_diskCall {effect : World → Option World}
    (h : ∀ w w', effect w = some w' → f w' = f w) : Keeps E (MayCrash E) f (diskCall effect) :=
  fun _ => maintains_diskCall fun w w' hw' hf => (h w w' hw').trans hf

theorem keeps_writeCall {effect : World → Option World}
    (h : ∀ w w', effect w = some w' → f w' = f w) : Keeps E (MayCrash E) f (writeCall effect) :=
  fun _ => maintains_writeCall fun w w' hw' hf => (h w w' hw').trans hf

theorem keeps_serviceCall {effect : World → World} (h : ∀ w, f (effect w) = f w) :
    Keeps E (MayCrash E) f (serviceCall effect) :=
  fun _ => maintains_serviceCall fun w hf => (h w).trans hf

theorem keeps_generateKey : Keeps E (MayCrash E) f generateKey := fun _ => maintains_generateKey

/-- The part `f` of the system does not depend on the directories in `P`. -/
structure Ignores (f : World → τ) (P : HsPath → Prop) : Prop where
  dir : ∀ w p d, P p → f (w.setDir p d) = f w
  erased : ∀ w n, P (.stage n) → f { w with stages := w.stages.erase n } = f w
  inserted : ∀ w n torrc, P (.stage n) → f { w with stages := w.stages.insert n torrc } = f w

/-- The property `I` survives the moves of the directories in `P`. No directory is ever renamed to a
stage. -/
structure AdmitsMoves (I : World → Prop) (P : HsPath → Prop) : Prop where
  removed : ∀ w p, P p → I w → I (w.removed p)
  partlyRemoved : ∀ w p keeps, P p → I w → I (w.partlyRemoved p keeps)
  renamed : ∀ w w' p q, P p → P q → (∀ n, q ≠ .stage n) → w.renamed p q = some w' → I w → I w'

variable {I : World → Prop} {P : HsPath → Prop} {p q : HsPath}

theorem Ignores.admitsMoves (h : Ignores f P) (x : τ) : AdmitsMoves (fun w => f w = x) P where
  removed w p hp hw := by
    unfold World.removed
    split
    next n => exact (h.erased _ n hp).trans ((h.dir _ _ _ hp).trans hw)
    next => exact (h.dir _ _ _ hp).trans hw
  partlyRemoved w p keeps hp hw := (h.dir _ _ _ hp).trans hw
  renamed w w' p q hp hq _ hw' hw := by
    unfold World.renamed at hw'
    split at hw'
    next =>
      cases hw'
      rw [h.dir _ _ _ hp, h.dir _ _ _ hq, hw]
    next => cases hw'

theorem maintains_rename (h : AdmitsMoves I P) (hp : P p) (hq : P q) (htarget : ∀ n, q ≠ .stage n) :
    Maintains E (MayCrash E) I (rename p q) :=
  maintains_diskCall fun w w' hw' hw => h.renamed w w' p q hp hq htarget hw' hw

theorem maintains_removeAll (h : AdmitsMoves I P) (hp : P p) :
    Maintains E (MayCrash E) I (removeAll p) := fun w hw =>
  wp_removeAll (fun hc keeps => ⟨hc, h.partlyRemoved w p keeps hp hw⟩)
    (fun _ keeps => h.partlyRemoved w p keeps hp hw) (h.removed w p hp hw)

theorem keeps_removeAll (h : Ignores f P) (hp : P p) : Keeps E (MayCrash E) f (removeAll p) :=
  fun x => maintains_removeAll (h.admitsMoves x) hp

end Rules

end Torkitten
