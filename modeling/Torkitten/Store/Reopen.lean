import Torkitten.Foundations.Run
import Torkitten.Model.Decode
import Torkitten.Model.Specification
import Torkitten.Store.FileStore

/-!
# Reopening a store

The store of `internal/state` with its texts: `persist` writes an indented text, `load` reads it with
a strict decoder, and `Clone` goes through a compact text and ignores the errors of both directions.
The value in memory is a `Draft`, so that nil collections can occur; transition functions are
arbitrary. Their rollbacks act on other components and are left out here.

## Main results

* `load_written`: `load` accepts and inverts what `persist` writes;
* `clone_of_sound`: a valid state with collections is its own clone;
* `reopened_of_storeRun`: in every run the store can be opened again, with the same view but for the
  bootstrap window.
-/

namespace Torkitten

open JsonText

namespace Draft

/-- `normalize`. -/
def normalize (d : Draft) : Draft := d.state.draft

/-- No collection is nil. -/
structure NoNil (d : Draft) : Prop where
  mappings : d.mappings.isSome = true
  devices : d.devices.isSome = true
  sessions : d.sessions.isSome = true
  tokens : d.tokens.isSome = true

/-- The names of the collections that are nil. -/
def nils (d : Draft) : List String :=
  (if d.mappings.isNone then ["mappings"] else []) ++ (if d.devices.isNone then ["devices"] else []) ++
    (if d.sessions.isNone then ["local_sessions"] else []) ++
    (if d.tokens.isNone then ["agent_tokens"] else [])

/-- A nil collection is encoded as null. -/
def nullify (names : List String) : Value → Value
  | .obj members => .obj (members.map fun (name, v) =>
      (name, if names.any fun n => escape n == name then .null else v))
  | v => v

/-- What the encoder writes. -/
def encode (d : Draft) : Except GoError Value := do
  let document ← d.state.toJson
  return nullify d.nils document.value

/-- `json.MarshalIndent(value, "", "  ")`. -/
def marshalIndent (d : Draft) : Except GoError (List Char) := do
  let v ← d.encode
  return v.print indented 0

/-- `json.Marshal`. -/
def marshal (d : Draft) : Except GoError (List Char) := do
  let v ← d.encode
  return v.print .compact 0

/-- `json.Unmarshal` into a zero value. -/
def unmarshal (text : List Char) : Option Draft :=
  match JsonText.read text with
  | none => none
  | some (v, rest) => if skip rest = [] then decodeDraft false v else none

/-- `Clone`. Decoding what has been encoded does not fail; what a failure would leave behind is the
zero value when nothing has been encoded. -/
def clone (d : Draft) : Draft :=
  match d.marshal with
  | .error _ => zero.normalize
  | .ok text => ((unmarshal text).getD zero).normalize

end Draft

/-- `load` of a file that exists. -/
def load (file : File) : Except GoError Draft :=
  if !file.regular || file.mode &&& 0o077 != 0 || file.data.utf8ByteSize > maxBytes then
    .error (.new "state file type, permissions, or size are unsafe")
  else
    match JsonText.read file.data.toList with
    | none => .error (.wrap "decode state" .external)
    | some (v, rest) =>
      match decodeDraft true v with
      | none => .error (.wrap "decode state" .external)
      | some d =>
        if skip rest ≠ [] then .error (.new "state contains trailing data")
        else
          match d.state.validate with
          | some err => .error (.wrap "validate state" err)
          | none => .ok d

/-- A store: the value in memory and the disk. -/
structure DraftStore where
  value : Draft
  disk : Disk

namespace DraftStore

variable (path : String)

/-- `Store.persist`. -/
def persist (f : WriteFaults) (d : Draft) (disk : Disk) : Option GoError × Disk :=
  match d.state.validate with
  | some err => (some (.wrap "refusing invalid state" err), disk)
  | none =>
    match d.marshalIndent with
    | .error err => (some (.wrap "encode state" err), disk)
    | .ok text =>
      if (String.ofList (text ++ ['\n'])).utf8ByteSize > maxBytes then
        (some (.new "encoded state exceeds size limit"), disk)
      else
        match atomicWrite f path (String.ofList (text ++ ['\n'])) 0o600 disk with
        | (some err, disk) => (some (.wrap "persist state" err), disk)
        | (none, disk) => (none, disk)

/-- `Open`, whose directory exists. -/
def openPath (f : WriteFaults) (disk : Disk) : Except GoError Draft × Disk :=
  if !path.startsWith "/" then (.error (.new "state path must be absolute"), disk)
  else
    match disk.files (.path path) with
    | none =>
      match persist path f newState.draft disk with
      | (some err, disk) => (.error err, disk)
      | (none, disk) => (.ok { newState.draft.normalize with bootstrap := none }, disk)
    | some file =>
      match load file with
      | .error err => (.error err, disk)
      | .ok d => (.ok { d.normalize with bootstrap := none }, disk)

/-- `Store.View`. -/
def view (store : DraftStore) : Draft := store.value.clone

/-- `Store.Transition`. -/
def transition (store : DraftStore) (fn : Option (Draft → Except GoError Draft)) (f : WriteFaults) :
    Option GoError × DraftStore :=
  match fn with
  | none => (some (.new "nil state transition"), store)
  | some fn =>
    match fn store.value.clone with
    | .error err => (some err, store)
    | .ok next =>
      match next.normalize.state.validate with
      | some err => (some err, store)
      | none =>
        match persist path f next.normalize store.disk with
        | (some err, disk) => (some err, { store with disk })
        | (none, disk) => (none, ⟨next.normalize.clone, disk⟩)

end DraftStore

/-! ## Texts are read back -/

theorem Draft.NoNil.draft_state {d : Draft} (h : d.NoNil) : d.state.draft = d := by
  obtain ⟨mappings, hmappings⟩ := Option.isSome_iff_exists.mp h.mappings
  obtain ⟨devices, hdevices⟩ := Option.isSome_iff_exists.mp h.devices
  obtain ⟨sessions, hsessions⟩ := Option.isSome_iff_exists.mp h.sessions
  obtain ⟨tokens, htokens⟩ := Option.isSome_iff_exists.mp h.tokens
  cases d
  simp_all [Draft.state, State.draft]

theorem noNil_draft (s : State) : s.draft.NoNil := ⟨rfl, rfl, rfl, rfl⟩

theorem normalize_draft (s : State) : s.draft.normalize = s.draft := rfl

theorem nullify_nil (v : Value) : Draft.nullify [] v = v := by
  unfold Draft.nullify
  split
  · simp
  · rfl

theorem encode_draft {s : State} {document : Json} (h : s.toJson = .ok document) :
    s.draft.encode = .ok document.value := by
  change (do let document ← s.toJson; return Draft.nullify [] document.value) = _
  rw [h]
  exact congrArg Except.ok (nullify_nil _)

/-- A valid state has ints that fit, and knows its protocols and scopes. -/
theorem State.Valid.canonical {s : State} (h : s.Valid) : s.Canonical := by
  have hspec := valid_iff_specified.mp h
  have hversion := hspec.version
  refine ⟨by omega, by omega, fun m hm => ?_, fun x hx scope hscope => ?_⟩
  · have hport := (hspec.mapping m hm).port
    refine ⟨by omega, by omega, ?_⟩
    rcases (hspec.mapping m hm).protocol with hp | hp | hp
    · rw [hp]
      rfl
    · rw [hp]
      rfl
    · rw [hp]
      rfl
  · rcases (hspec.token x hx).scopes scope hscope with rfl | rfl
    · rfl
    · rfl

theorem stops_nil : Stops [] := fun _ hc => by cases hc

/-- A state that can be encoded and has canonical members is its own clone. -/
theorem clone_draft {s : State} (hcanonical : s.Canonical) (hencodable : s.Encodable) :
    s.draft.clone = s.draft := by
  obtain ⟨document, hdocument⟩ := hencodable
  have hmarshal : s.draft.marshal = .ok (document.value.print .compact 0) := by
    rw [Draft.marshal, encode_draft hdocument]
    rfl
  have hread : JsonText.read (document.value.print .compact 0) = some (document.value, []) := by
    have h := read_print .compact (spelled_value document) 0 stops_nil
    rwa [List.append_nil] at h
  have hunmarshal : Draft.unmarshal (document.value.print .compact 0) = some s.draft := by
    rw [Draft.unmarshal, hread]
    exact decodeDraft_value false hcanonical hdocument
  rw [Draft.clone, hmarshal]
  dsimp only
  rw [hunmarshal, Option.getD_some, normalize_draft]

/-- The bytes that `persist` writes. -/
def written (document : Json) : String := String.ofList (document.value.print indented 0 ++ ['\n'])

/-- `load` accepts and inverts what `persist` writes. -/
theorem load_written {s : State} {document : Json} {owner : ℕ × ℕ} (hvalid : s.Valid)
    (h : s.toJson = .ok document) (hsize : (written document).utf8ByteSize ≤ maxBytes) :
    load ⟨true, written document, 0o600, owner⟩ = .ok s.draft := by
  have hread : JsonText.read (written document).toList = some (document.value, ['\n']) := by
    rw [written, String.toList_ofList]
    exact read_print indented (spelled_value document) 0 (stops_of_isSpace rfl)
  have hnone : s.draft.state.validate = none := hvalid
  unfold load
  rw [if_neg (by simp [hsize])]
  simp only [hread, decodeDraft_value true hvalid.canonical h, hnone]
  rfl

/-! ## The file after a write -/

/-- A rename that fails changes nothing. -/
theorem renameTemp_failed {f : WriteFaults} {path : String} {filled : Option GoError} {d : Disk}
    (h : (f.renameTemp path filled d).1 ≠ none) : (f.renameTemp path filled d).2 = d := by
  unfold WriteFaults.renameTemp at h ⊢
  split
  next => rfl
  next hnone =>
    rw [hnone] at h
    exact absurd rfl h

/-- A write that has not replaced its target has left it alone. -/
theorem atomicWrite_kept {f : WriteFaults} {path data : String} {d : Disk} (mode : ℕ)
    (h : ¬ f.Replaces path data d) :
    (atomicWrite f path data mode d).2.files (.path path) = d.files (.path path) := by
  unfold atomicWrite
  split
  next => rfl
  next hargs =>
    simp only [Bool.or_eq_true, Bool.not_eq_true', decide_eq_true_eq, not_or, Bool.not_eq_false,
      Nat.not_lt] at hargs
    split
    next => rfl
    next owner hlstat =>
      obtain ⟨hl, hreg, hown⟩ := (lstat_eq_ok_iff f path d owner).mp hlstat
      split
      next => rfl
      next hcreate =>
        -- the temporary file is made, prepared and filled beside the target
        set created := d.set (.temp f.temp) (some ⟨true, "", 0o600, f.owner⟩) with hcreated
        have hpaths₀ : d.SamePaths created := fun _ => by simp [hcreated]
        have htemp₀ : created.HasTemp f.temp := ⟨_, Disk.files_set_self _ _ _, rfl⟩
        obtain ⟨hpaths₁, htemp₁⟩ := f.prepareTemp_paths owner mode htemp₀
        obtain ⟨-, hprep, -⟩ := f.prepareTemp_spec owner mode created path
        set prepared := f.prepareTemp owner mode created
        obtain ⟨hpaths₂, -⟩ := f.fillTemp_paths data prepared.1 htemp₁
        obtain ⟨-, hfill, -⟩ := f.fillTemp_spec data prepared.1 prepared.2 path
        set filled := f.fillTemp data prepared.1 prepared.2
        have hrename : (f.renameTemp path filled.1 filled.2).1 ≠ none := by
          intro hnone
          obtain ⟨hfilled, hr⟩ := (f.renameTemp_spec path filled.1 filled.2).1.mp hnone
          obtain ⟨hprepared, hc, hs, hcl⟩ := hfill.mp hfilled
          obtain ⟨hmod, hchown⟩ := hprep.mp hprepared
          refine h ⟨hargs.1, hargs.2, hl, hreg, by simpa using hcreate, hmod, fun hsome => ?_, hc, hs,
            hcl, hr⟩
          rw [hown, Option.isSome_map] at hchown
          exact hchown hsome
        have hsame : d.SamePaths (f.removeTemp (f.renameTemp path filled.1 filled.2).2) := by
          rw [renameTemp_failed hrename]
          exact ((hpaths₀.trans hpaths₁).trans hpaths₂).trans (f.removeTemp_paths _)
        dsimp only
        split
        next => exact hsame path
        next => exact hsame path

/-- A write that has replaced its target has made a regular file with the data and the mode. -/
theorem atomicWrite_file {f : WriteFaults} {path data : String} {d : Disk} (mode : ℕ)
    (h : f.Replaces path data d) : ∃ owner,
      (atomicWrite f path data mode d).2.files (.path path) = some ⟨true, data, mode, owner⟩ := by
  obtain ⟨habs, hsize, hl, hreg, hcreate, hmod, hchown, hc, hs, hcl, hr⟩ := h
  have hlstat : f.lstat path d = .ok ((d.files (.path path)).map File.owner) :=
    (lstat_eq_ok_iff f path d _).mpr ⟨hl, hreg, rfl⟩
  unfold atomicWrite
  rw [if_neg (by simp [habs, hsize]), hlstat]
  simp only [hcreate, Bool.false_eq_true, ↓reduceIte]
  generalize hcreated : d.set (.temp f.temp) (some ⟨true, "", 0o600, f.owner⟩) = created
  have htemp : created.files (.temp f.temp) = some ⟨true, "", 0o600, f.owner⟩ := by
    rw [← hcreated, Disk.files_set_self]
  -- the temporary file has its mode and perhaps the owner of the target
  have hprepare : ∃ owner, (f.prepareTemp ((d.files (.path path)).map File.owner) mode created).1 = none ∧
      (f.prepareTemp ((d.files (.path path)).map File.owner) mode created).2.files (.temp f.temp) =
        some ⟨true, "", mode, owner⟩ := by
    cases hfile : d.files (.path path) with
    | none => exact ⟨f.owner, by simp [WriteFaults.prepareTemp, WriteFaults.error, hmod, htemp]⟩
    | some file =>
      rw [hfile] at hchown
      exact ⟨file.owner, by
        simp [WriteFaults.prepareTemp, WriteFaults.error, hmod, htemp, hchown rfl]⟩
  obtain ⟨owner, hprepared, htemp₁⟩ := hprepare
  generalize f.prepareTemp ((d.files (.path path)).map File.owner) mode created = prepared at *
  have hfill : (f.fillTemp data prepared.1 prepared.2).1 = none ∧
      (f.fillTemp data prepared.1 prepared.2).2.files (.temp f.temp) =
        some ⟨true, data, mode, owner⟩ := by
    rw [hprepared]
    simp [WriteFaults.fillTemp, WriteFaults.error, hc, hs, hcl, htemp₁]
  obtain ⟨hfilled, htemp₂⟩ := hfill
  generalize f.fillTemp data prepared.1 prepared.2 = filled at *
  refine ⟨owner, ?_⟩
  have hrenamed : (f.renameTemp path filled.1 filled.2).1 = none ∧
      (f.renameTemp path filled.1 filled.2).2.files (.path path) = some ⟨true, data, mode, owner⟩ := by
    rw [hfilled]
    simp [WriteFaults.renameTemp, WriteFaults.error, hr, htemp₂]
  rw [hrenamed.1]
  exact (f.removeTemp_paths _ path).trans hrenamed.2

/-! ## Runs -/

/-- What happens to a store. -/
inductive Visit where
  /-- The store is opened again. -/
  | reopen (f : WriteFaults)
  | transition (fn : Option (Draft → Except GoError Draft)) (f : WriteFaults)

/-- The faults of the write of a visit. -/
def Visit.faults : Visit → WriteFaults
  | .reopen f => f
  | .transition _ f => f

namespace DraftStore

variable (path : String)

/-- One visit. A store that cannot be opened is not used. -/
def visit (store : DraftStore) : Visit → Option DraftStore
  | .reopen f =>
    match openPath path f store.disk with
    | (.ok value, disk) => some ⟨value, disk⟩
    | (.error _, _) => none
  | .transition fn f => some (store.transition path fn f).2

/-- A store that has been opened: there was no file, or one whose times have a year that the encoder
accepts. -/
structure Opened (store : DraftStore) : Prop where
  opened : ∃ f disk, ¬ f.LosesDirectory ∧ openPath path f disk = (.ok store.value, store.disk) ∧
    ∀ file d, disk.files (.path path) = some file → load file = .ok d → d.state.Encodable

/-- The runs of a store whose writes are all-or-nothing. -/
abbrev StoreRun : List Visit → DraftStore → Prop :=
  Run (Opened path) fun store v store' =>
    ¬ v.faults.LosesDirectory ∧ store.visit path v = some store'

/-- The value in memory can be used, and the file holds it. -/
structure Durable (store : DraftStore) : Prop where
  absolute : path.startsWith "/" = true
  valid : store.value.state.Valid
  encodable : store.value.state.Encodable
  noNil : store.value.NoNil
  file : ∃ file d, store.disk.files (.path path) = some file ∧ load file = .ok d ∧
    { d.normalize with bootstrap := none } = { store.value with bootstrap := none }

/-- A write that is all-or-nothing puts the state in the file, or leaves the file alone. -/
theorem persist_spec {f : WriteFaults} (s : State) (disk : Disk) (hf : ¬ f.LosesDirectory) :
    ((persist path f s.draft disk).1 = none ∧ s.Valid ∧ s.Encodable ∧
      ∃ file, (persist path f s.draft disk).2.files (.path path) = some file ∧ load file = .ok s.draft) ∨
    ((persist path f s.draft disk).1 ≠ none ∧
      (persist path f s.draft disk).2.files (.path path) = disk.files (.path path)) := by
  unfold persist
  split
  next => exact .inr ⟨by simp, rfl⟩
  next hvalid =>
    split
    next => exact .inr ⟨by simp, rfl⟩
    next text htext =>
      obtain ⟨v, hv, htext⟩ := bind_eq_ok_iff.mp htext
      obtain ⟨document, hdocument, hv⟩ := bind_eq_ok_iff.mp hv
      cases hv
      cases htext
      have htext : String.ofList ((Draft.nullify s.draft.nils document.value).print indented 0 ++ ['\n']) =
          written document := by
        rw [show s.draft.nils = [] from rfl, nullify_nil, written]
      rw [htext]
      split
      next => exact .inr ⟨by simp, rfl⟩
      next hsize =>
        by_cases hreplaces : f.Replaces path (written document) disk
        · obtain ⟨hresult, -⟩ := atomicWrite_of_replaces 0o600 hreplaces
          obtain ⟨owner, hfile⟩ := atomicWrite_file 0o600 hreplaces
          rw [f.syncDir_eq_none_iff.mpr hf] at hresult
          rcases hwrite : atomicWrite f path (written document) 0o600 disk with ⟨err, disk'⟩
          rw [hwrite] at hresult hfile
          obtain rfl : err = none := hresult
          exact .inl ⟨rfl, hvalid, ⟨document, hdocument⟩, _, hfile,
            load_written hvalid hdocument (Nat.not_lt.mp hsize)⟩
        · obtain ⟨hresult, -⟩ := atomicWrite_of_not_replaces 0o600 hreplaces
          have hkept := atomicWrite_kept 0o600 hreplaces
          rcases hwrite : atomicWrite f path (written document) 0o600 disk with ⟨err, disk'⟩
          rw [hwrite] at hresult hkept
          obtain ⟨e, rfl⟩ : ∃ e, err = some e := Option.ne_none_iff_exists'.mp hresult
          exact .inr ⟨by simp, hkept⟩

variable {path}

theorem Durable.clone {store : DraftStore} (h : Durable path store) : store.value.clone = store.value := by
  have hclone := clone_draft h.valid.canonical h.encodable
  rwa [h.noNil.draft_state] at hclone

/-- The store can be opened again. -/
theorem Durable.reopen {store : DraftStore} (h : Durable path store) (f : WriteFaults) :
    openPath path f store.disk = (.ok { store.value with bootstrap := none }, store.disk) := by
  obtain ⟨file, d, hfile, hload, hvalue⟩ := h.file
  unfold openPath
  rw [if_neg (by simp [h.absolute])]
  simp only [hfile, hload, hvalue]

theorem Durable.dropBootstrap {store : DraftStore} (h : Durable path store) :
    Durable path ⟨{ store.value with bootstrap := none }, store.disk⟩ := by
  obtain ⟨file, d, hfile, hload, hvalue⟩ := h.file
  exact ⟨h.absolute, h.valid.dropBootstrap, h.encodable.dropBootstrap, ⟨h.noNil.1, h.noNil.2, h.noNil.3,
    h.noNil.4⟩, file, d, hfile, hload, hvalue⟩

theorem Durable.of_written {s : State} {disk : Disk} {file : File} (habsolute : path.startsWith "/" = true)
    (hvalid : s.Valid) (hencodable : s.Encodable) (hfile : disk.files (.path path) = some file)
    (hload : load file = .ok s.draft) : Durable path ⟨s.draft, disk⟩ :=
  ⟨habsolute, hvalid, hencodable, noNil_draft s, file, s.draft, hfile, hload, rfl⟩

theorem valid_of_load {file : File} {d : Draft} (h : load file = .ok d) : d.state.Valid := by
  unfold load at h
  split at h
  next => cases h
  next =>
    split at h
    next => cases h
    next =>
      split at h
      next => cases h
      next =>
        split at h
        next => cases h
        next =>
          split at h
          next => cases h
          next hvalid =>
            cases h
            exact hvalid

theorem Opened.durable {store : DraftStore} (h : Opened path store) : Durable path store := by
  obtain ⟨value, final⟩ := store
  obtain ⟨f, disk, hf, hopen, hencodable⟩ := h.opened
  dsimp only at hopen
  unfold openPath at hopen
  split at hopen
  next => cases hopen
  next habsolute =>
    have habsolute : path.startsWith "/" = true := by simpa using habsolute
    split at hopen
    next =>
      -- there was no file, and a new state has been written
      have hpersist := persist_spec path newState disk hf
      split at hopen
      next => cases hopen
      next heq =>
        rw [heq] at hpersist
        obtain ⟨-, hvalid, henc, file, hfile, hload⟩ := hpersist.resolve_right fun h => h.1 rfl
        cases hopen
        exact .of_written habsolute hvalid henc hfile hload
    next file hfile =>
      split at hopen
      next => cases hopen
      next d hload =>
        cases hopen
        exact ⟨habsolute, (valid_of_load hload).dropBootstrap,
          (hencodable file d hfile hload).dropBootstrap, ⟨rfl, rfl, rfl, rfl⟩, file, d, hfile, hload, rfl⟩

/-- A visit whose write is all-or-nothing. -/
theorem Durable.visit {store store' : DraftStore} (h : Durable path store) {v : Visit}
    (hf : ¬ v.faults.LosesDirectory) (hvisit : store.visit path v = some store') :
    Durable path store' := by
  cases v with
  | reopen f =>
    dsimp only [DraftStore.visit] at hvisit
    rw [h.reopen f] at hvisit
    cases hvisit
    exact h.dropBootstrap
  | transition fn f =>
    dsimp only [Visit.faults] at hf
    cases hvisit
    unfold DraftStore.transition
    split
    next => exact h
    next fn =>
      split
      next => exact h
      next next hnext =>
        split
        next => exact h
        next hvalid =>
          -- the write either succeeds, or leaves the file as it is
          have hpersist := persist_spec path next.state store.disk hf
          rw [show next.state.draft = next.normalize from rfl] at hpersist
          split
          next err disk heq =>
            rw [heq] at hpersist
            obtain ⟨-, hkept⟩ := hpersist.resolve_left fun h => by cases h.1
            obtain ⟨file, d, hfile, hload, hvalue⟩ := h.file
            exact ⟨h.absolute, h.valid, h.encodable, h.noNil, file, d, hkept.trans hfile, hload, hvalue⟩
          next disk heq =>
            rw [heq] at hpersist
            obtain ⟨-, hvalid, henc, file, hfile, hload⟩ := hpersist.resolve_right fun h => h.1 rfl
            rw [show next.normalize = next.state.draft from rfl, clone_draft hvalid.canonical henc]
            exact .of_written h.absolute hvalid henc hfile hload

theorem durable_of_storeRun {visits : List Visit} {store : DraftStore} (h : StoreRun path visits store) :
    Durable path store :=
  h.invariant (I := fun _ store => Durable path store) (fun _ hinit => hinit.durable)
    fun _ _ _ _ hI hstep => hI.visit hstep.1 hstep.2

end DraftStore

open DraftStore in
/-- In every run the value in memory is valid, has its collections and is its own clone, and the
store can be opened again at any point, with a view that differs in the bootstrap window only. -/
theorem reopened_of_storeRun (path : String) (visits : List Visit) (store : DraftStore)
    (h : StoreRun path visits store) :
    store.value.state.Valid ∧ store.value.NoNil ∧ store.value.clone = store.value ∧
      ∀ f, ∃ store', store.visit path (.reopen f) = some store' ∧
        store'.view = { store.view with bootstrap := none } := by
  have hdurable := durable_of_storeRun h
  refine ⟨hdurable.valid, hdurable.noNil, hdurable.clone, fun f => ?_⟩
  have hvisit : store.visit path (.reopen f) =
      some ⟨{ store.value with bootstrap := none }, store.disk⟩ := by
    dsimp only [DraftStore.visit]
    rw [hdurable.reopen f]
  refine ⟨_, hvisit, ?_⟩
  rw [DraftStore.view, DraftStore.view, hdurable.clone]
  exact hdurable.dropBootstrap.clone

/-- Nothing fails. -/
def noFaults : WriteFaults := ⟨fun _ => false, 0, "", (0, 0)⟩

theorem noFaults_keeps : ¬ noFaults.LosesDirectory := by
  rintro (h | h)
  · cases h
  · cases h

/-- A store that has just been created. -/
def createdStore : DraftStore :=
  ⟨newState.draft, (DraftStore.openPath "/state.json" noFaults ⟨fun _ => none⟩).2⟩

theorem opened_createdStore : DraftStore.Opened "/state.json" createdStore := by
  have hopen : (DraftStore.openPath "/state.json" noFaults ⟨fun _ => none⟩).1 = .ok newState.draft := by
    decide +kernel
  exact ⟨noFaults, ⟨fun _ => none⟩, noFaults_keeps, Prod.ext hopen rfl,
    fun _ _ hfile => absurd hfile (Option.some_ne_none _).symm⟩

/-- A state with a bootstrap window, in which two collections are nil. -/
def legacyState (_ : Draft) : Except GoError Draft :=
  .ok { newState.draft with
    mappings := none
    tokens := none
    bootstrap := some ⟨String.ofList (List.replicate 43 'A'), 1⟩ }

/-- The store after that state has been stored. -/
def legacyStore : DraftStore := (createdStore.transition "/state.json" (some legacyState) noFaults).2

/-- The store is opened again, with its collections and without the window. -/
theorem legacyStore_reopened :
    (createdStore.transition "/state.json" (some legacyState) noFaults).1 = none ∧
      legacyStore.value.NoNil ∧
      ∃ store', legacyStore.visit "/state.json" (.reopen noFaults) = some store' ∧
        store'.view = { legacyStore.view with bootstrap := none } := by
  have hrun : DraftStore.StoreRun "/state.json" [.transition (some legacyState) noFaults] legacyStore :=
    .next (.start opened_createdStore) ⟨noFaults_keeps, rfl⟩
  obtain ⟨-, hnil, -, hreopen⟩ := reopened_of_storeRun _ _ legacyStore hrun
  exact ⟨by decide +kernel, hnil, hreopen noFaults⟩

end Torkitten
