import Torkitten.Store.Transition

/-!
# Atomic replacement of the state file

`AtomicWrite` of `internal/state`, with every system call that can fail, and the store that
persists through it. The new content is written to a temporary file next to the target, which
is then renamed over it; the directory is synchronised last.

The directory is opened and synchronised after the rename, and an error of either step is
reported as an error of the write: this is the only way in which a write can report an error
after it has changed the file.
-/

namespace Torkitten

/-- The system calls of `AtomicWrite` that can fail. -/
inductive WriteStep where
  | lstat
  | createTemp
  | chmod
  | chown
  | copy
  | sync
  | close
  | rename
  | removeTemp
  | openDir
  | syncDir
  deriving DecidableEq, Repr

/-- One directory entry. -/
structure File where
  /-- A regular file, as opposed to a directory, link or device. -/
  regular : Bool
  data : String
  mode : ℕ
  owner : ℕ × ℕ
  deriving DecidableEq, Repr

/-- The names on the disk: the paths the program chooses, and the temporary names, which the
system chooses so that they differ from every other name. -/
inductive FileName where
  | path (p : String)
  | temp (n : ℕ)
  deriving DecidableEq, Repr

/-- A disk: the entry of each name. -/
structure Disk where
  files : FileName → Option File

namespace Disk

/-- Replace or remove the entry of a name. -/
def set (d : Disk) (name : FileName) (file : Option File) : Disk :=
  { files := fun other => if other = name then file else d.files other }

/-- The content found under a path. -/
def content (d : Disk) (path : String) : Option String := (d.files (.path path)).map File.data

@[simp]
theorem files_set_self (d : Disk) (name : FileName) (file : Option File) :
    (d.set name file).files name = file := by
  simp [set]

@[simp]
theorem files_set_of_ne (d : Disk) {name other : FileName} (file : Option File)
    (h : other ≠ name) : (d.set name file).files other = d.files other := by
  simp [set, h]

/-- Changing a temporary file leaves the content under every path alone. -/
@[simp]
theorem content_set_temp (d : Disk) (n : ℕ) (file : Option File) (path : String) :
    (d.set (.temp n) file).content path = d.content path := by
  simp [content, set]

end Disk

/-- Which system calls of one write fail, and the values the system chooses in it. -/
structure WriteFaults where
  fails : WriteStep → Bool
  /-- The temporary name `os.CreateTemp` finds unused. -/
  temp : ℕ
  /-- What an unfinished copy leaves in the temporary file. -/
  copied : String
  /-- The owner of files this process creates. -/
  owner : ℕ × ℕ

namespace WriteFaults

variable (f : WriteFaults)

/-- The error of one step, if it fails. -/
def error (step : WriteStep) : Option GoError := if f.fails step then some .external else none

/-- `os.Lstat` of the target: its owner when it is a regular file, nothing when it does not
exist. -/
def lstat (path : String) (d : Disk) : Except GoError (Option (ℕ × ℕ)) :=
  if f.fails .lstat then .error .external
  else
    match d.files (.path path) with
    | none => .ok none
    | some file =>
      if file.regular then .ok (some file.owner)
      else .error (.new "refusing to replace non-regular file")

/-- Permissions and owner of the temporary file. -/
def prepareTemp (owner : Option (ℕ × ℕ)) (mode : ℕ) (d : Disk) : Option GoError × Disk :=
  match f.error .chmod with
  | some err => (some err, d)
  | none =>
    let d := d.set (.temp f.temp) ((d.files (.temp f.temp)).map ({ · with mode := mode }))
    match owner with
    | none => (none, d)
    | some owner =>
      match f.error .chown with
      | some err => (some err, d)
      | none =>
        (none, d.set (.temp f.temp) ((d.files (.temp f.temp)).map ({ · with owner := owner })))

/-- Content of the temporary file. The file is closed in any case; the first error counts. -/
def fillTemp (data : String) (prepared : Option GoError) (d : Disk) : Option GoError × Disk :=
  match prepared with
  | some err => (some err, d)
  | none =>
    let written := if f.fails .copy then f.copied else data
    let d := d.set (.temp f.temp) ((d.files (.temp f.temp)).map ({ · with data := written }))
    (((f.error .copy).or (f.error .sync)).or (f.error .close), d)

/-- `os.Rename` of the temporary file over the target, unless an earlier step failed. -/
def renameTemp (path : String) (filled : Option GoError) (d : Disk) : Option GoError × Disk :=
  match filled.or (f.error .rename) with
  | some err => (some err, d)
  | none => (none, (d.set (.path path) (d.files (.temp f.temp))).set (.temp f.temp) none)

/-- The deferred removal of the temporary file, whose error is ignored. -/
def removeTemp (d : Disk) : Disk := if f.fails .removeTemp then d else d.set (.temp f.temp) none

/-- Opening and synchronising the directory. -/
def syncDir : Option GoError := (f.error .openDir).or (f.error .syncDir)

end WriteFaults

/-- `AtomicWrite`. -/
def atomicWrite (f : WriteFaults) (path data : String) (mode : ℕ) (d : Disk) :
    Option GoError × Disk :=
  if !path.startsWith "/" || data.utf8ByteSize > maxBytes then
    (some (.new "invalid atomic write"), d)
  else
    match f.lstat path d with
    | .error err => (some err, d)
    | .ok owner =>
      if f.fails .createTemp then (some .external, d)
      else
        let created := d.set (.temp f.temp) (some ⟨true, "", 0o600, f.owner⟩)
        let (prepared, d) := f.prepareTemp owner mode created
        let (filled, d) := f.fillTemp data prepared d
        let (renamed, d) := f.renameTemp path filled d
        match renamed with
        | some err => (some err, f.removeTemp d)
        | none => (f.syncDir, f.removeTemp d)

/-! ## What the write does to the target -/

namespace WriteFaults

variable (f : WriteFaults)

/-- Every step of the write up to and including the rename succeeds. -/
def Replaces (path data : String) (d : Disk) : Prop :=
  path.startsWith "/" = true ∧ data.utf8ByteSize ≤ maxBytes ∧ f.fails .lstat = false ∧
    (∀ file, d.files (.path path) = some file → file.regular = true) ∧
    f.fails .createTemp = false ∧ f.fails .chmod = false ∧
    ((d.files (.path path)).isSome → f.fails .chown = false) ∧ f.fails .copy = false ∧
    f.fails .sync = false ∧ f.fails .close = false ∧ f.fails .rename = false

/-- Opening or synchronising the directory fails. -/
def LosesDirectory : Prop := f.fails .openDir = true ∨ f.fails .syncDir = true

theorem syncDir_eq_none_iff : f.syncDir = none ↔ ¬ f.LosesDirectory := by
  unfold syncDir error LosesDirectory
  cases f.fails .openDir <;> cases f.fails .syncDir <;> simp

@[simp]
theorem content_removeTemp (d : Disk) (path : String) :
    (f.removeTemp d).content path = d.content path := by
  unfold removeTemp
  split <;> simp

/-- Preparing the temporary file does not touch any path; it succeeds when its steps do, and
then leaves the temporary file in place. -/
theorem prepareTemp_spec (owner : Option (ℕ × ℕ)) (mode : ℕ) (d : Disk) (path : String) :
    (f.prepareTemp owner mode d).2.content path = d.content path ∧
      ((f.prepareTemp owner mode d).1 = none ↔
        f.fails .chmod = false ∧ (owner.isSome → f.fails .chown = false)) ∧
      ((f.prepareTemp owner mode d).2.files (.temp f.temp)).isSome =
        (d.files (.temp f.temp)).isSome := by
  unfold prepareTemp error
  cases f.fails .chmod <;> cases owner <;> cases f.fails .chown <;> simp

/-- Filling the temporary file does not touch any path; when it succeeds the temporary file
holds the data. -/
theorem fillTemp_spec (data : String) (prepared : Option GoError) (d : Disk) (path : String) :
    (f.fillTemp data prepared d).2.content path = d.content path ∧
      ((f.fillTemp data prepared d).1 = none ↔ prepared = none ∧ f.fails .copy = false ∧
        f.fails .sync = false ∧ f.fails .close = false) ∧
      ((f.fillTemp data prepared d).1 = none → (d.files (.temp f.temp)).isSome →
        ((f.fillTemp data prepared d).2.files (.temp f.temp)).map File.data = some data) := by
  unfold fillTemp error
  cases prepared with
  | some err => simp
  | none =>
    refine ⟨by simp, ?_, ?_⟩
    · cases f.fails .copy <;> cases f.fails .sync <;> cases f.fails .close <;> simp
    · cases f.fails .copy <;> cases f.fails .sync <;> cases f.fails .close <;>
        simp [Option.isSome_iff_exists, Function.comp_def]

/-- The rename either fails and changes nothing, or moves the temporary file over the
target. -/
theorem renameTemp_spec (path : String) (filled : Option GoError) (d : Disk) :
    ((f.renameTemp path filled d).1 = none ↔ filled = none ∧ f.fails .rename = false) ∧
      (f.renameTemp path filled d).2.content path =
        if (f.renameTemp path filled d).1 = none then
          (d.files (.temp f.temp)).map File.data
        else d.content path := by
  unfold renameTemp error
  cases filled <;> cases f.fails .rename <;> simp [Disk.content]

end WriteFaults

theorem lstat_eq_ok_iff (f : WriteFaults) (path : String) (d : Disk) (owner : Option (ℕ × ℕ)) :
    f.lstat path d = .ok owner ↔ f.fails .lstat = false ∧
      (∀ file, d.files (.path path) = some file → file.regular = true) ∧
      owner = (d.files (.path path)).map File.owner := by
  unfold WriteFaults.lstat
  cases f.fails .lstat with
  | true => simp
  | false =>
    cases hfile : d.files (.path path) with
    | none => simpa using ⟨Eq.symm, Eq.symm⟩
    | some file =>
      cases hreg : file.regular with
      | true => simpa [hreg] using ⟨Eq.symm, Eq.symm⟩
      | false => simp [hreg]

/-- A write that stops before the rename has happened reports an error and leaves the content
of the target alone. -/
theorem atomicWrite_of_not_replaces {f : WriteFaults} {path data : String} {d : Disk} (mode : ℕ)
    (h : ¬ f.Replaces path data d) :
    (atomicWrite f path data mode d).1 ≠ none ∧
      (atomicWrite f path data mode d).2.content path = d.content path := by
  unfold atomicWrite
  split
  next => simp
  next hargs =>
    simp only [Bool.or_eq_true, Bool.not_eq_true', decide_eq_true_eq, not_or,
      Bool.not_eq_false, Nat.not_lt] at hargs
    cases hlstat : f.lstat path d with
    | error err => simp
    | ok owner =>
      obtain ⟨hl, hreg, hown⟩ := (lstat_eq_ok_iff f path d owner).mp hlstat
      cases hcreate : f.fails .createTemp with
      | true => simp
      | false =>
        simp only [Bool.false_eq_true, ↓reduceIte]
        set created := d.set (.temp f.temp) (some ⟨true, "", 0o600, f.owner⟩) with hcreated
        obtain ⟨hprepC, hprep, -⟩ := f.prepareTemp_spec owner mode created path
        obtain ⟨hfillC, hfill, -⟩ := f.fillTemp_spec data
          (f.prepareTemp owner mode created).1 (f.prepareTemp owner mode created).2 path
        obtain ⟨hren, hrenC⟩ := f.renameTemp_spec path
          (f.fillTemp data (f.prepareTemp owner mode created).1
            (f.prepareTemp owner mode created).2).1
          (f.fillTemp data (f.prepareTemp owner mode created).1
            (f.prepareTemp owner mode created).2).2
        split
        next err herr =>
          refine ⟨by simp, ?_⟩
          rw [f.content_removeTemp, hrenC, if_neg (by rw [herr]; simp), hfillC, hprepC, hcreated,
            Disk.content_set_temp]
        next hnone =>
          -- the rename happened, so every step before it succeeded
          exfalso
          apply h
          obtain ⟨hfilled, hr⟩ := hren.mp hnone
          obtain ⟨hprepared, hc, hs, hcl⟩ := hfill.mp hfilled
          obtain ⟨hmod, hchown⟩ := hprep.mp hprepared
          refine ⟨hargs.1, hargs.2, hl, hreg, hcreate, hmod, ?_, hc, hs, hcl, hr⟩
          intro hsome
          apply hchown
          rw [hown, Option.isSome_map]
          exact hsome

/-- A write whose rename has happened leaves the data in the target, and reports the error of
the directory, if any. -/
theorem atomicWrite_of_replaces {f : WriteFaults} {path data : String} {d : Disk} (mode : ℕ)
    (h : f.Replaces path data d) :
    (atomicWrite f path data mode d).1 = f.syncDir ∧
      (atomicWrite f path data mode d).2.content path = some data := by
  obtain ⟨habs, hsize, hl, hreg, hcreate, hmod, hchown, hc, hs, hcl, hr⟩ := h
  have hlstat : f.lstat path d = .ok ((d.files (.path path)).map File.owner) :=
    (lstat_eq_ok_iff f path d _).mpr ⟨hl, hreg, rfl⟩
  unfold atomicWrite
  rw [if_neg (by simp [habs, hsize]), hlstat]
  simp only [hcreate, Bool.false_eq_true, ↓reduceIte]
  set created := d.set (.temp f.temp) (some ⟨true, "", 0o600, f.owner⟩) with hcreated
  set owner := (d.files (.path path)).map File.owner with howner
  obtain ⟨-, hprep, htemp⟩ := f.prepareTemp_spec owner mode created path
  have hprepared : (f.prepareTemp owner mode created).1 = none := by
    refine hprep.mpr ⟨hmod, fun hsome => hchown ?_⟩
    rwa [howner, Option.isSome_map] at hsome
  obtain ⟨-, hfill, hdata⟩ := f.fillTemp_spec data
    (f.prepareTemp owner mode created).1 (f.prepareTemp owner mode created).2 path
  have hfilled := hfill.mpr ⟨hprepared, hc, hs, hcl⟩
  obtain ⟨hren, hrenC⟩ := f.renameTemp_spec path
    (f.fillTemp data (f.prepareTemp owner mode created).1
      (f.prepareTemp owner mode created).2).1
    (f.fillTemp data (f.prepareTemp owner mode created).1
      (f.prepareTemp owner mode created).2).2
  have hrenamed := hren.mpr ⟨hfilled, hr⟩
  rw [hrenamed] at hrenC ⊢
  refine ⟨rfl, ?_⟩
  rw [f.content_removeTemp, hrenC, if_pos rfl]
  apply hdata hfilled
  rw [htemp, hcreated]
  simp

/-! ## What the write does to the directory -/

/-- The entries of two disks agree but for temporary files. -/
def Disk.SamePaths (d d' : Disk) : Prop := ∀ path, d'.files (.path path) = d.files (.path path)

/-- A temporary file exists and is regular. -/
def Disk.HasTemp (n : ℕ) (d : Disk) : Prop := ∃ file, d.files (.temp n) = some file ∧ file.regular = true

namespace WriteFaults

variable (f : WriteFaults)

theorem prepareTemp_paths (owner : Option (ℕ × ℕ)) (mode : ℕ) {d : Disk} (h : d.HasTemp f.temp) :
    d.SamePaths (f.prepareTemp owner mode d).2 ∧ (f.prepareTemp owner mode d).2.HasTemp f.temp := by
  obtain ⟨file, hfile, hregular⟩ := h
  unfold prepareTemp error Disk.SamePaths Disk.HasTemp
  cases f.fails .chmod <;> cases owner <;> cases f.fails .chown <;> simp [hfile, hregular]

theorem fillTemp_paths (data : String) (prepared : Option GoError) {d : Disk}
    (h : d.HasTemp f.temp) :
    d.SamePaths (f.fillTemp data prepared d).2 ∧ (f.fillTemp data prepared d).2.HasTemp f.temp := by
  obtain ⟨file, hfile, hregular⟩ := h
  unfold fillTemp Disk.SamePaths Disk.HasTemp
  cases prepared <;> simp [hfile, hregular]

theorem removeTemp_paths (d : Disk) : d.SamePaths (f.removeTemp d) := by
  intro path
  unfold removeTemp
  split <;> simp

end WriteFaults

theorem Disk.SamePaths.trans {d d' d'' : Disk} (h : d.SamePaths d') (h' : d'.SamePaths d'') :
    d.SamePaths d'' :=
  fun path => (h' path).trans (h path)

/-- The target of a write has been replaced, and nothing else. -/
structure Disk.Replaced (path data : String) (d d' : Disk) : Prop where
  target : ∃ file, d'.files (.path path) = some file ∧ file.regular = true ∧ file.data = data
  others : ∀ other, other ≠ path → d'.files (.path other) = d.files (.path other)

theorem renameTemp_paths (f : WriteFaults) (path data : String) {filled : Option GoError} {d : Disk}
    (h : d.HasTemp f.temp)
    (hdata : filled = none → (d.files (.temp f.temp)).map File.data = some data) :
    ((f.renameTemp path filled d).1 ≠ none ∧ d.SamePaths (f.renameTemp path filled d).2) ∨
      d.Replaced path data (f.renameTemp path filled d).2 := by
  obtain ⟨file, hfile, hregular⟩ := h
  cases hfilled : filled.or (f.error .rename) with
  | some err =>
    refine .inl ⟨?_, ?_⟩ <;> simp [WriteFaults.renameTemp, hfilled, Disk.SamePaths]
  | none =>
    have hnone : filled = none := (Option.or_eq_none_iff.mp hfilled).1
    rw [hfile, Option.map_some] at hdata
    refine .inr ⟨⟨file, ?_, hregular, Option.some.inj (hdata hnone)⟩, fun other hne => ?_⟩
    · simp [WriteFaults.renameTemp, hfilled, hfile]
    · simp [WriteFaults.renameTemp, hfilled, hne]

/-- After a write the directory is as it was, or the target, if it existed a regular file, has been
replaced; without an error it is the latter. -/
theorem atomicWrite_paths (f : WriteFaults) (path data : String) (mode : ℕ) (d : Disk) :
    ((atomicWrite f path data mode d).1 ≠ none ∧ d.SamePaths (atomicWrite f path data mode d).2) ∨
      (∀ file, d.files (.path path) = some file → file.regular = true) ∧
        d.Replaced path data (atomicWrite f path data mode d).2 := by
  have hsame : d.SamePaths d := fun _ => rfl
  unfold atomicWrite
  split
  next => exact .inl ⟨by simp, hsame⟩
  next =>
    cases hlstat : f.lstat path d with
    | error err => exact .inl ⟨by simp, hsame⟩
    | ok owner =>
      have hregular := ((lstat_eq_ok_iff f path d owner).mp hlstat).2.1
      cases f.fails .createTemp with
      | true => exact .inl ⟨by simp, hsame⟩
      | false =>
        simp only [Bool.false_eq_true, ↓reduceIte]
        -- the temporary file is made, prepared and filled beside the target
        set created := d.set (.temp f.temp) (some ⟨true, "", 0o600, f.owner⟩) with hcreated
        have hpaths₀ : d.SamePaths created := fun _ => by simp [hcreated]
        have htemp₀ : created.HasTemp f.temp := ⟨_, Disk.files_set_self _ _ _, rfl⟩
        obtain ⟨hpaths₁, htemp₁⟩ := f.prepareTemp_paths owner mode htemp₀
        set prepared := f.prepareTemp owner mode created
        obtain ⟨hpaths₂, htemp₂⟩ := f.fillTemp_paths data prepared.1 htemp₁
        obtain ⟨-, -, hfill⟩ := f.fillTemp_spec data prepared.1 prepared.2 path
        have hdata : (f.fillTemp data prepared.1 prepared.2).1 = none →
            ((f.fillTemp data prepared.1 prepared.2).2.files (.temp f.temp)).map File.data =
              some data := by
          obtain ⟨file, hfile, -⟩ := htemp₁
          exact fun h => hfill h (by rw [hfile]; rfl)
        set filled := f.fillTemp data prepared.1 prepared.2
        have hbefore : d.SamePaths filled.2 := (hpaths₀.trans hpaths₁).trans hpaths₂
        have hafter (d' : Disk) : d'.SamePaths (f.removeTemp d') := f.removeTemp_paths d'
        rcases renameTemp_paths f path data htemp₂ hdata with ⟨herr, hkept⟩ | ⟨⟨file, hfile, hform⟩, hothers⟩
        · -- it has not been renamed
          obtain ⟨err, herr⟩ := Option.ne_none_iff_exists'.mp herr
          rw [herr]
          exact .inl ⟨by simp, (hbefore.trans hkept).trans (hafter _)⟩
        · -- it has been renamed over the target
          refine .inr ⟨hregular, ?_⟩
          split <;>
            exact ⟨⟨file, (hafter _ path).trans hfile, hform⟩, fun other hne =>
              ((hafter _ other).trans (hothers other hne)).trans (hbefore other)⟩

end Torkitten
