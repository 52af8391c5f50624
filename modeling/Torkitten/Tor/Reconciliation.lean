import Torkitten.Control.Manager
import Torkitten.Model.Specification
import Torkitten.Store.AtomicWrite
import Torkitten.Tor.Authorizations

/-!
# Reconciling the authorisations of an arbitrary directory

`Reconcile` is called on a directory that may hold anything: files of devices that were revoked,
subdirectories, links, files of other programs. This module says what it may do to each entry, whether
it succeeds, fails or is interrupted, and what the directory holds when it has succeeded.

## Main results

* `reconcile_exact`: after a successful reconciliation the authorisation files are exactly those of
  the given devices; a second one changes nothing; and a failed one has spared the given devices.
-/

namespace Torkitten.Tor

open Proc

/-! ## Writing one file -/

/-- The directory under a path of the disk has these entries. -/
def Shows (root : String) (d : Disk) (a : AuthDir) : Prop :=
  ∀ name, match a.lookup name with
    | none => d.files (.path (root ++ "/" ++ name)) = none
    | some (.file data) => ∃ file, d.files (.path (root ++ "/" ++ name)) = some file ∧
        file.regular = true ∧ file.data = data
    | some .dir => ∃ file, d.files (.path (root ++ "/" ++ name)) = some file ∧ file.regular = false
    | some .special => ∃ file, d.files (.path (root ++ "/" ++ name)) = some file ∧ file.regular = false

/-- What `putFile` says of a file of the directory is what `AtomicWrite` does to it on the disk: a write
without error has replaced the file, and one with an error has done so or nothing. -/
theorem atomicWrite_shows {root name data : String} {mode : ℕ} {d : Disk} {a : AuthDir}
    (h : Shows root d a) (f : WriteFaults) :
    (Shows root (atomicWrite f (root ++ "/" ++ name) data mode d).2 a ∧
        (atomicWrite f (root ++ "/" ++ name) data mode d).1 ≠ none) ∨
      ∃ a', putFile name data a = some a' ∧
        Shows root (atomicWrite f (root ++ "/" ++ name) data mode d).2 a' := by
  rcases atomicWrite_paths f (root ++ "/" ++ name) data mode d with
    ⟨herr, hsame⟩ | ⟨hregular, htarget, hothers⟩
  · refine .inl ⟨fun other => ?_, herr⟩
    rw [hsame]
    exact h other
  · -- the target was no directory, link or device
    have hput : putFile name data a = some (a.insert name (.file data)) := by
      have hname := h name
      unfold putFile
      split
      next hdir =>
        rw [hdir] at hname
        obtain ⟨file, hfile, hform⟩ := hname
        rw [hregular file hfile] at hform
        cases hform
      next hspecial =>
        rw [hspecial] at hname
        obtain ⟨file, hfile, hform⟩ := hname
        rw [hregular file hfile] at hform
        cases hform
      next => rfl
    refine .inr ⟨_, hput, fun other => ?_⟩
    by_cases heq : other = name
    · subst heq
      rw [AList.lookup_insert]
      exact htarget
    · rw [AList.lookup_insert_ne heq, hothers]
      · exact h other
      · intro hpath
        exact heq (tag_injective (root ++ "/") hpath)

/-! ## What may happen to an entry -/

/-- What a reconciliation may have done to the entry of one name: nothing, or it has written the key
of a given device there, or it has removed the file of another one. -/
inductive Touched (recs : List (String × String)) (a a' : AuthDir) (name : String) : Prop where
  | kept (h : a'.lookup name = a.lookup name)
  | written (id key : String) (hrec : (id, key) ∈ recs) (hname : name = authFile id)
      (hdir : a.lookup name ≠ some .dir) (h : a'.lookup name = some (.file (authData key)))
  | removed (id : String) (hrec : ∀ key, (id, key) ∉ recs) (hname : name = authFile id)
      (hdir : a.lookup name ≠ some .dir) (h : a'.lookup name = none)

/-- A reconciliation, finished or not, has led from one content of the directory to the other. -/
def Reworked (recs : List (String × String)) (a a' : AuthDir) : Prop :=
  ∀ name, Touched recs a a' name

section Reworked

variable {recs : List (String × String)} {a a' a'' : AuthDir}

theorem Reworked.refl (recs : List (String × String)) (a : AuthDir) : Reworked recs a a :=
  fun _ => .kept rfl

/-- A directory is never replaced. -/
theorem Touched.dir_iff {name : String} (h : Touched recs a a' name) :
    a'.lookup name = some .dir ↔ a.lookup name = some .dir := by
  cases h with
  | kept h => rw [h]
  | written id key hrec hname hdir h => simp [h, hdir]
  | removed id hrec hname hdir h => simp [h, hdir]

theorem Reworked.trans (h : Reworked recs a a') (h' : Reworked recs a' a'') :
    Reworked recs a a'' := by
  intro name
  have hdir := (h name).dir_iff
  cases h' name with
  | kept hkept =>
    cases h name with
    | kept h => exact .kept (hkept.trans h)
    | written id key hrec hname hdir h => exact .written id key hrec hname hdir (hkept.trans h)
    | removed id hrec hname hdir h => exact .removed id hrec hname hdir (hkept.trans h)
  | written id key hrec hname hnot h => exact .written id key hrec hname (mt hdir.mpr hnot) h
  | removed id hrec hname hnot h => exact .removed id hrec hname (mt hdir.mpr hnot) h

theorem reworked_putFile {id key : String} (hrec : (id, key) ∈ recs)
    (h : putFile (authFile id) (authData key) a = some a') : Reworked recs a a' := by
  unfold putFile at h
  split at h
  next => cases h
  next => cases h
  next hdir _ =>
    cases h
    intro name
    by_cases heq : name = authFile id
    · subst heq
      exact .written id key hrec rfl hdir (AList.lookup_insert _)
    · exact .kept (AList.lookup_insert_ne heq)

theorem lookup_putFile {name data : String} (h : putFile name data a = some a') :
    a'.lookup name = some (.file data) ∧ ∀ other, other ≠ name → a'.lookup other = a.lookup other := by
  unfold putFile at h
  split at h
  next => cases h
  next => cases h
  next =>
    cases h
    exact ⟨AList.lookup_insert _, fun other hne => AList.lookup_insert_ne hne⟩

end Reworked

section Stale

variable {devices : List Device} {pending : Option PendingDevice} {a : AuthDir}

/-- The stale entries may be removed one after the other. -/
theorem reworked_eraseAll (hk : Keyed (records devices pending)) {names : List String}
    (hnames : ∀ name ∈ names, name ∈ stale (expected devices pending) a) :
    Reworked (records devices pending) a (eraseAll names a) := by
  intro name
  by_cases hmem : name ∈ names
  · obtain ⟨id, entry, hname, hentry, hdir, hnone⟩ := (mem_stale_iff hk).mp (hnames name hmem)
    refine .removed id hnone hname ?_ (by rw [lookup_eraseAll, if_pos hmem])
    rw [hentry]
    exact fun h => hdir (Option.some.inj h)
  · exact .kept (by rw [lookup_eraseAll, if_neg hmem])

end Stale

/-! ## The procedure -/

section Procedure

variable {E : Event → Prop} {w : World} {p : HsPath} {a : AuthDir} {recs : List (String × String)}

/-- Only the authorisations in one place have changed, as a reconciliation may change them. -/
def Reworking (recs : List (String × String)) (p : HsPath) (w : World) (a : AuthDir) (w' : World) :
    Prop :=
  ∃ a', w' = w.setAuth p a' ∧ Reworked recs a a'

/-- The first loop writes the files one after the other, until one cannot be written. -/
theorem wp_writeAll_reworked {keys : AList fun _ : String => String} {ids : List String}
    (ha : w.authAt p = some a) (hids : ∀ id ∈ ids, (id, keyFor keys id) ∈ recs) :
    wp E (forEach (fun id => writeAuthorization p id (keyFor keys id)) ids)
      (fun r w' => ∃ a', w' = w.setAuth p a' ∧ Reworked recs a a' ∧ (r = .ok () → ∀ id ∈ ids,
        a'.lookup (authFile id) = some (.file (authData (keyFor keys id)))))
      (Reworking recs p w a) w := by
  apply wp_forEach (I := fun done w' => ∃ a', w' = w.setAuth p a' ∧ Reworked recs a a' ∧
    ∀ id ∈ done, a'.lookup (authFile id) = some (.file (authData (keyFor keys id))))
  · rintro done id rest w' hxs ⟨a', rfl, hre, hdone⟩
    have ha' := World.authAt_setAuth (b := a') ha
    have hfailed : ∃ b, w.setAuth p a' = w.setAuth p b ∧ Reworked recs a b ∧
        ((.error .external : Except GoError Unit) = .ok () → ∀ id ∈ ids,
          b.lookup (authFile id) = some (.file (authData (keyFor keys id)))) :=
      ⟨a', rfl, hre, fun h => nomatch h⟩
    have hrec : (id, keyFor keys id) ∈ recs := hids id (by simp [hxs])
    -- a file that is written is one that may be replaced
    have heffect : ∀ w'', withAuth p (putFile (authFile id) (authData (keyFor keys id)))
        (w.setAuth p a') = some w'' → ∃ b, putFile (authFile id) (authData (keyFor keys id)) a' =
          some b ∧ w'' = w.setAuth p b := by
      intro w'' hw''
      rw [withAuth_eq ha', Option.map_eq_some_iff] at hw''
      obtain ⟨b, hb, rfl⟩ := hw''
      exact ⟨b, hb, World.setAuth_setAuth⟩
    unfold writeAuthorization
    split
    next => exact wp_fail ⟨a', rfl, hre, fun h => nomatch h⟩
    next =>
      apply wp_writeCall
      · exact fun _ => ⟨a', rfl, hre⟩
      · exact fun _ => hfailed
      · exact fun _ => hfailed
      · intro w'' _ hw''
        obtain ⟨b, hb, rfl⟩ := heffect w'' hw''
        exact ⟨b, rfl, hre.trans (reworked_putFile hrec hb), fun h => nomatch h⟩
      · intro w'' hw''
        obtain ⟨b, hb, rfl⟩ := heffect w'' hw''
        refine ⟨b, rfl, hre.trans (reworked_putFile hrec hb), fun id' hid' => ?_⟩
        by_cases heq : id' = id
        · rw [heq]
          exact (lookup_putFile hb).1
        · rw [(lookup_putFile hb).2 _ fun h => heq (authFile_inj.mp h)]
          exact hdone id' (by simpa [heq] using hid')
  · rintro w' ⟨a', rfl, hre, hall⟩
    exact ⟨a', rfl, hre, fun _ => hall⟩
  · exact ⟨a, (World.setAuth_self ha).symm, .refl recs a, by simp⟩

/-- A reconciliation touches only what it may, however it ends. When it succeeds, the files of the
given devices are listed and no others. -/
theorem wp_reconcile_reworked {devices : List Device} {pending : Option PendingDevice}
    (hk : Keyed (records devices pending)) (ha : w.authAt p = some a) :
    wp E (reconcile p devices pending)
      (fun r w' => ∃ a', w' = w.setAuth p a' ∧ Reworked (records devices pending) a a' ∧
        (r = .ok () → Listed (records devices pending) a'))
      (Reworking (records devices pending) p w a) w := by
  have hmem : ∀ id, id ∈ Caddy.sortStrings (expected devices pending).keys ↔
      ∃ key, (id, key) ∈ records devices pending := by
    intro id
    rw [Caddy.sortStrings, List.mem_insertionSort, ← AList.mem_keys, ← AList.lookup_isSome,
      Option.isSome_iff_exists]
    exact exists_congr fun key => lookup_expected hk id key
  have hids : ∀ id ∈ Caddy.sortStrings (expected devices pending).keys,
      (id, keyFor (expected devices pending) id) ∈ records devices pending := by
    intro id hid
    obtain ⟨key, hrec⟩ := (hmem id).mp hid
    rwa [keyFor_expected hk hrec]
  unfold reconcile
  refine wp_bind (wp_mono (wp_writeAll_reworked ha hids) ?_ fun _ h => h)
  rintro r w₁ ⟨a₁, rfl, hre₁, hwritten⟩
  have ha₁ := World.authAt_setAuth (b := a₁) ha
  have hstopped : ∀ err : GoError, ∃ b, w.setAuth p a₁ = w.setAuth p b ∧
      Reworked (records devices pending) a b ∧ ((.error err : Except GoError Unit) = .ok () →
        Listed (records devices pending) b) :=
    fun err => ⟨a₁, rfl, hre₁, fun h => by cases h⟩
  cases r with
  | error err => exact hstopped err
  | ok _ =>
    refine wp_bind (wp_readAuth ha₁ (fun _ => ⟨a₁, rfl, hre₁⟩) (fun _ => hstopped _) ?_)
    -- the second loop removes stale entries, of which those visited are gone
    refine wp_forEach (I := fun done w' => w' = w.setAuth p (eraseAll done a₁)) ?_ ?_ rfl
    · rintro done name rest w' hxs rfl
      have hre := hre₁.trans (reworked_eraseAll hk fun other hother => by
        rw [hxs]
        exact List.mem_append_left _ hother)
      refine wp_diskCall_some (fun _ => ⟨_, rfl, hre⟩) (fun _ => ⟨_, rfl, hre, fun h => by cases h⟩) ?_
      rw [either_ok, erasedEntry_eq (World.authAt_setAuth ha), World.setAuth_setAuth, eraseAll_concat]
    · rintro w' rfl
      refine ⟨_, rfl, hre₁.trans (reworked_eraseAll hk fun _ h => h), fun _ => ?_⟩
      refine listed_eraseAll_stale hk fun id key hrec => ?_
      rw [hwritten rfl id ((hmem id).mpr ⟨key, hrec⟩), keyFor_expected hk hrec]

end Procedure

/-! ## The result -/

/-- Nothing that belongs to a given device is lost: its file is as it was, or holds its key. -/
def Spared (recs : List (String × String)) (a a' : AuthDir) : Prop :=
  ∀ id key, (id, key) ∈ recs → a'.lookup (authFile id) = a.lookup (authFile id) ∨
    a'.lookup (authFile id) = some (.file (authData key))

/-- Directories and entries with other names are as they were. -/
structure Untouched (a a' : AuthDir) : Prop where
  name : ∀ name, hasSuffix name ".auth" = false → a'.lookup name = a.lookup name
  dir : ∀ name, a'.lookup name = some .dir ↔ a.lookup name = some .dir

section Result

variable {recs : List (String × String)} {a a' : AuthDir}

theorem Reworked.spared (hk : Keyed recs) (h : Reworked recs a a') : Spared recs a a' := by
  intro id key hrec
  cases h (authFile id) with
  | kept h => exact .inl h
  | written id' key' hrec' hname _ h =>
    cases authFile_inj.mp hname
    rw [hk.unique hrec hrec']
    exact .inr h
  | removed id' hnone hname _ _ =>
    cases authFile_inj.mp hname
    exact absurd hrec (hnone key)

theorem Reworked.untouched (h : Reworked recs a a') : Untouched a a' := by
  refine ⟨fun name hsuffix => ?_, fun name => (h name).dir_iff⟩
  have hne : ∀ id, name ≠ authFile id := by
    rintro id rfl
    rw [hasSuffix_authFile] at hsuffix
    cases hsuffix
  cases h name with
  | kept h => exact h
  | written id _ _ hname => exact absurd hname (hne id)
  | removed id _ hname => exact absurd hname (hne id)

/-- Where the files are listed already, there is nothing left to do. -/
theorem Listed.reworked (hk : Keyed recs) (hlisted : Listed recs a) (h : Reworked recs a a')
    (name : String) : a'.lookup name = a.lookup name := by
  cases h name with
  | kept h => exact h
  | written id key hrec hname _ h =>
    rw [h, ((hlisted name _).mpr ⟨id, key, hrec, hname, rfl⟩).2.2]
  | removed id hnone hname hdir h =>
    rw [h, eq_comm, Option.eq_none_iff_forall_ne_some]
    intro entry hentry
    have hother : entry ≠ .dir := fun heq => hdir (heq ▸ hentry)
    obtain ⟨id', key, hrec, hname', -⟩ :=
      (hlisted name entry).mp ⟨hname ▸ hasSuffix_authFile id, hother, hentry⟩
    exact hnone key (authFile_inj.mp (hname.symm.trans hname') ▸ hrec)

end Result

/-- Whatever the directory held: a reconciliation that succeeds leaves exactly the authorisation files
of the given devices and everything else alone, running it again changes nothing, and one that does
not succeed has neither removed nor spoilt the file of a given device. -/
theorem reconcile_exact {devices : List Device} {pending : Option PendingDevice}
    (hk : Keyed (records devices pending)) {w : World} {p : HsPath} {a : AuthDir}
    (ha : w.authAt p = some a) (env : ℕ → Event) (n : ℕ) :
    ∃ outcome a' n', (reconcile p devices pending).run env n w = (outcome, w.setAuth p a', n') ∧
      Spared (records devices pending) a a' ∧
      (outcome = .ok () → Listed (records devices pending) a' ∧ Untouched a a' ∧
        ∀ env' m, ∃ outcome' a'' m',
          (reconcile p devices pending).run env' m (w.setAuth p a') =
            (outcome', w.setAuth p a'', m') ∧
          ∀ name, a''.lookup name = a'.lookup name) := by
  -- what the procedure does, read at a run of it
  have hrun : ∀ {w : World} {a : AuthDir}, w.authAt p = some a → ∀ (env : ℕ → Event) (n : ℕ),
      ∃ outcome a' n', (reconcile p devices pending).run env n w = (outcome, w.setAuth p a', n') ∧
        Reworked (records devices pending) a a' ∧
        (outcome = .ok () → Listed (records devices pending) a') := by
    intro w a ha env n
    have hends := (wp_reconcile_reworked (E := fun _ => True) hk ha).at env n fun _ => trivial
    rcases hresult : (reconcile p devices pending).run env n w with ⟨outcome, w', n'⟩
    rw [hresult] at hends
    cases outcome with
    | ok _ =>
      obtain ⟨a', rfl, hre, hlisted⟩ := hends
      exact ⟨_, a', n', rfl, hre, fun _ => hlisted rfl⟩
    | error err =>
      obtain ⟨a', rfl, hre, -⟩ := hends
      exact ⟨_, a', n', rfl, hre, fun h => nomatch h⟩
    | crash =>
      obtain ⟨a', rfl, hre⟩ := hends
      exact ⟨_, a', n', rfl, hre, fun h => nomatch h⟩
  obtain ⟨outcome, a', n', hfirst, hre, hlisted⟩ := hrun ha env n
  refine ⟨outcome, a', n', hfirst, hre.spared hk, fun hok => ⟨hlisted hok, hre.untouched, ?_⟩⟩
  intro env' m
  obtain ⟨outcome', a'', m', hsecond, hre', -⟩ := hrun (World.authAt_setAuth ha) env' m
  rw [World.setAuth_setAuth] at hsecond
  exact ⟨outcome', a'', m', hsecond, (hlisted hok).reworked hk hre'⟩

/-- A directory with the file of another device, a subdirectory, a link and a file without a name
before the ending. -/
def clutteredAuth : AuthDir :=
  ((((∅ : AuthDir).insert "other.auth" (.file "")).insert "old.auth" .dir).insert
    "link.auth" .special).insert ".auth" (.file "")

/-- The sample system with that directory. -/
def clutteredWorld : World := sampleWorld.setAuth .active clutteredAuth

/-- Reconciling the cluttered directory succeeds, and leaves the file of the device and the
subdirectory. -/
theorem clutteredWorld_reconciled : ∃ a' n',
    (reconcile .active [sampleDevice] none).run (fun _ => Event.calm) 0 clutteredWorld =
        (.ok (), clutteredWorld.setAuth .active a', n') ∧
      Listed (records [sampleDevice] none) a' ∧ Untouched clutteredAuth a' := by
  have heval : ((reconcile .active [sampleDevice] none).run (fun _ => Event.calm) 0
      clutteredWorld).1.isOk = true := by
    decide +kernel
  have hk : Keyed (records [sampleDevice] none) := ⟨by decide, by decide, by decide⟩
  obtain ⟨outcome, a', n', hrun, -, hok⟩ := reconcile_exact hk (w := clutteredWorld)
    (p := .active) (a := clutteredAuth) rfl (fun _ => Event.calm) 0
  rw [hrun] at heval
  cases outcome with
  | error err => cases heval
  | crash => cases heval
  | ok _ =>
    obtain ⟨hlisted, huntouched, -⟩ := hok rfl
    exact ⟨a', n', hrun, hlisted, huntouched⟩

end Torkitten.Tor
