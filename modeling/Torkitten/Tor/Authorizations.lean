import Torkitten.Model.Validation
import Torkitten.Tor.Paths

/-!
# What the authorisation files say

The functions that change `authorized_clients` change nothing else. After a reconciliation the
authorisation files are exactly those of the given devices, whatever was there before, as long as
only regular files have the names of authorisation files.
-/

namespace Torkitten

open Proc

/-- The `authorized_clients` directory of a hidden service directory. -/
def World.authAt (w : World) (p : HsPath) : Option AuthDir := (w.dirs p).bind HsDir.auth

/-- Replace the `authorized_clients` directory. -/
def World.setAuth (w : World) (p : HsPath) (auth : AuthDir) : World :=
  w.setDir p ((w.dirs p).map fun d => { d with auth := some auth })

namespace World

variable {w : World} {p : HsPath} {a b : AuthDir}

theorem setAuth_setAuth : (w.setAuth p a).setAuth p b = w.setAuth p b := by
  simp [setAuth, setDir, Option.map_map, Function.comp_def]

theorem setAuth_self (h : w.authAt p = some a) : w.setAuth p a = w := by
  unfold authAt at h
  cases hd : w.dirs p with
  | none => simp [hd] at h
  | some d =>
    simp only [hd, Option.bind_some] at h
    have hda : { d with auth := some a } = d := by rw [← h]
    simp only [setAuth, setDir, hd, Option.map_some, hda]
    rw [← hd, Function.update_eq_self]

theorem authAt_setAuth (h : w.authAt p = some a) : (w.setAuth p b).authAt p = some b := by
  unfold authAt at h ⊢
  cases hd : w.dirs p with
  | none => simp [hd] at h
  | some d => simp [setAuth, hd]

end World

namespace Tor

/-! ## Names of authorisation files -/

theorem trimSuffix_append (v ending : String) : trimSuffix (v ++ ending) ending = v := by
  simp [trimSuffix, hasSuffix]

theorem hasSuffix_append (v ending : String) : hasSuffix (v ++ ending) ending = true := by
  simp [hasSuffix]

theorem trimSuffix_authFile (id : String) : trimSuffix (authFile id) ".auth" = id :=
  trimSuffix_append id ".auth"

theorem hasSuffix_authFile (id : String) : hasSuffix (authFile id) ".auth" = true :=
  hasSuffix_append id ".auth"

theorem authFile_inj {a b : String} : authFile a = authFile b ↔ a = b := by
  constructor
  · intro h
    rw [← trimSuffix_authFile a, h, trimSuffix_authFile]
  · rintro rfl
    rfl

/-- A name with the ending of authorisation files is the name of one. -/
theorem eq_authFile_of_hasSuffix {name : String} (h : hasSuffix name ".auth" = true) :
    name = authFile (trimSuffix name ".auth") := by
  have hsuffix : ".auth".toList <:+ name.toList := by simpa [hasSuffix] using h
  obtain ⟨front, hfront⟩ := hsuffix
  have hname : name = String.ofList front ++ ".auth" := by
    rw [← String.toList_inj, String.toList_append, String.toList_ofList]
    exact hfront.symm
  rw [hname, authFile, trimSuffix_append]

/-! ## Contents of the directory -/

/-- Only regular files have the names of authorisation files. -/
def PlainFiles (a : AuthDir) : Prop :=
  ∀ id, a.lookup (authFile id) ≠ some .dir ∧ a.lookup (authFile id) ≠ some .special

/-- Authorise a device. -/
def authorize (id publicKey : String) (a : AuthDir) : AuthDir :=
  a.insert (authFile id) (.file (authData publicKey))

/-- Withdraw the authorisation of a device. -/
def withdraw (id : String) (a : AuthDir) : AuthDir := a.erase (authFile id)

/-- The authorisation files are exactly those of the records, and nothing else has such a name. -/
def Exact (records : List (String × String)) (a : AuthDir) : Prop :=
  ∀ id entry, a.lookup (authFile id) = some entry ↔
    ∃ key, (id, key) ∈ records ∧ entry = .file (authData key)

theorem plainFiles_empty : PlainFiles ∅ := by
  intro id
  simp

theorem lookup_authorize (id key : String) (a : AuthDir) :
    (authorize id key a).lookup (authFile id) = some (.file (authData key)) :=
  AList.lookup_insert a

theorem lookup_authorize_ne {id id' : String} (h : id' ≠ id) (key : String) (a : AuthDir) :
    (authorize id key a).lookup (authFile id') = a.lookup (authFile id') :=
  AList.lookup_insert_ne fun heq => h (authFile_inj.mp heq)

theorem lookup_withdraw (id : String) (a : AuthDir) :
    (withdraw id a).lookup (authFile id) = none :=
  AList.lookup_erase _ a

theorem lookup_withdraw_ne {id id' : String} (h : id' ≠ id) (a : AuthDir) :
    (withdraw id a).lookup (authFile id') = a.lookup (authFile id') :=
  AList.lookup_erase_ne fun heq => h (authFile_inj.mp heq)

theorem PlainFiles.authorize {a : AuthDir} (h : PlainFiles a) (id key : String) :
    PlainFiles (authorize id key a) := by
  intro id'
  by_cases heq : id' = id
  · subst heq
    simp [lookup_authorize]
  · rw [lookup_authorize_ne heq]
    exact h id'

theorem PlainFiles.erase {a : AuthDir} (h : PlainFiles a) (name : String) : PlainFiles (a.erase name) := by
  intro id
  by_cases heq : authFile id = name
  · rw [heq, AList.lookup_erase]
    simp
  · rw [AList.lookup_erase_ne heq]
    exact h id

theorem Exact.plainFiles {records : List (String × String)} {a : AuthDir} (h : Exact records a) :
    PlainFiles a := by
  have hfile : ∀ id entry, a.lookup (authFile id) = some entry → ∃ data, entry = .file data := by
    intro id entry hentry
    obtain ⟨key, _, rfl⟩ := (h id entry).mp hentry
    exact ⟨_, rfl⟩
  exact fun id => ⟨fun hdir => (nomatch hfile id _ hdir), fun hspecial => (nomatch hfile id _ hspecial)⟩

/-! ## The expected keys -/

/-- Records as a valid state has them: well-formed identifiers and keys, no identifier twice. -/
structure Keyed (records : List (String × String)) : Prop where
  id : ∀ r ∈ records, idRE r.1 = true
  key : ∀ r ∈ records, keyRE r.2 = true
  nodup : (records.map Prod.fst).Nodup

theorem Keyed.unique {recs : List (String × String)} (h : Keyed recs) {id key key' : String}
    (hk : (id, key) ∈ recs) (hk' : (id, key') ∈ recs) : key = key' :=
  congrArg Prod.snd (List.inj_on_of_nodup_map h.nodup hk hk' rfl)

theorem lookup_foldl_insert {recs : List (String × String)} (hnodup : (recs.map Prod.fst).Nodup)
    (m : AList fun _ : String => String) (id key : String) :
    (recs.foldl (fun m r => m.insert r.1 r.2) m).lookup id = some key ↔
      (id, key) ∈ recs ∨ id ∉ recs.map Prod.fst ∧ m.lookup id = some key := by
  induction recs generalizing m with
  | nil => simp
  | cons r rest ih =>
    rw [List.map_cons, List.nodup_cons] at hnodup
    rw [List.foldl_cons, ih hnodup.2]
    by_cases heq : id = r.1
    · subst heq
      have hnot : ∀ k, (r.1, k) ∉ rest := fun k hk =>
        hnodup.1 (List.mem_map.mpr ⟨_, hk, rfl⟩)
      simp only [hnot, hnodup.1, AList.lookup_insert, not_false_eq_true, true_and, false_or,
        List.mem_cons, List.map_cons, Option.some.injEq, not_true_eq_false, false_and,
        or_false]
      constructor
      · rintro rfl
        rfl
      · intro h
        rw [← h]
    · have hpair : (id, key) ≠ r := fun h => heq (congrArg Prod.fst h)
      simp [AList.lookup_insert_ne heq, heq, hpair]

theorem lookup_expected {devices : List Device} {pending : Option PendingDevice}
    (h : Keyed (records devices pending)) (id key : String) :
    (expected devices pending).lookup id = some key ↔ (id, key) ∈ records devices pending := by
  unfold expected
  rw [lookup_foldl_insert h.nodup]
  simp

/-- Remove several entries. -/
def eraseAll (names : List String) (a : AuthDir) : AuthDir :=
  names.foldl (fun a name => a.erase name) a

theorem eraseAll_concat (names : List String) (name : String) (a : AuthDir) :
    eraseAll (names ++ [name]) a = (eraseAll names a).erase name := by
  simp [eraseAll]

theorem lookup_eraseAll (names : List String) (a : AuthDir) (name : String) :
    (eraseAll names a).lookup name = if name ∈ names then none else a.lookup name := by
  induction names generalizing a with
  | nil => simp [eraseAll]
  | cons first names ih =>
    change (eraseAll names (a.erase first)).lookup name = _
    rw [ih]
    by_cases heq : name = first
    · subst heq
      simp
    · rw [AList.lookup_erase_ne heq]
      simp [heq]

theorem PlainFiles.eraseAll {a : AuthDir} (h : PlainFiles a) (names : List String) :
    PlainFiles (eraseAll names a) := by
  intro id
  rw [lookup_eraseAll]
  split
  · simp
  · exact h id

theorem keyRE_ne_empty {key : String} (h : keyRE key = true) : key ≠ "" := by
  rintro rfl
  exact absurd h (by decide)

/-! ## The stale entries -/

/-- Apart from directories, the entries with the names of authorisation files are exactly those of the
records. -/
def Listed (recs : List (String × String)) (a : AuthDir) : Prop :=
  ∀ name entry, (hasSuffix name ".auth" = true ∧ entry ≠ .dir ∧ a.lookup name = some entry) ↔
    ∃ id key, (id, key) ∈ recs ∧ name = authFile id ∧ entry = .file (authData key)

section Stale

variable {devices : List Device} {pending : Option PendingDevice} {a : AuthDir}

theorem keyFor_expected (hk : Keyed (records devices pending)) {id key : String}
    (h : (id, key) ∈ records devices pending) : keyFor (expected devices pending) id = key := by
  rw [keyFor, (lookup_expected hk id key).mpr h]
  rfl

/-- Nothing is expected of a device that is not given. -/
theorem keyFor_expected_eq_empty_iff (hk : Keyed (records devices pending)) {id : String} :
    keyFor (expected devices pending) id = "" ↔ ∀ key, (id, key) ∉ records devices pending := by
  constructor
  · intro h key hrec
    rw [keyFor_expected hk hrec] at h
    exact keyRE_ne_empty (hk.key _ hrec) h
  · intro h
    have hnone : (expected devices pending).lookup id = none := by
      rw [Option.eq_none_iff_forall_ne_some]
      exact fun key hkey => h key ((lookup_expected hk id key).mp hkey)
    rw [keyFor, hnone]
    rfl

theorem mem_stale_iff (hk : Keyed (records devices pending)) {name : String} :
    name ∈ stale (expected devices pending) a ↔ ∃ id entry, name = authFile id ∧
      a.lookup name = some entry ∧ entry ≠ .dir ∧ ∀ key, (id, key) ∉ records devices pending := by
  have hkeys : name ∈ a.keys ↔ ∃ entry, a.lookup name = some entry := by
    rw [← AList.mem_keys, ← AList.lookup_isSome, Option.isSome_iff_exists]
  simp only [stale, List.mem_filter, hkeys, Bool.and_eq_true, bne_iff_ne, ne_eq, beq_iff_eq,
    keyFor_expected_eq_empty_iff hk]
  constructor
  · rintro ⟨⟨entry, hentry⟩, ⟨hsuffix, hdir⟩, hnone⟩
    exact ⟨_, entry, eq_authFile_of_hasSuffix hsuffix, hentry, fun h => hdir (h ▸ hentry), hnone⟩
  · rintro ⟨id, entry, rfl, hentry, hdir, hnone⟩
    refine ⟨⟨entry, hentry⟩, ⟨hasSuffix_authFile id, fun h => ?_⟩, ?_⟩
    · rw [hentry] at h
      exact hdir (Option.some.inj h)
    · rwa [trimSuffix_authFile]

/-- Once every expected file is written, removing the stale ones leaves the expected files. -/
theorem listed_eraseAll_stale (hk : Keyed (records devices pending))
    (hwritten : ∀ id key, (id, key) ∈ records devices pending →
      a.lookup (authFile id) = some (.file (authData key))) :
    Listed (records devices pending) (eraseAll (stale (expected devices pending) a) a) := by
  intro name entry
  rw [lookup_eraseAll]
  constructor
  · rintro ⟨hsuffix, hdir, hentry⟩
    split at hentry
    next => cases hentry
    next hfresh =>
      -- the entry was not removed, so it belongs to a device
      have hname := eq_authFile_of_hasSuffix hsuffix
      obtain ⟨key, hrec⟩ : ∃ key, (trimSuffix name ".auth", key) ∈ records devices pending := by
        by_contra hnone
        exact hfresh ((mem_stale_iff hk).mpr ⟨_, entry, hname, hentry, hdir, not_exists.mp hnone⟩)
      refine ⟨_, key, hrec, hname, ?_⟩
      rw [hname, hwritten _ _ hrec] at hentry
      exact (Option.some.inj hentry).symm
  · rintro ⟨id, key, hrec, rfl, rfl⟩
    refine ⟨hasSuffix_authFile id, by simp, ?_⟩
    rw [if_neg, hwritten id key hrec]
    intro hmem
    obtain ⟨id', -, hname, -, -, hnone⟩ := (mem_stale_iff hk).mp hmem
    exact hnone key (authFile_inj.mp hname ▸ hrec)

/-- Where only regular files have the names of authorisation files, they are all accounted for. -/
theorem Listed.exact {recs : List (String × String)} (h : Listed recs a) (hd : PlainFiles a) :
    Exact recs a := by
  intro id entry
  constructor
  · intro hentry
    have hne : entry ≠ .dir := fun heq => (hd id).1 (heq ▸ hentry)
    obtain ⟨id', key, hrec, hname, rfl⟩ := (h _ _).mp ⟨hasSuffix_authFile id, hne, hentry⟩
    cases authFile_inj.mp hname
    exact ⟨key, hrec, rfl⟩
  · rintro ⟨key, hrec, rfl⟩
    exact ((h _ _).mpr ⟨id, key, hrec, rfl, rfl⟩).2.2

end Stale

/-! ## Procedures -/

section Procedures

variable {E : Event → Prop} {Q : Except GoError Unit → World → Prop} {C : World → Prop}
  {w : World} {p : HsPath} {a : AuthDir}

theorem withAuth_eq (ha : w.authAt p = some a) (change : AuthDir → Option AuthDir) :
    withAuth p change w = (change a).map (w.setAuth p) := by
  unfold World.authAt at ha
  unfold withAuth World.setAuth
  cases hd : w.dirs p with
  | none => simp [hd] at ha
  | some d =>
    simp only [hd, Option.bind_some] at ha
    cases hc : change a <;> simp [ha, hc]

theorem withAuth_none (ha : w.authAt p = none) (change : AuthDir → Option AuthDir) :
    withAuth p change w = none := by
  unfold World.authAt at ha
  unfold withAuth
  cases hd : w.dirs p with
  | none => rfl
  | some d =>
    simp only [hd, Option.bind_some] at ha
    simp [ha]

theorem putFile_eq (hd : PlainFiles a) (id publicKey : String) :
    putFile (authFile id) (authData publicKey) a = some (authorize id publicKey a) := by
  unfold putFile
  split
  next h => exact absurd h (hd id).1
  next h => exact absurd h (hd id).2
  next => rfl

theorem erasedEntry_eq (ha : w.authAt p = some a) (name : String) :
    erasedEntry p name w = w.setAuth p (a.erase name) := by
  unfold erasedEntry
  rw [withAuth_eq ha]
  rfl

theorem wp_writeAuthorization {id publicKey : String} (ha : w.authAt p = some a) (hd : PlainFiles a)
    (hrefused : (!idRE id || !keyRE publicKey) = true →
      Q (.error (.new "invalid Tor authorization record")) w)
    (hcrash : MayCrash E → C w) (hfail : DiskMayFail E → Q (.error .external) w)
    (happlied : (∃ e, E e ∧ e.disk.fails = true ∧ e.disk.applied = true) →
      Q (.error .external) (w.setAuth p (authorize id publicKey a)))
    (hok : Q (.ok ()) (w.setAuth p (authorize id publicKey a))) :
    wp E (writeAuthorization p id publicKey) Q C w := by
  have heffect : withAuth p (putFile (authFile id) (authData publicKey)) w =
      some (w.setAuth p (authorize id publicKey a)) := by
    rw [withAuth_eq ha, putFile_eq hd, Option.map_some]
  unfold writeAuthorization
  split
  next h => exact wp_fail (hrefused h)
  next =>
    apply wp_writeCall hcrash hfail
    · intro hnone
      rw [heffect] at hnone
      cases hnone
    · intro w' hex hw'
      rw [heffect] at hw'
      cases hw'
      exact happlied hex
    · intro w' hw'
      rw [heffect] at hw'
      cases hw'
      exact hok

theorem wp_removeAuthorization {id : String} (ha : w.authAt p = some a)
    (hrefused : idRE id = false → Q (.error (.new "invalid device id")) w)
    (hcrash : MayCrash E → C w) (hfail : DiskMayFail E → Q (.error .external) w)
    (hok : Q (.ok ()) (w.setAuth p (withdraw id a))) :
    wp E (removeAuthorization p id) Q C w := by
  unfold removeAuthorization
  split
  next h => exact wp_fail (hrefused (by simpa using h))
  next =>
    apply wp_diskCall_some hcrash hfail
    rw [erasedEntry_eq ha]
    exact hok

theorem wp_readAuth {Q : Except GoError AuthDir → World → Prop} (ha : w.authAt p = some a)
    (hcrash : MayCrash E → C w) (hfail : DiskMayFail E → Q (.error .external) w)
    (hok : Q (.ok a) w) : wp E (readAuth p) Q C w := by
  have ha' : (w.dirs p).bind HsDir.auth = some a := ha
  apply wp_ask
  intro e he
  simp only [ha']
  split
  next hc => exact hcrash ⟨e, he, hc⟩
  next =>
    split
    next hf => exact hfail ⟨e, he, hf⟩
    next => exact hok

/-- Only the authorisations of one directory have changed, and they are regular files. -/
def Reauthorized (p : HsPath) (w w' : World) : Prop := ∃ a, PlainFiles a ∧ w' = w.setAuth p a

/-- What a reconciliation leaves: when it succeeds, exactly the files of the records; and it
succeeds when the file system does. -/
structure Reconciled (E : Event → Prop) (p : HsPath) (recs : List (String × String)) (w : World)
    (r : Except GoError Unit) (w' : World) : Prop where
  reauthorized : Reauthorized p w w'
  exact : Keyed recs → r = .ok () → ∃ a, w'.authAt p = some a ∧ Exact recs a
  succeeds : Keyed recs → ¬ DiskMayFail E → r = .ok ()

/-- The first loop of `Reconcile`: the files of the given identifiers are written. -/
theorem wp_writeAll (keys : AList fun _ : String => String) (ids : List String)
    (ha : w.authAt p = some a) (hd : PlainFiles a)
    (hcrash : ∀ w', MayCrash E → Reauthorized p w w' → C w')
    (hfail : ∀ err w', Reauthorized p w w' →
      (DiskMayFail E ∨ ∃ id ∈ ids, (!idRE id || !keyRE (keyFor keys id)) = true) →
      Q (.error err) w')
    (hok : ∀ a', PlainFiles a' →
      (∀ id ∈ ids, a'.lookup (authFile id) = some (.file (authData (keyFor keys id)))) →
      Q (.ok ()) (w.setAuth p a')) :
    wp E (forEach (fun id => writeAuthorization p id (keyFor keys id)) ids) Q C w := by
  -- the files of the identifiers visited so far are written
  apply wp_forEach (I := fun done w' => ∃ a', PlainFiles a' ∧ w' = w.setAuth p a' ∧
    ∀ id ∈ done, a'.lookup (authFile id) = some (.file (authData (keyFor keys id))))
  · rintro done id rest w' hids ⟨a', hd', rfl, hdone⟩
    have ha' := World.authAt_setAuth (b := a') ha
    have hafter : Reauthorized p w ((w.setAuth p a').setAuth p (authorize id (keyFor keys id) a')) :=
      ⟨_, hd'.authorize id _, World.setAuth_setAuth⟩
    apply wp_writeAuthorization ha' hd'
    · exact fun h => hfail _ _ ⟨a', hd', rfl⟩ (.inr ⟨id, by simp [hids], h⟩)
    · exact fun hc => hcrash _ hc ⟨a', hd', rfl⟩
    · exact fun hf => hfail _ _ ⟨a', hd', rfl⟩ (.inl hf)
    · exact fun ⟨e, he, hf, _⟩ => hfail _ _ hafter (.inl ⟨e, he, hf⟩)
    · refine ⟨_, hd'.authorize id _, World.setAuth_setAuth, ?_⟩
      intro id' hid'
      by_cases heq : id' = id
      · subst heq
        exact lookup_authorize _ _ _
      · rw [lookup_authorize_ne heq]
        refine hdone id' ?_
        simpa [heq] using hid'
  · rintro w' ⟨a', hd', rfl, hall⟩
    exact hok a' hd' hall
  · exact ⟨a, hd, (World.setAuth_self ha).symm, by simp⟩

/-- The second loop of `Reconcile`: the given entries are removed. -/
theorem wp_eraseAll (names : List String) (ha : w.authAt p = some a) (hd : PlainFiles a)
    (hcrash : ∀ w', MayCrash E → Reauthorized p w w' → C w')
    (hfail : ∀ w', DiskMayFail E → Reauthorized p w w' → Q (.error .external) w')
    (hok : Q (.ok ()) (w.setAuth p (eraseAll names a))) :
    wp E (forEach (fun name => diskCall fun w => some (erasedEntry p name w)) names) Q C w := by
  apply wp_forEach (I := fun done w' => w' = w.setAuth p (eraseAll done a))
  · rintro done name rest w' - rfl
    have ha' := World.authAt_setAuth (b := eraseAll done a) ha
    have hre : Reauthorized p w (w.setAuth p (eraseAll done a)) := ⟨_, hd.eraseAll done, rfl⟩
    apply wp_diskCall_some
    · exact fun hc => hcrash _ hc hre
    · exact fun hf => hfail _ hf hre
    · rw [either_ok, erasedEntry_eq ha', World.setAuth_setAuth, eraseAll_concat]
  · rintro w' rfl
    exact hok
  · exact (World.setAuth_self ha).symm

theorem wp_reconcile (devices : List Device) (pending : Option PendingDevice)
    (ha : w.authAt p = some a) (hd : PlainFiles a) :
    wp E (reconcile p devices pending) (Reconciled E p (records devices pending) w)
      (fun w' => MayCrash E ∧ Reauthorized p w w') w := by
  have hmem : ∀ id, id ∈ Caddy.sortStrings (expected devices pending).keys ↔
      id ∈ expected devices pending := by
    intro id
    rw [Caddy.sortStrings, List.mem_insertionSort, AList.mem_keys]
  unfold reconcile
  apply wp_bind
  apply wp_writeAll _ _ ha hd
  · exact fun w' hc hre => ⟨hc, hre⟩
  · -- a write fails only with the file system or on a record that is not well formed
    intro err w' hre hwhy
    refine ⟨hre, fun _ h => (nomatch h), fun hk hdisk => ?_⟩
    rcases hwhy with hf | ⟨id, hid, hbad⟩
    · exact absurd hf hdisk
    · obtain ⟨key, hkey⟩ := Option.isSome_iff_exists.mp (AList.lookup_isSome.mpr ((hmem id).mp hid))
      have hrec := (lookup_expected hk id key).mp hkey
      have hkf : keyFor (expected devices pending) id = key := by rw [keyFor, hkey]; rfl
      rw [hkf, hk.id _ hrec, hk.key _ hrec] at hbad
      cases hbad
  · intro a' hd' hwritten
    have ha' := World.authAt_setAuth (b := a') ha
    have hre : Reauthorized p w (w.setAuth p a') := ⟨a', hd', rfl⟩
    apply wp_bind
    apply wp_readAuth ha'
    · exact fun hc => ⟨hc, hre⟩
    · exact fun hf => ⟨hre, fun _ h => (nomatch h), fun _ hdisk => absurd hf hdisk⟩
    · apply wp_eraseAll _ ha' hd'
      · rintro w' hc ⟨a'', hd'', rfl⟩
        exact ⟨hc, a'', hd'', World.setAuth_setAuth⟩
      · rintro w' hf ⟨a'', hd'', rfl⟩
        exact ⟨⟨a'', hd'', World.setAuth_setAuth⟩, fun _ h => (nomatch h),
          fun _ hdisk => absurd hf hdisk⟩
      · refine ⟨⟨_, hd'.eraseAll _, World.setAuth_setAuth⟩, fun hk _ => ?_, fun _ _ => rfl⟩
        refine ⟨_, World.authAt_setAuth ha', (listed_eraseAll_stale hk ?_).exact (hd'.eraseAll _)⟩
        intro id key hrec
        have hkey := (lookup_expected hk id key).mpr hrec
        have hkf : keyFor (expected devices pending) id = key := by rw [keyFor, hkey]; rfl
        have hid : id ∈ expected devices pending := by
          rw [← AList.lookup_isSome, hkey]
          rfl
        rw [hwritten id ((hmem id).mpr hid), hkf]

/-- A reconciliation that succeeds leaves no file of a device that it does not expect. -/
theorem wp_reconcile_unexpected {devices : List Device} {pending : Option PendingDevice} {id : String}
    (hid : keyFor (expected devices pending) id = "") :
    wp E (reconcile p devices pending)
      (either (fun _ w' => ∀ a text, w'.authAt p = some a →
        a.lookup (authFile id) ≠ some (.file text)) fun _ _ => True) (fun _ => True) w := by
  refine wp_bind (wp_of_forall (fun r w₁ => ?_) fun _ => trivial)
  cases r with
  | error err => trivial
  | ok _ =>
    refine wp_bind (wp_ask fun e _ => ?_)
    split
    · trivial
    split
    · trivial
    split
    · trivial
    next auth hauth =>
      -- the directory holds what it held, without the entries that have been removed
      refine wp_forEach (I := fun done w' => w' = w₁.setAuth p (eraseAll done auth)) ?_ ?_
        (World.setAuth_self hauth).symm
      · rintro done name rest w' - rfl
        refine wp_diskCall_some (fun _ => trivial) (fun _ => trivial) ?_
        rw [either_ok, erasedEntry_eq (World.authAt_setAuth hauth), World.setAuth_setAuth,
          eraseAll_concat]
      · rintro w' rfl a text ha hfile
        rw [World.authAt_setAuth hauth] at ha
        cases ha
        rw [lookup_eraseAll] at hfile
        split at hfile
        · cases hfile
        next hkept =>
          refine hkept (List.mem_filter.mpr ⟨AList.mem_keys.mp ?_, ?_⟩)
          · exact AList.lookup_isSome.mp (by rw [hfile]; rfl)
          · simp [hasSuffix_authFile, trimSuffix_authFile, hfile, hid]

end Procedures

end Tor

end Torkitten
