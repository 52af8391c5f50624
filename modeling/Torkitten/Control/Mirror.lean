import Torkitten.Control.Stored
import Torkitten.Bootstrap.Runtime
import Torkitten.Foundations.Run

/-!
# Tor runs with the stored state

SetPublication and the operations on devices write the files of Tor, let Tor read them, and store a
state. Each has its own way back: one for a reload that fails, which may have taken effect all the
same, and one for a state that cannot be stored. As long as the way back can be gone, the files are
those of the stored state after every operation, and Tor runs with them.

## Main definitions

* `TorMirrors`: the files of Tor are those of a state, and Tor runs with them;
* `Mended`: the events in which compensating actions succeed and failed writes have no effect.

## Main results

* `torMirrors_of_mirrorRun`: Tor runs with the stored state after every operation of a run.
-/

namespace Torkitten

open Proc Tor

/-! ## The files of a state -/

/-- The authorisation files are those of the devices of a state. -/
def Authorized (s : State) (w : World) : Prop :=
  ∃ a, w.authAt .active = some a ∧ Exact (records s.devices s.pending) a

/-- The configuration file is the one for a publication. -/
def Configured (rt : Runtime) (publication : Bool) (w : World) : Prop :=
  ∃ torrc, rt.tor.render publication = .ok torrc ∧ w.torrc = some torrc

/-- The files of Tor are those of a state, and Tor runs with them. -/
structure TorMirrors (rt : Runtime) (s : State) (w : World) : Prop where
  auth : Authorized s w
  torrc : Configured rt s.publication w
  running : w.tor = { torrc := w.torrc, service := w.dirs .active }

theorem torMirrors_reloaded {rt : Runtime} {s : State} {w : World} (hauth : Authorized s w)
    (htorrc : Configured rt s.publication w) : TorMirrors rt s w.reloaded :=
  ⟨hauth, htorrc, rfl⟩

section Exact

variable {recs recs' : List (String × String)} {a : AuthDir}

/-- The order of the records does not matter. -/
theorem Tor.Exact.congr (h : Exact recs a) (hrecs : ∀ r, r ∈ recs ↔ r ∈ recs') : Exact recs' a := by
  intro id entry
  simp only [← hrecs]
  exact h id entry

theorem Tor.Exact.authorize (h : Exact recs a) {id key : String}
    (hrecs : ∀ r, r ∈ recs' ↔ r = (id, key) ∨ r ∈ recs ∧ r.1 ≠ id) :
    Exact recs' (Tor.authorize id key a) := by
  intro id' entry
  by_cases hid : id' = id
  · subst hid
    rw [lookup_authorize]
    constructor
    · rintro ⟨⟩
      exact ⟨key, (hrecs _).mpr (.inl rfl), rfl⟩
    · rintro ⟨key', hmem, rfl⟩
      rcases (hrecs _).mp hmem with hsame | ⟨-, hne⟩
      · rw [(Prod.mk.inj hsame).2]
      · exact absurd rfl hne
  · rw [lookup_authorize_ne hid, h id' entry]
    refine exists_congr fun key' => and_congr_left fun _ => ?_
    rw [hrecs]
    constructor
    · exact fun hmem => .inr ⟨hmem, hid⟩
    · rintro (hsame | hmem)
      · exact absurd (Prod.mk.inj hsame).1 hid
      · exact hmem.1

theorem Tor.Exact.withdraw (h : Exact recs a) {id : String}
    (hrecs : ∀ r, r ∈ recs' ↔ r ∈ recs ∧ r.1 ≠ id) : Exact recs' (withdraw id a) := by
  intro id' entry
  by_cases hid : id' = id
  · subst hid
    rw [lookup_withdraw]
    constructor
    · rintro ⟨⟩
    · rintro ⟨key, hmem, -⟩
      exact absurd rfl ((hrecs _).mp hmem).2
  · rw [lookup_withdraw_ne hid, h id' entry]
    refine exists_congr fun key => and_congr_left fun _ => ?_
    rw [hrecs]
    exact ⟨fun hmem => ⟨hmem, hid⟩, fun hmem => hmem.1⟩

end Exact

/-! ## Events -/

/-- The process lives on, a write that fails has no effect, and what undoes an earlier step
succeeds. -/
structure Mended (e : Event) : Prop where
  lives : e.crash = false
  whole : e.disk.fails = true → e.disk.applied = false
  undoDisk : e.undoDisk.fails = false
  undoService : e.undoService.fails = false

section Mended

variable {Q : Except GoError Unit → World → Prop} {C : World → Prop} {w : World} {rt : Runtime}

theorem not_mayCrash_mended : ¬ MayCrash Mended := by
  rintro ⟨e, he, hc⟩
  rw [he.lives] at hc
  cases hc

theorem not_diskMayFail_mended : ¬ DiskMayFail (undone Mended) := by
  rintro ⟨_, ⟨e, he, rfl⟩, hf⟩
  rw [show e.undo.disk = e.undoDisk from rfl, he.undoDisk] at hf
  cases hf

theorem not_serviceMayFail_mended : ¬ ServiceMayFail (undone Mended) := by
  rintro ⟨_, ⟨e, he, rfl⟩, hf⟩
  rw [show e.undo.service = e.undoService from rfl, he.undoService] at hf
  cases hf

theorem not_applied_mended : ¬ ∃ e, Mended e ∧ e.disk.fails = true ∧ e.disk.applied = true := by
  rintro ⟨e, he, hf, ha⟩
  rw [he.whole hf] at ha
  cases ha

theorem not_mayCrash_undone : ¬ MayCrash (undone Mended) :=
  fun h => not_mayCrash_mended (mayCrash_undone.mp h)

theorem not_applied_undone :
    ¬ ∃ e, undone Mended e ∧ e.disk.fails = true ∧ e.disk.applied = true :=
  fun ⟨e, he, hf, _⟩ => not_diskMayFail_mended ⟨e, he, hf⟩

theorem wp_reload_undone (h : Q (.ok ()) w.reloaded) : wp (undone Mended) reload Q C w :=
  wp_serviceCall (fun hc => absurd hc not_mayCrash_undone)
    (fun hf => absurd hf not_serviceMayFail_mended) (fun hf => absurd hf not_serviceMayFail_mended) h

theorem wp_writeConfig_undone {publication : Bool} {torrc : Torrc}
    (hrender : rt.tor.render publication = .ok torrc) (h : Q (.ok ()) { w with torrc := some torrc }) :
    wp (undone Mended) (rt.tor.writeConfig publication) Q C w := by
  unfold Paths.writeConfig
  rw [hrender]
  refine wp_writeCall (fun hc => absurd hc not_mayCrash_undone)
    (fun hf => absurd hf not_diskMayFail_mended) nofun
    (fun _ ha _ => absurd ha not_applied_undone) ?_
  rintro _ ⟨⟩
  exact h

theorem wp_writeConfig_mended {publication : Bool} (herr : ∀ err, Q (.error err) w)
    (h : ∀ torrc, rt.tor.render publication = .ok torrc → Q (.ok ()) { w with torrc := some torrc }) :
    wp Mended (rt.tor.writeConfig publication) Q C w := by
  unfold Paths.writeConfig
  cases hrender : rt.tor.render publication with
  | error err => exact wp_fail (herr err)
  | ok torrc =>
    refine wp_writeCall (fun hc => absurd hc not_mayCrash_mended) (fun _ => herr _)
      (fun _ => herr _) (fun _ ha _ => absurd ha not_applied_mended) ?_
    rintro _ ⟨⟩
    exact h torrc hrender

end Mended

/-! ## The operations -/

section Operations

variable {β : Type} {rt : Runtime} {s : State} {w : World}

/-- What the function of a transition leaves: the files of the new state, and a way back to those of
the old one. -/
structure Mirroring (rt : Runtime) (s : State) (change : Change World Event β) (w : World) : Prop where
  next : TorMirrors rt change.next w
  back : ∀ err : GoError, Store.Undone Mended (fun (_ : Except GoError β) => TorMirrors rt s)
    (fun _ => False) change.rollback err w

theorem Held.wp_mirroring {fn : State → Op (Change World Event β)} (hw : Held w s)
    (h : wp Mended (fn s) (either (Mirroring rt s) fun _ => TorMirrors rt s) (fun _ => False) w) :
    wp Mended (worldStore.transition (some fn))
      (either (fun _ w' => TorMirrors rt w'.value w') fun _ => TorMirrors rt s) (fun _ => False) w := by
  refine hw.wp_transition (wp_mono h ?_ fun _ hc => hc)
  intro r w' hr
  cases r with
  | error err => exact hr
  | ok change =>
    refine wp_worldCommit ?_ (fun hc => not_mayCrash_mended hc) ?_
    · intro err
      have hback := hr.back err
      cases hrollback : change.rollback with
      | none =>
        rw [hrollback] at hback
        exact hback
      | some rollback =>
        rw [hrollback] at hback
        refine wp_mono hback ?_ fun _ hc => hc
        intro r w'' hr
        cases r with
        | ok _ => exact hr
        | error rollbackErr => exact hr
    · exact fun _ _ _ => ⟨hr.next.auth, hr.next.torrc, hr.next.running⟩

theorem Mirroring.of_wp {change : Change World Event β} {rollback : Op Unit}
    (hrollback : change.rollback = some rollback) (hnext : TorMirrors rt change.next w)
    (hback : wp Mended rollback (fun _ => TorMirrors rt s) (fun _ => False) w) :
    Mirroring rt s change w := by
  refine ⟨hnext, fun err => ?_⟩
  rw [hrollback]
  exact Store.Undone.of_wp hback (fun _ _ h => h) err

/-- A reload with the way back when it fails. It does not matter whether Tor has read the files. -/
theorem wp_reload_orUndo {P : β → World → Prop} {rollback : Op Unit} {k : Unit → Op β}
    (hback : ∀ w', w'.dirs = w.dirs → w'.torrc = w.torrc →
      wp Mended rollback (fun _ => TorMirrors rt s) (fun _ => False) w')
    (hok : wp Mended (k ()) (either P fun _ => TorMirrors rt s) (fun _ => False) w.reloaded) :
    wp Mended (Store.orUndo rollback reload >>= k) (either P fun _ => TorMirrors rt s)
      (fun _ => False) w := by
  refine wp_bind (Store.wp_orUndo
    (wp_serviceCall (fun hc => absurd hc not_mayCrash_mended) ?_ ?_ hok))
  · exact fun _ => Store.Undone.of_wp (hback w rfl rfl) (fun _ _ h => h) _
  · exact fun _ => Store.Undone.of_wp (hback w.reloaded rfl rfl) (fun _ _ h => h) _

theorem Authorized.of_dirs {w' : World} (h : Authorized s w) (hdirs : w'.dirs = w.dirs) :
    Authorized s w' := by
  obtain ⟨a, ha, hexact⟩ := h
  exact ⟨a, by rw [World.authAt, hdirs]; exact ha, hexact⟩

theorem TorMirrors.publicationChange (h : TorMirrors rt s w) (enabled : Bool) :
    wp Mended (rt.publicationChange enabled s)
      (either (Mirroring rt s) fun _ => TorMirrors rt s) (fun _ => False) w := by
  obtain ⟨torrc, hrender, htorrc⟩ := h.torrc
  -- writing the old configuration again makes the files those of the state
  have hback : ∀ w' : World, w'.dirs = w.dirs →
      TorMirrors rt s ({ w' with torrc := some torrc } : World).reloaded := fun w' hdirs =>
    torMirrors_reloaded (h.auth.of_dirs hdirs) ⟨torrc, hrender, rfl⟩
  unfold Runtime.publicationChange
  dsimp only
  split
  next => exact wp_fail h
  next =>
    refine wp_bind (wp_writeConfig_mended (fun _ => h) fun torrc' hrender' => ?_)
    refine wp_bind (wp_attempt ((keeps_validate (f := fun w => w)).step ?_
      fun hc => absurd hc not_mayCrash_mended))
    rintro r _ rfl
    rw [either_ok]
    cases r with
    | error err =>
      refine wp_bind (wp_undoing (wp_ignore (wp_writeConfig_undone hrender (wp_fail ?_))))
      -- Tor has not read the rejected configuration
      exact ⟨h.auth, ⟨torrc, hrender, rfl⟩, h.running.trans (by rw [htorrc])⟩
    | ok _ =>
      refine wp_reload_orUndo ?_ (wp_pure (.of_wp rfl
        (torMirrors_reloaded h.auth ⟨torrc', hrender', rfl⟩) ?_))
      · exact fun w₂ hdirs _ => wp_undoing (wp_bind (wp_ignore (wp_writeConfig_undone hrender
          (wp_reload_undone (hback w₂ hdirs)))))
      · exact wp_undoing (wp_bind (wp_writeConfig_undone hrender (wp_reload_undone (hback _ rfl))))

/-- Writing an authorisation back, as a compensating action does. -/
theorem wp_writeAuthorization_undone {Q : Except GoError Unit → World → Prop} {C : World → Prop}
    {id key : String} {a : AuthDir} (ha : w.authAt .active = some a) (hplain : PlainFiles a)
    (hid : idRE id = true) (hkey : keyRE key = true)
    (h : Q (.ok ()) (w.setAuth .active (Tor.authorize id key a))) :
    wp (undone Mended) (writeAuthorization .active id key) Q C w :=
  wp_writeAuthorization ha hplain (by simp [hid, hkey]) (fun hc => absurd hc not_mayCrash_undone)
    (fun hf => absurd hf not_diskMayFail_mended) (fun ha => absurd ha not_applied_undone) h

/-- The end of RevokeDevice and ExpirePending: the authorisation goes, and comes back where the new
state is not stored. -/
theorem TorMirrors.revoking (h : TorMirrors rt s w) (hvalid : s.Valid) {id key : String}
    {candidate : State} (hmem : (id, key) ∈ records s.devices s.pending)
    (hcandidate : ∀ r, r ∈ records candidate.devices candidate.pending ↔
      r ∈ records s.devices s.pending ∧ r.1 ≠ id)
    (hpublication : candidate.publication = s.publication) :
    wp Mended (Torkitten.revoking id key candidate)
      (either (Mirroring rt s) fun _ => TorMirrors rt s) (fun _ => False) w := by
  obtain ⟨a, ha, hexact⟩ := h.auth
  have hkeyed := hvalid.keyed
  have hid : idRE id = true := hkeyed.id _ hmem
  have hkey : keyRE key = true := hkeyed.key _ hmem
  have hwithdrawn : (w.setAuth .active (withdraw id a)).authAt .active = some (withdraw id a) :=
    World.authAt_setAuth ha
  have hplain : PlainFiles (withdraw id a) := hexact.plainFiles.erase _
  -- the record is the only one with its identifier, so putting it back gives the old files
  have hrestored : Exact (records s.devices s.pending) (Tor.authorize id key (withdraw id a)) := by
    refine (hexact.withdraw hcandidate).authorize fun r => ?_
    rw [hcandidate]
    constructor
    · intro hr
      by_cases hrid : r.1 = id
      · exact .inl (Prod.ext hrid (hkeyed.unique (hrid ▸ hr) hmem))
      · exact .inr ⟨⟨hr, hrid⟩, hrid⟩
    · rintro (rfl | hr)
      · exact hmem
      · exact hr.1.1
  have hback : ∀ w' : World, w'.dirs = (w.setAuth .active (withdraw id a)).dirs → w'.torrc = w.torrc →
      w'.authAt .active = some (withdraw id a) ∧
        TorMirrors rt s (w'.setAuth .active (Tor.authorize id key (withdraw id a))).reloaded := by
    intro w' hdirs htorrc
    have ha' : w'.authAt .active = some (withdraw id a) := by
      rw [World.authAt, hdirs]
      exact hwithdrawn
    refine ⟨ha', torMirrors_reloaded ⟨_, World.authAt_setAuth ha', hrestored⟩ ?_⟩
    obtain ⟨torrc, hrender, hfile⟩ := h.torrc
    exact ⟨torrc, hrender, htorrc.trans hfile⟩
  unfold Torkitten.revoking
  refine wp_bind (wp_removeAuthorization ha (fun _ => h) (fun hc => absurd hc not_mayCrash_mended)
    (fun _ => h) ?_)
  rw [either_ok]
  refine wp_reload_orUndo ?_ (wp_pure (.of_wp rfl (torMirrors_reloaded ?_ ?_) ?_))
  · intro w' hdirs htorrc
    obtain ⟨ha', hmirrors⟩ := hback w' hdirs htorrc
    exact wp_undoing (wp_bind (wp_ignore (wp_writeAuthorization_undone ha' hplain hid hkey
      (wp_reload_undone hmirrors))))
  · exact ⟨_, hwithdrawn, hexact.withdraw hcandidate⟩
  · rw [show (changed candidate _ ()).next = candidate from rfl, hpublication]
    exact h.torrc
  · obtain ⟨ha', hmirrors⟩ := hback (w.setAuth .active (withdraw id a)).reloaded rfl rfl
    exact wp_undoing (wp_bind (wp_writeAuthorization_undone ha' hplain hid hkey
      (wp_reload_undone hmirrors)))

theorem TorMirrors.revokeChange (h : TorMirrors rt s w) (hvalid : s.Valid) (henc : s.Encodable)
    (id : String) : wp Mended (Torkitten.revokeChange id s)
      (either (Mirroring rt s) fun _ => TorMirrors rt s) (fun _ => False) w := by
  unfold Torkitten.revokeChange
  rw [clone_of_encodable henc]
  dsimp only
  split
  next => exact wp_fail h
  next removed hremoved =>
    split
    next => exact wp_fail h
    next =>
      split
      next => exact wp_fail h
      next hcandidate =>
        obtain ⟨hmem, hid⟩ := List.mem_filter.mp (List.mem_of_getLast? hremoved)
        have hid : removed.id = id := by simpa using hid
        refine h.revoking hvalid (List.mem_append_left _ (List.mem_map.mpr ⟨removed, hmem, ?_⟩)) ?_ rfl
        · rw [hid]
        intro r
        -- the pending device has another identifier than the one that goes
        have hpending : ∀ d, s.pending = some d → d.id ≠ id := by
          intro d hd heq
          refine (hvalid.wellFormed.pending d hd).2 ?_
          rw [heq, ← hid]
          exact List.mem_map.mpr ⟨removed, hmem, rfl⟩
        simp only [records, List.mem_append, List.mem_map, List.mem_filter, bne_iff_ne, ne_eq,
          Option.mem_toList]
        constructor
        · rintro (⟨d, ⟨hd, hne⟩, rfl⟩ | ⟨d, hd, rfl⟩)
          · exact ⟨.inl ⟨d, hd, rfl⟩, hne⟩
          · exact ⟨.inr ⟨d, hd, rfl⟩, hpending d hd⟩
        · rintro ⟨⟨d, hd, rfl⟩ | ⟨d, hd, rfl⟩, hne⟩
          · exact .inl ⟨d, ⟨hd, hne⟩, rfl⟩
          · exact .inr ⟨d, hd, rfl⟩

/-- Whatever the clock says, Tor runs with the same files. -/
theorem TorMirrors.elapsed (h : TorMirrors rt s w) (d : ℕ) :
    TorMirrors rt s { w with clock := w.clock + d } :=
  ⟨h.auth, h.torrc, h.running⟩

theorem TorMirrors.expireChange (h : TorMirrors rt s w) (hvalid : s.Valid) (henc : s.Encodable) :
    wp Mended (Torkitten.expireChange s) (either (Mirroring rt s) fun _ => TorMirrors rt s)
      (fun _ => False) w := by
  unfold Torkitten.expireChange
  rw [clone_of_encodable henc]
  split
  next => exact wp_pure ⟨h, fun _ => h⟩
  next pending hpending =>
    refine wp_bind (wp_now fun d => ?_)
    rw [either_ok]
    split
    next => exact wp_pure ⟨h.elapsed d, fun _ => h.elapsed d⟩
    next =>
      refine (h.elapsed d).revoking hvalid (List.mem_append_right _ ?_) ?_ rfl
      · exact List.mem_map.mpr ⟨pending, Option.mem_toList.mpr hpending, rfl⟩
      intro r
      have hdevice : ∀ x ∈ s.devices, x.id ≠ pending.id := fun x hx heq =>
        (hvalid.wellFormed.pending pending hpending).2 (List.mem_map.mpr ⟨x, hx, heq⟩)
      simp only [records, List.mem_append, List.mem_map, Option.mem_toList, hpending,
        Option.toList_none, List.map_nil, List.not_mem_nil, or_false]
      constructor
      · rintro ⟨x, hx, rfl⟩
        exact ⟨.inl ⟨x, hx, rfl⟩, hdevice x hx⟩
      · rintro ⟨⟨x, hx, rfl⟩ | ⟨x, hx, rfl⟩, hne⟩
        · exact ⟨x, hx, rfl⟩
        · cases hx
          exact absurd rfl hne

theorem TorMirrors.acknowledgeChange (h : TorMirrors rt s w) (id : String) :
    wp Mended (Torkitten.acknowledgeChange id s) (either (Mirroring rt s) fun _ => TorMirrors rt s)
      (fun _ => False) w := by
  unfold Torkitten.acknowledgeChange
  split
  next => exact wp_fail h
  next pending hpending =>
    split
    next => exact wp_fail h
    next =>
      refine wp_bind (wp_now fun d => ?_)
      rw [either_ok]
      split
      next => exact wp_fail (h.elapsed d)
      next =>
        refine wp_bind (wp_now fun d' => wp_pure ⟨?_, fun _ => (h.elapsed d).elapsed d'⟩)
        obtain ⟨a, ha, hexact⟩ := h.auth
        -- the acknowledged device has the file of the pending one
        refine ⟨⟨a, ha, hexact.congr fun r => ?_⟩, h.torrc, h.running⟩
        simp [records, changed, hpending]

/-- The end of CreateDevice: the authorisation is written, and goes again where the pending device is
not stored. -/
theorem TorMirrors.authorizing (h : TorMirrors rt s w) (hfree : s.pending = none)
    {pending : PendingDevice} (hvalid : ({ s with pending := some pending } : State).Valid)
    (result : β) :
    wp Mended (do
        let withdraw := undoing do
          ignore (removeAuthorization .active pending.id)
          reload
        Store.orUndo withdraw do
          writeAuthorization .active pending.id pending.publicKey
          reload
        return changed { s with pending := some pending } (some withdraw) result)
      (either (Mirroring rt s) fun _ => TorMirrors rt s) (fun _ => False) w := by
  obtain ⟨a, ha, hexact⟩ := h.auth
  have hkeyed := hvalid.keyed
  have hmem : (pending.id, pending.publicKey) ∈ records s.devices (some pending) := by simp [records]
  have hid : idRE pending.id = true := hkeyed.id _ hmem
  have hkey : keyRE pending.publicKey = true := hkeyed.key _ hmem
  -- no device has the new identifier
  have hnew : ∀ r ∈ records s.devices s.pending, r.1 ≠ pending.id := by
    rintro r hr heq
    have hr' : r ∈ s.devices.map fun d => (d.id, d.publicKey) := by simpa [records, hfree] using hr
    obtain ⟨d, hd, rfl⟩ := List.mem_map.mp hr'
    exact (hvalid.wellFormed.pending pending rfl).2 (List.mem_map.mpr ⟨d, hd, heq⟩)
  have hadded : Exact (records s.devices (some pending)) (Tor.authorize pending.id pending.publicKey a) := by
    refine hexact.authorize fun r => ?_
    have hsplit : r ∈ records s.devices (some pending) ↔
        r = (pending.id, pending.publicKey) ∨ r ∈ records s.devices s.pending := by
      simp [records, hfree, or_comm]
    rw [hsplit]
    exact or_congr_right ⟨fun hr => ⟨hr, hnew r hr⟩, fun hr => hr.1⟩
  -- taking the file away gives the old files, whether or not it has been written
  have hback : ∀ (w' : World) (a' : AuthDir), w'.authAt .active = some a' →
      (a' = a ∨ a' = Tor.authorize pending.id pending.publicKey a) → w'.torrc = w.torrc →
      wp Mended (undoing do
        ignore (removeAuthorization .active pending.id)
        reload) (fun _ => TorMirrors rt s) (fun _ => False) w' := by
    intro w' a' ha' hfiles htorrc
    have hold : Exact (records s.devices s.pending) (withdraw pending.id a') := by
      rcases hfiles with rfl | rfl
      · exact hexact.withdraw fun r => ⟨fun hr => ⟨hr, hnew r hr⟩, fun hr => hr.1⟩
      · refine hadded.withdraw fun r => ?_
        simp only [records, hfree, Option.toList_none, List.map_nil, List.append_nil,
          Option.toList_some, List.map_cons, List.mem_append, List.mem_singleton]
        constructor
        · intro hr
          exact ⟨.inl hr, hnew r (by simpa [records, hfree] using hr)⟩
        · rintro ⟨hr | rfl, hne⟩
          · exact hr
          · exact absurd rfl hne
    refine wp_undoing (wp_bind (wp_ignore (wp_removeAuthorization ha' ?_ ?_ ?_ ?_)))
    · intro hbad
      rw [hid] at hbad
      cases hbad
    · exact fun hc => absurd hc not_mayCrash_undone
    · exact fun hf => absurd hf not_diskMayFail_mended
    · refine wp_reload_undone (torMirrors_reloaded ⟨_, World.authAt_setAuth ha', hold⟩ ?_)
      obtain ⟨torrc, hrender, hfile⟩ := h.torrc
      exact ⟨torrc, hrender, htorrc.trans hfile⟩
  have hwritten : (w.setAuth .active (Tor.authorize pending.id pending.publicKey a)).authAt .active =
      some (Tor.authorize pending.id pending.publicKey a) := World.authAt_setAuth ha
  refine wp_bind (Store.wp_orUndo (wp_bind (wp_writeAuthorization ha hexact.plainFiles
    (by simp [hid, hkey]) (fun hc => absurd hc not_mayCrash_mended) ?_
    (fun happlied => absurd happlied not_applied_mended) ?_)))
  · exact fun _ => .of_wp (hback w a ha (.inl rfl) rfl) (fun _ _ h => h) _
  · refine wp_serviceCall (fun hc => absurd hc not_mayCrash_mended) ?_ ?_ ?_
    · exact fun _ => .of_wp (hback _ _ hwritten (.inr rfl) rfl) (fun _ _ h => h) _
    · exact fun _ => .of_wp (hback (World.reloaded (w.setAuth .active
        (Tor.authorize pending.id pending.publicKey a))) _ hwritten (.inr rfl) rfl) (fun _ _ h => h) _
    · refine wp_pure (.of_wp rfl (torMirrors_reloaded ⟨_, hwritten, hadded⟩ h.torrc) ?_)
      exact hback _ _ hwritten (.inr rfl) rfl

theorem TorMirrors.createDeviceChange (h : TorMirrors rt s w) (name : String) :
    wp Mended (Torkitten.createDeviceChange name s)
      (either (Mirroring rt s) fun _ => TorMirrors rt s) (fun _ => False) w := by
  unfold Torkitten.createDeviceChange
  split
  next => exact wp_fail h
  next hready =>
    have hfree : s.pending = none := by
      simp only [Bool.or_eq_true, not_or, Bool.not_eq_true, Option.isSome_eq_false_iff,
        Option.isNone_iff_eq_none] at hready
      exact hready.1.2
    refine wp_bind (wp_randomBytes h fun idRaw _ => ?_)
    refine wp_bind (wp_bind (wp_generateKey h fun keys => wp_pure ?_))
    refine wp_bind (wp_now fun d => ?_)
    dsimp only [either_ok]
    split
    next => exact wp_fail (h.elapsed d)
    next hvalid =>
      split
      next => exact wp_fail (h.elapsed d)
      next => exact (h.elapsed d).authorizing hfree hvalid _

theorem TorMirrors.expirePending (h : TorMirrors rt s w) (hw : Held w s) (hvalid : s.Valid) :
    wp Mended Torkitten.expirePending
      (either (fun _ w' => TorMirrors rt w'.value w') fun _ => TorMirrors rt s) (fun _ => False) w := by
  unfold Torkitten.expirePending viewState
  refine wp_bind (wp_bind (wp_get (wp_pure ?_)))
  dsimp only [either_ok]
  split
  next => exact wp_pure (hw.value.symm ▸ h)
  next =>
    refine wp_bind (wp_now fun d => ?_)
    rw [either_ok]
    split
    next => exact wp_pure (hw.value.symm ▸ h.elapsed d)
    next =>
      have hw' := hw.of_since ((World.Since.refl w).elapsed d)
      exact hw'.wp_mirroring ((h.elapsed d).expireChange hvalid hw.encodable)

end Operations

/-! ## Runs -/

/-- A call of one of the operations. -/
inductive TorCall where
  | setPublication (enabled : Bool)
  | createDevice (name : String)
  | acknowledgeDevice (id : String)
  | revokeDevice (id : String)
  | expirePending
  deriving DecidableEq, Repr

/-- What a call runs. -/
def TorCall.op (rt : Runtime) : TorCall → Op Unit
  | .setPublication enabled => rt.setPublication enabled
  | .createDevice name => do
    let _ ← Torkitten.createDevice name
    return ()
  | .acknowledgeDevice id => Torkitten.acknowledgeDevice id
  | .revokeDevice id => Torkitten.revokeDevice id
  | .expirePending => Torkitten.expirePending

/-- The store holds a valid state, and Tor runs with it. -/
def InTune (rt : Runtime) (w : World) : Prop := ∃ s, Held w s ∧ s.Valid ∧ TorMirrors rt s w

/-- A call, with the events met. -/
def TorStep (rt : Runtime) (w : World) (l : TorCall × (ℕ → Event)) (w' : World) : Prop :=
  (∀ i, Mended (l.2 i)) ∧ ((l.1.op rt).run l.2 0 w).2.1 = w'

/-- The runs on a system in which Tor runs with the stored state. -/
abbrev MirrorRun (rt : Runtime) : List (TorCall × (ℕ → Event)) → World → Prop :=
  Run (InTune rt) (TorStep rt)

section Runs

variable {rt : Runtime} {w w' : World}

theorem InTune.of_commits {β : Type} {op : Op β} {R : State → β → State → Prop} {s : State}
    (hcommits : Commits op R) (hw : Held w s) (hvalid : s.Valid)
    (hop : wp Mended op (either (fun _ w' => TorMirrors rt w'.value w') fun _ => TorMirrors rt s)
      (fun _ => False) w) :
    wp Mended op (fun _ => InTune rt) (fun _ => False) w := by
  refine wp_mono (wp_and (hcommits Mended s w hw) hop) ?_ fun _ hc => hc.2
  rintro r w' ⟨hstored, hmirrors⟩
  cases r with
  | ok b =>
    obtain ⟨s', -, hvalid', hw', -⟩ := hstored
    exact ⟨s', hw', hvalid' hvalid, hw'.value ▸ hmirrors⟩
  | error err => exact ⟨s, hw.of_since hstored, hvalid, hmirrors⟩

theorem InTune.call (h : InTune rt w) (call : TorCall) :
    wp Mended (call.op rt) (fun _ => InTune rt) (fun _ => False) w := by
  obtain ⟨s, hw, hvalid, hmirrors⟩ := h
  cases call with
  | setPublication enabled =>
    exact InTune.of_commits (commits_setPublication rt enabled) hw hvalid
      (hw.wp_mirroring (hmirrors.publicationChange enabled))
  | createDevice name =>
    refine wp_bind (wp_mono (InTune.of_commits (commits_createDevice name) hw hvalid
      (hw.wp_mirroring (hmirrors.createDeviceChange name))) ?_ fun _ hc => hc)
    intro r w' hr
    cases r with
    | ok b => exact wp_pure hr
    | error err => exact hr
  | acknowledgeDevice id =>
    exact InTune.of_commits (commits_acknowledgeDevice id) hw hvalid
      (hw.wp_mirroring (hmirrors.acknowledgeChange id))
  | revokeDevice id =>
    exact InTune.of_commits (commits_revokeDevice id) hw hvalid
      (hw.wp_mirroring (hmirrors.revokeChange hvalid hw.encodable id))
  | expirePending =>
    exact InTune.of_commits commits_expirePending hw hvalid (hmirrors.expirePending hw hvalid)

theorem InTune.step (h : InTune rt w) {l : TorCall × (ℕ → Event)} (hstep : TorStep rt w l w') :
    InTune rt w' := by
  obtain ⟨hmended, rfl⟩ := hstep
  exact (wp_mono (h.call l.1) (fun _ _ hw => hw) fun _ hc => hc.elim).leaves l.2 0 hmended

/-- The network is on in a configuration exactly when it is one for a publication. -/
theorem network_lines (p : Paths) (publication : Bool) :
    Torrc.network (p.lines publication) = publication := by
  cases publication with
  | false => rfl
  | true => rfl

/-- After every operation, the files of Tor are those of the stored state and Tor runs with them; its
network is on only if there is an owner with an acknowledged device. -/
theorem torMirrors_of_mirrorRun {ls : List (TorCall × (ℕ → Event))} (r : MirrorRun rt ls w) :
    TorMirrors rt w.value w ∧
      (w.tor.torrc.any Torrc.network = true → w.value.initialized = true ∧ w.value.devices ≠ []) := by
  have htune : InTune rt w :=
    r.invariant (I := fun _ => InTune rt) (fun _ hw => hw) fun _ _ _ _ hw hstep => hw.step hstep
  obtain ⟨s, hw, hvalid, hmirrors⟩ := htune
  rw [hw.value]
  refine ⟨hmirrors, fun hnetwork => hvalid.wellFormed.publication ?_⟩
  obtain ⟨torrc, hrender, htorrc⟩ := hmirrors.torrc
  have hlines : torrc = rt.tor.lines s.publication := by
    unfold Paths.render at hrender
    split at hrender
    · cases hrender
    · exact (Except.ok.inj hrender).symm
  rw [hmirrors.running, htorrc, hlines] at hnetwork
  rw [← hnetwork]
  exact (network_lines rt.tor s.publication).symm

end Runs

/-- The sample system is in tune. -/
theorem inTune_sampleWorld : InTune sampleRuntime sampleWorld := by
  refine ⟨sampleOwner, ⟨rfl, ⟨none, rfl⟩, ⟨_, rfl⟩⟩, by decide +kernel, ⟨_, rfl, ?_⟩,
    ⟨_, ?_, rfl⟩, rfl⟩
  · have hempty : Exact [] ∅ := by
      intro id entry
      simp
    refine hempty.authorize fun r => ?_
    simp [records, sampleOwner, newState]
  · have hsafe : sampleRuntime.tor.safe = true := by decide +kernel
    simp [Paths.render, hsafe, sampleOwner]

/-- Only the third call fails, and it takes effect all the same. -/
def lateFailure (i : ℕ) : Event :=
  { Event.calm with service := { fails := i == 2, applied := true } }

theorem mended_lateFailure (i : ℕ) : Mended (lateFailure i) := ⟨rfl, nofun, rfl, rfl⟩

/-- Stopping the publication fails at the reload, and Tor runs with the stored state again. -/
theorem stopped_torMirrors :
    ((sampleRuntime.setPublication false).run lateFailure 0 sampleWorld).1.isOk = false ∧
      ∃ w, MirrorRun sampleRuntime [(.setPublication false, lateFailure)] w ∧
        TorMirrors sampleRuntime w.value w := by
  have r : MirrorRun sampleRuntime [(.setPublication false, lateFailure)] _ :=
    .next (.start inTune_sampleWorld) ⟨mended_lateFailure, rfl⟩
  exact ⟨by decide +kernel, _, r, (torMirrors_of_mirrorRun r).1⟩

end Torkitten
