import Torkitten.Control.Identity

/-!
# Starting the daemon

What a restart does before it serves anything: `state.Open` and the steps of `PrepareRuntime` that
concern Tor. The files of Authelia and Caddy, which `PrepareRuntime` also makes sure of, are not
part of it.
-/

namespace Torkitten

open Proc Tor

/-- `state.Open` of a state file that exists. -/
def openStore : Op Unit := do
  let w ← get
  match w.durable.validate with
  | some err => .fail (.wrap "validate state" err)
  | none => .modify fun w => { w with value := { w.durable with bootstrap := none } }

/-- The steps of `PrepareRuntime` that concern Tor. -/
def prepareTor (p : Paths) (current : State) : Op Unit := do
  p.ensure .active
  recoverIdentity current.serviceID
  reconcile .active current.devices current.pending
  p.writeConfig current.publication

/-- The start of the daemon. -/
def Runtime.restart (rt : Runtime) : Op Unit := do
  openStore
  let current ← viewState
  prepareTor rt.tor current

/-! ## Preparing Tor -/

/-- Tor's files are those of the state: the identity, no backup of another one, exactly the
authorisations of the devices, and the configuration. -/
structure Prepared (p : Paths) (s : State) (w : World) : Prop where
  active : Holds w .active s.serviceID
  previous : w.dirs .previous = none
  auth : ∃ a, w.authAt .active = some a ∧ Exact (records s.devices s.pending) a
  torrc : w.torrc = some (p.lines s.publication)

theorem State.Valid.keyed {s : State} (h : s.Valid) : Keyed (records s.devices s.pending) := by
  have hwf := h.wellFormed
  have hdevice : ∀ d ∈ s.devices, idRE d.id = true ∧ keyRE d.publicKey = true := by
    intro d hd
    have := hwf.device d hd
    simp only [Device.wellFormed, Bool.and_eq_true] at this
    exact ⟨this.1.1.1.1, this.1.1.2⟩
  have hpending : ∀ d, s.pending = some d → idRE d.id = true ∧ keyRE d.publicKey = true := by
    intro d hd
    have := (hwf.pending d hd).1
    simp only [PendingDevice.wellFormed, Bool.and_eq_true] at this
    exact ⟨this.1.1.1.1.1, this.1.1.1.2⟩
  have hrecord : ∀ r ∈ records s.devices s.pending, idRE r.1 = true ∧ keyRE r.2 = true := by
    intro r hr
    rcases List.mem_append.mp hr with hr | hr
    · obtain ⟨d, hd, rfl⟩ := List.mem_map.mp hr
      exact hdevice d hd
    · obtain ⟨d, hd, rfl⟩ := List.mem_map.mp hr
      exact hpending d (Option.mem_toList.mp hd)
  refine ⟨fun r hr => (hrecord r hr).1, fun r hr => (hrecord r hr).2, ?_⟩
  rw [records, List.map_append, List.map_map, List.map_map]
  cases hp : s.pending with
  | none => simpa [Function.comp_def] using hwf.deviceIDs
  | some d =>
    rw [List.nodup_append]
    refine ⟨hwf.deviceIDs, by simp, ?_⟩
    intro a ha b hb
    have hb' : b = d.id := by simpa using hb
    rw [hb']
    rintro rfl
    exact (hwf.pending d hp).2 ha

section Prepare

variable {E : Event → Prop} {p : Paths} {s : State} {w : World}

/-- Preparing Tor succeeds when the file system does, from wherever the identity is kept. -/
theorem wp_prepareTor (hid : s.serviceID ≠ "") (hkeyed : Keyed (records s.devices s.pending))
    (h : Kept s.serviceID w) :
    wp E (prepareTor p s)
      (fun r w' => Kept s.serviceID w' ∧ (r = .ok () → Prepared p s w') ∧
        (p.safe = true → ¬ DiskMayFail E → r = .ok ()))
      (fun w' => MayCrash E ∧ Kept s.serviceID w') w := by
  unfold prepareTor
  by_cases hsafe : p.safe = true
  swap
  · -- paths that are not safe are refused before anything is done
    rw [Paths.ensure, if_pos (by simpa using hsafe)]
    exact wp_bind (wp_fail ⟨h, fun h => (by cases h), fun hs => absurd hs hsafe⟩)
  refine wp_bind (wp_ensure ?_ ?_ ?_)
  · intro hunsafe
    rw [hsafe] at hunsafe
    cases hunsafe
  · intro w' hw'
    have hkept : Kept s.serviceID w' := by
      rcases hw' with rfl | rfl | rfl
      · exact h
      · exact h.ensuredDir
      · exact h.ensuredAuth
    exact ⟨fun hc => ⟨hc, hkept⟩, fun hf _ =>
      ⟨hkept, fun h => (by cases h), fun _ hd => absurd hf hd⟩⟩
  refine wp_bind (wp_recoverIdentity hid h.ensuredAuth (by simp [ensuredAuth]) ?_ ?_ ?_)
  rotate_left
  · exact fun hf err w' hw' => ⟨hw', fun h => (by cases h), fun _ hd => absurd hf hd⟩
  · exact fun w' hc hw' => ⟨hc, hw'⟩
  intro w₁ hholds hswept
  -- the identity is active; what follows changes only its authorisations
  obtain ⟨a, ha, hnodirs⟩ := hholds.authAt
  refine wp_bind (wp_mono (wp_reconcile s.devices s.pending ha hnodirs) ?_ ?_)
  rotate_left
  · rintro w' ⟨hc, a', ha', rfl⟩
    exact ⟨hc, .of_active (hholds.setAuth ha')⟩
  intro r w₂ hr
  obtain ⟨a', ha', rfl⟩ := hr.reauthorized
  have hactive : Holds (w₁.setAuth .active a') .active s.serviceID := hholds.setAuth ha'
  have hkept := Kept.of_active hactive
  cases r with
  | error err => exact ⟨hkept, fun h => (by cases h), fun _ hd => by cases hr.succeeds hkeyed hd⟩
  | ok _ =>
    have hrender : p.render s.publication = .ok (p.lines s.publication) := by
      simp [Paths.render, hsafe]
    rw [either_ok, Paths.writeConfig, hrender]
    have hlast : ∀ torrc, Kept s.serviceID { w₁.setAuth .active a' with torrc } :=
      fun torrc => hkept.of_dirs rfl rfl
    apply wp_writeCall
    · exact fun hc => ⟨hc, hkept⟩
    · exact fun hf => ⟨hkept, fun h => (by cases h), fun _ hd => absurd hf hd⟩
    · exact fun hnone => by cases hnone
    · rintro w' ⟨e, he, hf, _⟩ ⟨⟩
      exact ⟨hlast _, fun h => (by cases h), fun _ hd => absurd ⟨e, he, hf⟩ hd⟩
    · rintro w' ⟨⟩
      refine ⟨hlast _, fun _ => ⟨hactive.of_dirs rfl, ?_, ?_, rfl⟩, fun _ _ => rfl⟩
      · change (w₁.setAuth .active a').dirs .previous = none
        rw [← hswept.previous]
        simp [World.setAuth]
      · exact hr.exact hkeyed rfl

theorem keeps_stores_prepareTor :
    Keeps E (MayCrash E) World.stores (prepareTor p s) := by
  have h := ignores_stores
  unfold prepareTor
  refine keeps_bind (keeps_ensure h trivial p) fun _ => ?_
  refine keeps_bind
    (keeps_recoverIdentity h trivial trivial trivial (fun _ => trivial) _) fun _ => ?_
  refine keeps_bind (keeps_reconcile h trivial _ _) fun _ => ?_
  exact keeps_writeConfig (fun _ _ => rfl) p _

/-- A restart leaves the durable state and its identity alone. When it succeeds, the files of Tor
are those of the durable state; and it succeeds when its paths are safe and the file system
does. -/
theorem wp_restart (rt : Runtime) (ok : Prop) (h : Grounded w) :
    wp E rt.restart
      (fun r w' => Grounded w' ∧ w'.durable = w.durable ∧
        (r = .ok () → Steady ok w' ∧ Prepared rt.tor w'.durable w') ∧
        (rt.tor.safe = true → ¬ DiskMayFail E → r = .ok ()))
      (fun w' => MayCrash E ∧ Grounded w') w := by
  have hvalid : w.durable.validate = none := h.valid
  have hencodable := h.encodable.dropBootstrap
  let w₁ : World := { w with value := { w.durable with bootstrap := none } }
  have hgrounded : ∀ w' : World, w'.stores = w₁.stores → Kept w.durable.serviceID w' →
      Grounded w' := by
    intro w' hw' hkept
    have hdurable : w'.durable = w.durable := congrArg (fun x => x.1) hw'
    have hused : w'.used = w.used := congrArg (fun x => x.2.2) hw'
    exact ⟨hdurable ▸ hkept, by rw [hdurable, hused]; exact h.used, hdurable ▸ h.named,
      hdurable ▸ h.valid, hdurable ▸ h.encodable⟩
  unfold Runtime.restart openStore
  refine wp_bind (wp_bind (wp_get ?_))
  rw [either_ok, hvalid]
  refine wp_modify (wp_bind (wp_bind (wp_get (wp_pure ?_))))
  change wp E (prepareTor rt.tor (clone w₁.value)) _ _ w₁
  rw [clone_of_encodable hencodable]
  apply keeps_stores_prepareTor.with
  refine wp_mono (wp_prepareTor h.named h.valid.keyed (h.kept.of_dirs rfl rfl)) ?_ ?_
  · rintro r w' ⟨hkept, hprepared, hsucceeds⟩ hw'
    have hdurable : w'.durable = w.durable := congrArg (fun x => x.1) hw'
    have hvalue : w'.value = { w.durable with bootstrap := none } := congrArg (fun x => x.2.1) hw'
    refine ⟨hgrounded w' hw' hkept, hdurable, fun hr => ?_, hsucceeds⟩
    have hp := hprepared hr
    refine ⟨⟨hgrounded w' hw' hkept, fun _ => hdurable ▸ hp.active, ⟨none, ?_⟩, ?_⟩, ?_⟩
    · rw [hvalue, hdurable]
    · rw [hvalue]
      exact hencodable
    · rw [hdurable]
      exact ⟨hp.active, hp.previous, hp.auth, hp.torrc⟩
  · exact fun w' hw' hstores => ⟨hw'.1, hgrounded w' hstores hw'.2⟩

/-- A start that succeeds has left no authorisation of a device that is not stored. -/
theorem wp_restart_unlisted (rt : Runtime) {id : String} {b : Option BootstrapWindow}
    (hdurable : w.durable = { s with bootstrap := b }) (hvalid : s.Valid) (hencodable : s.Encodable)
    (hid : id ∉ (records s.devices s.pending).map Prod.fst) :
    wp E rt.restart
      (either (fun _ w' => ∀ a text, w'.authAt .active = some a →
        a.lookup (authFile id) ≠ some (.file text)) fun _ _ => True) (fun _ => True) w := by
  have hnone : keyFor (expected s.devices s.pending) id = "" := by
    have hlookup : (expected s.devices s.pending).lookup id = none := by
      refine Option.eq_none_iff_forall_ne_some.mpr fun key hkey => hid ?_
      exact List.mem_map.mpr ⟨_, (lookup_expected hvalid.keyed id key).mp hkey, rfl⟩
    rw [keyFor, hlookup]
    rfl
  have hclone : clone { w.durable with bootstrap := none } = { s with bootstrap := none } := by
    rw [hdurable]
    exact clone_of_encodable hencodable.dropBootstrap
  refine wp_bind (wp_bind (wp_get ?_))
  rw [either_ok]
  split
  · exact wp_fail trivial
  refine wp_modify (wp_bind (wp_bind (wp_get (wp_pure ?_))))
  change wp E (prepareTor rt.tor (clone { w.durable with bootstrap := none })) _ _ _
  rw [hclone]
  refine wp_bind (wp_of_forall (fun r w₁ => ?_) fun _ => trivial)
  cases r with
  | error err => trivial
  | ok _ =>
    refine wp_bind (wp_of_forall (fun r w₂ => ?_) fun _ => trivial)
    cases r with
    | error err => trivial
    | ok _ =>
      refine wp_bind (wp_mono (wp_reconcile_unexpected hnone) ?_ fun _ h => h)
      intro r w₃ hr
      cases r with
      | error err => trivial
      | ok _ =>
        -- the configuration is another file
        refine (keeps_writeConfig (f := fun w' => w'.authAt .active) (fun _ _ => rfl) _ _).step ?_
          fun _ _ _ => trivial
        intro r w₄ hw₄
        cases r with
        | error err => trivial
        | ok _ => exact fun a text ha => hr a text (hw₄.symm.trans ha)

end Prepare

end Torkitten
