import Torkitten.Control.Manager
import Torkitten.Tor.Frames

/-!
# Publication and devices

The operations on the publication and on the devices have one shape: they write files of Tor, let
Tor read them again, and give a rollback that does both the other way. Whatever admits such writes
is kept by them, and they do not change what is routed.
-/

namespace Torkitten

open Proc Tor

/-- A property that writing the files of Tor cannot break. -/
structure AdmitsTor (I : World → Prop) : Prop where
  torrc : ∀ w torrc, I w → I { w with torrc }
  tor : ∀ w tor, I w → I { w with tor }
  clock : ∀ (w : World) (d : ℕ), I w → I { w with clock := w.clock + d }
  auth : ∀ w w' change, (∀ a a', change a = some a' → PlainFiles a → PlainFiles a') →
    withAuth .active change w = some w' → I w → I w'

section Procedures

variable {E : Event → Prop} {I : World → Prop} (h : AdmitsTor I)

include h

theorem maintains_writeConfig (p : Paths) (publication : Bool) :
    Maintains E (MayCrash E) I (p.writeConfig publication) := by
  unfold Paths.writeConfig
  split
  next => exact maintains_fail _
  next =>
    apply maintains_writeCall
    rintro w _ ⟨⟩
    exact h.torrc w _

theorem maintains_reload : Maintains E (MayCrash E) I reload :=
  maintains_serviceCall fun w => h.tor w _

end Procedures

/-! ## The operations -/

section Operations

variable {β : Type} {E : Event → Prop} {I : World → Prop}

/-- What the function of a transition decides: a state with the same routes, and a rollback that
keeps the invariant. -/
structure Decided (E : Event → Prop) (I : World → Prop) (current : State)
    (change : Change World Event β) (w' : World) : Prop where
  inv : I w'
  rollback : ∀ r ∈ change.rollback, Maintains E (MayCrash E) I r
  routes : SameRoutes current change.next

/-- What the function of a transition decides: a change that `R` allows, and a rollback that keeps
the invariant. -/
structure Determined (E : Event → Prop) (I : World → Prop) (R : State → β → State → Prop)
    (current : State) (change : Change World Event β) (w' : World) : Prop where
  inv : I w'
  rollback : ∀ r ∈ change.rollback, Maintains E (MayCrash E) I r
  change : R current change.result change.next

/-- The function of a transition keeps the invariant and changes the state as `R` allows. -/
def Determines (E : Event → Prop) (I : World → Prop) (R : State → β → State → Prop)
    (fn : State → Op (Change World Event β)) : Prop :=
  ∀ current : State, current.Encodable → ∀ w, I w →
    wp E (fn current) (either (Determined E I R current) fun _ => I) (fun w' => MayCrash E ∧ I w') w

/-- The function of a transition keeps the invariant and the routes. -/
def KeepsRoutes (E : Event → Prop) (I : World → Prop) (fn : State → Op (Change World Event β)) :
    Prop :=
  ∀ current : State, current.Encodable → ∀ w, I w →
    wp E (fn current) (either (Decided E I current) fun _ => I) (fun w' => MayCrash E ∧ I w') w

theorem Determines.keepsRoutes {R : State → β → State → Prop}
    {fn : State → Op (Change World Event β)} (h : Determines E I R fn)
    (hR : ∀ s b s', R s b s' → SameRoutes s s') : KeepsRoutes E I fn := by
  intro current henc w hw
  refine wp_mono (h current henc w hw) ?_ fun _ hc => hc
  intro r w' hr
  cases r with
  | error err => exact hr
  | ok change => exact ⟨hr.inv, hr.rollback, hR _ _ _ hr.change⟩

/-- A transition with such a function ends with the invariant, or commits a state with the same
routes. -/
theorem KeepsRoutes.wp_transition {fn : State → Op (Change World Event β)}
    {Q : Except GoError β → World → Prop} {C : World → Prop} {w : World} (h : KeepsRoutes E I fn)
    (henc : w.value.Encodable) (hw : I w) (herr : ∀ err w', I w' → Q (.error err) w')
    (hcrash : ∀ w', MayCrash E → I w' → C w')
    (hok : ∀ next b w', I w' → SameRoutes w.value next → next.Valid → next.Encodable →
      Q (.ok b) { w' with durable := next, value := next }) :
    wp E (worldStore.transition (some fn)) Q C w := by
  apply wp_worldTransition henc
  refine wp_mono (h w.value henc w hw) ?_ fun w' hw' => hcrash w' hw'.1 hw'.2
  intro r w' hr
  cases r with
  | error err => exact herr err w' hr
  | ok change =>
    apply wp_worldCommit
    · intro err
      cases hrollback : change.rollback with
      | none => exact herr err w' hr.inv
      | some rollback =>
        refine Store.Undone.of_wp (G := I) ?_ herr err
        exact wp_mono (hr.rollback rollback hrollback w' hr.inv) (fun _ _ hw' => hw')
          fun w'' hw'' => hcrash w'' hw''.1 hw''.2
    · exact fun hc => hcrash w' hc hr.inv
    · exact fun _ hvalid hencodable => hok _ _ w' hr.inv hr.routes hvalid hencodable

variable (h : AdmitsTor I)

include h

theorem determines_publicationChange (rt : Runtime) (enabled : Bool) :
    Determines E I (fun s _ s' => s' = { s with publication := enabled })
      (rt.publicationChange enabled) := by
  intro current _ w hw
  have hwrite := fun publication => maintains_writeConfig (E := undone E) h rt.tor publication
  have hreload := maintains_reload (E := undone E) h
  unfold Runtime.publicationChange
  dsimp only
  split
  next => exact wp_fail hw
  next =>
    refine (maintains_writeConfig h rt.tor enabled).then hw fun _ w₁ hw₁ => ?_
    refine (maintains_attempt maintains_validate).then hw₁ fun r w₂ hw₂ => ?_
    cases r with
    | error err =>
      refine (maintains_undoing (maintains_ignore (hwrite _))).then hw₂ fun _ w₃ hw₃ => ?_
      exact wp_fail hw₃
    | ok _ =>
      refine (Store.maintains_orUndo (maintains_reload h) (maintains_undoing
        (maintains_bind (maintains_ignore (hwrite _)) fun _ => hreload))).then hw₂
        fun _ w₃ hw₃ => ?_
      refine wp_pure ⟨hw₃, ?_, rfl⟩
      rintro _ ⟨⟩
      exact maintains_undoing (maintains_bind (hwrite _) fun _ => hreload)

theorem keepsRoutes_publicationChange (rt : Runtime) (enabled : Bool) :
    KeepsRoutes E I (rt.publicationChange enabled) := by
  refine (determines_publicationChange h rt enabled).keepsRoutes ?_
  rintro s _ _ rfl
  exact ⟨rfl, rfl, rfl⟩

theorem determines_createDeviceChange (name : String) :
    Determines E I (fun s b s' => s.initialized = true ∧ s.pending = none ∧
      s.devices.length < maxDevices ∧ s' = { s with pending := some b.1 })
      (createDeviceChange name) := by
  intro current _ w hw
  unfold createDeviceChange
  split
  next => exact wp_fail hw
  next hready =>
    obtain ⟨⟨hinit, hfree⟩, hroom⟩ : (current.initialized = true ∧ current.pending = none) ∧
        current.devices.length < maxDevices := by
      simpa only [Bool.or_eq_true, Bool.not_eq_true', not_or, Bool.not_eq_false, decide_eq_true_eq,
        Option.isSome_iff_ne_none, ne_eq, not_not, ge_iff_le, not_le] using hready
    refine (maintains_randomBytes 16).then hw fun idRaw w₁ hw₁ => ?_
    refine (maintains_bind maintains_generateKey fun _ => maintains_pure _).then hw₁
      fun key w₂ hw₂ => ?_
    refine (maintains_now h.clock).then hw₂ fun created w₃ hw₃ => ?_
    dsimp only
    split
    next => exact wp_fail hw₃
    next =>
      split
      next => exact wp_fail hw₃
      next credential _ =>
        have hwithdraw : Maintains E (MayCrash E) I (undoing do
            ignore (removeAuthorization .active (newPending idRaw name key created).id)
            reload) :=
          maintains_undoing (maintains_bind (maintains_ignore (maintains_removeAuthorization h.auth _))
            fun _ => maintains_reload h)
        refine (Store.maintains_orUndo (maintains_bind (maintains_writeAuthorization h.auth _ _)
          fun _ => maintains_reload h) hwithdraw).then hw₃ fun _ w₄ hw₄ => ?_
        refine wp_pure ⟨hw₄, ?_, hinit, hfree, hroom, rfl⟩
        rintro _ ⟨⟩
        exact hwithdraw

theorem keepsRoutes_createDeviceChange (name : String) :
    KeepsRoutes E I (createDeviceChange name) := by
  refine (determines_createDeviceChange h name).keepsRoutes ?_
  rintro s _ _ ⟨-, -, -, rfl⟩
  exact ⟨rfl, rfl, rfl⟩

theorem determines_acknowledgeChange (id : String) :
    Determines E I (fun s _ s' => ∃ pending acknowledgedAt, s.pending = some pending ∧
      pending.id = id ∧ s' = { s with
        devices := s.devices ++ [{ pending.toDevice with acknowledgedAt }], pending := none })
      (acknowledgeChange id) := by
  intro current _ w hw
  unfold acknowledgeChange
  split
  next => exact wp_fail hw
  next pending hpending =>
    split
    next => exact wp_fail hw
    next hid =>
      refine (maintains_now h.clock).then hw fun checked w₁ hw₁ => ?_
      split
      next => exact wp_fail hw₁
      next =>
        refine (maintains_now h.clock).then hw₁ fun acknowledged w₂ hw₂ => ?_
        exact wp_pure ⟨hw₂, by rintro _ ⟨⟩, pending, acknowledged, hpending, not_not.mp hid, rfl⟩

theorem keepsRoutes_acknowledgeChange (id : String) : KeepsRoutes E I (acknowledgeChange id) := by
  refine (determines_acknowledgeChange h id).keepsRoutes ?_
  rintro s _ _ ⟨pending, acknowledgedAt, -, -, rfl⟩
  exact ⟨rfl, rfl, rfl⟩

theorem wp_revoking {R : State → Unit → State → Prop} {current candidate : State}
    (hchange : R current () candidate) (id publicKey : String) {w : World} (hw : I w) :
    wp E (revoking id publicKey candidate) (either (Determined E I R current) fun _ => I)
      (fun w' => MayCrash E ∧ I w') w := by
  have hwrite := maintains_writeAuthorization (E := undone E) h.auth id publicKey
  have hreload := maintains_reload (E := undone E) h
  unfold revoking
  refine (maintains_removeAuthorization h.auth id).then hw fun _ w₁ hw₁ => ?_
  refine (Store.maintains_orUndo (maintains_reload h) (maintains_undoing
    (maintains_bind (maintains_ignore hwrite) fun _ => hreload))).then hw₁ fun _ w₂ hw₂ => ?_
  refine wp_pure ⟨hw₂, ?_, hchange⟩
  rintro _ ⟨⟩
  exact maintains_undoing (maintains_bind hwrite fun _ => hreload)

theorem determines_revokeChange (id : String) :
    Determines E I (fun s _ s' => s' = { s with devices := s.devices.filter fun d => d.id != id })
      (revokeChange id) := by
  intro current henc w hw
  unfold revokeChange
  rw [clone_of_encodable henc]
  dsimp only
  split
  next => exact wp_fail hw
  next removed _ =>
    split
    next => exact wp_fail hw
    next =>
      split
      next => exact wp_fail hw
      next => exact wp_revoking h rfl id _ hw

theorem keepsRoutes_revokeChange (id : String) : KeepsRoutes E I (revokeChange id) := by
  refine (determines_revokeChange h id).keepsRoutes ?_
  rintro s _ _ rfl
  exact ⟨rfl, rfl, rfl⟩

/-- At most the pending device is dropped. -/
def DropsPending (s : State) (_ : Unit) (s' : State) : Prop :=
  s' = s ∨ s' = { s with pending := none }

omit h in
theorem DropsPending.sameRoutes (s : State) (b : Unit) (s' : State) (h : DropsPending s b s') :
    SameRoutes s s' := by
  rcases h with rfl | rfl
  · exact .refl _
  · exact ⟨rfl, rfl, rfl⟩

theorem determines_expireChange : Determines E I DropsPending expireChange := by
  intro current henc w hw
  have hsame : ∀ w', I w' → Determined E I DropsPending current (changed current none ()) w' :=
    fun w' hw' => ⟨hw', by rintro _ ⟨⟩, .inl rfl⟩
  unfold expireChange
  rw [clone_of_encodable henc]
  dsimp only
  split
  next => exact wp_pure (hsame w hw)
  next pending _ =>
    refine (maintains_now h.clock).then hw fun checked w₁ hw₁ => ?_
    split
    · exact wp_pure (hsame w₁ hw₁)
    · exact wp_revoking h (.inr rfl) _ _ hw₁

theorem keepsRoutes_expireChange : KeepsRoutes E I expireChange :=
  (determines_expireChange h).keepsRoutes DropsPending.sameRoutes

theorem maintains_applyTor (value : State) : Maintains E (MayCrash E) I (applyTor value) :=
  maintains_bind (maintains_reconcile h.auth _ _) fun _ => maintains_reload h

theorem determines_reconcileTorChange : Determines E I DropsPending reconcileTorChange := by
  intro current henc w hw
  have hcandidate : wp E (unexpired current)
      (either (fun candidate w' => DropsPending current () candidate ∧ I w') fun _ => I)
      (fun w' => MayCrash E ∧ I w') w := by
    unfold unexpired
    rw [clone_of_encodable henc]
    dsimp only
    split
    next => exact wp_pure ⟨.inl rfl, hw⟩
    next pending _ =>
      refine (maintains_now h.clock).bind hw (fun _ _ hw => hw) (fun _ hc hw => ⟨hc, hw⟩)
        fun checked w₁ hw₁ => ?_
      split
      · exact wp_pure ⟨.inl rfl, hw₁⟩
      · exact wp_pure ⟨.inr rfl, hw₁⟩
  refine wp_bind (wp_mono hcandidate ?_ fun _ hw' => hw')
  rintro (err | candidate) w' hw'
  · exact hw'
  obtain ⟨hroutes, hw'⟩ := hw'
  refine (maintains_attempt (maintains_applyTor h candidate)).then hw' fun r w₁ hw₁ => ?_
  cases r with
  | error err =>
    refine (maintains_undoing (maintains_ignore (maintains_reconcile h.auth _ _))).then hw₁
      fun _ w₂ hw₂ => ?_
    exact wp_fail hw₂
  | ok _ =>
    refine wp_pure ⟨hw₁, ?_, hroutes⟩
    rintro _ ⟨⟩
    exact maintains_undoing (maintains_applyTor h current)

theorem keepsRoutes_reconcileTorChange : KeepsRoutes E I reconcileTorChange :=
  (determines_reconcileTorChange h).keepsRoutes DropsPending.sameRoutes

end Operations

end Torkitten
