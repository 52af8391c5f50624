import Torkitten.Tor.Authorizations
import Torkitten.Tor.Identity

/-!
# What the procedures of Tor leave alone

The frames of the procedures of `internal/tor`: a part of the system that does not depend on the
directories a procedure works on is the same after it, however it ends.
-/

namespace Torkitten.Tor

open Proc

variable {τ : Type} {E : Event → Prop} {f : World → τ} {P : HsPath → Prop} {q : HsPath}

/-! ## Configuration and authorisations -/

theorem maintains_validate {I : World → Prop} : Maintains E (MayCrash E) I Paths.validate := by
  unfold Paths.validate
  refine maintains_bind (maintains_attempt (maintains_serviceCall fun _ hw => hw)) fun r => ?_
  cases r with
  | error e => exact maintains_fail _
  | ok _ => exact maintains_pure ()

theorem keeps_validate : Keeps E (MayCrash E) f Paths.validate := fun _ => maintains_validate

theorem keeps_writeConfig (h : ∀ w torrc, f { w with torrc } = f w) (p : Paths)
    (publication : Bool) : Keeps E (MayCrash E) f (p.writeConfig publication) := by
  unfold Paths.writeConfig
  split
  next => exact keeps_fail _
  next =>
    apply keeps_writeCall
    rintro w _ ⟨⟩
    exact h w _

theorem maintains_ensure {I : World → Prop} (h : ∀ w d, I w → I (w.setDir q (some d))) (p : Paths) :
    Maintains E (MayCrash E) I (p.ensure q) := by
  have hcall : ∀ effect : World → World, (∀ w, I w → I (effect w)) →
      Maintains E (MayCrash E) I (diskCall fun w => some (effect w)) := by
    intro effect heffect
    apply maintains_diskCall
    rintro w _ ⟨⟩ hw
    exact heffect w hw
  unfold Paths.ensure
  split
  next => exact maintains_fail _
  next =>
    refine maintains_bind (hcall id fun _ hw => hw) fun _ => ?_
    refine maintains_bind (hcall id fun _ hw => hw) fun _ => ?_
    refine maintains_bind (hcall (ensuredDir q) fun w hw => h w _ hw) fun _ => ?_
    refine maintains_bind (hcall (ensuredAuth q) fun w hw => h w _ hw) fun _ => ?_
    exact hcall id fun _ hw => hw

theorem keeps_ensure (h : Ignores f P) (hq : P q) (p : Paths) :
    Keeps E (MayCrash E) f (p.ensure q) :=
  fun _ => maintains_ensure (fun w d hw => (h.dir w q (some d) hq).trans hw) p

theorem withAuth_ignored (h : Ignores f P) (hq : P q) {change : AuthDir → Option AuthDir}
    {w w' : World} (hw' : withAuth q change w = some w') : f w' = f w := by
  unfold withAuth at hw'
  simp only [Option.bind_eq_bind, Option.bind_eq_some_iff, Option.pure_def, Option.some.injEq] at hw'
  obtain ⟨d, _, a, _, a', _, rfl⟩ := hw'
  exact h.dir w q _ hq

theorem plainFiles_putFile {name data : String} {a a' : AuthDir} (ha' : putFile name data a = some a')
    (ha : PlainFiles a) : PlainFiles a' := by
  unfold putFile at ha'
  split at ha'
  next => cases ha'
  next => cases ha'
  next =>
    cases ha'
    intro id
    by_cases heq : authFile id = name
    · rw [heq, AList.lookup_insert]
      simp
    · rw [AList.lookup_insert_ne heq]
      exact ha id

section Authorisations

variable {I : World → Prop} (hI : ∀ w w' change,
  (∀ a a', change a = some a' → PlainFiles a → PlainFiles a') → withAuth q change w = some w' →
    I w → I w')

include hI

theorem maintains_writeAuthorization (id publicKey : String) :
    Maintains E (MayCrash E) I (writeAuthorization q id publicKey) := by
  unfold writeAuthorization
  split
  next => exact maintains_fail _
  next => exact maintains_writeCall fun w w' hw' => hI w w' _ (fun a a' => plainFiles_putFile) hw'

theorem maintains_eraseEntry (name : String) :
    Maintains E (MayCrash E) I (diskCall fun w => some (erasedEntry q name w)) := by
  apply maintains_diskCall
  rintro w _ ⟨⟩ hw
  unfold erasedEntry
  cases heq : withAuth q (fun auth => some (auth.erase name)) w with
  | none => exact hw
  | some w' =>
    refine hI w w' _ ?_ heq hw
    rintro a _ ⟨⟩ ha
    exact ha.erase name

theorem maintains_removeAuthorization (id : String) :
    Maintains E (MayCrash E) I (removeAuthorization q id) := by
  unfold removeAuthorization
  split
  next => exact maintains_fail _
  next => exact maintains_eraseEntry hI _

theorem maintains_reconcile (devices : List Device) (pending : Option PendingDevice) :
    Maintains E (MayCrash E) I (reconcile q devices pending) := by
  have hread : Maintains E (MayCrash E) I (readAuth q) := by
    intro w hw
    apply wp_ask
    intro e he
    split
    next hc => exact ⟨⟨e, he, hc⟩, hw⟩
    next =>
      split
      next => exact hw
      next => split <;> exact hw
  unfold reconcile
  refine maintains_bind
    (maintains_forEach (fun id => maintains_writeAuthorization hI id _) _) fun _ => ?_
  exact maintains_bind hread fun _ => maintains_forEach (fun name => maintains_eraseEntry hI name) _

end Authorisations

theorem keeps_reconcile (h : Ignores f P) (hq : P q) (devices : List Device)
    (pending : Option PendingDevice) : Keeps E (MayCrash E) f (reconcile q devices pending) :=
  fun _ => maintains_reconcile (fun _ _ _ _ hw' hw => (withAuth_ignored h hq hw').trans hw) _ _

/-! ## Identities -/

section Moves

variable {I : World → Prop}

theorem maintains_activateIdentity (h : AdmitsMoves I P) (hactive : P .active)
    (hprevious : P .previous) {stage : IdentityStage} (hstage : P (.stage stage.root)) (p : Paths) :
    Maintains E (MayCrash E) I (activateIdentity p stage) := by
  unfold activateIdentity
  split
  next => exact maintains_fail _
  next =>
    refine maintains_bind (maintains_removeAll h hprevious) fun _ => ?_
    refine maintains_bind (maintains_rename h hactive hprevious nofun) fun _ => ?_
    refine maintains_bind (maintains_attempt (maintains_rename h hstage hactive nofun)) fun r => ?_
    cases r with
    | error e =>
      exact maintains_bind
        (maintains_undoing (maintains_ignore (maintains_rename h hprevious hactive nofun)))
        fun _ => maintains_fail _
    | ok _ =>
      exact maintains_bind (maintains_ignore (maintains_removeAll h hstage)) fun _ => maintains_pure _

theorem maintains_exchange (h : AdmitsMoves I P) (hactive : P .active) (hprevious : P .previous)
    (hfailed : P .failed) : Maintains E (MayCrash E) I exchange := by
  unfold exchange
  refine maintains_bind (maintains_ignore (maintains_removeAll h hfailed)) fun _ => ?_
  refine maintains_bind (maintains_rename h hactive hfailed nofun) fun _ => ?_
  refine maintains_bind (maintains_attempt (maintains_rename h hprevious hactive nofun)) fun r => ?_
  cases r with
  | error e =>
    exact maintains_bind
      (maintains_undoing (maintains_ignore (maintains_rename h hfailed hactive nofun)))
      fun _ => maintains_fail _
  | ok _ => exact maintains_removeAll h hfailed

theorem maintains_recoverIdentity (h : AdmitsMoves I P) (hactive : P .active)
    (hprevious : P .previous) (hfailed : P .failed) (hstage : ∀ n, P (.stage n))
    (serviceID : String) : Maintains E (MayCrash E) I (recoverIdentity serviceID) := by
  unfold recoverIdentity
  refine maintains_bind maintains_get fun w => ?_
  refine maintains_bind
    (maintains_forEach (fun n => maintains_ignore (maintains_removeAll h (hstage n))) _)
    fun _ => maintains_bind maintains_get fun w' => ?_
  split
  · exact maintains_removeAll h hprevious
  · split
    · exact maintains_fail _
    · exact maintains_exchange h hactive hprevious hfailed

end Moves

theorem keeps_activateIdentity (h : Ignores f P) (hactive : P .active) (hprevious : P .previous)
    {stage : IdentityStage} (hstage : P (.stage stage.root)) (p : Paths) :
    Keeps E (MayCrash E) f (activateIdentity p stage) :=
  fun x => maintains_activateIdentity (h.admitsMoves x) hactive hprevious hstage p

theorem keeps_exchange (h : Ignores f P) (hactive : P .active) (hprevious : P .previous)
    (hfailed : P .failed) : Keeps E (MayCrash E) f exchange :=
  fun x => maintains_exchange (h.admitsMoves x) hactive hprevious hfailed

theorem keeps_recoverIdentity (h : Ignores f P) (hactive : P .active) (hprevious : P .previous)
    (hfailed : P .failed) (hstage : ∀ n, P (.stage n)) (serviceID : String) :
    Keeps E (MayCrash E) f (recoverIdentity serviceID) :=
  fun x => maintains_recoverIdentity (h.admitsMoves x) hactive hprevious hfailed hstage serviceID

end Torkitten.Tor
