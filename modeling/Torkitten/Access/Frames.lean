import Torkitten.Access.Authority

/-!
# What the operations on the store leave alone

Sessions, tokens and the reset of the owner are stored and nothing else; the operations on devices
and on the publication also write the files of Tor. A property of the system that admits these
writes is kept by all of them, however they end.

## Main results

* `AdmitsStore.maintains_tokenCall`: every call that does not load a configuration in Caddy keeps a
  property that admits what is stored and the files of Tor.
-/

namespace Torkitten

open Proc

/-- A property that does not concern the stored states, the clock and the buckets. -/
structure AdmitsStore (I : World → Prop) : Prop where
  stored : ∀ (w : World) (s : State), I w → I { w with durable := s, value := s }
  clock : ∀ (w : World) (d : ℕ), I w → I { w with clock := w.clock + d }
  rates : ∀ (w : World) (rates : AList fun _ : String => Bucket), I w → I { w with rates }

theorem encodable_clone (s : State) : (clone s).Encodable := by
  unfold clone
  split
  next document hdocument => exact ⟨document, hdocument⟩
  next => exact ⟨_, rfl⟩

namespace AdmitsStore

variable {β : Type} {E : Event → Prop} {I : World → Prop} (h : AdmitsStore I)

include h

/-- A transition keeps the property when its function and its rollback do. -/
theorem maintains_determined {R : State → β → State → Prop} {fn : State → Op (Change World Event β)}
    (hfn : Determines E I R fn) : Maintains E (MayCrash E) I (worldStore.transition (some fn)) := by
  intro w hw
  refine wp_mono (wp_transition_of_undoable (P := fun _ => True) h.stored
    (wp_mono (hfn (clone w.value) (encodable_clone _) w hw) ?_ fun _ hc => hc)) ?_ fun _ hc => hc
  · intro r w' hr
    cases r with
    | ok change => exact ⟨⟨hr.inv, hr.rollback⟩, trivial⟩
    | error err => exact hr
  · intro r w' hr
    cases r with
    | ok b => exact hr.1
    | error err => exact hr

/-- A transition that only computes a state keeps the property. -/
theorem maintains_computed (next : State → State) (result : State → β) :
    Maintains E (MayCrash E) I (worldStore.transition (some fun current =>
      return changed (next current) none (result current))) :=
  h.maintains_determined (R := fun _ _ _ => True) (determines_pure fun _ => trivial)

theorem maintains_now : Maintains E (MayCrash E) I now := Torkitten.maintains_now h.clock

/-! ## Sessions -/

theorem maintains_createIssued (digest : Digest) (owner : String) :
    Maintains E (MayCrash E) I (createIssued digest owner) := by
  have hissue : Maintains E (MayCrash E) I (issue owner) := by
    unfold issue
    split
    · exact maintains_fail _
    · refine maintains_bind (maintains_randomBytes 32) fun _ => ?_
      refine maintains_bind (maintains_randomBytes 16) fun _ => ?_
      exact maintains_bind h.maintains_now fun _ => maintains_pure _
  refine maintains_bind hissue fun issued => maintains_bind ?_ fun _ => maintains_pure _
  refine h.maintains_determined (R := fun _ _ _ => True) fun current _ w hw => ?_
  exact h.maintains_now.then hw fun t w' hw' => wp_pure ⟨hw', by rintro _ ⟨⟩, trivial⟩

theorem maintains_authenticate (digest : Digest) (cookie : String) :
    Maintains E (MayCrash E) I (authenticate digest cookie) := by
  unfold authenticate
  split
  · exact maintains_fail _
  · split
    · exact maintains_fail _
    · refine maintains_bind h.maintains_now fun t => ?_
      refine maintains_bind (maintains_attempt (h.maintains_computed _ _)) fun r => ?_
      split
      · split
        · exact maintains_fail _
        · exact maintains_pure _
      · exact maintains_fail _

/-! ## Tokens -/

theorem maintains_createGrant (digest : Digest) (name : String) (scopes : List Scope)
    (lifetime : Duration) :
    Maintains E (MayCrash E) I (createGrant digest name scopes lifetime) := by
  unfold createGrant
  split
  · exact maintains_fail _
  · refine maintains_bind (maintains_randomBytes 16) fun id => ?_
    refine maintains_bind (maintains_randomBytes 32) fun secret => ?_
    refine maintains_bind h.maintains_now fun createdAt => maintains_bind ?_ fun _ => maintains_pure _
    refine h.maintains_determined (R := fun _ _ _ => True) fun current _ w hw => ?_
    split
    · exact wp_fail hw
    · exact wp_pure ⟨hw, by rintro _ ⟨⟩, trivial⟩

/-- Every token of the list may cost its bucket something. -/
theorem maintains_authorizeTokens (hash id : List UInt8) (required : Scope) (t : Time)
    (tokens : List AgentToken) :
    Maintains E (MayCrash E) I (authorizeTokens hash id required t tokens) := by
  induction tokens with
  | nil => exact maintains_pure _
  | cons record rest ih =>
    have hallow : Maintains E (MayCrash E) I (allow record.id t) :=
      maintains_bind maintains_get fun _ =>
        maintains_bind (maintains_modify fun w hw => h.rates w _ hw) fun _ => maintains_pure _
    unfold authorizeTokens
    split
    · exact maintains_bind hallow fun _ => maintains_bind ih fun _ => maintains_pure _
    · exact maintains_bind (maintains_pure false) fun _ => maintains_bind ih fun _ => maintains_pure _

theorem maintains_authorize (digest : Digest) (token : String) (required : Scope) :
    Maintains E (MayCrash E) I (authorize digest token required) := by
  unfold authorize
  split
  · exact maintains_fail _
  · refine maintains_bind h.maintains_now fun t => ?_
    refine maintains_bind (maintains_attempt ?_) fun r => ?_
    · refine h.maintains_determined (R := fun _ _ _ => True) fun current _ w hw => ?_
      refine (h.maintains_authorizeTokens _ _ _ _ _).then hw fun r w' hw' => ?_
      dsimp only
      split
      · exact wp_fail hw'
      · exact wp_pure ⟨hw', by rintro _ ⟨⟩, trivial⟩
    · cases r with
      | ok _ => exact maintains_pure ()
      | error _ => exact maintains_fail _

theorem maintains_revokeToken (id : String) : Maintains E (MayCrash E) I (revokeToken id) := by
  refine maintains_bind (maintains_attempt (h.maintains_computed _ _)) fun r => ?_
  refine maintains_bind (maintains_modify fun w hw => h.rates w _ hw) fun _ => ?_
  cases r with
  | ok _ => exact maintains_pure ()
  | error _ => exact maintains_fail _

theorem maintains_stageOwnerReset : Maintains E (MayCrash E) I stageOwnerReset := by
  refine h.maintains_determined (R := fun _ _ _ => True) fun current _ w hw => ?_
  split
  · exact wp_fail hw
  · exact wp_pure ⟨hw, by rintro _ ⟨⟩, trivial⟩

end AdmitsStore

/-! ## Calls -/

/-- The calls that load a configuration in Caddy. -/
def StoreCall.loads : StoreCall → Bool
  | .completeSetup _ => true
  | .mapping _ => true
  | .rotateIdentity _ => true
  | _ => false

@[inherit_doc StoreCall.loads]
def TokenCall.loads : TokenCall → Bool
  | .other call => call.loads
  | _ => false

section Calls

variable {E : Event → Prop} {I : World → Prop} (h : AdmitsStore I) (ht : AdmitsTor I)
  (digest : Digest) (rt : Runtime)

include h ht

theorem AdmitsStore.maintains_expirePending : Maintains E (MayCrash E) I expirePending := by
  refine maintains_bind (maintains_bind maintains_get fun _ => maintains_pure _) fun view => ?_
  split
  · exact maintains_pure ()
  · refine maintains_bind h.maintains_now fun checked => ?_
    split
    · exact maintains_pure ()
    · exact h.maintains_determined (determines_expireChange ht)

theorem AdmitsStore.maintains_storeCall {call : StoreCall} (hcall : call.loads = false) :
    Maintains E (MayCrash E) I (call.op digest rt) := by
  cases call with
  | completeSetup session => cases hcall
  | mapping call => cases hcall
  | rotateIdentity confirmation => cases hcall
  | setPublication enabled => exact h.maintains_determined (determines_publicationChange ht rt enabled)
  | createDevice name =>
    exact maintains_bind (h.maintains_determined (determines_createDeviceChange ht name))
      fun _ => maintains_pure _
  | acknowledgeDevice id => exact h.maintains_determined (determines_acknowledgeChange ht id)
  | revokeDevice id => exact h.maintains_determined (determines_revokeChange ht id)
  | expirePending => exact h.maintains_expirePending ht
  | reconcileTor => exact h.maintains_determined (determines_reconcileTorChange ht)
  | createSession owner =>
    exact maintains_bind (maintains_bind (h.maintains_createIssued digest owner)
      fun _ => maintains_pure _) fun _ => maintains_pure _
  | authenticate cookie =>
    exact maintains_bind (h.maintains_authenticate digest cookie) fun _ => maintains_pure _
  | revokeSession id =>
    exact h.maintains_computed
      (fun current => { current with sessions := current.sessions.filter fun x => x.id != id })
      fun _ => ()
  | revokeAllSessions =>
    exact h.maintains_computed (fun current => { current with sessions := [] }) fun _ => ()

/-- A call that loads nothing in Caddy keeps a property that admits its writes. -/
theorem AdmitsStore.maintains_tokenCall {call : TokenCall} (hcall : call.loads = false) :
    Maintains E (MayCrash E) I (call.op digest rt) := by
  cases call with
  | create name scopes lifetime =>
    exact maintains_bind (h.maintains_createGrant digest name scopes lifetime) fun _ => maintains_pure _
  | authorize token required =>
    exact maintains_bind (h.maintains_authorize digest token required) fun _ => maintains_pure _
  | revoke id => exact maintains_bind (h.maintains_revokeToken id) fun _ => maintains_pure _
  | reset => exact maintains_bind h.maintains_stageOwnerReset fun _ => maintains_pure _
  | other call =>
    exact maintains_bind (h.maintains_storeCall ht digest rt hcall) fun _ => maintains_pure _

end Calls

end Torkitten
