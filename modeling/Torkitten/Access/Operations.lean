import Torkitten.Access.Session
import Torkitten.Control.Mappings

/-!
# The operations on the store

The operations of the control plane that change the stored state, those on agent tokens and the
reset of the owner apart, and for each the states it may store. Sessions are the one place where a
call that returns an error may have stored something: a cookie that is not accepted still makes the
store drop the sessions that are too old.
-/

namespace Torkitten

open Proc

/-- A call of an operation that changes the stored state. -/
inductive StoreCall where
  | completeSetup (session : LocalSession)
  | mapping (call : MappingCall)
  | rotateIdentity (confirmation : String)
  | setPublication (enabled : Bool)
  | createDevice (name : String)
  | acknowledgeDevice (id : String)
  | revokeDevice (id : String)
  | expirePending
  | reconcileTor
  | createSession (owner : String)
  | authenticate (cookie : String)
  | revokeSession (id : String)
  | revokeAllSessions
  deriving DecidableEq, Repr

/-- What a call runs. -/
def StoreCall.op (digest : Digest) (rt : Runtime) : StoreCall → Op Unit
  | .completeSetup session => rt.completeSetup session
  | .mapping call => call.op rt
  | .rotateIdentity confirmation => do
    let _ ← rt.rotateIdentity confirmation
    return ()
  | .setPublication enabled => rt.setPublication enabled
  | .createDevice name => do
    let _ ← Torkitten.createDevice name
    return ()
  | .acknowledgeDevice id => Torkitten.acknowledgeDevice id
  | .revokeDevice id => Torkitten.revokeDevice id
  | .expirePending => Torkitten.expirePending
  | .reconcileTor => Torkitten.reconcileTor
  | .createSession owner => do
    let _ ← Torkitten.createSession digest owner
    return ()
  | .authenticate cookie => do
    let _ ← Torkitten.authenticate digest cookie
    return ()
  | .revokeSession id => Torkitten.revokeSession id
  | .revokeAllSessions => Torkitten.revokeAllSessions

/-- The states that a call may store. -/
def StoreCall.Allows (digest : Digest) (s s' : State) : StoreCall → Prop
  | .completeSetup session => s.initialized = false ∧
    s' = { s with initialized := true, sessions := s.sessions ++ [session] }
  | .mapping _ => s.initialized = true ∧ ∃ mappings, s' = { s with mappings }
  | .rotateIdentity _ => RotatedState s s'
  | .setPublication enabled => s' = { s with publication := enabled }
  | .createDevice _ =>
    s.initialized = true ∧ s.pending = none ∧ ∃ pending, s' = { s with pending := some pending }
  | .acknowledgeDevice _ => ∃ pending acknowledgedAt, s.pending = some pending ∧ s' = { s with
      devices := s.devices ++ [{ pending.toDevice with acknowledgedAt }], pending := none }
  | .revokeDevice id => s' = { s with devices := s.devices.filter fun d => d.id != id }
  | .expirePending => DropsPending s () s'
  | .reconcileTor => DropsPending s () s'
  | .createSession _ =>
    ∃ record t, s' = { s with sessions := admitted record t s.sessions }
  | .authenticate _ => ∃ raw t, s' = touched digest raw t s
  | .revokeSession id => s' = { s with sessions := s.sessions.filter fun x => x.id != id }
  | .revokeAllSessions => s' = { s with sessions := [] }

/-- A mapping operation changes the mappings only. -/
theorem MappingCall.mutation_eq_ok {call : MappingCall} {s s' : State}
    (h : call.mutation s = .ok s') : ∃ mappings, s' = { s with mappings } := by
  cases call with
  | create m =>
    dsimp only [MappingCall.mutation, createMappingMutation] at h
    split at h
    · cases h
    · cases h
      exact ⟨_, rfl⟩
  | update oldPrefix m =>
    obtain ⟨⟨mappings, found⟩, _, h⟩ := bind_eq_ok_iff.mp h
    dsimp only at h
    split at h
    · cases h
    · cases h
      exact ⟨_, rfl⟩
  | enable label enabled =>
    dsimp only [MappingCall.mutation, enableMappingMutation] at h
    split at h
    · cases h
    · cases h
      exact ⟨_, rfl⟩
  | delete label =>
    dsimp only [MappingCall.mutation, deleteMappingMutation] at h
    split at h
    · cases h
    · cases h
      exact ⟨_, rfl⟩

section Moves

variable (digest : Digest)

theorem moves_completeSetup (rt : Runtime) (session : LocalSession) :
    Moves (rt.completeSetup session) fun s s' =>
      StoreCall.Allows digest s s' (.completeSetup session) := by
  refine (commits_caddyChange rt _).stores.moves.mono fun s s' ⟨_, hmutation, _⟩ => ?_
  unfold initializeMutation at hmutation
  split at hmutation
  · cases hmutation
  next hfresh =>
    cases hmutation
    exact ⟨by simpa using hfresh, rfl⟩

theorem moves_mapping (rt : Runtime) (call : MappingCall) :
    Moves (call.op rt) fun s s' => StoreCall.Allows digest s s' (.mapping call) := by
  rw [call.op_eq]
  refine (commits_caddyChange rt _).stores.moves.mono fun s s' ⟨_, hmutation, hinit, _⟩ => ?_
  obtain ⟨mappings, rfl⟩ := MappingCall.mutation_eq_ok hmutation
  exact ⟨hinit, mappings, rfl⟩

theorem moves_createSession (owner : String) :
    Moves (createSession digest owner) fun s s' => ∃ record t, (record.owner = owner ∧
      validateUsername owner = none) ∧ s' = { s with sessions := admitted record t s.sessions } := by
  refine Moves.discard ?_ _
  intro E s w hw hvalid
  refine wp_mono (wp_createIssued hw) ?_ ?_
  · intro r w' hr
    cases r with
    | error err => exact ⟨s, .inl rfl, hvalid, hw.of_since hr, hr.2⟩
    | ok issued =>
      obtain ⟨hfrom, hto, -, howner, s', rfl, hvalid', hw'⟩ := hr
      exact ⟨_, .inr ⟨_, _, howner, rfl⟩, hvalid', hw', Int.le_trans hfrom hto⟩
  · exact fun w' hc => ⟨hc.1, s, .inl rfl, hvalid, hw.of_since hc.2, hc.2.2⟩

theorem moves_authenticate (cookie : String) :
    Moves (authenticate digest cookie) fun s s' =>
      StoreCall.Allows digest s s' (.authenticate cookie) := by
  intro E s w hw hvalid
  refine wp_mono (wp_authenticate hw) ?_ ?_
  · intro r w' hr
    cases r with
    | error err =>
      rcases hr with hr | ⟨raw, hvalid', -, hw', hclock⟩
      · exact ⟨s, .inl rfl, hvalid, hw.of_since hr, hr.2⟩
      · exact ⟨_, .inr ⟨raw, _, rfl⟩, hvalid', hw', hclock⟩
    | ok auth =>
      obtain ⟨raw, _, _, _, _, _, hvalid', hw', hclock⟩ := hr
      exact ⟨_, .inr ⟨raw, _, rfl⟩, hvalid', hw', hclock⟩
  · exact fun w' hc => ⟨hc.1, s, .inl rfl, hvalid, hw.of_since hc.2, hc.2.2⟩

/-- What an operation may store. -/
theorem moves_storeCall (rt : Runtime) (call : StoreCall) :
    Moves (call.op digest rt) fun s s' => call.Allows digest s s' := by
  cases call with
  | completeSetup session => exact moves_completeSetup digest rt session
  | mapping call => exact moves_mapping digest rt call
  | rotateIdentity confirmation =>
    exact ((stores_rotateIdentity rt confirmation).moves.discard _).mono fun _ _ ⟨_, h⟩ => h
  | setPublication enabled =>
    exact (commits_setPublication rt enabled).stores.moves.mono fun _ _ ⟨_, h⟩ => h
  | createDevice name =>
    exact ((commits_createDevice name).stores.moves.discard _).mono
      fun _ _ ⟨_, hinit, hfree, _, h⟩ => ⟨hinit, hfree, _, h⟩
  | acknowledgeDevice id =>
    exact (commits_acknowledgeDevice id).stores.moves.mono
      fun _ _ ⟨_, pending, acknowledgedAt, hpending, _, h⟩ => ⟨pending, acknowledgedAt, hpending, h⟩
  | revokeDevice id => exact (commits_revokeDevice id).stores.moves.mono fun _ _ ⟨_, h⟩ => h
  | expirePending => exact commits_expirePending.stores.moves.mono fun _ _ ⟨_, h⟩ => h
  | reconcileTor => exact commits_reconcileTor.stores.moves.mono fun _ _ ⟨_, h⟩ => h
  | createSession owner =>
    exact ((moves_createSession digest owner).discard _).mono fun _ _ ⟨record, t, _, h⟩ => ⟨record, t, h⟩
  | authenticate cookie => exact (moves_authenticate digest cookie).discard _
  | revokeSession id => exact (commits_revokeSession id).stores.moves.mono fun _ _ ⟨_, h⟩ => h
  | revokeAllSessions => exact commits_revokeAllSessions.stores.moves.mono fun _ _ ⟨_, h⟩ => h

end Moves

/-- None of these operations changes the tokens. -/
theorem StoreCall.Allows.tokens {digest : Digest} {s s' : State} {call : StoreCall}
    (h : call.Allows digest s s') : s'.tokens = s.tokens := by
  cases call with
  | completeSetup session => rw [h.2]
  | mapping call =>
    obtain ⟨-, mappings, rfl⟩ := h
    rfl
  | rotateIdentity confirmation =>
    obtain ⟨-, -, devices, serviceID, -, rfl⟩ := h
    rfl
  | setPublication enabled => rw [show s' = _ from h]
  | createDevice name =>
    obtain ⟨-, -, pending, rfl⟩ := h
    rfl
  | acknowledgeDevice id =>
    obtain ⟨pending, acknowledgedAt, -, rfl⟩ := h
    rfl
  | revokeDevice id => rw [show s' = _ from h]
  | expirePending =>
    rcases h with rfl | rfl
    · rfl
    · rfl
  | reconcileTor =>
    rcases h with rfl | rfl
    · rfl
    · rfl
  | createSession owner =>
    obtain ⟨record, t, rfl⟩ := h
    rfl
  | authenticate cookie =>
    obtain ⟨raw, t, rfl⟩ := h
    rfl
  | revokeSession id => rw [show s' = _ from h]
  | revokeAllSessions => rw [show s' = _ from h]

end Torkitten
