import Torkitten.Access.Authority
import Torkitten.Api.OwnerReset
import Torkitten.Control.Lifetime

/-!
# The life of a store

The whole life of a state file, from the moment it is made: the daemon is started, performs any of
the operations that change the store, may die in the middle of one, is stopped and started again,
and while it is stopped the owner can be reset with `torkittenctl`. Here the operations are called
directly; `Api.Installation` has the requests that lead to them.

## Main definitions

* `Deed`, `Host.act`, `LifeRun`: what happens to a store, and the runs;
* `TokenCall.Allows`: the states that a call may store;
* `Enduring`: a property of states that holds along every run.
-/

namespace Torkitten

open Proc Api

/-- What happens next to a store, with the events met. -/
inductive Deed where
  /-- The daemon performs an operation. -/
  | call (c : TokenCall) (env : ℕ → Event)
  | stop
  /-- The daemon is started, after it has been killed if it was running. -/
  | restart (env : ℕ → Event)
  /-- `torkittenctl owner reset`. -/
  | reset (env : ℕ → Event)

namespace Host

variable (digest : Digest) (rt : Runtime)

/-- One deed, if it can happen. -/
def act (h : Host) : Deed → Option Host
  | .call c env =>
    if !h.running then none
    else
      match (c.op digest rt).run env 0 h.world with
      | (.crash, w, _) => some ⟨w, false⟩
      | (_, w, _) => some ⟨w, true⟩
  | .stop => some { h with running := false }
  | .restart env =>
    -- a new process has no buckets
    match (startDaemon rt).run env 0 { h.world with rates := ∅ } with
    | (.ok _, w, _) => some ⟨w, true⟩
    | (_, w, _) => some ⟨w, false⟩
  | .reset env => if h.running then none else some ⟨(resetOwner.run env 0 h.world).2.1, false⟩

/-- A store that has just been created, on a host whose clock is past the first instant of year one. -/
structure Fresh (h : Host) : Prop where
  running : h.running = false
  durable : h.world.durable = newState
  value : h.world.value = newState
  clock : 0 < h.world.clock

end Host

/-- The runs in which every call meets a condition. -/
abbrev LifeRunOf (ok : TokenCall → Prop) (digest : Digest) (rt : Runtime) : List Deed → Host → Prop :=
  Run Host.Fresh fun h deed h' => (∀ c env, deed = .call c env → ok c) ∧ h.act digest rt deed = some h'

/-- The runs of a store. -/
abbrev LifeRun (digest : Digest) (rt : Runtime) : List Deed → Host → Prop :=
  LifeRunOf (fun _ => True) digest rt

/-! ## What a call may store -/

/-- The states that a call may store. -/
def TokenCall.Allows (digest : Digest) (s s' : State) : TokenCall → Prop
  | .create _ scopes _ => ∃ g : Grant,
    g.scopes = (if scopes.isEmpty then [.mappingsRead, .mappingsWrite] else scopes) ∧
      s' = { s with tokens := s.tokens ++ [g.record digest] }
  | .authorize _ _ => ∃ used : AgentToken → Option Time, s' = { s with
      tokens := s.tokens.map fun x => (used x).elim x x.usedAt }
  | .revoke id => s' = { s with tokens := s.tokens.filter fun x => x.id != id }
  | .reset => s' = ownerless s
  | .other (.createDevice name) =>
    s.devices.length < maxDevices ∧ StoreCall.Allows digest s s' (.createDevice name)
  | .other (.createSession owner) => ∃ record t,
    (record.owner = owner ∧ validateUsername owner = none) ∧
      s' = { s with sessions := admitted record t s.sessions }
  | .other call => call.Allows digest s s'

section Moves

variable (digest : Digest) (rt : Runtime)

theorem moves_createGrant (name : String) (scopes : List Scope) (lifetime : Duration) :
    Moves (createGrant digest name scopes lifetime) fun s s' =>
      (TokenCall.create name scopes lifetime).Allows digest s s' := by
  intro E s w hw hvalid
  refine wp_mono (wp_createGrant hw) ?_ ?_
  · intro r w' hr
    cases r with
    | error err => exact ⟨s, .inl rfl, hvalid, hw.of_since hr, hr.2⟩
    | ok g =>
      obtain ⟨hmade, hscopes, s', rfl, hvalid', hw'⟩ := hr
      exact ⟨_, .inr ⟨g, hscopes, rfl⟩, hvalid', hw', Int.le_trans hmade.after hmade.before⟩
  · exact fun w' hc => ⟨hc.1, s, .inl rfl, hvalid, hw.of_since hc.2, hc.2.2⟩

theorem moves_authorize (token : String) (required : Scope) :
    Moves (authorize digest token required) fun s s' =>
      (TokenCall.authorize token required).Allows digest s s' := by
  intro E s w hw hvalid
  refine wp_mono (wp_authorize digest token required hw hvalid) ?_ ?_
  · intro r w' hr
    cases r with
    | error err => exact ⟨s, .inl rfl, hvalid, hw.of_since hr, hr.2⟩
    | ok _ =>
      obtain ⟨id, -, hclock, -, hw', hvalid'⟩ := hr
      refine ⟨_, .inr ⟨fun x => if w.grants (digest.sum (utf8 token)) id required w'.clock x
        then some w'.clock else none, ?_⟩, hvalid', hw', hclock⟩
      have hsame : ∀ x : AgentToken,
          (if w.grants (digest.sum (utf8 token)) id required w'.clock x then x.usedAt w'.clock else x) =
            Option.elim (if w.grants (digest.sum (utf8 token)) id required w'.clock x
              then some w'.clock else none) x x.usedAt := by
        intro x
        split
        · rfl
        · rfl
      unfold World.authorized
      simp only [hsame]
  · exact fun w' hc => ⟨hc.1, s, .inl rfl, hvalid, hw.of_since hc.2, hc.2.2⟩

/-- What an operation may store. -/
theorem moves_tokenCall (c : TokenCall) :
    Moves (c.op digest rt) fun s s' => c.Allows digest s s' := by
  cases c with
  | create name scopes lifetime => exact (moves_createGrant digest name scopes lifetime).discard _
  | authorize token required => exact (moves_authorize digest token required).discard _
  | revoke id => exact ((commits_revokeToken id).stores.moves.discard _).mono fun _ _ ⟨_, h⟩ => h
  | reset => exact (commits_stageOwnerReset.stores.moves.discard _).mono fun _ _ ⟨_, _, h⟩ => h
  | other call =>
    refine Moves.discard ?_ _
    cases call with
    | createDevice name =>
      exact ((commits_createDevice name).stores.moves.discard _).mono
        fun _ _ ⟨_, hinit, hfree, hroom, h⟩ => ⟨hroom, hinit, hfree, _, h⟩
    | createSession owner => exact (moves_createSession digest owner).discard _
    | completeSetup session => exact moves_storeCall digest rt (.completeSetup session)
    | mapping call => exact moves_storeCall digest rt (.mapping call)
    | rotateIdentity confirmation => exact moves_storeCall digest rt (.rotateIdentity confirmation)
    | setPublication enabled => exact moves_storeCall digest rt (.setPublication enabled)
    | acknowledgeDevice id => exact moves_storeCall digest rt (.acknowledgeDevice id)
    | revokeDevice id => exact moves_storeCall digest rt (.revokeDevice id)
    | expirePending => exact moves_storeCall digest rt .expirePending
    | reconcileTor => exact moves_storeCall digest rt .reconcileTor
    | authenticate cookie => exact moves_storeCall digest rt (.authenticate cookie)
    | revokeSession id => exact moves_storeCall digest rt (.revokeSession id)
    | revokeAllSessions => exact moves_storeCall digest rt .revokeAllSessions

end Moves

/-! ## Properties that endure -/

/-- A property of states that every deed keeps, when its call meets the condition. -/
structure Enduring (ok : TokenCall → Prop) (digest : Digest) (A : State → Prop) : Prop where
  new : A newState
  call : ∀ {c s s'}, ok c → A s → s.Valid → c.Allows digest s s' → A s'
  bootstrap : ∀ {s}, A s → A { s with bootstrap := none }
  serviceID : ∀ {s} (id : String), A s → A { s with serviceID := id }
  pending : ∀ {s}, A s → A { s with pending := none }
  reset : ∀ {s}, A s → A (ownerless s)

section Enduring

variable {ok : TokenCall → Prop} {digest : Digest} {rt : Runtime} {A : State → Prop} {t : Time}
  {h h' : Host}

theorem Enduring.step (hA : Enduring ok digest A) {deed : Deed}
    (hok : ∀ c env, deed = .call c env → ok c) (hw : EvolvedSince t A h.world)
    (hstep : h.act digest rt deed = some h') : EvolvedSince t A h'.world := by
  cases deed with
  | call c env =>
    have hcall : Maintains (fun _ => True) (MayCrash _) (EvolvedSince t A) (c.op digest rt) :=
      maintains_since_moves (moves_tokenCall digest rt c) fun _ _ => hA.call (hok c env rfl)
    have hend := hcall.run env 0 hw
    dsimp only [Host.act] at hstep
    split at hstep
    · cases hstep
    · split at hstep
      next hrun =>
        cases hstep
        rw [hrun] at hend
        exact hend
      next hrun =>
        cases hstep
        rw [hrun] at hend
        exact hend
  | stop =>
    cases hstep
    exact hw
  | restart env =>
    have hstart : Maintains (fun _ => True) (MayCrash _) (EvolvedSince t A) (startDaemon rt) :=
      maintains_since_startDaemon rt (fun _ => hA.bootstrap) (fun _ => hA.serviceID)
        fun _ => hA.pending
    have hcleared : EvolvedSince t A { h.world with rates := ∅ } := by
      obtain ⟨⟨s, hs, hvalid, hheld⟩, hclock⟩ := hw
      exact ⟨⟨s, hs, hvalid, hheld.of_stored rfl⟩, hclock⟩
    have hend := hstart.run env 0 hcleared
    dsimp only [Host.act] at hstep
    split at hstep
    next hrun =>
      cases hstep
      rw [hrun] at hend
      exact hend
    next hrun =>
      cases hstep
      rw [hrun] at hend
      exact hend
  | reset env =>
    have hreset : Maintains (fun _ => True) (MayCrash _) (EvolvedSince t A) resetOwner :=
      maintains_since_resetOwner (fun _ => hA.bootstrap) fun _ => hA.reset
    dsimp only [Host.act] at hstep
    split at hstep
    · cases hstep
    · cases hstep
      exact hreset.run env 0 hw

/-- What endures holds in every state that is reached. -/
theorem Enduring.run (hA : Enduring ok digest A) {deeds : List Deed}
    (r : LifeRunOf ok digest rt deeds h) : EvolvedSince 1 A h.world := by
  refine r.invariant (I := fun _ h => EvolvedSince 1 A h.world) ?_ ?_
  · intro h hfresh
    exact ⟨⟨newState, hA.new, by decide, hfresh.value, ⟨none, hfresh.durable⟩, _, rfl⟩,
      hfresh.clock⟩
  · exact fun _ _ deed _ hI hstep => hA.step hstep.1 hI hstep.2

end Enduring

/-- A host before the first start. -/
def emptyHost : Host := ⟨emptyInstallation.site.world, false⟩

theorem fresh_emptyHost : emptyHost.Fresh := ⟨rfl, rfl, rfl, by decide⟩

/-- The daemon is started and set up; newest deed first. -/
def setupDeeds : List Deed :=
  [.call (.other (.completeSetup (sampleIssued.record sampleDigest))) sampleEvents,
   .restart sampleEvents]

end Torkitten
