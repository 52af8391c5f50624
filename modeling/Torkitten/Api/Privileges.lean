import Torkitten.Access.Expiry
import Torkitten.Api.Conduct

/-!
# Privilege separation

What one request can change in an installation with an owner, by the credentials it carries. All of
it is read off the moves of the request.

## Main results

* `serveHTTP_separated`: only a request of the owner changes devices, publication, the identity or
  the set of tokens or commands a component; only the owner and agents with the scope change
  mappings; a token changes nothing else, and a request without credentials changes nothing.
-/

namespace Torkitten.Api

open Proc Relation

/-- The tokens of a state, whenever they have been used. -/
def tokenSet (s : State) : List AgentToken := s.tokens.map fun t => { t with lastUseAt := 0 }

/-- Nothing is missing from `new` that has not expired at time `t`. -/
structure OnlyExpired (old new : List LocalSession) (t : Time) : Prop where
  sublist : new.Sublist old
  kept : ∀ x ∈ old, survives t x = true → x ∈ new

/-- The record is the one of the token that the request carries. -/
def Presents (srv : Server) (r : Request) (x : AgentToken) : Prop :=
  base64Decode x.tokenHash = some (srv.digest.sum (utf8 r.bearerToken)) ∧
    tokenID r.bearerToken = some (utf8 x.id)

/-- At most the last use of the presented token differs. -/
def OnlyUsed (srv : Server) (r : Request) (x y : AgentToken) : Prop :=
  y = x ∨ Presents srv r x ∧ ∃ t, y = { x with lastUseAt := t }

/-- What a request that was received by `site` and left `site'` behind has changed, by its
credentials. -/
structure Separated (srv : Server) (r : Request) (site site' : Site) : Prop where
  /-- The store is sound: the file holds what the memory holds. -/
  sound : site'.Sound
  owner : site'.world.value.devices ≠ site.world.value.devices ∨
    site'.world.value.pending ≠ site.world.value.pending ∨
    site'.world.value.publication ≠ site.world.value.publication ∨
    site'.world.value.serviceID ≠ site.world.value.serviceID ∨
    site'.world.value.initialized ≠ site.world.value.initialized ∨
    tokenSet site'.world.value ≠ tokenSet site.world.value ∨
    site'.world.commands ≠ site.world.commands → FromOwner srv site r
  mappings : site'.world.value.mappings ≠ site.world.value.mappings →
    FromOwner srv site r ∨ FromAgent srv site r .mappingsWrite
  agent : (∀ cookie, ¬ SignedIn srv site r cookie) → site'.verified = site.verified →
    site'.world.value = { site.world.value with
      mappings := site'.world.value.mappings
      tokens := site'.world.value.tokens
      sessions := site'.world.value.sessions } ∧
    OnlyExpired site.world.value.sessions site'.world.value.sessions site'.world.clock ∧
    List.Forall₂ (OnlyUsed srv r) site.world.value.tokens site'.world.value.tokens ∧
    ((∀ x ∈ site.world.value.tokens, Presents srv r x →
      hasScope x.scopes .mappingsWrite = false) →
      site'.world.value.mappings = site.world.value.mappings)
  nobody : (∀ cookie, ¬ SignedIn srv site r cookie) →
    (∀ scope, ¬ FromAgent srv site r scope) → site'.verified = site.verified →
    site'.world.value = { site.world.value with sessions := site'.world.value.sessions } ∧
    OnlyExpired site.world.value.sessions site'.world.value.sessions site'.world.clock

section Moves

variable {srv : Server} {r : Request} {start site : Site} {a a' : Account}

/-- What only the owner can change. -/
def Account.reserved (a : Account) :
    (List Device × Option PendingDevice × Bool × String × Bool × List AgentToken) ×
      List (Component × Supervisor.Command) :=
  ((a.state.devices, a.state.pending, a.state.publication, a.state.serviceID, a.state.initialized,
    tokenSet a.state), a.commands)

theorem tokenSet_authorized (w : World) (hash id : List UInt8) (scope : Scope) (t : Time) (s : State) :
    tokenSet (w.authorized hash id scope t s) = tokenSet s := by
  unfold tokenSet World.authorized
  rw [List.map_map]
  refine List.map_congr_left fun x _ => ?_
  rw [Function.comp_apply]
  split
  · rfl
  · rfl

theorem Move.reserved (h : Move srv r start a a') (howner : ¬ FromOwner srv start r)
    (hinit : start.world.value.initialized = true) : a'.reserved = a.reserved := by
  cases h with
  | wait ht => rfl
  | prune ht => rfl
  | renew raw ht h => rfl
  | use ht h hid =>
    unfold Account.reserved
    rw [tokenSet_authorized]
    rfl
  | route mappings ht h hinit => rfl
  | verify owner => rfl
  | signIn issued ht hinit h => rfl
  | owner commands ht h heffect => exact absurd h howner
  | grant g commands ht h => exact absurd h howner
  | device pending commands ht h hinit => exact absurd h howner
  | arrange commands h => exact absurd (hinit.symm.trans h) (by simp)
  | draw issued h => rfl
  | complete ht h => exact absurd (hinit.symm.trans h) (by simp)

theorem Move.mappings (h : Move srv r start a a')
    (hright : ¬ (FromOwner srv start r ∨ FromAgent srv start r .mappingsWrite)) :
    a'.state.mappings = a.state.mappings := by
  cases h with
  | wait ht => rfl
  | prune ht => rfl
  | renew raw ht h => rfl
  | use ht h hid => rfl
  | route mappings ht h hinit => exact absurd h hright
  | verify owner => rfl
  | signIn issued ht hinit h => rfl
  | owner commands ht h heffect => exact absurd (.inl h) hright
  | grant g commands ht h => rfl
  | device pending commands ht h hinit => rfl
  | arrange commands h => rfl
  | draw issued h => rfl
  | complete ht h => rfl

/-! ## Requests without a session -/

theorem OnlyExpired.refl (sessions : List LocalSession) (t : Time) :
    OnlyExpired sessions sessions t := ⟨.refl _, fun _ hx _ => hx⟩

theorem OnlyExpired.later {old new : List LocalSession} {t t' : Time} (h : OnlyExpired old new t)
    (ht : t ≤ t') : OnlyExpired old new t' :=
  ⟨h.sublist, fun x hx hsurvives => h.kept x hx (survives_of_le ht hsurvives)⟩

theorem OnlyExpired.prune {old new : List LocalSession} {t : Time} (h : OnlyExpired old new t) :
    OnlyExpired old (prune new t) t :=
  ⟨List.filter_sublist.trans h.sublist,
    fun x hx hsurvives => List.mem_filter.mpr ⟨h.kept x hx hsurvives, hsurvives⟩⟩

theorem OnlyUsed.authorized {x y : AgentToken} (h : OnlyUsed srv r x y) (w : World) {id : List UInt8}
    (hid : tokenID r.bearerToken = some id) (scope : Scope) (t : Time) :
    OnlyUsed srv r x
      (if w.grants (srv.digest.sum (utf8 r.bearerToken)) id scope t y then y.usedAt t else y) := by
  split
  next hgrants =>
    -- what serves the request is a record of its token
    have hpresents : Presents srv r y := by
      simp only [World.grants, AgentToken.serves, Bool.and_eq_true, beq_iff_eq] at hgrants
      exact ⟨hgrants.1.1.1.1, by rw [hid, hgrants.1.1.1.2]⟩
    rcases h with rfl | ⟨hx, t', rfl⟩
    · exact .inr ⟨hpresents, t, rfl⟩
    · exact .inr ⟨hx, t, rfl⟩
  next => exact h

/-- What a request without a session may have changed, unless a login has been verified for it. -/
structure Modest (srv : Server) (r : Request) (start : Site) (a : Account) : Prop where
  state : a.state = { start.world.value with
    mappings := a.state.mappings, tokens := a.state.tokens, sessions := a.state.sessions }
  sessions : OnlyExpired start.world.value.sessions a.state.sessions a.clock
  tokens : List.Forall₂ (OnlyUsed srv r) start.world.value.tokens a.state.tokens

/-- Logins are only added, and without one a request without a session remains modest. -/
structure Unprivileged (srv : Server) (r : Request) (start : Site) (a : Account) : Prop where
  verified : ∃ logins, a.verified = logins ++ start.verified
  modest : a.verified = start.verified → Modest srv r start a

theorem ne_cons_append {α : Type} (x : α) (xs ys : List α) : x :: (xs ++ ys) ≠ ys := by
  intro h
  have hlength := congrArg List.length h
  simp only [List.length_cons, List.length_append] at hlength
  omega

theorem unprivileged_start : Unprivileged srv r start start.account where
  verified := ⟨[], rfl⟩
  modest _ := ⟨rfl, .refl _ _, List.forall₂_same.mpr fun _ _ => .inl rfl⟩

theorem Unprivileged.step (h : Unprivileged srv r start a)
    (hcookie : ∀ cookie, ¬ SignedIn srv start r cookie)
    (hinit : start.world.value.initialized = true) (hmove : Move srv r start a a') :
    Unprivileged srv r start a' := by
  have howner : ¬ FromOwner srv start r := fun h => by
    obtain ⟨cookie, _, hsigned, _⟩ := h.session
    exact hcookie cookie hsigned
  cases hmove with
  | wait ht =>
    exact ⟨h.verified, fun hv => ⟨(h.modest hv).state, (h.modest hv).sessions.later ht,
      (h.modest hv).tokens⟩⟩
  | prune ht =>
    refine ⟨h.verified, fun hv => ⟨?_, ((h.modest hv).sessions.later ht).prune,
      (h.modest hv).tokens⟩⟩
    dsimp only
    rw [(h.modest hv).state]
  | renew raw ht h => exact absurd h (hcookie _)
  | @use t scope id ht hagent hid =>
    refine ⟨h.verified, fun hv => ⟨?_, (h.modest hv).sessions.later ht, ?_⟩⟩
    · dsimp only [World.authorized]
      rw [(h.modest hv).state]
    · refine List.forall₂_map_right_iff.mpr ((h.modest hv).tokens.imp fun x y hxy => ?_)
      exact hxy.authorized start.world hid scope t
  | route mappings ht hright hinit =>
    refine ⟨h.verified, fun hv => ⟨?_, (h.modest hv).sessions.later ht, (h.modest hv).tokens⟩⟩
    dsimp only
    rw [(h.modest hv).state]
  | verify owner =>
    obtain ⟨logins, hlogins⟩ := h.verified
    refine ⟨⟨owner :: logins, congrArg _ hlogins⟩, fun hv => ?_⟩
    rw [hlogins] at hv
    exact absurd hv (ne_cons_append owner logins _)
  | @signIn t owner issued ht hinit hverified =>
    refine ⟨h.verified, fun hv => ?_⟩
    exact absurd (hverified.symm.trans hv) (ne_cons_append owner [] _)
  | owner commands ht h heffect => exact absurd h howner
  | grant g commands ht h => exact absurd h howner
  | device pending commands ht h hinit => exact absurd h howner
  | arrange commands h => exact absurd (hinit.symm.trans h) (by simp)
  | draw issued h => exact absurd (hinit.symm.trans h) (by simp)
  | complete ht h => exact absurd (hinit.symm.trans h) (by simp)

/-- Without a token that is accepted, the tokens are as they were. -/
theorem Move.tokens (h : Move srv r start a a') (howner : ¬ FromOwner srv start r)
    (hagent : ∀ scope, ¬ FromAgent srv start r scope) : a'.state.tokens = a.state.tokens := by
  cases h with
  | wait ht => rfl
  | prune ht => rfl
  | renew raw ht h => rfl
  | use ht h hid => exact absurd h (hagent _)
  | route mappings ht h hinit => rfl
  | verify owner => rfl
  | signIn issued ht hinit h => rfl
  | owner commands ht h heffect => exact absurd h howner
  | grant g commands ht h => exact absurd h howner
  | device pending commands ht h hinit => rfl
  | arrange commands h => rfl
  | draw issued h => rfl
  | complete ht h => rfl

theorem Reached.separated (h : Reached srv r start site)
    (hinit : start.world.value.initialized = true) : Separated srv r start site := by
  have hsigned (hcookie : ∀ cookie, ¬ SignedIn srv start r cookie) : ¬ FromOwner srv start r :=
    fun howner => by
      obtain ⟨cookie, _, hcookie', _⟩ := howner.session
      exact hcookie cookie hcookie'
  have hmappings : site.world.value.mappings ≠ start.world.value.mappings →
      FromOwner srv start r ∨ FromAgent srv start r .mappingsWrite := by
    intro hchanged
    by_contra hright
    exact hchanged (h.invariant (J := fun a => a.state.mappings = start.world.value.mappings) rfl
      fun _ _ ha hmove => (hmove.mappings hright).trans ha)
  have hmodest (hcookie : ∀ cookie, ¬ SignedIn srv start r cookie) :
      Unprivileged srv r start site.account :=
    h.invariant unprivileged_start fun _ _ ha hmove => ha.step hcookie hinit hmove
  refine ⟨h.sound, fun hchanged => ?_, hmappings, fun hcookie hverified => ?_,
    fun hcookie hagent hverified => ?_⟩
  · by_contra howner
    have hsame : site.account.reserved = start.account.reserved :=
      h.invariant (J := fun a => a.reserved = start.account.reserved) rfl
        fun _ _ ha hmove => (hmove.reserved howner hinit).trans ha
    simp only [Account.reserved, Prod.mk.injEq] at hsame
    obtain ⟨⟨hdevices, hpending, hpublication, hid, hinit', htokens⟩, hcommands⟩ := hsame
    rcases hchanged with h | h | h | h | h | h | h
    · exact h hdevices
    · exact h hpending
    · exact h hpublication
    · exact h hid
    · exact h hinit'
    · exact h htokens
    · exact h hcommands
  · have hm := (hmodest hcookie).modest hverified
    refine ⟨hm.state, hm.sessions, hm.tokens, fun hread => ?_⟩
    by_contra hchanged
    -- a change would be due to a token with the scope
    obtain ⟨t, x, -, hx, id, hid, hgrants⟩ := (hmappings hchanged).resolve_left (hsigned hcookie)
    simp only [World.grants, AgentToken.serves, Bool.and_eq_true, beq_iff_eq] at hgrants
    obtain ⟨⟨⟨⟨hhash, hname⟩, -⟩, hscope⟩, -⟩ := hgrants
    have hnone := hread x hx ⟨hhash, by rw [hid, hname]⟩
    rw [hscope] at hnone
    cases hnone
  · have hm := (hmodest hcookie).modest hverified
    have hsame : site.world.value.mappings = start.world.value.mappings := by
      by_contra hchanged
      exact (hmappings hchanged).elim (hsigned hcookie) (hagent _)
    have htokens : site.world.value.tokens = start.world.value.tokens :=
      h.invariant (J := fun a => a.state.tokens = start.world.value.tokens) rfl
        fun _ _ ha hmove => (hmove.tokens (hsigned hcookie) hagent).trans ha
    refine ⟨?_, hm.sessions⟩
    have hstate := hm.state
    change site.world.value = _ at hstate
    rw [hstate]
    dsimp only [Site.account]
    rw [hsame, htokens]

end Moves

/-- Privilege separation of the local console, for every request that an installation with an owner
receives, whatever happens while it is served. -/
theorem serveHTTP_separated (srv : Server) (r : Request) (site : Site) (env : ℕ → Event) (n : ℕ)
    (hsound : site.Sound) (hinit : site.world.value.initialized = true) :
    Separated srv r site ((srv.serveHTTP r).run env n site).2.1 :=
  (reached_serveHTTP srv r env n hsound).separated hinit

/-- A server with the sample paths. -/
def sampleServer : Server := ⟨sampleDigest, sampleRuntime, []⟩

/-- A daemon with the sample owner signed in. -/
def sampleSite : Site where
  world := { ownedWorld with durable := sampleSignedIn, value := sampleSignedIn }
  flows := []
  setup := none
  totp := none
  minute := 0
  general := 0
  authentication := 0
  serving := 0
  verified := []
  drawn := []

theorem sound_sampleSite : sampleSite.Sound := by
  obtain ⟨text, htext, -⟩ := fits_sampleSignedIn
  exact ⟨⟨rfl, ⟨none, rfl⟩, encodable_of_marshalIndent htext⟩, by decide +kernel⟩

/-- A request of the sample owner for a device. -/
def sampleRequest : Request where
  host := localHost
  method := .post
  path := "/api/devices/create"
  cookies := [(sessionCookie, sampleIssued.cookie)]
  origin := localOrigin
  csrfToken := sampleIssued.csrf sampleDigest
  mediaType := some "application/json"
  body := some { name := "phone" }

theorem sampleRequest_separated : FromOwner sampleServer sampleSite sampleRequest ∧
    Separated sampleServer sampleRequest sampleSite
      ((sampleServer.serveHTTP sampleRequest).run (fun _ => .calm) 0 sampleSite).2.1 := by
  have hdecode : base64Decode sampleIssued.cookie = some sampleIssued.secret :=
    base64Decode_base64Encode _
  have haccepts : Accepts sampleDigest sampleSignedIn ownedWorld.clock sampleIssued.cookie := by
    refine ⟨_, hdecode, rfl, sampleIssued.record sampleDigest, List.mem_singleton_self _, by decide, ?_⟩
    exact beq_iff_eq.mpr (base64Decode_base64Encode _)
  exact ⟨⟨rfl, rfl, rfl, rfl, _, _, ⟨rfl, haccepts⟩, hdecode, rfl⟩,
    serveHTTP_separated _ _ _ _ _ sound_sampleSite rfl⟩

end Torkitten.Api
