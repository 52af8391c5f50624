import Torkitten.Api.Server

/-!
# What a request may do

An abstract machine for the effects of one request: every change of the stored state, every command
to the supervisor and every credential drawn is one move, and each move names the credential of the
request that it is due to. `Api.Conduct` shows that the handlers only make such moves; what a
request can do with a given credential is then a fact about the machine.

## Main definitions

* `Account`: what is followed of the daemon;
* `SignedIn`, `FromOwner`, `FromAgent`: the credentials of a request, judged in the state in which
  it is received;
* `Move`: the moves of a request;
* `Reached`: the accounts that a request may lead to.
-/

namespace Torkitten.Api

open Proc Relation

/-- What is followed of the daemon. -/
structure Account where
  state : State
  commands : List (Component × Supervisor.Command)
  verified : List String
  drawn : List Draw
  clock : Time

/-- The account of a daemon. -/
def Site.account (site : Site) : Account where
  state := site.world.value
  commands := site.world.commands
  verified := site.verified
  drawn := site.drawn
  clock := site.world.clock

/-- The store of a daemon holds its state, in memory and in the file, and the state is valid. -/
structure Site.Sound (site : Site) : Prop where
  held : Held site.world site.world.value
  valid : site.world.value.Valid

/-! ## Credentials -/

/-- The cookie stands for a stored session that has not expired at time `t`. -/
def Accepts (digest : Digest) (s : State) (t : Time) (cookie : String) : Prop :=
  ∃ raw, base64Decode cookie = some raw ∧ raw.length = 32 ∧
    ∃ x ∈ s.sessions, survives t x = true ∧ x.matches (digest.sum raw) = true

section Credentials

variable (srv : Server) (site : Site) (r : Request)

/-- The request carries a session cookie that authenticates. -/
def SignedIn (cookie : String) : Prop :=
  r.cookie sessionCookie = some cookie ∧
    Accepts srv.digest site.world.value site.world.clock cookie

/-- The request is one that the console makes for the owner: a post to the local host, from the local
origin, with a JSON content type, a session cookie that authenticates and the token that belongs to
it. -/
structure FromOwner : Prop where
  method : r.method = .post
  host : r.host = localHost
  origin : r.origin = localOrigin
  json : r.mediaType = some "application/json"
  session : ∃ cookie raw, SignedIn srv site r cookie ∧ base64Decode cookie = some raw ∧
    r.csrfToken = csrfFor srv.digest raw

/-- The request carries a stored token that has not expired at time `t`, whose scopes include
`scope`, and that the rate limiter admits. -/
def GrantedBy (scope : Scope) (t : Time) (x : AgentToken) : Prop :=
  x ∈ site.world.value.tokens ∧ ∃ id, tokenID r.bearerToken = some id ∧
    site.world.grants (srv.digest.sum (utf8 r.bearerToken)) id scope t x = true

/-- The request carries a token that is accepted for `scope` while it is served. -/
def FromAgent (scope : Scope) : Prop :=
  ∃ t x, site.world.clock ≤ t ∧ GrantedBy srv site r scope t x

end Credentials

/-! ## Moves -/

/-- The operations that only the owner can call. -/
def byOwner : StoreCall → Bool
  | .rotateIdentity _ | .setPublication _ | .acknowledgeDevice _ | .revokeDevice _ |
    .revokeSession _ | .revokeAllSessions => true
  | _ => false

/-- The states that the owner may store. -/
def OwnerEffect (digest : Digest) (s s' : State) : Prop :=
  s' = s ∨ (∃ call : StoreCall, byOwner call = true ∧ call.Allows digest s s') ∨
    ∃ id, s' = { s with tokens := s.tokens.filter fun t => t.id != id }

/-- One move of a request that is received by `start`. -/
inductive Move (srv : Server) (r : Request) (start : Site) : Account → Account → Prop where
  /-- Time passes. -/
  | wait {a : Account} {t : Time} (ht : a.clock ≤ t) : Move srv r start a { a with clock := t }
  /-- The sessions that are too old are dropped. -/
  | prune {a : Account} {t : Time} (ht : a.clock ≤ t) :
      Move srv r start a { a with
        state := { a.state with sessions := prune a.state.sessions t }, clock := t }
  /-- The session of the cookie is renewed. -/
  | renew {a : Account} {t : Time} {cookie : String} (raw : List UInt8) (ht : a.clock ≤ t)
      (h : SignedIn srv start r cookie) :
      Move srv r start a { a with state := touched srv.digest raw t a.state, clock := t }
  /-- The token is marked as used. -/
  | use {a : Account} {t : Time} {scope : Scope} {id : List UInt8} (ht : a.clock ≤ t)
      (h : FromAgent srv start r scope) (hid : tokenID r.bearerToken = some id) :
      Move srv r start a { a with
        state := start.world.authorized (srv.digest.sum (utf8 r.bearerToken)) id scope t a.state
        clock := t }
  /-- A mapping is changed. -/
  | route {a : Account} {t : Time} (mappings : List Mapping) (ht : a.clock ≤ t)
      (h : FromOwner srv start r ∨ FromAgent srv start r .mappingsWrite)
      (hinit : a.state.initialized = true) :
      Move srv r start a { a with state := { a.state with mappings }, clock := t }
  /-- Authelia verifies both factors of a login. -/
  | verify {a : Account} (owner : String) :
      Move srv r start a { a with verified := owner :: a.verified }
  /-- A login that has been verified is given a session. -/
  | signIn {a : Account} {t : Time} {owner : String} (issued : Issued) (ht : a.clock ≤ t)
      (hinit : a.state.initialized = true) (h : a.verified = owner :: start.verified) :
      Move srv r start a { a with
        state := { a.state with
          sessions := admitted (issued.record srv.digest) t a.state.sessions }
        drawn := .session issued :: a.drawn
        clock := t }
  /-- The owner changes the state or commands a component. -/
  | owner {a : Account} {t : Time} {s' : State}
      (commands : List (Component × Supervisor.Command)) (ht : a.clock ≤ t)
      (h : FromOwner srv start r) (heffect : OwnerEffect srv.digest a.state s') :
      Move srv r start a { a with state := s', commands, clock := t }
  /-- The owner makes a token. -/
  | grant {a : Account} {t : Time} (g : Grant)
      (commands : List (Component × Supervisor.Command)) (ht : a.clock ≤ t)
      (h : FromOwner srv start r) :
      Move srv r start a { a with
        state := { a.state with tokens := a.state.tokens ++ [g.record srv.digest] }
        commands
        drawn := .token g :: a.drawn
        clock := t }
  /-- The owner makes a device. -/
  | device {a : Account} {t : Time} (pending : PendingDevice)
      (commands : List (Component × Supervisor.Command)) (ht : a.clock ≤ t)
      (h : FromOwner srv start r) (hinit : a.state.initialized = true) :
      Move srv r start a { a with
        state := { a.state with pending := some pending }
        commands
        drawn := .device pending :: a.drawn
        clock := t }
  /-- A setup commands a component. -/
  | arrange {a : Account} (commands : List (Component × Supervisor.Command))
      (h : start.world.value.initialized = false) : Move srv r start a { a with commands }
  /-- A setup draws the secret of its session. -/
  | draw {a : Account} (issued : Issued) (h : start.world.value.initialized = false) :
      Move srv r start a { a with drawn := .session issued :: a.drawn }
  /-- A setup is completed. -/
  | complete {a : Account} {t : Time} {issued : Issued} (ht : a.clock ≤ t)
      (h : start.world.value.initialized = false) (hfresh : a.state.initialized = false)
      (hdrawn : a.drawn = .session issued :: start.drawn) :
      Move srv r start a { a with
        state := { a.state with
          initialized := true, sessions := a.state.sessions ++ [issued.record srv.digest] }
        clock := t }

/-- The daemon is sound, and the request has led to its account by moves. -/
structure Reached (srv : Server) (r : Request) (start site : Site) : Prop where
  sound : site.Sound
  moves : ReflTransGen (Move srv r start) start.account site.account

/-- What the moves of a request keep holds of what they have reached. -/
theorem Reached.invariant {srv : Server} {r : Request} {start site : Site} {J : Account → Prop}
    (h : Reached srv r start site) (hstart : J start.account)
    (hstep : ∀ a a', J a → Move srv r start a a' → J a') : J site.account := by
  have hmoves := h.moves
  generalize site.account = reached at hmoves ⊢
  induction hmoves with
  | refl => exact hstart
  | tail _ hmove ih => exact hstep _ _ ih hmove

/-- Nothing has happened since the request was received, except that time has passed. -/
structure Still (start site : Site) : Prop where
  sound : site.Sound
  state : site.world.value = start.world.value
  commands : site.world.commands = start.world.commands
  rates : site.world.rates = start.world.rates
  verified : site.verified = start.verified
  drawn : site.drawn = start.drawn
  clock : start.world.clock ≤ site.world.clock

end Torkitten.Api
