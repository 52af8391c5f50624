import Torkitten.Api.Installation
import Torkitten.Api.Privileges

/-!
# Installations without an owner

An installation without an owner holds no authority, and a reset of the owner ends all authority that
was given before it.

## Main results

* `installation_unowned`: in every run, a state without an owner has neither sessions nor tokens, no
  pending device and no publication; setup is never blocked; and what was issued before a reset is
  not accepted after it.
-/

namespace Torkitten.Api

open Proc Tor Relation

/-- The state gives no authority. -/
structure Blank (s : State) : Prop where
  sessions : s.sessions = []
  tokens : s.tokens = []
  pending : s.pending = none
  publication : s.publication = false

/-- Without an owner there is no authority. -/
def Unowned (s : State) : Prop := s.initialized = false → Blank s

/-- What `StageOwnerReset` leaves of a state. -/
def ownerless (s : State) : State :=
  { s with
    initialized := false, publication := false, sessions := [], tokens := [], pending := none,
    bootstrap := none }

theorem maintains_since_resetOwner {E : Event → Prop} {A : State → Prop} {t : Time}
    (hboot : ∀ s, A s → A { s with bootstrap := none }) (hreset : ∀ s, A s → A (ownerless s)) :
    Maintains E (MayCrash E) (EvolvedSince t A) resetOwner := by
  refine maintains_bind (maintains_since_openStore hboot) fun _ => ?_
  refine maintains_since_moves commits_stageOwnerReset.stores.moves ?_
  rintro s _ hs - ⟨_, -, rfl⟩
  exact hreset s hs

/-- A reset that succeeds has stored the state without its owner. -/
theorem wp_resetOwner {E : Event → Prop} {w : World} {s : State} (hheld : Held w s)
    (hvalid : s.Valid) :
    wp E resetOwner (either (fun _ w' => (ownerless s).Valid ∧ Held w' (ownerless s)) fun _ _ => True)
      (fun _ => True) w := by
  obtain ⟨b, hb⟩ := hheld.durable
  refine wp_bind (wp_bind (wp_get ?_))
  rw [either_ok]
  split
  · exact wp_fail trivial
  · have hopened : Held { w with value := { w.durable with bootstrap := none } }
        { s with bootstrap := none } := by
      refine ⟨?_, ⟨b, hb⟩, hheld.encodable.dropBootstrap⟩
      dsimp only
      rw [hb]
    refine wp_modify (wp_mono (commits_stageOwnerReset E _ _ hopened) ?_ fun _ _ => trivial)
    intro r w' hr
    cases r with
    | error err => trivial
    | ok _ =>
      obtain ⟨s', ⟨-, rfl⟩, hvalid', hheld', -⟩ := hr
      exact ⟨hvalid' hvalid.dropBootstrap, hheld'⟩

/-! ## Properties of the state and the credentials drawn -/

/-- The daemon is sound, and `P` holds of its state and of the credentials that have been drawn. -/
def Steady (P : State → List Draw → Prop) (site : Site) : Prop :=
  Evolved (fun s => P s site.drawn) site.world

section Steady

variable {P : State → List Draw → Prop} {site : Site}

theorem Steady.sound (h : Steady P site) : site.Sound := by
  obtain ⟨s, -, hvalid, hheld⟩ := h
  obtain ⟨rfl, -⟩ := id hheld
  exact ⟨hheld, hvalid⟩

theorem Steady.property (h : Steady P site) : P site.world.value site.drawn := by
  obtain ⟨s, hs, -, hheld⟩ := h
  rw [hheld.value]
  exact hs

theorem Site.Sound.steady (h : site.Sound) (hP : P site.world.value site.drawn) : Steady P site :=
  ⟨_, hP, h.valid, h.held⟩

/-- A property that outlives every turn. -/
structure Lasting (srv : Server) (P : State → List Draw → Prop) : Prop where
  request : ∀ {r start site}, Reached srv r start site → P start.world.value start.drawn →
    P site.world.value site.drawn
  bootstrap : ∀ {s drawn}, P s drawn → P { s with bootstrap := none } drawn
  serviceID : ∀ {s drawn} (id : String), P s drawn → P { s with serviceID := id } drawn
  pending : ∀ {s drawn}, P s drawn → P { s with pending := none } drawn
  reset : ∀ {s drawn}, P s drawn → P (ownerless s) drawn

variable {α : Type} {E : Event → Prop}

theorem maintains_steady {c : Op α}
    (h : ∀ drawn, Maintains E (MayCrash E) (Evolved fun s => P s drawn) c) :
    Maintains E (MayCrash E) (Steady P) (onWorld c) := fun site hsite =>
  wp_focus (wp_mono (h site.drawn site.world hsite) (fun _ _ hw => hw) fun _ hw => hw)

theorem indifferent_steady : Indifferent (Steady P) where
  clock _ _ := fun ⟨s, hs, hvalid, hheld⟩ => ⟨s, hs, hvalid, hheld.of_stored rfl⟩
  memory {site site'} hworld _ hdrawn := fun ⟨s, hs, hvalid, hheld⟩ =>
    ⟨s, by rw [hdrawn]; exact hs, hvalid, by rw [hworld]; exact hheld⟩

variable {srv : Server} (hP : Lasting srv P)

include hP

theorem Lasting.expire : Maintains E (MayCrash E) (Steady P) expire := by
  refine maintains_bind indifferent_steady.validTOTP fun _ => maintains_steady fun drawn => ?_
  refine maintains_evolved commits_expirePending.stores.moves ?_
  rintro s _ hs ⟨_, rfl | rfl⟩
  · exact hs
  · exact hP.pending hs

theorem Lasting.startDaemon (rt : Runtime) :
    Maintains E (MayCrash E) (Steady P) (onWorld (startDaemon rt)) :=
  maintains_steady fun _ => maintains_startDaemon rt (fun _ => hP.bootstrap)
    (fun _ id => hP.serviceID id) fun _ => hP.pending

theorem Lasting.resetOwner : Maintains E (MayCrash E) (Steady P) (onWorld resetOwner) :=
  maintains_steady fun _ => maintains_evolved_of_since fun _ =>
    maintains_since_resetOwner (fun _ => hP.bootstrap) fun _ => hP.reset

theorem Lasting.step {inst inst' : Installation} {turn : Turn} (h : Steady P inst.site)
    (hstep : inst.step srv turn = some inst') : Steady P inst'.site := by
  cases turn with
  | request r env =>
    have hreached := reached_serveHTTP srv r env 0 h.sound
    have hend : Steady P ((srv.serveHTTP r).run env 0 inst.site).2.1 :=
      hreached.sound.steady (hP.request hreached h.property)
    dsimp only [Installation.step] at hstep
    split at hstep
    · cases hstep
    · split at hstep
      next hrun =>
        cases hstep
        rw [hrun] at hend
        exact hend
      next hrun =>
        cases hstep
        rw [hrun] at hend
        exact hend
  | expire env =>
    have hend := (hP.expire (E := fun _ => True)).run env 0 h
    dsimp only [Installation.step] at hstep
    split at hstep
    · cases hstep
    · split at hstep
      next hrun =>
        cases hstep
        rw [hrun] at hend
        exact hend
      next hrun =>
        cases hstep
        rw [hrun] at hend
        exact hend
  | stop =>
    cases hstep
    exact h
  | restart env =>
    have hcleared : Steady P inst.site.cleared := by
      obtain ⟨s, hs, hvalid, hheld⟩ := h
      exact ⟨s, hs, hvalid, hheld.of_stored rfl⟩
    have hend := (hP.startDaemon (E := fun _ => True) srv.runtime).run env 0 hcleared
    dsimp only [Installation.step] at hstep
    split at hstep
    next hrun =>
      cases hstep
      rw [hrun] at hend
      exact hend
    next hrun =>
      cases hstep
      rw [hrun] at hend
      exact hend
  | reset env =>
    dsimp only [Installation.step] at hstep
    split at hstep
    · cases hstep
    · cases hstep
      exact (hP.resetOwner (E := fun _ => True)).run env 0 h

/-- What lasts holds along every run from where it holds. -/
theorem Lasting.run {init : Installation → Prop} (hinit : ∀ inst, init inst → Steady P inst.site)
    {turns : List Turn} {inst : Installation}
    (h : Run init (fun inst turn inst' => inst.step srv turn = some inst') turns inst) :
    Steady P inst.site :=
  h.invariant (I := fun _ inst => Steady P inst.site) hinit fun _ _ _ _ hI hstep => hP.step hI hstep

end Steady

/-! ## No authority without an owner -/

section Unowned

variable {srv : Server} {r : Request} {start site : Site} {a a' : Account}

/-- The owner does not end the ownership. -/
theorem OwnerEffect.initialized {digest : Digest} {s s' : State} (h : OwnerEffect digest s s') :
    s'.initialized = s.initialized := by
  rcases h with rfl | ⟨call, hcall, h⟩ | ⟨id, rfl⟩
  · rfl
  · cases call with
    | rotateIdentity confirmation =>
      obtain ⟨-, -, devices, serviceID, -, rfl⟩ := h
      rfl
    | setPublication enabled => rw [show s' = _ from h]
    | acknowledgeDevice id =>
      obtain ⟨pending, acknowledgedAt, -, rfl⟩ := h
      rfl
    | revokeDevice id => rw [show s' = _ from h]
    | revokeSession id => rw [show s' = _ from h]
    | revokeAllSessions => rw [show s' = _ from h]
    | _ => cases hcall
  · rfl

theorem Move.initialized (h : Move srv r start a a') (ha : a.state.initialized = true) :
    a'.state.initialized = true := by
  cases h with
  | owner commands ht h heffect => exact heffect.initialized.trans ha
  | complete ht h => rfl
  | _ => exact ha

/-- A request to an installation without an owner does nothing but set it up. -/
theorem Move.unowned (h : Move srv r start a a') (hstart : start.world.value.sessions = [])
    (ha : Unowned a.state) : Unowned a'.state := by
  have hsigned (cookie : String) : ¬ SignedIn srv start r cookie := by
    rintro ⟨-, raw, -, -, x, hx, -⟩
    rw [hstart] at hx
    cases hx
  have howner : ¬ FromOwner srv start r := fun h => by
    obtain ⟨cookie, _, hcookie, _⟩ := h.session
    exact hsigned cookie hcookie
  cases h with
  | wait ht => exact ha
  | prune ht =>
    intro hinit
    have hblank := ha hinit
    exact ⟨by rw [hblank.sessions]; rfl, hblank.tokens, hblank.pending, hblank.publication⟩
  | renew raw ht h => exact absurd h (hsigned _)
  | use ht h hid =>
    intro hinit
    have hblank := ha hinit
    exact ⟨hblank.sessions, by dsimp only [World.authorized]; rw [hblank.tokens]; rfl, hblank.pending,
      hblank.publication⟩
  | route mappings ht h hinit => exact fun h => absurd (hinit.symm.trans h) (by simp)
  | verify owner => exact ha
  | signIn issued ht hinit h => exact fun h => absurd (hinit.symm.trans h) (by simp)
  | owner commands ht h heffect => exact absurd h howner
  | grant g commands ht h => exact absurd h howner
  | device pending commands ht h hinit => exact absurd h howner
  | arrange commands h => exact ha
  | draw issued h => exact ha
  | complete ht h => exact fun h => nomatch h

theorem lasting_unowned (srv : Server) : Lasting srv fun s _ => Unowned s where
  request {r start site} h hstart := by
    by_cases hinit : start.world.value.initialized = true
    · have hsite : site.world.value.initialized = true :=
        h.invariant (J := fun a => a.state.initialized = true) hinit
          fun _ _ ha hmove => hmove.initialized ha
      exact fun hnot => absurd (hsite.symm.trans hnot) (by simp)
    · have hblank := hstart (by simpa using hinit)
      exact h.invariant (J := fun a => Unowned a.state) hstart
        fun _ _ ha hmove => hmove.unowned hblank.sessions ha
  bootstrap h hinit := ⟨(h hinit).sessions, (h hinit).tokens, (h hinit).pending, (h hinit).publication⟩
  serviceID _ h hinit := ⟨(h hinit).sessions, (h hinit).tokens, (h hinit).pending, (h hinit).publication⟩
  pending h hinit := ⟨(h hinit).sessions, (h hinit).tokens, rfl, (h hinit).publication⟩
  reset _ _ := ⟨rfl, rfl, rfl, rfl⟩

end Unowned

/-! ## Where credentials come from -/

/-- Every session, every token and every pending device of the state was drawn among `newer`, and so
was every device that is not among `ids`. -/
structure DrawnFrom (digest : Digest) (ids : List String) (newer : List Draw) (s : State) : Prop where
  sessions : ∀ x ∈ s.sessions, ∃ issued, .session issued ∈ newer ∧
    x.tokenHash = (issued.record digest).tokenHash
  tokens : ∀ x ∈ s.tokens, ∃ g, .token g ∈ newer ∧ x.tokenHash = (Grant.record digest g).tokenHash
  pending : ∀ p ∈ s.pending, ∃ q, .device q ∈ newer ∧ q.id = p.id
  devices : ∀ d ∈ s.devices, d.id ∈ ids ∨ ∃ q, .device q ∈ newer ∧ q.id = d.id

section DrawnFrom

variable {digest : Digest} {ids : List String} {newer newer' : List Draw} {s s' : State}

theorem DrawnFrom.mono (h : DrawnFrom digest ids newer s) (hsub : newer ⊆ newer') :
    DrawnFrom digest ids newer' s where
  sessions x hx := (h.sessions x hx).imp fun _ hi => ⟨hsub hi.1, hi.2⟩
  tokens x hx := (h.tokens x hx).imp fun _ hg => ⟨hsub hg.1, hg.2⟩
  pending p hp := (h.pending p hp).imp fun _ hq => ⟨hsub hq.1, hq.2⟩
  devices d hd := (h.devices d hd).imp_right fun ⟨q, hq⟩ => ⟨q, hsub hq.1, hq.2⟩

/-- Sessions may go and may be changed except for their digest. -/
theorem DrawnFrom.withSessions (h : DrawnFrom digest ids newer s) {sessions : List LocalSession}
    (hsessions : ∀ x ∈ sessions, ∃ y ∈ s.sessions, x.tokenHash = y.tokenHash) :
    DrawnFrom digest ids newer { s with sessions } where
  sessions x hx := by
    obtain ⟨y, hy, hxy⟩ := hsessions x hx
    rw [hxy]
    exact h.sessions y hy
  tokens := h.tokens
  pending := h.pending
  devices := h.devices

theorem DrawnFrom.addSession (h : DrawnFrom digest ids newer s) {sessions : List LocalSession}
    {issued : Issued} (hissued : .session issued ∈ newer)
    (hsessions : ∀ x ∈ sessions, x ∈ s.sessions ∨ x = issued.record digest) :
    DrawnFrom digest ids newer { s with sessions } where
  sessions x hx := by
    rcases hsessions x hx with hx | rfl
    · exact h.sessions x hx
    · exact ⟨issued, hissued, rfl⟩
  tokens := h.tokens
  pending := h.pending
  devices := h.devices

theorem DrawnFrom.touched (h : DrawnFrom digest ids newer s) (raw : List UInt8) (t : Time) :
    DrawnFrom digest ids newer (touched digest raw t s) := by
  refine h.withSessions fun x hx => ?_
  obtain ⟨y, hy, rfl⟩ := List.mem_map.mp hx
  refine ⟨y, (List.mem_filter.mp hy).1, ?_⟩
  split
  · rfl
  · rfl

theorem mem_admitted {record x : LocalSession} {t : Time} {sessions : List LocalSession}
    (h : x ∈ admitted record t sessions) : x ∈ sessions ∨ x = record := by
  rcases List.mem_append.mp h with h | h
  · split at h
    · exact .inl (List.mem_filter.mp (List.mem_of_mem_drop h)).1
    · exact .inl (List.mem_filter.mp h).1
  · exact .inr (List.mem_singleton.mp h)

theorem DrawnFrom.owner (h : DrawnFrom digest ids newer s) (heffect : OwnerEffect digest s s') :
    DrawnFrom digest ids newer s' := by
  rcases heffect with rfl | ⟨call, hcall, heffect⟩ | ⟨id, rfl⟩
  · exact h
  · cases call with
    | rotateIdentity confirmation =>
      obtain ⟨-, -, devices, serviceID, hids, rfl⟩ := heffect
      refine ⟨fun _ hx => absurd hx List.not_mem_nil, h.tokens, h.pending, fun d hd => ?_⟩
      -- the devices have new keys, but they are the same devices
      have hid : d.id ∈ s.devices.map Device.id := hids ▸ List.mem_map_of_mem hd
      obtain ⟨d', hd', hsame⟩ := List.mem_map.mp hid
      rw [← hsame]
      exact h.devices d' hd'
    | setPublication enabled =>
      rw [show s' = _ from heffect]
      exact ⟨h.sessions, h.tokens, h.pending, h.devices⟩
    | acknowledgeDevice id =>
      obtain ⟨pending, acknowledgedAt, hpending, rfl⟩ := heffect
      refine ⟨h.sessions, h.tokens, nofun, fun d hd => ?_⟩
      rcases List.mem_append.mp hd with hd | hd
      · exact h.devices d hd
      · rw [List.mem_singleton.mp hd]
        exact .inr (h.pending pending hpending)
    | revokeDevice id =>
      rw [show s' = _ from heffect]
      exact ⟨h.sessions, h.tokens, h.pending, fun d hd => h.devices d (List.mem_filter.mp hd).1⟩
    | revokeSession id =>
      rw [show s' = _ from heffect]
      exact h.withSessions fun x hx => ⟨x, (List.mem_filter.mp hx).1, rfl⟩
    | revokeAllSessions =>
      rw [show s' = _ from heffect]
      exact h.withSessions fun _ hx => absurd hx List.not_mem_nil
    | _ => cases hcall
  · exact ⟨h.sessions, fun x hx => h.tokens x (List.mem_filter.mp hx).1, h.pending, h.devices⟩

end DrawnFrom

section Moves

variable {srv : Server} {r : Request} {start site : Site} {a a' : Account} {ids : List String}
  {before : List Draw}

/-- What a request leaves was drawn before or by the request itself. -/
def Attributed (srv : Server) (ids : List String) (before : List Draw) (start : Site) (a : Account) :
    Prop :=
  ∃ newer, a.drawn = newer ++ start.drawn ∧ DrawnFrom srv.digest ids (newer ++ before) a.state

theorem Move.attributed (h : Move srv r start a a') (ha : Attributed srv ids before start a) :
    Attributed srv ids before start a' := by
  obtain ⟨newer, hdrawn, hfrom⟩ := ha
  have hgrow (d : Draw) : newer ++ before ⊆ (d :: newer) ++ before :=
    List.subset_cons_of_subset d (List.Subset.refl _)
  cases h with
  | wait ht => exact ⟨newer, hdrawn, hfrom⟩
  | prune ht =>
    exact ⟨newer, hdrawn, hfrom.withSessions fun x hx => ⟨x, (List.mem_filter.mp hx).1, rfl⟩⟩
  | renew raw ht h => exact ⟨newer, hdrawn, hfrom.touched raw _⟩
  | use ht h hid =>
    refine ⟨newer, hdrawn, hfrom.sessions, fun x hx => ?_, hfrom.pending, hfrom.devices⟩
    obtain ⟨y, hy, rfl⟩ := List.mem_map.mp hx
    split
    · exact hfrom.tokens y hy
    · exact hfrom.tokens y hy
  | route mappings ht h hinit =>
    exact ⟨newer, hdrawn, hfrom.sessions, hfrom.tokens, hfrom.pending, hfrom.devices⟩
  | verify owner => exact ⟨newer, hdrawn, hfrom⟩
  | signIn issued ht hinit h =>
    refine ⟨.session issued :: newer, congrArg _ hdrawn, (hfrom.mono (hgrow _)).addSession
      List.mem_cons_self fun x hx => mem_admitted hx⟩
  | owner commands ht h heffect => exact ⟨newer, hdrawn, hfrom.owner heffect⟩
  | grant g commands ht h =>
    have hmore := hfrom.mono (hgrow (.token g))
    refine ⟨.token g :: newer, congrArg _ hdrawn, hmore.sessions, fun x hx => ?_, hmore.pending,
      hmore.devices⟩
    rcases List.mem_append.mp hx with hx | hx
    · exact hmore.tokens x hx
    · rw [List.mem_singleton.mp hx]
      exact ⟨g, List.mem_cons_self, rfl⟩
  | device pending commands ht h hinit =>
    have hmore := hfrom.mono (hgrow (.device pending))
    refine ⟨.device pending :: newer, congrArg _ hdrawn, hmore.sessions, hmore.tokens, ?_,
      hmore.devices⟩
    rintro _ ⟨⟩
    exact ⟨pending, List.mem_cons_self, rfl⟩
  | arrange commands h => exact ⟨newer, hdrawn, hfrom⟩
  | draw issued h => exact ⟨.session issued :: newer, congrArg _ hdrawn, hfrom.mono (hgrow _)⟩
  | @complete t issued ht h hfresh hissued =>
    -- the secret is the only one that the request has drawn
    obtain rfl : newer = [.session issued] := List.append_cancel_right (hdrawn.symm.trans hissued)
    have hnew : DrawnFrom srv.digest ids ([.session issued] ++ before)
        { a.state with sessions := a.state.sessions ++ [issued.record srv.digest] } :=
      hfrom.addSession List.mem_cons_self
        fun x hx => (List.mem_append.mp hx).imp_right List.mem_singleton.mp
    exact ⟨_, hdrawn, hnew.sessions, hnew.tokens, hnew.pending, hnew.devices⟩

theorem lasting_drawnFrom (srv : Server) (ids : List String) (base : List Draw) :
    Lasting srv fun s drawn => ∃ newer, drawn = newer ++ base ∧ DrawnFrom srv.digest ids newer s where
  request {r start site} h := by
    rintro ⟨before, hdrawn, hfrom⟩
    obtain ⟨newer, hnewer, hstate⟩ := h.invariant (J := Attributed srv ids before start)
      ⟨[], rfl, hfrom⟩ fun _ _ ha hmove => hmove.attributed ha
    refine ⟨newer ++ before, ?_, hstate⟩
    rw [List.append_assoc, ← hdrawn]
    exact hnewer
  bootstrap := fun ⟨newer, hdrawn, h⟩ => ⟨newer, hdrawn, h.sessions, h.tokens, h.pending, h.devices⟩
  serviceID _ := fun ⟨newer, hdrawn, h⟩ =>
    ⟨newer, hdrawn, h.sessions, h.tokens, h.pending, h.devices⟩
  pending := fun ⟨newer, hdrawn, h⟩ => ⟨newer, hdrawn, h.sessions, h.tokens, nofun, h.devices⟩
  reset := fun ⟨newer, hdrawn, h⟩ => ⟨newer, hdrawn, fun _ hx => absurd hx List.not_mem_nil,
    fun _ hx => absurd hx List.not_mem_nil, nofun, h.devices⟩

end Moves

/-! ## Credentials of an earlier owner -/

/-- What is random about a credential: the secret of a session, the text of a token, the id of a
device. -/
def Draw.random : Draw → List UInt8 ⊕ String ⊕ String
  | .session issued => .inl issued.secret
  | .token g => .inr (.inl g.token)
  | .device p => .inr (.inr p.id)

/-- No randomness is drawn twice, and the digests of what has been drawn do not collide. -/
structure FreshDraws (digest : Digest) (drawn : List Draw) : Prop where
  distinct : (drawn.map Draw.random).Nodup
  session : ∀ a b, .session a ∈ drawn → .session b ∈ drawn →
    digest.sum a.secret = digest.sum b.secret → a.secret = b.secret
  token : ∀ g h, .token g ∈ drawn → .token h ∈ drawn →
    digest.sum (utf8 g.token) = digest.sum (utf8 h.token) → g.token = h.token

section Renewed

variable {digest : Digest} {ids : List String} {newer base : List Draw} {s : State}

theorem FreshDraws.disjoint (h : FreshDraws digest (newer ++ base)) {a b : Draw} (ha : a ∈ newer)
    (hb : b ∈ base) : a.random ≠ b.random := by
  have hnodup := h.distinct
  rw [List.map_append] at hnodup
  exact (List.nodup_append.mp hnodup).2.2 _ (List.mem_map_of_mem ha) _ (List.mem_map_of_mem hb)

/-- No session of the state is that of an older secret. -/
theorem FreshDraws.session_refused (h : FreshDraws digest (newer ++ base))
    (hfrom : DrawnFrom digest ids newer s) {issued : Issued} (hissued : .session issued ∈ base)
    {x : LocalSession} (hx : x ∈ s.sessions) : x.matches (digest.sum issued.secret) = false := by
  obtain ⟨other, hother, hhash⟩ := hfrom.sessions x hx
  by_contra hmatch
  have hsum : digest.sum other.secret = digest.sum issued.secret := by
    have hmatch := beq_iff_eq.mp (eq_true_of_ne_false hmatch)
    rw [hhash] at hmatch
    exact Option.some.inj ((base64Decode_base64Encode _).symm.trans hmatch)
  have hsecret := h.session other issued (List.mem_append_left _ hother)
    (List.mem_append_right _ hissued) hsum
  exact h.disjoint hother hissued (congrArg Sum.inl hsecret)

theorem FreshDraws.token_refused (h : FreshDraws digest (newer ++ base))
    (hfrom : DrawnFrom digest ids newer s) {g : Grant} (hg : .token g ∈ base)
    {x : AgentToken} (hx : x ∈ s.tokens) : base64Decode x.tokenHash ≠ some (digest.sum (utf8 g.token)) := by
  obtain ⟨other, hother, hhash⟩ := hfrom.tokens x hx
  intro hmatch
  have hsum : digest.sum (utf8 other.token) = digest.sum (utf8 g.token) := by
    rw [hhash] at hmatch
    exact Option.some.inj ((base64Decode_base64Encode _).symm.trans hmatch)
  have htext := h.token other g (List.mem_append_left _ hother) (List.mem_append_right _ hg) hsum
  exact h.disjoint hother hg (congrArg (fun text => Sum.inr (Sum.inl text)) htext)

theorem FreshDraws.device_absent (h : FreshDraws digest (newer ++ base)) {p q : PendingDevice}
    (hp : .device p ∈ base) (hq : .device q ∈ newer) : q.id ≠ p.id := fun heq =>
  h.disjoint hq hp (congrArg (fun id => Sum.inr (Sum.inr id)) heq)

end Renewed

/-- What was given out before is not accepted afterwards: no cookie authenticates and no token is
authorised, no device that was waiting can be acknowledged, and a start of the daemon leaves no
authorisation of such a device to Tor. -/
structure Ended (srv : Server) (before after : Installation) : Prop where
  cookie : ∀ issued cookie, .session issued ∈ before.site.drawn →
    base64Decode cookie = some issued.secret → ∀ env n auth,
      ((authenticate srv.digest cookie).run env n after.site.world).1 ≠ .ok auth
  token : ∀ g, .token g ∈ before.site.drawn → ∀ required env n,
    ((authorize srv.digest g.token required).run env n after.site.world).1 ≠ .ok ()
  pending : ∀ p, .device p ∈ before.site.drawn → ∀ env n,
    ((acknowledgeDevice p.id).run env n after.site.world).1 ≠ .ok ()
  authorization : ∀ p, before.site.world.value.pending = some p → ∀ env n,
    (srv.runtime.restart.run env n after.site.world).1 = .ok () → ∀ a text,
      (srv.runtime.restart.run env n after.site.world).2.1.authAt .active = some a →
        a.lookup (authFile p.id) ≠ some (.file text)

section Ended

variable {srv : Server} {before after : Installation} {newer : List Draw}

/-- What an operation ensures when it returns nil. -/
theorem ok_of_wp {α : Type} {c : Op α} {w : World} {P : α → World → Prop}
    {Q : GoError → World → Prop} {C : World → Prop}
    (h : wp (fun _ => True) c (either P Q) C w) {env : ℕ → Event} {n : ℕ} {a : α}
    (hrun : (c.run env n w).1 = .ok a) : P a (c.run env n w).2.1 := by
  have hends := h.at env n fun _ => trivial
  rw [hrun] at hends
  exact hends

theorem ended_of_drawnFrom (hsite : after.site.Sound)
    (hdrawn : after.site.drawn = newer ++ before.site.drawn)
    (hfrom : DrawnFrom srv.digest (before.site.world.value.devices.map Device.id) newer
      after.site.world.value)
    (hpending : ∀ p, before.site.world.value.pending = some p →
      (∃ q, .device q ∈ before.site.drawn ∧ q.id = p.id) ∧
        p.id ∉ before.site.world.value.devices.map Device.id)
    (hfresh : FreshDraws srv.digest after.site.drawn) : Ended srv before after := by
  rw [hdrawn] at hfresh
  refine ⟨?_, ?_, ?_, ?_⟩
  · intro issued cookie hissued hcookie env n auth hrun
    obtain ⟨raw, x, hraw, -, hx, -, hmatch, -⟩ :=
      ok_of_wp (wp_authenticate_stored hsite.held hsite.valid) hrun
    obtain rfl : issued.secret = raw := Option.some.inj (hcookie.symm.trans hraw)
    rw [hfresh.session_refused hfrom hissued hx] at hmatch
    cases hmatch
  · intro g hg required env n hrun
    obtain ⟨id, -, -, hany, -⟩ := ok_of_wp (wp_authorize _ _ _ hsite.held hsite.valid) hrun
    obtain ⟨x, hx, hgrants⟩ := List.any_eq_true.mp hany
    simp only [World.grants, AgentToken.serves, Bool.and_eq_true, beq_iff_eq] at hgrants
    exact hfresh.token_refused hfrom hg hx hgrants.1.1.1.1
  · intro p hp env n hrun
    obtain ⟨s', ⟨q, _, hq, hid, -⟩, -⟩ :=
      ok_of_wp (commits_acknowledgeDevice p.id _ _ _ hsite.held) hrun
    obtain ⟨d, hd, hqd⟩ := hfrom.pending q hq
    exact hfresh.device_absent hp hd (hqd.trans hid)
  · intro p hp env n hrun
    obtain ⟨⟨q, hq, hqp⟩, hnew⟩ := hpending p hp
    obtain ⟨b, hb⟩ := hsite.held.durable
    refine ok_of_wp (wp_restart_unlisted srv.runtime hb hsite.valid hsite.held.encodable ?_) hrun
    -- a device of the state was there at the reset or has been drawn since
    intro hmem
    obtain ⟨record, hrecord, hid⟩ := List.mem_map.mp hmem
    rcases List.mem_append.mp hrecord with h | h
    · obtain ⟨d, hd, rfl⟩ := List.mem_map.mp h
      rcases hfrom.devices d hd with hold | ⟨q', hq', hsame⟩
      · exact hnew (hid ▸ hold)
      · exact hfresh.device_absent hq hq' (hsame.trans (hid.trans hqp.symm))
    · obtain ⟨d, hd, rfl⟩ := List.mem_map.mp h
      obtain ⟨q', hq', hsame⟩ := hfrom.pending d (Option.mem_toList.mp hd)
      exact hfresh.device_absent hq hq' (hsame.trans (hid.trans hqp.symm))

end Ended

/-! ## Runs -/

section Runs

variable {srv : Server} {turns : List Turn} {inst inst' : Installation}

theorem Installation.Fresh.steady {P : State → List Draw → Prop} (h : inst.Fresh)
    (hP : P newState []) : Steady P inst.site := by
  refine ⟨newState, ?_, by decide, h.value, ⟨none, h.durable⟩, ?_⟩
  · rw [h.drawn]
    exact hP
  · exact ⟨_, rfl⟩

/-- The state in a run is unowned or has an owner, and whatever it holds has been drawn. -/
theorem unowned_of_run (h : InstallationRun srv turns inst) : Unowned inst.site.world.value :=
  ((lasting_unowned srv).run (fun _ hinit => hinit.steady fun _ => ⟨rfl, rfl, rfl, rfl⟩) h).property

theorem drawnFrom_of_run (h : InstallationRun srv turns inst) :
    inst.site.Sound ∧ DrawnFrom srv.digest [] inst.site.drawn inst.site.world.value := by
  have hsteady := (lasting_drawnFrom srv [] []).run (fun _ hinit => hinit.steady
    ⟨[], rfl, fun _ hx => absurd hx List.not_mem_nil, fun _ hx => absurd hx List.not_mem_nil, nofun,
      fun _ hx => absurd hx List.not_mem_nil⟩) h
  obtain ⟨newer, hdrawn, hfrom⟩ := hsteady.property
  rw [List.append_nil] at hdrawn
  exact ⟨hsteady.sound, hdrawn ▸ hfrom⟩

/-- The guard of `ComponentChange` lets setup pass. -/
theorem componentCandidate_initialize {s : State} {session : LocalSession} (hencodable : s.Encodable)
    (hunowned : Unowned s) (hinit : s.initialized = false)
    (hvalid : { s with initialized := true, sessions := [session] }.Valid) :
    componentCandidate (initializeMutation session) s =
      .ok { s with initialized := true, sessions := [session] } := by
  have hsessions := (hunowned hinit).sessions
  have hmutate : initializeMutation session s =
      .ok { s with initialized := true, sessions := [session] } := by
    rw [initializeMutation, if_neg (by simp [hinit]), hsessions]
    rfl
  have hvalidate : { s with initialized := true, sessions := [session] }.validate = none := hvalid
  unfold componentCandidate
  rw [if_neg (by simp [hsessions]), clone_of_encodable hencodable, hmutate]
  simp only [bind, Except.bind, hvalidate]
  rfl

/-- A reset keeps the identity, the mappings and the devices. -/
theorem reset_keeps {env : ℕ → Event} (hsite : inst.site.Sound)
    (hstep : inst.step srv (.reset env) = some inst') :
    inst'.site.world.value.serviceID = inst.site.world.value.serviceID ∧
      inst'.site.world.value.mappings = inst.site.world.value.mappings ∧
      inst'.site.world.value.devices = inst.site.world.value.devices := by
  let A (s : State) (_ : List Draw) : Prop := s.serviceID = inst.site.world.value.serviceID ∧
    s.mappings = inst.site.world.value.mappings ∧ s.devices = inst.site.world.value.devices
  have hsteady : Steady A inst.site := hsite.steady ⟨rfl, rfl, rfl⟩
  have hmaintains (E : Event → Prop) :
      Maintains E (MayCrash E) (Steady A) (onWorld resetOwner) :=
    maintains_steady fun _ => maintains_evolved_of_since fun _ =>
      maintains_since_resetOwner (fun _ h => h) fun _ h => h
  dsimp only [Installation.step] at hstep
  split at hstep
  · cases hstep
  · cases hstep
    exact ((hmaintains fun _ => True).run env 0 hsteady).property

/-- What was given out before a reset has ended with it. -/
theorem ended_of_reset {env : ℕ → Event} {turns' : List Turn} {after : Installation}
    (h : InstallationRun srv turns inst) (hstep : inst.step srv (.reset env) = some inst')
    (hok : (resetOwner.run env 0 inst.site.world).1 = .ok ())
    (hafter : Run (· = inst') (fun inst turn inst' => inst.step srv turn = some inst') turns' after)
    (hfresh : FreshDraws srv.digest after.site.drawn) : Ended srv inst after := by
  obtain ⟨hsite, hbefore⟩ := drawnFrom_of_run h
  obtain ⟨hvalid, hheld⟩ := ok_of_wp (wp_resetOwner hsite.held hsite.valid) hok
  let ids := inst.site.world.value.devices.map Device.id
  have hreset : Steady (fun s drawn => ∃ newer, drawn = newer ++ inst.site.drawn ∧
      DrawnFrom srv.digest ids newer s) inst'.site := by
    dsimp only [Installation.step] at hstep
    split at hstep
    · cases hstep
    · cases hstep
      -- the devices are all that is left
      have hleft : DrawnFrom srv.digest ids [] (ownerless inst.site.world.value) :=
        ⟨fun _ hx => absurd hx List.not_mem_nil, fun _ hx => absurd hx List.not_mem_nil, nofun,
          fun d hd => .inl (List.mem_map_of_mem hd)⟩
      exact ⟨_, ⟨[], rfl, hleft⟩, hvalid, hheld⟩
  have hsteady := (lasting_drawnFrom srv ids inst.site.drawn).run
    (fun first (hfirst : first = inst') => by rw [hfirst]; exact hreset) hafter
  obtain ⟨newer, hdrawn, hfrom⟩ := hsteady.property
  refine ended_of_drawnFrom hsteady.sound hdrawn hfrom (fun p hp => ?_) hfresh
  exact ⟨hbefore.pending p hp, (hsite.valid.wellFormed.pending p hp).2⟩

end Runs

/-- In every run of an installation, a state without an owner gives no authority and setup is not
blocked. A reset keeps the identity, the mappings and the devices, and nothing that was given out
before it is accepted in a run that follows. -/
theorem installation_unowned (srv : Server) (turns : List Turn) (inst : Installation)
    (h : InstallationRun srv turns inst) :
    (inst.site.world.value.initialized = false →
      Blank inst.site.world.value ∧
        ∀ session, { inst.site.world.value with initialized := true, sessions := [session] }.Valid →
          componentCandidate (initializeMutation session) inst.site.world.value =
            .ok { inst.site.world.value with initialized := true, sessions := [session] }) ∧
    (∀ env inst', inst.step srv (.reset env) = some inst' →
      inst'.site.world.value.serviceID = inst.site.world.value.serviceID ∧
        inst'.site.world.value.mappings = inst.site.world.value.mappings ∧
        inst'.site.world.value.devices = inst.site.world.value.devices) ∧
    ∀ env inst', inst.step srv (.reset env) = some inst' →
      (resetOwner.run env 0 inst.site.world).1 = .ok () →
      ∀ turns' after,
        Run (· = inst') (fun inst turn inst' => inst.step srv turn = some inst') turns' after →
        FreshDraws srv.digest after.site.drawn → Ended srv inst after := by
  have hsite := (drawnFrom_of_run h).1
  have hunowned := unowned_of_run h
  refine ⟨fun hinit => ⟨hunowned hinit, fun session hvalid => ?_⟩,
    fun env inst' hstep => reset_keeps hsite hstep,
    fun env inst' hstep hok turns' after hafter hfresh => ended_of_reset h hstep hok hafter hfresh⟩
  exact componentCandidate_initialize hsite.held.encodable hunowned hinit hvalid

/-- An installation before its first start. -/
def emptyInstallation : Installation where
  site := { sampleSite with
    world := { ownedWorld with durable := newState, value := newState, dirs := fun _ => none } }
  running := false

/-- What the sample installation meets. -/
def sampleEvents : ℕ → Event := fun _ =>
  { Event.calm with hostname := sampleAddress 'a', bytes := List.replicate 32 0 }

/-- A form of the setup. -/
def setupRequest (path : String) (fields : List (String × String)) : Request where
  host := localHost
  method := .post
  path
  cookies := [("torkitten_flow", base64Encode (List.replicate 32 0)),
    ("torkitten_setup", base64Encode (List.replicate 32 0))]
  origin := localOrigin
  mediaType := some "application/x-www-form-urlencoded"
  form := some (("csrf", sampleServer.flowCSRF (base64Encode (List.replicate 32 0))) :: fields)

/-- The daemon is started, set up and stopped, newest turn first. -/
def sampleTurns : List Turn :=
  [.stop,
   .request (setupRequest "/setup/totp" [("totp", "123456")]) sampleEvents,
   .request (setupRequest "/setup/password" [("username", "owner"), ("password", "correct horse"),
     ("confirmation", "correct horse")]) sampleEvents,
   .restart sampleEvents]

/-- The only draw was that of a session. -/
def drewSession : List Draw → Bool
  | [.session _] => true
  | _ => false

/-- A run that has not failed. -/
def succeeded : Outcome GoError Unit → Bool
  | .ok _ => true
  | _ => false

/-- The owner who set the installation up is reset, and the session of the setup has ended. -/
theorem sampleTurns_ended : ∃ inst inst', InstallationRun sampleServer sampleTurns inst ∧
    inst.step sampleServer (.reset sampleEvents) = some inst' ∧
    (∃ issued, .session issued ∈ inst.site.drawn) ∧ Ended sampleServer inst inst' := by
  have heval : (replay (Installation.step sampleServer) emptyInstallation sampleTurns).any
      (fun inst => drewSession inst.site.drawn && !inst.running &&
        succeeded (resetOwner.run sampleEvents 0 inst.site.world).1) = true := by
    decide +kernel
  obtain ⟨inst, hinst, heval⟩ := (Option.any_eq_true _ _).mp heval
  rw [Bool.and_eq_true, Bool.and_eq_true] at heval
  obtain ⟨⟨hdrawn, hrunning⟩, hreset⟩ := heval
  have hrun : InstallationRun sampleServer sampleTurns inst :=
    .of_replay (s := emptyInstallation) ⟨rfl, rfl, rfl, rfl⟩ (fun _ _ _ h => h) hinst
  obtain ⟨issued, hissued⟩ : ∃ issued, inst.site.drawn = [.session issued] := by
    unfold drewSession at hdrawn
    split at hdrawn
    next issued heq => exact ⟨issued, heq⟩
    next => cases hdrawn
  have hok : (resetOwner.run sampleEvents 0 inst.site.world).1 = .ok () := by
    unfold succeeded at hreset
    split at hreset
    next heq => exact heq
    next => cases hreset
  have hstep : inst.step sampleServer (.reset sampleEvents) =
      some ⟨((onWorld resetOwner).run sampleEvents 0 inst.site).2.1, false⟩ := by
    dsimp only [Installation.step]
    rw [if_neg (by simpa using hrunning)]
  refine ⟨inst, _, hrun, hstep, ⟨issued, by rw [hissued]; exact List.mem_singleton_self _⟩, ?_⟩
  refine (installation_unowned _ _ _ hrun).2.2 _ _ hstep hok [] _ (.start rfl) ?_
  -- one draw is distinct from all others
  change FreshDraws _ inst.site.drawn
  rw [hissued]
  refine ⟨List.nodup_singleton _, fun a b ha hb _ => ?_, fun g h hg _ _ => ?_⟩
  · cases List.mem_singleton.mp ha
    cases List.mem_singleton.mp hb
    rfl
  · cases List.mem_singleton.mp hg

end Torkitten.Api
