import Torkitten.Access.Operations
import Torkitten.Access.Token

/-!
# The authority of a token

The runs of the operations on tokens, mixed with all other operations on the store. What a token
may do is said by the record of the run: it was made by a call of `Create`, it has not been taken
back since, and it was made for long enough and for enough. `Authorize` agrees with that, up to the
bucket of the token.
-/

namespace Torkitten

open Proc

/-- What a call did. -/
inductive TokenEvent where
  | created (g : Grant)
  | authorized
  | revoked (id : String)
  | reset
  | other
  deriving DecidableEq, Repr

/-- The record of a run, newest call first; nothing stands for a call that returned an error. -/
abbrev TokenLog := List (Option TokenEvent)

/-- The tokens that have been made and not taken back, oldest first. -/
def grants : TokenLog → List Grant
  | [] => []
  | some (.created g) :: earlier => grants earlier ++ [g]
  | some (.revoked id) :: earlier => (grants earlier).filter fun g => hexEncode g.id != id
  | some .reset :: _ => []
  | _ :: earlier => grants earlier

/-- A call, of an operation on tokens or of another one. -/
inductive TokenCall where
  | create (name : String) (scopes : List Scope) (lifetime : Duration)
  | authorize (token : String) (required : Scope)
  | revoke (id : String)
  | reset
  | other (call : StoreCall)
  deriving DecidableEq, Repr

/-- What a call runs. -/
def TokenCall.op (digest : Digest) (rt : Runtime) : TokenCall → Op TokenEvent
  | .create name scopes lifetime => do
    let g ← createGrant digest name scopes lifetime
    return .created g
  | .authorize token required => do
    Torkitten.authorize digest token required
    return .authorized
  | .revoke id => do
    revokeToken id
    return .revoked id
  | .reset => do
    stageOwnerReset
    return .reset
  | .other call => do
    call.op digest rt
    return .other

/-- A call, for any behaviour of the surroundings, and how it is recorded. -/
def TokenStep (digest : Digest) (rt : Runtime) (w : World) (event : Option TokenEvent) (w' : World) :
    Prop :=
  ∃ (call : TokenCall) (env : ℕ → Event) (n : ℕ), (∀ i, Lives (env i)) ∧
    ((call.op digest rt).run env n w).2.1 = w' ∧ event = ((call.op digest rt).run env n w).1.value

/-- The runs on a store that holds a valid state without tokens, at a time after the first year. -/
abbrev TokenRun (digest : Digest) (rt : Runtime) : TokenLog → World → Prop :=
  Run (fun w => Held w w.value ∧ w.value.Valid ∧ w.value.tokens = [] ∧ 0 ≤ w.clock)
    (TokenStep digest rt)

/-- A run can go on with any call, whatever the surroundings do during it. -/
theorem TokenRun.call {digest : Digest} {rt : Runtime} {log : TokenLog} {w : World}
    (r : TokenRun digest rt log w) (call : TokenCall) (env : ℕ → Event) (n : ℕ)
    (hlives : ∀ i, Lives (env i)) :
    TokenRun digest rt (((call.op digest rt).run env n w).1.value :: log)
      ((call.op digest rt).run env n w).2.1 :=
  .next r ⟨call, env, n, hlives, rfl, rfl⟩

/-- A record without the time of its last use. -/
def AgentToken.unused (t : AgentToken) : AgentToken := { t with lastUseAt := 0 }

/-- What a token was made of, and when. -/
structure Grant.Sound (g : Grant) : Prop where
  length_id : g.id.length = 16
  length_secret : g.secret.length = 32
  lifetime : 0 ≤ g.lifetime
  createdAt : 0 ≤ g.createdAt

/-- What every run keeps. -/
structure Granted (digest : Digest) (log : TokenLog) (w : World) : Prop where
  held : Held w w.value
  valid : w.value.Valid
  tokens : w.value.tokens.map AgentToken.unused = (grants log).map (Grant.record digest)
  sound : ∀ g, some (.created g) ∈ log → g.Sound
  clock : 0 ≤ w.clock

section Calls

variable {digest : Digest} {log : TokenLog} {w w' : World}

/-- A call that leaves the tokens alone, but for the times of their use. -/
theorem Granted.unchanged (h : Granted digest log w) {s' : State} {event : Option TokenEvent}
    (hheld : Held w' s') (hvalid : s'.Valid) (hclock : w.clock ≤ w'.clock)
    (htokens : s'.tokens.map AgentToken.unused = w.value.tokens.map AgentToken.unused)
    (hgrants : grants (event :: log) = grants log) (hevent : ∀ g, event ≠ some (.created g)) :
    Granted digest (event :: log) w' := by
  obtain rfl := hheld.value
  refine ⟨hheld, hvalid, ?_, ?_, Int.le_trans h.clock hclock⟩
  · rw [htokens, h.tokens, hgrants]
  · intro g hg
    rcases List.mem_cons.mp hg with hg | hg
    · exact absurd hg.symm (hevent g)
    · exact h.sound g hg

theorem Granted.since (h : Granted digest log w) (hw : w.Since w') :
    Granted digest (none :: log) w' :=
  h.unchanged (h.held.of_since hw) h.valid hw.2 rfl rfl nofun

theorem Granted.create (h : Granted digest log w) (name : String) (scopes : List Scope)
    (lifetime : Duration) :
    wp Lives (do
        let g ← createGrant digest name scopes lifetime
        return TokenEvent.created g)
      (fun r w' => Granted digest (r.toOption :: log) w') (fun _ => False) w := by
  refine wp_bind (wp_mono (wp_createGrant h.held) ?_ fun _ hc => not_mayCrash_lives hc.1)
  intro r w' hr
  cases r with
  | error err => exact h.since hr
  | ok g =>
    obtain ⟨hmade, -, s', hs', hvalid, hheld⟩ := hr
    obtain rfl := hheld.value
    have hcreated := Int.le_trans h.clock hmade.after
    refine wp_pure ⟨hheld, hvalid, ?_, ?_, Int.le_trans hcreated hmade.before⟩
    · have hunused : (g.record digest).unused = g.record digest := rfl
      change _ = (grants log ++ [g]).map _
      rw [hs', List.map_append, List.map_append, h.tokens]
      simp [hunused]
    · intro g' hg'
      rcases List.mem_cons.mp hg' with hg' | hg'
      · cases hg'
        exact ⟨hmade.length_id, hmade.length_secret, hmade.lifetime, hcreated⟩
      · exact h.sound g' hg'

theorem Granted.authorized (h : Granted digest log w) (token : String) (required : Scope) :
    wp Lives (do
        authorize digest token required
        return TokenEvent.authorized)
      (fun r w' => Granted digest (r.toOption :: log) w') (fun _ => False) w := by
  refine wp_bind (wp_mono (wp_authorize digest token required h.held h.valid) ?_ fun _ hc => not_mayCrash_lives hc.1)
  intro r w' hr
  cases r with
  | error err => exact h.since hr
  | ok _ =>
    obtain ⟨id, -, hclock, -, hheld, hvalid⟩ := hr
    refine wp_pure (h.unchanged hheld hvalid hclock ?_ rfl nofun)
    dsimp only [World.authorized]
    rw [List.map_map]
    refine List.map_congr_left fun x _ => ?_
    rw [Function.comp_apply]
    split
    · rfl
    · rfl

theorem Granted.revoke (h : Granted digest log w) (id : String) :
    wp Lives (do
        revokeToken id
        return TokenEvent.revoked id)
      (fun r w' => Granted digest (r.toOption :: log) w') (fun _ => False) w := by
  refine wp_bind (wp_mono (commits_revokeToken id Lives w.value w h.held) ?_
    fun _ hc => not_mayCrash_lives hc.1)
  intro r w' hr
  cases r with
  | error err => exact h.since hr
  | ok _ =>
    obtain ⟨s', hs', hvalid, hheld, hclock⟩ := hr
    obtain rfl := hheld.value
    refine wp_pure ⟨hheld, hvalid h.valid, ?_, ?_, Int.le_trans h.clock hclock⟩
    · -- the records are dropped by the id that their tokens were made with
      change _ = ((grants log).filter _).map _
      rw [hs']
      have hleft : (w.value.tokens.filter fun t => t.id != id).map AgentToken.unused =
          (w.value.tokens.map AgentToken.unused).filter fun t => t.id != id := by
        rw [List.filter_map]
        rfl
      have hright : ((grants log).filter fun g => hexEncode g.id != id).map (Grant.record digest) =
          ((grants log).map (Grant.record digest)).filter fun t => t.id != id := by
        rw [List.filter_map]
        rfl
      rw [hleft, hright, h.tokens]
    · exact fun g hg => h.sound g ((List.mem_cons.mp hg).resolve_left nofun)

theorem Granted.reset (h : Granted digest log w) :
    wp Lives (do
        stageOwnerReset
        return TokenEvent.reset)
      (fun r w' => Granted digest (r.toOption :: log) w') (fun _ => False) w := by
  refine wp_bind (wp_mono (commits_stageOwnerReset Lives w.value w h.held) ?_
    fun _ hc => not_mayCrash_lives hc.1)
  intro r w' hr
  cases r with
  | error err => exact h.since hr
  | ok _ =>
    obtain ⟨s', hs', hvalid, hheld, hclock⟩ := hr
    obtain rfl := hheld.value
    refine wp_pure ⟨hheld, hvalid h.valid, ?_, ?_, Int.le_trans h.clock hclock⟩
    · rw [hs'.2]
      rfl
    · exact fun g hg => h.sound g ((List.mem_cons.mp hg).resolve_left nofun)

theorem Granted.other (h : Granted digest log w) (rt : Runtime) (call : StoreCall) :
    wp Lives (do
        call.op digest rt
        return TokenEvent.other)
      (fun r w' => Granted digest (r.toOption :: log) w') (fun _ => False) w := by
  refine wp_bind (wp_mono (moves_storeCall digest rt call Lives w.value w h.held h.valid) ?_
    fun _ hc => not_mayCrash_lives hc.1)
  rintro r w' ⟨s', hs', hvalid, hheld, hclock⟩
  have htokens : s'.tokens = w.value.tokens := hs'.elim (fun hs' => by rw [hs']) (·.tokens)
  have hnext : ∀ event : Option TokenEvent, grants (event :: log) = grants log →
      (∀ g, event ≠ some (.created g)) → Granted digest (event :: log) w' := fun event =>
    h.unchanged hheld hvalid hclock (by rw [htokens])
  cases r with
  | error err => exact hnext none rfl nofun
  | ok _ => exact wp_pure (hnext _ rfl nofun)

theorem Granted.call (h : Granted digest log w) (rt : Runtime) (call : TokenCall) :
    wp Lives (call.op digest rt) (fun r w' => Granted digest (r.toOption :: log) w')
      (fun _ => False) w := by
  cases call with
  | create name scopes lifetime => exact h.create name scopes lifetime
  | authorize token required => exact h.authorized token required
  | revoke id => exact h.revoke id
  | reset => exact h.reset
  | other call => exact h.other rt call

theorem Granted.ofRun {rt : Runtime} (r : TokenRun digest rt log w) : Granted digest log w := by
  refine Run.invariant (I := Granted digest) ?_ ?_ r
  · rintro w ⟨hheld, hvalid, hempty, hclock⟩
    exact ⟨hheld, hvalid, by rw [hempty]; rfl, nofun, hclock⟩
  · rintro log w event w' h ⟨call, env, n, hlives, hw', rfl⟩
    have hcall := (h.call rt call).at env n hlives
    revert hcall hw'
    generalize (call.op digest rt).run env n w = out
    obtain ⟨outcome, w'', n'⟩ := out
    rintro rfl hcall
    cases outcome with
    | ok event => exact hcall
    | error err => exact hcall
    | crash => exact hcall.elim

end Calls

/-! ## What a token may do -/

section Authority

variable {digest : Digest} {rt : Runtime} {log : TokenLog} {w : World} {token : String}
  {required : Scope} {t : Time}

/-- The token was made for long enough and for enough. -/
structure Grant.Permits (g : Grant) (required : Scope) (t : Time) : Prop where
  lasting : 0 < g.lifetime → t < g.createdAt + g.lifetime
  scope : required ∈ g.scopes ∨ required = .mappingsRead ∧ .mappingsWrite ∈ g.scopes

theorem hasScope_iff {scopes : List Scope} : hasScope scopes required = true ↔
    required ∈ scopes ∨ required = .mappingsRead ∧ .mappingsWrite ∈ scopes := by
  simp only [hasScope, List.any_eq_true, Bool.or_eq_true, beq_iff_eq, Bool.and_eq_true]
  constructor
  · rintro ⟨scope, hscope, rfl | ⟨rfl, hrequired⟩⟩
    · exact .inl hscope
    · exact .inr ⟨hrequired, hscope⟩
  · rintro (hscope | ⟨hrequired, hscope⟩)
    · exact ⟨required, hscope, .inl rfl⟩
    · exact ⟨_, hscope, .inr ⟨rfl, hrequired⟩⟩

theorem lasting_iff {g : Grant} (hg : g.Sound) :
    ((g.record digest).expiresAt == 0 || decide (t < (g.record digest).expiresAt)) = true ↔
      (0 < g.lifetime → t < g.createdAt + g.lifetime) := by
  by_cases hlifetime : 0 < g.lifetime
  · have hexpires : (g.record digest).expiresAt = g.createdAt + g.lifetime := if_pos hlifetime
    have hne : g.createdAt + g.lifetime ≠ 0 :=
      (Int.add_pos_of_nonneg_of_pos hg.createdAt hlifetime).ne'
    rw [hexpires, Bool.or_eq_true, beq_iff_eq, decide_eq_true_eq]
    exact ⟨fun h _ => h.resolve_left hne, fun h => .inr (h hlifetime)⟩
  · have hexpires : (g.record digest).expiresAt = 0 := if_neg hlifetime
    rw [hexpires]
    exact ⟨fun _ h => absurd h hlifetime, fun _ => rfl⟩

/-- The record of a token serves exactly the calls that carry the token and that it permits. -/
theorem serves_iff {g : Grant} {x : AgentToken} {id : List UInt8} (hg : g.Sound)
    (hx : x.unused = g.record digest) (hid : tokenID token = some id)
    (hinj : digest.sum (utf8 g.token) = digest.sum (utf8 token) → g.token = token) :
    x.serves (digest.sum (utf8 token)) id required t = true ↔
      token = g.token ∧ g.Permits required t := by
  have hserves : x.serves (digest.sum (utf8 token)) id required t =
      (g.record digest).serves (digest.sum (utf8 token)) id required t := by
    rw [← hx]
    rfl
  have hhash : base64Decode (g.record digest).tokenHash = some (digest.sum (utf8 g.token)) :=
    base64Decode_base64Encode _
  have hscopes : (g.record digest).scopes = g.scopes := rfl
  rw [hserves, AgentToken.serves, Bool.and_eq_true, Bool.and_eq_true, Bool.and_eq_true, beq_iff_eq,
    beq_iff_eq, lasting_iff hg, hscopes, hasScope_iff, hhash, Option.some.injEq]
  constructor
  · rintro ⟨⟨⟨hsum, -⟩, hlasting⟩, hscope⟩
    exact ⟨(hinj hsum).symm, hlasting, hscope⟩
  · rintro ⟨rfl, hlasting, hscope⟩
    rw [tokenID_token hg.length_id hg.length_secret] at hid
    exact ⟨⟨⟨rfl, Option.some.inj hid⟩, hlasting⟩, hscope⟩

theorem created_of_mem_grants {log : TokenLog} {g : Grant} (h : g ∈ grants log) :
    some (.created g) ∈ log := by
  induction log with
  | nil => cases h
  | cons event log ih =>
    have hskip : g ∈ grants log → some (.created g) ∈ event :: log := fun h =>
      List.mem_cons_of_mem _ (ih h)
    match event with
    | some (.created g') =>
      rcases List.mem_append.mp h with h | h
      · exact hskip h
      · rw [List.mem_singleton.mp h]
        exact List.mem_cons_self
    | some (.revoked _) => exact hskip (List.mem_filter.mp h).1
    | some .reset => cases h
    | some .authorized => exact hskip h
    | some .other => exact hskip h
    | none => exact hskip h

/-- The digest tells the token that is presented from those that are in force. -/
def Recognises (digest : Digest) (token : String) (log : TokenLog) : Prop :=
  Set.InjOn (fun x => digest.sum (utf8 x)) { x | x = token ∨ x ∈ (grants log).map Grant.token }

/-- Some record grants the call exactly if the token is in force, permits the call and has room in
its bucket. -/
theorem Granted.any_iff (h : Granted digest log w) (hinj : Recognises digest token log)
    {id : List UInt8} (hid : tokenID token = some id) :
    w.value.tokens.any (w.grants (digest.sum (utf8 token)) id required t) = true ↔
      ∃ g ∈ Torkitten.grants log, token = g.token ∧ g.Permits required t ∧
        w.admits (hexEncode g.id) t = true := by
  have htells : ∀ g ∈ Torkitten.grants log,
      digest.sum (utf8 g.token) = digest.sum (utf8 token) → g.token = token := fun g hg =>
    hinj (.inr (List.mem_map_of_mem hg)) (.inl rfl)
  rw [List.any_eq_true]
  constructor
  · rintro ⟨x, hx, hgrants⟩
    obtain ⟨g, hg, hrecord⟩ := List.mem_map.mp (h.tokens ▸ List.mem_map_of_mem (f := AgentToken.unused) hx)
    rw [World.grants, Bool.and_eq_true,
      serves_iff (h.sound g (created_of_mem_grants hg)) hrecord.symm hid (htells g hg)] at hgrants
    have hname : x.id = hexEncode g.id := congrArg AgentToken.id hrecord.symm
    exact ⟨g, hg, hgrants.1.1, hgrants.1.2, hname ▸ hgrants.2⟩
  · rintro ⟨g, hg, htoken, hpermits, hadmits⟩
    obtain ⟨x, hx, hrecord⟩ := List.mem_map.mp
      (h.tokens.symm ▸ List.mem_map_of_mem (f := Grant.record digest) hg)
    have hname : x.id = hexEncode g.id := congrArg AgentToken.id hrecord
    refine ⟨x, hx, ?_⟩
    rw [World.grants, Bool.and_eq_true,
      serves_iff (h.sound g (created_of_mem_grants hg)) hrecord hid (htells g hg)]
    exact ⟨⟨htoken, hpermits⟩, hname ▸ hadmits⟩

/-- The state after a call that token `g` was used for. -/
def State.usedToken (s : State) (g : Grant) (t : Time) : State :=
  { s with tokens := s.tokens.map fun x =>
      if x.id = hexEncode g.id then { x with lastUseAt := t } else x }

/-- The record that grants a call is the one with the id of its token. -/
theorem Granted.authorized_eq (h : Granted digest log w) {id : List UInt8} {g : Grant}
    (hinj : Recognises digest token log) (hid : tokenID token = some id)
    (hg : g ∈ Torkitten.grants log) (htoken : token = g.token) (hpermits : g.Permits required t)
    (hadmits : w.admits (hexEncode g.id) t = true) :
    w.authorized (digest.sum (utf8 token)) id required t w.value = w.value.usedToken g t := by
  have hsound := h.sound g (created_of_mem_grants hg)
  have hidg : id = utf8 (hexEncode g.id) := by
    rw [htoken, tokenID_token hsound.length_id hsound.length_secret] at hid
    exact (Option.some.inj hid).symm
  obtain ⟨y, hy, hrecord⟩ := List.mem_map.mp
    (h.tokens.symm ▸ List.mem_map_of_mem (f := Grant.record digest) hg)
  have hname : y.id = hexEncode g.id := congrArg AgentToken.id hrecord
  have hserves : y.serves (digest.sum (utf8 token)) id required t = true :=
    (serves_iff hsound hrecord hid
      (hinj (.inr (List.mem_map_of_mem hg)) (.inl rfl))).mpr ⟨htoken, hpermits⟩
  have hiff : ∀ x ∈ w.value.tokens,
      w.grants (digest.sum (utf8 token)) id required t x = true ↔ x.id = hexEncode g.id := by
    intro x hx
    constructor
    · intro hgrants
      simp only [World.grants, AgentToken.serves, Bool.and_eq_true, beq_iff_eq] at hgrants
      exact utf8_injective (hgrants.1.1.1.2.trans hidg)
    · intro hxid
      obtain rfl := List.inj_on_of_nodup_map h.valid.token.2 hx hy (hxid.trans hname.symm)
      rw [World.grants, hserves, hname, hadmits]
      rfl
  have hmap : (w.value.tokens.map fun x =>
      if w.grants (digest.sum (utf8 token)) id required t x then x.usedAt t else x) =
      w.value.tokens.map fun x => if x.id = hexEncode g.id then { x with lastUseAt := t } else x := by
    refine List.map_congr_left fun x hx => ?_
    by_cases hxid : x.id = hexEncode g.id
    · rw [if_pos hxid, if_pos ((hiff x hx).mpr hxid)]
      rfl
    · rw [if_neg hxid, if_neg fun hgrants => hxid ((hiff x hx).mp hgrants)]
  rw [World.authorized, hmap]
  rfl

/-- What a call that returns nil has found and stored. -/
theorem Granted.of_authorize (h : Granted digest log w) (hinj : Recognises digest token log)
    {env : ℕ → Event} {n : ℕ} (hlives : ∀ i, Lives (env i))
    (hok : ((authorize digest token required).run env n w).1 = .ok ()) :
    ∃ g ∈ Torkitten.grants log, token = g.token ∧ g.Permits required (w.clock + (env n).elapsed) ∧
      w.admits (hexEncode g.id) (w.clock + (env n).elapsed) = true ∧
      Held ((authorize digest token required).run env n w).2.1
        (w.value.usedToken g (w.clock + (env n).elapsed)) := by
  cases hid : tokenID token with
  | none =>
    unfold authorize at hok
    rw [hid] at hok
    cases hok
  | some id =>
    have hsince := (World.Since.refl w).elapsed (env n).elapsed
    have hends := (wp_authorizeAt (E := Lives) digest token id required
      (w.clock + (env n).elapsed) (h.held.of_since hsince) h.valid).at env (n + 1) hlives
    rw [authorize_run hid] at hok ⊢
    rw [hok] at hends
    obtain ⟨hany, -, hheld, -⟩ := hends
    obtain ⟨g, hg, htoken, hpermits, hadmits⟩ := (h.any_iff hinj hid).mp hany
    have heq := h.authorized_eq hinj hid hg htoken hpermits hadmits
    exact ⟨g, hg, htoken, hpermits, hadmits, heq ▸ hheld⟩

/-- The exact authority of a token. When the state file can be written, a call is authorised exactly
if it carries the text of a token that is in force, permits the call and has room in its bucket.
Every text that `Create` returns has the form that is asked for. A call that is authorised changes
the time of the last use of that token, and one that is not changes nothing. -/
theorem authorize_iff_granted (r : TokenRun digest rt log w) (token : String) (required : Scope)
    (env : ℕ → Event) (n : ℕ) (hlives : ∀ i, Lives (env i)) (hinj : Recognises digest token log) :
    ((∀ i, (env i).persistFails = false) → (∀ id, tokenID token = some id →
        (w.authorized (digest.sum (utf8 token)) id required (w.clock + (env n).elapsed)
          w.value).Fits) →
      (((authorize digest token required).run env n w).1 = .ok () ↔
        ∃ g ∈ grants log, token = g.token ∧ g.Permits required (w.clock + (env n).elapsed) ∧
          w.admits (hexEncode g.id) (w.clock + (env n).elapsed) = true)) ∧
    (∀ g, some (.created g) ∈ log → tokenID g.token = some (utf8 (hexEncode g.id))) ∧
    (((authorize digest token required).run env n w).1 = .ok () →
      ∃ g ∈ grants log, token = g.token ∧
        ((authorize digest token required).run env n w).2.1.value =
          w.value.usedToken g (w.clock + (env n).elapsed) ∧
        ∃ b, ((authorize digest token required).run env n w).2.1.durable =
          { w.value.usedToken g (w.clock + (env n).elapsed) with bootstrap := b }) ∧
    (((authorize digest token required).run env n w).1 ≠ .ok () →
      ((authorize digest token required).run env n w).2.1.stored = w.stored) := by
  have h := Granted.ofRun r
  refine ⟨fun hpersist hfits => ⟨?_, ?_⟩, ?_, ?_, ?_⟩
  · intro hok
    obtain ⟨g, hg, htoken, hpermits, hadmits, -⟩ := h.of_authorize hinj hlives hok
    exact ⟨g, hg, htoken, hpermits, hadmits⟩
  · rintro ⟨g, hg, htoken, hpermits, hadmits⟩
    have hsound := h.sound g (created_of_mem_grants hg)
    have hid : tokenID token = some (utf8 (hexEncode g.id)) := by
      rw [htoken, tokenID_token hsound.length_id hsound.length_secret]
    have hsince := (World.Since.refl w).elapsed (env n).elapsed
    have hends := (wp_authorizeAt_granted (E := fun e => e.crash = false ∧ e.persistFails = false)
      (h.held.of_since hsince) h.valid (fun _ he => he)
      ((h.any_iff hinj hid).mpr ⟨g, hg, htoken, hpermits, hadmits⟩)
      (h.valid.authorized _ _ _ _) (hfits _ hid)).at env (n + 1) fun i => ⟨hlives i, hpersist i⟩
    rw [authorize_run hid]
    revert hends
    generalize (authorizeAt digest token _ required _).run env (n + 1) _ = out
    obtain ⟨outcome, w', n'⟩ := out
    cases outcome with
    | ok _ => exact fun _ => rfl
    | error err => exact nofun
    | crash => exact False.elim
  · intro g hg
    have hsound := h.sound g hg
    exact tokenID_token hsound.length_id hsound.length_secret
  · intro hok
    obtain ⟨g, hg, htoken, -, -, hheld⟩ := h.of_authorize hinj hlives hok
    exact ⟨g, hg, htoken, hheld.value, hheld.durable⟩
  · have hends := (wp_authorize (E := Lives) digest token required h.held h.valid).at env n hlives
    revert hends
    generalize (authorize digest token required).run env n w = out
    obtain ⟨outcome, w', n'⟩ := out
    cases outcome with
    | ok _ => exact fun _ hne => absurd rfl hne
    | error err => exact fun hends _ => hends.1
    | crash => exact fun hends _ => hends.2.1

end Authority

/-! ### A sample -/

/-- The token that is made where the random source gives zeros. -/
def sampleGrant : Grant where
  name := "agent"
  scopes := [.mappingsRead, .mappingsWrite]
  lifetime := 0
  id := takeBytes 16 []
  secret := takeBytes 32 []
  createdAt := ownedWorld.clock

/-- The state with an owner and a token that has just been used. -/
def sampleUsed : State :=
  { sampleOwned with tokens := [(sampleGrant.record sampleDigest).usedAt ownedWorld.clock] }

/-- What is compared of the system in which the token has been made. -/
def seenToken (out : Outcome GoError TokenEvent × World × ℕ) : Option TokenEvent × Time × State × Bool :=
  (out.1.value, out.2.1.clock, out.2.1.authorized (sampleDigest.sum (utf8 sampleGrant.token))
    (utf8 (hexEncode sampleGrant.id)) .mappingsRead ownedWorld.clock out.2.1.value,
    out.2.1.admits (hexEncode sampleGrant.id) ownedWorld.clock)

theorem createSample_ok : seenToken (((TokenCall.create "agent" [] 0).op sampleDigest
    sampleRuntime).run (fun _ => .calm) 0 ownedWorld) =
      (some (.created sampleGrant), ownedWorld.clock, sampleUsed, true) := by
  decide +kernel

theorem fits_sampleUsed : sampleUsed.Fits := by decide +kernel

theorem tokenRun_of_seen {out : Outcome GoError TokenEvent × World × ℕ}
    (r : TokenRun sampleDigest sampleRuntime [out.1.value] out.2.1)
    (hseen : seenToken out = (some (.created sampleGrant), ownedWorld.clock, sampleUsed, true)) :
    ∃ w, TokenRun sampleDigest sampleRuntime [some (.created sampleGrant)] w ∧
      w.clock = ownedWorld.clock ∧ w.authorized (sampleDigest.sum (utf8 sampleGrant.token))
        (utf8 (hexEncode sampleGrant.id)) .mappingsRead ownedWorld.clock w.value = sampleUsed ∧
      w.admits (hexEncode sampleGrant.id) ownedWorld.clock = true := by
  have hevent : out.1.value = some (.created sampleGrant) := congrArg Prod.fst hseen
  rw [hevent] at r
  exact ⟨_, r, congrArg (fun x => x.2.1) hseen, congrArg (fun x => x.2.2.1) hseen,
    congrArg (fun x => x.2.2.2) hseen⟩

theorem tokenRun_sample :
    ∃ w, TokenRun sampleDigest sampleRuntime [some (.created sampleGrant)] w ∧
      w.clock = ownedWorld.clock ∧ w.authorized (sampleDigest.sum (utf8 sampleGrant.token))
        (utf8 (hexEncode sampleGrant.id)) .mappingsRead ownedWorld.clock w.value = sampleUsed ∧
      w.admits (hexEncode sampleGrant.id) ownedWorld.clock = true := by
  have hstart : TokenRun sampleDigest sampleRuntime [] ownedWorld :=
    .start ⟨held_ownedWorld, valid_sampleOwned, rfl, by decide⟩
  exact tokenRun_of_seen (hstart.call (.create "agent" [] 0) (fun _ => .calm) 0 fun _ => rfl)
    createSample_ok

/-- A token that has just been made is accepted. -/
theorem sampleToken_authorized :
    ∃ w, TokenRun sampleDigest sampleRuntime [some (.created sampleGrant)] w ∧
      ((authorize sampleDigest sampleGrant.token .mappingsRead).run (fun _ => .calm) 0 w).1 =
        .ok () := by
  obtain ⟨w, r, hclock, hused, hadmits⟩ := tokenRun_sample
  have hnow : w.clock + (Event.calm.elapsed : ℕ) = ownedWorld.clock := by
    rw [hclock]
    exact Int.add_zero _
  have hid : tokenID sampleGrant.token = some (utf8 (hexEncode sampleGrant.id)) :=
    tokenID_token rfl rfl
  have hinj : Recognises sampleDigest sampleGrant.token [some (.created sampleGrant)] := by
    have hall : ∀ x, x = sampleGrant.token ∨ x ∈ (grants [some (.created sampleGrant)]).map
        Grant.token → x = sampleGrant.token := by
      rintro x (rfl | hx)
      · rfl
      · exact List.mem_singleton.mp hx
    exact fun x hx y hy _ => (hall x hx).trans (hall y hy).symm
  refine ⟨w, r, ((authorize_iff_granted r sampleGrant.token .mappingsRead (fun _ => .calm) 0
    (fun _ => rfl) hinj).1 (fun _ => rfl) ?_).mpr
      ⟨sampleGrant, List.mem_singleton_self _, rfl, ⟨nofun, .inl List.mem_cons_self⟩, ?_⟩⟩
  · intro id hid'
    obtain rfl := Option.some.inj (hid.symm.trans hid')
    rw [hnow, hused]
    exact fits_sampleUsed
  · rw [hnow]
    exact hadmits

end Torkitten
