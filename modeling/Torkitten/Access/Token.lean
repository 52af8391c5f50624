import Torkitten.Control.Stored
import Torkitten.Model.Codec

/-!
# Tokens of agents

`internal/apitoken`: how a token is made, how a request that carries one is authorised, and how a
token is revoked. A token is a text with its id at a fixed place; the store keeps the digest of the
whole text. Each token has a bucket of twenty calls that refills by one call a second; the buckets
are in memory only.
-/

namespace Torkitten

open Proc

/-- The longest lifetime of a token. -/
def maxLifetime : Duration := 365 * 24 * hour

/-- The level of a full bucket. -/
def fullBucket : ℤ := 20 * second

/-- The state of a bucket after `Manager.allow`, and whether the call is admitted. -/
def Bucket.draw (b : Bucket) (now : Time) : Bool × Bucket :=
  let remaining := min (b.remaining + (now - b.updated)) fullBucket
  if remaining < second then (false, { remaining, updated := now })
  else (true, { remaining := remaining - second, updated := now })

/-- The bucket of an id; a new one is full. -/
def bucketOf (rates : AList fun _ : String => Bucket) (id : String) (now : Time) : Bucket :=
  (rates.lookup id).getD { remaining := fullBucket, updated := now }

/-- `Manager.allow`. -/
def allow (id : String) (now : Time) : Op Bool := do
  let w ← get
  let (admits, bucket) := (bucketOf w.rates id now).draw now
  modify fun w => { w with rates := w.rates.insert id bucket }
  return admits

/-- The bucket of an id admits a call. -/
def World.admits (w : World) (id : String) (now : Time) : Bool :=
  ((bucketOf w.rates id now).draw now).1

/-- `hasScope`. -/
def hasScope (scopes : List Scope) (required : Scope) : Bool :=
  scopes.any fun scope => scope == required || scope == .mappingsWrite && required == .mappingsRead

/-- What `Manager.Create` is asked for and what it draws and reads. -/
structure Grant where
  name : String
  scopes : List Scope
  lifetime : Duration
  id : List UInt8
  secret : List UInt8
  createdAt : Time
  deriving DecidableEq, Repr

/-- The text of a token. -/
def Grant.token (g : Grant) : String := "tk_" ++ hexEncode g.id ++ "_" ++ base64Encode g.secret

section Model

variable (digest : Digest)

/-- The record of a token. -/
def Grant.record (g : Grant) : AgentToken where
  id := hexEncode g.id
  name := g.name
  tokenHash := base64Encode (digest.sum (utf8 g.token))
  scopes := g.scopes
  createdAt := g.createdAt
  lastUseAt := 0
  expiresAt := if g.lifetime > 0 then g.createdAt + g.lifetime else 0

/-- The request is one that `Manager.Create` accepts. -/
def tokenRequest (name : String) (lifetime : Duration) : Bool :=
  1 ≤ name.utf8ByteSize && name.utf8ByteSize ≤ 64 && trimSpace name == name &&
    decide (0 ≤ lifetime) && decide (lifetime ≤ maxLifetime)

/-- `Manager.Create`, with all that the token is made of. -/
def createGrant (name : String) (scopes : List Scope) (lifetime : Duration) : Op Grant :=
  if !tokenRequest name lifetime then .fail (.new "invalid token request")
  else do
    let scopes := if scopes.isEmpty then [.mappingsRead, .mappingsWrite] else scopes
    let id ← randomBytes 16
    let secret ← randomBytes 32
    let createdAt ← now
    let grant : Grant := { name, scopes, lifetime, id, secret, createdAt }
    worldStore.transition (some fun current =>
      if current.tokens.length ≥ maxTokens then .fail (.new "token limit reached")
      else return changed { current with tokens := current.tokens ++ [grant.record digest] } none ())
    return grant

/-- `Manager.Create`. -/
def createToken (name : String) (scopes : List Scope) (lifetime : Duration) :
    Op (String × String) := do
  let grant ← createGrant digest name scopes lifetime
  return (grant.token, hexEncode grant.id)

/-- The part of a token text that is its id, if the text has the form of a token. -/
def tokenID (token : String) : Option (List UInt8) :=
  let bytes := utf8 token
  if bytes.length ≠ 79 || bytes.take 3 ≠ utf8 "tk_" || bytes.getD 35 0 ≠ 95 then none
  else some ((bytes.drop 3).take 32)

/-- The record is one for the presented token, and lasts and suffices. -/
def AgentToken.serves (hash id : List UInt8) (required : Scope) (now : Time) (record : AgentToken) :
    Bool :=
  base64Decode record.tokenHash == some hash && utf8 record.id == id &&
    (record.expiresAt == 0 || decide (now < record.expiresAt)) && hasScope record.scopes required

/-- The loop of `Manager.Authorize`: whether a record has matched, and the records after it. -/
def authorizeTokens (hash id : List UInt8) (required : Scope) (now : Time) :
    List AgentToken → Op (Bool × List AgentToken)
  | [] => return (false, [])
  | record :: rest => do
    let admitted ← if record.serves hash id required now then allow record.id now else pure false
    let (matched, rest) ← authorizeTokens hash id required now rest
    return (admitted || matched,
      (if admitted then { record with lastUseAt := now } else record) :: rest)

/-- The part of `Manager.Authorize` that follows the reading of the clock. -/
def authorizeAt (token : String) (id : List UInt8) (required : Scope) (now : Time) : Op Unit := do
  let result ← attempt (worldStore.transition (some fun current => do
    let (matched, tokens) ←
      authorizeTokens (digest.sum (utf8 token)) id required now current.tokens
    if !matched then .fail (.new "token denied")
    else return changed { current with tokens } none ()))
  match result with
  | .ok _ => return ()
  | .error _ => .fail (.new "invalid or rate-limited API token")

/-- `Manager.Authorize`. -/
def authorize (token : String) (required : Scope) : Op Unit :=
  match tokenID token with
  | none => .fail (.new "invalid API token")
  | some id => do
    let now ← now
    authorizeAt digest token id required now

/-- `Manager.Revoke`. The bucket goes whether or not the record could be removed. -/
def revokeToken (id : String) : Op Unit := do
  let result ← attempt (worldStore.transition (some fun current =>
    return changed { current with tokens := current.tokens.filter fun t => t.id != id } none ()))
  modify fun w => { w with rates := w.rates.erase id }
  match result with
  | .ok _ => return ()
  | .error err => .fail err

end Model

/-! ## The text of a token -/

/-- Every text that `Create` returns has the form that `Authorize` asks for, and its id is found
where `Authorize` looks. -/
theorem tokenID_token {g : Grant} (hid : g.id.length = 16) (hsecret : g.secret.length = 32) :
    tokenID g.token = some (utf8 (hexEncode g.id)) := by
  have hlengthID : (utf8 (hexEncode g.id)).length = 32 := by rw [length_utf8_hexEncode, hid]
  have hlengthSecret : (utf8 (base64Encode g.secret)).length = 43 := by
    rw [length_utf8_base64Encode, hsecret]
  have hbytes : utf8 g.token =
      utf8 "tk_" ++ (utf8 (hexEncode g.id) ++ (95 :: utf8 (base64Encode g.secret))) := by
    have hunderscore : utf8 "_" = [95] := by decide +kernel
    rw [Grant.token, utf8_append, utf8_append, utf8_append, hunderscore]
    simp
  have hhead : utf8 "tk_" = [116, 107, 95] := by decide +kernel
  have hlength : (utf8 g.token).length = 79 := by
    rw [hbytes, hhead]
    simp [hlengthID, hlengthSecret]
  have htake : (utf8 g.token).take 3 = utf8 "tk_" := by
    rw [hbytes, hhead]
    rfl
  have hseparator : (utf8 g.token).getD 35 0 = 95 := by
    rw [hbytes, hhead]
    change (utf8 (hexEncode g.id) ++ _).getD 32 0 = 95
    rw [List.getD_eq_getElem?_getD, List.getElem?_append_right (by omega), hlengthID]
    rfl
  have hslice : ((utf8 g.token).drop 3).take 32 = utf8 (hexEncode g.id) := by
    rw [hbytes, hhead]
    change (utf8 (hexEncode g.id) ++ _).take 32 = _
    rw [← hlengthID, List.take_left]
  unfold tokenID
  simp only [hlength, htake, hseparator, hslice]
  simp

/-! ## The loop -/

section Loop

variable {E : Event → Prop} {C : World → Prop} {w : World} {hash id : List UInt8}
  {required : Scope} {now : Time} {tokens : List AgentToken}
  {Q : Except GoError (Bool × List AgentToken) → World → Prop}

/-- The record serves the call and its bucket admits it. -/
def World.grants (w : World) (hash id : List UInt8) (required : Scope) (now : Time)
    (record : AgentToken) : Bool :=
  record.serves hash id required now && w.admits record.id now

/-- The record after a call that it granted. -/
def AgentToken.usedAt (now : Time) (record : AgentToken) : AgentToken :=
  { record with lastUseAt := now }

theorem wp_allow {Q : Except GoError Bool → World → Prop} {name : String}
    (h : ∀ rates, Q (.ok (w.admits name now)) { w with rates }) : wp E (allow name now) Q C w := by
  unfold allow
  exact wp_bind (wp_get (wp_bind (wp_modify (wp_pure (h _)))))

/-- Records that do not serve the call are passed over. -/
theorem wp_authorizeTokens_none (hnone : ∀ x ∈ tokens, x.serves hash id required now = false)
    (h : Q (.ok (false, tokens)) w) : wp E (authorizeTokens hash id required now tokens) Q C w := by
  induction tokens generalizing Q with
  | nil => exact wp_pure h
  | cons x rest ih =>
    unfold authorizeTokens
    rw [hnone x List.mem_cons_self]
    refine wp_bind (wp_pure (wp_bind (ih (fun y hy => hnone y (List.mem_cons_of_mem _ hy)) ?_)))
    exact wp_pure h

/-- At most one record serves the call, since the ids differ; it is marked if its bucket admits the
call. -/
theorem wp_authorizeTokens (hids : (tokens.map AgentToken.id).Nodup)
    (h : ∀ rates, Q (.ok (tokens.any (w.grants hash id required now), tokens.map fun x =>
      if w.grants hash id required now x then x.usedAt now else x)) { w with rates }) :
    wp E (authorizeTokens hash id required now tokens) Q C w := by
  induction tokens generalizing Q with
  | nil => exact wp_pure (h w.rates)
  | cons x rest ih =>
    obtain ⟨hx, hrest⟩ := List.nodup_cons.mp hids
    unfold authorizeTokens
    by_cases hserves : x.serves hash id required now = true
    · -- the others have another id
      have hothers : ∀ y ∈ rest, y.serves hash id required now = false := by
        intro y hy
        by_contra hy'
        have hid : ∀ z : AgentToken, z.serves hash id required now = true → utf8 z.id = id := by
          intro z hz
          simp only [AgentToken.serves, Bool.and_eq_true, beq_iff_eq] at hz
          exact hz.1.1.2
        have hsame : y.id = x.id := utf8_injective
          ((hid y (by simpa using hy')).trans (hid x hserves).symm)
        exact hx (List.mem_map.mpr ⟨y, hy, hsame⟩)
      have hnone : ∀ y ∈ rest, w.grants hash id required now y = false := by
        intro y hy
        rw [World.grants, hothers y hy, Bool.false_and]
      have hgrants : w.grants hash id required now x = w.admits x.id now := by
        rw [World.grants, hserves, Bool.true_and]
      rw [if_pos hserves]
      refine wp_bind (wp_allow fun rates => wp_bind (wp_authorizeTokens_none hothers ?_))
      refine wp_pure ?_
      have hany : (x :: rest).any (w.grants hash id required now) = (w.admits x.id now || false) := by
        rw [List.any_cons, hgrants, List.any_eq_false.mpr fun y hy => by simp [hnone y hy]]
      have hmap : (x :: rest).map (fun y =>
          if w.grants hash id required now y then y.usedAt now else y) =
          (if w.admits x.id now then { x with lastUseAt := now } else x) :: rest := by
        rw [List.map_cons, hgrants]
        refine congrArg _ ((List.map_congr_left fun y hy => ?_).trans (List.map_id rest))
        rw [hnone y hy]
        rfl
      have hend := h rates
      rw [hany, hmap] at hend
      exact hend
    · have hgrants : w.grants hash id required now x = false := by
        rw [World.grants, Bool.eq_false_iff.mpr hserves, Bool.false_and]
      rw [if_neg hserves]
      refine wp_bind (wp_pure (wp_bind (ih hrest fun rates => wp_pure ?_)))
      have hend := h rates
      rw [List.any_cons, List.map_cons, hgrants] at hend
      exact hend

end Loop

/-! ## What the operations store -/

section Stored

variable {E : Event → Prop} {digest : Digest} {s : State} {w : World}

/-- What a successful call of `Create` made of its request. -/
structure Grant.Made (g : Grant) (w w' : World) : Prop where
  length_id : g.id.length = 16
  length_secret : g.secret.length = 32
  lifetime : 0 ≤ g.lifetime
  after : w.clock ≤ g.createdAt
  before : g.createdAt ≤ w'.clock

theorem wp_createGrant {name : String} {scopes : List Scope} {lifetime : Duration} (hw : Held w s) :
    wp E (createGrant digest name scopes lifetime)
      (either (fun g w' => g.Made w w' ∧
          g.scopes = (if scopes.isEmpty then [.mappingsRead, .mappingsWrite] else scopes) ∧
          ∃ s', s' = { s with tokens := s.tokens ++ [g.record digest] } ∧ s'.Valid ∧ Held w' s')
        fun _ w' => w.Since w')
      (fun w' => MayCrash E ∧ w.Since w') w := by
  unfold createGrant
  split
  next => exact wp_fail (.refl w)
  next hrequest =>
    have hlifetime : 0 ≤ lifetime := by
      simp only [tokenRequest, Bool.and_eq_true, Bool.not_eq_true', Bool.not_eq_false,
        decide_eq_true_eq] at hrequest
      exact hrequest.1.2
    refine wp_bind (wp_randomBytes (.refl w) fun id hid => ?_)
    refine wp_bind (wp_randomBytes (.refl w) fun secret hsecret => ?_)
    refine wp_bind (wp_now fun d => ?_)
    have hsince := (World.Since.refl w).elapsed d
    refine wp_bind ((hw.of_since hsince).wp_transition ?_)
    split
    next => exact wp_fail hsince
    next =>
      refine wp_pure (wp_worldCommit (fun _ => hsince) (fun hc => ⟨hc, hsince⟩) ?_)
      intro _ hvalid henc
      exact wp_pure ⟨⟨hid, hsecret, hlifetime, hsince.2, Int.le_refl _⟩, rfl, _, rfl, hvalid,
        held_stored henc⟩

/-- The records after `Authorize` in system `w`. -/
def World.authorized (w : World) (hash id : List UInt8) (required : Scope) (now : Time) (s : State) :
    State :=
  { s with tokens := s.tokens.map fun x =>
      if w.grants hash id required now x then x.usedAt now else x }

/-- A call is authorised only by a record that serves it and whose bucket admits it. One that is not
authorised leaves the state alone. -/
theorem wp_authorizeAt (digest : Digest) (token : String) (id : List UInt8) (required : Scope)
    (t : Time) (hw : Held w s) (hvalid : s.Valid) :
    wp E (authorizeAt digest token id required t)
      (either (fun _ w' => s.tokens.any (w.grants (digest.sum (utf8 token)) id required t) = true ∧
          w'.clock = w.clock ∧ Held w' (w.authorized (digest.sum (utf8 token)) id required t s) ∧
          (w.authorized (digest.sum (utf8 token)) id required t s).Valid)
        fun _ w' => w.Since w')
      (fun w' => MayCrash E ∧ w.Since w') w := by
  unfold authorizeAt
  refine wp_bind (wp_attempt (hw.wp_transition ?_))
  refine wp_bind (wp_authorizeTokens hvalid.token.2 fun rates => ?_)
  dsimp only [either_ok]
  split
  next => exact wp_fail (wp_fail (.refl w))
  next hany =>
    rw [Bool.not_eq_true', Bool.not_eq_false] at hany
    refine wp_pure (wp_worldCommit (fun _ => wp_fail (.refl w)) (fun hc => ⟨hc, .refl w⟩) ?_)
    exact fun _ hvalid' henc => wp_pure ⟨hany, rfl, held_stored henc, hvalid'⟩

/-- A call that some record grants is authorised, when the state file can be written. -/
theorem wp_authorizeAt_granted {token : String} {id : List UInt8} {required : Scope} {t : Time}
    (hw : Held w s) (hvalid : s.Valid) (hE : Persists E)
    (hany : s.tokens.any (w.grants (digest.sum (utf8 token)) id required t) = true)
    (hvalid' : (w.authorized (digest.sum (utf8 token)) id required t s).Valid)
    (hfits : (w.authorized (digest.sum (utf8 token)) id required t s).Fits) :
    wp E (authorizeAt digest token id required t) (fun r _ => r = .ok ()) (fun _ => False) w := by
  unfold authorizeAt
  refine wp_bind (wp_attempt (hw.wp_transition ?_))
  refine wp_bind (wp_authorizeTokens hvalid.token.2 fun rates => ?_)
  dsimp only [either_ok]
  rw [hany]
  exact wp_pure (wp_worldCommit_fits hE rfl hvalid' hfits (wp_pure rfl))

theorem authorize_run {token : String} {id : List UInt8} (hid : tokenID token = some id)
    (required : Scope) (env : ℕ → Event) (n : ℕ) (w : World) :
    (authorize digest token required).run env n w =
      (authorizeAt digest token id required (w.clock + (env n).elapsed)).run env (n + 1)
        { w with clock := w.clock + (env n).elapsed } := by
  unfold authorize
  rw [hid]
  exact bind_run_ok rfl

theorem wp_authorize (digest : Digest) (token : String) (required : Scope) (hw : Held w s)
    (hvalid : s.Valid) :
    wp E (authorize digest token required)
      (either (fun _ w' => ∃ id, tokenID token = some id ∧ w.clock ≤ w'.clock ∧
          s.tokens.any (w.grants (digest.sum (utf8 token)) id required w'.clock) = true ∧
          Held w' (w.authorized (digest.sum (utf8 token)) id required w'.clock s) ∧
          (w.authorized (digest.sum (utf8 token)) id required w'.clock s).Valid)
        fun _ w' => w.Since w')
      (fun w' => MayCrash E ∧ w.Since w') w := by
  unfold authorize
  split
  next => exact wp_fail (.refl w)
  next id hid =>
    refine wp_bind (wp_now fun d => ?_)
    have hsince := (World.Since.refl w).elapsed d
    refine wp_mono (wp_authorizeAt digest token id required _ (hw.of_since hsince) hvalid) ?_
      fun _ hc => ⟨hc.1, hsince.trans hc.2⟩
    intro r w' hr
    cases r with
    | error err => exact hsince.trans hr
    | ok _ =>
      obtain ⟨hany, hclock, hheld, hvalid'⟩ := hr
      change w'.clock = w.clock + d at hclock
      rw [← hclock] at hany hheld hvalid'
      exact ⟨id, hid, hclock ▸ hsince.2, hany, hheld, hvalid'⟩

/-- Marking a record as used keeps the state valid. -/
theorem State.Valid.authorized (h : s.Valid) (hash id : List UInt8) (required : Scope) (now : Time) :
    (w.authorized hash id required now s).Valid := by
  have hsame : ∀ x : AgentToken, checkToken (x.usedAt now) = checkToken x := fun _ => rfl
  refine h.withAccess h.session (List.Sublist.refl _) ?_ ?_
  · intro y hy
    obtain ⟨x, hx, rfl⟩ := List.mem_map.mp hy
    split
    · rw [hsame]
      exact h.token.1 x hx
    · exact h.token.1 x hx
  · have hids : (s.tokens.map fun x => if w.grants hash id required now x then x.usedAt now else x).map
        AgentToken.id = s.tokens.map AgentToken.id := by
      rw [List.map_map]
      refine List.map_congr_left fun x _ => ?_
      rw [Function.comp_apply]
      split
      · rfl
      · rfl
    rw [hids]

theorem commits_revokeToken (id : String) : Commits (revokeToken id) fun s _ s' =>
    s' = { s with tokens := s.tokens.filter fun t => t.id != id } := by
  intro E s w hw
  unfold revokeToken
  refine wp_bind (wp_attempt (hw.wp_transition (wp_pure (wp_worldCommit ?_ ?_ ?_))))
  · exact fun _ => wp_bind (wp_modify (wp_fail (.refl w)))
  · exact fun hc => ⟨hc, .refl w⟩
  · intro _ hvalid henc
    refine wp_bind (wp_modify (wp_pure ⟨_, rfl, fun _ => hvalid, ⟨rfl, ⟨_, rfl⟩, henc⟩, ?_⟩))
    exact Int.le_refl _

end Stored

end Torkitten
