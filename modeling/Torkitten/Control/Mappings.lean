import Mathlib.Data.String.Basic
import Torkitten.Control.Stored
import Torkitten.Foundations.SortedMap

/-!
# The mappings as a finite map

What the four mapping operations are for: they keep a finite map from prefixes to targets. The
abstract operations insert, rename, enable and remove an entry of such a map or refuse to. The
stored list is the sorted listing of the map that the successful calls make, whatever Caddy and
the disk do in between, so the order in which entries were made cannot be seen in it.
-/

namespace Torkitten

open Proc SortedMap

/-- What a prefix is mapped to. -/
structure Target where
  port : ℤ
  protocol : Protocol
  enabled : Bool
  deriving DecidableEq, Repr

/-- A mapping is a prefix with a target. -/
def Mapping.entry : Mapping ≃ String × Target where
  toFun m := (m.prefixLabel, { port := m.port, protocol := m.protocol, enabled := m.enabled })
  invFun p := { prefixLabel := p.1, port := p.2.port, protocol := p.2.protocol, enabled := p.2.enabled }
  left_inv _ := rfl
  right_inv _ := rfl

/-- A finite map from prefixes to targets. -/
abbrev Routes := Finmap fun _ : String => Target

/-- The stored list of a map. -/
def Routes.mappings (routes : Routes) : List Mapping := listing Mapping.entry routes

/-- A call of one of the four mapping operations. -/
inductive MappingCall where
  | create (mapping : Mapping)
  | update (oldPrefix : String) (mapping : Mapping)
  | enable (label : String) (enabled : Bool)
  | delete (label : String)
  deriving DecidableEq, Repr

/-- What a call does to the map, if it is not refused. -/
def MappingCall.apply (routes : Routes) : MappingCall → Option Routes
  | .create m =>
    if m.prefixLabel ∈ routes then none else some (routes.insert m.prefixLabel m.entry.2)
  | .update oldPrefix m =>
    if oldPrefix ∉ routes then none
    else if m.prefixLabel ≠ oldPrefix ∧ m.prefixLabel ∈ routes then none
    else some ((routes.erase oldPrefix).insert m.prefixLabel m.entry.2)
  | .enable label enabled =>
    (routes.lookup label).map fun target => routes.insert label { target with enabled }
  | .delete label => if label ∈ routes then some (routes.erase label) else none

/-- The mutation of a call. -/
def MappingCall.mutation : MappingCall → Mutation
  | .create m => createMappingMutation m
  | .update oldPrefix m => updateMappingMutation oldPrefix m
  | .enable label enabled => enableMappingMutation label enabled
  | .delete label => deleteMappingMutation label

/-- The operation of a call. -/
def MappingCall.op (rt : Runtime) : MappingCall → Op Unit
  | .create m => rt.createMapping m
  | .update oldPrefix m => rt.updateMapping oldPrefix m
  | .enable label enabled => rt.enableMapping label enabled
  | .delete label => rt.deleteMapping label

theorem MappingCall.op_eq (rt : Runtime) (call : MappingCall) :
    call.op rt = rt.caddyChange call.mutation := by
  cases call <;> rfl

/-! ## The mutations -/

section Mutations

variable {routes : Routes} {s s' : State}

theorem sortMappings_eq (l : List Mapping) :
    sortMappings l = l.insertionSort (keyLE Mapping.entry) := by
  unfold sortMappings
  congr

/-- A mutation changes the listed map as its call says, and nothing but the mappings. -/
def Refines (call : MappingCall) : Prop :=
  ∀ (routes : Routes) (s s' : State), Lists Mapping.entry routes s.mappings →
    call.mutation s = .ok s' →
      ∃ routes', call.apply routes = some routes' ∧ Lists Mapping.entry routes' s'.mappings ∧
        s' = { s with mappings := s'.mappings }

theorem refines_create (m : Mapping) : Refines (.create m) := by
  intro routes s s' hlists hs'
  simp only [MappingCall.mutation, createMappingMutation] at hs'
  split at hs'
  · cases hs'
  next hnew =>
    cases hs'
    have hnot : m.prefixLabel ∉ routes := by
      intro hmem
      obtain ⟨x, hx, hkey⟩ := (hlists.mem_map_iff _).mp hmem
      exact hnew (List.any_eq_true.mpr ⟨x, hx, beq_iff_eq.mpr hkey⟩)
    refine ⟨_, if_neg hnot, ?_, rfl⟩
    rw [sortMappings_eq]
    exact hlists.insert (x := m) hnot

/-- The loop of `UpdateMapping` replaces the mapping with the old prefix and finds every other one
that has the new prefix. -/
theorem replaceMapping_eq_ok {oldPrefix : String} {m : Mapping} {l l' : List Mapping} {found : Bool}
    (h : replaceMapping oldPrefix m l = .ok (l', found)) :
    l' = l.map (fun x => if x.prefixLabel = oldPrefix then m else x) ∧
      (found = true → ∃ x ∈ l, x.prefixLabel = oldPrefix) ∧
      ∀ x ∈ l, x.prefixLabel ≠ oldPrefix → x.prefixLabel ≠ m.prefixLabel := by
  induction l generalizing l' found with
  | nil =>
    cases h
    simp
  | cons y rest ih =>
    unfold replaceMapping at h
    split at h
    next hold =>
      obtain ⟨⟨rest', found'⟩, hrest, heq⟩ := bind_eq_ok_iff.mp h
      cases heq
      obtain ⟨rfl, -, hother⟩ := ih hrest
      refine ⟨by simp [hold], fun _ => ⟨y, by simp, hold⟩, ?_⟩
      intro x hx hne
      rcases List.mem_cons.mp hx with rfl | hx
      · exact absurd hold hne
      · exact hother x hx hne
    next hold =>
      split at h
      · cases h
      next hnew =>
        obtain ⟨⟨rest', found'⟩, hrest, heq⟩ := bind_eq_ok_iff.mp h
        cases heq
        obtain ⟨rfl, hfound, hother⟩ := ih hrest
        refine ⟨by simp [hold], fun hf => ?_, ?_⟩
        · obtain ⟨x, hx, hxold⟩ := hfound hf
          exact ⟨x, List.mem_cons_of_mem _ hx, hxold⟩
        · intro x hx hne
          rcases List.mem_cons.mp hx with rfl | hx
          · exact hnew
          · exact hother x hx hne

theorem refines_update (oldPrefix : String) (m : Mapping) : Refines (.update oldPrefix m) := by
  intro routes s s' hlists hs'
  simp only [MappingCall.mutation, updateMappingMutation] at hs'
  obtain ⟨⟨l', found⟩, hloop, hs'⟩ := bind_eq_ok_iff.mp hs'
  obtain ⟨rfl, hfound, hother⟩ := replaceMapping_eq_ok hloop
  cases found with
  | false => cases hs'
  | true =>
    cases hs'
    have hold : oldPrefix ∈ routes := (hlists.mem_map_iff _).mpr (hfound rfl)
    have hfree : m.prefixLabel ∈ routes → m.prefixLabel = oldPrefix := by
      intro hmem
      obtain ⟨x, hx, hkey⟩ := (hlists.mem_map_iff _).mp hmem
      by_contra hne
      exact hother x hx (fun hxold => hne (hkey.symm.trans hxold)) hkey
    refine ⟨(routes.erase oldPrefix).insert m.prefixLabel m.entry.2, ?_, ?_, rfl⟩
    · simp only [MappingCall.apply]
      rw [if_neg (not_not.mpr hold), if_neg]
      exact fun hclash => hclash.1 (hfree hclash.2)
    · rw [sortMappings_eq]
      exact hlists.rename (x := m) hold hfree

/-- The loop of `EnableMapping` sets the flag of the only mapping with the prefix. -/
theorem enableFirst_eq_some {label : String} {enabled : Bool} {l l' : List Mapping}
    (hnodup : (l.map Mapping.prefixLabel).Nodup) (h : enableFirst label enabled l = some l') :
    ∃ m ∈ l, m.prefixLabel = label ∧
      l' = l.map fun x => if x.prefixLabel = label then { m with enabled } else x := by
  induction l generalizing l' with
  | nil => cases h
  | cons y rest ih =>
    rw [List.map_cons, List.nodup_cons] at hnodup
    unfold enableFirst at h
    split at h
    next hlabel =>
      cases h
      refine ⟨y, by simp, hlabel, ?_⟩
      -- no later mapping has the prefix
      have hrest : ∀ x ∈ rest, x.prefixLabel ≠ label := by
        intro x hx heq
        exact hnodup.1 (List.mem_map.mpr ⟨x, hx, heq.trans hlabel.symm⟩)
      have hsame : rest.map (fun x => if x.prefixLabel = label then { y with enabled } else x) =
          rest.map id := List.map_congr_left fun x hx => if_neg (hrest x hx)
      rw [List.map_cons, if_pos hlabel, hsame, List.map_id]
    next hlabel =>
      obtain ⟨rest', hrest, rfl⟩ := Option.map_eq_some_iff.mp h
      obtain ⟨m, hm, hkey, rfl⟩ := ih hnodup.2 hrest
      exact ⟨m, List.mem_cons_of_mem _ hm, hkey, by rw [List.map_cons, if_neg hlabel]⟩

theorem refines_enable (label : String) (enabled : Bool) : Refines (.enable label enabled) := by
  intro routes s s' hlists hs'
  simp only [MappingCall.mutation, enableMappingMutation] at hs'
  split at hs'
  · cases hs'
  next l' hl' =>
    cases hs'
    obtain ⟨m, hm, rfl, rfl⟩ := enableFirst_eq_some hlists.nodup_keys hl'
    have hlookup : routes.lookup m.prefixLabel = some m.entry.2 := (hlists.mem_iff m).mp hm
    refine ⟨routes.insert m.prefixLabel { m.entry.2 with enabled }, ?_, ?_, rfl⟩
    · simp only [MappingCall.apply]
      rw [hlookup]
      rfl
    · exact hlists.replace (x := { m with enabled }) (Finmap.mem_of_lookup_eq_some hlookup)

theorem refines_delete (label : String) : Refines (.delete label) := by
  intro routes s s' hlists hs'
  simp only [MappingCall.mutation, deleteMappingMutation] at hs'
  split at hs'
  · cases hs'
  next hlength =>
    cases hs'
    -- something was removed, so the prefix was there
    have hmem : label ∈ routes := by
      by_contra hnot
      refine hlength (congrArg List.length (List.filter_eq_self.mpr fun x hx => ?_))
      simp only [bne_iff_ne, ne_eq]
      exact fun heq => hnot ((hlists.mem_map_iff _).mpr ⟨x, hx, heq⟩)
    refine ⟨routes.erase label, if_pos hmem, ?_, rfl⟩
    have hfilter : s.mappings.filter (fun m => m.prefixLabel != label) =
        s.mappings.filter fun m => decide ((Mapping.entry m).1 ≠ label) :=
      List.filter_congr fun x _ => by rw [Bool.eq_iff_iff, bne_iff_ne, decide_eq_true_iff]; rfl
    rw [hfilter]
    exact hlists.erase label

theorem refines (call : MappingCall) : Refines call := by
  cases call with
  | create m => exact refines_create m
  | update oldPrefix m => exact refines_update oldPrefix m
  | enable label enabled => exact refines_enable label enabled
  | delete label => exact refines_delete label

end Mutations

/-! ## Runs -/

/-- The map that a record of calls makes of the empty one, newest call first; the flag says whether
the call returned nil. There is none if a call that returned nil should have been refused. -/
def madeRoutes : List (MappingCall × Bool) → Option Routes
  | [] => some ∅
  | (call, true) :: earlier => (madeRoutes earlier).bind call.apply
  | (_, false) :: earlier => madeRoutes earlier

/-- The runs of the mapping operations on a store that holds `s₀`, for any behaviour of Caddy and
of the disk. -/
abbrev MappingRun (rt : Runtime) (s₀ : State) : List (MappingCall × Bool) → World → Prop :=
  Run (fun w => w.stored = (s₀, s₀)) fun w call w' => ∃ env n,
    ((call.1.op rt).run env n w).1.isOk = call.2 ∧ ((call.1.op rt).run env n w).2.1 = w'

/-- A run can go on with any call, whatever the surroundings do during it. -/
theorem MappingRun.call {rt : Runtime} {s₀ : State} {calls : List (MappingCall × Bool)} {w : World}
    (r : MappingRun rt s₀ calls w) (call : MappingCall) (env : ℕ → Event) (n : ℕ) :
    MappingRun rt s₀ ((call, ((call.op rt).run env n w).1.isOk) :: calls)
      ((call.op rt).run env n w).2.1 :=
  .next r ⟨env, n, rfl, rfl⟩

/-- What a step of such a run does to what is stored. -/
theorem MappingCall.op_stored (call : MappingCall) (rt : Runtime) {s : State} {w : World}
    (env : ℕ → Event) (n : ℕ) (hw : Held w s) :
    match ((call.op rt).run env n w).1.isOk with
    | true => ∃ s', call.mutation s = .ok s' ∧ s'.Valid ∧ Held ((call.op rt).run env n w).2.1 s'
    | false => ((call.op rt).run env n w).2.1.stored = w.stored := by
  have hwp := (commits_caddyChange rt call.mutation (fun _ => True) s w hw).at env n fun _ => trivial
  rw [call.op_eq]
  revert hwp
  generalize (rt.caddyChange call.mutation).run env n w = out
  obtain ⟨outcome, w', n'⟩ := out
  cases outcome with
  | ok _ => exact fun ⟨s', hs', _, hw', _⟩ => ⟨s', hs'.1, hs'.2.2, hw'⟩
  | error _ => exact And.left
  | crash => exact fun h => h.2.1

/-- What every run of the mapping operations keeps. -/
structure Mapped (s₀ : State) (calls : List (MappingCall × Bool)) (w : World) : Prop where
  made : ∃ routes : Routes, madeRoutes calls = some routes ∧
    w.value = { s₀ with mappings := routes.mappings }
  held : Held w w.value
  valid : w.value.mappings ≠ [] → w.value.Valid

theorem Mapped.ofRun {rt : Runtime} {s₀ : State} {calls : List (MappingCall × Bool)} {w : World}
    (henc : s₀.Encodable) (hempty : s₀.mappings = []) (r : MappingRun rt s₀ calls w) :
    Mapped s₀ calls w := by
  refine Run.invariant (I := Mapped s₀) ?_ ?_ r
  · intro w hw
    have hvalue : w.value = s₀ := congrArg Prod.snd hw
    have hdurable : w.durable = s₀ := congrArg Prod.fst hw
    refine ⟨⟨∅, rfl, ?_⟩, ⟨rfl, ⟨s₀.bootstrap, by rw [hdurable, hvalue]⟩, hvalue ▸ henc⟩, fun hne => ?_⟩
    · have hnil : Routes.mappings ∅ = [] := Lists.empty.eq_listing.symm
      rw [hvalue, hnil, ← hempty]
    · rw [hvalue] at hne
      exact absurd hempty hne
  · rintro calls w ⟨call, ok⟩ w' h ⟨env, n, hok, hw'⟩
    have hstep := call.op_stored rt env n h.held
    rw [hw', hok] at hstep
    obtain ⟨⟨routes, hmade, hvalue⟩, hheld, hvalid⟩ := h
    cases ok with
    | false =>
      have hheld' : Held w' w.value := hheld.of_stored hstep
      have hv : w'.value = w.value := hheld'.value
      exact ⟨⟨routes, hmade, hv.trans hvalue⟩, hv.symm ▸ hheld', hv.symm ▸ hvalid⟩
    | true =>
      obtain ⟨next, hmutation, hvalid', hheld'⟩ := hstep
      have hv : w'.value = next := hheld'.value
      have hlists : Lists Mapping.entry routes w.value.mappings := by
        rw [hvalue]
        exact lists_listing
      obtain ⟨routes', happly, hlists', hnext⟩ := refines call routes w.value next hlists hmutation
      refine ⟨⟨routes', ?_, ?_⟩, hv.symm ▸ hheld', fun _ => hv ▸ hvalid'⟩
      · simp only [madeRoutes]
        rw [hmade]
        exact happly
      · rw [hv, hnext, hvalue, hlists'.eq_listing]
        rfl

/-- The mapping operations refine a finite map. In every run on a store without mappings the stored
list is the sorted listing of the map made by the calls that returned nil; it is strictly
increasing, bounded and valid; a call that does not return nil leaves it alone; and runs that make
the same map store the same list and render the same configuration. -/
theorem mappings_refine {rt : Runtime} {s₀ : State} {calls : List (MappingCall × Bool)} {w : World}
    (henc : s₀.Encodable) (hempty : s₀.mappings = []) (r : MappingRun rt s₀ calls w) :
    (∃ routes : Routes, madeRoutes calls = some routes ∧ w.value.mappings = routes.mappings) ∧
      w.durable.mappings = w.value.mappings ∧
      (w.value.mappings.Pairwise fun a b => a.prefixLabel < b.prefixLabel) ∧
      w.value.mappings.length ≤ 128 ∧ (∀ m ∈ w.value.mappings, validateMapping m = none) ∧
      (∀ (call : MappingCall) env n, ((call.op rt).run env n w).1.isOk = false →
        ((call.op rt).run env n w).2.1.stored = w.stored) ∧
      ∀ (rt' : Runtime) calls' w', MappingRun rt' s₀ calls' w' →
        madeRoutes calls' = madeRoutes calls → w'.value.mappings = w.value.mappings ∧
          ∀ renderer : Caddy.Renderer, renderer.render w'.value = renderer.render w.value := by
  have h := Mapped.ofRun henc hempty r
  obtain ⟨routes, hmade, hvalue⟩ := h.made
  have hmappings : w.value.mappings = routes.mappings := by rw [hvalue]
  have hvalid : w.value.mappings.length ≤ 128 ∧ ∀ m ∈ w.value.mappings, validateMapping m = none := by
    by_cases hnil : w.value.mappings = []
    · simp [hnil]
    · have hv := h.valid hnil
      exact ⟨(valid_iff.mp hv).2.2.2.1.1, hv.wellFormed.mapping⟩
  have hdurable : w.durable.mappings = w.value.mappings := by
    obtain ⟨b, hb⟩ := h.held.durable
    rw [hb]
  refine ⟨⟨routes, hmade, hmappings⟩, hdurable, ?_, hvalid.1, hvalid.2, ?_, ?_⟩
  · rw [hmappings]
    exact (lists_listing (e := Mapping.entry) (f := routes)).sorted
  · intro call env n hfailed
    have hstep := call.op_stored rt env n h.held
    rw [hfailed] at hstep
    exact hstep
  · intro rt' calls' w' r' hsame
    obtain ⟨routes', hmade', hvalue'⟩ := (Mapped.ofRun henc hempty r').made
    obtain rfl : routes' = routes := Option.some.inj (hmade'.symm.trans (hsame.trans hmade))
    have heq : w'.value = w.value := hvalue'.trans hvalue.symm
    exact ⟨by rw [heq], fun renderer => by rw [heq]⟩

/-- A mapping. -/
def sampleMapping : Mapping := { prefixLabel := "b", port := 8080, protocol := .http, enabled := true }

theorem createMapping_ok : ((MappingCall.op sampleRuntime (.create sampleMapping)).run
    (fun _ => .calm) 0 ownedWorld).1.isOk = true := by
  decide +kernel

/-- A mapping created on a store without mappings is stored. -/
theorem sampleMapping_listed : ∃ w, MappingRun sampleRuntime sampleOwned
    [(.create sampleMapping, true)] w ∧
      ∃ routes : Routes, madeRoutes [(.create sampleMapping, true)] = some routes ∧
        w.value.mappings = routes.mappings := by
  have r : MappingRun sampleRuntime sampleOwned _ _ :=
    MappingRun.call (.start (s := ownedWorld) rfl) (.create sampleMapping) (fun _ => .calm) 0
  rw [createMapping_ok] at r
  exact ⟨_, r, (mappings_refine encodable_sampleOwned rfl r).1⟩

end Torkitten
