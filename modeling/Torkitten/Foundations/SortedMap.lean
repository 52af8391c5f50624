import Mathlib.Data.Finmap
import Mathlib.Data.Finset.Sort
import Mathlib.Data.List.Sort

/-!
# Sorted lists as finite maps

A list of records can stand for a finite map when each record is a key with a value and the keys
increase strictly. This file relates such lists to `Finmap`: each map has exactly one list, and
inserting, replacing and removing records in the list are the operations of the map.
-/

namespace SortedMap

variable {ρ κ α : Type} [LinearOrder κ] (e : ρ ≃ κ × α)

/-- The records of a finite map, in the order of their keys. -/
def listing (f : Finmap fun _ : κ => α) : List ρ :=
  f.keys.sort.filterMap fun k => (f.lookup k).map fun a => e.symm (k, a)

/-- The order of two records that a sort by key compares with. -/
def keyLE (x y : ρ) : Prop := ¬ (e y).1 < (e x).1

instance (x y : ρ) : Decidable (keyLE e x y) := inferInstanceAs (Decidable (¬ _))

/-- A list with strictly increasing keys whose records are those of a finite map. -/
structure Lists (f : Finmap fun _ : κ => α) (l : List ρ) : Prop where
  sorted : l.Pairwise fun x y => (e x).1 < (e y).1
  mem_iff : ∀ x, x ∈ l ↔ f.lookup (e x).1 = some (e x).2

variable {e} {f : Finmap fun _ : κ => α} {l l' : List ρ}

/-- Sorting records with distinct keys gives strictly increasing keys. -/
theorem pairwise_lt_sort (hnodup : (l.map fun x => (e x).1).Nodup) :
    (l.insertionSort (keyLE e)).Pairwise fun x y => (e x).1 < (e y).1 := by
  have hle : (l.insertionSort (keyLE e)).Pairwise (keyLE e) := by
    have : Std.Total (keyLE e) := ⟨fun x y => by
      rcases le_total (e x).1 (e y).1 with hxy | hxy
      · exact .inl (not_lt.mpr hxy)
      · exact .inr (not_lt.mpr hxy)⟩
    have : IsTrans ρ (keyLE e) := ⟨fun x y z hxy hyz =>
      not_lt.mpr ((not_lt.mp hxy).trans (not_lt.mp hyz))⟩
    exact List.pairwise_insertionSort _ _
  have hne : (l.insertionSort (keyLE e)).Pairwise fun x y => (e x).1 ≠ (e y).1 :=
    List.pairwise_map.mp (((List.perm_insertionSort (keyLE e) l).map _).nodup_iff.mpr hnodup)
  exact (hle.and hne).imp fun h => lt_of_le_of_ne (not_lt.mp h.1) h.2

/-- A list with strictly increasing keys is determined by its records. -/
theorem eq_of_pairwise_lt (h : l.Pairwise fun x y => (e x).1 < (e y).1)
    (h' : l'.Pairwise fun x y => (e x).1 < (e y).1) (hmem : ∀ x, x ∈ l ↔ x ∈ l') : l = l' := by
  have hnodup : ∀ {l : List ρ}, (l.Pairwise fun x y => (e x).1 < (e y).1) → l.Nodup := fun h =>
    h.imp fun {x y} (hlt : (e x).1 < (e y).1) heq => absurd (congrArg (fun z => (e z).1) heq) hlt.ne
  have hperm : l.Perm l' := (List.perm_ext_iff_of_nodup (hnodup h) (hnodup h')).mpr hmem
  exact hperm.eq_of_pairwise (fun x y _ _ hxy hyx => absurd hxy (lt_asymm hyx)) h h'

theorem mem_listing {x : ρ} : x ∈ listing e f ↔ f.lookup (e x).1 = some (e x).2 := by
  simp only [listing, List.mem_filterMap, Finset.mem_sort, Option.map_eq_some_iff]
  constructor
  · rintro ⟨k, -, a, ha, rfl⟩
    rw [Equiv.apply_symm_apply]
    exact ha
  · intro hx
    refine ⟨(e x).1, ?_, (e x).2, hx, by simp⟩
    exact Finmap.mem_keys.mpr (Finmap.mem_of_lookup_eq_some hx)

/-- The listing of a map lists it. -/
theorem lists_listing : Lists e f (listing e f) where
  sorted := by
    refine List.Pairwise.filterMap _ ?_ (Finset.sortedLT_sort _).pairwise
    intro k k' hlt x hx y hy
    obtain ⟨a, -, rfl⟩ := Option.map_eq_some_iff.mp hx
    obtain ⟨b, -, rfl⟩ := Option.map_eq_some_iff.mp hy
    simpa using hlt
  mem_iff _ := mem_listing

namespace Lists

theorem nodup_keys (h : Lists e f l) : (l.map fun x => (e x).1).Nodup :=
  List.pairwise_map.mpr (h.sorted.imp fun hlt => hlt.ne)

/-- A map has one listing. -/
theorem unique (h : Lists e f l) (h' : Lists e f l') : l = l' :=
  eq_of_pairwise_lt h.sorted h'.sorted fun x => (h.mem_iff x).trans (h'.mem_iff x).symm

theorem eq_listing (h : Lists e f l) : l = listing e f := h.unique lists_listing

theorem mem_map_iff (h : Lists e f l) (k : κ) : k ∈ f ↔ ∃ x ∈ l, (e x).1 = k := by
  rw [Finmap.mem_iff]
  constructor
  · rintro ⟨a, ha⟩
    exact ⟨e.symm (k, a), (h.mem_iff _).mpr (by rw [Equiv.apply_symm_apply]; exact ha), by simp⟩
  · rintro ⟨x, hx, rfl⟩
    exact ⟨_, (h.mem_iff x).mp hx⟩

theorem empty : Lists e ∅ [] := ⟨.nil, by simp⟩

/-- Sorting records with distinct keys by their keys lists the map they describe. -/
theorem of_sort (hnodup : (l.map fun x => (e x).1).Nodup)
    (hmem : ∀ x, x ∈ l ↔ f.lookup (e x).1 = some (e x).2) :
    Lists e f (l.insertionSort (keyLE e)) where
  sorted := pairwise_lt_sort hnodup
  mem_iff x := by
    rw [(List.perm_insertionSort (keyLE e) l).mem_iff]
    exact hmem x

theorem eq_of_lookup_insert {x y : ρ} (hkey : (e y).1 = (e x).1)
    (h : (f.insert (e x).1 (e x).2).lookup (e y).1 = some (e y).2) : y = x := by
  rw [hkey, Finmap.lookup_insert] at h
  exact e.injective (Prod.ext hkey (Option.some.inj h).symm)

/-- Appending a record with a new key and sorting is insertion. -/
theorem insert (h : Lists e f l) {x : ρ} (hx : (e x).1 ∉ f) :
    Lists e (f.insert (e x).1 (e x).2) ((l ++ [x]).insertionSort (keyLE e)) := by
  have hnew : ∀ y ∈ l, (e y).1 ≠ (e x).1 := fun y hy heq =>
    hx ((h.mem_map_iff _).mpr ⟨y, hy, heq⟩)
  apply of_sort
  · rw [List.map_append, List.nodup_append]
    refine ⟨h.nodup_keys, by simp, ?_⟩
    simpa using hnew
  · intro y
    rw [List.mem_append, List.mem_singleton]
    constructor
    · rintro (hy | rfl)
      · rw [Finmap.lookup_insert_of_ne f (hnew y hy)]
        exact (h.mem_iff y).mp hy
      · exact Finmap.lookup_insert f
    · intro hy
      by_cases heq : (e y).1 = (e x).1
      · exact .inr (eq_of_lookup_insert heq hy)
      · rw [Finmap.lookup_insert_of_ne f heq] at hy
        exact .inl ((h.mem_iff y).mpr hy)

/-- Removing the records with a key is erasing it. -/
theorem erase (h : Lists e f l) (k : κ) :
    Lists e (f.erase k) (l.filter fun x => decide ((e x).1 ≠ k)) where
  sorted := h.sorted.filter _
  mem_iff x := by
    rw [List.mem_filter, decide_eq_true_eq, h.mem_iff]
    by_cases hk : (e x).1 = k
    · subst hk
      simp
    · rw [Finmap.lookup_erase_ne hk]
      exact and_iff_left hk

/-- Records in which the one with key `k` is replaced by `x`: they describe the map without `k`
and with `x`. -/
theorem mem_replaced_iff (h : Lists e f l) {k : κ} {x : ρ} (hk : k ∈ f)
    (hx : (e x).1 ∈ f → (e x).1 = k) (y : ρ) :
    y ∈ l.map (fun z => if (e z).1 = k then x else z) ↔
      ((f.erase k).insert (e x).1 (e x).2).lookup (e y).1 = some (e y).2 := by
  rw [List.mem_map]
  constructor
  · rintro ⟨z, hz, rfl⟩
    have hzf := (h.mem_iff z).mp hz
    by_cases hzk : (e z).1 = k
    · rw [if_pos hzk]
      exact Finmap.lookup_insert _
    · rw [if_neg hzk]
      -- a record that stays has another key than the new one
      have hne : (e z).1 ≠ (e x).1 := by
        intro heq
        exact hzk (heq.trans (hx (heq ▸ Finmap.mem_of_lookup_eq_some hzf)))
      rw [Finmap.lookup_insert_of_ne _ hne, Finmap.lookup_erase_ne hzk]
      exact hzf
  · intro hy
    by_cases heq : (e y).1 = (e x).1
    · obtain ⟨z, hz, hzk⟩ := (h.mem_map_iff k).mp hk
      exact ⟨z, hz, by rw [if_pos hzk]; exact (eq_of_lookup_insert heq hy).symm⟩
    · rw [Finmap.lookup_insert_of_ne _ heq] at hy
      by_cases hyk : (e y).1 = k
      · rw [hyk, Finmap.lookup_erase] at hy
        cases hy
      · rw [Finmap.lookup_erase_ne hyk] at hy
        exact ⟨y, (h.mem_iff y).mpr hy, if_neg hyk⟩

/-- Replacing the record with key `k` by one with a new key, and sorting. -/
theorem rename (h : Lists e f l) {k : κ} {x : ρ} (hk : k ∈ f) (hx : (e x).1 ∈ f → (e x).1 = k) :
    Lists e ((f.erase k).insert (e x).1 (e x).2)
      ((l.map fun z => if (e z).1 = k then x else z).insertionSort (keyLE e)) := by
  refine of_sort ?_ (h.mem_replaced_iff hk hx)
  rw [List.map_map]
  refine List.pairwise_map.mpr ?_
  refine h.sorted.imp_of_mem fun {y z} hy hz hlt => ?_
  have hnew : ∀ u ∈ l, (e u).1 ≠ k → (e u).1 ≠ (e x).1 := fun u hu hne heq =>
    hne (heq.trans (hx ((h.mem_map_iff _).mpr ⟨u, hu, heq⟩)))
  simp only [Function.comp_apply]
  split <;> split
  next hyk hzk => exact absurd (hyk.trans hzk.symm) hlt.ne
  next _ hzk => exact (hnew z hz hzk).symm
  next hyk _ => exact hnew y hy hyk
  next => exact hlt.ne

/-- Replacing a record by one with the same key. -/
theorem replace (h : Lists e f l) {x : ρ} (hx : (e x).1 ∈ f) :
    Lists e (f.insert (e x).1 (e x).2) (l.map fun z => if (e z).1 = (e x).1 then x else z) where
  sorted := by
    have hkey : ∀ z, (e (if (e z).1 = (e x).1 then x else z)).1 = (e z).1 := by
      intro z
      split
      next heq => exact heq.symm
      next => rfl
    refine List.pairwise_map.mpr (h.sorted.imp fun hlt => ?_)
    rw [hkey, hkey]
    exact hlt
  mem_iff y := by
    rw [h.mem_replaced_iff hx (fun _ => rfl)]
    have hinsert : (f.erase (e x).1).insert (e x).1 (e x).2 = f.insert (e x).1 (e x).2 := by
      refine Finmap.ext_lookup fun k => ?_
      by_cases hk : k = (e x).1
      · subst hk
        rw [Finmap.lookup_insert, Finmap.lookup_insert]
      · rw [Finmap.lookup_insert_of_ne _ hk, Finmap.lookup_insert_of_ne _ hk,
          Finmap.lookup_erase_ne hk]
    rw [hinsert]

end Lists

end SortedMap
