import Mathlib.Data.List.Basic

/-!
# Reading values off texts

A printer writes values one after the other. Its texts can be told apart if, from left to right, each
piece tells something about the value and where the piece ends. `Reads` says this of one piece, and the
rules below combine pieces.
-/

namespace Torkitten

/-- Two texts cut at their first separator are equal exactly in both parts. -/
theorem append_separator_inj {α : Type} {d : α} {a b x y : List α} (ha : d ∉ a) (hb : d ∉ b)
    (h : a ++ d :: x = b ++ d :: y) : a = b ∧ x = y := by
  induction a generalizing b with
  | nil =>
    cases b with
    | nil => simpa using h
    | cons c b =>
      obtain ⟨rfl, -⟩ := List.cons.inj h
      simp at hb
  | cons c a ih =>
    cases b with
    | nil =>
      obtain ⟨rfl, -⟩ := List.cons.inj h
      simp at ha
    | cons c' b =>
      obtain ⟨rfl, htail⟩ := List.cons.inj h
      simp only [List.mem_cons, not_or] at ha hb
      obtain ⟨rfl, rfl⟩ := ih ha.2 hb.2 htail
      exact ⟨rfl, rfl⟩

/-- From the text of a value, with anything after it, an aspect of the value and what comes after can
be read off. -/
def Reads {α β γ : Type} (P : α → Prop) (text : α → List β) (aspect : α → γ) : Prop :=
  ∀ a b x y, P a → P b → text a ++ x = text b ++ y → aspect a = aspect b ∧ x = y

namespace Reads

variable {α β γ δ : Type} {P : α → Prop} {text text' : α → List β} {aspect : α → γ}

/-- A piece that is the same for all values says nothing. -/
theorem fixed (h : ∀ a b, P a → P b → text a = text b) (c : γ) : Reads P text fun _ => c := by
  intro a b x y ha hb heq
  rw [h a b ha hb] at heq
  exact ⟨rfl, List.append_cancel_left heq⟩

/-- A piece up to a separator is read as a whole. -/
theorem upTo {sep : List β} (d : β) (hsep : sep = [d]) (h : ∀ a, P a → d ∉ text a) :
    Reads P (fun a => text a ++ sep) text := by
  intro a b x y ha hb heq
  rw [List.append_assoc, List.append_assoc, hsep] at heq
  exact append_separator_inj (h a ha) (h b hb) heq

/-- Pieces are read from left to right; what is known from the first may be used for the second. -/
theorem seq {aspect' : α → δ} (h : Reads P text aspect)
    (h' : ∀ c, Reads (fun a => P a ∧ aspect a = c) text' aspect') :
    Reads P (fun a => text a ++ text' a) fun a => (aspect a, aspect' a) := by
  intro a b x y ha hb heq
  rw [List.append_assoc, List.append_assoc] at heq
  obtain ⟨hfirst, hrest⟩ := h a b _ _ ha hb heq
  obtain ⟨hsecond, hend⟩ := h' (aspect b) a b x y ⟨ha, hfirst⟩ ⟨hb, rfl⟩ hrest
  exact ⟨Prod.ext hfirst hsecond, hend⟩

/-- What follows from an aspect can be read off as well. -/
theorem imp {aspect' : α → δ} (h : Reads P text aspect)
    (himp : ∀ a b, P a → P b → aspect a = aspect b → aspect' a = aspect' b) :
    Reads P text aspect' := by
  intro a b x y ha hb heq
  obtain ⟨hfirst, hend⟩ := h a b x y ha hb heq
  exact ⟨himp a b ha hb hfirst, hend⟩

theorem mono {Q : α → Prop} (h : Reads P text aspect) (hPQ : ∀ a, Q a → P a) :
    Reads Q text aspect :=
  fun a b x y ha hb => h a b x y (hPQ a ha) (hPQ b hb)

/-- A piece that prints part of a value tells about that part. -/
theorem comp {α' : Type} {Q : α' → Prop} (h : Reads P text aspect) (part : α' → α)
    (hpart : ∀ a, Q a → P (part a)) :
    Reads Q (fun a => text (part a)) fun a => aspect (part a) :=
  fun a b x y ha hb => h (part a) (part b) x y (hpart a ha) (hpart b hb)

/-- The elements of a list of known length are read one after the other. -/
theorem flatMap (h : Reads P text aspect)
    (hinj : ∀ a b, P a → P b → aspect a = aspect b → a = b) (n : ℕ) :
    Reads (fun l : List α => (∀ a ∈ l, P a) ∧ l.length = n) (fun l => l.flatMap text) id := by
  intro l l' x y hl hl' heq
  obtain ⟨hl, hn⟩ := hl
  obtain ⟨hl', hn'⟩ := hl'
  replace hn := hn.trans hn'.symm
  clear hn'
  dsimp only [id_eq] at heq ⊢
  induction l generalizing l' with
  | nil =>
    cases List.length_eq_zero_iff.mp hn.symm
    exact ⟨rfl, heq⟩
  | cons a l ih =>
    cases l' with
    | nil => cases hn
    | cons b l' =>
      rw [List.forall_mem_cons] at hl hl'
      rw [List.flatMap_cons, List.flatMap_cons, List.append_assoc, List.append_assoc] at heq
      obtain ⟨haspect, htail⟩ := h a b _ _ hl.1 hl'.1 heq
      obtain ⟨hrest, hend⟩ := ih l' htail hl.2 hl'.2 (by simpa using hn)
      exact ⟨by rw [hinj a b hl.1 hl'.1 haspect, hrest], hend⟩

/-- A list whose elements can be read is determined by the text of them all. -/
theorem flatMap_inj (h : Reads P text aspect) (hne : ∀ a, P a → text a ≠ [])
    (hinj : ∀ a b, P a → P b → aspect a = aspect b → a = b) {l l' : List α} (hl : ∀ a ∈ l, P a)
    (hl' : ∀ a ∈ l', P a) (heq : l.flatMap text = l'.flatMap text) : l = l' := by
  induction l generalizing l' with
  | nil =>
    cases l' with
    | nil => rfl
    | cons b l' =>
      rw [List.flatMap_nil, List.flatMap_cons, eq_comm, List.append_eq_nil_iff] at heq
      exact absurd heq.1 (hne b (hl' b (by simp)))
  | cons a l ih =>
    cases l' with
    | nil =>
      rw [List.flatMap_nil, List.flatMap_cons, List.append_eq_nil_iff] at heq
      exact absurd heq.1 (hne a (hl a (by simp)))
    | cons b l' =>
      rw [List.forall_mem_cons] at hl hl'
      rw [List.flatMap_cons, List.flatMap_cons] at heq
      obtain ⟨haspect, htail⟩ := h a b _ _ hl.1 hl'.1 heq
      rw [hinj a b hl.1 hl'.1 haspect, ih hl.2 hl'.2 htail]

end Reads

end Torkitten
