import Mathlib.Computability.RegularExpressions

/-!
# Patterns of texts

Regular expressions over characters, built from literals, character classes and counted repetitions,
with the words that they match.
-/

namespace Torkitten.Pattern

open RegularExpression

/-- The given text. -/
def literal (v : String) : RegularExpression Char := v.toList.foldr (fun c r => char c * r) 1

/-- One character of a class. -/
def oneOf (cls : List Char) : RegularExpression Char := cls.foldr (fun c r => char c + r) 0

/-- At most `n` repetitions. -/
def atMost (n : ℕ) (r : RegularExpression Char) : RegularExpression Char := (1 + r) ^ n

variable {l : List Char} {cls : List Char} {n : ℕ}

/-- A sequence matches the words that fall into two matching parts. -/
theorem mem_mul {r r' : RegularExpression Char} :
    l ∈ (r * r').matches' ↔ ∃ a ∈ r.matches', ∃ b ∈ r'.matches', a ++ b = l := by
  rw [matches'_mul, Language.mem_mul]

theorem append_mem {r r' : RegularExpression Char} {a b : List Char} (ha : a ∈ r.matches')
    (hb : b ∈ r'.matches') : a ++ b ∈ (r * r').matches' :=
  mem_mul.mpr ⟨a, ha, b, hb, rfl⟩

theorem mem_add {r r' : RegularExpression Char} :
    l ∈ (r + r').matches' ↔ l ∈ r.matches' ∨ l ∈ r'.matches' := by
  rw [matches'_add, Language.mem_add]

theorem nil_mem_one : [] ∈ (1 : RegularExpression Char).matches' := by
  rw [matches'_epsilon]
  exact Language.nil_mem_one

theorem mem_literal {v : String} : l ∈ (literal v).matches' ↔ l = v.toList := by
  unfold literal
  induction v.toList generalizing l with
  | nil =>
    rw [List.foldr_nil, matches'_epsilon]
    exact Language.mem_one l
  | cons c rest ih =>
    rw [List.foldr_cons, mem_mul]
    constructor
    · rintro ⟨a, ha, b, hb, rfl⟩
      rw [show a = [c] from ha, ih.mp hb]
      rfl
    · rintro rfl
      exact ⟨[c], rfl, rest, ih.mpr rfl, rfl⟩

theorem literal_mem (v : String) : v.toList ∈ (literal v).matches' := mem_literal.mpr rfl

theorem mem_oneOf : l ∈ (oneOf cls).matches' ↔ ∃ c ∈ cls, l = [c] := by
  unfold oneOf
  induction cls with
  | nil => simpa [matches'_zero] using Language.notMem_zero l
  | cons c rest ih =>
    rw [List.foldr_cons, mem_add, ih]
    simp only [List.mem_cons, exists_eq_or_imp]
    exact or_congr_left Iff.rfl

/-- A counted repetition matches one match after the other. -/
theorem mem_pow_succ {r : RegularExpression Char} :
    l ∈ (r ^ (n + 1)).matches' ↔ ∃ a ∈ (r ^ n).matches', ∃ b ∈ r.matches', a ++ b = l := by
  rw [matches'_pow, pow_succ, Language.mem_mul, matches'_pow]

theorem mem_pow_zero {r : RegularExpression Char} : l ∈ (r ^ 0).matches' ↔ l = [] := by
  rw [matches'_pow, pow_zero, Language.mem_one]

theorem mem_oneOf_pow : l ∈ (oneOf cls ^ n).matches' ↔ l.length = n ∧ ∀ c ∈ l, c ∈ cls := by
  induction n generalizing l with
  | zero =>
    rw [mem_pow_zero, List.length_eq_zero_iff]
    exact ⟨fun h => ⟨h, by simp [h]⟩, fun h => h.1⟩
  | succ n ih =>
    rw [mem_pow_succ]
    constructor
    · rintro ⟨a, ha, b, hb, rfl⟩
      obtain ⟨hlength, hchars⟩ := ih.mp ha
      obtain ⟨c, hc, rfl⟩ := mem_oneOf.mp hb
      refine ⟨by simp [hlength], fun d hd => ?_⟩
      rcases List.mem_append.mp hd with hd | hd
      · exact hchars d hd
      · rwa [List.mem_singleton.mp hd]
    · rintro ⟨hlength, hchars⟩
      rcases List.eq_nil_or_concat' l with rfl | ⟨front, c, rfl⟩
      · cases hlength
      · refine ⟨front, ih.mpr ⟨by simpa using hlength, fun d hd => hchars d (by simp [hd])⟩, [c],
          mem_oneOf.mpr ⟨c, hchars c (by simp), rfl⟩, rfl⟩

/-- A word of the class that is short enough matches. -/
theorem mem_atMost_oneOf (hlength : l.length ≤ n) (hchars : ∀ c ∈ l, c ∈ cls) :
    l ∈ (atMost n (oneOf cls)).matches' := by
  unfold atMost
  induction n generalizing l with
  | zero => exact mem_pow_zero.mpr (List.length_eq_zero_iff.mp (by omega))
  | succ n ih =>
    rw [mem_pow_succ]
    rcases List.eq_nil_or_concat' l with rfl | ⟨front, c, rfl⟩
    · exact ⟨[], ih (by simp) (by simp), [], mem_add.mpr (.inl nil_mem_one), rfl⟩
    · have hfront : front.length ≤ n := by simpa using hlength
      refine ⟨front, ih hfront fun d hd => hchars d (by simp [hd]), [c], mem_add.mpr (.inr ?_), rfl⟩
      exact mem_oneOf.mpr ⟨c, hchars c (by simp), rfl⟩

end Torkitten.Pattern
