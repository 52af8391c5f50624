import Mathlib.Data.Nat.Digits.Defs
import Torkitten.Model.Json
import Torkitten.Model.Validation

/-!
# The calendar

What the text of an instant says: the year and the day of a day number are those of the Gregorian
calendar, every number in the text has its fixed width, and so a text has at most thirty bytes.
-/

namespace Torkitten

/-! ## Years and months -/

/-- Four hundred years have 146097 days, and no year begins far from where the average says. -/
theorem daysBefore_bounds (year : ℤ) : 146097 * (year - 1) - 699 ≤ 400 * daysBefore year ∧
    400 * daysBefore year ≤ 146097 * (year - 1) + 396 := by
  dsimp only [daysBefore]
  omega

/-- A day lies in its year. -/
theorem yearOfDay_spec (d : ℤ) :
    daysBefore (yearOfDay d) ≤ d ∧ d < daysBefore (yearOfDay d + 1) := by
  have hsome : ∃ y, ([d * 400 / 146097 + 1 - 1, d * 400 / 146097 + 1, d * 400 / 146097 + 1 + 1].find?
      fun y => decide (daysBefore y ≤ d) && decide (d < daysBefore (y + 1))) = some y := by
    rw [← Option.isSome_iff_exists, List.find?_isSome]
    simp only [List.mem_cons, List.not_mem_nil, or_false, Bool.and_eq_true, decide_eq_true_eq,
      exists_eq_or_imp, ↓existsAndEq, true_and]
    have hquotient : 146097 * (d * 400 / 146097) ≤ 400 * d ∧
        400 * d < 146097 * (d * 400 / 146097 + 1) := by omega
    generalize d * 400 / 146097 = q at hquotient ⊢
    have hfirst := (daysBefore_bounds q).2
    have hlast := (daysBefore_bounds (q + 1 + 1 + 1)).1
    rw [Int.add_sub_cancel]
    omega
  obtain ⟨y, hy⟩ := hsome
  have hfound := List.find?_some hy
  rw [Bool.and_eq_true, decide_eq_true_eq, decide_eq_true_eq] at hfound
  have hyear : yearOfDay d = y := by
    unfold yearOfDay
    dsimp only
    rw [hy]
    rfl
  rw [hyear]
  exact hfound

/-- A year has as many days as its months. -/
theorem sum_monthLengths (year : ℤ) :
    (monthLengths year).sum = daysBefore (year + 1) - daysBefore year := by
  have hdays : daysBefore (year + 1) - daysBefore year = 365 ∨
      daysBefore (year + 1) - daysBefore year = 366 := by
    dsimp only [daysBefore]
    omega
  unfold monthLengths
  rcases hdays with h | h
  · rw [h]
    decide
  · rw [h]
    decide

/-- A day of a year lies in its month. -/
theorem monthDay_spec (lengths : List ℤ) {d : ℤ} (month : ℤ) (hd : 0 ≤ d) (hlt : d < lengths.sum) :
    ∃ earlier length later, lengths = earlier ++ length :: later ∧ earlier.sum ≤ d ∧
      d < earlier.sum + length ∧
      monthDay month d lengths = (month + earlier.length, d - earlier.sum + 1) := by
  induction lengths generalizing month d with
  | nil =>
    rw [List.sum_nil] at hlt
    omega
  | cons length rest ih =>
    rw [List.sum_cons] at hlt
    unfold monthDay
    split
    next h =>
      refine ⟨[], length, rest, rfl, hd, ?_, ?_⟩
      · rw [List.sum_nil]
        omega
      · simp
    next h =>
      obtain ⟨earlier, length', later, hrest, hle, hlt', hresult⟩ :=
        ih (month + 1) (d := d - length) (by omega) (by omega)
      refine ⟨length :: earlier, length', later, by rw [hrest]; rfl, ?_, ?_, ?_⟩
      · rw [List.sum_cons]
        omega
      · rw [List.sum_cons]
        omega
      · rw [hresult, List.sum_cons, List.length_cons, Nat.cast_succ]
        congr 1
        · omega
        · omega

/-- The numbers of a date have at most two digits. -/
theorem monthDay_bounds {d year : ℤ} (hyear : year = yearOfDay d) :
    let date := monthDay 1 (d - daysBefore year) (monthLengths year)
    (0 ≤ date.1 ∧ date.1 < 100) ∧ 0 ≤ date.2 ∧ date.2 < 100 := by
  obtain ⟨hle, hlt⟩ := yearOfDay_spec d
  rw [← hyear] at hle hlt
  have hsum := sum_monthLengths year
  obtain ⟨earlier, length, later, hlengths, hearlier, hlength, hresult⟩ :=
    monthDay_spec (monthLengths year) 1 (d := d - daysBefore year) (by omega) (by omega)
  have hmonths : earlier.length < 12 := by
    have htotal : (monthLengths year).length = 12 := rfl
    rw [hlengths, List.length_append, List.length_cons] at htotal
    omega
  have hlong : length ≤ 31 := by
    have hmem : length ∈ monthLengths year := by
      rw [hlengths]
      exact List.mem_append_right _ List.mem_cons_self
    revert hmem
    unfold monthLengths
    split
    · simp only [List.mem_cons, List.not_mem_nil, or_false]
      omega
    · simp only [List.mem_cons, List.not_mem_nil, or_false]
      omega
  rw [hresult]
  dsimp only
  omega

/-! ## Widths -/

theorem utf8Size_of_isDigit {c : Char} (h : c.isDigit = true) : c.utf8Size = 1 := by
  rw [Char.utf8Size_eq_one_iff]
  simp only [Char.isDigit, Bool.and_eq_true, decide_eq_true_eq] at h
  exact UInt32.le_trans h.2 (by decide)

/-- A padded number is zeros and digits. -/
theorem toList_padded (width k : ℕ) : (padded width k).toList =
    List.replicate (width - (Nat.toDigits 10 k).length) '0' ++ Nat.toDigits 10 k := by
  have htext : (toString (k : ℤ)).toList = Nat.toDigits 10 k := Nat.toList_repr
  have hlength : (toString (k : ℤ)).length = (Nat.toDigits 10 k).length := by
    rw [← String.length_toList, htext]
  unfold padded
  rw [String.toList_append, String.toList_ofList, htext, hlength]

theorem isDigit_of_mem_padded {width k : ℕ} {c : Char} (h : c ∈ (padded width k).toList) :
    c.isDigit = true := by
  rw [toList_padded] at h
  rcases List.mem_append.mp h with h | h
  · rw [List.eq_of_mem_replicate h]
    rfl
  · exact Nat.isDigit_of_mem_toDigits (by decide) (by decide) h

theorem length_padded {width k : ℕ} (hwidth : 0 < width) (hk : k < 10 ^ width) :
    (padded width k).toList.length = width := by
  have hdigits := (Nat.length_toDigits_le_iff (b := 10) (by decide) hwidth).mpr hk
  rw [toList_padded, List.length_append, List.length_replicate]
  omega

/-- A number that fits is padded to the width. -/
theorem size_padded (width : ℕ) {n : ℤ} (hwidth : 0 < width) (hn : 0 ≤ n)
    (hlt : n < ((10 ^ width : ℕ) : ℤ)) :
    (padded width n).utf8ByteSize = width := by
  obtain ⟨k, rfl⟩ := Int.eq_ofNat_of_zero_le hn
  have hk : k < 10 ^ width := Int.ofNat_lt.mp hlt
  rw [← String.ofList_toList (s := padded width k), utf8ByteSize_of_ascii
    fun c hc => utf8Size_of_isDigit (isDigit_of_mem_padded hc), length_padded hwidth hk]

/-- The fraction of a second has at most nine digits. -/
theorem size_fractionText {n : ℤ} (hn : 0 ≤ n) (hlt : n < ((10 ^ 9 : ℕ) : ℤ)) :
    (fractionText n).utf8ByteSize ≤ 10 := by
  obtain ⟨k, rfl⟩ := Int.eq_ofNat_of_zero_le hn
  have hlength : (padded 9 k).toList.length = 9 := length_padded (by decide) (Int.ofNat_lt.mp hlt)
  have hdigits : ∀ c ∈ (padded 9 k).toList, c.utf8Size = 1 := fun c hc =>
    utf8Size_of_isDigit (isDigit_of_mem_padded hc)
  unfold fractionText
  generalize (padded 9 k).toList = digits at hlength hdigits ⊢
  split
  · decide
  · have hsub : (digits.reverse.dropWhile (· == '0')).reverse.Sublist digits := by
      simpa using (List.dropWhile_sublist (l := digits.reverse) (· == '0')).reverse
    have hdot : ".".utf8ByteSize = 1 := by decide
    have hle := hsub.length_le
    rw [String.utf8ByteSize_append, utf8ByteSize_of_ascii fun c hc => hdigits c (hsub.subset hc), hdot]
    omega

/-- The numbers of a time of day have at most two digits, and those of its fraction nine. -/
theorem clock_bounds (t : ℤ) : (0 ≤ t % day / hour ∧ t % day / hour < 100) ∧
    (0 ≤ t % day % hour / minute ∧ t % day % hour / minute < 100) ∧
    (0 ≤ t % day % minute / second ∧ t % day % minute / second < 100) ∧
    0 ≤ t % day % second ∧ t % day % second < 1000000000 := by
  rw [show day = 86400000000000 from rfl, show hour = 3600000000000 from rfl,
    show minute = 60000000000 from rfl, show second = 1000000000 from rfl]
  omega

/-- The text of an instant has at most thirty bytes. -/
theorem size_marshalText {t : Time} {text : String} (h : t.marshalText = .ok text) :
    text.utf8ByteSize ≤ 30 := by
  obtain ⟨⟨hmonth, hmonth'⟩, hdom, hdom'⟩ := monthDay_bounds (d := t / day) rfl
  obtain ⟨⟨hhour, hhour'⟩, ⟨hminute, hminute'⟩, ⟨hsecond, hsecond'⟩, hnanos, hnanos'⟩ := clock_bounds t
  unfold Time.marshalText at h
  dsimp only at h
  split at h
  next => cases h
  next hyear =>
    simp only [Bool.or_eq_true, decide_eq_true_eq, not_or, not_lt, gt_iff_lt] at hyear
    have hfraction := size_fractionText hnanos hnanos'
    rw [← Except.ok.inj h]
    simp only [String.utf8ByteSize_append]
    rw [size_padded 4 (by decide) hyear.1 (by omega),
      size_padded 2 (by decide) hmonth hmonth',
      size_padded 2 (by decide) hdom hdom',
      size_padded 2 (by decide) hhour hhour',
      size_padded 2 (by decide) hminute hminute',
      size_padded 2 (by decide) hsecond hsecond']
    have hmarks : "-".utf8ByteSize = 1 ∧ "T".utf8ByteSize = 1 ∧ ":".utf8ByteSize = 1 ∧
      "Z".utf8ByteSize = 1 := by decide
    omega

end Torkitten
