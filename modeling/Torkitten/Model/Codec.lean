import Mathlib.Algebra.Order.Ring.Nat
import Mathlib.Data.List.Induction
import Torkitten.Model.Encoding
import Torkitten.Model.Specification

/-!
# Encodings can be undone

`regroup` writes a sequence of digits as a number and the number as digits of another size. The
laws of the two halves give the round trip of base64, and the lengths and alphabets of the encoded
texts that validation and the slicing of tokens rely on.
-/

namespace Torkitten

/-! ## Digits -/

/-- The number that a sequence of digits writes, the most significant digit first. -/
def digitsValue (b : ℕ) (digits : List ℕ) : ℕ := digits.foldl (fun n d => b * n + d) 0

/-- The lowest `count` digits of a number, the most significant one first. -/
def digitsOf (b count value : ℕ) : List ℕ :=
  (List.range count).map fun i => value / b ^ (count - 1 - i) % b

theorem regroup_eq (old new count : ℕ) (digits : List ℕ) :
    regroup old new count digits = digitsOf (2 ^ new) count
      (digitsValue (2 ^ old) digits * 2 ^ (new * count) / 2 ^ (old * digits.length)) := by
  simp only [regroup, digitsOf, digitsValue, ← pow_mul]

@[simp]
theorem length_digitsOf (b count value : ℕ) : (digitsOf b count value).length = count := by
  simp [digitsOf]

theorem lt_of_mem_digitsOf {b count value d : ℕ} (hb : 0 < b) (hd : d ∈ digitsOf b count value) :
    d < b := by
  obtain ⟨i, -, rfl⟩ := List.mem_map.mp hd
  exact Nat.mod_lt _ hb

theorem digitsValue_append (b : ℕ) (digits : List ℕ) (d : ℕ) :
    digitsValue b (digits ++ [d]) = b * digitsValue b digits + d := by
  simp [digitsValue]

theorem digitsOf_succ (b count value : ℕ) :
    digitsOf b (count + 1) value = digitsOf b count (value / b) ++ [value % b] := by
  unfold digitsOf
  rw [List.range_succ, List.map_append, List.map_singleton]
  congr 1
  · refine List.map_congr_left fun i hi => ?_
    have hlt : i < count := List.mem_range.mp hi
    have hexp : count + 1 - 1 - i = (count - 1 - i) + 1 := by omega
    rw [hexp, pow_succ', Nat.div_div_eq_div_mul]
  · simp

theorem digitsValue_digitsOf (b count value : ℕ) :
    digitsValue b (digitsOf b count value) = value % b ^ count := by
  induction count generalizing value with
  | zero => simp [digitsOf, digitsValue, Nat.mod_one]
  | succ count ih =>
    rw [digitsOf_succ, digitsValue_append, ih, pow_succ', Nat.mod_mul]
    omega

theorem digitsValue_lt {b : ℕ} {digits : List ℕ} (h : ∀ d ∈ digits, d < b) :
    digitsValue b digits < b ^ digits.length := by
  induction digits using List.reverseRecOn with
  | nil => simp [digitsValue]
  | append_singleton digits d ih =>
    have hd : d < b := h d (by simp)
    have hlt := ih fun x hx => h x (by simp [hx])
    rw [digitsValue_append, List.length_append, List.length_singleton, pow_succ']
    calc b * digitsValue b digits + d < b * digitsValue b digits + b := by omega
      _ = b * (digitsValue b digits + 1) := by rw [Nat.mul_succ]
      _ ≤ b * b ^ digits.length := Nat.mul_le_mul_left b hlt

theorem digitsOf_digitsValue {b : ℕ} {digits : List ℕ} (h : ∀ d ∈ digits, d < b) :
    digitsOf b digits.length (digitsValue b digits) = digits := by
  induction digits using List.reverseRecOn with
  | nil => rfl
  | append_singleton digits d ih =>
    have hd : d < b := h d (by simp)
    rw [List.length_append, List.length_singleton, digitsOf_succ, digitsValue_append,
      Nat.mul_add_div (by omega), Nat.div_eq_of_lt hd, Nat.add_zero, Nat.mul_add_mod,
      Nat.mod_eq_of_lt hd, ih fun x hx => h x (by simp [hx])]

/-- Regrouping into at least as many bits can be undone. -/
theorem regroup_regroup {old new count : ℕ} {digits : List ℕ} (h : ∀ d ∈ digits, d < 2 ^ old)
    (hbits : old * digits.length ≤ new * count) :
    regroup new old digits.length (regroup old new count digits) = digits := by
  have hlt : digitsValue (2 ^ old) digits < 2 ^ (old * digits.length) := by
    rw [pow_mul]
    exact digitsValue_lt h
  -- the regrouped number is the old one with zero bits added
  obtain ⟨pad, hpad⟩ := Nat.exists_eq_add_of_le hbits
  have hvalue : digitsValue (2 ^ old) digits * 2 ^ (new * count) / 2 ^ (old * digits.length) =
      digitsValue (2 ^ old) digits * 2 ^ pad := by
    rw [hpad, pow_add, mul_left_comm, Nat.mul_div_cancel_left _ (Nat.two_pow_pos _)]
  have hsmall : digitsValue (2 ^ old) digits * 2 ^ pad < (2 ^ new) ^ count := by
    rw [← pow_mul, hpad, pow_add]
    exact Nat.mul_lt_mul_of_pos_right hlt (Nat.two_pow_pos _)
  rw [regroup_eq old new, hvalue, regroup_eq new old, digitsValue_digitsOf,
    Nat.mod_eq_of_lt hsmall, length_digitsOf, hpad, mul_assoc, ← pow_add, Nat.add_comm pad,
    Nat.mul_div_cancel _ (Nat.two_pow_pos _)]
  exact digitsOf_digitsValue h

/-! ## Base64 -/

theorem base64_idxOf : ∀ n < 64, base64Alphabet.idxOf (base64Alphabet.getD n 'A') = n := by
  decide +kernel

theorem base64_getD_mem : ∀ n < 64, base64Alphabet.getD n 'A' ∈ base64Alphabet := by
  decide +kernel

/-- The characters of an encoded text, as positions in the alphabet. -/
def base64Digits (data : List UInt8) : List ℕ :=
  regroup 8 6 ((8 * data.length + 5) / 6) (data.map UInt8.toNat)

theorem toList_base64Encode (data : List UInt8) :
    (base64Encode data).toList = (base64Digits data).map fun n => base64Alphabet.getD n 'A' := by
  rw [base64Encode, String.toList_ofList]
  rfl

theorem lt_of_mem_base64Digits {data : List UInt8} {d : ℕ} (h : d ∈ base64Digits data) :
    d < 64 := by
  rw [base64Digits, regroup_eq] at h
  exact lt_of_mem_digitsOf (by decide) h

theorem length_base64Digits (data : List UInt8) :
    (base64Digits data).length = (8 * data.length + 5) / 6 := by
  rw [base64Digits, regroup_eq, length_digitsOf]

theorem mem_base64Alphabet {data : List UInt8} {c : Char} (h : c ∈ (base64Encode data).toList) :
    c ∈ base64Alphabet := by
  rw [toList_base64Encode] at h
  obtain ⟨d, hd, rfl⟩ := List.mem_map.mp h
  exact base64_getD_mem d (lt_of_mem_base64Digits hd)

/-- Decoding undoes encoding. -/
theorem base64Decode_base64Encode (data : List UInt8) :
    base64Decode (base64Encode data) = some data := by
  have hclean : (base64Encode data).toList.filter (fun c => c != '\r' && c != '\n') =
      (base64Encode data).toList := by
    refine List.filter_eq_self.mpr fun c hc => ?_
    have hall : base64Alphabet.all (fun c => c != '\r' && c != '\n') = true := by decide +kernel
    exact List.all_eq_true.mp hall c (mem_base64Alphabet hc)
  have hdigits : (base64Encode data).toList.map base64Alphabet.idxOf = base64Digits data := by
    rw [toList_base64Encode, List.map_map]
    refine (List.map_congr_left fun d hd => ?_).trans (List.map_id _)
    exact base64_idxOf d (lt_of_mem_base64Digits hd)
  have hlength : (base64Encode data).toList.length = (8 * data.length + 5) / 6 := by
    rw [toList_base64Encode, List.length_map, length_base64Digits]
  have hmembers : (base64Encode data).toList.all (base64Alphabet.contains ·) = true :=
    List.all_eq_true.mpr fun c hc => List.contains_iff_mem.mpr (mem_base64Alphabet hc)
  have hmod : ((8 * data.length + 5) / 6 % 4 != 1) = true := by
    rw [bne_iff_ne]
    omega
  have hcount : 6 * ((8 * data.length + 5) / 6) / 8 = (data.map UInt8.toNat).length := by
    rw [List.length_map]
    omega
  have hbytes : ∀ d ∈ data.map UInt8.toNat, d < 2 ^ 8 := by
    intro d hd
    obtain ⟨b, -, rfl⟩ := List.mem_map.mp hd
    exact b.toNat_lt
  simp only [base64Decode, hclean, hdigits, hlength, hmembers, hmod, Bool.and_self, ↓reduceIte,
    hcount, Option.some.injEq]
  rw [base64Digits, regroup_regroup hbytes (by rw [List.length_map]; omega), List.map_map]
  refine (List.map_congr_left fun b _ => ?_).trans (List.map_id _)
  simp

/-! ## Bytes of texts -/

theorem utf8_append (v u : String) : utf8 (v ++ u) = utf8 v ++ utf8 u := by
  rw [utf8, String.toList_append, List.flatMap_append]
  rfl

/-- A text is determined by its bytes. -/
theorem utf8_injective {v u : String} (h : utf8 v = utf8 u) : v = u := by
  have hbytes : v.toList.utf8Encode = u.toList.utf8Encode := congrArg List.toByteArray h
  rw [String.utf8Encode_toList, String.utf8Encode_toList] at hbytes
  exact String.toByteArray_inj.mp hbytes

/-- A text of single bytes has as many bytes as characters. -/
theorem length_utf8_of_ascii {v : String} (h : ∀ c ∈ v.toList, c.utf8Size = 1) :
    (utf8 v).length = v.toList.length := by
  unfold utf8
  generalize v.toList = chars at h
  induction chars with
  | nil => rfl
  | cons c rest ih =>
    rw [List.flatMap_cons, List.length_append, String.length_utf8EncodeChar, h c List.mem_cons_self,
      ih fun d hd => h d (List.mem_cons_of_mem _ hd), List.length_cons]
    omega

theorem length_utf8_base64Encode (data : List UInt8) :
    (utf8 (base64Encode data)).length = (8 * data.length + 5) / 6 := by
  have hall : base64Alphabet.all (fun c => c.utf8Size == 1) = true := by decide +kernel
  have hascii : ∀ c ∈ (base64Encode data).toList, c.utf8Size = 1 := fun c hc =>
    beq_iff_eq.mp (List.all_eq_true.mp hall c (mem_base64Alphabet hc))
  rw [length_utf8_of_ascii hascii, toList_base64Encode, List.length_map, length_base64Digits]

/-! ## Hexadecimal -/

theorem hexEncode_cons (b : UInt8) (rest : List UInt8) :
    hexEncode (b :: rest) = hexByte b.toNat ++ hexEncode rest := by
  rw [hexEncode, List.map_cons, String.join_cons]
  rfl

theorem length_hexEncode (data : List UInt8) : (hexEncode data).toList.length = 2 * data.length := by
  induction data with
  | nil => rfl
  | cons b rest ih =>
    rw [hexEncode_cons, String.toList_append, List.length_append, ih, hexByte, String.toList_ofList,
      List.length_cons, List.length_cons, List.length_cons, List.length_nil]
    omega

theorem mem_hexEncode {data : List UInt8} {c : Char} (h : c ∈ (hexEncode data).toList) :
    ∃ n < 16, c = Nat.digitChar n := by
  induction data with
  | nil => cases h
  | cons b rest ih =>
    have hlt := b.toNat_lt
    rw [hexEncode_cons, String.toList_append, List.mem_append, hexByte, String.toList_ofList,
      List.mem_cons, List.mem_singleton] at h
    rcases h with (h | h) | h
    · exact ⟨_, by omega, h⟩
    · exact ⟨_, by omega, h⟩
    · exact ih h

theorem length_utf8_hexEncode (data : List UInt8) :
    (utf8 (hexEncode data)).length = 2 * data.length := by
  have hdigit : ∀ n < 16, (Nat.digitChar n).utf8Size = 1 := by decide +kernel
  rw [length_utf8_of_ascii, length_hexEncode]
  intro c hc
  obtain ⟨n, hn, rfl⟩ := mem_hexEncode hc
  exact hdigit n hn

/-! ## Forms of identifiers and hashes -/

end Torkitten
