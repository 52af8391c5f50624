import Torkitten.Foundations.JsonText
import Torkitten.Model.Calendar
import Torkitten.Model.Json
import Torkitten.Model.Size

/-!
# Documents are read back

The texts that `json.MarshalIndent` and `json.Marshal` write are texts of the JSON library, in two
layouts, and so the decoder reads the document back from either.

## Main results

* `toList_indent`: the indented text of a document is its value in the layout of `MarshalIndent`;
* `spelled_value`: what the encoder writes is well spelled;
* `unquote_escape`: a string survives its escapes.
-/

namespace Torkitten

open JsonText

/-! ## Strings -/

/-- The literal of a string. -/
def escape (s : String) : List Char := s.toList.flatMap fun c => (escapeChar c).toList

theorem toList_jsonString (s : String) : (jsonString s).toList = '"' :: (escape s ++ ['"']) := by
  unfold jsonString escape
  rw [String.toList_append, String.toList_append, String.toList_join, List.flatMap_map]
  rfl

/-- The escapes with four digits are those of small characters. -/
theorem toNat_lt_of_escaped {c : Char}
    (h : (decide (c.toNat < 32) || c == '<' || c == '>' || c == '&') = true) : c.toNat < 63 := by
  simp only [Bool.or_eq_true, decide_eq_true_eq, beq_iff_eq] at h
  rcases h with ((h | rfl) | rfl) | rfl
  · omega
  · decide
  · decide
  · decide

theorem isHex_digitChar : ∀ n < 16, isHex (Nat.digitChar n) = true := by decide

theorem codeUnit_hexByte : ∀ n < 63,
    codeUnit '0' '0' (Nat.digitChar (n / 16)) (Nat.digitChar (n % 16)) = n := by decide

/-- The spellings of a character in a literal. -/
inductive Spells (c : Char) : List Char → Prop where
  | plain (hc : isPlain c = true) : Spells c [c]
  | short {e : Char} (he : isShort e = true) (hc : shortChar e = c) : Spells c ['\\', e]
  | long {h i j k : Char} (hex : (isHex h && isHex i && isHex j && isHex k) = true)
      (hc : Char.ofNat (codeUnit h i j k) = c) (hlow : codeUnit h i j k < 0xD800) :
      Spells c ['\\', 'u', h, i, j, k]

theorem spells_escapeChar (c : Char) : Spells c (escapeChar c).toList := by
  unfold escapeChar
  iterate 7
    split
    next h =>
      rw [beq_iff_eq.mp h]
      exact .short rfl rfl
  split
  next h =>
    have hlt := toNat_lt_of_escaped h
    have hunit := codeUnit_hexByte _ hlt
    rw [String.toList_append, hexByte, String.toList_ofList, String.toList_ofList]
    refine Spells.long ?_ ?_ ?_
    · rw [isHex_digitChar _ (by omega), isHex_digitChar _ (by omega)]
      rfl
    · rw [hunit, Char.ofNat_toNat]
    · omega
  iterate 2
    split
    next h =>
      rw [beq_iff_eq.mp h]
      exact .long rfl rfl (by decide)
  next hquote hslash _ _ _ _ _ hsmall _ _ =>
    simp only [Bool.or_eq_true, decide_eq_true_eq, not_or] at hsmall
    simp only [beq_iff_eq] at hquote hslash
    rw [String.toList_ofList]
    refine .plain ?_
    simp [isPlain, hquote, hslash]
    omega

theorem Spells.literal {c : Char} {l : List Char} (h : Spells c l) : Literal l := by
  cases h with
  | plain hc => exact .plain hc .nil
  | short he _ => exact .short he .nil
  | long hex _ _ => exact .long hex .nil

theorem Spells.unquote {c : Char} {l : List Char} (h : Spells c l) (rest : List Char) :
    JsonText.unquote (l ++ rest) = c :: JsonText.unquote rest := by
  cases h with
  | plain hc =>
    have hne : c ≠ '\\' := by
      rintro rfl
      cases hc
    simp [JsonText.unquote, unquoteAfter, unpaired, hne]
  | @short e he hc =>
    have hne : e ≠ 'u' := by
      rintro rfl
      cases he
    simp [JsonText.unquote, unquoteAfter, unpaired, hne, hc]
  | long hex hc hlow =>
    have hlow' := Nat.not_le.mpr hlow
    simp [JsonText.unquote, unquoteAfter, unpaired, hc, hlow']

theorem literal_escape (s : String) : Literal (escape s) := by
  unfold escape
  induction s.toList with
  | nil => exact .nil
  | cons c rest ih =>
    rw [List.flatMap_cons]
    exact (spells_escapeChar c).literal.append ih

theorem unquote_escape (s : String) : unquote (escape s) = s.toList := by
  unfold escape
  induction s.toList with
  | nil => rfl
  | cons c rest ih => rw [List.flatMap_cons, (spells_escapeChar c).unquote, ih]

/-! ## Numbers -/

/-- A number other than zero has no leading zero. -/
theorem head_toDigits {n : ℕ} (hn : 0 < n) : (Nat.toDigits 10 n).head? ≠ some '0' := by
  induction n using Nat.strongRecOn with
  | ind n ih =>
    by_cases hlt : n < 10
    · have hdigits : ∀ m < 10, 0 < m → m.digitChar ≠ '0' := by decide
      rw [Nat.toDigits_of_lt_base hlt, List.head?_cons]
      exact fun h => hdigits n hlt hn (Option.some.inj h)
    · have hquotient : 0 < n / 10 := by omega
      rw [Nat.toDigits_of_base_le (by decide) (Nat.not_lt.mp hlt),
        List.head?_append_of_ne_nil _ Nat.toDigits_ne_nil]
      exact ih (n / 10) (by omega) hquotient

theorem unsigned_toDigits (n : ℕ) : Unsigned (Nat.toDigits 10 n) where
  ne_nil := Nat.toDigits_ne_nil
  digits _ hc := Nat.isDigit_of_mem_toDigits (by decide) (by decide) hc
  leading := by
    rcases Nat.eq_zero_or_pos n with rfl | hn
    · exact .inl rfl
    · exact .inr (head_toDigits hn)

theorem numeral_toString (n : ℤ) : Numeral (toString n).toList := by
  rw [Int.toString_eq_repr, Int.repr_eq_if]
  split
  · rw [Nat.toList_repr]
    exact .inl (unsigned_toDigits _)
  · rw [String.toList_append, Nat.toList_repr]
    exact .inr ⟨_, rfl, unsigned_toDigits _⟩

/-! ## Documents -/

mutual

/-- What the text of a document says. -/
def Json.value : Json → Value
  | .bool b => .bool b
  | .num n => .num (toString n).toList
  | .str s => .str (escape s)
  | .arr items => .arr (itemValues items)
  | .obj fields => .obj (fieldValues fields)

/-- What the texts of the items of an array say. -/
def itemValues : List Json → List Value
  | [] => []
  | item :: rest => item.value :: itemValues rest

/-- What the texts of the fields of an object say. -/
def fieldValues : List (String × Json) → List (List Char × Value)
  | [] => []
  | field :: rest => fieldValue field :: fieldValues rest

/-- What the text of a field says. -/
def fieldValue : String × Json → List Char × Value
  | (name, j) => (escape name, j.value)

end

mutual

/-- What the encoder writes is well spelled. -/
theorem spelled_value : (j : Json) → j.value.Spelled
  | .bool _ => trivial
  | .num n => numeral_toString n
  | .str s => literal_escape s
  | .arr items => spelled_itemValues items
  | .obj fields => spelled_fieldValues fields

theorem spelled_itemValues : (items : List Json) → SpelledItems (itemValues items)
  | [] => trivial
  | item :: rest => ⟨spelled_value item, spelled_itemValues rest⟩

theorem spelled_fieldValues : (fields : List (String × Json)) → SpelledFields (fieldValues fields)
  | [] => trivial
  | (name, j) :: rest => ⟨⟨literal_escape name, spelled_value j⟩, spelled_fieldValues rest⟩

end

theorem indentation_blank (depth : ℕ) : ∀ c ∈ (indentation depth).toList, JsonText.isSpace c = true := by
  unfold indentation
  rw [String.toList_join]
  simp only [List.mem_flatMap]
  rintro c ⟨text, htext, hc⟩
  rw [List.eq_of_mem_replicate htext] at hc
  have hc : c = ' ' := by simpa using hc
  rw [hc]
  rfl

/-- The layout of `json.MarshalIndent(value, "", "  ")`. -/
def indented : Layout where
  line depth := '\n' :: (indentation depth).toList
  colon := [' ']
  line_blank depth := List.forall_mem_cons.mpr ⟨rfl, indentation_blank depth⟩
  colon_blank := List.forall_mem_singleton.mpr rfl

theorem toList_intercalate (depth : ℕ) (closing : Char) (item : String) (items : List String) :
    (",\n".intercalate ((item :: items).map (indentation (depth + 1) ++ ·))).toList ++
        ('\n' :: (indentation depth).toList ++ [closing]) =
      (indentation (depth + 1)).toList ++ (item.toList ++
        printRest indented depth closing (items.map String.toList)) := by
  induction items generalizing item with
  | nil => simp [printRest, indented]
  | cons item' items ih =>
    rw [List.map_cons, List.map_cons, String.intercalate_cons_cons, ← List.map_cons,
      String.toList_append, String.toList_append, List.append_assoc, ih item', String.toList_append]
    simp [printRest, indented]

theorem toList_bracketed (opening closing : Char) (depth : ℕ) (items : List String) :
    (bracketed (String.ofList [opening]) (String.ofList [closing]) depth items).toList =
      opening :: printBlock indented depth closing (items.map String.toList) := by
  unfold bracketed
  cases items with
  | nil => simp [printBlock]
  | cons item items =>
    have hlines := toList_intercalate depth closing item items
    simp only [List.isEmpty_cons, Bool.false_eq_true, ↓reduceIte, String.toList_append,
      String.toList_ofList, List.append_assoc, List.cons_append, List.nil_append, List.map_cons] at hlines ⊢
    rw [show "\n".toList = ['\n'] from rfl, List.singleton_append, List.singleton_append, hlines]
    rfl

mutual

/-- The indented text of a document is what it says, in the layout of `MarshalIndent`. -/
theorem toList_indent (depth : ℕ) : (j : Json) → (j.indent depth).toList = j.value.print indented depth
  | .bool true => by
    rw [Json.indent, Json.value, Value.print]
    rfl
  | .bool false => by
    rw [Json.indent, Json.value, Value.print]
    rfl
  | .num _ => rfl
  | .str s => toList_jsonString s
  | .arr items => by
    rw [Json.indent, Json.value, Value.print, ← toList_indentItems]
    exact toList_bracketed '[' ']' depth _
  | .obj fields => by
    rw [Json.indent, Json.value, Value.print, ← toList_indentFields]
    exact toList_bracketed '\x7b' '\x7d' depth _

theorem toList_indentItems (depth : ℕ) : (items : List Json) →
    (indentItems depth items).map String.toList = printItems indented depth (itemValues items)
  | [] => rfl
  | item :: rest => by
    rw [indentItems, itemValues, printItems, List.map_cons, toList_indent depth item,
      toList_indentItems depth rest]

theorem toList_indentFields (depth : ℕ) : (fields : List (String × Json)) →
    (indentFields depth fields).map String.toList = printFields indented depth (fieldValues fields)
  | [] => rfl
  | (name, j) :: rest => by
    rw [indentFields, fieldValues, printFields, List.map_cons, toList_indentFields depth rest,
      indentField, fieldValue, printField, ← toList_indent depth j, String.toList_append,
      String.toList_append, toList_jsonString]
    simp [indented]

end

end Torkitten
