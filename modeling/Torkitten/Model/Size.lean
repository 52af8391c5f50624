import Mathlib.Algebra.Order.BigOperators.Group.List
import Torkitten.Model.Calendar
import Torkitten.Model.Specification

/-!
# The size of the text of a state

How many bytes the indented text of a state has, summed over the whole format. Every collection of
a valid state is limited and every field of its records has a bounded text, with two exceptions: the
owner of a session and the list of the scopes of a token. Where these are bounded as well, so is the
text.

## Main results

* `size_marshalIndent_le`: a bound on the text of a valid state whose owners are short, linear in the
  number of scopes that a token may list;
* `toJson_withTokens`: what the tokens of a state add to its text.
-/

namespace Torkitten

/-! ## Blocks -/

/-- The bytes of a block at some depth, from the bytes of its items. -/
def blockSize (depth : ℕ) (sizes : List ℕ) : ℕ :=
  if sizes.isEmpty then 2 else 2 + 2 * depth + (sizes.map (2 * depth + 4 + ·)).sum

@[simp]
theorem blockSize_nil (depth : ℕ) : blockSize depth [] = 2 := rfl

theorem blockSize_cons (depth size : ℕ) (sizes : List ℕ) : blockSize depth (size :: sizes) =
    2 + 2 * depth + ((size :: sizes).map (2 * depth + 4 + ·)).sum := rfl

/-- A block of few short items is short. -/
theorem blockSize_le (depth : ℕ) {n b : ℕ} {sizes : List ℕ} (hn : sizes.length ≤ n)
    (hb : ∀ size ∈ sizes, size ≤ b) :
    blockSize depth sizes ≤ 2 + 2 * depth + n * (2 * depth + 4 + b) := by
  have hsum : (sizes.map (2 * depth + 4 + ·)).sum ≤ n * (2 * depth + 4 + b) := by
    refine Nat.le_trans (List.sum_le_card_nsmul _ (2 * depth + 4 + b) ?_) ?_
    · intro x hx
      obtain ⟨size, hsize, rfl⟩ := List.mem_map.mp hx
      exact Nat.add_le_add_left (hb size hsize) _
    · rw [List.length_map]
      exact Nat.mul_le_mul_right _ hn
  unfold blockSize
  split
  · omega
  · omega

theorem size_indentation (depth : ℕ) : (indentation depth).utf8ByteSize = 2 * depth := by
  induction depth with
  | zero => rfl
  | succ depth ih =>
    unfold indentation at ih ⊢
    rw [List.replicate_succ, String.join_cons, String.utf8ByteSize_append, ih]
    have hspaces : "  ".utf8ByteSize = 2 := by decide
    omega

theorem size_intercalate (separator text : String) (texts : List String) :
    (separator.intercalate (text :: texts)).utf8ByteSize + separator.utf8ByteSize =
      ((text :: texts).map fun t => t.utf8ByteSize + separator.utf8ByteSize).sum := by
  induction texts generalizing text with
  | nil => simp
  | cons text' texts ih =>
    rw [String.intercalate_cons_cons, String.utf8ByteSize_append, String.utf8ByteSize_append,
      List.map_cons, List.sum_cons, ← ih]
    omega

theorem size_bracketed {opening closing : String} (hopening : opening.utf8ByteSize = 1)
    (hclosing : closing.utf8ByteSize = 1) (depth : ℕ) (items : List String) :
    (bracketed opening closing depth items).utf8ByteSize =
      blockSize depth (items.map String.utf8ByteSize) := by
  have hbreak : "\n".utf8ByteSize = 1 := by decide
  cases items with
  | nil =>
    change (opening ++ closing).utf8ByteSize = 2
    rw [String.utf8ByteSize_append, hopening, hclosing]
  | cons item items =>
    have hlines := size_intercalate ",\n" (indentation (depth + 1) ++ item)
      (items.map (indentation (depth + 1) ++ ·))
    rw [show ",\n".utf8ByteSize = 2 by decide] at hlines
    have hsum : (((item :: items).map (indentation (depth + 1) ++ ·)).map
        fun t => t.utf8ByteSize + 2).sum =
        (((item :: items).map String.utf8ByteSize).map (2 * depth + 4 + ·)).sum := by
      rw [List.map_map, List.map_map]
      congr 1
      refine List.map_congr_left fun t _ => ?_
      simp only [Function.comp_apply, String.utf8ByteSize_append, size_indentation]
      omega
    unfold bracketed
    simp only [List.isEmpty_cons, Bool.false_eq_true, ↓reduceIte, String.utf8ByteSize_append,
      size_indentation, hopening, hclosing, hbreak]
    rw [List.map_cons] at hsum ⊢
    rw [List.map_cons, blockSize_cons, ← List.map_cons (f := String.utf8ByteSize), ← hsum, ← hlines]
    omega

theorem indentItems_eq (depth : ℕ) (items : List Json) :
    indentItems depth items = items.map (Json.indent depth) := by
  induction items with
  | nil => rfl
  | cons item items ih => rw [indentItems, ih, List.map_cons]

theorem indentFields_eq (depth : ℕ) (fields : List (String × Json)) :
    indentFields depth fields = fields.map (indentField depth) := by
  induction fields with
  | nil => rfl
  | cons field fields ih => rw [indentFields, ih, List.map_cons]

/-- The bytes of a document at some depth. -/
def Json.size (depth : ℕ) (j : Json) : ℕ := (j.indent depth).utf8ByteSize

theorem size_arr (depth : ℕ) (items : List Json) :
    (Json.arr items).size depth = blockSize depth (items.map (Json.size (depth + 1))) := by
  unfold Json.size
  rw [Json.indent, size_bracketed (by decide) (by decide), indentItems_eq, List.map_map]
  rfl

/-- The bytes of a field at some depth, without its indentation. -/
def fieldSize (depth : ℕ) (field : String × Json) : ℕ :=
  (jsonString field.1).utf8ByteSize + 2 + field.2.size depth

theorem size_obj (depth : ℕ) (fields : List (String × Json)) :
    (Json.obj fields).size depth = blockSize depth (fields.map (fieldSize (depth + 1))) := by
  have hfield : ∀ field, (indentField (depth + 1) field).utf8ByteSize = fieldSize (depth + 1) field := by
    rintro ⟨name, value⟩
    have hcolon : ": ".utf8ByteSize = 2 := by decide
    rw [indentField, String.utf8ByteSize_append, String.utf8ByteSize_append, hcolon]
    rfl
  unfold Json.size
  rw [Json.indent, size_bracketed (by decide) (by decide), indentFields_eq, List.map_map]
  congr 1
  exact List.map_congr_left fun field _ => hfield field

/-! ## Strings -/

theorem size_join (texts : List String) :
    (String.join texts).utf8ByteSize = (texts.map String.utf8ByteSize).sum := by
  induction texts with
  | nil => rfl
  | cons text texts ih => rw [String.join_cons, String.utf8ByteSize_append, ih, List.map_cons,
      List.sum_cons]

theorem utf8ByteSize_ofList (l : List Char) :
    (String.ofList l).utf8ByteSize = (l.map Char.utf8Size).sum := by
  induction l with
  | nil => simp
  | cons c l ih =>
    rw [← List.singleton_append, String.ofList_append, String.utf8ByteSize_append, ih,
      ← String.singleton_eq_ofList, String.utf8ByteSize_singleton, List.singleton_append,
      List.map_cons, List.sum_cons]

theorem utf8Size_digitChar (n : ℕ) : (Nat.digitChar n).utf8Size = 1 := by
  by_cases h : n < 16
  · have hall : ∀ m < 16, (Nat.digitChar m).utf8Size = 1 := by decide
    exact hall n h
  · rw [Nat.digitChar_eq_star.mpr (Nat.not_lt.mp h)]
    rfl

theorem size_escapeChar_le (c : Char) : (escapeChar c).utf8ByteSize ≤ 6 * c.utf8Size := by
  have hpos := c.utf8Size_pos
  have htwo : "\\\"".utf8ByteSize = 2 ∧ "\\\\".utf8ByteSize = 2 ∧ "\\b".utf8ByteSize = 2 ∧
      "\\f".utf8ByteSize = 2 ∧ "\\n".utf8ByteSize = 2 ∧ "\\r".utf8ByteSize = 2 ∧
      "\\t".utf8ByteSize = 2 := by decide
  have hsix : "\\u00".utf8ByteSize = 4 ∧ "\\u2028".utf8ByteSize = 6 ∧ "\\u2029".utf8ByteSize = 6 := by
    decide
  have hhex : (hexByte c.toNat).utf8ByteSize = 2 := by
    rw [hexByte, utf8ByteSize_ofList]
    simp [utf8Size_digitChar]
  have hplain : (String.ofList [c]).utf8ByteSize = c.utf8Size := by
    rw [utf8ByteSize_ofList]
    simp
  unfold escapeChar
  repeat' split
  all_goals
    try rw [String.utf8ByteSize_append]
    omega

/-- Escapes make a text at most six times as long. -/
theorem size_str_le (depth : ℕ) (s : String) :
    (Json.str s).size depth ≤ 6 * s.utf8ByteSize + 2 := by
  have hquote : "\"".utf8ByteSize = 1 := by decide
  have hescaped : (String.join (s.toList.map escapeChar)).utf8ByteSize ≤ 6 * s.utf8ByteSize := by
    rw [size_join, List.map_map]
    conv => rhs; rw [← String.ofList_toList (s := s), utf8ByteSize_ofList]
    generalize s.toList = l
    induction l with
    | nil => simp
    | cons c l ih =>
      have hc := size_escapeChar_le c
      simp only [List.map_cons, List.sum_cons, Function.comp_apply] at ih ⊢
      omega
  unfold Json.size
  rw [Json.indent, jsonString, String.utf8ByteSize_append, String.utf8ByteSize_append, hquote]
  omega

theorem size_bool_le (depth : ℕ) (b : Bool) : (Json.bool b).size depth ≤ 5 := by
  cases b with
  | true => exact (by decide : "true".utf8ByteSize ≤ 5)
  | false => exact (by decide : "false".utf8ByteSize ≤ 5)

theorem size_num_le (depth : ℕ) {n : ℤ} (hn : 0 ≤ n) (hlt : n < 100000) :
    (Json.num n).size depth ≤ 5 := by
  obtain ⟨k, rfl⟩ := Int.eq_ofNat_of_zero_le hn
  have hk : k < 10 ^ 5 := by omega
  have htext : (toString (k : ℤ)).toList = Nat.toDigits 10 k := Nat.toList_repr
  have hsize : (toString (k : ℤ)).utf8ByteSize = (Nat.toDigits 10 k).length := by
    rw [← String.ofList_toList (s := toString (k : ℤ)), htext]
    exact utf8ByteSize_of_ascii fun c hc =>
      utf8Size_of_isDigit (Nat.isDigit_of_mem_toDigits (by decide) (by decide) hc)
  unfold Json.size
  rw [Json.indent, hsize]
  exact (Nat.length_toDigits_le_iff (by decide) (by decide)).mpr hk

theorem size_time_le (depth : ℕ) {t : Time} {j : Json} (h : t.toJson = .ok j) : j.size depth ≤ 182 := by
  obtain ⟨text, htext, hj⟩ := bind_eq_ok_iff.mp h
  cases hj
  have hsize := size_marshalText htext
  have hstr := size_str_le depth text
  omega

/-! ## The fields of a valid state -/

theorem Spelled.size {cls : Char → Prop} {n : ℕ} {v : String} (h : Spelled cls n v)
    (hcls : ∀ c, cls c → c ≤ 'z') : v.utf8ByteSize = n := by
  rw [← String.ofList_toList (s := v), utf8ByteSize_of_ascii, h.length]
  intro c hc
  exact Char.utf8Size_eq_one_iff.mpr (UInt32.le_trans (hcls c (h.chars c hc)) (by decide))

theorem IsHex.le_z {c : Char} (h : IsHex c) : c ≤ 'z' := by
  rcases h with h | h
  · exact Char.le_trans h.2 (by decide)
  · exact Char.le_trans h.2 (by decide)

theorem IsBase32.le_z {c : Char} (h : IsBase32 c) : c ≤ 'z' := by
  rcases h with h | h
  · exact h.2
  · exact Char.le_trans h.2 (by decide)

theorem IsAlphanumeric.le_z {c : Char} (h : IsAlphanumeric c) : c ≤ 'z' := by
  rcases h with h | h
  · exact h.2
  · exact Char.le_trans h.2 (by decide)

theorem IsLabel.size {v : String} (h : IsLabel v) : v.utf8ByteSize ≤ 63 := by
  rw [← String.ofList_toList (s := v), utf8ByteSize_of_ascii]
  · exact h.length.2
  intro c hc
  refine Char.utf8Size_eq_one_iff.mpr (UInt32.le_trans (?_ : c ≤ 'z') (by decide))
  rcases h.chars c hc with h | rfl
  · exact h.le_z
  · decide

theorem IsHash.size_str_le {v : String} (h : IsHash v) (depth : ℕ) :
    (Json.str v).size depth ≤ 260 := by
  have hstr := Torkitten.size_str_le depth v
  have hsize := h.size
  omega

theorem IsName.size_str_le {v : String} (h : IsName v) (depth : ℕ) :
    (Json.str v).size depth ≤ 386 := by
  have hstr := Torkitten.size_str_le depth v
  have hsize := h.size
  omega

theorem Spelled.size_str_le {cls : Char → Prop} {n : ℕ} {v : String} (h : Spelled cls n v)
    (hcls : ∀ c, cls c → c ≤ 'z') (depth : ℕ) : (Json.str v).size depth ≤ 6 * n + 2 := by
  have hstr := Torkitten.size_str_le depth v
  rw [h.size hcls] at hstr
  exact hstr

/-- The names of the fields of the format. -/
def fieldNames : List String :=
  ["version", "initialized", "service_id", "publication_enabled", "mappings", "devices",
    "pending_device", "local_sessions", "agent_tokens", "bootstrap", "prefix", "port", "protocol",
    "enabled", "id", "name", "public_key", "created_at", "acknowledged_at", "private_key",
    "expires_at", "owner", "token_hash", "last_use_at", "authenticated_at", "scopes", "token"]

theorem size_fieldName_le : ∀ name ∈ fieldNames, (jsonString name).utf8ByteSize ≤ 21 := by
  decide

/-- The size of a record, from the sizes of what it holds. -/
theorem size_obj_le (depth : ℕ) (fields : List (String × Json))
    (hnames : ∀ field ∈ fields, field.1 ∈ fieldNames) : (Json.obj fields).size depth ≤
      2 + 2 * depth + (fields.map fun field => 2 * depth + 27 + field.2.size (depth + 1)).sum := by
  have hsum : ((fields.map (fieldSize (depth + 1))).map (2 * depth + 4 + ·)).sum ≤
      (fields.map fun field => 2 * depth + 27 + field.2.size (depth + 1)).sum := by
    rw [List.map_map]
    refine List.sum_le_sum fun field hfield => ?_
    have hname := size_fieldName_le field.1 (hnames field hfield)
    simp only [Function.comp_apply, fieldSize]
    omega
  rw [size_obj]
  unfold blockSize
  split
  · omega
  · omega

section Records

variable {j : Json}

theorem size_mapping_le {m : Mapping} (h : m.Proper) : m.toJson.size 2 ≤ 552 := by
  have hlabel := size_str_le 3 m.prefixLabel
  have hlabel' := h.label.size
  have hport := size_num_le 3 (n := m.port) (by have := h.port; omega) (by have := h.port; omega)
  have henabled := size_bool_le 3 m.enabled
  have hprotocol : (Json.str m.protocol.text).size 3 ≤ 32 := by
    rcases h.protocol with hp | hp | hp <;> (rw [hp]; decide)
  have hsize := size_obj_le 2 [("prefix", .str m.prefixLabel), ("port", .num m.port),
    ("protocol", .str m.protocol.text), ("enabled", .bool m.enabled)] (by simp [fieldNames])
  simp only [List.map_cons, List.map_nil, List.sum_cons, List.sum_nil, Nat.reduceAdd,
    Nat.reduceMul] at hsize
  unfold Mapping.toJson
  omega

theorem size_device_le {d : Device} (h : d.Proper) (hj : d.toJson = .ok j) : j.size 2 ≤ 1419 := by
  obtain ⟨fields, hfields, hj⟩ := bind_eq_ok_iff.mp hj
  obtain ⟨created, hcreated, hfields⟩ := bind_eq_ok_iff.mp hfields
  obtain ⟨acknowledged, hacknowledged, hfields⟩ := bind_eq_ok_iff.mp hfields
  cases hfields
  cases hj
  have hid := h.id.size_str_le (fun _ => IsHex.le_z) 3
  have hname := h.name.size_str_le 3
  have hkey := h.publicKey.size_str_le (fun _ => IsBase32.le_z) 3
  have hcreated := size_time_le 3 hcreated
  have hacknowledged := size_time_le 3 hacknowledged
  refine Nat.le_trans (size_obj_le 2 _ (by simp [fieldNames])) ?_
  simp only [List.map_cons, List.map_nil, List.sum_cons, List.sum_nil, Nat.reduceAdd, Nat.reduceMul]
  omega

theorem size_pending_le {d : PendingDevice} (h : d.Proper) (hj : d.toJson = .ok j) :
    j.size 1 ≤ 2000 := by
  obtain ⟨fields, hfields, hj⟩ := bind_eq_ok_iff.mp hj
  obtain ⟨created, hcreated, hfields⟩ := bind_eq_ok_iff.mp hfields
  obtain ⟨acknowledged, hacknowledged, hfields⟩ := bind_eq_ok_iff.mp hfields
  obtain ⟨expires, hexpires, hj⟩ := bind_eq_ok_iff.mp hj
  cases hfields
  cases hj
  have hid := h.id.size_str_le (fun _ => IsHex.le_z) 2
  have hname := h.name.size_str_le 2
  have hkey := h.publicKey.size_str_le (fun _ => IsBase32.le_z) 2
  have hsecret := h.privateKey.size_str_le (fun _ => IsBase32.le_z) 2
  have hcreated := size_time_le 2 hcreated
  have hacknowledged := size_time_le 2 hacknowledged
  have hexpires := size_time_le 2 hexpires
  refine Nat.le_trans (size_obj_le 1 _ (by simp [fieldNames])) ?_
  simp only [List.cons_append, List.nil_append, List.map_cons, List.map_nil, List.sum_cons,
    List.sum_nil, Nat.reduceAdd, Nat.reduceMul]
  omega

theorem size_session_le {x : LocalSession} (h : x.Proper) (howner : x.owner.utf8ByteSize ≤ 32)
    (hj : x.toJson = .ok j) : j.size 2 ≤ 1599 := by
  obtain ⟨created, hcreated, hj⟩ := bind_eq_ok_iff.mp hj
  obtain ⟨used, hused, hj⟩ := bind_eq_ok_iff.mp hj
  obtain ⟨authenticated, hauthenticated, hj⟩ := bind_eq_ok_iff.mp hj
  obtain ⟨expires, hexpires, hj⟩ := bind_eq_ok_iff.mp hj
  cases hj
  have hid := h.id.size_str_le (fun _ => IsHex.le_z) 3
  have hhash := h.tokenHash.size_str_le 3
  have howner' := size_str_le 3 x.owner
  have hcreated := size_time_le 3 hcreated
  have hused := size_time_le 3 hused
  have hauthenticated := size_time_le 3 hauthenticated
  have hexpires := size_time_le 3 hexpires
  refine Nat.le_trans (size_obj_le 2 _ (by simp [fieldNames])) ?_
  simp only [List.map_cons, List.map_nil, List.sum_cons, List.sum_nil, Nat.reduceAdd, Nat.reduceMul]
  omega

theorem size_scopes_le {scopes : List Scope} {n : ℕ}
    (h : ∀ scope ∈ scopes, scope = .mappingsRead ∨ scope = .mappingsWrite) (hn : scopes.length ≤ n) :
    (Json.arr (scopes.map fun scope => .str scope.text)).size 3 ≤ 8 + n * 26 := by
  have hscope : ∀ size ∈ (scopes.map fun scope => Json.str scope.text).map (Json.size 4),
      size ≤ 16 := by
    simp only [List.mem_map]
    rintro _ ⟨_, ⟨scope, hmem, rfl⟩, rfl⟩
    rcases h scope hmem with rfl | rfl
    · decide
    · decide
  rw [size_arr]
  exact blockSize_le 3 (by simpa using hn) hscope

theorem size_token_le {t : AgentToken} (h : t.Proper) {n : ℕ} (hn : t.scopes.length ≤ n)
    (hj : t.toJson = .ok j) : j.size 2 ≤ 1617 + n * 26 := by
  obtain ⟨created, hcreated, hj⟩ := bind_eq_ok_iff.mp hj
  obtain ⟨used, hused, hj⟩ := bind_eq_ok_iff.mp hj
  obtain ⟨expires, hexpires, hj⟩ := bind_eq_ok_iff.mp hj
  cases hj
  have hid := h.id.size_str_le (fun _ => IsHex.le_z) 3
  have hname := h.name.size_str_le 3
  have hhash := h.tokenHash.size_str_le 3
  have hscopes := size_scopes_le h.scopes hn
  have hcreated := size_time_le 3 hcreated
  have hused := size_time_le 3 hused
  have hexpires := size_time_le 3 hexpires
  refine Nat.le_trans (size_obj_le 2 _ (by simp [fieldNames])) ?_
  simp only [List.map_cons, List.map_nil, List.sum_cons, List.sum_nil, Nat.reduceAdd, Nat.reduceMul]
  omega

theorem size_bootstrap_le {b : BootstrapWindow} (h : b.Proper) (hj : b.toJson = .ok j) :
    j.size 1 ≤ 504 := by
  obtain ⟨expires, hexpires, hj⟩ := bind_eq_ok_iff.mp hj
  cases hj
  have htoken := h.token.size_str_le 2
  have hexpires := size_time_le 2 hexpires
  refine Nat.le_trans (size_obj_le 1 _ (by simp [fieldNames])) ?_
  simp only [List.map_cons, List.map_nil, List.sum_cons, List.sum_nil, Nat.reduceAdd, Nat.reduceMul]
  omega

end Records

/-! ## The whole state -/

theorem encodeAll_ok {α : Type} {encode : α → Except GoError Json} {xs : List α} {js : List Json}
    (h : encodeAll encode xs = .ok js) :
    js.length = xs.length ∧ ∀ j ∈ js, ∃ x ∈ xs, encode x = .ok j := by
  induction xs generalizing js with
  | nil =>
    cases h
    exact ⟨rfl, nofun⟩
  | cons x xs ih =>
    obtain ⟨head, hhead, h⟩ := bind_eq_ok_iff.mp h
    obtain ⟨tail, htail, h⟩ := bind_eq_ok_iff.mp h
    cases h
    obtain ⟨hlength, hmem⟩ := ih htail
    refine ⟨congrArg (· + 1) hlength, List.forall_mem_cons.mpr ⟨⟨x, List.mem_cons_self, hhead⟩, ?_⟩⟩
    intro j hj
    obtain ⟨y, hy, hyj⟩ := hmem j hj
    exact ⟨y, List.mem_cons_of_mem _ hy, hyj⟩

/-- The records of a collection are few and short, and so is their list. -/
theorem size_list_le {α : Type} {encode : α → Except GoError Json} {xs : List α} {js : List Json}
    {n b : ℕ} (h : encodeAll encode xs = .ok js) (hn : xs.length ≤ n)
    (hb : ∀ x ∈ xs, ∀ j, encode x = .ok j → j.size 2 ≤ b) : (Json.arr js).size 1 ≤ 4 + n * (6 + b) := by
  obtain ⟨hlength, hmem⟩ := encodeAll_ok h
  rw [size_arr]
  refine blockSize_le 1 (by rw [List.length_map, hlength]; exact hn) ?_
  intro size hsize
  obtain ⟨j, hj, rfl⟩ := List.mem_map.mp hsize
  obtain ⟨x, hx, hxj⟩ := hmem j hj
  exact hb x hx j hxj

/-- A field that may be omitted is short if its value is. -/
theorem size_optionalField_le {α : Type} {encode : α → Except GoError Json} {name : String}
    {x : Option α} {fields : List (String × Json)} {b : ℕ}
    (h : optionalField name encode x = .ok fields) (hname : name ∈ fieldNames)
    (hb : ∀ a ∈ x, ∀ j, encode a = .ok j → j.size 1 ≤ b) :
    (∀ field ∈ fields, field.1 ∈ fieldNames) ∧
      (fields.map fun field => 2 * 0 + 27 + field.2.size (0 + 1)).sum ≤ 27 + b := by
  cases x with
  | none =>
    cases h
    exact ⟨nofun, Nat.zero_le _⟩
  | some a =>
    obtain ⟨j, hj, h⟩ := bind_eq_ok_iff.mp h
    cases h
    have hsize := hb a rfl j hj
    refine ⟨fun field hfield => ?_, ?_⟩
    · rw [List.mem_singleton.mp hfield]
      exact hname
    · simp only [List.map_cons, List.map_nil, List.sum_cons, List.sum_nil, Nat.reduceAdd, Nat.reduceMul]
      omega

/-- The owners of the sessions are short, and the tokens list at most `n` scopes. -/
structure State.Modest (n : ℕ) (s : State) : Prop where
  owners : ∀ x ∈ s.sessions, x.owner.utf8ByteSize ≤ 32
  scopes : ∀ t ∈ s.tokens, t.scopes.length ≤ n

/-- The text of a valid state is short where nothing in it is long. -/
theorem size_marshalIndent_le {s : State} {n : ℕ} {text : String} (h : s.Specified)
    (hmodest : s.Modest n) (htext : marshalIndent s = .ok text) :
    text.utf8ByteSize ≤ 373000 + 1664 * n := by
  obtain ⟨document, hdocument, htext⟩ := bind_eq_ok_iff.mp htext
  cases htext
  obtain ⟨devices, hdevices, hdocument⟩ := bind_eq_ok_iff.mp hdocument
  obtain ⟨pending, hpending, hdocument⟩ := bind_eq_ok_iff.mp hdocument
  obtain ⟨sessions, hsessions, hdocument⟩ := bind_eq_ok_iff.mp hdocument
  obtain ⟨tokens, htokens, hdocument⟩ := bind_eq_ok_iff.mp hdocument
  obtain ⟨bootstrap, hbootstrap, hdocument⟩ := bind_eq_ok_iff.mp hdocument
  cases hdocument
  have hversion := size_num_le 1 (n := s.version) (by have := h.version; omega)
    (by have := h.version; omega)
  have hinitialized := size_bool_le 1 s.initialized
  have hpublication := size_bool_le 1 s.publication
  have hserviceID : (Json.str s.serviceID).size 1 ≤ 338 := by
    rcases h.serviceID with hid | hid
    · rw [hid]
      decide
    · exact hid.size_str_le (fun _ => IsBase32.le_z) 1
  have hmappings : (Json.arr (s.mappings.map Mapping.toJson)).size 1 ≤ 4 + 128 * (6 + 552) := by
    rw [size_arr]
    refine blockSize_le 1 (by simpa using h.limits.1) ?_
    simp only [List.mem_map]
    rintro _ ⟨_, ⟨m, hm, rfl⟩, rfl⟩
    exact size_mapping_le (h.mapping m hm)
  have hdevices := size_list_le hdevices h.limits.2.1
    fun d hd j hj => size_device_le (h.device d hd) hj
  have hsessions := size_list_le hsessions h.limits.2.2.1
    fun x hx j hj => size_session_le (h.session x hx) (hmodest.owners x hx) hj
  have htokens := size_list_le htokens h.limits.2.2.2
    fun t ht j hj => size_token_le (h.token t ht) (hmodest.scopes t ht) hj
  obtain ⟨hpendingNames, hpending⟩ := size_optionalField_le hpending (by decide)
    fun d hd j hj => size_pending_le (h.pending d hd) hj
  obtain ⟨hbootstrapNames, hbootstrap⟩ := size_optionalField_le hbootstrap (by decide)
    fun b hb j hj => size_bootstrap_le (h.bootstrap b hb) hj
  have hid : ((if s.serviceID = "" then [] else [("service_id", Json.str s.serviceID)]).map
      fun field => 2 * 0 + 27 + field.2.size (0 + 1)).sum ≤ 27 + 338 := by
    split
    · exact Nat.zero_le _
    · simp only [List.map_cons, List.map_nil, List.sum_cons, List.sum_nil, Nat.reduceAdd, Nat.reduceMul]
      omega
  refine Nat.le_trans (size_obj_le 0 _ ?_) ?_
  · intro field hfield
    simp only [List.mem_append, List.mem_cons, List.not_mem_nil, or_false] at hfield
    rcases hfield with ((((hfield | hfield) | hfield) | hfield) | hfield) | hfield
    · rcases hfield with rfl | rfl <;> simp [fieldNames]
    · split at hfield
      · cases hfield
      · simp [List.mem_singleton.mp hfield, fieldNames]
    · rcases hfield with rfl | rfl | rfl <;> simp [fieldNames]
    · exact hpendingNames field hfield
    · rcases hfield with rfl | rfl <;> simp [fieldNames]
    · exact hbootstrapNames field hfield
  · simp only [List.map_append, List.sum_append, List.map_cons, List.map_nil, List.sum_cons,
      List.sum_nil, Nat.reduceAdd, Nat.reduceMul] at hid hpending hbootstrap ⊢
    omega

end Torkitten
