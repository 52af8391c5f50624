import Mathlib.Data.List.Basic
import Mathlib.Data.List.Forall2
import Mathlib.Data.List.TakeDrop

/-!
# JSON texts

A total reader of JSON texts, a writer with an arbitrary layout, and the fact that the reader
inverts the writer. What a text says is a `Value`, in which numbers and strings are kept as they are
spelled, because what a spelling means depends on what it is decoded into.

## Main definitions

* `Value`: what a text says;
* `readValue`: read one value from the front of a text;
* `Layout`, `Value.print`: the writer. A layout says what stands at the start of a line and after a
  colon, and both must be blank;
* `Member`, `decodeRecord`: a record decoded field by field.

## Main results

* `read_print`: a value that is well spelled is read back, in every layout.
-/

namespace JsonText

/-- What a JSON text says. Numbers, strings and the names of fields are literals; those of strings
are without the quotes. -/
inductive Value where
  | null
  | bool (b : Bool)
  | num (literal : List Char)
  | str (literal : List Char)
  | arr (items : List Value)
  | obj (fields : List (List Char × Value))

/-! ## Reading -/

/-- The blank characters between tokens. -/
def isSpace (c : Char) : Bool := c == ' ' || c == '\t' || c == '\r' || c == '\n'

/-- Skip blank characters. -/
def skip (cs : List Char) : List Char := cs.dropWhile isSpace

/-- A hexadecimal digit. -/
def isHex (c : Char) : Bool := c.isDigit || ('a' ≤ c && c ≤ 'f') || ('A' ≤ c && c ≤ 'F')

/-- A character that stands after a backslash alone. -/
def isShort (c : Char) : Bool := ['"', '\\', '/', 'b', 'f', 'n', 'r', 't'].contains c

/-- A character that stands for itself in a string. -/
def isPlain (c : Char) : Bool := 32 ≤ c.toNat && c != '"' && c != '\\'

/-- Read a string after its opening quote. -/
def readString : List Char → Option (List Char × List Char)
  | [] => none
  | '"' :: rest => some ([], rest)
  | '\\' :: 'u' :: a :: b :: c :: d :: rest =>
    if isHex a && isHex b && isHex c && isHex d then
      (readString rest).map fun (l, rest) => ('\\' :: 'u' :: a :: b :: c :: d :: l, rest)
    else none
  | '\\' :: c :: rest =>
    if isShort c then (readString rest).map fun (l, rest) => ('\\' :: c :: l, rest) else none
  | c :: rest => if isPlain c then (readString rest).map fun (l, rest) => (c :: l, rest) else none

/-- Read at least one digit. -/
def readDigits (cs : List Char) : Option (List Char × List Char) :=
  match cs.span Char.isDigit with
  | ([], _) => none
  | (digits, rest) => some (digits, rest)

/-- Read the digits before the point: a zero, or digits that do not start with one. -/
def readInteger : List Char → Option (List Char × List Char)
  | '0' :: rest => some (['0'], rest)
  | cs => readDigits cs

/-- Read the point and the digits after it, if there are any. -/
def readFraction : List Char → Option (List Char × List Char)
  | '.' :: rest => (readDigits rest).map fun (digits, rest) => ('.' :: digits, rest)
  | cs => some ([], cs)

/-- Read the exponent, if there is one. -/
def readExponent : List Char → Option (List Char × List Char)
  | c :: rest =>
    if c == 'e' || c == 'E' then
      match rest with
      | '+' :: rest => (readDigits rest).map fun (digits, rest) => (c :: '+' :: digits, rest)
      | '-' :: rest => (readDigits rest).map fun (digits, rest) => (c :: '-' :: digits, rest)
      | rest => (readDigits rest).map fun (digits, rest) => (c :: digits, rest)
    else some ([], c :: rest)
  | [] => some ([], [])

/-- Read a number without its sign. -/
def readUnsigned (cs : List Char) : Option (List Char × List Char) := do
  let (integer, cs) ← readInteger cs
  let (fraction, cs) ← readFraction cs
  let (exponent, cs) ← readExponent cs
  return (integer ++ fraction ++ exponent, cs)

/-- Read a number. -/
def readNumber : List Char → Option (List Char × List Char)
  | '-' :: rest => (readUnsigned rest).map fun (l, rest) => ('-' :: l, rest)
  | cs => readUnsigned cs

section Blocks

variable {α : Type} (close : Char) (read : List Char → Option (α × List Char))

/-- Read one or more elements up to a closing bracket, after an element's front; at most `fuel`. -/
def readElements : ℕ → List Char → Option (List α × List Char)
  | 0, _ => none
  | fuel + 1, cs =>
    match read cs with
    | none => none
    | some (x, cs) =>
      match skip cs with
      | [] => none
      | c :: rest =>
        if c == ',' then (readElements fuel rest).map fun (xs, rest) => (x :: xs, rest)
        else if c == close then some ([x], rest)
        else none

/-- Read the elements of a block after its opening bracket. -/
def readBlock (fuel : ℕ) (cs : List Char) : Option (List α × List Char) :=
  match skip cs with
  | [] => none
  | c :: rest => if c == close then some ([], rest) else readElements close read fuel (c :: rest)

end Blocks

/-- Read a name, a colon and a value. -/
def readField (read : List Char → Option (Value × List Char)) (cs : List Char) :
    Option ((List Char × Value) × List Char) :=
  match skip cs with
  | '"' :: rest =>
    match readString rest with
    | none => none
    | some (name, cs) =>
      match skip cs with
      | ':' :: rest => (read rest).map fun (v, rest) => ((name, v), rest)
      | _ => none
  | _ => none

/-- Read one value from the front of a text. No text is longer than the fuel it needs. -/
def readValue : ℕ → List Char → Option (Value × List Char)
  | 0, _ => none
  | fuel + 1, cs =>
    match skip cs with
    | '"' :: rest => (readString rest).map fun (l, rest) => (.str l, rest)
    | '[' :: rest =>
      (readBlock ']' (readValue fuel) fuel rest).map fun (items, rest) => (.arr items, rest)
    | '\x7b' :: rest =>
      (readBlock '\x7d' (readField (readValue fuel)) fuel rest).map fun (fields, rest) =>
        (.obj fields, rest)
    | 'n' :: 'u' :: 'l' :: 'l' :: rest => some (.null, rest)
    | 't' :: 'r' :: 'u' :: 'e' :: rest => some (.bool true, rest)
    | 'f' :: 'a' :: 'l' :: 's' :: 'e' :: rest => some (.bool false, rest)
    | cs => (readNumber cs).map fun (l, rest) => (.num l, rest)

/-- Read one value from the front of a text. -/
def read (text : List Char) : Option (Value × List Char) := readValue text.length text

/-! ## Writing -/

/-- What stands at the start of a line and after a colon. -/
structure Layout where
  /-- The line break and the indentation of a line. -/
  line : ℕ → List Char
  colon : List Char
  line_blank : ∀ depth, ∀ c ∈ line depth, isSpace c = true
  colon_blank : ∀ c ∈ colon, isSpace c = true

/-- Nothing between the tokens. -/
def Layout.compact : Layout where
  line _ := []
  colon := []
  line_blank _ _ h := absurd h List.not_mem_nil
  colon_blank _ h := absurd h List.not_mem_nil

section Print

variable (L : Layout)

/-- The elements after the first, and the closing bracket. -/
def printRest (depth : ℕ) (close : Char) : List (List Char) → List Char
  | [] => L.line depth ++ [close]
  | text :: texts => ',' :: (L.line (depth + 1) ++ (text ++ printRest depth close texts))

/-- The elements of a block and its closing bracket. -/
def printBlock (depth : ℕ) (close : Char) : List (List Char) → List Char
  | [] => [close]
  | text :: texts => L.line (depth + 1) ++ (text ++ printRest L depth close texts)

mutual

/-- The text of a value. -/
def Value.print (depth : ℕ) : Value → List Char
  | .null => ['n', 'u', 'l', 'l']
  | .bool true => ['t', 'r', 'u', 'e']
  | .bool false => ['f', 'a', 'l', 's', 'e']
  | .num l => l
  | .str l => '"' :: (l ++ ['"'])
  | .arr items => '[' :: printBlock L depth ']' (printItems (depth + 1) items)
  | .obj fields => '\x7b' :: printBlock L depth '\x7d' (printFields (depth + 1) fields)

/-- The texts of the items of an array. -/
def printItems (depth : ℕ) : List Value → List (List Char)
  | [] => []
  | item :: rest => item.print depth :: printItems depth rest

/-- The texts of the fields of an object. -/
def printFields (depth : ℕ) : List (List Char × Value) → List (List Char)
  | [] => []
  | field :: rest => printField depth field :: printFields depth rest

/-- The text of one field of an object. -/
def printField (depth : ℕ) : List Char × Value → List Char
  | (name, v) => '"' :: (name ++ '"' :: ':' :: (L.colon ++ v.print depth))

end

end Print

/-! ## Spelling -/

/-- The literals of strings. -/
inductive Literal : List Char → Prop where
  | nil : Literal []
  | plain {c : Char} {l : List Char} (hc : isPlain c = true) (hl : Literal l) : Literal (c :: l)
  | short {c : Char} {l : List Char} (hc : isShort c = true) (hl : Literal l) : Literal ('\\' :: c :: l)
  | long {a b c d : Char} {l : List Char}
      (hex : (isHex a && isHex b && isHex c && isHex d) = true) (hl : Literal l) :
      Literal ('\\' :: 'u' :: a :: b :: c :: d :: l)

theorem Literal.append {l l' : List Char} (h : Literal l) (h' : Literal l') : Literal (l ++ l') := by
  induction h with
  | nil => exact h'
  | plain hc _ ih => exact .plain hc ih
  | short hc _ ih => exact .short hc ih
  | long hex _ ih => exact .long hex ih

/-- What follows a number does not go on with it. -/
def Stops (rest : List Char) : Prop :=
  ∀ c ∈ rest.head?, c.isDigit = false ∧ c ≠ '.' ∧ c ≠ 'e' ∧ c ≠ 'E'

/-- A literal of an integer: digits without a leading zero, perhaps after a sign. -/
structure Unsigned (l : List Char) : Prop where
  ne_nil : l ≠ []
  digits : ∀ c ∈ l, c.isDigit = true
  leading : l = ['0'] ∨ l.head? ≠ some '0'

/-- The literals of integers. -/
def Numeral (l : List Char) : Prop := Unsigned l ∨ ∃ l', l = '-' :: l' ∧ Unsigned l'

mutual

/-- The numbers of a value are integers, and its strings are spelled as JSON wants it. -/
def Value.Spelled : Value → Prop
  | .null => True
  | .bool _ => True
  | .num l => Numeral l
  | .str l => Literal l
  | .arr items => SpelledItems items
  | .obj fields => SpelledFields fields

/-- The same for the items of an array. -/
def SpelledItems : List Value → Prop
  | [] => True
  | item :: rest => item.Spelled ∧ SpelledItems rest

/-- The same for the fields of an object. -/
def SpelledFields : List (List Char × Value) → Prop
  | [] => True
  | field :: rest => SpelledField field ∧ SpelledFields rest

/-- The same for one field of an object. -/
def SpelledField : List Char × Value → Prop
  | (name, v) => Literal name ∧ v.Spelled

end

/-! ## What is written is read -/

section Read

variable {α : Type} {gap cs rest l : List Char} {c : Char}

theorem skip_append (hgap : ∀ c ∈ gap, isSpace c = true) : skip (gap ++ cs) = skip cs :=
  List.dropWhile_append_of_pos hgap

theorem skip_cons (hc : isSpace c = false) : skip (c :: cs) = c :: cs :=
  List.dropWhile_cons_of_neg (by simp [hc])

theorem readString_literal (hl : Literal l) : readString (l ++ '"' :: rest) = some (l, rest) := by
  induction hl with
  | nil => rfl
  | @plain c l hc _ ih =>
    have hne : c ≠ '"' ∧ c ≠ '\\' := by
      simp only [isPlain, Bool.and_eq_true, bne_iff_ne] at hc
      exact ⟨hc.1.2, hc.2⟩
    simp [readString, hne, hc, ih]
  | @short c l hc _ ih =>
    have hne : c ≠ 'u' := by
      rintro rfl
      simp [isShort] at hc
    simp [readString, hne, hc, ih]
  | @long a b c d l hex _ ih => simp [readString, hex, ih]

theorem span_digits (hl : ∀ c ∈ l, c.isDigit = true) (hrest : Stops rest) :
    (l ++ rest).span Char.isDigit = (l, rest) := by
  have hstop : rest.takeWhile Char.isDigit = [] ∧ rest.dropWhile Char.isDigit = rest := by
    cases rest with
    | nil => exact ⟨rfl, rfl⟩
    | cons c rest =>
      have hc : c.isDigit = false := (hrest c rfl).1
      exact ⟨List.takeWhile_cons_of_neg (by simp [hc]), List.dropWhile_cons_of_neg (by simp [hc])⟩
  rw [List.span_eq_takeWhile_dropWhile, List.takeWhile_append_of_pos hl,
    List.dropWhile_append_of_pos hl, hstop.1, hstop.2, List.append_nil]

theorem readDigits_append (hnil : l ≠ []) (hl : ∀ c ∈ l, c.isDigit = true) (hrest : Stops rest) :
    readDigits (l ++ rest) = some (l, rest) := by
  unfold readDigits
  rw [span_digits hl hrest]
  split
  next h => exact absurd (congrArg Prod.fst h) hnil
  next h => rw [h]

theorem readInteger_unsigned (hl : Unsigned l) (hrest : Stops rest) :
    readInteger (l ++ rest) = some (l, rest) := by
  rcases hl.leading with rfl | hlead
  · rfl
  · unfold readInteger
    split
    next tail heq =>
      -- the first character of the literal would be a zero
      cases l with
      | nil => exact absurd rfl hl.ne_nil
      | cons c l =>
        cases heq
        exact absurd rfl hlead
    next => exact readDigits_append hl.ne_nil hl.digits hrest

theorem readUnsigned_unsigned (hl : Unsigned l) (hrest : Stops rest) :
    readUnsigned (l ++ rest) = some (l, rest) := by
  have hfraction : readFraction rest = some ([], rest) := by
    unfold readFraction
    split
    next => exact absurd rfl (hrest '.' rfl).2.1
    next => rfl
  have hexponent : readExponent rest = some ([], rest) := by
    cases rest with
    | nil => rfl
    | cons c rest =>
      obtain ⟨-, -, he, hE⟩ := hrest c rfl
      simp [readExponent, he, hE]
  simp [readUnsigned, readInteger_unsigned hl hrest, hfraction, hexponent]

theorem Unsigned.head (hl : Unsigned l) : ∃ c l', l = c :: l' ∧ c.isDigit = true := by
  cases l with
  | nil => exact absurd rfl hl.ne_nil
  | cons c l => exact ⟨c, l, rfl, hl.digits c List.mem_cons_self⟩

theorem readNumber_numeral (hl : Numeral l) (hrest : Stops rest) :
    readNumber (l ++ rest) = some (l, rest) := by
  rcases hl with hl | ⟨l, rfl, hl⟩
  · obtain ⟨c, l, rfl, hc⟩ := hl.head
    have hne : c ≠ '-' := by
      rintro rfl
      cases hc
    rw [List.cons_append, readNumber]
    · exact readUnsigned_unsigned hl hrest
    · intro tail heq
      cases heq
      exact hne rfl
  · simp [readNumber, readUnsigned_unsigned hl hrest]

/-- A reader reads an element from its text, wherever the text stands. -/
def Reads (read : List Char → Option (α × List Char)) (text : List Char) (x : α) : Prop :=
  ∀ gap rest, (∀ c ∈ gap, isSpace c = true) → Stops rest → read (gap ++ (text ++ rest)) = some (x, rest)

theorem stops_of_isSpace (hc : isSpace c = true) : Stops (c :: rest) := by
  intro c' hc'
  cases hc'
  simp only [isSpace, Bool.or_eq_true, beq_iff_eq] at hc
  rcases hc with ((rfl | rfl) | rfl) | rfl <;> decide

theorem stops_append (hgap : ∀ c ∈ gap, isSpace c = true) (hrest : Stops rest) :
    Stops (gap ++ rest) := by
  cases gap with
  | nil => exact hrest
  | cons c gap => exact stops_of_isSpace (hgap c List.mem_cons_self)

section Blocks

variable {L : Layout} {depth : ℕ} {close : Char} {read : List Char → Option (α × List Char)}

/-- A bracket that can close a block. -/
structure Closes (close : Char) : Prop where
  ne_comma : close ≠ ','
  not_space : isSpace close = false
  stops : ∀ rest, Stops (close :: rest)

theorem stops_printRest (hclose : Closes close) (texts : List (List Char)) :
    Stops (printRest L depth close texts ++ rest) := by
  cases texts with
  | nil =>
    rw [printRest, List.append_assoc]
    exact stops_append (L.line_blank depth) (hclose.stops rest)
  | cons text texts =>
    intro c hc
    cases hc
    decide

theorem readElements_print (hclose : Closes close) {text : List Char} {texts : List (List Char)}
    {x : α} {xs : List α} (hx : Reads read text x) (hxs : List.Forall₂ (Reads read) texts xs)
    {fuel : ℕ} (hfuel : texts.length < fuel) (hgap : ∀ c ∈ gap, isSpace c = true) :
    readElements close read fuel (gap ++ (text ++ (printRest L depth close texts ++ rest))) =
      some (x :: xs, rest) := by
  induction hxs generalizing text x fuel gap with
  | nil =>
    obtain ⟨fuel, rfl⟩ : ∃ n, fuel = n + 1 := ⟨fuel - 1, by simp at hfuel; omega⟩
    rw [readElements, hx gap _ hgap (stops_printRest hclose [])]
    simp only [printRest, List.append_assoc, skip_append (L.line_blank depth), List.cons_append,
      List.nil_append, skip_cons hclose.not_space]
    simp [hclose.ne_comma]
  | @cons text' x' texts xs hx' hxs ih =>
    obtain ⟨fuel, rfl⟩ : ∃ n, fuel = n + 1 := ⟨fuel - 1, by simp at hfuel; omega⟩
    rw [readElements, hx gap _ hgap (stops_printRest hclose _)]
    have hrest : readElements close read fuel (L.line (depth + 1) ++ (text' ++
        (printRest L depth close texts ++ rest))) = some (x' :: xs, rest) :=
      ih hx' (by simpa using hfuel) (L.line_blank (depth + 1))
    have hcomma : isSpace ',' = false := rfl
    simp only [printRest, List.cons_append, List.append_assoc, skip_cons hcomma, beq_self_eq_true,
      ↓reduceIte, hrest, Option.map_some]

theorem readBlock_print (hclose : Closes close) {texts : List (List Char)} {xs : List α}
    (hxs : List.Forall₂ (Reads read) texts xs)
    (hfirst : ∀ text ∈ texts, ∃ c l, text = c :: l ∧ isSpace c = false ∧ c ≠ close)
    {fuel : ℕ} (hfuel : texts.length ≤ fuel) :
    readBlock close read fuel (printBlock L depth close texts ++ rest) = some (xs, rest) := by
  cases hxs with
  | nil => simp [printBlock, readBlock, skip_cons hclose.not_space]
  | @cons text x texts xs hx hxs =>
    obtain ⟨c, l, rfl, hc, hne⟩ := hfirst _ List.mem_cons_self
    have hread : readElements close read fuel (c :: (l ++ (printRest L depth close texts ++ rest))) =
        some (x :: xs, rest) :=
      readElements_print hclose hx hxs hfuel (fun _ h => absurd h List.not_mem_nil : ∀ c ∈ [], _)
    simp [printBlock, readBlock, skip_append (L.line_blank _), skip_cons hc, hne, hread]

end Blocks

end Read

section Print

variable (L : Layout) {depth fuel : ℕ} {gap rest l : List Char} {v : Value}

theorem Numeral.head (hl : Numeral l) : ∃ c l', l = c :: l' ∧ (c.isDigit = true ∨ c = '-') := by
  rcases hl with hl | ⟨l, rfl, -⟩
  · obtain ⟨c, l, rfl, hc⟩ := hl.head
    exact ⟨c, l, rfl, .inl hc⟩
  · exact ⟨'-', l, rfl, .inr rfl⟩

theorem not_isSpace_of_numeral {c : Char} (hc : c.isDigit = true ∨ c = '-') : isSpace c = false := by
  rw [Bool.eq_false_iff]
  intro hspace
  have hstop : Stops [c] := stops_of_isSpace hspace
  rcases hc with hc | rfl
  · rw [(hstop c rfl).1] at hc
    cases hc
  · cases hspace

/-- A value starts with a character of its own. -/
theorem Value.Spelled.head (h : v.Spelled) (depth : ℕ) :
    ∃ c l, v.print L depth = c :: l ∧ isSpace c = false ∧ c ≠ ']' := by
  cases v with
  | null => exact ⟨_, _, rfl, rfl, by decide⟩
  | bool b =>
    cases b with
    | true => exact ⟨_, _, rfl, rfl, by decide⟩
    | false => exact ⟨_, _, rfl, rfl, by decide⟩
  | num l =>
    obtain ⟨c, l', rfl, hc⟩ := Numeral.head (l := l) h
    refine ⟨c, l', rfl, not_isSpace_of_numeral hc, ?_⟩
    rintro rfl
    rcases hc with hc | hc
    · cases hc
    · cases hc
  | str l => exact ⟨_, _, rfl, rfl, by decide⟩
  | arr items => exact ⟨_, _, rfl, rfl, by decide⟩
  | obj fields => exact ⟨_, _, rfl, rfl, by decide⟩

/-- A number is read where a value is expected: its first character starts nothing else. -/
theorem reads_num (hl : Numeral l) : Reads (readValue (fuel + 1)) l (.num l) := by
  intro gap rest hgap hrest
  have hread := readNumber_numeral hl hrest
  obtain ⟨c, l, rfl, hc⟩ := hl.head
  rw [readValue, skip_append hgap, List.cons_append, skip_cons (not_isSpace_of_numeral hc)]
  rw [List.cons_append] at hread
  have hother {c' : Char} {tail tail' : List Char} (hc' : ¬ (c'.isDigit = true ∨ c' = '-'))
      (heq : c :: tail = c' :: tail') : False := by
    obtain ⟨rfl, -⟩ := List.cons.inj heq
    exact hc' hc
  split
  next heq => exact (hother (by decide) heq).elim
  next heq => exact (hother (by decide) heq).elim
  next heq => exact (hother (by decide) heq).elim
  next heq => exact (hother (by decide) heq).elim
  next heq => exact (hother (by decide) heq).elim
  next heq => exact (hother (by decide) heq).elim
  next => rw [hread, Option.map_some]

theorem closes_array : Closes ']' := ⟨by decide, rfl, fun _ c hc => by cases hc; decide⟩

theorem closes_object : Closes '\x7d' := ⟨by decide, rfl, fun _ c hc => by cases hc; decide⟩

theorem length_printRest (depth : ℕ) (close : Char) (texts : List (List Char)) :
    texts.length < (printRest L depth close texts).length ∧
      ∀ text ∈ texts, text.length ≤ (printRest L depth close texts).length := by
  induction texts with
  | nil => exact ⟨by simp [printRest], fun _ h => absurd h List.not_mem_nil⟩
  | cons text texts ih =>
    simp only [printRest, List.length_cons, List.length_append]
    refine ⟨by omega, List.forall_mem_cons.mpr ⟨by omega, fun other hother => ?_⟩⟩
    have := ih.2 other hother
    omega

/-- A block is no shorter than the number of its elements, nor than any of them. -/
theorem length_printBlock (depth : ℕ) (close : Char) (texts : List (List Char)) :
    texts.length ≤ (printBlock L depth close texts).length ∧
      ∀ text ∈ texts, text.length ≤ (printBlock L depth close texts).length := by
  cases texts with
  | nil => exact ⟨by simp, fun _ h => absurd h List.not_mem_nil⟩
  | cons text texts =>
    obtain ⟨hcount, hlength⟩ := length_printRest L depth close texts
    simp only [printBlock, List.length_cons, List.length_append]
    refine ⟨by omega, List.forall_mem_cons.mpr ⟨by omega, fun other hother => ?_⟩⟩
    have := hlength other hother
    omega

theorem readField_print {name : List Char} (hname : Literal name)
    (hv : Reads (readValue fuel) (v.print L depth) v) :
    Reads (readField (readValue fuel)) (printField L depth (name, v)) (name, v) := by
  intro gap rest hgap hrest
  have hquote : isSpace '"' = false := rfl
  have hcolon : isSpace ':' = false := rfl
  have hread := hv L.colon rest L.colon_blank hrest
  simp only [printField, List.cons_append, List.append_assoc, readField, skip_append hgap,
    skip_cons hquote, readString_literal hname, skip_cons hcolon, hread, Option.map_some]

theorem reads_str (hl : Literal l) : Reads (readValue (fuel + 1)) ('"' :: (l ++ ['"'])) (.str l) := by
  intro gap rest hgap _
  have hquote : isSpace '"' = false := rfl
  simp only [readValue, skip_append hgap, List.cons_append, List.append_assoc, List.nil_append,
    skip_cons hquote, readString_literal hl, Option.map_some]

theorem SpelledItems.head {items : List Value} (h : SpelledItems items) (depth : ℕ) :
    ∀ text ∈ printItems L depth items, ∃ c l, text = c :: l ∧ isSpace c = false ∧ c ≠ ']' := by
  induction items with
  | nil => exact fun _ h => absurd h List.not_mem_nil
  | cons item rest ih => exact List.forall_mem_cons.mpr ⟨h.1.head L depth, ih h.2⟩

theorem head_printFields (fields : List (List Char × Value)) (depth : ℕ) :
    ∀ text ∈ printFields L depth fields, ∃ c l, text = c :: l ∧ isSpace c = false ∧ c ≠ '\x7d' := by
  induction fields with
  | nil => exact fun _ h => absurd h List.not_mem_nil
  | cons field rest ih =>
    obtain ⟨name, v⟩ := field
    exact List.forall_mem_cons.mpr ⟨⟨'"', _, rfl, rfl, by decide⟩, ih⟩

mutual

/-- A value is read back from its text, with as much fuel as the text is long. -/
theorem Value.Spelled.reads : {v : Value} → v.Spelled → ∀ (depth : ℕ) {fuel : ℕ},
    (v.print L depth).length ≤ fuel → Reads (readValue fuel) (v.print L depth) v
  | v, h, depth, 0, hfuel => by
    obtain ⟨c, l, hcl, -⟩ := h.head L depth
    rw [hcl] at hfuel
    exact absurd hfuel (Nat.not_succ_le_zero _)
  | .null, _, _, fuel + 1, _ => fun gap rest hgap _ => by
    rw [readValue, skip_append hgap]
    rfl
  | .bool true, _, _, fuel + 1, _ => fun gap rest hgap _ => by
    rw [readValue, skip_append hgap]
    rfl
  | .bool false, _, _, fuel + 1, _ => fun gap rest hgap _ => by
    rw [readValue, skip_append hgap]
    rfl
  | .num l, h, _, fuel + 1, _ => reads_num h
  | .str l, h, _, fuel + 1, _ => reads_str h
  | .arr items, h, depth, fuel + 1, hfuel => fun gap rest hgap _ => by
    obtain ⟨hcount, hlength⟩ := length_printBlock L depth ']' (printItems L (depth + 1) items)
    have hblock : (printBlock L depth ']' (printItems L (depth + 1) items)).length ≤ fuel :=
      Nat.le_of_succ_le_succ hfuel
    have hitems := SpelledItems.reads (depth + 1) h fun text htext =>
      Nat.le_trans (hlength text htext) hblock
    have hopen : isSpace '[' = false := rfl
    simp only [readValue, Value.print, skip_append hgap, List.cons_append, skip_cons hopen]
    rw [readBlock_print closes_array hitems (SpelledItems.head L h (depth + 1))
      (Nat.le_trans hcount hblock), Option.map_some]
  | .obj fields, h, depth, fuel + 1, hfuel => fun gap rest hgap _ => by
    obtain ⟨hcount, hlength⟩ := length_printBlock L depth '\x7d' (printFields L (depth + 1) fields)
    have hblock : (printBlock L depth '\x7d' (printFields L (depth + 1) fields)).length ≤ fuel :=
      Nat.le_of_succ_le_succ hfuel
    have hfields := SpelledFields.reads (depth + 1) h fun text htext =>
      Nat.le_trans (hlength text htext) hblock
    have hopen : isSpace '\x7b' = false := rfl
    simp only [readValue, Value.print, skip_append hgap, List.cons_append, skip_cons hopen]
    rw [readBlock_print closes_object hfields (head_printFields L fields (depth + 1))
      (Nat.le_trans hcount hblock), Option.map_some]

theorem SpelledItems.reads : {items : List Value} → ∀ (depth : ℕ) {fuel : ℕ}, SpelledItems items →
    (∀ text ∈ printItems L depth items, text.length ≤ fuel) →
      List.Forall₂ (Reads (readValue fuel)) (printItems L depth items) items
  | [], _, _, _, _ => .nil
  | _ :: _, depth, _, h, hfuel =>
    .cons (h.1.reads depth (hfuel _ List.mem_cons_self))
      (SpelledItems.reads depth h.2 fun text htext => hfuel text (List.mem_cons_of_mem _ htext))

theorem SpelledFields.reads : {fields : List (List Char × Value)} → ∀ (depth : ℕ) {fuel : ℕ},
    SpelledFields fields → (∀ text ∈ printFields L depth fields, text.length ≤ fuel) →
      List.Forall₂ (Reads (readField (readValue fuel))) (printFields L depth fields) fields
  | [], _, _, _, _ => .nil
  | (name, v) :: _, depth, fuel, h, hfuel => by
    refine .cons (readField_print L h.1.1 (h.1.2.reads depth ?_))
      (SpelledFields.reads depth h.2 fun text htext => hfuel text (List.mem_cons_of_mem _ htext))
    have hfield := hfuel _ List.mem_cons_self
    simp only [printField, List.length_cons, List.length_append] at hfield
    omega

end

/-- A value that is well spelled is read back from its text, whatever the layout. -/
theorem read_print {v : Value} (h : v.Spelled) (depth : ℕ) {rest : List Char} (hrest : Stops rest) :
    read (v.print L depth ++ rest) = some (v, rest) := by
  have hlength : (v.print L depth).length ≤ (v.print L depth ++ rest).length := by
    rw [List.length_append]
    omega
  exact h.reads L depth hlength [] rest (fun _ h => absurd h List.not_mem_nil) hrest

end Print

/-! ## Decoding -/

/-- The value of a hexadecimal digit. -/
def hexValue (c : Char) : ℕ :=
  if c.isDigit then c.toNat - 48 else if 'a' ≤ c && c ≤ 'f' then c.toNat - 87 else c.toNat - 55

/-- The code unit of four hexadecimal digits. -/
def codeUnit (a b c d : Char) : ℕ :=
  ((hexValue a * 16 + hexValue b) * 16 + hexValue c) * 16 + hexValue d

/-- The character of a pair of surrogates. -/
def pairChar (high low : ℕ) : Option Char :=
  if 0xD800 ≤ high && high < 0xDC00 && 0xDC00 ≤ low && low < 0xE000 then
    some (Char.ofNat ((high - 0xD800) * 0x400 + (low - 0xDC00) + 0x10000))
  else none

/-- The character that a backslash and one character stand for. -/
def shortChar : Char → Char
  | 'b' => '\x08'
  | 'f' => '\x0c'
  | 'n' => '\n'
  | 'r' => '\r'
  | 't' => '\t'
  | c => c

/-- A surrogate that has found no partner. -/
def unpaired : Option ℕ → List Char
  | none => []
  | some _ => ['\uFFFD']

/-- The text of a literal, after a surrogate that may have its partner in it. -/
def unquoteAfter : Option ℕ → List Char → List Char
  | pending, [] => unpaired pending
  | pending, '\\' :: 'u' :: a :: b :: c :: d :: rest =>
    match pending.bind (pairChar · (codeUnit a b c d)) with
    | some pair => pair :: unquoteAfter none rest
    | none =>
      unpaired pending ++
        if 0xD800 ≤ codeUnit a b c d && codeUnit a b c d < 0xE000 then
          unquoteAfter (some (codeUnit a b c d)) rest
        else Char.ofNat (codeUnit a b c d) :: unquoteAfter none rest
  | pending, '\\' :: c :: rest => unpaired pending ++ shortChar c :: unquoteAfter none rest
  | pending, c :: rest => unpaired pending ++ c :: unquoteAfter none rest

/-- The text of a literal. A surrogate without its partner stands for the replacement character. -/
def unquote (l : List Char) : List Char := unquoteAfter none l

/-- One of the characters that differ in case only. The Kelvin sign and the long s are the only
characters outside ASCII that fold into it. -/
def foldChar (c : Char) : Char :=
  if c = '\u212A' then 'K' else if c = '\u017F' then 'S' else c.toUpper

/-- Names that differ in case only. -/
def sameName (a b : List Char) : Bool := a.map foldChar == b.map foldChar

/-- A field of a record: its name, and how a value is stored in it. -/
structure Member (σ : Type) where
  name : String
  store : Value → σ → Option σ

section Records

variable {σ : Type} (strict : Bool) (fields : List (Member σ))

/-- Store the fields of an object one after the other. An unknown field is an error if the decoder
is strict. -/
def decodeFields : List (List Char × Value) → σ → Option σ
  | [], s => some s
  | (name, v) :: rest, s =>
    match fields.find? fun f => sameName f.name.toList (unquote name) with
    | none => if strict then none else decodeFields rest s
    | some f => (f.store v s).bind (decodeFields rest)

/-- Decode an object into a record. A null changes nothing. -/
def decodeRecord : Value → σ → Option σ
  | .null, s => some s
  | .obj members, s => decodeFields strict fields members s
  | _, _ => none

/-- Decode an array into a list. A null is the absence of a list. -/
def decodeList {α : Type} (decode : Value → Option α) : Value → Option (Option (List α))
  | .null => some none
  | .arr items => (items.mapM decode).map some
  | _ => none

variable {strict fields}

theorem find?_field {f : Member σ} (hf : f ∈ fields)
    (hdistinct : fields.Pairwise fun f g => sameName f.name.toList g.name.toList = false) :
    fields.find? (fun g => sameName g.name.toList f.name.toList) = some f := by
  induction fields with
  | nil => exact absurd hf List.not_mem_nil
  | cons g rest ih =>
    obtain ⟨hg, hrest⟩ := List.pairwise_cons.mp hdistinct
    rcases List.mem_cons.mp hf with rfl | hf
    · exact List.find?_cons_of_pos (by simp [sameName])
    · rw [List.find?_cons_of_neg (by simp [hg f hf])]
      exact ih hf hrest

end Records

end JsonText
