import Mathlib.Algebra.BigOperators.Group.List.Basic
import Mathlib.Algebra.Ring.Nat
import Mathlib.Data.List.Infix
import Torkitten.Model.State

/-!
# The redacting log writer

`logWriter` stands between a component and the log. It collects the bytes of a line and logs only how
many there were. A line is logged when its end is written, when the writer is flushed, and when 8192
bytes have been collected; in this last case the byte that found the buffer full is lost.

## Main results

* `counts_account_iff`: the counts that are logged depend on the concatenation of what was written
  only, each of them is between 1 and 8192, and they account for every byte exactly when no line is
  longer than 8192 bytes.
-/

namespace Torkitten.Supervisor

/-- The end of a line. -/
def newline : UInt8 := 10

/-- The number of bytes that a `logWriter` collects. -/
def logLimit : ℕ := 8192

/-- `logWriter`, with the sizes it has logged. -/
structure LogWriter where
  name : String
  pending : List UInt8
  logged : List ℕ
  deriving DecidableEq, Repr

/-- `newLogWriter`. -/
def newLogWriter (name : String) : LogWriter := { name, pending := [], logged := [] }

namespace LogWriter

variable (w : LogWriter)

/-- The lines that have been logged. -/
def lines : List String :=
  w.logged.map fun size => "component=" ++ w.name ++ " output_redacted bytes=" ++ toString size

/-- `logWriter.emit`. -/
def emit : LogWriter :=
  if w.pending.length = 0 then w
  else { w with pending := [], logged := w.logged ++ [w.pending.length] }

/-- The body of the loop of `logWriter.Write`. -/
def writeByte (b : UInt8) : LogWriter :=
  if b = newline ∨ w.pending.length ≥ logLimit then w.emit
  else { w with pending := w.pending ++ [b] }

/-- `logWriter.Write`, with the number it returns. -/
def write (data : List UInt8) : LogWriter × ℕ := (data.foldl writeByte w, data.length)

/-- `logWriter.flush`. -/
def flush : LogWriter := w.emit

end LogWriter

/-- The sizes that are logged for a sequence of calls of `Write` followed by `flush`. -/
def counts (name : String) (writes : List (List UInt8)) : List ℕ :=
  (writes.foldl (fun w data => (w.write data).1) (newLogWriter name)).flush.logged

/-- The number of bytes that are not line ends. -/
def contentBytes (data : List UInt8) : ℕ := data.countP (· != newline)

/-- No line is longer than the buffer. -/
def ShortLines (data : List UInt8) : Prop :=
  ∀ line, line <:+: data → newline ∉ line → line.length ≤ logLimit

/-! ## What one byte does -/

namespace LogWriter

variable {w : LogWriter} {b : UInt8} {data : List UInt8}

/-- The bytes that are logged or collected. -/
def account (w : LogWriter) : ℕ := w.logged.sum + w.pending.length

/-- What the writer has logged, and what it collects, keeps to the limit. -/
structure Tidy (w : LogWriter) : Prop where
  pending : w.pending.length ≤ logLimit
  logged : ∀ size ∈ w.logged, 1 ≤ size ∧ size ≤ logLimit

theorem account_emit (w : LogWriter) : w.emit.account = w.account := by
  unfold emit account
  split
  · rfl
  · simp

theorem emit_pending (w : LogWriter) : w.emit.pending = [] := by
  unfold emit
  split
  next h => exact List.length_eq_zero_iff.mp h
  next => rfl

theorem Tidy.emit (h : w.Tidy) : w.emit.Tidy := by
  refine ⟨by simp [emit_pending], ?_⟩
  unfold LogWriter.emit
  split
  · exact h.logged
  next hne =>
    intro size hsize
    rcases List.mem_append.mp hsize with hold | hnew
    · exact h.logged size hold
    · rw [List.mem_singleton.mp hnew]
      exact ⟨Nat.pos_of_ne_zero hne, h.pending⟩

theorem Tidy.writeByte (h : w.Tidy) : (w.writeByte b).Tidy := by
  unfold LogWriter.writeByte
  split
  · exact h.emit
  next hroom =>
    rw [not_or, Nat.not_le] at hroom
    refine ⟨?_, h.logged⟩
    rw [List.length_append, List.length_singleton]
    exact hroom.2

theorem Tidy.foldl (h : w.Tidy) : (data.foldl LogWriter.writeByte w).Tidy := by
  induction data generalizing w with
  | nil => exact h
  | cons b data ih => exact ih h.writeByte

end LogWriter

/-! ## What a stream does -/

/-- With `room` bytes left in the buffer, every line fits. -/
def Fits (room : ℕ) : List UInt8 → Prop
  | [] => True
  | b :: data => if b = newline then Fits logLimit data else 0 < room ∧ Fits (room - 1) data

theorem contentBytes_cons (b : UInt8) (data : List UInt8) :
    contentBytes (b :: data) = contentBytes data + if b = newline then 0 else 1 := by
  rw [contentBytes, List.countP_cons, contentBytes]
  by_cases hb : b = newline <;> simp [hb]

namespace LogWriter

theorem account_foldl_le (w : LogWriter) (data : List UInt8) :
    (data.foldl writeByte w).account ≤ w.account + contentBytes data := by
  induction data generalizing w with
  | nil => exact Nat.le_refl _
  | cons b data ih =>
    have hrest := ih (w.writeByte b)
    have hstep : (w.writeByte b).account ≤ w.account + if b = newline then 0 else 1 := by
      unfold writeByte
      split
      · rw [account_emit]
        omega
      next hroom =>
        rw [not_or] at hroom
        simp [account, hroom.1, Nat.add_assoc]
    rw [List.foldl_cons, contentBytes_cons]
    omega

/-- Every byte is accounted for as long as the lines fit. -/
theorem account_foldl_eq_iff {w : LogWriter} (h : w.pending.length ≤ logLimit) (data : List UInt8) :
    (data.foldl writeByte w).account = w.account + contentBytes data ↔
      Fits (logLimit - w.pending.length) data := by
  induction data generalizing w with
  | nil => exact iff_of_true rfl trivial
  | cons b data ih =>
    rw [List.foldl_cons, contentBytes_cons, Fits]
    by_cases hb : b = newline
    · -- the end of a line empties the buffer
      have hstep : w.writeByte b = w.emit := if_pos (.inl hb)
      have hrest := ih (w := w.emit) (by simp [emit_pending])
      rw [emit_pending, account_emit] at hrest
      rw [hstep, if_pos hb, if_pos hb]
      exact hrest
    by_cases hfull : w.pending.length ≥ logLimit
    · -- the byte is lost, and nothing makes up for it
      have hstep : w.writeByte b = w.emit := if_pos (.inr hfull)
      have hrest := account_foldl_le w.emit data
      rw [account_emit] at hrest
      rw [hstep, if_neg hb, if_neg hb]
      exact iff_of_false (by omega) (by omega)
    · have hstep : w.writeByte b = { w with pending := w.pending ++ [b] } :=
        if_neg (not_or.mpr ⟨hb, hfull⟩)
      have hrest := ih (w := { w with pending := w.pending ++ [b] }) (by simp; omega)
      have haccount : account { w with pending := w.pending ++ [b] } = w.account + 1 := by
        simp [account, Nat.add_assoc]
      rw [haccount, List.length_append, List.length_singleton] at hrest
      rw [hstep, if_neg hb, if_neg hb, show w.account + (contentBytes data + 1) =
        w.account + 1 + contentBytes data by omega, hrest, Nat.sub_add_eq]
      exact ⟨fun hfits => ⟨by omega, hfits⟩, fun hfits => hfits.2⟩

end LogWriter

theorem fits_iff {room : ℕ} (hroom : room ≤ logLimit) (data : List UInt8) :
    Fits room data ↔ (∀ line, line <+: data → newline ∉ line → line.length ≤ room) ∧
      ShortLines data := by
  induction data generalizing room with
  | nil =>
    refine iff_of_true trivial ⟨fun line hline _ => ?_, fun line hline _ => ?_⟩
    · simp [List.prefix_nil.mp hline]
    · simp [List.infix_nil.mp hline]
  | cons b data ih =>
    rw [Fits]
    by_cases hb : b = newline
    · -- a line of the stream does not reach over its first byte
      have hnone : ∀ line, line <+: b :: data → newline ∉ line → line = [] := by
        intro line hline hclean
        rcases List.prefix_cons_iff.mp hline with hnil | ⟨rest, rfl, -⟩
        · exact hnil
        · exact absurd List.mem_cons_self (hb ▸ hclean)
      rw [if_pos hb, ih (Nat.le_refl _)]
      constructor
      · rintro ⟨-, hshort⟩
        refine ⟨fun line hline hclean => by simp [hnone line hline hclean], fun line hline hclean => ?_⟩
        rcases List.infix_cons_iff.mp hline with hstart | hlater
        · simp [hnone line hstart hclean]
        · exact hshort line hlater hclean
      · rintro ⟨-, hshort⟩
        have hrest : ShortLines data := fun line hline => hshort line (List.infix_cons hline)
        exact ⟨fun line hline => hrest line hline.isInfix, hrest⟩
    · rw [if_neg hb]
      constructor
      · rintro ⟨hpos, hfits⟩
        obtain ⟨hstarts, hshort⟩ := (ih (by omega)).mp hfits
        have hlines : ∀ line, line <+: b :: data → newline ∉ line → line.length ≤ room := by
          intro line hline hclean
          rcases List.prefix_cons_iff.mp hline with rfl | ⟨rest, rfl, hrest⟩
          · exact Nat.zero_le _
          · have hle := hstarts rest hrest fun hmem => hclean (List.mem_cons_of_mem _ hmem)
            rw [List.length_cons]
            omega
        refine ⟨hlines, fun line hline hclean => ?_⟩
        rcases List.infix_cons_iff.mp hline with hstart | hlater
        · exact Nat.le_trans (hlines line hstart hclean) hroom
        · exact hshort line hlater hclean
      · rintro ⟨hstarts, hshort⟩
        have hclean : ∀ line, newline ∉ line → newline ∉ b :: line := by
          intro line hline hmem
          exact (List.mem_cons.mp hmem).elim (fun heq => hb heq.symm) hline
        have hpos := hstarts [b] (List.prefix_append [b] data) (hclean [] List.not_mem_nil)
        refine ⟨hpos, (ih (by omega)).mpr ⟨fun line hline hfree => ?_, fun line hline => ?_⟩⟩
        · have hle := hstarts (b :: line) (List.cons_prefix_cons.mpr ⟨rfl, hline⟩) (hclean line hfree)
          rw [List.length_cons] at hle
          omega
        · exact hshort line (List.infix_cons hline)

/-! ## The result -/

/-- Several calls of `Write` do what one call with all their data does. -/
theorem foldl_write (w : LogWriter) (writes : List (List UInt8)) :
    writes.foldl (fun w data => (w.write data).1) w = writes.flatten.foldl LogWriter.writeByte w :=
  List.foldl_flatten.symm

theorem counts_eq (name : String) (writes : List (List UInt8)) :
    counts name writes = (writes.flatten.foldl LogWriter.writeByte (newLogWriter name)).emit.logged := by
  rw [counts, foldl_write]
  rfl

theorem tidy_new (name : String) : (newLogWriter name).Tidy := ⟨Nat.zero_le _, nofun⟩

/-- The counts add up to the bytes written exactly when no line is longer than the buffer. -/
theorem sum_counts_eq_iff (name : String) (writes : List (List UInt8)) :
    (counts name writes).sum = contentBytes writes.flatten ↔ ShortLines writes.flatten := by
  have hflushed : ∀ w : LogWriter, w.emit.logged.sum = w.account := by
    intro w
    rw [← w.account_emit, LogWriter.account, LogWriter.emit_pending]
    rfl
  have hfits := LogWriter.account_foldl_eq_iff (tidy_new name).pending writes.flatten
  rw [show (newLogWriter name).account = 0 from rfl, Nat.zero_add,
    show logLimit - (newLogWriter name).pending.length = logLimit from rfl,
    fits_iff (Nat.le_refl _)] at hfits
  rw [counts_eq, hflushed, hfits]
  exact ⟨fun h => h.2, fun h => ⟨fun line hline => h line hline.isInfix, h⟩⟩

/-- The counts that are logged depend on the data only and keep to the limit; they account for every
byte exactly when no line is longer than 8192 bytes. -/
theorem counts_account_iff (name : String) (writes : List (List UInt8)) :
    (∀ writes' : List (List UInt8), writes'.flatten = writes.flatten →
        counts name writes' = counts name writes) ∧
      (∀ size ∈ counts name writes, 1 ≤ size ∧ size ≤ 8192) ∧
      ((counts name writes).sum = contentBytes writes.flatten ↔ ShortLines writes.flatten) := by
  refine ⟨fun writes' hsame => ?_, fun size hsize => ?_, sum_counts_eq_iff name writes⟩
  · rw [counts_eq, counts_eq, hsame]
  · rw [counts_eq] at hsize
    exact (tidy_new name).foldl.emit.logged size hsize

/-- A line of one repeated byte is accounted for only when it fits the buffer. -/
theorem sum_counts_replicate_ne (name : String) {n : Nat} (h : logLimit < n) :
    (counts name [List.replicate n 97]).sum ≠ contentBytes [List.replicate n 97].flatten := by
  rw [Ne, sum_counts_eq_iff, List.flatten_singleton]
  intro hshort
  have hclean : newline ∉ List.replicate n (97 : UInt8) := by
    intro hmem
    exact absurd (List.eq_of_mem_replicate hmem) (by decide)
  have hle := hshort _ (List.infix_refl _) hclean
  rw [List.length_replicate] at hle
  omega

/-- The last byte of a line of 8193 bytes is not accounted for. -/
theorem longLine_counts :
    (counts "tor" [List.replicate 8193 97]).sum ≠ contentBytes [List.replicate 8193 97].flatten :=
  sum_counts_replicate_ne "tor" (by decide)

end Torkitten.Supervisor
