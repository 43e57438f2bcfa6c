/-
The table of a state, taken apart again. Lines that contain no line end, joined by feeds, are split into
themselves, unless the last of them is empty. The lines of the table are of this kind, so that the log prints
just as many lines as there are in the table.
-/
import Chip8.Dump
import Chip8.Text.Lines

namespace Chip8

/-! ## Joining and splitting -/

namespace Lines

/-- The text lies within one line. -/
def Unbroken (s : String) : Prop := s.toList.any isEnd = false

instance (s : String) : Decidable (Unbroken s) := inferInstanceAs (Decidable (s.toList.any isEnd = false))

theorem unbroken_iff {s : String} : Unbroken s ↔ ∀ c ∈ s.toList, isEnd c = false := by
  simp [Unbroken]

@[simp] theorem unbroken_append {s t : String} : Unbroken (s ++ t) ↔ Unbroken s ∧ Unbroken t := by
  simp [Unbroken]

theorem unbroken_ofList {cs : List Char} (h : ∀ c ∈ cs, isEnd c = false) : Unbroken (String.ofList cs) := by
  rwa [unbroken_iff, String.toList_ofList]

theorem unbroken_intercalate {sep : String} (hsep : Unbroken sep) {ts : List String} (h : ∀ t ∈ ts, Unbroken t) :
    Unbroken (sep.intercalate ts) := by
  refine unbroken_iff.2 fun c hc => ?_
  rw [String.toList_intercalate] at hc
  induction ts with
  | nil => simp at hc
  | cons t ts ih =>
    obtain ⟨ht, hts⟩ := List.forall_mem_cons.1 h
    cases ts with
    | nil => exact unbroken_iff.1 ht c (by simpa using hc)
    | cons u us =>
      rw [List.map_cons, List.map_cons, List.intercalate_cons_cons, List.mem_append, List.mem_append] at hc
      rcases hc with (hc | hc) | hc
      · exact unbroken_iff.1 ht c hc
      · exact unbroken_iff.1 hsep c hc
      · exact ih hts hc

theorem splitFrom_cons {c : Char} (h : isEnd c = false) (line r : List Char) :
    splitFrom line (c :: r) = splitFrom (c :: line) r := by
  have hc : c ≠ '\r' := by
    rintro rfl
    exact absurd h (by decide)
  cases r with
  | nil => simp [splitFrom, h]
  | cons d r => simp [splitFrom, h, hc]

theorem splitFrom_append {cs : List Char} (h : ∀ c ∈ cs, isEnd c = false) (line r : List Char) :
    splitFrom line (cs ++ r) = splitFrom (cs.reverse ++ line) r := by
  induction cs generalizing line with
  | nil => rfl
  | cons c cs ih =>
    obtain ⟨hc, hcs⟩ := List.forall_mem_cons.1 h
    rw [List.cons_append, splitFrom_cons hc, ih hcs, List.reverse_cons, List.append_assoc]
    rfl

theorem split_line {s : String} (h : Unbroken s) (r : List Char) :
    splitFrom [] (s.toList ++ '\n' :: r) = s.toList :: splitFrom [] r := by
  rw [splitFrom_append (unbroken_iff.1 h), List.append_nil]
  have hend : isEnd '\n' = true := by decide
  cases r <;> simp [splitFrom, hend]

theorem split_last {s : String} (h : Unbroken s) (hne : s ≠ "") : splitFrom [] s.toList = [s.toList] := by
  have happ := splitFrom_append (unbroken_iff.1 h) [] []
  rw [List.append_nil, List.append_nil] at happ
  rw [happ]
  simp [splitFrom, hne]

theorem split_intercalate {ls : List String} (h : ∀ l ∈ ls, Unbroken l) (hlast : ∀ l ∈ ls.getLast?, l ≠ "") :
    split ("\n".intercalate ls) = ls := by
  have hsplit : splitFrom [] ("\n".intercalate ls).toList = ls.map String.toList := by
    rw [String.toList_intercalate]
    induction ls with
    | nil => rfl
    | cons l ls ih =>
      obtain ⟨hl, hls⟩ := List.forall_mem_cons.1 h
      cases ls with
      | nil => simpa using split_last hl (hlast l rfl)
      | cons k ks =>
        have hrest := ih hls (by simpa [List.getLast?_cons_cons] using hlast)
        rw [List.map_cons, List.map_cons, List.intercalate_cons_cons, List.append_assoc]
        rw [List.map_cons] at hrest
        exact (split_line hl _).trans (congrArg _ hrest)
  rw [split, hsplit, List.map_map]
  simp

end Lines

/-! ## Numerals -/

open Lines

theorem Hex.exists_digit_of_mem {width n : Nat} {c : Char} (h : c ∈ digits width n) : ∃ d < 16, c = digit d := by
  induction width, n using digits.induct with
  | case1 width n hn =>
    rw [digits, if_pos hn] at h
    rcases List.mem_append.1 h with h | h
    · exact ⟨0, by decide, List.eq_of_mem_replicate h⟩
    · exact ⟨n, hn, List.mem_singleton.1 h⟩
  | case2 width n hn ih =>
    rw [digits, if_neg hn] at h
    rcases List.mem_append.1 h with h | h
    · exact ih h
    · exact ⟨n % 16, by omega, List.mem_singleton.1 h⟩

@[simp] theorem Hex.unbroken_ofNat (width n : Nat) : Unbroken (ofNat width n) := by
  refine unbroken_ofList fun c hc => ?_
  obtain ⟨d, hd, rfl⟩ := exists_digit_of_mem hc
  exact (by decide : ∀ d < 16, isEnd (digit d) = false) d hd

theorem isEnd_of_isDigit {c : Char} (h : c.isDigit = true) : isEnd c = false := by
  refine Bool.eq_false_iff.2 fun hend => ?_
  have hno := List.all_eq_true.1 (by decide : List.all _ (fun e => !e.isDigit) = true) c (List.contains_iff_mem.1 hend)
  rw [h] at hno
  cases hno

@[simp] theorem unbroken_repr (n : Nat) : Unbroken n.repr := by
  refine unbroken_iff.2 fun c hc => ?_
  rw [Nat.toList_repr] at hc
  exact isEnd_of_isDigit (Nat.isDigit_of_mem_toDigits (b := 10) (by decide) (by decide) hc)

/-! ## The table -/

namespace Snapshot

variable (s : Snapshot)

theorem unbroken_registerLine (k : Nat) : Unbroken (s.registerLine k) := by
  refine unbroken_intercalate (by decide) fun t ht => ?_
  obtain ⟨j, -, rfl⟩ := List.mem_map.1 ht
  simp +decide [registerText]

theorem unbroken_pointerLine : Unbroken s.pointerLine := by
  simp +decide [pointerLine]

theorem unbroken_stackLine : Unbroken s.stackLine := by
  have hentries : Unbroken (" ".intercalate (s.stack.map fun a => Hex.ofNat 3 a.toNat)) := by
    refine unbroken_intercalate (by decide) fun t ht => ?_
    obtain ⟨a, -, rfl⟩ := List.mem_map.1 ht
    exact Hex.unbroken_ofNat 3 a.toNat
  unfold stackLine
  split <;> simp +decide [hentries]

theorem unbroken_of_mem_lines {l : String} (h : l ∈ s.lines) : Unbroken l := by
  unfold lines at h
  rcases List.mem_append.1 h with h | h
  · rcases List.mem_append.1 h with h | h
    · obtain ⟨k, -, rfl⟩ := List.mem_map.1 h
      exact s.unbroken_registerLine k
    · rcases List.mem_cons.1 h with rfl | h
      · exact s.unbroken_pointerLine
      · rw [List.mem_singleton.1 h]
        exact s.unbroken_stackLine
  · split at h
    · rw [List.mem_singleton.1 h]
      simp +decide
    · cases h

theorem split_format : Lines.split s.format = s.lines := by
  refine split_intercalate (fun l hl => s.unbroken_of_mem_lines hl) fun l hl => ?_
  -- the last line is the one of the stack, or that of the key wait; both begin with a word
  unfold lines at hl
  split at hl
  · obtain rfl : _ = l := by simpa using hl
    simp
  · obtain rfl : _ = l := by simpa using hl
    simp [stackLine]

theorem length_lines : s.lines.length = if s.waiting then 7 else 6 := by
  unfold lines
  cases s.waiting <;> simp

end Snapshot

end Chip8
