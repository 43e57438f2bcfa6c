/-
What a progress bar hears. A bar of `n` iterations is opened once, moved on by whole blocks and once by
what is left, and closed once. No block is told at the iteration that opens the bar, and the block before
what is left is never told: so the moves of every bar add up to the total less one block, and no bar
reaches its total.
-/
import Chip8.Progress
import Mathlib.Algebra.Order.Ring.Int
import Mathlib.Tactic.SplitIfs

namespace Chip8.Progress

/-! ## Blocks of iterations -/

/-- The place of an iteration in the block that begins at `e`. -/
theorem emod_of_block {r e i : Int} (he : r ∣ e) (h1 : e ≤ i) (h2 : i < e + r) : i % r = i - e := by
  obtain ⟨q, rfl⟩ := he
  calc i % r = (i - r * q + r * q) % r := by rw [Int.sub_add_cancel]
    _ = (i - r * q) % r := Int.add_mul_emod_self_left ..
    _ = i - r * q := Int.emod_eq_of_lt (by omega) (by omega)

theorem emod_succ {r : Int} (hr : 0 < r) (i : Int) : (i + 1) % r = if i % r + 1 = r then 0 else i % r + 1 := by
  have hblock : r ∣ i - i % r := Int.dvd_self_sub_emod
  have h0 := Int.emod_nonneg i (Int.ne_of_gt hr)
  have h1 := Int.emod_lt_of_pos i hr
  split
  · have hnext := emod_of_block (i := i + 1) (Int.dvd_add hblock (Int.dvd_refl r)) (by omega) (by omega)
    omega
  · have hsame := emod_of_block (i := i + 1) hblock (by omega) (by omega)
    omega

namespace Bar

/-- The bar has at least one block, and its blocks have at least one iteration. -/
structure Proper (b : Bar) : Prop where
  one_le : 1 ≤ b.rate
  le : b.rate ≤ b.total

theorem plan_proper {n : Int} (hn : 1 ≤ n) (rate : Option Int) (title : Datum) (options : List (String × Datum)) :
    (Bar.plan n rate title options).Proper := by
  cases rate with
  | none => exact ⟨by simp only [plan, rateFor]; omega, by simp only [plan, rateFor]; omega⟩
  | some r => exact ⟨by simp only [plan, rateFor]; omega, by simp only [plan, rateFor]; omega⟩

/-- By how much the bar is moved on before iteration `i`. -/
def moves (b : Bar) (i : Int) : List Int :=
  (if i % b.rate = 0 ∧ i ≠ b.total - b.remainder ∧ 0 < i then [b.rate] else []) ++
  (if i = b.total - b.remainder then [b.remainder] else [])

theorem before_eq (b : Bar) (i : Int) :
    b.before i = (if i = 0 then [.opened b.total b.title b.options] else []) ++ (b.moves i).map .advanced := by
  unfold before moves
  rw [List.map_append, List.append_assoc]
  split_ifs <;> rfl

/-- How far the bar is when iteration `i` begins. -/
def reached (b : Bar) (i : Int) : Int :=
  if b.remainder ≠ 0 ∧ b.total - b.remainder ≤ i then b.total - b.rate else i - i % b.rate

variable {b : Bar}

theorem Proper.remainder_bounds (h : b.Proper) : 0 ≤ b.remainder ∧ b.remainder < b.rate := by
  have hr : 0 < b.rate := Int.lt_of_lt_of_le (by decide) h.one_le
  exact ⟨Int.emod_nonneg _ (Int.ne_of_gt hr), Int.emod_lt_of_pos _ hr⟩

theorem dvd_total_sub_remainder (b : Bar) : b.rate ∣ b.total - b.remainder := Int.dvd_self_sub_emod

theorem Proper.moves_zero (h : b.Proper) : b.moves 0 = [] := by
  obtain ⟨h0, h1⟩ := h.remainder_bounds
  have hle := h.le
  unfold moves
  rw [if_neg (by omega), if_neg (by omega)]
  rfl

theorem Proper.reached_zero (h : b.Proper) : b.reached 0 = 0 := by
  obtain ⟨h0, h1⟩ := h.remainder_bounds
  have hle := h.le
  unfold reached
  rw [if_neg (by omega), Int.zero_emod]
  rfl

theorem sum_moves (b : Bar) (i : Int) :
    (b.moves i).sum = (if i % b.rate = 0 ∧ i ≠ b.total - b.remainder ∧ 0 < i then b.rate else 0) +
      (if i = b.total - b.remainder then b.remainder else 0) := by
  unfold moves
  rw [List.sum_append]
  split_ifs <;> simp

/-- The moves of an iteration lead from where the bar was to where it is. -/
theorem Proper.reached_succ (h : b.Proper) {i : Int} (hi : 0 ≤ i) (hn : i + 1 < b.total) :
    b.reached (i + 1) = b.reached i + (b.moves (i + 1)).sum := by
  have hr : 0 < b.rate := Int.lt_of_lt_of_le (by decide) h.one_le
  have hmod := emod_succ hr i
  obtain ⟨h0, h1⟩ := h.remainder_bounds
  have hi0 := Int.emod_nonneg i (Int.ne_of_gt hr)
  have hi1 := Int.emod_lt_of_pos i hr
  rw [sum_moves]
  unfold reached
  rcases Int.lt_trichotomy (i + 1) (b.total - b.remainder) with hlt | heq | hgt
  · -- among the whole blocks, a move is made where one is complete
    rw [if_neg (by omega), if_neg (by omega), if_neg (by omega : ¬ i + 1 = b.total - b.remainder)]
    by_cases hz : (i + 1) % b.rate = 0
    · rw [if_pos ⟨hz, by omega, by omega⟩]
      split at hmod <;> omega
    · rw [if_neg fun hc => hz hc.1]
      split at hmod <;> omega
  · -- the last block is complete, but the move is by what is left
    have hz : (i + 1) % b.rate = 0 := Int.emod_eq_zero_of_dvd (heq ▸ b.dvd_total_sub_remainder)
    rw [if_pos ⟨by omega, by omega⟩, if_neg (by omega), if_neg fun hc => hc.2.1 heq, if_pos heq]
    split at hmod <;> omega
  · -- no block is completed by what is left
    have hz : (i + 1) % b.rate = i + 1 - (b.total - b.remainder) :=
      emod_of_block b.dvd_total_sub_remainder (by omega) (by omega)
    rw [if_pos ⟨by omega, by omega⟩, if_pos ⟨by omega, by omega⟩, if_neg (by omega), if_neg (by omega)]
    omega

theorem Proper.reached_last (h : b.Proper) : b.reached (b.total - 1) = b.total - b.rate := by
  have hr : 0 < b.rate := Int.lt_of_lt_of_le (by decide) h.one_le
  have hmod := emod_succ hr (b.total - 1)
  obtain ⟨h0, h1⟩ := h.remainder_bounds
  rw [Int.sub_add_cancel] at hmod
  unfold reached
  by_cases hrem : b.remainder = 0
  · -- the last block is not complete before the iteration that never comes
    rw [if_neg fun hc => hc.1 hrem]
    have hz : b.total % b.rate = 0 := hrem
    have hpos := Int.emod_nonneg (b.total - 1) (Int.ne_of_gt hr)
    split at hmod <;> omega
  · rw [if_pos ⟨hrem, by omega⟩]

/-! ## All that is told -/

theorem told_append (b : Bar) (is js : List Int) : b.told (is ++ js) = b.told is ++ b.told js :=
  List.flatMap_append

theorem told_singleton (b : Bar) (i : Int) : b.told [i] = b.before i ++ b.after i := by
  simp [told]

/-- By how much the bar is moved on over the given iterations. -/
def movesOver (b : Bar) (iterations : List Int) : List Int := iterations.flatMap b.moves

theorem movesOver_append (b : Bar) (is js : List Int) : b.movesOver (is ++ js) = b.movesOver is ++ b.movesOver js :=
  List.flatMap_append

theorem movesOver_singleton (b : Bar) (i : Int) : b.movesOver [i] = b.moves i := by
  simp [movesOver]

theorem iterations_succ (m : Nat) : iterations (m + 1 : Nat) = iterations m ++ [(m : Int)] := by
  simp only [iterations, Int.toNat_natCast]
  rw [List.range_succ, List.map_append]
  rfl

theorem Proper.sum_movesOver (h : b.Proper) {m : Nat} (hm : (m : Int) < b.total) :
    (b.movesOver (iterations (m + 1 : Nat))).sum = b.reached m := by
  induction m with
  | zero =>
    -- the iteration that opens the bar makes no move
    rw [iterations_succ, movesOver_append, movesOver_singleton, Int.natCast_zero, h.moves_zero, h.reached_zero]
    rfl
  | succ m ih =>
    rw [iterations_succ, movesOver_append, movesOver_singleton, List.sum_append, ih (by omega), Int.natCast_succ,
      h.reached_succ (by omega) (by omega)]

/-- Up to any iteration the bar hears of its opening, of its moves, and, after the last one, of its closing. -/
theorem Proper.told_iterations (h : b.Proper) {m : Nat} (hm : (m : Int) < b.total) :
    b.told (iterations (m + 1 : Nat)) =
      .opened b.total b.title b.options :: (b.movesOver (iterations (m + 1 : Nat))).map .advanced ++ b.after m := by
  induction m with
  | zero =>
    rw [iterations_succ, told_append, movesOver_append, told_singleton, movesOver_singleton, before_eq,
      Int.natCast_zero, h.moves_zero]
    rfl
  | succ m ih =>
    have hopen : b.after m = [] := by
      unfold after
      rw [if_neg (by omega)]
    have hbefore : b.before (m + 1 : Nat) = (b.moves (m + 1 : Nat)).map .advanced := by
      rw [before_eq, if_neg (by omega), List.nil_append]
    rw [iterations_succ, told_append, ih (by omega), hopen, told_singleton, hbefore, movesOver_append,
      movesOver_singleton, List.map_append]
    simp

theorem Proper.exists_last (h : b.Proper) : ∃ m : Nat, b.total = (m + 1 : Nat) ∧ (m : Int) = b.total - 1 := by
  have hone := h.one_le
  have hle := h.le
  exact ⟨(b.total - 1).toNat, by omega, by omega⟩

theorem Proper.told_all (h : b.Proper) :
    b.told (iterations b.total) =
      .opened b.total b.title b.options :: (b.movesOver (iterations b.total)).map .advanced ++ [.closed] := by
  obtain ⟨m, htotal, hlast⟩ := h.exists_last
  have hclose : b.after m = [.closed] := if_pos hlast
  have htold := h.told_iterations (m := m) (by omega)
  rwa [hclose, ← htotal] at htold

theorem Proper.sum_all (h : b.Proper) : (b.movesOver (iterations b.total)).sum = b.total - b.rate := by
  obtain ⟨m, htotal, hlast⟩ := h.exists_last
  have hsum := h.sum_movesOver (m := m) (by omega)
  rwa [hlast, h.reached_last, ← htotal] at hsum

/-- No move is by more than a block. -/
theorem Proper.mem_moves (h : b.Proper) {i k : Int} (hi : i < b.total) (hk : k ∈ b.moves i) :
    0 < k ∧ k ≤ b.rate := by
  obtain ⟨h0, h1⟩ := h.remainder_bounds
  have hone := h.one_le
  unfold moves at hk
  rcases List.mem_append.1 hk with hk | hk
  · split at hk
    · obtain rfl := List.mem_singleton.1 hk
      omega
    · cases hk
  · split at hk
    · obtain rfl := List.mem_singleton.1 hk
      omega
    · cases hk

theorem mem_iterations {n i : Int} : i ∈ iterations n ↔ 0 ≤ i ∧ i < n := by
  unfold iterations
  rw [List.mem_map]
  constructor
  · rintro ⟨j, hj, rfl⟩
    have hlt := List.mem_range.1 hj
    simp only [Int.ofNat_eq_natCast]
    omega
  · rintro ⟨h0, hn⟩
    exact ⟨i.toNat, List.mem_range.2 (by omega), Int.toNat_of_nonneg h0⟩

theorem Proper.mem_movesOver (h : b.Proper) {k : Int} (hk : k ∈ b.movesOver (iterations b.total)) :
    0 < k ∧ k ≤ b.rate := by
  obtain ⟨i, hi, hk⟩ := List.mem_flatMap.1 hk
  exact h.mem_moves (mem_iterations.1 hi).2 hk

end Bar

/-! ## What is heard -/

theorem heard_of_opened {total : Int} {title : Datum} {options : List (String × Datum)} {es : List Event}
    (h : ∀ e ∈ Event.opened total title options :: es, e.refusal? = none) :
    heard (.opened total title options :: es) = .ok (.opened total title options :: es) := by
  unfold heard
  rw [List.findSome?_eq_none_iff.2 h]
  rfl

theorem refusal?_advanced (k : Int) :
    (Event.advanced k).refusal? = if fits32 k then none else some .integerTooWide := by
  simp only [Event.refusal?, narrow]
  cases fits32 k <;> rfl

theorem refusal?_opened {total : Int} {title : Datum} {options : List (String × Datum)}
    (h : ∀ o ∈ options, o.1 ≠ Event.unitOption) : (Event.opened total title options).refusal? = none := by
  have hany : (options.any fun o => o.1 == Event.unitOption) = false := by simpa using h
  simp [Event.refusal?, hany]

/-- A bar that may decide its options itself hears all that is told, if all of its moves fit 32 bits. -/
theorem Bar.Proper.heard_told {b : Bar} (h : b.Proper) (ho : ∀ o ∈ b.options, o.1 ≠ Event.unitOption)
    (hk : ∀ k ∈ b.movesOver (iterations b.total), fits32 k = true) :
    heard (b.told (iterations b.total)) = .ok (b.told (iterations b.total)) := by
  rw [h.told_all]
  refine heard_of_opened fun e he => ?_
  rcases List.mem_cons.1 he with rfl | he
  · exact refusal?_opened ho
  · rcases List.mem_append.1 he with he | he
    · obtain ⟨k, hmem, rfl⟩ := List.mem_map.1 he
      rw [refusal?_advanced, if_pos (hk k hmem)]
    · obtain rfl := List.mem_singleton.1 he
      rfl

/-- The moves of a bar whose rate fits 32 bits fit them too. -/
theorem Bar.Proper.fits32_of_mem {b : Bar} (h : b.Proper) (hrate : b.rate < 0x80000000) {k : Int}
    (hk : k ∈ b.movesOver (iterations b.total)) : fits32 k = true := by
  have hbounds := h.mem_movesOver hk
  exact fits32_iff.2 (by omega)

theorem Bar.Proper.heard_all {b : Bar} (h : b.Proper) (hfits : fits32 b.total = true)
    (ho : ∀ o ∈ b.options, o.1 ≠ Event.unitOption) :
    heard (b.told (iterations b.total)) = .ok (b.told (iterations b.total)) := by
  have hrate : b.rate < 0x80000000 := Int.lt_of_le_of_lt h.le (fits32_iff.1 hfits).2
  exact h.heard_told ho fun k hk => h.fits32_of_mem hrate hk

theorem Bar.tell_eq {σ α : Type} (b : Bar) (number : α → Int) (body : σ → α → σ) (s : σ) (items : List α) :
    b.tell number body s items = (items.foldl body s, b.told (items.map number)) := by
  induction items generalizing s with
  | nil => rfl
  | cons item items ih =>
    simp only [Bar.tell, ih]
    rfl

/-- A loop beside a bar goes as it would go alone. -/
theorem Bar.loop_items {σ α : Type} (b : Bar) (number : α → Int) (body : σ → α → σ) (s : σ) (items : List α)
    (decision : Decision) :
    b.loop number body s items decision =
      (b.events (items.map number) decision).map fun es => (items.foldl body s, es) := by
  unfold Bar.loop Bar.events
  rw [Bar.tell_eq]
  cases b.prepare decision (items.map number) with
  | error e => rfl
  | ok _ => cases h : heard (b.told (items.map number)) <;> simp only [bind, Except.bind, h] <;> rfl

theorem Bar.loop_eq {σ : Type} (b : Bar) (body : σ → Int → σ) (s : σ) (is : List Int) (decision : Decision) :
    b.loop (fun i => i) body s is decision = (b.events is decision).map fun es => (is.foldl body s, es) := by
  rw [Bar.loop_items, List.map_id']

/-- A bar of at least one iteration, of whatever rate, hears of moves that add up to its total less one
block. That is all it hears between its opening and its closing; and it hears all of it beside any loop,
which it leaves alone, if its numbers fit 32 bits and it may decide its options itself. -/
theorem bar_ends_one_block_short {n : Int} (hn : 1 ≤ n) (rate : Option Int) (title : Datum)
    (options : List (String × Datum)) :
    let b := Bar.plan n rate title options
    (∃ moves : List Int,
      b.told (iterations n) = .opened n b.title b.options :: moves.map .advanced ++ [.closed] ∧
      moves.sum = n - b.rate ∧ 1 ≤ b.rate) ∧
    (fits32 n = true → (∀ o ∈ b.options, o.1 ≠ Event.unitOption) →
      b.events (iterations n) = .ok (b.told (iterations n)) ∧
      ∀ (σ : Type) (body : σ → Int → σ) (s : σ),
        b.loop (fun i => i) body s (iterations n) = .ok ((iterations n).foldl body s, b.told (iterations n))) := by
  intro b
  have hb : b.Proper := Bar.plan_proper hn rate title options
  refine ⟨⟨b.movesOver (iterations n), hb.told_all, hb.sum_all, hb.one_le⟩, fun hfits hoptions => ?_⟩
  have hevents : b.events (iterations n) = .ok (b.told (iterations n)) := hb.heard_all hfits hoptions
  refine ⟨hevents, fun σ body s => ?_⟩
  rw [Bar.loop_eq, hevents]
  rfl

/-- A bar of five iterations in blocks of two hears of 2 and 1. -/
theorem bar_ends_one_block_short_at_five :
    ∃ moves : List Int,
      (Bar.plan 5 (some 2) .null []).told (iterations 5) =
        .opened 5 (.text (defaultTitle 5)) [] :: moves.map .advanced ++ [.closed] ∧ moves.sum = 3 := by
  obtain ⟨⟨moves, htold, hsum, -⟩, -⟩ := bar_ends_one_block_short (n := 5) (by decide) (some 2) .null []
  exact ⟨moves, htold, hsum⟩

/-- A bar of a single iteration is closed as it was opened. -/
theorem bar_misses_total :
    ¬ ∀ (n : Int) (rate : Option Int) (moves : List Int), 1 ≤ n →
      (Bar.plan n rate .null []).told (iterations n) =
        .opened n (.text (defaultTitle n)) [] :: moves.map .advanced ++ [.closed] → moves.sum = n := by
  intro h
  have hone := h 1 none [] (by decide) rfl
  cases hone

end Chip8.Progress
