/-
How far a bar lags behind its run. Whatever the rate, a bar is opened once, before it is told anything else,
closed once, at the last iteration, and moved forward in between; and at no iteration has it been moved on by
more than the iterations that are completed. The loop beside the bar goes as it would go alone. Only a rate of 2^31
or more can end the run: at the first iteration, if amounts are made ready before it is decided what to tell, and
otherwise where the bar is to be told an amount that it cannot hear.
-/
import Chip8.Proofs.Progress

namespace Chip8.Progress

/-! ## Where a bar is -/

def Event.amount : Event → Int
  | advanced k => k
  | _ => 0

/-- By how much the events move a bar on. -/
def moved (es : List Event) : Int := (es.map Event.amount).sum

theorem moved_append (es fs : List Event) : moved (es ++ fs) = moved es + moved fs := by
  simp [moved]

theorem moved_advanced (ks : List Int) : moved (ks.map .advanced) = ks.sum := by
  unfold moved
  rw [List.map_map]
  exact congrArg List.sum (List.map_id ks)

namespace Bar

variable {b : Bar}

theorem moved_after (b : Bar) (i : Int) : moved (b.after i) = 0 := by
  unfold after
  split_ifs <;> rfl

theorem Proper.moved_told (h : b.Proper) {m : Nat} (hm : (m : Int) < b.total) :
    moved (b.told (iterations (m + 1 : Nat))) = b.reached m := by
  have hopened (es : List Event) : moved (.opened b.total b.title b.options :: es) = moved es := by
    simp [moved, Event.amount]
  rw [h.told_iterations hm, moved_append, moved_after, hopened, moved_advanced, h.sum_movesOver hm, Int.add_zero]

/-- A bar is not ahead of its run: what is left of the blocks is less than the block it stands for. -/
theorem Proper.reached_le (h : b.Proper) (i : Int) : b.reached i ≤ i := by
  obtain ⟨h0, h1⟩ := h.remainder_bounds
  have hr : 0 < b.rate := Int.lt_of_lt_of_le (by decide) h.one_le
  have hmod := Int.emod_nonneg i (Int.ne_of_gt hr)
  unfold reached
  split <;> omega

/-- No iteration but the last closes the bar. -/
theorem closed_mem_told (b : Bar) (i : Int) : .closed ∈ b.told [i] ↔ i = b.total - 1 := by
  rw [told_singleton, before_eq, after]
  split_ifs with hfirst hlast <;> simp_all

/-! ## Moves that cannot be told -/

/-- A move too long for 32 bits is the first thing that a bar refuses, since nothing else is refused. -/
theorem Proper.heard_of_wide (h : b.Proper) (ho : ∀ o ∈ b.options, o.1 ≠ Event.unitOption) {k : Int}
    (hk : k ∈ b.movesOver (iterations b.total)) (hwide : fits32 k = false) :
    heard (b.told (iterations b.total)) = .error .integerTooWide := by
  have hrefused : (Event.advanced k).refusal? = some .integerTooWide := by
    rw [refusal?_advanced, hwide]
    rfl
  have htold : .advanced k ∈ b.told (iterations b.total) := by
    rw [h.told_all]
    exact List.mem_append_left _ (List.mem_cons_of_mem _ (List.mem_map_of_mem hk))
  unfold heard
  cases hfirst : (b.told (iterations b.total)).findSome? Event.refusal? with
  | none => exact absurd (List.findSome?_eq_none_iff.1 hfirst _ htold) (by rw [hrefused]; nofun)
  | some e =>
    obtain ⟨event, hevent, he⟩ := List.exists_of_findSome?_eq_some hfirst
    rw [h.told_all] at hevent
    cases event with
    | opened total title options =>
      obtain ⟨rfl, rfl, rfl⟩ : b.total = total ∧ b.title = title ∧ b.options = options := by
        simpa [eq_comm] using hevent
      rw [refusal?_opened ho] at he
      cases he
    | advanced j =>
      rw [refusal?_advanced] at he
      split_ifs at he
      cases he
      rfl
    | closed => cases he

theorem Proper.events_direct (h : b.Proper) (ho : ∀ o ∈ b.options, o.1 ≠ Event.unitOption) :
    b.events (iterations b.total) .direct =
      if ∀ k ∈ b.movesOver (iterations b.total), fits32 k = true then .ok (b.told (iterations b.total))
      else .error .integerTooWide := by
  split_ifs with hfits
  · exact h.heard_told ho hfits
  · push Not at hfits
    obtain ⟨k, hk, hwide⟩ := hfits
    exact h.heard_of_wide ho hk (by simpa using hwide)

/-! ## Amounts that are made ready -/

/-- A rate that is too long for 32 bits is asked for, and the run is so long that the rate is not cut to it. -/
def Wide (total : Int) (rate : Option Int) : Prop := 0x80000000 ≤ total ∧ ∃ r ∈ rate, 0x80000000 ≤ r

theorem wide_iff {n : Int} {rate : Option Int} {title : Datum} {options : List (String × Datum)} :
    Wide n rate ↔ 0x80000000 ≤ (Bar.plan n rate title options).rate := by
  unfold Wide plan
  cases rate with
  | none =>
    simp only [Option.mem_def, reduceCtorEq, false_and, exists_false, and_false, false_iff, rateFor]
    omega
  | some r =>
    simp only [Option.mem_some_iff, exists_eq_left', rateFor]
    omega

/-- A rate that fits 32 bits is ready to be told, and so is what is left of the blocks. -/
theorem Proper.prepare_of_fits (h : b.Proper) (hrate : b.rate < 0x80000000) (decision : Decision) (is : List Int) :
    b.prepare decision is = .ok () := by
  obtain ⟨h0, h1⟩ := h.remainder_bounds
  have hone := h.one_le
  have hblock : narrow b.rate = .ok b.rate := narrow_of_fits (by omega)
  have hrest : narrow b.remainder = .ok b.remainder := narrow_of_fits (by omega)
  cases decision with
  | direct => rfl
  | prepared =>
    cases is with
    | nil => rfl
    | cons i is =>
      simp only [prepare, hblock, hrest]
      rfl

theorem prepare_of_wide (h : 0x80000000 ≤ b.rate) (i : Int) (is : List Int) :
    b.prepare .prepared (i :: is) = .error .integerTooWide := by
  have hwide : narrow b.rate = .error .integerTooWide := narrow_of_not_fits (by omega)
  simp only [prepare, hwide]
  rfl

theorem Proper.events_of_fits (h : b.Proper) (ho : ∀ o ∈ b.options, o.1 ≠ Event.unitOption)
    (hrate : b.rate < 0x80000000) (decision : Decision) :
    b.events (iterations b.total) decision = .ok (b.told (iterations b.total)) := by
  unfold events
  rw [h.prepare_of_fits hrate]
  exact h.heard_told ho fun k hk => h.fits32_of_mem hrate hk

/-- What a bar cannot hear ends the run, however it is decided what to tell. -/
theorem exists_error_of_heard {is : List Int} {e : Error} (h : heard (b.told is) = .error e) (decision : Decision) :
    ∃ e', b.events is decision = .error e' := by
  unfold events
  cases b.prepare decision is with
  | error e' => exact ⟨e', rfl⟩
  | ok _ => exact ⟨e, h⟩

theorem events_of_wide (h : 0x80000000 ≤ b.rate) (i : Int) (is : List Int) :
    b.events (i :: is) .prepared = .error .integerTooWide := by
  unfold events
  rw [prepare_of_wide h]
  rfl

end Bar

/-- Let a bar of at least one iteration have any rate, and let it decide its options itself. What it is told over
all iterations is one opening, with the total, then moves forward, and then one closing, which comes at the last
iteration and no other; and with the events of any iteration it has been moved on by no more than the iterations
completed before. It hears all of this, and the loop beside it ends as it would end alone, unless a rate of 2^31 or
more is asked for, and for as long a run. Such a rate ends the run at its first iteration if amounts are made
ready before it is decided what to tell; and if they are not, the run ends with an error if a move does not fit
32 bits, and the bar hears everything if all moves do. -/
theorem bar_never_ahead {n : Int} (hn : 1 ≤ n) (rate : Option Int) (title : Datum) {options : List (String × Datum)}
    (ho : ∀ o ∈ options, o.1 ≠ Event.unitOption) :
    let b := Bar.plan n rate title options
    ∃ moves : List Int,
      b.told (iterations n) = .opened n b.title b.options :: moves.map .advanced ++ [.closed] ∧
      (∀ k ∈ moves, 0 < k) ∧
      (∀ i, .closed ∈ b.told [i] ↔ i = n - 1) ∧
      (∀ i : Nat, (i : Int) < n → moved (b.told (iterations (i + 1 : Nat))) ≤ i) ∧
      (¬ Bar.Wide n rate → ∀ decision,
        b.events (iterations n) decision = .ok (b.told (iterations n)) ∧
        ∀ {σ α : Type} (number : α → Int) (body : σ → α → σ) (s : σ) (items : List α),
          items.map number = iterations n →
          b.loop number body s items decision = .ok (items.foldl body s, b.told (iterations n))) ∧
      (Bar.Wide n rate →
        (∀ i is, b.events (i :: is) .prepared = .error .integerTooWide) ∧
        (∀ {σ α : Type} (number : α → Int) (body : σ → α → σ) (s : σ) (item : α) (items : List α),
          b.loop number body s (item :: items) .prepared = .error .integerTooWide) ∧
        b.events (iterations n) .direct =
          if ∀ k ∈ moves, fits32 k = true then .ok (b.told (iterations n)) else .error .integerTooWide) := by
  intro b
  have hb : b.Proper := Bar.plan_proper hn rate title options
  have hoptions : ∀ o ∈ b.options, o.1 ≠ Event.unitOption := fun o hmem => ho o (List.mem_filter.1 hmem).1
  have hwide : Bar.Wide n rate ↔ 0x80000000 ≤ b.rate := Bar.wide_iff
  refine ⟨b.movesOver (iterations n), hb.told_all, fun k hk => (hb.mem_movesOver hk).1, b.closed_mem_told,
    fun i hi => ?_, fun hrate decision => ?_, fun hrate => ?_⟩
  · rw [hb.moved_told hi]
    exact hb.reached_le i
  · have hevents : b.events (iterations n) decision = .ok (b.told (iterations n)) :=
      hb.events_of_fits hoptions (Int.not_le.1 (mt hwide.2 hrate)) decision
    refine ⟨hevents, fun number body s items hitems => ?_⟩
    rw [b.loop_items, hitems, hevents]
    rfl
  · have hfirst := Bar.events_of_wide (hwide.1 hrate)
    refine ⟨hfirst, fun number body s item items => ?_, hb.events_direct hoptions⟩
    rw [b.loop_items, List.map_cons, hfirst]
    rfl

-- A block of 2^33 iterations is told at neither of these iterations, but it has to be ready at the first of them.
example :
    let b := Bar.plan 0x200000005 (some 0x200000000) .null []
    b.events [0, 0x200000004] .direct = .ok [.opened 0x200000005 (.text (defaultTitle 0x200000005)) [], .closed] ∧
      b.events [0, 0x200000004] .prepared = .error .integerTooWide := ⟨rfl, rfl⟩

/-- Seven iterations in blocks of three: the bar hears of one block, of the one iteration that is left after the
second, and no more, and the seven are counted. -/
theorem bar_never_ahead_at_seven :
    (Bar.plan 7 (some 3) .null []).loop (fun i => i) (fun (count : Nat) _ => count + 1) 0 (iterations 7) .prepared =
      .ok (7, [.opened 7 (.text (defaultTitle 7)) [], .advanced 3, .advanced 1, .closed]) := by
  have hoptions : ∀ o ∈ ([] : List (String × Datum)), o.1 ≠ Event.unitOption := by simp
  have hfits : ¬ Bar.Wide 7 (some 3) := fun h => absurd h.1 (by decide)
  obtain ⟨moves, -, -, -, -, hheard, -⟩ := bar_never_ahead (n := 7) (by decide) (some 3) .null hoptions
  rw [(hheard hfits .prepared).2 (fun i => i) _ 0 (iterations 7) (List.map_id' _)]
  rfl

/-- A block of more than 2^31 iterations is left after the first block, and no bar hears of it. -/
theorem wide_move_ends_run :
    ¬ ∃ decision, ∀ (n : Int) (rate : Option Int), 1 ≤ n → ∃ moves : List Int,
      (Bar.plan n rate .null []).events (iterations n) decision =
        .ok (.opened n (.text (defaultTitle n)) [] :: moves.map .advanced ++ [.closed]) := by
  rintro ⟨decision, h⟩
  obtain ⟨moves, hheard⟩ := h 6442450944 (some 4294967295) (by decide)
  have hb := Bar.plan_proper (n := 6442450944) (by decide) (some 4294967295) .null []
  have hmove : (2147483649 : Int) ∈ (Bar.plan 6442450944 (some 4294967295) .null []).moves 4294967295 := by decide
  have hwide := hb.heard_of_wide (k := 2147483649) (by simp [Bar.plan])
    (List.mem_flatMap.2 ⟨4294967295, Bar.mem_iterations.2 (by decide), hmove⟩) (by decide)
  obtain ⟨e, he⟩ := Bar.exists_error_of_heard hwide decision
  cases he.symm.trans hheard

end Chip8.Progress
