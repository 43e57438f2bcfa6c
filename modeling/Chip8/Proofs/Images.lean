/-
What images stand for. Bytes stand for themselves and one byte so many times for a row of it; a list stands for
its items, each of which is the number of a byte; integers in a table stand for what they are modulo 256; and a
bare number stands for so many zeros. An image that can be read at all is read as what it stands for.
-/
import Chip8.Program
import Mathlib.Data.List.Forall2
import Mathlib.Tactic.SplitIfs

namespace Chip8

/-! ## Whole numbers -/

/-- The value is a whole number by its form, and which one. A truth value counts as 1 or 0. -/
inductive Datum.Counts : Datum → Int → Prop where
  | int (n : Int) : Counts (.int n) n
  | yes : Counts (.bool true) 1
  | no : Counts (.bool false) 0

theorem Datum.counts_iff {d : Datum} {n : Int} : d.Counts n ↔ d.int? = some n := by
  constructor
  · intro h
    cases h <;> rfl
  · intro h
    cases d with
    | int m =>
      obtain rfl : m = n := Option.some.inj h
      exact .int m
    | bool b =>
      obtain rfl : (if b then 1 else 0) = n := Option.some.inj h
      cases b
      · exact .no
      · exact .yes
    | _ => cases h

namespace Payload

/-- The items of a table of integers: of such as 64 bits hold with a sign, or of such as they hold without a sign
only. Truth values go with both. -/
def Integers (items : List Datum) : Prop :=
  (∀ d ∈ items, ∃ n, d.Counts n ∧ -0x8000000000000000 ≤ n ∧ n < 0x8000000000000000) ∨
  ∀ d ∈ items, (∃ b, d = .bool b) ∨ ∃ n, d = .int n ∧ 0x8000000000000000 ≤ n ∧ n < 0x10000000000000000

/-- The image stands for the bytes. Nothing is said of tables in which there is anything but integers. -/
def StandsFor : Payload → List UInt8 → Prop
  | bytes data, image => image = data
  | run b count, image => image = List.replicate count b
  | table _ items, image =>
    Integers items → List.Forall₂ (fun d (b : UInt8) => ∃ n, d.Counts n ∧ (b.toNat : Int) = n % 256) items image
  | value (.list items), image => List.Forall₂ (fun d (b : UInt8) => d.Counts b.toNat) items image
  | value (.record fields), image => fields = [] ∧ image = []
  | value d, image => ∃ n : Nat, d.Counts n ∧ image = List.replicate n 0

/-! ## Lists -/

theorem forall₂_of_mapM {f : Datum → Except Error UInt8} {items : List Datum} {image : List UInt8}
    (h : items.mapM f = .ok image) : List.Forall₂ (fun d b => f d = .ok b) items image := by
  induction items generalizing image with
  | nil =>
    cases h
    exact .nil
  | cons d items ih =>
    rw [List.mapM_cons] at h
    cases hd : f d with
    | error e =>
      rw [hd] at h
      cases h
    | ok b =>
      cases hrest : items.mapM f with
      | error e =>
        rw [hd, hrest] at h
        cases h
      | ok rest =>
        rw [hd, hrest] at h
        cases h
        exact .cons hd (ih hrest)

/-- The byte of an item of a list has the number that the item is. -/
theorem counts_of_itemByte {d : Datum} {b : UInt8} (h : itemByte d = .ok b) : d.Counts b.toNat := by
  unfold itemByte at h
  cases hd : d.int? with
  | none =>
    rw [hd] at h
    cases h
  | some n =>
    simp only [hd] at h
    split_ifs at h with hbyte
    obtain rfl := Except.ok.inj h
    rw [Datum.counts_iff, hd, toNat_byteOfInt, Int.emod_eq_of_lt hbyte.1 hbyte.2]

/-! ## Tables -/

/-- Integers with a sign and integers without one do not meet in a table of integers. -/
theorem tableBytes_of_integers {items : List Datum} (h : Integers items) :
    tableBytes items = .ok (items.map fun d => UInt8.ofInt (d.int?.getD 0)) := by
  have hnumbers : items.all isNumber = true := by
    rw [List.all_eq_true]
    intro d hd
    rcases h with h | h
    · obtain ⟨n, hn, h1, h2⟩ := h d hd
      cases hn <;> simp [isNumber, fitsWord, fits64, h1, h2]
    · obtain ⟨b, rfl⟩ | ⟨n, rfl, h1, h2⟩ := h d hd
      · rfl
      · simp only [isNumber, fitsWord, Bool.or_eq_true, Bool.and_eq_true, decide_eq_true_eq]
        omega
  have hreals : items.any isReal = false := by
    rw [List.any_eq_false]
    intro d hd
    rcases h with h | h
    · obtain ⟨n, hn, -⟩ := h d hd
      cases hn <;> simp [isReal]
    · obtain ⟨b, rfl⟩ | ⟨n, rfl, -⟩ := h d hd <;> simp [isReal]
  have halike : (items.any isUnsigned && items.any isSigned) = false := by
    rw [Bool.and_eq_false_iff, List.any_eq_false, List.any_eq_false]
    rcases h with h | h
    · refine .inl fun d hd => ?_
      obtain ⟨n, hn, h1, h2⟩ := h d hd
      cases hn <;> simp [isUnsigned, fits64, h1, h2]
    · refine .inr fun d hd => ?_
      obtain ⟨b, rfl⟩ | ⟨n, rfl, h1, -⟩ := h d hd
      · simp [isSigned]
      · rw [isSigned, fits64_iff]
        omega
  rw [tableBytes, if_pos hnumbers, hreals, halike, Bool.or_false, if_neg Bool.false_ne_true]

/-- Each integer of a table is held by the byte that it is modulo 256. -/
theorem forall₂_of_integers {items : List Datum} {image : List UInt8} (h : Integers items)
    (himage : tableBytes items = .ok image) :
    List.Forall₂ (fun d (b : UInt8) => ∃ n, d.Counts n ∧ (b.toNat : Int) = n % 256) items image := by
  rw [tableBytes_of_integers h] at himage
  obtain rfl := Except.ok.inj himage
  rw [List.forall₂_map_right_iff, List.forall₂_same]
  intro d hd
  obtain ⟨n, hn⟩ : ∃ n, d.Counts n := by
    rcases h with h | h
    · exact (h d hd).imp fun n hn => hn.1
    · obtain ⟨b, rfl⟩ | ⟨n, rfl, -⟩ := h d hd
      · exact ⟨_, Datum.counts_iff.2 rfl⟩
      · exact ⟨n, .int n⟩
  refine ⟨n, hn, ?_⟩
  rw [Datum.counts_iff.1 hn, Option.getD_some, toNat_byteOfInt]

/-! ## Numbers -/

theorem eq_replicate_of_repeated {b : UInt8} {count : Nat} {image : List UInt8} (h : repeated b count = .ok image) :
    image = List.replicate count b := by
  unfold repeated at h
  split at h
  · cases h
  · exact (Except.ok.inj h).symm

theorem eq_zeros_of_zeros {n : Int} {image : List UInt8} (h : zeros n = .ok image) :
    ∃ k : Nat, n = k ∧ image = List.replicate k 0 := by
  unfold zeros at h
  split_ifs at h with _ hneg
  exact ⟨n.toNat, (Int.toNat_of_nonneg (by omega)).symm, eq_replicate_of_repeated h⟩

/-! ## All images -/

theorem standsFor_of_toBytes {p : Payload} {image : List UInt8} (h : p.toBytes = .ok image) : p.StandsFor image := by
  cases p with
  | bytes data => exact (Except.ok.inj h).symm
  | run b count => exact eq_replicate_of_repeated h
  | table shape items => exact fun hitems => forall₂_of_integers hitems h
  | value d =>
    cases d with
    | list items => exact (forall₂_of_mapM h).imp fun _ _ => counts_of_itemByte
    | bool b =>
      obtain ⟨k, hk, himage⟩ := eq_zeros_of_zeros h
      exact ⟨k, Datum.counts_iff.2 (congrArg some hk), himage⟩
    | int n =>
      obtain ⟨k, rfl, himage⟩ := eq_zeros_of_zeros h
      exact ⟨k, .int k, himage⟩
    | record fields =>
      cases fields with
      | nil => exact ⟨rfl, (Except.ok.inj h).symm⟩
      | cons => cases h
    | null | real | text => cases h

end Payload

end Chip8
