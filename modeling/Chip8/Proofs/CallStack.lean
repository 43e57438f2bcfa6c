/-
The call stack as a list of return addresses, oldest first. A stack is tidy if its pointer lies in
0..16 and the slots from the pointer on are zero; a tidy stack is exactly one of the stacks
`ofList l` with at most sixteen addresses. On these a push adds an address at the end and a pop
takes the last one off, so a pop gives back, slot by slot, the stack before the push.
-/
import Chip8.CallStack
import Mathlib.Data.List.Basic
import Mathlib.Data.List.GetD

namespace Chip8.CallStack

/-- A stack that holds addresses below its pointer and nothing else. -/
structure Tidy (s : CallStack) : Prop where
  nonneg : 0 ≤ s.pointer
  le : s.pointer ≤ 16
  free : ∀ k : Fin 16, s.pointer ≤ k.val → s.slots.get k = 0

/-! ## Stacks made from lists -/

theorem getD_concat (l : List UInt16) (a : UInt16) (k : Nat) :
    (l ++ [a]).getD k 0 = if k = l.length then a else l.getD k 0 := by
  rcases Nat.lt_trichotomy k l.length with h | rfl | h
  · rw [List.getD_append _ _ _ _ h, if_neg (by omega)]
  · simp
  · rw [List.getD_eq_default _ _ (by simp; omega), if_neg (by omega), List.getD_eq_default _ _ (by omega)]

@[simp] theorem pointer_ofList (l : List UInt16) : (ofList l).pointer = l.length := rfl

@[simp] theorem get_ofList (l : List UInt16) (k : Fin 16) : (ofList l).slots.get k = l.getD k.val 0 := by
  simp [ofList]

/-- A stack is told by its pointer and its slots. -/
theorem ext_slots {s t : CallStack} (hp : s.pointer = t.pointer) (hs : ∀ k, s.slots.get k = t.slots.get k) :
    s = t := by
  cases s; cases t
  simp only at hp hs
  rw [hp, Place.ext hs]

theorem ofList_nil : ofList [] = empty := by
  refine ext_slots rfl fun k => ?_
  simp [empty]

theorem tidy_ofList {l : List UInt16} (h : l.length ≤ 16) : (ofList l).Tidy := by
  refine ⟨by simp, by simp; omega, fun k hk => ?_⟩
  rw [get_ofList, List.getD_eq_default _ _ (by simpa using hk)]

/-- A tidy stack is the stack of the addresses below its pointer. -/
theorem Tidy.exists_ofList {s : CallStack} (h : s.Tidy) : ∃ l : List UInt16, l.length ≤ 16 ∧ s = ofList l := by
  have hle := h.le
  have hn := h.nonneg
  have hlen : s.pointer.toNat ≤ s.slots.toList.length := by simp; omega
  have hcut : (s.slots.toList.take s.pointer.toNat).length = s.pointer.toNat := by
    rw [List.length_take, Nat.min_eq_left hlen]
  refine ⟨s.slots.toList.take s.pointer.toNat, by omega, ext_slots (by rw [pointer_ofList]; omega) fun k => ?_⟩
  rw [get_ofList]
  by_cases hk : s.pointer ≤ k.val
  · rw [h.free k hk, List.getD_eq_default _ _ (by omega)]
  · have hlt : k.val < s.pointer.toNat := by omega
    have hs : k.val < s.slots.toList.length := by simp
    rw [List.getD_eq_getElem?_getD, List.getElem?_take_of_lt hlt, List.getElem?_eq_getElem hs]
    simp [Place.get_eq_getElem]

/-! ## Pushing and popping -/

theorem get_store (slots : Vector UInt16 16) {n : Nat} (hn : n < 16) (a : UInt16) (k : Fin 16) :
    (store slots n a).get k = if k.val = n then a else slots.get k := by
  unfold store
  rw [Place.cell?_ofNat hn]
  by_cases hk : k = ⟨n, hn⟩
  · subst hk; simp
  · rw [if_neg (fun h => hk (Fin.ext h)), Place.get_put_of_ne _ _ hk]

theorem push?_eq_none_iff {s : CallStack} {a : UInt16} : s.push? a = none ↔ 16 ≤ s.pointer := by
  unfold push?
  split <;> simp_all

theorem pop?_eq_none_iff {s : CallStack} : s.pop? = none ↔ s.pointer ≤ 0 := by
  unfold pop?
  split <;> simp_all

theorem pointer_lt_of_push? {s t : CallStack} {a : UInt16} (h : s.push? a = some t) : s.pointer < 16 := by
  by_contra hfull
  rw [push?_eq_none_iff.2 (by omega)] at h
  cases h

theorem pointer_pos_of_pop? {s : CallStack} {p : CallStack × UInt16} (h : s.pop? = some p) : 0 < s.pointer := by
  by_contra hempty
  rw [pop?_eq_none_iff.2 (by omega)] at h
  cases h

/-- A push adds an address at the end. -/
theorem push?_ofList {l : List UInt16} (h : l.length < 16) (a : UInt16) :
    (ofList l).push? a = some (ofList (l ++ [a])) := by
  unfold push?
  rw [if_neg (by simp; omega)]
  refine congrArg some (ext_slots (by simp) fun k => ?_)
  rw [pointer_ofList, get_store _ h, get_ofList, get_ofList, getD_concat]

/-- A pop takes the last address off, and clears the slot it stood in. -/
theorem pop?_ofList_concat {l : List UInt16} (h : l.length < 16) (a : UInt16) :
    (ofList (l ++ [a])).pop? = some (ofList l, a) := by
  have htop : (ofList (l ++ [a])).pointer - 1 = (l.length : Int) := by simp
  unfold pop?
  rw [if_neg (by simp)]
  simp only [htop]
  have hnear : Place.nearest 15 (l.length : Int) = ⟨l.length, h⟩ := by
    simp only [Place.nearest, Fin.mk.injEq]
    omega
  refine congrArg some (Prod.ext (ext_slots rfl fun k => ?_) ?_)
  · rw [get_store _ h, get_ofList, get_ofList, getD_concat]
    by_cases hk : k.val = l.length
    · rw [if_pos hk, List.getD_eq_default _ _ (by omega)]
    · rw [if_neg hk, if_neg hk]
  · rw [hnear, get_ofList, getD_concat, if_pos rfl]

theorem Tidy.push {s t : CallStack} {a : UInt16} (hs : s.Tidy) (h : s.push? a = some t) : t.Tidy := by
  obtain ⟨l, hl, rfl⟩ := hs.exists_ofList
  by_cases hlt : l.length < 16
  · rw [push?_ofList hlt] at h
    obtain rfl := Option.some.inj h
    exact tidy_ofList (by simp; omega)
  · rw [push?_eq_none_iff.2 (by simp; omega)] at h
    cases h

theorem Tidy.pop {s t : CallStack} {a : UInt16} (hs : s.Tidy) (h : s.pop? = some (t, a)) : t.Tidy := by
  obtain ⟨l, hl, rfl⟩ := hs.exists_ofList
  rcases List.eq_nil_or_concat l with rfl | ⟨l', b, rfl⟩
  · rw [pop?_eq_none_iff.2 (by simp)] at h
    cases h
  · rw [List.concat_eq_append] at h hl
    simp only [List.length_append, List.length_singleton] at hl
    rw [pop?_ofList_concat (by omega)] at h
    obtain ⟨rfl, rfl⟩ := Prod.mk.inj (Option.some.inj h)
    exact tidy_ofList (by omega)

/-! ## The addresses below the pointer -/

/-- All slots below a pointer in 0..16 count, whatever stands above it. -/
theorem length_entries {s : CallStack} (h0 : 0 ≤ s.pointer) (h16 : s.pointer ≤ 16) :
    (s.entries.length : Int) = s.pointer := by
  obtain ⟨n, hn⟩ := Int.eq_ofNat_of_zero_le h0
  unfold entries
  rw [hn, Place.cut_ofNat (by omega), List.length_take, Vector.length_toList]
  omega

theorem getElem_entries {s : CallStack} {i : Nat} (h : i < s.entries.length) (h16 : i < 16) :
    s.entries[i] = s.slots.get ⟨i, h16⟩ := by
  simp [entries, Place.get_eq_getElem]

/-- Two stacks have the same addresses if their pointers and the slots below them are the same. -/
theorem entries_eq_iff {s t : CallStack} (hs : 0 ≤ s.pointer ∧ s.pointer ≤ 16) (ht : 0 ≤ t.pointer ∧ t.pointer ≤ 16) :
    s.entries = t.entries ↔
      s.pointer = t.pointer ∧ ∀ k : Fin 16, (k.val : Int) < s.pointer → s.slots.get k = t.slots.get k := by
  have hslen := length_entries hs.1 hs.2
  have htlen := length_entries ht.1 ht.2
  constructor
  · intro h
    rw [h] at hslen
    refine ⟨hslen.symm.trans htlen, fun k hk => ?_⟩
    have hkt : k.val < t.entries.length := by omega
    have hks : k.val < s.entries.length := h ▸ hkt
    rw [← getElem_entries hks k.isLt, ← getElem_entries hkt k.isLt]
    simp only [h]
  · rintro ⟨hpointer, hslots⟩
    refine List.ext_getElem (by omega) fun i his hit => ?_
    have hbelow : (i : Int) < s.pointer := by omega
    rw [getElem_entries his (by omega), getElem_entries hit (by omega)]
    exact hslots ⟨i, by omega⟩ hbelow

end Chip8.CallStack
