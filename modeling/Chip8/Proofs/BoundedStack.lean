/-
The call stack against the list of addresses it stands for. Requests to push an integer and to pop are
answered one after the other, by the stack and by a list of at most sixteen numbers: both give the same
answers, and the stack holds the list throughout. A stack is told by the list it holds, so what is said of
requests to the list is said of the stack.
-/
import Chip8.Dump
import Chip8.Proofs.CallStack

namespace Chip8.CallStack

inductive Request where
  | push (address : Int)
  | pop

inductive Answer where
  | pushed (overflow : Bool)
  | popped (address : Nat) (underflow : Bool)

/-- Serves a request. A push that overflows and a pop that underflows say so, and an integer that is no
machine number is refused; neither changes the stack. -/
def serve (s : CallStack) : Request → CallStack × Except Error Answer
  | .push address => match wrap address with
    | .error e => (s, .error e)
    | .ok (_, a) => match s.push? a with
      | some t => (t, .ok (.pushed false))
      | none => (s, .ok (.pushed true))
  | .pop => match s.pop? with
    | some (t, a) => (t, .ok (.popped a.toNat false))
    | none => (s, .ok (.popped 0 true))

/-- Serves a request from a list of at most sixteen addresses, oldest first. -/
def serveList (l : List Nat) : Request → List Nat × Except Error Answer
  | .push address =>
    if fits32 address then
      if l.length = 16 then (l, .ok (.pushed true))
      else (l ++ [(address % 65536).toNat], .ok (.pushed false))
    else (l, .error .integerTooWide)
  | .pop => match l.getLast? with
    | some a => (l.dropLast, .ok (.popped a false))
    | none => (l, .ok (.popped 0 true))

/-- Serves requests one after the other, and collects the answers. -/
def serveAll {σ : Type} (serve : σ → Request → σ × Except Error Answer) (s : σ) :
    List Request → σ × List (Except Error Answer)
  | [] => (s, [])
  | r :: rs =>
    let (t, answer) := serve s r
    let (u, answers) := serveAll serve t rs
    (u, answer :: answers)

/-- A stack holds a list if its slots are the items of the list, from the lowest on, and then zeros. -/
structure Holds (s : CallStack) (l : List Nat) : Prop where
  pointer : s.pointer = l.length
  le : l.length ≤ 16
  slots : ∀ k : Fin 16, (s.slots.get k).toNat = l.getD k.val 0

variable {s t : CallStack} {l : List Nat}

/-! ## The list a stack holds -/

theorem holds_ofList {as : List UInt16} (h : as.length ≤ 16) : (ofList as).Holds (as.map UInt16.toNat) where
  pointer := by simp
  le := by simpa using h
  slots k := by rw [get_ofList, ← UInt16.toNat_zero, List.getD_map]

/-- Two stacks that hold one list are the same. -/
theorem Holds.unique (hs : s.Holds l) (ht : t.Holds l) : s = t := by
  refine ext_slots (hs.pointer.trans ht.pointer.symm) fun k => ?_
  rw [← UInt16.toNat_inj, hs.slots k, ht.slots k]

/-- The addresses on a stack are the list it holds. -/
theorem Holds.map_entries (h : s.Holds l) : s.entries.map UInt16.toNat = l := by
  have hle := h.le
  unfold entries
  rw [h.pointer, Place.cut_ofNat (by omega)]
  refine List.ext_getElem (by simp; omega) fun k _ hk => ?_
  have hslot := h.slots ⟨k, by omega⟩
  rw [List.getD_eq_getElem _ _ hk] at hslot
  rw [← hslot, List.getElem_map, List.getElem_take]
  simp [Place.get_eq_getElem]

/-- A stack that holds a list is the stack of the addresses these numbers are. -/
theorem Holds.exists_ofList (h : s.Holds l) :
    ∃ as : List UInt16, as.length ≤ 16 ∧ s = ofList as ∧ l = as.map UInt16.toNat := by
  have hlen : s.entries.length = l.length := by rw [← h.map_entries, List.length_map]
  have hle : s.entries.length ≤ 16 := by rw [hlen]; exact h.le
  refine ⟨s.entries, hle, h.unique ?_, h.map_entries.symm⟩
  have hholds := holds_ofList hle
  rwa [h.map_entries] at hholds

/-! ## One request -/

/-- A machine number becomes the address it is modulo 65536; any other is refused. -/
theorem wrap_eq (n : Int) :
    wrap n = if fits32 n then .ok (UInt8.ofInt n, UInt16.ofInt n) else .error .integerTooWide := by
  unfold wrap narrow
  split <;> rfl

theorem toNat_ofInt (n : Int) : (UInt16.ofInt n).toNat = (n % 65536).toNat := by
  unfold UInt16.ofInt
  rw [UInt16.toNat_ofNat']
  omega

theorem serve_push (s : CallStack) {address : Int} (h : fits32 address = true) :
    s.serve (.push address) = match s.push? (UInt16.ofInt address) with
      | some t => (t, .ok (.pushed false))
      | none => (s, .ok (.pushed true)) := by
  simp only [serve, wrap_eq, if_pos h]

/-- A pop from a list takes its last item off. -/
theorem serveList_pop_concat (l : List Nat) (a : Nat) : serveList (l ++ [a]) .pop = (l, .ok (.popped a false)) := by
  simp [serveList]

/-- The list after a push that did not overflow. -/
theorem serveList_push_fst {address : Int} (h : (serveList l (.push address)).2 = .ok (.pushed false)) :
    (serveList l (.push address)).1 = l ++ [(address % 65536).toNat] := by
  simp only [serveList] at h ⊢
  split at h
  · split at h <;> simp_all
  · cases h

/-- One request to a stack and to the list it holds. -/
theorem Holds.agrees (h : s.Holds l) (r : Request) :
    (s.serve r).2 = (serveList l r).2 ∧ (s.serve r).1.Holds (serveList l r).1 := by
  obtain ⟨as, hle, rfl, rfl⟩ := h.exists_ofList
  cases r with
  | push address =>
    by_cases hfits : fits32 address = true
    · rw [serve_push _ hfits, serveList, if_pos hfits, List.length_map]
      by_cases hfull : as.length = 16
      · rw [push?_eq_none_iff.2 (by simp; omega), if_pos hfull]
        exact ⟨rfl, h⟩
      · rw [push?_ofList (by omega), if_neg hfull]
        have hholds : (ofList (as ++ [UInt16.ofInt address])).Holds _ := holds_ofList (by simp; omega)
        rw [List.map_append, List.map_singleton, toNat_ofInt] at hholds
        exact ⟨rfl, hholds⟩
    · rw [serve, wrap_eq, if_neg hfits, serveList, if_neg hfits]
      exact ⟨rfl, h⟩
  | pop =>
    rcases List.eq_nil_or_concat as with rfl | ⟨bs, a, rfl⟩
    · rw [serve, pop?_eq_none_iff.2 (by simp)]
      exact ⟨rfl, h⟩
    · rw [List.concat_eq_append, List.length_append, List.length_singleton] at hle
      rw [List.concat_eq_append, serve, pop?_ofList_concat (by omega), List.map_append, List.map_singleton,
        serveList_pop_concat]
      exact ⟨rfl, holds_ofList (by omega)⟩

/-- A request that leaves the list leaves the stack, with every slot. -/
theorem Holds.serve_eq_self (h : s.Holds l) {r : Request} (hr : (serveList l r).1 = l) : (s.serve r).1 = s := by
  have hholds := (h.agrees r).2
  rw [hr] at hholds
  exact hholds.unique h

/-- A pop after a push that did not overflow gives the address back, and the stack as it was before. -/
theorem Holds.pop_push (h : s.Holds l) {address : Int} (ht : s.serve (.push address) = (t, .ok (.pushed false))) :
    t.serve .pop = (s, .ok (.popped (address % 65536).toNat false)) := by
  obtain ⟨hanswer, hholds⟩ := h.agrees (.push address)
  rw [ht] at hanswer hholds
  rw [serveList_push_fst hanswer.symm] at hholds
  obtain ⟨hpop, hback⟩ := hholds.agrees .pop
  rw [serveList_pop_concat] at hpop hback
  exact Prod.ext (hback.unique h) hpop

/-! ## Any number of requests -/

theorem Holds.agrees_all (h : s.Holds l) (rs : List Request) :
    (serveAll serve s rs).2 = (serveAll serveList l rs).2 ∧
      (serveAll serve s rs).1.Holds (serveAll serveList l rs).1 := by
  induction rs generalizing s l with
  | nil => exact ⟨rfl, h⟩
  | cons r rs ih =>
    obtain ⟨hanswer, hholds⟩ := h.agrees r
    obtain ⟨hanswers, hlast⟩ := ih hholds
    exact ⟨congrArg₂ List.cons hanswer hanswers, hlast⟩

theorem holds_empty : empty.Holds [] := ofList_nil ▸ holds_ofList (Nat.zero_le 16)

/-- After any requests to an empty stack, the stack and the list have given the same answers, and the stack
holds the list: the pointer is the length of the list, of sixteen at most, its addresses are in the lowest
slots, and all other slots are zero. Whatever leaves the list leaves the stack, a pop after a push that did
not overflow undoes it, and a snapshot of a state with this stack shows the list. -/
theorem serves_as_bounded_list (rs : List Request) :
    let s := (serveAll serve empty rs).1
    let l := (serveAll serveList [] rs).1
    (serveAll serve empty rs).2 = (serveAll serveList [] rs).2 ∧
      s.Holds l ∧
      (∀ r, (serveList l r).1 = l → (s.serve r).1 = s) ∧
      (∀ address t, s.serve (.push address) = (t, .ok (.pushed false)) →
        t.serve .pop = (s, .ok (.popped (address % 65536).toNat false))) ∧
      ∀ state : State, state.stack = s → state.snapshot.stack.map UInt16.toNat = l := by
  intro s l
  obtain ⟨hanswers, hholds⟩ := holds_empty.agrees_all rs
  refine ⟨hanswers, hholds, fun r => hholds.serve_eq_self, fun address t => hholds.pop_push, ?_⟩
  intro state hstate
  have hentries : state.snapshot.stack = s.entries := congrArg entries hstate
  rw [hentries]
  exact hholds.map_entries

/-- An address below zero is pushed modulo 65536, and a second pop finds nothing. -/
example : (serveAll serve empty [.push (-2), .pop, .pop]).2 =
    [.ok (.pushed false), .ok (.popped 0xFFFE false), .ok (.popped 0 true)] := by
  rfl

end Chip8.CallStack
