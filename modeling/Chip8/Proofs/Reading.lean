/-
The table of a state, read. A reader takes the table apart into lines and the lines into words, and reads the
numerals at the ends of the words. The words of a line have no blanks in them and the numerals nothing but
digits, so it finds again what the table was written from, whatever the number of addresses on the stack and of
digits in them: the registers, the timers, the addresses and the register that takes the key waited for. So two
states with the same table agree in all of these.
-/
import Chip8.Proofs.CallStack
import Chip8.Proofs.Table

namespace Chip8

/-! ## Hexadecimal numerals, read -/

namespace Hex

/-- The value of a digit. -/
def value? (c : Char) : Option Nat :=
  if '0' ≤ c ∧ c ≤ '9' then some (c.toNat - 48)
  else if 'A' ≤ c ∧ c ≤ 'F' then some (c.toNat - 55)
  else none

/-- The number that digits stand for, the most significant first. -/
def readDigits? (cs : List Char) : Option Nat := cs.foldlM (fun n c => (value? c).map (16 * n + ·)) 0

def read? (s : String) : Option Nat := readDigits? s.toList

theorem value?_digit {d : Nat} (h : d < 16) : value? (digit d) = some d :=
  (by decide : ∀ d < 16, value? (digit d) = some d) d h

theorem readDigits?_concat {cs : List Char} {n d : Nat} (hcs : readDigits? cs = some n) (hd : d < 16) :
    readDigits? (cs ++ [digit d]) = some (16 * n + d) := by
  unfold readDigits? at hcs ⊢
  rw [List.foldlM_append, hcs]
  simp [value?_digit hd]

theorem readDigits?_zeros (k : Nat) : readDigits? (List.replicate k '0') = some 0 := by
  induction k with
  | zero => rfl
  | succ k ih =>
    rw [List.replicate_succ']
    exact readDigits?_concat (d := 0) ih (by decide)

theorem readDigits?_digits (width n : Nat) : readDigits? (digits width n) = some n := by
  induction width, n using digits.induct with
  | case1 width n h =>
    rw [digits, if_pos h, readDigits?_concat (readDigits?_zeros _) h, Nat.mul_zero, Nat.zero_add]
  | case2 width n h ih =>
    rw [digits, if_neg h, readDigits?_concat ih (by omega), Nat.div_add_mod]

theorem read?_ofNat (width n : Nat) : read? (ofNat width n) = some n := by
  rw [read?, ofNat, String.toList_ofList]
  exact readDigits?_digits width n

/-- A character that is no digit does not stand in a numeral. -/
theorem not_mem_ofNat {c : Char} (hc : ∀ d < 16, c ≠ digit d) (width n : Nat) : c ∉ (ofNat width n).toList := by
  rw [ofNat, String.toList_ofList]
  intro h
  obtain ⟨d, hd, rfl⟩ := exists_digit_of_mem h
  exact hc d hd rfl

end Hex

/-- What the table of a state tells. -/
structure Reading where
  registers : List UInt8
  index : UInt16
  pc : UInt16
  delay : UInt8
  sound : UInt8
  /-- The return addresses, oldest first. -/
  stack : List UInt16
  /-- The register that takes the key waited for, if the machine waits. -/
  key : Option UInt8

namespace Reading

/-! ## Words and fields -/

/-- The words of a line, with a blank between each two. -/
def words (line : String) : List String := (line.toList.splitOn ' ').map String.ofList

/-- The numeral of a word that begins with a name. -/
def field? (name word : String) : Option Nat := do
  Hex.read? (String.ofList (← word.toList.dropPrefix? name.toList))

/-- The numerals of words that begin with the given names, one each. -/
def fields? : List String → List String → Option (List Nat)
  | [], [] => some []
  | name :: names, word :: words => do return (← field? name word) :: (← fields? names words)
  | _, _ => none

theorem words_intercalate {ts : List String} (hne : ts ≠ []) (h : ∀ t ∈ ts, ' ' ∉ t.toList) :
    words (" ".intercalate ts) = ts := by
  have hsplit : (" ".intercalate ts).toList.splitOn ' ' = ts.map String.toList := by
    rw [String.toList_intercalate]
    refine List.splitOn_intercalate ' ' (fun l hl => ?_) (by simpa using hne)
    obtain ⟨t, ht, rfl⟩ := List.mem_map.1 hl
    exact h t ht
  rw [words, hsplit, List.map_map]
  simp

theorem field?_ofNat (name : String) (width n : Nat) : field? name (name ++ Hex.ofNat width n) = some n := by
  have hdrop : (name ++ Hex.ofNat width n).toList.dropPrefix? name.toList = some (Hex.ofNat width n).toList := by
    rw [List.dropPrefix?_eq_some_iff, String.toList_append]
    exact ⟨_, rfl, beq_self_eq_true _⟩
  rw [field?, hdrop]
  simp [Hex.read?_ofNat]

theorem fields?_map {α : Type} (name : α → String) (width : Nat) (number : α → Nat) (as : List α) :
    fields? (as.map name) (as.map fun a => name a ++ Hex.ofNat width (number a)) = some (as.map number) := by
  induction as with
  | nil => rfl
  | cons a as ih =>
    rw [List.map_cons, List.map_cons, fields?, field?_ofNat, ih]
    rfl

/-! ## The lines of the table, read -/

/-- The addresses in the words after the count; a dash stands for none. -/
def stack? : List String → Option (List Nat)
  | _ :: entries => if entries = ["-"] then some [] else entries.mapM Hex.read?
  | [] => none

/-- The register in the line that is there while the machine waits. -/
def key? : List String → Option (Option Nat)
  | [] => some none
  | [line] => do return some (← field? "Waiting for key into V" line)
  | _ => none

def registerNames : List String := (List.range 16).map fun j => "V" ++ Hex.ofNat 1 j ++ ":"

def pointerNames : List String := ["I:", "PC:", "DT:", "ST:"]

/-- What the lines of a table tell. -/
def ofLines? : List String → Option Reading
  | a :: b :: c :: d :: pointers :: stack :: wait => do
    let registers ← fields? registerNames ([a, b, c, d].flatMap words)
    let [index, pc, delay, sound] ← fields? pointerNames (words pointers) | none
    let entries ← stack? (words stack)
    let key ← key? wait
    return {
      registers := registers.map UInt8.ofNat
      index := UInt16.ofNat index
      pc := UInt16.ofNat pc
      delay := UInt8.ofNat delay
      sound := UInt8.ofNat sound
      stack := entries.map UInt16.ofNat
      key := key.map UInt8.ofNat }
  | _ => none

/-- Reads a table. -/
def ofText? (text : String) : Option Reading := ofLines? (Lines.split text)

end Reading

/-! ## Reading what was written -/

namespace Snapshot

open Reading

variable (s : Snapshot)

theorem blank_not_mem_ofNat (width n : Nat) : ' ' ∉ (Hex.ofNat width n).toList :=
  Hex.not_mem_ofNat (by decide) width n

theorem blank_not_mem_toDigits (n : Nat) : ' ' ∉ Nat.toDigits 10 n := fun h =>
  absurd (Nat.isDigit_of_mem_toDigits (by decide) (by decide) h) (by decide)

theorem words_registerLine (k : Nat) :
    words (s.registerLine k) = (List.range 4).map fun j => s.registerText (4 * k + j) := by
  refine words_intercalate (by simp) fun t ht => ?_
  obtain ⟨j, -, rfl⟩ := List.mem_map.1 ht
  simp +decide [registerText, blank_not_mem_ofNat]

/-- The words of the first four lines are the sixteen registers. -/
theorem fields?_registerLines :
    fields? registerNames (((List.range 4).map s.registerLine).flatMap words) =
      some ((List.range 16).map fun j => (s.registers.getD j 0).toNat) := by
  have hwords : ((List.range 4).map s.registerLine).flatMap words = (List.range 16).map s.registerText := by
    rw [List.flatMap_map, funext s.words_registerLine]
    rfl
  rw [hwords, registerNames]
  exact fields?_map _ 2 _ _

/-- The words of the line of the pointers and timers. -/
def pointerWords : List String :=
  ["I:" ++ Hex.ofNat 4 s.index.toNat, "PC:" ++ Hex.ofNat 4 s.pc.toNat, "DT:" ++ Hex.ofNat 2 s.delay.toNat,
    "ST:" ++ Hex.ofNat 2 s.sound.toNat]

theorem words_pointerLine : words s.pointerLine = s.pointerWords := by
  have hline : s.pointerLine = " ".intercalate s.pointerWords := by
    simp only [pointerLine, pointerWords, String.intercalate_cons_cons, String.intercalate_singleton]
    simp [← String.toList_inj]
  rw [hline]
  refine words_intercalate (List.cons_ne_nil _ _) ?_
  simp +decide [pointerWords, blank_not_mem_ofNat]

theorem fields?_pointerLine :
    fields? pointerNames (words s.pointerLine) =
      some [s.index.toNat, s.pc.toNat, s.delay.toNat, s.sound.toNat] := by
  rw [words_pointerLine]
  simp only [pointerNames, pointerWords, fields?, field?_ofNat]
  rfl

/-- The words after the count in the line of the stack. -/
def stackWords : List String := if s.stack.isEmpty then ["-"] else s.stack.map fun a => Hex.ofNat 3 a.toNat

theorem stackWords_of_ne_nil (h : s.stack ≠ []) : s.stackWords = s.stack.map fun a => Hex.ofNat 3 a.toNat :=
  if_neg (by simpa using h)

theorem stackLine_eq :
    s.stackLine = " ".intercalate (("Stack[" ++ toString s.stack.length ++ "]:") :: s.stackWords) := by
  have hsome : s.stackWords ≠ [] := by
    unfold stackWords
    split <;> simp_all
  have hentries : (if s.stack.isEmpty then "-" else " ".intercalate (s.stack.map fun a => Hex.ofNat 3 a.toNat)) =
      " ".intercalate s.stackWords := by
    unfold stackWords
    split <;> simp
  rw [stackLine, hentries, String.intercalate_cons_of_ne_nil hsome, ← String.toList_inj]
  simp

theorem words_stackLine : words s.stackLine = ("Stack[" ++ toString s.stack.length ++ "]:") :: s.stackWords := by
  have hcount : ' ' ∉ ("Stack[" ++ toString s.stack.length ++ "]:").toList := by
    simp +decide [blank_not_mem_toDigits]
  have hentries : ∀ t ∈ s.stackWords, ' ' ∉ t.toList := by
    intro t ht
    unfold stackWords at ht
    split at ht
    · rw [List.mem_singleton.1 ht]
      decide
    · obtain ⟨a, -, rfl⟩ := List.mem_map.1 ht
      exact blank_not_mem_ofNat 3 a.toNat
  rw [stackLine_eq]
  exact words_intercalate (List.cons_ne_nil _ _) (List.forall_mem_cons.2 ⟨hcount, hentries⟩)

/-- A dash is no numeral. -/
theorem entryTexts_ne_dash (as : List UInt16) : (as.map fun a => Hex.ofNat 3 a.toNat) ≠ ["-"] := by
  intro h
  obtain ⟨a, -, ha⟩ := List.mem_map.1 (h ▸ List.mem_singleton_self "-")
  exact Hex.not_mem_ofNat (by decide : ∀ d < 16, '-' ≠ Hex.digit d) 3 a.toNat (ha ▸ by decide)

theorem stack?_stackLine : stack? (words s.stackLine) = some (s.stack.map UInt16.toNat) := by
  rw [words_stackLine, stack?]
  by_cases h : s.stack = []
  · simp [stackWords, h]
  · rw [s.stackWords_of_ne_nil h, if_neg (entryTexts_ne_dash _), List.mapM_map]
    have hread : (Hex.read? ∘ fun a : UInt16 => Hex.ofNat 3 a.toNat) = fun a => pure a.toNat :=
      funext fun a => Hex.read?_ofNat 3 a.toNat
    rw [hread]
    exact List.mapM_pure

theorem key?_wait :
    key? (if s.waiting then ["Waiting for key into V" ++ Hex.ofNat 1 s.keyRegister.toNat] else []) =
      some (if s.waiting then some s.keyRegister.toNat else none) := by
  cases s.waiting with
  | false => rfl
  | true =>
    simp only [if_true, key?, field?_ofNat]
    rfl

/-- What a snapshot of sixteen registers tells. -/
def reading : Reading where
  registers := s.registers
  index := s.index
  pc := s.pc
  delay := s.delay
  sound := s.sound
  stack := s.stack
  key := if s.waiting then some s.keyRegister else none

theorem map_ofNat_registers (h : s.registers.length = 16) :
    ((List.range 16).map fun j => (s.registers.getD j 0).toNat).map UInt8.ofNat = s.registers := by
  rw [List.map_map]
  refine List.ext_getElem (by simp [h]) fun j hj hj' => ?_
  simp [hj']

theorem ofLines?_lines (h : s.registers.length = 16) : ofLines? s.lines = some s.reading := by
  have hlines : s.lines = s.registerLine 0 :: s.registerLine 1 :: s.registerLine 2 :: s.registerLine 3 ::
      s.pointerLine :: s.stackLine ::
        (if s.waiting then ["Waiting for key into V" ++ Hex.ofNat 1 s.keyRegister.toNat] else []) := rfl
  have hregisters : fields? registerNames ([s.registerLine 0, s.registerLine 1, s.registerLine 2,
      s.registerLine 3].flatMap words) = _ := s.fields?_registerLines
  have hstack : (s.stack.map UInt16.toNat).map UInt16.ofNat = s.stack := by
    rw [List.map_map]
    exact (List.map_congr_left fun a _ => UInt16.ofNat_toNat).trans (List.map_id _)
  have hkey : (if s.waiting then some s.keyRegister.toNat else none).map UInt8.ofNat =
      if s.waiting then some s.keyRegister else none := by
    cases s.waiting <;> simp
  rw [hlines, ofLines?, hregisters, fields?_pointerLine, stack?_stackLine, key?_wait]
  simp only [Option.bind_eq_bind, Option.bind_some, s.map_ofNat_registers h, hstack, hkey, UInt8.ofNat_toNat,
    UInt16.ofNat_toNat]
  rfl

/-- The reader finds what the table was written from. -/
theorem ofText?_format (h : s.registers.length = 16) : ofText? s.format = some s.reading := by
  rw [ofText?, split_format, ofLines?_lines s h]

theorem waitKey_eq_iff {b c : Bool} {x y : UInt8} :
    (if b then some x else none) = (if c then some y else none) ↔ b = c ∧ (b = true → x = y) := by
  cases b <;> cases c <;> simp

/-- The table is written from nothing but what the reader finds. -/
theorem format_eq_of_reading {a b : Snapshot} (h : a.reading = b.reading) : a.format = b.format := by
  simp only [reading, Reading.mk.injEq, waitKey_eq_iff] at h
  obtain ⟨hregisters, hindex, hpc, hdelay, hsound, hstack, hwaiting, hkey⟩ := h
  have hregisterLine : ∀ k, a.registerLine k = b.registerLine k := fun k => by
    simp only [registerLine, registerText, hregisters]
  have hpointerLine : a.pointerLine = b.pointerLine := by
    simp only [pointerLine, hindex, hpc, hdelay, hsound]
  have hstackLine : a.stackLine = b.stackLine := by
    simp only [stackLine, hstack]
  rw [hwaiting] at hkey
  rw [format, format, lines, lines, funext hregisterLine, hpointerLine, hstackLine, hwaiting]
  cases hb : b.waiting with
  | false => rfl
  | true => rw [hkey hb]

end Snapshot

/-! ## States with the same table -/

namespace State

/-- Two states agree in what the table shows: in the registers, the index, the program counter, the timers, the
addresses below the stack pointers, in whether they wait for a key, and, if they do, in the register that takes
it. -/
structure SameTable (s t : State) : Prop where
  registers : s.registers = t.registers
  index : s.index = t.index
  pc : s.pc = t.pc
  delay : s.delay = t.delay
  sound : s.sound = t.sound
  pointer : s.stack.pointer = t.stack.pointer
  slots : ∀ k : Fin 16, (k.val : Int) < s.stack.pointer → s.stack.slots.get k = t.stack.slots.get k
  waiting : s.waiting = t.waiting
  keyRegister : s.waiting = true → s.keyRegister = t.keyRegister

theorem reading_snapshot (s : State) :
    s.snapshot.reading = ⟨s.registers.toList, s.index, s.pc, s.delay, s.sound, s.stack.entries,
      if s.waiting then some s.keyRegister else none⟩ := rfl

variable {s t : State}

theorem reading_eq_iff (hs : 0 ≤ s.stack.pointer ∧ s.stack.pointer ≤ 16)
    (ht : 0 ≤ t.stack.pointer ∧ t.stack.pointer ≤ 16) :
    s.snapshot.reading = t.snapshot.reading ↔ SameTable s t := by
  rw [reading_snapshot, reading_snapshot, Reading.mk.injEq, Vector.toList_inj, CallStack.entries_eq_iff hs ht,
    Snapshot.waitKey_eq_iff]
  constructor
  · rintro ⟨registers, index, pc, delay, sound, ⟨pointer, slots⟩, waiting, keyRegister⟩
    exact ⟨registers, index, pc, delay, sound, pointer, slots, waiting, keyRegister⟩
  · intro h
    exact ⟨h.registers, h.index, h.pc, h.delay, h.sound, ⟨h.pointer, h.slots⟩, h.waiting, h.keyRegister⟩

/-- Two states with stack pointers within the slots have the same table if and only if they agree in all that it
shows. A reader finds all of it in the table, which has six lines, and a seventh while the machine waits. -/
theorem format_tells_state (hs : 0 ≤ s.stack.pointer ∧ s.stack.pointer ≤ 16)
    (ht : 0 ≤ t.stack.pointer ∧ t.stack.pointer ≤ 16) :
    (s.snapshot.format = t.snapshot.format ↔ SameTable s t) ∧
    Reading.ofText? s.snapshot.format = some s.snapshot.reading ∧
    (Lines.split s.snapshot.format).length = if s.waiting then 7 else 6 := by
  have hlength : ∀ u : State, u.snapshot.registers.length = 16 := fun u => Vector.length_toList
  have hread : ∀ u : State, Reading.ofText? u.snapshot.format = some u.snapshot.reading := fun u =>
    u.snapshot.ofText?_format (hlength u)
  refine ⟨?_, hread s, ?_⟩
  · rw [← reading_eq_iff hs ht]
    constructor
    · intro h
      exact Option.some.inj ((hread s).symm.trans ((congrArg _ h).trans (hread t)))
    · exact Snapshot.format_eq_of_reading
  · rw [Snapshot.split_format, Snapshot.length_lines]
    rfl

/-- Waiting for a key, two calls deep. -/
def twoCallsDeep : State :=
  { powerOn ⟨true, true, true, true⟩ ⟨1, 2⟩ with
    stack := .ofList [0x202, 0x1000], waiting := true, keyRegister := 0xAB }

/-- The same, with an address left behind above the pointer and with the fault latch set. -/
def litteredAbove : State :=
  { twoCallsDeep with stack := ⟨(CallStack.ofList [0x202, 0x1000, 7]).slots, 2⟩, fault := 1 }

/-- Two other calls, whose addresses have the same digits one after the other. -/
def otherCallsDeep : State := { twoCallsDeep with stack := .ofList [0x2021, 0] }

theorem format_tells_state_two_calls_deep :
    twoCallsDeep.snapshot.format = litteredAbove.snapshot.format ∧
    twoCallsDeep.snapshot.format ≠ otherCallsDeep.snapshot.format ∧
    (Lines.split twoCallsDeep.snapshot.format).length = 7 := by
  have hdeep : 0 ≤ twoCallsDeep.stack.pointer ∧ twoCallsDeep.stack.pointer ≤ 16 := by decide
  have hlittered : 0 ≤ litteredAbove.stack.pointer ∧ litteredAbove.stack.pointer ≤ 16 := by decide
  have hother : 0 ≤ otherCallsDeep.stack.pointer ∧ otherCallsDeep.stack.pointer ≤ 16 := by decide
  obtain ⟨hsame, -, hlines⟩ := format_tells_state hdeep hlittered
  obtain ⟨hdiffer, -⟩ := format_tells_state hdeep hother
  refine ⟨hsame.2 ⟨rfl, rfl, rfl, rfl, rfl, rfl, by decide, rfl, fun _ => rfl⟩, fun h => ?_, hlines⟩
  exact absurd ((hdiffer.1 h).slots ⟨0, by decide⟩ (by decide)) (by decide)

end State

end Chip8
