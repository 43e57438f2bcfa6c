/-
The table of opcodes, read from the side of the instructions: `o.Encodes i` says that the opcode `o`
is one of the forms of the instruction `i`. Reading an opcode follows the table: it gives the
instruction whose form the opcode has, and does nothing if there is none.
-/
import Chip8.Instruction
import Mathlib.Tactic.ByContra
import Mathlib.Tactic.SplitIfs

namespace Chip8

/-- The forms of each instruction. An opcode that encodes no instruction is not assigned. -/
def Opcode.Encodes (o : Opcode) : Instruction → Prop
  | .nothing => False
  | .clearScreen => o.word = 0x00E0
  | .leave => o.word = 0x00EE
  | .jump a => o.family.val = 0x1 ∧ a = o.address
  | .call a => o.family.val = 0x2 ∧ a = o.address
  | .skipIfByte x b => o.family.val = 0x3 ∧ x = o.x ∧ b = o.byte
  | .skipUnlessByte x b => o.family.val = 0x4 ∧ x = o.x ∧ b = o.byte
  | .skipIfSame x y => o.family.val = 0x5 ∧ x = o.x ∧ y = o.y
  | .skipUnlessSame x y => o.family.val = 0x9 ∧ x = o.x ∧ y = o.y
  | .setByte x b => o.family.val = 0x6 ∧ x = o.x ∧ b = o.byte
  | .addByte x b => o.family.val = 0x7 ∧ x = o.x ∧ b = o.byte
  | .alu op x y => o.family.val = 0x8 ∧ AluOp.ofNibble? o.n = some op ∧ x = o.x ∧ y = o.y
  | .setIndex a => o.family.val = 0xA ∧ a = o.address
  | .jumpOffset a x => o.family.val = 0xB ∧ a = o.address ∧ x = o.x
  | .random x b => o.family.val = 0xC ∧ x = o.x ∧ b = o.byte
  | .draw x y n => o.family.val = 0xD ∧ x = o.x ∧ y = o.y ∧ n = o.n
  | .skipIfKey x => o.family.val = 0xE ∧ o.byte.toNat = 0x9E ∧ x = o.x
  | .skipUnlessKey x => o.family.val = 0xE ∧ o.byte.toNat = 0xA1 ∧ x = o.x
  | .readDelay x => o.family.val = 0xF ∧ o.byte.toNat = 0x07 ∧ x = o.x
  | .awaitKey x => o.family.val = 0xF ∧ o.byte.toNat = 0x0A ∧ x = o.x
  | .setDelay x => o.family.val = 0xF ∧ o.byte.toNat = 0x15 ∧ x = o.x
  | .setSound x => o.family.val = 0xF ∧ o.byte.toNat = 0x18 ∧ x = o.x
  | .addIndex x => o.family.val = 0xF ∧ o.byte.toNat = 0x1E ∧ x = o.x
  | .pointGlyph x => o.family.val = 0xF ∧ o.byte.toNat = 0x29 ∧ x = o.x
  | .storeDecimal x => o.family.val = 0xF ∧ o.byte.toNat = 0x33 ∧ x = o.x
  | .storeRegisters x => o.family.val = 0xF ∧ o.byte.toNat = 0x55 ∧ x = o.x
  | .loadRegisters x => o.family.val = 0xF ∧ o.byte.toNat = 0x65 ∧ x = o.x

/-- An opcode is told by its family, its field X and its low byte. -/
theorem Opcode.word_toNat_eq (o : Opcode) :
    o.word.toNat = o.family.val * 0x1000 + o.x.val * 0x100 + o.byte.toNat := by
  rw [byte_toNat]
  simp only [family, x]
  omega

namespace Instruction

theorem decodeSystem_spec {o : Opcode} {i : Instruction} (h : decodeSystem o = i) (hi : i ≠ .nothing) :
    o.Encodes i := by
  unfold decodeSystem at h
  split_ifs at h with h1 h2
  · subst h; exact h1
  · subst h; exact h2
  · exact absurd h.symm hi

theorem decodeKey_spec {o : Opcode} {i : Instruction} (hf : o.family.val = 0xE) (h : decodeKey o = i)
    (hi : i ≠ .nothing) : o.Encodes i := by
  unfold decodeKey at h
  split_ifs at h with h1 h2
  · subst h; exact ⟨hf, by rw [h1]; rfl, rfl⟩
  · subst h; exact ⟨hf, by rw [h2]; rfl, rfl⟩
  · exact absurd h.symm hi

theorem decodeMisc_spec {o : Opcode} {i : Instruction} (hf : o.family.val = 0xF) (h : decodeMisc o = i)
    (hi : i ≠ .nothing) : o.Encodes i := by
  unfold decodeMisc at h
  split at h
  case h_10 => exact absurd h.symm hi
  all_goals
    rename_i hb
    subst h
    exact ⟨hf, hb, rfl⟩

/-- What is read from an opcode is what it encodes. -/
theorem encodes_of_decode {o : Opcode} {i : Instruction} (h : decode o = i) (hi : i ≠ .nothing) : o.Encodes i := by
  have hlt := o.family.isLt
  unfold decode at h
  split at h <;> rename_i hf
  · exact decodeSystem_spec h hi
  case h_9 =>
    split at h
    · rename_i op hop
      subst h
      exact ⟨hf, hop, rfl, rfl⟩
    · exact absurd h.symm hi
  case h_15 => exact decodeKey_spec hf h hi
  case h_16 =>
    have hF : o.family.val = 0xF := by grind
    exact decodeMisc_spec hF h hi
  all_goals subst h
  all_goals simp [Opcode.Encodes, hf]

theorem family_of_word_lt {o : Opcode} (h : o.word.toNat < 0x1000) : o.family.val = 0x0 := by
  simp only [Opcode.family]
  omega

/-- An opcode is read as whatever instruction it encodes. -/
theorem decode_of_encodes {o : Opcode} {i : Instruction} (h : o.Encodes i) : decode o = i := by
  cases i <;> simp only [Opcode.Encodes] at h
  case clearScreen | leave =>
    have hf := family_of_word_lt (o := o) (by rw [h]; decide)
    simp [decode, hf, decodeSystem, h]
  case skipIfKey | skipUnlessKey =>
    obtain ⟨hf, hb, rfl⟩ := h
    simp [decode, hf, decodeKey, ← UInt8.toNat_inj, hb]
  case readDelay | awaitKey | setDelay | setSound | addIndex | pointGlyph | storeDecimal | storeRegisters |
      loadRegisters =>
    obtain ⟨hf, hb, rfl⟩ := h
    simp [decode, hf, decodeMisc, hb]
  all_goals simp [decode, h]

theorem encodes_iff {o : Opcode} {i : Instruction} : o.Encodes i ↔ i ≠ .nothing ∧ decode o = i := by
  constructor
  · intro h
    refine ⟨?_, decode_of_encodes h⟩
    rintro rfl
    exact h
  · rintro ⟨hi, h⟩
    exact encodes_of_decode h hi

instance (o : Opcode) (i : Instruction) : Decidable (o.Encodes i) := decidable_of_iff _ encodes_iff.symm

/-- Nothing is done for exactly the opcodes that are not assigned. -/
theorem decode_eq_nothing_iff {o : Opcode} : decode o = .nothing ↔ ∀ i, ¬ o.Encodes i := by
  constructor
  · intro h i hi
    rw [decode_of_encodes hi] at h
    subst h
    exact hi
  · intro h
    by_contra hne
    exact h _ (encodes_of_decode rfl hne)

end Instruction

end Chip8
