/-
How the names of log levels rank. Five levels have a name, which may be written in small letters as well as in
capitals; from the lowest to the highest these are DEBUG, INFO, WARNING, ERROR and CRITICAL. Every other name stands
for INFO.
-/
import Chip8.Log.Level
import Mathlib.Data.Char
import Mathlib.Data.List.Forall2
import Mathlib.Tactic.SplitIfs

namespace Chip8.Log

/-- The levels of a log. -/
inductive Severity where
  | debug
  | info
  | warning
  | error
  | critical
  deriving DecidableEq

namespace Severity

def name : Severity → String
  | debug => "DEBUG"
  | info => "INFO"
  | warning => "WARNING"
  | error => "ERROR"
  | critical => "CRITICAL"

/-- The number of a level among the five, counted from the lowest. -/
def number : Severity → Nat
  | debug => 0
  | info => 1
  | warning => 2
  | error => 3
  | critical => 4

instance : LE Severity := ⟨fun a b => a.number ≤ b.number⟩

instance (a b : Severity) : Decidable (a ≤ b) := inferInstanceAs (Decidable (a.number ≤ b.number))

theorem le_trans {a b c : Severity} (h : a ≤ b) (h' : b ≤ c) : a ≤ c := Nat.le_trans h h'

/-- What may be written for a capital letter: itself or its small letter. The dotless i and the long s are small
letters of I and S, too. -/
def Writes (capital c : Char) : Prop :=
  c = capital ∨ c = capital.toLower ∨ (capital = 'I' ∧ c = '\u0131') ∨ (capital = 'S' ∧ c = '\u017f')

instance (capital c : Char) : Decidable (Writes capital c) :=
  inferInstanceAs (Decidable
    (c = capital ∨ c = capital.toLower ∨ (capital = 'I' ∧ c = '\u0131') ∨ (capital = 'S' ∧ c = '\u017f')))

/-- The text is the name of the level, each letter in either case. -/
def Named (l : Severity) (text : String) : Prop := List.Forall₂ Writes l.name.toList text.toList

instance (l : Severity) (text : String) : Decidable (l.Named text) :=
  inferInstanceAs (Decidable (List.Forall₂ Writes l.name.toList text.toList))

/-- The level that a text stands for. -/
def ofText (text : String) : Severity :=
  if debug.Named text then debug
  else if warning.Named text then warning
  else if error.Named text then error
  else if critical.Named text then critical
  else info

end Severity

open Severity

/-! ## Small letters -/

theorem toNat_toLower {c : Char} (h1 : 65 ≤ c.toNat) (h2 : c.toNat ≤ 90) : c.toLower.toNat = c.toNat + 32 := by
  have hcapital : c.val ≥ 'A'.val ∧ c.val ≤ 'Z'.val := ⟨h1, h2⟩
  unfold Char.toLower
  rw [dif_pos hcapital]
  show (c.val + 32).toNat = c.val.toNat + 32
  have hlt : c.val.toNat ≤ 90 := h2
  rw [UInt32.toNat_add]
  show (c.val.toNat + 32) % 4294967296 = _
  omega

theorem toNat_toUpper (c : Char) :
    c.toUpper.toNat = if 97 ≤ c.toNat ∧ c.toNat ≤ 122 then c.toNat - 32 else c.toNat := by
  unfold Char.toUpper
  split_ifs with hsmall hnat hnat
  · show (c.val + 4294967264).toNat = c.val.toNat - 32
    have h1 : 97 ≤ c.val.toNat := hnat.1
    have h2 : c.val.toNat ≤ 122 := hnat.2
    rw [UInt32.toNat_add]
    show (c.val.toNat + 4294967264) % 4294967296 = _
    omega
  · exact absurd ⟨hsmall.1, hsmall.2⟩ hnat
  · exact absurd ⟨hnat.1, hnat.2⟩ hsmall
  · rfl

theorem toUpper_eq_iff {capital c : Char} (h1 : 65 ≤ capital.toNat) (h2 : capital.toNat ≤ 90) :
    c.toUpper = capital ↔ c = capital ∨ c = capital.toLower := by
  rw [← Char.toNat_inj, ← Char.toNat_inj, ← Char.toNat_inj, toNat_toLower h1 h2, toNat_toUpper]
  split_ifs <;> omega

theorem upperChar_eq_iff {capital c : Char} (h1 : 65 ≤ capital.toNat) (h2 : capital.toNat ≤ 90) :
    upperChar c = capital ↔ Writes capital c := by
  have hother {d : Char} (hd : 122 < d.toNat) : d ≠ capital ∧ d ≠ capital.toLower := by
    have hlower := toNat_toLower h1 h2
    constructor <;> rintro rfl <;> omega
  unfold upperChar Writes
  split_ifs with hdotless hlong
  · subst hdotless
    have hd := hother (d := '\u0131') (by decide)
    simp [hd, eq_comm]
  · subst hlong
    have hd := hother (d := '\u017f') (by decide)
    simp [hd, eq_comm]
  · rw [toUpper_eq_iff h1 h2]
    simp [hdotless, hlong]

/-- A text has the capitals of a name if and only if it is that name, each letter in either case. -/
theorem upper_eq_iff {capitals text : String} (h : capitals.toList.all fun c => 65 ≤ c.toNat ∧ c.toNat ≤ 90) :
    upper text = capitals ↔ List.Forall₂ Writes capitals.toList text.toList := by
  rw [upper, ← String.toList_inj, String.toList_map]
  generalize capitals.toList = cs at h
  generalize text.toList = ts
  induction cs generalizing ts with
  | nil => simp
  | cons c cs ih =>
    rw [List.all_cons, Bool.and_eq_true, decide_eq_true_eq] at h
    obtain ⟨⟨h1, h2⟩, hrest⟩ := h
    cases ts with
    | nil => simp
    | cons t ts => rw [List.map_cons, List.cons.injEq, List.forall₂_cons, upperChar_eq_iff h1 h2, ih hrest]

/-! ## Ranks -/

theorem upper_eq_name_iff (l : Severity) (text : String) : upper text = l.name ↔ l.Named text :=
  upper_eq_iff (by cases l <;> rfl)

/-- A name ranks by the level that it stands for. -/
theorem rank_eq_number (text : String) : rank text = (ofText text).number := by
  unfold rank ofText
  simp only [← upper_eq_name_iff]
  generalize upper text = capitals
  split_ifs with hdebug hwarning herror hcritical
  · rw [hdebug]
    rfl
  · rw [hwarning]
    rfl
  · rw [herror]
    rfl
  · rw [hcritical]
    rfl
  · by_cases hinfo : capitals = "INFO"
    · rw [hinfo]
      rfl
    · have hother : ranks.lookup capitals = none := by
        rw [List.lookup_eq_none_iff]
        simpa [ranks] using ⟨hdebug, hinfo, hwarning, herror, hcritical⟩
      rw [hother]
      rfl

theorem rank_le_rank_iff {low high : String} : rank low ≤ rank high ↔ ofText low ≤ ofText high := by
  rw [rank_eq_number, rank_eq_number]
  exact Iff.rfl

example : ofText "debug" = .debug ∧ ofText "Crıtıcal" = .critical ∧ ofText "verbose" = .info := by decide +kernel

end Chip8.Log
