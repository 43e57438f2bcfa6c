/-
Long runs, alone and beside a progress bar. Their steps are numbered in 32 bits.
-/
import Chip8.Progress
import Chip8.Step

namespace Chip8.State

/-- Runs `n` steps, or none if `n` is negative. -/
def runMany (n : Int) (s : State) : Except Error State :=
  if n < 0x80000000 then .ok (s.run n.toNat) else .error .integerTooWide

/-- The bar of a run of `n` steps. -/
def runBar (n : Int) : Progress.Bar :=
  Progress.Bar.plan n none (.text ("Running " ++ Decimal.grouped n ++ " instructions")) []

/-- Runs `n` steps and shows how far the run has come. The run is compiled, and the bar needs the
number of the last step even of a run without steps. -/
def runShown (n : Int) (s : State) : Except Error (State × List Progress.Event) :=
  if fits32 n && fits32 (n - 1) then
    (runBar n).loop (fun i => i) (fun s _ => s.step) s (Progress.iterations n) .prepared
  else .error .integerTooWide

end Chip8.State
