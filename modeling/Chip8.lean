import Chip8.Batch
import Chip8.Machine
import Chip8.Palette
import Chip8.Proofs.AddressBits
import Chip8.Proofs.Arithmetic
import Chip8.Proofs.Drawing
import Chip8.Proofs.Environment
import Chip8.Proofs.Frame
import Chip8.Proofs.FreshStart
import Chip8.Proofs.KeyWait
import Chip8.Proofs.Pacing
import Chip8.Proofs.ProgramCounter
import Chip8.Proofs.Progress
import Chip8.Proofs.RandomNumbers
import Chip8.Proofs.Sound
import Chip8.Proofs.Stopped
import Chip8.Proofs.StraightLine
import Chip8.Proofs.Subroutine
import Chip8.Proofs.Timers
import Chip8.Proofs.Transfer
import Chip8.Proofs.Unassigned
import Chip8.Proofs.Redraw
import Chip8.Proofs.BoundedStack
import Chip8.Proofs.Loading
import Chip8.Proofs.Integers
import Chip8.Proofs.Enlarging
import Chip8.Proofs.LitCells
import Chip8.Proofs.Reading
import Chip8.Proofs.DriverKeys
import Chip8.Proofs.Lag
import Chip8.Proofs.LogLevels
