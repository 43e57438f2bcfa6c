/-
A machine in the hands of a driver. The driver loads programs, presses keys and asks for steps and
frames; the machine answers, or refuses with an error, and writes a log.

`act` is what an operation does to the state, answers and has to say; it knows nothing of how the
log is printed. A machine stopped by a fault refuses every step and frame, and says why each time,
until it is reset.
-/
import Chip8.Dump
import Chip8.KeyInput
import Chip8.Log.Event
import Chip8.Program
import Chip8.Step

namespace Chip8

namespace State

/-- Why a stopped machine refuses to move. -/
def refusal? (s : State) : Option Error :=
  if s.fault = 0 then none
  else match Fault.ofCode? s.fault with
    | some f => some (.machineFault f s.pc s.peek.word)
    | none => some (.unknownFault s.fault)

def complaint (s : State) (e : Error) : List Log.Entry :=
  match e.message? with
  | some text => Log.fault text (some s.snapshot.format)
  | none => []

end State

namespace Machine

/-- What a machine is made with. All but the level of the log are loosely typed: the seed and the
length of a frame are looked at when they are needed, and a switch is on if its value counts as
true. -/
structure Settings where
  seed : Datum
  /-- The switches, one for each point on which dialects differ. -/
  indexAdvances : Datum
  shiftsReadVy : Datum
  logicClearsFlag : Datum
  jumpAddsVx : Datum
  /-- The number of steps in a frame. -/
  frameLength : Datum
  logLevel : String

namespace Settings

/-- Steps a second, and ticks of the timers a second, of a machine at its usual pace. -/
def stepRate : Nat := 700

def tickRate : Nat := 60

def default : Settings where
  seed := .int 0
  indexAdvances := .bool false
  shiftsReadVy := .bool false
  logicClearsFlag := .bool false
  jumpAddsVx := .bool false
  frameLength := .int (stepRate / tickRate : Nat)
  logLevel := "WARNING"

def dialect (c : Settings) : Dialect where
  indexAdvances := c.indexAdvances.isTrue
  shiftsReadVy := c.shiftsReadVy.isTrue
  logicClearsFlag := c.logicClearsFlag.isTrue
  jumpAddsVx := c.jumpAddsVx.isTrue

def shown (c : Settings) : List (String × Datum) :=
  [("seed", c.seed),
   ("increment_index_on_load_store", c.indexAdvances),
   ("shift_uses_vy", c.shiftsReadVy),
   ("logic_resets_vf", c.logicClearsFlag),
   ("jump_uses_vx", c.jumpAddsVx),
   ("instructions_per_frame", c.frameLength)]

end Settings

inductive Operation where
  | load (p : Payload)
  | step
  | tick
  | frame
  | press (key : Datum)
  | release (key : Datum)
  | setKeys (d : Datum)
  | reset
  | dump

/-- What an operation answers when it succeeds. -/
inductive Reply where
  | done
  /-- Whether the machine runs on, and does not wait for a key. -/
  | running (b : Bool)
  | dumped (s : Snapshot)
  deriving DecidableEq

/-- What comes of an operation. -/
structure Effect where
  state : State
  reply : Except Error Reply
  entries : List Log.Entry

namespace Effect

/-- An operation that changed the state and has nothing to say. -/
def quiet (s : State) (r : Reply) : Effect := ⟨s, .ok r, []⟩

def refused (s : State) (e : Error) : Effect := ⟨s, .error e, []⟩

def stopped (s : State) (e : Error) : Effect := ⟨s, .error e, s.complaint e⟩

/-- Answers for a state unless the machine is stopped in it. -/
def settle (s : State) (r : Reply) : Effect :=
  match s.refusal? with
  | some e => stopped s e
  | none => quiet s r

end Effect

def setKey (s : State) (key : Datum) (down : Bool) : Effect :=
  match Keypad.keyOfDatum key with
  | .ok k => .quiet { s with keypad := s.keypad.put k down } .done
  | .error e => .refused s e

/-- Resets the machine and loads a program. An image without a length of its own is loaded, and
then refused where its length is to be logged. -/
def load (s : State) (p : Payload) : Effect :=
  match s.reset.load p with
  | .error e => ⟨s.reset, .error e, [Log.machineReset]⟩
  | .ok t => match p.length? with
    | none => ⟨t, .error .noLength, [Log.machineReset]⟩
    | some n => ⟨t, .ok .done, [Log.machineReset, Log.programLoaded n Memory.programStart]⟩

/-- What an operation comes to on a machine with frames of the given length, if it is one. -/
def act (frameLength : Except Error Nat) (s : State) : Operation → Effect
  | .load p => load s p
  | .step => match s.refusal? with
    | some e => .stopped s e
    | none => .settle s.step (.running (!s.step.waiting))
  | .tick => .quiet s.tick .done
  | .frame => match s.refusal? with
    | some e => .stopped s e
    | none => match frameLength with
      | .ok n => .settle (s.frame n) .done
      | .error e => .refused s e
  | .press key => setKey s key true
  | .release key => setKey s key false
  | .setKeys d => match Keypad.ofDatum d with
    | .ok keypad => .quiet { s with keypad } .done
    | .error e => .refused s e
  | .reset => ⟨s.reset, .ok .done, [Log.machineReset]⟩
  | .dump => ⟨s, .ok (.dumped s.snapshot), Log.stateTable s.snapshot.format⟩

end Machine

/-- A machine with its settings and its log. -/
structure Machine where
  state : State
  /-- The number of steps in a frame, or why there is none. -/
  frameLength : Except Error Nat
  console : Log.Console

namespace Machine

def logName : String := "Machine"

/-- A new machine that logs to the given clock, and the lines it prints at once; `terminal` says
whether someone reads them on a terminal. -/
def create (c : Settings) (terminal : Bool) (clock : Log.Clock) :
    Except Error (Machine × List String) := do
  let key ← c.seed.randomKey
  let console : Log.Console := ⟨.make logName c.logLevel true terminal true, clock⟩
  let (console, lines, failure) := console.printAll (Log.configuration c.shown)
  match failure with
  | some e => .error e
  | none => .ok (⟨State.powerOn c.dialect key, c.frameLength.times, console⟩, lines)

/-- Performs an operation: the machine after it, its answer, and the lines it printed. A log that
cannot be printed is the answer in place of any other. -/
def perform (m : Machine) (op : Operation) : Machine × Except Error Reply × List String :=
  let e := act m.frameLength m.state op
  let (console, lines, failure) := m.console.printAll e.entries
  let reply := match failure with
    | some e => .error e
    | none => e.reply
  ({ m with state := e.state, console }, reply, lines)

/-- Up to `n` steps, each with its answer and the program counter after it, as far as the first
refusal. -/
def stepUpTo : Nat → Machine → Machine × List (Bool × UInt16) × Option Error × List String
  | 0, m => (m, [], none, [])
  | n + 1, m =>
    let (m, reply, lines) := m.perform .step
    match reply with
    | .error e => (m, [], some e, lines)
    | .ok _ =>
      let (m', rest, refusal, more) := stepUpTo n m
      (m', (!m.state.waiting, m.state.pc) :: rest, refusal, lines ++ more)

end Machine

end Chip8
