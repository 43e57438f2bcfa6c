/-
Progress bars for runs of a known length. A bar is opened at the first iteration, moved on by whole
blocks of `rate` iterations and once by what is left of them, and closed after the last iteration.
What the bar is told is a list of events beside the result of the run; a bar that is told something
impossible ends the run. A run may also make ready what it could tell before it decides what to tell;
then it ends at its first iteration if one of its amounts cannot be told, whether it comes to that or
not.
-/
import Chip8.Integer

namespace Chip8

namespace Progress

inductive Event where
  /-- A new bar, with its total, its title and other options. -/
  | opened (total : Int) (title : Datum) (options : List (String × Datum))
  | advanced (k : Int)
  | closed

namespace Event

def opens : Event → Bool
  | opened .. => true
  | _ => false

/-- The option that a bar decides itself, whatever it is opened with. -/
def unitOption : String := "unit"

/-- Why a bar cannot be told the event. -/
def refusal? : Event → Option Error
  | opened _ _ options =>
    if options.any fun o => o.1 == unitOption then some .optionTaken else none
  | advanced k => match narrow k with
    | .ok _ => none
    | .error e => some e
  | closed => none

end Event

structure Bar where
  total : Int
  /-- The number of iterations between two moves. -/
  rate : Int
  title : Datum
  options : List (String × Datum)

/-- The rate for a total: a twentieth of it up to 50, unless another one is asked for, which is cut
to the total; never below 1. -/
def rateFor (total : Int) : Option Int → Int
  | none => max 1 (min (total / 20) 50)
  | some r => max 1 (min r total)

/-- The rate a value asks for, a fraction by its whole part. -/
def askedRate (total : Int) : Datum → Except Error (Option Int)
  | .null => .ok none
  | .bool b => .ok (some (if b then 1 else 0))
  | .int r => .ok (some r)
  | .real x =>
    .ok (some (if Decimal.isFinite x then Decimal.wholePart x else if 0 < x then total else 1))
  | .text _ | .list _ | .record _ => .error .notNumber

def defaultTitle (total : Int) : String := "Running (" ++ Decimal.grouped total ++ " steps)"

/-- The options that the plan itself decides and does not take from outside. -/
def reserved : List String := ["total", "mininterval", "maxinterval", "miniters"]

/-- A bar with the rate and the title asked for; null asks for nothing. -/
def Bar.plan (total : Int) (rate : Option Int) (title : Datum)
    (options : List (String × Datum)) : Bar where
  total := total
  rate := rateFor total rate
  title := match title with
    | .null => .text (defaultTitle total)
    | title => title
  options := options.filter fun o => !reserved.contains o.1

namespace Bar

/-- The iterations that are left when all whole blocks are done. -/
def remainder (b : Bar) : Int := b.total % b.rate

def before (b : Bar) (i : Int) : List Event :=
  (if i = 0 then [.opened b.total b.title b.options] else []) ++
  (if i % b.rate = 0 ∧ i ≠ b.total - b.remainder ∧ 0 < i then [.advanced b.rate] else []) ++
  (if i = b.total - b.remainder then [.advanced b.remainder] else [])

def after (b : Bar) (i : Int) : List Event := if i = b.total - 1 then [.closed] else []

end Bar

/-- Drops what comes before the first opening: there is no bar yet to tell it to. -/
def fromOpening (es : List Event) : List Event := es.dropWhile fun e => !e.opens

/-- What the bar hears of all that is told, if all of it can be told. -/
def heard (told : List Event) : Except Error (List Event) :=
  match told.findSome? Event.refusal? with
  | some e => .error e
  | none => .ok (fromOpening told)

/-- How it is decided at an iteration what the bar is told there. -/
inductive Decision where
  /-- What is not told is never looked at. -/
  | direct
  /-- Both ways of each decision are made ready before one of them is taken, as in a run that is
  compiled. -/
  | prepared

/-- Makes the amounts of a bar ready at the first of the iterations, if that is asked for. -/
def Bar.prepare (b : Bar) : Decision → List Int → Except Error Unit
  | .prepared, _ :: _ => do
    let _ ← narrow b.rate
    let _ ← narrow b.remainder
  | _, _ => .ok ()

/-- All that the given iterations tell, in their order. -/
def Bar.told (b : Bar) (iterations : List Int) : List Event :=
  iterations.flatMap fun i => b.before i ++ b.after i

def Bar.events (b : Bar) (iterations : List Int) (decision : Decision := .direct) :
    Except Error (List Event) := do
  b.prepare decision iterations
  heard (b.told iterations)

/-- Runs a loop and tells everything: before each iteration, and after its work. -/
def Bar.tell {σ α : Type} (b : Bar) (number : α → Int) (body : σ → α → σ) :
    σ → List α → σ × List Event
  | s, [] => (s, [])
  | s, item :: rest =>
    let before := b.before (number item)
    let (t, told) := b.tell number body (body s item) rest
    (t, before ++ b.after (number item) ++ told)

/-- Runs a loop beside a bar. Each item has the number of its iteration. -/
def Bar.loop {σ α : Type} (b : Bar) (number : α → Int) (body : σ → α → σ) (s : σ) (items : List α)
    (decision : Decision := .direct) : Except Error (σ × List Event) := do
  b.prepare decision (items.map number)
  let (t, told) := b.tell number body s items
  return (t, ← heard told)

/-- The numbers of `n` iterations; none for a negative `n`. -/
def iterations (n : Int) : List Int := (List.range n.toNat).map Int.ofNat

end Progress

end Chip8
