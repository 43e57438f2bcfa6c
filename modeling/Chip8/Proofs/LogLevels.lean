/-
What the level of a log decides. A machine has the same things to say at every level, and the level is looked at
only where a line is printed. So two machines that differ in nothing but the level of their logs go through the same
states and give the same answers, and the one with the higher level prints those lines of the other that rank as
high as its own level. The clocks stand still, since it is only for a line that is printed that a clock is read.
-/
import Chip8.Proofs.FreshStart
import Chip8.Proofs.Severity

namespace Chip8

namespace Log

/-! ## Clocks that stand still -/

/-- All readings that are still to come are the one at the start. -/
def Clock.Still (c : Clock) : Prop := ∀ now ∈ c.latest :: c.later, now = c.start

theorem Reading.exists_since_self (r : Reading) : ∃ elapsed, r.since r = .ok elapsed := by
  cases r with
  | whole n =>
    have hzero : (Reading.whole n).since (.whole n) = nearest 0 := congrArg nearest (Int.sub_self n)
    rw [hzero]
    exact ⟨_, rfl⟩
  | fraction x => exact ⟨_, rfl⟩

theorem Clock.Still.tells {c : Clock} (h : c.Still) : c.Tells := by
  intro now hnow
  rw [h now hnow]
  exact c.start.exists_since_self

theorem Clock.Still.read {c : Clock} (h : c.Still) :
    c.read.1 = c.start ∧ c.read.2.start = c.start ∧ c.read.2.Still := by
  obtain ⟨start, latest, later⟩ := c
  cases later with
  | nil => exact ⟨h latest List.mem_cons_self, rfl, h⟩
  | cons t ts => exact ⟨h t (by simp), rfl, fun now hnow => h now (List.mem_cons_of_mem _ hnow)⟩

/-! ## The lines of a log -/

/-- The entries that rank as high as a level. -/
def fromLevel (l : Severity) (es : List Entry) : List Entry := es.filter fun e => l ≤ Severity.ofText e.level

theorem fromLevel_append (l : Severity) (es fs : List Entry) :
    fromLevel l (es ++ fs) = fromLevel l es ++ fromLevel l fs :=
  List.filter_append ..

/-- The higher of two levels lets through some of what the lower one does. -/
theorem fromLevel_fromLevel {low high : Severity} (h : low ≤ high) (es : List Entry) :
    fromLevel high (fromLevel low es) = fromLevel high es := by
  unfold fromLevel
  rw [List.filter_filter]
  refine List.filter_congr fun e _ => ?_
  by_cases he : high ≤ Severity.ofText e.level
  · simp [he, Severity.le_trans h he]
  · simp [he]

theorem Logger.shows_iff (l : Logger) (level : String) :
    l.shows level = true ↔ Severity.ofText l.level ≤ Severity.ofText level := by
  rw [shows, decide_eq_true_iff, rank_le_rank_iff]

/-- The line of an entry, so many seconds after the start. The level of the logger does not show in it. -/
def Logger.line (l : Logger) (elapsed : Float) (e : Entry) : String :=
  (if l.timestamps then timeText elapsed else "") ++ l.body e

namespace Console

/-- Printing moves a log on to another in which nothing has changed but the readings still to come. -/
structure Stays (c c' : Console) : Prop where
  logger : c'.logger = c.logger
  start : c'.clock.start = c.clock.start
  still : c'.clock.Still

variable {c : Console} {elapsed : Float}

theorem print_of_still (h : c.clock.Still) (he : c.clock.start.since c.clock.start = .ok elapsed) (e : Entry) :
    (c.print e).2 = .ok (if c.logger.shows e.level then [c.logger.line elapsed e] else []) ∧
      c.Stays (c.print e).1 := by
  unfold print Logger.line
  split_ifs
  · obtain ⟨hnow, hstart, hstill⟩ := h.read
    refine ⟨?_, rfl, hstart, hstill⟩
    simp only [hnow, he]
    rfl
  · refine ⟨?_, rfl, rfl, h⟩
    rw [String.empty_append]
  · exact ⟨rfl, rfl, rfl, h⟩

/-- The lines of a log are those of the entries that its logger shows. -/
theorem printAll_of_still (h : c.clock.Still) (he : c.clock.start.since c.clock.start = .ok elapsed)
    (es : List Entry) :
    (c.printAll es).2.1 = (fromLevel (.ofText c.logger.level) es).map (c.logger.line elapsed) ∧
      c.Stays (c.printAll es).1 := by
  induction es generalizing c with
  | nil => exact ⟨rfl, rfl, rfl, h⟩
  | cons e es ih =>
    obtain ⟨hline, hnext⟩ := print_of_still h he e
    obtain ⟨hlines, hlast⟩ := ih (c := (c.print e).1) hnext.still (by rw [hnext.start, he])
    simp only [printAll, hline]
    refine ⟨?_, hlast.logger.trans hnext.logger, hlast.start.trans hnext.start, hlast.still⟩
    rw [hlines, hnext.logger, fromLevel, fromLevel, List.filter_cons]
    simp only [Logger.shows_iff, decide_eq_true_eq]
    split_ifs <;> rfl

end Console

end Log

namespace Machine

open State

/-! ## What a machine has to say -/

/-- The entries that a list of operations gives rise to, whether they are printed or not. -/
def said (frameLength : Except Error Nat) (s : State) : List Operation → List Log.Entry
  | [] => []
  | op :: ops => (act frameLength s op).entries ++ said frameLength (act frameLength s op).state ops

/-- The lines that are printed in a list of operations. -/
def printed (m : Machine) : List Operation → List String
  | [] => []
  | op :: ops => (m.perform op).2.2 ++ (m.perform op).1.printed ops

section

variable {m : Machine} {elapsed : Float}

theorem perform_of_still (h : m.console.clock.Still)
    (he : m.console.clock.start.since m.console.clock.start = .ok elapsed) (op : Operation) :
    (m.perform op).2.2 =
      (Log.fromLevel (.ofText m.console.logger.level) (act m.frameLength m.state op).entries).map
        (m.console.logger.line elapsed) ∧
      m.console.Stays (m.perform op).1.console :=
  Log.Console.printAll_of_still h he _

theorem printed_of_still (h : m.console.clock.Still)
    (he : m.console.clock.start.since m.console.clock.start = .ok elapsed) (ops : List Operation) :
    m.printed ops =
      (Log.fromLevel (.ofText m.console.logger.level) (said m.frameLength m.state ops)).map
        (m.console.logger.line elapsed) := by
  induction ops generalizing m with
  | nil => rfl
  | cons op ops ih =>
    obtain ⟨hlines, hnext⟩ := perform_of_still h he op
    have hrest := ih hnext.still (by rw [hnext.start, he])
    rw [hnext.logger] at hrest
    rw [printed, said, Log.fromLevel_append, List.map_append, hrest, hlines]
    rfl

end

/-- Answers and states do not depend on the log, if it can be printed. -/
theorem outcomes_of_tells {a b : Machine} (hstate : b.state = a.state) (hframes : b.frameLength = a.frameLength)
    (ha : a.console.clock.Tells) (hb : b.console.clock.Tells) (ops : List Operation) :
    b.outcomes ops = a.outcomes ops := by
  induction ops generalizing a b with
  | nil => rfl
  | cons op ops ih =>
    obtain ⟨hareply, hanext⟩ := perform_of_tells ha op
    obtain ⟨hbreply, hbnext⟩ := perform_of_tells hb op
    have hact : act b.frameLength b.state op = act a.frameLength a.state op := by rw [hstate, hframes]
    have hsame : (b.perform op).1.state = (a.perform op).1.state := congrArg Effect.state hact
    rw [outcomes, outcomes, ih hsame hframes hanext hbnext, hareply, hbreply, hact, hsame]

/-- A machine whose clock stands still is made unless its seed is refused, and prints from its making on what is
shown at its level. -/
theorem create_of_still (c : Settings) (terminal : Bool) {clock : Log.Clock} (h : clock.Still) {elapsed : Float}
    (he : clock.start.since clock.start = .ok elapsed) {k : RandomKey} (hk : c.seed.randomKey = .ok k) :
    ∃ m lines, create c terminal clock = .ok (m, lines) ∧
      m.state = powerOn c.dialect k ∧ m.frameLength = c.frameLength.times ∧ m.console.clock.Tells ∧
      ∀ ops, lines ++ m.printed ops =
        (Log.fromLevel (.ofText c.logLevel) (Log.configuration c.shown ++ said m.frameLength m.state ops)).map
          ((Log.Logger.make logName c.logLevel true terminal true).line elapsed) := by
  let console : Log.Console := ⟨.make logName c.logLevel true terminal true, clock⟩
  obtain ⟨hlines, hstays⟩ := Log.Console.printAll_of_still (c := console) h he (Log.configuration c.shown)
  obtain ⟨hprinted, -⟩ := Log.Console.printAll_of_tells (c := console) h.tells (Log.configuration c.shown)
  refine ⟨⟨powerOn c.dialect k, c.frameLength.times, (console.printAll (Log.configuration c.shown)).1⟩,
    (console.printAll (Log.configuration c.shown)).2.1, ?_, rfl, rfl, hstays.still.tells, fun ops => ?_⟩
  · simp only [create, hk, bind, Except.bind, console, hprinted]
  · rw [printed_of_still hstays.still (by rw [hstays.start, he]), hlines, hstays.logger, Log.fromLevel_append,
      List.map_append]
    rfl

theorem create_of_bad_seed (c : Settings) (terminal : Bool) (clock : Log.Clock) {e : Error}
    (h : c.seed.randomKey = .error e) : create c terminal clock = .error e := by
  simp only [create, h, bind, Except.bind]

/-- Take two names of levels, the first for a level no higher than the second, and a clock that stands still.
Machines of the same settings but for these names are either both refused, with the same error, or both made, in the
same state; and whatever is then done with them, they give the same answers and raise the same errors, and after each
operation they are in the same state. From their making on, the lines printed at the second level are those of the
lines printed at the first whose own level is at or above the second, in the same order. -/
theorem level_only_filters {low high : String} (hlevels : Log.Severity.ofText low ≤ Log.Severity.ofText high)
    (c : Settings) (terminal : Bool) {clock : Log.Clock} (hclock : clock.Still) :
    (∃ e, create { c with logLevel := low } terminal clock = .error e ∧
      create { c with logLevel := high } terminal clock = .error e) ∨
    ∃ a linesA b linesB elapsed,
      create { c with logLevel := low } terminal clock = .ok (a, linesA) ∧
      create { c with logLevel := high } terminal clock = .ok (b, linesB) ∧
      clock.start.since clock.start = .ok elapsed ∧ b.state = a.state ∧
      ∀ ops, b.outcomes ops = a.outcomes ops ∧
        let line := (Log.Logger.make logName c.logLevel true terminal true).line elapsed
        let shown := Log.fromLevel (.ofText low) (Log.configuration c.shown ++ said a.frameLength a.state ops)
        linesA ++ a.printed ops = shown.map line ∧
        linesB ++ b.printed ops = (Log.fromLevel (.ofText high) shown).map line := by
  obtain ⟨elapsed, helapsed⟩ := clock.start.exists_since_self
  cases hseed : c.seed.randomKey with
  | error e => exact .inl ⟨e, create_of_bad_seed _ _ _ hseed, create_of_bad_seed _ _ _ hseed⟩
  | ok k =>
    obtain ⟨a, linesA, hcreateA, hstateA, hframesA, hA, hprintedA⟩ :=
      create_of_still { c with logLevel := low } terminal hclock helapsed hseed
    obtain ⟨b, linesB, hcreateB, hstateB, hframesB, hB, hprintedB⟩ :=
      create_of_still { c with logLevel := high } terminal hclock helapsed hseed
    have hstate : b.state = a.state := hstateB.trans hstateA.symm
    have hframes : b.frameLength = a.frameLength := hframesB.trans hframesA.symm
    refine .inr ⟨a, linesA, b, linesB, elapsed, hcreateA, hcreateB, helapsed, hstate, fun ops =>
      ⟨outcomes_of_tells hstate hframes hA hB ops, hprintedA ops, ?_⟩⟩
    -- both have the same to say, so that the higher level shows some of what the lower one shows
    rw [hprintedB ops, hstate, hframes, Log.fromLevel_fromLevel hlevels]
    rfl

/-- A program that returns from nowhere is loaded, the machine is dumped, stopped, and asked to go on. -/
def stoppedRun : List Operation := [.load (.bytes [0x00, 0xEE]), .dump, .step, .frame, .reset]

/-- What a machine of seed 1 says when it is made and in this run, as a log that shows everything shows it. -/
def saidAtReturn (m : Machine) : List Log.Entry :=
  Log.fromLevel .debug (Log.configuration (ofSeed 1).shown ++ said m.frameLength m.state stoppedRun)

/-- A machine whose log shows everything and one whose log shows errors only stop alike. -/
theorem level_only_filters_at_return :
    ∃ a linesA b linesB elapsed,
      create { ofSeed 1 with logLevel := "debug" } false (.ofReadings [.whole 0]) = .ok (a, linesA) ∧
      create { ofSeed 1 with logLevel := "Error" } false (.ofReadings [.whole 0]) = .ok (b, linesB) ∧
      b.outcomes stoppedRun = a.outcomes stoppedRun ∧
      linesA ++ a.printed stoppedRun =
        a.saidAtReturn.map ((Log.Logger.make logName "WARNING" true false true).line elapsed) ∧
      linesB ++ b.printed stoppedRun =
        (Log.fromLevel .error a.saidAtReturn).map
          ((Log.Logger.make logName "WARNING" true false true).line elapsed) := by
  have hclock : (Log.Clock.ofReadings [.whole 0]).Still := by simp [Log.Clock.Still, Log.Clock.ofReadings]
  have hlevels : Log.Severity.ofText "debug" ≤ Log.Severity.ofText "Error" := by decide +kernel
  rcases level_only_filters hlevels (ofSeed 1) false hclock with ⟨e, he, -⟩ |
      ⟨a, linesA, b, linesB, elapsed, ha, hb, -, -, hruns⟩
  · -- the seed is an integer, and no integer of its size is refused
    obtain ⟨x, hx⟩ := Log.Reading.exists_since_self (.whole 0)
    obtain ⟨m, lines, hmade, -⟩ :=
      create_of_still { ofSeed 1 with logLevel := "debug" } false hclock hx (k := ⟨0, 1⟩) rfl
    cases he.symm.trans hmade
  · exact ⟨a, linesA, b, linesB, elapsed, ha, hb, hruns stoppedRun⟩

end Machine

end Chip8
