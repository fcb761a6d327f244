/-!
# Log records

What the machine and the runner report while they work.  A record has a level, and a log shows the
records from its threshold up; without a threshold it shows none.
-/

namespace Sm83.Log

/-- How important a record is. -/
inductive Level
  /-- Every instruction. -/
  | trace
  /-- Interrupts, halting and other rare events of the processor. -/
  | debug
  /-- The course of a run. -/
  | info
  deriving DecidableEq, Repr

/-- Levels in order of importance. -/
def Level.rank : Level → Nat
  | .trace => 0
  | .debug => 1
  | .info => 2

/-- The level's name in a log. -/
def Level.name : Level → String
  | .trace => "TRACE"
  | .debug => "DEBUG"
  | .info => "INFO"

/-- Which part of the program reports something. -/
inductive Source
  /-- The runner of test programs. -/
  | runner
  /-- The processor, of the instructions that it begins. -/
  | processor
  /-- The processor, of the effects of instructions. -/
  | execution
  /-- The processor, of interrupts and of halting. -/
  | interrupts
  /-- The processor, of its microcode. -/
  | microcode
  deriving DecidableEq, Repr

namespace Source

/-- The name of a source.  The names of parts begin with the name of the whole. -/
def name : Source → String
  | .runner => "microboy"
  | .processor => "microboy_cpu::cpu"
  | .execution => "microboy_cpu::cpu::exec"
  | .interrupts => "microboy_cpu::cpu::interrupts"
  | .microcode => "microboy_cpu::cpu::table"

/-- All sources. -/
def all : List Source := [.runner, .processor, .execution, .interrupts, .microcode]

end Source

/-- One report. -/
structure Record where
  source : Source
  level : Level
  message : String
  deriving DecidableEq, Repr

/-- A record by itself: its level and its message. -/
def Record.line (r : Record) : String := r.level.name ++ " " ++ r.message

/-- The lower of two thresholds, with which a log shows what it shows with either of them. -/
def lower : Option Level → Option Level → Option Level
  | none, t => t
  | s, none => s
  | some s, some t => some (if s.rank ≤ t.rank then s else t)

/-- Whether a log with this threshold shows a level. -/
def shows (threshold : Option Level) (level : Level) : Bool :=
  threshold.any fun t => t.rank ≤ level.rank

end Sm83.Log
