/-!
# Dispatch log

What is written about a dispatch, and when. A logger gives the lines it lets through; it decides
nothing else, so no result depends on its verbosity.

* `Verbosity`: silent, warnings, sizes and strategies, shapes and timings, in this order.
* `LogLine`: one line, as data. `LogLine.level` is the least verbosity that shows it, and
  `LogLine.text` its wording, which takes the elapsed time of a timing as given.
* `Logger`: one function per report.
-/

namespace LaneGrid

/-- How much is written. -/
inductive Verbosity where
  | silent
  | warning
  | info
  | debug
deriving DecidableEq

namespace Verbosity

/-- The place in the order from the least to the most that is written. -/
def rank : Verbosity → Nat
  | .silent => 0
  | .warning => 1
  | .info => 2
  | .debug => 3

instance : Ord Verbosity := ⟨fun v w => compare v.rank w.rank⟩

/-- Whether what is shown from `level` on is shown at `v`. -/
def shows (v level : Verbosity) : Bool := level.rank ≤ v.rank

end Verbosity

/-! ## Lines -/

/-- One line of the log. -/
inductive LogLine where
  | storageSize (bytes : Nat)
  | columns (count : Nat)
  | rows (count : Nat)
  | blocksX (count : Nat)
  | strategy (name : String) (totalBins threshold : Nat)
  | warning (text : String)
  | timing (name : String) (size : Nat)
deriving DecidableEq

namespace LogLine

/-- The least verbosity at which the line is written. -/
def level : LogLine → Verbosity
  | .storageSize _ | .strategy .. => .info
  | .columns _ | .rows _ | .blocksX _ | .timing .. => .debug
  | .warning _ => .warning

/-- The line, with `elapsed` for the milliseconds of a timing. -/
def text (elapsed : String) : LogLine → String
  | .storageSize bytes => "temporary storage size: " ++ toString bytes ++ " bytes"
  | .columns count => "columns " ++ toString count
  | .rows count => "rows " ++ toString count
  | .blocksX count => "blocks_x " ++ toString count
  | .strategy name totalBins threshold =>
    name ++ " strategy (" ++ toString totalBins ++ " total bins, threshold " ++
      toString threshold ++ ")"
  | .warning text => text
  | .timing name size => name ++ "(" ++ toString size ++ ") " ++ elapsed ++ " ms"

end LogLine

/-! ## Loggers -/

/-- Writes what its verbosity lets through. -/
structure Logger where
  verbosity : Verbosity := .silent
deriving DecidableEq

namespace Logger

/-- Lines that are written from `level` on. -/
def report (l : Logger) (level : Verbosity) (lines : List LogLine) : List LogLine :=
  if l.verbosity.shows level then lines else []

/-- The size that a sizing call answers. -/
def storageSize (l : Logger) (bytes : Nat) : List LogLine := l.report .info [.storageSize bytes]

/-- The sample region, before the first dispatch. -/
def region (l : Logger) (columns rows blocksX : Nat) : List LogLine :=
  l.report .debug [.columns columns, .rows rows, .blocksX blocksX]

/-- How samples are accumulated. -/
def strategy (l : Logger) (name : String) (totalBins threshold : Nat) : List LogLine :=
  l.report .info [.strategy name totalBins threshold]

def warn (l : Logger) (text : String) : List LogLine := l.report .warning [.warning text]

/-- Runs one dispatch and writes how long it took behind what it gave. -/
def time {β : Type} (l : Logger) (name : String) (size : Nat) (dispatch : Unit → β) :
    β × List LogLine :=
  if l.verbosity.shows .debug then (dispatch (), [.timing name size]) else (dispatch (), [])

/-- The dispatch runs either way. -/
theorem time_eq {β : Type} (l : Logger) (name : String) (size : Nat) (dispatch : Unit → β) :
    l.time name size dispatch = (dispatch (), l.report .debug [.timing name size]) := by
  unfold time report
  split <;> rfl

end Logger

end LaneGrid
