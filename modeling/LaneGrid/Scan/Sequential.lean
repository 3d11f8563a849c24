/-!
# Sequential scans

The scan of a list as one walk from its first value to its last. Nothing is assumed of the operator.

* `inclusive`: value `i` becomes the values `0` to `i` combined from the left.
* `exclusive`: value `i` becomes the seed and the values before `i` combined from the left.
* `total?`: all values combined from the left.
-/

namespace LaneGrid.Sequential

variable {α : Type}

/-- The running values of a walk that has already combined `before`. -/
def runningFrom (op : α → α → α) (before : α) : List α → List α
  | [] => []
  | x :: rest => op before x :: runningFrom op (op before x) rest

/-- Value `i` of the result combines the values `0` to `i`. -/
def inclusive (op : α → α → α) : List α → List α
  | [] => []
  | x :: rest => x :: runningFrom op x rest

/-- Value `i` of the result combines `init` and the values before `i`. -/
def exclusive (op : α → α → α) (init : α) : List α → List α
  | [] => []
  | x :: rest => init :: exclusive op (op init x) rest

/-- All values combined; nothing for no values. -/
def total? (op : α → α → α) (values : List α) : Option α := (inclusive op values).getLast?

@[simp] theorem length_runningFrom (op : α → α → α) (before : α) (values : List α) :
    (runningFrom op before values).length = values.length := by
  induction values generalizing before with
  | nil => rfl
  | cons x rest ih => simp [runningFrom, ih]

@[simp] theorem length_inclusive (op : α → α → α) (values : List α) :
    (inclusive op values).length = values.length := by
  cases values <;> simp [inclusive]

end LaneGrid.Sequential
