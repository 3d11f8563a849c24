/-!
# Taking samples apart

* `channel?`: one channel of interleaved samples.
* `region?`: the rows of a region, one after another, without what lies between them. A row that is
  not there in full is refused.
-/

namespace LaneGrid.Samples

variable {σ : Type}

/-- The first value, and then every `step`-th one. -/
def everyNth (step : Nat) : List σ → List σ
  | [] => []
  | x :: rest => x :: everyNth step (rest.drop (step - 1))
termination_by values => values.length
decreasing_by
  simp only [List.length_drop, List.length_cons]
  omega

/-- Channel `channel` of pixels of `channels` samples, if they have it. -/
def channel? (samples : List σ) (channels channel : Nat) : Option (List σ) :=
  if channel < channels then some (everyNth channels (samples.drop channel)) else none

/-- The rows from sample `start` on, of `columns` samples each and `stride` samples apart. -/
def rowsFrom (samples : Array σ) (columns stride : Nat) : Nat → Nat → Option (List σ)
  | 0, _ => some []
  | rows + 1, start =>
    if start + columns ≤ samples.size then
      ((samples.extract start (start + columns)).toList ++ ·) <$>
        rowsFrom samples columns stride rows (start + stride)
    else none

/-- The samples of a region of `rows` rows, row by row. -/
def region? (samples : Array σ) (columns rows stride : Nat) : Option (List σ) :=
  rowsFrom samples columns stride rows 0

end LaneGrid.Samples
