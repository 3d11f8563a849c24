import Mathlib.Data.List.Perm.Basic
import Mathlib.Data.List.Nodup
import LaneGrid.Histogram.Pass
import LaneGrid.Proofs.Cover

/-!
# Blocks tile a region

Every pixel of a region is read by one lane of one block, once.

* Strided walks: the walks from `0`, …, `g - 1` in steps of `g` share out the numbers below any
  bound (`strided_perm`), also in multiples of a tile (`strided_tiles_perm`).
* Lanes: the lanes of a block share out the columns of a tile that the row has (`tileVisits_perm`);
  a lane that stops at the first column beyond the row has none left (`laneColumns_eq`).
* Blocks: the blocks of a grid read the pixels of the region, in whatever order
  (`privatizedVisits_perm` for any grid with a block, `globalVisits_perm` for a block per tile).
-/

namespace LaneGrid

open scoped List

/-! ## Strided walks -/

theorem mem_strided {start stop step m : Nat} (hs : 0 < step) :
    m ∈ strided start stop step ↔ ∃ i, m = start + i * step ∧ m < stop := by
  rw [strided, List.mem_range']
  constructor
  · rintro ⟨i, hi, rfl⟩
    rw [lt_cover_iff hs] at hi
    refine ⟨i, by rw [Nat.mul_comm], ?_⟩
    rw [Nat.mul_comm]
    omega
  · rintro ⟨i, rfl, hi⟩
    refine ⟨i, ?_, by rw [Nat.mul_comm]⟩
    rw [lt_cover_iff hs]
    omega

theorem strided_of_le {start stop : Nat} (h : stop ≤ start) {step : Nat} (hs : 0 < step) :
    strided start stop step = [] := by
  rw [strided, Nat.sub_eq_zero_of_le h, cover_zero hs, List.range'_zero]

theorem strided_of_lt {start stop : Nat} (h : start < stop) {step : Nat} (hs : 0 < step) :
    strided start stop step = start :: strided (start + step) stop step := by
  rw [strided, strided, cover_succ hs (Nat.sub_pos_of_lt h), List.range'_succ, Nat.sub_sub]

theorem nodup_strided {start stop step : Nat} (hs : 0 < step) :
    (strided start stop step).Nodup :=
  List.nodup_range' step hs

/-- The walks from `0`, …, `g - 1` in steps of `g` meet every number below `n` once. -/
theorem strided_perm (n : Nat) {g : Nat} (hg : 0 < g) :
    ((List.range g).flatMap fun start => strided start n g).Perm (List.range n) := by
  have hnodup : ((List.range g).flatMap fun start => strided start n g).Nodup := by
    rw [List.nodup_flatMap]
    refine ⟨fun _ _ => nodup_strided hg, ?_⟩
    refine List.Pairwise.imp_of_mem (R := (· ≠ ·)) (fun {y z} hy hz hne m h1 h2 => ?_)
      List.nodup_range
    obtain ⟨i, rfl, -⟩ := (mem_strided hg).1 h1
    obtain ⟨j, hj, -⟩ := (mem_strided hg).1 h2
    -- both walks keep the remainder they start with
    have := congrArg (· % g) hj
    simp only [Nat.add_mul_mod_self_right] at this
    rw [Nat.mod_eq_of_lt (List.mem_range.1 hy), Nat.mod_eq_of_lt (List.mem_range.1 hz)] at this
    exact hne this
  refine (List.perm_ext_iff_of_nodup hnodup List.nodup_range).2 fun m => ?_
  simp only [List.mem_flatMap, List.mem_range, mem_strided hg]
  constructor
  · rintro ⟨_, _, _, _, h⟩
    exact h
  · intro h
    exact ⟨m % g, Nat.mod_lt _ hg, m / g, by rw [Nat.mul_comm, Nat.mod_add_div], h⟩

/-- A walk in multiples of a tile is a walk through the numbers of the tiles. -/
theorem strided_mul (x n g : Nat) {tile : Nat} (hg : 0 < g) (ht : 0 < tile) :
    strided (x * tile) n (g * tile) = (strided x (cover n tile) g).map (· * tile) := by
  have hcover : cover (n - x * tile) (g * tile) = cover (cover n tile - x) g := by
    refine eq_of_forall_ge_iff fun k => ?_
    have hle := @cover_le_iff n tile (x + k * g) ht
    rw [Nat.add_mul, Nat.mul_assoc] at hle
    rw [cover_le_iff (Nat.mul_pos hg ht), cover_le_iff hg]
    omega
  rw [strided, strided, hcover]
  clear hcover
  generalize cover (cover n tile - x) g = count
  induction count generalizing x with
  | zero => rfl
  | succ count ih =>
    rw [List.range'_succ, List.range'_succ, List.map_cons, ← Nat.add_mul, ih]

/-- Blocks that start at the tiles `0`, …, `g - 1` and go on in steps of `g` tiles share out the
tiles. -/
theorem strided_tiles_perm (n : Nat) {g tile : Nat} (hg : 0 < g) (ht : 0 < tile) :
    ((List.range g).flatMap fun x => strided (x * tile) n (g * tile)).Perm
      ((List.range (cover n tile)).map (· * tile)) := by
  have h := (strided_perm (cover n tile) hg).map (· * tile)
  rw [List.map_flatMap] at h
  simpa only [strided_mul _ n g hg ht] using h

/-- Consecutive tiles, the last of which may be cut short, are all numbers below `n`. -/
theorem tiles_flatten (n : Nat) {tile : Nat} (ht : 0 < tile) :
    ((List.range (cover n tile)).flatMap fun i =>
      List.range' (i * tile) (min tile (n - i * tile))) = List.range n := by
  have key : ∀ k, ((List.range k).flatMap fun i =>
      List.range' (i * tile) (min tile (n - i * tile))) = List.range (min n (k * tile)) := by
    intro k
    induction k with
    | zero => simp
    | succ k ih =>
      rw [List.range_succ, List.flatMap_append, ih, List.flatMap_singleton, Nat.succ_mul]
      rcases Nat.le_total n (k * tile) with h | h
      · rw [Nat.min_eq_left h, Nat.sub_eq_zero_of_le h, Nat.min_zero, List.range'_zero,
          List.append_nil, Nat.min_eq_left (by omega)]
      · rw [Nat.min_eq_right h, List.range_eq_range', List.range_eq_range']
        have := @List.range'_append_1 0 (k * tile) (min tile (n - k * tile))
        rw [Nat.zero_add] at this
        rw [this]
        congr 1
        omega
  rw [key, Nat.min_eq_left ((cover_le_iff ht).1 (Nat.le_refl _))]

/-! ## Order of nested walks -/

/-- Two nested walks may be nested the other way. -/
theorem flatMap_swap_perm {α β γ : Type} (as : List α) (bs : List β) (f : α → β → List γ) :
    (as.flatMap fun a => bs.flatMap (f a)).Perm (bs.flatMap fun b => as.flatMap (f · b)) := by
  induction as with
  | nil => simp
  | cons a as ih =>
    simp only [List.flatMap_cons]
    exact (ih.append_left _).trans (List.flatMap_append_perm bs (f a) _)

/-- Numbers below a product, row by row. -/
theorem flatMap_range_mul {β : Type} (x y : Nat) (f : Nat → List β) :
    (List.range (x * y)).flatMap f =
      (List.range y).flatMap fun j => (List.range x).flatMap fun i => f (j * x + i) := by
  induction y with
  | zero => simp
  | succ y ih =>
    rw [Nat.mul_succ, List.range_add, List.flatMap_append, ih, List.range_succ, List.flatMap_append,
      List.flatMap_singleton, List.flatMap_map, Nat.mul_comm]

/-- The blocks of a grid, row by row. -/
theorem Grid.flatMap_blocks {β : Type} (g : Grid) {lanes : Nat} (hl : 0 < lanes)
    (f : Block → List β) :
    (g.blocks lanes).flatMap f = (List.range g.y).flatMap fun y => (List.range g.x).flatMap fun x =>
      f { index := ⟨x, y⟩, grid := g, size := lanes } := by
  rw [Grid.blocks, if_neg (by omega), List.flatMap_map, Grid.size, flatMap_range_mul]
  refine List.flatMap_congr fun y _ => List.flatMap_congr fun x hx => ?_
  rw [Grid.index_flat (i := ⟨x, y⟩) (List.mem_range.1 hx)]

/-- The pixels of a region, row by row. -/
def Region.pixels (r : Region) : List Pixel :=
  (List.range r.rows).flatMap fun row => (List.range r.columns).map (⟨row, ·⟩)

theorem mem_pixels {r : Region} {pixel : Pixel} :
    pixel ∈ r.pixels ↔ pixel.row < r.rows ∧ pixel.column < r.columns := by
  obtain ⟨row, column⟩ := pixel
  simp [Region.pixels]

@[simp] theorem length_pixels (r : Region) : r.pixels.length = r.columns * r.rows := by
  simp [Region.pixels, List.length_flatMap, Nat.mul_comm]

namespace Pass

variable {σ : Type}

/-- A lane stops at the first column beyond the row, and no column of the row comes after that. -/
theorem laneColumns_eq (columns : Nat) {size : Nat} (hs : 0 < size) :
    ∀ items column, laneColumns columns size items column =
      List.range' column (min items (cover (columns - column) size)) size
  | 0, _ => by simp [laneColumns]
  | items + 1, column => by
    unfold laneColumns
    split
    · rename_i h
      rw [laneColumns_eq columns hs items, cover_succ hs (Nat.sub_pos_of_lt h), ← Nat.sub_sub,
        Nat.add_min_add_right, List.range'_succ]
    · rename_i h
      rw [Nat.sub_eq_zero_of_le (Nat.le_of_not_lt h), cover, Nat.zero_add,
        Nat.div_eq_of_lt (by omega), Nat.min_zero, List.range'_zero]

/-- The lanes of a block share out the columns of a tile that the row has. -/
theorem laneColumns_perm (columns items offset : Nat) {size : Nat} (hs : 0 < size) :
    ((List.range size).flatMap fun lane => laneColumns columns size items (offset + lane)).Perm
      (List.range' offset (min (size * items) (columns - offset))) := by
  have hlane : ∀ lane ∈ List.range size, laneColumns columns size items (offset + lane) =
      (strided lane (min (size * items) (columns - offset)) size).map (offset + ·) := by
    intro lane hl
    rw [laneColumns_eq columns hs, strided, List.map_add_range']
    congr 1
    -- the lane has an item for every step that stays in the tile and in the row
    have hl := List.mem_range.1 hl
    refine eq_of_forall_ge_iff fun k => ?_
    have hitems : size * items ≤ lane + k * size ↔ items ≤ k := by
      constructor
      · intro h
        refine Nat.le_of_lt_succ (Nat.lt_of_mul_lt_mul_left (a := size) ?_)
        rw [Nat.mul_succ, Nat.mul_comm size k]
        omega
      · intro h
        have := Nat.mul_le_mul_left size h
        rw [Nat.mul_comm size k] at this
        omega
    have hleft := @cover_le_iff (columns - (offset + lane)) size k hs
    have hright := @cover_le_iff (min (size * items) (columns - offset) - lane) size k hs
    omega
  rw [List.flatMap_congr hlane, ← List.map_flatMap, List.range'_eq_map_range]
  exact (strided_perm _ hs).map _

/-- The columns of one tile, lane after lane. -/
def tileColumns (p : Pass σ) (size offset : Nat) : List Nat :=
  (List.range size).flatMap fun lane =>
    laneColumns p.region.columns size p.itemsPerLane (offset + lane)

/-- The columns that a block reads in every row that it comes to. -/
def rowColumns (p : Pass σ) (b : Block) : List Nat :=
  let tile := b.size * p.itemsPerLane
  (strided (b.index.x * tile) p.region.columns (b.grid.x * tile)).flatMap (p.tileColumns b.size)

theorem tileVisits_eq_map (p : Pass σ) (size row offset : Nat) :
    p.tileVisits size row offset = (p.tileColumns size offset).map (⟨row, ·⟩) := by
  rw [tileVisits, tileColumns, List.map_flatMap]

theorem rowVisits_eq_map (p : Pass σ) (b : Block) (row : Nat) :
    p.rowVisits b row = (p.rowColumns b).map (⟨row, ·⟩) := by
  simp only [rowVisits, rowColumns, tileVisits_eq_map, List.map_flatMap]

/-- The lanes of a block read the pixels of a tile that the row has, each once. -/
theorem tileVisits_perm (p : Pass σ) (row offset : Nat) {size : Nat} (hs : 0 < size) :
    (p.tileVisits size row offset).Perm
      ((List.range' offset (min (size * p.itemsPerLane) (p.region.columns - offset))).map
        (⟨row, ·⟩)) := by
  rw [tileVisits_eq_map]
  exact (laneColumns_perm _ _ _ hs).map _

/-! ## Blocks of a grid -/

/-- The tiles of a row are the row. -/
theorem row_perm (p : Pass σ) (row : Nat) {size : Nat} (hs : 0 < size) (hi : 0 < p.itemsPerLane) :
    (((List.range (cover p.region.columns (size * p.itemsPerLane))).map
        (· * (size * p.itemsPerLane))).flatMap (p.tileVisits size row)).Perm
      ((List.range p.region.columns).map (⟨row, ·⟩)) := by
  rw [List.flatMap_map]
  refine (List.Perm.flatMap_left _ fun i _ => p.tileVisits_perm row _ hs).trans (.of_eq ?_)
  rw [← List.map_flatMap, tiles_flatten _ (Nat.mul_pos hs hi)]

/-- The blocks of a row of a grid read a row of the region. -/
theorem rowVisits_perm (p : Pass σ) (row y : Nat) {g : Grid} {size : Nat} (hx : 0 < g.x)
    (hs : 0 < size) (hi : 0 < p.itemsPerLane) :
    ((List.range g.x).flatMap fun x =>
        p.rowVisits { index := ⟨x, y⟩, grid := g, size } row).Perm
      ((List.range p.region.columns).map (⟨row, ·⟩)) := by
  unfold rowVisits
  dsimp only
  rw [← List.flatMap_assoc]
  exact ((strided_tiles_perm _ hx (Nat.mul_pos hs hi)).flatMap_right _).trans
    (p.row_perm row hs hi)

/-- **The blocks of any grid read every pixel of the region once**, when each goes on in steps of
the whole grid. -/
theorem privatizedVisits_perm (p : Pass σ) {g : Grid} {size : Nat} (hx : 0 < g.x) (hy : 0 < g.y)
    (hs : 0 < size) (hi : 0 < p.itemsPerLane) :
    ((g.blocks size).flatMap p.privatizedVisits).Perm p.region.pixels := by
  rw [Grid.flatMap_blocks g hs]
  unfold privatizedVisits
  calc
    ((List.range g.y).flatMap fun y => (List.range g.x).flatMap fun x =>
        (strided y p.region.rows g.y).flatMap
          (p.rowVisits { index := ⟨x, y⟩, grid := g, size }))
    _ ~ (List.range g.y).flatMap fun y => (strided y p.region.rows g.y).flatMap fun row =>
          (List.range g.x).flatMap fun x =>
            p.rowVisits { index := ⟨x, y⟩, grid := g, size } row :=
        .flatMap_left _ fun y _ => flatMap_swap_perm _ _ _
    _ ~ (List.range g.y).flatMap fun y => (strided y p.region.rows g.y).flatMap fun row =>
          (List.range p.region.columns).map (⟨row, ·⟩) :=
        .flatMap_left _ fun y _ => .flatMap_left _ fun row _ => p.rowVisits_perm row y hx hs hi
    _ ~ p.region.pixels := by
        rw [← List.flatMap_assoc]
        exact (strided_perm _ hy).flatMap_right _

/-- **A block for every tile of every row** reads every pixel of the region once. -/
theorem globalVisits_perm (p : Pass σ) {g : Grid} {size : Nat}
    (hx : g.x = cover p.region.columns (size * p.itemsPerLane)) (hy : g.y = p.region.rows)
    (hs : 0 < size) (hi : 0 < p.itemsPerLane) :
    ((g.blocks size).flatMap p.globalVisits).Perm p.region.pixels := by
  rw [Grid.flatMap_blocks g hs, hx, hy]
  unfold globalVisits
  refine .flatMap_left _ fun row _ => ?_
  dsimp only
  rw [← List.flatMap_map (· * (size * p.itemsPerLane)) (p.tileVisits size row)]
  exact p.row_perm row hs hi

end Pass

end LaneGrid
