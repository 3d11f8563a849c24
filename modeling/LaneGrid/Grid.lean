/-!
# Grids of blocks

A grid is a rectangle of blocks, and a block is a number of lanes that work in phases: every lane
ends a phase before any lane starts the next one, and a barrier marks the boundary.

* `Grid`, `BlockIndex`: the rectangle and a place in it. Blocks are numbered row by row
  (`Grid.index`), and the numbering loses nothing (`index_flat`).
* `Block`: one running block: where it is, how many lanes it has, how many barriers it has passed.
* `Grid.launch`: runs a kernel once on every block, however many there are. Launches on a machine
  that has to number them are in `LaneGrid.Histogram.Machine`.
-/

namespace LaneGrid

/-- How many of `size` consecutive things cover `n` things. -/
def cover (n size : Nat) : Nat := (n + size - 1) / size

/-! ## Grids -/

/-- A rectangle of blocks, `x` wide and `y` high. -/
structure Grid where
  x : Nat
  y : Nat
deriving DecidableEq

/-- A place in a grid. -/
structure BlockIndex where
  x : Nat
  y : Nat
deriving DecidableEq

namespace Grid

/-- A single row of blocks. -/
def linear (x : Nat) : Grid := ⟨x, 1⟩

/-- The number of blocks. -/
def size (g : Grid) : Nat := g.x * g.y

/-- The place of block number `flat`, counted row by row. -/
def index (g : Grid) (flat : Nat) : BlockIndex := ⟨flat % g.x, flat / g.x⟩

theorem index_flat {g : Grid} {i : BlockIndex} (hx : i.x < g.x) :
    g.index (i.y * g.x + i.x) = i := by
  have h0 : 0 < g.x := Nat.lt_of_le_of_lt (Nat.zero_le _) hx
  rw [index, Nat.mul_comm, Nat.mul_add_mod, Nat.mul_add_div h0, Nat.mod_eq_of_lt hx,
    Nat.div_eq_of_lt hx, Nat.add_zero]

end Grid

/-! ## Blocks -/

/-- One block of a grid while it runs. -/
structure Block where
  index : BlockIndex
  grid : Grid
  /-- The number of lanes. -/
  size : Nat
  /-- The number of barriers passed so far. -/
  barriers : Nat := 0
deriving DecidableEq

namespace Block

/-- A block that belongs to no larger grid. -/
def standalone (size : Nat) : Block := { index := ⟨0, 0⟩, grid := .linear 1, size }

/-- Passes one barrier. -/
def sync (b : Block) : Block := { b with barriers := b.barriers + 1 }

/-- The lane ids, in the order in which a phase visits them. -/
def lanes (b : Block) : List Nat := List.range b.size

/-- The first lane id, and the one after the last. -/
def laneBounds (b : Block) : Nat × Nat := (0, b.size)

end Block

namespace Grid

/-- The blocks of a grid of `lanes` lanes each, none of them started. Blocks without lanes do not
exist. -/
def blocks (g : Grid) (lanes : Nat) : List Block :=
  if lanes = 0 then []
  else (List.range g.size).map fun flat => { index := g.index flat, grid := g, size := lanes }

/-- What a kernel gives on every block, block by block in their numbering. Blocks share nothing, so
the order of a real run is any other. -/
def launch {β : Type} (g : Grid) (lanes : Nat) (kernel : Block → β) : List β :=
  (g.blocks lanes).map kernel

end Grid

end LaneGrid
