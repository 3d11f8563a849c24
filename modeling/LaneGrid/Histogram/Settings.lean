import LaneGrid.Log

/-!
# Histogram configuration

* `Settings`: the launch shape, the choice of strategy, the workers and the verbosity, as given.
* `Config`: settings under which a launch is possible; `Settings.validate` refuses the others.
-/

namespace LaneGrid

/-- How histograms are launched. -/
structure Settings where
  /-- Lanes per block. -/
  blockSize : Nat := 256
  /-- Pixels that each lane reads per tile. -/
  itemsPerLane : Nat := 8
  /-- The most blocks of a privatized launch. -/
  maxGridSize : Nat := 1024
  /-- The most bins, over all active channels, that are counted in block-local counters. -/
  privatizedMaxBins : Nat := 1024
  /-- One worker runs block after block, zero stands for the workers that are there. -/
  workers : Nat := 0
  verbosity : Verbosity := .silent
deriving DecidableEq

/-- Settings under which every launch has blocks, lanes and items. -/
structure Config extends Settings where
  blockSize_pos : 0 < blockSize
  itemsPerLane_pos : 0 < itemsPerLane
  maxGridSize_pos : 0 < maxGridSize

/-- Why settings are refused. -/
inductive SettingsError where
  | blockSize
  | itemsPerLane
  | maxGridSize
deriving DecidableEq

def SettingsError.message : SettingsError → String
  | .blockSize => "block_size must be at least 1"
  | .itemsPerLane => "items_per_thread must be at least 1"
  | .maxGridSize => "max_grid_size must be at least 1"

/-- The configuration of these settings, or the first of them that is zero and must not be. -/
def Settings.validate (s : Settings) : Except SettingsError Config :=
  if hb : 0 < s.blockSize then
    if hi : 0 < s.itemsPerLane then
      if hg : 0 < s.maxGridSize then
        .ok { s with blockSize_pos := hb, itemsPerLane_pos := hi, maxGridSize_pos := hg }
      else .error .maxGridSize
    else .error .itemsPerLane
  else .error .blockSize

namespace Config

/-- The settings that hold where nothing else is asked for. -/
def standard : Config :=
  { ({} : Settings) with
    blockSize_pos := Nat.succ_pos _
    itemsPerLane_pos := Nat.succ_pos _
    maxGridSize_pos := Nat.succ_pos _ }

/-- Pixels covered by one tile of a block. -/
def tile (c : Config) : Nat := c.blockSize * c.itemsPerLane

theorem tile_pos (c : Config) : 0 < c.tile := Nat.mul_pos c.blockSize_pos c.itemsPerLane_pos

end Config

end LaneGrid
