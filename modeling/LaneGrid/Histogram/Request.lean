import LaneGrid.Bins.Equal
import LaneGrid.Bins.Boundary
import LaneGrid.Histogram.Pass

/-!
# Histogram requests

What a caller asks for, and the one ordered list of conditions under which it is accepted.

* `SampleFormat`: the size of a sample and the level it stands for.
* `Request`: the samples, the region of them that is read, the bins of every channel, and the
  temporary storage. A request without storage asks for the storage's size.
* `evenLinear`, …, `multiRangeRegion`: the eight forms that a request is given in.
* `Request.accept`: what an accepted request asks to do, or the first condition that it breaks
  (`RequestError`).
-/

namespace LaneGrid

variable {σ ℓ : Type}

/-- Samples as they lie in memory and as they are compared with levels. -/
structure SampleFormat (σ ℓ : Type) where
  /-- Bytes that one sample takes. -/
  bytes : Nat
  bytes_pos : 0 < bytes
  toLevel : σ → ℓ

/-! ## Requests -/

/-- Which samples are read. -/
inductive Extent where
  /-- All of them, as one row of pixels. -/
  | linear
  /-- `rows` rows of `columns` pixels; a row starts `rowBytes` bytes after the one before. -/
  | region (columns rows rowBytes : Nat)
deriving DecidableEq

/-- The levels of every active channel. -/
inductive Binning (ℓ : Type) where
  /-- Bins of equal width: the number of levels and the two ends, channel by channel. -/
  | even (levels : List Nat) (lower upper : List ℓ)
  /-- Bins between boundaries, channel by channel. -/
  | range (levels : List (Array ℓ))

/-- What a caller asks for. -/
structure Request (σ ℓ : Type) where
  /-- Samples of one pixel. -/
  channels : Nat
  samples : Array σ
  extent : Extent
  binning : Binning ℓ
  /-- The size of the temporary storage that comes with the request. -/
  storage : Option Nat

namespace Request

def evenLinear (storage : Option Nat) (samples : Array σ) (levels : Nat) (lower upper : ℓ) :
    Request σ ℓ :=
  ⟨1, samples, .linear, .even [levels] [lower] [upper], storage⟩

def evenRegion (storage : Option Nat) (samples : Array σ) (columns rows rowBytes levels : Nat)
    (lower upper : ℓ) : Request σ ℓ :=
  ⟨1, samples, .region columns rows rowBytes, .even [levels] [lower] [upper], storage⟩

def rangeLinear (storage : Option Nat) (samples : Array σ) (levels : Array ℓ) : Request σ ℓ :=
  ⟨1, samples, .linear, .range [levels], storage⟩

def rangeRegion (storage : Option Nat) (samples : Array σ) (columns rows rowBytes : Nat)
    (levels : Array ℓ) : Request σ ℓ :=
  ⟨1, samples, .region columns rows rowBytes, .range [levels], storage⟩

def multiEvenLinear (channels : Nat) (storage : Option Nat) (samples : Array σ)
    (levels : List Nat) (lower upper : List ℓ) : Request σ ℓ :=
  ⟨channels, samples, .linear, .even levels lower upper, storage⟩

def multiEvenRegion (channels : Nat) (storage : Option Nat) (samples : Array σ)
    (columns rows rowBytes : Nat) (levels : List Nat) (lower upper : List ℓ) : Request σ ℓ :=
  ⟨channels, samples, .region columns rows rowBytes, .even levels lower upper, storage⟩

def multiRangeLinear (channels : Nat) (storage : Option Nat) (samples : Array σ)
    (levels : List (Array ℓ)) : Request σ ℓ :=
  ⟨channels, samples, .linear, .range levels, storage⟩

def multiRangeRegion (channels : Nat) (storage : Option Nat) (samples : Array σ)
    (columns rows rowBytes : Nat) (levels : List (Array ℓ)) : Request σ ℓ :=
  ⟨channels, samples, .region columns rows rowBytes, .range levels, storage⟩

end Request

/-! ## Errors -/

/-- An argument with one value per active channel. -/
inductive ChannelArgument where
  | levels
  | lower
  | upper
deriving DecidableEq

def ChannelArgument.name : ChannelArgument → String
  | .levels => "levels"
  | .lower => "lower"
  | .upper => "upper"

/-- The condition that a request breaks. -/
inductive RequestError (ℓ : Type) where
  | partialPixels (samples channels : Nat)
  | activeChannels (active channels : Nat)
  | argumentCount (argument : ChannelArgument) (count active : Nat)
  | levels (error : LevelsError ℓ)
  | unalignedRows (rowBytes sampleBytes : Nat)
  | storageTooSmall (required provided : Nat)
  | tooFewCounters (channel counters bins : Nat)
  | unaddressable (region : Region)
  | tooFewSamples (region : Region) (required got : Nat)
deriving DecidableEq

/-- A region in messages. -/
def Region.text (r : Region) : String :=
  toString r.columns ++ "x" ++ toString r.rows ++ " region with row stride " ++ toString r.stride

namespace RequestError

variable [Level ℓ]

/-- The argument at fault and the reason; the storage is no argument, but has sizes of its own. -/
def report : RequestError ℓ → Except (Nat × Nat) InvalidArgument
  | .partialPixels samples channels =>
    .ok ⟨"samples", toString samples ++ " samples is not a whole number of " ++ toString channels ++
      "-channel pixels"⟩
  | .activeChannels active channels =>
    .ok ⟨"histograms", toString active ++ " active channels, expected 1 to " ++ toString channels⟩
  | .argumentCount argument count active =>
    .ok ⟨argument.name, toString count ++ " values for " ++ toString active ++ " active channels"⟩
  | .levels error => .ok (error.report Level.text)
  | .unalignedRows rowBytes sampleBytes =>
    .ok ⟨"row_stride_bytes", toString rowBytes ++ " is not a whole multiple of the sample size " ++
      toString sampleBytes⟩
  | .storageTooSmall required provided => .error (required, provided)
  | .tooFewCounters channel counters bins =>
    .ok ⟨"histograms", "channel " ++ toString channel ++ " holds " ++ toString counters ++
      " counters but has " ++ toString bins ++ " bins"⟩
  | .unaddressable region => .ok ⟨"samples", region.text ++ " exceeds the address space"⟩
  | .tooFewSamples region required got =>
    .ok ⟨"samples", region.text ++ " needs " ++ toString required ++ " samples, got " ++
      toString got⟩

def message (e : RequestError ℓ) : String :=
  match e.report with
  | .ok invalid => invalid.message
  | .error (required, provided) =>
    "temporary storage too small: " ++ toString required ++ " bytes required, " ++
      toString provided ++ " provided"

end RequestError

/-! ## Acceptance -/

/-- Goes on if the condition holds. -/
def ensure {ε : Type} (condition : Prop) [Decidable condition] (error : ε) : Except ε Unit :=
  if condition then .ok () else .error error

/-- Bytes of temporary storage that a request asks for. Nothing is kept there, but a caller that
allocates it never allocates nothing. -/
def storageBytes : Nat := 4

/-- One more than the greatest index. -/
def addressLimit : Nat := UInt64.size

/-- An index, unless it is too large for one. -/
def addressable (index : Nat) : Option Nat := if index < addressLimit then some index else none

/-- Samples from the first one of a region to its last, unless they are too many to be numbered. -/
def Region.extent? (r : Region) (channels : Nat) : Option Nat := do
  let skipped ← addressable ((r.rows - 1) * r.stride)
  let row ← addressable (r.columns * channels)
  addressable (skipped + row)

/-- The columns, the rows and the bytes from row to row of what is read. -/
def Extent.frame (e : Extent) (channels samples sampleBytes : Nat) :
    Except (RequestError ℓ) (Nat × Nat × Nat) :=
  match e with
  | .linear => do
    ensure (0 < channels ∧ samples % channels = 0) (.partialPixels samples channels)
    return (samples / channels, 1, samples * sampleBytes)
  | .region columns rows rowBytes => .ok (columns, rows, rowBytes)

section

variable [Level ℓ]

/-- The error of a mapper's levels as the error of its request. -/
def liftLevels {β : Type} : Except (LevelsError ℓ) β → Except (RequestError ℓ) β
  | .ok b => .ok b
  | .error e => .error (.levels e)

/-- One mapper per active channel. -/
def Binning.mappers (b : Binning ℓ) (active : Nat) (toLevel : σ → ℓ) :
    Except (RequestError ℓ) (List (Mapper σ)) :=
  match b with
  | .even levels lower upper => do
    ensure (levels.length = active) (.argumentCount .levels levels.length active)
    ensure (lower.length = active) (.argumentCount .lower lower.length active)
    ensure (upper.length = active) (.argumentCount .upper upper.length active)
    (levels.zip (lower.zip upper)).mapM fun (levels, lower, upper) =>
      liftLevels ((·.mapper toLevel) <$> EqualBins.build levels lower upper)
  | .range levels => do
    ensure (levels.length = active) (.argumentCount .levels levels.length active)
    levels.mapM fun boundaries => liftLevels ((·.mapper toLevel) <$> BoundaryBins.build boundaries)

/-- Every channel has a counter for each of its bins; the channels are numbered from `channel`. -/
def checkCounters (channel : Nat) : List Nat → List (Mapper σ) → Except (RequestError ℓ) Unit
  | counters :: sizes, m :: mappers => do
    ensure (m.bins ≤ counters) (.tooFewCounters channel counters m.bins)
    checkCounters (channel + 1) sizes mappers
  | _, _ => .ok ()

/-- The region's last sample is there, if the region has any. -/
def Region.check (r : Region) (channels samples : Nat) : Except (RequestError ℓ) Unit :=
  if r.isEmpty then .ok ()
  else
    match r.extent? channels with
    | none => .error (.unaddressable r)
    | some required => ensure (required ≤ samples) (.tooFewSamples r required samples)

/-- What an accepted request asks to do. -/
inductive Task (σ : Type) where
  /-- Answer the size of the storage. -/
  | sizing
  /-- Count the samples of a region. -/
  | counting (region : Region) (mappers : List (Mapper σ))

/-- The task of a request on counter arrays of the given sizes, or the first condition that the
request breaks. -/
def Request.accept (r : Request σ ℓ) (format : SampleFormat σ ℓ) (counters : List Nat) :
    Except (RequestError ℓ) (Task σ) := do
  let (columns, rows, rowBytes) ← r.extent.frame r.channels r.samples.size format.bytes
  let active := counters.length
  ensure (0 < active ∧ active ≤ r.channels) (.activeChannels active r.channels)
  let mappers ← r.binning.mappers active format.toLevel
  ensure (rowBytes % format.bytes = 0) (.unalignedRows rowBytes format.bytes)
  match r.storage with
  | none => return .sizing
  | some provided =>
    ensure (storageBytes ≤ provided) (.storageTooSmall storageBytes provided)
    checkCounters 0 counters mappers
    let region : Region := ⟨columns, rows, rowBytes / format.bytes⟩
    region.check r.channels r.samples.size
    return .counting region mappers

end

end LaneGrid
