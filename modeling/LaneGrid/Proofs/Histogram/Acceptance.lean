import LaneGrid.Histogram.Request
import LaneGrid.Proofs.Checks
import LaneGrid.Proofs.Histogram.Regions

/-!
# What an accepted request counts

`accept_counting`: a request that is accepted for counting counts the region that it names
(`Request.region`), with the mapper that it gives for each active channel (`Binning.mapper?`), into
counter arrays that are long enough, and every sample of the region is there.
-/

namespace LaneGrid

variable {σ ℓ ε α β : Type}

/-! ## Conditions -/

theorem ensure_of {c : Prop} [Decidable c] (h : c) (e : ε) : ensure c e = .ok () := if_pos h

theorem ensure_ok {c : Prop} [Decidable c] {e : ε} {u : Unit} (h : ensure c e = .ok u) : c := by
  unfold ensure at h
  split at h
  · assumption
  · cases h

/-! ## Regions -/

/-- The region that a request names: the whole of its samples as one row of pixels, or rows whose
distance is given in bytes. -/
def Request.region (r : Request σ ℓ) (format : SampleFormat σ ℓ) : Region :=
  match r.extent with
  | .linear => ⟨r.samples.size / r.channels, 1, r.samples.size⟩
  | .region columns rows rowBytes => ⟨columns, rows, rowBytes / format.bytes⟩

theorem frame_ok {r : Request σ ℓ} {format : SampleFormat σ ℓ} {columns rows rowBytes : Nat}
    (h : (r.extent.frame r.channels r.samples.size format.bytes : Except (RequestError ℓ) _) =
      .ok (columns, rows, rowBytes)) :
    r.region format = ⟨columns, rows, rowBytes / format.bytes⟩ := by
  unfold Request.region
  cases hextent : r.extent with
  | linear =>
    rw [hextent] at h
    obtain ⟨_, -, h⟩ := bind_ok h
    cases h
    simp only [Nat.mul_div_cancel _ format.bytes_pos]
  | region =>
    rw [hextent] at h
    cases h
    rfl

/-- The samples of a region that passes the check are all there. -/
theorem lt_of_check {r : Region} {channels samples row column channel : Nat}
    (h : (r.check channels samples : Except (RequestError ℓ) Unit) = .ok ())
    (hrow : row < r.rows) (hcolumn : column < r.columns) (hchannel : channel < channels) :
    row * r.stride + column * channels + channel < samples := by
  have hpixel : (⟨row, column⟩ : Pixel) ∈ r.pixels := mem_pixels.2 ⟨hrow, hcolumn⟩
  have hle := Region.pixelEnd_le h hpixel
  simp only [Region.pixelEnd] at hle
  omega

/-! ## Mappers -/

theorem liftLevels_ok {x : Except (LevelsError ℓ) α} {f : α → β} {b : β}
    (h : liftLevels (f <$> x) = .ok b) : ∃ a, x = .ok a ∧ f a = b := by
  cases x with
  | error e => cases h
  | ok a => cases h; exact ⟨a, rfl, rfl⟩

theorem checkCounters_ok : ∀ {start : Nat} {sizes : List Nat} {mappers : List (Mapper σ)},
    (checkCounters start sizes mappers : Except (RequestError ℓ) Unit) = .ok () →
    ∀ (channel : Nat) m size, mappers[channel]? = some m → sizes[channel]? = some size →
      m.bins ≤ size
  | _, [], _, _ => by simp
  | _, _ :: _, [], _ => by simp
  | start, size :: sizes, m :: mappers, h => by
    obtain ⟨_, h1, h⟩ := bind_ok h
    intro channel m' size' hm hsize
    cases channel with
    | zero =>
      cases hm
      cases hsize
      exact ensure_ok h1
    | succ channel => exact checkCounters_ok h channel m' size' hm hsize

section
variable [Level ℓ]

/-- The mapper that a request gives for one channel, if its levels make bins. -/
def Binning.mapper? (b : Binning ℓ) (toLevel : σ → ℓ) (channel : Nat) : Option (Mapper σ) :=
  match b with
  | .even levels lower upper => do
    let m ← (EqualBins.build (← levels[channel]?) (← lower[channel]?) (← upper[channel]?)).toOption
    return m.mapper toLevel
  | .range levels => do
    let m ← (BoundaryBins.build (← levels[channel]?)).toOption
    return m.mapper toLevel

theorem Binning.mapper?_even {levels : List Nat} {lower upper : List ℓ} {toLevel : σ → ℓ}
    {channel : Nat} {m : Mapper σ} :
    (Binning.even levels lower upper).mapper? toLevel channel = some m ↔
      ∃ e : EqualBins ℓ, levels[channel]? = some (e.bins + 1) ∧ lower[channel]? = some e.lower ∧
        upper[channel]? = some e.upper ∧ e.mapper toLevel = m := by
  simp only [Binning.mapper?, Option.bind_eq_bind, Option.bind_eq_some_iff, toOption_eq_some,
    EqualBins.build_ok, Option.pure_def, Option.some.injEq]
  constructor
  · rintro ⟨_, hlevels, _, hlower, _, hupper, e, ⟨rfl, rfl, rfl⟩, he⟩
    exact ⟨e, hlevels, hlower, hupper, he⟩
  · rintro ⟨e, hlevels, hlower, hupper, he⟩
    exact ⟨_, hlevels, _, hlower, _, hupper, e, ⟨rfl, rfl, rfl⟩, he⟩

theorem Binning.mapper?_range {levels : List (Array ℓ)} {toLevel : σ → ℓ} {channel : Nat}
    {m : Mapper σ} :
    (Binning.range levels).mapper? toLevel channel = some m ↔
      ∃ e : BoundaryBins ℓ, levels[channel]? = some e.boundaries ∧ e.mapper toLevel = m := by
  simp only [Binning.mapper?, Option.bind_eq_bind, Option.bind_eq_some_iff, toOption_eq_some,
    BoundaryBins.build_ok, Option.pure_def, Option.some.injEq]
  constructor
  · rintro ⟨_, hlevels, e, rfl, he⟩
    exact ⟨e, hlevels, he⟩
  · rintro ⟨e, hlevels, he⟩
    exact ⟨_, hlevels, e, rfl, he⟩

/-- One mapper per active channel, and the one that the request gives for it. -/
theorem mappers_ok {b : Binning ℓ} {active : Nat} {toLevel : σ → ℓ} {mappers : List (Mapper σ)}
    (h : b.mappers active toLevel = .ok mappers) :
    mappers.length = active ∧
      ∀ (channel : Nat) m, mappers[channel]? = some m → b.mapper? toLevel channel = some m := by
  cases b with
  | even levels lower upper =>
    obtain ⟨_, h1, h⟩ := bind_ok h
    obtain ⟨_, h2, h⟩ := bind_ok h
    obtain ⟨_, h3, h⟩ := bind_ok h
    have h1 := ensure_ok h1
    have h2 := ensure_ok h2
    have h3 := ensure_ok h3
    obtain ⟨hlen, hget⟩ := mapM_ok h
    refine ⟨by simp [hlen, h1, h2, h3], fun channel m hm => ?_⟩
    obtain ⟨⟨n, lo, up⟩, hzip, hbuild⟩ := hget channel m hm
    obtain ⟨hn, hzip⟩ := List.getElem?_zip_eq_some.1 hzip
    obtain ⟨hlo, hup⟩ := List.getElem?_zip_eq_some.1 hzip
    obtain ⟨e, he, rfl⟩ := liftLevels_ok hbuild
    obtain ⟨rfl, rfl, rfl⟩ := EqualBins.build_ok.1 he
    exact Binning.mapper?_even.2 ⟨e, hn, hlo, hup, rfl⟩
  | range levels =>
    obtain ⟨_, h1, h⟩ := bind_ok h
    have h1 := ensure_ok h1
    obtain ⟨hlen, hget⟩ := mapM_ok h
    refine ⟨by rw [hlen, h1], fun channel m hm => ?_⟩
    obtain ⟨boundaries, hb, hbuild⟩ := hget channel m hm
    obtain ⟨e, he, rfl⟩ := liftLevels_ok hbuild
    obtain rfl := BoundaryBins.build_ok.1 he
    exact Binning.mapper?_range.2 ⟨e, hb, rfl⟩

/-! ## Requests -/

/-- What acceptance for counting says. -/
structure Accepted (r : Request σ ℓ) (format : SampleFormat σ ℓ) (counters : List Nat)
    (region : Region) (mappers : List (Mapper σ)) : Prop where
  region_eq : region = r.region format
  length_eq : mappers.length = counters.length
  active_le : counters.length ≤ r.channels
  mapper_eq : ∀ (channel : Nat) m, mappers[channel]? = some m →
    r.binning.mapper? format.toLevel channel = some m
  bins_le : ∀ (channel : Nat) m size, mappers[channel]? = some m →
    counters[channel]? = some size → m.bins ≤ size
  sample_lt : ∀ row column channel, row < region.rows → column < region.columns →
    channel < r.channels →
    row * region.stride + column * r.channels + channel < r.samples.size

/-- All that an accepted request has passed, and the task it is accepted for. -/
theorem accept_ok {r : Request σ ℓ} {format : SampleFormat σ ℓ} {counters : List Nat}
    {task : Task σ} (h : r.accept format counters = .ok task) :
    ∃ mappers, r.binning.mappers counters.length format.toLevel = .ok mappers ∧
      counters.length ≤ r.channels ∧
      ((r.storage = none ∧ task = .sizing) ∨
        r.storage.isSome ∧
        (checkCounters 0 counters mappers : Except (RequestError ℓ) Unit) = .ok () ∧
        ((r.region format).check r.channels r.samples.size : Except (RequestError ℓ) Unit) =
          .ok () ∧
        task = .counting (r.region format) mappers) := by
  unfold Request.accept at h
  obtain ⟨⟨columns, rows, rowBytes⟩, hframe, h⟩ := bind_ok h
  obtain ⟨_, hactive, h⟩ := bind_ok h
  obtain ⟨mappers, hmappers, h⟩ := bind_ok h
  obtain ⟨_, -, h⟩ := bind_ok h
  refine ⟨mappers, hmappers, (ensure_ok hactive).2, ?_⟩
  cases hstorage : r.storage with
  | none =>
    rw [hstorage] at h
    cases h
    exact .inl ⟨rfl, rfl⟩
  | some provided =>
    rw [hstorage] at h
    obtain ⟨_, -, h⟩ := bind_ok h
    obtain ⟨_, hcounters, h⟩ := bind_ok h
    obtain ⟨_, hcheck, h⟩ := bind_ok h
    cases h
    rw [frame_ok hframe]
    exact .inr ⟨rfl, hcounters, hcheck, rfl⟩

theorem accept_counting {r : Request σ ℓ} {format : SampleFormat σ ℓ} {counters : List Nat}
    {region : Region} {mappers : List (Mapper σ)}
    (h : r.accept format counters = .ok (.counting region mappers)) :
    Accepted r format counters region mappers := by
  obtain ⟨mappers', hmappers, hactive, htask⟩ := accept_ok h
  rcases htask with ⟨-, htask⟩ | ⟨-, hcounters, hcheck, htask⟩
  · cases htask
  · cases htask
    obtain ⟨hlen, hget⟩ := mappers_ok hmappers
    exact
      { region_eq := rfl
        length_eq := hlen
        active_le := hactive
        mapper_eq := hget
        bins_le := checkCounters_ok hcounters
        sample_lt := fun row column channel => lt_of_check hcheck }

/-- The region of an accepted request passes the check. -/
theorem check_of_accept {r : Request σ ℓ} {format : SampleFormat σ ℓ} {counters : List Nat}
    {region : Region} {mappers : List (Mapper σ)}
    (h : r.accept format counters = .ok (.counting region mappers)) :
    (region.check r.channels r.samples.size : Except (RequestError ℓ) Unit) = .ok () := by
  obtain ⟨_, -, -, htask⟩ := accept_ok h
  rcases htask with ⟨-, htask⟩ | ⟨-, -, hcheck, htask⟩
  · cases htask
  · cases htask
    exact hcheck

/-- Without storage a request asks for its size, and with storage it counts. -/
theorem task_of_accept {r : Request σ ℓ} {format : SampleFormat σ ℓ} {counters : List Nat}
    {task : Task σ} (h : r.accept format counters = .ok task) :
    (r.storage = none ∧ task = .sizing) ∨
      (r.storage.isSome ∧ ∃ region mappers, task = .counting region mappers) := by
  obtain ⟨mappers, -, -, htask⟩ := accept_ok h
  rcases htask with hsizing | ⟨hreal, -, -, htask⟩
  · exact .inl hsizing
  · exact .inr ⟨hreal, _, _, htask⟩

end

end LaneGrid
