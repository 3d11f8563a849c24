/-!
# Machine words

Integers of a fixed width, with or without a sign: the samples, levels and counters of a histogram
and the values of a scan.

* `IntKind`: how many bits, and whether the top one is a sign.
* `Word k`: a bit pattern of kind `k`. `Word.toInt` is the integer it stands for and `Word.ofInt`
  the pattern of an integer modulo `2 ^ k.bits`; `toInt_ofInt` says that reading a pattern back
  loses nothing exactly on the kind's range.
* `Word.widen`: the same integer in a kind that holds all values of the first one.
-/

namespace LaneGrid

/-- A kind of integer: its width in bits, and whether its top bit is a sign. -/
structure IntKind where
  signed : Bool
  bits : Nat
  bits_pos : 0 < bits := by decide
deriving DecidableEq

namespace IntKind

def u8 : IntKind := { signed := false, bits := 8 }
def u16 : IntKind := { signed := false, bits := 16 }
def u32 : IntKind := { signed := false, bits := 32 }
def u64 : IntKind := { signed := false, bits := 64 }
def i8 : IntKind := { signed := true, bits := 8 }
def i16 : IntKind := { signed := true, bits := 16 }
def i32 : IntKind := { signed := true, bits := 32 }
def i64 : IntKind := { signed := true, bits := 64 }

/-- The least integer of the kind. -/
def least (k : IntKind) : Int := if k.signed then -(Nat.pow 2 (k.bits - 1) : Nat) else 0

/-- One more than the greatest integer of the kind. -/
def limit (k : IntKind) : Int := Nat.pow 2 (if k.signed then k.bits - 1 else k.bits)

/-- Every integer of kind `j` is one of kind `k`. -/
def Fits (j k : IntKind) : Prop := k.least ≤ j.least ∧ j.limit ≤ k.limit

instance (j k : IntKind) : Decidable (j.Fits k) := inferInstanceAs (Decidable (_ ∧ _))

/-- Bytes that one value takes in memory. -/
def bytes (k : IntKind) : Nat := k.bits / 8

end IntKind

/-- A bit pattern of kind `k`. -/
@[ext] structure Word (k : IntKind) where
  bits : BitVec k.bits
deriving DecidableEq

namespace Word

variable {k : IntKind}

/-- The integer that a word stands for, in two's complement when the kind is signed. -/
def toInt (w : Word k) : Int := if k.signed then w.bits.toInt else w.bits.toNat

/-- The word of an integer, which wraps around at the kind's width. -/
def ofInt (i : Int) : Word k := ⟨BitVec.ofInt k.bits i⟩

def zero : Word k := ⟨0#k.bits⟩

/-! ## Arithmetic and bits -/

/-- The sum, wrapping. -/
def add (a b : Word k) : Word k := ⟨a.bits + b.bits⟩

/-- The product, wrapping. -/
def mul (a b : Word k) : Word k := ⟨a.bits * b.bits⟩

def and (a b : Word k) : Word k := ⟨a.bits &&& b.bits⟩
def or (a b : Word k) : Word k := ⟨a.bits ||| b.bits⟩
def xor (a b : Word k) : Word k := ⟨a.bits ^^^ b.bits⟩

/-- The bits of `w` in kind `j`: the low ones if `j` is narrower, zeros above if it is wider. -/
def recast (j : IntKind) (w : Word k) : Word j := ⟨w.bits.setWidth j.bits⟩

/-- The same integer in a kind that holds every integer of kind `k`. -/
def widen {j : IntKind} (_ : k.Fits j) (w : Word k) : Word j := ofInt w.toInt

/-! ## Order -/

/-- The order of the integers that words stand for. -/
def le (a b : Word k) : Bool := decide (a.toInt ≤ b.toInt)

def lt (a b : Word k) : Bool := decide (a.toInt < b.toInt)

/-- The decimal text of the integer. -/
def text (w : Word k) : String := toString w.toInt

/-! ## Reading back -/

theorem toInt_of_signed (h : k.signed = true) (w : Word k) : w.toInt = w.bits.toInt := by
  simp [toInt, h]

theorem toInt_of_unsigned (h : k.signed = false) (w : Word k) : w.toInt = w.bits.toNat := by
  simp [toInt, h]

/-- A word's integer lies in its kind's range. -/
theorem toInt_mem (w : Word k) : k.least ≤ w.toInt ∧ w.toInt < k.limit := by
  unfold IntKind.least IntKind.limit
  simp only [Nat.pow_eq]
  cases hs : k.signed
  · rw [toInt_of_unsigned hs]
    have := w.bits.isLt
    simp only [Bool.false_eq_true, if_false]
    omega
  · rw [toInt_of_signed hs]
    have h1 := BitVec.le_toInt w.bits
    have h2 := BitVec.toInt_lt (x := w.bits)
    simp only [if_true]
    push_cast
    exact ⟨h1, h2⟩

/-- An integer in the kind's range is read back from its word. -/
theorem toInt_ofInt {i : Int} (hl : k.least ≤ i) (hu : i < k.limit) :
    (ofInt i : Word k).toInt = i := by
  unfold IntKind.least at hl
  unfold IntKind.limit at hu
  simp only [Nat.pow_eq] at hl hu
  cases hs : k.signed <;> simp only [hs, Bool.false_eq_true, if_false, if_true] at hl hu
  · rw [toInt_of_unsigned hs]
    simp only [ofInt, BitVec.toNat_ofInt]
    rw [Int.emod_eq_of_lt hl hu]
    omega
  · rw [toInt_of_signed hs]
    simp only [ofInt, BitVec.toInt_ofInt]
    have e : 2 ^ k.bits = 2 * 2 ^ (k.bits - 1) := by
      rw [← Nat.pow_succ', Nat.succ_eq_add_one, Nat.sub_add_cancel k.bits_pos]
    exact Int.bmod_eq_of_le (by omega) (by omega)

end Word

end LaneGrid
