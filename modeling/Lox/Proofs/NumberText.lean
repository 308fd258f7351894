import Mathlib
import Lox.Syntax.Printer
import Lox.Token.Lexer
/-!
A number's text names the number. A float is determined by what its bits decode to (NaN
included: a float holds only the canonical NaN). A finite magnitude owns an interval of the
rationals, the ones that round to it, and the intervals of two valid magnitudes do not meet
(`Binary.Rounds.unique`). The shortest digits of a magnitude denote a point of its own interval,
and the printers' texts are read back to that point by the lexer's digit fold, so a literal's text
determines the literal (`Literal.text_injective`).
-/
namespace Lox

/-! ### A float is its decoding -/

theorem Float.toBits_injective {x y : Float} (same : x.toBits = y.toBits) : x = y := by
  obtain ⟨⟨bx, vx⟩⟩ := x
  obtain ⟨⟨b, v⟩⟩ := y
  cases same
  rfl

namespace Double

/-- The bits of a double that is not NaN: the sign bit over the exponent and fraction fields. A
magnitude at exponent `e` lies `e + 1074` steps of the fraction field's range up, so a normal
mantissa's hidden bit is one step of the exponent field. -/
def bitsOf : Double → Nat
  | .finite negative b => (if negative then 2 ^ 63 else 0) + ((b.exponent + 1074).toNat * 2 ^ 52 + b.mantissa)
  | .infinity negative => (if negative then 2 ^ 63 else 0) + 2047 * 2 ^ 52
  | .nan => 0

theorem toNat_of_ofBits_finite {bits : UInt64} {negative : Bool} {b : Binary}
    (decoded : ofBits bits = .finite negative b) : bits.toNat = (Double.finite negative b).bitsOf := by
  have lt := bits.toNat_lt
  unfold ofBits fractionField exponentField at decoded
  simp only [Nat.pow_eq, Nat.reducePow] at decoded
  split_ifs at decoded with top zero <;> simp only [Double.finite.injEq] at decoded <;>
    obtain ⟨rfl, rfl⟩ := decoded <;> simp only [bitsOf, Nat.reducePow] <;>
    split <;> rename_i sign <;> simp only [decide_eq_true_eq] at sign <;> omega

theorem toNat_of_ofBits_infinity {bits : UInt64} {negative : Bool}
    (decoded : ofBits bits = .infinity negative) : bits.toNat = (Double.infinity negative).bitsOf := by
  have lt := bits.toNat_lt
  unfold ofBits fractionField exponentField at decoded
  simp only [Nat.pow_eq, Nat.reducePow] at decoded
  split_ifs at decoded with top payload
  simp only [Double.infinity.injEq] at decoded
  subst decoded
  simp only [bitsOf, Nat.reducePow]
  split <;> rename_i sign <;> simp only [decide_eq_true_eq] at sign <;> omega

/-- Decoding loses nothing but NaN payloads: the bits are read back from the decoded double. -/
theorem bitsOf_ofBits {bits : UInt64} (number : ofBits bits ≠ .nan) : (ofBits bits).bitsOf = bits.toNat := by
  rcases decoded : ofBits bits with _ | _ | _
  · exact (toNat_of_ofBits_finite decoded).symm
  · exact (toNat_of_ofBits_infinity decoded).symm
  · exact (number decoded).elim

theorem ofBits_nan {bits : UInt64} (nan : ofBits bits = .nan) :
    bits.toNat / 2 ^ 52 % 2 ^ 11 = 2047 ∧ bits.toNat % 2 ^ 52 ≠ 0 := by
  unfold ofBits fractionField exponentField at nan
  simp only [Nat.pow_eq] at nan
  split_ifs at nan with top payload
  exact ⟨top, payload⟩

theorem unpackExponent_eq_allOnes (bits : UInt64) :
    @Float.Model.UnpackedFloat.unpackExponent Float.Model.Format.binary64 bits.toBitVec = -1#11 ↔
      bits.toNat / 2 ^ 52 % 2 ^ 11 = 2047 := by
  rw [← BitVec.toNat_inj]
  simp [Float.Model.UnpackedFloat.unpackExponent, BitVec.extractLsb_toNat, Nat.shiftRight_eq_div_pow]

theorem unpackMantissa_eq_zero (bits : UInt64) :
    @Float.Model.UnpackedFloat.unpackMantissa Float.Model.Format.binary64 bits.toBitVec = 0#52 ↔
      bits.toNat % 2 ^ 52 = 0 := by
  rw [← BitVec.toNat_inj]
  simp [Float.Model.UnpackedFloat.unpackMantissa, BitVec.extractLsb_toNat]

/-- A float that decodes to NaN is the canonical NaN. -/
theorem toBitVec_of_nan {x : Float} (nan : ofFloat x = .nan) :
    x.toBits.toBitVec = Float.Model.UnpackedFloat.packedNaN Float.Model.Format.binary64 := by
  obtain ⟨top, payload⟩ := ofBits_nan nan
  exact x.toModel.valid.eq_packedNaN ((unpackExponent_eq_allOnes _).2 top)
    (fun zero => payload ((unpackMantissa_eq_zero _).1 zero))

/-- Floats are determined by what they decode to: finite and infinite ones by their bits, and NaN
because a float holds only the one canonical NaN. -/
theorem ofFloat_injective {x y : Float} (same : ofFloat x = ofFloat y) : x = y := by
  apply Float.toBits_injective
  by_cases nan : ofFloat x = .nan
  · exact UInt64.toBitVec_inj.1 ((toBitVec_of_nan nan).trans (toBitVec_of_nan (same ▸ nan)).symm)
  · have other : ofBits y.toBits ≠ .nan := fun n => nan (same.trans n)
    apply UInt64.toNat_inj.1
    rw [← bitsOf_ofBits nan, ← bitsOf_ofBits other]
    exact congrArg bitsOf same

end Double

/-! ### The scanner's numbers are never NaN -/

section Model
open Float.Model Float.Model.UnpackedFloat

theorem roundWithAccuracy_ne_nan (spec : Format) (s : Sign) (m : ℕ) (e : ℤ) (a : Accuracy) :
    roundWithAccuracy spec s m e a ≠ .notANumber := by
  unfold roundWithAccuracy
  intro nan
  repeat' (dsimp only at nan; split at nan)
  all_goals cases nan

theorem normalize_ne_nan (spec : Format) (s : Sign) (m : ℕ) (e : ℤ) : UnpackedFloat.normalize spec m e s ≠ .notANumber := by
  unfold UnpackedFloat.normalize UnpackedFloat.round
  split <;> simp [roundWithAccuracy_ne_nan]

theorem ofScientific_ne_nan (spec : Format) (m : ℕ) (e : ℤ) : UnpackedFloat.ofScientific spec m e ≠ .notANumber := by
  unfold UnpackedFloat.ofScientific
  split_ifs
  all_goals simp [UnpackedFloat.mul, UnpackedFloat.div, roundWithAccuracy_ne_nan]

theorem pack_mantissa_of_allOnes {f : UnpackedFloat} (hf : f ≠ .notANumber) :
    unpackExponent (UnpackedFloat.pack Format.binary64 f) = -1#11 →
      unpackMantissa (UnpackedFloat.pack Format.binary64 f) = 0#52 := by
  fun_cases UnpackedFloat.pack with
  | case1 => exact absurd rfl hf
  | case2 s => intro _; simp [packedInfinity]
  | case3 s => simp [packedZero]
  | case4 s m e hm biasedExponent h => intro _; simp [packedInfinity]
  | case5 s m e hm actualMantissaBits biasedExponent h₁ h₂ =>
    -- a normal number's biased exponent is below all ones
    simp only at h₁
    simp [BitVec.neg_one_eq_allOnes, ← BitVec.toNat_inj]
    omega
  | case6 s m e hm actualMantissaBits biasedExponent h₁ h₂ =>
    simp
theorem unpack_pack_ne_nan {f : UnpackedFloat} (hf : f ≠ .notANumber) :
    UnpackedFloat.unpack Format.binary64 (UnpackedFloat.pack Format.binary64 f) ≠ .notANumber := by
  have fraction := pack_mantissa_of_allOnes hf
  unfold UnpackedFloat.unpack
  intro nan
  dsimp only at nan
  split_ifs at nan with top payload
  exact payload (fraction top)

/-- Finite and not NaN, the unpacked forms the powers of ten are divided or multiplied by. -/
def unpackedFinite : UnpackedFloat → Bool
  | .finite .. => true
  | _ => false

theorem div_ne_nan (spec : Format) {x y : UnpackedFloat} (hx : x ≠ .notANumber) (hy : unpackedFinite y = true) :
    UnpackedFloat.div spec x y ≠ .notANumber := by
  cases y <;> simp only [unpackedFinite, Bool.false_eq_true] at hy
  cases x <;> simp [UnpackedFloat.div, roundWithAccuracy_ne_nan] at hx ⊢

theorem mul_ne_nan (spec : Format) {x y : UnpackedFloat} (hx : x ≠ .notANumber) (hy : unpackedFinite y = true) :
    UnpackedFloat.mul spec x y ≠ .notANumber := by
  cases y <;> simp only [unpackedFinite, Bool.false_eq_true] at hy
  cases x <;> simp [UnpackedFloat.mul, roundWithAccuracy_ne_nan] at hx ⊢

theorem powersOfTen_finite : Float.exactlyRepresentablePowersOfTen.toList.all
    (fun p => unpackedFinite (UnpackedFloat.unpack Format.binary64 p.toModel.toBits.toBitVec)) = true := by
  decide

end Model

theorem Double.ofFloat_pack_ne_nan {f : Float.Model.UnpackedFloat} (hf : f ≠ .notANumber) :
    Double.ofFloat (Float.ofModel (Float.Model.pack f)) ≠ .nan := by
  intro nan
  obtain ⟨top, payload⟩ := Double.ofBits_nan nan
  exact payload ((Double.unpackMantissa_eq_zero _).1
    (pack_mantissa_of_allOnes hf ((Double.unpackExponent_eq_allOnes _).2 top)))

/-- The numbers the scanner reads are never NaN: `m · 10 ^ ±e` rounds to a finite double, or
overflows to an infinity. -/
theorem Double.ofFloat_ofScientific_ne_nan (m : ℕ) (s : Bool) (e : ℕ) :
    Double.ofFloat (Float.ofScientific m s e) ≠ .nan := by
  unfold Float.ofScientific
  split
  · -- both factors are doubles, and the power of ten is a finite one
    rename_i fast
    have power : ∀ p ∈ Float.exactlyRepresentablePowersOfTen.toList,
        unpackedFinite (Float.Model.UnpackedFloat.unpack Float.Model.Format.binary64 p.toModel.toBits.toBitVec) = true :=
      List.all_eq_true.1 powersOfTen_finite
    have digits : Float.Model.UnpackedFloat.unpack Float.Model.Format.binary64
        m.toUInt64.toFloat.toModel.toBits.toBitVec ≠ .notANumber :=
      unpack_pack_ne_nan (normalize_ne_nan _ _ _ _)
    cases s
    · exact Double.ofFloat_pack_ne_nan (mul_ne_nan _ digits (power _ (Array.getElem_mem_toList _)))
    · exact Double.ofFloat_pack_ne_nan (div_ne_nan _ digits (power _ (Array.getElem_mem_toList _)))
  · exact Double.ofFloat_pack_ne_nan (ofScientific_ne_nan _ _ _)

/-! ### Magnitudes and the rationals that round to them -/

namespace Binary

/-- A magnitude the bits of a double can hold: a subnormal one at the least exponent, or a normal
one with its hidden bit; `narrowBelow` marks the least mantissa of a binade above the least. -/
structure Valid (b : Binary) : Prop where
  mantissa_lt : b.mantissa < 2 ^ 53
  exponent_ge : -1074 ≤ b.exponent
  exponent_le : b.exponent ≤ 971
  normal : b.exponent = -1074 ∨ 2 ^ 52 ≤ b.mantissa
  narrow : b.narrowBelow = decide (b.mantissa = 2 ^ 52 ∧ -1074 < b.exponent)

end Binary

theorem Double.ofBits_valid {bits : UInt64} {negative : Bool} {b : Binary}
    (decoded : ofBits bits = .finite negative b) : b.Valid := by
  have lt := bits.toNat_lt
  unfold ofBits fractionField exponentField at decoded
  simp only [Nat.pow_eq, Nat.reducePow] at decoded
  split_ifs at decoded with top zero <;> simp only [Double.finite.injEq] at decoded <;>
    obtain ⟨-, rfl⟩ := decoded
  · exact ⟨by dsimp only; omega, le_refl _, by dsimp only; omega, .inl rfl, by simp⟩
  · refine ⟨?_, ?_, ?_, .inr ?_, ?_⟩ <;> dsimp only
    any_goals omega
    simp only [decide_eq_decide]
    omega

namespace Binary

/-- The value `mantissa · 2 ^ exponent`. -/
def value (b : Binary) : ℚ := b.mantissa * 2 ^ b.exponent

/-- A quarter of the last place: the ends of the rounding interval are whole numbers of it. -/
def quarter (b : Binary) : ℚ := 2 ^ (b.exponent - 2)

/-- How many quarters the interval reaches below the value: one at the least mantissa of a
binade, where the next double down is half as far, else two. -/
def below (b : Binary) : ℕ := if b.narrowBelow then 1 else 2

/-- The lower end of the rounding interval, the midpoint to the next double down. -/
def lo (b : Binary) : ℚ := ((4 * b.mantissa : ℕ) - b.below : ℚ) * b.quarter

/-- The upper end of the rounding interval, the midpoint to the next double up. -/
def hi (b : Binary) : ℚ := ((4 * b.mantissa + 2 : ℕ) : ℚ) * b.quarter

/-- `q` rounds to `b`, to nearest with ties to even: it lies between the midpoints to the
neighbouring doubles, which belong to `b` when its mantissa is even. This is the interval that
`onGrid` tests its candidates against. -/
def Rounds (b : Binary) (q : ℚ) : Prop :=
  if b.mantissa % 2 = 0 then b.lo ≤ q ∧ q ≤ b.hi else b.lo < q ∧ q < b.hi

variable {b b₁ b₂ : Binary} {q : ℚ}

theorem quarter_pos (b : Binary) : 0 < b.quarter := zpow_pos (by norm_num) _

theorem below_pos (b : Binary) : 0 < b.below := by
  unfold below
  split <;> omega

theorem value_eq_quarter (b : Binary) : b.value = ((4 * b.mantissa : ℕ) : ℚ) * b.quarter := by
  have four : (2 : ℚ) ^ b.exponent = 2 ^ (b.exponent - 2) * 4 := by
    rw [show (4 : ℚ) = 2 ^ (2 : ℤ) by norm_num, ← zpow_add₀ (by norm_num)]
    ring_nf
  rw [value, quarter, four]
  push_cast
  ring

theorem rounds_value (b : Binary) : b.Rounds b.value := by
  have q := b.quarter_pos
  have δ : (0 : ℚ) < b.below := by exact_mod_cast b.below_pos
  have above : b.lo < b.value := by
    rw [value_eq_quarter, lo]
    exact mul_lt_mul_of_pos_right (by linarith) q
  have under : b.value < b.hi := by
    rw [value_eq_quarter, hi]
    exact mul_lt_mul_of_pos_right (by push_cast; linarith) q
  unfold Rounds
  split
  · exact ⟨above.le, under.le⟩
  · exact ⟨above, under⟩

theorem Rounds.le_hi (r : b.Rounds q) : q ≤ b.hi := by
  unfold Rounds at r
  split at r
  · exact r.2
  · exact r.2.le

theorem Rounds.lo_le (r : b.Rounds q) : b.lo ≤ q := by
  unfold Rounds at r
  split at r
  · exact r.1
  · exact r.1.le

theorem Rounds.lt_hi (r : b.Rounds q) (odd : b.mantissa % 2 = 1) : q < b.hi := by
  unfold Rounds at r
  rw [if_neg (by omega)] at r
  exact r.2

theorem Rounds.lo_lt (r : b.Rounds q) (odd : b.mantissa % 2 = 1) : b.lo < q := by
  unfold Rounds at r
  rw [if_neg (by omega)] at r
  exact r.1

theorem Valid.below_eq (v : b.Valid) :
    b.below = if b.mantissa = 2 ^ 52 ∧ -1074 < b.exponent then 1 else 2 := by
  rw [below, v.narrow]
  split <;> simp_all

/-- Counted in quarters of `b₁`'s last place, the interval of `b₁` ends where the interval of a
valid magnitude `k` binades up, or one place up at the same exponent, begins at the earliest; the
two meet only where one of the mantissas is odd, and then the meeting point belongs to neither. -/
theorem Valid.hi_le_lo_nat (v₁ : b₁.Valid) (v₂ : b₂.Valid) {k : ℕ} (shift : b₂.exponent = b₁.exponent + k)
    (order : 0 < k ∨ b₁.mantissa < b₂.mantissa) :
    4 * b₁.mantissa + 2 ≤ (4 * b₂.mantissa - b₂.below) * 2 ^ k ∧
      (4 * b₁.mantissa + 2 = (4 * b₂.mantissa - b₂.below) * 2 ^ k →
        b₁.mantissa % 2 = 1 ∨ b₂.mantissa % 2 = 1) := by
  have below := v₂.below_eq
  have m₁ := v₁.mantissa_lt
  have e₁ := v₁.exponent_ge
  match k, order with
  | 0, .inr lt =>
    simp only [pow_zero, mul_one]
    split at below <;> omega
  | 1, _ =>
    -- one binade up, `b₂` is normal: it begins at `2 ^ 54` quarters less its gap below
    have normal := v₂.normal
    simp only [pow_one]
    split at below <;> omega
  | k + 2, _ =>
    have normal := v₂.normal
    have four : (4 * b₂.mantissa - b₂.below) * 4 ≤ (4 * b₂.mantissa - b₂.below) * 2 ^ (k + 2) :=
      Nat.mul_le_mul_left _ (by rw [pow_add]; exact Nat.le_mul_of_pos_left 4 (by positivity))
    split at below <;> omega

/-- `b₂` comes after `b₁`: a larger exponent, or a larger mantissa at the same exponent. -/
def Precedes (b₁ b₂ : Binary) : Prop :=
  b₁.exponent < b₂.exponent ∨ b₁.exponent = b₂.exponent ∧ b₁.mantissa < b₂.mantissa

/-- The interval of a valid magnitude lies below the interval of any that comes after it; where
they touch, the point belongs to one at most. -/
theorem Valid.not_rounds_of_precedes (v₁ : b₁.Valid) (v₂ : b₂.Valid) (p : Precedes b₁ b₂)
    (r₁ : b₁.Rounds q) (r₂ : b₂.Rounds q) : False := by
  obtain ⟨k, shift, order⟩ : ∃ k : ℕ, b₂.exponent = b₁.exponent + k ∧ (0 < k ∨ b₁.mantissa < b₂.mantissa) := by
    rcases p with up | ⟨same, lt⟩
    · exact ⟨(b₂.exponent - b₁.exponent).toNat, by omega, .inl (by omega)⟩
    · exact ⟨0, by omega, .inr lt⟩
  obtain ⟨le, meet⟩ := v₁.hi_le_lo_nat v₂ shift order
  have started : b₂.below ≤ 4 * b₂.mantissa := by
    have below := v₂.below_eq
    have normal := v₂.normal
    have least := v₁.exponent_ge
    split at below <;> omega
  have quarter : b₂.quarter = 2 ^ k * b₁.quarter := by
    rw [quarter, quarter, shift, ← zpow_natCast, ← zpow_add₀ (by norm_num)]
    ring_nf
  -- the same comparison in the rationals, with both ends counted in quarters of `b₁`
  have lo₂ : b₂.lo = (((4 * b₂.mantissa - b₂.below) * 2 ^ k : ℕ) : ℚ) * b₁.quarter := by
    rw [lo, quarter]
    push_cast [Nat.cast_sub started]
    ring
  have ends : b₁.hi ≤ b₂.lo := by
    rw [hi, lo₂]
    exact mul_le_mul_of_nonneg_right (by exact_mod_cast le) b₁.quarter_pos.le
  have touch : q = b₁.hi ∧ q = b₂.lo :=
    ⟨le_antisymm r₁.le_hi (ends.trans r₂.lo_le), le_antisymm (r₁.le_hi.trans ends) r₂.lo_le⟩
  have same : 4 * b₁.mantissa + 2 = (4 * b₂.mantissa - b₂.below) * 2 ^ k := by
    have := touch.1.symm.trans touch.2
    rw [hi, lo₂] at this
    exact_mod_cast mul_right_cancel₀ b₁.quarter_pos.ne' this
  rcases meet same with odd | odd
  · exact (r₁.lt_hi odd).ne touch.1
  · exact (r₂.lo_lt odd).ne touch.2.symm

/-- No rational rounds to two valid magnitudes. -/
theorem Rounds.unique (v₁ : b₁.Valid) (v₂ : b₂.Valid) (r₁ : b₁.Rounds q) (r₂ : b₂.Rounds q) : b₁ = b₂ := by
  rcases lt_trichotomy b₁.exponent b₂.exponent with up | same | down
  · exact (v₁.not_rounds_of_precedes v₂ (.inl up) r₁ r₂).elim
  · rcases lt_trichotomy b₁.mantissa b₂.mantissa with less | equal | more
    · exact (v₁.not_rounds_of_precedes v₂ (.inr ⟨same, less⟩) r₁ r₂).elim
    · -- the same place: `narrowBelow` follows from the two
      obtain ⟨m₁, e₁, n₁⟩ := b₁
      obtain ⟨m₂, e₂, n₂⟩ := b₂
      have narrow₁ := v₁.narrow
      have narrow₂ := v₂.narrow
      simp only at same equal narrow₁ narrow₂
      subst same equal
      rw [narrow₁, narrow₂]
    · exact (v₂.not_rounds_of_precedes v₁ (.inr ⟨same.symm, more⟩) r₂ r₁).elim
  · exact (v₂.not_rounds_of_precedes v₁ (.inl down) r₂ r₁).elim

/-! ### The grids the digits are sought on -/

/-- How many units of `onGrid`'s whole-number comparisons a quarter of the last place makes. -/
def gridLeft (b : Binary) (g : ℤ) : ℕ := Nat.pow 2 (b.exponent - 2).toNat * Nat.pow 10 (-g).toNat

/-- How many units of `onGrid`'s whole-number comparisons a step of the grid `10 ^ g` makes. -/
def gridRight (b : Binary) (g : ℤ) : ℕ := Nat.pow 2 (-(b.exponent - 2)).toNat * Nat.pow 10 g.toNat

/-- `onGrid`'s test of the candidate `c` steps of the grid `10 ^ g`: the rounding interval,
compared in whole numbers. -/
def insideGrid (b : Binary) (g : ℤ) (c : ℕ) : Bool :=
  if b.mantissa % 2 = 0 then
    (4 * b.mantissa - b.below) * b.gridLeft g ≤ c * b.gridRight g &&
      c * b.gridRight g ≤ (4 * b.mantissa + 2) * b.gridLeft g
  else
    (4 * b.mantissa - b.below) * b.gridLeft g < c * b.gridRight g &&
      c * b.gridRight g < (4 * b.mantissa + 2) * b.gridLeft g

/-- The size of `onGrid`'s unit, as a fraction of one: both sides of its comparisons are the
rationals compared, over this. -/
def gridFactor (b : Binary) (g : ℤ) : ℚ := 2 ^ (-(b.exponent - 2)).toNat * 10 ^ (-g).toNat

theorem gridFactor_pos (b : Binary) (g : ℤ) : 0 < b.gridFactor g := by
  unfold gridFactor
  positivity

theorem zpow_mul_pow_toNat_neg {x : ℚ} (nonzero : x ≠ 0) (p : ℤ) : x ^ p * x ^ (-p).toNat = x ^ p.toNat := by
  rw [← zpow_natCast, ← zpow_natCast, ← zpow_add₀ nonzero]
  congr 1
  omega

theorem cast_gridLeft (a : ℕ) (g : ℤ) : ((a * b.gridLeft g : ℕ) : ℚ) = a * b.quarter * b.gridFactor g := by
  rw [gridLeft, gridFactor, quarter]
  simp only [Nat.pow_eq]
  push_cast
  rw [← zpow_mul_pow_toNat_neg (x := (2 : ℚ)) (by norm_num) (b.exponent - 2)]
  ring

theorem cast_gridRight (c : ℕ) (g : ℤ) : ((c * b.gridRight g : ℕ) : ℚ) = c * 10 ^ g * b.gridFactor g := by
  rw [gridRight, gridFactor]
  simp only [Nat.pow_eq]
  push_cast
  rw [← zpow_mul_pow_toNat_neg (x := (10 : ℚ)) (by norm_num) g]
  ring

/-- `onGrid`'s whole-number test is the rounding interval. -/
theorem insideGrid_iff (pos : 0 < b.mantissa) (g : ℤ) (c : ℕ) :
    b.insideGrid g c = true ↔ b.Rounds (c * 10 ^ g) := by
  have started : b.below ≤ 4 * b.mantissa := by
    unfold below
    split <;> omega
  have lo : (((4 * b.mantissa - b.below) * b.gridLeft g : ℕ) : ℚ) = b.lo * b.gridFactor g := by
    rw [cast_gridLeft, lo, Nat.cast_sub started]
  have hi : (((4 * b.mantissa + 2) * b.gridLeft g : ℕ) : ℚ) = b.hi * b.gridFactor g := by
    rw [cast_gridLeft, hi]
  have factor := b.gridFactor_pos g
  unfold insideGrid Rounds
  split
  · rw [Bool.and_eq_true, decide_eq_true_iff, decide_eq_true_iff, ← Nat.cast_le (α := ℚ),
      ← Nat.cast_le (α := ℚ), lo, hi, cast_gridRight, mul_le_mul_iff_of_pos_right factor,
      mul_le_mul_iff_of_pos_right factor]
  · rw [Bool.and_eq_true, decide_eq_true_iff, decide_eq_true_iff, ← Nat.cast_lt (α := ℚ),
      ← Nat.cast_lt (α := ℚ), lo, hi, cast_gridRight, mul_lt_mul_iff_of_pos_right factor,
      mul_lt_mul_iff_of_pos_right factor]

/-- What `onGrid` finds passes its test. -/
theorem onGrid_inside {tie : Tie} {g : ℤ} {c : ℕ} (found : b.onGrid tie g = some c) :
    b.insideGrid g c = true := by
  simp only [onGrid] at found
  -- it returns one of the two neighbours, and only one that passed
  split at found
  · rename_i inDown inUp
    repeat' split at found
    all_goals (cases found; first | exact inDown | exact inUp)
  · rename_i inDown _
    cases found
    exact inDown
  · rename_i _ inUp
    cases found
    exact inUp
  · cases found

/-- On a grid no coarser than a quarter of the last place, the neighbour below the value lies
strictly inside the interval. -/
theorem insideGrid_down (pos : 0 < b.mantissa) {g : ℤ} (fine : (10 : ℚ) ^ g ≤ b.quarter) :
    b.insideGrid g (4 * b.mantissa * b.gridLeft g / b.gridRight g) = true := by
  have step : 1 * b.gridRight g ≤ 1 * b.gridLeft g := by
    have le : ((1 * b.gridRight g : ℕ) : ℚ) ≤ ((1 * b.gridLeft g : ℕ) : ℚ) := by
      rw [cast_gridRight, cast_gridLeft]
      simpa using mul_le_mul_of_nonneg_right fine (b.gridFactor_pos g).le
    exact_mod_cast le
  have unit : 0 < b.gridRight g := by
    simp only [gridRight, Nat.pow_eq]
    positivity
  have started : b.below ≤ 4 * b.mantissa := by
    unfold below
    split <;> omega
  have gap := b.below_pos
  -- the candidate is within one step below the value, and a step is at most a quarter
  have under := Nat.div_mul_le_self (4 * b.mantissa * b.gridLeft g) (b.gridRight g)
  have above := Nat.lt_div_mul_add (a := 4 * b.mantissa * b.gridLeft g) unit
  have lower : (4 * b.mantissa - b.below) * b.gridLeft g + b.below * b.gridLeft g =
      4 * b.mantissa * b.gridLeft g := by
    rw [← Nat.add_mul, Nat.sub_add_cancel started]
  have quarter : b.gridLeft g ≤ b.below * b.gridLeft g := Nat.le_mul_of_pos_left _ gap
  have upper : (4 * b.mantissa + 2) * b.gridLeft g = 4 * b.mantissa * b.gridLeft g + 2 * b.gridLeft g := by
    ring
  unfold insideGrid
  split <;> simp only [Bool.and_eq_true, decide_eq_true_eq] <;> omega

/-- `onGrid` finds a digit wherever the neighbour below the value passes its test. -/
theorem onGrid_ne_none {tie : Tie} {g : ℤ}
    (inside : b.insideGrid g (4 * b.mantissa * b.gridLeft g / b.gridRight g) = true) :
    b.onGrid tie g ≠ none := by
  intro none
  simp only [onGrid] at none
  split at none
  · repeat' split at none
    all_goals cases none
  · cases none
  · cases none
  · rename_i inDown _
    exact Bool.false_ne_true (inDown.symm.trans inside)

/-- Started `fuel - 1` grids above one that is fine enough, the search ends on a grid where
`onGrid` found the digits it returns. -/
theorem onGrid_searchFrom (pos : 0 < b.mantissa) (tie : Tie) :
    ∀ (fuel : ℕ) (g : ℤ), 0 < fuel → (10 : ℚ) ^ (g + 1 - fuel) ≤ b.quarter →
      b.onGrid tie (b.searchFrom tie fuel g).exponent = some (b.searchFrom tie fuel g).digits := by
  intro fuel
  induction fuel with
  | zero => intro g none; omega
  | succ fuel ih =>
    intro g _ fine
    rw [searchFrom]
    split
    · rename_i c found
      exact found
    · rename_i missed
      rcases Nat.eq_zero_or_pos fuel with last | more
      · subst last
        exact absurd missed (onGrid_ne_none (insideGrid_down pos (by simpa using fine)))
      · exact ih (g - 1) more (by push_cast at fine ⊢; ring_nf at fine ⊢; exact fine)

/-- Ten to the `s` is at most two to the `t` when `s / t ≤ 3 / 10`, below `log 2 / log 10`. -/
theorem ten_pow_le_two_pow : ∀ s t : ℕ, 10 * s ≤ 3 * t → 10 ^ s ≤ 2 ^ t
  | 0, _, _ => Nat.one_le_two_pow
  | 1, t, le => calc 10 ^ 1 ≤ 2 ^ 4 := by norm_num
      _ ≤ 2 ^ t := Nat.pow_le_pow_right (by norm_num) (by omega)
  | 2, t, le => calc 10 ^ 2 ≤ 2 ^ 7 := by norm_num
      _ ≤ 2 ^ t := Nat.pow_le_pow_right (by norm_num) (by omega)
  | s + 3, t, le => calc 10 ^ (s + 3) = 10 ^ s * 1000 := by ring
      _ ≤ 2 ^ (t - 10) * 2 ^ 10 := Nat.mul_le_mul (ten_pow_le_two_pow s (t - 10) (by omega)) (by norm_num)
      _ = 2 ^ t := by rw [← pow_add, Nat.sub_add_cancel (by omega)]

/-- Two to the `a` is at most ten to the `c` when `a / c ≤ 33 / 10`, below `log 10 / log 2`. -/
theorem two_pow_le_ten_pow (a c : ℕ) (le : 10 * a ≤ 33 * c) : 2 ^ a ≤ 10 ^ c := by
  induction c using Nat.strong_induction_on generalizing a with
  | _ c ih =>
    rcases Nat.lt_or_ge c 10 with few | many
    · -- below ten places the bound is checked place by place
      calc 2 ^ a ≤ 2 ^ (33 * c / 10) := Nat.pow_le_pow_right (by norm_num) (by omega)
        _ ≤ 10 ^ c := by interval_cases c <;> norm_num
    · rcases Nat.lt_or_ge a 33 with small | large
      · calc 2 ^ a ≤ 2 ^ 33 := Nat.pow_le_pow_right (by norm_num) small.le
          _ ≤ 10 ^ 10 := by norm_num
          _ ≤ 10 ^ c := Nat.pow_le_pow_right (by norm_num) many
      · calc 2 ^ a = 2 ^ (a - 33) * 2 ^ 33 := by rw [← pow_add, Nat.sub_add_cancel large]
          _ ≤ 10 ^ (c - 10) * 10 ^ 10 :=
            Nat.mul_le_mul (ih (c - 10) (by omega) (a - 33) (by omega)) (by norm_num)
          _ = 10 ^ c := by rw [← pow_add, Nat.sub_add_cancel many]

/-- The search starts at most 39 grids above one that is fine enough: `startGrid` lies at most
one grid above the leading digit's, and 39 grids below that a step is no larger than a quarter of
the last place, over the whole range of exponents. -/
theorem fine_startGrid (v : b.Valid) (pos : 0 < b.mantissa) :
    (10 : ℚ) ^ (b.startGrid + 1 - 40) ≤ b.quarter := by
  have bits : Nat.log2 b.mantissa < 53 := (Nat.log2_lt pos.ne').2 v.mantissa_lt
  have low := v.exponent_ge
  have high := v.exponent_le
  -- the grid exponent, bounded above through the floor of the division
  have bound : (b.startGrid + 1 - 40) * 262144 ≤
      ((Nat.log2 b.mantissa + 1 : ℕ) + b.exponent) * 78913 - 38 * 262144 := by
    rw [startGrid, Int.fdiv_eq_ediv_of_nonneg _ (by norm_num)]
    omega
  generalize b.startGrid + 1 - 40 = s at bound ⊢
  rw [quarter]
  rcases le_or_gt 0 s with coarse | fine
  · -- compare the two powers as whole numbers
    have le := ten_pow_le_two_pow s.toNat (b.exponent - 2).toNat (by omega)
    rw [← Int.toNat_of_nonneg coarse, zpow_natCast,
      ← Int.toNat_of_nonneg (show 0 ≤ b.exponent - 2 by omega), zpow_natCast]
    exact_mod_cast le
  · rcases le_or_gt 0 (b.exponent - 2) with big | small
    · calc (10 : ℚ) ^ s ≤ 1 := zpow_le_one_of_nonpos₀ (by norm_num) fine.le
        _ ≤ 2 ^ (b.exponent - 2) := one_le_zpow₀ (by norm_num) big
    · -- both below one: compare the reciprocals as whole numbers
      have le := two_pow_le_ten_pow (-(b.exponent - 2)).toNat (-s).toNat (by omega)
      rw [show s = -((-s).toNat : ℤ) by omega,
        show b.exponent - 2 = -((-(b.exponent - 2)).toNat : ℤ) by omega, zpow_neg, zpow_neg,
        zpow_natCast, zpow_natCast]
      exact inv_anti₀ (by positivity) (by exact_mod_cast le)

end Binary

namespace Decimal

/-- The value `digits · 10 ^ exponent`. -/
def value (d : Decimal) : ℚ := d.digits * 10 ^ d.exponent

/-- Removing trailing zeros keeps the value. -/
theorem value_normalize (d : Decimal) : d.normalize.value = d.value := by
  fun_induction Decimal.normalize d with
  | case1 d strip ih =>
    rw [ih, value, value]
    obtain ⟨-, tens⟩ := strip
    have digits : d.digits = d.digits / 10 * 10 := (Nat.div_mul_cancel (Nat.dvd_of_mod_eq_zero tens)).symm
    conv_rhs => rw [digits]
    push_cast
    rw [zpow_add_one₀ (by norm_num)]
    ring
  | case2 => rfl

end Decimal

namespace Binary

/-- The shortest digits of a valid magnitude denote a rational that rounds to it. -/
theorem rounds_shortest {b : Binary} (v : b.Valid) (tie : Tie) : b.Rounds (b.shortest tie).value := by
  unfold shortest
  split
  · -- zero: its interval reaches below zero
    rename_i zero
    have below : (0 : ℚ) ≤ b.below := by positivity
    have quarter := b.quarter_pos
    simp only [Rounds, ↓reduceIte, Decimal.value, lo, hi, zero]
    constructor <;> push_cast <;> nlinarith
  · rename_i nonzero
    have pos : 0 < b.mantissa := Nat.pos_of_ne_zero nonzero
    rw [Decimal.value_normalize]
    have found := onGrid_searchFrom pos tie 40 b.startGrid (by norm_num) (fine_startGrid v pos)
    exact (insideGrid_iff pos _ _).1 (onGrid_inside found)

end Binary

/-! ### Reading a number's text back -/

/-- The number a decimal text denotes: its digits read as one whole number by the lexer's digit
fold, over ten to the number of digits after the point. -/
def numeralValue (cs : List Char) : ℚ :=
  (Lexer.digitsValue (cs.filter (· != '.')) : ℚ) / 10 ^ ((cs.dropWhile (· != '.')).drop 1).length

namespace Lexer

theorem digitsValue_append (xs ys : List Char) :
    digitsValue (xs ++ ys) = digitsValue xs * 10 ^ ys.length + digitsValue ys := by
  -- the fold from any start `n` adds `n` shifted past the digits read
  have shift : ∀ (ys : List Char) (n : ℕ), ys.foldl (fun n d => 10 * n + (d.toNat - 48)) n =
      n * 10 ^ ys.length + ys.foldl (fun n d => 10 * n + (d.toNat - 48)) 0 := by
    intro ys
    induction ys with
    | nil => simp
    | cons y ys ih =>
      intro n
      rw [List.foldl_cons, List.foldl_cons, ih, ih (10 * 0 + _), List.length_cons, pow_succ]
      ring
  rw [digitsValue, List.foldl_append, shift, ← digitsValue, ← digitsValue]

theorem digitsValue_digitChar {n : ℕ} (digit : n < 10) : digitsValue [n.digitChar] = n := by
  interval_cases n <;> rfl

/-- The lexer reads back the digits `Nat.repr` writes. -/
theorem digitsValue_toDigits (n : ℕ) : digitsValue (Nat.toDigits 10 n) = n := by
  induction n using Nat.strong_induction_on with
  | _ n ih =>
    rw [Nat.toDigits_eq_if (by norm_num)]
    split
    · exact digitsValue_digitChar ‹_›
    · rw [digitsValue_append, ih (n / 10) (by omega), digitsValue_digitChar (Nat.mod_lt n (by norm_num))]
      simp only [List.length_singleton, pow_one]
      omega

theorem digitsValue_zeros (k : ℕ) : digitsValue (Decimal.zeros k) = 0 := by
  induction k with
  | zero => rfl
  | succ k ih =>
    rw [Decimal.zeros, List.replicate_succ', ← Decimal.zeros, digitsValue_append, ih]
    rfl

/-- Leading zeros read as nothing. -/
theorem digitsValue_zeros_append (k : ℕ) (ys : List Char) :
    digitsValue (Decimal.zeros k ++ ys) = digitsValue ys := by
  rw [digitsValue_append, digitsValue_zeros, zero_mul, zero_add]

end Lexer

section Numerals

variable {s t : List Char}

theorem filter_point_of_not_mem (none : '.' ∉ s) : s.filter (· != '.') = s :=
  List.filter_eq_self.2 fun c mem => by
    have : c ≠ '.' := fun h => none (h ▸ mem)
    simpa using this

theorem dropWhile_point_of_not_mem (none : '.' ∉ s) (t : List Char) :
    (s ++ t).dropWhile (· != '.') = t.dropWhile (· != '.') := by
  induction s with
  | nil => rfl
  | cons c s ih =>
    have : c ≠ '.' := fun h => none (h ▸ List.mem_cons_self)
    rw [List.cons_append, List.dropWhile_cons_of_pos (by simpa using this)]
    exact ih fun mem => none (List.mem_cons_of_mem c mem)

/-- A numeral without a point denotes its digits. -/
theorem numeralValue_whole (none : '.' ∉ s) : numeralValue s = Lexer.digitsValue s := by
  have gone := dropWhile_point_of_not_mem none []
  rw [List.append_nil] at gone
  simp [numeralValue, filter_point_of_not_mem none, gone]

/-- A numeral with one point denotes its digits over ten to the number after the point. -/
theorem numeralValue_point (before : '.' ∉ s) (after : '.' ∉ t) :
    numeralValue (s ++ '.' :: t) = Lexer.digitsValue (s ++ t) / 10 ^ t.length := by
  have kept : (s ++ '.' :: t).filter (· != '.') = s ++ t := by
    rw [List.filter_append, filter_point_of_not_mem before, List.filter_cons_of_neg (by simp),
      filter_point_of_not_mem after]
  rw [numeralValue, kept, dropWhile_point_of_not_mem before, List.dropWhile_cons_of_neg (by simp)]
  rfl

theorem point_not_mem_toDigits (n : ℕ) : '.' ∉ Nat.toDigits 10 n := fun mem => by
  have := Nat.isDigit_of_mem_toDigits (by norm_num) (by norm_num) mem
  revert this
  decide

theorem point_not_mem_zeros (k : ℕ) : '.' ∉ Decimal.zeros k := by
  simp [Decimal.zeros, List.mem_replicate]

end Numerals

namespace Decimal

/-- The positional text of a decimal reads back as its value. -/
theorem numeralValue_positional (d : Decimal) : numeralValue d.positional.toList = d.value := by
  have digits : '.' ∉ d.digitText := by
    rw [digitText, Nat.toList_repr]
    exact point_not_mem_toDigits _
  have length : (d.digitText.length : ℤ) = d.pointAt - d.exponent := by
    rw [pointAt]
    ring
  have read : Lexer.digitsValue d.digitText = d.digits := by
    rw [digitText, Nat.toList_repr, Lexer.digitsValue_toDigits]
  unfold positional
  split
  · -- whole: the digits, then zeros
    rename_i whole
    rw [String.toList_ofList, numeralValue_whole (by simp [digits, point_not_mem_zeros]),
      Lexer.digitsValue_append, read, Lexer.digitsValue_zeros, value, zeros, List.length_replicate]
    push_cast
    rw [← zpow_natCast, Int.toNat_of_nonneg whole, add_zero]
  · rename_i fraction
    split
    · -- the point falls among the digits
      rename_i inside
      rw [String.toList_ofList,
        numeralValue_point (fun mem => digits (List.mem_of_mem_take mem))
          (fun mem => digits (List.mem_of_mem_drop mem)),
        List.take_append_drop, read, List.length_drop, value,
        show d.digitText.length - d.pointAt.toNat = (-d.exponent).toNat by omega, ← zpow_natCast,
        Int.toNat_of_nonneg (by omega), zpow_neg, div_eq_mul_inv, inv_inv]
    · -- the point comes first, after a zero and the zeros that place the digits
      rename_i before
      rw [String.toList_ofList, show '0' :: '.' :: zeros (-d.pointAt).toNat ++ d.digitText =
          ['0'] ++ '.' :: (zeros (-d.pointAt).toNat ++ d.digitText) from rfl,
        numeralValue_point (by simp) (by simp [digits, point_not_mem_zeros]),
        show ['0'] ++ (zeros (-d.pointAt).toNat ++ d.digitText) = zeros ((-d.pointAt).toNat + 1) ++ d.digitText by
          simp [zeros, List.replicate_succ],
        Lexer.digitsValue_zeros_append, read, List.length_append, zeros, List.length_replicate, value,
        show (-d.pointAt).toNat + d.digitText.length = (-d.exponent).toNat by omega, ← zpow_natCast,
        Int.toNat_of_nonneg (by omega), zpow_neg, div_eq_mul_inv, inv_inv]

theorem digitText_cons (d : Decimal) : ∃ c rest, d.digitText = c :: rest ∧ c.isDigit := by
  rw [digitText, Nat.toList_repr]
  obtain ⟨c, rest, cons⟩ := List.exists_cons_of_ne_nil (Nat.toDigits_ne_nil (b := 10) (n := d.digits))
  exact ⟨c, rest, cons, Nat.isDigit_of_mem_toDigits (by norm_num) (by norm_num) (cons ▸ List.mem_cons_self)⟩

/-- Positional text begins with a digit. -/
theorem positional_cons (d : Decimal) : ∃ c rest, d.positional.toList = c :: rest ∧ c.isDigit := by
  obtain ⟨c, rest, cons, digit⟩ := d.digitText_cons
  unfold positional
  split
  · exact ⟨c, rest ++ zeros d.exponent.toNat, by rw [String.toList_ofList, cons, List.cons_append], digit⟩
  · split
    · rename_i inside
      refine ⟨c, rest.take (d.pointAt.toNat - 1) ++ '.' :: d.digitText.drop d.pointAt.toNat, ?_, digit⟩
      rw [String.toList_ofList, cons, show d.pointAt.toNat = d.pointAt.toNat - 1 + 1 by omega,
        List.take_succ_cons, List.cons_append, Nat.add_sub_cancel]
    · exact ⟨'0', _, String.toList_ofList, rfl⟩

end Decimal

namespace Binary

variable {b : Binary}

/-- An integral magnitude's integer part is its value. -/
theorem integerPart_eq_value (integral : b.isIntegral = true) : (b.integerPart : ℚ) = b.value := by
  unfold isIntegral at integral
  unfold integerPart value
  simp only [Nat.pow_eq]
  rcases le_or_gt 0 b.exponent with whole | fraction
  · rw [show (-b.exponent).toNat = 0 by omega, pow_zero, Nat.div_one]
    push_cast
    rw [← zpow_natCast, Int.toNat_of_nonneg whole]
  · -- the mantissa's low bits are zero, so the division is exact
    have divides : 2 ^ (-b.exponent).toNat ∣ b.mantissa := by
      apply Nat.dvd_of_mod_eq_zero
      simp only [Nat.pow_eq, Bool.or_eq_true, decide_eq_true_eq, beq_iff_eq] at integral
      exact integral.resolve_left (by omega)
    have inverse : (2 : ℚ) ^ b.exponent = ((2 : ℚ) ^ (-b.exponent).toNat)⁻¹ := by
      rw [← zpow_natCast, Int.toNat_of_nonneg (by omega), zpow_neg, inv_inv]
    rw [show b.exponent.toNat = 0 by omega, pow_zero, mul_one, Nat.cast_div divides (by positivity), inverse,
      div_eq_mul_inv]
    push_cast
    rfl

end Binary

/-- `sign ++ c :: rest` writes the double `d`: the sign bit as a minus sign, then for a finite
double a numeral beginning with a digit that reads back as a rational rounding to the magnitude,
`inf` for an infinity, and `NaN` unsigned. -/
def Double.Written : Double → Bool → Char → List Char → Prop
  | .finite negative b, sign, c, rest => sign = negative ∧ b.Valid ∧ c.isDigit ∧ b.Rounds (numeralValue (c :: rest))
  | .infinity negative, sign, c, rest => sign = negative ∧ c = 'i' ∧ rest = ['n', 'f']
  | .nan, sign, c, rest => sign = false ∧ c = 'N' ∧ rest = ['a', 'N']

/-- A text writes one double at most. -/
theorem Double.Written.unique {d₁ d₂ : Double} {sign : Bool} {c : Char} {rest : List Char}
    (w₁ : d₁.Written sign c rest) (w₂ : d₂.Written sign c rest) : d₁ = d₂ := by
  cases d₁ <;> cases d₂ <;> simp only [Written] at w₁ w₂
  case finite.finite n₁ b₁ n₂ b₂ =>
    obtain ⟨rfl, v₁, -, r₁⟩ := w₁
    obtain ⟨rfl, v₂, -, r₂⟩ := w₂
    rw [Binary.Rounds.unique v₁ v₂ r₁ r₂]
  case infinity.infinity =>
    rw [← w₁.1, ← w₂.1]
  case nan.nan => rfl
  -- the other pairs begin differently
  all_goals
    obtain ⟨-, w₁⟩ := w₁
    obtain ⟨-, w₂⟩ := w₂
    simp_all +decide

/-- The text of a finite number: a minus sign when negative, then the integer part and `.0` when
the value is integral, or else the shortest digits written positionally. -/
theorem Literal.text_of_finite {x : Float} {negative : Bool} {b : Binary}
    (decoded : Double.ofFloat x = .finite negative b) :
    (Literal.number x).text.toList = (if negative then ['-'] else []) ++
      (if b.isIntegral then Nat.toDigits 10 b.integerPart ++ ['.', '0'] else (b.shortest .up).positional.toList) := by
  have sign : (if negative then "-" else "").toList = if negative then ['-'] else [] := by
    split <;> rfl
  by_cases integral : b.isIntegral = true
  · simp only [Literal.text, decoded, integral, ↓reduceIte, String.toList_append, sign, Nat.toList_repr,
      List.append_assoc]
    rfl
  · simp only [Literal.text, decoded, integral, Bool.false_eq_true, ↓reduceIte]
    unfold Token.plainNumber Notation.writeFinite Notation.writeMagnitude Notation.writeDecimal
    rw [decoded]
    -- the plain notation writes every magnitude positionally, with no mark
    show ((if negative then "-" else "") ++ ((b.shortest .up).positional ++
      (if 0 ≤ (b.shortest .up).exponent then "" else ""))).toList = _
    rw [ite_self, String.append_empty, String.toList_append, sign]

theorem Literal.text_finite {x : Float} {negative : Bool} {b : Binary}
    (decoded : Double.ofFloat x = .finite negative b) :
    ∃ c rest, (Literal.number x).text.toList = (if negative then ['-'] else []) ++ c :: rest ∧
      c.isDigit ∧ b.Rounds (numeralValue (c :: rest)) := by
  rw [Literal.text_of_finite decoded]
  by_cases integral : b.isIntegral = true
  · -- an integral value: its integer part, then `.0`
    obtain ⟨c, rest, cons⟩ := List.exists_cons_of_ne_nil (Nat.toDigits_ne_nil (b := 10) (n := b.integerPart))
    refine ⟨c, rest ++ ['.', '0'], by rw [if_pos integral, cons, List.cons_append], ?_, ?_⟩
    · exact Nat.isDigit_of_mem_toDigits (by norm_num) (by norm_num) (cons ▸ List.mem_cons_self)
    · rw [← List.cons_append, ← cons, numeralValue_point (point_not_mem_toDigits _) (by simp),
        Lexer.digitsValue_append, Lexer.digitsValue_toDigits]
      have read : (((b.integerPart * 10 ^ 1 + Lexer.digitsValue ['0'] : ℕ) : ℚ) / 10 ^ 1) = b.integerPart := by
        rw [show Lexer.digitsValue ['0'] = 0 from rfl]
        push_cast
        ring
      rw [List.length_singleton, read, Binary.integerPart_eq_value integral]
      exact b.rounds_value
  · -- the shortest digits, written positionally
    obtain ⟨c, rest, cons, digit⟩ := (b.shortest .up).positional_cons
    refine ⟨c, rest, by rw [if_neg integral, cons], digit, ?_⟩
    rw [← cons, Decimal.numeralValue_positional]
    exact Binary.rounds_shortest (Double.ofBits_valid decoded) .up

/-- The text of every number writes that number. -/
theorem Literal.text_written (x : Float) :
    ∃ sign c rest, (Literal.number x).text.toList = (if sign then ['-'] else []) ++ c :: rest ∧ c ≠ '-' ∧
      (Double.ofFloat x).Written sign c rest := by
  rcases decoded : Double.ofFloat x with _ | negative | _
  · rename_i negative b
    obtain ⟨c, rest, text, digit, rounds⟩ := Literal.text_finite decoded
    refine ⟨negative, c, rest, text, ?_, rfl, Double.ofBits_valid decoded, digit, rounds⟩
    rintro rfl
    revert digit
    decide
  · refine ⟨negative, 'i', ['n', 'f'], ?_, by decide, rfl, rfl, rfl⟩
    simp only [Literal.text, Token.plainNumber, decoded]
    cases negative <;> rfl
  · refine ⟨false, 'N', ['a', 'N'], ?_, by decide, rfl, rfl, rfl⟩
    simp only [Literal.text, Token.plainNumber, decoded]
    rfl

theorem sign_append_cons_inj {n₁ n₂ : Bool} {c₁ c₂ : Char} {r₁ r₂ : List Char}
    (same : (if n₁ then ['-'] else []) ++ c₁ :: r₁ = (if n₂ then ['-'] else []) ++ c₂ :: r₂)
    (unsigned₁ : c₁ ≠ '-') (unsigned₂ : c₂ ≠ '-') : n₁ = n₂ ∧ c₁ = c₂ ∧ r₁ = r₂ := by
  cases n₁ <;> cases n₂ <;>
    simp only [Bool.false_eq_true, ↓reduceIte, List.nil_append, List.cons_append, List.cons.injEq, true_and]
      at same ⊢
  · exact same
  · exact absurd same.1 unsigned₁
  · exact absurd same.1.symm unsigned₂
  · exact same

/-- A number's text names it: two numbers with the same text are the same float. -/
theorem Literal.number_text_injective {x y : Float}
    (same : (Literal.number x).text = (Literal.number y).text) : x = y := by
  obtain ⟨n₁, c₁, r₁, text₁, unsigned₁, written₁⟩ := Literal.text_written x
  obtain ⟨n₂, c₂, r₂, text₂, unsigned₂, written₂⟩ := Literal.text_written y
  have texts := congrArg String.toList same
  rw [text₁, text₂] at texts
  obtain ⟨rfl, rfl, rfl⟩ := sign_append_cons_inj texts unsigned₁ unsigned₂
  exact Double.ofFloat_injective (written₁.unique written₂)

/-- The text of a number that is not NaN begins with a digit or a minus sign, or is `inf`. -/
theorem Literal.text_lead {x : Float} (number : Double.ofFloat x ≠ .nan) :
    (Literal.number x).text = "inf" ∨
      ∃ c rest, (Literal.number x).text.toList = c :: rest ∧ (c.isDigit = true ∨ c = '-' ∧ rest ≠ []) := by
  obtain ⟨sign, c, rest, text, -, written⟩ := Literal.text_written x
  cases sign
  · -- unsigned: a digit, or the letters of `inf`
    simp only [Bool.false_eq_true, ↓reduceIte, List.nil_append] at text
    rcases decoded : Double.ofFloat x with _ | _ | _ <;> rw [decoded] at written
    · exact .inr ⟨c, rest, text, .inl written.2.2.1⟩
    · obtain ⟨-, rfl, rfl⟩ := written
      exact .inl (String.toList_inj.1 (by simpa using text))
    · exact absurd decoded number
  · exact .inr ⟨'-', c :: rest, by simpa using text, .inr ⟨rfl, List.cons_ne_nil c rest⟩⟩

theorem Decimal.positional_chars (d : Decimal) : ∀ c ∈ d.positional.toList, c.isDigit = true ∨ c = '.' := by
  have digits : ∀ c ∈ d.digitText, c.isDigit = true := fun c mem => by
    rw [digitText, Nat.toList_repr] at mem
    exact Nat.isDigit_of_mem_toDigits (by norm_num) (by norm_num) mem
  have zeros : ∀ k, ∀ c ∈ zeros k, c.isDigit = true := fun k c mem => by
    rw [zeros, List.mem_replicate] at mem
    rw [mem.2]
    rfl
  unfold positional
  intro c mem
  split at mem
  · rw [String.toList_ofList, List.mem_append] at mem
    rcases mem with mem | mem
    · exact .inl (digits c mem)
    · exact .inl (zeros _ c mem)
  · split at mem
    · rw [String.toList_ofList, List.mem_append, List.mem_cons] at mem
      rcases mem with mem | rfl | mem
      · exact .inl (digits c (List.mem_of_mem_take mem))
      · exact .inr rfl
      · exact .inl (digits c (List.mem_of_mem_drop mem))
    · rw [String.toList_ofList, List.cons_append, List.cons_append, List.mem_cons, List.mem_cons,
        List.mem_append] at mem
      rcases mem with rfl | rfl | mem | mem
      · exact .inl rfl
      · exact .inr rfl
      · exact .inl (zeros _ c mem)
      · exact .inl (digits c mem)

/-- A number's text is one word: digits, a point, a minus sign and the letters of `inf` and `NaN`. -/
theorem Literal.text_chars (x : Float) :
    ∀ c ∈ (Literal.number x).text.toList, c.isDigit = true ∨ c = '.' ∨ c = '-' ∨ c.isAlpha = true := by
  rcases decoded : Double.ofFloat x with _ | negative | _
  · rename_i negative b
    intro c mem
    rw [Literal.text_of_finite decoded, List.mem_append] at mem
    rcases mem with sign | body
    · cases negative <;> simp at sign
      exact .inr (.inr (.inl sign))
    · split at body
      · rw [List.mem_append] at body
        rcases body with digit | mark
        · exact .inl (Nat.isDigit_of_mem_toDigits (by norm_num) (by norm_num) digit)
        · simp only [List.mem_cons, List.not_mem_nil, or_false] at mark
          rcases mark with rfl | rfl
          · exact .inr (.inl rfl)
          · exact .inl rfl
      · rcases (b.shortest .up).positional_chars c body with digit | point
        · exact .inl digit
        · exact .inr (.inl point)
  · -- `inf` and `-inf`, then `NaN`
    intro c mem
    simp only [Literal.text, Token.plainNumber, decoded] at mem
    cases negative
    · simp at mem
      rcases mem with rfl | rfl | rfl <;> decide
    · simp at mem
      rcases mem with rfl | rfl | rfl | rfl <;> decide
  · intro c mem
    simp only [Literal.text, Token.plainNumber, decoded] at mem
    simp at mem
    rcases mem with rfl | rfl | rfl <;> decide

end Lox
