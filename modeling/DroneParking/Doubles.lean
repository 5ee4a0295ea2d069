import DroneParking.Js
import DroneParking.Library.Floating

/-!
# Numbers in bits

What the bits of a float or of a double stand for, the bits that are written for
a number, and the double nearest to a rational, which is what the arithmetic of
JavaScript returns.
-/
namespace DroneParking
namespace JsNumber

open Library (Floating)

/-- A sign, `exponent` bits and `fraction` bits: zero and subnormals have the smallest exponent
and no leading bit, infinities and `NaN` the largest. -/
def ofBits (exponent fraction bits : ℕ) : JsNumber :=
  let negative := bits.testBit (exponent + fraction)
  let e := bits / 2 ^ fraction % 2 ^ exponent
  let f := bits % 2 ^ fraction
  if e = 2 ^ exponent - 1 then
    if f ≠ 0 then nan else if negative then negInfinity else posInfinity
  else
    let n : ℕ := if e = 0 then f else 2 ^ fraction + f
    let place : ℤ := max e 1 + 1 - 2 ^ (exponent - 1) - fraction
    if n = 0 ∧ negative then negZero else finite ((if negative then -n else n : ℤ) * 2 ^ place)

/-- The format without the bound on its exponent. -/
def format (exponent fraction : ℕ) : Floating := ⟨fraction, 2 - 2 ^ (exponent - 1) - fraction⟩

/-- The nearest number of a format; past the largest, an infinity. What is rounded to zero keeps
its sign. -/
def rounded (exponent fraction : ℕ) (q : ℚ) : JsNumber :=
  let d := (format exponent fraction).round q
  if |d| < 2 ^ 2 ^ (exponent - 1) then if d = 0 ∧ q < 0 then negZero else finite d
  else if 0 < q then posInfinity else negInfinity

/-- The bits below the sign: a carry out of the fraction moves the exponent on, at last to that of
the infinities. -/
def magnitude (exponent fraction : ℕ) (q : ℚ) : ℕ :=
  let f := format exponent fraction
  let bits := (f.lastPlace q - f.least).toNat * 2 ^ fraction + (f.units q).natAbs
  min bits ((2 ^ exponent - 1) * 2 ^ fraction)

/-- The bits of the nearest number of a format. -/
def toBits (exponent fraction : ℕ) : JsNumber → ℕ
  | nan => (2 ^ exponent - 1) * 2 ^ fraction + 2 ^ (fraction - 1)
  | posInfinity => (2 ^ exponent - 1) * 2 ^ fraction
  | negInfinity => 2 ^ (exponent + fraction) + (2 ^ exponent - 1) * 2 ^ fraction
  | negZero => 2 ^ (exponent + fraction)
  | finite q =>
      if q = 0 then 0
      else if q < 0 then 2 ^ (exponent + fraction) + magnitude exponent fraction q
      else magnitude exponent fraction q

/-- A number in a format. -/
def toFormat (exponent fraction : ℕ) : JsNumber → JsNumber
  | finite q => rounded exponent fraction q
  | x => x

/-- The nearest double. -/
def ofRat (q : ℚ) : JsNumber := rounded 11 52 q

/-- `x / q`, for positive `q`. -/
def div (x : JsNumber) (q : ℚ) : JsNumber :=
  match x with
  | finite x => ofRat (x / q)
  | negZero => negZero
  | nan => nan
  | negInfinity => negInfinity
  | posInfinity => posInfinity

/-- `q - x` -/
def subFrom (q : ℚ) (x : JsNumber) : JsNumber :=
  match x with
  | finite x => ofRat (q - x)
  | negZero => ofRat q
  | nan => nan
  | negInfinity => posInfinity
  | posInfinity => negInfinity

/-- `q + x` -/
def addTo (q : ℚ) (x : JsNumber) : JsNumber :=
  match x with
  | finite x => ofRat (q + x)
  | negZero => ofRat q
  | nan => nan
  | negInfinity => negInfinity
  | posInfinity => posInfinity

section Bits
variable {exponent fraction bits : ℕ} {q : ℚ}

theorem two_pow_exponent (wide : 1 < exponent) :
    2 ^ exponent = 2 * 2 ^ (exponent - 1) ∧ 2 ≤ 2 ^ (exponent - 1) := by
  constructor
  · rw [← pow_succ', Nat.sub_add_cancel (by omega)]
  · exact Nat.le_self_pow (by omega) 2

theorem format_least (exponent fraction : ℕ) :
    (format exponent fraction).least = 2 - ((2 ^ (exponent - 1) : ℕ) : ℤ) - fraction := by
  push_cast
  rfl

/-- What bits stand for lies in the format. -/
theorem ofBits_holds (h : (ofBits exponent fraction bits).rational? = some q) :
    (format exponent fraction).Holds q := by
  have low : bits % 2 ^ fraction < 2 ^ fraction := Nat.mod_lt _ (Nat.two_pow_pos _)
  have least := format_least exponent fraction
  unfold ofBits at h
  simp only at h
  by_cases top : bits / 2 ^ fraction % 2 ^ exponent = 2 ^ exponent - 1
  · rw [if_pos top] at h
    split at h
    · cases h
    · split at h <;> cases h
  rw [if_neg top] at h
  generalize bits / 2 ^ fraction % 2 ^ exponent = e at h top
  generalize bits % 2 ^ fraction = f at h low
  generalize hn : (if e = 0 then f else 2 ^ fraction + f) = n at h
  have size : n < 2 ^ (fraction + 1) := by
    rw [pow_succ, ← hn]
    split <;> omega
  generalize hz : (if bits.testBit (exponent + fraction) = true then -(n : ℤ) else n) = z at h
  have digits : |z| = n := by
    rw [← hz]
    split
    · rw [abs_neg, Nat.abs_cast]
    · exact Nat.abs_cast n
  have place : (max e 1 + 1 - 2 ^ (exponent - 1) - fraction : ℤ) =
      max e 1 + 1 - ((2 ^ (exponent - 1) : ℕ) : ℤ) - fraction := by
    push_cast
    rfl
  have value : q = z * 2 ^ (max e 1 + 1 - 2 ^ (exponent - 1) - fraction : ℤ) := by
    split at h
    · next zero =>
        have none : z = 0 := by
          rw [← abs_eq_zero, digits, zero.1, Nat.cast_zero]
        rw [none, Int.cast_zero, zero_mul]
        exact (Option.some_inj.mp h).symm
    · exact (Option.some_inj.mp h).symm
  refine ⟨z, _, ?_, ?_, value⟩
  · rw [digits]
    exact_mod_cast size.le
  · rw [least, place]
    omega

/-- The three fields of bits with a given sign. -/
theorem fields_of_bits {m : ℕ} (negative : Bool) (h : m < 2 ^ (exponent + fraction)) :
    ((if negative then 2 ^ (exponent + fraction) else 0) + m).testBit (exponent + fraction) = negative ∧
    ((if negative then 2 ^ (exponent + fraction) else 0) + m) / 2 ^ fraction % 2 ^ exponent =
      m / 2 ^ fraction ∧
    ((if negative then 2 ^ (exponent + fraction) else 0) + m) % 2 ^ fraction = m % 2 ^ fraction := by
  have field : m / 2 ^ fraction < 2 ^ exponent := by
    rw [Nat.div_lt_iff_lt_mul (Nat.two_pow_pos _), ← pow_add]
    exact h
  cases negative with
  | false =>
      rw [if_neg Bool.false_ne_true, zero_add]
      exact ⟨Nat.testBit_lt_two_pow h, Nat.mod_eq_of_lt field, rfl⟩
  | true =>
      rw [if_pos rfl]
      have split : 2 ^ (exponent + fraction) = 2 ^ fraction * 2 ^ exponent := by rw [add_comm, pow_add]
      refine ⟨?_, ?_, ?_⟩
      · rw [Nat.testBit_two_pow_add_eq, Nat.testBit_lt_two_pow h]
        rfl
      · rw [split, Nat.mul_add_div (Nat.two_pow_pos _), Nat.add_mod_left, Nat.mod_eq_of_lt field]
      · rw [split, Nat.mul_add_mod]

/-- A number of `n` units at the place `k` above the lowest, in fields: the exponent field is one more
than `k` where the leading bit is there, and two more where it has been rounded up past it. -/
theorem fields_of_units {n k h fraction : ℕ} (two : 2 ≤ h) (size : n ≤ 2 ^ (fraction + 1))
    (leading : 0 < k → 2 ^ fraction ≤ n) :
    (∃ e f, e < 2 * h - 1 ∧ f < 2 ^ fraction ∧
      min (k * 2 ^ fraction + n) ((2 * h - 1) * 2 ^ fraction) = e * 2 ^ fraction + f ∧
      (n : ℚ) * 2 ^ (2 - h - fraction + k : ℤ) = ((if e = 0 then f else 2 ^ fraction + f : ℕ) : ℚ) *
        2 ^ (max e 1 + 1 - h - fraction : ℤ) ∧
      (n : ℚ) * 2 ^ (2 - h - fraction + k : ℤ) < 2 ^ h) ∨
    min (k * 2 ^ fraction + n) ((2 * h - 1) * 2 ^ fraction) = (2 * h - 1) * 2 ^ fraction ∧
      2 ^ h ≤ (n : ℚ) * 2 ^ (2 - h - fraction + k : ℤ) := by
  have base : (2 : ℚ) ≠ 0 := by norm_num
  have above {c : ℕ} {z : ℤ} (less : n < 2 ^ c) (room : c + z ≤ h) : (n : ℚ) * 2 ^ z < 2 ^ h := by
    have bound : (n : ℚ) < 2 ^ c := by exact_mod_cast less
    refine (mul_lt_mul_of_pos_right bound (zpow_pos (by norm_num) _)).trans_le ?_
    rw [← zpow_natCast, ← zpow_natCast, ← zpow_add₀ base]
    exact zpow_le_zpow_right₀ (by norm_num) room
  have below {c : ℕ} {z : ℤ} (least : 2 ^ c ≤ n) (room : h ≤ c + z) : 2 ^ h ≤ (n : ℚ) * 2 ^ z := by
    have bound : (2 : ℚ) ^ c ≤ n := by exact_mod_cast least
    refine le_trans ?_ (mul_le_mul_of_nonneg_right bound (zpow_pos (by norm_num) _).le)
    rw [← zpow_natCast, ← zpow_natCast, ← zpow_add₀ base]
    exact zpow_le_zpow_right₀ (by norm_num) room
  have positive := Nat.two_pow_pos fraction
  have double : 2 ^ (fraction + 1) = 2 * 2 ^ fraction := pow_succ' _ _
  rcases lt_or_ge n (2 ^ fraction) with subnormal | normal
  · have lowest : k = 0 := by
      by_contra other
      exact absurd (leading (by omega)) (by omega)
    subst lowest
    refine .inl ⟨0, n, by omega, subnormal, ?_, ?_, above subnormal (by omega)⟩
    · have room : 1 * 2 ^ fraction ≤ (2 * h - 1) * 2 ^ fraction := Nat.mul_le_mul_right _ (by omega)
      omega
    · rw [if_pos rfl]
      congr 2
      omega
  rcases size.lt_or_eq with exact | carried
  · rcases lt_or_ge (k + 1) (2 * h - 1) with inside | outside
    · refine .inl ⟨k + 1, n - 2 ^ fraction, inside, by omega, ?_, ?_, above exact (by push_cast; omega)⟩
      · have room : (k + 2) * 2 ^ fraction ≤ (2 * h - 1) * 2 ^ fraction :=
          Nat.mul_le_mul_right _ (by omega)
        rw [add_mul] at room ⊢
        omega
      · rw [if_neg (Nat.succ_ne_zero k), Nat.add_sub_cancel' normal]
        congr 2
        omega
    · refine .inr ⟨?_, below normal (by omega)⟩
      have room : (2 * h - 1) * 2 ^ fraction ≤ (k + 1) * 2 ^ fraction := Nat.mul_le_mul_right _ outside
      rw [add_mul] at room
      omega
  · rcases lt_or_ge (k + 2) (2 * h - 1) with inside | outside
    · refine .inl ⟨k + 2, 0, inside, positive, ?_, ?_,
        above (c := fraction + 2) ?_ (by push_cast; omega)⟩
      · have room : (k + 2) * 2 ^ fraction ≤ (2 * h - 1) * 2 ^ fraction :=
          Nat.mul_le_mul_right _ inside.le
        rw [add_mul] at room ⊢
        omega
      · rw [if_neg (Nat.succ_ne_zero _), carried, add_zero]
        push_cast
        rw [pow_succ, mul_assoc, ← zpow_one_add₀ base]
        congr 2
        omega
      · rw [pow_succ]
        omega
    · refine .inr ⟨?_, below (c := fraction + 1) (by omega) (by push_cast; omega)⟩
      have room : (2 * h - 1) * 2 ^ fraction ≤ (k + 2) * 2 ^ fraction := Nat.mul_le_mul_right _ outside
      rw [add_mul] at room
      omega

theorem ofBits_fields {e f : ℕ} (negative : Bool) (he : e < 2 ^ exponent) (hf : f < 2 ^ fraction) :
    ofBits exponent fraction
      ((if negative then 2 ^ (exponent + fraction) else 0) + (e * 2 ^ fraction + f)) =
      if e = 2 ^ exponent - 1 then
        if f ≠ 0 then nan else if negative then negInfinity else posInfinity
      else
        let n : ℕ := if e = 0 then f else 2 ^ fraction + f
        let place : ℤ := max e 1 + 1 - 2 ^ (exponent - 1) - fraction
        if n = 0 ∧ negative then negZero
        else finite ((if negative then -n else n : ℤ) * 2 ^ place) := by
  have bound : e * 2 ^ fraction + f < 2 ^ (exponent + fraction) := by
    have room : (e + 1) * 2 ^ fraction ≤ 2 ^ exponent * 2 ^ fraction := Nat.mul_le_mul_right _ he
    rw [add_mul] at room
    rw [pow_add]
    omega
  obtain ⟨sign, quotient, rest⟩ := fields_of_bits negative bound
  have high : (e * 2 ^ fraction + f) / 2 ^ fraction = e := by
    rw [mul_comm, Nat.mul_add_div (Nat.two_pow_pos _), Nat.div_eq_of_lt hf, add_zero]
  have low : (e * 2 ^ fraction + f) % 2 ^ fraction = f := by
    rw [mul_comm, Nat.mul_add_mod, Nat.mod_eq_of_lt hf]
  rw [high] at quotient
  rw [low] at rest
  unfold ofBits
  simp only [sign, quotient, rest]

theorem magnitude_cases (wide : 1 < exponent) (nonzero : q ≠ 0) :
    (∃ e f, e < 2 ^ exponent - 1 ∧ f < 2 ^ fraction ∧
      magnitude exponent fraction q = e * 2 ^ fraction + f ∧
      |(format exponent fraction).round q| = ((if e = 0 then f else 2 ^ fraction + f : ℕ) : ℚ) *
        2 ^ (max e 1 + 1 - 2 ^ (exponent - 1) - fraction : ℤ) ∧
      |(format exponent fraction).round q| < 2 ^ 2 ^ (exponent - 1)) ∨
    magnitude exponent fraction q = (2 ^ exponent - 1) * 2 ^ fraction ∧
      2 ^ 2 ^ (exponent - 1) ≤ |(format exponent fraction).round q| := by
  obtain ⟨bias, two⟩ := two_pow_exponent wide
  let F := format exponent fraction
  have lowest := Floating.least_le_lastPlace (f := F) (q := q)
  have size : (F.units q).natAbs ≤ 2 ^ (fraction + 1) := by
    have := Floating.units_le (f := F) (q := q)
    zify
    exact this
  have leading (above : 0 < (F.lastPlace q - F.least).toNat) : 2 ^ fraction ≤ (F.units q).natAbs := by
    have := Floating.le_units (f := F) nonzero (by omega)
    zify
    exact this
  have place : F.lastPlace q =
      2 - ((2 ^ (exponent - 1) : ℕ) : ℤ) - fraction + (F.lastPlace q - F.least).toNat := by
    have least : F.least = _ := format_least exponent fraction
    omega
  have value := Floating.abs_round (f := F) (q := q)
  rw [place] at value
  have cases := fields_of_units two size leading
  rw [← value, ← bias] at cases
  simp only [Nat.cast_pow, Nat.cast_ofNat] at cases
  exact cases

theorem toBits_finite (nonzero : q ≠ 0) : toBits exponent fraction (finite q) =
    (if decide (q < 0) then 2 ^ (exponent + fraction) else 0) + magnitude exponent fraction q := by
  rw [toBits, if_neg nonzero]
  by_cases negative : q < 0
  · rw [if_pos negative, decide_eq_true negative, if_pos rfl]
  · rw [if_neg negative, decide_eq_false negative, if_neg Bool.false_ne_true, zero_add]

theorem rounded_zero : rounded exponent fraction 0 = finite 0 := by
  unfold rounded
  simp only
  rw [Floating.round_zero, abs_zero, if_pos (by positivity), if_neg (by simp)]

theorem ofBits_toBits_finite (wide : 1 < exponent) (q : ℚ) :
    ofBits exponent fraction (toBits exponent fraction (finite q)) = rounded exponent fraction q := by
  obtain ⟨bias, two⟩ := two_pow_exponent wide
  have positive := Nat.two_pow_pos exponent
  by_cases zero : q = 0
  · subst zero
    have none := ofBits_fields false positive (Nat.two_pow_pos fraction)
    rw [if_neg Bool.false_ne_true, zero_mul, if_neg (by omega), if_pos rfl] at none
    rw [toBits, if_pos rfl, rounded_zero]
    refine none.trans ?_
    simp
  rw [toBits_finite zero]
  unfold rounded
  simp only
  rcases @magnitude_cases exponent fraction q wide zero with
    ⟨e, f, he, hf, bits, value, small⟩ | ⟨bits, large⟩
  · rw [bits, ofBits_fields _ (by omega) hf, if_neg he.ne, if_pos small]
    simp only
    have none : |(format exponent fraction).round q| = 0 ↔ (if e = 0 then f else 2 ^ fraction + f) = 0 := by
      rw [value, mul_eq_zero, Nat.cast_eq_zero]
      exact or_iff_left (zpow_pos (by norm_num) _).ne'
    rw [abs_eq_zero] at none
    have signs : ((if e = 0 then f else 2 ^ fraction + f) = 0 ∧ decide (q < 0) = true) ↔
        (format exponent fraction).round q = 0 ∧ q < 0 := by
      rw [none, decide_eq_true_iff]
    rw [if_congr signs rfl rfl]
    congr 2
    rcases lt_or_gt_of_ne zero with negative | positive
    · rw [abs_of_nonpos (Floating.round_nonpos negative.le), neg_eq_iff_eq_neg] at value
      rw [decide_eq_true negative, if_pos rfl, value, Int.cast_neg, Int.cast_natCast, neg_mul]
    · rw [abs_of_nonneg (Floating.round_nonneg positive.le)] at value
      rw [decide_eq_false (not_lt.mpr positive.le), if_neg Bool.false_ne_true, value,
        Int.cast_natCast]
  · have whole := ofBits_fields (decide (q < 0)) (Nat.sub_lt positive Nat.one_pos)
      (Nat.two_pow_pos fraction)
    simp only [add_zero, if_true, ne_eq, not_true_eq_false, if_false] at whole
    rw [bits, whole, if_neg (not_lt.mpr large)]
    rcases lt_or_gt_of_ne zero with negative | positive
    · rw [decide_eq_true negative, if_pos rfl, if_neg (not_lt.mpr negative.le)]
    · rw [decide_eq_false (not_lt.mpr positive.le), if_neg Bool.false_ne_true, if_pos positive]

/-- The bits written for a number are read as the nearest number of the format. -/
theorem ofBits_toBits (wide : 1 < exponent) (long : 0 < fraction) (x : JsNumber) :
    ofBits exponent fraction (toBits exponent fraction x) = x.toFormat exponent fraction := by
  have top : 2 ^ exponent - 1 < 2 ^ exponent := Nat.sub_lt (Nat.two_pow_pos _) Nat.one_pos
  have half : 2 ^ (fraction - 1) < 2 ^ fraction := Nat.pow_lt_pow_right (by decide) (by omega)
  cases x with
  | finite q => exact ofBits_toBits_finite wide q
  | nan =>
      have fields := ofBits_fields false top half
      rw [if_neg Bool.false_ne_true, zero_add, if_pos rfl, if_pos (Nat.two_pow_pos _).ne'] at fields
      exact fields
  | posInfinity =>
      have fields := ofBits_fields false top (Nat.two_pow_pos fraction)
      simp only [Bool.false_eq_true, if_false, zero_add, add_zero, if_true, ne_eq,
        not_true_eq_false] at fields
      exact fields
  | negInfinity =>
      have fields := ofBits_fields true top (Nat.two_pow_pos fraction)
      simp only [add_zero, if_true, ne_eq, not_true_eq_false, if_false] at fields
      exact fields
  | negZero =>
      obtain ⟨bias, two⟩ := two_pow_exponent wide
      have fields := ofBits_fields true (Nat.two_pow_pos exponent) (Nat.two_pow_pos fraction)
      rw [if_pos rfl, zero_mul, add_zero, add_zero, if_neg (by omega)] at fields
      exact fields

theorem toBits_lt (long : 0 < fraction) (x : JsNumber) :
    toBits exponent fraction x < 2 ^ (exponent + fraction + 1) := by
  have top : (2 ^ exponent - 1) * 2 ^ fraction + 2 ^ fraction = 2 ^ (exponent + fraction) := by
    rw [← Nat.succ_mul, Nat.succ_eq_add_one, Nat.sub_add_cancel (Nat.two_pow_pos _), pow_add]
  have half : 2 ^ (fraction - 1) < 2 ^ fraction := Nat.pow_lt_pow_right (by decide) (by omega)
  have positive := Nat.two_pow_pos fraction
  rw [pow_succ]
  cases x with
  | nan | posInfinity | negInfinity | negZero => simp only [toBits]; omega
  | finite q =>
      have bound : magnitude exponent fraction q ≤ (2 ^ exponent - 1) * 2 ^ fraction := min_le_right _ _
      simp only [toBits]
      split
      · omega
      · split <;> omega

/-- Up to a number of the format nothing is rounded to infinity. -/
theorem rounded_finite {m : ℚ} (holds : (format exponent fraction).Holds m)
    (small : m < 2 ^ 2 ^ (exponent - 1)) (range : |q| ≤ m) :
    (rounded exponent fraction q).rational? = some ((format exponent fraction).round q) := by
  have opposite : (format exponent fraction).Holds (-m) := by
    obtain ⟨n, k, digits, place, rfl⟩ := holds
    exact ⟨-n, k, by rwa [abs_neg], place, by rw [Int.cast_neg, neg_mul]⟩
  obtain ⟨low, high⟩ := abs_le.mp range
  have inside : |(format exponent fraction).round q| < 2 ^ 2 ^ (exponent - 1) := by
    refine lt_of_le_of_lt (abs_le.mpr ⟨?_, ?_⟩) small
    · have near := Floating.round_nearest (q := q) opposite
      rw [abs_sub_comm (-m), abs_of_nonneg (by linarith : 0 ≤ q - -m)] at near
      have := neg_abs_le ((format exponent fraction).round q - q)
      linarith
    · have near := Floating.round_nearest (q := q) holds
      rw [abs_of_nonneg (by linarith : 0 ≤ m - q)] at near
      have := le_abs_self ((format exponent fraction).round q - q)
      linarith
  unfold rounded
  simp only
  rw [if_pos inside]
  split
  · next zero =>
      rw [zero.1]
      rfl
  · rfl

end Bits

end JsNumber
end DroneParking
