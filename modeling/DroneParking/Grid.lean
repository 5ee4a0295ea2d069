import Mathlib.Tactic.Ring
import Mathlib.Tactic.Positivity
import DroneParking.Vision
import DroneParking.Library.Loop

/-!
# The grid over the picture

`Detector.drawGrid` steps by a quarter of the width and of the height, rounded
down. The step is nothing for less than four pixels, and too short for a size
that is no multiple of four.
-/
namespace DroneParking

open Library (loop loop_keeps loop_ends loop_never_ends)

structure CvPoint where
  x : Int32
  y : Int32
  deriving DecidableEq, Repr

/-- The end points of `cvDrawLine`; colour and thickness are always the same. -/
structure CvLine where
  pt1 : CvPoint
  pt2 : CvPoint
  deriving DecidableEq, Repr

structure IplImage where
  width : Int32
  height : Int32
  deriving DecidableEq, Repr

namespace Detector

/-- One round of `for (int i = size/4; i < size; i += size/4)`, which draws `line i`. -/
def gridRound (line : Int32 → CvLine) (size : Int32) (s : Int32 × List CvLine) :
    Int32 × List CvLine := (s.1 + size / 4, s.2 ++ [line s.1])

/-- The lines that one of the two loops draws. -/
def gridLoop (line : Int32 → CvLine) (size : Int32) (fuel : ℕ) : Option (List CvLine) :=
  (loop (fun s => decide (s.1 < size)) (gridRound line size) fuel (size / 4, [])).map Prod.snd

def verticalLine (image : IplImage) (i : Int32) : CvLine := ⟨⟨i, 0⟩, ⟨i, image.height⟩⟩

def horizontalLine (image : IplImage) (i : Int32) : CvLine := ⟨⟨0, i⟩, ⟨image.width, i⟩⟩

/-- The vertical and the horizontal lines drawn, if both loops end within the fuel. -/
def drawGrid (fuel : ℕ) (image : IplImage) : Option (List CvLine × List CvLine) := do
  let vertical ← gridLoop (verticalLine image) image.width fuel
  let horizontal ← gridLoop (horizontalLine image) image.height fuel
  return (vertical, horizontal)

section Loop
variable {line : Int32 → CvLine} {size : Int32}

theorem quarter (h : 0 ≤ size.toInt) : (size / 4).toInt = size.toInt / 4 := by
  rw [Int32.toInt_div_of_ne_right size 4 (by decide), Int.tdiv_eq_ediv_of_nonneg h]
  rfl

/-- The next line is due one step after the last one, and all lines lie inside. -/
structure Spaced (line : Int32 → CvLine) (size : Int32) (s : Int32 × List CvLine) : Prop where
  due : s.1.toInt = (s.2.length + 1) * (size / 4).toInt
  inside : ∀ l ∈ s.2, ∃ i, l = line i ∧ 0 < i ∧ i < size

theorem Spaced.start : Spaced line size (size / 4, []) := ⟨by simp, by simp⟩

/-- A round keeps the spacing unless the index wraps. -/
theorem Spaced.round {s : Int32 × List CvLine} (spaced : Spaced line size s)
    (step : 0 < (size / 4).toInt) (more : s.1 < size)
    (fits : (s.2.length + 2) * (size / 4).toInt < 2 ^ 31) :
    Spaced line size (gridRound line size s) := by
  have due := spaced.due
  constructor
  · simp only [gridRound, Int32.toInt_add, List.length_append, List.length_singleton]
    have next : s.1.toInt + (size / 4).toInt = (s.2.length + 2) * (size / 4).toInt := by
      rw [due]
      ring
    rw [next]
    push_cast
    have positive : 0 ≤ (s.2.length + 2) * (size / 4).toInt := by positivity
    rw [Int.bmod_eq_of_le (by omega) (by omega)]
    ring
  · intro l hl
    rcases List.mem_append.mp hl with old | new
    · exact spaced.inside l old
    · rw [List.mem_singleton.mp new]
      refine ⟨s.1, rfl, ?_, more⟩
      rw [Int32.lt_iff_toInt_lt, due]
      change (0 : ℤ) < _
      positivity

/-- More fuel draws no other lines. -/
theorem gridLoop_more {fuel : ℕ} {lines : List CvLine} (h : gridLoop line size fuel = some lines)
    (more : ℕ) : gridLoop line size (fuel + more) = some lines := by
  obtain ⟨s, done, rfl⟩ := Option.map_eq_some_iff.mp h
  exact Option.map_eq_some_iff.mpr ⟨s, Library.loop_more done more, rfl⟩

/-- A loop whose index does not wrap ends, with the last line less than a step from the border. -/
theorem gridLoop_ends (wide : 4 ≤ size.toInt) (fits : ∀ k : ℕ,
    (k + 1) * (size / 4).toInt < size.toInt → (k + 2) * (size / 4).toInt < 2 ^ 31) :
    ∃ fuel lines, gridLoop line size fuel = some lines ∧
      (∀ l ∈ lines, ∃ i, l = line i ∧ 0 < i ∧ i < size) ∧
      lines.length * (size / 4).toInt < size.toInt ∧
      size.toInt ≤ (lines.length + 1) * (size / 4).toInt := by
  have step : 0 < (size / 4).toInt := by
    rw [quarter (by omega)]
    omega
  have keep (s : Int32 × List CvLine) (inv : Spaced line size s ∧
      s.2.length * (size / 4).toInt < size.toInt) (more : decide (s.1 < size) = true) :
      Spaced line size (gridRound line size s) ∧
        (gridRound line size s).2.length * (size / 4).toInt < size.toInt := by
    have inside := of_decide_eq_true more
    have due := inv.1.due
    rw [Int32.lt_iff_toInt_lt, due] at inside
    refine ⟨inv.1.round step (of_decide_eq_true more) (fits _ inside), ?_⟩
    rw [gridRound, List.length_append, List.length_singleton]
    push_cast
    exact inside
  have less (s : Int32 × List CvLine) (inv : Spaced line size s ∧
      s.2.length * (size / 4).toInt < size.toInt) (more : decide (s.1 < size) = true) :
      (size.toInt - (gridRound line size s).1.toInt).toNat < (size.toInt - s.1.toInt).toNat := by
    have inside := of_decide_eq_true more
    have next := (keep s inv more).1.due
    rw [Int32.lt_iff_toInt_lt] at inside
    rw [next, inv.1.due] at *
    simp only [gridRound, List.length_append, List.length_singleton]
    push_cast
    have grows : (s.2.length + 1 + 1) * (size / 4).toInt =
        (s.2.length + 1) * (size / 4).toInt + (size / 4).toInt := by ring
    omega
  have init : Spaced line size (size / 4, []) ∧
      (([] : List CvLine).length : ℤ) * (size / 4).toInt < size.toInt := by
    refine ⟨.start, ?_⟩
    simp only [List.length_nil, Nat.cast_zero, zero_mul]
    omega
  obtain ⟨s, done⟩ := loop_ends (fun s : Int32 × List CvLine => (size.toInt - s.1.toInt).toNat)
    keep less init
  obtain ⟨⟨spaced, last⟩, ended⟩ := loop_keeps keep init done
  refine ⟨_, s.2, Option.map_eq_some_iff.mpr ⟨s, done, rfl⟩, spaced.inside, last, ?_⟩
  have outside := of_decide_eq_false ended
  rw [Int32.lt_iff_toInt_lt, spaced.due] at outside
  exact not_lt.mp outside

theorem gridLoop_three (wide : 4 ≤ size.toInt) (fourth : 4 ∣ size.toInt) :
    ∃ fuel lines, gridLoop line size fuel = some lines ∧
      (∀ l ∈ lines, ∃ i, l = line i ∧ 0 < i ∧ i < size) ∧ lines.length = 3 := by
  obtain ⟨q, whole⟩ := fourth
  have step : (size / 4).toInt = q := by
    rw [quarter (by omega)]
    omega
  have bound := size.toInt_lt
  obtain ⟨fuel, lines, done, inside, last, border⟩ := @gridLoop_ends line size wide (by
    intro k due
    rw [step] at due ⊢
    rw [whole] at due
    have few : (k : ℤ) + 1 < 4 := lt_of_mul_lt_mul_right due (by omega)
    have here : ((k : ℤ) + 2) * q ≤ 4 * q := mul_le_mul_of_nonneg_right (by omega) (by omega)
    omega)
  refine ⟨fuel, lines, done, inside, ?_⟩
  rw [step, whole] at last border
  have most : (lines.length : ℤ) < 4 := lt_of_mul_lt_mul_right last (by omega)
  have least : (4 : ℤ) ≤ lines.length + 1 := le_of_mul_le_mul_right border (by omega)
  omega

/-- A size that four does not divide leaves room for a fourth line. -/
theorem gridLoop_four (wide : 4 ≤ size.toInt) (rest : ¬ 4 ∣ size.toInt) {fuel : ℕ}
    {lines : List CvLine} (h : gridLoop line size fuel = some lines) : 4 ≤ lines.length := by
  obtain ⟨s, done, rfl⟩ := Option.map_eq_some_iff.mp h
  have quarters : (size / 4).toInt = size.toInt / 4 := quarter (by omega)
  have bound := size.toInt_lt
  have keep (s : Int32 × List CvLine) (inv : 4 ≤ s.2.length ∨ Spaced line size s)
      (more : decide (s.1 < size) = true) :
      4 ≤ (gridRound line size s).2.length ∨ Spaced line size (gridRound line size s) := by
    have grows : (gridRound line size s).2.length = s.2.length + 1 := by simp [gridRound]
    by_cases many : 3 ≤ s.2.length
    · exact .inl (by omega)
    · right
      rcases inv with more | spaced
      · omega
      · apply spaced.round (by omega) (of_decide_eq_true more)
        have few : ((s.2.length : ℤ) + 2) * (size / 4).toInt ≤ 4 * (size / 4).toInt :=
          mul_le_mul_of_nonneg_right (by omega) (by omega)
        omega
  obtain ⟨inv, ended⟩ := loop_keeps keep (.inr .start) done
  rcases inv with many | spaced
  · exact many
  · by_contra few
    have outside := of_decide_eq_false ended
    rw [Int32.lt_iff_toInt_lt, spaced.due] at outside
    have room : ((s.2.length : ℤ) + 1) * (size / 4).toInt ≤ 4 * (size / 4).toInt :=
      mul_le_mul_of_nonneg_right (by omega) (by omega)
    omega

/-- Below four pixels the step is nothing, and the loop draws at the border for ever. -/
theorem gridLoop_never_ends (positive : 1 ≤ size.toInt) (narrow : size.toInt < 4) (fuel : ℕ) :
    gridLoop line size fuel = none := by
  have still : size / 4 = 0 := by
    apply Int32.toInt_inj.mp
    rw [quarter (by omega)]
    change size.toInt / 4 = 0
    omega
  rw [gridLoop, loop_never_ends (I := fun s : Int32 × List CvLine => s.1 = 0) ?_ still fuel]
  · rfl
  · intro s here
    constructor
    · rw [here, decide_eq_true_iff, Int32.lt_iff_toInt_lt]
      change (0 : ℤ) < _
      omega
    · simp [gridRound, here, still]

end Loop

theorem drawGrid_eq_some {fuel : ℕ} {image : IplImage} {vertical horizontal : List CvLine} :
    drawGrid fuel image = some (vertical, horizontal) ↔
      gridLoop (verticalLine image) image.width fuel = some vertical ∧
        gridLoop (horizontalLine image) image.height fuel = some horizontal := by
  unfold drawGrid
  cases gridLoop (verticalLine image) image.width fuel with
  | none => simp
  | some v =>
      cases gridLoop (horizontalLine image) image.height fuel with
      | none => simp
      | some h => simp

/-- Both loops end, every line lies inside the picture, and from four pixels on there are
three lines each way. -/
def DrawsGrid (image : IplImage) : Prop :=
  ∃ fuel vertical horizontal, drawGrid fuel image = some (vertical, horizontal) ∧
    (∀ l ∈ vertical, ∃ x, l = verticalLine image x ∧ 0 < x ∧ x < image.width) ∧
    (∀ l ∈ horizontal, ∃ y, l = horizontalLine image y ∧ 0 < y ∧ y < image.height) ∧
    (4 ≤ image.width → 4 ≤ image.height → vertical.length = 3 ∧ horizontal.length = 3)

/-- A four by four grid is drawn exactly if four divides the width and the height. -/
theorem draws_grid_iff {image : IplImage} (width : 1 ≤ image.width) (height : 1 ≤ image.height) :
    DrawsGrid image ↔ 4 ∣ image.width.toInt ∧ 4 ∣ image.height.toInt := by
  have positiveWidth : 1 ≤ image.width.toInt := Int32.le_iff_toInt_le.mp width
  have positiveHeight : 1 ≤ image.height.toInt := Int32.le_iff_toInt_le.mp height
  constructor
  · rintro ⟨fuel, vertical, horizontal, drawn, _, _, three⟩
    obtain ⟨first, second⟩ := drawGrid_eq_some.mp drawn
    have wide : 4 ≤ image.width.toInt := by
      by_contra narrow
      rw [gridLoop_never_ends positiveWidth (not_le.mp narrow)] at first
      cases first
    have high : 4 ≤ image.height.toInt := by
      by_contra low
      rw [gridLoop_never_ends positiveHeight (not_le.mp low)] at second
      cases second
    obtain ⟨columns, rows⟩ := three (Int32.le_iff_toInt_le.mpr wide) (Int32.le_iff_toInt_le.mpr high)
    constructor
    · by_contra rest
      have four := gridLoop_four wide rest first
      omega
    · by_contra rest
      have four := gridLoop_four high rest second
      omega
  · rintro ⟨quarterWidth, quarterHeight⟩
    obtain ⟨f, vertical, first, inWidth, columns⟩ :=
      @gridLoop_three (verticalLine image) image.width (by omega) quarterWidth
    obtain ⟨g, horizontal, second, inHeight, rows⟩ :=
      @gridLoop_three (horizontalLine image) image.height (by omega) quarterHeight
    have both : drawGrid (f + g) image = some (vertical, horizontal) := by
      refine drawGrid_eq_some.mpr ⟨gridLoop_more first g, ?_⟩
      rw [Nat.add_comm]
      exact gridLoop_more second f
    exact ⟨f + g, vertical, horizontal, both, inWidth, inHeight, fun _ _ => ⟨columns, rows⟩⟩

/-- The picture whose middle is at 320, 180. -/
theorem draws_grid_640_360 : DrawsGrid ⟨640, 360⟩ :=
  (@draws_grid_iff ⟨640, 360⟩ (by decide) (by decide)).mpr ⟨by decide, by decide⟩

/-- Four lines on five pixels, and on three pixels the same line for ever. -/
theorem no_grid_on_five_pixels :
    drawGrid 5 ⟨5, 4⟩ = some
      ([1, 2, 3, 4].map (verticalLine ⟨5, 4⟩), [1, 2, 3].map (horizontalLine ⟨5, 4⟩)) ∧
    ¬ DrawsGrid ⟨5, 4⟩ ∧ (∀ fuel, drawGrid fuel ⟨3, 4⟩ = none) ∧ ¬ DrawsGrid ⟨3, 4⟩ := by
  have never (fuel : ℕ) : drawGrid fuel ⟨3, 4⟩ = none := by
    rw [drawGrid, gridLoop_never_ends (by decide) (by decide)]
    rfl
  refine ⟨by decide +kernel, ?_, never, ?_⟩
  · rintro ⟨fuel, vertical, horizontal, drawn, _, _, three⟩
    have four := gridLoop_four (by decide) (by decide) (drawGrid_eq_some.mp drawn).1
    have columns := (three (by decide) (by decide)).1
    omega
  · rintro ⟨fuel, vertical, horizontal, drawn, _⟩
    rw [never fuel] at drawn
    cases drawn

end Detector
end DroneParking
