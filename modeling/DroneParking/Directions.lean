import DroneParking.Library.Rounding
import DroneParking.Steering

/-!
# Every point and its direction

`Helper.getDirection` has an answer for the circle and for the four open
quadrants. The axes outside the circle belong to neither.
-/
namespace DroneParking

open Library (Rounding)

namespace Helper

/-- `Math.sqrt(Math.pow(x-centerX,2)+Math.pow(y-centerY,2))`, with the rounding `p` of `pow`
and the rounding `r` of the other operations. -/
noncomputable def distance (p r : Rounding) (x y : Int32) : ℝ :=
  Rounding.length p r (x - centerX).toInt (y - centerY).toInt

/-- However doubles round, the test of the circle comes out as on integers. -/
theorem insideCircle_distance (p r : Rounding) (x y : Int32) :
    insideCircle x y = true ↔ distance p r x y < 30 := by
  have exactly := Rounding.length_lt_iff p r (m := (x - centerX).toInt) (n := (y - centerY).toInt)
    (b := 30) (by norm_num) (by norm_num)
  rw [insideCircle, decide_eq_true_iff, ← exactly]
  norm_cast

end Helper

def Direction.isRight : Direction → Bool
  | .upright | .downright => true
  | .upleft | .downleft | .center => false

def Direction.isLeft : Direction → Bool
  | .upleft | .downleft => true
  | .upright | .downright | .center => false

def Direction.isUp : Direction → Bool
  | .upright | .upleft => true
  | .downright | .downleft | .center => false

def Direction.isDown : Direction → Bool
  | .downright | .downleft => true
  | .upright | .upleft | .center => false

/-- `d` is a direction for the point: the centre for the circle, and otherwise halves on
whose side the point is not. -/
structure Fits (x y : ℤ) (d : Direction) : Prop where
  center : d = .center ↔ (x - 320) ^ 2 + (y - 180) ^ 2 < 900
  right : d.isRight = true → 320 ≤ x
  left : d.isLeft = true → x ≤ 320
  up : d.isUp = true → y ≤ 180
  down : d.isDown = true → 180 ≤ y

/-- The point is inside the circle or on neither axis. -/
def OffAxes (x y : ℤ) : Prop := (x - 320) ^ 2 + (y - 180) ^ 2 < 900 ∨ (x ≠ 320 ∧ y ≠ 180)

section Point
variable (x y : Int32)

theorem right_iff : Helper.centerX < x ↔ 320 < x.toInt := Int32.lt_iff_toInt_lt
theorem left_iff : Helper.centerX > x ↔ x.toInt < 320 := Int32.lt_iff_toInt_lt
theorem down_iff : Helper.centerY < y ↔ 180 < y.toInt := Int32.lt_iff_toInt_lt
theorem up_iff : Helper.centerY > y ↔ y.toInt < 180 := Int32.lt_iff_toInt_lt

/-- What `getDirection` answers fits, and it answers off the axes only. -/
theorem getDirection_cases :
    (∃ d, Helper.getDirection x y = some d ∧ Fits x.toInt y.toInt d ∧ OffAxes x.toInt y.toInt) ∨
      (Helper.getDirection x y = none ∧ ¬ OffAxes x.toInt y.toInt) := by
  unfold Helper.getDirection
  simp only [right_iff, left_iff, down_iff, up_iff]
  split
  · next circle =>
      have inside := (Helper.insideCircle_iff x y).mp circle
      exact .inl ⟨.center, rfl, ⟨iff_of_true rfl inside, nofun, nofun, nofun, nofun⟩, .inl inside⟩
  · next circle =>
      have outside : ¬ ((x.toInt - 320) ^ 2 + (y.toInt - 180) ^ 2 < 900) := fun inside =>
        circle ((Helper.insideCircle_iff x y).mpr inside)
      -- the four open quadrants in the order of the source, then the axes
      split
      · next upright => exact .inl ⟨.upright, rfl, ⟨iff_of_false nofun outside, fun _ => by omega,
          nofun, fun _ => by omega, nofun⟩, .inr (by omega)⟩
      split
      · next downright => exact .inl ⟨.downright, rfl, ⟨iff_of_false nofun outside, fun _ => by omega,
          nofun, nofun, fun _ => by omega⟩, .inr (by omega)⟩
      split
      · next upleft => exact .inl ⟨.upleft, rfl, ⟨iff_of_false nofun outside, nofun,
          fun _ => by omega, fun _ => by omega, nofun⟩, .inr (by omega)⟩
      split
      · next downleft => exact .inl ⟨.downleft, rfl, ⟨iff_of_false nofun outside, nofun,
          fun _ => by omega, nofun, fun _ => by omega⟩, .inr (by omega)⟩
      refine .inr ⟨rfl, ?_⟩
      rintro (inside | ⟨offX, offY⟩)
      · exact outside inside
      · omega

end Point

/-- A point is classified, and its direction can be turned into text, exactly off the axes. -/
theorem direction_iff (x y : Int32) :
    ((∃ d, Helper.getDirection x y = some d ∧ Fits x.toInt y.toInt d) ↔ OffAxes x.toInt y.toInt) ∧
      ∀ (σ : Type) (sender : Sender σ) (v : Vision σ) (id : Int32),
        v.validFrame.getValidator = true → v.detector.marker = some ⟨id, x, y⟩ →
          ((∃ v', Detector.steer sender v = .ok () v') ↔ OffAxes x.toInt y.toInt) := by
  rcases getDirection_cases x y with ⟨d, answer, fits, off⟩ | ⟨silent, on⟩
  · refine ⟨iff_of_true ⟨d, answer, fits⟩ off, ?_⟩
    intro σ sender v id valid tracked
    rw [steer_tracked sender valid tracked, answer]
    exact iff_of_true ⟨_, rfl⟩ off
  · constructor
    · apply iff_of_false _ on
      rintro ⟨d, answer, _⟩
      rw [silent] at answer
      cases answer
    · intro σ sender v id valid tracked
      rw [steer_tracked sender valid tracked, silent]
      apply iff_of_false _ on
      rintro ⟨v', done⟩
      cases done

/-- A marker straight ahead, outside the circle, has no direction. -/
theorem straight_ahead_unclassified : Helper.getDirection 320 100 = none ∧
    ¬ ∃ d, Helper.getDirection 320 100 = some d ∧ Fits (320 : Int32).toInt (100 : Int32).toInt d := by
  have none : Helper.getDirection 320 100 = none := by decide
  refine ⟨none, ?_⟩
  rintro ⟨d, answer, _⟩
  rw [none] at answer
  cases answer

end DroneParking
