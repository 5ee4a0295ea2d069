import DroneParking.Tracking
import DroneParking.Handlers
import DroneParking.Wire

/-!
# From the tracked pixel to the motion state

The detector computes a direction for the tracked marker; what it sends is
`drone_center`, whatever the direction, and nothing where there is none.
-/
namespace DroneParking

open Library (bind_apply get_apply modify_apply if_apply pure_apply throw_apply endState)

namespace Helper

/-- Differences that wrap are far outside the circle, and so are the true ones. -/
theorem insideCircle_iff (x y : Int32) : insideCircle x y = true ↔
    (x.toInt - 320) ^ 2 + (y.toInt - 180) ^ 2 < 900 := by
  have near (c : Int32) (bound : 0 ≤ c.toInt ∧ c.toInt ≤ 320) (z : Int32) :
      (z - c).toInt = z.toInt - c.toInt ∨
        (30 ≤ (z - c).toInt ∧ z.toInt - c.toInt ≤ -30) := by
    have low := z.le_toInt
    have high := z.toInt_lt
    rw [Int32.toInt_sub]
    by_cases fits : -2 ^ 31 ≤ z.toInt - c.toInt
    · left
      exact Int.bmod_eq_of_le (by omega) (by omega)
    · right
      have wrapped : (z.toInt - c.toInt).bmod (2 ^ 32) = z.toInt - c.toInt + 2 ^ 32 := by
        rw [← Int.add_bmod_right]
        exact Int.bmod_eq_of_le (by omega) (by omega)
      omega
  have hx : centerX.toInt = 320 := by decide
  have hy : centerY.toInt = 180 := by decide
  unfold insideCircle
  rw [decide_eq_true_iff]
  have nearX := near centerX (by omega) x
  have nearY := near centerY (by omega) y
  rw [hx] at nearX
  rw [hy] at nearY
  rcases nearX with sameX | ⟨farX, farX'⟩
  · rcases nearY with sameY | ⟨farY, farY'⟩
    · rw [sameX, sameY]
      norm_num
    · constructor <;> intro inside <;> nlinarith [sq_nonneg ((x - centerX).toInt), sq_nonneg (x.toInt - 320)]
  · constructor <;> intro inside <;> nlinarith [sq_nonneg ((y - centerY).toInt), sq_nonneg (y.toInt - 180)]

end Helper

/-- The outbox of a vision program whose connection works: messages in sending order. -/
def record : Sender (List Message) := fun m out => (.ok (), out ++ [m])

theorem steer_tracked {σ : Type} (sender : Sender σ) {v : Vision σ} {p : Marker}
    (valid : v.validFrame.getValidator = true) (tracked : v.detector.marker = some p) :
    Detector.steer sender v =
      match Helper.getDirection p.x p.y with
      | none => .error .nullPointer v
      | some _ => .ok () { v with socket := (sender .center v.socket).2 } := by
  rw [Detector.steer_apply, if_pos valid, tracked, Option.bind_some]
  cases Helper.getDirection p.x p.y with
  | none => rfl
  | some d => rfl

/-- The motion that brings the marker at `(x, y)` back to the middle of the picture. -/
def Toward (x y : ℤ) (motion : Library.Record PcmdKey JsNumber) : Prop :=
  if (x - 320) ^ 2 + (y - 180) ^ 2 < 900 then motion.entries = []
  else (320 < x → motion.get .right = some speed ∧ motion.get .left = none) ∧
    (x < 320 → motion.get .left = some speed ∧ motion.get .right = none) ∧
    (y < 180 → motion.get .front = some speed ∧ motion.get .back = none) ∧
    (180 < y → motion.get .back = some speed ∧ motion.get .front = none)

theorem toward_empty {x y : ℤ} :
    Toward x y .empty ↔ (x - 320) ^ 2 + (y - 180) ^ 2 < 900 := by
  unfold Toward
  split
  · next inside => simp [inside]
  · next outside =>
      refine ⟨?_, fun inside => absurd inside outside⟩
      rintro ⟨right, left, front, back⟩
      exfalso
      have middleX : x = 320 := by
        rcases lt_trichotomy x 320 with less | same | more
        · cases (left less).1
        · exact same
        · cases (right more).1
      have middleY : y = 180 := by
        rcases lt_trichotomy y 180 with less | same | more
        · cases (front less).1
        · exact same
        · cases (back more).1
      apply outside
      rw [middleX, middleY]
      norm_num

/-- A frame whose steering message, once delivered, has the drone fly toward the marker. -/
def SteersToMarker (v : Vision (List Message)) (p : Marker) (eol : Eol) (n : Node) : Prop :=
  ∃ m n', (endState (Detector.steer record v)).socket = v.socket ++ [m] ∧
    dataHandler (println m eol) n = .ok () n' ∧ Toward p.x.toInt p.y.toInt n'.client.pcmd

theorem steersToMarker_iff {v : Vision (List Message)} {p : Marker}
    (valid : v.validFrame.getValidator = true) (tracked : v.detector.marker = some p) (eol : Eol)
    (n : Node) : SteersToMarker v p eol n ↔
      (p.x.toInt - 320) ^ 2 + (p.y.toInt - 180) ^ 2 < 900 := by
  have stopped : (n.execute .center).client.pcmd = .empty := rfl
  unfold SteersToMarker
  rw [steer_tracked record valid tracked]
  constructor
  · rintro ⟨m, n', sent, handled, toward⟩
    cases direction : Helper.getDirection p.x p.y with
    | none =>
        rw [direction] at sent
        have sizes := congrArg List.length sent
        simp [endState] at sizes
    | some d =>
        rw [direction] at sent
        have same : Message.center = m := List.singleton_inj.mp (List.append_cancel_left sent)
        subst same
        rw [dataHandler_println] at handled
        cases handled
        rw [stopped] at toward
        exact toward_empty.mp toward
  · intro inside
    have direction : Helper.getDirection p.x p.y = some .center :=
      if_pos ((Helper.insideCircle_iff p.x p.y).mpr inside)
    rw [direction]
    refine ⟨.center, n.execute .center, rfl, dataHandler_println .center eol n, ?_⟩
    rw [stopped]
    exact toward_empty.mpr inside

/-- For every frame the validator accepts, vision steers toward the tracked marker exactly
if the marker is inside the circle, where there is nothing to steer. -/
theorem steers_iff_inside {h : List (Vision (List Message) × Option (List Marker))}
    {v : Vision (List Message)} (run : VisionRun record [] h v) (polje : List Marker) :
    ∃ v', Detector.observe record polje v = .ok () v' ∧
      (v'.validFrame.getValidator = true → ∃ p, v'.detector.marker = some p ∧
        ∀ eol n, SteersToMarker v' p eol n ↔
          (p.x.toInt - 320) ^ 2 + (p.y.toInt - 180) ^ 2 < 900) := by
  obtain ⟨v', observed, tracks⟩ := (run_tracks run).observe record polje
  refine ⟨v', observed, ?_⟩
  intro valid
  obtain ⟨_, _, _, p, _, _, _, _, tracked⟩ := tracks.recent valid
  exact ⟨p, tracked, steersToMarker_iff valid tracked⟩

theorem steers_at_center : SteersToMarker
    (endState (Detector.observe record [⟨1, 330, 170⟩]
      (watch record (List.replicate 9 (some [⟨1, 330, 170⟩])) { socket := [] })))
    ⟨1, 330, 170⟩ .lf (Node.start []) := by
  obtain ⟨h, run, _⟩ := watch_run record [] (List.replicate 9 (some [⟨1, 330, 170⟩]))
  obtain ⟨v', observed, steers⟩ := steers_iff_inside run [⟨1, 330, 170⟩]
  have computed : v' = endState (Detector.observe record [⟨1, 330, 170⟩]
      (watch record (List.replicate 9 (some [⟨1, 330, 170⟩])) { socket := [] })) := by
    rw [observed]
    rfl
  obtain ⟨p, tracked, fits⟩ := steers (by rw [computed]; decide +kernel)
  have same : v'.detector.marker = some ⟨1, 330, 170⟩ := by
    rw [computed]
    decide +kernel
  obtain rfl := Option.some.inj (tracked.symm.trans same)
  rw [← computed]
  exact (fits .lf (Node.start [])).mpr (by decide)

/-- Ten frames with the marker up on the right, and the drone is told to stand still. -/
theorem center_for_upright_marker : ∃ h,
    VisionRun record [] h (watch record (List.replicate 9 (some [⟨1, 400, 100⟩])) { socket := [] }) ∧
      h.map Prod.snd = List.replicate 9 (some [⟨1, 400, 100⟩]) ∧
      ∃ v', Detector.observe record [⟨1, 400, 100⟩]
          (watch record (List.replicate 9 (some [⟨1, 400, 100⟩])) { socket := [] }) = .ok () v' ∧
        v'.validFrame.getValidator = true ∧ v'.detector.marker = some ⟨1, 400, 100⟩ ∧
        Helper.getDirection 400 100 = some .upright ∧
        ¬ SteersToMarker v' ⟨1, 400, 100⟩ .lf (Node.start []) := by
  obtain ⟨h, run, shown⟩ := watch_run record [] (List.replicate 9 (some [⟨1, 400, 100⟩]))
  have observed : Detector.observe record [⟨1, 400, 100⟩]
      (watch record (List.replicate 9 (some [⟨1, 400, 100⟩])) { socket := [] }) = .ok () _ :=
    Library.eq_ok (by decide +kernel)
  have valid : (endState (Detector.observe record [⟨1, 400, 100⟩]
      (watch record (List.replicate 9 (some [⟨1, 400, 100⟩]))
        { socket := [] }))).validFrame.getValidator = true := by decide +kernel
  have tracked : (endState (Detector.observe record [⟨1, 400, 100⟩]
      (watch record (List.replicate 9 (some [⟨1, 400, 100⟩]))
        { socket := [] }))).detector.marker = some ⟨1, 400, 100⟩ := by decide +kernel
  refine ⟨h, run, shown, _, observed, valid, tracked, by decide, ?_⟩
  rw [steersToMarker_iff valid tracked]
  decide

end DroneParking
