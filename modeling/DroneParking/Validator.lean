import DroneParking.Tracking
import DroneParking.Library.Object

/-!
# The validator as an object

`ValidFrame.java` with all its statics and every array access checked, called in any
order. It implements the history of its arguments.
-/
namespace DroneParking

open Library (bind_apply pure_apply get_apply throw_apply modify_apply if_apply)

namespace ValidFrame

/-- The statics of the class: beside the ring the counter, which outlives a call. -/
structure Statics where
  frame : ValidFrame := {}
  validFrames : ℕ := 0
  deriving DecidableEq, Repr

inductive Call where
  | valid (pronaden : Bool)
  | getValidator
  deriving DecidableEq, Repr

namespace Statics

def valid (pronaden : Bool) : EStateM JavaError Statics Unit := fun s =>
  match s.frame.valid pronaden with
  | .ok frame => .ok () { s with frame }
  | .error e => .error e s

/-- `poljeSlika[i]` -/
def read (i : ℕ) : EStateM JavaError Statics Bool := do
  match (← get).frame.poljeSlika[i]? with
  | some slika => pure slika
  | none => throw .arrayIndexOutOfBounds

/-- One round of the loop. -/
def countAt (i : ℕ) : EStateM JavaError Statics Unit := do
  if ← read i then modify fun s => { s with validFrames := s.validFrames + 1 }

/-- The rounds for `i` from 0 to `k - 1`. -/
def scan : ℕ → EStateM JavaError Statics Unit
  | 0 => pure ()
  | k + 1 => do
      scan k
      countAt k

def getValidator : EStateM JavaError Statics Bool := do
  modify fun s => { s with validFrames := 0 }
  -- nothing in the loop touches the array, so its bound stays the same
  scan ((← get).frame.poljeSlika.length - 1)
  return decide (10 ≤ (← get).validFrames)

def perform : Call → EStateM JavaError Statics (Option Bool)
  | .valid pronaden => do
      valid pronaden
      return none
  | .getValidator => return some (← getValidator)

theorem countAt_apply {s : Statics} {i : ℕ} (inside : i < s.frame.poljeSlika.length) :
    countAt i s =
      .ok () { s with validFrames := s.validFrames + [s.frame.poljeSlika[i]].count true } := by
  have cell : s.frame.poljeSlika[i]? = some s.frame.poljeSlika[i] := List.getElem?_eq_getElem inside
  unfold countAt read
  simp only [bind_apply, get_apply, cell, pure_apply, if_apply, modify_apply]
  cases s.frame.poljeSlika[i] <;> rfl

/-- The first `k` rounds stay inside the array and count its first `k` cells. -/
theorem scan_apply {s : Statics} {k : ℕ} (inside : k ≤ s.frame.poljeSlika.length) :
    scan k s =
      .ok () { s with validFrames := s.validFrames + (s.frame.poljeSlika.take k).count true } := by
  induction k with
  | zero => rfl
  | succ k ih =>
      let counted := { s with validFrames := s.validFrames + (s.frame.poljeSlika.take k).count true }
      have round := @countAt_apply counted k inside
      rw [scan, bind_apply, ih (Nat.le_of_succ_le inside),
        List.take_succ_eq_append_getElem inside, List.count_append, ← Nat.add_assoc]
      exact round

/-- The call with its loop gives the count that the vision program uses. -/
theorem getValidator_apply (s : Statics) : ∃ counted,
    getValidator s = .ok s.frame.getValidator { s with validFrames := counted } := by
  refine ⟨0 + (s.frame.poljeSlika.take (s.frame.poljeSlika.length - 1)).count true, ?_⟩
  unfold getValidator
  simp only [bind_apply, modify_apply, get_apply, pure_apply]
  rw [@scan_apply { s with validFrames := 0 } _ (Nat.sub_le _ 1), Nat.zero_add]
  rfl

end Statics

/-- What the class is for: a call replies for the last 49 arguments of `valid` so far. -/
def recent : Call → List Bool → Option Bool × List Bool
  | .valid pronaden, h => (none, h ++ [pronaden])
  | .getValidator, h => (some (decide (10 ≤ (h.rtake 49).count true)), h)

theorem Window.perform {s : Statics} {h : List Bool} (w : Window s.frame h) (call : Call) :
    ∃ s', Statics.perform call s = .ok (recent call h).1 s' ∧ Window s'.frame (recent call h).2 := by
  cases call with
  | valid pronaden =>
      obtain ⟨frame, written, next⟩ := w.valid pronaden
      refine ⟨{ s with frame }, ?_, next⟩
      simp only [Statics.perform, bind_apply, Statics.valid, written, pure_apply]
      rfl
  | getValidator =>
      obtain ⟨counted, answered⟩ := s.getValidator_apply
      refine ⟨{ s with validFrames := counted }, ?_, w⟩
      have answer : s.frame.getValidator = decide (10 ≤ (h.rtake 49).count true) := by
        rw [Bool.eq_iff_iff, decide_eq_true_iff]
        exact w.validator
      simp only [Statics.perform, bind_apply, answered, pure_apply, answer]
      rfl

/-- However the two calls are mixed, no access leaves the array, and every answer counts the
last 49 arguments and nothing else. -/
theorem sliding_window (calls : List Call) : ∃ s,
    Library.replies Statics.perform calls {} = .ok (Library.specified recent calls []) s :=
  Library.replies_refine (fun call _ _ w => w.perform call) calls
    (R := fun s h => Window s.frame h) Window.initial

end ValidFrame
end DroneParking
