import DroneParking.Tracking
import DroneParking.Library.Before

/-!
# The second marker

A frame announces the car only when the loop meets marker 2 after marker 1, so the
order in which the markers are listed decides about the landing.
-/
namespace DroneParking

open Library (endState Projects Before before_snoc)

/-- The connection with a record of every message handed to it, delivered or not. -/
def logged {σ : Type} (sender : Sender σ) : Sender (σ × List Message) := fun m s =>
  ((sender m s.1).1, (sender m s.1).2, s.2 ++ [m])

def Vision.forget {σ : Type} (v : Vision (σ × List Message)) : Vision σ :=
  ⟨v.detector, v.validFrame, v.socket.1⟩

def ids (polje : List Marker) : List Int32 := polje.map Marker.id

theorem targets_ne_nil {polje : List Marker} : targets polje ≠ [] ↔ 1 ∈ ids polje := by
  simp [targets, ids]

namespace Detector

section Logged
variable {σ : Type} (sender : Sender σ)

theorem inspect_projects (p : Marker) :
    Projects Vision.forget (inspect (logged sender) p) (inspect sender p) := by
  intro v
  rw [inspect_apply, inspect_apply]
  unfold inspected
  by_cases isTarget : p.id = 1
  · simp [isTarget, Vision.forget]
  · by_cases sends : v.detector.markerFound = true ∧ p.id = 2 <;>
      simp [isTarget, sends, Vision.forget, logged]

theorem inspectAll_projects (polje : List Marker) :
    Projects Vision.forget (inspectAll (logged sender) polje) (inspectAll sender polje) := by
  induction polje with
  | nil => exact fun _ => rfl
  | cons p polje ih => exact (inspect_projects sender p).bind fun _ => ih

theorem validate_projects :
    Projects (@Vision.forget σ) validate validate := by
  rintro ⟨detector, frame, s⟩
  unfold validate
  simp only [Vision.forget]
  cases frame.valid detector.markerFound <;> rfl

theorem steer_projects : Projects Vision.forget (steer (logged sender)) (steer sender) := by
  rintro ⟨detector, frame, s⟩
  rw [steer_apply, steer_apply]
  by_cases valid : frame.getValidator = true
  · by_cases known : (detector.marker.bind fun p => Helper.getDirection p.x p.y).isSome = true <;>
      simp [Vision.forget, logged, valid, known]
  · simp [Vision.forget, valid]

/-- Keeping the record changes nothing else. -/
theorem findMarker_projects (image : Option (List Marker)) :
    Projects Vision.forget (findMarker (logged sender) image) (findMarker sender image) := by
  cases image with
  | none => exact fun _ => rfl
  | some polje =>
      have observed : Projects Vision.forget (observe (logged sender) polje) (observe sender polje) :=
        Projects.bind (fun _ => rfl) fun _ =>
          (inspectAll_projects sender polje).bind fun _ => validate_projects
      exact observed.bind fun _ => steer_projects sender

end Logged

/-- The messages a frame hands to the connection. -/
def attempts {σ : Type} (sender : Sender σ) (v : Vision σ) (polje : List Marker) : List Message :=
  (endState (findMarker (logged sender) (some polje)
    ⟨v.detector, v.validFrame, (v.socket, [])⟩)).socket.2

def HasBoth (polje : List Marker) : Prop := 1 ∈ ids polje ∧ 2 ∈ ids polje

section CarFound
variable {σ : Type} (sender : Sender σ)

theorem inspected_carFound (p : Marker) (v : Vision (σ × List Message)) :
    Message.carFound ∈ (inspected (logged sender) p v).socket.2 ↔
      .carFound ∈ v.socket.2 ∨ (v.detector.markerFound = true ∧ p.id = 2) := by
  rw [inspected_socket]
  by_cases sends : v.detector.markerFound = true ∧ p.id = 2
  · simp [sends, logged]
  · simp [sends]

/-- The flag stands for a marker 1 among those before, so the loop sees the pair in order. -/
theorem inspectAll_carFound (polje : List Marker) (v : Vision (σ × List Message))
    (cleared : v.detector.markerFound = false) (fresh : v.socket.2 = []) :
    Message.carFound ∈ (polje.foldl (fun v p => inspected (logged sender) p v) v).socket.2 ↔
      Before 1 2 (ids polje) := by
  induction polje using List.reverseRecOn with
  | nil =>
      have none : ¬ Before 1 2 (ids []) := fun pair => by simpa [ids] using pair.both.1
      simp [fresh, none]
  | append_singleton polje p ih =>
      obtain ⟨_, found, _⟩ := inspected_fields (logged sender) polje v
      have listed : ids (polje ++ [p]) = ids polje ++ [p.id] := List.map_append
      rw [List.foldl_append, List.foldl_cons, List.foldl_nil, inspected_carFound, ih, found, cleared,
        Bool.false_or, decide_eq_true_iff, targets_ne_nil, listed, before_snoc]

theorem carFound_mem_attempts (v : Vision σ) (polje : List Marker) :
    .carFound ∈ attempts sender v polje ↔ Before 1 2 (ids polje) := by
  let announced : σ × List Message → Prop := fun s => .carFound ∈ s.2 ↔ Before 1 2 (ids polje)
  have center : ∀ s, announced s → announced (logged sender .center s).2 := by
    intro s hs
    simpa [announced, logged] using hs
  exact findMarker_after (P := announced) center polje ⟨v.detector, v.validFrame, (v.socket, [])⟩
    (inspectAll_carFound sender polje _ rfl rfl)

theorem HasBoth.perm {polje polje' : List Marker} (both : HasBoth polje') (h : polje'.Perm polje) :
    HasBoth polje :=
  ⟨(h.map Marker.id).mem_iff.mp both.1, (h.map Marker.id).mem_iff.mp both.2⟩

/-- A frame with both markers announces the car exactly if some marker 2 is listed behind a
marker 1, and no reordering matters exactly if one of the two is missing. -/
theorem announces_iff (v : Vision σ) (polje : List Marker) :
    ((.carFound ∈ attempts sender v polje ↔ HasBoth polje) ↔
        (HasBoth polje → Before 1 2 (ids polje))) ∧
      ((∀ polje' : List Marker, polje'.Perm polje →
        (.carFound ∈ attempts sender v polje' ↔ .carFound ∈ attempts sender v polje)) ↔
        ¬ HasBoth polje) := by
  simp only [carFound_mem_attempts]
  constructor
  · constructor
    · exact fun same both => same.mpr both
    · exact fun ordered => ⟨fun pair => pair.both, ordered⟩
  · constructor
    · intro same both
      have different : (1 : Int32) ≠ 2 := by decide
      obtain ⟨ahead, perm, pair⟩ :=
        Library.exists_perm_before Marker.id polje different both.1 both.2
      obtain ⟨behind, perm', nowhere⟩ := Library.exists_perm_not_before Marker.id polje different
      exact nowhere ((same behind perm').mpr ((same ahead perm).mp pair))
    · intro missing polje' perm
      have absent : ¬ Before 1 2 (ids polje) := fun pair => missing pair.both
      have absent' : ¬ Before 1 2 (ids polje') := fun pair => missing (HasBoth.perm pair.both perm)
      exact iff_of_false absent' absent

/-- Both markers are in the picture, and the car is announced in one order only. -/
theorem landing_depends_on_order :
    let offline : Sender Unit := fun _ u => (.error .ioException, u)
    HasBoth [⟨2, 0, 0⟩, ⟨1, 0, 0⟩] ∧
      .carFound ∉ attempts offline { socket := () } [⟨2, 0, 0⟩, ⟨1, 0, 0⟩] ∧
      .carFound ∈ attempts offline { socket := () } [⟨1, 0, 0⟩, ⟨2, 0, 0⟩] := by
  refine ⟨⟨by decide, by decide⟩, ?_, ?_⟩
  · decide +kernel
  · decide +kernel

end CarFound
end Detector
end DroneParking
