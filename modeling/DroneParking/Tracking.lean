import DroneParking.Vision
import DroneParking.Library.Run

/-!
# The tracked marker

The ring of validity bits is a window over the frames seen, and the marker field
is the last marker of number 1 among them; together they bound how old the
tracked marker can be.
-/
namespace DroneParking

open Library (bind_apply get_apply modify_apply if_apply pure_apply throw_apply endState Holds Run)

namespace ValidFrame

/-- The first 49 cells are a wrapping buffer over the bits `h`. -/
structure Window (v : ValidFrame) (h : List Bool) : Prop where
  cells : v.poljeSlika.length = 50
  holds : Holds false (v.poljeSlika.take 49) v.pozicija h

theorem Window.initial : Window {} [] := ⟨rfl, Holds.initial false (n := 49) (by decide)⟩

theorem Window.valid {v : ValidFrame} {h : List Bool} (w : Window v h) (pronaden : Bool) :
    ∃ v', v.valid pronaden = .ok v' ∧ Window v' (h ++ [pronaden]) := by
  have size : (v.poljeSlika.take 49).length = 49 := by rw [List.length_take, w.cells]; rfl
  have inside := w.holds.inside
  rw [size] at inside
  refine ⟨_, if_pos (by rw [w.cells]; omega), ?_, ?_⟩
  · rw [List.length_set, w.cells]
  · have pushed := w.holds.push pronaden
    rw [size] at pushed
    rw [List.take_set, w.cells]
    exact pushed

theorem Window.validator {v : ValidFrame} {h : List Bool} (w : Window v h) :
    v.getValidator = true ↔ 10 ≤ (h.rtake 49).count true := by
  have size : (v.poljeSlika.take 49).length = 49 := by rw [List.length_take, w.cells]; rfl
  unfold getValidator
  rw [decide_eq_true_iff, w.cells, w.holds.count (by decide), size]

end ValidFrame

def targets (polje : List Marker) : List Marker := polje.filter fun p => decide (p.id = 1)

theorem targets_append (a b : List Marker) : targets (a ++ b) = targets a ++ targets b :=
  List.filter_append a b

theorem targets_eq_nil {polje : List Marker} : targets polje = [] ↔ ∀ p ∈ polje, p.id ≠ 1 := by
  simp [targets]

namespace Detector

variable {σ : Type} (sender : Sender σ)

/-- One round of the loop, as a function of the state. -/
def inspected (p : Marker) (v : Vision σ) : Vision σ :=
  let v := if p.id = 1 then { v with detector := ⟨true, some p⟩ } else v
  if v.detector.markerFound = true ∧ p.id = 2 then { v with socket := (sender .carFound v.socket).2 }
  else v

theorem inspect_apply (p : Marker) (v : Vision σ) :
    inspect sender p v = .ok () (inspected sender p v) := by
  unfold inspect inspected send
  simp only [bind_apply, if_apply, modify_apply, get_apply, pure_apply]
  by_cases isTarget : p.id = 1
  · simp [isTarget]
  · cases found : v.detector.markerFound with
    | true => by_cases isCar : p.id = 2 <;> simp [isTarget, isCar, found]
    | false => simp [isTarget, found]

theorem inspectAll_apply (polje : List Marker) (v : Vision σ) : inspectAll sender polje v =
    .ok () (polje.foldl (fun v p => inspected sender p v) v) := by
  induction polje generalizing v with
  | nil => rfl
  | cons p polje ih =>
      unfold inspectAll
      rw [bind_apply, inspect_apply]
      exact ih _

theorem observe_apply (polje : List Marker) (v : Vision σ) : observe sender polje v =
    validate (polje.foldl (fun v p => inspected sender p v)
      { v with detector := { v.detector with markerFound := false } }) := by
  unfold observe
  simp only [bind_apply, modify_apply, inspectAll_apply]

theorem inspected_one (p : Marker) (v : Vision σ) :
    (inspected sender p v).detector.marker = (targets [p]).getLast?.or v.detector.marker ∧
      (inspected sender p v).detector.markerFound =
        (v.detector.markerFound || decide (targets [p] ≠ [])) ∧
      (inspected sender p v).validFrame = v.validFrame := by
  unfold inspected targets
  by_cases isTarget : p.id = 1
  · simp [isTarget]
  · cases found : v.detector.markerFound with
    | true => by_cases isCar : p.id = 2 <;> simp [isTarget, isCar, found]
    | false => simp [isTarget, found]

theorem inspected_socket (p : Marker) (v : Vision σ) : (inspected sender p v).socket =
    if v.detector.markerFound = true ∧ p.id = 2 then (sender .carFound v.socket).2
    else v.socket := by
  unfold inspected
  by_cases isTarget : p.id = 1
  · simp [isTarget]
  · by_cases sends : v.detector.markerFound = true ∧ p.id = 2 <;> simp [isTarget, sends]

/-- The loop finds the last marker of number 1, keeps an older one if there is none, and
leaves the validity bits alone. -/
theorem inspected_fields (polje : List Marker) (v : Vision σ) :
    let v' := polje.foldl (fun v p => inspected sender p v) v
    v'.detector.marker = (targets polje).getLast?.or v.detector.marker ∧
      v'.detector.markerFound = (v.detector.markerFound || decide (targets polje ≠ [])) ∧
      v'.validFrame = v.validFrame := by
  induction polje using List.reverseRecOn with
  | nil => simp [targets]
  | append_singleton polje p ih =>
      simp only [List.foldl_append, List.foldl_cons, List.foldl_nil, targets_append]
      obtain ⟨marker, found, bits⟩ := ih
      obtain ⟨marker', found', bits'⟩ :=
        inspected_one sender p (polje.foldl (fun v p => inspected sender p v) v)
      refine ⟨?_, ?_, ?_⟩
      · rw [marker', marker, List.getLast?_append, Option.or_assoc]
      · rw [found', found, Bool.or_assoc]
        simp
      · rw [bits', bits]

/-- After the call of `valid` a frame sends `drone_center` at most, or throws. -/
theorem steer_apply (v : Vision σ) : steer sender v =
    if v.validFrame.getValidator = true then
      if (v.detector.marker.bind fun p => Helper.getDirection p.x p.y).isSome = true then
        .ok () { v with socket := (sender .center v.socket).2 }
      else .error .nullPointer v
    else .ok () v := by
  unfold steer
  simp only [bind_apply, get_apply, if_apply]
  cases v.detector.marker with
  | none => rfl
  | some marker => cases direction : Helper.getDirection marker.x marker.y <;> simp [direction, send]

theorem steer_cases (v : Vision σ) : endState (steer sender v) = v ∨
    endState (steer sender v) = { v with socket := (sender .center v.socket).2 } := by
  rw [steer_apply]
  split
  · split
    · exact .inr rfl
    · exact .inl rfl
  · exact .inl rfl

theorem steer_frame (v : Vision σ) : (endState (steer sender v)).detector = v.detector ∧
    (endState (steer sender v)).validFrame = v.validFrame := by
  rcases steer_cases sender v with same | sent
  · rw [same]
    exact ⟨rfl, rfl⟩
  · rw [sent]
    exact ⟨rfl, rfl⟩

section Keeps
variable {sender} {P : σ → Prop}

theorem inspectAll_keeps (car : ∀ s, P s → P (sender .carFound s).2) (polje : List Marker)
    (v : Vision σ) (hv : P v.socket) :
    P (polje.foldl (fun v p => inspected sender p v) v).socket := by
  induction polje generalizing v with
  | nil => exact hv
  | cons p polje ih =>
      apply ih
      rw [inspected_socket]
      split
      · exact car _ hv
      · exact hv

theorem steer_keeps (center : ∀ s, P s → P (sender .center s).2) (v : Vision σ) (hv : P v.socket) :
    P (endState (steer sender v)).socket := by
  rcases steer_cases sender v with same | sent
  · rw [same]
    exact hv
  · rw [sent]
    exact center _ hv

/-- A property of the connection that the loop establishes survives the rest of the frame. -/
theorem findMarker_after (center : ∀ s, P s → P (sender .center s).2) (polje : List Marker)
    (v : Vision σ) (looked : P (polje.foldl (fun v p => inspected sender p v)
      { v with detector := { v.detector with markerFound := false } }).socket) :
    P (endState (findMarker sender (some polje) v)).socket := by
  change P (endState ((observe sender polje >>= fun _ => steer sender) v)).socket
  rw [bind_apply, observe_apply]
  unfold validate
  cases (polje.foldl (fun v p => inspected sender p v)
      { v with detector := { v.detector with markerFound := false } }).validFrame.valid _ with
  | ok f => exact steer_keeps center _ looked
  | error e => exact looked

/-- A property of the connection that both sends keep is kept by every frame. -/
theorem findMarker_keeps (car : ∀ s, P s → P (sender .carFound s).2)
    (center : ∀ s, P s → P (sender .center s).2) (image : Option (List Marker)) (v : Vision σ)
    (hv : P v.socket) : P (endState (findMarker sender image v)).socket := by
  cases image with
  | none => exact hv
  | some polje => exact findMarker_after center polje v (inspectAll_keeps car polje _ hv)

end Keeps

theorem findMarker_observed {sender : Sender σ} {polje : List Marker} {v m : Vision σ}
    (observed : observe sender polje v = .ok () m) :
    findMarker sender (some polje) v = steer sender m := by
  change (observe sender polje >>= fun _ => steer sender) v = _
  rw [bind_apply, observed]

end Detector

def watch {σ : Type} (sender : Sender σ) (images : List (Option (List Marker))) (v : Vision σ) :
    Vision σ :=
  images.foldl (fun v image => endState (Detector.findMarker sender image v)) v

/-- A frame of the run: a `null` image changes nothing; after any other, the detector and
the validity bits are those after the call of `valid`, however the frame ends. -/
def FrameStep {σ : Type} (sender : Sender σ) (v : Vision σ) (image : Option (List Marker))
    (v' : Vision σ) : Prop :=
  match image with
  | none => v' = v
  | some polje => ∃ m, Detector.observe sender polje v = .ok () m ∧
      v'.detector = m.detector ∧ v'.validFrame = m.validFrame

abbrev VisionRun {σ : Type} (sender : Sender σ) (s : σ) :=
  Run (FrameStep sender) ({ socket := s } : Vision σ)

def seen {σ : Type} (h : List (Vision σ × Option (List Marker))) : List (List Marker) :=
  h.filterMap Prod.snd

structure Tracks {σ : Type} (v : Vision σ) (frames : List (List Marker)) : Prop where
  window : v.validFrame.Window (frames.map fun polje => decide (targets polje ≠ []))
  marker : v.detector.marker = (targets frames.flatten).getLast?

section Run
variable {σ : Type} {sender : Sender σ} {v : Vision σ} {frames : List (List Marker)}

/-- Observing a frame cannot fail, and shifts the window by that frame. -/
theorem Tracks.observe (tracks : Tracks v frames) (sender : Sender σ) (polje : List Marker) :
    ∃ v', Detector.observe sender polje v = .ok () v' ∧ Tracks v' (frames ++ [polje]) := by
  -- the flag is cleared before the loop, so it speaks of this frame only
  have fresh := Detector.inspected_fields sender polje
    { v with detector := { v.detector with markerFound := false } }
  obtain ⟨marker, found, bits⟩ := fresh
  obtain ⟨f, written, window⟩ := tracks.window.valid (decide (targets polje ≠ []))
  refine ⟨{ polje.foldl (fun v p => Detector.inspected sender p v)
    { v with detector := { v.detector with markerFound := false } } with validFrame := f }, ?_, ?_⟩
  · rw [Detector.observe_apply]
    unfold Detector.validate
    rw [bits, found, Bool.false_or, written]
  · constructor
    · rw [List.map_append]
      exact window
    · rw [List.flatten_append, targets_append, List.getLast?_append]
      simp only [List.flatten_cons, List.flatten_nil, List.append_nil]
      rw [marker, tracks.marker]

theorem Tracks.step (tracks : Tracks v frames) {image : Option (List Marker)} {v' : Vision σ}
    (step : FrameStep sender v image v') : Tracks v' (frames ++ image.toList) := by
  cases image with
  | none =>
      cases step
      simpa using tracks
  | some polje =>
      obtain ⟨m, observed, detector, validFrame⟩ := step
      obtain ⟨m', observed', tracks'⟩ := tracks.observe sender polje
      rw [observed] at observed'
      cases observed'
      exact ⟨by rw [validFrame]; exact tracks'.window, by rw [detector]; exact tracks'.marker⟩

theorem run_tracks {s : σ} {h : List (Vision σ × Option (List Marker))}
    (run : VisionRun sender s h v) : Tracks v (seen h) := by
  induction run with
  | nil => exact ⟨ValidFrame.Window.initial, rfl⟩
  | @snoc h v image v' prior step ih =>
      have extended : seen (h ++ [(v, image)]) = seen h ++ image.toList := by
        cases image <;> simp [seen]
      rw [extended]
      exact ih.step step

/-- What the code makes of a frame is a step, also when the frame ends in an exception. -/
theorem Tracks.findMarker (tracks : Tracks v frames) (image : Option (List Marker)) :
    FrameStep sender v image (endState (Detector.findMarker sender image v)) := by
  cases image with
  | none => exact rfl
  | some polje =>
      obtain ⟨m, observed, _⟩ := tracks.observe sender polje
      refine ⟨m, observed, ?_⟩
      rw [Detector.findMarker_observed observed]
      exact Detector.steer_frame sender m

theorem watch_run (sender : Sender σ) (s : σ) (images : List (Option (List Marker))) :
    ∃ h, VisionRun sender s h (watch sender images { socket := s }) ∧ h.map Prod.snd = images :=
  Run.nil.replay fun image _ _ _ run => (run_tracks run).findMarker image

/-- A validator that says yes vouches for a recent frame with the tracked marker. -/
theorem Tracks.recent (tracks : Tracks v frames) (valid : v.validFrame.getValidator = true) :
    ∃ older polje newer marker, frames = older ++ polje :: newer ∧ newer.length ≤ 39 ∧
      (∀ a ∈ newer, targets a = []) ∧ (targets polje).getLast? = some marker ∧
      v.detector.marker = some marker := by
  obtain ⟨before, after, split, fresh, near⟩ :=
    Library.latest_recent (by decide) (tracks.window.validator.mp valid)
  obtain ⟨older, rest, rfl, rfl, tail⟩ := List.map_eq_append_iff.mp split
  obtain ⟨polje, newer, rfl, marked, rfl⟩ := List.map_eq_cons_iff.mp tail
  have quiet : ∀ a ∈ newer, targets a = [] := by
    intro a ha
    by_contra some
    exact fresh (List.mem_map.mpr ⟨a, ha, decide_eq_true some⟩)
  have none : targets newer.flatten = [] := by
    rw [targets_eq_nil]
    intro p hp
    obtain ⟨a, ha, hp⟩ := List.mem_flatten.mp hp
    exact targets_eq_nil.mp (quiet a ha) p hp
  have nonempty : targets polje ≠ [] := of_decide_eq_true marked
  refine ⟨older, polje, newer, (targets polje).getLast nonempty, rfl, ?_, quiet,
    List.getLast?_eq_some_getLast nonempty, ?_⟩
  · rw [List.length_map] at near
    omega
  · rw [tracks.marker, List.flatten_append, List.flatten_cons, targets_append, targets_append,
      none, List.append_nil, List.getLast?_append, List.getLast?_eq_some_getLast nonempty]
    rfl

end Run

/-- Whenever line 82 finds the validator true, the marker is there and comes from the most
recent frame that had one, at most 39 frames back. -/
theorem tracked_marker {σ : Type} (sender : Sender σ) (s : σ)
    {h : List (Vision σ × Option (List Marker))} {v : Vision σ} (run : VisionRun sender s h v)
    (polje : List Marker) : ∃ v', Detector.observe sender polje v = .ok () v' ∧
      (v'.validFrame.getValidator = true → ∃ older latest newer marker,
        seen h ++ [polje] = older ++ latest :: newer ∧ newer.length ≤ 39 ∧
        (∀ a ∈ newer, ∀ p ∈ a, p.id ≠ 1) ∧
        (latest.filter fun p => decide (p.id = 1)).getLast? = some marker ∧
        v'.detector.marker = some marker) := by
  obtain ⟨v', observed, tracks⟩ := (run_tracks run).observe sender polje
  refine ⟨v', observed, ?_⟩
  intro valid
  obtain ⟨older, latest, newer, marker, split, near, quiet, last, tracked⟩ := tracks.recent valid
  exact ⟨older, latest, newer, marker, split, near,
    fun a ha => targets_eq_nil.mp (quiet a ha), last, tracked⟩

/-- Ten frames with the marker, over a connection on which every send fails. -/
theorem tracked_after_ten : ∃ older latest newer marker,
    List.replicate 10 [(⟨1, 320, 180⟩ : Marker)] = older ++ latest :: newer ∧ newer.length ≤ 39 ∧
      (∀ a ∈ newer, ∀ p ∈ a, p.id ≠ 1) ∧
      (latest.filter fun p => decide (p.id = 1)).getLast? = some marker := by
  let failing : Sender Unit := fun _ u => (.error .ioException, u)
  obtain ⟨h, run, shown⟩ := watch_run failing () (List.replicate 9 (some [⟨1, 320, 180⟩]))
  obtain ⟨v', observed, tracked⟩ := tracked_marker failing () run [⟨1, 320, 180⟩]
  have valid : (endState (Detector.observe failing [⟨1, 320, 180⟩]
      (watch failing (List.replicate 9 (some [⟨1, 320, 180⟩]))
        { socket := () }))).validFrame.getValidator = true := by decide +kernel
  rw [observed] at valid
  obtain ⟨older, latest, newer, marker, split, near, quiet, last, _⟩ := tracked valid
  have frames : seen h = List.replicate 9 [⟨1, 320, 180⟩] := by
    have images : seen h = (h.map Prod.snd).filterMap id := by
      rw [List.filterMap_map]
      rfl
    rw [images, shown]
    rfl
  rw [frames] at split
  exact ⟨older, latest, newer, marker, split, near, quiet, last⟩

end DroneParking
