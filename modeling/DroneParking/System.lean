import DroneParking.Flight
import DroneParking.Steering
import DroneParking.Waypoints

/-!
# Vision program and drone node together

The buttons and the detector send lines over a working connection; each line
reaches the data handler as one chunk, in the order of sending.
-/
namespace DroneParking

open Library (Run Since endState bind_apply)

structure System where
  vision : Vision (List Message)
  node : Node
  deriving DecidableEq, Repr

inductive SystemEvent where
  | startPressed
  | landPressed
  | frame (image : Option (List Marker))
  | node (e : Event)
  deriving DecidableEq, Repr

def Vision.cleared (v : Vision (List Message)) : Vision (List Message) := { v with socket := [] }

/-- The vision program after a frame, its outbox holding the frame's messages. -/
def afterFrame (v : Vision (List Message)) (image : Option (List Marker)) : Vision (List Message) :=
  endState (Detector.findMarker record image v.cleared)

/-- One event and the delivery of every message it sent. -/
def SystemStep (rt : Runtime) (eol : Eol) (s : System) (e : SystemEvent) (s' : System) : Prop :=
  match e with
  | .startPressed => s'.vision = s.vision ∧ serve [println .start eol] s.node = .ok () s'.node
  | .landPressed => s'.vision = s.vision ∧ serve [println .land eol] s.node = .ok () s'.node
  | .frame image => s'.vision = afterFrame s.vision image ∧
      serve ((afterFrame s.vision image).socket.map fun m => println m eol) s.node = .ok () s'.node
  | .node e => s'.vision = s.vision ∧ (∀ connection chunk, e ≠ .data connection chunk) ∧
      Step rt s.node e s'.node

def System.shown (eol : Eol) (s : System) : SystemEvent → System
  | .frame image =>
      ⟨afterFrame s.vision image,
        endState (serve ((afterFrame s.vision image).socket.map fun m => println m eol) s.node)⟩
  | .startPressed | .landPressed | .node _ => s

theorem frame_step (rt : Runtime) (eol : Eol) (s : System) (image : Option (List Marker)) :
    SystemStep rt eol s (.frame image) (s.shown eol (.frame image)) := by
  refine ⟨rfl, ?_⟩
  simp only [System.shown, serve_apply, endState]

def System.start (coordinates : JsString) : System := ⟨{ socket := [] }, Node.start coordinates⟩

abbrev SystemRun (rt : Runtime) (eol : Eol) (coordinates : JsString) :=
  Run (SystemStep rt eol) (System.start coordinates)

/-- A frame sends nothing but `drone_carFound` and `drone_center`. -/
theorem frame_messages (v : Vision (List Message)) (image : Option (List Marker)) :
    ∀ m ∈ (afterFrame v image).socket, m = .carFound ∨ m = .center := by
  have appended (w : Message) (hw : w = .carFound ∨ w = .center) (s : List Message)
      (hs : ∀ m ∈ s, m = .carFound ∨ m = .center) :
      ∀ m ∈ (record w s).2, m = .carFound ∨ m = .center := by
    intro m hm
    rcases List.mem_append.mp hm with old | new
    · exact hs m old
    · rw [List.mem_singleton.mp new]
      exact hw
  exact Detector.findMarker_keeps (P := fun s => ∀ m ∈ s, m = .carFound ∨ m = .center)
    (appended .carFound (.inl rfl)) (appended .center (.inr rfl)) image v.cleared (by
      intro m hm
      cases hm)

theorem serve_run {rt : Runtime} {coordinates : JsString} {h : List (Node × Event)} {n n' : Node}
    (run : NodeRun rt coordinates h n) {chunks : List JsString}
    (served : serve chunks n = .ok () n') : ∃ h', NodeRun rt coordinates (h ++ h') n' ∧
      h'.map Prod.snd = chunks.map (Event.data 0) := by
  induction chunks generalizing h n with
  | nil =>
      cases served
      exact ⟨[], by rwa [List.append_nil], rfl⟩
  | cons chunk chunks ih =>
      unfold serve at served
      rw [bind_apply, dataHandler_apply] at served
      have step : Step rt n (.data 0 chunk) _ := data_step.mpr rfl
      obtain ⟨h', later, same⟩ := ih (run.snoc step) served
      refine ⟨(n, .data 0 chunk) :: h', ?_, ?_⟩
      · rw [List.append_assoc] at later
        exact later
      · rw [List.map_cons, same, List.map_cons]

/-- What the Java program can make the node handle. -/
def FromJava (eol : Eol) (e : Event) : Prop :=
  ∀ connection chunk, e = .data connection chunk →
    ∃ m, chunk = println m eol ∧ (m = .start ∨ m = .land ∨ m = .carFound ∨ m = .center)

/-- Lines of the Java program extend a run of the node that has met no others. -/
theorem lines_run {rt : Runtime} {eol : Eol} {coordinates : JsString} {hn : List (Node × Event)}
    {n n' : Node} (node : NodeRun rt coordinates hn n) (java : ∀ q ∈ hn, FromJava eol q.2)
    (ms : List Message) (hms : ∀ m ∈ ms, m = .start ∨ m = .land ∨ m = .carFound ∨ m = .center)
    (served : serve (ms.map fun m => println m eol) n = .ok () n') :
    ∃ hn', NodeRun rt coordinates hn' n' ∧ ∀ q ∈ hn', FromJava eol q.2 := by
  obtain ⟨h', later, same⟩ := serve_run node served
  refine ⟨hn ++ h', later, ?_⟩
  intro q hq
  rcases List.mem_append.mp hq with old | new
  · exact java q old
  · have event : q.2 ∈ h'.map Prod.snd := List.mem_map_of_mem new
    rw [same] at event
    simp only [List.map_map, List.mem_map, Function.comp_apply] at event
    obtain ⟨m, member, shape⟩ := event
    intro connection chunk isData
    rw [← shape] at isData
    cases isData
    exact ⟨m, rfl, hms m member⟩

/-- The node of a system run makes a run of its own, on lines of the Java program. -/
theorem system_node {rt : Runtime} {eol : Eol} {coordinates : JsString}
    {h : List (System × SystemEvent)} {s : System} (run : SystemRun rt eol coordinates h s) :
    ∃ hn, NodeRun rt coordinates hn s.node ∧ ∀ q ∈ hn, FromJava eol q.2 := by
  induction run with
  | nil => exact ⟨[], .nil, by simp⟩
  | @snoc h s e s' prior step ih =>
      obtain ⟨hn, node, java⟩ := ih
      cases e with
      | startPressed => exact lines_run node java [.start] (by simp) step.2
      | landPressed => exact lines_run node java [.land] (by simp) step.2
      | frame image =>
          apply lines_run node java _ _ step.2
          intro m hm
          rcases frame_messages s.vision image m hm with rfl | rfl <;> simp
      | node e =>
          obtain ⟨_, silent, step⟩ := step
          refine ⟨hn ++ [(s.node, e)], node.snoc step, ?_⟩
          intro q hq
          rcases List.mem_append.mp hq with old | new
          · exact java q old
          · rw [List.mem_singleton.mp new]
            intro connection chunk isData
            exact absurd isData (silent connection chunk)

section Run
variable {rt : Runtime} {eol : Eol} {coordinates : JsString} {h : List (System × SystemEvent)}
  {s : System}

theorem never_flies (run : SystemRun rt eol coordinates h s) : s.node.client.ref.fly ≠ some true := by
  obtain ⟨hn, node, java⟩ := system_node run
  intro flies
  obtain ⟨q, member, takesOff⟩ := ((fly_iff node).mp flies).occurs
  obtain ⟨n, e⟩ := q
  cases e with
  | data connection chunk =>
      obtain ⟨m, rfl, sent⟩ := java _ member connection chunk rfl
      have text : m = .takeoff :=
        Message.text_injective ((println_trim m eol).symm.trans takesOff)
      subst text
      simp at sent
  | navdata | timeout | tick | ackTimeout | ctrlInterval => exact takesOff.elim

/-- No line of the Java program ends the waypoint search. -/
theorem never_found (run : SystemRun rt eol coordinates h s) : s.node.markerFound = false := by
  obtain ⟨hn, node, java⟩ := system_node run
  rw [← Bool.not_eq_true, markerFound_iff node]
  rintro ⟨⟨n, e⟩, member, finds⟩
  cases e with
  | data connection chunk =>
      obtain ⟨m, rfl, sent⟩ := java _ member connection chunk rfl
      have text : m = .found := Message.text_injective ((println_trim m eol).symm.trans finds)
      subst text
      simp at sent
  | navdata | timeout | tick | ackTimeout | ctrlInterval => exact finds.elim

end Run

/-! The operator's view. -/

def StartPressed (q : System × SystemEvent) : Prop := q.2 = .startPressed

/-- A press of Land, a frame for which `drone_carFound` was sent, or the auto-land. -/
def Grounds : System × SystemEvent → Prop
  | (_, .landPressed) => True
  | (s, .frame image) => .carFound ∈ (afterFrame s.vision image).socket
  | (_, .node e) => e = .timeout .autoLand
  | _ => False

/-- The node flies exactly when the operator has started it and nothing has grounded it. -/
def FliesAsOrdered (h : List (System × SystemEvent)) (s : System) : Prop :=
  s.node.client.ref.fly = some true ↔ Since StartPressed Grounds h

/-- The flight state follows the buttons throughout a run exactly if Start is never pressed. -/
theorem flies_as_ordered_iff (rt : Runtime) (eol : Eol) (coordinates : JsString)
    {h : List (System × SystemEvent)} {s : System} (run : SystemRun rt eol coordinates h s) :
    (∀ h₁ h₂ s₁, h = h₁ ++ h₂ → SystemRun rt eol coordinates h₁ s₁ → FliesAsOrdered h₁ s₁) ↔
      ∀ q ∈ h, ¬ StartPressed q := by
  constructor
  · intro follows q member pressed
    obtain ⟨s₀, e⟩ := q
    obtain ⟨h₁, h₂, rfl⟩ := List.append_of_mem member
    cases pressed
    -- right after the first press the operator expects a flight that never begins
    have here : Since StartPressed Grounds (h₁ ++ [(s₀, .startPressed)]) :=
      Library.since_snoc.mpr (.inl rfl)
    obtain ⟨s₁, reached⟩ : ∃ s₁, SystemRun rt eol coordinates (h₁ ++ [(s₀, .startPressed)]) s₁ :=
      run.upto rfl
    exact never_flies reached ((follows _ h₂ s₁ (by simp) reached).mpr here)
  · intro quiet h₁ h₂ s₁ split reached
    apply iff_of_false (never_flies reached)
    intro since
    obtain ⟨q, member, pressed⟩ := since.occurs
    exact quiet q (by rw [split]; exact List.mem_append_left _ member) pressed

/-- Land, a frame in which the car is found, and the auto-land: the drone stays down. -/
theorem landing_follows : ∃ h s, SystemRun (.asWritten fun _ => .nan) .lf [] h s ∧
    h.map Prod.snd = [.landPressed, .frame (some [⟨1, 320, 180⟩, ⟨2, 320, 180⟩]),
      .node (.timeout .autoLand)] ∧
    (∃ q ∈ h, q.2 ≠ .landPressed ∧ Grounds q) ∧ FliesAsOrdered h s := by
  let car : SystemEvent := .frame (some [⟨1, 320, 180⟩, ⟨2, 320, 180⟩])
  let s₁ : System := ⟨{ socket := [] }, (Node.start []).execute .land⟩
  let s₂ := s₁.shown .lf car
  have land : SystemStep (.asWritten fun _ => .nan) .lf (System.start []) .landPressed s₁ :=
    ⟨rfl, serve_apply _ _⟩
  have found : SystemStep (.asWritten fun _ => .nan) .lf s₁ car s₂ := frame_step _ .lf s₁ _
  have timer : SystemStep (.asWritten fun _ => .nan) .lf s₂ (.node (.timeout .autoLand))
      ⟨s₂.vision, endState (handle (.asWritten fun _ => .nan) (.timeout .autoLand) s₂.node)⟩ :=
    ⟨rfl, nofun, (by decide +kernel : (Timer.autoLand ∈ s₂.node.timers.map Prod.snd)), rfl⟩
  have carSent : Message.carFound ∈ (afterFrame s₁.vision
      (some [⟨1, 320, 180⟩, ⟨2, 320, 180⟩])).socket := by decide +kernel
  have run := ((Run.single land).snoc found).snoc timer
  refine ⟨_, _, run, rfl, ⟨(s₁, car), by simp, nofun, carSent⟩, ?_⟩
  refine (flies_as_ordered_iff _ _ _ run).mpr ?_ _ [] _ (List.append_nil _).symm run
  intro q member pressed
  have events : q.2 ∈ [SystemEvent.landPressed, car, .node (.timeout .autoLand)] :=
    List.mem_map_of_mem member
  rw [StartPressed] at pressed
  rw [pressed] at events
  exact absurd events (by decide)

/-- The Start button sends a word that the handler does not know. -/
theorem start_not_followed : ∃ s,
    SystemRun (.asWritten fun _ => .nan) .lf [] [(System.start [], .startPressed)] s ∧
      s.node.client.ref.fly = none ∧ ¬ FliesAsOrdered [(System.start [], .startPressed)] s := by
  refine ⟨⟨{ socket := [] }, (Node.start []).execute .start⟩, Run.single ⟨rfl, ?_⟩, rfl, ?_⟩
  · exact serve_apply _ _
  · intro follows
    have flies := follows.mpr (Library.since_snoc (h := []).mpr (.inl rfl))
    cases flies

/-! The hand-over from the waypoint search to vision. -/

/-- A frame whose bit makes the validator say yes. -/
def Validated : System × SystemEvent → Prop
  | (s, .frame (some polje)) => ∃ v, Detector.observe record polje s.vision.cleared = .ok () v ∧
      v.validFrame.getValidator = true
  | _ => False

def AfterValidated (P : System × SystemEvent → Prop) (h : List (System × SystemEvent)) : Prop :=
  ∀ h₁ q h₂, h = h₁ ++ q :: h₂ → (∃ f ∈ h₁, Validated f) → P q

/-- A packet that changes no waypoint and has the listener call neither `stop` nor `land`. -/
def Undisturbed (rt : Runtime) (eol : Eol) (q : System × SystemEvent) : Prop :=
  ∀ data position, q.2 = .node (.navdata data position) →
    ∀ s', SystemStep rt eol q.1 q.2 s' → Keeps q.1.node s'.node

/-- The search is never ended, and once a frame was validated the packets leave vision in
charge exactly if none of them reaches the listener with something to do. -/
theorem handover_iff (toNumber : JsString → JsNumber) (eol : Eol) (coordinates : JsString)
    {h : List (System × SystemEvent)} {s : System}
    (run : SystemRun (.atPosition toNumber) eol coordinates h s) :
    s.node.markerFound = false ∧ (AfterValidated (Undisturbed (.atPosition toNumber) eol) h ↔
      AfterValidated (fun q => ∀ data position, q.2 = .node (.navdata data position) →
        Quiet (.atPosition toNumber) q.1.node data position) h) := by
  have same : ∀ h₁ q h₂, h = h₁ ++ q :: h₂ → (Undisturbed (.atPosition toNumber) eol q ↔
      ∀ data position, q.2 = .node (.navdata data position) →
        Quiet (.atPosition toNumber) q.1.node data position) := by
    intro h₁ q h₂ split
    obtain ⟨m, e⟩ := q
    obtain ⟨h₀, m', prior, step⟩ := run.entry (m := m) (e := e) (by rw [split]; simp)
    obtain ⟨hn, node, _⟩ := system_node prior
    apply forall_congr'
    intro data
    apply forall_congr'
    intro position
    constructor
    · intro undisturbed isNavdata
      have kept := undisturbed isNavdata m' step
      cases isNavdata
      exact (keeps_iff_quiet (run_sound node) step.2.2).mp kept
    · intro quiet isNavdata s' step'
      have calm := quiet isNavdata
      cases isNavdata
      exact (keeps_iff_quiet (run_sound node) step'.2.2).mpr calm
  refine ⟨never_found run, ?_⟩
  constructor
  · intro after h₁ q h₂ split valid
    exact (same h₁ q h₂ split).mp (after h₁ q h₂ split valid)
  · intro after h₁ q h₂ split valid
    exact (same h₁ q h₂ split).mpr (after h₁ q h₂ split valid)

section Sample

def sampleEvents : List SystemEvent :=
  [.node (.timeout .calibrate), .node (.timeout .listen)] ++
    List.replicate 9 (.frame (some [⟨1, 320, 180⟩])) ++ [.frame (some [⟨1, 320, 180⟩])]

theorem sample_run : ∃ h s,
    SystemRun (.atPosition sampleNumber) .lf "45\n15\n46\n16".toList h s ∧
      h.map Prod.snd = sampleEvents ∧ (∃ f ∈ h, Validated f) ∧ s.node.listening = true ∧
      s.node.arrayIndex = 1 ∧ s.node.array.length = 4 ∧
      s.node.currentDestinationLatitude = some ['4', '5'] ∧
      s.node.currentDestinationLongitude = some ['1', '5'] := by
  let coordinates := "45\n15\n46\n16".toList
  let s₁ : System := ⟨{ socket := [] }, Node.calibrated coordinates⟩
  let s₂ : System := ⟨{ socket := [] }, Node.registered coordinates⟩
  have calibrate : SystemStep (.atPosition sampleNumber) .lf (System.start coordinates)
      (.node (.timeout .calibrate)) s₁ :=
    ⟨rfl, by simp, calibrate_step (.atPosition sampleNumber) coordinates⟩
  have listen : SystemStep (.atPosition sampleNumber) .lf s₁ (.node (.timeout .listen)) s₂ :=
    ⟨rfl, by simp, listen_step (.atPosition sampleNumber) coordinates⟩
  have frames : ∀ e ∈ List.replicate 9 (SystemEvent.frame (some [⟨1, 320, 180⟩])), ∀ h s,
      SystemRun (.atPosition sampleNumber) .lf "45\n15\n46\n16".toList h s →
        SystemStep (.atPosition sampleNumber) .lf s e (s.shown .lf e) := by
    intro e member _ s _
    rw [List.eq_of_mem_replicate member]
    exact frame_step (.atPosition sampleNumber) .lf s _
  obtain ⟨h, run, shown⟩ :=
    Run.replay (f := System.shown .lf) ((Run.single calibrate).snoc listen) frames
  -- the state before the tenth frame is named, so that nothing below unfolds it unasked
  obtain ⟨s₃, nine⟩ : ∃ s, s = (List.replicate 9 (.frame (some [⟨1, 320, 180⟩]))).foldl
    (System.shown .lf) s₂ := ⟨_, rfl⟩
  rw [← nine] at run
  have validated : Validated (s₃, .frame (some [⟨1, 320, 180⟩])) := by
    rw [nine]
    exact ⟨_, Library.eq_ok (by decide +kernel), by decide +kernel⟩
  have tenth := run.snoc (frame_step (.atPosition sampleNumber) .lf s₃ (some [⟨1, 320, 180⟩]))
  refine ⟨_, _, tenth, ?_, ⟨_, List.mem_append_right _ List.mem_cons_self, validated⟩, ?_⟩
  · rw [List.map_append, List.map_append, shown]
    rfl
  · rw [nine]
    decide +kernel

/-- Ten frames with the marker, and the next packet still moves the search to the next
waypoint. -/
theorem search_goes_on : ∃ h s,
    SystemRun (.atPosition sampleNumber) .lf "45\n15\n46\n16".toList h s ∧
      h.map Prod.snd = sampleEvents ++ [.node (.navdata {} ⟨.finite 45, .finite 15⟩)] ∧
      ¬ AfterValidated (Undisturbed (.atPosition sampleNumber) .lf) h := by
  obtain ⟨h, s, run, events, validated, listening, index, size, latitude, longitude⟩ := sample_run
  obtain ⟨hn, node, _⟩ := system_node run
  obtain ⟨n, step⟩ : ∃ n, Step (.atPosition sampleNumber) s.node
      (.navdata {} ⟨.finite 45, .finite 15⟩) n :=
    (navdata_completes_iff (run_sound node) rfl rfl).mpr (by simp)
  have advance : SystemStep (.atPosition sampleNumber) .lf s
      (.node (.navdata {} ⟨.finite 45, .finite 15⟩)) ⟨s.vision, n⟩ := ⟨rfl, by simp, step⟩
  refine ⟨_, _, run.snoc advance, by rw [List.map_append, events]; rfl, ?_⟩
  intro after
  have kept := after h _ [] rfl validated {} ⟨.finite 45, .finite 15⟩ rfl _ advance
  have moves : Advances (.atPosition sampleNumber) s.node ⟨.finite 45, .finite 15⟩ := by
    refine ⟨⟨.finite 45, .finite 15, rfl, rfl, ?_, ?_⟩, ?_⟩
    · rw [latitude]
      decide +kernel
    · rw [longitude]
      decide +kernel
    · rw [index, size]
      decide
  exact (navdata_destination (run_sound node) step).1 ⟨listening, never_found run, moves⟩
    kept.arrayIndex

theorem quiet_packet_hands_over : ∃ h s,
    SystemRun (.atPosition sampleNumber) .lf "45\n15\n46\n16".toList h s ∧
      h.map Prod.snd = sampleEvents ++ [.node (.navdata {} ⟨.finite 0, .finite 0⟩)] ∧
      AfterValidated (Undisturbed (.atPosition sampleNumber) .lf) h := by
  obtain ⟨h, s, run, events, _, _, _, _, latitude, _⟩ := sample_run
  obtain ⟨hn, node, _⟩ := system_node run
  obtain ⟨n, step⟩ : ∃ n, Step (.atPosition sampleNumber) s.node
      (.navdata {} ⟨.finite 0, .finite 0⟩) n :=
    (navdata_completes_iff (run_sound node) rfl rfl).mpr (by simp)
  have packet : SystemStep (.atPosition sampleNumber) .lf s
      (.node (.navdata {} ⟨.finite 0, .finite 0⟩)) ⟨s.vision, n⟩ := ⟨rfl, by simp, step⟩
  refine ⟨_, _, run.snoc packet, by rw [List.map_append, events]; rfl, ?_⟩
  refine (handover_iff sampleNumber .lf _ (run.snoc packet)).2.mpr ?_
  intro h₁ q h₂ split _ data position isPacket
  have member : q ∈ h ++ [(s, .node (.navdata {} ⟨.finite 0, .finite 0⟩))] := by
    rw [split]
    simp
  rcases List.mem_append.mp member with earlier | last
  · have event : q.2 ∈ sampleEvents := events ▸ List.mem_map_of_mem earlier
    rw [isPacket] at event
    simp [sampleEvents] at event
  · rw [List.mem_singleton.mp last] at isPacket ⊢
    cases isPacket
    refine .inr (.inr ⟨?_, by simp⟩)
    rintro ⟨⟨x, _, here, _, same, _⟩, _⟩
    cases here
    rw [latitude] at same
    exact absurd same (by decide +kernel)

end Sample
end DroneParking
