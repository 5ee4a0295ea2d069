import DroneParking.Steps
import DroneParking.Wire

/-!
# The waypoint search

Only `drone_found` ends the search. Until then the listener reads the two free
identifiers, so what it does depends on whether anything binds them.
-/
namespace DroneParking

open Library (Run)

def Finds : Node × Event → Prop
  | (_, .data _ chunk) => chunk.trim = Message.found.text
  | _ => False

section Run
variable {rt : Runtime} {coordinates : JsString} {h : List (Node × Event)} {n : Node}

theorem markerFound_iff (run : NodeRun rt coordinates h n) :
    n.markerFound = true ↔ ∃ q ∈ h, Finds q := by
  rw [← Library.since_never]
  apply run.latch (f := fun n => n.markerFound = true)
  · intro found
    cases found
  · intro h s e s' prior step
    rw [step_markerFound (run_sound prior) step, not_false_eq_true, and_true, or_comm]
    apply or_congr_left
    constructor
    · rintro ⟨connection, chunk, rfl, text⟩
      exact text
    · intro finds
      cases e with
      | data connection chunk => exact ⟨connection, chunk, rfl, finds⟩
      | navdata | timeout | tick | ackTimeout | ctrlInterval => exact finds.elim

end Run

/-- As the script is written, the listener completes in a reachable state exactly if
`drone_found` was handled before; otherwise the first comparison throws. -/
theorem listener_completes_iff (toNumber : JsString → JsNumber) (coordinates : JsString)
    {h : List (Node × Event)} {n : Node}
    (run : NodeRun (.asWritten toNumber) coordinates h n) (data : Navdata) (position : Position) :
    (∃ n', navdataListener (.asWritten toNumber) data position n = .ok () n') ↔
      ∃ q ∈ h, Finds q := by
  rw [← markerFound_iff run]
  cases found : n.markerFound with
  | true => exact iff_of_true ⟨n, navdataListener_found found data position⟩ rfl
  | false =>
      apply iff_of_false
      · rintro ⟨n', done⟩
        rw [navdataListener_searching found, atDestination_unbound rfl] at done
        cases done
      · exact Bool.false_ne_true

theorem completes_once_found :
    (∃ n', navdataListener (.asWritten fun _ => .nan) {} ⟨.finite 45, .finite 15⟩
        ((Node.start []).execute .found) = .ok () n') ↔
      ∃ q ∈ [(Node.start [], Event.data 0 (println .found .lf))], Finds q :=
  listener_completes_iff _ [] (Run.single (data_step.mpr (by rw [println_trim]; rfl))) _ _

section Registration
variable (rt : Runtime) (coordinates : JsString)

/-- The node after the timer at 2500 ms, and after the one at 2600 ms. -/
def Node.calibrated : Node :=
  { Node.start coordinates with timers := [(2600, .listen), (8600, .autoLand)] }

def Node.registered : Node :=
  { Node.start coordinates with timers := [(8600, .autoLand)], listening := true }

theorem start_timers : (Node.start coordinates).timers =
    [(2500, .calibrate), (2600, .listen), (8600, .autoLand)] := by
  simp [Node.start, Node.after, Client.config, Client.create, Client.resume, Client.ctrl,
    Client.disableEmergency]

theorem calibrate_step :
    Step rt (Node.start coordinates) (.timeout .calibrate) (Node.calibrated coordinates) := by
  have left : (Node.start coordinates).timers.filter (fun t => t.2 ≠ .calibrate) =
      [(2600, .listen), (8600, .autoLand)] := by
    rw [start_timers]
    rfl
  constructor
  · simp [Event.CanOccur, start_timers]
  · change EStateM.Result.ok () { Node.start coordinates with
      timers := (Node.start coordinates).timers.filter fun t => t.2 ≠ Timer.calibrate } = _
    rw [left]
    rfl

theorem listen_step :
    Step rt (Node.calibrated coordinates) (.timeout .listen) (Node.registered coordinates) :=
  ⟨List.mem_cons_self, rfl⟩

end Registration

def sampleNumber (s : JsString) : JsNumber :=
  if s = ['4', '5'] then .finite 45 else if s = ['1', '5'] then .finite 15 else .nan

/-- The first packet after the listener was registered ends the process. -/
theorem first_packet_throws : ∃ h n,
    NodeRun (.asWritten fun _ => .nan) ['4', '5', '\n', '1', '5'] h n ∧
      h.map Prod.snd = [.timeout .calibrate, .timeout .listen] ∧ n.listening = true ∧
      navdataListener (.asWritten fun _ => .nan) {} ⟨.finite 45, .finite 15⟩ n =
        .error (.referenceError "latitude") n := by
  have registered := (Run.single (calibrate_step (.asWritten fun _ => .nan) ['4', '5', '\n', '1', '5'])).snoc
    (listen_step (.asWritten fun _ => .nan) ['4', '5', '\n', '1', '5'])
  exact ⟨_, _, registered, rfl, rfl, rfl⟩

/-- The packet arrives at the current waypoint, and it is not the last one. -/
def Advances (rt : Runtime) (n : Node) (position : Position) : Prop :=
  AtWaypoint rt n position ∧ (n.arrayIndex : ℤ) ≠ n.array.length - 1

/-- A packet that does not reach a searching listener, or gives it nothing to do. -/
def Quiet (rt : Runtime) (n : Node) (data : Navdata) (position : Position) : Prop :=
  n.listening = false ∨ n.markerFound = true ∨
    (¬ Advances rt n position ∧ ∀ magneto demo, data.magneto = some magneto →
      data.demo = some demo → demo.altitude.ge 2 = false ∧
        (magneto.fusionUnwrapped.ge 5 = true ∨ magneto.fusionUnwrapped.le (-5) = true))

structure Keeps (n n' : Node) : Prop where
  arrayIndex : n'.arrayIndex = n.arrayIndex
  latitude : n'.currentDestinationLatitude = n.currentDestinationLatitude
  longitude : n'.currentDestinationLongitude = n.currentDestinationLongitude
  stop : ClientCall.stop ∉ n'.calls.drop n.calls.length
  land : ClientCall.land ∉ n'.calls.drop n.calls.length

theorem nextDestination_arrayIndex (n : Node) :
    n.nextDestination.arrayIndex = n.arrayIndex ↔ (n.arrayIndex : ℤ) = n.array.length - 1 := by
  unfold Node.nextDestination
  split
  · next more => simp [more]
  · next last => simp [not_not.mp last]

section Step
variable {rt : Runtime} {n n' : Node} {data : Navdata} {position : Position}

/-- With both identifiers bound, the one packet that ends the process is one with magneto
and without demo that reaches the searching listener. -/
theorem navdata_completes_iff (h : n.client.Sound) {x y : JsNumber}
    (hx : (rt.scope position).latitude = some x) (hy : (rt.scope position).longitude = some y) :
    (∃ n', Step rt n (.navdata data position) n') ↔ ¬ (n.listening = true ∧
      n.markerFound = false ∧ data.magneto.isSome = true ∧ data.demo.isNone = true) := by
  obtain ⟨u, _, _, whole⟩ := @handleNavdata_apply rt n h data position
  have steps : (∃ n', Step rt n (.navdata data position) n') ↔
      ∃ n', handleNavdata rt data position n = .ok () n' :=
    exists_congr fun _ => and_iff_right trivial
  rw [steps, whole]
  cases listening : n.listening with
  | false => simp
  | true =>
      cases found : n.markerFound with
      | true =>
          have met : (n.received data u).markerFound = true := found
          rw [navdataListener_found met]
          simp
      | false =>
          have met : (n.received data u).markerFound = false := found
          rw [navdataListener_searching met, atDestination_bound hx hy]
          simp only [checkMagneto_apply]
          by_cases throws : (data.magneto.isSome && data.demo.isNone) = true
          · rw [if_pos throws]
            simpa using throws
          · rw [if_neg throws]
            simpa using throws

theorem navdata_destination (h : n.client.Sound) (step : Step rt n (.navdata data position) n') :
    (n.listening = true ∧ n.markerFound = false ∧ Advances rt n position →
        n'.arrayIndex ≠ n.arrayIndex) ∧
      (¬ (n.listening = true ∧ n.markerFound = false ∧ Advances rt n position) →
        n'.arrayIndex = n.arrayIndex ∧
          n'.currentDestinationLatitude = n.currentDestinationLatitude ∧
          n'.currentDestinationLongitude = n.currentDestinationLongitude) := by
  obtain ⟨u, m, _, _, rfl, same⟩ := navdata_cases h step
  change (_ → m.arrayIndex ≠ _) ∧ (_ → m.arrayIndex = _ ∧ m.currentDestinationLatitude = _ ∧
    m.currentDestinationLongitude = _)
  rcases same with ⟨idle, rfl⟩ | ⟨listening, searching, arrived, there, rfl⟩
  · refine ⟨?_, fun _ => ⟨rfl, rfl, rfl⟩⟩
    rintro ⟨listening, searching, _⟩
    rcases idle with silent | found
    · exact absurd (silent.symm.trans listening) (by decide)
    · exact absurd (found.symm.trans searching) (by decide)
  · simp only [Node.follow_arrayIndex, Node.follow_latitude, Node.follow_longitude]
    cases arrived with
    | false =>
        have elsewhere : ¬ Advances rt n position := fun advances => by
          simpa using there.mpr advances.1
        exact ⟨fun advances => absurd advances.2.2 elsewhere, fun _ => ⟨rfl, rfl, rfl⟩⟩
    | true =>
        have here := there.mp rfl
        rw [Node.searched, if_pos rfl]
        constructor
        · rintro ⟨_, _, _, more⟩ same
          exact more ((nextDestination_arrayIndex (n.received data u)).mp same)
        · intro stays
          have last : (n.arrayIndex : ℤ) = n.array.length - 1 := by
            by_contra more
            exact stays ⟨listening, searching, here, more⟩
          have kept : (n.received data u).nextDestination = n.received data u :=
            if_neg (not_not.mpr last)
          rw [kept]
          exact ⟨rfl, rfl, rfl⟩

/-- A handled packet leaves search and client alone exactly if it is quiet. -/
theorem keeps_iff_quiet (h : n.client.Sound) (step : Step rt n (.navdata data position) n') :
    Keeps n n' ↔ Quiet rt n data position := by
  have calls := step_calls h step
  obtain ⟨moves, stays⟩ := navdata_destination h step
  have none : (ClientCall.stop ∉ n'.calls.drop n.calls.length ∧
      ClientCall.land ∉ n'.calls.drop n.calls.length) ↔ issued n (.navdata data position) = [] := by
    rw [calls, stop_mem_calls, land_mem_calls, List.eq_nil_iff_forall_not_mem]
    constructor
    · rintro ⟨halt, land⟩ o member
      rcases issued_silent member (fun _ _ same => by cases same) with rfl | rfl
      · exact land member
      · exact halt member
    · intro empty
      exact ⟨empty _, empty _⟩
  have parts : Keeps n n' ↔ (n'.arrayIndex = n.arrayIndex ∧
      n'.currentDestinationLatitude = n.currentDestinationLatitude ∧
      n'.currentDestinationLongitude = n.currentDestinationLongitude) ∧
      issued n (.navdata data position) = [] := by
    rw [← none]
    exact ⟨fun k => ⟨⟨k.arrayIndex, k.latitude, k.longitude⟩, k.stop, k.land⟩,
      fun ⟨⟨a, b, c⟩, d, e⟩ => ⟨a, b, c, d, e⟩⟩
  rw [parts]
  simp only [issued, Quiet]
  cases listening : n.listening with
  | false => simp [stays, listening]
  | true =>
      cases found : n.markerFound with
      | true => simp [stays, found]
      | false =>
          rw [← reaction_eq_nil]
          by_cases advances : Advances rt n position
          · simp [moves ⟨listening, found, advances⟩, advances]
          · have kept := stays fun absurd => advances absurd.2.2
            simp [kept, advances]

end Step
end DroneParking
