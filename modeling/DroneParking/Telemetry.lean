import DroneParking.Flight

/-!
# What the packets bring about

The emergency bit that `REF` commands carry and the events that
`_processNavdata` announces, both told from the packets received so far.
-/
namespace DroneParking

open Library (Run)

def Event.packet : Event → Option Navdata
  | .navdata packet _ => some packet
  | .data _ _ | .timeout _ | .tick | .ackTimeout | .ctrlInterval => none

/-- The packets of a history, oldest first. -/
def packets (h : List (Node × Event)) : List Navdata := h.filterMap fun q => q.2.packet

def demos (h : List (Node × Event)) : List Demo := (packets h).filterMap (·.demo)

@[simp] theorem packets_snoc (h : List (Node × Event)) (n : Node) (e : Event) :
    packets (h ++ [(n, e)]) = packets h ++ e.packet.toList := by
  rw [packets, List.filterMap_append]
  cases e <;> rfl

/-- What the client remembers of the packets, apart from the handshake. -/
structure Telemetry where
  emergency : Option Bool
  disableEmergencyFlag : Bool
  lastState : Option ControlState
  lastBattery : ℕ
  lastAltitude : JsNumber
  deriving DecidableEq, Repr

def Client.telemetry (c : Client) : Telemetry :=
  ⟨c.ref.emergency, c.disableEmergencyFlag, c.lastState, c.lastBattery, c.lastAltitude⟩

def Telemetry.refresh (t : Telemetry) (data : Navdata) : Telemetry :=
  let raised := data.droneState.emergencyLanding && t.disableEmergencyFlag
  { t with emergency := some raised, disableEmergencyFlag := raised }

def Telemetry.process (t : Telemetry) (data : Navdata) : Telemetry :=
  match data.demo with
  | none => t
  | some demo => { t with
      lastState := demo.controlState
      lastBattery := demo.batteryPercentage
      lastAltitude := demo.altitude }

/-- What a packet makes of it. -/
def Telemetry.receive (t : Telemetry) (data : Navdata) : Telemetry := (t.refresh data).process data

section Step
variable {rt : Runtime} {n n' : Node}

theorem run_telemetry (c : ClientCall) (cl : Client) : (c.run cl).telemetry = cl.telemetry := by
  cases c with
  | takeoff | land | stop => rfl
  | front s | back s | left s | right s => cases s <;> rfl

theorem follow_telemetry (n : Node) (o : List Order) :
    (n.follow o).client.telemetry = n.client.telemetry :=
  Node.follow_frame (·.client.telemetry) (fun n c => run_telemetry c n.client) n o

theorem received_telemetry (n : Node) (data : Navdata) (u : UdpControl) :
    (n.received data u).client.telemetry = n.client.telemetry.refresh data := by
  unfold Node.received Client.refreshEmergency Telemetry.refresh Client.telemetry
  cases data.droneState.emergencyLanding <;> cases n.client.disableEmergencyFlag <;> rfl

theorem processed_telemetry (n : Node) (data : Navdata) :
    (n.processed data).client.telemetry = n.client.telemetry.process data := by
  unfold Node.processed Client.processNavdata Telemetry.process Client.telemetry
  cases data.demo <;> rfl

/-- Neither the handshake nor the listener touches what `_processNavdata` compares with. -/
theorem untilProcess_telemetry (h : n.client.Sound) {data : Navdata} {position : Position} {m : Node}
    (done : untilProcess rt data position n = .ok () m) :
    m.client.telemetry = n.client.telemetry.refresh data := by
  obtain ⟨u, _, _, same⟩ := untilProcess_cases h done
  rcases same with ⟨_, rfl⟩ | ⟨_, _, arrived, _, rfl⟩
  · exact received_telemetry n data u
  · rw [follow_telemetry, searched_client]
    exact received_telemetry n data u

/-- The telemetry is decided by the packets alone, whatever the listener does in between. -/
theorem step_telemetry (h : n.client.Sound) {e : Event} (step : Step rt n e n') :
    n'.client.telemetry = e.packet.toList.foldl Telemetry.receive n.client.telemetry := by
  cases e with
  | data connection chunk =>
      rw [data_step.mp step]
      cases recognise chunk.trim with
      | none => rfl
      | some m => exact follow_telemetry n m.order.toList
  | navdata data position =>
      obtain ⟨m, done, rfl⟩ := navdata_step.mp step
      rw [processed_telemetry, untilProcess_telemetry h done]
      rfl
  | timeout fn =>
      obtain ⟨_, done⟩ := step
      cases fn <;> cases done <;> rfl
  | ackTimeout =>
      obtain ⟨u, _, _, rfl⟩ := ackTimeout_step h step
      rfl
  | tick | ctrlInterval =>
      obtain ⟨_, done⟩ := step
      cases done
      rfl

end Step

/-- What the client starts with. -/
def Telemetry.initial : Telemetry := ⟨none, true, some .CTRL_LANDED, 100, .finite 0⟩

def Telemetry.after (received : List Navdata) : Telemetry := received.foldl receive initial

theorem Telemetry.after_snoc (received : List Navdata) (data : Navdata) :
    after (received ++ [data]) = (after received).receive data := by
  simp only [after, List.foldl_append, List.foldl_cons, List.foldl_nil]

/-- The client's telemetry is that of the packets received, in their order. -/
theorem telemetry_eq {rt : Runtime} {coordinates : JsString} {h : List (Node × Event)} {n : Node}
    (run : NodeRun rt coordinates h n) : n.client.telemetry = Telemetry.after (packets h) := by
  induction run with
  | nil => rfl
  | @snoc h n e n' prior step ih =>
      rw [step_telemetry (run_sound prior) step, ih, packets_snoc]
      cases e.packet with
      | none => rw [Option.toList_none, List.append_nil, List.foldl_nil]
      | some data =>
          rw [Option.toList_some, Telemetry.after_snoc]
          rfl

section Emergency
variable {received : List Navdata}

theorem receive_emergency (t : Telemetry) (data : Navdata) :
    (t.receive data).emergency = some (data.droneState.emergencyLanding && t.disableEmergencyFlag) ∧
      (t.receive data).disableEmergencyFlag =
        (data.droneState.emergencyLanding && t.disableEmergencyFlag) := by
  unfold Telemetry.receive Telemetry.process Telemetry.refresh
  cases data.demo <;> exact ⟨rfl, rfl⟩

/-- The flag falls with the first packet that reports no emergency, and for good. -/
theorem after_flag : (Telemetry.after received).disableEmergencyFlag = true ↔
    ∀ data ∈ received, data.droneState.emergencyLanding = true := by
  induction received using List.reverseRecOn with
  | nil => simp [Telemetry.after, Telemetry.initial]
  | append_singleton received data ih =>
      rw [Telemetry.after_snoc, (receive_emergency _ data).2, Bool.and_eq_true, ih]
      simp only [List.mem_append, List.mem_singleton, or_imp, forall_and, forall_eq]
      exact And.comm

theorem after_emergency : (Telemetry.after received).emergency = some true ↔
    received ≠ [] ∧ ∀ data ∈ received, data.droneState.emergencyLanding = true := by
  rcases List.eq_nil_or_concat received with rfl | ⟨front, data, rfl⟩
  · simp [Telemetry.after, Telemetry.initial]
  · rw [List.concat_eq_append]
    have flag := @after_flag (front ++ [data])
    rw [Telemetry.after_snoc, (receive_emergency _ data).2] at flag
    rw [Telemetry.after_snoc, (receive_emergency _ data).1, Option.some_inj, flag]
    simp

/-- The `REF` flag that ends an emergency. -/
def AtCommand.emergencyBit (c : AtCommand) : Bool :=
  match c.args with
  | .num flags :: _ => flags &&& AtCommandCreator.REF_FLAGS.emergency != 0
  | _ => false

theorem ref_emergencyBit (r : Ref) :
    (AtCommandCreator.ref r).emergencyBit = true ↔ r.emergency = some true := by
  obtain ⟨fly, emergency⟩ := r
  cases fly with
  | none => cases emergency with
    | none => decide
    | some b => cases b <;> decide
  | some a => cases emergency with
    | none => cases a <;> decide
    | some b => cases a <;> cases b <;> decide

/-- Whatever event follows a run, a `REF` command it sends has the emergency bit exactly if a
packet has been received and every packet so far reported an emergency. -/
theorem emergency_bit_sent (rt : Runtime) (coordinates : JsString) {h : List (Node × Event)}
    {n n' : Node} {e : Event} (run : NodeRun rt coordinates h n) (step : Step rt n e n') :
    ∃ sent, n'.client.udpControl.sent = n.client.udpControl.sent ++ sent ∧
      ∀ datagram ∈ sent, ∀ command ∈ datagram, command.1.type = .REF →
        (command.1.emergencyBit = true ↔
          packets h ≠ [] ∧ ∀ data ∈ packets h, data.droneState.emergencyLanding = true) := by
  have sound := run_sound run
  by_cases isTick : e = .tick
  · subst isTick
    obtain ⟨_, done⟩ := step
    cases done
    obtain ⟨sent, grown, _, origin⟩ := Client.sendCommands_spec sound
    refine ⟨sent, grown, ?_⟩
    intro datagram hd command hc isRef
    have bit : n.client.ref.emergency = (Telemetry.after (packets h)).emergency :=
      congrArg Telemetry.emergency (telemetry_eq run)
    rw [origin datagram hd command hc isRef, ref_emergencyBit, bit, after_emergency]
  · refine ⟨[], ?_, by simp⟩
    rw [(step_sound sound step).2 isTick, List.append_nil]

end Emergency

/-- The events an event brings the client to emit: those of `_processNavdata`, where it is reached.
A listener that throws keeps the packet from it. -/
def emitted (rt : Runtime) : Node × Event → List ClientEvent
  | (n, .navdata data position) =>
      match untilProcess rt data position n with
      | .ok () m => (m.client.processNavdata data).2
      | .error _ _ => []
  | (_, .data _ _) | (_, .timeout _) | (_, .tick) | (_, .ackTimeout) | (_, .ctrlInterval) => []

/-- The event that announces a control state. -/
def ControlState.announcement : ControlState → Option ClientEvent
  | .CTRL_TRANS_LANDING => some .landing
  | .CTRL_LANDED => some .landed
  | .CTRL_TRANS_TAKEOFF => some .takeoff
  | .CTRL_HOVERING => some .hovering
  | .CTRL_FLYING => some .flying
  | .CTRL_DEFAULT | .CTRL_INIT | .CTRL_TEST | .CTRL_TRANS_GOTOFIX | .CTRL_TRANS_LOOPING => none

/-- The control state last reported; the drone counts as landed before the first packet. -/
def reported (received : List Navdata) : Option ControlState :=
  ((received.filterMap (·.demo)).getLast?.map (·.controlState)).getD (some .CTRL_LANDED)

section Announcements
variable {rt : Runtime} {coordinates : JsString} {h : List (Node × Event)} {n : Node}
  {data : Navdata} {position : Position} {s : ControlState} {e : ClientEvent}

theorem after_lastState (received : List Navdata) :
    (Telemetry.after received).lastState = reported received := by
  induction received using List.reverseRecOn with
  | nil => rfl
  | append_singleton received data ih =>
      rw [Telemetry.after_snoc]
      unfold Telemetry.receive Telemetry.process reported
      cases packed : data.demo with
      | none => simpa [packed, Telemetry.refresh, reported] using ih
      | some demo => simp [packed]

theorem mem_processNavdata {c : Client} (announces : s.announcement = some e) :
    e ∈ (c.processNavdata data).2 ↔
      ∃ demo, data.demo = some demo ∧ demo.controlState = some s ∧ c.lastState ≠ some s := by
  unfold Client.processNavdata
  cases packed : data.demo with
  | none => simp
  | some demo =>
      cases s <;> cases announces <;> simp [Client.emitState]

theorem processNavdata_congr {c d : Client} (state : c.lastState = d.lastState)
    (battery : c.lastBattery = d.lastBattery) (altitude : c.lastAltitude = d.lastAltitude) :
    (c.processNavdata data).2 = (d.processNavdata data).2 := by
  unfold Client.processNavdata Client.emitState
  rw [state, battery, altitude]
  cases data.demo <;> rfl

/-- The events do not depend on what the listener did before them: they are those the packet would
have brought about at once. -/
theorem mem_emitted (sound : n.client.Sound) : e ∈ emitted rt (n, .navdata data position) ↔
    (∃ n', Step rt n (.navdata data position) n') ∧ e ∈ (n.client.processNavdata data).2 := by
  unfold emitted
  simp only [navdata_step]
  cases done : untilProcess rt data position n with
  | error _ m => simp
  | ok u m =>
      have met := untilProcess_telemetry sound done
      have same : (m.client.processNavdata data).2 = (n.client.processNavdata data).2 :=
        processNavdata_congr (congrArg Telemetry.lastState met) (congrArg Telemetry.lastBattery met)
          (congrArg Telemetry.lastAltitude met)
      simp [same]

theorem emitted_iff (run : NodeRun rt coordinates h n) (announces : s.announcement = some e) :
    e ∈ emitted rt (n, .navdata data position) ↔ (∃ n', Step rt n (.navdata data position) n') ∧
      ∃ demo, data.demo = some demo ∧ demo.controlState = some s ∧
        reported (packets h) ≠ some s := by
  have last : n.client.lastState = (Telemetry.after (packets h)).lastState :=
    congrArg Telemetry.lastState (telemetry_eq run)
  rw [mem_emitted (run_sound run), mem_processNavdata announces, last, after_lastState]

theorem emitted_packet {q : Node × Event} (member : e ∈ emitted rt q) :
    ∃ n data position, q = (n, .navdata data position) := by
  obtain ⟨n, event⟩ := q
  cases event with
  | navdata data position => exact ⟨n, data, position, rfl⟩
  | data | timeout | tick | ackTimeout | ctrlInterval => cases member

theorem emitted_apart {h₁ h₂ h₃ : List (Node × Event)} {a b : Node × Event}
    (run : NodeRun rt coordinates (h₁ ++ a :: (h₂ ++ b :: h₃)) n)
    (announces : s.announcement = some e) (first : e ∈ emitted rt a) (second : e ∈ emitted rt b) :
    ∃ demo ∈ demos h₂, demo.controlState ≠ some s := by
  obtain ⟨m, data, position, rfl⟩ := emitted_packet first
  obtain ⟨m', data', position', rfl⟩ := emitted_packet second
  obtain ⟨_, demo, packed, state, _⟩ := (emitted_iff (run.before rfl) announces).mp first
  have cut : h₁ ++ (m, .navdata data position) :: (h₂ ++ (m', .navdata data' position') :: h₃) =
      (h₁ ++ (m, .navdata data position) :: h₂) ++ (m', .navdata data' position') :: h₃ := by simp
  obtain ⟨_, _, _, _, other⟩ := (emitted_iff (run.before cut) announces).mp second
  have received : (packets (h₁ ++ (m, .navdata data position) :: h₂)).filterMap (·.demo) =
      demos h₁ ++ demo :: demos h₂ := by
    simp [packets, demos, Event.packet, packed]
  unfold reported at other
  rw [received] at other
  rcases List.eq_nil_or_concat (demos h₂) with empty | ⟨front, last, ends⟩
  · rw [empty, List.getLast?_concat] at other
    exact absurd state other
  · refine ⟨last, by simp [ends], ?_⟩
    rw [ends, List.concat_eq_append, ← List.cons_append, ← List.append_assoc,
      List.getLast?_concat] at other
    exact other

/-- In every run a packet announces a state exactly if it reports that state, another state was
reported last and no listener throws before its turn comes; so not again before a packet has
reported another one. -/
theorem announcements (run : NodeRun rt coordinates h n) (announces : s.announcement = some e) :
    (∀ data position, e ∈ emitted rt (n, .navdata data position) ↔
      (∃ n', Step rt n (.navdata data position) n') ∧ ∃ demo, data.demo = some demo ∧
        demo.controlState = some s ∧ reported (packets h) ≠ some s) ∧
    ∀ h₁ a h₂ b h₃, h = h₁ ++ a :: (h₂ ++ b :: h₃) → e ∈ emitted rt a → e ∈ emitted rt b →
      ∃ demo ∈ demos h₂, demo.controlState ≠ some s := by
  refine ⟨fun data position => emitted_iff run announces, ?_⟩
  rintro h₁ a h₂ b h₃ rfl first second
  exact emitted_apart run announces first second

theorem announcements_landings : ∃ landing flying : Navdata, ∃ n₁ n₂ : Node,
    .landing ∈ emitted (.asWritten fun _ => .nan) (n₂, .navdata landing ⟨.nan, .nan⟩) ∧
      ∃ demo ∈ demos [(n₁, .navdata flying ⟨.nan, .nan⟩)],
        demo.controlState ≠ some .CTRL_TRANS_LANDING := by
  let landing : Navdata := ⟨{}, some ⟨some .CTRL_TRANS_LANDING, 100, .finite 0⟩, none⟩
  let flying : Navdata := ⟨{}, some ⟨some .CTRL_FLYING, 100, .finite 0⟩, none⟩
  let next (n : Node) (data : Navdata) : Node := (n.received data n.client.udpControl).processed data
  let n₁ := next (Node.start []) landing
  let n₂ := next n₁ flying
  have first : Step (.asWritten fun _ => .nan) (Node.start []) (.navdata landing ⟨.nan, .nan⟩) n₁ :=
    ⟨trivial, rfl⟩
  have second : Step (.asWritten fun _ => .nan) n₁ (.navdata flying ⟨.nan, .nan⟩) n₂ := ⟨trivial, rfl⟩
  have third : Step (.asWritten fun _ => .nan) n₂ (.navdata landing ⟨.nan, .nan⟩) (next n₂ landing) :=
    ⟨trivial, rfl⟩
  have run : NodeRun _ [] _ n₂ := (Run.single first).snoc second
  have again : .landing ∈ emitted (.asWritten fun _ => .nan) (n₂, .navdata landing ⟨.nan, .nan⟩) :=
    ((@announcements _ _ _ _ .CTRL_TRANS_LANDING .landing run rfl).1 landing ⟨.nan, .nan⟩).mpr
      ⟨⟨_, third⟩, _, rfl, rfl, by decide +kernel⟩
  exact ⟨landing, flying, n₁, n₂, again,
    (@announcements _ _ _ _ .CTRL_TRANS_LANDING .landing (run.snoc third) rfl).2 []
      (Node.start [], .navdata landing ⟨.nan, .nan⟩) [(n₁, _)] (n₂, .navdata landing ⟨.nan, .nan⟩) []
      rfl (by decide +kernel) again⟩

end Announcements
end DroneParking
