import DroneParking.Handlers

/-!
# What one step does

For each event, everything its callback can change: the command state through the
orders it issues, the handshake soundly, the search flag only for `drone_found`.
-/
namespace DroneParking

open Library (bind_apply pure_apply get_apply throw_apply modify_apply if_apply)

/-- Agreement on all that client calls act on. -/
structure Alike (n m : Node) : Prop where
  fly : n.client.ref.fly = m.client.ref.fly
  pcmd : n.client.pcmd = m.client.pcmd
  calls : n.calls = m.calls

namespace Alike

theorem refl (n : Node) : Alike n n := ⟨rfl, rfl, rfl⟩

theorem trans {n m k : Node} (h : Alike n m) (h' : Alike m k) : Alike n k :=
  ⟨h.fly.trans h'.fly, h.pcmd.trans h'.pcmd, h.calls.trans h'.calls⟩

theorem setPcmd {n m : Node} (h : Alike n m) (key : PcmdKey) (s : JsNumber) :
    (n.client.setPcmd key s).ref.fly = (m.client.setPcmd key s).ref.fly ∧
      (n.client.setPcmd key s).pcmd = (m.client.setPcmd key s).pcmd := by
  unfold Client.setPcmd
  split
  · exact ⟨h.fly, h.pcmd⟩
  · exact ⟨h.fly, congrArg (fun r => (r.set key s.plusZero).delete (Client.opposite key)) h.pcmd⟩

theorem call {n m : Node} (h : Alike n m) (c : ClientCall) : Alike (n.call c) (m.call c) := by
  have logged : n.calls ++ [c] = m.calls ++ [c] := congrArg (· ++ [c]) h.calls
  cases c with
  | takeoff | land => exact ⟨rfl, h.pcmd, logged⟩
  | stop => exact ⟨h.fly, rfl, logged⟩
  | front s => exact ⟨(h.setPcmd .front s).1, (h.setPcmd .front s).2, logged⟩
  | back s => exact ⟨(h.setPcmd .back s).1, (h.setPcmd .back s).2, logged⟩
  | left s => exact ⟨(h.setPcmd .left s).1, (h.setPcmd .left s).2, logged⟩
  | right s => exact ⟨(h.setPcmd .right s).1, (h.setPcmd .right s).2, logged⟩

theorem obey {n m : Node} (h : Alike n m) (o : Order) : Alike (n.obey o) (m.obey o) := by
  unfold Node.obey
  induction o.calls generalizing n m with
  | nil => exact h
  | cons c l ih => exact ih (h.call c)

theorem follow {n m : Node} (h : Alike n m) (orders : List Order) :
    Alike (n.follow orders) (m.follow orders) := by
  induction orders generalizing n m with
  | nil => exact h
  | cons o orders ih => exact ih (h.obey o)

end Alike

/-- What the listener is handed, once the emergency bit and the handshake are done with. -/
def Node.received (n : Node) (data : Navdata) (u : UdpControl) : Node :=
  { n with client := { n.client.refreshEmergency data with udpControl := u } }

def Node.processed (n : Node) (data : Navdata) : Node :=
  { n with client := (n.client.processNavdata data).1 }

theorem received_alike (n : Node) (data : Navdata) (u : UdpControl) :
    Alike (n.received data u) n := by
  unfold Node.received Client.refreshEmergency
  split <;> exact ⟨rfl, rfl, rfl⟩

theorem processed_alike (n : Node) (data : Navdata) : Alike (n.processed data) n := by
  unfold Node.processed Client.processNavdata
  split <;> exact ⟨rfl, rfl, rfl⟩

theorem processed_udpControl (n : Node) (data : Navdata) :
    (n.processed data).client.udpControl = n.client.udpControl ∧
      (n.processed data).client.repeaters = n.client.repeaters := by
  unfold Node.processed Client.processNavdata
  split <;> exact ⟨rfl, rfl⟩

theorem received_repeaters (n : Node) (data : Navdata) (u : UdpControl) :
    (n.received data u).client.repeaters = n.client.repeaters := by
  unfold Node.received Client.refreshEmergency
  split <;> rfl

theorem refreshEmergency_sound {c : Client} (h : c.Sound) (data : Navdata) :
    (c.refreshEmergency data).Sound := by
  unfold Client.refreshEmergency
  split <;> exact ⟨h.udpControl, h.repeaters⟩

theorem received_sound {n : Node} (h : n.client.Sound) (data : Navdata) {u : UdpControl}
    (sound : u.Sound) : (n.received data u).client.Sound :=
  ⟨sound, by rw [received_repeaters]; exact h.repeaters⟩

theorem processed_sound {n : Node} (h : n.client.Sound) (data : Navdata) :
    (n.processed data).client.Sound := by
  obtain ⟨udpControl, repeaters⟩ := processed_udpControl n data
  exact ⟨by rw [udpControl]; exact h.udpControl, by rw [repeaters]; exact h.repeaters⟩

theorem searched_alike (n : Node) (arrived : Bool) : Alike (n.searched arrived) n := by
  unfold Node.searched Node.nextDestination
  split
  · split <;> exact ⟨rfl, rfl, rfl⟩
  · exact .refl n

@[simp] theorem searched_markerFound (n : Node) (arrived : Bool) :
    (n.searched arrived).markerFound = n.markerFound := by
  unfold Node.searched Node.nextDestination
  split
  · split <;> rfl
  · rfl

@[simp] theorem searched_client (n : Node) (arrived : Bool) :
    (n.searched arrived).client = n.client := by
  unfold Node.searched Node.nextDestination
  split
  · split <;> rfl
  · rfl

theorem searched_sound {n : Node} (h : n.client.Sound) (arrived : Bool) :
    (n.searched arrived).client.Sound := by
  rw [searched_client]
  exact h

section Step
variable {rt : Runtime} {n n' : Node}

theorem data_step {connection : ℕ} {chunk : JsString} :
    Step rt n (.data connection chunk) n' ↔ n' = ((recognise chunk.trim).map n.execute).getD n := by
  constructor
  · rintro ⟨_, done⟩
    rw [handle, dataHandler_apply] at done
    cases done
    rfl
  · rintro rfl
    exact ⟨trivial, dataHandler_apply chunk n⟩

/-- `_handleNavdata` as far as `_processNavdata`. -/
def untilProcess (rt : Runtime) (data : Navdata) (position : Position) : Script Unit := do
  modify fun n => { n with client := n.client.refreshEmergency data }
  liftClient (·.acknowledge data)
  if (← get).listening then navdataListener rt data position

theorem handleNavdata_split (data : Navdata) (position : Position) (n : Node) :
    handleNavdata rt data position n =
      match untilProcess rt data position n with
      | .ok () m => .ok () (m.processed data)
      | .error e m => .error e m := by
  unfold handleNavdata untilProcess
  simp only [bind_apply, modify_apply, get_apply, if_apply, pure_apply]
  cases liftClient (·.acknowledge data) { n with client := n.client.refreshEmergency data } with
  | error e m => rfl
  | ok u m =>
      by_cases listening : m.listening = true
      · simp only [if_pos listening]
        cases navdataListener rt data position m <;> rfl
      · simp only [if_neg listening]
        rfl

theorem untilProcess_apply (h : n.client.Sound) (data : Navdata) (position : Position) :
    ∃ u : UdpControl, u.Sound ∧ u.sent = n.client.udpControl.sent ∧
      untilProcess rt data position n =
        if n.listening then navdataListener rt data position (n.received data u)
        else .ok () (n.received data u) := by
  obtain ⟨u, done, sound, sent⟩ :=
    Client.acknowledge_sound (refreshEmergency_sound h data) data
  refine ⟨u, sound, ?_, ?_⟩
  · rw [sent]
    unfold Client.refreshEmergency
    split <;> rfl
  · unfold untilProcess
    have lifted : liftClient (·.acknowledge data)
        { n with client := n.client.refreshEmergency data } = .ok () (n.received data u) := by
      simp only [liftClient, done, Node.received]
    simp only [bind_apply, modify_apply, get_apply, if_apply, pure_apply, lifted]
    rfl

theorem handleNavdata_apply (h : n.client.Sound) (data : Navdata) (position : Position) :
    ∃ u : UdpControl, u.Sound ∧ u.sent = n.client.udpControl.sent ∧
      handleNavdata rt data position n =
        if n.listening then
          match navdataListener rt data position (n.received data u) with
          | .ok () m => .ok () (m.processed data)
          | .error e m => .error e m
        else .ok () ((n.received data u).processed data) := by
  obtain ⟨u, sound, sent, whole⟩ := @untilProcess_apply rt n h data position
  refine ⟨u, sound, sent, ?_⟩
  rw [handleNavdata_split, whole]
  cases n.listening <;> rfl

/-- Up to `_processNavdata` a searching listener takes the waypoint step and reacts, and nothing
else happens. -/
theorem untilProcess_cases (h : n.client.Sound) {data : Navdata} {position : Position} {m : Node}
    (done : untilProcess rt data position n = .ok () m) : ∃ u : UdpControl, u.Sound ∧
      u.sent = n.client.udpControl.sent ∧
      (((n.listening = false ∨ n.markerFound = true) ∧ m = n.received data u) ∨
        (n.listening = true ∧ n.markerFound = false ∧ ∃ arrived : Bool,
          (arrived = true ↔ AtWaypoint rt n position) ∧
          m = ((n.received data u).searched arrived).follow (reaction data))) := by
  obtain ⟨u, sound, sent, whole⟩ := @untilProcess_apply rt n h data position
  refine ⟨u, sound, sent, ?_⟩
  rw [whole] at done
  split at done
  · next listening =>
      rcases navdataListener_ok done with ⟨found, same⟩ | ⟨searching, arrived, there, same⟩
      · exact .inl ⟨.inr found, same⟩
      · exact .inr ⟨listening, searching, arrived, there, same⟩
  · next silent =>
      cases done
      exact .inl ⟨.inl (Bool.eq_false_of_not_eq_true silent), rfl⟩

theorem navdata_step {data : Navdata} {position : Position} :
    Step rt n (.navdata data position) n' ↔
      ∃ m, untilProcess rt data position n = .ok () m ∧ n' = m.processed data := by
  have handled : Step rt n (.navdata data position) n' ↔ handleNavdata rt data position n = .ok () n' :=
    and_iff_right trivial
  rw [handled, handleNavdata_split]
  cases untilProcess rt data position n with
  | error e m => simp
  | ok u m => simp [eq_comm]

/-- A packet that is handled acknowledges and keeps its books; in between, a searching
listener takes the waypoint step and reacts, and nothing else happens. -/
theorem navdata_cases (h : n.client.Sound) {data : Navdata} {position : Position}
    (step : Step rt n (.navdata data position) n') : ∃ (u : UdpControl) (m : Node), u.Sound ∧
      u.sent = n.client.udpControl.sent ∧ n' = Node.processed m data ∧
      (((n.listening = false ∨ n.markerFound = true) ∧ m = n.received data u) ∨
        (n.listening = true ∧ n.markerFound = false ∧ ∃ arrived : Bool,
          (arrived = true ↔ AtWaypoint rt n position) ∧
          m = ((n.received data u).searched arrived).follow (reaction data))) := by
  obtain ⟨m, done, same⟩ := navdata_step.mp step
  obtain ⟨u, sound, sent, cases⟩ := untilProcess_cases h done
  exact ⟨u, m, sound, sent, same, cases⟩

theorem execute_alike (n : Node) (m : Message) : Alike (n.execute m) (n.follow m.order.toList) :=
  ⟨rfl, rfl, rfl⟩

theorem ackTimeout_step (h : n.client.Sound) (step : Step rt n .ackTimeout n') :
    ∃ u : UdpControl, u.Sound ∧ u.sent = n.client.udpControl.sent ∧
      n' = { n with client := { n.client with udpControl := u } } := by
  obtain ⟨running, done⟩ := step
  obtain ⟨u, expired, sound, sent⟩ := UdpControl.handleAckTimeout_sound h.udpControl running
  simp only [handle, liftClient, expired] at done
  cases done
  exact ⟨u, sound, sent, rfl⟩

/-- An event acts on the command state through the orders it issues and in no other way. -/
theorem step_alike (h : n.client.Sound) {e : Event} (step : Step rt n e n') :
    Alike n' (n.follow (issued n e)) := by
  cases e with
  | data connection chunk =>
      rw [data_step.mp step]
      cases heard : recognise chunk.trim with
      | none =>
          simp only [issued, heard]
          exact .refl n
      | some m =>
          simp only [issued, heard]
          exact execute_alike n m
  | navdata data position =>
      obtain ⟨u, m, _, _, rfl, same⟩ := navdata_cases h step
      apply (processed_alike m data).trans
      simp only [issued]
      rcases same with ⟨idle, rfl⟩ | ⟨listening, searching, arrived, _, rfl⟩
      · have nothing : (n.listening && !n.markerFound) = false := by
          rcases idle with silent | found
          · rw [silent, Bool.false_and]
          · rw [found, Bool.not_true, Bool.and_false]
        rw [nothing]
        exact received_alike n data u
      · rw [listening, searching]
        -- the move to the next waypoint does not touch the command state
        apply Alike.follow
        exact (searched_alike _ arrived).trans (received_alike n data u)
  | timeout fn =>
      obtain ⟨_, done⟩ := step
      cases fn <;> cases done <;> exact ⟨rfl, rfl, rfl⟩
  | ackTimeout =>
      obtain ⟨u, _, _, rfl⟩ := ackTimeout_step h step
      exact ⟨rfl, rfl, rfl⟩
  | tick | ctrlInterval =>
      obtain ⟨_, done⟩ := step
      cases done
      exact ⟨rfl, rfl, rfl⟩

theorem step_calls (h : n.client.Sound) {e : Event} (step : Step rt n e n') :
    n'.calls.drop n.calls.length = (issued n e).flatMap Order.calls := by
  rw [(step_alike h step).calls, Node.follow_calls, List.drop_left]

theorem step_markerFound (h : n.client.Sound) {e : Event} (step : Step rt n e n') :
    n'.markerFound = true ↔ n.markerFound = true ∨
      ∃ connection chunk, e = .data connection chunk ∧ chunk.trim = Message.found.text := by
  cases e with
  | data connection chunk =>
      rw [data_step.mp step]
      have only : (∃ c d, Event.data connection chunk = .data c d ∧ d.trim = Message.found.text) ↔
          recognise chunk.trim = some .found := by
        rw [recognise_eq_some]
        constructor
        · rintro ⟨_, _, same, text⟩
          cases same
          exact ⟨by decide, text⟩
        · rintro ⟨_, text⟩
          exact ⟨connection, chunk, rfl, text⟩
      rw [only]
      cases recognise chunk.trim with
      | none => simp
      | some m => simp [Node.execute]
  | navdata data position =>
      obtain ⟨u, m, _, _, rfl, same⟩ := navdata_cases h step
      have kept : m.markerFound = n.markerFound := by
        rcases same with ⟨_, rfl⟩ | ⟨_, _, arrived, _, rfl⟩
        · rfl
        · rw [Node.follow_markerFound, searched_markerFound]
          rfl
      simp [Node.processed, kept]
  | timeout fn =>
      obtain ⟨_, done⟩ := step
      cases fn <;> cases done <;> simp [Node.call]
  | ackTimeout =>
      obtain ⟨u, _, _, rfl⟩ := ackTimeout_step h step
      simp
  | tick | ctrlInterval =>
      obtain ⟨_, done⟩ := step
      cases done
      simp

/-- Soundness of the handshake survives every event, and only a tick sends anything. -/
theorem step_sound (h : n.client.Sound) {e : Event} (step : Step rt n e n') :
    n'.client.Sound ∧ (e ≠ .tick → n'.client.udpControl.sent = n.client.udpControl.sent) := by
  cases e with
  | data connection chunk =>
      rw [data_step.mp step]
      cases recognise chunk.trim with
      | none => exact ⟨h, fun _ => rfl⟩
      | some m =>
          have followed := Node.follow_sound h m.order.toList
          exact ⟨⟨followed.udpControl, followed.repeaters⟩, fun _ =>
            congrArg UdpControl.sent (Node.follow_udpControl n m.order.toList)⟩
  | navdata data position =>
      obtain ⟨u, m, sound, sent, rfl, same⟩ := navdata_cases h step
      have met := received_sound h data sound
      have kept : m.client.Sound ∧ m.client.udpControl = u := by
        rcases same with ⟨_, rfl⟩ | ⟨_, _, arrived, _, rfl⟩
        · exact ⟨met, rfl⟩
        · refine ⟨Node.follow_sound (searched_sound met arrived) _, ?_⟩
          rw [Node.follow_udpControl, searched_client]
          rfl
      refine ⟨processed_sound kept.1 data, fun _ => ?_⟩
      rw [(processed_udpControl m data).1, kept.2, sent]
  | timeout fn =>
      obtain ⟨_, done⟩ := step
      cases fn <;> cases done <;> exact ⟨⟨h.udpControl, h.repeaters⟩, fun _ => rfl⟩
  | tick =>
      obtain ⟨_, done⟩ := step
      cases done
      obtain ⟨_, _, sound, _⟩ := Client.sendCommands_spec h
      exact ⟨sound, fun absurd => (absurd rfl).elim⟩
  | ackTimeout =>
      obtain ⟨u, sound, sent, rfl⟩ := ackTimeout_step h step
      exact ⟨⟨sound, h.repeaters⟩, fun _ => sent⟩
  | ctrlInterval =>
      obtain ⟨_, done⟩ := step
      cases done
      exact ⟨⟨⟨h.udpControl.blocked, h.udpControl.cmds, h.udpControl.blockingCmds⟩, h.repeaters⟩,
        fun _ => rfl⟩

end Step

theorem start_sound (coordinates : JsString) : (Node.start coordinates).client.Sound := by
  have configured := Client.config_sound (Client.config_sound Client.create_sound
    "general:navdata_options" "777060865") "control:altitude_max" "3000"
  exact ⟨configured.udpControl, configured.repeaters⟩

theorem run_sound {rt : Runtime} {coordinates : JsString} {h : List (Node × Event)} {n : Node}
    (run : NodeRun rt coordinates h n) : n.client.Sound :=
  run.preserves (start_sound coordinates) fun _ _ _ sound step => (step_sound sound step).1

end DroneParking
