import DroneParking.Steps

/-!
# What reaches the drone

`UdpControl` under any sequence of calls: sequence numbers without gaps, both
queues first in first out with nothing lost or sent twice, and one blocking
command at a time. The node's runs are such sequences.
-/
namespace DroneParking

open Library (Run)

/-- What can happen to a `UdpControl`. -/
inductive UdpCall where
  | enqueue (cmd : AtCommand)
  | flush
  | ack
  | ackReset
  | ackTimeout
  | ctrlInterval
  deriving DecidableEq, Repr

namespace UdpCall

def apply : UdpCall → UdpControl → Except JsError UdpControl
  | .enqueue cmd, u => .ok (u.enqueue cmd)
  | .flush, u => .ok u.flush
  | .ack, u => u.ack
  | .ackReset, u => u.ackReset
  | .ackTimeout, u => u.handleAckTimeout
  | .ctrlInterval, u => .ok u.handleCtrlInterval

/-- The acknowledgement timer fires only while it runs. -/
def CanOccur (u : UdpControl) : UdpCall → Prop
  | .ackTimeout => u.blocked.ackTimer = true
  | _ => True

/-- The commands a call puts into a queue: an acknowledgement that is waited for asks for its
own reset. -/
def queued (u : UdpControl) : UdpCall → List AtCommand
  | .enqueue cmd => [cmd]
  | .ack => if u.blocked.state = .WAITING_FOR_ACK then [AtCommandCreator.ctrl 5 0] else []
  | .flush | .ackReset | .ackTimeout | .ctrlInterval => []

end UdpCall

def UdpStep (u : UdpControl) (e : UdpCall) (u' : UdpControl) : Prop :=
  e.CanOccur u ∧ e.apply u = .ok u'

abbrev UdpRun := Run UdpStep {}

/-- Every command that was ever put into a queue, oldest first. -/
def queued (h : List (UdpControl × UdpCall)) : List AtCommand := h.flatMap fun q => q.2.queued q.1

namespace UdpControl

section Calls
variable {u u' : UdpControl}

theorem assert_bind {b : Bool} {x : Except JsError UdpControl} :
    (do assert b; x) = .ok u' ↔ b = true ∧ x = .ok u' := by
  cases b with
  | true => exact ⟨fun h => ⟨rfl, h⟩, fun h => h.2⟩
  | false => exact ⟨nofun, fun h => absurd h.1 (by decide)⟩

theorem ack_cases (h : u.ack = .ok u') :
    (u.blocked.state = .WAITING_FOR_ACK ∧ u' = u.acked) ∨
      (u.blocked.state ≠ .WAITING_FOR_ACK ∧ u' = u) := by
  unfold ack at h
  split at h
  · next waiting =>
      obtain ⟨_, h⟩ := assert_bind.mp h
      obtain ⟨_, h⟩ := assert_bind.mp h
      cases h
      exact .inl ⟨waiting, rfl⟩
  · next other =>
      cases h
      exact .inr ⟨other, rfl⟩

theorem ackReset_cases (h : u.ackReset = .ok u') :
    (u.blocked.state = .WAITING_FOR_ACK_RESET ∧ u' = u.released) ∨
      (u.blocked.state ≠ .WAITING_FOR_ACK_RESET ∧ u' = u) := by
  unfold ackReset at h
  split at h
  · next waiting =>
      obtain ⟨_, h⟩ := assert_bind.mp h
      cases h
      exact .inl ⟨waiting, rfl⟩
  · next other =>
      cases h
      exact .inr ⟨other, rfl⟩

theorem handleAckTimeout_cases (h : u.handleAckTimeout = .ok u') : u.blocked.state = .WAITING_FOR_ACK ∧
    u' = ({ u with blocked := { u.blocked with ackTimer := false } } : UdpControl).released := by
  unfold handleAckTimeout at h
  obtain ⟨waiting, h⟩ := assert_bind.mp h
  obtain ⟨_, h⟩ := assert_bind.mp h
  obtain ⟨_, h⟩ := assert_bind.mp h
  cases h
  exact ⟨of_decide_eq_true waiting, rfl⟩

end Calls

/-- The commands in the order in which they were sent. -/
def sentCommands (u : UdpControl) : List AtCommand := u.sent.flatten.map Prod.fst

/-- Between the log of what was queued and what was sent or still waits, nothing is lost, sent
twice or overtaken by a command of its kind. -/
structure Accounts (u : UdpControl) (log : List AtCommand) : Prop where
  numbers : u.sent.flatten.map Prod.snd = List.range u.sequenceNumber
  cmds : u.sentCommands.filter (!·.blocks) ++ u.cmds = log.filter (!·.blocks)
  blockingCmds : u.sentCommands.filter (·.blocks) ++ u.blockingCmds = log.filter (·.blocks)
  pure : ∀ c ∈ u.cmds, c.blocks = false
  blocking : ∀ c ∈ u.blockingCmds, c.blocks = true

section Accounts
variable {u : UdpControl} {log : List AtCommand}

theorem Accounts.initial : Accounts {} [] := ⟨rfl, rfl, rfl, by simp, by simp⟩

theorem Accounts.enqueue (h : u.Accounts log) (cmd : AtCommand) :
    (u.enqueue cmd).Accounts (log ++ [cmd]) := by
  unfold UdpControl.enqueue
  cases blocks : cmd.blocks with
  | true =>
      rw [if_pos rfl]
      refine ⟨h.numbers, ?_, ?_, h.pure, ?_⟩
      · rw [List.filter_append, List.filter_cons_of_neg (by simp [blocks]), List.filter_nil,
          List.append_nil]
        exact h.cmds
      · rw [List.filter_append, List.filter_cons_of_pos (by simp [blocks]), List.filter_nil,
          ← h.blockingCmds, List.append_assoc]
        rfl
      · intro c hc
        rcases List.mem_append.mp hc with old | new
        · exact h.blocking c old
        · rw [List.mem_singleton.mp new]
          exact blocks
  | false =>
      rw [if_neg Bool.false_ne_true]
      refine ⟨h.numbers, ?_, ?_, ?_, h.blocking⟩
      · rw [List.filter_append, List.filter_cons_of_pos (by simp [blocks]), List.filter_nil,
          ← h.cmds, List.append_assoc]
        rfl
      · rw [List.filter_append, List.filter_cons_of_neg (by simp [blocks]), List.filter_nil,
          List.append_nil]
        exact h.blockingCmds
      · intro c hc
        rcases List.mem_append.mp hc with old | new
        · exact h.pure c old
        · rw [List.mem_singleton.mp new]
          exact blocks

/-- A datagram continues the numbers where the last one ended. -/
theorem sendCommands_numbers (h : u.sent.flatten.map Prod.snd = List.range u.sequenceNumber)
    (commands : List AtCommand) : (u.sendCommands commands).sent.flatten.map Prod.snd =
      List.range (u.sendCommands commands).sequenceNumber := by
  simp only [sendCommands, List.flatten_append, List.flatten_singleton, List.map_append, h,
    List.zipIdx_map_snd]
  rw [List.range_eq_range', List.range_eq_range', ← List.range'_append_1, Nat.zero_add]

theorem sendCommands_sent (u : UdpControl) (commands : List AtCommand) :
    (u.sendCommands commands).sentCommands = u.sentCommands ++ commands := by
  simp only [sentCommands, sendCommands, List.flatten_append, List.flatten_singleton, List.map_append,
    List.zipIdx_map_fst]

theorem filter_plain {l : List AtCommand} (h : ∀ c ∈ l, c.blocks = false) :
    l.filter (!·.blocks) = l ∧ l.filter (·.blocks) = [] := by
  constructor
  · exact List.filter_eq_self.mpr fun c hc => by rw [h c hc]; rfl
  · exact List.filter_eq_nil_iff.mpr fun c hc => by rw [h c hc]; decide

theorem Accounts.flushCmds (h : u.Accounts log) : u.flushCmds.Accounts log := by
  obtain ⟨all, none⟩ := filter_plain h.pure
  unfold UdpControl.flushCmds
  split
  · exact h
  · refine ⟨sendCommands_numbers h.numbers u.cmds, ?_, ?_, by simp, h.blocking⟩
    · change (u.sendCommands u.cmds).sentCommands.filter _ ++ [] = _
      rw [sendCommands_sent, List.filter_append, all, List.append_nil, h.cmds]
    · change (u.sendCommands u.cmds).sentCommands.filter _ ++ u.blockingCmds = _
      rw [sendCommands_sent, List.filter_append, none, List.append_nil, h.blockingCmds]

theorem Accounts.flushBlocking (h : u.Accounts log) : u.flushBlocking.Accounts log := by
  unfold UdpControl.flushBlocking
  split
  · cases queue : u.blockingCmds with
    | nil => exact h
    | cons cmd rest =>
        have blocks : cmd.blocks = true := h.blocking cmd (by rw [queue]; exact List.mem_cons_self)
        have sent := sendCommands_sent { u with blockingCmds := rest } [cmd]
        have numbers := sendCommands_numbers (u := { u with blockingCmds := rest }) h.numbers [cmd]
        refine ⟨numbers, ?_, ?_, h.pure, ?_⟩
        · change (UdpControl.sendCommands _ [cmd]).sentCommands.filter _ ++ u.cmds = _
          rw [sent, List.filter_append, List.filter_cons_of_neg (by simp [blocks]), List.filter_nil,
            List.append_nil]
          exact h.cmds
        · change (UdpControl.sendCommands _ [cmd]).sentCommands.filter _ ++ rest = _
          rw [sent, List.filter_append, List.filter_cons_of_pos (by simp [blocks]), List.filter_nil,
            List.append_assoc, ← h.blockingCmds, queue]
          rfl
        · intro c hc
          exact h.blocking c (by rw [queue]; exact List.mem_cons_of_mem _ hc)
  · exact h

theorem Accounts.step (h : u.Accounts log) {e : UdpCall} {u' : UdpControl} (step : UdpStep u e u') :
    u'.Accounts (log ++ e.queued u) := by
  obtain ⟨_, done⟩ := step
  cases e with
  | enqueue cmd =>
      cases done
      exact h.enqueue cmd
  | flush =>
      cases done
      rw [UdpCall.queued, List.append_nil]
      exact h.flushCmds.flushBlocking
  | ack =>
      rcases ack_cases done with ⟨waiting, rfl⟩ | ⟨other, rfl⟩
      · rw [UdpCall.queued, if_pos waiting]
        have ctrl := h.enqueue (AtCommandCreator.ctrl 5 0)
        exact ⟨ctrl.numbers, ctrl.cmds, ctrl.blockingCmds, ctrl.pure, ctrl.blocking⟩
      · rw [UdpCall.queued, if_neg other, List.append_nil]
        exact h
  | ackReset =>
      rw [UdpCall.queued, List.append_nil]
      rcases ackReset_cases done with ⟨_, rfl⟩ | ⟨_, rfl⟩
      · exact ⟨h.numbers, h.cmds, h.blockingCmds, h.pure, h.blocking⟩
      · exact h
  | ackTimeout =>
      obtain ⟨_, rfl⟩ := handleAckTimeout_cases done
      rw [UdpCall.queued, List.append_nil]
      exact ⟨h.numbers, h.cmds, h.blockingCmds, h.pure, h.blocking⟩
  | ctrlInterval =>
      cases done
      rw [UdpCall.queued, List.append_nil]
      exact ⟨h.numbers, h.cmds, h.blockingCmds, h.pure, h.blocking⟩

theorem Accounts.queued_of_sent (h : u.Accounts log) {c : AtCommand} (sent : c ∈ u.sentCommands) :
    c ∈ log := by
  cases blocks : c.blocks with
  | false =>
      have kind : c ∈ u.sentCommands.filter (!·.blocks) :=
        List.mem_filter.mpr ⟨sent, by rw [blocks]; rfl⟩
      have whole := List.mem_append_left u.cmds kind
      rw [h.cmds] at whole
      exact (List.mem_filter.mp whole).1
  | true =>
      have kind : c ∈ u.sentCommands.filter (·.blocks) := List.mem_filter.mpr ⟨sent, blocks⟩
      have whole := List.mem_append_left u.blockingCmds kind
      rw [h.blockingCmds] at whole
      exact (List.mem_filter.mp whole).1

end Accounts

/-- Whatever is called in whatever order, the numbers sent are `0, 1, 2, …`, and each of the two
kinds of commands is sent in the order in which it was queued, nothing lost and nothing twice. -/
theorem run_accounts {h : List (UdpControl × UdpCall)} {u : UdpControl} (run : UdpRun h u) :
    u.Accounts (queued h) := by
  induction run with
  | nil => exact .initial
  | snoc _ step ih =>
      rw [queued, List.flatMap_append, List.flatMap_singleton]
      exact ih.step step

theorem run_accounts_config : (flush (enqueue {} (AtCommandCreator.config "a" "b"))).Accounts
    [AtCommandCreator.config "a" "b"] := by
  have queued : UdpStep {} (.enqueue (AtCommandCreator.config "a" "b"))
      (enqueue {} (AtCommandCreator.config "a" "b")) := ⟨trivial, rfl⟩
  have flushed : UdpStep (enqueue {} (AtCommandCreator.config "a" "b")) .flush
      (flush (enqueue {} (AtCommandCreator.config "a" "b"))) := ⟨trivial, rfl⟩
  exact run_accounts ((Run.single queued).snoc flushed)

/-- The blocking command was given up, or it was acknowledged and the acknowledgement was taken
back. -/
def Settled (h : List (UdpControl × UdpCall)) : Prop :=
  (∃ q ∈ h, q.2 = .ackTimeout) ∨
    ∃ h₁ x h₂ y h₃, h = h₁ ++ x :: (h₂ ++ y :: h₃) ∧ x.2 = .ack ∧ y.2 = .ackReset

/-- Where a blocking command is between being sent and being settled. -/
def InFlight (u : UdpControl) (h : List (UdpControl × UdpCall)) : Prop :=
  u.blocked.state = .WAITING_FOR_ACK ∨
    u.blocked.state = .WAITING_FOR_ACK_RESET ∧ (∃ q ∈ h, q.2 = .ack) ∨ Settled h

section Handshake
variable {u u' : UdpControl} {h : List (UdpControl × UdpCall)} {q : UdpControl × UdpCall}

theorem Settled.snoc (settled : Settled h) : Settled (h ++ [q]) := by
  rcases settled with ⟨x, member, timeout⟩ | ⟨h₁, x, h₂, y, h₃, rfl, acked, reset⟩
  · exact .inl ⟨x, List.mem_append_left _ member, timeout⟩
  · exact .inr ⟨h₁, x, h₂, y, h₃ ++ [q], by simp, acked, reset⟩

@[simp] theorem enqueue_blocked (u : UdpControl) (cmd : AtCommand) :
    (u.enqueue cmd).blocked = u.blocked := by
  unfold enqueue
  split <;> rfl

theorem acked_state (u : UdpControl) : u.acked.blocked.state = .WAITING_FOR_ACK_RESET := by
  simp only [acked, ctrl, enqueue_blocked]

theorem flush_state (u : UdpControl) : u.flush.blocked.state =
    if u.blocked.state = .NOT_BLOCKED ∧ u.blockingCmds ≠ [] then .WAITING_FOR_ACK
    else u.blocked.state := by
  obtain ⟨_, _, _, _, blocked, queue⟩ := flushCmds_spec u
  unfold flush flushBlocking
  rw [blocked, queue]
  by_cases free : u.blocked.state = .NOT_BLOCKED
  · rw [if_pos free]
    cases waiting : u.blockingCmds with
    | nil => rw [if_neg (by simp), blocked]
    | cons cmd rest => rw [if_pos (by simp [free])]
  · rw [if_neg free, if_neg (by simp [free]), blocked]

theorem InFlight.step (flight : InFlight u h) {e : UdpCall} (step : UdpStep u e u') :
    InFlight u' (h ++ [(u, e)]) := by
  rcases flight with waiting | ⟨resetting, x, member, acked⟩ | settled
  · cases e with
    | enqueue cmd =>
        cases step.2
        exact .inl ((congrArg Blocked.state (enqueue_blocked u cmd)).trans waiting)
    | flush =>
        cases step.2
        refine .inl ?_
        rw [flush_state, if_neg (by simp [waiting]), waiting]
    | ack =>
        rcases ack_cases step.2 with ⟨_, rfl⟩ | ⟨other, _⟩
        · exact .inr (.inl ⟨acked_state u, (u, .ack), by simp, rfl⟩)
        · exact absurd waiting other
    | ackReset =>
        rcases ackReset_cases step.2 with ⟨resetting, _⟩ | ⟨_, rfl⟩
        · rw [waiting] at resetting
          cases resetting
        · exact .inl waiting
    | ackTimeout => exact .inr (.inr (.inl ⟨(u, .ackTimeout), by simp, rfl⟩))
    | ctrlInterval =>
        cases step.2
        exact .inl waiting
  · have old : ∃ q ∈ h ++ [(u, e)], q.2 = .ack := ⟨x, List.mem_append_left _ member, acked⟩
    cases e with
    | enqueue cmd =>
        cases step.2
        exact .inr (.inl ⟨(congrArg Blocked.state (enqueue_blocked u cmd)).trans resetting, old⟩)
    | flush =>
        cases step.2
        refine .inr (.inl ⟨?_, old⟩)
        rw [flush_state, if_neg (by simp [resetting]), resetting]
    | ack =>
        rcases ack_cases step.2 with ⟨waiting, _⟩ | ⟨_, rfl⟩
        · rw [resetting] at waiting
          cases waiting
        · exact .inr (.inl ⟨resetting, old⟩)
    | ackReset =>
        obtain ⟨h₁, h₂, rfl⟩ := List.append_of_mem member
        exact .inr (.inr (.inr ⟨h₁, x, h₂, (u, .ackReset), [], by simp, acked, rfl⟩))
    | ackTimeout => exact .inr (.inr (.inl ⟨(u, .ackTimeout), by simp, rfl⟩))
    | ctrlInterval =>
        cases step.2
        exact .inr (.inl ⟨resetting, old⟩)
  · exact .inr (.inr settled.snoc)

end Handshake

end UdpControl

/-- The commands an event of the node puts into a queue. -/
def Node.queued (n : Node) : Event → List AtCommand
  | .navdata data _ =>
      if data.droneState.controlCommandAck then UdpCall.queued n.client.udpControl .ack else []
  | .tick => AtCommandCreator.ref n.client.ref :: AtCommandCreator.pcmd n.client.pcmd ::
      n.client.repeaters.map (·.method)
  | .data _ _ | .timeout _ | .ackTimeout | .ctrlInterval => []

section Node
variable {rt : Runtime} {n n' : Node} {log : List AtCommand}

theorem refreshEmergency_udpControl (c : Client) (data : Navdata) :
    (c.refreshEmergency data).udpControl = c.udpControl := by
  unfold Client.refreshEmergency
  split <;> rfl

/-- An acknowledgement bit is passed on to the queue, and that is all. -/
theorem acknowledge_ok {c c' : Client} {data : Navdata} (h : c.acknowledge data = .ok c') :
    c' = { c with udpControl := c'.udpControl } ∧ UdpStep c.udpControl
      (if data.droneState.controlCommandAck then .ack else .ackReset) c'.udpControl := by
  unfold Client.acknowledge at h
  cases acked : data.droneState.controlCommandAck with
  | true =>
      rw [acked, if_pos rfl] at h
      cases result : c.udpControl.ack with
      | error e =>
          rw [result] at h
          cases h
      | ok v =>
          rw [result] at h
          cases h
          exact ⟨rfl, trivial, result⟩
  | false =>
      rw [acked, if_neg Bool.false_ne_true] at h
      cases result : c.udpControl.ackReset with
      | error e =>
          rw [result] at h
          cases h
      | ok v =>
          rw [result] at h
          cases h
          exact ⟨rfl, trivial, result⟩

/-- The handshake is the whole of what a packet does to the queues. -/
theorem navdata_udpStep (h : n.client.Sound) {data : Navdata} {position : Position}
    (step : Step rt n (.navdata data position) n') : UdpStep n.client.udpControl
      (if data.droneState.controlCommandAck then .ack else .ackReset) n'.client.udpControl := by
  obtain ⟨u, done, _, _⟩ := Client.acknowledge_sound (refreshEmergency_sound h data) data
  have acknowledged := (acknowledge_ok done).2
  rw [refreshEmergency_udpControl] at acknowledged
  have lifted : liftClient (·.acknowledge data)
      { n with client := n.client.refreshEmergency data } = .ok () (n.received data u) := by
    simp only [liftClient, done, Node.received]
  have handled := step.2
  rw [handle] at handled
  unfold handleNavdata at handled
  simp only [Library.bind_apply, Library.modify_apply, Library.get_apply, Library.if_apply, lifted]
    at handled
  have kept : n'.client.udpControl = u := by
    cases listening : (n.received data u).listening with
    | false =>
        rw [listening, if_neg Bool.false_ne_true] at handled
        cases handled
        exact (processed_udpControl _ data).1
    | true =>
        rw [listening, if_pos rfl] at handled
        cases result : navdataListener rt data position (n.received data u) with
        | error e m =>
            rw [result] at handled
            cases handled
        | ok x m =>
            rw [result] at handled
            cases handled
            have same : m.client.udpControl = u := by
              rcases navdataListener_ok result with ⟨_, rfl⟩ | ⟨_, arrived, _, rfl⟩
              · rfl
              · rw [Node.follow_udpControl, searched_client]
                rfl
            exact (processed_udpControl m data).1.trans same
  rw [kept]
  exact acknowledged

theorem accounts_foldl (l : List Repeater) {u : UdpControl} (h : u.Accounts log) :
    (l.foldl (fun u r => u.enqueue r.method) u).Accounts (log ++ l.map (·.method)) := by
  induction l generalizing u log with
  | nil => rwa [List.map_nil, List.append_nil]
  | cons r l ih =>
      have later := ih (h.enqueue r.method)
      rwa [List.append_assoc] at later

theorem sendCommands_accounts {c : Client} (h : c.udpControl.Accounts log) :
    c.sendCommands.udpControl.Accounts (log ++ AtCommandCreator.ref c.ref ::
      AtCommandCreator.pcmd c.pcmd :: c.repeaters.map (·.method)) := by
  have flushed := ((h.enqueue (AtCommandCreator.ref c.ref)).enqueue
    (AtCommandCreator.pcmd c.pcmd)).flushCmds.flushBlocking
  have repeated := accounts_foldl c.repeaters flushed
  rw [List.append_assoc, List.append_assoc] at repeated
  exact repeated

theorem step_accounts (sound : n.client.Sound) (h : n.client.udpControl.Accounts log) {e : Event}
    (step : Step rt n e n') : n'.client.udpControl.Accounts (log ++ n.queued e) := by
  cases e with
  | data connection chunk =>
      rw [Node.queued, List.append_nil, data_step.mp step]
      cases recognise chunk.trim with
      | none => exact h
      | some m =>
          have same : (n.execute m).client.udpControl = n.client.udpControl :=
            Node.follow_udpControl n m.order.toList
          rw [← same] at h
          exact h
  | navdata data position =>
      have called := h.step (navdata_udpStep sound step)
      cases acked : data.droneState.controlCommandAck with
      | true =>
          rw [acked, if_pos rfl] at called
          rwa [Node.queued, if_pos acked]
      | false =>
          rw [acked, if_neg Bool.false_ne_true, UdpCall.queued] at called
          rwa [Node.queued, if_neg (by rw [acked]; decide)]
  | timeout fn =>
      obtain ⟨_, done⟩ := step
      rw [Node.queued, List.append_nil]
      cases fn <;> cases done <;> exact h
  | tick =>
      obtain ⟨_, done⟩ := step
      cases done
      exact sendCommands_accounts h
  | ackTimeout =>
      obtain ⟨running, done⟩ := step
      cases expired : n.client.udpControl.handleAckTimeout with
      | error e =>
          simp only [handle, liftClient, expired] at done
          cases done
      | ok u =>
          simp only [handle, liftClient, expired] at done
          cases done
          exact h.step (e := .ackTimeout) ⟨running, expired⟩
  | ctrlInterval =>
      obtain ⟨_, done⟩ := step
      cases done
      have called := h.step (e := .ctrlInterval) ⟨trivial, rfl⟩
      exact called

/-- What the script queues before its first event. -/
def Node.startup : List AtCommand := [AtCommandCreator.ctrl 5 0,
  AtCommandCreator.config "general:navdata_demo" "TRUE",
  AtCommandCreator.config "general:navdata_options" "777060865",
  AtCommandCreator.config "control:altitude_max" "3000"]

theorem start_accounts (coordinates : JsString) :
    (Node.start coordinates).client.udpControl.Accounts Node.startup := by
  have first := UdpControl.Accounts.initial.enqueue (AtCommandCreator.ctrl 5 0)
  have queued := ((first.enqueue (AtCommandCreator.config "general:navdata_demo" "TRUE")).enqueue
    (AtCommandCreator.config "general:navdata_options" "777060865")).enqueue
    (AtCommandCreator.config "control:altitude_max" "3000")
  exact queued

/-- Along a run the node queues what its ticks, its acknowledgements and its start ask for, and all
of it is accounted for. -/
theorem run_accounted {coordinates : JsString} {h : List (Node × Event)}
    (run : NodeRun rt coordinates h n) :
    n.client.udpControl.Accounts (Node.startup ++ h.flatMap fun q => q.1.queued q.2) := by
  induction run with
  | nil => rw [List.flatMap_nil, List.append_nil]; exact start_accounts coordinates
  | snoc prior step ih =>
      rw [List.flatMap_append, List.flatMap_singleton, ← List.append_assoc]
      exact step_accounts (run_sound prior) ih step

end Node
end DroneParking
