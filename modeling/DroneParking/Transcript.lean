import DroneParking.Refinement
import DroneParking.Repeats

/-!
# What the drone is told

The datagrams of a run, read as the drone reads them: under numbers without gaps,
the state of the node at each of its ticks, acknowledgements and the options of
the start.
-/
namespace DroneParking

open List (Forall₂)
open Library (Run)

/-- What an event puts into the queue for the drone. -/
def Node.instructions (n : Node) : Event → List Instruction
  | .navdata data _ =>
      if data.droneState.controlCommandAck ∧ n.client.udpControl.blocked.state = .WAITING_FOR_ACK then
        [.ctrl 5 0]
      else []
  | .tick => [
      .ref (decide (n.client.ref.fly = some true)) (decide (n.client.ref.emergency = some true)),
      .pcmd (decide (n.client.pcmd.entries ≠ [])) ((axis n.client.pcmd .right).toFormat 8 23)
        ((axis n.client.pcmd .back).toFormat 8 23) ((axis n.client.pcmd .up).toFormat 8 23)
        ((axis n.client.pcmd .clockwise).toFormat 8 23)]
  | .data _ _ | .timeout _ | .ackTimeout | .ctrlInterval => []

def Node.options : List Instruction := [
  .config "general:navdata_demo".toList "TRUE".toList,
  .config "general:navdata_options".toList "777060865".toList,
  .config "control:altitude_max".toList "3000".toList]

section Queued
variable {rt : Runtime} {coordinates : JsString} {h : List (Node × Event)} {n n' : Node} {e : Event}

theorem step_repeaters (sound : n.client.Sound) (none : n.client.repeaters = [])
    (step : Step rt n e n') : n'.client.repeaters = [] := by
  cases e with
  | data connection chunk =>
      rw [data_step.mp step]
      cases recognise chunk.trim with
      | none => exact none
      | some m => exact (Node.follow_repeaters n m.order.toList).trans none
  | navdata data position =>
      obtain ⟨u, m, _, _, rfl, same⟩ := navdata_cases sound step
      rw [(processed_udpControl m data).2]
      rcases same with ⟨_, rfl⟩ | ⟨_, _, arrived, _, rfl⟩
      · rw [received_repeaters, none]
      · rw [Node.follow_repeaters, searched_client, received_repeaters, none]
  | timeout fn =>
      obtain ⟨_, done⟩ := step
      cases fn <;> cases done <;> exact none
  | tick =>
      obtain ⟨_, done⟩ := step
      cases done
      simp only [Client.sendCommands, none, List.map_nil, List.filter_nil]
  | ackTimeout =>
      obtain ⟨u, _, _, rfl⟩ := ackTimeout_step sound step
      exact none
  | ctrlInterval =>
      obtain ⟨_, done⟩ := step
      cases done
      exact none

/-- The script asks for nothing to be repeated. -/
theorem run_repeaters (run : NodeRun rt coordinates h n) : n.client.repeaters = [] := by
  induction run with
  | nil => rfl
  | snoc prior step ih => exact step_repeaters (run_sound prior) ih step

theorem motion_apart (p : Pilot) (key : PcmdKey) (given : p.motion key ≠ none) :
    p.motion (Client.opposite key) = none := by
  obtain ⟨flying, course⟩ := p
  cases course with
  | none => rfl
  | some d => cases d <;> cases key <;> first | rfl | exact absurd rfl given

theorem run_apart (run : NodeRun rt coordinates h n) : Apart n.client.pcmd := by
  intro key given
  have shown := (run_refines run).1.pcmd
  rw [shown] at given ⊢
  exact motion_apart _ key given

theorem queued_tells (run : NodeRun rt coordinates h n) (e : Event) :
    Forall₂ AtCommand.Says (n.queued e) (n.instructions e) := by
  cases e with
  | navdata data position =>
      rw [Node.queued, Node.instructions, UdpCall.queued]
      by_cases acked : data.droneState.controlCommandAck = true <;>
        by_cases waiting : n.client.udpControl.blocked.state = .WAITING_FOR_ACK <;>
          simp [acked, waiting, ctrl_tells]
  | tick =>
      rw [Node.queued, run_repeaters run]
      exact .cons (ref_tells _) (.cons (pcmd_tells (run_apart run)) .nil)
  | data | timeout | ackTimeout | ctrlInterval => exact .nil

theorem startup_tells : Forall₂ AtCommand.Says Node.startup (.ctrl 5 0 :: Node.options) :=
  .cons (ctrl_tells 5 0) (.cons (config_tells (by decide) (by decide))
    (.cons (config_tells (by decide) (by decide)) (.cons (config_tells (by decide) (by decide)) .nil)))

/-- What is queued along a run, told as instructions. -/
theorem history_tells (run : NodeRun rt coordinates h n) :
    Forall₂ AtCommand.Says (h.flatMap fun q => q.1.queued q.2)
      (h.flatMap fun q => q.1.instructions q.2) := by
  induction run with
  | nil => exact .nil
  | snoc prior step ih =>
      rw [List.flatMap_append, List.flatMap_append, List.flatMap_singleton, List.flatMap_singleton]
      exact List.rel_append ih (queued_tells prior _)

end Queued

section Reading
variable {u : UdpControl} {log commands : List AtCommand} {told : List Instruction}

theorem says_of_mem (h : Forall₂ AtCommand.Says log told) {c : AtCommand} (member : c ∈ log) :
    ∃ i, c.Says i := by
  induction h with
  | nil => cases member
  | cons first rest ih =>
      rcases List.mem_cons.mp member with rfl | later
      · exact ⟨_, first⟩
      · exact ih later

theorem says_unique : Relator.RightUnique AtCommand.Says := by
  intro c i j hi hj
  exact Option.some_inj.mp (hi.said.symm.trans hj.said)

/-- Every datagram of clear commands is read, and what is read is what the commands say. -/
theorem read_sent {sent : List (List (AtCommand × ℕ))} (clear : ∀ c ∈ sent.flatten, ∃ i, c.1.Says i) :
    ∃ lines, (sent.map datagram).mapM readDatagram = some lines ∧
      Forall₂ (fun c l => c.2 = l.1 ∧ c.1.Says l.2) sent.flatten lines.flatten := by
  induction sent with
  | nil => exact ⟨[], rfl, .nil⟩
  | cons datagram sent ih =>
      rw [List.flatten_cons] at clear
      obtain ⟨first, read, same⟩ :=
        readDatagram_datagram fun c hc => clear c (List.mem_append_left _ hc)
      obtain ⟨rest, reads, sames⟩ := ih fun c hc => clear c (List.mem_append_right _ hc)
      refine ⟨first :: rest, ?_, List.rel_append same sames⟩
      rw [List.map_cons, List.mapM_cons, read, reads]
      rfl

/-- Of one kind of commands, what has been sent and what waits are together what was queued; so are
what they say. -/
theorem told_kind {instructions : List Instruction} (keep : Bool → Bool)
    (queued : Forall₂ AtCommand.Says log told) (sent : Forall₂ AtCommand.Says commands instructions)
    {left : List AtCommand}
    (whole : (commands.filter fun c => keep c.blocks) ++ left = log.filter fun c => keep c.blocks) :
    ∃ waiting, waiting.length = left.length ∧
      (instructions.filter fun i => keep i.isConfig) ++ waiting =
        told.filter fun i => keep i.isConfig := by
  have kind : ∀ ⦃c i⦄, AtCommand.Says c i → (keep c.blocks = true ↔ keep i.isConfig = true) := by
    intro c i h
    rw [h.blocks]
  have all := List.rel_filter kind queued
  have part := List.rel_filter kind sent
  rw [← whole] at all
  let n := (commands.filter fun c => keep c.blocks).length
  have front := List.forall₂_take n all
  have back := List.forall₂_drop n all
  rw [List.take_left] at front
  rw [List.drop_left] at back
  refine ⟨_, back.length_eq.symm, ?_⟩
  rw [List.right_unique_forall₂' says_unique part front, List.take_append_drop]

/-- What a queue has sent is read, under numbers without gaps, as what was put into it, each kind in
its order; only the last of a kind may still wait. -/
theorem told_of_accounts {u : UdpControl} (accounts : u.Accounts log)
    (queued : Forall₂ AtCommand.Says log told) : ∃ lines,
      (u.sent.map datagram).mapM readDatagram = some lines ∧
      lines.flatten.map Prod.fst = List.range u.sequenceNumber ∧
      (∃ waiting, waiting.length = u.cmds.length ∧
        (lines.flatten.map Prod.snd).filter (!·.isConfig) ++ waiting = told.filter (!·.isConfig)) ∧
      ∃ waiting, waiting.length = u.blockingCmds.length ∧
        (lines.flatten.map Prod.snd).filter (·.isConfig) ++ waiting = told.filter (·.isConfig) := by
  have clear : ∀ c ∈ u.sent.flatten, ∃ i, c.1.Says i := fun c member =>
    says_of_mem queued (accounts.queued_of_sent (List.mem_map_of_mem member))
  obtain ⟨lines, read, same⟩ := read_sent clear
  have sent : Forall₂ AtCommand.Says u.sentCommands (lines.flatten.map Prod.snd) := by
    rw [UdpControl.sentCommands, List.forall₂_map_left_iff, List.forall₂_map_right_iff]
    exact same.imp fun _ _ h => h.2
  have numbers : u.sent.flatten.map Prod.snd = lines.flatten.map Prod.fst := by
    rw [← List.forall₂_eq_eq_eq, List.forall₂_map_left_iff, List.forall₂_map_right_iff]
    exact same.imp fun _ _ h => h.1
  exact ⟨lines, read, numbers.symm.trans accounts.numbers,
    told_kind (!·) queued sent accounts.cmds, told_kind id queued sent accounts.blockingCmds⟩

end Reading

theorem instructions_not_config (n : Node) (e : Event) :
    ∀ i ∈ n.instructions e, i.isConfig = false := by
  intro i member
  cases e with
  | navdata data position =>
      rw [Node.instructions] at member
      split at member
      · rw [List.mem_singleton.mp member]
        rfl
      · cases member
  | tick =>
      rcases List.mem_pair.mp member with rfl | rfl <;> rfl
  | data | timeout | ackTimeout | ctrlInterval => cases member

/-- In every run, the datagrams are read, under numbers without gaps, as what the node queued: a
reset of the acknowledgement at the start and at each acknowledgement waited for, and at each tick
the flight and emergency bits and the speed along each axis, rounded to a float, as they then were;
and apart from these the options of the start. In each kind only the last ones may still wait. -/
theorem run_told {rt : Runtime} {coordinates : JsString} {h : List (Node × Event)} {n : Node}
    (run : NodeRun rt coordinates h n) : ∃ lines,
      (n.client.udpControl.sent.map datagram).mapM readDatagram = some lines ∧
      lines.flatten.map Prod.fst = List.range n.client.udpControl.sequenceNumber ∧
      (∃ waiting, waiting.length = n.client.udpControl.cmds.length ∧
        (lines.flatten.map Prod.snd).filter (!·.isConfig) ++ waiting =
          .ctrl 5 0 :: h.flatMap fun q => q.1.instructions q.2) ∧
      ∃ waiting, waiting.length = n.client.udpControl.blockingCmds.length ∧
        (lines.flatten.map Prod.snd).filter (·.isConfig) ++ waiting = Node.options := by
  have plain : ∀ i ∈ h.flatMap fun q => q.1.instructions q.2, i.isConfig = false := by
    intro i member
    obtain ⟨q, _, hi⟩ := List.mem_flatMap.mp member
    exact instructions_not_config q.1 q.2 i hi
  have all : (h.flatMap fun q => q.1.instructions q.2).filter (!·.isConfig) =
      h.flatMap fun q => q.1.instructions q.2 :=
    List.filter_eq_self.mpr fun i hi => by rw [plain i hi]; rfl
  have none : (h.flatMap fun q => q.1.instructions q.2).filter (·.isConfig) = [] :=
    List.filter_eq_nil_iff.mpr fun i hi => by rw [plain i hi]; decide
  obtain ⟨lines, read, numbers, ⟨waiting, length, cmds⟩, ⟨waiting', length', options⟩⟩ :=
    told_of_accounts (run_accounted run) (List.rel_append startup_tells (history_tells run))
  refine ⟨lines, read, numbers, ⟨waiting, length, cmds.trans ?_⟩, ⟨waiting', length', options.trans ?_⟩⟩
  · rw [List.filter_append, all]
    rfl
  · rw [List.filter_append]
    exact congrArg (Node.options ++ ·) none

/-- A tick, the acknowledgement of the option that it sends, and another tick. -/
theorem run_told_tick : ∃ n : Node, ∃ lines,
    (n.client.udpControl.sent.map datagram).mapM readDatagram = some lines ∧
      lines.flatten.map Prod.fst = List.range 7 ∧
      (lines.flatten.map Prod.snd).filter (!·.isConfig) = [.ctrl 5 0, .ref false false,
        .pcmd false (.finite 0) (.finite 0) (.finite 0) (.finite 0), .ctrl 5 0, .ref false false,
        .pcmd false (.finite 0) (.finite 0) (.finite 0) (.finite 0)] := by
  let acked : Navdata := { droneState := { controlCommandAck := true } }
  let tick (n : Node) : Node := { n with client := n.client.sendCommands }
  let n₁ := tick (Node.start [])
  let n₂ := (n₁.received acked n₁.client.udpControl.acked).processed acked
  have first : Step (.asWritten fun _ => .nan) (Node.start []) .tick n₁ := ⟨trivial, rfl⟩
  have answer : Step (.asWritten fun _ => .nan) n₁ (.navdata acked ⟨.nan, .nan⟩) n₂ := ⟨trivial, rfl⟩
  have second : Step (.asWritten fun _ => .nan) n₂ .tick (tick n₂) := ⟨trivial, rfl⟩
  have run : NodeRun _ [] _ (tick n₂) := ((Run.single first).snoc answer).snoc second
  obtain ⟨lines, read, numbers, ⟨waiting, length, told⟩, _⟩ := run_told run
  have still : (JsNumber.finite 0).toFormat 8 23 = .finite 0 := JsNumber.rounded_zero
  rw [List.length_eq_zero_iff.mp length, List.append_nil] at told
  refine ⟨_, lines, read, numbers, told.trans ?_⟩
  rw [← still]
  rfl

section Program
variable {h : List (Client × ClientInput)} {c c' : Client} {e : ClientInput}

/-- What a command with clear arguments says. -/
def AtCommand.said (c : AtCommand) : Option Instruction := instruction? c.type (c.args.map AtArg.toText)

/-- What an input puts into the queue for the drone; what is repeated comes with the ticks. -/
def ClientInput.instructions (c : Client) : ClientInput → List Instruction
  | .request .resume => [.ctrl 5 0, .config "general:navdata_demo".toList "TRUE".toList]
  | .request (.calibrate device_num) => [.calib device_num]
  | .request (.config key value) => [.config key.toList value.toList]
  | .request (.ctrl controlMode otherMode) => [.ctrl controlMode otherMode]
  | .navdata data =>
      if data.droneState.controlCommandAck ∧ c.udpControl.blocked.state = .WAITING_FOR_ACK then
        [.ctrl 5 0]
      else []
  | .tick => .ref (decide (c.ref.fly = some true)) (decide (c.ref.emergency = some true)) ::
      .pcmd (decide (c.pcmd.entries ≠ [])) ((axis c.pcmd .right).toFormat 8 23)
        ((axis c.pcmd .back).toFormat 8 23) ((axis c.pcmd .up).toFormat 8 23)
        ((axis c.pcmd .clockwise).toFormat 8 23) ::
      c.repeaters.filterMap fun r => r.method.said
  | _ => []

end Program

end DroneParking
