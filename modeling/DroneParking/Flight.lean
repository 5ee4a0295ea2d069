import DroneParking.Refinement
import DroneParking.Wire

/-!
# No flight without an order

The takeoff bit goes out only between a handled `drone_takeoff` and the next
event that lands the drone.
-/
namespace DroneParking

open Library (Run Since)

/-- The `REF` flag that makes the drone take off and stay in the air. -/
def AtCommand.takeoffBit (c : AtCommand) : Bool :=
  match c.args with
  | .num flags :: _ => flags &&& AtCommandCreator.REF_FLAGS.takeoff != 0
  | _ => false

theorem ref_takeoffBit (r : Ref) :
    (AtCommandCreator.ref r).takeoffBit = true ↔ r.fly = some true := by
  obtain ⟨fly, emergency⟩ := r
  cases fly with
  | none => cases emergency with
    | none => decide
    | some b => cases b <;> decide
  | some a => cases emergency with
    | none => cases a <;> decide
    | some b => cases a <;> cases b <;> decide

def TakesOff : Node × Event → Prop
  | (_, .data _ chunk) => chunk.trim = Message.takeoff.text
  | _ => False

/-- A history entry that lands the drone: a landing command, the auto-land timer, or a
packet that reaches the searching listener at two metres or more. -/
def Lands : Node × Event → Prop
  | (_, .data _ chunk) => chunk.trim = Message.land.text ∨ chunk.trim = Message.carFound.text
  | (_, .timeout fn) => fn = .autoLand
  | (n, .navdata data _) => n.listening = true ∧ n.markerFound = false ∧
      data.magneto.isSome = true ∧ ∃ demo, data.demo = some demo ∧ demo.altitude.ge 2 = true
  | _ => False

/-- The same with every high packet counted, also one that comes before the listener is
registered. -/
def LandsUnheard : Node × Event → Prop
  | (n, .navdata data _) => n.markerFound = false ∧ data.magneto.isSome = true ∧
      ∃ demo, data.demo = some demo ∧ demo.altitude.ge 2 = true
  | q => Lands q

theorem order_takeoff {m : Message} : m.order = some .takeoff ↔ m = .takeoff := by
  cases m <;> simp [Message.order]

theorem order_land {m : Message} : m.order = some .land ↔ m = .land ∨ m = .carFound := by
  cases m <;> simp [Message.order]

theorem issued_takeoff (q : Node × Event) :
    Since (· = .takeoff) (· = .land) (issued q.1 q.2) ↔ TakesOff q := by
  obtain ⟨n, e⟩ := q
  constructor
  · intro since
    obtain ⟨_, member, rfl⟩ := since.occurs
    cases e with
    | data connection chunk =>
        obtain ⟨m, text, ordered⟩ := mem_issued_data.mp member
        rw [order_takeoff.mp ordered] at text
        exact text
    | navdata | timeout | tick | ackTimeout | ctrlInterval =>
        rcases issued_silent member (fun _ _ same => by cases same) with other | other <;> cases other
  · intro takesOff
    cases e with
    | data connection chunk =>
        have member : Order.takeoff ∈ issued n (.data connection chunk) :=
          mem_issued_data.mpr ⟨.takeoff, takesOff, rfl⟩
        exact Library.since_toList.mpr ⟨_, Option.mem_toList.mp member, rfl⟩
    | navdata | timeout | tick | ackTimeout | ctrlInterval => exact takesOff.elim

theorem issued_land (q : Node × Event) : (∃ o ∈ issued q.1 q.2, o = .land) ↔ Lands q := by
  obtain ⟨n, e⟩ := q
  rw [exists_eq_right]
  cases e with
  | data connection chunk =>
      simp only [Lands]
      rw [mem_issued_data]
      constructor
      · rintro ⟨m, text, isLand⟩
        rcases order_land.mp isLand with rfl | rfl
        · exact .inl text
        · exact .inr text
      · rintro (text | text)
        · exact ⟨.land, text, rfl⟩
        · exact ⟨.carFound, text, rfl⟩
  | navdata data position =>
      simp only [issued, Lands]
      cases n.listening <;> cases n.markerFound <;> simp [land_mem_reaction]
  | timeout fn => cases fn <;> simp [issued, Lands]
  | tick | ackTimeout | ctrlInterval => simp [issued, Lands]

/-- In every reachable state the drone is told to fly exactly if the takeoff command was
handled and nothing has landed the drone since. -/
theorem fly_iff {rt : Runtime} {coordinates : JsString} {h : List (Node × Event)} {n : Node}
    (run : NodeRun rt coordinates h n) :
    n.client.ref.fly = some true ↔ Since TakesOff Lands h := by
  rw [(run_refines run).1.fly, Pilot.flying_iff]
  exact Library.since_flatMap (fun q _ => issued_takeoff q) fun q _ => issued_land q

/-- Whatever event follows a run, every `REF` command it sends with the takeoff bit was
preceded by a handled takeoff command and by no landing event after it. -/
theorem takeoff_bit_ordered (rt : Runtime) (coordinates : JsString) {h : List (Node × Event)}
    {n n' : Node} {e : Event} (run : NodeRun rt coordinates h n) (step : Step rt n e n') :
    ∃ sent, n'.client.udpControl.sent = n.client.udpControl.sent ++ sent ∧
      ∀ datagram ∈ sent, ∀ command ∈ datagram, command.1.type = .REF →
        command.1.takeoffBit = true → Since TakesOff Lands h := by
  have sound := run_sound run
  by_cases isTick : e = .tick
  · subst isTick
    obtain ⟨_, done⟩ := step
    cases done
    obtain ⟨sent, grown, _, origin⟩ := Client.sendCommands_spec sound
    refine ⟨sent, grown, ?_⟩
    intro datagram hd command hc isRef bit
    rw [origin datagram hd command hc isRef, ref_takeoffBit] at bit
    exact (fly_iff run).mp bit
  · refine ⟨[], ?_, by simp⟩
    rw [(step_sound sound step).2 isTick, List.append_nil]

theorem takeoff_then_tick :
    Since TakesOff Lands [(Node.start [], .data 0 (println .takeoff .lf))] := by
  have run : NodeRun (.asWritten fun _ => .nan) [] [(Node.start [], .data 0 (println .takeoff .lf))]
      ((Node.start []).execute .takeoff) :=
    Run.single ⟨trivial, dataHandler_println .takeoff .lf (Node.start [])⟩
  obtain ⟨sent, grown, ordered⟩ :=
    takeoff_bit_ordered (.asWritten fun _ => .nan) [] run (e := .tick) ⟨trivial, rfl⟩
  have whole : sent = ((Node.start []).execute .takeoff).client.sendCommands.udpControl.sent :=
    grown.symm
  apply ordered _ (by rw [whole]; exact List.mem_cons_self) (AtCommandCreator.ref ⟨some true, none⟩, 1)
  · exact List.mem_cons_of_mem _ List.mem_cons_self
  · rfl
  · decide

/-- Before the timer at 2600 ms nobody hears the packets: a takeoff command, a packet from a
height of three metres, and the next tick still tells the drone to fly. -/
theorem unheard_packet_flies : ¬ ∀ (rt : Runtime) (coordinates : JsString)
    {h : List (Node × Event)} {n n' : Node} {e : Event}, NodeRun rt coordinates h n →
      Step rt n e n' →
      ∃ sent, n'.client.udpControl.sent = n.client.udpControl.sent ++ sent ∧
        ∀ datagram ∈ sent, ∀ command ∈ datagram, command.1.type = .REF →
          command.1.takeoffBit = true → Since TakesOff LandsUnheard h := by
  intro always
  let high : Navdata := ⟨{}, some ⟨some .CTRL_FLYING, 100, .finite 3⟩, some ⟨.finite 0⟩⟩
  let n₁ := (Node.start []).execute .takeoff
  let n₂ := (n₁.received high n₁.client.udpControl).processed high
  have takeoff : Step (.asWritten fun _ => .nan) (Node.start [])
      (.data 0 (println .takeoff .lf)) n₁ := ⟨trivial, dataHandler_println .takeoff .lf (Node.start [])⟩
  have packet : Step (.asWritten fun _ => .nan) n₁ (.navdata high ⟨.nan, .nan⟩) n₂ := ⟨trivial, rfl⟩
  have run : NodeRun _ [] _ n₂ := (Run.single takeoff).snoc packet
  obtain ⟨sent, grown, ordered⟩ := always _ _ run (e := .tick) ⟨trivial, rfl⟩
  have whole : sent = n₂.client.sendCommands.udpControl.sent := grown.symm
  have since := ordered _ (by rw [whole]; exact List.mem_cons_self)
    (AtCommandCreator.ref ⟨some true, some false⟩, 1)
    (List.mem_cons_of_mem _ List.mem_cons_self) rfl (by decide)
  rcases Library.since_snoc.mp since with takesOff | ⟨_, quiet⟩
  · exact takesOff
  · exact quiet ⟨rfl, rfl, _, rfl, rfl⟩

end DroneParking
