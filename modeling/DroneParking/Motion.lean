import Mathlib.Data.List.Permutation
import DroneParking.Refinement
import DroneParking.Wire

/-!
# The motion state is the last motion command, whole

`_pcmd` holds both keys of the last diagonal, or nothing once the drone was
halted; so does the `PCMD` command built from it.
-/
namespace DroneParking

open Library (Run Since)

def Diagonal.message : Diagonal → Message
  | .upleft => .upleft
  | .upright => .upright
  | .downleft => .downleft
  | .downright => .downright

def SteersTo (d : Diagonal) : Node × Event → Prop
  | (_, .data _ chunk) => chunk.trim = d.message.text
  | _ => False

def Steers (q : Node × Event) : Prop := ∃ d, SteersTo d q

/-- A history entry that handles `drone_center` or `drone_stop`, or a packet during which
the listener calls `client.stop()`. -/
def Halts (rt : Runtime) : Node × Event → Prop
  | (_, .data _ chunk) => chunk.trim = Message.center.text ∨ chunk.trim = Message.stop.text
  | (n, .navdata data position) => ∃ n', Step rt n (.navdata data position) n' ∧
      ClientCall.stop ∈ n'.calls.drop n.calls.length
  | _ => False

theorem order_steer {m : Message} {d : Diagonal} :
    m.order = some (.steer d) ↔ m = d.message := by
  cases m <;> cases d <;> simp [Message.order, Diagonal.message]

theorem order_halt {m : Message} : m.order = some .halt ↔ m = .center ∨ m = .stop := by
  cases m <;> simp [Message.order]

theorem steer_mem_issued {n : Node} {e : Event} {d : Diagonal} :
    Order.steer d ∈ issued n e ↔ SteersTo d (n, e) := by
  cases e with
  | data connection chunk =>
      rw [mem_issued_data]
      constructor
      · rintro ⟨m, text, ordered⟩
        rw [order_steer.mp ordered] at text
        exact text
      · intro text
        exact ⟨d.message, text, order_steer.mpr rfl⟩
  | navdata | timeout | tick | ackTimeout | ctrlInterval =>
      refine ⟨fun member => ?_, False.elim⟩
      rcases issued_silent member (fun _ _ same => by cases same) with other | other <;> cases other

/-- In the history of a run, the packets that halt are those that issue the order. -/
theorem halt_mem_issued {rt : Runtime} {coordinates : JsString} {h : List (Node × Event)} {n m : Node}
    {e : Event} (run : NodeRun rt coordinates h n) (member : (m, e) ∈ h) :
    Order.halt ∈ issued m e ↔ Halts rt (m, e) := by
  cases e with
  | data connection chunk =>
      rw [mem_issued_data]
      constructor
      · rintro ⟨w, text, ordered⟩
        rcases order_halt.mp ordered with rfl | rfl
        · exact .inl text
        · exact .inr text
      · rintro (text | text)
        · exact ⟨.center, text, rfl⟩
        · exact ⟨.stop, text, rfl⟩
  | navdata data position =>
      obtain ⟨h₁, m', prior, step⟩ := run.entry member
      have logged (k : Node) (step : Step rt m (.navdata data position) k) :
          k.calls.drop m.calls.length = (issued m (.navdata data position)).flatMap Order.calls :=
        step_calls (run_sound prior) step
      constructor
      · intro ordered
        refine ⟨m', step, ?_⟩
        rw [logged m' step]
        exact stop_mem_calls.mpr ordered
      · rintro ⟨k, handled, stops⟩
        rw [logged k handled] at stops
        exact stop_mem_calls.mp stops
  | timeout fn => cases fn <;> simp [issued, Halts]
  | tick | ackTimeout | ctrlInterval => simp [issued, Halts]

/-- No event both steers and does something else. -/
theorem since_steer {n : Node} {e : Event} {p q : Order → Prop}
    (hp : ∀ o, p o → ∃ d, o = .steer d) :
    Since p q (issued n e) ↔ ∃ d, p (.steer d) ∧ SteersTo d (n, e) := by
  constructor
  · intro since
    obtain ⟨o, member, ho⟩ := since.occurs
    obtain ⟨d, rfl⟩ := hp o ho
    exact ⟨d, ho, steer_mem_issued.mp member⟩
  · rintro ⟨d, ho, steers⟩
    have member := steer_mem_issued.mpr steers
    cases e with
    | data connection chunk =>
        exact Library.since_toList.mpr ⟨_, Option.mem_toList.mp member, ho⟩
    | navdata | timeout | tick | ackTimeout | ctrlInterval => exact steers.elim

section Run
variable {rt : Runtime} {coordinates : JsString} {h : List (Node × Event)} {n : Node}

theorem on_course_iff (run : NodeRun rt coordinates h n) :
    (Pilot.follow {} (orders h)).course ≠ none ↔ Since Steers (Halts rt) h := by
  rw [Pilot.on_course_iff]
  apply Library.since_flatMap
  · rintro ⟨m, e⟩ _
    rw [since_steer fun o steers => steers]
    simp [Steers]
  · rintro ⟨m, e⟩ member
    rw [exists_eq_right]
    exact halt_mem_issued run member

theorem course_iff (run : NodeRun rt coordinates h n) (d : Diagonal) :
    (Pilot.follow {} (orders h)).course = some d ↔
      Since (SteersTo d) (fun q => Steers q ∨ Halts rt q) h := by
  rw [Pilot.course_iff]
  apply Library.since_flatMap
  · rintro ⟨m, e⟩ _
    rw [since_steer fun o steers => ⟨d, steers⟩]
    simp
  · rintro ⟨m, e⟩ member
    rw [← halt_mem_issued run member]
    constructor
    · rintro ⟨o, issued, turns⟩
      cases o with
      | halt => exact .inr issued
      | steer d => exact .inl ⟨d, steer_mem_issued.mp issued⟩
      | takeoff | land => cases turns
    · rintro (⟨d, steers⟩ | issued)
      · exact ⟨.steer d, steer_mem_issued.mpr steers, trivial⟩
      · exact ⟨.halt, issued, trivial⟩

end Run

def Diagonal.properties (d : Diagonal) : List (PcmdKey × JsNumber) :=
  [(d.vertical, speed), (d.horizontal, speed)]

theorem vertical_ne_horizontal (d : Diagonal) : d.vertical ≠ d.horizontal := by
  cases d <;> decide

theorem Shows.halted {c : Client} {p : Pilot} (h : Shows c p) (halted : p.course = none) :
    c.pcmd.entries = [] := by
  apply Library.Record.entries_eq_nil
  intro k
  rw [h.pcmd, Pilot.motion, halted]
  rfl

theorem Shows.steered {c : Client} {p : Pilot} (h : Shows c p) {d : Diagonal}
    (course : p.course = some d) : c.pcmd.entries.Perm d.properties := by
  have whole : (⟨d.properties, by simp [Diagonal.properties, vertical_ne_horizontal]⟩ :
      Library.Record PcmdKey JsNumber).entries = d.properties := rfl
  rw [← whole]
  apply Library.Record.entries_perm
  intro k
  rw [h.pcmd, Pilot.motion, course]
  cases d <;> cases k <;> rfl

def Diagonal.leftRight (d : Diagonal) : JsNumber :=
  if d.horizontal = .left then speed.neg else speed

def Diagonal.frontBack (d : Diagonal) : JsNumber :=
  if d.vertical = .front then speed.neg else speed

/-- The order in which the two keys were set does not show in the command. -/
theorem pcmd_steered {r : Library.Record PcmdKey JsNumber} {d : Diagonal}
    (h : r.entries.Perm d.properties) : (AtCommandCreator.pcmd r).args =
      [.num 1, .floatString d.leftRight, .floatString d.frontBack, .num 0, .num 0] := by
  unfold AtCommandCreator.pcmd
  rcases List.perm_pair.mp h with same | swapped
  · rw [same]
    cases d <;> rfl
  · rw [swapped]
    cases d <;> rfl

/-- At every moment `_pcmd` and the `PCMD` command built from it are those of the last
diagonal message, or empty if there was none since the drone was last halted. -/
theorem motion_whole (rt : Runtime) (coordinates : JsString) {h : List (Node × Event)} {n : Node}
    (run : NodeRun rt coordinates h n) :
    (n.client.pcmd.entries ≠ [] ↔ Since Steers (Halts rt) h) ∧
    ((n.client.pcmd.entries = [] ∧
        (AtCommandCreator.pcmd n.client.pcmd).args = [.num 0, .num 0, .num 0, .num 0, .num 0]) ∨
      ∃ d, Since (SteersTo d) (fun q => Steers q ∨ Halts rt q) h ∧
        n.client.pcmd.entries.Perm [(d.vertical, speed), (d.horizontal, speed)] ∧
        (AtCommandCreator.pcmd n.client.pcmd).args =
          [.num 1, .floatString d.leftRight, .floatString d.frontBack, .num 0, .num 0]) := by
  have shown := (run_refines run).1
  rw [← on_course_iff run]
  cases course : (Pilot.follow {} (orders h)).course with
  | none =>
      have empty := shown.halted course
      refine ⟨by simp [empty], .inl ⟨empty, ?_⟩⟩
      rw [AtCommandCreator.pcmd, empty]
      rfl
  | some d =>
      have steered := shown.steered course
      constructor
      · constructor
        · intro _ absurd
          cases absurd
        · intro _ empty
          rw [empty] at steered
          exact absurd steered.length_eq (by simp [Diagonal.properties])
      · exact .inr ⟨d, (course_iff run d).mp course, steered, pcmd_steered steered⟩

/-- A diagonal, a stop and another diagonal: what is left is the second one, whole. -/
theorem downright_left : ∃ h n, NodeRun (.asWritten fun _ => .nan) [] h n ∧
    h.map Prod.snd = [.data 0 (println .upleft .lf), .data 0 (println .stop .lf),
      .data 0 (println .downright .lf)] ∧
    Since Steers (Halts (.asWritten fun _ => .nan)) h ∧
    (AtCommandCreator.pcmd n.client.pcmd).args =
      [.num 1, .floatString speed, .floatString speed, .num 0, .num 0] := by
  have heard (n : Node) (m : Message) :
      Step (.asWritten fun _ => .nan) n (.data 0 (println m .lf)) (n.execute m) :=
    ⟨trivial, dataHandler_println m .lf n⟩
  let n₁ := (Node.start []).execute .upleft
  let n₂ := n₁.execute .stop
  have run := ((Run.single (heard (Node.start []) .upleft)).snoc (heard n₁ .stop)).snoc
    (heard n₂ .downright)
  obtain ⟨moves, whole⟩ := motion_whole (.asWritten fun _ => .nan) [] run
  have moving : (n₂.execute .downright).client.pcmd.entries ≠ [] := by decide
  refine ⟨_, _, run, rfl, moves.mp moving, ?_⟩
  rcases whole with ⟨still, _⟩ | ⟨d, since, _, args⟩
  · exact absurd still moving
  · have steered : (println .downright .lf).trim = d.message.text := by
      rcases Library.since_snoc.mp since with steers | ⟨_, other⟩
      · exact steers
      · exact absurd (.inl ⟨.downright, println_trim .downright .lf⟩) other
    rw [println_trim] at steered
    have same : Message.downright = d.message := Message.text_injective steered
    rw [args]
    cases d <;> first | rfl | cases same

end DroneParking
