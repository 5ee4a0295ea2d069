import DroneParking.Checksum
import DroneParking.Telemetry

/-!
# From datagrams to the node

`UdpNavdataStream.js` asks the drone for packets, parses what comes and drops what
comes too late. The client handles what is left, of which it uses a few fields.
-/
namespace DroneParking

open Library (Bytes Document Record Run little signed)

/-- The fields of a parsed packet that the node reads. -/
def flagOf (flags : List (String × ℕ)) (flag : String) : Bool := flags.lookup flag == some 1

def demoOf (t : Document Reading) : Option Demo :=
  match t.leafAt ["controlState"], t.leafAt ["batteryPercentage"], t.leafAt ["altitude"] with
  | some (.controlState state), some (.number (.finite battery)), some (.number altitude) =>
      some ⟨state, battery.num.toNat, altitude⟩
  | _, _, _ => none

def magnetoOf (t : Document Reading) : Option Magneto :=
  match t.leafAt ["heading", "fusionUnwrapped"] with
  | some (.number heading) => some ⟨heading⟩
  | _ => none

def ParsedNavdata.option (navdata : ParsedNavdata) (name : OptionName) : Option (Document Reading) :=
  match navdata.options.get (some name) with
  | some (.parsed t) => some t
  | _ => none

def ParsedNavdata.view (navdata : ParsedNavdata) : Navdata where
  droneState := {
    emergencyLanding := flagOf navdata.droneState "emergencyLanding"
    controlCommandAck := flagOf navdata.droneState "controlCommandAck"
    lowBattery := flagOf navdata.droneState "lowBattery" }
  demo := (navdata.option .demo).bind demoOf
  magneto := (navdata.option .magneto).bind magnetoOf

/-- The number in `width` bytes from `start` on. -/
def wordAt (l : Bytes) (start width : ℕ) : ℕ := little ((l.drop start).take width)

section View

theorem flagOf_eq {flags : List (String × ℕ)} {name : String} {value i : ℕ}
    (h : flags.lookup name = some (if value &&& 1 <<< i ≠ 0 then 1 else 0)) :
    flagOf flags name = value.testBit i := by
  rw [flagOf, h]
  simp only [and_shift_ne_zero]
  cases value.testBit i <;> rfl

/-- The flags that the node reads are three bits of the state. -/
theorem view_droneState (navdata : ParsedNavdata) (value : ℕ)
    (h : navdata.droneState = NavdataReader.mask DRONE_STATES value) :
    navdata.view.droneState = ⟨value.testBit 31, value.testBit 6, value.testBit 15⟩ := by
  unfold ParsedNavdata.view
  rw [h]
  simp only [DroneState.mk.injEq]
  exact ⟨flagOf_eq rfl, flagOf_eq rfl, flagOf_eq rfl⟩

theorem demoOf_words (payload : Bytes) :
    demoOf (OptionParser.demo.result (OptionParser.demo.words payload).readings) =
      some ⟨CONTROL_STATES (wordAt payload 2 2), wordAt payload 4 4,
        (JsNumber.finite (signed (256 ^ 4) (wordAt payload 20 4))).div 1000⟩ := by
  have state : (OptionParser.demo.result (OptionParser.demo.words payload).readings).leafAt
      ["controlState"] = some (.controlState (CONTROL_STATES (wordAt payload 2 2))) := rfl
  have battery : (OptionParser.demo.result (OptionParser.demo.words payload).readings).leafAt
      ["batteryPercentage"] = some (.number (.finite (wordAt payload 4 4 : ℕ))) := by
    have at4 : payload.drop 4 = (payload.drop 2).drop 2 := by rw [List.drop_drop]
    rw [wordAt, at4]
    rfl
  have altitude : (OptionParser.demo.result (OptionParser.demo.words payload).readings).leafAt
      ["altitude"] = some (.number ((JsNumber.finite (signed (256 ^ 4) (wordAt payload 20 4))).div 1000)) := by
    have at20 : payload.drop 20 =
        (((((payload.drop 2).drop 2).drop 4).drop 4).drop 4).drop 4 := by simp only [List.drop_drop]
    rw [wordAt, at20]
    rfl
  unfold demoOf
  rw [state, battery, altitude]
  simp

theorem magnetoOf_words (payload : Bytes) :
    magnetoOf (OptionParser.magneto.result (OptionParser.magneto.words payload).readings) =
      some ⟨.ofBits 8 23 (wordAt payload 50 4)⟩ := by
  have heading : (OptionParser.magneto.result (OptionParser.magneto.words payload).readings).leafAt
      ["heading", "fusionUnwrapped"] = some (.number (.ofBits 8 23 (wordAt payload 50 4))) := by
    have at50 : payload.drop 50 = (((((((payload.drop 2).drop 2).drop 2).drop 12).drop 12).drop
        12).drop 4).drop 4 := by simp only [List.drop_drop]
    rw [wordAt, at50]
    rfl
  unfold magnetoOf
  rw [heading]

theorem option_named (p : Packet) (name : OptionName) (id : ℕ) {parser : OptionParser}
    (known : OPTION_PARSERS name = some parser) (here : OPTION_IDS id = some name) :
    p.navdata.option name = (p.options.filter fun o => o.id = id).getLast?.map fun o =>
      parser.result (parser.words o.payload).readings := by
  have same : named p.options (some name) = p.options.filter fun o => o.id = id := by
    apply List.filter_congr
    intro o _
    rw [decide_eq_decide]
    exact ⟨fun h => OPTION_IDS_injective h here, fun h => h ▸ here⟩
  unfold ParsedNavdata.option
  rw [Packet.navdata, foldl_add_get, Packet.head, Record.get_empty, Option.or_none, same]
  cases last : (p.options.filter fun o => o.id = id).getLast? with
  | none => rfl
  | some o =>
      have member := List.mem_of_getLast? last
      have hid : o.id = id := by simpa using (List.mem_filter.mp member).2
      simp only [Option.map_some, PacketOption.value, hid, here, Option.bind_some, known]

/-- What the node sees of an accepted datagram: bits 31, 6 and 15 of the state, and from the last
options of their kinds the control state, the battery level, the altitude and the heading, each at
its place in the payload. -/
theorem view_packet (p : Packet) : p.navdata.view = {
    droneState := ⟨p.state.toNat.testBit 31, p.state.toNat.testBit 6, p.state.toNat.testBit 15⟩
    demo := (p.options.filter fun o => o.id = 0).getLast?.map fun o =>
      ⟨CONTROL_STATES (wordAt o.payload 2 2), wordAt o.payload 4 4,
        (JsNumber.finite (signed (256 ^ 4) (wordAt o.payload 20 4))).div 1000⟩
    magneto := (p.options.filter fun o => o.id = 22).getLast?.map fun o =>
      ⟨.ofBits 8 23 (wordAt o.payload 50 4)⟩ } := by
  have flags := view_droneState p.navdata _ (foldl_add_header p.options _).2.1
  have demo : p.navdata.view.demo = _ := congrArg (Option.bind · demoOf)
    (option_named p .demo 0 rfl rfl)
  have magneto : p.navdata.view.magneto = _ := congrArg (Option.bind · magnetoOf)
    (option_named p .magneto 22 rfl rfl)
  have eta : p.navdata.view = ⟨p.navdata.view.droneState, p.navdata.view.demo, p.navdata.view.magneto⟩ := rfl
  rw [eta, flags, demo, magneto]
  congr 1
  · cases (p.options.filter fun o => o.id = 0).getLast? with
    | none => rfl
    | some o => exact demoOf_words o.payload
  · cases (p.options.filter fun o => o.id = 22).getLast? with
    | none => rfl
    | some o => exact magnetoOf_words o.payload

end View

structure UdpNavdataStream where
  initialized : Bool := false
  timer : Bool := false
  sequenceNumber : ℕ := 0
  deriving DecidableEq, Repr

/-- What the stream sends to the drone or hands to its listeners. -/
inductive StreamOutput where
  | request
  | data (navdata : ParsedNavdata)
  | error (e : NavdataError)
  deriving DecidableEq, Repr

namespace UdpNavdataStream

/-- The timer is set anew, whether or not it was set. -/
def requestNavdata (s : UdpNavdataStream) : UdpNavdataStream × List StreamOutput :=
  ({ s with timer := true }, [.request])

def resume (s : UdpNavdataStream) : UdpNavdataStream × List StreamOutput :=
  requestNavdata { s with initialized := true }

def handleMessage (errorListeners : ℕ) (buffer : Bytes) (s : UdpNavdataStream) :
    UdpNavdataStream × List StreamOutput :=
  match parseNavdata buffer with
  | .error e => (s, if 0 < errorListeners then [.error e] else [])
  | .ok none => (s, [])
  | .ok (some navdata) =>
      -- ignore out of order messages
      if s.sequenceNumber < navdata.sequenceNumber then
        ({ s with sequenceNumber := navdata.sequenceNumber, timer := true }, [.data navdata])
      else ({ s with timer := true }, [])

end UdpNavdataStream

inductive StreamEvent where
  | resume
  | message (buffer : Bytes)
  | timeout
  deriving DecidableEq, Repr

/-- Messages come once the socket is bound, and a timeout when the timer is set. -/
def StreamEvent.CanOccur (s : UdpNavdataStream) : StreamEvent → Prop
  | .resume => True
  | .message _ => s.initialized = true
  | .timeout => s.timer = true

def UdpNavdataStream.handle (errorListeners : ℕ) (s : UdpNavdataStream) :
    StreamEvent → UdpNavdataStream × List StreamOutput
  | .resume => s.resume
  | .message buffer => s.handleMessage errorListeners buffer
  | .timeout => s.requestNavdata

def StreamStep (errorListeners : ℕ) (s : UdpNavdataStream) (e : StreamEvent) (s' : UdpNavdataStream) :
    Prop :=
  e.CanOccur s ∧ s' = (s.handle errorListeners e).1

abbrev StreamRun (errorListeners : ℕ) := Run (StreamStep errorListeners) {}

/-- The data of a datagram that is parsed. -/
def parsed (buffer : Bytes) : Option ParsedNavdata :=
  match parseNavdata buffer with
  | .ok navdata => navdata
  | .error _ => none

theorem parsed_bytes {p : Packet} (right : p.checksum = p.expectedChecksum) :
    parsed p.bytes = some p.navdata := by
  unfold parsed
  rw [parseNavdata_bytes, if_pos right]

def StreamEvent.parsed : StreamEvent → Option ParsedNavdata
  | .message buffer => DroneParking.parsed buffer
  | .resume | .timeout => none

section Stream
variable {errorListeners : ℕ} {s s' : UdpNavdataStream} {e : StreamEvent}
  {h : List (UdpNavdataStream × StreamEvent)}

/-- All the data parsed so far, delivered or not. -/
def parsedIn (h : List (UdpNavdataStream × StreamEvent)) : List ParsedNavdata :=
  h.filterMap fun q => q.2.parsed

def StreamOutput.data? : StreamOutput → Option ParsedNavdata
  | .data navdata => some navdata
  | .request | .error _ => none

def deliveredBy (errorListeners : ℕ) (q : UdpNavdataStream × StreamEvent) : List ParsedNavdata :=
  (q.1.handle errorListeners q.2).2.filterMap StreamOutput.data?

def deliveredIn (errorListeners : ℕ) (h : List (UdpNavdataStream × StreamEvent)) : List ParsedNavdata :=
  h.flatMap (deliveredBy errorListeners)

/-- The highest number among packets, `0` for none. -/
def latest (l : List ParsedNavdata) : ℕ := (l.map (·.sequenceNumber)).foldl max 0

theorem latest_snoc (l : List ParsedNavdata) (navdata : ParsedNavdata) :
    latest (l ++ [navdata]) = max (latest l) navdata.sequenceNumber := by
  rw [latest, List.map_append, List.foldl_append]
  rfl

theorem latest_lt {l : List ParsedNavdata} {n : ℕ} :
    latest l < n ↔ 0 < n ∧ ∀ navdata ∈ l, navdata.sequenceNumber < n := by
  induction l using List.reverseRecOn with
  | nil => simp [latest]
  | append_singleton l navdata ih =>
      rw [latest_snoc, max_lt_iff, ih, and_assoc]
      simp only [List.mem_append, List.mem_singleton, or_imp, forall_and, forall_eq]

theorem parsedIn_snoc (h : List (UdpNavdataStream × StreamEvent)) (q : UdpNavdataStream × StreamEvent) :
    parsedIn (h ++ [q]) = parsedIn h ++ q.2.parsed.toList := by
  rw [parsedIn, List.filterMap_append]
  cases known : q.2.parsed <;> simp [parsedIn, known]

theorem deliveredIn_snoc (h : List (UdpNavdataStream × StreamEvent)) (q : UdpNavdataStream × StreamEvent) :
    deliveredIn errorListeners (h ++ [q]) =
      deliveredIn errorListeners h ++ deliveredBy errorListeners q := by
  rw [deliveredIn, List.flatMap_append, List.flatMap_singleton]
  rfl

/-- What a datagram does, by whether it is parsed. -/
theorem handleMessage_cases (errorListeners : ℕ) (s : UdpNavdataStream) (buffer : Bytes) :
    (parsed buffer = none ∧ (s.handleMessage errorListeners buffer).1 = s ∧
      (s.handleMessage errorListeners buffer).2.filterMap StreamOutput.data? = []) ∨
    ∃ navdata, parsed buffer = some navdata ∧ s.handleMessage errorListeners buffer =
      if s.sequenceNumber < navdata.sequenceNumber then
        ({ s with sequenceNumber := navdata.sequenceNumber, timer := true }, [.data navdata])
      else ({ s with timer := true }, []) := by
  unfold parsed UdpNavdataStream.handleMessage
  cases parseNavdata buffer with
  | error e =>
      refine .inl ⟨rfl, rfl, ?_⟩
      simp only
      split <;> rfl
  | ok navdata =>
      cases navdata with
      | none => exact .inl ⟨rfl, rfl, rfl⟩
      | some navdata => exact .inr ⟨navdata, rfl, rfl⟩

/-- An event delivers what it parses if that is newer than all before. -/
theorem deliveredBy_eq (s : UdpNavdataStream) (e : StreamEvent) : deliveredBy errorListeners (s, e) =
    (e.parsed.filter fun navdata => s.sequenceNumber < navdata.sequenceNumber).toList := by
  cases e with
  | resume | timeout => rfl
  | message buffer =>
      change (s.handleMessage errorListeners buffer).2.filterMap StreamOutput.data? =
        ((parsed buffer).filter _).toList
      rcases handleMessage_cases errorListeners s buffer with ⟨failed, _, nothing⟩ | ⟨navdata, known, done⟩
      · rw [failed, nothing]
        rfl
      · rw [known, done]
        by_cases fresh : s.sequenceNumber < navdata.sequenceNumber
        · rw [if_pos fresh, Option.filter_some, if_pos (decide_eq_true fresh)]
          rfl
        · rw [if_neg fresh, Option.filter_some, if_neg (by simpa using fresh)]
          rfl

theorem handle_number (s : UdpNavdataStream) (e : StreamEvent) :
    (s.handle errorListeners e).1.sequenceNumber =
      max s.sequenceNumber ((e.parsed.map (·.sequenceNumber)).getD 0) := by
  cases e with
  | resume | timeout => exact (Nat.max_zero _).symm
  | message buffer =>
      change (s.handleMessage errorListeners buffer).1.sequenceNumber =
        max s.sequenceNumber (((parsed buffer).map (·.sequenceNumber)).getD 0)
      rcases handleMessage_cases errorListeners s buffer with ⟨failed, same, _⟩ | ⟨navdata, known, done⟩
      · rw [failed, same]
        exact (Nat.max_zero _).symm
      · rw [known, done, Option.map_some, Option.getD_some]
        split <;> simp only <;> omega

/-- Once it has been started, the stream always waits for the next timeout. -/
theorem step_timer (armed : s.timer = s.initialized) (step : StreamStep errorListeners s e s') :
    s'.timer = s'.initialized := by
  obtain ⟨canOccur, rfl⟩ := step
  cases e with
  | resume => rfl
  | timeout =>
      have started : s.initialized = true := armed.symm.trans canOccur
      exact started.symm
  | message buffer =>
      have started : s.initialized = true := canOccur
      change (s.handleMessage errorListeners buffer).1.timer =
        (s.handleMessage errorListeners buffer).1.initialized
      rcases handleMessage_cases errorListeners s buffer with ⟨_, same, _⟩ | ⟨navdata, _, done⟩
      · rw [same, armed]
      · rw [done]
        split <;> exact started.symm

theorem run_number (run : StreamRun errorListeners h s) : s.sequenceNumber = latest (parsedIn h) := by
  induction run with
  | nil => rfl
  | @snoc h s e s' prior step ih =>
      rw [step.2, handle_number, ih, parsedIn_snoc]
      cases e.parsed with
      | none => simp
      | some navdata => rw [Option.toList_some, latest_snoc]; rfl

theorem mem_deliveredBy {q : UdpNavdataStream × StreamEvent} (run : StreamRun errorListeners h q.1)
    (navdata : ParsedNavdata) : navdata ∈ deliveredBy errorListeners q ↔ q.2.parsed = some navdata ∧
      0 < navdata.sequenceNumber ∧
      ∀ earlier ∈ parsedIn h, earlier.sequenceNumber < navdata.sequenceNumber := by
  obtain ⟨s, e⟩ := q
  rw [deliveredBy_eq, ← latest_lt, ← run_number run]
  simp [Option.filter_eq_some_iff]

theorem delivered_parsed (run : StreamRun errorListeners h s) :
    ∀ navdata ∈ deliveredIn errorListeners h, navdata ∈ parsedIn h := by
  induction run with
  | nil => exact fun _ member => member
  | @snoc h s e s' prior step ih =>
      intro navdata member
      rw [deliveredIn_snoc, List.mem_append] at member
      rw [parsedIn_snoc, List.mem_append]
      rcases member with old | new
      · exact .inl (ih navdata old)
      · exact .inr (by simp [((mem_deliveredBy prior navdata).mp new).1])

/-- Whatever datagrams arrive, and however often packets are asked for in between, the data that
are delivered have rising numbers: a datagram is delivered exactly if it is parsed and its number
exceeds `0` and all that were parsed before it. A started stream never stops asking. -/
theorem delivered_in_order (run : StreamRun errorListeners h s) :
    (deliveredIn errorListeners h).Pairwise (fun a b => a.sequenceNumber < b.sequenceNumber) ∧
    (∀ h₁ q h₂ navdata, h = h₁ ++ q :: h₂ → (navdata ∈ deliveredBy errorListeners q ↔
      q.2.parsed = some navdata ∧ 0 < navdata.sequenceNumber ∧
        ∀ earlier ∈ parsedIn h₁, earlier.sequenceNumber < navdata.sequenceNumber)) ∧
    s.timer = s.initialized := by
  refine ⟨?_, ?_, ?_⟩
  · induction run with
    | nil => exact List.Pairwise.nil
    | @snoc h s e s' prior step ih =>
        rw [deliveredIn_snoc, List.pairwise_append]
        refine ⟨ih, ?_, ?_⟩
        · rw [deliveredBy_eq]
          cases e.parsed.filter _ with
          | none => exact List.Pairwise.nil
          | some navdata => exact List.pairwise_singleton _ _
        · intro a old b new
          exact ((mem_deliveredBy prior b).mp new).2.2 a (delivered_parsed prior a old)
  · rintro h₁ q h₂ navdata rfl
    exact mem_deliveredBy (run.before rfl) navdata
  · exact run.preserves (I := fun s => s.timer = s.initialized) rfl
      fun _ _ _ armed step => step_timer armed step

theorem handleMessage_parsed {buffer : Bytes} {navdata : ParsedNavdata}
    (known : parsed buffer = some navdata) : s.handleMessage errorListeners buffer =
      if s.sequenceNumber < navdata.sequenceNumber then
        ({ s with sequenceNumber := navdata.sequenceNumber, timer := true }, [.data navdata])
      else ({ s with timer := true }, []) := by
  rcases handleMessage_cases errorListeners s buffer with ⟨failed, _⟩ | ⟨navdata', same, done⟩
  · cases known.symm.trans failed
  · cases known.symm.trans same
    exact done

/-- Number 1 comes after number 2, and number 3 after both. -/
theorem delivered_in_order_late : ∃ (early late next : Packet) (s₁ s₂ s₃ : UdpNavdataStream),
    early.navdata ∈ deliveredBy 0 (s₁, .message early.bytes) ∧
      late.navdata ∉ deliveredBy 0 (s₂, .message late.bytes) ∧
      next.navdata ∈ deliveredBy 0 (s₃, .message next.bytes) ∧
      (deliveredIn 0 [({}, .resume), (s₁, .message early.bytes), (s₂, .message late.bytes),
        (s₃, .message next.bytes)]).Pairwise fun a b => a.sequenceNumber < b.sequenceNumber := by
  have numbered (number : UInt32) : ∃ p : Packet, parsed p.bytes = some p.navdata ∧
      p.navdata.sequenceNumber = number.toNat := by
    let p : Packet := ⟨NAVDATA_HEADER1, 0, number, 0, [], 8, [], .inl rfl, le_rfl, by decide⟩
    exact ⟨p.sealed, parsed_bytes (Packet.sealed_right (by simp [p, Packet.front, Packet.words])), rfl⟩
  obtain ⟨early, known, two⟩ := numbered 2
  obtain ⟨late, known', one⟩ := numbered 1
  obtain ⟨next, known'', three⟩ := numbered 3
  have asked : StreamStep 0 {} .resume ⟨true, true, 0⟩ := ⟨trivial, rfl⟩
  have first : StreamStep 0 ⟨true, true, 0⟩ (.message early.bytes) ⟨true, true, 2⟩ := by
    refine ⟨rfl, ?_⟩
    rw [UdpNavdataStream.handle, handleMessage_parsed known, two]
    rfl
  have second : StreamStep 0 ⟨true, true, 2⟩ (.message late.bytes) ⟨true, true, 2⟩ := by
    refine ⟨rfl, ?_⟩
    rw [UdpNavdataStream.handle, handleMessage_parsed known', one]
    rfl
  have third : StreamStep 0 ⟨true, true, 2⟩ (.message next.bytes) ⟨true, true, 3⟩ := by
    refine ⟨rfl, ?_⟩
    rw [UdpNavdataStream.handle, handleMessage_parsed known'', three]
    rfl
  obtain ⟨rising, delivers, _⟩ :=
    delivered_in_order ((((Run.single asked).snoc first).snoc second).snoc third)
  refine ⟨early, late, next, ⟨true, true, 0⟩, ⟨true, true, 2⟩, ⟨true, true, 2⟩, ?_, ?_, ?_, rising⟩
  · rw [delivers [({}, .resume)] _ _ _ rfl, two]
    exact ⟨known, by decide, by simp [parsedIn, StreamEvent.parsed]⟩
  · rw [delivers [({}, .resume), (⟨true, true, 0⟩, .message early.bytes)] _ _ _ rfl, one]
    rintro ⟨_, _, newest⟩
    have after := newest early.navdata (by simp [parsedIn, StreamEvent.parsed, known])
    rw [two] at after
    exact absurd after (by decide)
  · rw [delivers [({}, .resume), (⟨true, true, 0⟩, .message early.bytes),
      (⟨true, true, 2⟩, .message late.bytes)] _ _ _ rfl, three]
    refine ⟨known'', by decide, ?_⟩
    simp [parsedIn, StreamEvent.parsed, known, known', one, two]

end Stream

/-- The stream of a client and the node that listens to it. -/
structure Ground where
  stream : UdpNavdataStream
  node : Node

/-- `position` is where the listener believes to be when the data of a datagram reach it. -/
inductive GroundEvent where
  | stream (e : StreamEvent) (position : Position)
  | node (e : Event)

/-- The listener is called once for each packet delivered. -/
def Listens (rt : Runtime) (position : Position) : List ParsedNavdata → Node → Node → Prop
  | [], n, n' => n' = n
  | navdata :: l, n, n' => ∃ m, Step rt n (.navdata navdata.view position) m ∧ Listens rt position l m n'

/-- `Client.resume` listens for errors too. -/
def GroundStep (rt : Runtime) (g : Ground) (e : GroundEvent) (g' : Ground) : Prop :=
  match e with
  | .stream e position => StreamStep 1 g.stream e g'.stream ∧
      Listens rt position (deliveredBy 1 (g.stream, e)) g.node g'.node
  | .node e => g'.stream = g.stream ∧ e.packet = none ∧ Step rt g.node e g'.node

/-- `Client.resume` has asked for the first packets. -/
def Ground.start (coordinates : JsString) : Ground :=
  ⟨({} : UdpNavdataStream).resume.1, Node.start coordinates⟩

abbrev GroundRun (rt : Runtime) (coordinates : JsString) :=
  Run (GroundStep rt) (Ground.start coordinates)

/-- What the stream has been through. -/
def streamHistory (h : List (Ground × GroundEvent)) : List (UdpNavdataStream × StreamEvent) :=
  ({}, .resume) :: h.filterMap fun q => match q.2 with
    | .stream e _ => some (q.1.stream, e)
    | .node _ => none

section Ground
variable {rt : Runtime} {coordinates : JsString} {g g' : Ground} {h : List (Ground × GroundEvent)}

theorem streamHistory_snoc (h : List (Ground × GroundEvent)) (g : Ground) (e : GroundEvent) :
    streamHistory (h ++ [(g, e)]) = streamHistory h ++ (match e with
      | .stream e _ => [(g.stream, e)]
      | .node _ => []) := by
  unfold streamHistory
  rw [List.filterMap_append, List.cons_append]
  cases e <;> rfl

theorem listens_run {position : Position} {hn : List (Node × Event)} {n n' : Node}
    (run : NodeRun rt coordinates hn n) {l : List ParsedNavdata} (listens : Listens rt position l n n') :
    ∃ hn', NodeRun rt coordinates (hn ++ hn') n' ∧ packets hn' = l.map ParsedNavdata.view := by
  induction l generalizing hn n with
  | nil =>
      cases listens
      exact ⟨[], by rwa [List.append_nil], rfl⟩
  | cons navdata l ih =>
      obtain ⟨m, step, later⟩ := listens
      obtain ⟨hn', run', same⟩ := ih (run.snoc step) later
      refine ⟨(n, .navdata navdata.view position) :: hn', ?_, ?_⟩
      · rwa [List.append_assoc] at run'
      · rw [List.map_cons, ← same]
        rfl

/-- The stream and the node behind it run as each of them does alone, and the packets that the node
meets are those that the stream delivers, in their order. -/
theorem ground_run (run : GroundRun rt coordinates h g) : StreamRun 1 (streamHistory h) g.stream ∧
    ∃ hn, NodeRun rt coordinates hn g.node ∧
      packets hn = (deliveredIn 1 (streamHistory h)).map ParsedNavdata.view := by
  induction run with
  | nil => exact ⟨Run.single ⟨trivial, rfl⟩, [], .nil, rfl⟩
  | @snoc h g e g' prior step ih =>
      obtain ⟨stream, hn, node, same⟩ := ih
      cases e with
      | stream e position =>
          obtain ⟨moved, listens⟩ := step
          obtain ⟨hn', node', new⟩ := listens_run node listens
          rw [streamHistory_snoc]
          refine ⟨stream.snoc moved, hn ++ hn', node', ?_⟩
          rw [deliveredIn_snoc, List.map_append, ← same, ← new]
          exact List.filterMap_append
      | node e =>
          obtain ⟨still, other, moved⟩ := step
          rw [streamHistory_snoc, List.append_nil, still]
          refine ⟨stream, hn ++ [(g.node, e)], node.snoc moved, ?_⟩
          rw [packets_snoc, other, Option.toList_none, List.append_nil, same]

/-- The state word of a datagram. -/
theorem state_word (p : Packet) : wordAt p.bytes 4 4 = p.state.toNat := by
  have width (n : ℕ) : (Library.toLittle 4 n).length = 4 := Library.length_toLittle _ _
  unfold wordAt Packet.bytes Packet.front Packet.words
  simp only [List.flatMap_cons, List.append_assoc]
  rw [List.drop_left' (width _), List.take_left' (width _), Library.little_toLittle p.state.toNat_lt]

theorem emergency_word {buffer : Bytes} {navdata : ParsedNavdata} (known : parsed buffer = some navdata) :
    navdata.view.droneState.emergencyLanding = (wordAt buffer 4 4).testBit 31 := by
  have accepted : parseNavdata buffer = .ok (some navdata) := by
    unfold parsed at known
    cases result : parseNavdata buffer with
    | error e => rw [result] at known; cases known
    | ok navdata' => rw [result] at known; exact congrArg Except.ok known
  obtain ⟨p, rfl, _, rfl⟩ := parseNavdata_ok accepted
  rw [state_word, view_droneState p.navdata _ (foldl_add_header p.options _).2.1]

/-- A datagram that is handed on to the listener. -/
def Delivers (q : UdpNavdataStream × StreamEvent) (buffer : Bytes) : Prop :=
  q.2 = .message buffer ∧ deliveredBy 1 q ≠ []

theorem delivers_iff {q : UdpNavdataStream × StreamEvent} {navdata : ParsedNavdata} :
    navdata ∈ deliveredBy 1 q ↔ ∃ buffer, Delivers q buffer ∧ parsed buffer = some navdata := by
  obtain ⟨s, e⟩ := q
  constructor
  · intro member
    have known : e.parsed = some navdata := by
      rw [deliveredBy_eq, Option.mem_toList] at member
      exact (Option.filter_eq_some_iff.mp member).1
    cases e with
    | resume | timeout => cases known
    | message buffer => exact ⟨buffer, ⟨rfl, List.ne_nil_of_mem member⟩, known⟩
  · rintro ⟨buffer, ⟨rfl, filled⟩, known⟩
    obtain ⟨other, member⟩ := List.exists_mem_of_ne_nil _ filled
    have same := member
    rw [deliveredBy_eq, Option.mem_toList] at same
    have : some other = some navdata := (Option.filter_eq_some_iff.mp same).1.symm.trans known
    rwa [← Option.some_inj.mp this]

theorem mem_deliveredIn {h : List (UdpNavdataStream × StreamEvent)} {navdata : ParsedNavdata} :
    navdata ∈ deliveredIn 1 h ↔
      ∃ q ∈ h, ∃ buffer, Delivers q buffer ∧ parsed buffer = some navdata := by
  simp only [deliveredIn, List.mem_flatMap, delivers_iff]

theorem Delivers.parsed {q : UdpNavdataStream × StreamEvent} {buffer : Bytes} (h : Delivers q buffer) :
    ∃ navdata, parsed buffer = some navdata := by
  obtain ⟨navdata, member⟩ := List.exists_mem_of_ne_nil _ h.2
  obtain ⟨buffer', ⟨same, _⟩, known⟩ := delivers_iff.mp member
  cases h.1.symm.trans same
  exact ⟨navdata, known⟩

/-- The packets that the stream hands on send nothing by themselves. -/
theorem listens_sent {position : Position} {n n' : Node} (sound : n.client.Sound)
    {l : List ParsedNavdata} (listens : Listens rt position l n n') :
    n'.client.udpControl.sent = n.client.udpControl.sent := by
  induction l generalizing n with
  | nil =>
      cases listens
      rfl
  | cons navdata l ih =>
      obtain ⟨m, step, later⟩ := listens
      obtain ⟨sound', quiet⟩ := step_sound sound step
      rw [ih sound' later, quiet nofun]

theorem node_emergency {e : Event} (run : GroundRun rt coordinates h g)
    (step : GroundStep rt g (.node e) g') :
    ∃ sent, g'.node.client.udpControl.sent = g.node.client.udpControl.sent ++ sent ∧
      ∀ datagram ∈ sent, ∀ command ∈ datagram, command.1.type = .REF →
        (command.1.emergencyBit = true ↔ (∃ q ∈ streamHistory h, ∃ buffer, Delivers q buffer) ∧
          ∀ q ∈ streamHistory h, ∀ buffer, Delivers q buffer →
            (wordAt buffer 4 4).testBit 31 = true) := by
  obtain ⟨_, hn, node, same⟩ := ground_run run
  obtain ⟨sent, grown, bits⟩ := emergency_bit_sent rt coordinates node step.2.2
  refine ⟨sent, grown, fun datagram hd command hc isRef => ?_⟩
  rw [bits datagram hd command hc isRef, same]
  refine and_congr ?_ ?_
  · constructor
    · intro filled
      obtain ⟨data, member⟩ := List.exists_mem_of_ne_nil _ filled
      obtain ⟨navdata, delivered, _⟩ := List.mem_map.mp member
      obtain ⟨q, hq, buffer, delivers, _⟩ := mem_deliveredIn.mp delivered
      exact ⟨q, hq, buffer, delivers⟩
    · rintro ⟨q, hq, buffer, delivers⟩
      obtain ⟨navdata, known⟩ := delivers.parsed
      exact List.ne_nil_of_mem
        (List.mem_map_of_mem (mem_deliveredIn.mpr ⟨q, hq, buffer, delivers, known⟩))
  · constructor
    · intro all q hq buffer delivers
      obtain ⟨navdata, known⟩ := delivers.parsed
      rw [← emergency_word known]
      exact all _ (List.mem_map_of_mem (mem_deliveredIn.mpr ⟨q, hq, buffer, delivers, known⟩))
    · intro all data member
      obtain ⟨navdata, delivered, rfl⟩ := List.mem_map.mp member
      obtain ⟨q, hq, buffer, delivers, known⟩ := mem_deliveredIn.mp delivered
      rw [emergency_word known]
      exact all q hq buffer delivers

/-- What the emergency bit of a `REF` command says about datagrams: at least one has been handed
on, and all of them so far had bit 31 of their state words set. A datagram that comes in sends
nothing. -/
theorem ground_emergency {e : GroundEvent} (run : GroundRun rt coordinates h g)
    (step : GroundStep rt g e g') :
    ∃ sent, g'.node.client.udpControl.sent = g.node.client.udpControl.sent ++ sent ∧
      (∀ s position, e = .stream s position → sent = []) ∧
      ∀ datagram ∈ sent, ∀ command ∈ datagram, command.1.type = .REF →
        (command.1.emergencyBit = true ↔ (∃ q ∈ streamHistory h, ∃ buffer, Delivers q buffer) ∧
          ∀ q ∈ streamHistory h, ∀ buffer, Delivers q buffer →
            (wordAt buffer 4 4).testBit 31 = true) := by
  cases e with
  | stream s position =>
      obtain ⟨_, hn, node, _⟩ := ground_run run
      refine ⟨[], ?_, fun _ _ _ => rfl, by simp⟩
      rw [listens_sent (run_sound node) step.2, List.append_nil]
  | node e =>
      obtain ⟨sent, grown, bits⟩ := node_emergency run step
      exact ⟨sent, grown, nofun, bits⟩

/-- A datagram that reports an emergency comes in, and the next tick answers it. -/
theorem ground_emergency_raised : ∃ (g g' : Ground) (command : AtCommand × ℕ),
    g.node.client.udpControl.sent = [] ∧
      GroundStep (.asWritten fun _ => .nan) g (.node .tick) g' ∧
      (∃ datagram ∈ g'.node.client.udpControl.sent, command ∈ datagram) ∧
      command.1.emergencyBit = true := by
  obtain ⟨p, known, view, number, bit⟩ : ∃ p : Packet, parsed p.bytes = some p.navdata ∧
      p.navdata.view = ⟨⟨true, false, false⟩, none, none⟩ ∧ 0 < p.navdata.sequenceNumber ∧
      (wordAt p.bytes 4 4).testBit 31 = true := by
    let p : Packet :=
      ⟨NAVDATA_HEADER1, 0x80000000, 1, 0, [], 8, Library.toLittle 4 571, .inl rfl, le_rfl, by decide⟩
    refine ⟨p, parsed_bytes (by decide), ?_, by decide, ?_⟩
    · change (⟨p.navdata.view.droneState, none, none⟩ : Navdata) = _
      rw [view_droneState p.navdata 0x80000000 rfl]
      decide
    · rw [state_word]
      decide
  have delivered : deliveredBy 1 ((Ground.start []).stream, .message p.bytes) = [p.navdata] := by
    have first : (Ground.start []).stream.sequenceNumber < p.navdata.sequenceNumber := number
    rw [deliveredBy_eq, StreamEvent.parsed, known, Option.filter_some, if_pos (decide_eq_true first)]
    rfl
  let n := ((Node.start []).received ⟨⟨true, false, false⟩, none, none⟩
    (Node.start []).client.udpControl).processed ⟨⟨true, false, false⟩, none, none⟩
  have first : GroundStep (.asWritten fun _ => .nan) (Ground.start [])
      (.stream (.message p.bytes) ⟨.nan, .nan⟩)
      ⟨((Ground.start []).stream.handle 1 (.message p.bytes)).1, n⟩ := by
    refine ⟨⟨rfl, rfl⟩, ?_⟩
    rw [delivered]
    refine ⟨n, ?_, rfl⟩
    rw [view]
    exact ⟨trivial, rfl⟩
  have second : GroundStep (.asWritten fun _ => .nan)
      ⟨((Ground.start []).stream.handle 1 (.message p.bytes)).1, n⟩ (.node .tick)
      ⟨((Ground.start []).stream.handle 1 (.message p.bytes)).1,
        { n with client := n.client.sendCommands }⟩ := ⟨rfl, rfl, trivial, rfl⟩
  obtain ⟨empty, grown₁, quiet, _⟩ := ground_emergency .nil first
  rw [quiet _ _ rfl] at grown₁
  obtain ⟨sent, grown, _, bits⟩ := ground_emergency (Run.single first) second
  have whole : _ = sent := grown
  obtain ⟨datagram, hd, hc⟩ : ∃ datagram ∈ sent,
      (AtCommandCreator.ref ⟨none, some true⟩, 1) ∈ datagram := by
    rw [← whole]
    exact ⟨_, List.mem_cons_self, List.mem_cons_of_mem _ List.mem_cons_self⟩
  refine ⟨_, _, _, grown₁, second, ⟨datagram, ?_, hc⟩, (bits datagram hd _ hc rfl).mpr ⟨?_, ?_⟩⟩
  · rw [grown]
    exact List.mem_append_right _ hd
  · refine ⟨_, List.mem_cons_of_mem _ List.mem_cons_self, p.bytes, rfl, ?_⟩
    rw [delivered]
    exact List.cons_ne_nil _ _
  · intro q hq buffer h
    rcases List.mem_cons.mp hq with rfl | last
    · cases h.1
    · rw [List.mem_singleton.mp last] at h
      cases h.1
      exact bit

end Ground

end DroneParking
