import DroneParking.Tracking

/-!
# The connection of the vision program

`SocketMessage.java` keeps one instance for the life of the program. What it
writes reaches the node only while the socket's stream is open for writing; a
`PrintWriter` on any other stream swallows the error.
-/
namespace DroneParking

open Library (bind_apply get_apply modify_apply if_apply pure_apply throw_apply endState Run Since)

/-- The socket of an instance: open for writing, closed by the peer or the network, or
closed by this program. -/
inductive Link where
  | writable | broken | closed
  deriving DecidableEq, Repr

/-- An instance; `out` says whether its `PrintWriter` was ever created. -/
structure SocketMessage where
  link : Link := .writable
  out : Bool := false
  deriving DecidableEq, Repr

/-- The static field, and the messages that were written while the stream was open. -/
structure Connection where
  socketInstance : Option SocketMessage := none
  written : List Message := []
  deriving DecidableEq, Repr

/-- What a connection attempt gives at the moment of a call. -/
abbrev Server := Except SendError Unit

namespace SocketMessage

/-- `Socket.isConnected()` stays true once the constructor has connected. -/
def isConnected (_ : SocketMessage) : Bool := true

def getInstance (server : Server) : EStateM SendError Connection Unit := do
  match (← get).socketInstance with
  | some _ => pure ()
  | none =>
      match server with
      | .ok () => modify fun c => { c with socketInstance := some {} }
      | .error e => throw e

/-- `socket.getOutputStream()` refuses only a socket that this program closed; `println`
never throws. -/
def sendMessage (m : Message) : EStateM SendError Connection Unit := do
  match (← get).socketInstance with
  | none => pure ()
  | some s =>
      if s.isConnected then
        if s.link = .closed then throw .ioException
        modify fun c => { c with socketInstance := some { s with out := true } }
        -- the writer swallows what a broken stream throws
        if s.link = .writable then modify fun c => { c with written := c.written ++ [m] }

def send (server : Server) (m : Message) : EStateM SendError Connection Unit := do
  getInstance server
  sendMessage m

/-- `out.close()` throws before the first message; afterwards it closes the socket too. -/
def closeConnection : EStateM JavaError Connection Unit := do
  match (← get).socketInstance with
  | none => pure ()
  | some s =>
      if s.out then modify fun c => { c with socketInstance := some { s with link := .closed } }
      else throw .nullPointer

end SocketMessage

inductive Call where
  | getInstance (server : Server)
  | send (server : Server) (m : Message)
  | closeConnection
  | disconnect

open SocketMessage in
/-- A call that throws leaves the state it reached, and the history goes on. -/
def CallStep (c : Connection) (call : Call) (c' : Connection) : Prop :=
  match call with
  | .getInstance server => c' = endState (getInstance server c)
  | .send server m => c' = endState (SocketMessage.send server m c)
  | .closeConnection => c' = endState (SocketMessage.closeConnection c)
  | .disconnect => c' = { c with socketInstance := c.socketInstance.map fun s =>
      if s.link = .writable then { s with link := .broken } else s }

abbrev CallRun := Run CallStep ({} : Connection)

/-- There is an instance, and its stream is no longer open for writing. -/
def Connection.Dead (c : Connection) : Prop := ∃ s, c.socketInstance = some s ∧ s.link ≠ .writable

def Connection.Live (c : Connection) : Prop := ∃ s, c.socketInstance = some s ∧ s.link = .writable

namespace SocketMessage

theorem getInstance_none {c : Connection} (h : c.socketInstance = none) (server : Server) :
    getInstance server c = match server with
      | .ok () => .ok () { c with socketInstance := some {} }
      | .error e => .error e c := by
  unfold getInstance
  rw [bind_apply, get_apply]
  cases server with
  | ok u => simp [h]
  | error e => simp [h]

theorem getInstance_some {c : Connection} {s : SocketMessage} (h : c.socketInstance = some s)
    (server : Server) : getInstance server c = .ok () c := by
  unfold getInstance
  rw [bind_apply, get_apply]
  simp [h]

theorem sendMessage_some {c : Connection} {s : SocketMessage} (h : c.socketInstance = some s)
    (m : Message) : sendMessage m c = match s.link with
      | .writable => .ok () ⟨some { s with out := true }, c.written ++ [m]⟩
      | .broken => .ok () ⟨some { s with out := true }, c.written⟩
      | .closed => .error .ioException c := by
  unfold sendMessage
  rw [bind_apply, get_apply]
  cases link : s.link <;> simp [h, link, isConnected, bind_apply]

theorem send_some {c : Connection} {s : SocketMessage} (h : c.socketInstance = some s)
    (server : Server) (m : Message) : send server m c = sendMessage m c := by
  unfold send
  rw [bind_apply, getInstance_some h]

theorem send_none {c : Connection} (h : c.socketInstance = none) (server : Server) (m : Message) :
    send server m c = match server with
      | .ok () => .ok () ⟨some { out := true }, c.written ++ [m]⟩
      | .error e => .error e c := by
  unfold send
  rw [bind_apply, getInstance_none h]
  cases server with
  | ok u => exact sendMessage_some (s := {}) rfl m
  | error e => rfl

theorem closeConnection_none {c : Connection} (h : c.socketInstance = none) :
    closeConnection c = .ok () c := by
  unfold closeConnection
  rw [bind_apply, get_apply]
  simp [h]

theorem closeConnection_some {c : Connection} {s : SocketMessage} (h : c.socketInstance = some s) :
    closeConnection c = if s.out then .ok () ⟨some { s with link := .closed }, c.written⟩
      else .error .nullPointer c := by
  unfold closeConnection
  rw [bind_apply, get_apply]
  cases out : s.out <;> simp [h, out]

end SocketMessage

/-- What a call owes its caller: `getInstance` a live connection if the server can be
reached, and a send that returns the message on a stream open for writing; a send that
throws gives an `IOException` of either kind. -/
def Kept : Connection × Call → Prop
  | (c, .getInstance server) =>
      server = .ok () → (endState (SocketMessage.getInstance server c)).Live
  | (c, .send server m) =>
      (∀ c', SocketMessage.send server m c = .ok () c' → c'.written = c.written ++ [m] ∧ c'.Live) ∧
        (server = .ok () → (endState (SocketMessage.getInstance server c)).Live)
  | (_, .closeConnection) | (_, .disconnect) => True

def Severs : Connection × Call → Prop
  | (c, .disconnect) => c.Live
  | (c, .closeConnection) => ∃ s, c.socketInstance = some s ∧ s.link = .writable ∧ s.out = true
  | _ => False

/-- A call that owes nothing on a dead connection: one that asks for an instance while the
server is out of reach, or that throws because this program closed the socket. -/
def Harmless : Connection × Call → Prop
  | (_, .getInstance server) => server ≠ .ok ()
  | (c, .send server _) => server ≠ .ok () ∧ ∃ s, c.socketInstance = some s ∧ s.link = .closed
  | (_, .closeConnection) | (_, .disconnect) => True

/-! What a call makes of the instance that is there. -/

theorem dead_none {c : Connection} (h : c.socketInstance = none) : ¬ c.Dead := by
  rintro ⟨s, same, _⟩
  rw [h] at same
  cases same

theorem dead_some {c : Connection} {s : SocketMessage} (h : c.socketInstance = some s) :
    c.Dead ↔ s.link ≠ .writable := by
  constructor
  · rintro ⟨t, same, link⟩
    rw [h] at same
    cases same
    exact link
  · intro link
    exact ⟨s, h, link⟩

theorem live_some {c : Connection} {s : SocketMessage} (h : c.socketInstance = some s) :
    c.Live ↔ s.link = .writable := by
  constructor
  · rintro ⟨t, same, link⟩
    rw [h] at same
    cases same
    exact link
  · intro link
    exact ⟨s, h, link⟩

/-- A call keeps its promise as long as the connection is not dead, and afterwards only if
it owes nothing. -/
theorem kept_iff (c : Connection) (call : Call) : Kept (c, call) ↔ c.Dead → Harmless (c, call) := by
  cases held : c.socketInstance with
  | none =>
      refine iff_of_true ?_ fun dead => absurd dead (dead_none held)
      cases call with
      | getInstance server =>
          rintro rfl
          rw [SocketMessage.getInstance_none held]
          exact ⟨{}, rfl, rfl⟩
      | send server m =>
          constructor
          · intro c' sent
            rw [SocketMessage.send_none held] at sent
            cases server with
            | ok u =>
                cases sent
                exact ⟨rfl, _, rfl, rfl⟩
            | error e => cases sent
          · rintro rfl
            rw [SocketMessage.getInstance_none held]
            exact ⟨{}, rfl, rfl⟩
      | closeConnection | disconnect => trivial
  | some s =>
      have dead := dead_some held
      have live := live_some held
      cases call with
      | getInstance server =>
          simp only [Kept, Harmless, SocketMessage.getInstance_some held, endState, live, dead]
          tauto
      | send server m =>
          simp only [Kept, Harmless, SocketMessage.getInstance_some held, SocketMessage.send_some held,
            SocketMessage.sendMessage_some held, endState, live, dead]
          cases link : s.link with
          | writable => simp [Connection.Live]
          | broken => simp [held, link]
          | closed => simp [held, link]
      | closeConnection | disconnect => simp [Kept, Harmless]

/-- Without an instance, a call leaves none behind or a live one. -/
theorem step_unconnected {c c' : Connection} {call : Call} (held : c.socketInstance = none)
    (step : CallStep c call c') : c'.socketInstance = none ∨ c'.Live := by
  cases call with
  | getInstance server =>
      rw [CallStep, SocketMessage.getInstance_none held] at step
      cases server with
      | ok u => exact .inr ⟨{}, by rw [step]; rfl, rfl⟩
      | error e => exact .inl (by rw [step]; exact held)
  | send server m =>
      rw [CallStep, SocketMessage.send_none held] at step
      cases server with
      | ok u => exact .inr ⟨{ out := true }, by rw [step]; rfl, rfl⟩
      | error e => exact .inl (by rw [step]; exact held)
  | closeConnection =>
      rw [CallStep, SocketMessage.closeConnection_none held] at step
      exact .inl (by rw [step]; exact held)
  | disconnect =>
      left
      rw [step]
      simp [held]

theorem severs_none {c : Connection} (held : c.socketInstance = none) (call : Call) :
    ¬ Severs (c, call) := by
  cases call with
  | getInstance | send => exact id
  | closeConnection => simp [Severs, held]
  | disconnect => simp [Severs, Connection.Live, held]

/-- A dead connection is never replaced, and only the two severing events make one. -/
theorem step_dead {c c' : Connection} {call : Call} (step : CallStep c call c') :
    c'.Dead ↔ Severs (c, call) ∨ c.Dead := by
  cases held : c.socketInstance with
  | none =>
      have before : ¬ (Severs (c, call) ∨ c.Dead) :=
        not_or.mpr ⟨severs_none held call, dead_none held⟩
      refine iff_of_false ?_ before
      rcases step_unconnected held step with none | ⟨s, there, link⟩
      · exact dead_none none
      · exact fun dead => (dead_some there).mp dead link
  | some s =>
      rw [dead_some held]
      cases call with
      | getInstance server =>
          rw [CallStep, SocketMessage.getInstance_some held] at step
          rw [step, endState, dead_some held]
          simp [Severs]
      | send server m =>
          rw [CallStep, SocketMessage.send_some held, SocketMessage.sendMessage_some held] at step
          rw [step]
          cases link : s.link <;> simp [Severs, endState, Connection.Dead, held, link]
      | closeConnection =>
          rw [CallStep, SocketMessage.closeConnection_some held] at step
          rw [step]
          cases out : s.out <;>
            cases link : s.link <;> simp [Severs, endState, Connection.Dead, held, link, out]
      | disconnect =>
          rw [CallStep] at step
          rw [step]
          cases link : s.link <;> simp [Severs, Connection.Live, Connection.Dead, held, link]

theorem dead_iff {h : List (Connection × Call)} {c : Connection} (run : CallRun h c) :
    c.Dead ↔ ∃ q ∈ h, Severs q := by
  rw [← Library.since_never]
  apply run.latch
  · rintro ⟨s, same, _⟩
    cases same
  · intro h s e s' _ step
    rw [step_dead step, not_false_eq_true, and_true]

/-- All calls of a history keep their promises exactly if every call after the connection
was severed owes nothing. -/
theorem kept_throughout_iff {h : List (Connection × Call)} {c : Connection} (run : CallRun h c) :
    (∀ q ∈ h, Kept q) ↔
      ∀ h₁ q h₂, h = h₁ ++ q :: h₂ → (∃ r ∈ h₁, Severs r) → Harmless q := by
  constructor
  · intro kept h₁ q h₂ split severed
    obtain ⟨c₁, call⟩ := q
    have dead := (dead_iff (run.before split)).mpr severed
    exact (kept_iff c₁ call).mp (kept _ (by rw [split]; simp)) dead
  · intro harmless q member
    obtain ⟨c₁, call⟩ := q
    obtain ⟨h₁, h₂, split⟩ := List.append_of_mem member
    rw [kept_iff]
    intro dead
    exact harmless h₁ _ h₂ split ((dead_iff (run.before split)).mp dead)

/-- The connection is closed after a message, and the next one throws and so owes nothing. -/
theorem closed_connection_keeps : ∃ c, CallRun [({}, .send (.ok ()) .start),
      (⟨some ⟨.writable, true⟩, [.start]⟩, .closeConnection),
      (⟨some ⟨.closed, true⟩, [.start]⟩, .send (.error .ioException) .land)] c ∧
    Severs (⟨some ⟨.writable, true⟩, [.start]⟩, .closeConnection) ∧
    Kept (⟨some ⟨.closed, true⟩, [.start]⟩, .send (.error .ioException) .land) := by
  have first : CallStep {} (.send (.ok ()) .start) ⟨some ⟨.writable, true⟩, [.start]⟩ := rfl
  have closed : CallStep ⟨some ⟨.writable, true⟩, [.start]⟩ .closeConnection
      ⟨some ⟨.closed, true⟩, [.start]⟩ := rfl
  have thrown : CallStep ⟨some ⟨.closed, true⟩, [.start]⟩ (.send (.error .ioException) .land)
      ⟨some ⟨.closed, true⟩, [.start]⟩ := rfl
  have run := ((Run.single first).snoc closed).snoc thrown
  refine ⟨_, run, ⟨_, rfl, rfl, rfl⟩, (kept_throughout_iff run).mpr ?_ _ (by simp)⟩
  rintro h₁ q h₂ split ⟨r, member, _⟩
  cases h₁ with
  | nil => cases member
  | cons a h₁ =>
      have rest : [(⟨some ⟨.writable, true⟩, [.start]⟩, Call.closeConnection),
          (⟨some ⟨.closed, true⟩, [.start]⟩, .send (.error .ioException) .land)] = h₁ ++ q :: h₂ :=
        (List.cons.inj split).2
      have later : q ∈ h₁ ++ q :: h₂ := by simp
      rw [← rest] at later
      rcases List.mem_pair.mp later with rfl | rfl
      · trivial
      · exact ⟨nofun, _, rfl, rfl⟩

theorem landing_on_dead_connection : ∃ c,
    CallRun [({}, .send (.ok ()) .start), (⟨some ⟨.writable, true⟩, [.start]⟩, .disconnect),
        (⟨some ⟨.broken, true⟩, [.start]⟩, .send (.ok ()) .land)] c ∧
      SocketMessage.send (.ok ()) .land ⟨some ⟨.broken, true⟩, [.start]⟩ = .ok () c ∧
      c.written = [.start] ∧ ¬ Kept (⟨some ⟨.broken, true⟩, [.start]⟩, .send (.ok ()) .land) := by
  have first : CallStep {} (.send (.ok ()) .start) ⟨some ⟨.writable, true⟩, [.start]⟩ := rfl
  have lost : CallStep ⟨some ⟨.writable, true⟩, [.start]⟩ .disconnect
      ⟨some ⟨.broken, true⟩, [.start]⟩ := rfl
  have swallowed : CallStep ⟨some ⟨.broken, true⟩, [.start]⟩ (.send (.ok ()) .land)
      ⟨some ⟨.broken, true⟩, [.start]⟩ := rfl
  refine ⟨_, ((Run.single first).snoc lost).snoc swallowed, rfl, rfl, ?_⟩
  intro kept
  have written := (kept.1 _ rfl).1
  exact absurd written (by decide)

def SocketMessage.sender (server : Server) : Sender Connection := fun m c =>
  match SocketMessage.send server m c with
  | .ok () c' => (.ok (), c')
  | .error e c' => (.error e, c')

/-- On a dead connection no frame gets a message through, whatever it detects. -/
theorem dead_frames_silent (server : Server) {v : Vision Connection} (dead : v.socket.Dead)
    (image : Option (List Marker)) :
    let v' := endState (Detector.findMarker (SocketMessage.sender server) image v)
    v'.socket.Dead ∧ v'.socket.written = v.socket.written := by
  have kept (m : Message) (c : Connection) (hc : c.Dead ∧ c.written = v.socket.written) :
      (SocketMessage.sender server m c).2.Dead ∧
        (SocketMessage.sender server m c).2.written = v.socket.written := by
    obtain ⟨⟨s, held, link⟩, same⟩ := hc
    unfold SocketMessage.sender
    rw [SocketMessage.send_some held, SocketMessage.sendMessage_some held]
    cases state : s.link with
    | writable => exact absurd state link
    | broken => exact ⟨⟨⟨.broken, true⟩, rfl, by decide⟩, same⟩
    | closed => exact ⟨⟨s, held, link⟩, same⟩
  exact Detector.findMarker_keeps (P := fun c => c.Dead ∧ c.written = v.socket.written)
    (kept .carFound) (kept .center) image v ⟨dead, rfl⟩

end DroneParking
