import DroneParking.Client

/-!
# The acknowledgement handshake

The fields of `_blocked` agree with its state between any two events, so none of
the assertions in `UdpControl.js` can fail, and no `REF` command waits in a queue
for a later tick.
-/
namespace DroneParking

/-- A command is held and its timer runs exactly as the state says. -/
def Blocked.Sound (b : Blocked) : Prop :=
  match b.state with
  | .NOT_BLOCKED => b.cmd = none ∧ b.ackTimer = false
  | .WAITING_FOR_ACK => b.cmd.isSome = true ∧ b.ackTimer = true
  | .WAITING_FOR_ACK_RESET => b.cmd.isSome = true ∧ b.ackTimer = false

namespace UdpControl

structure Sound (u : UdpControl) : Prop where
  blocked : u.blocked.Sound
  cmds : ∀ c ∈ u.cmds, c.type ≠ .REF
  blockingCmds : ∀ c ∈ u.blockingCmds, c.type ≠ .REF

theorem Sound.initial : Sound {} := ⟨⟨rfl, rfl⟩, by simp, by simp⟩

theorem Sound.enqueue {u : UdpControl} (h : u.Sound) {c : AtCommand} (hc : c.type ≠ .REF) :
    (u.enqueue c).Sound := by
  have appended (l : List AtCommand) (hl : ∀ d ∈ l, d.type ≠ .REF) :
      ∀ d ∈ l ++ [c], d.type ≠ .REF := by
    intro d hd
    rcases List.mem_append.mp hd with old | new
    · exact hl d old
    · rw [List.mem_singleton.mp new]
      exact hc
  unfold UdpControl.enqueue
  split
  · exact ⟨h.blocked, h.cmds, appended _ h.blockingCmds⟩
  · exact ⟨h.blocked, appended _ h.cmds, h.blockingCmds⟩

@[simp] theorem enqueue_sent (u : UdpControl) (c : AtCommand) : (u.enqueue c).sent = u.sent := by
  unfold enqueue
  split <;> rfl

theorem acked_sound {u : UdpControl} (h : u.Sound) (held : u.blocked.cmd.isSome = true) :
    u.acked.Sound ∧ u.acked.sent = u.sent := by
  have reset : ({ u with
      blocked := { u.blocked with ackTimer := false, state := .WAITING_FOR_ACK_RESET } } :
      UdpControl).Sound := ⟨⟨held, rfl⟩, h.cmds, h.blockingCmds⟩
  have queued := reset.enqueue (c := AtCommandCreator.ctrl 5 0) (by decide)
  exact ⟨⟨queued.blocked, queued.cmds, queued.blockingCmds⟩, enqueue_sent _ _⟩

theorem released_sound {u : UdpControl} (h : u.Sound) (stopped : u.blocked.ackTimer = false) :
    u.released.Sound := ⟨⟨rfl, stopped⟩, h.cmds, h.blockingCmds⟩

theorem ack_sound {u : UdpControl} (h : u.Sound) :
    ∃ u', u.ack = .ok u' ∧ u'.Sound ∧ u'.sent = u.sent := by
  by_cases waiting : u.blocked.state = .WAITING_FOR_ACK
  · have fields := h.blocked
    simp only [Blocked.Sound, waiting] at fields
    refine ⟨u.acked, ?_, acked_sound h fields.1⟩
    unfold ack
    rw [if_pos waiting, fields.1, fields.2]
    rfl
  · exact ⟨u, if_neg waiting, h, rfl⟩

theorem ackReset_sound {u : UdpControl} (h : u.Sound) :
    ∃ u', u.ackReset = .ok u' ∧ u'.Sound ∧ u'.sent = u.sent := by
  by_cases waiting : u.blocked.state = .WAITING_FOR_ACK_RESET
  · have fields := h.blocked
    simp only [Blocked.Sound, waiting] at fields
    refine ⟨u.released, ?_, released_sound h fields.2, rfl⟩
    unfold ackReset
    rw [if_pos waiting, fields.1]
    rfl
  · exact ⟨u, if_neg waiting, h, rfl⟩

theorem handleAckTimeout_sound {u : UdpControl} (h : u.Sound) (running : u.blocked.ackTimer = true) :
    ∃ u', u.handleAckTimeout = .ok u' ∧ u'.Sound ∧ u'.sent = u.sent := by
  have fields := h.blocked
  cases state : u.blocked.state with
  | NOT_BLOCKED =>
      simp only [Blocked.Sound, state, running] at fields
      exact absurd fields.2 (by decide)
  | WAITING_FOR_ACK_RESET =>
      simp only [Blocked.Sound, state, running] at fields
      exact absurd fields.2 (by decide)
  | WAITING_FOR_ACK =>
      simp only [Blocked.Sound, state] at fields
      refine ⟨({ u with blocked := { u.blocked with ackTimer := false } } : UdpControl).released, ?_,
        ⟨⟨rfl, rfl⟩, h.cmds, h.blockingCmds⟩, rfl⟩
      unfold handleAckTimeout
      rw [state, running, fields.1]
      rfl

theorem flushCmds_spec (u : UdpControl) : ∃ sent, u.flushCmds.sent = u.sent ++ sent ∧
    (∀ d ∈ sent, ∀ p ∈ d, p.1 ∈ u.cmds) ∧ u.flushCmds.cmds = [] ∧
    u.flushCmds.blocked = u.blocked ∧ u.flushCmds.blockingCmds = u.blockingCmds := by
  unfold flushCmds
  split
  · next empty => exact ⟨[], by simp, by simp, empty, rfl, rfl⟩
  · refine ⟨_, rfl, ?_, rfl, rfl, rfl⟩
    intro d hd p hp
    rw [List.mem_singleton.mp hd] at hp
    exact List.fst_mem_of_mem_zipIdx hp

theorem flushBlocking_spec {u : UdpControl} (h : u.Sound) : ∃ sent,
    u.flushBlocking.sent = u.sent ++ sent ∧ (∀ d ∈ sent, ∀ p ∈ d, p.1 ∈ u.blockingCmds) ∧
    u.flushBlocking.Sound := by
  unfold flushBlocking
  split
  · cases queue : u.blockingCmds with
    | nil => exact ⟨[], by simp, by simp, h⟩
    | cons cmd rest =>
        refine ⟨_, rfl, ?_, ⟨⟨rfl, rfl⟩, h.cmds, ?_⟩⟩
        · intro d hd p hp
          rw [List.mem_singleton.mp hd] at hp
          exact List.mem_cons.mpr (.inl (List.mem_singleton.mp (List.fst_mem_of_mem_zipIdx hp)))
        · intro c hc
          exact h.blockingCmds c (by rw [queue]; exact List.mem_cons_of_mem _ hc)
  · exact ⟨[], by simp, by simp, h⟩

/-- A flush sends queued commands only and leaves no plain command behind, whatever was
queued for this tick. -/
theorem flush_spec {u : UdpControl} (blocked : u.blocked.Sound)
    (blockingCmds : ∀ c ∈ u.blockingCmds, c.type ≠ .REF) : ∃ sent, u.flush.sent = u.sent ++ sent ∧
    (∀ d ∈ sent, ∀ p ∈ d, p.1 ∈ u.cmds ∨ p.1 ∈ u.blockingCmds) ∧ u.flush.Sound := by
  obtain ⟨sent₁, hsent₁, from₁, cmds, same, rest⟩ := flushCmds_spec u
  have sound : u.flushCmds.Sound := ⟨same ▸ blocked, by simp [cmds], rest ▸ blockingCmds⟩
  obtain ⟨sent₂, hsent₂, from₂, final⟩ := flushBlocking_spec sound
  refine ⟨sent₁ ++ sent₂, ?_, ?_, final⟩
  · rw [flush, hsent₂, hsent₁, List.append_assoc]
  · intro d hd p hp
    rcases List.mem_append.mp hd with first | second
    · exact .inl (from₁ d first p hp)
    · exact .inr (rest ▸ from₂ d second p hp)

end UdpControl

namespace Client

structure Sound (c : Client) : Prop where
  udpControl : c.udpControl.Sound
  repeaters : ∀ r ∈ c.repeaters, r.method.type ≠ .REF

theorem create_sound : create.Sound := by
  refine ⟨?_, by simp [create, resume, ctrl, disableEmergency, config]⟩
  have ctrl := UdpControl.Sound.initial.enqueue (c := AtCommandCreator.ctrl 5 0) (by decide)
  exact ctrl.enqueue (c := AtCommandCreator.config "general:navdata_demo" "TRUE")
    (by simp [AtCommandCreator.config])

theorem config_sound {c : Client} (h : c.Sound) (key value : String) : (c.config key value).Sound :=
  ⟨h.udpControl.enqueue (c := AtCommandCreator.config key value) (by simp [AtCommandCreator.config]),
    h.repeaters⟩

theorem acknowledge_sound {c : Client} (h : c.Sound) (navdata : Navdata) : ∃ u,
    c.acknowledge navdata = .ok { c with udpControl := u } ∧ u.Sound ∧
      u.sent = c.udpControl.sent := by
  unfold acknowledge
  cases navdata.droneState.controlCommandAck with
  | true =>
      obtain ⟨u, hu, sound, sent⟩ := UdpControl.ack_sound h.udpControl
      exact ⟨u, by rw [if_pos rfl, hu]; rfl, sound, sent⟩
  | false =>
      obtain ⟨u, hu, sound, sent⟩ := UdpControl.ackReset_sound h.udpControl
      exact ⟨u, by rw [if_neg Bool.false_ne_true, hu]; rfl, sound, sent⟩

/-- On a tick, the commands sent were queued before it or are built from the shared state. -/
theorem sendCommands_spec {c : Client} (h : c.Sound) : ∃ sent,
    c.sendCommands.udpControl.sent = c.udpControl.sent ++ sent ∧ c.sendCommands.Sound ∧
      ∀ d ∈ sent, ∀ p ∈ d, p.1.type = .REF → p.1 = AtCommandCreator.ref c.ref := by
  have pcmdType (r : Library.Record PcmdKey JsNumber) : (AtCommandCreator.pcmd r).type ≠ .REF := by
    simp [AtCommandCreator.pcmd]
  obtain ⟨sent, hsent, queued, sound⟩ := UdpControl.flush_spec
    (u := (c.udpControl.ref c.ref).pcmd c.pcmd) h.udpControl.blocked h.udpControl.blockingCmds
  have repeated (l : List Repeater) (hl : ∀ r ∈ l, r.method.type ≠ .REF) (u : UdpControl)
      (hu : u.Sound) : (l.foldl (fun u r => u.enqueue r.method) u).Sound ∧
        (l.foldl (fun u r => u.enqueue r.method) u).sent = u.sent := by
    induction l generalizing u with
    | nil => exact ⟨hu, rfl⟩
    | cons r l ih =>
        have tail := ih (fun x hx => hl x (by simp [hx])) (u.enqueue r.method)
          (hu.enqueue (hl r (by simp)))
        exact ⟨tail.1, by rw [List.foldl_cons, tail.2, UdpControl.enqueue_sent]⟩
  have tail := repeated c.repeaters h.repeaters _ sound
  refine ⟨sent, ?_, ⟨tail.1, ?_⟩, ?_⟩
  · exact tail.2.trans hsent
  · intro r hr
    obtain ⟨r', hr', rfl⟩ := List.mem_map.mp (List.mem_filter.mp hr).1
    exact h.repeaters r' hr'
  · intro d hd p hp isRef
    rcases queued d hd p hp with plain | blocking
    · have origin : p.1 ∈ c.udpControl.cmds ++ [AtCommandCreator.ref c.ref] ++
          [AtCommandCreator.pcmd c.pcmd] := plain
      simp only [List.mem_append, List.mem_singleton] at origin
      rcases origin with (old | new) | motion
      · exact absurd isRef (h.udpControl.cmds _ old)
      · exact new
      · exact absurd (motion ▸ isRef) (pcmdType _)
    · exact absurd isRef (h.udpControl.blockingCmds _ blocking)

end Client
end DroneParking
