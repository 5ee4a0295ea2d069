import DroneParking.Steps

/-!
# The node carries out its orders

Along every run the shared command state shows the flight and the course of a
pilot who follows the orders issued so far.
-/
namespace DroneParking

def Diagonal.vertical : Diagonal → PcmdKey
  | .upleft | .upright => .front
  | .downleft | .downright => .back

def Diagonal.horizontal : Diagonal → PcmdKey
  | .upleft | .downleft => .left
  | .upright | .downright => .right

/-- The properties of `_pcmd` while the drone is on a course. -/
def Pilot.motion (p : Pilot) (k : PcmdKey) : Option JsNumber :=
  p.course.bind fun d => if k = d.vertical ∨ k = d.horizontal then some speed else none

/-- The command state is that of a drone flown by `p`. -/
structure Shows (c : Client) (p : Pilot) : Prop where
  fly : c.ref.fly = some true ↔ p.flying = true
  pcmd : ∀ k, c.pcmd.get k = p.motion k

theorem setPcmd_get {key : PcmdKey} {s : JsNumber} (hs : s.isNaN = false) (c : Client)
    (k : PcmdKey) : (c.setPcmd key s).pcmd.get k =
      if k = Client.opposite key then none else if k = key then some s.plusZero else c.pcmd.get k := by
  unfold Client.setPcmd
  rw [hs, if_neg Bool.false_ne_true, Library.Record.get_delete, Library.Record.get_set]

theorem setPcmd_fly (key : PcmdKey) (s : JsNumber) (c : Client) :
    (c.setPcmd key s).ref = c.ref := by
  unfold Client.setPcmd
  split <;> rfl

theorem steer_get (n : Node) (d : Diagonal) (k : PcmdKey) :
    (n.obey (.steer d)).client.pcmd.get k =
      if k = d.vertical ∨ k = d.horizontal then some speed
      else if k = Client.opposite d.vertical ∨ k = Client.opposite d.horizontal then none
      else n.client.pcmd.get k := by
  have two (v w : PcmdKey) : ((n.client.setPcmd v speed).setPcmd w speed).pcmd.get k =
      if k = Client.opposite w then none else if k = w then some speed
      else if k = Client.opposite v then none else if k = v then some speed
      else n.client.pcmd.get k := by
    rw [setPcmd_get rfl, setPcmd_get rfl]
    rfl
  cases d with
  | upleft => exact (two .front .left).trans (by cases k <;> rfl)
  | upright => exact (two .front .right).trans (by cases k <;> rfl)
  | downleft => exact (two .back .left).trans (by cases k <;> rfl)
  | downright => exact (two .back .right).trans (by cases k <;> rfl)

namespace Shows

theorem steer {n : Node} {p : Pilot} (h : Shows n.client p) (d : Diagonal) :
    Shows (n.obey (.steer d)).client (p.obey (.steer d)) := by
  constructor
  · have kept (v w : PcmdKey) : ((n.client.setPcmd v speed).setPcmd w speed).ref = n.client.ref := by
      rw [setPcmd_fly, setPcmd_fly]
    have fly : (n.obey (.steer d)).client.ref = n.client.ref := by
      cases d with
      | upleft => exact kept .front .left
      | upright => exact kept .front .right
      | downleft => exact kept .back .left
      | downright => exact kept .back .right
    rw [fly]
    exact h.fly
  · intro k
    rw [steer_get, h.pcmd k]
    -- a course never touches keys outside the two pairs it overwrites
    rcases p with ⟨_, _ | old⟩
    · cases d <;> cases k <;> rfl
    · cases old <;> cases d <;> cases k <;> rfl

theorem obey {n : Node} {p : Pilot} (h : Shows n.client p) (o : Order) :
    Shows (n.obey o).client (p.obey o) := by
  cases o with
  | takeoff => exact ⟨⟨fun _ => rfl, fun _ => rfl⟩, h.pcmd⟩
  | land =>
      refine ⟨?_, h.pcmd⟩
      change some false = some true ↔ false = true
      simp
  | halt => exact ⟨h.fly, fun k => Library.Record.get_empty k⟩
  | steer d => exact h.steer d

theorem follow {n : Node} {p : Pilot} (h : Shows n.client p) (orders : List Order) :
    Shows (n.follow orders).client (p.follow orders) := by
  induction orders generalizing n p with
  | nil => exact h
  | cons o orders ih => exact ih (h.obey o)

theorem alike {n m : Node} {p : Pilot} (h : Shows m.client p) (same : Alike n m) :
    Shows n.client p :=
  ⟨by rw [same.fly]; exact h.fly, fun k => by rw [same.pcmd]; exact h.pcmd k⟩

end Shows

def orders (h : List (Node × Event)) : List Order := h.flatMap fun q => issued q.1 q.2

/-- Along every run the node refines a pilot who follows the orders issued, and the calls
made are the calls of these orders. -/
theorem run_refines {rt : Runtime} {coordinates : JsString} {h : List (Node × Event)} {n : Node}
    (run : NodeRun rt coordinates h n) :
    Shows n.client (Pilot.follow {} (orders h)) ∧ n.calls = (orders h).flatMap Order.calls := by
  induction run with
  | nil =>
      refine ⟨⟨?_, fun _ => rfl⟩, rfl⟩
      change none = some true ↔ false = true
      simp
  | @snoc h n e n' prior step ih =>
      have same := step_alike (run_sound prior) step
      have extended : orders (h ++ [(n, e)]) = orders h ++ issued n e := by simp [orders]
      constructor
      · rw [extended, Pilot.follow_append]
        exact (ih.1.follow _).alike same
      · rw [extended, List.flatMap_append, same.calls, Node.follow_calls, ih.2]

end DroneParking
