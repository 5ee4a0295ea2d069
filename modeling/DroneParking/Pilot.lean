import DroneParking.Library.Run

/-!
# What the drone node is for

An abstract pilot who follows orders: whether the drone may fly, and on which
diagonal course it moves. Nothing here knows about sockets, packets or timers.
-/
namespace DroneParking

open Library (Since since_snoc since_nil)

inductive Diagonal where
  | upleft | upright | downleft | downright
  deriving DecidableEq, Repr

inductive Order where
  | takeoff | land | halt
  | steer (d : Diagonal)
  deriving DecidableEq, Repr

structure Pilot where
  flying : Bool := false
  course : Option Diagonal := none
  deriving DecidableEq, Repr

namespace Pilot

def obey (p : Pilot) : Order → Pilot
  | .takeoff => { p with flying := true }
  | .land => { p with flying := false }
  | .halt => { p with course := none }
  | .steer d => { p with course := some d }

def follow (p : Pilot) (orders : List Order) : Pilot := orders.foldl obey p

@[simp] theorem follow_nil (p : Pilot) : p.follow [] = p := rfl

theorem follow_append (p : Pilot) (o o' : List Order) : p.follow (o ++ o') = (p.follow o).follow o' :=
  List.foldl_append

theorem follow_snoc (p : Pilot) (orders : List Order) (o : Order) :
    p.follow (orders ++ [o]) = (p.follow orders).obey o := by
  rw [follow_append]
  rfl

/-- The drone may fly exactly if it was told to take off and not to land since. -/
theorem flying_iff (orders : List Order) :
    (follow {} orders).flying = true ↔ Since (· = .takeoff) (· = .land) orders := by
  induction orders using List.reverseRecOn with
  | nil => simp
  | append_singleton orders o ih =>
      rw [follow_snoc, since_snoc, ← ih]
      cases o <;> simp [obey]

/-- An order that ends the course the drone is on. -/
def Turns : Order → Prop
  | .halt | .steer _ => True
  | .takeoff | .land => False

/-- The course is the one of the last order that concerned it. -/
theorem course_iff (orders : List Order) (d : Diagonal) :
    (follow {} orders).course = some d ↔ Since (· = .steer d) Turns orders := by
  induction orders using List.reverseRecOn with
  | nil => simp
  | append_singleton orders o ih =>
      rw [follow_snoc, since_snoc, ← ih]
      cases o <;> simp [obey, Turns]

theorem on_course_iff (orders : List Order) :
    (follow {} orders).course ≠ none ↔ Since (fun o => ∃ d, o = .steer d) (· = .halt) orders := by
  induction orders using List.reverseRecOn with
  | nil => simp
  | append_singleton orders o ih =>
      rw [follow_snoc, since_snoc, ← ih]
      cases o <;> simp [obey]

end Pilot
end DroneParking
