import DroneParking.Script
import DroneParking.Pilot

/-!
# The words of the protocol

What the data handler does with a chunk depends only on which word the trimmed
chunk is; each word is an order to the pilot, except `drone_found`, which ends
the waypoint search, and `drone_start`, which only the Java program knows.
-/
namespace DroneParking

open Library (bind_apply pure_apply get_apply throw_apply modify_apply if_apply)

inductive Message where
  | upleft | upright | downleft | downright | center
  | takeoff | stop | land | found | carFound | start
  deriving DecidableEq, Repr

namespace Message

def word : Message → String
  | .upleft => "drone_upleft"
  | .upright => "drone_upright"
  | .downleft => "drone_downleft"
  | .downright => "drone_downright"
  | .center => "drone_center"
  | .takeoff => "drone_takeoff"
  | .stop => "drone_stop"
  | .land => "drone_land"
  | .found => "drone_found"
  | .carFound => "drone_carFound"
  | .start => "drone_start"

def text (m : Message) : JsString := m.word.toList

/-- The words the data handler compares with. -/
def commands : List Message :=
  [.upleft, .upright, .downleft, .downright, .center, .takeoff, .stop, .land, .found, .carFound]

def vocabulary : List Message := commands ++ [.start]

def order : Message → Option Order
  | .upleft => some (.steer .upleft)
  | .upright => some (.steer .upright)
  | .downleft => some (.steer .downleft)
  | .downright => some (.steer .downright)
  | .center | .stop => some .halt
  | .takeoff => some .takeoff
  | .land | .carFound => some .land
  | .found | .start => none

theorem mem_commands {m : Message} : m ∈ commands ↔ m ≠ .start := by cases m <;> decide

theorem mem_vocabulary (m : Message) : m ∈ vocabulary := by cases m <;> decide

theorem word_injective : Function.Injective word := by
  intro m m' same
  cases m <;> cases m' <;> first | rfl | simp [word] at same

theorem text_injective : Function.Injective text := by
  intro m m' same
  exact word_injective (String.toList_inj.mp same)

end Message

def Order.calls : Order → List ClientCall
  | .takeoff => [.takeoff]
  | .land => [.land]
  | .halt => [.stop]
  | .steer .upleft => [.front speed, .left speed]
  | .steer .upright => [.front speed, .right speed]
  | .steer .downleft => [.back speed, .left speed]
  | .steer .downright => [.back speed, .right speed]

namespace Node

def obey (n : Node) (o : Order) : Node := o.calls.foldl call n

def follow (n : Node) (orders : List Order) : Node := orders.foldl obey n

def execute (n : Node) (m : Message) : Node :=
  { n.follow m.order.toList with markerFound := n.markerFound || decide (m = .found) }

end Node

def recognise (data : JsString) : Option Message := Message.commands.find? fun m => m.text = data

theorem recognise_eq_some {data : JsString} {m : Message} :
    recognise data = some m ↔ m ≠ .start ∧ data = m.text := by
  constructor
  · intro found
    have known := List.mem_of_find?_eq_some found
    have same := List.find?_some found
    exact ⟨Message.mem_commands.mp known, (of_decide_eq_true same).symm⟩
  · rintro ⟨known, rfl⟩
    cases h : recognise m.text with
    | none =>
        have absent := List.find?_eq_none.mp h m (Message.mem_commands.mpr known)
        simp at absent
    | some m' =>
        have same := List.find?_some (p := fun m' : Message => decide (m'.text = m.text)) h
        rw [Message.text_injective (of_decide_eq_true same)]

theorem recognise_eq_none {data : JsString} :
    recognise data = none ↔ ∀ m : Message, m ≠ .start → data ≠ m.text := by
  constructor
  · intro absent m known same
    rw [recognise_eq_some.mpr ⟨known, same⟩] at absent
    cases absent
  · intro absent
    cases h : recognise data with
    | none => rfl
    | some m =>
        obtain ⟨known, same⟩ := recognise_eq_some.mp h
        exact absurd same (absent m known)

theorem onWord_apply (data : JsString) (word : String) (action : Script Unit) (n : Node) :
    onWord data word action n = if data = word.toList then action n else .ok () n := by
  unfold onWord
  split <;> rfl

theorem dataHandler_text (m : Message) {chunk : JsString} (h : chunk.trim = m.text) (n : Node) :
    dataHandler chunk n = .ok () (n.execute m) := by
  cases m <;>
    simp [dataHandler, h, Message.text, Message.word, bind_apply, onWord_apply, switchData,
      Node.execute, Node.follow, Node.obey, Order.calls, Message.order, Node.call]

/-- The handler recognises the whole trimmed chunk or does nothing. -/
theorem dataHandler_apply (chunk : JsString) (n : Node) :
    dataHandler chunk n = .ok () (((recognise chunk.trim).map n.execute).getD n) := by
  cases h : recognise chunk.trim with
  | some m => exact dataHandler_text m (recognise_eq_some.mp h).2 n
  | none =>
      have other : ∀ m : Message, m ≠ .start → ¬ chunk.trim = m.word.toList :=
        recognise_eq_none.mp h
      have upleft : ¬ chunk.trim = "drone_upleft".toList := other .upleft (by decide)
      have upright : ¬ chunk.trim = "drone_upright".toList := other .upright (by decide)
      have downleft : ¬ chunk.trim = "drone_downleft".toList := other .downleft (by decide)
      have downright : ¬ chunk.trim = "drone_downright".toList := other .downright (by decide)
      have center : ¬ chunk.trim = "drone_center".toList := other .center (by decide)
      have takeoff : ¬ chunk.trim = "drone_takeoff".toList := other .takeoff (by decide)
      have stop : ¬ chunk.trim = "drone_stop".toList := other .stop (by decide)
      have land : ¬ chunk.trim = "drone_land".toList := other .land (by decide)
      have found : ¬ chunk.trim = "drone_found".toList := other .found (by decide)
      have carFound : ¬ chunk.trim = "drone_carFound".toList := other .carFound (by decide)
      simp only [dataHandler, switchData, bind_apply, onWord_apply, pure_apply, upleft,
        upright, downleft, downright, center, takeoff, stop, land, found, carFound, if_false,
        Option.map_none, Option.getD_none]

end DroneParking
