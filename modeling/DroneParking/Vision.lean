import Mathlib.Tactic.Linarith
import DroneParking.Protocol
import DroneParking.Library.Window

/-!
# The vision program

`Helper.java` classifies a pixel position, `ValidFrame.java` counts the recent
frames with a marker, `Detector.java` handles one frame. Drawing is left out.
-/
namespace DroneParking

open Library (bind_apply pure_apply get_apply throw_apply modify_apply if_apply Holds)

inductive Direction where
  | downright | downleft | upleft | upright | center
  deriving DecidableEq, Repr

namespace Helper

def centerX : Int32 := 320
def centerY : Int32 := 180

/-- `Math.sqrt(…) < 30`. The differences wrap at 32 bits; compared with 30, the rounded root
of an integer is as good as the exact one. -/
def insideCircle (x y : Int32) : Bool :=
  decide ((x - centerX).toInt ^ 2 + (y - centerY).toInt ^ 2 < 30 ^ 2)

def getDirection (x y : Int32) : Option Direction :=
  if insideCircle x y then some .center
  else if centerX < x ∧ centerY > y then some .upright
  else if centerX < x ∧ centerY < y then some .downright
  else if centerX > x ∧ centerY > y then some .upleft
  else if centerX > x ∧ centerY < y then some .downleft
  else none

end Helper

inductive JavaError where
  | nullPointer | arrayIndexOutOfBounds
  deriving DecidableEq, Repr

structure ValidFrame where
  poljeSlika : List Bool := List.replicate 50 false
  pozicija : ℕ := 0
  deriving DecidableEq, Repr

namespace ValidFrame

def valid (v : ValidFrame) (pronaden : Bool) : Except JavaError ValidFrame :=
  if v.pozicija < v.poljeSlika.length then
    .ok {
      poljeSlika := v.poljeSlika.set v.pozicija pronaden
      pozicija := if v.poljeSlika.length - 1 ≤ v.pozicija + 1 then 0 else v.pozicija + 1 }
  else .error .arrayIndexOutOfBounds

/-- The loop leaves out the last cell, which is never written either. -/
def getValidator (v : ValidFrame) : Bool :=
  decide (10 ≤ (v.poljeSlika.take (v.poljeSlika.length - 1)).count true)

end ValidFrame

/-- A detected marker: its number and its centre cast to `int`. -/
structure Marker where
  id : Int32
  x : Int32
  y : Int32
  deriving DecidableEq, Repr

/-- The fields of `Detector` that outlive a frame and are read. -/
structure Detector where
  markerFound : Bool := false
  marker : Option Marker := none
  deriving DecidableEq, Repr

/-- The state of the vision program; `socket` stands for all that sending depends on. -/
structure Vision (σ : Type) where
  detector : Detector := {}
  validFrame : ValidFrame := {}
  socket : σ
  deriving DecidableEq, Repr

inductive SendError where
  | unknownHost | ioException
  deriving DecidableEq, Repr

/-- Sending one message, whatever the connection does with it. -/
abbrev Sender (σ : Type) := Message → σ → Except SendError Unit × σ

abbrev Java (σ : Type) := EStateM JavaError (Vision σ)

namespace Detector

variable {σ : Type} (sender : Sender σ)

/-- The `try` statements around a send: both `catch` blocks only print. -/
def send (m : Message) : Java σ Unit := modify fun v => { v with socket := (sender m v.socket).2 }

def inspect (p : Marker) : Java σ Unit := do
  if p.id = 1 then
    modify fun v => { v with detector := { v.detector with marker := some p, markerFound := true } }
  -- the flag is the one left by the markers before `p` and `p` itself
  if (← get).detector.markerFound then
    if p.id = 2 then send sender .carFound

def inspectAll : List Marker → Java σ Unit
  | [] => pure ()
  | p :: polje => do
      inspect sender p
      inspectAll polje

def validate : Java σ Unit := fun v =>
  match v.validFrame.valid v.detector.markerFound with
  | .ok f => .ok () { v with validFrame := f }
  | .error e => .error e v

/-- A detected frame up to the call of `ValidFrame.valid`. -/
def observe (polje : List Marker) : Java σ Unit := do
  modify fun v => { v with detector := { v.detector with markerFound := false } }
  inspectAll sender polje
  validate

/-- The rest of the frame: a tracked marker without a direction throws at `toString`. -/
def steer : Java σ Unit := do
  if (← get).validFrame.getValidator then
    match (← get).detector.marker with
    | none => throw .nullPointer
    | some marker =>
        match Helper.getDirection marker.x marker.y with
        | none => throw .nullPointer
        -- the direction goes nowhere: `"drone_" + direction` is commented out
        | some _ => send sender .center

/-- A frame is `none` for a `null` image, else the markers that `detect` finds in it. -/
def findMarker (image : Option (List Marker)) : Java σ Unit :=
  match image with
  | none => pure ()
  | some polje => do
      observe sender polje
      steer sender

end Detector
end DroneParking
