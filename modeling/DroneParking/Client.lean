import DroneParking.Control

/-!
# The drone client

`Client.js`: the shared command state that every handler writes and the 30 ms
interval sends, and what it does with a navdata packet besides emitting it.
-/
namespace DroneParking

open Library (Record)

inductive ControlState where
  | CTRL_DEFAULT | CTRL_INIT | CTRL_LANDED | CTRL_FLYING | CTRL_HOVERING | CTRL_TEST
  | CTRL_TRANS_TAKEOFF | CTRL_TRANS_GOTOFIX | CTRL_TRANS_LANDING | CTRL_TRANS_LOOPING
  deriving DecidableEq, Repr

structure DroneState where
  emergencyLanding : Bool := false
  controlCommandAck : Bool := false
  lowBattery : Bool := false
  deriving DecidableEq, Repr

/-- The fields of the `demo` option that are read; `altitudeMeters` is the same number as
`altitude`. A control state outside the table is `undefined`. -/
structure Demo where
  controlState : Option ControlState
  batteryPercentage : ℕ
  altitude : JsNumber
  deriving DecidableEq, Repr

structure Magneto where
  fusionUnwrapped : JsNumber
  deriving DecidableEq, Repr

/-- A parsed packet: the header flags are always there, each option only if the packet
carried it. -/
structure Navdata where
  droneState : DroneState := {}
  demo : Option Demo := none
  magneto : Option Magneto := none
  deriving DecidableEq, Repr

/-- What `_processNavdata` announces to listeners. -/
inductive ClientEvent where
  | landing | landed | takeoff | hovering | flying
  | lowBattery (battery : ℕ)
  | batteryChange (battery : ℕ)
  | altitudeChange (altitude : JsNumber)
  deriving DecidableEq, Repr

structure Repeater where
  times : ℕ
  method : AtCommand
  deriving DecidableEq, Repr

structure Client where
  udpControl : UdpControl := {}
  ref : Ref := {}
  pcmd : Record PcmdKey JsNumber := .empty
  repeaters : List Repeater := []
  afterOffset : ℕ := 0
  disableEmergencyFlag : Bool := false
  lastState : Option ControlState := some .CTRL_LANDED
  lastBattery : ℕ := 100
  lastAltitude : JsNumber := .finite 0
  deriving DecidableEq, Repr

namespace Client

def takeoff (c : Client) : Client := { c with ref := { c.ref with fly := some true } }
def land (c : Client) : Client := { c with ref := { c.ref with fly := some false } }
def stop (c : Client) : Client := { c with pcmd := .empty }
def disableEmergency (c : Client) : Client := { c with disableEmergencyFlag := true }
def config (c : Client) (key value : String) : Client :=
  { c with udpControl := c.udpControl.config key value }

def opposite : PcmdKey → PcmdKey
  | .up => .down
  | .down => .up
  | .left => .right
  | .right => .left
  | .front => .back
  | .back => .front
  | .clockwise => .counterClockwise
  | .counterClockwise => .clockwise

/-- The method made for each key of `pcmdOptions`: set it and drop its opposite. `parseFloat` reads
the text of the speed, which has no `-0`. -/
def setPcmd (key : PcmdKey) (speed : JsNumber) (c : Client) : Client :=
  if speed.isNaN then c else { c with pcmd := (c.pcmd.set key speed.plusZero).delete (opposite key) }

def up := setPcmd .up
def down := setPcmd .down
def left := setPcmd .left
def right := setPcmd .right
def front := setPcmd .front
def back := setPcmd .back
def clockwise := setPcmd .clockwise
def counterClockwise := setPcmd .counterClockwise

def ctrl (c : Client) (controlMode otherMode : ℕ) : Client :=
  { c with udpControl := c.udpControl.ctrl controlMode otherMode }

/-- `resume`, apart from the interval and the navdata stream that it starts. -/
def resume (c : Client) : Client :=
  ((c.ctrl 5 0).config "general:navdata_demo" "TRUE").disableEmergency

/-- `arDrone.createClient` -/
def create : Client := ({} : Client).resume

/-- The 30 ms interval: queue `REF` and `PCMD`, flush, then let the repeaters queue. -/
def sendCommands (c : Client) : Client :=
  let sent := ((c.udpControl.ref c.ref).pcmd c.pcmd).flush
  { c with
    udpControl := c.repeaters.foldl (fun u r => u.enqueue r.method) sent
    repeaters := (c.repeaters.map fun r => { r with times := r.times - 1 }).filter fun r => decide (0 < r.times) }

/-- `_handleNavdata` up to the acknowledgement: the emergency bit is raised only while a
reset is wanted. -/
def refreshEmergency (c : Client) (navdata : Navdata) : Client :=
  if navdata.droneState.emergencyLanding && c.disableEmergencyFlag then
    { c with ref := { c.ref with emergency := some true } }
  else { c with ref := { c.ref with emergency := some false }, disableEmergencyFlag := false }

def acknowledge (c : Client) (navdata : Navdata) : Except JsError Client := do
  let u ← if navdata.droneState.controlCommandAck then c.udpControl.ack else c.udpControl.ackReset
  return { c with udpControl := u }

def emitState (c : Client) (cstate : Option ControlState) (e : ClientEvent) (state : ControlState) :
    List ClientEvent :=
  if cstate = some state ∧ c.lastState ≠ some state then [e] else []

def processNavdata (c : Client) (navdata : Navdata) : Client × List ClientEvent :=
  match navdata.demo with
  | none => (c, [])
  | some demo =>
      let cstate := demo.controlState
      let states := c.emitState cstate .landing .CTRL_TRANS_LANDING ++
        c.emitState cstate .landed .CTRL_LANDED ++
        c.emitState cstate .takeoff .CTRL_TRANS_TAKEOFF ++
        c.emitState cstate .hovering .CTRL_HOVERING ++
        c.emitState cstate .flying .CTRL_FLYING
      let battery := demo.batteryPercentage
      let low := if navdata.droneState.lowBattery then [.lowBattery battery] else []
      let charge := if battery ≠ c.lastBattery then [.batteryChange battery] else []
      let altitude := demo.altitude
      let height := if altitude.same c.lastAltitude then [] else [.altitudeChange altitude]
      let c := { c with lastState := cstate, lastBattery := battery, lastAltitude := altitude }
      (c, states ++ low ++ charge ++ height)

end Client
end DroneParking
