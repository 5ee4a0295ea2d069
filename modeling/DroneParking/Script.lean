import DroneParking.Client
import DroneParking.Library.Effects
import DroneParking.Library.Run

/-!
# The node script

`DroneParkingSystem.js`: the data handler of the socket server, the navdata
listener and the timers, each as a computation on the variables they share. A
thrown exception keeps the state the callback had reached.
-/
namespace DroneParking

inductive ClientCall where
  | takeoff | land | stop
  | front (speed : JsNumber) | back (speed : JsNumber)
  | left (speed : JsNumber) | right (speed : JsNumber)
  deriving DecidableEq, Repr

def ClientCall.run : ClientCall → Client → Client
  | .takeoff, c => c.takeoff
  | .land, c => c.land
  | .stop, c => c.stop
  | .front speed, c => c.front speed
  | .back speed, c => c.back speed
  | .left speed, c => c.left speed
  | .right speed, c => c.right speed

inductive Timer where
  | calibrate | listen | autoLand
  deriving DecidableEq, Repr

/-- The script's variables, its client, whether the navdata listener is registered, the
timers still running with their due times, and the client calls made, oldest first. -/
structure Node where
  markerFound : Bool
  arrayIndex : ℕ
  array : List JsString
  currentDestinationLatitude : Option JsString
  currentDestinationLongitude : Option JsString
  client : Client
  listening : Bool
  timers : List (ℕ × Timer)
  calls : List ClientCall
  deriving DecidableEq, Repr

structure Position where
  latitude : JsNumber
  longitude : JsNumber
  deriving DecidableEq, Repr

/-- The bindings of the two identifiers that the listener reads and no `var` declares. -/
structure Scope where
  latitude : Option JsNumber
  longitude : Option JsNumber

/-- What the language supplies: `ToNumber` on strings and the resolution of the free
identifiers, which may depend on where the drone is. -/
structure Runtime where
  toNumber : JsString → JsNumber
  scope : Position → Scope

/-- The script as it is written: nothing binds `latitude` or `longitude`. -/
def Runtime.asWritten (toNumber : JsString → JsNumber) : Runtime := ⟨toNumber, fun _ => ⟨none, none⟩⟩

/-- The script with the two identifiers read as the drone's position. -/
def Runtime.atPosition (toNumber : JsString → JsNumber) : Runtime :=
  ⟨toNumber, fun p => ⟨some p.latitude, some p.longitude⟩⟩

/-- `s == x` for an array element `s`: `undefined` equals no number. -/
def Runtime.looseEq (rt : Runtime) (s : Option JsString) (x : JsNumber) : Bool :=
  match s with
  | none => false
  | some s => (rt.toNumber s).same x

abbrev Script := EStateM JsError Node

def speed : JsNumber := .finite (1 / 20)

namespace Node

def call (n : Node) (c : ClientCall) : Node :=
  { n with client := c.run n.client, calls := n.calls ++ [c] }

/-- `client.after(duration, fn)`: durations add up. -/
def after (n : Node) (duration : ℕ) (fn : Timer) : Node :=
  { n with
    timers := n.timers ++ [(n.client.afterOffset + duration, fn)]
    client := { n.client with afterOffset := n.client.afterOffset + duration } }

/-- The script's top level, run with the text of `coordinates.txt`. -/
def start (coordinates : JsString) : Node :=
  let array := coordinates.splitOn '\n'
  let client := (Client.create.config "general:navdata_options" "777060865").config
    "control:altitude_max" "3000"
  let n : Node := {
    markerFound := false
    arrayIndex := 1
    array
    currentDestinationLatitude := array[0]?
    currentDestinationLongitude := array[1]?
    client
    listening := false
    timers := []
    calls := [] }
  ((n.after 2500 .calibrate).after 100 .listen).after 6000 .autoLand

def nextDestination (n : Node) : Node :=
  -- an index past the end reads `undefined`
  if (n.arrayIndex : ℤ) ≠ n.array.length - 1 then
    { n with
      currentDestinationLatitude := n.array[n.arrayIndex + 1]?
      currentDestinationLongitude := n.array[n.arrayIndex + 2]?
      arrayIndex := n.arrayIndex + 2 }
  else n

end Node

def call (c : ClientCall) : Script Unit := modify (·.call c)

@[simp] theorem call_apply (c : ClientCall) (n : Node) : call c n = .ok () (n.call c) := rfl

def switchData (data : JsString) : Script Unit :=
  if data = "drone_upleft".toList then do
    call (.front speed)
    call (.left speed)
  else if data = "drone_upright".toList then do
    call (.front speed)
    call (.right speed)
  else if data = "drone_downleft".toList then do
    call (.back speed)
    call (.left speed)
  else if data = "drone_downright".toList then do
    call (.back speed)
    call (.right speed)
  else if data = "drone_center".toList then call .stop
  else pure ()

def onWord (data : JsString) (word : String) (action : Script Unit) : Script Unit :=
  if data = word.toList then action else pure ()

/-- `socket.on('data', …)` -/
def dataHandler (chunk : JsString) : Script Unit := do
  let data := chunk.trim
  switchData data
  onWord data "drone_takeoff" (call .takeoff)
  onWord data "drone_stop" (call .stop)
  onWord data "drone_land" (call .land)
  onWord data "drone_found" (modify fun n => { n with markerFound := true })
  onWord data "drone_carFound" (call .land)

def resolve (name : String) : Option JsNumber → Script JsNumber
  | some x => pure x
  | none => throw (.referenceError name)

/-- `currentDestinationLatitude == latitude && currentDestinationLongitude == longitude` -/
def atDestination (rt : Runtime) (position : Position) : Script Bool := do
  let latitude ← resolve "latitude" (rt.scope position).latitude
  if rt.looseEq (← get).currentDestinationLatitude latitude then
    let longitude ← resolve "longitude" (rt.scope position).longitude
    return rt.looseEq (← get).currentDestinationLongitude longitude
  else return false

def checkMagneto (data : Navdata) : Script Unit := do
  match data.magneto with
  | none => pure ()
  | some magneto =>
      match data.demo with
      | none => throw (.typeError "altitude")
      | some demo =>
          if demo.altitude.ge 2 then
            call .land
            call .stop
          -- the turns themselves are commented out, so either branch does nothing
          if magneto.fusionUnwrapped.ge 5 then pure ()
          else if magneto.fusionUnwrapped.le (-5) then pure ()
          else call .stop

/-- `this.on('navdata', …)` -/
def navdataListener (rt : Runtime) (data : Navdata) (position : Position) : Script Unit := do
  if !(← get).markerFound then
    if ← atDestination rt position then
      modify Node.nextDestination
    checkMagneto data

def liftClient (f : Client → Except JsError Client) : Script Unit := fun n =>
  match f n.client with
  | .ok c => .ok () { n with client := c }
  | .error e => .error e n

/-- `Client._handleNavdata`, with the script's listener as the only one for `navdata`; the
events of `_processNavdata` reach no listener that does anything. -/
def handleNavdata (rt : Runtime) (data : Navdata) (position : Position) : Script Unit := do
  modify fun n => { n with client := n.client.refreshEmergency data }
  liftClient (·.acknowledge data)
  if (← get).listening then navdataListener rt data position
  modify fun n => { n with client := (n.client.processNavdata data).1 }

def runTimer : Timer → Script Unit
  -- `client.calibrate(0)` is commented out
  | .calibrate => pure ()
  | .listen => modify fun n => { n with listening := true }
  | .autoLand => call .land

def fireTimer (fn : Timer) : Script Unit := do
  modify fun n => { n with timers := n.timers.filter (·.2 ≠ fn) }
  runTimer fn

inductive Event where
  | data (connection : ℕ) (chunk : JsString)
  | navdata (data : Navdata) (position : Position)
  | timeout (fn : Timer)
  | tick
  | ackTimeout
  | ctrlInterval
  deriving DecidableEq, Repr

def handle (rt : Runtime) : Event → Script Unit
  | .data _ chunk => dataHandler chunk
  | .navdata data position => handleNavdata rt data position
  | .timeout fn => fireTimer fn
  | .tick => modify fun n => { n with client := n.client.sendCommands }
  | .ackTimeout => liftClient fun c => return { c with udpControl := ← c.udpControl.handleAckTimeout }
  | .ctrlInterval => modify fun n =>
      { n with client := { n.client with udpControl := n.client.udpControl.handleCtrlInterval } }

/-- A timer fires only while it runs. Due times restrict the order further; every order is
allowed here. The interval may fire at any time: one whose handle was overwritten still runs. -/
def Event.CanOccur (n : Node) : Event → Prop
  | .timeout fn => fn ∈ n.timers.map Prod.snd
  | .ackTimeout => n.client.udpControl.blocked.ackTimer = true
  | .data _ _ | .navdata _ _ | .tick | .ctrlInterval => True

/-- One event whose callback completes. An exception ends the process, so no step follows it. -/
def Step (rt : Runtime) (n : Node) (e : Event) (n' : Node) : Prop :=
  e.CanOccur n ∧ handle rt e n = .ok () n'

abbrev NodeRun (rt : Runtime) (coordinates : JsString) :=
  Library.Run (Step rt) (Node.start coordinates)

end DroneParking
