import DroneParking.Js
import DroneParking.Library.Record

/-!
# AT commands and the queue that sends them

`AtCommandCreator.js` builds commands, `UdpControl.js` queues them and lets one
blocking command at a time through the acknowledgement handshake. A sent datagram
is kept as the list of its numbered commands; their text is made in `Datagrams`.
-/
namespace DroneParking

open Library (Record)

inductive AtType where
  | REF
  | PCMD
  | CTRL
  | CONFIG
  | FTRIM
  | CALIB
  deriving DecidableEq, Repr

/-- A command argument before serialisation. `floatString x` is `at.floatString(x)`,
the bit pattern of the 32-bit float. -/
inductive AtArg where
  | num (n : ℕ)
  | floatString (x : JsNumber)
  | text (s : String)
  deriving DecidableEq, Repr

/-- `AtCommand.js`, without the callback and the timeout that a command may carry. -/
structure AtCommand where
  type : AtType
  args : List AtArg
  blocks : Bool := false
  deriving DecidableEq, Repr

/-- The properties `Client._ref` can carry; an absent one is `undefined`. -/
structure Ref where
  fly : Option Bool := none
  emergency : Option Bool := none
  deriving DecidableEq, Repr

inductive PcmdKey where
  | up | down | left | right | front | back | clockwise | counterClockwise
  deriving DecidableEq, Repr

structure PcmdAlias where
  index : ℕ
  invert : Bool
  deriving DecidableEq, Repr

namespace AtCommandCreator

def REF_FLAGS.emergency : ℕ := 1 <<< 8
def REF_FLAGS.takeoff : ℕ := 1 <<< 9
def PCMD_FLAGS.progressive : ℕ := 1 <<< 0

def PCMD_ALIASES : PcmdKey → PcmdAlias
  | .left => ⟨1, true⟩
  | .right => ⟨1, false⟩
  | .front => ⟨2, true⟩
  | .back => ⟨2, false⟩
  | .up => ⟨3, false⟩
  | .down => ⟨3, true⟩
  | .clockwise => ⟨4, false⟩
  | .counterClockwise => ⟨4, true⟩

def ctrl (controlMode otherMode : ℕ) : AtCommand := ⟨.CTRL, [.num controlMode, .num otherMode], false⟩

def config (key value : String) : AtCommand :=
  ⟨.CONFIG, [.text ("\"" ++ key ++ "\""), .text ("\"" ++ value ++ "\"")], true⟩

def ftrim : AtCommand := ⟨.FTRIM, [], false⟩

def calibrate (device_num : ℕ) : AtCommand := ⟨.CALIB, [.num device_num], false⟩

def ref (options : Ref) : AtCommand :=
  let flags := 0
  let flags := if options.fly = some true then flags ||| REF_FLAGS.takeoff else flags
  let flags := if options.emergency = some true then flags ||| REF_FLAGS.emergency else flags
  ⟨.REF, [.num flags], false⟩

def orFlag (flag : ℕ) : AtArg → AtArg
  | .num n => .num (n ||| flag)
  | arg => arg

/-- One round of the loop over the options: place the value, raise the progressive flag. -/
def pcmdArg (args : List AtArg) (option : PcmdKey × JsNumber) : List AtArg :=
  let target := PCMD_ALIASES option.1
  let value := if target.invert then option.2.neg else option.2
  (args.set target.index (.floatString value)).modify 0 (orFlag PCMD_FLAGS.progressive)

def pcmd (options : Record PcmdKey JsNumber) : AtCommand :=
  ⟨.PCMD, options.entries.foldl pcmdArg [.num 0, .num 0, .num 0, .num 0, .num 0], false⟩

end AtCommandCreator

inductive BlockState where
  | NOT_BLOCKED
  | WAITING_FOR_ACK
  | WAITING_FOR_ACK_RESET
  deriving DecidableEq, Repr

/-- `UdpControl._blocked`; a timer field says whether that timer is running. -/
structure Blocked where
  state : BlockState := .NOT_BLOCKED
  cmd : Option AtCommand := none
  ackTimer : Bool := false
  ctrlTimer : Bool := false
  deriving DecidableEq, Repr

/-- `sent` records the datagrams handed to the socket, oldest first, each command with
the sequence number it was serialised with. -/
structure UdpControl where
  sequenceNumber : ℕ := 0
  cmds : List AtCommand := []
  blockingCmds : List AtCommand := []
  blocked : Blocked := {}
  sent : List (List (AtCommand × ℕ)) := []
  deriving DecidableEq, Repr

namespace UdpControl

def enqueue (u : UdpControl) (cmd : AtCommand) : UdpControl :=
  if cmd.blocks then { u with blockingCmds := u.blockingCmds ++ [cmd] }
  else { u with cmds := u.cmds ++ [cmd] }

def ref (u : UdpControl) (options : Ref) : UdpControl := u.enqueue (AtCommandCreator.ref options)
def pcmd (u : UdpControl) (options : Record PcmdKey JsNumber) : UdpControl :=
  u.enqueue (AtCommandCreator.pcmd options)
def ctrl (u : UdpControl) (a b : ℕ) : UdpControl := u.enqueue (AtCommandCreator.ctrl a b)
def config (u : UdpControl) (key value : String) : UdpControl :=
  u.enqueue (AtCommandCreator.config key value)
def calibrate (u : UdpControl) (device_num : ℕ) : UdpControl :=
  u.enqueue (AtCommandCreator.calibrate device_num)

/-- `_sendCommands`: one datagram, consecutive sequence numbers. -/
def sendCommands (u : UdpControl) (commands : List AtCommand) : UdpControl :=
  { u with
    sent := u.sent ++ [commands.zipIdx u.sequenceNumber]
    sequenceNumber := u.sequenceNumber + commands.length }

def flushCmds (u : UdpControl) : UdpControl :=
  if u.cmds = [] then u else { u.sendCommands u.cmds with cmds := [] }

/-- The next blocking command goes out only when no other one is being acknowledged. -/
def flushBlocking (u : UdpControl) : UdpControl :=
  if u.blocked.state = .NOT_BLOCKED then
    match u.blockingCmds with
    | [] => u
    | cmd :: rest =>
        { { u with blockingCmds := rest }.sendCommands [cmd] with
          blocked := { u.blocked with state := .WAITING_FOR_ACK, cmd := some cmd, ackTimer := true } }
  else u

def flush (u : UdpControl) : UdpControl := u.flushCmds.flushBlocking

def assert (b : Bool) : Except JsError Unit := if b then .ok () else .error .assertionError

def acked (u : UdpControl) : UdpControl :=
  let u := { u with blocked := { u.blocked with ackTimer := false, state := .WAITING_FOR_ACK_RESET } }
  let u := u.ctrl 5 0
  { u with blocked := { u.blocked with ctrlTimer := true } }

def released (u : UdpControl) : UdpControl :=
  { u with blocked := { u.blocked with cmd := none, state := .NOT_BLOCKED } }

def ack (u : UdpControl) : Except JsError UdpControl :=
  if u.blocked.state = .WAITING_FOR_ACK then do
    assert u.blocked.cmd.isSome
    assert u.blocked.ackTimer
    return u.acked
  else return u

def ackReset (u : UdpControl) : Except JsError UdpControl :=
  if u.blocked.state = .WAITING_FOR_ACK_RESET then do
    assert u.blocked.cmd.isSome
    return u.released
  else return u

def handleAckTimeout (u : UdpControl) : Except JsError UdpControl := do
  assert (u.blocked.state = .WAITING_FOR_ACK)
  assert u.blocked.ackTimer
  assert u.blocked.cmd.isSome
  return { u with blocked := { u.blocked with ackTimer := false } }.released

/-- The 50 ms interval tests `self.state`, a property the object does not have, so its
first firing clears it and no `CTRL` command is repeated. -/
def handleCtrlInterval (u : UdpControl) : UdpControl :=
  { u with blocked := { u.blocked with ctrlTimer := false } }

end UdpControl
end DroneParking
