import DroneParking.Client
import DroneParking.Reader
import DroneParking.Library.Document

/-!
# The options of a navdata packet

`NavdataReader.js` and the tables of `parseNavdata.js`: for each option the layout
of its bytes, in the order in which they are read, and the object made of it.
-/
namespace DroneParking

open Library (Bytes Document Word little signed)
open Library.Document (object)

inductive FlyState where
  | FLYING_OK | FLYING_LOST_ALT | FLYING_LOST_ALT_GO_DOWN | FLYING_ALT_OUT_ZONE
  | FLYING_COMBINED_YAW | FLYING_BRAKE | FLYING_NO_VISION
  deriving DecidableEq, Repr

def FLY_STATES : ℕ → Option FlyState
  | 0 => some .FLYING_OK
  | 1 => some .FLYING_LOST_ALT
  | 2 => some .FLYING_LOST_ALT_GO_DOWN
  | 3 => some .FLYING_ALT_OUT_ZONE
  | 4 => some .FLYING_COMBINED_YAW
  | 5 => some .FLYING_BRAKE
  | 6 => some .FLYING_NO_VISION
  | _ => none

def CONTROL_STATES : ℕ → Option ControlState
  | 0 => some .CTRL_DEFAULT
  | 1 => some .CTRL_INIT
  | 2 => some .CTRL_LANDED
  | 3 => some .CTRL_FLYING
  | 4 => some .CTRL_HOVERING
  | 5 => some .CTRL_TEST
  | 6 => some .CTRL_TRANS_TAKEOFF
  | 7 => some .CTRL_TRANS_GOTOFIX
  | 8 => some .CTRL_TRANS_LANDING
  | 9 => some .CTRL_TRANS_LOOPING
  | _ => none

/-- The values that an option holds. -/
inductive Reading where
  | number (x : JsNumber)
  | flag (b : Bool)
  | flyState (s : Option FlyState)
  | controlState (s : Option ControlState)
  deriving DecidableEq, Repr

/-- A word of so many bytes, the least significant first, and what is made of it. -/
structure Scalar where
  width : ℕ
  value : ℕ → Reading

def Scalar.read (s : Scalar) : ReadM Reading := do
  let n ← Reader.uint little s.width
  return s.value n

/-- `time` counts seconds in its first 11 bits and microseconds in the last 21. -/
def droneTimeToMilliSeconds (time : ℕ) : JsNumber :=
  let seconds := time >>> 21
  let microseconds := (time <<< 11 % 2 ^ 32) >>> 11
  ((JsNumber.finite microseconds).div 1000).addTo (seconds * 1000)

namespace NavdataReader

def scalar (width : ℕ) (value : ℕ → Reading) : Document Scalar := .leaf ⟨width, value⟩

def uint8 : Document Scalar := scalar 1 fun n => .number (.finite n)
def uint16 : Document Scalar := scalar 2 fun n => .number (.finite n)
def int16 : Document Scalar := scalar 2 fun n => .number (.finite (signed (256 ^ 2) n))
def uint32 : Document Scalar := scalar 4 fun n => .number (.finite n)
def int32 : Document Scalar := scalar 4 fun n => .number (.finite (signed (256 ^ 4) n))
def float32 : Document Scalar := scalar 4 fun n => .number (.ofBits 8 23 n)
def double64 : Document Scalar := scalar 8 fun n => .number (.ofBits 11 52 n)
def char : Document Scalar := uint8
def bool : Document Scalar := scalar 1 fun n => .flag (n != 0)

def matrix33 : Document Scalar := object [("m11", float32), ("m12", float32), ("m13", float32),
  ("m21", float32), ("m22", float32), ("m23", float32), ("m31", float32), ("m32", float32),
  ("m33", float32)]

def vector31 : Document Scalar := object [("x", float32), ("y", float32), ("z", float32)]

def screenPoint : Document Scalar := object [("x", int32), ("y", int32)]

end NavdataReader

/-- The results of reading the same thing `n` times. -/
def timesMap (n : ℕ) (item : Document Scalar) : Document Scalar := Document.array (List.replicate n item)

/-- What is read and, where that is not the object itself, what is made of it. -/
structure OptionParser where
  layout : Document Scalar
  result : Document Reading → Document Reading := id

namespace OptionParser

open NavdataReader

def flyState : Document Scalar := scalar 2 fun n => .flyState (FLY_STATES n)

def controlState : Document Scalar := scalar 2 fun n => .controlState (CONTROL_STATES n)

/-- `reader.float32() / 1000` -/
def float32PerMille : Document Scalar := scalar 4 fun n => .number ((JsNumber.ofBits 8 23 n).div 1000)

/-- `reader.int32() / 1000` -/
def int32PerMille : Document Scalar :=
  scalar 4 fun n => .number ((JsNumber.finite (signed (256 ^ 4) n)).div 1000)

def droneTime : Document Scalar := scalar 4 fun n => .number (droneTimeToMilliSeconds n)

def demo : OptionParser where
  layout := object [
    ("flyState", flyState),
    ("controlState", controlState),
    ("batteryPercentage", uint32),
    ("theta", float32PerMille),
    ("phi", float32PerMille),
    ("psi", float32PerMille),
    ("altitude", int32PerMille),
    ("velocity", vector31),
    ("frameIndex", uint32),
    ("detection", object [
      ("camera", object [("rotation", matrix33), ("translation", vector31)]),
      ("tagIndex", uint32)]),
    ("type", uint32),
    ("drone", object [("camera", object [("rotation", matrix33), ("translation", vector31)])])]
  result t :=
    let theta := t.pick ["theta"]
    let phi := t.pick ["phi"]
    let psi := t.pick ["psi"]
    let altitude := t.pick ["altitude"]
    object [
      ("controlState", t.pick ["controlState"]),
      ("flyState", t.pick ["flyState"]),
      ("batteryPercentage", t.pick ["batteryPercentage"]),
      ("rotation", object [
        ("frontBack", theta), ("pitch", theta), ("theta", theta), ("y", theta),
        ("leftRight", phi), ("roll", phi), ("phi", phi), ("x", phi),
        ("clockwise", psi), ("yaw", psi), ("psi", psi), ("z", psi)]),
      ("frontBackDegrees", theta),
      ("leftRightDegrees", phi),
      ("clockwiseDegrees", psi),
      ("altitude", altitude),
      ("altitudeMeters", altitude),
      ("velocity", t.pick ["velocity"]),
      ("xVelocity", t.pick ["velocity", "x"]),
      ("yVelocity", t.pick ["velocity", "y"]),
      ("zVelocity", t.pick ["velocity", "z"]),
      ("frameIndex", t.pick ["frameIndex"]),
      ("detection", object [
        ("camera", object [
          ("rotation", t.pick ["detection", "camera", "rotation"]),
          ("translation", t.pick ["detection", "camera", "translation"]),
          ("type", t.pick ["type"])]),
        ("tagIndex", t.pick ["detection", "tagIndex"])]),
      ("drone", t.pick ["drone"])]

def time : OptionParser where
  layout := droneTime

def rawMeasures : OptionParser where
  layout := object [
    ("accelerometers", object [("x", uint16), ("y", uint16), ("z", uint16)]),
    ("gyroscopes", object [("x", int16), ("y", int16), ("z", int16)]),
    ("gyroscopes110", object [("x", int16), ("y", int16)]),
    ("batteryMilliVolt", uint32),
    ("usEcho", object [
      ("start", uint16), ("end", uint16), ("association", uint16), ("distance", uint16)]),
    ("usCurve", object [("time", uint16), ("value", uint16), ("ref", uint16)]),
    ("echo", object [("flagIni", uint16), ("num", uint16), ("sum", uint32)]),
    ("altTemp", int32)]
  result t := object [
    ("accelerometers", t.pick ["accelerometers"]),
    ("gyroscopes", t.pick ["gyroscopes"]),
    ("gyrometers", t.pick ["gyroscopes"]),
    ("gyroscopes110", t.pick ["gyroscopes110"]),
    ("gyrometers110", Document.array [t.pick ["gyroscopes110", "x"], t.pick ["gyroscopes110", "y"]]),
    ("batteryMilliVolt", t.pick ["batteryMilliVolt"]),
    ("us", object [("echo", t.pick ["usEcho"]), ("curve", t.pick ["usCurve"])]),
    ("usDebutEcho", t.pick ["usEcho", "start"]),
    ("usFinEcho", t.pick ["usEcho", "end"]),
    ("usAssociationEcho", t.pick ["usEcho", "association"]),
    ("usDistanceEcho", t.pick ["usEcho", "distance"]),
    ("usCourbeTemps", t.pick ["usCurve", "time"]),
    ("usCourbeValeur", t.pick ["usCurve", "value"]),
    ("usCourbeRef", t.pick ["usCurve", "ref"]),
    ("echo", t.pick ["echo"]),
    ("flagEchoIni", t.pick ["echo", "flagIni"]),
    ("nbEcho", t.pick ["echo", "num"]),
    ("sumEcho", t.pick ["echo", "sum"]),
    ("altTemp", t.pick ["altTemp"]),
    ("altTempRaw", t.pick ["altTemp"])]

def physMeasures : OptionParser where
  layout := object [
    ("temperature", object [("accelerometer", float32), ("gyroscope", uint16)]),
    ("accelerometers", vector31),
    ("gyroscopes", vector31),
    ("alim3V3", uint32),
    ("vrefEpson", uint32),
    ("vrefIDG", uint32)]

def gyrosOffsets : OptionParser where
  layout := vector31

def eulerAngles : OptionParser where
  layout := object [("theta", float32), ("phi", float32)]

def references : OptionParser where
  layout := object [
    ("theta", int32), ("phi", int32), ("thetaI", int32), ("phiI", int32), ("pitch", int32),
    ("roll", int32), ("yaw", int32), ("psi", int32),
    ("vx", float32), ("vy", float32), ("thetaMod", float32), ("phiMod", float32),
    ("kVX", float32), ("kVY", float32), ("kMode", uint32),
    ("ui", object [
      ("time", float32), ("theta", float32), ("phi", float32), ("psi", float32),
      ("psiAccuracy", float32), ("seq", int32)])]

def trims : OptionParser where
  layout := object [
    ("angularRates", object [("r", float32)]),
    ("eulerAngles", object [("theta", float32), ("phi", float32)])]

def rcReferences : OptionParser where
  layout := object [
    ("pitch", int32), ("roll", int32), ("yaw", int32), ("gaz", int32), ("ag", int32)]

def pwm : OptionParser where
  layout := object [
    ("motors", timesMap 4 uint8),
    ("satMotors", timesMap 4 uint8),
    ("gazFeedForward", float32),
    ("gazAltitude", float32),
    ("altitudeIntegral", float32),
    ("vzRef", float32),
    ("uPitch", int32),
    ("uRoll", int32),
    ("uYaw", int32),
    ("yawUI", float32),
    ("uPitchPlanif", int32),
    ("uRollPlanif", int32),
    ("uYawPlanif", int32),
    ("uGazPlanif", float32),
    ("motorCurrents", timesMap 4 uint16),
    ("altitudeProp", float32),
    ("altitudeDer", float32)]

def altitude : OptionParser where
  layout := object [
    ("vision", int32),
    ("velocity", float32),
    ("ref", int32),
    ("raw", int32),
    ("observer", object [
      ("acceleration", float32), ("altitude", float32), ("x", vector31), ("state", uint32)]),
    ("estimated", object [("vb", object [("x", float32), ("y", float32)]), ("state", uint32)])]

def visionRaw : OptionParser where
  layout := object [("tx", float32), ("ty", float32), ("tz", float32)]

def visionOf : OptionParser where
  layout := object [("dx", timesMap 5 float32), ("dy", timesMap 5 float32)]

def vision : OptionParser where
  layout := object [
    ("state", uint32),
    ("misc", int32),
    ("phi", object [("trim", float32), ("refProp", float32)]),
    ("theta", object [("trim", float32), ("refProp", float32)]),
    ("newRawPicture", int32),
    ("capture", object [
      ("theta", float32), ("phi", float32), ("psi", float32), ("altitude", int32),
      ("time", droneTime)]),
    ("bodyV", vector31),
    ("delta", object [("phi", float32), ("theta", float32), ("psi", float32)]),
    ("gold", object [("defined", uint32), ("reset", uint32), ("x", float32), ("y", float32)])]

def visionPerf : OptionParser where
  layout := object [
    ("szo", float32), ("corners", float32), ("compute", float32), ("tracking", float32),
    ("trans", float32), ("update", float32), ("custom", timesMap 20 float32)]

def trackersSend : OptionParser where
  layout := object [("locked", timesMap 30 int32), ("point", timesMap 30 screenPoint)]

def visionDetect : OptionParser where
  layout := object [
    ("nbDetected", uint32),
    ("type", timesMap 4 uint32),
    ("xc", timesMap 4 uint32),
    ("yc", timesMap 4 uint32),
    ("width", timesMap 4 uint32),
    ("height", timesMap 4 uint32),
    ("dist", timesMap 4 uint32),
    ("orientationAngle", timesMap 4 float32),
    ("rotation", timesMap 4 matrix33),
    ("translation", timesMap 4 vector31),
    ("cameraSource", timesMap 4 uint32)]

def watchdog : OptionParser where
  layout := uint32

def adcDataFrame : OptionParser where
  layout := object [("version", uint32), ("dataFrame", timesMap 32 uint8)]

def videoStream : OptionParser where
  layout := object [
    ("quant", uint8),
    ("frame", object [("size", uint32), ("number", uint32)]),
    ("atcmd", object [
      ("sequence", uint32), ("meanGap", uint32), ("varGap", float32), ("quality", uint32)]),
    ("bitrate", object [("out", uint32), ("desired", uint32)]),
    ("data", timesMap 5 int32),
    ("tcpQueueLevel", uint32),
    ("fifoQueueLevel", uint32)]

def games : OptionParser where
  layout := object [("counters", object [("doubleTap", uint32), ("finishLine", uint32)])]

def pressureRaw : OptionParser where
  layout := object [("up", int32), ("ut", int16), ("temperature", int32), ("pressure", int32)]

def magneto : OptionParser where
  layout := object [
    ("mx", int16),
    ("my", int16),
    ("mz", int16),
    ("raw", vector31),
    ("rectified", vector31),
    ("offset", vector31),
    ("heading", object [
      ("unwrapped", float32), ("gyroUnwrapped", float32), ("fusionUnwrapped", float32)]),
    ("ok", char),
    ("state", uint32),
    ("radius", float32),
    ("error", object [("mean", float32), ("variance", float32)])]

def windSpeed : OptionParser where
  layout := object [
    ("speed", float32),
    ("angle", float32),
    ("compensation", object [("theta", float32), ("phi", float32)]),
    ("stateX", timesMap 6 float32),
    ("debug", timesMap 3 float32)]

def kalmanPressure : OptionParser where
  layout := object [
    ("offsetPressure", float32),
    ("estimated", object [
      ("altitude", float32),
      ("velocity", float32),
      ("angle", object [("pwm", float32), ("pressure", float32)]),
      ("us", object [("offset", float32), ("prediction", float32)]),
      ("covariance", object [("alt", float32), ("pwm", float32), ("velocity", float32)]),
      ("groundEffect", bool),
      ("sum", float32),
      ("reject", bool),
      ("uMultisinus", float32),
      ("gazAltitude", float32),
      ("flagMultisinus", bool),
      ("flagMultisinusStart", bool)])]

def hdvideoStream : OptionParser where
  layout := object [
    ("hdvideoState", uint32),
    ("storageFifo", object [("nbPackets", uint32), ("size", uint32)]),
    ("usbkey", object [("size", uint32), ("freespace", uint32)]),
    ("frameNumber", uint32),
    ("remainingTime", uint32)]
  result t := object [
    ("hdvideoState", t.pick ["hdvideoState"]),
    ("storageFifo", t.pick ["storageFifo"]),
    ("usbkey", object [
      ("size", t.pick ["usbkey", "size"]),
      ("freespace", t.pick ["usbkey", "freespace"]),
      ("remainingTime", t.pick ["remainingTime"])]),
    ("frameNumber", t.pick ["frameNumber"])]

def wifi : OptionParser where
  layout := object [("linkQuality", scalar 4 fun n => .number ((JsNumber.ofBits 8 23 n).subFrom 1))]

def gps : OptionParser where
  layout := object [
    ("latitude", double64),
    ("longitude", double64),
    ("elevation", double64),
    ("hdop", double64),
    ("dataAvailable", int32),
    ("zeroValidated", int32),
    ("wptValidated", int32),
    ("lat0", double64),
    ("lon0", double64),
    ("latFuse", double64),
    ("lonFuse", double64),
    ("gpsState", uint32),
    ("xTraj", float32),
    ("xRef", float32),
    ("yTraj", float32),
    ("yRef", float32),
    ("thetaP", float32),
    ("phiP", float32),
    ("thetaI", float32),
    ("phiI", float32),
    ("thetaD", float32),
    ("phiD", float32),
    ("vdop", double64),
    ("pdop", double64),
    ("speed", float32),
    ("lastFrameTimestamp", droneTime),
    ("degree", float32),
    ("degreeMag", float32),
    ("ehpe", float32),
    ("ehve", float32),
    ("c_n0", float32),
    ("ephemerisStatus", uint32),
    ("vxTraj", float32),
    ("vyTraj", float32),
    ("firmwareStatus", uint32)]

end OptionParser

/-- The names in `OPTION_IDS`. -/
inductive OptionName where
  | demo | time | rawMeasures | physMeasures | gyrosOffsets | eulerAngles | references | trims
  | rcReferences | pwm | altitude | visionRaw | visionOf | vision | visionPerf | trackersSend
  | visionDetect | watchdog | adcDataFrame | videoStream | games | pressureRaw | magneto | windSpeed
  | kalmanPressure | hdvideoStream | wifi | gps | checksum
  deriving DecidableEq, Repr

def OPTION_IDS : ℕ → Option OptionName
  | 0 => some .demo
  | 1 => some .time
  | 2 => some .rawMeasures
  | 3 => some .physMeasures
  | 4 => some .gyrosOffsets
  | 5 => some .eulerAngles
  | 6 => some .references
  | 7 => some .trims
  | 8 => some .rcReferences
  | 9 => some .pwm
  | 10 => some .altitude
  | 11 => some .visionRaw
  | 12 => some .visionOf
  | 13 => some .vision
  | 14 => some .visionPerf
  | 15 => some .trackersSend
  | 16 => some .visionDetect
  | 17 => some .watchdog
  | 18 => some .adcDataFrame
  | 19 => some .videoStream
  | 20 => some .games
  | 21 => some .pressureRaw
  | 22 => some .magneto
  | 23 => some .windSpeed
  | 24 => some .kalmanPressure
  | 25 => some .hdvideoStream
  | 26 => some .wifi
  | 27 => some .gps
  | 65535 => some .checksum
  | _ => none

def OPTION_PARSERS : OptionName → Option OptionParser
  | .demo => some .demo
  | .time => some .time
  | .rawMeasures => some .rawMeasures
  | .physMeasures => some .physMeasures
  | .gyrosOffsets => some .gyrosOffsets
  | .eulerAngles => some .eulerAngles
  | .references => some .references
  | .trims => some .trims
  | .rcReferences => some .rcReferences
  | .pwm => some .pwm
  | .altitude => some .altitude
  | .visionRaw => some .visionRaw
  | .visionOf => some .visionOf
  | .vision => some .vision
  | .visionPerf => some .visionPerf
  | .trackersSend => some .trackersSend
  | .visionDetect => some .visionDetect
  | .watchdog => some .watchdog
  | .adcDataFrame => some .adcDataFrame
  | .videoStream => some .videoStream
  | .games => some .games
  | .pressureRaw => some .pressureRaw
  | .magneto => some .magneto
  | .windSpeed => some .windSpeed
  | .kalmanPressure => some .kalmanPressure
  | .hdvideoStream => some .hdvideoStream
  | .wifi => some .wifi
  | .gps => some .gps
  | .checksum => none

end DroneParking
