import Mathlib.Data.Nat.Bitwise
import DroneParking.Options
import DroneParking.Library.Record

/-!
# Navdata packets

`parseNavdata.js`: a header of four words, then options with an id, a length and a
payload each, up to the option with the checksum.
-/
namespace DroneParking

open Library (Bytes Document Record little toLittle bind_apply)

def NAVDATA_HEADER1 : ℕ := 0x55667788
def NAVDATA_HEADER2 : ℕ := 0x55667789

def DRONE_STATES : List (String × ℕ) := [
  ("flying", 1 <<< 0),
  ("videoEnabled", 1 <<< 1),
  ("visionEnabled", 1 <<< 2),
  ("controlAlgorithm", 1 <<< 3),
  ("altitudeControlAlgorithm", 1 <<< 4),
  ("startButtonState", 1 <<< 5),
  ("controlCommandAck", 1 <<< 6),
  ("cameraReady", 1 <<< 7),
  ("travellingEnabled", 1 <<< 8),
  ("usbReady", 1 <<< 9),
  ("navdataDemo", 1 <<< 10),
  ("navdataBootstrap", 1 <<< 11),
  ("motorProblem", 1 <<< 12),
  ("communicationLost", 1 <<< 13),
  ("softwareFault", 1 <<< 14),
  ("lowBattery", 1 <<< 15),
  ("userEmergencyLanding", 1 <<< 16),
  ("timerElapsed", 1 <<< 17),
  ("MagnometerNeedsCalibration", 1 <<< 18),
  ("anglesOutOfRange", 1 <<< 19),
  ("tooMuchWind", 1 <<< 20),
  ("ultrasonicSensorDeaf", 1 <<< 21),
  ("cutoutDetected", 1 <<< 22),
  ("picVersionNumberOk", 1 <<< 23),
  ("atCodecThreadOn", 1 <<< 24),
  ("navdataThreadOn", 1 <<< 25),
  ("videoThreadOn", 1 <<< 26),
  ("acquisitionThreadOn", 1 <<< 27),
  ("controlWatchdogDelay", 1 <<< 28),
  ("adcWatchdogDelay", 1 <<< 29),
  ("comWatchdogProblem", 1 <<< 30),
  ("emergencyLanding", 1 <<< 31)]

def NavdataReader.mask (mask : List (String × ℕ)) (value : ℕ) : List (String × ℕ) :=
  mask.map fun flag => (flag.1, if value &&& flag.2 ≠ 0 then 1 else 0)

def NavdataReader.mask32 (mask : List (String × ℕ)) : ReadM (List (String × ℕ)) := do
  let value ← Reader.uint32LE
  return NavdataReader.mask mask value

inductive NavdataError where
  | invalidHeader (header : ℕ)
  | invalidChecksum (expected got : ℕ)
  | buffer (e : BufferError)
  deriving DecidableEq, Repr

def hexadecimal (n : ℕ) : JsString := Nat.toDigits 16 n

/-- The texts of its own errors; the others have those of the runtime. -/
def NavdataError.message : NavdataError → Option JsString
  | .invalidHeader header => some ("Invalid header: 0x".toList ++ hexadecimal header)
  | .invalidChecksum expected got => some ("Invalid checksum, expected: ".toList ++ decimal expected ++
      ", got: ".toList ++ decimal got)
  | .buffer _ => none

inductive OptionValue where
  | parsed (value : Document Reading)
  | error (message : JsString)
  deriving DecidableEq, Repr

/-- Only an id outside the table has no parser here, so the name is `undefined`. -/
def OptionValue.notImplemented (optionId : ℕ) : OptionValue :=
  .error ("Option not implemented yet: undefined (0x".toList ++ hexadecimal optionId ++ ")".toList)

/-- What a packet is parsed to. The property of an option without a name is `undefined`. -/
structure ParsedNavdata where
  header : ℕ
  droneState : List (String × ℕ)
  sequenceNumber : ℕ
  visionFlag : ℕ
  options : Record (Option OptionName) OptionValue := .empty
  deriving DecidableEq, Repr

abbrev NavdataM := EStateM NavdataError Reader

section Embedding
variable {α : Type}

/-- A read of the packet itself. -/
def here (x : ReadM α) : NavdataM α := fun r =>
  match x r with
  | .ok a r' => .ok a r'
  | .error e r' => .error (.buffer e) r'

/-- A read of `new NavdataReader(payload)`. -/
def inside (payload : Bytes) (x : ReadM α) : NavdataM α := fun r =>
  match x { buffer := payload } with
  | .ok a _ => .ok a r
  | .error e _ => .error (.buffer e) r

end Embedding

def OptionParser.read (parser : OptionParser) : ReadM (Document Reading) := do
  let t ← parser.layout.traverse Scalar.read
  return parser.result t

/-- `buffer[0] + … + buffer[end - 1]` -/
def byteSum (l : Bytes) : ℕ := (l.map UInt8.toNat).sum

/-- What is made of an option; there is none when the checksum was right and the loop is left. -/
def parsePayload (buffer : Bytes) (navdata : ParsedNavdata) (optionId length : ℕ) (payload : Bytes) :
    NavdataM (Option ParsedNavdata) := do
  let optionName := OPTION_IDS optionId
  if optionName = some .checksum then
    let expectedChecksum := byteSum (buffer.take (buffer.length - length))
    let checksum ← inside payload Reader.uint32LE
    if checksum = expectedChecksum then return none
    else throw (.invalidChecksum expectedChecksum checksum)
  else
    match optionName.bind OPTION_PARSERS with
    | some parser =>
        let value ← inside payload parser.read
        return some { navdata with options := navdata.options.set optionName (.parsed value) }
    | none =>
        let value := OptionValue.notImplemented optionId
        return some { navdata with options := navdata.options.set optionName value }

def parseOption (buffer : Bytes) (navdata : ParsedNavdata) : NavdataM (Option ParsedNavdata) := do
  let optionId ← here Reader.uint16LE
  let length ← here Reader.uint16LE
  -- length includes header size (4 bytes)
  let payload ← here (Reader.readBuffer ((length : ℤ) - 4))
  parsePayload buffer navdata optionId length payload

/-- `while (true)`, with no result when the fuel is used up. -/
def parseOptions (buffer : Bytes) : ℕ → ParsedNavdata → NavdataM (Option ParsedNavdata)
  | 0, _ => return none
  | fuel + 1, navdata => do
      match ← parseOption buffer navdata with
      | some navdata => parseOptions buffer fuel navdata
      | none => return some navdata

def parsePacket (buffer : Bytes) : NavdataM (Option ParsedNavdata) := do
  let header ← here Reader.uint32LE
  if header ≠ NAVDATA_HEADER1 ∧ header ≠ NAVDATA_HEADER2 then throw (.invalidHeader header)
  let droneState ← here (NavdataReader.mask32 DRONE_STATES)
  let sequenceNumber ← here Reader.uint32LE
  let visionFlag ← here Reader.uint32LE
  parseOptions buffer buffer.length { header, droneState, sequenceNumber, visionFlag }

/-- The bytes of the packet are fuel enough: there is always a result. -/
def parseNavdata (buffer : Bytes) : Except NavdataError (Option ParsedNavdata) :=
  match parsePacket buffer { buffer } with
  | .ok navdata _ => .ok navdata
  | .error e _ => .error e

section Reading
variable {α : Type} {r r' : Reader} {l : Bytes}

theorem here_ok {x : ReadM α} {a : α} (h : x r = .ok a r') : here x r = .ok a r' := by
  rw [here, h]

theorem here_error {x : ReadM α} {e : BufferError} (h : x r = .error e r') :
    here x r = .error (.buffer e) r' := by
  rw [here, h]

theorem inside_ok {x : ReadM α} {a : α} (h : x { buffer := l } = .ok a r') :
    inside l x r = .ok a r := by
  rw [inside, h]

theorem inside_error {x : ReadM α} {e : BufferError} (h : x { buffer := l } = .error e r') :
    inside l x r = .error (.buffer e) r := by
  rw [inside, h]

/-- The words of an option, in their places. -/
abbrev Words := Document (Library.Word Scalar.width)

def Words.readings (t : Words) : Document Reading := t.map fun w => w.kind.value w.value

def OptionParser.size (parser : OptionParser) : ℕ := parser.layout.size Scalar.width

def OptionParser.words (parser : OptionParser) (payload : Bytes) : Words :=
  parser.layout.scan Scalar.width payload

theorem takes_scalar (w : Library.Word Scalar.width) :
    Reader.Takes w.kind.read w.bytes (w.kind.value w.value) := by
  rw [← List.append_nil w.bytes]
  exact (Reader.takes_little w.bound).bind (.pure _)

theorem takes_layout (t : Words) :
    Reader.Takes (t.shape.traverse Scalar.read) t.bytes t.readings :=
  Library.Consumption.traverse ⟨Reader.Takes, .pure, .bind⟩ takes_scalar t

theorem layout_read (layout : Document Scalar) {r : Reader} (h : r.Within)
    (enough : layout.size Scalar.width ≤ r.unread.length) : layout.traverse Scalar.read r =
      .ok (Words.readings (layout.scan Scalar.width r.unread)) (r.advance (layout.size Scalar.width)) := by
  have shape : (layout.scan Scalar.width r.unread).shape = layout := Document.shape_scan _ _
  have bytes := Document.bytes_scan enough
  have taken := takes_layout (layout.scan Scalar.width r.unread) r
    (r.unread.drop (layout.size Scalar.width)) h (by rw [bytes, List.take_append_drop])
  rwa [shape, bytes, List.length_take_of_le enough] at taken

/-- Whether the bytes end in the first part or in the second, they end. -/
theorem pair_short {value rest : Document Scalar} (x : Document Reading → Document Reading → Document Reading)
    (first : ∀ {r : Reader}, r.Within → r.unread.length < value.size Scalar.width →
      ∃ r', value.traverse Scalar.read r = .error .rangeError r')
    (second : ∀ {r : Reader}, r.Within → r.unread.length < rest.size Scalar.width →
      ∃ r', rest.traverse Scalar.read r = .error .rangeError r')
    (h : r.Within) (short : r.unread.length < value.size Scalar.width + rest.size Scalar.width) :
    ∃ r', (do
      let v ← value.traverse Scalar.read
      let t ← rest.traverse Scalar.read
      return x v t : ReadM (Document Reading)) r = .error .rangeError r' := by
  by_cases early : r.unread.length < value.size Scalar.width
  · obtain ⟨r', failed⟩ := first h early
    exact ⟨r', by rw [bind_apply, failed]⟩
  · have enough := Nat.le_of_not_lt early
    obtain ⟨r', failed⟩ := second (h.advance enough) (by
      rw [Reader.unread_advance, List.length_drop]
      omega)
    refine ⟨r', ?_⟩
    rw [bind_apply, layout_read value h enough]
    simp only [bind_apply, failed]

theorem layout_short (layout : Document Scalar) {r : Reader} (h : r.Within)
    (short : r.unread.length < layout.size Scalar.width) :
    ∃ r', layout.traverse Scalar.read r = .error .rangeError r' := by
  induction layout generalizing r with
  | leaf s =>
      have := h.length_unread
      have width : r.unread.length < s.width := short
      refine ⟨r.advance s.width, ?_⟩
      change (do let v ← s.read; return Document.leaf v : ReadM (Document Reading)) r = _
      unfold Scalar.read
      simp only [bind_apply, Reader.uint_beyond little (n := s.width) (r := r) (by omega)]
  | empty => exact absurd short (Nat.not_lt_zero _)
  | field name value rest first second => exact pair_short (.field name) first second h short
  | item value rest first second => exact pair_short .item first second h short

theorem OptionParser.read_ok (parser : OptionParser) (h : parser.size ≤ l.length) :
    ∃ r', parser.read { buffer := l } = .ok (parser.result (parser.words l).readings) r' := by
  have read := layout_read parser.layout (r := { buffer := l }) (Nat.zero_le _) h
  refine ⟨({ buffer := l } : Reader).advance parser.size, ?_⟩
  unfold OptionParser.read
  rw [bind_apply, read]
  rfl

theorem OptionParser.read_short (parser : OptionParser) (h : l.length < parser.size) :
    ∃ r', parser.read { buffer := l } = .error .rangeError r' := by
  obtain ⟨r', failed⟩ := layout_short parser.layout (r := { buffer := l }) (Nat.zero_le _) h
  exact ⟨r', by unfold OptionParser.read; rw [bind_apply, failed]⟩

end Reading

/-- An option that the loop goes on after. -/
structure PacketOption where
  id : ℕ
  payload : Bytes
  small : id < 2 ^ 16
  other : OPTION_IDS id ≠ some .checksum
  short : payload.length + 4 < 2 ^ 16
  enough : ∀ parser, (OPTION_IDS id).bind OPTION_PARSERS = some parser → parser.size ≤ payload.length

namespace PacketOption

def bytes (o : PacketOption) : Bytes :=
  toLittle 2 o.id ++ (toLittle 2 (o.payload.length + 4) ++ o.payload)

def value (o : PacketOption) : OptionValue :=
  match (OPTION_IDS o.id).bind OPTION_PARSERS with
  | some parser => .parsed (parser.result (parser.words o.payload).readings)
  | none => .notImplemented o.id

theorem length_bytes (o : PacketOption) : o.bytes.length = o.payload.length + 4 := by
  simp only [bytes, List.length_append, Library.length_toLittle]
  omega

end PacketOption

def ParsedNavdata.add (navdata : ParsedNavdata) (o : PacketOption) : ParsedNavdata :=
  { navdata with options := navdata.options.set (OPTION_IDS o.id) o.value }

/-- The head of the option with the checksum, which has `length` bytes. -/
def checksumHead (length : ℕ) : Bytes := toLittle 2 65535 ++ toLittle 2 length

section Options
variable {buffer payload rest : Bytes} {navdata : ParsedNavdata} {r : Reader} {optionId length : ℕ}

theorem parsePayload_option (o : PacketOption) : parsePayload buffer navdata o.id length o.payload r =
    .ok (some (navdata.add o)) r := by
  unfold parsePayload
  simp only [o.other, if_false]
  unfold ParsedNavdata.add PacketOption.value
  cases known : (OPTION_IDS o.id).bind OPTION_PARSERS with
  | none => rfl
  | some parser =>
      obtain ⟨_, read⟩ := parser.read_ok (o.enough parser known)
      simp only [bind_apply, inside_ok read, Library.pure_apply]

theorem parsePayload_checksum (id : OPTION_IDS optionId = some .checksum) (enough : 4 ≤ payload.length) :
    parsePayload buffer navdata optionId length payload r =
      if little (payload.take 4) = byteSum (buffer.take (buffer.length - length)) then .ok none r
      else .error (.invalidChecksum (byteSum (buffer.take (buffer.length - length)))
        (little (payload.take 4))) r := by
  have read : Reader.uint32LE { buffer := payload } = _ :=
    Reader.uint_apply little (r := { buffer := payload }) (Nat.zero_le _) enough
  unfold parsePayload
  simp only [id, if_true, bind_apply, inside_ok read, Library.if_apply, Library.pure_apply,
    Library.throw_apply]
  rfl

theorem parsePayload_cases (buffer : Bytes) (navdata : ParsedNavdata) (optionId length : ℕ)
    (payload : Bytes) (r : Reader) :
    (OPTION_IDS optionId = some .checksum ∧ 4 ≤ payload.length) ∨
    (OPTION_IDS optionId ≠ some .checksum ∧
      ∀ parser, (OPTION_IDS optionId).bind OPTION_PARSERS = some parser → parser.size ≤ payload.length) ∨
    ∃ r', parsePayload buffer navdata optionId length payload r = .error (.buffer .rangeError) r' := by
  by_cases id : OPTION_IDS optionId = some .checksum
  · by_cases enough : 4 ≤ payload.length
    · exact .inl ⟨id, enough⟩
    · have failed : Reader.uint32LE { buffer := payload } = .error .rangeError _ :=
        Reader.uint_beyond little (r := { buffer := payload }) (by
          simp only
          omega)
      refine .inr (.inr ⟨r, ?_⟩)
      unfold parsePayload
      simp only [id, if_true, bind_apply, inside_error failed]
  · refine .inr ?_
    cases known : (OPTION_IDS optionId).bind OPTION_PARSERS with
    | none => exact .inl ⟨id, fun _ h => nomatch h⟩
    | some parser =>
        by_cases enough : parser.size ≤ payload.length
        · refine .inl ⟨id, ?_⟩
          rintro _ ⟨⟩
          exact enough
        · obtain ⟨_, failed⟩ := parser.read_short (Nat.lt_of_not_le enough)
          refine .inr ⟨r, ?_⟩
          unfold parsePayload
          simp only [id, if_false, known, bind_apply, inside_error failed]

theorem parseOption_short (buffer : Bytes) (navdata : ParsedNavdata)
    (h : r.buffer.length < r.offset + 4) :
    ∃ r', parseOption buffer navdata r = .error (.buffer .rangeError) r' := by
  unfold parseOption
  by_cases first : r.buffer.length < r.offset + 2
  · refine ⟨r.advance 2, ?_⟩
    have failed : here Reader.uint16LE r = .error _ (r.advance 2) :=
      here_error (Reader.uint_beyond little first)
    rw [bind_apply, failed]
  · have within : r.Within := by
      change r.offset ≤ r.buffer.length
      omega
    have ahead := within.length_unread
    refine ⟨(r.advance 2).advance 2, ?_⟩
    have id : here Reader.uint16LE r = .ok _ (r.advance 2) :=
      here_ok (Reader.uint_apply little within (by omega))
    have failed : here Reader.uint16LE (r.advance 2) = .error _ ((r.advance 2).advance 2) :=
      here_error (Reader.uint_beyond little (by
        change r.buffer.length < r.offset + 2 + 2
        omega))
    simp only [bind_apply, id, failed]

/-- The four bytes in front of a payload. -/
theorem parseOption_head (buffer : Bytes) (navdata : ParsedNavdata) (h : r.Within) (ahead : 4 ≤ r.unread.length)
    (hid : little (r.unread.take 2) = optionId) (hl : little ((r.unread.drop 2).take 2) = length + 4) :
    parseOption buffer navdata r = parsePayload buffer navdata optionId (length + 4)
      ((r.unread.drop 4 ++ List.replicate length 0).take length) (r.advance (length + 4)) := by
  have first : r.Within := h
  have second : (r.advance 2).Within := h.advance (by omega)
  have third : ((r.advance 2).advance 2).Within := second.advance (by
    rw [Reader.unread_advance, List.length_drop]
    omega)
  have onward : (((r.advance 2).advance 2).advance length) = r.advance (length + 4) := by
    simp only [Reader.advance, Reader.mk.injEq, true_and, and_true]
    omega
  have start : ((r.advance 2).advance 2).unread = r.unread.drop 4 := by
    rw [Reader.unread_advance, Reader.unread_advance, List.drop_drop]
  have id : here Reader.uint16LE r = .ok optionId (r.advance 2) := by
    rw [← hid]
    exact here_ok (Reader.uint_apply little first (by omega))
  have size : here Reader.uint16LE (r.advance 2) = .ok (length + 4) ((r.advance 2).advance 2) := by
    rw [← hl, ← Reader.unread_advance]
    exact here_ok (Reader.uint_apply little second (by
      rw [Reader.unread_advance, List.length_drop]
      omega))
  have bytes : here (Reader.readBuffer (((length + 4 : ℕ) : ℤ) - 4)) ((r.advance 2).advance 2) =
      .ok ((r.unread.drop 4 ++ List.replicate length 0).take length) (r.advance (length + 4)) := by
    rw [← onward, ← start, show ((length + 4 : ℕ) : ℤ) - 4 = (length : ℤ) by omega]
    exact here_ok (Reader.readBuffer_padded third length)
  unfold parseOption
  simp only [bind_apply, id, size, bytes]

theorem parseOption_negative (h : r.Within) (ahead : 4 ≤ r.unread.length)
    (hl : little ((r.unread.drop 2).take 2) < 4) :
    ∃ r', parseOption buffer navdata r = .error (.buffer .rangeError) r' := by
  have second : (r.advance 2).Within := h.advance (by omega)
  have id : here Reader.uint16LE r = .ok _ (r.advance 2) :=
    here_ok (Reader.uint_apply little h (by omega))
  have size : here Reader.uint16LE (r.advance 2) = .ok _ ((r.advance 2).advance 2) :=
    here_ok (Reader.uint_apply little second (by
      rw [Reader.unread_advance, List.length_drop]
      omega))
  rw [Reader.unread_advance] at size
  have below : (little ((r.unread.drop 2).take 2) : ℤ) - 4 < 0 := by omega
  have failed := Reader.readBuffer_negative (r := (r.advance 2).advance 2) below
  unfold parseOption
  simp only [bind_apply, id, size, here_error failed]
  exact ⟨_, rfl⟩

theorem parseOption_option (h : r.Within) (o : PacketOption) (split : r.unread = o.bytes ++ rest) :
    parseOption buffer navdata r = .ok (some (navdata.add o)) (r.advance o.bytes.length) := by
  have size := o.length_bytes
  have head : (toLittle 2 o.id).length = 2 := Library.length_toLittle _ _
  have tail : (toLittle 2 (o.payload.length + 4)).length = 2 := Library.length_toLittle _ _
  unfold PacketOption.bytes at split
  simp only [List.append_assoc] at split
  have id : little (r.unread.take 2) = o.id := by
    rw [split, List.take_left' head, Library.little_toLittle o.small]
  have length : little ((r.unread.drop 2).take 2) = o.payload.length + 4 := by
    rw [split, List.drop_left' head, List.take_left' tail, Library.little_toLittle o.short]
  have payload : (r.unread.drop 4 ++ List.replicate o.payload.length 0).take o.payload.length =
      o.payload := by
    rw [split, ← List.drop_drop (i := 2) (j := 2), List.drop_left' head, List.drop_left' tail,
      List.append_assoc, List.take_left]
  rw [parseOption_head _ _ h (by rw [split]; simp only [List.length_append]; omega) id length, payload,
    parsePayload_option, size]

theorem parseOption_checksum (h : r.Within) (least : 8 ≤ length) (most : length < 2 ^ 16)
    (split : r.unread = checksumHead length ++ rest) : parseOption buffer navdata r =
      if little (rest.take 4) = byteSum (buffer.take (buffer.length - length)) then
        .ok none (r.advance length)
      else .error (.invalidChecksum (byteSum (buffer.take (buffer.length - length)))
        (little (rest.take 4))) (r.advance length) := by
  obtain ⟨size, rfl⟩ := Nat.exists_eq_add_of_le' (show 4 ≤ length by omega)
  have head : (toLittle 2 65535).length = 2 := Library.length_toLittle _ _
  have tail : (toLittle 2 (size + 4)).length = 2 := Library.length_toLittle _ _
  unfold checksumHead at split
  rw [List.append_assoc] at split
  have id : little (r.unread.take 2) = 65535 := by
    rw [split, List.take_left' head, Library.little_toLittle (by decide)]
  have length : little ((r.unread.drop 2).take 2) = size + 4 := by
    rw [split, List.drop_left' head, List.take_left' tail, Library.little_toLittle most]
  have after : r.unread.drop 4 = rest := by
    rw [split, ← List.drop_drop (i := 2) (j := 2), List.drop_left' head, List.drop_left' tail]
  have payload : little (((rest ++ List.replicate size 0).take size).take 4) = little (rest.take 4) := by
    rw [List.take_take, Nat.min_eq_left (by omega), Library.little_padded rest (by omega)]
  rw [parseOption_head _ _ h (by rw [split]; simp only [List.length_append]; omega) id length, after,
    parsePayload_checksum rfl (by
      rw [List.length_take, List.length_append, List.length_replicate]
      omega), payload]

/-- No two ids share a name. -/
theorem OPTION_IDS_injective {name : OptionName} {a b : ℕ} (ha : OPTION_IDS a = some name)
    (hb : OPTION_IDS b = some name) : a = b := by
  have key {n : ℕ} (h : OPTION_IDS n = some name) : n = if name = .checksum then 65535 else name.ctorIdx := by
    unfold OPTION_IDS at h
    split at h <;> cases h <;> rfl
  rw [key ha, key hb]

/-- What can stand at the front of the bytes that are left, and what the loop makes of it: an
option or the checksum; otherwise the buffer ends too early, which is noticed at once or when the
next option is looked for. -/
theorem parseOption_cases (buffer : Bytes) (navdata : ParsedNavdata) (h : r.Within) :
    (∃ (o : PacketOption) (rest : Bytes), r.unread = o.bytes ++ rest) ∨
    (∃ (length : ℕ) (rest : Bytes), 8 ≤ length ∧ length < 2 ^ 16 ∧
      r.unread = checksumHead length ++ rest) ∨
    (∃ r', parseOption buffer navdata r = .error (.buffer .rangeError) r') ∨
    (4 ≤ r.unread.length ∧ ∃ navdata' r', parseOption buffer navdata r = .ok (some navdata') r' ∧
      r'.buffer.length < r'.offset) := by
  have total := h.length_unread
  by_cases ahead : 4 ≤ r.unread.length
  swap
  · exact .inr (.inr (.inl (parseOption_short buffer navdata (by omega))))
  have idSmall : little (r.unread.take 2) < 2 ^ 16 := @Library.little_window_lt r.unread 0 2 (by omega)
  have lengthSmall : little ((r.unread.drop 2).take 2) < 2 ^ 16 := Library.little_window_lt (by omega)
  have spelled : r.unread = toLittle 2 (little (r.unread.take 2)) ++
      (toLittle 2 (little ((r.unread.drop 2).take 2)) ++ r.unread.drop 4) := by
    rw [Library.toLittle_window (by omega)]
    exact (@Library.toLittle_window r.unread 0 2 (by omega)).symm
  by_cases negative : little ((r.unread.drop 2).take 2) < 4
  · exact .inr (.inr (.inl (parseOption_negative h ahead negative)))
  obtain ⟨size, hsize⟩ := Nat.exists_eq_add_of_le' (Nat.le_of_not_lt negative)
  rw [hsize] at spelled lengthSmall
  generalize hid : little (r.unread.take 2) = id at spelled idSmall
  generalize hpayload : (r.unread.drop 4 ++ List.replicate size 0).take size = payload
  have length : payload.length = size := by
    rw [← hpayload, List.length_take, List.length_append, List.length_replicate]
    omega
  have head := parseOption_head buffer navdata h ahead hid hsize
  rw [hpayload] at head
  rcases parsePayload_cases buffer navdata id (size + 4) payload (r.advance (size + 4)) with
    ⟨checksum, enough⟩ | ⟨other, enough⟩ | ⟨r', failed⟩
  · rw [OPTION_IDS_injective checksum (b := 65535) rfl, ← List.append_assoc] at spelled
    exact .inr (.inl ⟨size + 4, _, by omega, lengthSmall, spelled⟩)
  · let o : PacketOption := ⟨id, payload, idSmall, other, by omega, enough⟩
    by_cases whole : size + 4 ≤ r.unread.length
    · have inside : payload = (r.unread.drop 4).take size := by
        rw [← hpayload, List.take_append_of_le_length (by rw [List.length_drop]; omega)]
      refine .inl ⟨o, r.unread.drop (size + 4), ?_⟩
      change _ = toLittle 2 id ++ (toLittle 2 (payload.length + 4) ++ payload) ++ _
      rw [length, List.append_assoc, List.append_assoc, inside, Nat.add_comm size 4,
        ← Library.drop_window, Nat.add_comm 4 size]
      exact spelled
    · refine .inr (.inr (.inr ⟨ahead, navdata.add o, r.advance (size + 4), ?_, ?_⟩))
      · rw [head]
        exact parsePayload_option o
      · change r.buffer.length < r.offset + (size + 4)
        omega
  · exact .inr (.inr (.inl ⟨r', head.trans failed⟩))

theorem parseOptions_beyond (fuel : ℕ) (h : r.buffer.length < r.offset) :
    ∃ r', parseOptions buffer (fuel + 1) navdata r = .error (.buffer .rangeError) r' := by
  obtain ⟨r', failed⟩ := parseOption_short buffer navdata (r := r) (by omega)
  exact ⟨r', by rw [parseOptions, bind_apply, failed]⟩

/-- Options that are followed by a checksum are all taken, and the checksum decides. -/
theorem parseOptions_bytes (buffer : Bytes) (navdata : ParsedNavdata) (os : List PacketOption)
    {fuel : ℕ} (h : r.Within) (fuelled : os.length < fuel)
    (least : 8 ≤ length) (most : length < 2 ^ 16)
    (split : r.unread = os.flatMap PacketOption.bytes ++ (checksumHead length ++ rest)) :
    ∃ r', parseOptions buffer fuel navdata r =
      if little (rest.take 4) = byteSum (buffer.take (buffer.length - length)) then
        .ok (some (os.foldl ParsedNavdata.add navdata)) r'
      else .error (.invalidChecksum (byteSum (buffer.take (buffer.length - length)))
        (little (rest.take 4))) r' := by
  obtain ⟨fuel, rfl⟩ := Nat.exists_eq_succ_of_ne_zero (Nat.ne_zero_of_lt fuelled)
  rw [Nat.succ_eq_add_one] at fuelled ⊢
  induction os generalizing r navdata fuel with
  | nil =>
      refine ⟨r.advance length, ?_⟩
      rw [parseOptions, bind_apply, parseOption_checksum h least most split]
      split_ifs <;> rfl
  | cons o os ih =>
      rw [List.flatMap_cons, List.append_assoc] at split
      have room : o.bytes.length ≤ r.unread.length := by
        rw [split, List.length_append]
        omega
      obtain ⟨fuel, rfl⟩ := Nat.exists_eq_succ_of_ne_zero (show fuel ≠ 0 by
        rw [List.length_cons] at fuelled
        omega)
      obtain ⟨r', done⟩ := @ih (r.advance o.bytes.length) (navdata.add o) (h.advance room)
        (by rw [Reader.unread_advance, split, List.drop_left]) fuel
        (by rw [List.length_cons] at fuelled; omega)
      exact ⟨r', by rw [parseOptions, bind_apply, parseOption_option h o split]; exact done⟩

theorem parseOptions_ok {fuel : ℕ} (h : r.Within) {navdata' : ParsedNavdata} {r' : Reader}
    (done : parseOptions buffer fuel navdata r = .ok (some navdata') r') :
    ∃ (os : List PacketOption) (length : ℕ) (rest : Bytes), 8 ≤ length ∧ length < 2 ^ 16 ∧
      r.unread = os.flatMap PacketOption.bytes ++ (checksumHead length ++ rest) ∧
      little (rest.take 4) = byteSum (buffer.take (buffer.length - length)) ∧
      navdata' = os.foldl ParsedNavdata.add navdata := by
  induction fuel generalizing r navdata with
  | zero => cases done
  | succ fuel ih =>
      rw [parseOptions, bind_apply] at done
      rcases parseOption_cases buffer navdata h with
        ⟨o, rest, split⟩ | ⟨length, rest, least, most, split⟩ | ⟨_, failed⟩ | ⟨_, _, m, taken, beyond⟩
      · rw [parseOption_option h o split] at done
        have room : o.bytes.length ≤ r.unread.length := by
          rw [split, List.length_append]
          omega
        obtain ⟨os, length, last, least, most, after, right, rfl⟩ := ih (h.advance room) done
        rw [Reader.unread_advance, split, List.drop_left] at after
        refine ⟨o :: os, length, last, least, most, ?_, right, rfl⟩
        rw [split, after, List.flatMap_cons, List.append_assoc]
      · rw [parseOption_checksum h least most split] at done
        by_cases right : little (rest.take 4) = byteSum (buffer.take (buffer.length - length))
        · rw [if_pos right] at done
          cases done
          exact ⟨[], length, rest, least, most, split, right, rfl⟩
        · rw [if_neg right] at done
          cases done
      · rw [failed] at done
        cases done
      · rw [taken] at done
        cases fuel with
        | zero => cases done
        | succ fuel =>
            obtain ⟨_, failed⟩ := parseOptions_beyond fuel beyond
            cases failed.symm.trans done

/-- Every option takes bytes, so the fuel is never used up. -/
theorem parseOptions_total {fuel : ℕ} (h : r.Within) (fuelled : r.unread.length < fuel) (r' : Reader) :
    parseOptions buffer fuel navdata r ≠ .ok none r' := by
  intro done
  induction fuel generalizing r navdata with
  | zero => omega
  | succ fuel ih =>
      rw [parseOptions, bind_apply] at done
      rcases parseOption_cases buffer navdata h with
        ⟨o, rest, split⟩ | ⟨length, rest, least, most, split⟩ | ⟨_, failed⟩ | ⟨ahead, _, m, taken, beyond⟩
      · rw [parseOption_option h o split] at done
        have size := o.length_bytes
        have room : o.bytes.length ≤ r.unread.length := by
          rw [split, List.length_append]
          omega
        exact ih (h.advance room) (by rw [Reader.unread_advance, List.length_drop]; omega) done
      · rw [parseOption_checksum h least most split] at done
        split_ifs at done
        cases done
      · rw [failed] at done
        cases done
      · rw [taken] at done
        obtain ⟨fuel, rfl⟩ := Nat.exists_eq_succ_of_ne_zero (show fuel ≠ 0 by omega)
        obtain ⟨_, failed⟩ := parseOptions_beyond fuel beyond
        cases failed.symm.trans done

end Options

/-- A packet, up to the option with the checksum, and all the bytes from its payload on. -/
structure Packet where
  header : ℕ
  state : UInt32
  sequenceNumber : UInt32
  visionFlag : UInt32
  options : List PacketOption
  length : ℕ
  rest : Bytes
  known : header = NAVDATA_HEADER1 ∨ header = NAVDATA_HEADER2
  least : 8 ≤ length
  most : length < 2 ^ 16

namespace Packet

def words (p : Packet) : List ℕ :=
  [p.header, p.state.toNat, p.sequenceNumber.toNat, p.visionFlag.toNat]

def front (p : Packet) : Bytes :=
  p.words.flatMap (toLittle 4) ++ p.options.flatMap PacketOption.bytes

def bytes (p : Packet) : Bytes := p.front ++ (checksumHead p.length ++ p.rest)

def checksum (p : Packet) : ℕ := little (p.rest.take 4)

def expectedChecksum (p : Packet) : ℕ := byteSum (p.bytes.take (p.bytes.length - p.length))

/-- What the words are parsed to. -/
def head (p : Packet) : ParsedNavdata where
  header := p.header
  droneState := NavdataReader.mask DRONE_STATES p.state.toNat
  sequenceNumber := p.sequenceNumber.toNat
  visionFlag := p.visionFlag.toNat

def navdata (p : Packet) : ParsedNavdata := p.options.foldl ParsedNavdata.add p.head

end Packet

section Parse
variable {buffer rest : Bytes} {r : Reader} {n : ℕ}

theorem header_lt (h : n = NAVDATA_HEADER1 ∨ n = NAVDATA_HEADER2) : n < 2 ^ 32 := by
  rcases h with rfl | rfl <;> decide

theorem read_word (h : r.Within) (small : n < 2 ^ 32) (split : r.unread = toLittle 4 n ++ rest) :
    Reader.uint32LE r = .ok n (r.advance 4) ∧ (r.advance 4).Within ∧ (r.advance 4).unread = rest := by
  have width : (toLittle 4 n).length = 4 := Library.length_toLittle _ _
  have ahead : 4 ≤ r.unread.length := by
    rw [split, List.length_append]
    omega
  refine ⟨?_, h.advance ahead, by rw [Reader.unread_advance, split, List.drop_left' width]⟩
  have read := Reader.uint_apply little h ahead
  rwa [split, List.take_left' width, Library.little_toLittle small] at read

theorem word_cases (h : r.Within) : (∃ (w : UInt32) (rest : Bytes), r.unread = toLittle 4 w.toNat ++ rest) ∨
    ∃ r', Reader.uint32LE r = .error .rangeError r' := by
  have total := h.length_unread
  by_cases ahead : 4 ≤ r.unread.length
  · have small : little (r.unread.take 4) < 2 ^ 32 := @Library.little_window_lt r.unread 0 4 (by omega)
    refine .inl ⟨.ofNat (little (r.unread.take 4)), r.unread.drop 4, ?_⟩
    rw [UInt32.toNat_ofNat_of_lt' small]
    exact (@Library.toLittle_window r.unread 0 4 (by omega)).symm
  · exact .inr ⟨_, Reader.uint_beyond little (by omega)⟩

theorem mask32_ok {r' : Reader} (h : Reader.uint32LE r = .ok n r') :
    here (NavdataReader.mask32 DRONE_STATES) r = .ok (NavdataReader.mask DRONE_STATES n) r' := by
  apply here_ok
  unfold NavdataReader.mask32
  rw [bind_apply, h]
  rfl

theorem mask32_error {r' : Reader} (h : Reader.uint32LE r = .error .rangeError r') :
    here (NavdataReader.mask32 DRONE_STATES) r = .error (.buffer .rangeError) r' := by
  apply here_error
  unfold NavdataReader.mask32
  rw [bind_apply, h]

theorem length_options (os : List PacketOption) : os.length ≤ (os.flatMap PacketOption.bytes).length := by
  induction os with
  | nil => exact le_rfl
  | cons o os ih =>
      rw [List.flatMap_cons, List.length_append, List.length_cons, o.length_bytes]
      omega

/-- A packet is parsed to its data, unless the checksum is another than that of the bytes in front
of its option. -/
theorem parseNavdata_bytes (p : Packet) : parseNavdata p.bytes =
    if p.checksum = p.expectedChecksum then .ok (some p.navdata)
    else .error (.invalidChecksum p.expectedChecksum p.checksum) := by
  have split : p.bytes = toLittle 4 p.header ++ (toLittle 4 p.state.toNat ++
      (toLittle 4 p.sequenceNumber.toNat ++ (toLittle 4 p.visionFlag.toNat ++
        (p.options.flatMap PacketOption.bytes ++ (checksumHead p.length ++ p.rest))))) := by
    simp only [Packet.bytes, Packet.front, Packet.words, List.flatMap_cons, List.flatMap_nil,
      List.append_assoc, List.append_nil]
  obtain ⟨header, within₁, split₁⟩ := read_word (r := { buffer := p.bytes }) (Nat.zero_le _)
    (header_lt p.known) split
  obtain ⟨state, within₂, split₂⟩ := read_word within₁ p.state.toNat_lt split₁
  obtain ⟨number, within₃, split₃⟩ := read_word within₂ p.sequenceNumber.toNat_lt split₂
  obtain ⟨flag, within₄, split₄⟩ := read_word within₃ p.visionFlag.toNat_lt split₃
  have fuelled : p.options.length < p.bytes.length := by
    have := length_options p.options
    simp only [split, List.length_append, Library.length_toLittle]
    omega
  obtain ⟨r', done⟩ := parseOptions_bytes p.bytes p.head p.options within₄ fuelled p.least p.most split₄
  have accepted : ¬ (p.header ≠ NAVDATA_HEADER1 ∧ p.header ≠ NAVDATA_HEADER2) :=
    fun h => p.known.elim h.1 h.2
  unfold parseNavdata parsePacket
  unfold Packet.head at done
  simp only [bind_apply, here_ok header, accepted, if_false, mask32_ok state,
    here_ok number, here_ok flag, done]
  unfold Packet.checksum Packet.expectedChecksum Packet.navdata
  split_ifs <;> rfl

theorem parsePacket_cases (buffer : Bytes) :
    (∃ (header : ℕ) (state number flag : UInt32) (r : Reader),
      (header = NAVDATA_HEADER1 ∨ header = NAVDATA_HEADER2) ∧ r.Within ∧
      buffer = [header, state.toNat, number.toNat, flag.toNat].flatMap (toLittle 4) ++ r.unread ∧
      parsePacket buffer { buffer } = parseOptions buffer buffer.length {
        header := header
        droneState := NavdataReader.mask DRONE_STATES state.toNat
        sequenceNumber := number.toNat
        visionFlag := flag.toNat } r) ∨
    ∃ e r', parsePacket buffer { buffer } = .error e r' := by
  have start : Reader.Within { buffer := buffer } := Nat.zero_le _
  unfold parsePacket
  rcases word_cases start with ⟨header, _, split⟩ | ⟨_, failed⟩
  swap
  · exact .inr ⟨_, _, by rw [bind_apply, here_error failed]⟩
  obtain ⟨read₁, within₁, split₁⟩ := read_word start header.toNat_lt split
  simp only [bind_apply, here_ok read₁]
  by_cases unknown : header.toNat ≠ NAVDATA_HEADER1 ∧ header.toNat ≠ NAVDATA_HEADER2
  · exact .inr ⟨.invalidHeader header.toNat, _, by rw [if_pos unknown]; rfl⟩
  rw [if_neg unknown]
  rcases word_cases within₁ with ⟨state, _, split₂⟩ | ⟨_, failed⟩
  swap
  · exact .inr ⟨_, _, by rw [bind_apply, mask32_error failed]⟩
  obtain ⟨read₂, within₂, rest₂⟩ := read_word within₁ state.toNat_lt split₂
  simp only [bind_apply, mask32_ok read₂]
  rcases word_cases within₂ with ⟨number, _, split₃⟩ | ⟨_, failed⟩
  swap
  · exact .inr ⟨_, _, by rw [here_error failed]⟩
  obtain ⟨read₃, within₃, rest₃⟩ := read_word within₂ number.toNat_lt split₃
  simp only [here_ok read₃]
  rcases word_cases within₃ with ⟨flag, _, split₄⟩ | ⟨_, failed⟩
  swap
  · exact .inr ⟨_, _, by rw [here_error failed]⟩
  obtain ⟨read₄, within₄, rest₄⟩ := read_word within₃ flag.toNat_lt split₄
  simp only [here_ok read₄]
  have known := (not_and_or.mp unknown).imp not_not.mp not_not.mp
  refine .inl ⟨header.toNat, state, number, flag, _, known, within₄, ?_, rfl⟩
  have whole : buffer = _ := split
  rw [← split₁, split₂, ← rest₂, split₃, ← rest₃, split₄, ← rest₄] at whole
  simpa only [List.flatMap_cons, List.flatMap_nil, List.append_assoc, List.append_nil] using whole

/-- Only packets are parsed. -/
theorem parseNavdata_ok {navdata : ParsedNavdata} (done : parseNavdata buffer = .ok (some navdata)) :
    ∃ p : Packet, p.bytes = buffer ∧ p.checksum = p.expectedChecksum ∧ p.navdata = navdata := by
  unfold parseNavdata at done
  rcases parsePacket_cases buffer with ⟨header, state, number, flag, r, known, within, split, loop⟩ |
    ⟨e, _, failed⟩
  swap
  · rw [failed] at done
    cases done
  rw [loop] at done
  cases result : parseOptions buffer buffer.length _ r with
  | error => rw [result] at done; cases done
  | ok _ r' =>
      rw [result] at done
      cases done
      obtain ⟨os, length, rest, least, most, after, right, rfl⟩ := parseOptions_ok within result
      let p : Packet := ⟨header, state, number, flag, os, length, rest, known, least, most⟩
      have whole : p.bytes = buffer := by
        rw [split, after]
        simp only [p, Packet.bytes, Packet.front, Packet.words, List.append_assoc]
      refine ⟨p, whole, ?_, rfl⟩
      rw [Packet.expectedChecksum, whole]
      exact right

theorem parseNavdata_total (buffer : Bytes) : parseNavdata buffer ≠ .ok none := by
  intro done
  unfold parseNavdata at done
  rcases parsePacket_cases buffer with ⟨header, state, number, flag, r, known, within, split, loop⟩ |
    ⟨e, _, failed⟩
  swap
  · rw [failed] at done
    cases done
  rw [loop] at done
  cases result : parseOptions buffer buffer.length _ r with
  | error => rw [result] at done; cases done
  | ok _ r' =>
      rw [result] at done
      cases done
      refine parseOptions_total within ?_ r' result
      rw [split]
      simp only [List.length_append, List.flatMap_cons, Library.length_toLittle]
      omega

/-- Whatever the bytes, parsing ends, and it ends with data exactly if they are those of a packet
with the right checksum; the data are then the packet's. -/
theorem parseNavdata_iff (buffer : Bytes) : parseNavdata buffer ≠ .ok none ∧
    ∀ navdata, parseNavdata buffer = .ok (some navdata) ↔
      ∃ p : Packet, p.bytes = buffer ∧ p.checksum = p.expectedChecksum ∧ p.navdata = navdata := by
  refine ⟨parseNavdata_total buffer, fun navdata => ⟨parseNavdata_ok, ?_⟩⟩
  rintro ⟨p, rfl, right, rfl⟩
  rw [parseNavdata_bytes, if_pos right]

end Parse

end DroneParking
