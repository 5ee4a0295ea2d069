import DroneParking.Reader
import DroneParking.Library.Incremental

/-!
# Frames of the video stream

`PaVEParser.js` takes the video frames out of Parrot's encapsulation. Bytes go
through a reader; a header is read once the longer of the two known headers is
there, whatever its own length turns out to be.
-/
namespace DroneParking

open Library (Bytes Turn Outcome turns little toLittle length_toLittle toLittle_window
  little_window_lt length_window bind_apply)
open Reader (Takes toAscii)

structure PaVEFrame where
  signature : JsString
  version : ℕ
  videoCodec : ℕ
  headerSize : ℕ
  payloadSize : ℕ
  encodedStreamWidth : ℕ
  encodedStreamHeight : ℕ
  displayWidth : ℕ
  displayHeight : ℕ
  frameNumber : ℕ
  timestamp : ℕ
  totalChunks : ℕ
  chunkIndex : ℕ
  frameType : ℕ
  control : ℕ
  streamBytePositionLw : ℕ
  streamBytePositionUw : ℕ
  streamId : ℕ
  totalSlices : ℕ
  sliceIndex : ℕ
  header1Size : ℕ
  header2Size : ℕ
  reserved2 : Bytes
  advertisedSize : ℕ
  reserved3 : Bytes
  payload : Option Bytes := none
  deriving DecidableEq, Repr

/-- `_state`. The frame is read in the state `'payload'` only, which carries it here. -/
inductive PaVEState where
  | header
  | payload (frame : PaVEFrame)
  deriving DecidableEq, Repr

/-- What the parser tells its listeners, or the exception that leaves `write`. -/
inductive PaVEEvent where
  | data (frame : PaVEFrame)
  | error (message : JsString)
  | thrown (e : BufferError)
  deriving DecidableEq, Repr

structure PaVEParser where
  parser : Reader := {}
  state : PaVEState := .header
  deriving DecidableEq, Repr

/-- `JSON.stringify` on a string of ASCII characters. -/
def JsString.stringify (s : JsString) : JsString :=
  let escape (c : Char) : JsString :=
    if c = '"' then ['\\', '"']
    else if c = '\\' then ['\\', '\\']
    else if c.toNat = 8 then ['\\', 'b']
    else if c.toNat = 9 then ['\\', 't']
    else if c.toNat = 10 then ['\\', 'n']
    else if c.toNat = 12 then ['\\', 'f']
    else if c.toNat = 13 then ['\\', 'r']
    else if c.toNat < 32 then
      ['\\', 'u', '0', '0', Nat.digitChar (c.toNat / 16), Nat.digitChar (c.toNat % 16)]
    else [c]
  '"' :: (s.flatMap escape ++ ['"'])

namespace PaVEParser

def HEADER_SIZE_SHORT : ℕ := 64
def HEADER_SIZE_LONG : ℕ := 68

def SIGNATURE : JsString := "PaVE".toList

/-- The object literal of the state `'header'`: its properties are read in this order. -/
def readHeader : ReadM PaVEFrame := do
  let signature ← Reader.ascii 4
  let version ← Reader.uint8
  let videoCodec ← Reader.uint8
  let headerSize ← Reader.uint16LE
  let payloadSize ← Reader.uint32LE
  let encodedStreamWidth ← Reader.uint16LE
  let encodedStreamHeight ← Reader.uint16LE
  let displayWidth ← Reader.uint16LE
  let displayHeight ← Reader.uint16LE
  let frameNumber ← Reader.uint32LE
  let timestamp ← Reader.uint32LE
  let totalChunks ← Reader.uint8
  let chunkIndex ← Reader.uint8
  let frameType ← Reader.uint8
  let control ← Reader.uint8
  let streamBytePositionLw ← Reader.uint32LE
  let streamBytePositionUw ← Reader.uint32LE
  let streamId ← Reader.uint16LE
  let totalSlices ← Reader.uint8
  let sliceIndex ← Reader.uint8
  let header1Size ← Reader.uint8
  let header2Size ← Reader.uint8
  let reserved2 ← Reader.readBuffer 2
  let advertisedSize ← Reader.uint32LE
  let reserved3 ← Reader.readBuffer 12
  return { signature, version, videoCodec, headerSize, payloadSize, encodedStreamWidth,
           encodedStreamHeight, displayWidth, displayHeight, frameNumber, timestamp, totalChunks,
           chunkIndex, frameType, control, streamBytePositionLw, streamBytePositionUw, streamId,
           totalSlices, sliceIndex, header1Size, header2Size, reserved2, advertisedSize, reserved3 }

def invalidSignature (signature : JsString) : PaVEEvent :=
  .error ("Invalid signature: ".toList ++ signature.stringify)

/-- One turn of the `while (true)` in `write`. -/
def turn (p : PaVEParser) : PaVEParser × Turn PaVEEvent :=
  match p.state with
  | .header =>
      if p.parser.bytesAhead < HEADER_SIZE_LONG then (p, .wait)
      else
        match readHeader p.parser with
        | .error e r => ({ p with parser := r }, .stop [.thrown e])
        | .ok frame r =>
            if frame.signature ≠ SIGNATURE then
              ({ p with parser := r }, .stop [invalidSignature frame.signature])
            else
              -- stupid kludge for https://projects.ardrone.org/issues/show/159
              match Reader.readBuffer ((frame.headerSize : ℤ) - HEADER_SIZE_SHORT) r with
              | .error e r => ({ p with parser := r }, .stop [.thrown e])
              | .ok _ r => (⟨r, .payload frame⟩, .go [])
  | .payload frame =>
      if p.parser.bytesAhead < frame.payloadSize then (p, .wait)
      else
        match Reader.readBuffer frame.payloadSize p.parser with
        | .error e r => ({ p with parser := r }, .stop [.thrown e])
        | .ok payload r => (⟨r, .header⟩, .go [.data { frame with payload := some payload }])

/-- Twice the bytes ahead, and one more while a payload is to come. -/
def variant (p : PaVEParser) : ℕ :=
  match p.state with
  | .header => 2 * p.parser.bytesAhead.toNat
  | .payload _ => 2 * p.parser.bytesAhead.toNat + 1

def write (buffer : Bytes) (p : PaVEParser) : Outcome PaVEParser PaVEEvent :=
  match Reader.write buffer p.parser with
  | .error e r => ⟨{ p with parser := r }, [.thrown e]⟩
  | .ok _ r => turns turn (variant { p with parser := r } + 1) { p with parser := r }

/-- The events of successive writes. Whoever writes may go on after an error or an exception. -/
def writes : List Bytes → PaVEParser → List PaVEEvent
  | [], _ => []
  | buffer :: buffers, p => (p.write buffer).out ++ writes buffers (p.write buffer).state

end PaVEParser

/-- The first 64 bytes of a frame, `mark` being those of the signature. -/
def PaVEFrame.encodeHeader (mark : Bytes) (f : PaVEFrame) : Bytes :=
  mark ++ (toLittle 1 f.version ++ (toLittle 1 f.videoCodec ++ (toLittle 2 f.headerSize ++
  (toLittle 4 f.payloadSize ++ (toLittle 2 f.encodedStreamWidth ++
  (toLittle 2 f.encodedStreamHeight ++ (toLittle 2 f.displayWidth ++ (toLittle 2 f.displayHeight ++
  (toLittle 4 f.frameNumber ++ (toLittle 4 f.timestamp ++ (toLittle 1 f.totalChunks ++
  (toLittle 1 f.chunkIndex ++ (toLittle 1 f.frameType ++ (toLittle 1 f.control ++
  (toLittle 4 f.streamBytePositionLw ++ (toLittle 4 f.streamBytePositionUw ++
  (toLittle 2 f.streamId ++ (toLittle 1 f.totalSlices ++ (toLittle 1 f.sliceIndex ++
  (toLittle 1 f.header1Size ++ (toLittle 1 f.header2Size ++ (f.reserved2 ++
  (toLittle 4 f.advertisedSize ++ f.reserved3)))))))))))))))))))))))

/-- A header whose fields have room where they are written. -/
structure PaVEFrame.Fits (mark : Bytes) (f : PaVEFrame) : Prop where
  size : mark.length = 4
  signature : f.signature = toAscii mark
  version : f.version < 256 ^ 1
  videoCodec : f.videoCodec < 256 ^ 1
  headerSize : f.headerSize < 256 ^ 2
  payloadSize : f.payloadSize < 256 ^ 4
  encodedStreamWidth : f.encodedStreamWidth < 256 ^ 2
  encodedStreamHeight : f.encodedStreamHeight < 256 ^ 2
  displayWidth : f.displayWidth < 256 ^ 2
  displayHeight : f.displayHeight < 256 ^ 2
  frameNumber : f.frameNumber < 256 ^ 4
  timestamp : f.timestamp < 256 ^ 4
  totalChunks : f.totalChunks < 256 ^ 1
  chunkIndex : f.chunkIndex < 256 ^ 1
  frameType : f.frameType < 256 ^ 1
  control : f.control < 256 ^ 1
  streamBytePositionLw : f.streamBytePositionLw < 256 ^ 4
  streamBytePositionUw : f.streamBytePositionUw < 256 ^ 4
  streamId : f.streamId < 256 ^ 2
  totalSlices : f.totalSlices < 256 ^ 1
  sliceIndex : f.sliceIndex < 256 ^ 1
  header1Size : f.header1Size < 256 ^ 1
  header2Size : f.header2Size < 256 ^ 1
  reserved2 : f.reserved2.length = 2
  advertisedSize : f.advertisedSize < 256 ^ 4
  reserved3 : f.reserved3.length = 12
  payload : f.payload = none

section Header
variable {mark l : Bytes} {f : PaVEFrame}

theorem PaVEFrame.Fits.length_encodeHeader (h : f.Fits mark) : (f.encodeHeader mark).length = 64 := by
  simp only [encodeHeader, List.length_append, length_toLittle, h.size, h.reserved2, h.reserved3]

theorem PaVEFrame.Fits.takes (h : f.Fits mark) :
    Takes PaVEParser.readHeader (f.encodeHeader mark) f := by
  have signature := h.signature
  have payload := h.payload
  unfold PaVEParser.readHeader encodeHeader
  rw [← List.append_nil f.reserved3]
  refine (Reader.takes_ascii h.size).bind ?_
  refine (Reader.takes_little h.version).bind ?_
  refine (Reader.takes_little h.videoCodec).bind ?_
  refine (Reader.takes_little h.headerSize).bind ?_
  refine (Reader.takes_little h.payloadSize).bind ?_
  refine (Reader.takes_little h.encodedStreamWidth).bind ?_
  refine (Reader.takes_little h.encodedStreamHeight).bind ?_
  refine (Reader.takes_little h.displayWidth).bind ?_
  refine (Reader.takes_little h.displayHeight).bind ?_
  refine (Reader.takes_little h.frameNumber).bind ?_
  refine (Reader.takes_little h.timestamp).bind ?_
  refine (Reader.takes_little h.totalChunks).bind ?_
  refine (Reader.takes_little h.chunkIndex).bind ?_
  refine (Reader.takes_little h.frameType).bind ?_
  refine (Reader.takes_little h.control).bind ?_
  refine (Reader.takes_little h.streamBytePositionLw).bind ?_
  refine (Reader.takes_little h.streamBytePositionUw).bind ?_
  refine (Reader.takes_little h.streamId).bind ?_
  refine (Reader.takes_little h.totalSlices).bind ?_
  refine (Reader.takes_little h.sliceIndex).bind ?_
  refine (Reader.takes_little h.header1Size).bind ?_
  refine (Reader.takes_little h.header2Size).bind ?_
  refine (Reader.takes_readBuffer h.reserved2).bind ?_
  refine (Reader.takes_little h.advertisedSize).bind ?_
  refine (Reader.takes_readBuffer h.reserved3).bind ?_
  rw [← signature, ← payload]
  exact Takes.pure f

/-- Any 64 bytes are a header. -/
theorem exists_header (h : l.length = 64) :
    ∃ mark f, PaVEFrame.Fits mark f ∧ l = f.encodeHeader mark := by
  let number (i width : ℕ) : ℕ := little ((l.drop i).take width)
  have bound (i width : ℕ) (inside : i + width ≤ 64) : number i width < 256 ^ width :=
    little_window_lt (by omega)
  have spelled (i width : ℕ) (inside : i + width ≤ 64) :
      toLittle width (number i width) ++ l.drop (i + width) = l.drop i :=
    toLittle_window (by omega)
  refine ⟨l.take 4, {
    signature := toAscii (l.take 4)
    version := number 4 1
    videoCodec := number 5 1
    headerSize := number 6 2
    payloadSize := number 8 4
    encodedStreamWidth := number 12 2
    encodedStreamHeight := number 14 2
    displayWidth := number 16 2
    displayHeight := number 18 2
    frameNumber := number 20 4
    timestamp := number 24 4
    totalChunks := number 28 1
    chunkIndex := number 29 1
    frameType := number 30 1
    control := number 31 1
    streamBytePositionLw := number 32 4
    streamBytePositionUw := number 36 4
    streamId := number 40 2
    totalSlices := number 42 1
    sliceIndex := number 43 1
    header1Size := number 44 1
    header2Size := number 45 1
    reserved2 := (l.drop 46).take 2
    advertisedSize := number 48 4
    reserved3 := l.drop 52 }, ?_, ?_⟩
  · constructor
    all_goals first
      | exact bound _ _ (by decide)
      | rfl
      | simp only [List.length_take, List.length_drop]; omega
  · simp only [PaVEFrame.encodeHeader]
    rw [spelled 48 4 (by decide), ← Library.drop_window l 46 2, spelled 45 1 (by decide),
      spelled 44 1 (by decide), spelled 43 1 (by decide), spelled 42 1 (by decide),
      spelled 40 2 (by decide), spelled 36 4 (by decide), spelled 32 4 (by decide),
      spelled 31 1 (by decide), spelled 30 1 (by decide), spelled 29 1 (by decide),
      spelled 28 1 (by decide), spelled 24 4 (by decide), spelled 20 4 (by decide),
      spelled 18 2 (by decide), spelled 16 2 (by decide), spelled 14 2 (by decide),
      spelled 12 2 (by decide), spelled 8 4 (by decide), spelled 6 2 (by decide),
      spelled 5 1 (by decide), spelled 4 1 (by decide), List.take_append_drop]

/-- The same bytes do not begin with two headers. -/
theorem PaVEFrame.Fits.unique {mark' rest rest' : Bytes} {f' : PaVEFrame} (h : f.Fits mark)
    (h' : f'.Fits mark') (same : f.encodeHeader mark ++ rest = f'.encodeHeader mark' ++ rest') :
    mark = mark' ∧ f = f' ∧ rest = rest' := by
  obtain ⟨header, tail⟩ := List.append_inj same (h.length_encodeHeader.trans h'.length_encodeHeader.symm)
  have read := h.takes { buffer := f.encodeHeader mark } [] (Nat.zero_le _) (List.append_nil _).symm
  have read' := h'.takes { buffer := f.encodeHeader mark } [] (Nat.zero_le _)
    (header.trans (List.append_nil _).symm)
  rw [read] at read'
  refine ⟨?_, (EStateM.Result.ok.inj read').1, tail⟩
  exact (List.append_inj header (h.size.trans h'.size.symm)).1

end Header

/-- A frame on the wire. A longer header has more bytes. -/
structure PaVEWire where
  mark : Bytes
  header : PaVEFrame
  extra : Bytes
  payload : Bytes
  fits : header.Fits mark
  signature : header.signature = PaVEParser.SIGNATURE
  headerSize : header.headerSize = 64 + extra.length
  payloadSize : header.payloadSize = payload.length

namespace PaVEWire

def encode (w : PaVEWire) : Bytes := w.header.encodeHeader w.mark ++ (w.extra ++ w.payload)

/-- The frame that the parser announces. -/
def frame (w : PaVEWire) : PaVEFrame := { w.header with payload := some w.payload }

/-- One of the two kinds of headers that are known. -/
def Known (w : PaVEWire) : Prop := w.extra.length ≤ 4

end PaVEWire

/-- Bytes at which the parser takes offence, what it says of them, and where it goes on. -/
inductive Refused : Bytes → PaVEEvent → Bytes → Prop where
  | signature {mark f rest} : PaVEFrame.Fits mark f → 4 ≤ rest.length →
      f.signature ≠ PaVEParser.SIGNATURE →
      Refused (f.encodeHeader mark ++ rest) (PaVEParser.invalidSignature f.signature) rest
  | headerSize {mark f rest} : PaVEFrame.Fits mark f → 4 ≤ rest.length →
      f.signature = PaVEParser.SIGNATURE → f.headerSize < 64 →
      Refused (f.encodeHeader mark ++ rest) (.thrown .rangeError)
        ((f.encodeHeader mark).drop f.headerSize ++ rest)

/-- The frames that are there in full among the first `n` bytes. The last one counts only once 68 bytes
are there from its beginning, for the parser waits for the longer header. -/
def complete : List PaVEWire → ℕ → List PaVEWire
  | [], _ => []
  | w :: ws, n => if 68 ≤ n ∧ w.encode.length ≤ n then w :: complete ws (n - w.encode.length) else []

/-- What one write makes of the bytes there are: the events, and the bytes from which the next write
goes on. It cannot go on from a header that is longer than all there is behind it. -/
inductive Decodes : Bytes → List PaVEEvent → Option Bytes → Prop where
  | short {l} : l.length < 68 → Decodes l [] (some l)
  | begun {mark f rest} : PaVEFrame.Fits mark f → 4 ≤ rest.length →
      f.signature = PaVEParser.SIGNATURE → 64 ≤ f.headerSize → f.headerSize - 64 ≤ rest.length →
      rest.length < f.headerSize - 64 + f.payloadSize →
      Decodes (f.encodeHeader mark ++ rest) [] (some (f.encodeHeader mark ++ rest))
  | frame {w : PaVEWire} {l events kept} : 68 ≤ (w.encode ++ l).length → Decodes l events kept →
      Decodes (w.encode ++ l) (.data w.frame :: events) kept
  | refused {l event kept} : Refused l event kept → Decodes l [event] (some kept)
  | lost {mark f rest} : PaVEFrame.Fits mark f → 4 ≤ rest.length →
      f.signature = PaVEParser.SIGNATURE → rest.length < f.headerSize - 64 →
      Decodes (f.encodeHeader mark ++ rest) [] none

/-- The events of a series of writes that begins with `kept` unused. After a header that is longer than
what there is, the next write throws, and of the further ones nothing is said. -/
inductive Session : Bytes → List Bytes → List PaVEEvent → Prop where
  | done {kept} : Session kept [] []
  | write {kept buffer events kept' buffers later} : Decodes (kept ++ buffer) events (some kept') →
      Session kept' buffers later → Session kept (buffer :: buffers) (events ++ later)
  | lost {kept buffer events} : Decodes (kept ++ buffer) events none → Session kept [buffer] events
  | broken {kept buffer events next buffers later} : Decodes (kept ++ buffer) events none →
      Session kept (buffer :: next :: buffers) (events ++ .thrown .rangeError :: later)

namespace PaVEParser

section Turns
variable {r : Reader} {mark rest : Bytes} {f : PaVEFrame}

/-- A parser that looks for a header waits for one or has one. -/
theorem short_or_header (l : Bytes) : l.length < 68 ∨
    ∃ mark f rest, PaVEFrame.Fits mark f ∧ l = f.encodeHeader mark ++ rest ∧ 4 ≤ rest.length := by
  by_cases h : l.length < 68
  · exact .inl h
  · have size : (l.take 64).length = 64 := by
      rw [List.length_take]
      omega
    obtain ⟨mark, f, fits, spelled⟩ := exists_header size
    refine .inr ⟨mark, f, l.drop 64, fits, ?_, ?_⟩
    · rw [← spelled, List.take_append_drop]
    · rw [List.length_drop]
      omega

theorem turn_short (within : r.Within) (few : r.unread.length < 68) :
    turn ⟨r, .header⟩ = (⟨r, .header⟩, .wait) :=
  if_pos (by rw [within.bytesAhead]; change _ < ((68 : ℕ) : ℤ); omega)

/-- What a header that is there leads to. Of one that is longer than all there is nothing is noticed
yet. -/
theorem turn_header (within : r.Within) (fits : f.Fits mark) (enough : 4 ≤ rest.length)
    (split : r.unread = f.encodeHeader mark ++ rest) : turn ⟨r, .header⟩ =
      if f.signature ≠ SIGNATURE then
        (⟨r.advance 64, .header⟩, .stop [invalidSignature f.signature])
      else if f.headerSize < 64 then
        (⟨r.advance f.headerSize, .header⟩, .stop [.thrown .rangeError])
      else (⟨r.advance f.headerSize, .payload f⟩, .go []) := by
  have size := fits.length_encodeHeader
  have unread : r.unread.length = 64 + rest.length := by rw [split, List.length_append, size]
  have ahead := within.bytesAhead
  have there : ¬ r.bytesAhead < ((68 : ℕ) : ℤ) := by omega
  have read := fits.takes r rest within split
  rw [size] at read
  have within' : (r.advance 64).Within := within.advance (by omega)
  simp only [turn, HEADER_SIZE_LONG, there, if_false, read]
  by_cases signed : f.signature ≠ SIGNATURE
  · rw [if_pos signed, if_pos signed]
  rw [if_neg signed, if_neg signed]
  by_cases small : f.headerSize < 64
  · have negative : (f.headerSize : ℤ) - HEADER_SIZE_SHORT < 0 := by
      change _ - ((64 : ℕ) : ℤ) < 0
      omega
    have back : ((r.advance 64).offset + ((f.headerSize : ℤ) - HEADER_SIZE_SHORT)).toNat =
        r.offset + f.headerSize := by
      change (((r.offset + 64 : ℕ) : ℤ) + (_ - ((64 : ℕ) : ℤ))).toNat = _
      omega
    have thrown := Reader.readBuffer_negative (r := r.advance 64) negative
    rw [back] at thrown
    rw [if_pos small]
    simp only [thrown]
    rfl
  · have kludge : (f.headerSize : ℤ) - HEADER_SIZE_SHORT = (f.headerSize - 64 : ℕ) := by
      change _ - ((64 : ℕ) : ℤ) = _
      omega
    have onward : (r.advance 64).advance (f.headerSize - 64) = r.advance f.headerSize := by
      simp only [Reader.advance, Reader.mk.injEq, true_and, and_true]
      omega
    rw [if_neg small, kludge]
    simp only [Reader.readBuffer_padded within', onward]

theorem turn_payload (within : r.Within) : turn ⟨r, .payload f⟩ =
    if r.unread.length < f.payloadSize then (⟨r, .payload f⟩, .wait)
    else (⟨r.advance f.payloadSize, .header⟩,
      .go [.data { f with payload := some (r.unread.take f.payloadSize) }]) := by
  have ahead := within.bytesAhead
  by_cases short : r.unread.length < f.payloadSize
  · rw [if_pos short]
    exact if_pos (by rw [ahead]; omega)
  · have there : ¬ r.bytesAhead < f.payloadSize := by omega
    rw [if_neg short]
    simp only [turn, there, if_false, Reader.readBuffer_apply within (Nat.le_of_not_lt short)]

theorem turn_past (past : r.Past) : turn ⟨r, .payload f⟩ = (⟨r, .payload f⟩, .wait) := by
  have behind : r.buffer.length < r.offset := past
  have ahead : r.bytesAhead < f.payloadSize := by
    rw [Reader.bytesAhead]
    omega
  exact if_pos ahead

end Turns

section Writes
variable {p : PaVEParser} {l : Bytes}

/-- What a parser waits with: bytes too few for a header, or a header it has read and what followed
it. -/
inductive Waits : PaVEParser → Bytes → Prop where
  | header {r : Reader} {l} : r.Within → r.unread = l → Waits ⟨r, .header⟩ l
  | payload {r : Reader} {mark f extra l} : r.Within → PaVEFrame.Fits mark f →
      f.signature = SIGNATURE → f.headerSize = 64 + extra.length → 4 ≤ (extra ++ r.unread).length →
      l = f.encodeHeader mark ++ (extra ++ r.unread) → Waits ⟨r, .payload f⟩ l

/-- Where a write leaves the parser. -/
def Leaves (p : PaVEParser) : Option Bytes → Prop
  | some kept => Waits p kept
  | none => p.parser.Past

/-- What a turn does for a parser that waits with `l`. -/
inductive Turned (p : PaVEParser) (l : Bytes) : PaVEParser × Turn PaVEEvent → Prop where
  | wait : Decodes l [] (some l) → Turned p l (p, .wait)
  | stop {p' event kept} : Refused l event kept → Waits p' kept → Turned p l (p', .stop [event])
  | header {p'} : Waits p' l → p'.variant < p.variant → Turned p l (p', .go [])
  | frame {p' l'} {w : PaVEWire} : 68 ≤ l.length → l = w.encode ++ l' → Waits p' l' →
      p'.variant < p.variant → Turned p l (p', .go [.data w.frame])
  | lost {r f} : Decodes l [] none → r.Past → 0 < p.variant → Turned p l (⟨r, .payload f⟩, .go [])

theorem turned_header {r : Reader} (within : r.Within) (unread : r.unread = l) :
    Turned ⟨r, .header⟩ l (turn ⟨r, .header⟩) := by
  rcases short_or_header l with short | ⟨mark, f, rest, fits, rfl, room⟩
  · rw [turn_short within (by rwa [unread])]
    exact .wait (.short short)
  have size := fits.length_encodeHeader
  have length : r.unread.length = 64 + rest.length := by rw [unread, List.length_append, size]
  rw [turn_header within fits room unread]
  by_cases signed : f.signature = SIGNATURE
  · rw [if_neg (not_not.mpr signed)]
    by_cases small : f.headerSize < 64
    · rw [if_pos small]
      refine .stop (.headerSize fits room signed small) (.header (within.advance (by omega)) ?_)
      rw [Reader.unread_advance, unread, List.drop_append_of_le_length (by omega)]
    rw [if_neg small]
    have variant : PaVEParser.variant ⟨r, .header⟩ = 2 * (64 + rest.length) := by
      simp only [PaVEParser.variant, within.bytesAhead, length, Int.toNat_natCast]
    by_cases missing : rest.length < f.headerSize - 64
    · exact .lost (.lost fits room signed missing) (within.past (by omega)) (by omega)
    · have left : (r.advance f.headerSize).unread = rest.drop (f.headerSize - 64) := by
        rw [Reader.unread_advance, unread, List.drop_append, size, List.drop_of_length_le (by omega),
          List.nil_append]
      have whole : rest = rest.take (f.headerSize - 64) ++ (r.advance f.headerSize).unread := by
        rw [left, List.take_append_drop]
      have skipped : (rest.take (f.headerSize - 64)).length = f.headerSize - 64 := by
        rw [List.length_take]
        omega
      have within' : (r.advance f.headerSize).Within := within.advance (by omega)
      refine .header (.payload within' fits signed (by omega) (by rwa [← whole])
        (congrArg (f.encodeHeader mark ++ ·) whole)) ?_
      rw [variant]
      simp only [PaVEParser.variant, within'.bytesAhead, left, List.length_drop, Int.toNat_natCast]
      omega
  · rw [if_pos signed]
    refine .stop (.signature fits room signed) (.header (within.advance (by omega)) ?_)
    rw [Reader.unread_advance, unread, List.drop_left' size]

theorem turned_payload {r : Reader} {mark extra : Bytes} {f : PaVEFrame} (within : r.Within)
    (fits : f.Fits mark) (signed : f.signature = SIGNATURE) (size : f.headerSize = 64 + extra.length)
    (room : 4 ≤ (extra ++ r.unread).length) (whole : l = f.encodeHeader mark ++ (extra ++ r.unread)) :
    Turned ⟨r, .payload f⟩ l (turn ⟨r, .payload f⟩) := by
  have behind : (extra ++ r.unread).length = extra.length + r.unread.length := List.length_append
  rw [turn_payload within]
  by_cases short : r.unread.length < f.payloadSize
  · rw [if_pos short]
    refine .wait ?_
    rw [whole]
    exact .begun fits room signed (by omega) (by omega) (by omega)
  · rw [if_neg short]
    have taken : (r.unread.take f.payloadSize).length = f.payloadSize := by
      rw [List.length_take]
      omega
    let w : PaVEWire := ⟨mark, f, extra, r.unread.take f.payloadSize, fits, signed, size, taken.symm⟩
    have within' : (r.advance f.payloadSize).Within := within.advance (by omega)
    have split : l = w.encode ++ (r.advance f.payloadSize).unread := by
      simp only [whole, w, PaVEWire.encode, Reader.unread_advance, List.append_assoc,
        List.take_append_drop]
    have visible : 68 ≤ l.length := by
      rw [whole, List.length_append, fits.length_encodeHeader]
      omega
    refine .frame (w := w) visible split (.header within' rfl) ?_
    simp only [PaVEParser.variant, within.bytesAhead, within'.bytesAhead, Reader.unread_advance,
      List.length_drop, Int.toNat_natCast]
    omega

theorem Waits.turn (h : Waits p l) : Turned p l p.turn := by
  cases h with
  | header within unread => exact turned_header within unread
  | payload within fits signed size room whole =>
      exact turned_payload within fits signed size room whole

/-- The loop, by its turns. -/
theorem Waits.turns (h : Waits p l) {fuel : ℕ} (enough : p.variant < fuel) :
    ∃ kept, Decodes l (turns PaVEParser.turn fuel p).out kept ∧
      Leaves (turns PaVEParser.turn fuel p).state kept := by
  induction fuel generalizing p l with
  | zero => exact absurd enough (Nat.not_lt_zero _)
  | succ fuel ih =>
      have step := h.turn
      generalize turned : p.turn = t at step
      cases step with
      | wait waits =>
          rw [Library.turns_wait turned]
          exact ⟨some l, waits, h⟩
      | stop refused waits =>
          rw [Library.turns_stop turned]
          exact ⟨some _, .refused refused, waits⟩
      | header waits less =>
          rw [Library.turns_go turned, Outcome.after_nil]
          exact ih waits (by omega)
      | frame visible split waits less =>
          rw [Library.turns_go turned]
          obtain ⟨kept, decoded, leaves⟩ := ih waits (by omega)
          rw [split] at visible ⊢
          exact ⟨kept, .frame visible decoded, leaves⟩
      | lost unread past positive =>
          obtain ⟨fuel, rfl⟩ := Nat.exists_eq_succ_of_ne_zero (show fuel ≠ 0 by omega)
          rw [Library.turns_go turned, Outcome.after_nil, Library.turns_wait (turn_past past)]
          exact ⟨none, unread, past⟩

theorem Waits.append (h : Waits p l) {r : Reader} {buffer : Bytes} (within : r.Within)
    (unread : r.unread = p.parser.unread ++ buffer) : Waits { p with parser := r } (l ++ buffer) := by
  cases h with
  | header _ same =>
      refine .header within ?_
      rw [unread, same]
  | payload _ fits signed size room whole =>
      refine .payload within fits signed size ?_ ?_
      · rw [unread, ← List.append_assoc, List.length_append]
        exact room.trans (Nat.le_add_right _ _)
      · rw [unread, whole, List.append_assoc, List.append_assoc]

/-- A write goes through the bytes that were kept and the new ones. -/
theorem Waits.write (h : Waits p l) (buffer : Bytes) : ∃ kept,
    Decodes (l ++ buffer) (p.write buffer).out kept ∧ Leaves (p.write buffer).state kept := by
  have before : p.parser.Within := by
    cases h with
    | header within _ => exact within
    | payload within _ _ _ _ _ => exact within
  obtain ⟨r, done, unread, within, _⟩ := Reader.write_apply before buffer
  simp only [PaVEParser.write, done]
  exact (h.append within unread).turns (Nat.lt_succ_self _)

theorem write_past (past : p.parser.Past) (buffer : Bytes) :
    (p.write buffer).out = [.thrown .rangeError] := by
  obtain ⟨r, thrown⟩ := past.write buffer
  simp only [PaVEParser.write, thrown]

theorem Waits.writes (h : Waits p l) (buffers : List Bytes) : Session l buffers (writes buffers p) := by
  induction buffers generalizing p l with
  | nil => exact .done
  | cons buffer buffers ih =>
      rw [PaVEParser.writes]
      obtain ⟨kept, decoded, leaves⟩ := h.write buffer
      cases kept with
      | some kept => exact .write decoded (ih leaves)
      | none =>
          cases buffers with
          | nil =>
              rw [PaVEParser.writes, List.append_nil]
              exact .lost decoded
          | cons next buffers =>
              rw [PaVEParser.writes, write_past leaves]
              exact .broken decoded

theorem waits_start : Waits {} [] := .header (Nat.zero_le _) rfl

/-- However a stream is cut, each write announces the frames that are now there in full, one by one,
and answers what follows them in its own way; the next write goes on from what is left. -/
theorem writes_session (buffers : List Bytes) : Session [] buffers (writes buffers {}) :=
  waits_start.writes buffers

end Writes

end PaVEParser

end DroneParking
