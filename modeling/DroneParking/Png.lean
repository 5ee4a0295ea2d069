import DroneParking.Js
import DroneParking.Library.Bytes
import DroneParking.Library.Incremental

/-!
# Splitting a stream of images

`PngSplitter.js` cuts what the encoder process writes into PNG images. It never
looks at the signature or a checksum: chunk lengths lead it to the `IEND` chunk.
-/
namespace DroneParking

open Library (Bytes Turn Incremental Outcome big toBig big_cons big_toBig big_lt toBig_big
  length_toBig window_append drop_window)

structure PngChunk where
  length : ℕ
  type : JsString
  deriving DecidableEq, Repr

/-- `_state`. The chunk is read in the state `'chunk.data'` only, which carries it here. -/
inductive PngState where
  | header
  | chunkHeader
  | chunkData (chunk : PngChunk)
  deriving DecidableEq, Repr

/-- `_pngStartOffset` starts as `null`, which `slice` would take for 0. -/
structure PngSplitter where
  buffer : Bytes := []
  offset : ℕ := 0
  pngStartOffset : ℕ := 0
  state : PngState := .header
  deriving DecidableEq, Repr

namespace PngSplitter

def remainingBytes (p : PngSplitter) : ℕ := p.buffer.length - p.offset

/-- `this._buffer[this._offset++]`; every caller has checked that the byte is there. -/
def next (p : PngSplitter) : UInt8 × PngSplitter :=
  (p.buffer.getD p.offset 0, { p with offset := p.offset + 1 })

def array : ℕ → PngSplitter → Bytes × PngSplitter
  | 0, p => ([], p)
  | bytes + 1, p =>
      let (byte, p) := p.next
      let (rest, p) := array bytes p
      (byte :: rest, p)

/-- The loop of `unsignedNumber`, with the number of bytes still to be read. -/
def addBytes : ℕ → ℕ → PngSplitter → ℕ × PngSplitter
  | 0, value, p => (value, p)
  | bytes + 1, value, p =>
      let (byte, p) := p.next
      addBytes bytes (value + byte.toNat * 256 ^ bytes) p

def unsignedNumber (bytes : ℕ) (p : PngSplitter) : ℕ × PngSplitter := addBytes bytes 0 p

/-- `array.join(' ')`. -/
def join (array : Bytes) : JsString :=
  [' '].intercalate (array.map fun byte => Nat.toDigits 10 byte.toNat)

def slice (buffer : Bytes) (start stop : ℕ) : Bytes := (buffer.take stop).drop start

/-- One turn of the `while (true)` in `write`. -/
def turn (p : PngSplitter) : PngSplitter × Turn Bytes :=
  match p.state with
  | .header =>
      let p := { p with pngStartOffset := p.offset }
      if p.remainingBytes < 8 then (p, .wait)
      else ({ p with offset := p.offset + 8, state := .chunkHeader }, .go [])
  | .chunkHeader =>
      if p.remainingBytes < 8 then (p, .wait)
      else
        let (length, p) := p.unsignedNumber 4
        let (type, p) := p.array 4
        ({ p with state := .chunkData ⟨length, join type⟩ }, .go [])
  | .chunkData chunk =>
      let chunkSize := chunk.length + 4
      if p.remainingBytes < chunkSize then (p, .wait)
      else
        let p := { p with offset := p.offset + chunkSize }
        if chunk.type = "73 69 78 68".toList then
          let png := slice p.buffer p.pngStartOffset p.offset
          ({ p with buffer := p.buffer.drop p.offset, offset := 0, state := .header }, .go [png])
        else ({ p with state := .chunkHeader }, .go [])

section Reading
variable {b y : Bytes} {offset start n : ℕ}

theorem drop_eq_cons (h : offset < b.length) :
    b.drop offset = b.getD offset 0 :: b.drop (offset + 1) := by
  rw [List.drop_eq_getElem_cons h, List.getD_eq_getElem?_getD, List.getElem?_eq_getElem h,
    Option.getD_some]

theorem array_eq {p : PngSplitter} (h : p.offset + n ≤ p.buffer.length) :
    p.array n = ((p.buffer.drop p.offset).take n, { p with offset := p.offset + n }) := by
  induction n generalizing p with
  | zero => rfl
  | succ n ih =>
      have rest := ih (p := { p with offset := p.offset + 1 }) (by simp only; omega)
      rw [drop_eq_cons (by omega), List.take_succ_cons]
      simp only [array, next, rest, Nat.add_assoc, Nat.add_comm 1 n]

theorem addBytes_eq {p : PngSplitter} {value : ℕ} (h : p.offset + n ≤ p.buffer.length) :
    addBytes n value p =
      (value + big ((p.buffer.drop p.offset).take n), { p with offset := p.offset + n }) := by
  induction n generalizing p value with
  | zero => rfl
  | succ n ih =>
      have rest := @ih { p with offset := p.offset + 1 }
        (value + (p.buffer.getD p.offset 0).toNat * 256 ^ n) (by simp only; omega)
      have size : ((p.buffer.drop (p.offset + 1)).take n).length = n := by
        rw [List.length_take, List.length_drop]
        omega
      rw [drop_eq_cons (by omega), List.take_succ_cons, big_cons]
      simp only [addBytes, next, rest, size, Nat.add_assoc, Nat.add_comm 1 n]

theorem turn_header : turn ⟨b, offset, start, .header⟩ =
    if b.length - offset < 8 then (⟨b, offset, offset, .header⟩, .wait)
    else (⟨b, offset + 8, offset, .chunkHeader⟩, .go []) := rfl

theorem turn_chunkHeader : turn ⟨b, offset, start, .chunkHeader⟩ =
    if b.length - offset < 8 then (⟨b, offset, start, .chunkHeader⟩, .wait)
    else (⟨b, offset + 8, start, .chunkData ⟨big ((b.drop offset).take 4),
      join ((b.drop (offset + 4)).take 4)⟩⟩, .go []) := by
  by_cases short : b.length - offset < 8
  · simp only [turn, remainingBytes, short, if_true]
  · have length := @addBytes_eq 4 ⟨b, offset, start, .chunkHeader⟩ 0 (by simp only; omega)
    have type := @array_eq 4 ⟨b, offset + 4, start, .chunkHeader⟩ (by simp only; omega)
    simp only [turn, remainingBytes, short, if_false, unsignedNumber, length, type, Nat.zero_add,
      Nat.add_assoc]

theorem turn_chunkData {chunk : PngChunk} : turn ⟨b, offset, start, .chunkData chunk⟩ =
    if b.length - offset < chunk.length + 4 then (⟨b, offset, start, .chunkData chunk⟩, .wait)
    else if chunk.type = "73 69 78 68".toList then
      (⟨b.drop (offset + (chunk.length + 4)), 0, start, .header⟩,
        .go [slice b start (offset + (chunk.length + 4))])
    else (⟨b, offset + (chunk.length + 4), start, .chunkHeader⟩, .go []) := rfl

end Reading

def append (p : PngSplitter) (buffer : Bytes) : PngSplitter := { p with buffer := p.buffer ++ buffer }

theorem turn_go_append {p p' : PngSplitter} {out : List Bytes} (h : p.turn = (p', .go out))
    (y : Bytes) : (p.append y).turn = (p'.append y, .go out) := by
  obtain ⟨b, offset, start, state⟩ := p
  cases state with
  | header =>
      rw [turn_header] at h
      split at h
      · cases h
      · cases h
        simp only [append]
        rw [turn_header, List.length_append, if_neg (by omega)]
  | chunkHeader =>
      rw [turn_chunkHeader] at h
      split at h
      · cases h
      · cases h
        simp only [append]
        rw [turn_chunkHeader, List.length_append, if_neg (by omega), window_append (by omega),
          window_append (by omega)]
  | chunkData chunk =>
      rw [turn_chunkData] at h
      split at h
      · cases h
      · simp only [append]
        rw [turn_chunkData, List.length_append, if_neg (by omega)]
        split at h
        · cases h
          rw [if_pos ‹_›, List.drop_append_of_le_length (by omega), slice, slice,
            List.take_append_of_le_length (by omega)]
        · cases h
          rw [if_neg ‹_›]

theorem turn_not_stop {p p' : PngSplitter} {out : List Bytes} : p.turn ≠ (p', .stop out) := by
  obtain ⟨b, offset, start, state⟩ := p
  intro h
  cases state with
  | header => rw [turn_header] at h; split at h <;> cases h
  | chunkHeader => rw [turn_chunkHeader] at h; split at h <;> cases h
  | chunkData chunk => rw [turn_chunkData] at h; split at h; cases h; split at h <;> cases h

/-- A splitter that waits has changed nothing but the start of the image to come. -/
theorem turn_wait {p p' : PngSplitter} (h : p.turn = (p', .wait)) :
    p'.buffer = p.buffer ∧ ∀ y, (p'.append y).turn = (p.append y).turn := by
  obtain ⟨b, offset, start, state⟩ := p
  cases state with
  | header =>
      rw [turn_header] at h
      split at h
      · cases h
        exact ⟨rfl, fun _ => rfl⟩
      · cases h
  | chunkHeader =>
      rw [turn_chunkHeader] at h
      split at h
      · cases h
        exact ⟨rfl, fun _ => rfl⟩
      · cases h
  | chunkData chunk =>
      rw [turn_chunkData] at h
      split at h
      · cases h
        exact ⟨rfl, fun _ => rfl⟩
      · split at h <;> cases h

theorem turn_remaining {p p' : PngSplitter} {out : List Bytes} (h : p.turn = (p', .go out)) :
    p'.remainingBytes < p.remainingBytes := by
  obtain ⟨b, offset, start, state⟩ := p
  cases state with
  | header =>
      rw [turn_header] at h
      split at h
      · cases h
      · cases h
        simp only [remainingBytes]
        omega
  | chunkHeader =>
      rw [turn_chunkHeader] at h
      split at h
      · cases h
      · cases h
        simp only [remainingBytes]
        omega
  | chunkData chunk =>
      rw [turn_chunkData] at h
      split at h
      · cases h
      · split at h
        · cases h
          simp only [remainingBytes, List.length_drop]
          omega
        · cases h
          simp only [remainingBytes]
          omega

/-- The splitter as a parser that is fed piece by piece. -/
def splitter : Incremental PngSplitter UInt8 Bytes where
  append := append
  turn := turn
  variant := remainingBytes
  append_append p x y := by simp only [append, List.append_assoc]
  not_stop := turn_not_stop
  go_append h y := turn_go_append h y
  wait_append h y := (turn_wait h).2 y
  variant_lt h := turn_remaining h

/-- `write`; what comes out are the images announced as `data`. -/
def write (p : PngSplitter) (buffer : Bytes) : Outcome PngSplitter Bytes := splitter.feed p buffer

/-- Successive writes of one stream. -/
def writes (p : PngSplitter) (buffers : List Bytes) : Outcome PngSplitter Bytes :=
  splitter.feeds p buffers

end PngSplitter

/-- A chunk as the format has it: the length of the data, type, data and checksum. -/
structure Chunk where
  type : Bytes
  data : Bytes
  crc : Bytes
  typeSize : type.length = 4
  dataSize : data.length < 256 ^ 4
  crcSize : crc.length = 4

def IEND : Bytes := [73, 69, 78, 68]

/-- An image: a signature, and chunks of which the last one alone is an `IEND` chunk. -/
structure Png where
  signature : Bytes
  chunks : List Chunk
  iend : Chunk
  signatureSize : signature.length = 8
  inner : ∀ c ∈ chunks, c.type ≠ IEND
  last : iend.type = IEND

def Chunk.encode (c : Chunk) : Bytes := toBig 4 c.data.length ++ (c.type ++ (c.data ++ c.crc))

def Png.encode (image : Png) : Bytes :=
  image.signature ++ (image.chunks.flatMap Chunk.encode ++ image.iend.encode)

theorem Chunk.length_encode (c : Chunk) : c.encode.length = c.data.length + 12 := by
  simp only [Chunk.encode, List.length_append, length_toBig, c.typeSize, c.crcSize]
  omega

theorem exists_chunk {b : Bytes} (h : big (b.take 4) + 12 ≤ b.length) :
    ∃ c tail, b = Chunk.encode c ++ tail := by
  have four : (b.take 4).length = 4 := by
    rw [List.length_take]
    omega
  have bound := big_lt (b.take 4)
  have spelled := toBig_big (b.take 4)
  rw [four] at bound spelled
  have data : ((b.drop 8).take (big (b.take 4))).length = big (b.take 4) := by
    rw [List.length_take, List.length_drop]
    omega
  refine ⟨{
    type := (b.drop 4).take 4
    data := (b.drop 8).take (big (b.take 4))
    crc := (b.drop (8 + big (b.take 4))).take 4
    typeSize := by rw [List.length_take, List.length_drop]; omega
    dataSize := by rw [data]; exact bound
    crcSize := by rw [List.length_take, List.length_drop]; omega },
    b.drop (8 + big (b.take 4) + 4), ?_⟩
  simp only [Chunk.encode, data, spelled, List.append_assoc]
  rw [← drop_window, ← drop_window, ← drop_window b 4 4, List.take_append_drop]

theorem Png.le_length_encode (image : Png) : 20 ≤ image.encode.length := by
  rw [Png.encode, List.length_append, List.length_append, image.signatureSize,
    image.iend.length_encode]
  omega

namespace PngSplitter

theorem join_injective {a b : Bytes} (ha : a ≠ []) (hb : b ≠ []) (h : join a = join b) : a = b := by
  have blank : ∀ l : Bytes, ∀ w ∈ l.map fun byte => Nat.toDigits 10 byte.toNat, ' ' ∉ w := by
    intro l w hw inside
    obtain ⟨byte, _, rfl⟩ := List.mem_map.mp hw
    exact absurd (Nat.isDigit_of_mem_toDigits (by decide) (by decide) inside) (by decide)
  have words := congrArg (List.splitOn ' ') h
  rw [join, join, List.splitOn_intercalate _ (blank a) (by simpa using ha),
    List.splitOn_intercalate _ (blank b) (by simpa using hb)] at words
  refine List.map_injective_iff.mpr (fun x y same => ?_) words
  have value := congrArg (fun digits => Nat.ofDigitChars 10 digits 0) same
  simp only [Nat.ofDigitChars_ten_toDigits] at value
  exact UInt8.toNat_inj.mp value

/-- The test on the joined decimal bytes is the test for the type `IEND`. -/
theorem join_eq_iend {type : Bytes} (h : type ≠ []) :
    join type = "73 69 78 68".toList ↔ type = IEND := by
  have spelled : "73 69 78 68".toList = join IEND := by decide +kernel
  rw [spelled]
  exact ⟨join_injective h (by decide), congrArg join⟩

/-- A splitter between two images. -/
def fresh (buffer : Bytes) : PngSplitter := { buffer }

theorem splitter_turn (p : PngSplitter) : splitter.turn p = p.turn := rfl

section Runs
variable {done tail b : Bytes}

/-- A chunk that is there in full takes two turns. -/
theorem run_chunk (c : Chunk) :
    splitter.run ⟨done ++ (c.encode ++ tail), done.length, 0, .chunkHeader⟩ =
      if c.type = IEND then (splitter.run (fresh tail)).after [done ++ c.encode]
      else splitter.run ⟨done ++ (c.encode ++ tail), (done ++ c.encode).length, 0, .chunkHeader⟩ := by
  have size : (done ++ (c.encode ++ tail)).length = done.length + (c.data.length + 12) + tail.length := by
    rw [List.length_append, List.length_append, c.length_encode]
    omega
  have stop : done.length + 8 + (c.data.length + 4) = (done ++ c.encode).length := by
    rw [List.length_append, c.length_encode]
    omega
  have length : big (((done ++ (c.encode ++ tail)).drop done.length).take 4) = c.data.length := by
    rw [List.drop_left, Chunk.encode, List.append_assoc, List.take_left' (length_toBig _ _),
      big_toBig c.dataSize]
  have type : ((done ++ (c.encode ++ tail)).drop (done.length + 4)).take 4 = c.type := by
    rw [List.drop_length_add_append, Chunk.encode, List.append_assoc,
      List.drop_left' (length_toBig _ _), List.append_assoc, List.take_left' c.typeSize]
  have nonempty : c.type ≠ [] := List.ne_nil_of_length_pos (by rw [c.typeSize]; decide)
  have first : splitter.turn ⟨done ++ (c.encode ++ tail), done.length, 0, .chunkHeader⟩ =
      (⟨done ++ (c.encode ++ tail), done.length + 8, 0, .chunkData ⟨c.data.length, join c.type⟩⟩,
        .go []) := by
    rw [splitter_turn, turn_chunkHeader, length, type, if_neg (by omega)]
  rw [Incremental.run_go first, Outcome.after_nil]
  by_cases iend : c.type = IEND
  · have second : splitter.turn ⟨done ++ (c.encode ++ tail), done.length + 8, 0,
        .chunkData ⟨c.data.length, join c.type⟩⟩ = (fresh tail, .go [done ++ c.encode]) := by
      rw [splitter_turn, turn_chunkData, if_neg (by simp only; omega),
        if_pos ((join_eq_iend nonempty).mpr iend), stop, ← List.append_assoc, List.drop_left, slice,
        List.take_left, List.drop_zero]
      rfl
    rw [Incremental.run_go second, if_pos iend]
  · have second : splitter.turn ⟨done ++ (c.encode ++ tail), done.length + 8, 0,
        .chunkData ⟨c.data.length, join c.type⟩⟩ =
        (⟨done ++ (c.encode ++ tail), (done ++ c.encode).length, 0, .chunkHeader⟩, .go []) := by
      rw [splitter_turn, turn_chunkData, if_neg (by simp only; omega),
        if_neg (mt (join_eq_iend nonempty).mp iend), stop]
    rw [Incremental.run_go second, if_neg iend, Outcome.after_nil]

theorem run_chunks {chunks : List Chunk} (inner : ∀ c ∈ chunks, c.type ≠ IEND) :
    splitter.run ⟨done ++ (chunks.flatMap Chunk.encode ++ tail), done.length, 0, .chunkHeader⟩ =
      splitter.run ⟨done ++ (chunks.flatMap Chunk.encode ++ tail),
        (done ++ chunks.flatMap Chunk.encode).length, 0, .chunkHeader⟩ := by
  induction chunks generalizing done with
  | nil => rw [List.flatMap_nil, List.append_nil]
  | cons c chunks ih =>
      have later := @ih (done ++ c.encode) fun d hd => inner d (List.mem_cons_of_mem _ hd)
      simp only [List.flatMap_cons, List.append_assoc] at later ⊢
      rw [run_chunk c, if_neg (inner c List.mem_cons_self), later]

theorem run_header {signature : Bytes} (h : signature.length = 8) :
    splitter.run (fresh (signature ++ b)) =
      splitter.run ⟨signature ++ b, signature.length, 0, .chunkHeader⟩ := by
  have first : splitter.turn (fresh (signature ++ b)) =
      (⟨signature ++ b, signature.length, 0, .chunkHeader⟩, .go []) := by
    rw [fresh, splitter_turn, turn_header, List.length_append, if_neg (by omega), h]
  rw [Incremental.run_go first, Outcome.after_nil]

/-- An image that is there in full is put out, and what follows it is split as if it were new. -/
theorem run_image (image : Png) :
    splitter.run (fresh (image.encode ++ tail)) =
      (splitter.run (fresh tail)).after [image.encode] := by
  rw [Png.encode, List.append_assoc, run_header image.signatureSize, List.append_assoc,
    run_chunks image.inner, ← List.append_assoc image.signature, run_chunk image.iend,
    if_pos image.last]
  simp only [List.append_assoc]

/-- At a chunk header either a whole chunk is there, or the splitter waits. -/
theorem chunk_or_wait (done b : Bytes) : (∃ c tail, b = Chunk.encode c ++ tail) ∨
    (splitter.run ⟨done ++ b, done.length, 0, .chunkHeader⟩).out = [] ∧
      (splitter.run ⟨done ++ b, done.length, 0, .chunkHeader⟩).state.buffer = done ++ b := by
  have ahead : (done ++ b).length - done.length = b.length := by
    rw [List.length_append]
    omega
  have turned := @turn_chunkHeader (done ++ b) done.length 0
  rw [ahead, List.drop_left, ← splitter_turn] at turned
  by_cases short : b.length < 8
  · rw [if_pos short] at turned
    rw [Incremental.run_wait turned]
    exact .inr ⟨rfl, rfl⟩
  · rw [if_neg short] at turned
    rw [Incremental.run_go turned, Outcome.after_nil]
    by_cases missing : b.length < big (b.take 4) + 12
    · have waits := @turn_chunkData (done ++ b) (done.length + 8) 0
        ⟨big (b.take 4), join (((done ++ b).drop (done.length + 4)).take 4)⟩
      rw [if_pos (by simp only; omega), ← splitter_turn] at waits
      rw [Incremental.run_wait waits]
      exact .inr ⟨rfl, rfl⟩
    · exact .inl (exists_chunk (by omega))

/-- From a chunk header on, an image is completed or the splitter waits. -/
theorem image_or_wait {signature : Bytes} {chunks : List Chunk} (h : signature.length = 8)
    (inner : ∀ c ∈ chunks, c.type ≠ IEND) (hdone : done = signature ++ chunks.flatMap Chunk.encode) :
    (∃ image rest, done ++ b = Png.encode image ++ rest) ∨
    (splitter.run ⟨done ++ b, done.length, 0, .chunkHeader⟩).out = [] ∧
      (splitter.run ⟨done ++ b, done.length, 0, .chunkHeader⟩).state.buffer = done ++ b := by
  induction measure : b.length using Nat.strongRecOn generalizing b done chunks with
  | ind n ih =>
      rcases chunk_or_wait done b with ⟨c, tail, rfl⟩ | waits
      · by_cases iend : c.type = IEND
        · refine .inl ⟨⟨signature, chunks, c, h, inner, iend⟩, tail, ?_⟩
          rw [hdone, Png.encode]
          simp only [List.append_assoc]
        · have shorter : tail.length < n := by
            rw [← measure, List.length_append, c.length_encode]
            omega
          have still : ∀ d ∈ chunks ++ [c], d.type ≠ IEND := by
            intro d hd
            rcases List.mem_append.mp hd with old | new
            · exact inner d old
            · rw [List.mem_singleton.mp new]
              exact iend
          have done' : done ++ c.encode = signature ++ (chunks ++ [c]).flatMap Chunk.encode := by
            rw [hdone, List.flatMap_append, List.flatMap_singleton, List.append_assoc]
          have later := @ih tail.length shorter _ tail _ still done' rfl
          rw [run_chunk c, if_neg iend]
          simp only [List.append_assoc] at later ⊢
          exact later
      · exact .inr waits

theorem fresh_or_wait (b : Bytes) : (∃ image rest, b = Png.encode image ++ rest) ∨
    (splitter.run (fresh b)).out = [] ∧ (splitter.run (fresh b)).state.buffer = b := by
  by_cases short : b.length < 8
  · have waits := @turn_header b 0 0
    rw [Nat.sub_zero, if_pos short, ← splitter_turn] at waits
    rw [fresh, Incremental.run_wait waits]
    exact .inr ⟨rfl, rfl⟩
  · have size : (b.take 8).length = 8 := by
      rw [List.length_take]
      omega
    have onward := run_header (b := b.drop 8) size
    have cases := @image_or_wait _ (b.drop 8) _ [] size (by simp) (List.append_nil _).symm
    rw [← onward, List.take_append_drop] at cases
    exact cases

/-- What a new splitter makes of a whole stream. -/
theorem run_split (b : Bytes) : ∃ (images : List Png) (rest : Bytes),
    b = images.flatMap Png.encode ++ rest ∧ (∀ image, ¬ Png.encode image <+: rest) ∧
    (splitter.run (fresh b)).out = images.map Png.encode ∧
    (splitter.run (fresh b)).state.buffer = rest := by
  induction measure : b.length using Nat.strongRecOn generalizing b with
  | ind n ih =>
      rcases fresh_or_wait b with ⟨image, rest, rfl⟩ | ⟨silent, kept⟩
      · have shorter : rest.length < n := by
          rw [← measure, List.length_append]
          have := Png.le_length_encode image
          omega
        obtain ⟨images, tail, split, none, out, buffer⟩ := ih rest.length shorter rest rfl
        refine ⟨image :: images, tail, ?_, none, ?_, ?_⟩
        · rw [split, List.flatMap_cons, List.append_assoc]
        · rw [run_image, Outcome.after, out]
          rfl
        · rw [run_image, Outcome.after, buffer]
      · refine ⟨[], b, rfl, ?_, silent, kept⟩
        rintro image ⟨rest, rfl⟩
        rw [run_image] at silent
        cases silent

end Runs

theorem run_images (images : List Png) (rest : Bytes) :
    splitter.run (fresh (images.flatMap Png.encode ++ rest)) =
      (splitter.run (fresh rest)).after (images.map Png.encode) := by
  induction images with
  | nil => rfl
  | cons image images ih =>
      rw [List.flatMap_cons, List.append_assoc, run_image, ih, Outcome.after_after]
      rfl

/-- A stream without bytes has no image in it. -/
theorem not_image_prefix_nil (image : Png) : ¬ image.encode <+: [] := by
  intro inside
  have size := inside.length_le
  have := image.le_length_encode
  rw [List.length_nil] at size
  omega

theorem writes_eq {buffers : List Bytes} (h : buffers ≠ []) :
    writes {} buffers = splitter.run (fresh buffers.flatten) := by
  obtain ⟨x, xs, rfl⟩ := List.exists_cons_of_ne_nil h
  exact Incremental.feeds_eq _ x xs

/-- However the encoder's output is cut, the images put out are well formed and, with the bytes
still kept, they are the whole of it; nothing that is a whole image is kept. -/
theorem writes_split (buffers : List Bytes) : ∃ (images : List Png) (rest : Bytes),
    buffers.flatten = images.flatMap Png.encode ++ rest ∧
    (∀ image, ¬ Png.encode image <+: rest) ∧
    (writes {} buffers).out = images.map Png.encode ∧ (writes {} buffers).state.buffer = rest := by
  by_cases h : buffers = []
  · subst h
    exact ⟨[], [], rfl, not_image_prefix_nil, rfl, rfl⟩
  · rw [writes_eq h]
    exact run_split buffers.flatten

/-- Images written one after another come out one by one, however the stream is cut, and the
beginning of a further image is kept. -/
theorem writes_images {images : List Png} {rest : Bytes} {buffers : List Bytes}
    (whole : buffers.flatten = images.flatMap Png.encode ++ rest)
    (none : ∀ image, ¬ Png.encode image <+: rest) :
    (writes {} buffers).out = images.map Png.encode ∧ (writes {} buffers).state.buffer = rest := by
  by_cases h : buffers = []
  · subst h
    obtain ⟨encoded, rfl⟩ := List.append_eq_nil_iff.mp whole.symm
    cases images with
    | nil => exact ⟨rfl, rfl⟩
    | cons image images =>
        have first := image.le_length_encode
        rw [List.flatMap_cons, List.append_eq_nil_iff] at encoded
        rw [encoded.1, List.length_nil] at first
        omega
  · rw [writes_eq h, whole, run_images]
    rcases fresh_or_wait rest with ⟨image, tail, rfl⟩ | ⟨silent, kept⟩
    · exact absurd (List.prefix_append _ _) (none image)
    · exact ⟨by rw [Outcome.after, silent, List.append_nil], kept⟩

theorem writes_images_beginning : ∃ image : Png,
    (writes {} [image.encode.take 5, image.encode.drop 5 ++ [137]]).out = [image.encode] := by
  refine ⟨⟨[137, 80, 78, 71, 13, 10, 26, 10], [], ⟨IEND, [], [174, 66, 96, 130], rfl, by decide, rfl⟩,
    rfl, by simp, rfl⟩, ?_⟩
  refine (@writes_images [_] [137] _ rfl ?_).1
  intro image inside
  have size := inside.length_le
  have := image.le_length_encode
  rw [List.length_singleton] at size
  omega

end PngSplitter
end DroneParking
