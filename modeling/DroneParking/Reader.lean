import DroneParking.Doubles
import DroneParking.Library.Bytes
import DroneParking.Library.Effects

/-!
# The byte reader

`Reader.js` of `buffy`: bytes are written at one end and read as numbers, text or
buffers at the other. A write moves the unread bytes to the front of the buffer
it has, or into a larger one. A number read past the end throws; a text ends
there, and a buffer is filled up with zeros.
-/
namespace DroneParking

open Library (Bytes little big signed toLittle length_toLittle little_toLittle bind_apply)

/-- What access to a buffer out of range throws. -/
inductive BufferError where
  | rangeError
  deriving DecidableEq, Repr

structure Reader where
  buffer : Bytes := []
  offset : ℕ := 0
  paused : Bool := false
  deriving DecidableEq, Repr

abbrev ReadM := EStateM BufferError Reader

namespace Reader

/-- `source.copy(target, targetStart, sourceStart)`, with what it makes of `target`: as many
bytes are copied as there is room for. -/
def copy (source target : Bytes) (targetStart : ℤ) (sourceStart : ℕ) : ReadM Bytes :=
  if targetStart < 0 ∨ source.length < sourceStart then throw .rangeError
  else
    let moved := (source.drop sourceStart).take (target.length - targetStart.toNat)
    pure (target.take targetStart.toNat ++ (moved ++ target.drop (targetStart.toNat + moved.length)))

/-- `new Buffer(size)`. -/
def alloc (size : ℤ) : ReadM Bytes :=
  if size < 0 then throw .rangeError else pure (List.replicate size.toNat 0)

def bytesAhead (r : Reader) : ℤ := (r.buffer.length : ℤ) - r.offset

def bytesBuffered (r : Reader) : ℕ := r.buffer.length

def pause (r : Reader) : Reader := { r with paused := true }

def resume (r : Reader) : Reader := { r with paused := false }

def write (newBuffer : Bytes) : ReadM Bool := do
  let r ← get
  if newBuffer.length ≤ r.offset then
    -- the unread bytes move forward to make room for the new ones at the end
    let moved ← copy r.buffer r.buffer (r.offset - newBuffer.length) r.offset
    set { r with buffer := moved, offset := r.offset - newBuffer.length }
    let filled ← copy newBuffer moved (moved.length - newBuffer.length) 0
    set { r with buffer := filled, offset := r.offset - newBuffer.length }
  else
    let grown ← alloc (r.bytesAhead + newBuffer.length)
    set { r with buffer := grown }
    let moved ← copy r.buffer grown 0 r.offset
    set { r with buffer := moved }
    let filled ← copy newBuffer moved r.bytesAhead 0
    set { r with buffer := filled, offset := 0 }
  return !r.paused

/-- The offset moves on by `bytes` whether or not that many are there. -/
def take (bytes : ℕ) : ReadM Bytes := do
  let r ← get
  set { r with offset := r.offset + bytes }
  if r.offset + bytes ≤ r.buffer.length then pure ((r.buffer.drop r.offset).take bytes)
  else throw .rangeError

def uint (order : Bytes → ℕ) (bytes : ℕ) : ReadM ℕ := do
  let l ← take bytes
  return order l

def int (order : Bytes → ℕ) (bytes : ℕ) : ReadM ℤ := do
  let l ← take bytes
  return signed (256 ^ bytes) (order l)

def float (order : Bytes → ℕ) (exponent fraction bytes : ℕ) : ReadM JsNumber := do
  let l ← take bytes
  return .ofBits exponent fraction (order l)

def uint8 : ReadM ℕ := uint little 1
def int8 : ReadM ℤ := int little 1
def uint16BE : ReadM ℕ := uint big 2
def int16BE : ReadM ℤ := int big 2
def uint16LE : ReadM ℕ := uint little 2
def int16LE : ReadM ℤ := int little 2
def uint32BE : ReadM ℕ := uint big 4
def int32BE : ReadM ℤ := int big 4
def uint32LE : ReadM ℕ := uint little 4
def int32LE : ReadM ℤ := int little 4
def float32BE : ReadM JsNumber := float big 8 23 4
def float32LE : ReadM JsNumber := float little 8 23 4
def double64BE : ReadM JsNumber := float big 11 52 8
def double64LE : ReadM JsNumber := float little 11 52 8

/-- The encoding `'ascii'` drops the highest bit of each byte. -/
def toAscii (l : Bytes) : JsString := l.map fun b => Char.ofNat (b.toNat % 128)

/-- `toString` stops at the end of the buffer. -/
def ascii (bytes : ℕ) : ReadM JsString := do
  let r ← get
  set { r with offset := r.offset + bytes }
  return toAscii ((r.buffer.drop r.offset).take bytes)

def readBuffer (bytes : ℤ) : ReadM Bytes := do
  let r ← get
  set { r with offset := (r.offset + bytes).toNat }
  let ret ← alloc bytes
  copy r.buffer ret 0 r.offset

def unread (r : Reader) : Bytes := r.buffer.drop r.offset

def Within (r : Reader) : Prop := r.offset ≤ r.buffer.length

def advance (r : Reader) (bytes : ℕ) : Reader := { r with offset := r.offset + bytes }

section Apply
variable {r : Reader} {l rest : Bytes}

@[simp] theorem set_apply (r s : Reader) : (set r : ReadM PUnit) s = .ok () r := rfl

theorem Within.length_unread (h : r.Within) : r.offset + r.unread.length = r.buffer.length := by
  rw [unread, List.length_drop]
  have : r.offset ≤ r.buffer.length := h
  omega

theorem Within.bytesAhead (h : r.Within) : r.bytesAhead = r.unread.length := by
  have := h.length_unread
  rw [Reader.bytesAhead]
  omega

theorem unread_advance (r : Reader) (n : ℕ) : (r.advance n).unread = r.unread.drop n := by
  rw [unread, unread, advance, List.drop_drop]

theorem Within.advance (h : r.Within) {n : ℕ} (hn : n ≤ r.unread.length) : (r.advance n).Within := by
  have := h.length_unread
  change r.offset + n ≤ r.buffer.length
  omega

theorem copy_apply {source target : Bytes} {t s : ℕ} (hs : s ≤ source.length)
    (room : t + (source.length - s) ≤ target.length) : copy source target t s r =
      .ok (target.take t ++ (source.drop s ++ target.drop (t + (source.length - s)))) r := by
  have start : ((t : ℤ)).toNat = t := Int.toNat_natCast t
  have whole : (source.drop s).take (target.length - t) = source.drop s :=
    List.take_of_length_le (by rw [List.length_drop]; omega)
  rw [copy, if_neg (by omega), start, whole, List.length_drop]
  rfl

theorem alloc_apply (size : ℕ) : alloc size r = .ok (List.replicate size 0) r := by
  rw [alloc, if_neg (by omega), Int.toNat_natCast]
  rfl

theorem copy_whole {l target : Bytes} {t : ℕ} (room : t + l.length ≤ target.length) :
    copy l target t 0 r = .ok (target.take t ++ (l ++ target.drop (t + l.length))) r :=
  copy_apply (Nat.zero_le _) room

/-- The two ways in which a write makes room come to the same: the new bytes follow the
unread ones. -/
theorem write_apply (h : r.Within) (newBuffer : Bytes) : ∃ r', write newBuffer r = .ok (!r.paused) r' ∧
    r'.unread = r.unread ++ newBuffer ∧ r'.Within ∧ r'.paused = r.paused := by
  obtain ⟨b, o, paused⟩ := r
  have within : o ≤ b.length := h
  have ahead : (b.drop o).length = b.length - o := List.length_drop
  unfold write
  by_cases reuse : newBuffer.length ≤ o
  · have target : (o : ℤ) - newBuffer.length = (o - newBuffer.length : ℕ) := by omega
    let moved := b.take (o - newBuffer.length) ++
      (b.drop o ++ b.drop (o - newBuffer.length + (b.length - o)))
    have size : moved.length = b.length := by
      simp only [moved, List.length_append, List.length_take, List.length_drop]
      omega
    have last : (moved.length : ℤ) - newBuffer.length = (b.length - newBuffer.length : ℕ) := by
      omega
    have first (s : Reader) : copy b b ((o : ℤ) - newBuffer.length) o s = .ok moved s := by
      rw [target]
      exact copy_apply within (by omega)
    have second (s : Reader) : copy newBuffer moved ((moved.length : ℤ) - newBuffer.length) 0 s =
        .ok (moved.take (b.length - newBuffer.length) ++
          (newBuffer ++ moved.drop (b.length - newBuffer.length + newBuffer.length))) s := by
      rw [last]
      exact copy_whole (by omega)
    have none : moved.drop (b.length - newBuffer.length + newBuffer.length) = [] :=
      List.drop_of_length_le (by omega)
    have kept : moved.take (b.length - newBuffer.length) =
        b.take (o - newBuffer.length) ++ b.drop o := by
      rw [show moved = (b.take (o - newBuffer.length) ++ b.drop o) ++ _ from
        (List.append_assoc ..).symm]
      exact List.take_left' (by rw [List.length_append, List.length_take, ahead]; omega)
    have front : (b.take (o - newBuffer.length)).length = o - newBuffer.length := by
      rw [List.length_take]
      omega
    rw [none, kept, List.append_nil] at second
    simp only [bind_apply, Library.get_apply, set_apply, reuse, if_true, first, second]
    refine ⟨_, rfl, ?_, ?_, rfl⟩
    · rw [unread, unread, List.append_assoc]
      exact List.drop_left' front
    · change _ ≤ _
      simp only [List.length_append, front, ahead]
      omega
  · have behind : Reader.bytesAhead ⟨b, o, paused⟩ = (b.drop o).length := by
      rw [Reader.bytesAhead, ahead]
      simp only
      omega
    have room : (alloc (((b.drop o).length : ℤ) + newBuffer.length)) =
        alloc (((b.drop o).length + newBuffer.length : ℕ) : ℤ) := rfl
    have tail : (List.replicate ((b.drop o).length + newBuffer.length) (0 : UInt8)).drop
        (0 + (b.length - o)) = List.replicate newBuffer.length 0 := by
      rw [List.drop_replicate, ahead]
      congr 1
      omega
    have first (s : Reader) : copy b (List.replicate ((b.drop o).length + newBuffer.length) 0) 0 o s =
        .ok (b.drop o ++ List.replicate newBuffer.length 0) s := by
      rw [← tail]
      exact @copy_apply s b _ 0 o within (by rw [List.length_replicate]; omega)
    have whole : (b.drop o ++ List.replicate newBuffer.length (0 : UInt8)).length =
        (b.drop o).length + newBuffer.length := by
      rw [List.length_append, List.length_replicate]
    have second (s : Reader) : copy newBuffer (b.drop o ++ List.replicate newBuffer.length 0)
        ((b.drop o).length : ℤ) 0 s = .ok (b.drop o ++ newBuffer) s := by
      rw [copy_whole whole.ge, List.take_left, ← whole, List.drop_length, List.append_nil]
    simp only [bind_apply, Library.get_apply, set_apply, reuse, if_false, behind, room, alloc_apply,
      first, second]
    exact ⟨_, rfl, rfl, Nat.zero_le _, rfl⟩

theorem take_apply (h : r.Within) {n : ℕ} (hn : n ≤ r.unread.length) :
    take n r = .ok (r.unread.take n) (r.advance n) := by
  have := h.length_unread
  unfold take
  simp only [bind_apply, Library.get_apply, set_apply, Library.if_apply]
  rw [if_pos (by omega)]
  rfl

theorem take_beyond {n : ℕ} (h : r.buffer.length < r.offset + n) :
    take n r = .error .rangeError (r.advance n) := by
  unfold take
  simp only [bind_apply, Library.get_apply, set_apply, Library.if_apply]
  rw [if_neg (by omega)]
  rfl

theorem take_short (h : r.Within) {n : ℕ} (hn : r.unread.length < n) :
    take n r = .error .rangeError (r.advance n) := by
  have := h.length_unread
  exact take_beyond (by omega)

theorem uint_apply (order : Bytes → ℕ) (h : r.Within) {n : ℕ} (hn : n ≤ r.unread.length) :
    uint order n r = .ok (order (r.unread.take n)) (r.advance n) := by
  unfold uint
  rw [bind_apply, take_apply h hn]
  rfl

theorem uint_beyond (order : Bytes → ℕ) {n : ℕ} (h : r.buffer.length < r.offset + n) :
    uint order n r = .error .rangeError (r.advance n) := by
  unfold uint
  rw [bind_apply, take_beyond h]

theorem ascii_apply (n : ℕ) : ascii n r = .ok (toAscii (r.unread.take n)) (r.advance n) := rfl

/-- What is missing at the end is left as it was made. -/
theorem readBuffer_padded (h : r.Within) (n : ℕ) :
    readBuffer n r = .ok ((r.unread ++ List.replicate n 0).take n) (r.advance n) := by
  have := h.length_unread
  have moved : ((r.offset : ℤ) + n).toNat = r.offset + n := by omega
  have filled (s : Reader) : copy r.buffer (List.replicate n 0) 0 r.offset s =
      .ok ((r.unread ++ List.replicate n 0).take n) s := by
    rw [copy, if_neg (by omega), Int.toNat_zero, List.length_replicate, Nat.sub_zero, List.take_zero,
      List.nil_append]
    change EStateM.Result.ok (r.unread.take n ++
      (List.replicate n 0).drop (0 + (r.unread.take n).length)) s = _
    rw [List.take_append, Nat.zero_add, List.length_take, List.drop_replicate, List.take_replicate]
    congr 3
    omega
  unfold readBuffer
  simp only [bind_apply, Library.get_apply, set_apply, alloc_apply, moved, filled]
  rfl

theorem readBuffer_apply (h : r.Within) {n : ℕ} (hn : n ≤ r.unread.length) :
    readBuffer n r = .ok (r.unread.take n) (r.advance n) := by
  rw [readBuffer_padded h, List.take_append_of_le_length hn]

/-- A buffer of negative size cannot be made. -/
theorem readBuffer_negative {bytes : ℤ} (h : bytes < 0) : readBuffer bytes r =
    .error .rangeError { r with offset := (r.offset + bytes).toNat } := by
  unfold readBuffer
  simp only [bind_apply, Library.get_apply, set_apply, alloc, h, if_true]
  rfl

end Apply

/-- `x` takes the bytes `l` from the front of the unread ones and returns `a`. -/
def Takes {α : Type} (x : ReadM α) (l : Bytes) (a : α) : Prop :=
  ∀ (r : Reader) rest, r.Within → r.unread = l ++ rest → x r = .ok a (r.advance l.length)

section Takes
variable {α β : Type} {l l' : Bytes} {n : ℕ}

theorem Takes.pure (a : α) : Takes (pure a) [] a := fun _ _ _ _ => rfl

theorem Takes.bind {x : ReadM α} {f : α → ReadM β} {a : α} {b : β} (hx : Takes x l a)
    (hf : Takes (f a) l' b) : Takes (x >>= f) (l ++ l') b := by
  intro r rest within split
  rw [List.append_assoc] at split
  have room : l.length ≤ r.unread.length := by
    rw [split, List.length_append]
    omega
  have onward : (r.advance l.length).unread = l' ++ rest := by
    rw [unread_advance, split, List.drop_left]
  simp only [bind_apply, hx r _ within split, hf _ rest (within.advance room) onward]
  simp only [advance, List.length_append, Nat.add_assoc]

theorem takes_take (h : l.length = n) : Takes (take n) l l := by
  intro r rest within split
  subst h
  rw [take_apply within (by rw [split, List.length_append]; omega), split, List.take_left]

theorem takes_readBuffer (h : l.length = n) : Takes (readBuffer n) l l := by
  intro r rest within split
  subst h
  rw [readBuffer_apply within (by rw [split, List.length_append]; omega), split, List.take_left]

theorem takes_ascii (h : l.length = n) : Takes (ascii n) l (toAscii l) := by
  intro r rest _ split
  subst h
  rw [ascii_apply, split, List.take_left]

theorem takes_uint (order : Bytes → ℕ) (h : l.length = n) : Takes (uint order n) l (order l) := by
  have read : Takes (uint order n) (l ++ []) (order l) := (takes_take h).bind (Takes.pure _)
  rwa [List.append_nil] at read

theorem takes_little {width : ℕ} (h : n < 256 ^ width) :
    Takes (uint little width) (toLittle width n) n := by
  have read := takes_uint little (length_toLittle width n)
  rwa [little_toLittle h] at read

end Takes

/-- A use of a reader. -/
inductive Op where
  | write (newBuffer : Bytes)
  | pause
  | resume
  | uint (order : Bytes → ℕ) (bytes : ℕ)
  | int (order : Bytes → ℕ) (bytes : ℕ)
  | float (order : Bytes → ℕ) (exponent fraction bytes : ℕ)
  | ascii (bytes : ℕ)
  | readBuffer (bytes : ℕ)

inductive Reply where
  | flag (b : Bool)
  | nat (n : ℕ)
  | int (z : ℤ)
  | number (x : JsNumber)
  | text (s : JsString)
  | bytes (l : Bytes)
  | nothing
  deriving DecidableEq, Repr

namespace Op

def run : Op → ReadM Reply
  | .write newBuffer => do return .flag (← Reader.write newBuffer)
  | .pause => do modify Reader.pause; return .nothing
  | .resume => do modify Reader.resume; return .nothing
  | .uint order n => do return .nat (← Reader.uint order n)
  | .int order n => do return .int (← Reader.int order n)
  | .float order e f n => do return .number (← Reader.float order e f n)
  | .ascii n => do return .text (← Reader.ascii n)
  | .readBuffer n => do return .bytes (← Reader.readBuffer n)

/-- What is returned or thrown, and the reader afterwards. -/
def perform (op : Op) (r : Reader) : Except BufferError Reply × Reader :=
  match op.run r with
  | .ok reply r' => (.ok reply, r')
  | .error e r' => (.error e, r')

end Op

/-- The replies to a series of uses. Whoever uses the reader may go on after an exception. -/
def replies : List Op → Reader → List (Except BufferError Reply)
  | [], _ => []
  | op :: ops, r => (op.perform r).1 :: replies ops (op.perform r).2

/-- What a reader is for: bytes leave in the order in which they came. -/
structure Queue where
  bytes : Bytes := []
  paused : Bool := false

namespace Op

/-- The number of bytes that are asked for. -/
def asks : Op → ℕ
  | .write _ | .pause | .resume => 0
  | .uint _ n | .int _ n | .float _ _ _ n | .ascii n | .readBuffer n => n

def answer (q : Queue) : Op → Except BufferError Reply
  | .write _ => .ok (.flag (!q.paused))
  | .pause | .resume => .ok .nothing
  | .uint order n =>
      if n ≤ q.bytes.length then .ok (.nat (order (q.bytes.take n))) else .error .rangeError
  | .int order n =>
      if n ≤ q.bytes.length then .ok (.int (signed (256 ^ n) (order (q.bytes.take n))))
      else .error .rangeError
  | .float order e f n =>
      if n ≤ q.bytes.length then .ok (.number (.ofBits e f (order (q.bytes.take n))))
      else .error .rangeError
  | .ascii n => .ok (.text (toAscii (q.bytes.take n)))
  | .readBuffer n => .ok (.bytes ((q.bytes ++ List.replicate n 0).take n))

def leave (q : Queue) : Op → Queue
  | .write newBuffer => { q with bytes := q.bytes ++ newBuffer }
  | .pause => { q with paused := true }
  | .resume => { q with paused := false }
  | .uint _ n | .int _ n | .float _ _ _ n | .ascii n | .readBuffer n =>
      { q with bytes := q.bytes.drop n }

def isWrite : Op → Bool
  | .write _ => true
  | .pause | .resume | .uint _ _ | .int _ _ | .float _ _ _ _ | .ascii _ | .readBuffer _ => false

/-- The answer of a reader that has been read past its end. -/
def pastEnd : Op → Except BufferError Reply
  | .write _ | .uint _ _ | .int _ _ | .float _ _ _ _ | .readBuffer _ => .error .rangeError
  | .pause | .resume => .ok .nothing
  | .ascii _ => .ok (.text [])

end Op

/-- The answers past the end, as far as the first write. -/
def repliesPastEnd : List Op → List (Except BufferError Reply)
  | [] => []
  | op :: ops => op.pastEnd :: if op.isWrite then [] else repliesPastEnd ops

namespace Queue

def replies : List Op → Queue → List (Except BufferError Reply)
  | [], _ => []
  | op :: ops, q =>
      op.answer q :: if op.asks ≤ q.bytes.length then replies ops (op.leave q) else repliesPastEnd ops

/-- Nothing more is asked for than has been written. -/
def Serves : List Op → Queue → Prop
  | [], _ => True
  | op :: ops, q => op.asks ≤ q.bytes.length ∧ Serves ops (op.leave q)

end Queue

def queue (r : Reader) : Queue := ⟨r.unread, r.paused⟩

/-- The reader has been read past its end. -/
def Past (r : Reader) : Prop := r.buffer.length < r.offset

section Refinement
variable {r : Reader}

theorem queue_advance (r : Reader) (n : ℕ) :
    (r.advance n).queue = { r.queue with bytes := r.queue.bytes.drop n } := by
  rw [queue, unread_advance]
  rfl

theorem run_uint (order : Bytes → ℕ) (n : ℕ) :
    (Op.uint order n).run = do return .nat (order (← take n)) := by
  simp only [Op.run, uint, bind_assoc, pure_bind]

theorem run_int (order : Bytes → ℕ) (n : ℕ) :
    (Op.int order n).run = do return .int (signed (256 ^ n) (order (← take n))) := by
  simp only [Op.run, int, bind_assoc, pure_bind]

theorem run_float (order : Bytes → ℕ) (e f n : ℕ) :
    (Op.float order e f n).run = do return .number (.ofBits e f (order (← take n))) := by
  simp only [Op.run, float, bind_assoc, pure_bind]

theorem Within.past (h : r.Within) {n : ℕ} (hn : r.unread.length < n) : (r.advance n).Past := by
  have := h.length_unread
  change r.buffer.length < r.offset + n
  omega

/-- What becomes of a number that is read. -/
theorem Within.number (h : r.Within) {op : Op} {n : ℕ} {f : Bytes → Reply}
    (run : op.run = do return f (← take n)) : op.perform r =
      (if n ≤ r.unread.length then .ok (f (r.unread.take n)) else .error .rangeError, r.advance n) := by
  unfold Op.perform
  by_cases enough : n ≤ r.unread.length
  · rw [run, bind_apply, take_apply h enough, if_pos enough]
    rfl
  · rw [run, bind_apply, take_short h (Nat.lt_of_not_le enough), if_neg enough]

/-- A reader within its end answers as the queue of its unread bytes, which it stays unless more is
asked for than there is. -/
theorem Within.perform (h : r.Within) (op : Op) :
    (op.perform r).1 = op.answer r.queue ∧
    (op.asks ≤ r.unread.length →
      (op.perform r).2.queue = op.leave r.queue ∧ (op.perform r).2.Within) ∧
    (r.unread.length < op.asks → (op.perform r).2.Past) := by
  cases op with
  | write newBuffer =>
      obtain ⟨r', done, bytes, within, paused⟩ := write_apply h newBuffer
      have whole : (Op.write newBuffer).perform r = (.ok (.flag (!r.paused)), r') := by
        simp only [Op.perform, Op.run, bind_apply, done, Library.pure_apply]
      have same : r'.queue = ⟨r.unread ++ newBuffer, r.paused⟩ := by rw [queue, bytes, paused]
      rw [whole]
      exact ⟨rfl, fun _ => ⟨same, within⟩, fun less => absurd less (Nat.not_lt_zero _)⟩
  | pause | resume => exact ⟨rfl, fun _ => ⟨rfl, h⟩, fun less => absurd less (Nat.not_lt_zero _)⟩
  | uint order n =>
      rw [h.number (run_uint order n)]
      exact ⟨rfl, fun enough => ⟨queue_advance r n, h.advance enough⟩, h.past⟩
  | int order n =>
      rw [h.number (run_int order n)]
      exact ⟨rfl, fun enough => ⟨queue_advance r n, h.advance enough⟩, h.past⟩
  | float order e f n =>
      rw [h.number (run_float order e f n)]
      exact ⟨rfl, fun enough => ⟨queue_advance r n, h.advance enough⟩, h.past⟩
  | ascii n =>
      have whole : (Op.ascii n).perform r = (.ok (.text (toAscii (r.unread.take n))), r.advance n) := by
        simp only [Op.perform, Op.run, bind_apply, ascii_apply, Library.pure_apply]
      rw [whole]
      exact ⟨rfl, fun enough => ⟨queue_advance r n, h.advance enough⟩, h.past⟩
  | readBuffer n =>
      have whole : (Op.readBuffer n).perform r =
          (.ok (.bytes ((r.unread ++ List.replicate n 0).take n)), r.advance n) := by
        simp only [Op.perform, Op.run, bind_apply, readBuffer_padded h, Library.pure_apply]
      rw [whole]
      exact ⟨rfl, fun enough => ⟨queue_advance r n, h.advance enough⟩, h.past⟩

theorem Past.advance (h : r.Past) (n : ℕ) : (r.advance n).Past := by
  have : r.buffer.length < r.offset := h
  change r.buffer.length < r.offset + n
  omega

theorem Past.copy (h : r.Past) (target : Bytes) (start : ℤ) (s : Reader) :
    copy r.buffer target start r.offset s = .error .rangeError s := by
  have : r.buffer.length < r.offset := h
  rw [Reader.copy, if_pos (.inr this)]
  rfl

/-- The unread bytes cannot be moved. -/
theorem Past.write (h : r.Past) (newBuffer : Bytes) :
    ∃ r', Reader.write newBuffer r = .error .rangeError r' := by
  unfold Reader.write
  by_cases reuse : newBuffer.length ≤ r.offset
  · simp only [bind_apply, Library.get_apply, reuse, if_true, h.copy]
    exact ⟨_, rfl⟩
  · simp only [bind_apply, Library.get_apply, reuse, if_false, alloc]
    by_cases negative : r.bytesAhead + newBuffer.length < 0
    · simp only [negative, if_true, Library.throw_apply]
      exact ⟨_, rfl⟩
    · simp only [negative, if_false, Library.pure_apply, set_apply, h.copy]
      exact ⟨_, rfl⟩

theorem Past.number (h : r.Past) {op : Op} {n : ℕ} {f : Bytes → Reply}
    (run : op.run = do return f (← take n)) : op.perform r = (.error .rangeError, r.advance n) := by
  have : r.buffer.length < r.offset := h
  unfold Op.perform
  rw [run, bind_apply, take_beyond (by omega)]

/-- Past its end a reader fails or has nothing to say, and stays there until it is written to. -/
theorem Past.perform (h : r.Past) (op : Op) :
    (op.perform r).1 = op.pastEnd ∧ (op.isWrite = false → (op.perform r).2.Past) := by
  cases op with
  | write newBuffer =>
      obtain ⟨r', thrown⟩ := h.write newBuffer
      have whole : (Op.write newBuffer).perform r = (.error .rangeError, r') := by
        simp only [Op.perform, Op.run, bind_apply, thrown]
      rw [whole]
      exact ⟨rfl, nofun⟩
  | pause | resume => exact ⟨rfl, fun _ => h⟩
  | uint order n =>
      rw [h.number (run_uint order n)]
      exact ⟨rfl, fun _ => h.advance n⟩
  | int order n =>
      rw [h.number (run_int order n)]
      exact ⟨rfl, fun _ => h.advance n⟩
  | float order e f n =>
      rw [h.number (run_float order e f n)]
      exact ⟨rfl, fun _ => h.advance n⟩
  | ascii n =>
      have past : r.buffer.length < r.offset := h
      have none : r.unread = [] := List.drop_of_length_le past.le
      have whole : (Op.ascii n).perform r = (.ok (.text []), r.advance n) := by
        simp only [Op.perform, Op.run, bind_apply, ascii_apply, none, List.take_nil, toAscii,
          List.map_nil, Library.pure_apply]
      rw [whole]
      exact ⟨rfl, fun _ => h.advance n⟩
  | readBuffer n =>
      have moved : ((r.offset : ℤ) + n).toNat = r.offset + n := by omega
      have whole : (Op.readBuffer n).perform r = (.error .rangeError, r.advance n) := by
        simp only [Op.perform, Op.run, readBuffer, bind_apply, Library.get_apply, set_apply, alloc_apply,
          h.copy, moved]
        rfl
      rw [whole]
      exact ⟨rfl, fun _ => h.advance n⟩

theorem Past.replies (h : r.Past) (ops : List Op) :
    ∃ later, Reader.replies ops r = repliesPastEnd ops ++ later := by
  induction ops generalizing r with
  | nil => exact ⟨[], rfl⟩
  | cons op ops ih =>
      obtain ⟨answer, stays⟩ := h.perform op
      rw [Reader.replies, repliesPastEnd, answer]
      cases isWrite : op.isWrite with
      | true => exact ⟨_, rfl⟩
      | false =>
          obtain ⟨later, same⟩ := ih (stays isWrite)
          exact ⟨later, congrArg (op.pastEnd :: ·) same⟩

theorem Within.replies (h : r.Within) (ops : List Op) :
    ∃ later, Reader.replies ops r = Queue.replies ops r.queue ++ later ∧
      (Queue.Serves ops r.queue → later = []) := by
  induction ops generalizing r with
  | nil => exact ⟨[], rfl, fun _ => rfl⟩
  | cons op ops ih =>
      obtain ⟨answer, there, short⟩ := h.perform op
      rw [Reader.replies, Queue.replies, answer]
      by_cases enough : op.asks ≤ r.queue.bytes.length
      · obtain ⟨queue, within⟩ := there enough
        obtain ⟨later, same, served⟩ := ih within
        rw [queue] at same served
        rw [if_pos enough, same]
        exact ⟨later, rfl, fun serves => served serves.2⟩
      · obtain ⟨later, same⟩ := (short (Nat.lt_of_not_le enough)).replies ops
        rw [if_neg enough, same]
        exact ⟨later, rfl, fun serves => absurd serves.1 enough⟩

/-- However writes and reads follow each other, and however the buffer is moved and grown for them, a
reader answers as the queue of the bytes written, to the end if never more is asked for than is there.
The first read that asks for more still has the queue's answer; after it reads fail or are empty, and
the next write fails. -/
theorem replies_queue (ops : List Op) : ∃ later, Reader.replies ops {} = Queue.replies ops {} ++ later ∧
    (Queue.Serves ops {} → later = []) :=
  Within.replies (Nat.zero_le _) ops

/-- Ten bytes asked of three are padded with zeros, and the next write fails. -/
example : replies [.write [1, 2, 3], .readBuffer 10, .write [4, 5]] {} =
    [.ok (.flag true), .ok (.bytes [1, 2, 3, 0, 0, 0, 0, 0, 0, 0]), .error .rangeError] := by
  rfl

end Refinement

end Reader
end DroneParking
