import DroneParking.Pave

/-!
# Series of frames

What the parser makes of a stream that consists of frames: of a cut one, and of one
that ends with a header that is refused.
-/
namespace DroneParking

open Library (Bytes)
open Reader (toAscii)

section Frames
variable {l y tail : Bytes} {ws : List PaVEWire} {events : List PaVEEvent} {kept : Option Bytes}

theorem PaVEWire.length_encode (w : PaVEWire) :
    w.encode.length = w.header.headerSize + w.header.payloadSize := by
  rw [PaVEWire.encode, List.length_append, List.length_append, w.fits.length_encodeHeader, w.headerSize,
    w.payloadSize, Nat.add_assoc]

/-- A stream that begins with a header and with a frame has the header of the frame. -/
theorem begins_with_frame {mark rest rest' : Bytes} {f : PaVEFrame} {w : PaVEWire} (fits : f.Fits mark)
    (same : f.encodeHeader mark ++ rest = w.encode ++ rest') :
    mark = w.mark ∧ f = w.header ∧ rest = w.extra ++ w.payload ++ rest' := by
  rw [PaVEWire.encode, List.append_assoc] at same
  exact fits.unique w.fits same

theorem frame_unique {w w' : PaVEWire} (same : w.encode ++ l = w'.encode ++ y) : w = w' ∧ l = y := by
  rw [PaVEWire.encode, List.append_assoc] at same
  obtain ⟨mark, header, rest⟩ := begins_with_frame w.fits same
  have extra : w.extra.length = w'.extra.length := by
    have := w.headerSize
    have := w'.headerSize
    rw [header] at *
    omega
  have payload : w.payload.length = w'.payload.length := by
    rw [← w.payloadSize, ← w'.payloadSize, header]
  rw [List.append_assoc, List.append_assoc] at rest
  obtain ⟨extras, behind⟩ := List.append_inj rest extra
  obtain ⟨payloads, left⟩ := List.append_inj behind payload
  obtain ⟨_, _, _, _, _, _, _, _⟩ := w
  obtain ⟨_, _, _, _, _, _, _, _⟩ := w'
  cases mark
  cases header
  cases extras
  cases payloads
  exact ⟨rfl, left⟩

/-- Refused bytes do not begin with a header that is taken. -/
theorem Refused.not_header {event : PaVEEvent} {mark left rest : Bytes} {f : PaVEFrame}
    (h : Refused l event left) (fits : f.Fits mark) (signed : f.signature = PaVEParser.SIGNATURE)
    (large : 64 ≤ f.headerSize) : l ++ y ≠ f.encodeHeader mark ++ rest := by
  intro same
  cases h with
  | signature fits' _ unsigned =>
      rw [List.append_assoc] at same
      rw [(fits'.unique fits same).2.1] at unsigned
      exact unsigned signed
  | headerSize fits' _ _ small =>
      rw [List.append_assoc] at same
      rw [(fits'.unique fits same).2.1] at small
      omega

theorem Refused.not_frame {event : PaVEEvent} {left : Bytes} {w : PaVEWire} (h : Refused l event left) :
    l ++ y ≠ w.encode ++ tail := by
  rw [PaVEWire.encode, List.append_assoc]
  exact h.not_header w.fits w.signature (by rw [w.headerSize]; omega)

theorem Refused.event_unique {event event' : PaVEEvent} {left left' : Bytes} (h : Refused l event left)
    (h' : Refused tail event' left') (same : l ++ y = tail) : event = event' := by
  cases h with
  | signature fits _ unsigned =>
      cases h' with
      | signature fits' _ _ =>
          rw [List.append_assoc] at same
          rw [(fits.unique fits' same).2.1]
      | headerSize fits' _ signed _ =>
          rw [List.append_assoc] at same
          rw [(fits.unique fits' same).2.1] at unsigned
          exact absurd signed unsigned
  | headerSize fits _ signed _ =>
      cases h' with
      | signature fits' _ unsigned =>
          rw [List.append_assoc] at same
          rw [(fits.unique fits' same).2.1] at signed
          exact absurd signed unsigned
      | headerSize => rfl

theorem Refused.length {event : PaVEEvent} {left : Bytes} (h : Refused l event left) : 68 ≤ l.length := by
  cases h with
  | signature fits room _ | headerSize fits room _ _ =>
      rw [List.length_append, fits.length_encodeHeader]
      omega

/-- What may follow the frames of a stream: nothing, or bytes that are refused with `event`. -/
def Ends (tail : Bytes) (event : PaVEEvent) : Prop := tail = [] ∨ ∃ left, Refused tail event left

theorem complete_few {n : ℕ} (few : n < 68) : complete ws n = [] := by
  cases ws with
  | nil => rfl
  | cons w ws => exact if_neg fun h => absurd h.1 (by omega)

/-- Of a stream of frames a write announces those that are there, and keeps the others as they are; or
it has come to what follows them. -/
theorem Decodes.stream {event : PaVEEvent} (decoded : Decodes l events kept) (ends : Ends tail event)
    (known : ∀ w ∈ ws, w.Known) (whole : l ++ y = ws.flatMap PaVEWire.encode ++ tail) :
    (∃ ws₁ ws₂ left, ws = ws₁ ++ ws₂ ∧ events = ws₁.map (fun w => .data w.frame) ∧ kept = some left ∧
      left ++ y = ws₂.flatMap PaVEWire.encode ++ tail ∧ (tail ≠ [] → y ≠ []) ∧
      complete ws₂ left.length = [] ∧
      ∀ m, complete ws (l.length + m) = ws₁ ++ complete ws₂ (left.length + m)) ∨
    tail ≠ [] ∧ events = ws.map (fun w => .data w.frame) ++ [event] := by
  induction decoded generalizing ws with
  | @short l few =>
      refine .inl ⟨[], ws, l, rfl, rfl, rfl, whole, ?_, complete_few few, fun m => rfl⟩
      rintro more rfl
      obtain ⟨left, refused⟩ := ends.resolve_left more
      have lengths := congrArg List.length whole
      have := refused.length
      simp only [List.length_append, List.length_nil] at lengths
      omega
  | @begun mark f rest fits room signed large skipped missing =>
      rw [List.append_assoc] at whole
      cases ws with
      | nil =>
          rcases ends with rfl | ⟨left, refused⟩
          · have lengths := congrArg List.length whole
            simp only [List.length_append, fits.length_encodeHeader, List.flatMap_nil, List.length_nil]
              at lengths
            omega
          · exact absurd ((List.append_nil tail).trans whole.symm) (refused.not_header fits signed large)
      | cons w ws =>
          rw [List.flatMap_cons, List.append_assoc] at whole
          have first := (begins_with_frame fits whole).2.1
          have size := fits.length_encodeHeader
          have longer : (f.encodeHeader mark ++ rest).length < w.encode.length := by
            rw [w.length_encode, ← first, List.length_append, size]
            omega
          refine .inl ⟨[], w :: ws, _, rfl, rfl, rfl, ?_, ?_, ?_, fun m => rfl⟩
          · rw [List.append_assoc, whole, List.flatMap_cons, List.append_assoc]
          · rintro _ rfl
            have lengths := congrArg List.length whole
            simp only [List.length_append, List.length_nil] at lengths longer
            omega
          · exact if_neg fun h => absurd h.2 (by omega)
  | @frame w l events kept visible decoded ih =>
      rw [List.append_assoc] at whole
      cases ws with
      | nil =>
          rcases ends with rfl | ⟨left, refused⟩
          · have lengths := congrArg List.length whole
            simp only [List.length_append, List.flatMap_nil, List.length_nil] at lengths visible
            omega
          · exact absurd ((List.append_nil tail).trans whole.symm) refused.not_frame
      | cons w' ws =>
          rw [List.flatMap_cons, List.append_assoc] at whole
          obtain ⟨rfl, rest⟩ := frame_unique whole
          rcases ih (fun v hv => known v (List.mem_cons_of_mem _ hv)) rest with
            ⟨ws₁, ws₂, left, rfl, rfl, same, behind, more, none, all⟩ | ⟨more, rfl⟩
          · refine .inl ⟨w :: ws₁, ws₂, left, rfl, rfl, same, behind, more, none, fun m => ?_⟩
            have there : 68 ≤ (w.encode ++ l).length + m ∧ w.encode.length ≤ (w.encode ++ l).length + m := by
              rw [List.length_append] at visible ⊢
              omega
            have less : (w.encode ++ l).length + m - w.encode.length = l.length + m := by
              rw [List.length_append]
              omega
            rw [complete, if_pos there, less, all]
            rfl
          · exact .inr ⟨more, rfl⟩
  | @refused l event' left refused =>
      cases ws with
      | nil =>
          rcases ends with rfl | ⟨left', refused'⟩
          · have lengths := congrArg List.length whole
            have := refused.length
            simp only [List.length_append, List.flatMap_nil, List.length_nil] at lengths
            omega
          · refine .inr ⟨?_, ?_⟩
            · rintro rfl
              exact absurd refused'.length (by decide)
            · rw [refused.event_unique refused' whole]
              rfl
      | cons w ws =>
          rw [List.flatMap_cons, List.append_assoc] at whole
          exact absurd whole refused.not_frame
  | @lost mark f rest fits room signed missing =>
      rw [List.append_assoc] at whole
      cases ws with
      | nil =>
          rcases ends with rfl | ⟨left, refused⟩
          · have lengths := congrArg List.length whole
            simp only [List.length_append, fits.length_encodeHeader, List.flatMap_nil, List.length_nil]
              at lengths
            omega
          · exact absurd ((List.append_nil tail).trans whole.symm)
              (refused.not_header fits signed (by omega))
      | cons w ws =>
          rw [List.flatMap_cons, List.append_assoc] at whole
          have first := (begins_with_frame fits whole).2.1
          have short : w.extra.length ≤ 4 := known w List.mem_cons_self
          rw [first, w.headerSize] at missing
          omega

/-- The same of a series of writes, as far as the frames reach. -/
theorem Session.stream {event : PaVEEvent} {left rest : Bytes} {buffers : List Bytes}
    (session : Session left buffers events) (ends : Ends tail event) (known : ∀ w ∈ ws, w.Known)
    (whole : left ++ (buffers.flatten ++ rest) = ws.flatMap PaVEWire.encode ++ tail)
    (more : tail ≠ [] → buffers.flatten ++ rest ≠ [] ∧ rest = [])
    (waits : complete ws left.length = []) :
    (tail = [] → events = (complete ws (left ++ buffers.flatten).length).map fun w => .data w.frame) ∧
    (tail ≠ [] → ∃ later, events = ws.map (fun w => .data w.frame) ++ event :: later) := by
  induction session generalizing ws with
  | done =>
      refine ⟨fun _ => ?_, fun some => ?_⟩
      · rw [List.flatten_nil, List.append_nil, waits]
        rfl
      · obtain ⟨nonempty, rfl⟩ := more some
        exact absurd rfl nonempty
  | @write left buffer events left' buffers later decoded session ih =>
      rw [List.flatten_cons, List.append_assoc, ← List.append_assoc] at whole
      rw [List.flatten_cons, ← List.append_assoc, List.length_append]
      rcases decoded.stream ends known whole with
        ⟨ws₁, ws₂, _, rfl, rfl, ⟨⟩, behind, some, none, all⟩ | ⟨some, rfl⟩
      · obtain ⟨first, second⟩ := ih (fun v hv => known v (List.mem_append_right _ hv)) behind
          (fun h => ⟨some h, (more h).2⟩) none
        refine ⟨fun empty => ?_, fun h => ?_⟩
        · rw [all, List.map_append, first empty, List.length_append]
        · obtain ⟨later', rfl⟩ := second h
          exact ⟨later', by rw [List.map_append, List.append_assoc]⟩
      · refine ⟨fun empty => absurd empty some, fun _ => ⟨later, ?_⟩⟩
        rw [List.append_assoc]
        rfl
  | lost decoded =>
      rw [List.flatten_cons, List.append_assoc, ← List.append_assoc] at whole
      rcases decoded.stream ends known whole with ⟨_, _, _, _, _, ⟨⟩, _⟩ | ⟨some, rfl⟩
      exact ⟨fun empty => absurd empty some, fun _ => ⟨[], rfl⟩⟩
  | @broken _ _ events next buffers later decoded =>
      rw [List.flatten_cons, List.append_assoc, ← List.append_assoc] at whole
      rcases decoded.stream ends known whole with ⟨_, _, _, _, _, ⟨⟩, _⟩ | ⟨some, rfl⟩
      refine ⟨fun empty => absurd empty some, fun _ => ⟨.thrown .rangeError :: later, ?_⟩⟩
      rw [List.append_assoc]
      rfl

end Frames

namespace PaVEParser

/-- A series of frames with headers of the known kinds is announced one by one, wherever it is cut and
wherever it breaks off: every frame that is there in full, and has 68 bytes from its beginning on. If
instead the series ends with a header that is refused, that is said after all the frames. -/
theorem writes_frames {ws : List PaVEWire} (known : ∀ w ∈ ws, w.Known) (buffers : List Bytes) :
    (∀ rest, buffers.flatten ++ rest = ws.flatMap PaVEWire.encode →
      writes buffers {} = (complete ws buffers.flatten.length).map fun w => .data w.frame) ∧
    ∀ tail event left, buffers.flatten = ws.flatMap PaVEWire.encode ++ tail → Refused tail event left →
      ∃ later, writes buffers {} = ws.map (fun w => .data w.frame) ++ event :: later := by
  have waits : complete ws ([] : Bytes).length = [] := complete_few (by decide)
  constructor
  · intro rest whole
    have same : [] ++ (buffers.flatten ++ rest) = ws.flatMap PaVEWire.encode ++ [] := by
      rw [List.nil_append, whole, List.append_nil]
    have ends : Ends [] (.thrown .rangeError) := .inl rfl
    exact ((waits_start.writes buffers).stream ends known same (fun h => absurd rfl h) waits).1 rfl
  · intro tail event left whole refused
    have nonempty : tail ≠ [] := by
      rintro rfl
      exact absurd refused.length (by decide)
    have same : [] ++ (buffers.flatten ++ []) = ws.flatMap PaVEWire.encode ++ tail := by
      rw [List.nil_append, List.append_nil, whole]
    have some : buffers.flatten ++ [] ≠ [] := by
      rw [List.append_nil, whole]
      exact fun none => nonempty (List.append_eq_nil_iff.mp none).2
    exact ((waits_start.writes buffers).stream (.inr ⟨left, refused⟩) known same (fun _ => ⟨some, rfl⟩)
      waits).2 nonempty

/-- A header that says no more than its sizes. -/
def plain (mark : Bytes) (headerSize payloadSize : ℕ) : PaVEFrame where
  signature := toAscii mark
  version := 0
  videoCodec := 0
  headerSize
  payloadSize
  encodedStreamWidth := 0
  encodedStreamHeight := 0
  displayWidth := 0
  displayHeight := 0
  frameNumber := 0
  timestamp := 0
  totalChunks := 0
  chunkIndex := 0
  frameType := 0
  control := 0
  streamBytePositionLw := 0
  streamBytePositionUw := 0
  streamId := 0
  totalSlices := 0
  sliceIndex := 0
  header1Size := 0
  header2Size := 0
  reserved2 := [0, 0]
  advertisedSize := 0
  reserved3 := List.replicate 12 0

theorem plain_fits {mark : Bytes} {headerSize payloadSize : ℕ} (size : mark.length = 4)
    (header : headerSize < 256 ^ 2) (payload : payloadSize < 256 ^ 4) :
    (plain mark headerSize payloadSize).Fits mark := by
  constructor
  all_goals first
    | assumption
    | rfl
    | exact Nat.pow_pos (by decide)

/-- The second frame is there in full, but it has only 64 bytes. Then a header with another signature
in its place. -/
theorem writes_frames_two : ∃ (w v : PaVEWire) (later : List PaVEEvent),
    writes [w.encode.take 30, w.encode.drop 30 ++ v.encode] {} = [.data w.frame] ∧
    writes [w.encode ++ (plain [0, 0, 0, 0] 0 0).encodeHeader [0, 0, 0, 0], List.replicate 16 0] {} =
      [.data w.frame] ++ invalidSignature (toAscii [0, 0, 0, 0]) :: later := by
  let w : PaVEWire := ⟨[80, 97, 86, 69], plain [80, 97, 86, 69] 68 2, [0, 0, 0, 0], [1, 2],
    plain_fits rfl (by decide) (by decide), rfl, rfl, rfl⟩
  let v : PaVEWire := ⟨[80, 97, 86, 69], plain [80, 97, 86, 69] 64 0, [], [],
    plain_fits rfl (by decide) (by decide), rfl, rfl, rfl⟩
  have size : w.encode.length = 70 := w.length_encode
  have size' : v.encode.length = 64 := v.length_encode
  have known : ∀ u ∈ [w, v], u.Known := by
    intro u member
    rcases List.mem_pair.mp member with rfl | rfl <;> exact Nat.le_of_ble_eq_true rfl
  have zeros : Refused ((plain [0, 0, 0, 0] 0 0).encodeHeader [0, 0, 0, 0] ++ List.replicate 16 0)
      (invalidSignature (toAscii [0, 0, 0, 0])) (List.replicate 16 0) :=
    .signature (plain_fits rfl (by decide) (by decide)) (by decide) (by decide)
  have first : ∀ u ∈ [w], u.Known := fun u hu => known u (List.mem_cons.mpr (.inl (List.mem_singleton.mp hu)))
  obtain ⟨later, refused⟩ := (writes_frames first
    [w.encode ++ (plain [0, 0, 0, 0] 0 0).encodeHeader [0, 0, 0, 0], List.replicate 16 0]).2 _ _ _
    (by simp only [List.flatten_cons, List.flatten_nil, List.flatMap_cons, List.flatMap_nil,
      List.append_nil, List.append_assoc]) zeros
  refine ⟨w, v, later, ?_, refused⟩
  have cut : [w.encode.take 30, w.encode.drop 30 ++ v.encode].flatten = w.encode ++ v.encode := by
    rw [List.flatten_cons, List.flatten_cons, List.flatten_nil, List.append_nil, ← List.append_assoc,
      List.take_append_drop]
  rw [(writes_frames known _).1 [] (by rw [cut]; simp), cut, List.length_append, size, size']
  have shown : complete [w, v] (70 + 64) = [w] := by
    simp only [complete, size, size']
    rfl
  rw [shown]
  rfl

end PaVEParser
end DroneParking
