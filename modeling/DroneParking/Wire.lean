import DroneParking.Protocol
import DroneParking.Library.Delivery

/-!
# Messages on the wire

`SocketMessage.java` writes one line a message; the data handler has no line
buffer and looks at whole chunks, as TCP happens to cut the stream.
-/
namespace DroneParking

open Library (Code Alone heard marks stream bind_apply)

inductive Eol where
  | lf | crlf
  deriving DecidableEq, Repr

/-- The platform line separator. -/
def Eol.text : Eol → JsString
  | .lf => ['\n']
  | .crlf => ['\r', '\n']

theorem Eol.blank (eol : Eol) : eol.text.all isTrimmed = true := by cases eol <;> decide

theorem Eol.text_ne_nil (eol : Eol) : eol.text ≠ [] := by cases eol <;> simp [Eol.text]

def println (m : Message) (eol : Eol) : JsString := m.text ++ eol.text

/-- What a sequence of `sendMessage` calls writes on one open connection. -/
def wire (sent : List (Message × Eol)) : JsString := sent.flatMap fun p => println p.1 p.2

def serve : List JsString → Script Unit
  | [] => pure ()
  | chunk :: chunks => do
      dataHandler chunk
      serve chunks

def executed (chunks : List JsString) : List Message :=
  chunks.filterMap fun chunk => recognise chunk.trim

theorem executed_cons (chunk : JsString) (chunks : List JsString) :
    executed (chunk :: chunks) = (recognise chunk.trim).toList ++ executed chunks := by
  unfold executed
  rw [List.filterMap_cons]
  cases recognise chunk.trim <;> rfl

theorem serve_apply (chunks : List JsString) (n : Node) :
    serve chunks n = .ok () ((executed chunks).foldl Node.execute n) := by
  induction chunks generalizing n with
  | nil => rfl
  | cons chunk chunks ih =>
      unfold serve
      rw [bind_apply, dataHandler_apply, executed_cons]
      cases recognise chunk.trim with
      | none => exact ih n
      | some m => exact ih (n.execute m)

def known (sent : List (Message × Eol)) : List Message :=
  (sent.map Prod.fst).filter fun m => decide (m ≠ .start)

/-! The vocabulary is a code: no word is found inside another one, and none has white space. -/

def texts : List JsString := Message.vocabulary.map Message.text

theorem text_mem_texts (m : Message) : m.text ∈ texts :=
  List.mem_map_of_mem (Message.mem_vocabulary m)

theorem texts_letters : (texts.all fun w => w.all fun a => !isTrimmed a) = true := by decide +kernel

theorem texts_code : Code isTrimmed texts where
  nonempty := by decide
  letters := by
    intro w hw a ha
    have letter := List.all_eq_true.mp (List.all_eq_true.mp texts_letters w hw) a ha
    rwa [Bool.not_eq_true'] at letter
  infixFree := by decide +kernel

def lines (sent : List (Message × Eol)) : List (JsString × JsString) :=
  sent.map fun p => (p.1.text, p.2.text)

theorem stream_lines (sent : List (Message × Eol)) : stream (lines sent) = wire sent := by
  unfold stream lines
  rw [List.flatMap_map]
  rfl

theorem lines_written (sent : List (Message × Eol)) :
    Library.Written isTrimmed texts (lines sent) := by
  intro p hp
  obtain ⟨⟨m, eol⟩, _, rfl⟩ := List.mem_map.mp hp
  refine ⟨text_mem_texts m, ?_⟩
  exact ⟨eol.text_ne_nil, List.all_eq_true.mp eol.blank⟩

theorem println_trim (m : Message) (eol : Eol) : (println m eol).trim = m.text := by
  have word := texts_code.nonempty _ (text_mem_texts m)
  have letters := texts_code.letters _ (text_mem_texts m)
  exact Library.trim_padded (u := []) word letters (by simp) (List.all_eq_true.mp eol.blank)

/-- A line that arrives as one chunk is the message. -/
theorem dataHandler_println (m : Message) (eol : Eol) (n : Node) :
    dataHandler (println m eol) n = .ok () (n.execute m) :=
  dataHandler_text m (println_trim m eol) n

theorem executed_heard (chunks : List JsString) (n : ℕ) : executed chunks =
    (heard isTrimmed texts n chunks).filterMap fun q => recognise q.2 := by
  induction chunks generalizing n with
  | nil => rfl
  | cons chunk chunks ih =>
      rw [executed_cons, heard, ih (n + chunk.length)]
      by_cases spoken : Library.trim isTrimmed chunk ∈ texts
      · rw [if_pos spoken, List.filterMap_cons]
        simp only [show Library.trim isTrimmed chunk = chunk.trim from rfl]
        cases recognise chunk.trim <;> rfl
      · have unknown : recognise chunk.trim = none := by
          apply recognise_eq_none.mpr
          intro m _ same
          apply spoken
          rw [show Library.trim isTrimmed chunk = m.text from same]
          exact text_mem_texts m
        rw [if_neg spoken, unknown, Option.toList_none, List.nil_append]

theorem recognise_text (m : Message) : recognise m.text = if m ≠ .start then some m else none := by
  by_cases isStart : m = .start
  · rw [if_neg (not_not.mpr isStart), recognise_eq_none]
    intro m' other same
    exact other (by rw [← Message.text_injective same, isStart])
  · rw [if_pos isStart]
    exact recognise_eq_some.mpr ⟨isStart, rfl⟩

theorem known_recognised (sent : List (Message × Eol)) :
    known sent = (sent.map Prod.fst).filterMap fun m => recognise m.text := by
  unfold known
  rw [← List.filterMap_eq_filter]
  congr
  funext m
  rw [recognise_text]
  cases m <;> rfl

theorem known_marks (sent : List (Message × Eol)) (n : ℕ) :
    known sent = (marks n (lines sent)).filterMap fun q => recognise q.2 := by
  have words : (lines sent).map Prod.fst = (sent.map Prod.fst).map Message.text := by
    rw [lines, List.map_map, List.map_map]
    rfl
  calc known sent = ((sent.map Prod.fst).map Message.text).filterMap recognise := by
        rw [known_recognised]
        simp only [List.filterMap_map]
        rfl
    _ = ((marks n (lines sent)).map Prod.snd).filterMap recognise := by
        rw [Library.marks_words, words]
    _ = (marks n (lines sent)).filterMap fun q => recognise q.2 := List.filterMap_map

section Delivered
variable {sent : List (Message × Eol)} {chunks : List JsString}

theorem heard_lines (same : chunks.flatten = wire sent) :
    (heard isTrimmed texts 0 chunks).Sublist (marks 0 (lines sent)) :=
  Library.heard_written texts_code (by decide) (lines_written sent) 0
    (same.trans (stream_lines sent).symm)

theorem executed_sublist (same : chunks.flatten = wire sent) :
    (executed chunks).Sublist (known sent) := by
  rw [executed_heard chunks 0, known_marks sent 0]
  exact (heard_lines same).filterMap _

end Delivered

/-- However the stream of lines is cut, the commands the handler carries out are among the
messages sent, each at most once and in the same order. -/
theorem commands_sublist (sent : List (Message × Eol)) (chunks : List JsString)
    (same : chunks.flatten = wire sent) (n : Node) :
    serve chunks n = .ok () ((executed chunks).foldl Node.execute n) ∧
      (executed chunks).Sublist (sent.map Prod.fst) :=
  ⟨serve_apply chunks n, (executed_sublist same).trans List.filter_sublist⟩

theorem split_line_executed :
    (executed [println .takeoff .crlf ++ ['d', 'r'], ['o', 'n', 'e'], ['_', 'l', 'a', 'n', 'd', '\n']]).Sublist
      [.takeoff, .land] :=
  (commands_sublist [(.takeoff, .crlf), (.land, .lf)]
    [println .takeoff .crlf ++ ['d', 'r'], ['o', 'n', 'e'], ['_', 'l', 'a', 'n', 'd', '\n']]
    (by decide +kernel) (Node.start [])).2

/-- Every known message lies in a chunk of its own, white space apart. -/
def ArrivesAlone (sent : List (Message × Eol)) (chunks : List JsString) : Prop :=
  ∀ pre m eol post, sent = pre ++ (m, eol) :: post → m ≠ .start →
    Alone isTrimmed chunks (wire pre).length m.text

theorem mem_marks_lines {sent : List (Message × Eol)} {q : ℕ × JsString} :
    q ∈ marks 0 (lines sent) ↔ ∃ pre m eol post, sent = pre ++ (m, eol) :: post ∧
      q = ((wire pre).length, Message.text m) := by
  rw [Library.mem_marks]
  constructor
  · rintro ⟨before, t, after, split, offset⟩
    obtain ⟨pre, rest, rfl, rfl, tail⟩ := List.map_eq_append_iff.mp split
    obtain ⟨⟨m, eol⟩, post, rfl, line, rfl⟩ := List.map_eq_cons_iff.mp tail
    refine ⟨pre, m, eol, post, rfl, ?_⟩
    rw [Prod.mk.injEq] at line
    apply Prod.ext
    · rw [offset, Nat.zero_add]
      exact congrArg List.length (stream_lines pre)
    · exact line.1.symm
  · rintro ⟨pre, m, eol, post, rfl, rfl⟩
    refine ⟨lines pre, eol.text, lines post, ?_, ?_⟩
    · simp [lines]
    · rw [stream_lines, Nat.zero_add]

theorem arrivesAlone_iff {sent : List (Message × Eol)} {chunks : List JsString} :
    ArrivesAlone sent chunks ↔
      ∀ q ∈ (marks 0 (lines sent)).filter fun q => (recognise q.2).isSome,
        q ∈ (heard isTrimmed texts 0 chunks).filter fun q => (recognise q.2).isSome := by
  constructor
  · intro alone q hq
    obtain ⟨marked, isKnown⟩ := List.mem_filter.mp hq
    obtain ⟨pre, m, eol, post, split, rfl⟩ := mem_marks_lines.mp marked
    have notStart : m ≠ .start := by
      rintro rfl
      simp [recognise_text] at isKnown
    have there := (Library.mem_heard_iff texts_code (text_mem_texts m)).mpr
      (alone pre m eol post split notStart)
    exact List.mem_filter.mpr ⟨there, isKnown⟩
  · intro all pre m eol post split notStart
    have marked := mem_marks_lines.mpr ⟨pre, m, eol, post, split, rfl⟩
    have isKnown : (recognise m.text).isSome = true := by
      rw [recognise_text, if_pos notStart]
      rfl
    have there := all _ (List.mem_filter.mpr ⟨marked, isKnown⟩)
    exact (Library.mem_heard_iff texts_code (text_mem_texts m)).mp (List.mem_filter.mp there).1

/-- No known message is lost exactly if every one of them arrives alone. -/
theorem delivered_iff_alone (sent : List (Message × Eol)) (chunks : List JsString)
    (same : chunks.flatten = wire sent) (n : Node) :
    serve chunks n = .ok () ((executed chunks).foldl Node.execute n) ∧
      ((known sent).Sublist (executed chunks) ↔ ArrivesAlone sent chunks) := by
  refine ⟨serve_apply chunks n, ?_⟩
  have counted (l : List (ℕ × JsString)) : (l.filterMap fun q => recognise q.2).length =
      (l.filter fun q => (recognise q.2).isSome).length := by
    rw [List.length_filterMap_eq_countP, List.countP_eq_length_filter]
  have distinct := Library.marks_nodup (l := lines sent) (fun p hp => (lines_written sent p hp).2.1) 0
  -- marks differ in their offsets, so hearing all of them is hearing as many
  rw [arrivesAlone_iff, ← Library.sublist_eq_iff ((heard_lines same).filter _) (distinct.filter _),
    ← counted, ← counted, ← executed_heard, ← known_marks]
  constructor
  · intro all
    exact Nat.le_antisymm (executed_sublist same).length_le all.length_le
  · intro size
    rw [(executed_sublist same).eq_of_length size]

theorem delivered_line_by_line :
    (known [(.takeoff, .crlf), (.land, .crlf)]).Sublist
        (executed [println .takeoff .crlf, println .land .crlf]) ↔
      ArrivesAlone [(.takeoff, .crlf), (.land, .crlf)] [println .takeoff .crlf, println .land .crlf] :=
  (delivered_iff_alone [(.takeoff, .crlf), (.land, .crlf)] [println .takeoff .crlf, println .land .crlf]
    (by decide +kernel) (Node.start [])).2

/-- A landing order that shares a chunk with the next line is lost, and so is that line. -/
theorem merged_landing_lost :
    [wire [(.carFound, .lf), (.center, .lf)]].flatten = wire [(.carFound, .lf), (.center, .lf)] ∧
      serve [wire [(.carFound, .lf), (.center, .lf)]] (Node.start []) = .ok () (Node.start []) ∧
      ¬ (known [(.carFound, .lf), (.center, .lf)]).Sublist
        (executed [wire [(.carFound, .lf), (.center, .lf)]]) := by
  have none : executed [wire [(.carFound, .lf), (.center, .lf)]] = [] := by decide +kernel
  refine ⟨by simp, ?_, ?_⟩
  · rw [serve_apply, none]
    rfl
  · rw [none]
    decide

end DroneParking
