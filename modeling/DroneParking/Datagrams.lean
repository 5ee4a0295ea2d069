import DroneParking.Doubles
import DroneParking.Library.Bytes
import DroneParking.Library.Fields
import DroneParking.Queue

/-!
# What a datagram says

`AtCommand.js` and `at.js` turn numbered commands into text. The reader below is
what the drone makes of that text, so what a run of the node tells the drone can
be said without the text.
-/
namespace DroneParking

open Library (signed unsigned Intact fields lines? Record)

/-- `x | 0` -/
def toInt32 (n : ℕ) : ℤ := signed (2 ^ 32) (n % 2 ^ 32)

/-- `at.floatString`: `-~n - 1` of the number that the bits of the float spell. -/
def floatString (number : JsNumber) : ℤ :=
  -(-toInt32 (number.toBits 8 23) - 1) - 1

section Text

def integer (z : ℤ) : JsString := if z < 0 then '-' :: decimal z.natAbs else decimal z.natAbs

def AtType.text : AtType → JsString
  | .REF => "REF".toList
  | .PCMD => "PCMD".toList
  | .CTRL => "CTRL".toList
  | .CONFIG => "CONFIG".toList
  | .FTRIM => "FTRIM".toList
  | .CALIB => "CALIB".toList

def AtArg.toText : AtArg → JsString
  | .num n => decimal n
  | .floatString x => integer (DroneParking.floatString x)
  | .text s => s.toList

def AtCommand.serialize (c : AtCommand) (sequenceNumber : ℕ) : JsString :=
  let args := decimal sequenceNumber :: c.args.map AtArg.toText
  "AT*".toList ++ c.type.text ++ '=' :: [','].intercalate args ++ ['\r']

/-- `_concat`, with the sequence number it leaves. -/
def UdpControl.concat (u : UdpControl) (commands : List AtCommand) : JsString × ℕ :=
  commands.foldl (fun cmds cmd => (cmds.1 ++ cmd.serialize cmds.2, cmds.2 + 1)) ([], u.sequenceNumber)

/-- The text of a datagram. -/
def datagram (commands : List (AtCommand × ℕ)) : JsString := commands.flatMap fun c => c.1.serialize c.2

theorem concat_eq (u : UdpControl) (commands : List AtCommand) : u.concat commands =
    (datagram (commands.zipIdx u.sequenceNumber), u.sequenceNumber + commands.length) := by
  have run (text : JsString) (n : ℕ) : commands.foldl (fun (cmds : JsString × ℕ) cmd =>
      (cmds.1 ++ cmd.serialize cmds.2, cmds.2 + 1)) (text, n) =
        (text ++ datagram (commands.zipIdx n), n + commands.length) := by
    induction commands generalizing text n with
    | nil => rw [List.zipIdx_nil, datagram, List.flatMap_nil, List.append_nil]; rfl
    | cons cmd commands ih =>
        rw [List.foldl_cons, ih, List.zipIdx_cons, datagram, datagram, List.flatMap_cons,
          List.append_assoc, List.length_cons, Nat.add_right_comm, Nat.add_assoc]
  exact run [] u.sequenceNumber

/-- What `_sendCommands` hands to the socket is the text of the commands it records. -/
theorem sendCommands_datagram (u : UdpControl) (commands : List AtCommand) :
    (u.sendCommands commands).sent.map datagram = u.sent.map datagram ++ [(u.concat commands).1] ∧
      (u.sendCommands commands).sequenceNumber = (u.concat commands).2 := by
  rw [concat_eq]
  exact ⟨List.map_append, rfl⟩

end Text

/-- What a command tells the drone. -/
inductive Instruction where
  | ref (takeoff emergency : Bool)
  | pcmd (progressive : Bool) (leftRight frontBack upDown clockwise : JsNumber)
  | ctrl (controlMode otherMode : ℕ)
  | config (key value : JsString)
  | ftrim
  | calib (device_num : ℕ)
  deriving DecidableEq, Repr

section Reader

def natural? (s : JsString) : Option ℕ :=
  if s ≠ [] ∧ s.all Char.isDigit then some (Nat.ofDigitChars 10 s 0) else none

def integer? : JsString → Option ℤ
  | '-' :: s => (natural? s).map fun n : ℕ => -(n : ℤ)
  | s => (natural? s).map fun n : ℕ => (n : ℤ)

/-- A float, from the number that its bits are as an integer. -/
def float? (s : JsString) : Option JsNumber :=
  (integer? s).map fun z => .ofBits 8 23 (unsigned (2 ^ 32) z)

def unquote? : JsString → Option JsString
  | '"' :: s => if s.getLast? = some '"' then some s.dropLast else none
  | _ => none

def AtType.ofText? (s : JsString) : Option AtType :=
  [AtType.REF, .PCMD, .CTRL, .CONFIG, .FTRIM, .CALIB].find? fun t => t.text = s

def instruction? : AtType → List JsString → Option Instruction
  | .REF, [flags] => do
      let n ← natural? flags
      some (.ref (n.testBit 9) (n.testBit 8))
  | .PCMD, [flags, leftRight, frontBack, upDown, clockwise] => do
      let n ← natural? flags
      some (.pcmd (n.testBit 0) (← float? leftRight) (← float? frontBack) (← float? upDown)
        (← float? clockwise))
  | .CTRL, [controlMode, otherMode] => do
      some (.ctrl (← natural? controlMode) (← natural? otherMode))
  | .CONFIG, [key, value] => do
      some (.config (← unquote? key) (← unquote? value))
  | .FTRIM, [] => some .ftrim
  | .CALIB, [device_num] => do
      some (.calib (← natural? device_num))
  | _, _ => none

/-- A line without its end: the number and what it is the number of. -/
def readLine : JsString → Option (ℕ × Instruction)
  | 'A' :: 'T' :: '*' :: l => do
      let type ← AtType.ofText? (l.takeWhile (· ≠ '='))
      match fields ',' '"' false ((l.dropWhile (· ≠ '=')).drop 1) with
      | [] => none
      | number :: args => do
          some (← natural? number, ← instruction? type args)
  | _ => none

def readDatagram (text : JsString) : Option (List (ℕ × Instruction)) := do
  (← lines? '\r' text).mapM readLine

end Reader

section Numbers

theorem isDigit_of_mem_decimal {n : ℕ} {c : Char} (h : c ∈ decimal n) : c.isDigit = true :=
  Nat.isDigit_of_mem_toDigits (by decide) (by decide) h

/-- Digits are none of the marks of the format. -/
theorem not_mem_decimal {n : ℕ} {c : Char} (h : c.isDigit = false) : c ∉ decimal n := by
  intro member
  rw [isDigit_of_mem_decimal member] at h
  cases h

theorem natural?_decimal (n : ℕ) : natural? (decimal n) = some n := by
  have digits : (decimal n).all Char.isDigit = true :=
    List.all_eq_true.mpr fun _ => isDigit_of_mem_decimal
  rw [natural?, if_pos ⟨Nat.toDigits_ne_nil, digits⟩, decimal, Nat.ofDigitChars_ten_toDigits]

theorem integer?_decimal (n : ℕ) : integer? (decimal n) = some (n : ℤ) := by
  unfold integer?
  split
  · next l same =>
      have member : '-' ∈ decimal n := by
        rw [same]
        exact List.mem_cons_self
      exact absurd member (not_mem_decimal (by decide))
  · rw [natural?_decimal, Option.map_some]

theorem integer?_integer (z : ℤ) : integer? (integer z) = some z := by
  unfold integer
  split
  · next negative =>
      rw [integer?, natural?_decimal, Option.map_some, Option.some_inj]
      omega
  · next positive =>
      rw [integer?_decimal, Int.natAbs_of_nonneg (not_lt.mp positive)]

theorem toInt32_eq {n : ℕ} (h : n < 2 ^ 32) : toInt32 n = signed (2 ^ 32) n := by
  rw [toInt32, Nat.mod_eq_of_lt h]

/-- The bits come back out of the number that is sent for them. -/
theorem unsigned_floatString (x : JsNumber) :
    unsigned (2 ^ 32) (floatString x) = x.toBits 8 23 := by
  have size : x.toBits 8 23 < 2 ^ 32 := JsNumber.toBits_lt (by decide) x
  rw [floatString, toInt32_eq size, neg_sub, sub_neg_eq_add, add_sub_cancel_left,
    Library.unsigned_signed size]

/-- The 32 bits sent for a number in the range of floats stand for a float, and no float is nearer. -/
theorem floatString_nearest {q : ℚ} (range : |q| ≤ (2 ^ 24 - 1) * 2 ^ 104) :
    -2 ^ 31 ≤ floatString (.finite q) ∧ floatString (.finite q) < 2 ^ 31 ∧
    ∃ d, (JsNumber.ofBits 8 23 (unsigned (2 ^ 32) (floatString (.finite q)))).rational? = some d ∧
      ∀ bits s, (JsNumber.ofBits 8 23 bits).rational? = some s → |d - q| ≤ |s - q| := by
  have largest : (JsNumber.format 8 23).Holds ((2 ^ 24 - 1) * 2 ^ 104) :=
    ⟨2 ^ 24 - 1, 104, by norm_num [JsNumber.format], by norm_num [JsNumber.format], by norm_num⟩
  have size : (JsNumber.finite q).toBits 8 23 < 2 ^ 32 := JsNumber.toBits_lt (by decide) _
  have value : floatString (.finite q) = signed (2 ^ 32) ((JsNumber.finite q).toBits 8 23) := by
    rw [floatString, toInt32_eq size]
    ring
  refine ⟨?_, ?_, _, ?_, fun bits s float => Library.Floating.round_nearest
    (JsNumber.ofBits_holds float)⟩
  · rw [value, signed]
    split <;> omega
  · rw [value, signed]
    split <;> omega
  · rw [unsigned_floatString, JsNumber.ofBits_toBits (by decide) (by decide), JsNumber.toFormat]
    exact JsNumber.rounded_finite largest (by norm_num) range

/-- A speed of `0.05` is no float. -/
theorem floatString_nearest_speed : ∃ d : ℚ,
    (JsNumber.ofBits 8 23 (unsigned (2 ^ 32) (floatString speed))).rational? = some d ∧
      ∀ bits s, (JsNumber.ofBits 8 23 bits).rational? = some s → |d - 1 / 20| ≤ |s - 1 / 20| :=
  (@floatString_nearest (1 / 20) (by norm_num)).2.2

/-- What the drone reads is the nearest float. -/
theorem float?_floatString (x : JsNumber) :
    float? (integer (floatString x)) = some (x.toFormat 8 23) := by
  rw [float?, integer?_integer, Option.map_some, unsigned_floatString,
    JsNumber.ofBits_toBits (by decide) (by decide)]

theorem float?_zero : float? (decimal 0) = some (.finite 0) := by
  have zero : floatString (.finite 0) = 0 := by
    rw [floatString, JsNumber.toBits, if_pos rfl]
    decide
  have read := float?_floatString (.finite 0)
  rw [zero, JsNumber.toFormat, JsNumber.rounded_zero] at read
  exact read

end Numbers

section Says
variable {c : AtCommand} {i : Instruction}

/-- A command without its end. -/
def AtCommand.line (c : AtCommand) (sequenceNumber : ℕ) : JsString :=
  "AT*".toList ++ c.type.text ++
    '=' :: [','].intercalate (decimal sequenceNumber :: c.args.map AtArg.toText)

def Instruction.isConfig : Instruction → Bool
  | .config _ _ => true
  | .ref _ _ | .pcmd _ _ _ _ _ | .ctrl _ _ | .ftrim | .calib _ => false

/-- The arguments of `c` cannot be mistaken, and they stand for `i`. -/
structure AtCommand.Says (c : AtCommand) (i : Instruction) : Prop where
  intact : ∀ a ∈ c.args, Intact ',' '"' false a.toText
  unended : ∀ a ∈ c.args, '\r' ∉ a.toText
  said : instruction? c.type (c.args.map AtArg.toText) = some i
  blocks : c.blocks = i.isConfig

theorem intact_decimal (n : ℕ) : Intact ',' '"' false (decimal n) :=
  Library.intact_of_not_mem (not_mem_decimal (by decide)) (not_mem_decimal (by decide))

theorem not_mem_type {c : Char} (h : c = '=' ∨ c = '\r') (t : AtType) : c ∉ t.text := by
  rcases h with rfl | rfl <;> cases t <;> decide

theorem ofText?_text (t : AtType) : AtType.ofText? t.text = some t := by
  cases t <;> decide

theorem AtCommand.Says.readLine (h : c.Says i) (n : ℕ) : readLine (c.line n) = some (n, i) := by
  have letters : ∀ x ∈ c.type.text, decide (x ≠ '=') = true := by
    intro x member
    rw [decide_eq_true_eq]
    rintro rfl
    exact not_mem_type (.inl rfl) _ member
  have args : ∀ w ∈ decimal n :: c.args.map AtArg.toText, Intact ',' '"' false w := by
    intro w member
    rcases List.mem_cons.mp member with rfl | later
    · exact intact_decimal n
    · obtain ⟨a, ha, rfl⟩ := List.mem_map.mp later
      exact h.intact a ha
  have opened : c.line n = 'A' :: 'T' :: '*' :: (c.type.text ++
      '=' :: [','].intercalate (decimal n :: c.args.map AtArg.toText)) := rfl
  have type : (c.type.text ++ '=' :: [','].intercalate (decimal n :: c.args.map AtArg.toText)).takeWhile
      (· ≠ '=') = c.type.text := by
    rw [List.takeWhile_append_of_pos letters, List.takeWhile_cons_of_neg (by decide), List.append_nil]
  have rest : ((c.type.text ++ '=' :: [','].intercalate (decimal n ::
      c.args.map AtArg.toText)).dropWhile (· ≠ '=')).drop 1 =
        [','].intercalate (decimal n :: c.args.map AtArg.toText) := by
    rw [List.dropWhile_append_of_pos letters, List.dropWhile_cons_of_neg (by decide)]
    rfl
  rw [opened]
  simp only [DroneParking.readLine, type, rest, ofText?_text,
    Library.fields_intercalate (List.cons_ne_nil _ _) args, natural?_decimal, h.said,
    Option.bind_eq_bind, Option.bind_some]

theorem AtCommand.Says.not_mem_line (h : c.Says i) (n : ℕ) : '\r' ∉ c.line n := by
  have args : '\r' ∉ [','].intercalate (decimal n :: c.args.map AtArg.toText) := by
    refine Library.not_mem_intercalate (by decide) fun w member => ?_
    rcases List.mem_cons.mp member with rfl | later
    · exact not_mem_decimal (by decide)
    · obtain ⟨a, ha, rfl⟩ := List.mem_map.mp later
      exact h.unended a ha
  have type := not_mem_type (.inr rfl) c.type
  rw [AtCommand.line, List.mem_append, List.mem_append, List.mem_cons]
  rintro ((front | middle) | same | last)
  · exact absurd front (by decide)
  · exact type middle
  · exact absurd same (by decide)
  · exact args last

/-- The text of commands that say something is read as what they say, number for number. -/
theorem readDatagram_datagram {commands : List (AtCommand × ℕ)}
    (h : ∀ c ∈ commands, ∃ i, c.1.Says i) : ∃ lines, readDatagram (datagram commands) = some lines ∧
      List.Forall₂ (fun c l => c.2 = l.1 ∧ c.1.Says l.2) commands lines := by
  have text : datagram commands = (commands.map fun c => c.1.line c.2).flatMap (· ++ ['\r']) := by
    rw [List.flatMap_map]
    rfl
  have ended : ∀ l ∈ commands.map fun c => c.1.line c.2, '\r' ∉ l := by
    intro l member
    obtain ⟨c, hc, rfl⟩ := List.mem_map.mp member
    obtain ⟨i, meaning⟩ := h c hc
    exact meaning.not_mem_line c.2
  rw [text]
  unfold readDatagram
  rw [Library.lines?_flatMap ended]
  clear ended text
  induction commands with
  | nil => exact ⟨[], rfl, .nil⟩
  | cons c commands ih =>
      obtain ⟨i, meaning⟩ := h c List.mem_cons_self
      obtain ⟨lines, read, same⟩ := ih fun d hd => h d (List.mem_cons_of_mem _ hd)
      refine ⟨(c.2, i) :: lines, ?_, .cons ⟨rfl, meaning⟩ same⟩
      simp only [Option.bind_eq_bind, Option.bind_some] at read ⊢
      rw [List.map_cons, List.mapM_cons, meaning.readLine, read]
      rfl

theorem ctrl_tells (controlMode otherMode : ℕ) :
    (AtCommandCreator.ctrl controlMode otherMode).Says (.ctrl controlMode otherMode) where
  intact := by
    intro a member
    rcases List.mem_pair.mp member with rfl | rfl <;> exact intact_decimal _
  unended := by
    intro a member
    rcases List.mem_pair.mp member with rfl | rfl <;> exact not_mem_decimal (by decide)
  said := by
    simp only [AtCommandCreator.ctrl, List.map_cons, List.map_nil, AtArg.toText, instruction?,
      natural?_decimal, Option.bind_eq_bind, Option.bind_some]
  blocks := rfl

theorem ref_tells (options : Ref) : (AtCommandCreator.ref options).Says
    (.ref (decide (options.fly = some true)) (decide (options.emergency = some true))) where
  intact := by
    intro a member
    rw [List.mem_singleton.mp member]
    exact intact_decimal _
  unended := by
    intro a member
    rw [List.mem_singleton.mp member]
    exact not_mem_decimal (by decide)
  said := by
    simp only [AtCommandCreator.ref, List.map_cons, List.map_nil, AtArg.toText, instruction?,
      natural?_decimal, Option.bind_eq_bind, Option.bind_some]
    by_cases fly : options.fly = some true <;>
      by_cases emergency : options.emergency = some true <;> simp only [fly, emergency] <;> decide
  blocks := rfl

theorem unquote?_quoted (s : JsString) : unquote? ('"' :: (s ++ ['"'])) = some s := by
  rw [unquote?, List.getLast?_concat, if_pos rfl, List.dropLast_concat]

theorem config_tells {key value : String} (hk : '"' ∉ key.toList ∧ '\r' ∉ key.toList)
    (hv : '"' ∉ value.toList ∧ '\r' ∉ value.toList) :
    (AtCommandCreator.config key value).Says (.config key.toList value.toList) := by
  have quoted (t : String) : (AtArg.text ("\"" ++ t ++ "\"")).toText = '"' :: (t.toList ++ ['"']) := by
    rw [AtArg.toText, String.toList_append, String.toList_append]
    rfl
  constructor
  · intro a member
    rcases List.mem_pair.mp member with rfl | rfl
    · rw [quoted]
      exact Library.intact_quoted (by decide) hk.1
    · rw [quoted]
      exact Library.intact_quoted (by decide) hv.1
  · intro a member
    rcases List.mem_pair.mp member with rfl | rfl
    · rw [quoted]
      simpa using hk.2
    · rw [quoted]
      simpa using hv.2
  · simp only [AtCommandCreator.config, List.map_cons, List.map_nil, quoted, instruction?,
      unquote?_quoted, Option.bind_eq_bind, Option.bind_some]
  · rfl

end Says

section Motion

/-- The speed along an axis, counted towards `key`. -/
def axis (r : Record PcmdKey JsNumber) (key : PcmdKey) : JsNumber :=
  match r.get key with
  | some speed => speed
  | none =>
      match r.get (Client.opposite key) with
      | some speed => speed.neg
      | none => .finite 0

/-- No axis is given two speeds. -/
def Apart (r : Record PcmdKey JsNumber) : Prop :=
  ∀ key, r.get key ≠ none → r.get (Client.opposite key) = none

/-- The number that an argument stands for. -/
def slot (l : List (PcmdKey × JsNumber)) (index : ℕ) : AtArg :=
  match l.reverse.find? fun e => (AtCommandCreator.PCMD_ALIASES e.1).index = index with
  | some e => .floatString (if (AtCommandCreator.PCMD_ALIASES e.1).invert then e.2.neg else e.2)
  | none => .num 0

theorem pcmd_slots (l : List (PcmdKey × JsNumber)) :
    l.foldl AtCommandCreator.pcmdArg [.num 0, .num 0, .num 0, .num 0, .num 0] =
      [.num (if l = [] then 0 else 1), slot l 1, slot l 2, slot l 3, slot l 4] := by
  induction l using List.reverseRecOn with
  | nil => rfl
  | append_singleton l e ih =>
      rw [List.foldl_append, ih, List.foldl_cons, List.foldl_nil, if_neg (List.concat_ne_nil _ _)]
      obtain ⟨key, speed⟩ := e
      have flag : (if l = [] then 0 else 1) ||| AtCommandCreator.PCMD_FLAGS.progressive = 1 := by
        split <;> rfl
      simp only [slot, List.reverse_append, List.reverse_singleton, List.singleton_append,
        List.find?_cons, AtCommandCreator.pcmdArg]
      cases key <;> simp [AtCommandCreator.PCMD_ALIASES, AtCommandCreator.orFlag, flag]

theorem index_eq_iff (k key : PcmdKey) :
    (AtCommandCreator.PCMD_ALIASES k).index = (AtCommandCreator.PCMD_ALIASES key).index ↔
      k = key ∨ k = Client.opposite key := by
  cases k <;> cases key <;> decide

theorem invert_opposite (key : PcmdKey) : (AtCommandCreator.PCMD_ALIASES (Client.opposite key)).invert =
    !(AtCommandCreator.PCMD_ALIASES key).invert := by
  cases key <;> rfl

theorem opposite_opposite (key : PcmdKey) : Client.opposite (Client.opposite key) = key := by
  cases key <;> rfl

section Slots
variable {r : Record PcmdKey JsNumber}

theorem slot_axis (apart : Apart r) (key : PcmdKey)
    (upright : (AtCommandCreator.PCMD_ALIASES key).invert = false) :
    float? (slot r.entries (AtCommandCreator.PCMD_ALIASES key).index).toText =
      some ((axis r key).toFormat 8 23) := by
  unfold slot axis
  cases found : r.entries.reverse.find? fun e =>
      (AtCommandCreator.PCMD_ALIASES e.1).index = (AtCommandCreator.PCMD_ALIASES key).index with
  | none =>
      have absent (k : PcmdKey) (same : k = key ∨ k = Client.opposite key) : r.get k = none := by
        by_contra given
        obtain ⟨speed, hs⟩ := Option.ne_none_iff_exists'.mp given
        have member := List.mem_reverse.mpr (Library.Record.mem_entries.mpr hs)
        have other := List.find?_eq_none.mp found _ member
        exact other (decide_eq_true ((index_eq_iff _ _).mpr same))
      simp only [absent key (.inl rfl), absent _ (.inr rfl)]
      rw [JsNumber.toFormat, JsNumber.rounded_zero]
      exact float?_zero
  | some e =>
      obtain ⟨k, speed⟩ := e
      have member := List.mem_reverse.mp (List.mem_of_find?_eq_some found)
      have given := Library.Record.mem_entries.mp member
      have same := (index_eq_iff k key).mp (by simpa using List.find?_some found)
      rcases same with rfl | rfl
      · simp only [given, upright, Bool.false_eq_true, if_false]
        exact float?_floatString speed
      · have none := apart _ (by rw [given]; exact Option.some_ne_none _)
        rw [opposite_opposite] at none
        simp only [none, given, invert_opposite, upright, Bool.not_false, if_true]
        exact float?_floatString speed.neg

theorem mem_integer {z : ℤ} {c : Char} (h : c ∈ integer z) : c = '-' ∨ c.isDigit = true := by
  unfold integer at h
  split at h
  · rcases List.mem_cons.mp h with rfl | digits
    · exact .inl rfl
    · exact .inr (isDigit_of_mem_decimal digits)
  · exact .inr (isDigit_of_mem_decimal h)

theorem not_mem_integer {z : ℤ} {c : Char} (minus : c ≠ '-') (digit : c.isDigit = false) :
    c ∉ integer z := by
  intro member
  rcases mem_integer member with same | digits
  · exact minus same
  · rw [digit] at digits
    cases digits

theorem not_mem_slot {l : List (PcmdKey × JsNumber)} {index : ℕ} {c : Char} (minus : c ≠ '-')
    (digit : c.isDigit = false) : c ∉ (slot l index).toText := by
  unfold slot
  split
  · exact not_mem_integer minus digit
  · exact not_mem_decimal digit

theorem pcmd_tells (apart : Apart r) : (AtCommandCreator.pcmd r).Says
    (.pcmd (decide (r.entries ≠ [])) ((axis r .right).toFormat 8 23) ((axis r .back).toFormat 8 23)
      ((axis r .up).toFormat 8 23) ((axis r .clockwise).toFormat 8 23)) := by
  have slots : (AtCommandCreator.pcmd r).args = _ := pcmd_slots r.entries
  have absent {c : Char} (minus : c ≠ '-') (digit : c.isDigit = false) :
      ∀ a ∈ (AtCommandCreator.pcmd r).args, c ∉ a.toText := by
    rw [slots]
    simp only [List.forall_mem_cons, List.not_mem_nil, false_imp_iff, implies_true, and_true,
      not_mem_slot minus digit, not_false_eq_true]
    exact not_mem_decimal digit
  refine ⟨fun a ha => Library.intact_of_not_mem (absent (by decide) (by decide) a ha)
    (absent (by decide) (by decide) a ha), absent (by decide) (by decide), ?_, rfl⟩
  have progressive : natural? (AtArg.num (if r.entries = [] then 0 else 1)).toText =
      some (if r.entries = [] then 0 else 1) := natural?_decimal _
  rw [slots]
  change instruction? .PCMD _ = _
  simp only [List.map_cons, List.map_nil, instruction?, progressive,
    show float? (slot r.entries 1).toText = _ from slot_axis apart .right rfl,
    show float? (slot r.entries 2).toText = _ from slot_axis apart .back rfl,
    show float? (slot r.entries 3).toText = _ from slot_axis apart .up rfl,
    show float? (slot r.entries 4).toText = _ from slot_axis apart .clockwise rfl,
    Option.bind_eq_bind, Option.bind_some]
  by_cases empty : r.entries = [] <;> simp [empty]

end Slots

end Motion

example : readDatagram (datagram [(AtCommandCreator.ref ⟨some true, none⟩, 7)]) =
    some [(7, .ref true false)] := by decide

end DroneParking
