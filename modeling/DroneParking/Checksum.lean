import DroneParking.Packet

/-!
# What the checksum guards

A packet as the drone sends it ends with the sum of the bytes before its last
option. Such packets are parsed to what was put into them, and of their changes
those go unnoticed that leave the sum alone.
-/
namespace DroneParking

open Library (Bytes Document Record little toLittle)

theorem byteSum_append (a b : Bytes) : byteSum (a ++ b) = byteSum a + byteSum b := by
  rw [byteSum, List.map_append, List.sum_append]
  rfl

theorem byteSum_cons (b : UInt8) (l : Bytes) : byteSum (b :: l) = b.toNat + byteSum l := rfl

theorem byteSum_lt (l : Bytes) (h : l.length < 2 ^ 24) : byteSum l < 256 ^ 4 := by
  have bound : byteSum l ≤ 255 * l.length := by
    clear h
    induction l with
    | nil => exact le_rfl
    | cons b l ih =>
        have := b.toNat_lt
        rw [byteSum_cons, List.length_cons]
        omega
  omega

namespace Packet

/-- Nothing is missing of the last option, and nothing follows it. -/
def Closed (p : Packet) : Prop := p.rest.length + 4 = p.length

/-- The packet with its own checksum at the end. -/
def sealed (p : Packet) : Packet := { p with
  length := 8
  rest := toLittle 4 (byteSum p.front)
  least := le_rfl
  most := by decide }

variable {p q : Packet}

theorem sealed_closed (p : Packet) : p.sealed.Closed := by
  rw [Closed, sealed, Library.length_toLittle]

theorem Closed.expectedChecksum (h : p.Closed) : p.expectedChecksum = byteSum p.front := by
  have last : p.bytes.length - p.length = p.front.length := by
    rw [← (show p.rest.length + 4 = p.length from h), bytes, checksumHead]
    simp only [List.length_append, Library.length_toLittle]
    omega
  rw [Packet.expectedChecksum, last, bytes, List.take_left]

theorem sealed_right (small : p.front.length < 2 ^ 24) :
    p.sealed.checksum = p.sealed.expectedChecksum := by
  have whole : (toLittle 4 (byteSum p.front)).take 4 = toLittle 4 (byteSum p.front) :=
    List.take_of_length_le (Library.length_toLittle _ _).le
  rw [p.sealed_closed.expectedChecksum]
  change little ((toLittle 4 (byteSum p.front)).take 4) = byteSum p.front
  rw [whole, Library.little_toLittle (byteSum_lt _ small)]

end Packet

/-- The options of a packet that are stored under a name. -/
def named (os : List PacketOption) (name : Option OptionName) : List PacketOption :=
  os.filter fun o => decide (OPTION_IDS o.id = name)

/-- The value under a name is that of the last option with the name. -/
theorem foldl_add_get (os : List PacketOption) (navdata : ParsedNavdata) (name : Option OptionName) :
    (os.foldl ParsedNavdata.add navdata).options.get name =
      ((named os name).getLast?.map PacketOption.value).or (navdata.options.get name) := by
  induction os using List.reverseRecOn with
  | nil => rfl
  | append_singleton os o ih =>
      rw [List.foldl_append, List.foldl_cons, List.foldl_nil, ParsedNavdata.add, Record.get_set, named,
        List.filter_append]
      by_cases same : name = OPTION_IDS o.id
      · rw [if_pos same, List.filter_cons_of_pos (by simp [same]), List.filter_nil, List.getLast?_concat]
        rfl
      · rw [if_neg same, List.filter_cons_of_neg (by simpa using Ne.symm same), List.filter_nil,
          List.append_nil]
        exact ih

theorem foldl_add_header (os : List PacketOption) (navdata : ParsedNavdata) :
    (os.foldl ParsedNavdata.add navdata).header = navdata.header ∧
      (os.foldl ParsedNavdata.add navdata).droneState = navdata.droneState ∧
      (os.foldl ParsedNavdata.add navdata).sequenceNumber = navdata.sequenceNumber ∧
      (os.foldl ParsedNavdata.add navdata).visionFlag = navdata.visionFlag := by
  induction os generalizing navdata with
  | nil => exact ⟨rfl, rfl, rfl, rfl⟩
  | cons o os ih => exact ih (navdata.add o)

/-- The words of an option are found again, whatever follows them in the payload. -/
theorem value_words {o : PacketOption} {parser : OptionParser} {words : Words} {extra : Bytes}
    (known : (OPTION_IDS o.id).bind OPTION_PARSERS = some parser) (shape : words.shape = parser.layout)
    (payload : o.payload = words.bytes ++ extra) :
    o.value = .parsed (parser.result words.readings) := by
  have found : parser.words o.payload = words := by
    rw [OptionParser.words, payload, ← shape, Document.scan_bytes]
  rw [PacketOption.value, known]
  simp only [found]

theorem and_shift_ne_zero (value i : ℕ) : value &&& 1 <<< i ≠ 0 ↔ value.testBit i = true := by
  rw [Nat.one_shiftLeft, Nat.and_two_pow]
  cases value.testBit i <;> simp

/-- The flag in place `i` is bit `i` of the state. -/
theorem mask_bit (value : ℕ) {i : ℕ} {flag : String × ℕ} (h : DRONE_STATES[i]? = some flag) :
    (NavdataReader.mask DRONE_STATES value)[i]? = some (flag.1, (value.testBit i).toNat) := by
  have bits : DRONE_STATES.map Prod.snd = (List.range 32).map (1 <<< ·) := by decide
  have bit : flag.2 = 1 <<< i := by
    have found := congrArg (·[i]?) bits
    simp only [List.getElem?_map, h, Option.map_some] at found
    obtain ⟨_, place, value⟩ := Option.map_eq_some_iff.mp found.symm
    obtain ⟨_, same⟩ := List.getElem?_eq_some_iff.mp place
    rw [List.getElem_range] at same
    rw [← value, same]
  rw [NavdataReader.mask, List.getElem?_map, h, Option.map_some]
  simp only [bit, and_shift_ne_zero]
  cases value.testBit i <;> rfl

/-- Whatever words, options and payloads a packet is made of, its bytes with the sum behind them
are parsed to the words, to the bits of the state and, under each name, to the last option of that
name, word by word. -/
theorem parseNavdata_sealed (p : Packet) (small : p.front.length < 2 ^ 24) :
    ∃ navdata, parseNavdata p.sealed.bytes = .ok (some navdata) ∧
      navdata.header = p.header ∧ navdata.sequenceNumber = p.sequenceNumber.toNat ∧
      navdata.visionFlag = p.visionFlag.toNat ∧
      (∀ i flag, DRONE_STATES[i]? = some flag →
        navdata.droneState[i]? = some (flag.1, (p.state.toNat.testBit i).toNat)) ∧
      (∀ name, navdata.options.get name = (named p.options name).getLast?.map PacketOption.value) ∧
      ∀ o ∈ p.options, ∀ (parser : OptionParser) (words : Words) (extra : Bytes),
        (OPTION_IDS o.id).bind OPTION_PARSERS = some parser → words.shape = parser.layout →
        o.payload = words.bytes ++ extra → o.value = .parsed (parser.result words.readings) := by
  obtain ⟨header, state, number, flag⟩ := foldl_add_header p.options p.head
  refine ⟨p.navdata, ?_, header, number, flag, ?_, ?_, fun o _ parser words extra => value_words⟩
  · rw [parseNavdata_bytes, if_pos (Packet.sealed_right small)]
    rfl
  · intro i flag place
    rw [show p.navdata.droneState = _ from state]
    exact mask_bit _ place
  · intro name
    rw [Packet.navdata, foldl_add_get, Packet.head, Record.get_empty, Option.or_none]

theorem parseNavdata_sealed_watchdog : ∃ (p : Packet) (navdata : ParsedNavdata),
    parseNavdata p.sealed.bytes = .ok (some navdata) ∧ navdata.header = NAVDATA_HEADER1 ∧
      navdata.options.get (some .watchdog) = some (.parsed (.leaf (.number (.finite (5 : ℕ))))) := by
  let o : PacketOption := ⟨17, toLittle 4 5, by decide, by decide, by decide, by rintro _ ⟨⟩; decide⟩
  let p : Packet := ⟨NAVDATA_HEADER1, 0, 1, 0, [o], 8, [], .inl rfl, le_rfl, by decide⟩
  obtain ⟨navdata, parsed, header, _, _, _, found, value⟩ := parseNavdata_sealed p (by decide)
  have words := value o List.mem_cons_self .watchdog
    (.leaf ⟨⟨4, fun n => .number (.finite n)⟩, 5, by decide⟩) [] rfl rfl rfl
  exact ⟨p, navdata, parsed, header, (found (some .watchdog)).trans (congrArg some words)⟩

namespace Packet

/-- Where the last option keeps its place and its length, one changed byte up to the end of the sum
puts the sum wrong. -/
theorem changed_wrong {p q : Packet} (closed : p.Closed) (right : p.checksum = p.expectedChecksum)
    {a c : Bytes} {x y : UInt8} (hp : p.bytes = a ++ x :: c) (hq : q.bytes = a ++ y :: c)
    (differs : x ≠ y) (place : a.length < p.front.length + 8)
    (front : q.front.length = p.front.length) (length : q.length = p.length) :
    q.checksum ≠ q.expectedChecksum := by
  have sizes : p.rest.length + 4 = p.length := closed
  have whole : q.bytes.length = p.bytes.length := by
    rw [hp, hq, List.length_append, List.length_append, List.length_cons, List.length_cons]
  simp only [bytes, checksumHead, List.length_append, Library.length_toLittle] at whole
  have closed' : q.Closed := by
    rw [Closed]
    omega
  rw [closed.expectedChecksum] at right
  rw [closed'.expectedChecksum]
  intro wrong
  rcases Library.append_changed front hp hq with ⟨c', before, after, same⟩ | ⟨a', rfl, same, tail, tail'⟩
  · -- the byte is in front of the last option, which is left alone
    rw [length] at same
    have stored : q.checksum = p.checksum := by
      rw [checksum, List.append_cancel_left same]
      rfl
    rw [stored, right, before, after, byteSum_append, byteSum_append, byteSum_cons, byteSum_cons] at wrong
    exact differs (UInt8.toNat_inj.mp (by omega))
  · rw [length] at tail'
    rcases Library.append_changed rfl tail tail' with ⟨c', head, head', _⟩ | ⟨b, rfl, _, rest, rest'⟩
    · rw [head] at head'
      exact differs (List.head_eq_of_cons_eq (List.append_cancel_left head'))
    · -- the byte is one of the four of the sum
      have within : b.length < 4 := by
        simp only [checksumHead, List.length_append, Library.length_toLittle] at place
        omega
      obtain ⟨k, hk⟩ := Nat.exists_eq_add_of_lt within
      have four (z : UInt8) : (b ++ z :: c).take 4 = b ++ z :: c.take k := by
        rw [List.take_append, List.take_of_length_le (by omega), show 4 - b.length = k + 1 by omega,
          List.take_succ_cons]
      rw [same, ← right, checksum, checksum, rest, rest', four, four] at wrong
      exact differs (Library.little_changed b _ wrong).symm

end Packet

/-- A change of an accepted packet that leaves its last option alone goes unnoticed exactly if it
keeps the sum of the bytes. A change of a single byte up to the end of the sum is noticed unless it
moves the last option or changes its length. -/
theorem changed_packet {p : Packet} (closed : p.Closed) (right : p.checksum = p.expectedChecksum) :
    (∀ q : Packet, q.length = p.length → q.rest = p.rest →
      parseNavdata q.bytes = if byteSum q.front = byteSum p.front then .ok (some q.navdata)
        else .error (.invalidChecksum (byteSum q.front) (byteSum p.front))) ∧
    ∀ a x y c, p.bytes = a ++ x :: c → x ≠ y → a.length < p.front.length + 8 →
      (∀ q : Packet, q.bytes = a ++ y :: c → q.front.length = p.front.length → q.length = p.length →
        parseNavdata q.bytes = .error (.invalidChecksum q.expectedChecksum q.checksum)) ∧
      ∀ navdata, parseNavdata (a ++ y :: c) = .ok (some navdata) → ∃ q : Packet,
        q.bytes = a ++ y :: c ∧ (q.front.length ≠ p.front.length ∨ q.length ≠ p.length) := by
  constructor
  · intro q length rest
    have closed' : q.Closed := by
      rw [Packet.Closed, rest, length]
      exact closed
    have stored : q.checksum = byteSum p.front := by
      rw [← closed.expectedChecksum, ← right, Packet.checksum, rest]
      rfl
    rw [parseNavdata_bytes, stored, closed'.expectedChecksum]
    simp only [eq_comm]
  · intro a x y c hp differs place
    constructor
    · intro q hq front length
      rw [parseNavdata_bytes,
        if_neg (Packet.changed_wrong closed right hp hq differs place front length)]
    · -- what is accepted is a packet with the right sum, so it is framed in another way
      intro navdata accepted
      obtain ⟨q, hq, right', _⟩ := parseNavdata_ok accepted
      refine ⟨q, hq, not_and_or.mp fun same => ?_⟩
      exact Packet.changed_wrong closed right hp hq differs place same.1 same.2 right'

/-- Two words exchanged are not noticed; a changed bit is. -/
theorem changed_packet_exchanged : ∃ p q r : Packet, p.bytes ≠ q.bytes ∧
    parseNavdata q.bytes = .ok (some q.navdata) ∧
    parseNavdata r.bytes = .error (.invalidChecksum r.expectedChecksum r.checksum) := by
  let p : Packet := ⟨NAVDATA_HEADER1, 1, 2, 0, [], 8, [], .inl rfl, le_rfl, by decide⟩
  let q : Packet := { p.sealed with state := 2, sequenceNumber := 1 }
  let r : Packet := { p.sealed with state := 3 }
  have changes := changed_packet p.sealed_closed (Packet.sealed_right (p := p) (by decide))
  have exchanged := changes.1 q rfl rfl
  rw [if_pos (by decide)] at exchanged
  exact ⟨p.sealed, q, r, by decide, exchanged,
    (changes.2 (p.sealed.bytes.take 4) 1 3 (p.sealed.bytes.drop 5) (by decide) (by decide)
      (by decide)).1 r (by decide) rfl rfl⟩

/-- The length of an option changed from 12 to 4: its payload is now taken for the last option. -/
example : ∃ (p q : Packet) (a c : Bytes), p.sealed.bytes = a ++ 12 :: c ∧ q.bytes = a ++ 4 :: c ∧
    q.checksum = q.expectedChecksum := by
  let o : PacketOption := ⟨40, [255, 255, 255, 255, 0, 0, 0, 0], by decide, by decide, by decide,
    by rintro _ ⟨⟩⟩
  let o' : PacketOption := ⟨40, [], by decide, by decide, by decide, by rintro _ ⟨⟩⟩
  let p : Packet := ⟨NAVDATA_HEADER1, 0, 1, 0, [o], 8, [], .inl rfl, le_rfl, by decide⟩
  let q : Packet := ⟨NAVDATA_HEADER1, 0, 1, 0, [o'], 65535, p.sealed.bytes.drop 24, .inl rfl,
    by decide, by decide⟩
  exact ⟨p, q, p.sealed.bytes.take 18, p.sealed.bytes.drop 19, by decide, by decide, by decide⟩

end DroneParking
