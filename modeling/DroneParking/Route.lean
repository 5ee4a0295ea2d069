import DroneParking.Waypoints

/-!
# The route

The waypoint file as the pairs it stands for, and how far along them the search is. A
packet that throws is followed too, in the state in which it leaves the process.
-/
namespace DroneParking

open Library (Run endState)

structure NumberLine where
  text : JsString
  nonempty : text ≠ []
  single : '\n' ∉ text

structure Waypoint where
  latitude : NumberLine
  longitude : NumberLine

/-- A waypoint file: at least one pair, a number a line, and perhaps a newline at the end. -/
structure Itinerary where
  pairs : List Waypoint
  nonempty : pairs ≠ []
  trailing : Bool

namespace Itinerary

def lines (it : Itinerary) : List JsString :=
  it.pairs.flatMap fun w => [w.latitude.text, w.longitude.text]

def text (it : Itinerary) : JsString :=
  ['\n'].intercalate it.lines ++ if it.trailing then ['\n'] else []

/-- What `split("\n")` makes of the file: the newline at the end adds an empty string. -/
def array (it : Itinerary) : List JsString := it.lines ++ if it.trailing then [[]] else []

theorem mem_lines {it : Itinerary} {l : JsString} (h : l ∈ it.lines) : '\n' ∉ l := by
  obtain ⟨w, _, member⟩ := List.mem_flatMap.mp h
  rcases List.mem_pair.mp member with rfl | rfl
  · exact w.latitude.single
  · exact w.longitude.single

theorem lines_ne_nil (it : Itinerary) : it.lines ≠ [] := by
  obtain ⟨w, rest, same⟩ := List.exists_cons_of_ne_nil it.nonempty
  rw [lines, same]
  exact List.cons_ne_nil _ _

theorem splitOn_text (it : Itinerary) : it.text.splitOn '\n' = it.array := by
  have split := List.splitOn_intercalate '\n' (fun _ => mem_lines) it.lines_ne_nil
  unfold text array
  cases it.trailing with
  | false => simpa using split
  | true =>
      simp only [if_true]
      rw [List.splitOn_append_cons_self, split]
      rfl

theorem lines_length (it : Itinerary) : it.lines.length = 2 * it.pairs.length := by
  rw [lines, List.length_flatMap]
  simp [Nat.mul_comm]

theorem array_length (it : Itinerary) :
    it.array.length = 2 * it.pairs.length + it.trailing.toNat := by
  rw [array, List.length_append, lines_length]
  cases it.trailing <;> rfl

theorem lines_pair {pairs : List Waypoint} {k : ℕ} {w : Waypoint} (h : pairs[k]? = some w) :
    (pairs.flatMap fun w => [w.latitude.text, w.longitude.text])[2 * k]? = some w.latitude.text ∧
      (pairs.flatMap fun w => [w.latitude.text, w.longitude.text])[2 * k + 1]? =
        some w.longitude.text := by
  induction pairs generalizing k with
  | nil => cases h
  | cons v pairs ih =>
      cases k with
      | zero =>
          cases h
          exact ⟨rfl, rfl⟩
      | succ k => exact ih h

theorem array_pair {it : Itinerary} {k : ℕ} {w : Waypoint} (h : it.pairs[k]? = some w) :
    it.array[2 * k]? = some w.latitude.text ∧ it.array[2 * k + 1]? = some w.longitude.text := by
  obtain ⟨latitude, longitude⟩ := lines_pair h
  have inside := (List.getElem?_eq_some_iff.mp h).1
  have length := it.lines_length
  unfold array
  rw [List.getElem?_append_left (by omega), List.getElem?_append_left (by omega)]
  exact ⟨latitude, longitude⟩

end Itinerary

/-- One event, also when its callback throws. -/
def Attempt (rt : Runtime) (n : Node) (e : Event) (n' : Node) : Prop :=
  e.CanOccur n ∧ n' = endState (handle rt e n)

theorem Step.attempt {rt : Runtime} {n n' : Node} {e : Event} (step : Step rt n e n') :
    Attempt rt n e n' := by
  obtain ⟨can, done⟩ := step
  exact ⟨can, by rw [done]; rfl⟩

/-- The variables of the waypoint search. -/
def Node.search (n : Node) : List JsString × ℕ × Option JsString × Option JsString :=
  (n.array, n.arrayIndex, n.currentDestinationLatitude, n.currentDestinationLongitude)

theorem follow_search (n : Node) (orders : List Order) : (n.follow orders).search = n.search :=
  Node.follow_frame Node.search (fun _ _ => rfl) n orders

theorem searched_search {n m : Node} (h : n.search = m.search) (arrived : Bool) :
    (n.searched arrived).search = (m.searched arrived).search := by
  simp only [Node.search, Prod.mk.injEq] at h
  obtain ⟨array, arrayIndex, latitude, longitude⟩ := h
  unfold Node.searched Node.nextDestination
  rw [array, arrayIndex]
  cases arrived with
  | false => simp [Node.search, array, arrayIndex, latitude, longitude]
  | true =>
      by_cases more : (m.arrayIndex : ℤ) ≠ m.array.length - 1 <;>
        simp [Node.search, more, array, arrayIndex, latitude, longitude]

section Attempt
variable (toNumber : JsString → JsNumber)

/-- The packet reaches the searching listener at the current destination. -/
def arrives (n : Node) : Event → Bool
  | .navdata _ position => n.listening && !n.markerFound &&
      ((Runtime.atPosition toNumber).looseEq n.currentDestinationLatitude position.latitude &&
        (Runtime.atPosition toNumber).looseEq n.currentDestinationLongitude position.longitude)
  | _ => false

variable {toNumber} {n n' : Node}

/-- A packet takes the waypoint step before anything in it can throw. -/
theorem navdata_attempt (h : n.client.Sound) {data : Navdata} {position : Position}
    (attempt : Attempt (.atPosition toNumber) n (.navdata data position) n') :
    n'.search = (n.searched (arrives toNumber n (.navdata data position))).search ∧
      n'.client.Sound := by
  obtain ⟨u, sound, _, whole⟩ := @handleNavdata_apply (.atPosition toNumber) n h data position
  have met := received_sound h data sound
  have result := attempt.2
  rw [handle, whole] at result
  unfold arrives
  cases listening : n.listening with
  | false =>
      rw [listening] at result
      rw [result]
      exact ⟨rfl, processed_sound met data⟩
  | true =>
      rw [listening, if_pos rfl] at result
      cases found : n.markerFound with
      | true =>
          rw [@navdataListener_found _ (n.received data u) found] at result
          rw [result]
          exact ⟨rfl, processed_sound met data⟩
      | false =>
          rw [@navdataListener_searching _ (n.received data u) found, atDestination_bound rfl rfl]
            at result
          simp only [checkMagneto_apply] at result
          have searching := searched_sound met (arrives toNumber n (.navdata data position))
          have same : n.search = (n.received data u).search := rfl
          simp only [arrives, listening, found] at searching
          -- the step is taken whether the rest of the packet throws or not
          by_cases throws : (data.magneto.isSome && data.demo.isNone) = true
          · rw [if_pos throws] at result
            rw [result, searched_search same]
            exact ⟨rfl, searching⟩
          · rw [if_neg throws] at result
            rw [result, searched_search same]
            exact ⟨follow_search _ _, processed_sound (Node.follow_sound searching _) data⟩

theorem attempt_search (h : n.client.Sound) {e : Event}
    (attempt : Attempt (.atPosition toNumber) n e n') :
    n'.search = (n.searched (arrives toNumber n e)).search ∧ n'.client.Sound := by
  have settle (step : Step (.atPosition toNumber) n e n') (same : n'.search = n.search) :
      n'.search = (n.searched false).search ∧ n'.client.Sound := ⟨same, (step_sound h step).1⟩
  obtain ⟨can, result⟩ := id attempt
  cases e with
  | navdata data position => exact navdata_attempt h attempt
  | data connection chunk =>
      have step : Step (.atPosition toNumber) n (.data connection chunk) n' :=
        ⟨can, by rw [result, handle, dataHandler_apply]; rfl⟩
      refine settle step ?_
      rw [data_step.mp step]
      cases recognise chunk.trim with
      | none => rfl
      | some m => exact follow_search n m.order.toList
  | timeout fn =>
      cases result
      cases fn <;> exact settle ⟨can, rfl⟩ rfl
  | ackTimeout =>
      obtain ⟨u, expired, _⟩ := UdpControl.handleAckTimeout_sound h.udpControl can
      have step : Step (.atPosition toNumber) n .ackTimeout n' := by
        refine ⟨can, ?_⟩
        rw [result]
        simp only [handle, liftClient, expired]
        rfl
      obtain ⟨_, _, _, rfl⟩ := ackTimeout_step h step
      exact settle step rfl
  | tick | ctrlInterval =>
      cases result
      exact settle ⟨can, rfl⟩ rfl

end Attempt

abbrev RouteRun (toNumber : JsString → JsNumber) (it : Itinerary) :=
  Run (Attempt (.atPosition toNumber)) (Node.start it.text)

theorem route_sound {toNumber : JsString → JsNumber} {it : Itinerary} {h : List (Node × Event)}
    {n : Node} (run : RouteRun toNumber it h n) : n.client.Sound :=
  run.preserves (start_sound it.text) fun _ _ _ sound attempt => (attempt_search sound attempt).2

section Leg
variable (toNumber : JsString → JsNumber) (it : Itinerary)

/-- A packet for the searching listener finds the drone at pair `k`. -/
def reaches (k : ℕ) : Node × Event → Bool
  | (n, .navdata _ position) => n.listening && !n.markerFound &&
      it.pairs[k]?.any fun w => (toNumber w.latitude.text).same position.latitude &&
        (toNumber w.longitude.text).same position.longitude
  | _ => false

def advance (k : ℕ) (q : Node × Event) : ℕ :=
  if reaches toNumber it k q = true ∧ k + 1 < it.pairs.length then k + 1 else k

/-- The pair to fly to after a history: the next one whenever the current one is reached. -/
def leg (h : List (Node × Event)) : ℕ := h.foldl (advance toNumber it) 0

/-- The destination is pair `k` of the file. -/
def HeadsFor (k : ℕ) (n : Node) : Prop :=
  ∃ w, it.pairs[k]? = some w ∧ n.currentDestinationLatitude = some w.latitude.text ∧
    n.currentDestinationLongitude = some w.longitude.text

/-- Some packet finds the drone at the last pair, and a newline follows that pair. -/
def Overshoots (h : List (Node × Event)) : Prop :=
  it.trailing = true ∧ ∃ h₁ q h₂, h = h₁ ++ q :: h₂ ∧
    leg toNumber it h₁ + 1 = it.pairs.length ∧ reaches toNumber it (leg toNumber it h₁) q = true

/-- The variables of the search agree with pair `k`: in particular the index is odd. -/
def OnRoute (k : ℕ) (n : Node) : Prop :=
  ∃ w, it.pairs[k]? = some w ∧
    n.search = (it.array, 2 * k + 1, some w.latitude.text, some w.longitude.text)

variable {toNumber it} {k : ℕ} {n n' : Node} {e : Event} {h : List (Node × Event)}

theorem OnRoute.headsFor (on : OnRoute it k n) : HeadsFor it k n := by
  obtain ⟨w, pair, same⟩ := on
  simp only [Node.search, Prod.mk.injEq] at same
  exact ⟨w, pair, same.2.2.1, same.2.2.2⟩

theorem OnRoute.start : OnRoute it 0 (Node.start it.text) := by
  obtain ⟨w, rest, split⟩ := List.exists_cons_of_ne_nil it.nonempty
  have first : it.pairs[0]? = some w := by rw [split]; rfl
  obtain ⟨latitude, longitude⟩ := it.array_pair first
  have begun : (Node.start it.text).search = (it.text.splitOn '\n', 1,
    (it.text.splitOn '\n')[0]?, (it.text.splitOn '\n')[1]?) := rfl
  rw [it.splitOn_text] at begun
  exact ⟨w, first, begun.trans (by rw [latitude, longitude])⟩

theorem OnRoute.arrives (on : OnRoute it k n) (e : Event) :
    arrives toNumber n e = reaches toNumber it k (n, e) := by
  obtain ⟨w, pair, same⟩ := on
  simp only [Node.search, Prod.mk.injEq] at same
  obtain ⟨_, _, latitude, longitude⟩ := same
  cases e with
  | navdata data position =>
      simp [DroneParking.arrives, reaches, pair, latitude, longitude, Runtime.looseEq,
        Runtime.atPosition]
  | data | timeout | tick | ackTimeout | ctrlInterval => rfl

theorem OnRoute.inside (on : OnRoute it k n) : k < it.pairs.length := by
  obtain ⟨w, pair, _⟩ := on
  exact (List.getElem?_eq_some_iff.mp pair).1

/-- The end test compares the odd index with the last index of the array. -/
theorem OnRoute.searched (on : OnRoute it k n) : (n.searched true).search =
    if 2 * k + 1 = 2 * it.pairs.length + it.trailing.toNat - 1 then n.search
    else (it.array, 2 * k + 3, it.array[2 * k + 2]?, it.array[2 * k + 3]?) := by
  have inside := on.inside
  obtain ⟨w, _, same⟩ := on
  simp only [Node.search, Prod.mk.injEq] at same
  obtain ⟨array, arrayIndex, latitude, longitude⟩ := same
  unfold Node.searched Node.nextDestination
  rw [if_pos rfl, array, arrayIndex, it.array_length]
  by_cases last : 2 * k + 1 = 2 * it.pairs.length + it.trailing.toNat - 1
  · rw [if_pos last, if_neg (by omega)]
  · rw [if_neg last, if_pos (by omega)]
    rfl

/-- A packet at the last pair of a file that ends in a newline loses the destination. -/
theorem OnRoute.lost (on : OnRoute it k n) (trailing : it.trailing = true)
    (last : k + 1 = it.pairs.length) (same : n'.search = (n.searched true).search) (j : ℕ) :
    ¬ HeadsFor it j n' := by
  rw [on.searched, trailing, if_neg (by rw [Bool.toNat_true]; omega)] at same
  simp only [Node.search, Prod.mk.injEq] at same
  rintro ⟨w, _, _, longitude⟩
  have length := it.array_length
  rw [trailing, Bool.toNat_true] at length
  rw [same.2.2.2, List.getElem?_eq_none (by omega)] at longitude
  cases longitude

theorem OnRoute.step (on : OnRoute it k n)
    (inside : ¬ (it.trailing = true ∧ k + 1 = it.pairs.length ∧ reaches toNumber it k (n, e) = true))
    (same : n'.search = (n.searched (reaches toNumber it k (n, e))).search) :
    OnRoute it (advance toNumber it k (n, e)) n' := by
  unfold advance
  cases reached : reaches toNumber it k (n, e) with
  | false =>
      rw [reached] at same
      obtain ⟨w, pair, here⟩ := on
      exact ⟨w, pair, same.trans here⟩
  | true =>
      rw [reached, on.searched] at same
      by_cases more : k + 1 < it.pairs.length
      · obtain ⟨latitude, longitude⟩ := it.array_pair (List.getElem?_eq_getElem more)
        rw [if_neg (by omega)] at same
        rw [if_pos ⟨rfl, more⟩]
        exact ⟨_, List.getElem?_eq_getElem more, by rw [same, ← latitude, ← longitude]; rfl⟩
      · have last : k + 1 = it.pairs.length := by
          have := on.inside
          omega
        have closed : it.trailing = false := by
          rw [← Bool.not_eq_true]
          exact fun trailing => inside ⟨trailing, last, reached⟩
        obtain ⟨w, pair, here⟩ := on
        rw [closed, Bool.toNat_false, if_pos (by omega), here] at same
        rw [if_neg fun both => more both.2]
        exact ⟨w, pair, same⟩

theorem leg_snoc {q : Node × Event} :
    leg toNumber it (h ++ [q]) = advance toNumber it (leg toNumber it h) q := by
  rw [leg, List.foldl_append]
  rfl

theorem overshoots_snoc {q : Node × Event} : Overshoots toNumber it (h ++ [q]) ↔
    Overshoots toNumber it h ∨ (it.trailing = true ∧ leg toNumber it h + 1 = it.pairs.length ∧
      reaches toNumber it (leg toNumber it h) q = true) := by
  unfold Overshoots
  rw [Library.exists_split_snoc, and_or_left, or_comm]

theorem Overshoots.extend (past : Overshoots toNumber it h) (later : List (Node × Event)) :
    Overshoots toNumber it (h ++ later) := by
  obtain ⟨trailing, h₁, q, h₂, rfl, last, reached⟩ := past
  exact ⟨trailing, h₁, q, h₂ ++ later, by rw [List.append_assoc, List.cons_append], last, reached⟩

theorem run_on_route (run : RouteRun toNumber it h n) (keeps : ¬ Overshoots toNumber it h) :
    OnRoute it (leg toNumber it h) n := by
  induction run with
  | nil => exact .start
  | snoc prior attempt ih =>
      rw [overshoots_snoc, not_or] at keeps
      have on := ih keeps.1
      have same := (attempt_search (route_sound prior) attempt).1
      rw [on.arrives] at same
      rw [leg_snoc]
      exact on.step keeps.2 same

theorem run_keeps (run : RouteRun toNumber it h n) (heads : ∀ h₁ h₂ m, h = h₁ ++ h₂ →
    RouteRun toNumber it h₁ m → HeadsFor it (leg toNumber it h₁) m) : ¬ Overshoots toNumber it h := by
  induction run with
  | nil =>
      rintro ⟨_, h₁, q, h₂, split, _⟩
      simp at split
  | @snoc h s e s' prior attempt ih =>
      have before := ih fun h₁ h₂ m split =>
        heads h₁ (h₂ ++ [(s, e)]) m (by rw [split, List.append_assoc])
      rw [overshoots_snoc]
      rintro (past | ⟨trailing, last, reached⟩)
      · exact before past
      · have on := run_on_route prior before
        have same := (attempt_search (route_sound prior) attempt).1
        rw [on.arrives, reached] at same
        exact on.lost trailing last same _ (heads _ [] s' (by simp) (prior.snoc attempt))

/-- In a run the destination is always the pair that the packets so far lead to, unless the
file ends in a newline and a packet found the drone at its last pair. -/
theorem route_iff (toNumber : JsString → JsNumber) (it : Itinerary) {h : List (Node × Event)}
    {n : Node} (run : RouteRun toNumber it h n) :
    (∀ h₁ h₂ m, h = h₁ ++ h₂ → RouteRun toNumber it h₁ m → HeadsFor it (leg toNumber it h₁) m) ↔
      ¬ Overshoots toNumber it h := by
  constructor
  · exact run_keeps run
  · intro keeps h₁ h₂ m split prior
    have short : ¬ Overshoots toNumber it h₁ := by
      intro past
      apply keeps
      rw [split]
      exact past.extend h₂
    exact (run_on_route prior short).headsFor

end Leg

section Sample

def spot : Waypoint := ⟨⟨['4', '5'], by decide, by decide⟩, ⟨['1', '5'], by decide, by decide⟩⟩

def oneSpot (trailing : Bool) : Itinerary := ⟨[spot], by simp, trailing⟩

def twoSpots : Itinerary := ⟨[spot, ⟨⟨['4', '6'], by decide, by decide⟩, ⟨['1', '6'], by decide, by decide⟩⟩],
  by simp, true⟩

def spotEvents : List Event :=
  [.timeout .calibrate, .timeout .listen, .navdata {} ⟨.finite 45, .finite 15⟩]

def spotHistory (it : Itinerary) : List (Node × Event) :=
  [(Node.start it.text, .timeout .calibrate), (Node.calibrated it.text, .timeout .listen),
    (Node.registered it.text, .navdata {} ⟨.finite 45, .finite 15⟩)]

/-- The drone reaches the first waypoint as soon as the listener is registered. -/
theorem spot_run (it : Itinerary) (here : arrives sampleNumber (Node.registered it.text)
    (.navdata {} ⟨.finite 45, .finite 15⟩) = true) : ∃ n, RouteRun sampleNumber it (spotHistory it) n ∧
      n.search = ((Node.registered it.text).searched true).search := by
  have registered := (Run.single (calibrate_step (.atPosition sampleNumber) it.text).attempt).snoc
    (listen_step (.atPosition sampleNumber) it.text).attempt
  have packet : Attempt (.atPosition sampleNumber) (Node.registered it.text)
    (.navdata {} ⟨.finite 45, .finite 15⟩) _ := ⟨trivial, rfl⟩
  refine ⟨_, registered.snoc packet, ?_⟩
  rw [(attempt_search (route_sound registered) packet).1, here]

/-- Two waypoints and a newline: the drone has reached the first one and heads for the other. -/
theorem first_spot_keeps : ∃ n, RouteRun sampleNumber twoSpots (spotHistory twoSpots) n ∧
    HeadsFor twoSpots 1 n ∧ ∀ h₁ h₂ m, spotHistory twoSpots = h₁ ++ h₂ →
      RouteRun sampleNumber twoSpots h₁ m →
        HeadsFor twoSpots (leg sampleNumber twoSpots h₁) m := by
  obtain ⟨n, run, _⟩ := spot_run twoSpots (by decide +kernel)
  have keeps := (route_iff sampleNumber twoSpots run).mpr (by
    rintro ⟨_, h₁, q, h₂, split, last, _⟩
    have early : leg sampleNumber twoSpots h₁ = 0 := by
      rcases h₁ with _ | ⟨a, _ | ⟨b, _ | ⟨c, h₁⟩⟩⟩
      · rfl
      · cases split
        rfl
      · cases split
        rfl
      · simp [spotHistory] at split
    rw [early] at last
    exact absurd last (by decide))
  have second : leg sampleNumber twoSpots (spotHistory twoSpots) = 1 := by decide +kernel
  exact ⟨n, run, second ▸ keeps _ [] n (List.append_nil _).symm run, keeps⟩

/-- With a newline after it, the only waypoint is left for an empty string and `undefined`. -/
theorem newline_loses : ∃ h n, RouteRun sampleNumber (oneSpot true) h n ∧
    h.map Prod.snd = spotEvents ∧ n.currentDestinationLatitude = some [] ∧
      n.currentDestinationLongitude = none ∧ ∀ k, ¬ HeadsFor (oneSpot true) k n := by
  obtain ⟨n, run, same⟩ := spot_run (oneSpot true) (by decide +kernel)
  have lost : ((Node.registered (oneSpot true).text).searched true).search =
      ([['4', '5'], ['1', '5'], []], 3, some [], none) := by
    decide +kernel
  rw [lost] at same
  simp only [Node.search, Prod.mk.injEq] at same
  refine ⟨_, n, run, rfl, same.2.2.1, same.2.2.2, ?_⟩
  rintro k ⟨w, _, _, longitude⟩
  rw [same.2.2.2] at longitude
  cases longitude

end Sample
end DroneParking
