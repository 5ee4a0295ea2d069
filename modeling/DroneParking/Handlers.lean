import DroneParking.Protocol
import DroneParking.Handshake

/-!
# What one event does

Every callback of the script is brought to a closed form once. An event acts on
the command state only through the orders it issues, and on nothing else that
the orders would touch.
-/
namespace DroneParking

open Library (bind_apply pure_apply get_apply throw_apply modify_apply if_apply)

namespace Node

@[simp] theorem follow_nil (n : Node) : n.follow [] = n := rfl

theorem follow_append (n : Node) (o o' : List Order) :
    n.follow (o ++ o') = (n.follow o).follow o' := List.foldl_append

/-- What no client call changes, no list of orders changes. -/
theorem follow_frame {β : Type} (f : Node → β) (hf : ∀ n c, f (call n c) = f n) (n : Node)
    (orders : List Order) : f (n.follow orders) = f n := by
  have run (l : List ClientCall) (n : Node) : f (l.foldl call n) = f n := by
    induction l generalizing n with
    | nil => rfl
    | cons c l ih => rw [List.foldl_cons, ih, hf]
  induction orders generalizing n with
  | nil => rfl
  | cons o orders ih =>
      change f ((n.obey o).follow orders) = f n
      rw [ih, obey, run]

@[simp] theorem follow_markerFound (n : Node) (o : List Order) :
    (n.follow o).markerFound = n.markerFound := follow_frame (·.markerFound) (fun _ _ => rfl) n o

@[simp] theorem follow_arrayIndex (n : Node) (o : List Order) :
    (n.follow o).arrayIndex = n.arrayIndex := follow_frame (·.arrayIndex) (fun _ _ => rfl) n o

@[simp] theorem follow_latitude (n : Node) (o : List Order) :
    (n.follow o).currentDestinationLatitude = n.currentDestinationLatitude :=
  follow_frame (·.currentDestinationLatitude) (fun _ _ => rfl) n o

@[simp] theorem follow_longitude (n : Node) (o : List Order) :
    (n.follow o).currentDestinationLongitude = n.currentDestinationLongitude :=
  follow_frame (·.currentDestinationLongitude) (fun _ _ => rfl) n o

theorem run_frame (c : ClientCall) (cl : Client) :
    (c.run cl).udpControl = cl.udpControl ∧ (c.run cl).repeaters = cl.repeaters := by
  cases c with
  | takeoff | land | stop => exact ⟨rfl, rfl⟩
  | front s | back s | left s | right s =>
      cases s <;> exact ⟨rfl, rfl⟩

@[simp] theorem follow_udpControl (n : Node) (o : List Order) :
    (n.follow o).client.udpControl = n.client.udpControl :=
  follow_frame (·.client.udpControl) (fun n c => (run_frame c n.client).1) n o

@[simp] theorem follow_repeaters (n : Node) (o : List Order) :
    (n.follow o).client.repeaters = n.client.repeaters :=
  follow_frame (·.client.repeaters) (fun n c => (run_frame c n.client).2) n o

theorem follow_sound {n : Node} (h : n.client.Sound) (o : List Order) : (n.follow o).client.Sound :=
  ⟨by rw [follow_udpControl]; exact h.udpControl, by rw [follow_repeaters]; exact h.repeaters⟩

theorem follow_calls (n : Node) (orders : List Order) :
    (n.follow orders).calls = n.calls ++ orders.flatMap Order.calls := by
  have run (l : List ClientCall) (n : Node) : (l.foldl call n).calls = n.calls ++ l := by
    induction l generalizing n with
    | nil => exact (List.append_nil _).symm
    | cons c l ih =>
        rw [List.foldl_cons, ih]
        simp only [call, List.append_assoc, List.singleton_append]
  induction orders generalizing n with
  | nil => exact (List.append_nil _).symm
  | cons o orders ih =>
      change ((n.obey o).follow orders).calls = _
      rw [ih, obey, run, List.flatMap_cons, List.append_assoc]

end Node

def reaction (data : Navdata) : List Order :=
  match data.magneto, data.demo with
  | some magneto, some demo =>
      (if demo.altitude.ge 2 then [.land, .halt] else []) ++
        (if magneto.fusionUnwrapped.ge 5 || magneto.fusionUnwrapped.le (-5) then [] else [.halt])
  | _, _ => []

theorem land_mem_reaction {data : Navdata} : Order.land ∈ reaction data ↔
    data.magneto.isSome = true ∧ ∃ demo, data.demo = some demo ∧ demo.altitude.ge 2 = true := by
  unfold reaction
  cases data.magneto with
  | none => simp
  | some magneto =>
      cases data.demo with
      | none => simp
      | some demo =>
          cases demo.altitude.ge 2 <;>
            cases (magneto.fusionUnwrapped.ge 5 || magneto.fusionUnwrapped.le (-5)) <;> simp

theorem reaction_mem {data : Navdata} {o : Order} (h : o ∈ reaction data) :
    o = .land ∨ o = .halt := by
  unfold reaction at h
  split at h
  · rcases List.mem_append.mp h with low | turned
    · split at low
      · simpa using low
      · simp at low
    · split at turned
      · simp at turned
      · exact .inr (List.mem_singleton.mp turned)
  · simp at h

theorem reaction_eq_nil {data : Navdata} : reaction data = [] ↔
    ∀ magneto demo, data.magneto = some magneto → data.demo = some demo →
      demo.altitude.ge 2 = false ∧
        (magneto.fusionUnwrapped.ge 5 = true ∨ magneto.fusionUnwrapped.le (-5) = true) := by
  unfold reaction
  cases data.magneto with
  | none => simp
  | some magneto =>
      cases data.demo with
      | none => simp
      | some demo => simp [or_iff_not_imp_left]

/-- A call that one order makes and no other tells whether the order was given. -/
theorem mem_calls {c : ClientCall} {o : Order} (only : ∀ o' : Order, c ∈ o'.calls ↔ o' = o)
    {orders : List Order} : c ∈ orders.flatMap Order.calls ↔ o ∈ orders := by
  simp only [List.mem_flatMap, only, exists_eq_right]

theorem stop_mem_calls {orders : List Order} :
    ClientCall.stop ∈ orders.flatMap Order.calls ↔ .halt ∈ orders := by
  apply mem_calls
  intro o
  cases o with
  | takeoff | land | halt => simp [Order.calls]
  | steer d => cases d <;> simp [Order.calls]

theorem land_mem_calls {orders : List Order} :
    ClientCall.land ∈ orders.flatMap Order.calls ↔ .land ∈ orders := by
  apply mem_calls
  intro o
  cases o with
  | takeoff | land | halt => simp [Order.calls]
  | steer d => cases d <;> simp [Order.calls]

/-- The orders an event issues to the pilot. -/
def issued (n : Node) : Event → List Order
  | .data _ chunk => ((recognise chunk.trim).bind Message.order).toList
  | .navdata data _ => if n.listening && !n.markerFound then reaction data else []
  | .timeout .autoLand => [.land]
  | .timeout .calibrate | .timeout .listen | .tick | .ackTimeout | .ctrlInterval => []

theorem mem_issued_data {n : Node} {connection : ℕ} {chunk : JsString} {o : Order} :
    o ∈ issued n (.data connection chunk) ↔ ∃ m : Message, chunk.trim = m.text ∧ m.order = some o := by
  simp only [issued, Option.mem_toList, Option.bind_eq_some_iff]
  constructor
  · rintro ⟨m, known, same⟩
    exact ⟨m, (recognise_eq_some.mp known).2, same⟩
  · rintro ⟨m, text, same⟩
    refine ⟨m, recognise_eq_some.mpr ⟨?_, text⟩, same⟩
    rintro rfl
    cases same

/-- Without data, an event can only land or halt the drone. -/
theorem issued_silent {n : Node} {e : Event} {o : Order} (h : o ∈ issued n e)
    (silent : ∀ connection chunk, e ≠ .data connection chunk) : o = .land ∨ o = .halt := by
  cases e with
  | data connection chunk => exact absurd rfl (silent connection chunk)
  | navdata data position =>
      simp only [issued] at h
      split at h
      · exact reaction_mem h
      · cases h
  | timeout fn =>
      cases fn with
      | autoLand => exact .inl (List.mem_singleton.mp h)
      | calibrate | listen => cases h
  | tick | ackTimeout | ctrlInterval => cases h

theorem checkMagneto_apply (data : Navdata) (n : Node) : checkMagneto data n =
    if data.magneto.isSome && data.demo.isNone then .error (.typeError "altitude") n
    else .ok () (n.follow (reaction data)) := by
  unfold checkMagneto reaction
  cases data.magneto with
  | none => rfl
  | some magneto =>
      cases data.demo with
      | none => rfl
      | some demo =>
          simp only [bind_apply, if_apply, pure_apply, call_apply, Option.isSome_some,
            Option.isNone_some, Bool.and_false, Bool.false_eq_true, if_false, Node.follow_append]
          cases demo.altitude.ge 2 <;> cases magneto.fusionUnwrapped.ge 5 <;>
            cases magneto.fusionUnwrapped.le (-5) <;> rfl

theorem atDestination_unbound {rt : Runtime} {position : Position}
    (h : (rt.scope position).latitude = none) (n : Node) :
    atDestination rt position n = .error (.referenceError "latitude") n := by
  unfold atDestination
  rw [h]
  rfl

theorem atDestination_bound {rt : Runtime} {position : Position} {x y : JsNumber}
    (hx : (rt.scope position).latitude = some x) (hy : (rt.scope position).longitude = some y)
    (n : Node) : atDestination rt position n =
      .ok (rt.looseEq n.currentDestinationLatitude x && rt.looseEq n.currentDestinationLongitude y)
        n := by
  unfold atDestination
  rw [hx, hy]
  simp only [resolve, bind_apply, pure_apply, get_apply, if_apply]
  cases rt.looseEq n.currentDestinationLatitude x <;> rfl

def AtWaypoint (rt : Runtime) (n : Node) (position : Position) : Prop :=
  ∃ x y, (rt.scope position).latitude = some x ∧ (rt.scope position).longitude = some y ∧
    rt.looseEq n.currentDestinationLatitude x = true ∧
    rt.looseEq n.currentDestinationLongitude y = true

theorem atDestination_ok {rt : Runtime} {position : Position} {n n' : Node} {b : Bool}
    (h : atDestination rt position n = .ok b n') :
    n' = n ∧ (b = true ↔ AtWaypoint rt n position) := by
  cases hx : (rt.scope position).latitude with
  | none =>
      rw [atDestination_unbound hx] at h
      cases h
  | some x =>
      unfold atDestination at h
      simp only [hx, resolve, bind_apply, pure_apply, get_apply, if_apply] at h
      split at h
      · next same =>
          cases hy : (rt.scope position).longitude with
          | none =>
              simp only [hy, throw_apply] at h
              cases h
          | some y =>
              simp only [hy, pure_apply] at h
              cases h
              refine ⟨rfl, ?_⟩
              simp [AtWaypoint, hx, hy, same]
      · next other =>
          cases h
          refine ⟨rfl, ?_⟩
          simp [AtWaypoint, hx, other]

theorem navdataListener_found {rt : Runtime} {n : Node} (h : n.markerFound = true)
    (data : Navdata) (position : Position) : navdataListener rt data position n = .ok () n := by
  unfold navdataListener
  simp only [bind_apply, get_apply, if_apply, h, Bool.not_true, Bool.false_eq_true, if_false,
    pure_apply]

theorem navdataListener_searching {rt : Runtime} {n : Node} (h : n.markerFound = false)
    (data : Navdata) (position : Position) : navdataListener rt data position n =
      match atDestination rt position n with
      | .ok b n' => checkMagneto data (if b then n'.nextDestination else n')
      | .error e n' => .error e n' := by
  unfold navdataListener
  simp only [bind_apply, get_apply, if_apply, h, Bool.not_false, if_true]
  cases atDestination rt position n with
  | error e n' => rfl
  | ok b n' => cases b <;> rfl

/-- The state after the waypoint step: the search moves on if the drone has `arrived`. -/
def Node.searched (n : Node) (arrived : Bool) : Node := if arrived then n.nextDestination else n

/-- A listener that completes has searched on and reacted, or has left everything as it was. -/
theorem navdataListener_ok {rt : Runtime} {data : Navdata} {position : Position} {n n' : Node}
    (h : navdataListener rt data position n = .ok () n') :
    (n.markerFound = true ∧ n' = n) ∨ (n.markerFound = false ∧ ∃ b : Bool,
      (b = true ↔ AtWaypoint rt n position) ∧
      n' = (n.searched b).follow (reaction data)) := by
  cases found : n.markerFound with
  | true =>
      rw [navdataListener_found found] at h
      cases h
      exact .inl ⟨rfl, rfl⟩
  | false =>
      rw [navdataListener_searching found] at h
      refine .inr ⟨rfl, ?_⟩
      cases arrived : atDestination rt position n with
      | error e m =>
          rw [arrived] at h
          cases h
      | ok b m =>
          rw [arrived] at h
          obtain ⟨rfl, there⟩ := atDestination_ok arrived
          simp only [checkMagneto_apply] at h
          split at h
          · cases h
          · cases h
            exact ⟨b, there, rfl⟩

end DroneParking
