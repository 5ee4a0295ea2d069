import DroneParking.Datagrams

/-!
# What a program asks of a client

A client under any program: the methods of `Client.js` that command the drone, in any
order, between ticks, packets and timers. Animations and the flat trim are repeated,
at each of ten ticks, since nobody acknowledges them.
-/
namespace DroneParking

open Library (Run)

namespace AtCommandCreator

def LED_ANIMATIONS : List String := [
  "blinkGreenRed",
  "blinkGreen",
  "blinkRed",
  "blinkOrange",
  "snakeGreenRed",
  "fire",
  "standard",
  "red",
  "green",
  "redSnake",
  "blank",
  "rightMissile",
  "leftMissile",
  "doubleMissile",
  "frontLeftGreenOthersRed",
  "frontRightGreenOthersRed",
  "rearRightGreenOthersRed",
  "rearLeftGreenOthersRed",
  "leftGreenRightRed",
  "leftRedRightGreen",
  "blinkStandard"]

def ANIMATIONS : List String := [
  "phiM30Deg",
  "phi30Deg",
  "thetaM30Deg",
  "theta30Deg",
  "theta20degYaw200deg",
  "theta20degYawM200deg",
  "turnaround",
  "turnaroundGodown",
  "yawShake",
  "yawDance",
  "phiDance",
  "thetaDance",
  "vzDance",
  "wave",
  "phiThetaMixed",
  "doublePhiThetaMixed",
  "flipAhead",
  "flipBehind",
  "flipLeft",
  "flipRight"]

def params (fields : List JsString) : String := String.ofList ([','].intercalate fields)

/-- Without a result for an unknown animation, which throws. -/
def animate (name : String) (duration : ℕ) : Option AtCommand :=
  (ANIMATIONS.idxOf? name).map fun animationId =>
    config "control:flight_anim" (params [decimal animationId, decimal duration])

/-- An argument that was left out is empty or zero here, which has the same default. -/
def animateLeds (name : String) (hz : JsNumber) (duration : ℕ) : Option AtCommand :=
  let name := if name = "" then "redSnake" else name
  let hz := if hz = .finite 0 ∨ hz = .negZero ∨ hz = .nan then .finite 2 else hz
  let duration := if duration = 0 then 3 else duration
  (LED_ANIMATIONS.idxOf? name).map fun animationId =>
    config "leds:leds_anim" (params [decimal animationId, integer (floatString hz), decimal duration])

end AtCommandCreator

inductive ClientRequest where
  | takeoff | land | stop | disableEmergency | ftrim | resume
  | move (key : PcmdKey) (speed : JsNumber)
  | calibrate (device_num : ℕ)
  | config (key value : String)
  | ctrl (controlMode otherMode : ℕ)
  | animate (animation : String) (duration : ℕ)
  | animateLeds (animation : String) (hz : JsNumber) (duration : ℕ)
  deriving DecidableEq, Repr

inductive ClientInput where
  | request (r : ClientRequest)
  | navdata (data : Navdata)
  | tick
  | ackTimeout
  | ctrlInterval
  deriving DecidableEq, Repr

namespace Client

/-- `_repeat` -/
def repeated (c : Client) (times : ℕ) (method : AtCommand) : Client :=
  { c with repeaters := c.repeaters ++ [⟨times, method⟩] }

def calibrate (c : Client) (device_num : ℕ) : Client :=
  { c with udpControl := c.udpControl.calibrate device_num }

/-- There is no flat trim in the air. -/
def ftrim (c : Client) : Client :=
  if c.ref.fly = some true then c else c.repeated 10 AtCommandCreator.ftrim

end Client

namespace ClientRequest

/-- The command that a request has repeated. -/
def repeats (c : Client) : ClientRequest → Option AtCommand
  | .animate name duration => AtCommandCreator.animate name duration
  | .animateLeds name hz duration => AtCommandCreator.animateLeds name hz duration
  | .ftrim => if c.ref.fly = some true then none else some AtCommandCreator.ftrim
  | .takeoff | .land | .stop | .disableEmergency | .resume | .move _ _ | .calibrate _ | .config _ _
  | .ctrl _ _ => none

def apply (c : Client) : ClientRequest → Client
  | .takeoff => c.takeoff
  | .land => c.land
  | .stop => c.stop
  | .disableEmergency => c.disableEmergency
  | .ftrim => c.ftrim
  | .resume => c.resume
  | .move key speed => c.setPcmd key speed
  | .calibrate device_num => c.calibrate device_num
  | .config key value => c.config key value
  | .ctrl controlMode otherMode => c.ctrl controlMode otherMode
  | .animate name duration =>
      match AtCommandCreator.animate name duration with
      | some method => c.repeated 10 method
      | none => c
  | .animateLeds name hz duration =>
      match AtCommandCreator.animateLeds name hz duration with
      | some method => c.repeated 10 method
      | none => c

/-- The commands that a request puts into a queue at once. -/
def queued : ClientRequest → List AtCommand
  | .resume => [AtCommandCreator.ctrl 5 0, AtCommandCreator.config "general:navdata_demo" "TRUE"]
  | .calibrate device_num => [AtCommandCreator.calibrate device_num]
  | .config key value => [AtCommandCreator.config key value]
  | .ctrl controlMode otherMode => [AtCommandCreator.ctrl controlMode otherMode]
  | .takeoff | .land | .stop | .disableEmergency | .ftrim | .move _ _ | .animate _ _
  | .animateLeds _ _ _ => []

end ClientRequest

namespace ClientInput

def apply (c : Client) : ClientInput → Except JsError Client
  | .request r => .ok (r.apply c)
  | .navdata data => do
      let c ← (c.refreshEmergency data).acknowledge data
      return (c.processNavdata data).1
  | .tick => .ok c.sendCommands
  | .ackTimeout => do return { c with udpControl := ← c.udpControl.handleAckTimeout }
  | .ctrlInterval => .ok { c with udpControl := c.udpControl.handleCtrlInterval }

/-- Animations are asked for by names that the lists have: any other makes the next tick throw. -/
def CanOccur (c : Client) : ClientInput → Prop
  | .request (.animate name duration) => (AtCommandCreator.animate name duration).isSome
  | .request (.animateLeds name hz duration) => (AtCommandCreator.animateLeds name hz duration).isSome
  | .ackTimeout => c.udpControl.blocked.ackTimer = true
  | _ => True

def repeats (c : Client) : ClientInput → Option AtCommand
  | .request r => r.repeats c
  | .navdata _ | .tick | .ackTimeout | .ctrlInterval => none

/-- The option that a request sets. -/
def configured : ClientInput → List AtCommand
  | .request (.config key value) => [AtCommandCreator.config key value]
  | .request .resume => [AtCommandCreator.config "general:navdata_demo" "TRUE"]
  | _ => []

end ClientInput

def ClientStep (c : Client) (e : ClientInput) (c' : Client) : Prop := e.CanOccur c ∧ e.apply c = .ok c'

/-- A client that was created and resumed, under any program. -/
abbrev ClientRun := Run ClientStep Client.create

/-- The commands that an input puts into a queue. -/
def ClientInput.queued (c : Client) : ClientInput → List AtCommand
  | .request r => r.queued
  | .navdata data => if data.droneState.controlCommandAck then UdpCall.queued c.udpControl .ack else []
  | .tick => AtCommandCreator.ref c.ref :: AtCommandCreator.pcmd c.pcmd :: c.repeaters.map (·.method)
  | .ackTimeout | .ctrlInterval => []

section Repeaters

/-- What a tick leaves of the repeaters. -/
def afterTick (l : List Repeater) : List Repeater :=
  (l.map fun r => { r with times := r.times - 1 }).filter fun r => decide (0 < r.times)

/-- How often a command is still to be repeated. -/
def remaining (l : List Repeater) (m : AtCommand) : ℕ :=
  ((l.filter fun r => r.method = m).map (·.times)).sum

theorem remaining_append (l l' : List Repeater) (m : AtCommand) :
    remaining (l ++ l') m = remaining l m + remaining l' m := by
  rw [remaining, List.filter_append, List.map_append, List.sum_append, remaining, remaining]

theorem afterTick_cons (r : Repeater) (l : List Repeater) :
    afterTick (r :: l) = (if 1 < r.times then [⟨r.times - 1, r.method⟩] else []) ++ afterTick l := by
  unfold afterTick
  rw [List.map_cons, List.filter_cons]
  by_cases more : 1 < r.times
  · rw [if_pos more, if_pos (decide_eq_true (by simp only; omega))]
    rfl
  · rw [if_neg more, if_neg (by simp only [decide_eq_true_eq]; omega)]
    rfl

theorem afterTick_append (l l' : List Repeater) :
    afterTick (l ++ l') = afterTick l ++ afterTick l' := by
  rw [afterTick, List.map_append, List.filter_append, afterTick, afterTick]

theorem remaining_singleton (r : Repeater) (m : AtCommand) :
    remaining [r] m = if r.method = m then r.times else 0 := by
  by_cases same : r.method = m <;> simp [remaining, same]

/-- A tick takes one from what remains for each command that it queues. -/
theorem remaining_afterTick {l : List Repeater} (positive : ∀ r ∈ l, 0 < r.times) (m : AtCommand) :
    (l.map (·.method)).count m + remaining (afterTick l) m = remaining l m := by
  induction l with
  | nil => rfl
  | cons r l ih =>
      have rest := ih fun r' hr => positive r' (List.mem_cons_of_mem _ hr)
      have first := positive r List.mem_cons_self
      rw [afterTick_cons, remaining_append, ← List.singleton_append (l := l), remaining_append,
        remaining_singleton, List.map_append, List.map_singleton, List.count_append,
        List.count_singleton]
      by_cases more : 1 < r.times
      · rw [if_pos more, remaining_singleton]
        by_cases same : r.method = m <;> simp [same] <;> omega
      · rw [if_neg more]
        by_cases same : r.method = m <;> simp [same, remaining] at * <;> omega

end Repeaters

section Due
variable {h : List (Client × ClientInput)} {c c' : Client} {e : ClientInput}

def ticks (h : List (Client × ClientInput)) : ℕ := h.countP fun q => q.2 = .tick

/-- What is still repeated of a history, each command ten times in all. -/
def due : List (Client × ClientInput) → List Repeater
  | [] => []
  | q :: h =>
      (if ticks h < 10 then (q.2.repeats q.1).toList.map fun m => ⟨10 - ticks h, m⟩ else []) ++ due h

theorem due_snoc (h : List (Client × ClientInput)) (q : Client × ClientInput) :
    due (h ++ [q]) = (if q.2 = .tick then afterTick (due h) else due h) ++
      (q.2.repeats q.1).toList.map fun m => ⟨10, m⟩ := by
  induction h with
  | nil =>
      have none : (if q.2 = .tick then afterTick (due []) else due []) = [] := by
        split <;> rfl
      rw [List.nil_append, none, List.nil_append]
      exact List.append_nil _
  | cons p h ih =>
      rw [List.cons_append, due, due, ih, ← List.append_assoc]
      congr 1
      by_cases tick : q.2 = .tick
      · have later : ticks (h ++ [q]) = ticks h + 1 := by simp [ticks, tick]
        rw [if_pos tick, if_pos tick, later, afterTick_append]
        congr 1
        cases p.2.repeats p.1 with
        | none => simp [afterTick]
        | some m =>
            have once : afterTick [⟨10 - ticks h, m⟩] =
                if 1 < 10 - ticks h then [⟨10 - ticks h - 1, m⟩] else [] := by
              rw [afterTick_cons]
              exact List.append_nil _
            by_cases few : ticks h + 1 < 10
            · rw [if_pos few, if_pos (by omega), Option.toList_some, List.map_singleton,
                List.map_singleton, once, if_pos (by omega), Nat.sub_sub]
            · rw [if_neg few]
              split
              · rw [Option.toList_some, List.map_singleton, once, if_neg (by omega)]
              · rfl
      · have same : ticks (h ++ [q]) = ticks h := by simp [ticks, tick]
        rw [if_neg tick, if_neg tick, same]

theorem due_positive : ∀ r ∈ due h, 0 < r.times := by
  induction h with
  | nil => simp [due]
  | cons q h ih =>
      intro r member
      rw [due, List.mem_append] at member
      rcases member with new | old
      · split at new
        · next few =>
            obtain ⟨m, _, rfl⟩ := List.mem_map.mp new
            exact Nat.sub_pos_of_lt few
        · cases new
      · exact ih r old

/-- A packet does the handshake and keeps the speeds and the repeaters. -/
theorem navdata_queues {data : Navdata} (step : ClientStep c (.navdata data) c') :
    UdpStep c.udpControl (if data.droneState.controlCommandAck then .ack else .ackReset) c'.udpControl ∧
      c'.repeaters = c.repeaters ∧ c'.pcmd = c.pcmd := by
  obtain ⟨_, done⟩ := step
  rw [ClientInput.apply] at done
  cases result : (c.refreshEmergency data).acknowledge data with
  | error e =>
      rw [result] at done
      cases done
  | ok c₁ =>
      rw [result] at done
      cases done
      obtain ⟨same, handshake⟩ := acknowledge_ok result
      rw [refreshEmergency_udpControl] at handshake
      have kept : ∀ d : Client, (d.processNavdata data).1.udpControl = d.udpControl ∧
          (d.processNavdata data).1.repeaters = d.repeaters ∧
            (d.processNavdata data).1.pcmd = d.pcmd := by
        intro d
        unfold Client.processNavdata
        split <;> exact ⟨rfl, rfl, rfl⟩
      have refreshed : (c.refreshEmergency data).repeaters = c.repeaters ∧
          (c.refreshEmergency data).pcmd = c.pcmd := by
        unfold Client.refreshEmergency
        split <;> exact ⟨rfl, rfl⟩
      rw [(kept c₁).1, (kept c₁).2.1, (kept c₁).2.2, same]
      exact ⟨handshake, refreshed⟩

theorem step_repeated (step : ClientStep c e c') : c'.repeaters =
    (if e = .tick then afterTick c.repeaters else c.repeaters) ++
      (e.repeats c).toList.map fun m => ⟨10, m⟩ := by
  cases e with
  | request r =>
      obtain ⟨known, done⟩ := step
      cases done
      rw [if_neg nofun]
      cases r with
      | takeoff | land | stop | disableEmergency | resume | calibrate | config | ctrl =>
          exact (List.append_nil _).symm
      | ftrim =>
          simp only [ClientRequest.apply, Client.ftrim, ClientInput.repeats, ClientRequest.repeats]
          by_cases flying : c.ref.fly = some true
          · rw [if_pos flying, if_pos flying]
            exact (List.append_nil _).symm
          · rw [if_neg flying, if_neg flying]
            rfl
      | move key speed =>
          have kept : (c.setPcmd key speed).repeaters = c.repeaters := by
            unfold Client.setPcmd
            split <;> rfl
          exact kept.trans (List.append_nil _).symm
      | animate name duration =>
          obtain ⟨m, found⟩ := Option.isSome_iff_exists.mp known
          simp only [ClientRequest.apply, ClientInput.repeats, ClientRequest.repeats, found,
            Client.repeated, Option.toList_some, List.map_singleton]
      | animateLeds name hz duration =>
          obtain ⟨m, found⟩ := Option.isSome_iff_exists.mp known
          simp only [ClientRequest.apply, ClientInput.repeats, ClientRequest.repeats, found,
            Client.repeated, Option.toList_some, List.map_singleton]
  | navdata data =>
      rw [if_neg nofun, (navdata_queues step).2.1]
      exact (List.append_nil _).symm
  | tick =>
      obtain ⟨_, done⟩ := step
      cases done
      exact (List.append_nil _).symm
  | ackTimeout =>
      obtain ⟨running, done⟩ := step
      rw [ClientInput.apply] at done
      cases expired : c.udpControl.handleAckTimeout with
      | error e =>
          rw [expired] at done
          cases done
      | ok u =>
          rw [expired] at done
          cases done
          exact (List.append_nil _).symm
  | ctrlInterval =>
      obtain ⟨_, done⟩ := step
      cases done
      exact (List.append_nil _).symm

theorem run_due (run : ClientRun h c) : c.repeaters = due h := by
  induction run with
  | nil => rfl
  | snoc _ step ih => rw [step_repeated step, due_snoc, ih]

theorem client_step_accounts {log : List AtCommand} (accounts : c.udpControl.Accounts log)
    (step : ClientStep c e c') : c'.udpControl.Accounts (log ++ e.queued c) := by
  cases e with
  | request r =>
      obtain ⟨known, done⟩ := step
      cases done
      cases r with
      | takeoff | land | stop | disableEmergency =>
          rw [ClientInput.queued, ClientRequest.queued, List.append_nil]
          exact accounts
      | ftrim =>
          have kept : c.ftrim.udpControl = c.udpControl := by
            unfold Client.ftrim
            split <;> rfl
          rw [← kept] at accounts
          rw [ClientInput.queued, ClientRequest.queued, List.append_nil]
          exact accounts
      | resume =>
          have first := accounts.enqueue (AtCommandCreator.ctrl 5 0)
          have both := first.enqueue (AtCommandCreator.config "general:navdata_demo" "TRUE")
          rwa [List.append_assoc] at both
      | calibrate device_num => exact accounts.enqueue (AtCommandCreator.calibrate device_num)
      | config key value => exact accounts.enqueue (AtCommandCreator.config key value)
      | ctrl controlMode otherMode =>
          exact accounts.enqueue (AtCommandCreator.ctrl controlMode otherMode)
      | move key speed =>
          have kept : (c.setPcmd key speed).udpControl = c.udpControl := by
            unfold Client.setPcmd
            split <;> rfl
          rw [← kept] at accounts
          rw [ClientInput.queued, ClientRequest.queued, List.append_nil]
          exact accounts
      | animate name duration | animateLeds name hz duration =>
          rw [ClientInput.queued, ClientRequest.queued, List.append_nil]
          unfold ClientRequest.apply
          simp only
          split <;> exact accounts
  | navdata data =>
      have called := accounts.step (navdata_queues step).1
      cases acked : data.droneState.controlCommandAck with
      | true =>
          rw [acked, if_pos rfl] at called
          rwa [ClientInput.queued, if_pos acked]
      | false =>
          rw [acked, if_neg Bool.false_ne_true, UdpCall.queued] at called
          rwa [ClientInput.queued, if_neg (by rw [acked]; decide)]
  | tick =>
      obtain ⟨_, done⟩ := step
      cases done
      exact sendCommands_accounts accounts
  | ackTimeout =>
      obtain ⟨running, done⟩ := step
      rw [ClientInput.apply] at done
      cases expired : c.udpControl.handleAckTimeout with
      | error e =>
          rw [expired] at done
          cases done
      | ok u =>
          rw [expired] at done
          cases done
          exact accounts.step (e := .ackTimeout) ⟨running, expired⟩
  | ctrlInterval =>
      obtain ⟨_, done⟩ := step
      cases done
      have called := accounts.step (e := .ctrlInterval) ⟨trivial, rfl⟩
      exact called

/-- The commands of a history that were to be repeated. -/
def repetitions (h : List (Client × ClientInput)) : List AtCommand :=
  h.filterMap fun q => q.2.repeats q.1

/-- The options that a program has set itself, after that of `resume`. -/
def configured (h : List (Client × ClientInput)) : List AtCommand :=
  AtCommandCreator.config "general:navdata_demo" "TRUE" :: h.flatMap fun q => q.2.configured

/-- An option or a flat trim. -/
def AtCommand.Counted (m : AtCommand) : Prop := m.type = .CONFIG ∨ m.type = .FTRIM

theorem count_cons_other {m x : AtCommand} {t : AtType} (counted : m.Counted) (type : x.type = t)
    (other : t ≠ .CONFIG ∧ t ≠ .FTRIM) (l : List AtCommand) : (x :: l).count m = l.count m := by
  refine List.count_cons_of_ne ?_
  rintro rfl
  rw [← type] at other
  exact counted.elim other.1 other.2

theorem count_queued {m : AtCommand} (counted : m.Counted) (c : Client) (e : ClientInput) :
    (e.queued c).count m = e.configured.count m +
      if e = .tick then (c.repeaters.map (·.method)).count m else 0 := by
  cases e with
  | request r =>
      rw [if_neg nofun]
      cases r with
      | ctrl controlMode otherMode => exact count_cons_other (t := .CTRL) counted rfl (by decide) []
      | calibrate device_num => exact count_cons_other (t := .CALIB) counted rfl (by decide) []
      | resume => exact count_cons_other (t := .CTRL) counted rfl (by decide) _
      | takeoff | land | stop | disableEmergency | ftrim | move | config | animate | animateLeds => rfl
  | navdata data =>
      rw [if_neg nofun, ClientInput.queued, UdpCall.queued]
      split
      · split
        · exact count_cons_other (t := .CTRL) counted rfl (by decide) []
        · rfl
      · rfl
  | tick =>
      rw [if_pos rfl, ClientInput.queued, count_cons_other (t := .REF) counted rfl (by decide),
        count_cons_other (t := .PCMD) counted rfl (by decide)]
      exact (Nat.zero_add _).symm
  | ackTimeout | ctrlInterval => rfl

theorem remaining_new (found : Option AtCommand) (m : AtCommand) :
    remaining (found.toList.map fun m => ⟨10, m⟩) m = 10 * found.toList.count m := by
  cases found with
  | none => rfl
  | some m' =>
      rw [Option.toList_some, List.map_singleton, remaining_singleton, List.count_singleton]
      by_cases same : m' = m <;> simp [same]

/-- What a client has queued since it was created. -/
def clientLog (h : List (Client × ClientInput)) : List AtCommand :=
  AtCommandCreator.ctrl 5 0 :: AtCommandCreator.config "general:navdata_demo" "TRUE" ::
    h.flatMap fun q => q.2.queued q.1

theorem client_run_accounts (run : ClientRun h c) : c.udpControl.Accounts (clientLog h) := by
  induction run with
  | nil =>
      have first := UdpControl.Accounts.initial.enqueue (AtCommandCreator.ctrl 5 0)
      exact first.enqueue (AtCommandCreator.config "general:navdata_demo" "TRUE")
  | snoc _ step ih =>
      have later := client_step_accounts ih step
      rw [clientLog, List.flatMap_append, List.flatMap_singleton]
      exact later

theorem count_log (run : ClientRun h c) {m : AtCommand} (counted : m.Counted) :
    (clientLog h).count m + remaining c.repeaters m =
      10 * (repetitions h).count m + (configured h).count m := by
  induction run with
  | nil =>
      have first := count_cons_other (x := AtCommandCreator.ctrl 5 0) counted rfl (by decide)
        [AtCommandCreator.config "general:navdata_demo" "TRUE"]
      exact first.trans (Nat.zero_add _).symm
  | @snoc h c e c' prior step ih =>
      have positive : ∀ r ∈ c.repeaters, 0 < r.times := by
        rw [run_due prior]
        exact due_positive
      have log : (clientLog (h ++ [(c, e)])).count m =
          (clientLog h).count m + (e.queued c).count m := by
        rw [clientLog, List.flatMap_append, List.flatMap_singleton, ← List.cons_append,
          ← List.cons_append, List.count_append]
        rfl
      have asked : (repetitions (h ++ [(c, e)])).count m =
          (repetitions h).count m + (e.repeats c).toList.count m := by
        have one : [(c, e)].filterMap (fun q => q.2.repeats q.1) = (e.repeats c).toList := by
          cases found : e.repeats c <;> simp [found]
        rw [repetitions, List.filterMap_append, List.count_append, one]
        rfl
      have set : (configured (h ++ [(c, e)])).count m =
          (configured h).count m + e.configured.count m := by
        rw [configured, List.flatMap_append, List.flatMap_singleton, ← List.cons_append,
          List.count_append]
        rfl
      rw [log, asked, set, count_queued counted, step_repeated step, remaining_append, remaining_new]
      by_cases tick : e = .tick
      · have spent := remaining_afterTick positive m
        rw [if_pos tick, if_pos tick]
        omega
      · rw [if_neg tick, if_neg tick]
        omega

/-- Of any command, what has been sent and what waits are together what was queued. -/
theorem UdpControl.Accounts.count {u : UdpControl} {log : List AtCommand} (accounts : u.Accounts log)
    (m : AtCommand) : (u.sentCommands ++ u.cmds ++ u.blockingCmds).count m = log.count m := by
  have split (l : List AtCommand) : l.count m =
      (l.filter (!·.blocks)).count m + (l.filter (·.blocks)).count m := by
    rw [← (List.filter_append_perm (·.blocks) l).count_eq, List.count_append, Nat.add_comm]
  rw [List.count_append, List.count_append, split log, ← accounts.cmds, ← accounts.blockingCmds,
    List.count_append, List.count_append, split u.sentCommands]
  omega

/-- Under any program, what a client still repeats was asked for less than ten ticks ago, each for
the rest of its ten times. And no option and no flat trim is lost or made up: those sent, those that
wait and those still to be repeated are ten for each time the command was to be repeated, and one for
each time the option was set. -/
theorem run_repeats (run : ClientRun h c) : c.repeaters = due h ∧
    ∀ m : AtCommand, m.Counted →
      (c.udpControl.sentCommands ++ c.udpControl.cmds ++ c.udpControl.blockingCmds).count m +
          remaining c.repeaters m =
        10 * (repetitions h).count m + (configured h).count m := by
  refine ⟨run_due run, fun m counted => ?_⟩
  rw [UdpControl.Accounts.count (client_run_accounts run), count_log run counted]

/-- An animation asked for twice is repeated twenty times, a flat trim ten times, though in the air
nobody listens to it. -/
theorem run_repeats_wave : ∃ c : Client,
    (c.udpControl.sentCommands ++ c.udpControl.cmds ++ c.udpControl.blockingCmds).count
        (AtCommandCreator.config "control:flight_anim" "13,1000") +
      remaining c.repeaters (AtCommandCreator.config "control:flight_anim" "13,1000") = 20 ∧
    (c.udpControl.sentCommands ++ c.udpControl.cmds ++ c.udpControl.blockingCmds).count
        AtCommandCreator.ftrim + remaining c.repeaters AtCommandCreator.ftrim = 10 := by
  let wave : ClientInput := .request (.animate "wave" 1000)
  let c₁ := ClientRequest.apply Client.create (.animate "wave" 1000)
  let c₂ := ClientRequest.apply c₁ .ftrim
  let c₃ := ClientRequest.apply c₂ .takeoff
  let c₄ := ClientRequest.apply c₃ .ftrim
  have known : (AtCommandCreator.animate "wave" 1000).isSome := by decide
  have first : ClientStep Client.create wave c₁ := ⟨known, rfl⟩
  have ground : ClientStep c₁ (.request .ftrim) c₂ := ⟨trivial, rfl⟩
  have takeoff : ClientStep c₂ (.request .takeoff) c₃ := ⟨trivial, rfl⟩
  have air : ClientStep c₃ (.request .ftrim) c₄ := ⟨trivial, rfl⟩
  have second : ClientStep c₄ wave (ClientRequest.apply c₄ (.animate "wave" 1000)) := ⟨known, rfl⟩
  have counts := (run_repeats
    (((((Run.single first).snoc ground).snoc takeoff).snoc air).snoc second)).2
  exact ⟨_, (counts _ (.inl rfl)).trans (by decide), (counts _ (.inr rfl)).trans (by decide)⟩

end Due

end DroneParking
