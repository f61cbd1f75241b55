import Pn54x.Adapter.Plugin
import Pn54x.Adapter.Chip
import Pn54x.Io.Endings
import Pn54x.Library.Monitor

/-! Who keeps the reader running. Turning power off ends it and the client is not told, so
that power must not stay on, or come back, without a restart. -/
namespace Pn54x
open Reentrant Transition Monitor

/-- Whether the client has started and has not been told of an end since. -/
def lives : Bool → Event → Bool
  | _, .start _ ok => ok
  | _, .stop | _, .error _ => false
  | live, _ => live

def Sys.live (s : Sys) : Bool := after lives false s.log

/-- The reader is there and is watched. -/
def Sys.reading (s : Sys) : Bool := s.readPid.isSome && s.readWatchId.isSome

theorem live_append {s t : Sys} (events : List Event) (log : t.log = s.log ++ events) :
    t.live = after lives s.live events := by
  rw [Sys.live, log, after_append]
  rfl

theorem live_close (s : Sys) : (ioClose s).live = s.live := by
  obtain ⟨closes, closed, log⟩ := ioClose_log s
  rw [live_append closes log]
  refine after_inert (fun e member m => ?_) _
  have close := closed e member
  cases e <;> simp_all [Event.isClosed, lives]

theorem live_record (s : Sys) (e : Event) : (s.record e).live = lives s.live e :=
  live_append [e] rfl

/-- A session that outlives a moment was alive before, and its reader is as it was. -/
def Outlives (s t : Sys) : Prop := t.live = true → s.live = true ∧ t.reading = s.reading

theorem Outlives.trans (first : Outlives s t) (second : Outlives t u) : Outlives s u := by
  intro live
  obtain ⟨before, same⟩ := second live
  obtain ⟨earlier, same'⟩ := first before
  exact ⟨earlier, same.trans same'⟩

theorem outlives_append {s t : Sys} (events : List Event) (log : t.log = s.log ++ events)
    (inert : ∀ e ∈ events, ∀ live, lives live e = live) (same : t.reading = s.reading) : Outlives s t := by
  intro live
  rw [live_append events log, after_inert inert] at live
  exact ⟨live, same⟩

theorem scheduleComplete_reading (s : Sys) (callback : Option Callback) :
    (s.scheduleComplete callback).reading = s.reading := by
  cases callback <;> rfl

theorem perform_outlives {c : Call} (ofCore : Moment.OfCore (.call c) = true) (performed : c.perform s = .ok t) :
    Outlives s t := by
  cases c with
  | start | setPower => contradiction
  | stop =>
    obtain rfl := Except.ok.inj performed
    intro live
    rw [halIoStop, live_record] at live
    contradiction
  | write env chunks callback =>
    obtain ⟨ok, writes⟩ := perform_write performed
    cases halIoWrite_writes writes with
    | unopened => exact outlives_append [.write callback false] rfl (by simp [lives]) rfl
    | @short d files data =>
      exact outlives_append [.sent data env.written, .write callback false] (by simp) (by simp [lives]) rfl
    | @whole d files data =>
      refine outlives_append [.sent data env.written, .write callback true] (by simp) (by simp [lives]) ?_
      exact scheduleComplete_reading _ callback
  | cancelWrite =>
    obtain rfl := Except.ok.inj performed
    rw [halIoCancelWrite_eq]
    exact outlives_append [.cancelWrite] rfl (by simp [lives]) rfl

/-- Nothing but the adapter and a restart ends a session without the client knowing. -/
theorem moment_outlives {p q : Point} {m : Moment} (ofCore : m.OfCore = true) (performed : m.perform p = .ok q) :
    Outlives p.toSys q.toSys := by
  cases m with
  | call c =>
    obtain ⟨s, called, rfl⟩ := call_ok.mp performed
    exact perform_outlives ofCore called
  | buffer readBuf =>
    obtain rfl := Except.ok.inj performed
    exact fun live => ⟨live, rfl⟩
  | deliver client packet =>
    obtain ⟨c, _, rfl⟩ := deliver_ok performed
    exact outlives_append [.read c packet] rfl (by simp [lives]) rfl
  | fail id =>
    obtain ⟨_, _, client, _, rfl⟩ := fail_ok performed
    intro live
    rw [live_record] at live
    contradiction
  | complete id =>
    obtain ⟨_, _, cb, _, rfl⟩ := complete_ok performed
    exact outlives_append [.writeComplete p.client cb true] rfl (by simp [lives]) rfl
  | done =>
    obtain ⟨id, _, rfl⟩ := done_ok performed
    exact fun live => ⟨live, rfl⟩

theorem moments_outlive {p q : Point} {part : List Moment} (ofCore : part.all Moment.OfCore = true)
    (ran : Transition.run Moment.perform p part = .ok q) : Outlives p.toSys q.toSys :=
  run_invariant (P := fun m => Outlives p.toSys m.toSys)
    (fun before ofCore performed => before.trans (moment_outlives ofCore performed))
    (fun live => ⟨live, rfl⟩) (List.all_eq_true.mp ofCore) ran

theorem started_reading {s t : Sys} (started : halIoStart env client s = .ok (true, t)) : t.reading = true := by
  cases (halIoStart_starts started).2 with
  | started => rfl

/-- Switching power is not known to the client. -/
theorem power_live {s t : Sys} (power : ioSetPower env on s = .ok (ok, t)) : t.live = s.live := by
  cases ioSetPower_switches power with
  | unopened | failed => exact live_append [.setPower on false] rfl
  | on => exact live_append [.setPower true true] rfl
  | off =>
    rw [live_record, live_close]
    rfl

/-- What waits there will turn power off, or stop before it starts. -/
def Pending.Ends : Pending → Bool
  | .outside k => k.Closing
  | .stopping => true
  | _ => false

/-- While power is on a live session has its reader, or something that waits will end it. -/
def Retained (ks : List Pending) (s : Adapter) : Prop :=
  s.powerOn = true → s.io.live = true → s.io.reading = true ∨ ∃ k ∈ ks, k.Ends = true

theorem Retained.pop {s : Adapter} (retained : Retained (k :: ks) s) (other : k.Ends = false) : Retained ks s := by
  intro on live
  refine (retained on live).imp id ?_
  rintro ⟨k', member, ends⟩
  cases member with
  | head => rw [ends] at other; contradiction
  | tail _ member => exact ⟨k', member, ends⟩

theorem Retained.push {s : Adapter} (retained : Retained ks s) (k : Pending) : Retained (k :: ks) s := by
  intro on live
  refine (retained on live).imp id ?_
  rintro ⟨k', member, ends⟩
  exact ⟨k', .tail _ member, ends⟩

theorem retained_ending {k : Pending} (ks : List Pending) (s : Adapter) (ends : k.Ends = true) :
    Retained (k :: ks) s :=
  fun _ _ => .inr ⟨k, .head _, ends⟩

theorem retained_off {s : Adapter} (ks : List Pending) (off : s.powerOn = false) : Retained ks s := by
  intro on
  rw [off] at on
  contradiction

theorem Retained.outlived {s t : Adapter} (retained : Retained ks s) (outlives : Outlives s.io t.io)
    (same : t.powerOn = s.powerOn) : Retained ks t := by
  intro on live
  obtain ⟨before, reading⟩ := outlives live
  rw [reading]
  exact retained (same ▸ on) before

section
variable [NciStates]

/-- The condition on the reset: there is no reader of a live session to be lost, or the
check that follows turns power off. -/
def Spares : Deed → Adapter → Bool
  | .setPower .reset false _, s =>
    !(s.io.live && s.io.reading) || !s.needPower && s.currentState ≤ NciStates.idle
  | _, _ => true

/-- What a call of the adapter, other than the restart, finds and leaves. -/
def Awaits (ks : List Pending) (k : Outside) (s : Adapter) : Prop :=
  k ≠ .restart ∧ Retained (.outside k :: ks) s

theorem stateCheck_retains {s : Adapter} {tr : History} {Q : Unit → Adapter → History → Prop}
    (retained : Retained ks s ∨ s.needPower = false ∧ s.currentState ≤ NciStates.idle)
    (finish : ∀ s tr, Retained ks s → Q () s tr) :
    nfcAdapterStateCheck.Meets (Spares · · = true) (fun k s _ => Awaits ks k s) Q s tr := by
  apply stateCheck_meets
  · intro above
    refine finish s tr fun on live => ?_
    cases retained with
    | inl retained => exact retained on live
    | inr unneeded => exact absurd (above on unneeded.1) (Int.not_lt.mpr unneeded.2)
  · exact fun _ _ _ => ⟨nofun, retained_ending ks s rfl⟩
  · exact fun _ _ _ _ _ _ _ _ _ => ⟨nofun, retained_off _ rfl⟩
  · exact fun _ s tr now => finish s tr (now.2.pop rfl)

theorem submitOff_retains {s : Adapter} {tr : History} {Q : Bool → Adapter → History → Prop}
    (retained : Retained ks s) (finish : ∀ pending s tr, Retained ks s → Q pending s tr) :
    (nfcAdapterSubmitPowerRequest false).Meets (Spares · · = true) (fun k s _ => Awaits ks k s) Q s tr := by
  apply submitOff_meets
  · exact fun _ off => ⟨nofun, retained_off _ off⟩
  · exact fun _ _ _ => ⟨nofun, retained_ending ks _ rfl⟩
  · exact fun _ _ _ _ _ _ _ _ _ => ⟨nofun, retained_off _ rfl⟩
  · exact fun s tr now => finish _ s tr (now.2.pop rfl)
  · exact fun _ _ _ => ⟨nofun, retained.push _⟩
  · exact fun s tr now => finish _ _ tr (now.2.pop rfl)

theorem nextStateChanged_retains {s : Adapter} {tr : History} {Q : Unit → Adapter → History → Prop}
    (retained : Retained ks s) (finish : ∀ s tr, Retained ks s → Q () s tr) :
    nfcAdapterNextStateChanged.Meets (Spares · · = true) (fun k s _ => Awaits ks k s) Q s tr := by
  apply nextStateChanged_meets
  · exact ⟨nofun, retained.push _⟩
  · intro s tr now _ on env ok io good off env' ok' io' _ again
    have retained := now.2.pop rfl
    refine stateCheck_retains ?_ finish
    have same : io'.live = s.io.live := (power_live again).trans (power_live off)
    simp only [Spares, Bool.or_eq_true, Bool.and_eq_true, Bool.not_eq_true', decide_eq_true_eq] at good
    refine good.imp (fun spared on live => ?_) id
    have live' : s.io.live = true := same.symm.trans live
    have idle : s.io.reading ≠ true := by
      rw [live'] at spared
      simpa using spared
    exact .inr ((retained on live').resolve_left idle)
  · exact fun s tr now => stateCheck_retains (.inl (now.2.pop rfl)) finish

/-- Calls that are not replaced find and leave the same. -/
theorem linked_awaits (ks : List Pending) {k : Outside} {s : Adapter} {tr : Account} (awaits : Awaits ks k s) :
    (k.linked client).Meets (Spares · · = true) (fun k s _ => Retained (k :: ks) s) (fun _ s _ => Awaits ks k s) s tr := by
  cases k with
  | restart => exact absurd rfl awaits.1
  | _ => exact ⟨awaits.2, fun s tr now => ⟨nofun, now⟩⟩

/-- A restart ends whatever was alive, and starts anew. -/
theorem restart_retains (ks : List Pending) (s : Adapter) (tr : Account) :
    (nciCoreRestart client).Meets (Spares · · = true) (fun k s _ => Retained (k :: ks) s)
      (fun _ s _ => Retained ks s) s tr := by
  apply nciCoreRestart_meets
  · exact retained_ending ks s rfl
  · intro s tr _ stopped on live
    have ended : stopped.io.live = false := live_record _ _
    rw [ended] at live
    contradiction
  · exact fun s tr _ env io started _ _ => .inl (started_reading started)
  · exact fun s tr now => now.pop rfl

theorem submitOn_retains {s : Adapter} {tr : Account} {Q : Bool → Adapter → Account → Prop}
    (retained : Retained ks s) (finish : ∀ pending s tr, Retained ks s → Q pending s tr) :
    ((nfcAdapterSubmitPowerRequest true).link Reply.power (Outside.linked client)).Meets (Spares · · = true)
      (fun k s _ => Retained (k :: ks) s) Q s tr := by
  simp only [nfcAdapterSubmitPowerRequest, Prog.link_bind, Prog.link_read, Prog.link_update, Prog.link_ite,
    Prog.link_outside, Prog.link_pure, meets_bind, meets_read, meets_linked_lift, meets_update, meets_ite,
    meets_linked_setPower, meets_linked_setPowerOn, meets_pure, if_true]
  have notifies (s : Adapter) (tr : Account) (now : Retained ks s) :
      (Outside.linked client (.powerNotify .submitOn true true)).Meets (Spares · · = true)
        (fun k s _ => Retained (k :: ks) s) (fun _ s tr => Q s.powerSwitchPending s tr) s tr :=
    ⟨now.push _, fun s tr now => finish _ s tr (now.pop rfl)⟩
  intro _ _
  constructor
  · exact fun _ => ⟨retained.push _, fun s tr now => notifies s tr (now.pop rfl)⟩
  · intro off env _ ok io power
    refine ⟨fun _ _ => ?_, fun _ => finish _ _ _ (retained_off ks (by simpa using off))⟩
    exact Prog.Meets.mono (restart_retains ks _ _) fun _ s tr now => notifies s tr now

theorem plugin_retains : Stable (plugin client) (fun _ _ _ => true) (Spares · · = true)
    (fun ks s _ => Retained ks s) := by
  constructor
  · intro ks s s' tr w h before _ changed
    obtain ⟨p, ran, ofCore, rfl⟩ := around_ok changed
    have now : Retained ks { s with currentState := w.currentState, nextState := w.nextState, io := p.toSys } :=
      before.outlived (moments_outlive ofCore ran) rfl
    have linked {p : Handler (Option Bool)} {s : Adapter}
        (meets : p.Meets (Spares · · = true) (fun k s _ => Awaits ks k s) (fun _ s _ => Retained ks s) s ([] : History))
        (tr : Account) : (p.link Reply.power (Outside.linked client)).Meets (Spares · · = true)
          (fun k s _ => Retained (k :: ks) s) (fun _ s _ => Retained ks s) s tr :=
      meets.link fun k s tr awaits => linked_awaits ks awaits
    cases h with
    | currentStateChanged =>
      refine linked ?_ _
      refine meets_currentStateChanged.mpr (currentStateChanged_meets ⟨nofun, now.push _⟩ ?_)
      exact fun s tr now => stateCheck_retains (.inl (now.2.pop rfl)) fun s tr now => now
    | nextStateChanged =>
      refine linked ?_ _
      exact meets_nextStateChanged.mpr (nextStateChanged_retains now fun s tr now => now)
    | submitPowerRequest on =>
      cases on with
      | true =>
        change (Prog.link _ _ (nfcAdapterSubmitPowerRequest true >>= fun pending => pure (some pending))).Meets ..
        rw [Prog.link_bind, meets_bind]
        exact submitOn_retains now fun _ s tr now => now
      | false =>
        refine linked ?_ _
        exact (meets_submitPowerRequest _).mpr (submitOff_retains now fun _ s tr now => now)
    | cancelPowerRequest => exact now
  · intro k ks s s' tr w before _ changed
    obtain ⟨p, ran, ofCore, rfl⟩ := around_ok changed
    exact before.outlived (moments_outlive ofCore ran) rfl

/-- `Spares`, of everything that is seen. -/
def Sparing : Label Deed Pending Method (Option Bool) × Adapter → Bool
  | (.did deed, s) => Spares deed s
  | _ => true

/-- Where no reset takes the reader from a live session, a chip that is powered has its
reader as long as its client relies on one. -/
theorem reset_retains {self : Adapter} {path : List (Reentrant.Move Reply Method Around)}
    {c : Config Adapter Reply Deed Pending Stop Method (Option Bool)}
    (created : nfcAdapterNew env currentState nextState = .ok (some self))
    (ran : (plugin client).moves { state := self } path = .ok c) (sparing : ∀ e ∈ c.trace, Sparing e = true)
    (returned : c.calls = []) (on : c.state.powerOn = true) (live : c.state.io.live = true) :
    c.state.io.readPid.isSome = true ∧ c.state.io.readWatchId.isSome = true := by
  have initial : Retained [] self := by
    refine retained_off [] ?_
    obtain ⟨io, _, same⟩ := bind_ok.mp created
    cases io with
    | none => exact absurd (pure_ok.mp same) (by simp)
    | some io =>
      obtain rfl := Option.some.inj (pure_ok.mp same)
      rfl
  have retained := plugin_retains.run initial (along_all fun _ _ => rfl) ran fun _ _ member => sparing _ member
  rw [returned] at retained
  have reading := (retained on live).resolve_right (by simp)
  simpa only [Sys.reading, Bool.and_eq_true] using reading

/-- Everything that is opened and switched works. -/
def Functioning : Label Deed Pending Method (Option Bool) × Adapter → Bool
  | (.did (.setPower _ _ env), s) => env.Works s.io
  | _ => true

end

/-- The kernel opens the device and does what it is asked to, and starts work. -/
def Act.functions (act : Act Method Around) : Reentrant.Move Reply Method Around :=
  ⟨act, fun _ => ⟨⟨some 3, true⟩, .success⟩⟩

/-- Power is turned on and libncicore restarted. -/
def poweredOn : List (Reentrant.Move Reply Method Around) :=
  [.enter { currentState := 0, nextState := 0 } (.submitPowerRequest true),
    .leave { currentState := 0, nextState := 0 }, .leave { currentState := 0, nextState := 0 },
    .leave { currentState := 0, nextState := 4 }, .leave { currentState := 4, nextState := 4 }].map Act.functions

/-- A request for no power waits when libncicore fails: the chip is reset and then turned
off. Then power is turned on again. -/
def resetAndOn : List (Reentrant.Move Reply Method Around) :=
  poweredOn ++ [.enter { currentState := 4, nextState := 4 } (.submitPowerRequest false),
    .leave { currentState := 4, nextState := 3 }, .enter { currentState := 1, nextState := 1 } .nextStateChanged,
    .leave { currentState := 1, nextState := 1 },
    .leave { currentState := 1, nextState := 1 }].map Act.functions ++ poweredOn

theorem reset_retains_powered : ∃ c, (@plugin .listed 1).moves
      { state := { currentState := 0, nextState := 0, io := .fresh } } resetAndOn = .ok c ∧
    c.state.powerOn = true ∧ c.state.io.readPid.isSome = true ∧ c.state.io.readWatchId.isSome = true := by
  refine ⟨_, rfl, rfl, ?_⟩
  exact @reset_retains .listed ⟨some 3, true⟩ 0 0 1 { currentState := 0, nextState := 0, io := .fresh } resetAndOn _
    rfl rfl (by decide) rfl rfl rfl

/-- A reset of the powered chip kills the reader, and nothing starts it again. -/
theorem reset_loses_reader : ¬ ∀ (_ : NciStates) (client : Client) (env : PowerEnv) (currentState nextState : Int)
    (self : Adapter) (path : List (Reentrant.Move Reply Method Around))
    (c : Config Adapter Reply Deed Pending Stop Method (Option Bool)),
    nfcAdapterNew env currentState nextState = .ok (some self) →
    (plugin client).moves { state := self } path = .ok c → (∀ e ∈ c.trace, Functioning e = true) →
    c.calls = [] → c.state.powerOn = true → c.state.io.live = true →
    c.state.io.readPid.isSome = true ∧ c.state.io.readWatchId.isSome = true := by
  intro all
  have reading := all .listed 1 ⟨some 3, true⟩ 0 0 { currentState := 0, nextState := 0, io := .fresh }
    (poweredOn ++ [.enter { currentState := 4, nextState := 1 } .nextStateChanged,
      .leave { currentState := 4, nextState := 1 }].map Act.functions) _ rfl rfl (by decide) rfl rfl rfl
  exact absurd reading.1 (by decide)

end Pn54x
