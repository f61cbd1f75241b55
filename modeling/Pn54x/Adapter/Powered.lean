import Pn54x.Adapter.Reset
import Pn54x.Io.Coherence

/-! Nothing reads from a chip that is off. Only `nci_core_restart` starts a reader, and while
it does the adapter may be entered again. -/
namespace Pn54x
open Reentrant Transition

/-- No process reads from the chip, none is left to be reaped, and no pipe is watched. -/
structure Sys.Silent (s : Sys) : Prop where
  reader : s.readPid = none
  children : s.children = []
  watch : s.readWatchId = none

/-- The session is coherent, and there is none unless the chip is on. -/
structure Sys.Dark (s : Sys) : Prop where
  coherent : Coherent s
  off : s.power = false → s.readPid = none

theorem Sys.Dark.silent {s : Sys} (dark : s.Dark) (off : s.power = false) : s.Silent := by
  obtain ⟨_, _, watch, children⟩ := dark.coherent.idle (dark.off off)
  exact ⟨dark.off off, children, watch⟩

theorem Sys.Dark.switch {s t : Sys} (dark : s.Dark) (power : ioSetPower env on s = .ok (ok, t)) : t.Dark := by
  constructor
  · have performed : Call.perform s (.setPower env on) = .ok t := by
      rw [Call.perform, power]
      rfl
    exact dark.coherent.perform performed
  · cases ioSetPower_switches power with
    | unopened | failed => exact dark.off
    | on => exact fun off => absurd off (by simp [Sys.record])
    | off => exact fun _ => ioClose_readPid _

theorem perform_unread {c : Call} (ofCore : Moment.OfCore (.call c) = true) (performed : c.perform s = .ok t) :
    t.power = s.power ∧ (s.readPid = none → t.readPid = none) := by
  cases c with
  | start | setPower => contradiction
  | stop =>
    refine ⟨perform_power rfl performed, fun _ => ?_⟩
    obtain rfl := Except.ok.inj performed
    exact ioClose_readPid _
  | write env chunks callback =>
    refine ⟨perform_power rfl performed, fun unread => ?_⟩
    obtain ⟨ok, writes⟩ := perform_write performed
    cases halIoWrite_writes writes with
    | unopened | short => exact unread
    | whole =>
      cases callback with
      | none => exact unread
      | some callback => exact unread
  | cancelWrite =>
    refine ⟨perform_power rfl performed, fun unread => ?_⟩
    obtain rfl := Except.ok.inj performed
    rw [halIoCancelWrite_eq]
    exact unread

/-- What libncicore and the main loop do leaves the chip's power alone and starts no reader. -/
theorem moment_unread {p q : Point} {m : Moment} (ofCore : m.OfCore = true) (performed : m.perform p = .ok q) :
    q.power = p.power ∧ (p.readPid = none → q.readPid = none) := by
  cases m with
  | call c =>
    obtain ⟨s, called, rfl⟩ := call_ok.mp performed
    exact perform_unread ofCore called
  | buffer readBuf =>
    obtain rfl := Except.ok.inj performed
    exact ⟨rfl, fun unread => unread⟩
  | deliver client packet =>
    obtain ⟨c, _, rfl⟩ := deliver_ok performed
    exact ⟨rfl, fun unread => unread⟩
  | fail id =>
    obtain ⟨_, _, client, _, rfl⟩ := fail_ok performed
    exact ⟨rfl, fun unread => unread⟩
  | complete id =>
    obtain ⟨_, _, cb, _, rfl⟩ := complete_ok performed
    exact ⟨rfl, fun unread => unread⟩
  | done =>
    obtain ⟨id, _, rfl⟩ := done_ok performed
    exact ⟨rfl, fun unread => unread⟩

theorem moments_unread {p q : Point} {part : List Moment} (ofCore : part.all Moment.OfCore = true)
    (ran : Transition.run Moment.perform p part = .ok q) : p.readPid = none → q.readPid = none :=
  run_invariant (P := fun m => p.readPid = none → m.readPid = none)
    (fun before ofCore performed => (moment_unread ofCore performed).2 ∘ before) id (List.all_eq_true.mp ofCore) ran

theorem moments_dark {p q : Point} {part : List Moment} (dark : p.Dark) (ofCore : part.all Moment.OfCore = true)
    (ran : Transition.run Moment.perform p part = .ok q) : q.power = p.power ∧ q.Dark := by
  refine run_invariant (P := fun m => m.power = p.power ∧ m.Dark) ?_ ⟨rfl, dark⟩ (List.all_eq_true.mp ofCore) ran
  rintro m i n ⟨same, dark⟩ ofCore performed
  obtain ⟨power, unread⟩ := moment_unread ofCore performed
  exact ⟨power.trans same, dark.coherent.moment performed, fun off => unread (dark.off (power.symm.trans off))⟩

/-- The call of the adapter that is pending. -/
def Pending.call : Pending → Outside
  | .outside k => k
  | .stopping | .starting | .started => .restart

/-- What holds of the chip and of its reader, whatever the history is. -/
def Lit (ks : List Outside) (s : Adapter) : Prop := (∃ tr, Agrees ks s tr) ∧ s.io.Dark

theorem Lit.around {s : Adapter} (lit : Lit ks s) {io : Sys} (power : io.power = s.io.power) (dark : io.Dark)
    (currentState nextState : Int) : Lit ks { s with currentState, nextState, io } := by
  obtain ⟨⟨tr, agrees⟩, _⟩ := lit
  exact ⟨⟨tr, ⟨agrees.serves.above, agrees.serves.served⟩, agrees.power.trans power.symm, agrees.truthful⟩, dark⟩

/-- The chip is on while libncicore is restarted. -/
theorem Lit.restarting {s : Adapter} (lit : Lit ks s) (restarts : .restart ∈ ks) : s.io.power = true := by
  obtain ⟨⟨tr, agrees⟩, _⟩ := lit
  exact agrees.power.symm.trans (agrees.serves.served _ restarts rfl).2

section
variable [NciStates]

/-- The handlers themselves do nothing to the object but switch power, and only a request
restarts libncicore. -/
theorem body_object {P : Sys → Prop}
    (switch : ∀ {s t : Sys} {env on ok}, P s → ioSetPower env on s = .ok (ok, t) → P t) {G : Deed → Adapter → Prop}
    {h : Method} {s : Adapter} {tr : History} (holds : P s.io) :
    (adapter.body h).Meets G (fun k s _ => (h.Callback = true → k ≠ .restart) ∧ P s.io) (fun _ s _ => P s.io) s tr := by
  have check {s : Adapter} {tr : History} (holds : P s.io) :
      nfcAdapterStateCheck.Meets G (fun k s _ => (h.Callback = true → k ≠ .restart) ∧ P s.io)
        (fun _ s _ => P s.io) s tr := by
    apply stateCheck_meets
    · exact fun _ => holds
    · exact fun _ _ _ => ⟨by simp, holds⟩
    · intro s' tr' before env ok io _ power _
      refine ⟨by simp, ?_⟩
      rcases before with ⟨rfl, _⟩ | ⟨_, now⟩
      · exact switch holds power
      · exact switch now power
    · exact fun _ _ _ now => now.2
  cases h with
  | currentStateChanged =>
    rw [meets_currentStateChanged]
    exact currentStateChanged_meets ⟨by simp, holds⟩ fun _ _ now => check now.2
  | nextStateChanged =>
    rw [meets_nextStateChanged]
    apply nextStateChanged_meets
    · exact ⟨by simp, holds⟩
    · exact fun s tr now _ _ _ _ _ _ off _ _ _ _ on => check (switch (switch now.2 off) on)
    · exact fun _ _ now => check now.2
  | submitPowerRequest on =>
    rw [meets_submitPowerRequest]
    cases on with
    | true =>
      apply submitOn_meets
      · exact fun _ _ => ⟨by simp, holds⟩
      · exact fun _ _ _ _ _ power _ => ⟨nofun, switch holds power⟩
      · exact fun _ _ _ _ _ power => switch holds power
      · exact fun _ _ now => ⟨by simp, now.elim And.right And.right⟩
      · exact fun _ _ now => now.2
    | false =>
      apply submitOff_meets
      · exact fun _ _ => ⟨by simp, holds⟩
      · exact fun _ _ _ => ⟨by simp, holds⟩
      · intro s' tr' before env ok io _ power _
        refine ⟨by simp, ?_⟩
        rcases before with ⟨rfl, _⟩ | ⟨_, now⟩
        · exact switch holds power
        · exact switch now power
      · exact fun _ _ now => now.2
      · exact fun _ _ _ => ⟨by simp, holds⟩
      · exact fun _ _ now => now.2
  | cancelPowerRequest =>
    rw [meets_cancelPowerRequest]
    exact holds

theorem body_lit {h : Method} {s : Adapter} (lit : Lit ks s) (nested : Nested ks h = true) (tr : History) :
    (adapter.body h).Meets (Switched · · = true) (fun k s _ => Lit (k :: ks) s) (fun _ s _ => Lit ks s) s tr := by
  obtain ⟨⟨past, agrees⟩, dark⟩ := lit
  have unchanged : adapter.change ⟨s.currentState, s.nextState, []⟩ s = .ok s := rfl
  have told := (adapter_agrees.enter agrees (w := ⟨s.currentState, s.nextState, []⟩) nested unchanged).erase tr
  apply (told.and (body_object Sys.Dark.switch dark).calls).mono
  rintro a s _ ⟨⟨_, agrees⟩, dark⟩
  exact ⟨⟨_, agrees⟩, dark⟩

/-- A restart finds the chip on and leaves it on. -/
theorem restart_lit {s : Adapter} {tr : Account} (lit : Lit (.restart :: ks) s) :
    (nciCoreRestart client).Meets (Switched · · = true)
      (fun k s _ => Lit (k.call :: ks) s) (fun _ s _ => Lit (.restart :: ks) s) s tr := by
  apply nciCoreRestart_meets
  · exact lit
  · intro s tr now
    have stopped : Call.stop.perform s.io = .ok (halIoStop s.io) := rfl
    have dark : (halIoStop s.io).Dark := ⟨now.2.coherent.perform stopped, fun _ => ioClose_readPid _⟩
    exact Lit.around now (perform_power rfl stopped) dark s.currentState s.nextState
  · intro s tr now env io started
    have performed : Call.perform s.io (.start env client) = .ok io := by
      rw [Call.perform, started]
      rfl
    have power : io.power = s.io.power := perform_power rfl performed
    have dark : io.Dark := by
      refine ⟨now.2.coherent.perform performed, fun off => ?_⟩
      have on : s.io.power = true := now.restarting (.head _)
      rw [power, on] at off
      contradiction
    exact now.around power dark s.currentState s.nextState
  · exact fun s tr now => now

theorem linked_lit {k : Outside} {s : Adapter} {tr : Account} (lit : Lit (k :: ks) s) :
    (k.linked client).Meets (Switched · · = true)
      (fun k s _ => Lit (k.call :: ks) s) (fun _ s _ => Lit (k :: ks) s) s tr := by
  cases k with
  | restart => exact restart_lit lit
  | _ => exact ⟨lit, fun s tr now => now⟩

/-- The world around the plugin. -/
def Calling (ks : List Pending) (_ : Adapter) : Act Method Around → Bool
  | .enter _ h => Nested (ks.map Pending.call) h
  | .leave _ => true

theorem plugin_lit : Stable (plugin client) Calling (Switched · · = true)
    (fun ks s _ => Lit (ks.map Pending.call) s) := by
  constructor
  · intro ks s s' tr w h before nested changed
    obtain ⟨p, ran, ofCore, rfl⟩ := around_ok changed
    obtain ⟨power, dark⟩ := moments_dark before.2 ofCore ran
    have now := before.around power dark w.currentState w.nextState
    exact (body_lit now nested []).link fun k s tr => linked_lit
  · intro k ks s s' tr w before _ changed
    obtain ⟨p, ran, ofCore, rfl⟩ := around_ok changed
    obtain ⟨power, dark⟩ := moments_dark before.2 ofCore ran
    exact before.around power dark w.currentState w.nextState

/-- `Switched`, of everything that is seen. -/
def Switching : Label Deed Pending Method (Option Bool) × Adapter → Bool
  | (.did deed, s) => Switched deed s
  | _ => true

/-- Where every switch whose result is ignored works, the chip is on while libncicore is
restarted, and no process reads from it while it is off. -/
theorem reader_powered {self : Adapter} {path : List (Reentrant.Move Reply Method Around)}
    {c : Config Adapter Reply Deed Pending Stop Method (Option Bool)}
    (created : nfcAdapterNew env currentState nextState = .ok (some self))
    (calling : (plugin client).Under Calling { state := self } path)
    (ran : (plugin client).moves { state := self } path = .ok c) (switching : ∀ e ∈ c.trace, Switching e = true) :
    (.restart ∈ c.calls.map Pending.call → c.state.io.power = true) ∧
      (c.state.io.power = false → c.state.io.Silent) := by
  have initial : Lit [] self := by
    refine ⟨⟨[], .nil self, nfcAdapterNew_power created, by simp⟩, ?_⟩
    obtain ⟨io, new, same⟩ := bind_ok.mp created
    cases io with
    | none => exact absurd (pure_ok.mp same) (by simp)
    | some io =>
      obtain rfl := Option.some.inj (pure_ok.mp same)
      obtain ⟨⟨ok, t⟩, power, same⟩ := bind_ok.mp (ioNew_performed new)
      obtain rfl := pure_ok.mp same
      have empty : Sys.Dark {} := ⟨coherent_empty, fun _ => rfl⟩
      exact empty.switch power
  have lit := plugin_lit.run initial calling ran fun _ _ member => switching _ member
  exact ⟨lit.restarting, lit.2.silent⟩

end

/-- Power is turned on, libncicore comes to be idle, and power is turned off. -/
def poweredOff : List (Reentrant.Move Reply Method Around) :=
  poweredOn ++ [.enter { currentState := 3, nextState := 3 } .currentStateChanged,
    .leave { currentState := 3, nextState := 3 },
    .enter { currentState := 3, nextState := 3 } (.submitPowerRequest false),
    .leave { currentState := 3, nextState := 3 }, .leave { currentState := 3, nextState := 3 }].map Act.functions

theorem reader_powered_off : ∃ c, (@plugin .listed 1).moves
      { state := { currentState := 0, nextState := 0, io := .fresh } } poweredOff = .ok c ∧
    c.calls = [] ∧ c.state.io.power = false ∧ c.state.io.Silent := by
  refine ⟨_, rfl, rfl, rfl, ?_⟩
  exact (@reader_powered .listed ⟨some 3, true⟩ 0 0 1 { currentState := 0, nextState := 0, io := .fresh } poweredOff _
    rfl (by decide) rfl (by decide)).2 rfl

end Pn54x
