import Pn54x.Adapter.Powered
import Pn54x.Adapter.Replies
import Pn54x.Io.Faults
import Pn54x.Library.Stopping

/-! What nfcd has to keep to. What the adapter keeps alone it keeps in the plugin, where
libncicore is restarted and the main loop runs; and as long as nfcd has no request open when it
makes the next one, no assertion of the plugin fails. -/
namespace Pn54x
open Reentrant Transition Monitor

/-- The call of the adapter that begins there. -/
def Pending.begins : Pending → Option Outside
  | .outside k => some k
  | .stopping => some .restart
  | .starting | .started => none

/-- The history of the adapter in the plugin. -/
def Account.history (tr : Account) : History := viewed Pending.begins tr

theorem history_append (tr tr' : Account) : Account.history (tr ++ tr') = tr.history ++ tr'.history :=
  viewed_append Pending.begins tr tr'

/-- What the adapter sees of what goes on around the plugin. -/
def Around.plain (w : Around) : Change := { currentState := w.currentState, nextState := w.nextState }

def plainly : Act Method Around → Act Method Change
  | .enter w h => .enter w.plain h
  | .leave w => .leave w.plain

section
variable [NciStates] {client : Client} {R : List Outside → Adapter → Act Method Change → Bool}
  {G : Deed → Adapter → Prop} {I : List Outside → Adapter → History → Prop}

omit [NciStates] in
/-- Calls are replaced by what keeps any assertion that is not about the object. -/
theorem linked_keeps (blind : ∀ {ks s tr} io, I ks s tr → I ks { s with io } tr) {k : Outside} {s : Adapter}
    {tr : Account} (holds : I (k :: ks) s (tr.history ++ [(.called k, s)])) :
    (k.linked client).Meets G (fun i s tr => I (i.call :: ks) s (Account.history tr))
      (fun _ s tr => I (k :: ks) s (Account.history tr)) s tr := by
  have silent {i : Pending} (within : i.begins = none) (s : Adapter) (tr : Account) :
      Account.history (tr ++ [(.called i, s)]) = tr.history := by
    rw [history_append]
    simp [Account.history, viewed, Label.view, within]
  cases k with
  | restart =>
    apply nciCoreRestart_meets
    · rw [history_append]
      exact holds
    · intro s tr now stopped
      rw [silent (i := .starting) rfl]
      exact blind _ now
    · intro s tr now env io _
      rw [silent (i := .started) rfl]
      exact blind io now
    · exact fun s tr now => now
  | _ =>
    refine ⟨?_, fun s tr now => now⟩
    simp only [history_append]
    exact holds

/-- What is stable for the adapter alone and not about the object is stable in the plugin. -/
theorem plugin_stable (stable : Stable adapter R G I) (blind : ∀ {ks s tr} io, I ks s tr → I ks { s with io } tr)
    (unseen : ∀ {ks s act} io, R ks s act = true → R ks { s with io } act = true) :
    Stable (plugin client) (fun ks s act => R (ks.map Pending.call) s (plainly act)) G
      (fun ks s tr => I (ks.map Pending.call) s (Account.history tr)) := by
  constructor
  · intro ks s s' tr w h before ruled changed
    obtain ⟨p, _, _, rfl⟩ := around_ok changed
    have meets := stable.enter (blind p.toSys before) (unseen p.toSys ruled) rfl
    change Prog.Meets _ _ _ _ _ (Account.history tr ++ Account.history [(.entered h, _)]) at meets
    rw [← history_append] at meets
    apply (meets.viewed fun k s tr holds => linked_keeps blind holds).mono
    intro a s tr after
    rw [history_append]
    exact after
  · intro k ks s s' tr w before ruled changed
    obtain ⟨p, _, _, rfl⟩ := around_ok changed
    exact stable.leave (blind p.toSys before) (unseen p.toSys ruled) rfl

end

section
variable [NciStates] {client : Client}

/-- Requests are made and cancelled one at a time. -/
def Orderly (ks : List Pending) (s : Adapter) (act : Act Method Around) : Bool :=
  Serial (ks.map Pending.call) s (plainly act)

theorem plugin_replies : Stable (plugin client) Orderly (fun _ _ => True)
    (fun ks s tr => Replies (ks.map Pending.call) s (Account.history tr)) := by
  apply plugin_stable adapter_replies (fun io replies => replies.same rfl)
  intro ks s act io serial
  cases act <;> exact serial

/-- Between the stop and the start of a restart there is no reader. -/
def Restarts (ks : List Pending) (s : Adapter) : Prop := .starting ∈ ks → s.io.readPid = none

omit [NciStates] in
/-- Switching power starts no reader. -/
theorem power_unread {s t : Sys} (unread : s.readPid = none) (power : ioSetPower env on s = .ok (ok, t)) :
    t.readPid = none := by
  cases ioSetPower_switches power with
  | unopened | failed | on => exact unread
  | off => exact ioClose_readPid _

omit [NciStates] in
/-- While nothing is about to start, a call leaves nothing that is. -/
theorem linked_restarts (free : .starting ∉ ks) {k : Outside} (s : Adapter) (tr : Account) :
    (k.linked client).Meets (fun _ _ => True) (fun i s _ => Restarts (i :: ks) s) (fun _ _ _ => True) s tr := by
  have other {i : Pending} (distinct : i ≠ .starting) (s : Adapter) : Restarts (i :: ks) s := by
    rintro (_ | ⟨_, member⟩)
    · contradiction
    · exact absurd member free
  cases k with
  | restart =>
    apply nciCoreRestart_meets
    · exact other (by simp) s
    · exact fun _ _ _ _ => ioClose_readPid _
    · exact fun _ _ _ _ _ _ => other (by simp) _
    · exact fun _ _ _ => trivial
  | _ => exact ⟨other (by simp) s, fun _ _ _ => trivial⟩

theorem body_restarts (free : .starting ∉ ks) (h : Method) (s : Adapter) (tr : Account) :
    ((plugin client).body h).Meets (fun _ _ => True) (fun i s _ => Restarts (i :: ks) s) (fun _ _ _ => True) s tr :=
  Prog.Meets.link (meets_always h.body s ([] : History)) fun _ s tr _ => linked_restarts free s tr

/-- A callback between the stop and the start of a restart. -/
theorem callback_restarts {h : Method} (callback : h.Callback = true) (restarting : .starting ∈ ks) {s : Adapter}
    (unread : s.io.readPid = none) (tr : Account) :
    ((plugin client).body h).Meets (fun _ _ => True) (fun i s _ => Restarts (i :: ks) s)
      (fun _ s _ => s.io.readPid = none) s tr := by
  have own : (adapter.body h).Meets (fun _ _ => True) _ _ s ([] : History) := body_object power_unread unread
  apply Prog.Meets.link own
  rintro k s tr ⟨other, unread⟩
  cases k with
  | restart => exact absurd rfl (other callback)
  | _ => exact ⟨fun _ => unread, fun s tr now => ⟨other, now (.tail _ restarting)⟩⟩

theorem plugin_restarts : Stable (plugin client) Orderly (fun _ _ => True) (fun ks s _ => Restarts ks s) := by
  constructor
  · intro ks s s' tr w h before ruled changed
    obtain ⟨p, ran, ofCore, rfl⟩ := around_ok changed
    by_cases restarting : .starting ∈ ks
    · have callback : h.Callback = true := by
        simp only [Orderly, plainly, Serial, Bool.or_eq_true, List.all_eq_true] at ruled
        apply ruled.resolve_right
        intro free
        exact absurd (free .restart (List.mem_map.mpr ⟨_, restarting, rfl⟩)) (by simp [Outside.request])
      have unread : p.readPid = none := moments_unread ofCore ran (before restarting)
      exact (callback_restarts callback restarting unread _).mono fun _ _ _ now _ => now
    · exact (body_restarts restarting h _ _).mono fun _ _ _ _ member => absurd member restarting
  · intro k ks s s' tr w before _ changed
    obtain ⟨p, ran, ofCore, rfl⟩ := around_ok changed
    exact fun restarting => moments_unread ofCore ran (before restarting)

end

theorem ioSetPower_excused {s : Sys} (e : Stop) (failed : ioSetPower env on s = .error e) : e.Excused := by
  unfold ioSetPower at failed
  apply bind_error failed (ioOpen_excused e)
  intro _ _ failed
  simp only at failed
  split at failed <;> contradiction

/-- Without a reader a start is taken. -/
theorem halIoStart_excused {s : Sys} (unread : s.readPid = none) (e : Stop)
    (failed : halIoStart env client s = .error e) : e.Excused := by
  unfold halIoStart at failed
  apply bind_error failed (gassert_excused (by rw [unread]; rfl) e)
  intro _ _ failed
  refine bind_error failed (ioOpen_excused e) fun (opened, m) _ failed => ?_
  cases opened with
  | false => contradiction
  | true =>
    apply bind_error failed (startReader_excused e)
    intro _ _ done
    contradiction

section
variable {B : Outside → Adapter → Prop}

theorem lift_excused (s : Adapter) {x : Exec α} (excused : ∀ e, x = .error e → e.Excused) :
    (Handler.lift x).Excused Stop.Excused B s := by
  cases x with
  | error e => exact excused e rfl
  | ok a => trivial

theorem setPower_excused (site : Site) (on : Bool) (s : Adapter) :
    (Handler.setPower site on).Excused Stop.Excused B s := by
  simp only [Handler.setPower, excused_bind_answer, excused_bind_read, excused_bind_log]
  intro env
  exact (lift_excused s ioSetPower_excused).bind fun _ _ => trivial

@[simp] theorem excused_bind_setPowerOn (on : Bool) (s : Adapter) (f : Unit → Handler α) :
    (Handler.setPowerOn on >>= f).Excused Stop.Excused B s ↔
      (f ()).Excused Stop.Excused B { s with powerOn := on } := Iff.rfl

variable [NciStates]

theorem canPowerOff_excused (site : Site) (s : Adapter) :
    (nfcAdapterCanPowerOff site).Excused Stop.Excused B s := by
  simp [nfcAdapterCanPowerOff]

theorem stateCheck_excused (s : Adapter) : nfcAdapterStateCheck.Excused Stop.Excused B s := by
  simp only [nfcAdapterStateCheck, excused_bind_read, excused_ite, excused_pure]
  refine ⟨fun _ => ?_, fun _ => trivial⟩
  apply (canPowerOff_excused _ s).bind
  intro off s
  simp only [excused_ite, excused_pure]
  refine ⟨fun _ => ?_, fun _ => trivial⟩
  apply (setPower_excused _ _ s).bind
  intro _ s
  simp

theorem nextStateChanged_excused (s : Adapter) : nfcAdapterNextStateChanged.Excused Stop.Excused B s := by
  simp only [nfcAdapterNextStateChanged, excused_bind_outside, excused_bind_read]
  intro s _
  rw [excused_ite, excused_ite]
  refine ⟨fun _ => ⟨fun _ => ?_, fun _ => stateCheck_excused s⟩, fun _ => stateCheck_excused s⟩
  apply (setPower_excused _ _ s).bind
  intro _ s
  exact (setPower_excused _ _ s).bind fun _ s => stateCheck_excused s

/-- A request that is made while none waits. -/
theorem submitPowerRequest_excused {s : Adapter} (idle : s.powerSwitchPending = false) (on : Bool) :
    (nfcAdapterSubmitPowerRequest on).Excused Stop.Excused B s := by
  simp only [nfcAdapterSubmitPowerRequest, excused_bind_read, idle]
  apply (lift_excused s (gassert_excused rfl)).bind
  intro _ s
  simp only [excused_bind_update, excused_ite, excused_bind_outside, excused_bind_read, excused_pure]
  refine ⟨fun _ => ⟨by simp, fun _ => ?_⟩, fun _ => ⟨fun _ => ?_, by simp⟩⟩
  · apply (setPower_excused _ _ _).bind
    intro ok s
    simp
  · apply (canPowerOff_excused _ _).bind
    intro off s
    rw [excused_ite]
    refine ⟨fun _ => ?_, fun _ => by simp⟩
    apply (setPower_excused _ _ s).bind
    intro _ s
    simp

/-- Only a request that is made while another one waits fails by itself. -/
theorem body_excused {h : Method} {s : Adapter} (idle : h.Submit = true → s.powerSwitchPending = false) :
    (adapter.body h).Excused Stop.Excused B s := by
  cases h with
  | currentStateChanged =>
    refine Prog.Excused.bind ?_ fun _ _ => trivial
    exact fun s _ => stateCheck_excused s
  | nextStateChanged => exact (nextStateChanged_excused s).bind fun _ _ => trivial
  | submitPowerRequest on => exact (submitPowerRequest_excused (idle rfl) on).bind fun _ _ => trivial
  | cancelPowerRequest => trivial

end

section
variable [NciStates] {client : Client}

/-- What the start of a restart relies on. -/
def Relied (k : Pending) (s : Adapter) : Prop := k = .starting → s.io.readPid = none

omit [NciStates] in
theorem nciCoreRestart_excused (s : Adapter) : (nciCoreRestart client).Excused Stop.Excused Relied s := by
  simp only [nciCoreRestart, excused_bind_outside, excused_bind_update, excused_bind_answer, excused_bind_read]
  intro s _ s unread reply
  split
  · simp
  · rfl
  · exact halIoStart_excused (unread rfl) _ ‹_›

theorem plugin_excused {h : Method} {s : Adapter} (idle : h.Submit = true → s.powerSwitchPending = false) :
    ((plugin client).body h).Excused Stop.Excused Relied s := by
  apply Prog.Excused.link (body_excused idle)
  intro k s
  cases k with
  | restart => exact nciCoreRestart_excused s
  | _ => exact fun _ _ => trivial

/-- nfcd makes its requests one at a time, and none while, by what it was told, one is open. -/
def Polite (c : Config Adapter Reply Deed Pending Stop Method (Option Bool))
    (m : Reentrant.Move Reply Method Around) : Bool :=
  Orderly c.calls c.state m.act && match m.act with
    | .enter _ (.submitPowerRequest _) => after asks none (Account.history c.trace) = none
    | _ => true

theorem polite_idle {c : Config Adapter Reply Deed Pending Stop Method (Option Bool)}
    {m : Reentrant.Move Reply Method Around}
    (replies : Replies (c.calls.map Pending.call) c.state (Account.history c.trace)) (polite : Polite c m = true)
    (submits : m.act = .enter w (.submitPowerRequest on)) : c.state.powerSwitchPending = false := by
  simp only [Polite, submits, Orderly, plainly, Serial, Method.Callback, Bool.false_or, Bool.and_eq_true,
    List.all_eq_true, Option.isNone_iff_eq_none, decide_eq_true_eq] at polite
  obtain ⟨free, closed⟩ := polite
  rw [replies.asked, asking_none free] at closed
  simpa using closed

theorem polite_ready {c : Config Adapter Reply Deed Pending Stop Method (Option Bool)}
    {m : Reentrant.Move Reply Method Around}
    (replies : Replies (c.calls.map Pending.call) c.state (Account.history c.trace))
    (restarts : Restarts c.calls c.state) (resting : Resting Stop.Excused Relied c.stack)
    (polite : Polite c m = true) : Ready (plugin client) Stop.Excused Relied c m.act := by
  refine ⟨resting, fun w h s entering changed => plugin_excused fun submit => ?_, ?_⟩
  · obtain ⟨p, _, _, rfl⟩ := around_ok changed
    cases h with
    | submitPowerRequest on => exact polite_idle replies polite entering
    | _ => contradiction
  · rintro w k s _ waits changed rfl
    obtain ⟨p, ran, ofCore, rfl⟩ := around_ok changed
    exact moments_unread ofCore ran (restarts waits)

/-- As long as nfcd is polite no assertion of the adapter fails, and neither does the one in the
start of `nci_core_restart`: the next move of the plugin fails over an answer that cannot be, or
because the world cannot make it. -/
theorem plugin_faults {self : Adapter} {path : List (Reentrant.Move Reply Method Around)}
    {c : Config Adapter Reply Deed Pending Stop Method (Option Bool)} {m : Reentrant.Move Reply Method Around}
    (created : nfcAdapterNew env currentState nextState = .ok (some self))
    (polite : along (plugin client).step (fun c m => Polite c m = true) { state := self } path)
    (ran : (plugin client).moves { state := self } path = .ok c) (next : Polite c m = true)
    (failed : (plugin client).step c m = .error e) :
    e = .impossible ∨ m.act.world.apply c.state = .error e := by
  obtain ⟨⟨replies, restarts⟩, resting⟩ := Stable.rests (plugin_replies.and plugin_restarts)
    (fun polite => (Bool.and_eq_true_iff.mp polite).1)
    (fun holds resting polite => polite_ready holds.1 holds.2 resting polite)
    ⟨replies_initial (nfcAdapterNew_ok created).1, by simp [Restarts]⟩ polite ran
  rcases (polite_ready replies restarts resting next).excuses failed with excused | idle | unable
  · exact .inl excused
  · exact .inl idle
  · exact .inr unable

end

/-- libncicore writes again before its write is completed. -/
def writesTwice : Around where
  currentState := 4
  nextState := 4
  moments := [.call (.write ⟨none, some 3⟩ [[32, 0, 0]] (some 1)), .call (.write ⟨none, some 3⟩ [[32, 0, 0]] (some 1))]

theorem plugin_faults_writes : ∃ c, (@plugin .listed 1).moves
      { state := { currentState := 0, nextState := 0, io := .fresh } } poweredOn = .ok c ∧
    (@plugin .listed 1).step c (Act.functions (.enter writesTwice .currentStateChanged)) = .error .assertion ∧
    (Stop.assertion = .impossible ∨ writesTwice.apply c.state = .error .assertion) := by
  refine ⟨_, rfl, rfl, ?_⟩
  exact @plugin_faults .listed 1 ⟨some 3, true⟩ 0 0 .assertion { currentState := 0, nextState := 0, io := .fresh } poweredOn _
    (Act.functions (.enter writesTwice .currentStateChanged)) rfl (by decide) rfl (by decide) rfl

end Pn54x
