import Pn54x.Adapter.Replies

/-! Power that nobody needs is turned off once libncicore is idle. The handlers that turn it
off do so after calls in which the adapter may be entered again. -/
namespace Pn54x
open Reentrant Transition Monitor

/-- A check of the state follows the call, or power is turned off. -/
def Outside.Settling (k : Outside) : Bool := k.Super || k.Closing

/-- libncicore reports every change of its current state. -/
def Reported (s : Adapter) : Act Method Change → Bool
  | .enter w h => h = .currentStateChanged || w.currentState = s.currentState
  | .leave w => w.currentState = s.currentState

def Attending (ks : List Outside) (s : Adapter) (act : Act Method Change) : Bool :=
  Serial ks s act && Reported s act

/-- Power is not needed while a request for no power waits. -/
def Heeds (ks : List Outside) (s : Adapter) : Prop :=
  s.powerSwitchPending = true ∨ .setStateIdle .submitWait ∈ ks → s.needPower = false

theorem Heeds.push {s : Adapter} (heeds : Heeds ks s) {k : Outside} (other : k ≠ .setStateIdle .submitWait) :
    Heeds (k :: ks) s := by
  rintro (pending | member)
  · exact heeds (.inl pending)
  · cases member with
    | head => contradiction
    | tail _ member => exact heeds (.inr member)

theorem Heeds.pop {k : Outside} {s : Adapter} (heeds : Heeds (k :: ks) s) : Heeds ks s :=
  fun waits => heeds (waits.imp_right (.tail _))

section
variable [NciStates]

/-- Power stays on because it is needed or libncicore is busy, or until somebody has checked. -/
structure Settles (ks : List Outside) (s : Adapter) : Prop where
  reason : s.powerOn = true → s.needPower = true ∨ NciStates.idle < s.currentState ∨ ∃ k ∈ ks, k.Settling = true
  heeds : Heeds ks s

theorem Settles.pop {k : Outside} {s : Adapter} (settles : Settles (k :: ks) s) (other : k.Settling = false) :
    Settles ks s := by
  constructor
  · intro on
    rcases settles.reason on with need | above | ⟨k', member, checks⟩
    · exact .inl need
    · exact .inr (.inl above)
    · cases member with
      | head =>
        rw [other] at checks
        contradiction
      | tail _ member => exact .inr (.inr ⟨k', member, checks⟩)
  · exact settles.heeds.pop

theorem Settles.push {s : Adapter} (settles : Settles ks s) {k : Outside} (other : k ≠ .setStateIdle .submitWait) :
    Settles (k :: ks) s := by
  constructor
  · intro on
    rcases settles.reason on with need | above | ⟨k', member, checks⟩
    · exact .inl need
    · exact .inr (.inl above)
    · exact .inr (.inr ⟨k', .tail _ member, checks⟩)
  · exact settles.heeds.push other

/-- Before a check power may be on for no reason. -/
theorem settles_checking {k : Outside} (checks : k.Settling = true) {s : Adapter} (heeds : Heeds ks s) :
    Settles (k :: ks) s := by
  constructor
  · exact fun _ => .inr (.inr ⟨k, .head _, checks⟩)
  · apply heeds.push
    rintro rfl
    contradiction

theorem settles_off {s : Adapter} (off : s.powerOn = false) (heeds : Heeds ks s) : Settles ks s := by
  refine ⟨fun on => ?_, heeds⟩
  rw [off] at on
  contradiction

theorem settles_needed {s : Adapter} (need : s.needPower = true) (idle : s.powerSwitchPending = false)
    (free : .setStateIdle .submitWait ∉ ks) : Settles ks s := by
  refine ⟨fun _ => .inl need, ?_⟩
  rintro (pending | member)
  · rw [idle] at pending
    contradiction
  · exact absurd member free

/-- A request for no power needs none, whatever else waits. -/
theorem settles_unneeded {s : Adapter} (need : s.needPower = false)
    (reason : s.powerOn = true → NciStates.idle < s.currentState ∨ ∃ k ∈ ks, k.Settling = true) : Settles ks s :=
  ⟨fun on => .inr (reason on), fun _ => need⟩

/-- The check leaves power on for a reason of its own. -/
theorem stateCheck_settles {s : Adapter} {tr : History} {Q : Unit → Adapter → History → Prop}
    (heeds : Heeds ks s) (finish : ∀ s tr, Settles ks s → Q () s tr) :
    nfcAdapterStateCheck.Meets (fun _ _ => True) (fun k s _ => Settles (k :: ks) s) Q s tr := by
  apply stateCheck_meets
  · intro above
    apply finish
    refine ⟨fun on => ?_, heeds⟩
    cases need : s.needPower with
    | true => exact .inl rfl
    | false => exact .inr (.inl (above on need))
  · exact fun _ _ _ => settles_checking rfl heeds
  · intro s' tr' before env ok io _ _ _ after
    have heeds' : Heeds ks s' := by
      rcases before with ⟨rfl, _⟩ | closed
      · exact heeds
      · exact closed.heeds.pop
    have off : Settles ks after := settles_off rfl fun waits => heeds' (.inr (waits.resolve_left (by simp [after])))
    exact off.push (by simp)
  · exact fun _ s tr now => finish s tr (now.pop rfl)

theorem submitOn_settles {s : Adapter} {tr : History} {Q : Bool → Adapter → History → Prop}
    (free : .setStateIdle .submitWait ∉ ks) (finish : ∀ pending s tr, Settles ks s → Q pending s tr) :
    (nfcAdapterSubmitPowerRequest true).Meets (fun _ _ => True) (fun k s _ => Settles (k :: ks) s) Q s tr := by
  apply submitOn_meets
  · intro idle _ asked
    have needed : Settles ks asked := settles_needed rfl idle free
    exact needed.push (by simp)
  · intro idle _ asked env io _ _ _ after
    have needed : Settles ks after := settles_needed rfl idle free
    exact needed.push (by simp)
  · intro idle _ asked env io _ _
    exact finish _ _ _ (settles_needed rfl idle free)
  · rintro s tr (now | now)
    · exact (now.pop rfl).push (by simp)
    · exact (now.pop rfl).push (by simp)
  · exact fun s tr now => finish _ s tr (now.pop rfl)

/-- A request for no power waits only while libncicore is busy. -/
theorem submitOff_settles {s : Adapter} {tr : History} {Q : Bool → Adapter → History → Prop}
    (finish : ∀ pending s tr, Settles ks s → Q pending s tr) :
    (nfcAdapterSubmitPowerRequest false).Meets (fun _ _ => True) (fun k s _ => Settles (k :: ks) s) Q s tr := by
  apply submitOff_meets
  · intro _ off asked
    apply settles_unneeded rfl
    intro on
    exact absurd (off.symm.trans on) (by simp)
  · exact fun _ _ _ => settles_unneeded rfl fun _ => .inr ⟨_, .head _, rfl⟩
  · intro s' tr' before env ok io _ _ _ after
    have heeds : Heeds ks s' := by
      rcases before with ⟨rfl, _⟩ | closed
      · exact fun _ => rfl
      · exact closed.heeds.pop
    have off : Settles ks after := settles_off rfl heeds
    exact off.push (by simp)
  · exact fun s tr now => finish _ s tr (now.pop rfl)
  · exact fun _ _ above => settles_unneeded rfl fun _ => .inl above
  · intro s tr now pending
    have unneeded : s.needPower = false := now.heeds (.inr (.head _))
    exact finish _ _ tr ⟨(now.pop rfl).reason, fun _ => unneeded⟩

theorem adapter_settles : Stable adapter Attending (fun _ _ => True) (fun ks s _ => Settles ks s) := by
  constructor
  · intro ks s s' tr w h before ruled changed
    obtain ⟨io, _, _, rfl⟩ := change_ok changed
    obtain ⟨serial, _⟩ := Bool.and_eq_true_iff.mp ruled
    have finish (s : Adapter) (_ : History) (settles : Settles ks s) : Settles ks s := settles
    have free (other : h.Callback = false) : .setStateIdle .submitWait ∉ ks := by
      intro member
      simp only [Serial, other, Bool.false_or, List.all_eq_true] at serial
      exact absurd (serial _ member) (by simp [Outside.request])
    cases h with
    | currentStateChanged =>
      rw [meets_currentStateChanged]
      apply currentStateChanged_meets
      · exact settles_checking rfl before.heeds
      · exact fun _ _ now => stateCheck_settles now.heeds.pop finish
    | nextStateChanged =>
      rw [meets_nextStateChanged]
      apply nextStateChanged_meets
      · exact settles_checking rfl before.heeds
      · exact fun s tr now _ _ _ _ _ _ _ _ _ _ _ _ => stateCheck_settles now.heeds.pop finish
      · exact fun _ _ now => stateCheck_settles now.heeds.pop finish
    | submitPowerRequest on =>
      rw [meets_submitPowerRequest]
      cases on with
      | true => exact submitOn_settles (free rfl) fun _ => finish
      | false => exact submitOff_settles fun _ => finish
    | cancelPowerRequest =>
      rw [meets_cancelPowerRequest]
      refine ⟨fun on => .inl on, fun waits => ?_⟩
      exact absurd (waits.resolve_left (by simp)) (free rfl)
  · intro k ks s s' tr w before ruled changed
    obtain ⟨io, _, _, rfl⟩ := change_ok changed
    obtain ⟨_, reported⟩ := Bool.and_eq_true_iff.mp ruled
    have same : w.currentState = s.currentState := of_decide_eq_true reported
    refine ⟨fun on => ?_, before.heeds⟩
    rw [same]
    exact before.reason on

/-- As long as libncicore reports where it is, power that is on between the calls of the adapter
is needed, and nobody waits for it to be off, or libncicore is above IDLE. -/
theorem power_settles {self : Adapter} {path : List Turn} {c : Situation}
    (created : nfcAdapterNew env currentState nextState = .ok (some self))
    (attending : adapter.Under Attending { state := self } path)
    (ran : adapter.moves { state := self } path = .ok c) (returned : c.calls = []) (on : c.state.powerOn = true) :
    c.state.needPower = true ∧ after asks none c.trace = none ∨ NciStates.idle < c.state.currentState := by
  obtain ⟨idle, off⟩ := nfcAdapterNew_ok created
  have initial : Settles [] self := settles_off off (by simp [Heeds, idle])
  have settles := adapter_settles.run initial attending ran fun _ _ _ => trivial
  have serial : adapter.Under Serial { state := self } path :=
    along_mono (fun admitted => (Bool.and_eq_true_iff.mp admitted).1) attending
  have replies := adapter_replies.run (replies_initial idle) serial ran fun _ _ _ => trivial
  rw [returned] at settles replies
  rcases settles.reason on with need | above | ⟨_, member, _⟩
  · left
    have answered : c.state.powerSwitchPending = false := by
      cases pending : c.state.powerSwitchPending with
      | false => rfl
      | true => exact absurd (need.symm.trans (settles.heeds (.inl pending))) (by simp)
    refine ⟨need, ?_⟩
    rw [replies.quiet, answered]
    rfl
  · exact .inr above
  · contradiction

end

theorem power_settles_waiting : ∃ c, (@adapter .listed).moves
      { state := { currentState := 0, nextState := 0, io := .fresh } }
      ([.enter ⟨0, 0, []⟩ (.submitPowerRequest true), .leave ⟨0, 0, []⟩, .leave ⟨0, 0, []⟩,
        .enter ⟨4, 4, []⟩ .currentStateChanged, .leave ⟨4, 4, []⟩,
        .enter ⟨4, 4, []⟩ (.submitPowerRequest false), .leave ⟨4, 3, []⟩].map Act.works) = .ok c ∧
      (c.state.needPower = true ∧ after asks none c.trace = none ∨ 3 < c.state.currentState) := by
  refine ⟨_, rfl, ?_⟩
  exact @power_settles .listed ⟨some 3, true⟩ 0 0 { currentState := 0, nextState := 0, io := .fresh }
    ([.enter ⟨0, 0, []⟩ (.submitPowerRequest true), .leave ⟨0, 0, []⟩, .leave ⟨0, 0, []⟩,
      .enter ⟨4, 4, []⟩ .currentStateChanged, .leave ⟨4, 4, []⟩,
      .enter ⟨4, 4, []⟩ (.submitPowerRequest false), .leave ⟨4, 3, []⟩].map Act.works) _ rfl (by decide) rfl rfl rfl

end Pn54x
