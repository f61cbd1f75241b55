import Pn54x.Adapter.PowerOff
import Pn54x.Library.Monitor

/-! Power is needed or libncicore is busy: then the adapter leaves it on. -/
namespace Pn54x
open Reentrant Transition Monitor

/-- The calls by which a request for power is carried out. -/
def Outside.Serving : Outside → Bool
  | .setStateIdle .submitOn | .restart => true
  | _ => false

/-- The calls of `SUPER_CLASS`. -/
def Outside.Super : Outside → Bool
  | .currentStateChanged | .nextStateChanged => true
  | _ => false

def Method.Callback : Method → Bool
  | .currentStateChanged | .nextStateChanged => true
  | _ => false

def Method.Submit : Method → Bool
  | .submitPowerRequest _ => true
  | _ => false

/-- What may be entered, given the pending calls: libncicore only calls back, and from
a notification nfcd only submits requests. -/
def Nested : List Outside → Method → Bool
  | [], _ => true
  | .powerNotify _ _ _ :: _, h => h.Submit
  | _, h => h.Callback

/-- While a request for power is carried out, only superclass calls are made, and power
is needed and on. -/
structure Serves (ks : List Outside) (s : Adapter) : Prop where
  above : ks.Pairwise fun k below => below.Serving = true → k.Super = true
  served : ∀ k ∈ ks, k.Serving = true → s.needPower = true ∧ s.powerOn = true

theorem Serves.nil (s : Adapter) : Serves [] s := ⟨.nil, nofun⟩

theorem Serves.pop {k : Outside} {s : Adapter} (serves : Serves (k :: ks) s) : Serves ks s :=
  ⟨serves.above.of_cons, fun k member => serves.served k (.tail _ member)⟩

theorem Serves.push {s : Adapter} (serves : Serves ks s) {k : Outside}
    (calm : k.Super = true ∨ ∀ below ∈ ks, below.Serving = false)
    (serving : k.Serving = true → s.needPower = true ∧ s.powerOn = true) : Serves (k :: ks) s := by
  constructor
  · refine .cons (fun below member works => ?_) serves.above
    cases calm with
    | inl super => exact super
    | inr none =>
      rw [none below member] at works
      contradiction
  · rintro k' (_ | ⟨_, member⟩)
    · exact serving
    · exact serves.served k' member

/-- Where no request for power is being carried out, nothing is claimed of the state. -/
theorem Serves.free {s : Adapter} (serves : Serves ks s) (none : ∀ k ∈ ks, k.Serving = false) (s' : Adapter) :
    Serves ks s' := by
  refine ⟨serves.above, fun k member works => ?_⟩
  rw [none k member] at works
  contradiction

/-- Anything but a superclass call is made where no request for power is being carried out. -/
theorem Serves.calm {s : Adapter} {k : Outside} (serves : Serves (k :: ks) s) (other : k.Super = false) :
    ∀ below ∈ ks, below.Serving = false := by
  intro below member
  cases works : below.Serving with
  | false => rfl
  | true =>
    have super := List.rel_of_pairwise_cons serves.above member works
    rw [other] at super
    contradiction

/-- A request is submitted only where no request for power is being carried out. -/
theorem Serves.submitted {s : Adapter} (serves : Serves ks s) {h : Method} (entered : Nested ks h = true)
    (other : h.Callback = false) : ∀ k ∈ ks, k.Serving = false := by
  intro k member
  cases ks with
  | nil => simp at member
  | cons top below =>
    cases top with
    | powerNotify site on requested =>
      rcases List.mem_cons.mp member with rfl | member
      · rfl
      · exact serves.calm rfl k member
    | _ =>
      change h.Callback = true at entered
      rw [other] at entered
      contradiction

/-- Where power is not needed nobody has been promised any. -/
theorem Serves.unneeded {s : Adapter} (serves : Serves ks s) (idle : s.needPower = false) :
    ∀ k ∈ ks, k.Serving = false := by
  intro k member
  cases works : k.Serving with
  | false => rfl
  | true =>
    have needed := (serves.served k member works).1
    rw [idle] at needed
    contradiction

/-- An accepted request for power stands until power is asked to be off. -/
def accepts : Bool → Label Deed Outside Method (Option Bool) × Adapter → Bool
  | _, (.called (.powerNotify _ true _), _) => true
  | _, (.entered (.submitPowerRequest false), _) => false
  | accepted, _ => accepted

/-- Turning power off, but for the error reset. -/
def Deed.TurnsOff : Deed → Bool
  | .setPower .reset _ _ => false
  | .setPower _ on _ => !on
  | .powerOn _ => false

section
variable [NciStates]

/-- Power is turned off although a request for it stands, it is needed or libncicore is
above IDLE. -/
def cuts : Bool → Label Deed Outside Method (Option Bool) × Adapter → Bool
  | accepted, (.did deed, s) =>
    deed.TurnsOff && (accepted || s.needPower || NciStates.idle < s.currentState)
  | _, _ => false

/-- Power is never cut under a live user. -/
def Guarded (tr : History) : Prop := Never accepts cuts false tr

instance : DecidablePred Guarded := fun _ => inferInstanceAs (Decidable (Never _ _ _ _))

/-- The world around the adapter, and a condition on it: while the adapter makes sure that it
may turn power off, libncicore stays at IDLE or below and nobody asks for power. -/
def Guarding (ks : List Outside) (_ : Adapter) : Act Method Change → Bool
  | .enter w h => Nested ks h && (ks.all (!·.Closing) ||
      h ≠ .submitPowerRequest true && w.currentState ≤ NciStates.idle)
  | .leave w => ks.all (!·.Closing) || w.currentState ≤ NciStates.idle

/-- What holds wherever the adapter is entered or calls. -/
structure Guards (ks : List Outside) (s : Adapter) (tr : History) : Prop where
  serves : Serves ks s
  closing : ∀ k ∈ ks, k.Closing = true → s.needPower = false ∧ s.currentState ≤ NciStates.idle
  accepted : after accepts false tr = true → s.needPower = true ∧ s.powerOn = true
  guarded : Guarded tr

theorem Guards.pop {k : Outside} {s : Adapter} {tr : History} (guards : Guards (k :: ks) s tr) :
    Guards ks s tr :=
  ⟨guards.serves.pop, fun k member => guards.closing k (.tail _ member), guards.accepted, guards.guarded⟩

/-- The states of libncicore and what is pending at the HAL may change where no call
depends on them. -/
theorem Guards.adjust {s s' : Adapter} {tr : History} (guards : Guards ks s tr)
    (need : s'.needPower = s.needPower) (on : s'.powerOn = s.powerOn)
    (idle : ∀ k ∈ ks, k.Closing = true → s'.currentState ≤ NciStates.idle) : Guards ks s' tr := by
  constructor
  · constructor
    · exact guards.serves.above
    · rw [need, on]
      exact guards.serves.served
  · intro k member closing
    rw [need]
    exact ⟨(guards.closing k member closing).1, idle k member closing⟩
  · rw [need, on]
    exact guards.accepted
  · exact guards.guarded

/-- An event that cuts no power and accepts no request. -/
theorem Guards.record {s : Adapter} {tr : History} (guards : Guards ks s tr)
    {l : Label Deed Outside Method (Option Bool)} {s' : Adapter}
    (keeps : accepts (after accepts false tr) (l, s') = true → after accepts false tr = true)
    (harmless : cuts (after accepts false tr) (l, s') = false) : Guards ks s (tr ++ [(l, s')]) := by
  refine ⟨guards.serves, guards.closing, ?_, never_snoc.mpr ⟨guards.guarded, harmless⟩⟩
  rw [after_append]
  exact fun accepted => guards.accepted (keeps accepted)

theorem Guards.entered {s : Adapter} {tr : History} (guards : Guards ks s tr) (h : Method) :
    Guards ks s (tr ++ [(.entered h, s)]) := by
  refine guards.record (fun accepted => ?_) rfl
  cases h with
  | submitPowerRequest on =>
    cases on with
    | true => exact accepted
    | false => contradiction
  | _ => exact accepted

theorem Guards.returned {s : Adapter} {tr : History} (guards : Guards ks s tr) (h : Method) (a : Option Bool) :
    Guards ks s (tr ++ [(.returned h a, s)]) := guards.record (fun same => same) rfl

theorem Guards.did {s : Adapter} {tr : History} (guards : Guards ks s tr) {deed : Deed}
    (harmless : deed.TurnsOff = false) (s' : Adapter) : Guards ks s (tr ++ [(.did deed, s')]) := by
  refine guards.record (fun same => same) ?_
  rw [cuts, harmless, Bool.false_and]

/-- A call that promises no power. -/
theorem Guards.push {s : Adapter} {tr : History} (guards : Guards ks s tr) {k : Outside}
    (calm : k.Super = true ∨ ∀ below ∈ ks, below.Serving = false)
    (serving : k.Serving = true → s.needPower = true ∧ s.powerOn = true)
    (closing : k.Closing = true → s.needPower = false ∧ s.currentState ≤ NciStates.idle)
    (other : ∀ site requested, k ≠ .powerNotify site true requested) :
    Guards (k :: ks) s (tr ++ [(.called k, s)]) := by
  have recorded : Guards ks s (tr ++ [(.called k, s)]) := by
    refine guards.record (fun accepted => ?_) rfl
    cases k with
    | powerNotify site on requested =>
      cases on with
      | true => exact absurd rfl (other site requested)
      | false => exact accepted
    | _ => exact accepted
  refine ⟨recorded.serves.push calm serving, ?_, recorded.accepted, recorded.guarded⟩
  rintro k' (_ | ⟨_, member⟩)
  · exact closing
  · exact recorded.closing k' member

theorem Guards.super {s : Adapter} {tr : History} (guards : Guards ks s tr) {k : Outside}
    (super : k.Super = true) : Guards (k :: ks) s (tr ++ [(.called k, s)]) := by
  cases k with
  | currentStateChanged | nextStateChanged => exact guards.push (.inl rfl) nofun nofun (by simp)
  | _ => contradiction

/-- A request for power is answered once it has been carried out. -/
theorem Guards.answer {s : Adapter} {tr : History} {k : Outside} (guards : Guards (k :: ks) s tr)
    (none : ∀ k ∈ ks, k.Serving = false) (serving : k.Serving = true) :
    Guards (.powerNotify .submitOn true true :: ks) s (tr ++ [(.called (.powerNotify .submitOn true true), s)]) := by
  constructor
  · exact guards.serves.pop.push (.inr none) nofun
  · rintro k' (_ | ⟨_, member⟩)
    · exact nofun
    · exact guards.closing k' (.tail _ member)
  · exact fun _ => guards.serves.served k (.head _) serving
  · exact never_snoc.mpr ⟨guards.guarded, rfl⟩

/-- Power is turned off where it is not needed and libncicore is idle. -/
theorem Guards.off {s : Adapter} {tr : History} (guards : Guards ks s tr) {site : Site} (need : s.needPower = false)
    (idle : s.currentState ≤ NciStates.idle) (requested pending : Bool) (env : PowerEnv) (io : Sys) :
    let after := { s with powerOn := false, powerSwitchPending := pending, io }
    Guards (.powerNotify site false requested :: ks) after (tr ++ offTrace site requested env s io after) := by
  intro s'
  have free : after accepts false tr = false := by
    cases standing : after accepts false tr with
    | false => rfl
    | true => exact absurd (guards.accepted standing).1 (by simp [need])
  have none := guards.serves.unneeded need
  constructor
  · exact (guards.serves.free none s').push (.inr none) nofun
  · rintro k (_ | ⟨_, member⟩)
    · exact nofun
    · exact guards.closing k member
  · rw [after_append, free]
    exact nofun
  · refine never_append.mpr ⟨guards.guarded, ?_⟩
    rw [free]
    refine ⟨?_, rfl, rfl, trivial⟩
    simpa [cuts, need] using fun _ => idle

theorem stateCheck_guards {s : Adapter} {tr : History} {Q : Unit → Adapter → History → Prop}
    (guards : Guards ks s tr) (finish : ∀ s tr, Guards ks s tr → Q () s tr) :
    nfcAdapterStateCheck.Meets (fun _ _ => True) (fun k => Guards (k :: ks)) Q s tr := by
  apply stateCheck_meets
  · exact fun _ => finish s tr guards
  · intro _ need idle
    exact guards.push (.inr (guards.serves.unneeded need)) nofun
      (fun _ => ⟨need, Int.le_of_eq idle⟩) (by simp)
  · intro s' tr' before env ok io _ _ _
    rcases before with ⟨rfl, rfl, _, need, below⟩ | closed
    · exact guards.off need (Int.le_of_lt below) _ _ env io
    · obtain ⟨need, idle⟩ := closed.closing _ (.head _) rfl
      exact closed.pop.off need idle _ _ env io
  · exact fun _ s tr now => finish s tr now.pop

/-- A request for power, where none is being carried out and no power about to be
turned off. -/
theorem submitOn_guards {s : Adapter} {tr : History} {Q : Bool → Adapter → History → Prop}
    (guards : Guards ks s tr) (none : ∀ k ∈ ks, k.Serving = false) (open' : ∀ k ∈ ks, k.Closing = false)
    (finish : ∀ pending s tr, Guards ks s tr → Q pending s tr) :
    (nfcAdapterSubmitPowerRequest true).Meets (fun _ _ => True) (fun k => Guards (k :: ks)) Q s tr := by
  have asked (io : Sys) (on : Bool) (kept : s.powerOn = true → on = true) :
      Guards ks { s with needPower := true, powerOn := on, io } tr := by
    constructor
    · exact guards.serves.free none _
    · intro k member closing
      rw [open' k member] at closing
      contradiction
    · exact fun accepted => ⟨rfl, kept (guards.accepted accepted).2⟩
    · exact guards.guarded
  apply submitOn_meets
  · intro _ on
    exact (asked s.io s.powerOn fun on => on).push (.inr none) (fun _ => ⟨rfl, on⟩) nofun (by simp)
  · intro _ _ request env io _ _ _ after
    have switched : Guards ks after (tr ++ [(.did (.setPower .submitOn true env), request)] ++
        [(.did (.powerOn true), { request with io })]) := ((asked io true fun _ => rfl).did rfl _).did rfl _
    have restarts := switched.push (k := .restart) (.inr none) (fun _ => ⟨rfl, rfl⟩) nofun (by simp)
    simpa only [List.append_assoc, List.cons_append, List.nil_append] using restarts
  · intro _ off _ env io _ _
    exact finish false _ _ ((asked io s.powerOn fun on => on).did rfl _)
  · rintro s tr (now | now) <;> exact now.answer none rfl
  · exact fun s tr now => finish s.powerSwitchPending s tr now.pop

theorem submitOff_guards {s : Adapter} {tr : History} {Q : Bool → Adapter → History → Prop}
    (guards : Guards ks s tr) (none : ∀ k ∈ ks, k.Serving = false) (settled : after accepts false tr = false)
    (finish : ∀ pending s tr, Guards ks s tr → Q pending s tr) :
    (nfcAdapterSubmitPowerRequest false).Meets (fun _ _ => True) (fun k => Guards (k :: ks)) Q s tr := by
  have asked : Guards ks { s with needPower := false } tr := by
    constructor
    · exact guards.serves.free none _
    · exact fun k member closing => ⟨rfl, (guards.closing k member closing).2⟩
    · rw [settled]
      exact nofun
    · exact guards.guarded
  apply submitOff_meets
  · intro _ _ _
    exact asked.push (.inr none) nofun nofun (by simp)
  · intro _ _ idle _
    exact asked.push (.inr none) nofun (fun _ => ⟨rfl, Int.le_of_eq idle⟩) (by simp)
  · intro s' tr' before env ok io _ _ _
    rcases before with ⟨rfl, rfl, _, _, below⟩ | closed
    · exact asked.off rfl (Int.le_of_lt below) true _ env io
    · obtain ⟨need, idle⟩ := closed.closing _ (.head _) rfl
      exact closed.pop.off need idle true _ env io
  · exact fun s tr now => finish s.powerSwitchPending s tr now.pop
  · intro _ _ _ _
    exact asked.push (.inr none) nofun nofun (by simp)
  · intro s tr now _
    exact finish _ _ _ (now.pop.adjust rfl rfl fun k member closing => (now.pop.closing k member closing).2)

theorem adapter_guards : Stable adapter Guarding (fun _ _ => True) Guards := by
  constructor
  · intro ks s s' tr w h before ruled changed
    obtain ⟨io, _, _, rfl⟩ := change_ok changed
    simp only [Guarding, Bool.and_eq_true, Bool.or_eq_true, List.all_eq_true, Bool.not_eq_true',
      decide_eq_true_eq] at ruled
    obtain ⟨nested, calm⟩ := ruled
    have now : Guards ks { s with currentState := w.currentState, nextState := w.nextState, io } tr := by
      refine before.adjust rfl rfl fun k member closing => ?_
      rcases calm with none | ⟨_, idle⟩
      · rw [none k member] at closing
        contradiction
      · exact idle
    have entered := now.entered h
    have finish (h : Method) (a : Option Bool) (s : Adapter) (tr : History) (guards : Guards ks s tr) :
        Guards ks s (tr ++ [(.returned h a, s)]) := guards.returned h a
    cases h with
    | currentStateChanged =>
      rw [meets_currentStateChanged]
      apply currentStateChanged_meets
      · exact entered.super rfl
      · exact fun s tr now => stateCheck_guards now.pop (finish _ _)
    | nextStateChanged =>
      rw [meets_nextStateChanged]
      apply nextStateChanged_meets
      · exact entered.super rfl
      · intro s tr now _ _ env ok io _ _ env' ok' io' _ _
        refine stateCheck_guards ?_ (finish _ _)
        have reset : Guards ks s (tr ++ [(.did (.setPower .reset false env), s)] ++
            [(.did (.setPower .reset true env'), { s with io })]) := (now.pop.did rfl _).did rfl _
        have switched : Guards ks { s with io := io' } _ :=
          reset.adjust rfl rfl fun k member closing => (reset.closing k member closing).2
        simpa only [resetTrace, List.append_assoc, List.cons_append, List.nil_append] using switched
      · exact fun s tr now => stateCheck_guards now.pop (finish _ _)
    | submitPowerRequest on =>
      rw [meets_submitPowerRequest]
      have none := before.serves.submitted nested rfl
      cases on with
      | true =>
        have open' : ∀ k ∈ ks, k.Closing = false := by
          rcases calm with none | ⟨other, _⟩
          · exact none
          · exact absurd rfl other
        exact submitOn_guards entered none open' fun pending => finish _ _
      | false =>
        refine submitOff_guards entered none ?_ fun pending => finish _ _
        rw [after_append]
        rfl
    | cancelPowerRequest =>
      rw [meets_cancelPowerRequest]
      obtain rfl : ks = [] := by
        cases ks with
        | nil => rfl
        | cons k ks => cases k <;> exact absurd nested Bool.false_ne_true
      refine finish _ _ _ _ ⟨.nil _, by simp, fun accepted => ?_, entered.guarded⟩
      have on := (entered.accepted accepted).2
      exact ⟨on, on⟩
  · intro k ks s s' tr w before ruled changed
    obtain ⟨io, _, _, rfl⟩ := change_ok changed
    simp only [Guarding, Bool.or_eq_true, List.all_eq_true, Bool.not_eq_true', decide_eq_true_eq] at ruled
    refine before.adjust rfl rfl fun k member closing => ?_
    cases ruled with
    | inl none =>
      rw [none k member] at closing
      contradiction
    | inr idle => exact idle

/-- Nobody asks for power while the adapter makes sure that it may turn it off: then it
does so only where power is not needed, and never after accepting a request for it. -/
theorem power_guarded {self : Adapter} {path : List Turn} {c : Situation}
    (ruled : adapter.Under Guarding { state := self } path)
    (ran : adapter.moves { state := self } path = .ok c) : Guarded c.trace := by
  have initial : Guards [] self [] := ⟨.nil self, nofun, nofun, trivial⟩
  exact (adapter_guards.run initial ruled ran fun _ _ _ => trivial).guarded

/-- Told to stay idle, libncicore may call back to say that it does, and told that power
is off, nfcd may ask for it again. -/
def Renewing (ks : List Outside) (s : Adapter) : Act Method Change → Bool
  | .enter w h =>
    match ks with
    | .powerNotify _ _ _ :: _ => h.Submit && !s.powerSwitchPending &&
        w.currentState = s.currentState && w.nextState = s.nextState
    | _ => Cancelling ks s (.enter w h)
  | .leave w => Cancelling ks s (.leave w)

end

/-- Power is turned off with a callback from `nci_core_set_state`, up to the notification. -/
def offInCallback : List Turn :=
  onAndOff ++ [.enter ⟨3, 3, []⟩ .nextStateChanged, .leave ⟨3, 3, []⟩, .leave ⟨3, 3, []⟩].map Act.works

theorem power_guarded_callback : ∃ c, (@adapter .listed).moves
      { state := { currentState := 0, nextState := 0, io := .fresh } }
      (offInCallback ++ [.enter ⟨3, 3, []⟩ (.submitPowerRequest false), .leave ⟨3, 3, []⟩,
        .leave ⟨3, 3, []⟩, .leave ⟨3, 3, []⟩].map Act.works) = .ok c ∧ @Guarded .listed c.trace := by
  refine ⟨_, rfl, @power_guarded .listed { currentState := 0, nextState := 0, io := .fresh }
    (offInCallback ++ [.enter ⟨3, 3, []⟩ (.submitPowerRequest false), .leave ⟨3, 3, []⟩,
        .leave ⟨3, 3, []⟩, .leave ⟨3, 3, []⟩].map Act.works) _ (by decide) rfl⟩

/-- Told that power is off, nfcd asks for it again, gets it, and loses it when the
first handler goes on. -/
theorem power_cut : ¬ ∀ (_ : NciStates) (env : PowerEnv) (currentState nextState : Int)
    (self : Adapter) (path : List Turn) (c : Situation),
    nfcAdapterNew env currentState nextState = .ok (some self) →
    adapter.Under Renewing { state := self } path →
    adapter.moves { state := self } path = .ok c → Guarded c.trace := by
  intro all
  have guarded := all .listed ⟨some 3, true⟩ 0 0 { currentState := 0, nextState := 0, io := .fresh }
    (offInCallback ++ [.enter ⟨3, 3, []⟩ (.submitPowerRequest true), .leave ⟨3, 3, []⟩,
      .leave ⟨3, 3, []⟩, .leave ⟨3, 3, []⟩, .leave ⟨3, 3, []⟩].map Act.works) _ rfl (by decide) rfl
  revert guarded
  decide

end Pn54x
