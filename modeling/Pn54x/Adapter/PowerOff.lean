import Pn54x.Adapter.Steps
import Pn54x.Io.Sessions

/-! How often the adapter turns power off and says so. -/
namespace Pn54x
open Reentrant Transition

/-- The call that `pn54x_nfc_adapter_can_power_off` makes before power is turned off. -/
def Outside.Closing : Outside → Bool
  | .setStateIdle .stateCheck | .setStateIdle .submitOff => true
  | _ => false

/-- What concerns turning power off, outside the error reset. -/
inductive Off where
  /-- `pn54x_io_set_power(FALSE)`, and the value of `power_on` then. -/
  | switched (powerOn : Bool)
  /-- `power_on = FALSE`, and the value that it had. -/
  | cleared (powerOn : Bool)
  /-- `nfc_adapter_power_notify(FALSE, requested)`. -/
  | notified (requested : Bool)
  /-- An off request is submitted while power is off. -/
  | asked
  deriving DecidableEq, Repr

def Off.of : Label Deed Outside Method (Option Bool) × Adapter → Option Off
  | (.did (.setPower .reset false _), _) => none
  | (.did (.setPower _ false _), s) => some (.switched s.powerOn)
  | (.did (.powerOn false), s) => some (.cleared s.powerOn)
  | (.called (.powerNotify _ false requested), _) => some (.notified requested)
  | (.entered (.submitPowerRequest false), s) => if s.powerOn then none else some .asked
  | _ => none

def offs (tr : History) : List Off := tr.filterMap Off.of

/-- Power is turned off and `power_on` cleared together, each time with one
notification; a request for what is the case already is answered at once. -/
inductive Paired : List Off → Prop where
  | nil : Paired []
  | off (requested : Bool) : Paired l →
      Paired (l ++ [.switched true, .cleared true, .notified requested])
  | already : Paired l → Paired (l ++ [.asked, .notified true])

/-- Nothing is entered while `pn54x_nfc_adapter_can_power_off` waits for libncicore. -/
def Unentered (ks : List Outside) (_ : Adapter) : Act Method Change → Bool
  | .enter _ _ => ks.all fun k => !k.Closing
  | .leave _ => true

/-- Only the innermost call may be about to turn power off, and then power is on. -/
structure Closes (ks : List Outside) (s : Adapter) (tr : History) : Prop where
  outer : ∀ k ∈ ks.tail, k.Closing = false
  powerOn : ∀ k, ks.head? = some k → k.Closing = true → s.powerOn = true
  paired : Paired (offs tr)

theorem offs_append (tr tr' : History) : offs (tr ++ tr') = offs tr ++ offs tr' :=
  List.filterMap_append ..

theorem offs_called {k : Outside} (s : Adapter) (tr : History) (other : ∀ site requested, k ≠ .powerNotify site false requested) :
    offs (tr ++ [(.called k, s)]) = offs tr := by
  have silent : offs [(.called k, s)] = [] := by
    cases k with
    | powerNotify site on requested =>
      cases on with
      | false => exact absurd rfl (other site requested)
      | true => rfl
    | _ => rfl
  rw [offs_append, silent, List.append_nil]

theorem offs_offTrace {site : Site} (outside : site ≠ .reset) (requested : Bool) (env : PowerEnv)
    {s : Adapter} (on : s.powerOn = true) (io : Sys) (s' : Adapter) :
    offs (offTrace site requested env s io s') = [.switched true, .cleared true, .notified requested] := by
  cases site with
  | reset => exact absurd rfl outside
  | _ => simp [offs, offTrace, Off.of, on]

/-- A call that does not precede turning power off is pending. -/
theorem Closes.push {ks : List Outside} {s : Adapter} {tr : History} {k : Outside}
    (none : ∀ k ∈ ks, k.Closing = false) (other : k.Closing = false) (paired : Paired (offs tr)) :
    Closes (k :: ks) s tr := by
  refine ⟨none, ?_, paired⟩
  rintro _ ⟨⟩ closing
  rw [other] at closing
  contradiction

theorem Closes.close {ks : List Outside} {s : Adapter} {tr : History} {k : Outside}
    (none : ∀ k ∈ ks, k.Closing = false) (on : s.powerOn = true) (paired : Paired (offs tr)) :
    Closes (k :: ks) s tr :=
  ⟨none, fun _ _ _ => on, paired⟩

/-- Entering a method is no event of its own, but for an off request while power is off. -/
theorem offs_entered {h : Method} {s : Adapter} (tr : History)
    (other : h = .submitPowerRequest false → s.powerOn = true) :
    offs (tr ++ [(.entered h, s)]) = offs tr := by
  have silent : offs [(.entered h, s)] = [] := by
    cases h with
    | submitPowerRequest on =>
      cases on with
      | false => simp [offs, Off.of, other rfl]
      | true => rfl
    | _ => rfl
  rw [offs_append, silent, List.append_nil]

theorem offs_returned (tr : History) (h : Method) (a : Option Bool) (s : Adapter) :
    offs (tr ++ [(.returned h a, s)]) = offs tr := by
  rw [offs_append]
  exact List.append_nil _

theorem Closes.returned {ks : List Outside} {s : Adapter} {tr : History} {h : Method} {a : Option Bool}
    (none : ∀ k ∈ ks, k.Closing = false) (paired : Paired (offs tr)) :
    Closes ks s (tr ++ [(.returned h a, s)]) := by
  refine ⟨fun k member => none k (List.mem_of_mem_tail member), ?_, by rwa [offs_returned]⟩
  intro k head closing
  rw [none k (List.mem_of_mem_head? head)] at closing
  contradiction

section
variable [NciStates]

theorem stateCheck_closes {ks : List Outside} {s : Adapter} {tr : History} {Q : Unit → Adapter → History → Prop}
    (none : ∀ k ∈ ks, k.Closing = false) (paired : Paired (offs tr))
    (finish : ∀ s tr, Paired (offs tr) → Q () s tr) :
    nfcAdapterStateCheck.Meets (fun _ _ => True) (fun k => Closes (k :: ks)) Q s tr := by
  apply stateCheck_meets
  · exact fun _ => finish s tr paired
  · intro on _ _
    refine .close none on ?_
    rwa [offs_called _ _ (by simp)]
  · intro s' tr' before env ok io _ power _ after
    have on : s'.powerOn = true ∧ Paired (offs tr') := by
      rcases before with ⟨rfl, rfl, on, _, _⟩ | closed
      · exact ⟨on, paired⟩
      · exact ⟨closed.powerOn _ rfl rfl, closed.paired⟩
    refine .push none rfl ?_
    rw [offs_append, offs_offTrace (by decide) _ _ on.1]
    exact .off _ on.2
  · exact fun _ s tr now => finish s tr now.paired

theorem adapter_closes : Stable adapter Unentered (fun _ _ => True) Closes := by
  constructor
  · intro ks s s' tr w h before entered changed
    have none : ∀ k ∈ ks, k.Closing = false := by simpa [Unentered] using entered
    have finish (s : Adapter) (tr : History) (a : Option Bool) (paired : Paired (offs tr)) :
        Closes ks s (tr ++ [(.returned h a, s)]) := .returned none paired
    have push {k : Outside} (s : Adapter) {tr : History} (other : ∀ site requested, k ≠ .powerNotify site false requested)
        (going : k.Closing = false) (paired : Paired (offs tr)) :
        Closes (k :: ks) s (tr ++ [(.called k, s)]) :=
      .push none going (by rwa [offs_called s tr other])
    cases h with
    | currentStateChanged =>
      have paired : Paired (offs (tr ++ [(.entered .currentStateChanged, s')])) := by
        rw [offs_entered tr (by simp)]
        exact before.paired
      rw [meets_currentStateChanged]
      apply currentStateChanged_meets
      · exact push s' (by simp) rfl paired
      · exact fun s tr now => stateCheck_closes none now.paired fun s tr => finish s tr _
    | nextStateChanged =>
      have paired : Paired (offs (tr ++ [(.entered .nextStateChanged, s')])) := by
        rw [offs_entered tr (by simp)]
        exact before.paired
      rw [meets_nextStateChanged]
      apply nextStateChanged_meets
      · exact push s' (by simp) rfl paired
      · intro s tr now _ _ env ok io _ _ env' ok' io' _ _
        refine stateCheck_closes none ?_ fun s tr => finish s tr _
        rw [offs_append]
        exact (List.append_nil (offs tr)).symm ▸ now.paired
      · exact fun s tr now => stateCheck_closes none now.paired fun s tr => finish s tr _
    | submitPowerRequest on =>
      rw [meets_submitPowerRequest]
      cases on with
      | true =>
        have paired : Paired (offs (tr ++ [(.entered (.submitPowerRequest true), s')])) := by
          rw [offs_entered tr (by simp)]
          exact before.paired
        apply submitOn_meets
        · exact fun _ _ => push _ (by simp) rfl paired
        · intro _ _ _ env io _ _ _ after
          refine .push none rfl ?_
          rw [offs_append]
          exact (List.append_nil (offs (tr ++ _))).symm ▸ paired
        · intro _ _ _ env io _ _
          refine finish _ _ _ ?_
          rw [offs_append]
          exact (List.append_nil (offs (tr ++ _))).symm ▸ paired
        · rintro s tr (now | now) <;> exact push s (by simp) rfl now.paired
        · exact fun s tr now => finish s tr _ now.paired
      | false =>
        have paired (on : s'.powerOn = true) :
            Paired (offs (tr ++ [(.entered (.submitPowerRequest false), s')])) := by
          rw [offs_entered tr (fun _ => on)]
          exact before.paired
        apply submitOff_meets
        · intro _ off _
          refine .push none rfl ?_
          simpa [offs, Off.of, off] using before.paired.already
        · exact fun _ on _ => .close none on (by rw [offs_called _ _ (by simp)]; exact paired on)
        · intro s'' tr' closing env ok io _ power _ after
          have on : s''.powerOn = true ∧ Paired (offs tr') := by
            rcases closing with ⟨rfl, rfl, _, on, _⟩ | closed
            · exact ⟨on, paired on⟩
            · exact ⟨closed.powerOn _ rfl rfl, closed.paired⟩
          refine .push none rfl ?_
          rw [offs_append, offs_offTrace (by decide) _ _ on.1]
          exact .off _ on.2
        · exact fun s tr now => finish s tr _ now.paired
        · exact fun _ on _ => push _ (by simp) rfl (paired on)
        · exact fun s tr now => finish _ tr _ now.paired
    | cancelPowerRequest =>
      rw [meets_cancelPowerRequest]
      refine finish _ _ _ ?_
      rw [offs_entered tr (by simp)]
      exact before.paired
  · intro k ks s s' tr w before _ changed
    obtain ⟨io, _, _, rfl⟩ := change_ok changed
    exact ⟨before.outer, before.powerOn, before.paired⟩

/-- As long as nothing is entered while the adapter makes sure that it may turn power
off, it does so once and says so once. -/
theorem power_off_once {self : Adapter} {path : List Turn} {c : Situation}
    (unentered : adapter.Under Unentered { state := self } path)
    (ran : adapter.moves { state := self } path = .ok c) : Paired (offs c.trace) := by
  have initial : Closes [] self [] := ⟨nofun, nofun, .nil⟩
  exact (adapter_closes.run initial unentered ran fun _ _ _ => trivial).paired

/-- Told to stay idle, libncicore may call back to say that it does, once. Otherwise
nobody enters the adapter from a call that it makes. -/
def Cancelling (ks : List Outside) (s : Adapter) : Act Method Change → Bool
  | .enter w h =>
    match ks with
    | [] => h ≠ .submitPowerRequest true ∧ h ≠ .submitPowerRequest false ∨ s.powerSwitchPending = false
    | .setStateIdle _ :: _ => h = .nextStateChanged ∧ s.currentState = NciStates.idle ∧
        s.nextState ≠ NciStates.idle ∧ w.currentState = NciStates.idle ∧ w.nextState = NciStates.idle
    | _ => false
  | .leave w => w.currentState = s.currentState ∧ w.nextState = s.nextState

end

/-- The states in the order in which libncicore lists them. -/
abbrev NciStates.listed : NciStates := ⟨3, 1, 7, by decide⟩

/-- The kernel opens the device and does what it is asked to. -/
def Act.works (act : Act Method Change) : Turn := ⟨act, fun _ => ⟨some 3, true⟩⟩

/-- Power is turned on, and off when libncicore is idle. -/
def onAndOff : List Turn :=
  ([.enter ⟨0, 0, []⟩ (.submitPowerRequest true), .leave ⟨0, 0, []⟩, .leave ⟨0, 0, []⟩,
    .enter ⟨3, 4, []⟩ .currentStateChanged, .leave ⟨3, 4, []⟩,
    .enter ⟨3, 4, []⟩ (.submitPowerRequest false)] : List (Act Method Change)).map Act.works

theorem power_off_once_idle : ∃ c, (@adapter .listed).moves
      { state := { currentState := 0, nextState := 0, io := .fresh } }
      (onAndOff ++ [Act.works (.leave ⟨3, 3, []⟩)]) = .ok c ∧ Paired (offs c.trace) := by
  refine ⟨_, rfl, @power_off_once .listed { currentState := 0, nextState := 0, io := .fresh }
    (onAndOff ++ [Act.works (.leave ⟨3, 3, []⟩)]) _ (by decide) rfl⟩

theorem Paired.switched {l : List Off} (paired : Paired l) : .switched false ∉ l := by
  induction paired with
  | nil => simp
  | off requested _ ih => simpa using ih
  | already _ ih => simpa using ih

/-- libncicore calls back once, and power is turned off and reported twice. -/
theorem power_off_twice : ¬ ∀ (_ : NciStates) (env : PowerEnv) (currentState nextState : Int)
    (self : Adapter) (path : List Turn) (c : Situation),
    nfcAdapterNew env currentState nextState = .ok (some self) →
    adapter.Under Cancelling { state := self } path →
    adapter.moves { state := self } path = .ok c → Paired (offs c.trace) := by
  intro all
  have paired := all .listed ⟨some 3, true⟩ 0 0 { currentState := 0, nextState := 0, io := .fresh }
    (onAndOff ++ [.enter ⟨3, 3, []⟩ .nextStateChanged, .leave ⟨3, 3, []⟩, .leave ⟨3, 3, []⟩,
      .leave ⟨3, 3, []⟩, .leave ⟨3, 3, []⟩].map Act.works) _ rfl (by decide) rfl
  exact paired.switched (by decide)

end Pn54x
