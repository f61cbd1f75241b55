import Pn54x.Adapter.Guard

/-! The flag `power_on` and the power of the chip. -/
namespace Pn54x
open Reentrant Transition

/-- The device is open or opens, and takes the request. -/
def PowerEnv.Works (env : PowerEnv) (io : Sys) : Bool :=
  (io.fd.isSome || env.device.isSome) && env.ioctl

theorem ioOpen_opened {s t : Sys} (opens : ioOpen device s = .ok (opened, t)) :
    opened = (s.fd.isSome || device.isSome) := by
  unfold ioOpen at opens
  cases found : s.fd with
  | some fd =>
    rw [found] at opens
    exact (Prod.mk.inj (Except.ok.inj opens)).1.symm
  | none =>
    rw [found] at opens
    cases device with
    | none => exact (Prod.mk.inj (Except.ok.inj opens)).1.symm
    | some fd =>
      obtain ⟨_, _, done⟩ := bind_ok.mp opens
      exact (Prod.mk.inj (Except.ok.inj done)).1.symm

/-- Switching power succeeds if it works, and otherwise leaves the chip's power alone. -/
theorem ioSetPower_power {s t : Sys} (power : ioSetPower env on s = .ok (ok, t)) :
    ok = env.Works s ∧ t.power = if ok then on else s.power := by
  obtain ⟨fd, files, result, _, rfl⟩ := ioSetPower_ok power
  constructor
  · obtain ⟨⟨opened, m⟩, opens, power⟩ := bind_ok.mp power
    rw [PowerEnv.Works, ← ioOpen_opened opens]
    cases answers : opened && env.ioctl with
    | true =>
      simp only [answers, if_true] at power
      exact (Prod.mk.inj (pure_ok.mp power)).1.symm
    | false =>
      simp only [answers] at power
      exact (Prod.mk.inj (pure_ok.mp power)).1.symm
  · cases ok <;> cases on <;> simp

theorem perform_power {c : Call} (ofHal : c.OfHal = true) (performed : c.perform s = .ok t) :
    t.power = s.power := by
  cases c with
  | setPower => contradiction
  | start env client =>
    obtain ⟨ok, starts⟩ := perform_start performed
    rcases (halIoStart_ok starts).2 with
      ⟨_, _, _, _, _, _, _, _, rfl⟩ | ⟨_, _, _, _, _, _, _, _, _, rfl⟩ | ⟨_, _, rfl⟩
    · rfl
    · simp
    · rfl
  | stop =>
    obtain rfl := Except.ok.inj performed
    simp [halIoStop, ioStop_eq]
  | write env chunks callback =>
    obtain ⟨ok, writes⟩ := perform_write performed
    obtain ⟨_, _, _, ⟨_, rfl⟩ | ⟨_, _, _, _, _, rfl⟩⟩ := halIoWrite_ok writes
    · rfl
    · cases callback <;> cases ok <;> rfl
  | cancelWrite =>
    obtain rfl := Except.ok.inj performed
    rw [halIoCancelWrite_eq]
    rfl

/-- Whatever is done through the HAL, the chip keeps its power. -/
theorem react_power {calls : List Call} (ofHal : calls.all Call.OfHal = true)
    (reacted : react calls s = .ok t) : t.power = s.power :=
  run_invariant (P := fun m => m.power = s.power)
    (fun same ofHal performed => (perform_power ofHal performed).trans same) rfl
    (List.all_eq_true.mp ofHal) reacted

/-- On return from a handler the flag is the chip's power, and so is what a notification
reports. -/
def Truthful : Label Deed Outside Method (Option Bool) × Adapter → Bool
  | (.returned _ _, s) => s.powerOn = s.io.power
  | (.called (.powerNotify _ on _), s) => on = s.io.power
  | _ => true

/-- The world around the adapter. -/
def Answering (ks : List Outside) (_ : Adapter) : Act Method Change → Bool
  | .enter _ h => Nested ks h
  | .leave _ => true

/-- What holds of the chip wherever the adapter is entered or calls. -/
structure Agrees (ks : List Outside) (s : Adapter) (tr : History) : Prop where
  serves : Serves ks s
  power : s.powerOn = s.io.power
  truthful : ∀ e ∈ tr, Truthful e = true

theorem Agrees.pop {k : Outside} {s : Adapter} {tr : History} (agrees : Agrees (k :: ks) s tr) :
    Agrees ks s tr :=
  ⟨agrees.serves.pop, agrees.power, agrees.truthful⟩

theorem truthful_append {tr tr' : History} (truthful : ∀ e ∈ tr, Truthful e = true)
    (also : ∀ e ∈ tr', Truthful e = true) : ∀ e ∈ tr ++ tr', Truthful e = true := fun e member =>
  (List.mem_append.mp member).elim (truthful e) (also e)

theorem Agrees.returned {s : Adapter} {tr : History} (agrees : Agrees ks s tr) (h : Method) (a : Option Bool) :
    Agrees ks s (tr ++ [(.returned h a, s)]) :=
  ⟨agrees.serves, agrees.power, truthful_append agrees.truthful (by simpa [Truthful] using agrees.power)⟩

/-- The adapter makes a call, after events that report nothing. -/
theorem Agrees.push {s s' : Adapter} {tr : History} (agrees : Agrees ks s tr) (events : History) {k : Outside}
    (serves : Serves (k :: ks) s') (power : s'.powerOn = s'.io.power)
    (truthful : ∀ e ∈ events ++ [(.called k, s')], Truthful e = true) :
    Agrees (k :: ks) s' (tr ++ (events ++ [(.called k, s')])) :=
  ⟨serves, power, truthful_append agrees.truthful truthful⟩

section
variable [NciStates]

/-- The condition on the switches whose result the adapter ignores. Turning power off
works unless it is off. Turning it on again in a reset works unless it still is on, or
unless the check that follows turns it off at once. -/
def Switched : Deed → Adapter → Bool
  | .setPower .stateCheck _ env, s | .setPower .submitOff _ env, s => !s.io.power || env.Works s.io
  | .setPower .reset true env, s =>
    s.io.power || env.Works s.io || !s.needPower && s.currentState < NciStates.idle
  | _, _ => true

/-- Power is off once it has been turned off. -/
theorem switched_off {s : Adapter} {site : Site} {env : PowerEnv} {ok : Bool} {io : Sys}
    (checked : site = .stateCheck ∨ site = .submitOff) (good : Switched (.setPower site false env) s = true)
    (power : ioSetPower env false s.io = .ok (ok, io)) : io.power = false := by
  obtain ⟨rfl, same⟩ := ioSetPower_power power
  have works : s.io.power = false ∨ env.Works s.io = true := by
    rcases checked with rfl | rfl <;> simpa [Switched] using good
  rw [same]
  cases works with
  | inl off => rw [off, ite_self]
  | inr works => rw [works, if_pos rfl]

/-- After a reset power is on again, or it is about to be turned off. -/
theorem switched_reset {s : Adapter} {env : PowerEnv} {ok : Bool} {io : Sys}
    (good : Switched (.setPower .reset true env) s = true) (power : ioSetPower env true s.io = .ok (ok, io)) :
    io.power = true ∨ s.needPower = false ∧ s.currentState < NciStates.idle := by
  obtain ⟨rfl, same⟩ := ioSetPower_power power
  simp only [Switched, Bool.or_eq_true, Bool.and_eq_true, Bool.not_eq_true', decide_eq_true_eq] at good
  rcases good with (on | works) | unneeded
  · exact .inl (by rw [same, on, ite_self])
  · exact .inl (by rw [same, works, if_pos rfl])
  · exact .inr unneeded

theorem Agrees.off {s : Adapter} {tr : History} {site : Site} {env : PowerEnv} {ok : Bool} {io : Sys}
    (serves : Serves ks s) (none : ∀ k ∈ ks, k.Serving = false) (truthful : ∀ e ∈ tr, Truthful e = true)
    (checked : site = .stateCheck ∨ site = .submitOff) (good : Switched (.setPower site false env) s = true)
    (power : ioSetPower env false s.io = .ok (ok, io)) (requested pending : Bool) :
    let after := { s with powerOn := false, powerSwitchPending := pending, io }
    Agrees (.powerNotify site false requested :: ks) after (tr ++ offTrace site requested env s io after) := by
  intro after
  have off : false = io.power := (switched_off checked good power).symm
  refine ⟨(serves.free none after).push (.inr none) nofun, off, truthful_append truthful ?_⟩
  simpa [offTrace, Truthful] using off

theorem stateCheck_agrees {s : Adapter} {tr : History} {Q : Unit → Adapter → History → Prop}
    (serves : Serves ks s) (truthful : ∀ e ∈ tr, Truthful e = true)
    (power : s.powerOn = s.io.power ∨
      s.powerOn = true ∧ s.needPower = false ∧ s.currentState < NciStates.idle)
    (finish : ∀ s tr, Agrees ks s tr → Q () s tr) :
    nfcAdapterStateCheck.Meets (Switched · · = true) (fun k => Agrees (k :: ks)) Q s tr := by
  apply stateCheck_meets
  · intro above
    refine finish s tr ⟨serves, power.resolve_right fun ⟨on, need, below⟩ => ?_, truthful⟩
    exact Int.lt_asymm below (above on need)
  · intro _ need same
    have agrees : s.powerOn = s.io.power :=
      power.resolve_right fun ⟨_, _, below⟩ => Int.ne_of_lt below same
    refine Agrees.push ⟨serves, agrees, truthful⟩ [] ?_ agrees (by simp [Truthful])
    exact serves.push (.inr (serves.unneeded need)) nofun
  · intro s' tr' before env ok io good off _
    rcases before with ⟨rfl, rfl, _, need, _⟩ | closed
    · exact .off serves (serves.unneeded need) truthful (.inl rfl) good off _ _
    · exact .off closed.serves.pop (closed.serves.calm rfl) closed.truthful (.inl rfl) good off _ _
  · exact fun _ s tr now => finish s tr now.pop

theorem submitOn_agrees {s : Adapter} {tr : History} {Q : Bool → Adapter → History → Prop}
    (agrees : Agrees ks s tr) (none : ∀ k ∈ ks, k.Serving = false)
    (finish : ∀ pending s tr, Agrees ks s tr → Q pending s tr) :
    (nfcAdapterSubmitPowerRequest true).Meets (Switched · · = true) (fun k => Agrees (k :: ks)) Q s tr := by
  apply submitOn_meets
  · intro _ on asked
    refine agrees.push [] ?_ agrees.power (by simp [Truthful])
    exact (agrees.serves.free none asked).push (.inr none) fun _ => ⟨rfl, on⟩
  · intro _ _ asked env io _ power _ after
    have on : true = io.power := (ioSetPower_power power).2.symm
    refine agrees.push [(.did (.setPower .submitOn true env), asked),
      (.did (.powerOn true), { asked with io })] ?_ on (by simp [Truthful])
    exact (agrees.serves.free none after).push (.inr none) fun _ => ⟨rfl, rfl⟩
  · intro _ _ asked env io _ power
    have same : io.power = s.io.power := (ioSetPower_power power).2
    refine finish false _ _ ⟨agrees.serves.free none _, agrees.power.trans same.symm,
      truthful_append agrees.truthful (by simp [Truthful])⟩
  · intro s tr now
    have answer {k : Outside} (serving : k.Serving = true) (now : Agrees (k :: ks) s tr) :
        Agrees (.powerNotify .submitOn true true :: ks) s
          (tr ++ [(.called (.powerNotify .submitOn true true), s)]) := by
      have on : true = s.io.power := (now.serves.served k (.head _) serving).2.symm.trans now.power
      refine now.pop.push [] ?_ now.power (by simpa [Truthful] using on)
      exact now.serves.pop.push (.inr none) nofun
    exact now.elim (answer rfl) (answer rfl)
  · exact fun s tr now => finish s.powerSwitchPending s tr now.pop

theorem submitOff_agrees {s : Adapter} {tr : History} {Q : Bool → Adapter → History → Prop}
    (agrees : Agrees ks s tr) (none : ∀ k ∈ ks, k.Serving = false)
    (finish : ∀ pending s tr, Agrees ks s tr → Q pending s tr) :
    (nfcAdapterSubmitPowerRequest false).Meets (Switched · · = true) (fun k => Agrees (k :: ks)) Q s tr := by
  have asks (k : Outside) (other : k.Serving = false)
      (truthful : Truthful (.called k, { s with needPower := false }) = true) :
      Agrees (k :: ks) { s with needPower := false } (tr ++ [(.called k, { s with needPower := false })]) := by
    refine agrees.push [] ?_ agrees.power (by simpa using truthful)
    exact (agrees.serves.free none _).push (.inr none) fun works => by simp [other] at works
  apply submitOff_meets
  · exact fun _ off => asks _ rfl (decide_eq_true (off.symm.trans agrees.power))
  · exact fun _ _ _ => asks _ rfl rfl
  · intro s' tr' before env ok io good power _
    rcases before with ⟨rfl, rfl, _⟩ | closed
    · exact .off (agrees.serves.free none _) none agrees.truthful (.inr rfl) good power true _
    · exact .off closed.serves.pop none closed.truthful (.inr rfl) good power true _
  · exact fun s tr now => finish s.powerSwitchPending s tr now.pop
  · exact fun _ _ _ => asks _ rfl rfl
  · exact fun s tr now => finish _ _ tr ⟨⟨now.pop.serves.above, now.pop.serves.served⟩, now.power, now.truthful⟩

theorem adapter_agrees : Stable adapter Answering (Switched · · = true) Agrees := by
  constructor
  · intro ks s s' tr w h before nested changed
    obtain ⟨io, reacted, ofHal, rfl⟩ := change_ok changed
    have power : s.powerOn = io.power := before.power.trans (react_power ofHal reacted).symm
    have now : Agrees ks { s with currentState := w.currentState, nextState := w.nextState, io }
        (tr ++ [(.entered h, { s with currentState := w.currentState, nextState := w.nextState, io })]) :=
      ⟨⟨before.serves.above, before.serves.served⟩, power,
        truthful_append before.truthful (by simp [Truthful])⟩
    have finish (a : Option Bool) (s : Adapter) (tr : History) (agrees : Agrees ks s tr) :
        Agrees ks s (tr ++ [(.returned h a, s)]) := agrees.returned h a
    have calls {k : Outside} (super : k.Super = true) (serving : k.Serving = false)
        (truthful : ∀ s, Truthful (.called k, s) = true) {s : Adapter} {tr : History} (now : Agrees ks s tr) :
        Agrees (k :: ks) s (tr ++ [(.called k, s)]) := by
      refine now.push [] ?_ now.power (by simpa using truthful s)
      exact now.serves.push (.inl super) fun works => by simp [serving] at works
    cases h with
    | currentStateChanged =>
      rw [meets_currentStateChanged]
      apply currentStateChanged_meets
      · exact calls (k := .currentStateChanged) rfl rfl (fun _ => rfl) now
      · exact fun s tr now => stateCheck_agrees now.serves.pop now.truthful (.inl now.power) (finish _)
    | nextStateChanged =>
      rw [meets_nextStateChanged]
      apply nextStateChanged_meets
      · exact calls (k := .nextStateChanged) rfl rfl (fun _ => rfl) now
      · intro s tr now _ on env ok io _ _ env' ok' io' good power
        refine stateCheck_agrees ⟨now.pop.serves.above, now.pop.serves.served⟩
          (truthful_append now.truthful (by simp [resetTrace, Truthful])) ?_ (finish _)
        cases switched_reset good power with
        | inl again => exact .inl (on.trans again.symm)
        | inr unneeded => exact .inr ⟨on, unneeded⟩
      · exact fun s tr now => stateCheck_agrees now.serves.pop now.truthful (.inl now.power) (finish _)
    | submitPowerRequest on =>
      rw [meets_submitPowerRequest]
      have none := before.serves.submitted nested rfl
      cases on with
      | true => exact submitOn_agrees now none fun pending => finish _
      | false => exact submitOff_agrees now none fun pending => finish _
    | cancelPowerRequest =>
      rw [meets_cancelPowerRequest]
      refine finish _ _ _ ⟨⟨now.serves.above, fun k member works => ?_⟩, power, now.truthful⟩
      have on := (now.serves.served k member works).2
      exact ⟨on, on⟩
  · intro k ks s s' tr w before _ changed
    obtain ⟨io, reacted, ofHal, rfl⟩ := change_ok changed
    exact ⟨⟨before.serves.above, before.serves.served⟩,
      before.power.trans (react_power ofHal reacted).symm, before.truthful⟩

omit [NciStates] in
/-- A new adapter knows that power is off. -/
theorem nfcAdapterNew_power {self : Adapter}
    (created : nfcAdapterNew env currentState nextState = .ok (some self)) : self.powerOn = self.io.power := by
  obtain ⟨io, new, same⟩ := bind_ok.mp created
  cases io with
  | none => exact absurd (pure_ok.mp same) (by simp)
  | some io =>
    obtain rfl := Option.some.inj (pure_ok.mp same)
    obtain ⟨⟨ok, t⟩, power, same⟩ := bind_ok.mp (ioNew_performed new)
    obtain rfl := pure_ok.mp same
    have off : t.power = if ok then false else false := (ioSetPower_power power).2
    exact (off.trans (ite_self _)).symm

/-- `Switched`, of everything in a history. -/
def Working : Label Deed Outside Method (Option Bool) × Adapter → Bool
  | (.did deed, s) => Switched deed s
  | _ => true

/-- Where every switch whose result is ignored works, the adapter knows the chip's power
and reports it. -/
theorem power_agrees {self : Adapter} {path : List Turn} {c : Situation}
    (created : nfcAdapterNew env currentState nextState = .ok (some self))
    (ruled : adapter.Under Answering { state := self } path)
    (ran : adapter.moves { state := self } path = .ok c)
    (working : ∀ e ∈ c.trace, Working e = true) : ∀ e ∈ c.trace, Truthful e = true := by
  have initial : Agrees [] self [] := ⟨.nil self, nfcAdapterNew_power created, by simp⟩
  exact (adapter_agrees.run initial ruled ran fun _ _ member => working _ member).truthful

/-- One handler after another is run to its end, and nothing is submitted while a
request is pending. -/
def Sequential (ks : List Outside) (s : Adapter) : Act Method Change → Bool
  | .enter _ h => ks.isEmpty && !(h.Submit && s.powerSwitchPending)
  | .leave w => w.currentState = s.currentState && w.nextState = s.nextState

end

theorem power_agrees_idle : ∃ c, (@adapter .listed).moves
      { state := { currentState := 0, nextState := 0, io := .fresh } }
      (onAndOff ++ [Act.works (.leave ⟨3, 3, []⟩)]) = .ok c ∧ ∀ e ∈ c.trace, Truthful e = true := by
  refine ⟨_, rfl, @power_agrees .listed ⟨some 3, true⟩ 0 0
    { currentState := 0, nextState := 0, io := .fresh }
    (onAndOff ++ [Act.works (.leave ⟨3, 3, []⟩)]) _ rfl (by decide) rfl (by decide)⟩

/-- The ioctl fails, and power is reported off though it is on. -/
theorem power_misreported : ¬ ∀ (_ : NciStates) (env : PowerEnv) (currentState nextState : Int)
    (self : Adapter) (path : List Turn) (c : Situation),
    nfcAdapterNew env currentState nextState = .ok (some self) →
    adapter.Under Sequential { state := self } path →
    adapter.moves { state := self } path = .ok c → ∀ e ∈ c.trace, Truthful e = true := by
  intro all
  have truthful := all .listed ⟨some 3, true⟩ 0 0 { currentState := 0, nextState := 0, io := .fresh }
    ([.enter ⟨0, 0, []⟩ (.submitPowerRequest true), .leave ⟨0, 0, []⟩, .leave ⟨0, 0, []⟩].map Act.works ++
      [⟨.enter ⟨0, 0, []⟩ (.submitPowerRequest false), fun _ => ⟨some 3, false⟩⟩,
        Act.works (.leave ⟨0, 0, []⟩)]) _ rfl (by decide) rfl
  revert truthful
  decide

end Pn54x
