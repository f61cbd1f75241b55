import Pn54x.Adapter.Handlers
import Pn54x.Io.Outcomes

/-! What the parts of the handlers establish, for any assertion on the pending calls. -/
namespace Pn54x
open Reentrant Transition

section
variable {G : Deed → Adapter → Prop} {A : Outside → Adapter → History → Prop} (s : Adapter) (tr : History)

@[simp] theorem meets_lift {α : Type} {Q : α → Adapter → History → Prop} (x : Exec α) :
    (Handler.lift x).Meets G A Q s tr ↔ ∀ a, x = .ok a → Q a s tr := by
  cases x <;> simp [Handler.lift]

@[simp] theorem meets_setPower {Q : Bool → Adapter → History → Prop} (site : Site) (on : Bool) :
    (Handler.setPower site on).Meets G A Q s tr ↔
      ∀ env, G (.setPower site on env) s → ∀ ok io, ioSetPower env on s.io = .ok (ok, io) →
        Q ok { s with io } (tr ++ [(.did (.setPower site on env), s)]) := by
  simp [Handler.setPower]

@[simp] theorem meets_setPowerOn {Q : Unit → Adapter → History → Prop} (on : Bool) :
    (Handler.setPowerOn on).Meets G A Q s tr ↔
      (G (.powerOn on) s → Q () { s with powerOn := on } (tr ++ [(.did (.powerOn on), s)])) := by
  simp [Handler.setPowerOn]

variable [NciStates]

/-- Above IDLE the answer is no; it is yes below, and at IDLE once libncicore has
stopped moving on. -/
@[simp] theorem meets_canPowerOff {Q : Bool → Adapter → History → Prop} (site : Site) :
    (nfcAdapterCanPowerOff site).Meets G A Q s tr ↔
      (NciStates.idle < s.currentState → Q false s tr) ∧
      (s.currentState < NciStates.idle → Q true s tr) ∧
      (s.currentState = NciStates.idle →
        A (.setStateIdle site) s (tr ++ [(.called (.setStateIdle site), s)]) ∧
          ∀ s tr, A (.setStateIdle site) s tr → Q true s tr) := by
  rcases Int.lt_trichotomy s.currentState NciStates.idle with below | same | above
  · simp [nfcAdapterCanPowerOff, below, Int.le_of_lt below, Int.ne_of_lt below, Int.lt_asymm below]
  · simp [nfcAdapterCanPowerOff, same]
  · simp [nfcAdapterCanPowerOff, above, Int.not_le.mpr above, Int.ne_of_gt above, Int.lt_asymm above]

/-- What is seen when power is turned off in `s`, up to the notification in `s'`. -/
def offTrace (site : Site) (requested : Bool) (env : PowerEnv) (s : Adapter) (io : Sys) (s' : Adapter) : History :=
  [(.did (.setPower site false env), s), (.did (.powerOn false), { s with io }),
    (.called (.powerNotify site false requested), s')]

variable {s tr}

/-- The check does nothing, or it turns power off: right now, or after libncicore was
told to stay idle. -/
theorem stateCheck_meets {Q : Unit → Adapter → History → Prop}
    (stays : (s.powerOn = true → s.needPower = false → NciStates.idle < s.currentState) → Q () s tr)
    (closing : s.powerOn = true → s.needPower = false → s.currentState = NciStates.idle →
      A (.setStateIdle .stateCheck) s (tr ++ [(.called (.setStateIdle .stateCheck), s)]))
    (off : ∀ s' tr', (s' = s ∧ tr' = tr ∧ s.powerOn = true ∧ s.needPower = false ∧
        s.currentState < NciStates.idle) ∨ A (.setStateIdle .stateCheck) s' tr' →
      ∀ env ok io, G (.setPower .stateCheck false env) s' → ioSetPower env false s'.io = .ok (ok, io) →
      G (.powerOn false) { s' with io } →
      let after := { s' with powerOn := false, powerSwitchPending := false, io }
      A (.powerNotify .stateCheck false s'.powerSwitchPending) after
        (tr' ++ offTrace .stateCheck s'.powerSwitchPending env s' io after))
    (done : ∀ requested s tr, A (.powerNotify .stateCheck false requested) s tr → Q () s tr) :
    nfcAdapterStateCheck.Meets G A Q s tr := by
  have turns (s' : Adapter) (tr' : History) (before : (s' = s ∧ tr' = tr ∧ s.powerOn = true ∧
        s.needPower = false ∧ s.currentState < NciStates.idle) ∨ A (.setStateIdle .stateCheck) s' tr')
      (env : PowerEnv) (good : G (.setPower .stateCheck false env) s') (ok : Bool) (io : Sys)
      (power : ioSetPower env false s'.io = .ok (ok, io)) (cleared : G (.powerOn false) { s' with io })
      (requested : Bool) (pending : s'.powerSwitchPending = requested) :
      let after := { s' with powerOn := false, powerSwitchPending := false, io }
      A (.powerNotify .stateCheck false requested) after
          (tr' ++ [(.did (.setPower .stateCheck false env), s')] ++ [(.did (.powerOn false), { s' with io })] ++
            [(.called (.powerNotify .stateCheck false requested), after)]) ∧
        ∀ s tr, A (.powerNotify .stateCheck false requested) s tr → Q () s tr := by
    have obligation := off s' tr' before env ok io good power cleared
    rw [pending] at obligation
    refine ⟨?_, done requested⟩
    simpa only [offTrace, List.append_assoc, List.cons_append, List.nil_append] using obligation
  simp only [nfcAdapterStateCheck, meets_bind, meets_read, meets_ite, meets_canPowerOff, meets_setPower,
    meets_setPowerOn, meets_update, meets_outside, meets_pure, Bool.not_eq_true, reduceCtorEq,
    false_implies, forall_const, and_true, true_and]
  constructor
  · rintro ⟨on, need⟩
    refine ⟨fun above => stays fun _ _ => above, fun below => ?_, fun same => ⟨closing on need same, ?_⟩⟩
    · intro env good ok io power cleared
      have turned := turns s tr (.inl ⟨rfl, rfl, on, need, below⟩) env good ok io power cleared
      refine ⟨turned true, fun pending => ?_⟩
      simpa only [pending] using turned false pending
    · intro s' tr' closed env good ok io power cleared
      have turned := turns s' tr' (.inr closed) env good ok io power cleared
      refine ⟨turned true, fun pending => ?_⟩
      simpa only [pending] using turned false pending
  · intro no
    exact stays fun on need => absurd ⟨on, need⟩ no

/-- A request for power finds it on, or turns it on and restarts libncicore, or fails. -/
theorem submitOn_meets {Q : Bool → Adapter → History → Prop}
    (already : s.powerSwitchPending = false → s.powerOn = true →
      let asked := { s with needPower := true }
      A (.setStateIdle .submitOn) asked (tr ++ [(.called (.setStateIdle .submitOn), asked)]))
    (switched : s.powerSwitchPending = false → s.powerOn = false →
      let asked := { s with needPower := true }
      ∀ env io, G (.setPower .submitOn true env) asked → ioSetPower env true s.io = .ok (true, io) →
      G (.powerOn true) { asked with io } →
      let after := { asked with powerOn := true, io }
      A .restart after (tr ++ [(.did (.setPower .submitOn true env), asked),
        (.did (.powerOn true), { asked with io }), (.called .restart, after)]))
    (failed : s.powerSwitchPending = false → s.powerOn = false →
      let asked := { s with needPower := true }
      ∀ env io, G (.setPower .submitOn true env) asked → ioSetPower env true s.io = .ok (false, io) →
      Q false { asked with io } (tr ++ [(.did (.setPower .submitOn true env), asked)]))
    (served : ∀ s tr, A (.setStateIdle .submitOn) s tr ∨ A .restart s tr →
      A (.powerNotify .submitOn true true) s (tr ++ [(.called (.powerNotify .submitOn true true), s)]))
    (done : ∀ s tr, A (.powerNotify .submitOn true true) s tr → Q s.powerSwitchPending s tr) :
    (nfcAdapterSubmitPowerRequest true).Meets G A Q s tr := by
  simp only [nfcAdapterSubmitPowerRequest, meets_bind, meets_read, meets_lift, meets_update, meets_ite,
    meets_outside, meets_setPower, meets_setPowerOn, meets_pure, if_true, Bool.not_eq_true]
  intro _ asserted
  have idle : s.powerSwitchPending = false := by simpa using gassert_ok.mp asserted
  refine ⟨fun on => ⟨already idle on, fun s tr now => ⟨served s tr (.inl now), done⟩⟩, ?_⟩
  intro off env good ok io power
  refine ⟨fun works cleared => ?_, fun fails => ?_⟩
  · subst works
    have obligation := switched idle off env io good power cleared
    exact ⟨by simpa only [List.append_assoc, List.cons_append, List.nil_append] using obligation,
      fun s tr now => ⟨served s tr (.inr now), done⟩⟩
  · subst fails
    have obligation := failed idle off env io good power
    rwa [← idle] at obligation

/-- A request for no power finds it off, or turns it off at once, or waits. -/
theorem submitOff_meets {Q : Bool → Adapter → History → Prop}
    (already : s.powerSwitchPending = false → s.powerOn = false →
      let asked := { s with needPower := false }
      A (.powerNotify .submitOff false true) asked
        (tr ++ [(.called (.powerNotify .submitOff false true), asked)]))
    (closing : s.powerSwitchPending = false → s.powerOn = true → s.currentState = NciStates.idle →
      let asked := { s with needPower := false }
      A (.setStateIdle .submitOff) asked (tr ++ [(.called (.setStateIdle .submitOff), asked)]))
    (off : ∀ s' tr', (s' = { s with needPower := false } ∧ tr' = tr ∧ s.powerSwitchPending = false ∧
        s.powerOn = true ∧ s.currentState < NciStates.idle) ∨ A (.setStateIdle .submitOff) s' tr' →
      ∀ env ok io, G (.setPower .submitOff false env) s' → ioSetPower env false s'.io = .ok (ok, io) →
      G (.powerOn false) { s' with io } →
      let after := { s' with powerOn := false, io }
      A (.powerNotify .submitOff false true) after (tr' ++ offTrace .submitOff true env s' io after))
    (done : ∀ s tr, A (.powerNotify .submitOff false true) s tr → Q s.powerSwitchPending s tr)
    (waits : s.powerSwitchPending = false → s.powerOn = true → NciStates.idle < s.currentState →
      let asked := { s with needPower := false }
      A (.setStateIdle .submitWait) asked (tr ++ [(.called (.setStateIdle .submitWait), asked)]))
    (waited : ∀ s tr, A (.setStateIdle .submitWait) s tr →
      let pending : Bool := s.currentState ≠ NciStates.idle ∧ s.nextState = NciStates.idle
      Q pending { s with powerSwitchPending := pending } tr) :
    (nfcAdapterSubmitPowerRequest false).Meets G A Q s tr := by
  simp only [nfcAdapterSubmitPowerRequest, meets_bind, meets_read, meets_lift, meets_update, meets_ite,
    meets_outside, meets_setPower, meets_setPowerOn, meets_canPowerOff, meets_pure, Bool.not_eq_true,
    reduceCtorEq, false_implies, not_false_eq_true, forall_const, true_and, and_true]
  intro _ asserted
  have idle : s.powerSwitchPending = false := by simpa using gassert_ok.mp asserted
  refine ⟨fun on => ⟨fun above => ?_, fun below => ?_, fun same => ?_⟩, fun off => ⟨already idle off, done⟩⟩
  · exact ⟨waits idle on above, waited⟩
  · intro env good ok io power cleared
    have obligation := off _ tr (.inl ⟨rfl, rfl, idle, on, below⟩) env ok io good power cleared
    refine ⟨?_, done⟩
    simpa only [offTrace, List.append_assoc, List.cons_append, List.nil_append] using obligation
  · refine ⟨closing idle on same, fun s' tr' closed env good ok io power cleared => ?_⟩
    have obligation := off s' tr' (.inr closed) env ok io good power cleared
    refine ⟨?_, done⟩
    simpa only [offTrace, List.append_assoc, List.cons_append, List.nil_append] using obligation

theorem currentStateChanged_meets {Q : Unit → Adapter → History → Prop}
    (begins : A .currentStateChanged s (tr ++ [(.called .currentStateChanged, s)]))
    (checks : ∀ s tr, A .currentStateChanged s tr → nfcAdapterStateCheck.Meets G A Q s tr) :
    nfcAdapterCurrentStateChanged.Meets G A Q s tr := by
  simp only [nfcAdapterCurrentStateChanged, meets_bind, meets_outside]
  exact ⟨begins, checks⟩

/-- What is seen of a reset of the chip. -/
def resetTrace (off on : PowerEnv) (s : Adapter) (io : Sys) : History :=
  [(.did (.setPower .reset false off), s), (.did (.setPower .reset true on), { s with io })]

/-- The chip is reset if libncicore is about to fail while power is on. The state is
checked in any case. -/
theorem nextStateChanged_meets {Q : Unit → Adapter → History → Prop}
    (begins : A .nextStateChanged s (tr ++ [(.called .nextStateChanged, s)]))
    (resets : ∀ s tr, A .nextStateChanged s tr → s.nextState = NciStates.error → s.powerOn = true →
      ∀ env ok io, G (.setPower .reset false env) s → ioSetPower env false s.io = .ok (ok, io) →
      ∀ env' ok' io', G (.setPower .reset true env') { s with io } → ioSetPower env' true io = .ok (ok', io') →
      nfcAdapterStateCheck.Meets G A Q { s with io := io' } (tr ++ resetTrace env env' s io))
    (checks : ∀ s tr, A .nextStateChanged s tr → nfcAdapterStateCheck.Meets G A Q s tr) :
    nfcAdapterNextStateChanged.Meets G A Q s tr := by
  simp only [nfcAdapterNextStateChanged, meets_bind, meets_outside, meets_read, meets_ite, meets_setPower]
  refine ⟨begins, fun s tr now => ⟨fun _ => ⟨?_, fun _ => checks s tr now⟩, fun _ => checks s tr now⟩⟩
  rintro ⟨error, on⟩ env good ok io power env' good' ok' io' power'
  have obligation := resets s tr now error on env ok io good power env' ok' io' good' power'
  rwa [resetTrace, List.append_cons] at obligation

section
variable {Q : Option Bool → Adapter → History → Prop}

@[simp] theorem meets_currentStateChanged : (adapter.body .currentStateChanged).Meets G A Q s tr ↔
    nfcAdapterCurrentStateChanged.Meets G A (fun _ => Q none) s tr := meets_bind _ _ _ _

@[simp] theorem meets_nextStateChanged : (adapter.body .nextStateChanged).Meets G A Q s tr ↔
    nfcAdapterNextStateChanged.Meets G A (fun _ => Q none) s tr := meets_bind _ _ _ _

@[simp] theorem meets_submitPowerRequest (on : Bool) :
    (adapter.body (.submitPowerRequest on)).Meets G A Q s tr ↔
      (nfcAdapterSubmitPowerRequest on).Meets G A (fun pending => Q (some pending)) s tr := meets_bind _ _ _ _

@[simp] theorem meets_cancelPowerRequest : (adapter.body .cancelPowerRequest).Meets G A Q s tr ↔
    Q none { s with needPower := s.powerOn, powerSwitchPending := false } tr := Iff.rfl

end

/-- The world changes the states of the `NciCore` and uses the HAL. -/
theorem change_ok {w : Change} (changed : adapter.change w s = .ok s') :
    ∃ io, react w.hal s.io = .ok io ∧ w.hal.all Call.OfHal = true ∧
      s' = { s with currentState := w.currentState, nextState := w.nextState, io } := by
  change w.apply s = .ok s' at changed
  unfold Change.apply at changed
  split at changed
  · obtain ⟨io, reacted, same⟩ := bind_ok.mp changed
    exact ⟨io, reacted, ‹_›, (pure_ok.mp same).symm⟩
  · contradiction

end

end Pn54x
