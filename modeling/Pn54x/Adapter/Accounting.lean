import Pn54x.Adapter.Guard

/-! What becomes of a request for no power that has to wait. -/
namespace Pn54x
open Reentrant Transition Monitor

/-- The calls behind which a handler checks libncicore's states or turns power off. -/
def Outside.Checks : Outside → Bool
  | .currentStateChanged | .nextStateChanged | .setStateIdle .stateCheck | .setStateIdle .submitOff => true
  | _ => false

def Outside.Notifies : Outside → Bool
  | .powerNotify _ _ _ => true
  | _ => false

/-- A request has returned TRUE, and was neither answered nor cancelled. -/
def awaits : Bool → Label Deed Outside Method (Option Bool) × Adapter → Bool
  | _, (.returned (.submitPowerRequest _) pending, _) => pending == some true
  | _, (.called (.powerNotify _ false true), _) => false
  | _, (.entered .cancelPowerRequest, _) => false
  | awaited, _ => awaited

section
variable [NciStates]

/-- A callback answers a request that is not awaited or too early, another answer is
given while one is awaited, a callback leaves it unanswered, or a request that returns
FALSE forgets it. -/
def misses : Bool → Label Deed Outside Method (Option Bool) × Adapter → Bool
  | awaited, (.called (.powerNotify .stateCheck false true), s) => !awaited || NciStates.idle < s.currentState
  | awaited, (.called (.powerNotify _ false true), _) => awaited
  | awaited, (.returned h pending, s) =>
    awaited && (h.Callback && s.currentState ≤ NciStates.idle || pending == some false)
  | _, _ => false

/-- Every request that returned TRUE is answered once, by the first callback that finds
libncicore idle, or it is cancelled. -/
def Accounted (tr : History) : Prop := Never awaits misses false tr

/-- How libncicore may move on while a call is pending. Asked to become idle, it does or
it fails or it says in what state it will be; idle and asked to stay so, it does not
become busy. -/
def Outside.Admits (s : Adapter) (w : Change) : Outside → Bool
  | .setStateIdle .submitWait =>
    (w.currentState = s.currentState || w.currentState = NciStates.idle || w.currentState = NciStates.error) &&
      (w.currentState ≠ NciStates.error || w.nextState = NciStates.error)
  | .setStateIdle .stateCheck | .setStateIdle .submitOff => w.currentState ≤ NciStates.idle
  | _ => true

/-- The world around the adapter. Every change of state comes with a callback or is seen
by a handler that checks it, unless power is off or needed. Requests are cancelled at any
time and made while none is pending, but not from a notification. -/
def Accounting (ks : List Outside) (s : Adapter) : Act Method Change → Bool
  | .enter w h => ks.all (·.Admits s w) &&
      (h.Callback || ks.all (!·.Notifies) && !(h.Submit && s.powerSwitchPending))
  | .leave w => ks.all (·.Admits s w) &&
      (w.currentState = s.currentState || !s.powerOn || s.needPower || ks.head?.any (·.Checks))

/-- The condition: while a request that has to wait tells libncicore to become idle, power
is not asked for, nothing is cancelled unless power is off, and no other request has to
wait. -/
def Undisturbed (ks : List Outside) (s : Adapter) : Act Method Change → Bool
  | .enter w h => h.Callback || ks.all (· ≠ .setStateIdle .submitWait) ||
      h ≠ .submitPowerRequest true && (!s.powerOn || h.Submit && w.currentState ≤ NciStates.idle)
  | .leave _ => true

/-- What a handler relies on while its call is pending. -/
def Outside.Relies : Outside → Adapter → Prop
  | .setStateIdle .submitWait, s => s.needPower = false ∧ s.powerSwitchPending = false ∧
      (NciStates.idle < s.currentState ∧ s.powerOn = true ∨ s.currentState = NciStates.idle ∨
        s.currentState = NciStates.error ∧ s.nextState = NciStates.error)
  | .setStateIdle .submitOff, s => s.powerSwitchPending = false ∧ s.currentState ≤ NciStates.idle
  | .setStateIdle .stateCheck, s => s.currentState ≤ NciStates.idle
  -- the reset calls nobody
  | .setStateIdle .reset, _ => False
  | _, _ => True

/-- Power that nobody needs is on only as long as libncicore is busy. -/
def Settled (s : Adapter) : Prop :=
  s.powerOn = true → s.needPower = false → NciStates.idle < s.currentState

/-- At most one request waits for libncicore at a time. -/
def Alone (ks : List Outside) : Prop :=
  ks.Pairwise fun k below => k = .setStateIdle .submitWait → below ≠ .setStateIdle .submitWait

structure Accounts (ks : List Outside) (s : Adapter) (tr : History) : Prop where
  alone : Alone ks
  pending : s.powerSwitchPending = true → s.powerOn = true ∧ s.needPower = false
  awaited : after awaits false tr = s.powerSwitchPending
  relies : ∀ k ∈ ks, k.Relies s
  accounted : Accounted tr

/-- What holds wherever the adapter is entered or calls. -/
structure Balanced (ks : List Outside) (s : Adapter) (tr : History) : Prop extends Accounts ks s tr where
  settled : Settled s ∨ ∃ k, ks.head? = some k ∧ k.Checks = true

theorem Accounts.pop {k : Outside} {s : Adapter} {tr : History} (accounts : Accounts (k :: ks) s tr) :
    Accounts ks s tr :=
  ⟨accounts.alone.of_cons, accounts.pending, accounts.awaited,
    fun k member => accounts.relies k (.tail _ member), accounts.accounted⟩

/-- Behind a call that is not followed by a check there is none to make. -/
theorem Balanced.rests {k : Outside} {s : Adapter} {tr : History} (balanced : Balanced (k :: ks) s tr)
    (other : k.Checks = false) : Settled s := by
  rcases balanced.settled with settled | ⟨_, ⟨⟩, checks⟩
  · exact settled
  · rw [other] at checks
    contradiction

/-- An event that concerns no request. -/
theorem Accounts.record {s : Adapter} {tr : History} (accounts : Accounts ks s tr)
    {l : Label Deed Outside Method (Option Bool)} {s' : Adapter}
    (keeps : awaits (after awaits false tr) (l, s') = after awaits false tr)
    (harmless : misses (after awaits false tr) (l, s') = false) : Accounts ks s (tr ++ [(l, s')]) := by
  constructor
  · exact accounts.alone
  · exact accounts.pending
  · rw [after_append]
    exact keeps.trans accounts.awaited
  · exact accounts.relies
  · exact never_snoc.mpr ⟨accounts.accounted, harmless⟩

theorem Accounts.entered {s : Adapter} {tr : History} (accounts : Accounts ks s tr) {h : Method}
    (other : h ≠ .cancelPowerRequest) : Accounts ks s (tr ++ [(.entered h, s)]) := by
  refine accounts.record ?_ rfl
  cases h with
  | cancelPowerRequest => exact absurd rfl other
  | _ => rfl

theorem Accounts.did {s : Adapter} {tr : History} (accounts : Accounts ks s tr) (deed : Deed) (s' : Adapter) :
    Accounts ks s (tr ++ [(.did deed, s')]) := accounts.record rfl rfl

/-- A call that answers no request. -/
theorem Accounts.push {s : Adapter} {tr : History} (accounts : Accounts ks s tr) {k : Outside}
    (relies : k.Relies s) (other : ∀ site requested, k ≠ .powerNotify site false requested)
    (first : k = .setStateIdle .submitWait → ∀ below ∈ ks, below ≠ .setStateIdle .submitWait) :
    Accounts (k :: ks) s (tr ++ [(.called k, s)]) := by
  have recorded : Accounts ks s (tr ++ [(.called k, s)]) := by
    cases k with
    | powerNotify site on requested =>
      cases on with
      | true => cases site <;> exact accounts.record rfl rfl
      | false => exact absurd rfl (other site requested)
    | _ => exact accounts.record rfl rfl
  constructor
  · exact recorded.alone.cons fun below member waits => first waits below member
  · exact recorded.pending
  · exact recorded.awaited
  · rintro k' (_ | ⟨_, member⟩)
    · exact relies
    · exact recorded.relies k' member
  · exact recorded.accounted

/-- While it moves on as it may, libncicore gives the waiting handlers what they rely on. -/
theorem Outside.Relies.moved {k : Outside} {s : Adapter} {w : Change} (relies : k.Relies s)
    (admitted : k.Admits s w = true) (io : Sys) :
    k.Relies { s with currentState := w.currentState, nextState := w.nextState, io } := by
  cases k with
  | currentStateChanged | nextStateChanged | restart | powerNotify => trivial
  | setStateIdle site =>
    cases site with
    | reset => exact relies
    | submitOn => trivial
    | stateCheck =>
      have idle : w.currentState ≤ NciStates.idle := of_decide_eq_true admitted
      exact idle
    | submitOff =>
      have idle : w.currentState ≤ NciStates.idle := of_decide_eq_true admitted
      exact ⟨relies.1, idle⟩
    | submitWait =>
      refine ⟨relies.1, relies.2.1, ?_⟩
      simp only [Outside.Admits, Bool.and_eq_true, Bool.or_eq_true, decide_eq_true_eq] at admitted
      obtain ⟨(same | idle) | error, failed⟩ := admitted
      · change NciStates.idle < w.currentState ∧ s.powerOn = true ∨ w.currentState = NciStates.idle ∨
          w.currentState = NciStates.error ∧ w.nextState = NciStates.error
        rw [same] at failed ⊢
        rcases relies.2.2 with busy | idle | ⟨error, _⟩
        · exact .inl busy
        · exact .inr (.inl idle)
        · exact .inr (.inr ⟨error, failed.resolve_left (absurd error)⟩)
      · exact .inr (.inl idle)
      · exact .inr (.inr ⟨error, failed.resolve_left (absurd error)⟩)

/-- Turning power off where libncicore is idle leaves the waiting handlers what they rely on. -/
theorem Outside.Relies.off {k : Outside} {s : Adapter} (relies : k.Relies s)
    (idle : s.currentState ≤ NciStates.idle) (io : Sys) :
    k.Relies { s with powerOn := false, powerSwitchPending := false, io } := by
  cases k with
  | currentStateChanged | nextStateChanged | restart | powerNotify => trivial
  | setStateIdle site =>
    cases site with
    | reset => exact relies
    | submitOn => trivial
    | stateCheck => exact relies
    | submitOff => exact ⟨rfl, relies.2⟩
    | submitWait =>
      refine ⟨relies.1, rfl, .inr (relies.2.2.resolve_left ?_)⟩
      rintro ⟨busy, _⟩
      exact absurd busy (Int.not_lt.mpr idle)

/-- So does what requests do while libncicore stays where it is, as long as power is not
needed again and nothing becomes pending where that matters. -/
theorem Outside.Relies.kept {k : Outside} {s s' : Adapter} (relies : k.Relies s)
    (current : s'.currentState = s.currentState) (next : s'.nextState = s.nextState)
    (on : s.powerOn = true → s'.powerOn = true)
    (pending : s'.powerSwitchPending = true → s.powerSwitchPending = true ∨
      NciStates.idle < s.currentState ∧ k ≠ .setStateIdle .submitWait)
    (need : k = .setStateIdle .submitWait → s'.needPower = true → s.needPower = true) : k.Relies s' := by
  cases k with
  | currentStateChanged | nextStateChanged | restart | powerNotify => trivial
  | setStateIdle site =>
    cases site with
    | reset => exact relies
    | submitOn => trivial
    | stateCheck =>
      change s'.currentState ≤ NciStates.idle
      rw [current]
      exact relies
    | submitOff =>
      obtain ⟨none, idle⟩ := relies
      refine ⟨Bool.eq_false_iff.mpr fun waits => ?_, current ▸ idle⟩
      rcases pending waits with waits | ⟨busy, _⟩
      · simp [none] at waits
      · exact absurd busy (Int.not_lt.mpr idle)
    | submitWait =>
      obtain ⟨unneeded, none, moved⟩ := relies
      refine ⟨Bool.eq_false_iff.mpr fun needed => ?_, Bool.eq_false_iff.mpr fun waits => ?_, ?_⟩
      · have before := need rfl needed
        simp [unneeded] at before
      · rcases pending waits with waits | ⟨_, other⟩
        · simp [none] at waits
        · exact other rfl
      · rw [current, next]
        exact moved.imp_left fun ⟨busy, powered⟩ => ⟨busy, on powered⟩

theorem settled_needed {s : Adapter} (need : s.needPower = true) : Settled s := by
  intro _ none
  rw [need] at none
  contradiction

theorem settled_off {s : Adapter} (off : s.powerOn = false) : Settled s := by
  intro on
  rw [off] at on
  contradiction

/-- Power is off and nfcd is told so. -/
theorem Accounted.notify {s : Adapter} {tr : History} (accounted : Accounted tr) (alone : Alone ks)
    (relies : ∀ k ∈ ks, k.Relies s) (off : s.powerOn = false) (idle : s.powerSwitchPending = false)
    {site : Site} {requested : Bool} (answered : requested = true ∨ after awaits false tr = false)
    (timely : misses (after awaits false tr) (.called (.powerNotify site false requested), s) = false) :
    Balanced (.powerNotify site false requested :: ks) s
      (tr ++ [(.called (.powerNotify site false requested), s)]) := by
  apply Balanced.mk
  · constructor
    · exact alone.cons fun _ _ => nofun
    · rw [idle]
      exact nofun
    · rw [idle, after_append]
      cases requested with
      | true => rfl
      | false => exact answered.resolve_left nofun
    · rintro k (_ | ⟨_, member⟩)
      · trivial
      · exact relies k member
    · exact never_snoc.mpr ⟨accounted, timely⟩
  · exact .inl (settled_off off)

/-- Power is turned off by a callback, which answers the request that waits if there is
one, or by a request, and then none waits. -/
theorem Accounts.off {s : Adapter} {tr : History} (accounts : Accounts ks s tr)
    (idle : s.currentState ≤ NciStates.idle) {site : Site} {requested : Bool}
    (reply : site = .stateCheck ∧ requested = s.powerSwitchPending ∨
      site = .submitOff ∧ requested = true ∧ s.powerSwitchPending = false) {pending : Bool}
    (cleared : pending = false) (env : PowerEnv) (io : Sys) :
    let after := { s with powerOn := false, powerSwitchPending := pending, io }
    Balanced (.powerNotify site false requested :: ks) after (tr ++ offTrace site requested env s io after) := by
  subst cleared
  intro s'
  have switched := (accounts.did (.setPower site false env) s).did (.powerOn false) { s with io }
  have relies : ∀ k ∈ ks, k.Relies s' := fun k member => (accounts.relies k member).off idle io
  change Balanced _ s' (tr ++ ([_] ++ ([_] ++ [_])))
  rw [← List.append_assoc, ← List.append_assoc]
  apply switched.accounted.notify accounts.alone relies rfl rfl
  · rw [switched.awaited]
    rcases reply with ⟨_, rfl⟩ | ⟨_, requested, _⟩
    · cases s.powerSwitchPending <;> simp
    · exact .inl requested
  · rw [switched.awaited]
    rcases reply with ⟨rfl, rfl⟩ | ⟨rfl, rfl, none⟩
    · cases s.powerSwitchPending with
      | true => simpa [misses] using idle
      | false => rfl
    · exact none

theorem stateCheck_accounts {s : Adapter} {tr : History} {Q : Unit → Adapter → History → Prop}
    (accounts : Accounts ks s tr) (finish : ∀ s tr, Accounts ks s tr → Settled s → Q () s tr) :
    nfcAdapterStateCheck.Meets (fun _ _ => True) (fun k => Balanced (k :: ks)) Q s tr := by
  apply stateCheck_meets
  · exact finish s tr accounts
  · intro _ _ idle
    exact ⟨accounts.push (Int.le_of_eq idle) (by simp) nofun, .inr ⟨_, rfl, rfl⟩⟩
  · intro s' tr' before env ok io _ _ _
    rcases before with ⟨rfl, rfl, _, _, below⟩ | closed
    · exact accounts.off (Int.le_of_lt below) (.inl ⟨rfl, rfl⟩) rfl env io
    · have idle : s'.currentState ≤ NciStates.idle := closed.relies _ (.head _)
      exact closed.pop.off idle (.inl ⟨rfl, rfl⟩) rfl env io
  · exact fun _ s tr now => finish s tr now.pop (now.rests rfl)

/-- A callback returns having left nothing to do. -/
theorem Accounts.returned {s : Adapter} {tr : History} (accounts : Accounts ks s tr) (settled : Settled s)
    {h : Method} (callback : h.Callback = true) :
    Balanced ks s (tr ++ [(.returned h none, s)]) := by
  have keeps : after awaits false (tr ++ [(.returned h none, s)]) = after awaits false tr := by
    rw [after_append]
    cases h with
    | submitPowerRequest | cancelPowerRequest => contradiction
    | _ => rfl
  have timely : misses (after awaits false tr) (.returned h none, s) = false := by
    rw [accounts.awaited]
    cases waits : s.powerSwitchPending with
    | false => simp [misses]
    | true =>
      obtain ⟨on, need⟩ := accounts.pending waits
      simpa [misses, callback] using settled on need
  apply Balanced.mk
  · constructor
    · exact accounts.alone
    · exact accounts.pending
    · exact keeps.trans accounts.awaited
    · exact accounts.relies
    · exact never_snoc.mpr ⟨accounts.accounted, timely⟩
  · exact .inl settled

/-- A request returns what is pending, and forgets no other. -/
theorem Accounted.returned {s : Adapter} {tr : History} (accounted : Accounted tr) (alone : Alone ks)
    (pending : s.powerSwitchPending = true → s.powerOn = true ∧ s.needPower = false)
    (relies : ∀ k ∈ ks, k.Relies s) (settled : Settled s)
    (kept : s.powerSwitchPending = false → after awaits false tr = false) (on : Bool) {result : Bool}
    (same : result = s.powerSwitchPending) :
    Balanced ks s (tr ++ [(.returned (.submitPowerRequest on) (some result), s)]) := by
  subst same
  apply Balanced.mk
  · constructor
    · exact alone
    · exact pending
    · rw [after_append]
      change (some s.powerSwitchPending == some true) = s.powerSwitchPending
      cases s.powerSwitchPending <;> rfl
    · exact relies
    · apply never_snoc.mpr ⟨accounted, ?_⟩
      cases waits : s.powerSwitchPending with
      | true => simp [misses, Method.Callback]
      | false => simp [misses, kept waits]
  · exact .inl settled

theorem Accounts.submitted {s : Adapter} {tr : History} (accounts : Accounts ks s tr) (settled : Settled s)
    (on : Bool) {result : Bool} (same : result = s.powerSwitchPending) :
    Balanced ks s (tr ++ [(.returned (.submitPowerRequest on) (some result), s)]) :=
  accounts.accounted.returned accounts.alone accounts.pending accounts.relies settled accounts.awaited.trans on same

/-- While nothing is pending, a request may be made. -/
theorem Accounts.request {s : Adapter} {tr : History} (accounts : Accounts ks s tr) (s' : Adapter)
    (relies : ∀ k ∈ ks, k.Relies s') (idle : s.powerSwitchPending = false)
    (same : s'.powerSwitchPending = s.powerSwitchPending) : Accounts ks s' tr := by
  constructor
  · exact accounts.alone
  · rw [same, idle]
    exact nofun
  · rw [same, accounts.awaited]
  · exact relies
  · exact accounts.accounted

theorem submitOn_accounts {s : Adapter} {tr : History} (accounts : Accounts ks s tr)
    (free : ∀ k ∈ ks, k ≠ .setStateIdle .submitWait) :
    (nfcAdapterSubmitPowerRequest true).Meets (fun _ _ => True) (fun k => Balanced (k :: ks))
      (fun pending s tr => Balanced ks s (tr ++ [(.returned (.submitPowerRequest true) (some pending), s)]))
      s tr := by
  have asked (idle : s.powerSwitchPending = false) (on : Bool) (kept : s.powerOn = true → on = true) (io : Sys) :
      Accounts ks { s with needPower := true, powerOn := on, io } tr := by
    refine accounts.request _ (fun k member => ?_) idle rfl
    exact (accounts.relies k member).kept rfl rfl kept .inl fun same => absurd same (free k member)
  apply submitOn_meets
  · intro idle _ _
    exact ⟨(asked idle s.powerOn (fun on => on) s.io).push trivial (by simp) nofun, .inl (settled_needed rfl)⟩
  · intro idle _ request env io _ _ _ after
    have switched := ((asked idle true (fun _ => rfl) io).did (.setPower .submitOn true env) request).did
      (.powerOn true) { request with io }
    have restarts := switched.push (k := .restart) trivial (by simp) nofun
    simp only [List.append_assoc, List.cons_append, List.nil_append] at restarts
    exact ⟨restarts, .inl (settled_needed rfl)⟩
  · intro idle _ request env io _ _
    have failed := (asked idle s.powerOn (fun on => on) io).did (.setPower .submitOn true env) request
    exact failed.submitted (settled_needed rfl) true idle.symm
  · rintro s tr (now | now) <;> exact ⟨now.pop.push trivial (by simp) nofun, .inl (now.rests rfl)⟩
  · exact fun s tr now => now.pop.submitted (now.rests rfl) true rfl

theorem submitOff_accounts {s : Adapter} {tr : History} (accounts : Accounts ks s tr)
    (free : s.powerOn = true → NciStates.idle < s.currentState → ∀ k ∈ ks, k ≠ .setStateIdle .submitWait) :
    (nfcAdapterSubmitPowerRequest false).Meets (fun _ _ => True) (fun k => Balanced (k :: ks))
      (fun pending s tr => Balanced ks s (tr ++ [(.returned (.submitPowerRequest false) (some pending), s)]))
      s tr := by
  have request (idle : s.powerSwitchPending = false) : Accounts ks { s with needPower := false } tr := by
    refine accounts.request _ (fun k member => ?_) idle rfl
    exact (accounts.relies k member).kept rfl rfl (fun on => on) .inl nofun
  apply submitOff_meets
  · intro idle off asked
    have now := request idle
    exact now.accounted.notify now.alone now.relies off idle (.inl rfl) (now.awaited.trans idle)
  · intro idle on same asked
    exact ⟨(request idle).push ⟨idle, Int.le_of_eq same⟩ (by simp) nofun, .inr ⟨_, rfl, rfl⟩⟩
  · intro s' tr' before env ok io _ _ _
    have off : s'.powerSwitchPending = false ∧ s'.currentState ≤ NciStates.idle ∧ Accounts ks s' tr' := by
      rcases before with ⟨rfl, rfl, idle, _, below⟩ | closed
      · exact ⟨idle, Int.le_of_lt below, request idle⟩
      · obtain ⟨idle, low⟩ := closed.relies _ (.head _)
        exact ⟨idle, low, closed.pop⟩
    exact off.2.2.off off.2.1 (.inr ⟨rfl, rfl, off.1⟩) off.1 env io
  · exact fun s tr now => now.pop.submitted (now.rests rfl) false rfl
  · intro idle on busy asked
    exact ⟨(request idle).push ⟨rfl, idle, .inl ⟨busy, on⟩⟩ (by simp) fun _ => free on busy,
      .inl fun _ _ => busy⟩
  · intro s' tr' now pending
    obtain ⟨need, none, moved⟩ := now.relies _ (.head _)
    -- if the switch is pending now, libncicore has been busy all the time
    have busy (waits : pending = true) : NciStates.idle < s'.currentState ∧ s'.powerOn = true := by
      obtain ⟨busy, idle⟩ : s'.currentState ≠ NciStates.idle ∧ s'.nextState = NciStates.idle :=
        of_decide_eq_true waits
      rcases moved with busy | same | ⟨_, failed⟩
      · exact busy
      · exact absurd same busy
      · exact absurd (failed.symm.trans idle) NciStates.error_ne_idle
    refine now.accounted.returned (s := { s' with powerSwitchPending := pending }) now.pop.alone ?_ ?_
      (now.rests rfl) (fun _ => now.awaited.trans none) false rfl
    · exact fun waits => ⟨(busy waits).2, need⟩
    · intro k member
      have other := List.rel_of_pairwise_cons now.alone member rfl
      exact (now.relies k (.tail _ member)).kept rfl rfl (fun on => on)
        (fun waits => .inr ⟨(busy waits).1, other⟩) fun _ need => need

theorem adapter_balances :
    Stable adapter (fun ks s a => Accounting ks s a && Undisturbed ks s a) (fun _ _ => True) Balanced := by
  constructor
  · intro ks s s' tr w h before ruled changed
    obtain ⟨io, _, _, rfl⟩ := change_ok changed
    simp only [Accounting, Undisturbed, Bool.and_eq_true, List.all_eq_true, Bool.or_eq_true, Bool.not_eq_true',
      decide_eq_true_eq] at ruled
    obtain ⟨⟨admitted, _⟩, calm⟩ := ruled
    have now : Accounts ks { s with currentState := w.currentState, nextState := w.nextState, io } tr :=
      ⟨before.alone, before.pending, before.awaited,
        fun k member => (before.relies k member).moved (admitted k member) io, before.accounted⟩
    cases h with
    | currentStateChanged =>
      have entered := now.entered (h := .currentStateChanged) (by simp)
      rw [meets_currentStateChanged]
      apply currentStateChanged_meets
      · exact ⟨entered.push trivial (by simp) nofun, .inr ⟨_, rfl, rfl⟩⟩
      · exact fun s tr now => stateCheck_accounts now.pop fun s tr now settled => now.returned settled rfl
    | nextStateChanged =>
      have entered := now.entered (h := .nextStateChanged) (by simp)
      rw [meets_nextStateChanged]
      apply nextStateChanged_meets
      · exact ⟨entered.push trivial (by simp) nofun, .inr ⟨_, rfl, rfl⟩⟩
      · intro s tr now _ _ env ok io _ _ env' ok' io' _ _
        refine stateCheck_accounts ?_ fun s tr now settled => now.returned settled rfl
        have reset := (now.pop.did (.setPower .reset false env) s).did (.setPower .reset true env') { s with io }
        simp only [List.append_assoc, List.cons_append, List.nil_append] at reset
        refine ⟨reset.alone, reset.pending, reset.awaited, fun k member => ?_, reset.accounted⟩
        exact (reset.relies k member).kept rfl rfl (fun on => on) .inl fun _ need => need
      · exact fun s tr now => stateCheck_accounts now.pop fun s tr now settled => now.returned settled rfl
    | submitPowerRequest on =>
      have entered := now.entered (h := .submitPowerRequest on) (by simp)
      rw [meets_submitPowerRequest]
      cases on with
      | true =>
        refine submitOn_accounts entered ?_
        rcases calm with (callback | calm) | ⟨other, _⟩
        · contradiction
        · exact calm
        · exact absurd rfl other
      | false =>
        refine submitOff_accounts entered fun on busy => ?_
        rcases calm with (callback | calm) | ⟨_, off | ⟨_, idle⟩⟩
        · contradiction
        · exact calm
        · exact absurd (off.symm.trans on) nofun
        · exact absurd busy (Int.not_lt.mpr idle)
    | cancelPowerRequest =>
      rw [meets_cancelPowerRequest]
      refine ⟨⟨before.alone, nofun, ?_, fun k member => ?_, ?_⟩, .inl fun on need => ?_⟩
      · rw [after_append, after_append]
        rfl
      · refine (now.relies k member).kept rfl rfl (fun on => on) nofun fun waits on => ?_
        rcases calm with (callback | calm) | ⟨_, off | ⟨submit, _⟩⟩
        · contradiction
        · exact absurd waits (calm k member)
        · exact absurd (off.symm.trans on) nofun
        · contradiction
      · refine never_snoc.mpr ⟨never_snoc.mpr ⟨before.accounted, rfl⟩, ?_⟩
        rw [after_append]
        rfl
      · exact absurd (on.symm.trans need) (by simp)
  · intro k ks s s' tr w before ruled changed
    obtain ⟨io, _, _, rfl⟩ := change_ok changed
    simp only [Accounting, Undisturbed, Bool.and_eq_true, List.all_eq_true, Bool.or_eq_true, decide_eq_true_eq,
      List.head?_cons, Option.any_some, and_true, Bool.not_eq_true'] at ruled
    obtain ⟨admitted, seen⟩ := ruled
    refine ⟨⟨before.alone, before.pending, before.awaited,
      fun k member => (before.relies k member).moved (admitted k member) io, before.accounted⟩, ?_⟩
    rcases before.settled with settled | ⟨_, ⟨⟩, checks⟩
    · rcases seen with ((same | off) | need) | checks
      · refine .inl fun on need => ?_
        change NciStates.idle < w.currentState
        rw [same]
        exact settled on need
      · exact .inl (settled_off off)
      · exact .inl (settled_needed need)
      · exact .inr ⟨k, rfl, checks⟩
    · exact .inr ⟨k, rfl, checks⟩

/-- Requests that wait are accounted for in every run; and when no handler is running,
one that is pending has power on and not needed, power on and not needed means that
libncicore is busy, and pending is what was awaited last. -/
theorem power_requests_accounted {self : Adapter} {path : List Turn} {c : Situation}
    (created : nfcAdapterNew env currentState nextState = .ok (some self))
    (ruled : adapter.Under (fun ks s a => Accounting ks s a && Undisturbed ks s a) { state := self } path)
    (ran : adapter.moves { state := self } path = .ok c) :
    Accounted c.trace ∧ (c.calls = [] →
      (c.state.powerSwitchPending = true → c.state.powerOn = true ∧ c.state.needPower = false) ∧
      (c.state.powerOn = true → c.state.needPower = false → NciStates.idle < c.state.currentState) ∧
      c.state.powerSwitchPending = after awaits false c.trace) := by
  have initial : Balanced [] self [] := by
    obtain ⟨io, _, same⟩ := bind_ok.mp created
    cases io with
    | none => exact absurd (pure_ok.mp same) (by simp)
    | some io =>
      obtain rfl := Option.some.inj (pure_ok.mp same)
      exact ⟨⟨.nil, nofun, rfl, nofun, trivial⟩, .inl (settled_off rfl)⟩
  have balanced := adapter_balances.run initial ruled ran fun _ _ _ => trivial
  refine ⟨balanced.accounted, fun quiet => ⟨balanced.pending, ?_, balanced.awaited.symm⟩⟩
  rcases balanced.settled with settled | ⟨k, top, _⟩
  · exact settled
  · rw [quiet] at top
    contradiction

end

/-- libncicore discovers, and power is asked to be off, which has to wait. -/
def offWaits : List Turn :=
  onAndOff.dropLast ++ [.enter ⟨4, 4, []⟩ .currentStateChanged, .leave ⟨4, 4, []⟩,
    .enter ⟨4, 4, []⟩ (.submitPowerRequest false), .enter ⟨4, 3, []⟩ .nextStateChanged,
    .leave ⟨4, 3, []⟩].map Act.works

/-- The request is answered when libncicore is idle. -/
theorem power_requests_accounted_wait : ∃ c, (@adapter .listed).moves
      { state := { currentState := 0, nextState := 0, io := .fresh } }
      (offWaits ++ [.leave ⟨4, 3, []⟩, .enter ⟨3, 3, []⟩ .currentStateChanged,
        .leave ⟨3, 3, []⟩, .leave ⟨3, 3, []⟩, .leave ⟨3, 3, []⟩].map Act.works) = .ok c ∧
      c.calls = [] ∧ @Accounted .listed c.trace ∧ c.state.powerSwitchPending = after awaits false c.trace := by
  refine ⟨_, rfl, rfl, ?_⟩
  have whole := @power_requests_accounted .listed ⟨some 3, true⟩ 0 0
    { currentState := 0, nextState := 0, io := .fresh }
    (offWaits ++ [.leave ⟨4, 3, []⟩, .enter ⟨3, 3, []⟩ .currentStateChanged,
      .leave ⟨3, 3, []⟩, .leave ⟨3, 3, []⟩, .leave ⟨3, 3, []⟩].map Act.works) _ rfl (by decide) rfl
  exact ⟨whole.1, (whole.2 rfl).2.2⟩

/-- The request is cancelled before libncicore has returned to it, and it is pending all
the same although power is needed. -/
theorem power_request_overwritten : ¬ ∀ (_ : NciStates) (env : PowerEnv) (currentState nextState : Int)
    (self : Adapter) (path : List Turn) (c : Situation),
    nfcAdapterNew env currentState nextState = .ok (some self) →
    adapter.Under Accounting { state := self } path →
    adapter.moves { state := self } path = .ok c →
    Accounted c.trace ∧ (c.calls = [] →
      (c.state.powerSwitchPending = true → c.state.powerOn = true ∧ c.state.needPower = false) ∧
      (c.state.powerOn = true → c.state.needPower = false → NciStates.idle < c.state.currentState) ∧
      c.state.powerSwitchPending = after awaits false c.trace) := by
  intro all
  have whole := all .listed ⟨some 3, true⟩ 0 0 { currentState := 0, nextState := 0, io := .fresh }
    (offWaits ++ [.enter ⟨4, 3, []⟩ .cancelPowerRequest, .leave ⟨4, 3, []⟩].map Act.works) _ rfl (by decide) rfl
  exact absurd ((whole.2 rfl).1 rfl).2 (by decide)

end Pn54x
