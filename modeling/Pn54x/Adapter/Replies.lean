import Pn54x.Adapter.Guard

/-! Requests and replies. A reply always answers the request that is open, with what was
requested, and no request is left open without a reason. -/
namespace Pn54x
open Reentrant Transition Monitor

/-- What is requested by the request that waits in a call, if there is one; nothing, once the
call is its reply. -/
def Outside.request : Outside → Option (Option Bool)
  | .setStateIdle .submitOn | .restart => some (some true)
  | .setStateIdle .submitOff | .setStateIdle .submitWait => some (some false)
  | .powerNotify .submitOn _ _ | .powerNotify .submitOff _ _ => some none
  | _ => none

/-- The request that is open: neither answered nor cancelled, nor returned from for good. -/
def asks : Option Bool → Label Deed Outside Method (Option Bool) × Adapter → Option Bool
  | _, (.entered (.submitPowerRequest on), _) => some on
  | _, (.called (.powerNotify _ _ true), _) => none
  | _, (.entered .cancelPowerRequest, _) => none
  | _, (.returned (.submitPowerRequest _) (some false), _) => none
  | request, _ => request

/-- Requests are made and cancelled one at a time: from the main loop or while the adapter
calls out of a callback, but not while it calls out of another request. -/
def Serial (ks : List Outside) (_ : Adapter) : Act Method Change → Bool
  | .enter _ h => h.Callback || ks.all (·.request.isNone)
  | .leave _ => true

/-- The open request, by what is pending. -/
def asking (ks : List Outside) (pending : Bool) : Option Bool :=
  (ks.findSome? Outside.request).getD (if pending then some false else none)

theorem asking_none {ks : List Outside} (free : ∀ k ∈ ks, k.request = none) (pending : Bool) :
    asking ks pending = if pending then some false else none := by
  rw [asking, List.findSome?_eq_none_iff.mpr free]
  rfl

theorem asking_other {k : Outside} (other : k.request = none) (ks : List Outside) (pending : Bool) :
    asking (k :: ks) pending = asking ks pending := by
  simp [asking, other]

theorem asking_own {k : Outside} (own : k.request = some request) (ks : List Outside) (pending : Bool) :
    asking (k :: ks) pending = request := by
  simp [asking, own]

section
variable [NciStates]

/-- A reply is made to no request or not with what was requested; a request is returned from
as one that waits although it was answered or is for power; or it is returned from unanswered
although power was turned on, or although libncicore is on its way to be idle. -/
def slips : Option Bool → Label Deed Outside Method (Option Bool) × Adapter → Bool
  | request, (.called (.powerNotify _ on true), _) => request ≠ some on
  | request, (.returned (.submitPowerRequest on) (some true), _) => on || request ≠ some false
  | request, (.returned (.submitPowerRequest on) (some false), s) => request.isSome &&
      if on then s.powerOn else s.currentState ≠ NciStates.idle && s.nextState = NciStates.idle
  | _, _ => false

/-- Every reply answers a request, and every request is answered, waits, or has failed. -/
def Replied (tr : History) : Prop := Never asks slips none tr

instance : DecidablePred Replied := fun _ => inferInstanceAs (Decidable (Never _ _ _ _))

/-- What holds wherever the adapter is entered or calls. -/
structure Replies (ks : List Outside) (s : Adapter) (tr : History) : Prop where
  asked : after asks none tr = asking ks s.powerSwitchPending
  calm : s.powerSwitchPending = true → ∀ k ∈ ks, k.request = none
  single : ks.Pairwise fun k below => below.request.isSome = true → k.request = none
  replied : Replied tr

/-- Below a request no other request waits. -/
theorem Replies.below {k : Outside} {s : Adapter} {tr : History} (replies : Replies (k :: ks) s tr)
    (own : k.request = some request) : ∀ below ∈ ks, below.request = none := by
  intro below member
  cases waits : below.request with
  | none => rfl
  | some other =>
    have none := List.rel_of_pairwise_cons replies.single member (by rw [waits]; rfl)
    rw [own] at none
    contradiction

/-- An event that concerns no request. -/
theorem Replies.record {s : Adapter} {tr : History} (replies : Replies ks s tr)
    {l : Label Deed Outside Method (Option Bool)} {s' : Adapter}
    (keeps : asks (after asks none tr) (l, s') = after asks none tr)
    (harmless : slips (after asks none tr) (l, s') = false) : Replies ks s (tr ++ [(l, s')]) := by
  refine ⟨?_, replies.calm, replies.single, never_snoc.mpr ⟨replies.replied, harmless⟩⟩
  rw [after_append]
  exact keeps.trans replies.asked

theorem Replies.same {s s' : Adapter} {tr : History} (replies : Replies ks s tr)
    (same : s'.powerSwitchPending = s.powerSwitchPending) : Replies ks s' tr := by
  refine ⟨?_, ?_, replies.single, replies.replied⟩
  · rw [same]
    exact replies.asked
  · rw [same]
    exact replies.calm

/-- A call that belongs to no request. -/
theorem Replies.push {s : Adapter} {tr : History} (replies : Replies ks s tr) {k : Outside}
    (other : k.request = none) (silent : ∀ site on, k ≠ .powerNotify site on true) :
    Replies (k :: ks) s (tr ++ [(.called k, s)]) := by
  have recorded : Replies ks s (tr ++ [(.called k, s)]) := by
    cases k with
    | powerNotify site on requested =>
      cases requested with
      | true => exact absurd rfl (silent site on)
      | false => exact replies.record rfl rfl
    | _ => exact replies.record rfl rfl
  refine ⟨?_, ?_, .cons (fun _ _ _ => other) recorded.single, recorded.replied⟩
  · rw [asking_other other]
    exact recorded.asked
  · rintro pending k' (_ | ⟨_, member⟩)
    · exact other
    · exact recorded.calm pending k' member

theorem Replies.pop {k : Outside} {s : Adapter} {tr : History} (replies : Replies (k :: ks) s tr)
    (other : k.request = none) : Replies ks s tr := by
  refine ⟨?_, fun pending k member => replies.calm pending k (.tail _ member), replies.single.of_cons,
    replies.replied⟩
  rw [replies.asked, asking_other other]

/-- A callback notifies nfcd that power is off, which is a reply if a request waits for it. -/
theorem Replies.notify {s s' : Adapter} {tr : History} (replies : Replies ks s tr)
    (pending : s.powerSwitchPending = requested) (cleared : s'.powerSwitchPending = false) :
    Replies (.powerNotify .stateCheck false requested :: ks) s'
      (tr ++ [(.called (.powerNotify .stateCheck false requested), s')]) := by
  cases requested with
  | false => exact (replies.same (cleared.trans pending.symm)).push rfl (by simp)
  | true =>
    have free : ∀ k ∈ ks, k.request = none := replies.calm pending
    have asked : after asks none tr = some false := by
      rw [replies.asked, asking_none free, pending]
      rfl
    refine ⟨?_, ?_, .cons (fun _ _ _ => rfl) replies.single, never_snoc.mpr ⟨replies.replied, ?_⟩⟩
    · rw [after_append, asking_other rfl, asking_none free, cleared]
      rfl
    · rw [cleared]
      exact nofun
    · simp [slips, asked]

theorem Replies.off {s : Adapter} {tr : History} (replies : Replies ks s tr) (env : PowerEnv) (io : Sys) :
    let after := { s with powerOn := false, powerSwitchPending := false, io }
    Replies (.powerNotify .stateCheck false s.powerSwitchPending :: ks) after
      (tr ++ offTrace .stateCheck s.powerSwitchPending env s io after) := by
  intro s'
  have switched : Replies ks s (tr ++ [(.did (.setPower .stateCheck false env), s)] ++
      [(.did (.powerOn false), { s with io })]) := Replies.record (Replies.record replies rfl rfl) rfl rfl
  change Replies _ s' (tr ++ ([_] ++ ([_] ++ [_])))
  rw [← List.append_assoc, ← List.append_assoc]
  exact switched.notify rfl rfl

theorem stateCheck_replies {s : Adapter} {tr : History} {Q : Unit → Adapter → History → Prop}
    (replies : Replies ks s tr) (finish : ∀ s tr, Replies ks s tr → Q () s tr) :
    nfcAdapterStateCheck.Meets (fun _ _ => True) (fun k => Replies (k :: ks)) Q s tr := by
  apply stateCheck_meets
  · exact fun _ => finish s tr replies
  · exact fun _ _ _ => replies.push rfl (by simp)
  · intro s' tr' before env ok io _ _ _
    rcases before with ⟨rfl, rfl, _⟩ | closed
    · exact replies.off env io
    · exact (closed.pop rfl).off env io
  · exact fun requested s tr now => finish s tr (now.pop rfl)

/-- A request runs, which is open or was answered, and nothing waits. -/
structure Opened (ks : List Outside) (s : Adapter) (tr : History) (request : Option Bool) : Prop where
  asked : after asks none tr = request
  idle : s.powerSwitchPending = false
  free : ∀ k ∈ ks, k.request = none
  single : ks.Pairwise fun k below => below.request.isSome = true → k.request = none
  replied : Replied tr

/-- A call of a request returns to it. -/
theorem Replies.opened {k : Outside} {s : Adapter} {tr : History} (replies : Replies (k :: ks) s tr)
    (own : k.request = some request) : Opened ks s tr request := by
  refine ⟨?_, ?_, replies.below own, replies.single.of_cons, replies.replied⟩
  · rw [replies.asked, asking_own own]
  · cases pending : s.powerSwitchPending with
    | false => rfl
    | true =>
      have none := replies.calm pending k (.head _)
      rw [own] at none
      contradiction

theorem Replies.enter {s : Adapter} {tr : History} (replies : Replies ks s tr) (free : ∀ k ∈ ks, k.request = none)
    (idle : s.powerSwitchPending = false) (on : Bool) :
    Opened ks s (tr ++ [(.entered (.submitPowerRequest on), s)]) (some on) := by
  refine ⟨?_, idle, free, replies.single, never_snoc.mpr ⟨replies.replied, rfl⟩⟩
  rw [after_append]
  rfl

theorem Opened.did {s : Adapter} {tr : History} (opened : Opened ks s tr request) (deed : Deed) (s' : Adapter) :
    Opened ks s (tr ++ [(.did deed, s')]) request := by
  refine ⟨?_, opened.idle, opened.free, opened.single, never_snoc.mpr ⟨opened.replied, rfl⟩⟩
  rw [after_append, opened.asked]
  rfl

theorem Opened.same {s s' : Adapter} {tr : History} (opened : Opened ks s tr request)
    (same : s'.powerSwitchPending = s.powerSwitchPending) : Opened ks s' tr request :=
  ⟨opened.asked, same.trans opened.idle, opened.free, opened.single, opened.replied⟩

/-- The request waits in a call. -/
theorem Opened.wait {k : Outside} {s : Adapter} {tr : History} (opened : Opened ks s tr request)
    (own : k.request = some request) : Replies (k :: ks) s tr := by
  refine ⟨?_, ?_, .cons (fun below member waits => ?_) opened.single, opened.replied⟩
  · rw [opened.asked, asking_own own]
  · rw [opened.idle]
    exact nofun
  · rw [opened.free below member] at waits
    contradiction

theorem Opened.call {k : Outside} {s : Adapter} {tr : History} (opened : Opened ks s tr request)
    (own : k.request = some request) (silent : ∀ site on, k ≠ .powerNotify site on true) :
    Replies (k :: ks) s (tr ++ [(.called k, s)]) := by
  refine Opened.wait ⟨?_, opened.idle, opened.free, opened.single, never_snoc.mpr ⟨opened.replied, ?_⟩⟩ own
  · rw [after_append, opened.asked]
    cases k with
    | powerNotify site on requested =>
      cases requested with
      | true => exact absurd rfl (silent site on)
      | false => rfl
    | _ => rfl
  · cases k with
    | powerNotify site on requested =>
      cases requested with
      | true => exact absurd rfl (silent site on)
      | false => rfl
    | _ => rfl

/-- And there it is answered. -/
theorem Opened.reply {s : Adapter} {tr : History} (opened : Opened ks s tr (some on)) {site : Site}
    (own : (Outside.powerNotify site on true).request = some none) :
    Replies (.powerNotify site on true :: ks) s (tr ++ [(.called (.powerNotify site on true), s)]) := by
  refine Opened.wait ⟨?_, opened.idle, opened.free, opened.single, never_snoc.mpr ⟨opened.replied, ?_⟩⟩ own
  · rw [after_append]
    rfl
  · simp [slips, opened.asked]

/-- A request is returned from for good: it was answered, or there was a reason not to. -/
theorem Opened.returned {s : Adapter} {tr : History} (opened : Opened ks s tr request)
    (on : Bool) (reason : request = none ∨ (if on then s.powerOn
      else s.currentState ≠ NciStates.idle && s.nextState = NciStates.idle) = false) :
    Replies ks s (tr ++ [(.returned (.submitPowerRequest on) (some false), s)]) := by
  refine ⟨?_, ?_, opened.single, never_snoc.mpr ⟨opened.replied, ?_⟩⟩
  · rw [after_append, asking_none opened.free, opened.idle]
    rfl
  · rw [opened.idle]
    exact nofun
  · rw [opened.asked]
    rcases reason with rfl | reason
    · rfl
    · change (request.isSome && _) = false
      rw [reason, Bool.and_false]

theorem submitOn_replies {s : Adapter} {tr : History} (replies : Replies ks s tr)
    (free : ∀ k ∈ ks, k.request = none) :
    (nfcAdapterSubmitPowerRequest true).Meets (fun _ _ => True) (fun k => Replies (k :: ks))
      (fun pending s tr => Replies ks s (tr ++ [(.returned (.submitPowerRequest true) (some pending), s)]))
      s (tr ++ [(.entered (.submitPowerRequest true), s)]) := by
  apply submitOn_meets
  · intro idle _ asked
    have opened : Opened ks asked _ (some true) := (replies.enter free idle true).same rfl
    exact opened.call rfl (by simp)
  · intro idle _ asked env io _ _ _ after
    have opened : Opened ks after _ (some true) := (replies.enter free idle true).same rfl
    have switched := (opened.did (.setPower .submitOn true env) asked).did (.powerOn true) { asked with io }
    have restarts : Replies (.restart :: ks) after _ := switched.call rfl (by simp)
    simpa only [List.append_assoc, List.cons_append, List.nil_append] using restarts
  · intro idle off asked env io _ _
    have opened : Opened ks { asked with io } _ (some true) := (replies.enter free idle true).same rfl
    exact (opened.did (.setPower .submitOn true env) asked).returned true (.inr off)
  · rintro s tr (now | now)
    · exact (now.opened rfl).reply rfl
    · exact (now.opened rfl).reply rfl
  · intro s tr now
    have opened : Opened ks s tr none := now.opened rfl
    rw [opened.idle]
    exact opened.returned true (.inl rfl)

theorem submitOff_replies {s : Adapter} {tr : History} (replies : Replies ks s tr)
    (free : ∀ k ∈ ks, k.request = none) :
    (nfcAdapterSubmitPowerRequest false).Meets (fun _ _ => True) (fun k => Replies (k :: ks))
      (fun pending s tr => Replies ks s (tr ++ [(.returned (.submitPowerRequest false) (some pending), s)]))
      s (tr ++ [(.entered (.submitPowerRequest false), s)]) := by
  apply submitOff_meets
  · intro idle _ asked
    have opened : Opened ks asked _ (some false) := (replies.enter free idle false).same rfl
    exact opened.reply rfl
  · intro idle _ _ asked
    have opened : Opened ks asked _ (some false) := (replies.enter free idle false).same rfl
    exact opened.call rfl (by simp)
  · intro s' tr' before env ok io _ _ _ after
    have opened : Opened ks after tr' (some false) := by
      rcases before with ⟨rfl, rfl, idle, _⟩ | closed
      · exact (replies.enter free idle false).same rfl
      · exact (closed.opened rfl).same rfl
    have switched := (opened.did (.setPower .submitOff false env) s').did (.powerOn false) { s' with io }
    have answered : Replies (.powerNotify .submitOff false true :: ks) after _ := switched.reply rfl
    simpa only [offTrace, List.append_assoc, List.cons_append, List.nil_append] using answered
  · intro s tr now
    have opened : Opened ks s tr none := now.opened rfl
    rw [opened.idle]
    exact opened.returned false (.inl rfl)
  · intro idle _ _ asked
    have opened : Opened ks asked _ (some false) := (replies.enter free idle false).same rfl
    exact opened.call rfl (by simp)
  · intro s tr now pending
    have opened : Opened ks s tr (some false) := now.opened rfl
    cases waits : pending with
    | false =>
      have reason : (s.currentState ≠ NciStates.idle && s.nextState = NciStates.idle : Bool) = false := by
        simpa [pending] using waits
      exact Opened.returned (opened.same opened.idle.symm) false (.inr reason)
    | true =>
      refine ⟨?_, fun _ => opened.free, opened.single, never_snoc.mpr ⟨opened.replied, ?_⟩⟩
      · rw [after_append, opened.asked, asking_none opened.free]
        rfl
      · rw [opened.asked]
        rfl

theorem Replies.entered {s : Adapter} {tr : History} (replies : Replies ks s tr) {h : Method}
    (callback : h.Callback = true) : Replies ks s (tr ++ [(.entered h, s)]) := by
  cases h with
  | submitPowerRequest | cancelPowerRequest => contradiction
  | _ => exact replies.record rfl rfl

theorem Replies.returned {s : Adapter} {tr : History} (replies : Replies ks s tr) {h : Method}
    (callback : h.Callback = true) (a : Option Bool) : Replies ks s (tr ++ [(.returned h a, s)]) := by
  cases h with
  | submitPowerRequest | cancelPowerRequest => contradiction
  | _ => exact replies.record rfl rfl

theorem adapter_replies : Stable adapter Serial (fun _ _ => True) Replies := by
  constructor
  · intro ks s s' tr w h before ruled changed
    obtain ⟨io, _, _, rfl⟩ := change_ok changed
    have now : Replies ks { s with currentState := w.currentState, nextState := w.nextState, io } tr :=
      before.same rfl
    simp only [Serial, Bool.or_eq_true, List.all_eq_true, Option.isNone_iff_eq_none] at ruled
    cases h with
    | currentStateChanged =>
      rw [meets_currentStateChanged]
      apply currentStateChanged_meets
      · exact (now.entered rfl).push rfl (by simp)
      · intro s tr now
        exact stateCheck_replies (now.pop rfl) fun s tr now => now.returned rfl none
    | nextStateChanged =>
      rw [meets_nextStateChanged]
      apply nextStateChanged_meets
      · exact (now.entered rfl).push rfl (by simp)
      · intro s tr now _ _ env ok io _ _ env' ok' io' _ _
        have reset : Replies ks s (tr ++ [(.did (.setPower .reset false env), s)] ++
            [(.did (.setPower .reset true env'), { s with io })]) :=
          Replies.record (Replies.record (now.pop rfl) rfl rfl) rfl rfl
        rw [List.append_assoc] at reset
        exact stateCheck_replies (reset.same rfl) fun s tr now => now.returned rfl none
      · intro s tr now
        exact stateCheck_replies (now.pop rfl) fun s tr now => now.returned rfl none
    | submitPowerRequest on =>
      have free : ∀ k ∈ ks, k.request = none := ruled.resolve_left nofun
      rw [meets_submitPowerRequest]
      cases on with
      | true => exact submitOn_replies now free
      | false => exact submitOff_replies now free
    | cancelPowerRequest =>
      have free : ∀ k ∈ ks, k.request = none := ruled.resolve_left nofun
      rw [meets_cancelPowerRequest]
      refine ⟨?_, nofun, now.single, never_snoc.mpr ⟨never_snoc.mpr ⟨now.replied, rfl⟩, rfl⟩⟩
      rw [after_append, after_append, asking_none free]
      rfl
  · intro k ks s s' tr w before _ changed
    obtain ⟨io, _, _, rfl⟩ := change_ok changed
    exact before.same rfl

omit [NciStates] in
/-- Nothing is asked of a new adapter, and its power is off. -/
theorem nfcAdapterNew_ok {self : Adapter}
    (created : nfcAdapterNew env currentState nextState = .ok (some self)) :
    self.powerSwitchPending = false ∧ self.powerOn = false := by
  obtain ⟨io, _, same⟩ := bind_ok.mp created
  cases io with
  | none => exact absurd (pure_ok.mp same) (by simp)
  | some io =>
    obtain rfl := Option.some.inj (pure_ok.mp same)
    exact ⟨rfl, rfl⟩

theorem replies_initial {self : Adapter} (idle : self.powerSwitchPending = false) : Replies [] self [] := by
  refine ⟨?_, nofun, .nil, trivial⟩
  rw [idle]
  rfl

/-- The request that is open between the calls of the adapter is the one that waits. -/
theorem Replies.quiet {s : Adapter} {tr : History} (replies : Replies [] s tr) :
    after asks none tr = if s.powerSwitchPending then some false else none := replies.asked

/-- Every reply answers the request that is open, with what was requested. A request is
returned from as one that waits only if it is for no power and unanswered, and unanswered for
good only if turning power on failed, or if libncicore is idle already or not going to be.
When no handler is running, only a request that waits is open. -/
theorem requests_replied {self : Adapter} {path : List Turn} {c : Situation}
    (created : nfcAdapterNew env currentState nextState = .ok (some self))
    (serial : adapter.Under Serial { state := self } path)
    (ran : adapter.moves { state := self } path = .ok c) :
    Replied c.trace ∧
      (c.calls = [] → after asks none c.trace = if c.state.powerSwitchPending then some false else none) := by
  have initial := replies_initial (nfcAdapterNew_ok created).1
  have replies := adapter_replies.run initial serial ran fun _ _ _ => trivial
  refine ⟨replies.replied, fun quiet => ?_⟩
  rw [quiet] at replies
  exact replies.quiet

end

theorem requests_replied_idle : ∃ c, (@adapter .listed).moves
      { state := { currentState := 0, nextState := 0, io := .fresh } }
      (onAndOff ++ [.leave ⟨3, 3, []⟩, .leave ⟨3, 3, []⟩].map Act.works) = .ok c ∧
      c.calls = [] ∧ @Replied .listed c.trace := by
  refine ⟨_, rfl, rfl, ?_⟩
  exact (@requests_replied .listed ⟨some 3, true⟩ 0 0 { currentState := 0, nextState := 0, io := .fresh }
    (onAndOff ++ [.leave ⟨3, 3, []⟩, .leave ⟨3, 3, []⟩].map Act.works) _ rfl (by decide) rfl).1

end Pn54x
