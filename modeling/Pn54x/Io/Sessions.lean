import Pn54x.Io.Steps

/-! Sessions of the read path: from a successful start to the stop or the power-off
that ends it. A session frames its own octets alone if and only if `read_buf` was
empty when it began, which powering off does not see to. -/
namespace Pn54x
open Framing Transition

/-- A passive call after which a session goes on: power is not turned off. -/
def Call.Continues (c : Call) : Prop :=
  c.Passive ∧ ∀ env, c = .setPower env false → env.ioctl = false

/-- A step within a session. The client's functions do not end it either. -/
def Step.Continues : Step → Prop
  | .call c => c.Continues
  | .readWatch _ _ calls => ∀ k, ∀ c ∈ calls k, c.Continues
  | .idle _ calls => ∀ c ∈ calls, c.Continues

/-- The octets that a step brings. -/
def Step.octets : Step → List Octet
  | .readWatch _ (some (.normal octets)) _ => octets
  | _ => []

/-- How a session ends, if it has. -/
def Ends (ending : List Step) : Prop :=
  ending = [] ∨ ending = [.call .stop] ∨ ∃ env, ending = [.call (.setPower env false)]

/-- In every session that can follow `s`, the client gets the framing of the octets
read in that session. -/
def Isolated (client : Client) (s : Sys) : Prop :=
  ∀ path ending t, (∀ i ∈ path, i.Continues) → Ends ending → steps s (path ++ ending) = .ok t →
    reads t.log = reads s.log ++ (frame nci (path.flatMap Step.octets)).1.map (client, ·)

/-- A session so far: `octets` were read behind the `r` that it began with, and
`before` had been delivered by then. -/
structure Session (client : Client) (r : List Octet) (before : List (Client × List Octet))
    (octets : List Octet) (s : Sys) : Prop where
  present : s.client = some client
  readBuf : s.readBuf = (frame nci (r ++ octets)).2
  reads : reads s.log = before ++ (frame nci (r ++ octets)).1.map (client, ·)

theorem Session.remainder (session : Session client r before octets s) : nci.Remainder s.readBuf :=
  session.readBuf ▸ frame_remainder nci _

theorem Session.kept (session : Session client r before octets s) (kept : Kept s t) :
    Session client r before octets t :=
  ⟨kept.client.trans session.present, kept.readBuf.trans session.readBuf,
    kept.reads.trans session.reads⟩

theorem Session.record {s : Sys} {e : Event} (session : Session client r before octets s)
    (other : Pn54x.reads [e] = []) : Session client r before octets (s.record e) :=
  ⟨session.present, session.readBuf, by rw [record_log, reads_append, other, List.append_nil, session.reads]⟩

theorem Session.handled {s t : Sys} (session : Session client r before octets s)
    (short : more.length ≤ maxPacketSize) (passive : ∀ k, ∀ c ∈ calls k, c.Passive)
    (handled : ioReadHandle calls more s = .ok t) :
    Session client r before (octets ++ more) t := by
  obtain ⟨client', left, packets⟩ := ioReadHandle_passive session.present session.remainder
    (chars_narrow short session.remainder) passive handled
  have split := frame_append nci (r ++ octets) more
  rw [List.append_assoc, ← session.readBuf] at split
  refine ⟨client'.trans session.present, by rw [split, left], ?_⟩
  rw [split, reads_of_heard packets, session.reads, List.map_append, List.append_assoc]

theorem Session.step {s t : Sys} (session : Session client r before octets s)
    (continues : i.Continues) (stepped : Pn54x.step s i = .ok t) :
    Session client r before (octets ++ i.octets) t := by
  cases i with
  | call c =>
    rw [show Step.octets (.call c) = [] from rfl, List.append_nil]
    exact session.kept (continues.1.kept stepped)
  | readWatch id input calls =>
    have passive : ∀ k, ∀ c ∈ calls k, c.Passive := fun k c member => (continues k c member).1
    rcases ioReadCallback_ok (step_readWatch stepped).2 with
      ⟨more, short, came, handled⟩ | ⟨client', m, failed, _, reacted, rfl⟩
    · have same : Step.octets (.readWatch id input calls) = more := by
        rcases came with rfl | ⟨rfl, rfl⟩ <;> rfl
      exact same ▸ session.handled short passive handled
    · have none : Step.octets (.readWatch id input calls) = [] := by
        rcases failed with rfl | rfl | rfl <;> rfl
      have failing : Session client r before octets { s with readWatchId := .none } :=
        ⟨session.present, session.readBuf, session.reads⟩
      have told := (failing.record (e := .error client') rfl).kept (react_kept (passive 0) reacted)
      rw [none, List.append_nil]
      exact ⟨told.present, told.readBuf, told.reads⟩
  | idle id calls =>
    obtain ⟨cb, m, _, _, reacted, rfl⟩ := halIoWriteComplete_ok (step_idle stepped).2
    have completing : Session client r before octets { s with writeId := none, writeCb := none } :=
      ⟨session.present, session.readBuf, session.reads⟩
    have told := (completing.record (e := .writeComplete s.client cb true) rfl).kept
      (react_kept (fun c member => (continues c member).1) reacted)
    rw [show Step.octets (.idle id calls) = [] from rfl, List.append_nil]
    exact ⟨told.present, told.readBuf, told.reads⟩

theorem Session.steps {s t : Sys} (session : Session client r before [] s)
    (continues : ∀ i ∈ path, i.Continues) (ran : Pn54x.steps s path = .ok t) :
    Session client r before (path.flatMap Step.octets) t := by
  refine run_history (R := fun path s => Session client r before (path.flatMap Step.octets) s)
    (l := []) ?_ session continues ran
  intro is m i n session continues stepped
  rw [List.flatMap_append, List.flatMap_singleton]
  exact session.step continues stepped

theorem halIoStop_reads (s : Sys) : reads (halIoStop s).log = reads s.log := by
  obtain ⟨closes, closed, log⟩ := ioClose_log { s with
    client := none, writeCb := none, readBuf := [], writeId := none
    sources := s.writeId.elim s.sources fun id => (s.removeSource id).sources }
  rw [halIoStop, record_log, ioStop_eq, log, reads_append, reads_append, reads_closed closed]
  simp [reads]

/-- Ending a session delivers nothing more. -/
theorem ends_reads {s t : Sys} (ends : Ends ending) (ran : steps s ending = .ok t) :
    reads t.log = reads s.log := by
  rcases ends with rfl | rfl | ⟨env, rfl⟩
  · exact run_nil.mp ran ▸ rfl
  · obtain ⟨m, stopped, done⟩ := run_cons.mp ran
    obtain rfl := run_nil.mp done
    obtain rfl := Except.ok.inj stopped
    exact halIoStop_reads s
  · obtain ⟨m, off, done⟩ := run_cons.mp ran
    obtain rfl := run_nil.mp done
    exact (Call.Passive.kept (c := .setPower env false) trivial off).reads

/-- What a successful start leaves. -/
theorem halIoStart_started {s t : Sys} (started : halIoStart env client s = .ok (true, t)) :
    t.client = some client ∧ t.readBuf = s.readBuf ∧ reads t.log = reads s.log ∧
      ∃ id, t.readWatchId = some id ∧ (id, SourceFunc.readCallback) ∈ t.sources := by
  rcases (halIoStart_ok started).2 with
    ⟨fd, readFd, pid, files, children, log, _, closed, rfl⟩ | ⟨_, _, _, _, _, _, _, no, _⟩ | ⟨no, _, _⟩
  · refine ⟨rfl, rfl, ?_, s.lastSource + 1, rfl, by simp [Sys.watchReader, Sys.addSource]⟩
    change reads (s.log ++ log ++ [.start client true]) = _
    rw [reads_append, reads_append, reads_closed closed]
    simp [reads]
  · contradiction
  · contradiction

theorem session_started {s t : Sys} (rest : nci.Remainder s.readBuf)
    (started : halIoStart env client s = .ok (true, t)) :
    Session client s.readBuf (reads t.log) [] t := by
  obtain ⟨present, readBuf, _, _⟩ := halIoStart_started started
  rw [← readBuf] at rest ⊢
  refine ⟨present, ?_, ?_⟩ <;> simp [frame_of_remainder nci rest]

/-- The kernel's answers when nothing fails. -/
def StartEnv.success : StartEnv := ⟨some 3, some (4, 5), some 7, true⟩

/-- An object as `pn54x_io_new` returns it. -/
def Sys.fresh : Sys := { log := [.closed 3 true, .setPower false true] }

theorem Reachable.fresh (path : List Step) (ran : steps .fresh path = .ok s) : Reachable s :=
  ⟨⟨some 3, true⟩, .fresh, path, rfl, ran⟩

/-- An octet that a packet may begin with, other than the one that `r` begins with. -/
def foreign (r : List Octet) : Octet := if r.head? = some 0 then 1 else 0

theorem foreign_ne (r : List Octet) : r.head? ≠ some (foreign r) := by
  unfold foreign
  split
  · rename_i zero
    rw [zero]
    decide
  · assumption

theorem foreign_unit (r : List Octet) : nci.Unit [foreign r, 0, 0] := by
  refine nci_unit.mpr ⟨by simp [packetHeaderSize], ?_, 0, rfl, rfl⟩
  unfold foreign
  split <;> decide

theorem frame_foreign (r : List Octet) : frame nci [foreign r, 0, 0] = ([[foreign r, 0, 0]], []) := by
  have framed := frame_unit_append nci (foreign_unit r) []
  rwa [List.append_nil, frame_of_remainder nci nci.remainder_nil] at framed

theorem ioReadHandle_total {s : Sys} (present : s.client = some client)
    (rest : nci.Remainder s.readBuf) (narrow : Narrow (s.readBuf ++ octets)) :
    ∃ t, ioReadHandle (fun _ => []) octets s = .ok t := by
  cases handled : ioReadHandle (fun _ => []) octets s with
  | ok t => exact ⟨t, rfl⟩
  | error e =>
    obtain ⟨_, c, none, _⟩ := (ioReadHandle_error present rest narrow handled).call
    contradiction

/-- While the watch is scheduled, any octets may arrive. -/
theorem arrives {s : Sys} {id : SourceId} (present : s.client = some client)
    (rest : nci.Remainder s.readBuf) (watched : (id, SourceFunc.readCallback) ∈ s.sources)
    (short : octets.length ≤ maxPacketSize) :
    ∃ t, step s (.readWatch id (some (.normal octets)) fun _ => []) = .ok t := by
  obtain ⟨t, handled⟩ := ioReadHandle_total present rest (chars_narrow short rest)
  refine ⟨t, ?_⟩
  simp only [step, if_pos watched, ioReadCallback, readInput, ioReadChars, if_pos short]
  exact handled

/-- A session is isolated from what was there before if and only if nothing was left
in `read_buf` when it was started. -/
theorem start_isolated {s t : Sys} (reached : Reachable s)
    (started : halIoStart env client s = .ok (true, t)) : Isolated client t ↔ s.readBuf = [] := by
  have rest := reachable_remainder reached
  have session := session_started rest started
  constructor
  · intro isolated
    by_contra left
    obtain ⟨_, _, _, id, _, watched⟩ := halIoStart_started started
    have short : [foreign s.readBuf, 0, 0].length ≤ maxPacketSize := by simp [maxPacketSize]
    obtain ⟨u, arrived⟩ := arrives session.present session.remainder watched short
    have continues : Step.Continues
        (.readWatch id (some (.normal [foreign s.readBuf, 0, 0])) fun _ => []) := by
      simp [Step.Continues]
    have ran : steps t [.readWatch id (some (.normal [foreign s.readBuf, 0, 0])) fun _ => []] = .ok u :=
      run_cons.mpr ⟨u, arrived, run_nil.mpr rfl⟩
    have expected := isolated [.readWatch id (some (.normal [foreign s.readBuf, 0, 0])) fun _ => []] [] u
      (fun i member => List.mem_singleton.mp member ▸ continues) (.inl rfl) ran
    have delivered := (session.step continues arrived).reads
    simp only [List.flatMap_singleton, Step.octets, List.nil_append] at expected delivered
    rw [expected, frame_foreign, List.append_cancel_left_eq] at delivered
    -- the first packet begins with what was left, not with the first octet that came
    have single : (frame nci (s.readBuf ++ [foreign s.readBuf, 0, 0])).1 = [[foreign s.readBuf, 0, 0]] := by
      have injective : Function.Injective fun p : List Octet => (client, p) :=
        fun _ _ same => (Prod.mk.inj same).2
      exact (injective.list_map delivered).symm
    exact foreign_ne s.readBuf (frame_head nci rest left single).symm
  · intro empty path ending u continues ends ran
    obtain ⟨m, before, after⟩ := run_append.mp ran
    rw [empty] at session
    rw [ends_reads ends after, (session.steps continues before).reads, List.nil_append]

/-- A session behind one that was stopped in the middle of a packet. -/
theorem start_isolated_stopped : ∃ s t, steps .fresh [.call (.start .success 1),
      .readWatch 1 (some (.normal [0x60])) fun _ => [], .call .stop] = .ok s ∧
    halIoStart .success 1 s = .ok (true, t) ∧ Isolated 1 t := by
  refine ⟨_, _, rfl, rfl, ?_⟩
  have reached := Reachable.fresh [.call (.start .success 1),
    .readWatch 1 (some (.normal [0x60])) fun _ => [], .call .stop] rfl
  exact (start_isolated reached (show halIoStart .success 1 _ = _ from rfl)).mpr rfl

/-- Powering off in the middle of a packet leaves its beginning to the next session. -/
theorem power_off_not_isolating :
    ¬ ∀ (env : StartEnv) (client : Client) (s t : Sys), Reachable s →
      halIoStart env client s = .ok (true, t) → Isolated client t := by
  intro all
  have glued := all .success 1 _ _
    (.fresh [.call (.start .success 1), .readWatch 1 (some (.normal [0x60])) fun _ => [],
      .call (.setPower ⟨none, true⟩ false)] rfl) rfl
    [.readWatch 2 (some (.normal [0x61, 0x00, 0x00])) fun _ => []] [] _
    (by simp [Step.Continues]) (.inl rfl) rfl
  have unit : nci.Unit [0x61, 0x00, 0x00] := nci_unit.mpr ⟨by decide, by decide, 0x00, rfl, rfl⟩
  have framed := frame_unit_append nci unit []
  rw [List.append_nil] at framed
  simp only [List.flatMap_singleton, Step.octets, framed] at glued
  revert glued
  decide

end Pn54x
