import Pn54x.Io.Sessions
import Pn54x.Io.Sources
import Pn54x.Library.Monitor

/-! What a client may still expect from the object after it stopped it or turned
power off. The main loop drops the sources, so nothing is dispatched; but the
framing loop goes on with a chunk that it has begun. -/
namespace Pn54x
open Framing Transition Monitor

/-- What was called since the last successful start. -/
structure Mode where
  stopped : Bool := false
  off : Bool := false
  deriving DecidableEq, Repr

def Mode.next (m : Mode) : Event → Mode
  | .start _ true => {}
  | .stop => { m with stopped := true }
  | .setPower false true => { m with off := true }
  | _ => m

/-- Calls of the client's functions that a stopped or powered-off object does not make. -/
def Mode.Forbids (m : Mode) : Event → Bool
  | .read _ _ | .error _ => m.stopped || m.off
  | .writeComplete _ _ _ => m.stopped
  | _ => false

/-- A write whose completion a stopped object is to report. -/
def Mode.Arms (m : Mode) : Event → Bool
  | .write (some _) true => m.stopped
  | _ => false

/-- The object keeps still while it should. -/
structure Quiescent (s : Sys) : Prop where
  callbacks : Never Mode.next Mode.Forbids {} s.log
  buffer : (Monitor.after Mode.next {} s.log).stopped = true → s.readBuf = []

/-- System writes and closed descriptors are no concern of the client. -/
def Event.Inert : Event → Bool
  | .sent _ _ | .closed _ _ => true
  | _ => false

theorem inert_next {e : Event} (inert : e.Inert = true) (m : Mode) : m.next e = m := by
  cases e <;> simp_all [Event.Inert, Mode.next]

theorem inert_allowed {e : Event} (inert : e.Inert = true) (m : Mode) : m.Forbids e = false := by
  cases e <;> simp_all [Event.Inert, Mode.Forbids]

/-- What a call records as its return. -/
def Call.returns (ok : Bool) : Call → Event
  | .start _ client => .start client ok
  | .stop => .stop
  | .write _ _ callback => .write callback ok
  | .cancelWrite => .cancelWrite
  | .setPower _ on => .setPower on ok

/-- What `m` promises about the fields. -/
structure Mode.Holds (m : Mode) (s : Sys) : Prop where
  watch : m.stopped = true ∨ m.off = true → s.readWatchId = none
  write : m.stopped = true → s.writeId = none
  buffer : m.stopped = true → s.readBuf = []

theorem closed_inert {closes : List Event} (closed : ∀ e ∈ closes, e.isClosed = true) :
    ∀ e ∈ closes, e.Inert = true := by
  intro e member
  have := closed e member
  cases e <;> simp_all [Event.isClosed, Event.Inert]

/-- What a call adds to the log is system calls, and then its return. The promises of
the mode that the return leads to are kept, unless the return arms a completion that
a stopped object would have to report. -/
structure Returned (c : Call) (s t : Sys) (inert : List Event) (ok : Bool) : Prop where
  still : ∀ e ∈ inert, e.Inert = true
  log : t.log = s.log ++ inert ++ [c.returns ok]
  mode : ∀ m : Mode, m.Holds s → m.Arms (c.returns ok) = false → (m.next (c.returns ok)).Holds t

theorem halIoStart_returned {s t : Sys} (starts : halIoStart env client s = .ok (ok, t)) :
    ∃ inert, Returned (.start env client) s t inert ok := by
  rcases (halIoStart_ok starts).2 with
    ⟨_, _, _, _, _, log, rfl, closed, rfl⟩ |
    ⟨newClient, fd, readPid, readFd, files, children, log, rfl, closed, rfl⟩ | ⟨rfl, _, rfl⟩
  · exact ⟨log, closed_inert closed, rfl, fun _ _ _ => ⟨by simp [Call.returns, Mode.next],
      by simp [Call.returns, Mode.next], by simp [Call.returns, Mode.next]⟩⟩
  · obtain ⟨closes, more, same⟩ := ioClose_log { s with
      client := newClient, fd, readPid, readFd, files, children, log := s.log ++ log }
    refine ⟨log ++ closes, ?_, by rw [record_log, same, List.append_assoc s.log]; rfl, ?_⟩
    · intro e member
      cases List.mem_append.mp member with
      | inl first => exact closed_inert closed e first
      | inr second => exact closed_inert more e second
    · exact fun m holds _ => ⟨fun _ => ioClose_readWatchId _,
        fun stopped => (ioClose_writeId _).trans (holds.write stopped),
        fun stopped => (ioClose_readBuf _).trans (holds.buffer stopped)⟩
  · exact ⟨[], by simp, by simp [Call.returns], fun m holds _ => ⟨holds.watch, holds.write, holds.buffer⟩⟩

theorem halIoStop_returned (s : Sys) : ∃ inert, Returned .stop s (halIoStop s) inert true := by
  obtain ⟨closes, closed, same⟩ := ioClose_log { s with
    client := none, writeCb := none, readBuf := [], writeId := none
    sources := s.writeId.elim s.sources fun id => (s.removeSource id).sources }
  rw [halIoStop, ioStop_eq]
  exact ⟨closes, closed_inert closed, by rw [record_log, same]; rfl, fun _ _ _ =>
    ⟨fun _ => ioClose_readWatchId _, fun _ => ioClose_writeId _, fun _ => ioClose_readBuf _⟩⟩

theorem halIoWrite_returned {s t : Sys} (writes : halIoWrite env chunks callback s = .ok (ok, t)) :
    ∃ inert, Returned (.write env chunks callback) s t inert ok := by
  obtain ⟨fd, files, _, ⟨rfl, rfl⟩ | ⟨data, writeBuf, _, _, rfl, rfl⟩⟩ := halIoWrite_ok writes
  · exact ⟨[], by simp, by simp [Call.returns], fun m holds _ => ⟨holds.watch, holds.write, holds.buffer⟩⟩
  · refine ⟨[.sent data env.written], by simp [Event.Inert], by split <;> simp [Call.returns], ?_⟩
    intro m holds armed
    cases accepted : env.written == some data.length with
    | false => exact ⟨holds.watch, holds.write, holds.buffer⟩
    | true =>
      cases callback with
      | none => exact ⟨holds.watch, holds.write, holds.buffer⟩
      | some cb =>
        rw [accepted] at armed
        change m.stopped = false at armed
        exact ⟨holds.watch, fun stopped => absurd (armed.symm.trans stopped) Bool.false_ne_true,
          fun stopped => absurd (armed.symm.trans stopped) Bool.false_ne_true⟩

theorem halIoCancelWrite_returned (s : Sys) : ∃ inert, Returned .cancelWrite s (halIoCancelWrite s) inert true := by
  rw [halIoCancelWrite_eq]
  exact ⟨[], by simp, by simp [Call.returns], fun m holds _ => ⟨holds.watch, fun _ => rfl, holds.buffer⟩⟩

theorem ioSetPower_returned {s t : Sys} (power : ioSetPower env on s = .ok (ok, t)) :
    ∃ inert, Returned (.setPower env on) s t inert ok := by
  obtain ⟨fd, files, rfl, _, rfl⟩ := ioSetPower_ok power
  cases fd.isSome && env.ioctl with
  | true =>
    cases on with
    | true => exact ⟨[], by simp, by simp [Call.returns], fun m holds _ => ⟨holds.watch, holds.write, holds.buffer⟩⟩
    | false =>
      obtain ⟨closes, closed, same⟩ := ioClose_log { s with fd, files, power := false }
      exact ⟨closes, closed_inert closed, by simp [Call.returns, same], fun m holds _ =>
        ⟨fun _ => ioClose_readWatchId _,
          fun stopped => (ioClose_writeId _).trans (holds.write stopped),
          fun stopped => (ioClose_readBuf _).trans (holds.buffer stopped)⟩⟩
  | false =>
    refine ⟨[], by simp, by simp [Call.returns], fun m holds _ => ?_⟩
    cases on <;> exact ⟨holds.watch, holds.write, holds.buffer⟩

theorem perform_returned {c : Call} (performed : c.perform s = .ok t) :
    ∃ inert ok, Returned c s t inert ok := by
  cases c with
  | start env client =>
    obtain ⟨ok, starts⟩ := perform_start performed
    obtain ⟨inert, returned⟩ := halIoStart_returned starts
    exact ⟨inert, ok, returned⟩
  | stop =>
    obtain ⟨inert, returned⟩ := halIoStop_returned s
    exact ⟨inert, true, Except.ok.inj performed ▸ returned⟩
  | write env chunks callback =>
    obtain ⟨ok, writes⟩ := perform_write performed
    obtain ⟨inert, returned⟩ := halIoWrite_returned writes
    exact ⟨inert, ok, returned⟩
  | cancelWrite =>
    obtain ⟨inert, returned⟩ := halIoCancelWrite_returned s
    exact ⟨inert, true, Except.ok.inj performed ▸ returned⟩
  | setPower env on =>
    obtain ⟨ok, power⟩ := perform_setPower performed
    obtain ⟨inert, returned⟩ := ioSetPower_returned power
    exact ⟨inert, ok, returned⟩

/-- The mode is true to the fields, and nothing forbidden has happened. -/
structure Still (s : Sys) : Prop where
  mode : (Monitor.after Mode.next {} s.log).Holds s
  callbacks : Never Mode.next Mode.Forbids {} s.log

theorem perform_grows {c : Call} (performed : c.perform s = .ok t) : s.log <+: t.log := by
  obtain ⟨inert, ok, returned⟩ := perform_returned performed
  rw [returned.log, List.append_assoc]
  exact List.prefix_append _ _

theorem react_grows {s t : Sys} (reacted : react calls s = .ok t) : s.log <+: t.log :=
  run_invariant (P := fun m => s.log <+: m.log) (A := fun _ => True)
    (fun before _ performed => before.trans (perform_grows performed)) (List.prefix_refl _)
    (by simp) reacted

theorem record_grows (s : Sys) (e : Event) : s.log <+: (s.record e).log := List.prefix_append _ _

theorem deliver_grows {s t : Sys} (delivered : deliver client calls k packets s = .ok t) :
    s.log <+: t.log := by
  induction packets generalizing k s with
  | nil =>
    cases delivered
    exact List.prefix_refl _
  | cons packet packets ih =>
    obtain ⟨m, called, rest⟩ := deliver_cons.mp delivered
    obtain ⟨c, _, reacted⟩ := clientRead_at_ok.mp called
    exact (record_grows s _).trans ((react_grows reacted).trans (ih rest))

/-- The mode after a call is the one that its return leads to. -/
theorem Returned.after {c : Call} (returned : Returned c s t inert ok) (m : Mode) :
    Monitor.after Mode.next m t.log = (Monitor.after Mode.next m s.log).next (c.returns ok) := by
  rw [returned.log, after_append, after_append, after_inert fun e member => inert_next (returned.still e member)]
  rfl

theorem returns_allowed (c : Call) (ok : Bool) (m : Mode) : m.Forbids (c.returns ok) = false := by
  cases c <;> rfl

theorem Still.perform {c : Call} (still : Still s) (performed : c.perform s = .ok t)
    (heeded : Never Mode.next Mode.Arms {} t.log) : Still t := by
  obtain ⟨inert, ok, returned⟩ := perform_returned performed
  constructor
  · rw [returned.log, never_append, after_append, after_inert fun e member => inert_next (returned.still e member)] at heeded
    rw [returned.after]
    exact returned.mode _ still.mode heeded.2.1
  · rw [returned.log, never_append, never_append]
    exact ⟨⟨still.callbacks, never_inert (fun e member => inert_allowed (returned.still e member)) _⟩, returns_allowed c ok _, trivial⟩

theorem Still.react {calls : List Call} {s t : Sys} (still : Still s)
    (reacted : Pn54x.react calls s = .ok t) (heeded : Never Mode.next Mode.Arms {} t.log) : Still t := by
  induction calls generalizing s with
  | nil => exact run_nil.mp reacted ▸ still
  | cons c calls ih =>
    obtain ⟨m, performed, rest⟩ := run_cons.mp reacted
    exact ih (still.perform performed (never_earlier (react_grows rest) heeded)) rest

/-- Calling the client where it may be called. -/
theorem Still.record {s : Sys} {e : Event} (still : Still s)
    (allowed : (Monitor.after Mode.next {} s.log).Forbids e = false)
    (same : (Monitor.after Mode.next {} s.log).next e = Monitor.after Mode.next {} s.log) : Still (s.record e) := by
  have mode : Monitor.after Mode.next {} (s.record e).log = Monitor.after Mode.next {} s.log := by
    rw [record_log, after_append]
    exact same
  refine ⟨?_, never_append.mpr ⟨still.callbacks, allowed, trivial⟩⟩
  rw [mode]
  exact ⟨still.mode.watch, still.mode.write, still.mode.buffer⟩

theorem Call.Continues.mode {c : Call} (continues : c.Continues) (performed : c.perform s = .ok t) :
    Monitor.after Mode.next {} t.log = Monitor.after Mode.next {} s.log := by
  cases c with
  | start | stop => exact absurd continues.1 id
  | write | cancelWrite =>
    obtain ⟨inert, ok, returned⟩ := perform_returned performed
    exact returned.after _
  | setPower env on =>
    obtain ⟨ok, power⟩ := perform_setPower performed
    obtain ⟨inert, returned⟩ := ioSetPower_returned power
    obtain ⟨fd, files, rfl, _⟩ := ioSetPower_ok power
    rw [returned.after]
    cases on with
    | true => rfl
    | false =>
      rw [continues.2 env rfl, Bool.and_false]
      rfl

theorem Call.Passive.stopped {c : Call} (passive : c.Passive) (performed : c.perform s = .ok t) :
    (Monitor.after Mode.next {} t.log).stopped = (Monitor.after Mode.next {} s.log).stopped := by
  obtain ⟨inert, ok, returned⟩ := perform_returned performed
  rw [returned.after]
  cases c with
  | start | stop => exact absurd passive id
  | write | cancelWrite => rfl
  | setPower env on => cases on <;> cases ok <;> rfl

/-- What the client's functions may call: anything but a start. -/
def Call.FromClient (c : Call) : Prop := ∀ env client, c ≠ .start env client

def Step.FromClient : Step → Prop
  | .call _ => True
  | .readWatch _ _ calls => ∀ k, ∀ c ∈ calls k, c.FromClient
  | .idle _ calls => ∀ c ∈ calls, c.FromClient

/-- Only for the last packet of a chunk is the object stopped or power turned off,
and it is stopped only where nothing is left behind that packet. -/
structure Uninterrupted (calls : Nat → List Call) (k : Nat) (packets : List (List Octet))
    (rest : List Octet) : Prop where
  stop : ∀ j < packets.length, .stop ∈ calls (k + j) → j + 1 = packets.length ∧ rest = []
  off : ∀ j < packets.length, ∀ env, .setPower env false ∈ calls (k + j) → env.ioctl = true →
    j + 1 = packets.length

/-- The same for whatever a step dispatches, before it does. -/
def Step.Uninterrupted (s : Sys) (i : Step) : Prop :=
  match i with
  | .readWatch _ _ calls => Pn54x.Uninterrupted calls 0 (frame nci (s.readBuf ++ i.octets)).1
      (frame nci (s.readBuf ++ i.octets)).2
  | _ => True

theorem Call.FromClient.passive {c : Call} (client : c.FromClient) (going : c ≠ .stop) : c.Passive := by
  cases c with
  | start env client' => exact client env client' rfl
  | stop => exact going rfl
  | write | cancelWrite | setPower => trivial

theorem react_mode {calls : List Call} {s t : Sys} (continues : ∀ c ∈ calls, c.Continues)
    (reacted : react calls s = .ok t) : Monitor.after Mode.next {} t.log = Monitor.after Mode.next {} s.log :=
  run_invariant (P := fun m => Monitor.after Mode.next {} m.log = Monitor.after Mode.next {} s.log)
    (fun same continues performed => (continues.mode performed).trans same) rfl continues reacted

theorem react_stopped {calls : List Call} {s t : Sys} (passive : ∀ c ∈ calls, c.Passive)
    (reacted : react calls s = .ok t) :
    (Monitor.after Mode.next {} t.log).stopped = (Monitor.after Mode.next {} s.log).stopped :=
  run_invariant (P := fun m => (Monitor.after Mode.next {} m.log).stopped = (Monitor.after Mode.next {} s.log).stopped)
    (fun same passive performed => (passive.stopped performed).trans same) rfl passive reacted

theorem Uninterrupted.tail (uninterrupted : Uninterrupted calls k (packet :: packets) rest) :
    Uninterrupted calls (k + 1) packets rest := by
  constructor
  · intro j within stop
    have := uninterrupted.stop (j + 1) (by simpa using within) (by rwa [Nat.add_comm j, ← Nat.add_assoc])
    simpa using this
  · intro j within env off works
    have := uninterrupted.off (j + 1) (by simpa using within) env
      (by rwa [Nat.add_comm j, ← Nat.add_assoc]) works
    simpa using this

/-- The framing loop: as long as packets are left the session goes on, so that the
next one may be delivered. -/
theorem Still.deliver {s t : Sys} (still : Still s) (live : Monitor.after Mode.next {} s.log = {})
    (clients : ∀ k, ∀ c ∈ calls k, c.FromClient) (uninterrupted : Uninterrupted calls k packets rest)
    (delivered : Pn54x.deliver client calls k packets s = .ok t) (heeded : Never Mode.next Mode.Arms {} t.log) :
    Still t ∧ ((Monitor.after Mode.next {} t.log).stopped = true → rest = []) := by
  induction packets generalizing k s with
  | nil =>
    cases delivered
    exact ⟨still, by rw [live]; nofun⟩
  | cons packet packets ih =>
    obtain ⟨m, called, later⟩ := deliver_cons.mp delivered
    obtain ⟨c, _, reacted⟩ := clientRead_at_ok.mp called
    have allowed : Still (s.record (.read c packet)) := still.record (by rw [live]; rfl) rfl
    have after : Monitor.after Mode.next {} (s.record (.read c packet)).log = {} := by
      rw [record_log, after_append, live]
      rfl
    have now := allowed.react reacted (never_earlier (deliver_grows later) heeded)
    cases packets with
    | nil =>
      cases later
      refine ⟨now, fun stopped => ?_⟩
      by_cases stops : .stop ∈ calls k
      · exact (uninterrupted.stop 0 (by simp) stops).2
      · have passive : ∀ c ∈ calls k, c.Passive := fun c member =>
          (clients k c member).passive fun same => stops (same ▸ member)
        rw [react_stopped passive reacted, after] at stopped
        contradiction
    | cons next packets =>
      have continues : ∀ c ∈ calls k, c.Continues := by
        intro c member
        refine ⟨(clients k c member).passive ?_, ?_⟩
        · rintro rfl
          have := (uninterrupted.stop 0 (by simp) member).1
          simp at this
        · rintro env rfl
          by_contra works
          have := uninterrupted.off 0 (by simp) env member (by simpa using works)
          simp at this
      exact ih now ((react_mode continues reacted).trans after) uninterrupted.tail later

/-- The watch is scheduled only in a session. -/
theorem Still.live {s : Sys} {id : SourceId} (still : Still s) (known : s.readWatchId = some id) :
    Monitor.after Mode.next {} s.log = {} := by
  have watch := still.mode.watch
  rw [known] at watch
  cases mode : Monitor.after Mode.next {} s.log with
  | mk stopped off => cases stopped <;> cases off <;> simp_all

/-- `read_buf` matters only to an object that was stopped. -/
theorem Still.buffer {s : Sys} (still : Still s)
    (empty : (Monitor.after Mode.next {} s.log).stopped = true → readBuf = []) :
    Still { s with readBuf } :=
  ⟨⟨still.mode.watch, still.mode.write, empty⟩, still.callbacks⟩

theorem Still.readHandle {s t : Sys} (still : Still s) (live : Monitor.after Mode.next {} s.log = {})
    (rest : nci.Remainder s.readBuf) (short : octets.length ≤ maxPacketSize)
    (clients : ∀ k, ∀ c ∈ calls k, c.FromClient)
    (uninterrupted : Uninterrupted calls 0 (frame nci (s.readBuf ++ octets)).1
      (frame nci (s.readBuf ++ octets)).2)
    (handled : ioReadHandle calls octets s = .ok t) (heeded : Never Mode.next Mode.Arms {} t.log) :
    Still t := by
  rw [ioReadHandle_eq rest (chars_narrow short rest)] at handled
  obtain ⟨m, delivered, done⟩ := bind_ok.mp handled
  obtain rfl := Except.ok.inj done
  obtain ⟨log, readBuf, same⟩ := buffering_object s octets
  have buffered : Still (s.buffering octets) := by
    rw [same]
    exact still.buffer (by rw [live]; nofun)
  obtain ⟨still', empty⟩ := buffered.deliver (by rw [log, live]) clients uninterrupted delivered heeded
  exact still'.buffer empty

theorem Still.step {s t : Sys} (still : Still s) (recorded : Recorded none s)
    (rest : nci.Remainder s.readBuf) (clients : i.FromClient) (uninterrupted : i.Uninterrupted s)
    (stepped : Pn54x.step s i = .ok t) (heeded : Never Mode.next Mode.Arms {} t.log) : Still t := by
  cases i with
  | call c => exact still.perform stepped heeded
  | readWatch id input calls =>
    obtain ⟨scheduled, called⟩ := step_readWatch stepped
    have live := still.live (recorded.known scheduled)
    rcases ioReadCallback_ok called with
      ⟨octets, short, came, handled⟩ | ⟨client, m, _, _, reacted, rfl⟩
    · have same : Step.octets (.readWatch id input calls) = octets := by
        rcases came with rfl | ⟨rfl, rfl⟩ <;> rfl
      simp only [Step.Uninterrupted, same] at uninterrupted
      exact still.readHandle live rest short clients uninterrupted handled heeded
    · have begun : Still { s with readWatchId := none } :=
        ⟨⟨fun _ => rfl, still.mode.write, still.mode.buffer⟩, still.callbacks⟩
      have allowed : (Monitor.after Mode.next {} s.log).Forbids (.error client) = false := by
        rw [live]
        rfl
      have told := (begun.record (by exact allowed) rfl).react reacted heeded
      exact ⟨⟨told.mode.watch, told.mode.write, told.mode.buffer⟩, told.callbacks⟩
  | idle id calls =>
    obtain ⟨scheduled, called⟩ := step_idle stepped
    obtain ⟨cb, m, _, _, reacted, rfl⟩ := halIoWriteComplete_ok called
    have known : s.writeId = some id := recorded.known scheduled
    have running : (Monitor.after Mode.next {} s.log).stopped = false := by
      cases stopped : (Monitor.after Mode.next {} s.log).stopped with
      | false => rfl
      | true => exact absurd (known.symm.trans (still.mode.write stopped)) nofun
    have begun : Still { s with writeId := none, writeCb := none } :=
      ⟨⟨still.mode.watch, fun _ => rfl, still.mode.buffer⟩, still.callbacks⟩
    have told := (begun.record (by exact running) rfl).react reacted heeded
    exact ⟨⟨told.mode.watch, told.mode.write, told.mode.buffer⟩, told.callbacks⟩

theorem step_grows {s t : Sys} (rest : nci.Remainder s.readBuf) (stepped : step s i = .ok t) :
    s.log <+: t.log := by
  cases i with
  | call c => exact perform_grows stepped
  | readWatch id input calls =>
    rcases ioReadCallback_ok (step_readWatch stepped).2 with
      ⟨octets, short, _, handled⟩ | ⟨client, m, _, _, reacted, rfl⟩
    · rw [ioReadHandle_eq rest (chars_narrow short rest)] at handled
      obtain ⟨m, delivered, done⟩ := bind_ok.mp handled
      obtain rfl := Except.ok.inj done
      have grown := deliver_grows delivered
      rwa [(buffering_object s octets).1] at grown
    · have grown := react_grows reacted
      exact (record_grows { s with readWatchId := none } _).trans grown
  | idle id calls =>
    obtain ⟨cb, m, _, _, reacted, rfl⟩ := halIoWriteComplete_ok (step_idle stepped).2
    have grown := react_grows reacted
    exact (record_grows { s with writeId := none, writeCb := none } _).trans grown

theorem ioNew_still {s : Sys} (created : ioNew env = .ok (some s)) (heeded : Never Mode.next Mode.Arms {} s.log) :
    Still s := by
  have empty : Still {} := ⟨⟨fun _ => rfl, fun _ => rfl, fun _ => rfl⟩, trivial⟩
  exact empty.perform (ioNew_performed created) heeded

/-- In a run in which nobody interrupts the delivery of a chunk and no write with a
completion is accepted after a stop, a stopped or powered-off object keeps still. -/
theorem run_quiescent {new s : Sys} {path : List Step} (created : ioNew env = .ok (some new))
    (ran : steps new path = .ok s) (clients : ∀ i ∈ path, i.FromClient)
    (uninterrupted : along step (fun s i => i.Uninterrupted s) new path)
    (heeded : Never Mode.next Mode.Arms {} s.log) : Quiescent s := by
  have still : nci.Remainder s.readBuf ∧ Recorded none s ∧ (Never Mode.next Mode.Arms {} s.log → Still s) := by
    refine run_along
      (P := fun s => nci.Remainder s.readBuf ∧ Recorded none s ∧ (Never Mode.next Mode.Arms {} s.log → Still s))
      (A := fun s i => i.FromClient ∧ i.Uninterrupted s) ?_
      ⟨ioNew_remainder created, ioNew_recorded created, ioNew_still created⟩
      (along_and clients uninterrupted) ran
    rintro s i t ⟨rest, recorded, still⟩ ⟨client, uninterrupted⟩ stepped
    refine ⟨step_remainder rest stepped, recorded.step rest stepped, fun heeded => ?_⟩
    have before := still (never_earlier (step_grows rest stepped) heeded)
    exact before.step recorded rest client uninterrupted stepped heeded
  have now := still.2.2 heeded
  exact ⟨now.callbacks, now.mode.buffer⟩

theorem run_quiescent_last_packet : ∃ s, steps .fresh [.call (.start .success 1),
      .readWatch 1 (some (.normal [0x60, 0x00, 0x00])) fun _ => [.stop]] = .ok s ∧ Quiescent s := by
  have created : ioNew ⟨some 3, true⟩ = .ok (some .fresh) := rfl
  have ran : steps .fresh [.call (.start .success 1),
      .readWatch 1 (some (.normal [0x60, 0x00, 0x00])) fun _ => [.stop]] = _ := rfl
  refine ⟨_, ran, run_quiescent created ran (by simp [Step.FromClient, Call.FromClient]) ?_ (by decide)⟩
  refine ⟨trivial, fun t started => ⟨?_, fun _ _ => trivial⟩⟩
  have performed : Call.perform .fresh (.start .success 1) = .ok t := started
  have empty : t.readBuf = [] := perform_readBuf performed
  have unit : nci.Unit [0x60, 0x00, 0x00] := nci_unit.mpr ⟨by decide, by decide, 0x00, rfl, rfl⟩
  have framed := frame_unit_append nci unit []
  rw [List.append_nil, frame_of_remainder nci nci.remainder_nil] at framed
  simp only [Step.Uninterrupted, Step.octets, empty, List.nil_append, framed]
  exact ⟨by simp, by simp⟩

/-- A client that stops the object for the first of two packets gets the second one. -/
theorem stop_not_quiescing :
    ¬ ∀ (env : PowerEnv) (new s : Sys) (path : List Step), ioNew env = .ok (some new) →
      steps new path = .ok s → (∀ i ∈ path, i.FromClient) → Quiescent s := by
  intro all
  have silent := (all ⟨some 3, true⟩ .fresh _ [.call (.start .success 1),
    .readWatch 1 (some (.normal [0x60, 0x00, 0x00, 0x61, 0x00, 0x00]))
      fun k => if k = 0 then [.stop] else []] rfl rfl
    (by simp +contextual [Step.FromClient, Call.FromClient]) ).callbacks
  revert silent
  decide

end Pn54x
