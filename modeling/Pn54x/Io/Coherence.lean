import Pn54x.Io.Endings
import Pn54x.Io.Moments
import Pn54x.Io.Sessions

/-! The fields of a reader session move together: however a start ends, it leaves them
all set or all clear, and so does everything else. -/
namespace Pn54x
open Transition

@[simp] theorem ioClose_readFd (s : Sys) : (ioClose s).readFd = none := by
  obtain ⟨files, closes, _, same⟩ := ioClose_spec s
  rw [same]

@[simp] theorem ioClose_readChannel (s : Sys) : (ioClose s).readChannel = none := by
  obtain ⟨files, closes, _, same⟩ := ioClose_spec s
  rw [same]

theorem ioClose_children (s : Sys) : (ioClose s).children = s.readPid.elim s.children s.children.erase := by
  obtain ⟨files, closes, _, same⟩ := ioClose_spec s
  rw [same]

/-- The reader is there with its pipe, its channel, the device and a client, or nothing
of it is; it is the only child, and only then is there a watch. -/
structure Coherent (s : Sys) : Prop where
  channel : s.readChannel.isSome = s.readPid.isSome
  pipe : s.readFd.isSome = s.readPid.isSome
  session : s.readPid.isSome = true → s.fd.isSome = true ∧ s.client.isSome = true
  watch : s.readWatchId.isSome = true → s.readPid.isSome = true
  children : s.children = s.readPid.toList

theorem Coherent.record {s : Sys} (coherent : Coherent s) (e : Event) : Coherent (s.record e) :=
  ⟨coherent.channel, coherent.pipe, coherent.session, coherent.watch, coherent.children⟩

/-- What an object without a reader does not have either. -/
theorem Coherent.idle {s : Sys} (coherent : Coherent s) (idle : s.readPid = none) :
    s.readFd = none ∧ s.readChannel = none ∧ s.readWatchId = none ∧ s.children = [] := by
  obtain ⟨channel, pipe, _, watch, children⟩ := coherent
  rw [idle] at channel pipe watch children
  refine ⟨by simpa using pipe, by simpa using channel, ?_, children⟩
  exact Option.not_isSome_iff_eq_none.mp fun watched => absurd (watch watched) nofun

/-- Closing reaps the only child. -/
theorem coherent_close {s : Sys} (reaped : s.readPid.elim s.children s.children.erase = []) :
    Coherent (ioClose s) := by
  constructor
  · simp
  · simp
  · simp
  · simp
  · rw [ioClose_children, reaped, ioClose_readPid]
    rfl

theorem Coherent.reaped {s : Sys} (coherent : Coherent s) :
    s.readPid.elim s.children s.children.erase = [] := by
  rw [coherent.children]
  cases s.readPid with
  | none => rfl
  | some pid => simp

theorem Coherent.starts {s : Sys} (coherent : Coherent s) (idle : s.readPid = none)
    (starts : Starts env client s ok t) : Coherent t := by
  have childless : s.children = [] := (coherent.idle idle).2.2.2
  cases starts with
  | unopened => exact coherent.record _
  | pipeless => exact (coherent_close (by simp [idle, childless])).record _
  | forkless => exact (coherent_close (by simp [childless])).record _
  | channelless => exact (coherent_close (by simp [Sys.withReader, childless])).record _
  | started =>
    constructor
    · rfl
    · rfl
    · exact fun _ => ⟨rfl, rfl⟩
    · exact fun _ => rfl
    · simp [Sys.withReader, Sys.watchReader, Sys.addSource, Sys.record, childless]

/-- Opening the device breaks up no session. -/
theorem Coherent.opened {s : Sys} (coherent : Coherent s) {fd : Option Fd} {files : List Fd}
    (same : s.fd.isSome = true ∨ fd = none → fd = s.fd ∧ files = s.files) : Coherent { s with fd, files } := by
  refine ⟨coherent.channel, coherent.pipe, fun running => ?_, coherent.watch, coherent.children⟩
  obtain ⟨device, present⟩ := coherent.session running
  obtain ⟨rfl, _⟩ := same (.inl device)
  exact ⟨device, present⟩

theorem Coherent.schedule {s : Sys} (coherent : Coherent s) (callback : Option Callback) :
    Coherent (s.scheduleComplete callback) := by
  cases callback <;>
    exact ⟨coherent.channel, coherent.pipe, coherent.session, coherent.watch, coherent.children⟩

theorem Coherent.perform {c : Call} (coherent : Coherent s) (performed : c.perform s = .ok t) : Coherent t := by
  cases c with
  | start env client =>
    obtain ⟨ok, starts⟩ := perform_start performed
    obtain ⟨idle, starts⟩ := halIoStart_starts starts
    exact coherent.starts idle starts
  | stop =>
    obtain rfl := Except.ok.inj performed
    rw [halIoStop, ioStop_eq]
    refine (coherent_close ?_).record _
    exact coherent.reaped
  | write env chunks callback =>
    obtain ⟨ok, writes⟩ := perform_write performed
    obtain ⟨fd, files, same, ⟨rfl, rfl⟩ | ⟨data, writeBuf, _, _, _, rfl⟩⟩ := halIoWrite_ok writes
    · exact (coherent.opened same).record _
    · have opened := coherent.opened same
      have sent : Coherent (Sys.record { s with fd, files, writeBuf } (.sent data env.written)) :=
        ⟨opened.channel, opened.pipe, opened.session, opened.watch, opened.children⟩
      split
      · exact (sent.schedule callback).record _
      · exact sent.record _
  | cancelWrite =>
    obtain rfl := Except.ok.inj performed
    rw [halIoCancelWrite_eq]
    exact ⟨coherent.channel, coherent.pipe, coherent.session, coherent.watch, coherent.children⟩
  | setPower env on =>
    obtain ⟨ok, power⟩ := perform_setPower performed
    obtain ⟨fd, files, rfl, same, rfl⟩ := ioSetPower_ok power
    have opened := coherent.opened same
    split
    · split
      · exact ⟨opened.channel, opened.pipe, opened.session, opened.watch, opened.children⟩
      · refine (coherent_close ?_).record _
        exact coherent.reaped
    · exact opened.record _

theorem Coherent.moment {p q : Point} {m : Moment} (coherent : Coherent p.toSys) (performed : m.perform p = .ok q) :
    Coherent q.toSys := by
  cases m with
  | call c =>
    obtain ⟨s, called, rfl⟩ := call_ok.mp performed
    exact coherent.perform called
  | buffer readBuf =>
    obtain rfl := Except.ok.inj performed
    exact ⟨coherent.channel, coherent.pipe, coherent.session, coherent.watch, coherent.children⟩
  | deliver client packet =>
    obtain ⟨c, _, rfl⟩ := deliver_ok performed
    exact coherent.record _
  | fail id =>
    obtain ⟨_, _, client, _, rfl⟩ := fail_ok performed
    exact ⟨coherent.channel, coherent.pipe, coherent.session, nofun, coherent.children⟩
  | complete id =>
    obtain ⟨_, _, cb, _, rfl⟩ := complete_ok performed
    exact ⟨coherent.channel, coherent.pipe, coherent.session, coherent.watch, coherent.children⟩
  | done =>
    obtain ⟨id, _, rfl⟩ := done_ok performed
    exact ⟨coherent.channel, coherent.pipe, coherent.session, coherent.watch, coherent.children⟩

theorem coherent_empty : Coherent {} := ⟨rfl, rfl, nofun, nofun, rfl⟩

theorem ioNew_coherent {s : Sys} (created : ioNew env = .ok (some s)) : Coherent s :=
  coherent_empty.perform (ioNew_performed created)

theorem passed_coherent (passed : Passed p) : Coherent p.toSys :=
  passed_invariant (P := fun p => Coherent p.toSys) Coherent.moment ioNew_coherent passed

theorem Recorded.moment {p q : Point} {m : Moment} (recorded : Recorded p.serving p.toSys)
    (performed : m.perform p = .ok q) : Recorded q.serving q.toSys := by
  cases m with
  | call c =>
    obtain ⟨s, called, rfl⟩ := call_ok.mp performed
    exact recorded.perform called
  | buffer readBuf =>
    obtain rfl := Except.ok.inj performed
    exact ⟨recorded.sources, recorded.watched⟩
  | deliver client packet =>
    obtain ⟨c, _, rfl⟩ := deliver_ok performed
    exact recorded.record _
  | fail id =>
    obtain ⟨scheduled, idle, client, _, rfl⟩ := fail_ok performed
    rw [idle] at recorded
    exact (recorded.failing (recorded.known scheduled)).record _
  | complete id =>
    obtain ⟨scheduled, idle, cb, _, rfl⟩ := complete_ok performed
    rw [idle] at recorded
    exact (recorded.completing (recorded.known scheduled)).record _
  | done =>
    obtain ⟨id, serving, rfl⟩ := done_ok performed
    rw [serving] at recorded
    exact recorded.done

theorem passed_recorded (passed : Passed p) : Recorded p.serving p.toSys :=
  passed_invariant (P := fun p => Recorded p.serving p.toSys) Recorded.moment ioNew_recorded passed

/-- Where the read watch is scheduled, the client is known. -/
theorem scheduled_client {s : Sys} (coherent : Coherent s) (recorded : Recorded none s) {id : SourceId}
    (scheduled : (id, SourceFunc.readCallback) ∈ s.sources) : ∃ client, s.client = some client := by
  have known : s.readWatchId = some id := recorded.known scheduled
  have running := coherent.watch (by rw [known]; rfl)
  exact Option.isSome_iff_exists.mp (coherent.session running).2

theorem readInput_error (failed : readInput input = .error e) : e.Refused := by
  cases input with
  | none => contradiction
  | some result =>
    cases result with
    | normal octets =>
      simp only [readInput, ioReadChars] at failed
      split at failed
      · contradiction
      · exact .inr (.inr (Except.error.inj failed).symm)
    | again | eof | error => contradiction

/-- With a client, the read callback fails only where a call of the client does. -/
theorem ioReadCallback_error {s : Sys} {id : SourceId} (present : s.client = some client)
    (rest : nci.Remainder s.readBuf) (failed : ioReadCallback id input calls s = .error e) : e.Refused := by
  refine bind_error failed readInput_error fun read answered failed => ?_
  cases read with
  | some octets =>
    have short : octets.length ≤ maxPacketSize := by
      cases input with
      | none => exact absurd (Except.ok.inj answered) (by simp)
      | some result => exact (ioReadChars_some answered).1
    obtain ⟨_, _, _, _, refused⟩ := (ioReadHandle_error present rest (chars_narrow short rest) failed).call
    exact perform_error refused
  | none =>
    simp only [present] at failed
    refine bind_error failed (fun reacting => ?_) fun _ _ done => ?_
    · obtain ⟨_, c, _, m, _, _, refused⟩ := run_error reacting
      exact perform_error refused
    · contradiction

/-- At every point of every run the reader session is coherent, and the read watch is
never dispatched to an object without a client. -/
theorem reader_coherent {p : Point} (passed : Passed p) : Coherent p.toSys ∧
    ∀ id input calls, Reachable p.toSys → step p.toSys (.readWatch id input calls) ≠ .error .nullClient := by
  refine ⟨passed_coherent passed, fun id input calls reached failed => ?_⟩
  have recorded := reachable_recorded reached
  by_cases scheduled : (id, SourceFunc.readCallback) ∈ p.sources
  · obtain ⟨client, present⟩ := scheduled_client (passed_coherent passed) recorded scheduled
    simp only [step, if_pos scheduled] at failed
    have refused := ioReadCallback_error present (reachable_remainder reached) failed
    exact absurd refused (by simp [Stop.Refused])
  · simp only [step, if_neg scheduled] at failed
    contradiction

theorem reader_coherent_started : ∃ s, steps .fresh [.call (.start .success 1)] = .ok s ∧
    s.readPid = some 7 ∧ Coherent s :=
  ⟨_, rfl, rfl, (reader_coherent (Reachable.fresh [.call (.start .success 1)] rfl).passed).1⟩

end Pn54x
