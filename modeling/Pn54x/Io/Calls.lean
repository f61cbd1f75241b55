import Pn54x.Io.Outcomes

/-! What a call of the API leaves alone. Only starting and stopping touch the
client and `read_buf`; no call delivers a packet. -/
namespace Pn54x
open Transition

/-- The packets given to clients, with the client, in order. -/
def reads (log : List Event) : List (Client × List Octet) :=
  log.filterMap fun
    | .read client packet => some (client, packet)
    | _ => none

theorem reads_append (log log' : List Event) : reads (log ++ log') = reads log ++ reads log' :=
  List.filterMap_append ..

/-- The client hears of packets and of errors. -/
def Event.Heard : Event → Bool
  | .read _ _ | .error _ => true
  | _ => false

/-- What a client hears, in order. -/
def heard (log : List Event) : List Event := log.filter Event.Heard

theorem heard_append (log log' : List Event) : heard (log ++ log') = heard log ++ heard log' :=
  List.filter_append ..

theorem heard_closed {closes : List Event} (closed : ∀ e ∈ closes, e.isClosed = true) :
    heard closes = [] := by
  simp only [heard, List.filter_eq_nil_iff]
  intro e member
  have := closed e member
  cases e <;> simp_all [Event.isClosed, Event.Heard]

theorem reads_heard (log : List Event) : reads (heard log) = reads log := by
  simp only [reads, heard, List.filterMap_filter]
  congr 1
  funext e
  cases e <;> rfl

theorem reads_closed {closes : List Event} (closed : ∀ e ∈ closes, e.isClosed = true) :
    reads closes = [] := by
  rw [← reads_heard, heard_closed closed]
  rfl

/-- Neither a start nor a stop. Powering off is passive in this sense: it ends the
session, but the object keeps its client and what it has read. -/
def Call.Passive : Call → Prop
  | .start _ _ | .stop => False
  | .write _ _ _ | .cancelWrite | .setPower _ _ => True

instance (c : Call) : Decidable c.Passive := by
  unfold Call.Passive
  split <;> infer_instance

/-- The client and `read_buf` of `s` are those of `t`, and the client heard nothing in
between. -/
structure Kept (s t : Sys) : Prop where
  client : t.client = s.client
  readBuf : t.readBuf = s.readBuf
  heard : heard t.log = heard s.log

theorem Kept.reads (kept : Kept s t) : reads t.log = reads s.log := by
  rw [← reads_heard t.log, kept.heard, reads_heard]

theorem Kept.refl (s : Sys) : Kept s s := ⟨rfl, rfl, rfl⟩

theorem Kept.trans (first : Kept s t) (second : Kept t u) : Kept s u :=
  ⟨second.client.trans first.client, second.readBuf.trans first.readBuf,
    second.heard.trans first.heard⟩

@[simp] theorem scheduleComplete_log (s : Sys) (callback : Option Callback) :
    (s.scheduleComplete callback).log = s.log := by
  cases callback <;> rfl

theorem scheduleComplete_kept (s : Sys) (callback : Option Callback) :
    Kept s (s.scheduleComplete callback) := by
  cases callback <;> exact ⟨rfl, rfl, rfl⟩

theorem record_kept (s : Sys) {e : Event} (other : heard [e] = []) : Kept s (s.record e) :=
  ⟨rfl, rfl, by rw [record_log, heard_append, other, List.append_nil]⟩

theorem halIoWrite_kept {s t : Sys} (writes : halIoWrite env chunks callback s = .ok (ok, t)) :
    Kept s t := by
  obtain ⟨fd, files, _, ⟨rfl, rfl⟩ | ⟨data, writeBuf, _, _, _, rfl⟩⟩ := halIoWrite_ok writes
  · exact Kept.trans (t := { s with fd, files }) ⟨rfl, rfl, rfl⟩ (record_kept _ rfl)
  · have sent : Kept s (Sys.record { s with fd, files, writeBuf } (.sent data env.written)) :=
      Kept.trans (t := { s with fd, files, writeBuf }) ⟨rfl, rfl, rfl⟩
        (record_kept _ rfl)
    refine Kept.trans ?_ (record_kept _ rfl)
    split
    · exact sent.trans (scheduleComplete_kept _ _)
    · exact sent

theorem halIoCancelWrite_kept (s : Sys) : Kept s (halIoCancelWrite s) := by
  refine Kept.trans ?_ (record_kept _ rfl)
  split <;> exact ⟨rfl, rfl, rfl⟩

theorem ioClose_kept (s : Sys) : Kept s (ioClose s) := by
  obtain ⟨closes, closed, log⟩ := ioClose_log s
  exact ⟨ioClose_client s, ioClose_readBuf s, by rw [log, heard_append, heard_closed closed, List.append_nil]⟩

theorem ioSetPower_kept {s t : Sys} (power : ioSetPower env on s = .ok (ok, t)) : Kept s t := by
  obtain ⟨fd, files, _, _, rfl⟩ := ioSetPower_ok power
  refine Kept.trans ?_ (record_kept _ rfl)
  split
  · split
    · exact ⟨rfl, rfl, rfl⟩
    · exact Kept.trans (t := { s with fd, files, power := on }) ⟨rfl, rfl, rfl⟩ (ioClose_kept _)
  · exact ⟨rfl, rfl, rfl⟩

theorem Call.Passive.kept {c : Call} (passive : c.Passive) (performed : c.perform s = .ok t) :
    Kept s t := by
  cases c with
  | start | stop => contradiction
  | write env chunks callback =>
    obtain ⟨ok, writes⟩ := perform_write performed
    exact halIoWrite_kept writes
  | cancelWrite =>
    obtain rfl := Except.ok.inj performed
    exact halIoCancelWrite_kept s
  | setPower env on =>
    obtain ⟨ok, power⟩ := perform_setPower performed
    exact ioSetPower_kept power

theorem react_kept {calls : List Call} (passive : ∀ c ∈ calls, c.Passive)
    (reacted : react calls s = .ok t) : Kept s t :=
  run_invariant (P := Kept s) (fun kept passive performed => kept.trans (passive.kept performed))
    (.refl s) passive reacted

theorem halIoStart_readBuf {s t : Sys} (starts : halIoStart env client s = .ok (ok, t)) :
    t.readBuf = s.readBuf := by
  rcases (halIoStart_ok starts).2 with
    ⟨_, _, _, _, _, _, _, _, rfl⟩ | ⟨_, _, _, _, _, _, _, _, _, rfl⟩ | ⟨_, _, rfl⟩
  · rfl
  · simp
  · rfl

theorem halIoStop_readBuf (s : Sys) : (halIoStop s).readBuf = [] := by
  simp only [halIoStop, ioStop, record_object, ioClose_readBuf]
  split <;> rfl

/-- `read_buf` is emptied by stopping and otherwise left alone. -/
theorem perform_readBuf {c : Call} (performed : c.perform s = .ok t) :
    t.readBuf = if c = .stop then [] else s.readBuf := by
  cases c with
  | start env client =>
    obtain ⟨ok, starts⟩ := perform_start performed
    exact halIoStart_readBuf starts
  | stop =>
    obtain rfl := Except.ok.inj performed
    exact halIoStop_readBuf s
  | write env chunks callback =>
    obtain ⟨ok, writes⟩ := perform_write performed
    exact (halIoWrite_kept writes).readBuf
  | cancelWrite =>
    obtain rfl := Except.ok.inj performed
    exact (halIoCancelWrite_kept s).readBuf
  | setPower env on =>
    obtain ⟨ok, power⟩ := perform_setPower performed
    exact (ioSetPower_kept power).readBuf

theorem react_readBuf {calls : List Call} (reacted : react calls s = .ok t) :
    t.readBuf = s.readBuf ∨ t.readBuf = [] := by
  refine run_invariant (P := fun m => m.readBuf = s.readBuf ∨ m.readBuf = []) (A := fun _ => True)
    ?_ (.inl rfl) (by simp) reacted
  intro m c n before _ performed
  rw [perform_readBuf performed]
  split
  · exact .inr rfl
  · exact before

/-- Answers that a caller of the API can run into: its own broken assertion, an
array too long for a `guint`, or what the kernel never answers. -/
def Stop.Refused (e : Stop) : Prop := e = .assertion ∨ e = .overflow ∨ e = .impossible

theorem gassert_error (failed : gassert condition = .error e) : e.Refused := by
  cases condition with
  | true => contradiction
  | false => exact .inl (Except.error.inj failed).symm

theorem acquire_error {s : Sys} (failed : s.acquire fd = .error e) : e.Refused := by
  unfold Sys.acquire at failed
  split at failed
  · exact .inr (.inr (Except.error.inj failed).symm)
  · contradiction

theorem fork_error {s : Sys} (failed : s.fork pid = .error e) : e.Refused := by
  unfold Sys.fork at failed
  split at failed
  · exact .inr (.inr (Except.error.inj failed).symm)
  · contradiction

theorem write_error {s : Sys} (failed : s.write data accepted = .error e) : e.Refused := by
  unfold Sys.write at failed
  split at failed
  · exact .inr (.inr (Except.error.inj failed).symm)
  · contradiction

theorem ioOpen_error {s : Sys} (failed : ioOpen device s = .error e) : e.Refused := by
  unfold ioOpen at failed
  split at failed
  · contradiction
  · split at failed
    · refine bind_error failed acquire_error fun _ _ done => ?_
      contradiction
    · contradiction

theorem byteArrayAppend_error (failed : byteArrayAppend array chunk chunk.length = .error e) :
    e.Refused := by
  unfold byteArrayAppend at failed
  split at failed
  · exact .inr (.inl (Except.error.inj failed).symm)
  · have within : guint chunk.length ≤ chunk.length := Nat.mod_le _ _
    rw [if_neg (by omega)] at failed
    contradiction

theorem halIoWriteData_error {s : Sys} (failed : halIoWriteData chunks s = .error e) : e.Refused := by
  unfold halIoWriteData at failed
  split at failed
  · contradiction
  · refine bind_error failed (fun gathering => ?_) fun _ _ done => ?_
    · obtain ⟨_, chunk, _, array, _, _, refused⟩ := run_error gathering
      exact byteArrayAppend_error refused
    · contradiction

theorem startReader_error {s : Sys} (failed : startReader env client s = .error e) : e.Refused := by
  unfold startReader at failed
  split at failed
  · contradiction
  · refine bind_error failed acquire_error fun _ _ failed => ?_
    refine bind_error failed acquire_error fun _ _ failed => ?_
    split at failed
    · refine bind_error failed fork_error fun _ _ failed => ?_
      split at failed <;> contradiction
    · contradiction

theorem halIoStart_error {s : Sys} (failed : halIoStart env client s = .error e) : e.Refused := by
  unfold halIoStart at failed
  refine bind_error failed gassert_error fun _ _ failed => ?_
  refine bind_error failed ioOpen_error fun opened _ failed => ?_
  obtain ⟨opened, m⟩ := opened
  cases opened with
  | false => contradiction
  | true =>
    refine bind_error failed startReader_error fun _ _ done => ?_
    contradiction

theorem halIoWrite_error {s : Sys} (failed : halIoWrite env chunks callback s = .error e) : e.Refused := by
  unfold halIoWrite at failed
  refine bind_error failed ioOpen_error fun opened _ failed => ?_
  obtain ⟨opened, m⟩ := opened
  cases opened with
  | false => contradiction
  | true =>
    refine bind_error failed gassert_error fun _ _ failed => ?_
    refine bind_error failed gassert_error fun _ _ failed => ?_
    refine bind_error failed halIoWriteData_error fun _ _ failed => ?_
    refine bind_error failed write_error fun _ _ done => ?_
    contradiction

theorem ioSetPower_error {s : Sys} (failed : ioSetPower env on s = .error e) : e.Refused := by
  unfold ioSetPower at failed
  refine bind_error failed ioOpen_error fun _ _ failed => ?_
  simp only at failed
  split at failed <;> contradiction

/-- No call reads outside a buffer or wraps a length. -/
theorem perform_error {c : Call} (failed : c.perform s = .error e) : e.Refused := by
  cases c with
  | start env client =>
    refine bind_error failed halIoStart_error fun _ _ done => ?_
    contradiction
  | stop | cancelWrite => contradiction
  | write env chunks callback =>
    refine bind_error failed halIoWrite_error fun _ _ done => ?_
    contradiction
  | setPower env on =>
    refine bind_error failed ioSetPower_error fun _ _ done => ?_
    contradiction

end Pn54x
