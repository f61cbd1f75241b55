import Pn54x.Io.Dispatch

/-! What each operation can do, once for all later proofs: one lemma an operation,
with every outcome and nothing about how the outcome is computed. -/
namespace Pn54x
open Transition

@[simp] theorem record_object (s : Sys) (e : Event) : (s.record e).toPn54xIo = s.toPn54xIo := rfl
@[simp] theorem record_log (s : Sys) (e : Event) : (s.record e).log = s.log ++ [e] := rfl
@[simp] theorem record_sources (s : Sys) (e : Event) : (s.record e).sources = s.sources := rfl
@[simp] theorem record_power (s : Sys) (e : Event) : (s.record e).power = s.power := rfl

@[simp] theorem removeSource_object (s : Sys) (id : SourceId) :
    (s.removeSource id).toPn54xIo = s.toPn54xIo := rfl
@[simp] theorem removeSource_log (s : Sys) (id : SourceId) : (s.removeSource id).log = s.log := rfl
@[simp] theorem removeSource_power (s : Sys) (id : SourceId) :
    (s.removeSource id).power = s.power := rfl

theorem acquire_ok {s t : Sys} {fd : Fd} : s.acquire fd = .ok t ↔
    fd ∉ s.files ∧ t = { s with files := fd :: s.files } := by
  unfold Sys.acquire
  split <;> simp_all [eq_comm]

theorem fork_ok {s t : Sys} {pid : Pid} : s.fork pid = .ok t ↔
    pid ∉ s.children ∧ t = { s with children := pid :: s.children } := by
  unfold Sys.fork
  split <;> simp_all [eq_comm]

def Event.isClosed : Event → Bool
  | .closed _ _ => true
  | _ => false

/-- Closing touches the read side and the device descriptor, and calls nobody. -/
theorem ioClose_spec (s : Sys) : ∃ files closes, (∀ e ∈ closes, e.isClosed = true) ∧
    ioClose s = { s with
      readWatchId := none, readChannel := none, readPid := none, readFd := none, fd := none
      sources := s.readWatchId.elim s.sources fun id => (s.removeSource id).sources
      children := s.readPid.elim s.children s.children.erase
      files, log := s.log ++ closes } := by
  refine ⟨(ioClose s).files, (ioClose s).log.drop s.log.length, ?_, ?_⟩
  all_goals
    obtain ⟨⟨client, fd, readFd, readPid, readBuf, readChannel, readWatchId, writeId, writeCb, writeBuf⟩,
      ⟨files, children, sources, lastSource, power, log⟩⟩ := s
    cases readWatchId <;> cases readChannel <;> cases readPid <;> cases readFd <;> cases fd <;>
      simp [ioClose, Sys.close, Sys.removeSource, Event.isClosed]

section Close
variable (s : Sys)

@[simp] theorem ioClose_client : (ioClose s).client = s.client := by
  obtain ⟨files, closes, _, same⟩ := ioClose_spec s
  rw [same]

@[simp] theorem ioClose_readBuf : (ioClose s).readBuf = s.readBuf := by
  obtain ⟨files, closes, _, same⟩ := ioClose_spec s
  rw [same]

@[simp] theorem ioClose_readPid : (ioClose s).readPid = none := by
  obtain ⟨files, closes, _, same⟩ := ioClose_spec s
  rw [same]

@[simp] theorem ioClose_readWatchId : (ioClose s).readWatchId = none := by
  obtain ⟨files, closes, _, same⟩ := ioClose_spec s
  rw [same]

@[simp] theorem ioClose_fd : (ioClose s).fd = none := by
  obtain ⟨files, closes, _, same⟩ := ioClose_spec s
  rw [same]

@[simp] theorem ioClose_writeId : (ioClose s).writeId = s.writeId := by
  obtain ⟨files, closes, _, same⟩ := ioClose_spec s
  rw [same]

@[simp] theorem ioClose_writeCb : (ioClose s).writeCb = s.writeCb := by
  obtain ⟨files, closes, _, same⟩ := ioClose_spec s
  rw [same]

@[simp] theorem ioClose_power : (ioClose s).power = s.power := by
  obtain ⟨files, closes, _, same⟩ := ioClose_spec s
  rw [same]

@[simp] theorem ioClose_lastSource : (ioClose s).lastSource = s.lastSource := by
  obtain ⟨files, closes, _, same⟩ := ioClose_spec s
  rw [same]

theorem ioClose_sources :
    (ioClose s).sources = s.readWatchId.elim s.sources fun id => (s.removeSource id).sources := by
  obtain ⟨files, closes, _, same⟩ := ioClose_spec s
  rw [same]

theorem ioClose_log : ∃ closes, (∀ e ∈ closes, e.isClosed = true) ∧ (ioClose s).log = s.log ++ closes := by
  obtain ⟨files, closes, closed, same⟩ := ioClose_spec s
  exact ⟨closes, closed, by rw [same]⟩

end Close

theorem ioStop_eq (s : Sys) : ioStop s = ioClose { s with
    client := none, writeCb := none, readBuf := [], writeId := none
    sources := s.writeId.elim s.sources fun id => (s.removeSource id).sources } := by
  obtain ⟨⟨client, fd, readFd, readPid, readBuf, readChannel, readWatchId, writeId, writeCb, writeBuf⟩,
    kernel⟩ := s
  cases writeId <;> rfl

theorem halIoCancelWrite_eq (s : Sys) : halIoCancelWrite s = Sys.record { s with
    writeCb := none, writeId := none
    sources := s.writeId.elim s.sources fun id => (s.removeSource id).sources } .cancelWrite := by
  obtain ⟨⟨client, fd, readFd, readPid, readBuf, readChannel, readWatchId, writeId, writeCb, writeBuf⟩,
    kernel⟩ := s
  cases writeId <;> rfl

/-- The device is opened only where it was not open, and then only `fd` changes. -/
theorem ioOpen_ok {s t : Sys} (opens : ioOpen device s = .ok (opened, t)) :
    ∃ fd files, t = { s with fd, files } ∧ opened = fd.isSome ∧
      (s.fd.isSome = true ∨ fd = none → fd = s.fd ∧ files = s.files) := by
  unfold ioOpen at opens
  cases found : s.fd with
  | some fd =>
    rw [found] at opens
    obtain ⟨rfl, rfl⟩ := Prod.mk.inj (Except.ok.inj opens)
    exact ⟨s.fd, s.files, rfl, by rw [found]; rfl, by simp [found]⟩
  | none =>
    rw [found] at opens
    cases device with
    | none =>
      obtain ⟨rfl, rfl⟩ := Prod.mk.inj (Except.ok.inj opens)
      exact ⟨s.fd, s.files, rfl, by rw [found]; rfl, by simp [found]⟩
    | some fd =>
      obtain ⟨m, acquired, done⟩ := bind_ok.mp opens
      obtain ⟨rfl, rfl⟩ := Prod.mk.inj (Except.ok.inj done)
      obtain ⟨fresh, rfl⟩ := acquire_ok.mp acquired
      exact ⟨some fd, fd :: s.files, rfl, rfl, by simp⟩

theorem ioSetPower_ok {s t : Sys} (power : ioSetPower env on s = .ok (ok, t)) :
    ∃ fd files, ok = (fd.isSome && env.ioctl) ∧
      (s.fd.isSome = true ∨ fd = none → fd = s.fd ∧ files = s.files) ∧
      t = Sys.record (if ok then
          if on then { s with fd, files, power := on } else ioClose { s with fd, files, power := on }
        else { s with fd, files }) (.setPower on ok) := by
  obtain ⟨⟨opened, m⟩, opens, power⟩ := bind_ok.mp power
  obtain ⟨fd, files, rfl, rfl, same⟩ := ioOpen_ok opens
  refine ⟨fd, files, ?_⟩
  cases answers : fd.isSome && env.ioctl with
  | true =>
    simp only [answers, if_true] at power
    obtain ⟨rfl, rfl⟩ := Prod.mk.inj (pure_ok.mp power)
    exact ⟨rfl, same, rfl⟩
  | false =>
    simp only [answers] at power
    obtain ⟨rfl, rfl⟩ := Prod.mk.inj (pure_ok.mp power)
    exact ⟨rfl, same, rfl⟩

theorem gassert_ok : gassert condition = .ok u ↔ condition = true := by
  cases condition <;> simp [gassert]

theorem startReader_ok {s t : Sys} (starts : startReader env client s = .ok (started, t)) :
    (∃ fd pid files children log, started = true ∧
      t = Sys.watchReader { s with
        client := some client, readPid := some pid, readFd := some fd, files, children
        log := s.log ++ log } fd ∧ ∀ e ∈ log, e.isClosed = true) ∨
    (∃ client readPid readFd files children log, started = false ∧
      t = { s with client, readPid, readFd, files, children, log := s.log ++ log } ∧
      ∀ e ∈ log, e.isClosed = true) := by
  unfold startReader at starts
  split at starts
  · obtain ⟨rfl, rfl⟩ := Prod.mk.inj (Except.ok.inj starts)
    exact .inr ⟨s.client, s.readPid, s.readFd, s.files, s.children, [], rfl, by simp, by simp⟩
  · rename_i readEnd writeEnd _
    obtain ⟨_, acquired, starts⟩ := bind_ok.mp starts
    obtain ⟨_, rfl⟩ := acquire_ok.mp acquired
    obtain ⟨_, acquired, starts⟩ := bind_ok.mp starts
    obtain ⟨_, rfl⟩ := acquire_ok.mp acquired
    split at starts
    · obtain ⟨_, forked, starts⟩ := bind_ok.mp starts
      obtain ⟨_, rfl⟩ := fork_ok.mp forked
      split at starts
      · obtain ⟨rfl, rfl⟩ := Prod.mk.inj (Except.ok.inj starts)
        exact .inl ⟨_, _, _, _, _, rfl, rfl, by simp [Event.isClosed]⟩
      · obtain ⟨rfl, rfl⟩ := Prod.mk.inj (Except.ok.inj starts)
        exact .inr ⟨_, _, _, _, _, _, rfl, rfl, by simp [Event.isClosed]⟩
    · obtain ⟨rfl, rfl⟩ := Prod.mk.inj (Except.ok.inj starts)
      exact .inr ⟨none, none, s.readFd, writeEnd :: readEnd :: s.files, s.children, [], rfl,
        by simp, by simp⟩

/-- A start finds no reader. It ends with a watched reader, or closed, or, when the
device does not open, with nothing done. -/
theorem halIoStart_ok {s t : Sys} (starts : halIoStart env client s = .ok (ok, t)) :
    s.readPid = none ∧
    ((∃ fd readFd pid files children log, ok = true ∧ (∀ e ∈ log, e.isClosed = true) ∧
        t = (Sys.watchReader { s with
          client := some client, fd, readPid := some pid, readFd := some readFd, files, children
          log := s.log ++ log } readFd).record (.start client true)) ∨
      (∃ newClient fd readPid readFd files children log, ok = false ∧
        (∀ e ∈ log, e.isClosed = true) ∧
        t = (ioClose { s with
          client := newClient, fd, readPid, readFd, files, children
          log := s.log ++ log }).record (.start client false)) ∨
      (ok = false ∧ s.fd = none ∧ t = s.record (.start client false))) := by
  obtain ⟨_, idle, starts⟩ := bind_ok.mp starts
  refine ⟨by simpa using gassert_ok.mp idle, ?_⟩
  obtain ⟨⟨opened, m⟩, opens, starts⟩ := bind_ok.mp starts
  obtain ⟨fd, files, rfl, rfl, same⟩ := ioOpen_ok opens
  cases fd with
  | none =>
    obtain ⟨rfl, rfl⟩ := Prod.mk.inj (pure_ok.mp starts)
    obtain ⟨closed, rfl⟩ := same (.inr rfl)
    exact .inr (.inr ⟨rfl, closed.symm, by rw [closed]⟩)
  | some fd =>
    obtain ⟨⟨started, u⟩, reader, starts⟩ := bind_ok.mp starts
    rcases startReader_ok reader with
      ⟨readFd, pid, files, children, log, rfl, rfl, closed⟩ |
      ⟨newClient, readPid, readFd, files, children, log, rfl, rfl, closed⟩
    · obtain ⟨rfl, rfl⟩ := Prod.mk.inj (pure_ok.mp starts)
      exact .inl ⟨_, _, _, _, _, _, rfl, closed, rfl⟩
    · obtain ⟨rfl, rfl⟩ := Prod.mk.inj (pure_ok.mp starts)
      exact .inr (.inl ⟨_, _, _, _, _, _, _, rfl, closed, rfl⟩)

theorem halIoWriteData_ok {s t : Sys} (gathers : halIoWriteData chunks s = .ok (data, t)) :
    ∃ writeBuf, t = { s with writeBuf } := by
  unfold halIoWriteData at gathers
  split at gathers
  · obtain ⟨rfl, rfl⟩ := Prod.mk.inj (Except.ok.inj gathers)
    exact ⟨s.writeBuf, rfl⟩
  · obtain ⟨writeBuf, _, done⟩ := bind_ok.mp gathers
    obtain ⟨rfl, rfl⟩ := Prod.mk.inj (Except.ok.inj done)
    exact ⟨_, rfl⟩

theorem write_ok {s t : Sys} (writes : s.write data accepted = .ok t) :
    t = s.record (.sent data accepted) := by
  unfold Sys.write at writes
  split at writes
  · contradiction
  · exact (Except.ok.inj writes).symm

theorem halIoWrite_ok {s t : Sys} (writes : halIoWrite env chunks callback s = .ok (ok, t)) :
    ∃ fd files, (s.fd.isSome = true ∨ fd = none → fd = s.fd ∧ files = s.files) ∧
      ((ok = false ∧ t = Sys.record { s with fd, files } (.write callback false)) ∨
        ∃ data writeBuf, s.writeCb = none ∧ s.writeId = none ∧
          ok = (env.written == some data.length) ∧
          t = Sys.record (if ok then Sys.scheduleComplete
                (Sys.record { s with fd, files, writeBuf } (.sent data env.written)) callback
              else Sys.record { s with fd, files, writeBuf } (.sent data env.written))
            (.write callback ok)) := by
  obtain ⟨⟨opened, m⟩, opens, writes⟩ := bind_ok.mp writes
  obtain ⟨fd, files, rfl, rfl, same⟩ := ioOpen_ok opens
  refine ⟨fd, files, same, ?_⟩
  cases fd with
  | none =>
    obtain ⟨rfl, rfl⟩ := Prod.mk.inj (pure_ok.mp writes)
    exact .inl ⟨rfl, rfl⟩
  | some fd =>
    obtain ⟨_, noCb, writes⟩ := bind_ok.mp writes
    obtain ⟨_, noId, writes⟩ := bind_ok.mp writes
    obtain ⟨⟨data, u⟩, gathers, writes⟩ := bind_ok.mp writes
    obtain ⟨writeBuf, rfl⟩ := halIoWriteData_ok gathers
    obtain ⟨v, taken, writes⟩ := bind_ok.mp writes
    obtain rfl := write_ok taken
    obtain ⟨rfl, rfl⟩ := Prod.mk.inj (pure_ok.mp writes)
    exact .inr ⟨data, writeBuf, by simpa using gassert_ok.mp noCb, by simpa using gassert_ok.mp noId,
      rfl, rfl⟩

theorem perform_start {s t : Sys} (performed : Call.perform s (.start env client) = .ok t) :
    ∃ ok, halIoStart env client s = .ok (ok, t) := by
  obtain ⟨⟨ok, u⟩, starts, same⟩ := bind_ok.mp performed
  obtain rfl := pure_ok.mp same
  exact ⟨ok, starts⟩

theorem perform_write {s t : Sys} (performed : Call.perform s (.write env chunks callback) = .ok t) :
    ∃ ok, halIoWrite env chunks callback s = .ok (ok, t) := by
  obtain ⟨⟨ok, u⟩, writes, same⟩ := bind_ok.mp performed
  obtain rfl := pure_ok.mp same
  exact ⟨ok, writes⟩

theorem perform_setPower {s t : Sys} (performed : Call.perform s (.setPower env on) = .ok t) :
    ∃ ok, ioSetPower env on s = .ok (ok, t) := by
  obtain ⟨⟨ok, u⟩, power, same⟩ := bind_ok.mp performed
  obtain rfl := pure_ok.mp same
  exact ⟨ok, power⟩

end Pn54x
