import Pn54x.Io.Completion
import Pn54x.Io.Descriptors
import Pn54x.Library.Simulation

/-! What is left of a session when it is stopped. From then on the object does what a new
object does; nothing that was received, written or scheduled before comes back. -/
namespace Pn54x
open Transition

/-- What an object has behind it: the source ids that were given out, the descriptors that
were lost, and what was seen of it until now, as `told` of the new object. -/
structure Past where
  ids : Nat
  lost : List Fd
  log : List Event
  told : List Event

/-- The state of an object with a past, told by that of one without. -/
def Sys.aged (s : Sys) (past : Past) (writeBuf : List Octet) (power : Bool) (later : List Event) : Sys :=
  { s with
    readWatchId := s.readWatchId.map (· + past.ids), writeId := s.writeId.map (· + past.ids)
    sources := s.sources.map fun source => (source.1 + past.ids, source.2)
    lastSource := s.lastSource + past.ids
    writeBuf, power, files := s.files ++ past.lost, log := past.log ++ later }

/-- The first has a past and the second has none, and there is no other difference. -/
structure Alike (past : Past) (s s' : Sys) : Prop where
  stored : ∀ fd ∈ s'.stored, fd ∉ past.lost
  aged : ∃ writeBuf power later, s'.log = past.told ++ later ∧ s = s'.aged past writeBuf power later

/-- A step of the object with a past, as a step of the one without. -/
def Step.since (k : Nat) : Step → Step
  | .call c => .call c
  | .readWatch id input calls => .readWatch (id - k) input calls
  | .idle id calls => .idle (id - k) calls

theorem ioClose_eq (s : Sys) : ioClose s = { s with
    readWatchId := none, readChannel := none, readPid := none, readFd := none, fd := none
    sources := s.readWatchId.elim s.sources fun id => (s.removeSource id).sources
    children := s.readPid.elim s.children s.children.erase
    files := s.files.diff s.stored, log := s.log ++ closeEvents s.files s.stored } := by
  obtain ⟨files, closes, _, same⟩ := ioClose_spec s
  obtain ⟨kept, told⟩ := ioClose_closes s
  rw [same] at kept told ⊢
  simp only at kept told
  rw [← kept, ← told]

theorem diff_lost (files : List Fd) {lost fds : List Fd} (apart : ∀ fd ∈ fds, fd ∉ lost) :
    (files ++ lost).diff fds = files.diff fds ++ lost ∧ closeEvents (files ++ lost) fds = closeEvents files fds := by
  induction fds generalizing files with
  | nil => exact ⟨rfl, rfl⟩
  | cons fd fds ih =>
    obtain ⟨here, others⟩ := List.forall_mem_cons.mp apart
    have erased : (files ++ lost).erase fd = files.erase fd ++ lost := by
      rw [List.erase_append]
      split
      · rfl
      · rename_i absent
        rw [List.erase_of_not_mem absent, List.erase_of_not_mem here]
    obtain ⟨kept, told⟩ := ih (files.erase fd) others
    simp only [List.diff_cons, closeEvents, erased, kept, told, List.mem_append, here, or_false, and_self]

section
variable {past : Past} {s s' : Sys}

theorem Alike.record (alike : Alike past s s') (e : Event) : Alike past (s.record e) (s'.record e) := by
  obtain ⟨stored, writeBuf, power, later, told, rfl⟩ := alike
  refine ⟨stored, writeBuf, power, later ++ [e], ?_, ?_⟩
  · rw [record_log, told, List.append_assoc]
  · simp [Sys.record, Sys.aged]

/-- What is acquired was not lost before. -/
theorem Alike.acquire (alike : Alike past s s') (fd : Fd) :
    Follows (fun t t' => Alike past t t' ∧ fd ∉ past.lost) (s.acquire fd) (s'.acquire fd) := by
  obtain ⟨stored, writeBuf, power, later, told, rfl⟩ := alike
  intro t acquired
  obtain ⟨fresh, rfl⟩ := acquire_ok.mp acquired
  simp only [Sys.aged, List.mem_append, not_or] at fresh
  exact ⟨_, acquire_ok.mpr ⟨fresh.1, rfl⟩, ⟨stored, writeBuf, power, later, told, rfl⟩, fresh.2⟩

theorem Alike.open (alike : Alike past s s') (device : Option Fd) :
    Follows (fun p q => p.1 = q.1 ∧ Alike past p.2 q.2) (ioOpen device s) (ioOpen device s') := by
  have device' : s.fd = s'.fd := by
    obtain ⟨_, _, _, _, _, rfl⟩ := alike
    rfl
  unfold ioOpen
  rw [device']
  cases s'.fd with
  | some _ => exact follows_ok ⟨rfl, alike⟩
  | none =>
    cases device with
    | none => exact follows_ok ⟨rfl, alike⟩
    | some d =>
      refine Follows.bind (alike.acquire d) fun t t' opened => follows_ok ⟨rfl, ?_⟩
      obtain ⟨⟨stored, writeBuf, power, later, told, rfl⟩, fresh⟩ := opened
      refine ⟨fun fd member => ?_, writeBuf, power, later, told, rfl⟩
      simp only [Sys.stored, List.mem_append, Option.mem_toList] at member stored
      cases member with
      | inl reading => exact stored fd (.inl reading)
      | inr same =>
        obtain rfl := Option.some.inj same
        exact fresh

/-- Source ids stay apart. -/
theorem aged_filter (sources : List (SourceId × SourceFunc)) (k id : Nat) :
    (sources.map fun source => (source.1 + k, source.2)).filter (fun source => source.1 ≠ id + k) =
      (sources.filter fun source => source.1 ≠ id).map fun source => (source.1 + k, source.2) := by
  rw [List.filter_map]
  congr 2
  funext source
  simp

theorem aged_sources (past : Past) (writeBuf : List Octet) (power : Bool) (later : List Event) (s : Sys)
    (id : Option SourceId) :
    ((id.map (· + past.ids)).elim (s.aged past writeBuf power later).sources fun id =>
        ((s.aged past writeBuf power later).removeSource id).sources) =
      (id.elim s.sources fun id => (s.removeSource id).sources).map fun source =>
        (source.1 + past.ids, source.2) := by
  cases id with
  | none => rfl
  | some id => exact aged_filter s.sources past.ids id

theorem Alike.close (alike : Alike past s s') : Alike past (ioClose s) (ioClose s') := by
  obtain ⟨stored, writeBuf, power, later, told, rfl⟩ := alike
  obtain ⟨files, closes⟩ := diff_lost s'.files stored
  refine ⟨by simp [Sys.stored], writeBuf, power, later ++ closeEvents s'.files s'.stored, ?_, ?_⟩
  · rw [(ioClose_closes s').2, told, List.append_assoc]
  · have removed := aged_sources past writeBuf power later s' s'.readWatchId
    rw [ioClose_eq, ioClose_eq s']
    simp only [Sys.aged] at removed ⊢
    simp only [Sys.stored] at files closes ⊢
    simp only [removed, files, closes, Option.map_none, ← List.append_assoc]

theorem Alike.remove (alike : Alike past s s') (id : SourceId) :
    Alike past (s.removeSource (id + past.ids)) (s'.removeSource id) := by
  obtain ⟨stored, writeBuf, power, later, told, rfl⟩ := alike
  refine ⟨stored, writeBuf, power, later, told, ?_⟩
  simp only [Sys.removeSource, Sys.aged, aged_filter]

theorem Alike.fork (alike : Alike past s s') (pid : Pid) : Follows (Alike past) (s.fork pid) (s'.fork pid) := by
  obtain ⟨stored, writeBuf, power, later, told, rfl⟩ := alike
  intro t forked
  obtain ⟨fresh, rfl⟩ := fork_ok.mp forked
  exact ⟨_, fork_ok.mpr ⟨fresh, rfl⟩, stored, writeBuf, power, later, told, rfl⟩

theorem Alike.shut (alike : Alike past s s') (apart : fd ∉ past.lost) : Alike past (s.close fd) (s'.close fd) := by
  obtain ⟨stored, writeBuf, power, later, told, rfl⟩ := alike
  have only : ∀ other ∈ [fd], other ∉ past.lost := by simpa using apart
  obtain ⟨files, _⟩ := diff_lost s'.files only
  refine ⟨stored, writeBuf, power, later ++ [.closed fd (fd ∈ s'.files)], ?_, ?_⟩
  · simp [Sys.close, told]
  · simp only [List.diff_cons, List.diff_nil] at files
    simp [Sys.close, Sys.aged, files, apart]

theorem Alike.watch (alike : Alike past s s') (apart : fd ∉ past.lost) :
    Alike past (s.watchReader fd) (s'.watchReader fd) := by
  obtain ⟨stored, writeBuf, power, later, told, rfl⟩ := alike
  refine ⟨fun other member => ?_, writeBuf, power, later, told, ?_⟩
  · simp only [Sys.stored, List.mem_append, Option.mem_toList] at member stored
    rcases member with (same | reading) | device
    · obtain rfl := Option.some.inj same
      exact apart
    · exact stored other (.inl (.inr reading))
    · exact stored other (.inr device)
  · simp [Sys.watchReader, Sys.addSource, Sys.aged, Nat.add_right_comm]

theorem Alike.reader (alike : Alike past s s') (env : StartEnv) (client : Client) :
    Follows (fun p q => p.1 = q.1 ∧ Alike past p.2 q.2) (startReader env client s) (startReader env client s') := by
  unfold startReader
  split
  · exact follows_ok ⟨rfl, alike⟩
  · rename_i readEnd writeEnd _
    apply Follows.bind (alike.acquire readEnd)
    intro t t' read
    apply Follows.bind (read.1.acquire writeEnd)
    intro t t' wrote
    split
    · rename_i pid _
      apply Follows.bind (wrote.1.fork pid)
      intro t t' alike
      have running : Alike past { t with client := some client, readPid := some pid }
          { t' with client := some client, readPid := some pid } := by
        obtain ⟨stored, writeBuf, power, later, told, rfl⟩ := alike
        exact ⟨stored, writeBuf, power, later, told, rfl⟩
      have piped : Alike past
          { Sys.close { t with client := some client, readPid := some pid } writeEnd with readFd := some readEnd }
          { Sys.close { t' with client := some client, readPid := some pid } writeEnd with readFd := some readEnd } := by
        obtain ⟨stored, writeBuf, power, later, told, same⟩ := running.shut wrote.2
        refine ⟨fun fd member => ?_, writeBuf, power, later, told, by rw [same]; rfl⟩
        simp only [Sys.stored, List.mem_append, Option.mem_toList] at member stored
        rcases member with (channel | same) | device
        · exact stored fd (.inl (.inl channel))
        · obtain rfl := Option.some.inj same
          exact read.2
        · exact stored fd (.inr device)
      split
      · exact follows_ok ⟨rfl, piped.watch read.2⟩
      · exact follows_ok ⟨rfl, piped⟩
    · obtain ⟨⟨stored, writeBuf, power, later, told, rfl⟩, _⟩ := wrote
      exact follows_ok ⟨rfl, stored, writeBuf, power, later, told, rfl⟩

theorem Alike.start (alike : Alike past s s') (env : StartEnv) (client : Client) :
    Follows (fun p q => p.1 = q.1 ∧ Alike past p.2 q.2) (halIoStart env client s) (halIoStart env client s') := by
  have idle : s.readPid = s'.readPid := by
    obtain ⟨_, _, _, _, _, rfl⟩ := alike
    rfl
  unfold halIoStart
  rw [idle]
  apply Follows.same
  intro _
  apply Follows.bind (alike.open env.device)
  rintro ⟨opened, t⟩ ⟨opened', t'⟩ ⟨answer, alike⟩
  obtain rfl : opened = opened' := answer
  cases opened with
  | false => exact follows_ok ⟨rfl, alike.record _⟩
  | true =>
    apply Follows.bind (alike.reader env client)
    rintro ⟨started, u⟩ ⟨started', u'⟩ ⟨answer, alike⟩
    obtain rfl : started = started' := answer
    cases started with
    | true => exact follows_ok ⟨rfl, alike.record _⟩
    | false => exact follows_ok ⟨rfl, alike.close.record _⟩

theorem aged_writeId (past : Past) (writeBuf : List Octet) (power : Bool) (later : List Event) (s : Sys) :
    (s.aged past writeBuf power later).writeId = s.writeId.map (· + past.ids) := rfl

/-- What was to be written is given up. -/
theorem Alike.drop (alike : Alike past s s') : Alike past
    { s with
      writeCb := none, writeId := none
      sources := s.writeId.elim s.sources fun id => (s.removeSource id).sources }
    { s' with
      writeCb := none, writeId := none
      sources := s'.writeId.elim s'.sources fun id => (s'.removeSource id).sources } := by
  obtain ⟨stored, writeBuf, power, later, told, rfl⟩ := alike
  refine ⟨stored, writeBuf, power, later, told, ?_⟩
  rw [aged_writeId, aged_sources]
  rfl

theorem Alike.emptied (alike : Alike past s s') (client : Option Client) (readBuf : List Octet) :
    Alike past { s with client, readBuf } { s' with client, readBuf } := by
  obtain ⟨stored, writeBuf, power, later, told, rfl⟩ := alike
  exact ⟨stored, writeBuf, power, later, told, rfl⟩

theorem Alike.stop (alike : Alike past s s') : Alike past (halIoStop s) (halIoStop s') := by
  rw [halIoStop, halIoStop, ioStop_eq, ioStop_eq]
  exact (alike.drop.emptied none []).close.record _

theorem Alike.cancel (alike : Alike past s s') : Alike past (halIoCancelWrite s) (halIoCancelWrite s') := by
  rw [halIoCancelWrite_eq, halIoCancelWrite_eq]
  exact alike.drop.record _

theorem Alike.gather (alike : Alike past s s') (chunks : List (List Octet)) :
    Follows (fun p q => p.1 = q.1 ∧ Alike past p.2 q.2) (halIoWriteData chunks s) (halIoWriteData chunks s') := by
  unfold halIoWriteData
  split
  · exact follows_ok ⟨rfl, alike⟩
  · apply Follows.same
    intro writeBuf
    obtain ⟨stored, _, power, later, told, rfl⟩ := alike
    exact follows_ok ⟨rfl, stored, writeBuf, power, later, told, rfl⟩

theorem Alike.schedule (alike : Alike past s s') (callback : Option Callback) :
    Alike past (s.scheduleComplete callback) (s'.scheduleComplete callback) := by
  cases callback with
  | none => exact alike
  | some cb =>
    obtain ⟨stored, writeBuf, power, later, told, rfl⟩ := alike
    refine ⟨stored, writeBuf, power, later, told, ?_⟩
    simp [Sys.scheduleComplete, Sys.addSource, Sys.aged, Nat.add_right_comm]

theorem Alike.write (alike : Alike past s s') (env : WriteEnv) (chunks : List (List Octet))
    (callback : Option Callback) :
    Follows (fun p q => p.1 = q.1 ∧ Alike past p.2 q.2) (halIoWrite env chunks callback s)
      (halIoWrite env chunks callback s') := by
  apply Follows.bind (alike.open env.device)
  rintro ⟨opened, t⟩ ⟨opened', t'⟩ ⟨answer, alike⟩
  obtain rfl : opened = opened' := answer
  cases opened with
  | false => exact follows_ok ⟨rfl, alike.record _⟩
  | true =>
    have idle : t.writeCb = t'.writeCb ∧ t.writeId.isNone = t'.writeId.isNone := by
      obtain ⟨_, _, _, _, _, rfl⟩ := alike
      exact ⟨rfl, by simp [aged_writeId]⟩
    simp only [if_true, idle.1, idle.2]
    refine Follows.same fun _ => Follows.same fun _ => ?_
    apply Follows.bind (alike.gather chunks)
    rintro ⟨data, u⟩ ⟨data', u'⟩ ⟨gathered, alike⟩
    obtain rfl : data = data' := gathered
    refine Follows.bind (R := Alike past) ?_ fun v v' alike => follows_ok ⟨rfl, ?_⟩
    · unfold Sys.write
      split
      · exact follows_error
      · exact follows_ok (alike.record _)
    · split
      · exact (alike.schedule callback).record _
      · exact alike.record _

theorem Alike.setPower (alike : Alike past s s') (env : PowerEnv) (on : Bool) :
    Follows (fun p q => p.1 = q.1 ∧ Alike past p.2 q.2) (ioSetPower env on s) (ioSetPower env on s') := by
  apply Follows.bind (alike.open env.device)
  rintro ⟨opened, t⟩ ⟨opened', t'⟩ ⟨answer, alike⟩
  obtain rfl : opened = opened' := answer
  have powered : Alike past { t with power := on } { t' with power := on } := by
    obtain ⟨stored, writeBuf, _, later, told, rfl⟩ := alike
    exact ⟨stored, writeBuf, on, later, told, rfl⟩
  simp only
  split
  · refine follows_ok ⟨rfl, Alike.record ?_ _⟩
    split
    · exact powered
    · exact powered.close
  · exact follows_ok ⟨rfl, alike.record _⟩

/-- Every call of the API does the same, with and without a past. -/
theorem Alike.perform (alike : Alike past s s') (c : Call) : Follows (Alike past) (c.perform s) (c.perform s') := by
  cases c with
  | start env client => exact Follows.bind (alike.start env client) fun _ _ alike => follows_ok alike.2
  | stop => exact follows_ok alike.stop
  | write env chunks callback =>
    exact Follows.bind (alike.write env chunks callback) fun _ _ alike => follows_ok alike.2
  | cancelWrite => exact follows_ok alike.cancel
  | setPower env on => exact Follows.bind (alike.setPower env on) fun _ _ alike => follows_ok alike.2

theorem Alike.react (alike : Alike past s s') (calls : List Call) :
    Follows (Alike past) (Pn54x.react calls s) (Pn54x.react calls s') := by
  have every : ∀ c ∈ calls, True := by simp
  have follows := follows_run (f := id) (fun s s' c (alike : Alike past s s') _ => alike.perform c) alike every
  rwa [List.map_id] at follows

theorem Alike.clientRead (alike : Alike past s s') (client : Option Client) (c : Cursor) (pktsiz : Nat)
    (calls : List Call) :
    Follows (Alike past) (Pn54x.clientRead client c pktsiz calls s) (Pn54x.clientRead client c pktsiz calls s') := by
  unfold Pn54x.clientRead
  split
  · exact follows_error
  · split
    · exact follows_error
    · exact (alike.record _).react calls

theorem Alike.readLoop (alike : Alike past s s') (client : Option Client) (calls : Nat → List Call)
    (fuel k : Nat) (c : Cursor) :
    Follows (fun p q => p.1 = q.1 ∧ Alike past p.2 q.2) (Pn54x.readLoop client calls fuel k c s)
      (Pn54x.readLoop client calls fuel k c s') := by
  induction fuel generalizing k c s s' with
  | zero => exact follows_error
  | succ fuel ih =>
    apply Follows.same
    intro pktsiz
    split
    · apply Follows.bind (alike.clientRead client c pktsiz (calls k))
      intro t t' alike
      apply Follows.same
      intro nbytes
      apply Follows.same
      intro c
      exact ih alike (k + 1) c
    · exact follows_ok ⟨rfl, alike⟩

theorem Alike.readBuf (alike : Alike past s s') : s.readBuf = s'.readBuf ∧ s.client = s'.client := by
  obtain ⟨_, _, _, _, _, rfl⟩ := alike
  exact ⟨rfl, rfl⟩

theorem Alike.readStart (alike : Alike past s s') (octets : List Octet) :
    Follows (fun p q => p.1 = q.1 ∧ Alike past p.2 q.2) (Pn54x.readStart octets s) (Pn54x.readStart octets s') := by
  unfold Pn54x.readStart
  rw [alike.readBuf.1]
  split
  · apply Follows.same
    intro readBuf
    refine follows_ok ⟨rfl, ?_⟩
    obtain ⟨stored, writeBuf, power, later, told, rfl⟩ := alike
    exact ⟨stored, writeBuf, power, later, told, rfl⟩
  · apply Follows.same
    intro c
    exact follows_ok ⟨rfl, alike⟩

theorem Alike.keep (alike : Alike past s s') (readBuf : List Octet) :
    Alike past { s with readBuf } { s' with readBuf } := by
  obtain ⟨stored, writeBuf, power, later, told, rfl⟩ := alike
  exact ⟨stored, writeBuf, power, later, told, rfl⟩

theorem Alike.readFinish (alike : Alike past s s') (c : Cursor) :
    Follows (Alike past) (Pn54x.readFinish c s) (Pn54x.readFinish c s') := by
  unfold Pn54x.readFinish
  rw [alike.readBuf.1]
  split
  · exact follows_ok (alike.keep _)
  · split
    · apply Follows.same
      intro consumed
      apply Follows.same
      intro readBuf
      exact follows_ok (alike.keep _)
    · apply Follows.same
      intro readBuf
      exact follows_ok (alike.keep _)

theorem Alike.readHandle (alike : Alike past s s') (calls : Nat → List Call) (octets : List Octet) :
    Follows (Alike past) (ioReadHandle calls octets s) (ioReadHandle calls octets s') := by
  unfold ioReadHandle
  rw [alike.readBuf.2]
  apply Follows.bind (alike.readStart octets)
  rintro ⟨c, t⟩ ⟨c', t'⟩ ⟨begun, alike⟩
  obtain rfl : c = c' := begun
  apply Follows.bind (alike.readLoop s'.client calls (c.nbytes + 1) 0 c)
  rintro ⟨c, u⟩ ⟨c', u'⟩ ⟨ended, alike⟩
  obtain rfl : c = c' := ended
  exact alike.readFinish c

theorem aged_mem {past : Past} {s : Sys} {id : SourceId} {func : SourceFunc}
    (scheduled : (id, func) ∈ (s.aged past writeBuf power later).sources) :
    ∃ id', id = id' + past.ids ∧ (id', func) ∈ s.sources := by
  obtain ⟨⟨id', func'⟩, member, same⟩ := List.mem_map.mp scheduled
  obtain ⟨rfl, rfl⟩ := Prod.mk.inj same
  exact ⟨id', rfl, member⟩

theorem Alike.scheduled (alike : Alike past s s') {id : SourceId} {func : SourceFunc}
    (scheduled : (id, func) ∈ s.sources) : ∃ id', id = id' + past.ids ∧ (id', func) ∈ s'.sources := by
  obtain ⟨_, _, _, _, _, rfl⟩ := alike
  exact aged_mem scheduled

theorem Alike.callback (alike : Alike past s s') (id : SourceId) (input : Option CharsResult)
    (calls : Nat → List Call) :
    Follows (Alike past) (ioReadCallback (id + past.ids) input calls s) (ioReadCallback id input calls s') := by
  apply Follows.same
  intro octets
  cases octets with
  | some octets => exact alike.readHandle calls octets
  | none =>
    have cleared : Alike past { s with readWatchId := none } { s' with readWatchId := none } := by
      obtain ⟨stored, writeBuf, power, later, told, rfl⟩ := alike
      exact ⟨stored, writeBuf, power, later, told, rfl⟩
    simp only [alike.readBuf.2] at cleared ⊢
    generalize s'.client = client at cleared ⊢
    cases client with
    | none => exact follows_error
    | some client =>
      exact Follows.bind (R := Alike past) ((cleared.record _).react (calls 0)) fun t t' alike =>
        follows_ok (alike.remove id)

theorem Alike.complete (alike : Alike past s s') (id : SourceId) (calls : List Call) :
    Follows (Alike past) (halIoWriteComplete (id + past.ids) calls s) (halIoWriteComplete id calls s') := by
  have same : s.writeId.isNone = s'.writeId.isNone ∧ s.writeCb = s'.writeCb := by
    obtain ⟨_, _, _, _, _, rfl⟩ := alike
    exact ⟨by simp [aged_writeId], rfl⟩
  have cleared : Alike past { s with writeId := none, writeCb := none } { s' with writeId := none, writeCb := none } := by
    obtain ⟨stored, writeBuf, power, later, told, rfl⟩ := alike
    exact ⟨stored, writeBuf, power, later, told, rfl⟩
  unfold halIoWriteComplete
  rw [same.1, same.2]
  split
  · exact follows_error
  · split
    · exact follows_error
    · rename_i cb _
      have event : Event.writeComplete s.client cb true = .writeComplete s'.client cb true :=
        congrArg (Event.writeComplete · cb true) alike.readBuf.2
      refine Follows.bind (R := Alike past) (Alike.react ?_ calls) fun t t' alike => follows_ok (alike.remove id)
      rw [event]
      exact cleared.record _

/-- And so does every dispatch, of the source that has the id that the other would have
been given. -/
theorem Alike.step (alike : Alike past s s') (i : Step) :
    Follows (Alike past) (Pn54x.step s i) (Pn54x.step s' (i.since past.ids)) := by
  cases i with
  | call c => exact alike.perform c
  | readWatch id input calls =>
    intro t stepped
    obtain ⟨scheduled, called⟩ := step_readWatch stepped
    obtain ⟨id', rfl, scheduled'⟩ := alike.scheduled scheduled
    obtain ⟨t', called', alike'⟩ := alike.callback id' input calls t called
    refine ⟨t', ?_, alike'⟩
    simp only [Step.since, Nat.add_sub_cancel, Pn54x.step, if_pos scheduled', called']
  | idle id calls =>
    intro t stepped
    obtain ⟨scheduled, called⟩ := step_idle stepped
    obtain ⟨id', rfl, scheduled'⟩ := alike.scheduled scheduled
    obtain ⟨t', called', alike'⟩ := alike.complete id' calls t called
    refine ⟨t', ?_, alike'⟩
    simp only [Step.since, Nat.add_sub_cancel, Pn54x.step, if_pos scheduled', called']

theorem Alike.steps (alike : Alike past s s') (path : List Step) :
    Follows (Alike past) (Pn54x.steps s path) (Pn54x.steps s' (path.map (Step.since past.ids))) :=
  follows_run (R := Alike past) (A := fun _ => True) (fun _ _ i alike _ => alike.step i) alike (by simp)

end

/-- A new object has nothing but what was seen of it. -/
theorem ioNew_clear {s : Sys} (created : ioNew env = .ok (some s)) : s = { log := s.log } := by
  obtain ⟨device, ioctl⟩ := env
  cases device <;> cases ioctl <;>
    simp_all [ioNew, ioSetPower, ioOpen, Sys.acquire, ioClose, Sys.close, Sys.record, bind, Except.bind, pure, Except.pure]
  rw [← created]

/-- A stopped object has nothing but the descriptors that it lost. -/
theorem halIoStop_clear (reached : Reachable s) : halIoStop s =
    Sys.aged {} ⟨s.lastSource, (halIoStop s).files, (halIoStop s).log, []⟩ s.writeBuf s.power [] := by
  have children : s.readPid.elim s.children s.children.erase = [] := (passed_coherent reached.passed).reaped
  have recorded : Recorded none (halIoStop s) := (reachable_recorded reached).perform (c := .stop) rfl
  have sources : (halIoStop s).sources = [] := by
    rw [List.eq_nil_iff_forall_not_mem]
    rintro ⟨id, func⟩ scheduled
    have known := recorded.known scheduled
    rw [halIoStop, ioStop_eq] at known
    cases func <;> simp [Sys.recorded, Sys.record] at known
  rw [halIoStop, ioStop_eq, ioClose_eq] at sources ⊢
  simp only [Sys.record, children] at sources ⊢
  simp [Sys.aged, sources]

/-- A stopped object does what a new one does. Whatever can happen to it from then on can
happen to a new object, which gets the same answers, tells its client the same and sends the
same; in the end the objects differ in nothing that is used. -/
theorem stop_forgets (reached : Reachable s) (created : ioNew env = .ok (some new))
    (ran : steps (halIoStop s) path = .ok t) :
    ∃ u writeBuf power later, steps new (path.map (Step.since s.lastSource)) = .ok u ∧
      u.log = new.log ++ later ∧
      t = u.aged ⟨s.lastSource, (halIoStop s).files, (halIoStop s).log, new.log⟩ writeBuf power later := by
  have begins : Alike ⟨s.lastSource, (halIoStop s).files, (halIoStop s).log, new.log⟩ (halIoStop s) new := by
    rw [ioNew_clear created]
    refine ⟨nofun, s.writeBuf, s.power, [], by simp, halIoStop_clear reached⟩
  obtain ⟨u, ran', _, writeBuf, power, later, told, same⟩ := begins.steps path t ran
  exact ⟨u, writeBuf, power, later, ran', told, same⟩

theorem stop_forgets_session : ∃ s t u writeBuf power later, steps .fresh [.call (.start .success 1),
      .readWatch 1 (some (.normal [0x60, 0x08])) fun _ => [],
      .call (.write ⟨none, some 3⟩ [[0x20], [0x00, 0x00]] (some 5))] = .ok s ∧
    steps (halIoStop s) [.call (.start .success 2),
      .readWatch 3 (some (.normal [0x00, 0x00, 0x00])) fun _ => []] = .ok t ∧
    steps .fresh [.call (.start .success 2),
      .readWatch 1 (some (.normal [0x00, 0x00, 0x00])) fun _ => []] = .ok u ∧
    t = u.aged ⟨2, [], (halIoStop s).log, Sys.fresh.log⟩ writeBuf power later := by
  have created : ioNew ⟨some 3, true⟩ = .ok (some .fresh) := rfl
  have reached : Reachable _ := .fresh [.call (.start .success 1),
    .readWatch 1 (some (.normal [0x60, 0x08])) fun _ => [],
    .call (.write ⟨none, some 3⟩ [[0x20], [0x00, 0x00]] (some 5))] rfl
  obtain ⟨u, writeBuf, power, later, ran', _, same⟩ := stop_forgets reached created
    (by exact rfl : steps (halIoStop _) [.call (.start .success 2),
      .readWatch 3 (some (.normal [0x00, 0x00, 0x00])) fun _ => []] = .ok _)
  exact ⟨_, _, u, writeBuf, power, later, rfl, rfl, ran', same⟩

end Pn54x
