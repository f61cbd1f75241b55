import Pn54x.Io.Completion
import Pn54x.Library.Simulation

/-! The two directions. What comes in and what goes out share the object and the main loop
and still do not meet: the order in which the one goes on beside the other does not
matter. -/
namespace Pn54x
open Framing Transition

/-- The scheduled sources of a kind. -/
def Sys.ids (s : Sys) (func : SourceFunc) : List SourceId :=
  (s.sources.filter fun source => source.2 = func).map Prod.fst

/-- What the client did not hear. -/
def unheard (log : List Event) : List Event := log.filter fun e => !e.Heard

/-- What reading has to do with. -/
structure Inward where
  client : Option Client
  readFd : Option Fd
  readPid : Option Pid
  readBuf : List Octet
  readChannel : Option Fd
  readWatchId : Option SourceId
  children : List Pid
  watches : List SourceId
  heard : List Event
  deriving DecidableEq, Repr

/-- What writing has to do with. -/
structure Outward where
  client : Option Client
  fd : Option Fd
  writeId : Option SourceId
  writeCb : Option Callback
  writeBuf : List Octet
  files : List Fd
  lastSource : SourceId
  power : Bool
  idles : List SourceId
  unheard : List Event
  deriving DecidableEq, Repr

def Sys.inward (s : Sys) : Inward :=
  ⟨s.client, s.readFd, s.readPid, s.readBuf, s.readChannel, s.readWatchId, s.children, s.ids .readCallback,
    heard s.log⟩

def Sys.outward (s : Sys) : Outward :=
  ⟨s.client, s.fd, s.writeId, s.writeCb, s.writeBuf, s.files, s.lastSource, s.power, s.ids .writeComplete,
    unheard s.log⟩

/-- Calls that a client makes to write. -/
def Call.Writes : Call → Prop
  | .write _ _ _ | .cancelWrite => True
  | .start _ _ | .stop | .setPower _ _ => False

theorem unheard_append (log log' : List Event) : unheard (log ++ log') = unheard log ++ unheard log' :=
  List.filter_append ..

theorem mem_ids {s : Sys} {id : SourceId} {func : SourceFunc} : id ∈ s.ids func ↔ (id, func) ∈ s.sources := by
  simp only [Sys.ids, List.mem_map, List.mem_filter, decide_eq_true_eq]
  constructor
  · rintro ⟨⟨_, _⟩, ⟨member, rfl⟩, rfl⟩
    exact member
  · exact fun member => ⟨(id, func), ⟨member, rfl⟩, rfl⟩

theorem ids_removeSource (s : Sys) (id : SourceId) (func : SourceFunc) :
    (s.removeSource id).ids func = (s.ids func).filter (· ≠ id) := by
  simp only [Sys.ids, Sys.removeSource, List.filter_map, List.filter_filter]
  congr 1
  apply List.filter_congr
  intro source _
  simp [Bool.and_comm]

/-- A source of one kind may go without the other kind taking notice. -/
theorem ids_other {s : Sys} (installed : Installed served s) {id : SourceId} {func other : SourceFunc}
    (scheduled : (id, func) ∈ s.sources) (apart : other ≠ func) : (s.removeSource id).ids other = s.ids other := by
  rw [ids_removeSource, List.filter_eq_self]
  intro id' member
  simp only [ne_eq, decide_eq_true_eq]
  rintro rfl
  exact apart (installed.kind (mem_ids.mp member) scheduled)

/-- The octets are framed and the client gets the packets. -/
def Sys.took (s : Sys) (client : Client) (octets : List Octet) : Sys :=
  { s with
    readBuf := (frame nci (s.readBuf ++ octets)).2
    log := s.log ++ (frame nci (s.readBuf ++ octets)).1.map (Event.read client) }

/-- What a quiet dispatch of the watch does. -/
def Sys.dispatched (s : Sys) (client : Client) (id : SourceId) : Option (List Octet) → Sys
  | some octets => s.took client octets
  | none => Sys.removeSource (Sys.record { s with readWatchId := none } (.error client)) id

section
variable {s s' : Sys}

/-- Nothing that has to do with writing differs. -/
def SameOut (s s' : Sys) : Prop := s'.outward = s.outward

theorem sameOut_iff : SameOut s s' ↔
    s'.client = s.client ∧ s'.fd = s.fd ∧ s'.writeId = s.writeId ∧ s'.writeCb = s.writeCb ∧
      s'.writeBuf = s.writeBuf ∧ s'.files = s.files ∧ s'.lastSource = s.lastSource ∧ s'.power = s.power ∧
      s'.ids .writeComplete = s.ids .writeComplete ∧ unheard s'.log = unheard s.log := by
  simp only [SameOut, Sys.outward, Outward.mk.injEq]

theorem SameOut.record {e e' : Event} (same : SameOut s s') (event : e' = e) : SameOut (s.record e) (s'.record e') := by
  subst event
  obtain ⟨client, fd, writeId, writeCb, writeBuf, files, last, power, idles, told⟩ := sameOut_iff.mp same
  refine sameOut_iff.mpr ⟨client, fd, writeId, writeCb, writeBuf, files, last, power, idles, ?_⟩
  rw [record_log, record_log, unheard_append, unheard_append, told]

theorem SameOut.open (same : SameOut s s') (device : Option Fd) :
    Follows (fun p q => q.1 = p.1 ∧ SameOut p.2 q.2) (ioOpen device s) (ioOpen device s') := by
  obtain ⟨client, fd, writeId, writeCb, writeBuf, files, last, power, idles, told⟩ := sameOut_iff.mp same
  unfold ioOpen
  rw [fd]
  cases s.fd with
  | some _ => exact follows_ok ⟨rfl, same⟩
  | none =>
    cases device with
    | none => exact follows_ok ⟨rfl, same⟩
    | some d =>
      refine Follows.bind (R := fun t t' => SameOut t t') ?_ fun t t' same => follows_ok ⟨rfl, ?_⟩
      · unfold Sys.acquire
        rw [files]
        split
        · exact follows_error
        · exact follows_ok (sameOut_iff.mpr ⟨client, fd, writeId, writeCb, writeBuf, rfl, last, power, idles, told⟩)
      · obtain ⟨client, _, others⟩ := sameOut_iff.mp same
        exact sameOut_iff.mpr ⟨client, rfl, others⟩

theorem SameOut.gather (same : SameOut s s') (chunks : List (List Octet)) :
    Follows (fun p q => q.1 = p.1 ∧ SameOut p.2 q.2) (halIoWriteData chunks s) (halIoWriteData chunks s') := by
  unfold halIoWriteData
  split
  · exact follows_ok ⟨rfl, same⟩
  · apply Follows.same
    intro buf
    obtain ⟨client, fd, writeId, writeCb, _, others⟩ := sameOut_iff.mp same
    exact follows_ok ⟨rfl, sameOut_iff.mpr ⟨client, fd, writeId, writeCb, rfl, others⟩⟩

theorem SameOut.schedule (same : SameOut s s') (callback : Option Callback) :
    SameOut (s.scheduleComplete callback) (s'.scheduleComplete callback) := by
  cases callback with
  | none => exact same
  | some cb =>
    obtain ⟨client, fd, _, _, writeBuf, files, last, power, idles, told⟩ := sameOut_iff.mp same
    refine sameOut_iff.mpr ⟨client, fd, ?_, rfl, writeBuf, files, ?_, power, ?_, told⟩
    · exact congrArg (some <| · + 1) last
    · exact congrArg (· + 1) last
    · simp only [Sys.ids] at idles
      simp only [Sys.ids, Sys.scheduleComplete, Sys.addSource, List.filter_append, List.map_append, idles, last]

theorem SameOut.write (same : SameOut s s') (env : WriteEnv) (chunks : List (List Octet))
    (callback : Option Callback) :
    Follows (fun p q => q.1 = p.1 ∧ SameOut p.2 q.2) (halIoWrite env chunks callback s)
      (halIoWrite env chunks callback s') := by
  apply Follows.bind (same.open env.device)
  rintro ⟨opened, t⟩ ⟨opened', t'⟩ ⟨answer, same⟩
  obtain rfl : opened' = opened := answer
  cases opened' with
  | false => exact follows_ok ⟨rfl, same.record rfl⟩
  | true =>
    obtain ⟨_, _, writeId, writeCb, _⟩ := sameOut_iff.mp (show SameOut t t' from same)
    simp only [if_true, writeId, writeCb]
    refine Follows.same fun _ => Follows.same fun _ => ?_
    apply Follows.bind (same.gather chunks)
    rintro ⟨data, u⟩ ⟨data', u'⟩ ⟨gathered, same⟩
    obtain rfl : data' = data := gathered
    refine Follows.bind (R := fun v v' => SameOut v v') ?_ fun v v' same => follows_ok ⟨rfl, ?_⟩
    · unfold Sys.write
      split
      · exact follows_error
      · exact follows_ok (same.record rfl)
    · split
      · exact (same.schedule callback).record rfl
      · exact same.record rfl

theorem SameOut.remove (same : SameOut s s') (id : SourceId) : SameOut (s.removeSource id) (s'.removeSource id) := by
  obtain ⟨client, fd, writeId, writeCb, writeBuf, files, last, power, idles, told⟩ := sameOut_iff.mp same
  refine sameOut_iff.mpr ⟨client, fd, writeId, writeCb, writeBuf, files, last, power, ?_, told⟩
  rw [ids_removeSource, ids_removeSource, idles]

theorem SameOut.forget (same : SameOut s s') :
    SameOut { s with writeId := none, writeCb := none } { s' with writeId := none, writeCb := none } := by
  obtain ⟨client, fd, _, _, others⟩ := sameOut_iff.mp same
  exact sameOut_iff.mpr ⟨client, fd, rfl, rfl, others⟩

theorem SameOut.cancel (same : SameOut s s') : SameOut (halIoCancelWrite s) (halIoCancelWrite s') := by
  obtain ⟨_, _, writeId, _⟩ := sameOut_iff.mp same
  rw [halIoCancelWrite_eq, halIoCancelWrite_eq, writeId]
  refine SameOut.record ?_ rfl
  cases s.writeId with
  | none => exact same.forget
  | some id => exact (same.remove id).forget

/-- What is written depends on nothing else. -/
theorem SameOut.perform (same : SameOut s s') {c : Call} (writes : c.Writes) :
    Follows SameOut (c.perform s) (c.perform s') := by
  cases c with
  | start | stop | setPower => contradiction
  | write env chunks callback =>
    exact Follows.bind (same.write env chunks callback) fun _ _ related => follows_ok related.2
  | cancelWrite => exact follows_ok same.cancel

theorem SameOut.react (same : SameOut s s') {calls : List Call} (writes : ∀ c ∈ calls, c.Writes) :
    Follows SameOut (Pn54x.react calls s) (Pn54x.react calls s') := by
  have follows := follows_run (f := id) (A := Call.Writes)
    (fun s s' c (same : SameOut s s') writes => same.perform writes) same writes
  rwa [List.map_id] at follows

theorem SameOut.complete (same : SameOut s s') (id : SourceId) {calls : List Call} (writes : ∀ c ∈ calls, c.Writes) :
    Follows SameOut (halIoWriteComplete id calls s) (halIoWriteComplete id calls s') := by
  obtain ⟨client, _, writeId, writeCb, _⟩ := sameOut_iff.mp same
  unfold halIoWriteComplete
  rw [writeId, writeCb]
  split
  · exact follows_error
  · split
    · exact follows_error
    · rename_i cb _
      have event : Event.writeComplete s'.client cb true = .writeComplete s.client cb true :=
        congrArg (Event.writeComplete · cb true) client
      have told := same.forget.record event
      exact Follows.bind (told.react writes) fun _ _ (same : SameOut _ _) => follows_ok (same.remove id)

theorem record_inward (s : Sys) {e : Event} (other : heard [e] = []) : (s.record e).inward = s.inward := by
  have told : heard (s.record e).log = heard s.log := (record_kept s other).heard
  simp only [Sys.inward, Inward.mk.injEq, told]
  exact ⟨rfl, rfl, rfl, rfl, rfl, rfl, rfl, rfl, trivial⟩

theorem scheduleComplete_inward (s : Sys) (callback : Option Callback) :
    (s.scheduleComplete callback).inward = s.inward := by
  cases callback with
  | none => rfl
  | some cb =>
    have watches : (s.scheduleComplete (some cb)).ids .readCallback = s.ids .readCallback := by
      simp [Sys.ids, Sys.scheduleComplete, Sys.addSource]
    simp only [Sys.inward, Inward.mk.injEq, watches]
    exact ⟨rfl, rfl, rfl, rfl, rfl, rfl, rfl, trivial, rfl⟩

/-- Writing leaves what has to do with reading. -/
theorem Call.Writes.inward {c : Call} (writes : c.Writes) (installed : Installed served s)
    (performed : c.perform s = .ok t) : t.inward = s.inward := by
  cases c with
  | start | stop | setPower => contradiction
  | write env chunks callback =>
    obtain ⟨ok, wrote⟩ := perform_write performed
    obtain ⟨fd, files, _, ⟨rfl, rfl⟩ | ⟨data, writeBuf, _, _, _, rfl⟩⟩ := halIoWrite_ok wrote
    · exact record_inward _ rfl
    · rw [record_inward _ rfl]
      split
      · rw [scheduleComplete_inward, record_inward _ rfl]
        rfl
      · rw [record_inward _ rfl]
        rfl
  | cancelWrite =>
    obtain rfl := Except.ok.inj performed
    rw [halIoCancelWrite_eq, record_inward _ rfl]
    cases known : s.writeId with
    | none => rfl
    | some id =>
      have watches : (s.removeSource id).ids .readCallback = s.ids .readCallback :=
        ids_other installed (installed.known .writeComplete id known).1 nofun
      simp only [Sys.inward, Inward.mk.injEq]
      exact ⟨trivial, trivial, trivial, trivial, trivial, trivial, trivial, watches, trivial⟩

end

end Pn54x
