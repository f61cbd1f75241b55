import Pn54x.Io.Descriptors
import Pn54x.Io.Outgoing
import Pn54x.Library.Simulation

/-! What the driver is for its client: a machine without descriptors, processes, channels
or source ids, which takes the octets that it is given apart into packets as a whole. The
object does what this machine does. -/
namespace Pn54x
open Framing Transition

/-- The driver as its client sees it. `session` is there with the reader, and tells whether
the reader is listened to. -/
structure Hal where
  client : Option Client := none
  opened : Bool := false
  session : Option Bool := none
  rest : List Octet := []
  pending : Option Callback := none
  told : List Event := []
  deriving DecidableEq, Repr

namespace Hal

def tell (h : Hal) (e : Event) : Hal := { h with told := h.told ++ [e] }

def close (h : Hal) : Hal := { h with opened := false, session := none }

/-- The device is opened if it can be. -/
def opening (h : Hal) (device : Option Fd) : Hal := { h with opened := h.opened || device.isSome }

/-- A session begins, or nothing is left open. -/
def start (h : Hal) (env : StartEnv) (client : Client) : Exec Hal :=
  if h.session.isSome then .error .assertion
  else if !(h.opening env.device).opened then .ok (h.tell (.start client false))
  else if env.pipe.isNone then .ok (h.close.tell (.start client false))
  else if env.fork.isNone then .ok (Hal.tell { h.close with client := none } (.start client false))
  else if env.channel then
    .ok (Hal.tell { h with client := some client, opened := true, session := some true } (.start client true))
  else .ok (Hal.tell { h.close with client := some client } (.start client false))

def stop (h : Hal) : Hal := Hal.tell { told := h.told } .stop

/-- The chunks are sent as one, and are to be completed if they were taken whole. -/
def write (h : Hal) (env : WriteEnv) (chunks : List (List Octet)) (callback : Option Callback) : Exec Hal :=
  if !(h.opening env.device).opened then .ok (h.tell (.write callback false))
  else if h.pending.isSome then .error .assertion
  else
    let sent := (h.opening env.device).tell (.sent chunks.flatten env.written)
    if env.written = some chunks.flatten.length then
      .ok (Hal.tell { sent with pending := callback } (.write callback true))
    else .ok (sent.tell (.write callback false))

def cancelWrite (h : Hal) : Hal := Hal.tell { h with pending := none } .cancelWrite

def setPower (h : Hal) (env : PowerEnv) (on : Bool) : Hal :=
  let opened := h.opening env.device
  if opened.opened && env.ioctl then (if on then opened else opened.close).tell (.setPower on true)
  else opened.tell (.setPower on false)

def perform (h : Hal) : Call → Exec Hal
  | .start env client => h.start env client
  | .stop => .ok h.stop
  | .write env chunks callback => h.write env chunks callback
  | .cancelWrite => .ok h.cancelWrite
  | .setPower env on => .ok (h.setPower env on)

def react (h : Hal) (calls : List Call) : Exec Hal := Transition.run perform h calls

/-- The client is given packets, from the `k`th on, and may call back each time. -/
def give (client : Client) (calls : Nat → List Call) (k : Nat) : List (List Octet) → Hal → Exec Hal
  | [], h => .ok h
  | packet :: packets, h => do
    let h ← (h.tell (.read client packet)).react (calls k)
    give client calls (k + 1) packets h

/-- What was left and what came is framed, and the rest is left. -/
def receive (h : Hal) (client : Client) (calls : Nat → List Call) (octets : List Octet) : Exec Hal := do
  let framed := frame nci (h.rest ++ octets)
  let h ← give client calls 0 framed.1 { h with rest := [] }
  return { h with rest := framed.2 }

/-- What the driver does when it is its turn, or its client's. -/
def step (h : Hal) : Step → Exec Hal
  | .call c => h.perform c
  | .readWatch _ input calls => do
    let octets ← readInput input
    match h.session, h.client, octets with
    | some true, some client, some octets => h.receive client calls octets
    | some true, some client, none =>
      Hal.react (Hal.tell { h with session := some false } (.error client)) (calls 0)
    | _, _, _ => .error .impossible
  | .idle _ calls =>
    match h.pending with
    | some cb => Hal.react (Hal.tell { h with pending := none } (.writeComplete h.client cb true)) calls
    | none => .error .impossible

def steps : Hal → List Step → Exec Hal := Transition.run step

end Hal

/-- What can be seen without looking at descriptors. -/
def seen (log : List Event) : List Event := log.filter fun e => !e.isClosed

/-- What the object is for its client. -/
def Sys.hal (s : Sys) : Hal where
  client := s.client
  opened := s.fd.isSome
  session := s.readPid.map fun _ => s.readWatchId.isSome
  rest := s.readBuf
  pending := s.writeCb
  told := seen s.log

/-- No more is written at once than a `guint` can count. -/
def Call.Counted : Call → Prop
  | .write _ chunks _ => chunks.flatten.length < UInt32.size
  | _ => True

def Step.Counted : Step → Prop
  | .call c => c.Counted
  | .readWatch _ _ calls => ∀ k, ∀ c ∈ calls k, c.Counted
  | .idle _ calls => ∀ c ∈ calls, c.Counted

theorem seen_append (log log' : List Event) : seen (log ++ log') = seen log ++ seen log' := List.filter_append ..

theorem seen_closed {closes : List Event} (closed : ∀ e ∈ closes, e.isClosed = true) : seen closes = [] := by
  rw [seen, List.filter_eq_nil_iff]
  intro e member
  simp [closed e member]

theorem hal_record (s : Sys) {e : Event} (other : e.isClosed = false) : (s.record e).hal = s.hal.tell e := by
  have told : seen [e] = [e] := by simp [seen, other]
  simp [Sys.hal, Hal.tell, seen_append, told]

theorem hal_close (s : Sys) : (ioClose s).hal = s.hal.close := by
  obtain ⟨files, closes, closed, same⟩ := ioClose_spec s
  simp [same, Sys.hal, Hal.close, seen_append, seen_closed closed]

section
variable {s t : Sys}

/-- The state in which `rest` is left instead. -/
def Hal.leaving (h : Hal) (rest : List Octet) : Hal := { h with rest }

theorem opens_hal (opens : Opens device s d files) (h : Hal) (same : h.opened = s.fd.isSome) :
    (h.opening device).opened = true := by
  have opened := opens_isSome opens
  rw [← same] at opened
  exact opened

theorem start_hal (starts : halIoStart env client s = .ok (ok, t)) (rest : List Octet) :
    (s.hal.leaving rest).start env client = .ok (t.hal.leaving rest) := by
  obtain ⟨idle, starts⟩ := halIoStart_starts starts
  have none : (s.hal.leaving rest).session.isSome = false := by simp [Hal.leaving, Sys.hal, idle]
  unfold Hal.start
  rw [none]
  cases starts with
  | unopened closed refused =>
    rw [hal_record _ rfl]
    simp [Hal.opening, Hal.leaving, Sys.hal, closed, refused, Hal.tell]
  | pipeless opens refused =>
    rw [hal_record _ rfl, hal_close]
    simp [opens_hal opens, Hal.leaving, Sys.hal, refused, Hal.tell, Hal.close]
  | forkless opens pipe refused =>
    rw [hal_record _ rfl, hal_close]
    simp [opens_hal opens, Hal.leaving, Sys.hal, pipe, refused, Hal.tell, Hal.close]
  | channelless opens pipe fork refused =>
    rw [hal_record _ rfl, hal_close]
    simp [opens_hal opens, Hal.leaving, Sys.hal, pipe, fork, refused, Hal.tell, Hal.close, Sys.withReader, seen,
      Event.isClosed]
  | started opens pipe fork channel =>
    rw [hal_record _ rfl]
    simp [opens_hal opens, Hal.leaving, Sys.hal, pipe, fork, channel, Hal.tell, Sys.withReader, Sys.watchReader,
      Sys.addSource, seen, Event.isClosed]

theorem hal_stop (s : Sys) : (halIoStop s).hal = s.hal.stop := by
  rw [halIoStop, ioStop_eq, hal_record _ rfl, hal_close]
  rfl

theorem hal_schedule (s : Sys) (callback : Option Callback) (idle : s.writeCb = none) :
    (s.scheduleComplete callback).hal = { s.hal with pending := callback } := by
  cases callback with
  | none => simp [Sys.scheduleComplete, Sys.hal, idle]
  | some cb => rfl

theorem gathers_whole (narrow : chunks.flatten.length < UInt32.size)
    (gathers : halIoWriteData chunks s = .ok (data, t)) : data = chunks.flatten := by
  obtain ⟨_, whole⟩ := halIoWriteData_whole narrow s
  rw [gathers] at whole
  exact (Prod.mk.inj (Except.ok.inj whole)).1

/-- Where the device is open, nothing is written while a completion is pending. -/
theorem halIoWrite_idle (writes : halIoWrite env chunks callback s = .ok (ok, t))
    (opened : (s.fd.isSome || env.device.isSome) = true) : s.writeCb = none := by
  obtain ⟨⟨opened', m⟩, opens, writes⟩ := bind_ok.mp writes
  cases opened' with
  | false =>
    obtain ⟨closed, refused, _⟩ := ioOpen_refused opens
    simp [closed, refused] at opened
  | true =>
    obtain ⟨_, _, _, rfl⟩ := ioOpen_opens opens
    obtain ⟨_, idle, _⟩ := bind_ok.mp writes
    simpa using gassert_ok.mp idle

theorem write_hal (narrow : chunks.flatten.length < UInt32.size)
    (writes : halIoWrite env chunks callback s = .ok (ok, t)) (rest : List Octet) :
    (s.hal.leaving rest).write env chunks callback = .ok (t.hal.leaving rest) := by
  have idle := halIoWrite_idle writes
  cases halIoWrite_writes writes with
  | unopened closed refused =>
    rw [hal_record _ rfl]
    simp [Hal.write, Hal.opening, Hal.leaving, Sys.hal, closed, refused, Hal.tell]
  | short opens gathers within =>
    have opened := opens_isSome opens
    have partly : env.written ≠ some chunks.flatten.length := fun accepted =>
      Nat.lt_irrefl _ (gathers_whole narrow gathers ▸ within _ accepted)
    rw [hal_record _ rfl, hal_record _ rfl, gathers_whole narrow gathers]
    simpa [Hal.write, Hal.opening, Hal.leaving, Sys.hal, opened, Hal.tell, idle opened] using partly
  | whole opens gathers none accepted =>
    have opened := opens_isSome opens
    rw [gathers_whole narrow gathers] at accepted ⊢
    rw [hal_record _ rfl, hal_schedule _ _ (by exact none.1), hal_record _ rfl]
    simp [Hal.write, Hal.opening, Hal.leaving, Sys.hal, opened, accepted, Hal.tell, none.1]

theorem power_hal (power : ioSetPower env on s = .ok (ok, t)) (rest : List Octet) :
    (s.hal.leaving rest).setPower env on = t.hal.leaving rest := by
  cases ioSetPower_switches power with
  | unopened closed refused =>
    rw [hal_record _ rfl]
    simp [Hal.setPower, Hal.opening, Hal.leaving, Sys.hal, closed, refused, Hal.tell]
  | failed opens refused =>
    have opened := opens_isSome opens
    rw [hal_record _ rfl]
    simp [Hal.setPower, Hal.opening, Hal.leaving, Sys.hal, opened, refused, Hal.tell]
  | on opens accepted =>
    have opened := opens_isSome opens
    rw [hal_record _ rfl]
    simp [Hal.setPower, Hal.opening, Hal.leaving, Sys.hal, opened, accepted, Hal.tell]
  | off opens accepted =>
    have opened := opens_isSome opens
    rw [hal_record _ rfl, hal_close]
    simp [Hal.setPower, Hal.opening, Hal.leaving, Sys.hal, opened, accepted, Hal.tell, Hal.close]

/-- Every call does to the driver what it does to the object. -/
theorem perform_hal {c : Call} (counted : c.Counted) (performed : c.perform s = .ok t) (rest : List Octet) :
    (s.hal.leaving rest).perform c = .ok (t.hal.leaving (if c = .stop then [] else rest)) := by
  cases c with
  | start env client =>
    obtain ⟨ok, starts⟩ := perform_start performed
    exact start_hal starts rest
  | stop =>
    obtain rfl := Except.ok.inj performed
    rw [hal_stop]
    rfl
  | write env chunks callback =>
    obtain ⟨ok, writes⟩ := perform_write performed
    exact write_hal counted writes rest
  | cancelWrite =>
    obtain rfl := Except.ok.inj performed
    rw [halIoCancelWrite_eq, hal_record _ rfl]
    rfl
  | setPower env on =>
    obtain ⟨ok, power⟩ := perform_setPower performed
    exact congrArg Except.ok (power_hal power rest)

/-- What was left stays as it is. -/
theorem perform_whole {c : Call} (counted : c.Counted) (performed : c.perform s = .ok t) :
    s.hal.perform c = .ok t.hal := by
  have moved := perform_hal counted performed s.readBuf
  rwa [← perform_readBuf performed] at moved

/-- Where nothing is left, nothing is left later. -/
theorem perform_taken {c : Call} (counted : c.Counted) (performed : c.perform s = .ok t) :
    (s.hal.leaving []).perform c = .ok (t.hal.leaving []) := by
  have moved := perform_hal counted performed []
  rwa [ite_self] at moved

theorem react_hal {calls : List Call} (counted : ∀ c ∈ calls, c.Counted) (reacted : react calls s = .ok t) :
    s.hal.react calls = .ok t.hal ∧ (s.hal.leaving []).react calls = .ok (t.hal.leaving []) := by
  have whole {s c t} (_ : True) (counted : Call.Counted c) (performed : c.perform s = .ok t) :
      True ∧ s.hal.perform c = .ok t.hal := ⟨trivial, perform_whole counted performed⟩
  have taken {s c t} (_ : True) (counted : Call.Counted c) (performed : c.perform s = .ok t) :
      True ∧ (s.hal.leaving []).perform c = .ok (t.hal.leaving []) := ⟨trivial, perform_taken counted performed⟩
  have emptied := run_view taken trivial counted reacted
  exact ⟨run_view whole trivial counted reacted, emptied⟩

theorem give_hal {calls : Nat → List Call} (counted : ∀ k, ∀ c ∈ calls k, c.Counted)
    (delivered : deliver (some client) calls k packets s = .ok t) :
    (s.hal.leaving []).give client calls k packets = .ok (t.hal.leaving []) := by
  induction packets generalizing k s with
  | nil =>
    obtain rfl := Except.ok.inj delivered
    rfl
  | cons packet packets ih =>
    obtain ⟨m, called, others⟩ := deliver_cons.mp delivered
    obtain ⟨_, same, reacted⟩ := clientRead_at_ok.mp called
    obtain rfl := Option.some.inj same
    have moved := (react_hal (counted k) reacted).2
    rw [hal_record _ rfl] at moved
    exact bind_ok.mpr ⟨_, moved, ih others⟩

/-- The octets that come are taken apart as a whole, whatever is called in between. -/
theorem receive_hal {calls : Nat → List Call} (counted : ∀ k, ∀ c ∈ calls k, c.Counted)
    (present : s.client = some client) (remainder : nci.Remainder s.readBuf) (narrow : Narrow (s.readBuf ++ octets))
    (handled : ioReadHandle calls octets s = .ok t) : s.hal.receive client calls octets = .ok t.hal := by
  rw [ioReadHandle_eq remainder narrow, present] at handled
  obtain ⟨m, delivered, done⟩ := bind_ok.mp handled
  obtain rfl := Except.ok.inj done
  have given := give_hal counted delivered
  obtain ⟨log, readBuf, same⟩ := buffering_object s octets
  rw [same] at given
  exact bind_ok.mpr ⟨_, given, rfl⟩

theorem readInput_short (answered : readInput input = .ok (some octets)) : octets.length ≤ maxPacketSize := by
  cases input with
  | none => exact absurd (Except.ok.inj answered) (by simp)
  | some result => exact (ioReadChars_some answered).1

/-- Where the read watch can be dispatched, there is a client and its reader is listened to. -/
theorem watched_session (reached : Reachable s) {id : SourceId} (scheduled : (id, SourceFunc.readCallback) ∈ s.sources) :
    ∃ client, s.client = some client ∧ s.hal.session = some true := by
  have recorded := reachable_recorded reached
  have coherent : Coherent s := passed_coherent reached.passed
  obtain ⟨client, present⟩ := scheduled_client coherent recorded scheduled
  have known : s.readWatchId = some id := recorded.known scheduled
  obtain ⟨pid, running⟩ := Option.isSome_iff_exists.mp (coherent.watch (by rw [known]; rfl))
  exact ⟨client, present, by simp [Sys.hal, running, known]⟩

/-- The client is told of an error, and the reader is not listened to any more. -/
theorem hal_failing (session : s.hal.session = some true) (client : Client) :
    (Sys.record { s with readWatchId := none } (.error client)).hal =
      Hal.tell { s.hal with session := some false } (.error client) := by
  rw [hal_record _ rfl]
  cases running : s.readPid with
  | none => simp [Sys.hal, running] at session
  | some pid => simp [Sys.hal, running]

/-- Whatever the object does, the driver does. -/
theorem step_hal {i : Step} (reached : Reachable s) (counted : i.Counted) (stepped : step s i = .ok t) :
    s.hal.step i = .ok t.hal := by
  cases i with
  | call c => exact perform_whole counted stepped
  | readWatch id input calls =>
    obtain ⟨scheduled, called⟩ := step_readWatch stepped
    obtain ⟨client, present, session⟩ := watched_session reached scheduled
    have present' : s.hal.client = some client := present
    obtain ⟨octets, answered, rest⟩ := bind_ok.mp called
    refine bind_ok.mpr ⟨octets, answered, ?_⟩
    rw [session, present']
    cases octets with
    | some octets =>
      have remainder := reachable_remainder reached
      exact receive_hal counted present remainder (chars_narrow (readInput_short answered) remainder) rest
    | none =>
      simp only [present] at rest
      obtain ⟨m, reacted, done⟩ := bind_ok.mp rest
      obtain rfl := pure_ok.mp done
      have moved := (react_hal (counted 0) reacted).1
      rw [← present, hal_failing session] at moved
      change (Hal.tell { s.hal with client := some client, session := some false } (.error client)).react _ = _
      rw [← present']
      exact moved
  | idle id calls =>
    obtain ⟨scheduled, called⟩ := step_idle stepped
    obtain ⟨cb, m, _, pending, reacted, rfl⟩ := halIoWriteComplete_ok called
    have moved := (react_hal counted reacted).1
    rw [hal_record _ rfl] at moved
    have pending' : s.hal.pending = some cb := pending
    rw [Hal.step, pending']
    exact moved

/-- A new object is idle. -/
theorem ioNew_hal (created : ioNew env = .ok (some s)) : s.hal = { told := [.setPower false true] } := by
  obtain ⟨device, ioctl⟩ := env
  cases device <;> cases ioctl <;>
    simp [ioNew, ioSetPower, ioOpen, Sys.acquire, bind, Except.bind, pure, Except.pure] at created
  rw [← created, hal_record _ rfl, hal_close]
  rfl

end

/-- The object is the driver that its client sees. In every run of the object the driver goes
through the same steps, and what is seen of the object, but for descriptors that are closed,
is what the driver tells. -/
theorem io_refines (created : ioNew env = .ok (some new)) (counted : ∀ i ∈ path, i.Counted)
    (ran : steps new path = .ok t) : Hal.steps { told := [.setPower false true] } path = .ok t.hal := by
  rw [← ioNew_hal created]
  exact run_view (P := Reachable) (fun reached counted stepped => ⟨reached.step stepped, step_hal reached counted stepped⟩)
    ⟨env, new, [], created, rfl⟩ counted ran

theorem io_refines_session : ∃ t, steps .fresh [.call (.start .success 1),
      .readWatch 1 (some (.normal [0x60, 0x00, 0x00, 0x61])) fun _ => [.write ⟨none, some 3⟩ [[0x20], [0x00, 0x00]] (some 5)],
      .idle 2 [.stop]] = .ok t ∧
    Hal.steps { told := [.setPower false true] } [.call (.start .success 1),
      .readWatch 1 (some (.normal [0x60, 0x00, 0x00, 0x61])) fun _ => [.write ⟨none, some 3⟩ [[0x20], [0x00, 0x00]] (some 5)],
      .idle 2 [.stop]] = .ok t.hal := by
  have created : ioNew ⟨some 3, true⟩ = .ok (some .fresh) := rfl
  refine ⟨_, rfl, io_refines created ?_ rfl⟩
  simp [Step.Counted, Call.Counted, UInt32.size]

end Pn54x
