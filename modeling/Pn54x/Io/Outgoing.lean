import Pn54x.Io.Completion
import Pn54x.Io.ReadLoop

/-! The outgoing stream: what the device took of the system writes, against the chunks
that the client passed. `write_buf` is scratch space that no write reads before it has
cleared it. -/
namespace Pn54x
open Transition

/-- What is appended of the chunks, the length of each converted to `guint`. -/
def truncated (chunks : List (List Octet)) : List Octet :=
  chunks.flatMap fun chunk => chunk.take (guint chunk.length)

/-- What is written of the chunks. -/
def gathered (chunks : List (List Octet)) : List Octet :=
  if chunks.length = 1 then chunks.flatten else truncated chunks

theorem byteArrayAppend_ok {array chunk out : List Octet} (appended : byteArrayAppend array chunk len = .ok out) :
    out = array ++ chunk.take (guint len) := by
  unfold byteArrayAppend at appended
  split at appended
  · contradiction
  · split at appended
    · contradiction
    · exact (Except.ok.inj appended).symm

theorem truncated_cons (chunk : List Octet) (chunks : List (List Octet)) :
    truncated (chunk :: chunks) = chunk.take (guint chunk.length) ++ truncated chunks :=
  List.flatMap_cons

theorem append_chunks {array out : List Octet} {chunks : List (List Octet)}
    (appended : Transition.run (fun array chunk => byteArrayAppend array chunk chunk.length) array chunks = .ok out) :
    out = array ++ truncated chunks := by
  induction chunks generalizing array with
  | nil =>
    obtain rfl := run_nil.mp appended
    simp [truncated]
  | cons chunk chunks ih =>
    obtain ⟨m, first, rest⟩ := run_cons.mp appended
    rw [ih rest, byteArrayAppend_ok first, truncated_cons, List.append_assoc]

theorem halIoWriteData_gathered {s t : Sys} (gathers : halIoWriteData chunks s = .ok (data, t)) :
    data = gathered chunks := by
  unfold halIoWriteData at gathers
  split at gathers
  · obtain ⟨rfl, _⟩ := Prod.mk.inj (Except.ok.inj gathers)
    simp [gathered]
  · rename_i several
    obtain ⟨writeBuf, appended, done⟩ := bind_ok.mp gathers
    obtain ⟨rfl, _⟩ := Prod.mk.inj (Except.ok.inj done)
    have other : chunks.length ≠ 1 := by
      intro one
      obtain ⟨chunk, rfl⟩ := List.length_eq_one_iff.mp one
      exact several chunk rfl
    rw [gathered, if_neg other]
    exact append_chunks appended

theorem truncated_length (chunks : List (List Octet)) : (truncated chunks).length ≤ chunks.flatten.length := by
  induction chunks with
  | nil => exact Nat.le_refl _
  | cons chunk chunks ih =>
    rw [truncated_cons, List.flatten_cons, List.length_append, List.length_append]
    exact Nat.add_le_add (List.length_take_le' _ _) ih

/-- Where nothing is cut off by the conversion, the chunks are appended whole. -/
theorem truncated_whole {chunks : List (List Octet)} (whole : chunks.flatten.length ≤ (truncated chunks).length) :
    truncated chunks = chunks.flatten := by
  induction chunks with
  | nil => rfl
  | cons chunk chunks ih =>
    have shorter : (chunk.take (guint chunk.length)).length ≤ chunk.length := List.length_take_le' _ _
    have rest := truncated_length chunks
    rw [truncated_cons, List.flatten_cons, List.length_append, List.length_append] at whole
    have all : chunk.length ≤ guint chunk.length := by
      rw [List.length_take] at whole shorter
      omega
    rw [truncated_cons, List.flatten_cons, ih (by omega), List.take_of_length_le all]

theorem gathered_length (chunks : List (List Octet)) : (gathered chunks).length ≤ chunks.flatten.length := by
  unfold gathered
  split
  · exact Nat.le_refl _
  · exact truncated_length chunks

theorem gathered_whole {chunks : List (List Octet)} (whole : chunks.flatten.length ≤ (gathered chunks).length) :
    gathered chunks = chunks.flatten := by
  unfold gathered at *
  split
  · rfl
  · rename_i several
    rw [if_neg several] at whole
    exact truncated_whole whole

theorem truncated_nil {chunks : List (List Octet)} :
    truncated chunks = [] ↔ ∀ chunk ∈ chunks, guint chunk.length = 0 := by
  have cut : ∀ chunk : List Octet, chunk.take (guint chunk.length) = [] ↔ guint chunk.length = 0 := by
    intro chunk
    have le : guint chunk.length ≤ chunk.length := Nat.mod_le _ _
    rw [← List.length_eq_zero_iff, List.length_take, Nat.min_eq_left le]
  simp only [truncated, List.flatMap_eq_nil_iff, cut]

/-- There is a single chunk, or one whose length does not convert to 0. -/
def Appends (chunks : List (List Octet)) : Prop :=
  chunks.length = 1 ∨ ∃ chunk ∈ chunks, guint chunk.length ≠ 0

theorem gathered_pos {chunks : List (List Octet)} (some : 0 < (gathered chunks).length) : Appends chunks := by
  by_contra neither
  obtain ⟨several, zero⟩ := not_or.mp neither
  push Not at zero
  rw [gathered, if_neg several, truncated_nil.mpr zero] at some
  contradiction

theorem Appends.gathered_nil {chunks : List (List Octet)} (appends : Appends chunks) (nothing : gathered chunks = []) :
    chunks.flatten = [] := by
  unfold gathered at nothing
  split at nothing
  · exact nothing
  · obtain ⟨chunk, member, converts⟩ := appends.resolve_left ‹_›
    exact absurd (truncated_nil.mp nothing chunk member) converts

/-- The octets that the device took of what is seen. -/
def Event.taken : Event → List Octet
  | .sent data (some n) => data.take n
  | _ => []

/-- The outgoing stream. -/
def outgoing (log : List Event) : List Octet := log.flatMap Event.taken

@[simp] theorem outgoing_append (log later : List Event) :
    outgoing (log ++ later) = outgoing log ++ outgoing later := List.flatMap_append

/-- Among the events is a system write of which the device took exactly this. -/
def Accepted (packet : List Octet) (events : List Event) : Prop :=
  ∃ data n, Event.sent data (some n) ∈ events ∧ data.take n = packet

/-- A write that succeeds exactly where the device took the whole packet, and that
otherwise has sent nothing and changed nothing but `fd` and `write_buf`. -/
structure Atomic (chunks : List (List Octet)) (ok : Bool) (s t : Sys) : Prop where
  whole : ok = true ↔ Accepted chunks.flatten (t.log.drop s.log.length)
  nothing : ok = false → outgoing t.log = outgoing s.log
  unchanged : ok = false → t.toPn54xIo = { s.toPn54xIo with fd := t.fd, writeBuf := t.writeBuf }

/-- The device stays closed, the write fails, or it takes everything, or nothing where
there is something to take. -/
def WriteEnv.Whole (env : WriteEnv) (chunks : List (List Octet)) (s : Sys) : Prop :=
  (s.fd = none ∧ env.device = none) ∨ env.written = none ∨ env.written = some chunks.flatten.length ∨
    (env.written = some 0 ∧ Appends chunks)

theorem opens_known {s : Sys} (opens : Opens answer s d files) : ¬ (s.fd = none ∧ answer = none) := by
  rintro ⟨closed, refused⟩
  cases opens with
  | already known =>
    rw [known] at closed
    contradiction
  | opened _ answered =>
    rw [answered] at refused
    contradiction

theorem accepted_sent {packet data : List Octet} : Accepted packet [.sent data written, .write callback ok] ↔
    ∃ n, written = some n ∧ data.take n = packet := by
  constructor
  · rintro ⟨data', n, member, whole⟩
    simp only [List.mem_cons, List.not_mem_nil, or_false, reduceCtorEq, Event.sent.injEq] at member
    obtain ⟨rfl, rfl⟩ := member
    exact ⟨n, rfl, whole⟩
  · rintro ⟨n, rfl, whole⟩
    exact ⟨data, n, by simp, whole⟩

/-- A write that the device did not take whole sent nothing exactly where it took nothing. -/
theorem short_atomic {s t : Sys} {files : List Fd} {writeBuf : List Octet}
    (short : ∀ n, written = some n → n < (gathered chunks).length)
    (same : t = Sys.record (Sys.record { s with fd := some d, files, writeBuf } (.sent (gathered chunks) written))
      (.write callback false)) :
    Atomic chunks false s t ↔ written = none ∨ written = some 0 := by
  have log : t.log = s.log ++ [.sent (gathered chunks) written, .write callback false] := by simp [same]
  have taken : outgoing t.log = outgoing s.log ↔ written = none ∨ written = some 0 := by
    rw [log, outgoing_append]
    cases written with
    | none => simp [outgoing, Event.taken]
    | some n =>
      have nonempty : gathered chunks ≠ [] := List.ne_nil_of_length_pos (Nat.zero_lt_of_lt (short n rfl))
      simp [outgoing, Event.taken, nonempty]
  rw [← taken]
  constructor
  · exact fun atomic => atomic.nothing rfl
  · intro nothing
    constructor
    · refine ⟨nofun, fun accepted => ?_⟩
      rw [log, List.drop_left, accepted_sent] at accepted
      obtain ⟨n, known, whole⟩ := accepted
      have length := congrArg List.length whole
      have least := gathered_length chunks
      have less := short n known
      rw [List.length_take] at length
      omega
    · exact fun _ => nothing
    · intro _
      rw [same]
      rfl

/-- A write is atomic exactly where the system call took all or nothing. -/
theorem write_atomic {s t : Sys} (writes : halIoWrite env chunks callback s = .ok (ok, t)) :
    Atomic chunks ok s t ↔ env.Whole chunks s := by
  cases halIoWrite_writes writes with
  | unopened closed refused =>
    have atomic : Atomic chunks false s (s.record (.write callback false)) := by
      constructor
      · simp [Accepted]
      · simp [outgoing, Event.taken]
      · exact fun _ => rfl
    exact iff_of_true atomic (.inl ⟨closed, refused⟩)
  | short opens gathers within =>
    obtain rfl := halIoWriteData_gathered gathers
    rw [short_atomic within rfl, WriteEnv.Whole]
    constructor
    · rintro (failed | nothing)
      · exact .inr (.inl failed)
      · exact .inr (.inr (.inr ⟨nothing, gathered_pos (within 0 nothing)⟩))
    · rintro (closed | failed | whole | ⟨nothing, _⟩)
      · exact absurd closed (opens_known opens)
      · exact .inl failed
      · exact absurd (within _ whole) (Nat.not_lt.mpr (gathered_length chunks))
      · exact .inr nothing
  | whole opens gathers idle accepted =>
    obtain rfl := halIoWriteData_gathered gathers
    have same : gathered chunks = chunks.flatten ↔ env.Whole chunks s := by
      rw [WriteEnv.Whole, accepted]
      constructor
      · intro whole
        exact .inr (.inr (.inl (by rw [whole])))
      · rintro (closed | failed | whole | ⟨nothing, appends⟩)
        · exact absurd closed (opens_known opens)
        · contradiction
        · exact gathered_whole (Nat.le_of_eq (Option.some.inj whole).symm)
        · have empty := List.length_eq_zero_iff.mp (Option.some.inj nothing)
          rw [empty, appends.gathered_nil empty]
    rw [← same]
    constructor
    · intro atomic
      have taken := atomic.whole.mp rfl
      simp only [record_log, scheduleComplete_log, List.append_assoc, List.drop_left, List.singleton_append,
        accepted_sent] at taken
      obtain ⟨n, known, whole⟩ := taken
      obtain rfl := Option.some.inj (accepted.symm.trans known)
      rwa [List.take_length] at whole
    · intro whole
      refine ⟨iff_of_true rfl ?_, nofun, nofun⟩
      simp only [record_log, scheduleComplete_log, List.append_assoc, List.drop_left, List.singleton_append,
        accepted_sent]
      exact ⟨_, accepted, by rw [List.take_length, whole]⟩

theorem write_atomic_failed : ∃ t, halIoWrite ⟨some 3, none⟩ [[0x20, 0x00], [0x00]] (some 5) .fresh = .ok (false, t) ∧
    (Atomic [[0x20, 0x00], [0x00]] false .fresh t ↔
      WriteEnv.Whole ⟨some 3, none⟩ [[0x20, 0x00], [0x00]] .fresh) := by
  refine ⟨_, rfl, ?_⟩
  exact write_atomic (show halIoWrite ⟨some 3, none⟩ [[0x20, 0x00], [0x00]] (some 5) .fresh = _ from rfl)

/-- After a short write part of the packet is on the wire, and FALSE is returned. -/
theorem short_write_tears :
    ¬ ∀ env chunks callback ok (s t : Sys), Reachable s → s.writeCb = none → s.writeId = none →
      halIoWrite env chunks callback s = .ok (ok, t) → Atomic chunks ok s t := by
  intro all
  have atomic := all ⟨some 3, some 1⟩ [[0x20, 0x00, 0x00]] none _ _ _ (.fresh [] rfl) rfl rfl rfl
  exact absurd (atomic.nothing rfl) (by decide)

/-- A system write: what was passed and how much of it was taken. -/
def Event.transfer : Event → Option (List Octet × Option Nat)
  | .sent data accepted => some (data, accepted)
  | _ => none

def transfers (log : List Event) : List (List Octet × Option Nat) := log.filterMap Event.transfer

@[simp] theorem transfers_append (log later : List Event) :
    transfers (log ++ later) = transfers log ++ transfers later := List.filterMap_append

@[simp] theorem transfers_nil : transfers [] = [] := rfl

@[simp] theorem transfers_cons (e : Event) (log : List Event) :
    transfers (e :: log) = e.transfer.toList ++ transfers log := by
  cases e <;> rfl

@[simp] theorem transfers_ioClose (s : Sys) : transfers (ioClose s).log = transfers s.log := by
  obtain ⟨closes, closed, log⟩ := ioClose_log s
  have none : transfers closes = [] := by
    refine List.filterMap_eq_nil_iff.mpr fun e member => ?_
    have close := closed e member
    cases e <;> simp_all [Event.isClosed, Event.transfer]
  rw [log, transfers_append, none, List.append_nil]

/-- A system write that was taken whole. -/
def full (packet : List Octet) : List Octet × Option Nat := (packet, some packet.length)

/-- Where all writes are taken whole, the stream is their concatenation. -/
theorem outgoing_full {log : List Event} {packets : List (List Octet)} (whole : transfers log = packets.map full) :
    outgoing log = packets.flatten := by
  induction log generalizing packets with
  | nil =>
    cases packets with
    | nil => rfl
    | cons packet packets => simp [transfers] at whole
  | cons e log ih =>
    cases e with
    | sent data accepted =>
      simp only [transfers, List.filterMap_cons, Event.transfer] at whole
      cases packets with
      | nil => contradiction
      | cons packet packets =>
        obtain ⟨first, rest⟩ := List.cons.inj whole
        obtain ⟨rfl, rfl⟩ := Prod.mk.inj first
        rw [outgoing, List.flatMap_cons, List.flatten_cons, Event.taken, List.take_length]
        exact congrArg _ (ih rest)
    | _ =>
      rw [outgoing, List.flatMap_cons, Event.taken, List.nil_append]
      · exact ih whole
      · nofun

/-- The packet that a call of the API has to write. -/
def Moment.packet : Moment → Option (List Octet)
  | .call (.write _ chunks _) => some chunks.flatten
  | _ => none

/-- The device is open or opens, and it takes a packet of less than 2 GiB whole. -/
def Moment.Taken (p : Point) : Moment → Bool
  | .call (.write env chunks _) =>
    (p.fd.isSome || env.device.isSome) && 2 * chunks.flatten.length < UInt32.size &&
      env.written == some chunks.flatten.length
  | _ => true

theorem append_chunks_ok (array : List Octet) {chunks : List (List Octet)}
    (narrow : array.length + chunks.flatten.length < UInt32.size) :
    Transition.run (fun array chunk => byteArrayAppend array chunk chunk.length) array chunks =
      .ok (array ++ chunks.flatten) := by
  induction chunks generalizing array with
  | nil => simp [Transition.run]
  | cons chunk chunks ih =>
    rw [List.flatten_cons, List.length_append] at narrow
    refine run_cons.mpr ⟨array ++ chunk, byteArrayAppend_all array (by omega), ?_⟩
    rw [ih _ (by rw [List.length_append]; omega), List.flatten_cons, List.append_assoc]

/-- Both paths write the same octets, whatever `write_buf` holds. -/
theorem halIoWriteData_whole {chunks : List (List Octet)} (narrow : chunks.flatten.length < UInt32.size) (s : Sys) :
    ∃ writeBuf, halIoWriteData chunks s = .ok (chunks.flatten, { s with writeBuf }) := by
  unfold halIoWriteData
  split
  · exact ⟨s.writeBuf, by simp⟩
  · refine ⟨chunks.flatten, ?_⟩
    rw [append_chunks_ok [] (by simpa using narrow)]
    rfl

theorem opens_ioOpen {s : Sys} (opens : Opens answer s d files) :
    ioOpen answer s = .ok (true, { s with fd := some d, files }) := by
  cases opens with
  | already known =>
    unfold ioOpen
    rw [known]
    exact congrArg (fun fd => Except.ok (true, { s with fd })) known
  | opened closed answered fresh =>
    unfold ioOpen
    rw [closed, answered]
    exact bind_ok.mpr ⟨_, acquire_ok.mpr ⟨fresh, rfl⟩, rfl⟩

theorem write_record (within : ∀ n, accepted = some n → n ≤ data.length) (s : Sys) :
    s.write data accepted = .ok (s.record (.sent data accepted)) := by
  cases accepted with
  | none => rfl
  | some n => simpa [Sys.write] using within n rfl

/-- A write that the device takes makes one system write, of its chunks in order. -/
theorem halIoWrite_whole {s : Sys} (idle : s.writeCb = none ∧ s.writeId = none) (opens : Opens env.device s d files)
    (narrow : chunks.flatten.length < UInt32.size) (accepted : env.written = some chunks.flatten.length) :
    ∃ t, halIoWrite env chunks callback s = .ok (true, t) ∧
      t.log = s.log ++ [.sent chunks.flatten env.written, .write callback true] := by
  obtain ⟨writeBuf, gathers⟩ := halIoWriteData_whole narrow { s with fd := some d, files }
  refine ⟨Sys.record (Sys.scheduleComplete (Sys.record { s with fd := some d, files, writeBuf }
    (.sent chunks.flatten env.written)) callback) (.write callback true), ?_, by simp⟩
  have noCb : gassert s.writeCb.isNone = .ok () := by rw [idle.1]; rfl
  have noId : gassert s.writeId.isNone = .ok () := by rw [idle.2]; rfl
  have within : ∀ n, env.written = some n → n ≤ chunks.flatten.length := by
    rintro n written
    exact Nat.le_of_eq (Option.some.inj (written.symm.trans accepted))
  have complete : (env.written == some chunks.flatten.length) = true := by simp [accepted]
  refine bind_ok.mpr ⟨_, opens_ioOpen opens, bind_ok.mpr ⟨_, noCb, bind_ok.mpr ⟨_, noId, bind_ok.mpr
    ⟨_, gathers, bind_ok.mpr ⟨_, write_record within _, pure_ok.mpr ?_⟩⟩⟩⟩⟩
  rw [complete]
  rfl

/-- However a packet is split, the write does the same but for `write_buf`. -/
theorem halIoWrite_split {s t : Sys} (narrow : chunks.flatten.length < UInt32.size)
    (same : split.flatten = chunks.flatten) (writes : halIoWrite env chunks callback s = .ok (ok, t)) :
    ∃ writeBuf, halIoWrite env split callback s = .ok (ok, { t with writeBuf }) := by
  obtain ⟨⟨opened, m⟩, opens, writes⟩ := bind_ok.mp writes
  cases opened with
  | false => exact ⟨t.writeBuf, bind_ok.mpr ⟨_, opens, writes⟩⟩
  | true =>
    obtain ⟨_, noCb, writes⟩ := bind_ok.mp writes
    obtain ⟨_, noId, writes⟩ := bind_ok.mp writes
    obtain ⟨⟨data, u⟩, gathers, writes⟩ := bind_ok.mp writes
    obtain ⟨v, taken, writes⟩ := bind_ok.mp writes
    obtain ⟨before, gathers'⟩ := halIoWriteData_whole narrow m
    obtain ⟨rfl, rfl⟩ := Prod.mk.inj (Except.ok.inj (gathers'.symm.trans gathers))
    obtain ⟨writeBuf, splits⟩ := halIoWriteData_whole (same ▸ narrow) m
    rw [same] at splits
    obtain ⟨within, rfl⟩ := write_within taken
    obtain ⟨rfl, rfl⟩ := Prod.mk.inj (pure_ok.mp writes)
    refine ⟨writeBuf, bind_ok.mpr ⟨_, opens, bind_ok.mpr ⟨_, noCb, bind_ok.mpr ⟨_, noId, bind_ok.mpr
      ⟨_, splits, bind_ok.mpr ⟨_, write_record within _, pure_ok.mpr ?_⟩⟩⟩⟩⟩⟩
    cases env.written == some chunks.flatten.length <;> cases callback <;> rfl

theorem transfers_starts {s t : Sys} (starts : Starts env client s ok t) : transfers t.log = transfers s.log := by
  cases starts with
  | unopened | pipeless | forkless => simp [Event.transfer]
  | channelless => simp [Event.transfer, Sys.withReader]
  | started => simp [Event.transfer, Sys.withReader, Sys.watchReader, Sys.addSource]

theorem transfers_power {s t : Sys} (power : Switches env s on ok t) : transfers t.log = transfers s.log := by
  cases power <;> simp [Event.transfer]

/-- A call of the API makes the system write that its packet needs, and no other. -/
theorem transfers_perform {p : Point} {c : Call} (taken : Moment.Taken p (.call c) = true)
    (performed : c.perform p.toSys = .ok t) :
    transfers t.log = transfers p.log ++ (Moment.packet (.call c)).toList.map full := by
  cases c with
  | start env client =>
    obtain ⟨ok, starts⟩ := perform_start performed
    rw [transfers_starts (halIoStart_starts starts).2]
    exact (List.append_nil _).symm
  | stop =>
    obtain rfl := Except.ok.inj performed
    rw [halIoStop, ioStop_eq]
    simp [Event.transfer, Moment.packet]
  | write env chunks callback =>
    obtain ⟨ok, writes⟩ := perform_write performed
    simp only [Moment.Taken, Bool.and_eq_true, decide_eq_true_eq, beq_iff_eq] at taken
    obtain ⟨⟨known, narrow⟩, accepted⟩ := taken
    cases halIoWrite_writes writes with
    | unopened closed refused => simp [closed, refused] at known
    | short opens gathers within =>
      obtain rfl := halIoWriteData_gathered gathers
      exact absurd (within _ accepted) (Nat.not_lt.mpr (gathered_length chunks))
    | whole opens gathers idle taken =>
      obtain rfl := halIoWriteData_gathered gathers
      have whole := Option.some.inj (accepted.symm.trans taken)
      simp [Event.transfer, Moment.packet, full, accepted, gathered_whole (Nat.le_of_eq whole)]
  | cancelWrite =>
    obtain rfl := Except.ok.inj performed
    rw [halIoCancelWrite_eq]
    simp [Event.transfer, Moment.packet]
  | setPower env on =>
    obtain ⟨ok, power⟩ := perform_setPower performed
    rw [transfers_power (ioSetPower_switches power)]
    exact (List.append_nil _).symm

theorem transfers_moment {p q : Point} {m : Moment} (taken : m.Taken p = true) (performed : m.perform p = .ok q) :
    transfers q.log = transfers p.log ++ m.packet.toList.map full := by
  cases m with
  | call c =>
    obtain ⟨s, called, rfl⟩ := call_ok.mp performed
    exact transfers_perform taken called
  | buffer readBuf =>
    obtain rfl := Except.ok.inj performed
    exact (List.append_nil _).symm
  | deliver client packet =>
    obtain ⟨c, _, rfl⟩ := deliver_ok performed
    simp [Event.transfer, Moment.packet]
  | fail id =>
    obtain ⟨_, _, client, _, rfl⟩ := fail_ok performed
    simp [Event.transfer, Moment.packet]
  | complete id =>
    obtain ⟨_, _, cb, _, rfl⟩ := complete_ok performed
    simp [Event.transfer, Moment.packet]
  | done =>
    obtain ⟨id, _, rfl⟩ := done_ok performed
    exact (List.append_nil _).symm

theorem transfers_run {p q : Point} {part : List Moment}
    (taken : along Moment.perform (fun p m => m.Taken p = true) p part)
    (ran : Transition.run Moment.perform p part = .ok q) :
    transfers q.log = transfers p.log ++ (part.filterMap Moment.packet).map full := by
  induction part generalizing p with
  | nil =>
    obtain rfl := run_nil.mp ran
    exact (List.append_nil _).symm
  | cons m part ih =>
    obtain ⟨u, first, rest⟩ := run_cons.mp ran
    rw [ih (taken.2 u first) rest, transfers_moment taken.1 first, List.append_assoc, ← List.map_append,
      List.filterMap_cons]
    cases m.packet <;> rfl

/-- A write that is made in a state and taken whole makes one system write, and it is the
same however the packet is split. -/
structure Streaming (s : Sys) : Prop where
  whole : ∀ env chunks callback d files, s.writeCb = none → Opens env.device s d files →
    2 * chunks.flatten.length < UInt32.size → env.written = some chunks.flatten.length →
    ∃ t, halIoWrite env chunks callback s = .ok (true, t) ∧
      t.log = s.log ++ [.sent chunks.flatten (some chunks.flatten.length), .write callback true]
  split : ∀ env chunks split callback ok t, 2 * chunks.flatten.length < UInt32.size → split.flatten = chunks.flatten →
    halIoWrite env chunks callback s = .ok (ok, t) →
    ∃ writeBuf, halIoWrite env split callback s = .ok (ok, { t with writeBuf })

theorem passed_streaming (passed : Passed p) : Streaming p.toSys := by
  constructor
  · intro env chunks callback d files pending opens narrow accepted
    have answered := passed_answered passed
    have unscheduled : p.writeId = none := by
      have pair := answered.pair
      rw [pending] at pair
      exact Option.not_isSome_iff_eq_none.mp (by simp [pair])
    rw [← accepted]
    exact halIoWrite_whole ⟨pending, unscheduled⟩ opens (by omega) accepted
  · intro env chunks split callback ok t narrow same writes
    exact halIoWrite_split (by omega) same writes

/-- Up to any point of a run whose writes are all taken whole, the system writes are one
for each write of the client, in order, and the stream is the concatenation of the
packets; and so it goes on. -/
theorem stream_concatenates {new t : Sys} {p : Point} {path : List Step} {part : List Moment}
    (created : ioNew env = .ok (some new)) (ran : steps new path = .ok t) (within : part <+: moments new path)
    (taken : along Moment.perform (fun p m => m.Taken p = true) { toSys := new } part)
    (passed : Transition.run Moment.perform { toSys := new } part = .ok p) :
    (transfers p.log = (part.filterMap Moment.packet).map full ∧
      outgoing p.log = (part.filterMap Moment.packet).flatten) ∧ Streaming p.toSys := by
  have whole : transfers p.log = (part.filterMap Moment.packet).map full := by
    have silent : transfers new.log = [] := by
      obtain ⟨ok, power⟩ := perform_setPower (ioNew_performed created)
      exact transfers_power (ioSetPower_switches power)
    rw [transfers_run taken passed, silent, List.nil_append]
  refine ⟨⟨whole, outgoing_full whole⟩, ?_⟩
  exact passed_streaming ⟨env, new, path, t, part, created, ran, within, passed⟩

/-- Two chunks, a completion that writes a single one, and no chunk at all. -/
theorem stream_concatenates_chunks : ∃ p : Point, steps .fresh
      [.call (.write ⟨some 3, some 3⟩ [[0x20], [], [0x00, 0x00]] (some 5)),
        .idle 1 [.write ⟨none, some 2⟩ [[0x20, 0x01]] none], .call (.write ⟨none, some 0⟩ [] none)] = .ok p.toSys ∧
    outgoing p.log = [0x20, 0x00, 0x00, 0x20, 0x01] := by
  have created : ioNew ⟨some 3, true⟩ = .ok (some .fresh) := rfl
  refine ⟨⟨_, none⟩, rfl, ?_⟩
  have ran : steps .fresh [.call (.write ⟨some 3, some 3⟩ [[0x20], [], [0x00, 0x00]] (some 5)),
    .idle 1 [.write ⟨none, some 2⟩ [[0x20, 0x01]] none], .call (.write ⟨none, some 0⟩ [] none)] = _ := rfl
  exact (stream_concatenates created ran (List.prefix_refl _) (by decide) rfl).1.2

end Pn54x
