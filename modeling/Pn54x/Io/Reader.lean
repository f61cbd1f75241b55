import Pn54x.Io.Quiescence

/-! The reader process of a session. The child copies the device to a pipe, the parent
reads the pipe from its main loop, and the two take their steps in any order. -/
namespace Pn54x
open Framing Transition

/-- Where the child is in its loop: before a `read`, or before the `write` of what it
has read. -/
inductive Child where
  | reading
  | writing (data : List Octet)
  | exited
  deriving DecidableEq, Repr

/-- `device` is what the device has still to return. The last two fields only record
what passed: the octets that the child wrote and those that the parent took. -/
structure Reader where
  device : List Octet
  child : Child
  pipe : List Octet
  io : Sys
  written : List Octet
  handed : List Octet

/-- The parent's child, right after a start. -/
def Reader.begin (tape : List Octet) (io : Sys) : Reader := ⟨tape, .reading, [], io, [], []⟩

/-- A move of one of the two processes. The poll reports `G_IO_IN` while the pipe is
not empty, and hangs up when it is empty and the child, its only writer, has exited. -/
inductive Move where
  | childRead (n : Nat)
  | childReadFails
  | childWrite (n : Nat)
  | read (id : SourceId) (n : Nat) (calls : Nat → List Call)
  | again (id : SourceId)
  | hangUp (id : SourceId) (input : Option CharsResult) (calls : Nat → List Call)
  | call (c : Call)
  | idle (id : SourceId) (calls : List Call)

/-- `size = read(self->fd, self->read_tmp_buf, PN54X_MAX_PACKET_SIZE)`. -/
def Reader.childRead (n : Nat) (r : Reader) : Exec Reader :=
  if r.child = .reading ∧ 0 < n ∧ n ≤ maxPacketSize ∧ n ≤ r.device.length then
    .ok { r with child := .writing (r.device.take n), device := r.device.drop n }
  else .error .impossible

def Reader.childReadFails (r : Reader) : Exec Reader :=
  if r.child = .reading then .ok { r with child := .exited } else .error .impossible

/-- `write(fd[1], self->read_tmp_buf, size) < size` ends the loop. -/
def Reader.childWrite (n : Nat) (r : Reader) : Exec Reader :=
  match r.child with
  | .writing data =>
    if n ≤ data.length then
      .ok { r with
        pipe := r.pipe ++ data.take n, written := r.written ++ data.take n
        child := if n < data.length then .exited else .reading }
    else .error .impossible
  | _ => .error .impossible

/-- The main loop of the parent takes a step. -/
def Reader.parent (i : Step) (r : Reader) : Exec Reader := do
  return { r with io := ← step r.io i }

def Reader.read (id : SourceId) (n : Nat) (calls : Nat → List Call) (r : Reader) : Exec Reader :=
  if 0 < n ∧ n ≤ r.pipe.length then
    Reader.parent (.readWatch id (some (.normal (r.pipe.take n))) calls)
      { r with handed := r.handed ++ r.pipe.take n, pipe := r.pipe.drop n }
  else .error .impossible

def Reader.hangUp (id : SourceId) (input : Option CharsResult) (calls : Nat → List Call) (r : Reader) :
    Exec Reader :=
  if r.pipe = [] ∧ r.child = .exited ∧ (input = none ∨ input = some .eof ∨ input = some .error) then
    Reader.parent (.readWatch id input calls) r
  else .error .impossible

def Reader.move (r : Reader) : Move → Exec Reader
  | .childRead n => r.childRead n
  | .childReadFails => r.childReadFails
  | .childWrite n => r.childWrite n
  | .read id n calls => r.read id n calls
  | .again id => if r.pipe = [] then r.parent (.readWatch id (some .again) fun _ => []) else .error .impossible
  | .hangUp id input calls => r.hangUp id input calls
  | .call c => r.parent (.call c)
  | .idle id calls => r.parent (.idle id calls)

def Reader.moves : Reader → List Move → Exec Reader := Transition.run Reader.move

/-- The session goes on. Told of an error, the client may end it. -/
def Move.Continues : Move → Prop
  | .childRead _ | .childReadFails | .childWrite _ | .again _ => True
  | .read _ _ calls => ∀ k, ∀ c ∈ calls k, c.Continues
  | .hangUp _ _ calls => ∀ c ∈ calls 0, c.FromClient
  | .call c => c.Continues
  | .idle _ calls => ∀ c ∈ calls, c.Continues

/-- What the reader process owes to the parent and to the client, which had heard
`before` when the session was started. -/
structure Reader.Conserves (client : Client) (before : List Event) (tape : List Octet) (r : Reader) :
    Prop where
  fifo : r.handed ++ r.pipe <+: tape
  heard : ∃ packets failed,
    heard r.io.log = before ++ packets.map (Event.read client) ++ (if failed then [.error client] else []) ∧
    packets <+: (frame nci tape).1 ∧
    (failed = true → r.child = .exited ∧ r.pipe = [] ∧ r.handed = r.written)

/-- So it is at every moment of every session that can follow `io`. -/
def Conserving (client : Client) (io : Sys) : Prop :=
  ∀ tape path r, (∀ m ∈ path, m.Continues) → (Reader.begin tape io).moves path = .ok r →
    r.Conserves client (heard io.log) tape

/-- What the child holds or the device has still to return, unless the child exited. -/
def Reader.ahead (r : Reader) : Option (List Octet) :=
  match r.child with
  | .reading => some r.device
  | .writing data => some (data ++ r.device)
  | .exited => none

/-- The pipe holds what was written and not taken; what was written is the stream up
to where the child is. -/
structure Reader.Piped (tape : List Octet) (r : Reader) : Prop where
  pipe : r.handed ++ r.pipe = r.written
  written : r.written <+: tape
  ahead : ∀ ahead, r.ahead = some ahead → r.written ++ ahead = tape

theorem parent_ok {r r' : Reader} (moved : r.parent i = .ok r') :
    ∃ io, step r.io i = .ok io ∧ r' = { r with io } := by
  obtain ⟨io, stepped, same⟩ := bind_ok.mp moved
  exact ⟨io, stepped, (pure_ok.mp same).symm⟩

theorem childRead_ok {r r' : Reader} (moved : r.childRead n = .ok r') :
    r.child = .reading ∧ r' = { r with child := .writing (r.device.take n), device := r.device.drop n } := by
  unfold Reader.childRead at moved
  split at moved
  · rename_i may
    exact ⟨may.1, (Except.ok.inj moved).symm⟩
  · contradiction

theorem childReadFails_ok {r r' : Reader} (moved : r.childReadFails = .ok r') :
    r.child = .reading ∧ r' = { r with child := .exited } := by
  unfold Reader.childReadFails at moved
  split at moved
  · exact ⟨‹_›, (Except.ok.inj moved).symm⟩
  · contradiction

theorem childWrite_ok {r r' : Reader} (moved : r.childWrite n = .ok r') :
    ∃ data, r.child = .writing data ∧ n ≤ data.length ∧
      r' = { r with
        pipe := r.pipe ++ data.take n, written := r.written ++ data.take n
        child := if n < data.length then .exited else .reading } := by
  unfold Reader.childWrite at moved
  split at moved
  · rename_i data writing
    split at moved
    · exact ⟨data, writing, ‹_›, (Except.ok.inj moved).symm⟩
    · contradiction
  · contradiction

theorem read_ok {r r' : Reader} {id : SourceId} (moved : r.read id n calls = .ok r') :
    ∃ io, step r.io (.readWatch id (some (.normal (r.pipe.take n))) calls) = .ok io ∧
      r' = { r with handed := r.handed ++ r.pipe.take n, pipe := r.pipe.drop n, io } := by
  unfold Reader.read at moved
  split at moved
  · exact parent_ok moved
  · contradiction

theorem hangUp_ok {r r' : Reader} {id : SourceId} (moved : r.hangUp id input calls = .ok r') :
    r.pipe = [] ∧ r.child = .exited ∧ (input = none ∨ input = some .eof ∨ input = some .error) ∧
      ∃ io, step r.io (.readWatch id input calls) = .ok io ∧ r' = { r with io } := by
  unfold Reader.hangUp at moved
  split at moved
  · rename_i ended
    exact ⟨ended.1, ended.2.1, ended.2.2, parent_ok moved⟩
  · contradiction

theorem again_ok {r r' : Reader} {id : SourceId} (moved : r.move (.again id) = .ok r') :
    ∃ io, step r.io (.readWatch id (some .again) fun _ => []) = .ok io ∧ r' = { r with io } := by
  simp only [Reader.move] at moved
  split at moved
  · exact parent_ok moved
  · contradiction

theorem Reader.Piped.move {r r' : Reader} (piped : r.Piped tape) (moved : r.move m = .ok r') :
    r'.Piped tape := by
  cases m with
  | childRead n =>
    obtain ⟨reading, rfl⟩ := childRead_ok moved
    refine ⟨piped.pipe, piped.written, ?_⟩
    rintro _ ⟨⟩
    rw [List.take_append_drop]
    exact piped.ahead _ (by rw [Reader.ahead, reading])
  | childReadFails =>
    obtain ⟨_, rfl⟩ := childReadFails_ok moved
    exact ⟨piped.pipe, piped.written, nofun⟩
  | childWrite n =>
    obtain ⟨data, writing, within, rfl⟩ := childWrite_ok moved
    have whole : r.written ++ (data ++ r.device) = tape := piped.ahead _ (by rw [Reader.ahead, writing])
    constructor
    · rw [← piped.pipe, List.append_assoc]
    · rw [← whole, List.prefix_append_right_inj]
      exact (List.take_prefix n data).trans (List.prefix_append _ _)
    · intro ahead reading
      by_cases short : n < data.length
      · simp [Reader.ahead, short] at reading
      · simp only [Reader.ahead, short, if_false, Option.some.injEq] at reading
        rw [List.take_of_length_le (by omega), List.append_assoc, ← reading, whole]
  | read id n calls =>
    obtain ⟨io, _, rfl⟩ := read_ok moved
    refine ⟨?_, piped.written, piped.ahead⟩
    rw [List.append_assoc, List.take_append_drop, piped.pipe]
  | again id =>
    obtain ⟨io, _, rfl⟩ := again_ok moved
    exact ⟨piped.pipe, piped.written, piped.ahead⟩
  | hangUp id input calls =>
    obtain ⟨_, _, _, io, _, rfl⟩ := hangUp_ok moved
    exact ⟨piped.pipe, piped.written, piped.ahead⟩
  | call c =>
    obtain ⟨io, _, rfl⟩ := parent_ok moved
    exact ⟨piped.pipe, piped.written, piped.ahead⟩
  | idle id calls =>
    obtain ⟨io, _, rfl⟩ := parent_ok moved
    exact ⟨piped.pipe, piped.written, piped.ahead⟩

theorem returns_unheard (c : Call) (ok : Bool) : (c.returns ok).Heard = false := by
  cases c <;> rfl

theorem heard_inert {log : List Event} (inert : ∀ e ∈ log, e.Inert = true) : heard log = [] := by
  simp only [heard, List.filter_eq_nil_iff]
  intro e member
  have := inert e member
  cases e <;> simp_all [Event.Inert, Event.Heard]

/-- A call itself tells the client nothing. -/
theorem perform_heard {c : Call} (performed : c.perform s = .ok t) : heard t.log = heard s.log := by
  obtain ⟨inert, ok, returned⟩ := perform_returned performed
  rw [returned.log, heard_append, heard_append, heard_inert returned.still]
  simp [heard, returns_unheard]

theorem react_heard {calls : List Call} (reacted : react calls s = .ok t) : heard t.log = heard s.log :=
  run_invariant (P := fun m => heard m.log = heard s.log) (A := fun _ => True)
    (fun same _ performed => (perform_heard performed).trans same) rfl (by simp) reacted

theorem arms_running {m : Mode} (running : m.stopped = false) (e : Event) : m.Arms e = false := by
  unfold Mode.Arms
  split
  · exact running
  · rfl

/-- Nobody but a start makes a watch. -/
theorem Call.FromClient.unwatched {c : Call} (client : c.FromClient) (performed : c.perform s = .ok t)
    (unwatched : s.readWatchId = none) : t.readWatchId = none := by
  obtain ⟨inert, ok, returned⟩ := perform_returned performed
  -- as if power were off, the mode that promises no watch and nothing else
  have off : Mode.Holds { off := true } s := ⟨fun _ => unwatched, nofun, nofun⟩
  have holds := returned.mode _ off (arms_running rfl _)
  refine holds.watch (.inr ?_)
  cases c with
  | start env client' => exact absurd rfl (client env client')
  | stop | write | cancelWrite => rfl
  | setPower env on => cases on <;> cases ok <;> rfl

theorem react_unwatched {calls : List Call} {s t : Sys} (clients : ∀ c ∈ calls, c.FromClient)
    (reacted : react calls s = .ok t) (unwatched : s.readWatchId = none) : t.readWatchId = none :=
  run_invariant (P := fun m => m.readWatchId = none)
    (fun unwatched client performed => client.unwatched performed unwatched) unwatched clients reacted

theorem Call.Continues.fromClient {c : Call} (continues : c.Continues) : c.FromClient := by
  rintro env client rfl
  exact continues.1

/-- While the watch works: what was handed to the parent is what the session has read. -/
structure Reader.Alive (client : Client) (left : List Octet) (before : List Event) (r : Reader) : Prop where
  session : ∃ reads, Session client left reads r.handed r.io
  heard : heard r.io.log = before ++ (frame nci (left ++ r.handed)).1.map (Event.read client)

/-- After the error: it came last, and there is no watch to tell of anything more. -/
structure Reader.Dead (client : Client) (left : List Octet) (before : List Event) (r : Reader) : Prop where
  unwatched : r.io.readWatchId = none
  exited : r.child = .exited
  pipe : r.pipe = []
  heard : heard r.io.log =
    before ++ (frame nci (left ++ r.handed)).1.map (Event.read client) ++ [.error client]

/-- The parent in any of its states. -/
structure Reader.Parent (client : Client) (left : List Octet) (before : List Event) (r : Reader) : Prop where
  rest : nci.Remainder r.io.readBuf
  recorded : Recorded none r.io
  state : r.Alive client left before ∨ r.Dead client left before

theorem Reader.Alive.take {r : Reader} {io : Sys} {pipe : List Octet} {id : SourceId}
    (alive : r.Alive client left before)
    (stepped : step r.io (.readWatch id input calls) = .ok io)
    (came : input = some (.normal octets) ∨ input = some .again ∧ octets = [])
    (continues : ∀ k, ∀ c ∈ calls k, c.Continues) :
    Reader.Alive client left before { r with handed := r.handed ++ octets, pipe, io } := by
  obtain ⟨reads, session⟩ := alive.session
  obtain ⟨more, short, came', handled⟩ | ⟨_, _, failed, _⟩ := ioReadCallback_ok (step_readWatch stepped).2
  · obtain rfl : more = octets := by
      rcases came with rfl | ⟨rfl, rfl⟩ <;> simpa [eq_comm] using came'
    have passive : ∀ k, ∀ c ∈ calls k, c.Passive := fun k c member => (continues k c member).1
    refine ⟨⟨reads, session.handled short passive handled⟩, ?_⟩
    obtain ⟨_, _, packets⟩ := ioReadHandle_passive session.present session.remainder
      (chars_narrow short session.remainder) passive handled
    have split := frame_append nci (left ++ r.handed) more
    rw [List.append_assoc, ← session.readBuf] at split
    rw [packets, alive.heard, split, List.map_append, List.append_assoc]
  · rcases came with rfl | ⟨rfl, _⟩ <;> simp at failed

theorem Reader.Alive.fail {r : Reader} {io : Sys} {id : SourceId} (alive : r.Alive client left before)
    (stepped : step r.io (.readWatch id input calls) = .ok io)
    (failed : input = none ∨ input = some .eof ∨ input = some .error)
    (clients : ∀ c ∈ calls 0, c.FromClient) (exited : r.child = .exited) (pipe : r.pipe = []) :
    Reader.Dead client left before { r with io } := by
  obtain ⟨reads, session⟩ := alive.session
  obtain ⟨more, _, came, _⟩ | ⟨client', m, _, present, reacted, rfl⟩ :=
    ioReadCallback_ok (step_readWatch stepped).2
  · rcases failed with rfl | rfl | rfl <;> simp at came
  · obtain rfl := Option.some.inj (session.present.symm.trans present)
    have unwatched : m.readWatchId = none := react_unwatched clients reacted (by rfl)
    refine ⟨unwatched, exited, pipe, ?_⟩
    rw [removeSource_log, react_heard reacted, record_log, heard_append]
    exact congrArg (· ++ [Event.error client]) alive.heard

/-- A step of the parent that is not the watch. -/
def Step.Aside : Step → Prop
  | .readWatch _ _ _ => False
  | _ => True

theorem step_aside {s t : Sys} (aside : i.Aside) (stepped : step s i = .ok t) : heard t.log = heard s.log := by
  cases i with
  | call c => exact perform_heard stepped
  | readWatch => exact absurd aside id
  | idle id calls =>
    obtain ⟨cb, m, _, _, reacted, rfl⟩ := halIoWriteComplete_ok (step_idle stepped).2
    rw [removeSource_log, react_heard reacted, record_log, heard_append]
    exact List.append_nil _

theorem step_unwatched {s t : Sys} (aside : i.Aside) (continues : i.Continues)
    (stepped : step s i = .ok t) (unwatched : s.readWatchId = none) : t.readWatchId = none := by
  cases i with
  | call c => exact Call.FromClient.unwatched continues.fromClient stepped unwatched
  | readWatch => exact absurd aside id
  | idle id calls =>
    obtain ⟨cb, m, _, _, reacted, rfl⟩ := halIoWriteComplete_ok (step_idle stepped).2
    have later : m.readWatchId = none :=
      react_unwatched (fun c member => (continues c member).fromClient) reacted (by exact unwatched)
    exact later

theorem Reader.Parent.aside {r : Reader} {io : Sys} (parent : r.Parent client left before)
    (aside : i.Aside) (continues : i.Continues) (stepped : step r.io i = .ok io) :
    Reader.Parent client left before { r with io } := by
  have silent := step_aside aside stepped
  refine ⟨step_remainder parent.rest stepped, parent.recorded.step parent.rest stepped, ?_⟩
  cases parent.state with
  | inl alive =>
    obtain ⟨reads, session⟩ := alive.session
    have same : i.octets = [] := by
      cases i with
      | readWatch => exact absurd aside id
      | call | idle => rfl
    have next := session.step continues stepped
    rw [same, List.append_nil] at next
    exact .inl ⟨⟨reads, next⟩, silent.trans alive.heard⟩
  | inr dead =>
    exact .inr ⟨step_unwatched aside continues stepped dead.unwatched, dead.exited, dead.pipe,
      silent.trans dead.heard⟩

/-- A dead parent is not watching. -/
theorem Reader.Parent.alive {r : Reader} {io : Sys} {id : SourceId} (parent : r.Parent client left before)
    (stepped : step r.io (.readWatch id input calls) = .ok io) : r.Alive client left before := by
  cases parent.state with
  | inl alive => exact alive
  | inr dead =>
    have known : r.io.readWatchId = some id := parent.recorded.known (step_readWatch stepped).1
    exact absurd (known.symm.trans dead.unwatched) nofun

/-- The child's moves are its own. -/
theorem Reader.Parent.child {r r' : Reader} (parent : r.Parent client left before)
    (running : r.child ≠ .exited) (io : r'.io = r.io) (handed : r'.handed = r.handed) :
    r'.Parent client left before := by
  refine ⟨io ▸ parent.rest, io ▸ parent.recorded, ?_⟩
  cases parent.state with
  | inl alive => exact .inl ⟨io ▸ handed ▸ alive.session, io ▸ handed ▸ alive.heard⟩
  | inr dead => exact absurd dead.exited running

theorem Reader.Parent.move {r r' : Reader} (parent : r.Parent client left before)
    (continues : m.Continues) (moved : r.move m = .ok r') : r'.Parent client left before := by
  cases m with
  | childRead n =>
    obtain ⟨reading, rfl⟩ := childRead_ok moved
    exact parent.child (by simp [reading]) rfl rfl
  | childReadFails =>
    obtain ⟨reading, rfl⟩ := childReadFails_ok moved
    exact parent.child (by simp [reading]) rfl rfl
  | childWrite n =>
    obtain ⟨data, writing, _, rfl⟩ := childWrite_ok moved
    exact parent.child (by simp [writing]) rfl rfl
  | read id n calls =>
    obtain ⟨io, stepped, rfl⟩ := read_ok moved
    exact ⟨step_remainder parent.rest stepped, parent.recorded.step parent.rest stepped,
      .inl ((parent.alive stepped).take stepped (.inl rfl) continues)⟩
  | again id =>
    obtain ⟨io, stepped, rfl⟩ := again_ok moved
    have taken : Reader.Alive client left before { r with handed := r.handed ++ [], pipe := r.pipe, io } :=
      (parent.alive stepped).take stepped (.inr ⟨rfl, rfl⟩) (by simp)
    rw [List.append_nil] at taken
    exact ⟨step_remainder parent.rest stepped, parent.recorded.step parent.rest stepped, .inl taken⟩
  | hangUp id input calls =>
    obtain ⟨pipe, exited, failed, io, stepped, rfl⟩ := hangUp_ok moved
    exact ⟨step_remainder parent.rest stepped, parent.recorded.step parent.rest stepped,
      .inr ((parent.alive stepped).fail stepped failed continues exited pipe)⟩
  | call c =>
    obtain ⟨io, stepped, rfl⟩ := parent_ok moved
    exact parent.aside (i := .call c) trivial continues stepped
  | idle id calls =>
    obtain ⟨io, stepped, rfl⟩ := parent_ok moved
    exact parent.aside (i := .idle id calls) trivial continues stepped

/-- Both processes, after any moves: the stream is conserved behind what the session
found in `read_buf`. -/
theorem moves_conserve {s io : Sys} {r : Reader} (reached : Reachable s)
    (started : halIoStart env client s = .ok (true, io)) (continues : ∀ m ∈ path, m.Continues)
    (moved : (Reader.begin tape io).moves path = .ok r) :
    r.Piped tape ∧ r.Parent client s.readBuf (heard io.log) := by
  have session := session_started (reachable_remainder reached) started
  have performed : Call.perform s (.start env client) = .ok io := bind_ok.mpr ⟨_, started, rfl⟩
  have rest : nci.Remainder io.readBuf := session.remainder
  have initial : (Reader.begin tape io).Parent client s.readBuf (heard io.log) := by
    refine ⟨rest, (reachable_recorded reached).perform performed, .inl ⟨⟨_, session⟩, ?_⟩⟩
    simp [Reader.begin, frame_of_remainder nci (reachable_remainder reached)]
  exact run_invariant (P := fun r => r.Piped tape ∧ r.Parent client s.readBuf (heard io.log))
    (fun before continues moved => ⟨before.1.move moved, before.2.move continues moved⟩)
    ⟨⟨rfl, List.nil_prefix, by rintro _ ⟨⟩; rfl⟩, initial⟩ continues moved

theorem frame_nonempty {s : List Octet} (stripped : nci.strip s = s) (long : 257 < s.length) :
    (frame nci s).1 ≠ [] := by
  intro none
  have size : nci.size (nci.strip s) = 0 := by
    by_contra complete
    rw [frame_complete nci (Nat.pos_of_ne_zero complete)] at none
    contradiction
  have rest : nci.Remainder s := ⟨stripped, stripped ▸ size⟩
  have bound := remainder_length rest
  omega

/-- A short stream can be read, written and taken at once. -/
theorem passes {io io' : Sys} {id : SourceId} (nonempty : 0 < tape.length)
    (short : tape.length ≤ maxPacketSize)
    (arrived : step io (.readWatch id (some (.normal tape)) fun _ => []) = .ok io') :
    (Reader.begin tape io).moves [.childRead tape.length, .childWrite tape.length,
      .read id tape.length fun _ => []] = .ok ⟨[], .reading, [], io', tape, tape⟩ := by
  refine run_cons.mpr ⟨⟨[], .writing tape, [], io, [], []⟩, ?_, ?_⟩
  · simp [Reader.move, Reader.childRead, Reader.begin, nonempty, short]
  refine run_cons.mpr ⟨⟨[], .reading, tape, io, tape, []⟩, ?_, ?_⟩
  · simp [Reader.move, Reader.childWrite]
  refine run_cons.mpr ⟨⟨[], .reading, [], io', tape, tape⟩, ?_, run_nil.mpr rfl⟩
  simp [Reader.move, Reader.read, Reader.parent, nonempty, arrived, bind, Except.bind, pure, Except.pure]

/-- A packet that begins otherwise than `r`, and enough behind it to complete `r`. -/
def foreignStream (r : List Octet) : List Octet := [foreign r, 0, 0] ++ List.replicate 257 0

theorem foreignStream_length (r : List Octet) : (foreignStream r).length = 260 := by
  rw [foreignStream, List.length_append, List.length_replicate]
  rfl

/-- What is left of a packet shows in the framing of what comes behind it. -/
theorem foreignStream_shows {r : List Octet} (rest : nci.Remainder r) (left : r ≠ []) :
    ¬ (frame nci (r ++ foreignStream r)).1 <+: (frame nci (foreignStream r)).1 := by
  intro part
  have strip : nci.strip (r ++ foreignStream r) = r ++ foreignStream r := by
    rw [nci.strip_append_of_ne _ (rest.strip.symm ▸ left), rest.strip]
  have nonempty := frame_nonempty strip (by rw [List.length_append, foreignStream_length]; omega)
  obtain ⟨u, us, delivered⟩ := List.exists_cons_of_ne_nil nonempty
  have head := frame_head nci rest left delivered
  rw [delivered, foreignStream, frame_unit_append nci (foreign_unit r), List.cons_prefix_cons] at part
  rw [part.1] at head
  exact foreign_ne r head.symm

/-- While the child runs, the packets that were delivered are those of what was handed. -/
theorem Reader.Conserves.delivered {r : Reader} (conserves : r.Conserves client before tape)
    (parent : r.Parent client left before) (running : r.child ≠ .exited) :
    (frame nci (left ++ r.handed)).1 <+: (frame nci tape).1 := by
  obtain ⟨packets, failed, heard, part, exited⟩ := conserves.heard
  cases parent.state with
  | inl alive =>
    cases failed with
    | true => exact absurd (exited rfl).1 running
    | false =>
      have injective : Function.Injective (Event.read client) := fun _ _ same => (Event.read.inj same).2
      have same := alive.heard.symm.trans heard
      simp only [Bool.false_eq_true, if_false, List.append_nil, List.append_cancel_left_eq] at same
      rwa [injective.list_map same]
  | inr dead => exact absurd dead.exited running

/-- Every session conserves the stream if and only if it began with `read_buf` empty. -/
theorem reader_conserving {s io : Sys} (reached : Reachable s)
    (started : halIoStart env client s = .ok (true, io)) : Conserving client io ↔ s.readBuf = [] := by
  have rest := reachable_remainder reached
  constructor
  · intro conserving
    by_contra left
    obtain ⟨present, readBuf, _, id, _, watched⟩ := halIoStart_started started
    have length := foreignStream_length s.readBuf
    have short : (foreignStream s.readBuf).length ≤ maxPacketSize := by rw [length]; decide
    obtain ⟨io', arrived⟩ := arrives present (readBuf ▸ rest) watched short
    have moved := passes (by omega) short arrived
    have continues : ∀ m ∈ [Move.childRead (foreignStream s.readBuf).length,
        .childWrite (foreignStream s.readBuf).length,
        .read id (foreignStream s.readBuf).length fun _ => []], m.Continues := by
      simp [Move.Continues]
    obtain ⟨_, parent⟩ := moves_conserve reached started continues moved
    exact foreignStream_shows rest left
      ((conserving _ _ _ continues moved).delivered parent (by simp))
  · intro empty tape path r continues moved
    obtain ⟨piped, parent⟩ := moves_conserve reached started continues moved
    have fifo : r.handed ++ r.pipe <+: tape := piped.pipe ▸ piped.written
    have part := frame_prefix nci ((List.prefix_append _ _).trans fifo)
    refine ⟨fifo, (frame nci r.handed).1, ?_⟩
    cases parent.state with
    | inl alive => exact ⟨false, by simpa [empty] using alive.heard, part, nofun⟩
    | inr dead =>
      refine ⟨true, by simpa [empty] using dead.heard, part, fun _ => ⟨dead.exited, dead.pipe, ?_⟩⟩
      rw [← piped.pipe, dead.pipe, List.append_nil]

theorem reader_conserving_fresh : ∃ io : Sys,
    halIoStart .success 1 .fresh = .ok (true, io) ∧ (Conserving 1 io ↔ Sys.fresh.readBuf = []) :=
  ⟨_, rfl, reader_conserving (.fresh [] rfl) (show halIoStart .success 1 .fresh = _ from rfl)⟩

/-- What a session left behind when power was turned off is delivered in front of the
next session's stream. -/
theorem power_off_not_conserving :
    ¬ ∀ (env : StartEnv) (client : Client) (s io : Sys), Reachable s →
      halIoStart env client s = .ok (true, io) → Conserving client io := by
  intro all
  have conserves := all .success 1 _ _
    (.fresh [.call (.start .success 1), .readWatch 1 (some (.normal [0x60])) fun _ => [],
      .call (.setPower ⟨none, true⟩ false)] rfl) rfl
    [0x61, 0x00, 0x00] [.childRead 3, .childWrite 3, .read 2 3 fun _ => []] _
    (by simp [Move.Continues]) rfl
  obtain ⟨packets, failed, heard, part, exited⟩ := conserves.heard
  have unit : nci.Unit [0x61, 0x00, 0x00] := nci_unit.mpr ⟨by decide, by decide, 0x00, rfl, rfl⟩
  have framed := frame_unit_append nci unit []
  rw [List.append_nil, frame_of_remainder nci nci.remainder_nil] at framed
  rw [framed, List.prefix_cons_iff] at part
  cases failed with
  | true => exact absurd (exited rfl).1 nofun
  | false =>
    rcases part with rfl | ⟨rest, rfl, more⟩
    · revert heard
      decide
    · obtain rfl := List.prefix_nil.mp more
      revert heard
      decide

end Pn54x
