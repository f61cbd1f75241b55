import Pn54x.Io.Reader
import Pn54x.Io.Completion
import Pn54x.Library.Progress

/-! That the stream arrives. However the two processes take turns, the session comes to
a point where neither has anything left to do, and by then the client has been given
everything that the reader process wrote, and then the error. -/
namespace Pn54x
open Framing Transition

/-- A move that takes the stream further. Polling an empty pipe, calls of the API and
completions do not. -/
def Move.Progress : Move → Bool
  | .childRead _ | .childReadFails | .childWrite _ | .read _ _ _ | .hangUp _ _ _ => true
  | .again _ | .call _ | .idle _ _ => false

/-- Neither process has anything left to do. -/
def Reader.Settled : Reader → Prop := Transition.Settled Reader.move Move.Continues Move.Progress

/-- The device does not fail before its end, and the pipe takes all that it is given. -/
def Move.Whole (r : Reader) : Move → Prop
  | .childReadFails => r.device = []
  | .childWrite n => ∀ data, r.child = .writing data → n = data.length
  | _ => True

/-- Each octet has to be read, written and taken, and then both processes come to their
end. -/
def Reader.work (r : Reader) : Nat :=
  4 * r.device.length + r.pipe.length + r.io.readWatchId.isSome.toNat +
    match r.child with
    | .reading => 1
    | .writing data => 2 * data.length + 2
    | .exited => 0

theorem childRead_may {r r' : Reader} (moved : r.childRead n = .ok r') :
    r.child = .reading ∧ 0 < n ∧ n ≤ maxPacketSize ∧ n ≤ r.device.length := by
  unfold Reader.childRead at moved
  split at moved
  · assumption
  · contradiction

theorem read_may {r r' : Reader} {id : SourceId} (moved : r.read id n calls = .ok r') :
    0 < n ∧ n ≤ r.pipe.length := by
  unfold Reader.read at moved
  split at moved
  · assumption
  · contradiction

/-- A call after which the session goes on leaves the watch. -/
theorem Call.Continues.watch {c : Call} (continues : c.Continues) (performed : c.perform s = .ok t) :
    t.readWatchId = s.readWatchId := by
  cases c with
  | start | stop => exact absurd continues.1 id
  | write env chunks callback =>
    obtain ⟨ok, writes⟩ := perform_write performed
    obtain ⟨fd, files, _, ⟨_, rfl⟩ | ⟨data, writeBuf, _, _, _, rfl⟩⟩ := halIoWrite_ok writes
    · rfl
    · split
      · cases callback <;> rfl
      · rfl
  | cancelWrite =>
    obtain rfl := Except.ok.inj performed
    rw [halIoCancelWrite_eq]
    rfl
  | setPower env on =>
    obtain ⟨ok, power⟩ := perform_setPower performed
    obtain ⟨fd, files, rfl, _, rfl⟩ := ioSetPower_ok power
    cases on with
    | true => split <;> rfl
    | false =>
      rw [continues.2 env rfl, Bool.and_false]
      rfl

theorem react_watch {calls : List Call} {s t : Sys} (continues : ∀ c ∈ calls, c.Continues)
    (reacted : react calls s = .ok t) : t.readWatchId = s.readWatchId :=
  run_invariant (P := fun m => m.readWatchId = s.readWatchId)
    (fun same continues performed => (continues.watch performed).trans same) rfl continues reacted

theorem deliver_watch {s t : Sys} (continues : ∀ k, ∀ c ∈ calls k, c.Continues)
    (delivered : deliver client calls k packets s = .ok t) : t.readWatchId = s.readWatchId := by
  induction packets generalizing k s with
  | nil =>
    cases delivered
    rfl
  | cons packet packets ih =>
    obtain ⟨m, called, rest⟩ := deliver_cons.mp delivered
    obtain ⟨c, _, reacted⟩ := clientRead_at_ok.mp called
    have watch := react_watch (continues k) reacted
    exact (ih rest).trans watch

/-- So does a step of the main loop, unless the watch reports an error. -/
theorem step_watch {s t : Sys} (rest : nci.Remainder s.readBuf) (continues : i.Continues)
    (going : ∀ id input calls, i = .readWatch id input calls → CharsResult.octets input ≠ none)
    (stepped : step s i = .ok t) : t.readWatchId = s.readWatchId := by
  cases i with
  | call c => exact Call.Continues.watch continues stepped
  | readWatch id input calls =>
    rcases ioReadCallback_ok (step_readWatch stepped).2 with
      ⟨octets, short, _, handled⟩ | ⟨client, m, failed, _⟩
    · rw [ioReadHandle_eq rest (chars_narrow short rest)] at handled
      obtain ⟨m, delivered, done⟩ := bind_ok.mp handled
      obtain rfl := Except.ok.inj done
      obtain ⟨_, readBuf, same⟩ := buffering_object s octets
      have watch := deliver_watch continues delivered
      rw [same] at watch
      exact watch
    · exact absurd (by rcases failed with rfl | rfl | rfl <;> rfl) (going id input calls rfl)
  | idle id calls =>
    obtain ⟨cb, m, _, _, reacted, rfl⟩ := halIoWriteComplete_ok (step_idle stepped).2
    have watch := react_watch continues reacted
    exact watch

/-- The parent hangs up once, and tells the client. -/
theorem Reader.Parent.hangsUp {r r' : Reader} {id : SourceId} (parent : r.Parent client left before)
    (continues : (Move.hangUp id input calls).Continues) (moved : r.hangUp id input calls = .ok r') :
    r.io.readWatchId.isSome = true ∧ r'.Dead client left before := by
  obtain ⟨pipe, exited, failed, io, stepped, rfl⟩ := hangUp_ok moved
  have known : r.io.readWatchId = some id := parent.recorded.known (step_readWatch stepped).1
  exact ⟨by rw [known]; rfl, (parent.alive stepped).fail stepped failed continues exited pipe⟩

def Move.HangsUp : Move → Bool
  | .hangUp _ _ _ => true
  | _ => false

/-- Otherwise the watch goes on. -/
theorem Reader.Parent.watch {r r' : Reader} (parent : r.Parent client left before)
    (continues : m.Continues) (going : m.HangsUp = false) (moved : r.move m = .ok r') :
    r'.io.readWatchId = r.io.readWatchId := by
  cases m with
  | childRead n =>
    obtain ⟨_, rfl⟩ := childRead_ok moved
    rfl
  | childReadFails =>
    obtain ⟨_, rfl⟩ := childReadFails_ok moved
    rfl
  | childWrite n =>
    obtain ⟨_, _, _, rfl⟩ := childWrite_ok moved
    rfl
  | read id n calls =>
    obtain ⟨io, stepped, rfl⟩ := read_ok moved
    exact step_watch (i := .readWatch id _ calls) parent.rest continues (by rintro _ _ _ ⟨⟩; nofun) stepped
  | again id =>
    obtain ⟨io, stepped, rfl⟩ := again_ok moved
    refine step_watch (i := .readWatch id _ _) parent.rest ?_ (by rintro _ _ _ ⟨⟩; nofun) stepped
    exact fun k c member => absurd member List.not_mem_nil
  | hangUp => contradiction
  | call c =>
    obtain ⟨io, stepped, rfl⟩ := parent_ok moved
    exact step_watch (i := .call c) parent.rest continues (by rintro _ _ _ ⟨⟩) stepped
  | idle id calls =>
    obtain ⟨io, stepped, rfl⟩ := parent_ok moved
    exact step_watch (i := .idle id calls) parent.rest continues (by rintro _ _ _ ⟨⟩) stepped

theorem Reader.Dead.unscheduled {r : Reader} {io : Sys} {id : SourceId} (dead : r.Dead client left before)
    (recorded : Recorded none r.io) (stepped : step r.io (.readWatch id input calls) = .ok io) : False := by
  have known : r.io.readWatchId = some id := recorded.known (step_readWatch stepped).1
  exact absurd (known.symm.trans dead.unwatched) nofun

/-- The error comes last. -/
theorem Reader.Dead.move {r r' : Reader} (dead : r.Dead client left before) (recorded : Recorded none r.io)
    (continues : m.Continues) (moved : r.move m = .ok r') : r'.Dead client left before := by
  cases m with
  | childRead n => exact absurd (dead.exited.symm.trans (childRead_ok moved).1) nofun
  | childReadFails => exact absurd (dead.exited.symm.trans (childReadFails_ok moved).1) nofun
  | childWrite n =>
    obtain ⟨data, writing, _⟩ := childWrite_ok moved
    exact absurd (dead.exited.symm.trans writing) nofun
  | read id n calls =>
    obtain ⟨io, stepped, _⟩ := read_ok moved
    exact (dead.unscheduled recorded stepped).elim
  | again id =>
    obtain ⟨io, stepped, _⟩ := again_ok moved
    exact (dead.unscheduled recorded stepped).elim
  | hangUp id input calls =>
    obtain ⟨_, _, _, io, stepped, _⟩ := hangUp_ok moved
    exact (dead.unscheduled recorded stepped).elim
  | call c =>
    obtain ⟨io, stepped, rfl⟩ := parent_ok moved
    exact ⟨step_unwatched (i := .call c) trivial continues stepped dead.unwatched, dead.exited, dead.pipe,
      (step_aside (i := .call c) trivial stepped).trans dead.heard⟩
  | idle id calls =>
    obtain ⟨io, stepped, rfl⟩ := parent_ok moved
    exact ⟨step_unwatched (i := .idle id calls) trivial continues stepped dead.unwatched, dead.exited, dead.pipe,
      (step_aside (i := .idle id calls) trivial stepped).trans dead.heard⟩

/-- Progress is paid for with the work that is left. -/
theorem Reader.Parent.pays {r r' : Reader} (parent : r.Parent client left before) (continues : m.Continues)
    (moved : r.move m = .ok r') : r'.work + m.Progress.toNat ≤ r.work := by
  have watch (going : m.HangsUp = false) := parent.watch continues going moved
  cases m with
  | childRead n =>
    obtain ⟨reading, rfl⟩ := childRead_ok moved
    obtain ⟨_, some, _, within⟩ := childRead_may moved
    simp only [Reader.work, Move.Progress, reading, List.length_drop, List.length_take, Bool.toNat_true]
    omega
  | childReadFails =>
    obtain ⟨reading, rfl⟩ := childReadFails_ok moved
    simp only [Reader.work, Move.Progress, reading, Bool.toNat_true]
    omega
  | childWrite n =>
    obtain ⟨data, writing, within, rfl⟩ := childWrite_ok moved
    by_cases short : n < data.length
    · simp only [Reader.work, Move.Progress, writing, short, if_true, List.length_append, List.length_take,
        Bool.toNat_true]
      omega
    · simp only [Reader.work, Move.Progress, writing, short, if_false, List.length_append, List.length_take,
        Bool.toNat_true]
      omega
  | read id n calls =>
    obtain ⟨some, within⟩ := read_may moved
    obtain ⟨io, _, rfl⟩ := read_ok moved
    have same : io.readWatchId = r.io.readWatchId := watch rfl
    simp only [Reader.work, Move.Progress, same, List.length_drop, Bool.toNat_true]
    omega
  | hangUp id input calls =>
    obtain ⟨watched, dead⟩ := parent.hangsUp continues moved
    obtain ⟨_, _, _, io, _, rfl⟩ := hangUp_ok moved
    have unwatched : io.readWatchId = none := dead.unwatched
    simp only [Reader.work, Move.Progress, unwatched, watched, Option.isSome_none, Bool.toNat_true,
      Bool.toNat_false]
    omega
  | again id =>
    obtain ⟨io, _, rfl⟩ := again_ok moved
    have same : io.readWatchId = r.io.readWatchId := watch rfl
    simp only [Reader.work, Move.Progress, same, Bool.toNat_false, Nat.add_zero, Nat.le_refl]
  | call | idle =>
    obtain ⟨io, _, rfl⟩ := parent_ok moved
    have same : io.readWatchId = r.io.readWatchId := watch rfl
    simp only [Reader.work, Move.Progress, same, Bool.toNat_false, Nat.add_zero, Nat.le_refl]

theorem move_io {r r' : Reader} (moved : r.move m = .ok r') : r'.io = r.io ∨ ∃ i, step r.io i = .ok r'.io := by
  cases m with
  | childRead n =>
    obtain ⟨_, rfl⟩ := childRead_ok moved
    exact .inl rfl
  | childReadFails =>
    obtain ⟨_, rfl⟩ := childReadFails_ok moved
    exact .inl rfl
  | childWrite n =>
    obtain ⟨_, _, _, rfl⟩ := childWrite_ok moved
    exact .inl rfl
  | read id n calls =>
    obtain ⟨io, stepped, rfl⟩ := read_ok moved
    exact .inr ⟨_, stepped⟩
  | again id =>
    obtain ⟨io, stepped, rfl⟩ := again_ok moved
    exact .inr ⟨_, stepped⟩
  | hangUp id input calls =>
    obtain ⟨_, _, _, io, stepped, rfl⟩ := hangUp_ok moved
    exact .inr ⟨_, stepped⟩
  | call | idle =>
    obtain ⟨io, stepped, rfl⟩ := parent_ok moved
    exact .inr ⟨_, stepped⟩

/-- The parent watches the pipe until it has told the client of the error. -/
structure Reader.Attends (client : Client) (left : List Octet) (before : List Event) (r : Reader) : Prop where
  reached : Reachable r.io
  parent : r.Parent client left before
  watching : r.io.readWatchId.isSome = true ∨ r.Dead client left before

theorem Reader.Attends.move {r r' : Reader} (attends : r.Attends client left before) (continues : m.Continues)
    (moved : r.move m = .ok r') : r'.Attends client left before := by
  constructor
  · rcases move_io moved with same | ⟨i, stepped⟩
    · exact same ▸ attends.reached
    · exact attends.reached.step stepped
  · exact attends.parent.move continues moved
  · rcases attends.watching with watched | dead
    · cases hangs : m.HangsUp with
      | false =>
        rw [attends.parent.watch continues hangs moved]
        exact .inl watched
      | true =>
        cases m with
        | hangUp id input calls => exact .inr (attends.parent.hangsUp continues moved).2
        | _ => contradiction
    · exact .inr (dead.move attends.parent.recorded continues moved)

/-- While the watch is there, one of the processes can go on. -/
theorem Reader.Attends.ended {r : Reader} (attends : r.Attends client left before) (settled : r.Settled) :
    r.Dead client left before := by
  apply attends.watching.resolve_left
  intro watched
  obtain ⟨id, known⟩ := Option.isSome_iff_exists.mp watched
  have installed : Installed none r.io := passed_installed attends.reached.passed
  have scheduled : (id, SourceFunc.readCallback) ∈ r.io.sources := (installed.known .readCallback id known).1
  have alive : r.Alive client left before := by
    apply attends.parent.state.resolve_right
    intro dead
    rw [dead.unwatched] at watched
    contradiction
  obtain ⟨reads, session⟩ := alive.session
  cases child : r.child with
  | reading =>
    have fails : r.move .childReadFails = .ok { r with child := .exited } := if_pos child
    exact absurd (settled .childReadFails _ trivial fails) (by simp [Move.Progress])
  | writing data =>
    have writes : r.move (.childWrite data.length) = .ok { r with
        pipe := r.pipe ++ data.take data.length, written := r.written ++ data.take data.length
        child := if data.length < data.length then .exited else .reading } := by
      simp only [Reader.move, Reader.childWrite, child, if_pos (Nat.le_refl _)]
    exact absurd (settled (.childWrite _) _ trivial writes) (by simp [Move.Progress])
  | exited =>
    by_cases empty : r.pipe = []
    · have hangs : ∃ r', r.move (.hangUp id none fun _ => []) = .ok r' := by
        refine ⟨{ r with io := Sys.removeSource (Sys.record { r.io with readWatchId := none } (.error client)) id }, ?_⟩
        simp [Reader.move, Reader.hangUp, empty, child, Reader.parent, step, scheduled, ioReadCallback, readInput,
          session.present, react, Transition.run, bind, Except.bind, pure, Except.pure]
      obtain ⟨r', hung⟩ := hangs
      exact absurd (settled _ _ (by simp [Move.Continues]) hung) (by simp [Move.Progress])
    · have some : 0 < 1 ∧ 1 ≤ r.pipe.length := ⟨Nat.one_pos, List.length_pos_iff.mpr empty⟩
      have short : (r.pipe.take 1).length ≤ maxPacketSize := by
        rw [List.length_take, maxPacketSize]
        omega
      obtain ⟨io, arrived⟩ := arrives session.present session.remainder scheduled short
      have takes : r.move (.read id 1 fun _ => []) =
          .ok { r with handed := r.handed ++ r.pipe.take 1, pipe := r.pipe.drop 1, io } := by
        simp only [Reader.move, Reader.read, if_pos some, Reader.parent, arrived, bind, Except.bind, pure, Except.pure]
      exact absurd (settled _ _ (by simp [Move.Continues]) takes) (by simp [Move.Progress])

/-- Where the device comes to its end and the pipe takes everything, all of the stream
is written by the time that the child exits. -/
theorem Reader.Piped.whole {r r' : Reader} (piped : r.Piped tape)
    (all : r.child = .exited → r.written = tape) (whole : m.Whole r) (moved : r.move m = .ok r') :
    r'.child = .exited → r'.written = tape := by
  cases m with
  | childRead n =>
    obtain ⟨_, rfl⟩ := childRead_ok moved
    exact nofun
  | childReadFails =>
    obtain ⟨reading, rfl⟩ := childReadFails_ok moved
    have ended : r.device = [] := whole
    have ahead := piped.ahead r.device (by rw [Reader.ahead, reading])
    rw [ended, List.append_nil] at ahead
    exact fun _ => ahead
  | childWrite n =>
    obtain ⟨data, writing, _, rfl⟩ := childWrite_ok moved
    obtain rfl : n = data.length := whole data writing
    simp
  | read id n calls =>
    obtain ⟨io, _, rfl⟩ := read_ok moved
    exact all
  | again id =>
    obtain ⟨io, _, rfl⟩ := again_ok moved
    exact all
  | hangUp id input calls =>
    obtain ⟨_, _, _, io, _, rfl⟩ := hangUp_ok moved
    exact all
  | call | idle =>
    obtain ⟨io, _, rfl⟩ := parent_ok moved
    exact all

theorem parent_spends (client : Client) (left : List Octet) (before : List Event) :
    Spends Reader.move (Reader.Parent client left before) Move.Continues Move.Progress Reader.work :=
  ⟨fun parent continues moved => parent.move continues moved,
    fun parent continues moved => parent.pays continues moved⟩

/-- Every session delivers its stream. The processes can make no more progress than the
stream has work for, they can go on until both are done, and wherever they are done the
client has been given all that the reader process wrote, and then the error. -/
theorem reader_delivers {s io : Sys} {r : Reader} (reached : Reachable s)
    (started : halIoStart env client s = .ok (true, io)) (continues : ∀ m ∈ path, m.Continues)
    (moved : (Reader.begin tape io).moves path = .ok r) :
    path.countP Move.Progress ≤ 4 * tape.length + 2 ∧
    (∃ more t, (∀ m ∈ more, m.Continues) ∧ r.moves more = .ok t ∧ t.Settled) ∧
    (r.Settled → r.written <+: tape ∧
      heard r.io.log = heard io.log ++ (frame nci (s.readBuf ++ r.written)).1.map (Event.read client) ++
        [.error client] ∧
      (along Reader.move (fun r m => m.Whole r) (Reader.begin tape io) path → r.written = tape)) := by
  have begins (tape : List Octet) : (Reader.begin tape io).Parent client s.readBuf (heard io.log) :=
    (moves_conserve reached started (List.forall_mem_nil _) rfl).2
  have performed : Call.perform s (.start env client) = .ok io := bind_ok.mpr ⟨_, started, rfl⟩
  have spends := parent_spends client s.readBuf (heard io.log)
  obtain ⟨piped, parent⟩ := moves_conserve reached started continues moved
  refine ⟨?_, spends.settles parent, fun settled => ?_⟩
  · obtain ⟨_, _, _, id, known, _⟩ := halIoStart_started started
    have whole : (Reader.begin tape io).work = 4 * tape.length + 2 := by
      simp [Reader.work, Reader.begin, known]
    have bounded := spends.bounded (begins tape) continues moved
    omega
  · have attends : r.Attends client s.readBuf (heard io.log) := by
      refine run_invariant (P := Reader.Attends client s.readBuf (heard io.log))
        (fun attends continues moved => attends.move continues moved) ⟨?_, begins tape, ?_⟩ continues moved
      · exact reached.step (i := .call (.start env client)) performed
      · obtain ⟨_, _, _, id, known, _⟩ := halIoStart_started started
        exact .inl (by rw [Reader.begin, known]; rfl)
    have dead := attends.ended settled
    have handed : r.handed = r.written := by
      rw [← piped.pipe, dead.pipe, List.append_nil]
    refine ⟨piped.written, handed ▸ dead.heard, fun whole => ?_⟩
    have begun : (Reader.begin tape io).Piped tape ∧
        ((Reader.begin tape io).child = .exited → (Reader.begin tape io).written = tape) :=
      ⟨⟨rfl, List.nil_prefix, by rintro _ ⟨⟩; rfl⟩, by simp [Reader.begin]⟩
    have all := run_along (P := fun r => r.Piped tape ∧ (r.child = .exited → r.written = tape))
      (fun before whole moved => ⟨before.1.move moved, before.1.whole before.2 whole moved⟩) begun whole moved
    exact all.2 dead.exited

theorem reader_delivers_fresh : ∃ io path r, halIoStart .success 1 .fresh = .ok (true, io) ∧
    (Reader.begin [0x60, 0x01, 0xff] io).moves path = .ok r ∧
    heard r.io.log = (frame nci r.written).1.map (Event.read 1) ++ [.error 1] := by
  obtain ⟨io, started, silent⟩ : ∃ io, halIoStart .success 1 .fresh = .ok (true, io) ∧ heard io.log = [] :=
    ⟨_, rfl, rfl⟩
  have begun : (Reader.begin [0x60, 0x01, 0xff] io).moves [] = .ok (Reader.begin [0x60, 0x01, 0xff] io) := rfl
  obtain ⟨_, ⟨path, r, continues, moved, settled⟩, _⟩ :=
    reader_delivers (.fresh [] rfl) started (List.forall_mem_nil _) begun
  have delivered := ((reader_delivers (.fresh [] rfl) started continues moved).2.2 settled).2.1
  rw [silent] at delivered
  exact ⟨io, path, r, started, moved, delivered⟩

end Pn54x
