import Pn54x.Io.Hal

/-! When the object fails. Nothing is read out of bounds, no length wraps, no function of a
client is missing: what is left are answers that the kernel cannot give and calls that the
driver does not take, a start in a session and a write before the last one is completed. -/
namespace Pn54x
open Framing Transition

/-- Neither the object nor its client is at fault. -/
def Stop.Excused (e : Stop) : Prop := e = .impossible

/-- The object fails only where the driver does. -/
abbrev Faulty (x : Exec Sys) (y : Exec Hal) : Prop := Blames Stop.Excused .assertion x y

section
variable {s : Sys}

theorem gassert_excused (holds : condition = true) (e : Stop) (failed : gassert condition = .error e) : e.Excused := by
  rw [holds] at failed
  contradiction

theorem acquire_excused (e : Stop) (failed : s.acquire fd = .error e) : e.Excused := by
  unfold Sys.acquire at failed
  split at failed
  · exact (Except.error.inj failed).symm
  · contradiction

theorem fork_excused (e : Stop) (failed : s.fork pid = .error e) : e.Excused := by
  unfold Sys.fork at failed
  split at failed
  · exact (Except.error.inj failed).symm
  · contradiction

theorem write_excused (e : Stop) (failed : s.write data accepted = .error e) : e.Excused := by
  unfold Sys.write at failed
  split at failed
  · exact (Except.error.inj failed).symm
  · contradiction

theorem ioOpen_excused (e : Stop) (failed : ioOpen device s = .error e) : e.Excused := by
  unfold ioOpen at failed
  split at failed
  · contradiction
  · split at failed
    · apply bind_error failed (acquire_excused e)
      intro _ _ done
      contradiction
    · contradiction

theorem startReader_excused (e : Stop) (failed : startReader env client s = .error e) : e.Excused := by
  unfold startReader at failed
  split at failed
  · contradiction
  · apply bind_error failed (acquire_excused e)
    intro _ _ failed
    apply bind_error failed (acquire_excused e)
    intro _ _ failed
    split at failed
    · apply bind_error failed (fork_excused e)
      intro _ _ failed
      split at failed <;> contradiction
    · contradiction

/-- The driver does not start in a session. -/
theorem start_faulty (env : StartEnv) (client : Client) (rest : List Octet) :
    Faulty (Call.perform s (.start env client)) ((s.hal.leaving rest).start env client) := by
  apply Blames.map
  unfold halIoStart
  cases running : s.readPid with
  | some pid =>
    rintro _ ⟨⟩
    exact .inr ⟨rfl, by simp [Hal.start, Hal.leaving, Sys.hal, running]⟩
  | none =>
    apply Blames.after (gassert_excused rfl)
    intro _ _
    apply Blames.after ioOpen_excused
    intro opened _
    obtain ⟨opened, m⟩ := opened
    cases opened with
    | false => exact blames_ok
    | true => exact Blames.map (blames_excused startReader_excused)

/-- The driver does not write before the last write is completed. -/
theorem write_faulty (pair : s.writeId.isSome = s.writeCb.isSome) (narrow : chunks.flatten.length < UInt32.size)
    (env : WriteEnv) (callback : Option Callback) (rest : List Octet) :
    Faulty (Call.perform s (.write env chunks callback)) ((s.hal.leaving rest).write env chunks callback) := by
  refine Blames.map (Blames.after ioOpen_excused fun opened opens => ?_)
  obtain ⟨opened, m⟩ := opened
  cases opened with
  | false => exact blames_ok
  | true =>
    obtain ⟨d, files, device, rfl⟩ := ioOpen_opens opens
    have opened := opens_isSome device
    simp only [if_true]
    cases pending : s.writeCb with
    | some cb =>
      rintro _ ⟨⟩
      exact .inr ⟨rfl, by simp [Hal.write, Hal.opening, Hal.leaving, Sys.hal, opened, pending]⟩
    | none =>
      have idle : s.writeId = none := by simpa [pending] using pair
      obtain ⟨writeBuf, gathers⟩ := halIoWriteData_whole narrow { s with fd := some d, files }
      apply Blames.after (gassert_excused rfl)
      intro _ _
      apply Blames.after (gassert_excused (by rw [idle]; rfl))
      intro _ _
      refine Blames.after (fun e failed => ?_) fun _ _ => Blames.after write_excused fun _ _ => blames_ok
      simp only [pending] at gathers
      rw [gathers] at failed
      contradiction

theorem power_faulty (env : PowerEnv) (on : Bool) (y : Exec Hal) : Faulty (Call.perform s (.setPower env on)) y := by
  refine Blames.map (Blames.after ioOpen_excused fun opened _ => ?_)
  simp only
  split
  · exact blames_ok
  · exact blames_ok

/-- A completion is scheduled where one is owed, before and after every call. -/
def Owing (s : Sys) : Prop := s.writeId.isSome = s.writeCb.isSome

theorem perform_faulty {c : Call} (owing : Owing s) (counted : c.Counted) (rest : List Octet) :
    Faulty (c.perform s) ((s.hal.leaving rest).perform c) := by
  cases c with
  | start env client => exact start_faulty env client rest
  | stop | cancelWrite => exact blames_ok
  | write env chunks callback => exact write_faulty owing counted env callback rest
  | setPower env on => exact power_faulty env on _

theorem Owing.perform {t : Sys} {c : Call} (owing : Owing s) (performed : c.perform s = .ok t) : Owing t := by
  obtain ⟨_, _, _, settling⟩ := perform_settling performed
  exact settling.pair owing

theorem react_faulty {calls : List Call} (owing : Owing s) (counted : ∀ c ∈ calls, c.Counted) :
    Faulty (react calls s) (s.hal.react calls) ∧ Faulty (react calls s) ((s.hal.leaving []).react calls) := by
  have whole {s c t} (owing : Owing s) (counted : Call.Counted c) (performed : c.perform s = .ok t) :
      Owing t ∧ s.hal.perform c = .ok t.hal := ⟨owing.perform performed, perform_whole counted performed⟩
  have taken {s c t} (owing : Owing s) (counted : Call.Counted c) (performed : c.perform s = .ok t) :
      Owing t ∧ (s.hal.leaving []).perform c = .ok (t.hal.leaving []) :=
    ⟨owing.perform performed, perform_taken counted performed⟩
  have emptied := run_blames taken (fun owing counted => perform_faulty owing counted []) owing counted
  exact ⟨run_blames whole (fun owing counted => perform_faulty owing counted _) owing counted, emptied⟩

theorem clientRead_at (client : Client) (packet : List Octet) (calls : List Call) :
    clientRead (some client) (.at packet) packet.length calls s = react calls (s.record (.read client packet)) := by
  simp [clientRead, Cursor.at]

theorem Owing.react {t : Sys} {calls : List Call} (owing : Owing s) (reacted : react calls s = .ok t) : Owing t :=
  run_invariant (P := Owing) (A := fun _ => True) (fun owing _ performed => owing.perform performed) owing
    (by simp) reacted

theorem give_faulty {calls : Nat → List Call} (owing : Owing s) (counted : ∀ k, ∀ c ∈ calls k, c.Counted) :
    Faulty (deliver (some client) calls k packets s) ((s.hal.leaving []).give client calls k packets) := by
  induction packets generalizing k s with
  | nil => exact blames_ok
  | cons packet packets ih =>
    have told : ((s.record (.read client packet)).hal.leaving []) =
        (s.hal.leaving []).tell (.read client packet) := by
      rw [hal_record _ rfl]
      rfl
    have owing' : Owing (s.record (.read client packet)) := owing
    have follows : Follows (fun m u => Owing m ∧ u = m.hal.leaving []) (react (calls k) (s.record (.read client packet)))
        (((s.hal.leaving []).tell (.read client packet)).react (calls k)) := by
      intro m reacted
      have moved := (react_hal (counted k) reacted).2
      rw [told] at moved
      exact ⟨_, moved, owing'.react reacted, rfl⟩
    have blames := (react_faulty owing' (counted k)).2
    rw [told] at blames
    unfold deliver Hal.give
    rw [clientRead_at]
    apply blames.bind follows
    rintro m _ ⟨owing, rfl⟩
    exact ih owing

theorem receive_faulty {calls : Nat → List Call} (owing : Owing s) (counted : ∀ k, ∀ c ∈ calls k, c.Counted)
    (present : s.client = some client) (remainder : nci.Remainder s.readBuf) (narrow : Narrow (s.readBuf ++ octets)) :
    Faulty (ioReadHandle calls octets s) (s.hal.receive client calls octets) := by
  obtain ⟨_, readBuf, same⟩ := buffering_object s octets
  have buffered : (s.buffering octets).hal.leaving [] = { s.hal with rest := [] } := by
    rw [same]
    rfl
  have owing' : Owing (s.buffering octets) := by
    rw [same]
    exact owing
  have blames : Faulty (deliver (some client) calls 0 (frame nci (s.readBuf ++ octets)).1 (s.buffering octets))
      (Hal.give client calls 0 (frame nci (s.readBuf ++ octets)).1 ((s.buffering octets).hal.leaving [])) :=
    give_faulty owing' counted
  rw [buffered] at blames
  rw [ioReadHandle_eq remainder narrow, present]
  refine Blames.bind (R := fun _ _ => True) blames (fun m delivered => ?_) fun _ _ _ => blames_ok
  have given := give_hal counted delivered
  rw [buffered] at given
  exact ⟨_, given, trivial⟩

theorem readInput_excused (e : Stop) (failed : readInput input = .error e) : e.Excused := by
  cases input with
  | none => contradiction
  | some result =>
    cases result with
    | normal octets =>
      simp only [readInput, ioReadChars] at failed
      split at failed
      · contradiction
      · exact (Except.error.inj failed).symm
    | again | eof | error => contradiction

/-- Where the object fails at what it does, the driver fails as well. -/
theorem step_faulty {i : Step} (reached : Reachable s) (counted : i.Counted) : Faulty (step s i) (s.hal.step i) := by
  have owing : Owing s := (passed_answered reached.passed).pair
  have recorded := reachable_recorded reached
  cases i with
  | call c => exact perform_faulty owing counted s.readBuf
  | readWatch id input calls =>
    by_cases scheduled : (id, SourceFunc.readCallback) ∈ s.sources
    · obtain ⟨client, present, session⟩ := watched_session reached scheduled
      have present' : s.hal.client = some client := present
      simp only [step, if_pos scheduled]
      unfold ioReadCallback Hal.step
      refine Blames.bind (R := fun a b => a = b ∧ readInput input = .ok a) (blames_excused readInput_excused)
        (fun a answered => ⟨a, answered, rfl, answered⟩) ?_
      rintro octets _ ⟨rfl, answered⟩
      rw [session, present']
      cases octets with
      | some octets =>
        have remainder := reachable_remainder reached
        exact receive_faulty owing counted present remainder (chars_narrow (readInput_short answered) remainder)
      | none =>
        simp only [present]
        apply Blames.map
        have owing' : Owing (Sys.record { s with readWatchId := none } (.error client)) := owing
        have blames := (react_faulty owing' (counted 0)).1
        rw [hal_failing session] at blames
        change Faulty _ ((Hal.tell { s.hal with client := some client, session := some false } (.error client)).react _)
        rw [← present']
        exact blames
    · simp only [step, if_neg scheduled]
      exact blames_excused fun e failed => (Except.error.inj failed).symm
  | idle id calls =>
    by_cases scheduled : (id, SourceFunc.writeComplete) ∈ s.sources
    · have known : s.writeId = some id := recorded.known scheduled
      obtain ⟨cb, pending⟩ : ∃ cb, s.writeCb = some cb := by
        apply Option.isSome_iff_exists.mp
        rw [← owing, known]
        rfl
      have pending' : s.hal.pending = some cb := pending
      simp only [step, if_pos scheduled, halIoWriteComplete, known, pending, Hal.step, pending']
      apply Blames.map
      have completing : Owing (Sys.record { s with writeId := none, writeCb := none } (.writeComplete s.client cb true)) := rfl
      have blames := (react_faulty completing counted).1
      rw [hal_record _ rfl] at blames
      exact blames
    · simp only [step, if_neg scheduled]
      exact blames_excused fun e failed => (Except.error.inj failed).symm

end

/-- While packets are framed in `read_buf`, no read callback stops the object, which would
empty it. -/
def Step.SparesBuffer (s : Sys) : Step → Prop
  | .readWatch _ _ calls => s.readBuf ≠ [] → ∀ k, .stop ∉ calls k
  | _ => True

/-- What `ptr` points to stays there: whichever packets have been delivered, `read_buf`
holds what it held when the framing began. -/
def Step.InPlace (s : Sys) (i : Step) : Prop :=
  match i with
  | .readWatch _ _ calls => ∀ delivered more t, (frame nci (s.readBuf ++ i.octets)).1 = delivered ++ more →
      deliver s.client calls 0 delivered (s.buffering i.octets) = .ok t →
      t.readBuf = (s.buffering i.octets).readBuf
  | _ => True

theorem deliver_unstopped {s t : Sys} (going : ∀ k, .stop ∉ calls k)
    (delivered : deliver client calls k packets s = .ok t) : t.readBuf = s.readBuf := by
  induction packets generalizing k s with
  | nil =>
    cases delivered
    rfl
  | cons packet packets ih =>
    obtain ⟨m, called, rest⟩ := deliver_cons.mp delivered
    obtain ⟨c, _, reacted⟩ := clientRead_at_ok.mp called
    have kept : m.readBuf = s.readBuf := by
      refine run_invariant (P := fun m => m.readBuf = s.readBuf) (A := (· ≠ .stop)) ?_ rfl ?_ reacted
      · intro n c u same other performed
        rw [perform_readBuf performed, if_neg other]
        exact same
      · exact fun c member same => going k (same ▸ member)
    exact (ih rest).trans kept

theorem Step.SparesBuffer.inPlace {s : Sys} {i : Step} (spares : i.SparesBuffer s) : i.InPlace s := by
  cases i with
  | call | idle => trivial
  | readWatch id input calls =>
    intro delivered more t _ given
    by_cases empty : s.readBuf = []
    · have same : (s.buffering (Step.octets (.readWatch id input calls))).readBuf = [] := by
        simp [Sys.buffering, empty]
      cases deliver_readBuf given with
      | inl kept => exact kept
      | inr emptied => exact emptied.trans same.symm
    · exact deliver_unstopped (spares empty) given

/-- In every run in which the array that is framed is not emptied meanwhile, it stays as it is,
and the object fails only over an answer that the kernel cannot give, or where the driver that
its client sees fails over the same calls: at a start in a session, or at a write before the last
one is completed. -/
theorem io_faults (created : ioNew env = .ok (some new)) (counted : ∀ i ∈ path, i.Counted)
    (spares : along step (fun s i => i.SparesBuffer s) new path) :
    along step (fun s i => i.InPlace s) new path ∧
    ∀ e, steps new path = .error e → e = .impossible ∨
      e = .assertion ∧ Hal.steps { told := [.setPower false true] } path = .error .assertion := by
  have views {s i t} (reached : Reachable s) (counted : Step.Counted i) (stepped : step s i = .ok t) :
      Reachable t ∧ s.hal.step i = .ok t.hal := ⟨reached.step stepped, step_hal reached counted stepped⟩
  have blames := run_blames views step_faulty ⟨env, new, [], created, rfl⟩ counted
  rw [ioNew_hal created] at blames
  exact ⟨along_mono Step.SparesBuffer.inPlace spares, blames⟩

/-- A packet is completed in `read_buf`, its client writes, and the driver starts again. -/
theorem io_faults_second_start :
    steps .fresh [.call (.start .success 1), .readWatch 1 (some (.normal [0x60, 0x00])) fun _ => [],
      .readWatch 1 (some (.normal [0x00])) fun _ => [.write ⟨none, some 3⟩ [[0x20, 0x00, 0x00]] none],
      .call (.start .success 1)] = .error .assertion ∧
    Hal.steps { told := [.setPower false true] } [.call (.start .success 1),
      .readWatch 1 (some (.normal [0x60, 0x00])) fun _ => [],
      .readWatch 1 (some (.normal [0x00])) fun _ => [.write ⟨none, some 3⟩ [[0x20, 0x00, 0x00]] none],
      .call (.start .success 1)] = .error .assertion := by
  have created : ioNew ⟨some 3, true⟩ = .ok (some .fresh) := rfl
  have failed : steps .fresh [.call (.start .success 1), .readWatch 1 (some (.normal [0x60, 0x00])) fun _ => [],
    .readWatch 1 (some (.normal [0x00])) fun _ => [.write ⟨none, some 3⟩ [[0x20, 0x00, 0x00]] none],
    .call (.start .success 1)] = .error .assertion := rfl
  refine ⟨failed, (((io_faults created ?_ ?_).2 _ failed).resolve_left nofun).2⟩
  · simp [Step.Counted, Call.Counted, UInt32.size]
  · exact ⟨trivial, fun _ _ => ⟨by simp [Step.SparesBuffer], fun _ _ => ⟨by simp [Step.SparesBuffer],
      fun _ _ => ⟨trivial, fun _ _ => trivial⟩⟩⟩⟩

end Pn54x
