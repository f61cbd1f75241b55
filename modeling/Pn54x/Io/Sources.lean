import Pn54x.Io.Steps

/-! The sources in the main loop. Whatever happens, the object knows every source that
is scheduled for it, so that closing and cancelling leave none behind. -/
namespace Pn54x
open Framing Transition

/-- The id under which the object knows its source of a kind. -/
def Sys.recorded (s : Sys) : SourceFunc → Option SourceId
  | .readCallback => s.readWatchId
  | .writeComplete => s.writeId

/-- Every scheduled source is the one that the object knows, or the one that is just
being dispatched. -/
structure Recorded (served : Option SourceId) (s : Sys) : Prop where
  sources : ∀ id func, (id, func) ∈ s.sources → served = some id ∨ s.recorded func = some id
  watched : s.readPid = none → s.readWatchId = none

/-- Removing the source of a kind that the object knows leaves none of that kind,
except one that is being dispatched. -/
theorem Recorded.close {s : Sys}
    (sources : ∀ id func, (id, func) ∈ s.sources → served = some id ∨ s.recorded func = some id) :
    Recorded served (ioClose s) := by
  refine ⟨?_, fun _ => ioClose_readWatchId s⟩
  intro id func member
  rw [ioClose_sources] at member
  have kept : (id, func) ∈ s.sources ∧ s.readWatchId ≠ some id := by
    cases watch : s.readWatchId with
    | none =>
      rw [watch] at member
      exact ⟨member, by simp⟩
    | some id' =>
      simp only [watch, Option.elim_some, Sys.removeSource, List.mem_filter, decide_eq_true_eq] at member
      exact ⟨member.1, fun same => member.2 (Option.some.inj same).symm⟩
  refine (sources id func kept.1).imp_right ?_
  cases func with
  | readCallback => exact fun same => absurd same kept.2
  | writeComplete => exact (ioClose_writeId s).trans

/-- The same for the completion of a write. -/
theorem Recorded.complete {s : Sys} (recorded : Recorded served s) {func : SourceFunc} {id : SourceId}
    (member : (id, func) ∈ s.writeId.elim s.sources fun id => (s.removeSource id).sources) :
    served = some id ∨ func = .readCallback ∧ s.readWatchId = some id := by
  have kept : (id, func) ∈ s.sources ∧ s.writeId ≠ some id := by
    cases pending : s.writeId with
    | none =>
      rw [pending] at member
      exact ⟨member, by simp⟩
    | some id' =>
      simp only [pending, Option.elim_some, Sys.removeSource, List.mem_filter, decide_eq_true_eq] at member
      exact ⟨member.1, fun same => member.2 (Option.some.inj same).symm⟩
  refine (recorded.sources id func kept.1).imp_right ?_
  cases func with
  | readCallback => exact fun same => ⟨rfl, same⟩
  | writeComplete => exact fun same => absurd same kept.2

/-- Scheduling a source of a kind that is not scheduled otherwise. -/
theorem Recorded.add {s : Sys} (recorded : Recorded served s) (func : SourceFunc)
    (idle : s.recorded func = none) {t : Sys} (sources : t.sources = s.sources ++ [(s.lastSource + 1, func)])
    (known : ∀ other, t.recorded other = if other = func then some (s.lastSource + 1) else s.recorded other)
    {id : SourceId} {func' : SourceFunc} (member : (id, func') ∈ t.sources) :
    served = some id ∨ t.recorded func' = some id := by
  rw [sources, List.mem_append, List.mem_singleton] at member
  rw [known]
  cases member with
  | inl old =>
    refine (recorded.sources id func' old).imp_right fun same => ?_
    rw [if_neg, same]
    rintro rfl
    rw [idle] at same
    contradiction
  | inr new =>
    obtain ⟨rfl, rfl⟩ := Prod.mk.inj new
    exact .inr (if_pos rfl)

theorem Recorded.record {s : Sys} (recorded : Recorded served s) (e : Event) :
    Recorded served (s.record e) :=
  ⟨recorded.sources, recorded.watched⟩

theorem Recorded.perform {c : Call} (recorded : Recorded served s) (performed : c.perform s = .ok t) :
    Recorded served t := by
  cases c with
  | start env client =>
    obtain ⟨ok, starts⟩ := perform_start performed
    obtain ⟨idle, outcome⟩ := halIoStart_ok starts
    rcases outcome with ⟨_, _, _, _, _, _, _, _, rfl⟩ | ⟨_, _, _, _, _, _, _, _, _, rfl⟩ | ⟨_, _, rfl⟩
    · refine ⟨fun id func => recorded.add .readCallback (recorded.watched idle) rfl ?_, nofun⟩
      rintro (_ | _) <;> rfl
    · refine Recorded.record (Recorded.close ?_) _
      exact recorded.sources
    · exact recorded.record _
  | stop =>
    obtain rfl := Except.ok.inj performed
    rw [halIoStop, ioStop_eq]
    refine (Recorded.close ?_).record _
    intro id func member
    refine (recorded.complete member).imp_right ?_
    rintro ⟨rfl, same⟩
    exact same
  | write env chunks callback =>
    obtain ⟨ok, writes⟩ := perform_write performed
    obtain ⟨fd, files, _, ⟨rfl, rfl⟩ | ⟨data, writeBuf, _, idle, _, rfl⟩⟩ := halIoWrite_ok writes
    · exact ⟨recorded.sources, recorded.watched⟩
    · split
      · cases callback with
        | none => exact ⟨recorded.sources, recorded.watched⟩
        | some cb =>
          refine ⟨fun id func => recorded.add .writeComplete idle rfl ?_, recorded.watched⟩
          rintro (_ | _) <;> rfl
      · exact ⟨recorded.sources, recorded.watched⟩
  | cancelWrite =>
    obtain rfl := Except.ok.inj performed
    rw [halIoCancelWrite_eq]
    refine ⟨fun id func member => (recorded.complete member).imp_right ?_, recorded.watched⟩
    rintro ⟨rfl, same⟩
    exact same
  | setPower env on =>
    obtain ⟨ok, power⟩ := perform_setPower performed
    obtain ⟨fd, files, rfl, _, rfl⟩ := ioSetPower_ok power
    split
    · split
      · exact ⟨recorded.sources, recorded.watched⟩
      · refine Recorded.record (Recorded.close ?_) _
        exact recorded.sources
    · exact ⟨recorded.sources, recorded.watched⟩

/-- A dispatched source that is removed when its function returns. -/
theorem Recorded.done {s : Sys} {id : SourceId} (recorded : Recorded (some id) s) :
    Recorded none (s.removeSource id) := by
  refine ⟨?_, recorded.watched⟩
  intro id' func member
  simp only [Sys.removeSource, List.mem_filter, decide_eq_true_eq] at member
  cases recorded.sources id' func member.1 with
  | inl same => exact absurd (Option.some.inj same).symm member.2
  | inr known => exact .inr known

theorem Recorded.react {calls : List Call} (recorded : Recorded served s)
    (reacted : Pn54x.react calls s = .ok t) : Recorded served t :=
  run_invariant (P := Recorded served) (A := fun _ => True)
    (fun recorded _ performed => recorded.perform performed) recorded (by simp) reacted

theorem Recorded.deliver {s t : Sys} (recorded : Recorded served s)
    (delivered : Pn54x.deliver client calls k packets s = .ok t) : Recorded served t := by
  induction packets generalizing k s with
  | nil =>
    cases delivered
    exact recorded
  | cons packet packets ih =>
    obtain ⟨m, called, rest⟩ := deliver_cons.mp delivered
    obtain ⟨c, _, reacted⟩ := clientRead_at_ok.mp called
    exact ih ((recorded.record _).react reacted) rest

theorem buffering_object (s : Sys) (octets : List Octet) :
    (s.buffering octets).log = s.log ∧ ∃ readBuf, s.buffering octets = { s with readBuf } := by
  unfold Sys.buffering
  split
  · exact ⟨rfl, s.readBuf, rfl⟩
  · exact ⟨rfl, _, rfl⟩

/-- What the object looks like while its read watch reports an error. -/
theorem Recorded.failing {s : Sys} {id : SourceId} (recorded : Recorded none s)
    (known : s.readWatchId = some id) : Recorded (some id) { s with readWatchId := none } := by
  refine ⟨fun id' func member => ?_, fun _ => rfl⟩
  have before := (recorded.sources id' func member).resolve_left nofun
  cases func with
  | readCallback => exact .inl (known.symm.trans before)
  | writeComplete => exact .inr before

/-- And while the completion of a write is reported. -/
theorem Recorded.completing {s : Sys} {id : SourceId} (recorded : Recorded none s)
    (known : s.writeId = some id) :
    Recorded (some id) { s with writeId := none, writeCb := none } := by
  refine ⟨fun id' func member => ?_, recorded.watched⟩
  have before := (recorded.sources id' func member).resolve_left nofun
  cases func with
  | readCallback => exact .inr before
  | writeComplete => exact .inl (known.symm.trans before)

theorem Recorded.known (recorded : Recorded none s) {func : SourceFunc} {id : SourceId}
    (scheduled : (id, func) ∈ s.sources) : s.recorded func = some id :=
  (recorded.sources id func scheduled).resolve_left nofun

theorem Recorded.step {s t : Sys} (recorded : Recorded none s) (rest : nci.Remainder s.readBuf)
    (stepped : Pn54x.step s i = .ok t) : Recorded none t := by
  cases i with
  | call c => exact recorded.perform stepped
  | readWatch id input calls =>
    obtain ⟨scheduled, called⟩ := step_readWatch stepped
    rcases ioReadCallback_ok called with
      ⟨octets, short, _, handled⟩ | ⟨client, m, _, _, reacted, rfl⟩
    · rw [ioReadHandle_eq rest (chars_narrow short rest)] at handled
      obtain ⟨m, delivered, done⟩ := bind_ok.mp handled
      obtain rfl := Except.ok.inj done
      obtain ⟨_, readBuf, same⟩ := buffering_object s octets
      have buffered : Recorded none (s.buffering octets) := by
        rw [same]
        exact ⟨recorded.sources, recorded.watched⟩
      have delivered := buffered.deliver delivered
      exact ⟨delivered.sources, delivered.watched⟩
    · exact (((recorded.failing (recorded.known scheduled)).record _).react reacted).done
  | idle id calls =>
    obtain ⟨scheduled, called⟩ := step_idle stepped
    obtain ⟨cb, m, _, _, reacted, rfl⟩ := halIoWriteComplete_ok called
    exact (((recorded.completing (recorded.known scheduled)).record _).react reacted).done

theorem ioNew_recorded {s : Sys} (created : ioNew env = .ok (some s)) : Recorded none s := by
  have empty : Recorded none {} := ⟨fun _ _ member => absurd member List.not_mem_nil, fun _ => rfl⟩
  exact empty.perform (ioNew_performed created)

theorem reachable_recorded (reached : Reachable s) : Recorded none s := by
  obtain ⟨env, new, path, created, ran⟩ := reached
  refine (run_invariant (P := fun s => nci.Remainder s.readBuf ∧ Recorded none s) (A := fun _ => True)
    ?_ ⟨ioNew_remainder created, ioNew_recorded created⟩ (by simp) ran).2
  exact fun before _ stepped =>
    ⟨step_remainder before.1 stepped, before.2.step before.1 stepped⟩

end Pn54x
