import Pn54x.Io.Descriptors

/-! What is closed. Closing an object that reads closes its end of the pipe once for the
channel and once for `read_fd`. -/
namespace Pn54x
open Transition

/-- An event that closes nothing but what is open. -/
def Event.Proper : Event → Bool
  | .closed _ valid => valid
  | _ => true

/-- A call that closes is made when there is no channel. -/
def Moment.Single (p : Point) : Moment → Bool
  | .call .stop => p.readChannel.isNone
  | .call (.setPower env false) => p.readChannel.isNone || !env.ioctl
  | _ => true

/-- Every close so far was of a descriptor that was open. -/
def Faultless (s : Sys) : Prop := ∀ e ∈ s.log, e.Proper = true

theorem Faultless.append {s t : Sys} (faultless : Faultless s) (events : List Event)
    (proper : ∀ e ∈ events, e.Proper = true) (log : t.log = s.log ++ events) : Faultless t := by
  intro e member
  rw [log, List.mem_append] at member
  exact member.elim (faultless e) (proper e)

theorem Faultless.record {s : Sys} (faultless : Faultless s) (proper : e.Proper = true) :
    Faultless (s.record e) := by
  refine faultless.append [e] ?_ rfl
  simpa using proper

theorem proper_of_silent {e : Event} (silent : e.isClosed = false) : e.Proper = true := by
  cases e with
  | closed => contradiction
  | _ => rfl

theorem closeEvents_proper {files fds : List Fd} (distinct : files.Nodup) :
    (∀ e ∈ closeEvents files fds, e.Proper = true) ↔ fds.Nodup ∧ fds ⊆ files := by
  induction fds generalizing files with
  | nil => simp [closeEvents]
  | cons fd fds ih =>
    have rest : fds ⊆ files.erase fd ↔ fd ∉ fds ∧ fds ⊆ files := by
      simp only [List.subset_def, distinct.mem_erase_iff]
      constructor
      · intro all
        exact ⟨fun member => (all member).1 rfl, fun {_} member => (all member).2⟩
      · rintro ⟨new, all⟩ a member
        refine ⟨?_, all member⟩
        rintro rfl
        exact new member
    rw [closeEvents, List.forall_mem_cons, ih (distinct.erase fd), rest, List.nodup_cons, List.cons_subset]
    simp only [Event.Proper, decide_eq_true_eq]
    tauto

/-- Without a channel nothing is closed twice. -/
theorem Faultless.close {s : Sys} (faultless : Faultless s) (holding : Holding s) (channel : s.readChannel = none) :
    Faultless (ioClose s) := by
  refine faultless.append _ ?_ (ioClose_closes s).2
  refine (closeEvents_proper holding.distinct).mpr ?_
  obtain ⟨_, device, pipe, apart⟩ := holding
  rw [Sys.stored, channel]
  cases read : s.readFd with
  | none =>
    cases known : s.fd with
    | none => simp
    | some d => simpa using device d known
  | some r =>
    cases known : s.fd with
    | none => simpa using pipe r read
    | some d => simpa using ⟨apart d r known read, pipe r read, device d known⟩

theorem Faultless.starts {s : Sys} (faultless : Faultless s) (holding : Holding s) (channel : s.readChannel = none)
    (starts : Starts env client s ok t) : Faultless t := by
  cases starts with
  | unopened => exact faultless.record rfl
  | pipeless opens =>
    refine Faultless.record (Faultless.close ?_ ?_ channel) rfl
    · exact faultless
    · exact holding.opens opens
  | forkless opens _ _ reads writes =>
    refine Faultless.record (Faultless.close ?_ ?_ channel) rfl
    · exact faultless
    · exact (((holding.opens opens).acquire reads).acquire writes).same rfl rfl rfl
  | @channelless d files readEnd writeEnd pid opens _ _ _ reads =>
    have reading : Faultless (s.withReader client d pid readEnd writeEnd files) :=
      faultless.append [.closed writeEnd true] (by simp [Event.Proper]) rfl
    exact (reading.close (holding.reader opens reads) channel).record rfl
  | @started d files readEnd writeEnd pid opens _ _ _ reads =>
    have reading : Faultless (s.withReader client d pid readEnd writeEnd files) :=
      faultless.append [.closed writeEnd true] (by simp [Event.Proper]) rfl
    exact reading.append [.start client true] (by simp [Event.Proper]) rfl

theorem Faultless.perform {p : Point} {c : Call} (faultless : Faultless p.toSys) (holding : Holding p.toSys)
    (coherent : Coherent p.toSys) (single : Moment.Single p (.call c) = true)
    (performed : c.perform p.toSys = .ok t) : Faultless t := by
  cases c with
  | start env client =>
    obtain ⟨ok, starts⟩ := perform_start performed
    obtain ⟨idle, starts⟩ := halIoStart_starts starts
    exact faultless.starts holding (coherent.idle idle).2.1 starts
  | stop =>
    obtain rfl := Except.ok.inj performed
    rw [halIoStop, ioStop_eq]
    refine (Faultless.close ?_ ?_ ?_).record rfl
    · exact faultless
    · exact holding.same rfl rfl rfl
    · simpa [Moment.Single] using single
  | write env chunks callback =>
    obtain ⟨ok, writes⟩ := perform_write performed
    cases halIoWrite_writes writes with
    | unopened => exact faultless.record rfl
    | @short d files data =>
      refine faultless.append [.sent data env.written, .write callback false] (by simp [Event.Proper]) ?_
      simp
    | @whole d files data =>
      refine faultless.append [.sent data env.written, .write callback true] (by simp [Event.Proper]) ?_
      simp
  | cancelWrite =>
    obtain rfl := Except.ok.inj performed
    rw [halIoCancelWrite_eq]
    exact faultless.append [.cancelWrite] (by simp [Event.Proper]) rfl
  | setPower env on =>
    obtain ⟨ok, power⟩ := perform_setPower performed
    cases ioSetPower_switches power with
    | unopened => exact faultless.record rfl
    | failed => exact faultless.append [.setPower on false] (by simp [Event.Proper]) rfl
    | on => exact faultless.append [.setPower true true] (by simp [Event.Proper]) rfl
    | off opens accepted =>
      refine (Faultless.close ?_ ?_ ?_).record rfl
      · exact faultless
      · exact (holding.opens opens).same rfl rfl rfl
      · simpa [Moment.Single, accepted] using single

theorem Faultless.moment {p q : Point} {m : Moment} (faultless : Faultless p.toSys) (holding : Holding p.toSys)
    (coherent : Coherent p.toSys) (single : m.Single p = true) (performed : m.perform p = .ok q) :
    Faultless q.toSys := by
  cases moment_apart performed with
  | inl call =>
    obtain ⟨c, s, rfl, called, rfl⟩ := call
    exact faultless.perform holding coherent single called
  | inr apart =>
    obtain ⟨events, log, silent⟩ := apart.silent
    exact faultless.append events (fun e member => proper_of_silent (silent e member)) log

theorem Faultless.free {s : Sys} (faultless : Faultless s) (holding : Holding s) (channel : s.readChannel = none) :
    Faultless (ioFree s) := by
  rw [ioFree, ioFinalize, ioStop_eq]
  refine Faultless.close ?_ ?_ ?_
  · exact faultless
  · exact holding.same rfl rfl rfl
  · exact channel

/-- The power-off of `pn54x_io_new`. -/
theorem tested_faultless {s : Sys} (performed : Call.perform {} (.setPower env false) = .ok s) : Faultless s := by
  have faultless : Faultless {} := nofun
  exact faultless.perform (p := {}) holding_empty coherent_empty rfl performed

theorem ioNewObject_faultless {s : Sys} (created : ioNewObject env = .ok (ok, s)) : Faultless s := by
  obtain ⟨t, tested, rfl⟩ := ioNewObject_tested created
  split
  · exact tested_faultless tested
  · refine (tested_faultless tested).free (holding_empty.perform tested) ?_
    obtain ⟨ok', power⟩ := perform_setPower tested
    obtain ⟨fd, files, rfl, _, rfl⟩ := ioSetPower_ok power
    cases fd.isSome && env.ioctl <;> simp

/-- In a run in which whatever closes finds no channel, every close is of a descriptor
that is open. -/
theorem closes_once {p : Point} (under : PassedUnder (fun p m => m.Single p = true) p) :
    Faultless p.toSys ∧ (p.readChannel = none → Faultless (ioFree p.toSys)) ∧
    ∀ env ok s, ioNewObject env = .ok (ok, s) → Faultless s := by
  have faultless : Faultless p.toSys := by
    refine (passedUnder_invariant (P := fun p => Faultless p.toSys ∧ Holding p.toSys ∧ Coherent p.toSys) ?_ ?_
      under).1
    · rintro p m q ⟨faultless, holding, coherent⟩ single performed
      exact ⟨faultless.moment holding coherent single performed, holding.moment performed,
        coherent.moment performed⟩
    · exact fun created => ⟨tested_faultless (ioNew_performed created), ioNew_holding created, ioNew_coherent created⟩
  exact ⟨faultless, faultless.free (passed_holding under.passed), fun _ _ _ => ioNewObject_faultless⟩

theorem closes_once_failed : ∃ s, steps .fresh [.call (.start ⟨some 3, some (4, 5), some 7, false⟩ 1), .call .stop] =
    .ok s ∧ Faultless s := by
  refine ⟨_, rfl, ?_⟩
  have created : ioNew ⟨some 3, true⟩ = .ok (some .fresh) := rfl
  exact (closes_once (.of_run [.call (.start ⟨some 3, some (4, 5), some 7, false⟩ 1), .call .stop]
    created rfl (by decide))).1

/-- Stopping a reader closes its end of the pipe a second time. -/
theorem stop_closes_twice : ¬ ∀ s, Reachable s → Faultless s := by
  intro all
  have faultless := all _ (.fresh [.call (.start .success 1), .call .stop] rfl)
  exact absurd (faultless (.closed 4 false) (by decide)) (by decide)

end Pn54x
