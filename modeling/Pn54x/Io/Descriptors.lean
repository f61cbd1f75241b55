import Pn54x.Io.Coherence
import Mathlib.Data.List.Nodup

/-! The descriptors that the object opens, and which of them are left open. A failed start
loses a pipe when the child cannot be forked. -/
namespace Pn54x
open Transition

/-- What `pn54x_io_close` closes, in order. -/
def Sys.stored (s : Sys) : List Fd := s.readChannel.toList ++ s.readFd.toList ++ s.fd.toList

/-- What is seen of closing descriptors when `files` are open. -/
def closeEvents (files : List Fd) : List Fd → List Event
  | [] => []
  | fd :: fds => .closed fd (fd ∈ files) :: closeEvents (files.erase fd) fds

theorem ioClose_closes (s : Sys) : (ioClose s).files = s.files.diff s.stored ∧
    (ioClose s).log = s.log ++ closeEvents s.files s.stored := by
  obtain ⟨⟨client, fd, readFd, readPid, readBuf, readChannel, readWatchId, writeId, writeCb, writeBuf⟩,
    ⟨files, children, sources, lastSource, power, log⟩⟩ := s
  cases readWatchId <;> cases readChannel <;> cases readPid <;> cases readFd <;> cases fd <;>
    simp [ioClose, Sys.stored, Sys.close, Sys.removeSource, closeEvents, List.diff_cons] <;> rfl

/-- The descriptors that are stored are open, and different. -/
structure Holding (s : Sys) : Prop where
  distinct : s.files.Nodup
  device : ∀ d, s.fd = some d → d ∈ s.files
  pipe : ∀ r, s.readFd = some r → r ∈ s.files
  apart : ∀ d r, s.fd = some d → s.readFd = some r → r ≠ d

theorem Holding.same {s t : Sys} (holding : Holding s) (device : t.fd = s.fd) (pipe : t.readFd = s.readFd)
    (files : t.files = s.files) : Holding t := by
  constructor
  · exact files ▸ holding.distinct
  · rw [device, files]
    exact holding.device
  · rw [pipe, files]
    exact holding.pipe
  · rw [device, pipe]
    exact holding.apart

theorem holding_close {s : Sys} (distinct : s.files.Nodup) : Holding (ioClose s) := by
  refine ⟨?_, by simp, by simp, by simp⟩
  rw [(ioClose_closes s).1]
  exact distinct.diff

theorem Holding.opens {s : Sys} (holding : Holding s) (opens : Opens answer s d files) :
    Holding { s with fd := some d, files } := by
  cases opens with
  | already known => exact holding.same known.symm rfl rfl
  | opened closed answered fresh =>
    constructor
    · exact List.nodup_cons.mpr ⟨fresh, holding.distinct⟩
    · rintro _ ⟨⟩
      exact List.mem_cons_self
    · intro r known
      exact List.mem_cons_of_mem _ (holding.pipe r known)
    · rintro _ r ⟨⟩ known rfl
      exact fresh (holding.pipe _ known)

theorem scheduleComplete_object (s : Sys) (callback : Option Callback) :
    (s.scheduleComplete callback).fd = s.fd ∧ (s.scheduleComplete callback).readFd = s.readFd ∧
      (s.scheduleComplete callback).files = s.files := by
  cases callback <;> exact ⟨rfl, rfl, rfl⟩

theorem Holding.acquire {s : Sys} (holding : Holding s) {fd : Fd} (fresh : fd ∉ s.files) :
    Holding { s with files := fd :: s.files } := by
  constructor
  · exact List.nodup_cons.mpr ⟨fresh, holding.distinct⟩
  · intro d known
    exact List.mem_cons_of_mem _ (holding.device d known)
  · intro r known
    exact List.mem_cons_of_mem _ (holding.pipe r known)
  · exact holding.apart

theorem Holding.reader {s : Sys} (holding : Holding s) (opens : Opens answer s d files)
    (reads : readEnd ∉ files) : Holding (s.withReader client d pid readEnd writeEnd files) := by
  have device : d ∈ files := (holding.opens opens).device d rfl
  constructor
  · exact List.nodup_cons.mpr ⟨reads, (holding.opens opens).distinct⟩
  · rintro _ ⟨⟩
    exact List.mem_cons_of_mem _ device
  · rintro _ ⟨⟩
    exact List.mem_cons_self
  · rintro _ _ ⟨⟩ ⟨⟩ rfl
    exact reads device

theorem Holding.starts {s : Sys} (holding : Holding s) (starts : Starts env client s ok t) : Holding t := by
  cases starts with
  | unopened => exact holding.same rfl rfl rfl
  | pipeless opens =>
    refine Holding.same (holding_close ?_) rfl rfl rfl
    exact (holding.opens opens).distinct
  | forkless opens _ _ reads writes =>
    refine Holding.same (holding_close ?_) rfl rfl rfl
    exact (((holding.opens opens).acquire reads).acquire writes).distinct
  | channelless opens _ _ _ reads =>
    refine Holding.same (holding_close ?_) rfl rfl rfl
    exact (holding.reader opens reads).distinct
  | @started d files readEnd writeEnd pid opens _ _ _ reads =>
    have reading : Holding (s.withReader client d pid readEnd writeEnd files) := holding.reader opens reads
    exact reading.same rfl rfl rfl

theorem Holding.perform {c : Call} (holding : Holding s) (performed : c.perform s = .ok t) : Holding t := by
  cases c with
  | start env client =>
    obtain ⟨ok, starts⟩ := perform_start performed
    exact holding.starts (halIoStart_starts starts).2
  | stop =>
    obtain rfl := Except.ok.inj performed
    rw [halIoStop, ioStop_eq]
    refine Holding.same (holding_close ?_) rfl rfl rfl
    exact holding.distinct
  | write env chunks callback =>
    obtain ⟨ok, writes⟩ := perform_write performed
    cases halIoWrite_writes writes with
    | unopened => exact holding.same rfl rfl rfl
    | short opens => exact (holding.opens opens).same rfl rfl rfl
    | whole opens =>
      obtain ⟨device, pipe, files⟩ := scheduleComplete_object (Sys.record { s with
        fd := some _, files := _, writeBuf := _ } (.sent _ env.written)) callback
      exact (holding.opens opens).same device pipe files
  | cancelWrite =>
    obtain rfl := Except.ok.inj performed
    rw [halIoCancelWrite_eq]
    exact holding.same rfl rfl rfl
  | setPower env on =>
    obtain ⟨ok, power⟩ := perform_setPower performed
    cases ioSetPower_switches power with
    | unopened => exact holding.same rfl rfl rfl
    | failed opens => exact (holding.opens opens).same rfl rfl rfl
    | on opens => exact (holding.opens opens).same rfl rfl rfl
    | off opens =>
      refine Holding.same (holding_close ?_) rfl rfl rfl
      exact (holding.opens opens).distinct

/-- A moment that is no call of the API touches no descriptor and shows no close. -/
structure Apart (p q : Point) : Prop where
  device : q.fd = p.fd
  pipe : q.readFd = p.readFd
  files : q.files = p.files
  silent : ∃ events, q.log = p.log ++ events ∧ ∀ e ∈ events, e.isClosed = false

theorem moment_apart {p q : Point} {m : Moment} (performed : m.perform p = .ok q) :
    (∃ c s, m = .call c ∧ c.perform p.toSys = .ok s ∧ q = { p with toSys := s }) ∨ Apart p q := by
  cases m with
  | call c =>
    obtain ⟨s, called, same⟩ := call_ok.mp performed
    exact .inl ⟨c, s, rfl, called, same⟩
  | buffer readBuf =>
    obtain rfl := Except.ok.inj performed
    exact .inr ⟨rfl, rfl, rfl, [], (List.append_nil _).symm, nofun⟩
  | deliver client packet =>
    obtain ⟨c, _, rfl⟩ := deliver_ok performed
    exact .inr ⟨rfl, rfl, rfl, [.read c packet], rfl, by simp [Event.isClosed]⟩
  | fail id =>
    obtain ⟨_, _, client, _, rfl⟩ := fail_ok performed
    exact .inr ⟨rfl, rfl, rfl, [.error client], rfl, by simp [Event.isClosed]⟩
  | complete id =>
    obtain ⟨_, _, cb, _, rfl⟩ := complete_ok performed
    exact .inr ⟨rfl, rfl, rfl, [.writeComplete p.client cb true], rfl, by simp [Event.isClosed]⟩
  | done =>
    obtain ⟨id, _, rfl⟩ := done_ok performed
    exact .inr ⟨rfl, rfl, rfl, [], (List.append_nil _).symm, nofun⟩

theorem Holding.moment {p q : Point} {m : Moment} (holding : Holding p.toSys)
    (performed : m.perform p = .ok q) : Holding q.toSys := by
  cases moment_apart performed with
  | inl call =>
    obtain ⟨c, s, _, called, rfl⟩ := call
    exact holding.perform called
  | inr apart => exact holding.same apart.device apart.pipe apart.files

theorem holding_empty : Holding {} := ⟨List.nodup_nil, nofun, nofun, nofun⟩

theorem ioNew_holding {s : Sys} (created : ioNew env = .ok (some s)) : Holding s :=
  holding_empty.perform (ioNew_performed created)

theorem passed_holding (passed : Passed p) : Holding p.toSys :=
  passed_invariant (P := fun p => Holding p.toSys) Holding.moment ioNew_holding passed

/-- Every descriptor that is open is stored. -/
def Owned (s : Sys) : Prop := ∀ f ∈ s.files, s.fd = some f ∨ s.readFd = some f

/-- Nothing is left of a session. -/
structure Cleared (s : Sys) : Prop where
  files : s.files = []
  device : s.fd = none
  pipe : s.readFd = none
  reader : s.readPid = none ∧ s.children = []
  watch : s.readWatchId = none ∧ s.readChannel = none
  client : s.client = none

/-- The answers to a start that it cleans up after. Forking and making the channel work,
and a start that does not come that far finds no client. -/
def StartEnv.Tidy (env : StartEnv) (s : Sys) : Bool :=
  if (s.fd.isSome || env.device.isSome) && env.pipe.isSome then env.fork.isSome && env.channel
  else s.client.isNone

def Moment.Tidy (p : Point) : Moment → Bool
  | .call (.start env _) => env.Tidy p.toSys
  | _ => true

theorem Owned.same {s t : Sys} (owned : Owned s) (device : t.fd = s.fd) (pipe : t.readFd = s.readFd)
    (files : t.files = s.files) : Owned t := by
  intro f member
  rw [device, pipe]
  exact owned f (files ▸ member)

theorem Owned.opens {s : Sys} (owned : Owned s) (opens : Opens answer s d files) :
    Owned { s with fd := some d, files } := by
  cases opens with
  | already known => exact owned.same known.symm rfl rfl
  | opened closed answered fresh =>
    rintro f (_ | ⟨_, member⟩)
    · exact .inl rfl
    · have known := owned f member
      rw [closed] at known
      exact .inr (known.resolve_left nofun)

/-- Closing leaves nothing open where all that is open is stored. -/
theorem Owned.close {s : Sys} (owned : Owned s) (distinct : s.files.Nodup) : (ioClose s).files = [] := by
  rw [(ioClose_closes s).1, List.eq_nil_iff_forall_not_mem]
  intro f member
  obtain ⟨before, other⟩ := distinct.mem_sdiff_iff.mp member
  refine other ?_
  simp only [Sys.stored, List.mem_append, Option.mem_toList]
  exact (owned f before).elim .inr fun known => .inl (.inr known)

theorem owned_nil {s : Sys} (files : s.files = []) : Owned s := by
  intro f member
  rw [files] at member
  contradiction

theorem opens_isSome {s : Sys} (opens : Opens answer s d files) : (s.fd.isSome || answer.isSome) = true := by
  cases opens with
  | already known => rw [known]; rfl
  | opened closed answered => rw [closed, answered]; rfl

/-- A tidy start keeps what it opened, or nothing. -/
theorem Owned.starts {s : Sys} (owned : Owned s) (holding : Holding s) (coherent : Coherent s)
    (idle : s.readPid = none) (starts : Starts env client s ok t) (tidy : env.Tidy s = true) :
    Owned t ∧ (ok = false → Cleared t) := by
  obtain ⟨pipe, channel, watch, children⟩ := coherent.idle idle
  cases starts with
  | unopened closed refused =>
    have files : s.files = [] := by
      refine List.eq_nil_iff_forall_not_mem.mpr fun f member => ?_
      have known := owned f member
      rw [closed, pipe] at known
      exact known.elim nofun nofun
    have client : s.client = none := by simpa [StartEnv.Tidy, closed, refused] using tidy
    exact ⟨owned, fun _ => ⟨files, closed, pipe, ⟨idle, children⟩, ⟨watch, channel⟩, client⟩⟩
  | pipeless opens refused =>
    have files := (owned.opens opens).close (holding.opens opens).distinct
    refine ⟨owned_nil files, fun _ => ⟨files, ioClose_fd _, ioClose_readFd _, ⟨ioClose_readPid _, ?_⟩,
      ⟨ioClose_readWatchId _, ioClose_readChannel _⟩, ?_⟩⟩
    · refine (ioClose_children _).trans ?_
      simp [idle, children]
    · refine (ioClose_client _).trans ?_
      simpa [StartEnv.Tidy, refused] using tidy
  | forkless opens pipe refused => simp [StartEnv.Tidy, opens_isSome opens, pipe, refused] at tidy
  | channelless opens pipe fork refused => simp [StartEnv.Tidy, opens_isSome opens, pipe, refused] at tidy
  | started opens =>
    refine ⟨?_, nofun⟩
    rintro f (_ | ⟨_, member⟩)
    · exact .inr rfl
    · have known := owned.opens opens f member
      rw [pipe] at known
      exact .inl (known.resolve_right nofun)

theorem Owned.perform {c : Call} (owned : Owned s) (holding : Holding s) (coherent : Coherent s)
    (tidy : ∀ env client, c = .start env client → env.Tidy s = true) (performed : c.perform s = .ok t) :
    Owned t := by
  cases c with
  | start env client =>
    obtain ⟨ok, starts⟩ := perform_start performed
    obtain ⟨idle, starts⟩ := halIoStart_starts starts
    exact (owned.starts holding coherent idle starts (tidy env client rfl)).1
  | stop =>
    obtain rfl := Except.ok.inj performed
    rw [halIoStop, ioStop_eq]
    refine owned_nil (Owned.close ?_ ?_)
    · exact owned
    · exact holding.distinct
  | write env chunks callback =>
    obtain ⟨ok, writes⟩ := perform_write performed
    cases halIoWrite_writes writes with
    | unopened => exact owned
    | short opens => exact (owned.opens opens).same rfl rfl rfl
    | whole opens =>
      obtain ⟨device, pipe, files⟩ := scheduleComplete_object (Sys.record { s with
        fd := some _, files := _, writeBuf := _ } (.sent _ env.written)) callback
      exact (owned.opens opens).same device pipe files
  | cancelWrite =>
    obtain rfl := Except.ok.inj performed
    rw [halIoCancelWrite_eq]
    exact owned.same rfl rfl rfl
  | setPower env on =>
    obtain ⟨ok, power⟩ := perform_setPower performed
    cases ioSetPower_switches power with
    | unopened => exact owned
    | failed opens => exact (owned.opens opens).same rfl rfl rfl
    | on opens => exact (owned.opens opens).same rfl rfl rfl
    | off opens =>
      refine owned_nil (Owned.close ?_ ?_)
      · exact (owned.opens opens).same rfl rfl rfl
      · exact (holding.opens opens).distinct

theorem Owned.moment {p q : Point} {m : Moment} (owned : Owned p.toSys) (holding : Holding p.toSys)
    (coherent : Coherent p.toSys) (tidy : m.Tidy p = true) (performed : m.perform p = .ok q) :
    Owned q.toSys := by
  cases moment_apart performed with
  | inl call =>
    obtain ⟨c, s, rfl, called, rfl⟩ := call
    refine owned.perform holding coherent ?_ called
    rintro env client rfl
    exact tidy
  | inr apart => exact owned.same apart.device apart.pipe apart.files

/-- The power-off of `pn54x_io_new`. -/
theorem tested_owned {s : Sys} (performed : Call.perform {} (.setPower env false) = .ok s) : Owned s := by
  have empty : Owned {} := nofun
  exact empty.perform holding_empty coherent_empty (by simp) performed

/-- Freeing an object leaves nothing open of what it stored. -/
theorem Owned.free {s : Sys} (owned : Owned s) (holding : Holding s) : (ioFree s).files = [] := by
  rw [ioFree, ioFinalize, ioStop_eq]
  exact Owned.close (s := { s with
    client := none, writeCb := none, readBuf := [], writeId := none, sources := _ }) owned holding.distinct

theorem ioNewObject_tested {s : Sys} (created : ioNewObject env = .ok (ok, s)) :
    ∃ t, Call.perform {} (.setPower env false) = .ok t ∧ s = if ok then t else ioFree t := by
  obtain ⟨⟨ok', t⟩, power, same⟩ := bind_ok.mp created
  obtain ⟨rfl, rfl⟩ := Prod.mk.inj (pure_ok.mp same)
  exact ⟨t, bind_ok.mpr ⟨_, power, rfl⟩, rfl⟩

/-- In a run whose starts are all tidy, every descriptor that is open is stored, a start
that fails leaves nothing behind, and neither does freeing the object. -/
theorem start_tidies {p : Point} (under : PassedUnder (fun p m => m.Tidy p = true) p) :
    Owned p.toSys ∧ (ioFree p.toSys).files = [] ∧
    (∀ env client t, env.Tidy p.toSys = true → halIoStart env client p.toSys = .ok (false, t) → Cleared t) ∧
    ∀ env s, ioNewObject env = .ok (false, s) → s.files = [] := by
  have holding := passed_holding under.passed
  have coherent := passed_coherent under.passed
  have owned : Owned p.toSys := by
    refine (passedUnder_invariant (P := fun p => Owned p.toSys ∧ Holding p.toSys ∧ Coherent p.toSys) ?_ ?_ under).1
    · rintro p m q ⟨owned, holding, coherent⟩ tidy performed
      exact ⟨owned.moment holding coherent tidy performed, holding.moment performed, coherent.moment performed⟩
    · exact fun created => ⟨tested_owned (ioNew_performed created), ioNew_holding created, ioNew_coherent created⟩
  refine ⟨owned, owned.free holding, fun env client t tidy started => ?_, fun env s created => ?_⟩
  · obtain ⟨idle, starts⟩ := halIoStart_starts started
    exact (owned.starts holding coherent idle starts tidy).2 rfl
  · obtain ⟨t, tested, rfl⟩ := ioNewObject_tested created
    exact (tested_owned tested).free (holding_empty.perform tested)

/-- Behind a session that was stopped no pipe can be made, twice. -/
theorem start_tidies_pipeless : ∃ s t, steps .fresh [.call (.start .success 1), .call .stop,
      .call (.start ⟨some 3, none, none, true⟩ 1)] = .ok s ∧
    halIoStart ⟨some 3, none, none, true⟩ 1 s = .ok (false, t) ∧
    Owned s ∧ (ioFree s).files = [] ∧ Cleared t := by
  refine ⟨_, _, rfl, rfl, ?_⟩
  have created : ioNew ⟨some 3, true⟩ = .ok (some .fresh) := rfl
  have tidied := start_tidies (.of_run [.call (.start .success 1), .call .stop,
    .call (.start ⟨some 3, none, none, true⟩ 1)] created rfl (by decide))
  exact ⟨tidied.1, tidied.2.1, tidied.2.2.1 ⟨some 3, none, none, true⟩ 1 _ rfl rfl⟩

/-- A failed fork leaves both ends of the pipe open, and no field knows them. -/
theorem failed_fork_leaks :
    ¬ ∀ s, Reachable s → Owned s ∧
      ∀ env client t, halIoStart env client s = .ok (false, t) → Cleared t := by
  intro all
  have owned := (all _ (.fresh [.call (.start ⟨some 3, some (4, 5), none, true⟩ 1)] rfl)).1
  exact absurd (owned 4 (by decide)) (by decide)

end Pn54x
