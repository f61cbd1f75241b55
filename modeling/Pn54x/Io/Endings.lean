import Pn54x.Io.Outcomes

/-! How an operation can end, with every ending told apart: which answers of the kernel
lead to it, and the exact state that it leaves. -/
namespace Pn54x
open Transition

/-- The device is open, or it opens under a number that is not in use. -/
inductive Opens (device : Option Fd) (s : Sys) : Fd → List Fd → Prop where
  | already (known : s.fd = some d) : Opens device s d s.files
  | opened (closed : s.fd = none) (answer : device = some d) (fresh : d ∉ s.files) :
      Opens device s d (d :: s.files)

/-- The object with a reader that was forked and whose pipe is read. -/
def Sys.withReader (s : Sys) (client : Client) (d : Fd) (pid : Pid) (readEnd writeEnd : Fd) (files : List Fd) :
    Sys :=
  { s with
    client := some client, fd := some d, readPid := some pid, readFd := some readEnd
    children := pid :: s.children, files := readEnd :: files, log := s.log ++ [.closed writeEnd true] }

/-- How a start ends. -/
inductive Starts (env : StartEnv) (client : Client) (s : Sys) : Bool → Sys → Prop where
  | unopened (closed : s.fd = none) (refused : env.device = none) :
      Starts env client s false (s.record (.start client false))
  | pipeless (opens : Opens env.device s d files) (refused : env.pipe = none) :
      Starts env client s false ((ioClose { s with fd := some d, files }).record (.start client false))
  | forkless (opens : Opens env.device s d files) (pipe : env.pipe = some (readEnd, writeEnd))
      (refused : env.fork = none) (reads : readEnd ∉ files) (writes : writeEnd ∉ readEnd :: files) :
      Starts env client s false ((ioClose { s with
        client := none, fd := some d, readPid := none, files := writeEnd :: readEnd :: files }).record
          (.start client false))
  | channelless (opens : Opens env.device s d files) (pipe : env.pipe = some (readEnd, writeEnd))
      (fork : env.fork = some pid) (refused : env.channel = false) (reads : readEnd ∉ files)
      (new : pid ∉ s.children) :
      Starts env client s false
        ((ioClose (s.withReader client d pid readEnd writeEnd files)).record (.start client false))
  | started (opens : Opens env.device s d files) (pipe : env.pipe = some (readEnd, writeEnd))
      (fork : env.fork = some pid) (channel : env.channel = true) (reads : readEnd ∉ files)
      (new : pid ∉ s.children) :
      Starts env client s true
        (((s.withReader client d pid readEnd writeEnd files).watchReader readEnd).record (.start client true))

theorem ioOpen_opens {s t : Sys} (opened : ioOpen device s = .ok (true, t)) :
    ∃ d files, Opens device s d files ∧ t = { s with fd := some d, files } := by
  unfold ioOpen at opened
  cases found : s.fd with
  | some d =>
    rw [found] at opened
    obtain ⟨_, rfl⟩ := Prod.mk.inj (Except.ok.inj opened)
    exact ⟨d, s.files, .already found, by rw [← found]⟩
  | none =>
    rw [found] at opened
    cases device with
    | none => simp at opened
    | some d =>
      obtain ⟨m, acquired, done⟩ := bind_ok.mp opened
      obtain ⟨fresh, rfl⟩ := acquire_ok.mp acquired
      obtain ⟨_, rfl⟩ := Prod.mk.inj (Except.ok.inj done)
      exact ⟨d, d :: s.files, .opened found rfl fresh, rfl⟩

theorem ioOpen_refused {s t : Sys} (refused : ioOpen device s = .ok (false, t)) :
    s.fd = none ∧ device = none ∧ t = s := by
  unfold ioOpen at refused
  cases found : s.fd with
  | some d =>
    rw [found] at refused
    simp at refused
  | none =>
    rw [found] at refused
    cases device with
    | none => exact ⟨rfl, rfl, (Prod.mk.inj (Except.ok.inj refused)).2.symm⟩
    | some d =>
      obtain ⟨m, _, done⟩ := bind_ok.mp refused
      simp at done

theorem halIoStart_starts {s t : Sys} (starts : halIoStart env client s = .ok (ok, t)) :
    s.readPid = none ∧ Starts env client s ok t := by
  refine ⟨(halIoStart_ok starts).1, ?_⟩
  obtain ⟨_, _, starts⟩ := bind_ok.mp starts
  obtain ⟨⟨opened, m⟩, opens, starts⟩ := bind_ok.mp starts
  cases opened with
  | false =>
    obtain ⟨rfl, rfl⟩ := Prod.mk.inj (pure_ok.mp starts)
    obtain ⟨closed, refused, rfl⟩ := ioOpen_refused opens
    exact .unopened closed refused
  | true =>
    obtain ⟨d, files, device, rfl⟩ := ioOpen_opens opens
    obtain ⟨⟨started, u⟩, reader, starts⟩ := bind_ok.mp starts
    obtain ⟨rfl, rfl⟩ := Prod.mk.inj (pure_ok.mp starts)
    unfold startReader at reader
    split at reader
    · obtain ⟨rfl, rfl⟩ := Prod.mk.inj (Except.ok.inj reader)
      exact .pipeless device ‹_›
    · rename_i readEnd writeEnd pipe
      obtain ⟨_, acquired, reader⟩ := bind_ok.mp reader
      obtain ⟨reads, rfl⟩ := acquire_ok.mp acquired
      obtain ⟨_, acquired, reader⟩ := bind_ok.mp reader
      obtain ⟨writes, rfl⟩ := acquire_ok.mp acquired
      split at reader
      · rename_i pid fork
        obtain ⟨_, forked, reader⟩ := bind_ok.mp reader
        obtain ⟨new, rfl⟩ := fork_ok.mp forked
        have closes : { Sys.close { s with
              client := some client, fd := some d, readPid := some pid
              children := pid :: s.children, files := writeEnd :: readEnd :: files } writeEnd with
            readFd := some readEnd } = s.withReader client d pid readEnd writeEnd files := by
          simp [Sys.close, Sys.withReader]
        split at reader
        · rename_i channel
          obtain ⟨rfl, rfl⟩ := Prod.mk.inj (Except.ok.inj reader)
          have outcome : Starts env client s true _ := .started device pipe fork channel reads new
          rw [← closes] at outcome
          exact outcome
        · rename_i refused
          obtain ⟨rfl, rfl⟩ := Prod.mk.inj (Except.ok.inj reader)
          have outcome : Starts env client s false _ :=
            .channelless device pipe fork (Bool.not_eq_true _ ▸ refused) reads new
          rw [← closes] at outcome
          exact outcome
      · obtain ⟨rfl, rfl⟩ := Prod.mk.inj (Except.ok.inj reader)
        exact .forkless device pipe ‹_› reads writes

theorem write_within {s t : Sys} (writes : s.write data accepted = .ok t) :
    (∀ n, accepted = some n → n ≤ data.length) ∧ t = s.record (.sent data accepted) := by
  unfold Sys.write at writes
  split at writes
  · contradiction
  · rename_i within
    refine ⟨?_, (Except.ok.inj writes).symm⟩
    rintro n rfl
    simpa using within

/-- How a write ends. -/
inductive Writes (env : WriteEnv) (chunks : List (List Octet)) (callback : Option Callback) (s : Sys) :
    Bool → Sys → Prop where
  | unopened (closed : s.fd = none) (refused : env.device = none) :
      Writes env chunks callback s false (s.record (.write callback false))
  | short (opens : Opens env.device s d files)
      (gathers : halIoWriteData chunks { s with fd := some d, files } =
        .ok (data, { s with fd := some d, files, writeBuf }))
      (within : ∀ n, env.written = some n → n < data.length) :
      Writes env chunks callback s false
        (Sys.record (Sys.record { s with fd := some d, files, writeBuf } (.sent data env.written))
          (.write callback false))
  | whole (opens : Opens env.device s d files)
      (gathers : halIoWriteData chunks { s with fd := some d, files } =
        .ok (data, { s with fd := some d, files, writeBuf }))
      (idle : s.writeCb = none ∧ s.writeId = none) (accepted : env.written = some data.length) :
      Writes env chunks callback s true
        (Sys.record (Sys.scheduleComplete (Sys.record { s with fd := some d, files, writeBuf }
          (.sent data env.written)) callback) (.write callback true))

/-- How switching power ends. -/
inductive Switches (env : PowerEnv) (s : Sys) : Bool → Bool → Sys → Prop where
  | unopened (closed : s.fd = none) (refused : env.device = none) :
      Switches env s on false (s.record (.setPower on false))
  | failed (opens : Opens env.device s d files) (refused : env.ioctl = false) :
      Switches env s on false (Sys.record { s with fd := some d, files } (.setPower on false))
  | on (opens : Opens env.device s d files) (accepted : env.ioctl = true) :
      Switches env s true true (Sys.record { s with fd := some d, files, power := true } (.setPower true true))
  | off (opens : Opens env.device s d files) (accepted : env.ioctl = true) :
      Switches env s false true
        ((ioClose { s with fd := some d, files, power := false }).record (.setPower false true))

theorem halIoWrite_writes {s t : Sys} (writes : halIoWrite env chunks callback s = .ok (ok, t)) :
    Writes env chunks callback s ok t := by
  obtain ⟨⟨opened, m⟩, opens, writes⟩ := bind_ok.mp writes
  cases opened with
  | false =>
    obtain ⟨rfl, rfl⟩ := Prod.mk.inj (pure_ok.mp writes)
    obtain ⟨closed, refused, rfl⟩ := ioOpen_refused opens
    exact .unopened closed refused
  | true =>
    obtain ⟨d, files, device, rfl⟩ := ioOpen_opens opens
    obtain ⟨_, noCb, writes⟩ := bind_ok.mp writes
    obtain ⟨_, noId, writes⟩ := bind_ok.mp writes
    obtain ⟨⟨data, u⟩, gathers, writes⟩ := bind_ok.mp writes
    obtain ⟨writeBuf, rfl⟩ := halIoWriteData_ok gathers
    obtain ⟨v, taken, writes⟩ := bind_ok.mp writes
    obtain ⟨within, rfl⟩ := write_within taken
    obtain ⟨rfl, rfl⟩ := Prod.mk.inj (pure_ok.mp writes)
    cases accepted : env.written == some data.length with
    | true =>
      have idle : s.writeCb = none ∧ s.writeId = none :=
        ⟨by simpa using gassert_ok.mp noCb, by simpa using gassert_ok.mp noId⟩
      exact .whole device gathers idle (by simpa using accepted)
    | false =>
      refine .short device gathers fun n written => ?_
      refine Nat.lt_of_le_of_ne (within n written) ?_
      rintro rfl
      simp [written] at accepted

theorem ioSetPower_switches {s t : Sys} (power : ioSetPower env on s = .ok (ok, t)) : Switches env s on ok t := by
  obtain ⟨⟨opened, m⟩, opens, power⟩ := bind_ok.mp power
  cases opened with
  | false =>
    obtain ⟨rfl, rfl⟩ := Prod.mk.inj (pure_ok.mp power)
    obtain ⟨closed, refused, rfl⟩ := ioOpen_refused opens
    exact .unopened closed refused
  | true =>
    obtain ⟨d, files, device, rfl⟩ := ioOpen_opens opens
    cases accepted : env.ioctl with
    | false =>
      simp only [accepted, Bool.and_false] at power
      obtain ⟨rfl, rfl⟩ := Prod.mk.inj (pure_ok.mp power)
      exact .failed device accepted
    | true =>
      simp only [accepted, Bool.and_true, if_true] at power
      obtain ⟨rfl, rfl⟩ := Prod.mk.inj (pure_ok.mp power)
      cases on with
      | true => exact .on device accepted
      | false => exact .off device accepted

end Pn54x
