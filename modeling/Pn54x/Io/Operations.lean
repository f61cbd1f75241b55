import Pn54x.Io.Object
import Pn54x.Library.Runs

/-! The operations of a `Pn54xIo` that call nobody back: opening, closing, power
and the `NciHalIo` functions. What the kernel answers is an argument. -/
namespace Pn54x

/-- `pn54x_io_open`; `device` is the result of `pn54x_system_open`. -/
def ioOpen (device : Option Fd) (s : Sys) : Exec (Bool × Sys) :=
  match s.fd with
  | some _ => .ok (true, s)
  | none =>
    match device with
    | some fd => do
      let s ← s.acquire fd
      .ok (true, { s with fd := some fd })
    | none => .ok (false, s)

/-- `pn54x_io_close`. -/
def ioClose (s : Sys) : Sys :=
  let s := match s.readWatchId with
    | some id => { s.removeSource id with readWatchId := none }
    | none => s
  let s := match s.readChannel with
    | some fd => { s.close fd with readChannel := none }
    | none => s
  let s := match s.readPid with
    | some pid => { s with children := s.children.erase pid, readPid := none }
    | none => s
  let s := match s.readFd with
    | some fd => { s.close fd with readFd := none }
    | none => s
  match s.fd with
  | some fd => { s.close fd with fd := none }
  | none => s

/-- `pn54x_io_stop`. -/
def ioStop (s : Sys) : Sys :=
  let s := { s with client := none, writeCb := none, readBuf := [] }
  let s := match s.writeId with
    | some id => { s.removeSource id with writeId := none }
    | none => s
  ioClose s

/-- Answers of the kernel to the calls that `pn54x_io_set_power` makes. -/
structure PowerEnv where
  device : Option Fd
  ioctl : Bool
  deriving DecidableEq, Repr

/-- `pn54x_io_set_power`. -/
def ioSetPower (env : PowerEnv) (on : Bool) (s : Sys) : Exec (Bool × Sys) := do
  let (opened, s) ← ioOpen env.device s
  if opened && env.ioctl then
    let s := { s with power := on }
    let s := if on then s else ioClose s
    pure (true, s.record (.setPower on true))
  else
    pure (false, s.record (.setPower on false))

/-- Answers of the kernel and of GLib to the calls that `pn54x_hal_io_start`
makes: the device, the two ends of the pipe, the child and the channel. -/
structure StartEnv where
  device : Option Fd
  pipe : Option (Fd × Fd)
  fork : Option Pid
  channel : Bool
  deriving DecidableEq, Repr

/-- Making the read channel and its watch. -/
def Sys.watchReader (s : Sys) (fd : Fd) : Sys :=
  let s := { s with readChannel := some fd }
  let s := s.addSource .readCallback
  { s with readWatchId := some s.lastSource }

/-- `pn54x_hal_io_start` behind its `pn54x_io_open`, the parent's side: TRUE when
the reader runs and is watched, FALSE when the caller has to close. -/
def startReader (env : StartEnv) (client : Client) (s : Sys) : Exec (Bool × Sys) :=
  match env.pipe with
  | none => .ok (false, s)
  | some (readEnd, writeEnd) => do
    let s ← s.acquire readEnd
    let s ← s.acquire writeEnd
    match env.fork with
    | some pid => do
      let s ← s.fork pid
      let s := { s with client := some client, readPid := some pid }
      let s := { s.close writeEnd with readFd := some readEnd }
      if env.channel then .ok (true, s.watchReader readEnd) else .ok (false, s)
    | none => .ok (false, { s with client := none, readPid := none })

/-- `pn54x_hal_io_start`. -/
def halIoStart (env : StartEnv) (client : Client) (s : Sys) : Exec (Bool × Sys) := do
  gassert s.readPid.isNone
  let (opened, s) ← ioOpen env.device s
  if opened then
    let (started, s) ← startReader env client s
    let s := if started then s else ioClose s
    pure (started, s.record (.start client started))
  else
    pure (false, s.record (.start client false))

/-- `pn54x_hal_io_stop`. -/
def halIoStop (s : Sys) : Sys := (ioStop s).record .stop

/-- Answers to the calls that `pn54x_hal_io_write` makes. `written` is the number
of octets that the system call took, `none` for an error. -/
structure WriteEnv where
  device : Option Fd
  written : Option Nat
  deriving DecidableEq, Repr

/-- The octets that `pn54x_hal_io_write` passes to the system call. A single
chunk is written where it lies, everything else is gathered in `write_buf`. -/
def halIoWriteData (chunks : List (List Octet)) (s : Sys) : Exec (List Octet × Sys) :=
  match chunks with
  | [chunk] => .ok (chunk, s)
  | _ => do
    let writeBuf ← Transition.run (fun array chunk => byteArrayAppend array chunk chunk.length) [] chunks
    .ok (writeBuf, { s with writeBuf })

/-- Scheduling the completion, if the caller wants one. -/
def Sys.scheduleComplete (s : Sys) : Option Callback → Sys
  | none => s
  | some cb =>
    let s := { s with writeCb := some cb }
    let s := s.addSource .writeComplete
    { s with writeId := some s.lastSource }

/-- `pn54x_hal_io_write`. -/
def halIoWrite (env : WriteEnv) (chunks : List (List Octet)) (callback : Option Callback)
    (s : Sys) : Exec (Bool × Sys) := do
  let (opened, s) ← ioOpen env.device s
  if opened then
    gassert s.writeCb.isNone
    gassert s.writeId.isNone
    let (data, s) ← halIoWriteData chunks s
    let s ← s.write data env.written
    let ok := env.written == some data.length
    let s := if ok then s.scheduleComplete callback else s
    pure (ok, s.record (.write callback ok))
  else
    pure (false, s.record (.write callback false))

/-- `pn54x_hal_io_cancel_write`. -/
def halIoCancelWrite (s : Sys) : Sys :=
  let s := { s with writeCb := none }
  let s := match s.writeId with
    | some id => { s.removeSource id with writeId := none }
    | none => s
  s.record .cancelWrite

/-- `pn54x_io_new`: power is turned off to check that the driver is there. -/
def ioNew (env : PowerEnv) : Exec (Option Sys) := do
  let (ok, s) ← ioSetPower env false {}
  pure (if ok then some s else none)

/-- `pn54x_io_finalize`. -/
def ioFinalize (s : Sys) : Sys := ioStop s

/-- `pn54x_io_free`. The reference that `pn54x_io_unref` drops is the only one. -/
def ioFree (s : Sys) : Sys := ioFinalize s

/-- `pn54x_io_new` with its object, which is freed again when it returns NULL. -/
def ioNewObject (env : PowerEnv) : Exec (Bool × Sys) := do
  let (ok, s) ← ioSetPower env false {}
  pure (ok, if ok then s else ioFree s)

/-- A call of the API, with the answers it will get. -/
inductive Call where
  | start (env : StartEnv) (client : Client)
  | stop
  | write (env : WriteEnv) (chunks : List (List Octet)) (callback : Option Callback)
  | cancelWrite
  | setPower (env : PowerEnv) (on : Bool)
  deriving DecidableEq, Repr

def Call.perform (s : Sys) : Call → Exec Sys
  | .start env client => do return (← halIoStart env client s).2
  | .stop => .ok (halIoStop s)
  | .write env chunks callback => do return (← halIoWrite env chunks callback s).2
  | .cancelWrite => .ok (halIoCancelWrite s)
  | .setPower env on => do return (← ioSetPower env on s).2

end Pn54x
