import Mathlib.Data.List.Basic

/-! The state of a `Pn54xIo` and of what it uses of the kernel and of GLib. A
pointer or descriptor that may be absent is an `Option`; `none` is NULL, -1 or
0 as the field's C type has it. -/
namespace Pn54x

abbrev Octet := UInt8
abbrev Fd := Nat
abbrev Pid := Nat
abbrev SourceId := Nat
/-- Identity of a `NciHalClient`. -/
abbrev Client := Nat
/-- Identity of a `NciHalClientFunc`. -/
abbrev Callback := Nat

/-- `PN54X_MAX_PACKET_SIZE`. -/
def maxPacketSize : Nat := 512

/-- `NCI_PACKET_HEADER_SIZE`. -/
def packetHeaderSize : Nat := 3

/-- Why an execution has no ordinary continuation. `impossible` is an answer that
the kernel or GLib cannot give; the rest is a fault of the program or its caller. -/
inductive Stop where
  | outOfBounds | underflow | overflow | nullClient | nullCallback | assertion | noFuel | impossible
  deriving DecidableEq, Repr

abbrev Exec := Except Stop

/-- The functions that the object registers with the main loop. -/
inductive SourceFunc where
  | readCallback | writeComplete
  deriving DecidableEq, Repr

/-- What an observer of the object sees, in order: returns of the API calls, calls
of the client's functions, system writes and closed descriptors. -/
inductive Event where
  | start (client : Client) (ok : Bool)
  | stop
  | write (callback : Option Callback) (ok : Bool)
  | cancelWrite
  | setPower (on ok : Bool)
  | read (client : Client) (packet : List Octet)
  | error (client : Client)
  | writeComplete (client : Option Client) (callback : Callback) (ok : Bool)
  | sent (data : List Octet) (accepted : Option Nat)
  | closed (fd : Fd) (valid : Bool)
  deriving DecidableEq, Repr

/-- `struct pn54x_io`. The channel is known by the descriptor it was made for. -/
structure Pn54xIo where
  client : Option Client := none
  fd : Option Fd := none
  readFd : Option Fd := none
  readPid : Option Pid := none
  readBuf : List Octet := []
  readChannel : Option Fd := none
  readWatchId : Option SourceId := none
  writeId : Option SourceId := none
  writeCb : Option Callback := none
  writeBuf : List Octet := []
  deriving DecidableEq, Repr

/-- Descriptors that the object acquired and that are open, reader processes that
were forked and not reaped, the sources scheduled in the main loop, and the power
of the chip, which is the argument of the last successful `PN54X_SET_PWR`. -/
structure Kernel where
  files : List Fd := []
  children : List Pid := []
  sources : List (SourceId × SourceFunc) := []
  lastSource : SourceId := 0
  power : Bool := false
  log : List Event := []
  deriving DecidableEq, Repr

structure Sys extends Pn54xIo, Kernel
  deriving DecidableEq, Repr

namespace Sys

def record (s : Sys) (e : Event) : Sys := { s with log := s.log ++ [e] }

/-- A descriptor number that is open is never handed out again. -/
def acquire (s : Sys) (fd : Fd) : Exec Sys :=
  if fd ∈ s.files then .error .impossible else .ok { s with files := fd :: s.files }

/-- `close`, also as `g_io_channel_shutdown` makes it. -/
def close (s : Sys) (fd : Fd) : Sys :=
  { s with files := s.files.erase fd, log := s.log ++ [.closed fd (fd ∈ s.files)] }

/-- `g_source_remove`. -/
def removeSource (s : Sys) (id : SourceId) : Sys :=
  { s with sources := s.sources.filter (fun source => source.1 ≠ id) }

/-- `g_idle_add` and `g_io_add_watch`: the new source's id is non-zero and, here,
the last one that was given out. -/
def addSource (s : Sys) (func : SourceFunc) : Sys :=
  { s with sources := s.sources ++ [(s.lastSource + 1, func)], lastSource := s.lastSource + 1 }

/-- `fork` in the parent: the child is new. -/
def fork (s : Sys) (pid : Pid) : Exec Sys :=
  if pid ∈ s.children then .error .impossible else .ok { s with children := pid :: s.children }

/-- The system call `write` on the device; it takes no more than it is given. -/
def write (s : Sys) (data : List Octet) (accepted : Option Nat) : Exec Sys :=
  if accepted.any (data.length < ·) then .error .impossible else .ok (s.record (.sent data accepted))

end Sys

/-- `GASSERT`. -/
def gassert (condition : Bool) : Exec Unit :=
  if condition then .ok () else .error .assertion

/-- Conversion to `guint`. -/
def guint (n : Nat) : Nat := n % UInt32.size

/-- Reading the octet `i` places behind a pointer into a buffer. -/
def deref (ptr : List Octet) (i : Nat) : Exec Octet :=
  match ptr[i]? with
  | some octet => .ok octet
  | none => .error .outOfBounds

/-- A difference of unsigned integers that must not wrap. -/
def difference (a b : Nat) : Exec Nat :=
  if b ≤ a then .ok (a - b) else .error .underflow

/-- `g_byte_array_append`, whose length argument is a `guint` and which aborts
when the array would outgrow a `guint`. -/
def byteArrayAppend (array data : List Octet) (len : Nat) : Exec (List Octet) :=
  if UInt32.size ≤ array.length + guint len then .error .overflow
  else if data.length < guint len then .error .outOfBounds
  else .ok (array ++ data.take (guint len))

/-- `g_byte_array_remove_range`. -/
def byteArrayRemoveRange (array : List Octet) (index length : Nat) : Exec (List Octet) :=
  if array.length < index + length then .error .outOfBounds
  else .ok (array.take index ++ array.drop (index + length))

end Pn54x
