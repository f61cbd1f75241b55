import Pn54x.Io.Operations

/-! What the main loop dispatches: the read watch, with the framing loop behind it,
and the idle source of a write. The client's functions may call the API before
they return; such a reaction is a list of calls, one list for each invocation. -/
namespace Pn54x

/-- `pn54x_io_read_packet_size`. -/
def ioReadPacketSize (buf : List Octet) (size : Nat) : Exec Nat :=
  if packetHeaderSize ≤ size then do
    let maxPayload := guint (size - packetHeaderSize)
    let payloadLen := (← deref buf 2).toNat
    if payloadLen ≤ maxPayload then pure (packetHeaderSize + payloadLen) else pure 0
  else pure 0

/-- The locals `ptr`, as the memory it points to, and `nbytes`. -/
structure Cursor where
  ptr : List Octet
  nbytes : Nat
  deriving DecidableEq, Repr

/-- `while (nbytes > 0 && *ptr == 0xff)`. -/
def skipFill (ptr : List Octet) : Nat → Exec Cursor
  | 0 => .ok ⟨ptr, 0⟩
  | nbytes + 1 => do
    if (← deref ptr 0) = 0xff then skipFill ptr.tail nbytes
    else .ok ⟨ptr, nbytes + 1⟩

/-- The calls that a client's function makes before it returns. -/
def react (calls : List Call) (s : Sys) : Exec Sys := Transition.run Call.perform s calls

/-- `client->fn->read(client, ptr, pktsiz)`, with what the client does in it. -/
def clientRead (client : Option Client) (c : Cursor) (pktsiz : Nat) (calls : List Call)
    (s : Sys) : Exec Sys :=
  match client with
  | none => .error .nullClient
  | some client =>
    if c.ptr.length < pktsiz then .error .outOfBounds
    else react calls (s.record (.read client (c.ptr.take pktsiz)))

/-- The framing loop. `k` counts the packets delivered; `fuel` bounds the rounds. -/
def readLoop (client : Option Client) (calls : Nat → List Call) :
    (fuel k : Nat) → Cursor → Sys → Exec (Cursor × Sys)
  | 0, _, _, _ => .error .noFuel
  | fuel + 1, k, c, s => do
    let pktsiz ← ioReadPacketSize c.ptr c.nbytes
    if 0 < pktsiz then
      let s ← clientRead client c pktsiz (calls k) s
      let nbytes ← difference c.nbytes pktsiz
      let c ← skipFill (c.ptr.drop pktsiz) nbytes
      readLoop client calls fuel (k + 1) c s
    else pure (c, s)

/-- Where parsing starts: in `read_buf` behind what was left there, else in `buf`. -/
def readStart (buf : List Octet) (s : Sys) : Exec (Cursor × Sys) :=
  if s.readBuf.length ≠ 0 then do
    let readBuf ← byteArrayAppend s.readBuf buf buf.length
    pure (⟨readBuf, readBuf.length⟩, { s with readBuf })
  else do
    let c ← skipFill buf buf.length
    pure (c, s)

/-- The three ways of keeping what was not delivered. -/
def readFinish (c : Cursor) (s : Sys) : Exec Sys :=
  if c.nbytes = 0 then
    .ok { s with readBuf := [] }
  else if s.readBuf.length ≠ 0 then do
    let consumed ← difference s.readBuf.length c.nbytes
    let readBuf ← byteArrayRemoveRange s.readBuf 0 (guint consumed)
    .ok { s with readBuf }
  else do
    let readBuf ← byteArrayAppend s.readBuf c.ptr c.nbytes
    .ok { s with readBuf }

/-- `pn54x_io_read_handle`. `client` is the one found at entry, and stays so
whatever the client does. -/
def ioReadHandle (calls : Nat → List Call) (buf : List Octet) (s : Sys) : Exec Sys := do
  let client := s.client
  let (c, s) ← readStart buf s
  let (c, s) ← readLoop client calls (c.nbytes + 1) 0 c s
  readFinish c s

/-- Results of `g_io_channel_read_chars`. -/
inductive CharsResult where
  | normal (octets : List Octet)
  | again
  | eof
  | error
  deriving DecidableEq, Repr

/-- `pn54x_io_read_chars`: the octets read, or `none` for FALSE. -/
def ioReadChars (count : Nat) : CharsResult → Exec (Option (List Octet))
  | .normal octets => if octets.length ≤ count then .ok (some octets) else .error .impossible
  | .again => .ok (some [])
  | .eof | .error => .ok none

/-- What the read callback reads: `input` is what the channel returns when the
condition has `G_IO_IN`, and `none` when it has not. -/
def readInput : Option CharsResult → Exec (Option (List Octet))
  | some result => ioReadChars maxPacketSize result
  | none => .ok none

/-- `pn54x_io_read_callback` as dispatched for source `id`. -/
def ioReadCallback (id : SourceId) (input : Option CharsResult) (calls : Nat → List Call)
    (s : Sys) : Exec Sys := do
  let octets ← readInput input
  match octets with
  | some octets => ioReadHandle calls octets s
  | none =>
    let s := { s with readWatchId := none }
    match s.client with
    | none => .error .nullClient
    | some client =>
      let s ← react (calls 0) (s.record (.error client))
      -- G_SOURCE_REMOVE
      pure (s.removeSource id)

/-- `pn54x_hal_io_write_complete` as dispatched for source `id`. -/
def halIoWriteComplete (id : SourceId) (calls : List Call) (s : Sys) : Exec Sys :=
  if s.writeId.isNone then .error .assertion
  else
    match s.writeCb with
    | none => .error .nullCallback
    | some cb => do
      let s := { s with writeId := none, writeCb := none }
      let s ← react calls (s.record (.writeComplete s.client cb true))
      -- G_SOURCE_REMOVE
      pure (s.removeSource id)

/-- A step of the program: a call from outside the client's functions, or the
dispatch of a scheduled source. -/
inductive Step where
  | call (c : Call)
  | readWatch (id : SourceId) (input : Option CharsResult) (calls : Nat → List Call)
  | idle (id : SourceId) (calls : List Call)

def step (s : Sys) : Step → Exec Sys
  | .call c => c.perform s
  | .readWatch id input calls =>
    if (id, SourceFunc.readCallback) ∈ s.sources then ioReadCallback id input calls s
    else .error .impossible
  | .idle id calls =>
    if (id, SourceFunc.writeComplete) ∈ s.sources then halIoWriteComplete id calls s
    else .error .impossible

def steps : Sys → List Step → Exec Sys := Transition.run step

/-- States of an object that `pn54x_io_new` returned, after any run. -/
def Reachable (s : Sys) : Prop :=
  ∃ env new path, ioNew env = .ok (some new) ∧ steps new path = .ok s

end Pn54x
