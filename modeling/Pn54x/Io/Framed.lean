import Pn54x.Io.Handle

/-! Feeding a stream to `pn54x_io_read_handle` in chunks. The chunks deliver the
framing of the stream they are cut from, wherever the cuts are. -/
namespace Pn54x
open Framing Transition

/-- One call of `pn54x_io_read_handle`, with what the client does for each packet
in it. `pn54x_io_read_callback` passes at most `maxPacketSize` octets; the bound
here is what the code's `guint` lengths can take beside a full `read_buf`. -/
structure Chunk where
  octets : List Octet
  calls : Nat → List Call
  fits : octets.length + 257 < UInt32.size

def Chunk.Passive (chunk : Chunk) : Prop := ∀ k, ∀ c ∈ chunk.calls k, c.Passive

def feed : Sys → List Chunk → Exec Sys :=
  Transition.run fun s chunk => ioReadHandle chunk.calls chunk.octets s

/-- The stream that was cut. -/
def stream (chunks : List Chunk) : List Octet := chunks.flatMap Chunk.octets

/-- One of the client's own calls came to nothing: the kernel cannot answer so, or
the call breaks an assertion. The client made it for a packet of some chunk, and the
chunks before were taken. -/
def ClientFails (client : Client) (s : Sys) (chunks : List Chunk) (e : Stop) : Prop :=
  ∃ before chunk later m, chunks = before ++ chunk :: later ∧ feed s before = .ok m ∧
    DeliveryFails client chunk.calls 0 (frame nci (m.readBuf ++ chunk.octets)).1 (m.buffering chunk.octets) e

theorem Chunk.narrow (chunk : Chunk) {r : List Octet} (rest : nci.Remainder r) :
    Narrow (r ++ chunk.octets) := by
  have bound := remainder_length rest
  have fits := chunk.fits
  simp only [Narrow, List.length_append]
  omega

theorem feed_remainder {s t : Sys} (rest : nci.Remainder s.readBuf) (fed : feed s chunks = .ok t) :
    nci.Remainder t.readBuf :=
  run_invariant (P := fun m => nci.Remainder m.readBuf) (A := fun _ => True)
    (fun rest _ handled => ioReadHandle_remainder rest (Chunk.narrow _ rest) handled)
    rest (by simp) fed

/-- The packets and the remainder are those of the stream behind what was left. -/
theorem feed_frames {s t : Sys} (present : s.client = some client) (rest : nci.Remainder s.readBuf)
    (passive : ∀ chunk ∈ chunks, chunk.Passive) (fed : feed s chunks = .ok t) :
    t.readBuf = (frame nci (s.readBuf ++ stream chunks)).2 ∧
      reads t.log = reads s.log ++ (frame nci (s.readBuf ++ stream chunks)).1.map (client, ·) := by
  induction chunks generalizing s with
  | nil =>
    obtain rfl := run_nil.mp fed
    simp [stream, frame_of_remainder nci rest]
  | cons chunk chunks ih =>
    obtain ⟨m, handled, later⟩ := run_cons.mp fed
    obtain ⟨client', left, packets⟩ := ioReadHandle_passive present rest (chunk.narrow rest)
      (passive chunk (by simp)) handled
    have split := frame_append nci (s.readBuf ++ chunk.octets) (stream chunks)
    obtain ⟨left', packets'⟩ := ih (client'.trans present) (left ▸ frame_remainder nci _)
      (fun chunk' member => passive chunk' (by simp [member])) later
    rw [left] at left' packets'
    rw [List.append_assoc] at split
    change t.readBuf = (frame nci (s.readBuf ++ (chunk.octets ++ stream chunks))).2 ∧
      reads t.log = reads s.log ++ (frame nci (s.readBuf ++ (chunk.octets ++ stream chunks))).1.map _
    rw [split]
    exact ⟨left', by rw [packets', reads_of_heard packets, List.map_append, List.append_assoc]⟩

/-- Framing itself never fails. -/
theorem feed_error {s : Sys} (present : s.client = some client) (rest : nci.Remainder s.readBuf)
    (passive : ∀ chunk ∈ chunks, chunk.Passive) (failed : feed s chunks = .error e) :
    ClientFails client s chunks e := by
  obtain ⟨before, chunk, later, m, rfl, fed, failed⟩ := run_error failed
  have ready : m.client = some client ∧ nci.Remainder m.readBuf := by
    refine run_invariant (P := fun m => m.client = some client ∧ nci.Remainder m.readBuf) (A := Chunk.Passive)
      ?_ ⟨present, rest⟩ (fun chunk member => passive chunk (by simp [member])) fed
    rintro s chunk t ⟨present, rest⟩ passive handled
    obtain ⟨client', _, _⟩ := ioReadHandle_passive present rest (chunk.narrow rest) passive handled
    exact ⟨client'.trans present, ioReadHandle_remainder rest (chunk.narrow rest) handled⟩
  exact ⟨before, chunk, later, m, rfl, fed, ioReadHandle_error ready.1 ready.2 (chunk.narrow ready.2) failed⟩

theorem packets_remainder {us : List (List Octet)} (packets : ∀ p ∈ us, NciPacket p)
    (shape : Interleaves nci s us []) : frame nci s = (us, []) :=
  (frame_iff nci).mpr ⟨shape, fun p member => nci_unit.mpr (packets p member), nci.remainder_nil⟩

/-- Framing inverts encoding: whatever the filler and the cuts, the client is called
once for each packet, in order, and nothing is left over. -/
theorem read_handle_round_trip {s : Sys} {chunks : List Chunk} {padded : List (Nat × List Octet)}
    (present : s.client = some client) (empty : s.readBuf = [])
    (packets : ∀ p ∈ padded.map Prod.snd, NciPacket p)
    (cut : stream chunks = encode padded trailing)
    (passive : ∀ chunk ∈ chunks, chunk.Passive) :
    (∀ t, feed s chunks = .ok t →
      reads t.log = reads s.log ++ (padded.map Prod.snd).map (client, ·) ∧ t.readBuf = []) ∧
    ∀ e, feed s chunks = .error e → ClientFails client s chunks e := by
  have rest : nci.Remainder s.readBuf := empty ▸ nci.remainder_nil
  have framed : frame nci (s.readBuf ++ stream chunks) = (padded.map Prod.snd, []) := by
    have shape := encode_interleaves padded trailing []
    rw [List.append_nil] at shape
    rw [empty, List.nil_append, cut]
    exact packets_remainder packets shape
  constructor
  · intro t fed
    obtain ⟨left, delivered⟩ := feed_frames present rest passive fed
    rw [framed] at left delivered
    exact ⟨delivered, left⟩
  · intro e failed
    exact feed_error present rest passive failed

/-- Filler and a packet cut inside the header, with octets of the driver's own. -/
theorem read_handle_round_trip_split :
    ∃ t, feed { client := some 1 }
        [⟨[0xff, 0xff, 0x60, 0x08], fun _ => [], by decide⟩,
          ⟨[0x02, 0xb2], fun _ => [.cancelWrite], by decide⟩,
          ⟨[0x00, 0xff, 0xff], fun _ => [.cancelWrite], by decide⟩] = .ok t ∧
      reads t.log = [(1, [0x60, 0x08, 0x02, 0xb2, 0x00])] ∧ t.readBuf = [] := by
  have fed : feed { client := some 1 }
      [⟨[0xff, 0xff, 0x60, 0x08], fun _ => [], by decide⟩,
        ⟨[0x02, 0xb2], fun _ => [.cancelWrite], by decide⟩,
        ⟨[0x00, 0xff, 0xff], fun _ => [.cancelWrite], by decide⟩] =
    .ok { client := some 1, log := [.read 1 [0x60, 0x08, 0x02, 0xb2, 0x00], .cancelWrite] } := rfl
  have packets : ∀ p ∈ [(2, [0x60, 0x08, 0x02, 0xb2, 0x00])].map Prod.snd, NciPacket p := by
    intro p member
    obtain rfl : p = [0x60, 0x08, 0x02, 0xb2, 0x00] := by simpa using member
    exact ⟨by decide, by decide, 0x02, rfl, rfl⟩
  exact ⟨_, fed, (read_handle_round_trip (s := { client := some 1 }) rfl rfl packets
    (show _ = encode _ 2 from rfl) (by simp [Chunk.Passive, Call.Passive])).1 _ fed⟩

/-- Cutting a stream differently changes neither the packets nor what is left. The
two clients may make different calls meanwhile. -/
theorem read_handle_chunking {origin s : Sys} {earlier first second : List Chunk}
    (empty : origin.readBuf = []) (reached : feed origin earlier = .ok s)
    (present : s.client = some client) (same : stream first = stream second)
    (passive₁ : ∀ chunk ∈ first, chunk.Passive) (passive₂ : ∀ chunk ∈ second, chunk.Passive) :
    (∀ t u, feed s first = .ok t → feed s second = .ok u →
      reads t.log = reads u.log ∧ t.readBuf = u.readBuf) ∧
    (∀ e, feed s first = .error e → ClientFails client s first e) ∧
    ∀ e, feed s second = .error e → ClientFails client s second e := by
  have rest := feed_remainder (empty ▸ nci.remainder_nil) reached
  refine ⟨?_, fun e => feed_error present rest passive₁, fun e => feed_error present rest passive₂⟩
  intro t u fed₁ fed₂
  obtain ⟨left₁, delivered₁⟩ := feed_frames present rest passive₁ fed₁
  obtain ⟨left₂, delivered₂⟩ := feed_frames present rest passive₂ fed₂
  rw [delivered₁, delivered₂, left₁, left₂, same]
  exact ⟨rfl, rfl⟩

theorem read_handle_chunking_header :
    ∃ t u,
      feed { client := some 1, readBuf := [0x60] }
        [⟨[0x08, 0x00, 0xff], fun _ => [], by decide⟩] = .ok t ∧
      feed { client := some 1, readBuf := [0x60] }
        [⟨[0x08], fun _ => [], by decide⟩, ⟨[], fun _ => [], by decide⟩,
          ⟨[0x00, 0xff], fun _ => [], by decide⟩] = .ok u ∧
      reads t.log = reads u.log ∧ t.readBuf = u.readBuf := by
  have reached : feed { client := some 1 } [⟨[0xff, 0x60], fun _ => [], by decide⟩] =
    .ok { client := some 1, readBuf := [0x60] } := rfl
  have whole : feed { client := some 1, readBuf := [0x60] }
      [⟨[0x08, 0x00, 0xff], fun _ => [], by decide⟩] =
    .ok { client := some 1, log := [.read 1 [0x60, 0x08, 0x00]] } := rfl
  have pieces : feed { client := some 1, readBuf := [0x60] }
      [⟨[0x08], fun _ => [], by decide⟩, ⟨[], fun _ => [], by decide⟩,
        ⟨[0x00, 0xff], fun _ => [], by decide⟩] =
    .ok { client := some 1, log := [.read 1 [0x60, 0x08, 0x00]] } := rfl
  exact ⟨_, _, whole, pieces, (read_handle_chunking rfl reached rfl rfl
    (by simp [Chunk.Passive]) (by simp [Chunk.Passive])).1 _ _ whole pieces⟩

/-- What `read_buf` may hold: nothing, or the beginning of a packet that it is too
short for. -/
def Unfinished (r : List Octet) : Prop :=
  r = [] ∨ r[0]? ≠ some 0xff ∧
    (r.length < packetHeaderSize ∨
      ∃ payload, r[2]? = some payload ∧ r.length < packetHeaderSize + payload.toNat)

theorem remainder_unfinished {r : List Octet} (rest : nci.Remainder r) : Unfinished r := by
  refine .inr ⟨nci_strip.mp rest.strip, ?_⟩
  by_cases header : r.length < packetHeaderSize
  · exact .inl header
  · have third : 2 < r.length := by
      simp only [packetHeaderSize] at header
      omega
    have found := List.getElem?_eq_getElem third
    exact .inr ⟨r[2], found, packetSize_eq_zero.mp rest.size _ found⟩

/-- After any chunks, well formed or not: the input is the packets in order with
filler between them and then `read_buf`; the packets are whole; all that the input
completes are there; `read_buf` is short of a packet; and nothing ever faults. -/
theorem read_handle_conserves {s : Sys} {chunks : List Chunk}
    (present : s.client = some client) (empty : s.readBuf = [])
    (passive : ∀ chunk ∈ chunks, chunk.Passive) :
    (∀ t, feed s chunks = .ok t → ∃ padded trailing,
      reads t.log = reads s.log ++ (padded.map Prod.snd).map (client, ·) ∧
      stream chunks = encode padded trailing ++ t.readBuf ∧
      (∀ p ∈ padded.map Prod.snd, NciPacket p) ∧
      Unfinished t.readBuf ∧ t.readBuf.length ≤ 257 ∧
      ∀ complete n rest, (∀ p ∈ complete.map Prod.snd, NciPacket p) →
        stream chunks = encode complete n ++ rest →
        complete.map Prod.snd <+: padded.map Prod.snd) ∧
    ∀ e, feed s chunks = .error e →
      ClientFails client s chunks e ∧ e ≠ .outOfBounds ∧ e ≠ .underflow ∧ e ≠ .noFuel := by
  have rest : nci.Remainder s.readBuf := empty ▸ nci.remainder_nil
  constructor
  · intro t fed
    obtain ⟨left, delivered⟩ := feed_frames present rest passive fed
    rw [empty, List.nil_append] at left delivered
    obtain ⟨framed, whole, ends⟩ := (frame_iff nci).mp (rfl : frame nci (stream chunks) = _)
    obtain ⟨padded, trailing, units, shape⟩ := interleaves_encode framed
    have remainder : nci.Remainder t.readBuf := left ▸ ends
    refine ⟨padded, trailing, by rw [units, delivered], by rw [left]; exact shape, ?_,
      remainder_unfinished remainder, remainder_length remainder, ?_⟩
    · rw [units]
      exact fun p member => nci_unit.mp (whole p member)
    · intro complete n rest packets cut
      have shape' := encode_interleaves complete n []
      rw [List.append_nil] at shape'
      rw [units, cut, frame_append, packets_remainder packets shape']
      exact List.prefix_append _ _
  · intro e failed
    have fails := feed_error present rest passive failed
    refine ⟨fails, ?_⟩
    obtain ⟨_, _, _, _, _, _, fails⟩ := fails
    obtain ⟨_, _, _, _, refused⟩ := fails.call
    rcases perform_error refused with rfl | rfl | rfl <;> simp

theorem read_handle_conserves_truncated :
    ∃ t, feed { client := some 1 } [⟨[0xff, 0x60, 0x08], fun _ => [], by decide⟩] = .ok t ∧
      Unfinished t.readBuf := by
  have fed : feed { client := some 1 } [⟨[0xff, 0x60, 0x08], fun _ => [], by decide⟩] = _ := rfl
  obtain ⟨padded, trailing, _, _, _, unfinished, _⟩ :=
    (read_handle_conserves rfl rfl (by simp [Chunk.Passive])).1 _ fed
  exact ⟨_, rfl, unfinished⟩

end Pn54x
