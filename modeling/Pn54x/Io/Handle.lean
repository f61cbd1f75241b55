import Pn54x.Io.Calls
import Pn54x.Io.ReadLoop

/-! `pn54x_io_read_handle` as a whole: the packets of what was left and what came
are delivered, and `read_buf` ends as what is left behind them, also when the
client's calls empty `read_buf` in between. -/
namespace Pn54x
open Framing Transition

theorem clientRead_at_ok {s t : Sys} :
    clientRead client (.at packet) packet.length calls s = .ok t ↔
      ∃ c, client = some c ∧ react calls (s.record (.read c packet)) = .ok t := by
  cases client with
  | none => simp [clientRead]
  | some c => simp [clientRead, Cursor.at]

theorem deliver_cons {s t : Sys} : deliver client calls k (packet :: rest) s = .ok t ↔
    ∃ m, clientRead client (.at packet) packet.length (calls k) s = .ok m ∧
      deliver client calls (k + 1) rest m = .ok t := bind_ok

theorem deliver_readBuf {s t : Sys} (delivered : deliver client calls k packets s = .ok t) :
    t.readBuf = s.readBuf ∨ t.readBuf = [] := by
  induction packets generalizing k s with
  | nil =>
    cases delivered
    exact .inl rfl
  | cons packet packets ih =>
    obtain ⟨m, called, rest⟩ := deliver_cons.mp delivered
    obtain ⟨c, _, reacted⟩ := clientRead_at_ok.mp called
    cases react_readBuf reacted with
    | inl same => exact (ih rest).imp_left (·.trans same)
    | inr empty => exact .inr ((ih rest).elim (·.trans empty) id)

/-- A client that neither starts nor stops gets every packet, in order. -/
theorem deliver_passive {s t : Sys} (passive : ∀ k, ∀ c ∈ calls k, c.Passive)
    (delivered : deliver (some client) calls k packets s = .ok t) :
    t.client = s.client ∧ t.readBuf = s.readBuf ∧
      heard t.log = heard s.log ++ packets.map (Event.read client) := by
  induction packets generalizing k s with
  | nil =>
    cases delivered
    exact ⟨rfl, rfl, by simp⟩
  | cons packet packets ih =>
    obtain ⟨m, called, rest⟩ := deliver_cons.mp delivered
    obtain ⟨_, same, reacted⟩ := clientRead_at_ok.mp called
    obtain rfl := Option.some.inj same
    have kept := react_kept (passive k) reacted
    obtain ⟨client', readBuf, packets'⟩ := ih rest
    have first : heard m.log = heard s.log ++ [.read client packet] := by
      rw [kept.heard, record_log, heard_append]
      rfl
    refine ⟨client'.trans kept.client, readBuf.trans kept.readBuf, ?_⟩
    rw [packets', first, List.append_assoc]
    rfl

/-- Told of one of the packets, the client makes a call that fails in the state that it is
made in: the packets before were delivered, and its calls before went through. -/
def DeliveryFails (client : Client) (calls : Nat → List Call) (k : Nat) (packets : List (List Octet))
    (s : Sys) (e : Stop) : Prop :=
  ∃ delivered packet more t, packets = delivered ++ packet :: more ∧
    deliver (some client) calls k delivered s = .ok t ∧
    ∃ made c rest m, calls (k + delivered.length) = made ++ c :: rest ∧
      react made (t.record (.read client packet)) = .ok m ∧ c.perform m = .error e

theorem DeliveryFails.call (fails : DeliveryFails client calls k packets s e) :
    ∃ j, ∃ c ∈ calls j, ∃ m, c.perform m = .error e := by
  obtain ⟨delivered, _, _, _, _, _, made, c, rest, m, split, _, refused⟩ := fails
  exact ⟨k + delivered.length, c, by simp [split], m, refused⟩

/-- What the client's calls return is all that can fail while it is called. -/
theorem deliver_error {s : Sys} (failed : deliver (some client) calls k packets s = .error e) :
    DeliveryFails client calls k packets s e := by
  induction packets generalizing k s with
  | nil => contradiction
  | cons packet packets ih =>
    cases called : clientRead (some client) (.at packet) packet.length (calls k) s with
    | error e' =>
      simp only [deliver, called, bind, Except.bind] at failed
      obtain rfl := Except.error.inj failed
      simp only [clientRead, Cursor.at, Nat.lt_irrefl, if_false, List.take_length] at called
      exact ⟨[], packet, packets, s, rfl, rfl, run_error called⟩
    | ok m =>
      simp only [deliver, called, bind, Except.bind] at failed
      obtain ⟨delivered, packet', more, t, rfl, before, made, c, rest, u, split, reacted, refused⟩ := ih failed
      refine ⟨packet :: delivered, packet', more, t, rfl, deliver_cons.mpr ⟨m, called, before⟩,
        made, c, rest, u, ?_, reacted, refused⟩
      rw [← split, List.length_cons, Nat.add_right_comm, Nat.add_assoc]

theorem ioReadHandle_eq {s : Sys} (rest : nci.Remainder s.readBuf)
    (narrow : Narrow (s.readBuf ++ octets)) :
    ioReadHandle calls octets s =
      deliver s.client calls 0 (frame nci (s.readBuf ++ octets)).1 (s.buffering octets) >>=
        fun m => .ok { m with readBuf := (frame nci (s.readBuf ++ octets)).2 } := by
  have stripped : Narrow (nci.strip (s.readBuf ++ octets)) :=
    Nat.lt_of_le_of_lt (List.dropWhile_sublist _).length_le narrow
  have behind := frame_suffix nci (s.readBuf ++ octets)
  have left : Narrow (frame nci (s.readBuf ++ octets)).2 :=
    Nat.lt_of_le_of_lt behind.length_le narrow
  rw [ioReadHandle, readStart_eq rest narrow]
  change (readLoop s.client calls ((nci.strip (s.readBuf ++ octets)).length + 1) 0
    (.at (nci.strip (s.readBuf ++ octets))) (s.buffering octets) >>= _) = _
  rw [readLoop_eq s.client calls stripped (nci.strip_strip _) (Nat.lt_succ_self _), frame_strip]
  cases delivered : deliver s.client calls 0 (frame nci (s.readBuf ++ octets)).1 (s.buffering octets) with
  | error e => rfl
  | ok m =>
    change readFinish (.at (frame nci (s.readBuf ++ octets)).2) m = _
    apply readFinish_eq left
    by_cases empty : s.readBuf = []
    · left
      have same : (s.buffering octets).readBuf = [] := by simp [Sys.buffering, empty]
      cases deliver_readBuf delivered with
      | inl kept => exact kept.trans same
      | inr emptied => exact emptied
    · have same : (s.buffering octets).readBuf = s.readBuf ++ octets := by simp [Sys.buffering, empty]
      cases deliver_readBuf delivered with
      | inl kept =>
        right
        rw [kept, same]
        exact ⟨behind, narrow⟩
      | inr emptied => exact .inl emptied

theorem ioReadHandle_passive {s t : Sys} (present : s.client = some client)
    (rest : nci.Remainder s.readBuf) (narrow : Narrow (s.readBuf ++ octets))
    (passive : ∀ k, ∀ c ∈ calls k, c.Passive) (handled : ioReadHandle calls octets s = .ok t) :
    t.client = s.client ∧ t.readBuf = (frame nci (s.readBuf ++ octets)).2 ∧
      heard t.log = heard s.log ++ (frame nci (s.readBuf ++ octets)).1.map (Event.read client) := by
  rw [ioReadHandle_eq rest narrow, present] at handled
  obtain ⟨m, delivered, done⟩ := bind_ok.mp handled
  obtain rfl := Except.ok.inj done
  obtain ⟨client', _, packets⟩ := deliver_passive passive delivered
  have buffered : (s.buffering octets).client = s.client ∧ (s.buffering octets).log = s.log := by
    unfold Sys.buffering
    split <;> exact ⟨rfl, rfl⟩
  exact ⟨client'.trans buffered.1, rfl, buffered.2 ▸ packets⟩

theorem reads_of_heard {log log' : List Event} {packets : List (List Octet)}
    (more : heard log' = heard log ++ packets.map (Event.read client)) :
    reads log' = reads log ++ packets.map (client, ·) := by
  rw [← reads_heard log', more, reads_append, reads_heard]
  simp [reads, List.filterMap_map]

theorem ioReadHandle_error {s : Sys} (present : s.client = some client)
    (rest : nci.Remainder s.readBuf) (narrow : Narrow (s.readBuf ++ octets))
    (failed : ioReadHandle calls octets s = .error e) :
    DeliveryFails client calls 0 (frame nci (s.readBuf ++ octets)).1 (s.buffering octets) e := by
  rw [ioReadHandle_eq rest narrow, present] at failed
  cases delivered : deliver (some client) calls 0 (frame nci (s.readBuf ++ octets)).1
      (s.buffering octets) with
  | error e' =>
    rw [delivered] at failed
    obtain rfl := Except.error.inj failed
    exact deliver_error delivered
  | ok m =>
    rw [delivered] at failed
    contradiction

/-- `read_buf` never holds a complete packet nor filler in front, whatever the
client does when it is called. -/
theorem ioReadHandle_remainder {s t : Sys} (rest : nci.Remainder s.readBuf)
    (narrow : Narrow (s.readBuf ++ octets)) (handled : ioReadHandle calls octets s = .ok t) :
    nci.Remainder t.readBuf := by
  rw [ioReadHandle_eq rest narrow] at handled
  obtain ⟨m, _, done⟩ := bind_ok.mp handled
  obtain rfl := Except.ok.inj done
  exact frame_remainder nci _

end Pn54x
