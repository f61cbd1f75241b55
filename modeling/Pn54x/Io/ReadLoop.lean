import Pn54x.Io.Packets

/-! The framing loop computes the framing of the stream it is given, whatever the
client does when it is called: the loop's locals never depend on the object. -/
namespace Pn54x
open Framing Transition

/-- A pointer to `s` with all of it ahead. -/
def Cursor.at (s : List Octet) : Cursor := ⟨s, s.length⟩

/-- `guint` arithmetic on a length is exact. -/
def Narrow (s : List Octet) : Prop := s.length < UInt32.size

theorem guint_of_lt {n : Nat} (narrow : n < UInt32.size) : guint n = n := Nat.mod_eq_of_lt narrow

theorem deref_of_getElem? {s : List Octet} {i : Nat} (found : s[i]? = some octet) :
    deref s i = .ok octet := by
  simp only [deref, found]

theorem difference_of_le {a b : Nat} (le : b ≤ a) : difference a b = .ok (a - b) := if_pos le

theorem byteArrayAppend_all (array : List Octet) {data : List Octet}
    (narrow : array.length + data.length < UInt32.size) :
    byteArrayAppend array data data.length = .ok (array ++ data) := by
  have exact' : guint data.length = data.length := guint_of_lt (by omega)
  simp only [byteArrayAppend, exact', List.take_length]
  rw [if_neg (by omega), if_neg (by omega)]

theorem ioReadPacketSize_eq {s : List Octet} (narrow : Narrow s) :
    ioReadPacketSize s s.length = .ok (packetSize s) := by
  unfold ioReadPacketSize packetSize
  by_cases header : packetHeaderSize ≤ s.length
  · have third : 2 < s.length := by
      simp only [packetHeaderSize] at header
      omega
    have found := List.getElem?_eq_getElem third
    have payload : guint (s.length - packetHeaderSize) = s.length - packetHeaderSize :=
      guint_of_lt (by unfold Narrow at narrow; omega)
    have room : s[2].toNat ≤ s.length - packetHeaderSize ↔
        packetHeaderSize + s[2].toNat ≤ s.length := by omega
    simp only [header, if_true, deref_of_getElem? found, found, payload, room, bind, Except.bind]
    split <;> rfl
  · have absent : s[2]? = none := by
      simp only [packetHeaderSize] at header
      simp only [List.getElem?_eq_none_iff]
      omega
    simp only [header, if_false, absent]
    rfl

theorem skipFill_eq (s : List Octet) : skipFill s s.length = .ok (.at (nci.strip s)) := by
  induction s with
  | nil => rfl
  | cons a s ih =>
    by_cases filled : a = 0xff
    · have strip : nci.strip (a :: s) = nci.strip s :=
        List.dropWhile_cons_of_pos (by simp [nci, filled])
      simp only [List.length_cons, skipFill, deref, List.getElem?_cons_zero, bind, Except.bind,
        filled, if_true, List.tail_cons] at ih ⊢
      rw [ih, ← filled, strip]
    · have strip : nci.strip (a :: s) = a :: s :=
        List.dropWhile_cons_of_neg (by simp [nci, filled])
      simp only [List.length_cons, skipFill, deref, List.getElem?_cons_zero, bind, Except.bind,
        filled, if_false, strip, Cursor.at]

/-- The client is called for each packet in turn, from the `k`th call on. -/
def deliver (client : Option Client) (calls : Nat → List Call) (k : Nat) :
    List (List Octet) → Sys → Exec Sys
  | [], s => .ok s
  | packet :: rest, s => do
    let s ← clientRead client (.at packet) packet.length (calls k) s
    deliver client calls (k + 1) rest s

theorem clientRead_take (client : Option Client) (calls : List Call) (s : Sys)
    {p : List Octet} {n : Nat} (within : n ≤ p.length) :
    clientRead client (.at p) n calls s = clientRead client (.at (p.take n)) (p.take n).length calls s := by
  have length := List.length_take_of_le within
  simp only [clientRead, Cursor.at, length, Nat.not_lt.mpr within, if_false, Nat.lt_irrefl,
    List.take_take, Nat.min_self]

theorem readLoop_eq (client : Option Client) (calls : Nat → List Call) {p : List Octet}
    (narrow : Narrow p) (stripped : nci.strip p = p) (fuel : p.length < n) (s : Sys) :
    readLoop client calls n k (.at p) s =
      deliver client calls k (frame nci p).1 s >>= fun t => .ok (.at (frame nci p).2, t) := by
  induction n generalizing p k s with
  | zero => omega
  | succ n ih =>
    have size : ioReadPacketSize (Cursor.at p).ptr (Cursor.at p).nbytes = .ok (packetSize p) :=
      ioReadPacketSize_eq narrow
    rw [readLoop, size]
    cases Nat.eq_zero_or_pos (packetSize p) with
    | inl zero =>
      have incomplete : nci.size (nci.strip p) = 0 := by rw [stripped]; exact zero
      rw [frame_incomplete nci incomplete, stripped, zero]
      rfl
    | inr complete =>
      have complete' : 0 < nci.size (nci.strip p) := by rw [stripped]; exact complete
      have within : packetSize p ≤ p.length := nci.size_le p
      have left : difference (Cursor.at p).nbytes (packetSize p) = .ok (p.drop (packetSize p)).length := by
        rw [List.length_drop]
        exact difference_of_le within
      have behind := skipFill_eq (p.drop (packetSize p))
      have shorter : (nci.strip (p.drop (packetSize p))).length ≤ p.length - packetSize p := by
        rw [← List.length_drop]
        exact (List.dropWhile_sublist _).length_le
      rw [frame_complete nci complete', stripped, ← frame_strip nci (p.drop _)]
      change (if 0 < packetSize p then _ else _) = _
      rw [if_pos complete, left, clientRead_take client (calls k) s within]
      change _ = (clientRead client (.at (p.take (packetSize p))) (p.take (packetSize p)).length
        (calls k) s >>= deliver client calls (k + 1) _) >>= _
      cases clientRead client (.at (p.take (packetSize p))) (p.take (packetSize p)).length (calls k) s with
      | error e => rfl
      | ok t =>
        change (skipFill (p.drop (packetSize p)) (p.drop (packetSize p)).length >>= fun c =>
          readLoop client calls n (k + 1) c t) = _
        rw [behind]
        exact ih (by unfold Narrow at narrow ⊢; omega) (nci.strip_strip _) (by omega) t

/-- The object while its packets are delivered: the new octets are in `read_buf`
when something was left there, and nowhere else when nothing was. -/
def Sys.buffering (s : Sys) (octets : List Octet) : Sys :=
  if s.readBuf = [] then s else { s with readBuf := s.readBuf ++ octets }

theorem readStart_eq {s : Sys} (rest : nci.Remainder s.readBuf) (narrow : Narrow (s.readBuf ++ octets)) :
    readStart octets s = .ok (.at (nci.strip (s.readBuf ++ octets)), s.buffering octets) := by
  unfold readStart Sys.buffering
  by_cases empty : s.readBuf = []
  · simp only [empty, List.length_nil, ne_eq, not_true, if_false, List.nil_append, skipFill_eq,
      bind, Except.bind, if_true]
    rfl
  · have nonempty : s.readBuf.length ≠ 0 := by simpa using empty
    have room : s.readBuf.length + octets.length < UInt32.size := by
      simpa only [Narrow, List.length_append] using narrow
    have stripped : nci.strip (s.readBuf ++ octets) = s.readBuf ++ octets := by
      rw [nci.strip_append_of_ne octets (by rwa [rest.strip]), rest.strip]
    rw [if_pos nonempty, byteArrayAppend_all _ room, if_neg empty, stripped]
    rfl

theorem readFinish_eq {s : Sys} {r : List Octet} (narrow : Narrow r)
    (kept : s.readBuf = [] ∨ r <:+ s.readBuf ∧ Narrow s.readBuf) :
    readFinish (.at r) s = .ok { s with readBuf := r } := by
  unfold readFinish
  by_cases done : r = []
  · simp only [done, Cursor.at, List.length_nil, if_true]
  · have left : (Cursor.at r).nbytes ≠ 0 := by simpa [Cursor.at] using done
    rw [if_neg left]
    rcases kept with empty | ⟨⟨front, split⟩, narrow'⟩
    · have append : byteArrayAppend [] r r.length = .ok ([] ++ r) :=
        byteArrayAppend_all [] (by simpa [Narrow] using narrow)
      simp only [empty, List.length_nil, ne_eq, not_true, if_false, Cursor.at, append]
      rfl
    · have length := congrArg List.length split
      simp only [List.length_append] at length
      have positive : 0 < r.length := List.length_pos_iff.mpr done
      have consumed : difference s.readBuf.length (Cursor.at r).nbytes = .ok front.length := by
        have front' : s.readBuf.length - r.length = front.length := by omega
        rw [← front']
        exact difference_of_le (by simp only [Cursor.at]; omega)
      have exact' : guint front.length = front.length :=
        guint_of_lt (by unfold Narrow at narrow'; omega)
      have removed : byteArrayRemoveRange s.readBuf 0 (guint front.length) = .ok r := by
        rw [exact', byteArrayRemoveRange, if_neg (by omega), ← split]
        simp
      rw [if_pos (by omega), consumed]
      change (byteArrayRemoveRange s.readBuf 0 (guint front.length) >>= _) = _
      rw [removed]
      rfl

end Pn54x
