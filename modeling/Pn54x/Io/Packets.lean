import Pn54x.Io.Dispatch
import Pn54x.Library.Framing

/-! NCI packets as a format of the framing library. This is what the read path is
for; the loop that does it is compared with it in the next module. -/
namespace Pn54x
open Framing

/-- The length of the complete packet at the front, 0 when there is none. -/
def packetSize (s : List Octet) : Nat :=
  match s[2]? with
  | some payload =>
    if packetHeaderSize + payload.toNat ≤ s.length then packetHeaderSize + payload.toNat else 0
  | none => 0

theorem packetSize_eq_zero {s : List Octet} : packetSize s = 0 ↔
    ∀ payload, s[2]? = some payload → s.length < packetHeaderSize + payload.toNat := by
  unfold packetSize
  split
  · split <;> simp_all [packetHeaderSize]
  · simp_all

theorem packetSize_pos {s : List Octet} (complete : 0 < packetSize s) :
    ∃ payload, s[2]? = some payload ∧ packetSize s = packetHeaderSize + payload.toNat ∧
      packetHeaderSize + payload.toNat ≤ s.length := by
  unfold packetSize at complete ⊢
  split at complete
  · split at complete
    · simp_all
    · contradiction
  · contradiction

theorem packetSize_of_payload {s : List Octet} {payload : Octet} (found : s[2]? = some payload)
    (within : packetHeaderSize + payload.toNat ≤ s.length) :
    packetSize s = packetHeaderSize + payload.toNat := by
  simp only [packetSize, found, within, if_true]

/-- The driver's filler is 0xff, and octet 2 announces the payload. -/
def nci : Format Octet where
  fill octet := octet == 0xff
  size := packetSize
  size_le s := by
    cases Nat.eq_zero_or_pos (packetSize s) with
    | inl zero => omega
    | inr complete =>
      obtain ⟨payload, _, size, within⟩ := packetSize_pos complete
      omega
  size_append s t complete := by
    obtain ⟨payload, found, size, within⟩ := packetSize_pos complete
    have header : 2 < s.length := by
      simp only [packetHeaderSize] at within
      omega
    rw [size]
    apply packetSize_of_payload
    · rwa [List.getElem?_append_left header]
    · rw [List.length_append]
      omega
  size_take s := by
    cases Nat.eq_zero_or_pos (packetSize s) with
    | inl zero =>
      rw [zero]
      rfl
    | inr complete =>
      obtain ⟨payload, found, size, within⟩ := packetSize_pos complete
      rw [size]
      apply packetSize_of_payload
      · rw [List.getElem?_take_of_lt (by simp only [packetHeaderSize]; omega), found]
      · rw [List.length_take_of_le within]

/-- A packet as the device sends it: at least a header, no filler in front, and as
long as octet 2 says. -/
structure NciPacket (p : List Octet) : Prop where
  header : packetHeaderSize ≤ p.length
  first : p[0]? ≠ some 0xff
  length : ∃ payload, p[2]? = some payload ∧ p.length = packetHeaderSize + payload.toNat

theorem nci_strip {s : List Octet} : nci.strip s = s ↔ s[0]? ≠ some 0xff := by
  cases s with
  | nil => simp [Format.strip]
  | cons a s =>
    by_cases filled : a = 0xff
    · have shorter : (s.dropWhile nci.fill).length ≤ s.length := (List.dropWhile_sublist _).length_le
      simp only [Format.strip, filled, List.getElem?_cons_zero, ne_eq, not_true, iff_false]
      rw [List.dropWhile_cons_of_pos (by rfl)]
      intro same
      have := congrArg List.length same
      simp only [List.length_cons] at this
      omega
    · simp [Format.strip, nci, filled]

theorem nci_unit {p : List Octet} : nci.Unit p ↔ NciPacket p := by
  constructor
  · intro unit
    obtain ⟨payload, found, size, within⟩ := packetSize_pos (unit.size ▸ unit.nonempty)
    have length : p.length = packetHeaderSize + payload.toNat := unit.size.symm.trans size
    exact ⟨by omega, nci_strip.mp unit.strip, payload, found, length⟩
  · rintro ⟨header, first, payload, found, length⟩
    refine ⟨nci_strip.mpr first, ?_, by simp only [packetHeaderSize] at header; omega⟩
    exact (packetSize_of_payload found (by omega)).trans length.symm

/-- A remainder is shorter than any packet, so the largest one bounds it. -/
theorem remainder_length {r : List Octet} (rest : nci.Remainder r) : r.length ≤ 257 := by
  by_cases header : 2 < r.length
  · have short := packetSize_eq_zero.mp rest.size _ (List.getElem?_eq_getElem header)
    have byte := r[2].toNat_lt
    simp only [packetHeaderSize] at short
    omega
  · omega

/-- A byte stream: every packet behind its run of filler, and a last run. -/
def encode (padded : List (Nat × List Octet)) (trailing : Nat) : List Octet :=
  padded.flatMap (fun (pad, packet) => List.replicate pad 0xff ++ packet) ++
    List.replicate trailing 0xff

theorem interleaves_fill (n : Nat) (shape : Interleaves nci s us r) :
    Interleaves nci (List.replicate n 0xff ++ s) us r := by
  induction n with
  | zero => exact shape
  | succ n ih => exact .fill rfl ih

theorem encode_interleaves (padded : List (Nat × List Octet)) (trailing : Nat) (r : List Octet) :
    Interleaves nci (encode padded trailing ++ r) (padded.map Prod.snd) r := by
  induction padded with
  | nil => simpa [encode] using interleaves_fill trailing (.rest r)
  | cons head padded ih =>
    have step := interleaves_fill head.1 (.unit head.2 ih)
    simpa only [encode, List.map_cons, List.flatMap_cons, List.append_assoc] using step

theorem interleaves_encode (shape : Interleaves nci s us r) :
    ∃ padded trailing, padded.map Prod.snd = us ∧ s = encode padded trailing ++ r := by
  induction shape with
  | rest r => exact ⟨[], 0, rfl, rfl⟩
  | @fill a s us r filled shape ih =>
    obtain ⟨padded, trailing, rfl, rfl⟩ := ih
    obtain rfl : a = 0xff := by simpa [nci] using filled
    cases padded with
    | nil => exact ⟨[], trailing + 1, rfl, by simp [encode, List.replicate_succ]⟩
    | cons head padded =>
      exact ⟨(head.1 + 1, head.2) :: padded, trailing, rfl, by simp [encode, List.replicate_succ]⟩
  | unit u shape ih =>
    obtain ⟨padded, trailing, rfl, rfl⟩ := ih
    exact ⟨(0, u) :: padded, trailing, rfl, by simp [encode]⟩

end Pn54x
