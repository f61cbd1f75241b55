import Mathlib.Data.List.Basic
import Mathlib.Data.List.Infix

/-! Greedy framing of a stream into units, with filler symbols between them. A
format fixes the filler and how a complete unit is recognised at the front of a
stream; nothing else about the symbols is assumed. -/
namespace Framing
variable {α : Type}

/-- `size` is the length of the complete unit at the front of a stream, and 0
while there is none. The unit alone settles the answer, whatever follows it. -/
structure Format (α : Type) where
  fill : α → Bool
  size : List α → Nat
  size_le : ∀ s, size s ≤ s.length
  size_append : ∀ s t, 0 < size s → size (s ++ t) = size s
  size_take : ∀ s, size (s.take (size s)) = size s

variable (F : Format α)

/-- The stream with the filler in front of it removed. -/
def Format.strip (s : List α) : List α := s.dropWhile F.fill

/-- The units of a stream, in order, and what is left behind the last of them. -/
def frame (s : List α) : List (List α) × List α :=
  let body := F.strip s
  if 0 < F.size body then
    let tail := frame (body.drop (F.size body))
    (body.take (F.size body) :: tail.1, tail.2)
  else ([], body)
termination_by s.length
decreasing_by
  have shorter : (F.strip s).length ≤ s.length := (List.dropWhile_sublist _).length_le
  have bound := F.size_le (F.strip s)
  simp only [body, List.length_drop] at *
  omega

/-- What may be left behind: no filler in front and no complete unit. -/
structure Format.Remainder (r : List α) : Prop where
  strip : F.strip r = r
  size : F.size r = 0

/-- A complete unit that a reader can tell from filler. -/
structure Format.Unit (u : List α) : Prop where
  strip : F.strip u = u
  size : F.size u = u.length
  nonempty : 0 < u.length

namespace Format

theorem strip_strip (s : List α) : F.strip (F.strip s) = F.strip s := by
  induction s with
  | nil => rfl
  | cons a s ih =>
    by_cases filled : F.fill a = true
    · simpa only [strip, List.dropWhile_cons_of_pos filled] using ih
    · simp only [strip, List.dropWhile_cons_of_neg filled]

theorem strip_append_strip (s t : List α) : F.strip (F.strip s ++ t) = F.strip (s ++ t) := by
  induction s with
  | nil => rfl
  | cons a s ih =>
    by_cases filled : F.fill a = true
    · simpa only [strip, List.cons_append, List.dropWhile_cons_of_pos filled] using ih
    · simp only [strip, List.dropWhile_cons_of_neg filled]

theorem strip_append_of_ne {s : List α} (t : List α) (nonempty : F.strip s ≠ []) :
    F.strip (s ++ t) = F.strip s ++ t := by
  simp only [strip] at nonempty ⊢
  rw [List.dropWhile_append, if_neg (by simpa using nonempty)]

theorem strip_take {s : List α} (stripped : F.strip s = s) (n : Nat) :
    F.strip (s.take n) = s.take n := by
  cases s with
  | nil => simp [strip]
  | cons a s =>
    cases n with
    | zero => rfl
    | succ n =>
      by_cases filled : F.fill a = true
      · have shorter : (s.dropWhile F.fill).length ≤ s.length := (List.dropWhile_sublist _).length_le
        have same := congrArg List.length stripped
        simp only [strip, List.dropWhile_cons_of_pos filled, List.length_cons] at same
        omega
      · simp only [strip, List.take_succ_cons, List.dropWhile_cons_of_neg filled]

theorem size_nil : F.size [] = 0 := Nat.le_zero.mp (F.size_le [])

theorem remainder_nil : F.Remainder [] := ⟨rfl, F.size_nil⟩

theorem ne_nil_of_size {s : List α} (complete : 0 < F.size s) : s ≠ [] := by
  rintro rfl
  rw [F.size_nil] at complete
  omega

/-- Bytes that arrive behind a complete unit do not change it. -/
theorem Unit.size_append {F : Format α} (unit : F.Unit u) (t : List α) :
    F.size (u ++ t) = u.length := by
  rw [F.size_append u t (unit.size ▸ unit.nonempty), unit.size]

theorem Unit.strip_append {F : Format α} (unit : F.Unit u) (t : List α) :
    F.strip (u ++ t) = u ++ t := by
  have nonempty : F.strip u ≠ [] := by
    rw [unit.strip]
    exact List.ne_nil_of_length_pos unit.nonempty
  rw [F.strip_append_of_ne t nonempty, unit.strip]

end Format

theorem frame_complete {s : List α} (complete : 0 < F.size (F.strip s)) :
    frame F s = ((F.strip s).take (F.size (F.strip s)) ::
        (frame F ((F.strip s).drop (F.size (F.strip s)))).1,
      (frame F ((F.strip s).drop (F.size (F.strip s)))).2) := by
  rw [frame]
  simp only [complete, if_true]

theorem frame_incomplete {s : List α} (incomplete : F.size (F.strip s) = 0) :
    frame F s = ([], F.strip s) := by
  rw [frame]
  simp only [incomplete, Nat.lt_irrefl, if_false]

theorem frame_strip (s : List α) : frame F (F.strip s) = frame F s := by
  conv_lhs => rw [frame]
  conv_rhs => rw [frame]
  simp only [F.strip_strip]

theorem frame_of_remainder (rest : F.Remainder r) : frame F r = ([], r) := by
  rw [frame_incomplete F (by rw [rest.strip, rest.size]), rest.strip]

theorem frame_unit_append (unit : F.Unit u) (t : List α) :
    frame F (u ++ t) = (u :: (frame F t).1, (frame F t).2) := by
  have strip := unit.strip_append t
  have size : F.size (F.strip (u ++ t)) = u.length := by rw [strip, unit.size_append]
  rw [frame_complete F (by rw [size]; exact unit.nonempty), size, strip]
  simp only [List.take_left, List.drop_left]

/-- Splitting a stream at its first complete unit. The unit is well formed. -/
theorem unit_take {s : List α} (complete : 0 < F.size (F.strip s)) :
    F.Unit ((F.strip s).take (F.size (F.strip s))) := by
  have length : ((F.strip s).take (F.size (F.strip s))).length = F.size (F.strip s) :=
    List.length_take_of_le (F.size_le _)
  exact ⟨F.strip_take (F.strip_strip s) _, by rw [F.size_take, length], by omega⟩

theorem frame_remainder (s : List α) : F.Remainder (frame F s).2 := by
  induction s using frame.induct F with
  | case1 s body complete ih =>
    rw [frame_complete F complete]
    exact ih
  | case2 s body incomplete =>
    have size : F.size (F.strip s) = 0 := Nat.eq_zero_of_not_pos incomplete
    rw [frame_incomplete F size]
    exact ⟨F.strip_strip s, size⟩

/-- Framing is incremental: the remainder of a part stands for the whole part. -/
theorem frame_append (s t : List α) :
    frame F (s ++ t) =
      ((frame F s).1 ++ (frame F ((frame F s).2 ++ t)).1, (frame F ((frame F s).2 ++ t)).2) := by
  induction s using frame.induct F with
  | case1 s body complete ih =>
    have nonempty : F.strip s ≠ [] := F.ne_nil_of_size complete
    have strip := F.strip_append_of_ne t nonempty
    have size : F.size (F.strip (s ++ t)) = F.size (F.strip s) := by
      rw [strip, F.size_append _ _ complete]
    rw [frame_complete F complete, frame_complete F (size ▸ complete), size, strip,
      List.take_append_of_le_length (F.size_le _), List.drop_append_of_le_length (F.size_le _), ih]
    rfl
  | case2 s body incomplete =>
    have size : F.size (F.strip s) = 0 := Nat.eq_zero_of_not_pos incomplete
    rw [frame_incomplete F size, ← frame_strip F (s ++ t), ← frame_strip F (F.strip s ++ t),
      F.strip_append_strip]
    rfl

theorem frame_suffix (s : List α) : (frame F s).2 <:+ s := by
  induction s using frame.induct F with
  | case1 s body complete ih =>
    rw [frame_complete F complete]
    exact ih.trans ((List.drop_suffix _ _).trans (List.dropWhile_suffix _))
  | case2 s body incomplete =>
    rw [frame_incomplete F (Nat.eq_zero_of_not_pos incomplete)]
    exact List.dropWhile_suffix _

theorem frame_prefix {s t : List α} (part : s <+: t) : (frame F s).1 <+: (frame F t).1 := by
  obtain ⟨rest, rfl⟩ := part
  rw [frame_append]
  exact List.prefix_append _ _

/-- What is left in front begins the first unit, whatever follows it. -/
theorem frame_head (rest : F.Remainder r) (nonempty : r ≠ []) {t : List α}
    (framed : (frame F (r ++ t)).1 = u :: us) : u.head? = r.head? := by
  have strip : F.strip (r ++ t) = r ++ t := by
    rw [F.strip_append_of_ne t (rest.strip.symm ▸ nonempty), rest.strip]
  cases Nat.eq_zero_or_pos (F.size (F.strip (r ++ t))) with
  | inl incomplete =>
    rw [frame_incomplete F incomplete] at framed
    contradiction
  | inr complete =>
    rw [frame_complete F complete, strip] at framed
    obtain ⟨rfl, _⟩ := List.cons.inj framed
    rw [strip] at complete
    rw [List.head?_take, if_neg (by omega), List.head?_append_of_ne_nil _ nonempty]

/-- `s` is the units in order and then the rest, with filler in front of any of them. -/
inductive Interleaves : List α → List (List α) → List α → Prop where
  | rest (r) : Interleaves r [] r
  | fill : F.fill a = true → Interleaves s us r → Interleaves (a :: s) us r
  | unit (u) : Interleaves s us r → Interleaves (u ++ s) (u :: us) r

theorem Interleaves.strip {F : Format α} (behind : Interleaves F (F.strip s) us r) :
    Interleaves F s us r := by
  induction s with
  | nil => exact behind
  | cons a s ih =>
    by_cases filled : F.fill a = true
    · exact .fill filled (ih (by simpa only [Format.strip, List.dropWhile_cons_of_pos filled] using behind))
    · simpa only [Format.strip, List.dropWhile_cons_of_neg filled] using behind

/-- Framing drops nothing but filler, and filler only between units. -/
theorem frame_interleaves (s : List α) : Interleaves F s (frame F s).1 (frame F s).2 := by
  induction s using frame.induct F with
  | case1 s body complete ih =>
    have split := Interleaves.unit ((F.strip s).take (F.size (F.strip s))) ih
    rw [List.take_append_drop] at split
    rw [frame_complete F complete]
    exact split.strip
  | case2 s body incomplete =>
    rw [frame_incomplete F (Nat.eq_zero_of_not_pos incomplete)]
    exact Interleaves.strip (.rest _)

theorem frame_units (s : List α) : ∀ u ∈ (frame F s).1, F.Unit u := by
  induction s using frame.induct F with
  | case1 s body complete ih =>
    rw [frame_complete F complete]
    intro u member
    rcases List.mem_cons.mp member with rfl | later
    · exact unit_take F complete
    · exact ih u later
  | case2 s body incomplete =>
    rw [frame_incomplete F (Nat.eq_zero_of_not_pos incomplete)]
    intro u member
    contradiction

/-- Whatever the filler, a stream of well-formed units has exactly one framing. -/
theorem frame_of_interleaves (shape : Interleaves F s us r) (units : ∀ u ∈ us, F.Unit u)
    (rest : F.Remainder r) : frame F s = (us, r) := by
  induction shape with
  | rest r => exact frame_of_remainder F rest
  | @fill a s us r filled shape ih =>
    rw [← frame_strip, Format.strip, List.dropWhile_cons_of_pos filled]
    exact (frame_strip F s).trans (ih units rest)
  | @unit s us r u shape ih =>
    rw [frame_unit_append F (units u (by simp)), ih (fun v member => units v (by simp [member])) rest]

theorem frame_iff : frame F s = (us, r) ↔
    Interleaves F s us r ∧ (∀ u ∈ us, F.Unit u) ∧ F.Remainder r := by
  constructor
  · intro framed
    have shape := frame_interleaves F s
    have units := frame_units F s
    have rest := frame_remainder F s
    rw [framed] at shape units rest
    exact ⟨shape, units, rest⟩
  · rintro ⟨shape, units, rest⟩
    exact frame_of_interleaves F shape units rest

end Framing
