import Pn54x.Io.ReadLoop

/-! The hex dump of the traffic. Rows of the filler octet are folded, and the lines that
are logged still tell every octet. `len` is an `int` that only decreases, and no count
exceeds it. -/
namespace Pn54x

/-- A line that is logged: "%c %s", "  %u line(s) skipped" or "  ... %u line(s) skipped". -/
inductive LogLine where
  | row (dir : Char) (buf : String)
  | skipped (count : Nat)
  | finallySkipped (count : Nat)
  deriving DecidableEq, Repr

/-- The variables of `pn54x_hexdump`, and what was logged. -/
structure Dump where
  ptr : List Octet
  len : Int
  dir : Char
  empty : Bool := false
  emptyLen : Nat := 0
  skipCount : Nat := 0
  log : List LogLine := []
  deriving DecidableEq, Repr

/-- The loop over the octets of a row, of which `left` are left at the place `i`. -/
def rowEmpty (ptr : List Octet) (i : Nat) : (left : Nat) → Exec Bool
  | 0 => .ok true
  | left + 1 => do
    if (← deref ptr i) ≠ 0xff then .ok false else rowEmpty ptr (i + 1) left

/-- Printing a row, behind the count of what was skipped before it. -/
def Dump.print (s : Dump) (buf : String) : Dump :=
  let s := if s.skipCount ≠ 0 then { s with log := s.log ++ [.skipped s.skipCount], skipCount := 0 } else s
  { s with log := s.log ++ [.row s.dir buf], dir := ' ' }

/-- Skipping or printing the row that was consumed. -/
def Dump.tell (s : Dump) (wasEmpty : Bool) (consumed : Nat) (buf : String) : Dump :=
  let s :=
    if wasEmpty && s.empty && s.emptyLen == consumed then { s with skipCount := s.skipCount + 1 }
    else s.print buf
  if s.empty then { s with emptyLen := consumed } else s

section
variable (gutilHexdump : List Octet → String × Nat)

/-- One turn of the loop of `pn54x_hexdump`. -/
def hexdumpRow (s : Dump) : Exec Dump := do
  let wasEmpty := s.empty
  let (buf, consumed) := gutilHexdump (s.ptr.take s.len.toNat)
  -- Don't print boring ff's too many times
  let empty ← rowEmpty s.ptr 0 consumed
  let s := { s with empty, len := s.len - consumed, ptr := s.ptr.drop consumed }
  .ok (s.tell wasEmpty consumed buf)

def hexdumpLoop : Nat → Dump → Exec Dump
  | 0, _ => .error .noFuel
  | fuel + 1, s => if 0 < s.len then do hexdumpLoop fuel (← hexdumpRow gutilHexdump s) else .ok s

/-- `pn54x_hexdump`. -/
def hexdump (fuel : Nat) (dir : Char) (data : List Octet) (len : Int) : Exec (List LogLine) := do
  let s ← hexdumpLoop gutilHexdump fuel { ptr := data, len, dir }
  .ok (if s.skipCount ≠ 0 then s.log ++ [.finallySkipped s.skipCount] else s.log)

end

/-- What is relied on of `gutil_hexdump`; `octets` reads its text. -/
structure Faithful (gutilHexdump : List Octet → String × Nat) (octets : String → List Octet) : Prop where
  consumed : ∀ data, (gutilHexdump data).2 = min 16 data.length
  rendered : ∀ data, octets (gutilHexdump data).1 = data.take 16

/-- The rows of a dump, each with whether it was folded into the `last` printed one. -/
def expandRows (octets : String → List Octet) (last : List Octet) : List LogLine → List (Bool × List Octet)
  | [] => []
  | .row _ buf :: lines => (false, octets buf) :: expandRows octets (octets buf) lines
  | .skipped count :: lines | .finallySkipped count :: lines =>
    List.replicate count (true, last) ++ expandRows octets last lines

/-- The octets that a dump tells. -/
def expand (octets : String → List Octet) (lines : List LogLine) : List Octet :=
  (expandRows octets [] lines).flatMap Prod.snd

/-- The directions of the printed rows. -/
def directions : List LogLine → List Char
  | [] => []
  | .row dir _ :: lines => dir :: directions lines
  | .skipped _ :: lines | .finallySkipped _ :: lines => directions lines

def Filler (row : List Octet) : Prop := ∀ octet ∈ row, octet = 0xff

instance (row : List Octet) : Decidable (Filler row) :=
  decidable_of_iff (row.all (· == 0xff) = true) (by simp [Filler])

/-- A row looks like the one before it, and neither has anything but the filler. -/
def folds (before : Option (List Octet)) (row : List Octet) : Bool :=
  before.any fun b => Filler b ∧ Filler row ∧ b.length = row.length

/-- The row of 16 octets, or of what is left, at a place of the data. -/
def rowAt (data : List Octet) (i : Nat) : Option (List Octet) :=
  if 16 * i < data.length then some ((data.drop (16 * i)).take 16) else none

/-- The row that comes before it; `before` is what comes before the data. -/
def rowBefore (before : Option (List Octet)) (data : List Octet) : Nat → Option (List Octet)
  | 0 => before
  | i + 1 => rowAt data i

theorem rowAt_zero {data : List Octet} (more : 0 < data.length) : rowAt data 0 = some (data.take 16) := by
  simp [rowAt, List.length_pos_iff.mp more]

theorem rowAt_succ (data : List Octet) (i : Nat) : rowAt data (i + 1) = rowAt (data.drop 16) i := by
  have inside : 16 * (i + 1) < data.length ↔ 16 * i < (data.drop 16).length := by
    rw [List.length_drop]
    omega
  unfold rowAt
  rw [List.drop_drop, Nat.mul_succ, Nat.add_comm (16 * i) 16]
  simp only [← inside, Nat.mul_succ, Nat.add_comm (16 * i) 16]

theorem rowBefore_succ {data : List Octet} (before : Option (List Octet)) (more : 0 < data.length) (i : Nat) :
    rowBefore before data (i + 1) = rowBefore (some (data.take 16)) (data.drop 16) i := by
  cases i with
  | zero => exact rowAt_zero more
  | succ i => exact rowAt_succ data i

theorem filler_cons {octet : Octet} {row : List Octet} : Filler (octet :: row) ↔ octet = 0xff ∧ Filler row :=
  List.forall_mem_cons

theorem rowEmpty_eq {ptr : List Octet} {i left : Nat} (within : i + left ≤ ptr.length) :
    rowEmpty ptr i left = .ok (decide (Filler ((ptr.drop i).take left))) := by
  induction left generalizing i with
  | zero => simp [rowEmpty, Filler]
  | succ left ih =>
    have inside : i < ptr.length := by omega
    have found := List.getElem?_eq_getElem inside
    rw [rowEmpty, deref_of_getElem? found, ih (by omega), List.drop_eq_getElem_cons inside, List.take_succ_cons]
    simp only [bind, Except.bind, filler_cons]
    split
    · rename_i other
      simp [other]
    · rename_i filler
      simp [not_not.mp filler]

/-- The printed row that later lines refer to. -/
def lastRow (octets : String → List Octet) (last : List Octet) : List LogLine → List Octet
  | [] => last
  | .row _ buf :: lines => lastRow octets (octets buf) lines
  | .skipped _ :: lines | .finallySkipped _ :: lines => lastRow octets last lines

theorem expandRows_append (octets : String → List Octet) (last : List Octet) (lines later : List LogLine) :
    expandRows octets last (lines ++ later) =
      expandRows octets last lines ++ expandRows octets (lastRow octets last lines) later := by
  induction lines generalizing last with
  | nil => rfl
  | cons line lines ih => cases line <;> simp [expandRows, lastRow, ih]

theorem lastRow_append (octets : String → List Octet) (last : List Octet) (lines later : List LogLine) :
    lastRow octets last (lines ++ later) = lastRow octets (lastRow octets last lines) later := by
  induction lines generalizing last with
  | nil => rfl
  | cons line lines ih => cases line <;> simp [lastRow, ih]

theorem directions_append (lines later : List LogLine) :
    directions (lines ++ later) = directions lines ++ directions later := by
  induction lines with
  | nil => rfl
  | cons line lines ih => cases line <;> simp [directions, ih]

/-- What the dump would tell if it ended here. -/
def Dump.rows (octets : String → List Octet) (s : Dump) : List (Bool × List Octet) :=
  expandRows octets [] s.log ++ List.replicate s.skipCount (true, lastRow octets [] s.log)

/-- What the variables say about the row `before`. -/
structure Dumping (octets : String → List Octet) (dir : Char) (before : Option (List Octet)) (s : Dump) : Prop where
  len : s.len = s.ptr.length
  empty : s.empty = before.any fun b => Filler b
  same : s.empty = true → before = some (lastRow octets [] s.log) ∧ s.emptyLen = (lastRow octets [] s.log).length
  marks : ∀ i c, (directions s.log)[i]? = some c → c = if i = 0 then dir else ' '
  mark : s.dir = if directions s.log = [] then dir else ' '

theorem filler_eq {row row' : List Octet} (filler : Filler row) (filler' : Filler row')
    (length : row.length = row'.length) : row = row' := by
  rw [List.eq_replicate_of_mem filler, List.eq_replicate_of_mem filler', length]

theorem Dump.print_eq (s : Dump) (buf : String) : s.print buf = { s with
    log := s.log ++ (if s.skipCount ≠ 0 then [.skipped s.skipCount] else []) ++ [.row s.dir buf]
    skipCount := 0, dir := ' ' } := by
  unfold Dump.print
  split
  · rfl
  · simp [not_not.mp ‹_›]

theorem Dump.tell_skips {s : Dump} (folded : (wasEmpty && s.empty && s.emptyLen == consumed) = true) :
    s.tell wasEmpty consumed buf = { s with skipCount := s.skipCount + 1, emptyLen := consumed } := by
  have empty : s.empty = true := by
    simp only [Bool.and_eq_true] at folded
    exact folded.1.2
  unfold Dump.tell
  rw [if_pos folded]
  exact if_pos empty

theorem Dump.tell_prints {s : Dump} (buf : String) (printed : (wasEmpty && s.empty && s.emptyLen == consumed) = false) :
    ∃ n, (s.empty = true → n = consumed) ∧
      s.tell wasEmpty consumed buf = { s.print buf with emptyLen := n } := by
  have empty : (s.print buf).empty = s.empty := by rw [Dump.print_eq]
  unfold Dump.tell
  rw [if_neg (Bool.eq_false_iff.mp printed), ← empty]
  cases filler : (s.print buf).empty with
  | true => exact ⟨consumed, fun _ => rfl, if_pos filler⟩
  | false => exact ⟨(s.print buf).emptyLen, nofun, if_neg (Bool.eq_false_iff.mp filler)⟩

/-- Printing tells what was skipped, and the row. -/
theorem Dump.print_rows (octets : String → List Octet) (s : Dump) (buf : String) :
    (s.print buf).rows octets = s.rows octets ++ [(false, octets buf)] := by
  rw [Dump.print_eq]
  simp only [Dump.rows, expandRows_append, lastRow_append]
  split <;> simp_all [expandRows]

section
variable {gutilHexdump : List Octet → String × Nat} {octets : String → List Octet} {s : Dump}

/-- A turn consumes a row and tells it. -/
theorem hexdumpRow_tells {row : List Octet} (faithful : Faithful gutilHexdump octets) (len : s.len = s.ptr.length)
    (same : row = s.ptr.take 16) : ∃ buf, octets buf = row ∧
    hexdumpRow gutilHexdump s = .ok (Dump.tell { s with
      empty := decide (Filler row), len := s.len - row.length, ptr := s.ptr.drop row.length } s.empty row.length buf) := by
  have all : s.ptr.take s.len.toNat = s.ptr := by simp [len]
  have consumed : (gutilHexdump s.ptr).2 = row.length := by rw [faithful.consumed, same, List.length_take]
  have scanned : rowEmpty s.ptr 0 row.length = .ok (decide (Filler row)) := by
    rw [rowEmpty_eq (by rw [same, List.length_take]; omega), List.drop_zero]
    rw [same, List.length_take, ← List.take_take, List.take_length]
  refine ⟨(gutilHexdump s.ptr).1, by rw [faithful.rendered, same], ?_⟩
  unfold hexdumpRow
  simp only [all, consumed, scanned, bind, Except.bind]

/-- The variables tell whether a row is folded. -/
theorem Dumping.folds {row : List Octet} (dumping : Dumping octets dir before s) :
    (s.empty && decide (Filler row) && s.emptyLen == row.length) = folds before row := by
  cases empty : s.empty with
  | false =>
    have other := dumping.empty
    rw [empty] at other
    cases before with
    | none => rfl
    | some b =>
      have unlike : ¬ Filler b := by simpa using other.symm
      simp [Pn54x.folds, unlike]
  | true =>
    obtain ⟨rfl, length⟩ := dumping.same empty
    have filler : Filler (lastRow octets [] s.log) := by simpa [empty] using dumping.empty
    simp [Pn54x.folds, filler, length, beq_eq_decide]

/-- What a skipped row leaves behind. -/
theorem Dumping.skip {row : List Octet} (dumping : Dumping octets dir before s) (within : row.length ≤ s.ptr.length)
    (folded : Pn54x.folds before row = true) :
    Dumping octets dir (some row) { s with
      empty := true, len := s.len - row.length, ptr := s.ptr.drop row.length
      skipCount := s.skipCount + 1, emptyLen := row.length } ∧ row = lastRow octets [] s.log := by
  rw [← dumping.folds] at folded
  simp only [Bool.and_eq_true, decide_eq_true_eq, beq_iff_eq] at folded
  obtain ⟨⟨empty, filler⟩, length⟩ := folded
  obtain ⟨known, emptyLen⟩ := dumping.same empty
  have last : Filler (lastRow octets [] s.log) := by simpa [empty, known] using dumping.empty
  have same := filler_eq filler last (length.symm.trans emptyLen)
  refine ⟨?_, same⟩
  constructor
  · rw [dumping.len, List.length_drop, Int.natCast_sub within]
  · simpa using filler
  · exact fun _ => ⟨congrArg some same, congrArg List.length same⟩
  · exact dumping.marks
  · exact dumping.mark

/-- What a printed row leaves behind. -/
theorem Dumping.print {row : List Octet} (dumping : Dumping octets dir before s) (within : row.length ≤ s.ptr.length)
    (rendered : octets buf = row) (emptyLen : Filler row → n = row.length) :
    Dumping octets dir (some row) { Dump.print { s with
      empty := decide (Filler row), len := s.len - row.length, ptr := s.ptr.drop row.length } buf with
      emptyLen := n } := by
  rw [Dump.print_eq]
  have marks : directions (s.log ++ (if s.skipCount ≠ 0 then [.skipped s.skipCount] else []) ++ [.row s.dir buf]) =
      directions s.log ++ [s.dir] := by
    rw [directions_append, directions_append]
    split <;> simp [directions]
  constructor
  · rw [dumping.len, List.length_drop, Int.natCast_sub within]
  · simp
  · intro empty
    rw [lastRow_append, lastRow, lastRow, rendered]
    exact ⟨rfl, emptyLen (of_decide_eq_true empty)⟩
  · intro i c known
    rw [marks] at known
    by_cases earlier : i < (directions s.log).length
    · rw [List.getElem?_append_left earlier] at known
      exact dumping.marks i c known
    · rw [List.getElem?_append_right (Nat.not_lt.mp earlier)] at known
      rw [List.getElem?_singleton] at known
      split at known
      · have place : i = 0 ↔ directions s.log = [] := by
          rw [← List.length_eq_zero_iff]
          omega
        rw [← Option.some.inj known, dumping.mark]
        simp only [place]
      · contradiction
  · rw [marks]
    simp

theorem Dumping.row {s : Dump} (faithful : Faithful gutilHexdump octets) (dumping : Dumping octets dir before s) :
    ∃ t, hexdumpRow gutilHexdump s = .ok t ∧ t.ptr = s.ptr.drop 16 ∧
      Dumping octets dir (some (s.ptr.take 16)) t ∧
      t.rows octets = s.rows octets ++ [(Pn54x.folds before (s.ptr.take 16), s.ptr.take 16)] := by
  obtain ⟨row, same⟩ : ∃ row, row = s.ptr.take 16 := ⟨_, rfl⟩
  obtain ⟨buf, rendered, turned⟩ := hexdumpRow_tells faithful dumping.len same
  have within : row.length ≤ s.ptr.length := by
    rw [same]
    exact List.length_take_le' _ _
  have consumed : s.ptr.drop row.length = s.ptr.drop 16 := by
    rw [same, List.length_take]
    exact List.drop_eq_drop_min.symm
  rw [← same, turned]
  refine ⟨_, rfl, ?_⟩
  cases folded : Pn54x.folds before row with
  | true =>
    obtain ⟨skipped, last⟩ := dumping.skip within folded
    rw [← dumping.folds] at folded
    have filler : decide (Filler row) = true := by
      simp only [Bool.and_eq_true] at folded
      exact folded.1.2
    rw [Dump.tell_skips folded, filler]
    refine ⟨consumed, skipped, ?_⟩
    simp only [Dump.rows, List.replicate_succ', List.append_assoc]
    rw [← last]
  | false =>
    rw [← dumping.folds] at folded
    obtain ⟨n, emptyLen, told⟩ := Dump.tell_prints (s := { s with
      empty := decide (Filler row), len := s.len - row.length, ptr := s.ptr.drop row.length }) buf folded
    rw [told]
    refine ⟨?_, dumping.print within rendered fun filler => emptyLen (decide_eq_true filler), ?_⟩
    · rw [Dump.print_eq]
      exact consumed
    · rw [← rendered]
      exact Dump.print_rows octets _ buf

/-- The loop ends, and tells every row that is left. -/
theorem hexdumpLoop_tells {s : Dump} (faithful : Faithful gutilHexdump octets) (dumping : Dumping octets dir before s)
    (enough : s.ptr.length < fuel) : ∃ t after, hexdumpLoop gutilHexdump fuel s = .ok t ∧
      Dumping octets dir after t ∧ ∃ rows, t.rows octets = s.rows octets ++ rows ∧ rows.flatMap Prod.snd = s.ptr ∧
      ∀ i, rows[i]? = (rowAt s.ptr i).map fun row => (Pn54x.folds (rowBefore before s.ptr i) row, row) := by
  induction fuel generalizing s before with
  | zero => omega
  | succ fuel ih =>
    rw [hexdumpLoop]
    split
    · rename_i more
      rw [dumping.len] at more
      obtain ⟨m, turned, left, dumping', told⟩ := dumping.row faithful
      have shorter : m.ptr.length < fuel := by
        rw [left, List.length_drop]
        omega
      obtain ⟨t, after, looped, ends, rows, rest, octets', each⟩ := ih dumping' shorter
      refine ⟨t, after, by rw [turned]; exact looped, ends,
        (Pn54x.folds before (s.ptr.take 16), s.ptr.take 16) :: rows, ?_, ?_, ?_⟩
      · rw [rest, told, List.append_assoc, List.singleton_append]
      · rw [List.flatMap_cons, octets', left, List.take_append_drop]
      · have some : 0 < s.ptr.length := by omega
        rintro (_ | i)
        · rw [rowAt_zero some]
          rfl
        · rw [List.getElem?_cons_succ, each i, left, rowAt_succ, rowBefore_succ before some]
    · rename_i ended
      rw [dumping.len] at ended
      have nothing : s.ptr = [] := List.length_eq_zero_iff.mp (by omega)
      refine ⟨s, before, rfl, dumping, [], (List.append_nil _).symm, nothing.symm, fun i => ?_⟩
      simp [rowAt, nothing]

/-- Of every input the loop ends, the lines tell it whole, a row is folded exactly where it
looks like the filler row before it, and the first printed row alone has the mark. -/
theorem hexdump_tells (faithful : Faithful gutilHexdump octets) (dir : Char) (data : List Octet)
    (enough : data.length < fuel) : ∃ lines, hexdump gutilHexdump fuel dir data data.length = .ok lines ∧
      expand octets lines = data ∧
      (∀ i, (expandRows octets [] lines)[i]? =
        (rowAt data i).map fun row => (folds (rowBefore none data i) row, row)) ∧
      ∀ i c, (directions lines)[i]? = some c → c = if i = 0 then dir else ' ' := by
  have begins : Dumping octets dir none { ptr := data, len := data.length, dir } :=
    ⟨rfl, rfl, nofun, nofun, rfl⟩
  obtain ⟨t, after, looped, ends, rows, told, whole, each⟩ := hexdumpLoop_tells faithful begins enough
  obtain ⟨lines, same⟩ : ∃ lines, lines = if t.skipCount ≠ 0 then t.log ++ [.finallySkipped t.skipCount] else t.log :=
    ⟨_, rfl⟩
  have expanded : expandRows octets [] lines = rows := by
    have rest : t.rows octets = rows := told.trans (List.nil_append _)
    rw [← rest, same, Dump.rows]
    split
    · rw [expandRows_append]
      simp [expandRows]
    · simp [not_not.mp ‹_›]
  have marks : directions lines = directions t.log := by
    rw [same]
    split
    · rw [directions_append]
      exact List.append_nil _
    · rfl
  refine ⟨lines, ?_, ?_, ?_, ?_⟩
  · rw [hexdump, looped, same]
    rfl
  · rw [expand, expanded, whole]
  · rw [expanded]
    exact each
  · rw [marks]
    exact ends.marks

end

section
/-! A rendering as `gutil_hexdump` makes it: sixteen columns of two digits with a gap in
the middle, and the characters behind them. -/

def cell (octet : Octet) : List Char := [Nat.digitChar (octet.toNat / 16), Nat.digitChar (octet.toNat % 16)]

def gap (left : Nat) : List Char := if left = 16 then [] else if left = 8 then [' ', ' '] else [' ']

def columns : (left : Nat) → List Octet → List Char
  | 0, _ => []
  | left + 1, [] => gap (left + 1) ++ [' ', ' '] ++ columns left []
  | left + 1, octet :: rest => gap (left + 1) ++ cell octet ++ columns left rest

def printable (octet : Octet) : Char :=
  if 0x20 ≤ octet ∧ octet < 0x7f then Char.ofNat octet.toNat else '.'

def characters (row : List Octet) : List Char :=
  (row.take 8).map printable ++ if 8 < row.length then ' ' :: (row.drop 8).map printable else []

def rendering (data : List Octet) : String × Nat :=
  (String.ofList (columns 16 data ++ [' ', ' ', ' ', ' '] ++ characters (data.take 16)), min 16 data.length)

def digit (c : Char) : Nat := (List.range 16).findIdx fun n => Nat.digitChar n = c

def cells : List Char → List Octet
  | high :: low :: rest => UInt8.ofNat (16 * digit high + digit low) :: cells rest
  | _ => []

/-- The octets of the columns. -/
def reading (buf : String) : List Octet := cells ((buf.toList.take 48).filter (· ≠ ' '))

theorem digit_digitChar {n : Nat} (small : n < 16) : digit (Nat.digitChar n) = n := by
  revert n
  decide

theorem digitChar_visible {n : Nat} (small : n < 16) : Nat.digitChar n ≠ ' ' := by
  revert n
  decide

theorem octet_digits (octet : Octet) : octet.toNat / 16 < 16 ∧ octet.toNat % 16 < 16 := by
  have small := octet.toNat_lt
  omega

theorem cells_cell (octet : Octet) (rest : List Char) : cells (cell octet ++ rest) = octet :: cells rest := by
  obtain ⟨high, low⟩ := octet_digits octet
  simp only [cell, List.cons_append, List.nil_append, cells, digit_digitChar high, digit_digitChar low,
    Nat.div_add_mod, UInt8.ofNat_toNat]

theorem cell_visible (octet : Octet) : (cell octet).filter (· ≠ ' ') = cell octet := by
  obtain ⟨high, low⟩ := octet_digits octet
  simp [cell, digitChar_visible high, digitChar_visible low]

theorem gap_blank (left : Nat) : (gap left).filter (· ≠ ' ') = [] := by
  unfold gap
  split
  · rfl
  · split <;> rfl

theorem columns_cells (left : Nat) (data : List Octet) :
    cells ((columns left data).filter (· ≠ ' ')) = data.take left := by
  induction left generalizing data with
  | zero => rfl
  | succ left ih =>
    cases data with
    | nil =>
      rw [columns, List.filter_append, List.filter_append, gap_blank]
      exact (ih []).trans (by simp)
    | cons octet rest =>
      rw [columns, List.filter_append, List.filter_append, gap_blank, List.nil_append, cell_visible, cells_cell, ih,
        List.take_succ_cons]

theorem columns_length (left : Nat) (data : List Octet) : (columns left data).length = (columns left []).length := by
  induction left generalizing data with
  | zero => rfl
  | succ left ih =>
    cases data with
    | nil => rfl
    | cons octet rest => simp [columns, cell, ih rest]

theorem rendering_faithful : Faithful rendering reading := by
  constructor
  · intro data
    rfl
  · intro data
    have width : (columns 16 data).length = 48 := (columns_length 16 data).trans (by decide)
    rw [reading, rendering, String.toList_ofList, List.append_assoc, List.take_left' width, columns_cells]

end

/-- Two filler rows, of which one is folded, and a shorter one. -/
theorem hexdump_tells_filler : ∃ lines,
    hexdump rendering 40 '<' (List.replicate 34 0xff) 34 = .ok lines ∧
      expand reading lines = List.replicate 34 0xff := by
  obtain ⟨lines, dumped, whole, _⟩ :=
    hexdump_tells rendering_faithful '<' (List.replicate 34 0xff) (show _ < 40 by decide)
  exact ⟨lines, dumped, whole⟩

end Pn54x
