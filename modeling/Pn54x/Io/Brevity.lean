import Pn54x.Io.Hexdump

/-! How long a dump is. However much filler there is, every row that is not filler costs
three lines at most, and the filler at the end three. -/
namespace Pn54x

/-- How many rows have something to tell. -/
def busy (rows : List (List Octet)) : Nat := rows.countP fun row => !decide (Filler row)

theorem busy_snoc (rows : List (List Octet)) (row : List Octet) :
    busy (rows ++ [row]) = busy rows + if Filler row then 0 else 1 := by
  rw [busy, List.countP_append]
  by_cases filler : Filler row <;> simp [busy, filler]

/-- The rows that were told. -/
def Dump.told (octets : String → List Octet) (s : Dump) : List (List Octet) := (s.rows octets).map Prod.snd

/-- The lines so far, with the one that is owed for what is skipped. -/
def Dump.lines (s : Dump) : Nat := s.log.length + min 1 s.skipCount

theorem Dump.print_lines (s : Dump) (buf : String) : (s.print buf).lines = s.lines + 1 := by
  rw [Dump.print_eq, Dump.lines, Dump.lines]
  cases s.skipCount <;> simp

/-- The rows so far pay for the lines so far. Behind a row of 16 fillers two lines more may be
needed, and behind a shorter one nothing is left. -/
structure Brief (octets : String → List Octet) (s : Dump) : Prop where
  counted : s.lines ≤ (s.told octets).length
  plain : s.empty = false → s.lines ≤ 3 * busy (s.told octets)
  filler : s.empty = true → s.emptyLen = 16 → s.log.length ≤ 3 * busy (s.told octets) + 1
  short : s.empty = true → s.emptyLen ≠ 16 → s.ptr = [] ∧ s.lines ≤ 3 * busy (s.told octets) + 3

section
variable {gutilHexdump : List Octet → String × Nat} {octets : String → List Octet} {s t : Dump}

theorem Brief.whole (brief : Brief octets s) (more : s.ptr ≠ []) (empty : s.empty = true) : s.emptyLen = 16 := by
  by_contra other
  exact more (brief.short empty other).1

theorem Brief.lines (brief : Brief octets s) : s.lines ≤ 3 * busy (s.told octets) + 3 := by
  cases empty : s.empty with
  | false =>
    have lines := brief.plain empty
    omega
  | true =>
    by_cases whole : s.emptyLen = 16
    · have lines := brief.filler empty whole
      rw [Dump.lines]
      omega
    · exact (brief.short empty whole).2

/-- A row is skipped only behind a row of 16 fillers. -/
theorem Brief.skips (brief : Brief octets s) (more : s.ptr ≠ []) (empty : s.empty = true) (log : t.log = s.log)
    (still : t.empty = true) (length : t.emptyLen = s.emptyLen) (filler : Filler row)
    (told : t.told octets = s.told octets ++ [row]) : Brief octets t := by
  have whole := brief.whole more empty
  have kept : busy (t.told octets) = busy (s.told octets) := by
    rw [told, busy_snoc, if_pos filler, Nat.add_zero]
  constructor
  · have counted := brief.counted
    rw [Dump.lines] at counted ⊢
    rw [told, log, List.length_append, List.length_singleton]
    omega
  · intro plain
    rw [still] at plain
    contradiction
  · intro _ _
    rw [kept, log]
    exact brief.filler empty whole
  · exact fun _ other => absurd (length.trans whole) other

/-- A row is printed behind one that is not filler, or is not of 16 fillers itself. -/
theorem Brief.prints (brief : Brief octets s) (more : s.ptr ≠ []) (lines : t.lines = s.lines + 1)
    (printed : t.skipCount = 0) (filler : t.empty = decide (Filler row))
    (length : Filler row → t.emptyLen = row.length)
    (first : Filler row → s.empty = true → row.length ≠ 16) (rest : row.length ≠ 16 → t.ptr = [])
    (told : t.told octets = s.told octets ++ [row]) : Brief octets t := by
  have before : s.lines ≤ 3 * busy (s.told octets) + if s.empty then 2 else 0 := by
    cases empty : s.empty with
    | false => simpa using brief.plain empty
    | true =>
      have few := brief.filler empty (brief.whole more empty)
      rw [Dump.lines]
      simp only [if_true]
      omega
  have kept : busy (t.told octets) = busy (s.told octets) + if Filler row then 0 else 1 := by
    rw [told, busy_snoc]
  constructor
  · rw [told, lines, List.length_append, List.length_singleton]
    exact Nat.add_le_add_right brief.counted 1
  · intro empty
    have other : ¬ Filler row := by simpa [empty] using filler
    rw [if_neg other] at kept
    split at before <;> omega
  · intro empty whole
    have alike : Filler row := by simpa [empty] using filler
    have plain : s.empty = false := by
      cases earlier : s.empty with
      | false => rfl
      | true => exact absurd ((length alike).symm.trans whole) (first alike earlier)
    rw [if_pos alike] at kept
    simp only [plain, Bool.false_eq_true, if_false, Nat.add_zero] at before
    rw [Dump.lines, printed] at lines
    omega
  · intro empty short
    have alike : Filler row := by simpa [empty] using filler
    rw [length alike] at short
    rw [if_pos alike] at kept
    refine ⟨rest short, ?_⟩
    split at before <;> omega

theorem Brief.row (faithful : Faithful gutilHexdump octets) (dumping : Dumping octets dir before s)
    (brief : Brief octets s) (more : s.ptr ≠ []) (turned : hexdumpRow gutilHexdump s = .ok t) : Brief octets t := by
  obtain ⟨row, same⟩ : ∃ row, row = s.ptr.take 16 := ⟨_, rfl⟩
  obtain ⟨t', turned', left, _, told⟩ := dumping.row faithful
  obtain rfl := Except.ok.inj (turned'.symm.trans turned)
  have told : t'.told octets = s.told octets ++ [row] := by
    rw [Dump.told, told, List.map_append, ← same]
    rfl
  have rest : row.length ≠ 16 → t'.ptr = [] := by
    intro short
    rw [same, List.length_take] at short
    rw [left]
    exact List.drop_eq_nil_iff.mpr (by omega)
  obtain ⟨buf, rendered, tells⟩ := hexdumpRow_tells faithful dumping.len same
  rw [turned, Except.ok.injEq] at tells
  cases folded : (s.empty && decide (Filler row) && s.emptyLen == row.length) with
  | true =>
    rw [Dump.tell_skips folded] at tells
    simp only [Bool.and_eq_true, decide_eq_true_eq, beq_iff_eq] at folded
    obtain ⟨⟨empty, filler⟩, length⟩ := folded
    refine brief.skips more empty ?_ ?_ ?_ filler told
    · rw [tells]
    · rw [tells]
      exact decide_eq_true filler
    · rw [tells]
      exact length.symm
  | false =>
    obtain ⟨n, emptyLen, prints⟩ := Dump.tell_prints (s := { s with
      empty := decide (Filler row), len := s.len - row.length, ptr := s.ptr.drop row.length }) buf folded
    rw [prints] at tells
    apply brief.prints more
    · rw [tells]
      exact Dump.print_lines _ buf
    · rw [tells]
      change (Dump.print _ buf).skipCount = 0
      rw [Dump.print_eq]
    · rw [tells]
      change (Dump.print _ buf).empty = _
      rw [Dump.print_eq]
    · intro filler
      rw [tells]
      exact emptyLen (decide_eq_true filler)
    · intro filler empty short
      have whole := brief.whole more empty
      simp [empty, filler, whole, short] at folded
    · exact rest
    · exact told

theorem hexdumpLoop_brief (faithful : Faithful gutilHexdump octets) (dumping : Dumping octets dir before s)
    (brief : Brief octets s) (looped : hexdumpLoop gutilHexdump fuel s = .ok t) : Brief octets t := by
  induction fuel generalizing s before with
  | zero => contradiction
  | succ fuel ih =>
    rw [hexdumpLoop] at looped
    split at looped
    · rename_i more
      obtain ⟨m, turned, rest⟩ := Transition.bind_ok.mp looped
      obtain ⟨m', turned', _, dumping', _⟩ := dumping.row faithful
      obtain rfl := Except.ok.inj (turned'.symm.trans turned)
      rw [dumping.len] at more
      have left : s.ptr ≠ [] := List.length_pos_iff.mp (by omega)
      exact ih dumping' (brief.row faithful dumping left turned) rest
    · exact Except.ok.inj looped ▸ brief

/-- A dump has no more lines than rows, and at most three for each row that is not filler and
three more, however long the data is. -/
theorem hexdump_brief (faithful : Faithful gutilHexdump octets) (dir : Char) (data : List Octet)
    (rows : List (List Octet)) (cut : ∀ i, rows[i]? = rowAt data i) (enough : data.length < fuel) :
    ∃ lines, hexdump gutilHexdump fuel dir data data.length = .ok lines ∧
      lines.length ≤ rows.length ∧ lines.length ≤ 3 * busy rows + 3 := by
  have begins : Dumping octets dir none { ptr := data, len := data.length, dir } :=
    ⟨rfl, rfl, nofun, nofun, rfl⟩
  obtain ⟨t, after, looped, _, rest, told, _, each⟩ := hexdumpLoop_tells faithful begins enough
  have brief : Brief octets t := by
    apply hexdumpLoop_brief faithful begins ?_ looped
    exact ⟨Nat.zero_le _, fun _ => Nat.zero_le _, fun _ _ => Nat.zero_le _, by simp⟩
  have same : t.told octets = rows := by
    rw [Dump.told, told]
    apply List.ext_getElem?
    intro i
    rw [cut]
    change (rest.map Prod.snd)[i]? = _
    rw [List.getElem?_map, each, Option.map_map]
    exact Option.map_id'
  have lines : (if t.skipCount ≠ 0 then t.log ++ [.finallySkipped t.skipCount] else t.log).length = t.lines := by
    rw [Dump.lines]
    split
    · rw [List.length_append, List.length_singleton]
      omega
    · omega
  refine ⟨_, by rw [hexdump, looped]; rfl, ?_, ?_⟩
  · rw [lines, ← same]
    exact brief.counted
  · rw [lines, ← same]
    exact brief.lines

end

/-- A whole read of filler takes two lines, and the rest of a row one more. -/
theorem hexdump_brief_filler : ∃ lines,
    hexdump rendering 40 '>' (List.replicate 34 0xff) 34 = .ok lines ∧ lines.length ≤ 3 := by
  have cut (i : Nat) : [List.replicate 16 0xff, List.replicate 16 0xff, List.replicate 2 0xff][i]? =
      rowAt (List.replicate 34 0xff) i := by
    rcases i with _ | _ | _ | i
    · decide
    · decide
    · decide
    · rw [rowAt, if_neg (by rw [List.length_replicate]; omega)]
      rfl
  obtain ⟨lines, dumped, _, few⟩ := hexdump_brief rendering_faithful '>' (List.replicate 34 0xff)
    [List.replicate 16 0xff, List.replicate 16 0xff, List.replicate 2 0xff] cut (show _ < 40 by decide)
  exact ⟨lines, dumped, few.trans (by decide)⟩

end Pn54x
