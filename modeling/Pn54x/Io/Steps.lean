import Pn54x.Io.Handle

/-! What a dispatch can do, and what no step of the program can do to `read_buf`. -/
namespace Pn54x
open Framing Transition

theorem chars_narrow {octets : List Octet} (short : octets.length ≤ maxPacketSize) {r : List Octet}
    (rest : nci.Remainder r) : Narrow (r ++ octets) := by
  have bound := remainder_length rest
  simp only [Narrow, List.length_append, UInt32.size]
  simp only [maxPacketSize] at short
  omega

theorem ioReadChars_some (answered : ioReadChars count result = .ok (some octets)) :
    octets.length ≤ count ∧ (result = .normal octets ∨ result = .again ∧ octets = []) := by
  cases result with
  | normal octets' =>
    by_cases short : octets'.length ≤ count
    · simp only [ioReadChars, if_pos short] at answered
      obtain rfl := Option.some.inj (Except.ok.inj answered)
      exact ⟨short, .inl rfl⟩
    · simp only [ioReadChars, if_neg short] at answered
      contradiction
  | again =>
    obtain rfl := Option.some.inj (Except.ok.inj answered)
    exact ⟨Nat.zero_le _, .inr ⟨rfl, rfl⟩⟩
  | eof | error => exact absurd (Except.ok.inj answered) (by simp)

theorem ioReadChars_none (answered : ioReadChars count result = .ok none) :
    result = .eof ∨ result = .error := by
  cases result with
  | normal octets =>
    unfold ioReadChars at answered
    by_cases short : octets.length ≤ count
    · simp only [if_pos short] at answered
      exact absurd (Except.ok.inj answered) (by simp)
    · simp only [if_neg short] at answered
      contradiction
  | again => exact absurd (Except.ok.inj answered) (by simp)
  | eof => exact .inl rfl
  | error => exact .inr rfl

/-- The read callback frames what it read, or reports an error and is removed. -/
theorem ioReadCallback_ok {s t : Sys} {id : SourceId}
    (dispatched : ioReadCallback id input calls s = .ok t) :
    (∃ octets, octets.length ≤ maxPacketSize ∧
      (input = some (.normal octets) ∨ input = some .again ∧ octets = []) ∧
      ioReadHandle calls octets s = .ok t) ∨
    (∃ client m, (input = none ∨ input = some .eof ∨ input = some .error) ∧ s.client = some client ∧
      react (calls 0) (Sys.record { s with readWatchId := none } (.error client)) = .ok m ∧
      t = m.removeSource id) := by
  obtain ⟨read, answered, called⟩ := bind_ok.mp dispatched
  cases read with
  | some octets =>
    cases input with
    | none => exact absurd (Except.ok.inj answered) (by simp)
    | some result =>
      obtain ⟨short, came⟩ := ioReadChars_some answered
      exact .inl ⟨octets, short, by simpa using came, called⟩
  | none =>
    have failed : input = none ∨ input = some .eof ∨ input = some .error := by
      cases input with
      | none => exact .inl rfl
      | some result => exact .inr (by simpa using ioReadChars_none answered)
    cases present : s.client with
    | none =>
      simp only [present] at called
      contradiction
    | some client =>
      simp only [present] at called
      obtain ⟨m, reacted, done⟩ := bind_ok.mp called
      exact .inr ⟨client, m, failed, rfl, reacted, (pure_ok.mp done).symm⟩

theorem halIoWriteComplete_ok {s t : Sys} {id : SourceId}
    (called : halIoWriteComplete id calls s = .ok t) :
    ∃ cb m, s.writeId.isSome = true ∧ s.writeCb = some cb ∧
      react calls (Sys.record { s with writeId := none, writeCb := none } (.writeComplete s.client cb true)) =
        .ok m ∧ t = m.removeSource id := by
  unfold halIoWriteComplete at called
  split at called
  · contradiction
  · rename_i scheduled
    split at called
    · contradiction
    · rename_i cb found
      obtain ⟨m, reacted, done⟩ := bind_ok.mp called
      exact ⟨cb, m, by cases h : s.writeId <;> simp_all, found, reacted, (pure_ok.mp done).symm⟩

theorem step_readWatch {s t : Sys} {id : SourceId}
    (stepped : step s (.readWatch id input calls) = .ok t) :
    (id, SourceFunc.readCallback) ∈ s.sources ∧ ioReadCallback id input calls s = .ok t := by
  by_cases scheduled : (id, SourceFunc.readCallback) ∈ s.sources
  · simp only [step, if_pos scheduled] at stepped
    exact ⟨scheduled, stepped⟩
  · simp only [step, if_neg scheduled] at stepped
    contradiction

theorem step_idle {s t : Sys} {id : SourceId} (stepped : step s (.idle id calls) = .ok t) :
    (id, SourceFunc.writeComplete) ∈ s.sources ∧ halIoWriteComplete id calls s = .ok t := by
  by_cases scheduled : (id, SourceFunc.writeComplete) ∈ s.sources
  · simp only [step, if_pos scheduled] at stepped
    exact ⟨scheduled, stepped⟩
  · simp only [step, if_neg scheduled] at stepped
    contradiction

theorem react_remainder {s t : Sys} (rest : nci.Remainder s.readBuf)
    (reacted : react calls s = .ok t) : nci.Remainder t.readBuf := by
  cases react_readBuf reacted with
  | inl same => exact same ▸ rest
  | inr empty => exact empty ▸ nci.remainder_nil

theorem step_remainder {s t : Sys} (rest : nci.Remainder s.readBuf) (stepped : step s i = .ok t) :
    nci.Remainder t.readBuf := by
  cases i with
  | call c =>
    rw [perform_readBuf stepped]
    split
    · exact nci.remainder_nil
    · exact rest
  | readWatch id input calls =>
    rcases ioReadCallback_ok (step_readWatch stepped).2 with
      ⟨octets, short, _, handled⟩ | ⟨client, m, _, _, reacted, rfl⟩
    · exact ioReadHandle_remainder rest (chars_narrow short rest) handled
    · have left : nci.Remainder m.readBuf := react_remainder (by exact rest) reacted
      exact left
  | idle id calls =>
    obtain ⟨cb, m, _, _, reacted, rfl⟩ := halIoWriteComplete_ok (step_idle stepped).2
    have left : nci.Remainder m.readBuf := react_remainder (by exact rest) reacted
    exact left

/-- A new object is one that had its power turned off. -/
theorem ioNew_performed {s : Sys} (created : ioNew env = .ok (some s)) :
    Call.perform {} (.setPower env false) = .ok s := by
  obtain ⟨⟨ok, t⟩, power, new⟩ := bind_ok.mp created
  cases ok with
  | false => exact absurd (pure_ok.mp new) (by simp)
  | true =>
    obtain rfl := Option.some.inj (pure_ok.mp new)
    exact bind_ok.mpr ⟨_, power, rfl⟩

theorem ioNew_remainder {s : Sys} (created : ioNew env = .ok (some s)) : nci.Remainder s.readBuf := by
  rw [perform_readBuf (ioNew_performed created)]
  exact nci.remainder_nil

theorem Reachable.step {s t : Sys} (reached : Reachable s) (stepped : Pn54x.step s i = .ok t) : Reachable t := by
  obtain ⟨env, new, path, created, ran⟩ := reached
  exact ⟨env, new, path ++ [i], created, run_snoc.mpr ⟨s, ran, stepped⟩⟩

/-- In every state that a run reaches, `read_buf` is the beginning of a packet. -/
theorem reachable_remainder (reached : Reachable s) : nci.Remainder s.readBuf := by
  obtain ⟨env, new, path, created, ran⟩ := reached
  exact run_invariant (P := fun s => nci.Remainder s.readBuf) (A := fun _ => True)
    (fun rest _ stepped => step_remainder rest stepped) (ioNew_remainder created) (by simp) ran

end Pn54x
