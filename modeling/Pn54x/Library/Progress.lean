import Pn54x.Library.Runs

/-! How far runs can go. Where every input that makes progress lowers a measure that no
input raises, a run makes only so much progress, and it can go on until none is left
to make. -/
namespace Transition
variable {ε : Type} {σ ι : Type}

/-- No admitted input that makes progress can be taken. -/
def Settled (step : σ → ι → Except ε σ) (A : ι → Prop) (progress : ι → Bool) (s : σ) : Prop :=
  ∀ i t, A i → step s i = .ok t → progress i = false

/-- Admitted inputs keep `P`, and while it holds progress is paid for with the measure. -/
structure Spends (step : σ → ι → Except ε σ) (P : σ → Prop) (A : ι → Prop) (progress : ι → Bool)
    (measure : σ → Nat) : Prop where
  keeps : ∀ {s i t}, P s → A i → step s i = .ok t → P t
  pays : ∀ {s i t}, P s → A i → step s i = .ok t → measure t + (progress i).toNat ≤ measure s

variable {step : σ → ι → Except ε σ} {P : σ → Prop} {A : ι → Prop} {progress : ι → Bool} {measure : σ → Nat}

theorem Spends.bounded (spends : Spends step P A progress measure) (initial : P s) (admitted : ∀ i ∈ is, A i)
    (path : run step s is = .ok t) : measure t + is.countP progress ≤ measure s := by
  induction is generalizing s with
  | nil =>
    obtain rfl := run_nil.mp path
    simp
  | cons i is ih =>
    obtain ⟨m, first, rest⟩ := run_cons.mp path
    have admits : A i := admitted i (by simp)
    have paid := spends.pays initial admits first
    have later := ih (spends.keeps initial admits first) (fun j member => admitted j (by simp [member])) rest
    rw [List.countP_cons]
    cases makes : progress i with
    | true =>
      simp only [makes, Bool.toNat_true] at paid
      simp only [if_true]
      omega
    | false =>
      simp only [makes, Bool.toNat_false] at paid
      simp only [Bool.false_eq_true, if_false]
      omega

/-- From everywhere a run can be continued until it is settled. -/
theorem Spends.settles (spends : Spends step P A progress measure) (initial : P s) :
    ∃ is t, (∀ i ∈ is, A i) ∧ run step s is = .ok t ∧ Settled step A progress t := by
  induction cost : measure s using Nat.strongRecOn generalizing s with
  | _ n ih =>
    by_cases settled : Settled step A progress s
    · exact ⟨[], s, by simp, run_nil.mpr rfl, settled⟩
    · simp only [Settled, not_forall, Bool.not_eq_false] at settled
      obtain ⟨i, m, admits, first, makes⟩ := settled
      have paid := spends.pays initial admits first
      rw [makes, Bool.toNat_true] at paid
      obtain ⟨is, t, admitted, path, settled⟩ :=
        ih (measure m) (by omega) (spends.keeps initial admits first) rfl
      refine ⟨i :: is, t, ?_, run_cons.mpr ⟨m, first, path⟩, settled⟩
      intro j member
      cases List.mem_cons.mp member with
      | inl same => exact same ▸ admits
      | inr later => exact admitted j later

end Transition
