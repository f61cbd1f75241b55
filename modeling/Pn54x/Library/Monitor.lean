import Mathlib.Data.List.Basic
import Mathlib.Data.List.Infix

/-! Monitors over logs: a mode that every event updates, and the events that are bad in
a mode. -/
namespace Monitor
variable {μ ε : Type} (next : μ → ε → μ)

def after (m : μ) (log : List ε) : μ := log.foldl next m

/-- No event of the log is bad in the mode that it happens in. -/
def Never (bad : μ → ε → Bool) : μ → List ε → Prop
  | _, [] => True
  | m, e :: log => bad m e = false ∧ Never bad (next m e) log

instance decidableNever (bad : μ → ε → Bool) : (m : μ) → (log : List ε) → Decidable (Never next bad m log)
  | _, [] => .isTrue trivial
  | m, e :: log =>
    have := decidableNever bad (next m e) log
    inferInstanceAs (Decidable (_ ∧ _))

variable {next} {bad : μ → ε → Bool}

theorem after_append (m : μ) (log log' : List ε) :
    after next m (log ++ log') = after next (after next m log) log' := List.foldl_append ..

theorem never_append : Never next bad m (log ++ log') ↔
    Never next bad m log ∧ Never next bad (after next m log) log' := by
  induction log generalizing m with
  | nil => simp [Never, after]
  | cons e log ih =>
    simp only [List.cons_append, Never, ih, and_assoc]
    rfl

theorem never_snoc : Never next bad m (log ++ [e]) ↔
    Never next bad m log ∧ bad (after next m log) e = false := by
  rw [never_append]
  simp [Never]

theorem never_earlier (part : log <+: log') (never : Never next bad m log') : Never next bad m log := by
  obtain ⟨rest, rfl⟩ := part
  exact (never_append.mp never).1

/-- Events that are nowhere bad and change no mode make no difference. -/
theorem after_inert {log : List ε} (inert : ∀ e ∈ log, ∀ m, next m e = m) (m : μ) :
    after next m log = m := by
  induction log with
  | nil => rfl
  | cons e log ih =>
    change after next (next m e) log = m
    rw [inert e (by simp)]
    exact ih fun e' member => inert e' (by simp [member])

theorem never_inert {log : List ε} (inert : ∀ e ∈ log, ∀ m, bad m e = false) (m : μ) :
    Never next bad m log := by
  induction log generalizing m with
  | nil => trivial
  | cons e log ih =>
    exact ⟨inert e (by simp) m, ih (fun e' member => inert e' (by simp [member])) _⟩

end Monitor
