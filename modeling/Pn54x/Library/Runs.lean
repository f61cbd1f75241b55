import Mathlib.Data.List.Basic

/-! Runs of a partial step function: the inputs are taken one after another and
the first failure ends the run. What every step preserves, every run preserves. -/
namespace Transition
variable {ε α β : Type} {σ ι : Type}

theorem bind_ok {x : Except ε α} {f : α → Except ε β} {b : β} :
    (x >>= f) = .ok b ↔ ∃ a, x = .ok a ∧ f a = .ok b := by
  cases x with
  | error e => simp [bind, Except.bind]
  | ok a => simp [bind, Except.bind]

/-- What fails of two computations in a row is one of them. -/
theorem bind_error {x : Except ε α} {f : α → Except ε β} {P : ε → Prop} (failed : (x >>= f) = .error e)
    (first : x = .error e → P e) (second : ∀ a, x = .ok a → f a = .error e → P e) : P e := by
  cases x with
  | error e' => exact first (congrArg Except.error (Except.error.inj failed))
  | ok a => exact second a rfl failed

theorem pure_ok {a b : α} : (pure a : Except ε α) = .ok b ↔ a = b := by
  simp [pure, Except.pure]

def run (step : σ → ι → Except ε σ) : σ → List ι → Except ε σ
  | s, [] => .ok s
  | s, i :: is => do run step (← step s i) is

variable {step : σ → ι → Except ε σ}

theorem run_nil : run step s [] = .ok t ↔ s = t := by
  simp [run]

theorem run_cons : run step s (i :: is) = .ok t ↔
    ∃ m, step s i = .ok m ∧ run step m is = .ok t := bind_ok

theorem run_append : run step s (is ++ js) = .ok t ↔
    ∃ m, run step s is = .ok m ∧ run step m js = .ok t := by
  induction is generalizing s with
  | nil => simp [run]
  | cons i is ih =>
    rw [List.cons_append, run_cons]
    constructor
    · rintro ⟨a, first, rest⟩
      obtain ⟨m, left, right⟩ := ih.mp rest
      exact ⟨m, run_cons.mpr ⟨a, first, left⟩, right⟩
    · rintro ⟨m, left, right⟩
      obtain ⟨a, first, rest⟩ := run_cons.mp left
      exact ⟨a, first, ih.mpr ⟨m, rest, right⟩⟩

theorem run_snoc : run step s (is ++ [i]) = .ok t ↔
    ∃ m, run step s is = .ok m ∧ step m i = .ok t := by
  rw [run_append]
  constructor
  · rintro ⟨m, before, last⟩
    obtain ⟨u, stepped, done⟩ := run_cons.mp last
    exact ⟨m, before, run_nil.mp done ▸ stepped⟩
  · rintro ⟨m, before, last⟩
    exact ⟨m, before, run_cons.mpr ⟨t, last, run_nil.mpr rfl⟩⟩

/-- A run fails only where one of its steps does, in the state that it is made in. -/
theorem run_error (failed : run step s is = .error e) :
    ∃ before i later m, is = before ++ i :: later ∧ run step s before = .ok m ∧ step m i = .error e := by
  induction is generalizing s with
  | nil => contradiction
  | cons i is ih =>
    cases first : step s i with
    | error e' =>
      simp only [run, first, bind, Except.bind] at failed
      obtain rfl := Except.error.inj failed
      exact ⟨[], i, is, s, rfl, rfl, first⟩
    | ok m =>
      simp only [run, first, bind, Except.bind] at failed
      obtain ⟨before, j, later, u, rfl, ran, stopped⟩ := ih failed
      exact ⟨i :: before, j, later, u, rfl, run_cons.mpr ⟨m, first, ran⟩, stopped⟩

/-- An assertion that every admitted input preserves holds after every run of
admitted inputs. -/
theorem run_invariant {P : σ → Prop} {A : ι → Prop}
    (preserves : ∀ {s i t}, P s → A i → step s i = .ok t → P t)
    (initial : P s) (admitted : ∀ i ∈ is, A i) (path : run step s is = .ok t) : P t := by
  induction is generalizing s with
  | nil => exact run_nil.mp path ▸ initial
  | cons i is ih =>
    obtain ⟨m, first, rest⟩ := run_cons.mp path
    exact ih (preserves initial (admitted i (by simp)) first)
      (fun j member => admitted j (by simp [member])) rest

/-- The same for a relation between the start, the inputs so far and the state. -/
theorem run_history {R : List ι → σ → Prop} {A : ι → Prop}
    (preserves : ∀ {is s i t}, R is s → A i → step s i = .ok t → R (is ++ [i]) t)
    (initial : R l s) (admitted : ∀ i ∈ is, A i) (path : run step s is = .ok t) :
    R (l ++ is) t := by
  induction is generalizing s l with
  | nil => simpa only [List.append_nil] using run_nil.mp path ▸ initial
  | cons i is ih =>
    obtain ⟨m, first, rest⟩ := run_cons.mp path
    have next := ih (preserves initial (admitted i (by simp)) first)
      (fun j member => admitted j (by simp [member])) rest
    simpa only [List.append_assoc, List.singleton_append] using next

/-- Every input of a run is admitted in the state that it is taken in. -/
def along (step : σ → ι → Except ε σ) (A : σ → ι → Prop) : σ → List ι → Prop
  | _, [] => True
  | s, i :: is => A s i ∧ ∀ t, step s i = .ok t → along step A t is

theorem along_ok {A : σ → ι → Prop} (first : step s i = .ok t) :
    along step A s (i :: is) ↔ A s i ∧ along step A t is := by
  simp [along, first]

theorem along_error {A : σ → ι → Prop} (failed : step s i = .error e) :
    along step A s (i :: is) ↔ A s i := by
  simp [along, failed]

instance decidableAlong (step : σ → ι → Except ε σ) (A : σ → ι → Prop) [∀ s i, Decidable (A s i)] :
    (s : σ) → (is : List ι) → Decidable (along step A s is)
  | _, [] => .isTrue trivial
  | s, i :: is =>
    match first : step s i with
    | .ok t =>
      have := decidableAlong step A t is
      decidable_of_iff _ (along_ok first).symm
    | .error _ => decidable_of_iff _ (along_error first).symm

theorem along_all {A : σ → ι → Prop} (all : ∀ s i, A s i) : along step A s is := by
  induction is generalizing s with
  | nil => trivial
  | cons i is ih => exact ⟨all s i, fun t _ => ih⟩

theorem along_mono {A B : σ → ι → Prop} (weaker : ∀ {s i}, A s i → B s i) (admitted : along step A s is) :
    along step B s is := by
  induction is generalizing s with
  | nil => trivial
  | cons i is ih => exact ⟨weaker admitted.1, fun t first => ih (admitted.2 t first)⟩

theorem along_and {A : ι → Prop} {B : σ → ι → Prop} (inputs : ∀ i ∈ is, A i)
    (states : along step B s is) : along step (fun s i => A i ∧ B s i) s is := by
  induction is generalizing s with
  | nil => trivial
  | cons i is ih =>
    exact ⟨⟨inputs i (by simp), states.1⟩, fun t first =>
      ih (fun j member => inputs j (by simp [member])) (states.2 t first)⟩

theorem run_along {P : σ → Prop} {A : σ → ι → Prop}
    (preserves : ∀ {s i t}, P s → A s i → step s i = .ok t → P t)
    (initial : P s) (admitted : along step A s is) (path : run step s is = .ok t) : P t := by
  induction is generalizing s with
  | nil => exact run_nil.mp path ▸ initial
  | cons i is ih =>
    obtain ⟨m, first, rest⟩ := run_cons.mp path
    exact ih (preserves initial admitted.1 first) (admitted.2 m first) rest

end Transition
