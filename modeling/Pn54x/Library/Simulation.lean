import Pn54x.Library.Runs
import Mathlib.Data.List.Basic

/-! Reasoning about two computations at once, simulation of runs, and runs whose inputs are
of two sides. Where each side depends on its own view of the state and changes no more
than that, the order in which inputs of different sides come does not matter. -/
namespace Transition
variable {ε : Type} {σ τ ι κ α β γ δ : Type}

/-- Where the first computation succeeds so does the second, with a related result. -/
def Follows (R : α → β → Prop) (x : Except ε α) (y : Except ε β) : Prop :=
  ∀ a, x = .ok a → ∃ b, y = .ok b ∧ R a b

section
variable {R : α → β → Prop} {S : γ → δ → Prop} {x : Except ε α} {y : Except ε β}

theorem follows_ok (related : R a b) : Follows R (.ok a : Except ε α) (.ok b : Except ε β) := by
  rintro _ ⟨⟩
  exact ⟨b, rfl, related⟩

theorem follows_error {e : ε} : Follows R (.error e : Except ε α) y := nofun

theorem Follows.bind {f : α → Except ε γ} {g : β → Except ε δ} (first : Follows R x y)
    (second : ∀ a b, R a b → Follows S (f a) (g b)) : Follows S (x >>= f) (y >>= g) := by
  intro c done
  obtain ⟨a, came, rest⟩ := bind_ok.mp done
  obtain ⟨b, came', related⟩ := first a came
  obtain ⟨d, rest', related'⟩ := second a b related c rest
  exact ⟨d, bind_ok.mpr ⟨b, came', rest'⟩, related'⟩

/-- Both begin with the same. -/
theorem Follows.same {x : Except ε β} {f : β → Except ε γ} {g : β → Except ε δ}
    (second : ∀ a, Follows S (f a) (g a)) : Follows S (x >>= f) (x >>= g) := by
  refine Follows.bind (R := Eq) (fun a came => ⟨a, came, rfl⟩) ?_
  rintro a _ rfl
  exact second a

theorem Follows.mono {R' : α → β → Prop} (follows : Follows R x y) (weaker : ∀ a b, R a b → R' a b) :
    Follows R' x y := by
  intro a came
  obtain ⟨b, came', related⟩ := follows a came
  exact ⟨b, came', weaker a b related⟩

end

/-- Whatever the first machine does in a state, the second does in a related one. -/
theorem follows_run {step : σ → ι → Except ε σ} {step' : τ → κ → Except ε τ} {f : ι → κ}
    {R : σ → τ → Prop} {A : ι → Prop}
    (simulates : ∀ s u i, R s u → A i → Follows R (step s i) (step' u (f i)))
    (related : R s u) (admitted : ∀ i ∈ is, A i) : Follows R (run step s is) (run step' u (is.map f)) := by
  induction is generalizing s u with
  | nil => exact follows_ok related
  | cons i is ih =>
    apply Follows.bind (simulates s u i related (admitted i (by simp)))
    intro m n related'
    exact ih related' fun j member => admitted j (by simp [member])

/-- A machine whose every step is one of another machine, seen through `view`, does no more
than that in a run. -/
theorem run_view {step : σ → ι → Except ε σ} {step' : τ → ι → Except ε τ} {view : σ → τ}
    {P : σ → Prop} {A : ι → Prop}
    (views : ∀ {s i t}, P s → A i → step s i = .ok t → P t ∧ step' (view s) i = .ok (view t))
    (good : P s) (admitted : ∀ i ∈ is, A i) (ran : run step s is = .ok t) :
    run step' (view s) is = .ok (view t) := by
  have simulates (s : σ) (u : τ) (i : ι) (now : P s ∧ u = view s) (admits : A i) :
      Follows (fun t u => P t ∧ u = view t) (step s i) (step' u (id i)) := by
    obtain ⟨good, rfl⟩ := now
    intro t stepped
    obtain ⟨good', stepped'⟩ := views good admits stepped
    exact ⟨view t, stepped', good', rfl⟩
  obtain ⟨_, ran', _, rfl⟩ := follows_run simulates ⟨good, rfl⟩ admitted t ran
  rwa [List.map_id] at ran'

/-- Where the first computation fails there is an excuse, or it is at fault and so is the second. -/
def Blames (Excused : ε → Prop) (fault : ε) (x : Except ε α) (y : Except ε β) : Prop :=
  ∀ e, x = .error e → Excused e ∨ e = fault ∧ y = .error fault

section
variable {Excused : ε → Prop} {fault : ε} {R : α → β → Prop} {x : Except ε α} {y : Except ε β}

theorem blames_ok {a : α} : Blames Excused fault (.ok a) y := nofun

theorem blames_excused (excused : ∀ e, x = .error e → Excused e) : Blames Excused fault x y :=
  fun e failed => .inl (excused e failed)

theorem Blames.bind {f : α → Except ε γ} {g : β → Except ε δ} (blames : Blames Excused fault x y)
    (follows : Follows R x y) (second : ∀ a b, R a b → Blames Excused fault (f a) (g b)) :
    Blames Excused fault (x >>= f) (y >>= g) := by
  cases x with
  | error e =>
    rintro _ ⟨⟩
    rcases blames e rfl with excused | ⟨rfl, failed⟩
    · exact .inl excused
    · exact .inr ⟨rfl, by rw [failed]; rfl⟩
  | ok a =>
    obtain ⟨b, came, related⟩ := follows a rfl
    rw [came]
    exact second a b related

/-- What the second does not do is excused. -/
theorem Blames.after {f : α → Except ε γ} {y : Except ε δ} (excused : ∀ e, x = .error e → Excused e)
    (second : ∀ a, x = .ok a → Blames Excused fault (f a) y) : Blames Excused fault (x >>= f) y := by
  cases x with
  | error e =>
    rintro _ ⟨⟩
    exact .inl (excused e rfl)
  | ok a => exact second a rfl

/-- What the first does behind does not fail. -/
theorem Blames.map {f : α → γ} (blames : Blames Excused fault x y) :
    Blames Excused fault (x >>= fun a => pure (f a)) y := by
  cases x with
  | error e =>
    rintro _ ⟨⟩
    exact blames e rfl
  | ok a => exact blames_ok

end

/-- A machine whose every step is one of another machine, or has an excuse, fails in a run only
where the other does. -/
theorem run_blames {step : σ → ι → Except ε σ} {step' : τ → ι → Except ε τ} {view : σ → τ}
    {P : σ → Prop} {A : ι → Prop} {Excused : ε → Prop} {fault : ε}
    (views : ∀ {s i t}, P s → A i → step s i = .ok t → P t ∧ step' (view s) i = .ok (view t))
    (blames : ∀ {s i}, P s → A i → Blames Excused fault (step s i) (step' (view s) i))
    (good : P s) (admitted : ∀ i ∈ is, A i) : Blames Excused fault (run step s is) (run step' (view s) is) := by
  induction is generalizing s with
  | nil => exact blames_ok
  | cons i is ih =>
    have admits : A i := admitted i (by simp)
    have follows : Follows (fun t u => P t ∧ u = view t) (step s i) (step' (view s) i) := by
      intro t stepped
      obtain ⟨good', stepped'⟩ := views good admits stepped
      exact ⟨view t, stepped', good', rfl⟩
    apply (blames good admits).bind follows
    rintro t _ ⟨good', rfl⟩
    exact ih good' fun j member => admitted j (by simp [member])

/-- `own` is what the inputs of a side see and change, and `other` what they leave alone. -/
structure Confined (step : σ → ι → Except ε σ) (P : σ → Prop) (A : ι → Prop) (own : σ → α) (other : σ → β) :
    Prop where
  sees : ∀ {s s' i}, P s → P s' → A i → own s' = own s →
    Follows (fun t t' => own t' = own t) (step s i) (step s' i)
  leaves : ∀ {s i t}, P s → A i → step s i = .ok t → other t = other s

/-- The two views of the states are the same. -/
def Agree (left : σ → α) (right : σ → β) (s t : σ) : Prop := left t = left s ∧ right t = right s

/-- Two sides, told apart by `side`, each confined to its own view. -/
structure Sides (step : σ → ι → Except ε σ) (P : σ → Prop) (A : ι → Prop) (side : ι → Bool)
    (left : σ → α) (right : σ → β) : Prop where
  keeps : ∀ {s i t}, P s → A i → step s i = .ok t → P t
  confined : Confined step P (fun i => A i ∧ side i = true) left right
  confined' : Confined step P (fun i => A i ∧ side i = false) right left

variable {step : σ → ι → Except ε σ} {P : σ → Prop} {A B : ι → Prop}

section
variable {own : σ → α} {other : σ → β}

/-- Agreeing states go on alike. -/
theorem Confined.follows (confined : Confined step P A own other) (good : P s) (good' : P s') (admits : A i)
    (agree : Agree own other s s') (stepped : step s i = .ok t) :
    ∃ t', step s' i = .ok t' ∧ Agree own other t t' := by
  obtain ⟨t', stepped', same⟩ := confined.sees good good' admits agree.1 _ stepped
  refine ⟨t', stepped', same, ?_⟩
  rw [confined.leaves good' admits stepped', confined.leaves good admits stepped, agree.2]

/-- Two inputs of different sides change places. -/
theorem Confined.swap (mine : Confined step P A own other) (theirs : Confined step P B other own) (good : P s)
    (keeps : ∀ {i t}, A i ∨ B i → step s i = .ok t → P t) (admits : A i) (admits' : B j)
    (first : step s i = .ok m) (second : step m j = .ok t) :
    ∃ m' t', step s j = .ok m' ∧ step m' i = .ok t' ∧ Agree own other t t' := by
  have later : P m := keeps (.inl admits) first
  obtain ⟨m', first', same⟩ := theirs.sees later good admits' (mine.leaves good admits first).symm _ second
  have sooner : P m' := keeps (.inr admits') first'
  obtain ⟨t', second', same'⟩ := mine.sees good sooner admits (theirs.leaves good admits' first') _ first
  refine ⟨m', t', first', second', ?_, ?_⟩
  · rw [same', theirs.leaves later admits' second]
  · rw [mine.leaves sooner admits second', same]

end

variable {side : ι → Bool} {left : σ → α} {right : σ → β}

theorem Agree.trans (first : Agree left right s t) (second : Agree left right t u) : Agree left right s u :=
  ⟨second.1.trans first.1, second.2.trans first.2⟩

theorem Sides.follows (sides : Sides step P A side left right) (good : P s) (good' : P s') (admits : A i)
    (agree : Agree left right s s') (stepped : step s i = .ok t) :
    ∃ t', step s' i = .ok t' ∧ Agree left right t t' := by
  cases which : side i with
  | true => exact sides.confined.follows good good' ⟨admits, which⟩ agree stepped
  | false =>
    obtain ⟨t', stepped', agree'⟩ := sides.confined'.follows good good' ⟨admits, which⟩ agree.symm stepped
    exact ⟨t', stepped', agree'.symm⟩

theorem Sides.runs (sides : Sides step P A side left right) (good : P s) (good' : P s')
    (admitted : ∀ i ∈ is, A i) (agree : Agree left right s s') (path : run step s is = .ok t) :
    ∃ t', run step s' is = .ok t' ∧ Agree left right t t' := by
  have simulates (s s' : σ) (i : ι) (now : P s ∧ P s' ∧ Agree left right s s') (admits : A i) :
      Follows (fun t t' => P t ∧ P t' ∧ Agree left right t t') (step s i) (step s' (id i)) := by
    intro t stepped
    obtain ⟨t', stepped', agree'⟩ := sides.follows now.1 now.2.1 admits now.2.2 stepped
    exact ⟨t', stepped', sides.keeps now.1 admits stepped, sides.keeps now.2.1 admits stepped', agree'⟩
  obtain ⟨t', path', _, _, agree'⟩ := follows_run simulates ⟨good, good', agree⟩ admitted t path
  rw [List.map_id] at path'
  exact ⟨t', path', agree'⟩

theorem Sides.swap (sides : Sides step P A side left right) (good : P s) (admits : A i) (admits' : A j)
    (apart : side i ≠ side j) (first : step s i = .ok m) (second : step m j = .ok t) :
    ∃ m' t', step s j = .ok m' ∧ step m' i = .ok t' ∧ Agree left right t t' := by
  cases which : side i with
  | true =>
    have which' : side j = false := by simpa [which] using apart.symm
    exact sides.confined.swap sides.confined' good (fun admits => sides.keeps good (admits.elim And.left And.left))
      ⟨admits, which⟩ ⟨admits', which'⟩ first second
  | false =>
    have which' : side j = true := by simpa [which] using apart.symm
    obtain ⟨m', t', first', second', agree⟩ := sides.confined'.swap sides.confined good
      (fun admits => sides.keeps good (admits.elim And.left And.left)) ⟨admits, which⟩ ⟨admits', which'⟩ first second
    exact ⟨m', t', first', second', agree.symm⟩

/-- An input may be taken before others of the other side. -/
theorem Sides.front (sides : Sides step P A side left right) (good : P s) (admits : A j)
    (admitted : ∀ i ∈ is, A i ∧ side i ≠ side j) (path : run step s (is ++ [j]) = .ok t) :
    ∃ m t', step s j = .ok m ∧ run step m is = .ok t' ∧ Agree left right t t' := by
  induction is generalizing s t with
  | nil =>
    obtain ⟨m, stepped, done⟩ := run_cons.mp path
    obtain rfl := run_nil.mp done
    exact ⟨m, m, stepped, rfl, rfl, rfl⟩
  | cons i is ih =>
    obtain ⟨m, first, rest⟩ := run_cons.mp path
    obtain ⟨here, apart⟩ := admitted i (by simp)
    have later : ∀ i ∈ is, A i ∧ side i ≠ side j := fun i member => admitted i (by simp [member])
    have good' : P m := sides.keeps good here first
    obtain ⟨n, u, second, others, agree⟩ := ih good' later rest
    obtain ⟨m', n', second', first', agree'⟩ := sides.swap good here admits apart first second
    have good'' : P n' := sides.keeps (sides.keeps good admits second') here first'
    obtain ⟨u', others', agree''⟩ := sides.runs (sides.keeps good' admits second) good''
      (fun i member => (later i member).1) agree' others
    exact ⟨m', u', second', run_cons.mpr ⟨n', first', others'⟩, agree.trans agree''⟩

end Transition
