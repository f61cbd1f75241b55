import Pn54x.Library.Linking

/-! What a handler may come to a stop with, if its calls return to what they may return to.
In a run the blame is then on the handler's excuse or on the world. -/
namespace Reentrant
open Transition

variable {σ ν μ ε κ ι χ η ω α β : Type}

/-- The body stops with an excuse, wherever a call `k` of it returns to a state of `B k`. -/
def Prog.Excused (E : χ → Prop) (B : κ → σ → Prop) : Prog σ ν ε κ χ β → σ → Prop
  | .ret _, _ => True
  | .get next, s => (next s).Excused E B s
  | .set s next, _ => next.Excused E B s
  | .ask next, s => ∀ x, (next x).Excused E B s
  | .emit _ next, s => next.Excused E B s
  | .call k next, _ => ∀ s, B k s → next.Excused E B s
  | .stop x, _ => E x

section Excused
variable {E : χ → Prop} {B : κ → σ → Prop}

theorem Prog.Excused.bind {p : Prog σ ν ε κ χ α} {f : α → Prog σ ν ε κ χ β} {s : σ}
    (first : p.Excused E B s) (second : ∀ a s, (f a).Excused E B s) : (p.bind f).Excused E B s := by
  induction p generalizing s with
  | ret a => exact second a s
  | get next ih => exact ih s first
  | set s next ih => exact ih first
  | ask next ih => exact fun x => ih x (first x)
  | emit e next ih => exact ih first
  | call k next ih => exact fun s returned => ih (first s returned)
  | stop => exact first

variable (s : σ)

@[simp] theorem excused_pure (b : β) : (pure b : Prog σ ν ε κ χ β).Excused E B s ↔ True := Iff.rfl

@[simp] theorem excused_ite {c : Prop} [Decidable c] (p q : Prog σ ν ε κ χ β) :
    (if c then p else q).Excused E B s ↔ (c → p.Excused E B s) ∧ (¬c → q.Excused E B s) := by
  split <;> simp_all

@[simp] theorem excused_outside (k : κ) : (Prog.outside k : Prog σ ν ε κ χ Unit).Excused E B s ↔ True := by
  simp [Prog.outside, Prog.Excused]

@[simp] theorem excused_bind_read (f : σ → Prog σ ν ε κ χ β) :
    (Prog.read >>= f).Excused E B s ↔ (f s).Excused E B s := Iff.rfl

@[simp] theorem excused_bind_answer (f : ν → Prog σ ν ε κ χ β) :
    (Prog.answer >>= f).Excused E B s ↔ ∀ x, (f x).Excused E B s := Iff.rfl

variable (f : Unit → Prog σ ν ε κ χ β)

@[simp] theorem excused_bind_write (s' : σ) :
    (Prog.write s' >>= f).Excused E B s ↔ (f ()).Excused E B s' := Iff.rfl

@[simp] theorem excused_bind_update (g : σ → σ) :
    (Prog.update g >>= f).Excused E B s ↔ (f ()).Excused E B (g s) := Iff.rfl

@[simp] theorem excused_bind_log (e : ε) :
    (Prog.log e >>= f).Excused E B s ↔ (f ()).Excused E B s := Iff.rfl

@[simp] theorem excused_bind_outside (k : κ) :
    (Prog.outside k >>= f).Excused E B s ↔ ∀ s, B k s → (f ()).Excused E B s := Iff.rfl

end Excused

/-- A linked program has the excuses of the program and of the bodies. -/
theorem Prog.Excused.link {E : χ → Prop} {B : ι → σ → Prop} {p : Prog σ ν ε κ χ β} {answer : μ → ν}
    {body : κ → Prog σ μ ε ι χ Unit} {s : σ} (excused : p.Excused E (fun _ _ => True) s)
    (bodies : ∀ k s, (body k).Excused E B s) : (p.link answer body).Excused E B s := by
  induction p generalizing s with
  | ret => trivial
  | get next ih => exact ih s excused
  | set s next ih => exact ih excused
  | ask next ih => exact fun x => ih (answer x) (excused (answer x))
  | emit e next ih => exact ih excused
  | call k next ih => exact (bodies k s).bind fun _ s => ih (excused s trivial)
  | stop => exact excused

variable {E : χ → Prop} {B : κ → σ → Prop}

theorem exec_error {p : Prog σ ν ε κ χ α} {h : η} {below : List (Frame σ ν ε κ χ η α)}
    {answers : Nat → ν} {s : σ} {tr : Trace σ ε κ η α} (excused : p.Excused E B s)
    (failed : p.exec h below answers s tr = .error e) : E e := by
  induction p generalizing answers s tr with
  | ret | call => contradiction
  | get next ih => exact ih s excused failed
  | set s' next ih => exact ih excused failed
  | ask next ih => exact ih _ (excused _) failed
  | emit e next ih => exact ih excused failed
  | stop =>
    obtain rfl := Except.error.inj failed
    exact excused

/-- What waits for a call has an excuse to stop when the call returns. -/
def Resting (E : χ → Prop) (B : κ → σ → Prop) (stack : List (Frame σ ν ε κ χ η α)) : Prop :=
  ∀ f ∈ stack, ∀ s, B f.call s → f.rest.Excused E B s

theorem exec_rests {p : Prog σ ν ε κ χ α} {h : η} {below : List (Frame σ ν ε κ χ η α)}
    {answers : Nat → ν} {s : σ} {tr : Trace σ ε κ η α} {c : Config σ ν ε κ χ η α} (excused : p.Excused E B s)
    (resting : Resting E B below) (ran : p.exec h below answers s tr = .ok c) : Resting E B c.stack := by
  induction p generalizing answers s tr with
  | ret =>
    obtain rfl := Except.ok.inj ran
    exact resting
  | get next ih => exact ih s excused ran
  | set s' next ih => exact ih excused ran
  | ask next ih => exact ih _ (excused _) ran
  | emit e next ih => exact ih excused ran
  | call k next =>
    obtain rfl := Except.ok.inj ran
    rintro f (_ | ⟨_, member⟩)
    · exact excused
    · exact resting f member
  | stop => contradiction

def Act.world : Act η ω → ω
  | .enter w _ => w
  | .leave w => w

/-- The next move enters a handler that has an excuse, or returns to where one has it. -/
structure Ready (sys : World σ ν ε κ χ η ω α) (E : χ → Prop) (B : κ → σ → Prop) (c : Config σ ν ε κ χ η α)
    (act : Act η ω) : Prop where
  resting : Resting E B c.stack
  enters : ∀ w h s, act = .enter w h → sys.change w c.state = .ok s → (sys.body h).Excused E B s
  returns : ∀ w k s, act = .leave w → k ∈ c.calls → sys.change w c.state = .ok s → B k s

variable {sys : World σ ν ε κ χ η ω α} {c c' : Config σ ν ε κ χ η α} {m : Move ν η ω}

theorem Ready.rests (ready : Ready sys E B c m.act) (stepped : sys.step c m = .ok c') :
    Resting E B c'.stack := by
  obtain ⟨act, answers⟩ := m
  cases act with
  | enter w h =>
    obtain ⟨s, changed, ran⟩ := bind_ok.mp stepped
    exact exec_rests (ready.enters w h s rfl changed) ready.resting ran
  | leave w =>
    obtain ⟨state, trace, stack⟩ := c
    cases stack with
    | nil => contradiction
    | cons f below =>
      obtain ⟨s, changed, ran⟩ := bind_ok.mp stepped
      have returned : B f.call s := ready.returns w f.call s rfl (.head _) changed
      refine exec_rests (ready.resting f (.head _) s returned) (fun g member => ?_) ran
      exact ready.resting g (.tail _ member)

/-- A move fails with an excuse, or because the world cannot make it. -/
def World.Excuses (sys : World σ ν ε κ χ η ω α) (E : χ → Prop) (c : Config σ ν ε κ χ η α) (act : Act η ω) (e : χ) :
    Prop := E e ∨ e = sys.idle ∨ sys.change act.world c.state = .error e

theorem Ready.excuses (ready : Ready sys E B c m.act) (failed : sys.step c m = .error e) :
    sys.Excuses E c m.act e := by
  obtain ⟨act, answers⟩ := m
  cases act with
  | enter w h =>
    apply bind_error failed (fun unable => .inr (.inr unable))
    intro s changed stopped
    exact .inl (exec_error (ready.enters w h s rfl changed) stopped)
  | leave w =>
    obtain ⟨state, trace, stack⟩ := c
    cases stack with
    | nil => exact .inr (.inl (Except.error.inj failed).symm)
    | cons f below =>
      apply bind_error failed (fun unable => .inr (.inr unable))
      intro s changed stopped
      have returned : B f.call s := ready.returns w f.call s rfl (.head _) changed
      exact .inl (exec_error (ready.resting f (.head _) s returned) stopped)

/-- In a run whose moves are all ready where a stable assertion holds, every handler that waits
has an excuse. -/
theorem Stable.rests {R : List κ → σ → Act η ω → Bool} {I : List κ → σ → Trace σ ε κ η α → Prop}
    {A : Config σ ν ε κ χ η α → Move ν η ω → Prop} (stable : Stable sys R (fun _ _ => True) I)
    (ruled : ∀ {c m}, A c m → R c.calls c.state m.act = true)
    (ready : ∀ {c m}, I c.calls c.state c.trace → Resting E B c.stack → A c m → Ready sys E B c m.act)
    {s : σ} {path : List (Move ν η ω)} (initial : I [] s []) (admitted : along sys.step A { state := s } path)
    (ran : sys.moves { state := s } path = .ok c) : I c.calls c.state c.trace ∧ Resting E B c.stack := by
  have whole : (I c.calls c.state c.trace ∧ Waits (fun _ _ => True) I c.stack) ∧ Resting E B c.stack := by
    refine run_along (P := fun c => (I c.calls c.state c.trace ∧ Waits (fun _ _ => True) I c.stack) ∧
      Resting E B c.stack) ?_ ?_ admitted ran
    · rintro c m c' ⟨⟨holds, waits⟩, resting⟩ admits stepped
      exact ⟨stable.step holds waits (ruled admits) stepped fun _ _ _ => trivial,
        (ready holds resting admits).rests stepped⟩
    · exact ⟨⟨initial, trivial⟩, by simp [Resting]⟩
  exact ⟨whole.1.1, whole.2⟩

end Reentrant
