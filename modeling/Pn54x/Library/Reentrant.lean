import Pn54x.Library.Runs

/-! Handlers on a shared state that call the outside world, where the world may enter
them again before it returns. Between two calls a handler runs undisturbed. An
assertion on the pending calls, the state and the trace is proved for each handler by
itself, with the world's part assumed, and then holds in every run. -/
namespace Reentrant
open Transition

/-- The body of a handler on a state `σ`. It may ask the world for an answer, leave an
event in the trace and make a call; it comes to a stop when it cannot go on. -/
inductive Prog (σ ν ε κ χ α : Type) : Type where
  | ret (a : α)
  | get (next : σ → Prog σ ν ε κ χ α)
  | set (s : σ) (next : Prog σ ν ε κ χ α)
  | ask (next : ν → Prog σ ν ε κ χ α)
  | emit (e : ε) (next : Prog σ ν ε κ χ α)
  | call (k : κ) (next : Prog σ ν ε κ χ α)
  | stop (x : χ)

variable {σ ν ε κ χ η ω α β : Type}

namespace Prog

def bind : Prog σ ν ε κ χ α → (α → Prog σ ν ε κ χ β) → Prog σ ν ε κ χ β
  | .ret a, f => f a
  | .get next, f => .get fun s => (next s).bind f
  | .set s next, f => .set s (next.bind f)
  | .ask next, f => .ask fun x => (next x).bind f
  | .emit e next, f => .emit e (next.bind f)
  | .call k next, f => .call k (next.bind f)
  | .stop x, _ => .stop x

instance : Monad (Prog σ ν ε κ χ) where
  pure := .ret
  bind := .bind

def read : Prog σ ν ε κ χ σ := .get .ret
def write (s : σ) : Prog σ ν ε κ χ Unit := .set s (.ret ())
def update (f : σ → σ) : Prog σ ν ε κ χ Unit := .get fun s => .set (f s) (.ret ())
def answer : Prog σ ν ε κ χ ν := .ask .ret
def log (e : ε) : Prog σ ν ε κ χ Unit := .emit e (.ret ())
def outside (k : κ) : Prog σ ν ε κ χ Unit := .call k (.ret ())

end Prog

/-- What is seen of a run, each time with the state that it happens in. -/
inductive Label (ε κ η α : Type) where
  | entered (h : η)
  | returned (h : η) (a : α)
  | called (k : κ)
  | did (e : ε)
  deriving DecidableEq, Repr

abbrev Trace (σ ε κ η α : Type) := List (Label ε κ η α × σ)

/-- A handler that waits for a call of its own to return. -/
structure Frame (σ ν ε κ χ η α : Type) where
  handler : η
  call : κ
  rest : Prog σ ν ε κ χ α

structure Config (σ ν ε κ χ η α : Type) where
  state : σ
  trace : Trace σ ε κ η α := []
  stack : List (Frame σ ν ε κ χ η α) := []

/-- The calls that are pending, the innermost first. -/
def Config.calls (c : Config σ ν ε κ χ η α) : List κ := c.stack.map Frame.call

/-- A body runs to its next call or to its end. -/
def Prog.exec (h : η) (below : List (Frame σ ν ε κ χ η α)) :
    Prog σ ν ε κ χ α → (Nat → ν) → σ → Trace σ ε κ η α → Except χ (Config σ ν ε κ χ η α)
  | .ret a, _, s, tr => .ok ⟨s, tr ++ [(.returned h a, s)], below⟩
  | .get next, answers, s, tr => (next s).exec h below answers s tr
  | .set s next, answers, _, tr => next.exec h below answers s tr
  | .ask next, answers, s, tr => (next (answers 0)).exec h below (fun n => answers (n + 1)) s tr
  | .emit e next, answers, s, tr => next.exec h below answers s (tr ++ [(.did e, s)])
  | .call k next, _, s, tr => .ok ⟨s, tr ++ [(.called k, s)], ⟨h, k, next⟩ :: below⟩
  | .stop x, _, _, _ => .error x

/-- What the world does: it changes the state and enters a handler, or it does so and
returns from the innermost call. -/
inductive Act (η ω : Type) where
  | enter (w : ω) (h : η)
  | leave (w : ω)

structure Move (ν η ω : Type) where
  act : Act η ω
  answers : Nat → ν

structure World (σ ν ε κ χ η ω α : Type) where
  body : η → Prog σ ν ε κ χ α
  change : ω → σ → Except χ σ
  /-- The reason why nothing returns while nothing is pending. -/
  idle : χ

variable (sys : World σ ν ε κ χ η ω α)

def World.step (c : Config σ ν ε κ χ η α) (m : Move ν η ω) : Except χ (Config σ ν ε κ χ η α) :=
  match m.act with
  | .enter w h => do
    let s ← sys.change w c.state
    (sys.body h).exec h c.stack m.answers s (c.trace ++ [(.entered h, s)])
  | .leave w =>
    match c.stack with
    | [] => .error sys.idle
    | f :: below => do
      let s ← sys.change w c.state
      f.rest.exec f.handler below m.answers s c.trace

def World.moves : Config σ ν ε κ χ η α → List (Move ν η ω) → Except χ (Config σ ν ε κ χ η α) :=
  Transition.run sys.step

/-- The run is under a rule for what the world may do, given the pending calls. -/
def World.Under (R : List κ → σ → Act η ω → Bool) (c : Config σ ν ε κ χ η α)
    (path : List (Move ν η ω)) : Prop :=
  along sys.step (fun c m => R c.calls c.state m.act = true) c path

instance (R : List κ → σ → Act η ω → Bool) (c : Config σ ν ε κ χ η α) (path : List (Move ν η ω)) :
    Decidable (sys.Under R c path) :=
  inferInstanceAs (Decidable (along _ _ _ _))

/-- The body establishes `A` at each of its calls and relies on no more when the call
returns; it ends in `Q`. An event is taken to meet `G` in the state it happens in. -/
def Prog.Meets (G : ε → σ → Prop) (A : κ → σ → Trace σ ε κ η α → Prop) :
    Prog σ ν ε κ χ β → (β → σ → Trace σ ε κ η α → Prop) → σ → Trace σ ε κ η α → Prop
  | .ret b, Q, s, tr => Q b s tr
  | .get next, Q, s, tr => (next s).Meets G A Q s tr
  | .set s next, Q, _, tr => next.Meets G A Q s tr
  | .ask next, Q, s, tr => ∀ x, (next x).Meets G A Q s tr
  | .emit e next, Q, s, tr => G e s → next.Meets G A Q s (tr ++ [(.did e, s)])
  | .call k next, Q, s, tr => A k s (tr ++ [(.called k, s)]) ∧ ∀ s tr, A k s tr → next.Meets G A Q s tr
  | .stop _, _, _, _ => True

section Meets
variable {G : ε → σ → Prop} {A : κ → σ → Trace σ ε κ η α → Prop} {Q : β → σ → Trace σ ε κ η α → Prop}

@[simp] theorem meets_bind {γ : Type} (p : Prog σ ν ε κ χ γ) (f : γ → Prog σ ν ε κ χ β) (s : σ)
    (tr : Trace σ ε κ η α) :
    (p >>= f).Meets G A Q s tr ↔ p.Meets G A (fun c s tr => (f c).Meets G A Q s tr) s tr := by
  change (p.bind f).Meets G A Q s tr ↔ _
  induction p generalizing s tr with
  | ret | stop => rfl
  | get next ih => exact ih s s tr
  | set s' next ih => exact ih s' tr
  | ask next ih => exact forall_congr' fun x => ih x s tr
  | emit e next ih => exact imp_congr_right fun _ => ih s _
  | call k next ih =>
    exact and_congr_right fun _ => forall_congr' fun s => forall_congr' fun tr =>
      imp_congr_right fun _ => ih s tr

variable (s : σ) (tr : Trace σ ε κ η α)

@[simp] theorem meets_pure (b : β) :
    (pure b : Prog σ ν ε κ χ β).Meets G A Q s tr ↔ Q b s tr := Iff.rfl

@[simp] theorem meets_ite {c : Prop} [Decidable c] (p q : Prog σ ν ε κ χ β) :
    (if c then p else q).Meets G A Q s tr ↔ (c → p.Meets G A Q s tr) ∧ (¬c → q.Meets G A Q s tr) := by
  split <;> simp_all

@[simp] theorem meets_read {Q : σ → σ → Trace σ ε κ η α → Prop} :
    (Prog.read : Prog σ ν ε κ χ σ).Meets G A Q s tr ↔ Q s s tr := Iff.rfl

variable {Q : Unit → σ → Trace σ ε κ η α → Prop}

@[simp] theorem meets_write (s' : σ) :
    (Prog.write s' : Prog σ ν ε κ χ Unit).Meets G A Q s tr ↔ Q () s' tr := Iff.rfl

@[simp] theorem meets_update (f : σ → σ) :
    (Prog.update f : Prog σ ν ε κ χ Unit).Meets G A Q s tr ↔ Q () (f s) tr := Iff.rfl

@[simp] theorem meets_log (e : ε) : (Prog.log e : Prog σ ν ε κ χ Unit).Meets G A Q s tr ↔
    (G e s → Q () s (tr ++ [(.did e, s)])) := Iff.rfl

@[simp] theorem meets_outside (k : κ) : (Prog.outside k : Prog σ ν ε κ χ Unit).Meets G A Q s tr ↔
    A k s (tr ++ [(.called k, s)]) ∧ ∀ s tr, A k s tr → Q () s tr := Iff.rfl

@[simp] theorem meets_answer {Q : ν → σ → Trace σ ε κ η α → Prop} :
    (Prog.answer : Prog σ ν ε κ χ ν).Meets G A Q s tr ↔ ∀ x, Q x s tr := Iff.rfl

@[simp] theorem meets_stop (x : χ) {Q : β → σ → Trace σ ε κ η α → Prop} :
    (Prog.stop x : Prog σ ν ε κ χ β).Meets G A Q s tr ↔ True := Iff.rfl

end Meets

/-- A weaker end is met where a stronger one is. -/
theorem Prog.Meets.mono {G : ε → σ → Prop} {A : κ → σ → Trace σ ε κ η α → Prop}
    {Q Q' : β → σ → Trace σ ε κ η α → Prop} {p : Prog σ ν ε κ χ β} {s : σ} {tr : Trace σ ε κ η α}
    (meets : p.Meets G A Q s tr) (weaker : ∀ b s tr, Q b s tr → Q' b s tr) : p.Meets G A Q' s tr := by
  induction p generalizing s tr with
  | ret b => exact weaker b s tr meets
  | get next ih => exact ih s meets
  | set s' next ih => exact ih meets
  | ask next ih => exact fun x => ih x (meets x)
  | emit e next ih => exact fun good => ih (meets good)
  | call k next ih => exact ⟨meets.1, fun s tr after => ih (meets.2 s tr after)⟩
  | stop => trivial

/-- What is established twice is established at once. -/
theorem Prog.Meets.and {G : ε → σ → Prop} {A A' : κ → σ → Trace σ ε κ η α → Prop}
    {Q Q' : β → σ → Trace σ ε κ η α → Prop} {p : Prog σ ν ε κ χ β} {s : σ} {tr : Trace σ ε κ η α}
    (meets : p.Meets G A Q s tr) (meets' : p.Meets G A' Q' s tr) :
    p.Meets G (fun k s tr => A k s tr ∧ A' k s tr) (fun b s tr => Q b s tr ∧ Q' b s tr) s tr := by
  induction p generalizing s tr with
  | ret => exact ⟨meets, meets'⟩
  | get next ih => exact ih s meets meets'
  | set s' next ih => exact ih meets meets'
  | ask next ih => exact fun x => ih x (meets x) (meets' x)
  | emit e next ih => exact fun good => ih (meets good) (meets' good)
  | call k next ih =>
    refine ⟨⟨meets.1, meets'.1⟩, ?_⟩
    rintro s tr ⟨after, after'⟩
    exact ih (meets.2 s tr after) (meets'.2 s tr after')
  | stop => trivial

/-- What is established with a look at the trace is established for some trace. -/
theorem Prog.Meets.erase {G : ε → σ → Prop} {A : κ → σ → Trace σ ε κ η α → Prop}
    {Q : β → σ → Trace σ ε κ η α → Prop} {p : Prog σ ν ε κ χ β} {s : σ} {tr : Trace σ ε κ η α}
    (meets : p.Meets G A Q s tr) (tr' : Trace σ ε κ η α) :
    p.Meets G (fun k s _ => ∃ tr, A k s tr) (fun b s _ => ∃ tr, Q b s tr) s tr' := by
  induction p generalizing s tr tr' with
  | ret => exact ⟨tr, meets⟩
  | get next ih => exact ih s meets tr'
  | set s' next ih => exact ih meets tr'
  | ask next ih => exact fun x => ih x (meets x) tr'
  | emit e next ih => exact fun good => ih (meets good) _
  | call k next ih =>
    refine ⟨⟨_, meets.1⟩, ?_⟩
    rintro s _ ⟨tr, after⟩
    exact ih (meets.2 s tr after) _
  | stop => trivial

/-- What is said of the calls alone may be left out. -/
theorem Prog.Meets.calls {G : ε → σ → Prop} {C : κ → Prop} {A : κ → σ → Trace σ ε κ η α → Prop}
    {Q : β → σ → Trace σ ε κ η α → Prop} {p : Prog σ ν ε κ χ β} {s : σ} {tr : Trace σ ε κ η α}
    (meets : p.Meets G (fun k s tr => C k ∧ A k s tr) Q s tr) : p.Meets G A Q s tr := by
  induction p generalizing s tr with
  | ret => exact meets
  | get next ih => exact ih s meets
  | set s' next ih => exact ih meets
  | ask next ih => exact fun x => ih x (meets x)
  | emit e next ih => exact fun good => ih (meets good)
  | call k next ih =>
    obtain ⟨⟨called, holds⟩, back⟩ := meets
    exact ⟨holds, fun s tr after => ih (back s tr ⟨called, after⟩)⟩
  | stop => trivial

/-- Every program establishes what is always so. -/
theorem meets_always {G : ε → σ → Prop} (p : Prog σ ν ε κ χ β) (s : σ) (tr : Trace σ ε κ η α) :
    p.Meets G (fun _ _ _ => True) (fun _ _ _ => True) s tr := by
  induction p generalizing s tr with
  | ret | stop => trivial
  | get next ih => exact ih s s tr
  | set s' next ih => exact ih s' tr
  | ask next ih => exact fun x => ih x s tr
  | emit e next ih => exact fun _ => ih s _
  | call k next ih => exact ⟨trivial, fun s tr _ => ih s tr⟩

variable (R : List κ → σ → Act η ω → Bool) (G : ε → σ → Prop)

/-- An assertion `I` on the pending calls that the handlers guarantee, each by itself,
and that the world keeps under the rule `R`. -/
structure Stable (I : List κ → σ → Trace σ ε κ η α → Prop) : Prop where
  enter : ∀ {ks s s' tr w h}, I ks s tr → R ks s (.enter w h) = true → sys.change w s = .ok s' →
    (sys.body h).Meets G (fun k => I (k :: ks)) (fun a s tr => I ks s (tr ++ [(.returned h a, s)]))
      s' (tr ++ [(.entered h, s')])
  leave : ∀ {k ks s s' tr w}, I (k :: ks) s tr → R (k :: ks) s (.leave w) = true →
    sys.change w s = .ok s' →
    I (k :: ks) s' tr

/-- Every waiting handler may be returned to where the assertion holds. -/
def Waits (I : List κ → σ → Trace σ ε κ η α → Prop) : List (Frame σ ν ε κ χ η α) → Prop
  | [] => True
  | f :: below => (∀ s tr, I (f.call :: below.map Frame.call) s tr →
      f.rest.Meets G (fun k => I (k :: below.map Frame.call))
        (fun a s tr => I (below.map Frame.call) s (tr ++ [(.returned f.handler a, s)])) s tr) ∧
    Waits I below

variable {sys R G} {I : List κ → σ → Trace σ ε κ η α → Prop}

theorem exec_grows {p : Prog σ ν ε κ χ α} {h : η} {below : List (Frame σ ν ε κ χ η α)}
    {answers : Nat → ν} {s : σ} {tr : Trace σ ε κ η α} {c : Config σ ν ε κ χ η α}
    (ran : p.exec h below answers s tr = .ok c) : tr <+: c.trace := by
  induction p generalizing answers s tr with
  | ret | call =>
    obtain rfl := Except.ok.inj ran
    exact List.prefix_append _ _
  | get next ih => exact ih s ran
  | set s' next ih => exact ih ran
  | ask next ih => exact ih _ ran
  | emit e next ih => exact (List.prefix_append _ _).trans (ih ran)
  | stop => contradiction

/-- From one call to the next. -/
theorem exec_meets {p : Prog σ ν ε κ χ α} {h : η} {below : List (Frame σ ν ε κ χ η α)}
    {answers : Nat → ν} {s : σ} {tr : Trace σ ε κ η α} {c : Config σ ν ε κ χ η α}
    (meets : p.Meets G (fun k => I (k :: below.map Frame.call))
      (fun a s tr => I (below.map Frame.call) s (tr ++ [(.returned h a, s)])) s tr)
    (waits : Waits G I below) (ran : p.exec h below answers s tr = .ok c)
    (good : ∀ e s, (Label.did e, s) ∈ c.trace → G e s) :
    I c.calls c.state c.trace ∧ Waits G I c.stack := by
  induction p generalizing answers s tr with
  | ret a =>
    obtain rfl := Except.ok.inj ran
    exact ⟨meets, waits⟩
  | get next ih => exact ih s meets ran
  | set s' next ih => exact ih meets ran
  | ask next ih => exact ih _ (meets _) ran
  | emit e next ih =>
    have grown : tr ++ [(.did e, s)] <+: c.trace := exec_grows ran
    have member : (Label.did e, s) ∈ c.trace := grown.subset (by simp)
    exact ih (meets (good e s member)) ran
  | call k next ih =>
    obtain rfl := Except.ok.inj ran
    exact ⟨meets.1, meets.2, waits⟩
  | stop => contradiction

theorem step_grows {c c' : Config σ ν ε κ χ η α} {m : Move ν η ω} (stepped : sys.step c m = .ok c') :
    c.trace <+: c'.trace := by
  obtain ⟨act, answers⟩ := m
  cases act with
  | enter w h =>
    obtain ⟨s, _, ran⟩ := bind_ok.mp stepped
    exact (List.prefix_append _ _).trans (exec_grows ran)
  | leave w =>
    simp only [World.step] at stepped
    split at stepped
    · contradiction
    · obtain ⟨s, _, ran⟩ := bind_ok.mp stepped
      exact exec_grows ran

theorem Stable.step {c c' : Config σ ν ε κ χ η α} {m : Move ν η ω} (stable : Stable sys R G I)
    (holds : I c.calls c.state c.trace) (waits : Waits G I c.stack)
    (ruled : R c.calls c.state m.act = true) (stepped : sys.step c m = .ok c')
    (good : ∀ e s, (Label.did e, s) ∈ c'.trace → G e s) :
    I c'.calls c'.state c'.trace ∧ Waits G I c'.stack := by
  obtain ⟨act, answers⟩ := m
  cases act with
  | enter w h =>
    obtain ⟨s, changed, ran⟩ := bind_ok.mp stepped
    exact exec_meets (stable.enter holds ruled changed) waits ran good
  | leave w =>
    obtain ⟨state, trace, stack⟩ := c
    cases stack with
    | nil => contradiction
    | cons f below =>
      obtain ⟨s, changed, ran⟩ := bind_ok.mp stepped
      exact exec_meets (waits.1 s _ (stable.leave holds ruled changed)) waits.2 ran good

/-- A stable assertion that holds where nothing has happened holds after every run
under the rule whose events are all good. -/
theorem Stable.run {s : σ} {path : List (Move ν η ω)} {c : Config σ ν ε κ χ η α}
    (stable : Stable sys R G I) (initial : I [] s []) (ruled : sys.Under R { state := s } path)
    (ran : sys.moves { state := s } path = .ok c)
    (good : ∀ e s, (Label.did e, s) ∈ c.trace → G e s) : I c.calls c.state c.trace := by
  have whole := run_along (P := fun c => (∀ e s, (Label.did e, s) ∈ c.trace → G e s) →
      I c.calls c.state c.trace ∧ Waits G I c.stack) ?_ (fun _ => ⟨initial, by exact trivial⟩)
    ruled ran
  · exact (whole good).1
  · intro c m c' before ruled stepped good
    have earlier := before fun e s member => good e s ((step_grows stepped).subset member)
    exact stable.step earlier.1 earlier.2 ruled stepped good

/-- What is stable under one rule is stable together. -/
theorem Stable.and {I' : List κ → σ → Trace σ ε κ η α → Prop} (stable : Stable sys R G I)
    (stable' : Stable sys R G I') : Stable sys R G (fun ks s tr => I ks s tr ∧ I' ks s tr) := by
  constructor
  · rintro ks s s' tr w h ⟨before, before'⟩ ruled changed
    exact (stable.enter before ruled changed).and (stable'.enter before' ruled changed)
  · rintro k ks s s' tr w ⟨before, before'⟩ ruled changed
    exact ⟨stable.leave before ruled changed, stable'.leave before' ruled changed⟩

end Reentrant
