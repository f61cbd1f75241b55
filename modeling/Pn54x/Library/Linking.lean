import Pn54x.Library.Reentrant

/-! Linking: a part of the outside world becomes known, and the calls that go there are
replaced by bodies, which may make calls of their own. What a handler establishes without
looking at the trace it still establishes when it is linked, if the bodies keep it. -/
namespace Reentrant

variable {σ ν μ ε κ ι χ η θ α β γ : Type}

namespace Prog

theorem bind_ret (p : Prog σ ν ε κ χ α) : p.bind .ret = p := by
  induction p with
  | ret | stop => rfl
  | get next ih => exact congrArg Prog.get (funext fun s => ih s)
  | set s next ih => exact congrArg (Prog.set s) ih
  | ask next ih => exact congrArg Prog.ask (funext fun x => ih x)
  | emit e next ih => exact congrArg (Prog.emit e) ih
  | call k next ih => exact congrArg (Prog.call k) ih

theorem bind_assoc (p : Prog σ ν ε κ χ α) (f : α → Prog σ ν ε κ χ β) (g : β → Prog σ ν ε κ χ γ) :
    (p.bind f).bind g = p.bind fun a => (f a).bind g := by
  induction p with
  | ret | stop => rfl
  | get next ih => exact congrArg Prog.get (funext fun s => ih s)
  | set s next ih => exact congrArg (Prog.set s) ih
  | ask next ih => exact congrArg Prog.ask (funext fun x => ih x)
  | emit e next ih => exact congrArg (Prog.emit e) ih
  | call k next ih => exact congrArg (Prog.call k) ih

/-- The program with its calls replaced, on answers that tell at least what it asks for. -/
def link (answer : μ → ν) (body : κ → Prog σ μ ε ι χ Unit) : Prog σ ν ε κ χ α → Prog σ μ ε ι χ α
  | .ret a => .ret a
  | .get next => .get fun s => (next s).link answer body
  | .set s next => .set s (next.link answer body)
  | .ask next => .ask fun x => (next (answer x)).link answer body
  | .emit e next => .emit e (next.link answer body)
  | .call k next => (body k).bind fun _ => next.link answer body
  | .stop x => .stop x

section
variable (answer : μ → ν) (body : κ → Prog σ μ ε ι χ Unit)

@[simp] theorem link_bind (p : Prog σ ν ε κ χ α) (f : α → Prog σ ν ε κ χ β) :
    (p >>= f).link answer body = p.link answer body >>= fun a => (f a).link answer body := by
  change (p.bind f).link answer body = (p.link answer body).bind _
  induction p with
  | ret | stop => rfl
  | get next ih => exact congrArg Prog.get (funext fun s => ih s)
  | set s next ih => exact congrArg (Prog.set s) ih
  | ask next ih => exact congrArg Prog.ask (funext fun x => ih (answer x))
  | emit e next ih => exact congrArg (Prog.emit e) ih
  | call k next ih =>
    change (body k).bind (fun _ => (next.bind f).link answer body) = ((body k).bind _).bind _
    rw [bind_assoc]
    exact congrArg (body k).bind (funext fun _ => ih)

@[simp] theorem link_pure (a : α) : (pure a : Prog σ ν ε κ χ α).link answer body = pure a := rfl

@[simp] theorem link_ite {c : Prop} [Decidable c] (p q : Prog σ ν ε κ χ α) :
    (if c then p else q).link answer body = if c then p.link answer body else q.link answer body := by
  split <;> rfl

@[simp] theorem link_read : (read : Prog σ ν ε κ χ σ).link answer body = read := rfl

@[simp] theorem link_write (s : σ) : (write s : Prog σ ν ε κ χ Unit).link answer body = write s := rfl

@[simp] theorem link_update (f : σ → σ) : (update f : Prog σ ν ε κ χ Unit).link answer body = update f := rfl

@[simp] theorem link_log (e : ε) : (log e : Prog σ ν ε κ χ Unit).link answer body = log e := rfl

@[simp] theorem link_outside (k : κ) : (outside k : Prog σ ν ε κ χ Unit).link answer body = body k :=
  bind_ret _

end

end Prog

@[simp] theorem meets_link_answer {G : ε → σ → Prop} {A : ι → σ → Trace σ ε ι η α → Prop}
    {Q : ν → σ → Trace σ ε ι η α → Prop} (answer : μ → ν) (body : κ → Prog σ μ ε ι χ Unit) (s : σ)
    (tr : Trace σ ε ι η α) :
    ((Prog.answer : Prog σ ν ε κ χ ν).link answer body).Meets G A Q s tr ↔ ∀ x, Q (answer x) s tr := Iff.rfl

/-- A linked program establishes what the program itself does, where the bodies keep the
assertion of the call that they stand for. -/
theorem Prog.Meets.link {G : ε → σ → Prop} {B : κ → σ → Prop} {A : ι → σ → Trace σ ε ι η α → Prop}
    {Q : β → σ → Prop} {p : Prog σ ν ε κ χ β} {answer : μ → ν} {body : κ → Prog σ μ ε ι χ Unit}
    {s : σ} {tr : Trace σ ε κ θ γ} {tr' : Trace σ ε ι η α}
    (meets : p.Meets G (fun k s _ => B k s) (fun b s _ => Q b s) s tr)
    (keeps : ∀ k s tr, B k s → (body k).Meets G A (fun _ s _ => B k s) s tr) :
    (p.link answer body).Meets G A (fun b s _ => Q b s) s tr' := by
  induction p generalizing s tr tr' with
  | ret => exact meets
  | get next ih => exact ih s meets
  | set s next ih => exact ih meets
  | ask next ih => exact fun x => ih (answer x) (meets (answer x))
  | emit e next ih => exact fun good => ih (meets good)
  | call k next ih =>
    refine (meets_bind (body k) _ s tr').mpr ?_
    refine Prog.Meets.mono (keeps k s tr' meets.1) fun _ s tr' after => ?_
    exact ih (meets.2 s [] after)
  | stop => trivial

/-- What is seen of a linked program, with the calls of the program itself where they begin. -/
def Label.view (view : ι → Option κ) : Label ε ι η α → Option (Label ε κ η α)
  | .entered h => some (.entered h)
  | .returned h a => some (.returned h a)
  | .called i => (view i).map .called
  | .did e => some (.did e)

def viewed (view : ι → Option κ) (tr : Trace σ ε ι η α) : Trace σ ε κ η α :=
  tr.filterMap fun l => (l.1.view view).map (·, l.2)

theorem viewed_append (view : ι → Option κ) (tr tr' : Trace σ ε ι η α) :
    viewed view (tr ++ tr') = viewed view tr ++ viewed view tr' := List.filterMap_append

/-- A linked program establishes what the program does with what is seen, where the bodies keep
what holds at the call that they stand for. -/
theorem Prog.Meets.viewed {G : ε → σ → Prop} {A : κ → σ → Trace σ ε κ η α → Prop}
    {Q : β → σ → Trace σ ε κ η α → Prop} {p : Prog σ ν ε κ χ β} {answer : μ → ν}
    {body : κ → Prog σ μ ε ι χ Unit} {s : σ} {view : ι → Option κ} {tr : Trace σ ε ι η α}
    {A' : ι → σ → Trace σ ε ι η α → Prop} (meets : p.Meets G A Q s (viewed view tr))
    (keeps : ∀ k s tr, A k s (Reentrant.viewed view tr ++ [(.called k, s)]) →
      (body k).Meets G A' (fun _ s tr => A k s (Reentrant.viewed view tr)) s tr) :
    (p.link answer body).Meets G A' (fun b s tr => Q b s (Reentrant.viewed view tr)) s tr := by
  induction p generalizing s tr with
  | ret => exact meets
  | get next ih => exact ih s meets
  | set s next ih => exact ih meets
  | ask next ih => exact fun x => ih (answer x) (meets (answer x))
  | emit e next ih =>
    intro good
    apply ih
    rw [viewed_append]
    exact meets good
  | call k next ih =>
    refine (meets_bind (body k) _ s tr).mpr ?_
    refine Prog.Meets.mono (keeps k s tr meets.1) fun _ s tr after => ?_
    exact ih (meets.2 s _ after)
  | stop => trivial

end Reentrant
