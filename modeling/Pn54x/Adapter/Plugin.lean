import Pn54x.Adapter.PowerOff
import Pn54x.Io.Moments
import Pn54x.Library.Linking

/-! The adapter and its `Pn54xIo` together, with the main loop that runs them. What is
known of `nci_core_restart` is linked in: it stops the HAL and starts it again. -/
namespace Pn54x
open Reentrant Transition

/-- Where the plugin waits for the world: in a call of the adapter, or in
`nci_core_restart` before its stop, before its start and behind it. -/
inductive Pending where
  | outside (k : Outside)
  | stopping | starting | started
  deriving DecidableEq, Repr

/-- Answers of the kernel to `pn54x_io_set_power` and to a start. -/
structure Reply where
  power : PowerEnv
  start : StartEnv
  deriving DecidableEq, Repr

/-- What is seen of a run of the plugin. -/
abbrev Account := Trace Adapter Deed Pending Method (Option Bool)

abbrev Linked := Prog Adapter Reply Deed Pending Stop

/-- `nci_core_restart`. It may call the adapter back at any time, and nothing is said of
runs in which the start fails. -/
def nciCoreRestart (client : Client) : Linked Unit := do
  Prog.outside .stopping
  Prog.update fun self => { self with io := halIoStop self.io }
  Prog.outside .starting
  let reply ← Prog.answer
  let self ← Prog.read
  match halIoStart reply.start client self.io with
  | .ok (true, io) =>
    Prog.write { self with io }
    Prog.outside .started
  | .ok (false, _) => .stop .impossible
  | .error x => .stop x

/-- A restart keeps what it waits with, if stopping and starting do. -/
theorem nciCoreRestart_meets {G : Deed → Adapter → Prop}
    {A : Pending → Adapter → Account → Prop}
    {Q : Unit → Adapter → Account → Prop}
    {s : Adapter} {tr : Account}
    (begins : A .stopping s (tr ++ [(.called .stopping, s)]))
    (stops : ∀ s tr, A .stopping s tr →
      let stopped := { s with io := halIoStop s.io }
      A .starting stopped (tr ++ [(.called .starting, stopped)]))
    (starts : ∀ s tr, A .starting s tr → ∀ env io, halIoStart env client s.io = .ok (true, io) →
      A .started { s with io } (tr ++ [(.called .started, { s with io })]))
    (done : ∀ s tr, A .started s tr → Q () s tr) : (nciCoreRestart client).Meets G A Q s tr := by
  simp only [nciCoreRestart, meets_bind, meets_outside, meets_update, meets_answer, meets_read]
  refine ⟨begins, fun s tr now => ⟨stops s tr now, fun s tr now reply => ?_⟩⟩
  cases started : halIoStart reply.start client s.io with
  | error x => trivial
  | ok result =>
    obtain ⟨ok, io⟩ := result
    cases ok with
    | false => trivial
    | true => exact ⟨starts s tr now reply.start io started, done⟩

def Outside.linked (client : Client) : Outside → Linked Unit
  | .restart => nciCoreRestart client
  | k => Prog.outside (.outside k)

/-- What goes on around the plugin: the state machine of libncicore moves on, and the main
loop dispatches sources, whose functions call libncicore and are called by it. The adapter
may be entered between any two moments of a dispatch; `serving` is the source whose
function is running. -/
structure Around where
  currentState : Int
  nextState : Int
  serving : Option SourceId := none
  moments : List Moment := []
  deriving DecidableEq, Repr

/-- Only the adapter switches power, and only `nci_core_restart` starts. -/
def Moment.OfCore : Moment → Bool
  | .call (.setPower _ _) | .call (.start _ _) => false
  | _ => true

def Around.apply (w : Around) (self : Adapter) : Exec Adapter :=
  if w.moments.all Moment.OfCore then do
    let p ← Transition.run Moment.perform ⟨self.io, w.serving⟩ w.moments
    return { self with currentState := w.currentState, nextState := w.nextState, io := p.toSys }
  else .error .impossible

variable [NciStates] (client : Client)

/-- The plugin, whose HAL is used by the client of libncicore. -/
def plugin : World Adapter Reply Deed Pending Stop Method Around (Option Bool) where
  body h := h.body.link Reply.power (Outside.linked client)
  change := Around.apply
  idle := .impossible

variable {client}

section
variable {G : Deed → Adapter → Prop} {A : Pending → Adapter → Account → Prop} (s : Adapter) (tr : Account)

omit [NciStates]

@[simp] theorem meets_linked_lift {Q : α → Adapter → Account → Prop} (x : Exec α) :
    ((Handler.lift x).link Reply.power (Outside.linked client)).Meets G A Q s tr ↔
      ∀ a, x = .ok a → Q a s tr := by
  cases x <;> simp [Handler.lift, Prog.link]

@[simp] theorem meets_linked_setPower {Q : Bool → Adapter → Account → Prop} (site : Site) (on : Bool) :
    ((Handler.setPower site on).link Reply.power (Outside.linked client)).Meets G A Q s tr ↔
      ∀ env, G (.setPower site on env) s → ∀ ok io, ioSetPower env on s.io = .ok (ok, io) →
        Q ok { s with io } (tr ++ [(.did (.setPower site on env), s)]) := by
  simp only [Handler.setPower, Prog.link_bind, Prog.link_read, Prog.link_log, Prog.link_write, Prog.link_pure,
    meets_bind, meets_link_answer, meets_read, meets_log, meets_linked_lift, meets_write, meets_pure, Prod.forall]
  exact ⟨fun all env => all ⟨env, ⟨none, none, none, false⟩⟩, fun all reply => all reply.power⟩

@[simp] theorem meets_linked_setPowerOn {Q : Unit → Adapter → Account → Prop} (on : Bool) :
    ((Handler.setPowerOn on).link Reply.power (Outside.linked client)).Meets G A Q s tr ↔
      (G (.powerOn on) s → Q () { s with powerOn := on } (tr ++ [(.did (.powerOn on), s)])) := by
  simp [Handler.setPowerOn]

end

theorem around_ok {w : Around} {s s' : Adapter} (changed : (plugin client).change w s = .ok s') :
    ∃ p, Transition.run Moment.perform ⟨s.io, w.serving⟩ w.moments = .ok p ∧
      w.moments.all Moment.OfCore = true ∧
      s' = { s with currentState := w.currentState, nextState := w.nextState, io := p.toSys } := by
  change w.apply s = .ok s' at changed
  unfold Around.apply at changed
  split at changed
  · obtain ⟨p, ran, same⟩ := bind_ok.mp changed
    exact ⟨p, ran, ‹_›, (pure_ok.mp same).symm⟩
  · contradiction

end Pn54x
