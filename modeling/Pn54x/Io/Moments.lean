import Pn54x.Io.Sources

/-! A run taken apart into moments. The calls of the API that the client's functions
make stand in it beside those from the main loop, so that what every moment preserves
holds between any two calls, also inside a dispatch. -/
namespace Pn54x
open Framing Transition

/-- A call of the API, or what a dispatch does around the calls that its client makes. -/
inductive Moment where
  | call (c : Call)
  | buffer (readBuf : List Octet)
  | deliver (client : Option Client) (packet : List Octet)
  | fail (id : SourceId)
  | complete (id : SourceId)
  | done
  deriving DecidableEq, Repr

/-- The object at a point of a run. `serving` is the source whose function is running
and will have it removed. -/
structure Point extends Sys where
  serving : Option SourceId := none
  deriving DecidableEq, Repr

/-- A source can be dispatched. -/
def Point.scheduled (p : Point) (id : SourceId) (func : SourceFunc) : Bool :=
  p.sources.contains (id, func) && p.serving.isNone

def Moment.perform (p : Point) : Moment → Exec Point
  | .call c => do return { p with toSys := ← c.perform p.toSys }
  | .buffer readBuf => .ok { p with readBuf }
  | .deliver client packet =>
    match client with
    | none => .error .nullClient
    | some client => .ok { p with toSys := p.record (.read client packet) }
  | .fail id =>
    if p.scheduled id .readCallback then
      match p.client with
      | none => .error .nullClient
      | some client => .ok ⟨Sys.record { p.toSys with readWatchId := none } (.error client), some id⟩
    else .error .impossible
  | .complete id =>
    if p.scheduled id .writeComplete then
      match p.writeCb with
      | none => .error .nullCallback
      | some cb => .ok ⟨Sys.record { p.toSys with writeId := none, writeCb := none }
          (.writeComplete p.client cb true), some id⟩
    else .error .impossible
  | .done =>
    match p.serving with
    | none => .error .impossible
    | some id => .ok ⟨p.removeSource id, none⟩

/-- The packets of a chunk, each with the calls that the client makes when it gets it. -/
def deliveries (client : Option Client) (calls : Nat → List Call) (k : Nat) :
    List (List Octet) → List Moment
  | [] => []
  | packet :: rest =>
    .deliver client packet :: (calls k).map .call ++ deliveries client calls (k + 1) rest

/-- The octets that a dispatch of the read watch has to frame. -/
def CharsResult.octets : Option CharsResult → Option (List Octet)
  | some (.normal octets) => some octets
  | some .again => some []
  | some .eof | some .error | none => none

/-- What a step in `s` consists of. -/
def Step.moments (s : Sys) : Step → List Moment
  | .call c => [.call c]
  | .readWatch id input calls =>
    match CharsResult.octets input with
    | some octets =>
      let framed := frame nci (s.readBuf ++ octets)
      .buffer (s.buffering octets).readBuf :: deliveries s.client calls 0 framed.1 ++ [.buffer framed.2]
    | none => .fail id :: (calls 0).map .call ++ [.done]
  | .idle id calls => .complete id :: calls.map .call ++ [.done]

/-- What a run from `s` consists of. -/
def moments : Sys → List Step → List Moment
  | _, [] => []
  | s, i :: path =>
    i.moments s ++
      match step s i with
      | .ok t => moments t path
      | .error _ => []

/-- Points of the runs of an object that `pn54x_io_new` returned. -/
def Passed (p : Point) : Prop :=
  ∃ env new path t part, ioNew env = .ok (some new) ∧ steps new path = .ok t ∧
    part <+: moments new path ∧ Transition.run Moment.perform { toSys := new } part = .ok p

/-- The same, of runs whose moments up to there all met `A`. -/
def PassedUnder (A : Point → Moment → Prop) (p : Point) : Prop :=
  ∃ env new path t part, ioNew env = .ok (some new) ∧ steps new path = .ok t ∧
    part <+: moments new path ∧ along Moment.perform A { toSys := new } part ∧
    Transition.run Moment.perform { toSys := new } part = .ok p

theorem call_ok {p q : Point} {c : Call} : (Moment.call c).perform p = .ok q ↔
    ∃ s, c.perform p.toSys = .ok s ∧ q = { p with toSys := s } := by
  simp only [Moment.perform, bind_ok, pure_ok, eq_comm (a := q)]

theorem deliver_ok {p q : Point} (delivered : (Moment.deliver client packet).perform p = .ok q) :
    ∃ c, client = some c ∧ q = { p with toSys := p.record (.read c packet) } := by
  cases client with
  | none => contradiction
  | some c => exact ⟨c, rfl, (Except.ok.inj delivered).symm⟩

theorem scheduled_iff {p : Point} {id : SourceId} {func : SourceFunc} :
    p.scheduled id func = true ↔ (id, func) ∈ p.sources ∧ p.serving = none := by
  simp [Point.scheduled]

theorem fail_ok {p q : Point} {id : SourceId} (failed : (Moment.fail id).perform p = .ok q) :
    (id, SourceFunc.readCallback) ∈ p.sources ∧ p.serving = none ∧ ∃ client, p.client = some client ∧
      q = ⟨Sys.record { p.toSys with readWatchId := none } (.error client), some id⟩ := by
  simp only [Moment.perform] at failed
  split at failed
  · have scheduled := scheduled_iff.mp ‹_›
    split at failed
    · contradiction
    · exact ⟨scheduled.1, scheduled.2, _, ‹_›, (Except.ok.inj failed).symm⟩
  · contradiction

theorem complete_ok {p q : Point} {id : SourceId} (completed : (Moment.complete id).perform p = .ok q) :
    (id, SourceFunc.writeComplete) ∈ p.sources ∧ p.serving = none ∧ ∃ cb, p.writeCb = some cb ∧
      q = ⟨Sys.record { p.toSys with writeId := none, writeCb := none } (.writeComplete p.client cb true),
        some id⟩ := by
  simp only [Moment.perform] at completed
  split at completed
  · have scheduled := scheduled_iff.mp ‹_›
    split at completed
    · contradiction
    · exact ⟨scheduled.1, scheduled.2, _, ‹_›, (Except.ok.inj completed).symm⟩
  · contradiction

theorem done_ok {p q : Point} (returned : Moment.done.perform p = .ok q) :
    ∃ id, p.serving = some id ∧ q = ⟨p.removeSource id, none⟩ := by
  simp only [Moment.perform] at returned
  split at returned
  · contradiction
  · exact ⟨_, ‹_›, (Except.ok.inj returned).symm⟩

theorem react_moments {calls : List Call} {p : Point} (reacted : react calls p.toSys = .ok t) :
    Transition.run Moment.perform p (calls.map .call) = .ok { p with toSys := t } := by
  induction calls generalizing p with
  | nil =>
    obtain rfl := run_nil.mp reacted
    rfl
  | cons c calls ih =>
    obtain ⟨m, performed, rest⟩ := run_cons.mp reacted
    exact run_cons.mpr ⟨{ p with toSys := m }, call_ok.mpr ⟨m, performed, rfl⟩, ih rest⟩

theorem deliver_moments {p : Point} (delivered : deliver client calls k packets p.toSys = .ok t) :
    Transition.run Moment.perform p (deliveries client calls k packets) = .ok { p with toSys := t } := by
  induction packets generalizing k p with
  | nil =>
    cases delivered
    rfl
  | cons packet packets ih =>
    obtain ⟨m, called, rest⟩ := deliver_cons.mp delivered
    obtain ⟨c, rfl, reacted⟩ := clientRead_at_ok.mp called
    have told : (Moment.deliver (some c) packet).perform p =
        .ok { p with toSys := p.record (.read c packet) } := rfl
    refine run_cons.mpr ⟨_, told, run_append.mpr ⟨{ p with toSys := m }, ?_, ih rest⟩⟩
    exact react_moments reacted

/-- A dispatch that calls the client and is then removed. -/
theorem dispatch_moments {s m : Sys} {begins : Moment} {id : SourceId} {calls : List Call} {told : Sys}
    (begun : begins.perform { toSys := s } = .ok ⟨told, some id⟩) (reacted : react calls told = .ok m) :
    Transition.run Moment.perform { toSys := s } (begins :: calls.map .call ++ [.done]) =
      .ok { toSys := m.removeSource id } := by
  refine run_cons.mpr ⟨_, begun, run_snoc.mpr ⟨⟨m, some id⟩, ?_, rfl⟩⟩
  exact react_moments (p := ⟨told, some id⟩) reacted

/-- A step is what it consists of. -/
theorem step_moments {s t : Sys} (rest : nci.Remainder s.readBuf) (stepped : step s i = .ok t) :
    Transition.run Moment.perform { toSys := s } (i.moments s) = .ok { toSys := t } := by
  cases i with
  | call c =>
    have performed : c.perform s = .ok t := stepped
    exact run_cons.mpr ⟨_, call_ok.mpr ⟨t, performed, rfl⟩, rfl⟩
  | readWatch id input calls =>
    obtain ⟨scheduled, called⟩ := step_readWatch stepped
    rcases ioReadCallback_ok called with
      ⟨octets, short, came, handled⟩ | ⟨client, m, failed, present, reacted, rfl⟩
    · have octets' : CharsResult.octets input = some octets := by
        rcases came with rfl | ⟨rfl, rfl⟩ <;> rfl
      rw [ioReadHandle_eq rest (chars_narrow short rest)] at handled
      obtain ⟨m, delivered, done⟩ := bind_ok.mp handled
      obtain rfl := Except.ok.inj done
      obtain ⟨_, readBuf, same⟩ := buffering_object s octets
      simp only [Step.moments, octets']
      refine run_cons.mpr ⟨{ toSys := s.buffering octets }, ?_, run_snoc.mpr ⟨{ toSys := m }, ?_, rfl⟩⟩
      · rw [same]
        rfl
      · exact deliver_moments (p := { toSys := s.buffering octets }) delivered
    · have octets' : CharsResult.octets input = none := by
        rcases failed with rfl | rfl | rfl <;> rfl
      simp only [Step.moments, octets']
      refine dispatch_moments ?_ reacted
      simp [Moment.perform, scheduled_iff, scheduled, present]
  | idle id calls =>
    obtain ⟨scheduled, called⟩ := step_idle stepped
    obtain ⟨cb, m, _, known, reacted, rfl⟩ := halIoWriteComplete_ok called
    refine dispatch_moments ?_ reacted
    simp [Moment.perform, scheduled_iff, scheduled, known]

/-- So is a run. -/
theorem steps_moments {s t : Sys} (rest : nci.Remainder s.readBuf) (ran : steps s path = .ok t) :
    Transition.run Moment.perform { toSys := s } (moments s path) = .ok { toSys := t } := by
  induction path generalizing s with
  | nil =>
    obtain rfl := run_nil.mp ran
    rfl
  | cons i path ih =>
    obtain ⟨m, first, later⟩ := run_cons.mp ran
    simp only [moments, first]
    exact run_append.mpr ⟨_, step_moments rest first, ih (step_remainder rest first) later⟩

/-- Between two steps a run is at one of its points. -/
theorem Reachable.passed {s : Sys} (reached : Reachable s) : Passed { toSys := s } := by
  obtain ⟨env, new, path, created, ran⟩ := reached
  exact ⟨env, new, path, s, moments new path, created, ran, List.prefix_refl _,
    steps_moments (ioNew_remainder created) ran⟩

theorem PassedUnder.of_run {A : Point → Moment → Prop} {new s : Sys} (path : List Step)
    (created : ioNew env = .ok (some new)) (ran : steps new path = .ok s)
    (met : along Moment.perform A { toSys := new } (moments new path)) : PassedUnder A { toSys := s } :=
  ⟨env, new, path, s, moments new path, created, ran, List.prefix_refl _, met,
    steps_moments (ioNew_remainder created) ran⟩

/-- What holds of a new object and is preserved by every moment holds at every point. -/
theorem passed_invariant {P : Point → Prop} (preserves : ∀ {p m q}, P p → Moment.perform p m = .ok q → P q)
    (initial : ∀ {env new}, ioNew env = .ok (some new) → P { toSys := new }) {p : Point} (passed : Passed p) :
    P p := by
  obtain ⟨env, new, path, t, part, created, _, _, ran⟩ := passed
  exact run_invariant (A := fun _ => True) (fun before _ performed => preserves before performed)
    (initial created) (by simp) ran

theorem PassedUnder.passed {A : Point → Moment → Prop} (under : PassedUnder A p) : Passed p := by
  obtain ⟨env, new, path, t, part, created, ran, within, _, passed⟩ := under
  exact ⟨env, new, path, t, part, created, ran, within, passed⟩

theorem passedUnder_invariant {A : Point → Moment → Prop} {P : Point → Prop}
    (preserves : ∀ {p m q}, P p → A p m → Moment.perform p m = .ok q → P q)
    (initial : ∀ {env new}, ioNew env = .ok (some new) → P { toSys := new }) {p : Point}
    (under : PassedUnder A p) : P p := by
  obtain ⟨env, new, path, t, part, created, _, _, met, ran⟩ := under
  exact run_along preserves (initial created) met ran

end Pn54x
