import Pn54x.Io.Coherence
import Pn54x.Io.Quiescence
import Mathlib.Data.List.Nodup
import Mathlib.Data.List.Perm.Basic

/-! Completions of writes: the fields, the idle source and what the client is told go
together at every point of every run. -/
namespace Pn54x
open Transition Monitor

/-- Every source that the object knows is scheduled, once, and is not the one whose
function is running. -/
structure Installed (served : Option SourceId) (s : Sys) : Prop where
  known : ∀ func id, s.recorded func = some id → (id, func) ∈ s.sources ∧ served ≠ some id
  given : ∀ source ∈ s.sources, source.1 ≤ s.lastSource
  serving : ∀ id, served = some id → id ≤ s.lastSource
  distinct : (s.sources.map Prod.fst).Nodup

/-- Nothing changes that concerns sources. -/
theorem Installed.same {s t : Sys} (installed : Installed served s) (recorded : ∀ func, t.recorded func = s.recorded func)
    (sources : t.sources = s.sources) (last : t.lastSource = s.lastSource) : Installed served t := by
  constructor
  · intro func id known
    rw [sources]
    exact installed.known func id (recorded func ▸ known)
  · rw [sources, last]
    exact installed.given
  · exact last ▸ installed.serving
  · exact sources ▸ installed.distinct

theorem Installed.object {s t : Sys} (installed : Installed served s) (watch : t.readWatchId = s.readWatchId)
    (write : t.writeId = s.writeId) (sources : t.sources = s.sources) (last : t.lastSource = s.lastSource) :
    Installed served t := by
  refine installed.same ?_ sources last
  rintro (_ | _)
  · exact watch
  · exact write

theorem Installed.kind {s : Sys} (installed : Installed served s) {id : SourceId} {func func' : SourceFunc}
    (one : (id, func) ∈ s.sources) (other : (id, func') ∈ s.sources) : func = func' :=
  (Prod.mk.inj (List.inj_on_of_nodup_map installed.distinct one other rfl)).2

theorem removeSource_mem {s : Sys} {id : SourceId} {source : SourceId × SourceFunc} :
    source ∈ (s.removeSource id).sources ↔ source ∈ s.sources ∧ source.1 ≠ id := by
  simp [Sys.removeSource]

theorem Installed.filtered {s t : Sys} (installed : Installed served s) {id : SourceId}
    (sources : t.sources = (s.removeSource id).sources) (last : t.lastSource = s.lastSource)
    (known : ∀ func id', t.recorded func = some id' → s.recorded func = some id' ∧ id' ≠ id) :
    Installed served t := by
  have part : List.Sublist t.sources s.sources := sources ▸ List.filter_sublist
  refine ⟨fun func id' recorded => ?_, fun source member => ?_, last ▸ installed.serving,
    installed.distinct.sublist (part.map _)⟩
  · obtain ⟨before, other⟩ := known func id' recorded
    obtain ⟨scheduled, idle⟩ := installed.known func id' before
    rw [sources, removeSource_mem]
    exact ⟨⟨scheduled, other⟩, idle⟩
  · rw [last]
    exact installed.given source (part.subset member)

/-- The object forgets its source of a kind and removes it. -/
theorem Installed.forget {s t : Sys} (installed : Installed served s) (func : SourceFunc)
    (sources : t.sources = (s.recorded func).elim s.sources fun id => (s.removeSource id).sources)
    (last : t.lastSource = s.lastSource) (forgotten : t.recorded func = none)
    (others : ∀ other, other ≠ func → t.recorded other = s.recorded other) : Installed served t := by
  cases known : s.recorded func with
  | none =>
    rw [known] at sources
    refine installed.same (fun other => ?_) sources last
    by_cases same : other = func
    · rw [same, forgotten, known]
    · exact others other same
  | some id =>
    rw [known] at sources
    refine installed.filtered sources last fun other id' recorded => ?_
    have different : other ≠ func := by
      rintro rfl
      rw [forgotten] at recorded
      contradiction
    rw [others other different] at recorded
    refine ⟨recorded, ?_⟩
    rintro rfl
    exact different (installed.kind (installed.known _ _ recorded).1 (installed.known _ _ known).1)

/-- The object schedules a source and knows it. -/
theorem Installed.add {s t : Sys} (installed : Installed served s) (func : SourceFunc)
    (sources : t.sources = s.sources ++ [(s.lastSource + 1, func)]) (last : t.lastSource = s.lastSource + 1)
    (known : ∀ other, t.recorded other = if other = func then some (s.lastSource + 1) else s.recorded other) :
    Installed served t := by
  have fresh : ∀ source ∈ s.sources, source.1 ≠ s.lastSource + 1 := fun source member =>
    Nat.ne_of_lt (Nat.lt_succ_of_le (installed.given source member))
  constructor
  · intro other id recorded
    rw [known] at recorded
    split at recorded
    · obtain rfl := Option.some.inj recorded
      refine ⟨by simp [*], fun same => ?_⟩
      exact Nat.not_succ_le_self _ (installed.serving _ same)
    · obtain ⟨member, idle⟩ := installed.known other id recorded
      exact ⟨by simp [sources, member], idle⟩
  · intro source member
    rw [sources, List.mem_append, List.mem_singleton] at member
    rw [last]
    cases member with
    | inl old => exact Nat.le_succ_of_le (installed.given source old)
    | inr new => rw [new]
  · intro id same
    rw [last]
    exact Nat.le_succ_of_le (installed.serving id same)
  · rw [sources, List.map_append, List.map_singleton, List.nodup_append]
    refine ⟨installed.distinct, List.nodup_singleton _, ?_⟩
    intro id member id' single
    obtain ⟨source, scheduled, rfl⟩ := List.mem_map.mp member
    rw [List.mem_singleton.mp single]
    exact fresh source scheduled

theorem Installed.record {s : Sys} (installed : Installed served s) (e : Event) :
    Installed served (s.record e) := installed.object rfl rfl rfl rfl

theorem Installed.close {s : Sys} (installed : Installed served s) : Installed served (ioClose s) := by
  refine installed.forget .readCallback (ioClose_sources s) (ioClose_lastSource s) (ioClose_readWatchId s) ?_
  rintro (_ | _) other
  · contradiction
  · exact ioClose_writeId s

theorem Installed.perform {c : Call} (installed : Installed served s) (performed : c.perform s = .ok t) :
    Installed served t := by
  cases c with
  | start env client =>
    obtain ⟨ok, starts⟩ := perform_start performed
    obtain ⟨_, starts⟩ := halIoStart_starts starts
    cases starts with
    | unopened => exact installed.record _
    | pipeless | forkless | channelless =>
      refine (Installed.close ?_).record _
      exact installed.object rfl rfl rfl rfl
    | started => exact installed.add .readCallback rfl rfl (by rintro (_ | _) <;> rfl)
  | stop =>
    obtain rfl := Except.ok.inj performed
    rw [halIoStop, ioStop_eq]
    refine (Installed.close ?_).record _
    refine installed.forget .writeComplete rfl rfl rfl ?_
    rintro (_ | _) other
    · rfl
    · contradiction
  | write env chunks callback =>
    obtain ⟨ok, writes⟩ := perform_write performed
    obtain ⟨fd, files, _, ⟨rfl, rfl⟩ | ⟨data, writeBuf, _, _, _, rfl⟩⟩ := halIoWrite_ok writes
    · exact installed.object rfl rfl rfl rfl
    · split
      · cases callback with
        | none => exact installed.object rfl rfl rfl rfl
        | some cb => exact installed.add .writeComplete rfl rfl (by rintro (_ | _) <;> rfl)
      · exact installed.object rfl rfl rfl rfl
  | cancelWrite =>
    obtain rfl := Except.ok.inj performed
    rw [halIoCancelWrite_eq]
    refine installed.forget .writeComplete rfl rfl rfl ?_
    rintro (_ | _) other
    · rfl
    · contradiction
  | setPower env on =>
    obtain ⟨ok, power⟩ := perform_setPower performed
    obtain ⟨fd, files, rfl, _, rfl⟩ := ioSetPower_ok power
    split
    · split
      · exact installed.object rfl rfl rfl rfl
      · refine (Installed.close ?_).record _
        exact installed.object rfl rfl rfl rfl
    · exact installed.object rfl rfl rfl rfl

/-- A function begins to run whose source the object has just forgotten. -/
theorem Installed.serve {s t : Sys} {id : SourceId} {func : SourceFunc} (installed : Installed none s)
    (known : s.recorded func = some id) (forgotten : t.recorded func = none)
    (others : ∀ other, other ≠ func → t.recorded other = s.recorded other)
    (sources : t.sources = s.sources) (last : t.lastSource = s.lastSource) : Installed (some id) t := by
  constructor
  · intro other id' recorded
    have different : other ≠ func := by
      rintro rfl
      rw [forgotten] at recorded
      contradiction
    rw [others other different] at recorded
    have scheduled := (installed.known _ _ recorded).1
    refine ⟨sources ▸ scheduled, fun same => ?_⟩
    obtain rfl := Option.some.inj same
    exact different (installed.kind scheduled (installed.known _ _ known).1)
  · rw [sources, last]
    exact installed.given
  · rintro _ ⟨⟩
    rw [last]
    exact installed.given _ (installed.known _ _ known).1
  · exact sources ▸ installed.distinct

theorem Installed.moment {p q : Point} {m : Moment} (installed : Installed p.serving p.toSys)
    (recorded : Recorded p.serving p.toSys) (performed : m.perform p = .ok q) :
    Installed q.serving q.toSys := by
  cases m with
  | call c =>
    obtain ⟨s, called, rfl⟩ := call_ok.mp performed
    exact installed.perform called
  | buffer readBuf =>
    obtain rfl := Except.ok.inj performed
    exact installed.object rfl rfl rfl rfl
  | deliver client packet =>
    obtain ⟨c, _, rfl⟩ := deliver_ok performed
    exact installed.record _
  | fail id =>
    obtain ⟨scheduled, idle, client, _, rfl⟩ := fail_ok performed
    rw [idle] at installed recorded
    refine installed.serve (recorded.known scheduled) rfl ?_ rfl rfl
    rintro (_ | _) other
    · contradiction
    · rfl
  | complete id =>
    obtain ⟨scheduled, idle, cb, _, rfl⟩ := complete_ok performed
    rw [idle] at installed recorded
    refine installed.serve (recorded.known scheduled) rfl ?_ rfl rfl
    rintro (_ | _) other
    · rfl
    · contradiction
  | done =>
    obtain ⟨id, serving, rfl⟩ := done_ok performed
    rw [serving] at installed
    have kept : Installed (some id) (p.removeSource id) := by
      refine installed.filtered rfl rfl fun func id' known => ⟨by cases func <;> exact known, ?_⟩
      rintro rfl
      exact (installed.known func id' (by cases func <;> exact known)).2 rfl
    exact ⟨fun func id' known => ⟨(kept.known func id' known).1, nofun⟩, kept.given, nofun, kept.distinct⟩

theorem ioNew_installed {s : Sys} (created : ioNew env = .ok (some s)) : Installed none s := by
  have empty : Installed none {} := ⟨by rintro (_ | _) <;> nofun, nofun, nofun, List.nodup_nil⟩
  exact empty.perform (ioNew_performed created)

theorem passed_installed (passed : Passed p) : Installed p.serving p.toSys :=
  (passed_invariant (P := fun p => Recorded p.serving p.toSys ∧ Installed p.serving p.toSys)
    (fun before performed => ⟨before.1.moment performed, before.2.moment before.1 performed⟩)
    (fun created => ⟨ioNew_recorded created, ioNew_installed created⟩) passed).2

/-- The idle sources of the object that are still to be dispatched. -/
def Point.idles (p : Point) : List SourceId :=
  (p.sources.filter fun source => source.2 = .writeComplete ∧ p.serving ≠ some source.1).map Prod.fst

theorem idles_eq {p : Point} (recorded : Recorded p.serving p.toSys) (installed : Installed p.serving p.toSys) :
    p.idles = p.writeId.toList := by
  have distinct : p.idles.Nodup := installed.distinct.sublist (List.filter_sublist.map _)
  have member (id : SourceId) : id ∈ p.idles ↔ p.writeId = some id := by
    simp only [Point.idles, List.mem_map, List.mem_filter, decide_eq_true_eq]
    constructor
    · rintro ⟨⟨_, _⟩, ⟨scheduled, rfl, idle⟩, rfl⟩
      exact (recorded.sources _ _ scheduled).resolve_left idle
    · intro known
      obtain ⟨scheduled, idle⟩ := installed.known .writeComplete id known
      exact ⟨(id, .writeComplete), ⟨scheduled, rfl, idle⟩, rfl⟩
  cases pending : p.writeId with
  | none =>
    refine List.eq_nil_iff_forall_not_mem.mpr fun id scheduled => ?_
    have known := (member id).mp scheduled
    rw [pending] at known
    contradiction
  | some id =>
    refine List.perm_singleton.mp ((List.perm_ext_iff_of_nodup distinct (List.nodup_singleton id)).mpr ?_)
    intro id'
    rw [member, pending, List.mem_singleton, Option.some.injEq, eq_comm]

/-- The callback that is still to be called for a write, by what was seen so far. -/
def owes : Option Callback → Event → Option Callback
  | _, .write (some cb) true => some cb
  | _, .writeComplete _ _ _ | _, .cancelWrite | _, .stop => none
  | owed, _ => owed

/-- A completion that is not owed or does not tell the client TRUE, or a write accepted
while one is owed. -/
def misfires : Option Callback → Event → Bool
  | owed, .writeComplete _ cb ok => owed ≠ some cb || !ok
  | owed, .write (some _) true => owed.isSome
  | _, _ => false

theorem inert_owes {e : Event} (inert : e.Inert = true) (owed : Option Callback) : owes owed e = owed := by
  cases e <;> simp_all [Event.Inert, owes]

theorem inert_fires {e : Event} (inert : e.Inert = true) (owed : Option Callback) : misfires owed e = false := by
  cases e <;> simp_all [Event.Inert, misfires]

/-- What a call does to the pending completion shows in what it returns. -/
structure Settling (c : Call) (ok : Bool) (s t : Sys) : Prop where
  callback : t.writeCb = owes s.writeCb (c.returns ok)
  pair : s.writeId.isSome = s.writeCb.isSome → t.writeId.isSome = t.writeCb.isSome
  single : misfires s.writeCb (c.returns ok) = false

theorem settling_start {s t : Sys} (starts : halIoStart env client s = .ok (ok, t)) :
    Settling (.start env client) ok s t := by
  obtain ⟨_, starts⟩ := halIoStart_starts starts
  cases starts with
  | unopened | started => exact ⟨rfl, id, rfl⟩
  | pipeless | forkless | channelless =>
    refine ⟨ioClose_writeCb _, fun pair => ?_, rfl⟩
    rw [record_object, ioClose_writeCb, ioClose_writeId]
    exact pair

theorem settling_stop (s : Sys) : Settling .stop true s (halIoStop s) := by
  rw [halIoStop, ioStop_eq]
  exact ⟨ioClose_writeCb _, fun _ => by simp, rfl⟩

theorem settling_write {s t : Sys} (writes : halIoWrite env chunks callback s = .ok (ok, t)) :
    Settling (.write env chunks callback) ok s t := by
  obtain ⟨fd, files, _, ⟨rfl, rfl⟩ | ⟨data, writeBuf, idle, _, accepted, rfl⟩⟩ := halIoWrite_ok writes
  · cases callback <;> exact ⟨rfl, id, rfl⟩
  · cases ok with
    | false => cases callback <;> exact ⟨rfl, id, rfl⟩
    | true =>
      cases callback with
      | none => exact ⟨rfl, id, rfl⟩
      | some cb => exact ⟨rfl, fun _ => rfl, by rw [idle]; rfl⟩

theorem settling_cancelWrite (s : Sys) : Settling .cancelWrite true s (halIoCancelWrite s) := by
  rw [halIoCancelWrite_eq]
  exact ⟨rfl, fun _ => rfl, rfl⟩

theorem settling_setPower {s t : Sys} (power : ioSetPower env on s = .ok (ok, t)) :
    Settling (.setPower env on) ok s t := by
  obtain ⟨fd, files, _, _, rfl⟩ := ioSetPower_ok power
  cases ok with
  | false => exact ⟨rfl, id, rfl⟩
  | true =>
    cases on with
    | true => exact ⟨rfl, id, rfl⟩
    | false =>
      refine ⟨ioClose_writeCb _, fun pair => ?_, rfl⟩
      simpa using pair

theorem perform_settling {c : Call} (performed : c.perform s = .ok t) :
    ∃ inert ok, Returned c s t inert ok ∧ Settling c ok s t := by
  cases c with
  | start env client =>
    obtain ⟨ok, starts⟩ := perform_start performed
    obtain ⟨inert, returned⟩ := halIoStart_returned starts
    exact ⟨inert, ok, returned, settling_start starts⟩
  | stop =>
    obtain rfl := Except.ok.inj performed
    obtain ⟨inert, returned⟩ := halIoStop_returned s
    exact ⟨inert, true, returned, settling_stop s⟩
  | write env chunks callback =>
    obtain ⟨ok, writes⟩ := perform_write performed
    obtain ⟨inert, returned⟩ := halIoWrite_returned writes
    exact ⟨inert, ok, returned, settling_write writes⟩
  | cancelWrite =>
    obtain rfl := Except.ok.inj performed
    obtain ⟨inert, returned⟩ := halIoCancelWrite_returned s
    exact ⟨inert, true, returned, settling_cancelWrite s⟩
  | setPower env on =>
    obtain ⟨ok, power⟩ := perform_setPower performed
    obtain ⟨inert, returned⟩ := ioSetPower_returned power
    exact ⟨inert, ok, returned, settling_setPower power⟩

/-- The fields are true to what was seen of writes and completions, and none misfired. -/
structure Answered (s : Sys) : Prop where
  owed : after owes none s.log = s.writeCb
  pair : s.writeId.isSome = s.writeCb.isSome
  never : Never owes misfires none s.log

theorem Answered.perform {c : Call} (answered : Answered s) (performed : c.perform s = .ok t) : Answered t := by
  obtain ⟨inert, ok, returned, settling⟩ := perform_settling performed
  have before : after owes none (s.log ++ inert) = s.writeCb := by
    rw [after_append, after_inert fun e member => inert_owes (returned.still e member)]
    exact answered.owed
  constructor
  · rw [returned.log, after_append, before, settling.callback]
    rfl
  · exact settling.pair answered.pair
  · rw [returned.log, never_snoc, before, never_append]
    exact ⟨⟨answered.never, never_inert (fun e member => inert_fires (returned.still e member)) _⟩,
      settling.single⟩

theorem Answered.moment {p q : Point} {m : Moment} (answered : Answered p.toSys)
    (performed : m.perform p = .ok q) : Answered q.toSys := by
  cases m with
  | call c =>
    obtain ⟨s, called, rfl⟩ := call_ok.mp performed
    exact answered.perform called
  | buffer readBuf =>
    obtain rfl := Except.ok.inj performed
    exact ⟨answered.owed, answered.pair, answered.never⟩
  | deliver client packet =>
    obtain ⟨c, _, rfl⟩ := deliver_ok performed
    refine ⟨?_, answered.pair, never_snoc.mpr ⟨answered.never, rfl⟩⟩
    rw [record_log, after_append]
    exact answered.owed
  | fail id =>
    obtain ⟨_, _, client, _, rfl⟩ := fail_ok performed
    refine ⟨?_, answered.pair, never_snoc.mpr ⟨answered.never, rfl⟩⟩
    rw [record_log, after_append]
    exact answered.owed
  | complete id =>
    obtain ⟨_, _, cb, pending, rfl⟩ := complete_ok performed
    have owed : after owes none p.log = some cb := answered.owed.trans pending
    constructor
    · rw [record_log, after_append]
      rfl
    · rfl
    · exact never_snoc.mpr ⟨answered.never, by simp [misfires, owed]⟩
  | done =>
    obtain ⟨id, _, rfl⟩ := done_ok performed
    exact ⟨answered.owed, answered.pair, answered.never⟩

theorem ioNew_answered {s : Sys} (created : ioNew env = .ok (some s)) : Answered s := by
  have empty : Answered {} := ⟨rfl, rfl, trivial⟩
  exact empty.perform (ioNew_performed created)

theorem passed_answered (passed : Passed p) : Answered p.toSys :=
  passed_invariant (P := fun p => Answered p.toSys) Answered.moment ioNew_answered passed

/-- A write that is owed its completion gets it from the next dispatch. -/
theorem owed_completes {s : Sys} {id : SourceId} (known : s.writeId = some id)
    (scheduled : (id, SourceFunc.writeComplete) ∈ s.sources) (pending : s.writeCb = some cb) :
    ∃ t, step s (.idle id []) = .ok t ∧ t.log = s.log ++ [.writeComplete s.client cb true] ∧ t.writeCb = none := by
  refine ⟨Sys.removeSource (Sys.record { s with writeId := none, writeCb := none } (.writeComplete s.client cb true)) id,
    ?_, rfl, rfl⟩
  simp only [step, if_pos scheduled, halIoWriteComplete, known, pending]
  rfl

/-- At every point of every run, the two fields and one idle source are there together,
every completion was owed to a write that returned TRUE and told the client so, no write
was given up for another, and what is still owed is pending and will be reported when it is dispatched. -/
theorem write_completes_once {p : Point} (passed : Passed p) :
    (p.writeId.isSome = p.writeCb.isSome ∧ p.idles = p.writeId.toList) ∧
    Never owes misfires none p.log ∧ after owes none p.log = p.writeCb ∧
    ∀ cb, p.writeCb = some cb → ∃ id t, p.idles = [id] ∧ step p.toSys (.idle id []) = .ok t ∧
      t.log = p.log ++ [.writeComplete p.client cb true] ∧ t.writeCb = none := by
  have recorded := passed_recorded passed
  have installed := passed_installed passed
  have answered := passed_answered passed
  have idles := idles_eq recorded installed
  refine ⟨⟨answered.pair, idles⟩, answered.never, answered.owed, fun cb pending => ?_⟩
  have known : p.writeId.isSome = true := by rw [answered.pair, pending]; rfl
  obtain ⟨id, known⟩ := Option.isSome_iff_exists.mp known
  obtain ⟨t, completed⟩ := owed_completes known (installed.known .writeComplete id known).1 pending
  exact ⟨id, t, by rw [idles, known]; rfl, completed⟩

/-- The completion of a write makes the next one, which is then cancelled. -/
theorem write_completes_once_again : ∃ s, steps .fresh [.call (.write ⟨some 3, some 3⟩ [[0x20, 0x00, 0x00]] (some 5)),
      .idle 1 [.write ⟨none, some 3⟩ [[0x20, 0x01, 0x00]] (some 6)], .call .cancelWrite] = .ok s ∧
    Never owes misfires none s.log ∧ after owes none s.log = none := by
  refine ⟨_, rfl, ?_⟩
  have whole := write_completes_once (Reachable.fresh
    [.call (.write ⟨some 3, some 3⟩ [[0x20, 0x00, 0x00]] (some 5)),
      .idle 1 [.write ⟨none, some 3⟩ [[0x20, 0x01, 0x00]] (some 6)], .call .cancelWrite] rfl).passed
  exact ⟨whole.2.1, whole.2.2.1⟩

end Pn54x
