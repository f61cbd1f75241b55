import Pn54x.Io.Descriptors
import Pn54x.Library.Monitor

/-! The plugin in the process of nfcd, which starts and stops it any number of times. Every
start makes an adapter with an object of its own, and every stop takes both away. -/
namespace Pn54x
open Framing Transition Monitor

/-- Identity of an `NfcManager`. -/
abbrev Manager := Nat

/-- What the plugin asks of the manager, and of the adapter that it refers to. -/
inductive Asked where
  | managerRef (manager : Manager)
  | addAdapter (manager : Option Manager) (present : Bool)
  | removeAdapter (manager : Option Manager)
  | adapterUnref
  | managerUnref (manager : Option Manager)
  deriving DecidableEq, Repr

/-- `Pn54xNfcPlugin`. The adapter is known by its object. -/
structure Pn54xNfcPlugin where
  manager : Option Manager := none
  adapter : Option Pn54xIo := none
  deriving DecidableEq, Repr

/-- What objects leave in the kernel and in GLib outlives them. -/
structure Process extends Pn54xNfcPlugin, Kernel where
  asked : List Asked := []
  deriving DecidableEq, Repr

/-- `PN54X_DEFAULT_DEVICE`. -/
def defaultDevice : String := "/dev/pn54x"

/-- The device that the plugin takes. `config` is what was loaded of the configuration, with the
value of its `Device` key. -/
def pluginDevice : Option (Option String) → String
  | some (some dev) => if dev.isEmpty then defaultDevice else dev
  | _ => defaultDevice

/-- `pn54x_io_new` in a process that has had other objects before. -/
def ioNewIn (kernel : Kernel) (env : PowerEnv) : Exec (Option Pn54xIo × Kernel) := do
  let (ok, s) ← ioSetPower env false { toKernel := kernel }
  if ok then pure (some s.toPn54xIo, s.toKernel) else pure (none, (ioFree s).toKernel)

/-- `pn54x_nfc_adapter_finalize`, with the calls that `nci_adapter_finalize_core` makes. -/
def nfcAdapterFinalize (core : List Call) (s : Sys) : Exec Kernel := do
  let s ← react core s
  return (ioFree s).toKernel

namespace Process

def ask (p : Process) (a : Asked) : Process := { p with asked := p.asked ++ [a] }

/-- The object of the adapter; the kernel is the same without one. -/
def sys (p : Process) : Sys := ⟨p.adapter.getD {}, p.toKernel⟩

end Process

/-- `pn54x_nfc_plugin_start`. The answers of the kernel depend on the device. -/
def nfcPluginStart (config : Option (Option String)) (env : String → PowerEnv) (manager : Manager)
    (self : Process) : Exec (Bool × Process) := do
  let dev := pluginDevice config
  let self := { self.ask (.managerRef manager) with manager := some manager }
  let (adapter, kernel) ← ioNewIn self.toKernel (env dev)
  let self := { self with adapter, toKernel := kernel }
  return (true, self.ask (.addAdapter self.manager self.adapter.isSome))

/-- Removing the adapter, if there is one. Others may use it until it is removed, and then the
plugin's reference is the last one. -/
def dropAdapter (removing core : List Call) (self : Process) : Exec Process :=
  match self.adapter with
  | some io => do
    let self := self.ask (.removeAdapter self.manager)
    let s ← react removing ⟨io, self.toKernel⟩
    let self := self.ask .adapterUnref
    let kernel ← nfcAdapterFinalize core s
    return { self with adapter := none, toKernel := kernel }
  | none => return self

/-- `pn54x_nfc_plugin_stop`. -/
def nfcPluginStop (removing core : List Call) (self : Process) : Exec Process := do
  let self ← dropAdapter removing core self
  return { self.ask (.managerUnref self.manager) with manager := none }

/-- nfcd starts the plugin or stops it, or something happens to the adapter's object. -/
inductive Occurrence where
  | start (config : Option (Option String)) (env : String → PowerEnv) (manager : Manager)
  | main (i : Step)
  | stop (removing core : List Call)

def Process.step (self : Process) : Occurrence → Exec Process
  | .start config env manager =>
    if self.manager.isSome then .error .impossible else do return (← nfcPluginStart config env manager self).2
  | .main i =>
    match self.adapter with
    | some io => do
      let s ← Pn54x.step ⟨io, self.toKernel⟩ i
      return { self with adapter := some s.toPn54xIo, toKernel := s.toKernel }
    | none => .error .impossible
  | .stop removing core =>
    if self.manager.isNone then .error .impossible else nfcPluginStop removing core self

/-- What the plugin refers to. -/
structure Held where
  manager : Option Manager := none
  adapter : Bool := false
  registered : Bool := false
  deriving DecidableEq, Repr

def holds (h : Held) : Asked → Held
  | .managerRef manager => { h with manager := some manager }
  | .addAdapter _ present => { h with adapter := present, registered := present }
  | .removeAdapter _ => { h with registered := false }
  | .adapterUnref => { h with adapter := false }
  | .managerUnref _ => { h with manager := none }

/-- A reference is lost or dropped without being held, or the manager is asked for something
that it is not there for. -/
def mishandles (h : Held) : Asked → Bool
  | .managerRef _ => h.manager.isSome
  | .addAdapter manager _ => h.adapter || manager.isNone || manager ≠ h.manager
  | .removeAdapter manager => !h.registered || manager.isNone || manager ≠ h.manager
  | .adapterUnref => !h.adapter || h.registered
  | .managerUnref manager => h.adapter || manager.isNone || manager ≠ h.manager

/-- What holds of an object in its process at every time, also if it is not there. -/
structure Sound (s : Sys) : Prop where
  remainder : nci.Remainder s.readBuf
  coherent : Coherent s
  recorded : Recorded none s
  holding : Holding s

section
variable {s t : Sys}

theorem Sound.perform {c : Call} (sound : Sound s) (performed : c.perform s = .ok t) : Sound t := by
  constructor
  · rw [perform_readBuf performed]
    split
    · exact nci.remainder_nil
    · exact sound.remainder
  · exact sound.coherent.perform performed
  · exact sound.recorded.perform performed
  · exact sound.holding.perform performed

theorem Sound.react {calls : List Call} (sound : Sound s) (reacted : Pn54x.react calls s = .ok t) : Sound t :=
  run_invariant (P := Sound) (A := fun _ => True) (fun sound _ performed => sound.perform performed) sound
    (by simp) reacted

theorem Sound.step {i : Step} (sound : Sound s) (stepped : Pn54x.step s i = .ok t) : Sound t := by
  have both : Coherent t ∧ Holding t :=
    run_invariant (P := fun p => Coherent p.toSys ∧ Holding p.toSys) (A := fun _ => True)
      (fun before _ performed => ⟨before.1.moment performed, before.2.moment performed⟩)
      ⟨sound.coherent, sound.holding⟩ (by simp) (step_moments sound.remainder stepped)
  exact ⟨step_remainder sound.remainder stepped, both.1, sound.recorded.step sound.remainder stepped, both.2⟩

/-- What an object leaves when it is freed is sound without it. -/
theorem Sound.freed (sound : Sound s) : Sound { toKernel := (ioFree s).toKernel } := by
  have stopped : Sound (halIoStop s) := sound.perform (c := .stop) rfl
  have unread : (halIoStop s).readPid = none := by
    rw [halIoStop, ioStop_eq]
    exact ioClose_readPid _
  have unwritten : (halIoStop s).writeId = none := by
    rw [halIoStop, ioStop_eq]
    exact ioClose_writeId _
  constructor
  · exact nci.remainder_nil
  · exact ⟨rfl, rfl, by simp, by simp, (stopped.coherent.idle unread).2.2.2⟩
  · refine ⟨fun id func member => ?_, fun _ => rfl⟩
    have known := (stopped.recorded.sources id func member).resolve_left (by simp)
    cases func with
    | readCallback => exact absurd (known.symm.trans (stopped.recorded.watched unread)) (by simp)
    | writeComplete => exact absurd (known.symm.trans unwritten) (by simp)
  · exact ⟨stopped.holding.distinct, by simp, by simp, by simp⟩

/-- Where everything that is open is stored, nothing is open without an object. -/
theorem Owned.freed (owned : Owned s) (sound : Sound s) : Owned { toKernel := (ioFree s).toKernel } :=
  owned_nil (owned.free sound.holding)

theorem ioNewIn_ok {kernel : Kernel} (created : ioNewIn kernel env = .ok (adapter, kernel')) :
    ∃ ok s, ioSetPower env false { toKernel := kernel } = .ok (ok, s) ∧
      (adapter = some s.toPn54xIo ∧ kernel' = s.toKernel ∨ adapter = none ∧ kernel' = (ioFree s).toKernel) := by
  obtain ⟨⟨ok, s⟩, power, done⟩ := bind_ok.mp created
  refine ⟨ok, s, power, ?_⟩
  cases ok with
  | true =>
    obtain ⟨rfl, rfl⟩ := Prod.mk.inj (pure_ok.mp done)
    exact .inl ⟨rfl, rfl⟩
  | false =>
    obtain ⟨rfl, rfl⟩ := Prod.mk.inj (pure_ok.mp done)
    exact .inr ⟨rfl, rfl⟩

/-- What holds of the object holds if it is made in a process where it holds without one. -/
theorem ioNewIn_keeps {P : Sys → Prop} {kernel : Kernel} (created : ioNewIn kernel env = .ok (adapter, kernel'))
    (switch : ∀ {s : Sys}, Call.perform { toKernel := kernel } (.setPower env false) = .ok s → P s)
    (freed : ∀ {s : Sys}, P s → P { toKernel := (ioFree s).toKernel }) : P ⟨adapter.getD {}, kernel'⟩ := by
  obtain ⟨ok, s, power, outcome⟩ := ioNewIn_ok created
  have kept : P s := switch (bind_ok.mpr ⟨_, power, rfl⟩)
  rcases outcome with ⟨rfl, rfl⟩ | ⟨rfl, rfl⟩
  · exact kept
  · exact freed kept

end

/-- Every call that starts the HAL cleans up behind itself. -/
def Process.Tidy (self : Process) : Occurrence → Prop
  | .start _ _ _ => True
  | .main i => along Moment.perform (fun p m => m.Tidy p = true) { toSys := self.sys } (i.moments self.sys)
  | .stop removing core => self.adapter.isSome = true →
    along Call.perform (fun s c => (Moment.call c).Tidy { toSys := s } = true) self.sys (removing ++ core)

instance (self : Process) : (o : Occurrence) → Decidable (self.Tidy o)
  | .start _ _ _ => .isTrue trivial
  | .main _ => inferInstanceAs (Decidable (along _ _ _ _))
  | .stop _ _ => inferInstanceAs (Decidable (_ → along _ _ _ _))

section
variable {self next : Process}

theorem sys_present (present : self.adapter = some io) : self.sys = ⟨io, self.toKernel⟩ := by
  rw [Process.sys, present]
  rfl

theorem sys_absent (absent : self.adapter = none) : self.sys = { toKernel := self.toKernel } := by
  rw [Process.sys, absent]
  rfl

theorem step_start (stepped : self.step (.start config env manager) = .ok next) : self.manager = none ∧
    ∃ adapter kernel, ioNewIn self.toKernel (env (pluginDevice config)) = .ok (adapter, kernel) ∧
      next = ⟨⟨some manager, adapter⟩, kernel,
        self.asked ++ [.managerRef manager, .addAdapter (some manager) adapter.isSome]⟩ := by
  simp only [Process.step] at stepped
  split at stepped
  · contradiction
  · rename_i idle
    obtain ⟨result, started, done⟩ := bind_ok.mp stepped
    obtain rfl := pure_ok.mp done
    obtain ⟨⟨adapter, kernel⟩, created, done⟩ := bind_ok.mp started
    obtain rfl := pure_ok.mp done
    refine ⟨by simpa using idle, adapter, kernel, created, ?_⟩
    simp [Process.ask]

theorem step_main (stepped : self.step (.main i) = .ok next) : ∃ io s, self.adapter = some io ∧
    Pn54x.step ⟨io, self.toKernel⟩ i = .ok s ∧
      next = { self with adapter := some s.toPn54xIo, toKernel := s.toKernel } := by
  simp only [Process.step] at stepped
  split at stepped
  · obtain ⟨s, happened, done⟩ := bind_ok.mp stepped
    obtain rfl := pure_ok.mp done
    exact ⟨_, s, ‹_›, happened, rfl⟩
  · contradiction

theorem step_stop (stepped : self.step (.stop removing core) = .ok next) : ∃ manager, self.manager = some manager ∧
    ((self.adapter = none ∧
        next = ⟨⟨none, none⟩, self.toKernel, self.asked ++ [.managerUnref (some manager)]⟩) ∨
      ∃ io s, self.adapter = some io ∧ react (removing ++ core) ⟨io, self.toKernel⟩ = .ok s ∧
        next = ⟨⟨none, none⟩, (ioFree s).toKernel,
          self.asked ++ [.removeAdapter (some manager), .adapterUnref, .managerUnref (some manager)]⟩) := by
  simp only [Process.step] at stepped
  split at stepped
  · contradiction
  · obtain ⟨manager, known⟩ : ∃ manager, self.manager = some manager := by
      apply Option.isSome_iff_exists.mp
      simpa [← Option.isSome_iff_ne_none] using ‹¬self.manager.isNone = true›
    refine ⟨manager, known, ?_⟩
    obtain ⟨rest, dropped, done⟩ := bind_ok.mp stepped
    obtain rfl := pure_ok.mp done
    unfold dropAdapter at dropped
    split at dropped
    · rename_i io present
      obtain ⟨s, removed, dropped⟩ := bind_ok.mp dropped
      obtain ⟨kernel, finalized, done⟩ := bind_ok.mp dropped
      obtain rfl := pure_ok.mp done
      obtain ⟨t, freed, done⟩ := bind_ok.mp finalized
      obtain rfl := pure_ok.mp done
      refine .inr ⟨io, t, present, run_append.mpr ⟨s, removed, freed⟩, ?_⟩
      simp [Process.ask, known]
    · obtain rfl := pure_ok.mp dropped
      refine .inl ⟨‹_›, ?_⟩
      simp [Process.ask, known, ‹self.adapter = none›]

/-- The plugin has what it refers to, and gave back everything else. -/
structure Living (p : Process) : Prop where
  sound : Sound p.sys
  held : after holds {} p.asked = ⟨p.manager, p.adapter.isSome, p.adapter.isSome⟩
  never : Never holds mishandles {} p.asked
  stopped : p.manager = none → p.adapter = none

theorem living_empty : Living {} := by
  constructor
  · exact ⟨nci.remainder_nil, coherent_empty, ⟨nofun, fun _ => rfl⟩, holding_empty⟩
  · rfl
  · trivial
  · exact fun _ => rfl

/-- Without an adapter, everything that holds of the process holds without an object. -/
theorem Living.absent (living : Living self) (absent : self.adapter = none) :
    Sound { toKernel := self.toKernel } := sys_absent absent ▸ living.sound

theorem Living.present (living : Living self) (present : self.adapter = some io) :
    Sound ⟨io, self.toKernel⟩ := sys_present present ▸ living.sound

theorem Living.asks (living : Living self) (asked : List Asked) (held : Held)
    (fine : Never holds mishandles ⟨self.manager, self.adapter.isSome, self.adapter.isSome⟩ asked)
    (leaves : after holds ⟨self.manager, self.adapter.isSome, self.adapter.isSome⟩ asked = held) :
    after holds {} (self.asked ++ asked) = held ∧ Never holds mishandles {} (self.asked ++ asked) := by
  rw [after_append, never_append, living.held]
  exact ⟨leaves, living.never, fine⟩

theorem Living.step {o : Occurrence} (living : Living self) (stepped : self.step o = .ok next) : Living next := by
  cases o with
  | start config env manager =>
    obtain ⟨idle, adapter, kernel, created, rfl⟩ := step_start stepped
    have absent : self.adapter = none := living.stopped idle
    have asks := living.asks [.managerRef manager, .addAdapter (some manager) adapter.isSome]
      ⟨some manager, adapter.isSome, adapter.isSome⟩
      (by simp [Never, holds, mishandles, idle, absent]) (by simp [after, holds])
    constructor
    · exact ioNewIn_keeps created (living.absent absent).perform Sound.freed
    · exact asks.1
    · exact asks.2
    · simp
  | main i =>
    obtain ⟨io, s, present, happened, rfl⟩ := step_main stepped
    constructor
    · exact (living.present present).step happened
    · simpa [present] using living.held
    · exact living.never
    · exact fun idle => absurd (living.stopped idle) (by simp [present])
  | stop removing core =>
    obtain ⟨manager, known, ⟨absent, rfl⟩ | ⟨io, s, present, freed, rfl⟩⟩ := step_stop stepped
    · have asks := living.asks [.managerUnref (some manager)] {}
        (by simp [Never, mishandles, known, absent]) (by simp [after, holds, absent])
      constructor
      · exact living.absent absent
      · exact asks.1
      · exact asks.2
      · exact fun _ => rfl
    · have asks := living.asks [.removeAdapter (some manager), .adapterUnref, .managerUnref (some manager)] {}
        (by simp [Never, holds, mishandles, known, present]) (by simp [after, holds])
      constructor
      · exact ((living.present present).react freed).freed
      · exact asks.1
      · exact asks.2
      · exact fun _ => rfl

/-- A tidy call leaves nothing open that is not stored. -/
theorem Owned.react {s t : Sys} {calls : List Call} (owned : Owned s) (sound : Sound s)
    (tidy : along Call.perform (fun s c => (Moment.call c).Tidy { toSys := s } = true) s calls)
    (reacted : Pn54x.react calls s = .ok t) : Owned t := by
  refine (run_along (P := fun s => Owned s ∧ Sound s) ?_ ⟨owned, sound⟩ tidy reacted).1
  rintro s c t ⟨owned, sound⟩ tidy performed
  refine ⟨owned.perform sound.holding sound.coherent ?_ performed, sound.perform performed⟩
  rintro env client rfl
  exact tidy

theorem Owned.step {s t : Sys} {i : Step} (owned : Owned s) (sound : Sound s)
    (tidy : along Moment.perform (fun p m => m.Tidy p = true) { toSys := s } (i.moments s))
    (stepped : Pn54x.step s i = .ok t) : Owned t := by
  refine (run_along (P := fun p => Owned p.toSys ∧ Holding p.toSys ∧ Coherent p.toSys) ?_
    ⟨owned, sound.holding, sound.coherent⟩ tidy (step_moments sound.remainder stepped)).1
  rintro p m q ⟨owned, holding, coherent⟩ tidy performed
  exact ⟨owned.moment holding coherent tidy performed, holding.moment performed, coherent.moment performed⟩

/-- Tidy occurrences leave nothing open that is not stored in the object of the adapter. -/
theorem Living.owned {o : Occurrence} (living : Living self) (owned : Owned self.sys) (tidy : self.Tidy o)
    (stepped : self.step o = .ok next) : Owned next.sys := by
  cases o with
  | start config env manager =>
    obtain ⟨idle, adapter, kernel, created, rfl⟩ := step_start stepped
    have absent : self.adapter = none := living.stopped idle
    rw [sys_absent absent] at owned
    have sound := living.absent absent
    have both : Owned ⟨adapter.getD {}, kernel⟩ ∧ Sound ⟨adapter.getD {}, kernel⟩ := by
      refine ioNewIn_keeps (P := fun s => Owned s ∧ Sound s) created (fun performed => ?_) fun kept => ?_
      · exact ⟨owned.perform sound.holding sound.coherent (by simp) performed, sound.perform performed⟩
      · exact ⟨kept.1.freed kept.2, kept.2.freed⟩
    exact both.1
  | main i =>
    obtain ⟨io, s, present, happened, rfl⟩ := step_main stepped
    simp only [Process.Tidy, sys_present present] at owned tidy
    exact owned.step (living.present present) tidy happened
  | stop removing core =>
    obtain ⟨manager, known, ⟨absent, rfl⟩ | ⟨io, s, present, freed, rfl⟩⟩ := step_stop stepped
    · rw [sys_absent absent] at owned
      exact owned
    · have admitted := tidy (by rw [present]; rfl)
      rw [sys_present present] at owned admitted
      have sound := living.present present
      exact (owned.react sound admitted freed).freed (sound.react freed)

end

/-- However often the plugin is started and stopped, it never drops a reference that it does not
hold and never loses one. What is in the process belongs to the present adapter, and a stop
leaves nothing behind. -/
theorem plugin_lives {p : Process} {path : List Occurrence} (ran : Transition.run Process.step {} path = .ok p) :
    Never holds mishandles {} p.asked ∧ Coherent p.sys ∧ Recorded none p.sys ∧
    (p.manager = none → after holds {} p.asked = {} ∧ p.children = [] ∧ p.sources = []) ∧
    (along Process.step Process.Tidy {} path → Owned p.sys ∧ (p.manager = none → p.files = [])) := by
  have living : Living p := run_invariant (A := fun _ => True) (fun living _ => living.step) living_empty (by simp) ran
  refine ⟨living.never, living.sound.coherent, living.sound.recorded, fun stopped => ?_, fun tidy => ?_⟩
  · have absent : p.adapter = none := living.stopped stopped
    have sound := living.absent absent
    refine ⟨?_, sound.coherent.children, ?_⟩
    · simpa [stopped, absent] using living.held
    · refine List.eq_nil_iff_forall_not_mem.mpr fun (id, func) member => ?_
      have known := (sound.recorded.sources id func member).resolve_left nofun
      cases func <;> exact absurd known nofun
  · have owned : Owned p.sys := by
      refine (run_along (P := fun p => Owned p.sys ∧ Living p) ?_ ⟨owned_nil rfl, living_empty⟩ tidy ran).1
      exact fun both tidy stepped => ⟨both.2.owned both.1 tidy stepped, both.2.step stepped⟩
    refine ⟨owned, fun stopped => ?_⟩
    rw [sys_absent (living.stopped stopped)] at owned
    exact List.eq_nil_iff_forall_not_mem.mpr fun f member => (owned f member).elim nofun nofun

theorem plugin_lives_twice : ∃ p, Transition.run Process.step {} [
      .start (some (some "/dev/nfc")) (fun _ => ⟨some 3, true⟩) 5, .main (.call (.start .success 1)), .stop [.stop] [],
      .start none (fun _ => ⟨some 3, true⟩) 5, .main (.call (.start .success 1)), .stop [] []] = .ok p ∧
    p.children = [] ∧ p.files = [] := by
  refine ⟨_, rfl, ?_⟩
  have lives := @plugin_lives _ [
      .start (some (some "/dev/nfc")) (fun _ => ⟨some 3, true⟩) 5, .main (.call (.start .success 1)), .stop [.stop] [],
      .start none (fun _ => ⟨some 3, true⟩) 5, .main (.call (.start .success 1)), .stop [] []] rfl
  exact ⟨(lives.2.2.2.1 rfl).2.1, (lives.2.2.2.2 (by decide)).2 rfl⟩

end Pn54x
