import Pn54x.Io.Dispatch
import Pn54x.Library.Reentrant

/-! The NFC adapter. Its handlers call libncicore and nfcd, either of which may call
the adapter again before it returns; the bodies are written as the source has them,
with a name for each place that makes such a call. -/
namespace Pn54x
open Reentrant

/-- The numbers that libncicore has for the states of its state machine. Their order
and these three are all that the adapter uses. -/
class NciStates where
  /-- `NCI_RFST_IDLE` -/
  idle : Int
  /-- `NCI_STATE_ERROR` -/
  error : Int
  /-- `NCI_RFST_POLL_ACTIVE` -/
  pollActive : Int
  error_ne_idle : error ≠ idle

/-- `struct pn54x_nfc_adapter`, and the two states that it reads from its `NciCore`. -/
structure Adapter where
  needPower : Bool := false
  powerOn : Bool := false
  powerSwitchPending : Bool := false
  currentState : Int
  nextState : Int
  io : Sys
  deriving DecidableEq, Repr

/-- Where in the adapter a call is made or power is switched. -/
inductive Site where
  | stateCheck | reset | submitOn | submitOff | submitWait
  deriving DecidableEq, Repr

/-- Calls of `SUPER_CLASS`, `nci_core_set_state(nci, NCI_RFST_IDLE)`,
`nci_core_restart` and `nfc_adapter_power_notify`. -/
inductive Outside where
  | currentStateChanged | nextStateChanged
  | setStateIdle (site : Site)
  | restart
  | powerNotify (site : Site) (on requested : Bool)
  deriving DecidableEq, Repr

/-- Calls of `pn54x_io_set_power` with the kernel's answers, and assignments to
`power_on`. -/
inductive Deed where
  | setPower (site : Site) (on : Bool) (env : PowerEnv)
  | powerOn (on : Bool)
  deriving DecidableEq, Repr

/-- The methods that libncicore and nfcd call. -/
inductive Method where
  | currentStateChanged | nextStateChanged
  | submitPowerRequest (on : Bool)
  | cancelPowerRequest
  deriving DecidableEq, Repr

/-- What can be seen of a run of the adapter. Only a request returns a value. -/
abbrev History := Trace Adapter Deed Outside Method (Option Bool)

abbrev Handler := Prog Adapter PowerEnv Deed Outside Stop

def Handler.lift {α : Type} : Exec α → Handler α
  | .ok a => pure a
  | .error x => .stop x

/-- `pn54x_io_set_power(self->io, on)`. -/
def Handler.setPower (site : Site) (on : Bool) : Handler Bool := do
  let env ← Prog.answer
  let self ← Prog.read
  Prog.log (.setPower site on env)
  let (ok, io) ← Handler.lift (ioSetPower env on self.io)
  Prog.write { self with io }
  return ok

/-- `self->power_on = on`. -/
def Handler.setPowerOn (on : Bool) : Handler Unit := do
  Prog.log (.powerOn on)
  Prog.update fun self => { self with powerOn := on }

variable [NciStates]

/-- `pn54x_nfc_adapter_can_power_off`, as called from `site`. -/
def nfcAdapterCanPowerOff (site : Site) : Handler Bool := do
  let self ← Prog.read
  if self.currentState ≤ NciStates.idle then
    if self.currentState = NciStates.idle then
      Prog.outside (.setStateIdle site)
    return true
  else
    return false

/-- `pn54x_nfc_adapter_state_check`. -/
def nfcAdapterStateCheck : Handler Unit := do
  let self ← Prog.read
  if self.powerOn = true ∧ self.needPower = false then
    if ← nfcAdapterCanPowerOff .stateCheck then
      let _ ← Handler.setPower .stateCheck false
      Handler.setPowerOn false
      let self ← Prog.read
      if self.powerSwitchPending = true then
        Prog.update fun self => { self with powerSwitchPending := false }
        Prog.outside (.powerNotify .stateCheck false true)
      else
        Prog.outside (.powerNotify .stateCheck false false)

/-- `pn54x_nfc_adapter_current_state_changed`. -/
def nfcAdapterCurrentStateChanged : Handler Unit := do
  Prog.outside .currentStateChanged
  nfcAdapterStateCheck

/-- `pn54x_nfc_adapter_next_state_changed`. -/
def nfcAdapterNextStateChanged : Handler Unit := do
  Prog.outside .nextStateChanged
  let self ← Prog.read
  if self.nextState ≠ NciStates.pollActive then
    if self.nextState = NciStates.error ∧ self.powerOn = true then
      let _ ← Handler.setPower .reset false
      let _ ← Handler.setPower .reset true
  nfcAdapterStateCheck

/-- `pn54x_nfc_adapter_submit_power_request`. -/
def nfcAdapterSubmitPowerRequest (on : Bool) : Handler Bool := do
  let self ← Prog.read
  Handler.lift (gassert !self.powerSwitchPending)
  Prog.update fun self => { self with needPower := on }
  if on = true then
    if self.powerOn = true then
      Prog.outside (.setStateIdle .submitOn)
      Prog.outside (.powerNotify .submitOn true true)
    else if ← Handler.setPower .submitOn true then
      Handler.setPowerOn true
      Prog.outside .restart
      Prog.outside (.powerNotify .submitOn true true)
  else
    if self.powerOn = true then
      if ← nfcAdapterCanPowerOff .submitOff then
        let _ ← Handler.setPower .submitOff false
        Handler.setPowerOn false
        Prog.outside (.powerNotify .submitOff false true)
      else
        Prog.outside (.setStateIdle .submitWait)
        Prog.update fun self => { self with
          powerSwitchPending := self.currentState ≠ NciStates.idle ∧ self.nextState = NciStates.idle }
    else
      Prog.outside (.powerNotify .submitOff false true)
  let self ← Prog.read
  return self.powerSwitchPending

/-- `pn54x_nfc_adapter_cancel_power_request`. -/
def nfcAdapterCancelPowerRequest : Handler Unit :=
  Prog.update fun self => { self with needPower := self.powerOn, powerSwitchPending := false }

def Method.body : Method → Handler (Option Bool)
  | .currentStateChanged => do
    nfcAdapterCurrentStateChanged
    return none
  | .nextStateChanged => do
    nfcAdapterNextStateChanged
    return none
  | .submitPowerRequest on => return some (← nfcAdapterSubmitPowerRequest on)
  | .cancelPowerRequest => do
    nfcAdapterCancelPowerRequest
    return none

/-- What goes on around the adapter: libncicore's state machine moves on and uses the
HAL. Nobody but the adapter switches the chip's power. -/
structure Change where
  currentState : Int
  nextState : Int
  hal : List Call := []
  deriving DecidableEq, Repr

def Call.OfHal : Call → Bool
  | .setPower _ _ => false
  | _ => true

def Change.apply (w : Change) (self : Adapter) : Exec Adapter :=
  if w.hal.all Call.OfHal then do
    let io ← react w.hal self.io
    return { self with currentState := w.currentState, nextState := w.nextState, io }
  else .error .impossible

/-- `pn54x_nfc_adapter_new`, with the states that the new `NciCore` is in. -/
def nfcAdapterNew (env : PowerEnv) (currentState nextState : Int) : Exec (Option Adapter) := do
  match ← ioNew env with
  | some io => return some { currentState, nextState, io }
  | none => return none

abbrev Turn := Reentrant.Move PowerEnv Method Change

abbrev Situation := Config Adapter PowerEnv Deed Outside Stop Method (Option Bool)

def adapter : World Adapter PowerEnv Deed Outside Stop Method Change (Option Bool) where
  body := Method.body
  change := Change.apply
  idle := .impossible

end Pn54x
