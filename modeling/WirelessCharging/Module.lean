import WirelessCharging.Context
import WirelessCharging.Inbox
import WirelessCharging.Roster
import WirelessCharging.Script
import WirelessCharging.Wait
/-!
A charging module over its whole life. It is built idle, may be launched once, and from then on a dispatcher
takes the envelopes out of its inbox until it sees that it has been cancelled. The dispatcher then closes the
inbox, calls the last hook, which may take its time, and is gone together with what the inbox still held. An
idle module can also be dropped, which discards its inbox at once.
-/
namespace WirelessCharging

abbrev ModuleRef := Ref
abbrev RegistryRef := Ref

/-- Who can put envelopes into an inbox. A handle counts once, with the notifier in it. -/
inductive Holder where
  /-- The module, as long as it has no dispatcher. -/
  | own
  | dispatcher
  | registry (registry : RegistryRef)
  /-- A device, which was given a way to answer a transfer. -/
  | device (transfer : Nat)
  | caller
  deriving DecidableEq, Repr

structure Sender where
  target : ModuleRef
  holder : Holder
  deriving DecidableEq, Repr

inductive Phase where
  | idle
  | launching
  | running
  /-- The last hook is at work until the clock shows `wake`. -/
  | closing (wake : Nat)
  | finished
  | dropped
  deriving DecidableEq, Repr

def Phase.isLive : Phase → Bool
  | .running => true
  | .closing _ => true
  | .idle => false
  | .launching => false
  | .finished => false
  | .dropped => false

/-- The module has no dispatcher and may still get one. -/
def Phase.isYetToRun : Phase → Bool
  | .idle => true
  | .launching => true
  | .running => false
  | .closing _ => false
  | .finished => false
  | .dropped => false

structure Module where
  registry : RegistryRef
  device : String
  inbox : Inbox
  /-- How long a stop waits for the dispatcher, in milliseconds. -/
  stopLimit : Nat
  context : Context := {}
  beforeStart : Option Hook := none
  afterStop : Option Hook := none
  cancelled : Bool := false
  phase : Phase := .idle

namespace Module

/-- A hook takes the place of an earlier one of its kind. -/
def install (target : Module) : HookKind → Hook → Module
  | .beforeStart, hook => { target with beforeStart := some hook }
  | .afterStop, hook => { target with afterStop := some hook }

def hook? (target : Module) : HookKind → Option Hook
  | .beforeStart => target.beforeStart
  | .afterStop => target.afterStop

/-- How long a hook takes; one that is not installed takes no time. -/
def delay (target : Module) (kind : HookKind) : Nat :=
  waitFor (((target.hook? kind).map (·.delay)).getD 0)

def tag (target : Module) (kind : HookKind) : Tag := ((target.hook? kind).map (·.tag)).getD .absent

def withInbox (target : Module) (inbox : Inbox) : Module := { target with inbox }

def withContext (target : Module) (context : Context) : Module := { target with context }

def closingUntil (target : Module) (wake : Nat) : Module :=
  { target with inbox := target.inbox.close, phase := .closing wake }

def ended (target : Module) (phase : Phase) : Module :=
  { target with phase, inbox := target.inbox.discard }

end Module

/-- A module as text: who it is and what it remembers, with the rest left out. -/
def moduleShape (context : Context) (subscribed : Bool) : Shape :=
  .record "WlcModule" [("id", ModuleId.wlc.shape), ("context", context.shape subscribed)] true

/-- What texts call a module before and after its launch, the system that runtimes come from, and a
subscriber that hears nothing. -/
def markers : List String := ["Idle", "Started", "NfaSystem", "NoopSubscriber"]

abbrev Registry := Roster ModuleId ModuleRef

end WirelessCharging
