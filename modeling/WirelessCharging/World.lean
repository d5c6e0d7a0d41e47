import WirelessCharging.Module
import WirelessCharging.StartGate
/-!
The world that modules live in: the registries they register with, the devices they read, the subscribers
they report to, the senders to their inboxes, and a journal of everything that has happened so far. The journal
only grows; nothing in the world is decided by it.
-/
namespace WirelessCharging

structure Standing where
  id : ModuleId
  stopped : Bool
  /-- Registration of the identifier asked for, and the number of registrations. -/
  runtime : Option (Bool × Nat)
  deriving DecidableEq, Repr

inductive Answer where
  | ok
  | refused (refusal : Refusal)
  | noSuchModule
  | noSuchTransfer
  | present (wasThere : Bool)
  | standing (standing : Standing)
  | notIdle
  | unreadableSettings
  | stopTimedOut (id : ModuleId) (limit : Nat)
  | inspected (view : Option (Context × Bool))
  deriving DecidableEq, Repr

inductive Entry where
  | accepted (target : ModuleRef) (envelope : Envelope)
  | taken (target : ModuleRef) (envelope : Envelope)
  | delivered (source : ModuleRef) (subscriber : SubscriberRef) (event : Event)
  | dropped (source : ModuleRef) (event : Event)
  | rejected (source : ModuleRef) (rejection : Rejection)
  | forwarded (source : ModuleRef) (number : Nat) (device : String) (power : PowerAdjustment)
      (duration : TransferDuration)
  | acted (action : Action) (answer : Answer)
  | hookCalled (source : ModuleRef) (kind : HookKind) (tag : Tag) (context : Context)
      (subscribed : Bool)
  | hookDone (source : ModuleRef) (kind : HookKind) (tag : Tag)
  | closed (source : ModuleRef)

structure Device where
  readings : Readings
  /-- Scripts to run on power transfer requests, one for each, in order. -/
  onTransfer : List Script := []

/-- A device that nothing has been said about is up, polling an endpoint that can be charged. -/
def Device.fresh : Device where
  readings :=
    { flags := DeviceFlags.active
      discovery := { state := .pollActive, flags := DiscoveryFlags.enabled }
      readerBusy := false
      protocol := some .t2t }

def Device.changed (device : Device) (change : ReadingsChange) (onTransfer : Option (List Script)) :
    Device where
  readings := device.readings.changed change
  onTransfer := onTransfer.getD device.onTransfer

structure Subscriber where
  kind : SubscriberKind := .recorder
  reactions : List Reaction := []
  held : Bool := true

structure Transfer where
  issuer : ModuleRef
  device : String
  power : PowerAdjustment
  duration : TransferDuration
  deriving DecidableEq, Repr

structure World where
  now : Nat := 0
  registries : Roster RegistryRef Registry := []
  /-- Runtimes by name; a clone shares the registry of another. -/
  runtimes : Roster String RegistryRef := []
  modules : Roster ModuleRef Module := []
  devices : Roster String Device := []
  subscribers : Roster SubscriberRef Subscriber := []
  transfers : List Transfer := []
  /-- Every sender to an inbox that somebody has, as often as there are clones of it. Calls are made by name and do
  not ask for one. -/
  senders : List Sender := []
  /-- Subscribers kept by the dispatch in progress. -/
  inHand : List SubscriberRef := []
  /-- Dispatchers with something to do, in the order in which they will get to it. -/
  ready : List ModuleRef := []
  /-- Dispatchers that have used up a turn and go on in the next round, the last one first. -/
  setAside : List ModuleRef := []
  /-- What has happened, the latest entry first. -/
  journal : List Entry := []

namespace World

def record (w : World) (entry : Entry) : World := { w with journal := entry :: w.journal }

def adjustModule (w : World) (m : ModuleRef) (f : Module → Module) : World :=
  { w with modules := w.modules.adjust m f }

def setInbox (w : World) (m : ModuleRef) (inbox : Inbox) : World :=
  w.adjustModule m (·.withInbox inbox)

def setContext (w : World) (m : ModuleRef) (context : Context) : World :=
  w.adjustModule m (·.withContext context)

def adjustDevice (w : World) (name : String) (f : Device → Device) : World :=
  { w with devices := w.devices.adjust name f }

def adjustSubscriber (w : World) (s : SubscriberRef) (f : Subscriber → Subscriber) : World :=
  { w with subscribers := w.subscribers.adjust s f }

def grant (w : World) (m : ModuleRef) (holder : Holder) : World := { w with senders := ⟨m, holder⟩ :: w.senders }

def withdraw (w : World) (m : ModuleRef) (holder : Holder) : World :=
  { w with senders := w.senders.erase ⟨m, holder⟩ }

def holders (w : World) (m : ModuleRef) : List Holder :=
  (w.senders.filter fun sender => sender.target = m).map (·.holder)

/-- A device comes into being when it is first mentioned. -/
def ensureDevice (w : World) (name : String) : World :=
  match w.devices.get? name with
  | some _ => w
  | none => { w with devices := w.devices.add name .fresh }

def readings (w : World) (name : String) : Readings :=
  ((w.devices.get? name).getD .fresh).readings

/-- The subscriber that the caller holds under a name. -/
def heldSubscriber? (w : World) (name : String) : Option SubscriberRef :=
  (w.subscribers.latest? name).filter fun s => (w.subscribers.get? s).any (·.held)

/-- A subscriber is alive while somebody keeps it: the caller, an enable request that waits in an inbox,
or the dispatch in progress. Being registered with a module does not keep it. -/
def isAlive (w : World) (s : SubscriberRef) : Bool :=
  (w.subscribers.get? s).any (·.held) || w.modules.any (·.2.inbox.holds s) || w.inHand.contains s

def listener? (w : World) (context : Context) : Option SubscriberRef :=
  context.registered.filter w.isAlive

def hasSubscriber (w : World) (context : Context) : Bool := (w.listener? context).isSome

def registration? (w : World) (registry : RegistryRef) (id : ModuleId) : Option ModuleRef :=
  (w.registries.get? registry).bind (·.get? id)

@[simp] theorem grant_modules (w : World) (m : ModuleRef) (holder : Holder) :
    (w.grant m holder).modules = w.modules := rfl

@[simp] theorem withdraw_modules (w : World) (m : ModuleRef) (holder : Holder) :
    (w.withdraw m holder).modules = w.modules := rfl

end World

end WirelessCharging
