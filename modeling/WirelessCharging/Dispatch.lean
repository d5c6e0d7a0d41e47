import WirelessCharging.Submission
/-!
What a dispatcher does with one envelope, and with the news that it has been cancelled. An envelope is dealt
with to its end, callbacks included, before the next one is taken; what the callbacks post waits behind
everything accepted before it.
-/
namespace WirelessCharging

inductive Received where
  | envelope (first : Envelope) (rest : Inbox)
  | waits
  /-- Nothing waits, and nothing can come any more. -/
  | over

namespace Inbox

/-- An inbox is closed by its module, and also where nobody is left with a sender to it. -/
def isClosedTo (inbox : Inbox) (holders : List Holder) : Bool := !inbox.isReceiving || holders.isEmpty

def receive (inbox : Inbox) (holders : List Holder) : Received :=
  match inbox.take? with
  | some (envelope, rest) => .envelope envelope rest
  | none => if inbox.isClosedTo holders then .over else .waits

end Inbox

namespace World

/-- Calls a subscriber back. A reaction is used up by the event that it follows. -/
def deliver (w : World) (m : ModuleRef) (s : SubscriberRef) (event : Event) : World :=
  let w := w.record (.delivered m s event)
  match w.subscribers.get? s with
  | none => w
  | some subscriber =>
    if subscriber.kind = .recorder then
      match takeReaction event.kind subscriber.reactions with
      | none => w
      | some (script, others) =>
        (w.adjustSubscriber s fun subscriber => { subscriber with reactions := others }).runScript
          script
    else w

/-- The subscriber called stays alive during the call. -/
def deliverHolding (w : World) (m : ModuleRef) (s : SubscriberRef) (event : Event) : World :=
  { { w with inHand := [s] }.deliver m s event with inHand := [] }

def report (w : World) (m : ModuleRef) (event : Event) : World :=
  match (w.modules.get? m).bind fun target => w.listener? target.context with
  | some s => w.deliverHolding m s event
  | none => w.record (.dropped m event)

/-- The subscriber of an enable hears how it went, whether it was taken or not. -/
def dispatchEnable (w : World) (m : ModuleRef) (target : Module) (s : SubscriberRef) : World :=
  if (w.readings target.device).acceptsEnable then
    (w.setContext m (target.context.enabledFor s)).deliverHolding m s (.enableResult .ok)
  else w.deliverHolding m s (.enableResult .failed)

def dispatchStart (w : World) (m : ModuleRef) (target : Module) (mode : ChargingMode) : World :=
  match startRejection? target.context (w.readings target.device) mode with
  | some rejection => w.record (.rejected m rejection)
  | none =>
    (w.setContext m (target.context.startedIn mode)).report m (.startResult .ok)

def dispatchTransfer (w : World) (m : ModuleRef) (target : Module) (power : PowerAdjustment)
    (duration : TransferDuration) : World :=
  let transfer : Transfer := { issuer := m, device := target.device, power, duration }
  let w := ({ w with transfers := w.transfers ++ [transfer] }.grant m (.device w.transfers.length)).record
    (.forwarded m w.transfers.length target.device power duration)
  match w.devices.get? target.device with
  | none => w
  | some device =>
    match device.onTransfer with
    | [] => w
    | script :: rest =>
      (w.adjustDevice target.device fun device => { device with onTransfer := rest }).runScript script

def dispatch (w : World) (m : ModuleRef) (target : Module) : Envelope → World
  | .request (.enable s) => w.dispatchEnable m target s
  | .request (.start mode) => w.dispatchStart m target mode
  | .request (.transfer power duration) => w.dispatchTransfer m target power duration
  | .notification notification => w.report m notification.event

/-- Calls a hook with the context of its module; the time that the hook takes is for the caller to spend. -/
def callHook (w : World) (m : ModuleRef) (target : Module) (kind : HookKind) : World :=
  match target.hook? kind with
  | none => w
  | some hook =>
    (w.record (.hookCalled m kind hook.tag target.context (w.hasSubscriber target.context))).runScript
      hook.script

/-- A hook that took time is seen to come to its end. -/
def hookOver (w : World) (m : ModuleRef) (target : Module) (kind : HookKind) : World :=
  if target.delay kind = 0 then w else w.record (.hookDone m kind (target.tag kind))

/-- The end of a dispatcher, and of the sender that it had. -/
def finish (w : World) (m : ModuleRef) : World := (w.adjustModule m (·.ended .finished)).withdraw m .dispatcher

/-- A dispatcher that sees its cancellation closes the inbox before it calls the last hook. -/
def closeDown (w : World) (m : ModuleRef) (target : Module) : World :=
  let closing := w.adjustModule m (·.closingUntil (w.now + target.delay .afterStop))
  let called := (closing.record (.closed m)).callHook m target .afterStop
  if target.delay .afterStop = 0 then called.finish m else called

/-- What a dispatcher does next: it looks for its cancellation first and then takes one envelope. Nothing
comes of it where no dispatcher runs, or where one has to wait. -/
def attend? (w : World) (m : ModuleRef) : Option World :=
  match w.modules.get? m with
  | none => none
  | some target =>
    if target.phase ≠ .running then none
    else if target.cancelled then some (w.closeDown m target)
    else
      match target.inbox.take? with
      | none => none
      | some (envelope, inbox) =>
        some (((w.setInbox m inbox).record (.taken m envelope)).dispatch m target envelope)

/-- The same with what a dispatcher does where it has nothing to wait for, as nobody has a sender to its inbox:
it leaves off, and closes down as if it had been cancelled. -/
def loop? (w : World) (m : ModuleRef) : Option World :=
  match w.modules.get? m with
  | none => none
  | some target =>
    if target.phase ≠ .running then none
    else if target.cancelled then some (w.closeDown m target)
    else
      match target.inbox.receive (w.holders m) with
      | .envelope envelope inbox => some (((w.setInbox m inbox).record (.taken m envelope)).dispatch m target envelope)
      | .waits => none
      | .over => some (w.closeDown m target)

@[simp] theorem finish_modules (w : World) (m : ModuleRef) :
    (w.finish m).modules = w.modules.adjust m (·.ended .finished) := rfl

end World

end WirelessCharging
