import WirelessCharging.World
/-!
The public interface of a module. A call checks its arguments, posts an envelope if they are in order, and
returns at once; what comes of the envelope is up to the dispatcher, which is woken if it was waiting.
-/
namespace WirelessCharging

namespace World

/-- A dispatcher that waits for envelopes gets in line behind those that have something to do. One that is
set aside does not wait, and stays where it is. -/
def wake (w : World) (m : ModuleRef) : World :=
  if (w.modules.get? m).any (·.phase == .running) && !w.ready.contains m && !w.setAside.contains m then
    { w with ready := w.ready ++ [m] }
  else w

def submit (w : World) (m : ModuleRef) (envelope : Envelope) : World × Answer :=
  match w.modules.get? m with
  | none => (w, .noSuchModule)
  | some target =>
    match target.inbox.post envelope with
    | .error refusal => (w, .refused refusal)
    | .ok inbox =>
      (((w.setInbox m inbox).record (.accepted m envelope)).wake m, .ok)

/-- A name stands for the module that was last built under it. -/
def submitTo (w : World) (name : String) (envelope : Envelope) : World × Answer :=
  match w.modules.latest? name with
  | none => (w, .noSuchModule)
  | some m => w.submit m envelope

def request (w : World) (name : String) : Except Refusal Request → World × Answer
  | .error refusal => (w, .refused refusal)
  | .ok request => w.submitTo name (.request request)

/-- A device answers a transfer to the module that asked for it. -/
def reply (w : World) (transfer : Nat) (notification : Notification) : World × Answer :=
  match w.transfers[transfer]? with
  | none => (w, .noSuchTransfer)
  | some transfer => w.submit transfer.issuer (.notification notification)

def letGo (w : World) (name : String) : World :=
  match w.heldSubscriber? name with
  | none => w
  | some s => w.adjustSubscriber s fun subscriber => { subscriber with held := false }

def addSubscriber (w : World) (name : String) (subscriber : Subscriber) : World :=
  { w with subscribers := w.subscribers.add (w.subscribers.nextRef name) subscriber }

/-- A subscriber comes into being as a recorder when it is first enabled for. -/
def ensureSubscriber (w : World) (name : String) : World × SubscriberRef :=
  match w.heldSubscriber? name with
  | some s => (w, s)
  | none => (w.addSubscriber name {}, w.subscribers.nextRef name)

def standing (w : World) (name runtime : String) (id : ModuleId) : Answer :=
  match (w.modules.latest? name).bind w.modules.get? with
  | none => .noSuchModule
  | some target =>
    .standing
      { id := .wlc
        stopped := target.cancelled
        runtime := (w.runtimes.get? runtime).map fun registry =>
          ((w.registration? registry id).isSome, ((w.registries.get? registry).getD []).length) }

def perform (w : World) : Action → World × Answer
  | .enable name none => w.request name (Request.ofEnable none)
  | .enable name (some subscriber) =>
    let (ensured, s) := w.ensureSubscriber subscriber
    ensured.request name (Request.ofEnable (some s))
  | .start name mode => w.request name (Request.ofStart mode)
  | .transfer name power duration => w.request name (Request.ofTransfer power duration)
  | .notify name notification => w.submitTo name (.notification notification)
  | .reply transfer notification => w.reply transfer notification
  | .setDevice name change onTransfer =>
    ((w.ensureDevice name).adjustDevice name (·.changed change onTransfer), .ok)
  | .subscribe name kind reactions =>
    ((w.letGo name).addSubscriber name { kind, reactions }, .ok)
  | .release name => (w.letGo name, .present (w.heldSubscriber? name).isSome)
  | .query name runtime id => (w, w.standing name runtime id)

def runScript (w : World) : Script → World
  | [] => w
  | action :: rest =>
    let (after, answer) := w.perform action
    (after.record (.acted action answer)).runScript rest

end World

end WirelessCharging
