import WirelessCharging.Settings
import WirelessCharging.Settle
/-!
How modules are built, launched, dropped and stopped, and how time passes meanwhile. Where something waits,
the dispatchers run until all of them wait too, and then the clock goes on to the next hook that comes to its
end. Stopping a module removes whatever is registered under the module's identifier.
-/
namespace WirelessCharging

namespace World

/-- The hooks that come to their end until the clock shows `limit`, the earliest first. -/
def due (w : World) (limit : Nat) : List (Nat × ModuleRef) :=
  (w.modules.filterMap fun (m, target) =>
    match target.phase with
    | .closing wake => if wake ≤ limit then some (wake, m) else none
    | _ => none).mergeSort fun a b => a.1 ≤ b.1

def restOver (w : World) (m : ModuleRef) : World :=
  match w.modules.get? m with
  | none => w
  | some target => (w.hookOver m target .afterStop).finish m

def advance (w : World) (limit : Nat) : World :=
  { (w.due limit).foldl (fun w entry => w.restOver entry.2) w with now := limit }

def elapse (w : World) (milliseconds : Nat) : World :=
  let settled := w.settle
  settled.advance (settled.now + waitFor milliseconds)

def newRuntime (w : World) (name : String) : World :=
  let registry := w.registries.nextRef name
  { w with
    registries := w.registries.add registry []
    runtimes := (w.runtimes.remove name).add name registry }

def ensureRuntime (w : World) (name : String) : World :=
  match w.runtimes.get? name with
  | some _ => w
  | none => w.newRuntime name

/-- A clone has the registry of the runtime that it is made from. -/
def cloneRuntime (w : World) (name source : String) : World :=
  let w := w.ensureRuntime source
  match w.runtimes.get? source with
  | none => w
  | some registry => { w with runtimes := (w.runtimes.remove name).add name registry }

def dropRuntime (w : World) (name : String) : World :=
  { w with runtimes := w.runtimes.remove name }

def idle? (w : World) (name : String) : Option (ModuleRef × Module) :=
  match w.modules.latest? name with
  | none => none
  | some m =>
    match w.modules.get? m with
    | none => none
    | some target => if target.phase = .idle then some (m, target) else none

def discard (w : World) (m : ModuleRef) : World := (w.adjustModule m (·.ended .dropped)).withdraw m .own

def dropIdle (w : World) (name : String) : World :=
  match w.idle? name with
  | none => w
  | some (m, _) => w.discard m

def addModule (w : World) (name : String) (target : Module) : World :=
  { w with modules := w.modules.add (w.modules.nextRef name) target }.grant (w.modules.nextRef name) .own

/-- Adds an idle module and gives it the name; an idle module of that name is dropped. There is no module
whose inbox would be too large to make. -/
def build? (w : World) (name runtime device : String) (settings : Settings)
    (hooks : List (HookKind × Hook)) : Option World :=
  match w.runtimes.get? runtime, Inbox.ofCapacity? settings.inboxCapacity with
  | some registry, some inbox =>
    let target : Module := { registry, device, inbox, stopLimit := settings.stopLimit }
    some ((w.dropIdle name).addModule name (hooks.foldl (fun target hook => target.install hook.1 hook.2) target))
  | _, _ => none

def register (w : World) (registry : RegistryRef) (m : ModuleRef) : World :=
  { w with registries := w.registries.adjust registry fun entries => entries.add .wlc m }.grant m (.registry registry)

def deregister (w : World) (registry : RegistryRef) : World :=
  { w with
    registries := w.registries.adjust registry fun entries => entries.remove .wlc
    senders := w.senders.filter fun sender => sender.holder ≠ .registry registry }

def setPhase (w : World) (m : ModuleRef) (phase : Phase) : World :=
  w.adjustModule m fun target => { target with phase }

def enrol (w : World) (m : ModuleRef) (target : Module) : World :=
  ((w.register target.registry m).setPhase m .launching).callHook m target .beforeStart

def awaitFirstHook (w : World) (target : Module) : World :=
  if target.delay .beforeStart = 0 then w else w.elapse (target.delay .beforeStart)

/-- The module hands its sender on to its dispatcher, and its handle is given to whoever launched it. -/
def handOn (w : World) (m : ModuleRef) : World := ((w.withdraw m .own).grant m .dispatcher).grant m .caller

/-- The first hook is over, and the dispatcher gets in line but does not run yet. -/
def spawn (w : World) (m : ModuleRef) (target : Module) : World :=
  (((w.hookOver m target .beforeStart).setPhase m .running).handOn m).wake m

/-- Registers an idle module, calls its first hook and starts its dispatcher. Where the identifier is taken,
the module is dropped and no hook is called. -/
def launch (w : World) (name : String) : World × Answer :=
  match w.idle? name with
  | none => (w, .notIdle)
  | some (m, target) =>
    match w.registration? target.registry .wlc with
    | some _ => (w.discard m, .refused (.alreadyRegistered .wlc))
    | none => (((w.enrol m target).awaitFirstHook target).spawn m target, .ok)

def cancel (w : World) (m : ModuleRef) : World :=
  (w.adjustModule m fun target => { target with cancelled := true }).wake m

/-- When the dispatcher of a module comes to its end, if it has one and is left to itself. -/
def endOfDispatcher? (w : World) (m : ModuleRef) : Option Nat :=
  match w.modules.get? m with
  | none => none
  | some target =>
    match target.phase with
    | .closing wake => some wake
    | _ => none

def stopTimeoutText (id : ModuleId) (limit : Nat) : String :=
  "module " ++ id.text ++ " did not stop within " ++ durationText limit

def isLive (w : World) (m : ModuleRef) : Bool := (w.modules.get? m).any (·.phase.isLive)

/-- Cancels a module, waits for its dispatcher for as long as its limit allows, and deregisters. A dispatcher
that is not through by then goes on, and the registration stays. What the other dispatchers still have to do
when the end of this one is seen is left for later. -/
def stop (w : World) (m : ModuleRef) : World × Answer :=
  match w.modules.get? m with
  | none => (w, .noSuchModule)
  | some target =>
    let cancelled := w.cancel m
    if !target.phase.isLive then (cancelled.deregister target.registry, .ok)
    else if target.stopLimit = 0 then (cancelled, .stopTimedOut .wlc 0)
    else
      let waited := cancelled.runUntil fun w => !w.isLive m
      match waited.endOfDispatcher? m with
      | none => (waited.deregister target.registry, .ok)
      | some wake =>
        let limit := waited.now + target.stopLimit
        if wake < limit then ((waited.advance wake).deregister target.registry, .ok)
        else (waited.advance limit, .stopTimedOut .wlc target.stopLimit)

def stopNamed (w : World) (name : String) : World × Answer :=
  match w.modules.latest? name with
  | none => (w, .noSuchModule)
  | some m => w.stop m

/-- A registry holds one module at most, and shutting down a runtime is stopping that one. -/
def shutdown (w : World) (runtime : String) : World × Answer :=
  match (w.runtimes.get? runtime).bind fun registry => w.registration? registry .wlc with
  | none => (w, .ok)
  | some m => w.stop m

@[simp] theorem discard_modules (w : World) (m : ModuleRef) :
    (w.discard m).modules = w.modules.adjust m (·.ended .dropped) := rfl

@[simp] theorem addModule_modules (w : World) (name : String) (target : Module) :
    (w.addModule name target).modules = w.modules.add (w.modules.nextRef name) target := rfl

end World

end WirelessCharging
