import WirelessCharging.Lifecycle
/-!
Scenarios: steps taken one after the other in a world that is empty at first, with what each step answers,
what it left in the journal for an observer to see, and how things stand after it.
-/
namespace WirelessCharging

/-- What a module is to be built from. Settings that cannot be read keep it from being built. -/
structure Plan where
  name : String
  runtime : String
  device : String
  settings : Option Settings
  hooks : List (HookKind × Hook)

inductive Step where
  | act (action : Action)
  | build (plan : Plan)
  | launch (module : String)
  | stop (module : String)
  | disable (module : String)
  | shutdown (runtime : String)
  | drain
  | wait (milliseconds : Nat)
  | newRuntime (runtime : String)
  | cloneRuntime (runtime source : String)
  | dropRuntime (runtime : String)
  | dropIdle (module : String)
  | inspect (module : String)

namespace World

/-- The runtime and the device of a module come into being before its settings are looked at. -/
def follow? (w : World) (plan : Plan) : Option (World × Answer) :=
  let w := (w.ensureRuntime plan.runtime).ensureDevice plan.device
  match plan.settings with
  | none => some (w, .unreadableSettings)
  | some settings =>
    (w.build? plan.name plan.runtime plan.device settings plan.hooks).map fun w => (w, .ok)

def inspection (w : World) (name : String) : Answer :=
  .inspected ((w.idle? name).map fun (_, target) => (target.context, w.hasSubscriber target.context))

def settled (outcome : World × Answer) : World × Answer := (outcome.1.settle, outcome.2)

/-- There is no outcome where an inbox would be too large to make. -/
def step? (w : World) : Step → Option (World × Answer)
  | .act action => some (w.perform action)
  | .build plan => w.follow? plan
  | .launch name => some (w.launch name)
  | .stop name => some (settled (w.stopNamed name))
  | .disable name => some (settled (w.stopNamed name))
  | .shutdown runtime => some (settled (w.shutdown runtime))
  | .drain => some (w.settle, .ok)
  | .wait milliseconds => some ((w.elapse milliseconds).settle, .ok)
  | .newRuntime runtime => some (w.newRuntime runtime, .ok)
  | .cloneRuntime runtime source => some (w.cloneRuntime runtime source, .ok)
  | .dropRuntime runtime => some (w.dropRuntime runtime, .present (w.runtimes.get? runtime).isSome)
  | .dropIdle name => some (w.dropIdle name, .present (w.idle? name).isSome)
  | .inspect name => some (w, w.inspection name)

def stepTimes? (w : World) (step : Step) : Nat → Option (World × List Answer)
  | 0 => some (w, [])
  | times + 1 =>
    (w.step? step).bind fun (after, answer) =>
      (after.stepTimes? step times).map fun (last, answers) => (last, answer :: answers)

end World

def runLengths {α : Type} [DecidableEq α] : List α → List (Nat × α)
  | [] => []
  | a :: rest =>
    match runLengths rest with
    | [] => [(1, a)]
    | (n, b) :: runs => if a = b then (n + 1, b) :: runs else (1, a) :: (n, b) :: runs

/-- What an observer sees of an entry of the journal. -/
inductive Sighting where
  | delivery (subscriber : String) (event : Event)
  | transfer (number : Nat) (device : String) (power : PowerAdjustment) (duration : TransferDuration)
  | rejection (rejection : Rejection)
  | loss (event : Event)
  | action (action : Action) (answer : Answer)
  | hook (module : String) (kind : HookKind) (tag : Tag) (context : Context) (subscribed : Bool)
  | hookDone (module : String) (kind : HookKind) (tag : Tag)

/-- A delivery is seen where its subscriber takes notice of it. -/
def World.sighting? (w : World) : Entry → Option Sighting
  | .accepted _ _ => none
  | .taken _ _ => none
  | .delivered _ s event =>
    if (w.subscribers.get? s).any (·.kind.hears event.kind) then some (.delivery s.name event) else none
  | .dropped _ event => some (.loss event)
  | .rejected _ rejection => some (.rejection rejection)
  | .forwarded _ number device power duration => some (.transfer number device power duration)
  | .acted action answer => some (.action action answer)
  | .hookCalled m kind tag context subscribed => some (.hook m.name kind tag context subscribed)
  | .hookDone m kind tag => some (.hookDone m.name kind tag)
  | .closed _ => none

inductive Reply where
  | once (answer : Answer)
  | runs (runs : List (Nat × Answer))

structure Report where
  reply : Reply
  sightings : List Sighting
  /-- For each name of a module, whether the module has been told to stop. -/
  stopped : List (String × Bool)
  /-- For each runtime, how many modules are registered, and whether a charging module is. -/
  runtimes : List (String × Nat × Bool)

namespace World

def stoppedModules (w : World) : List (String × Bool) :=
  w.modules.filterMap fun (m, target) =>
    if w.modules.latest? m.name = some m then some (m.name, target.cancelled) else none

def registrations (w : World) : List (String × Nat × Bool) :=
  w.runtimes.map fun (name, registry) =>
    (name, ((w.registries.get? registry).getD []).length, (w.registration? registry .wlc).isSome)

def entriesSince (w : World) (before : World) : List Entry :=
  (w.journal.take (w.journal.length - before.journal.length)).reverse

def reportSince (w : World) (before : World) (reply : Reply) : Report where
  reply
  sightings := (w.entriesSince before).filterMap w.sighting?
  stopped := w.stoppedModules
  runtimes := w.registrations

def report? (w : World) (step : Step) : Option Nat → Option (World × Report)
  | none => (w.step? step).map fun (after, answer) => (after, after.reportSince w (.once answer))
  | some times =>
    (w.stepTimes? step times).map fun (after, answers) =>
      (after, after.reportSince w (.runs (runLengths answers)))

def run? (w : World) : List (Step × Option Nat) → Option (List Report)
  | [] => some []
  | (step, times) :: rest =>
    (w.report? step times).bind fun (after, report) => (after.run? rest).map (report :: ·)

end World

/-- The reports of a scenario; none where some inbox would be too large to make. -/
def runScenario (steps : List (Step × Option Nat)) : Option (List Report) := ({} : World).run? steps

end WirelessCharging
