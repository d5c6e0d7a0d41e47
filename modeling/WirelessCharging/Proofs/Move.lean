import WirelessCharging.Scenario
/-!
Runs at the finest grain at which callers, dispatchers and the clock take turns. A move is what goes on without
anybody else getting in between: a call, one envelope with all its callbacks, the first half of a stop or its
second one. A launch is two moves with the first hook at work between them, and a stop waits between its two,
so anything may happen meanwhile. Which dispatcher goes on, and when, is left open.
-/
namespace WirelessCharging

inductive Move where
  | act (action : Action)
  | build (plan : Plan)
  /-- The first half of a launch; the module is dropped where its identifier is taken. -/
  | enrol (module : String)
  /-- The second half of a launch, with the first hook over. -/
  | spawn (m : ModuleRef)
  | attend (m : ModuleRef)
  /-- Time passes, and the last hooks that are due come to their ends. -/
  | pass (time : Nat)
  /-- The first half of a stop. -/
  | cancel (m : ModuleRef)
  /-- The second half of a stop, once there is no dispatcher of the module; the stop returns ok. -/
  | deregister (m : ModuleRef)
  | yield
  | setFirstAside
  | rejoin
  | newRuntime (runtime : String)
  | cloneRuntime (runtime source : String)
  | dropRuntime (runtime : String)
  | dropIdle (module : String)
  /-- Anybody gets a handle or a notifier from somebody who has one. -/
  | clone (m : ModuleRef)
  /-- Somebody lets go of a sender. -/
  | drop (sender : Sender)

def Module.shares (target : Module) (registry : RegistryRef) : Bool :=
  target.registry = registry && (target.phase.isYetToRun || target.phase.isLive)

namespace World

def enrol? (w : World) (name : String) : Option World :=
  match w.idle? name with
  | none => none
  | some (m, target) =>
    match w.registration? target.registry .wlc with
    | some _ => some (w.discard m)
    | none => some (w.enrol m target)

def spawn? (w : World) (m : ModuleRef) : Option World :=
  match w.modules.get? m with
  | none => none
  | some target => if target.phase = .launching then some (w.spawn m target) else none

def deregister? (w : World) (m : ModuleRef) : Option World :=
  match w.modules.get? m with
  | none => none
  | some target =>
    if target.cancelled && !target.phase.isLive then some (w.deregister target.registry) else none

/-- The first dispatcher in line leaves it only where it has nothing to do. -/
def yield? (w : World) : Option World :=
  match w.ready with
  | [] => none
  | m :: _ => if (w.attend? m).isNone then some w.yield else none

def clone? (w : World) (m : ModuleRef) : Option World := if w.holders m = [] then none else some (w.grant m .caller)

/-- A registry is shared by runtimes, and by every module that was built in one until the module is over. -/
def isShared (w : World) (registry : RegistryRef) : Bool :=
  w.runtimes.any (·.2 = registry) || w.modules.any (·.2.shares registry)

/-- A module and its dispatcher keep what they have, and a registry does as long as it is shared by anybody. -/
def mayDrop (w : World) : Holder → Bool
  | .own => false
  | .dispatcher => false
  | .registry registry => !w.isShared registry
  | .device _ => true
  | .caller => true

def drop? (w : World) (sender : Sender) : Option World :=
  if sender ∈ w.senders ∧ w.mayDrop sender.holder then some (w.withdraw sender.target sender.holder) else none

def move? (w : World) : Move → Option World
  | .act action => some (w.perform action).1
  | .build plan => (w.follow? plan).map (·.1)
  | .enrol name => w.enrol? name
  | .spawn m => w.spawn? m
  | .attend m => w.attend? m
  | .pass time => if w.now ≤ time then some (w.advance time) else none
  | .cancel m => some (w.cancel m)
  | .deregister m => w.deregister? m
  | .yield => w.yield?
  | .setFirstAside => some w.setFirstAside
  | .rejoin => some w.rejoin
  | .newRuntime name => some (w.newRuntime name)
  | .cloneRuntime name source => some (w.cloneRuntime name source)
  | .dropRuntime name => some (w.dropRuntime name)
  | .dropIdle name => some (w.dropIdle name)
  | .clone m => w.clone? m
  | .drop sender => w.drop? sender

theorem clone?_eq_some {w after : World} {m : ModuleRef} :
    w.clone? m = some after ↔ w.holders m ≠ [] ∧ after = w.grant m .caller := by
  unfold clone?
  split
  · rename_i nobody
    simp [nobody]
  · rename_i held
    simp [held, eq_comm]

theorem drop?_eq_some {w after : World} {sender : Sender} : w.drop? sender = some after ↔
    (sender ∈ w.senders ∧ w.mayDrop sender.holder = true) ∧ after = w.withdraw sender.target sender.holder := by
  unfold drop?
  split
  · rename_i held
    simp [held, eq_comm]
  · rename_i bound
    simp [bound]

theorem clone?_senders {w after : World} {m : ModuleRef} (h : w.clone? m = some after) :
    ∃ senders, after = { w with senders } := ⟨_, (clone?_eq_some.1 h).2⟩

theorem drop?_senders {w after : World} {sender : Sender} (h : w.drop? sender = some after) :
    ∃ senders, after = { w with senders } := ⟨_, (drop?_eq_some.1 h).2⟩

def play? (w : World) : List Move → Option World
  | [] => some w
  | move :: rest => (w.move? move).bind (·.play? rest)

def LeadsTo (w later : World) : Prop := ∃ moves, w.play? moves = some later

def Reachable (w : World) : Prop := LeadsTo {} w

theorem play?_cons {w last : World} {move : Move} {rest : List Move} :
    w.play? (move :: rest) = some last ↔ ∃ after, w.move? move = some after ∧ after.play? rest = some last := by
  simp only [play?, Option.bind_eq_some_iff]

theorem play?_append {w last : World} (first rest : List Move) :
    w.play? (first ++ rest) = some last ↔ ∃ after, w.play? first = some after ∧ after.play? rest = some last := by
  induction first generalizing w with
  | nil => simp [play?]
  | cons move first ih =>
    rw [List.cons_append, play?_cons]
    constructor
    · rintro ⟨after, moved, played⟩
      obtain ⟨middle, through, on⟩ := ih.1 played
      exact ⟨middle, play?_cons.2 ⟨after, moved, through⟩, on⟩
    · rintro ⟨middle, played, on⟩
      obtain ⟨after, moved, through⟩ := play?_cons.1 played
      exact ⟨after, moved, ih.2 ⟨middle, through, on⟩⟩

theorem LeadsTo.refl (w : World) : w.LeadsTo w := ⟨[], rfl⟩

theorem LeadsTo.single {w after : World} (move : Move) (moved : w.move? move = some after) :
    w.LeadsTo after := ⟨[move], play?_cons.2 ⟨after, moved, rfl⟩⟩

theorem LeadsTo.trans {w middle last : World} (first : w.LeadsTo middle) (rest : middle.LeadsTo last) :
    w.LeadsTo last := by
  obtain ⟨moves, played⟩ := first
  obtain ⟨more, through⟩ := rest
  exact ⟨moves ++ more, (play?_append moves more).2 ⟨middle, played, through⟩⟩

theorem reachable_empty : Reachable {} := LeadsTo.refl _

theorem Reachable.leadsTo {w later : World} (reached : w.Reachable) (h : w.LeadsTo later) :
    later.Reachable := LeadsTo.trans reached h

theorem Reachable.cancel {w : World} (reached : w.Reachable) (m : ModuleRef) : (w.cancel m).Reachable :=
  reached.leadsTo (.single (.cancel m) rfl)

end World

end WirelessCharging
