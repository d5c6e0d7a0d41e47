import WirelessCharging.Proofs.Capacity
import WirelessCharging.Proofs.Steps
/-!
The stages of a module's life, move by move. In one move a module gets envelopes, goes on to its next stage, deals
with an envelope, or is told to stop. Three of these are turning points: it is enrolled, it is dropped while it is
idle, or its dispatcher sees its cancellation.
-/
namespace WirelessCharging

/-- A move in which a launch registers a module. -/
inductive World.Enrols (w : World) (m : ModuleRef) (target : Module) : Move → Prop where
  | enrol {name : String} (idle : w.idle? name = some (m, target))
      (vacant : w.registration? target.registry .wlc = none) : w.Enrols m target (.enrol name)

/-- A move in which the dispatcher of a module sees its cancellation. -/
inductive World.Observes (w : World) (m : ModuleRef) (target : Module) : Move → Prop where
  | observe (found : w.modules.get? m = some target) (running : target.phase = .running)
      (cancelled : target.cancelled = true) : w.Observes m target (.attend m)

/-- A move that drops an idle module: as such, to give its name to another, or because its launch is refused. -/
inductive World.Drops (w : World) (m : ModuleRef) (target : Module) : Move → Prop where
  | drop {name : String} (idle : w.idle? name = some (m, target)) : w.Drops m target (.dropIdle name)
  | replace {plan : Plan} {settings : Settings} (given : plan.settings = some settings)
      (idle : w.idle? plan.name = some (m, target)) : w.Drops m target (.build plan)
  | refuse {name : String} {holder : ModuleRef} (idle : w.idle? name = some (m, target))
      (taken : w.registration? target.registry .wlc = some holder) : w.Drops m target (.enrol name)

/-- No turning point for the module. -/
structure World.Ordinary (w : World) (m : ModuleRef) (target : Module) (move : Move) : Prop where
  enrols : ¬ w.Enrols m target move
  observes : ¬ w.Observes m target move
  drops : ¬ w.Drops m target move

inductive World.Fate (w : World) (m : ModuleRef) (move : Move) (target : Module) : Module → Prop where
  | kept (ordinary : w.Ordinary m target move) (more : List Envelope) : w.Fate m move target (target.posted more)
  | enrolled (enrols : w.Enrols m target move) (more : List Envelope) :
      w.Fate m move target (({ target with phase := .launching } : Module).posted more)
  | dropped (drops : w.Drops m target move) : w.Fate m move target (target.ended .dropped)
  | spawned (named : move = .spawn m) (launching : target.phase = .launching) :
      w.Fate m move target { target with phase := .running }
  | took (named : move = .attend m) (running : target.phase = .running) (kept : target.cancelled = false)
      {envelope : Envelope} {inbox : Inbox} (took : target.inbox.take? = some (envelope, inbox))
      (context : Context) (more : List Envelope) :
      w.Fate m move target (((target.withInbox inbox).withContext context).posted more)
  | closed (observes : w.Observes m target move) (wake : Nat) (more : List Envelope) :
      w.Fate m move target ((target.closingUntil wake).posted more)
  | closedAtOnce (observes : w.Observes m target move) (wake : Nat) (more : List Envelope) :
      w.Fate m move target (((target.closingUntil wake).posted more).ended .finished)
  | rested {time wake : Nat} (named : move = .pass time) (closing : target.phase = .closing wake) :
      w.Fate m move target (target.ended .finished)
  | cancelled (named : move = .cancel m) : w.Fate m move target { target with cancelled := true }

def World.Fares (w after : World) (m : ModuleRef) (move : Move) (target : Module) : Prop :=
  ∃ there, after.modules.get? m = some there ∧ w.Fate m move target there

def Move.isTurning : Move → Bool
  | .enrol _ => true
  | .attend _ => true
  | .build _ => true
  | .dropIdle _ => true
  | _ => false

variable {move : Move}

theorem World.ordinary_of_not_turning {w : World} {m : ModuleRef} {target : Module}
    (plain : move.isTurning = false) : w.Ordinary m target move := by
  constructor
  case enrols =>
    rintro ⟨idle, vacant⟩
    cases plain
  case observes =>
    rintro ⟨found, running, cancelled⟩
    cases plain
  case drops =>
    intro drops
    cases drops with
    | drop idle => cases plain
    | replace given idle => cases plain
    | refuse idle taken => cases plain

namespace World

theorem idle?_self {w : World} {m : ModuleRef} {name : String} {target there : Module}
    (found : w.modules.get? m = some target) (idle : w.idle? name = some (m, there)) :
    there = target ∧ target.phase = .idle := by
  obtain ⟨here, waiting⟩ := idle?_found idle
  obtain rfl := Option.some.inj (here.symm.trans found)
  exact ⟨rfl, waiting⟩

theorem idle?_congr {w later : World} (same : later.modules = w.modules) : later.idle? = w.idle? := by
  funext name
  rw [idle?, idle?, same]

theorem Drops.idle {w : World} {m : ModuleRef} {target : Module} (h : w.Drops m target move) :
    target.phase = .idle := by
  cases h with
  | drop idle => exact (idle?_found idle).2
  | replace given idle => exact (idle?_found idle).2
  | refuse idle taken => exact (idle?_found idle).2

theorem Enrols.not_drops {w : World} {m : ModuleRef} {target there : Module} (enrols : w.Enrols m target move) :
    ¬ w.Drops m there move := by
  intro drops
  cases enrols with
  | enrol idle vacant =>
    cases drops with
    | refuse same taken =>
      obtain ⟨-, rfl⟩ := Prod.mk.inj (Option.some.inj (same.symm.trans idle))
      rw [vacant] at taken
      cases taken

theorem fares_of_deeds {w after : World} {m : ModuleRef} {target : Module} (found : w.modules.get? m = some target)
    (ordinary : w.Ordinary m target move) (deeds : Deeds w after) : w.Fares after m move target := by
  obtain ⟨more, there, -⟩ := deeds.posted found
  exact ⟨_, there, .kept ordinary more⟩

theorem fares_of_same {w after : World} {m : ModuleRef} {target : Module} (found : w.modules.get? m = some target)
    (ordinary : w.Ordinary m target move) (modules : after.modules.get? m = w.modules.get? m) :
    w.Fares after m move target := by
  refine ⟨target.posted [], ?_, .kept ordinary []⟩
  rw [modules, found, Module.posted_nil]

theorem fares_of_adjust {w after : World} {m changed : ModuleRef} {target : Module} (f : Module → Module)
    (found : w.modules.get? m = some target) (modules : after.modules = w.modules.adjust changed f)
    (here : m = changed → w.Fate m move target (f target)) (elsewhere : m ≠ changed → w.Ordinary m target move) :
    w.Fares after m move target := by
  by_cases same : m = changed
  · subst same
    refine ⟨f target, ?_, here rfl⟩
    rw [modules, Roster.get?_adjust_self, found, Option.map_some]
  · apply fares_of_same found (elsewhere same)
    rw [modules, Roster.get?_adjust_of_ne _ _ same]

theorem dropIdle_fares {w : World} {m : ModuleRef} {target : Module} {name : String}
    (found : w.modules.get? m = some target) (here : w.idle? name = some (m, target) → w.Drops m target move)
    (elsewhere : (∀ there, w.idle? name ≠ some (m, there)) → w.Ordinary m target move) :
    w.Fares (w.dropIdle name) m move target := by
  unfold dropIdle
  split
  · rename_i nobody
    refine fares_of_same found (elsewhere ?_) rfl
    intro there idle
    rw [nobody] at idle
    cases idle
  · rename_i changed there idle
    refine fares_of_adjust (·.ended .dropped) found rfl ?_ ?_
    · rintro rfl
      obtain ⟨rfl, -⟩ := idle?_self found idle
      exact .dropped (here idle)
    · intro different
      refine elsewhere ?_
      intro other own
      obtain ⟨same, -⟩ := Prod.mk.inj (Option.some.inj (own.symm.trans idle))
      exact different same

theorem ordinary_build {w : World} {m : ModuleRef} {plan : Plan} {target : Module}
    (spared : plan.settings = none ∨ ∀ there, w.idle? plan.name ≠ some (m, there)) :
    w.Ordinary m target (.build plan) := by
  constructor
  case enrols =>
    intro enrols
    cases enrols
  case observes =>
    intro observes
    cases observes
  case drops =>
    intro drops
    cases drops with
    | replace given idle =>
      rcases spared with unread | nobody
      · rw [unread] at given
        cases given
      · exact nobody target idle

theorem follow?_fares {w after : World} {m : ModuleRef} {plan : Plan} {answer : Answer} {target : Module}
    (h : w.follow? plan = some (after, answer)) (found : w.modules.get? m = some target) :
    w.Fares after m (.build plan) target := by
  have modules := w.ensured_modules plan.runtime plan.device
  cases given : plan.settings with
  | none =>
    simp only [follow?, given, Option.some.injEq, Prod.mk.injEq] at h
    rw [← h.1]
    exact fares_of_same found (ordinary_build (Or.inl given)) (by rw [modules])
  | some settings =>
    rw [w.follow?_eq given] at h
    obtain ⟨built, builds, outcome⟩ := Option.map_eq_some_iff.1 h
    obtain ⟨rfl, -⟩ := Prod.mk.inj outcome
    unfold build? at builds
    split at builds
    · obtain rfl := Option.some.inj builds
      obtain ⟨there, here, fate⟩ :=
        dropIdle_fares found (fun idle => .replace given idle) fun nobody => ordinary_build (Or.inr nobody)
      have dropped : (((w.ensureRuntime plan.runtime).ensureDevice plan.device).dropIdle plan.name).modules =
          (w.dropIdle plan.name).modules := by
        simp only [dropIdle, idle?_congr modules]
        cases w.idle? plan.name with
        | none => exact modules
        | some idle => simp only [discard_modules, modules]
      refine ⟨there, ?_, fate⟩
      apply Roster.get?_add_of_some
      rw [dropped, here]
    · cases builds

theorem enrol?_fares {w after : World} {m : ModuleRef} {name : String} {target : Module}
    (h : w.enrol? name = some after) (found : w.modules.get? m = some target) :
    w.Fares after m (.enrol name) target := by
  unfold enrol? at h
  split at h
  · cases h
  · rename_i changed there idle
    have elsewhere : m ≠ changed → w.Ordinary m target (.enrol name) := by
      intro different
      have nobody : ∀ other, w.idle? name ≠ some (m, other) := by
        intro other own
        obtain ⟨same, -⟩ := Prod.mk.inj (Option.some.inj (own.symm.trans idle))
        exact different same
      constructor
      case enrols =>
        rintro ⟨own, vacant⟩
        exact nobody _ own
      case observes =>
        intro observes
        cases observes
      case drops =>
        intro drops
        cases drops with
        | refuse own taken => exact nobody _ own
    split at h
    · rename_i holder taken
      obtain rfl := Option.some.inj h
      refine fares_of_adjust (·.ended .dropped) found rfl ?_ elsewhere
      rintro rfl
      obtain ⟨rfl, -⟩ := idle?_self found idle
      exact .dropped (.refuse idle taken)
    · rename_i vacant
      obtain rfl := Option.some.inj h
      by_cases same : m = changed
      · subst same
        obtain ⟨rfl, -⟩ := idle?_self found idle
        obtain ⟨more, last⟩ := w.enrol_found m found
        exact ⟨_, last, .enrolled (.enrol idle vacant) more⟩
      · have here : ((w.register there.registry changed).setPhase changed .launching).modules.get? m = some target :=
          (Roster.get?_adjust_of_ne _ _ same).trans found
        obtain ⟨more, last⟩ := callHook_found _ changed there .beforeStart here
        exact ⟨_, last, .kept (elsewhere same) more⟩

theorem closeDown_found {w : World} {m : ModuleRef} {target : Module} (found : w.modules.get? m = some target) :
    ∃ more, (w.closeDown m target).modules.get? m = some
      (if target.delay .afterStop = 0 then
        ((target.closingUntil (w.now + target.delay .afterStop)).posted more).ended .finished
      else (target.closingUntil (w.now + target.delay .afterStop)).posted more) := by
  let wake := w.now + target.delay .afterStop
  let closed := (w.adjustModule m (·.closingUntil wake)).record (.closed m)
  have closing : closed.modules.get? m = some (target.closingUntil wake) := by
    simp [closed, record, adjustModule, found]
  obtain ⟨more, there⟩ := closed.callHook_found m target .afterStop closing
  refine ⟨more, ?_⟩
  unfold closeDown
  dsimp only
  split
  · rw [finish_modules, Roster.get?_adjust_self]
    exact congrArg (Option.map (·.ended .finished)) there
  · exact there

theorem closeDown_fares {w : World} {m : ModuleRef} {target : Module} (found : w.modules.get? m = some target)
    (running : target.phase = .running) (cancelled : target.cancelled = true) :
    w.Fares (w.closeDown m target) m (.attend m) target := by
  have observes : w.Observes m target (.attend m) := .observe found running cancelled
  obtain ⟨more, there⟩ := closeDown_found found
  by_cases prompt : target.delay .afterStop = 0
  · rw [if_pos prompt] at there
    exact ⟨_, there, .closedAtOnce observes _ more⟩
  · rw [if_neg prompt] at there
    exact ⟨_, there, .closed observes _ more⟩

theorem attend?_fares {w after : World} {m attending : ModuleRef} {target : Module}
    (h : w.attend? attending = some after) (found : w.modules.get? m = some target) :
    w.Fares after m (.attend attending) target := by
  by_cases same : m = attending
  · subst same
    obtain ⟨there, here, running, ⟨cancelled, rfl⟩ | ⟨kept, envelope, inbox, took, deeds⟩⟩ := attend?_cases h
    · obtain rfl := Option.some.inj (here.symm.trans found)
      exact closeDown_fares found running cancelled
    · obtain rfl := Option.some.inj (here.symm.trans found)
      obtain ⟨more, last, -⟩ := deeds.posted (told_found _ envelope (w.took_found envelope inbox found))
      exact ⟨_, last, .took rfl running kept took _ more⟩
  · have ordinary : w.Ordinary m target (.attend attending) := by
      constructor
      case enrols =>
        intro enrols
        cases enrols
      case observes =>
        intro observes
        cases observes with
        | observe => exact same rfl
      case drops =>
        intro drops
        cases drops
    obtain ⟨more, last, -⟩ := attend?_other h same found
    exact ⟨_, last, .kept ordinary more⟩

theorem advance_fares {w : World} (numbered : w.modules.Numbered) {m : ModuleRef} {target : Module}
    (found : w.modules.get? m = some target) (limit : Nat) : w.Fares (w.advance limit) m (.pass limit) target := by
  have ordinary : w.Ordinary m target (.pass limit) := ordinary_of_not_turning rfl
  obtain ⟨after, there, same⟩ := w.advance_found limit found
  cases phase : target.phase with
  | closing wake =>
    rcases same with rfl | rfl
    · exact fares_of_same found ordinary (there.trans found.symm)
    · exact ⟨_, there, .rested rfl phase⟩
  | _ =>
    apply fares_of_same found ordinary
    rw [found]
    apply advance_other numbered found
    intro wake closing
    rw [phase] at closing
    cases closing

theorem spawn?_fares {w after : World} {m spawned : ModuleRef} {target : Module} (h : w.spawn? spawned = some after)
    (found : w.modules.get? m = some target) : w.Fares after m (.spawn spawned) target := by
  unfold spawn? at h
  split at h
  · cases h
  · rename_i there here
    split at h
    · rename_i launching
      obtain rfl := Option.some.inj h
      refine fares_of_adjust _ found (w.spawn_modules spawned there) ?_ fun _ => ordinary_of_not_turning rfl
      rintro rfl
      obtain rfl := Option.some.inj (here.symm.trans found)
      exact .spawned rfl launching
    · cases h

/-- One move, seen from one module. -/
theorem move_fares {w after : World} (numbered : w.modules.Numbered) (h : w.move? move = some after) {m : ModuleRef}
    {target : Module} (found : w.modules.get? m = some target) : w.Fares after m move target := by
  have untouched : ∀ {last : World}, move.isTurning = false → last.modules = w.modules →
      w.Fares last m move target := by
    intro last plain modules
    exact fares_of_same found (ordinary_of_not_turning plain) (by rw [modules])
  cases move with
  | act action =>
    exact Option.some.inj h ▸ fares_of_deeds found (ordinary_of_not_turning rfl) (w.perform_deeds action)
  | build plan =>
    obtain ⟨⟨built, answer⟩, followed, rfl⟩ := Option.map_eq_some_iff.1 h
    exact follow?_fares followed found
  | enrol name => exact enrol?_fares h found
  | spawn spawned => exact spawn?_fares h found
  | attend attending => exact attend?_fares h found
  | pass time =>
    simp only [move?] at h
    split at h
    · exact Option.some.inj h ▸ advance_fares numbered found time
    · cases h
  | cancel other =>
    rw [← Option.some.inj h]
    refine fares_of_adjust (fun target => { target with cancelled := true }) found (wake_modules _ _) ?_
      fun _ => ordinary_of_not_turning rfl
    rintro rfl
    exact .cancelled rfl
  | deregister other =>
    simp only [move?, deregister?] at h
    split at h
    · cases h
    · split at h
      · exact Option.some.inj h ▸ untouched rfl rfl
      · cases h
  | yield =>
    simp only [move?, yield?] at h
    split at h
    · cases h
    · split at h
      · exact Option.some.inj h ▸ untouched rfl rfl
      · cases h
  | setFirstAside =>
    obtain ⟨ready, aside, same⟩ := w.setFirstAside_eq
    rw [← Option.some.inj h, same]
    exact untouched rfl rfl
  | rejoin => exact Option.some.inj h ▸ untouched rfl rfl
  | newRuntime name => exact Option.some.inj h ▸ untouched rfl rfl
  | cloneRuntime name source =>
    rw [← Option.some.inj h]
    apply untouched rfl
    simp only [cloneRuntime, ensureRuntime]
    split <;> split <;> rfl
  | dropRuntime name => exact Option.some.inj h ▸ untouched rfl rfl
  | dropIdle name =>
    rw [← Option.some.inj h]
    refine dropIdle_fares found (fun idle => .drop idle) ?_
    intro nobody
    constructor
    case enrols =>
      intro enrols
      cases enrols
    case observes =>
      intro observes
      cases observes
    case drops =>
      intro drops
      cases drops with
      | drop idle => exact nobody _ idle
  | clone other =>
    obtain ⟨senders, rfl⟩ := clone?_senders h
    exact untouched rfl rfl
  | drop sender =>
    obtain ⟨senders, rfl⟩ := drop?_senders h
    exact untouched rfl rfl

end World

theorem Deeds.keys {w later : World} (h : Deeds w later) : later.modules.keys = w.modules.keys := by
  induction h with
  | refl => rfl
  | tail _ deed ih =>
    refine Eq.trans ?_ ih
    cases deed with
    | accept found posted =>
      rw [World.wake_modules]
      exact Roster.keys_adjust _ _ _
    | aside => rfl
    | note => rfl
    | lend => rfl

namespace World

theorem callHook_keys (w : World) (m : ModuleRef) (target : Module) (kind : HookKind) :
    (w.callHook m target kind).modules.keys = w.modules.keys := by
  rcases w.callHook_deeds m target kind with same | ⟨tag, subscribed, called⟩
  · rw [same]
  · exact called.keys

theorem attend?_keys {w after : World} {m : ModuleRef} (h : w.attend? m = some after) :
    after.modules.keys = w.modules.keys := by
  obtain ⟨target, found, running, ⟨cancelled, rfl⟩ | ⟨kept, envelope, inbox, took, deeds⟩⟩ := attend?_cases h
  · unfold closeDown
    dsimp only
    split
    · rw [finish_modules, Roster.keys_adjust, callHook_keys, record, adjustModule, Roster.keys_adjust]
    · rw [callHook_keys, record, adjustModule, Roster.keys_adjust]
  · rw [deeds.keys, told, record, setContext, adjustModule, Roster.keys_adjust, World.took, record, setInbox,
      adjustModule, Roster.keys_adjust]

theorem restOver_keys (w : World) (m : ModuleRef) : (w.restOver m).modules.keys = w.modules.keys := by
  unfold restOver
  split
  · rfl
  · rw [finish_modules, Roster.keys_adjust, hookOver_modules]

theorem advance_keys (w : World) (limit : Nat) : (w.advance limit).modules.keys = w.modules.keys := by
  refine List.foldlRecOn (motive := fun after : World => after.modules.keys = w.modules.keys) (w.due limit) _ rfl ?_
  intro after same entry _
  rw [restOver_keys, same]

theorem enrol?_keys {w after : World} {name : String} (h : w.enrol? name = some after) :
    after.modules.keys = w.modules.keys := by
  unfold enrol? at h
  split at h
  · cases h
  · split at h
    · rw [← Option.some.inj h, discard_modules, Roster.keys_adjust]
    · rw [← Option.some.inj h, enrol, callHook_keys, setPhase, adjustModule, Roster.keys_adjust]
      rfl

theorem spawn?_keys {w after : World} {m : ModuleRef} (h : w.spawn? m = some after) :
    after.modules.keys = w.modules.keys := by
  unfold spawn? at h
  split at h
  · cases h
  · split at h
    · rw [← Option.some.inj h, spawn_modules, Roster.keys_adjust]
    · cases h

theorem move_keys {w after : World} (h : w.move? move = some after) (elsewhere : ∀ plan, move ≠ .build plan) :
    after.modules.keys = w.modules.keys := by
  cases move with
  | act action => exact Option.some.inj h ▸ (w.perform_deeds action).keys
  | build plan => exact absurd rfl (elsewhere plan)
  | enrol name => exact enrol?_keys h
  | spawn m => exact spawn?_keys h
  | attend m => exact attend?_keys h
  | pass time =>
    simp only [move?] at h
    split at h
    · exact Option.some.inj h ▸ w.advance_keys time
    · cases h
  | cancel m => rw [← Option.some.inj h, cancel, wake_modules, adjustModule, Roster.keys_adjust]
  | deregister m =>
    simp only [move?, deregister?] at h
    split at h
    · cases h
    · split at h
      · exact Option.some.inj h ▸ rfl
      · cases h
  | yield =>
    simp only [move?, yield?] at h
    split at h
    · cases h
    · split at h
      · exact Option.some.inj h ▸ rfl
      · cases h
  | setFirstAside =>
    obtain ⟨ready, aside, same⟩ := w.setFirstAside_eq
    rw [← Option.some.inj h, same]
  | rejoin => exact Option.some.inj h ▸ rfl
  | newRuntime name => exact Option.some.inj h ▸ rfl
  | cloneRuntime name source =>
    rw [← Option.some.inj h]
    simp only [cloneRuntime, ensureRuntime]
    split <;> split <;> rfl
  | dropRuntime name => exact Option.some.inj h ▸ rfl
  | dropIdle name => exact Option.some.inj h ▸ w.dropIdle_keys name
  | clone m =>
    obtain ⟨senders, rfl⟩ := clone?_senders h
    rfl
  | drop sender =>
    obtain ⟨senders, rfl⟩ := drop?_senders h
    rfl

/-- A module is built bare, and its hooks are installed one after the other. -/
theorem follow?_installs {w after : World} {plan : Plan} {answer : Answer}
    (h : w.follow? plan = some (after, answer)) {m : ModuleRef} {target : Module} (absent : w.modules.get? m = none)
    (found : after.modules.get? m = some target) : ∃ bare : Module, bare.IsFresh ∧ (∀ kind, bare.hook? kind = none) ∧
      target = plan.hooks.foldl (fun target hook => target.install hook.1 hook.2) bare := by
  have modules := w.ensured_modules plan.runtime plan.device
  cases given : plan.settings with
  | none =>
    simp only [follow?, given, Option.some.injEq, Prod.mk.injEq] at h
    rw [← h.1, modules, absent] at found
    cases found
  | some settings =>
    rw [w.follow?_eq given] at h
    obtain ⟨built, builds, outcome⟩ := Option.map_eq_some_iff.1 h
    obtain ⟨rfl, -⟩ := Prod.mk.inj outcome
    unfold build? at builds
    split at builds
    · rename_i registry inbox known made
      obtain rfl := Option.some.inj builds
      obtain rfl := Inbox.eq_of_ofCapacity? made
      have keys := dropIdle_keys ((w.ensureRuntime plan.runtime).ensureDevice plan.device) plan.name
      rw [addModule_modules, Roster.get?_add] at found
      rcases Option.or_eq_some_iff.1 found with before | ⟨-, new⟩
      · have member := Roster.mem_keys_of_get? before
        rw [keys, modules] at member
        obtain ⟨there, here⟩ := Roster.get?_of_mem_keys member
        rw [absent] at here
        cases here
      · split at new
        · refine ⟨_, ⟨rfl, rfl, rfl, rfl, rfl⟩, ?_, (Option.some.inj new).symm⟩
          intro kind
          cases kind <;> rfl
        · cases new
    · cases builds

theorem move_fresh {w after : World} (h : w.move? move = some after) {m : ModuleRef} {target : Module}
    (absent : w.modules.get? m = none) (found : after.modules.get? m = some target) : target.IsFresh := by
  by_cases builds : ∃ plan, move = .build plan
  · obtain ⟨plan, rfl⟩ := builds
    obtain ⟨⟨built, answer⟩, followed, rfl⟩ := Option.map_eq_some_iff.1 h
    obtain ⟨bare, fresh, -, rfl⟩ := follow?_installs followed absent found
    exact install_isFresh fresh plan.hooks
  · have member := Roster.mem_keys_of_get? found
    rw [move_keys h fun plan same => builds ⟨plan, same⟩] at member
    obtain ⟨there, here⟩ := Roster.get?_of_mem_keys member
    rw [absent] at here
    cases here

end World

end WirelessCharging
