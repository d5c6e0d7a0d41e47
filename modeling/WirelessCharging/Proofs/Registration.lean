import WirelessCharging.Proofs.Steps
/-!
Who is registered, and what takes a registration away. A stop that returns ok removes whatever stands under the
identifier in the registry of the module stopped, so another module loses its registration if and only if it
is the one that stands there. Where no stop hits another module, registrations last until their own stops, and
no two modules of one registry are at work.
-/
namespace WirelessCharging

variable {move : Move}

/-- Every registry that a runtime or a module refers to is there. -/
structure World.Rooted (w : World) : Prop where
  runtimes : ∀ name registry, w.runtimes.get? name = some registry →
    (w.registries.get? registry).isSome = true
  modules : ∀ m target, w.modules.get? m = some target → (w.registries.get? target.registry).isSome = true

inductive Registers (move : Move) (w : World) (registry : RegistryRef) :
    Option ModuleRef → Option ModuleRef → Prop where
  | same (there : Option ModuleRef) : Registers move w registry there there
  | entered (m : ModuleRef) : Registers move w registry none (some m)
  | removed {m : ModuleRef} {target : Module} (named : move = .deregister m)
      (found : w.modules.get? m = some target) (cancelled : target.cancelled = true)
      (here : target.registry = registry) (there : Option ModuleRef) : Registers move w registry there none

namespace World

theorem registration?_congr {w later : World} (same : later.registries = w.registries) :
    later.registration? = w.registration? := by
  funext registry id
  rw [registration?, registration?, same]

theorem registration?_adjust (w : World) (registry other : RegistryRef) (f : Registry → Registry) :
    ({ w with registries := w.registries.adjust registry f } : World).registration? other .wlc =
      if other = registry then ((w.registries.get? registry).map f).bind (·.get? .wlc)
      else w.registration? other .wlc := by
  by_cases same : other = registry
  · rw [registration?, same, Roster.get?_adjust_self, if_pos rfl]
  · rw [registration?, Roster.get?_adjust_of_ne _ _ same, if_neg same, registration?]

theorem registration?_register (w : World) {registry : RegistryRef} {m : ModuleRef}
    (there : (w.registries.get? registry).isSome = true) (vacant : w.registration? registry .wlc = none)
    (other : RegistryRef) : (w.register registry m).registration? other .wlc =
      if other = registry then some m else w.registration? other .wlc := by
  obtain ⟨entries, listed⟩ := Option.isSome_iff_exists.1 there
  have empty : entries.get? .wlc = none := by
    rw [registration?, listed] at vacant
    exact vacant
  have entered := w.registration?_adjust registry other fun entries => entries.add .wlc m
  rw [listed, Option.map_some, Option.bind_some, Roster.get?_add, empty] at entered
  exact entered

theorem registration?_deregister (w : World) (registry other : RegistryRef) :
    (w.deregister registry).registration? other .wlc =
      if other = registry then none else w.registration? other .wlc := by
  refine (w.registration?_adjust registry other fun entries => entries.remove .wlc).trans ?_
  cases w.registries.get? registry with
  | none => rfl
  | some entries => rw [Option.map_some, Option.bind_some, Roster.get?_remove_self]

theorem registration?_newRuntime (w : World) (name : String) (registry : RegistryRef) :
    (w.newRuntime name).registration? registry .wlc = w.registration? registry .wlc := by
  simp only [registration?, newRuntime, Roster.get?_add]
  cases w.registries.get? registry with
  | some entries => rfl
  | none =>
    rw [Option.none_or]
    split <;> rfl

end World

theorem Deed.registries {w later : World} (h : Deed w later) : later.registries = w.registries :=
  Deeds.registries (.single h)

theorem Change.registers {w later : World} (h : Change move w later) (rooted : w.Rooted)
    (registry : RegistryRef) :
    Registers move w registry (w.registration? registry .wlc) (later.registration? registry .wlc) := by
  have quiet : ∀ {last : World}, last.registries = w.registries →
      Registers move w registry (w.registration? registry .wlc) (last.registration? registry .wlc) := by
    intro last same
    rw [World.registration?_congr same]
    exact .same _
  cases h with
  | deed h => exact quiet h.registries
  | @enrol m target found idle name named vacant =>
    have entered : ((w.register target.registry m).setPhase m .launching).registration? registry .wlc =
        if registry = target.registry then some m else w.registration? registry .wlc :=
      w.registration?_register (rooted.modules m target found) vacant registry
    rw [entered]
    split
    · rename_i same
      rw [same, vacant]
      exact .entered m
    · exact .same _
  | spawn => exact quiet (World.wake_registries _ _)
  | cancel => exact quiet (World.wake_registries _ _)
  | @deregister m target found cancelled past named =>
    rw [World.registration?_deregister]
    split
    · rename_i same
      exact .removed named found cancelled same.symm _
    · exact .same _
  | newRuntime name =>
    rw [World.registration?_newRuntime]
    exact .same _
  | setFirstAside =>
    obtain ⟨ready, aside, same⟩ := w.setFirstAside_eq
    rw [same]
    exact quiet rfl
  | _ => exact quiet rfl

theorem Change.registries_kept {w later : World} (h : Change move w later) {registry : RegistryRef}
    (there : (w.registries.get? registry).isSome = true) : (later.registries.get? registry).isSome = true := by
  have quiet : ∀ {last : World}, last.registries = w.registries →
      (last.registries.get? registry).isSome = true := fun same => by rwa [same]
  have adjusted : ∀ other f, ((w.registries.adjust other f).get? registry).isSome = true := by
    intro other f
    by_cases same : registry = other
    · rw [same, Roster.get?_adjust_self, Option.isSome_map, ← same]
      exact there
    · rwa [Roster.get?_adjust_of_ne _ _ same]
  cases h with
  | deed h => exact quiet h.registries
  | enrol => exact adjusted _ _
  | spawn => exact quiet (World.wake_registries _ _)
  | cancel => exact quiet (World.wake_registries _ _)
  | deregister => exact adjusted _ _
  | newRuntime name =>
    obtain ⟨entries, listed⟩ := Option.isSome_iff_exists.1 there
    rw [World.newRuntime, Roster.get?_add_of_some listed]
    rfl
  | setFirstAside =>
    obtain ⟨ready, aside, same⟩ := w.setFirstAside_eq
    rw [same]
    exact quiet rfl
  | _ => exact there

theorem Change.known {w later : World} (h : Change move w later) {name : String} {registry : RegistryRef}
    (known : later.runtimes.get? name = some registry) :
    (∃ other, w.runtimes.get? other = some registry) ∨ (later.registries.get? registry).isSome = true := by
  cases h with
  | deed h =>
    cases h with
    | accept =>
      rw [World.wake_runtimes] at known
      exact Or.inl ⟨name, known⟩
    | aside => exact Or.inl ⟨name, known⟩
    | note => exact Or.inl ⟨name, known⟩
    | lend => exact Or.inl ⟨name, known⟩
  | spawn =>
    rw [World.wake_runtimes] at known
    exact Or.inl ⟨name, known⟩
  | cancel =>
    rw [World.cancel, World.wake_runtimes] at known
    exact Or.inl ⟨name, known⟩
  | newRuntime runtime =>
    simp only [World.newRuntime, Roster.get?_replace] at known
    split at known
    · right
      obtain rfl := Option.some.inj known
      rw [World.newRuntime, Roster.get?_add, if_pos rfl, Option.isSome_or]
      exact Bool.or_true _
    · exact Or.inl ⟨name, known⟩
  | rename runtimes renamed => exact Or.inl (renamed name registry known)
  | setFirstAside =>
    obtain ⟨ready, aside, same⟩ := w.setFirstAside_eq
    rw [same] at known
    exact Or.inl ⟨name, known⟩
  | _ => exact Or.inl ⟨name, known⟩

theorem Change.rooted {w later : World} (h : Change move w later) (start : w.Rooted) : later.Rooted := by
  constructor
  case runtimes =>
    intro name registry known
    rcases h.known known with ⟨other, before⟩ | there
    · exact h.registries_kept (start.runtimes other registry before)
    · exact there
  case modules =>
    intro m target found
    cases there : w.modules.get? m with
    | none =>
      obtain ⟨more, gone, becomes, -, -⟩ := h.affects m
      rw [there, found] at becomes
      cases becomes with
      | built fresh runtime known => exact h.registries_kept (start.runtimes runtime _ known)
    | some before =>
      obtain ⟨after, same, lasts⟩ := h.lasts there
      obtain rfl := Option.some.inj (same.symm.trans found)
      rw [lasts.registry]
      exact h.registries_kept (start.modules m before there)

theorem World.Occurs.rooted {w : World} (occurs : Changes {} w) : w.Rooted :=
  Changes.keep Change.rooted occurs ⟨fun _ _ known => (nomatch known), fun _ _ found => (nomatch found)⟩

def Phase.isLaunched : Phase → Bool
  | .launching => true
  | .running => true
  | _ => false

def Module.AtWork (target : Module) : Prop := target.phase.isLaunched = true ∧ target.cancelled = false

/-- Modules at work stand in their registries. -/
def World.Held (w : World) : Prop :=
  ∀ m target, w.modules.get? m = some target → target.AtWork →
    w.registration? target.registry .wlc = some m

/-- A stop comes to its end while another module stands in the registry of the one stopped. -/
def World.Strays (w : World) (move : Move) : Prop :=
  ∃ m target other, move = .deregister m ∧ w.modules.get? m = some target ∧
    w.registration? target.registry .wlc = some other ∧ other ≠ m

def World.Tidy (w : World) : List Move → Prop
  | [] => True
  | move :: rest => ¬ w.Strays move ∧ ∀ after, w.move? move = some after → after.Tidy rest

theorem Becomes.atWork {w later : World} {m : ModuleRef} {before : Option Module} {target : Module}
    {more gone : List Envelope} (h : Becomes move w later m before (some target) more gone)
    (working : target.AtWork) :
    ∃ there, before = some there ∧ there.registry = target.registry ∧
      (there.AtWork ∨ w.registration? target.registry .wlc = none ∧
        later.registries = (w.register target.registry m).registries) := by
  obtain ⟨launched, kept⟩ := working
  cases h with
  | same => exact ⟨target, rfl, rfl, Or.inl ⟨launched, kept⟩⟩
  | built fresh => simp [fresh.phase, Phase.isLaunched] at launched
  | posted => exact ⟨_, rfl, rfl, Or.inl ⟨launched, kept⟩⟩
  | took => exact ⟨_, rfl, rfl, Or.inl ⟨launched, kept⟩⟩
  | handled => exact ⟨_, rfl, rfl, Or.inl ⟨launched, kept⟩⟩
  | closed => cases launched
  | finished => cases launched
  | dropped => cases launched
  | enrolled idle name named vacant registered => exact ⟨_, rfl, rfl, Or.inr ⟨vacant, registered⟩⟩
  | spawned launching => exact ⟨_, rfl, rfl, Or.inl ⟨by rw [launching]; rfl, kept⟩⟩
  | cancelled => cases kept

theorem Change.held {w later : World} (h : Change move w later) (rooted : w.Rooted) (tidy : ¬ w.Strays move)
    (start : w.Held) : later.Held := by
  intro m target found working
  obtain ⟨more, gone, becomes, -, -⟩ := h.affects m
  rw [found] at becomes
  obtain ⟨there, before, same, wasWorking | ⟨vacant, registered⟩⟩ := becomes.atWork working
  · have stood := start m there before wasWorking
    rw [same] at stood
    have after := h.registers rooted target.registry
    rw [stood] at after
    generalize last : later.registration? target.registry .wlc = stands at after
    cases after with
    | same => rfl
    -- its own stop would have found it told to stop, and the stop of another module strays
    | @removed stopped other named known cancelled here =>
      by_cases self : m = stopped
      · subst self
        obtain rfl := Option.some.inj (known.symm.trans before)
        rw [wasWorking.2] at cancelled
        cases cancelled
      · exact absurd ⟨stopped, other, m, named, known, by rw [here]; exact stood, self⟩ tidy
  · have listed := rooted.modules m there before
    rw [same] at listed
    rw [World.registration?_congr registered, w.registration?_register listed vacant, if_pos rfl]

theorem World.Reachable.rooted {w : World} (reached : w.Reachable) : w.Rooted :=
  World.Occurs.rooted reached.changes

theorem ChangesIn.registration {w later : World} (h : ChangesIn move w later) (rooted : w.Rooted)
    (other : ∀ m, move ≠ .deregister m) {registry : RegistryRef} {m : ModuleRef}
    (stood : w.registration? registry .wlc = some m) : later.registration? registry .wlc = some m := by
  have kept : later.Rooted ∧ later.registration? registry .wlc = some m := by
    induction h with
    | refl => exact ⟨rooted, stood⟩
    | tail _ change ih =>
      obtain ⟨rooted, stands⟩ := ih
      have registers := change.registers rooted registry
      rw [stands] at registers
      generalize last : World.registration? _ registry .wlc = there at registers
      refine ⟨change.rooted rooted, ?_⟩
      cases registers with
      | same => rfl
      | @removed stopped _ named => exact absurd named (other stopped)
  exact kept.2

theorem ChangesIn.held {w later : World} (h : ChangesIn move w later) (rooted : w.Rooted)
    (other : ∀ m, move ≠ .deregister m) (start : w.Held) : later.Held := by
  have kept : later.Rooted ∧ later.Held := by
    induction h with
    | refl => exact ⟨rooted, start⟩
    | tail _ change ih =>
      obtain ⟨rooted, held⟩ := ih
      refine ⟨change.rooted rooted, change.held rooted ?_ held⟩
      rintro ⟨m, -, -, named, -⟩
      exact other m named
  exact kept.2

namespace World

theorem deregister?_eq {w after : World} {m : ModuleRef} (h : w.deregister? m = some after) :
    ∃ target, w.modules.get? m = some target ∧ after = w.deregister target.registry := by
  unfold deregister? at h
  split at h
  · cases h
  · rename_i target found
    split at h
    · exact ⟨target, found, (Option.some.inj h).symm⟩
    · cases h

def EndsStopIn (w : World) (registry : RegistryRef) (move : Move) : Prop :=
  ∃ m target, move = .deregister m ∧ w.modules.get? m = some target ∧ target.registry = registry

/-- Whoever stands in a registry loses its place to the end of a stop in that registry, and to nothing else. -/
theorem move_registration {w after : World} (reached : w.Reachable) (h : w.move? move = some after)
    {registry : RegistryRef} {m : ModuleRef} (stood : w.registration? registry .wlc = some m) :
    (w.EndsStopIn registry move ∧ after.registration? registry .wlc = none) ∨
      (¬ w.EndsStopIn registry move ∧ after.registration? registry .wlc = some m) := by
  by_cases named : ∃ stopped, move = .deregister stopped
  · obtain ⟨stopped, rfl⟩ := named
    obtain ⟨target, found, rfl⟩ := deregister?_eq h
    rw [registration?_deregister]
    by_cases same : registry = target.registry
    · rw [if_pos same]
      exact Or.inl ⟨⟨stopped, target, rfl, found, same.symm⟩, rfl⟩
    · rw [if_neg same]
      right
      refine ⟨?_, stood⟩
      rintro ⟨other, there, eq, foundThere, here⟩
      cases eq
      obtain rfl := Option.some.inj (foundThere.symm.trans found)
      exact same here.symm
  · right
    constructor
    · rintro ⟨stopped, -, eq, -⟩
      exact named ⟨stopped, eq⟩
    · exact (move_changes reached.numbered h).registration reached.rooted (fun m eq => named ⟨m, eq⟩) stood

theorem move_held {w after : World} (reached : w.Reachable) (h : w.move? move = some after)
    (tidy : ¬ w.Strays move) (start : w.Held) : after.Held := by
  by_cases named : ∃ stopped, move = .deregister stopped
  · obtain ⟨stopped, rfl⟩ := named
    exact (deregister?_change h).held reached.rooted tidy start
  · exact (move_changes reached.numbered h).held reached.rooted (fun m eq => named ⟨m, eq⟩) start

theorem play_held {w last : World} {moves : List Move} (reached : w.Reachable)
    (played : w.play? moves = some last) (tidy : w.Tidy moves) (start : w.Held) : last.Held := by
  induction moves generalizing w with
  | nil => exact Option.some.inj played ▸ start
  | cons move rest ih =>
    obtain ⟨after, moved, through⟩ := play?_cons.1 played
    exact ih (reached.leadsTo (.single move moved)) through (tidy.2 after moved)
      (move_held reached moved tidy.1 start)

theorem play_registration {w last : World} {moves : List Move} (reached : w.Reachable)
    (played : w.play? moves = some last) (tidy : w.Tidy moves) {registry : RegistryRef} {m : ModuleRef}
    (stood : w.registration? registry .wlc = some m) (unstopped : Move.deregister m ∉ moves) :
    last.registration? registry .wlc = some m := by
  induction moves generalizing w with
  | nil => exact Option.some.inj played ▸ stood
  | cons move rest ih =>
    obtain ⟨after, moved, through⟩ := play?_cons.1 played
    have other : move ≠ .deregister m := fun same => unstopped (List.mem_cons.2 (Or.inl same.symm))
    have others : Move.deregister m ∉ rest := fun later => unstopped (List.mem_cons_of_mem _ later)
    refine ih (reached.leadsTo (.single move moved)) through (tidy.2 after moved) ?_ others
    rcases move_registration reached moved stood with ⟨⟨stopped, target, rfl, found, here⟩, -⟩ | ⟨-, stands⟩
    · refine absurd ⟨stopped, target, m, rfl, found, ?_, ?_⟩ tidy.1
      · rw [here]
        exact stood
      · rintro rfl
        exact other rfl
    · exact stands

theorem callHook_registries (w : World) (m : ModuleRef) (target : Module) (kind : HookKind) :
    (w.callHook m target kind).registries = w.registries := by
  rcases w.callHook_deeds m target kind with same | ⟨tag, subscribed, called⟩
  · rw [same]
  · exact called.registries

theorem enrol_registries (w : World) (m : ModuleRef) (target : Module) :
    (w.enrol m target).registries = (w.register target.registry m).registries :=
  callHook_registries _ m target .beforeStart

theorem spawn_registries (w : World) (m : ModuleRef) (target : Module) :
    (w.spawn m target).registries = w.registries := by
  rw [spawn, wake_registries, setPhase, adjustModule, hookOver]
  split <;> rfl

theorem launch_registers {w after : World} {name : String} {m : ModuleRef} {target : Module}
    (reached : w.Reachable) (idle : w.idle? name = some (m, target)) (h : w.launch name = (after, .ok)) :
    after.registration? target.registry .wlc = some m := by
  rcases launch_moves reached h with ⟨-, wrong⟩ | ⟨-, wrong⟩ |
    ⟨same, there, enrolled, waited, sameIdle, vacant, first, waits, second, -⟩
  · cases wrong
  · cases wrong
  · obtain ⟨rfl, rfl⟩ := Prod.mk.inj (Option.some.inj (sameIdle.symm.trans idle))
    have going := reached.leadsTo (.single (.enrol name) first)
    have registered : enrolled.registries = (w.register there.registry same).registries := by
      simp only [enrol?, idle, vacant, Option.some.injEq] at first
      rw [← first, enrol_registries]
    have spawned : after.registries = waited.registries := by
      unfold spawn? at second
      split at second
      · cases second
      · split at second
        · rw [← Option.some.inj second, spawn_registries]
        · cases second
    have all : after.registries = (w.register there.registry same).registries :=
      spawned.trans ((waits.registries going).trans registered)
    have listed := reached.rooted.modules same there (idle?_found idle).1
    rw [registration?_congr all, w.registration?_register listed vacant, if_pos rfl]

theorem stop_registration {w after : World} {m : ModuleRef} {target : Module} {answer : Answer}
    (reached : w.Reachable) (found : w.modules.get? m = some target) (h : w.stop m = (after, answer))
    (registry : RegistryRef) : after.registration? registry .wlc =
      if answer = .ok ∧ registry = target.registry then none else w.registration? registry .wlc := by
  obtain ⟨waited, goes, past⟩ := stop_moves reached found h
  have going : (w.cancel m).Reachable := reached.leadsTo (.single (.cancel m) rfl)
  have waits : waited.registration? = w.registration? :=
    registration?_congr ((goes.registries going).trans (wake_registries _ _))
  rcases past with ⟨rfl, -, rfl⟩ | ⟨refused, rfl⟩
  · rw [registration?_deregister, waits]
    by_cases same : registry = target.registry
    · rw [if_pos same, if_pos ⟨rfl, same⟩]
    · rw [if_neg same, if_neg fun both => same both.2]
  · rw [waits, if_neg fun both => refused both.1]

def stopTarget? (w : World) : Step → Option ModuleRef
  | .stop name => w.modules.latest? name
  | .disable name => w.modules.latest? name
  | .shutdown runtime => (w.runtimes.get? runtime).bind fun registry => w.registration? registry .wlc
  | _ => none

theorem step?_stop {w after : World} {step : Step} {m : ModuleRef} {answer : Answer}
    (named : w.stopTarget? step = some m) (h : w.step? step = some (after, answer)) :
    ∃ stopped, w.stop m = (stopped, answer) ∧ after = stopped.settle := by
  have settles : some (settled (w.stop m)) = some (after, answer) →
      ∃ stopped, w.stop m = (stopped, answer) ∧ after = stopped.settle := by
    intro same
    obtain ⟨rfl, rfl⟩ := Prod.mk.inj (Option.some.inj same)
    exact ⟨_, rfl, rfl⟩
  cases step with
  | stop name =>
    simp only [step?, stopNamed, show w.modules.latest? name = some m from named] at h
    exact settles h
  | disable name =>
    simp only [step?, stopNamed, show w.modules.latest? name = some m from named] at h
    exact settles h
  | shutdown runtime =>
    unfold stopTarget? at named
    simp only [step?, shutdown, named] at h
    exact settles h
  | _ => cases named

/-- What the dispatchers do after a stop is nothing to the registries. -/
theorem step_registration {w after : World} {step : Step} {m : ModuleRef} {target : Module} {answer : Answer}
    (reached : w.Reachable) (named : w.stopTarget? step = some m) (found : w.modules.get? m = some target)
    (h : w.step? step = some (after, answer)) (registry : RegistryRef) : after.registration? registry .wlc =
      if answer = .ok ∧ registry = target.registry then none else w.registration? registry .wlc := by
  obtain ⟨stopped, stops, rfl⟩ := step?_stop named h
  have going : stopped.Reachable := by
    have leads := stop_leadsTo reached m
    rw [stops] at leads
    exact reached.leadsTo leads
  rw [registration?_congr (stopped.settle_goesOn.registries going)]
  exact stop_registration reached found stops registry

theorem lost_iff {w after : World} {registry own : RegistryRef} {answer : Answer} {other : ModuleRef}
    (stood : w.registration? registry .wlc = some other)
    (left : after.registration? registry .wlc =
      if answer = .ok ∧ registry = own then none else w.registration? registry .wlc) :
    after.registration? registry .wlc ≠ some other ↔ answer = .ok ∧ own = registry := by
  rw [left, stood]
  by_cases past : answer = .ok ∧ registry = own
  · rw [if_pos past]
    constructor
    · intro _
      exact ⟨past.1, past.2.symm⟩
    · intro _ same
      cases same
  · rw [if_neg past]
    constructor
    · intro lost
      exact absurd rfl lost
    · rintro ⟨ok, same⟩
      exact absurd ⟨ok, same.symm⟩ past

theorem held_empty : Held {} := fun _ _ found => (nomatch found)

/-- A stop of any module, whatever has become of it, takes away the registration of another if and only if it
returns ok and the two are of one registry, and no other move takes one away. A launch that returns ok has
registered its module, and in a run in which no stop hits another module the registration lasts until the
module's own stop has come to its end, and no two modules of one registry are at work. -/
theorem registration_lost_iff_stopped_in_registry {w : World} (reached : w.Reachable) :
    (∀ m target after answer registry other, w.modules.get? m = some target → w.stop m = (after, answer) →
      w.registration? registry .wlc = some other →
      (after.registration? registry .wlc ≠ some other ↔ answer = .ok ∧ target.registry = registry)) ∧
    (∀ step m target after answer registry other, w.stopTarget? step = some m →
      w.modules.get? m = some target → w.step? step = some (after, answer) →
      w.registration? registry .wlc = some other →
      (after.registration? registry .wlc ≠ some other ↔ answer = .ok ∧ target.registry = registry)) ∧
    (∀ move after registry other, w.move? move = some after → w.registration? registry .wlc = some other →
      (after.registration? registry .wlc ≠ some other ↔ w.EndsStopIn registry move)) ∧
    (∀ name m target after, w.idle? name = some (m, target) → w.launch name = (after, .ok) →
      after.registration? target.registry .wlc = some m) ∧
    (∀ moves last registry m, w.play? moves = some last → w.Tidy moves →
      w.registration? registry .wlc = some m → Move.deregister m ∉ moves →
      last.registration? registry .wlc = some m) ∧
    ∀ moves, ({} : World).play? moves = some w → ({} : World).Tidy moves →
      ∀ m n target other, w.modules.get? m = some target → w.modules.get? n = some other →
        target.registry = other.registry → target.AtWork → other.AtWork → m = n := by
  refine ⟨?_, ?_, ?_, ?_, ?_, ?_⟩
  · intro m target after answer registry other found stopped stood
    exact lost_iff stood (stop_registration reached found stopped registry)
  · intro step m target after answer registry other named found stepped stood
    exact lost_iff stood (step_registration reached named found stepped registry)
  · intro move after registry other moved stood
    rcases move_registration reached moved stood with ⟨ends, left⟩ | ⟨goes, left⟩
    · rw [left]
      constructor
      · intro _
        exact ends
      · intro _ same
        cases same
    · constructor
      · intro lost
        exact absurd left lost
      · intro ends
        exact absurd ends goes
  · intro name m target after idle launched
    exact launch_registers reached idle launched
  · intro moves last registry m played tidy stood unstopped
    exact play_registration reached played tidy stood unstopped
  · intro moves played tidy m n target other found foundOther same working otherWorking
    have held := play_held reachable_empty played tidy held_empty
    have first := held m target found working
    have second := held n other foundOther otherWorking
    rw [same, second] at first
    exact (Option.some.inj first).symm

def launchedAndBuilt : List Move :=
  [.build ⟨"a", "r", "d", some {}, []⟩, .enrol "a", .spawn ⟨"a", 0⟩, .build ⟨"b", "r", "d", some {}, []⟩]

theorem registration_lasts_while_another_is_cancelled : ∃ w last : World, w.Reachable ∧
    w.registration? ⟨"r", 0⟩ .wlc = some ⟨"a", 0⟩ ∧ w.play? [.cancel ⟨"b", 0⟩] = some last ∧
    last.registration? ⟨"r", 0⟩ .wlc = some ⟨"a", 0⟩ := by
  obtain ⟨w, played⟩ :=
    Option.isSome_iff_exists.1 (by decide : (({} : World).play? launchedAndBuilt).isSome = true)
  have reached : w.Reachable := ⟨launchedAndBuilt, played⟩
  have stood : (({} : World).play? launchedAndBuilt).map (·.registration? ⟨"r", 0⟩ .wlc) =
    some (some ⟨"a", 0⟩) := by decide
  rw [played] at stood
  have registered := Option.some.inj stood
  have tidy : w.Tidy [.cancel ⟨"b", 0⟩] := by
    refine ⟨?_, fun _ _ => trivial⟩
    rintro ⟨m, -, -, named, -⟩
    cases named
  have unstopped : Move.deregister ⟨"a", 0⟩ ∉ [Move.cancel ⟨"b", 0⟩] := by simp
  exact ⟨w, w.cancel ⟨"b", 0⟩, reached, registered, rfl,
    (registration_lost_iff_stopped_in_registry reached).2.2.2.2.1 [.cancel ⟨"b", 0⟩] _ _ _ rfl tidy registered
      unstopped⟩

/-- The stop of a module that was never launched takes away the registration of the one that was. -/
theorem registration_lost_to_module_never_launched : ∃ w after : World, w.Reachable ∧
    w.registration? ⟨"r", 0⟩ .wlc = some ⟨"a", 0⟩ ∧ w.stop ⟨"b", 0⟩ = (after, .ok) ∧
    after.registration? ⟨"r", 0⟩ .wlc = none := by
  obtain ⟨w, played⟩ :=
    Option.isSome_iff_exists.1 (by decide : (({} : World).play? launchedAndBuilt).isSome = true)
  have stood : (({} : World).play? launchedAndBuilt).map (·.registration? ⟨"r", 0⟩ .wlc) =
    some (some ⟨"a", 0⟩) := by decide
  have answer : (({} : World).play? launchedAndBuilt).map (fun w => (w.stop ⟨"b", 0⟩).2) = some .ok := by decide
  have lost : (({} : World).play? launchedAndBuilt).map
    (fun w => (w.stop ⟨"b", 0⟩).1.registration? ⟨"r", 0⟩ .wlc) = some none := by decide
  rw [played] at stood answer lost
  exact ⟨w, (w.stop ⟨"b", 0⟩).1, ⟨launchedAndBuilt, played⟩, Option.some.inj stood,
    Prod.ext rfl (Option.some.inj answer), Option.some.inj lost⟩

end World

end WirelessCharging
