import WirelessCharging.Proofs.Change
/-!
What one change can do to one module, with the envelopes that the module accepts and the envelopes that it
takes meanwhile. From this follows what stays of a module for its whole life, that a dispatcher with something
to do is in line, and that no last hook is overdue.
-/
namespace WirelessCharging

/-- A module before and after a change, then what it has accepted and what it has taken. -/
inductive Becomes (move : Move) (w later : World) (m : ModuleRef) :
    Option Module → Option Module → List Envelope → List Envelope → Prop where
  | same (there : Option Module) : Becomes move w later m there there [] []
  | built {target : Module} (fresh : target.IsFresh) (runtime : String)
      (known : w.runtimes.get? runtime = some target.registry) : Becomes move w later m none (some target) [] []
  | posted {target : Module} (envelope : Envelope) (receiving : target.inbox.isReceiving = true) :
      Becomes move w later m (some target) (some (target.posted [envelope])) [envelope] []
  | took {target : Module} {envelope : Envelope} {inbox : Inbox} (running : target.phase = .running)
      (kept : target.cancelled = false) (took : target.inbox.take? = some (envelope, inbox))
      (named : move = .attend m) :
      Becomes move w later m (some target) (some (target.withInbox inbox)) [] [envelope]
  | handled (target : Module) (envelope : Envelope) (named : move = .attend m) :
      Becomes move w later m (some target) (some (target.withContext (w.outcome m target envelope).1)) [] []
  | closed {target : Module} {wake : Nat} (running : target.phase = .running)
      (cancelled : target.cancelled = true) (forward : w.now ≤ wake) :
      Becomes move w later m (some target) (some (target.closingUntil wake)) [] []
  | finished {target : Module} (ending : target.phase.isEnding = true) :
      Becomes move w later m (some target) (some (target.ended .finished)) [] []
  | dropped {target : Module} (idle : target.phase = .idle) :
      Becomes move w later m (some target) (some (target.ended .dropped)) [] []
  | enrolled {target : Module} (idle : target.phase = .idle) (name : String) (named : move = .enrol name)
      (vacant : w.registration? target.registry .wlc = none)
      (registered : later.registries = (w.register target.registry m).registries) :
      Becomes move w later m (some target) (some { target with phase := .launching }) [] []
  | spawned {target : Module} (launching : target.phase = .launching) (named : move = .spawn m) :
      Becomes move w later m (some target) (some { target with phase := .running }) [] []
  | cancelled (target : Module) (named : move = .cancel m) :
      Becomes move w later m (some target) (some { target with cancelled := true }) [] []

def World.Affects (move : Move) (w later : World) (m : ModuleRef) : Prop :=
  ∃ more gone, Becomes move w later m (w.modules.get? m) (later.modules.get? m) more gone ∧
    later.accepted m = w.accepted m ++ more ∧ later.taken m = w.taken m ++ gone

variable {move : Move}

namespace World

theorem affects_of_same {w later : World} {m : ModuleRef} (modules : later.modules.get? m = w.modules.get? m)
    (accepted : later.accepted m = w.accepted m) (taken : later.taken m = w.taken m) :
    w.Affects move later m := by
  refine ⟨[], [], ?_, ?_, ?_⟩
  · rw [modules]
    exact .same _
  · rw [accepted, List.append_nil]
  · rw [taken, List.append_nil]

theorem affects_of_adjust {w later : World} {m : ModuleRef} {target : Module} (f : Module → Module)
    (more gone : List Envelope) (found : w.modules.get? m = some target)
    (modules : later.modules = w.modules.adjust m f)
    (here : Becomes move w later m (some target) (some (f target)) more gone)
    (accepted : ∀ other, later.accepted other = w.accepted other ++ if other = m then more else [])
    (taken : ∀ other, later.taken other = w.taken other ++ if other = m then gone else [])
    {other : ModuleRef} : w.Affects move later other := by
  by_cases same : other = m
  · subst same
    refine ⟨more, gone, ?_, ?_, ?_⟩
    · rw [modules, Roster.get?_adjust_self, found]
      exact here
    · rw [accepted, if_pos rfl]
    · rw [taken, if_pos rfl]
  · refine affects_of_same ?_ ?_ ?_
    · rw [modules, w.modules.get?_adjust_of_ne f same]
    · rw [accepted, if_neg same, List.append_nil]
    · rw [taken, if_neg same, List.append_nil]

theorem affects_of_quiet {w later : World} {m : ModuleRef} {target : Module} (f : Module → Module)
    (found : w.modules.get? m = some target) (modules : later.modules = w.modules.adjust m f)
    (here : Becomes move w later m (some target) (some (f target)) [] [])
    (quiet : ∀ other, later.accepted other = w.accepted other ∧ later.taken other = w.taken other)
    {other : ModuleRef} : w.Affects move later other := by
  refine affects_of_adjust f [] [] found modules here ?_ ?_
  · intro other
    rw [(quiet other).1, ite_self, List.append_nil]
  · intro other
    rw [(quiet other).2, ite_self, List.append_nil]

end World

theorem Deed.affects {w later : World} (h : Deed w later) (m : ModuleRef) : w.Affects move later m := by
  cases h with
  | @accept receiver target envelope inbox found posted =>
    obtain ⟨receiving, -, rfl⟩ := Inbox.post_eq_ok.1 posted
    refine World.affects_of_adjust _ [envelope] [] found (World.wake_modules _ _)
      (.posted envelope receiving) ?_ ?_
    · exact w.accepted_of_accept receiver envelope _
    · intro other
      rw [ite_self, List.append_nil]
      exact World.noted_of_none (World.wake_journal _ _) rfl
  | aside => exact World.affects_of_same rfl rfl rfl
  | note => exact World.affects_of_same rfl rfl rfl
  | lend => exact World.affects_of_same rfl rfl rfl

theorem Change.affects {w later : World} (h : Change move w later) (m : ModuleRef) :
    w.Affects move later m := by
  cases h with
  | deed h => exact h.affects m
  | hook => exact World.affects_of_same rfl rfl rfl
  | hookOver => exact World.affects_of_same rfl rfl rfl
  | @take taker target envelope inbox found running kept took named =>
    refine World.affects_of_adjust _ [] [envelope] found rfl (.took running kept took named) ?_ ?_
    · intro other
      rw [ite_self, List.append_nil]
      rfl
    · exact w.took_taken taker envelope inbox
  | @handle handler target envelope found named =>
    refine World.affects_of_quiet _ found rfl (.handled _ envelope named) ?_
    intro other
    exact ⟨w.told_accepted handler target envelope other, w.told_taken handler target envelope other⟩
  | close found running cancelled wake later =>
    refine World.affects_of_quiet (·.closingUntil wake) found rfl (.closed running cancelled later) ?_
    exact fun _ => ⟨rfl, rfl⟩
  | finish found ending =>
    refine World.affects_of_quiet (·.ended .finished) found rfl (.finished ending) ?_
    exact fun _ => ⟨rfl, rfl⟩
  | drop found idle =>
    refine World.affects_of_quiet (·.ended .dropped) found rfl (.dropped idle) ?_
    exact fun _ => ⟨rfl, rfl⟩
  -- the new module has a reference of its own, so it takes no other's place
  | @build name target fresh runtime known =>
    cases there : w.modules.get? m with
    | some before =>
      exact World.affects_of_same (by rw [there]; exact Roster.get?_add_of_some there) rfl rfl
    | none =>
      by_cases next : w.modules.nextRef name = m
      · refine ⟨[], [], ?_, (List.append_nil _).symm, (List.append_nil _).symm⟩
        rw [there, World.addModule_modules, Roster.get?_add, there, Option.none_or, if_pos next]
        exact .built fresh runtime known
      · refine World.affects_of_same ?_ rfl rfl
        rw [World.addModule_modules, Roster.get?_add, if_neg next, Option.or_none]
  | @enrol receiver target found idle name named vacant =>
    have registered : ((w.register target.registry receiver).setPhase receiver .launching).registries =
        (w.register target.registry receiver).registries := rfl
    refine World.affects_of_quiet _ found rfl (.enrolled idle name named vacant registered) ?_
    exact fun _ => ⟨rfl, rfl⟩
  | spawn found launching named =>
    refine World.affects_of_quiet _ found (World.wake_modules _ _) (.spawned launching named) ?_
    exact fun _ => ⟨World.noted_congr _ (World.wake_journal _ _), World.noted_congr _ (World.wake_journal _ _)⟩
  | cancel receiver named =>
    have quiet : ∀ other, (w.cancel receiver).accepted other = w.accepted other ∧
        (w.cancel receiver).taken other = w.taken other :=
      fun _ => ⟨World.noted_congr _ (World.wake_journal _ _), World.noted_congr _ (World.wake_journal _ _)⟩
    cases there : w.modules.get? receiver with
    | some target =>
      exact World.affects_of_quiet _ there (World.wake_modules _ _) (.cancelled target named) quiet
    | none =>
      refine World.affects_of_same ?_ (quiet m).1 (quiet m).2
      rw [World.cancel, World.wake_modules, World.adjustModule, Roster.adjust_of_get?_none _ _ _ there]
  | deregister => exact World.affects_of_same rfl rfl rfl
  | newRuntime => exact World.affects_of_same rfl rfl rfl
  | rename => exact World.affects_of_same rfl rfl rfl
  | clock => exact World.affects_of_same rfl rfl rfl
  | yield => exact World.affects_of_same rfl rfl rfl
  | setFirstAside =>
    obtain ⟨ready, aside, same⟩ := w.setFirstAside_eq
    rw [same]
    exact World.affects_of_same rfl rfl rfl
  | rejoin => exact World.affects_of_same rfl rfl rfl
  | clone => exact World.affects_of_same rfl rfl rfl
  | letGo => exact World.affects_of_same rfl rfl rfl

theorem Becomes.gone_eq_nil {w later : World} {m : ModuleRef} {before after : Option Module}
    {more gone : List Envelope} (h : Becomes move w later m before after more gone)
    (elsewhere : move ≠ .attend m) : gone = [] := by
  cases h with
  | took running kept took named => exact absurd named elsewhere
  | _ => rfl

/-- Only its own dispatcher takes the envelopes of a module. -/
theorem Change.taken {w later : World} (h : Change move w later) {m : ModuleRef}
    (elsewhere : move ≠ .attend m) : later.taken m = w.taken m := by
  obtain ⟨more, gone, becomes, -, taken⟩ := h.affects m
  rw [taken, becomes.gone_eq_nil elsewhere, List.append_nil]

theorem ChangesIn.taken {w later : World} (h : ChangesIn move w later) {m : ModuleRef}
    (elsewhere : move ≠ .attend m) : later.taken m = w.taken m := by
  induction h with
  | refl => rfl
  | tail _ change ih => exact (change.taken elsewhere).trans ih

theorem Changes.keep {P : World → Prop}
    (keeps : ∀ {move : Move} {w later : World}, Change move w later → P w → P later)
    {w later : World} (h : Changes w later) (start : P w) : P later := by
  induction h with
  | refl => exact start
  | tail _ step ih =>
    obtain ⟨move, change⟩ := step
    exact keeps change ih

namespace World

theorem move_numbered {w after : World} (numbered : w.modules.Numbered) {move : Move}
    (moved : w.move? move = some after) : after.modules.Numbered :=
  Changes.keep Change.numbered (move_changes numbered moved).changes numbered

theorem play_changes {w last : World} (numbered : w.modules.Numbered) {moves : List Move}
    (played : w.play? moves = some last) : Changes w last := by
  induction moves generalizing w with
  | nil =>
    obtain rfl := Option.some.inj played
    exact .refl
  | cons move rest ih =>
    obtain ⟨after, moved, through⟩ := play?_cons.1 played
    exact (move_changes numbered moved).changes.trans (ih (move_numbered numbered moved) through)

theorem numbered_empty : ({} : World).modules.Numbered := Roster.numbered_nil

theorem Reachable.changes {w : World} (reached : w.Reachable) : Changes {} w := by
  obtain ⟨moves, played⟩ := reached
  exact play_changes numbered_empty played

theorem Reachable.numbered {w : World} (reached : w.Reachable) : w.modules.Numbered :=
  Changes.keep Change.numbered reached.changes numbered_empty

theorem LeadsTo.changes {w later : World} (h : w.LeadsTo later) (reached : w.Reachable) :
    Changes w later := by
  obtain ⟨moves, played⟩ := h
  exact play_changes reached.numbered played

end World

/-- What stays of a module for its whole life. -/
structure Module.Lasts (before after : Module) : Prop where
  registry : after.registry = before.registry
  device : after.device = before.device
  beforeStart : after.beforeStart = before.beforeStart
  afterStop : after.afterStop = before.afterStop
  cancelled : before.cancelled = true → after.cancelled = true
  shut : before.inbox.isReceiving = false → after.inbox.isReceiving = false

theorem Module.Lasts.refl (target : Module) : target.Lasts target :=
  ⟨rfl, rfl, rfl, rfl, id, id⟩

theorem Module.Lasts.trans {before middle after : Module} (first : before.Lasts middle)
    (rest : middle.Lasts after) : before.Lasts after where
  registry := rest.registry.trans first.registry
  device := rest.device.trans first.device
  beforeStart := rest.beforeStart.trans first.beforeStart
  afterStop := rest.afterStop.trans first.afterStop
  cancelled := rest.cancelled ∘ first.cancelled
  shut := rest.shut ∘ first.shut

theorem Becomes.lasts {w later : World} {m : ModuleRef} {before : Module} {there : Option Module}
    {more gone : List Envelope} (h : Becomes move w later m (some before) there more gone) :
    ∃ after, there = some after ∧ before.Lasts after := by
  cases h with
  | same => exact ⟨before, rfl, .refl before⟩
  | posted envelope receiving => exact ⟨_, rfl, rfl, rfl, rfl, rfl, id, id⟩
  | took running kept took named =>
    refine ⟨_, rfl, rfl, rfl, rfl, rfl, id, ?_⟩
    rw [Inbox.take?_eq_some.1 took]
    exact id
  | handled envelope named => exact ⟨_, rfl, rfl, rfl, rfl, rfl, id, id⟩
  | closed running cancelled later => exact ⟨_, rfl, rfl, rfl, rfl, rfl, id, fun _ => rfl⟩
  | finished ending => exact ⟨_, rfl, rfl, rfl, rfl, rfl, id, fun _ => rfl⟩
  | dropped idle => exact ⟨_, rfl, rfl, rfl, rfl, rfl, id, fun _ => rfl⟩
  | enrolled idle name named vacant registered => exact ⟨_, rfl, rfl, rfl, rfl, rfl, id, id⟩
  | spawned launching named => exact ⟨_, rfl, rfl, rfl, rfl, rfl, id, id⟩
  | cancelled named => exact ⟨_, rfl, rfl, rfl, rfl, rfl, fun _ => rfl, id⟩

theorem Change.lasts {w later : World} (h : Change move w later) {m : ModuleRef} {before : Module}
    (found : w.modules.get? m = some before) :
    ∃ after, later.modules.get? m = some after ∧ before.Lasts after := by
  obtain ⟨more, gone, becomes, -, -⟩ := h.affects m
  rw [found] at becomes
  exact becomes.lasts

theorem Changes.lasts {w later : World} (h : Changes w later) {m : ModuleRef} {before : Module}
    (found : w.modules.get? m = some before) :
    ∃ after, later.modules.get? m = some after ∧ before.Lasts after := by
  induction h with
  | refl => exact ⟨before, found, .refl before⟩
  | tail _ step ih =>
    obtain ⟨move, change⟩ := step
    obtain ⟨middle, there, first⟩ := ih
    obtain ⟨after, here, rest⟩ := change.lasts there
    exact ⟨after, here, first.trans rest⟩

/-- What holds of a module as long as every change keeps it. -/
theorem Changes.keepModule {P : Module → Prop}
    (keeps : ∀ {move : Move} {w later : World} {m : ModuleRef} {before after : Module} {more gone : List Envelope},
      Becomes move w later m (some before) (some after) more gone → P before → P after)
    {w later : World} (h : Changes w later) {m : ModuleRef} {before after : Module}
    (found : w.modules.get? m = some before) (start : P before) (there : later.modules.get? m = some after) :
    P after := by
  induction h generalizing after with
  | refl =>
    obtain rfl := Option.some.inj (found.symm.trans there)
    exact start
  | tail through step ih =>
    obtain ⟨move, change⟩ := step
    obtain ⟨middle, between, -⟩ := Changes.lasts through found
    obtain ⟨more, gone, becomes, -, -⟩ := change.affects m
    rw [between, there] at becomes
    exact keeps becomes (ih between)

end WirelessCharging
