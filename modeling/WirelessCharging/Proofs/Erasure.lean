import WirelessCharging.Proofs.StartCheck
import WirelessCharging.Proofs.Trims
/-!
Starts that are turned away can be left out. Take any run, and leave out of an inbox at its beginning the starts that
come to be turned away in a first part of it, together with the moves in which that happens. The rest of the run goes
through as it did and ends in the same world, as long as no call to the module was refused for want of room in the
first part.
-/
namespace WirelessCharging

theorem Thins.of_nil {short : List Envelope} (h : Thins [] short) : short = [] := by
  cases h
  rfl

theorem Thins.ne_cons {long short : List Envelope} (h : Thins long short) (first : Envelope) :
    first :: long ≠ short := by
  rintro rfl
  exact absurd h.length_le (Nat.not_succ_le_self _)

theorem Inbox.discard_trimmed (inbox : Inbox) (long short : List Envelope) :
    (inbox.trimmed long short).discard = inbox.discard := by
  unfold trimmed
  split <;> rfl

theorem Inbox.trimmed_discard (inbox : Inbox) (long short : List Envelope) :
    inbox.discard.trimmed long short = inbox.discard := if_pos rfl

theorem Module.ended_trimmed (target : Module) (long short : List Envelope) (phase : Phase) :
    (target.ended phase).trimmed long short = (target.trimmed long short).ended phase := by
  simp only [trimmed, ended, withInbox, Inbox.trimmed_discard, Inbox.discard_trimmed]

theorem Module.closingUntil_trimmed {target : Module} (kept : target.inbox.state ≠ .discarded)
    (long short : List Envelope) (wake : Nat) :
    (target.closingUntil wake).trimmed long short = (target.trimmed long short).closingUntil wake := by
  simp only [trimmed, closingUntil, withInbox, Inbox.trimmed, if_neg kept]
  rfl

theorem Inbox.take?_trimmed {inbox after : Inbox} {envelope first : Envelope} {left : List Envelope}
    (rest : List Envelope) (took : inbox.take? = some (envelope, after)) (kept : inbox.state ≠ .discarded)
    (waits : first :: left <+: inbox.queue) :
    first = envelope ∧ left <+: after.queue ∧
      (inbox.trimmed (first :: left) (first :: rest)).take? = some (envelope, after.trimmed left rest) := by
  obtain rfl := take?_eq_some.1 took
  obtain ⟨same, behind⟩ := List.cons_prefix_cons.1 waits
  obtain ⟨more, split⟩ := behind
  have alsoKept : after.state ≠ .discarded := kept
  have whole : first :: left ++ more = envelope :: after.queue := by rw [same, ← split, List.cons_append]
  refine ⟨same, ⟨more, split⟩, ?_⟩
  rw [trimmed_of_append kept whole, trimmed_of_append alsoKept split, same]
  rfl

namespace World

variable {m : ModuleRef} {long short : List Envelope} {w v : World}

namespace Trims

theorem ended (h : Trims m long short w v) (x : ModuleRef) (phase : Phase) :
    Trims m long short (w.adjustModule x (·.ended phase)) (v.adjustModule x (·.ended phase)) := by
  refine h.adjustModule x ?_ ?_
  · intro target
    exact target.ended_trimmed long short phase
  · intro target kept
    exact absurd rfl kept

theorem finish (h : Trims m long short w v) (x : ModuleRef) : Trims m long short (w.finish x) (v.finish x) :=
  (h.ended x .finished).blind (f := fun u => u.withdraw x .dispatcher) fun _ _ _ => rfl

theorem discard (h : Trims m long short w v) (x : ModuleRef) : Trims m long short (w.discard x) (v.discard x) :=
  (h.ended x .dropped).blind (f := fun u => u.withdraw x .own) fun _ _ _ => rfl

theorem setPhase (h : Trims m long short w v) (x : ModuleRef) (phase : Phase) :
    Trims m long short (w.setPhase x phase) (v.setPhase x phase) :=
  h.adjustModule x (fun _ => rfl) fun _ _ => rfl

theorem hookOver (h : Trims m long short w v) (x : ModuleRef) (target : Module) (kind : HookKind) :
    Trims m long short (w.hookOver x target kind) (v.hookOver x target kind) := by
  unfold World.hookOver
  split
  · exact h
  · exact h.record _

theorem closing (h : Trims m long short w v) (occurs : w.Occurs) {x : ModuleRef} {target : Module}
    (found : w.modules.get? x = some target) (running : target.phase = .running) (wake : Nat) :
    Trims m long short (w.adjustModule x (·.closingUntil wake)) (v.adjustModule x (·.closingUntil wake)) := by
  by_cases own : x = m
  · subst own
    have kept := occurs.kept found running
    obtain ⟨there, same, first⟩ := h.waiting
    obtain rfl := Option.some.inj (found.symm.trans same)
    exact h.own found (Module.closingUntil_trimmed kept long short wake) (fun _ => first kept) h.thins
  · exact h.other own _

theorem closeDown (h : Trims m long short w v) (occurs : w.Occurs) {x : ModuleRef} {target : Module}
    (found : w.modules.get? x = some target) (running : target.phase = .running) (inbox : Inbox)
    (room : long ≠ short → HasRoom m ((((w.adjustModule x (·.closingUntil (w.now + target.delay .afterStop))).record
      (.closed x)).hooking x target .afterStop).1.callsOf (((w.adjustModule x
        (·.closingUntil (w.now + target.delay .afterStop))).record (.closed x)).hooking x target .afterStop).2)) :
    Trims m long short (w.closeDown x target) (v.closeDown x (target.withInbox inbox)) := by
  have now : v.now = w.now := by rw [h.same]
  have closed := (h.closing occurs found running (w.now + target.delay .afterStop)).record (.closed x)
  have called := closed.callHook x target .afterStop room
  have same : v.closeDown x (target.withInbox inbox) = v.closeDown x target := rfl
  rw [same]
  simp only [World.closeDown, now]
  split
  · exact called.finish x
  · exact called

/-- The module has taken an envelope, and what waits first is left and rest from now on. -/
theorem took (h : Trims m long short w v) {target : Module} (found : w.modules.get? m = some target)
    (envelope : Envelope) (inbox : Inbox) {left rest : List Envelope} (first : left <+: inbox.queue)
    (thins : Thins left rest) :
    Trims m left rest (w.took m envelope inbox) (v.took m envelope (inbox.trimmed left rest)) := by
  have changed : Trims m left rest (w.setInbox m inbox) (v.setInbox m (inbox.trimmed left rest)) :=
    h.own found rfl (fun _ => first) thins
  exact changed.record _

/-- The module has taken an envelope that the other world has left out. -/
theorem skipped (h : Trims m long short w v) {target : Module} (found : w.modules.get? m = some target)
    (kept : target.inbox.state ≠ .discarded) {envelope first : Envelope} {left : List Envelope} {inbox : Inbox}
    (head : long = first :: left) (took : target.inbox.take? = some (envelope, inbox)) (thins : Thins left short) :
    Trims m left short (w.took m envelope inbox) v := by
  subst head
  obtain ⟨there, same, waits⟩ := h.waiting
  obtain rfl := Option.some.inj (found.symm.trans same)
  obtain ⟨rfl, ⟨more, split⟩, -⟩ := Inbox.take?_trimmed [] took kept (waits kept)
  have alike : target.inbox.trimmed (first :: left) short = inbox.trimmed left short := by
    have before := Inbox.take?_eq_some.1 took
    have alsoKept : inbox.state ≠ .discarded := by rwa [before] at kept
    have whole : first :: left ++ more = target.inbox.queue := by rw [before, ← split, List.cons_append]
    rw [Inbox.trimmed_of_append kept whole, Inbox.trimmed_of_append alsoKept split, before]
  have changed : Trims m left short (w.setInbox m inbox) (v.adjustModule m id) := by
    refine h.own found ?_ (fun _ => ⟨more, split⟩) thins
    exact congrArg target.withInbox alike.symm
  have unchanged : v.adjustModule m id = v := by
    have there : v.modules.get? m = some (target.trimmed (first :: left) short) := by
      rw [h.get?, found, Option.map_some, if_pos rfl]
    rw [World.adjustModule, v.modules.adjust_eq_self there rfl]
  rw [unchanged] at changed
  exact changed.recordHidden (by simp [Entry.isHeard])

theorem found_empty (h : Trims m long short w v) {x : ModuleRef} {target : Module}
    (found : w.modules.get? x = some target) (kept : target.inbox.state ≠ .discarded)
    (empty : target.inbox.queue = []) : v.modules.get? x = some target := by
  by_cases own : x = m
  · subst own
    obtain ⟨there, same, first⟩ := h.waiting
    obtain rfl := Option.some.inj (found.symm.trans same)
    have nothing := first kept
    rw [empty, List.prefix_nil] at nothing
    subst nothing
    obtain rfl := h.thins.of_nil
    rw [h.get?, found, Option.map_some, if_pos rfl, Module.trimmed_self first]
  · rw [h.get?, found, Option.map_some, if_neg own]

theorem attend?_none (h : Trims m long short w v) (occurs : w.Occurs) {x : ModuleRef} (waits : w.attend? x = none) :
    v.attend? x = none := by
  cases found : w.modules.get? x with
  | none => simp only [World.attend?, h.get?, found, Option.map_none]
  | some target =>
    by_cases running : target.phase = .running
    · obtain ⟨kept, empty⟩ := idle_of_attend?_none waits found running
      have there := h.found_empty found (occurs.kept found running) empty
      simp [World.attend?, there, running, kept, Inbox.take?, empty]
    · obtain ⟨inbox, there⟩ := h.found found
      have alike : (target.withInbox inbox).phase ≠ .running := running
      simp only [World.attend?, there, if_pos alike]

theorem deals (h : Trims m long short w v) (free : w.inHand = []) {target : Module}
    (found : w.modules.get? m = some target) (running : target.phase = .running) (kept : target.cancelled = false)
    {envelope : Envelope} {inbox : Inbox} (took : target.inbox.take? = some (envelope, inbox))
    {left rest : List Envelope}
    (shorter : (target.trimmed long short).inbox.take? = some (envelope, inbox.trimmed left rest))
    (first : left <+: inbox.queue) (thins : Thins left rest)
    (room : left ≠ rest → HasRoom m (w.callsIn (.attend m))) : ∃ later, v.attend? m = some later ∧
      Trims m left rest ((w.took m envelope inbox).dispatch m target envelope) later := by
  have there : v.modules.get? m = some (target.trimmed long short) := by
    rw [h.get?, found, Option.map_some, if_pos rfl]
  have attended := attend?_taking there running kept shorter
  rw [Module.trimmed, dispatch_withInbox] at attended
  refine ⟨_, attended, (h.took found envelope inbox first thins).dispatch free m target envelope ?_⟩
  rwa [callsIn, calling, attending_taking found running kept took] at room

theorem attend (h : Trims m long short w v) (reached : w.Reachable) {x : ModuleRef} {after : World}
    (attended : w.attend? x = some after) (room : long ≠ short → HasRoom m (w.callsIn (.attend x)))
    (elsewhere : x = m → w.taking? m = none) : ∃ later, v.attend? x = some later ∧ Trims m long short after later := by
  obtain ⟨target, found, running, ⟨cancelled, rfl⟩ | ⟨kept, envelope, inbox, took, rfl⟩⟩ := attend?_eq_some.1 attended
  · obtain ⟨inbox, there⟩ := h.found found
    refine ⟨_, attend?_closing there running cancelled, ?_⟩
    rw [callsIn, calling, attending_closing found running cancelled] at room
    exact h.closeDown reached.changes found running inbox room
  · by_cases own : x = m
    · subst own
      have none_taken := elsewhere rfl
      rw [taking?_eq found running kept took] at none_taken
      cases none_taken
    · have there : v.modules.get? x = some target := by
        rw [h.get?, found, Option.map_some, if_neg own]
      refine ⟨_, attend?_taking there running kept took, ?_⟩
      rw [callsIn, calling, attending_taking found running kept took] at room
      have moved : Trims m long short (w.took x envelope inbox) (v.took x envelope inbox) :=
        (h.other own (·.withInbox inbox)).record _
      exact moved.dispatch reached.free x target envelope room

theorem idle? (h : Trims m long short w v) (name : String) : v.idle? name = (w.idle? name).map fun entry =>
    (entry.1, if entry.1 = m then entry.2.trimmed long short else entry.2) := by
  simp only [World.idle?, h.latest?]
  cases w.modules.latest? name with
  | none => rfl
  | some x =>
    simp only [h.get?]
    cases w.modules.get? x with
    | none => rfl
    | some target =>
      have phase : (if x = m then target.trimmed long short else target).phase = target.phase := by
        split <;> rfl
      simp only [Option.map_some, phase]
      split <;> rfl

theorem dropIdle (h : Trims m long short w v) (name : String) :
    Trims m long short (w.dropIdle name) (v.dropIdle name) := by
  unfold World.dropIdle
  rw [h.idle?]
  cases w.idle? name with
  | none => exact h
  | some entry => exact h.discard entry.1

theorem addModule (h : Trims m long short w v) (name : String) (target : Module) :
    Trims m long short (w.addModule name target) (v.addModule name target) := by
  obtain ⟨there, found, first⟩ := h.waiting
  have next : v.modules.nextRef name = w.modules.nextRef name := by
    rw [Roster.nextRef_eq, Roster.nextRef_eq, h.keys]
  have modules : v.modules.add (w.modules.nextRef name) target =
      (w.modules.add (w.modules.nextRef name) target).adjust m (·.trimmed long short) := by
    rw [congrArg World.modules h.same]
    exact (w.modules.adjust_add _ found).symm
  have added : Trims m long short { w with modules := w.modules.add (w.modules.nextRef name) target }
      { v with modules := v.modules.add (w.modules.nextRef name) target } := by
    constructor
    case thins => exact h.thins
    case waiting => exact ⟨there, Roster.get?_add_of_some found, first⟩
    case heard => exact h.heard
    case same =>
      have whole :=
        congrArg (fun u : World => { u with modules := v.modules.add (w.modules.nextRef name) target }) h.same
      refine Eq.trans whole ?_
      rw [modules]
  unfold World.addModule
  rw [next]
  exact added.blind (f := fun u => u.grant (w.modules.nextRef name) .own) fun _ _ _ => rfl

theorem ensureRuntime (h : Trims m long short w v) (name : String) :
    Trims m long short (w.ensureRuntime name) (v.ensureRuntime name) := by
  refine h.blind (f := fun w => w.ensureRuntime name) ?_
  intro w modules journal
  dsimp only [World.ensureRuntime]
  split <;> rfl

theorem follow? (h : Trims m long short w v) {plan : Plan} {after : World} {answer : Answer}
    (followed : w.follow? plan = some (after, answer)) :
    ∃ later, v.follow? plan = some (later, answer) ∧ Trims m long short after later := by
  have ensured := (h.ensureRuntime plan.runtime).ensureDevice plan.device
  unfold World.follow? at followed ⊢
  dsimp only at followed ⊢
  cases settings : plan.settings with
  | none =>
    rw [settings] at followed
    obtain ⟨rfl, rfl⟩ := Prod.mk.inj (Option.some.inj followed)
    exact ⟨_, rfl, ensured⟩
  | some settings =>
    rw [settings] at followed
    obtain ⟨built, builds, same⟩ := Option.map_eq_some_iff.1 followed
    obtain ⟨rfl, rfl⟩ := Prod.mk.inj same
    unfold World.build? at builds ⊢
    dsimp only at builds ⊢
    have runtimes : ((v.ensureRuntime plan.runtime).ensureDevice plan.device).runtimes =
        ((w.ensureRuntime plan.runtime).ensureDevice plan.device).runtimes := by rw [ensured.same]
    rw [runtimes]
    split at builds
    · obtain rfl := Option.some.inj builds
      refine ⟨_, rfl, ?_⟩
      exact (ensured.dropIdle plan.name).addModule plan.name _
    · cases builds

theorem restOver (h : Trims m long short w v) (x : ModuleRef) : Trims m long short (w.restOver x) (v.restOver x) := by
  unfold World.restOver
  rw [h.get?]
  cases w.modules.get? x with
  | none => exact h
  | some target =>
    have same : v.hookOver x (if x = m then target.trimmed long short else target) .afterStop =
        v.hookOver x target .afterStop := by
      split <;> rfl
    simp only [Option.map_some, same]
    exact (h.hookOver x target .afterStop).finish x

theorem advance (h : Trims m long short w v) (limit : Nat) :
    Trims m long short (w.advance limit) (v.advance limit) := by
  have same : v.due limit = w.due limit := by
    rw [h.same]
    simp only [due]
    rw [Roster.filterMap_adjust]
    exact fun _ _ => rfl
  have rested : ∀ (entries : List (Nat × ModuleRef)) {w v : World}, Trims m long short w v →
      Trims m long short (entries.foldl (fun w entry => w.restOver entry.2) w)
        (entries.foldl (fun w entry => w.restOver entry.2) v) := by
    intro entries
    induction entries with
    | nil => exact id
    | cons entry rest ih => exact fun alike => ih (alike.restOver entry.2)
  unfold World.advance
  rw [same]
  exact (rested (w.due limit) h).blind (f := fun w => { w with now := limit }) fun _ _ _ => rfl

theorem enrol? (h : Trims m long short w v) {name : String} {after : World} (enrolled : w.enrol? name = some after)
    (room : long ≠ short → HasRoom m (w.callsIn (.enrol name))) :
    ∃ later, v.enrol? name = some later ∧ Trims m long short after later := by
  have registration : ∀ registry id, v.registration? registry id = w.registration? registry id := by
    intro registry id
    rw [h.same]
    rfl
  unfold World.enrol? at enrolled ⊢
  rw [callsIn, calling, enrolling] at room
  rw [h.idle?]
  cases idle : w.idle? name with
  | none =>
    rw [idle] at enrolled
    cases enrolled
  | some entry =>
    obtain ⟨x, target⟩ := entry
    have same : (if x = m then target.trimmed long short else target).registry = target.registry := by
      split <;> rfl
    simp only [idle, Option.map_some, registration, same] at enrolled room ⊢
    cases taken : w.registration? target.registry .wlc with
    | some holder =>
      simp only [taken, Option.some.injEq] at enrolled room ⊢
      subst enrolled
      exact ⟨_, rfl, h.discard x⟩
    | none =>
      simp only [taken, Option.some.injEq] at enrolled room ⊢
      subst enrolled
      refine ⟨_, rfl, ?_⟩
      have registered := h.blind (f := fun w => w.register target.registry x) fun _ _ _ => rfl
      have called := (registered.setPhase x .launching).callHook x target .beforeStart room
      unfold World.enrol
      rw [same]
      split
      · exact called
      · exact called

theorem spawn? (h : Trims m long short w v) {x : ModuleRef} {after : World} (spawned : w.spawn? x = some after) :
    ∃ later, v.spawn? x = some later ∧ Trims m long short after later := by
  unfold World.spawn? at spawned ⊢
  rw [h.get?]
  cases found : w.modules.get? x with
  | none =>
    rw [found] at spawned
    cases spawned
  | some target =>
    have phase : (if x = m then target.trimmed long short else target).phase = target.phase := by
      split <;> rfl
    simp only [found, Option.map_some, phase] at spawned ⊢
    split at spawned
    · rename_i launching
      obtain rfl := Option.some.inj spawned
      refine ⟨_, if_pos launching, ?_⟩
      have running := (h.hookOver x target .beforeStart).setPhase x .running
      have handed := running.blind (f := fun u => u.handOn x) fun _ _ _ => rfl
      have alike := handed.wake x
      unfold World.spawn
      split
      · exact alike
      · exact alike
    · cases spawned

theorem deregister? (h : Trims m long short w v) {x : ModuleRef} {after : World}
    (deregistered : w.deregister? x = some after) :
    ∃ later, v.deregister? x = some later ∧ Trims m long short after later := by
  unfold World.deregister? at deregistered ⊢
  rw [h.get?]
  cases found : w.modules.get? x with
  | none =>
    rw [found] at deregistered
    cases deregistered
  | some target =>
    have same : (if x = m then target.trimmed long short else target).phase = target.phase ∧
        (if x = m then target.trimmed long short else target).cancelled = target.cancelled ∧
        (if x = m then target.trimmed long short else target).registry = target.registry := by
      split <;> exact ⟨rfl, rfl, rfl⟩
    simp only [found, Option.map_some, same] at deregistered ⊢
    split at deregistered
    · rename_i past
      obtain rfl := Option.some.inj deregistered
      exact ⟨_, if_pos past, h.blind (f := fun w => w.deregister target.registry) fun _ _ _ => rfl⟩
    · cases deregistered

theorem cloneRuntime (h : Trims m long short w v) (name source : String) :
    Trims m long short (w.cloneRuntime name source) (v.cloneRuntime name source) := by
  have ensured := h.ensureRuntime source
  have runtimes : (v.ensureRuntime source).runtimes = (w.ensureRuntime source).runtimes := by rw [ensured.same]
  unfold World.cloneRuntime
  dsimp only
  rw [runtimes]
  split
  · exact ensured
  · rename_i registry _
    exact ensured.blind (f := fun u => { u with
      runtimes := ((w.ensureRuntime source).runtimes.remove name).add name registry }) fun _ _ _ => rfl

theorem mayDrop (h : Trims m long short w v) (holder : Holder) : v.mayDrop holder = w.mayDrop holder := by
  cases holder with
  | registry registry =>
    have modules := w.modules.any_adjust m (·.trimmed long short) (Module.shares · registry) fun _ => rfl
    rw [h.same]
    simp only [World.mayDrop, isShared, modules]
  | _ => rfl

theorem yield? (h : Trims m long short w v) (occurs : w.Occurs) {after : World} (yielded : w.yield? = some after) :
    ∃ later, v.yield? = some later ∧ Trims m long short after later := by
  have ready : v.ready = w.ready := by rw [h.same]
  unfold World.yield? at yielded ⊢
  rw [ready]
  cases line : w.ready with
  | nil =>
    rw [line] at yielded
    cases yielded
  | cons x rest =>
    simp only [line] at yielded ⊢
    split at yielded
    · rename_i waits
      obtain rfl := Option.some.inj yielded
      have alsoWaits : (v.attend? x).isNone = true := by
        rw [h.attend?_none occurs (Option.isNone_iff_eq_none.1 waits)]
        rfl
      rw [if_pos alsoWaits]
      exact ⟨_, rfl, h.blind (f := World.yield) fun _ _ _ => rfl⟩
    · cases yielded

theorem setFirstAside (h : Trims m long short w v) : Trims m long short w.setFirstAside v.setFirstAside := by
  refine h.blind (f := World.setFirstAside) ?_
  intro w modules journal
  dsimp only [World.setFirstAside]
  split <;> rfl

theorem move (h : Trims m long short w v) (reached : w.Reachable) {move : Move} {after : World}
    (moved : w.move? move = some after) (room : long ≠ short → HasRoom m (w.callsIn move))
    (elsewhere : w.meeting? m move = none) :
    ∃ later, v.move? move = some later ∧ Trims m long short after later := by
  cases move with
  | act action =>
    obtain rfl := Option.some.inj moved
    refine ⟨_, rfl, (h.perform action ?_).world⟩
    exact fun differ => room differ (w, action) (List.mem_singleton.2 rfl)
  | build plan =>
    obtain ⟨⟨built, answer⟩, followed, rfl⟩ := Option.map_eq_some_iff.1 moved
    obtain ⟨later, alsoFollowed, alike⟩ := h.follow? followed
    exact ⟨later, Option.map_eq_some_iff.2 ⟨_, alsoFollowed, rfl⟩, alike⟩
  | enrol name => exact h.enrol? moved room
  | spawn x => exact h.spawn? moved
  | attend x =>
    refine h.attend reached moved room ?_
    intro own
    rw [meeting?, if_pos own] at elsewhere
    exact elsewhere
  | pass time =>
    have now : v.now = w.now := by rw [h.same]
    simp only [move?, now] at moved ⊢
    split at moved
    · rename_i forward
      obtain rfl := Option.some.inj moved
      rw [if_pos forward]
      exact ⟨_, rfl, h.advance time⟩
    · cases moved
  | cancel x =>
    obtain rfl := Option.some.inj moved
    have told := h.adjustModule x (f := fun target => { target with cancelled := true }) (fun _ => rfl) fun _ _ => rfl
    exact ⟨_, rfl, told.wake x⟩
  | deregister x => exact h.deregister? moved
  | yield => exact h.yield? reached.changes moved
  | setFirstAside =>
    obtain rfl := Option.some.inj moved
    exact ⟨_, rfl, h.setFirstAside⟩
  | rejoin =>
    obtain rfl := Option.some.inj moved
    exact ⟨_, rfl, h.blind (f := World.rejoin) fun _ _ _ => rfl⟩
  | newRuntime name =>
    obtain rfl := Option.some.inj moved
    exact ⟨_, rfl, h.blind (f := fun w => w.newRuntime name) fun _ _ _ => rfl⟩
  | cloneRuntime name source =>
    obtain rfl := Option.some.inj moved
    exact ⟨_, rfl, h.cloneRuntime name source⟩
  | dropRuntime name =>
    obtain rfl := Option.some.inj moved
    exact ⟨_, rfl, h.blind (f := fun w => w.dropRuntime name) fun _ _ _ => rfl⟩
  | dropIdle name =>
    obtain rfl := Option.some.inj moved
    exact ⟨_, rfl, h.dropIdle name⟩
  | clone x =>
    obtain ⟨held, rfl⟩ := clone?_eq_some.1 moved
    have alsoHeld : v.holders x ≠ [] := by
      rw [h.same]
      exact held
    exact ⟨_, clone?_eq_some.2 ⟨alsoHeld, rfl⟩, h.blind (f := fun w => w.grant x .caller) fun _ _ _ => rfl⟩
  | drop sender =>
    obtain ⟨held, rfl⟩ := drop?_eq_some.1 moved
    have alsoHeld : sender ∈ v.senders ∧ v.mayDrop sender.holder = true := by
      rw [h.mayDrop, h.same]
      exact held
    refine ⟨_, drop?_eq_some.2 ⟨alsoHeld, rfl⟩, ?_⟩
    exact h.blind (f := fun w => w.withdraw sender.target sender.holder) fun _ _ _ => rfl

end Trims

/-- A start that the gate of the module does not let through. -/
def turnsAway (moment : World) (m : ModuleRef) : Envelope → Bool
  | .request (.start mode) => !moment.starts m mode
  | _ => false

/-- What is left of the envelopes that wait first for a module, and of the moves of a run, when the starts among them
that come to be turned away are left out. -/
def withoutRejected (w : World) (m : ModuleRef) : List Envelope → List Move → List Envelope × List Move
  | front, [] => (front, [])
  | front, move :: moves =>
    match w.move? move with
    | none => (front, move :: moves)
    | some after =>
      match w.meeting? m move, front with
      | some (moment, _), first :: others =>
        let kept := after.withoutRejected m others moves
        if moment.turnsAway m first then kept else (first :: kept.1, move :: kept.2)
      | _, _ =>
        let kept := after.withoutRejected m front moves
        (kept.1, move :: kept.2)

section

variable {m : ModuleRef} {front others : List Envelope} {first : Envelope} {move : Move} {moves : List Move}
  {w after : World}

theorem withoutRejected_other (moved : w.move? move = some after) (elsewhere : w.meeting? m move = none) :
    w.withoutRejected m front (move :: moves) =
      ((after.withoutRejected m front moves).1, move :: (after.withoutRejected m front moves).2) := by
  rw [withoutRejected, moved, elsewhere]

theorem withoutRejected_behind (moved : w.move? move = some after) :
    w.withoutRejected m [] (move :: moves) =
      ((after.withoutRejected m [] moves).1, move :: (after.withoutRejected m [] moves).2) := by
  rw [withoutRejected, moved]
  cases w.meeting? m move <;> rfl

theorem withoutRejected_front (moved : w.move? move = some after) {moment : World} {envelope : Envelope}
    (meets : w.meeting? m move = some (moment, envelope)) :
    w.withoutRejected m (first :: others) (move :: moves) =
      if moment.turnsAway m first then after.withoutRejected m others moves
      else (first :: (after.withoutRejected m others moves).1, move :: (after.withoutRejected m others moves).2) := by
  rw [withoutRejected, moved, meets]

end

theorem withoutRejected_nil (w : World) (m : ModuleRef) (moves : List Move) :
    w.withoutRejected m [] moves = ([], moves) := by
  induction moves generalizing w with
  | nil => rfl
  | cons move moves ih =>
    cases moved : w.move? move with
    | none => rw [withoutRejected, moved]
    | some after => rw [withoutRejected_behind moved, ih]

theorem thins_withoutRejected (w : World) (m : ModuleRef) (front : List Envelope) (moves : List Move) :
    Thins front (w.withoutRejected m front moves).1 := by
  induction moves generalizing w front with
  | nil => exact .refl front
  | cons move moves ih =>
    cases moved : w.move? move with
    | none =>
      rw [withoutRejected, moved]
      exact .refl front
    | some after =>
      cases meets : w.meeting? m move with
      | none =>
        rw [withoutRejected_other moved meets]
        exact ih after front
      | some meeting =>
        cases front with
        | nil =>
          rw [withoutRejected_behind moved]
          exact ih after []
        | cons first others =>
          rw [withoutRejected_front moved meets]
          split
          · rename_i away
            unfold turnsAway at away
            split at away
            · exact .skip _ (ih after others)
            · cases away
          · exact .keep first (ih after others)

theorem meeting?_eq_some {move : Move} {moment : World} {envelope : Envelope} :
    w.meeting? m move = some (moment, envelope) ↔ move = .attend m ∧ w.taking? m = some (moment, envelope) := by
  constructor
  · intro meets
    unfold meeting? at meets
    split at meets
    · split at meets
      · rename_i same
        exact ⟨congrArg Move.attend same, meets⟩
      · cases meets
    · cases meets
  · rintro ⟨rfl, takes⟩
    rw [meeting?, if_pos rfl, takes]

theorem taking?_eq_some {moment : World} {envelope : Envelope} (takes : w.taking? m = some (moment, envelope)) :
    ∃ target inbox, w.modules.get? m = some target ∧ target.phase = .running ∧ target.cancelled = false ∧
      target.inbox.take? = some (envelope, inbox) ∧ moment = w.took m envelope inbox := by
  unfold taking? at takes
  split at takes
  · cases takes
  · rename_i target found
    split at takes
    · rename_i runs
      obtain ⟨⟨envelope, inbox⟩, took, same⟩ := Option.map_eq_some_iff.1 takes
      cases same
      exact ⟨target, inbox, found, runs.1, runs.2, took, rfl⟩
    · cases takes

theorem turnsAway_dispatch {target : Module} {envelope : Envelope} (found : w.modules.get? m = some target)
    (away : w.turnsAway m envelope = true) :
    ∃ rejection, w.dispatch m target envelope = w.record (.rejected m rejection) := by
  unfold turnsAway at away
  split at away
  · rename_i mode
    cases gate : startRejection? target.context (w.readings target.device) mode with
    | none => simp [World.starts, found, gate] at away
    | some rejection => exact ⟨rejection, w.dispatch_rejected m gate⟩
  · cases away

namespace Trims

theorem front {first : Envelope} {others kept : List Envelope} (h : Trims m (first :: others) short w v)
    (reached : w.Reachable) {after moment : World} {envelope : Envelope}
    (takes : w.taking? m = some (moment, envelope)) (attended : w.attend? m = some after)
    (room : others ≠ kept → HasRoom m (w.callsIn (.attend m))) (thins : Thins others kept)
    (left_out : short = if moment.turnsAway m first then kept else first :: kept) :
    if moment.turnsAway m first then Trims m others kept after v
    else ∃ later, v.attend? m = some later ∧ Trims m others kept after later := by
  obtain ⟨target, inbox, found, running, uncancelled, took, rfl⟩ := taking?_eq_some takes
  have open_ := Occurs.kept reached.changes found running
  obtain ⟨there, same, waits⟩ := h.waiting
  obtain rfl := Option.some.inj (found.symm.trans same)
  obtain rfl := Option.some.inj ((attend?_taking found running uncancelled took).symm.trans attended)
  obtain ⟨rfl, behind, shorter⟩ := Inbox.take?_trimmed kept took open_ (waits open_)
  split
  · rename_i away
    rw [if_pos away] at left_out
    subst left_out
    have moved := h.skipped found open_ rfl took thins
    have there := w.took_found first inbox found
    obtain ⟨rejection, dealt⟩ := turnsAway_dispatch there away
    rw [dispatch_withInbox] at dealt
    rw [dealt]
    exact moved.recordHidden (by simp [Entry.isHeard])
  · rename_i through
    rw [if_neg through] at left_out
    subst left_out
    exact h.deals reached.free found running uncancelled took shorter behind thins room

/-- Once all that waited first is dealt with, there is nothing left out any more. -/
theorem behind (h : Trims m [] short w v) (reached : w.Reachable) {after moment : World} {envelope : Envelope}
    (takes : w.taking? m = some (moment, envelope)) (attended : w.attend? m = some after) :
    ∃ later, v.attend? m = some later ∧ Trims m [] [] after later := by
  obtain ⟨target, inbox, found, running, uncancelled, took, rfl⟩ := taking?_eq_some takes
  obtain rfl := Option.some.inj ((attend?_taking found running uncancelled took).symm.trans attended)
  obtain rfl := h.thins.of_nil
  refine h.deals reached.free found running uncancelled took ?_ List.nil_prefix .nil (absurd rfl)
  rw [Module.trimmed_self fun _ => List.nil_prefix, Inbox.trimmed_self fun _ => List.nil_prefix]
  exact took

theorem play {front : List Envelope} {moves : List Move} (h : Trims m front (w.withoutRejected m front moves).1 w v)
    (reached : w.Reachable) {last : World} (played : w.play? moves = some last)
    (room : front ≠ (w.withoutRejected m front moves).1 → HasRoom m (w.calls moves)) :
    ∃ later left, v.play? (w.withoutRejected m front moves).2 = some later ∧ Trims m left left last later := by
  induction moves generalizing w v front with
  | nil =>
    obtain rfl := Option.some.inj played
    exact ⟨v, front, rfl, h⟩
  | cons move moves ih =>
    obtain ⟨after, moved, through⟩ := play?_cons.1 played
    have next : after.Reachable := reached.leadsTo (.single move moved)
    rw [calls_cons moved] at room
    -- a move that is made in both worlds, and then the rest
    have both : ∀ {front : List Envelope} {middle : World}, v.move? move = some middle →
        Trims m front (after.withoutRejected m front moves).1 after middle →
        (front ≠ (after.withoutRejected m front moves).1 → HasRoom m (after.calls moves)) →
        ∃ later left, v.play? (move :: (after.withoutRejected m front moves).2) = some later ∧
          Trims m left left last later := by
      intro front middle alsoMoved alike roomy
      obtain ⟨later, left, alsoThrough, same⟩ := ih alike next through roomy
      exact ⟨later, left, play?_cons.2 ⟨middle, alsoMoved, alsoThrough⟩, same⟩
    cases meets : w.meeting? m move with
    | none =>
      rw [withoutRejected_other moved meets] at h room ⊢
      obtain ⟨middle, alsoMoved, alike⟩ := h.move reached moved (fun differ => (room differ).left) meets
      exact both alsoMoved alike fun differ => (room differ).right
    | some meeting =>
      obtain ⟨moment, envelope⟩ := meeting
      obtain ⟨rfl, takes⟩ := meeting?_eq_some.1 meets
      cases front with
      | nil =>
        rw [withoutRejected_behind moved] at h room ⊢
        obtain ⟨middle, alsoMoved, alike⟩ := h.behind reached takes moved
        have none_kept := (after.thins_withoutRejected m [] moves).of_nil
        exact both alsoMoved (none_kept.symm ▸ alike) fun differ => absurd none_kept.symm differ
      | cons first others =>
        rw [withoutRejected_front moved meets] at h room ⊢
        have thins := after.thins_withoutRejected m others moves
        split at h
        · rename_i away
          have differ : first :: others ≠ (after.withoutRejected m others moves).1 := thins.ne_cons first
          rw [if_pos away] at room
          have alike := h.front reached takes moved (fun _ => (room differ).left) thins (if_pos away).symm
          rw [if_pos away] at alike ⊢
          exact ih alike next through fun _ => (room differ).right
        · rename_i lets
          rw [if_neg lets] at room
          have roomy : others ≠ (after.withoutRejected m others moves).1 →
              HasRoom m (w.callsIn (.attend m) ++ after.calls moves) :=
            fun differ => room fun same => differ (List.cons.inj same).2
          have alike := h.front reached takes moved (fun differ => (roomy differ).left) thins (if_neg lets).symm
          rw [if_neg lets] at alike ⊢
          obtain ⟨middle, alsoMoved, same⟩ := alike
          exact both alsoMoved same fun differ => (roomy differ).right

/-- Where nothing is left out any more there is room for whatever there was room for. -/
theorem goesOn {front : List Envelope} (h : Trims m front front w v) (reached : w.Reachable) {moves : List Move}
    {last : World} (played : w.play? moves = some last) :
    ∃ later left, v.play? moves = some later ∧ Trims m left left last later := by
  have whole := withoutRejected_nil w m moves
  have start : Trims m [] (w.withoutRejected m [] moves).1 w v := by
    rw [whole]
    exact h.nothing
  obtain ⟨later, left, through, alike⟩ := start.play reached played (by rw [whole]; exact absurd rfl)
  rw [whole] at through
  exact ⟨later, left, through, alike⟩

end Trims

/-- What is read off the journal without its turned away starts and taken envelopes is not changed by them. -/
theorem noted_of_heard {α : Type} {reading? : Entry → Option α}
    (unheard : ∀ entry, entry.isHeard m = false → reading? entry = none)
    (heard : v.journal.filter (·.isHeard m) = w.journal.filter (·.isHeard m)) :
    v.noted reading? = w.noted reading? := by
  have passed : ∀ journal : List Entry,
      (journal.filter (·.isHeard m)).filterMap reading? = journal.filterMap reading? := by
    intro journal
    rw [List.filterMap_filter]
    apply List.filterMap_congr
    intro entry _
    cases here : entry.isHeard m with
    | true => rfl
    | false => exact (unheard entry here).symm
  rw [noted, noted, ← passed v.journal, heard, passed]

theorem deliveries_of_heard (heard : v.journal.filter (·.isHeard m) = w.journal.filter (·.isHeard m))
    (other : ModuleRef) : v.deliveries other = w.deliveries other := by
  refine noted_of_heard ?_ heard
  intro entry unheard
  cases entry with
  | delivered source s event => cases unheard
  | _ => rfl

theorem adjustModule_trimmed (occurs : w.Occurs) {target : Module} (found : w.modules.get? m = some target)
    {queue : List Envelope} (thins : Thins target.inbox.queue queue) :
    w.adjustModule m (·.trimmed target.inbox.queue queue) = w.setInbox m { target.inbox with queue } := by
  have same : target.inbox.trimmed target.inbox.queue queue = { target.inbox with queue } := by
    by_cases discarded : target.inbox.state = .discarded
    · have empty := occurs.emptied found discarded
      rw [empty] at thins
      obtain rfl := thins.of_nil
      rw [Inbox.trimmed, if_pos discarded, ← empty]
    · rw [Inbox.trimmed_of_append discarded (List.append_nil _), List.append_nil]
  have modules := w.modules.adjust_congr (f := (·.trimmed target.inbox.queue queue))
    (g := (·.withInbox { target.inbox with queue })) found (congrArg target.withInbox same)
  rw [setInbox, adjustModule, adjustModule, modules]

/-- A start is let through if all the checks pass, and the first that fails is the reason for turning it away. One
that is turned away leaves the reason in the journal and nothing else behind. One that is let through sets the mode
and one bit, and is told to the subscriber of the latest enable if that one is alive. Starts that come to be turned
away in the first part of a run can be left out of the inbox, with the moves in which they are: the run ends in the
same world and has made the same deliveries, as long as no call in that part was refused by the module because its
inbox was full. -/
theorem start_gate_and_erasure {w : World} (reached : w.Reachable) {m : ModuleRef} {target : Module}
    (found : w.modules.get? m = some target) :
    (∀ context readings mode,
      (startRejection? context readings mode = none ↔ ∀ check : StartCheck, check.Passes context readings mode) ∧
      ∀ reason, startRejection? context readings mode = some reason ↔ ∃ before check after,
        StartCheck.inOrder = before ++ check :: after ∧ (∀ earlier ∈ before, earlier.Passes context readings mode) ∧
          ¬ check.Passes context readings mode ∧ reason = check.rejection readings mode) ∧
    (∀ (moment : World) (there : Module) (mode : ChargingMode), moment.modules.get? m = some there →
      (∀ reason, startRejection? there.context (moment.readings there.device) mode = some reason →
        moment.dispatch m there (.request (.start mode)) = moment.record (.rejected m reason)) ∧
      (startRejection? there.context (moment.readings there.device) mode = none →
        moment.Started m mode (moment.dispatch m there (.request (.start mode))))) ∧
    ∀ first middle rest last, w.play? first = some middle → middle.play? rest = some last →
      HasRoom m (w.calls first) →
      ∃ later, (w.setInbox m { target.inbox with
          queue := (w.withoutRejected m target.inbox.queue first).1 }).play?
            ((w.withoutRejected m target.inbox.queue first).2 ++ rest) = some later ∧
        later = { last with journal := later.journal } ∧
        later.journal.filter (·.isHeard m) = last.journal.filter (·.isHeard m) ∧
        later.transfers = last.transfers ∧
        ∀ other, later.deliveries other = last.deliveries other ∧ later.contextOf other = last.contextOf other := by
  refine ⟨?_, ?_, ?_⟩
  · intro context readings mode
    exact ⟨StartCheck.startRejection?_eq_none, fun reason => StartCheck.startRejection?_eq_some⟩
  · intro moment there mode here
    exact ⟨fun reason => moment.dispatch_rejected m, moment.dispatch_started here⟩
  · intro first middle rest last played through room
    have thins := w.thins_withoutRejected m target.inbox.queue first
    have start := Trims.refl found thins fun _ => List.prefix_rfl
    rw [adjustModule_trimmed reached.changes found thins] at start
    obtain ⟨turned, left, alsoPlayed, alike⟩ := start.play reached played fun _ => room
    obtain ⟨later, kept, alsoThrough, alike⟩ := alike.goesOn (reached.leadsTo ⟨first, played⟩) through
    have same := alike.same_journal
    refine ⟨later, (play?_append _ rest).2 ⟨turned, alsoPlayed, alsoThrough⟩, same, alike.heard, by rw [same], ?_⟩
    intro other
    exact ⟨deliveries_of_heard alike.heard other, by rw [same]; rfl⟩

def startWaiting : List Move :=
  [.build ⟨"a", "r", "d", some {}, []⟩, .enrol "a", .spawn ⟨"a", 0⟩, .act (.setDevice "d" { state := some .idle } none),
    .act (.enable "a" (some "s")), .act (.start "a" 0), .act (.notify "a" (.ended 3))]

def attendTwice : List Move := [.attend ⟨"a", 0⟩, .attend ⟨"a", 0⟩]

theorem start_left_out_of_three : ∃ (w middle last later : World) (target : Module), w.Reachable ∧
    w.modules.get? ⟨"a", 0⟩ = some target ∧ w.play? attendTwice = some middle ∧
    middle.play? [.attend ⟨"a", 0⟩] = some last ∧
    (w.withoutRejected ⟨"a", 0⟩ target.inbox.queue attendTwice).1 =
      [.request (.enable ⟨"s", 0⟩), .notification (.ended 3)] ∧
    (w.setInbox ⟨"a", 0⟩ { target.inbox with
        queue := (w.withoutRejected ⟨"a", 0⟩ target.inbox.queue attendTwice).1 }).play?
          ((w.withoutRejected ⟨"a", 0⟩ target.inbox.queue attendTwice).2 ++ [.attend ⟨"a", 0⟩]) = some later ∧
    later.deliveries ⟨"a", 0⟩ = last.deliveries ⟨"a", 0⟩ ∧
    last.deliveries ⟨"a", 0⟩ = [(⟨"s", 0⟩, .enableResult .ok), (⟨"s", 0⟩, .chargingResult 3)] := by
  obtain ⟨w, played⟩ := Option.isSome_iff_exists.1 (by decide : (({} : World).play? startWaiting).isSome = true)
  have kept : (({} : World).play? startWaiting).map (fun w => (w.modules.get? ⟨"a", 0⟩).map fun target =>
      (w.withoutRejected ⟨"a", 0⟩ target.inbox.queue attendTwice).1) =
    some (some [.request (.enable ⟨"s", 0⟩), .notification (.ended 3)]) := by decide
  have goesOn : (({} : World).play? startWaiting).map (fun w => (w.play? attendTwice).bind fun middle =>
      (middle.play? [.attend ⟨"a", 0⟩]).map (·.deliveries ⟨"a", 0⟩)) =
    some (some [(⟨"s", 0⟩, .enableResult .ok), (⟨"s", 0⟩, .chargingResult 3)]) := by decide
  have uncalled : (({} : World).play? startWaiting).map (fun w => (w.calls attendTwice).isEmpty) = some true := by
    decide
  rw [played] at kept goesOn uncalled
  obtain ⟨target, found, left⟩ := Option.map_eq_some_iff.1 (Option.some.inj kept)
  obtain ⟨middle, attended, next⟩ := Option.bind_eq_some_iff.1 (Option.some.inj goesOn)
  obtain ⟨last, through, told⟩ := Option.map_eq_some_iff.1 next
  have nobody : w.calls attendTwice = [] := List.isEmpty_iff.1 (Option.some.inj uncalled)
  have reached : w.Reachable := ⟨startWaiting, played⟩
  obtain ⟨-, -, erases⟩ := start_gate_and_erasure reached found
  obtain ⟨later, goes, -, -, -, same⟩ :=
    erases attendTwice middle _ last attended through (by rw [nobody]; exact List.forall_mem_nil _)
  exact ⟨w, middle, last, later, target, reached, found, attended, through, left, goes, (same ⟨"a", 0⟩).1, told⟩

/-- An inbox for two envelopes holds an enable and a start. The subscriber answers the enable with two notifications,
and the device does not poll, so the start is turned away. -/
def startInTheWay : List Move :=
  [.build ⟨"a", "r", "d", some { inboxCapacity := 2 }, []⟩, .enrol "a", .spawn ⟨"a", 0⟩,
    .act (.setDevice "d" { state := some .idle } none),
    .act (.subscribe "s" .recorder [(.enableResult, [.notify "a" (.ended 1), .notify "a" (.ended 2)])]),
    .act (.enable "a" (some "s")), .act (.start "a" 0)]

def attendThrice : List Move := [.attend ⟨"a", 0⟩, .attend ⟨"a", 0⟩, .attend ⟨"a", 0⟩]

/-- While the start waits there is room for one of the two notifications only. Without it both are accepted, and in the
end the subscriber has heard more. -/
theorem start_left_out_makes_room : ∃ (w last later : World) (target : Module), w.Reachable ∧
    w.modules.get? ⟨"a", 0⟩ = some target ∧
    target.inbox.queue = [.request (.enable ⟨"s", 0⟩), .request (.start .nonAutonomous)] ∧
    (w.withoutRejected ⟨"a", 0⟩ target.inbox.queue attendThrice).1 = [.request (.enable ⟨"s", 0⟩)] ∧
    w.play? attendThrice = some last ∧ (last.attend? ⟨"a", 0⟩).isNone = true ∧
    (w.setInbox ⟨"a", 0⟩ { target.inbox with queue := [.request (.enable ⟨"s", 0⟩)] }).play? attendThrice =
      some later ∧ (later.attend? ⟨"a", 0⟩).isNone = true ∧
    last.deliveries ⟨"a", 0⟩ = [(⟨"s", 0⟩, .enableResult .ok), (⟨"s", 0⟩, .chargingResult 1)] ∧
    later.deliveries ⟨"a", 0⟩ =
      [(⟨"s", 0⟩, .enableResult .ok), (⟨"s", 0⟩, .chargingResult 1), (⟨"s", 0⟩, .chargingResult 2)] := by
  obtain ⟨w, played⟩ := Option.isSome_iff_exists.1 (by decide : (({} : World).play? startInTheWay).isSome = true)
  have waiting : (({} : World).play? startInTheWay).map (fun w => (w.modules.get? ⟨"a", 0⟩).map fun target =>
      (target.inbox.queue, (w.withoutRejected ⟨"a", 0⟩ target.inbox.queue attendThrice).1)) =
    some (some ([.request (.enable ⟨"s", 0⟩), .request (.start .nonAutonomous)],
      [.request (.enable ⟨"s", 0⟩)])) := by decide
  have crowded : (({} : World).play? startInTheWay).map (fun w => (w.play? attendThrice).map fun last =>
      ((last.attend? ⟨"a", 0⟩).isNone, last.deliveries ⟨"a", 0⟩)) =
    some (some (true, [(⟨"s", 0⟩, .enableResult .ok), (⟨"s", 0⟩, .chargingResult 1)])) := by decide
  have roomy : (({} : World).play? startInTheWay).map (fun w => (w.modules.get? ⟨"a", 0⟩).bind fun target =>
      ((w.setInbox ⟨"a", 0⟩ { target.inbox with queue := [.request (.enable ⟨"s", 0⟩)] }).play? attendThrice).map
        fun later => ((later.attend? ⟨"a", 0⟩).isNone, later.deliveries ⟨"a", 0⟩)) =
    some (some (true,
      [(⟨"s", 0⟩, .enableResult .ok), (⟨"s", 0⟩, .chargingResult 1), (⟨"s", 0⟩, .chargingResult 2)])) := by decide
  rw [played] at waiting crowded roomy
  obtain ⟨target, found, first⟩ := Option.map_eq_some_iff.1 (Option.some.inj waiting)
  obtain ⟨last, through, short⟩ := Option.map_eq_some_iff.1 (Option.some.inj crowded)
  obtain ⟨there, same, rest⟩ := Option.bind_eq_some_iff.1 (Option.some.inj roomy)
  obtain rfl := Option.some.inj (found.symm.trans same)
  obtain ⟨later, goes, long⟩ := Option.map_eq_some_iff.1 rest
  obtain ⟨queue, kept⟩ := Prod.mk.inj first
  obtain ⟨drained, told⟩ := Prod.mk.inj short
  obtain ⟨past, heard⟩ := Prod.mk.inj long
  exact ⟨w, last, later, target, ⟨startInTheWay, played⟩, found, queue, kept, through, drained, goes, past, told, heard⟩

end World

end WirelessCharging
