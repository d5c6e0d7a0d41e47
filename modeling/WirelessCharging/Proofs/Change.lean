import WirelessCharging.Proofs.Deed
import WirelessCharging.Proofs.Move
/-!
Every move comes down to changes of a few kinds, each of one registry, one module or the line of dispatchers,
under a condition that can be read off the world before. What each change keeps therefore holds in every world
that can be reached.
-/
namespace WirelessCharging

/-- A module as it is built. -/
structure Module.IsFresh (target : Module) : Prop where
  context : target.context = {}
  phase : target.phase = .idle
  cancelled : target.cancelled = false
  receiving : target.inbox.isReceiving = true
  queue : target.inbox.queue = []

/-- Ends of the last hook, or the state after it. -/
def Phase.isEnding : Phase → Bool
  | .closing _ => true
  | .finished => true
  | _ => false

/-- What a move may come down to. Only some moves change registries, start dispatchers or tell them to stop. -/
inductive Change (move : Move) : World → World → Prop where
  | deed {w later : World} (h : Deed w later) : Change move w later
  | hook (w : World) (m : ModuleRef) (kind : HookKind) (tag : Tag) (context : Context) (subscribed : Bool) :
      Change move w (w.record (.hookCalled m kind tag context subscribed))
  | hookOver (w : World) (m : ModuleRef) (kind : HookKind) (tag : Tag) :
      Change move w (w.record (.hookDone m kind tag))
  | take {w : World} {m : ModuleRef} {target : Module} {envelope : Envelope} {inbox : Inbox}
      (found : w.modules.get? m = some target) (running : target.phase = .running)
      (kept : target.cancelled = false) (took : target.inbox.take? = some (envelope, inbox))
      (named : move = .attend m) : Change move w ((w.setInbox m inbox).record (.taken m envelope))
  | handle {w : World} {m : ModuleRef} {target : Module} (envelope : Envelope)
      (found : w.modules.get? m = some target) (named : move = .attend m) :
      Change move w ((w.setContext m (w.outcome m target envelope).1).record (w.outcome m target envelope).2)
  | close {w : World} {m : ModuleRef} {target : Module} (found : w.modules.get? m = some target)
      (running : target.phase = .running) (cancelled : target.cancelled = true) (wake : Nat)
      (later : w.now ≤ wake) : Change move w ((w.adjustModule m (·.closingUntil wake)).record (.closed m))
  | finish {w : World} {m : ModuleRef} {target : Module} (found : w.modules.get? m = some target)
      (ending : target.phase.isEnding = true) : Change move w (w.finish m)
  | drop {w : World} {m : ModuleRef} {target : Module} (found : w.modules.get? m = some target)
      (idle : target.phase = .idle) : Change move w (w.discard m)
  | build {w : World} (name : String) {target : Module} (fresh : target.IsFresh) (runtime : String)
      (known : w.runtimes.get? runtime = some target.registry) : Change move w (w.addModule name target)
  | enrol {w : World} {m : ModuleRef} {target : Module} (found : w.modules.get? m = some target)
      (idle : target.phase = .idle) (name : String) (named : move = .enrol name)
      (vacant : w.registration? target.registry .wlc = none) :
      Change move w ((w.register target.registry m).setPhase m .launching)
  | spawn {w : World} {m : ModuleRef} {target : Module} (found : w.modules.get? m = some target)
      (launching : target.phase = .launching) (named : move = .spawn m) :
      Change move w (((w.setPhase m .running).handOn m).wake m)
  | cancel (w : World) (m : ModuleRef) (named : move = .cancel m) : Change move w (w.cancel m)
  | deregister {w : World} {m : ModuleRef} {target : Module} (found : w.modules.get? m = some target)
      (cancelled : target.cancelled = true) (past : target.phase.isLive = false)
      (named : move = .deregister m) :
      Change move w (w.deregister target.registry)
  | newRuntime (w : World) (name : String) : Change move w (w.newRuntime name)
  /-- Runtimes are named anew; all of their registries had a name before. -/
  | rename (w : World) (runtimes : Roster String RegistryRef)
      (known : ∀ name registry, runtimes.get? name = some registry →
        ∃ other, w.runtimes.get? other = some registry) : Change move w { w with runtimes }
  /-- The clock does not go past the end of a last hook. -/
  | clock {w : World} {time : Nat} (forward : w.now ≤ time)
      (none_due : ∀ m target wake, w.modules.get? m = some target → target.phase = .closing wake →
        time ≤ wake) : Change move w { w with now := time }
  | yield {w : World} {m : ModuleRef} {rest : List ModuleRef} (line : w.ready = m :: rest)
      (nothing : w.attend? m = none) : Change move w w.yield
  | setFirstAside (w : World) : Change move w w.setFirstAside
  | rejoin (w : World) : Change move w w.rejoin
  | clone {w : World} {m : ModuleRef} (held : w.holders m ≠ []) : Change move w (w.grant m .caller)
  | letGo {w : World} {sender : Sender} (held : sender ∈ w.senders) (free : w.mayDrop sender.holder = true) :
      Change move w (w.withdraw sender.target sender.holder)

abbrev ChangesIn (move : Move) : World → World → Prop := Relation.ReflTransGen (Change move)

abbrev Changes : World → World → Prop := Relation.ReflTransGen fun w later => ∃ move, Change move w later

theorem World.setFirstAside_eq (w : World) :
    ∃ ready setAside, w.setFirstAside = { w with ready, setAside } := by
  unfold setFirstAside
  split
  · exact ⟨w.ready, w.setAside, rfl⟩
  · exact ⟨_, _, rfl⟩

variable {move : Move}

theorem ChangesIn.changes {w later : World} (h : ChangesIn move w later) : Changes w later :=
  Relation.ReflTransGen.mono (fun _ _ change => ⟨move, change⟩) _ _ h

theorem Deeds.changes {w later : World} (h : Deeds w later) : ChangesIn move w later :=
  Relation.ReflTransGen.mono (fun _ _ => Change.deed) _ _ h

namespace World

theorem callHook_changes (w : World) (m : ModuleRef) (target : Module) (kind : HookKind) :
    ChangesIn move w (w.callHook m target kind) := by
  rcases w.callHook_deeds m target kind with same | ⟨tag, subscribed, called⟩
  · rw [same]
  · exact called.changes.head (.hook w m kind tag _ _)

theorem callHook_found (w : World) (m : ModuleRef) (target : Module) (kind : HookKind) {other : ModuleRef}
    {there : Module} (found : w.modules.get? other = some there) :
    ∃ more, (w.callHook m target kind).modules.get? other = some (there.posted more) := by
  rcases w.callHook_deeds m target kind with same | ⟨tag, subscribed, called⟩
  · exact ⟨[], by rw [same, there.posted_nil, found]⟩
  · obtain ⟨more, here, -⟩ := called.posted found
    exact ⟨more, here⟩

theorem closeDown_changes (w : World) (m : ModuleRef) {target : Module}
    (found : w.modules.get? m = some target) (running : target.phase = .running)
    (cancelled : target.cancelled = true) : ChangesIn move w (w.closeDown m target) := by
  let wake := w.now + target.delay .afterStop
  let closed := (w.adjustModule m (·.closingUntil wake)).record (.closed m)
  have closing : closed.modules.get? m = some (target.closingUntil wake) := by
    simp [closed, record, adjustModule, found]
  have called : ChangesIn move w (closed.callHook m target .afterStop) :=
    (closed.callHook_changes m target .afterStop).head
      (.close found running cancelled wake (Nat.le_add_right _ _))
  unfold closeDown
  dsimp only
  split
  · obtain ⟨more, there⟩ := closed.callHook_found m target .afterStop closing
    exact called.tail (.finish there rfl)
  · exact called

theorem told_changes {w : World} {m : ModuleRef} {target : Module} (found : w.modules.get? m = some target)
    (running : target.phase = .running) (kept : target.cancelled = false) {envelope : Envelope} {inbox : Inbox}
    (took : target.inbox.take? = some (envelope, inbox)) :
    ChangesIn (.attend m) w ((w.took m envelope inbox).told m (target.withInbox inbox) envelope) := by
  have taken : ChangesIn (.attend m) w (w.took m envelope inbox) := .single (.take found running kept took rfl)
  exact taken.tail (.handle envelope (w.took_found envelope inbox found) rfl)

theorem attend_changes {w after : World} {m : ModuleRef} (h : w.attend? m = some after) :
    ChangesIn (.attend m) w after := by
  obtain ⟨target, found, running, past | ⟨kept, envelope, inbox, took, deeds⟩⟩ := attend?_cases h
  · exact past.2 ▸ w.closeDown_changes m found running past.1
  · exact (told_changes found running kept took).trans deeds.changes

theorem idle?_found {w : World} {name : String} {m : ModuleRef} {target : Module}
    (h : w.idle? name = some (m, target)) : w.modules.get? m = some target ∧ target.phase = .idle := by
  unfold idle? at h
  split at h
  · simp at h
  · split at h
    · simp at h
    · rename_i found
      split at h
      · rename_i idle
        simp only [Option.some.injEq, Prod.mk.injEq] at h
        obtain ⟨rfl, rfl⟩ := h
        exact ⟨found, idle⟩
      · simp at h

theorem dropIdle_changes (w : World) (name : String) : ChangesIn move w (w.dropIdle name) := by
  unfold dropIdle
  split
  · exact .refl
  · rename_i m target idle
    obtain ⟨found, waiting⟩ := idle?_found idle
    exact .single (.drop found waiting)

theorem ensureRuntime_changes (w : World) (name : String) : ChangesIn move w (w.ensureRuntime name) := by
  unfold ensureRuntime
  split
  · exact .refl
  · exact .single (.newRuntime w name)

theorem install_isFresh {target : Module} (fresh : target.IsFresh) (hooks : List (HookKind × Hook)) :
    (hooks.foldl (fun target hook => target.install hook.1 hook.2) target).IsFresh := by
  induction hooks generalizing target with
  | nil => exact fresh
  | cons hook rest ih =>
    obtain ⟨kind, hook⟩ := hook
    refine ih ?_
    cases kind <;> exact ⟨fresh.context, fresh.phase, fresh.cancelled, fresh.receiving, fresh.queue⟩

theorem install_hook? (target : Module) (kind other : HookKind) (hook : Hook) :
    (target.install kind hook).hook? other = if kind = other then some hook else target.hook? other := by
  cases kind <;> cases other <;> rfl

theorem install_registry (target : Module) (hooks : List (HookKind × Hook)) :
    (hooks.foldl (fun target hook => target.install hook.1 hook.2) target).registry = target.registry := by
  induction hooks generalizing target with
  | nil => rfl
  | cons hook rest ih =>
    obtain ⟨kind, hook⟩ := hook
    rw [List.foldl_cons, ih]
    cases kind <;> rfl

theorem dropIdle_runtimes (w : World) (name : String) : (w.dropIdle name).runtimes = w.runtimes := by
  unfold dropIdle
  split <;> rfl

theorem build_changes {w after : World} {name runtime device : String} {settings : Settings}
    {hooks : List (HookKind × Hook)} (h : w.build? name runtime device settings hooks = some after) :
    ChangesIn move w after := by
  unfold build? at h
  split at h
  · rename_i registry inbox known made
    simp only [Option.some.injEq] at h
    subst h
    obtain rfl := Inbox.eq_of_ofCapacity? made
    refine (w.dropIdle_changes name).tail
      (.build name (install_isFresh ⟨rfl, rfl, rfl, rfl, rfl⟩ hooks) runtime ?_)
    rw [install_registry, dropIdle_runtimes]
    exact known
  · simp at h

theorem follow_changes {w after : World} {plan : Plan} {answer : Answer}
    (h : w.follow? plan = some (after, answer)) : ChangesIn move w after := by
  have prepared : ChangesIn move w ((w.ensureRuntime plan.runtime).ensureDevice plan.device) :=
    (w.ensureRuntime_changes plan.runtime).trans
      ((w.ensureRuntime plan.runtime).ensureDevice_deeds plan.device).changes
  unfold follow? at h
  dsimp only at h
  split at h
  · simp only [Option.some.injEq, Prod.mk.injEq] at h
    exact h.1 ▸ prepared
  · obtain ⟨built, builds, eq⟩ := Option.map_eq_some_iff.1 h
    simp only [Prod.mk.injEq] at eq
    exact eq.1 ▸ prepared.trans (build_changes builds)

theorem enrol_changes {w after : World} {name : String} (h : w.enrol? name = some after) :
    ChangesIn (.enrol name) w after := by
  unfold enrol? at h
  split at h
  · simp at h
  · rename_i m target idle
    obtain ⟨found, waiting⟩ := idle?_found idle
    split at h
    · simp only [Option.some.injEq] at h
      exact h ▸ .single (.drop found waiting)
    · rename_i vacant
      simp only [Option.some.injEq] at h
      exact h ▸ (callHook_changes _ _ _ _).head (.enrol found waiting name rfl vacant)

theorem hookOver_changes (w : World) (m : ModuleRef) (target : Module) (kind : HookKind) :
    ChangesIn move w (w.hookOver m target kind) := by
  unfold hookOver
  split
  · exact .refl
  · exact .single (.hookOver w m kind _)

theorem hookOver_modules (w : World) (m : ModuleRef) (target : Module) (kind : HookKind) :
    (w.hookOver m target kind).modules = w.modules := by
  unfold hookOver
  split <;> rfl

theorem spawn_modules (w : World) (m : ModuleRef) (target : Module) : (w.spawn m target).modules =
    w.modules.adjust m fun target => { target with phase := .running } := by
  rw [← w.hookOver_modules m target .beforeStart]
  exact wake_modules _ m

theorem spawn_changes {w after : World} {m : ModuleRef} (h : w.spawn? m = some after) :
    ChangesIn (.spawn m) w after := by
  unfold spawn? at h
  split at h
  · simp at h
  · rename_i target found
    split at h
    · rename_i launching
      simp only [Option.some.injEq] at h
      have there : (w.hookOver m target .beforeStart).modules.get? m = some target := by
        rw [hookOver_modules, found]
      exact h ▸ (w.hookOver_changes m target .beforeStart).tail (.spawn there launching rfl)
    · simp at h

theorem deregister?_change {w after : World} {m : ModuleRef} (h : w.deregister? m = some after) :
    Change (.deregister m) w after := by
  unfold deregister? at h
  split at h
  · simp at h
  · rename_i target found
    split at h
    · rename_i past
      simp only [Bool.and_eq_true, Bool.not_eq_true'] at past
      exact Option.some.inj h ▸ .deregister found past.1 past.2 rfl
    · simp at h

theorem yield_changes {w after : World} (h : w.yield? = some after) : ChangesIn move w after := by
  unfold yield? at h
  split at h
  · simp at h
  · rename_i m rest line
    split at h
    · rename_i nothing
      exact Option.some.inj h ▸ .single (.yield line (Option.isNone_iff_eq_none.1 nothing))
    · simp at h

theorem finish_found (w : World) (m : ModuleRef) {other : ModuleRef} {target : Module}
    (found : w.modules.get? other = some target) :
    ∃ after, (w.finish m).modules.get? other = some after ∧
      (after = target ∨ after = target.ended .finished) := by
  by_cases same : other = m
  · subst same
    exact ⟨target.ended .finished, by simp [finish_modules, found], Or.inr rfl⟩
  · exact ⟨target, by simp [finish_modules, Roster.get?_adjust_of_ne _ _ same, found], Or.inl rfl⟩

theorem restOver_eq (w : World) {m : ModuleRef} {target : Module} (found : w.modules.get? m = some target) :
    w.restOver m = (w.hookOver m target .afterStop).finish m := by
  simp only [restOver, found]

theorem restOver_changes (w : World) (m : ModuleRef) {target : Module}
    (found : w.modules.get? m = some target) (ending : target.phase.isEnding = true) :
    ChangesIn move w (w.restOver m) := by
  rw [w.restOver_eq found]
  refine (w.hookOver_changes m target .afterStop).tail (.finish ?_ ending)
  rw [hookOver_modules, found]

theorem restOver_found (w : World) (m : ModuleRef) {other : ModuleRef} {target : Module}
    (found : w.modules.get? other = some target) :
    ∃ after, (w.restOver m).modules.get? other = some after ∧
      (after = target ∨ after = target.ended .finished) := by
  cases there : w.modules.get? m with
  | none => exact ⟨target, by simp only [restOver, there, found], Or.inl rfl⟩
  | some resting =>
    rw [w.restOver_eq there]
    exact finish_found _ m (by rw [hookOver_modules, found])

theorem mem_due {w : World} {limit wake : Nat} {m : ModuleRef} :
    (wake, m) ∈ w.due limit ↔
      ∃ target, (m, target) ∈ w.modules ∧ target.phase = .closing wake ∧ wake ≤ limit := by
  unfold due
  rw [(List.mergeSort_perm _ _).mem_iff, List.mem_filterMap]
  constructor
  · rintro ⟨⟨other, target⟩, member, chosen⟩
    dsimp only at chosen
    split at chosen
    · rename_i past closing
      split at chosen
      · rename_i early
        simp only [Option.some.injEq, Prod.mk.injEq] at chosen
        obtain ⟨rfl, rfl⟩ := chosen
        exact ⟨target, member, closing, early⟩
      · simp at chosen
    · simp at chosen
  · rintro ⟨target, member, closing, early⟩
    refine ⟨(m, target), member, ?_⟩
    simp only [closing, early, if_true]

theorem restOver_all_changes (w : World) (entries : List (Nat × ModuleRef))
    (ending : ∀ entry ∈ entries, ∃ target, w.modules.get? entry.2 = some target ∧
      target.phase.isEnding = true) :
    ChangesIn move w (entries.foldl (fun w entry => w.restOver entry.2) w) := by
  induction entries generalizing w with
  | nil => exact .refl
  | cons entry rest ih =>
    obtain ⟨target, found, past⟩ := ending entry List.mem_cons_self
    refine (w.restOver_changes entry.2 found past).trans (ih _ ?_)
    intro other member
    obtain ⟨there, foundThere, overThere⟩ := ending other (List.mem_cons_of_mem _ member)
    obtain ⟨after, foundAfter, rfl | rfl⟩ := w.restOver_found entry.2 foundThere
    · exact ⟨after, foundAfter, overThere⟩
    · exact ⟨_, foundAfter, rfl⟩

theorem restOver_now (w : World) (m : ModuleRef) : (w.restOver m).now = w.now := by
  unfold restOver hookOver
  split
  · rfl
  · split <;> rfl

theorem closing_of_restOver {w : World} {m other : ModuleRef} {target : Module} {wake : Nat}
    (found : (w.restOver m).modules.get? other = some target) (closing : target.phase = .closing wake) :
    other ≠ m ∧ w.modules.get? other = some target := by
  cases there : w.modules.get? m with
  | none =>
    simp only [restOver, there] at found
    refine ⟨?_, found⟩
    rintro rfl
    rw [there] at found
    cases found
  | some resting =>
    rw [w.restOver_eq there] at found
    simp only [finish_modules, hookOver_modules] at found
    rcases found_adjust found with ⟨-, before, -, rfl⟩ | unchanged
    · cases closing
    · exact unchanged

theorem closing_of_restOver_all {w : World} {entries : List (Nat × ModuleRef)} {m : ModuleRef}
    {target : Module} {wake : Nat}
    (found : (entries.foldl (fun w entry => w.restOver entry.2) w).modules.get? m = some target)
    (closing : target.phase = .closing wake) :
    (∀ entry ∈ entries, m ≠ entry.2) ∧ w.modules.get? m = some target := by
  induction entries generalizing w with
  | nil => exact ⟨by simp, found⟩
  | cons entry rest ih =>
    obtain ⟨others, before⟩ := ih found
    obtain ⟨other, unchanged⟩ := closing_of_restOver before closing
    exact ⟨List.forall_mem_cons.2 ⟨other, others⟩, unchanged⟩

theorem restOver_all_now (w : World) (entries : List (Nat × ModuleRef)) :
    (entries.foldl (fun w entry => w.restOver entry.2) w).now = w.now := by
  refine List.foldlRecOn (motive := fun after : World => after.now = w.now) entries _ rfl ?_
  intro after same entry _
  rw [restOver_now, same]

theorem advance_changes {w : World} (numbered : w.modules.Numbered) {limit : Nat} (forward : w.now ≤ limit) :
    ChangesIn move w (w.advance limit) := by
  refine (w.restOver_all_changes (w.due limit) ?_).tail (.clock ?_ ?_)
  · rintro ⟨wake, m⟩ member
    obtain ⟨target, there, closing, -⟩ := mem_due.1 member
    exact ⟨target, Roster.get?_of_mem numbered.1 there, by rw [closing]; rfl⟩
  · rw [restOver_all_now]
    exact forward
  -- a last hook still at work is not one of those that were due, so it ends later
  · intro m target wake found closing
    obtain ⟨others, before⟩ := closing_of_restOver_all found closing
    refine Nat.le_of_not_lt fun early => others (wake, m) ?_ rfl
    exact mem_due.2 ⟨target, Roster.mem_of_get? before, closing, Nat.le_of_lt early⟩

theorem cloneRuntime_changes (w : World) (name source : String) :
    ChangesIn move w (w.cloneRuntime name source) := by
  unfold cloneRuntime
  dsimp only
  split
  · exact w.ensureRuntime_changes source
  · rename_i registry known
    refine (w.ensureRuntime_changes source).tail (.rename _ _ ?_)
    intro other given found
    rw [Roster.get?_replace] at found
    split at found
    · obtain rfl := Option.some.inj found
      exact ⟨source, known⟩
    · exact ⟨other, found⟩

theorem dropRuntime_changes (w : World) (name : String) : ChangesIn move w (w.dropRuntime name) := by
  refine .single (.rename _ _ ?_)
  intro other given found
  by_cases same : other = name
  · subst same
    simp [Roster.get?_remove_self] at found
  · rw [Roster.get?_remove_of_ne _ same] at found
    exact ⟨other, found⟩

theorem clone_change {w after : World} {m : ModuleRef} (h : w.clone? m = some after) : Change move w after := by
  obtain ⟨held, rfl⟩ := clone?_eq_some.1 h
  exact .clone held

theorem drop_change {w after : World} {sender : Sender} (h : w.drop? sender = some after) : Change move w after := by
  obtain ⟨⟨held, free⟩, rfl⟩ := drop?_eq_some.1 h
  exact .letGo held free

theorem move_changes {w after : World} (numbered : w.modules.Numbered) {move : Move}
    (h : w.move? move = some after) : ChangesIn move w after := by
  cases move with
  | act action => exact Option.some.inj h ▸ (w.perform_deeds action).changes
  | build plan =>
    obtain ⟨⟨built, answer⟩, followed, rfl⟩ := Option.map_eq_some_iff.1 h
    exact follow_changes followed
  | enrol name => exact enrol_changes h
  | spawn m => exact spawn_changes h
  | attend m => exact attend_changes h
  | pass time =>
    simp only [move?] at h
    split at h
    · rename_i forward
      exact Option.some.inj h ▸ advance_changes numbered forward
    · simp at h
  | cancel m => exact Option.some.inj h ▸ .single (.cancel w m rfl)
  | deregister m => exact .single (deregister?_change h)
  | yield => exact yield_changes h
  | setFirstAside => exact Option.some.inj h ▸ .single (.setFirstAside w)
  | rejoin => exact Option.some.inj h ▸ .single (.rejoin w)
  | newRuntime name => exact Option.some.inj h ▸ .single (.newRuntime w name)
  | cloneRuntime name source => exact Option.some.inj h ▸ w.cloneRuntime_changes name source
  | dropRuntime name => exact Option.some.inj h ▸ w.dropRuntime_changes name
  | dropIdle name => exact Option.some.inj h ▸ w.dropIdle_changes name
  | clone m => exact .single (clone_change h)
  | drop sender => exact .single (drop_change h)

end World

theorem Deed.numbered {w later : World} (h : Deed w later) (numbered : w.modules.Numbered) :
    later.modules.Numbered := by
  cases h with
  | accept => rw [World.wake_modules]; exact Roster.numbered_adjust numbered _ _
  | aside => exact numbered
  | note => exact numbered
  | lend => exact numbered

theorem Change.numbered {w later : World} (h : Change move w later) (numbered : w.modules.Numbered) :
    later.modules.Numbered := by
  cases h with
  | deed h => exact h.numbered numbered
  | hook => exact numbered
  | hookOver => exact numbered
  | take => exact Roster.numbered_adjust numbered _ _
  | handle => exact Roster.numbered_adjust numbered _ _
  | close => exact Roster.numbered_adjust numbered _ _
  | finish => exact Roster.numbered_adjust numbered _ _
  | drop => exact Roster.numbered_adjust numbered _ _
  | build name => exact Roster.numbered_add numbered name _
  | enrol => exact Roster.numbered_adjust numbered _ _
  | spawn => rw [World.wake_modules]; exact Roster.numbered_adjust numbered _ _
  | cancel => rw [World.cancel, World.wake_modules]; exact Roster.numbered_adjust numbered _ _
  | deregister => exact numbered
  | newRuntime => exact numbered
  | rename => exact numbered
  | clock => exact numbered
  | yield => exact numbered
  | setFirstAside =>
    obtain ⟨ready, aside, same⟩ := w.setFirstAside_eq
    rw [same]
    exact numbered
  | rejoin => exact numbered
  | clone => exact numbered
  | letGo => exact numbered

end WirelessCharging
