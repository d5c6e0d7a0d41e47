import WirelessCharging.Proofs.Priority
/-!
Who can be launched. A registry is empty or lists one module, which was launched into it, so what a runtime and its
clones show of the registry tells whether a launch goes through. A launch that is refused ends its own module, with
everything that waited there, and leaves no other trace.
-/
namespace WirelessCharging

/-- The module has been launched. -/
def Phase.isEntered : Phase → Bool
  | .idle => false
  | .launching => true
  | .running => true
  | .closing _ => true
  | .finished => true
  | .dropped => false

/-- What a registry can hold: nothing, or one module that was launched into it. -/
inductive World.Lists (w : World) (registry : RegistryRef) : Registry → Prop where
  | nobody : w.Lists registry []
  | one {m : ModuleRef} {target : Module} (found : w.modules.get? m = some target)
      (own : target.registry = registry) (entered : target.phase.isEntered = true) : w.Lists registry [(.wlc, m)]

def World.Singly (w : World) : Prop :=
  ∀ registry entries, w.registries.get? registry = some entries → w.Lists registry entries

/-- The move gives a name to another registry, or takes it away. -/
def Move.rebinds (name : String) : Move → Bool
  | .newRuntime other => other == name
  | .cloneRuntime other _ => other == name
  | .dropRuntime other => other == name
  | _ => false

namespace World

/-- What a registry tells of an identifier: whether it is registered, and how many registrations there are. -/
def tally (w : World) (registry : RegistryRef) (id : ModuleId) : Bool × Nat :=
  ((w.registration? registry id).isSome, ((w.registries.get? registry).getD []).length)

def shows? (w : World) (runtime : String) (id : ModuleId) : Option (Bool × Nat) :=
  (w.runtimes.get? runtime).map (w.tally · id)

/-- What a refused launch leaves. The module is over, nothing waits for it, and nothing ever comes of it; a subscriber
that it kept is kept by others alone, and the sender that it had is gone. Whatever belongs to no module is as it was,
and so are the other modules. -/
structure LaunchRefused (w after : World) (m : ModuleRef) (target : Module) : Prop where
  elsewhere : after = { w with modules := after.modules, senders := w.senders.erase ⟨m, .own⟩ }
  others : ∀ other, other ≠ m → after.modules.get? other = w.modules.get? other
  dropped : after.modules.get? m = some (target.ended .dropped)
  emptied : (target.ended .dropped).inbox.queue = []
  released : ∀ s, after.isAlive s = true ↔ (w.subscribers.get? s).any (·.held) = true ∨
    ∃ n other, n ≠ m ∧ w.modules.get? n = some other ∧ other.inbox.holds s = true
  refuses : after.RefusesForGood m
  silent : ∀ more last, after.play? more = some last →
    last.hookCalls m = [] ∧ last.taken m = [] ∧ last.deliveries m = []

/-- How the launch of an idle module comes out, as it is told by the registry and by every runtime of it. -/
structure LaunchDecided (w : World) (name : String) (m : ModuleRef) (target : Module) : Prop where
  ok_iff : (w.launch name).2 = .ok ↔ w.registration? target.registry .wlc = none
  refused_iff : (w.launch name).2 = .refused (.alreadyRegistered .wlc) ↔
    (w.registration? target.registry .wlc).isSome = true
  seen : ∀ runtime, w.runtimes.get? runtime = some target.registry →
    ((w.launch name).2 = .ok ↔ w.shows? runtime .wlc = some (false, 0)) ∧
      ((w.launch name).2 = .refused (.alreadyRegistered .wlc) ↔ w.shows? runtime .wlc = some (true, 1))
  /-- Once the first half has registered the module, nothing keeps the launch from its second half. -/
  succeeds : w.registration? target.registry .wlc = none → ∃ enrolled, w.move? (.enrol name) = some enrolled ∧
    enrolled.registration? target.registry .wlc = some m ∧
    (∀ more last, enrolled.play? more = some last → Move.spawn m ∉ more →
      (last.move? (.spawn m)).isSome = true) ∧
    (w.launch name).1.registration? target.registry .wlc = some m
  refuses : (w.registration? target.registry .wlc).isSome = true →
    w.move? (.enrol name) = some (w.launch name).1 ∧ w.LaunchRefused (w.launch name).1 m target

end World

variable {move : Move}

theorem Becomes.isEntered {w later : World} {m : ModuleRef} {before after : Module} {more gone : List Envelope}
    (h : Becomes move w later m (some before) (some after) more gone) (entered : before.phase.isEntered = true) :
    after.phase.isEntered = true := by
  cases h with
  | closed => rfl
  | finished => rfl
  | dropped idle =>
    rw [idle] at entered
    cases entered
  | enrolled => rfl
  | spawned => rfl
  | _ => exact entered

namespace World

theorem Lists.later {w later : World} {registry : RegistryRef} {entries : Registry}
    (lists : w.Lists registry entries) (h : Change move w later) : later.Lists registry entries := by
  cases lists with
  | nobody => exact .nobody
  | @one m target found own entered =>
    obtain ⟨after, there, lasts⟩ := h.lasts found
    obtain ⟨more, gone, becomes, -, -⟩ := h.affects m
    rw [found, there] at becomes
    exact .one there (lasts.registry.trans own) (becomes.isEntered entered)

theorem Lists.vacant {w : World} {registry : RegistryRef} {entries : Registry} (lists : w.Lists registry entries)
    (nobody : entries.get? .wlc = none) : entries = [] := by
  cases lists with
  | nobody => rfl
  | one => cases nobody

theorem Lists.remove {w : World} {registry : RegistryRef} {entries : Registry} (lists : w.Lists registry entries) :
    entries.remove .wlc = [] := by
  cases lists with
  | nobody => rfl
  | one => rfl

theorem Lists.get? {w : World} {registry : RegistryRef} {entries : Registry} (lists : w.Lists registry entries)
    (id : ModuleId) : (entries.get? id).isSome = (decide (id = .wlc) && (entries.get? .wlc).isSome) := by
  cases lists with
  | nobody => simp [Roster.get?]
  | one => by_cases same : id = .wlc <;> simp [Roster.get?, same, eq_comm]

theorem Lists.length {w : World} {registry : RegistryRef} {entries : Registry} (lists : w.Lists registry entries) :
    entries.length = if (entries.get? .wlc).isSome then 1 else 0 := by
  cases lists with
  | nobody => rfl
  | one => rfl

end World

theorem Change.singly {w later : World} (h : Change move w later) (start : w.Singly) : later.Singly := by
  have lasts : ∀ {registry entries}, w.registries.get? registry = some entries → later.Lists registry entries :=
    fun listed => (start _ _ listed).later h
  have quiet : later.registries = w.registries → later.Singly := by
    intro same registry entries listed
    rw [same] at listed
    exact lasts listed
  cases h with
  | deed h => exact quiet h.registries
  | @enrol m target found idle name named vacant =>
    intro registry entries listed
    have there : ((w.register target.registry m).setPhase m .launching).modules.get? m =
        some { target with phase := .launching } := by
      simp [World.register, World.setPhase, World.adjustModule, found]
    simp only [World.setPhase, World.adjustModule, World.register, World.grant, Roster.get?_adjust] at listed
    obtain ⟨before, listedBefore, rfl⟩ := Option.map_eq_some_iff.1 listed
    split
    · rename_i same
      subst same
      rw [World.registration?, listedBefore] at vacant
      rw [(start _ _ listedBefore).vacant vacant]
      exact .one there rfl rfl
    · exact lasts listedBefore
  | spawn => exact quiet (World.wake_registries _ _)
  | cancel => exact quiet (World.wake_registries _ _)
  | @deregister m target found cancelled past named =>
    intro registry entries listed
    simp only [World.deregister, Roster.get?_adjust] at listed
    obtain ⟨before, listedBefore, rfl⟩ := Option.map_eq_some_iff.1 listed
    split
    · rw [(start _ _ listedBefore).remove]
      exact .nobody
    · exact lasts listedBefore
  | newRuntime name =>
    intro registry entries listed
    simp only [World.newRuntime, Roster.get?_add] at listed
    rcases Option.or_eq_some_iff.1 listed with before | ⟨-, new⟩
    · exact lasts before
    · split at new
      · obtain rfl := Option.some.inj new
        exact .nobody
      · cases new
  | setFirstAside =>
    obtain ⟨ready, aside, same⟩ := w.setFirstAside_eq
    refine quiet ?_
    rw [same]
  | _ => exact quiet rfl

theorem World.Occurs.singly {w : World} (occurs : w.Occurs) : w.Singly :=
  Changes.keep Change.singly occurs fun _ _ listed => (nomatch listed)

theorem Deeds.runtimes {w later : World} (h : Deeds w later) : later.runtimes = w.runtimes := by
  induction h with
  | refl => rfl
  | tail _ deed ih =>
    refine Eq.trans ?_ ih
    cases deed with
    | accept found posted => exact World.wake_runtimes _ _
    | aside => rfl
    | note => rfl
    | lend => rfl

namespace World

variable {w after last : World} {m : ModuleRef} {target : Module} {name runtime : String} {registry : RegistryRef}

theorem Singly.tally (singly : w.Singly) (registry : RegistryRef) (id : ModuleId) : w.tally registry id =
    (decide (id = .wlc) && (w.registration? registry .wlc).isSome,
      if (w.registration? registry .wlc).isSome then 1 else 0) := by
  cases listed : w.registries.get? registry with
  | none => simp [World.tally, registration?, listed]
  | some entries =>
    have lists := singly registry entries listed
    have registered : ∀ id, w.registration? registry id = entries.get? id := by
      intro id
      rw [registration?, listed, Option.bind_some]
    rw [World.tally, registered, registered, listed, Option.getD_some, lists.get? id, lists.length]

theorem ensureRuntime_kept (w : World) (other : String) (bound : w.runtimes.get? name = some registry) :
    (w.ensureRuntime other).runtimes.get? name = some registry := by
  unfold ensureRuntime
  split
  · exact bound
  · rename_i unbound
    have different : other ≠ name := by
      rintro rfl
      rw [bound] at unbound
      cases unbound
    rw [newRuntime, Roster.get?_replace, if_neg different, bound]

theorem follow?_runtimes {plan : Plan} {answer : Answer} (h : w.follow? plan = some (after, answer)) :
    after.runtimes = (w.ensureRuntime plan.runtime).runtimes := by
  have ensured := ensureDevice_runtimes (w.ensureRuntime plan.runtime) plan.device
  cases given : plan.settings with
  | none =>
    simp only [follow?, given, Option.some.injEq, Prod.mk.injEq] at h
    rw [← h.1, ensured]
  | some settings =>
    rw [w.follow?_eq given] at h
    obtain ⟨built, builds, outcome⟩ := Option.map_eq_some_iff.1 h
    obtain ⟨rfl, -⟩ := Prod.mk.inj outcome
    unfold build? at builds
    split at builds
    · rw [← Option.some.inj builds]
      exact (dropIdle_runtimes _ _).trans ensured
    · cases builds

theorem callHook_runtimes (w : World) (m : ModuleRef) (target : Module) (kind : HookKind) :
    (w.callHook m target kind).runtimes = w.runtimes := by
  rcases w.callHook_deeds m target kind with same | ⟨tag, subscribed, called⟩
  · rw [same]
  · exact called.runtimes

theorem advance_runtimes (w : World) (limit : Nat) : (w.advance limit).runtimes = w.runtimes := by
  refine List.foldlRecOn (motive := fun after : World => after.runtimes = w.runtimes) (w.due limit) _ rfl ?_
  intro after same entry _
  rw [← same]
  unfold restOver hookOver
  split
  · rfl
  · split <;> rfl

theorem cloneRuntime_get? (w : World) (name source other : String) : (w.cloneRuntime name source).runtimes.get? other =
    (w.ensureRuntime source).runtimes.get? (if name = other then source else other) := by
  obtain ⟨registry, known⟩ := w.ensureRuntime_known source
  simp only [cloneRuntime, known, Roster.get?_replace]
  split
  · rw [known]
  · rfl

theorem move_runtime (h : w.move? move = some after) (bound : w.runtimes.get? runtime = some registry)
    (kept : move.rebinds runtime = false) : after.runtimes.get? runtime = some registry := by
  have quiet : ∀ {last : World}, last.runtimes = w.runtimes → last.runtimes.get? runtime = some registry := by
    intro last same
    rw [same, bound]
  cases move with
  | act action => exact Option.some.inj h ▸ quiet (w.perform_deeds action).runtimes
  | build plan =>
    obtain ⟨⟨built, answer⟩, followed, rfl⟩ := Option.map_eq_some_iff.1 h
    rw [follow?_runtimes followed]
    exact w.ensureRuntime_kept _ bound
  | enrol name =>
    simp only [move?, enrol?] at h
    split at h
    · cases h
    · split at h
      · exact Option.some.inj h ▸ bound
      · exact Option.some.inj h ▸ quiet (callHook_runtimes _ _ _ _)
  | spawn other =>
    simp only [move?, spawn?] at h
    split at h
    · cases h
    · split at h
      · rw [← Option.some.inj h]
        refine quiet ?_
        rw [spawn, wake_runtimes, setPhase, adjustModule, hookOver]
        split <;> rfl
      · cases h
  | attend other =>
    obtain ⟨modules, journal, called, -, -, deeds, rfl | rfl⟩ := attend?_deeds h
    · exact quiet deeds.runtimes
    · exact quiet deeds.runtimes
  | pass time =>
    simp only [move?] at h
    split at h
    · exact Option.some.inj h ▸ quiet (w.advance_runtimes time)
    · cases h
  | cancel other => exact Option.some.inj h ▸ quiet (wake_runtimes _ _)
  | deregister other =>
    obtain ⟨there, -, rfl⟩ := deregister?_eq h
    exact bound
  | newRuntime name =>
    have different : name ≠ runtime := ne_of_beq_false kept
    rw [← Option.some.inj h, newRuntime, Roster.get?_replace, if_neg different, bound]
  | cloneRuntime name source =>
    have different : name ≠ runtime := ne_of_beq_false kept
    rw [← Option.some.inj h, cloneRuntime_get?, if_neg different]
    exact w.ensureRuntime_kept source bound
  | dropRuntime name =>
    have different : name ≠ runtime := ne_of_beq_false kept
    rw [← Option.some.inj h, dropRuntime, Roster.get?_remove_of_ne _ different.symm, bound]
  | dropIdle name => exact Option.some.inj h ▸ quiet (w.dropIdle_runtimes name)
  | yield =>
    rcases Move.isTurn_cases rfl h with ⟨other, attended⟩ | ⟨ready, setAside, rfl⟩
    · obtain ⟨modules, journal, called, -, -, deeds, rfl | rfl⟩ := attend?_deeds attended
      · exact quiet deeds.runtimes
      · exact quiet deeds.runtimes
    · exact bound
  | setFirstAside =>
    obtain ⟨ready, aside, same⟩ := w.setFirstAside_eq
    rw [← Option.some.inj h, same]
    exact bound
  | rejoin => exact Option.some.inj h ▸ bound
  | clone other =>
    obtain ⟨senders, rfl⟩ := clone?_senders h
    exact bound
  | drop sender =>
    obtain ⟨senders, rfl⟩ := drop?_senders h
    exact bound

theorem play_runtime {moves : List Move} (played : w.play? moves = some last)
    (bound : w.runtimes.get? runtime = some registry) (kept : ∀ move ∈ moves, move.rebinds runtime = false) :
    last.runtimes.get? runtime = some registry := by
  induction moves generalizing w with
  | nil => exact Option.some.inj played ▸ bound
  | cons move rest ih =>
    obtain ⟨after, moved, through⟩ := play?_cons.1 played
    obtain ⟨mine, others⟩ := List.forall_mem_cons.1 kept
    exact ih through (move_runtime moved bound mine) others

theorem move_launching (numbered : w.modules.Numbered) (h : w.move? move = some after)
    (found : w.modules.get? m = some target) (launching : target.phase = .launching) (elsewhere : move ≠ .spawn m) :
    ∃ there, after.modules.get? m = some there ∧ there.phase = .launching := by
  obtain ⟨there, here, fate⟩ := move_fares numbered h found
  have waiting : ∀ {phase : Phase}, target.phase = phase → phase = .launching := fun same => same.symm.trans launching
  refine ⟨there, here, ?_⟩
  cases fate with
  | kept ordinary more => exact launching
  | enrolled enrols more => cases waiting enrols.found.2
  | dropped drops => cases waiting drops.idle
  | spawned named waited => exact absurd named elsewhere
  | took named running kept took context more => cases waiting running
  | closed observes wake more => cases waiting observes.found.2
  | closedAtOnce observes wake more => cases waiting observes.found.2
  | rested named closing => cases waiting closing
  | cancelled named => exact launching

theorem play_spawnable (numbered : w.modules.Numbered) {moves : List Move} (played : w.play? moves = some last)
    (found : w.modules.get? m = some target) (launching : target.phase = .launching)
    (unspawned : Move.spawn m ∉ moves) : (last.move? (.spawn m)).isSome = true := by
  induction moves generalizing w target with
  | nil =>
    obtain rfl := Option.some.inj played
    simp only [move?, spawn?, found, launching, if_true, Option.isSome_some]
  | cons move rest ih =>
    obtain ⟨after, moved, through⟩ := play?_cons.1 played
    obtain ⟨own, others⟩ := List.ne_and_not_mem_of_not_mem_cons unspawned
    obtain ⟨there, here, still⟩ := move_launching numbered moved found launching own.symm
    exact ih (move_numbered numbered moved) through here still others

theorem deliveries_of_untaken (numbered : w.modules.Numbered) {moves : List Move} (played : w.play? moves = some last)
    (untaken : last.taken m = w.taken m) : last.deliveries m = w.deliveries m := by
  obtain ⟨taken, deliveries, -⟩ := play_routes numbered played m
  have nothing : w.meetings m moves = [] :=
    List.map_eq_nil_iff.1 (List.append_right_eq_self.1 (taken.symm.trans untaken))
  rw [deliveries, nothing, routed, List.append_nil]

theorem idle_silent {moves : List Move} (played : ({} : World).play? moves = some w)
    (found : w.modules.get? m = some target) (idle : target.phase = .idle) :
    w.hookCalls m = [] ∧ w.taken m = [] ∧ w.deliveries m = [] := by
  have called : w.HasCalledIfBuilt m := play_hasCalled reachable_empty played rfl
  rw [HasCalledIfBuilt, found] at called
  obtain ⟨subscribed, calls⟩ := called.calls
  have untaken := called.taken (by rw [idle]; rfl)
  refine ⟨?_, untaken, deliveries_of_untaken numbered_empty played untaken⟩
  rw [calls, Module.hookCallsSoFar, idle]

theorem launch_refused {moves : List Move} (played : ({} : World).play? moves = some w)
    (found : w.modules.get? m = some target) (idle : target.phase = .idle) :
    w.LaunchRefused (w.discard m) m target := by
  have reached : w.Reachable := ⟨moves, played⟩
  have drops : Change .rejoin w (w.discard m) := .drop found idle
  have occurs : (w.discard m).Occurs := reached.changes.tail ⟨_, drops⟩
  have numbered : (w.discard m).modules.Numbered := drops.numbered reached.numbered
  have there : (w.discard m).modules.get? m = some (target.ended .dropped) := by
    rw [discard_modules, Roster.get?_adjust_self, found]
    rfl
  have others : ∀ other, other ≠ m →
      (w.discard m).modules.get? other = w.modules.get? other :=
    fun other different => w.modules.get?_adjust_of_ne _ different
  constructor
  case elsewhere => rfl
  case others => exact others
  case dropped => exact there
  case emptied => rfl
  case released =>
    intro s
    constructor
    · intro alive
      rcases keeper_of_finished occurs reached.free there rfl alive with held | ⟨n, other, different, here, holds⟩
      · exact Or.inl held
      · exact Or.inr ⟨n, other, different, (others n different).symm.trans here, holds⟩
    · rintro (held | ⟨n, other, different, here, holds⟩)
      · exact (isAlive_iff numbered).2 (Or.inl held)
      · exact (isAlive_iff numbered).2 (Or.inr (Or.inl ⟨n, other, (others n different).trans here, holds⟩))
  case refuses => exact refusesForGood_of_shut occurs there rfl
  case silent =>
    intro more last through
    obtain ⟨calls, taken, deliveries⟩ := idle_silent played found idle
    have rests := play_rests numbered through there rfl
    refine ⟨rests.hookCalls.trans calls, rests.taken.trans taken, ?_⟩
    exact (deliveries_of_untaken numbered through rests.taken).trans deliveries

theorem launch_vacant (idle : w.idle? name = some (m, target)) (vacant : w.registration? target.registry .wlc = none) :
    w.launch name = (((w.enrol m target).awaitFirstHook target).spawn m target, .ok) := by
  simp only [launch, idle, vacant]

theorem shows?_bound (bound : w.runtimes.get? runtime = some registry) (id : ModuleId) :
    w.shows? runtime id = some (w.tally registry id) := by
  rw [shows?, bound]
  rfl

theorem launchDecided_vacant (reached : w.Reachable) (idle : w.idle? name = some (m, target))
    (vacant : w.registration? target.registry .wlc = none) : w.LaunchDecided name m target := by
  have tells : w.tally target.registry .wlc = (false, 0) := by
    rw [(Occurs.singly reached.changes).tally, vacant]
    rfl
  have ok : (w.launch name).2 = .ok := by rw [launch_vacant idle vacant]
  have unrefused : (w.launch name).2 ≠ .refused (.alreadyRegistered .wlc) := by
    rw [ok]
    exact fun same => Answer.noConfusion same
  constructor
  case ok_iff => exact ⟨fun _ => vacant, fun _ => ok⟩
  case refused_iff =>
    rw [vacant]
    exact ⟨fun refused => absurd refused unrefused, fun taken => nomatch taken⟩
  case seen =>
    intro runtime bound
    rw [shows?_bound bound, tells]
    exact ⟨⟨fun _ => rfl, fun _ => ok⟩, ⟨fun refused => absurd refused unrefused, fun shows => nomatch shows⟩⟩
  case succeeds =>
    intro _
    obtain ⟨found, -⟩ := idle?_found idle
    obtain ⟨more, there⟩ := w.enrol_found m found
    have enrolled : w.move? (.enrol name) = some (w.enrol m target) := by
      simp only [move?, enrol?, idle, vacant]
    have numbered := move_numbered reached.numbered enrolled
    refine ⟨_, enrolled, ?_, ?_, launch_registers reached idle (Prod.ext rfl ok)⟩
    · have listed := reached.rooted.modules m target found
      rw [registration?_congr (w.enrol_registries m target), w.registration?_register listed vacant, if_pos rfl]
    · intro more last through unspawned
      exact play_spawnable numbered through there rfl unspawned
  case refuses =>
    intro taken
    rw [vacant] at taken
    cases taken

theorem launchDecided_taken {moves : List Move} (played : ({} : World).play? moves = some w)
    (idle : w.idle? name = some (m, target)) (taken : (w.registration? target.registry .wlc).isSome = true) :
    w.LaunchDecided name m target := by
  have reached : w.Reachable := ⟨moves, played⟩
  have tells : w.tally target.registry .wlc = (true, 1) := by
    rw [(Occurs.singly reached.changes).tally, taken]
    rfl
  have launched := launch_taken idle taken
  have refused : (w.launch name).2 = .refused (.alreadyRegistered .wlc) := by rw [launched]
  have failed : (w.launch name).2 ≠ .ok := by
    rw [refused]
    exact fun same => Answer.noConfusion same
  have occupied : w.registration? target.registry .wlc ≠ none := Option.isSome_iff_ne_none.1 taken
  constructor
  case ok_iff => exact ⟨fun ok => absurd ok failed, fun nobody => absurd nobody occupied⟩
  case refused_iff => exact ⟨fun _ => taken, fun _ => refused⟩
  case seen =>
    intro runtime bound
    rw [shows?_bound bound, tells]
    exact ⟨⟨fun ok => absurd ok failed, fun shows => nomatch shows⟩, ⟨fun _ => rfl, fun _ => refused⟩⟩
  case succeeds =>
    intro nobody
    exact absurd nobody occupied
  case refuses =>
    intro _
    obtain ⟨found, waiting⟩ := idle?_found idle
    obtain ⟨holder, stands⟩ := Option.isSome_iff_exists.1 taken
    rw [launched]
    refine ⟨?_, launch_refused played found waiting⟩
    simp only [move?, enrol?, idle, stands]

/-- In every world that can be reached, and in the middle of every move, a registry lists one charging module or
nobody, and queries tell as much of every runtime. A clone has the registry of the runtime that it is made from, and
tells the same until one of the two names is given to another. An idle module is launched if and only if nobody is
registered, seen through any of them. Otherwise the launch is refused; it ends its own module, of which nothing has
come and nothing ever comes, together with what waited there, and leaves everything else as it was. -/
theorem launch_succeeds_iff_nobody_registered {moves : List Move} (played : ({} : World).play? moves = some w) :
    (∀ moment, Changes w moment → ∀ registry id, moment.tally registry id =
      (decide (id = .wlc) && (moment.registration? registry .wlc).isSome,
        if (moment.registration? registry .wlc).isSome then 1 else 0)) ∧
      (∀ name m target runtime id, w.modules.latest? name = some m → w.modules.get? m = some target →
        w.perform (.query name runtime id) = (w, .standing ⟨.wlc, target.cancelled, w.shows? runtime id⟩)) ∧
      (∀ clone source, ∃ registry, ∀ more last, (w.cloneRuntime clone source).play? more = some last →
        (∀ move ∈ more, move.rebinds clone = false ∧ move.rebinds source = false) →
        last.runtimes.get? clone = some registry ∧ last.runtimes.get? source = some registry ∧
          ∀ id, last.shows? clone id = last.shows? source id) ∧
      ∀ name m target, w.idle? name = some (m, target) → w.LaunchDecided name m target := by
  have reached : w.Reachable := ⟨moves, played⟩
  refine ⟨?_, ?_, ?_, ?_⟩
  · intro moment changes
    exact (Occurs.singly (reached.changes.trans changes)).tally
  · intro name m target runtime id latest found
    simp only [perform, standing, latest, Option.bind_some, found]
    rfl
  · intro clone source
    obtain ⟨registry, known⟩ := w.ensureRuntime_known source
    have bound : ∀ name, name = clone ∨ name = source →
        (w.cloneRuntime clone source).runtimes.get? name = some registry := by
      rintro name (rfl | rfl)
      · rw [cloneRuntime_get?, if_pos rfl, known]
      · rw [cloneRuntime_get?, ite_self, known]
    refine ⟨registry, ?_⟩
    intro more last through kept
    have first := play_runtime through (bound clone (Or.inl rfl)) fun move member => (kept move member).1
    have second := play_runtime through (bound source (Or.inr rfl)) fun move member => (kept move member).2
    refine ⟨first, second, fun id => ?_⟩
    rw [shows?_bound first, shows?_bound second]
  · intro name m target idle
    cases vacant : w.registration? target.registry .wlc with
    | none => exact launchDecided_vacant reached idle vacant
    | some holder => exact launchDecided_taken played idle (by rw [vacant]; rfl)

/-- A module is built for the clone of a runtime in which another one is registered, and a subscriber is kept by
nothing but the enable request that waits there. -/
def launchedAndBuiltForClone : List Move :=
  [.build ⟨"a", "r", "d", some {}, []⟩, .enrol "a", .spawn ⟨"a", 0⟩, .cloneRuntime "c" "r",
    .build ⟨"b", "c", "d", some {}, []⟩, .act (.enable "b" (some "s")), .act (.release "s")]

theorem launch_refused_through_clone : ∃ w target, ({} : World).play? launchedAndBuiltForClone = some w ∧
    w.idle? "b" = some (⟨"b", 0⟩, target) ∧ w.shows? "c" .wlc = some (true, 1) ∧ w.isAlive ⟨"s", 0⟩ = true ∧
    (w.launch "b").2 = .refused (.alreadyRegistered .wlc) ∧
    w.LaunchRefused (w.launch "b").1 ⟨"b", 0⟩ target ∧ (w.launch "b").1.isAlive ⟨"s", 0⟩ = false := by
  obtain ⟨w, played⟩ :=
    Option.isSome_iff_exists.1 (by decide : (({} : World).play? launchedAndBuiltForClone).isSome = true)
  have found : (({} : World).play? launchedAndBuiltForClone).map (fun w =>
    (w.idle? "b").map fun entry => (entry.1, entry.2.registry)) = some (some (⟨"b", 0⟩, ⟨"r", 0⟩)) := by decide
  have shown : (({} : World).play? launchedAndBuiltForClone).map (fun w => (w.registration? ⟨"r", 0⟩ .wlc,
    w.shows? "c" .wlc, w.isAlive ⟨"s", 0⟩, (w.launch "b").2, (w.launch "b").1.isAlive ⟨"s", 0⟩)) =
      some (some ⟨"a", 0⟩, some (true, 1), true, .refused (.alreadyRegistered .wlc), false) := by decide
  rw [played] at found shown
  obtain ⟨⟨m, target⟩, idle, same⟩ := Option.map_eq_some_iff.1 (Option.some.inj found)
  obtain ⟨rfl, registry⟩ := Prod.mk.inj same
  simp only [Option.map_some, Option.some.injEq, Prod.mk.injEq] at shown
  obtain ⟨stands, tells, alive, answer, released⟩ := shown
  have decided := (launch_succeeds_iff_nobody_registered played).2.2.2 "b" ⟨"b", 0⟩ target idle
  have taken : (w.registration? target.registry .wlc).isSome = true := by
    rw [show target.registry = ⟨"r", 0⟩ from registry, stands]
    rfl
  exact ⟨w, target, played, idle, tells, alive, answer, (decided.refuses taken).2, released⟩

end World

end WirelessCharging
