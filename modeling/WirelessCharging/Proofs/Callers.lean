import WirelessCharging.Proofs.Mirrors
import WirelessCharging.Proofs.Prompt
/-!
What callers do to runtimes and modules on one side: they build, launch, drop and stop modules and deal with runtimes.
On the side of the module this comes to the same in a world and in one that mirrors it, and on the other side it is
not seen. Hooks that stay on a side take no time, so a launch lets no dispatcher run.
-/
namespace WirelessCharging

namespace Side

variable (S : Side)

def planStays (own : Bool) (plan : Plan) : Bool :=
  S.names plan.name == own && S.runtime plan.runtime == own && S.device plan.device == own &&
    plan.hooks.all fun hook => S.scriptStays own hook.2.script && hook.2.delay == 0

def seenHooks (hooks : List (HookKind × Hook)) : List (HookKind × Hook) :=
  hooks.map fun hook => (hook.1, S.seenHook hook.2)

def seenPlan (plan : Plan) : Plan := { plan with hooks := S.seenHooks plan.hooks }

end Side

structure Plan.StaysOn (S : Side) (own : Bool) (plan : Plan) : Prop where
  name : S.names plan.name = own
  runtime : S.runtime plan.runtime = own
  device : S.device plan.device = own
  hooks : ∀ hook ∈ plan.hooks, S.scriptStays own hook.2.script = true ∧ hook.2.delay = 0

variable {S : Side} {own : Bool}

theorem Side.planStays_iff {plan : Plan} : S.planStays own plan = true ↔ plan.StaysOn S own := by
  simp only [planStays, Bool.and_eq_true, beq_iff_eq, List.all_eq_true]
  constructor
  · rintro ⟨⟨⟨name, runtime⟩, device⟩, hooks⟩
    exact ⟨name, runtime, device, hooks⟩
  · intro stays
    exact ⟨⟨⟨stays.name, stays.runtime⟩, stays.device⟩, stays.hooks⟩

theorem Module.staysOn_bare {registry : RegistryRef} {device : String} (registers : S.registers registry = own)
    (read : S.device device = own) (capacity stopLimit : Nat) :
    ({ registry, device, inbox := { capacity }, stopLimit } : Module).StaysOn S own := by
  refine ⟨read, registers, ?_, ?_, List.forall_mem_nil _⟩
  · intro kind hook found
    cases kind <;> cases found
  · intro s registered
    cases registered

theorem Module.StaysOn.installAll {target : Module} (h : target.StaysOn S own) {hooks : List (HookKind × Hook)}
    (stay : ∀ hook ∈ hooks, S.scriptStays own hook.2.script = true ∧ hook.2.delay = 0) :
    (hooks.foldl (fun target hook => target.install hook.1 hook.2) target).StaysOn S own := by
  induction hooks generalizing target with
  | nil => exact h
  | cons hook rest ih =>
    obtain ⟨first, others⟩ := List.forall_mem_cons.1 stay
    obtain ⟨kind, hook⟩ := hook
    have hooks : ∀ other installed, (target.install kind hook).hook? other = some installed →
        S.scriptStays own installed.script = true ∧ installed.delay = 0 := by
      intro other installed found
      rw [World.install_hook?] at found
      split at found
      · exact Option.some.inj found ▸ first
      · exact h.hooks other installed found
    refine ih ?_ others
    cases kind with
    | beforeStart => exact ⟨h.device, h.registry, hooks, h.registered, h.queue⟩
    | afterStop => exact ⟨h.device, h.registry, hooks, h.registered, h.queue⟩

theorem Side.seenModule_installAll (target : Module) (hooks : List (HookKind × Hook)) :
    S.seenModule (hooks.foldl (fun target hook => target.install hook.1 hook.2) target) =
      (S.seenHooks hooks).foldl (fun target hook => target.install hook.1 hook.2) (S.seenModule target) := by
  induction hooks generalizing target with
  | nil => rfl
  | cons hook rest ih =>
    obtain ⟨kind, hook⟩ := hook
    have same : S.seenModule (target.install kind hook) = (S.seenModule target).install kind (S.seenHook hook) := by
      cases kind with
      | beforeStart => rfl
      | afterStop => rfl
    rw [List.foldl_cons, ih, same]
    rfl

theorem World.name_of_idle? {w : World} {name : String} {m : ModuleRef} {target : Module}
    (idle : w.idle? name = some (m, target)) : m.name = name := by
  unfold idle? at idle
  split at idle
  · cases idle
  · rename_i latest
    split at idle
    · cases idle
    · split at idle
      · obtain ⟨rfl, -⟩ := Prod.mk.inj (Option.some.inj idle)
        exact Roster.name_of_latest? latest
      · cases idle

namespace World

variable {w : World} {m : ModuleRef}

theorem Sided.newRuntime (h : w.Sided S) (name : String) : (w.newRuntime name).Sided S :=
  ⟨h.modules, h.devices, h.subscribers, (h.runtimes.remove name).add rfl, h.registries.add (List.forall_mem_nil _),
    h.fits, h.alone⟩

theorem Sided.ensureRuntime (h : w.Sided S) (name : String) : (w.ensureRuntime name).Sided S := by
  unfold World.ensureRuntime
  split
  · exact h
  · exact h.newRuntime name

theorem Sided.cloneRuntime (h : w.Sided S) {name source : String} (same : S.runtime source = S.runtime name) :
    (w.cloneRuntime name source).Sided S := by
  have ensured := h.ensureRuntime source
  unfold World.cloneRuntime
  dsimp only
  split
  · exact ensured
  · rename_i registry found
    have registers : S.registers registry = S.runtime name := (ensured.runtimes.get? found).trans same
    exact ⟨ensured.modules, ensured.devices, ensured.subscribers, (ensured.runtimes.remove name).add registers,
      ensured.registries, ensured.fits, ensured.alone⟩

theorem Sided.dropRuntime (h : w.Sided S) (name : String) : (w.dropRuntime name).Sided S :=
  ⟨h.modules, h.devices, h.subscribers, h.runtimes.remove name, h.registries, h.fits, h.alone⟩

theorem Sided.discard (h : w.Sided S) (m : ModuleRef) : (w.discard m).Sided S :=
  (h.adjustModule m fun _ stays => stays.ended .dropped).setSenders _

theorem Sided.dropIdle (h : w.Sided S) (name : String) : (w.dropIdle name).Sided S := by
  unfold World.dropIdle
  split
  · exact h
  · exact h.discard _

theorem Sided.build? (h : w.Sided S) {plan : Plan} (stays : plan.StaysOn S own) {settings : Settings} {after : World}
    (built : w.build? plan.name plan.runtime plan.device settings plan.hooks = some after)
    (alone : (after.modules.keys.filter S.owns).length ≤ 1) : after.Sided S := by
  unfold World.build? at built
  split at built
  · rename_i registry inbox known made
    obtain rfl := Option.some.inj built
    obtain rfl := Inbox.eq_of_ofCapacity? made
    have registers : S.registers registry = own := (h.runtimes.get? known).trans stays.runtime
    have dropped := h.dropIdle plan.name
    have new := (Module.staysOn_bare registers stays.device (max 1 settings.inboxCapacity)
      settings.stopLimit).installAll stays.hooks
    rw [← stays.name] at new
    exact ⟨dropped.modules.add new, dropped.devices, dropped.subscribers, dropped.runtimes, dropped.registries,
      dropped.fits, alone⟩
  · cases built

theorem Sided.follow? (h : w.Sided S) {plan : Plan} (stays : plan.StaysOn S own) {after : World} {answer : Answer}
    (followed : w.follow? plan = some (after, answer)) (alone : (after.modules.keys.filter S.owns).length ≤ 1) :
    after.Sided S := by
  have ensured := (h.ensureRuntime plan.runtime).ensureDevice plan.device
  cases given : plan.settings with
  | none =>
    simp only [World.follow?, given, Option.some.injEq, Prod.mk.injEq] at followed
    exact followed.1 ▸ ensured
  | some settings =>
    rw [w.follow?_eq given] at followed
    obtain ⟨built, builds, outcome⟩ := Option.map_eq_some_iff.1 followed
    obtain ⟨rfl, -⟩ := Prod.mk.inj outcome
    exact ensured.build? stays builds alone

theorem Sided.register (h : w.Sided S) {registry : RegistryRef} (same : S.owns m = S.registers registry) :
    (w.register registry m).Sided S :=
  ⟨h.modules, h.devices, h.subscribers, h.runtimes, h.registries.adjust fun _ entries => List.forall_mem_append.2
    ⟨entries, List.forall_mem_singleton.2 same⟩, h.fits, h.alone⟩

theorem Sided.deregister (h : w.Sided S) (registry : RegistryRef) : (w.deregister registry).Sided S :=
  ⟨h.modules, h.devices, h.subscribers, h.runtimes, h.registries.adjust fun _ entries entry member =>
    entries entry (List.mem_filter.1 member).1, h.fits, h.alone⟩

theorem Sided.setPhase (h : w.Sided S) (m : ModuleRef) (phase : Phase) : (w.setPhase m phase).Sided S :=
  h.adjustModule m fun _ stays => ⟨stays.device, stays.registry, stays.hooks, stays.registered, stays.queue⟩

theorem Sided.cancel (h : w.Sided S) (m : ModuleRef) : (w.cancel m).Sided S := by
  refine (h.adjustModule m ?_).wake m
  intro target stays
  exact ⟨stays.device, stays.registry, stays.hooks, stays.registered, stays.queue⟩

theorem Sided.enrol (h : w.Sided S) {target : Module} (stays : target.StaysOn S (S.owns m)) :
    (w.enrol m target).Sided S :=
  ((h.register stays.registry.symm).setPhase m .launching).callHook stays .beforeStart

theorem Sided.spawn (h : w.Sided S) {target : Module} (stays : target.StaysOn S (S.owns m)) :
    (w.spawn m target).Sided S := by
  rw [World.spawn, hookOver, if_pos (stays.delay .beforeStart)]
  exact ((h.setPhase m .running).setSenders _).wake m

theorem Sided.launch_eq (h : w.Sided S) {name : String} {target : Module} (idle : w.idle? name = some (m, target))
    (vacant : w.registration? target.registry .wlc = none) :
    w.launch name = ((w.enrol m target).spawn m target, .ok) := by
  have prompt := (h.modules.get? (idle?_found idle).1).delay .beforeStart
  simp only [World.launch, idle, vacant, awaitFirstHook, prompt, if_true]

theorem Sided.launch (h : w.Sided S) (name : String) : (w.launch name).1.Sided S := by
  cases idle : w.idle? name with
  | none =>
    simp only [World.launch, idle]
    exact h
  | some found =>
    obtain ⟨m, target⟩ := found
    have stays := h.modules.get? (idle?_found idle).1
    cases registered : w.registration? target.registry .wlc with
    | some holder =>
      simp only [World.launch, idle, registered]
      exact h.discard m
    | none =>
      rw [h.launch_eq idle registered]
      exact (h.enrol stays).spawn stays

end World

namespace Side

namespace Mirrors

variable {w v : World} {m : ModuleRef}

theorem setRuntime (h : S.Mirrors w v) {name : String} (own : S.runtime name = true) (registry : RegistryRef) :
    S.Mirrors { w with runtimes := (w.runtimes.remove name).add name registry }
      { v with runtimes := (v.runtimes.remove name).add name registry } := by
  refine ⟨h.now, h.registries, ?_, h.modules, h.devices, h.subscribers, h.transfers, h.journal⟩
  rw [Roster.part_add own, Roster.part_remove, h.runtimes, id]

theorem setRuntimeHidden (h : S.Mirrors w v) {name : String} (other : S.runtime name = false)
    (registry : RegistryRef) : S.Mirrors { w with runtimes := (w.runtimes.remove name).add name registry } v := by
  refine ⟨h.now, h.registries, ?_, h.modules, h.devices, h.subscribers, h.transfers, h.journal⟩
  rw [Roster.part_add_other other, Roster.part_remove_other other, h.runtimes]

theorem newRuntime (h : S.Mirrors w v) {name : String} (own : S.runtime name = true) :
    S.Mirrors (w.newRuntime name) (v.newRuntime name) := by
  have next : v.registries.nextRef name = w.registries.nextRef name := by
    rw [h.registries]
    exact Roster.nextRef_part w.registries id own
  have mine : S.registers (w.registries.nextRef name) = true := own
  have added : S.Mirrors { w with registries := w.registries.add (w.registries.nextRef name) [] }
      { v with registries := v.registries.add (w.registries.nextRef name) [] } := by
    refine ⟨h.now, ?_, h.runtimes, h.modules, h.devices, h.subscribers, h.transfers, h.journal⟩
    rw [Roster.part_add mine, h.registries, id]
  simp only [World.newRuntime, next]
  exact added.setRuntime own _

theorem newRuntimeHidden (h : S.Mirrors w v) {name : String} (other : S.runtime name = false) :
    S.Mirrors (w.newRuntime name) v := by
  let registry := w.registries.nextRef name
  have theirs : S.registers registry = false := other
  have added : S.Mirrors { w with registries := w.registries.add registry [] } v := by
    refine ⟨h.now, ?_, h.runtimes, h.modules, h.devices, h.subscribers, h.transfers, h.journal⟩
    rw [Roster.part_add_other theirs, h.registries]
  exact added.setRuntimeHidden other registry

theorem ensureRuntime (h : S.Mirrors w v) {name : String} (own : S.runtime name = true) :
    S.Mirrors (w.ensureRuntime name) (v.ensureRuntime name) := by
  unfold World.ensureRuntime
  rw [h.runtime own]
  split
  · exact h
  · exact h.newRuntime own

theorem ensureRuntimeHidden (h : S.Mirrors w v) {name : String} (other : S.runtime name = false) :
    S.Mirrors (w.ensureRuntime name) v := by
  unfold World.ensureRuntime
  split
  · exact h
  · exact h.newRuntimeHidden other

theorem cloneRuntime (h : S.Mirrors w v) {name source : String} (own : S.runtime name = true)
    (also : S.runtime source = true) : S.Mirrors (w.cloneRuntime name source) (v.cloneRuntime name source) := by
  have ensured := h.ensureRuntime also
  unfold World.cloneRuntime
  dsimp only
  rw [ensured.runtime also]
  split
  · exact ensured
  · exact ensured.setRuntime own _

theorem cloneRuntimeHidden (h : S.Mirrors w v) {name source : String} (other : S.runtime name = false)
    (also : S.runtime source = false) : S.Mirrors (w.cloneRuntime name source) v := by
  have ensured := h.ensureRuntimeHidden also
  unfold World.cloneRuntime
  dsimp only
  split
  · exact ensured
  · exact ensured.setRuntimeHidden other _

theorem dropRuntime (h : S.Mirrors w v) (name : String) : S.Mirrors (w.dropRuntime name) (v.dropRuntime name) := by
  refine ⟨h.now, h.registries, ?_, h.modules, h.devices, h.subscribers, h.transfers, h.journal⟩
  rw [World.dropRuntime, World.dropRuntime, Roster.part_remove, h.runtimes]

theorem dropRuntimeHidden (h : S.Mirrors w v) {name : String} (other : S.runtime name = false) :
    S.Mirrors (w.dropRuntime name) v := by
  refine ⟨h.now, h.registries, ?_, h.modules, h.devices, h.subscribers, h.transfers, h.journal⟩
  rw [World.dropRuntime, Roster.part_remove_other other, h.runtimes]

theorem idle? (h : S.Mirrors w v) {name : String} (own : S.names name = true) :
    v.idle? name = (w.idle? name).map fun found => (found.1, S.seenModule found.2) := by
  unfold World.idle?
  rw [h.latest? own]
  cases latest : w.modules.latest? name with
  | none => rfl
  | some m =>
    have mine : S.owns m = true := by rw [Side.owns, Roster.name_of_latest? latest, own]
    simp only [h.found mine]
    cases w.modules.get? m with
    | none => rfl
    | some target =>
      have phase : (S.seenModule target).phase = target.phase := rfl
      simp only [Option.map_some, phase]
      split <;> rfl

theorem owns_idle {name : String} (named : S.names name = own) {target : Module}
    (idle : w.idle? name = some (m, target)) : S.owns m = own := by
  rw [Side.owns, World.name_of_idle? idle, named]

theorem dropIdle (h : S.Mirrors w v) {name : String} (own : S.names name = true) :
    S.Mirrors (w.dropIdle name) (v.dropIdle name) := by
  unfold World.dropIdle
  rw [h.idle? own]
  cases idle : w.idle? name with
  | none => exact h
  | some found =>
    obtain ⟨m, target⟩ := found
    exact h.discard (owns_idle own idle)

theorem dropIdleHidden (h : S.Mirrors w v) {name : String} (other : S.names name = false) :
    S.Mirrors (w.dropIdle name) v := by
  unfold World.dropIdle
  split
  · exact h
  · rename_i m target idle
    exact h.discardHidden (owns_idle other idle)

theorem addModule (h : S.Mirrors w v) {name : String} (own : S.names name = true) {target seen : Module}
    (same : S.seenModule target = seen) :
    S.Mirrors (w.addModule name target) (v.addModule name seen) := by
  have next : v.modules.nextRef name = w.modules.nextRef name := by
    rw [h.modules]
    exact Roster.nextRef_part w.modules S.seenModule own
  have mine : S.owns (w.modules.nextRef name) = true := own
  refine ⟨h.now, h.registries, h.runtimes, ?_, h.devices, h.subscribers, h.transfers, h.journal⟩
  rw [World.addModule_modules, World.addModule_modules, Roster.part_add mine, next, same, h.modules]

theorem addModuleHidden (h : S.Mirrors w v) {name : String} (other : S.names name = false) (target : Module) :
    S.Mirrors (w.addModule name target) v := by
  have theirs : S.owns (w.modules.nextRef name) = false := other
  refine ⟨h.now, h.registries, h.runtimes, ?_, h.devices, h.subscribers, h.transfers, h.journal⟩
  rw [World.addModule_modules, Roster.part_add_other theirs, h.modules]

theorem build? (h : S.Mirrors w v) {plan : Plan} (stays : plan.StaysOn S true) (settings : Settings) :
    Option.Rel S.Mirrors (w.build? plan.name plan.runtime plan.device settings plan.hooks)
      (v.build? plan.name plan.runtime plan.device settings (S.seenHooks plan.hooks)) := by
  unfold World.build?
  rw [h.runtime stays.runtime]
  split
  · exact .some ((h.dropIdle stays.name).addModule stays.name (seenModule_installAll _ _))
  · exact .none

theorem follow? (h : S.Mirrors w v) {plan : Plan} (stays : plan.StaysOn S true) :
    Option.Rel S.MirrorsOutcome (w.follow? plan) (v.follow? (S.seenPlan plan)) := by
  have ensured := (h.ensureRuntime stays.runtime).ensureDevice stays.device
  cases given : plan.settings with
  | none =>
    have alsoGiven : (S.seenPlan plan).settings = none := given
    simp only [World.follow?, given, alsoGiven]
    exact .some ⟨ensured, rfl⟩
  | some settings =>
    have alsoGiven : (S.seenPlan plan).settings = some settings := given
    have built := ensured.build? stays settings
    rw [w.follow?_eq given, v.follow?_eq alsoGiven]
    exact rel_map built fun mirrors => ⟨mirrors, rfl⟩

theorem followHidden (h : S.Mirrors w v) {plan : Plan} (stays : plan.StaysOn S false) {after : World} {answer : Answer}
    (followed : w.follow? plan = some (after, answer)) : S.Mirrors after v := by
  have ensured := (h.ensureRuntimeHidden stays.runtime).ensureDeviceHidden stays.device
  cases given : plan.settings with
  | none =>
    simp only [World.follow?, given, Option.some.injEq, Prod.mk.injEq] at followed
    exact followed.1 ▸ ensured
  | some settings =>
    rw [w.follow?_eq given] at followed
    obtain ⟨built, builds, outcome⟩ := Option.map_eq_some_iff.1 followed
    obtain ⟨rfl, -⟩ := Prod.mk.inj outcome
    unfold World.build? at builds
    split at builds
    · obtain rfl := Option.some.inj builds
      exact (ensured.dropIdleHidden stays.name).addModuleHidden stays.name _
    · cases builds

theorem adjustRegistry (h : S.Mirrors w v) {registry : RegistryRef} (own : S.registers registry = true)
    (f : Registry → Registry) : S.Mirrors { w with registries := w.registries.adjust registry f }
      { v with registries := v.registries.adjust registry f } := by
  refine ⟨h.now, ?_, h.runtimes, h.modules, h.devices, h.subscribers, h.transfers, h.journal⟩
  have same : (w.registries.adjust registry f).part S.registers id =
      (w.registries.part S.registers id).adjust registry f := Roster.part_adjust own fun _ _ => rfl
  rw [same, h.registries]

theorem adjustRegistryHidden (h : S.Mirrors w v) {registry : RegistryRef} (other : S.registers registry = false)
    (f : Registry → Registry) : S.Mirrors { w with registries := w.registries.adjust registry f } v := by
  refine ⟨h.now, ?_, h.runtimes, h.modules, h.devices, h.subscribers, h.transfers, h.journal⟩
  rw [Roster.part_adjust_other other, h.registries]

theorem register (h : S.Mirrors w v) {registry : RegistryRef} (own : S.registers registry = true) (m : ModuleRef) :
    S.Mirrors (w.register registry m) (v.register registry m) :=
  (h.adjustRegistry own fun entries => entries.add .wlc m).setSenders _ _

theorem registerHidden (h : S.Mirrors w v) {registry : RegistryRef} (other : S.registers registry = false)
    (m : ModuleRef) : S.Mirrors (w.register registry m) v :=
  (h.adjustRegistryHidden other fun entries => entries.add .wlc m).setSendersHidden _

theorem deregister (h : S.Mirrors w v) {registry : RegistryRef} (own : S.registers registry = true) :
    S.Mirrors (w.deregister registry) (v.deregister registry) :=
  (h.adjustRegistry own fun entries => entries.remove .wlc).setSenders _ _

theorem deregisterHidden (h : S.Mirrors w v) {registry : RegistryRef} (other : S.registers registry = false) :
    S.Mirrors (w.deregister registry) v :=
  (h.adjustRegistryHidden other fun entries => entries.remove .wlc).setSendersHidden _

theorem setPhase (h : S.Mirrors w v) (own : S.owns m = true) (phase : Phase) :
    S.Mirrors (w.setPhase m phase) (v.setPhase m phase) :=
  h.change own (fun target => { target with phase }) fun _ => rfl

theorem cancel (h : S.Mirrors w v) (own : S.owns m = true) : S.Mirrors (w.cancel m) (v.cancel m) :=
  (h.change own (fun target => { target with cancelled := true }) fun _ => rfl).wake m

theorem cancelHidden (h : S.Mirrors w v) (other : S.owns m = false) : S.Mirrors (w.cancel m) v :=
  (h.adjustModuleHidden other _).wakeHidden m

theorem enrol (h : S.Mirrors w v) (sided : w.Sided S) (free : w.inHand = []) (alsoFree : v.inHand = [])
    (own : S.owns m = true) {target : Module} (stays : target.StaysOn S true) :
    S.Mirrors (w.enrol m target) (v.enrol m (S.seenModule target)) := by
  have enrolled := (h.register stays.registry m).setPhase own .launching
  have sides := (sided.register (own.trans stays.registry.symm)).setPhase m .launching
  exact enrolled.callHook sides free alsoFree own stays .beforeStart

theorem enrolHidden (h : S.Mirrors w v) (sided : w.Sided S) (other : S.owns m = false) {target : Module}
    (stays : target.StaysOn S false) : S.Mirrors (w.enrol m target) v := by
  have enrolled := (h.registerHidden stays.registry m).adjustModuleHidden other
    fun target => { target with phase := .launching }
  have sides := (sided.register (other.trans stays.registry.symm)).setPhase m .launching
  exact enrolled.callHookHidden sides other stays .beforeStart

theorem spawn (h : S.Mirrors w v) (own : S.owns m = true) {target : Module} (stays : target.StaysOn S true) :
    S.Mirrors (w.spawn m target) (v.spawn m (S.seenModule target)) := by
  rw [World.spawn, World.spawn, World.hookOver, World.hookOver, delay_seen, stays.delay, if_pos rfl, if_pos rfl]
  exact ((h.setPhase own .running).setSenders _ _).wake m

theorem spawnHidden (h : S.Mirrors w v) (other : S.owns m = false) {target : Module} (stays : target.StaysOn S false) :
    S.Mirrors (w.spawn m target) v := by
  rw [World.spawn, World.hookOver, stays.delay, if_pos rfl]
  have running := h.adjustModuleHidden other fun target => { target with phase := .running }
  exact (running.setSendersHidden _).wakeHidden m

theorem launch (h : S.Mirrors w v) (sided : w.Sided S) (free : w.inHand = []) (alsoFree : v.inHand = [])
    {name : String} (own : S.names name = true) : S.MirrorsOutcome (w.launch name) (v.launch name) := by
  have there := h.idle? own
  cases idle : w.idle? name with
  | none =>
    rw [idle] at there
    simp only [World.launch, idle, there, Option.map_none]
    exact ⟨h, rfl⟩
  | some found =>
    obtain ⟨m, target⟩ := found
    have mine := owns_idle own idle
    have stays := sided.modules.get? (World.idle?_found idle).1
    rw [mine] at stays
    have registry : (S.seenModule target).registry = target.registry := rfl
    rw [idle] at there
    simp only [World.launch, idle, there, Option.map_some, registry, h.registration? stays.registry]
    cases w.registration? target.registry .wlc with
    | some holder => exact ⟨h.discard mine, rfl⟩
    | none =>
      simp only [World.awaitFirstHook, delay_seen, stays.delay, if_true]
      exact ⟨(h.enrol sided free alsoFree mine stays).spawn mine stays, rfl⟩

theorem launchHidden (h : S.Mirrors w v) (sided : w.Sided S) {name : String} (other : S.names name = false) :
    S.Mirrors (w.launch name).1 v := by
  cases idle : w.idle? name with
  | none =>
    simp only [World.launch, idle]
    exact h
  | some found =>
    obtain ⟨m, target⟩ := found
    have theirs := owns_idle other idle
    have stays := sided.modules.get? (World.idle?_found idle).1
    rw [theirs] at stays
    cases registered : w.registration? target.registry .wlc with
    | some holder =>
      simp only [World.launch, idle, registered]
      exact h.discardHidden theirs
    | none =>
      rw [sided.launch_eq idle registered]
      exact (h.enrolHidden sided theirs stays).spawnHidden theirs stays

theorem inspection (h : S.Mirrors w v) (sided : w.Sided S) (free : w.inHand = []) (alsoFree : v.inHand = [])
    {name : String} (own : S.names name = true) : v.inspection name = w.inspection name := by
  rw [World.inspection, World.inspection, h.idle? own]
  cases idle : w.idle? name with
  | none => rfl
  | some found =>
    obtain ⟨m, target⟩ := found
    have stays := sided.modules.get? (World.idle?_found idle).1
    rw [owns_idle own idle] at stays
    have context : (S.seenModule target).context = target.context := rfl
    simp only [Option.map_some, context, World.hasSubscriber, h.listener? sided free alsoFree stays.registered]

end Mirrors

end Side

end WirelessCharging
