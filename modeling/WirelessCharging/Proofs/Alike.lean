import WirelessCharging.Proofs.Masked
/-!
Worlds that are the same but for their subscribers. In a tame world what comes of an envelope or of a hook is seen
from what is seen before, so dispatchers that take their turns, the clock and callers leave worlds alike that were
alike before.
-/
namespace WirelessCharging

mutual

theorem Action.masked?_masked (action posed : Action) (kept : action.masked? = some posed) :
    posed.masked? = some posed ∧ posed.isTame = true := by
  cases action with
  | enable name subscriber =>
    cases subscriber with
    | none => cases kept; exact ⟨rfl, rfl⟩
    | some subscriber => cases kept; exact ⟨rfl, rfl⟩
  | setDevice name change onTransfer =>
    cases onTransfer with
    | none => cases kept; exact ⟨rfl, rfl⟩
    | some scripts =>
      cases kept
      obtain ⟨same, tame⟩ := scriptsMasked_masked scripts
      exact ⟨by rw [Action.masked?, same], tame⟩
  | subscribe name kind reactions => cases kept
  | release name => cases kept
  | query name runtime id => cases kept
  | _ => cases kept; exact ⟨rfl, rfl⟩

theorem scriptMasked_masked (script : Script) :
    scriptMasked (scriptMasked script) = scriptMasked script ∧ scriptTame (scriptMasked script) = true := by
  cases script with
  | nil => exact ⟨rfl, rfl⟩
  | cons action rest =>
    obtain ⟨same, tame⟩ := scriptMasked_masked rest
    rw [scriptMasked]
    cases masked : action.masked? with
    | none => exact ⟨same, tame⟩
    | some posed =>
      obtain ⟨kept, fine⟩ := action.masked?_masked posed masked
      simp only [Option.toList_some, List.singleton_append, scriptMasked, scriptTame, kept, same, fine, tame,
        Bool.and_self, and_self]

theorem scriptsMasked_masked (scripts : List Script) :
    scriptsMasked (scriptsMasked scripts) = scriptsMasked scripts ∧ scriptsTame (scriptsMasked scripts) = true := by
  cases scripts with
  | nil => exact ⟨rfl, rfl⟩
  | cons script rest =>
    obtain ⟨here, fine⟩ := scriptMasked_masked script
    obtain ⟨later, tame⟩ := scriptsMasked_masked rest
    simp only [scriptsMasked, scriptsTame, here, later, fine, tame, Bool.and_self, and_self]

end

def Plan.masked (plan : Plan) : Plan := { plan with hooks := plan.hooks.map fun hook => (hook.1, hook.2.masked) }

def Plan.isTame (plan : Plan) : Bool := plan.hooks.all fun hook => scriptTame hook.2.script

theorem Hook.masked_masked (hook : Hook) : hook.masked.masked = hook.masked ∧ scriptTame hook.masked.script = true := by
  obtain ⟨same, tame⟩ := scriptMasked_masked hook.script
  constructor
  · simp only [masked, same]
  · exact tame

namespace World

def posingAttend (w : World) (m : ModuleRef) : World × Script :=
  match w.modules.get? m with
  | none => (w, [])
  | some target =>
    if target.phase ≠ .running then (w, [])
    else if target.cancelled then
      ((w.adjustModule m (·.closingUntil (w.now + target.delay .afterStop))).record (.closed m)).hooking
        m target .afterStop
    else
      match target.inbox.take? with
      | none => (w, [])
      | some (envelope, inbox) => (w.took m envelope inbox).posing m target envelope

variable {w : World}

theorem masked_took (w : World) (m : ModuleRef) (envelope : Envelope) (inbox : Inbox) :
    (w.took m envelope inbox).masked = w.masked.took m envelope.masked inbox.masked := by
  rw [took, took, masked_record rfl, masked_setInbox]

theorem masked_closing (w : World) (m : ModuleRef) (wake : Nat) :
    ((w.adjustModule m (·.closingUntil wake)).record (.closed m)).masked =
      (w.masked.adjustModule m (·.closingUntil wake)).record (.closed m) := by
  rw [masked_record rfl, masked_change w m (·.closingUntil wake) fun _ => rfl]

theorem masked_attending (h : w.Tame) (m : ModuleRef) :
    maskedScript (w.attending m) = w.masked.posingAttend m ∧ TameScript (w.attending m) := by
  unfold attending posingAttend
  rw [masked_found]
  cases found : w.modules.get? m with
  | none => exact ⟨rfl, h, rfl⟩
  | some target =>
    have phase : target.masked.phase = target.phase := rfl
    have cancelled : target.masked.cancelled = target.cancelled := rfl
    have inbox : target.masked.inbox = target.inbox.masked := rfl
    have now : w.masked.now = w.now := rfl
    simp only [Option.map_some, phase, cancelled, inbox, Inbox.take?_masked, Module.delay_masked, now]
    split
    · exact ⟨rfl, h, rfl⟩
    · split
      · rw [← masked_closing]
        have closing : (w.adjustModule m (·.closingUntil (w.now + target.delay .afterStop))).Tame :=
          h.adjustModule m fun _ => rfl
        exact masked_hooking (closing.record _) m (h.hooks.get? found) .afterStop
      · cases target.inbox.take? with
        | none => exact ⟨rfl, h, rfl⟩
        | some taken =>
          obtain ⟨envelope, inbox⟩ := taken
          have tame : (w.took m envelope inbox).Tame := (h.setInbox m inbox).record _
          have there := took_found w envelope inbox found
          simp only [Option.map_some, ← masked_took]
          exact masked_dispatching tame there rfl envelope

theorem masked_finish (w : World) (m : ModuleRef) : (w.finish m).masked = w.masked.finish m :=
  congrArg (·.withdraw m .dispatcher) (masked_change w m (·.ended .finished) fun _ => rfl)

def poseAttend? (w : World) (m : ModuleRef) : Option World :=
  match w.modules.get? m with
  | none => none
  | some target =>
    let called := (w.posingAttend m).1.poseAll (w.posingAttend m).2
    if target.phase ≠ .running then none
    else if target.cancelled then some (if target.delay .afterStop = 0 then called.finish m else called)
    else if target.inbox.take?.isNone then none
    else some called

theorem masked_attend? (h : w.Tame) (m : ModuleRef) : (w.attend? m).map masked = w.masked.poseAttend? m := by
  have ran := (w.attending m).1.masked_runScript (w.attending m).2
  have called : w.masked.posingAttend m = ((w.attending m).1.masked, scriptMasked (w.attending m).2) :=
    (masked_attending h m).1.symm
  unfold attend? poseAttend?
  rw [masked_found]
  rw [called, ← ran]
  unfold attending
  cases found : w.modules.get? m with
  | none => rfl
  | some target =>
    have phase : target.masked.phase = target.phase := rfl
    have cancelled : target.masked.cancelled = target.cancelled := rfl
    have inbox : target.masked.inbox = target.inbox.masked := rfl
    simp only [Option.map_some, phase, cancelled, inbox, Inbox.take?_masked, Module.delay_masked]
    split
    · rfl
    · split
      · rw [Option.map_some, closeDown]
        simp only [callHook_eq, ← masked_finish]
        split <;> rfl
      · cases target.inbox.take? with
        | none => rfl
        | some taken =>
          obtain ⟨envelope, rest⟩ := taken
          obtain ⟨inHand, same⟩ := (w.took m envelope rest).dispatch_eq m target envelope
          simp only [Option.map_some, Option.isNone_some, if_false, Bool.false_eq_true]
          have seen : ((w.took m envelope rest).dispatch m target envelope).masked =
              (((w.took m envelope rest).dispatching m target envelope).1.runScript
                ((w.took m envelope rest).dispatching m target envelope).2).masked := by
            rw [same]
            rfl
          exact congrArg some seen

theorem Tame.attend? (h : w.Tame) {m : ModuleRef} {after : World} (attended : w.attend? m = some after) :
    after.Tame := by
  obtain ⟨-, start, script⟩ := masked_attending h m
  have ran := start.runScript script
  unfold attending at ran
  unfold World.attend? at attended
  cases found : w.modules.get? m with
  | none => simp only [found] at attended; cases attended
  | some target =>
    simp only [found] at attended ran
    split at attended
    · cases attended
    · rename_i running
      rw [if_neg running] at ran
      split at attended
      · rename_i cancelled
        rw [if_pos cancelled] at ran
        obtain rfl := Option.some.inj attended
        simp only [closeDown, callHook_eq]
        split
        · exact (ran.adjustModule (f := (·.ended .finished)) m fun _ => rfl).of_same rfl rfl rfl
        · exact ran
      · rename_i kept
        rw [if_neg kept] at ran
        split at attended
        · cases attended
        · rename_i envelope rest took
          obtain rfl := Option.some.inj attended
          rw [took] at ran
          obtain ⟨inHand, same⟩ := (w.took m envelope rest).dispatch_eq m target envelope
          have after : (World.dispatch (w.took m envelope rest) m target envelope).Tame := by
            rw [same]
            exact ran.of_same rfl rfl rfl
          exact after

/-- The same world, but for its subscribers. -/
structure Alike (w v : World) : Prop where
  seen : w.masked = v.masked
  tame : w.Tame
  other : v.Tame

structure AlikeModule (target there : Module) : Prop where
  seen : target.masked = there.masked
  tame : target.HooksTame
  other : there.HooksTame

theorem AlikeModule.phase {target there : Module} (h : AlikeModule target there) : target.phase = there.phase := by
  have same := congrArg Module.phase h.seen
  exact same

theorem AlikeModule.registry {target there : Module} (h : AlikeModule target there) :
    target.registry = there.registry := by
  have same := congrArg Module.registry h.seen
  exact same

theorem AlikeModule.delay {target there : Module} (h : AlikeModule target there) (kind : HookKind) :
    target.delay kind = there.delay kind := by
  rw [← target.delay_masked, h.seen, there.delay_masked]

variable {v : World} {m : ModuleRef}

theorem Alike.symm (h : Alike w v) : Alike v w := ⟨h.seen.symm, h.other, h.tame⟩

theorem Alike.trans {u : World} (first : Alike w v) (rest : Alike v u) : Alike w u :=
  ⟨first.seen.trans rest.seen, first.tame, rest.other⟩

theorem Alike.both {f : World → World} (h : Alike w v) (seen : ∀ w, (f w).masked = f w.masked)
    (tame : ∀ {w : World}, w.Tame → (f w).Tame) : Alike (f w) (f v) :=
  ⟨by rw [seen, seen, h.seen], tame h.tame, tame h.other⟩

theorem Alike.ready (h : Alike w v) : w.ready = v.ready := by
  have same := congrArg World.ready h.seen
  exact same

theorem Alike.now (h : Alike w v) : w.now = v.now := by
  have same := congrArg World.now h.seen
  exact same

theorem Alike.runtimes (h : Alike w v) : w.runtimes = v.runtimes := by
  have same := congrArg World.runtimes h.seen
  exact same

theorem Alike.registries (h : Alike w v) : w.registries = v.registries := by
  have same := congrArg World.registries h.seen
  exact same

theorem Alike.latest? (h : Alike w v) (name : String) : w.modules.latest? name = v.modules.latest? name := by
  have same := congrArg (·.modules.latest? name) h.seen
  simpa only [masked, Roster.latest?_mapped] using same

theorem Alike.registration? (h : Alike w v) (registry : RegistryRef) (id : ModuleId) :
    w.registration? registry id = v.registration? registry id := by
  rw [World.registration?, World.registration?, h.registries]

theorem rel_of_map {α β : Type} {f : α → β} {R : α → α → Prop} {x y : Option α} (same : x.map f = y.map f)
    (related : ∀ a b, x = some a → y = some b → f a = f b → R a b) : Option.Rel R x y := by
  cases x with
  | none =>
    cases y with
    | none => exact .none
    | some b => cases same
  | some a =>
    cases y with
    | none => cases same
    | some b => exact .some (related a b rfl rfl (Option.some.inj same))

theorem Alike.found (h : Alike w v) (m : ModuleRef) :
    Option.Rel AlikeModule (w.modules.get? m) (v.modules.get? m) := by
  refine rel_of_map (f := Module.masked) ?_ ?_
  · rw [← masked_found, ← masked_found, h.seen]
  · intro target there found here same
    exact ⟨same, h.tame.hooks.get? found, h.other.hooks.get? here⟩

theorem Alike.attend? (h : Alike w v) (m : ModuleRef) : Option.Rel Alike (w.attend? m) (v.attend? m) := by
  refine rel_of_map (f := masked) ?_ ?_
  · rw [masked_attend? h.tame, masked_attend? h.other, h.seen]
  · intro after later attended alsoAttended same
    exact ⟨same, h.tame.attend? attended, h.other.attend? alsoAttended⟩

theorem Alike.setFirstAside (h : Alike w v) : Alike w.setFirstAside v.setFirstAside := by
  refine h.both ?_ ?_
  · intro w
    have same : w.masked.ready = w.ready := rfl
    unfold World.setFirstAside
    rw [same]
    split <;> rfl
  · intro w tame
    obtain ⟨ready, aside, same⟩ := w.setFirstAside_eq
    exact same ▸ tame.of_same rfl rfl rfl

theorem Alike.yield (h : Alike w v) : Alike w.yield v.yield :=
  h.both (fun _ => rfl) fun tame => tame.of_same rfl rfl rfl

theorem Alike.rejoin (h : Alike w v) : Alike w.rejoin v.rejoin :=
  h.both (fun _ => rfl) fun tame => tame.of_same rfl rfl rfl

theorem Alike.turn (h : Alike w v) (m : ModuleRef) (left : Nat) : Alike (w.turn m left) (v.turn m left) := by
  induction left generalizing w v with
  | zero => exact h.setFirstAside
  | succ left ih =>
    have next := h.attend? m
    unfold World.turn
    generalize w.attend? m = here at next
    generalize v.attend? m = there at next
    cases next with
    | none => exact h.yield
    | some alike => exact ih alike

theorem Alike.round (h : Alike w v) (left : Nat) : Alike (w.round left) (v.round left) := by
  induction left generalizing w v with
  | zero => exact h
  | succ left ih =>
    unfold World.round
    rw [h.ready]
    split
    · exact h
    · exact ih (h.turn _ _)

theorem Alike.runUntil (h : Alike w v) (seen : World → Bool) (same : ∀ {w v}, Alike w v → seen w = seen v) :
    Alike (w.runUntil seen) (v.runUntil seen) := by
  fun_induction World.runUntil w seen generalizing v with
  | case1 w line =>
    have waiting : v.rejoin.ready = [] := h.rejoin.ready ▸ line
    unfold World.runUntil
    rw [dif_pos waiting]
    exact h.rejoin
  | case2 w line found =>
    have waiting : v.rejoin.ready ≠ [] := h.rejoin.ready ▸ line
    have alsoFound : seen v.rejoin = true := same h.rejoin ▸ found
    unfold World.runUntil
    rw [dif_neg waiting, if_pos alsoFound]
    exact h.rejoin
  | case3 w line unseen ih =>
    have waiting : v.rejoin.ready ≠ [] := h.rejoin.ready ▸ line
    have alsoUnseen : ¬ seen v.rejoin = true := same h.rejoin ▸ unseen
    rw [World.runUntil.eq_def v, dif_neg waiting, if_neg alsoUnseen]
    exact ih (h.rejoin.round _)

theorem Alike.settle (h : Alike w v) : Alike w.settle v.settle := h.runUntil _ fun _ => rfl

theorem masked_hookOver (w : World) (m : ModuleRef) (target : Module) (kind : HookKind) :
    (w.hookOver m target kind).masked = w.masked.hookOver m target.masked kind := by
  unfold hookOver
  rw [Module.delay_masked, Module.tag_masked]
  split
  · rfl
  · exact masked_record rfl

theorem Tame.hookOver (h : w.Tame) (m : ModuleRef) (target : Module) (kind : HookKind) :
    (w.hookOver m target kind).Tame := by
  unfold World.hookOver
  split
  · exact h
  · exact h.record _

theorem Alike.hookOver (h : Alike w v) {target there : Module} (same : AlikeModule target there) (m : ModuleRef)
    (kind : HookKind) : Alike (w.hookOver m target kind) (v.hookOver m there kind) :=
  ⟨by rw [masked_hookOver, masked_hookOver, h.seen, same.seen], h.tame.hookOver m _ _, h.other.hookOver m _ _⟩

theorem Alike.adjustModule (h : Alike w v) (m : ModuleRef) {f : Module → Module}
    (seen : ∀ target, (f target).masked = f target.masked) (kept : ∀ target, (f target).hook? = target.hook?) :
    Alike (w.adjustModule m f) (v.adjustModule m f) :=
  h.both (fun w => masked_change w m f seen) fun tame => tame.adjustModule m kept

theorem Alike.ended (h : Alike w v) (m : ModuleRef) (phase : Phase) :
    Alike (w.adjustModule m (·.ended phase)) (v.adjustModule m (·.ended phase)) :=
  h.adjustModule m (fun _ => rfl) fun _ => rfl

theorem Alike.grant (h : Alike w v) (m : ModuleRef) (holder : Holder) : Alike (w.grant m holder) (v.grant m holder) :=
  h.both (f := (·.grant m holder)) (fun _ => rfl) fun tame => tame.of_same rfl rfl rfl

theorem Alike.withdraw (h : Alike w v) (m : ModuleRef) (holder : Holder) :
    Alike (w.withdraw m holder) (v.withdraw m holder) :=
  h.both (f := (·.withdraw m holder)) (fun _ => rfl) fun tame => tame.of_same rfl rfl rfl

theorem Alike.handOn (h : Alike w v) (m : ModuleRef) : Alike (w.handOn m) (v.handOn m) :=
  ((h.withdraw m .own).grant m .dispatcher).grant m .caller

theorem Alike.discard (h : Alike w v) (m : ModuleRef) : Alike (w.discard m) (v.discard m) :=
  (h.ended m .dropped).withdraw m .own

theorem Alike.restOver (h : Alike w v) (m : ModuleRef) : Alike (w.restOver m) (v.restOver m) := by
  have there := h.found m
  unfold World.restOver
  generalize w.modules.get? m = target at there
  generalize v.modules.get? m = other at there
  cases there with
  | none => exact h
  | some same => exact ((h.hookOver same m .afterStop).ended m .finished).withdraw m .dispatcher

theorem masked_due (w : World) (limit : Nat) : w.masked.due limit = w.due limit := by
  simp only [due, masked, Roster.mapped, List.filterMap_map]
  rfl

theorem Alike.advance (h : Alike w v) (limit : Nat) : Alike (w.advance limit) (v.advance limit) := by
  have same : w.due limit = v.due limit := by rw [← masked_due, h.seen, masked_due]
  have rested : ∀ (entries : List (Nat × ModuleRef)) {w v : World}, Alike w v →
      Alike (entries.foldl (fun w entry => w.restOver entry.2) w)
        (entries.foldl (fun w entry => w.restOver entry.2) v) := by
    intro entries
    induction entries with
    | nil => exact id
    | cons entry rest ih => exact fun alike => ih (alike.restOver entry.2)
  unfold World.advance
  rw [same]
  exact (rested _ h).both (f := fun w => { w with now := limit }) (fun _ => rfl) fun tame => tame.of_same rfl rfl rfl

theorem Alike.elapse (h : Alike w v) (milliseconds : Nat) : Alike (w.elapse milliseconds) (v.elapse milliseconds) := by
  unfold World.elapse
  dsimp only
  rw [h.settle.now]
  exact h.settle.advance _

theorem Alike.setPhase (h : Alike w v) (m : ModuleRef) (phase : Phase) :
    Alike (w.setPhase m phase) (v.setPhase m phase) :=
  h.adjustModule (f := fun target => { target with phase }) m (fun _ => rfl) fun _ => rfl

theorem Alike.wake (h : Alike w v) (m : ModuleRef) : Alike (w.wake m) (v.wake m) :=
  h.both (fun w => masked_wake w m) fun tame => tame.wake m

theorem Alike.register (h : Alike w v) (registry : RegistryRef) (m : ModuleRef) :
    Alike (w.register registry m) (v.register registry m) :=
  h.both (f := (·.register registry m)) (fun _ => rfl) fun tame => tame.of_same rfl rfl rfl

theorem Alike.deregister (h : Alike w v) (registry : RegistryRef) :
    Alike (w.deregister registry) (v.deregister registry) :=
  h.both (f := (·.deregister registry)) (fun _ => rfl) fun tame => tame.of_same rfl rfl rfl

theorem Alike.newRuntime (h : Alike w v) (name : String) : Alike (w.newRuntime name) (v.newRuntime name) :=
  h.both (f := (·.newRuntime name)) (fun _ => rfl) fun tame => tame.of_same rfl rfl rfl

theorem Alike.ensureRuntime (h : Alike w v) (name : String) : Alike (w.ensureRuntime name) (v.ensureRuntime name) := by
  unfold World.ensureRuntime
  rw [h.runtimes]
  split
  · exact h
  · exact h.newRuntime name

theorem Alike.dropRuntime (h : Alike w v) (name : String) : Alike (w.dropRuntime name) (v.dropRuntime name) :=
  h.both (f := (·.dropRuntime name)) (fun _ => rfl) fun tame => tame.of_same rfl rfl rfl

theorem Alike.cloneRuntime (h : Alike w v) (name source : String) :
    Alike (w.cloneRuntime name source) (v.cloneRuntime name source) := by
  have ensured := h.ensureRuntime source
  unfold World.cloneRuntime
  dsimp only
  rw [ensured.runtimes]
  split
  · exact ensured
  · rename_i registry _
    exact ensured.both
      (f := fun after => { after with runtimes := ((v.ensureRuntime source).runtimes.remove name).add name registry })
      (fun _ => rfl) fun tame => tame.of_same rfl rfl rfl

theorem Alike.ensureDevice (h : Alike w v) (name : String) : Alike (w.ensureDevice name) (v.ensureDevice name) :=
  h.both (fun w => masked_ensureDevice w name) fun tame => tame.ensureDevice name

theorem Alike.idle? (h : Alike w v) (name : String) :
    Option.Rel (fun found there => found.1 = there.1 ∧ AlikeModule found.2 there.2) (w.idle? name) (v.idle? name) := by
  unfold World.idle?
  rw [h.latest?]
  split
  · exact .none
  · rename_i m _
    have there := h.found m
    generalize w.modules.get? m = target at there
    generalize v.modules.get? m = other at there
    cases there with
    | none => exact .none
    | some same =>
      rename_i target other
      have phase : target.phase = other.phase := same.phase
      dsimp only
      rw [phase]
      split
      · exact .some ⟨rfl, same⟩
      · exact .none

theorem Alike.dropIdle (h : Alike w v) (name : String) : Alike (w.dropIdle name) (v.dropIdle name) := by
  have idle := h.idle? name
  unfold World.dropIdle
  generalize w.idle? name = found at idle
  generalize v.idle? name = there at idle
  cases idle with
  | none => exact h
  | some same =>
    dsimp only
    rw [same.1]
    exact h.discard _

theorem Alike.addModule (h : Alike w v) (name : String) {target there : Module} (same : AlikeModule target there) :
    Alike (w.addModule name target) (v.addModule name there) := by
  have modules : w.modules.mapped Module.masked = v.modules.mapped Module.masked := by
    have modules := congrArg World.modules h.seen
    exact modules
  have next : w.modules.nextRef name = v.modules.nextRef name := by
    rw [← Roster.nextRef_mapped w.modules Module.masked, modules, Roster.nextRef_mapped]
  constructor
  case seen =>
    have rest := h.seen
    simp only [masked, mk.injEq] at rest ⊢
    simp only [World.addModule, World.grant, Roster.mapped_add, next, same.seen, modules, rest, and_self]
  case tame => exact ⟨h.tame.hooks.add same.tame, h.tame.devices, h.tame.subscribers⟩
  case other => exact ⟨h.other.hooks.add same.other, h.other.devices, h.other.subscribers⟩

theorem AlikeModule.install {target there : Module} (same : AlikeModule target there) (kind : HookKind) {hook : Hook}
    (tame : scriptTame hook.script = true) :
    AlikeModule (target.install kind hook) (there.install kind hook.masked) := by
  obtain ⟨twice, fine⟩ := hook.masked_masked
  constructor
  case seen =>
    have seen := same.seen
    cases kind <;>
    · simp only [Module.masked, Module.install, Option.map_some, twice, Module.mk.injEq] at seen ⊢
      simp only [seen, and_self]
  case tame =>
    intro other installed found
    rw [install_hook?] at found
    split at found
    · cases found
      exact tame
    · exact same.tame other installed found
  case other =>
    intro other installed found
    rw [install_hook?] at found
    split at found
    · cases found
      exact fine
    · exact same.other other installed found

theorem AlikeModule.installAll {target there : Module} (same : AlikeModule target there)
    {hooks : List (HookKind × Hook)} (tame : hooks.all (fun hook => scriptTame hook.2.script) = true) :
    AlikeModule (hooks.foldl (fun target hook => target.install hook.1 hook.2) target)
      ((hooks.map fun hook => (hook.1, hook.2.masked)).foldl (fun target hook => target.install hook.1 hook.2)
        there) := by
  induction hooks generalizing target there with
  | nil => exact same
  | cons hook rest ih =>
    rw [List.all_cons, Bool.and_eq_true] at tame
    exact ih (same.install hook.1 tame.1) tame.2

structure AlikeOutcome (outcome other : World × Answer) : Prop where
  world : Alike outcome.1 other.1
  answer : outcome.2 = other.2

variable {w v : World}

theorem Alike.build? (h : Alike w v) {plan : Plan} (tame : plan.isTame = true) (settings : Settings) :
    Option.Rel Alike (w.build? plan.name plan.runtime plan.device settings plan.hooks)
      (v.build? plan.name plan.runtime plan.device settings plan.masked.hooks) := by
  unfold World.build?
  rw [h.runtimes]
  split
  · rename_i registry inbox _ _
    refine .some ((h.dropIdle plan.name).addModule plan.name (AlikeModule.installAll ⟨rfl, ?_, ?_⟩ tame))
    · intro kind hook found
      cases kind <;> cases found
    · intro kind hook found
      cases kind <;> cases found
  · exact .none

theorem Alike.follow? (h : Alike w v) {plan : Plan} (tame : plan.isTame = true) :
    Option.Rel AlikeOutcome (w.follow? plan) (v.follow? plan.masked) := by
  have ready := (h.ensureRuntime plan.runtime).ensureDevice plan.device
  unfold World.follow? Plan.masked
  cases plan.settings with
  | none => exact .some ⟨ready, rfl⟩
  | some settings =>
    exact rel_map (ready.build? tame settings) fun alike => ⟨alike, rfl⟩

theorem Alike.callHook (h : Alike w v) (m : ModuleRef) {target there : Module} (same : AlikeModule target there)
    (kind : HookKind) : Alike (w.callHook m target kind) (v.callHook m there kind) := by
  obtain ⟨seen, tame⟩ := masked_hooking h.tame m same.tame kind
  obtain ⟨alsoSeen, alsoTame⟩ := masked_hooking h.other m same.other kind
  have alike : maskedScript (w.hooking m target kind) = maskedScript (v.hooking m there kind) := by
    rw [seen, alsoSeen, h.seen, same.seen]
  simp only [maskedScript, Prod.mk.injEq] at alike
  rw [callHook_eq, callHook_eq]
  refine ⟨?_, tame.world.runScript tame.script, alsoTame.world.runScript alsoTame.script⟩
  rw [masked_runScript, masked_runScript, alike.1, alike.2]

theorem Alike.enrol (h : Alike w v) (m : ModuleRef) {target there : Module} (same : AlikeModule target there) :
    Alike (w.enrol m target) (v.enrol m there) := by
  unfold World.enrol
  rw [same.registry]
  exact ((h.register _ m).setPhase m .launching).callHook m same .beforeStart

theorem Alike.spawn (h : Alike w v) (m : ModuleRef) {target there : Module} (same : AlikeModule target there) :
    Alike (w.spawn m target) (v.spawn m there) :=
  (((h.hookOver same m .beforeStart).setPhase m .running).handOn m).wake m

theorem Alike.launch (h : Alike w v) (name : String) : AlikeOutcome (w.launch name) (v.launch name) := by
  have idle := h.idle? name
  unfold World.launch
  generalize w.idle? name = found at idle
  generalize v.idle? name = other at idle
  cases idle with
  | none => exact ⟨h, rfl⟩
  | some both =>
    rename_i found other
    obtain ⟨m, target⟩ := found
    obtain ⟨n, there⟩ := other
    obtain ⟨rfl, same⟩ := both
    dsimp only
    rw [same.registry, h.registration?]
    cases v.registration? there.registry .wlc with
    | some holder => exact ⟨h.discard m, rfl⟩
    | none =>
      refine ⟨Alike.spawn ?_ m same, rfl⟩
      unfold World.awaitFirstHook
      rw [same.delay]
      split
      · exact h.enrol m same
      · exact (h.enrol m same).elapse _

theorem Alike.cancel (h : Alike w v) (m : ModuleRef) : Alike (w.cancel m) (v.cancel m) :=
  (h.adjustModule (f := fun target => { target with cancelled := true }) m (fun _ => rfl) fun _ => rfl).wake m

theorem Alike.isLive (h : Alike w v) (m : ModuleRef) : w.isLive m = v.isLive m := by
  have there := h.found m
  unfold World.isLive
  generalize w.modules.get? m = target at there
  generalize v.modules.get? m = other at there
  cases there with
  | none => rfl
  | some same => simp only [Option.any_some, same.phase]

theorem Alike.endOfDispatcher? (h : Alike w v) (m : ModuleRef) : w.endOfDispatcher? m = v.endOfDispatcher? m := by
  have there := h.found m
  unfold World.endOfDispatcher?
  generalize w.modules.get? m = target at there
  generalize v.modules.get? m = other at there
  cases there with
  | none => rfl
  | some same => simp only [same.phase]

theorem Alike.stop (h : Alike w v) (m : ModuleRef) : AlikeOutcome (w.stop m) (v.stop m) := by
  have there := h.found m
  unfold World.stop
  generalize w.modules.get? m = found at there
  generalize v.modules.get? m = other at there
  cases there with
  | none => exact ⟨h, rfl⟩
  | some same =>
    rename_i target there
    have limit : target.stopLimit = there.stopLimit := by
      have seen := congrArg Module.stopLimit same.seen
      exact seen
    have cancelled := h.cancel m
    have waited := cancelled.runUntil (fun w => !w.isLive m) fun alike => by rw [alike.isLive]
    dsimp only
    rw [same.phase, same.registry, limit, waited.endOfDispatcher?, waited.now]
    split
    · exact ⟨cancelled.deregister _, rfl⟩
    · split
      · exact ⟨cancelled, rfl⟩
      · split
        · exact ⟨waited.deregister _, rfl⟩
        · split
          · exact ⟨(waited.advance _).deregister _, rfl⟩
          · exact ⟨waited.advance _, rfl⟩

theorem Alike.stopNamed (h : Alike w v) (name : String) : AlikeOutcome (w.stopNamed name) (v.stopNamed name) := by
  unfold World.stopNamed
  rw [h.latest?]
  split
  · exact ⟨h, rfl⟩
  · exact h.stop _

theorem Alike.shutdown (h : Alike w v) (runtime : String) : AlikeOutcome (w.shutdown runtime) (v.shutdown runtime) := by
  unfold World.shutdown
  simp only [h.runtimes, h.registration?]
  split
  · exact ⟨h, rfl⟩
  · exact h.stop _

theorem AlikeOutcome.settled {outcome other : World × Answer} (h : AlikeOutcome outcome other) :
    AlikeOutcome (World.settled outcome) (World.settled other) := ⟨h.world.settle, h.answer⟩

theorem Alike.perform (h : Alike w v) {action posed : Action} (tame : action.isTame = true)
    (kept : action.masked? = some posed) : AlikeOutcome (w.perform action) (v.perform posed) := by
  obtain ⟨same, fine⟩ := action.masked?_masked posed kept
  have here := masked_perform w kept
  rw [h.seen, masked_perform v same, Prod.mk.injEq] at here
  exact ⟨⟨here.1.symm, h.tame.perform tame, h.other.perform fine⟩, here.2.symm⟩

theorem Alike.performHidden (h : Alike w v) {action : Action} (tame : action.isTame = true)
    (hidden : action.masked? = none) : Alike (w.perform action).1 v :=
  ⟨by rw [masked_perform_hidden w hidden, h.seen], h.tame.perform tame, h.other⟩

end World

end WirelessCharging
