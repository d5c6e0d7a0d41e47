import WirelessCharging.Settings.Document
import WirelessCharging.Proofs.Posting
/-!
The room in an inbox. An inbox keeps the capacity that it is made with, and a submission to it is answered with ok
as long as fewer envelopes than that wait. Settings are read without a look at what an inbox can be made for: the
least capacity is seen to when the inbox is made, the greatest is not.
-/
namespace WirelessCharging

variable {move : Move}

theorem Inbox.post_of_receiving {inbox : Inbox} (receiving : inbox.isReceiving = true) (envelope : Envelope) :
    inbox.post envelope = if inbox.queue.length < inbox.capacity then
      .ok { inbox with queue := inbox.queue ++ [envelope] } else .error .inboxFull := by
  simp only [post, receiving, Bool.not_true, Bool.false_eq_true, if_false]
  by_cases full : inbox.capacity ≤ inbox.queue.length
  · rw [if_pos full, if_neg (Nat.not_lt.2 full)]
  · rw [if_neg full, if_pos (Nat.lt_of_not_le full)]

theorem Inbox.ofCapacity?_isSome {requested : Nat} :
    (ofCapacity? requested).isSome = true ↔ requested ≤ greatestCapacity := by
  unfold ofCapacity?
  dsimp only
  split
  · rename_i fits
    simp only [Option.isSome_some, true_iff]
    omega
  · rename_i too_large
    simp only [Option.isSome_none, Bool.false_eq_true, false_iff]
    simp only [greatestCapacity] at *
    omega

theorem Becomes.capacity {w later : World} {m : ModuleRef} {before after : Module} {more gone : List Envelope}
    (h : Becomes move w later m (some before) (some after) more gone) :
    after.inbox.capacity = before.inbox.capacity := by
  cases h with
  | took running kept took named => rw [Inbox.take?_eq_some.1 took]; rfl
  | _ => rfl

theorem Changes.capacity {w later : World} (h : Changes w later) {m : ModuleRef} {before after : Module}
    (found : w.modules.get? m = some before) (there : later.modules.get? m = some after) :
    after.inbox.capacity = before.inbox.capacity :=
  Changes.keepModule (P := fun target => target.inbox.capacity = before.inbox.capacity)
    (fun becomes same => becomes.capacity.trans same) h found rfl there

/-- A submission is answered with ok as long as fewer envelopes than `room` wait, and is told otherwise that the
inbox is full. -/
structure World.TakesUpTo (w : World) (m : ModuleRef) (room : Nat) : Prop where
  posts : ∀ envelope, (w.submit m envelope).2 =
    if (w.accepted m).length < (w.taken m).length + room then .ok else .refused .inboxFull
  calls : ∀ action envelope, w.submission? action = some (m, envelope) → (w.perform action).2 =
    if (w.accepted m).length < (w.taken m).length + room then .ok else .refused .inboxFull

namespace World

theorem takesUpTo_capacity {w : World} (occurs : w.Occurs) {m : ModuleRef} {target : Module}
    (found : w.modules.get? m = some target) (receiving : target.inbox.isReceiving = true) :
    w.TakesUpTo m target.inbox.capacity := by
  have conserved := occurs.conserved m
  rw [found] at conserved
  have kept : target.inbox.state ≠ .discarded := by
    rw [Inbox.isReceiving_iff.1 receiving]
    intro same
    cases same
  have length : (w.accepted m).length = (w.taken m).length + target.inbox.queue.length := by
    rw [conserved.waiting kept, List.length_append]
  have posts : ∀ envelope, (w.submit m envelope).2 =
      if (w.accepted m).length < (w.taken m).length + target.inbox.capacity then .ok
      else .refused .inboxFull := by
    intro envelope
    simp only [submit, found, Inbox.post_of_receiving receiving, length, Nat.add_lt_add_iff_left]
    by_cases room : target.inbox.queue.length < target.inbox.capacity
    · simp only [room, if_true]
    · simp only [room, if_false]
  constructor
  case posts => exact posts
  case calls =>
    intro action envelope handed
    rw [perform_answer handed, posts]

theorem install_inbox (target : Module) (hooks : List (HookKind × Hook)) :
    (hooks.foldl (fun target hook => target.install hook.1 hook.2) target).inbox = target.inbox := by
  induction hooks generalizing target with
  | nil => rfl
  | cons hook rest ih =>
    obtain ⟨kind, hook⟩ := hook
    rw [List.foldl_cons, ih]
    cases kind <;> rfl

theorem ensureRuntime_known (w : World) (name : String) :
    ∃ registry, (w.ensureRuntime name).runtimes.get? name = some registry := by
  unfold ensureRuntime
  split
  · rename_i registry known
    exact ⟨registry, known⟩
  · exact ⟨w.registries.nextRef name, by rw [newRuntime, Roster.get?_replace, if_pos rfl]⟩

theorem ensureDevice_runtimes (w : World) (name : String) : (w.ensureDevice name).runtimes = w.runtimes := by
  unfold ensureDevice
  split <;> rfl

structure BuiltAs (w after : World) (plan : Plan) (settings : Settings) (m : ModuleRef) (target : Module) :
    Prop where
  new : w.modules.get? m = none
  named : after.modules.latest? plan.name = some m
  found : after.modules.get? m = some target
  fresh : target.IsFresh
  capacity : target.inbox.capacity = max 1 settings.inboxCapacity

theorem follow?_eq (w : World) {plan : Plan} {settings : Settings} (given : plan.settings = some settings) :
    w.follow? plan = (((w.ensureRuntime plan.runtime).ensureDevice plan.device).build? plan.name plan.runtime
      plan.device settings plan.hooks).map (·, .ok) := by
  unfold follow?
  rw [given]

theorem build?_isSome {w : World} {name runtime device : String} {settings : Settings}
    {hooks : List (HookKind × Hook)} {registry : RegistryRef} (known : w.runtimes.get? runtime = some registry) :
    (w.build? name runtime device settings hooks).isSome = true ↔
      settings.inboxCapacity ≤ Inbox.greatestCapacity := by
  rw [← Inbox.ofCapacity?_isSome, build?, known]
  cases Inbox.ofCapacity? settings.inboxCapacity with
  | none => simp
  | some inbox => simp

theorem dropIdle_eq (w : World) (name : String) : ∃ modules senders, w.dropIdle name = { w with modules, senders } := by
  unfold dropIdle
  split
  · exact ⟨w.modules, w.senders, rfl⟩
  · exact ⟨_, _, rfl⟩

theorem ensured_eq (w : World) (runtime device : String) : ∃ registries runtimes devices,
    (w.ensureRuntime runtime).ensureDevice device = { w with registries, runtimes, devices } := by
  simp only [ensureRuntime, newRuntime, ensureDevice]
  split
  · split <;> exact ⟨_, _, _, rfl⟩
  · split <;> exact ⟨_, _, _, rfl⟩

theorem follow?_only {w after : World} {plan : Plan} {answer : Answer} (h : w.follow? plan = some (after, answer)) :
    ∃ registries runtimes modules devices senders,
      after = { w with registries, runtimes, modules, devices, senders } := by
  obtain ⟨registries, runtimes, devices, ensured⟩ := w.ensured_eq plan.runtime plan.device
  cases given : plan.settings with
  | none =>
    simp only [follow?, given, Option.some.injEq, Prod.mk.injEq] at h
    exact ⟨registries, runtimes, w.modules, devices, w.senders, h.1.symm.trans ensured⟩
  | some settings =>
    rw [w.follow?_eq given] at h
    obtain ⟨built, builds, outcome⟩ := Option.map_eq_some_iff.1 h
    obtain ⟨rfl, -⟩ := Prod.mk.inj outcome
    unfold build? at builds
    split at builds
    · obtain ⟨modules, senders, dropped⟩ := dropIdle_eq ((w.ensureRuntime plan.runtime).ensureDevice plan.device) plan.name
      rw [dropped, ensured] at builds
      exact ⟨registries, runtimes, _, devices, _, (Option.some.inj builds).symm⟩
    · cases builds

theorem dropIdle_keys (w : World) (name : String) : (w.dropIdle name).modules.keys = w.modules.keys := by
  unfold dropIdle
  split
  · rfl
  · exact Roster.keys_adjust _ _ _

theorem build?_builds {w after : World} (numbered : w.modules.Numbered) {plan : Plan} {settings : Settings}
    (h : w.build? plan.name plan.runtime plan.device settings plan.hooks = some after) :
    ∃ m target, w.BuiltAs after plan settings m target := by
  unfold build? at h
  split at h
  · rename_i registry inbox known made
    obtain rfl := Option.some.inj h
    obtain rfl := Inbox.eq_of_ofCapacity? made
    have keys := w.dropIdle_keys plan.name
    have still : (w.dropIdle plan.name).modules.Numbered := by
      rw [Roster.Numbered, keys]
      exact numbered
    refine ⟨_, _, ?_, Roster.latest?_add_nextRef _ _ _, Roster.get?_add_nextRef still _ _, ?_, ?_⟩
    · cases there : w.modules.get? ((w.dropIdle plan.name).modules.nextRef plan.name) with
      | none => rfl
      | some target =>
        have taken := Roster.mem_keys_of_get? there
        rw [← keys] at taken
        exact absurd taken (Roster.nextRef_notMem still _)
    · exact install_isFresh ⟨rfl, rfl, rfl, rfl, rfl⟩ plan.hooks
    · rw [install_inbox]
  · cases h

theorem follow?_isSome (w : World) {plan : Plan} {settings : Settings} (given : plan.settings = some settings) :
    (w.follow? plan).isSome = true ↔ settings.inboxCapacity ≤ Inbox.greatestCapacity := by
  obtain ⟨registry, known⟩ := w.ensureRuntime_known plan.runtime
  rw [w.follow?_eq given, Option.isSome_map]
  apply build?_isSome
  rw [ensureDevice_runtimes]
  exact known

theorem ensured_modules (w : World) (runtime device : String) :
    ((w.ensureRuntime runtime).ensureDevice device).modules = w.modules := by
  obtain ⟨registries, runtimes, devices, same⟩ := w.ensured_eq runtime device
  rw [same]

theorem follow?_builds {w after : World} (numbered : w.modules.Numbered) {plan : Plan} {settings : Settings}
    {answer : Answer} (given : plan.settings = some settings) (h : w.follow? plan = some (after, answer)) :
    answer = .ok ∧ ∃ m target, w.BuiltAs after plan settings m target := by
  have same := w.ensured_modules plan.runtime plan.device
  rw [w.follow?_eq given] at h
  obtain ⟨built, builds, outcome⟩ := Option.map_eq_some_iff.1 h
  obtain ⟨rfl, rfl⟩ := Prod.mk.inj outcome
  obtain ⟨m, target, new, named, found, fresh, capacity⟩ := build?_builds (same ▸ numbered) builds
  exact ⟨rfl, m, target, same ▸ new, named, found, fresh, capacity⟩

/-- Whatever document the settings are read from, a module can be built from them exactly if the capacity that they
give is one that an inbox can be made for. The module is then idle, and as long as its inbox is not closed it takes
as many submissions as were asked for, or one where none were asked for, before it is full. -/
theorem read_settings_build_iff_makeable {document : String} {settings : Settings}
    (read : Settings.read? document = some settings) {w : World} (reached : w.Reachable) {plan : Plan}
    (given : plan.settings = Settings.read? document) :
    ((w.follow? plan).isSome = true ↔ settings.inboxCapacity ≤ Inbox.greatestCapacity) ∧
      ∀ after answer, w.follow? plan = some (after, answer) → answer = .ok ∧
        ∃ m target, w.BuiltAs after plan settings m target ∧
          ∀ later there, Changes after later → later.modules.get? m = some there →
            there.inbox.isReceiving = true → later.TakesUpTo m (max 1 settings.inboxCapacity) := by
  rw [read] at given
  refine ⟨w.follow?_isSome given, ?_⟩
  intro after answer followed
  obtain ⟨ok, m, target, built⟩ := follow?_builds reached.numbered given followed
  refine ⟨ok, m, target, built, ?_⟩
  intro later there changes found receiving
  have building : ChangesIn (.build plan) w after := follow_changes followed
  have occurs : later.Occurs := (reached.changes.trans building.changes).trans changes
  have capacity := Changes.capacity changes built.found found
  rw [built.capacity] at capacity
  exact capacity ▸ takesUpTo_capacity occurs found receiving

def noRoom : String := "[limits]
inbox_capacity = 0
"

theorem module_built_without_room : ∃ after m, Settings.read? noRoom = some { inboxCapacity := 0 } ∧
    ({} : World).follow? ⟨"a", "r", "d", Settings.read? noRoom, []⟩ = some (after, .ok) ∧ after.TakesUpTo m 1 := by
  have read : Settings.read? noRoom = some { inboxCapacity := 0 } := by decide +kernel
  have given : (⟨"a", "r", "d", Settings.read? noRoom, []⟩ : Plan).settings = Settings.read? noRoom := rfl
  obtain ⟨builds, built⟩ := read_settings_build_iff_makeable read reachable_empty given
  obtain ⟨⟨after, answer⟩, followed⟩ := Option.isSome_iff_exists.1 (builds.2 (by decide))
  obtain ⟨rfl, m, target, there, room⟩ := built after answer followed
  exact ⟨after, m, read, followed, room after target .refl there.found there.fresh.receiving⟩

def tooMuchRoom : String := "[limits]
inbox_capacity = 2305843009213693952
"

theorem no_module_built_with_too_much_room :
    Settings.read? tooMuchRoom = some { inboxCapacity := 2305843009213693952 } ∧
      ({} : World).follow? ⟨"a", "r", "d", Settings.read? tooMuchRoom, []⟩ = none := by
  have read : Settings.read? tooMuchRoom = some { inboxCapacity := 2305843009213693952 } := by decide +kernel
  refine ⟨read, ?_⟩
  rw [read]
  rfl

end World

end WirelessCharging
