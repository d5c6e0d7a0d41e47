import WirelessCharging.Proofs.Transfer
/-!
What is left of a world if it is left out which subscribers there are, who is alive and who is told of what. An
action that is only about subscribers is left out as well, and an enable is an enable for anybody. Scripts are tame
where callbacks do nothing but such actions. In a tame world what remains after a move depends on what remained
before it, and nothing else.
-/
namespace WirelessCharging

namespace Roster

variable {κ α β : Type}

def mapped (roster : Roster κ α) (f : α → β) : Roster κ β := roster.map fun entry => (entry.1, f entry.2)

def Every (P : κ → α → Prop) (roster : Roster κ α) : Prop := ∀ entry ∈ roster, P entry.1 entry.2

variable {P : κ → α → Prop} {roster : Roster κ α}

@[simp] theorem keys_mapped (roster : Roster κ α) (f : α → β) : (roster.mapped f).keys = roster.keys := by
  simp only [keys, mapped, List.map_map]
  rfl

@[simp] theorem mapped_add (roster : Roster κ α) (f : α → β) (key : κ) (a : α) :
    (roster.add key a).mapped f = (roster.mapped f).add key (f a) := List.map_append

theorem Every.add (h : roster.Every P) {key : κ} {a : α} (new : P key a) : (roster.add key a).Every P :=
  List.forall_mem_append.2 ⟨h, List.forall_mem_singleton.2 new⟩

variable [DecidableEq κ]

@[simp] theorem get?_mapped (roster : Roster κ α) (f : α → β) (key : κ) :
    (roster.mapped f).get? key = (roster.get? key).map f := by
  induction roster with
  | nil => rfl
  | cons entry rest ih =>
    by_cases h : entry.1 = key
    · simp [mapped, get?, h]
    · simp only [mapped, List.map_cons, get?, h, if_false]
      exact ih

theorem mapped_adjust (roster : Roster κ α) {f : α → β} {g : α → α} {g' : β → β} (key : κ)
    (same : ∀ a, roster.get? key = some a → f (g a) = g' (f a)) :
    (roster.adjust key g).mapped f = (roster.mapped f).adjust key g' := by
  induction roster with
  | nil => rfl
  | cons entry rest ih =>
    by_cases h : entry.1 = key
    · have here := same entry.2 (by simp only [get?, h, if_true])
      simp [mapped, adjust, h, here]
    · have later := ih fun a found => same a (by simpa only [get?, h, if_false] using found)
      simp only [mapped] at later
      simp [mapped, adjust, h, later]

theorem Every.get? (h : roster.Every P) {key : κ} {a : α} (found : roster.get? key = some a) : P key a :=
  h _ (mem_of_get? found)

theorem Every.adjust (h : roster.Every P) {key : κ} {f : α → α} (kept : ∀ a, P key a → P key (f a)) :
    (roster.adjust key f).Every P := by
  induction roster with
  | nil => exact h
  | cons entry rest ih =>
    obtain ⟨here, later⟩ := List.forall_mem_cons.1 h
    by_cases same : entry.1 = key
    · subst same
      simp only [Roster.adjust, if_true]
      exact List.forall_mem_cons.2 ⟨kept _ here, later⟩
    · simp only [Roster.adjust, same, if_false]
      exact List.forall_mem_cons.2 ⟨here, ih later⟩

theorem named_mapped (roster : Roster Ref α) (f : α → β) (name : String) :
    (roster.mapped f).named name = (roster.named name).mapped f := by
  simp only [named, mapped, List.filter_map]
  rfl

@[simp] theorem latest?_mapped (roster : Roster Ref α) (f : α → β) (name : String) :
    (roster.mapped f).latest? name = roster.latest? name := by
  rw [latest?, latest?, named_mapped, mapped, List.getLast?_map, Option.map_map]
  rfl

@[simp] theorem nextRef_mapped (roster : Roster Ref α) (f : α → β) (name : String) :
    (roster.mapped f).nextRef name = roster.nextRef name := by
  rw [nextRef, nextRef, named_mapped, mapped, List.length_map]

end Roster

theorem rel_map {α β : Type} {R : α → α → Prop} {S : β → β → Prop} {x y : Option α} {f : α → β} (h : Option.Rel R x y)
    (image : ∀ {a b}, R a b → S (f a) (f b)) : Option.Rel S (x.map f) (y.map f) := by
  cases h with
  | none => exact .none
  | some related => exact .some (image related)

/-- Stands for whatever subscriber there is. -/
def anybody : SubscriberRef := ⟨"", 0⟩

def Request.masked : Request → Request
  | .enable _ => .enable anybody
  | .start mode => .start mode
  | .transfer power duration => .transfer power duration

def Envelope.masked : Envelope → Envelope
  | .request asked => .request asked.masked
  | .notification told => .notification told

mutual

def Action.masked? : Action → Option Action
  | .enable name none => some (.enable name none)
  | .enable name (some _) => some (.enable name (some anybody.name))
  | .start name mode => some (.start name mode)
  | .transfer name power duration => some (.transfer name power duration)
  | .notify name notification => some (.notify name notification)
  | .reply transfer notification => some (.reply transfer notification)
  | .setDevice name change none => some (.setDevice name change none)
  | .setDevice name change (some scripts) => some (.setDevice name change (some (scriptsMasked scripts)))
  | .subscribe _ _ _ => none
  | .release _ => none
  | .query _ _ _ => none

def scriptMasked : List Action → List Action
  | [] => []
  | action :: rest => action.masked?.toList ++ scriptMasked rest

def scriptsMasked : List (List Action) → List (List Action)
  | [] => []
  | script :: scripts => scriptMasked script :: scriptsMasked scripts

end

mutual

/-- Whatever callbacks are installed sooner or later, they only do what is about subscribers alone. -/
def Action.isTame : Action → Bool
  | .setDevice _ _ (some scripts) => scriptsTame scripts
  | .subscribe _ _ reactions => reactionsTame reactions
  | _ => true

def scriptTame : List Action → Bool
  | [] => true
  | action :: rest => action.isTame && scriptTame rest

def scriptsTame : List (List Action) → Bool
  | [] => true
  | script :: scripts => scriptTame script && scriptsTame scripts

def reactionsTame : List (EventKind × List Action) → Bool
  | [] => true
  | (_, script) :: reactions => (scriptMasked script).isEmpty && scriptTame script && reactionsTame reactions

end

def Hook.masked (hook : Hook) : Hook := { hook with script := scriptMasked hook.script }

def Inbox.masked (inbox : Inbox) : Inbox := { inbox with queue := inbox.queue.map Envelope.masked }

def Context.masked (context : Context) : Context := { context with registered := none }

def Module.masked (target : Module) : Module :=
  { target with
    inbox := target.inbox.masked
    context := target.context.masked
    beforeStart := target.beforeStart.map Hook.masked
    afterStop := target.afterStop.map Hook.masked }

def Device.masked (device : Device) : Device := { device with onTransfer := scriptsMasked device.onTransfer }

/-- Every enable that is dealt with is reported to somebody; who hears of other events depends on who is alive. -/
def Entry.masked? : Entry → Option Entry
  | .accepted m envelope => some (.accepted m envelope.masked)
  | .taken m envelope => some (.taken m envelope.masked)
  | .delivered m _ (.enableResult outcome) => some (.delivered m anybody (.enableResult outcome))
  | .delivered _ _ _ => none
  | .dropped _ _ => none
  | .rejected m rejection => some (.rejected m rejection)
  | .forwarded m number device power duration => some (.forwarded m number device power duration)
  | .acted action answer => action.masked?.map (.acted · answer)
  | .hookCalled m kind tag context _ => some (.hookCalled m kind tag context.masked false)
  | .hookDone m kind tag => some (.hookDone m kind tag)
  | .closed m => some (.closed m)

def World.masked (w : World) : World :=
  { w with
    modules := w.modules.mapped Module.masked
    devices := w.devices.mapped Device.masked
    subscribers := []
    inHand := []
    journal := w.journal.filterMap Entry.masked? }

def Module.HooksTame (target : Module) : Prop :=
  ∀ kind hook, target.hook? kind = some hook → scriptTame hook.script = true

structure World.Tame (w : World) : Prop where
  hooks : w.modules.Every fun _ target => target.HooksTame
  devices : w.devices.Every fun _ device => scriptsTame device.onTransfer = true
  subscribers : w.subscribers.Every fun _ subscriber => reactionsTame subscriber.reactions = true

theorem takeReaction_tame {kind : EventKind} {reactions others : List Reaction} {script : Script}
    (tame : reactionsTame reactions = true) (taken : takeReaction kind reactions = some (script, others)) :
    scriptMasked script = [] ∧ scriptTame script = true ∧ reactionsTame others = true := by
  induction reactions generalizing others with
  | nil => cases taken
  | cons reaction rest ih =>
    simp only [reactionsTame, Bool.and_eq_true, List.isEmpty_iff] at tame
    obtain ⟨⟨silent, here⟩, later⟩ := tame
    unfold takeReaction at taken
    split at taken
    · cases taken
      exact ⟨silent, here, later⟩
    · obtain ⟨⟨inner, left⟩, found, same⟩ := Option.map_eq_some_iff.1 taken
      cases same
      obtain ⟨nothing, fine, remaining⟩ := ih later found
      refine ⟨nothing, fine, ?_⟩
      simp only [reactionsTame, silent, here, remaining, List.isEmpty_nil, Bool.and_self]

theorem Inbox.post_masked (inbox : Inbox) (envelope : Envelope) :
    inbox.masked.post envelope.masked = (inbox.post envelope).map Inbox.masked := by
  have receiving : inbox.masked.isReceiving = inbox.isReceiving := rfl
  have waiting : inbox.masked.queue.length = inbox.queue.length := List.length_map _
  have room : inbox.masked.capacity = inbox.capacity := rfl
  rw [post, post, receiving, waiting, room]
  split
  · rfl
  · split
    · rfl
    · simp only [Except.map, masked, List.map_append, List.map_cons, List.map_nil]

theorem Inbox.take?_masked (inbox : Inbox) :
    inbox.masked.take? = inbox.take?.map fun (envelope, rest) => (envelope.masked, rest.masked) := by
  obtain ⟨capacity, state, queue⟩ := inbox
  cases queue with
  | nil => rfl
  | cons envelope rest => rfl

theorem Module.hook?_masked (target : Module) (kind : HookKind) :
    target.masked.hook? kind = (target.hook? kind).map Hook.masked := by
  cases kind with
  | beforeStart => rfl
  | afterStop => rfl

theorem Module.delay_masked (target : Module) (kind : HookKind) : target.masked.delay kind = target.delay kind := by
  rw [delay, delay, hook?_masked, Option.map_map]
  rfl

theorem Module.tag_masked (target : Module) (kind : HookKind) : target.masked.tag kind = target.tag kind := by
  rw [tag, tag, hook?_masked, Option.map_map]
  rfl

theorem startRejection?_masked (context : Context) (readings : Readings) (mode : ChargingMode) :
    startRejection? context.masked readings mode = startRejection? context readings mode := rfl

namespace World

theorem masked_record {w : World} {entry : Entry} {seen : Entry} (kept : entry.masked? = some seen) :
    (w.record entry).masked = w.masked.record seen := by
  simp only [masked, record, List.filterMap_cons_some kept]

theorem masked_record_hidden {w : World} {entry : Entry} (hidden : entry.masked? = none) :
    (w.record entry).masked = w.masked := by
  simp only [masked, record, List.filterMap_cons_none hidden]

theorem masked_adjustModule (w : World) (m : ModuleRef) {f g : Module → Module}
    (same : ∀ target, w.modules.get? m = some target → (f target).masked = g target.masked) :
    (w.adjustModule m f).masked = w.masked.adjustModule m g := by
  simp only [masked, adjustModule, Roster.mapped_adjust _ _ same]

theorem masked_change (w : World) (m : ModuleRef) (f : Module → Module)
    (same : ∀ target, (f target).masked = f target.masked) :
    (w.adjustModule m f).masked = w.masked.adjustModule m f :=
  masked_adjustModule w m fun target _ => same target

theorem masked_found (w : World) (m : ModuleRef) :
    w.masked.modules.get? m = (w.modules.get? m).map Module.masked := Roster.get?_mapped _ _ _

theorem masked_device (w : World) (name : String) :
    w.masked.devices.get? name = (w.devices.get? name).map Device.masked := Roster.get?_mapped _ _ _

theorem masked_readings (w : World) (name : String) : w.masked.readings name = w.readings name := by
  rw [readings, readings, masked_device]
  cases w.devices.get? name with
  | none => rfl
  | some device => rfl

theorem masked_wake (w : World) (m : ModuleRef) : (w.wake m).masked = w.masked.wake m := by
  have running : (w.masked.modules.get? m).any (·.phase == .running) =
      (w.modules.get? m).any (·.phase == .running) := by
    rw [masked_found]
    cases w.modules.get? m with
    | none => rfl
    | some target => rfl
  have ready : w.masked.ready = w.ready := rfl
  have aside : w.masked.setAside = w.setAside := rfl
  unfold wake
  rw [running, ready, aside]
  split
  · rfl
  · rfl

theorem masked_setInbox (w : World) (m : ModuleRef) (inbox : Inbox) :
    (w.setInbox m inbox).masked = w.masked.setInbox m inbox.masked :=
  masked_adjustModule w m fun _ _ => rfl

theorem masked_submit (w : World) (m : ModuleRef) (envelope : Envelope) :
    w.masked.submit m envelope.masked = ((w.submit m envelope).1.masked, (w.submit m envelope).2) := by
  unfold submit
  rw [masked_found]
  cases w.modules.get? m with
  | none => rfl
  | some target =>
    have posted : target.masked.inbox.post envelope.masked = _ := target.inbox.post_masked envelope
    simp only [Option.map_some, posted]
    cases target.inbox.post envelope with
    | error refusal => rfl
    | ok inbox =>
      simp only [Except.map]
      rw [masked_wake, masked_record rfl, masked_setInbox]

theorem masked_submitTo (w : World) (name : String) (envelope : Envelope) :
    w.masked.submitTo name envelope.masked =
      ((w.submitTo name envelope).1.masked, (w.submitTo name envelope).2) := by
  have same : w.masked.modules.latest? name = w.modules.latest? name := Roster.latest?_mapped _ _ _
  unfold submitTo
  rw [same]
  cases w.modules.latest? name with
  | none => rfl
  | some m => exact masked_submit w m envelope

theorem masked_request (w : World) (name : String) (request : Except Refusal Request) :
    w.masked.request name (request.map Request.masked) =
      ((w.request name request).1.masked, (w.request name request).2) := by
  cases request with
  | error refusal => rfl
  | ok request => exact masked_submitTo w name (.request request)

theorem masked_reply (w : World) (transfer : Nat) (notification : Notification) :
    w.masked.reply transfer notification =
      ((w.reply transfer notification).1.masked, (w.reply transfer notification).2) := by
  have same : w.masked.transfers = w.transfers := rfl
  unfold reply
  rw [same]
  cases w.transfers[transfer]? with
  | none => rfl
  | some asked => exact masked_submit w asked.issuer (.notification notification)

theorem masked_adjustSubscriber (w : World) (s : SubscriberRef) (f : Subscriber → Subscriber) :
    (w.adjustSubscriber s f).masked = w.masked := rfl

theorem masked_letGo (w : World) (name : String) : (w.letGo name).masked = w.masked := by
  unfold letGo
  cases w.heldSubscriber? name with
  | none => rfl
  | some s => rfl

theorem masked_ensureSubscriber (w : World) (name : String) : (w.ensureSubscriber name).1.masked = w.masked := by
  unfold ensureSubscriber
  cases w.heldSubscriber? name with
  | none => rfl
  | some s => rfl

theorem masked_ensureDevice (w : World) (name : String) :
    (w.ensureDevice name).masked = w.masked.ensureDevice name := by
  unfold ensureDevice
  rw [masked_device]
  cases w.devices.get? name with
  | none => simp only [Option.map_none, masked, Roster.mapped_add, Device.masked, Device.fresh, scriptsMasked]
  | some device => rfl

theorem masked_adjustDevice (w : World) (name : String) {f g : Device → Device}
    (same : ∀ device, w.devices.get? name = some device → (f device).masked = g device.masked) :
    (w.adjustDevice name f).masked = w.masked.adjustDevice name g := by
  simp only [masked, adjustDevice, Roster.mapped_adjust _ _ same]

theorem masked_setDevice (w : World) (name : String) (change : ReadingsChange) (onTransfer : Option (List Script)) :
    ((w.ensureDevice name).adjustDevice name (·.changed change onTransfer)).masked =
      (w.masked.ensureDevice name).adjustDevice name (·.changed change (onTransfer.map scriptsMasked)) := by
  rw [← masked_ensureDevice]
  apply masked_adjustDevice
  intro device _
  cases onTransfer with
  | none => rfl
  | some scripts => rfl

def pose (w : World) : Action → World × Answer
  | .enable name (some _) => w.request name (.ok (.enable anybody))
  | action => w.perform action

def poseAll (w : World) : Script → World
  | [] => w
  | action :: rest => ((w.pose action).1.record (.acted action (w.pose action).2)).poseAll rest

theorem masked_perform (w : World) {action posed : Action} (kept : action.masked? = some posed) :
    w.masked.pose posed = ((w.perform action).1.masked, (w.perform action).2) := by
  cases action with
  | enable name subscriber =>
    cases subscriber with
    | none =>
      cases kept
      exact masked_request w name (.error .missingSubscriber)
    | some subscriber =>
      cases kept
      simp only [pose, perform, ← masked_ensureSubscriber w subscriber]
      exact masked_request _ name (.ok (.enable _))
  | start name mode =>
    cases kept
    have unaffected : (Request.ofStart mode).map Request.masked = Request.ofStart mode := by
      cases made : Request.ofStart mode with
      | error refusal => rfl
      | ok request =>
        obtain ⟨read, rfl⟩ := Request.of_ofStart made
        rfl
    rw [pose, perform, perform, ← masked_request, unaffected]
    intro _ _ same
    cases same
  | transfer name power duration =>
    cases kept
    have unaffected : (Request.ofTransfer power duration).map Request.masked = Request.ofTransfer power duration := by
      rcases Request.ofTransfer_cases power duration with ⟨-, adjustment, limit, -, -, made⟩ | ⟨-, refusal, -, made⟩
      · rw [made]
        rfl
      · rw [made]
        rfl
    rw [pose, perform, perform, ← masked_request, unaffected]
    intro _ _ same
    cases same
  | notify name notification =>
    cases kept
    exact masked_submitTo w name (.notification notification)
  | reply transfer notification =>
    cases kept
    exact masked_reply w transfer notification
  | setDevice name change onTransfer =>
    cases onTransfer with
    | none =>
      cases kept
      simp only [pose, perform, masked_setDevice, Option.map_none]
    | some scripts =>
      cases kept
      simp only [pose, perform, masked_setDevice, Option.map_some]
  | subscribe name kind reactions => cases kept
  | release name => cases kept
  | query name runtime id => cases kept

theorem masked_perform_hidden (w : World) {action : Action} (hidden : action.masked? = none) :
    (w.perform action).1.masked = w.masked := by
  cases action with
  | enable name subscriber => cases subscriber <;> cases hidden
  | setDevice name change onTransfer => cases onTransfer <;> cases hidden
  | subscribe name kind reactions => exact masked_letGo w name
  | release name => exact masked_letGo w name
  | query name runtime id => rfl
  | _ => cases hidden

theorem masked_runScript (w : World) (script : Script) :
    (w.runScript script).masked = w.masked.poseAll (scriptMasked script) := by
  induction script generalizing w with
  | nil => rfl
  | cons action rest ih =>
    simp only [runScript, ih, scriptMasked]
    cases masked : action.masked? with
    | none =>
      have hidden : Entry.masked? (.acted action (w.perform action).2) = none := by
        rw [Entry.masked?, masked, Option.map_none]
      rw [masked_record_hidden hidden, masked_perform_hidden w masked]
      rfl
    | some posed =>
      have kept : Entry.masked? (.acted action (w.perform action).2) =
          some (.acted posed (w.perform action).2) := by
        rw [Entry.masked?, masked, Option.map_some]
      simp only [Option.toList_some, List.singleton_append, poseAll]
      rw [masked_record kept, masked_perform w masked]

/-- The calls that are not about subscribers alone, with their answers. -/
def answered? (call : World × Action) : Option (Action × Answer) :=
  call.2.masked?.map (·, (call.1.perform call.2).2)

def posedAnswers (w : World) : Script → List (Action × Answer)
  | [] => []
  | action :: rest =>
    (action, (w.pose action).2) ::
      ((w.pose action).1.record (.acted action (w.pose action).2)).posedAnswers rest

theorem masked_callsOf (w : World) (script : Script) :
    (w.callsOf script).filterMap answered? = w.masked.posedAnswers (scriptMasked script) := by
  induction script generalizing w with
  | nil => rfl
  | cons action rest ih =>
    have after := masked_runScript w [action]
    simp only [runScript] at after
    rw [callsOf, List.filterMap_cons, ih, after]
    simp only [answered?, scriptMasked, List.append_nil]
    cases masked : action.masked? with
    | none => rfl
    | some posed =>
      simp only [Option.map_some, Option.toList_some, List.singleton_append, posedAnswers, poseAll,
        masked_perform w masked]

theorem tame_empty : Tame {} := ⟨List.forall_mem_nil _, List.forall_mem_nil _, List.forall_mem_nil _⟩

variable {w : World}

theorem Tame.of_same (h : w.Tame) {later : World} (modules : later.modules = w.modules)
    (devices : later.devices = w.devices) (subscribers : later.subscribers = w.subscribers) : later.Tame :=
  ⟨modules ▸ h.hooks, devices ▸ h.devices, subscribers ▸ h.subscribers⟩

theorem Tame.record (h : w.Tame) (entry : Entry) : (w.record entry).Tame := h.of_same rfl rfl rfl

theorem Tame.adjustModule (h : w.Tame) (m : ModuleRef) {f : Module → Module}
    (kept : ∀ target, (f target).hook? = target.hook?) : (w.adjustModule m f).Tame := by
  refine ⟨h.hooks.adjust ?_, h.devices, h.subscribers⟩
  intro target tame kind hook there
  rw [kept] at there
  exact tame kind hook there

theorem Tame.setInbox (h : w.Tame) (m : ModuleRef) (inbox : Inbox) : (w.setInbox m inbox).Tame :=
  h.adjustModule (f := (·.withInbox inbox)) m fun _ => rfl

theorem Tame.setContext (h : w.Tame) (m : ModuleRef) (context : Context) : (w.setContext m context).Tame :=
  h.adjustModule (f := (·.withContext context)) m fun _ => rfl

theorem Tame.wake (h : w.Tame) (m : ModuleRef) : (w.wake m).Tame := by
  unfold World.wake
  split
  · exact h.of_same rfl rfl rfl
  · exact h

theorem Tame.submit (h : w.Tame) (m : ModuleRef) (envelope : Envelope) : (w.submit m envelope).1.Tame := by
  unfold World.submit
  split
  · exact h
  · split
    · exact h
    · exact ((h.setInbox m _).record _).wake m

theorem Tame.submitTo (h : w.Tame) (name : String) (envelope : Envelope) : (w.submitTo name envelope).1.Tame := by
  unfold World.submitTo
  split
  · exact h
  · exact h.submit _ _

theorem Tame.request (h : w.Tame) (name : String) (request : Except Refusal Request) :
    (w.request name request).1.Tame := by
  cases request with
  | error refusal => exact h
  | ok request => exact h.submitTo _ _

theorem Tame.reply (h : w.Tame) (transfer : Nat) (notification : Notification) :
    (w.reply transfer notification).1.Tame := by
  unfold World.reply
  split
  · exact h
  · exact h.submit _ _

theorem Tame.adjustSubscriber (h : w.Tame) (s : SubscriberRef) {f : Subscriber → Subscriber}
    (kept : ∀ subscriber, reactionsTame subscriber.reactions = true → reactionsTame (f subscriber).reactions = true) :
    (w.adjustSubscriber s f).Tame := ⟨h.hooks, h.devices, h.subscribers.adjust kept⟩

theorem Tame.addSubscriber (h : w.Tame) (name : String) {subscriber : Subscriber}
    (tame : reactionsTame subscriber.reactions = true) : (w.addSubscriber name subscriber).Tame :=
  ⟨h.hooks, h.devices, h.subscribers.add tame⟩

theorem Tame.letGo (h : w.Tame) (name : String) : (w.letGo name).Tame := by
  unfold World.letGo
  split
  · exact h
  · exact h.adjustSubscriber _ fun _ tame => tame

theorem Tame.ensureSubscriber (h : w.Tame) (name : String) : (w.ensureSubscriber name).1.Tame := by
  unfold World.ensureSubscriber
  split
  · exact h
  · exact h.addSubscriber name rfl

theorem Tame.ensureDevice (h : w.Tame) (name : String) : (w.ensureDevice name).Tame := by
  unfold World.ensureDevice
  split
  · exact h
  · exact ⟨h.hooks, h.devices.add rfl, h.subscribers⟩

theorem Tame.adjustDevice (h : w.Tame) (name : String) {f : Device → Device}
    (kept : ∀ device, scriptsTame device.onTransfer = true → scriptsTame (f device).onTransfer = true) :
    (w.adjustDevice name f).Tame := ⟨h.hooks, h.devices.adjust kept, h.subscribers⟩

theorem Tame.perform (h : w.Tame) {action : Action} (tame : action.isTame = true) : (w.perform action).1.Tame := by
  cases action with
  | enable name subscriber =>
    cases subscriber with
    | none => exact h
    | some subscriber => exact (h.ensureSubscriber subscriber).request name _
  | start name mode => exact h.request name _
  | transfer name power duration => exact h.request name _
  | notify name notification => exact h.submitTo name _
  | reply transfer notification => exact h.reply transfer notification
  | setDevice name change onTransfer =>
    refine (h.ensureDevice name).adjustDevice name ?_
    intro device before
    cases onTransfer with
    | none => exact before
    | some scripts => exact tame
  | subscribe name kind reactions => exact (h.letGo name).addSubscriber name tame
  | release name => exact h.letGo name
  | query name runtime id => exact h

theorem Tame.runScript (h : w.Tame) {script : Script} (tame : scriptTame script = true) :
    (w.runScript script).Tame := by
  induction script generalizing w with
  | nil => exact h
  | cons action rest ih =>
    obtain ⟨first, others⟩ := Bool.and_eq_true_iff.1 tame
    exact ih ((h.perform first).record _) others

def maskedScript (start : World × Script) : World × Script := (start.1.masked, scriptMasked start.2)

structure TameScript (start : World × Script) : Prop where
  world : start.1.Tame
  script : scriptTame start.2 = true

theorem masked_callback (h : w.Tame) (m : ModuleRef) (s : SubscriberRef) (event : Event) :
    maskedScript (w.callback m s event) = ((w.record (.delivered m s event)).masked, []) ∧
      TameScript (w.callback m s event) := by
  have told : (w.record (.delivered m s event)).Tame := h.record _
  unfold callback
  dsimp only
  split
  · exact ⟨rfl, told, rfl⟩
  · rename_i subscriber found
    split
    · split
      · exact ⟨rfl, told, rfl⟩
      · rename_i script others taken
        obtain ⟨silent, here, later⟩ := takeReaction_tame (h.subscribers.get? found) taken
        refine ⟨?_, ?_, here⟩
        · simp only [maskedScript, silent, masked_adjustSubscriber]
        · exact told.adjustSubscriber s fun _ _ => later
    · exact ⟨rfl, told, rfl⟩

theorem masked_reporting (h : w.Tame) (m : ModuleRef) (event : Event)
    (hidden : ∀ s, Entry.masked? (.delivered m s event) = none) :
    maskedScript (w.reporting m event) = (w.masked, []) ∧ TameScript (w.reporting m event) := by
  unfold reporting
  split
  · rename_i s _
    have holding : World.Tame { w with inHand := [s] } := h.of_same rfl rfl rfl
    obtain ⟨seen, tame⟩ := masked_callback holding m s event
    refine ⟨?_, tame⟩
    rw [seen, masked_record_hidden (hidden s)]
    rfl
  · refine ⟨?_, h.record _, rfl⟩
    rw [maskedScript, masked_record_hidden rfl]
    rfl

theorem masked_handOver (w : World) (transfer : Transfer) :
    (w.handOver transfer).masked = w.masked.handOver transfer := masked_record rfl

theorem masked_transferring (h : w.Tame) (transfer : Transfer) :
    maskedScript (w.transferring transfer) = w.masked.transferring transfer ∧
      TameScript (w.transferring transfer) := by
  have handed : (w.handOver transfer).Tame := h.of_same rfl rfl rfl
  unfold transferring
  rw [masked_device]
  cases found : w.devices.get? transfer.device with
  | none => exact ⟨congrArg (·, []) (masked_handOver w transfer), handed, rfl⟩
  | some device =>
    have tame := h.devices.get? found
    simp only [Option.map_some, Device.masked]
    cases scripts : device.onTransfer with
    | nil => exact ⟨congrArg (·, []) (masked_handOver w transfer), handed, rfl⟩
    | cons script rest =>
      rw [scripts, scriptsTame, Bool.and_eq_true] at tame
      simp only [scriptsMasked]
      refine ⟨?_, handed.adjustDevice _ fun _ _ => tame.2, tame.1⟩
      have popped : ((w.handOver transfer).adjustDevice transfer.device fun device =>
            { device with onTransfer := rest }).masked =
          (w.masked.handOver transfer).adjustDevice transfer.device fun device =>
            { device with onTransfer := scriptsMasked rest } := by
        rw [← masked_handOver]
        exact masked_adjustDevice _ _ fun _ _ => rfl
      rw [maskedScript, popped]

theorem masked_hooking (h : w.Tame) (m : ModuleRef) {target : Module} (hooks : target.HooksTame) (kind : HookKind) :
    maskedScript (w.hooking m target kind) = w.masked.hooking m target.masked kind ∧
      TameScript (w.hooking m target kind) := by
  unfold hooking
  rw [Module.hook?_masked]
  cases found : target.hook? kind with
  | none => exact ⟨rfl, h, rfl⟩
  | some hook =>
    refine ⟨?_, h.record _, hooks kind hook found⟩
    rw [maskedScript, masked_record rfl]
    rfl

def posing (w : World) (m : ModuleRef) (target : Module) : Envelope → World × Script
  | .request (.enable s) =>
    (w.record (.delivered m s (.enableResult
      (if (w.readings target.device).acceptsEnable then .ok else .failed))), [])
  | .request (.start mode) =>
    match startRejection? target.context (w.readings target.device) mode with
    | some rejection => (w.record (.rejected m rejection), [])
    | none => (w.setContext m (target.context.startedIn mode), [])
  | .request (.transfer power duration) => w.transferring ⟨m, target.device, power, duration⟩
  | .notification _ => (w, [])

theorem masked_setContext (w : World) (m : ModuleRef) (context : Context) :
    (w.setContext m context).masked = w.masked.setContext m context.masked :=
  masked_adjustModule w m fun _ _ => rfl

theorem masked_enabledFor {m : ModuleRef} {target before : Module} (found : w.modules.get? m = some before)
    (same : before.context = target.context) (s : SubscriberRef) :
    (w.setContext m (target.context.enabledFor s)).masked = w.masked := by
  rw [masked_setContext, setContext, adjustModule]
  have there : w.masked.modules.get? m = some before.masked := by rw [masked_found, found, Option.map_some]
  rw [Roster.adjust_eq_self _ there]
  rw [← same]
  rfl

theorem masked_dispatching (h : w.Tame) {m : ModuleRef} {target before : Module}
    (found : w.modules.get? m = some before) (same : before.context = target.context) (envelope : Envelope) :
    maskedScript (w.dispatching m target envelope) = w.masked.posing m target.masked envelope.masked ∧
      TameScript (w.dispatching m target envelope) := by
  have device : target.masked.device = target.device := rfl
  cases envelope with
  | notification notification =>
    cases notification with
    | started outcome => exact masked_reporting h m _ fun _ => rfl
    | ended condition => exact masked_reporting h m _ fun _ => rfl
  | request request =>
    cases request with
    | enable s =>
      simp only [dispatching, Envelope.masked, Request.masked, posing, masked_readings, device]
      split
      · have enabled : World.Tame { w.setContext m (target.context.enabledFor s) with inHand := [s] } :=
          (h.setContext m (target.context.enabledFor s)).of_same rfl rfl rfl
        obtain ⟨seen, tame⟩ := masked_callback enabled m s (.enableResult .ok)
        refine ⟨?_, tame⟩
        rw [seen, masked_record rfl, ← masked_enabledFor found same s]
        rfl
      · have holding : World.Tame { w with inHand := [s] } := h.of_same rfl rfl rfl
        obtain ⟨seen, tame⟩ := masked_callback holding m s (.enableResult .failed)
        refine ⟨?_, tame⟩
        rw [seen, masked_record rfl]
        rfl
    | start mode =>
      have context : target.masked.context = target.context.masked := rfl
      simp only [dispatching, Envelope.masked, Request.masked, posing, masked_readings, device, context,
        startRejection?_masked]
      cases startRejection? target.context (w.readings target.device) mode with
      | some rejection => exact ⟨congrArg (·, []) (masked_record rfl), h.record _, rfl⟩
      | none =>
        obtain ⟨seen, tame⟩ := masked_reporting (h.setContext m (target.context.startedIn mode)) m
          (.startResult .ok) fun _ => rfl
        refine ⟨?_, tame⟩
        rw [seen, masked_setContext]
        rfl
    | transfer power duration => exact masked_transferring h _

end World

end WirelessCharging
