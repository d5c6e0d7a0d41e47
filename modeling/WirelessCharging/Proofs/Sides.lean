import WirelessCharging.Proofs.Masked
/-!
One of the modules, with what belongs to it: its device, its runtime and its subscribers. Everything else is on the
other side. A script stays on a side if it names nothing that is on the other one, and it may install only scripts
that do so as well. What the side of the module sees of a world is what belongs to it, with the transfers of the
module numbered anew.
-/
namespace WirelessCharging

structure Side where
  module : String
  device : String → Bool
  runtime : String → Bool
  subscriber : String → Bool
  /-- What devices are handed in the whole run. -/
  transfers : List Transfer

namespace Side

variable (S : Side)

def names (name : String) : Bool := name == S.module

def owns (m : ModuleRef) : Bool := S.names m.name

def hears (s : SubscriberRef) : Bool := S.subscriber s.name

def registers (registry : RegistryRef) : Bool := S.runtime registry.name

def asked (transfer : Transfer) : Bool := S.owns transfer.issuer

/-- The number of a transfer among those that the module asks for. -/
def rank (n : Nat) : Nat := ((S.transfers.take n).filter S.asked).length

/-- Which side an answer is for. What is never asked for is not answered on any. -/
def answersOn (own : Bool) (n : Nat) : Bool :=
  match S.transfers[n]? with
  | none => true
  | some transfer => S.asked transfer == own

mutual

def actionStays (own : Bool) : Action → Bool
  | .enable name none => S.names name == own
  | .enable name (some subscriber) => S.names name == own && S.subscriber subscriber == own
  | .start name _ => S.names name == own
  | .transfer name _ _ => S.names name == own
  | .notify name _ => S.names name == own
  | .reply n _ => S.answersOn own n
  | .setDevice device _ none => S.device device == own
  | .setDevice device _ (some scripts) => S.device device == own && scriptsStay own scripts
  | .subscribe subscriber _ reactions => S.subscriber subscriber == own && reactionsStay own reactions
  | .release subscriber => S.subscriber subscriber == own
  | .query name runtime _ => S.names name == own && S.runtime runtime == own

def scriptStays (own : Bool) : List Action → Bool
  | [] => true
  | action :: rest => actionStays own action && scriptStays own rest

def scriptsStay (own : Bool) : List (List Action) → Bool
  | [] => true
  | script :: scripts => scriptStays own script && scriptsStay own scripts

def reactionsStay (own : Bool) : List (EventKind × List Action) → Bool
  | [] => true
  | (_, script) :: reactions => scriptStays own script && reactionsStay own reactions

end

mutual

def seenAction : Action → Action
  | .reply n notification => .reply (S.rank n) notification
  | .setDevice device change (some scripts) => .setDevice device change (some (seenScripts scripts))
  | .subscribe subscriber kind reactions => .subscribe subscriber kind (seenReactions reactions)
  | action => action

def seenScript : List Action → List Action
  | [] => []
  | action :: rest => seenAction action :: seenScript rest

def seenScripts : List (List Action) → List (List Action)
  | [] => []
  | script :: scripts => seenScript script :: seenScripts scripts

def seenReactions : List (EventKind × List Action) → List (EventKind × List Action)
  | [] => []
  | (kind, script) :: reactions => (kind, seenScript script) :: seenReactions reactions

end

def seenHook (hook : Hook) : Hook := { hook with script := S.seenScript hook.script }

def seenModule (target : Module) : Module :=
  { target with
    beforeStart := target.beforeStart.map S.seenHook
    afterStop := target.afterStop.map S.seenHook }

def seenDevice (device : Device) : Device := { device with onTransfer := S.seenScripts device.onTransfer }

def seenSubscriber (subscriber : Subscriber) : Subscriber :=
  { subscriber with reactions := S.seenReactions subscriber.reactions }

/-- Answers to transfers that have not been asked for are left out. -/
def entrySeen? : Entry → Option Entry
  | .accepted m envelope => if S.owns m then some (.accepted m envelope) else none
  | .taken m envelope => if S.owns m then some (.taken m envelope) else none
  | .delivered m s event => if S.owns m then some (.delivered m s event) else none
  | .dropped m event => if S.owns m then some (.dropped m event) else none
  | .rejected m rejection => if S.owns m then some (.rejected m rejection) else none
  | .forwarded m number device power duration =>
    if S.owns m then some (.forwarded m (S.rank number) device power duration) else none
  | .acted action answer =>
    if S.actionStays true action && answer != .noSuchTransfer then some (.acted (S.seenAction action) answer) else none
  | .hookCalled m kind tag context subscribed =>
    if S.owns m then some (.hookCalled m kind tag context subscribed) else none
  | .hookDone m kind tag => if S.owns m then some (.hookDone m kind tag) else none
  | .closed m => if S.owns m then some (.closed m) else none

end Side

def Entry.isVoid : Entry → Bool
  | .acted _ answer => answer == .noSuchTransfer
  | _ => false

def Envelope.StaysOn (S : Side) (own : Bool) : Envelope → Prop
  | .request (.enable s) => S.hears s = own
  | _ => True

structure Module.StaysOn (S : Side) (own : Bool) (target : Module) : Prop where
  device : S.device target.device = own
  registry : S.registers target.registry = own
  hooks : ∀ kind hook, target.hook? kind = some hook → S.scriptStays own hook.script = true ∧ hook.delay = 0
  registered : ∀ s ∈ target.context.registered, S.hears s = own
  queue : ∀ envelope ∈ target.inbox.queue, envelope.StaysOn S own

/-- A world in which nothing of one side has to do with the other side, and with one module at most on the one. -/
structure World.Sided (S : Side) (w : World) : Prop where
  modules : w.modules.Every fun m target => target.StaysOn S (S.owns m)
  devices : w.devices.Every fun name device => S.scriptsStay (S.device name) device.onTransfer = true
  subscribers : w.subscribers.Every fun s subscriber =>
    S.reactionsStay (S.hears s) subscriber.reactions = true
  runtimes : w.runtimes.Every fun name registry => S.registers registry = S.runtime name
  registries : w.registries.Every fun registry entries => ∀ entry ∈ entries, S.owns entry.2 = S.registers registry
  fits : w.transfers <+: S.transfers
  alone : (w.modules.keys.filter S.owns).length ≤ 1

namespace Roster

variable {κ α β : Type}

def part (roster : Roster κ α) (keep : κ → Bool) (f : α → β) : Roster κ β :=
  Roster.mapped (roster.filter (keep ·.1)) f

variable {roster : Roster κ α} {keep : κ → Bool} {f : α → β} {key : κ}

theorem part_add (own : keep key = true) (a : α) :
    (roster.add key a).part keep f = (roster.part keep f).add key (f a) := by
  simp only [part, add, mapped, List.filter_append, List.filter_cons, own, if_true, List.filter_nil, List.map_append,
    List.map_cons, List.map_nil]

theorem part_add_other (other : keep key = false) (a : α) : (roster.add key a).part keep f = roster.part keep f := by
  simp only [part, add, mapped, List.filter_append, List.filter_cons, other, Bool.false_eq_true, if_false,
    List.filter_nil, List.append_nil]

theorem keys_part (roster : Roster κ α) (keep : κ → Bool) (f : α → β) :
    (roster.part keep f).keys = roster.keys.filter keep := by
  rw [part, keys_mapped, keys, keys, List.filter_map]
  rfl

variable [DecidableEq κ]

theorem Every.remove {P : κ → α → Prop} (h : roster.Every P) (key : κ) : (roster.remove key).Every P :=
  fun entry member => h entry (List.mem_filter.1 member).1

theorem part_remove (roster : Roster κ α) (keep : κ → Bool) (f : α → β) (key : κ) :
    (roster.remove key).part keep f = (roster.part keep f).remove key := by
  simp only [part, mapped, remove, List.filter_filter, List.filter_map]
  congr 1
  apply List.filter_congr
  intro entry _
  simp only [Function.comp_apply, Bool.and_comm]

theorem part_remove_other (other : keep key = false) : (roster.remove key).part keep f = roster.part keep f := by
  simp only [part, remove, List.filter_filter]
  congr 1
  apply List.filter_congr
  intro entry _
  by_cases same : entry.1 = key
  · simp only [same, other, Bool.false_and]
  · simp only [same, ne_eq, not_false_eq_true, decide_true, Bool.and_true]

theorem get?_part (roster : Roster κ α) (f : α → β) (own : keep key = true) :
    (roster.part keep f).get? key = (roster.get? key).map f := by
  rw [part, get?_mapped]
  congr 1
  induction roster with
  | nil => rfl
  | cons entry rest ih =>
    by_cases same : entry.1 = key
    · rw [List.filter_cons_of_pos (by rw [same, own]), get?, get?, if_pos same, if_pos same]
    · rw [get?, if_neg same, ← ih]
      cases kept : keep entry.1 with
      | true => rw [List.filter_cons_of_pos (by exact kept), get?, if_neg same]
      | false => rw [List.filter_cons_of_neg (by simp [kept])]

theorem get?_part_other (roster : Roster κ α) (f : α → β) (other : keep key = false) :
    (roster.part keep f).get? key = none := by
  cases found : (roster.part keep f).get? key with
  | none => rfl
  | some b =>
    have member := mem_keys_of_get? found
    rw [keys_part, List.mem_filter, other] at member
    exact absurd member.2 Bool.false_ne_true

theorem part_adjust (own : keep key = true) {g : α → α} {g' : β → β}
    (same : ∀ a, roster.get? key = some a → f (g a) = g' (f a)) :
    (roster.adjust key g).part keep f = (roster.part keep f).adjust key g' := by
  induction roster with
  | nil => rfl
  | cons entry rest ih =>
    by_cases here : entry.1 = key
    · have first := same entry.2 (by simp only [get?, here, if_true])
      simp only [part, mapped, adjust, here, if_true, List.filter_cons, own, List.map_cons, first]
    · have later := ih fun a found => same a (by simpa only [get?, here, if_false] using found)
      simp only [part, mapped] at later
      cases kept : keep entry.1 with
      | true => simp only [part, mapped, adjust, here, if_false, List.filter_cons, kept, if_true, List.map_cons, later]
      | false => simp only [part, mapped, adjust, here, if_false, List.filter_cons, kept, Bool.false_eq_true, later]

theorem part_adjust_other (other : keep key = false) (g : α → α) :
    (roster.adjust key g).part keep f = roster.part keep f := by
  induction roster with
  | nil => rfl
  | cons entry rest ih =>
    simp only [part, mapped] at ih
    by_cases here : entry.1 = key
    · simp only [part, adjust, here, if_true, List.filter_cons, other, Bool.false_eq_true, if_false]
    · simp only [part, mapped, adjust, here, if_false, List.filter_cons]
      cases kept : keep entry.1 with
      | true => simp only [if_true, List.map_cons, ih]
      | false => simp only [Bool.false_eq_true, if_false, ih]

theorem named_part (roster : Roster Ref α) (f : α → β) {keep : String → Bool} {name : String}
    (own : keep name = true) : (roster.part (keep ·.name) f).named name = (roster.named name).mapped f := by
  simp only [part, mapped, named, List.filter_map, List.filter_filter]
  congr 1
  apply List.filter_congr
  intro entry _
  by_cases same : entry.1.name = name
  · simp only [Function.comp_apply, same, own, decide_true, Bool.and_self]
  · simp only [Function.comp_apply, same, decide_false, Bool.false_and]

theorem latest?_part (roster : Roster Ref α) (f : α → β) {keep : String → Bool} {name : String}
    (own : keep name = true) : (roster.part (keep ·.name) f).latest? name = roster.latest? name := by
  rw [latest?, latest?, named_part roster f own, mapped, List.getLast?_map, Option.map_map]
  rfl

theorem nextRef_part (roster : Roster Ref α) (f : α → β) {keep : String → Bool} {name : String}
    (own : keep name = true) : (roster.part (keep ·.name) f).nextRef name = roster.nextRef name := by
  rw [nextRef, nextRef, named_part roster f own, mapped, List.length_map]

theorem name_of_latest? {roster : Roster Ref α} {name : String} {ref : Ref} (latest : roster.latest? name = some ref) :
    ref.name = name := by
  obtain ⟨entry, last, rfl⟩ := Option.map_eq_some_iff.1 latest
  have member := List.mem_of_getLast? last
  exact of_decide_eq_true (List.mem_filter.1 member).2

end Roster

variable {S : Side} {own : Bool}

namespace Module.StaysOn

variable {target : Module}

theorem withInbox (h : target.StaysOn S own) {inbox : Inbox}
    (queue : ∀ envelope ∈ inbox.queue, envelope.StaysOn S own) : (target.withInbox inbox).StaysOn S own :=
  ⟨h.device, h.registry, h.hooks, h.registered, queue⟩

theorem withContext (h : target.StaysOn S own) {context : Context}
    (registered : ∀ s ∈ context.registered, S.hears s = own) :
    (target.withContext context).StaysOn S own := ⟨h.device, h.registry, h.hooks, registered, h.queue⟩

theorem closingUntil (h : target.StaysOn S own) (wake : Nat) : (target.closingUntil wake).StaysOn S own :=
  ⟨h.device, h.registry, h.hooks, h.registered, h.queue⟩

theorem ended (h : target.StaysOn S own) (phase : Phase) : (target.ended phase).StaysOn S own :=
  ⟨h.device, h.registry, h.hooks, h.registered, List.forall_mem_nil _⟩

theorem delay (h : target.StaysOn S own) (kind : HookKind) : target.delay kind = 0 := by
  rw [Module.delay]
  cases found : target.hook? kind with
  | none => rfl
  | some hook =>
    rw [Option.map_some, Option.getD_some, (h.hooks kind hook found).2]
    rfl

end Module.StaysOn

theorem takeReaction_stays {kind : EventKind} {reactions others : List Reaction} {script : Script}
    (stay : S.reactionsStay own reactions = true) (taken : takeReaction kind reactions = some (script, others)) :
    S.scriptStays own script = true ∧ S.reactionsStay own others = true := by
  induction reactions generalizing others with
  | nil => cases taken
  | cons reaction rest ih =>
    rw [Side.reactionsStay, Bool.and_eq_true] at stay
    unfold takeReaction at taken
    split at taken
    · cases taken
      exact stay
    · obtain ⟨⟨inner, left⟩, found, same⟩ := Option.map_eq_some_iff.1 taken
      cases same
      obtain ⟨fine, remaining⟩ := ih stay.2 found
      refine ⟨fine, ?_⟩
      rw [Side.reactionsStay, Bool.and_eq_true]
      exact ⟨stay.1, remaining⟩

namespace World

variable {w : World} {m : ModuleRef}

theorem sided_empty (S : Side) : ({} : World).Sided S :=
  ⟨List.forall_mem_nil _, List.forall_mem_nil _, List.forall_mem_nil _, List.forall_mem_nil _, List.forall_mem_nil _,
    List.nil_prefix, Nat.zero_le _⟩

theorem Sided.record (h : w.Sided S) (entry : Entry) : (w.record entry).Sided S :=
  ⟨h.modules, h.devices, h.subscribers, h.runtimes, h.registries, h.fits, h.alone⟩

theorem Sided.adjustModule (h : w.Sided S) (m : ModuleRef) {f : Module → Module}
    (kept : ∀ target, target.StaysOn S (S.owns m) → (f target).StaysOn S (S.owns m)) :
    (w.adjustModule m f).Sided S := by
  refine ⟨h.modules.adjust kept, h.devices, h.subscribers, h.runtimes, h.registries, h.fits, ?_⟩
  simp only [World.adjustModule, Roster.keys_adjust]
  exact h.alone

theorem Sided.wake (h : w.Sided S) (m : ModuleRef) : (w.wake m).Sided S := by
  unfold World.wake
  split
  · exact ⟨h.modules, h.devices, h.subscribers, h.runtimes, h.registries, h.fits, h.alone⟩
  · exact h

theorem Sided.submit (h : w.Sided S) {m : ModuleRef} {envelope : Envelope} (stays : envelope.StaysOn S (S.owns m)) :
    (w.submit m envelope).1.Sided S := by
  unfold World.submit
  split
  · exact h
  · rename_i target found
    split
    · exact h
    · rename_i inbox posted
      obtain ⟨-, -, rfl⟩ := Inbox.post_eq_ok.1 posted
      have queue : ∀ waiting ∈ target.inbox.queue ++ [envelope], waiting.StaysOn S (S.owns m) :=
        List.forall_mem_append.2 ⟨(h.modules.get? found).queue, List.forall_mem_singleton.2 stays⟩
      exact ((h.adjustModule m fun _ stays => stays.withInbox queue).record _).wake m

theorem Sided.submitTo (h : w.Sided S) {name : String} {envelope : Envelope}
    (stays : envelope.StaysOn S (S.names name)) : (w.submitTo name envelope).1.Sided S := by
  unfold World.submitTo
  split
  · exact h
  · rename_i m latest
    refine h.submit ?_
    rw [Side.owns, Roster.name_of_latest? latest]
    exact stays

theorem Sided.request (h : w.Sided S) {name : String} {request : Except Refusal Request}
    (stays : ∀ asked, request = .ok asked → (Envelope.request asked).StaysOn S (S.names name)) :
    (w.request name request).1.Sided S := by
  cases request with
  | error refusal => exact h
  | ok asked => exact h.submitTo (stays asked rfl)

theorem Sided.adjustSubscriber (h : w.Sided S) (s : SubscriberRef) {f : Subscriber → Subscriber}
    (kept : ∀ subscriber, S.reactionsStay (S.hears s) subscriber.reactions = true →
      S.reactionsStay (S.hears s) (f subscriber).reactions = true) : (w.adjustSubscriber s f).Sided S :=
  ⟨h.modules, h.devices, h.subscribers.adjust kept, h.runtimes, h.registries, h.fits, h.alone⟩

theorem Sided.addSubscriber (h : w.Sided S) (name : String) {subscriber : Subscriber}
    (stay : S.reactionsStay (S.subscriber name) subscriber.reactions = true) :
    (w.addSubscriber name subscriber).Sided S :=
  ⟨h.modules, h.devices, h.subscribers.add stay, h.runtimes, h.registries, h.fits, h.alone⟩

theorem Sided.letGo (h : w.Sided S) (name : String) : (w.letGo name).Sided S := by
  unfold World.letGo
  split
  · exact h
  · exact h.adjustSubscriber _ fun _ stay => stay

theorem Sided.ensureSubscriber (h : w.Sided S) (name : String) :
    (w.ensureSubscriber name).1.Sided S ∧ (w.ensureSubscriber name).2.name = name := by
  unfold World.ensureSubscriber
  split
  · rename_i s held
    have latest := (Option.filter_eq_some_iff.1 held).1
    exact ⟨h, Roster.name_of_latest? latest⟩
  · exact ⟨h.addSubscriber name rfl, rfl⟩

theorem Sided.adjustDevice (h : w.Sided S) (name : String) {f : Device → Device}
    (kept : ∀ device, S.scriptsStay (S.device name) device.onTransfer = true →
      S.scriptsStay (S.device name) (f device).onTransfer = true) : (w.adjustDevice name f).Sided S :=
  ⟨h.modules, h.devices.adjust kept, h.subscribers, h.runtimes, h.registries, h.fits, h.alone⟩

theorem Sided.ensureDevice (h : w.Sided S) (name : String) : (w.ensureDevice name).Sided S := by
  unfold World.ensureDevice
  split
  · exact h
  · exact ⟨h.modules, h.devices.add rfl, h.subscribers, h.runtimes, h.registries, h.fits, h.alone⟩

theorem Sided.perform (h : w.Sided S) {action : Action} (stays : S.actionStays own action = true) :
    (w.perform action).1.Sided S := by
  cases action with
  | enable name subscriber =>
    cases subscriber with
    | none => exact h
    | some subscriber =>
      simp only [Side.actionStays, Bool.and_eq_true, beq_iff_eq] at stays
      obtain ⟨sided, same⟩ := h.ensureSubscriber subscriber
      have stay : (Envelope.request (.enable (w.ensureSubscriber subscriber).2)).StaysOn S (S.names name) := by
        rw [stays.1, Envelope.StaysOn, Side.hears, same, stays.2]
      exact sided.submitTo stay
  | start name mode =>
    refine h.request ?_
    intro asked made
    obtain ⟨read, rfl⟩ := Request.of_ofStart made
    trivial
  | transfer name power duration =>
    refine h.request ?_
    intro asked made
    rcases Request.ofTransfer_cases power duration with ⟨-, adjustment, limit, -, -, same⟩ | ⟨-, refusal, -, same⟩
    · cases made.symm.trans same
      trivial
    · cases made.symm.trans same
  | notify name notification => exact h.submitTo trivial
  | reply n notification =>
    simp only [World.perform, World.reply]
    split
    · exact h
    · exact h.submit trivial
  | setDevice name change onTransfer =>
    refine (h.ensureDevice name).adjustDevice name ?_
    intro device before
    cases onTransfer with
    | none => exact before
    | some scripts =>
      simp only [Side.actionStays, Bool.and_eq_true, beq_iff_eq] at stays
      exact stays.1 ▸ stays.2
  | subscribe name kind reactions =>
    simp only [Side.actionStays, Bool.and_eq_true, beq_iff_eq] at stays
    exact (h.letGo name).addSubscriber name (stays.1 ▸ stays.2)
  | release name => exact h.letGo name
  | query name runtime id => exact h

theorem Sided.runScript (h : w.Sided S) {script : Script} (stays : S.scriptStays own script = true) :
    (w.runScript script).Sided S := by
  induction script generalizing w with
  | nil => exact h
  | cons action rest ih =>
    rw [Side.scriptStays, Bool.and_eq_true] at stays
    exact ih ((h.perform stays.1).record _) stays.2

theorem Sided.deliver (h : w.Sided S) (m : ModuleRef) (s : SubscriberRef) (event : Event) :
    (w.deliver m s event).Sided S := by
  have told : (w.record (.delivered m s event)).Sided S := h.record _
  unfold World.deliver
  dsimp only
  split
  · exact told
  · rename_i subscriber found
    split
    · split
      · exact told
      · rename_i script others taken
        obtain ⟨here, later⟩ := takeReaction_stays (told.subscribers.get? found) taken
        exact (told.adjustSubscriber s fun _ _ => later).runScript here
    · exact told

theorem Sided.setInHand (h : w.Sided S) (inHand : List SubscriberRef) : World.Sided S { w with inHand } :=
  ⟨h.modules, h.devices, h.subscribers, h.runtimes, h.registries, h.fits, h.alone⟩

theorem Sided.setSenders (h : w.Sided S) (senders : List Sender) : World.Sided S { w with senders } :=
  ⟨h.modules, h.devices, h.subscribers, h.runtimes, h.registries, h.fits, h.alone⟩

theorem Sided.deliverHolding (h : w.Sided S) (m : ModuleRef) (s : SubscriberRef) (event : Event) :
    (w.deliverHolding m s event).Sided S := ((h.setInHand [s]).deliver m s event).setInHand []

theorem Sided.report (h : w.Sided S) (m : ModuleRef) (event : Event) : (w.report m event).Sided S := by
  unfold World.report
  split
  · exact h.deliverHolding m _ event
  · exact h.record _

theorem Sided.setContext (h : w.Sided S) (m : ModuleRef) {context : Context}
    (registered : ∀ s ∈ context.registered, S.hears s = S.owns m) : (w.setContext m context).Sided S :=
  h.adjustModule m fun _ stays => stays.withContext registered

theorem Sided.transferring (h : w.Sided S) {transfer : Transfer} (fits : w.transfers ++ [transfer] <+: S.transfers) :
    (w.transferring transfer).1.Sided S ∧
      S.scriptStays (S.device transfer.device) (w.transferring transfer).2 = true := by
  have handed : (w.handOver transfer).Sided S :=
    ⟨h.modules, h.devices, h.subscribers, h.runtimes, h.registries, fits, h.alone⟩
  unfold World.transferring
  split
  · exact ⟨handed, rfl⟩
  · rename_i device found
    have stay := h.devices.get? found
    split
    · exact ⟨handed, rfl⟩
    · rename_i script rest scripts
      rw [scripts, Side.scriptsStay, Bool.and_eq_true] at stay
      exact ⟨handed.adjustDevice transfer.device fun _ _ => stay.2, stay.1⟩

theorem Sided.dispatchTransfer (h : w.Sided S) (m : ModuleRef) (target : Module) {power : PowerAdjustment}
    {duration : TransferDuration} (fits : (w.dispatchTransfer m target power duration).transfers <+: S.transfers) :
    (w.dispatchTransfer m target power duration).Sided S := by
  rw [dispatchTransfer_eq] at fits ⊢
  rw [(runScript_aside _ _).1, (w.transferring_hands _).transfers] at fits
  obtain ⟨start, stays⟩ := h.transferring fits
  exact start.runScript stays

theorem Sided.dispatch (h : w.Sided S) {m : ModuleRef} {target : Module} (target_stays : target.StaysOn S (S.owns m))
    {envelope : Envelope} (stays : envelope.StaysOn S (S.owns m))
    (fits : (w.dispatch m target envelope).transfers <+: S.transfers) : (w.dispatch m target envelope).Sided S := by
  cases envelope with
  | notification notification => exact h.report m _
  | request request =>
    cases request with
    | enable s =>
      simp only [World.dispatch, World.dispatchEnable]
      split
      · refine (h.setContext m ?_).deliverHolding m s _
        intro other registered
        cases registered
        exact stays
      · exact h.deliverHolding m s _
    | start mode =>
      simp only [World.dispatch, World.dispatchStart]
      split
      · exact h.record _
      · have started : (w.setContext m (target.context.startedIn mode)).Sided S :=
          h.setContext m target_stays.registered
        exact started.report m _
    | transfer power duration => exact h.dispatchTransfer m target fits

theorem Sided.callHook (h : w.Sided S) {m : ModuleRef} {target : Module} (stays : target.StaysOn S (S.owns m))
    (kind : HookKind) : (w.callHook m target kind).Sided S := by
  unfold World.callHook
  split
  · exact h
  · rename_i hook found
    exact (h.record _).runScript (stays.hooks kind hook found).1

theorem Sided.attend? (h : w.Sided S) {m : ModuleRef} {after : World} (attended : w.attend? m = some after)
    (fits : after.transfers <+: S.transfers) : after.Sided S := by
  unfold World.attend? at attended
  split at attended
  · cases attended
  · rename_i target found
    have stays := h.modules.get? found
    split at attended
    · cases attended
    · split at attended
      · obtain rfl := Option.some.inj attended
        have closing : (w.adjustModule m (·.closingUntil (w.now + target.delay .afterStop))).Sided S :=
          h.adjustModule m fun _ stays => stays.closingUntil _
        have called := (closing.record (.closed m)).callHook stays .afterStop
        unfold World.closeDown
        dsimp only
        split
        · exact (called.adjustModule m fun _ stays => stays.ended _).setSenders _
        · exact called
      · split at attended
        · cases attended
        · rename_i envelope inbox took
          obtain rfl := Option.some.inj attended
          have whole := Inbox.take?_eq_some.1 took
          have queue : ∀ waiting ∈ envelope :: inbox.queue, waiting.StaysOn S (S.owns m) := by
            have queue := stays.queue
            rw [whole] at queue
            exact queue
          obtain ⟨first, rest⟩ := List.forall_mem_cons.1 queue
          have taken : ((w.setInbox m inbox).record (.taken m envelope)).Sided S :=
            (h.adjustModule m fun _ stays => stays.withInbox rest).record _
          exact taken.dispatch stays first fits

end World

end WirelessCharging
