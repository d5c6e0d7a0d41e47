import Mathlib.Logic.Relation
import WirelessCharging.Dispatch
import WirelessCharging.Proofs.Journal
/-!
What scripts can do to a world: have envelopes accepted, leave traces of their actions, and change devices
and subscribers. Nothing else is within their reach, and dealing with an envelope adds no more than that a device
gets a sender to answer with. Dealing with an envelope comes down to one entry in the
journal, with what the module remembers afterwards, and then the script of whoever was called.
-/
namespace WirelessCharging

inductive Deed : World → World → Prop where
  | accept {w : World} {m : ModuleRef} {target : Module} {envelope : Envelope} {inbox : Inbox}
      (found : w.modules.get? m = some target) (posted : target.inbox.post envelope = .ok inbox) :
      Deed w (((w.setInbox m inbox).record (.accepted m envelope)).wake m)
  /-- What belongs to no module. -/
  | aside (w : World) (devices : Roster String Device) (subscribers : Roster SubscriberRef Subscriber)
      (transfers : List Transfer) (inHand : List SubscriberRef) :
      Deed w { w with devices, subscribers, transfers, inHand }
  | note (w : World) (action : Action) (answer : Answer) : Deed w (w.record (.acted action answer))
  | lend (w : World) (m : ModuleRef) (transfer : Nat) : Deed w (w.grant m (.device transfer))

abbrev Deeds : World → World → Prop := Relation.ReflTransGen Deed

def Module.posted (target : Module) (more : List Envelope) : Module :=
  target.withInbox { target.inbox with queue := target.inbox.queue ++ more }

theorem Module.posted_nil (target : Module) : target.posted [] = target := by
  simp only [posted, withInbox, List.append_nil]

theorem Module.posted_posted (target : Module) (more last : List Envelope) :
    (target.posted more).posted last = target.posted (more ++ last) := by
  simp only [posted, withInbox, List.append_assoc]

namespace World

theorem wake_line (w : World) (m : ModuleRef) : ∃ more, w.wake m = { w with ready := w.ready ++ more } := by
  unfold wake
  split
  · exact ⟨[m], rfl⟩
  · exact ⟨[], by rw [List.append_nil]⟩

@[simp] theorem wake_modules (w : World) (m : ModuleRef) : (w.wake m).modules = w.modules := by
  unfold wake
  split <;> rfl

@[simp] theorem wake_senders (w : World) (m : ModuleRef) : (w.wake m).senders = w.senders := by
  unfold wake
  split <;> rfl

@[simp] theorem wake_journal (w : World) (m : ModuleRef) : (w.wake m).journal = w.journal := by
  unfold wake
  split <;> rfl

@[simp] theorem wake_registries (w : World) (m : ModuleRef) : (w.wake m).registries = w.registries := by
  unfold wake
  split <;> rfl

@[simp] theorem wake_runtimes (w : World) (m : ModuleRef) : (w.wake m).runtimes = w.runtimes := by
  unfold wake
  split <;> rfl

@[simp] theorem wake_subscribers (w : World) (m : ModuleRef) : (w.wake m).subscribers = w.subscribers := by
  unfold wake
  split <;> rfl

@[simp] theorem wake_now (w : World) (m : ModuleRef) : (w.wake m).now = w.now := by
  unfold wake
  split <;> rfl

theorem accepted_of_accept (w : World) (m : ModuleRef) (envelope : Envelope) (inbox : Inbox)
    (other : ModuleRef) : (((w.setInbox m inbox).record (.accepted m envelope)).wake m).accepted other =
      w.accepted other ++ if other = m then [envelope] else [] :=
  accepted_cons (w := w) (wake_journal _ _) other

theorem found_adjust {w : World} {m other : ModuleRef} {f : Module → Module} {target : Module}
    (found : (w.modules.adjust m f).get? other = some target) :
    (other = m ∧ ∃ before, w.modules.get? m = some before ∧ f before = target) ∨
      (other ≠ m ∧ w.modules.get? other = some target) := by
  by_cases same : other = m
  · subst same
    rw [Roster.get?_adjust_self] at found
    exact Or.inl ⟨rfl, Option.map_eq_some_iff.1 found⟩
  · rw [w.modules.get?_adjust_of_ne f same] at found
    exact Or.inr ⟨same, found⟩

end World

/-- A script leaves a module as it was but for the envelopes that it has accepted meanwhile. -/
theorem Deed.posted {w later : World} (h : Deed w later) {m : ModuleRef} {target : Module}
    (found : w.modules.get? m = some target) :
    ∃ more, later.modules.get? m = some (target.posted more) ∧ later.accepted m = w.accepted m ++ more := by
  cases h with
  | @accept other receiver envelope inbox there posted =>
    have grown := w.accepted_of_accept other envelope inbox m
    by_cases same : m = other
    · subst same
      obtain rfl : receiver = target := Option.some.inj (there.symm.trans found)
      obtain ⟨-, -, rfl⟩ := Inbox.post_eq_ok.1 posted
      refine ⟨[envelope], ?_, ?_⟩
      · simp [World.record, World.setInbox, World.adjustModule, found, Module.posted]
      · rw [grown, if_pos rfl]
    · refine ⟨[], ?_, ?_⟩
      · simp [World.record, World.setInbox, World.adjustModule, Roster.get?_adjust_of_ne _ _ same, found,
          Module.posted_nil]
      · rw [grown, if_neg same]
  | aside => exact ⟨[], by rw [Module.posted_nil]; exact found, by rw [List.append_nil]; rfl⟩
  | note => exact ⟨[], by rw [Module.posted_nil]; exact found, by rw [List.append_nil]; rfl⟩
  | lend => exact ⟨[], by rw [Module.posted_nil]; exact found, by rw [List.append_nil]; rfl⟩

theorem Deeds.posted {w later : World} (h : Deeds w later) {m : ModuleRef} {target : Module}
    (found : w.modules.get? m = some target) :
    ∃ more, later.modules.get? m = some (target.posted more) ∧ later.accepted m = w.accepted m ++ more := by
  induction h with
  | refl => exact ⟨[], by rw [Module.posted_nil]; exact found, by rw [List.append_nil]⟩
  | tail _ deed ih =>
    obtain ⟨more, there, accepted⟩ := ih
    obtain ⟨last, here, grown⟩ := deed.posted there
    exact ⟨more ++ last, by rw [here, Module.posted_posted], by rw [grown, accepted, List.append_assoc]⟩

/-- A reading of the journal that passes over acceptances and actions learns nothing from scripts. -/
theorem Deeds.noted_eq {α : Type} {w later : World} (h : Deeds w later) {reading? : Entry → Option α}
    (accepting : ∀ m envelope, reading? (.accepted m envelope) = none)
    (acting : ∀ action answer, reading? (.acted action answer) = none) :
    later.noted reading? = w.noted reading? := by
  induction h with
  | refl => rfl
  | tail _ deed ih =>
    refine Eq.trans ?_ ih
    cases deed with
    | accept found posted => exact World.noted_of_none (World.wake_journal _ _) (accepting _ _)
    | aside => rfl
    | note => exact World.noted_of_none rfl (acting _ _)
    | lend => rfl

theorem Deeds.taken {w later : World} (h : Deeds w later) (m : ModuleRef) : later.taken m = w.taken m :=
  h.noted_eq (fun _ _ => rfl) fun _ _ => rfl

theorem Deeds.deliveries {w later : World} (h : Deeds w later) (m : ModuleRef) :
    later.deliveries m = w.deliveries m :=
  h.noted_eq (fun _ _ => rfl) fun _ _ => rfl

namespace World

theorem submit_deeds (w : World) (m : ModuleRef) (envelope : Envelope) :
    Deeds w (w.submit m envelope).1 := by
  unfold submit
  split
  · exact .refl
  · rename_i target found
    split
    · exact .refl
    · rename_i inbox posted
      exact .single (.accept found posted)

theorem submitTo_deeds (w : World) (name : String) (envelope : Envelope) :
    Deeds w (w.submitTo name envelope).1 := by
  unfold submitTo
  split
  · exact .refl
  · exact w.submit_deeds _ _

theorem request_deeds (w : World) (name : String) (request : Except Refusal Request) :
    Deeds w (w.request name request).1 := by
  cases request with
  | error refusal => exact .refl
  | ok request => exact w.submitTo_deeds _ _

theorem reply_deeds (w : World) (transfer : Nat) (notification : Notification) :
    Deeds w (w.reply transfer notification).1 := by
  unfold reply
  split
  · exact .refl
  · exact w.submit_deeds _ _

theorem adjustSubscriber_deeds (w : World) (s : SubscriberRef) (f : Subscriber → Subscriber) :
    Deeds w (w.adjustSubscriber s f) := .single (.aside w _ _ _ _)

theorem addSubscriber_deeds (w : World) (name : String) (subscriber : Subscriber) :
    Deeds w (w.addSubscriber name subscriber) := .single (.aside w _ _ _ _)

theorem adjustDevice_deeds (w : World) (name : String) (f : Device → Device) :
    Deeds w (w.adjustDevice name f) := .single (.aside w _ _ _ _)

theorem letGo_deeds (w : World) (name : String) : Deeds w (w.letGo name) := by
  unfold letGo
  split
  · exact .refl
  · exact w.adjustSubscriber_deeds _ _

theorem ensureSubscriber_deeds (w : World) (name : String) : Deeds w (w.ensureSubscriber name).1 := by
  unfold ensureSubscriber
  split
  · exact .refl
  · exact w.addSubscriber_deeds _ _

theorem ensureDevice_deeds (w : World) (name : String) : Deeds w (w.ensureDevice name) := by
  unfold ensureDevice
  split
  · exact .refl
  · exact .single (.aside w _ _ _ _)

theorem perform_deeds (w : World) (action : Action) : Deeds w (w.perform action).1 := by
  cases action with
  | enable name subscriber =>
    cases subscriber with
    | none => exact w.request_deeds _ _
    | some subscriber => exact (w.ensureSubscriber_deeds _).trans (request_deeds _ _ _)
  | start name mode => exact w.request_deeds _ _
  | transfer name power duration => exact w.request_deeds _ _
  | notify name notification => exact w.submitTo_deeds _ _
  | reply transfer notification => exact w.reply_deeds _ _
  | setDevice name change onTransfer =>
    exact (w.ensureDevice_deeds _).trans (adjustDevice_deeds _ _ _)
  | subscribe name kind reactions => exact (w.letGo_deeds _).trans (addSubscriber_deeds _ _ _)
  | release name => exact w.letGo_deeds _
  | query name runtime id => exact .refl

theorem runScript_deeds (w : World) (script : Script) : Deeds w (w.runScript script) := by
  induction script generalizing w with
  | nil => exact .refl
  | cons action rest ih =>
    have noted : Deeds w ((w.perform action).1.record (.acted action (w.perform action).2)) :=
      (w.perform_deeds action).tail (.note _ _ _)
    exact noted.trans (ih _)

def callback (w : World) (m : ModuleRef) (s : SubscriberRef) (event : Event) : World × Script :=
  let w := w.record (.delivered m s event)
  match w.subscribers.get? s with
  | none => (w, [])
  | some subscriber =>
    if subscriber.kind = .recorder then
      match takeReaction event.kind subscriber.reactions with
      | none => (w, [])
      | some (script, others) =>
        (w.adjustSubscriber s fun subscriber => { subscriber with reactions := others }, script)
    else (w, [])

def reporting (w : World) (m : ModuleRef) (event : Event) : World × Script :=
  match (w.modules.get? m).bind fun target => w.listener? target.context with
  | some s => { w with inHand := [s] }.callback m s event
  | none => (w.record (.dropped m event), [])

/-- The device has been handed a power transfer and has not answered yet. -/
def handOver (w : World) (transfer : Transfer) : World :=
  ({ w with transfers := w.transfers ++ [transfer] }.grant transfer.issuer (.device w.transfers.length)).record
    (.forwarded transfer.issuer w.transfers.length transfer.device transfer.power transfer.duration)

def transferring (w : World) (transfer : Transfer) : World × Script :=
  match w.devices.get? transfer.device with
  | none => (w.handOver transfer, [])
  | some device =>
    match device.onTransfer with
    | [] => (w.handOver transfer, [])
    | script :: rest =>
      ((w.handOver transfer).adjustDevice transfer.device fun device => { device with onTransfer := rest },
        script)

def dispatching (w : World) (m : ModuleRef) (target : Module) : Envelope → World × Script
  | .request (.enable s) =>
    if (w.readings target.device).acceptsEnable then
      { w.setContext m (target.context.enabledFor s) with inHand := [s] }.callback m s (.enableResult .ok)
    else { w with inHand := [s] }.callback m s (.enableResult .failed)
  | .request (.start mode) =>
    match startRejection? target.context (w.readings target.device) mode with
    | some rejection => (w.record (.rejected m rejection), [])
    | none => (w.setContext m (target.context.startedIn mode)).reporting m (.startResult .ok)
  | .request (.transfer power duration) =>
    w.transferring { issuer := m, device := target.device, power, duration }
  | .notification notification => w.reporting m notification.event

theorem deliver_eq (w : World) (m : ModuleRef) (s : SubscriberRef) (event : Event) :
    w.deliver m s event = (w.callback m s event).1.runScript (w.callback m s event).2 := by
  simp only [deliver, callback]
  cases (w.record (.delivered m s event)).subscribers.get? s with
  | none => rfl
  | some subscriber =>
    by_cases recorder : subscriber.kind = .recorder
    · simp only [recorder, if_true]
      cases takeReaction event.kind subscriber.reactions with
      | none => rfl
      | some reaction => rfl
    · simp only [recorder, if_false]
      rfl

theorem report_eq (w : World) (m : ModuleRef) (event : Event) : ∃ inHand,
    w.report m event = { (w.reporting m event).1.runScript (w.reporting m event).2 with inHand } := by
  simp only [report, reporting]
  cases (w.modules.get? m).bind fun target => w.listener? target.context with
  | none => exact ⟨w.inHand, rfl⟩
  | some s =>
    refine ⟨[], ?_⟩
    simp only [deliverHolding, deliver_eq]

theorem dispatchTransfer_eq (w : World) (m : ModuleRef) (target : Module) (power : PowerAdjustment)
    (duration : TransferDuration) : w.dispatchTransfer m target power duration =
      (w.transferring ⟨m, target.device, power, duration⟩).1.runScript
        (w.transferring ⟨m, target.device, power, duration⟩).2 := by
  simp only [dispatchTransfer, transferring, handOver, grant, record]
  cases w.devices.get? target.device with
  | none => rfl
  | some device =>
    dsimp only
    cases device.onTransfer with
    | nil => rfl
    | cons script rest => rfl

theorem dispatchEnable_eq (w : World) (m : ModuleRef) (target : Module) (s : SubscriberRef) :
    w.dispatchEnable m target s = { (w.dispatching m target (.request (.enable s))).1.runScript
      (w.dispatching m target (.request (.enable s))).2 with inHand := [] } := by
  simp only [dispatchEnable, dispatching, deliverHolding, deliver_eq]
  split
  · rfl
  · rfl

theorem dispatch_eq (w : World) (m : ModuleRef) (target : Module) (envelope : Envelope) : ∃ inHand,
    w.dispatch m target envelope =
      { (w.dispatching m target envelope).1.runScript (w.dispatching m target envelope).2 with inHand } := by
  cases envelope with
  | notification notification => exact w.report_eq m _
  | request request =>
    cases request with
    | enable s => exact ⟨[], w.dispatchEnable_eq m target s⟩
    | start mode =>
      simp only [dispatch, dispatchStart, dispatching]
      cases startRejection? target.context (w.readings target.device) mode with
      | some rejection => exact ⟨w.inHand, rfl⟩
      | none => exact report_eq _ m _
    | transfer power duration => exact ⟨_, w.dispatchTransfer_eq m target power duration⟩

theorem callback_deeds (w : World) (m : ModuleRef) (s : SubscriberRef) (event : Event) :
    Deeds (w.record (.delivered m s event)) (w.callback m s event).1 := by
  unfold callback
  dsimp only
  split
  · exact .refl
  · split
    · split
      · exact .refl
      · exact adjustSubscriber_deeds _ _ _
    · exact .refl

theorem callback_holding_deeds (w : World) (m : ModuleRef) (s : SubscriberRef) (event : Event) :
    Deeds (w.record (.delivered m s event)) ({ w with inHand := [s] }.callback m s event).1 := by
  have called := callback_deeds { w with inHand := [s] } m s event
  exact called.head (.aside _ _ _ _ [s])

def reportEntry (w : World) (m : ModuleRef) (context : Context) (event : Event) : Entry :=
  match w.listener? context with
  | some s => .delivered m s event
  | none => .dropped m event

theorem reporting_deeds (w : World) (m : ModuleRef) (event : Event) {target : Module}
    (found : w.modules.get? m = some target) :
    Deeds (w.record (w.reportEntry m target.context event)) (w.reporting m event).1 := by
  simp only [reporting, reportEntry, found, Option.bind_some]
  cases w.listener? target.context with
  | some s => exact w.callback_holding_deeds m s event
  | none => exact .refl

def outcome (w : World) (m : ModuleRef) (target : Module) : Envelope → Context × Entry
  | .request (.enable s) =>
    if (w.readings target.device).acceptsEnable then
      (target.context.enabledFor s, .delivered m s (.enableResult .ok))
    else (target.context, .delivered m s (.enableResult .failed))
  | .request (.start mode) =>
    match startRejection? target.context (w.readings target.device) mode with
    | some rejection => (target.context, .rejected m rejection)
    | none =>
      (target.context.startedIn mode, w.reportEntry m target.context (.startResult .ok))
  | .request (.transfer power duration) =>
    (target.context, .forwarded m w.transfers.length target.device power duration)
  | .notification notification =>
    (target.context, w.reportEntry m target.context notification.event)

theorem outcome_unread {α : Type} {reading? : Entry → Option α} (w : World) (m : ModuleRef) (target : Module)
    (envelope : Envelope) (delivering : ∀ s event, reading? (.delivered m s event) = none)
    (dropping : ∀ event, reading? (.dropped m event) = none)
    (rejecting : ∀ rejection, reading? (.rejected m rejection) = none)
    (forwarding : ∀ number device power duration, reading? (.forwarded m number device power duration) = none) :
    reading? (w.outcome m target envelope).2 = none := by
  have reporting : ∀ context event, reading? (w.reportEntry m context event) = none := by
    intro context event
    unfold reportEntry
    split
    · exact delivering _ _
    · exact dropping _
  cases envelope with
  | notification notification => exact reporting _ _
  | request request =>
    cases request with
    | enable s =>
      simp only [outcome]
      split
      · exact delivering _ _
      · exact delivering _ _
    | start mode =>
      simp only [outcome]
      split
      · exact rejecting _
      · exact reporting _ _
    | transfer power duration => exact forwarding _ _ _ _

theorem outcome_acceptedBy? (w : World) (m other : ModuleRef) (target : Module) (envelope : Envelope) :
    Entry.acceptedBy? other (w.outcome m target envelope).2 = none := by
  apply outcome_unread
  all_goals intros; rfl

theorem outcome_takenBy? (w : World) (m other : ModuleRef) (target : Module) (envelope : Envelope) :
    Entry.takenBy? other (w.outcome m target envelope).2 = none := by
  apply outcome_unread
  all_goals intros; rfl

def took (w : World) (m : ModuleRef) (envelope : Envelope) (inbox : Inbox) : World :=
  (w.setInbox m inbox).record (.taken m envelope)

/-- The world in which the outcome of an envelope is known, and whoever is called has not been called yet. -/
def told (w : World) (m : ModuleRef) (target : Module) (envelope : Envelope) : World :=
  (w.setContext m (w.outcome m target envelope).1).record (w.outcome m target envelope).2

theorem took_found (w : World) {m : ModuleRef} {target : Module} (envelope : Envelope) (inbox : Inbox)
    (found : w.modules.get? m = some target) :
    (w.took m envelope inbox).modules.get? m = some (target.withInbox inbox) := by
  simp [took, record, setInbox, adjustModule, found]

theorem told_found (w : World) {m : ModuleRef} {target : Module} (envelope : Envelope)
    (found : w.modules.get? m = some target) : (w.told m target envelope).modules.get? m =
      some (target.withContext (w.outcome m target envelope).1) := by
  simp [told, record, setContext, adjustModule, found]

theorem told_accepted (w : World) (m : ModuleRef) (target : Module) (envelope : Envelope) (other : ModuleRef) :
    (w.told m target envelope).accepted other = w.accepted other :=
  noted_of_none rfl (w.outcome_acceptedBy? m other target envelope)

theorem told_taken (w : World) (m : ModuleRef) (target : Module) (envelope : Envelope) (other : ModuleRef) :
    (w.told m target envelope).taken other = w.taken other :=
  noted_of_none rfl (w.outcome_takenBy? m other target envelope)

theorem took_taken (w : World) (m : ModuleRef) (envelope : Envelope) (inbox : Inbox) (other : ModuleRef) :
    (w.took m envelope inbox).taken other = w.taken other ++ if other = m then [envelope] else [] :=
  taken_cons (w := w) rfl other

theorem setContext_self (w : World) {m : ModuleRef} {target : Module}
    (found : w.modules.get? m = some target) : w.setContext m target.context = w := by
  have same : w.modules.adjust m (·.withContext target.context) = w.modules :=
    w.modules.adjust_eq_self found rfl
  simp only [setContext, adjustModule, same]

theorem isAlive_setContext (w : World) (m : ModuleRef) (context : Context) (s : SubscriberRef) :
    (w.setContext m context).isAlive s = w.isAlive s := by
  have waiting : (w.modules.adjust m (·.withContext context)).any (·.2.inbox.holds s) =
      w.modules.any (·.2.inbox.holds s) :=
    w.modules.any_adjust m (·.withContext context) (·.inbox.holds s) fun _ => rfl
  simp only [isAlive, setContext, adjustModule, waiting]

theorem isAlive_iff {w : World} (numbered : w.modules.Numbered) {s : SubscriberRef} : w.isAlive s = true ↔
    (w.subscribers.get? s).any (·.held) = true ∨
      (∃ m target, w.modules.get? m = some target ∧ target.inbox.holds s = true) ∨ s ∈ w.inHand := by
  simp only [isAlive, Bool.or_eq_true, List.any_eq_true, List.contains_iff_mem, or_assoc]
  refine or_congr_right (or_congr_left ?_)
  constructor
  · rintro ⟨⟨m, target⟩, member, holds⟩
    exact ⟨m, target, Roster.get?_of_mem numbered.1 member, holds⟩
  · rintro ⟨m, target, found, holds⟩
    exact ⟨(m, target), Roster.mem_of_get? found, holds⟩

theorem isAlive_of_held {w : World} {s : SubscriberRef} (held : (w.subscribers.get? s).any (·.held) = true) :
    w.isAlive s = true := by
  rw [isAlive, held, Bool.true_or, Bool.true_or]

theorem isAlive_of_waiting {w : World} {m : ModuleRef} {target : Module} (found : w.modules.get? m = some target)
    {s : SubscriberRef} (waits : .request (.enable s) ∈ target.inbox.queue) : w.isAlive s = true := by
  have holds : w.modules.any (·.2.inbox.holds s) = true :=
    List.any_eq_true.2 ⟨(m, target), Roster.mem_of_get? found, List.contains_iff_mem.2 waits⟩
  rw [isAlive, holds, Bool.or_true, Bool.true_or]

theorem reportEntry_setContext (w : World) (m : ModuleRef) (context : Context) {later : Context}
    (event : Event) (same : later.registered = context.registered) :
    (w.setContext m later).reportEntry m later event = w.reportEntry m context event := by
  have alive : (w.setContext m later).isAlive = w.isAlive :=
    funext fun s => w.isAlive_setContext m later s
  simp only [reportEntry, listener?, alive, same]

theorem dispatching_deeds (w : World) (m : ModuleRef) {target : Module} (envelope : Envelope)
    (found : w.modules.get? m = some target) :
    Deeds (w.told m target envelope) (w.dispatching m target envelope).1 := by
  unfold told
  cases envelope with
  | notification notification =>
    simp only [outcome, dispatching, w.setContext_self found]
    exact w.reporting_deeds m _ found
  | request request =>
    cases request with
    | enable s =>
      simp only [outcome, dispatching]
      split
      · exact callback_holding_deeds _ _ _ _
      · simp only [w.setContext_self found]
        exact w.callback_holding_deeds _ _ _
    | start mode =>
      cases gate : startRejection? target.context (w.readings target.device) mode with
      | some rejection =>
        simp only [outcome, dispatching, gate, w.setContext_self found]
        exact .refl
      | none =>
        have started : (w.setContext m (target.context.startedIn mode)).modules.get? m =
            some (target.withContext (target.context.startedIn mode)) := by
          simp [setContext, adjustModule, found]
        have same := w.reportEntry_setContext m target.context (.startResult .ok)
          (rfl : (target.context.startedIn mode).registered = target.context.registered)
        have reported := reporting_deeds _ m (.startResult .ok) started
        simp only [outcome, dispatching, gate]
        rw [← same]
        exact reported
    | transfer power duration =>
      simp only [outcome, dispatching, transferring, handOver, w.setContext_self found]
      let transfers := w.transfers ++ [⟨m, target.device, power, duration⟩]
      refine .head (.aside _ w.devices w.subscribers transfers w.inHand) (.head (.lend _ m w.transfers.length) ?_)
      split
      · exact .refl
      · split
        · exact .refl
        · exact adjustDevice_deeds _ _ _

theorem dispatch_deeds (w : World) (m : ModuleRef) {target : Module} (envelope : Envelope)
    (found : w.modules.get? m = some target) :
    Deeds (w.told m target envelope) (w.dispatch m target envelope) := by
  obtain ⟨inHand, same⟩ := w.dispatch_eq m target envelope
  rw [same]
  exact ((w.dispatching_deeds m envelope found).trans (runScript_deeds _ _)).tail (.aside _ _ _ _ _)

theorem dispatch_withInbox (w : World) (m : ModuleRef) (target : Module) (inbox : Inbox)
    (envelope : Envelope) :
    w.dispatch m (target.withInbox inbox) envelope = w.dispatch m target envelope := by
  cases envelope with
  | notification notification => rfl
  | request request => cases request <;> rfl

theorem dispatching_withInbox (w : World) (m : ModuleRef) (target : Module) (inbox : Inbox) (envelope : Envelope) :
    w.dispatching m (target.withInbox inbox) envelope = w.dispatching m target envelope := by
  cases envelope with
  | notification notification => rfl
  | request request => cases request <;> rfl

theorem attend?_eq_some {w after : World} {m : ModuleRef} : w.attend? m = some after ↔
    ∃ target, w.modules.get? m = some target ∧ target.phase = .running ∧
      ((target.cancelled = true ∧ after = w.closeDown m target) ∨
        (target.cancelled = false ∧ ∃ envelope inbox, target.inbox.take? = some (envelope, inbox) ∧
          after = (w.took m envelope inbox).dispatch m target envelope)) := by
  constructor
  · intro attended
    unfold attend? at attended
    split at attended
    · cases attended
    · rename_i target found
      split at attended
      · cases attended
      · rename_i running
        refine ⟨target, found, Decidable.of_not_not running, ?_⟩
        split at attended
        · rename_i cancelled
          exact Or.inl ⟨cancelled, (Option.some.inj attended).symm⟩
        · rename_i kept
          split at attended
          · cases attended
          · rename_i envelope inbox took
            exact Or.inr ⟨Bool.not_eq_true _ ▸ kept, envelope, inbox, took, (Option.some.inj attended).symm⟩
  · rintro ⟨target, found, running, ⟨cancelled, rfl⟩ | ⟨kept, envelope, inbox, took, rfl⟩⟩
    · simp [attend?, found, running, cancelled]
    · simp [attend?, found, running, kept, took, World.took]

theorem attend?_taking {w : World} {m : ModuleRef} {target : Module} (found : w.modules.get? m = some target)
    (running : target.phase = .running) (kept : target.cancelled = false) {envelope : Envelope} {inbox : Inbox}
    (took : target.inbox.take? = some (envelope, inbox)) :
    w.attend? m = some ((w.took m envelope inbox).dispatch m target envelope) :=
  attend?_eq_some.2 ⟨target, found, running, Or.inr ⟨kept, envelope, inbox, took, rfl⟩⟩

theorem attend?_closing {w : World} {m : ModuleRef} {target : Module} (found : w.modules.get? m = some target)
    (running : target.phase = .running) (cancelled : target.cancelled = true) :
    w.attend? m = some (w.closeDown m target) :=
  attend?_eq_some.2 ⟨target, found, running, Or.inl ⟨cancelled, rfl⟩⟩

/-- A dispatcher that goes on either sees that it is cancelled, or it takes the first envelope, sees to what
comes of it, and leaves the rest to scripts. -/
theorem attend?_cases {w after : World} {m : ModuleRef} (h : w.attend? m = some after) :
    ∃ target, w.modules.get? m = some target ∧ target.phase = .running ∧
      ((target.cancelled = true ∧ after = w.closeDown m target) ∨
        (target.cancelled = false ∧ ∃ envelope inbox, target.inbox.take? = some (envelope, inbox) ∧
          Deeds ((w.took m envelope inbox).told m (target.withInbox inbox) envelope) after)) := by
  obtain ⟨target, found, running, past | ⟨kept, envelope, inbox, took, rfl⟩⟩ := attend?_eq_some.1 h
  · exact ⟨target, found, running, Or.inl past⟩
  · have deeds := dispatch_deeds _ m envelope (w.took_found envelope inbox found)
    rw [dispatch_withInbox] at deeds
    exact ⟨target, found, running, Or.inr ⟨kept, envelope, inbox, took, deeds⟩⟩

theorem idle_of_attend?_none {w : World} {m : ModuleRef} (h : w.attend? m = none) {target : Module}
    (found : w.modules.get? m = some target) (running : target.phase = .running) :
    target.cancelled = false ∧ target.inbox.queue = [] := by
  cases cancelled : target.cancelled with
  | true => simp [attend?, found, running, cancelled] at h
  | false =>
    cases waiting : target.inbox.queue with
    | nil => exact ⟨rfl, rfl⟩
    | cons envelope rest => simp [attend?, found, running, cancelled, Inbox.take?, waiting] at h

theorem callHook_deeds (w : World) (m : ModuleRef) (target : Module) (kind : HookKind) :
    w.callHook m target kind = w ∨
      ∃ tag subscribed, Deeds (w.record (.hookCalled m kind tag target.context subscribed))
        (w.callHook m target kind) := by
  unfold callHook
  split
  · exact Or.inl rfl
  · exact Or.inr ⟨_, _, runScript_deeds _ _⟩

end World

end WirelessCharging
