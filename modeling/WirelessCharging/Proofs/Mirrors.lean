import WirelessCharging.Proofs.Sides
/-!
A world that mirrors what the side of a module sees of another one. Whatever is done on this side can be done in both
worlds and comes to the same in both, and whatever is done on the other side is not seen. Who is in line for what, and
who has a sender to what, is left open.
-/
namespace WirelessCharging

structure Side.Mirrors (S : Side) (w v : World) : Prop where
  now : v.now = w.now
  registries : v.registries = w.registries.part S.registers id
  runtimes : v.runtimes = w.runtimes.part S.runtime id
  modules : v.modules = w.modules.part S.owns S.seenModule
  devices : v.devices = w.devices.part S.device S.seenDevice
  subscribers : v.subscribers = w.subscribers.part S.hears S.seenSubscriber
  transfers : v.transfers = w.transfers.filter S.asked
  journal : v.journal.filter (!·.isVoid) = w.journal.filterMap S.entrySeen?

structure Side.MirrorsOutcome (S : Side) (outcome other : World × Answer) : Prop where
  world : S.Mirrors outcome.1 other.1
  answer : other.2 = outcome.2

theorem World.wake_eq (w : World) (m : ModuleRef) : ∃ ready, w.wake m = { w with ready } := by
  unfold wake
  split
  · exact ⟨_, rfl⟩
  · exact ⟨w.ready, rfl⟩

namespace Side

variable {S : Side} {w v : World} {m : ModuleRef}

theorem mirrors_empty (S : Side) : S.Mirrors {} {} := ⟨rfl, rfl, rfl, rfl, rfl, rfl, rfl, rfl⟩

namespace Mirrors

theorem found (h : S.Mirrors w v) (own : S.owns m = true) :
    v.modules.get? m = (w.modules.get? m).map S.seenModule := by
  rw [h.modules, Roster.get?_part _ _ own]

theorem latest? (h : S.Mirrors w v) {name : String} (own : S.names name = true) :
    v.modules.latest? name = w.modules.latest? name := by
  rw [h.modules]
  exact Roster.latest?_part w.modules S.seenModule own

theorem device (h : S.Mirrors w v) {name : String} (own : S.device name = true) :
    v.devices.get? name = (w.devices.get? name).map S.seenDevice := by
  rw [h.devices, Roster.get?_part _ _ own]

theorem readings (h : S.Mirrors w v) {name : String} (own : S.device name = true) :
    v.readings name = w.readings name := by
  rw [World.readings, World.readings, h.device own]
  cases w.devices.get? name with
  | none => rfl
  | some device => rfl

theorem subscriber (h : S.Mirrors w v) {s : SubscriberRef} (own : S.hears s = true) :
    v.subscribers.get? s = (w.subscribers.get? s).map S.seenSubscriber := by
  rw [h.subscribers]
  exact Roster.get?_part w.subscribers S.seenSubscriber own

theorem heldSubscriber? (h : S.Mirrors w v) {name : String} (own : S.subscriber name = true) :
    v.heldSubscriber? name = w.heldSubscriber? name := by
  have latest : v.subscribers.latest? name = w.subscribers.latest? name := by
    rw [h.subscribers]
    exact Roster.latest?_part w.subscribers S.seenSubscriber own
  rw [World.heldSubscriber?, World.heldSubscriber?, latest]
  cases found : w.subscribers.latest? name with
  | none => rfl
  | some s =>
    have held : (v.subscribers.get? s).any (·.held) = (w.subscribers.get? s).any (·.held) := by
      rw [h.subscriber (by rw [Side.hears, Roster.name_of_latest? found, own])]
      cases w.subscribers.get? s with
      | none => rfl
      | some subscriber => rfl
    simp only [Option.filter, held]

theorem runtime (h : S.Mirrors w v) {name : String} (own : S.runtime name = true) :
    v.runtimes.get? name = w.runtimes.get? name := by
  rw [h.runtimes, Roster.get?_part _ _ own, Option.map_id]
  rfl

theorem registry (h : S.Mirrors w v) {registry : RegistryRef} (own : S.registers registry = true) :
    v.registries.get? registry = w.registries.get? registry := by
  rw [h.registries]
  exact (Roster.get?_part w.registries id own).trans (congrFun Option.map_id _)

theorem registration? (h : S.Mirrors w v) {registry : RegistryRef} (own : S.registers registry = true)
    (id : ModuleId) : v.registration? registry id = w.registration? registry id := by
  rw [World.registration?, World.registration?, h.registry own]

theorem isAlive (h : S.Mirrors w v) (sided : w.Sided S) (free : w.inHand = []) (alsoFree : v.inHand = [])
    {s : SubscriberRef} (own : S.hears s = true) :
    v.isAlive s = w.isAlive s := by
  have held : (v.subscribers.get? s).any (·.held) = (w.subscribers.get? s).any (·.held) := by
    rw [h.subscriber own]
    cases w.subscribers.get? s with
    | none => rfl
    | some subscriber => rfl
  have waits : v.modules.any (·.2.inbox.holds s) = w.modules.any (·.2.inbox.holds s) := by
    have seen : v.modules.any (·.2.inbox.holds s) = (w.modules.filter (S.owns ·.1)).any (·.2.inbox.holds s) := by
      rw [h.modules, Roster.part, Roster.mapped, List.any_map]
      rfl
    rw [seen, Bool.eq_iff_iff, List.any_eq_true, List.any_eq_true]
    constructor
    · rintro ⟨entry, member, holds⟩
      exact ⟨entry, (List.mem_filter.1 member).1, holds⟩
    · rintro ⟨entry, member, holds⟩
      have side := (sided.modules entry member).queue _ (List.contains_iff_mem.1 holds)
      exact ⟨entry, List.mem_filter.2 ⟨member, side.symm.trans own⟩, holds⟩
  rw [World.isAlive, World.isAlive, held, waits, free, alsoFree]

theorem listener? (h : S.Mirrors w v) (sided : w.Sided S) (free : w.inHand = []) (alsoFree : v.inHand = [])
    {context : Context} (registered : ∀ s ∈ context.registered, S.hears s = true) :
    v.listener? context = w.listener? context := by
  rw [World.listener?, World.listener?]
  cases found : context.registered with
  | none => rfl
  | some s => simp only [Option.filter, h.isAlive sided free alsoFree (registered s found)]

theorem note (h : S.Mirrors w v) {entry seen : Entry} (kept : S.entrySeen? entry = some seen)
    (plain : seen.isVoid = false) : S.Mirrors (w.record entry) (v.record seen) := by
  refine ⟨h.now, h.registries, h.runtimes, h.modules, h.devices, h.subscribers, h.transfers, ?_⟩
  rw [World.record, World.record, List.filterMap_cons_some kept, List.filter_cons_of_pos (by rw [plain]; rfl),
    h.journal]

theorem noteHidden (h : S.Mirrors w v) {entry : Entry} (hidden : S.entrySeen? entry = none) :
    S.Mirrors (w.record entry) v := by
  refine ⟨h.now, h.registries, h.runtimes, h.modules, h.devices, h.subscribers, h.transfers, ?_⟩
  rw [World.record, List.filterMap_cons_none hidden, h.journal]

theorem noteVoid (h : S.Mirrors w v) {entry : Entry} (void : entry.isVoid = true) : S.Mirrors w (v.record entry) := by
  refine ⟨h.now, h.registries, h.runtimes, h.modules, h.devices, h.subscribers, h.transfers, ?_⟩
  rw [World.record, List.filter_cons_of_neg (by rw [void]; exact Bool.false_ne_true), h.journal]

theorem wake (h : S.Mirrors w v) (m : ModuleRef) : S.Mirrors (w.wake m) (v.wake m) := by
  obtain ⟨ready, same⟩ := w.wake_eq m
  obtain ⟨line, alike⟩ := v.wake_eq m
  rw [same, alike]
  exact ⟨h.now, h.registries, h.runtimes, h.modules, h.devices, h.subscribers, h.transfers, h.journal⟩

theorem wakeHidden (h : S.Mirrors w v) (m : ModuleRef) : S.Mirrors (w.wake m) v := by
  obtain ⟨ready, same⟩ := w.wake_eq m
  rw [same]
  exact ⟨h.now, h.registries, h.runtimes, h.modules, h.devices, h.subscribers, h.transfers, h.journal⟩

theorem adjustModule (h : S.Mirrors w v) (own : S.owns m = true) {f g : Module → Module}
    (same : ∀ target, w.modules.get? m = some target → S.seenModule (f target) = g (S.seenModule target)) :
    S.Mirrors (w.adjustModule m f) (v.adjustModule m g) := by
  refine ⟨h.now, h.registries, h.runtimes, ?_, h.devices, h.subscribers, h.transfers, h.journal⟩
  rw [World.adjustModule, World.adjustModule, Roster.part_adjust own same, h.modules]

theorem adjustModuleHidden (h : S.Mirrors w v) (other : S.owns m = false) (f : Module → Module) :
    S.Mirrors (w.adjustModule m f) v := by
  refine ⟨h.now, h.registries, h.runtimes, ?_, h.devices, h.subscribers, h.transfers, h.journal⟩
  rw [World.adjustModule, Roster.part_adjust_other other, h.modules]

theorem change (h : S.Mirrors w v) (own : S.owns m = true) (f : Module → Module)
    (same : ∀ target, S.seenModule (f target) = f (S.seenModule target)) :
    S.Mirrors (w.adjustModule m f) (v.adjustModule m f) := h.adjustModule own fun target _ => same target

theorem setSenders (h : S.Mirrors w v) (senders others : List Sender) :
    S.Mirrors { w with senders } { v with senders := others } :=
  ⟨h.now, h.registries, h.runtimes, h.modules, h.devices, h.subscribers, h.transfers, h.journal⟩

theorem setSendersHidden (h : S.Mirrors w v) (senders : List Sender) : S.Mirrors { w with senders } v :=
  ⟨h.now, h.registries, h.runtimes, h.modules, h.devices, h.subscribers, h.transfers, h.journal⟩

theorem finish (h : S.Mirrors w v) (own : S.owns m = true) : S.Mirrors (w.finish m) (v.finish m) :=
  (h.change own (·.ended .finished) fun _ => rfl).setSenders _ _

theorem finishHidden (h : S.Mirrors w v) (other : S.owns m = false) : S.Mirrors (w.finish m) v :=
  (h.adjustModuleHidden other (·.ended .finished)).setSendersHidden _

theorem discard (h : S.Mirrors w v) (own : S.owns m = true) : S.Mirrors (w.discard m) (v.discard m) :=
  (h.change own (·.ended .dropped) fun _ => rfl).setSenders _ _

theorem discardHidden (h : S.Mirrors w v) (other : S.owns m = false) : S.Mirrors (w.discard m) v :=
  (h.adjustModuleHidden other (·.ended .dropped)).setSendersHidden _

theorem adjustDevice (h : S.Mirrors w v) {name : String} (own : S.device name = true) {f g : Device → Device}
    (same : ∀ device, w.devices.get? name = some device → S.seenDevice (f device) = g (S.seenDevice device)) :
    S.Mirrors (w.adjustDevice name f) (v.adjustDevice name g) := by
  refine ⟨h.now, h.registries, h.runtimes, h.modules, ?_, h.subscribers, h.transfers, h.journal⟩
  rw [World.adjustDevice, World.adjustDevice, Roster.part_adjust own same, h.devices]

theorem adjustDeviceHidden (h : S.Mirrors w v) {name : String} (other : S.device name = false) (f : Device → Device) :
    S.Mirrors (w.adjustDevice name f) v := by
  refine ⟨h.now, h.registries, h.runtimes, h.modules, ?_, h.subscribers, h.transfers, h.journal⟩
  rw [World.adjustDevice, Roster.part_adjust_other other, h.devices]

theorem ensureDevice (h : S.Mirrors w v) {name : String} (own : S.device name = true) :
    S.Mirrors (w.ensureDevice name) (v.ensureDevice name) := by
  unfold World.ensureDevice
  rw [h.device own]
  cases w.devices.get? name with
  | some device => exact h
  | none =>
    refine ⟨h.now, h.registries, h.runtimes, h.modules, ?_, h.subscribers, h.transfers, h.journal⟩
    simp only [Option.map_none, Roster.part_add own, h.devices]
    rfl

theorem ensureDeviceHidden (h : S.Mirrors w v) {name : String} (other : S.device name = false) :
    S.Mirrors (w.ensureDevice name) v := by
  unfold World.ensureDevice
  split
  · exact h
  · refine ⟨h.now, h.registries, h.runtimes, h.modules, ?_, h.subscribers, h.transfers, h.journal⟩
    rw [Roster.part_add_other other, h.devices]

theorem adjustSubscriber (h : S.Mirrors w v) {s : SubscriberRef} (own : S.hears s = true)
    {f g : Subscriber → Subscriber} (same : ∀ subscriber, w.subscribers.get? s = some subscriber →
      S.seenSubscriber (f subscriber) = g (S.seenSubscriber subscriber)) :
    S.Mirrors (w.adjustSubscriber s f) (v.adjustSubscriber s g) := by
  refine ⟨h.now, h.registries, h.runtimes, h.modules, h.devices, ?_, h.transfers, h.journal⟩
  rw [World.adjustSubscriber, World.adjustSubscriber]
  dsimp only
  rw [Roster.part_adjust own same, h.subscribers]

theorem adjustSubscriberHidden (h : S.Mirrors w v) {s : SubscriberRef} (other : S.hears s = false)
    (f : Subscriber → Subscriber) : S.Mirrors (w.adjustSubscriber s f) v := by
  refine ⟨h.now, h.registries, h.runtimes, h.modules, h.devices, ?_, h.transfers, h.journal⟩
  rw [World.adjustSubscriber]
  dsimp only
  rw [Roster.part_adjust_other other, h.subscribers]

theorem addSubscriber (h : S.Mirrors w v) {name : String} (own : S.subscriber name = true)
    {subscriber seen : Subscriber} (same : S.seenSubscriber subscriber = seen) :
    S.Mirrors (w.addSubscriber name subscriber) (v.addSubscriber name seen) := by
  refine ⟨h.now, h.registries, h.runtimes, h.modules, h.devices, ?_, h.transfers, h.journal⟩
  have next : v.subscribers.nextRef name = w.subscribers.nextRef name := by
    rw [h.subscribers]
    exact Roster.nextRef_part w.subscribers S.seenSubscriber own
  have mine : S.hears (w.subscribers.nextRef name) = true := own
  rw [World.addSubscriber, World.addSubscriber]
  dsimp only
  rw [Roster.part_add mine, next, same, h.subscribers]

theorem addSubscriberHidden (h : S.Mirrors w v) {name : String} (other : S.subscriber name = false)
    (subscriber : Subscriber) : S.Mirrors (w.addSubscriber name subscriber) v := by
  refine ⟨h.now, h.registries, h.runtimes, h.modules, h.devices, ?_, h.transfers, h.journal⟩
  have theirs : S.hears (w.subscribers.nextRef name) = false := other
  rw [World.addSubscriber]
  dsimp only
  rw [Roster.part_add_other theirs, h.subscribers]

theorem letGo (h : S.Mirrors w v) {name : String} (own : S.subscriber name = true) :
    S.Mirrors (w.letGo name) (v.letGo name) := by
  unfold World.letGo
  rw [h.heldSubscriber? own]
  cases held : w.heldSubscriber? name with
  | none => exact h
  | some s =>
    have mine : S.hears s = true := by
      rw [Side.hears, Roster.name_of_latest? (Option.filter_eq_some_iff.1 held).1, own]
    exact h.adjustSubscriber mine fun _ _ => rfl

theorem letGoHidden (h : S.Mirrors w v) {name : String} (other : S.subscriber name = false) :
    S.Mirrors (w.letGo name) v := by
  unfold World.letGo
  cases held : w.heldSubscriber? name with
  | none => exact h
  | some s =>
    have theirs : S.hears s = false := by
      rw [Side.hears, Roster.name_of_latest? (Option.filter_eq_some_iff.1 held).1, other]
    exact h.adjustSubscriberHidden theirs _

theorem ensureSubscriber (h : S.Mirrors w v) {name : String} (own : S.subscriber name = true) :
    S.Mirrors (w.ensureSubscriber name).1 (v.ensureSubscriber name).1 ∧
      (v.ensureSubscriber name).2 = (w.ensureSubscriber name).2 := by
  unfold World.ensureSubscriber
  rw [h.heldSubscriber? own]
  cases w.heldSubscriber? name with
  | some s => exact ⟨h, rfl⟩
  | none =>
    refine ⟨h.addSubscriber own rfl, ?_⟩
    simp only
    rw [h.subscribers]
    exact Roster.nextRef_part w.subscribers S.seenSubscriber own

theorem ensureSubscriberHidden (h : S.Mirrors w v) {name : String} (other : S.subscriber name = false) :
    S.Mirrors (w.ensureSubscriber name).1 v := by
  unfold World.ensureSubscriber
  split
  · exact h
  · exact h.addSubscriberHidden other _

theorem submit (h : S.Mirrors w v) (own : S.owns m = true) (envelope : Envelope) :
    S.MirrorsOutcome (w.submit m envelope) (v.submit m envelope) := by
  unfold World.submit
  rw [h.found own]
  cases w.modules.get? m with
  | none => exact ⟨h, rfl⟩
  | some target =>
    have inbox : (S.seenModule target).inbox = target.inbox := rfl
    simp only [Option.map_some, inbox]
    cases target.inbox.post envelope with
    | error refusal => exact ⟨h, rfl⟩
    | ok inbox =>
      have accepted : S.entrySeen? (.accepted m envelope) = some (.accepted m envelope) := if_pos own
      exact ⟨((h.change own (·.withInbox inbox) fun _ => rfl).note accepted rfl).wake m, rfl⟩

theorem submitHidden (h : S.Mirrors w v) (other : S.owns m = false) (envelope : Envelope) :
    S.Mirrors (w.submit m envelope).1 v := by
  unfold World.submit
  split
  · exact h
  · split
    · exact h
    · have accepted : S.entrySeen? (.accepted m envelope) = none := if_neg (ne_true_of_eq_false other)
      exact ((h.adjustModuleHidden other _).noteHidden accepted).wakeHidden m

theorem submitTo (h : S.Mirrors w v) {name : String} (own : S.names name = true) (envelope : Envelope) :
    S.MirrorsOutcome (w.submitTo name envelope) (v.submitTo name envelope) := by
  unfold World.submitTo
  rw [h.latest? own]
  cases latest : w.modules.latest? name with
  | none => exact ⟨h, rfl⟩
  | some m =>
    have mine : S.owns m = true := by rw [Side.owns, Roster.name_of_latest? latest, own]
    exact h.submit mine envelope

theorem submitToHidden (h : S.Mirrors w v) {name : String} (other : S.names name = false) (envelope : Envelope) :
    S.Mirrors (w.submitTo name envelope).1 v := by
  unfold World.submitTo
  cases latest : w.modules.latest? name with
  | none => exact h
  | some m =>
    have theirs : S.owns m = false := by rw [Side.owns, Roster.name_of_latest? latest, other]
    exact h.submitHidden theirs envelope

theorem request (h : S.Mirrors w v) {name : String} (own : S.names name = true) (request : Except Refusal Request) :
    S.MirrorsOutcome (w.request name request) (v.request name request) := by
  cases request with
  | error refusal => exact ⟨h, rfl⟩
  | ok asked => exact h.submitTo own _

theorem requestHidden (h : S.Mirrors w v) {name : String} (other : S.names name = false)
    (request : Except Refusal Request) : S.Mirrors (w.request name request).1 v := by
  cases request with
  | error refusal => exact h
  | ok asked => exact h.submitToHidden other _

end Mirrors

theorem getElem?_rank {transfers : List Transfer} (fits : transfers <+: S.transfers) {n : Nat}
    (own : S.answersOn true n = true) : (transfers.filter S.asked)[S.rank n]? = transfers[n]? := by
  obtain ⟨later, whole⟩ := fits
  by_cases there : n < transfers.length
  · have here : S.transfers[n]? = some transfers[n] := by
      rw [← whole, List.getElem?_append_left there, List.getElem?_eq_getElem there]
    have mine : S.asked transfers[n] = true := by
      rw [answersOn, here] at own
      exact beq_iff_eq.1 own
    have before : S.rank n = ((transfers.take n).filter S.asked).length := by
      rw [rank, ← whole, List.take_append_of_le_length (Nat.le_of_lt there)]
    have split : transfers.filter S.asked =
        (transfers.take n).filter S.asked ++ transfers[n] :: (transfers.drop (n + 1)).filter S.asked := by
      rw [← List.filter_cons_of_pos mine, ← List.drop_eq_getElem_cons there, ← List.filter_append,
        List.take_append_drop]
    rw [split, before, List.getElem?_append_right (Nat.le_refl _), Nat.sub_self, List.getElem?_cons_zero,
      List.getElem?_eq_getElem there]
  · have all : (transfers.filter S.asked).length ≤ S.rank n := by
      rw [rank, ← whole, List.take_append, List.take_of_length_le (Nat.le_of_not_lt there), List.filter_append,
        List.length_append]
      exact Nat.le_add_right _ _
    rw [List.getElem?_eq_none all, List.getElem?_eq_none (Nat.le_of_not_lt there)]

namespace Mirrors

theorem reply (h : S.Mirrors w v) (fits : w.transfers <+: S.transfers) {n : Nat} (own : S.answersOn true n = true)
    (notification : Notification) : S.MirrorsOutcome (w.reply n notification) (v.reply (S.rank n) notification) := by
  unfold World.reply
  rw [h.transfers, getElem?_rank fits own]
  cases found : w.transfers[n]? with
  | none => exact ⟨h, rfl⟩
  | some transfer =>
    have final : S.transfers[n]? = some transfer := by
      obtain ⟨later, whole⟩ := fits
      rw [← whole, List.getElem?_append_left (List.getElem?_eq_some_iff.1 found).1, found]
    have mine : S.owns transfer.issuer = true := by
      rw [answersOn, final] at own
      exact beq_iff_eq.1 own
    exact h.submit mine _

theorem replyHidden (h : S.Mirrors w v) (fits : w.transfers <+: S.transfers) {n : Nat}
    (other : S.answersOn false n = true) (notification : Notification) :
    S.Mirrors (w.reply n notification).1 v := by
  unfold World.reply
  cases found : w.transfers[n]? with
  | none => exact h
  | some transfer =>
    have final : S.transfers[n]? = some transfer := by
      obtain ⟨later, whole⟩ := fits
      rw [← whole, List.getElem?_append_left (List.getElem?_eq_some_iff.1 found).1, found]
    have theirs : S.owns transfer.issuer = false := by
      rw [answersOn, final] at other
      exact beq_iff_eq.1 other
    exact h.submitHidden theirs _

theorem standing (h : S.Mirrors w v) (sided : w.Sided S) {name runtime : String} (own : S.names name = true)
    (mine : S.runtime runtime = true) (id : ModuleId) : v.standing name runtime id = w.standing name runtime id := by
  have target : (v.modules.latest? name).bind v.modules.get? =
      ((w.modules.latest? name).bind w.modules.get?).map S.seenModule := by
    rw [h.latest? own]
    cases latest : w.modules.latest? name with
    | none => rfl
    | some m => exact h.found (by rw [Side.owns, Roster.name_of_latest? latest, own])
  have counts : (v.runtimes.get? runtime).map (fun registry =>
        ((v.registration? registry id).isSome, ((v.registries.get? registry).getD []).length)) =
      (w.runtimes.get? runtime).map fun registry =>
        ((w.registration? registry id).isSome, ((w.registries.get? registry).getD []).length) := by
    rw [h.runtime mine]
    cases found : w.runtimes.get? runtime with
    | none => rfl
    | some registry =>
      have registered : S.registers registry = true := (sided.runtimes.get? found).trans mine
      simp only [Option.map_some, h.registration? registered, h.registry registered]
  unfold World.standing
  rw [target, counts]
  cases (w.modules.latest? name).bind w.modules.get? with
  | none => rfl
  | some target => rfl

theorem perform (h : S.Mirrors w v) (sided : w.Sided S) {action : Action} (stays : S.actionStays true action = true) :
    S.MirrorsOutcome (w.perform action) (v.perform (S.seenAction action)) := by
  cases action with
  | enable name subscriber =>
    cases subscriber with
    | none => exact ⟨h, rfl⟩
    | some subscriber =>
      simp only [Side.actionStays, Bool.and_eq_true, beq_iff_eq] at stays
      obtain ⟨ensured, same⟩ := h.ensureSubscriber stays.2
      simp only [Side.seenAction, World.perform, same]
      exact ensured.request stays.1 _
  | start name mode => exact h.request (beq_iff_eq.1 stays) _
  | transfer name power duration => exact h.request (beq_iff_eq.1 stays) _
  | notify name notification => exact h.submitTo (beq_iff_eq.1 stays) _
  | reply n notification => exact h.reply sided.fits stays notification
  | setDevice name change onTransfer =>
    cases onTransfer with
    | none =>
      have own : S.device name = true := beq_iff_eq.1 stays
      exact ⟨(h.ensureDevice own).adjustDevice own fun _ _ => rfl, rfl⟩
    | some scripts =>
      simp only [Side.actionStays, Bool.and_eq_true, beq_iff_eq] at stays
      exact ⟨(h.ensureDevice stays.1).adjustDevice stays.1 fun _ _ => rfl, rfl⟩
  | subscribe name kind reactions =>
    simp only [Side.actionStays, Bool.and_eq_true, beq_iff_eq] at stays
    exact ⟨(h.letGo stays.1).addSubscriber stays.1 rfl, rfl⟩
  | release name =>
    have own : S.subscriber name = true := beq_iff_eq.1 stays
    refine ⟨h.letGo own, ?_⟩
    simp only [Side.seenAction, World.perform, h.heldSubscriber? own]
  | query name runtime id =>
    simp only [Side.actionStays, Bool.and_eq_true, beq_iff_eq] at stays
    exact ⟨h, h.standing sided stays.1 stays.2 id⟩

/-- A call on the other side is not seen. -/
theorem performHidden (h : S.Mirrors w v) (sided : w.Sided S) {action : Action}
    (stays : S.actionStays false action = true) : S.Mirrors (w.perform action).1 v := by
  cases action with
  | enable name subscriber =>
    cases subscriber with
    | none => exact h
    | some subscriber =>
      simp only [Side.actionStays, Bool.and_eq_true, beq_iff_eq] at stays
      exact (h.ensureSubscriberHidden stays.2).requestHidden stays.1 _
  | start name mode => exact h.requestHidden (beq_iff_eq.1 stays) _
  | transfer name power duration => exact h.requestHidden (beq_iff_eq.1 stays) _
  | notify name notification => exact h.submitToHidden (beq_iff_eq.1 stays) _
  | reply n notification => exact h.replyHidden sided.fits stays notification
  | setDevice name change onTransfer =>
    have other : S.device name = false := by
      cases onTransfer with
      | none => exact beq_iff_eq.1 stays
      | some scripts =>
        simp only [Side.actionStays, Bool.and_eq_true, beq_iff_eq] at stays
        exact stays.1
    exact (h.ensureDeviceHidden other).adjustDeviceHidden other _
  | subscribe name kind reactions =>
    simp only [Side.actionStays, Bool.and_eq_true, beq_iff_eq] at stays
    exact (h.letGoHidden stays.1).addSubscriberHidden stays.1 _
  | release name => exact h.letGoHidden (beq_iff_eq.1 stays)
  | query name runtime id => exact h

/-- Only answers to what is never asked for stay on both sides. -/
theorem of_stays_on_both {action : Action} (mine : S.actionStays true action = true)
    (theirs : S.actionStays false action = true) :
    ∃ n notification, action = .reply n notification ∧ S.transfers[n]? = none := by
  have apart : ∀ {b : Bool}, (b == true) = true → (b == false) = true → False := by decide
  cases action with
  | enable name subscriber =>
    cases subscriber with
    | none => exact (apart mine theirs).elim
    | some subscriber =>
      simp only [Side.actionStays, Bool.and_eq_true] at mine theirs
      exact (apart mine.1 theirs.1).elim
  | setDevice name change onTransfer =>
    cases onTransfer with
    | none => exact (apart mine theirs).elim
    | some scripts =>
      simp only [Side.actionStays, Bool.and_eq_true] at mine theirs
      exact (apart mine.1 theirs.1).elim
  | subscribe name kind reactions =>
    simp only [Side.actionStays, Bool.and_eq_true] at mine theirs
    exact (apart mine.1 theirs.1).elim
  | query name runtime id =>
    simp only [Side.actionStays, Bool.and_eq_true] at mine theirs
    exact (apart mine.1 theirs.1).elim
  | reply n notification =>
    refine ⟨n, notification, rfl, ?_⟩
    cases found : S.transfers[n]? with
    | none => rfl
    | some transfer =>
      simp only [Side.actionStays, answersOn, found] at mine theirs
      exact (apart mine theirs).elim
  | _ => exact (apart mine theirs).elim

theorem hidden_acted (sided : w.Sided S) {action : Action} (stays : S.actionStays false action = true) :
    S.entrySeen? (.acted action (w.perform action).2) = none := by
  by_cases mine : S.actionStays true action = true
  · obtain ⟨n, notification, rfl, never⟩ := of_stays_on_both mine stays
    have missing : w.transfers[n]? = none := by
      rw [List.getElem?_eq_none_iff] at never ⊢
      exact Nat.le_trans sided.fits.length_le never
    have unanswered : (w.perform (.reply n notification)).2 = .noSuchTransfer := by
      simp only [World.perform, World.reply, missing]
    simp only [entrySeen?, unanswered, bne_self_eq_false, Bool.and_false, Bool.false_eq_true, if_false]
  · simp only [entrySeen?, mine, Bool.false_and, Bool.false_eq_true, if_false]

theorem act (h : S.Mirrors w v) (sided : w.Sided S) {action : Action} (stays : S.actionStays true action = true) :
    S.Mirrors ((w.perform action).1.record (.acted action (w.perform action).2))
      ((v.perform (S.seenAction action)).1.record
        (.acted (S.seenAction action) (v.perform (S.seenAction action)).2)) := by
  obtain ⟨world, answer⟩ := h.perform sided stays
  rw [answer]
  by_cases void : (w.perform action).2 = .noSuchTransfer
  · have hidden : S.entrySeen? (.acted action (w.perform action).2) = none := by
      simp only [entrySeen?, void, bne_self_eq_false, Bool.and_false, Bool.false_eq_true, if_false]
    refine (world.noteHidden hidden).noteVoid ?_
    rw [void]
    rfl
  · have seen : S.entrySeen? (.acted action (w.perform action).2) =
        some (.acted (S.seenAction action) (w.perform action).2) := by
      simp only [entrySeen?, stays, bne_iff_ne, ne_eq, void, not_false_eq_true, if_true, Bool.true_and]
    refine world.note seen ?_
    simp only [Entry.isVoid, beq_eq_false_iff_ne, ne_eq, void, not_false_eq_true]

theorem runScript (h : S.Mirrors w v) (sided : w.Sided S) {script : Script} (stays : S.scriptStays true script = true) :
    S.Mirrors (w.runScript script) (v.runScript (S.seenScript script)) := by
  induction script generalizing w v with
  | nil => exact h
  | cons action rest ih =>
    rw [Side.scriptStays, Bool.and_eq_true] at stays
    exact ih (h.act sided stays.1) ((sided.perform stays.1).record _) stays.2

theorem runScriptHidden (h : S.Mirrors w v) (sided : w.Sided S) {script : Script}
    (stays : S.scriptStays false script = true) : S.Mirrors (w.runScript script) v := by
  induction script generalizing w with
  | nil => exact h
  | cons action rest ih =>
    rw [Side.scriptStays, Bool.and_eq_true] at stays
    exact ih ((h.performHidden sided stays.1).noteHidden (hidden_acted sided stays.1))
      ((sided.perform stays.1).record _) stays.2

end Mirrors

theorem takeReaction_seen (kind : EventKind) (reactions : List Reaction) :
    takeReaction kind (S.seenReactions reactions) =
      (takeReaction kind reactions).map fun taken => (S.seenScript taken.1, S.seenReactions taken.2) := by
  induction reactions with
  | nil => rfl
  | cons reaction rest ih =>
    obtain ⟨on, script⟩ := reaction
    rw [seenReactions, takeReaction, takeReaction]
    by_cases here : on = kind
    · rw [if_pos here, if_pos here]
      rfl
    · rw [if_neg here, if_neg here, ih, Option.map_map, Option.map_map]
      rfl

theorem hook?_seen (target : Module) (kind : HookKind) :
    (S.seenModule target).hook? kind = (target.hook? kind).map S.seenHook := by
  cases kind with
  | beforeStart => rfl
  | afterStop => rfl

theorem delay_seen (target : Module) (kind : HookKind) : (S.seenModule target).delay kind = target.delay kind := by
  rw [Module.delay, Module.delay, hook?_seen, Option.map_map]
  rfl

namespace Mirrors

theorem deliver (h : S.Mirrors w v) (sided : w.Sided S) (own : S.owns m = true) {s : SubscriberRef}
    (mine : S.hears s = true) (event : Event) : S.Mirrors (w.deliver m s event) (v.deliver m s event) := by
  have kept : S.entrySeen? (.delivered m s event) = some (.delivered m s event) := if_pos own
  have told := h.note kept rfl
  have found : (v.record (.delivered m s event)).subscribers.get? s =
      ((w.record (.delivered m s event)).subscribers.get? s).map S.seenSubscriber := told.subscriber mine
  unfold World.deliver
  dsimp only
  rw [found]
  cases there : (w.record (.delivered m s event)).subscribers.get? s with
  | none => exact told
  | some subscriber =>
    have kind : (S.seenSubscriber subscriber).kind = subscriber.kind := rfl
    have reactions : (S.seenSubscriber subscriber).reactions = S.seenReactions subscriber.reactions := rfl
    simp only [Option.map_some, kind, reactions, takeReaction_seen]
    split
    · cases taken : takeReaction event.kind subscriber.reactions with
      | none => exact told
      | some reaction =>
        obtain ⟨here, later⟩ := takeReaction_stays ((sided.record _).subscribers.get? there) taken
        rw [mine] at here
        have used : S.Mirrors
            ((w.record (.delivered m s event)).adjustSubscriber s fun subscriber =>
              { subscriber with reactions := reaction.2 })
            ((v.record (.delivered m s event)).adjustSubscriber s fun subscriber =>
              { subscriber with reactions := S.seenReactions reaction.2 }) :=
          told.adjustSubscriber mine fun _ _ => rfl
        exact used.runScript ((sided.record _).adjustSubscriber s fun _ _ => later) here
    · exact told

theorem deliverHidden (h : S.Mirrors w v) (sided : w.Sided S) (other : S.owns m = false) {s : SubscriberRef}
    (theirs : S.hears s = false) (event : Event) : S.Mirrors (w.deliver m s event) v := by
  have hidden : S.entrySeen? (.delivered m s event) = none := if_neg (ne_true_of_eq_false other)
  have told := h.noteHidden hidden
  unfold World.deliver
  dsimp only
  split
  · exact told
  · rename_i subscriber found
    split
    · split
      · exact told
      · rename_i script others taken
        obtain ⟨here, later⟩ := takeReaction_stays ((sided.record _).subscribers.get? found) taken
        rw [theirs] at here
        exact (told.adjustSubscriberHidden theirs _).runScriptHidden
          ((sided.record _).adjustSubscriber s fun _ _ => later) here
    · exact told

theorem setInHand (h : S.Mirrors w v) (inHand others : List SubscriberRef) :
    S.Mirrors { w with inHand } { v with inHand := others } :=
  ⟨h.now, h.registries, h.runtimes, h.modules, h.devices, h.subscribers, h.transfers, h.journal⟩

theorem setInHandHidden (h : S.Mirrors w v) (inHand : List SubscriberRef) : S.Mirrors { w with inHand } v :=
  ⟨h.now, h.registries, h.runtimes, h.modules, h.devices, h.subscribers, h.transfers, h.journal⟩

theorem deliverHolding (h : S.Mirrors w v) (sided : w.Sided S) (own : S.owns m = true) {s : SubscriberRef}
    (mine : S.hears s = true) (event : Event) :
    S.Mirrors (w.deliverHolding m s event) (v.deliverHolding m s event) :=
  ((h.setInHand [s] [s]).deliver (sided.setInHand [s]) own mine event).setInHand [] []

theorem deliverHoldingHidden (h : S.Mirrors w v) (sided : w.Sided S) (other : S.owns m = false) {s : SubscriberRef}
    (theirs : S.hears s = false) (event : Event) : S.Mirrors (w.deliverHolding m s event) v :=
  ((h.setInHandHidden [s]).deliverHidden (sided.setInHand [s]) other theirs event).setInHandHidden []

theorem report (h : S.Mirrors w v) (sided : w.Sided S) (free : w.inHand = []) (alsoFree : v.inHand = [])
    (own : S.owns m = true) (event : Event) : S.Mirrors (w.report m event) (v.report m event) := by
  have listener : (v.modules.get? m).bind (fun target => v.listener? target.context) =
      (w.modules.get? m).bind fun target => w.listener? target.context := by
    rw [h.found own]
    cases found : w.modules.get? m with
    | none => rfl
    | some target =>
      apply h.listener? sided free alsoFree
      intro s registered
      exact ((sided.modules.get? found).registered s registered).trans own
  unfold World.report
  rw [listener]
  cases heard : (w.modules.get? m).bind fun target => w.listener? target.context with
  | none =>
    have kept : S.entrySeen? (.dropped m event) = some (.dropped m event) := if_pos own
    exact h.note kept rfl
  | some s =>
    obtain ⟨target, found, listens⟩ := Option.bind_eq_some_iff.1 heard
    have registered := (Option.filter_eq_some_iff.1 listens).1
    have mine := ((sided.modules.get? found).registered s registered).trans own
    exact h.deliverHolding sided own mine event

theorem reportHidden (h : S.Mirrors w v) (sided : w.Sided S) (other : S.owns m = false) (event : Event) :
    S.Mirrors (w.report m event) v := by
  unfold World.report
  cases heard : (w.modules.get? m).bind fun target => w.listener? target.context with
  | none =>
    have hidden : S.entrySeen? (.dropped m event) = none := if_neg (ne_true_of_eq_false other)
    exact h.noteHidden hidden
  | some s =>
    obtain ⟨target, found, listens⟩ := Option.bind_eq_some_iff.1 heard
    have registered := (Option.filter_eq_some_iff.1 listens).1
    have theirs := ((sided.modules.get? found).registered s registered).trans other
    exact h.deliverHoldingHidden sided other theirs event

theorem setContext (h : S.Mirrors w v) (own : S.owns m = true) (context : Context) :
    S.Mirrors (w.setContext m context) (v.setContext m context) := h.change own (·.withContext context) fun _ => rfl

theorem handOver (h : S.Mirrors w v) {transfer : Transfer} (own : S.owns transfer.issuer = true)
    (fits : w.transfers ++ [transfer] <+: S.transfers) : S.Mirrors (w.handOver transfer) (v.handOver transfer) := by
  have asked : (w.transfers ++ [transfer]).filter S.asked = w.transfers.filter S.asked ++ [transfer] := by
    rw [List.filter_append, List.filter_cons_of_pos (by exact own), List.filter_nil]
  have handed : S.Mirrors { w with transfers := w.transfers ++ [transfer] }
      { v with transfers := v.transfers ++ [transfer] } :=
    ⟨h.now, h.registries, h.runtimes, h.modules, h.devices, h.subscribers, by rw [asked, h.transfers], h.journal⟩
  have number : S.rank w.transfers.length = v.transfers.length := by
    obtain ⟨later, whole⟩ := (List.prefix_append _ _).trans fits
    rw [rank, ← whole, List.take_left, h.transfers]
  have kept : S.entrySeen? (.forwarded transfer.issuer w.transfers.length transfer.device transfer.power
      transfer.duration) = some (.forwarded transfer.issuer v.transfers.length transfer.device transfer.power
        transfer.duration) := by
    rw [entrySeen?, if_pos own, number]
  exact (handed.setSenders _ _).note kept rfl

theorem handOverHidden (h : S.Mirrors w v) {transfer : Transfer} (other : S.owns transfer.issuer = false) :
    S.Mirrors (w.handOver transfer) v := by
  have asked : (w.transfers ++ [transfer]).filter S.asked = w.transfers.filter S.asked := by
    rw [List.filter_append, List.filter_cons_of_neg (by exact ne_true_of_eq_false other), List.filter_nil,
      List.append_nil]
  have handed : S.Mirrors { w with transfers := w.transfers ++ [transfer] } v :=
    ⟨h.now, h.registries, h.runtimes, h.modules, h.devices, h.subscribers, by rw [asked, h.transfers], h.journal⟩
  have hidden : S.entrySeen? (.forwarded transfer.issuer w.transfers.length transfer.device transfer.power
      transfer.duration) = none := if_neg (ne_true_of_eq_false other)
  exact (handed.setSendersHidden _).noteHidden hidden

theorem transferring (h : S.Mirrors w v) {transfer : Transfer} (own : S.owns transfer.issuer = true)
    (mine : S.device transfer.device = true) (fits : w.transfers ++ [transfer] <+: S.transfers) :
    S.Mirrors (w.transferring transfer).1 (v.transferring transfer).1 ∧
      (v.transferring transfer).2 = S.seenScript (w.transferring transfer).2 := by
  have handed := h.handOver own fits
  unfold World.transferring
  rw [h.device mine]
  cases found : w.devices.get? transfer.device with
  | none => exact ⟨handed, rfl⟩
  | some device =>
    have scripts : (S.seenDevice device).onTransfer = S.seenScripts device.onTransfer := rfl
    simp only [Option.map_some, scripts]
    cases device.onTransfer with
    | nil => exact ⟨handed, rfl⟩
    | cons script rest =>
      refine ⟨?_, rfl⟩
      have popped : ∀ other, S.seenDevice { (other : Device) with onTransfer := rest } =
          { S.seenDevice other with onTransfer := S.seenScripts rest } := fun _ => rfl
      exact handed.adjustDevice mine fun other _ => popped other

theorem dispatchTransfer (h : S.Mirrors w v) (sided : w.Sided S) (own : S.owns m = true) {target : Module}
    (mine : S.device target.device = true) {power : PowerAdjustment} {duration : TransferDuration}
    (fits : (w.dispatchTransfer m target power duration).transfers <+: S.transfers) :
    S.Mirrors (w.dispatchTransfer m target power duration)
      (v.dispatchTransfer m (S.seenModule target) power duration) := by
  have device : (S.seenModule target).device = target.device := rfl
  rw [World.dispatchTransfer_eq] at fits ⊢
  rw [World.dispatchTransfer_eq, device]
  rw [(World.runScript_aside _ _).1, (w.transferring_hands _).transfers] at fits
  obtain ⟨start, stays⟩ := sided.transferring fits
  obtain ⟨handed, script⟩ := h.transferring own mine fits
  rw [mine] at stays
  rw [script]
  exact handed.runScript start stays

theorem dispatchTransferHidden (h : S.Mirrors w v) (sided : w.Sided S) (other : S.owns m = false) {target : Module}
    (theirs : S.device target.device = false) {power : PowerAdjustment} {duration : TransferDuration}
    (fits : (w.dispatchTransfer m target power duration).transfers <+: S.transfers) :
    S.Mirrors (w.dispatchTransfer m target power duration) v := by
  rw [World.dispatchTransfer_eq] at fits ⊢
  rw [(World.runScript_aside _ _).1, (w.transferring_hands _).transfers] at fits
  obtain ⟨start, stays⟩ := sided.transferring fits
  rw [theirs] at stays
  refine runScriptHidden ?_ start stays
  have handed : S.Mirrors (w.handOver ⟨m, target.device, power, duration⟩) v := h.handOverHidden other
  unfold World.transferring
  split
  · exact handed
  · split
    · exact handed
    · exact handed.adjustDeviceHidden theirs _

theorem dispatch (h : S.Mirrors w v) (sided : w.Sided S) (free : w.inHand = []) (alsoFree : v.inHand = [])
    (own : S.owns m = true) {target : Module} (stays : target.StaysOn S true) {envelope : Envelope}
    (stay : envelope.StaysOn S true) (fits : (w.dispatch m target envelope).transfers <+: S.transfers) :
    S.Mirrors (w.dispatch m target envelope) (v.dispatch m (S.seenModule target) envelope) := by
  have device : (S.seenModule target).device = target.device := rfl
  have context : (S.seenModule target).context = target.context := rfl
  cases envelope with
  | notification notification => exact h.report sided free alsoFree own _
  | request request =>
    cases request with
    | enable s =>
      simp only [World.dispatch, World.dispatchEnable, device, context, h.readings stays.device]
      split
      · refine (h.setContext own _).deliverHolding (sided.setContext m ?_) own stay _
        intro other registered
        cases registered
        exact Eq.trans stay own.symm
      · exact h.deliverHolding sided own stay _
    | start mode =>
      simp only [World.dispatch, World.dispatchStart, device, context, h.readings stays.device]
      split
      · rename_i rejection _
        have kept : S.entrySeen? (.rejected m rejection) = some (.rejected m rejection) := if_pos own
        exact h.note kept rfl
      · refine (h.setContext own _).report (sided.setContext m ?_) free alsoFree own _
        intro other registered
        exact (stays.registered other registered).trans own.symm
    | transfer power duration => exact h.dispatchTransfer sided own stays.device fits

theorem dispatchHidden (h : S.Mirrors w v) (sided : w.Sided S) (other : S.owns m = false) {target : Module}
    (stays : target.StaysOn S false) {envelope : Envelope} (stay : envelope.StaysOn S false)
    (fits : (w.dispatch m target envelope).transfers <+: S.transfers) :
    S.Mirrors (w.dispatch m target envelope) v := by
  cases envelope with
  | notification notification => exact h.reportHidden sided other _
  | request request =>
    cases request with
    | enable s =>
      simp only [World.dispatch, World.dispatchEnable]
      split
      · refine (h.adjustModuleHidden other _).deliverHoldingHidden (sided.setContext m ?_) other stay _
        intro third registered
        cases registered
        exact Eq.trans stay other.symm
      · exact h.deliverHoldingHidden sided other stay _
    | start mode =>
      simp only [World.dispatch, World.dispatchStart]
      split
      · rename_i rejection _
        have hidden : S.entrySeen? (.rejected m rejection) = none := if_neg (ne_true_of_eq_false other)
        exact h.noteHidden hidden
      · refine (h.adjustModuleHidden other _).reportHidden (sided.setContext m ?_) other _
        intro third registered
        exact (stays.registered third registered).trans other.symm
    | transfer power duration => exact h.dispatchTransferHidden sided other stays.device fits

theorem callHook (h : S.Mirrors w v) (sided : w.Sided S) (free : w.inHand = []) (alsoFree : v.inHand = [])
    (own : S.owns m = true) {target : Module} (stays : target.StaysOn S true) (kind : HookKind) :
    S.Mirrors (w.callHook m target kind) (v.callHook m (S.seenModule target) kind) := by
  unfold World.callHook
  rw [hook?_seen]
  cases found : target.hook? kind with
  | none => exact h
  | some hook =>
    have subscribed : v.hasSubscriber target.context = w.hasSubscriber target.context := by
      rw [World.hasSubscriber, World.hasSubscriber, h.listener? sided free alsoFree stays.registered]
    have kept : S.entrySeen? (.hookCalled m kind hook.tag target.context (w.hasSubscriber target.context)) =
        some (.hookCalled m kind hook.tag target.context (v.hasSubscriber target.context)) := by
      rw [entrySeen?, if_pos own, subscribed]
    exact (h.note kept rfl).runScript (sided.record _) (stays.hooks kind hook found).1

theorem callHookHidden (h : S.Mirrors w v) (sided : w.Sided S) (other : S.owns m = false) {target : Module}
    (stays : target.StaysOn S false) (kind : HookKind) : S.Mirrors (w.callHook m target kind) v := by
  unfold World.callHook
  split
  · exact h
  · rename_i hook found
    have hidden : S.entrySeen? (.hookCalled m kind hook.tag target.context (w.hasSubscriber target.context)) = none :=
      if_neg (ne_true_of_eq_false other)
    exact (h.noteHidden hidden).runScriptHidden (sided.record _) (stays.hooks kind hook found).1

theorem attend? (h : S.Mirrors w v) (sided : w.Sided S) (free : w.inHand = []) (alsoFree : v.inHand = [])
    (own : S.owns m = true) (fits : ∀ after, w.attend? m = some after → after.transfers <+: S.transfers) :
    Option.Rel S.Mirrors (w.attend? m) (v.attend? m) := by
  unfold World.attend? at fits ⊢
  rw [h.found own]
  cases found : w.modules.get? m with
  | none => exact .none
  | some target =>
    have stays := sided.modules.get? found
    have phase : (S.seenModule target).phase = target.phase := rfl
    have cancelled : (S.seenModule target).cancelled = target.cancelled := rfl
    have inbox : (S.seenModule target).inbox = target.inbox := rfl
    rw [own] at stays
    simp only [found] at fits
    simp only [Option.map_some, phase, cancelled, inbox]
    split
    · exact .none
    · rename_i running
      rw [if_neg running] at fits
      split
      · have closing : S.Mirrors
            ((w.adjustModule m (·.closingUntil (w.now + target.delay .afterStop))).record (.closed m))
            ((v.adjustModule m (·.closingUntil (v.now + target.delay .afterStop))).record (.closed m)) := by
          have kept : S.entrySeen? (.closed m) = some (.closed m) := if_pos own
          rw [h.now]
          exact (h.change own (·.closingUntil _) fun _ => rfl).note kept rfl
        have called := closing.callHook
          ((sided.adjustModule m fun _ stays => stays.closingUntil _).record _) free alsoFree own stays .afterStop
        unfold World.closeDown
        rw [delay_seen, stays.delay]
        rw [stays.delay] at called
        exact .some (called.finish own)
      · rename_i kept
        rw [if_neg kept] at fits
        cases took : target.inbox.take? with
        | none => exact .none
        | some taken =>
          obtain ⟨envelope, rest⟩ := taken
          simp only [took] at fits
          have queue := stays.queue
          rw [Inbox.take?_eq_some.1 took] at queue
          obtain ⟨first, others⟩ := List.forall_mem_cons.1 queue
          have kept : S.entrySeen? (.taken m envelope) = some (.taken m envelope) := if_pos own
          have after := (h.change own (·.withInbox rest) fun _ => rfl).note kept rfl
          rw [← own] at others
          exact .some (after.dispatch ((sided.adjustModule m fun _ stays => stays.withInbox others).record _) free
            alsoFree own stays first (fits _ rfl))

theorem attendHidden (h : S.Mirrors w v) (sided : w.Sided S) (other : S.owns m = false) {after : World}
    (attended : w.attend? m = some after) (fits : after.transfers <+: S.transfers) : S.Mirrors after v := by
  unfold World.attend? at attended
  split at attended
  · cases attended
  · rename_i target found
    have stays := sided.modules.get? found
    rw [other] at stays
    split at attended
    · cases attended
    · split at attended
      · obtain rfl := Option.some.inj attended
        have hidden : S.entrySeen? (.closed m) = none := if_neg (ne_true_of_eq_false other)
        have called := ((h.adjustModuleHidden other (·.closingUntil (w.now + target.delay .afterStop))).noteHidden
          hidden).callHookHidden ((sided.adjustModule m fun _ stays => stays.closingUntil _).record _) other stays
            .afterStop
        unfold World.closeDown
        dsimp only
        split
        · exact called.finishHidden other
        · exact called
      · split at attended
        · cases attended
        · rename_i envelope rest took
          obtain rfl := Option.some.inj attended
          have queue := stays.queue
          rw [Inbox.take?_eq_some.1 took] at queue
          obtain ⟨first, others⟩ := List.forall_mem_cons.1 queue
          have hidden : S.entrySeen? (.taken m envelope) = none := if_neg (ne_true_of_eq_false other)
          rw [← other] at others
          exact ((h.adjustModuleHidden other (·.withInbox rest)).noteHidden hidden).dispatchHidden
            ((sided.adjustModule m fun _ stays => stays.withInbox others).record _) other stays first fits

end Mirrors

end Side

end WirelessCharging
