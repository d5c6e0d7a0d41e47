import WirelessCharging.Proofs.Deadline
import WirelessCharging.Proofs.Transfer
/-!
Cancellations come first. A dispatcher looks for its cancellation before it takes an envelope, so from the moment at
which a module is told to stop nothing comes of what waits for it, or of what it goes on accepting. An envelope that
is being dealt with at that moment is dealt with to its end, for what its script does has nothing to do with the
cancellation, except that a query sees it.
-/
namespace WirelessCharging

def Module.toldToStop (target : Module) : Module := { target with cancelled := true }

/-- An entry of the journal, but for what a query was answered. -/
def Entry.unasked : Entry → Entry
  | .acted (.query name runtime id) _ => .acted (.query name runtime id) .ok
  | entry => entry

namespace World

structure Silences (w later : World) (m : ModuleRef) : Prop where
  taken : later.taken m = w.taken m
  deliveries : later.deliveries m = w.deliveries m
  handed : later.handed m = w.handed m
  context : later.contextOf m = w.contextOf m

/-- Two worlds that are the same, but that in the second one the module has been told to stop, which queries see. -/
structure ToldApart (m : ModuleRef) (w v : World) : Prop where
  same : v = { w with modules := w.modules.adjust m (·.toldToStop), journal := v.journal }
  heard : v.journal.map Entry.unasked = w.journal.map Entry.unasked

end World

namespace World

variable {w v after later last : World} {m : ModuleRef} {target : Module}

theorem Silences.refl (w : World) (m : ModuleRef) : w.Silences w m := ⟨rfl, rfl, rfl, rfl⟩

theorem Silences.trans (first : w.Silences after m) (rest : after.Silences last m) : w.Silences last m where
  taken := rest.taken.trans first.taken
  deliveries := rest.deliveries.trans first.deliveries
  handed := rest.handed.trans first.handed
  context := rest.context.trans first.context

namespace ToldApart

theorem told (w : World) (m : ModuleRef) : ToldApart m w (w.adjustModule m (·.toldToStop)) := ⟨rfl, rfl⟩

theorem get? (h : ToldApart m w v) (other : ModuleRef) : v.modules.get? other =
    (w.modules.get? other).map fun target => if other = m then target.toldToStop else target := by
  rw [h.same]
  exact w.modules.get?_adjust m other _

theorem latest? (h : ToldApart m w v) (name : String) : v.modules.latest? name = w.modules.latest? name := by
  rw [h.same]
  exact w.modules.latest?_adjust m _ name

theorem blind (h : ToldApart m w v) {f : World → World} (blind : Blind f) : ToldApart m (f w) (f v) := by
  constructor
  case same =>
    rw [blind.modules, blind.journal]
    exact (congrArg f h.same).trans (blind w _ _)
  case heard =>
    rw [blind.journal, blind.journal]
    exact h.heard

theorem record (h : ToldApart m w v) {entry other : Entry} (same : other.unasked = entry.unasked) :
    ToldApart m (w.record entry) (v.record other) := by
  constructor
  case same => exact congrArg (fun u : World => { u with journal := other :: v.journal }) h.same
  case heard => simp only [World.record, List.map_cons, same, h.heard]

theorem wake (h : ToldApart m w v) (other : ModuleRef) : ToldApart m (w.wake other) (v.wake other) := by
  have ready : v.ready = w.ready := by rw [h.same]
  have aside : v.setAside = w.setAside := by rw [h.same]
  have running : (v.modules.get? other).any (·.phase == .running) =
      (w.modules.get? other).any (·.phase == .running) := by
    rw [h.get?]
    cases w.modules.get? other with
    | none => rfl
    | some target =>
      simp only [Option.map_some, Option.any_some]
      split <;> rfl
  unfold World.wake
  rw [running, ready, aside]
  split
  · have joined := h.blind (f := fun u => { u with ready := w.ready ++ [other] }) fun _ _ _ => rfl
    simp only [aside] at joined
    exact joined
  · exact h

theorem setInbox (h : ToldApart m w v) (other : ModuleRef) (inbox : Inbox) :
    ToldApart m (w.setInbox other inbox) (v.setInbox other inbox) := by
  refine ⟨?_, h.heard⟩
  have modules : (w.modules.adjust m (·.toldToStop)).adjust other (·.withInbox inbox) =
      (w.modules.adjust other (·.withInbox inbox)).adjust m (·.toldToStop) := by
    by_cases same : m = other
    · subst same
      rw [Roster.adjust_adjust_self, Roster.adjust_adjust_self]
      rfl
    · exact w.modules.adjust_adjust_of_ne _ _ same
  refine (congrArg (fun u : World => u.setInbox other inbox) h.same).trans ?_
  simp only [World.setInbox, adjustModule, modules]

theorem submit (h : ToldApart m w v) (other : ModuleRef) (envelope : Envelope) :
    ToldApart m (w.submit other envelope).1 (v.submit other envelope).1 ∧
      (v.submit other envelope).2 = (w.submit other envelope).2 := by
  simp only [World.submit, h.get?]
  cases w.modules.get? other with
  | none => exact ⟨h, rfl⟩
  | some target =>
    have inbox : (if other = m then target.toldToStop else target).inbox = target.inbox := by split <;> rfl
    simp only [Option.map_some, inbox]
    cases target.inbox.post envelope with
    | error refusal => exact ⟨h, rfl⟩
    | ok posted => exact ⟨((h.setInbox other posted).record rfl).wake other, rfl⟩

theorem submitTo (h : ToldApart m w v) (name : String) (envelope : Envelope) :
    ToldApart m (w.submitTo name envelope).1 (v.submitTo name envelope).1 ∧
      (v.submitTo name envelope).2 = (w.submitTo name envelope).2 := by
  simp only [World.submitTo, h.latest?]
  cases w.modules.latest? name with
  | none => exact ⟨h, rfl⟩
  | some other => exact h.submit other envelope

theorem request (h : ToldApart m w v) (name : String) (request : Except Refusal Request) :
    ToldApart m (w.request name request).1 (v.request name request).1 ∧
      (v.request name request).2 = (w.request name request).2 := by
  cases request with
  | error refusal => exact ⟨h, rfl⟩
  | ok request => exact h.submitTo name (.request request)

theorem perform (h : ToldApart m w v) (action : Action) :
    ToldApart m (w.perform action).1 (v.perform action).1 ∧
      (Entry.acted action (v.perform action).2).unasked = (Entry.acted action (w.perform action).2).unasked := by
  have alike : ∀ {x y : World × Answer}, ToldApart m x.1 y.1 ∧ y.2 = x.2 →
      ToldApart m x.1 y.1 ∧ (Entry.acted action y.2).unasked = (Entry.acted action x.2).unasked := by
    rintro x y ⟨apart, answer⟩
    exact ⟨apart, by rw [answer]⟩
  cases action with
  | enable name subscriber =>
    cases subscriber with
    | none => exact ⟨h, rfl⟩
    | some subscriber =>
      have same := ensureSubscriber_ref (w := w) (v := v) (by rw [h.same]) subscriber
      have ensured := h.blind (ensureSubscriber_blind subscriber)
      refine alike ?_
      simp only [World.perform, same]
      exact ensured.request name _
  | start name mode => exact alike (h.request name _)
  | transfer name power duration => exact alike (h.request name _)
  | notify name notification => exact alike (h.submitTo name _)
  | reply transfer notification =>
    refine alike ?_
    have same : v.transfers = w.transfers := by rw [h.same]
    simp only [World.perform, World.reply, same]
    cases w.transfers[transfer]? with
    | none => exact ⟨h, rfl⟩
    | some asked => exact h.submit asked.issuer _
  | setDevice name change onTransfer =>
    refine ⟨(h.blind (ensureDevice_blind name)).blind
      (f := fun w => w.adjustDevice name (·.changed change onTransfer)) ?_, rfl⟩
    exact fun _ _ _ => rfl
  | subscribe name kind reactions =>
    refine ⟨(h.blind (letGo_blind name)).blind (f := fun w => w.addSubscriber name { kind, reactions }) ?_, rfl⟩
    exact fun _ _ _ => rfl
  | release name =>
    refine alike ⟨h.blind (letGo_blind name), ?_⟩
    rw [h.same]
    rfl
  | query name runtime id => exact ⟨h, rfl⟩

theorem runScript (h : ToldApart m w v) (script : Script) : ToldApart m (w.runScript script) (v.runScript script) := by
  induction script generalizing w v with
  | nil => exact h
  | cons action rest ih =>
    obtain ⟨apart, heard⟩ := h.perform action
    exact ih (apart.record heard)

theorem noted {α : Type} (h : ToldApart m w v) {reading? : Entry → Option α}
    (unasked : ∀ entry, reading? entry.unasked = reading? entry) : v.noted reading? = w.noted reading? := by
  have read : ∀ journal : List Entry, journal.filterMap reading? = (journal.map Entry.unasked).filterMap reading? := by
    intro journal
    rw [List.filterMap_map]
    exact List.filterMap_congr fun entry _ => (unasked entry).symm
  rw [World.noted, World.noted, read, h.heard, ← read]

end ToldApart

theorem keeper_of_finished (occurs : w.Occurs) (free : w.inHand = []) (found : w.modules.get? m = some target)
    (empty : target.inbox.queue = []) {s : SubscriberRef} (alive : w.isAlive s = true) :
    (w.subscribers.get? s).any (·.held) = true ∨
      ∃ n other, n ≠ m ∧ w.modules.get? n = some other ∧ other.inbox.holds s = true := by
  have numbered : w.modules.Numbered := Changes.keep Change.numbered occurs numbered_empty
  rcases (isAlive_iff numbered).1 alive with held | ⟨n, other, there, holds⟩ | inHand
  · exact Or.inl held
  · refine Or.inr ⟨n, other, ?_, there, holds⟩
    rintro rfl
    obtain rfl := Option.some.inj (there.symm.trans found)
    rw [Inbox.holds, empty] at holds
    cases holds
  · rw [free] at inHand
    cases inHand

end World

end WirelessCharging
