import WirelessCharging.Proofs.Enabling
import WirelessCharging.Proofs.Prompt
/-!
Nobody comes back. Calls let go of subscribers or bring new ones into being, dispatchers take the requests that keep
subscribers and call them, and inboxes are discarded with what they hold. Whatever is done, whoever is alive
afterwards was alive before or is new, and so is whoever has been put into a slot.
-/
namespace WirelessCharging

def World.Newcomer (w later : World) (s : SubscriberRef) : Prop :=
  s ∉ w.subscribers.keys ∧ s ∈ later.subscribers.keys

structure World.RevivesNobody (w later : World) : Prop where
  numbered : later.subscribers.Numbered
  keys : w.subscribers.keys ⊆ later.subscribers.keys
  alive : ∀ s, later.isAlive s = true → w.isAlive s = true ∨ w.Newcomer later s
  registered : ∀ m s, (later.contextOf m).registered = some s →
    (w.contextOf m).registered = some s ∨ w.isAlive s = true ∨ w.Newcomer later s

variable {move : Move}

theorem Becomes.waited {w later : World} {m : ModuleRef} {before : Option Module} {after : Module}
    {more gone : List Envelope} (h : Becomes move w later m before (some after) more gone) {envelope : Envelope}
    (waits : envelope ∈ after.inbox.queue) :
    envelope ∈ more ∨ ∃ target, before = some target ∧ envelope ∈ target.inbox.queue := by
  cases h with
  | same => exact Or.inr ⟨after, rfl, waits⟩
  | built fresh =>
    rw [fresh.queue] at waits
    cases waits
  | posted => exact (List.mem_append.1 waits).symm.imp_right fun earlier => ⟨_, rfl, earlier⟩
  | took running kept took =>
    refine Or.inr ⟨_, rfl, ?_⟩
    rw [Inbox.take?_eq_some.1 took]
    exact List.mem_cons_of_mem _ waits
  | finished => cases waits
  | dropped => cases waits
  | _ => exact Or.inr ⟨_, rfl, waits⟩

theorem ChangesIn.waited {w later : World} (h : ChangesIn move w later) {m : ModuleRef} :
    ∃ more, later.accepted m = w.accepted m ++ more ∧ ∀ after envelope, later.modules.get? m = some after →
      envelope ∈ after.inbox.queue →
      envelope ∈ more ∨ ∃ target, w.modules.get? m = some target ∧ envelope ∈ target.inbox.queue := by
  induction h with
  | refl => exact ⟨[], (List.append_nil _).symm, fun after envelope found waits => Or.inr ⟨after, found, waits⟩⟩
  | tail _ change ih =>
    obtain ⟨earlier, accepted, waited⟩ := ih
    obtain ⟨last, gone, becomes, acceptedThen, -⟩ := change.affects m
    refine ⟨earlier ++ last, by rw [acceptedThen, accepted, List.append_assoc], ?_⟩
    intro after envelope found waits
    rw [found] at becomes
    rcases becomes.waited waits with now | ⟨middle, there, before⟩
    · exact Or.inl (List.mem_append_right _ now)
    · exact (waited middle envelope there before).imp_left (List.mem_append_left _)

namespace World

variable {w middle later after : World} {m : ModuleRef} {target : Module} {s : SubscriberRef}

theorem RevivesNobody.refl (numbered : w.subscribers.Numbered) : w.RevivesNobody w :=
  ⟨numbered, List.Subset.refl _, fun _ => Or.inl, fun _ _ => Or.inl⟩

theorem RevivesNobody.trans (first : w.RevivesNobody middle) (rest : middle.RevivesNobody later) :
    w.RevivesNobody later := by
  have alive : ∀ s, middle.isAlive s = true ∨ middle.Newcomer later s → w.isAlive s = true ∨ w.Newcomer later s := by
    rintro s (lives | ⟨absent, there⟩)
    · exact (first.alive s lives).imp_right fun new => ⟨new.1, rest.keys new.2⟩
    · exact Or.inr ⟨fun earlier => absent (first.keys earlier), there⟩
  constructor
  case numbered => exact rest.numbered
  case keys => exact List.Subset.trans first.keys rest.keys
  case alive => exact fun s lives => alive s (rest.alive s lives)
  case registered =>
    intro m s last
    rcases rest.registered m s last with before | keeps
    · rcases first.registered m s before with same | lives | new
      · exact Or.inl same
      · exact Or.inr (Or.inl lives)
      · exact Or.inr (Or.inr ⟨new.1, rest.keys new.2⟩)
    · exact Or.inr (alive s keeps)

/-- Where the slots stay as they are, what matters is who is alive. -/
theorem revivesNobody_of_deeds (deeds : Deeds w later) (numbered : later.subscribers.Numbered)
    (keys : w.subscribers.keys ⊆ later.subscribers.keys)
    (alive : ∀ s, later.isAlive s = true → w.isAlive s = true ∨ w.Newcomer later s) : w.RevivesNobody later := by
  refine ⟨numbered, keys, alive, ?_⟩
  intro m s last
  rw [(deeds.spares m).context] at last
  exact Or.inl last

theorem isAlive_wake (w : World) (m : ModuleRef) (s : SubscriberRef) : (w.wake m).isAlive s = w.isAlive s := by
  simp only [isAlive, wake_subscribers, wake_modules, wake_inHand]

theorem isAlive_adjustModule {f : Module → Module} (alive : (w.adjustModule m f).isAlive s = true) :
    w.isAlive s = true ∨
      ∃ target, w.modules.get? m = some target ∧ .request (.enable s) ∈ (f target).inbox.queue := by
  simp only [isAlive, adjustModule, Bool.or_eq_true] at alive ⊢
  rcases alive with (held | waits) | inHand
  · exact Or.inl (Or.inl (Or.inl held))
  · rcases w.modules.any_adjust_cases (·.inbox.holds s) waits with earlier | ⟨target, found, holds⟩
    · exact Or.inl (Or.inl (Or.inr earlier))
    · exact Or.inr ⟨target, found, List.contains_iff_mem.1 holds⟩
  · exact Or.inl (Or.inr inHand)

theorem isAlive_holding {t : SubscriberRef} (alive : { w with inHand := [s] }.isAlive t = true) :
    w.isAlive t = true ∨ t = s := by
  simp only [isAlive, Bool.or_eq_true, List.contains_iff_mem, List.mem_singleton] at alive ⊢
  exact alive.imp_left Or.inl

/-- A request keeps its subscriber as long as it waits, so it is posted for one that is alive already. -/
theorem isAlive_submit {envelope : Envelope} (kept : ∀ s, envelope = .request (.enable s) → w.isAlive s = true)
    (alive : (w.submit m envelope).1.isAlive s = true) : w.isAlive s = true := by
  unfold submit at alive
  split at alive
  · exact alive
  · rename_i target found
    split at alive
    · exact alive
    · rename_i inbox posted
      obtain ⟨-, -, rfl⟩ := Inbox.post_eq_ok.1 posted
      rw [isAlive_wake] at alive
      have accepted : (w.setInbox m { target.inbox with queue := target.inbox.queue ++ [envelope] }).isAlive s = true :=
        alive
      rcases isAlive_adjustModule accepted with lives | ⟨there, -, waits⟩
      · exact lives
      · have waiting : .request (.enable s) ∈ target.inbox.queue ++ [envelope] := waits
        rcases List.mem_append.1 waiting with earlier | now
        · exact isAlive_of_waiting found earlier
        · exact kept s (List.mem_singleton.1 now).symm

theorem submit_subscribers (w : World) (m : ModuleRef) (envelope : Envelope) :
    (w.submit m envelope).1.subscribers = w.subscribers := by
  unfold submit
  split
  · rfl
  · split
    · rfl
    · exact wake_subscribers _ m

variable (numbered : w.subscribers.Numbered)
include numbered

theorem submit_revivesNobody (m : ModuleRef) {envelope : Envelope}
    (kept : ∀ s, envelope = .request (.enable s) → w.isAlive s = true) :
    w.RevivesNobody (w.submit m envelope).1 := by
  have same := w.submit_subscribers m envelope
  exact revivesNobody_of_deeds (w.submit_deeds m envelope) (by rwa [same]) (by rw [same]; exact List.Subset.refl _)
    fun s alive => Or.inl (isAlive_submit kept alive)

theorem submitTo_revivesNobody (name : String) {envelope : Envelope}
    (kept : ∀ s, envelope = .request (.enable s) → w.isAlive s = true) :
    w.RevivesNobody (w.submitTo name envelope).1 := by
  unfold submitTo
  split
  · exact .refl numbered
  · exact submit_revivesNobody numbered _ kept

theorem request_revivesNobody (name : String) {request : Except Refusal Request}
    (kept : ∀ s, request = .ok (.enable s) → w.isAlive s = true) :
    w.RevivesNobody (w.request name request).1 := by
  cases request with
  | error refusal => exact .refl numbered
  | ok request =>
    refine submitTo_revivesNobody numbered name ?_
    intro s same
    exact kept s (congrArg Except.ok (Envelope.request.inj same))

theorem reply_revivesNobody (transfer : Nat) (notification : Notification) :
    w.RevivesNobody (w.reply transfer notification).1 := by
  unfold reply
  split
  · exact .refl numbered
  · exact submit_revivesNobody numbered _ fun s same => Envelope.noConfusion same

theorem adjustDevice_revivesNobody (name : String) (f : Device → Device) : w.RevivesNobody (w.adjustDevice name f) :=
  revivesNobody_of_deeds (w.adjustDevice_deeds name f) numbered (List.Subset.refl _) fun _ => Or.inl

theorem ensureDevice_revivesNobody (name : String) : w.RevivesNobody (w.ensureDevice name) := by
  refine revivesNobody_of_deeds (w.ensureDevice_deeds name) ?_ ?_ ?_
  all_goals unfold ensureDevice; split
  · exact numbered
  · exact numbered
  · exact List.Subset.refl _
  · exact List.Subset.refl _
  · exact fun _ => Or.inl
  · exact fun _ => Or.inl

theorem letGo_revivesNobody (name : String) : w.RevivesNobody (w.letGo name) := by
  unfold letGo
  split
  · exact .refl numbered
  · rename_i s _
    refine revivesNobody_of_deeds (w.adjustSubscriber_deeds s _) (Roster.numbered_adjust numbered _ _) ?_ ?_
    · exact (w.subscribers.keys_adjust s _).symm ▸ List.Subset.refl _
    · intro t alive
      simp only [isAlive, adjustSubscriber, Roster.get?_adjust, Bool.or_eq_true] at alive ⊢
      refine Or.inl (alive.imp_left (Or.imp_left ?_))
      cases w.subscribers.get? t with
      | none => exact id
      | some subscriber =>
        simp only [Option.map_some, Option.any_some]
        split
        · exact fun held => absurd held Bool.false_ne_true
        · exact id

theorem addSubscriber_revivesNobody (name : String) (subscriber : Subscriber) :
    w.RevivesNobody (w.addSubscriber name subscriber) := by
  have keys : (w.addSubscriber name subscriber).subscribers.keys = w.subscribers.keys ++ [w.subscribers.nextRef name] :=
    Roster.keys_add _ _ _
  refine revivesNobody_of_deeds (w.addSubscriber_deeds name subscriber) (Roster.numbered_add numbered name _) ?_ ?_
  · rw [keys]
    exact List.subset_append_left _ _
  · intro s alive
    by_cases new : w.subscribers.nextRef name = s
    · right
      rw [Newcomer, keys, ← new]
      exact ⟨Roster.nextRef_notMem numbered name, List.mem_append_right _ (List.mem_singleton_self _)⟩
    · simp only [isAlive, addSubscriber, Roster.get?_add, if_neg new, Option.or_none] at alive
      exact Or.inl alive

theorem ensureSubscriber_revivesNobody (name : String) : w.RevivesNobody (w.ensureSubscriber name).1 := by
  unfold ensureSubscriber
  split
  · exact .refl numbered
  · exact addSubscriber_revivesNobody numbered name _

theorem isAlive_ensureSubscriber (name : String) :
    (w.ensureSubscriber name).1.isAlive (w.ensureSubscriber name).2 = true := by
  unfold ensureSubscriber
  split
  · rename_i s held
    exact isAlive_of_held (heldSubscriber?_alive held)
  · refine isAlive_of_held ?_
    simp only [addSubscriber, Roster.get?_add_nextRef numbered, Option.any_some]

theorem perform_revivesNobody (action : Action) : w.RevivesNobody (w.perform action).1 := by
  cases action with
  | enable name subscriber =>
    cases subscriber with
    | none => exact .refl numbered
    | some subscriber =>
      have ensured := ensureSubscriber_revivesNobody numbered subscriber
      refine ensured.trans (request_revivesNobody ensured.numbered name ?_)
      intro s same
      cases same
      exact isAlive_ensureSubscriber numbered subscriber
  | start name mode =>
    refine request_revivesNobody numbered name ?_
    intro s made
    obtain ⟨mode, same⟩ := Request.of_ofStart made
    cases same
  | transfer name power duration =>
    refine request_revivesNobody numbered name ?_
    intro s made
    rcases Request.ofTransfer_cases power duration with ⟨-, adjustment, limit, -, -, same⟩ | ⟨-, refusal, -, same⟩
    all_goals rw [same] at made; cases made
  | notify name notification => exact submitTo_revivesNobody numbered name fun s same => Envelope.noConfusion same
  | reply transfer notification => exact reply_revivesNobody numbered transfer notification
  | setDevice name change onTransfer =>
    have ensured := ensureDevice_revivesNobody numbered name
    exact ensured.trans (adjustDevice_revivesNobody ensured.numbered name _)
  | subscribe name kind reactions =>
    have released := letGo_revivesNobody numbered name
    exact released.trans (addSubscriber_revivesNobody released.numbered name _)
  | release name => exact letGo_revivesNobody numbered name
  | query name runtime id => exact .refl numbered

theorem call_revivesNobody (action : Action) :
    w.RevivesNobody ((w.perform action).1.record (.acted action (w.perform action).2)) := by
  have performed := perform_revivesNobody numbered action
  exact performed.trans (revivesNobody_of_deeds (.single (.note _ _ _)) performed.numbered (List.Subset.refl _)
    fun _ => Or.inl)

theorem runScript_revivesNobody (script : Script) : w.RevivesNobody (w.runScript script) := by
  induction script generalizing w with
  | nil => exact .refl numbered
  | cons action rest ih =>
    have called := call_revivesNobody numbered action
    exact called.trans (ih called.numbered)

theorem revivesNobody_of_changes (distinct : w.modules.Numbered) (changes : ChangesIn move w later)
    (elsewhere : ∀ m, move ≠ .attend m) (accepted : ∀ m, later.accepted m = w.accepted m)
    (subscribers : later.subscribers = w.subscribers) (inHand : later.inHand = w.inHand) : w.RevivesNobody later := by
  refine ⟨by rwa [subscribers], by rw [subscribers]; exact List.Subset.refl _, ?_, ?_⟩
  · intro s alive
    left
    rcases (isAlive_iff (Changes.keep Change.numbered changes.changes distinct)).1 alive with
      held | ⟨m, after, found, waits⟩ | called
    · rw [subscribers] at held
      exact isAlive_of_held held
    · obtain ⟨more, grown, waited⟩ := changes.waited (m := m)
      rw [accepted m, List.self_eq_append_right] at grown
      rcases waited after _ found (List.contains_iff_mem.1 waits) with now | ⟨target, there, before⟩
      · rw [grown] at now
        cases now
      · exact isAlive_of_waiting there before
    · rw [inHand] at called
      exact (isAlive_iff distinct).2 (Or.inr (Or.inr called))
  · intro m s last
    rw [(changes.spares (elsewhere m)).context] at last
    exact Or.inl last

omit numbered

theorem callback_subscribers (w : World) (m : ModuleRef) (s : SubscriberRef) (event : Event) :
    (w.callback m s event).1.subscribers.keys = w.subscribers.keys := by
  unfold callback
  dsimp only
  split
  · rfl
  · split
    · split
      · rfl
      · exact Roster.keys_adjust _ _ _
    · rfl

theorem reporting_subscribers (w : World) (m : ModuleRef) (event : Event) :
    (w.reporting m event).1.subscribers.keys = w.subscribers.keys := by
  unfold reporting
  split
  · exact callback_subscribers _ m _ event
  · rfl

theorem dispatching_subscribers (w : World) (m : ModuleRef) (target : Module) (envelope : Envelope) :
    (w.dispatching m target envelope).1.subscribers.keys = w.subscribers.keys := by
  cases envelope with
  | notification notification => exact w.reporting_subscribers m _
  | request request =>
    cases request with
    | enable s =>
      simp only [dispatching]
      split
      · exact callback_subscribers _ m s _
      · exact callback_subscribers _ m s _
    | start mode =>
      simp only [dispatching]
      split
      · rfl
      · exact reporting_subscribers _ m _
    | transfer power duration =>
      simp only [dispatching, transferring]
      split
      · rfl
      · split <;> rfl

/-- An event is reported to nobody but those that are alive. -/
theorem isAlive_reporting {event : Event} (alive : (w.reporting m event).1.isAlive s = true) : w.isAlive s = true := by
  unfold reporting at alive
  split at alive
  · rename_i t listens
    obtain ⟨target, -, listener⟩ := Option.bind_eq_some_iff.1 listens
    rw [isAlive_callback] at alive
    rcases isAlive_holding alive with lives | rfl
    · exact lives
    · exact (Option.filter_eq_some_iff.1 listener).2
  · exact alive

theorem isAlive_dispatching {envelope : Envelope} (other : ∀ s, envelope ≠ .request (.enable s))
    (alive : (w.dispatching m target envelope).1.isAlive s = true) : w.isAlive s = true := by
  cases envelope with
  | notification notification => exact isAlive_reporting alive
  | request request =>
    cases request with
    | enable t => exact absurd rfl (other t)
    | start mode =>
      simp only [dispatching] at alive
      split at alive
      · exact alive
      · rw [← w.isAlive_setContext m]
        exact isAlive_reporting alive
    | transfer power duration =>
      simp only [dispatching, transferring] at alive
      split at alive
      · exact alive
      · split at alive <;> exact alive

/-- Whoever is called is alive already: as the listener, or by the request that has been taken. -/
theorem isAlive_attending (free : w.inHand = []) (found : w.modules.get? m = some target)
    (running : target.phase = .running) (kept : target.cancelled = false) {envelope : Envelope} {inbox : Inbox}
    (took : target.inbox.take? = some (envelope, inbox)) (alive : (w.attending m).1.isAlive s = true) :
    w.isAlive s = true := by
  by_cases enables : ∃ t, envelope = .request (.enable t)
  · obtain ⟨t, rfl⟩ := enables
    rwa [isAlive_attendingEnable free found running kept took] at alive
  · rw [attending_taking found running kept took] at alive
    have taken := isAlive_dispatching (fun t same => enables ⟨t, same⟩) alive
    have left : (w.setInbox m inbox).isAlive s = true := taken
    rcases isAlive_adjustModule left with lives | ⟨there, -, waits⟩
    · exact lives
    · refine isAlive_of_waiting found ?_
      rw [Inbox.take?_eq_some.1 took]
      exact List.mem_cons_of_mem _ waits

theorem attending_revivesNobody (numbered : w.subscribers.Numbered) (free : w.inHand = [])
    (found : w.modules.get? m = some target) (running : target.phase = .running) (kept : target.cancelled = false)
    {envelope : Envelope} {inbox : Inbox} (took : target.inbox.take? = some (envelope, inbox)) :
    w.RevivesNobody (w.attending m).1 := by
  have keys : (w.attending m).1.subscribers.keys = w.subscribers.keys := by
    rw [attending_taking found running kept took]
    exact dispatching_subscribers _ m target envelope
  refine ⟨Roster.numbered_of_keys numbered keys, keys ▸ List.Subset.refl _, ?_, ?_⟩
  · exact fun s alive => Or.inl (isAlive_attending free found running kept took alive)
  · intro n s last
    rw [attending_contextOf found running kept took] at last
    split at last
    · rename_i own
      subst own
      rw [outcome_registered _ (w.took_found envelope inbox found), latestAfter_eq, Option.or_eq_some_iff] at last
      rcases last with enabled | ⟨-, same⟩
      · refine Or.inr (Or.inl (isAlive_of_waiting found ?_))
        rw [Inbox.take?_eq_some.1 took, eq_of_enabled? enabled]
        exact List.mem_cons_self
      · rw [contextOf_found found]
        exact Or.inl same
    · exact Or.inl last

theorem hooking_aside (w : World) (m : ModuleRef) (target : Module) (kind : HookKind) :
    (w.hooking m target kind).1.subscribers = w.subscribers ∧ (w.hooking m target kind).1.inHand = w.inHand := by
  unfold hooking
  split <;> exact ⟨rfl, rfl⟩

theorem closing_changes (found : w.modules.get? m = some target) (running : target.phase = .running)
    (cancelled : target.cancelled = true) : ChangesIn move w (w.attending m).1 := by
  rw [attending_closing found running cancelled]
  exact (hooking_changes _ m target .afterStop).head (.close found running cancelled _ (Nat.le_add_right _ _))

theorem enrolling_changes (w : World) (name : String) : ChangesIn (.enrol name) w (w.enrolling name).1 := by
  unfold enrolling
  split
  · exact .refl
  · rename_i m target idle
    obtain ⟨found, waiting⟩ := idle?_found idle
    split
    · exact .refl
    · rename_i vacant
      exact (hooking_changes _ m target .beforeStart).head (.enrol found waiting name rfl vacant)

theorem calling_changes (h : w.move? move = some after) : ChangesIn move w (w.calling move).1 := by
  cases move with
  | attend m =>
    obtain ⟨target, found, running, ⟨cancelled, -⟩ | ⟨kept, envelope, inbox, took, -⟩⟩ := attend?_eq_some.1 h
    · exact closing_changes found running cancelled
    · exact (told_changes found running kept took).trans (attending_deeds found running kept took).changes
  | enrol name => exact w.enrolling_changes name
  | _ => exact .refl

theorem closing_aside (found : w.modules.get? m = some target) (running : target.phase = .running)
    (cancelled : target.cancelled = true) :
    (w.attending m).1.subscribers = w.subscribers ∧ (w.attending m).1.inHand = w.inHand := by
  rw [attending_closing found running cancelled]
  exact hooking_aside _ m target .afterStop

theorem enrolling_aside (w : World) (name : String) :
    (w.enrolling name).1.subscribers = w.subscribers ∧ (w.enrolling name).1.inHand = w.inHand := by
  unfold enrolling
  split
  · exact ⟨rfl, rfl⟩
  · split
    · exact ⟨rfl, rfl⟩
    · exact hooking_aside _ _ _ .beforeStart

theorem calling_revivesNobody (distinct : w.modules.Numbered) (numbered : w.subscribers.Numbered)
    (free : w.inHand = []) (h : w.move? move = some after) : w.RevivesNobody (w.calling move).1 := by
  have accepted := (move_callsIn h).before.accepted
  cases move with
  | attend m =>
    obtain ⟨target, found, running, ⟨cancelled, -⟩ | ⟨kept, envelope, inbox, took, -⟩⟩ := attend?_eq_some.1 h
    · have changes : ChangesIn .rejoin w (w.attending m).1 := closing_changes found running cancelled
      have aside := closing_aside found running cancelled
      exact revivesNobody_of_changes numbered distinct changes (fun _ same => Move.noConfusion same) accepted
        aside.1 aside.2
    · exact attending_revivesNobody numbered free found running kept took
  | enrol name =>
    exact revivesNobody_of_changes numbered distinct (w.enrolling_changes name) (fun _ same => Move.noConfusion same)
      accepted (w.enrolling_aside name).1 (w.enrolling_aside name).2
  | _ => exact .refl numbered

theorem attend?_closes (found : w.modules.get? m = some target) (running : target.phase = .running)
    (cancelled : target.cancelled = true) : w.closeDown m target =
      if target.delay .afterStop = 0 then ((w.attending m).1.runScript (w.attending m).2).finish m
      else (w.attending m).1.runScript (w.attending m).2 := by
  rw [attending_closing found running cancelled, ← callHook_eq]
  rfl

theorem closing_past (distinct : w.modules.Numbered) (found : w.modules.get? m = some target)
    (running : target.phase = .running) (cancelled : target.cancelled = true)
    (ran : ((w.attending m).1.runScript (w.attending m).2).subscribers.Numbered) :
    ((w.attending m).1.runScript (w.attending m).2).RevivesNobody (w.closeDown m target) := by
  have changes : ChangesIn .rejoin w ((w.attending m).1.runScript (w.attending m).2) :=
    (closing_changes found running cancelled).trans (runScript_deeds _ _).changes
  have closing : ((w.adjustModule m (·.closingUntil (w.now + target.delay .afterStop))).record
      (.closed m)).modules.get? m = some (target.closingUntil (w.now + target.delay .afterStop)) := by
    simp [record, adjustModule, found]
  obtain ⟨more, there⟩ := callHook_found _ m target .afterStop closing
  rw [callHook_eq, ← attending_closing found running cancelled] at there
  rw [attend?_closes found running cancelled]
  split
  · have finishes : ChangesIn .rejoin _ (((w.attending m).1.runScript (w.attending m).2).finish m) :=
      .single (.finish there rfl)
    exact revivesNobody_of_changes ran (Changes.keep Change.numbered changes.changes distinct) finishes
      (fun _ same => Move.noConfusion same) (fun _ => rfl) rfl rfl
  · exact .refl ran

theorem taking_past (ran : ((w.attending m).1.runScript (w.attending m).2).subscribers.Numbered) :
    ((w.attending m).1.runScript (w.attending m).2).RevivesNobody
      { (w.attending m).1.runScript (w.attending m).2 with inHand := [] } := by
  refine revivesNobody_of_deeds (.single (.aside _ _ _ _ _)) ran (List.Subset.refl _) ?_
  intro s alive
  simp only [isAlive, List.contains_nil, Bool.or_false] at alive
  exact Or.inl (by rw [isAlive, alive, Bool.true_or])

theorem enrolling_past (distinct : w.modules.Numbered) (numbered : w.subscribers.Numbered) {name : String}
    (h : w.enrol? name = some after)
    (ran : ((w.enrolling name).1.runScript (w.enrolling name).2).subscribers.Numbered) :
    ((w.enrolling name).1.runScript (w.enrolling name).2).RevivesNobody after := by
  have changes := enrol_changes h
  unfold enrol? at h
  unfold enrolling at ran ⊢
  split at h
  · cases h
  · rename_i m target idle
    simp only [idle] at ran ⊢
    cases taken : w.registration? target.registry .wlc with
    | some holder =>
      simp only [taken] at h
      obtain rfl := Option.some.inj h
      exact revivesNobody_of_changes numbered distinct changes (fun _ same => Move.noConfusion same) (fun _ => rfl)
        rfl rfl
    | none =>
      simp only [taken] at h ran
      obtain rfl := Option.some.inj h
      simp only [← callHook_eq] at ran ⊢
      exact .refl ran

theorem past_revivesNobody (reached : w.Reachable) (numbered : w.subscribers.Numbered)
    (h : w.move? move = some after) :
    ((w.calling move).1.runScript (w.calling move).2).RevivesNobody after := by
  have begun := calling_revivesNobody reached.numbered numbered reached.free h
  have ran := (runScript_revivesNobody begun.numbered (w.calling move).2).numbered
  have accepted := (move_callsIn h).past.accepted
  cases move with
  | act action =>
    obtain rfl := Option.some.inj h
    exact ⟨ran, List.Subset.refl _, fun _ => Or.inl, fun _ _ => Or.inl⟩
  | attend m =>
    obtain ⟨target, found, running, ⟨cancelled, rfl⟩ | ⟨kept, envelope, inbox, took, -⟩⟩ := attend?_eq_some.1 h
    · exact closing_past reached.numbered found running cancelled ran
    · rw [attend?_returns reached.free h found running kept took]
      exact taking_past ran
  | enrol name => exact enrolling_past reached.numbered numbered h ran
  | _ =>
    exact revivesNobody_of_changes numbered reached.numbered (move_changes reached.numbered h)
      (fun _ same => Move.noConfusion same) accepted (uncalled_aside rfl h).1 (uncalled_aside rfl h).2

theorem move_revivesNobody (reached : w.Reachable) (numbered : w.subscribers.Numbered)
    (h : w.move? move = some after) : w.RevivesNobody after := by
  have begun := calling_revivesNobody reached.numbered numbered reached.free h
  have ran := runScript_revivesNobody begun.numbered (w.calling move).2
  exact (begun.trans ran).trans (past_revivesNobody reached numbered h)

theorem LeadsTo.revivesNobody (h : w.LeadsTo later) (reached : w.Reachable) (numbered : w.subscribers.Numbered) :
    w.RevivesNobody later := by
  obtain ⟨moves, played⟩ := h
  induction moves generalizing w with
  | nil => exact Option.some.inj played ▸ .refl numbered
  | cons move rest ih =>
    obtain ⟨after, moved, through⟩ := play?_cons.1 played
    have first := move_revivesNobody reached numbered moved
    exact first.trans (ih (reached.leadsTo (.single move moved)) first.numbered through)

theorem Reachable.revivesNobody (reached : w.Reachable) : ({} : World).RevivesNobody w :=
  LeadsTo.revivesNobody reached reachable_empty Roster.numbered_nil

end World

end WirelessCharging
