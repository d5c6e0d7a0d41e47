import WirelessCharging.Proofs.Prompt
/-!
Two worlds of which one has some starts less waiting in one inbox. Whatever is done in both comes to the same in both,
as long as no call to the module is refused for want of room while one has more waiting than the other: the inbox with
more in it is the first to be full. Of
what is remembered in the journal, only the envelopes that the module has taken and the starts that it has turned away
may be told apart.
-/
namespace WirelessCharging

/-- What is left of some envelopes when starts among them are left out. -/
inductive Thins : List Envelope → List Envelope → Prop where
  | nil : Thins [] []
  | keep (envelope : Envelope) {long short : List Envelope} (rest : Thins long short) :
      Thins (envelope :: long) (envelope :: short)
  | skip (mode : ChargingMode) {long short : List Envelope} (rest : Thins long short) :
      Thins (.request (.start mode) :: long) short

namespace Thins

variable {long short : List Envelope}

theorem refl (queue : List Envelope) : Thins queue queue := by
  induction queue with
  | nil => exact .nil
  | cons envelope rest ih => exact .keep envelope ih

theorem length_le (h : Thins long short) : short.length ≤ long.length := by
  induction h with
  | nil => exact Nat.le_refl _
  | keep envelope rest ih => exact Nat.succ_le_succ ih
  | skip mode rest ih => exact Nat.le_succ_of_le ih

theorem contains (h : Thins long short) (s : SubscriberRef) :
    short.contains (.request (.enable s)) = long.contains (.request (.enable s)) := by
  induction h with
  | nil => rfl
  | keep envelope rest ih => rw [List.contains_cons, List.contains_cons, ih]
  | skip mode rest ih =>
    have other : (Envelope.request (.enable s) == .request (.start mode)) = false := by
      rw [beq_eq_false_iff_ne]
      intro same
      cases same
    rw [List.contains_cons, other, Bool.false_or, ih]

end Thins

/-- An inbox with other envelopes in the place of the first ones; one that is discarded stays empty. -/
def Inbox.trimmed (long short : List Envelope) (inbox : Inbox) : Inbox :=
  if inbox.state = .discarded then inbox else { inbox with queue := short ++ inbox.queue.drop long.length }

namespace Inbox

variable {long short : List Envelope}

theorem trimmed_of_append {inbox : Inbox} {more : List Envelope} (kept : inbox.state ≠ .discarded)
    (first : long ++ more = inbox.queue) : inbox.trimmed long short = { inbox with queue := short ++ more } := by
  rw [trimmed, if_neg kept, ← first, List.drop_left]

theorem trimmed_self {inbox : Inbox} {queue : List Envelope}
    (first : inbox.state ≠ .discarded → queue <+: inbox.queue) :
    inbox.trimmed queue queue = inbox := by
  by_cases discarded : inbox.state = .discarded
  · exact if_pos discarded
  · obtain ⟨more, same⟩ := first discarded
    rw [trimmed_of_append discarded same, same]

theorem trimmed_isReceiving (inbox : Inbox) : (inbox.trimmed long short).isReceiving = inbox.isReceiving := by
  unfold trimmed
  split <;> rfl

/-- The shorter inbox has room where the longer one has. -/
theorem post_trimmed {inbox after : Inbox} {envelope : Envelope} (thins : Thins long short)
    (first : inbox.state ≠ .discarded → long <+: inbox.queue) (posted : inbox.post envelope = .ok after) :
    (inbox.trimmed long short).post envelope = .ok (after.trimmed long short) := by
  obtain ⟨receiving, room, rfl⟩ := post_eq_ok.1 posted
  have kept : inbox.state ≠ .discarded := by
    rw [isReceiving, beq_iff_eq] at receiving
    rw [receiving]
    exact fun same => InboxState.noConfusion same
  obtain ⟨more, same⟩ := first kept
  have grown : ({ inbox with queue := inbox.queue ++ [envelope] } : Inbox).trimmed long short =
      { inbox with queue := short ++ (more ++ [envelope]) } :=
    trimmed_of_append kept (by rw [← same, List.append_assoc])
  have roomy : (short ++ more).length < inbox.capacity := by
    have shorter := thins.length_le
    rw [← same, List.length_append] at room
    rw [List.length_append]
    omega
  rw [post_eq_ok, trimmed_isReceiving, grown, trimmed_of_append kept same]
  exact ⟨receiving, roomy, by rw [List.append_assoc]⟩

theorem post_trimmed_error {inbox : Inbox} {envelope : Envelope} {refusal : Refusal}
    (refused : inbox.post envelope = .error refusal) (roomy : refusal ≠ .inboxFull) :
    (inbox.trimmed long short).post envelope = .error refusal := by
  unfold post at refused ⊢
  rw [trimmed_isReceiving]
  split at refused
  · rename_i shut
    rw [if_pos shut]
    exact refused
  · split at refused
    · exact absurd (Except.error.inj refused).symm roomy
    · cases refused

end Inbox

def Module.trimmed (long short : List Envelope) (target : Module) : Module :=
  target.withInbox (target.inbox.trimmed long short)

theorem Module.trimmed_self {target : Module} {queue : List Envelope}
    (first : target.inbox.state ≠ .discarded → queue <+: target.inbox.queue) : target.trimmed queue queue = target := by
  rw [trimmed, Inbox.trimmed_self first]
  rfl

/-- Everything but that a module has taken an envelope or has turned a start away. -/
def Entry.isHeard (m : ModuleRef) : Entry → Bool
  | .taken target _ => target ≠ m
  | .rejected source _ => source ≠ m
  | _ => true

namespace World

/-- The first envelopes that wait for a module are some in the one world and some others in the other, and apart from
them there is nothing to tell the worlds apart. -/
structure Trims (m : ModuleRef) (long short : List Envelope) (w v : World) : Prop where
  thins : Thins long short
  waiting : ∃ target, w.modules.get? m = some target ∧
    (target.inbox.state ≠ .discarded → long <+: target.inbox.queue)
  heard : v.journal.filter (·.isHeard m) = w.journal.filter (·.isHeard m)
  same : v = { w with modules := w.modules.adjust m (·.trimmed long short), journal := v.journal }

structure TrimsOutcome (m : ModuleRef) (long short : List Envelope) (outcome other : World × Answer) : Prop where
  world : Trims m long short outcome.1 other.1
  answer : other.2 = outcome.2

structure TrimsScript (m : ModuleRef) (long short : List Envelope) (start other : World × Script) : Prop where
  world : Trims m long short start.1 other.1
  script : other.2 = start.2

/-- No call is refused by a module because its inbox is full. -/
def HasRoom (m : ModuleRef) (calls : List (World × Action)) : Prop :=
  ∀ call ∈ calls, ∀ envelope, call.1.submission? call.2 = some (m, envelope) →
    (call.1.perform call.2).2 ≠ .refused .inboxFull

theorem HasRoom.left {m : ModuleRef} {first rest : List (World × Action)} (h : HasRoom m (first ++ rest)) :
    HasRoom m first := fun call member => h call (List.mem_append_left _ member)

theorem HasRoom.right {m : ModuleRef} {first rest : List (World × Action)} (h : HasRoom m (first ++ rest)) :
    HasRoom m rest := fun call member => h call (List.mem_append_right _ member)

variable {m : ModuleRef} {long short : List Envelope} {w v : World}

theorem holds_trimmed (thins : Thins long short) {target : Module}
    (first : target.inbox.state ≠ .discarded → long <+: target.inbox.queue) (s : SubscriberRef) :
    (target.trimmed long short).inbox.holds s = target.inbox.holds s := by
  unfold Module.trimmed Inbox.trimmed
  split
  · rfl
  · rename_i kept
    obtain ⟨more, same⟩ := first kept
    simp only [Module.withInbox, Inbox.holds, ← same, List.drop_left, List.contains_append, thins.contains]

namespace Trims

theorem same_journal (h : Trims m long long w v) : v = { w with journal := v.journal } := by
  obtain ⟨target, found, first⟩ := h.waiting
  have unchanged : w.modules.adjust m (·.trimmed long long) = w.modules :=
    w.modules.adjust_eq_self found (Module.trimmed_self first)
  have same := h.same
  rwa [unchanged] at same

theorem nothing (h : Trims m long long w v) : Trims m [] [] w v := by
  obtain ⟨target, found, -⟩ := h.waiting
  have unchanged : w.modules.adjust m (·.trimmed [] []) = w.modules :=
    w.modules.adjust_eq_self found (Module.trimmed_self fun _ => List.nil_prefix)
  constructor
  case thins => exact .nil
  case waiting => exact ⟨target, found, fun _ => List.nil_prefix⟩
  case heard => exact h.heard
  case same =>
    rw [unchanged]
    exact h.same_journal

theorem get? (h : Trims m long short w v) (x : ModuleRef) :
    v.modules.get? x = (w.modules.get? x).map fun target => if x = m then target.trimmed long short else target := by
  rw [h.same]
  exact w.modules.get?_adjust m x _

theorem found (h : Trims m long short w v) {x : ModuleRef} {target : Module} (there : w.modules.get? x = some target) :
    ∃ inbox, v.modules.get? x = some (target.withInbox inbox) := by
  rw [h.get?, there, Option.map_some]
  split
  · exact ⟨_, rfl⟩
  · exact ⟨target.inbox, rfl⟩

theorem keys (h : Trims m long short w v) : v.modules.keys = w.modules.keys := by
  rw [h.same]
  exact Roster.keys_adjust _ _ _

theorem latest? (h : Trims m long short w v) (name : String) : v.modules.latest? name = w.modules.latest? name := by
  rw [h.same]
  exact w.modules.latest?_adjust m _ name

theorem readings (h : Trims m long short w v) (name : String) : v.readings name = w.readings name := by
  rw [h.same]
  rfl

theorem isAlive (h : Trims m long short w v) : v.isAlive = w.isAlive := by
  obtain ⟨target, found, first⟩ := h.waiting
  funext s
  have waits : (w.modules.adjust m (·.trimmed long short)).any (·.2.inbox.holds s) =
      w.modules.any (·.2.inbox.holds s) :=
    w.modules.any_adjust_found (fun target => target.inbox.holds s) found (holds_trimmed h.thins first s)
  rw [h.same]
  simp only [World.isAlive, waits]

theorem listener? (h : Trims m long short w v) (context : Context) : v.listener? context = w.listener? context := by
  rw [World.listener?, World.listener?, h.isAlive]

theorem blind (h : Trims m long short w v) {f : World → World} (blind : World.Blind f) :
    Trims m long short (f w) (f v) := by
  have modules := blind.modules
  have journal := blind.journal
  constructor
  case thins => exact h.thins
  case waiting => rw [modules]; exact h.waiting
  case heard => rw [journal, journal]; exact h.heard
  case same =>
    rw [modules, journal]
    exact (congrArg f h.same).trans (blind w _ _)

theorem record (h : Trims m long short w v) (entry : Entry) :
    Trims m long short (w.record entry) (v.record entry) := by
  constructor
  case thins => exact h.thins
  case waiting => exact h.waiting
  case heard => simp only [World.record, List.filter_cons, h.heard]
  case same => exact congrArg (fun u : World => { u with journal := entry :: v.journal }) h.same

theorem recordHidden (h : Trims m long short w v) {entry : Entry} (hidden : entry.isHeard m = false) :
    Trims m long short (w.record entry) v := by
  constructor
  case thins => exact h.thins
  case waiting => exact h.waiting
  case heard => rw [World.record, List.filter_cons_of_neg (by rw [hidden]; exact Bool.false_ne_true), h.heard]
  case same => exact h.same

theorem own (h : Trims m long short w v) {target : Module} (found : w.modules.get? m = some target)
    {left kept : List Envelope} {f g : Module → Module}
    (agree : (f target).trimmed left kept = g (target.trimmed long short))
    (first : (f target).inbox.state ≠ .discarded → left <+: (f target).inbox.queue) (thins : Thins left kept) :
    Trims m left kept (w.adjustModule m f) (v.adjustModule m g) := by
  constructor
  case thins => exact thins
  case waiting => exact ⟨f target, by simp [adjustModule, found], first⟩
  case heard => exact h.heard
  case same =>
    have modules : v.modules.adjust m g = (w.modules.adjust m f).adjust m (·.trimmed left kept) := by
      rw [congrArg World.modules h.same, Roster.adjust_adjust_self, Roster.adjust_adjust_self]
      exact w.modules.adjust_congr found agree.symm
    have whole := congrArg (fun u : World => { u with modules := v.modules.adjust m g }) h.same
    refine Eq.trans whole ?_
    rw [modules]
    rfl

theorem other (h : Trims m long short w v) {x : ModuleRef} (different : x ≠ m) (f : Module → Module) :
    Trims m long short (w.adjustModule x f) (v.adjustModule x f) := by
  obtain ⟨target, found, first⟩ := h.waiting
  constructor
  case thins => exact h.thins
  case waiting => exact ⟨target, by rw [adjustModule, Roster.get?_adjust_of_ne _ _ different.symm, found], first⟩
  case heard => exact h.heard
  case same =>
    have modules : v.modules.adjust x f = (w.modules.adjust x f).adjust m (·.trimmed long short) := by
      rw [congrArg World.modules h.same]
      exact Roster.adjust_adjust_of_ne _ _ _ different.symm
    have whole := congrArg (fun u : World => { u with modules := v.modules.adjust x f }) h.same
    refine Eq.trans whole ?_
    rw [modules]
    rfl

theorem adjustModule (h : Trims m long short w v) (x : ModuleRef) {f : Module → Module}
    (agree : ∀ target, (f target).trimmed long short = f (target.trimmed long short))
    (first : ∀ target, (f target).inbox.state ≠ .discarded → (f target).inbox = target.inbox) :
    Trims m long short (w.adjustModule x f) (v.adjustModule x f) := by
  by_cases same : x = m
  · subst same
    obtain ⟨target, found, waits⟩ := h.waiting
    refine h.own found (agree target) ?_ h.thins
    intro kept
    have inbox := first target kept
    rw [inbox] at kept ⊢
    exact waits kept
  · exact h.other same f

theorem wake (h : Trims m long short w v) (x : ModuleRef) : Trims m long short (w.wake x) (v.wake x) := by
  have running : (v.modules.get? x).any (·.phase == .running) = (w.modules.get? x).any (·.phase == .running) := by
    rw [h.get?]
    cases w.modules.get? x with
    | none => rfl
    | some target => split <;> rfl
  have waits : v.ready = w.ready ∧ v.setAside = w.setAside := by
    rw [h.same]
    exact ⟨rfl, rfl⟩
  unfold World.wake
  rw [running, waits.1, waits.2]
  split
  · have joined := h.blind (f := fun u => { u with ready := w.ready ++ [x] }) fun _ _ _ => rfl
    exact waits.2 ▸ joined
  · exact h

theorem refl {target : Module} (found : w.modules.get? m = some target) (thins : Thins long short)
    (first : target.inbox.state ≠ .discarded → long <+: target.inbox.queue) :
    Trims m long short w (w.adjustModule m (·.trimmed long short)) :=
  ⟨thins, ⟨target, found, first⟩, rfl, rfl⟩

theorem submit (h : Trims m long short w v) (x : ModuleRef) (envelope : Envelope)
    (room : long ≠ short → x = m → (w.submit x envelope).2 ≠ .refused .inboxFull) :
    TrimsOutcome m long short (w.submit x envelope) (v.submit x envelope) := by
  by_cases own : x = m
  · subst own
    obtain ⟨target, found, first⟩ := h.waiting
    have there : v.modules.get? x = some (target.trimmed long short) := by
      rw [h.get?, found, Option.map_some, if_pos rfl]
    have answered : long ≠ short → (w.submit x envelope).2 ≠ .refused .inboxFull := fun differ => room differ rfl
    simp only [World.submit, found, there] at answered ⊢
    cases posted : target.inbox.post envelope with
    | ok inbox =>
      have shorter : (target.trimmed long short).inbox.post envelope = .ok (inbox.trimmed long short) :=
        Inbox.post_trimmed h.thins first posted
      simp only [shorter]
      obtain ⟨-, -, grown⟩ := Inbox.post_eq_ok.1 posted
      have changed : Trims x long short (w.setInbox x inbox) (v.setInbox x (inbox.trimmed long short)) := by
        refine h.own found rfl ?_ h.thins
        intro kept
        rw [grown] at kept
        rw [grown]
        exact (first kept).trans (List.prefix_append _ _)
      exact ⟨(changed.record _).wake x, rfl⟩
    | error refusal =>
      rw [posted] at answered
      have refused : (target.trimmed long short).inbox.post envelope = .error refusal := by
        by_cases same : long = short
        · subst same
          rw [Module.trimmed_self first, posted]
        · exact Inbox.post_trimmed_error posted fun full => answered same (congrArg Answer.refused full)
      simp only [refused]
      exact ⟨h, rfl⟩
  · have there : v.modules.get? x = w.modules.get? x := by
      rw [h.get?]
      simp only [if_neg own, Option.map_id_fun', id_eq]
    simp only [World.submit, there]
    cases w.modules.get? x with
    | none => exact ⟨h, rfl⟩
    | some target =>
      dsimp only
      cases target.inbox.post envelope with
      | error refusal => exact ⟨h, rfl⟩
      | ok inbox => exact ⟨((h.other own _).record _).wake x, rfl⟩

theorem submitTo (h : Trims m long short w v) (name : String) (envelope : Envelope)
    (room : long ≠ short → w.modules.latest? name = some m → (w.submitTo name envelope).2 ≠ .refused .inboxFull) :
    TrimsOutcome m long short (w.submitTo name envelope) (v.submitTo name envelope) := by
  simp only [World.submitTo, h.latest?] at room ⊢
  cases latest : w.modules.latest? name with
  | none => exact ⟨h, rfl⟩
  | some x =>
    simp only [latest] at room
    exact h.submit x envelope fun differ own => room differ (congrArg some own)

theorem request (h : Trims m long short w v) (name : String) (request : Except Refusal Request)
    (room : long ≠ short → ∀ envelope, w.addressed? name request = some (m, envelope) →
      (w.request name request).2 ≠ .refused .inboxFull) :
    TrimsOutcome m long short (w.request name request) (v.request name request) := by
  cases request with
  | error refusal => exact ⟨h, rfl⟩
  | ok request =>
    refine h.submitTo name (.request request) ?_
    intro differ latest
    exact room differ (.request request) (addressed?_eq_some.2 ⟨latest, request, rfl, rfl⟩)

theorem reply (h : Trims m long short w v) (transfer : Nat) (notification : Notification)
    (room : long ≠ short → (w.transfers[transfer]?).map (·.issuer) = some m →
      (w.reply transfer notification).2 ≠ .refused .inboxFull) :
    TrimsOutcome m long short (w.reply transfer notification) (v.reply transfer notification) := by
  have same : v.transfers = w.transfers := by rw [h.same]
  simp only [World.reply, same] at room ⊢
  cases issued : w.transfers[transfer]? with
  | none => exact ⟨h, rfl⟩
  | some asked =>
    simp only [issued, Option.map_some] at room
    exact h.submit asked.issuer _ fun differ own => room differ (congrArg some own)

theorem letGo (h : Trims m long short w v) (name : String) : Trims m long short (w.letGo name) (v.letGo name) :=
  h.blind (World.letGo_blind name)

theorem ensureDevice (h : Trims m long short w v) (name : String) :
    Trims m long short (w.ensureDevice name) (v.ensureDevice name) := h.blind (World.ensureDevice_blind name)

theorem standing (h : Trims m long short w v) (name runtime : String) (id : ModuleId) :
    v.standing name runtime id = w.standing name runtime id := by
  have runtimes : v.runtimes = w.runtimes := by rw [h.same]
  have registries : v.registries = w.registries := by rw [h.same]
  simp only [World.standing, World.registration?, h.latest?, runtimes, registries]
  cases w.modules.latest? name with
  | none => rfl
  | some x =>
    simp only [Option.bind_some, h.get?]
    cases w.modules.get? x with
    | none => rfl
    | some target =>
      dsimp only [Option.map_some]
      split <;> rfl

theorem perform (h : Trims m long short w v) (action : Action)
    (room : long ≠ short → ∀ envelope, w.submission? action = some (m, envelope) →
      (w.perform action).2 ≠ .refused .inboxFull) :
    TrimsOutcome m long short (w.perform action) (v.perform action) := by
  cases action with
  | enable name subscriber =>
    cases subscriber with
    | none => exact ⟨h, rfl⟩
    | some subscriber =>
      have ensured := h.blind (World.ensureSubscriber_blind subscriber)
      have same := World.ensureSubscriber_ref (w := w) (v := v) (by rw [h.same]) subscriber
      simp only [World.perform, same]
      refine ensured.request name _ ?_
      intro differ envelope addressed
      rw [addressed?_congr (w.ensureSubscriber_aside subscriber).2.1] at addressed
      exact room differ envelope addressed
  | start name mode => exact h.request name _ room
  | transfer name power duration => exact h.request name _ room
  | notify name notification =>
    refine h.submitTo name _ ?_
    intro differ latest
    exact room differ (.notification notification) (by rw [submission?, latest]; rfl)
  | reply transfer notification =>
    refine h.reply transfer notification ?_
    intro differ issued
    obtain ⟨asked, there, same⟩ := Option.map_eq_some_iff.1 issued
    exact room differ (.notification notification) (by rw [submission?, there, Option.map_some, same])
  | setDevice name change onTransfer =>
    refine ⟨(h.ensureDevice name).blind (f := fun w => w.adjustDevice name (·.changed change onTransfer)) ?_, rfl⟩
    exact fun _ _ _ => rfl
  | subscribe name kind reactions =>
    refine ⟨(h.letGo name).blind (f := fun w => w.addSubscriber name { kind, reactions }) ?_, rfl⟩
    exact fun _ _ _ => rfl
  | release name =>
    refine ⟨h.letGo name, ?_⟩
    rw [h.same]
    rfl
  | query name runtime id => exact ⟨h, h.standing name runtime id⟩

theorem runScript (h : Trims m long short w v) {script : Script}
    (room : long ≠ short → HasRoom m (w.callsOf script)) :
    Trims m long short (w.runScript script) (v.runScript script) := by
  induction script generalizing w v with
  | nil => exact h
  | cons action rest ih =>
    obtain ⟨world, answer⟩ := h.perform action fun differ => (List.forall_mem_cons.1 (room differ)).1
    simp only [World.runScript, answer]
    exact ih (world.record _) fun differ => (List.forall_mem_cons.1 (room differ)).2

theorem setContext (h : Trims m long short w v) (x : ModuleRef) (context : Context) :
    Trims m long short (w.setContext x context) (v.setContext x context) :=
  h.adjustModule x (fun _ => rfl) fun _ _ => rfl

theorem callback (h : Trims m long short w v) (x : ModuleRef) (s : SubscriberRef) (event : Event) :
    TrimsScript m long short (w.callback x s event) (v.callback x s event) := by
  have told := h.record (.delivered x s event)
  have subscribers : v.subscribers = w.subscribers := by rw [h.same]
  simp only [World.callback, World.record, subscribers] at told ⊢
  cases w.subscribers.get? s with
  | none => exact ⟨told, rfl⟩
  | some subscriber =>
    dsimp only
    split
    · cases takeReaction event.kind subscriber.reactions with
      | none => exact ⟨told, rfl⟩
      | some reaction =>
        obtain ⟨script, others⟩ := reaction
        refine ⟨?_, rfl⟩
        have used := told.blind
          (f := fun w => w.adjustSubscriber s fun subscriber => { subscriber with reactions := others })
          fun _ _ _ => rfl
        rw [← subscribers] at used ⊢
        exact used
    · exact ⟨told, rfl⟩

theorem setInHand (h : Trims m long short w v) (inHand : List SubscriberRef) :
    Trims m long short { w with inHand } { v with inHand } :=
  h.blind (f := fun w => { w with inHand }) fun _ _ _ => rfl

theorem reporting (h : Trims m long short w v) (x : ModuleRef) (event : Event) :
    TrimsScript m long short (w.reporting x event) (v.reporting x event) := by
  have heard : ((v.modules.get? x).bind fun target => v.listener? target.context) =
      (w.modules.get? x).bind fun target => w.listener? target.context := by
    rw [h.get?]
    cases w.modules.get? x with
    | none => rfl
    | some target =>
      simp only [Option.map_some, Option.bind_some, h.listener?]
      split <;> rfl
  unfold World.reporting
  rw [heard]
  split
  · rename_i s _
    exact (h.setInHand [s]).callback x s event
  · exact ⟨h.record _, rfl⟩

theorem transferring (h : Trims m long short w v) (transfer : Transfer) :
    TrimsScript m long short (w.transferring transfer) (v.transferring transfer) := by
  have devices : v.devices = w.devices := by rw [h.same]
  have transfers : v.transfers = w.transfers := by rw [h.same]
  have handed : Trims m long short (w.handOver transfer) (v.handOver transfer) := by
    have grown := h.blind (f := fun w => { w with transfers := w.transfers ++ [transfer] }) fun _ _ _ => rfl
    have lent := grown.blind (f := fun u => u.grant transfer.issuer (.device w.transfers.length)) fun _ _ _ => rfl
    have recorded := lent.record
      (.forwarded transfer.issuer w.transfers.length transfer.device transfer.power transfer.duration)
    rw [World.handOver, World.handOver]
    rw [← transfers] at recorded ⊢
    exact recorded
  unfold World.transferring
  rw [devices]
  cases w.devices.get? transfer.device with
  | none => exact ⟨handed, rfl⟩
  | some device =>
    dsimp only
    cases device.onTransfer with
    | nil => exact ⟨handed, rfl⟩
    | cons script rest =>
      refine ⟨handed.blind
        (f := fun w => w.adjustDevice transfer.device fun device => { device with onTransfer := rest }) ?_, rfl⟩
      exact fun _ _ _ => rfl

theorem dispatching (h : Trims m long short w v) (x : ModuleRef) (target : Module) (envelope : Envelope) :
    TrimsScript m long short (w.dispatching x target envelope) (v.dispatching x target envelope) := by
  cases envelope with
  | notification notification => exact h.reporting x _
  | request request =>
    cases request with
    | enable s =>
      simp only [World.dispatching, h.readings]
      split
      · exact ((h.setContext x _).setInHand [s]).callback x s _
      · exact (h.setInHand [s]).callback x s _
    | start mode =>
      simp only [World.dispatching, h.readings]
      split
      · exact ⟨h.record _, rfl⟩
      · exact (h.setContext x _).reporting x _
    | transfer power duration => exact h.transferring _

theorem hooking (h : Trims m long short w v) (x : ModuleRef) (target : Module) (kind : HookKind) :
    TrimsScript m long short (w.hooking x target kind) (v.hooking x target kind) := by
  have subscribed : v.hasSubscriber target.context = w.hasSubscriber target.context := by
    rw [World.hasSubscriber, World.hasSubscriber, h.listener?]
  unfold World.hooking
  rw [subscribed]
  split
  · exact ⟨h, rfl⟩
  · exact ⟨h.record _, rfl⟩

theorem runs {start other : World × Script} (h : TrimsScript m long short start other)
    (room : long ≠ short → HasRoom m (start.1.callsOf start.2)) :
    Trims m long short (start.1.runScript start.2) (other.1.runScript other.2) := by
  rw [h.script]
  exact h.world.runScript room

theorem dispatch (h : Trims m long short w v) (free : w.inHand = []) (x : ModuleRef) (target : Module)
    (envelope : Envelope)
    (room : long ≠ short →
      HasRoom m ((w.dispatching x target envelope).1.callsOf (w.dispatching x target envelope).2)) :
    Trims m long short (w.dispatch x target envelope) (v.dispatch x target envelope) := by
  have alsoFree : v.inHand = [] := by
    rw [h.same]
    exact free
  have ran := (runs (h.dispatching x target envelope) room).setInHand []
  obtain ⟨inHand, same⟩ := w.dispatch_eq x target envelope
  obtain ⟨others, alike⟩ := v.dispatch_eq x target envelope
  have nobody := dispatch_inHand free x target envelope
  have nobodyElse := dispatch_inHand alsoFree x target envelope
  rw [same] at nobody
  rw [alike] at nobodyElse
  obtain rfl : inHand = [] := nobody
  obtain rfl : others = [] := nobodyElse
  rw [same, alike]
  exact ran

theorem callHook (h : Trims m long short w v) (x : ModuleRef) (target : Module) (kind : HookKind)
    (room : long ≠ short → HasRoom m ((w.hooking x target kind).1.callsOf (w.hooking x target kind).2)) :
    Trims m long short (w.callHook x target kind) (v.callHook x target kind) := by
  rw [callHook_eq, callHook_eq]
  exact runs (h.hooking x target kind) room

end Trims

end World

end WirelessCharging
