import WirelessCharging.Proofs.Lifetime
/-!
First in, first out. Callers, callbacks, hooks and devices put their envelopes into one queue, and what has been
accepted is at all times what the dispatcher has taken, in the same order, followed by what still waits. Only
the end of a module parts the two, and from the moment its inbox is closed neither grows.
-/
namespace WirelessCharging

variable {move : Move}

def Phase.inboxState : Phase → InboxState
  | .idle => .receiving
  | .launching => .receiving
  | .running => .receiving
  | .closing _ => .closed
  | .finished => .discarded
  | .dropped => .discarded

structure Module.Conserves (target : Module) (accepted taken : List Envelope) : Prop where
  state : target.inbox.state = target.phase.inboxState
  /-- Only a stop and a drop shut an inbox. -/
  shut : target.inbox.isReceiving = false → target.cancelled = true ∨ target.phase = .dropped
  first : taken <+: accepted
  waiting : target.inbox.state ≠ .discarded → accepted = taken ++ target.inbox.queue

def Conserved (there : Option Module) (accepted taken : List Envelope) : Prop :=
  match there with
  | none => accepted = [] ∧ taken = []
  | some target => target.Conserves accepted taken

theorem Module.Conserves.quiet {target : Module} {accepted taken : List Envelope}
    (h : target.Conserves accepted taken) : Conserved (some target) (accepted ++ []) (taken ++ []) := by
  rw [List.append_nil, List.append_nil]
  exact h

theorem Inbox.isReceiving_iff {inbox : Inbox} : inbox.isReceiving = true ↔ inbox.state = .receiving :=
  beq_iff_eq

theorem Module.Conserves.receiving {target : Module} {accepted taken : List Envelope}
    (start : target.Conserves accepted taken) (early : target.phase.inboxState = .receiving) :
    target.inbox.isReceiving = true ∧ accepted = taken ++ target.inbox.queue := by
  have state : target.inbox.state = .receiving := start.state.trans early
  constructor
  · exact Inbox.isReceiving_iff.2 state
  · apply start.waiting
    rw [state]
    intro same
    cases same

theorem Module.Conserves.goesOn {target : Module} {accepted taken : List Envelope} {phase : Phase}
    (start : target.Conserves accepted taken) (early : target.phase.inboxState = .receiving)
    (next : phase.inboxState = .receiving) : ({ target with phase } : Module).Conserves accepted taken := by
  obtain ⟨receiving, -⟩ := start.receiving early
  constructor
  case state => exact (Inbox.isReceiving_iff.1 receiving).trans next.symm
  case shut =>
    intro shut
    simp [receiving] at shut
  case first => exact start.first
  case waiting => exact start.waiting

theorem Module.Conserves.cancelled_of_isEnding {target : Module} {accepted taken : List Envelope}
    (start : target.Conserves accepted taken) (ending : target.phase.isEnding = true) :
    target.cancelled = true := by
  have shut : target.inbox.isReceiving = false := by
    rw [Inbox.isReceiving, start.state]
    cases phase : target.phase with
    | closing wake => rfl
    | finished => rfl
    | idle => simp [phase, Phase.isEnding] at ending
    | launching => simp [phase, Phase.isEnding] at ending
    | running => simp [phase, Phase.isEnding] at ending
    | dropped => simp [phase, Phase.isEnding] at ending
  rcases start.shut shut with cancelled | dropped
  · exact cancelled
  · simp [dropped, Phase.isEnding] at ending

theorem Becomes.conserved {w later : World} {m : ModuleRef} {before after : Option Module}
    {more gone accepted taken : List Envelope} (h : Becomes move w later m before after more gone)
    (start : Conserved before accepted taken) : Conserved after (accepted ++ more) (taken ++ gone) := by
  cases h with
  | same => rwa [List.append_nil, List.append_nil]
  | @built target fresh runtime known =>
    obtain ⟨rfl, rfl⟩ := start
    constructor
    case state =>
      rw [fresh.phase, Inbox.isReceiving_iff.1 fresh.receiving]
      rfl
    case shut =>
      intro shut
      rw [fresh.receiving] at shut
      cases shut
    case first => exact List.prefix_rfl
    case waiting =>
      intro _
      rw [fresh.queue]
      rfl
  | posted envelope receiving =>
    have state := Inbox.isReceiving_iff.1 receiving
    have waiting := start.waiting (by rw [state]; exact fun same => InboxState.noConfusion same)
    constructor
    case state => exact start.state
    case shut => exact start.shut
    case first =>
      rw [List.append_nil]
      exact start.first.trans (List.prefix_append _ _)
    case waiting =>
      intro _
      rw [waiting, List.append_nil, List.append_assoc]
      rfl
  | @took target envelope inbox running kept took named =>
    have same := Inbox.take?_eq_some.1 took
    obtain ⟨receiving, waiting⟩ := start.receiving (by rw [running]; rfl)
    have all : accepted = taken ++ [envelope] ++ inbox.queue := by
      rw [waiting, same, List.append_assoc]
      rfl
    have state : inbox.isReceiving = true := by
      rw [same] at receiving
      exact receiving
    constructor
    case state =>
      exact (Inbox.isReceiving_iff.1 state).trans ((Inbox.isReceiving_iff.1 receiving).symm.trans start.state)
    case shut =>
      intro shut
      simp [Module.withInbox, state] at shut
    case first =>
      rw [List.append_nil, all]
      exact List.prefix_append _ _
    case waiting =>
      intro _
      rw [List.append_nil]
      exact all
  | handled target envelope named =>
    apply Module.Conserves.quiet
    exact ⟨start.state, start.shut, start.first, start.waiting⟩
  | closed running cancelled later =>
    apply Module.Conserves.quiet
    exact ⟨rfl, fun _ => Or.inl cancelled, start.first, fun _ => (start.receiving (by rw [running]; rfl)).2⟩
  | finished ending =>
    apply Module.Conserves.quiet
    exact ⟨rfl, fun _ => Or.inl (start.cancelled_of_isEnding ending), start.first, fun kept => absurd rfl kept⟩
  | dropped idle =>
    apply Module.Conserves.quiet
    exact ⟨rfl, fun _ => Or.inr rfl, start.first, fun kept => absurd rfl kept⟩
  | enrolled idle name named vacant registered =>
    apply Module.Conserves.quiet
    exact start.goesOn (by rw [idle]; rfl) rfl
  | spawned launching named =>
    apply Module.Conserves.quiet
    exact start.goesOn (by rw [launching]; rfl) rfl
  | cancelled named =>
    apply Module.Conserves.quiet
    exact ⟨start.state, fun _ => Or.inl rfl, start.first, start.waiting⟩

theorem Change.conserved {w later : World} (h : Change move w later) {m : ModuleRef}
    (start : Conserved (w.modules.get? m) (w.accepted m) (w.taken m)) :
    Conserved (later.modules.get? m) (later.accepted m) (later.taken m) := by
  obtain ⟨more, gone, becomes, accepted, taken⟩ := h.affects m
  rw [accepted, taken]
  exact becomes.conserved start

/-- Worlds that come up while moves are made, those in the middle of a move among them. Every world that can be
reached is one of them. -/
abbrev World.Occurs (w : World) : Prop := Changes {} w

theorem World.Occurs.conserved {w : World} (occurs : w.Occurs) (m : ModuleRef) :
    Conserved (w.modules.get? m) (w.accepted m) (w.taken m) :=
  Changes.keep (P := fun w => Conserved (w.modules.get? m) (w.accepted m) (w.taken m))
    (fun change start => change.conserved start) occurs ⟨rfl, rfl⟩

theorem Becomes.still {w later : World} {m : ModuleRef} {before : Module} {after : Option Module}
    {more gone accepted taken : List Envelope} (h : Becomes move w later m (some before) after more gone)
    (start : before.Conserves accepted taken) (shut : before.inbox.isReceiving = false) :
    more = [] ∧ gone = [] := by
  cases h with
  | posted envelope receiving => simp [shut] at receiving
  | took running kept took named =>
    have state := start.state
    rw [running] at state
    rw [Inbox.isReceiving_iff.2 state] at shut
    cases shut
  | _ => exact ⟨rfl, rfl⟩

theorem Changes.still {w later : World} (h : Changes w later) (occurs : w.Occurs) {m : ModuleRef}
    {target : Module} (found : w.modules.get? m = some target) (shut : target.inbox.isReceiving = false) :
    later.accepted m = w.accepted m ∧ later.taken m = w.taken m := by
  induction h with
  | refl => exact ⟨rfl, rfl⟩
  | @tail middle last through step ih =>
    obtain ⟨move, change⟩ := step
    obtain ⟨after, there, lasts⟩ := Changes.lasts through found
    -- the inbox is still closed, by what lasts of a module
    have conserved := World.Occurs.conserved (occurs.trans through) m
    obtain ⟨more, gone, becomes, accepted, taken⟩ := change.affects m
    rw [there] at becomes conserved
    obtain ⟨rfl, rfl⟩ := becomes.still conserved (lasts.shut shut)
    rw [accepted, taken, List.append_nil, List.append_nil]
    exact ih

theorem Becomes.emptied {w later : World} {m : ModuleRef} {before : Option Module} {after : Module}
    {more gone : List Envelope} (h : Becomes move w later m before (some after) more gone)
    (start : ∀ target, before = some target → target.inbox.state = .discarded → target.inbox.queue = []) :
    after.inbox.state = .discarded → after.inbox.queue = [] := by
  cases h with
  | same => exact start after rfl
  | built fresh => exact fun _ => fresh.queue
  | @posted target envelope receiving =>
    intro discarded
    have state : target.inbox.state = .discarded := discarded
    rw [Inbox.isReceiving_iff.1 receiving] at state
    cases state
  | @took target envelope inbox running kept took named =>
    intro discarded
    have waiting := start target rfl
    rw [Inbox.take?_eq_some.1 took] at waiting
    cases waiting discarded
  | handled target envelope named => exact start target rfl
  | closed running cancelled later =>
    intro discarded
    cases discarded
  | finished ending => exact fun _ => rfl
  | dropped idle => exact fun _ => rfl
  | @enrolled target idle name named vacant registered => exact start target rfl
  | @spawned target launching named => exact start target rfl
  | cancelled target named => exact start target rfl

theorem World.Occurs.inboxState {w : World} (occurs : w.Occurs) {m : ModuleRef} {target : Module}
    (found : w.modules.get? m = some target) : target.inbox.state = target.phase.inboxState := by
  have conserved := occurs.conserved m
  rw [found] at conserved
  exact conserved.state

theorem World.Occurs.receiving {w : World} (occurs : w.Occurs) {m : ModuleRef} {target : Module}
    (found : w.modules.get? m = some target) (running : target.phase = .running) :
    target.inbox.state = .receiving := by
  rw [occurs.inboxState found, running]
  rfl

theorem World.Occurs.kept {w : World} (occurs : w.Occurs) {m : ModuleRef} {target : Module}
    (found : w.modules.get? m = some target) (running : target.phase = .running) :
    target.inbox.state ≠ .discarded := by
  rw [occurs.receiving found running]
  exact fun same => InboxState.noConfusion same

/-- Nothing waits in an inbox that has been discarded. -/
theorem World.Occurs.emptied {w : World} (occurs : w.Occurs) {m : ModuleRef} {target : Module}
    (found : w.modules.get? m = some target) (discarded : target.inbox.state = .discarded) :
    target.inbox.queue = [] := by
  refine Changes.keep (P := fun w => ∀ target, w.modules.get? m = some target → target.inbox.state = .discarded →
    target.inbox.queue = []) ?_ occurs ?_ target found discarded
  · intro move w later change start after there
    obtain ⟨more, gone, becomes, -, -⟩ := change.affects m
    rw [there] at becomes
    exact becomes.emptied start
  · intro target missing
    cases missing

namespace World

def addressed? (w : World) (name : String) : Except Refusal Request → Option (ModuleRef × Envelope)
  | .error _ => none
  | .ok request => (w.modules.latest? name).map (·, .request request)

theorem addressed?_congr {w later : World} (same : later.modules = w.modules) {name : String}
    {request : Except Refusal Request} : later.addressed? name request = w.addressed? name request := by
  cases request with
  | error refusal => rfl
  | ok request => rw [addressed?, addressed?, same]

theorem addressed?_eq_some {w : World} {name : String} {request : Except Refusal Request} {receiver : ModuleRef}
    {envelope : Envelope} : w.addressed? name request = some (receiver, envelope) ↔
      w.modules.latest? name = some receiver ∧ ∃ posted, request = .ok posted ∧ envelope = .request posted := by
  cases request with
  | error refusal => simp [addressed?]
  | ok posted =>
    constructor
    · intro there
      obtain ⟨latest, found, same⟩ := Option.map_eq_some_iff.1 there
      cases same
      exact ⟨found, posted, rfl, rfl⟩
    · rintro ⟨latest, made, same, rfl⟩
      cases same
      rw [addressed?, latest]
      rfl

/-- What an action hands in, and to which module, where its arguments are in order. -/
def submission? (w : World) : Action → Option (ModuleRef × Envelope)
  | .enable _ none => none
  | .enable name (some subscriber) =>
    w.addressed? name (Request.ofEnable (some (w.ensureSubscriber subscriber).2))
  | .start name mode => w.addressed? name (Request.ofStart mode)
  | .transfer name power duration => w.addressed? name (Request.ofTransfer power duration)
  | .notify name notification => (w.modules.latest? name).map (·, .notification notification)
  | .reply transfer notification =>
    (w.transfers[transfer]?).map fun transfer => (transfer.issuer, .notification notification)
  | .setDevice _ _ _ => none
  | .subscribe _ _ _ => none
  | .release _ => none
  | .query _ _ _ => none

theorem submit_cases (w : World) (m : ModuleRef) (envelope : Envelope) :
    ((w.submit m envelope).2 = .ok ∧ ∀ other, (w.submit m envelope).1.accepted other =
        w.accepted other ++ if other = m then [envelope] else []) ∨
      ((w.submit m envelope).2 ≠ .ok ∧ (w.submit m envelope).1 = w) := by
  unfold submit
  split
  · exact Or.inr ⟨fun same => Answer.noConfusion same, rfl⟩
  · split
    · exact Or.inr ⟨fun same => Answer.noConfusion same, rfl⟩
    · exact Or.inl ⟨rfl, w.accepted_of_accept m envelope _⟩

def receivedBy (m : ModuleRef) : Option (ModuleRef × Envelope) → List Envelope
  | none => []
  | some (receiver, envelope) => if receiver = m then [envelope] else []

theorem submit_accepted (w : World) (receiver m : ModuleRef) (envelope : Envelope) :
    (w.submit receiver envelope).1.accepted m = w.accepted m ++
      if (w.submit receiver envelope).2 = .ok then receivedBy m (some (receiver, envelope)) else [] := by
  rcases w.submit_cases receiver envelope with ⟨ok, accepted⟩ | ⟨refused, same⟩
  · rw [accepted m, if_pos ok, receivedBy]
    simp only [eq_comm]
  · rw [same, if_neg refused, List.append_nil]

theorem submitTo_accepted (w : World) (name : String) (m : ModuleRef) (envelope : Envelope) :
    (w.submitTo name envelope).1.accepted m = w.accepted m ++
      if (w.submitTo name envelope).2 = .ok then
        receivedBy m ((w.modules.latest? name).map (·, envelope)) else [] := by
  unfold submitTo
  split
  · exact (List.append_nil _).symm
  · rename_i receiver latest
    rw [latest]
    exact w.submit_accepted receiver m envelope

theorem request_accepted (w : World) (name : String) (m : ModuleRef) (request : Except Refusal Request) :
    (w.request name request).1.accepted m = w.accepted m ++
      if (w.request name request).2 = .ok then receivedBy m (w.addressed? name request) else [] := by
  cases request with
  | error refusal => exact (List.append_nil _).symm
  | ok request => exact w.submitTo_accepted name m (.request request)

/-- The envelopes accepted are those whose submission is answered with ok. -/
theorem perform_accepted (w : World) (action : Action) (m : ModuleRef) :
    (w.perform action).1.accepted m = w.accepted m ++
      if (w.perform action).2 = .ok then receivedBy m (w.submission? action) else [] := by
  have quiet : ∀ {later : World} {answer : Answer}, later.journal = w.journal →
      later.accepted m = w.accepted m ++ if answer = .ok then receivedBy m none else [] := by
    intro later answer same
    rw [accepted, noted_congr _ same, receivedBy, ite_self, List.append_nil]
    rfl
  cases action with
  | enable name subscriber =>
    cases subscriber with
    | none => exact quiet rfl
    | some subscriber =>
      have ensured : (w.ensureSubscriber subscriber).1.accepted m = w.accepted m ∧
          (w.ensureSubscriber subscriber).1.modules = w.modules := by
        unfold ensureSubscriber
        split <;> exact ⟨rfl, rfl⟩
      have requested := request_accepted (w.ensureSubscriber subscriber).1 name m
        (Request.ofEnable (some (w.ensureSubscriber subscriber).2))
      rw [ensured.1, addressed?_congr ensured.2] at requested
      exact requested
  | start name mode => exact w.request_accepted name m _
  | transfer name power duration => exact w.request_accepted name m _
  | notify name notification => exact w.submitTo_accepted name m _
  | reply transfer notification =>
    cases there : w.transfers[transfer]? with
    | none =>
      have unanswered : w.perform (.reply transfer notification) = (w, .noSuchTransfer) := by
        simp only [perform, reply, there]
      rw [unanswered]
      exact (List.append_nil _).symm
    | some issued =>
      have posted : w.perform (.reply transfer notification) =
          w.submit issued.issuer (.notification notification) := by
        simp only [perform, reply, there]
      rw [posted, submission?, there]
      exact w.submit_accepted issued.issuer m _
  | setDevice name change onTransfer =>
    refine quiet ?_
    simp only [perform, ensureDevice, adjustDevice]
    split <;> rfl
  | subscribe name kind reactions =>
    refine quiet ?_
    simp only [perform, letGo, addSubscriber]
    split <;> rfl
  | release name =>
    refine quiet ?_
    simp only [perform, letGo]
    split <;> rfl
  | query name runtime id => exact quiet rfl

/-- One envelope is taken at a time, and what is posted while it is dealt with waits behind all the others. -/
theorem attend?_taken {w after : World} {m : ModuleRef} (h : w.attend? m = some after) {target : Module}
    (found : w.modules.get? m = some target) :
    (target.cancelled = true ∧ ∀ other, after.taken other = w.taken other) ∨
      (target.cancelled = false ∧ ∃ envelope rest more last,
        target.inbox.queue = envelope :: rest ∧ after.modules.get? m = some last ∧
        last.inbox.queue = rest ++ more ∧ after.accepted m = w.accepted m ++ more ∧
        ∀ other, after.taken other = w.taken other ++ if other = m then [envelope] else []) := by
  obtain ⟨there, same, running, past | ⟨kept, envelope, inbox, took, deeds⟩⟩ := attend?_cases h
  · obtain rfl := Option.some.inj (same.symm.trans found)
    have closes : ChangesIn .rejoin w after := past.2 ▸ w.closeDown_changes m found running past.1
    exact Or.inl ⟨past.1, fun other => closes.taken fun same => Move.noConfusion same⟩
  · obtain rfl := Option.some.inj (same.symm.trans found)
    obtain ⟨more, last, grown⟩ := deeds.posted (told_found _ envelope (w.took_found envelope inbox found))
    refine Or.inr ⟨kept, envelope, inbox.queue, more, _, ?_, last, rfl, ?_, ?_⟩
    · rw [Inbox.take?_eq_some.1 took]
    · rw [grown, told_accepted]
      rfl
    · intro other
      rw [deeds.taken, told_taken, took_taken]

/-- Whatever callers, callbacks, hooks and dispatchers do, and however they take turns, a module accepts and takes
the same envelopes in the same order, each of them once. Refused submissions are not among them, envelopes
posted meanwhile come after all that were there, and only a stop or a drop keeps any from being taken. -/
theorem inbox_is_first_in_first_out {w : World} (occurs : w.Occurs) (m : ModuleRef) :
    w.taken m <+: w.accepted m ∧
      (∀ target, w.modules.get? m = some target →
        (target.inbox.state ≠ .discarded → w.accepted m = w.taken m ++ target.inbox.queue) ∧
        (target.inbox.isReceiving = false → (target.cancelled = true ∨ target.phase = .dropped) ∧
          ∀ later, Changes w later → later.accepted m = w.accepted m ∧ later.taken m = w.taken m)) ∧
      (∀ action, (w.perform action).1.accepted m = w.accepted m ++
        if (w.perform action).2 = .ok then receivedBy m (w.submission? action) else []) ∧
      ∀ target after, w.modules.get? m = some target → w.attend? m = some after →
        (target.cancelled = true ∧ ∀ other, after.taken other = w.taken other) ∨
          (target.cancelled = false ∧ ∃ envelope rest more last,
            target.inbox.queue = envelope :: rest ∧ after.modules.get? m = some last ∧
            last.inbox.queue = rest ++ more ∧ after.accepted m = w.accepted m ++ more ∧
            ∀ other, after.taken other = w.taken other ++ if other = m then [envelope] else []) := by
  have conserved := occurs.conserved m
  refine ⟨?_, ?_, ?_, ?_⟩
  · cases there : w.modules.get? m with
    | none =>
      rw [there] at conserved
      rw [conserved.2]
      exact List.nil_prefix
    | some target =>
      rw [there] at conserved
      exact conserved.first
  · intro target found
    rw [found] at conserved
    constructor
    · exact conserved.waiting
    · intro shut
      refine ⟨conserved.shut shut, ?_⟩
      intro later changes
      exact Changes.still changes occurs found shut
  · intro action
    exact w.perform_accepted action m
  · intro target after found attended
    exact attend?_taken attended found

def twoRequests : List Move :=
  [.build ⟨"a", "r", "d", some {}, []⟩, .enrol "a", .spawn ⟨"a", 0⟩, .act (.enable "a" (some "s")),
    .act (.start "a" 0), .attend ⟨"a", 0⟩]

theorem inbox_after_two_requests : ∃ w : World, w.Occurs ∧
    w.accepted ⟨"a", 0⟩ = [.request (.enable ⟨"s", 0⟩), .request (.start .nonAutonomous)] ∧
    w.taken ⟨"a", 0⟩ = [.request (.enable ⟨"s", 0⟩)] ∧ w.taken ⟨"a", 0⟩ <+: w.accepted ⟨"a", 0⟩ := by
  obtain ⟨w, played⟩ := Option.isSome_iff_exists.1 (by decide : (({} : World).play? twoRequests).isSome = true)
  have occurs : w.Occurs := Reachable.changes ⟨twoRequests, played⟩
  have accepted : (({} : World).play? twoRequests).map (·.accepted ⟨"a", 0⟩) =
    some [.request (.enable ⟨"s", 0⟩), .request (.start .nonAutonomous)] := by decide
  have taken : (({} : World).play? twoRequests).map (·.taken ⟨"a", 0⟩) =
    some [.request (.enable ⟨"s", 0⟩)] := by decide
  rw [played] at accepted taken
  exact ⟨w, occurs, Option.some.inj accepted, Option.some.inj taken,
    (inbox_is_first_in_first_out occurs ⟨"a", 0⟩).1⟩

end World

end WirelessCharging
