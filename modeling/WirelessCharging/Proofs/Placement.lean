import WirelessCharging.Proofs.Capacity
import WirelessCharging.Proofs.Progress
import WirelessCharging.Proofs.Transfer
/-!
When dispatchers get on with their work makes no difference. Where the device stays as it is, the subscribers named
stay alive and callbacks hand in nothing, what becomes of the submissions to one module can be told from the
submissions alone: it is what comes of dealing with their envelopes one after the other, however the work of the
dispatcher is placed between them.
-/
namespace WirelessCharging

def Move.action? : Move → Option Action
  | .act action => some action
  | _ => none

theorem Move.eq_act_of_action? {move : Move} {action : Action} (called : move.action? = some action) :
    move = .act action := by
  cases move with
  | act other =>
    cases called
    rfl
  | _ => cases called

/-- The subscriber that an action wants a module to be enabled for. -/
def Action.subscriber? : Action → Option String
  | .enable _ subscriber => subscriber
  | _ => none

def envelopeOf? : Except Refusal Request → Option Envelope
  | .error _ => none
  | .ok request => some (.request request)

theorem envelopeOf?_eq_some {request : Except Refusal Request} {envelope : Envelope} :
    envelopeOf? request = some envelope ↔ ∃ posted, request = .ok posted ∧ envelope = .request posted := by
  cases request with
  | error refusal => simp [envelopeOf?]
  | ok posted => simp [envelopeOf?, eq_comm]

/-- The envelope that comes of an action, where callers hold these subscribers. -/
def Action.envelope? (held : String → Option SubscriberRef) : Action → Option Envelope
  | .enable _ subscriber => (subscriber.bind held).map fun s => .request (.enable s)
  | .start _ mode => envelopeOf? (Request.ofStart mode)
  | .transfer _ power duration => envelopeOf? (Request.ofTransfer power duration)
  | .notify _ notification => some (.notification notification)
  | .reply _ notification => some (.notification notification)
  | .setDevice _ _ _ => none
  | .subscribe _ _ _ => none
  | .release _ => none
  | .query _ _ _ => none

namespace Context

def tells (context : Context) (event : Event) : List (SubscriberRef × Event) :=
  context.registered.toList.map (·, event)

/-- What is remembered after an envelope and what is delivered, with nobody interfering. -/
def deal (readings : Readings) (context : Context) : Envelope → Context × List (SubscriberRef × Event)
  | .request (.enable s) =>
    if readings.acceptsEnable then (context.enabledFor s, [(s, .enableResult .ok)])
    else (context, [(s, .enableResult .failed)])
  | .request (.start mode) =>
    match startRejection? context readings mode with
    | some _ => (context, [])
    | none => (context.startedIn mode, context.tells (.startResult .ok))
  | .request (.transfer _ _) => (context, [])
  | .notification notification => (context, context.tells notification.event)

def dealAll (readings : Readings) (context : Context) : List Envelope → Context × List (SubscriberRef × Event)
  | [] => (context, [])
  | envelope :: rest =>
    ((dealAll readings (context.deal readings envelope).1 rest).1,
      (context.deal readings envelope).2 ++ (dealAll readings (context.deal readings envelope).1 rest).2)

theorem deal_registered (readings : Readings) (context : Context) (envelope : Envelope) {s : SubscriberRef}
    (latest : (context.deal readings envelope).1.registered = some s) :
    context.registered = some s ∨ envelope = .request (.enable s) := by
  unfold deal at latest
  split at latest
  · split at latest
    · cases latest
      exact Or.inr rfl
    · exact Or.inl latest
  · split at latest
    · exact Or.inl latest
    · exact Or.inl latest
  · exact Or.inl latest
  · exact Or.inl latest

end Context

namespace World

/-- Something holds of every world in which a move of a run is made. -/
def Throughout (P : World → Move → Prop) (w : World) : List Move → Prop
  | [] => True
  | move :: rest =>
    P w move ∧
      match w.move? move with
      | none => True
      | some after => after.Throughout P rest

/-- The answers to the calls of a run. -/
def answers (w : World) : List Move → List Answer
  | [] => []
  | move :: rest =>
    (move.action?.map fun action => (w.perform action).2).toList ++
      match w.move? move with
      | none => []
      | some after => after.answers rest

theorem throughout_cons {P : World → Move → Prop} {w after : World} {move : Move}
    (moved : w.move? move = some after) {rest : List Move} :
    w.Throughout P (move :: rest) ↔ P w move ∧ after.Throughout P rest := by
  rw [Throughout, moved]

instance decidableThroughout {P : World → Move → Prop} [∀ w move, Decidable (P w move)] :
    (w : World) → (moves : List Move) → Decidable (w.Throughout P moves)
  | _, [] => .isTrue trivial
  | w, move :: rest =>
    have _rest : Decidable (match w.move? move with
        | none => True
        | some after => after.Throughout P rest) :=
      match w.move? move with
      | none => .isTrue trivial
      | some after => decidableThroughout after rest
    inferInstanceAs (Decidable (P w move ∧ _))

theorem answers_cons {w after : World} {move : Move} (moved : w.move? move = some after) {rest : List Move} :
    w.answers (move :: rest) =
      (move.action?.map fun action => (w.perform action).2).toList ++ after.answers rest := by
  rw [answers, moved]

end World

/-- A move in a world where the device reads as it did before and the subscribers named are held as they were. A
call hands something in to the module, and the scripts that run in other moves hand in nothing. -/
structure World.Undisturbed (w : World) (m : ModuleRef) (device : String) (names : List String)
    (moment : World) (move : Move) : Prop where
  readings : moment.readings device = w.readings device
  kept : ∀ name ∈ names, (moment.heldSubscriber? name).isSome = true ∧
    moment.heldSubscriber? name = w.heldSubscriber? name
  submits : ∀ action ∈ move.action?, (moment.submission? action).map (·.1) = some m
  silent : move.action?.isNone = true →
    ∀ call ∈ moment.callsIn move, (call.1.submission? call.2).isNone = true

instance (w : World) (m : ModuleRef) (device : String) (names : List String) (moment : World) (move : Move) :
    Decidable (w.Undisturbed m device names moment move) :=
  decidable_of_iff
    (moment.readings device = w.readings device ∧
      (∀ name ∈ names, (moment.heldSubscriber? name).isSome = true ∧
        moment.heldSubscriber? name = w.heldSubscriber? name) ∧
      (∀ action ∈ move.action?, (moment.submission? action).map (·.1) = some m) ∧
      (move.action?.isNone = true → ∀ call ∈ moment.callsIn move, (call.1.submission? call.2).isNone = true))
    ⟨fun h => ⟨h.1, h.2.1, h.2.2.1, h.2.2.2⟩, fun h => ⟨h.readings, h.kept, h.submits, h.silent⟩⟩

/-- A run in which a module is handed some submissions, is launched, and has nothing left to do in the end. -/
structure World.Placement (w : World) (m : ModuleRef) (device : String) (submissions : List Action)
    (moves : List Move) (last : World) : Prop where
  played : w.play? moves = some last
  submits : moves.filterMap Move.action? = submissions
  undisturbed : w.Throughout (w.Undisturbed m device (submissions.filterMap Action.subscriber?)) moves
  running : (last.modules.get? m).map (·.phase) = some .running
  drained : ¬ last.InLine m

namespace World

theorem heldSubscriber?_alive {w : World} {name : String} {s : SubscriberRef}
    (held : w.heldSubscriber? name = some s) : (w.subscribers.get? s).any (·.held) = true := by
  unfold heldSubscriber? at held
  exact (Option.filter_eq_some_iff.1 held).2

theorem envelope?_of_submission? {w moment : World} {action : Action} {m : ModuleRef} {envelope : Envelope}
    (handed : moment.submission? action = some (m, envelope))
    (kept : ∀ name ∈ action.subscriber?, (moment.heldSubscriber? name).isSome = true ∧
      moment.heldSubscriber? name = w.heldSubscriber? name) :
    action.envelope? w.heldSubscriber? = some envelope := by
  cases action with
  | enable name subscriber =>
    cases subscriber with
    | none => cases handed
    | some subscriber =>
      obtain ⟨there, same⟩ := kept subscriber rfl
      obtain ⟨s, held⟩ := Option.isSome_iff_exists.1 there
      simp only [submission?, addressed?_eq_some, ensureSubscriber, held] at handed
      obtain ⟨-, posted, made, rfl⟩ := handed
      cases made
      simp only [Action.envelope?, Option.bind_some, ← same, held, Option.map_some]
  | start name mode =>
    simp only [submission?, addressed?_eq_some] at handed
    obtain ⟨-, posted, made, rfl⟩ := handed
    rw [Action.envelope?, made]
    rfl
  | transfer name power duration =>
    simp only [submission?, addressed?_eq_some] at handed
    obtain ⟨-, posted, made, rfl⟩ := handed
    rw [Action.envelope?, made]
    rfl
  | notify name notification =>
    obtain ⟨receiver, -, same⟩ := Option.map_eq_some_iff.1 handed
    cases same
    rfl
  | reply transfer notification =>
    obtain ⟨issued, -, same⟩ := Option.map_eq_some_iff.1 handed
    cases same
    rfl
  | setDevice name change onTransfer => cases handed
  | subscribe name kind reactions => cases handed
  | release name => cases handed
  | query name runtime id => cases handed

theorem receiving_before {w later : World} (h : Changes w later) {m : ModuleRef} {before after : Module}
    (found : w.modules.get? m = some before) (there : later.modules.get? m = some after)
    (receiving : after.inbox.isReceiving = true) : before.inbox.isReceiving = true := by
  cases shut : before.inbox.isReceiving with
  | true => rfl
  | false =>
    obtain ⟨last, here, lasts⟩ := Changes.lasts h found
    obtain rfl := Option.some.inj (here.symm.trans there)
    rw [lasts.shut shut] at receiving
    cases receiving

theorem Undisturbed.not_accepting {w moment : World} {m : ModuleRef} {device : String} {names : List String}
    {move : Move} (h : w.Undisturbed m device names moment move) (nobody : move.action? = none) :
    (moment.callsIn move).filterMap (acceptance? m) = [] := by
  rw [List.filterMap_eq_nil_iff]
  intro call member
  have nothing := h.silent (by rw [nobody]; rfl) call member
  cases accepts : acceptance? m call with
  | none => rfl
  | some envelope =>
    rw [(acceptance?_eq_some.1 accepts).1] at nothing
    cases nothing

theorem submissions_accepted {w start last : World} {m : ModuleRef} {device : String} {names : List String}
    {moves : List Move} (occurs : start.Occurs) (numbered : start.modules.Numbered)
    (played : start.play? moves = some last) (undisturbed : start.Throughout (w.Undisturbed m device names) moves)
    (named : ∀ action ∈ moves.filterMap Move.action?, ∀ name ∈ action.subscriber?, name ∈ names)
    {target final : Module} (found : start.modules.get? m = some target) (there : last.modules.get? m = some final)
    (receiving : final.inbox.isReceiving = true)
    (room : (start.accepted m).length + (moves.filterMap Move.action?).length ≤
      (start.taken m).length + target.inbox.capacity) :
    start.answers moves = (moves.filterMap Move.action?).map (fun _ => .ok) ∧
      last.accepted m = start.accepted m ++
        (moves.filterMap Move.action?).filterMap (Action.envelope? w.heldSubscriber?) := by
  induction moves generalizing start target with
  | nil =>
    obtain rfl := Option.some.inj played
    exact ⟨rfl, (List.append_nil _).symm⟩
  | cons move rest ih =>
    obtain ⟨after, moved, through⟩ := play?_cons.1 played
    obtain ⟨now, later⟩ := (throughout_cons moved).1 undisturbed
    have changes := (move_changes numbered moved).changes
    obtain ⟨next, here, lasts⟩ := Changes.lasts changes found
    have capacity := Changes.capacity changes found here
    have accepted := (move_callsIn moved).accepted m
    have taken := move_taken numbered moved m
    rw [answers_cons moved]
    cases called : move.action? with
    | none =>
      rw [List.filterMap_cons_none called] at named room ⊢
      rw [now.not_accepting called, List.append_nil] at accepted
      have grown : (start.taken m).length ≤ (after.taken m).length := by
        rw [taken, List.length_append]
        omega
      rw [← accepted] at room ⊢
      exact ih (occurs.trans changes) (move_numbered numbered moved) through later named here (by omega)
    | some action =>
      obtain rfl := Move.eq_act_of_action? called
      rw [List.filterMap_cons_some called] at named room ⊢
      obtain ⟨⟨receiver, envelope⟩, handed, same⟩ := Option.map_eq_some_iff.1 (now.submits action rfl)
      obtain rfl : receiver = m := same
      have opened := receiving_before (play_changes numbered played) found there receiving
      have answer : (start.perform action).2 = .ok := by
        rw [(takesUpTo_capacity occurs found opened).calls action envelope handed, if_pos]
        rw [List.length_cons] at room
        omega
      have makes : action.envelope? w.heldSubscriber? = some envelope := by
        apply envelope?_of_submission? handed
        intro name wanted
        exact now.kept name (named action List.mem_cons_self name wanted)
      have grown : after.accepted receiver = start.accepted receiver ++ [envelope] := by
        have accepts : acceptance? receiver (start, action) = some envelope :=
          acceptance?_eq_some.2 ⟨handed, answer⟩
        rw [accepted]
        simp only [callsIn, calling, callsOf, List.filterMap_cons, accepts, List.filterMap_nil]
      have untouched : after.taken receiver = start.taken receiver := by
        rw [taken]
        exact List.append_nil _
      have others : ∀ other ∈ rest.filterMap Move.action?, ∀ name ∈ other.subscriber?, name ∈ names :=
        fun other member => named other (List.mem_cons_of_mem _ member)
      have left : (after.accepted receiver).length + (rest.filterMap Move.action?).length ≤
          (after.taken receiver).length + next.inbox.capacity := by
        rw [grown, untouched, capacity, List.length_append, List.length_singleton]
        rw [List.length_cons] at room
        omega
      obtain ⟨answers, all⟩ := ih (occurs.trans changes) (move_numbered numbered moved) through later others here left
      constructor
      · rw [answers, Option.map_some, answer]
        rfl
      · rw [all, grown, List.filterMap_cons_some makes, List.append_assoc]
        rfl

theorem meeting?_took {w moment : World} {m : ModuleRef} {move : Move} {envelope : Envelope}
    (meets : w.meeting? m move = some (moment, envelope)) : ∃ inbox, moment = w.took m envelope inbox := by
  cases move with
  | attend other =>
    simp only [meeting?, taking?] at meets
    split at meets
    · split at meets
      · cases meets
      · split at meets
        · obtain ⟨⟨taken, inbox⟩, -, same⟩ := Option.map_eq_some_iff.1 meets
          cases same
          exact ⟨inbox, rfl⟩
        · cases meets
    · cases meets
  | _ => cases meets

theorem outcome_deal {moment : World} {m : ModuleRef} {target : Module} {readings : Readings}
    (steady : moment.readings target.device = readings)
    (alive : ∀ s, target.context.registered = some s → moment.isAlive s = true) (envelope : Envelope) :
    (moment.outcome m target envelope).1 = (target.context.deal readings envelope).1 ∧
      (Entry.deliveredBy? m (moment.outcome m target envelope).2).toList =
        (target.context.deal readings envelope).2 := by
  have reported : ∀ event, (Entry.deliveredBy? m (moment.reportEntry m target.context event)).toList =
      target.context.tells event := by
    intro event
    rw [reportEntry, listener?, Context.tells]
    cases latest : target.context.registered with
    | none => rfl
    | some s => simp [Option.filter, alive s latest, Entry.deliveredBy?]
  cases envelope with
  | notification notification => exact ⟨rfl, reported _⟩
  | request request =>
    cases request with
    | enable s =>
      simp only [outcome, Context.deal, steady]
      split <;> simp [Entry.deliveredBy?]
    | start mode =>
      simp only [outcome, Context.deal, steady]
      cases startRejection? target.context readings mode with
      | some rejection => exact ⟨rfl, rfl⟩
      | none => exact ⟨rfl, reported _⟩
    | transfer power duration => exact ⟨rfl, rfl⟩

def Named (w : World) (names : List String) (s : SubscriberRef) : Prop :=
  ∃ name ∈ names, w.heldSubscriber? name = some s

theorem Undisturbed.alive {w moment : World} {m : ModuleRef} {device : String} {names : List String}
    {move : Move} (h : w.Undisturbed m device names moment move) {s : SubscriberRef} (named : w.Named names s) :
    (moment.subscribers.get? s).any (·.held) = true := by
  obtain ⟨name, member, held⟩ := named
  exact heldSubscriber?_alive ((h.kept name member).2.trans held)

/-- What comes of the envelopes that a module deals with in a run is what comes of dealing with them one after the
other with nobody interfering. -/
theorem meetings_dealt {w start last : World} {m : ModuleRef} {device : String} {names : List String}
    {moves : List Move} (numbered : start.modules.Numbered) (played : start.play? moves = some last)
    (undisturbed : start.Throughout (w.Undisturbed m device names) moves)
    {target : Module} (found : start.modules.get? m = some target) (own : target.device = device)
    (registered : ∀ s, (start.contextOf m).registered = some s → w.Named names s)
    (enabled : ∀ s, .request (.enable s) ∈ (start.meetings m moves).map (·.2) → w.Named names s) :
    last.contextOf m = ((start.contextOf m).dealAll (w.readings device) ((start.meetings m moves).map (·.2))).1 ∧
      last.deliveries m = start.deliveries m ++
        ((start.contextOf m).dealAll (w.readings device) ((start.meetings m moves).map (·.2))).2 := by
  induction moves generalizing start target with
  | nil =>
    obtain rfl := Option.some.inj played
    exact ⟨rfl, (List.append_nil _).symm⟩
  | cons move rest ih =>
    obtain ⟨after, moved, through⟩ := play?_cons.1 played
    obtain ⟨now, later⟩ := (throughout_cons moved).1 undisturbed
    obtain ⟨next, here, lasts⟩ := Changes.lasts (move_changes numbered moved).changes found
    have still : next.device = device := lasts.device.trans own
    have goes := ih (move_numbered numbered moved) through later here still
    rw [meetings_cons moved] at enabled ⊢
    rcases move_meets numbered moved m with
      ⟨nothing, spares⟩ | ⟨moment, envelope, met, meets, there, remembers, context, -, delivered⟩
    · rw [nothing, Option.toList_none, List.nil_append] at enabled ⊢
      rw [spares.context, spares.deliveries] at goes
      exact goes registered enabled
    · rw [meets, Option.toList_some, List.singleton_append, List.map_cons] at enabled ⊢
      obtain ⟨inbox, rfl⟩ := meeting?_took meets
      obtain rfl := Option.some.inj ((start.took_found envelope inbox found).symm.trans there)
      have steady : (start.took m envelope inbox).readings (target.withInbox inbox).device = w.readings device :=
        own ▸ now.readings
      have alive : ∀ s, (target.withInbox inbox).context.registered = some s →
          (start.took m envelope inbox).isAlive s = true := by
        intro s latest
        rw [remembers] at latest
        have held : ((start.took m envelope inbox).subscribers.get? s).any (·.held) = true :=
          now.alive (registered s latest)
        exact isAlive_of_held held
      obtain ⟨remembered, told⟩ := outcome_deal steady alive envelope
      rw [remembers] at remembered told
      -- whom the module reports to from here on is held as well, so the rest goes on in the same way
      have latest : ∀ s, (after.contextOf m).registered = some s → w.Named names s := by
        intro s newest
        rw [context, remembered] at newest
        rcases Context.deal_registered _ _ _ newest with before | enables
        · exact registered s before
        · exact enabled s (List.mem_cons.2 (Or.inl enables.symm))
      obtain ⟨final, heard⟩ := goes latest fun s member => enabled s (List.mem_cons_of_mem _ member)
      rw [context, remembered] at final heard
      rw [delivered, told] at heard
      constructor
      · exact final
      · rw [heard, List.append_assoc]
        rfl

theorem named_of_envelope? {w : World} {submissions : List Action} {s : SubscriberRef}
    (member : .request (.enable s) ∈ submissions.filterMap (Action.envelope? w.heldSubscriber?)) :
    w.Named (submissions.filterMap Action.subscriber?) s := by
  obtain ⟨action, submitted, makes⟩ := List.mem_filterMap.1 member
  cases action with
  | enable name subscriber =>
    obtain ⟨held, there, same⟩ := Option.map_eq_some_iff.1 makes
    cases same
    obtain ⟨subscriber, rfl, kept⟩ := Option.bind_eq_some_iff.1 there
    exact ⟨subscriber, List.mem_filterMap.2 ⟨_, submitted, rfl⟩, kept⟩
  | start name mode =>
    obtain ⟨posted, read, same⟩ := envelopeOf?_eq_some.1 makes
    cases same
    obtain ⟨chosen, other⟩ := Request.of_ofStart read
    cases other
  | transfer name power duration =>
    obtain ⟨posted, read, same⟩ := envelopeOf?_eq_some.1 makes
    cases same
    rcases Request.ofTransfer_cases power duration with
      ⟨-, adjustment, limit, -, -, other⟩ | ⟨-, refusal, -, other⟩
    · cases read.symm.trans other
    · cases read.symm.trans other
  | notify name notification => cases makes
  | reply transfer notification => cases makes
  | setDevice name change onTransfer => cases makes
  | subscribe name kind reactions => cases makes
  | release name => cases makes
  | query name runtime id => cases makes

theorem settle_drained (w : World) (m : ModuleRef) : w.LeadsTo w.settle ∧ ¬ w.settle.InLine m := by
  constructor
  · exact w.settle_goesOn.leadsTo
  · intro line
    rw [InLine, ready_settle, settle, setAside_runUntil] at line
    simp at line

theorem drained_taken {w : World} (reached : w.Reachable) {m : ModuleRef} {target : Module}
    (found : w.modules.get? m = some target) (running : target.phase = .running) (drained : ¬ w.InLine m) :
    target.inbox.isReceiving = true ∧ w.accepted m = w.taken m := by
  have conserved := World.Occurs.conserved reached.changes m
  rw [found] at conserved
  obtain ⟨receiving, waiting⟩ := conserved.receiving (by rw [running]; rfl)
  have empty : target.inbox.queue = [] := by
    by_contra left
    exact drained (reached.attentive m target found ⟨running, Or.inr left⟩)
  refine ⟨receiving, ?_⟩
  rw [waiting, empty, List.append_nil]

/-- However the work of the dispatcher is placed, all submissions are answered with ok, their envelopes are taken in
the order of the submissions, and what comes of them is what comes of dealing with them one after the other. -/
theorem Placement.dealt {w last : World} (reached : w.Reachable) {m : ModuleRef} {target : Module}
    (found : w.modules.get? m = some target) (fresh : target.IsFresh) {submissions : List Action}
    (room : submissions.length ≤ target.inbox.capacity) {moves : List Move}
    (placed : w.Placement m target.device submissions moves last) :
    w.answers moves = submissions.map (fun _ => .ok) ∧
      last.taken m = w.taken m ++ submissions.filterMap (Action.envelope? w.heldSubscriber?) ∧
      last.contextOf m = (Context.dealAll (w.readings target.device) {}
        (submissions.filterMap (Action.envelope? w.heldSubscriber?))).1 ∧
      last.deliveries m = w.deliveries m ++ (Context.dealAll (w.readings target.device) {}
        (submissions.filterMap (Action.envelope? w.heldSubscriber?))).2 := by
  obtain ⟨played, rfl, undisturbed, running, drained⟩ := placed
  obtain ⟨final, there, runs⟩ := Option.map_eq_some_iff.1 running
  obtain ⟨receiving, all⟩ := drained_taken (reached.leadsTo ⟨moves, played⟩) there runs drained
  have start : w.accepted m = w.taken m := by
    have conserved := World.Occurs.conserved reached.changes m
    rw [found] at conserved
    rw [(conserved.receiving (by rw [fresh.phase]; rfl)).2, fresh.queue, List.append_nil]
  have empty : w.contextOf m = {} := (contextOf_found found).trans fresh.context
  obtain ⟨answers, accepted⟩ := submissions_accepted reached.changes reached.numbered played undisturbed
    (fun action member name wanted => List.mem_filterMap.2 ⟨action, member, wanted⟩) found there receiving
    (by rw [start]; omega)
  obtain ⟨taken, -, -⟩ := play_routes reached.numbered played m
  -- everything accepted has been taken, so the envelopes dealt with are those of the submissions
  have met : (w.meetings m moves).map (·.2) =
      (moves.filterMap Move.action?).filterMap (Action.envelope? w.heldSubscriber?) := by
    refine List.append_cancel_left (?_ : w.taken m ++ _ = w.taken m ++ _)
    rw [← taken, ← all, accepted, start]
  have dealt := meetings_dealt reached.numbered played undisturbed found rfl
    (by rw [empty]; intro s latest; cases latest)
    (by rw [met]; intro s member; exact named_of_envelope? member)
  rw [met, empty] at dealt
  exact ⟨answers, met ▸ taken, dealt⟩

/-- Two runs with the same submissions to a module, placed as they like around its launch and around what its
dispatcher does, end with the same answers, the same deliveries, the same power transfers handed to the device and
the same memory, where the device stays as it is, the subscribers named are kept, callbacks and hooks hand in nothing
and the inbox has room for all submissions. -/
theorem placement_makes_no_difference {w : World} (reached : w.Reachable) {m : ModuleRef} {target : Module}
    (found : w.modules.get? m = some target) (fresh : target.IsFresh) {submissions : List Action}
    (room : submissions.length ≤ target.inbox.capacity) {moves others : List Move} {last final : World}
    (placed : w.Placement m target.device submissions moves last)
    (otherwise : w.Placement m target.device submissions others final) :
    (∀ answer ∈ w.answers moves, answer = .ok) ∧ w.answers moves = w.answers others ∧
      last.deliveries m = final.deliveries m ∧ last.handed m = final.handed m ∧
      last.contextOf m = final.contextOf m := by
  obtain ⟨answers, taken, context, deliveries⟩ := placed.dealt reached found fresh room
  obtain ⟨others', taken', context', deliveries'⟩ := otherwise.dealt reached found fresh room
  refine ⟨?_, answers.trans others'.symm, deliveries.trans deliveries'.symm, ?_, context.trans context'.symm⟩
  · intro answer member
    rw [answers] at member
    obtain ⟨submission, -, rfl⟩ := List.mem_map.1 member
    rfl
  · have handed : ∀ {moves : List Move} {last : World}, w.play? moves = some last →
        last.handed m = (last.taken m).filterMap (handing? m target) := by
      intro moves last played
      obtain ⟨earlier, before⟩ := reached
      have passes : last.PassesOn m :=
        play_passesOn numbered_empty ((play?_append earlier moves).2 ⟨w, before, played⟩) ⟨rfl, rfl⟩
      obtain ⟨there, here, lasts⟩ := Changes.lasts (play_changes (Reachable.numbered ⟨earlier, before⟩) played) found
      rw [(passesOn_found here).1 passes, handing?_congr m lasts.device]
    rw [handed placed.played, handed otherwise.played, taken, taken']

def beforeSubmissions : List Move := [.build ⟨"a", "r", "d", some {}, []⟩, .act (.subscribe "s" .recorder [])]

def fourSubmissions : List Action :=
  [.enable "a" (some "s"), .start "a" 0, .transfer "a" 5 10, .notify "a" (.ended 3)]

def allBeforeLaunch : List Move :=
  fourSubmissions.map .act ++ [.enrol "a", .spawn ⟨"a", 0⟩] ++ List.replicate 4 (.attend ⟨"a", 0⟩) ++ [.yield]

def oneAfterAnother : List Move :=
  [.enrol "a", .spawn ⟨"a", 0⟩] ++ fourSubmissions.flatMap fun action => [.act action, .attend ⟨"a", 0⟩, .yield]

theorem same_end_of_two_placements : ∃ w last final : World, w.Reachable ∧
    w.Placement ⟨"a", 0⟩ "d" fourSubmissions allBeforeLaunch last ∧
    w.Placement ⟨"a", 0⟩ "d" fourSubmissions oneAfterAnother final ∧
    last.deliveries ⟨"a", 0⟩ = [(⟨"s", 0⟩, .enableResult .ok), (⟨"s", 0⟩, .startResult .ok),
      (⟨"s", 0⟩, .chargingResult 3)] ∧
    w.answers allBeforeLaunch = w.answers oneAfterAnother ∧
    last.deliveries ⟨"a", 0⟩ = final.deliveries ⟨"a", 0⟩ ∧ last.handed ⟨"a", 0⟩ = final.handed ⟨"a", 0⟩ ∧
    last.contextOf ⟨"a", 0⟩ = final.contextOf ⟨"a", 0⟩ := by
  have begins : (({} : World).play? beforeSubmissions).isSome = true := by decide
  have built : ∀ w ∈ ({} : World).play? beforeSubmissions, (w.modules.get? ⟨"a", 0⟩).isSome = true ∧
      ∀ target ∈ w.modules.get? ⟨"a", 0⟩, target.device = "d" ∧ target.context = {} ∧ target.phase = .idle ∧
        target.cancelled = false ∧ target.inbox = { capacity := 255 } := by decide
  have undisturbed : ∀ w ∈ ({} : World).play? beforeSubmissions,
      w.Throughout (w.Undisturbed ⟨"a", 0⟩ "d" (fourSubmissions.filterMap Action.subscriber?)) allBeforeLaunch ∧
      w.Throughout (w.Undisturbed ⟨"a", 0⟩ "d" (fourSubmissions.filterMap Action.subscriber?)) oneAfterAnother := by
    decide
  have through : ∀ w ∈ ({} : World).play? beforeSubmissions,
      (w.play? allBeforeLaunch).isSome = true ∧ (w.play? oneAfterAnother).isSome = true := by decide
  have ends : ∀ w ∈ ({} : World).play? beforeSubmissions, ∀ last ∈ w.play? allBeforeLaunch,
      (last.modules.get? ⟨"a", 0⟩).map (·.phase) = some .running ∧
        (⟨"a", 0⟩ ∉ last.ready ∧ ⟨"a", 0⟩ ∉ last.setAside) ∧
        last.deliveries ⟨"a", 0⟩ = [(⟨"s", 0⟩, .enableResult .ok), (⟨"s", 0⟩, .startResult .ok),
          (⟨"s", 0⟩, .chargingResult 3)] := by decide
  have endsToo : ∀ w ∈ ({} : World).play? beforeSubmissions, ∀ final ∈ w.play? oneAfterAnother,
      (final.modules.get? ⟨"a", 0⟩).map (·.phase) = some .running ∧
        ⟨"a", 0⟩ ∉ final.ready ∧ ⟨"a", 0⟩ ∉ final.setAside := by decide
  obtain ⟨w, played⟩ := Option.isSome_iff_exists.1 begins
  obtain ⟨there, asBuilt⟩ := built w played
  obtain ⟨target, found⟩ := Option.isSome_iff_exists.1 there
  obtain ⟨device, context, phase, cancelled, inbox⟩ := asBuilt target found
  obtain ⟨last, toLast⟩ := Option.isSome_iff_exists.1 (through w played).1
  obtain ⟨final, toFinal⟩ := Option.isSome_iff_exists.1 (through w played).2
  obtain ⟨running, waiting, heard⟩ := ends w played last toLast
  obtain ⟨runningToo, waitingToo⟩ := endsToo w played final toFinal
  have reached : w.Reachable := ⟨beforeSubmissions, played⟩
  have fresh : target.IsFresh := ⟨context, phase, cancelled, by rw [inbox]; rfl, by rw [inbox]⟩
  have room : fourSubmissions.length ≤ target.inbox.capacity := by rw [inbox]; decide
  have placed : w.Placement ⟨"a", 0⟩ target.device fourSubmissions allBeforeLaunch last :=
    ⟨toLast, rfl, device ▸ (undisturbed w played).1, running, fun line => line.elim waiting.1 waiting.2⟩
  have otherwise : w.Placement ⟨"a", 0⟩ target.device fourSubmissions oneAfterAnother final :=
    ⟨toFinal, rfl, device ▸ (undisturbed w played).2, runningToo, fun line => line.elim waitingToo.1 waitingToo.2⟩
  exact ⟨w, last, final, reached, device ▸ placed, device ▸ otherwise, heard,
    (placement_makes_no_difference reached found fresh room placed otherwise).2⟩

end World

end WirelessCharging
