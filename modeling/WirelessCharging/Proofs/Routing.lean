import WirelessCharging.Proofs.Lifetime
/-!
Who hears of what. The deliveries that a module makes over a run follow from the envelopes that its dispatcher
takes, one after the other: an enable is answered to its own subscriber, and everything else is reported to the
subscriber of the latest enable that succeeded, as long as that one is alive, or else to nobody.
-/
namespace WirelessCharging

variable {move : Move}

namespace World

/-- The envelope that a dispatcher is about to deal with, and the world in which it has just been taken. -/
def taking? (w : World) (m : ModuleRef) : Option (World × Envelope) :=
  match w.modules.get? m with
  | none => none
  | some target =>
    if target.phase = .running ∧ target.cancelled = false then
      target.inbox.take?.map fun (envelope, inbox) =>
        ((w.setInbox m inbox).record (.taken m envelope), envelope)
    else none

def meeting? (w : World) (m : ModuleRef) (move : Move) : Option (World × Envelope) :=
  match move with
  | .attend other => if other = m then w.taking? m else none
  | _ => none

def meetings (w : World) (m : ModuleRef) : List Move → List (World × Envelope)
  | [] => []
  | move :: rest =>
    (w.meeting? m move).toList ++
      match w.move? move with
      | none => []
      | some after => after.meetings m rest

def enables (moment : World) (m : ModuleRef) : Bool :=
  (moment.modules.get? m).any fun target => (moment.readings target.device).acceptsEnable

def starts (moment : World) (m : ModuleRef) (mode : ChargingMode) : Bool :=
  (moment.modules.get? m).any fun target =>
    (startRejection? target.context (moment.readings target.device) mode).isNone

/-- An event goes to the subscriber of the latest enable if that one is alive, and otherwise to nobody. -/
def tells (moment : World) (latest : Option SubscriberRef) (event : Event) :
    List (SubscriberRef × Event) :=
  match latest.filter moment.isAlive with
  | some s => [(s, event)]
  | none => []

def deliversOn (moment : World) (m : ModuleRef) (latest : Option SubscriberRef) :
    Envelope → List (SubscriberRef × Event)
  | .request (.enable s) => [(s, .enableResult (if moment.enables m then .ok else .failed))]
  | .request (.start mode) => if moment.starts m mode then moment.tells latest (.startResult .ok) else []
  | .request (.transfer _ _) => []
  | .notification notification => moment.tells latest notification.event

/-- The subscriber of the latest enable that succeeded, this envelope included. -/
def latestAfter (moment : World) (m : ModuleRef) (latest : Option SubscriberRef) :
    Envelope → Option SubscriberRef
  | .request (.enable s) => if moment.enables m then some s else latest
  | _ => latest

end World

def routed (m : ModuleRef) (latest : Option SubscriberRef) :
    List (World × Envelope) → List (SubscriberRef × Event)
  | [] => []
  | (moment, envelope) :: rest =>
    moment.deliversOn m latest envelope ++ routed m (moment.latestAfter m latest envelope) rest

def latestOf (m : ModuleRef) (latest : Option SubscriberRef) : List (World × Envelope) → Option SubscriberRef
  | [] => latest
  | (moment, envelope) :: rest => latestOf m (moment.latestAfter m latest envelope) rest

namespace World

/-- What a module remembers; one that is not built remembers nothing. -/
def contextOf (w : World) (m : ModuleRef) : Context :=
  match w.modules.get? m with
  | none => {}
  | some target => target.context

theorem contextOf_found {w : World} {m : ModuleRef} {target : Module} (found : w.modules.get? m = some target) :
    w.contextOf m = target.context := by
  rw [contextOf, found]

theorem contextOf_congr {w later : World} {m : ModuleRef} (same : later.modules.get? m = w.modules.get? m) :
    later.contextOf m = w.contextOf m := by
  rw [contextOf, contextOf, same]

theorem outcome_deliveredBy?_other (w : World) {m other : ModuleRef} (different : m ≠ other) (target : Module)
    (envelope : Envelope) : Entry.deliveredBy? other (w.outcome m target envelope).2 = none := by
  apply outcome_unread
  · exact fun _ _ => if_neg different
  all_goals intros; rfl

theorem outcome_delivers (w : World) {m : ModuleRef} {target : Module}
    (found : w.modules.get? m = some target) (envelope : Envelope) :
    (Entry.deliveredBy? m (w.outcome m target envelope).2).toList =
      w.deliversOn m target.context.registered envelope := by
  have reported : ∀ event, (Entry.deliveredBy? m (w.reportEntry m target.context event)).toList =
      w.tells target.context.registered event := by
    intro event
    simp only [reportEntry, tells, listener?]
    cases target.context.registered.filter w.isAlive with
    | some s => simp [Entry.deliveredBy?]
    | none => rfl
  cases envelope with
  | notification notification => exact reported _
  | request request =>
    cases request with
    | enable s =>
      simp only [outcome, deliversOn, enables, found, Option.any_some]
      split <;> simp [Entry.deliveredBy?]
    | start mode =>
      simp only [outcome, deliversOn, starts, found, Option.any_some]
      cases startRejection? target.context (w.readings target.device) mode with
      | some rejection => rfl
      | none => exact reported _
    | transfer power duration => rfl

theorem outcome_registered (w : World) {m : ModuleRef} {target : Module}
    (found : w.modules.get? m = some target) (envelope : Envelope) :
    (w.outcome m target envelope).1.registered = w.latestAfter m target.context.registered envelope := by
  cases envelope with
  | notification notification => rfl
  | request request =>
    cases request with
    | enable s =>
      simp only [outcome, latestAfter, enables, found, Option.any_some]
      split <;> rfl
    | start mode =>
      simp only [outcome, latestAfter]
      split <;> rfl
    | transfer power duration => rfl

end World

/-- Only its own dispatcher works on what a module remembers, takes its envelopes and delivers its events. -/
structure World.Spares (w later : World) (m : ModuleRef) : Prop where
  context : later.contextOf m = w.contextOf m
  taken : later.taken m = w.taken m
  deliveries : later.deliveries m = w.deliveries m

theorem Change.deliveries {w later : World} (h : Change move w later) {m : ModuleRef}
    (elsewhere : move ≠ .attend m) : later.deliveries m = w.deliveries m := by
  cases h with
  | deed h => exact Deeds.deliveries (.single h) m
  | hook => exact World.noted_of_none rfl rfl
  | hookOver => exact World.noted_of_none rfl rfl
  | take => exact World.noted_of_none rfl rfl
  | @handle other target envelope found named =>
    have different : other ≠ m := by
      rintro rfl
      exact elsewhere named
    exact World.noted_of_none rfl (w.outcome_deliveredBy?_other different target envelope)
  | close => exact World.noted_of_none rfl rfl
  | spawn => exact World.noted_congr _ (World.wake_journal _ _)
  | cancel => exact World.noted_congr _ (World.wake_journal _ _)
  | setFirstAside =>
    obtain ⟨ready, aside, same⟩ := w.setFirstAside_eq
    rw [same]
    rfl
  | _ => exact World.noted_congr _ rfl

/-- What a module remembers changes with the outcome of an envelope, and with nothing else. -/
theorem Change.contextOf {w later : World} (h : Change move w later) (m : ModuleRef) :
    later.contextOf m = w.contextOf m ∨ move = .attend m ∧ ∃ target envelope,
      target.context = w.contextOf m ∧ later.contextOf m = (w.outcome m target envelope).1 := by
  obtain ⟨more, gone, becomes, -⟩ := h.affects m
  unfold World.contextOf
  generalize w.modules.get? m = before at becomes ⊢
  generalize later.modules.get? m = after at becomes ⊢
  cases becomes with
  | built fresh => exact Or.inl fresh.context
  | handled target envelope named => exact Or.inr ⟨named, target, envelope, rfl, rfl⟩
  | _ => exact Or.inl rfl

theorem Change.spares {w later : World} (h : Change move w later) {m : ModuleRef}
    (elsewhere : move ≠ .attend m) : w.Spares later m := by
  constructor
  case context =>
    rcases h.contextOf m with same | ⟨named, -⟩
    · exact same
    · exact absurd named elsewhere
  case taken => exact h.taken elsewhere
  case deliveries => exact h.deliveries elsewhere

theorem ChangesIn.spares {w later : World} (h : ChangesIn move w later) {m : ModuleRef}
    (elsewhere : move ≠ .attend m) : w.Spares later m := by
  induction h with
  | refl => exact ⟨rfl, rfl, rfl⟩
  | tail _ change ih =>
    have last := change.spares elsewhere
    exact ⟨last.context.trans ih.context, last.taken.trans ih.taken, last.deliveries.trans ih.deliveries⟩

theorem Deeds.spares {w later : World} (h : Deeds w later) (m : ModuleRef) : w.Spares later m := by
  have changes : ChangesIn .rejoin w later := h.changes
  exact changes.spares fun same => Move.noConfusion same

namespace World

theorem taking?_eq {w : World} {m : ModuleRef} {target : Module} {envelope : Envelope} {inbox : Inbox}
    (found : w.modules.get? m = some target) (running : target.phase = .running)
    (kept : target.cancelled = false) (took : target.inbox.take? = some (envelope, inbox)) :
    w.taking? m = some ((w.setInbox m inbox).record (.taken m envelope), envelope) := by
  simp only [taking?, found, running, kept, and_self, if_true, took, Option.map_some]

theorem taking?_none {w : World} {m : ModuleRef} {target : Module} (found : w.modules.get? m = some target)
    (cancelled : target.cancelled = true) : w.taking? m = none := by
  simp [taking?, found, cancelled]

theorem attend?_spares {w after : World} {m : ModuleRef} (h : w.attend? m = some after) :
    (w.taking? m = none ∧ w.Spares after m) ∨
      ∃ moment envelope target, w.taking? m = some (moment, envelope) ∧
        moment.modules.get? m = some target ∧ target.context = w.contextOf m ∧
        after.contextOf m = (moment.outcome m target envelope).1 ∧
        after.taken m = w.taken m ++ [envelope] ∧
        after.deliveries m =
          w.deliveries m ++ (Entry.deliveredBy? m (moment.outcome m target envelope).2).toList := by
  obtain ⟨target, found, running, ⟨cancelled, rfl⟩ | ⟨kept, envelope, inbox, took, deeds⟩⟩ := attend?_cases h
  · have changes : ChangesIn .rejoin w (w.closeDown m target) := w.closeDown_changes m found running cancelled
    exact Or.inl ⟨taking?_none found cancelled, changes.spares fun same => Move.noConfusion same⟩
  · obtain ⟨more, last, -⟩ := deeds.posted (told_found _ envelope (w.took_found envelope inbox found))
    refine Or.inr ⟨w.took m envelope inbox, envelope, target.withInbox inbox, ?_, ?_, ?_, ?_, ?_, ?_⟩
    · exact taking?_eq found running kept took
    · exact w.took_found envelope inbox found
    · rw [contextOf_found found]
      rfl
    · rw [contextOf_found last]
      rfl
    · rw [deeds.taken, told_taken, took_taken, if_pos rfl]
    · have before : (w.took m envelope inbox).deliveries m = w.deliveries m := noted_of_none rfl rfl
      rw [deeds.deliveries, ← before]
      exact noted_cons _ rfl

theorem move_meets {w after : World} (numbered : w.modules.Numbered) {move : Move}
    (h : w.move? move = some after) (m : ModuleRef) :
    (w.meeting? m move = none ∧ w.Spares after m) ∨
      ∃ moment envelope target, w.meeting? m move = some (moment, envelope) ∧
        moment.modules.get? m = some target ∧ target.context = w.contextOf m ∧
        after.contextOf m = (moment.outcome m target envelope).1 ∧
        after.taken m = w.taken m ++ [envelope] ∧
        after.deliveries m =
          w.deliveries m ++ (Entry.deliveredBy? m (moment.outcome m target envelope).2).toList := by
  by_cases own : move = .attend m
  · subst own
    rw [meeting?, if_pos rfl]
    exact attend?_spares h
  · left
    refine ⟨?_, (move_changes numbered h).spares own⟩
    cases move with
    | attend other =>
      have different : other ≠ m := fun same => own (congrArg Move.attend same)
      rw [meeting?, if_neg different]
    | _ => rfl

theorem meetings_cons {w after : World} {move : Move} (moved : w.move? move = some after) {m : ModuleRef}
    {rest : List Move} :
    w.meetings m (move :: rest) = (w.meeting? m move).toList ++ after.meetings m rest := by
  rw [meetings, moved]

theorem meetings_append {w middle : World} {m : ModuleRef} {moves : List Move} (played : w.play? moves = some middle)
    (more : List Move) : w.meetings m (moves ++ more) = w.meetings m moves ++ middle.meetings m more := by
  induction moves generalizing w with
  | nil =>
    obtain rfl := Option.some.inj played
    rfl
  | cons move rest ih =>
    obtain ⟨after, moved, through⟩ := play?_cons.1 played
    rw [List.cons_append, meetings_cons moved, ih through, meetings_cons moved, List.append_assoc]

/-- The envelopes dealt with in a run are those taken, and they determine the deliveries and the subscriber
remembered. -/
theorem play_routes {w last : World} (numbered : w.modules.Numbered) {moves : List Move}
    (played : w.play? moves = some last) (m : ModuleRef) :
    last.taken m = w.taken m ++ (w.meetings m moves).map (·.2) ∧
      last.deliveries m = w.deliveries m ++ routed m (w.contextOf m).registered (w.meetings m moves) ∧
      (last.contextOf m).registered = latestOf m (w.contextOf m).registered (w.meetings m moves) := by
  induction moves generalizing w with
  | nil =>
    obtain rfl := Option.some.inj played
    exact ⟨(List.append_nil _).symm, (List.append_nil _).symm, rfl⟩
  | cons move rest ih =>
    obtain ⟨after, moved, through⟩ := play?_cons.1 played
    obtain ⟨taken, deliveries, registered⟩ := ih (move_numbered numbered moved) through
    rw [meetings_cons moved]
    rcases move_meets numbered moved m with
      ⟨nothing, spares⟩ | ⟨moment, envelope, target, meets, found, remembers, context, took, delivered⟩
    · rw [nothing, Option.toList_none, List.nil_append, ← spares.context, ← spares.taken, ← spares.deliveries]
      exact ⟨taken, deliveries, registered⟩
    -- what the module remembers is the subscriber of the latest enable, so the rest goes on from there
    · have latest : (after.contextOf m).registered =
          moment.latestAfter m (w.contextOf m).registered envelope := by
        rw [context, moment.outcome_registered found, remembers]
      rw [meets, Option.toList_some, List.singleton_append]
      refine ⟨?_, ?_, ?_⟩
      · rw [taken, took, List.map_cons, List.append_assoc]
        rfl
      · rw [deliveries, delivered, moment.outcome_delivers found, remembers, latest, routed, List.append_assoc]
      · rw [registered, latest, latestOf]

/-- Over every run, what a module has delivered is what its envelopes call for, in the order in which they were
taken: to the subscriber of an enable its result, and to the subscriber of the latest enable that had succeeded
before, if it was alive at that moment, the result of each start that succeeded and each notification. Each
delivery is made in the move in which its envelope is dealt with. -/
theorem deliveries_follow_envelopes {moves : List Move} {w : World} (played : ({} : World).play? moves = some w)
    (m : ModuleRef) :
    w.taken m = (({} : World).meetings m moves).map (·.2) ∧
      w.deliveries m = routed m none (({} : World).meetings m moves) ∧
      (w.contextOf m).registered = latestOf m none (({} : World).meetings m moves) ∧
      ∀ move after, w.move? move = some after → after.deliveries m =
        w.deliveries m ++ routed m (latestOf m none (({} : World).meetings m moves)) (w.meeting? m move).toList := by
  obtain ⟨taken, deliveries, registered⟩ := play_routes numbered_empty played m
  refine ⟨taken, deliveries, registered, ?_⟩
  intro move after moved
  have reached : w.Reachable := ⟨moves, played⟩
  have single : w.play? [move] = some after := play?_cons.2 ⟨after, moved, rfl⟩
  obtain ⟨-, more, -⟩ := play_routes reached.numbered single m
  rw [registered, meetings_cons moved, meetings, List.append_nil] at more
  exact more

def twoSubscribers : List Move :=
  [.build ⟨"a", "r", "d", some {}, []⟩, .enrol "a", .spawn ⟨"a", 0⟩, .act (.enable "a" (some "s")),
    .act (.enable "a" (some "t")), .act (.notify "a" (.ended 3)), .attend ⟨"a", 0⟩, .attend ⟨"a", 0⟩,
    .attend ⟨"a", 0⟩]

theorem deliveries_after_replacement : ∃ w : World, ({} : World).play? twoSubscribers = some w ∧
    w.deliveries ⟨"a", 0⟩ = [(⟨"s", 0⟩, .enableResult .ok), (⟨"t", 0⟩, .enableResult .ok),
      (⟨"t", 0⟩, .chargingResult 3)] ∧
    w.deliveries ⟨"a", 0⟩ = routed ⟨"a", 0⟩ none (({} : World).meetings ⟨"a", 0⟩ twoSubscribers) := by
  obtain ⟨w, played⟩ :=
    Option.isSome_iff_exists.1 (by decide : (({} : World).play? twoSubscribers).isSome = true)
  have delivered : (({} : World).play? twoSubscribers).map (·.deliveries ⟨"a", 0⟩) =
    some [(⟨"s", 0⟩, .enableResult .ok), (⟨"t", 0⟩, .enableResult .ok), (⟨"t", 0⟩, .chargingResult 3)] := by
      decide
  rw [played] at delivered
  exact ⟨w, played, Option.some.inj delivered, (deliveries_follow_envelopes played ⟨"a", 0⟩).2.1⟩

end World

end WirelessCharging
