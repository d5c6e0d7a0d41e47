import WirelessCharging.Proofs.StartCheck
/-!
Enables. Three bits of the word that the device manager shows decide whether an enable succeeds. One that does puts
its subscriber into the slot before the subscriber is called, one that does not leaves the slot alone, and the
subscriber of the enable hears which of the two it was. Over a run the slot follows the last enable that succeeded.
-/
namespace WirelessCharging

/-- Bit 0 tells that the device is up, bit 4 that it is coming up and bit 7 that it is going down; whatever else is
raised does not matter. -/
def LetsEnable (word : BitVec 32) : Prop :=
  word.getLsbD 0 = true ∧ word.getLsbD 4 = false ∧ word.getLsbD 7 = false

instance (word : BitVec 32) : Decidable (LetsEnable word) :=
  inferInstanceAs (Decidable (word.getLsbD 0 = true ∧ word.getLsbD 4 = false ∧ word.getLsbD 7 = false))

def enableOutcome (word : BitVec 32) : Outcome := if LetsEnable word then .ok else .failed

namespace World

def word (w : World) (m : ModuleRef) : BitVec 32 :=
  match w.modules.get? m with
  | none => 0
  | some target => (w.readings target.device).flags.bits

/-- The subscriber of an enable that succeeds. -/
def enabled? (m : ModuleRef) : World × Envelope → Option SubscriberRef
  | (moment, .request (.enable s)) => if LetsEnable (moment.word m) then some s else none
  | _ => none

def enableResult? (m : ModuleRef) : World × Envelope → Option (SubscriberRef × Event)
  | (moment, .request (.enable s)) => some (s, .enableResult (enableOutcome (moment.word m)))
  | _ => none

def isEnableResult (delivery : SubscriberRef × Event) : Bool := delivery.2.kind == .enableResult

/-- The subscriber of the last enable that succeeded. -/
def lastEnabled (m : ModuleRef) (meetings : List (World × Envelope)) : Option SubscriberRef :=
  (meetings.filterMap (enabled? m)).getLast?

/-- What comes of an enable that a dispatcher deals with, when the subscriber is called and when it has returned. -/
structure EnableDealt (w : World) (m : ModuleRef) (s : SubscriberRef) (after : World) : Prop where
  slot : (w.attending m).1.contextOf m =
    if LetsEnable (w.word m) then { w.contextOf m with registered := some s } else w.contextOf m
  /-- Who would be reported to while the subscriber is called, where nobody is called when the enable is taken. -/
  listener : w.inHand = [] → (w.attending m).1.listener? ((w.attending m).1.contextOf m) =
    if LetsEnable (w.word m) then some s else w.listener? (w.contextOf m)
  told : (w.attending m).1.deliveries m = w.deliveries m ++ [(s, .enableResult (enableOutcome (w.word m)))]
  returns : after = { (w.attending m).1.runScript (w.attending m).2 with inHand := [] }
  context : after.contextOf m = (w.attending m).1.contextOf m
  deliveries : after.deliveries m = (w.attending m).1.deliveries m
  others : ∀ other, other ≠ m → after.contextOf other = w.contextOf other ∧ after.deliveries other = w.deliveries other

end World

theorem acceptsEnable_iff {readings : Readings} : readings.acceptsEnable = true ↔ LetsEnable readings.flags.bits := by
  have one : DeviceFlags.active = ⟨BitVec.twoPow 32 0⟩ := by decide
  have up : readings.flags.contains DeviceFlags.active = true ↔ readings.flags.bits.getLsbD 0 = true := by
    rw [one, Flags.contains_twoPow (by decide)]
    rfl
  have steady : readings.flags.intersects (DeviceFlags.enablePending ||| DeviceFlags.disabling) = false ↔
      ∀ bit ∈ [4, 7], readings.flags.bits.getLsbD bit = false :=
    Flags.intersects_listed (by decide) (by decide)
  rw [List.forall_mem_cons, List.forall_mem_singleton] at steady
  rw [Readings.acceptsEnable, Bool.and_eq_true, Bool.not_eq_true', up, steady, LetsEnable]

namespace World

variable {w after last : World} {m : ModuleRef} {target : Module}

theorem word_found (found : w.modules.get? m = some target) : w.word m = (w.readings target.device).flags.bits := by
  rw [word, found]

theorem enables_iff (moment : World) (m : ModuleRef) : moment.enables m = true ↔ LetsEnable (moment.word m) := by
  have down : ¬ LetsEnable 0 := by decide
  unfold enables word
  cases moment.modules.get? m with
  | none => exact ⟨fun up => absurd up Bool.false_ne_true, fun up => absurd up down⟩
  | some target => exact acceptsEnable_iff

theorem eq_of_enabled? {moment : World} {envelope : Envelope} {s : SubscriberRef}
    (enabled : enabled? m (moment, envelope) = some s) : envelope = .request (.enable s) := by
  unfold enabled? at enabled
  split at enabled
  · rename_i there t meeting
    split at enabled
    · obtain rfl := Option.some.inj enabled
      exact (Prod.mk.inj meeting).2
    · cases enabled
  · cases enabled

theorem latestAfter_eq (moment : World) (m : ModuleRef) (latest : Option SubscriberRef) (envelope : Envelope) :
    moment.latestAfter m latest envelope = (enabled? m (moment, envelope)).or latest := by
  cases envelope with
  | notification notification => rfl
  | request request =>
    cases request with
    | enable s =>
      simp only [latestAfter, enables_iff, enabled?]
      split <;> rfl
    | start mode => rfl
    | transfer power duration => rfl

theorem lastEnabled_append (m : ModuleRef) (meetings more : List (World × Envelope)) :
    lastEnabled m (meetings ++ more) = (lastEnabled m more).or (lastEnabled m meetings) := by
  rw [lastEnabled, List.filterMap_append, List.getLast?_append]
  rfl

/-- The latest subscriber is the one of the last enable that succeeded, or the initial one. -/
theorem latestOf_eq (m : ModuleRef) (latest : Option SubscriberRef) (meetings : List (World × Envelope)) :
    latestOf m latest meetings = (lastEnabled m meetings).or latest := by
  induction meetings generalizing latest with
  | nil => rfl
  | cons meeting rest ih =>
    have first : enabled? m meeting = lastEnabled m [meeting] := by
      rw [lastEnabled, List.filterMap_cons]
      cases enabled? m meeting <;> rfl
    rw [latestOf, ih, latestAfter_eq, first, ← Option.or_assoc, ← lastEnabled_append, List.singleton_append]

theorem tells_isEnableResult (moment : World) (latest : Option SubscriberRef) {event : Event}
    (other : event.kind ≠ .enableResult) : (moment.tells latest event).filter isEnableResult = [] := by
  refine List.filter_eq_nil_iff.2 ?_
  intro delivery member result
  rw [isEnableResult, (moment.tells_startResults latest event).2 delivery member] at result
  exact other (beq_iff_eq.1 result)

theorem deliversOn_enableResults (moment : World) (m : ModuleRef) (latest : Option SubscriberRef)
    (envelope : Envelope) : (moment.deliversOn m latest envelope).filter isEnableResult =
      (enableResult? m (moment, envelope)).toList := by
  cases envelope with
  | notification notification =>
    refine moment.tells_isEnableResult latest ?_
    cases notification <;> exact fun same => EventKind.noConfusion same
  | request request =>
    cases request with
    | enable s =>
      simp only [deliversOn, enables_iff, enableResult?, enableOutcome]
      rfl
    | start mode =>
      simp only [deliversOn, enableResult?]
      split
      · exact moment.tells_isEnableResult latest fun same => EventKind.noConfusion same
      · rfl
    | transfer power duration => rfl

theorem routed_enableResults (m : ModuleRef) (latest : Option SubscriberRef) (meetings : List (World × Envelope)) :
    (routed m latest meetings).filter isEnableResult = meetings.filterMap (enableResult? m) := by
  induction meetings generalizing latest with
  | nil => rfl
  | cons meeting rest ih =>
    rw [routed, List.filter_append, deliversOn_enableResults, ih, List.filterMap_cons]
    cases enableResult? m meeting <;> rfl

theorem isAlive_adjustSubscriber (w : World) (s : SubscriberRef) {f : Subscriber → Subscriber}
    (same : ∀ subscriber, (f subscriber).held = subscriber.held) (t : SubscriberRef) :
    (w.adjustSubscriber s f).isAlive t = w.isAlive t := by
  have held : ((w.subscribers.adjust s f).get? t).any (·.held) = (w.subscribers.get? t).any (·.held) := by
    rw [Roster.get?_adjust]
    cases w.subscribers.get? t with
    | none => rfl
    | some subscriber =>
      simp only [Option.map_some, Option.any_some]
      split
      · exact same subscriber
      · rfl
  simp only [isAlive, adjustSubscriber, held]

theorem isAlive_callback (w : World) (m : ModuleRef) (s : SubscriberRef) (event : Event) (t : SubscriberRef) :
    (w.callback m s event).1.isAlive t = w.isAlive t := by
  have told : (w.record (.delivered m s event)).isAlive t = w.isAlive t := rfl
  unfold callback
  dsimp only
  split
  · exact told
  · split
    · split
      · exact told
      · rename_i script others _
        refine Eq.trans ?_ told
        exact isAlive_adjustSubscriber (w.record (.delivered m s event)) s
          (f := fun subscriber => { subscriber with reactions := others }) (fun _ => rfl) t
    · exact told

theorem isAlive_takingEnable (free : w.inHand = []) (found : w.modules.get? m = some target) {s : SubscriberRef}
    {inbox : Inbox} (took : target.inbox.take? = some (.request (.enable s), inbox)) (t : SubscriberRef) :
    { w.took m (.request (.enable s)) inbox with inHand := [s] }.isAlive t = w.isAlive t := by
  have queue : target.inbox.queue = .request (.enable s) :: inbox.queue := by rw [Inbox.take?_eq_some.1 took]
  by_cases own : t = s
  · subst own
    have waits : .request (.enable t) ∈ target.inbox.queue := queue ▸ List.mem_cons_self
    rw [isAlive_of_waiting found waits]
    simp only [isAlive, List.contains_cons, beq_self_eq_true, Bool.true_or, Bool.or_true]
  · have others : (w.modules.adjust m (·.withInbox inbox)).any (·.2.inbox.holds t) =
        w.modules.any (·.2.inbox.holds t) := by
      refine w.modules.any_adjust_found (fun target : Module => target.inbox.holds t) found ?_
      rw [Inbox.holds, Inbox.holds, queue, List.contains_cons]
      have different : (Envelope.request (.enable t) == .request (.enable s)) = false := by
        rw [beq_eq_false_iff_ne]
        intro same
        exact own (Request.enable.inj (Envelope.request.inj same))
      rw [different, Bool.false_or]
      rfl
    simp only [isAlive, World.took, record, setInbox, adjustModule, others, free, List.contains_cons,
      List.contains_nil, Bool.or_false, beq_eq_false_iff_ne.2 own]

/-- While the subscriber of an enable is called, exactly those are alive that were before. -/
theorem isAlive_attendingEnable (free : w.inHand = []) (found : w.modules.get? m = some target)
    (running : target.phase = .running) (kept : target.cancelled = false) {s : SubscriberRef} {inbox : Inbox}
    (took : target.inbox.take? = some (.request (.enable s), inbox)) (t : SubscriberRef) :
    (w.attending m).1.isAlive t = w.isAlive t := by
  have taking := isAlive_takingEnable free found took t
  rw [attending_taking found running kept took]
  simp only [dispatching]
  split
  · rw [isAlive_callback, ← taking]
    exact isAlive_setContext { w.took m (.request (.enable s)) inbox with inHand := [s] } m _ t
  · rw [isAlive_callback, taking]

theorem outcome_enable (w : World) (m : ModuleRef) (target : Module) (s : SubscriberRef) :
    w.outcome m target (.request (.enable s)) =
      (if LetsEnable (w.readings target.device).flags.bits then target.context.enabledFor s else target.context,
        .delivered m s (.enableResult (enableOutcome (w.readings target.device).flags.bits))) := by
  simp only [outcome, acceptsEnable_iff, enableOutcome]
  split <;> rfl

section Taking

variable (found : w.modules.get? m = some target) (running : target.phase = .running)
  (kept : target.cancelled = false) {envelope : Envelope} {inbox : Inbox}
  (took : target.inbox.take? = some (envelope, inbox))
include found running kept took

theorem attending_contextOf (n : ModuleRef) : (w.attending m).1.contextOf n =
    if n = m then ((w.took m envelope inbox).outcome m (target.withInbox inbox) envelope).1 else w.contextOf n := by
  rw [((attending_deeds found running kept took).spares n).context,
    told_contextOf _ envelope (w.took_found envelope inbox found)]
  split
  · rfl
  · rename_i different
    exact contextOf_congr (w.modules.get?_adjust_of_ne _ different)

theorem attending_taken (n : ModuleRef) :
    (w.attending m).1.taken n = w.taken n ++ if n = m then [envelope] else [] := by
  rw [((attending_deeds found running kept took).spares n).taken, told_taken, took_taken]

theorem attending_deliveries (n : ModuleRef) : (w.attending m).1.deliveries n = w.deliveries n ++
    (Entry.deliveredBy? n ((w.took m envelope inbox).outcome m (target.withInbox inbox) envelope).2).toList := by
  have before : (w.took m envelope inbox).deliveries n = w.deliveries n := noted_of_none rfl rfl
  rw [((attending_deeds found running kept took).spares n).deliveries, ← before]
  exact noted_cons _ rfl

end Taking

theorem attend?_enable (found : w.modules.get? m = some target) (running : target.phase = .running)
    (kept : target.cancelled = false) {s : SubscriberRef} {inbox : Inbox}
    (took : target.inbox.take? = some (.request (.enable s), inbox)) :
    ∃ after, w.attend? m = some after ∧ w.EnableDealt m s after := by
  have outcome : (w.took m (.request (.enable s)) inbox).outcome m (target.withInbox inbox) (.request (.enable s)) =
      (if LetsEnable (w.word m) then target.context.enabledFor s else target.context,
        .delivered m s (.enableResult (enableOutcome (w.word m)))) := by
    rw [outcome_enable, word_found found]
    rfl
  have slot : (w.attending m).1.contextOf m =
      if LetsEnable (w.word m) then { w.contextOf m with registered := some s } else w.contextOf m := by
    rw [attending_contextOf found running kept took, if_pos rfl, outcome, contextOf_found found]
    rfl
  have returns : w.attend? m = some { (w.attending m).1.runScript (w.attending m).2 with inHand := [] } := by
    rw [attend?_taking found running kept took, attending_taking found running kept took]
    exact congrArg some (dispatchEnable_eq _ m target s)
  have rest : Deeds (w.attending m).1 { (w.attending m).1.runScript (w.attending m).2 with inHand := [] } :=
    (runScript_deeds _ _).tail (.aside _ _ _ _ _)
  refine ⟨_, returns, ?_⟩
  constructor
  case slot => exact slot
  case listener =>
    intro free
    have alive : (w.attending m).1.isAlive = w.isAlive := funext (isAlive_attendingEnable free found running kept took)
    rw [slot, listener?, alive]
    split
    · have waits : .request (.enable s) ∈ target.inbox.queue := by
        rw [Inbox.take?_eq_some.1 took]
        exact List.mem_cons_self
      exact Option.filter_some_pos (isAlive_of_waiting found waits)
    · rfl
  case told =>
    rw [attending_deliveries found running kept took, outcome]
    simp only [Entry.deliveredBy?, if_true, Option.toList_some]
  case returns => rfl
  case context => exact (rest.spares m).context
  case deliveries => exact (rest.spares m).deliveries
  case others =>
    intro other different
    constructor
    · rw [(rest.spares other).context, attending_contextOf found running kept took, if_neg different]
    · rw [(rest.spares other).deliveries, attending_deliveries found running kept took,
        outcome_deliveredBy?_other _ different.symm]
      exact List.append_nil _

theorem play_enables (numbered : w.modules.Numbered) {moves : List Move} (played : w.play? moves = some last)
    (only : ∀ meeting ∈ w.meetings m moves, ∃ s, meeting.2 = .request (.enable s)) :
    (last.contextOf m).flags = (w.contextOf m).flags ∧
      (last.contextOf m).storedMode = (w.contextOf m).storedMode := by
  induction moves generalizing w with
  | nil =>
    obtain rfl := Option.some.inj played
    exact ⟨rfl, rfl⟩
  | cons move rest ih =>
    obtain ⟨after, moved, through⟩ := play?_cons.1 played
    rw [meetings_cons moved, List.forall_mem_append] at only
    obtain ⟨flags, mode⟩ := ih (move_numbered numbered moved) through only.2
    rw [flags, mode]
    rcases move_meets numbered moved m with
      ⟨-, spares⟩ | ⟨moment, envelope, target, meets, found, remembers, context, -, -⟩
    · rw [spares.context]
      exact ⟨rfl, rfl⟩
    · rw [meets] at only
      obtain ⟨s, same⟩ := only.1 (moment, envelope) List.mem_cons_self
      obtain rfl : envelope = .request (.enable s) := same
      rw [context, ← remembers, outcome_enable]
      dsimp only
      split <;> exact ⟨rfl, rfl⟩

/-- Whatever a module remembers, whatever word its device manager shows and whoever the subscriber is, an enable that
the dispatcher deals with succeeds exactly if the device is up and neither coming up nor going down. The subscriber is
in the slot by the time it is called if the enable succeeds, and otherwise the slot is as it was, whoever is in it,
alive or not; nothing else that the module remembers changes, and the result is the one event that is delivered. Over
every run each enable has its one result, and the slot holds the subscriber of the last enable that succeeded, or the
initial one. -/
theorem enable_succeeds_iff_device_is_up (w : World) (m : ModuleRef) :
    (∀ target s inbox, w.modules.get? m = some target → target.phase = .running → target.cancelled = false →
      target.inbox.take? = some (.request (.enable s), inbox) →
      ∃ after, w.attend? m = some after ∧ w.EnableDealt m s after) ∧
      ∀ moves last, w.modules.Numbered → w.play? moves = some last →
        (last.contextOf m).registered = (lastEnabled m (w.meetings m moves)).or (w.contextOf m).registered ∧
        (last.deliveries m).filter isEnableResult =
          (w.deliveries m).filter isEnableResult ++ (w.meetings m moves).filterMap (enableResult? m) ∧
        ((∀ meeting ∈ w.meetings m moves, ∃ s, meeting.2 = .request (.enable s)) →
          last.contextOf m = { w.contextOf m with
            registered := (lastEnabled m (w.meetings m moves)).or (w.contextOf m).registered }) := by
  constructor
  · intro target s inbox found running kept took
    exact attend?_enable found running kept took
  · intro moves last numbered played
    obtain ⟨-, deliveries, registered⟩ := play_routes numbered played m
    rw [latestOf_eq] at registered
    refine ⟨registered, ?_, ?_⟩
    · rw [deliveries, List.filter_append, routed_enableResults]
    · intro only
      obtain ⟨flags, mode⟩ := play_enables numbered played only
      rw [← registered]
      generalize last.contextOf m = memory at flags mode ⊢
      obtain ⟨lastFlags, lastMode, slot⟩ := memory
      obtain rfl : lastFlags = (w.contextOf m).flags := flags
      obtain rfl : lastMode = (w.contextOf m).storedMode := mode
      rfl

def enabledTwice : List Move :=
  [.build ⟨"a", "r", "d", some {}, []⟩, .enrol "a", .spawn ⟨"a", 0⟩,
    .act (.setDevice "d" { flags := some ⟨0x21⟩ } none), .act (.enable "a" (some "s")), .attend ⟨"a", 0⟩,
    .act (.enable "a" (some "t")), .act (.setDevice "d" { flags := some ⟨0xA1⟩ } none)]

theorem enable_fails_while_device_goes_down : ∃ w after, ({} : World).play? enabledTwice = some w ∧
    w.word ⟨"a", 0⟩ = 0xA1 ∧ w.attend? ⟨"a", 0⟩ = some after ∧ w.EnableDealt ⟨"a", 0⟩ ⟨"t", 0⟩ after ∧
    after.contextOf ⟨"a", 0⟩ = { registered := some ⟨"s", 0⟩ } ∧
    after.deliveries ⟨"a", 0⟩ = [(⟨"s", 0⟩, .enableResult .ok), (⟨"t", 0⟩, .enableResult .failed)] := by
  obtain ⟨w, played⟩ := Option.isSome_iff_exists.1 (by decide : (({} : World).play? enabledTwice).isSome = true)
  have word : (({} : World).play? enabledTwice).map (fun w => (w.word ⟨"a", 0⟩, w.contextOf ⟨"a", 0⟩,
    w.deliveries ⟨"a", 0⟩)) = some (0xA1, { registered := some ⟨"s", 0⟩ }, [(⟨"s", 0⟩, .enableResult .ok)]) := by decide
  have state : (({} : World).play? enabledTwice).map (fun w => (w.modules.get? ⟨"a", 0⟩).map fun target =>
    (target.phase, target.cancelled, target.inbox.take?)) =
      some (some (.running, false, some (.request (.enable ⟨"t", 0⟩), { capacity := 255 }))) := by decide
  rw [played] at word state
  simp only [Option.map_some, Option.some.injEq, Prod.mk.injEq] at word
  obtain ⟨shown, remembered, delivered⟩ := word
  obtain ⟨target, found, same⟩ := Option.map_eq_some_iff.1 (Option.some.inj state)
  simp only [Prod.mk.injEq] at same
  obtain ⟨running, kept, took⟩ := same
  obtain ⟨after, attended, dealt⟩ :=
    (enable_succeeds_iff_device_is_up w ⟨"a", 0⟩).1 target _ _ found running kept took
  have fails : ¬ LetsEnable (0xA1 : BitVec 32) := by decide
  refine ⟨w, after, played, shown, attended, dealt, ?_, ?_⟩
  · rw [dealt.context, dealt.slot, shown, if_neg fails, remembered]
  · rw [dealt.deliveries, dealt.told, shown, delivered, enableOutcome, if_neg fails]
    rfl

end World

end WirelessCharging
