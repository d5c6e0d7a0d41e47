import WirelessCharging.Proofs.Hooks
import WirelessCharging.Proofs.Prompt
import WirelessCharging.Proofs.Stopping
/-!
Stops and their limits. From the moment at which a dispatcher sees its cancellation, the clock alone decides whether
the last hook of its module is over, whatever else goes on and however often the module is stopped again. A stop
therefore returns ok if the hook is over, or will be before the stop has waited for as long as it may, and otherwise
it gives up at its limit and leaves everything for a later one.
-/
namespace WirelessCharging

/-- Where a module stands whose last hook is over at `wake`. -/
def Phase.restingUntil (wake now : Nat) : Phase := if now < wake then .closing wake else .finished

/-- What is seen of the end of a last hook: nothing, if it takes no time. -/
def Module.lastHookEnd (target : Module) : List Tag :=
  if target.delay .afterStop = 0 then [] else [target.tag .afterStop]

def Entry.lastHookOf? (m : ModuleRef) : Entry → Option Tag
  | .hookDone source .afterStop tag => if source = m then some tag else none
  | _ => none

namespace World

def lastHooksOver (w : World) (m : ModuleRef) : List Tag := w.noted (Entry.lastHookOf? m)

def phase? (w : World) (m : ModuleRef) : Option Phase := (w.modules.get? m).map (·.phase)

/-- A call that stops a module, with what it answers: a stop at one go, or a step of a scenario. -/
inductive CallsStop (w : World) (m : ModuleRef) (after : World) (answer : Answer) : Prop where
  | call (stopped : w.stop m = (after, answer))
  | step (step : Step) (named : w.stopTarget? step = some m) (stepped : w.step? step = some (after, answer))

/-- What a stop that is called at `start` comes to, and when, where the last hook is over at `wake`. -/
inductive StopOutcome (start limit wake : Nat) (answer : Answer) (now : Nat) : Prop where
  | inTime (early : wake ≤ start ∨ wake < start + limit) (ok : answer = .ok) (returned : now = max start wake)
  | tooLate (unfinished : start < wake) (late : start + limit ≤ wake)
      (timedOut : answer = .stopTimedOut .wlc limit) (returned : now = start + limit)

/-- A stop has returned ok: the last hook is over by then, and nobody is registered. -/
structure StopsInTime (w last : World) (m : ModuleRef) (registry : RegistryRef) (wake : Nat) : Prop where
  now : last.now = max w.now wake
  finished : last.phase? m = some .finished
  unregistered : last.registration? registry .wlc = none

/-- A stop has given up: the last hook goes on, whoever was registered still is, and nobody else can be launched. -/
structure StopGivesUp (w last : World) (m : ModuleRef) (limit wake : Nat) (answer : Answer) : Prop where
  answer : answer = .stopTimedOut .wlc limit
  now : last.now = w.now + limit
  goesOn : last.phase? m = some (.closing wake)
  registries : last.registries = w.registries
  launches : ∀ name n other, last.idle? name = some (n, other) →
    (w.registration? other.registry .wlc).isSome = true →
    (last.launch name).2 = .refused (.alreadyRegistered .wlc)

structure StopsWithin (w last : World) (m : ModuleRef) (registry : RegistryRef) (limit wake : Nat)
    (answer : Answer) : Prop where
  leads : w.LeadsTo last
  ok_iff : answer = .ok ↔ w.phase? m = some .finished ∨ wake < w.now + limit
  inTime : answer = .ok → w.StopsInTime last m registry wake
  givesUp : answer ≠ .ok → w.StopGivesUp last m limit wake answer

/-- What holds of a module ever after its dispatcher has seen its cancellation, with the module as it was then. -/
structure RestsSince (after later : World) (m : ModuleRef) (target : Module) (wake : Nat) : Prop where
  phase : later.phase? m = some (.restingUntil wake later.now)
  cancelled : (later.modules.get? m).map (·.cancelled) = some true
  refuses : later.RefusesForGood m
  hookCalls : later.hookCalls m = after.hookCalls m
  hooksOver : later.lastHooksOver m =
    after.lastHooksOver m ++ if later.now < wake then [] else target.lastHookEnd

/-- On the way from one world to another the dispatcher sees its cancellation, while the clock stands still. -/
def SeesCancellation (w last : World) (m : ModuleRef) : Prop :=
  ∃ before there after move, w.LeadsTo before ∧ before.now = w.now ∧ before.Observes m there move ∧
    before.move? move = some after ∧ after.LeadsTo last

end World

theorem Phase.restingUntil_isPast (wake now : Nat) : (Phase.restingUntil wake now).isPast = true := by
  unfold restingUntil
  split <;> rfl

theorem Phase.isLive_restingUntil (wake now : Nat) : (Phase.restingUntil wake now).isLive = decide (now < wake) := by
  unfold restingUntil
  split
  · rename_i waiting
    rw [decide_eq_true waiting]
    rfl
  · rename_i past
    rw [decide_eq_false past]
    rfl

theorem Becomes.stopLimit {move : Move} {w later : World} {m : ModuleRef} {before after : Module}
    {more gone : List Envelope} (h : Becomes move w later m (some before) (some after) more gone) :
    after.stopLimit = before.stopLimit := by
  cases h <;> rfl

theorem Changes.stopLimit {w later : World} (h : Changes w later) {m : ModuleRef} {before after : Module}
    (found : w.modules.get? m = some before) (there : later.modules.get? m = some after) :
    after.stopLimit = before.stopLimit :=
  Changes.keepModule (P := fun target => target.stopLimit = before.stopLimit)
    (fun becomes same => becomes.stopLimit.trans same) h found rfl there

theorem Deeds.now {w later : World} (h : Deeds w later) : later.now = w.now := by
  induction h with
  | refl => rfl
  | tail _ deed ih =>
    refine Eq.trans ?_ ih
    cases deed with
    | accept found posted => exact World.wake_now _ _
    | aside => rfl
    | note => rfl
    | lend => rfl

variable {move : Move}

namespace World

variable {w after later last : World} {m : ModuleRef} {target : Module} {wake : Nat} {answer : Answer}

theorem callHook_now (w : World) (m : ModuleRef) (target : Module) (kind : HookKind) :
    (w.callHook m target kind).now = w.now := by
  rcases w.callHook_deeds m target kind with same | ⟨tag, subscribed, called⟩
  · rw [same]
  · exact called.now

theorem attend?_now (h : w.attend? m = some after) : after.now = w.now := by
  obtain ⟨modules, journal, called, -, -, deeds, rfl | rfl⟩ := attend?_deeds h
  · exact deeds.now
  · exact deeds.now

theorem spawn_now (w : World) (m : ModuleRef) (target : Module) : (w.spawn m target).now = w.now := by
  rw [spawn, wake_now, setPhase, adjustModule, hookOver]
  split <;> rfl

theorem move_now (h : w.move? move = some after) (elsewhere : ∀ time, move ≠ .pass time) : after.now = w.now := by
  cases move with
  | act action => exact Option.some.inj h ▸ (w.perform_deeds action).now
  | build plan =>
    obtain ⟨⟨built, answer⟩, followed, rfl⟩ := Option.map_eq_some_iff.1 h
    obtain ⟨registries, runtimes, modules, devices, senders, rfl⟩ := follow?_only followed
    rfl
  | enrol name =>
    simp only [move?, enrol?] at h
    split at h
    · cases h
    · split at h
      · exact Option.some.inj h ▸ rfl
      · exact Option.some.inj h ▸ callHook_now _ _ _ _
  | spawn other =>
    simp only [move?, spawn?] at h
    split at h
    · cases h
    · split at h
      · exact Option.some.inj h ▸ spawn_now _ _ _
      · cases h
  | attend other => exact attend?_now h
  | pass time => exact absurd rfl (elsewhere time)
  | cancel other => exact Option.some.inj h ▸ wake_now _ _
  | deregister other =>
    obtain ⟨there, -, rfl⟩ := deregister?_eq h
    rfl
  | newRuntime name => exact Option.some.inj h ▸ rfl
  | cloneRuntime name source =>
    rw [← Option.some.inj h]
    simp only [cloneRuntime, ensureRuntime]
    split <;> split <;> rfl
  | dropRuntime name => exact Option.some.inj h ▸ rfl
  | dropIdle name =>
    obtain ⟨modules, senders, same⟩ := w.dropIdle_eq name
    rw [← Option.some.inj h, same]
  | yield =>
    rcases Move.isTurn_cases rfl h with ⟨other, attended⟩ | ⟨ready, setAside, rfl⟩
    · exact attend?_now attended
    · rfl
  | setFirstAside =>
    obtain ⟨ready, aside, same⟩ := w.setFirstAside_eq
    rw [← Option.some.inj h, same]
  | rejoin => exact Option.some.inj h ▸ rfl
  | clone other =>
    obtain ⟨senders, rfl⟩ := clone?_senders h
    rfl
  | drop sender =>
    obtain ⟨senders, rfl⟩ := drop?_senders h
    rfl

theorem TakesTurns.now (h : w.TakesTurns later) : later.now = w.now := by
  obtain ⟨moves, turns, played⟩ := h
  induction moves generalizing w with
  | nil => exact Option.some.inj played ▸ rfl
  | cons move rest ih =>
    obtain ⟨mine, others⟩ := List.forall_mem_cons.1 turns
    obtain ⟨after, moved, through⟩ := play?_cons.1 played
    rw [ih others through]
    refine move_now moved ?_
    rintro time rfl
    cases mine

/-- The end of a last hook is seen where one is over as time passes, and in no other move. -/
theorem move_lastHooksOver (h : w.move? move = some after) (elsewhere : ∀ time, move ≠ .pass time) (m : ModuleRef) :
    after.lastHooksOver m = w.lastHooksOver m := by
  refine (move_notes h).noted_eq ?_
  intro entry notes
  cases notes with
  | plain unhooked =>
    cases entry with
    | hookDone source kind tag => cases unhooked
    | _ => rfl
  | called turns kind tag context subscribed => rfl
  | firstOver named tag => rfl
  | lastOver named other tag => exact absurd named (elsewhere _)

theorem mem_due_iff (numbered : w.modules.Numbered) (found : w.modules.get? m = some target) (limit : Nat) :
    m ∈ (w.due limit).map (·.2) ↔ ∃ wake, target.phase = .closing wake ∧ wake ≤ limit := by
  simp only [List.mem_map]
  constructor
  · rintro ⟨⟨wake, other⟩, member, rfl⟩
    obtain ⟨there, listed, closing, early⟩ := mem_due.1 member
    obtain rfl := Option.some.inj ((Roster.get?_of_mem numbered.1 listed).symm.trans found)
    exact ⟨wake, closing, early⟩
  · rintro ⟨wake, closing, early⟩
    exact ⟨(wake, m), mem_due.2 ⟨target, Roster.mem_of_get? found, closing, early⟩, rfl⟩

/-- No module has two last hooks at work. -/
theorem due_distinct (numbered : w.modules.Numbered) (limit : Nat) : ((w.due limit).map (·.2)).Nodup := by
  unfold due
  rw [((List.mergeSort_perm _ _).map _).nodup_iff, List.Nodup, List.pairwise_map, List.pairwise_filterMap]
  refine (List.pairwise_map.1 numbered.1).imp ?_
  rintro ⟨m, target⟩ ⟨other, there⟩ different entry listed last alsoListed
  have own : entry.2 = m := by grind
  have alsoOwn : last.2 = other := by grind
  rw [own, alsoOwn]
  exact different

theorem restOver_self (found : w.modules.get? m = some target) :
    (w.restOver m).modules.get? m = some (target.ended .finished) ∧
      (w.restOver m).lastHooksOver m = w.lastHooksOver m ++ target.lastHookEnd := by
  rw [w.restOver_eq found]
  constructor
  · simp only [finish_modules, hookOver_modules, Roster.get?_adjust_self, found, Option.map_some]
  · unfold hookOver Module.lastHookEnd
    split
    · exact (List.append_nil _).symm
    · refine (noted_cons _ rfl).trans ?_
      simp only [Entry.lastHookOf?, if_true, Option.toList_some]
      rfl

theorem restOver_lastHooksOver (w : World) {m other : ModuleRef} (different : m ≠ other) :
    (w.restOver other).lastHooksOver m = w.lastHooksOver m := by
  unfold restOver hookOver
  split
  · rfl
  · split
    · rfl
    · exact noted_of_none rfl (if_neg different.symm)

theorem restOver_all_over {entries : List (Nat × ModuleRef)} (distinct : (entries.map (·.2)).Nodup)
    (found : w.modules.get? m = some target) :
    (entries.foldl (fun w entry => w.restOver entry.2) w).modules.get? m =
        some (if m ∈ entries.map (·.2) then target.ended .finished else target) ∧
      (entries.foldl (fun w entry => w.restOver entry.2) w).lastHooksOver m =
        w.lastHooksOver m ++ if m ∈ entries.map (·.2) then target.lastHookEnd else [] := by
  induction entries generalizing w target with
  | nil => exact ⟨found, (List.append_nil _).symm⟩
  | cons entry rest ih =>
    obtain ⟨absent, distinct⟩ := List.nodup_cons.1 distinct
    simp only [List.foldl_cons, List.map_cons, List.mem_cons]
    by_cases same : m = entry.2
    · obtain ⟨here, hooks⟩ := restOver_self found
      subst same
      obtain ⟨there, still⟩ := ih distinct here
      rw [there, still, hooks, if_neg absent, if_neg absent, if_pos (Or.inl rfl), if_pos (Or.inl rfl),
        List.append_nil]
      exact ⟨rfl, rfl⟩
    · obtain ⟨there, still⟩ := ih distinct ((w.restOver_other same).trans found)
      rw [there, still, w.restOver_lastHooksOver same]
      simp only [same, false_or, and_self]

theorem advance_resting (numbered : w.modules.Numbered) (found : w.modules.get? m = some target)
    (resting : target.phase = .restingUntil wake w.now) {limit : Nat} (forward : w.now ≤ limit) :
    (w.advance limit).phase? m = some (.restingUntil wake limit) ∧ (w.advance limit).lastHooksOver m =
      w.lastHooksOver m ++ if w.now < wake ∧ wake ≤ limit then target.lastHookEnd else [] := by
  obtain ⟨there, hooks⟩ := restOver_all_over (due_distinct numbered limit) found
  have due : m ∈ (w.due limit).map (·.2) ↔ w.now < wake ∧ wake ≤ limit := by
    rw [mem_due_iff numbered found, resting]
    unfold Phase.restingUntil
    constructor
    · rintro ⟨time, closing, early⟩
      split at closing
      · rename_i waiting
        cases closing
        exact ⟨waiting, early⟩
      · cases closing
    · rintro ⟨waiting, early⟩
      exact ⟨wake, if_pos waiting, early⟩
  have phase : (if m ∈ (w.due limit).map (·.2) then target.ended .finished else target).phase =
      .restingUntil wake limit := by
    by_cases overdue : w.now < wake ∧ wake ≤ limit
    · rw [if_pos (due.2 overdue), Phase.restingUntil, if_neg (Nat.not_lt.2 overdue.2)]
      rfl
    · rw [if_neg fun listed => overdue (due.1 listed), resting, Phase.restingUntil, Phase.restingUntil]
      by_cases waiting : w.now < wake
      · rw [if_pos waiting, if_pos (by omega)]
      · rw [if_neg waiting, if_neg (by omega)]
  constructor
  · exact (congrArg (Option.map (·.phase)) there).trans (congrArg some phase)
  · refine Eq.trans ?_ (hooks.trans ?_)
    · rfl
    · simp only [due]

theorem move_forward (h : w.move? move = some after) : w.now ≤ after.now := by
  by_cases passes : ∃ time, move = .pass time
  · obtain ⟨time, rfl⟩ := passes
    simp only [move?] at h
    split at h
    · rename_i forward
      exact Option.some.inj h ▸ forward
    · cases h
  · exact Nat.le_of_eq (move_now h fun time same => passes ⟨time, same⟩).symm

theorem move_resting (numbered : w.modules.Numbered) (h : w.move? move = some after)
    (found : w.modules.get? m = some target) (resting : target.phase = .restingUntil wake w.now) :
    after.phase? m = some (.restingUntil wake after.now) ∧ after.lastHooksOver m =
      w.lastHooksOver m ++ if w.now < wake ∧ wake ≤ after.now then target.lastHookEnd else [] := by
  by_cases passes : ∃ time, move = .pass time
  · obtain ⟨time, rfl⟩ := passes
    simp only [move?] at h
    split at h
    · rename_i forward
      obtain rfl := Option.some.inj h
      exact advance_resting numbered found resting forward
    · cases h
  · have elsewhere : ∀ time, move ≠ .pass time := fun time same => passes ⟨time, same⟩
    have past : target.phase.isPast = true := by
      rw [resting]
      exact Phase.restingUntil_isPast _ _
    obtain ⟨there, here, fate⟩ := move_fares numbered h found
    have phase : there.phase = target.phase := by
      cases fate with
      | kept ordinary more => rfl
      | enrolled enrols more => rw [enrols.found.2] at past; cases past
      | dropped drops => rw [drops.idle] at past; cases past
      | spawned named launching => rw [launching] at past; cases past
      | took named running kept took context more => rw [running] at past; cases past
      | closed observes later more => rw [observes.found.2] at past; cases past
      | closedAtOnce observes later more => rw [observes.found.2] at past; cases past
      | rested named closing => exact absurd named (elsewhere _)
      | cancelled named => rfl
    have now := move_now h elsewhere
    have waits : ¬ (w.now < wake ∧ wake ≤ after.now) := by omega
    rw [if_neg waits, List.append_nil, phase?, here, Option.map_some, phase, resting, now]
    exact ⟨rfl, move_lastHooksOver h elsewhere m⟩

theorem lastHookEnd_congr {before after : Module} (same : after.hook? .afterStop = before.hook? .afterStop) :
    after.lastHookEnd = before.lastHookEnd := by
  rw [Module.lastHookEnd, Module.lastHookEnd, Module.delay, Module.delay, Module.tag, Module.tag, same]

/-- Whatever goes on, and for as long as it does: a last hook is over when the clock says so, and is seen to be. -/
theorem play_resting (numbered : w.modules.Numbered) {moves : List Move} (played : w.play? moves = some last)
    (found : w.modules.get? m = some target) (resting : target.phase = .restingUntil wake w.now) {ends : List Tag}
    (hooks : w.lastHooksOver m = ends ++ if w.now < wake then [] else target.lastHookEnd) :
    last.phase? m = some (.restingUntil wake last.now) ∧
      last.lastHooksOver m = ends ++ if last.now < wake then [] else target.lastHookEnd := by
  induction moves generalizing w target with
  | nil =>
    obtain rfl := Option.some.inj played
    exact ⟨by rw [phase?, found, Option.map_some, resting], hooks⟩
  | cons move rest ih =>
    obtain ⟨after, moved, through⟩ := play?_cons.1 played
    obtain ⟨phase, ended⟩ := move_resting numbered moved found resting
    obtain ⟨there, here, rests⟩ := Option.map_eq_some_iff.1 phase
    have same : there.lastHookEnd = target.lastHookEnd :=
      lastHookEnd_congr (congrFun (Changes.hook? (move_changes numbered moved).changes found here) .afterStop)
    rw [← same]
    refine ih (move_numbered numbered moved) through here rests ?_
    have forward := move_forward moved
    rw [ended, hooks, List.append_assoc, same]
    by_cases waiting : w.now < wake
    · rw [if_pos waiting, List.nil_append]
      by_cases overdue : wake ≤ after.now
      · rw [if_pos ⟨waiting, overdue⟩, if_neg (by omega)]
      · rw [if_neg fun both => overdue both.2, if_pos (by omega)]
    · rw [if_neg waiting, if_neg fun both => waiting both.1, if_neg (by omega), List.append_nil]

theorem Observes.resting (observes : w.Observes m target move) (h : w.move? move = some after) :
    after.now = w.now ∧ ∃ there, after.modules.get? m = some there ∧
      there.phase = .restingUntil (w.now + target.delay .afterStop) w.now ∧
      there.hook? .afterStop = target.hook? .afterStop := by
  cases observes with
  | observe found running cancelled =>
    have closes : w.closeDown m target = after := by
      simpa only [move?, attend?, found, running, cancelled, ne_eq, not_true_eq_false, if_false, if_true,
        Option.some.injEq] using h
    refine ⟨attend?_now h, ?_⟩
    obtain ⟨more, there⟩ := closeDown_found found
    rw [closes] at there
    refine ⟨_, there, ?_, ?_⟩
    · unfold Phase.restingUntil
      by_cases prompt : target.delay .afterStop = 0
      · rw [if_pos prompt, if_neg (by omega)]
        rfl
      · rw [if_neg prompt, if_pos (by omega)]
        rfl
    · split <;> rfl

/-- Once the dispatcher has seen its cancellation, nothing but the clock matters for the last hook. -/
theorem Observes.restsSince (reached : w.Reachable) (observes : w.Observes m target move)
    (h : w.move? move = some after) (leads : after.LeadsTo later) :
    after.RestsSince later m target (w.now + target.delay .afterStop) := by
  obtain ⟨now, there, here, resting, same⟩ := observes.resting h
  have going : after.Reachable := reached.leadsTo (.single move h)
  have numbered := going.numbered
  rw [← now] at resting
  have past : there.phase.isPast = true := by
    rw [resting]
    exact Phase.restingUntil_isPast _ _
  have seen : after.lastHooksOver m = after.lastHooksOver m ++
      if after.now < w.now + target.delay .afterStop then [] else there.lastHookEnd := by
    split
    · rw [List.append_nil]
    · have prompt : target.delay .afterStop = 0 := by omega
      rw [lastHookEnd_congr same, Module.lastHookEnd, if_pos prompt, List.append_nil]
  obtain ⟨moves, played⟩ := leads
  obtain ⟨phase, hooks⟩ := play_resting numbered played here (now ▸ resting) seen
  obtain ⟨last, found, rests⟩ := Option.map_eq_some_iff.1 phase
  have through : Changes after later := play_changes numbered played
  have occurs : later.Occurs := going.changes.trans through
  constructor
  case phase => exact phase
  case cancelled =>
    cases observes with
    | observe foundBefore running cancelled =>
      obtain ⟨final, foundFinal, lasts⟩ :=
        Changes.lasts ((move_changes reached.numbered h).changes.trans through) foundBefore
      rw [foundFinal, Option.map_some, lasts.cancelled cancelled]
  case refuses =>
    refine refusesForGood_of_shut occurs found ?_
    rw [Inbox.isReceiving, occurs.inboxState found, rests]
    unfold Phase.restingUntil
    split <;> rfl
  case hookCalls => exact (play_rests numbered played here past).hookCalls
  case hooksOver =>
    rw [hooks, lastHookEnd_congr same]

theorem endOfDispatcher?_resting {now : Nat} (resting : w.phase? m = some (.restingUntil wake now)) :
    w.endOfDispatcher? m = if now < wake then some wake else none := by
  obtain ⟨target, found, rests⟩ := Option.map_eq_some_iff.1 resting
  simp only [endOfDispatcher?, found, rests, Phase.restingUntil]
  by_cases waiting : now < wake
  · rw [if_pos waiting, if_pos waiting]
  · rw [if_neg waiting, if_neg waiting]

theorem stop_outcome (found : w.modules.get? m = some target) (live : target.phase.isLive = true)
    (patient : target.stopLimit ≠ 0)
    (resting : ((w.cancel m).runUntil fun w => !w.isLive m).phase? m = some (.restingUntil wake w.now))
    (h : w.stop m = (last, answer)) : StopOutcome w.now target.stopLimit wake answer last.now := by
  have now : ((w.cancel m).runUntil fun w => !w.isLive m).now = w.now :=
    (runUntil_takesTurns _ _).now.trans (wake_now _ _)
  simp only [stop, found, live, Bool.not_true, Bool.false_eq_true, if_false, patient,
    endOfDispatcher?_resting resting] at h
  by_cases waiting : w.now < wake
  · simp only [if_pos waiting, now] at h
    split at h
    · rename_i early
      obtain ⟨rfl, rfl⟩ := Prod.mk.inj h
      exact .inTime (Or.inr early) rfl (Nat.max_eq_right (Nat.le_of_lt waiting)).symm
    · rename_i late
      obtain ⟨rfl, rfl⟩ := Prod.mk.inj h
      exact .tooLate waiting (Nat.le_of_not_lt late) rfl rfl
  · simp only [if_neg waiting] at h
    obtain ⟨rfl, rfl⟩ := Prod.mk.inj h
    have past := Nat.le_of_not_lt waiting
    exact .inTime (Or.inl past) rfl (now.trans (Nat.max_eq_left past).symm)

theorem stop_outcome_resting (found : w.modules.get? m = some target)
    (rests : ∀ later, w.LeadsTo later → later.phase? m = some (.restingUntil wake later.now))
    (h : w.stop m = (last, answer)) : StopOutcome w.now target.stopLimit wake answer last.now := by
  have phase := rests w (.refl w)
  rw [phase?, found, Option.map_some, Option.some.injEq] at phase
  have live : target.phase.isLive = decide (w.now < wake) := by rw [phase, Phase.isLive_restingUntil]
  by_cases waiting : w.now < wake
  · rw [decide_eq_true waiting] at live
    by_cases patient : target.stopLimit = 0
    · simp only [stop, found, live, Bool.not_true, Bool.false_eq_true, if_false, patient, if_true] at h
      obtain ⟨rfl, rfl⟩ := Prod.mk.inj h
      rw [patient]
      exact .tooLate waiting (Nat.le_of_lt waiting) rfl (wake_now _ _)
    · refine stop_outcome found live patient ?_ h
      have runs := (w.cancel m).runUntil_takesTurns fun w => !w.isLive m
      rw [rests _ ((LeadsTo.single (.cancel m) rfl).trans runs.goesOn.leadsTo), runs.now]
      exact congrArg (fun now => some (Phase.restingUntil wake now)) (wake_now _ _)
  · rw [decide_eq_false waiting] at live
    simp only [stop, found, live, Bool.not_false, if_true] at h
    obtain ⟨rfl, rfl⟩ := Prod.mk.inj h
    have past := Nat.le_of_not_lt waiting
    exact .inTime (Or.inl past) rfl ((wake_now _ _).trans (Nat.max_eq_left past).symm)

theorem CallsStop.stops (h : w.CallsStop m last answer) :
    ∃ stopped, w.stop m = (stopped, answer) ∧ stopped.TakesTurns last := by
  cases h with
  | call stopped => exact ⟨last, stopped, .refl last⟩
  | step step named stepped =>
    obtain ⟨stopped, stops, rfl⟩ := step?_stop named stepped
    exact ⟨stopped, stops, stopped.runUntil_takesTurns _⟩

theorem CallsStop.leadsTo (h : w.CallsStop m last answer) (reached : w.Reachable) : w.LeadsTo last := by
  obtain ⟨stopped, stops, turns⟩ := h.stops
  have leads := stop_leadsTo reached m
  rw [stops] at leads
  exact leads.trans turns.goesOn.leadsTo

theorem CallsStop.registries (h : w.CallsStop m last answer) (reached : w.Reachable)
    (found : w.modules.get? m = some target) :
    (answer = .ok → last.registration? target.registry .wlc = none) ∧
      (answer ≠ .ok → last.registries = w.registries) := by
  obtain ⟨stopped, stops, turns⟩ := h.stops
  have leads := stop_leadsTo reached m
  rw [stops] at leads
  have settled := turns.goesOn.registries (reached.leadsTo leads)
  constructor
  · intro ok
    rw [registration?_congr settled, stop_registration reached found stops, if_pos ⟨ok, rfl⟩]
  · intro late
    obtain ⟨waited, goes, ⟨ok, -⟩ | ⟨-, rfl⟩⟩ := stop_moves reached found stops
    · exact absurd ok late
    · rw [settled, goes.registries (reached.cancel m)]
      exact wake_registries _ _

theorem launch_taken {name : String} {n : ModuleRef} {other : Module} (idle : w.idle? name = some (n, other))
    (taken : (w.registration? other.registry .wlc).isSome = true) :
    w.launch name = (w.discard n, .refused (.alreadyRegistered .wlc)) := by
  obtain ⟨holder, stood⟩ := Option.isSome_iff_exists.1 taken
  simp only [launch, idle, stood]

theorem CallsStop.within (h : w.CallsStop m last answer) (reached : w.Reachable)
    (found : w.modules.get? m = some target)
    (hears : (w.phase? m = some .finished ∨ wake < w.now + target.stopLimit) ↔
      (wake ≤ w.now ∨ wake < w.now + target.stopLimit))
    (rests : last.phase? m = some (.restingUntil wake last.now))
    (outcome : StopOutcome w.now target.stopLimit wake answer last.now) (apart : wake ≠ w.now + target.stopLimit) :
    w.StopsWithin last m target.registry target.stopLimit wake answer := by
  obtain ⟨removed, kept⟩ := h.registries reached found
  rw [Phase.restingUntil] at rests
  cases outcome with
  | inTime early ok now =>
    refine ⟨h.leadsTo reached, ?_, ?_, fun late => absurd ok late⟩
    · rw [hears]
      exact ⟨fun _ => early, fun _ => ok⟩
    · intro _
      rw [if_neg (by omega)] at rests
      exact ⟨now, rests, removed ok⟩
  | tooLate unfinished late timedOut now =>
    have refused : answer ≠ .ok := timedOut ▸ fun same => Answer.noConfusion same
    refine ⟨h.leadsTo reached, ?_, fun ok => absurd ok refused, ?_⟩
    · rw [hears]
      constructor
      · intro ok
        exact absurd ok refused
      · intro early
        omega
    · intro _
      rw [if_pos (by omega)] at rests
      refine ⟨timedOut, now, rests, kept refused, ?_⟩
      intro name n other idle taken
      rw [launch_taken idle (by rwa [registration?_congr (kept refused)])]

theorem SeesCancellation.trans (h : w.SeesCancellation after m) (leads : after.LeadsTo last) :
    w.SeesCancellation last m := by
  obtain ⟨before, there, observed, move, first, now, observes, moved, rest⟩ := h
  exact ⟨before, there, observed, move, first, now, observes, moved, rest.trans leads⟩

theorem TakesTurns.sees (h : w.TakesTurns last) (numbered : w.modules.Numbered)
    (found : w.modules.get? m = some target) (running : target.phase = .running) (cancelled : target.cancelled = true)
    (past : last.phase? m ≠ some .running) : w.SeesCancellation last m := by
  obtain ⟨moves, turns, played⟩ := h
  induction moves generalizing w target with
  | nil =>
    obtain rfl := Option.some.inj played
    rw [phase?, found, Option.map_some, running] at past
    exact absurd rfl past
  | cons move rest ih =>
    obtain ⟨mine, others⟩ := List.forall_mem_cons.1 turns
    obtain ⟨after, moved, through⟩ := play?_cons.1 played
    obtain ⟨there, here, fate⟩ := move_fares numbered moved found
    have later : there.phase = .running → there.cancelled = true → w.SeesCancellation last m := by
      intro goesOn told
      obtain ⟨before, seen, observed, turn, first, now, observes, turned, leads⟩ :=
        ih (move_numbered numbered moved) here goesOn told others through
      have still : after.now = w.now := TakesTurns.now (.single move mine moved)
      exact ⟨before, seen, observed, turn, (LeadsTo.single move moved).trans first, now.trans still, observes, turned,
        leads⟩
    cases fate with
    | kept ordinary more => exact later running cancelled
    | enrolled enrols more => cases running.symm.trans enrols.found.2
    | dropped drops => cases running.symm.trans drops.idle
    | spawned named launching => cases running.symm.trans launching
    | took named running kept took context more => cases cancelled.symm.trans kept
    | closed observes wake more => exact ⟨w, target, after, move, .refl w, rfl, observes, moved, rest, through⟩
    | closedAtOnce observes wake more => exact ⟨w, target, after, move, .refl w, rfl, observes, moved, rest, through⟩
    | rested named closing => cases running.symm.trans closing
    | cancelled named => exact later running rfl

theorem SeesCancellation.resting (h : w.SeesCancellation last m) (reached : w.Reachable)
    (found : w.modules.get? m = some target) :
    last.phase? m = some (.restingUntil (w.now + target.delay .afterStop) last.now) := by
  obtain ⟨before, there, after, move, first, now, observes, moved, leads⟩ := h
  have hooks := Changes.hook? (first.changes reached) found observes.found.1
  have delay : there.delay .afterStop = target.delay .afterStop := by rw [Module.delay, hooks, ← Module.delay]
  rw [← now, ← delay]
  exact (observes.restsSince (reached.leadsTo first) moved leads).phase

theorem SeesCancellation.refuses (h : w.SeesCancellation last m) (reached : w.Reachable) : last.RefusesForGood m := by
  obtain ⟨before, there, after, move, first, -, observes, moved, leads⟩ := h
  exact (observes.restsSince (reached.leadsTo first) moved leads).refuses

theorem over_iff {now : Nat} (resting : w.phase? m = some (.restingUntil wake now)) :
    w.phase? m = some .finished ↔ wake ≤ now := by
  rw [resting, Phase.restingUntil]
  split
  · rename_i waiting
    constructor
    · intro same
      cases same
    · intro past
      omega
  · rename_i past
    simp only [true_iff]
    omega

theorem deregister?_iff (rests : after.RestsSince later m target wake) :
    (later.deregister? m).isSome = true ↔ wake ≤ later.now := by
  obtain ⟨there, found, phase⟩ := Option.map_eq_some_iff.1 rests.phase
  have cancelled := rests.cancelled
  rw [found, Option.map_some, Option.some.injEq] at cancelled
  simp only [deregister?, found, cancelled, phase, Phase.isLive_restingUntil, Bool.true_and, Bool.not_eq_true',
    decide_eq_false_iff_not, Nat.not_lt]
  split
  · rename_i past
    simp only [Option.isSome_some, past]
  · rename_i waiting
    simp only [Option.isSome_none, Bool.false_eq_true, waiting]

theorem CallsStop.sees (h : w.CallsStop m last answer) (reached : w.Reachable)
    (found : w.modules.get? m = some target) (running : target.phase = .running) (patient : target.stopLimit ≠ 0) :
    (w.cancel m).SeesCancellation last m ∧
      StopOutcome w.now target.stopLimit (w.now + target.delay .afterStop) answer last.now := by
  have live : target.phase.isLive = true := by rw [running]; rfl
  have told := cancel_found found
  have going := reached.cancel m
  have runs := (w.cancel m).runUntil_takesTurns fun w => !w.isLive m
  obtain ⟨there, here, past⟩ := runUntil_over going told rfl
  have sees : (w.cancel m).SeesCancellation ((w.cancel m).runUntil fun w => !w.isLive m) m := by
    refine runs.sees going.numbered told running rfl ?_
    rw [phase?, here, Option.map_some]
    exact fun same => past (Option.some.inj same)
  have resting := sees.resting going told
  rw [runs.now, cancel, wake_now] at resting
  obtain ⟨stopped, stops, turns⟩ := h.stops
  have outcome := stop_outcome found live patient resting stops
  rw [← turns.now] at outcome
  obtain ⟨waited, goes, ⟨-, removed, -⟩ | ⟨-, rfl⟩⟩ := stop_waits reached found live patient stops
  · have leads := (goes.leadsTo.trans (.single (.deregister m) removed)).trans turns.goesOn.leadsTo
    exact ⟨sees.trans leads, outcome⟩
  · exact ⟨sees.trans (goes.leadsTo.trans turns.goesOn.leadsTo), outcome⟩

theorem CallsStop.seesLater (h : w.CallsStop m last answer) (reached : w.Reachable)
    (found : w.modules.get? m = some target) (running : target.phase = .running) (impatient : target.stopLimit = 0) :
    answer = .stopTimedOut .wlc 0 ∧ last.now = w.now ∧ (w.cancel m).SeesCancellation last.settle m := by
  have told := cancel_found found
  obtain ⟨stopped, stops, turns⟩ := h.stops
  simp only [stop, found, running, Phase.isLive, Bool.not_true, Bool.false_eq_true, if_false, impatient,
    if_true] at stops
  obtain ⟨rfl, rfl⟩ := Prod.mk.inj stops
  have going := reached.cancel m
  have settles := turns.trans (last.runUntil_takesTurns fun _ => false)
  refine ⟨rfl, turns.now.trans (wake_now _ _), settles.sees going.numbered told running rfl ?_⟩
  intro still
  obtain ⟨there, here, runs⟩ := Option.map_eq_some_iff.1 still
  obtain ⟨same, alsoHere, lasts⟩ := Changes.lasts (settles.goesOn.leadsTo.changes going) told
  obtain rfl := Option.some.inj (alsoHere.symm.trans here)
  -- otherwise it would have something to do, and a drain leaves nothing to do
  have idle := settle_attend? (going.leadsTo turns.goesOn.leadsTo) m
  simp only [settle, attend?, here, runs, lasts.cancelled rfl, ne_eq, not_true_eq_false, if_false, if_true] at idle
  cases idle

/-- Once the dispatcher of a module has seen its cancellation, its last hook is at work until it has taken its time,
and is then over, in whatever comes later: it is neither broken off nor called again, everything handed in is refused,
and the second half of a stop can be played from then on. A stop that is called meanwhile returns ok if and only if
the hook is over, or will be before its limit; it returns at the end of the hook, with nobody registered. If it does
not return ok it gives up at its limit and leaves all of this as it was, and so it is with the stops that follow. The
stop that has the cancellation seen in the first place comes out in the same way, but for one that does not wait. -/
theorem stop_returns_ok_iff_last_hook_over_in_time (reached : w.Reachable)
    (found : w.modules.get? m = some target) :
    (∀ move after later, w.Observes m target move → w.move? move = some after → after.LeadsTo later →
      after.RestsSince later m target (w.now + target.delay .afterStop) ∧
      ((later.deregister? m).isSome = true ↔ w.now + target.delay .afterStop ≤ later.now) ∧
      ∀ last answer, later.CallsStop m last answer →
        w.now + target.delay .afterStop ≠ later.now + target.stopLimit →
        later.StopsWithin last m target.registry target.stopLimit (w.now + target.delay .afterStop) answer) ∧
    (target.phase = .running → ∀ last answer, w.CallsStop m last answer →
      (target.stopLimit ≠ 0 → (w.cancel m).SeesCancellation last m ∧ last.RefusesForGood m ∧
        (target.delay .afterStop ≠ target.stopLimit →
          w.StopsWithin last m target.registry target.stopLimit (w.now + target.delay .afterStop) answer)) ∧
      (target.stopLimit = 0 → answer = .stopTimedOut .wlc 0 ∧ last.now = w.now ∧ last.registries = w.registries ∧
        (w.cancel m).SeesCancellation last.settle m ∧ last.settle.RefusesForGood m)) := by
  constructor
  · intro move after later observes moved leads
    have rests := observes.restsSince reached moved leads
    refine ⟨rests, deregister?_iff rests, ?_⟩
    intro last answer calls apart
    have through := ((LeadsTo.single move moved).trans leads)
    have going := reached.leadsTo through
    obtain ⟨there, here, lasts⟩ := Changes.lasts (through.changes reached) found
    have limit := Changes.stopLimit (through.changes reached) found here
    have always : ∀ last, later.LeadsTo last →
        last.phase? m = some (.restingUntil (w.now + target.delay .afterStop) last.now) :=
      fun last more => (observes.restsSince reached moved (leads.trans more)).phase
    obtain ⟨stopped, stops, turns⟩ := calls.stops
    have outcome := stop_outcome_resting here always stops
    rw [← turns.now] at outcome
    rw [← limit] at apart ⊢
    rw [← lasts.registry]
    have hears := or_congr_left (c := w.now + target.delay .afterStop < later.now + there.stopLimit)
      (over_iff rests.phase)
    exact calls.within going here hears (always last (calls.leadsTo going)) outcome apart
  · intro running last answer calls
    have going := reached.cancel m
    constructor
    · intro patient
      obtain ⟨sees, outcome⟩ := calls.sees reached found running patient
      refine ⟨sees, sees.refuses going, ?_⟩
      intro apart
      have told := cancel_found found
      have rests := sees.resting going told
      rw [cancel, wake_now] at rests
      have unfinished : w.phase? m ≠ some .finished := by
        rw [phase?, found, Option.map_some, running]
        exact fun same => Phase.noConfusion (Option.some.inj same)
      -- a hook that takes no time is over in time, though it was not over before
      refine calls.within reached found ?_ rests outcome (by omega)
      constructor
      · rintro (past | early)
        · exact absurd past unfinished
        · exact Or.inr early
      · intro early
        right
        omega
    · intro impatient
      obtain ⟨timedOut, now, sees⟩ := calls.seesLater reached found running impatient
      refine ⟨timedOut, now, (calls.registries reached found).2 ?_, sees, sees.refuses going⟩
      exact timedOut ▸ fun same => Answer.noConfusion same

/-- A module whose last hook takes 45 milliseconds is told to stop, and stops of it wait for ten. -/
def toldWithSlowHook : List Move :=
  [.build ⟨"a", "r", "d", some { stopLimit := 10 }, [(.afterStop, { tag := .number 1, delay := 45 })]⟩, .enrol "a",
    .spawn ⟨"a", 0⟩, .cancel ⟨"a", 0⟩]

theorem second_stop_sees_slow_hook_over : ∃ later first second : World, later.Reachable ∧ later.now = 30 ∧
    later.stop ⟨"a", 0⟩ = (first, .stopTimedOut .wlc 10) ∧ first.now = 40 ∧
    first.registration? ⟨"r", 0⟩ .wlc = some ⟨"a", 0⟩ ∧
    first.stop ⟨"a", 0⟩ = (second, .ok) ∧ second.now = 45 ∧ second.registration? ⟨"r", 0⟩ .wlc = none := by
  obtain ⟨w, played⟩ :=
    Option.isSome_iff_exists.1 (by decide : (({} : World).play? toldWithSlowHook).isSome = true)
  have state : (({} : World).play? toldWithSlowHook).map (fun w =>
    (w.now, (w.modules.get? ⟨"a", 0⟩).map fun target => (target.phase, target.cancelled))) =
      some (0, some (.running, true)) := by decide
  have made : (({} : World).play? toldWithSlowHook).map (fun w =>
    (w.modules.get? ⟨"a", 0⟩).map fun target => (target.registry, target.stopLimit, target.delay .afterStop)) =
      some (some (⟨"r", 0⟩, 10, 45)) := by decide
  have seen : (({} : World).play? toldWithSlowHook).map (fun w => (w.attend? ⟨"a", 0⟩).map fun after =>
    (after.now, after.registration? ⟨"r", 0⟩ .wlc)) = some (some (0, some ⟨"a", 0⟩)) := by decide
  rw [played] at state made seen
  obtain ⟨start, there⟩ := Prod.mk.inj (Option.some.inj state)
  obtain ⟨target, found, same⟩ := Option.map_eq_some_iff.1 there
  obtain ⟨running, cancelled⟩ := Prod.mk.inj same
  have settings := Option.some.inj made
  simp only [found, Option.map_some, Option.some.injEq, Prod.mk.injEq] at settings
  obtain ⟨registry, limit, delay⟩ := settings
  obtain ⟨after, attended, same⟩ := Option.map_eq_some_iff.1 (Option.some.inj seen)
  obtain ⟨began, stood⟩ := Prod.mk.inj same
  have reached : w.Reachable := ⟨_, played⟩
  have observes : w.Observes ⟨"a", 0⟩ target (.attend ⟨"a", 0⟩) := .observe found running cancelled
  have moved : w.move? (.attend ⟨"a", 0⟩) = some after := attended
  have passes : after.LeadsTo (after.advance 30) := (advance_goesOn (by rw [began]; decide)).leadsTo
  obtain ⟨stops, -⟩ := stop_returns_ok_iff_last_hook_over_in_time reached found
  rw [start, delay, limit, registry] at stops
  obtain ⟨rests, -, stopsLater⟩ := stops _ after _ observes moved passes
  generalize gone : after.advance 30 = later at passes rests stopsLater
  have now : later.now = 30 := gone ▸ rfl
  have closing : later.phase? ⟨"a", 0⟩ = some (.closing 45) := by
    rw [rests.phase, now]
    decide
  obtain ⟨⟨first, answer⟩, stopped⟩ : ∃ outcome, later.stop ⟨"a", 0⟩ = outcome := ⟨_, rfl⟩
  have early := stopsLater first answer (.call stopped) (by rw [now]; decide)
  have refused : answer ≠ .ok := by
    rw [Ne, early.ok_iff, closing, now]
    decide
  have gaveUp := early.givesUp refused
  have nowThen : first.now = 40 := by rw [gaveUp.now, now]
  obtain ⟨⟨second, last⟩, stoppedAgain⟩ : ∃ outcome, first.stop ⟨"a", 0⟩ = outcome := ⟨_, rfl⟩
  obtain ⟨-, -, stopsAgain⟩ := stops _ after first observes moved (passes.trans early.leads)
  have again := stopsAgain second last (.call stoppedAgain) (by rw [nowThen]; decide)
  have ok : last = .ok := by
    rw [again.ok_iff, nowThen]
    exact Or.inr (by decide)
  rw [gaveUp.answer] at stopped
  rw [ok] at stoppedAgain
  refine ⟨later, first, second, reached.leadsTo ((LeadsTo.single _ moved).trans passes), now, stopped, nowThen, ?_,
    stoppedAgain, ?_, (again.inTime ok).unregistered⟩
  · rw [registration?_congr gaveUp.registries, ← gone, registration?_congr (after.advance_registries 30)]
    exact stood
  · rw [(again.inTime ok).now, nowThen]
    decide

end World

end WirelessCharging
