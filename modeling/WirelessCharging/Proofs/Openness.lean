import WirelessCharging.Proofs.Placement
import WirelessCharging.Proofs.Registration
import WirelessCharging.Proofs.Senders
import WirelessCharging.Proofs.Stages
import WirelessCharging.Proofs.Stopping
/-!
How long an inbox is open: from the time that its module is built until its dispatcher sees its cancellation, or
until the module is dropped idle. A dispatcher comes to its end for no other reason than a stop.
-/
namespace WirelessCharging

/-- A move that ends the time in which a module receives. -/
def World.Shuts (w : World) (m : ModuleRef) (move : Move) : Prop :=
  ∃ target, w.Observes m target move ∨ w.Drops m target move

/-- The inbox of a module, if there is one yet, has not been shut. -/
def World.IsOpen (w : World) (m : ModuleRef) : Prop :=
  ∀ target, w.modules.get? m = some target → target.inbox.isReceiving = true

/-- One world leads to another by moves that tell no module to stop but, at most, this one. -/
def World.LeadsStopping (stopped : Option ModuleRef) (w later : World) : Prop :=
  ∃ moves, (∀ m, Move.cancel m ∈ moves → stopped = some m) ∧ w.play? moves = some later

namespace World

theorem Reachable.conserved {w : World} (reached : w.Reachable) {m : ModuleRef} {target : Module}
    (found : w.modules.get? m = some target) : target.Conserves (w.accepted m) (w.taken m) := by
  have conserved := Occurs.conserved reached.changes m
  rwa [found] at conserved

theorem Shuts.found {w : World} {m : ModuleRef} {move : Move} (shuts : w.Shuts m move) :
    ∃ target, w.modules.get? m = some target ∧ (w.Observes m target move ∨ w.Drops m target move) := by
  obtain ⟨target, observes | drops⟩ := shuts
  · cases observes with
    | observe found running cancelled => exact ⟨target, found, Or.inl (.observe found running cancelled)⟩
  · cases drops with
    | drop idle => exact ⟨target, (idle?_found idle).1, Or.inr (.drop idle)⟩
    | replace given idle => exact ⟨target, (idle?_found idle).1, Or.inr (.replace given idle)⟩
    | refuse idle taken => exact ⟨target, (idle?_found idle).1, Or.inr (.refuse idle taken)⟩

theorem Fate.receiving {w : World} {m : ModuleRef} {move : Move} {target there : Module}
    (h : w.Fate m move target there) (receiving : target.inbox.isReceiving = true)
    (state : target.inbox.state = target.phase.inboxState) :
    there.inbox.isReceiving = true ↔ ¬ (w.Observes m target move ∨ w.Drops m target move) := by
  have stays : ∀ {after : Module}, after.inbox.isReceiving = true → w.Ordinary m target move →
      (after.inbox.isReceiving = true ↔ ¬ (w.Observes m target move ∨ w.Drops m target move)) :=
    fun still ordinary => iff_of_true still (not_or.2 ⟨ordinary.observes, ordinary.drops⟩)
  cases h with
  | kept ordinary more => exact stays receiving ordinary
  | enrolled enrols more =>
    refine iff_of_true receiving (not_or.2 ⟨?_, enrols.not_drops⟩)
    intro observes
    cases enrols
    cases observes
  | dropped drops => exact iff_of_false Bool.false_ne_true (not_not_intro (Or.inr drops))
  | spawned named launching => exact stays receiving (ordinary_of_not_turning (by rw [named]; rfl))
  | took named running kept took context more =>
    rw [Inbox.take?_eq_some.1 took] at receiving
    refine iff_of_true receiving (not_or.2 ⟨?_, ?_⟩)
    · intro observes
      cases observes with
      | observe found running cancelled =>
        rw [kept] at cancelled
        cases cancelled
    · intro drops
      have idle := drops.idle
      rw [running] at idle
      cases idle
  | closed observes wake more => exact iff_of_false Bool.false_ne_true (not_not_intro (Or.inl observes))
  | closedAtOnce observes wake more => exact iff_of_false Bool.false_ne_true (not_not_intro (Or.inl observes))
  | rested named closing =>
    rw [Inbox.isReceiving, state, closing] at receiving
    cases receiving
  | cancelled named => exact stays receiving (ordinary_of_not_turning (by rw [named]; rfl))

theorem move_isOpen {w after : World} (reached : w.Reachable) {move : Move} (moved : w.move? move = some after)
    {m : ModuleRef} (unshut : w.IsOpen m) : after.IsOpen m ↔ ¬ w.Shuts m move := by
  cases before : w.modules.get? m with
  | none =>
    refine iff_of_true ?_ ?_
    · intro target found
      exact (move_fresh moved before found).receiving
    · intro shuts
      obtain ⟨target, found, -⟩ := shuts.found
      rw [before] at found
      cases found
  | some target =>
    obtain ⟨there, here, fate⟩ := move_fares reached.numbered moved before
    have stays := fate.receiving (unshut target before) (reached.conserved before).state
    constructor
    · intro still shuts
      obtain ⟨same, found, turns⟩ := shuts.found
      obtain rfl := Option.some.inj (found.symm.trans before)
      exact stays.1 (still there here) turns
    · intro spared last found
      obtain rfl := Option.some.inj (found.symm.trans here)
      exact stays.2 fun turns => spared ⟨target, turns⟩

/-- Over a run an inbox stays open exactly as long as no move shuts it. -/
theorem play_isOpen {w last : World} (reached : w.Reachable) {moves : List Move} (played : w.play? moves = some last)
    {m : ModuleRef} (unshut : w.IsOpen m) :
    last.IsOpen m ↔ w.Throughout (fun moment move => ¬ moment.Shuts m move) moves := by
  induction moves generalizing w with
  | nil =>
    obtain rfl := Option.some.inj played
    exact iff_of_true unshut trivial
  | cons move rest ih =>
    obtain ⟨after, moved, through⟩ := play?_cons.1 played
    have going := reached.leadsTo (.single move moved)
    have stays := move_isOpen reached moved unshut
    rw [throughout_cons moved]
    by_cases still : after.IsOpen m
    · rw [ih going through still, and_iff_right (stays.1 still)]
    · refine iff_of_false ?_ fun throughout => still (stays.2 throughout.1)
      intro reopened
      refine still fun target found => ?_
      cases shut : target.inbox.isReceiving with
      | true => rfl
      | false =>
        obtain ⟨there, here, lasts⟩ := Changes.lasts (play_changes going.numbered through) found
        exact (lasts.shut shut).symm.trans (reopened there here)

theorem move_cancelled {w after : World} (numbered : w.modules.Numbered) {move : Move}
    (moved : w.move? move = some after) {m : ModuleRef} (spared : move ≠ .cancel m)
    (untold : ∀ target, w.modules.get? m = some target → target.cancelled = false) {target : Module}
    (found : after.modules.get? m = some target) : target.cancelled = false := by
  cases before : w.modules.get? m with
  | none => exact (move_fresh moved before found).cancelled
  | some there =>
    obtain ⟨last, here, fate⟩ := move_fares numbered moved before
    obtain rfl := Option.some.inj (here.symm.trans found)
    have same := untold there before
    cases fate with
    | cancelled named => exact absurd named spared
    | _ => exact same

theorem play_cancelled {w last : World} (numbered : w.modules.Numbered) {moves : List Move}
    (played : w.play? moves = some last) {m : ModuleRef} (spared : Move.cancel m ∉ moves)
    (untold : ∀ target, w.modules.get? m = some target → target.cancelled = false) {target : Module}
    (found : last.modules.get? m = some target) : target.cancelled = false := by
  induction moves generalizing w with
  | nil =>
    obtain rfl := Option.some.inj played
    exact untold target found
  | cons move rest ih =>
    obtain ⟨after, moved, through⟩ := play?_cons.1 played
    rw [List.mem_cons, not_or] at spared
    refine ih (move_numbered numbered moved) through spared.2 ?_
    intro there here
    exact move_cancelled numbered moved (fun named => spared.1 named.symm) untold here

theorem LeadsStopping.single {stopped : Option ModuleRef} {w after : World} (move : Move)
    (told : ∀ m, move = .cancel m → stopped = some m) (moved : w.move? move = some after) :
    w.LeadsStopping stopped after := by
  refine ⟨[move], ?_, play?_cons.2 ⟨after, moved, rfl⟩⟩
  intro m member
  exact told m (List.mem_singleton.1 member).symm

theorem LeadsStopping.other {stopped : Option ModuleRef} {w after : World} (move : Move)
    (other : ∀ m, move ≠ .cancel m) (moved : w.move? move = some after) : w.LeadsStopping stopped after :=
  .single move (fun m named => absurd named (other m)) moved

theorem LeadsStopping.trans {stopped : Option ModuleRef} {w middle last : World}
    (first : w.LeadsStopping stopped middle) (rest : middle.LeadsStopping stopped last) :
    w.LeadsStopping stopped last := by
  obtain ⟨moves, told, played⟩ := first
  obtain ⟨more, toldLater, through⟩ := rest
  refine ⟨moves ++ more, ?_, (play?_append moves more).2 ⟨middle, played, through⟩⟩
  intro m member
  rcases List.mem_append.1 member with now | later
  · exact told m now
  · exact toldLater m later

theorem GoesOn.leadsStopping {stopped : Option ModuleRef} {w later : World} (h : w.GoesOn later) :
    w.LeadsStopping stopped later := by
  obtain ⟨moves, own, played⟩ := h
  refine ⟨moves, ?_, played⟩
  intro m member
  cases own _ member

theorem stop_leadsStopping {w after : World} (reached : w.Reachable) {m : ModuleRef} {answer : Answer}
    (h : w.stop m = (after, answer)) : w.LeadsStopping (some m) after := by
  cases found : w.modules.get? m with
  | none =>
    simp only [stop, found, Prod.mk.injEq] at h
    exact h.1 ▸ (GoesOn.refl w).leadsStopping
  | some target =>
    obtain ⟨waited, goes, past⟩ := stop_moves reached found h
    have told : w.LeadsStopping (some m) (w.cancel m) :=
      .single (.cancel m) (fun other same => congrArg some (Move.cancel.inj same)) rfl
    rcases past with ⟨-, removed, -⟩ | ⟨-, rfl⟩
    · exact (told.trans goes.leadsStopping).trans (.other (.deregister m) (by simp) removed)
    · exact told.trans goes.leadsStopping

theorem launch_leadsStopping {stopped : Option ModuleRef} {w after : World} (reached : w.Reachable) {name : String}
    {answer : Answer} (h : w.launch name = (after, answer)) : w.LeadsStopping stopped after := by
  rcases launch_moves reached h with ⟨rfl, -⟩ | ⟨dropped, -⟩ |
    ⟨m, target, enrolled, waited, -, -, first, waits, second, -⟩
  · exact (GoesOn.refl after).leadsStopping
  · exact .other (.enrol name) (by simp) dropped
  · have enrols : w.LeadsStopping stopped enrolled := .other (.enrol name) (by simp) first
    exact (enrols.trans waits.leadsStopping).trans (.other (.spawn m) (by simp) second)

theorem step?_leadsStopping {w after : World} {step : Step} {answer : Answer} (reached : w.Reachable)
    (h : w.step? step = some (after, answer)) : w.LeadsStopping (w.stopTarget? step) after := by
  have quiet : ∀ (move : Move), (∀ m, move ≠ .cancel m) → ∀ {last : World} {reply : Answer},
      w.move? move = some last → some (last, reply) = some (after, answer) →
      w.LeadsStopping (w.stopTarget? step) after := by
    intro move other last reply moved same
    obtain rfl := congrArg Prod.fst (Option.some.inj same)
    exact .other move other moved
  have goes : ∀ {last : World} {reply : Answer}, w.GoesOn last → some (last, reply) = some (after, answer) →
      w.LeadsStopping (w.stopTarget? step) after := by
    intro last reply went same
    obtain rfl := congrArg Prod.fst (Option.some.inj same)
    exact went.leadsStopping
  cases named : w.stopTarget? step with
  | some m =>
    obtain ⟨stopped, stops, rfl⟩ := step?_stop named h
    exact (stop_leadsStopping reached stops).trans stopped.settle_goesOn.leadsStopping
  | none =>
    rw [named] at quiet goes
    cases step with
    | act action => exact quiet (.act action) (by simp) rfl h
    | build plan =>
      refine quiet (.build plan) (by simp) ?_ rfl
      simp only [move?, show w.follow? plan = _ from h, Option.map_some]
    | launch name => exact launch_leadsStopping reached (Option.some.inj h)
    | stop name =>
      simp only [step?, stopNamed, show w.modules.latest? name = none from named] at h
      exact goes w.settle_goesOn h
    | disable name =>
      simp only [step?, stopNamed, show w.modules.latest? name = none from named] at h
      exact goes w.settle_goesOn h
    | shutdown runtime =>
      unfold stopTarget? at named
      simp only [step?, shutdown, named] at h
      exact goes w.settle_goesOn h
    | drain => exact goes w.settle_goesOn h
    | wait milliseconds => exact goes ((w.elapse_goesOn milliseconds).trans (settle_goesOn _)) h
    | newRuntime runtime => exact quiet (.newRuntime runtime) (by simp) rfl h
    | cloneRuntime runtime source => exact quiet (.cloneRuntime runtime source) (by simp) rfl h
    | dropRuntime runtime => exact quiet (.dropRuntime runtime) (by simp) rfl h
    | dropIdle name => exact quiet (.dropIdle name) (by simp) rfl h
    | inspect name => exact goes (.refl w) h

theorem hooking_modules (w : World) (m : ModuleRef) (target : Module) (kind : HookKind) :
    (w.hooking m target kind).1.modules = w.modules := by
  unfold hooking
  split <;> rfl

theorem Enrols.takesUpTo {w : World} (reached : w.Reachable) {m : ModuleRef} {target : Module} {move : Move}
    (enrols : w.Enrols m target move) {call : World × Action} (member : call ∈ w.callsIn move) :
    call.1.TakesUpTo m target.inbox.capacity := by
  cases enrols with
  | @enrol name idle vacant =>
    obtain ⟨found, waiting⟩ := idle?_found idle
    let registered := (w.register target.registry m).setPhase m .launching
    have calls : w.callsIn (.enrol name) = (registered.hooking m target .beforeStart).1.callsOf
        (registered.hooking m target .beforeStart).2 := by
      simp only [callsIn, calling, enrolling, idle, vacant]
      rfl
    rw [calls] at member
    have there : registered.modules.get? m = some { target with phase := .launching } := by
      simp [registered, register, setPhase, adjustModule, found]
    have enters : Change (.enrol name) w registered := .enrol found waiting name rfl vacant
    have hooked : ChangesIn (.enrol name) registered (registered.hooking m target .beforeStart).1 :=
      hooking_changes _ _ _ _
    have called := callsOf_deeds member
    have occurs : call.1.Occurs :=
      reached.changes.trans (ChangesIn.changes ((hooked.head enters).trans called.changes))
    rw [← hooking_modules registered m target .beforeStart] at there
    obtain ⟨more, here, -⟩ := called.posted there
    have receiving := ((reached.conserved found).receiving (by rw [waiting]; rfl)).1
    have takes := takesUpTo_capacity occurs here receiving
    exact takes

theorem Observes.refuses {w : World} {m : ModuleRef} {target : Module} {move : Move}
    (observes : w.Observes m target move) {call : World × Action} (member : call ∈ w.callsIn move) :
    call.1.Refuses m := by
  cases observes with
  | observe found running cancelled =>
    let closed := (w.adjustModule m (·.closingUntil (w.now + target.delay .afterStop))).record (.closed m)
    have calls : w.callsIn (.attend m) = (closed.hooking m target .afterStop).1.callsOf
        (closed.hooking m target .afterStop).2 := by
      simp [callsIn, calling, attending, found, running, cancelled, closed]
    rw [calls] at member
    have there : (closed.hooking m target .afterStop).1.modules.get? m =
        some (target.closingUntil (w.now + target.delay .afterStop)) := by
      rw [hooking_modules]
      simp [closed, record, adjustModule, found]
    obtain ⟨more, here, -⟩ := (callsOf_deeds member).posted there
    exact refuses_of_shut here rfl

/-- Over the whole life of a module, in every run, its inbox is open until the first move in which its dispatcher
sees its cancellation or the idle module is dropped, and it is never opened again. The module and its dispatcher have
their own sender to it as long as they need one, whoever else lets go: nothing is ever over because nobody has one,
the inbox is open when the dispatcher starts, and the dispatcher leaves off only if it was told to stop, which nothing
but a stop does. During the first hook submissions are accepted as long as there is room, and during the last one
they are refused, even where there is none. -/
theorem inbox_is_open_until_shut {moves : List Move} {w : World} (played : ({} : World).strictPlay? moves = some w)
    {m : ModuleRef} {target : Module} (found : w.modules.get? m = some target) :
    (target.inbox.isReceiving = true ↔ ({} : World).Throughout (fun moment move => ¬ moment.Shuts m move) moves) ∧
      (target.inbox.isReceiving = false → ∀ later there, Changes w later → later.modules.get? m = some there →
        there.inbox.isReceiving = false) ∧
      (({} : World).play? moves = some w ∧ (∀ more, w.strictPlay? more = w.play? more) ∧
        ∀ later there, Changes w later → later.modules.get? m = some there →
          later.Supplies m ∧ later.loop? m = later.attend? m ∧
          (there.phase = .running → there.inbox.receive (later.holders m) ≠ .over) ∧
          (there.phase = .launching → there.inbox.isClosedTo (later.holders m) = false)) ∧
      (target.phase.isEnding = true → target.cancelled = true ∧ Move.cancel m ∈ moves) ∧
      (∀ step after answer there, target.cancelled = false → w.step? step = some (after, answer) →
        after.modules.get? m = some there → there.cancelled = true → w.stopTarget? step = some m) ∧
      (∀ later there, Changes w later → later.modules.get? m = some there →
        (there.phase = .launching → later.TakesUpTo m there.inbox.capacity) ∧
        ∀ wake, there.phase = .closing wake → later.Refuses m) ∧
      (∀ move, w.Enrols m target move → ∀ call ∈ w.callsIn move, call.1.TakesUpTo m target.inbox.capacity) ∧
      ∀ move, w.Observes m target move → ∀ call ∈ w.callsIn move, call.1.Refuses m := by
  rw [strictPlay?_eq reachable_empty] at played
  have reached : w.Reachable := ⟨moves, played⟩
  have conserved := reached.conserved found
  refine ⟨?_, ?_, ?_, ?_, ?_, ?_, ?_, ?_⟩
  · rw [← play_isOpen reachable_empty played fun _ absent => nomatch absent]
    constructor
    · intro receiving there here
      obtain rfl := Option.some.inj (here.symm.trans found)
      exact receiving
    · intro unshut
      exact unshut target found
  · intro shut later there changes here
    obtain ⟨last, same, lasts⟩ := Changes.lasts changes found
    obtain rfl := Option.some.inj (same.symm.trans here)
    exact lasts.shut shut
  · refine ⟨played, strictPlay?_eq reached, ?_⟩
    intro later there changes here
    have occurs : later.Occurs := reached.changes.trans changes
    refine ⟨occurs.supplies m, occurs.loop?_eq m, fun running => occurs.receives here running, ?_⟩
    intro launching
    exact occurs.unclosed here (by rw [launching]; rfl)
  · intro ending
    have cancelled := conserved.cancelled_of_isEnding ending
    refine ⟨cancelled, ?_⟩
    by_contra spared
    rw [play_cancelled numbered_empty played spared (fun _ absent => nomatch absent) found] at cancelled
    cases cancelled
  · intro step after answer there untold stepped here cancelled
    obtain ⟨more, told, through⟩ := step?_leadsStopping reached stepped
    refine told m ?_
    by_contra spared
    have still : ∀ other, w.modules.get? m = some other → other.cancelled = false := by
      intro other same
      obtain rfl := Option.some.inj (same.symm.trans found)
      exact untold
    rw [play_cancelled reached.numbered through spared still here] at cancelled
    cases cancelled
  · intro later there changes here
    have occurs : later.Occurs := reached.changes.trans changes
    have later_conserved := occurs.conserved m
    rw [here] at later_conserved
    constructor
    · intro launching
      exact takesUpTo_capacity occurs here (later_conserved.receiving (by rw [launching]; rfl)).1
    · intro wake closing
      apply refuses_of_shut here
      rw [Inbox.isReceiving, later_conserved.state, closing]
      rfl
  · intro move enrols call member
    exact enrols.takesUpTo reached member
  · intro move observes call member
    exact observes.refuses member

/-- A module with room for one envelope is told to stop while one waits, and its last hook hands in another. By then
the device has let go of its transfer, both handles and the runtime are gone, and the registry, which the stop of
another module has emptied, holds nothing, so that nobody but the dispatcher has a sender. -/
def stoppedWhenFull : List Move :=
  [.build ⟨"a", "r", "d", some { inboxCapacity := 1 }, [(.afterStop, { script := [.notify "a" (.ended 3)] })]⟩,
    .enrol "a", .spawn ⟨"a", 0⟩, .act (.transfer "a" 0 1), .attend ⟨"a", 0⟩, .clone ⟨"a", 0⟩,
    .act (.notify "a" (.ended 3)), .build ⟨"b", "r", "d", some {}, []⟩, .cancel ⟨"b", 0⟩, .deregister ⟨"b", 0⟩,
    .dropIdle "b", .dropRuntime "r", .drop ⟨⟨"a", 0⟩, .device 0⟩, .drop ⟨⟨"a", 0⟩, .caller⟩,
    .drop ⟨⟨"a", 0⟩, .caller⟩, .cancel ⟨"a", 0⟩]

theorem last_hook_refused_when_full : ∃ w target call, ({} : World).strictPlay? stoppedWhenFull = some w ∧
    w.modules.get? ⟨"a", 0⟩ = some target ∧ w.senders = [⟨⟨"a", 0⟩, .dispatcher⟩] ∧
    target.inbox.isReceiving = true ∧ target.inbox.queue.length = target.inbox.capacity ∧
    call ∈ w.callsIn (.attend ⟨"a", 0⟩) ∧ call.1.Refuses ⟨"a", 0⟩ := by
  obtain ⟨w, played⟩ :=
    Option.isSome_iff_exists.1 (by decide : (({} : World).strictPlay? stoppedWhenFull).isSome = true)
  have state : (({} : World).strictPlay? stoppedWhenFull).map (fun w => (w.modules.get? ⟨"a", 0⟩).map fun target =>
    (target.phase, target.cancelled, target.inbox.isReceiving, target.inbox.queue.length, target.inbox.capacity)) =
      some (some (.running, true, true, 1, 1)) := by decide
  have senders : (({} : World).strictPlay? stoppedWhenFull).map (·.senders) =
      some [⟨⟨"a", 0⟩, .dispatcher⟩] := by decide
  have calls : (({} : World).strictPlay? stoppedWhenFull).map (fun w => (w.callsIn (.attend ⟨"a", 0⟩)).length) =
    some 1 := by decide
  rw [played] at state senders calls
  obtain ⟨target, found, same⟩ := Option.map_eq_some_iff.1 (Option.some.inj state)
  simp only [Prod.mk.injEq] at same
  obtain ⟨running, cancelled, receiving, waiting, room⟩ := same
  obtain ⟨call, member⟩ := List.exists_mem_of_length_pos (Nat.lt_of_lt_of_eq Nat.one_pos (Option.some.inj calls).symm)
  obtain ⟨-, -, -, -, -, -, -, last⟩ := inbox_is_open_until_shut played found
  exact ⟨w, target, call, played, found, Option.some.inj senders, receiving, waiting.trans room.symm, member,
    last _ (.observe found running cancelled) call member⟩

end World

end WirelessCharging
