import WirelessCharging.Proofs.Promises
import WirelessCharging.Proofs.Prompt
/-!
Letting dispatchers run comes to an end, in whatever order they take turns. Every envelope that is taken was waiting
in the inbox of a dispatcher at the beginning or has been promised by a script, and everything else that a
dispatcher can do is to close down, once. What is left in the end are dispatchers that wait at empty inboxes, and
modules without a dispatcher that have received what scripts have posted.
-/
namespace WirelessCharging

namespace Module

/-- The envelopes that a dispatcher takes if it is left to itself. -/
def backlog (target : Module) : Nat :=
  if target.phase = .running ∧ target.cancelled = false then target.inbox.queue.length else 0

/-- The dispatcher has been told to stop and has not seen it yet. -/
def isLeaving (target : Module) : Bool := target.phase == .running && target.cancelled

/-- The posts of a last hook that is going to be called next. -/
def farewell (target : Module) : Nat := if target.isLeaving then target.hookPosts .afterStop else 0

theorem backlog_of_waiting {target : Module} (waiting : target.phase ≠ .running) : target.backlog = 0 :=
  if_neg fun both => waiting both.1

theorem backlog_of_cancelled {target : Module} (cancelled : target.cancelled = true) : target.backlog = 0 :=
  if_neg fun both => by rw [cancelled] at both; cases both.2

/-- A weight of modules that neither inbox nor context has a part in, and that only dispatchers have. -/
structure Steady (weight : Module → Nat) : Prop where
  inbox : ∀ target inbox, weight (target.withInbox inbox) = weight target
  context : ∀ target context, weight (target.withContext context) = weight target
  past : ∀ target : Module, target.phase ≠ .running → weight target = 0

theorem steady_leaving : Steady fun target => target.isLeaving.toNat := by
  refine ⟨fun _ _ => rfl, fun _ _ => rfl, ?_⟩
  intro target waiting
  have staying : target.isLeaving = false := by
    rw [isLeaving, beq_eq_false_iff_ne.2 waiting, Bool.false_and]
  rw [staying]
  rfl

theorem steady_farewell : Steady farewell := by
  refine ⟨fun _ _ => rfl, fun _ _ => rfl, ?_⟩
  intro target waiting
  have staying : target.isLeaving = false := by
    rw [isLeaving, beq_eq_false_iff_ne.2 waiting, Bool.false_and]
  rw [farewell, staying]
  rfl

end Module

namespace World

def backlog (w : World) : Nat := w.modules.total Module.backlog

/-- How many dispatchers are going to close down. -/
def leaving (w : World) : Nat := w.modules.total fun target => target.isLeaving.toNat

def farewells (w : World) : Nat := w.modules.total Module.farewell

/-- Whatever has been taken was waiting before or has been accepted meanwhile. -/
def WorksOff (w later : World) : Prop :=
  later.takings + later.backlog + w.acceptances ≤ w.takings + w.backlog + later.acceptances

theorem WorksOff.refl (w : World) : w.WorksOff w := Nat.le_refl _

theorem WorksOff.trans {w middle last : World} (first : w.WorksOff middle) (rest : middle.WorksOff last) :
    w.WorksOff last := by
  simp only [WorksOff] at first rest ⊢
  omega

theorem worksOff_of_same {w later : World} (journal : later.journal = w.journal)
    (backlog : later.backlog ≤ w.backlog) : w.WorksOff later := by
  have takings : later.takings = w.takings := by rw [takings, noted_congr _ journal, World.takings]
  have acceptances : later.acceptances = w.acceptances := by
    rw [acceptances, noted_congr _ journal, World.acceptances]
  simp only [WorksOff, takings, acceptances]
  omega

theorem worksOff_record (w : World) {entry : Entry} (accepts : entry.acceptance? = none)
    (takes : entry.taking? = none) : w.WorksOff (w.record entry) := by
  have takings : (w.record entry).takings = w.takings := takings_of_none rfl takes
  have acceptances : (w.record entry).acceptances = w.acceptances := acceptances_of_none rfl accepts
  have backlog : (w.record entry).backlog = w.backlog := rfl
  simp only [WorksOff, takings, acceptances, backlog]
  exact Nat.le_refl _

theorem total_adjustModule (w : World) {m : ModuleRef} {target : Module} (found : w.modules.get? m = some target)
    (f : Module → Module) (weight : Module → Nat) :
    (w.adjustModule m f).modules.total weight + weight target = w.modules.total weight + weight (f target) :=
  w.modules.total_adjust m f weight found

theorem backlog_adjust (w : World) {m : ModuleRef} {target : Module} (found : w.modules.get? m = some target)
    (f : Module → Module) : (w.adjustModule m f).backlog + target.backlog = w.backlog + (f target).backlog :=
  w.total_adjustModule found f Module.backlog

theorem worksOff_adjust (w : World) {m : ModuleRef} {target : Module} (found : w.modules.get? m = some target)
    {f : Module → Module} (lighter : (f target).backlog ≤ target.backlog) : w.WorksOff (w.adjustModule m f) := by
  refine worksOff_of_same rfl ?_
  have changed := w.backlog_adjust found f
  omega

theorem worksOff_leave (w : World) {m : ModuleRef} {target : Module} (found : w.modules.get? m = some target)
    {f : Module → Module} (left : (f target).phase ≠ .running) : w.WorksOff (w.adjustModule m f) := by
  refine w.worksOff_adjust found ?_
  rw [Module.backlog_of_waiting left]
  exact Nat.zero_le _

theorem worksOff_accept (w : World) {m : ModuleRef} {target : Module} (found : w.modules.get? m = some target)
    {envelope : Envelope} {inbox : Inbox} (posted : target.inbox.post envelope = .ok inbox) :
    w.WorksOff (((w.setInbox m inbox).record (.accepted m envelope)).wake m) := by
  let queued := (w.setInbox m inbox).record (.accepted m envelope)
  have changed := w.backlog_adjust found (·.withInbox inbox)
  have length := target.inbox.length_post posted
  have longer : (target.withInbox inbox).backlog ≤ target.backlog + 1 := by
    by_cases atWork : target.phase = .running ∧ target.cancelled = false
    · have before : target.backlog = target.inbox.queue.length := if_pos atWork
      have after : (target.withInbox inbox).backlog = inbox.queue.length := if_pos atWork
      omega
    · have none_taken : (target.withInbox inbox).backlog = 0 := if_neg atWork
      omega
  have backlog : (queued.wake m).backlog = (w.adjustModule m (·.withInbox inbox)).backlog := by
    rw [World.backlog, wake_modules]
    rfl
  have accepted : (queued.wake m).acceptances = w.acceptances + 1 := acceptances_cons (queued.wake_journal m)
  have taken : (queued.wake m).takings = w.takings := takings_of_none (queued.wake_journal m) rfl
  simp only [WorksOff, queued] at backlog accepted taken ⊢
  omega

theorem worksOff_took (w : World) {m : ModuleRef} {target : Module} (found : w.modules.get? m = some target)
    (running : target.phase = .running) (kept : target.cancelled = false) {envelope : Envelope} {inbox : Inbox}
    (took : target.inbox.take? = some (envelope, inbox)) : w.WorksOff (w.took m envelope inbox) := by
  have changed := w.backlog_adjust found (·.withInbox inbox)
  have length := target.inbox.length_take took
  have before : target.backlog = target.inbox.queue.length := if_pos ⟨running, kept⟩
  have left : (target.withInbox inbox).backlog = inbox.queue.length := if_pos ⟨running, kept⟩
  have backlog : (w.took m envelope inbox).backlog = (w.adjustModule m (·.withInbox inbox)).backlog := rfl
  have taken : (w.took m envelope inbox).takings = w.takings + 1 := takings_cons (w := w) rfl
  have accepted : (w.took m envelope inbox).acceptances = w.acceptances := acceptances_of_none (w := w) rfl rfl
  simp only [WorksOff, World.took] at backlog accepted taken ⊢
  omega

theorem worksOff_cancel (w : World) (m : ModuleRef) : w.WorksOff (w.cancel m) := by
  refine worksOff_of_same (wake_journal _ _) ?_
  have same : (w.cancel m).backlog = (w.adjustModule m fun target => { target with cancelled := true }).backlog := by
    rw [cancel, World.backlog, wake_modules]
    rfl
  rw [same]
  cases found : w.modules.get? m with
  | none =>
    rw [World.backlog, adjustModule, Roster.adjust_of_get?_none _ _ _ found]
    exact Nat.le_refl _
  | some target =>
    have changed := w.backlog_adjust found fun target => { target with cancelled := true }
    have told : ({ target with cancelled := true } : Module).backlog = 0 := Module.backlog_of_cancelled rfl
    omega

end World

theorem Deed.worksOff {w later : World} (h : Deed w later) : w.WorksOff later := by
  cases h with
  | accept found posted => exact w.worksOff_accept found posted
  | aside => exact World.worksOff_of_same rfl (Nat.le_refl _)
  | note => exact w.worksOff_record rfl rfl
  | lend => exact World.worksOff_of_same rfl (Nat.le_refl _)

variable {move : Move}

/-- Only the start of a dispatcher brings work along. -/
theorem Change.worksOff {w later : World} (h : Change move w later) (starts_none : ∀ m, move ≠ .spawn m) :
    w.WorksOff later := by
  cases h with
  | deed h => exact h.worksOff
  | hook => exact w.worksOff_record rfl rfl
  | hookOver => exact w.worksOff_record rfl rfl
  | take found running kept took => exact w.worksOff_took found running kept took
  | handle envelope found =>
    refine (w.worksOff_adjust found (Nat.le_refl _)).trans (World.worksOff_record _ ?_ ?_)
    · apply World.outcome_unread
      all_goals intros; rfl
    · apply World.outcome_unread
      all_goals intros; rfl
  | close found running cancelled wake =>
    exact (w.worksOff_leave found fun same => Phase.noConfusion same).trans (World.worksOff_record _ rfl rfl)
  | finish found => exact w.worksOff_leave found fun same => Phase.noConfusion same
  | drop found => exact w.worksOff_leave found fun same => Phase.noConfusion same
  | @build name target fresh =>
    refine World.worksOff_of_same rfl ?_
    have idle : target.backlog = 0 :=
      Module.backlog_of_waiting fun running => Phase.noConfusion (fresh.phase.symm.trans running)
    simp only [World.backlog, World.addModule_modules, Roster.total_add, idle]
    exact Nat.le_refl _
  | @enrol m target found idle =>
    exact World.worksOff_leave (w.register target.registry m) found fun same => Phase.noConfusion same
  | @spawn m target found launching named => exact absurd named (starts_none m)
  | cancel m named => exact w.worksOff_cancel m
  | deregister => exact World.worksOff_of_same rfl (Nat.le_refl _)
  | newRuntime => exact World.worksOff_of_same rfl (Nat.le_refl _)
  | rename => exact World.worksOff_of_same rfl (Nat.le_refl _)
  | clock => exact World.worksOff_of_same rfl (Nat.le_refl _)
  | yield => exact World.worksOff_of_same rfl (Nat.le_refl _)
  | setFirstAside =>
    obtain ⟨ready, aside, same⟩ := w.setFirstAside_eq
    rw [same]
    exact World.worksOff_of_same rfl (Nat.le_refl _)
  | rejoin => exact World.worksOff_of_same rfl (Nat.le_refl _)
  | clone => exact World.worksOff_of_same rfl (Nat.le_refl _)
  | letGo => exact World.worksOff_of_same rfl (Nat.le_refl _)

theorem ChangesIn.worksOff {w later : World} (h : ChangesIn move w later) (starts_none : ∀ m, move ≠ .spawn m) :
    w.WorksOff later := by
  induction h with
  | refl => exact .refl w
  | tail _ change ih => exact ih.trans (change.worksOff starts_none)

theorem Deeds.total_eq {w later : World} (h : Deeds w later) {weight : Module → Nat} (steady : Module.Steady weight) :
    later.modules.total weight = w.modules.total weight := by
  induction h with
  | refl => rfl
  | tail _ deed ih =>
    rw [← ih]
    cases deed with
    | @accept m target envelope inbox found posted =>
      have changed := World.total_adjustModule _ found (·.withInbox inbox) weight
      rw [steady.inbox] at changed
      rw [World.wake_modules]
      exact Nat.add_right_cancel changed
    | aside => rfl
    | note => rfl
    | lend => rfl

namespace World

theorem finish_total (w : World) {m : ModuleRef} {target : Module} (found : w.modules.get? m = some target)
    {weight : Module → Nat} (steady : Module.Steady weight) :
    (w.finish m).modules.total weight + weight target = w.modules.total weight := by
  have changed := w.total_adjustModule found (·.ended .finished) weight
  rw [steady.past (target.ended .finished) fun same => Phase.noConfusion same] at changed
  exact changed

theorem closeDown_total (w : World) {m : ModuleRef} {target : Module} (found : w.modules.get? m = some target)
    {weight : Module → Nat} (steady : Module.Steady weight) :
    (w.closeDown m target).modules.total weight + weight target = w.modules.total weight := by
  let wake := w.now + target.delay .afterStop
  let closing := (w.adjustModule m (·.closingUntil wake)).record (.closed m)
  have closed : closing.modules.total weight + weight target = w.modules.total weight := by
    have changed := w.total_adjustModule found (·.closingUntil wake) weight
    rw [steady.past (target.closingUntil wake) fun same => Phase.noConfusion same] at changed
    exact changed
  have there : closing.modules.get? m = some (target.closingUntil wake) := by
    simp [closing, record, adjustModule, found]
  have called : (closing.callHook m target .afterStop).modules.total weight = closing.modules.total weight := by
    rcases closing.callHook_deeds m target .afterStop with same | ⟨tag, subscribed, deeds⟩
    · rw [same]
    · exact deeds.total_eq steady
  obtain ⟨more, here⟩ := closing.callHook_found m target .afterStop there
  have finished := finish_total _ here steady
  have gone : weight ((target.closingUntil wake).posted more) = 0 :=
    steady.past _ fun same => Phase.noConfusion same
  unfold closeDown
  dsimp only
  split
  · simp only [closing, wake] at closed called finished gone
    omega
  · rw [called]
    exact closed

theorem closeDown_takings (w : World) (m : ModuleRef) (target : Module) :
    (w.closeDown m target).takings = w.takings := by
  let closing := (w.adjustModule m (·.closingUntil (w.now + target.delay .afterStop))).record (.closed m)
  have closed : closing.noted Entry.taking? = w.noted Entry.taking? := noted_of_none (w := w) rfl rfl
  have called : (closing.callHook m target .afterStop).noted Entry.taking? = closing.noted Entry.taking? := by
    rcases closing.callHook_deeds m target .afterStop with same | ⟨tag, subscribed, deeds⟩
    · rw [same]
    · rw [deeds.noted_eq (fun _ _ => rfl) fun _ _ => rfl]
      exact noted_of_none (w := closing) rfl rfl
  have length := congrArg List.length (called.trans closed)
  unfold closeDown
  dsimp only
  split
  · exact length
  · exact length

/-- Taking an envelope and dealing with it leaves alone what a weight looks at. -/
theorem told_total (w : World) {m : ModuleRef} {target : Module} (found : w.modules.get? m = some target)
    (envelope : Envelope) (inbox : Inbox) {weight : Module → Nat} (steady : Module.Steady weight) :
    ((w.took m envelope inbox).told m (target.withInbox inbox) envelope).modules.total weight =
      w.modules.total weight := by
  have taken := w.total_adjustModule found (·.withInbox inbox) weight
  rw [steady.inbox] at taken
  have told := (w.took m envelope inbox).total_adjustModule (w.took_found envelope inbox found)
    (·.withContext ((w.took m envelope inbox).outcome m (target.withInbox inbox) envelope).1) weight
  rw [steady.context] at told
  exact (Nat.add_right_cancel told).trans (Nat.add_right_cancel taken)

/-- What becomes of a world while dispatchers go on so many times. -/
structure Spends (w : World) (attends : Nat) (later : World) : Prop where
  attended : later.takings + w.leaving = w.takings + later.leaving + attends
  worksOff : w.WorksOff later
  promised : later.ledger + later.farewells ≤ w.ledger + w.farewells

theorem Spends.refl (w : World) : w.Spends 0 w := ⟨rfl, .refl w, Nat.le_refl _⟩

theorem spends_aside (w : World) (ready setAside : List ModuleRef) : w.Spends 0 { w with ready, setAside } :=
  ⟨rfl, worksOff_of_same rfl (Nat.le_refl _), Nat.le_refl _⟩

theorem Spends.trans {w middle last : World} {attends more : Nat} (first : w.Spends attends middle)
    (rest : middle.Spends more last) : w.Spends (attends + more) last := by
  have attended := first.attended
  have also := rest.attended
  have promised := first.promised
  have alsoPromised := rest.promised
  exact ⟨by omega, first.worksOff.trans rest.worksOff, by omega⟩

theorem closeDown_spends (w : World) {m : ModuleRef} {target : Module} (found : w.modules.get? m = some target)
    (leaves : target.isLeaving = true) (worksOff : w.WorksOff (w.closeDown m target)) :
    w.Spends 1 (w.closeDown m target) := by
  have one_less := w.closeDown_total found Module.steady_leaving
  have farewell := w.closeDown_total found Module.steady_farewell
  have takings := w.closeDown_takings m target
  have ledger := w.ledger_closeDown_le m target
  rw [leaves, Bool.toNat_true] at one_less
  rw [Module.farewell, if_pos leaves] at farewell
  refine ⟨?_, worksOff, ?_⟩
  · simp only [leaving]
    omega
  · simp only [farewells]
    omega

theorem dispatch_spends (w : World) {m : ModuleRef} {target : Module} (found : w.modules.get? m = some target)
    {envelope : Envelope} {inbox : Inbox}
    (worksOff : w.WorksOff ((w.took m envelope inbox).dispatch m target envelope)) :
    w.Spends 1 ((w.took m envelope inbox).dispatch m target envelope) := by
  have deeds := dispatch_deeds _ m envelope (w.took_found envelope inbox found)
  rw [dispatch_withInbox] at deeds
  have weighs : ∀ {weight : Module → Nat}, Module.Steady weight →
      ((w.took m envelope inbox).dispatch m target envelope).modules.total weight = w.modules.total weight :=
    fun steady => (deeds.total_eq steady).trans (w.told_total found envelope inbox steady)
  have one_more : ((w.took m envelope inbox).dispatch m target envelope).takings = w.takings + 1 := by
    have told : ((w.took m envelope inbox).told m (target.withInbox inbox) envelope).takings =
        (w.took m envelope inbox).takings := by
      refine takings_of_none rfl ?_
      apply outcome_unread
      all_goals intros; rfl
    have taken : (w.took m envelope inbox).takings = w.takings + 1 := takings_cons (w := w) rfl
    rw [takings, deeds.noted_eq (fun _ _ => rfl) fun _ _ => rfl]
    exact told.trans taken
  have promised : ((w.took m envelope inbox).dispatch m target envelope).ledger ≤ w.ledger := by
    have taken : (w.took m envelope inbox).ledger = w.ledger := ledger_record (w.setInbox m inbox) rfl
    rw [← taken]
    exact ledger_dispatch_le _ m target envelope
  refine ⟨?_, worksOff, ?_⟩
  · simp only [leaving, weighs Module.steady_leaving, one_more]
    omega
  · simp only [farewells, weighs Module.steady_farewell]
    exact Nat.add_le_add_right promised _

theorem attend?_spends {w after : World} {m : ModuleRef} (h : w.attend? m = some after) : w.Spends 1 after := by
  have worksOff : w.WorksOff after := (attend_changes h).worksOff fun _ same => Move.noConfusion same
  obtain ⟨target, found, running, ⟨cancelled, rfl⟩ | ⟨kept, envelope, inbox, took, rfl⟩⟩ := attend?_eq_some.1 h
  · have leaves : target.isLeaving = true := by
      rw [Module.isLeaving, running, cancelled]
      rfl
    exact w.closeDown_spends found leaves worksOff
  · exact w.dispatch_spends found worksOff

theorem play_spends {w later : World} {moves : List Move} (turns : ∀ move ∈ moves, move.isTurn = true)
    (played : w.play? moves = some later) : w.Spends (moves.countP (·.isAttend)) later := by
  induction moves generalizing w with
  | nil => exact Option.some.inj played ▸ .refl w
  | cons move rest ih =>
    obtain ⟨turn, others⟩ := List.forall_mem_cons.1 turns
    obtain ⟨after, moved, through⟩ := play?_cons.1 played
    have next := ih others through
    rcases Move.turn_cases turn moved with ⟨m, rfl, attended⟩ | ⟨aside, ready, setAside, rfl⟩
    · rw [List.countP_cons_of_pos rfl, Nat.add_comm]
      exact (attend?_spends attended).trans next
    · have passed := (w.spends_aside ready setAside).trans next
      rwa [List.countP_cons_of_neg (by rw [aside]; exact Bool.false_ne_true), ← Nat.zero_add (List.countP _ rest)]

theorem turn_posted {w after : World} {move : Move} (turn : move.isTurn = true) (moved : w.move? move = some after)
    {m : ModuleRef} {target : Module} (found : w.modules.get? m = some target) (waiting : target.phase ≠ .running) :
    ∃ more, after.modules.get? m = some (target.posted more) ∧ after.accepted m = w.accepted m ++ more := by
  rcases Move.turn_cases turn moved with ⟨other, -, attended⟩ | ⟨-, ready, setAside, rfl⟩
  · refine attend?_other attended ?_ found
    rintro rfl
    rw [attend?_of_waiting found waiting] at attended
    cases attended
  · exact ⟨[], by rw [target.posted_nil]; exact found, (List.append_nil _).symm⟩

theorem play_posted {w later : World} {moves : List Move} (turns : ∀ move ∈ moves, move.isTurn = true)
    (played : w.play? moves = some later) {m : ModuleRef} {target : Module} (found : w.modules.get? m = some target)
    (waiting : target.phase ≠ .running) :
    ∃ more, later.modules.get? m = some (target.posted more) ∧ later.accepted m = w.accepted m ++ more := by
  induction moves generalizing w target with
  | nil =>
    obtain rfl := Option.some.inj played
    exact ⟨[], by rw [target.posted_nil]; exact found, (List.append_nil _).symm⟩
  | cons move rest ih =>
    obtain ⟨turn, others⟩ := List.forall_mem_cons.1 turns
    obtain ⟨after, moved, through⟩ := play?_cons.1 played
    obtain ⟨more, there, accepted⟩ := turn_posted turn moved found waiting
    obtain ⟨last, here, also⟩ := ih others through there waiting
    refine ⟨more ++ last, ?_, ?_⟩
    · rw [here, Module.posted_posted]
    · rw [also, accepted, List.append_assoc]

/-- What a run of turns does to a world, whichever dispatchers go on in it. -/
structure WorksThrough (w : World) (moves : List Move) (later : World) : Prop where
  /-- Envelopes that are taken were waiting or had been promised, by callbacks or by last hooks. -/
  taken : later.takings ≤ w.takings + w.backlog + w.promised + w.farewells
  /-- Dispatchers go on so often at most, and then they all have to wait. -/
  attended : moves.countP (·.isAttend) ≤ w.backlog + w.promised + w.farewells + w.leaving
  /-- Posts that are accepted use up promises. -/
  accepted : later.acceptances + later.promised + later.farewells ≤ w.acceptances + w.promised + w.farewells
  /-- A module without a dispatcher receives what the scripts of the run post to it. -/
  posted : ∀ m target, w.modules.get? m = some target → target.phase ≠ .running →
    later.modules.get? m = some (target.posted ((w.calls moves).filterMap (acceptance? m)))
  /-- Where nobody can go on, dispatchers wait at empty inboxes. -/
  waiting : (∀ m, later.attend? m = none) → ∀ m target, later.modules.get? m = some target →
    target.phase = .running → target.cancelled = false ∧ target.inbox.queue = []

/-- However dispatchers take turns, they come to an end, and what they have done by then is bounded by what was there at
the beginning. -/
theorem draining_ends {w : World} (reached : w.Reachable) :
    (∀ moves later, (∀ move ∈ moves, move.isTurn = true) → w.play? moves = some later →
      w.WorksThrough moves later) ∧
    ∃ moves, (∀ move ∈ moves, move.isTurn = true) ∧ w.play? moves = some w.settle ∧
      ∀ m, w.settle.attend? m = none := by
  constructor
  · intro moves later turns played
    obtain ⟨attended, worksOff, promised⟩ := play_spends turns played
    simp only [WorksOff] at worksOff
    simp only [ledger] at promised
    constructor
    case taken => omega
    case attended => omega
    case accepted => exact promised
    case posted =>
      intro m target found waiting
      obtain ⟨more, there, accepted⟩ := play_posted turns played found waiting
      -- what is accepted over a run is known from its calls
      rw [play_accepted played] at accepted
      rw [there, List.append_cancel_left accepted]
    case waiting => exact fun nothing m target found running => idle_of_attend?_none (nothing m) found running
  · obtain ⟨moves, turns, played⟩ := w.runUntil_takesTurns fun _ => false
    exact ⟨moves, turns, played, settle_attend? reached⟩

def postingBack : List Move :=
  [.build ⟨"a", "r", "d", some {}, []⟩, .build ⟨"b", "t", "d", some {}, []⟩, .build ⟨"c", "u", "d", some {}, []⟩,
    .act (.subscribe "s" .recorder [(.enableResult, [.notify "b" (.ended 1), .notify "c" (.ended 2)])]),
    .enrol "a", .spawn ⟨"a", 0⟩, .enrol "b", .spawn ⟨"b", 0⟩, .act (.enable "a" (some "s"))]

theorem drained_after_posting_back : ∃ w target, ({} : World).play? postingBack = some w ∧ w.backlog = 1 ∧
    w.promised = 2 ∧ w.farewells = 0 ∧ w.settle.takings ≤ w.takings + 3 ∧ (∀ m, w.settle.attend? m = none) ∧
    w.modules.get? ⟨"c", 0⟩ = some target ∧ target.phase = .idle ∧
    ∃ more, w.settle.modules.get? ⟨"c", 0⟩ = some (target.posted more) := by
  obtain ⟨w, played⟩ := Option.isSome_iff_exists.1 (by decide : (({} : World).play? postingBack).isSome = true)
  have before : (({} : World).play? postingBack).map (fun w => (w.backlog, w.promised, w.farewells,
    (w.modules.get? ⟨"c", 0⟩).map (·.phase))) = some (1, 2, 0, some .idle) := by decide
  rw [played] at before
  simp only [Option.map_some, Option.some.injEq, Prod.mk.injEq] at before
  obtain ⟨backlog, promised, farewells, idle⟩ := before
  obtain ⟨target, found, phase⟩ := Option.map_eq_some_iff.1 idle
  obtain ⟨every, moves, turns, through, nothing⟩ := draining_ends ⟨postingBack, played⟩
  have works := every moves w.settle turns through
  have taken := works.taken
  rw [backlog, promised, farewells] at taken
  exact ⟨w, target, played, backlog, promised, farewells, taken, nothing, found, phase, _,
    works.posted _ target found fun running => Phase.noConfusion (phase.symm.trans running)⟩

/-- A module that was told to stop before it was launched, with a last hook that posts to another one. -/
def farewellPost : List Move :=
  [.build ⟨"a", "r", "d", some {}, [(.afterStop, { script := [.notify "b" (.ended 1)] })]⟩,
    .build ⟨"b", "t", "d", some {}, []⟩, .cancel ⟨"a", 0⟩, .enrol "a", .spawn ⟨"a", 0⟩, .enrol "b",
    .spawn ⟨"b", 0⟩]

/-- A last hook posts although no envelope waits and no callback is left, and its post is taken. -/
theorem last_hook_adds_to_drain : ∃ w, ({} : World).play? farewellPost = some w ∧
    w.modules.all (·.2.inbox.queue.isEmpty) = true ∧ w.promised = 0 ∧ w.settle.takings = w.takings + 1 := by
  obtain ⟨w, played⟩ := Option.isSome_iff_exists.1 (by decide : (({} : World).play? farewellPost).isSome = true)
  have before : (({} : World).play? farewellPost).map (fun w => (w.modules.all (·.2.inbox.queue.isEmpty),
    w.promised, w.takings)) = some (true, 0, 0) := by decide
  have drained : (({} : World).play? farewellPost).map (·.settle.takings) = some 1 := by decide +kernel
  rw [played] at before drained
  simp only [Option.map_some, Option.some.injEq, Prod.mk.injEq] at before drained
  obtain ⟨empty, promised, takings⟩ := before
  exact ⟨w, played, empty, promised, by rw [drained, takings]⟩

end World

end WirelessCharging
