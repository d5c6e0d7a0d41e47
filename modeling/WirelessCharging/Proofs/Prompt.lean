import WirelessCharging.Proofs.Placement
import WirelessCharging.Proofs.Stages
/-!
Between two moves nobody is called back, so no subscriber is in hand. Where no last hook is at work and none takes its
time, a dispatcher that sees its cancellation is over at once. The clock then only counts, and a stop waits for turns
and nothing else.
-/
namespace WirelessCharging

/-- No last hook is at work. -/
def World.Calm (w : World) : Prop :=
  ∀ m target wake, w.modules.get? m = some target → target.phase ≠ .closing wake

variable {move : Move}

def Move.isAttend : Move → Bool
  | .attend _ => true
  | _ => false

theorem Move.turn_cases (turn : move.isTurn = true) {w after : World} (moved : w.move? move = some after) :
    (∃ m, move = .attend m ∧ w.attend? m = some after) ∨
      (move.isAttend = false ∧ ∃ ready setAside, after = { w with ready, setAside }) := by
  cases move with
  | attend m => exact Or.inl ⟨m, rfl, moved⟩
  | yield =>
    simp only [World.move?, World.yield?] at moved
    split at moved
    · cases moved
    · split at moved
      · exact Or.inr ⟨rfl, _, _, (Option.some.inj moved).symm⟩
      · cases moved
  | setFirstAside =>
    obtain ⟨ready, setAside, same⟩ := w.setFirstAside_eq
    exact Or.inr ⟨rfl, ready, setAside, by rw [← Option.some.inj moved, same]⟩
  | rejoin => exact Or.inr ⟨rfl, _, _, (Option.some.inj moved).symm⟩
  | _ => cases turn

theorem Move.isTurn_cases (turn : move.isTurn = true) {w after : World} (moved : w.move? move = some after) :
    (∃ m, w.attend? m = some after) ∨ ∃ ready setAside, after = { w with ready, setAside } := by
  rcases Move.turn_cases turn moved with ⟨m, -, attended⟩ | ⟨-, aside⟩
  · exact Or.inl ⟨m, attended⟩
  · exact Or.inr aside

namespace World

variable {w : World}

theorem report_inHand (free : w.inHand = []) (m : ModuleRef) (event : Event) : (w.report m event).inHand = [] := by
  unfold report
  split
  · rfl
  · exact free

theorem dispatch_inHand (free : w.inHand = []) (m : ModuleRef) (target : Module) (envelope : Envelope) :
    (w.dispatch m target envelope).inHand = [] := by
  cases envelope with
  | notification notification => exact report_inHand free m _
  | request request =>
    cases request with
    | enable s =>
      simp only [dispatch, dispatchEnable]
      split <;> rfl
    | start mode =>
      simp only [dispatch, dispatchStart]
      split
      · exact free
      · refine report_inHand ?_ m _
        exact free
    | transfer power duration =>
      simp only [dispatch, dispatchTransfer_eq]
      rw [(runScript_aside _ _).2.2]
      unfold transferring
      split
      · exact free
      · split <;> exact free

theorem callHook_inHand (w : World) (m : ModuleRef) (target : Module) (kind : HookKind) :
    (w.callHook m target kind).inHand = w.inHand := by
  unfold callHook
  split
  · rfl
  · rw [(runScript_aside _ _).2.2]
    rfl

theorem attend?_inHand (free : w.inHand = []) {m : ModuleRef} {after : World} (h : w.attend? m = some after) :
    after.inHand = [] := by
  unfold attend? at h
  split at h
  · cases h
  · rename_i target found
    split at h
    · cases h
    · split at h
      · obtain rfl := Option.some.inj h
        unfold closeDown
        dsimp only
        split
        · exact (callHook_inHand _ m target .afterStop).trans free
        · exact (callHook_inHand _ m target .afterStop).trans free
      · split at h
        · cases h
        · obtain rfl := Option.some.inj h
          refine dispatch_inHand ?_ m target _
          exact free

theorem attend?_returns (free : w.inHand = []) {m : ModuleRef} {after : World} (h : w.attend? m = some after)
    {target : Module} (found : w.modules.get? m = some target) (running : target.phase = .running)
    (kept : target.cancelled = false) {envelope : Envelope} {inbox : Inbox}
    (took : target.inbox.take? = some (envelope, inbox)) :
    after = { (w.attending m).1.runScript (w.attending m).2 with inHand := [] } := by
  have dealt := attend?_taking found running kept took
  obtain ⟨inHand, same⟩ := (w.took m envelope inbox).dispatch_eq m target envelope
  have called := attend?_inHand free dealt
  rw [same] at called
  obtain rfl : inHand = [] := called
  rw [attending_taking found running kept took, ← same]
  exact Option.some.inj (h.symm.trans dealt)

theorem advance_aside (w : World) (limit : Nat) :
    (w.advance limit).subscribers = w.subscribers ∧ (w.advance limit).inHand = w.inHand := by
  refine List.foldlRecOn (motive := fun after : World => after.subscribers = w.subscribers ∧ after.inHand = w.inHand)
    (w.due limit) _ ⟨rfl, rfl⟩ ?_
  intro after same entry _
  have rests : (after.restOver entry.2).subscribers = after.subscribers ∧
      (after.restOver entry.2).inHand = after.inHand := by
    unfold restOver hookOver
    split
    · exact ⟨rfl, rfl⟩
    · split <;> exact ⟨rfl, rfl⟩
  exact ⟨rests.1.trans same.1, rests.2.trans same.2⟩

/-- Moves in which no script runs. -/
def callsNobody : Move → Bool
  | .act _ => false
  | .enrol _ => false
  | .attend _ => false
  | _ => true

theorem uncalled_aside {after : World} (uncalled : callsNobody move = true) (h : w.move? move = some after) :
    after.subscribers = w.subscribers ∧ after.inHand = w.inHand := by
  cases move with
  | act action => cases uncalled
  | enrol name => cases uncalled
  | attend m => cases uncalled
  | build plan =>
    obtain ⟨⟨built, answer⟩, followed, rfl⟩ := Option.map_eq_some_iff.1 h
    obtain ⟨registries, runtimes, modules, devices, senders, rfl⟩ := follow?_only followed
    exact ⟨rfl, rfl⟩
  | spawn m =>
    simp only [move?, spawn?] at h
    split at h
    · cases h
    · split at h
      · rw [← Option.some.inj h, spawn, wake_subscribers, wake_inHand, setPhase, adjustModule, hookOver]
        split <;> exact ⟨rfl, rfl⟩
      · cases h
  | pass time =>
    simp only [move?] at h
    split at h
    · exact Option.some.inj h ▸ w.advance_aside time
    · cases h
  | cancel m => exact Option.some.inj h ▸ ⟨wake_subscribers _ m, wake_inHand _ m⟩
  | deregister m =>
    simp only [move?, deregister?] at h
    split at h
    · cases h
    · split at h
      · exact Option.some.inj h ▸ ⟨rfl, rfl⟩
      · cases h
  | yield =>
    simp only [move?, yield?] at h
    split at h
    · cases h
    · split at h
      · exact Option.some.inj h ▸ ⟨rfl, rfl⟩
      · cases h
  | setFirstAside =>
    obtain ⟨ready, aside, same⟩ := w.setFirstAside_eq
    rw [← Option.some.inj h, same]
    exact ⟨rfl, rfl⟩
  | rejoin => exact Option.some.inj h ▸ ⟨rfl, rfl⟩
  | newRuntime name => exact Option.some.inj h ▸ ⟨rfl, rfl⟩
  | cloneRuntime name source =>
    rw [← Option.some.inj h]
    simp only [cloneRuntime, ensureRuntime]
    split <;> split <;> exact ⟨rfl, rfl⟩
  | dropRuntime name => exact Option.some.inj h ▸ ⟨rfl, rfl⟩
  | dropIdle name =>
    obtain ⟨modules, senders, same⟩ := w.dropIdle_eq name
    rw [← Option.some.inj h, same]
    exact ⟨rfl, rfl⟩
  | clone m =>
    obtain ⟨senders, rfl⟩ := clone?_senders h
    exact ⟨rfl, rfl⟩
  | drop sender =>
    obtain ⟨senders, rfl⟩ := drop?_senders h
    exact ⟨rfl, rfl⟩

theorem enrol?_inHand {after : World} {name : String} (h : w.enrol? name = some after) : after.inHand = w.inHand := by
  unfold enrol? at h
  split at h
  · cases h
  · split at h
    · exact Option.some.inj h ▸ rfl
    · rw [← Option.some.inj h]
      exact callHook_inHand _ _ _ _

theorem move_inHand {after : World} (free : w.inHand = []) (h : w.move? move = some after) : after.inHand = [] := by
  cases move with
  | act action =>
    rw [← Option.some.inj h, (w.perform_aside action).2.2]
    exact free
  | enrol name => exact (enrol?_inHand h).trans free
  | attend m => exact attend?_inHand free h
  | _ => exact (uncalled_aside rfl h).2.trans free

theorem LeadsTo.inHand {later : World} (h : w.LeadsTo later) (free : w.inHand = []) : later.inHand = [] := by
  obtain ⟨moves, played⟩ := h
  induction moves generalizing w with
  | nil => exact Option.some.inj played ▸ free
  | cons move rest ih =>
    obtain ⟨after, moved, through⟩ := play?_cons.1 played
    exact ih (move_inHand free moved) through

theorem Reachable.free (reached : w.Reachable) : w.inHand = [] := LeadsTo.inHand reached rfl

/-- A last hook that takes no time leaves nothing to wait for. -/
theorem closeDown_phase {m : ModuleRef} {target last : Module} (prompt : target.delay .afterStop = 0)
    (found : (w.closeDown m target).modules.get? m = some last) : last.phase = .finished := by
  unfold closeDown at found
  dsimp only at found
  rw [if_pos prompt] at found
  simp only [finish_modules, Roster.get?_adjust_self] at found
  obtain ⟨before, -, rfl⟩ := Option.map_eq_some_iff.1 found
  rfl

theorem move_calm {after : World} (numbered : w.modules.Numbered) (calm : w.Calm) (moved : w.move? move = some after)
    (prompt : ∀ m target, w.modules.get? m = some target → target.delay .afterStop = 0) : after.Calm := by
  intro m target wake found closing
  cases before : w.modules.get? m with
  | none =>
    rw [(move_fresh moved before found).phase] at closing
    cases closing
  | some origin =>
    obtain ⟨there, here, fate⟩ := move_fares numbered moved before
    obtain rfl := Option.some.inj (here.symm.trans found)
    cases fate with
    | kept ordinary more => exact calm m origin wake before closing
    | enrolled enrols more => cases closing
    | dropped drops => cases closing
    | spawned named launching => cases closing
    | took named running kept took context more => exact calm m origin wake before closing
    | closed observes resting more =>
      obtain ⟨there, running, cancelled⟩ := observes
      obtain ⟨target, same, -, ⟨-, rfl⟩ | ⟨kept, -⟩⟩ := attend?_cases moved
      · obtain rfl := Option.some.inj (same.symm.trans there)
        rw [closeDown_phase (prompt m target same) found] at closing
        cases closing
      · obtain rfl := Option.some.inj (same.symm.trans there)
        rw [cancelled] at kept
        cases kept
    | closedAtOnce observes resting more => cases closing
    | rested named resting => cases closing
    | cancelled named => exact calm m origin wake before closing

theorem Calm.advance (calm : w.Calm) (numbered : w.modules.Numbered) (limit : Nat) :
    w.advance limit = { w with now := limit } := by
  have nobody : w.due limit = [] := by
    rw [List.eq_nil_iff_forall_not_mem]
    rintro ⟨wake, m⟩ member
    obtain ⟨target, listed, closing, -⟩ := mem_due.1 member
    exact calm m target wake (Roster.get?_of_mem numbered.1 listed) closing
  rw [World.advance, nobody]
  rfl

theorem Calm.endOfDispatcher? (calm : w.Calm) (m : ModuleRef) : w.endOfDispatcher? m = none := by
  unfold World.endOfDispatcher?
  split
  · rfl
  · rename_i target found
    split
    · rename_i wake closing
      exact absurd closing (calm m target wake found)
    · rfl

theorem stop_of_calm {m : ModuleRef} {target : Module} (found : w.modules.get? m = some target)
    (live : target.phase.isLive = true) (patient : target.stopLimit ≠ 0)
    (calm : ((w.cancel m).runUntil fun w => !w.isLive m).Calm) :
    w.stop m = (((w.cancel m).runUntil fun w => !w.isLive m).deregister target.registry, .ok) := by
  unfold stop
  simp only [found, live, Bool.not_true, Bool.false_eq_true, if_false, patient, calm.endOfDispatcher?]

theorem advance_transfers (w : World) (limit : Nat) : (w.advance limit).transfers = w.transfers := by
  rw [(w.advance_quiet limit).transfers, List.append_nil]

theorem stop_transfers {m : ModuleRef} {target : Module} (found : w.modules.get? m = some target)
    (live : target.phase.isLive = true) (patient : target.stopLimit ≠ 0) :
    (w.stop m).1.transfers = ((w.cancel m).runUntil fun w => !w.isLive m).transfers := by
  unfold stop
  simp only [found, live, Bool.not_true, Bool.false_eq_true, if_false, patient]
  split
  · rfl
  · split
    · exact advance_transfers _ _
    · exact advance_transfers _ _

theorem LeadsTo.extends {later : World} (h : w.LeadsTo later) : w.Extends later := by
  obtain ⟨moves, played⟩ := h
  exact play_extends played

theorem attend?_of_waiting {m : ModuleRef} {target : Module} (found : w.modules.get? m = some target)
    (waiting : target.phase ≠ .running) : w.attend? m = none := by
  simp only [attend?, found, waiting, ne_eq, not_false_eq_true, if_true]

theorem runUntil_attend? (reached : w.Reachable) {m : ModuleRef} {target : Module}
    (found : w.modules.get? m = some target) :
    ((w.cancel m).runUntil fun w => !w.isLive m).attend? m = none := by
  have told := cancel_found found
  obtain ⟨after, there, waiting⟩ := runUntil_over (reached.cancel m) told rfl
  exact attend?_of_waiting there waiting

theorem settle_attend? (reached : w.Reachable) (m : ModuleRef) : w.settle.attend? m = none := by
  cases attended : w.settle.attend? m with
  | none => rfl
  | some after =>
    obtain ⟨leads, drained⟩ := w.settle_drained m
    obtain ⟨target, found, running, seen⟩ := attend?_cases attended
    refine absurd ((reached.leadsTo leads).attentive m target found ⟨running, ?_⟩) drained
    rcases seen with ⟨cancelled, -⟩ | ⟨-, envelope, inbox, took, -⟩
    · exact Or.inl cancelled
    · rw [Inbox.take?_eq_some.1 took]
      exact Or.inr (List.cons_ne_nil _ _)

end World

end WirelessCharging
