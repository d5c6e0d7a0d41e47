import WirelessCharging.Proofs.Posting
import WirelessCharging.Proofs.Registration
/-!
What a stop leaves behind. A dispatcher that comes to its end closes the inbox, and from then on every submission
is refused. A module that has no dispatcher yet when it is stopped has nobody to close its inbox: it goes on
accepting, and whatever it accepts is never taken.
-/
namespace WirelessCharging

/-- Whatever is handed in to the module is refused because it is not running. -/
structure World.Refuses (w : World) (m : ModuleRef) : Prop where
  posts : ∀ envelope, w.submit m envelope = (w, .refused .moduleStopped)
  calls : ∀ action envelope, w.submission? action = some (m, envelope) →
    (w.perform action).2 = .refused .moduleStopped

/-- From now on everything is refused, and nothing is accepted any more. -/
def World.RefusesForGood (w : World) (m : ModuleRef) : Prop :=
  ∀ later, Changes w later → later.Refuses m ∧ later.accepted m = w.accepted m

/-- A stop of the module returns ok: a stop at one go, a step of a scenario, or the second half of a stop whose
first half any other moves may have followed. -/
inductive World.Stops (w : World) (m : ModuleRef) (after : World) : Prop where
  | call (stopped : w.stop m = (after, .ok))
  | step (step : Step) (named : w.stopTarget? step = some m) (stepped : w.step? step = some (after, .ok))
  | move (moved : w.move? (.deregister m) = some after)

variable {move : Move}

theorem Phase.inboxState_of_isYetToRun {phase : Phase} (early : phase.isYetToRun = true) :
    phase.inboxState = .receiving := by
  cases phase with
  | idle => rfl
  | launching => rfl
  | running => rfl
  | closing wake => cases early
  | finished => cases early
  | dropped => cases early

theorem Phase.inboxState_of_over {phase : Phase} (past : phase.isLive = false) (late : phase.isYetToRun = false) :
    phase.inboxState = .discarded := by
  cases phase with
  | idle => cases late
  | launching => cases late
  | running => cases past
  | closing wake => cases past
  | finished => rfl
  | dropped => rfl

theorem Becomes.isYetToRun {w later : World} {m : ModuleRef} {before after : Module} {more gone : List Envelope}
    (h : Becomes move w later m (some before) (some after) more gone) (late : before.phase.isYetToRun = false) :
    after.phase.isYetToRun = false := by
  cases h with
  | enrolled idle => rw [idle] at late; cases late
  | spawned launching => rfl
  | closed => rfl
  | finished => rfl
  | dropped => rfl
  | _ => exact late

/-- A dispatcher that has been told to stop takes nothing any more. -/
theorem Becomes.gone_of_cancelled {w later : World} {m : ModuleRef} {before : Module} {after : Option Module}
    {more gone : List Envelope} (h : Becomes move w later m (some before) after more gone)
    (cancelled : before.cancelled = true) : gone = [] := by
  cases h with
  | took running kept took named => rw [cancelled] at kept; cases kept
  | _ => rfl

theorem Changes.taken_of_cancelled {w later : World} (h : Changes w later) {m : ModuleRef} {target : Module}
    (found : w.modules.get? m = some target) (cancelled : target.cancelled = true) :
    later.taken m = w.taken m := by
  induction h with
  | refl => rfl
  | tail through step ih =>
    obtain ⟨move, change⟩ := step
    obtain ⟨middle, there, lasts⟩ := Changes.lasts through found
    obtain ⟨more, gone, becomes, -, taken⟩ := change.affects m
    rw [there] at becomes
    rw [taken, becomes.gone_of_cancelled (lasts.cancelled cancelled), List.append_nil, ih]

namespace World

theorem refuses_of_shut {w : World} {m : ModuleRef} {target : Module} (found : w.modules.get? m = some target)
    (shut : target.inbox.isReceiving = false) : w.Refuses m := by
  have posts : ∀ envelope, w.submit m envelope = (w, .refused .moduleStopped) := by
    intro envelope
    simp only [submit, found, Inbox.post, shut, Bool.not_false, if_true]
  constructor
  case posts => exact posts
  case calls =>
    intro action envelope handed
    rw [perform_answer handed, posts]

theorem not_refuses_of_receiving {w : World} {m : ModuleRef} {target : Module}
    (found : w.modules.get? m = some target) (receiving : target.inbox.isReceiving = true) : ¬ w.Refuses m := by
  intro refuses
  have refused := congrArg Prod.snd (refuses.posts (.notification (.ended 0)))
  simp only [submit, found, Inbox.post, receiving, Bool.not_true, Bool.false_eq_true, if_false] at refused
  -- there may be no room, but that is another answer
  by_cases full : target.inbox.capacity ≤ target.inbox.queue.length
  · simp [full] at refused
  · simp [full] at refused

theorem refusesForGood_of_shut {w : World} (occurs : w.Occurs) {m : ModuleRef} {target : Module}
    (found : w.modules.get? m = some target) (shut : target.inbox.isReceiving = false) : w.RefusesForGood m := by
  intro later changes
  obtain ⟨last, there, lasts⟩ := Changes.lasts changes found
  constructor
  · exact refuses_of_shut there (lasts.shut shut)
  · exact (Changes.still changes occurs found shut).1

/-- Where no dispatcher is left, all depends on whether there has been one. -/
theorem refusesForGood_iff {w : World} (occurs : w.Occurs) {m : ModuleRef} {target : Module}
    (found : w.modules.get? m = some target) (past : target.phase.isLive = false) :
    w.RefusesForGood m ↔ target.phase.isYetToRun = false := by
  have conserved := occurs.conserved m
  rw [found] at conserved
  have state := conserved.state
  cases early : target.phase.isYetToRun with
  | true =>
    rw [Phase.inboxState_of_isYetToRun early] at state
    constructor
    · intro refuses
      exact absurd (refuses w .refl).1 (not_refuses_of_receiving found (Inbox.isReceiving_iff.2 state))
    · intro late
      cases late
  | false =>
    rw [Phase.inboxState_of_over past early] at state
    constructor
    · intro _
      rfl
    · intro _
      apply refusesForGood_of_shut occurs found
      rw [Inbox.isReceiving, state]
      rfl

/-- The module has been told to stop, has no dispatcher, and is yet to run if it was before. -/
structure StoppedFrom (w : World) (m : ModuleRef) (target last : Module) : Prop where
  found : w.modules.get? m = some last
  cancelled : last.cancelled = true
  past : last.phase.isLive = false
  early : last.phase.isYetToRun = target.phase.isYetToRun

theorem deregister?_stopped {w after : World} {m : ModuleRef} (h : w.deregister? m = some after) {target : Module}
    (found : w.modules.get? m = some target) : after.StoppedFrom m target target := by
  simp only [deregister?, found] at h
  split at h
  · rename_i past
    simp only [Bool.and_eq_true, Bool.not_eq_true'] at past
    obtain rfl := Option.some.inj h
    exact ⟨found, past.1, past.2, rfl⟩
  · cases h

theorem stop_stopped {w after : World} (reached : w.Reachable) {m : ModuleRef} {target : Module}
    (found : w.modules.get? m = some target) (h : w.stop m = (after, .ok)) :
    after.Reachable ∧ ∃ last, after.StoppedFrom m target last := by
  obtain ⟨waited, goes, ⟨-, removed, -⟩ | ⟨failed, -⟩⟩ := stop_moves reached found h
  · have told := cancel_found found
    have going := reached.cancel m
    obtain ⟨last, there, -⟩ := Changes.lasts (goes.leadsTo.changes going) told
    obtain ⟨here, cancelled, past, -⟩ := deregister?_stopped removed there
    refine ⟨(going.leadsTo goes.leadsTo).leadsTo (.single (.deregister m) removed), last, here, cancelled, past, ?_⟩
    cases live : target.phase.isLive with
    | true =>
      have late : target.phase.isYetToRun = false := by
        cases phase : target.phase with
        | running => rfl
        | closing wake => rfl
        | _ => rw [phase] at live; cases live
      rw [late]
      exact Changes.keepModule Becomes.isYetToRun (goes.leadsTo.changes going) told late there
    | false =>
      -- without a dispatcher the module stays as it is while the stop waits
      obtain ⟨more, same⟩ := goes.still going told live
      obtain rfl := Option.some.inj (there.symm.trans same)
      rfl
  · exact absurd rfl failed

theorem Stops.stopped {w after : World} {m : ModuleRef} (h : w.Stops m after) (reached : w.Reachable)
    {target : Module} (found : w.modules.get? m = some target) :
    after.Reachable ∧ ∃ last, after.StoppedFrom m target last := by
  cases h with
  | call stopped => exact stop_stopped reached found stopped
  | step step named stepped =>
    obtain ⟨middle, stopped, rfl⟩ := step?_stop named stepped
    obtain ⟨going, last, there⟩ := stop_stopped reached found stopped
    obtain ⟨more, same⟩ := middle.settle_goesOn.still going there.found there.past
    refine ⟨going.leadsTo middle.settle_goesOn.leadsTo, last.posted more, same, ?_, ?_, ?_⟩
    · exact there.cancelled
    · exact there.past
    · exact there.early
  | move moved =>
    exact ⟨reached.leadsTo (.single (.deregister m) moved), target, deregister?_stopped moved found⟩

/-- Once a stop has returned ok the module is stopped, and none of its envelopes is taken any more. Whether
everything handed in from then on is refused as well, in whatever comes later, depends on one thing: a module that
was yet to run when it was stopped goes on accepting what will never be taken. -/
theorem refuses_after_stop_iff_run {w after : World} (reached : w.Reachable) {m : ModuleRef} {target : Module}
    (found : w.modules.get? m = some target) (stops : w.Stops m after) :
    (∃ last, after.modules.get? m = some last ∧ last.cancelled = true) ∧
      (∀ later, Changes after later → later.taken m = after.taken m) ∧
      (after.RefusesForGood m ↔ target.phase.isYetToRun = false) := by
  obtain ⟨going, last, there⟩ := stops.stopped reached found
  refine ⟨⟨last, there.found, there.cancelled⟩, ?_, ?_⟩
  · intro later changes
    exact Changes.taken_of_cancelled changes there.found there.cancelled
  · rw [← there.early]
    exact refusesForGood_iff going.changes there.found there.past

def stoppedRunning : List Move :=
  [.build ⟨"a", "r", "d", some {}, []⟩, .enrol "a", .spawn ⟨"a", 0⟩, .cancel ⟨"a", 0⟩, .attend ⟨"a", 0⟩]

theorem refuses_after_dispatcher_ended : ∃ w after : World, w.Reachable ∧ w.Stops ⟨"a", 0⟩ after ∧
    after.RefusesForGood ⟨"a", 0⟩ := by
  obtain ⟨w, played⟩ :=
    Option.isSome_iff_exists.1 (by decide : (({} : World).play? stoppedRunning).isSome = true)
  have phase : (({} : World).play? stoppedRunning).map (fun w => (w.modules.get? ⟨"a", 0⟩).map (·.phase)) =
    some (some .finished) := by decide
  have removes : (({} : World).play? stoppedRunning).map (fun w => (w.move? (.deregister ⟨"a", 0⟩)).isSome) =
    some true := by decide
  rw [played] at phase removes
  obtain ⟨after, moved⟩ := Option.isSome_iff_exists.1 (Option.some.inj removes)
  obtain ⟨target, found, finished⟩ := Option.map_eq_some_iff.1 (Option.some.inj phase)
  have reached : w.Reachable := ⟨stoppedRunning, played⟩
  refine ⟨w, after, reached, .move moved, ?_⟩
  exact (refuses_after_stop_iff_run reached found (.move moved)).2.2.2 (by rw [finished]; rfl)

def enabledAndLaunched : List Move :=
  [.act (.enable "a" (some "s")), .enrol "a", .spawn ⟨"a", 0⟩, .attend ⟨"a", 0⟩]

/-- The stop of an idle module returns ok, the enable that follows is answered with ok, and by the time that the
module has been launched and has closed down, the envelope is gone and has never been taken. -/
theorem accepted_after_stop_and_discarded : ∃ w after last : World, w.Reachable ∧
    w.stop ⟨"a", 0⟩ = (after, .ok) ∧ (after.perform (.enable "a" (some "s"))).2 = .ok ∧
    ¬ after.RefusesForGood ⟨"a", 0⟩ ∧ after.play? enabledAndLaunched = some last ∧
    last.accepted ⟨"a", 0⟩ = [.request (.enable ⟨"s", 0⟩)] ∧ last.taken ⟨"a", 0⟩ = [] ∧
    (last.modules.get? ⟨"a", 0⟩).map (·.inbox) = some { capacity := 255, state := .discarded } := by
  obtain ⟨w, played⟩ := Option.isSome_iff_exists.1
    (by decide : (({} : World).play? [.build ⟨"a", "r", "d", some {}, []⟩]).isSome = true)
  have answer : (({} : World).play? [.build ⟨"a", "r", "d", some {}, []⟩]).map
    (fun w => (w.stop ⟨"a", 0⟩).2) = some .ok := by decide
  have handed : (({} : World).play? [.build ⟨"a", "r", "d", some {}, []⟩]).map
    (fun w => (w.stop ⟨"a", 0⟩).1.submission? (.enable "a" (some "s"))) =
      some (some (⟨"a", 0⟩, .request (.enable ⟨"s", 0⟩))) := by decide
  have enabled : (({} : World).play? [.build ⟨"a", "r", "d", some {}, []⟩]).map
    (fun w => ((w.stop ⟨"a", 0⟩).1.perform (.enable "a" (some "s"))).2) = some .ok := by decide
  have finished : (({} : World).play? [.build ⟨"a", "r", "d", some {}, []⟩]).map
    (fun w => ((w.stop ⟨"a", 0⟩).1.play? enabledAndLaunched).map fun last =>
      (last.accepted ⟨"a", 0⟩, last.taken ⟨"a", 0⟩, (last.modules.get? ⟨"a", 0⟩).map (·.inbox))) =
    some (some ([.request (.enable ⟨"s", 0⟩)], [], some { capacity := 255, state := .discarded })) := by decide
  rw [played] at answer handed enabled finished
  obtain ⟨last, through, found⟩ := Option.map_eq_some_iff.1 (Option.some.inj finished)
  simp only [Prod.mk.injEq] at found
  refine ⟨w, (w.stop ⟨"a", 0⟩).1, last, ⟨_, played⟩, Prod.ext rfl (Option.some.inj answer),
    Option.some.inj enabled, ?_, through, found⟩
  intro refuses
  have refused := (refuses _ .refl).1.calls _ _ (Option.some.inj handed)
  cases refused.symm.trans (Option.some.inj enabled)

end World

end WirelessCharging
