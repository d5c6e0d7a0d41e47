import WirelessCharging.Proofs.Progress
/-!
The steps of scenarios are runs of moves. A launch is two of them around the time of the first hook, and a stop
is two of them around the time that the dispatcher takes to come to its end, unless that takes too long.
-/
namespace WirelessCharging

namespace World

theorem spawn_congr (w : World) (m : ModuleRef) {target there : Module}
    (same : there.beforeStart = target.beforeStart) : w.spawn m there = w.spawn m target := by
  have delay : there.delay .beforeStart = target.delay .beforeStart := by
    rw [Module.delay, Module.delay, Module.hook?, Module.hook?, same]
  have tag : there.tag .beforeStart = target.tag .beforeStart := by
    rw [Module.tag, Module.tag, Module.hook?, Module.hook?, same]
  rw [spawn, spawn, hookOver, hookOver, delay, tag]

theorem enrol_found (w : World) (m : ModuleRef) {target : Module} (found : w.modules.get? m = some target) :
    ∃ more, (w.enrol m target).modules.get? m =
      some (({ target with phase := .launching } : Module).posted more) := by
  refine callHook_found _ m target .beforeStart ?_
  simp [register, setPhase, adjustModule, found]

theorem launch_moves {w after : World} {name : String} {answer : Answer} (reached : w.Reachable)
    (h : w.launch name = (after, answer)) :
    (after = w ∧ answer = .notIdle) ∨
      (w.enrol? name = some after ∧ answer = .refused (.alreadyRegistered .wlc)) ∨
      ∃ m target enrolled waited, w.idle? name = some (m, target) ∧
        w.registration? target.registry .wlc = none ∧ w.enrol? name = some enrolled ∧
        enrolled.GoesOn waited ∧ waited.spawn? m = some after ∧ answer = .ok := by
  unfold launch at h
  split at h
  · simp only [Prod.mk.injEq] at h
    exact Or.inl ⟨h.1.symm, h.2.symm⟩
  · rename_i m target idle
    obtain ⟨found, -⟩ := idle?_found idle
    split at h
    · rename_i holder taken
      simp only [Prod.mk.injEq] at h
      exact Or.inr (Or.inl ⟨by simp only [enrol?, idle, taken, h.1], h.2.symm⟩)
    · rename_i vacant
      simp only [Prod.mk.injEq] at h
      obtain ⟨rfl, rfl⟩ := h
      have enrolled : w.enrol? name = some (w.enrol m target) := by simp only [enrol?, idle, vacant]
      have waits : (w.enrol m target).GoesOn ((w.enrol m target).awaitFirstHook target) := by
        unfold awaitFirstHook
        split
        · exact .refl _
        · exact elapse_goesOn _ _
      have going : (w.enrol m target).Reachable := reached.leadsTo (.single (.enrol name) enrolled)
      obtain ⟨more, there⟩ := w.enrol_found m found
      obtain ⟨last, here, launching⟩ := waits.launching going there rfl
      obtain ⟨same, sameFound, lasts⟩ := Changes.lasts (waits.leadsTo.changes going) there
      obtain rfl := Option.some.inj (sameFound.symm.trans here)
      refine Or.inr (Or.inr ⟨m, target, _, _, idle, vacant, enrolled, waits, ?_, rfl⟩)
      simp only [spawn?, here, launching, if_true, spawn_congr _ m lasts.beforeStart]
      rfl

theorem endOfDispatcher?_none {w : World} {m : ModuleRef} {target : Module}
    (found : w.modules.get? m = some target) (past : w.endOfDispatcher? m = none)
    (waiting : target.phase ≠ .running) : target.phase.isLive = false := by
  cases phase : target.phase with
  | idle => rfl
  | launching => rfl
  | running => exact absurd phase waiting
  | closing wake => simp [endOfDispatcher?, found, phase] at past
  | finished => rfl
  | dropped => rfl

theorem advance_found (w : World) (limit : Nat) {m : ModuleRef} {target : Module}
    (found : w.modules.get? m = some target) :
    ∃ after, (w.advance limit).modules.get? m = some after ∧
      (after = target ∨ after = target.ended .finished) := by
  refine List.foldlRecOn (motive := fun world : World => ∃ after, world.modules.get? m = some after ∧
    (after = target ∨ after = target.ended .finished)) (w.due limit) _ ⟨target, found, Or.inl rfl⟩ ?_
  rintro world ⟨after, there, rfl | rfl⟩ entry _
  · exact world.restOver_found entry.2 there
  · obtain ⟨last, here, rfl | rfl⟩ := world.restOver_found entry.2 there
    · exact ⟨_, here, Or.inr rfl⟩
    · exact ⟨_, here, Or.inr rfl⟩

theorem advance_over {w : World} {m : ModuleRef} {target : Module} {wake limit : Nat}
    (found : w.modules.get? m = some target) (closing : target.phase = .closing wake) (early : wake ≤ limit) :
    ∃ after, (w.advance limit).modules.get? m = some after ∧ after.phase.isLive = false := by
  obtain ⟨after, there, rfl | rfl⟩ := w.advance_found limit found
  · obtain ⟨others, -⟩ := closing_of_restOver_all there closing
    exact absurd rfl (others (wake, m) (mem_due.2 ⟨after, Roster.mem_of_get? found, closing, early⟩))
  · exact ⟨_, there, rfl⟩

theorem deregister?_of_over {w later : World} {m : ModuleRef} {target after : Module} (reached : w.Reachable)
    (h : w.GoesOn later) (found : w.modules.get? m = some target) (cancelled : target.cancelled = true)
    (there : later.modules.get? m = some after) (past : after.phase.isLive = false) :
    later.deregister? m = some (later.deregister target.registry) := by
  obtain ⟨same, sameFound, lasts⟩ := Changes.lasts (h.leadsTo.changes reached) found
  obtain rfl := Option.some.inj (sameFound.symm.trans there)
  simp only [deregister?, there, lasts.cancelled cancelled, past, Bool.not_false, Bool.and_self, if_true,
    lasts.registry]

theorem endOfDispatcher?_some {w : World} {m : ModuleRef} {target : Module} {wake : Nat}
    (found : w.modules.get? m = some target) (closes : w.endOfDispatcher? m = some wake) :
    target.phase = .closing wake := by
  cases phase : target.phase with
  | closing later =>
    simp only [endOfDispatcher?, found, phase, Option.some.injEq] at closes
    rw [closes]
  | _ => simp [endOfDispatcher?, found, phase] at closes

theorem runUntil_over {w : World} {m : ModuleRef} {target : Module} (reached : w.Reachable)
    (found : w.modules.get? m = some target) (cancelled : target.cancelled = true) :
    ∃ after, (w.runUntil fun w => !w.isLive m).modules.get? m = some after ∧ after.phase ≠ .running := by
  have runs := w.runUntil_goesOn fun w => !w.isLive m
  obtain ⟨after, there, lasts⟩ := Changes.lasts (runs.leadsTo.changes reached) found
  refine ⟨after, there, fun running => ?_⟩
  -- otherwise it would be in line with its cancellation to see, and there would be another round
  have line := (reached.leadsTo runs.leadsTo).attentive m after there
    ⟨running, Or.inl (lasts.cancelled cancelled)⟩
  rw [InLine, setAside_runUntil] at line
  rcases w.ready_runUntil fun w => !w.isLive m with nobody | seen
  · rw [nobody] at line
    simp at line
  · have live : (w.runUntil fun w => !w.isLive m).isLive m = true := by
      rw [isLive, there, Option.any_some, running]
      rfl
    simp only [live, Bool.not_true, Bool.false_eq_true] at seen

theorem cancel_found {w : World} {m : ModuleRef} {target : Module} (found : w.modules.get? m = some target) :
    (w.cancel m).modules.get? m = some { target with cancelled := true } := by
  rw [cancel, wake_modules, adjustModule, Roster.get?_adjust_self, found]
  rfl

/-- A stop that waits for a dispatcher: the others run first, then the clock goes on, and if the dispatcher is over
by then, the registration is removed and the stop returns ok. -/
theorem stop_waits {w after : World} {m : ModuleRef} {answer : Answer} (reached : w.Reachable) {target : Module}
    (found : w.modules.get? m = some target) (live : target.phase.isLive = true) (patient : target.stopLimit ≠ 0)
    (h : w.stop m = (after, answer)) :
    ∃ waited, ((w.cancel m).runUntil fun w => !w.isLive m).GoesOn waited ∧
      ((answer = .ok ∧ waited.deregister? m = some after ∧ after = waited.deregister target.registry) ∨
        (answer ≠ .ok ∧ after = waited)) := by
  have told := cancel_found found
  have going := reached.cancel m
  have runs : (w.cancel m).GoesOn ((w.cancel m).runUntil fun w => !w.isLive m) := runUntil_goesOn _ _
  have went := going.leadsTo runs.leadsTo
  obtain ⟨there, here, running⟩ := runUntil_over going told rfl
  simp only [stop, found, live, Bool.not_true, Bool.false_eq_true, if_false, patient] at h
  split at h
  · rename_i past
    obtain ⟨rfl, rfl⟩ := Prod.mk.inj h
    have removed := deregister?_of_over going runs told rfl here (endOfDispatcher?_none here past running)
    exact ⟨_, .refl _, Or.inl ⟨rfl, removed, rfl⟩⟩
  · rename_i wake closes
    have closing := endOfDispatcher?_some here closes
    split at h
    · obtain ⟨rfl, rfl⟩ := Prod.mk.inj h
      have passes := advance_goesOn (went.punctual m there wake here closing)
      obtain ⟨last, ended, past⟩ := advance_over here closing (Nat.le_refl wake)
      have removed := deregister?_of_over going (runs.trans passes) told rfl ended past
      exact ⟨_, passes, Or.inl ⟨rfl, removed, rfl⟩⟩
    · obtain ⟨rfl, rfl⟩ := Prod.mk.inj h
      exact ⟨_, advance_goesOn (Nat.le_add_right _ _), Or.inr ⟨fun same => Answer.noConfusion same, rfl⟩⟩

/-- What comes of a stop: the dispatcher is told, goes on by itself for a while, and if it is over by then,
the registration is removed and the stop returns ok. -/
theorem stop_moves {w after : World} {m : ModuleRef} {answer : Answer} (reached : w.Reachable) {target : Module}
    (found : w.modules.get? m = some target) (h : w.stop m = (after, answer)) :
    ∃ waited, (w.cancel m).GoesOn waited ∧
      ((answer = .ok ∧ waited.deregister? m = some after ∧ after = waited.deregister target.registry) ∨
        (answer ≠ .ok ∧ after = waited)) := by
  cases live : target.phase.isLive with
  | false =>
    have told := cancel_found found
    have going := reached.cancel m
    simp only [stop, found, live, Bool.not_false, if_true] at h
    obtain ⟨rfl, rfl⟩ := Prod.mk.inj h
    have removed := deregister?_of_over going (.refl _) told rfl told live
    exact ⟨w.cancel m, .refl _, Or.inl ⟨rfl, removed, rfl⟩⟩
  | true =>
    by_cases patient : target.stopLimit = 0
    · simp only [stop, found, live, Bool.not_true, Bool.false_eq_true, if_false, patient, if_true] at h
      obtain ⟨rfl, rfl⟩ := Prod.mk.inj h
      exact ⟨w.cancel m, .refl _, Or.inr ⟨fun same => Answer.noConfusion same, rfl⟩⟩
    · obtain ⟨waited, goes, past⟩ := stop_waits reached found live patient h
      exact ⟨waited, (runUntil_goesOn _ _).trans goes, past⟩

theorem stop_leadsTo {w : World} (reached : w.Reachable) (m : ModuleRef) : w.LeadsTo (w.stop m).1 := by
  cases found : w.modules.get? m with
  | none =>
    simp only [stop, found]
    exact .refl w
  | some target =>
    obtain ⟨waited, goes, past⟩ := stop_moves reached found rfl
    have started := (LeadsTo.single (.cancel m) rfl).trans goes.leadsTo
    rcases past with ⟨-, removed, -⟩ | ⟨-, same⟩
    · exact started.trans (.single (.deregister m) removed)
    · exact same ▸ started

theorem stopNamed_leadsTo {w : World} (reached : w.Reachable) (name : String) : w.LeadsTo (w.stopNamed name).1 := by
  unfold stopNamed
  split
  · exact .refl w
  · exact stop_leadsTo reached _

theorem shutdown_leadsTo {w : World} (reached : w.Reachable) (runtime : String) :
    w.LeadsTo (w.shutdown runtime).1 := by
  unfold shutdown
  split
  · exact .refl w
  · exact stop_leadsTo reached _

theorem launch_leadsTo {w after : World} {name : String} {answer : Answer} (reached : w.Reachable)
    (h : w.launch name = (after, answer)) : w.LeadsTo after := by
  rcases launch_moves reached h with ⟨rfl, -⟩ | ⟨dropped, -⟩ |
    ⟨m, target, enrolled, waited, -, -, first, waits, second, -⟩
  · exact .refl after
  · exact .single (.enrol name) dropped
  · exact ((LeadsTo.single (.enrol name) first).trans waits.leadsTo).trans (.single (.spawn m) second)

/-- Where scenarios lead, moves lead. -/
theorem step?_leadsTo {w after : World} {step : Step} {answer : Answer} (reached : w.Reachable)
    (h : w.step? step = some (after, answer)) : w.LeadsTo after := by
  have settles : ∀ {outcome : World × Answer}, w.LeadsTo outcome.1 →
      some (settled outcome) = some (after, answer) → w.LeadsTo after := by
    intro outcome leads same
    obtain rfl := congrArg Prod.fst (Option.some.inj same)
    exact leads.trans outcome.1.settle_goesOn.leadsTo
  have same : ∀ {last : World} {reply : Answer}, some (last, reply) = some (after, answer) → last = after :=
    fun h => congrArg Prod.fst (Option.some.inj h)
  cases step with
  | act action => exact same h ▸ .single (.act action) rfl
  | build plan => exact .single (.build plan) (by simp only [move?, show w.follow? plan = _ from h]; rfl)
  | launch name => exact launch_leadsTo reached (Option.some.inj h)
  | stop name => exact settles (stopNamed_leadsTo reached name) h
  | disable name => exact settles (stopNamed_leadsTo reached name) h
  | shutdown runtime => exact settles (shutdown_leadsTo reached runtime) h
  | drain => exact same h ▸ w.settle_goesOn.leadsTo
  | wait milliseconds =>
    exact same h ▸ ((w.elapse_goesOn milliseconds).trans (settle_goesOn _)).leadsTo
  | newRuntime runtime => exact same h ▸ .single (.newRuntime runtime) rfl
  | cloneRuntime runtime source => exact same h ▸ .single (.cloneRuntime runtime source) rfl
  | dropRuntime runtime => exact same h ▸ .single (.dropRuntime runtime) rfl
  | dropIdle name => exact same h ▸ .single (.dropIdle name) rfl
  | inspect name => exact same h ▸ .refl w

/-- The world after some steps, each taken once. -/
def walk? (w : World) : List Step → Option World
  | [] => some w
  | step :: rest => (w.step? step).bind (·.1.walk? rest)

def walkAnswers (w : World) (asked : Step → Bool) : List Step → List Answer
  | [] => []
  | step :: rest =>
    match w.step? step with
    | none => []
    | some (after, answer) => (if asked step then [answer] else []) ++ after.walkAnswers asked rest

theorem walk?_leadsTo {w last : World} {steps : List Step} (reached : w.Reachable)
    (walked : w.walk? steps = some last) : w.LeadsTo last := by
  induction steps generalizing w with
  | nil => exact Option.some.inj walked ▸ .refl w
  | cons step rest ih =>
    obtain ⟨⟨after, answer⟩, stepped, through⟩ := Option.bind_eq_some_iff.1 walked
    have first := step?_leadsTo reached stepped
    exact first.trans (ih (reached.leadsTo first) through)

end World

end WirelessCharging
