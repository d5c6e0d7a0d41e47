import WirelessCharging.Proofs.Alike
import WirelessCharging.Proofs.Steps
/-!
Who hears of what has no influence on what modules do. Two runs in which callers do the same, apart from which
subscribers there are, which of them are let go, and what the callbacks do with other subscribers, go on in the same
way: modules accept and deal with the same envelopes to the same effect, and devices are asked for the same transfers.
-/
namespace WirelessCharging

def Move.masked? : Move → Option Move
  | .act action => action.masked?.map .act
  | .build plan => some (.build plan.masked)
  | move => some move

def Move.isTame : Move → Bool
  | .act action => action.isTame
  | .build plan => plan.isTame
  | _ => true

def Step.masked? : Step → Option Step
  | .act action => action.masked?.map .act
  | .build plan => some (.build plan.masked)
  | .inspect _ => none
  | step => some step

def Step.isTame : Step → Bool
  | .act action => action.isTame
  | .build plan => plan.isTame
  | _ => true

namespace World

variable {w v : World}

theorem Alike.enrol? (h : Alike w v) (name : String) : Option.Rel Alike (w.enrol? name) (v.enrol? name) := by
  have idle := h.idle? name
  unfold World.enrol?
  generalize w.idle? name = found at idle
  generalize v.idle? name = other at idle
  cases idle with
  | none => exact .none
  | some both =>
    rename_i found other
    obtain ⟨m, target⟩ := found
    obtain ⟨n, there⟩ := other
    obtain ⟨rfl, same⟩ := both
    dsimp only
    rw [same.registry, h.registration?]
    cases v.registration? there.registry .wlc with
    | some holder => exact .some (h.discard m)
    | none => exact .some (h.enrol m same)

theorem Alike.spawn? (h : Alike w v) (m : ModuleRef) : Option.Rel Alike (w.spawn? m) (v.spawn? m) := by
  have there := h.found m
  unfold World.spawn?
  generalize w.modules.get? m = target at there
  generalize v.modules.get? m = other at there
  cases there with
  | none => exact .none
  | some same =>
    dsimp only
    rw [same.phase]
    split
    · exact .some (h.spawn m same)
    · exact .none

theorem Alike.deregister? (h : Alike w v) (m : ModuleRef) : Option.Rel Alike (w.deregister? m) (v.deregister? m) := by
  have there := h.found m
  unfold World.deregister?
  generalize w.modules.get? m = target at there
  generalize v.modules.get? m = other at there
  cases there with
  | none => exact .none
  | some same =>
    rename_i target other
    have cancelled : target.cancelled = other.cancelled := by
      have seen := congrArg Module.cancelled same.seen
      exact seen
    dsimp only
    rw [same.phase, same.registry, cancelled]
    split
    · exact .some (h.deregister _)
    · exact .none

theorem Alike.yield? (h : Alike w v) : Option.Rel Alike w.yield? v.yield? := by
  unfold World.yield?
  rw [h.ready]
  split
  · exact .none
  · rename_i m _ _
    have next : (w.attend? m).isNone = (v.attend? m).isNone := by
      have next := h.attend? m
      generalize w.attend? m = here at next
      generalize v.attend? m = there at next
      cases next <;> rfl
    rw [next]
    split
    · exact .some h.yield
    · exact .none

theorem Alike.senders (h : Alike w v) : w.senders = v.senders := by
  have same := congrArg World.senders h.seen
  exact same

theorem Alike.clone? (h : Alike w v) (m : ModuleRef) : Option.Rel Alike (w.clone? m) (v.clone? m) := by
  unfold World.clone? holders
  rw [h.senders]
  split
  · exact .none
  · exact .some (h.grant m .caller)

theorem Alike.drop? (h : Alike w v) (sender : Sender) : Option.Rel Alike (w.drop? sender) (v.drop? sender) := by
  have shared : ∀ registry, w.isShared registry = v.isShared registry := by
    intro registry
    have same := congrArg (World.isShared · registry) h.seen
    simp only [World.isShared, World.masked, Roster.mapped, List.any_map] at same
    exact same
  have may : w.mayDrop sender.holder = v.mayDrop sender.holder := by
    cases sender.holder with
    | registry registry => exact congrArg not (shared registry)
    | _ => rfl
  unfold World.drop?
  rw [h.senders, may]
  split
  · exact .some (h.withdraw _ _)
  · exact .none

theorem Alike.move? (h : Alike w v) {move posed : Move} (tame : move.isTame = true)
    (kept : move.masked? = some posed) : Option.Rel Alike (w.move? move) (v.move? posed) := by
  cases move with
  | act action =>
    obtain ⟨action', masked, rfl⟩ := Option.map_eq_some_iff.1 kept
    exact .some (h.perform tame masked).world
  | build plan =>
    cases kept
    exact rel_map (h.follow? tame) AlikeOutcome.world
  | enrol name => cases kept; exact h.enrol? name
  | spawn m => cases kept; exact h.spawn? m
  | attend m => cases kept; exact h.attend? m
  | pass time =>
    cases kept
    simp only [World.move?, h.now]
    split
    · exact .some (h.advance time)
    · exact .none
  | cancel m => cases kept; exact .some (h.cancel m)
  | deregister m => cases kept; exact h.deregister? m
  | yield => cases kept; exact h.yield?
  | setFirstAside => cases kept; exact .some h.setFirstAside
  | rejoin => cases kept; exact .some h.rejoin
  | newRuntime name => cases kept; exact .some (h.newRuntime name)
  | cloneRuntime name source => cases kept; exact .some (h.cloneRuntime name source)
  | dropRuntime name => cases kept; exact .some (h.dropRuntime name)
  | dropIdle name => cases kept; exact .some (h.dropIdle name)
  | clone m => cases kept; exact h.clone? m
  | drop sender => cases kept; exact h.drop? sender

theorem Alike.moveHidden (h : Alike w v) {move : Move} (tame : move.isTame = true) (hidden : move.masked? = none) :
    ∃ action after, move = .act action ∧ action.masked? = none ∧ w.move? move = some after ∧ Alike after v := by
  cases move with
  | act action =>
    have none_seen := Option.map_eq_none_iff.1 hidden
    exact ⟨action, _, rfl, none_seen, rfl, h.performHidden tame none_seen⟩
  | _ => cases hidden

theorem Alike.step? (h : Alike w v) {step posed : Step} (tame : step.isTame = true)
    (kept : step.masked? = some posed) : Option.Rel AlikeOutcome (w.step? step) (v.step? posed) := by
  cases step with
  | act action =>
    obtain ⟨action', masked, rfl⟩ := Option.map_eq_some_iff.1 kept
    exact .some (h.perform tame masked)
  | build plan => cases kept; exact h.follow? tame
  | launch name => cases kept; exact .some (h.launch name)
  | stop name => cases kept; exact .some (h.stopNamed name).settled
  | disable name => cases kept; exact .some (h.stopNamed name).settled
  | shutdown runtime => cases kept; exact .some (h.shutdown runtime).settled
  | drain => cases kept; exact .some ⟨h.settle, rfl⟩
  | wait milliseconds => cases kept; exact .some ⟨(h.elapse milliseconds).settle, rfl⟩
  | newRuntime name => cases kept; exact .some ⟨h.newRuntime name, rfl⟩
  | cloneRuntime name source => cases kept; exact .some ⟨h.cloneRuntime name source, rfl⟩
  | dropRuntime name =>
    cases kept
    refine .some ⟨h.dropRuntime name, ?_⟩
    simp only [h.runtimes]
  | dropIdle name =>
    cases kept
    refine .some ⟨h.dropIdle name, ?_⟩
    have idle := h.idle? name
    generalize w.idle? name = found at idle
    generalize v.idle? name = other at idle
    cases idle <;> rfl
  | inspect name => cases kept

theorem Alike.stepHidden (h : Alike w v) {step : Step} (tame : step.isTame = true) (hidden : step.masked? = none) :
    ∃ after answer, w.step? step = some (after, answer) ∧ Alike after v := by
  cases step with
  | act action => exact ⟨_, _, rfl, h.performHidden tame (Option.map_eq_none_iff.1 hidden)⟩
  | inspect name => exact ⟨_, _, rfl, h⟩
  | _ => cases hidden

theorem Alike.enrolling (h : Alike w v) (name : String) :
    maskedScript (w.enrolling name) = maskedScript (v.enrolling name) := by
  have idle := h.idle? name
  unfold World.enrolling
  generalize w.idle? name = found at idle
  generalize v.idle? name = other at idle
  cases idle with
  | none => exact congrArg (·, []) h.seen
  | some both =>
    rename_i found other
    obtain ⟨m, target⟩ := found
    obtain ⟨n, there⟩ := other
    obtain ⟨rfl, same⟩ := both
    dsimp only
    rw [same.registry, h.registration?]
    cases v.registration? there.registry .wlc with
    | some holder => exact congrArg (·, []) h.seen
    | none =>
      have alike := (h.register there.registry m).setPhase m .launching
      exact (masked_hooking alike.tame m same.tame _).1.trans
        ((congrArg₂ (fun w target => w.hooking m target .beforeStart) alike.seen same.seen).trans
          (masked_hooking alike.other m same.other _).1.symm)

theorem Alike.calling (h : Alike w v) {move posed : Move} (kept : move.masked? = some posed) :
    maskedScript (w.calling move) = maskedScript (v.calling posed) := by
  cases move with
  | act action =>
    obtain ⟨action', masked, rfl⟩ := Option.map_eq_some_iff.1 kept
    simp only [World.calling, maskedScript, scriptMasked, masked, (action.masked?_masked action' masked).1, h.seen]
  | build plan => cases kept; exact congrArg (·, []) h.seen
  | enrol name => cases kept; exact h.enrolling name
  | attend m =>
    cases kept
    exact (masked_attending h.tame m).1.trans
      ((congrArg (World.posingAttend · m) h.seen).trans (masked_attending h.other m).1.symm)
  | _ => cases kept; exact congrArg (·, []) h.seen

/-- The calls of a run that are not about subscribers alone, those from within scripts among them, with what they
are answered. -/
def answered (w : World) (moves : List Move) : List (Action × Answer) := (w.calls moves).filterMap answered?

/-- What a module remembers when its dispatcher has been at work, but for its subscriber. -/
def view (after : World) : Move → List (ModuleRef × Context)
  | .attend m => [(m, (after.contextOf m).masked)]
  | _ => []

def views (w : World) : List Move → List (ModuleRef × Context)
  | [] => []
  | move :: rest =>
    match w.move? move with
    | none => []
    | some after => after.view move ++ after.views rest

theorem Alike.contextOf (h : Alike w v) (m : ModuleRef) : (w.contextOf m).masked = (v.contextOf m).masked := by
  have there := h.found m
  unfold World.contextOf
  generalize w.modules.get? m = target at there
  generalize v.modules.get? m = other at there
  cases there with
  | none => rfl
  | some same =>
    have seen := congrArg Module.context same.seen
    exact seen

theorem Alike.view (h : Alike w v) {move posed : Move} (kept : move.masked? = some posed) :
    w.view move = v.view posed := by
  cases move with
  | attend m =>
    cases kept
    exact congrArg (fun context => [(m, context)]) (h.contextOf m)
  | act action =>
    obtain ⟨action', -, rfl⟩ := Option.map_eq_some_iff.1 kept
    rfl
  | _ => cases kept; rfl

/-- A run sees the same as the run in which everything about subscribers is left out. -/
theorem Alike.play (h : Alike w v) {moves : List Move} (tame : ∀ move ∈ moves, move.isTame = true) :
    Option.Rel Alike (w.play? moves) (v.play? (moves.filterMap Move.masked?)) ∧
      w.answered moves = v.answered (moves.filterMap Move.masked?) ∧
      w.views moves = v.views (moves.filterMap Move.masked?) := by
  induction moves generalizing w v with
  | nil => exact ⟨.some h, rfl, rfl⟩
  | cons move rest ih =>
    obtain ⟨here, later⟩ := List.forall_mem_cons.1 tame
    cases masked : move.masked? with
    | none =>
      obtain ⟨action, after, rfl, hidden, moved, alike⟩ := h.moveHidden here masked
      obtain ⟨played, answers, views⟩ := ih alike later
      rw [List.filterMap_cons_none masked]
      simp only [play?, answered, World.views, moved, calls_cons moved, Option.bind_some,
        List.filterMap_append]
      have silent : (w.callsIn (.act action)).filterMap answered? = [] := by
        simp only [callsIn, World.calling, World.callsOf, List.filterMap_cons, answered?, hidden, Option.map_none,
          List.filterMap_nil]
      rw [silent]
      exact ⟨played, answers, views⟩
    | some posed =>
      have moved := h.move? here masked
      rw [List.filterMap_cons_some masked]
      have calls : (w.callsIn move).filterMap answered? = (v.callsIn posed).filterMap answered? := by
        have same := h.calling masked
        simp only [maskedScript, Prod.mk.injEq] at same
        rw [callsIn, callsIn, masked_callsOf, masked_callsOf, same.1, same.2]
      simp only [play?, answered, World.views, World.calls]
      generalize w.move? move = after at moved
      generalize v.move? posed = other at moved
      cases moved with
      | none => exact ⟨.none, rfl, rfl⟩
      | some alike =>
        rename_i after other
        obtain ⟨played, answers, views⟩ := ih alike later
        refine ⟨played, ?_, ?_⟩
        · simp only [List.filterMap_append, calls]
          exact congrArg _ answers
        · simp only [alike.view masked, views]

theorem Step.masked?_masked {step posed : Step} (kept : step.masked? = some posed) : posed.masked?.isSome = true := by
  cases step with
  | act action =>
    obtain ⟨action', masked, rfl⟩ := Option.map_eq_some_iff.1 kept
    simp only [Step.masked?, (action.masked?_masked action' masked).1, Option.map_some, Option.isSome_some]
  | inspect name => cases kept
  | _ => cases kept; rfl

theorem Alike.walk (h : Alike w v) {steps : List Step} (tame : ∀ step ∈ steps, step.isTame = true) :
    Option.Rel Alike (w.walk? steps) (v.walk? (steps.filterMap Step.masked?)) ∧
      w.walkAnswers (·.masked?.isSome) steps =
        v.walkAnswers (·.masked?.isSome) (steps.filterMap Step.masked?) := by
  induction steps generalizing w v with
  | nil => exact ⟨.some h, rfl⟩
  | cons step rest ih =>
    obtain ⟨here, later⟩ := List.forall_mem_cons.1 tame
    cases masked : step.masked? with
    | none =>
      obtain ⟨after, answer, stepped, alike⟩ := h.stepHidden here masked
      rw [List.filterMap_cons_none masked]
      simp only [walk?, walkAnswers, stepped, masked, Option.bind_some, Option.isSome_none, Bool.false_eq_true,
        if_false, List.nil_append]
      exact ih alike later
    | some posed =>
      have stepped := h.step? here masked
      rw [List.filterMap_cons_some masked]
      simp only [walk?, walkAnswers, masked, Step.masked?_masked masked, Option.isSome_some, if_true]
      generalize w.step? step = outcome at stepped
      generalize v.step? posed = other at stepped
      cases stepped with
      | none => exact ⟨.none, rfl⟩
      | some alike =>
        obtain ⟨walked, answers⟩ := ih alike.world later
        refine ⟨walked, ?_⟩
        simp only [alike.answer, answers]

end World

namespace Entry

def enabled? : Entry → Option (ModuleRef × Outcome)
  | .delivered m _ (.enableResult outcome) => some (m, outcome)
  | _ => none

def answered? : Entry → Option (Action × Answer)
  | .acted action answer => action.masked?.map (·, answer)
  | _ => none

end Entry

/-- Two worlds in which modules have come to the same, whoever was told of it. -/
structure World.SameControl (w v : World) : Prop where
  /-- Nothing but subscribers and what they are told is different. -/
  seen : w.masked = v.masked
  contexts : ∀ m, (w.contextOf m).flags = (v.contextOf m).flags ∧
    (w.contextOf m).storedMode = (v.contextOf m).storedMode
  enables : w.noted Entry.enabled? = v.noted Entry.enabled?
  answers : w.noted Entry.answered? = v.noted Entry.answered?
  transfers : w.transfers = v.transfers

namespace World

variable {w v : World}

theorem Alike.noted {α : Type} {reading? : Entry → Option α} (h : Alike w v)
    (stable : ∀ entry : Entry, entry.masked?.bind reading? = reading? entry) :
    w.noted reading? = v.noted reading? := by
  have same : w.journal.filterMap Entry.masked? = v.journal.filterMap Entry.masked? := by
    have same := congrArg World.journal h.seen
    exact same
  have read : ∀ journal : List Entry, journal.filterMap reading? =
      (journal.filterMap Entry.masked?).filterMap reading? := by
    intro journal
    rw [List.filterMap_filterMap, funext stable]
  rw [World.noted, World.noted, read w.journal, read v.journal, same]

theorem Alike.sameControl (h : Alike w v) : w.SameControl v := by
  constructor
  case seen => exact h.seen
  case contexts =>
    intro m
    have same := h.contextOf m
    simp only [Context.masked, Context.mk.injEq, and_true] at same
    exact same
  case enables =>
    apply h.noted
    intro entry
    cases entry with
    | delivered m s event => cases event <;> rfl
    | acted action answer => simp only [Entry.masked?, Option.bind_map]; cases action.masked? <;> rfl
    | _ => rfl
  case answers =>
    apply h.noted
    intro entry
    cases entry with
    | delivered m s event => cases event <;> rfl
    | acted action answer =>
      simp only [Entry.masked?, Entry.answered?]
      cases masked : action.masked? with
      | none => rfl
      | some posed => simp only [Option.map_some, Option.bind_some, Entry.answered?,
          (action.masked?_masked posed masked).1]
    | _ => rfl
  case transfers =>
    have same := congrArg World.transfers h.seen
    exact same

theorem rel_both {α β : Type} {R : α → β → Prop} {x y : Option α} {z : Option β} (left : Option.Rel R x z)
    (right : Option.Rel R y z) {a : α} (found : x = some a) : ∃ b c, y = some b ∧ R a c ∧ R b c := by
  subst found
  cases left with
  | some first =>
    cases right with
    | some other => exact ⟨_, _, rfl, first, other⟩

theorem alike_empty : Alike {} {} := ⟨rfl, tame_empty, tame_empty⟩

/-- Take two runs in which callers make the same calls, devices are set up in the same way and dispatchers are let
run at the same times, with whatever subscribers, as long as callbacks submit nothing and leave devices alone. -/
theorem recipients_do_not_influence_control :
    (∀ left right : List Move, (∀ move ∈ left, move.isTame = true) → (∀ move ∈ right, move.isTame = true) →
      left.filterMap Move.masked? = right.filterMap Move.masked? →
      ({} : World).answered left = ({} : World).answered right ∧
      ({} : World).views left = ({} : World).views right ∧
      ∀ w, ({} : World).play? left = some w → ∃ v, ({} : World).play? right = some v ∧ w.SameControl v) ∧
    (∀ left right : List Step, (∀ step ∈ left, step.isTame = true) → (∀ step ∈ right, step.isTame = true) →
      left.filterMap Step.masked? = right.filterMap Step.masked? →
      ({} : World).walkAnswers (·.masked?.isSome) left = ({} : World).walkAnswers (·.masked?.isSome) right ∧
      ∀ w, ({} : World).walk? left = some w → ∃ v, ({} : World).walk? right = some v ∧ w.SameControl v) := by
  constructor
  · intro left right tame alsoTame same
    obtain ⟨played, answers, views⟩ := alike_empty.play tame
    obtain ⟨alsoPlayed, alsoAnswers, alsoViews⟩ := alike_empty.play alsoTame
    rw [← same] at alsoPlayed alsoAnswers alsoViews
    refine ⟨answers.trans alsoAnswers.symm, views.trans alsoViews.symm, ?_⟩
    intro w found
    obtain ⟨v, middle, there, first, other⟩ := rel_both played alsoPlayed found
    exact ⟨v, there, (first.trans other.symm).sameControl⟩
  · intro left right tame alsoTame same
    obtain ⟨walked, answers⟩ := alike_empty.walk tame
    obtain ⟨alsoWalked, alsoAnswers⟩ := alike_empty.walk alsoTame
    rw [← same] at alsoWalked alsoAnswers
    refine ⟨answers.trans alsoAnswers.symm, ?_⟩
    intro w found
    obtain ⟨v, middle, there, first, other⟩ := rel_both walked alsoWalked found
    exact ⟨v, there, (first.trans other.symm).sameControl⟩

def enabledFor (name : String) (kind : SubscriberKind) (reactions : List Reaction) (meanwhile : List Move) :
    List Move :=
  [.build ⟨"a", "r", "d", some {}, []⟩, .act (.subscribe name kind reactions), .enrol "a", .spawn ⟨"a", 0⟩,
    .act (.enable "a" (some name)), .act (.start "a" 0), .act (.transfer "a" 5 10)] ++ meanwhile ++
    [.attend ⟨"a", 0⟩, .attend ⟨"a", 0⟩, .attend ⟨"a", 0⟩]

/-- A callback that hands in nothing but sets a device decides whether a start is taken. -/
theorem start_decided_by_callback_on_device :
    let busy : List Reaction := [(.enableResult, [.setDevice "d" { readerBusy := some true } none])]
    reactionsPosts busy = 0 ∧
      ∃ w v, ({} : World).play? (enabledFor "s" .recorder busy []) = some w ∧
        ({} : World).play? (enabledFor "s" .silent busy []) = some v ∧
        (w.contextOf ⟨"a", 0⟩).flags ≠ (v.contextOf ⟨"a", 0⟩).flags ∧
        (w.contextOf ⟨"a", 0⟩).mode = none ∧ (v.contextOf ⟨"a", 0⟩).mode = some .nonAutonomous := by
  intro busy
  refine ⟨rfl, ?_⟩
  have views : ∀ kind, (({} : World).play? (enabledFor "s" kind busy [])).map (fun w =>
      ((w.contextOf ⟨"a", 0⟩).flags.isEmpty, (w.contextOf ⟨"a", 0⟩).mode)) =
        some (kind == .recorder, if kind = .recorder then none else some .nonAutonomous) := by
    intro kind
    cases kind <;> decide
  obtain ⟨w, played, same⟩ := Option.map_eq_some_iff.1 (views .recorder)
  obtain ⟨v, alsoPlayed, other⟩ := Option.map_eq_some_iff.1 (views .silent)
  simp only [Prod.mk.injEq] at same other
  refine ⟨w, v, played, alsoPlayed, ?_, same.2, other.2⟩
  intro equal
  rw [equal] at same
  exact absurd (same.1.symm.trans other.1) (by decide)

def drainedFor (name : String) (kind : SubscriberKind) (reactions : List Reaction) : List Step :=
  [.build ⟨"a", "r", "d", some {}, []⟩, .act (.subscribe name kind reactions), .launch "a",
    .act (.enable "a" (some name)), .act (.start "a" 0), .act (.transfer "a" 5 10), .drain]

theorem same_control_for_silent_subscriber :
    (∃ w v, ({} : World).play? (enabledFor "s" .recorder [(.enableResult, [.release "s"])] []) = some w ∧
      ({} : World).play? (enabledFor "t" .silent [] [.act (.release "t")]) = some v ∧ w.SameControl v ∧
      w.deliveries ⟨"a", 0⟩ = [(⟨"s", 0⟩, .enableResult .ok)] ∧
      v.deliveries ⟨"a", 0⟩ = [(⟨"t", 0⟩, .enableResult .ok)]) ∧
    ∀ w, ({} : World).walk? (drainedFor "s" .recorder [(.enableResult, [.release "s"])]) = some w →
      ∃ v, ({} : World).walk? (drainedFor "t" .silent []) = some v ∧ w.SameControl v := by
  obtain ⟨moves, steps⟩ := recipients_do_not_influence_control
  constructor
  · obtain ⟨-, -, both⟩ := moves (enabledFor "s" .recorder [(.enableResult, [.release "s"])] [])
      (enabledFor "t" .silent [] [.act (.release "t")]) (by decide) (by decide) rfl
    have heard : (({} : World).play? (enabledFor "s" .recorder [(.enableResult, [.release "s"])] [])).map
      (·.deliveries ⟨"a", 0⟩) = some [(⟨"s", 0⟩, .enableResult .ok)] := by decide
    have unheard : (({} : World).play? (enabledFor "t" .silent [] [.act (.release "t")])).map
      (·.deliveries ⟨"a", 0⟩) = some [(⟨"t", 0⟩, .enableResult .ok)] := by decide
    obtain ⟨w, played, first⟩ := Option.map_eq_some_iff.1 heard
    obtain ⟨v, alsoPlayed, same⟩ := both w played
    rw [alsoPlayed, Option.map_some] at unheard
    exact ⟨w, v, played, alsoPlayed, same, first, Option.some.inj unheard⟩
  · exact (steps (drainedFor "s" .recorder [(.enableResult, [.release "s"])]) (drainedFor "t" .silent [])
      (by decide) (by decide) rfl).2

end World

end WirelessCharging
