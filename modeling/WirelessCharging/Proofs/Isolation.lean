import WirelessCharging.Proofs.Follows
/-!
A module does not notice the others. Take a run of which every step stays on the side of the module or on the other
one. If the steps on the other side are left out, except that dispatchers are let run where they were, the module is
answered the same and comes to the same.
-/
namespace WirelessCharging

namespace Step

def runs : Step → Bool
  | .stop _ => true
  | .disable _ => true
  | .shutdown _ => true
  | .drain => true
  | .wait _ => true
  | _ => false

def isDrain : Step → Bool
  | .drain => true
  | _ => false

end Step

namespace Side

variable (S : Side)

def stepStays (own : Bool) : Step → Bool
  | .act action => S.actionStays own action
  | .build plan => S.planStays own plan
  | .launch name => S.names name == own
  | .stop name => S.names name == own
  | .disable name => S.names name == own
  | .shutdown runtime => S.runtime runtime == own
  | .drain => true
  | .wait _ => true
  | .newRuntime runtime => S.runtime runtime == own
  | .cloneRuntime runtime source => S.runtime runtime == own && S.runtime source == own
  | .dropRuntime runtime => S.runtime runtime == own
  | .dropIdle name => S.names name == own
  | .inspect name => S.names name == own

def seenStep : Step → Step
  | .act action => .act (S.seenAction action)
  | .build plan => .build (S.seenPlan plan)
  | step => step

/-- What remains of a step if the other side is left out. -/
def keptStep? (step : Step) : Option Step :=
  if S.stepStays true step then some (S.seenStep step)
  else if step.runs then some .drain
  else none

end Side

variable {S : Side} {own : Bool} {w v later : World} {m : ModuleRef}

namespace World

theorem Apart.stopNamed (h : w.Apart S) (name : String) (fits : (w.stopNamed name).1.transfers <+: S.transfers) :
    (w.stopNamed name).1.Apart S := by
  unfold World.stopNamed at fits ⊢
  split
  · exact h
  · rename_i m latest
    rw [latest] at fits
    exact h.stop m fits

theorem Apart.shutdown (h : w.Apart S) (runtime : String) (fits : (w.shutdown runtime).1.transfers <+: S.transfers) :
    (w.shutdown runtime).1.Apart S := by
  unfold World.shutdown at fits ⊢
  split
  · exact h
  · rename_i m holds
    rw [holds] at fits
    exact h.stop m fits

theorem Apart.step? (h : w.Apart S) {step : Step} (stays : S.stepStays own step = true) {after : World}
    {answer : Answer} (stepped : w.step? step = some (after, answer)) (fits : after.transfers <+: S.transfers)
    (alone : (after.modules.keys.filter S.owns).length ≤ 1) : after.Apart S := by
  have same : ∀ {outcome : World × Answer}, some outcome = some (after, answer) → outcome.1 = after :=
    fun h => congrArg Prod.fst (Option.some.inj h)
  have settles : ∀ {before : World}, before.settle = after → (before.transfers <+: S.transfers → before.Apart S) →
      after.Apart S := by
    rintro before rfl apart
    exact (apart (before.settle_goesOn.leadsTo.extends.transfers.trans fits)).settle fits
  cases step with
  | act action =>
    obtain rfl := same stepped
    have moved : w.move? (.act action) = some (w.perform action).1 := rfl
    exact h.after moved (h.sided.perform stays)
  | build plan =>
    have followed : w.follow? plan = some (after, answer) := stepped
    have moved : w.move? (.build plan) = some after := by simp only [move?, followed, Option.map_some]
    exact h.after moved (h.sided.follow? (Side.planStays_iff.1 stays) followed alone)
  | launch name => exact same stepped ▸ h.launch name
  | stop name => exact settles (same stepped) (h.stopNamed name)
  | disable name => exact settles (same stepped) (h.stopNamed name)
  | shutdown runtime => exact settles (same stepped) (h.shutdown runtime)
  | drain => exact settles (same stepped) fun _ => h
  | wait milliseconds =>
    refine settles (same stepped) fun room => h.elapse milliseconds ?_
    rwa [World.elapse, advance_transfers] at room
  | newRuntime runtime =>
    obtain rfl := same stepped
    have moved : w.move? (.newRuntime runtime) = some (w.newRuntime runtime) := rfl
    exact h.after moved (h.sided.newRuntime runtime)
  | cloneRuntime runtime source =>
    obtain rfl := same stepped
    have moved : w.move? (.cloneRuntime runtime source) = some (w.cloneRuntime runtime source) := rfl
    simp only [Side.stepStays, Bool.and_eq_true, beq_iff_eq] at stays
    exact h.after moved (h.sided.cloneRuntime (stays.2.trans stays.1.symm))
  | dropRuntime runtime =>
    obtain rfl := same stepped
    have moved : w.move? (.dropRuntime runtime) = some (w.dropRuntime runtime) := rfl
    exact h.after moved (h.sided.dropRuntime runtime)
  | dropIdle name =>
    obtain rfl := same stepped
    have moved : w.move? (.dropIdle name) = some (w.dropIdle name) := rfl
    exact h.after moved (h.sided.dropIdle name)
  | inspect name => exact same stepped ▸ h

end World

namespace Side

namespace Mirrors

theorem stopNamed (h : S.Mirrors w v) (apart : w.Apart S) (reached : v.Reachable) {name : String}
    (own : S.names name = true) (fits : (w.stopNamed name).1.transfers <+: S.transfers) :
    S.MirrorsOutcome (w.stopNamed name) (v.stopNamed name) := by
  unfold World.stopNamed at fits ⊢
  rw [h.latest? own]
  cases latest : w.modules.latest? name with
  | none => exact ⟨h, rfl⟩
  | some m =>
    rw [latest] at fits
    have mine : S.owns m = true := by rw [Side.owns, Roster.name_of_latest? latest, own]
    exact h.stop apart reached mine fits

theorem stopNamedSettled (h : S.Mirrors w v) (apart : w.Apart S) (reached : v.Reachable) {name : String}
    (other : S.names name = false) (fits : (w.stopNamed name).1.settle.transfers <+: S.transfers) :
    S.Mirrors (w.stopNamed name).1.settle v.settle := by
  unfold World.stopNamed at fits ⊢
  cases latest : w.modules.latest? name with
  | none =>
    rw [latest] at fits
    exact h.settle apart reached fits
  | some m =>
    rw [latest] at fits
    have theirs : S.owns m = false := by rw [Side.owns, Roster.name_of_latest? latest, other]
    exact h.stopSettled apart reached theirs fits

theorem owns_registered (sided : w.Sided S) {runtime : String}
    (holds : (w.runtimes.get? runtime).bind (fun registry => w.registration? registry .wlc) = some m) :
    S.owns m = S.runtime runtime := by
  obtain ⟨registry, found, registered⟩ := Option.bind_eq_some_iff.1 holds
  exact (sided.registered registered).trans (sided.runtimes.get? found)

theorem shutdown (h : S.Mirrors w v) (apart : w.Apart S) (reached : v.Reachable) {runtime : String}
    (own : S.runtime runtime = true) (fits : (w.shutdown runtime).1.transfers <+: S.transfers) :
    S.MirrorsOutcome (w.shutdown runtime) (v.shutdown runtime) := by
  have there : (v.runtimes.get? runtime).bind (fun registry => v.registration? registry .wlc) =
      (w.runtimes.get? runtime).bind fun registry => w.registration? registry .wlc := by
    rw [h.runtime own]
    cases found : w.runtimes.get? runtime with
    | none => rfl
    | some registry => exact h.registration? ((apart.sided.runtimes.get? found).trans own) _
  unfold World.shutdown at fits ⊢
  rw [there]
  cases holds : (w.runtimes.get? runtime).bind (fun registry => w.registration? registry .wlc) with
  | none => exact ⟨h, rfl⟩
  | some m =>
    rw [holds] at fits
    exact h.stop apart reached ((owns_registered apart.sided holds).trans own) fits

theorem shutdownSettled (h : S.Mirrors w v) (apart : w.Apart S) (reached : v.Reachable) {runtime : String}
    (other : S.runtime runtime = false) (fits : (w.shutdown runtime).1.settle.transfers <+: S.transfers) :
    S.Mirrors (w.shutdown runtime).1.settle v.settle := by
  unfold World.shutdown at fits ⊢
  cases holds : (w.runtimes.get? runtime).bind (fun registry => w.registration? registry .wlc) with
  | none =>
    rw [holds] at fits
    exact h.settle apart reached fits
  | some m =>
    rw [holds] at fits
    exact h.stopSettled apart reached ((owns_registered apart.sided holds).trans other) fits

theorem elapse (h : S.Mirrors w v) (apart : w.Apart S) (reached : v.Reachable) (milliseconds : Nat)
    (fits : w.settle.transfers <+: S.transfers) : S.Mirrors (w.elapse milliseconds) (v.elapse milliseconds) := by
  have settled := h.settle apart reached fits
  have calm := (apart.settle fits).calm
  have numbered := (reached.leadsTo v.settle_goesOn.leadsTo).numbered
  simp only [World.elapse, calm.advance (apart.settle fits).reached.numbered, (settled.calm calm).advance numbered,
    settled.now]
  exact ⟨rfl, settled.registries, settled.runtimes, settled.modules, settled.devices, settled.subscribers,
    settled.transfers, settled.journal⟩

end Mirrors

theorem MirrorsOutcome.settled {outcome other : World × Answer} (h : S.MirrorsOutcome outcome other)
    (apart : outcome.1.Apart S) (reached : other.1.Reachable) (fits : outcome.1.settle.transfers <+: S.transfers) :
    S.MirrorsOutcome (World.settled outcome) (World.settled other) :=
  ⟨h.world.settle apart reached fits, h.answer⟩

namespace Mirrors

theorem step? (h : S.Mirrors w v) (apart : w.Apart S) (reached : v.Reachable) {step : Step}
    (stays : S.stepStays true step = true) {after : World} {answer : Answer}
    (stepped : w.step? step = some (after, answer)) (fits : after.transfers <+: S.transfers) :
    ∃ next, v.step? (S.seenStep step) = some (next, answer) ∧ S.Mirrors after next := by
  have free := apart.reached.free
  have alsoFree := reached.free
  have comes : ∀ {outcome other : World × Answer}, some outcome = some (after, answer) →
      S.MirrorsOutcome outcome other → ∃ next, some other = some (next, answer) ∧ S.Mirrors after next := by
    rintro outcome ⟨next, reply⟩ same ⟨world, rfl⟩
    obtain rfl := Option.some.inj same
    exact ⟨next, rfl, world⟩
  have settles : ∀ {outcome : World × Answer} (other : World × Answer),
      some (World.settled outcome) = some (after, answer) →
      (outcome.1.transfers <+: S.transfers → outcome.1.Apart S ∧ S.MirrorsOutcome outcome other) → other.1.Reachable →
      ∃ next, some (World.settled other) = some (next, answer) ∧ S.Mirrors after next := by
    intro outcome other same mirrors reached
    have last : outcome.1.settle = after := congrArg Prod.fst (Option.some.inj same)
    rw [← last] at fits
    obtain ⟨apart, both⟩ := mirrors (outcome.1.settle_goesOn.leadsTo.extends.transfers.trans fits)
    exact comes same (both.settled apart reached fits)
  cases step with
  | act action => exact comes stepped (h.perform apart.sided stays)
  | build plan =>
    have followed : w.follow? plan = some (after, answer) := stepped
    have both := h.follow? (planStays_iff.1 stays)
    rw [followed] at both
    generalize there : v.follow? (S.seenPlan plan) = other at both
    cases both with
    | some both =>
      obtain ⟨next, same, mirrors⟩ := comes rfl both
      exact ⟨next, there.trans same, mirrors⟩
  | launch name => exact comes stepped (h.launch apart.sided free alsoFree (beq_iff_eq.1 stays))
  | stop name =>
    refine settles _ stepped (fun room => ⟨apart.stopNamed name room, ?_⟩)
      (reached.leadsTo (World.stopNamed_leadsTo reached name))
    exact h.stopNamed apart reached (beq_iff_eq.1 stays) room
  | disable name =>
    refine settles _ stepped (fun room => ⟨apart.stopNamed name room, ?_⟩)
      (reached.leadsTo (World.stopNamed_leadsTo reached name))
    exact h.stopNamed apart reached (beq_iff_eq.1 stays) room
  | shutdown runtime =>
    refine settles _ stepped (fun room => ⟨apart.shutdown runtime room, ?_⟩)
      (reached.leadsTo (World.shutdown_leadsTo reached runtime))
    exact h.shutdown apart reached (beq_iff_eq.1 stays) room
  | drain =>
    have drained : some (World.settled (w, .ok)) = some (after, answer) := stepped
    exact settles (v, .ok) drained (fun _ => ⟨apart, h, rfl⟩) reached
  | wait milliseconds =>
    have waited : some (World.settled (w.elapse milliseconds, .ok)) = some (after, answer) := stepped
    refine settles (v.elapse milliseconds, .ok) waited (fun room => ?_)
      (reached.leadsTo (v.elapse_goesOn milliseconds).leadsTo)
    have settled : w.settle.transfers <+: S.transfers := by rwa [World.elapse, World.advance_transfers] at room
    exact ⟨apart.elapse milliseconds settled, h.elapse apart reached milliseconds settled, rfl⟩
  | newRuntime runtime => exact comes stepped ⟨h.newRuntime (beq_iff_eq.1 stays), rfl⟩
  | cloneRuntime runtime source =>
    simp only [stepStays, Bool.and_eq_true, beq_iff_eq] at stays
    exact comes stepped ⟨h.cloneRuntime stays.1 stays.2, rfl⟩
  | dropRuntime runtime =>
    refine comes stepped ⟨h.dropRuntime runtime, ?_⟩
    rw [h.runtime (beq_iff_eq.1 stays)]
  | dropIdle name =>
    have own : S.names name = true := beq_iff_eq.1 stays
    refine comes stepped ⟨h.dropIdle own, ?_⟩
    rw [h.idle? own, Option.isSome_map]
  | inspect name => exact comes stepped ⟨h, h.inspection apart.sided free alsoFree (beq_iff_eq.1 stays)⟩

theorem stepHidden (h : S.Mirrors w v) (apart : w.Apart S) {step : Step} (stays : S.stepStays false step = true)
    (quiet : step.runs = false) {after : World} {answer : Answer} (stepped : w.step? step = some (after, answer)) :
    S.Mirrors after v := by
  have same : ∀ {outcome : World × Answer}, some outcome = some (after, answer) → outcome.1 = after :=
    fun h => congrArg Prod.fst (Option.some.inj h)
  cases step with
  | act action => exact same stepped ▸ h.performHidden apart.sided stays
  | build plan => exact h.followHidden (planStays_iff.1 stays) stepped
  | launch name => exact same stepped ▸ h.launchHidden apart.sided (beq_iff_eq.1 stays)
  | newRuntime runtime => exact same stepped ▸ h.newRuntimeHidden (beq_iff_eq.1 stays)
  | cloneRuntime runtime source =>
    simp only [stepStays, Bool.and_eq_true, beq_iff_eq] at stays
    exact same stepped ▸ h.cloneRuntimeHidden stays.1 stays.2
  | dropRuntime runtime => exact same stepped ▸ h.dropRuntimeHidden (beq_iff_eq.1 stays)
  | dropIdle name => exact same stepped ▸ h.dropIdleHidden (beq_iff_eq.1 stays)
  | inspect name => exact same stepped ▸ h
  | _ => cases quiet

/-- Where it lets dispatchers run, they run in the other world as well. -/
theorem stepSettled (h : S.Mirrors w v) (apart : w.Apart S) (reached : v.Reachable) {step : Step}
    (stays : S.stepStays false step = true) (theirs : S.stepStays true step = false) (runs : step.runs = true)
    {after : World} {answer : Answer} (stepped : w.step? step = some (after, answer))
    (fits : after.transfers <+: S.transfers) : S.Mirrors after v.settle := by
  have last : ∀ {outcome : World × Answer}, some (World.settled outcome) = some (after, answer) →
      after = outcome.1.settle := fun same => (congrArg Prod.fst (Option.some.inj same)).symm
  cases step with
  | stop name =>
    obtain rfl := last stepped
    exact h.stopNamedSettled apart reached (beq_iff_eq.1 stays) fits
  | disable name =>
    obtain rfl := last stepped
    exact h.stopNamedSettled apart reached (beq_iff_eq.1 stays) fits
  | shutdown runtime =>
    obtain rfl := last stepped
    exact h.shutdownSettled apart reached (beq_iff_eq.1 stays) fits
  | drain => cases theirs
  | wait milliseconds => cases theirs
  | _ => cases runs

end Mirrors

structure Isolates (S : Side) (w v : World) : Prop where
  mirrors : S.Mirrors w v
  apart : w.Apart S
  reached : v.Reachable

theorem isolates_empty (S : Side) : S.Isolates {} {} := by
  refine ⟨mirrors_empty S, ⟨World.sided_empty S, ?_, World.reachable_empty⟩, World.reachable_empty⟩
  intro m target wake found
  cases found

theorem Isolates.step? (h : S.Isolates w v) {step : Step}
    (apart : S.stepStays true step = true ∨ S.stepStays false step = true) {after : World} {answer : Answer}
    (stepped : w.step? step = some (after, answer)) (fits : after.transfers <+: S.transfers)
    (alone : (after.modules.keys.filter S.owns).length ≤ 1) :
    (S.stepStays true step = true ∧
      ∃ next, v.step? (S.seenStep step) = some (next, answer) ∧ S.Isolates after next) ∨
    (S.stepStays true step = false ∧ if step.runs then S.Isolates after v.settle else S.Isolates after v) := by
  cases own : S.stepStays true step with
  | true =>
    obtain ⟨next, taken, mirrors⟩ := h.mirrors.step? h.apart h.reached own stepped fits
    have going := h.reached.leadsTo (World.step?_leadsTo h.reached taken)
    exact Or.inl ⟨rfl, next, taken, mirrors, h.apart.step? own stepped fits alone, going⟩
  | false =>
    have other := apart.resolve_left (ne_true_of_eq_false own)
    have still := h.apart.step? other stepped fits alone
    refine Or.inr ⟨rfl, ?_⟩
    cases runs : step.runs with
    | true =>
      have mirrors := h.mirrors.stepSettled h.apart h.reached other own runs stepped fits
      exact ⟨mirrors, still, h.reached.leadsTo v.settle_goesOn.leadsTo⟩
    | false => exact ⟨h.mirrors.stepHidden h.apart other runs stepped, still, h.reached⟩

theorem isDrain_seenStep (step : Step) : (S.seenStep step).isDrain = step.isDrain := by
  cases step <;> rfl

theorem Isolates.walk (h : S.Isolates w v) {steps : List Step} {last : World} (walked : w.walk? steps = some last)
    (apart : ∀ step ∈ steps, S.stepStays true step = true ∨ S.stepStays false step = true)
    (fits : last.transfers <+: S.transfers) (alone : (last.modules.keys.filter S.owns).length ≤ 1) :
    ∃ final, v.walk? (steps.filterMap S.keptStep?) = some final ∧ S.Isolates last final ∧
      v.walkAnswers (!·.isDrain) (steps.filterMap S.keptStep?) =
        w.walkAnswers (fun step => S.stepStays true step && !step.isDrain) steps := by
  induction steps generalizing w v with
  | nil => exact ⟨v, rfl, Option.some.inj walked ▸ h, rfl⟩
  | cons step rest ih =>
    obtain ⟨first, others⟩ := List.forall_mem_cons.1 apart
    obtain ⟨⟨after, answer⟩, stepped, through⟩ := Option.bind_eq_some_iff.1 walked
    have going := h.apart.reached.leadsTo (World.step?_leadsTo h.apart.reached stepped)
    have grown := (World.walk?_leadsTo going through).extends
    have fewer := Nat.le_trans (grown.modules.filter S.owns).length_le alone
    have answers : w.walkAnswers (fun step => S.stepStays true step && !step.isDrain) (step :: rest) =
        (if S.stepStays true step && !step.isDrain then [answer] else []) ++
          after.walkAnswers (fun step => S.stepStays true step && !step.isDrain) rest := by
      rw [World.walkAnswers, stepped]
    rw [answers]
    rcases h.step? first stepped (grown.transfers.trans fits) fewer with
      ⟨own, next, taken, isolates⟩ | ⟨theirs, isolates⟩
    · have kept : S.keptStep? step = some (S.seenStep step) := if_pos own
      obtain ⟨final, reaches, same, alike⟩ := ih isolates through others
      refine ⟨final, ?_, same, ?_⟩
      · rw [List.filterMap_cons_some kept, World.walk?, taken]
        exact reaches
      · simp only [List.filterMap_cons_some kept, World.walkAnswers, taken, isDrain_seenStep, own, Bool.true_and, alike]
    · have unasked : (S.stepStays true step && !step.isDrain) = false := by rw [theirs, Bool.false_and]
      rw [unasked, if_neg Bool.false_ne_true, List.nil_append]
      cases runs : step.runs with
      | true =>
        have kept : S.keptStep? step = some .drain := by
          simp only [keptStep?, theirs, runs, Bool.false_eq_true, if_false, if_true]
        rw [runs] at isolates
        obtain ⟨final, reaches, same, alike⟩ := ih isolates through others
        rw [List.filterMap_cons_some kept]
        exact ⟨final, reaches, same, alike⟩
      | false =>
        have kept : S.keptStep? step = none := by
          simp only [keptStep?, theirs, runs, Bool.false_eq_true, if_false]
        rw [runs] at isolates
        rw [List.filterMap_cons_none kept]
        exact ih isolates through others

end Side

/-- A call of a script with its answer. A reply to a transfer that has not been asked for comes to nothing. -/
def Entry.call? : Entry → Option (Action × Answer)
  | .acted action answer => if answer = .noSuchTransfer then none else some (action, answer)
  | _ => none

namespace Side

def seenCall? (S : Side) (entry : Entry) : Option (Action × Answer) :=
  (entry.call?.filter fun call => S.actionStays true call.1).map fun call => (S.seenAction call.1, call.2)

/-- The module on one side has come to the same in a world of both sides and in a world of that side. -/
structure SameFor (S : Side) (w v : World) : Prop where
  accepted : ∀ m, S.owns m = true → v.accepted m = w.accepted m
  taken : ∀ m, S.owns m = true → v.taken m = w.taken m
  deliveries : ∀ m, S.owns m = true → v.deliveries m = w.deliveries m
  /-- What its device was handed, with the two bytes of each power transfer. -/
  handed : ∀ m, S.owns m = true → v.handed m = w.handed m
  /-- What its callbacks and hooks were answered. -/
  answered : v.noted Entry.call? = w.noted S.seenCall?
  context : ∀ m, S.owns m = true → v.contextOf m = w.contextOf m
  subscribed : ∀ m, S.owns m = true → v.hasSubscriber (v.contextOf m) = w.hasSubscriber (w.contextOf m)
  stopped : v.stoppedModules = w.stoppedModules.filter fun entry => S.names entry.1
  registrations : v.registrations = w.registrations.filter fun entry => S.runtime entry.1

namespace Mirrors

theorem noted {α : Type} (h : S.Mirrors w v) {reading? whole? : Entry → Option α}
    (void : ∀ entry, entry.isVoid = true → reading? entry = none)
    (seen : ∀ entry, (S.entrySeen? entry).bind reading? = whole? entry) : v.noted reading? = w.noted whole? := by
  have plain : v.journal.filterMap reading? = (v.journal.filter (!·.isVoid)).filterMap reading? := by
    rw [List.filterMap_filter]
    apply List.filterMap_congr
    intro entry _
    cases nothing : entry.isVoid with
    | true => exact void entry nothing
    | false => rfl
  rw [World.noted, World.noted, plain, h.journal, List.filterMap_filterMap, funext seen]

theorem notedBy {α : Type} (h : S.Mirrors w v) {reading? : Entry → Option α}
    (calls : ∀ action answer, reading? (.acted action answer) = none)
    (numbers : ∀ m number device power duration, reading? (.forwarded m number device power duration) = none)
    (unseen : ∀ entry, S.entrySeen? entry = none → reading? entry = none) : v.noted reading? = w.noted reading? := by
  apply h.noted
  · intro entry nothing
    cases entry with
    | acted action answer => exact calls action answer
    | _ => cases nothing
  · intro entry
    cases seen : S.entrySeen? entry with
    | none => exact (unseen entry seen).symm
    | some other =>
      cases entry with
      | acted action answer =>
        obtain ⟨-, same⟩ := Option.ite_none_right_eq_some.1 seen
        rw [← same, Option.bind_some, calls, calls]
      | forwarded m number device power duration =>
        obtain ⟨-, same⟩ := Option.ite_none_right_eq_some.1 seen
        rw [← same, Option.bind_some, numbers, numbers]
      | _ =>
        obtain ⟨-, same⟩ := Option.ite_none_right_eq_some.1 seen
        exact Option.some.inj same ▸ rfl

theorem accepted (h : S.Mirrors w v) (own : S.owns m = true) : v.accepted m = w.accepted m := by
  refine h.notedBy (fun _ _ => rfl) (fun _ _ _ _ _ => rfl) ?_
  intro entry unseen
  cases entry with
  | accepted target envelope =>
    refine if_neg fun here => ?_
    simp only [entrySeen?, here, own, if_true, reduceCtorEq] at unseen
  | _ => rfl

theorem taken (h : S.Mirrors w v) (own : S.owns m = true) : v.taken m = w.taken m := by
  refine h.notedBy (fun _ _ => rfl) (fun _ _ _ _ _ => rfl) ?_
  intro entry unseen
  cases entry with
  | taken target envelope =>
    refine if_neg fun here => ?_
    simp only [entrySeen?, here, own, if_true, reduceCtorEq] at unseen
  | _ => rfl

theorem deliveries (h : S.Mirrors w v) (own : S.owns m = true) : v.deliveries m = w.deliveries m := by
  refine h.notedBy (fun _ _ => rfl) (fun _ _ _ _ _ => rfl) ?_
  intro entry unseen
  cases entry with
  | delivered source s event =>
    refine if_neg fun here => ?_
    simp only [entrySeen?, here, own, if_true, reduceCtorEq] at unseen
  | _ => rfl

theorem answered (h : S.Mirrors w v) : v.noted Entry.call? = w.noted S.seenCall? := by
  apply h.noted
  · intro entry void
    cases entry with
    | acted action answer => exact if_pos (beq_iff_eq.1 void)
    | _ => cases void
  · intro entry
    cases entry with
    | acted action answer =>
      by_cases void : answer = .noSuchTransfer
      · simp [entrySeen?, seenCall?, Entry.call?, void]
      · cases mine : S.actionStays true action with
        | true => simp [entrySeen?, seenCall?, Entry.call?, void, mine, Option.filter]
        | false => simp [entrySeen?, seenCall?, Entry.call?, void, mine, Option.filter]
    | _ =>
      simp only [entrySeen?, seenCall?, Entry.call?]
      split <;> rfl

theorem contextOf (h : S.Mirrors w v) (own : S.owns m = true) : v.contextOf m = w.contextOf m := by
  rw [World.contextOf, World.contextOf, h.found own]
  cases w.modules.get? m with
  | none => rfl
  | some target => rfl

theorem subscribed (h : S.Mirrors w v) (sided : w.Sided S) (free : w.inHand = []) (alsoFree : v.inHand = [])
    (own : S.owns m = true) : v.hasSubscriber (v.contextOf m) = w.hasSubscriber (w.contextOf m) := by
  rw [h.contextOf own, World.hasSubscriber, World.hasSubscriber, h.listener? sided free alsoFree]
  intro s registered
  rw [World.contextOf] at registered
  split at registered
  · cases registered
  · rename_i target found
    exact ((sided.modules.get? found).registered s registered).trans own

theorem handed (h : S.Mirrors w v) (own : S.owns m = true) : v.handed m = w.handed m := by
  rw [World.handed, World.handed, h.transfers, List.filter_filter]
  apply List.filter_congr
  intro transfer _
  by_cases here : transfer.issuer = m
  · simp only [here, decide_true, Bool.true_and, asked, own]
  · simp only [here, decide_false, Bool.false_and]

theorem stoppedModules (h : S.Mirrors w v) :
    v.stoppedModules = w.stoppedModules.filter fun entry => S.names entry.1 := by
  have latest : v.stoppedModules = v.modules.filterMap fun entry =>
      if w.modules.latest? entry.1.name = some entry.1 then some (entry.1.name, entry.2.cancelled) else none := by
    apply List.filterMap_congr
    rintro ⟨m, target⟩ member
    have listed : m ∈ v.modules.keys := List.mem_map_of_mem member
    rw [h.modules, Roster.keys_part] at listed
    simp only [h.latest? (List.mem_filter.1 listed).2]
  rw [latest, h.modules, World.stoppedModules, List.filter_filterMap, Roster.part, Roster.mapped, List.filterMap_map,
    List.filterMap_filter]
  apply List.filterMap_congr
  rintro ⟨m, target⟩ -
  have stopped : (S.seenModule target).cancelled = target.cancelled := rfl
  cases own : S.names m.name with
  | true =>
    simp only [owns, own, if_true, Function.comp_apply, stopped]
    split
    · simp only [Option.filter, own, if_true]
    · rfl
  | false =>
    simp only [owns, own, Bool.false_eq_true, if_false]
    split
    · simp only [Option.filter, own, Bool.false_eq_true, if_false]
    · rfl

theorem registrations (h : S.Mirrors w v) (sided : w.Sided S) :
    v.registrations = w.registrations.filter fun entry => S.runtime entry.1 := by
  rw [World.registrations, World.registrations, h.runtimes, Roster.part, Roster.mapped, List.filter_map, List.map_map]
  apply List.map_congr_left
  rintro ⟨name, registry⟩ member
  obtain ⟨there, own⟩ := List.mem_filter.1 member
  have registers : S.registers registry = true := (sided.runtimes _ there).trans own
  simp only [Function.comp_apply, id, h.registry registers, h.registration? registers]

end Mirrors

theorem Isolates.sameFor (h : S.Isolates w v) : S.SameFor w v where
  accepted _ own := h.mirrors.accepted own
  taken _ own := h.mirrors.taken own
  deliveries _ own := h.mirrors.deliveries own
  handed _ own := h.mirrors.handed own
  answered := h.mirrors.answered
  context _ own := h.mirrors.contextOf own
  subscribed _ own := h.mirrors.subscribed h.apart.sided h.apart.reached.free h.reached.free own
  stopped := h.mirrors.stoppedModules
  registrations := h.mirrors.registrations h.apart.sided

end Side

namespace World

/-- Take a run in which there is at most one module of some name, every step is on the side of that module or on the
other one, and so is whatever its callbacks and hooks do, with no hook that takes time. Leave out the steps on the
other side, and let dispatchers run where those did. This is a run as well; all of its steps on the side of the module
are answered as they were, and the module has come to the same. -/
theorem module_is_isolated {S : Side} {steps : List Step} {w : World} (walked : ({} : World).walk? steps = some w)
    (whole : S.transfers = w.transfers) (alone : (w.modules.keys.filter S.owns).length ≤ 1)
    (apart : ∀ step ∈ steps, S.stepStays true step = true ∨ S.stepStays false step = true) :
    ∃ v, ({} : World).walk? (steps.filterMap S.keptStep?) = some v ∧ S.SameFor w v ∧
      ({} : World).walkAnswers (!·.isDrain) (steps.filterMap S.keptStep?) =
        ({} : World).walkAnswers (fun step => S.stepStays true step && !step.isDrain) steps := by
  have fits : w.transfers <+: S.transfers := whole ▸ List.prefix_rfl
  obtain ⟨v, reaches, isolates, answers⟩ := (Side.isolates_empty S).walk walked apart fits alone
  exact ⟨v, reaches, isolates.sameFor, answers⟩

/-- The calls to two modules take turns, and a callback of the one asks for a power transfer. -/
def besideAnother : List Step :=
  [.build ⟨"a", "r", "d", some {}, []⟩, .build ⟨"b", "q", "e", some {}, []⟩,
    .act (.subscribe "s" .recorder [(.startResult, [.transfer "a" 5 10])]), .launch "b", .launch "a",
    .act (.enable "b" (some "t")), .act (.enable "a" (some "s")), .act (.transfer "b" 1 2), .act (.start "a" 0), .drain,
    .act (.reply 0 (.ended 7)), .act (.reply 1 (.ended 9)), .stop "b", .act (.notify "b" (.ended 8)), .stop "a"]

def sideOfOne : Side where
  module := "a"
  device name := name == "d"
  runtime name := name == "r"
  subscriber name := name == "s"
  transfers := [⟨⟨"b", 0⟩, "e", ⟨1, by decide⟩, ⟨2, by decide, by decide⟩⟩,
    ⟨⟨"a", 0⟩, "d", ⟨5, by decide⟩, ⟨10, by decide, by decide⟩⟩]

theorem same_beside_another : ∃ w v, ({} : World).walk? besideAnother = some w ∧
    ({} : World).walk? (besideAnother.filterMap sideOfOne.keptStep?) = some v ∧ sideOfOne.SameFor w v ∧
    w.transfers.map Transfer.bytes = [(1, 2), (5, 10)] ∧ v.transfers.map Transfer.bytes = [(5, 10)] ∧
    v.deliveries ⟨"a", 0⟩ =
      [(⟨"s", 0⟩, .enableResult .ok), (⟨"s", 0⟩, .startResult .ok), (⟨"s", 0⟩, .chargingResult 9)] := by
  have runs : (({} : World).walk? besideAnother).map (fun w =>
      (w.transfers, decide ((w.modules.keys.filter sideOfOne.owns).length ≤ 1))) =
        some (sideOfOne.transfers, true) := by
    decide +kernel
  have alsoRuns : (({} : World).walk? (besideAnother.filterMap sideOfOne.keptStep?)).map (fun v =>
      (v.transfers.map Transfer.bytes, v.deliveries ⟨"a", 0⟩)) = some ([(5, 10)],
        [(⟨"s", 0⟩, .enableResult .ok), (⟨"s", 0⟩, .startResult .ok), (⟨"s", 0⟩, .chargingResult 9)]) := by
    decide +kernel
  obtain ⟨w, walked, facts⟩ := Option.map_eq_some_iff.1 runs
  obtain ⟨transfers, alone⟩ := Prod.mk.inj facts
  obtain ⟨v, alsoWalked, same, -⟩ := module_is_isolated walked transfers.symm (of_decide_eq_true alone) (by decide)
  rw [alsoWalked, Option.map_some] at alsoRuns
  obtain ⟨bytes, deliveries⟩ := Prod.mk.inj (Option.some.inj alsoRuns)
  refine ⟨w, v, walked, alsoWalked, same, ?_, bytes, deliveries⟩
  rw [transfers]
  rfl

end World

end WirelessCharging
