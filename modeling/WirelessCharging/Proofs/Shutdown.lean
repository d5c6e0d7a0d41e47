import WirelessCharging.Proofs.Exclusion
/-!
Shutting down. A shutdown stops whatever it finds in the registry of its runtime, under any identifier, and answers
with the first failure. A registry lists one module at most, so the shutdown of a runtime, or of any clone, is the stop
of the module registered there, and so is disabling that module.
-/
namespace WirelessCharging

def firstFailure (answers : List Answer) : Answer := (answers.find? (· ≠ .ok)).getD .ok

namespace World

/-- All that a runtime finds in its registry, as it is when the runtime looks. -/
def snapshot (w : World) (runtime : String) : List ModuleRef :=
  (((w.runtimes.get? runtime).bind w.registries.get?).getD []).map (·.2)

/-- Stops some modules together and waits for all of the answers. Where there are several, how their waits overlap
is left open: there is nothing to wait for where there is nobody, and one module is stopped as it is by itself. -/
structure Joins (join : World → List ModuleRef → World × List Answer) : Prop where
  nobody : ∀ w, join w [] = (w, [])
  alone : ∀ w m, join w [m] = ((w.stop m).1, [(w.stop m).2])

/-- Disables all modules found in the registry of a runtime. -/
def shutdownAll (join : World → List ModuleRef → World × List Answer) (w : World) (runtime : String) :
    World × Answer :=
  let stopped := join w (w.snapshot runtime)
  (stopped.1, firstFailure stopped.2)

def StoppedForGood (w : World) (m : ModuleRef) : Prop :=
  ∀ later, Changes w later → (later.modules.get? m).any (·.cancelled) = true

def UnregisteredForGood (w : World) (m : ModuleRef) : Prop :=
  ∀ later, Changes w later → ∀ registry id, later.registration? registry id ≠ some m

/-- What a teardown has done when it returns. -/
structure TornDown (after : World) (m : ModuleRef) (answer : Answer) : Prop where
  stopped : after.StoppedForGood m
  unregistered : answer = .ok → after.UnregisteredForGood m

/-- The ways to tear down the module that is registered in the registry of a runtime: they are all one. -/
structure TeardownsAgree (join : World → List ModuleRef → World × List Answer) (w : World) (runtime : String)
    (m : ModuleRef) (target : Module) : Prop where
  snapshot : w.snapshot runtime = [m]
  shutdownAll : w.shutdownAll join runtime = w.stop m
  shutdown : w.shutdown runtime = w.stop m
  step : ∀ name, w.modules.latest? name = some m →
    w.step? (.shutdown runtime) = w.step? (.stop name) ∧ w.step? (.disable name) = w.step? (.stop name)
  answer : (w.stop m).2 = .ok ∨ (w.stop m).2 = .stopTimedOut .wlc target.stopLimit

end World

theorem firstFailure_single (answer : Answer) : firstFailure [answer] = answer := by
  by_cases ok : answer = .ok
  · rw [ok]
    rfl
  · simp [firstFailure, ok]

variable {move : Move}

namespace World

variable {w after later : World} {m : ModuleRef} {target : Module} {runtime : String} {registry : RegistryRef}
  {join : World → List ModuleRef → World × List Answer}

theorem Singly.registered (singly : w.Singly) {id : ModuleId} (stood : w.registration? registry id = some m) :
    id = .wlc ∧ ∃ target, w.modules.get? m = some target ∧ target.registry = registry ∧
      target.phase.isEntered = true := by
  obtain ⟨entries, listed, there⟩ := Option.bind_eq_some_iff.1 stood
  cases singly registry entries listed with
  | nobody => cases there
  | one found own entered =>
    simp only [Roster.get?] at there
    split at there
    · rename_i same
      obtain rfl := Option.some.inj there
      exact ⟨same.symm, _, found, own, entered⟩
    · cases there

theorem Singly.snapshot (singly : w.Singly) (runtime : String) : w.snapshot runtime =
    ((w.runtimes.get? runtime).bind fun registry => w.registration? registry .wlc).toList := by
  unfold World.snapshot
  cases w.runtimes.get? runtime with
  | none => rfl
  | some registry =>
    simp only [Option.bind_some, registration?]
    cases listed : w.registries.get? registry with
    | none => rfl
    | some entries =>
      cases singly registry entries listed with
      | nobody => rfl
      | one => rfl

theorem Joins.shutdownAll_eq (joins : Joins join) (singly : w.Singly) (runtime : String) :
    w.shutdownAll join runtime = w.shutdown runtime := by
  rw [shutdownAll, shutdown, singly.snapshot]
  cases (w.runtimes.get? runtime).bind fun registry => w.registration? registry .wlc with
  | none =>
    rw [Option.toList_none, joins.nobody]
    rfl
  | some m =>
    rw [Option.toList_some, joins.alone]
    exact Prod.ext rfl (firstFailure_single _)

theorem stop_answer (found : w.modules.get? m = some target) :
    (w.stop m).2 = .ok ∨ (w.stop m).2 = .stopTimedOut .wlc target.stopLimit := by
  simp only [stop, found]
  split
  · exact Or.inl rfl
  · split
    · rename_i impatient
      exact Or.inr (by rw [impatient])
    · split
      · exact Or.inl rfl
      · split
        · exact Or.inl rfl
        · exact Or.inr rfl

theorem stoppedForGood_of_cancelled (found : w.modules.get? m = some target) (cancelled : target.cancelled = true) :
    w.StoppedForGood m := by
  intro later changes
  obtain ⟨last, there, lasts⟩ := Changes.lasts changes found
  rw [there]
  exact lasts.cancelled cancelled

end World

theorem Change.unregistered {w later : World} (h : Change move w later) (rooted : w.Rooted) {m : ModuleRef}
    {target : Module} (found : w.modules.get? m = some target) (entered : target.phase.isEntered = true)
    {registry : RegistryRef} (absent : w.registration? registry .wlc ≠ some m) :
    later.registration? registry .wlc ≠ some m := by
  have quiet : ∀ {last : World}, last.registries = w.registries → last.registration? registry .wlc ≠ some m := by
    intro last same
    rwa [World.registration?_congr same]
  cases h with
  | deed h => exact quiet h.registries
  | @enrol other there foundThere idle name named vacant =>
    have different : other ≠ m := by
      rintro rfl
      obtain rfl := Option.some.inj (foundThere.symm.trans found)
      rw [idle] at entered
      cases entered
    have registers : ((w.register there.registry other).setPhase other .launching).registration? registry .wlc =
        if registry = there.registry then some other else w.registration? registry .wlc :=
      w.registration?_register (rooted.modules other there foundThere) vacant registry
    rw [registers]
    split
    · exact fun same => different (Option.some.inj same)
    · exact absent
  | spawn => exact quiet (World.wake_registries _ _)
  | cancel => exact quiet (World.wake_registries _ _)
  | deregister =>
    rw [World.registration?_deregister]
    split
    · exact fun same => nomatch same
    · exact absent
  | newRuntime name => rwa [World.registration?_newRuntime]
  | setFirstAside =>
    obtain ⟨ready, aside, same⟩ := w.setFirstAside_eq
    rw [same]
    exact quiet rfl
  | _ => exact quiet rfl

theorem Changes.unregistered {w later : World} (h : Changes w later) (rooted : w.Rooted) {m : ModuleRef}
    {target : Module} (found : w.modules.get? m = some target) (entered : target.phase.isEntered = true)
    {registry : RegistryRef} (absent : w.registration? registry .wlc ≠ some m) :
    later.registration? registry .wlc ≠ some m := by
  have kept : later.Rooted ∧ later.registration? registry .wlc ≠ some m := by
    induction h with
    | refl => exact ⟨rooted, absent⟩
    | tail through step ih =>
      obtain ⟨move, change⟩ := step
      obtain ⟨rooted, absent⟩ := ih
      obtain ⟨there, here, -⟩ := Changes.lasts through found
      have still := Changes.keepModule (P := fun target => target.phase.isEntered = true) Becomes.isEntered through
        found entered here
      exact ⟨change.rooted rooted, change.unregistered rooted here still absent⟩
  exact kept.2

namespace World

variable {w after later : World} {m : ModuleRef} {target : Module} {runtime : String} {registry : RegistryRef}
  {join : World → List ModuleRef → World × List Answer}

theorem unregisteredForGood_of_absent (occurs : w.Occurs) (found : w.modules.get? m = some target)
    (entered : target.phase.isEntered = true) (absent : w.registration? target.registry .wlc ≠ some m) :
    w.UnregisteredForGood m := by
  intro later changes registry id stood
  obtain ⟨rfl, there, here, own, -⟩ := (Occurs.singly (occurs.trans changes)).registered stood
  obtain ⟨same, sameFound, lasts⟩ := Changes.lasts changes found
  obtain rfl := Option.some.inj (sameFound.symm.trans here)
  rw [← own, lasts.registry] at stood
  exact Changes.unregistered changes (Occurs.rooted occurs) found entered absent stood

theorem deregister?_unregisters (occurs : w.Occurs) (found : w.modules.get? m = some target)
    (entered : target.phase.isEntered = true) (h : w.deregister? m = some after) : after.UnregisteredForGood m := by
  have occursAfter : after.Occurs := occurs.tail ⟨_, deregister?_change h⟩
  obtain ⟨there, here, rfl⟩ := deregister?_eq h
  obtain rfl := Option.some.inj (here.symm.trans found)
  have gone : (w.deregister there.registry).registration? there.registry .wlc = none := by
    rw [registration?_deregister, if_pos rfl]
  refine unregisteredForGood_of_absent occursAfter found entered ?_
  rw [gone]
  exact fun same => nomatch same

/-- A module that is stopped has been told so from the first half of its stop on, and has lost its registration when
the second half is over, whatever else went on between the two. -/
theorem cancelled_tornDown (reached : w.Reachable) (found : w.modules.get? m = some target)
    (entered : target.phase.isEntered = true) {waited : World} (leads : (w.cancel m).LeadsTo waited) :
    waited.StoppedForGood m ∧ ∀ after, waited.move? (.deregister m) = some after → after.TornDown m .ok := by
  have told := cancel_found found
  have through := leads.changes (reached.cancel m)
  have going := (reached.cancel m).leadsTo leads
  obtain ⟨last, there, lasts⟩ := Changes.lasts through told
  have still := Changes.keepModule (P := fun target => target.phase.isEntered = true) Becomes.isEntered through told
    entered there
  have stopped := stoppedForGood_of_cancelled there (lasts.cancelled rfl)
  refine ⟨stopped, ?_⟩
  intro after removed
  constructor
  case stopped => exact fun later changes => stopped later (changes.head ⟨_, deregister?_change removed⟩)
  case unregistered => exact fun _ => deregister?_unregisters going.changes there still removed

theorem stop_tornDown (reached : w.Reachable) (found : w.modules.get? m = some target)
    (entered : target.phase.isEntered = true) : (w.stop m).1.TornDown m (w.stop m).2 := by
  obtain ⟨waited, goes, ⟨ok, removed, -⟩ | ⟨failed, same⟩⟩ :=
    stop_moves reached found (Prod.eta (w.stop m)).symm
  · rw [ok]
    exact (cancelled_tornDown reached found entered goes.leadsTo).2 _ removed
  · rw [same]
    exact ⟨(cancelled_tornDown reached found entered goes.leadsTo).1, fun ok => absurd ok failed⟩

/-- In every world that can be reached, shutting down a runtime is stopping the one module that is registered there,
which comes to the same for every runtime of that registry and for a stop or a disable of the module: the same answer,
at the same time, in the same world. Where nobody is registered nothing happens. Whatever else goes on meanwhile, the
modules registered when the shutdown was called are told to stop for good, and once it has returned ok none of them is
ever registered again. -/
theorem shutdown_is_stop_of_registered (reached : w.Reachable) (joins : Joins join) :
    (∀ runtime registry m, w.runtimes.get? runtime = some registry → w.registration? registry .wlc = some m →
      ∃ target, w.modules.get? m = some target ∧ target.registry = registry ∧
        w.TeardownsAgree join runtime m target) ∧
      (∀ runtime registry, w.runtimes.get? runtime = some registry → w.registries.get? registry = some [] →
        w.shutdownAll join runtime = (w, .ok) ∧ w.shutdown runtime = (w, .ok)) ∧
      (∀ runtime after answer, w.shutdownAll join runtime = (after, answer) → ∀ m ∈ w.snapshot runtime,
        after.TornDown m answer) ∧
      ∀ runtime m waited, m ∈ w.snapshot runtime → (w.cancel m).LeadsTo waited →
        waited.StoppedForGood m ∧ ∀ after, waited.move? (.deregister m) = some after → after.TornDown m .ok := by
  have singly := Occurs.singly reached.changes
  have listed : ∀ runtime m, m ∈ w.snapshot runtime →
      w.shutdown runtime = w.stop m ∧ ∃ target, w.modules.get? m = some target ∧ target.phase.isEntered = true := by
    intro runtime m member
    rw [singly.snapshot, Option.mem_toList] at member
    obtain ⟨registry, -, stood⟩ := Option.bind_eq_some_iff.1 member
    obtain ⟨-, target, found, -, entered⟩ := singly.registered stood
    refine ⟨?_, target, found, entered⟩
    rw [shutdown, show _ = some m from member]
  refine ⟨?_, ?_, ?_, ?_⟩
  · intro runtime registry m bound stood
    obtain ⟨-, target, found, own, -⟩ := singly.registered stood
    have alone : w.snapshot runtime = [m] := by
      rw [singly.snapshot, bound, Option.bind_some, stood]
      rfl
    have stops : w.shutdown runtime = w.stop m := (listed runtime m (by rw [alone]; exact List.mem_singleton_self m)).1
    refine ⟨target, found, own, ?_⟩
    constructor
    case snapshot => exact alone
    case shutdownAll => rw [joins.shutdownAll_eq singly, stops]
    case shutdown => exact stops
    case step =>
      intro name latest
      simp only [step?, stops, stopNamed, latest, and_self]
    case answer => exact stop_answer found
  · intro runtime registry bound empty
    have nothing : w.shutdown runtime = (w, .ok) := by
      rw [shutdown, bound, Option.bind_some, registration?, empty]
      rfl
    exact ⟨(joins.shutdownAll_eq singly runtime).trans nothing, nothing⟩
  · intro runtime after answer shut m member
    obtain ⟨stops, target, found, entered⟩ := listed runtime m member
    rw [joins.shutdownAll_eq singly, stops] at shut
    have torn := stop_tornDown reached found entered
    rwa [shut] at torn
  · intro runtime m waited member leads
    obtain ⟨-, target, found, entered⟩ := listed runtime m member
    exact cancelled_tornDown reached found entered leads

def stopEach (w : World) : List ModuleRef → World × List Answer
  | [] => (w, [])
  | m :: rest =>
    let others := (w.stop m).1.stopEach rest
    (others.1, (w.stop m).2 :: others.2)

theorem stopEach_joins : Joins stopEach := ⟨fun _ => rfl, fun _ _ => rfl⟩

/-- A module whose stops wait for nothing is launched, and its runtime has a clone. -/
def launchedAndCloned : List Move :=
  [.build ⟨"a", "r", "d", some { stopLimit := 0 }, []⟩, .enrol "a", .spawn ⟨"a", 0⟩, .cloneRuntime "c" "r"]

theorem second_shutdown_finds_module_over : ∃ w later : World, w.Reachable ∧
    w.registration? ⟨"r", 0⟩ .wlc = some ⟨"a", 0⟩ ∧ w.shutdownAll stopEach "c" = w.stop ⟨"a", 0⟩ ∧
    (w.shutdownAll stopEach "c").2 = .stopTimedOut .wlc 0 ∧
    (w.shutdownAll stopEach "c").1.StoppedForGood ⟨"a", 0⟩ ∧
    w.play? [.cancel ⟨"a", 0⟩, .attend ⟨"a", 0⟩] = some later ∧
    (later.shutdownAll stopEach "r").2 = .ok ∧ (later.shutdownAll stopEach "r").1.UnregisteredForGood ⟨"a", 0⟩ := by
  obtain ⟨w, played⟩ :=
    Option.isSome_iff_exists.1 (by decide : (({} : World).play? launchedAndCloned).isSome = true)
  have first : (({} : World).play? launchedAndCloned).map (fun w => (w.runtimes.get? "c",
    w.registration? ⟨"r", 0⟩ .wlc, w.snapshot "c", (w.shutdownAll stopEach "c").2)) =
      some (some ⟨"r", 0⟩, some ⟨"a", 0⟩, [⟨"a", 0⟩], .stopTimedOut .wlc 0) := by decide
  have second : (({} : World).play? launchedAndCloned).map (fun w =>
    (w.play? [.cancel ⟨"a", 0⟩, .attend ⟨"a", 0⟩]).map fun later =>
      (later.snapshot "r", (later.shutdownAll stopEach "r").2)) = some (some ([⟨"a", 0⟩], .ok)) := by decide
  rw [played] at first second
  simp only [Option.map_some, Option.some.injEq, Prod.mk.injEq] at first
  obtain ⟨bound, stood, listed, timedOut⟩ := first
  obtain ⟨later, through, same⟩ := Option.map_eq_some_iff.1 (Option.some.inj second)
  obtain ⟨listedLater, ok⟩ := Prod.mk.inj same
  have reached : w.Reachable := ⟨launchedAndCloned, played⟩
  obtain ⟨agrees, -, tornDown, -⟩ := shutdown_is_stop_of_registered reached stopEach_joins
  obtain ⟨-, -, tornDownLater, -⟩ := shutdown_is_stop_of_registered (reached.leadsTo ⟨_, through⟩) stopEach_joins
  obtain ⟨target, -, -, stops⟩ := agrees "c" _ _ bound stood
  have torn := tornDown "c" _ _ rfl ⟨"a", 0⟩ (by rw [listed]; exact List.mem_singleton_self _)
  have gone := tornDownLater "r" _ _ rfl ⟨"a", 0⟩ (by rw [listedLater]; exact List.mem_singleton_self _)
  exact ⟨w, later, reached, stood, stops.shutdownAll, timedOut, torn.stopped, through, ok, gone.unregistered ok⟩

end World

end WirelessCharging
