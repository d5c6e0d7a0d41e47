import WirelessCharging.Proofs.Survival
/-!
Who owns a subscriber, call by call. A slot names the subscriber of the last enable that succeeded without keeping it.
It is kept by the caller's reference, by requests that wait in inboxes that are still there or are being dealt with,
and by the call that it has not returned from. Once all of these are gone it is gone for good, and the slot stays
empty until another enable succeeds.
-/
namespace WirelessCharging

/-- A run in the middle of a move or between two moves: the moves that have begun so far, the world in which the one
under way began, and what is left of its script. Between two moves no script is under way. -/
structure Scene where
  moves : List Move := []
  began : World := {}
  world : World := {}
  rest : Option Script := none

namespace Scene

inductive Step : Scene → Scene → Prop where
  | begins {moves : List Move} {w after : World} {move : Move} (moved : w.move? move = some after) :
      Step ⟨moves, w, w, none⟩ ⟨moves ++ [move], w, (w.calling move).1, some (w.calling move).2⟩
  | calls (moves : List Move) (began w : World) (action : Action) (rest : Script) :
      Step ⟨moves, began, w, some (action :: rest)⟩
        ⟨moves, began, (w.perform action).1.record (.acted action (w.perform action).2), some rest⟩
  | ends {moves : List Move} {began w after : World} {move : Move} (moved : began.move? move = some after) :
      Step ⟨moves ++ [move], began, w, some []⟩ ⟨moves ++ [move], after, after, none⟩

abbrev LeadsTo : Scene → Scene → Prop := Relation.ReflTransGen Step

def Reachable (scene : Scene) : Prop := LeadsTo {} scene

/-- The envelopes that the dispatcher of a module has got to, the one that it is dealing with among them. -/
def met (scene : Scene) (m : ModuleRef) : List (World × Envelope) := ({} : World).meetings m scene.moves

def untaken (scene : Scene) (m : ModuleRef) : List Envelope :=
  (scene.world.accepted m).drop (scene.world.taken m).length

def takenNow (scene : Scene) (m : ModuleRef) : List Envelope :=
  (scene.world.taken m).drop (scene.began.taken m).length

def deliveredNow (scene : Scene) (m : ModuleRef) : List (SubscriberRef × Event) :=
  (scene.world.deliveries m).drop (scene.began.deliveries m).length

/-- What keeps a subscriber alive. A slot does not. -/
inductive Owned (scene : Scene) (s : SubscriberRef) : Prop where
  /-- The reference that the caller has had since the subscriber came into being, and has not let go of. -/
  | caller (held : (scene.world.subscribers.get? s).any (·.held) = true)
  /-- The inbox of a module is there until the module has finished or is dropped. -/
  | waiting {m : ModuleRef} {target : Module} (found : scene.world.modules.get? m = some target)
      (unfinished : target.phase ≠ .finished) (undropped : target.phase ≠ .dropped)
      (waits : .request (.enable s) ∈ scene.untaken m)
  | dealtWith {m : ModuleRef} (taken : .request (.enable s) ∈ scene.takenNow m)
  | called {m : ModuleRef} {event : Event} (delivered : (s, event) ∈ scene.deliveredNow m)

/-- The moves before have been made, and the script of the one under way has got to where it is. -/
inductive Sound (scene : Scene) : Prop where
  | between (waiting : scene.rest = none) (played : ({} : World).play? scene.moves = some scene.world)
      (began : scene.began = scene.world)
  | within {before : List Move} {move : Move} {after : World} {first last : Script} (running : scene.rest = some last)
      (moves : scene.moves = before ++ [move]) (played : ({} : World).play? before = some scene.began)
      (moved : scene.began.move? move = some after) (split : (scene.began.calling move).2 = first ++ last)
      (world : scene.world = (scene.began.calling move).1.runScript first)

end Scene

theorem Phase.inboxState_eq_discarded {phase : Phase} :
    phase.inboxState = .discarded ↔ phase = .finished ∨ phase = .dropped := by
  cases phase <;> simp [inboxState]

def Entry.called? : Entry → Option SubscriberRef
  | .delivered _ s _ => some s
  | _ => none

theorem Entry.called?_eq_some {entry : Entry} {s : SubscriberRef} :
    entry.called? = some s ↔ ∃ m event, entry.deliveredBy? m = some (s, event) := by
  cases entry with
  | delivered source subscriber event =>
    constructor
    · intro called
      obtain rfl := Option.some.inj called
      exact ⟨source, event, if_pos rfl⟩
    · rintro ⟨m, heard, delivered⟩
      simp only [deliveredBy?] at delivered
      split at delivered
      · rw [called?, (Prod.mk.inj (Option.some.inj delivered)).1]
      · cases delivered
  | _ => simp [called?, deliveredBy?]

namespace World

variable {w after : World} {m : ModuleRef} {target : Module} {move : Move}

theorem callback_inHand (w : World) (m : ModuleRef) (s : SubscriberRef) (event : Event) :
    (w.callback m s event).1.inHand = w.inHand := by
  unfold callback
  dsimp only
  split
  · rfl
  · split
    · split <;> rfl
    · rfl

theorem reporting_inHand (free : w.inHand = []) (found : w.modules.get? m = some target) (event : Event) :
    (w.reporting m event).1.inHand = (w.reportEntry m target.context event).called?.toList := by
  simp only [reporting, reportEntry, found, Option.bind_some]
  cases w.listener? target.context with
  | some s => exact callback_inHand _ m s event
  | none => exact free

/-- Those in hand are those that the entry of the outcome tells of. -/
theorem dispatching_inHand (free : w.inHand = []) (found : w.modules.get? m = some target) (envelope : Envelope) :
    (w.dispatching m target envelope).1.inHand = (w.outcome m target envelope).2.called?.toList := by
  cases envelope with
  | notification notification => exact reporting_inHand free found _
  | request request =>
    cases request with
    | enable s =>
      simp only [dispatching, outcome]
      split
      · exact callback_inHand _ m s _
      · exact callback_inHand _ m s _
    | start mode =>
      simp only [dispatching, outcome]
      cases startRejection? target.context (w.readings target.device) mode with
      | some rejection => exact free
      | none =>
        have started : (w.setContext m (target.context.startedIn mode)).modules.get? m =
            some (target.withContext (target.context.startedIn mode)) := by
          simp [setContext, adjustModule, found]
        have same := w.reportEntry_setContext m target.context (.startResult .ok)
          (rfl : (target.context.startedIn mode).registered = target.context.registered)
        dsimp only
        rw [← same]
        exact reporting_inHand (w := w.setContext m (target.context.startedIn mode)) free started _
    | transfer power duration =>
      simp only [dispatching, transferring, outcome]
      split
      · exact free
      · split <;> exact free

/-- Those in hand are those called since, the subscribers of enables that have been taken since among them. -/
structure Announces (w later : World) : Prop where
  inHand : ∀ s, s ∈ later.inHand ↔ ∃ n event, (s, event) ∈ (later.deliveries n).drop (w.deliveries n).length
  enables : ∀ n s, .request (.enable s) ∈ (later.taken n).drop (w.taken n).length → s ∈ later.inHand

theorem announces_of_spares {later : World} (spares : ∀ n, w.Spares later n) (free : later.inHand = []) :
    w.Announces later := by
  constructor
  case inHand =>
    intro s
    simp only [free, (spares _).deliveries, List.drop_length, List.not_mem_nil, exists_false]
  case enables =>
    intro n s taken
    rw [(spares n).taken, List.drop_length] at taken
    cases taken

theorem attending_announces (free : w.inHand = []) (found : w.modules.get? m = some target)
    (running : target.phase = .running) (kept : target.cancelled = false) {envelope : Envelope} {inbox : Inbox}
    (took : target.inbox.take? = some (envelope, inbox)) : w.Announces (w.attending m).1 := by
  have there := w.took_found envelope inbox found
  have inHand : (w.attending m).1.inHand =
      ((w.took m envelope inbox).outcome m (target.withInbox inbox) envelope).2.called?.toList := by
    rw [attending_taking found running kept took, ← dispatching_withInbox _ m target inbox]
    exact dispatching_inHand (w := w.took m envelope inbox) free there envelope
  constructor
  case inHand =>
    intro s
    simp only [inHand, attending_deliveries found running kept took, List.drop_left, Option.mem_toList,
      Entry.called?_eq_some]
  case enables =>
    intro n s named
    rw [attending_taken found running kept took, List.drop_left] at named
    split at named
    · obtain rfl := List.mem_singleton.1 named
      rw [inHand, outcome_enable]
      exact List.mem_singleton_self s
    · cases named

theorem calling_announces (free : w.inHand = []) (h : w.move? move = some after) :
    w.Announces (w.calling move).1 := by
  cases move with
  | attend m =>
    obtain ⟨target, found, running, ⟨cancelled, -⟩ | ⟨kept, envelope, inbox, took, -⟩⟩ := attend?_eq_some.1 h
    · have changes : ChangesIn .rejoin w (w.attending m).1 := closing_changes found running cancelled
      exact announces_of_spares (fun _ => changes.spares fun same => Move.noConfusion same)
        ((closing_aside found running cancelled).2.trans free)
    · exact attending_announces free found running kept took
  | enrol name =>
    exact announces_of_spares (fun _ => (w.enrolling_changes name).spares fun same => Move.noConfusion same)
      ((w.enrolling_aside name).2.trans free)
  | _ => exact announces_of_spares (fun _ => ⟨rfl, rfl, rfl⟩) free

theorem Announces.runScript {later : World} (h : w.Announces later) (script : Script) :
    w.Announces (later.runScript script) := by
  have spares := (later.runScript_deeds script).spares
  constructor
  case inHand =>
    intro s
    simp only [(later.runScript_aside script).2.2, (spares _).deliveries, h.inHand]
  case enables =>
    intro n s taken
    rw [(spares n).taken] at taken
    rw [(later.runScript_aside script).2.2]
    exact h.enables n s taken

theorem calling_contextOf (reached : w.Reachable) (h : w.move? move = some after) (m : ModuleRef) :
    (w.calling move).1.contextOf m = after.contextOf m := by
  by_cases own : move = .attend m
  · subst own
    obtain ⟨target, found, running, ⟨cancelled, rfl⟩ | ⟨kept, envelope, inbox, took, -⟩⟩ := attend?_eq_some.1 h
    · have before : ChangesIn .rejoin w (w.attending m).1 := closing_changes found running cancelled
      have through : ChangesIn .rejoin w (w.closeDown m target) := w.closeDown_changes m found running cancelled
      have first := (before.spares (m := m) fun same => Move.noConfusion same).context
      exact first.trans (through.spares fun same => Move.noConfusion same).context.symm
    · rw [attend?_returns reached.free h found running kept took]
      exact ((runScript_deeds _ _).spares m).context.symm
  · have first := ((calling_changes h).spares own).context
    exact first.trans ((move_changes reached.numbered h).spares own).context.symm

end World

namespace Scene

variable {scene next later : Scene} {m : ModuleRef} {s : SubscriberRef}

theorem Step.sound (step : Step scene next) (sound : scene.Sound) : next.Sound := by
  cases step with
  | begins moved =>
    cases sound with
    | between waiting played => exact .within rfl rfl played moved (List.nil_append _).symm rfl
    | within running => cases running
  | calls moves began w action rest =>
    cases sound with
    | between waiting => cases waiting
    | @within before move after first last running same played moved split world =>
      obtain rfl := Option.some.inj running
      have next : (began.calling move).2 = (first ++ [action]) ++ rest := by
        rw [List.append_assoc, List.singleton_append]
        exact split
      refine .within rfl same played moved next ?_
      rw [World.runScript_append, ← world]
      rfl
  | @ends moves began w after move moved =>
    cases sound with
    | between waiting => cases waiting
    | within running same played =>
      obtain ⟨rfl, -⟩ := List.append_inj' same rfl
      exact .between rfl ((World.play?_append moves [move]).2 ⟨began, played, World.play?_cons.2 ⟨after, moved, rfl⟩⟩) rfl

theorem LeadsTo.sound (h : LeadsTo scene later) (sound : scene.Sound) : later.Sound := by
  induction h with
  | refl => exact sound
  | tail _ step ih => exact step.sound ih

theorem Reachable.sound (reached : scene.Reachable) : scene.Sound := LeadsTo.sound reached (.between rfl rfl rfl)

/-- The world that the moves begun so far lead to. What modules remember in the middle of the last of them is what they
remember in the end. -/
theorem Sound.played (sound : scene.Sound) : ∃ after, ({} : World).play? scene.moves = some after ∧
    ∀ m, scene.world.contextOf m = after.contextOf m := by
  cases sound with
  | between waiting played => exact ⟨scene.world, played, fun _ => rfl⟩
  | @within before move after first last running moves played moved split world =>
    have through : ({} : World).play? scene.moves = some after := by
      rw [moves]
      exact (World.play?_append before [move]).2 ⟨scene.began, played, World.play?_cons.2 ⟨after, moved, rfl⟩⟩
    refine ⟨after, through, fun m => ?_⟩
    rw [world, ← World.calling_contextOf ⟨before, played⟩ moved]
    exact ((World.runScript_deeds _ first).spares m).context

theorem Sound.registered (sound : scene.Sound) (m : ModuleRef) :
    (scene.world.contextOf m).registered = World.lastEnabled m (scene.met m) := by
  obtain ⟨after, played, remembers⟩ := sound.played
  obtain ⟨-, -, registered⟩ := World.play_routes World.numbered_empty played m
  rw [World.latestOf_eq] at registered
  rw [remembers, registered]
  exact Option.or_none

theorem Sound.reachable (sound : scene.Sound) : scene.began.Reachable := by
  cases sound with
  | between waiting played began => exact ⟨scene.moves, by rw [began, played]⟩
  | within running moves played => exact ⟨_, played⟩

theorem Sound.occurs (sound : scene.Sound) : scene.world.Occurs := by
  have reached := sound.reachable
  cases sound with
  | between waiting played began => exact began ▸ reached.changes
  | @within before move after first last running moves played moved split world =>
    have called : ChangesIn move scene.began scene.world := by
      rw [world]
      exact (World.calling_changes moved).trans (World.runScript_deeds _ first).changes
    exact reached.changes.trans called.changes

theorem Sound.announces (sound : scene.Sound) : scene.began.Announces scene.world := by
  have free := sound.reachable.free
  cases sound with
  | between waiting played began =>
    rw [began] at free ⊢
    exact World.announces_of_spares (fun _ => ⟨rfl, rfl, rfl⟩) free
  | @within before move after first last running moves played moved split world =>
    rw [world]
    exact (World.calling_announces free moved).runScript first

/-- What an inbox that is there holds is what has been accepted and not taken. -/
theorem mem_queue_iff (occurs : scene.world.Occurs) {target : Module} (found : scene.world.modules.get? m = some target)
    {envelope : Envelope} : envelope ∈ target.inbox.queue ↔
      target.phase ≠ .finished ∧ target.phase ≠ .dropped ∧ envelope ∈ scene.untaken m := by
  have state := occurs.inboxState found
  by_cases discarded : target.inbox.state = .discarded
  · rw [occurs.emptied found discarded]
    rw [discarded, eq_comm, Phase.inboxState_eq_discarded] at state
    constructor
    · intro waits
      cases waits
    · rintro ⟨unfinished, undropped, -⟩
      exact absurd state (not_or.2 ⟨unfinished, undropped⟩)
  · have conserved := occurs.conserved m
    rw [found] at conserved
    rw [untaken, conserved.waiting discarded, List.drop_left]
    rw [state, Phase.inboxState_eq_discarded, not_or] at discarded
    exact ⟨fun waits => ⟨discarded.1, discarded.2, waits⟩, fun waits => waits.2.2⟩

theorem Sound.isAlive_iff (sound : scene.Sound) : scene.world.isAlive s = true ↔ scene.Owned s := by
  have occurs := sound.occurs
  have announces := sound.announces
  rw [World.isAlive_iff (Changes.keep Change.numbered occurs World.numbered_empty), announces.inHand]
  constructor
  · rintro (held | ⟨m, target, found, holds⟩ | ⟨m, event, delivered⟩)
    · exact .caller held
    · obtain ⟨unfinished, undropped, waits⟩ := (mem_queue_iff occurs found).1 (List.contains_iff_mem.1 holds)
      exact .waiting found unfinished undropped waits
    · exact .called delivered
  · rintro (held | ⟨found, unfinished, undropped, waits⟩ | taken | delivered)
    · exact Or.inl held
    · refine Or.inr (Or.inl ⟨_, _, found, List.contains_iff_mem.2 ?_⟩)
      exact (mem_queue_iff occurs found).2 ⟨unfinished, undropped, waits⟩
    · exact Or.inr (Or.inr ((announces.inHand s).1 (announces.enables _ s taken)))
    · exact Or.inr (Or.inr ⟨_, _, delivered⟩)

theorem Step.revivesNobody (step : Step scene next) (sound : scene.Sound) (numbered : scene.world.subscribers.Numbered) :
    scene.world.RevivesNobody next.world := by
  cases step with
  | begins moved =>
    have reached := sound.reachable
    exact World.calling_revivesNobody reached.numbered numbered reached.free moved
  | calls moves began w action rest => exact World.call_revivesNobody numbered action
  | @ends moves began w after move moved =>
    have reached := sound.reachable
    cases sound with
    | between waiting => cases waiting
    | within running same played before split world =>
      obtain ⟨rfl, last⟩ := List.append_inj' same rfl
      obtain rfl := List.singleton_inj.1 last
      obtain rfl := Option.some.inj running
      rw [List.append_nil] at split
      subst split
      rw [world]
      exact World.past_revivesNobody reached reached.revivesNobody.numbered moved

theorem LeadsTo.revivesNobody (h : LeadsTo scene later) (sound : scene.Sound)
    (numbered : scene.world.subscribers.Numbered) : scene.world.RevivesNobody later.world := by
  induction h with
  | refl => exact .refl numbered
  | tail through step ih => exact ih.trans (step.revivesNobody (LeadsTo.sound through sound) ih.numbered)

theorem LeadsTo.moves (h : LeadsTo scene later) : ∃ more, later.moves = scene.moves ++ more := by
  induction h with
  | refl => exact ⟨[], (List.append_nil _).symm⟩
  | tail _ step ih =>
    obtain ⟨more, same⟩ := ih
    cases step with
    | @begins moves w after move => exact ⟨more ++ [move], by rw [← List.append_assoc, ← same]⟩
    | calls => exact ⟨more, same⟩
    | ends => exact ⟨more, same⟩

theorem reachable_runScript {moves : List Move} {began w : World} {script rest : Script}
    (reached : Reachable ⟨moves, began, w, some (script ++ rest)⟩) :
    Reachable ⟨moves, began, w.runScript script, some rest⟩ := by
  induction script generalizing w with
  | nil => exact reached
  | cons action script ih => exact ih (reached.tail (.calls moves began w action _))

theorem reachable_of_play {moves : List Move} {w last : World} {more : List Move} (reached : Reachable ⟨moves, w, w, none⟩)
    (played : w.play? more = some last) : Reachable ⟨moves ++ more, last, last, none⟩ := by
  induction more generalizing w moves with
  | nil =>
    obtain rfl := Option.some.inj played
    rwa [List.append_nil]
  | cons move rest ih =>
    obtain ⟨after, moved, through⟩ := World.play?_cons.1 played
    have begun : Reachable ⟨moves ++ [move], w, (w.calling move).1, some ((w.calling move).2 ++ [])⟩ := by
      rw [List.append_nil]
      exact reached.tail (.begins moved)
    have ended := (reachable_runScript begun).tail (.ends moved)
    rw [← List.singleton_append, ← List.append_assoc]
    exact ih ended through

theorem Sound.listener?_eq_some (sound : scene.Sound) (m : ModuleRef) :
    scene.world.listener? (scene.world.contextOf m) = some s ↔
      World.lastEnabled m (scene.met m) = some s ∧ scene.Owned s := by
  rw [World.listener?, Option.filter_eq_some_iff, sound.registered, sound.isAlive_iff]

theorem Sound.hasSubscriber_iff (sound : scene.Sound) (m : ModuleRef) :
    scene.world.hasSubscriber (scene.world.contextOf m) = true ↔
      ∃ s, World.lastEnabled m (scene.met m) = some s ∧ scene.Owned s := by
  simp only [World.hasSubscriber, Option.isSome_iff_exists, sound.listener?_eq_some]

theorem Reachable.revivesNobody (reached : scene.Reachable) : ({} : World).RevivesNobody scene.world :=
  LeadsTo.revivesNobody reached (.between rfl rfl rfl) Roster.numbered_nil

theorem Reachable.known (reached : scene.Reachable) (last : World.lastEnabled m (scene.met m) = some s) :
    s ∈ scene.world.subscribers.keys := by
  rw [← reached.sound.registered] at last
  rcases reached.revivesNobody.registered m s last with initial | alive | new
  · cases initial
  · cases alive
  · exact new.2

theorem Reachable.disowned (reached : scene.Reachable) (last : World.lastEnabled m (scene.met m) = some s)
    (gone : ¬ scene.Owned s) (leads : LeadsTo scene later) : ¬ later.Owned s := by
  intro owned
  have sound := reached.sound
  have alive := (LeadsTo.sound leads sound).isAlive_iff.2 owned
  rcases (leads.revivesNobody sound reached.revivesNobody.numbered).alive s alive with before | new
  · exact gone (sound.isAlive_iff.1 before)
  · exact new.1 (reached.known last)

theorem LeadsTo.met (leads : LeadsTo scene later) (sound : scene.Sound) (m : ModuleRef) :
    ∃ more, later.met m = scene.met m ++ more := by
  obtain ⟨more, moves⟩ := leads.moves
  obtain ⟨after, played, -⟩ := sound.played
  exact ⟨after.meetings m more, by rw [Scene.met, moves, World.meetings_append played, Scene.met]⟩

/-- At every moment, in the middle of a callback or a hook as well as between two moves, the slot of a module holds
the subscriber of the last enable that succeeded if that one is owned by somebody, and otherwise nobody. A slot does not
keep alive who is in it. Once the last owner is gone the subscriber is never owned again, and nobody is registered
until another enable has succeeded, whose subscriber it is then; nobody from before comes back. -/
theorem registered_iff_owned (reached : scene.Reachable) (m : ModuleRef) :
    (scene.world.hasSubscriber (scene.world.contextOf m) = true ↔
      ∃ s, World.lastEnabled m (scene.met m) = some s ∧ scene.Owned s) ∧
    (∀ s, scene.world.listener? (scene.world.contextOf m) = some s ↔
      World.lastEnabled m (scene.met m) = some s ∧ scene.Owned s) ∧
    (∀ n context, (scene.world.setContext n context).isAlive = scene.world.isAlive) ∧
    ∀ s, World.lastEnabled m (scene.met m) = some s → ¬ scene.Owned s → ∀ later, LeadsTo scene later →
      ¬ later.Owned s ∧ ∃ more, later.met m = scene.met m ++ more ∧
        (later.world.hasSubscriber (later.world.contextOf m) = true ↔
          ∃ t, World.lastEnabled m more = some t ∧ later.Owned t) := by
  have sound := reached.sound
  refine ⟨sound.hasSubscriber_iff m, fun s => sound.listener?_eq_some m, ?_, ?_⟩
  · intro n context
    exact funext fun s => scene.world.isAlive_setContext n context s
  · intro s last gone later leads
    have disowned := reached.disowned last gone leads
    obtain ⟨more, grown⟩ := leads.met sound m
    refine ⟨disowned, more, grown, ?_⟩
    rw [(LeadsTo.sound leads sound).hasSubscriber_iff, grown, World.lastEnabled_append, last]
    cases World.lastEnabled m more with
    | some t => rw [Option.some_or]
    | none =>
      rw [Option.none_or]
      constructor
      · rintro ⟨t, same, owned⟩
        obtain rfl := Option.some.inj same
        exact absurd owned disowned
      · rintro ⟨t, missing, -⟩
        cases missing

def releasingWhenEnabled : List Move :=
  [.build ⟨"a", "r", "d", some {}, []⟩, .enrol "a", .spawn ⟨"a", 0⟩,
    .act (.subscribe "s" .recorder [(.enableResult, [.release "s"])]), .act (.enable "a" (some "s"))]

theorem registration_ends_when_callback_returns : ∃ called returned : Scene,
    called.Reachable ∧ LeadsTo called returned ∧ called.world.heldSubscriber? "s" = none ∧
    called.world.hasSubscriber (called.world.contextOf ⟨"a", 0⟩) = true ∧
    returned.world.hasSubscriber (returned.world.contextOf ⟨"a", 0⟩) = false ∧
    ∀ later, LeadsTo returned later → ¬ later.Owned ⟨"s", 0⟩ := by
  obtain ⟨w, played⟩ :=
    Option.isSome_iff_exists.1 (by decide : (({} : World).play? releasingWhenEnabled).isSome = true)
  have during : (({} : World).play? releasingWhenEnabled).map (fun w =>
    ((w.attending ⟨"a", 0⟩).1.runScript (w.attending ⟨"a", 0⟩).2).heldSubscriber? "s") = some none := by decide
  have listens : (({} : World).play? releasingWhenEnabled).map (fun w =>
    ((w.attending ⟨"a", 0⟩).1.runScript (w.attending ⟨"a", 0⟩).2).listener?
      (((w.attending ⟨"a", 0⟩).1.runScript (w.attending ⟨"a", 0⟩).2).contextOf ⟨"a", 0⟩)) =
    some (some ⟨"s", 0⟩) := by decide
  have past : (({} : World).play? releasingWhenEnabled).map (fun w => (w.attend? ⟨"a", 0⟩).map fun after =>
    after.listener? (after.contextOf ⟨"a", 0⟩)) = some (some none) := by decide
  rw [played] at during listens past
  obtain ⟨after, attended, silent⟩ := Option.map_eq_some_iff.1 (Option.some.inj past)
  let moves := releasingWhenEnabled ++ [.attend ⟨"a", 0⟩]
  let called : Scene := ⟨moves, w, (w.attending ⟨"a", 0⟩).1.runScript (w.attending ⟨"a", 0⟩).2, some []⟩
  let returned : Scene := ⟨moves, after, after, none⟩
  have begun : Reachable ⟨moves, w, (w.attending ⟨"a", 0⟩).1, some ((w.attending ⟨"a", 0⟩).2 ++ [])⟩ := by
    rw [List.append_nil]
    exact (reachable_of_play .refl played).tail (.begins attended)
  have calling : called.Reachable := reachable_runScript begun
  have returns : Step called returned := .ends attended
  obtain ⟨registered, keeps, -⟩ := registered_iff_owned calling ⟨"a", 0⟩
  obtain ⟨last, owned⟩ := (keeps ⟨"s", 0⟩).1 (Option.some.inj listens)
  obtain ⟨unregistered, releases, -, disowns⟩ := registered_iff_owned (calling.tail returns) ⟨"a", 0⟩
  have gone : ¬ returned.Owned ⟨"s", 0⟩ := by
    intro owns
    have listening := (releases ⟨"s", 0⟩).2 ⟨last, owns⟩
    rw [show returned.world.listener? (returned.world.contextOf ⟨"a", 0⟩) = none from silent] at listening
    cases listening
  refine ⟨called, returned, calling, .single returns, Option.some.inj during, ?_, ?_, ?_⟩
  · exact registered.2 ⟨_, last, owned⟩
  · rw [World.hasSubscriber, show returned.world.listener? (returned.world.contextOf ⟨"a", 0⟩) = none from silent]
    rfl
  · exact fun later leads => (disowns _ last gone later leads).1

end Scene

end WirelessCharging
