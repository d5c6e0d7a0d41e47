import WirelessCharging.Proofs.Posting
import WirelessCharging.Proofs.Stages
/-!
When hooks are called, and what they are shown. The first hook of a module is called when its launch registers it,
before it has taken an envelope; the last one is called when its dispatcher sees its cancellation, after which
neither an envelope is taken nor anything changes that the module remembers.
-/
namespace WirelessCharging

/-- A hook that was called, and what it was shown of its module. -/
structure HookCall where
  kind : HookKind
  tag : Tag
  context : Context
  subscribed : Bool
  deriving DecidableEq, Repr

def Entry.hookBy? (m : ModuleRef) : Entry → Option HookCall
  | .hookCalled source kind tag context subscribed =>
    if source = m then some ⟨kind, tag, context, subscribed⟩ else none
  | _ => none

def Entry.isOfHook : Entry → Bool
  | .hookCalled _ _ _ _ _ => true
  | .hookDone _ _ _ => true
  | _ => false

namespace Module

def hookCall (target : Module) (kind : HookKind) (subscribed : Bool) : List HookCall :=
  (target.hook? kind).toList.map fun hook => ⟨kind, hook.tag, target.context, subscribed⟩

/-- The call of the first hook, which is shown that nothing has happened yet. -/
def firstCall (target : Module) : List HookCall := (target.withContext {}).hookCall .beforeStart false

def script (target : Module) (kind : HookKind) : Script := ((target.hook? kind).map (·.script)).getD []

/-- The hooks that a module has called by now. -/
def hookCallsSoFar (target : Module) (subscribed : Bool) : List HookCall :=
  match target.phase with
  | .idle => []
  | .launching => target.firstCall
  | .running => target.firstCall
  | .closing _ => target.firstCall ++ target.hookCall .afterStop subscribed
  | .finished => target.firstCall ++ target.hookCall .afterStop subscribed
  | .dropped => []

end Module

/-- The dispatcher of the module is at work, or has been. -/
def Phase.hasRun : Phase → Bool
  | .idle => false
  | .launching => false
  | .running => true
  | .closing _ => true
  | .finished => true
  | .dropped => false

/-- Nothing more is to come from the dispatcher of the module but the end of its last hook. -/
def Phase.isPast : Phase → Bool
  | .idle => false
  | .launching => false
  | .running => false
  | .closing _ => true
  | .finished => true
  | .dropped => true

namespace World

def hookCalls (w : World) (m : ModuleRef) : List HookCall := w.noted (Entry.hookBy? m)

def leaves (moment : World) (m : ModuleRef) (envelope : Envelope) : Context :=
  match moment.modules.get? m with
  | none => {}
  | some target => (moment.outcome m target envelope).1

def lastLeft (m : ModuleRef) (meetings : List (World × Envelope)) : Context :=
  (meetings.getLast?.map fun (moment, envelope) => moment.leaves m envelope).getD {}

structure HasCalled (w : World) (m : ModuleRef) (target : Module) : Prop where
  calls : ∃ subscribed, w.hookCalls m = target.hookCallsSoFar subscribed
  memory : target.phase.hasRun = false → target.context = {}
  taken : target.phase.hasRun = false → w.taken m = []

def HasCalledIfBuilt (w : World) (m : ModuleRef) : Prop :=
  match w.modules.get? m with
  | none => w.hookCalls m = []
  | some target => w.HasCalled m target

/-- What has come to the journal since is all of one kind. -/
def Logs (P : Entry → Prop) (w later : World) : Prop :=
  ∃ more, later.journal = more ++ w.journal ∧ ∀ entry ∈ more, P entry

/-- What a move can leave in the journal: entries that are not about hooks, calls of hooks at the two turning points,
and the ends of hooks that took their time. -/
inductive Notes (w : World) (move : Move) : Entry → Prop where
  | plain {entry : Entry} (unhooked : entry.isOfHook = false) : w.Notes move entry
  | called {m : ModuleRef} {target : Module} (turns : w.Enrols m target move ∨ w.Observes m target move)
      (kind : HookKind) (tag : Tag) (context : Context) (subscribed : Bool) :
      w.Notes move (.hookCalled m kind tag context subscribed)
  | firstOver {m : ModuleRef} (named : move = .spawn m) (tag : Tag) : w.Notes move (.hookDone m .beforeStart tag)
  | lastOver {time : Nat} (named : move = .pass time) (m : ModuleRef) (tag : Tag) :
      w.Notes move (.hookDone m .afterStop tag)

structure Rests (w later : World) (m : ModuleRef) : Prop where
  hookCalls : later.hookCalls m = w.hookCalls m
  taken : later.taken m = w.taken m
  context : later.contextOf m = w.contextOf m

end World

namespace World

variable {P : Entry → Prop}

theorem logs_of_same {w later : World} (same : later.journal = w.journal) : Logs P w later :=
  ⟨[], same, List.forall_mem_nil _⟩

theorem logs_entry {w later : World} {entry : Entry} (recorded : later.journal = entry :: w.journal)
    (holds : P entry) : Logs P w later := ⟨[entry], recorded, List.forall_mem_singleton.2 holds⟩

theorem Logs.trans {w middle later : World} (first : Logs P w middle) (rest : Logs P middle later) :
    Logs P w later := by
  obtain ⟨more, grown, holds⟩ := first
  obtain ⟨last, on, alsoHolds⟩ := rest
  exact ⟨last ++ more, by rw [on, grown, List.append_assoc], List.forall_mem_append.2 ⟨alsoHolds, holds⟩⟩

theorem Logs.noted_eq {α : Type} {w later : World} (h : Logs P w later) {reading? : Entry → Option α}
    (unread : ∀ entry, P entry → reading? entry = none) : later.noted reading? = w.noted reading? := by
  obtain ⟨more, grown, holds⟩ := h
  have nothing : more.filterMap reading? = [] :=
    List.filterMap_eq_nil_iff.2 fun entry member => unread entry (holds entry member)
  rw [noted, noted, grown, List.filterMap_append, nothing, List.nil_append]

end World

theorem Deeds.logs {w later : World} {P : Entry → Prop} (h : Deeds w later)
    (accepting : ∀ m envelope, P (.accepted m envelope)) (acting : ∀ action answer, P (.acted action answer)) :
    World.Logs P w later := by
  induction h with
  | refl => exact World.logs_of_same rfl
  | tail _ deed ih =>
    refine ih.trans ?_
    cases deed with
    | accept found posted => exact World.logs_entry (World.wake_journal _ _) (accepting _ _)
    | aside => exact World.logs_of_same rfl
    | note => exact World.logs_entry rfl (acting _ _)
    | lend => exact World.logs_of_same rfl

theorem Deeds.notes {w later before : World} {move : Move} (h : Deeds w later) :
    World.Logs (before.Notes move) w later :=
  h.logs (fun _ _ => .plain rfl) fun _ _ => .plain rfl

variable {move : Move}

namespace World

theorem callHook_hookCalls (w : World) (m : ModuleRef) (target : Module) (kind : HookKind) (other : ModuleRef) :
    (w.callHook m target kind).hookCalls other = w.hookCalls other ++
      if other = m then target.hookCall kind (w.hasSubscriber target.context) else [] := by
  unfold callHook Module.hookCall
  cases target.hook? kind with
  | none => rw [Option.toList_none, List.map_nil, ite_self, List.append_nil]
  | some hook =>
    let called := w.record (.hookCalled m kind hook.tag target.context (w.hasSubscriber target.context))
    have recorded : called.hookCalls other = _ := noted_cons (w := w) (Entry.hookBy? other) rfl
    have silent : (called.runScript hook.script).hookCalls other = called.hookCalls other :=
      (called.runScript_deeds hook.script).noted_eq (fun _ _ => rfl) fun _ _ => rfl
    refine silent.trans (recorded.trans ?_)
    by_cases same : other = m
    · subst same
      simp [Entry.hookBy?, hookCalls]
    · have different : m ≠ other := fun e => same e.symm
      simp [Entry.hookBy?, hookCalls, same, different]

/-- Whoever is alive depends on the envelopes that wait, and not on the stage that modules have come to. -/
theorem hasSubscriber_adjust {w later : World} {m : ModuleRef} {f : Module → Module}
    (modules : later.modules = w.modules.adjust m f) (queue : ∀ target, (f target).inbox.queue = target.inbox.queue)
    (subscribers : later.subscribers = w.subscribers) (inHand : later.inHand = w.inHand) (context : Context) :
    later.hasSubscriber context = w.hasSubscriber context := by
  have alive : later.isAlive = w.isAlive := by
    funext s
    have waiting : later.modules.any (·.2.inbox.holds s) = w.modules.any (·.2.inbox.holds s) := by
      rw [modules]
      refine w.modules.any_adjust m f (fun target => target.inbox.holds s) ?_
      intro target
      rw [Inbox.holds, Inbox.holds, queue]
    rw [isAlive, isAlive, waiting, subscribers, inHand]
  rw [hasSubscriber, hasSubscriber, listener?, listener?, alive]

theorem enrol_hookCalls (w : World) (m : ModuleRef) (target : Module) (other : ModuleRef) :
    (w.enrol m target).hookCalls other = w.hookCalls other ++
      if other = m then target.hookCall .beforeStart (w.hasSubscriber target.context) else [] := by
  let registered := (w.register target.registry m).setPhase m .launching
  have modules : registered.modules = w.modules.adjust m fun target => { target with phase := .launching } := rfl
  have shown := hasSubscriber_adjust modules (fun _ => rfl) rfl rfl target.context
  have calls := registered.callHook_hookCalls m target .beforeStart other
  rw [shown] at calls
  exact calls

theorem closeDown_hookCalls (w : World) (m : ModuleRef) (target : Module) (other : ModuleRef) :
    (w.closeDown m target).hookCalls other = w.hookCalls other ++
      if other = m then target.hookCall .afterStop (w.hasSubscriber target.context) else [] := by
  let closing := w.adjustModule m (·.closingUntil (w.now + target.delay .afterStop))
  let closed := closing.record (.closed m)
  have modules : closed.modules = w.modules.adjust m (·.closingUntil (w.now + target.delay .afterStop)) := rfl
  have shown := hasSubscriber_adjust modules (fun _ => rfl) rfl rfl target.context
  have before : closed.hookCalls other = w.hookCalls other := noted_of_none rfl rfl
  have calls := closed.callHook_hookCalls m target .afterStop other
  rw [shown, before] at calls
  unfold closeDown
  dsimp only
  split
  · exact calls
  · exact calls

theorem outcome_isOfHook (w : World) (m : ModuleRef) (target : Module) (envelope : Envelope) :
    (w.outcome m target envelope).2.isOfHook = false := by
  have unread := @outcome_unread Unit (fun entry => if entry.isOfHook then some () else none) w m target envelope
    (fun _ _ => rfl) (fun _ => rfl) (fun _ => rfl) (fun _ _ _ _ => rfl)
  simpa using unread

theorem dropIdle_journal (w : World) (name : String) : (w.dropIdle name).journal = w.journal := by
  obtain ⟨modules, senders, same⟩ := w.dropIdle_eq name
  rw [same]

theorem follow?_journal {w after : World} {plan : Plan} {answer : Answer}
    (h : w.follow? plan = some (after, answer)) : after.journal = w.journal := by
  obtain ⟨registries, runtimes, modules, devices, senders, rfl⟩ := follow?_only h
  rfl

theorem callHook_notes {before : World} {m : ModuleRef} {there : Module} (w : World) (target : Module)
    (kind : HookKind) (turns : before.Enrols m there move ∨ before.Observes m there move) :
    Logs (before.Notes move) w (w.callHook m target kind) := by
  rcases w.callHook_deeds m target kind with same | ⟨tag, subscribed, called⟩
  · rw [same]
    exact logs_of_same rfl
  · exact (logs_entry rfl (.called turns kind tag _ subscribed)).trans called.notes

theorem closeDown_notes {w : World} {m : ModuleRef} {target : Module}
    (observes : w.Observes m target (.attend m)) :
    Logs (w.Notes (.attend m)) w (w.closeDown m target) := by
  let closing := w.adjustModule m (·.closingUntil (w.now + target.delay .afterStop))
  have closed : Logs (w.Notes (.attend m)) w (closing.record (.closed m)) := logs_entry rfl (.plain rfl)
  have called := closed.trans (callHook_notes (closing.record (.closed m)) target .afterStop (.inr observes))
  unfold closeDown
  dsimp only
  split
  · exact called
  · exact called

theorem advance_notes (w : World) (limit : Nat) : Logs (w.Notes (.pass limit)) w (w.advance limit) := by
  refine List.foldlRecOn (motive := fun after : World => Logs (w.Notes (.pass limit)) w after) (w.due limit) _
    (logs_of_same rfl) ?_
  intro after logged entry _
  refine logged.trans ?_
  unfold restOver hookOver
  split
  · exact logs_of_same rfl
  · split
    · exact logs_of_same rfl
    · exact logs_entry rfl (.lastOver rfl entry.2 _)

theorem spawn_notes (w : World) (m : ModuleRef) (target : Module) :
    Logs (w.Notes (.spawn m)) w (w.spawn m target) := by
  have begun : Logs (w.Notes (.spawn m)) w (w.hookOver m target .beforeStart) := by
    unfold hookOver
    split
    · exact logs_of_same rfl
    · exact logs_entry rfl (.firstOver rfl _)
  have handed : ∀ v : World, (v.handOn m).journal = v.journal := fun _ => rfl
  refine begun.trans (logs_of_same ?_)
  rw [spawn, wake_journal, handed]
  rfl

theorem move_notes {w after : World} (h : w.move? move = some after) : Logs (w.Notes move) w after := by
  cases move with
  | act action => exact Option.some.inj h ▸ (w.perform_deeds action).notes
  | build plan =>
    obtain ⟨⟨built, answer⟩, followed, rfl⟩ := Option.map_eq_some_iff.1 h
    exact logs_of_same (follow?_journal followed)
  | enrol name =>
    simp only [move?, enrol?] at h
    split at h
    · cases h
    · rename_i changed there idle
      split at h
      · exact Option.some.inj h ▸ logs_of_same rfl
      · rename_i vacant
        have registered : Logs (w.Notes (.enrol name)) w
            ((w.register there.registry changed).setPhase changed .launching) := logs_of_same rfl
        exact Option.some.inj h ▸ registered.trans (callHook_notes _ there _ (.inl (.enrol idle vacant)))
  | spawn other =>
    simp only [move?, spawn?] at h
    split at h
    · cases h
    · split at h
      · exact Option.some.inj h ▸ spawn_notes _ _ _
      · cases h
  | attend other =>
    obtain ⟨target, found, running, ⟨cancelled, rfl⟩ | ⟨kept, envelope, inbox, took, deeds⟩⟩ := attend?_cases h
    · exact closeDown_notes (.observe found running cancelled)
    · have taken : Logs (w.Notes (.attend other)) w (w.took other envelope inbox) := logs_entry rfl (.plain rfl)
      have told : Logs (w.Notes (.attend other)) (w.took other envelope inbox)
          ((w.took other envelope inbox).told other (target.withInbox inbox) envelope) :=
        logs_entry rfl (.plain (outcome_isOfHook _ _ _ _))
      exact (taken.trans told).trans deeds.notes
  | pass time =>
    simp only [move?] at h
    split at h
    · exact Option.some.inj h ▸ w.advance_notes time
    · cases h
  | cancel other => exact Option.some.inj h ▸ logs_of_same (wake_journal _ _)
  | deregister other =>
    simp only [move?, deregister?] at h
    split at h
    · cases h
    · split at h
      · exact Option.some.inj h ▸ logs_of_same rfl
      · cases h
  | yield =>
    simp only [move?, yield?] at h
    split at h
    · cases h
    · split at h
      · exact Option.some.inj h ▸ logs_of_same rfl
      · cases h
  | setFirstAside =>
    obtain ⟨ready, aside, same⟩ := w.setFirstAside_eq
    rw [← Option.some.inj h, same]
    exact logs_of_same rfl
  | rejoin => exact Option.some.inj h ▸ logs_of_same rfl
  | newRuntime name => exact Option.some.inj h ▸ logs_of_same rfl
  | cloneRuntime name source =>
    rw [← Option.some.inj h]
    apply logs_of_same
    simp only [cloneRuntime, ensureRuntime]
    split <;> split <;> rfl
  | dropRuntime name => exact Option.some.inj h ▸ logs_of_same rfl
  | dropIdle name =>
    rw [← Option.some.inj h]
    exact logs_of_same (w.dropIdle_journal name)
  | clone other =>
    obtain ⟨senders, rfl⟩ := clone?_senders h
    exact logs_of_same rfl
  | drop sender =>
    obtain ⟨senders, rfl⟩ := drop?_senders h
    exact logs_of_same rfl

theorem move_hookCalls {w after : World} (h : w.move? move = some after) {m : ModuleRef}
    (calm : ∀ target, ¬ w.Enrols m target move ∧ ¬ w.Observes m target move) :
    after.hookCalls m = w.hookCalls m := by
  refine (move_notes h).noted_eq ?_
  intro entry notes
  cases notes with
  | plain unhooked =>
    cases entry with
    | hookCalled source kind tag context subscribed => cases unhooked
    | _ => rfl
  | @called other target turns kind tag context subscribed =>
    refine if_neg ?_
    rintro rfl
    rcases turns with enrols | observes
    · exact (calm target).1 enrols
    · exact (calm target).2 observes
  | firstOver named tag => rfl
  | lastOver named other tag => rfl

theorem Enrols.hookCalls {w after : World} {m : ModuleRef} {target : Module} (enrols : w.Enrols m target move)
    (h : w.move? move = some after) :
    after.hookCalls m = w.hookCalls m ++ target.hookCall .beforeStart (w.hasSubscriber target.context) := by
  cases enrols with
  | enrol idle vacant =>
    simp only [move?, enrol?, idle, vacant, Option.some.injEq] at h
    rw [← h, enrol_hookCalls, if_pos rfl]

theorem Observes.hookCalls {w after : World} {m : ModuleRef} {target : Module} (observes : w.Observes m target move)
    (h : w.move? move = some after) :
    after.hookCalls m = w.hookCalls m ++ target.hookCall .afterStop (w.hasSubscriber target.context) := by
  cases observes with
  | observe found running cancelled =>
    simp only [move?, attend?, found, running, cancelled, ne_eq, not_true_eq_false, if_false, if_true,
      Option.some.injEq] at h
    rw [← h, closeDown_hookCalls, if_pos rfl]

theorem Enrols.found {w : World} {m : ModuleRef} {target : Module} (enrols : w.Enrols m target move) :
    w.modules.get? m = some target ∧ target.phase = .idle := by
  cases enrols with
  | enrol idle vacant => exact idle?_found idle

theorem Observes.found {w : World} {m : ModuleRef} {target : Module} (observes : w.Observes m target move) :
    w.modules.get? m = some target ∧ target.phase = .running := by
  cases observes with
  | observe found running cancelled => exact ⟨found, running⟩

theorem hookCalls_of_calm {w after : World} (h : w.move? move = some after) {m : ModuleRef} {target : Module}
    (found : w.modules.get? m = some target) (enrols : ¬ w.Enrols m target move)
    (observes : ¬ w.Observes m target move) : after.hookCalls m = w.hookCalls m := by
  refine move_hookCalls h ?_
  intro other
  constructor
  · intro enrolled
    obtain rfl := Option.some.inj (enrolled.found.1.symm.trans found)
    exact enrols enrolled
  · intro observed
    obtain rfl := Option.some.inj (observed.found.1.symm.trans found)
    exact observes observed

theorem meeting?_found {w : World} {m : ModuleRef} {meeting : World × Envelope}
    (meets : w.meeting? m move = some meeting) :
    ∃ target, w.modules.get? m = some target ∧ target.phase = .running := by
  cases move with
  | attend attending =>
    simp only [meeting?, taking?] at meets
    split at meets
    · split at meets
      · cases meets
      · rename_i target found
        split at meets
        · rename_i running
          exact ⟨target, found, running.1⟩
        · cases meets
    · cases meets
  | _ => cases meets

theorem move_rests {w after : World} (numbered : w.modules.Numbered) (h : w.move? move = some after) {m : ModuleRef}
    (still : ∀ target, w.modules.get? m = some target → target.phase ≠ .running) :
    after.taken m = w.taken m ∧ after.contextOf m = w.contextOf m := by
  rcases move_meets numbered h m with ⟨-, spares⟩ | ⟨moment, envelope, other, meets, -⟩
  · exact ⟨spares.taken, spares.context⟩
  · obtain ⟨target, found, running⟩ := meeting?_found meets
    exact absurd running (still target found)

theorem Rests.trans {w middle last : World} {m : ModuleRef} (first : w.Rests middle m) (rest : middle.Rests last m) :
    w.Rests last m :=
  ⟨rest.hookCalls.trans first.hookCalls, rest.taken.trans first.taken, rest.context.trans first.context⟩

/-- What is past stays past, and nothing comes of it any more. -/
theorem play_rests {w last : World} (numbered : w.modules.Numbered) {moves : List Move}
    (played : w.play? moves = some last) {m : ModuleRef} {target : Module} (found : w.modules.get? m = some target)
    (past : target.phase.isPast = true) : w.Rests last m := by
  induction moves generalizing w target with
  | nil =>
    obtain rfl := Option.some.inj played
    exact ⟨rfl, rfl, rfl⟩
  | cons move rest ih =>
    obtain ⟨after, moved, through⟩ := play?_cons.1 played
    obtain ⟨there, here, fate⟩ := move_fares numbered moved found
    have waiting : target.phase ≠ .idle ∧ target.phase ≠ .running := by
      constructor
      · intro idle
        rw [idle] at past
        cases past
      · intro running
        rw [running] at past
        cases past
    have enrols : ¬ w.Enrols m target move := fun enrols => waiting.1 enrols.found.2
    have observes : ¬ w.Observes m target move := fun observes => waiting.2 observes.found.2
    obtain ⟨taken, context⟩ := move_rests numbered moved fun other same =>
      Option.some.inj (found.symm.trans same) ▸ waiting.2
    have still : there.phase.isPast = true := by
      cases fate with
      | kept ordinary more => exact past
      | enrolled enrolled more => exact absurd enrolled enrols
      | dropped drops => rfl
      | spawned named launching =>
        rw [launching] at past
        cases past
      | took named running kept took context more => exact absurd running waiting.2
      | closed observed wake more => rfl
      | closedAtOnce observed wake more => rfl
      | rested named closing => rfl
      | cancelled named => exact past
    have now : w.Rests after m := ⟨hookCalls_of_calm moved found enrols observes, taken, context⟩
    exact now.trans (ih (move_numbered numbered moved) through here still)

theorem hookCallsSoFar_congr {before after : Module} (phase : after.phase = before.phase)
    (context : after.context = before.context) (hooks : after.hook? = before.hook?) (subscribed : Bool) :
    after.hookCallsSoFar subscribed = before.hookCallsSoFar subscribed := by
  have called : ∀ kind, after.hookCall kind subscribed = before.hookCall kind subscribed := by
    intro kind
    rw [Module.hookCall, Module.hookCall, hooks, context]
  have first : after.firstCall = before.firstCall := by
    have beforeStart : after.beforeStart = before.beforeStart := congrFun hooks .beforeStart
    simp only [Module.firstCall, Module.hookCall, Module.withContext, Module.hook?, beforeStart]
  simp only [Module.hookCallsSoFar, phase, first, called]

theorem HasCalled.calls_after {w after : World} (h : w.move? move = some after) {m : ModuleRef}
    {target there : Module} (found : w.modules.get? m = some target) (fate : w.Fate m move target there)
    (start : w.HasCalled m target) : ∃ subscribed, after.hookCalls m = there.hookCallsSoFar subscribed := by
  obtain ⟨subscribed, calls⟩ := start.calls
  have calm : ∀ {last : Module}, ¬ w.Enrols m target move → ¬ w.Observes m target move →
      last.hookCallsSoFar subscribed = target.hookCallsSoFar subscribed →
      ∃ subscribed, after.hookCalls m = last.hookCallsSoFar subscribed := by
    intro last enrols observes same
    exact ⟨subscribed, by rw [hookCalls_of_calm h found enrols observes, calls, same]⟩
  have plain : move.isTurning = false → ∀ {last : Module},
      last.hookCallsSoFar subscribed = target.hookCallsSoFar subscribed →
      ∃ subscribed, after.hookCalls m = last.hookCallsSoFar subscribed := by
    intro unturning last same
    have ordinary : w.Ordinary m target move := ordinary_of_not_turning unturning
    exact calm ordinary.enrols ordinary.observes same
  cases fate with
  | kept ordinary more => exact calm ordinary.enrols ordinary.observes (hookCallsSoFar_congr rfl rfl rfl _)
  | enrolled enrols more =>
    have idle := enrols.found.2
    have empty : target.context = {} := start.memory (by rw [idle]; rfl)
    refine ⟨subscribed, ?_⟩
    rw [enrols.hookCalls h, calls, empty]
    simp only [Module.hookCallsSoFar, idle, List.nil_append, Module.posted, Module.withInbox]
    -- nobody is registered with a module that has taken nothing yet
    simp only [Module.firstCall, Module.hookCall, Module.withContext, Module.hook?, empty]
    rfl
  | dropped drops =>
    refine calm (fun enrols => enrols.not_drops drops) ?_ ?_
    · intro observes
      have idle := drops.idle
      rw [observes.found.2] at idle
      cases idle
    · simp only [Module.hookCallsSoFar, Module.ended, drops.idle]
  | spawned named launching =>
    refine plain (by rw [named]; rfl) ?_
    simp only [Module.hookCallsSoFar, launching]
    rfl
  | took named running kept took context more =>
    refine calm ?_ ?_ ?_
    · intro enrols
      have idle := enrols.found.2
      rw [running] at idle
      cases idle
    · intro observes
      cases observes with
      | observe found running cancelled =>
        rw [kept] at cancelled
        cases cancelled
    · simp only [Module.hookCallsSoFar, Module.posted, Module.withInbox, Module.withContext, running]
      rfl
  | closed observes wake more =>
    refine ⟨w.hasSubscriber target.context, ?_⟩
    rw [observes.hookCalls h, calls]
    simp only [Module.hookCallsSoFar, observes.found.2]
    rfl
  | closedAtOnce observes wake more =>
    refine ⟨w.hasSubscriber target.context, ?_⟩
    rw [observes.hookCalls h, calls]
    simp only [Module.hookCallsSoFar, observes.found.2]
    rfl
  | rested named closing =>
    refine plain (by rw [named]; rfl) ?_
    simp only [Module.hookCallsSoFar, Module.ended, closing]
    rfl
  | cancelled named => exact plain (by rw [named]; rfl) (hookCallsSoFar_congr rfl rfl rfl _)

theorem move_hasCalled {w after : World} (numbered : w.modules.Numbered) (h : w.move? move = some after)
    {m : ModuleRef} {target there : Module} (found : w.modules.get? m = some target)
    (here : after.modules.get? m = some there) (start : w.HasCalled m target) : after.HasCalled m there := by
  obtain ⟨same, foundThere, fate⟩ := move_fares numbered h found
  obtain rfl := Option.some.inj (foundThere.symm.trans here)
  have early : same.phase.hasRun = false → target.phase.hasRun = false ∧ same.context = target.context := by
    intro unrun
    cases fate with
    | kept ordinary more => exact ⟨unrun, rfl⟩
    | enrolled enrols more => exact ⟨by rw [enrols.found.2]; rfl, rfl⟩
    | dropped drops => exact ⟨by rw [drops.idle]; rfl, rfl⟩
    | spawned named launching => cases unrun
    | took named running kept took context more =>
      have late : target.phase.hasRun = false := unrun
      rw [running] at late
      cases late
    | closed observes wake more => cases unrun
    | closedAtOnce observes wake more => cases unrun
    | rested named closing => cases unrun
    | cancelled named => exact ⟨unrun, rfl⟩
  constructor
  case calls => exact start.calls_after h found fate
  case memory =>
    intro unrun
    rw [(early unrun).2]
    exact start.memory (early unrun).1
  case taken =>
    intro unrun
    have before := (early unrun).1
    have still : ∀ other, w.modules.get? m = some other → other.phase ≠ .running := by
      intro other same running
      obtain rfl := Option.some.inj (found.symm.trans same)
      rw [running] at before
      cases before
    rw [(move_rests numbered h still).1]
    exact start.taken before

theorem play_hasCalled {w last : World} (reached : w.Reachable) {moves : List Move}
    (played : w.play? moves = some last) {m : ModuleRef} (start : w.HasCalledIfBuilt m) :
    last.HasCalledIfBuilt m := by
  induction moves generalizing w with
  | nil => exact Option.some.inj played ▸ start
  | cons move rest ih =>
    obtain ⟨after, moved, through⟩ := play?_cons.1 played
    have going := reached.leadsTo (.single move moved)
    refine ih going through ?_
    unfold HasCalledIfBuilt at start ⊢
    cases before : w.modules.get? m with
    | some target =>
      rw [before] at start
      obtain ⟨there, here, -⟩ := move_fares reached.numbered moved before
      rw [here]
      exact move_hasCalled reached.numbered moved before here start
    | none =>
      rw [before] at start
      have nothing : after.hookCalls m = [] := by
        rw [move_hookCalls moved, start]
        intro target
        constructor
        · intro enrols
          rw [enrols.found.1] at before
          cases before
        · intro observes
          rw [observes.found.1] at before
          cases before
      cases here : after.modules.get? m with
      | none => exact nothing
      | some target =>
        have fresh := move_fresh moved before here
        have untaken : after.taken m = [] := by
          have conserved := Occurs.conserved reached.changes m
          rw [before] at conserved
          rw [(move_rests reached.numbered moved fun other same => by rw [before] at same; cases same).1]
          exact conserved.2
        refine ⟨⟨false, ?_⟩, fun _ => fresh.context, fun _ => untaken⟩
        rw [nothing, Module.hookCallsSoFar, fresh.phase]

/-- What a module remembers is what the last envelope that it dealt with has left. -/
theorem play_context {w last : World} (numbered : w.modules.Numbered) {moves : List Move}
    (played : w.play? moves = some last) (m : ModuleRef) : last.contextOf m =
      ((w.meetings m moves).getLast?.map fun (moment, envelope) => moment.leaves m envelope).getD (w.contextOf m) := by
  induction moves generalizing w with
  | nil =>
    obtain rfl := Option.some.inj played
    rfl
  | cons move rest ih =>
    obtain ⟨after, moved, through⟩ := play?_cons.1 played
    have later := ih (move_numbered numbered moved) through
    rw [meetings_cons moved, List.getLast?_append, later]
    rcases move_meets numbered moved m with
      ⟨nothing, spares⟩ | ⟨moment, envelope, target, meets, found, -, context, -, -⟩
    · rw [nothing, spares.context, Option.toList_none, List.getLast?_nil, Option.or_none]
    · have left : moment.leaves m envelope = after.contextOf m := by
        rw [leaves, found, context]
      rw [meets, Option.toList_some, List.getLast?_singleton]
      cases (after.meetings m rest).getLast? with
      | none => exact left.symm
      | some meeting => rfl

theorem installed_hook? (target : Module) (hooks : List (HookKind × Hook)) (kind : HookKind) :
    (hooks.foldl (fun target hook => target.install hook.1 hook.2) target).hook? kind =
      (((hooks.filter (·.1 = kind)).getLast?).map (·.2)).or (target.hook? kind) := by
  induction hooks generalizing target with
  | nil => rfl
  | cons hook rest ih =>
    rw [List.foldl_cons, ih, install_hook?]
    by_cases same : hook.1 = kind
    · rw [if_pos same, List.filter_cons_of_pos (by simpa using same), List.getLast?_cons]
      cases (rest.filter (·.1 = kind)).getLast? with
      | none => rfl
      | some last => rfl
    · rw [if_neg same, List.filter_cons_of_neg (by simpa using same)]

theorem Enrols.script {w : World} {m : ModuleRef} {target : Module} (enrols : w.Enrols m target move) :
    (w.calling move).2 = target.script .beforeStart := by
  cases enrols with
  | enrol idle vacant =>
    simp only [calling, enrolling, idle, vacant, hooking, Module.script]
    cases target.hook? .beforeStart with
    | none => rfl
    | some hook => rfl

theorem Observes.script {w : World} {m : ModuleRef} {target : Module} (observes : w.Observes m target move) :
    (w.calling move).2 = target.script .afterStop := by
  cases observes with
  | observe found running cancelled =>
    simp only [calling, attending, found, running, cancelled, ne_eq, not_true_eq_false, if_false, if_true, hooking,
      Module.script]
    cases target.hook? .afterStop with
    | none => rfl
    | some hook => rfl

theorem Observes.past {w after : World} (numbered : w.modules.Numbered) {m : ModuleRef} {target : Module}
    (observes : w.Observes m target move) (h : w.move? move = some after) :
    ∃ there, after.modules.get? m = some there ∧ there.phase.isPast = true ∧ there.context = target.context ∧
      after.taken m = w.taken m := by
  obtain ⟨there, here, fate⟩ := move_fares numbered h observes.found.1
  cases observes with
  | observe found running cancelled =>
    have taken : after.taken m = w.taken m := by
      rcases attend?_taken h found with ⟨-, untaken⟩ | ⟨kept, -⟩
      · exact untaken m
      · rw [cancelled] at kept
        cases kept
    cases fate with
    | kept ordinary more => exact absurd (.observe found running cancelled) ordinary.observes
    | enrolled enrols more => cases enrols
    | dropped drops => cases drops
    | spawned named launching => cases named
    | took named running kept took context more =>
      rw [cancelled] at kept
      cases kept
    | closed observed wake more => exact ⟨_, here, rfl, rfl, taken⟩
    | closedAtOnce observed wake more => exact ⟨_, here, rfl, rfl, taken⟩
    | rested named closing => cases named
    | cancelled named => cases named

theorem Changes.hook? {w later : World} (h : Changes w later) {m : ModuleRef} {before after : Module}
    (found : w.modules.get? m = some before) (there : later.modules.get? m = some after) :
    after.hook? = before.hook? := by
  obtain ⟨same, here, lasts⟩ := Changes.lasts h found
  obtain rfl := Option.some.inj (here.symm.trans there)
  funext kind
  cases kind
  · exact lasts.beforeStart
  · exact lasts.afterStop

/-- In every run, the hooks that a module has called are told by the stage that it has come to. The first one is
called when a launch registers the module, which has taken no envelope then and remembers nothing; the last one is
called when the dispatcher sees its cancellation, with what the last envelope has left, and nothing comes of the
module afterwards. There is no other occasion. Which hook is called is settled when the module is built: the last
one installed of its kind. -/
theorem hooks_are_called_at_both_ends {moves : List Move} {w : World} (played : ({} : World).play? moves = some w)
    (m : ModuleRef) :
    (∀ target, w.modules.get? m = some target → ∃ subscribed, w.hookCalls m = target.hookCallsSoFar subscribed) ∧
      (∀ move after target, w.Enrols m target move → w.move? move = some after →
        w.hookCalls m = [] ∧ after.hookCalls m = target.firstCall ∧
        (w.calling move).2 = target.script .beforeStart ∧ after.taken m = []) ∧
      (∀ move after target, w.Observes m target move → w.move? move = some after →
        target.context = lastLeft m (({} : World).meetings m moves) ∧
        after.hookCalls m = w.hookCalls m ++ target.hookCall .afterStop (w.hasSubscriber target.context) ∧
        (w.calling move).2 = target.script .afterStop ∧
        after.taken m = w.taken m ∧ after.contextOf m = target.context ∧
        ∀ more last, after.play? more = some last → after.Rests last m) ∧
      (∀ move after, w.move? move = some after →
        (∀ target, ¬ w.Enrols m target move ∧ ¬ w.Observes m target move) → after.hookCalls m = w.hookCalls m) ∧
      (∀ target more last, w.modules.get? m = some target → target.phase.isPast = true →
        w.play? more = some last → w.Rests last m) ∧
      ∀ plan settings after answer, plan.settings = some settings → w.follow? plan = some (after, answer) →
        ∃ n target, w.BuiltAs after plan settings n target ∧
          (∀ kind, target.hook? kind = ((plan.hooks.filter (·.1 = kind)).getLast?).map (·.2)) ∧
          ∀ later there, Changes after later → later.modules.get? n = some there → there.hook? = target.hook? := by
  have reached : w.Reachable := ⟨moves, played⟩
  have counted : w.HasCalledIfBuilt m := play_hasCalled reachable_empty played rfl
  have built : ∀ target, w.modules.get? m = some target → w.HasCalled m target := by
    intro target found
    rw [HasCalledIfBuilt, found] at counted
    exact counted
  refine ⟨?_, ?_, ?_, ?_, ?_, ?_⟩
  · intro target found
    exact (built target found).calls
  · intro move after target enrols moved
    obtain ⟨found, idle⟩ := enrols.found
    obtain ⟨subscribed, calls⟩ := (built target found).calls
    simp only [Module.hookCallsSoFar, idle] at calls
    have empty := (built target found).memory (by rw [idle]; rfl)
    have untaken := (built target found).taken (by rw [idle]; rfl)
    have waiting : ∀ other, w.modules.get? m = some other → other.phase ≠ .running := by
      intro other same running
      obtain rfl := Option.some.inj (found.symm.trans same)
      rw [idle] at running
      cases running
    refine ⟨calls, ?_, enrols.script, ?_⟩
    · rw [enrols.hookCalls moved, calls, List.nil_append, empty]
      simp only [Module.firstCall, Module.hookCall, Module.withContext, Module.hook?, empty]
      rfl
    · rw [(move_rests reached.numbered moved waiting).1, untaken]
  · intro move after target observes moved
    obtain ⟨there, here, past, context, taken⟩ := observes.past reached.numbered moved
    have left := play_context numbered_empty played m
    rw [contextOf_found observes.found.1] at left
    refine ⟨left, observes.hookCalls moved, observes.script, taken, ?_, ?_⟩
    · rw [contextOf_found here, context]
    · intro more last through
      exact play_rests (move_numbered reached.numbered moved) through here past
  · intro move after moved calm
    exact move_hookCalls moved calm
  · intro target more last found past through
    exact play_rests reached.numbered through found past
  · intro plan settings after answer given followed
    obtain ⟨-, n, target, there⟩ := follow?_builds reached.numbered given followed
    obtain ⟨bare, -, none_yet, installed⟩ := follow?_installs followed there.new there.found
    refine ⟨n, target, there, ?_, ?_⟩
    · intro kind
      rw [installed, installed_hook?, none_yet, Option.or_none]
    · intro later last changes found
      exact Changes.hook? changes there.found found

/-- A module with two hooks of each kind is enabled for a subscriber before it is launched, and is then stopped. -/
def launchedAndStopped : List Move :=
  [.build ⟨"a", "r", "d", some {}, [(.beforeStart, { tag := .number 1 }), (.afterStop, { tag := .number 2 }),
      (.beforeStart, { tag := .number 3 }), (.afterStop, { tag := .number 4 })]⟩,
    .act (.enable "a" (some "s")), .enrol "a", .spawn ⟨"a", 0⟩, .attend ⟨"a", 0⟩, .act (.start "a" 0),
    .cancel ⟨"a", 0⟩]

theorem hooks_called_of_launched_and_stopped : ∃ w after : World, ({} : World).play? launchedAndStopped = some w ∧
    w.attend? ⟨"a", 0⟩ = some after ∧
    w.hookCalls ⟨"a", 0⟩ = [⟨.beforeStart, .number 3, {}, false⟩] ∧
    after.hookCalls ⟨"a", 0⟩ = [⟨.beforeStart, .number 3, {}, false⟩,
      ⟨.afterStop, .number 4, { registered := some ⟨"s", 0⟩ }, true⟩] ∧
    ∀ more last, after.play? more = some last → after.Rests last ⟨"a", 0⟩ := by
  obtain ⟨w, played⟩ :=
    Option.isSome_iff_exists.1 (by decide : (({} : World).play? launchedAndStopped).isSome = true)
  have first : (({} : World).play? launchedAndStopped).map (·.hookCalls ⟨"a", 0⟩) =
    some [⟨.beforeStart, .number 3, {}, false⟩] := by decide
  have state : (({} : World).play? launchedAndStopped).map (fun w =>
    (w.modules.get? ⟨"a", 0⟩).map fun target => (target.phase, target.cancelled)) =
      some (some (.running, true)) := by decide
  have both : (({} : World).play? launchedAndStopped).map (fun w =>
    (w.attend? ⟨"a", 0⟩).map (·.hookCalls ⟨"a", 0⟩)) = some (some [⟨.beforeStart, .number 3, {}, false⟩,
      ⟨.afterStop, .number 4, { registered := some ⟨"s", 0⟩ }, true⟩]) := by decide
  rw [played] at first state both
  obtain ⟨target, found, same⟩ := Option.map_eq_some_iff.1 (Option.some.inj state)
  obtain ⟨running, cancelled⟩ := Prod.mk.inj same
  obtain ⟨after, attended, calls⟩ := Option.map_eq_some_iff.1 (Option.some.inj both)
  obtain ⟨-, -, last, -⟩ := hooks_are_called_at_both_ends played ⟨"a", 0⟩
  obtain ⟨-, -, -, -, -, rests⟩ := last (.attend ⟨"a", 0⟩) after target (.observe found running cancelled) attended
  exact ⟨w, after, played, attended, Option.some.inj first, calls, rests⟩

end World

end WirelessCharging
