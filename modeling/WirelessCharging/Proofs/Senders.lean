import WirelessCharging.Proofs.Fifo
/-!
Who has a sender to an inbox. A module has one of its own until it is started, and its dispatcher has one from then
on until it is through. So no inbox is closed because everybody has let go of it, whatever becomes of handles,
notifiers and registries, and to leave off in that case changes no run.
-/
namespace WirelessCharging

/-- What a module and its dispatcher have of the senders to its inbox. -/
structure World.Supplies (w : World) (m : ModuleRef) : Prop where
  own : w.senders.count ⟨m, .own⟩ = if (w.modules.get? m).any (·.phase.isYetToRun) then 1 else 0
  dispatcher : w.senders.count ⟨m, .dispatcher⟩ = if (w.modules.get? m).any (·.phase.isLive) then 1 else 0

theorem Phase.isYetToRun_of_isEnding {phase : Phase} (ending : phase.isEnding = true) : phase.isYetToRun = false := by
  cases phase with
  | closing wake => rfl
  | finished => rfl
  | _ => cases ending

namespace World

/-- A dispatcher is not to be started with an inbox that is closed, and leaves off where nobody has a sender to its
inbox. -/
def strictMove? (w : World) : Move → Option World
  | .spawn m =>
    if (w.modules.get? m).any fun target => target.inbox.isClosedTo (w.holders m) then none else w.spawn? m
  | .attend m => w.loop? m
  | .yield =>
    match w.ready with
    | [] => none
    | m :: _ => if (w.loop? m).isNone then some w.yield else none
  | move => w.move? move

def strictPlay? (w : World) : List Move → Option World
  | [] => some w
  | move :: rest => (w.strictMove? move).bind (·.strictPlay? rest)

variable {w later : World} {m : ModuleRef}

theorem mem_holders {holder : Holder} : holder ∈ w.holders m ↔ ⟨m, holder⟩ ∈ w.senders := by
  unfold holders
  rw [List.mem_map]
  constructor
  · rintro ⟨⟨target, found⟩, member, rfl⟩
    obtain ⟨held, named⟩ := List.mem_filter.1 member
    obtain rfl : target = m := of_decide_eq_true named
    exact held
  · intro held
    exact ⟨⟨m, holder⟩, List.mem_filter.2 ⟨held, decide_eq_true rfl⟩, rfl⟩

@[simp] theorem adjustModule_senders (w : World) (m : ModuleRef) (f : Module → Module) :
    (w.adjustModule m f).senders = w.senders := rfl

theorem count_grant (w : World) (m : ModuleRef) (holder : Holder) (sender : Sender) :
    (w.grant m holder).senders.count sender = w.senders.count sender + if ⟨m, holder⟩ = sender then 1 else 0 := by
  simp only [grant, List.count_cons, beq_iff_eq]

theorem count_withdraw (w : World) (m : ModuleRef) (holder : Holder) (sender : Sender) :
    (w.withdraw m holder).senders.count sender = w.senders.count sender - if ⟨m, holder⟩ = sender then 1 else 0 := by
  simp only [withdraw, List.count_erase, beq_iff_eq]

theorem count_deregister (w : World) (registry : RegistryRef) {sender : Sender}
    (elsewhere : sender.holder ≠ .registry registry) :
    (w.deregister registry).senders.count sender = w.senders.count sender :=
  List.count_filter (decide_eq_true elsewhere)

theorem supplies_of_same (start : w.Supplies m) (modules : later.modules.get? m = w.modules.get? m)
    (own : later.senders.count ⟨m, .own⟩ = w.senders.count ⟨m, .own⟩)
    (dispatcher : later.senders.count ⟨m, .dispatcher⟩ = w.senders.count ⟨m, .dispatcher⟩) : later.Supplies m := by
  constructor
  · rw [own, modules]
    exact start.own
  · rw [dispatcher, modules]
    exact start.dispatcher

theorem supplies_of_phase (start : w.Supplies m) {changed : ModuleRef} {f : Module → Module}
    (phase : ∀ target, (f target).phase = target.phase) (modules : later.modules = w.modules.adjust changed f)
    (senders : later.senders = w.senders) : later.Supplies m := by
  have same : ∀ test : Phase → Bool, (later.modules.get? m).any (test ·.phase) =
      (w.modules.get? m).any (test ·.phase) := by
    intro test
    rw [modules, Roster.get?_adjust, Option.any_map]
    congr 1
    funext target
    show test (if m = changed then f target else target).phase = test target.phase
    split
    · rw [phase]
    · rfl
  constructor
  · rw [senders, same Phase.isYetToRun]
    exact start.own
  · rw [senders, same Phase.isLive]
    exact start.dispatcher

theorem supplies_of_turn (start : ∀ m, w.Supplies m) {changed : ModuleRef} {target : Module} {f : Module → Module}
    (found : w.modules.get? changed = some target) (modules : later.modules = w.modules.adjust changed f)
    (elsewhere : ∀ m holder, m ≠ changed → later.senders.count ⟨m, holder⟩ = w.senders.count ⟨m, holder⟩)
    (own : later.senders.count ⟨changed, .own⟩ = if (f target).phase.isYetToRun then 1 else 0)
    (dispatcher : later.senders.count ⟨changed, .dispatcher⟩ = if (f target).phase.isLive then 1 else 0)
    (m : ModuleRef) : later.Supplies m := by
  by_cases same : m = changed
  · subst same
    have there : later.modules.get? m = some (f target) := by
      rw [modules, Roster.get?_adjust_self, found, Option.map_some]
    constructor
    · rw [own, there, Option.any_some]
    · rw [dispatcher, there, Option.any_some]
  · have there : later.modules.get? m = w.modules.get? m := by rw [modules, w.modules.get?_adjust_of_ne f same]
    exact supplies_of_same (start m) there (elsewhere m _ same) (elsewhere m _ same)

theorem Supplies.of_found {target : Module} (start : w.Supplies m) (found : w.modules.get? m = some target) :
    w.senders.count ⟨m, .own⟩ = (if target.phase.isYetToRun then 1 else 0) ∧
      w.senders.count ⟨m, .dispatcher⟩ = if target.phase.isLive then 1 else 0 := by
  obtain ⟨own, dispatcher⟩ := start
  rw [found, Option.any_some] at own dispatcher
  exact ⟨own, dispatcher⟩

theorem grant_supplies (start : w.Supplies m) (lender : ModuleRef) {holder : Holder} (other : holder ≠ .own)
    (another : holder ≠ .dispatcher) : (w.grant lender holder).Supplies m := by
  refine supplies_of_same start rfl ?_ ?_
  · rw [count_grant, if_neg fun same => other (Sender.mk.inj same).2, Nat.add_zero]
  · rw [count_grant, if_neg fun same => another (Sender.mk.inj same).2, Nat.add_zero]

theorem withdraw_supplies (start : w.Supplies m) (holds : ModuleRef) {holder : Holder} (other : holder ≠ .own)
    (another : holder ≠ .dispatcher) : (w.withdraw holds holder).Supplies m := by
  refine supplies_of_same start rfl ?_ ?_
  · rw [count_withdraw, if_neg fun same => other (Sender.mk.inj same).2, Nat.sub_zero]
  · rw [count_withdraw, if_neg fun same => another (Sender.mk.inj same).2, Nat.sub_zero]

theorem addModule_supplies (numbered : w.modules.Numbered) (start : ∀ m, w.Supplies m) (name : String)
    {target : Module} (idle : target.phase = .idle) (m : ModuleRef) : (w.addModule name target).Supplies m := by
  by_cases same : w.modules.nextRef name = m
  · obtain ⟨own, dispatcher⟩ := start m
    have new : w.modules.get? m = none := by
      rw [← same]
      exact Option.eq_none_iff_forall_ne_some.2 fun _ found =>
        Roster.nextRef_notMem numbered name (Roster.mem_keys_of_get? found)
    have there : (w.addModule name target).modules.get? m = some target := by
      rw [← same]
      exact Roster.get?_add_nextRef numbered name target
    rw [new] at own dispatcher
    constructor
    · rw [addModule, count_grant, ← addModule, there, if_pos (by rw [same]), Option.any_some, idle]
      exact congrArg (· + 1) own
    · rw [addModule, count_grant, ← addModule, there, if_neg (by simp), Option.any_some, idle]
      exact dispatcher
  · have there : (w.addModule name target).modules.get? m = w.modules.get? m := by
      rw [addModule_modules, Roster.get?_add, if_neg same, Option.or_none]
    refine supplies_of_same (start m) there ?_ ?_
    · rw [addModule, count_grant, if_neg fun found => same (Sender.mk.inj found).1, Nat.add_zero]
    · rw [addModule, count_grant, if_neg fun found => same (Sender.mk.inj found).1, Nat.add_zero]

end World

theorem Deed.supplies {w later : World} (h : Deed w later) {m : ModuleRef} (start : w.Supplies m) :
    later.Supplies m := by
  cases h with
  | @accept receiver target envelope inbox =>
    exact World.supplies_of_phase (f := (·.withInbox inbox)) start (fun _ => rfl) (World.wake_modules _ _)
      (World.wake_senders _ _)
  | aside => exact World.supplies_of_same start rfl rfl rfl
  | note => exact World.supplies_of_same start rfl rfl rfl
  | lend lender => exact World.grant_supplies start lender (by simp) (by simp)

variable {move : Move}

/-- What a module and its dispatcher have is handed on with the module, and given up with it. -/
theorem Change.supplies {w later : World} (h : Change move w later) (numbered : w.modules.Numbered)
    (start : ∀ m, w.Supplies m) (m : ModuleRef) : later.Supplies m := by
  cases h with
  | deed h => exact h.supplies (start m)
  | hook => exact World.supplies_of_same (start m) rfl rfl rfl
  | hookOver => exact World.supplies_of_same (start m) rfl rfl rfl
  | @take x target envelope inbox =>
    exact World.supplies_of_phase (f := (·.withInbox inbox)) (start m) (fun _ => rfl) rfl rfl
  | @handle x target envelope =>
    exact World.supplies_of_phase (f := (·.withContext (w.outcome x target envelope).1)) (start m) (fun _ => rfl)
      rfl rfl
  | @close x target found running cancelled wake later =>
    obtain ⟨own, dispatcher⟩ := (start x).of_found found
    rw [running] at own dispatcher
    refine World.supplies_of_turn start (f := (·.closingUntil wake)) found rfl ?_ ?_ ?_ m
    · intro other holder different
      rfl
    · exact own
    · exact dispatcher
  | @finish x target found ending =>
    obtain ⟨own, dispatcher⟩ := (start x).of_found found
    rw [Phase.isYetToRun_of_isEnding ending] at own
    refine World.supplies_of_turn start (f := (·.ended .finished)) found rfl ?_ ?_ ?_ m
    · intro other holder different
      simp [World.finish, World.count_withdraw, different.symm]
    · simp [World.finish, World.count_withdraw, own, Module.ended, Phase.isYetToRun]
    · simp only [World.finish, World.count_withdraw, if_true, World.adjustModule_senders, dispatcher]
      split <;> rfl
  | @drop x target found idle =>
    obtain ⟨own, dispatcher⟩ := (start x).of_found found
    rw [idle] at own dispatcher
    refine World.supplies_of_turn start (f := (·.ended .dropped)) found rfl ?_ ?_ ?_ m
    · intro other holder different
      simp [World.discard, World.count_withdraw, different.symm]
    · simp [World.discard, World.count_withdraw, own, Module.ended, Phase.isYetToRun]
    · simp [World.discard, World.count_withdraw, dispatcher, Module.ended, Phase.isLive]
  | build name fresh => exact World.addModule_supplies numbered start name fresh.phase m
  | @enrol x target found idle =>
    obtain ⟨own, dispatcher⟩ := (start x).of_found found
    rw [idle] at own dispatcher
    refine World.supplies_of_turn start (f := fun target => { target with phase := .launching }) found rfl ?_ ?_ ?_ m
    · intro other holder different
      simp [World.setPhase, World.register, World.count_grant, different.symm]
    · simp [World.setPhase, World.register, World.count_grant, own, Phase.isYetToRun]
    · simp [World.setPhase, World.register, World.count_grant, dispatcher, Phase.isLive]
  | @spawn x target found launching =>
    obtain ⟨own, dispatcher⟩ := (start x).of_found found
    rw [launching] at own dispatcher
    refine World.supplies_of_turn start (f := fun target => { target with phase := .running }) found
      (World.wake_modules _ _) ?_ ?_ ?_ m
    · intro other holder different
      simp [World.setPhase, World.handOn, World.count_grant, World.count_withdraw, different.symm]
    · simp [World.setPhase, World.handOn, World.count_grant, World.count_withdraw, own, Phase.isYetToRun]
    · simp [World.setPhase, World.handOn, World.count_grant, World.count_withdraw, dispatcher, Phase.isLive]
  | cancel x =>
    exact World.supplies_of_phase (f := fun target => { target with cancelled := true }) (start m) (fun _ => rfl)
      (World.wake_modules _ _) (World.wake_senders _ _)
  | @deregister x target =>
    exact World.supplies_of_same (start m) rfl (w.count_deregister _ (by simp)) (w.count_deregister _ (by simp))
  | newRuntime => exact World.supplies_of_same (start m) rfl rfl rfl
  | rename => exact World.supplies_of_same (start m) rfl rfl rfl
  | clock => exact World.supplies_of_same (start m) rfl rfl rfl
  | yield => exact World.supplies_of_same (start m) rfl rfl rfl
  | setFirstAside =>
    obtain ⟨ready, aside, same⟩ := w.setFirstAside_eq
    rw [same]
    exact World.supplies_of_same (start m) rfl rfl rfl
  | rejoin => exact World.supplies_of_same (start m) rfl rfl rfl
  | @clone x => exact World.grant_supplies (start m) x (by simp) (by simp)
  | @letGo sender held free =>
    refine World.withdraw_supplies (start m) sender.target ?_ ?_
    · intro own
      rw [own] at free
      cases free
    · intro dispatcher
      rw [dispatcher] at free
      cases free

namespace World

theorem Occurs.supplies {w : World} (occurs : w.Occurs) (m : ModuleRef) : w.Supplies m := by
  have both : w.modules.Numbered ∧ ∀ m, w.Supplies m := by
    refine Changes.keep (P := fun w => w.modules.Numbered ∧ ∀ m, w.Supplies m) ?_ occurs ?_
    · intro move w later change start
      exact ⟨change.numbered start.1, change.supplies start.1 start.2⟩
    · exact ⟨Roster.numbered_nil, fun _ => ⟨rfl, rfl⟩⟩
  exact both.2 m

variable {w : World} {m : ModuleRef} {target : Module}

theorem Supplies.holders_ne_nil (start : w.Supplies m) (found : w.modules.get? m = some target)
    (receiving : target.phase.inboxState = .receiving) : w.holders m ≠ [] := by
  obtain ⟨own, dispatcher⟩ := start.of_found found
  have held : ∀ {holder}, w.senders.count ⟨m, holder⟩ = 1 → w.holders m ≠ [] := by
    intro holder once
    exact List.ne_nil_of_mem (mem_holders.2 (List.count_pos_iff.1 (once ▸ Nat.one_pos)))
  cases phase : target.phase with
  | idle =>
    rw [phase] at own
    exact held own
  | launching =>
    rw [phase] at own
    exact held own
  | running =>
    rw [phase] at dispatcher
    exact held dispatcher
  | _ =>
    rw [phase] at receiving
    cases receiving

theorem Occurs.unclosed (occurs : w.Occurs) (found : w.modules.get? m = some target)
    (receiving : target.phase.inboxState = .receiving) : target.inbox.isClosedTo (w.holders m) = false := by
  have conserved := occurs.conserved m
  rw [found] at conserved
  have held := (occurs.supplies m).holders_ne_nil found receiving
  rw [Inbox.isClosedTo, (conserved.receiving receiving).1, List.isEmpty_eq_false_iff.2 held]
  rfl

theorem Occurs.receives (occurs : w.Occurs) (found : w.modules.get? m = some target)
    (running : target.phase = .running) : target.inbox.receive (w.holders m) ≠ .over := by
  unfold Inbox.receive
  split
  · exact fun same => Received.noConfusion same
  · rw [occurs.unclosed found (by rw [running]; rfl)]
    exact fun same => Received.noConfusion same

theorem Occurs.loop?_eq (occurs : w.Occurs) (m : ModuleRef) : w.loop? m = w.attend? m := by
  unfold loop? attend?
  cases found : w.modules.get? m with
  | none => rfl
  | some target =>
    dsimp only
    by_cases running : target.phase = .running
    · have unclosed := occurs.unclosed found (by rw [running]; rfl)
      cases target.cancelled with
      | true => rfl
      | false =>
        simp only [Inbox.receive, unclosed]
        cases target.inbox.take? with
        | none => rfl
        | some took => rfl
    · rw [if_pos running, if_pos running]

theorem strictMove?_eq (reached : w.Reachable) (move : Move) : w.strictMove? move = w.move? move := by
  have occurs : w.Occurs := reached.changes
  cases move with
  | spawn m =>
    simp only [strictMove?, move?, spawn?]
    cases found : w.modules.get? m with
    | none => rfl
    | some target =>
      by_cases launching : target.phase = .launching
      · have unclosed := occurs.unclosed found (by rw [launching]; rfl)
        simp only [Option.any_some, unclosed, Bool.false_eq_true, if_false]
      · simp only [if_neg launching, ite_self]
  | attend m => exact occurs.loop?_eq m
  | yield =>
    cases line : w.ready with
    | nil => simp only [strictMove?, move?, yield?, line]
    | cons m rest => simp only [strictMove?, move?, yield?, line, occurs.loop?_eq]
  | _ => rfl

/-- Nothing that is checked on the way ever fails, and no dispatcher leaves off for want of senders. -/
theorem strictPlay?_eq (reached : w.Reachable) (moves : List Move) : w.strictPlay? moves = w.play? moves := by
  induction moves generalizing w with
  | nil => rfl
  | cons move rest ih =>
    rw [strictPlay?, play?, strictMove?_eq reached]
    cases moved : w.move? move with
    | none => rfl
    | some after => exact ih (reached.leadsTo (.single move moved))

end World

end WirelessCharging
