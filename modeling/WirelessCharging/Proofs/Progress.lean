import WirelessCharging.Proofs.Schedule
/-!
What goes on without a caller: dispatchers attend to their inboxes in turns and rounds, and the clock goes on.
All of it is made of moves, and none of it touches a registry or a module that waits for its first hook.
-/
namespace WirelessCharging

def Move.isOwn : Move → Bool
  | .attend _ => true
  | .pass _ => true
  | .yield => true
  | .setFirstAside => true
  | .rejoin => true
  | _ => false

/-- Dispatchers take turns while the clock stands still. -/
def Move.isTurn : Move → Bool
  | .attend _ => true
  | .yield => true
  | .setFirstAside => true
  | .rejoin => true
  | _ => false

theorem Move.isOwn_of_isTurn {move : Move} (turn : move.isTurn = true) : move.isOwn = true := by
  cases move with
  | attend m => rfl
  | yield => rfl
  | setFirstAside => rfl
  | rejoin => rfl
  | _ => cases turn

namespace World

def GoesOn (w later : World) : Prop :=
  ∃ moves, (∀ move ∈ moves, move.isOwn = true) ∧ w.play? moves = some later

theorem GoesOn.refl (w : World) : w.GoesOn w := ⟨[], List.forall_mem_nil _, rfl⟩

theorem GoesOn.single {w after : World} (move : Move) (own : move.isOwn = true)
    (moved : w.move? move = some after) : w.GoesOn after :=
  ⟨[move], List.forall_mem_singleton.2 own, play?_cons.2 ⟨after, moved, rfl⟩⟩

theorem GoesOn.trans {w middle last : World} (first : w.GoesOn middle) (rest : middle.GoesOn last) :
    w.GoesOn last := by
  obtain ⟨moves, own, played⟩ := first
  obtain ⟨more, alsoOwn, through⟩ := rest
  exact ⟨moves ++ more, List.forall_mem_append.2 ⟨own, alsoOwn⟩,
    (play?_append moves more).2 ⟨middle, played, through⟩⟩

theorem GoesOn.leadsTo {w later : World} (h : w.GoesOn later) : w.LeadsTo later := by
  obtain ⟨moves, -, played⟩ := h
  exact ⟨moves, played⟩

def TakesTurns (w later : World) : Prop :=
  ∃ moves, (∀ move ∈ moves, move.isTurn = true) ∧ w.play? moves = some later

theorem TakesTurns.refl (w : World) : w.TakesTurns w := ⟨[], List.forall_mem_nil _, rfl⟩

theorem TakesTurns.single {w after : World} (move : Move) (turn : move.isTurn = true)
    (moved : w.move? move = some after) : w.TakesTurns after :=
  ⟨[move], List.forall_mem_singleton.2 turn, play?_cons.2 ⟨after, moved, rfl⟩⟩

theorem TakesTurns.trans {w middle last : World} (first : w.TakesTurns middle) (rest : middle.TakesTurns last) :
    w.TakesTurns last := by
  obtain ⟨moves, turns, played⟩ := first
  obtain ⟨more, alsoTurns, through⟩ := rest
  exact ⟨moves ++ more, List.forall_mem_append.2 ⟨turns, alsoTurns⟩,
    (play?_append moves more).2 ⟨middle, played, through⟩⟩

theorem TakesTurns.goesOn {w later : World} (h : w.TakesTurns later) : w.GoesOn later := by
  obtain ⟨moves, turns, played⟩ := h
  exact ⟨moves, fun move member => Move.isOwn_of_isTurn (turns move member), played⟩

theorem GoesOn.keep {P : World → Prop} {w later : World} (h : w.GoesOn later) (reached : w.Reachable)
    (keeps : ∀ {w after : World} {move : Move}, w.Reachable → move.isOwn = true →
      w.move? move = some after → P w → P after) (start : P w) : P later := by
  obtain ⟨moves, own, played⟩ := h
  induction moves generalizing w with
  | nil => exact Option.some.inj played ▸ start
  | cons move rest ih =>
    obtain ⟨mine, others⟩ := List.forall_mem_cons.1 own
    obtain ⟨after, moved, through⟩ := play?_cons.1 played
    exact ih (reached.leadsTo (.single move moved)) (keeps reached mine moved start) others through

end World

theorem Deeds.ready {w later : World} (h : Deeds w later) : w.ready <+: later.ready := by
  induction h with
  | refl => exact List.prefix_rfl
  | tail _ deed ih =>
    refine ih.trans ?_
    cases deed with
    | accept found posted =>
      unfold World.wake
      split
      · exact List.prefix_append _ _
      · exact List.prefix_rfl
    | aside => exact List.prefix_rfl
    | note => exact List.prefix_rfl
    | lend => exact List.prefix_rfl

theorem Deeds.registries {w later : World} (h : Deeds w later) : later.registries = w.registries := by
  induction h with
  | refl => rfl
  | tail _ deed ih =>
    refine Eq.trans ?_ ih
    cases deed with
    | accept found posted => exact World.wake_registries _ _
    | aside => rfl
    | note => rfl
    | lend => rfl

namespace World

theorem attend?_deeds {w after : World} {m : ModuleRef} (h : w.attend? m = some after) :
    ∃ modules journal called, (∀ other, other ≠ m → modules.get? other = w.modules.get? other) ∧
      (∀ other, ({ w with modules, journal } : World).accepted other = w.accepted other) ∧
      Deeds { w with modules, journal } called ∧ (after = called ∨ after = called.finish m) := by
  obtain ⟨target, found, running, ⟨cancelled, rfl⟩ | ⟨kept, envelope, inbox, took, deeds⟩⟩ := attend?_cases h
  · let wake := w.now + target.delay .afterStop
    have others : ∀ other, other ≠ m →
        (w.modules.adjust m (·.closingUntil wake)).get? other = w.modules.get? other :=
      fun other different => w.modules.get?_adjust_of_ne _ different
    let closing := (w.adjustModule m (·.closingUntil wake)).record (.closed m)
    have ended : w.closeDown m target = closing.callHook m target .afterStop ∨
        w.closeDown m target = (closing.callHook m target .afterStop).finish m := by
      unfold closeDown
      dsimp only
      split
      · exact Or.inr rfl
      · exact Or.inl rfl
    rcases closing.callHook_deeds m target .afterStop with same | ⟨tag, subscribed, called⟩
    · rw [same] at ended
      exact ⟨closing.modules, closing.journal, closing, others, fun _ => rfl, .refl, ended⟩
    · let hooked := closing.record (.hookCalled m .afterStop tag target.context subscribed)
      exact ⟨hooked.modules, hooked.journal, _, others, fun _ => rfl, called, ended⟩
  · refine ⟨_, _, _, ?_, ?_, deeds, Or.inl rfl⟩
    · intro other different
      exact (Roster.get?_adjust_of_ne _ _ different).trans (Roster.get?_adjust_of_ne _ _ different)
    · intro other
      exact told_accepted _ m _ envelope other

theorem attend?_ready {w after : World} {m : ModuleRef} (h : w.attend? m = some after) :
    w.ready <+: after.ready := by
  obtain ⟨modules, journal, called, -, -, deeds, rfl | rfl⟩ := attend?_deeds h
  · exact deeds.ready
  · exact deeds.ready

theorem attend?_registries {w after : World} {m : ModuleRef} (h : w.attend? m = some after) :
    after.registries = w.registries := by
  obtain ⟨modules, journal, called, -, -, deeds, rfl | rfl⟩ := attend?_deeds h
  · exact deeds.registries
  · exact deeds.registries

theorem attend?_other {w after : World} {m other : ModuleRef} (h : w.attend? m = some after)
    (different : other ≠ m) {target : Module} (found : w.modules.get? other = some target) :
    ∃ more, after.modules.get? other = some (target.posted more) ∧ after.accepted other = w.accepted other ++ more := by
  obtain ⟨modules, journal, called, others, quiet, deeds, ended⟩ := attend?_deeds h
  obtain ⟨more, there, accepted⟩ := deeds.posted (m := other) ((others other different).trans found)
  rw [quiet] at accepted
  refine ⟨more, ?_⟩
  rcases ended with rfl | rfl
  · exact ⟨there, accepted⟩
  · rw [finish_modules, Roster.get?_adjust_of_ne _ _ different, there]
    exact ⟨rfl, accepted⟩

theorem turn_takesTurns {w : World} {m : ModuleRef} {rest : List ModuleRef} (line : w.ready = m :: rest)
    (left : Nat) : w.TakesTurns (w.turn m left) := by
  induction left generalizing w rest with
  | zero => exact .single .setFirstAside rfl rfl
  | succ left ih =>
    unfold turn
    split
    · rename_i nothing
      refine .single .yield rfl ?_
      simp only [move?, yield?, line, nothing, Option.isNone_none, if_true]
    · rename_i after attended
      -- it is still the first in line, for whoever is woken meanwhile gets in behind
      have kept := attend?_ready attended
      rw [line] at kept
      obtain ⟨behind, same⟩ := kept
      exact (TakesTurns.single (.attend m) rfl attended).trans (ih same.symm)

theorem round_takesTurns (w : World) (left : Nat) : w.TakesTurns (w.round left) := by
  induction left generalizing w with
  | zero => exact .refl w
  | succ left ih =>
    unfold round
    split
    · exact .refl w
    · rename_i m rest line
      exact (turn_takesTurns line _).trans (ih _)

theorem runUntil_takesTurns (w : World) (seen : World → Bool) : w.TakesTurns (w.runUntil seen) := by
  fun_induction runUntil w seen with
  | case1 w line => exact .single .rejoin rfl rfl
  | case2 w line found => exact .single .rejoin rfl rfl
  | case3 w line unseen ih => exact ((TakesTurns.single .rejoin rfl rfl).trans (round_takesTurns _ _)).trans ih

theorem runUntil_goesOn (w : World) (seen : World → Bool) : w.GoesOn (w.runUntil seen) :=
  (w.runUntil_takesTurns seen).goesOn

theorem settle_goesOn (w : World) : w.GoesOn w.settle := w.runUntil_goesOn _

theorem advance_goesOn {w : World} {limit : Nat} (forward : w.now ≤ limit) : w.GoesOn (w.advance limit) := by
  refine .single (.pass limit) rfl ?_
  simp only [move?, forward, if_true]

theorem elapse_goesOn (w : World) (milliseconds : Nat) : w.GoesOn (w.elapse milliseconds) :=
  w.settle_goesOn.trans (advance_goesOn (Nat.le_add_right _ _))

theorem restOver_registries (w : World) (m : ModuleRef) : (w.restOver m).registries = w.registries := by
  unfold restOver hookOver
  split
  · rfl
  · split <;> rfl

theorem advance_registries (w : World) (limit : Nat) : (w.advance limit).registries = w.registries := by
  refine List.foldlRecOn (motive := fun after : World => after.registries = w.registries) (w.due limit) _ rfl ?_
  intro after same entry _
  rw [restOver_registries, same]

theorem restOver_other (w : World) {m other : ModuleRef} (different : other ≠ m) :
    (w.restOver m).modules.get? other = w.modules.get? other := by
  cases there : w.modules.get? m with
  | none => simp only [restOver, there]
  | some resting =>
    rw [w.restOver_eq there, finish_modules, hookOver_modules, Roster.get?_adjust_of_ne _ _ different]

theorem advance_other {w : World} (numbered : w.modules.Numbered) {m : ModuleRef} {target : Module}
    (found : w.modules.get? m = some target) (limit : Nat) (calm : ∀ wake, target.phase ≠ .closing wake) :
    (w.advance limit).modules.get? m = some target := by
  refine List.foldlRecOn (motive := fun after : World => after.modules.get? m = some target) (w.due limit) _
    found ?_
  rintro after same ⟨wake, other⟩ member
  rw [restOver_other, same]
  rintro rfl
  obtain ⟨there, listed, closing, -⟩ := mem_due.1 member
  obtain rfl := Option.some.inj ((Roster.get?_of_mem numbered.1 listed).symm.trans found)
  exact calm wake closing

theorem own_registries {w after : World} {move : Move} (own : move.isOwn = true)
    (h : w.move? move = some after) : after.registries = w.registries := by
  cases move with
  | attend m => exact attend?_registries h
  | pass time =>
    simp only [move?] at h
    split at h
    · exact Option.some.inj h ▸ w.advance_registries time
    · cases h
  | yield =>
    simp only [move?, yield?] at h
    split at h
    · cases h
    · split at h
      · exact Option.some.inj h ▸ rfl
      · cases h
  | setFirstAside =>
    obtain ⟨ready, aside, same⟩ := w.setFirstAside_eq
    rw [← Option.some.inj h, same]
  | rejoin => exact Option.some.inj h ▸ rfl
  | _ => cases own

theorem GoesOn.registries {w later : World} (h : w.GoesOn later) (reached : w.Reachable) :
    later.registries = w.registries :=
  h.keep (P := fun after => after.registries = w.registries) reached
    (fun _ own moved same => (own_registries own moved).trans same) rfl

/-- What goes on by itself can do no more to a module without a dispatcher than have envelopes accepted. -/
theorem own_still {w after : World} {move : Move} (reached : w.Reachable) (own : move.isOwn = true)
    (h : w.move? move = some after) {m : ModuleRef} {target : Module} (found : w.modules.get? m = some target)
    (still : target.phase.isLive = false) : ∃ more, after.modules.get? m = some (target.posted more) := by
  have unchanged : w.modules.get? m = some (target.posted []) := by rw [Module.posted_nil, found]
  cases move with
  | attend other =>
    have different : m ≠ other := by
      rintro rfl
      obtain ⟨there, same, running, -⟩ := attend?_cases h
      obtain rfl := Option.some.inj (same.symm.trans found)
      rw [running] at still
      cases still
    obtain ⟨more, there, -⟩ := attend?_other h different found
    exact ⟨more, there⟩
  | pass time =>
    simp only [move?] at h
    split at h
    · obtain rfl := Option.some.inj h
      refine ⟨[], ?_⟩
      rw [Module.posted_nil]
      apply advance_other reached.numbered found
      intro wake closing
      rw [closing] at still
      cases still
    · cases h
  | yield =>
    simp only [move?, yield?] at h
    split at h
    · cases h
    · split at h
      · exact Option.some.inj h ▸ ⟨[], unchanged⟩
      · cases h
  | setFirstAside =>
    obtain ⟨ready, aside, same⟩ := w.setFirstAside_eq
    rw [← Option.some.inj h, same]
    exact ⟨[], unchanged⟩
  | rejoin => exact Option.some.inj h ▸ ⟨[], unchanged⟩
  | _ => cases own

theorem GoesOn.still {w later : World} (h : w.GoesOn later) (reached : w.Reachable) {m : ModuleRef}
    {target : Module} (found : w.modules.get? m = some target) (still : target.phase.isLive = false) :
    ∃ more, later.modules.get? m = some (target.posted more) := by
  refine h.keep (P := fun after => ∃ more, after.modules.get? m = some (target.posted more)) reached ?_
    ⟨[], by rw [Module.posted_nil, found]⟩
  rintro before after move reached own moved ⟨more, there⟩
  obtain ⟨last, here⟩ := own_still reached own moved there still
  exact ⟨more ++ last, by rw [here, Module.posted_posted]⟩

theorem GoesOn.launching {w later : World} (h : w.GoesOn later) (reached : w.Reachable) {m : ModuleRef}
    {target : Module} (found : w.modules.get? m = some target) (launching : target.phase = .launching) :
    ∃ there, later.modules.get? m = some there ∧ there.phase = .launching := by
  obtain ⟨more, there⟩ := h.still reached found (by rw [launching]; rfl)
  exact ⟨_, there, launching⟩

end World

end WirelessCharging
