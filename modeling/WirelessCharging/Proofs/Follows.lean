import WirelessCharging.Proofs.Callers
/-!
Two runs in which dispatchers take turns in different orders. There is one dispatcher only on the side of the module,
and what the others do is not seen. So whatever the one run does to the module lies ahead in the other run, or has been
done there, and once the dispatcher has nothing left to do in both runs they have come to the same. A stop waits for
turns alone where no hook takes its time, so this goes for stops as well.
-/
namespace WirelessCharging

variable {S : Side} {move : Move} {w v later final : World} {m : ModuleRef}

/-- A world in which the sides are apart and no hook is at work. -/
structure World.Apart (S : Side) (w : World) : Prop where
  sided : w.Sided S
  calm : w.Calm
  reached : w.Reachable

namespace World

theorem Sided.line (h : w.Sided S) (ready setAside : List ModuleRef) : Sided S { w with ready, setAside } :=
  ⟨h.modules, h.devices, h.subscribers, h.runtimes, h.registries, h.fits, h.alone⟩

theorem Apart.after (h : w.Apart S) {after : World} (moved : w.move? move = some after) (sided : after.Sided S) :
    after.Apart S := by
  refine ⟨sided, ?_, h.reached.leadsTo (.single move moved)⟩
  exact move_calm h.reached.numbered h.calm moved fun _ _ found => (h.sided.modules.get? found).delay .afterStop

theorem Apart.turn (h : w.Apart S) (turn : move.isTurn = true) {after : World} (moved : w.move? move = some after)
    (fits : after.transfers <+: S.transfers) : after.Apart S := by
  refine h.after moved ?_
  rcases Move.isTurn_cases turn moved with ⟨m, attended⟩ | ⟨ready, setAside, rfl⟩
  · exact h.sided.attend? attended fits
  · exact h.sided.line ready setAside

theorem Apart.takesTurns (h : w.Apart S) (turns : w.TakesTurns later) (fits : later.transfers <+: S.transfers) :
    later.Apart S := by
  obtain ⟨moves, turning, played⟩ := turns
  induction moves generalizing w with
  | nil => exact Option.some.inj played ▸ h
  | cons move rest ih =>
    obtain ⟨turn, others⟩ := List.forall_mem_cons.1 turning
    obtain ⟨after, moved, through⟩ := play?_cons.1 played
    exact ih (h.turn turn moved ((play_extends through).transfers.trans fits)) others through

theorem Apart.only (h : w.Apart S) (own : S.owns m = true) (member : m ∈ w.modules.keys) : m = ⟨S.module, 0⟩ := by
  have name : m.name = S.module := beq_iff_eq.1 own
  have below := h.reached.numbered.2 m member
  have same : w.modules.keys.filter (·.name = m.name) = w.modules.keys.filter S.owns := by
    apply List.filter_congr
    intro other _
    rw [Side.owns, Side.names, name, Bool.eq_iff_iff, decide_eq_true_iff, beq_iff_eq]
  rw [same] at below
  have first : m.generation = 0 := by
    have alone := h.sided.alone
    omega
  rw [← name, ← first]

theorem mem_keys_of_attend? {after : World} (attended : w.attend? m = some after) : m ∈ w.modules.keys := by
  obtain ⟨target, found, -⟩ := attend?_cases attended
  exact Roster.mem_keys_of_get? found

end World

namespace Side

namespace Mirrors

theorem line (h : S.Mirrors w v) (ready setAside : List ModuleRef) : S.Mirrors w { v with ready, setAside } :=
  ⟨h.now, h.registries, h.runtimes, h.modules, h.devices, h.subscribers, h.transfers, h.journal⟩

theorem lineHidden (h : S.Mirrors w v) (ready setAside : List ModuleRef) : S.Mirrors { w with ready, setAside } v :=
  ⟨h.now, h.registries, h.runtimes, h.modules, h.devices, h.subscribers, h.transfers, h.journal⟩

theorem only (h : S.Mirrors w v) (apart : w.Apart S) (member : m ∈ v.modules.keys) : m = ⟨S.module, 0⟩ := by
  rw [h.modules, Roster.keys_part] at member
  obtain ⟨there, own⟩ := List.mem_filter.1 member
  exact apart.only own there

theorem attend (h : S.Mirrors w v) (apart : w.Apart S) (reached : v.Reachable) (own : S.owns m = true) {after : World}
    (attended : w.attend? m = some after) (fits : after.transfers <+: S.transfers) :
    Option.Rel S.Mirrors (some after) (v.attend? m) := by
  have related := h.attend? apart.sided apart.reached.free reached.free own
  rw [attended] at related
  exact related fun other same => Option.some.inj same ▸ fits

end Mirrors

theorem owns_first : S.owns ⟨S.module, 0⟩ = true := beq_self_eq_true S.module

/-- A world that is on its way to another one, and mirrors what is seen of a third one now. -/
def Follows (S : Side) (w final : World) : Prop := ∃ v, S.Mirrors w v ∧ v.Reachable ∧ v.TakesTurns final

/-- What lies ahead of the dispatcher of the module: nothing more, or something that it will do. -/
theorem Follows.next (h : S.Follows w final) (apart : w.Apart S) :
    (S.Mirrors w final ∧ final.Reachable) ∨
      ∃ v next, S.Mirrors w v ∧ v.Reachable ∧ v.attend? ⟨S.module, 0⟩ = some next ∧ next.TakesTurns final := by
  obtain ⟨v, mirrors, reached, moves, turning, played⟩ := h
  induction moves generalizing v with
  | nil =>
    obtain rfl := Option.some.inj played
    exact Or.inl ⟨mirrors, reached⟩
  | cons move rest ih =>
    obtain ⟨turn, others⟩ := List.forall_mem_cons.1 turning
    obtain ⟨next, moved, through⟩ := World.play?_cons.1 played
    rcases Move.isTurn_cases turn moved with ⟨other, attended⟩ | ⟨ready, setAside, rfl⟩
    · obtain rfl := mirrors.only apart (World.mem_keys_of_attend? attended)
      exact Or.inr ⟨v, next, mirrors, reached, attended, rest, others, through⟩
    · exact ih _ (mirrors.line ready setAside) (reached.leadsTo (.single move moved)) others through

theorem Follows.attend (h : S.Follows w final) (apart : w.Apart S) (waiting : final.attend? ⟨S.module, 0⟩ = none)
    (own : S.owns m = true) {after : World} (attended : w.attend? m = some after)
    (fits : after.transfers <+: S.transfers) : S.Follows after final := by
  obtain rfl := apart.only own (World.mem_keys_of_attend? attended)
  rcases h.next apart with ⟨mirrors, reached⟩ | ⟨v, next, mirrors, reached, there, turns⟩
  · have related := mirrors.attend apart reached own attended fits
    rw [waiting] at related
    cases related
  · have related := mirrors.attend apart reached own attended fits
    rw [there] at related
    cases related with
    | some mirrors => exact ⟨next, mirrors, reached.leadsTo (.single (.attend _) there), turns⟩

theorem Follows.turn (h : S.Follows w final) (apart : w.Apart S) (waiting : final.attend? ⟨S.module, 0⟩ = none)
    (turn : move.isTurn = true) {after : World} (moved : w.move? move = some after)
    (fits : after.transfers <+: S.transfers) : S.Follows after final := by
  rcases Move.isTurn_cases turn moved with ⟨m, attended⟩ | ⟨ready, setAside, rfl⟩
  · cases own : S.owns m with
    | true => exact h.attend apart waiting own attended fits
    | false =>
      obtain ⟨v, mirrors, rest⟩ := h
      exact ⟨v, mirrors.attendHidden apart.sided own attended fits, rest⟩
  · obtain ⟨v, mirrors, rest⟩ := h
    exact ⟨v, mirrors.lineHidden ready setAside, rest⟩

theorem Follows.takesTurns (h : S.Follows w final) (apart : w.Apart S) (waiting : final.attend? ⟨S.module, 0⟩ = none)
    (turns : w.TakesTurns later) (fits : later.transfers <+: S.transfers) : S.Follows later final := by
  obtain ⟨moves, turning, played⟩ := turns
  induction moves generalizing w with
  | nil => exact Option.some.inj played ▸ h
  | cons move rest ih =>
    obtain ⟨turn, others⟩ := List.forall_mem_cons.1 turning
    obtain ⟨after, moved, through⟩ := World.play?_cons.1 played
    have room := (World.play_extends through).transfers.trans fits
    exact ih (h.turn apart waiting turn moved room) (apart.turn turn moved room) others through

theorem Follows.arrive (h : S.Follows w final) (apart : w.Apart S) (waiting : w.attend? ⟨S.module, 0⟩ = none) :
    S.Mirrors w final := by
  rcases h.next apart with ⟨mirrors, -⟩ | ⟨v, next, mirrors, reached, there, -⟩
  · exact mirrors
  · have related := mirrors.attend? apart.sided apart.reached.free reached.free owns_first
      fun after attended => by rw [waiting] at attended; cases attended
    rw [waiting, there] at related
    cases related

theorem Mirrors.takesTurns (h : S.Mirrors w v) (apart : w.Apart S) (reached : v.Reachable) (turns : w.TakesTurns later)
    (alsoTurns : v.TakesTurns final) (fits : later.transfers <+: S.transfers)
    (waiting : later.attend? ⟨S.module, 0⟩ = none) (alsoWaiting : final.attend? ⟨S.module, 0⟩ = none) :
    S.Mirrors later final := by
  have follows : S.Follows w final := ⟨v, h, reached, alsoTurns⟩
  exact (follows.takesTurns apart alsoWaiting turns fits).arrive (apart.takesTurns turns fits) waiting

theorem Mirrors.settle (h : S.Mirrors w v) (apart : w.Apart S) (reached : v.Reachable)
    (fits : w.settle.transfers <+: S.transfers) : S.Mirrors w.settle v.settle :=
  h.takesTurns apart reached (w.runUntil_takesTurns _) (v.runUntil_takesTurns _) fits
    (World.settle_attend? apart.reached _) (World.settle_attend? reached _)

end Side

namespace World

theorem Apart.settle (h : w.Apart S) (fits : w.settle.transfers <+: S.transfers) : w.settle.Apart S :=
  h.takesTurns (w.runUntil_takesTurns _) fits

theorem Apart.cancel (h : w.Apart S) (m : ModuleRef) : (w.cancel m).Apart S := by
  have moved : w.move? (.cancel m) = some (w.cancel m) := rfl
  exact h.after moved (h.sided.cancel m)

theorem Apart.launch (h : w.Apart S) (name : String) : (w.launch name).1.Apart S := by
  cases idle : w.idle? name with
  | none =>
    simp only [World.launch, idle]
    exact h
  | some entry =>
    obtain ⟨m, target⟩ := entry
    have found := (idle?_found idle).1
    have stays := h.sided.modules.get? found
    cases registered : w.registration? target.registry .wlc with
    | some holder =>
      have moved : w.move? (.enrol name) = some (w.launch name).1 := by
        simp only [move?, enrol?, World.launch, idle, registered]
      exact h.after moved (h.sided.launch name)
    | none =>
      have enrolled : w.move? (.enrol name) = some (w.enrol m target) := by
        simp only [move?, enrol?, idle, registered]
      obtain ⟨more, there⟩ := w.enrol_found m found
      have spawned : (w.enrol m target).move? (.spawn m) = some ((w.enrol m target).spawn m target) := by
        simp only [move?, spawn?, there]
        exact if_pos rfl
      rw [h.sided.launch_eq idle registered]
      have going := h.after enrolled (h.sided.enrol stays)
      exact going.after spawned (going.sided.spawn stays)

theorem Apart.stop_cases (h : w.Apart S) {target : Module} (found : w.modules.get? m = some target)
    (fits : (w.stop m).1.transfers <+: S.transfers) :
    ∃ waited, (w.cancel m).TakesTurns waited ∧ waited.Apart S ∧
      ((w.stop m).1 = waited ∨ (w.stop m).1 = waited.deregister target.registry) := by
  have told := h.cancel m
  cases live : target.phase.isLive with
  | false =>
    refine ⟨w.cancel m, .refl _, told, Or.inr ?_⟩
    simp only [World.stop, found, live, Bool.not_false, if_true]
  | true =>
    by_cases patient : target.stopLimit = 0
    · refine ⟨w.cancel m, .refl _, told, Or.inl ?_⟩
      simp only [World.stop, found, live, patient, Bool.not_true, Bool.false_eq_true, if_false, if_true]
    · rw [stop_transfers found live patient] at fits
      have turns := (w.cancel m).runUntil_takesTurns fun w => !w.isLive m
      have waited := told.takesTurns turns fits
      exact ⟨_, turns, waited, Or.inr (congrArg Prod.fst (stop_of_calm found live patient waited.calm))⟩

theorem Apart.stop (h : w.Apart S) (m : ModuleRef) (fits : (w.stop m).1.transfers <+: S.transfers) :
    (w.stop m).1.Apart S := by
  have reached := h.reached.leadsTo (stop_leadsTo h.reached m)
  cases found : w.modules.get? m with
  | none =>
    simp only [World.stop, found]
    exact h
  | some target =>
    obtain ⟨waited, -, apart, same | same⟩ := h.stop_cases found fits
    · exact same ▸ apart
    · rw [same] at reached ⊢
      exact ⟨apart.sided.deregister _, apart.calm, reached⟩

theorem Apart.elapse (h : w.Apart S) (milliseconds : Nat) (fits : w.settle.transfers <+: S.transfers) :
    (w.elapse milliseconds).Apart S := by
  have settled := h.settle fits
  have reached := h.reached.leadsTo (w.elapse_goesOn milliseconds).leadsTo
  unfold World.elapse at reached ⊢
  dsimp only at reached ⊢
  rw [settled.calm.advance settled.reached.numbered] at reached ⊢
  have sided := settled.sided
  exact ⟨⟨sided.modules, sided.devices, sided.subscribers, sided.runtimes, sided.registries, sided.fits, sided.alone⟩,
    settled.calm, reached⟩

theorem Sided.registered (h : w.Sided S) {registry : RegistryRef} {id : ModuleId}
    (found : w.registration? registry id = some m) : S.owns m = S.registers registry := by
  obtain ⟨entries, there, listed⟩ := Option.bind_eq_some_iff.1 found
  exact h.registries.get? there (id, m) (Roster.mem_of_get? listed)

end World

namespace Side

namespace Mirrors

theorem calm (h : S.Mirrors w v) (calm : w.Calm) : v.Calm := by
  intro m target wake found closing
  cases own : S.owns m with
  | true =>
    rw [h.found own] at found
    obtain ⟨there, here, rfl⟩ := Option.map_eq_some_iff.1 found
    exact calm m there wake here closing
  | false =>
    rw [h.modules, Roster.get?_part_other _ _ own] at found
    cases found

theorem stop (h : S.Mirrors w v) (apart : w.Apart S) (reached : v.Reachable) (own : S.owns m = true)
    (fits : (w.stop m).1.transfers <+: S.transfers) : S.MirrorsOutcome (w.stop m) (v.stop m) := by
  have there := h.found own
  cases found : w.modules.get? m with
  | none =>
    rw [found] at there
    simp only [World.stop, found, there, Option.map_none]
    exact ⟨h, rfl⟩
  | some target =>
    rw [found, Option.map_some] at there
    obtain rfl := apart.only own (Roster.mem_keys_of_get? found)
    have registers : S.registers target.registry = true := (apart.sided.modules.get? found).registry.trans own
    have registry : (S.seenModule target).registry = target.registry := rfl
    have phase : (S.seenModule target).phase = target.phase := rfl
    have limit : (S.seenModule target).stopLimit = target.stopLimit := rfl
    have told := h.cancel own
    cases live : target.phase.isLive with
    | false =>
      simp only [World.stop, found, there, phase, live, registry, Bool.not_false, if_true]
      exact ⟨told.deregister registers, rfl⟩
    | true =>
      by_cases patient : target.stopLimit = 0
      · simp only [World.stop, found, there, phase, live, limit, patient, Bool.not_true, Bool.false_eq_true, if_false,
          if_true]
        exact ⟨told, rfl⟩
      · rw [World.stop_transfers found live patient] at fits
        have turns := World.runUntil_takesTurns (w.cancel ⟨S.module, 0⟩) fun w => !w.isLive ⟨S.module, 0⟩
        have waited := (apart.cancel _).takesTurns turns fits
        have awaited := told.takesTurns (apart.cancel _) (reached.cancel _) turns
          (World.runUntil_takesTurns _ _) fits (World.runUntil_attend? apart.reached found)
          (World.runUntil_attend? reached there)
        rw [World.stop_of_calm found live patient waited.calm,
          World.stop_of_calm there (live : (S.seenModule target).phase.isLive = true) patient
            (awaited.calm waited.calm)]
        exact ⟨awaited.deregister registers, rfl⟩

theorem stopSettled (h : S.Mirrors w v) (apart : w.Apart S) (reached : v.Reachable) (other : S.owns m = false)
    (fits : (w.stop m).1.settle.transfers <+: S.transfers) : S.Mirrors (w.stop m).1.settle v.settle := by
  cases found : w.modules.get? m with
  | none =>
    simp only [World.stop, found] at fits ⊢
    exact h.settle apart reached fits
  | some target =>
    have room := (w.stop m).1.settle_goesOn.leadsTo.extends.transfers.trans fits
    have stopped := apart.stop m room
    have settled : v.settle.attend? ⟨S.module, 0⟩ = none := World.settle_attend? reached _
    have start : S.Follows (w.cancel m) v.settle := ⟨v, h.cancelHidden other, reached, v.runUntil_takesTurns _⟩
    have follows : S.Follows (w.stop m).1 v.settle := by
      obtain ⟨waited, turns, there, same | same⟩ := apart.stop_cases found room
      · rw [same] at room ⊢
        exact start.takesTurns (apart.cancel m) settled turns room
      · rw [same] at room ⊢
        obtain ⟨u, mirrors, rest⟩ := start.takesTurns (apart.cancel m) settled turns room
        have registers : S.registers target.registry = false :=
          (apart.sided.modules.get? found).registry.trans other
        exact ⟨u, mirrors.deregisterHidden registers, rest⟩
    have arrives := follows.takesTurns stopped settled (World.runUntil_takesTurns _ _) fits
    exact arrives.arrive (stopped.settle fits) (World.settle_attend? stopped.reached _)

end Mirrors

end Side

end WirelessCharging
