import WirelessCharging.Proofs.FlagWords
import WirelessCharging.Proofs.Routing
/-!
The charging extension starts at most once. What a module remembers of it is a flag and a mode, which are set
together by the first start that succeeds and by nothing else, and are never changed again.
-/
namespace WirelessCharging

variable {move : Move}

namespace Context

/-- The extension is stopped, or it has been started in the one mode there is. -/
def Consistent (context : Context) : Prop :=
  (context.flags = ∅ ∧ context.storedMode = none) ∨
    (context.flags = ModuleFlags.nonAutonomousEnabled ∧ context.storedMode = some .nonAutonomous)

def isStarted (context : Context) : Bool := context.flags.contains ModuleFlags.nonAutonomousEnabled

structure Sound (context : Context) : Prop where
  pending : context.flags.contains ModuleFlags.transferPending = false
  unnamed : ∀ bit, 1 < bit → context.flags.bits.getLsbD bit = false
  started : context.isStarted = true ↔ context.storedMode = some .nonAutonomous
  stopped : context.isStarted = false → context.storedMode = none
  shown : context.mode = context.storedMode

theorem Consistent.sound {context : Context} (consistent : context.Consistent) : context.Sound := by
  rcases consistent with ⟨flags, mode⟩ | ⟨flags, mode⟩
  · constructor
    case pending =>
      rw [flags]
      decide
    case unnamed =>
      intro bit _
      rw [flags]
      exact BitVec.getLsbD_zero
    case started =>
      rw [isStarted, flags, mode]
      decide
    case stopped =>
      intro _
      exact mode
    case shown =>
      rw [Context.mode, flags, mode]
      decide
  · constructor
    case pending =>
      rw [flags]
      decide
    case unnamed =>
      intro bit unnamed
      have high : bit ≠ 0 := by omega
      rw [flags]
      exact BitVec.getLsbD_one.trans (by simp [high])
    case started =>
      rw [isStarted, flags, mode]
      decide
    case stopped =>
      intro stopped
      rw [isStarted, flags] at stopped
      exact absurd stopped (by decide)
    case shown =>
      rw [Context.mode, flags, mode]
      decide

theorem isStarted_startedIn (context : Context) (mode : ChargingMode) :
    (context.startedIn mode).isStarted = true := by
  rw [isStarted, startedIn, Flags.contains_iff]
  intro bit enabled
  exact Flags.mem_union.2 (Or.inr enabled)

end Context

theorem startRejection?_none {context : Context} {readings : Readings} {mode : ChargingMode}
    (accepted : startRejection? context readings mode = none) :
    mode = .nonAutonomous ∧ context.isStarted = false := by
  unfold startRejection? at accepted
  split at accepted
  · cases accepted
  · rename_i supported
    split at accepted
    · cases accepted
    · rename_i stopped
      refine ⟨?_, Bool.eq_false_iff.2 stopped⟩
      cases mode with
      | nonAutonomous => rfl
      | semiAutonomous => exact absurd rfl supported
      | autonomous => exact absurd rfl supported

namespace Context

theorem outcome_extension (w : World) (m : ModuleRef) (target : Module) (envelope : Envelope) :
    ((w.outcome m target envelope).1.flags = target.context.flags ∧
        (w.outcome m target envelope).1.storedMode = target.context.storedMode) ∨
      ∃ mode, envelope = .request (.start mode) ∧ mode = .nonAutonomous ∧ target.context.isStarted = false ∧
        (w.outcome m target envelope).1 = target.context.startedIn mode := by
  cases envelope with
  | notification notification => exact Or.inl ⟨rfl, rfl⟩
  | request request =>
    cases request with
    | enable s =>
      left
      simp only [World.outcome]
      split <;> exact ⟨rfl, rfl⟩
    | start mode =>
      simp only [World.outcome]
      split
      · exact Or.inl ⟨rfl, rfl⟩
      · rename_i accepted
        obtain ⟨rfl, stopped⟩ := startRejection?_none accepted
        exact Or.inr ⟨_, rfl, rfl, stopped, rfl⟩
    | transfer power duration => exact Or.inl ⟨rfl, rfl⟩

theorem outcome_consistent (w : World) (m : ModuleRef) {target : Module} (envelope : Envelope)
    (start : target.context.Consistent) : (w.outcome m target envelope).1.Consistent := by
  rcases outcome_extension w m target envelope with ⟨flags, mode⟩ | ⟨mode, -, rfl, stopped, started⟩
  · rw [Consistent, flags, mode]
    exact start
  · rw [started]
    rcases start with ⟨flags, -⟩ | ⟨flags, -⟩
    · have raised : (∅ : ModuleFlags).insert ModuleFlags.nonAutonomousEnabled =
          ModuleFlags.nonAutonomousEnabled := by decide
      rw [startedIn, flags, raised]
      exact Or.inr ⟨rfl, rfl⟩
    · rw [isStarted, flags] at stopped
      exact absurd stopped (by decide)

end Context

theorem Change.consistent {w later : World} (h : Change move w later) {m : ModuleRef}
    (start : (w.contextOf m).Consistent) : (later.contextOf m).Consistent := by
  rcases h.contextOf m with same | ⟨-, target, envelope, remembers, outcome⟩
  · rw [same]
    exact start
  · rw [outcome]
    rw [← remembers] at start
    exact Context.outcome_consistent w m envelope start

theorem Changes.consistent {w : World} (h : Changes {} w) (m : ModuleRef) : (w.contextOf m).Consistent :=
  Changes.keep (P := fun w => (w.contextOf m).Consistent) (fun change start => change.consistent start) h
    (Or.inl ⟨rfl, rfl⟩)

def SameExtension (before after : Context) : Prop :=
  after.flags = before.flags ∧ after.storedMode = before.storedMode

theorem Change.extension {w later : World} (h : Change move w later) {m : ModuleRef}
    (started : (w.contextOf m).isStarted = true) : SameExtension (w.contextOf m) (later.contextOf m) := by
  rcases h.contextOf m with same | ⟨-, target, envelope, remembers, outcome⟩
  · rw [same]
    exact ⟨rfl, rfl⟩
  · rw [outcome, ← remembers]
    rcases Context.outcome_extension w m target envelope with same | ⟨-, -, -, stopped, -⟩
    · exact same
    · rw [remembers, started] at stopped
      cases stopped

theorem Changes.extension {w later : World} (h : Changes w later) {m : ModuleRef}
    (started : (w.contextOf m).isStarted = true) : SameExtension (w.contextOf m) (later.contextOf m) := by
  induction h with
  | refl => exact ⟨rfl, rfl⟩
  | @tail middle last through step ih =>
    obtain ⟨move, change⟩ := step
    obtain ⟨flags, mode⟩ := ih
    have still : (middle.contextOf m).isStarted = true := by
      rw [Context.isStarted, flags]
      exact started
    obtain ⟨lastFlags, lastMode⟩ := change.extension still
    exact ⟨lastFlags.trans flags, lastMode.trans mode⟩

def startsOn (m : ModuleRef) : World × Envelope → Bool
  | (moment, .request (.start mode)) => moment.starts m mode
  | _ => false

def isStartResult (delivery : SubscriberRef × Event) : Bool := delivery.2.kind == .startResult

namespace World

/-- A start that succeeds finds the extension stopped and leaves it started. -/
theorem outcome_starts (moment : World) {m : ModuleRef} {target : Module}
    (found : moment.modules.get? m = some target) (envelope : Envelope) :
    (startsOn m (moment, envelope)).toNat + target.context.isStarted.toNat =
      (moment.outcome m target envelope).1.isStarted.toNat := by
  cases envelope with
  | notification notification => exact Nat.zero_add _
  | request request =>
    cases request with
    | enable s =>
      simp only [startsOn, outcome, Bool.toNat_false, Nat.zero_add]
      split <;> rfl
    | start mode =>
      simp only [startsOn, starts, found, Option.any_some, outcome]
      cases gate : startRejection? target.context (moment.readings target.device) mode with
      | some rejection => exact Nat.zero_add _
      | none =>
        obtain ⟨-, stopped⟩ := startRejection?_none gate
        rw [stopped, Context.isStarted_startedIn]
        rfl
    | transfer power duration => exact Nat.zero_add _

theorem play_starts {w last : World} (numbered : w.modules.Numbered) {moves : List Move}
    (played : w.play? moves = some last) (m : ModuleRef) :
    ((w.meetings m moves).filter (startsOn m)).length + (w.contextOf m).isStarted.toNat =
      (last.contextOf m).isStarted.toNat := by
  induction moves generalizing w with
  | nil =>
    obtain rfl := Option.some.inj played
    exact Nat.zero_add _
  | cons move rest ih =>
    obtain ⟨after, moved, through⟩ := play?_cons.1 played
    have later := ih (move_numbered numbered moved) through
    rw [meetings_cons moved, List.filter_append, List.length_append]
    rcases move_meets numbered moved m with
      ⟨nothing, spares⟩ | ⟨moment, envelope, target, meets, found, remembers, context, -, -⟩
    · rw [nothing, ← spares.context]
      simpa using later
    -- the flag counts the starts that succeeded, and it is up or down
    · have counted := moment.outcome_starts found envelope
      rw [remembers, ← context] at counted
      have one : ([(moment, envelope)].filter (startsOn m)).length = (startsOn m (moment, envelope)).toNat := by
        cases succeeds : startsOn m (moment, envelope) <;> simp [succeeds]
      rw [meets, Option.toList_some, one]
      omega

theorem tells_startResults (moment : World) (latest : Option SubscriberRef) (event : Event) :
    (moment.tells latest event).length ≤ 1 ∧ ∀ delivery ∈ moment.tells latest event, delivery.2 = event := by
  unfold tells
  split
  · exact ⟨Nat.le_refl 1, fun delivery told => congrArg Prod.snd (List.mem_singleton.1 told)⟩
  · exact ⟨Nat.zero_le 1, fun delivery told => (nomatch told)⟩

/-- The result of a start is delivered once, if at all, for a start that succeeds, and it is ok. -/
theorem deliversOn_startResults (moment : World) (m : ModuleRef) (latest : Option SubscriberRef)
    (envelope : Envelope) :
    ((moment.deliversOn m latest envelope).filter isStartResult).length ≤
        (startsOn m (moment, envelope)).toNat ∧
      ∀ delivery ∈ moment.deliversOn m latest envelope, isStartResult delivery = true →
        delivery.2 = .startResult .ok := by
  have other : ∀ {deliveries : List (SubscriberRef × Event)},
      (∀ delivery ∈ deliveries, isStartResult delivery = false) →
      (deliveries.filter isStartResult).length ≤ (startsOn m (moment, envelope)).toNat ∧
        ∀ delivery ∈ deliveries, isStartResult delivery = true → delivery.2 = .startResult .ok := by
    intro deliveries others
    have nothing : deliveries.filter isStartResult = [] := by
      refine List.filter_eq_nil_iff.2 ?_
      intro delivery member
      rw [others delivery member]
      exact Bool.false_ne_true
    constructor
    · rw [nothing]
      exact Nat.zero_le _
    · intro delivery member result
      rw [others delivery member] at result
      cases result
  cases envelope with
  | notification notification =>
    refine other ?_
    intro delivery told
    rw [isStartResult, (moment.tells_startResults latest notification.event).2 delivery told]
    cases notification <;> rfl
  | request request =>
    cases request with
    | enable s =>
      refine other ?_
      intro delivery told
      rw [List.mem_singleton.1 told]
      rfl
    | start mode =>
      obtain ⟨few, result⟩ := moment.tells_startResults latest (.startResult .ok)
      simp only [deliversOn, startsOn]
      cases moment.starts m mode with
      | true =>
        refine ⟨?_, fun delivery told _ => result delivery told⟩
        exact Nat.le_trans (List.length_filter_le _ _) few
      | false => exact ⟨Nat.le_refl 0, fun _ told => absurd told List.not_mem_nil⟩
    | transfer power duration => exact other fun _ told => absurd told List.not_mem_nil

end World

theorem routed_startResults (m : ModuleRef) (latest : Option SubscriberRef)
    (meetings : List (World × Envelope)) :
    ((routed m latest meetings).filter isStartResult).length ≤ (meetings.filter (startsOn m)).length ∧
      ∀ delivery ∈ routed m latest meetings, isStartResult delivery = true →
        delivery.2 = .startResult .ok := by
  induction meetings generalizing latest with
  | nil => exact ⟨Nat.le_refl 0, fun delivery told => (nomatch told)⟩
  | cons meeting rest ih =>
    obtain ⟨moment, envelope⟩ := meeting
    obtain ⟨first, firstOk⟩ := moment.deliversOn_startResults m latest envelope
    obtain ⟨later, laterOk⟩ := ih (moment.latestAfter m latest envelope)
    rw [routed]
    constructor
    · rw [List.filter_append, List.length_append, List.filter_cons]
      cases succeeds : startsOn m (moment, envelope) with
      | true =>
        rw [succeeds, Bool.toNat_true] at first
        rw [if_pos rfl, List.length_cons]
        omega
      | false =>
        rw [succeeds, Bool.toNat_false] at first
        rw [if_neg Bool.false_ne_true]
        omega
    · intro delivery told result
      rcases List.mem_append.1 told with now | after
      · exact firstOk delivery now result
      · exact laterOk delivery after result

namespace World

/-- In every world of every run, and in the middle of its moves too, what a module remembers is sound. Once the
extension is started, neither the flag nor the mode changes again, whatever happens. So one start at most
succeeds in a module's life, and one result of a start is delivered at most, which is ok. -/
theorem extension_starts_at_most_once {moves : List Move} {w : World}
    (played : ({} : World).play? moves = some w) (m : ModuleRef) :
    (∀ later target, Changes w later → later.modules.get? m = some target → target.context.Sound) ∧
      (∀ middle last target, Changes w middle → middle.modules.get? m = some target →
        target.context.isStarted = true → Changes middle last →
        ∃ after, last.modules.get? m = some after ∧ SameExtension target.context after.context) ∧
      ((({} : World).meetings m moves).filter (startsOn m)).length ≤ 1 ∧
      ((w.deliveries m).filter isStartResult).length ≤ 1 ∧
      ∀ s outcome, (s, .startResult outcome) ∈ w.deliveries m → outcome = .ok := by
  have occurs : Changes {} w := play_changes numbered_empty played
  have counted := play_starts numbered_empty played m
  have once : ((({} : World).meetings m moves).filter (startsOn m)).length ≤ 1 := by
    have bound := Bool.toNat_le (w.contextOf m).isStarted
    omega
  obtain ⟨-, deliveries, -⟩ := play_routes numbered_empty played m
  obtain ⟨few, results⟩ := routed_startResults m (({} : World).contextOf m).registered (meetings {} m moves)
  refine ⟨?_, ?_, once, ?_, ?_⟩
  · intro later target changes found
    have consistent := Changes.consistent (occurs.trans changes) m
    rw [contextOf_found found] at consistent
    exact consistent.sound
  · intro middle last target changes found started rest
    obtain ⟨after, there, -⟩ := Changes.lasts rest found
    rw [← contextOf_found found] at started
    have same := Changes.extension rest started
    rw [contextOf_found found, contextOf_found there] at same
    exact ⟨after, there, same⟩
  · rw [deliveries]
    exact Nat.le_trans few once
  · intro s outcome told
    rw [deliveries] at told
    have ok : Event.startResult outcome = .startResult .ok := results _ told rfl
    exact Event.startResult.inj ok

def twoStarts : List Move :=
  [.build ⟨"a", "r", "d", some {}, []⟩, .enrol "a", .spawn ⟨"a", 0⟩, .act (.enable "a" (some "s")),
    .act (.start "a" 0), .act (.start "a" 0), .attend ⟨"a", 0⟩, .attend ⟨"a", 0⟩, .attend ⟨"a", 0⟩]

theorem extension_started_by_first_of_two : ∃ w : World, ({} : World).play? twoStarts = some w ∧
    (w.contextOf ⟨"a", 0⟩).isStarted = true ∧
    w.deliveries ⟨"a", 0⟩ = [(⟨"s", 0⟩, .enableResult .ok), (⟨"s", 0⟩, .startResult .ok)] ∧
    ((({} : World).meetings ⟨"a", 0⟩ twoStarts).filter (startsOn ⟨"a", 0⟩)).length ≤ 1 := by
  obtain ⟨w, played⟩ := Option.isSome_iff_exists.1 (by decide : (({} : World).play? twoStarts).isSome = true)
  have started : (({} : World).play? twoStarts).map (fun w => (w.contextOf ⟨"a", 0⟩).isStarted) = some true := by
    decide
  have delivered : (({} : World).play? twoStarts).map (·.deliveries ⟨"a", 0⟩) =
    some [(⟨"s", 0⟩, .enableResult .ok), (⟨"s", 0⟩, .startResult .ok)] := by decide
  rw [played] at started delivered
  exact ⟨w, played, Option.some.inj started, Option.some.inj delivered,
    (extension_starts_at_most_once played ⟨"a", 0⟩).2.2.1⟩

end World

end WirelessCharging
