import WirelessCharging.Proofs.Extension
import WirelessCharging.Proofs.Posting
/-!
The gate of a start. It is a row of checks of which the first that fails is the reason, so a start is let through
exactly if all of them pass. A start that is turned away leaves nothing but the reason in the journal. One that is let
through changes what the module remembers and is told to the subscriber of the latest enable, if that one is alive.
-/
namespace WirelessCharging

inductive StartCheck where
  | supported
  | stopped
  | polling
  | chargeable
  | unoccupied
  | settled
  deriving DecidableEq

namespace StartCheck

def inOrder : List StartCheck := [supported, stopped, polling, chargeable, unoccupied, settled]

/-- Single bits count, by their numbers in the word; whatever else is raised does not matter. -/
def Passes (context : Context) (readings : Readings) (mode : ChargingMode) : StartCheck → Prop
  | supported => mode = .nonAutonomous
  | stopped => context.flags.bits.getLsbD 0 = false
  | polling => readings.discovery.state = .pollActive
  | chargeable => readings.protocol ∈ [some .t2t, some .t3t, some .t5t, some .isoDep]
  | unoccupied => readings.readerBusy = false
  | settled => ∀ bit ∈ [1, 2, 5, 6], readings.discovery.flags.bits.getLsbD bit = false

instance (context : Context) (readings : Readings) (mode : ChargingMode) :
    DecidablePred (Passes context readings mode)
  | supported => inferInstanceAs (Decidable (mode = .nonAutonomous))
  | stopped => inferInstanceAs (Decidable (context.flags.bits.getLsbD 0 = false))
  | polling => inferInstanceAs (Decidable (readings.discovery.state = .pollActive))
  | chargeable => inferInstanceAs (Decidable (readings.protocol ∈ [some .t2t, some .t3t, some .t5t, some .isoDep]))
  | unoccupied => inferInstanceAs (Decidable (readings.readerBusy = false))
  | settled => inferInstanceAs (Decidable (∀ bit ∈ [1, 2, 5, 6], readings.discovery.flags.bits.getLsbD bit = false))

def rejection (readings : Readings) (mode : ChargingMode) : StartCheck → Rejection
  | supported => .unsupportedMode mode
  | stopped => .alreadyStarted
  | polling => .notPollActive readings.discovery.state
  | chargeable => .protocolNotAllowed readings.protocol
  | unoccupied => .readerBusy
  | settled => .discoveryBusy readings.discovery.flags

variable {context : Context} {readings : Readings} {mode : ChargingMode}

theorem passes_supported : supported.Passes context readings mode ↔ mode.isSupported = true := by
  cases mode <;> simp [Passes, ChargingMode.isSupported]

theorem passes_stopped :
    stopped.Passes context readings mode ↔ context.flags.contains ModuleFlags.nonAutonomousEnabled = false := by
  have one : ModuleFlags.nonAutonomousEnabled = ⟨BitVec.twoPow 32 0⟩ := by decide
  rw [Passes, ← Bool.not_eq_true, ← Bool.not_eq_true, one, Flags.contains_twoPow (by decide)]
  rfl

theorem passes_chargeable :
    chargeable.Passes context readings mode ↔ readings.protocol.any RfProtocol.allowsCharging = true := by
  cases found : readings.protocol with
  | none => simp [Passes, found]
  | some protocol => cases protocol <;> simp [Passes, found, RfProtocol.allowsCharging]

theorem passes_settled :
    settled.Passes context readings mode ↔ readings.discovery.flags.intersects DiscoveryFlags.unsettled = false :=
  (Flags.intersects_listed (by decide) (by decide)).symm

theorem find?_cons_map (check : StartCheck) (rest : List StartCheck) :
    ((check :: rest).find? fun check => !decide (check.Passes context readings mode)).map (rejection readings mode) =
      if check.Passes context readings mode then
        (rest.find? fun check => !decide (check.Passes context readings mode)).map (rejection readings mode)
      else some (check.rejection readings mode) := by
  by_cases passes : check.Passes context readings mode <;> simp [passes]

theorem startRejection?_eq_find? : startRejection? context readings mode =
    (inOrder.find? fun check => !decide (check.Passes context readings mode)).map (rejection readings mode) := by
  simp only [inOrder, find?_cons_map, passes_supported, passes_stopped, passes_chargeable, passes_settled]
  simp only [startRejection?, Passes, rejection, List.find?_nil, Option.map_none]
  grind

theorem mem_inOrder (check : StartCheck) : check ∈ inOrder := by
  cases check <;> decide

theorem startRejection?_eq_none :
    startRejection? context readings mode = none ↔ ∀ check : StartCheck, check.Passes context readings mode := by
  rw [startRejection?_eq_find?, Option.map_eq_none_iff, List.find?_eq_none]
  constructor
  · intro none_fails check
    simpa using none_fails check check.mem_inOrder
  · intro all_pass check _
    simpa using all_pass check

theorem startRejection?_eq_some {reason : Rejection} :
    startRejection? context readings mode = some reason ↔ ∃ before check after,
      inOrder = before ++ check :: after ∧ (∀ earlier ∈ before, earlier.Passes context readings mode) ∧
        ¬ check.Passes context readings mode ∧ reason = check.rejection readings mode := by
  simp only [startRejection?_eq_find?, Option.map_eq_some_iff, List.find?_eq_some_iff_append]
  constructor
  · rintro ⟨check, ⟨fails, before, after, order, pass⟩, rfl⟩
    refine ⟨before, check, after, order, ?_, ?_, rfl⟩
    · intro earlier member
      simpa using pass earlier member
    · simpa using fails
  · rintro ⟨before, check, after, order, pass, fails, rfl⟩
    refine ⟨check, ⟨by simpa using fails, before, after, order, ?_⟩, rfl⟩
    intro earlier member
    simpa using pass earlier member

end StartCheck

namespace World

/-- What comes of a start that is let through: the mode and one bit in what the module remembers, and one event. -/
structure Started (w : World) (m : ModuleRef) (mode : ChargingMode) (after : World) : Prop where
  mode : (after.contextOf m).storedMode = some mode
  enabled : ∀ bit, (after.contextOf m).flags.bits.getLsbD bit =
    (decide (bit = 0) || (w.contextOf m).flags.bits.getLsbD bit)
  registered : (after.contextOf m).registered = (w.contextOf m).registered
  told : after.deliveries m = w.deliveries m ++ w.tells (w.contextOf m).registered (.startResult .ok)
  contexts : ∀ other, other ≠ m → after.contextOf other = w.contextOf other
  deliveries : ∀ other, other ≠ m → after.deliveries other = w.deliveries other
  transfers : after.transfers = w.transfers

theorem startedIn_enabled (context : Context) (mode : ChargingMode) (bit : Nat) :
    (context.startedIn mode).flags.bits.getLsbD bit = (decide (bit = 0) || context.flags.bits.getLsbD bit) := by
  have raised : (context.flags.bits ||| 1#32).getLsbD bit = (decide (bit = 0) || context.flags.bits.getLsbD bit) := by
    rw [BitVec.getLsbD_or, BitVec.getLsbD_one, Bool.or_comm]
    simp
  exact raised

theorem told_contextOf (w : World) {m : ModuleRef} {target : Module} (envelope : Envelope)
    (found : w.modules.get? m = some target) (other : ModuleRef) :
    (w.told m target envelope).contextOf other =
      if other = m then (w.outcome m target envelope).1 else w.contextOf other := by
  by_cases same : other = m
  · subst same
    rw [if_pos rfl, contextOf_found (w.told_found envelope found)]
    rfl
  · rw [if_neg same]
    exact contextOf_congr (w.modules.get?_adjust_of_ne _ same)

theorem dispatch_transfers (w : World) (m : ModuleRef) (target : Module) (envelope : Envelope) :
    (w.dispatch m target envelope).transfers = w.transfers ++ (handing? m target envelope).toList := by
  obtain ⟨inHand, same⟩ := w.dispatch_eq m target envelope
  have called := (runScript_aside (w.dispatching m target envelope).1 (w.dispatching m target envelope).2).1
  rw [same]
  exact called.trans (w.dispatching_hands m target envelope).transfers

theorem dispatch_rejected (w : World) (m : ModuleRef) {target : Module} {mode : ChargingMode} {rejection : Rejection}
    (fails : startRejection? target.context (w.readings target.device) mode = some rejection) :
    w.dispatch m target (.request (.start mode)) = w.record (.rejected m rejection) := by
  simp only [dispatch, dispatchStart, fails]

theorem dispatch_started (w : World) {m : ModuleRef} {target : Module} {mode : ChargingMode}
    (found : w.modules.get? m = some target)
    (passes : startRejection? target.context (w.readings target.device) mode = none) :
    w.Started m mode (w.dispatch m target (.request (.start mode))) := by
  have outcome : w.outcome m target (.request (.start mode)) =
      (target.context.startedIn mode, w.reportEntry m target.context (.startResult .ok)) := by
    simp only [World.outcome, passes]
  have starts : w.starts m mode = true := by
    rw [World.starts, found, Option.any_some, passes]
    rfl
  have spares := (w.dispatch_deeds m (.request (.start mode)) found).spares
  have context := (spares m).context
  rw [w.told_contextOf _ found, if_pos rfl, outcome] at context
  constructor
  case mode => rw [context]; rfl
  case enabled => rw [context, contextOf_found found]; exact startedIn_enabled target.context mode
  case registered => rw [context, contextOf_found found]; rfl
  case told =>
    rw [(spares m).deliveries, contextOf_found found]
    refine (noted_cons _ rfl).trans ?_
    rw [w.outcome_delivers found, deliversOn, if_pos starts]
    rfl
  case contexts =>
    intro other different
    rw [(spares other).context, w.told_contextOf _ found, if_neg different]
  case deliveries =>
    intro other different
    rw [(spares other).deliveries]
    exact noted_of_none rfl (w.outcome_deliveredBy?_other different.symm target _)
  case transfers => exact (w.dispatch_transfers m target _).trans (List.append_nil _)

end World

end WirelessCharging
