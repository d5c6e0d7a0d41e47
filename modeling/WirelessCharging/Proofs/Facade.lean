import WirelessCharging.Proofs.Capacity
import WirelessCharging.Proofs.Transfer
/-!
The calls that a module answers, whoever makes them and whenever. The arguments are looked at first, then whether the
inbox is closed, and then whether it is full. A call that is refused leaves everything as it was, and one that is
accepted adds one envelope at the end of one inbox. No inbox therefore ever holds more than it was made for.
-/
namespace WirelessCharging

inductive Call where
  | enable (subscriber : Option SubscriberRef)
  | start (mode : ChargingMode)
  | transfer (power duration : UInt8)
  | notify (notification : Notification)

namespace Call

def envelope : Call → Except Refusal Envelope
  | .enable subscriber => (Request.ofEnable subscriber).map .request
  | .start mode => (Request.ofMode mode).map .request
  | .transfer power duration => (Request.ofTransfer power duration).map .request
  | .notify notification => .ok (.notification notification)

/-- What is wrong with the arguments, the power being looked at before the duration. -/
def fault? : Call → Option Refusal
  | .enable none => some .missingSubscriber
  | .enable (some _) => none
  | .start mode => if mode = .nonAutonomous then none else some (.unsupportedMode mode)
  | .transfer power duration =>
    if ¬ (power ≤ 0x14 ∨ 0xF6 ≤ power) then some (.invalidPower power)
    else if ¬ (duration ≤ 0x13 ∧ duration &&& 0xC0 = 0) then some (.invalidDuration duration)
    else none
  | .notify _ => none

/-- An envelope with what was given, and nothing else. -/
def Carries : Call → Envelope → Prop
  | .enable subscriber, .request (.enable s) => subscriber = some s
  | .start mode, .request (.start chosen) => chosen = mode
  | .transfer power duration, .request (.transfer adjustment limit) => adjustment.raw = power ∧ limit.raw = duration
  | .notify notification, .notification told => told = notification
  | _, _ => False

theorem envelope_of_fault {call : Call} {refusal : Refusal} (fault : call.fault? = some refusal) :
    call.envelope = .error refusal := by
  cases call with
  | enable subscriber =>
    cases subscriber with
    | none => cases fault; rfl
    | some s => cases fault
  | start mode =>
    cases mode with
    | nonAutonomous => cases fault
    | semiAutonomous => cases fault; rfl
    | autonomous => cases fault; rfl
  | transfer power duration =>
    simp only [fault?] at fault
    split at fault
    · rename_i adjusts
      obtain rfl := Option.some.inj fault
      have unread : PowerAdjustment.ofByte? power = none := dif_neg adjusts
      simp only [envelope, Request.ofTransfer, readPower, unread]
      rfl
    · rename_i adjusts
      split at fault
      · rename_i limits
        obtain rfl := Option.some.inj fault
        have read : PowerAdjustment.ofByte? power = some ⟨power, Decidable.of_not_not adjusts⟩ :=
          dif_pos (Decidable.of_not_not adjusts)
        have unread : TransferDuration.ofByte? duration = none := dif_neg limits
        simp only [envelope, Request.ofTransfer, readPower, read, readDuration, unread]
        rfl
      · cases fault
  | notify notification => cases fault

theorem envelope_of_faultless {call : Call} (faultless : call.fault? = none) :
    ∃ envelope, call.envelope = .ok envelope ∧ call.Carries envelope := by
  cases call with
  | enable subscriber =>
    cases subscriber with
    | none => cases faultless
    | some s => exact ⟨_, rfl, rfl⟩
  | start mode =>
    cases mode with
    | nonAutonomous => exact ⟨_, rfl, rfl⟩
    | semiAutonomous => cases faultless
    | autonomous => cases faultless
  | transfer power duration =>
    simp only [fault?] at faultless
    split at faultless
    · cases faultless
    · rename_i adjusts
      split at faultless
      · cases faultless
      · rename_i limits
        rcases Request.ofTransfer_cases power duration with
          ⟨-, adjustment, limit, same, alike, made⟩ | ⟨fails, -⟩
        · exact ⟨.request (.transfer adjustment limit), by rw [envelope, made]; rfl, same, alike⟩
        · exact absurd ⟨Decidable.of_not_not adjusts, Decidable.of_not_not limits⟩ fails
  | notify notification => exact ⟨_, rfl, rfl⟩

end Call

namespace World

def call (w : World) (m : ModuleRef) (call : Call) : World × Answer :=
  match call.envelope with
  | .error refusal => (w, .refused refusal)
  | .ok envelope => w.submit m envelope

/-- The call that an action makes, the module that it asks, and the world in which it does so: a subscriber that does
not exist yet is made first, and a byte that is no mode is not asked for. -/
def callMade? (w : World) : Action → Option (World × ModuleRef × Call)
  | .enable name none => (w.modules.latest? name).map fun m => (w, m, .enable none)
  | .enable name (some subscriber) => (w.modules.latest? name).map fun m =>
    ((w.ensureSubscriber subscriber).1, m, .enable (some (w.ensureSubscriber subscriber).2))
  | .start name raw => (ChargingMode.ofByte? raw).bind fun mode =>
    (w.modules.latest? name).map fun m => (w, m, .start mode)
  | .transfer name power duration => (w.modules.latest? name).map fun m => (w, m, .transfer power duration)
  | .notify name notification => (w.modules.latest? name).map fun m => (w, m, .notify notification)
  | .reply transfer notification =>
    (w.transfers[transfer]?).map fun transfer => (w, transfer.issuer, .notify notification)
  | .setDevice _ _ _ => none
  | .subscribe _ _ _ => none
  | .release _ => none
  | .query _ _ _ => none

theorem request_eq_call {w : World} {name : String} {m : ModuleRef} (latest : w.modules.latest? name = some m)
    {request : Except Refusal Request} (call : Call) (asks : call.envelope = request.map .request) :
    w.request name request = w.call m call := by
  rw [World.call, asks]
  cases request with
  | error refusal => rfl
  | ok request => simp only [World.request, submitTo, latest, Except.map]

theorem perform_eq_call {w made : World} {action : Action} {m : ModuleRef} {call : Call}
    (makes : w.callMade? action = some (made, m, call)) : w.perform action = made.call m call := by
  cases action with
  | enable name subscriber =>
    cases subscriber with
    | none =>
      obtain ⟨x, latest, same⟩ := Option.map_eq_some_iff.1 makes
      cases same
      rw [perform]
      exact request_eq_call latest _ rfl
    | some subscriber =>
      obtain ⟨x, latest, same⟩ := Option.map_eq_some_iff.1 makes
      cases same
      rw [← (w.ensureSubscriber_aside subscriber).2.1] at latest
      rw [perform]
      exact request_eq_call latest _ rfl
  | start name raw =>
    obtain ⟨mode, read, there⟩ := Option.bind_eq_some_iff.1 makes
    obtain ⟨x, latest, same⟩ := Option.map_eq_some_iff.1 there
    cases same
    have reads : Request.ofStart raw = Request.ofMode mode := by
      rw [Request.ofStart, readMode, read]
      rfl
    simp only [perform, reads]
    exact request_eq_call latest _ rfl
  | transfer name power duration =>
    obtain ⟨x, latest, same⟩ := Option.map_eq_some_iff.1 makes
    cases same
    exact request_eq_call latest _ rfl
  | notify name notification =>
    obtain ⟨x, latest, same⟩ := Option.map_eq_some_iff.1 makes
    cases same
    simp only [perform, submitTo, latest]
    rfl
  | reply transfer notification =>
    obtain ⟨asked, issued, same⟩ := Option.map_eq_some_iff.1 makes
    cases same
    simp only [perform, reply, issued]
    rfl
  | setDevice name change onTransfer => cases makes
  | subscribe name kind reactions => cases makes
  | release name => cases makes
  | query name runtime id => cases makes

/-- One more envelope waits for one module. Its dispatcher may have got in line, and nothing else has changed. -/
def Appends (w : World) (m : ModuleRef) (envelope : Envelope) (after : World) : Prop :=
  w.ready <+: after.ready ∧ after =
    { w with
      modules := w.modules.adjust m (·.posted [envelope])
      ready := after.ready
      journal := .accepted m envelope :: w.journal }

theorem submit_appends {w : World} {m : ModuleRef} {target : Module} (found : w.modules.get? m = some target)
    (receiving : target.inbox.isReceiving = true) (room : target.inbox.queue.length < target.inbox.capacity)
    (envelope : Envelope) :
    (w.submit m envelope).2 = .ok ∧ w.Appends m envelope (w.submit m envelope).1 := by
  have posted : target.inbox.post envelope = .ok { target.inbox with queue := target.inbox.queue ++ [envelope] } := by
    rw [Inbox.post_of_receiving receiving, if_pos room]
  have modules : (w.setInbox m { target.inbox with queue := target.inbox.queue ++ [envelope] }).modules =
      w.modules.adjust m (·.posted [envelope]) := w.modules.adjust_congr found rfl
  simp only [submit, found, posted]
  obtain ⟨more, line⟩ := wake_line
    ((w.setInbox m { target.inbox with queue := target.inbox.queue ++ [envelope] }).record (.accepted m envelope)) m
  rw [line, Appends, ← modules]
  exact ⟨trivial, List.prefix_append _ _, rfl⟩

/-- No inbox holds more envelopes than it has room for. -/
def Fits (w : World) : Prop :=
  ∀ m target, w.modules.get? m = some target → target.inbox.queue.length ≤ target.inbox.capacity

theorem Fits.adjust {w later : World} (fits : w.Fits) {m : ModuleRef} {f : Module → Module}
    (modules : later.modules = w.modules.adjust m f)
    (still : ∀ target, w.modules.get? m = some target → target.inbox.queue.length ≤ target.inbox.capacity →
      (f target).inbox.queue.length ≤ (f target).inbox.capacity) : later.Fits := by
  intro other target found
  rw [modules] at found
  rcases found_adjust found with ⟨rfl, before, there, rfl⟩ | ⟨-, there⟩
  · exact still before there (fits other before there)
  · exact fits other target there

theorem Fits.of_same {w later : World} (fits : w.Fits) (modules : later.modules = w.modules) : later.Fits := by
  intro m target found
  rw [modules] at found
  exact fits m target found

end World

theorem Deed.fits {w later : World} (h : Deed w later) (fits : w.Fits) : later.Fits := by
  cases h with
  | @accept m target envelope inbox found posted =>
    refine fits.adjust (World.wake_modules _ _) ?_
    intro before _ _
    obtain ⟨-, room, rfl⟩ := Inbox.post_eq_ok.1 posted
    simp only [Module.withInbox, List.length_append, List.length_singleton]
    omega
  | aside => exact fits.of_same rfl
  | note => exact fits.of_same rfl
  | lend => exact fits.of_same rfl

theorem Change.fits {move : Move} {w later : World} (h : Change move w later) (fits : w.Fits) : later.Fits := by
  cases h with
  | deed h => exact h.fits fits
  | @take m target envelope inbox found running kept took named =>
    refine fits.adjust rfl ?_
    intro before there room
    obtain rfl := Option.some.inj (found.symm.trans there)
    rw [Inbox.take?_eq_some.1 took] at room
    exact Nat.le_of_succ_le room
  | handle envelope found named => exact fits.adjust rfl fun _ _ room => room
  | close found running cancelled wake later =>
    exact World.Fits.adjust (f := (·.closingUntil wake)) fits rfl fun _ _ room => room
  | finish found ending => exact World.Fits.adjust (f := (·.ended .finished)) fits rfl fun _ _ _ => Nat.zero_le _
  | drop found idle => exact World.Fits.adjust (f := (·.ended .dropped)) fits rfl fun _ _ _ => Nat.zero_le _
  | @build name target fresh runtime known =>
    intro m there found
    rw [World.addModule_modules, Roster.get?_add] at found
    cases before : w.modules.get? m with
    | some old =>
      rw [before, Option.some_or] at found
      exact Option.some.inj found ▸ fits m old before
    | none =>
      rw [before, Option.none_or] at found
      obtain ⟨-, same⟩ := Option.ite_none_right_eq_some.1 found
      obtain rfl := Option.some.inj same
      rw [fresh.queue]
      exact Nat.zero_le _
  | enrol found idle name named vacant => exact fits.adjust rfl fun _ _ room => room
  | spawn found launching named => exact fits.adjust (World.wake_modules _ _) fun _ _ room => room
  | cancel m named => exact fits.adjust (World.wake_modules _ _) fun _ _ room => room
  | setFirstAside =>
    obtain ⟨ready, aside, same⟩ := w.setFirstAside_eq
    rw [same]
    exact fits.of_same rfl
  | _ => exact fits.of_same rfl

namespace World

theorem Occurs.fits {w : World} (occurs : w.Occurs) : w.Fits := by
  refine Changes.keep (fun change fits => change.fits fits) occurs ?_
  intro m target missing
  cases missing

/-- How a call is answered by a module with a certain room in its inbox: by the first of these that applies. -/
structure AnswersInOrder (w : World) (m : ModuleRef) (inbox : Inbox) (room : Nat) (asked : Call) : Prop where
  faulty : ∀ refusal, asked.fault? = some refusal → w.call m asked = (w, .refused refusal)
  closed : asked.fault? = none → inbox.isReceiving = false → w.call m asked = (w, .refused .moduleStopped)
  full : asked.fault? = none → inbox.isReceiving = true → inbox.queue.length = room →
    w.call m asked = (w, .refused .inboxFull)
  accepted : asked.fault? = none → inbox.isReceiving = true → inbox.queue.length ≠ room →
    ∃ envelope, asked.Carries envelope ∧ (w.call m asked).2 = .ok ∧ w.Appends m envelope (w.call m asked).1

theorem call_of_fault {w : World} {m : ModuleRef} {asked : Call} {refusal : Refusal}
    (fault : asked.fault? = some refusal) : w.call m asked = (w, .refused refusal) := by
  rw [call, Call.envelope_of_fault fault]

theorem call_of_envelope {w : World} {m : ModuleRef} {asked : Call} {envelope : Envelope}
    (made : asked.envelope = .ok envelope) : w.call m asked = w.submit m envelope := by
  rw [call, made]

theorem answers_capacity {w : World} (occurs : w.Occurs) {m : ModuleRef} {target : Module}
    (found : w.modules.get? m = some target) (asked : Call) :
    w.AnswersInOrder m target.inbox target.inbox.capacity asked := by
  constructor
  case faulty => exact fun refusal fault => call_of_fault fault
  case closed =>
    intro faultless shut
    obtain ⟨envelope, made, -⟩ := Call.envelope_of_faultless faultless
    simp only [call_of_envelope made, submit, found, Inbox.post, shut, Bool.not_false, if_true]
  case full =>
    intro faultless receiving full
    obtain ⟨envelope, made, -⟩ := Call.envelope_of_faultless faultless
    have none_left : ¬ target.inbox.queue.length < target.inbox.capacity := Nat.not_lt.2 (Nat.le_of_eq full.symm)
    simp only [call_of_envelope made, submit, found, Inbox.post_of_receiving receiving, if_neg none_left]
  case accepted =>
    intro faultless receiving room
    obtain ⟨envelope, made, carries⟩ := Call.envelope_of_faultless faultless
    have some_left := Nat.lt_of_le_of_ne (occurs.fits m target found) room
    rw [call_of_envelope made]
    obtain ⟨ok, appends⟩ := submit_appends found receiving some_left envelope
    exact ⟨envelope, carries, ok, appends⟩

/-- Calls that are made while an envelope is dealt with find what waited behind it, and what they have handed in
themselves. -/
theorem call_found_behind {w : World} {m : ModuleRef} {target : Module} (found : w.modules.get? m = some target)
    (running : target.phase = .running) (kept : target.cancelled = false) {envelope : Envelope} {inbox : Inbox}
    (took : target.inbox.take? = some (envelope, inbox)) {call : World × Action}
    (member : call ∈ w.callsIn (.attend m)) :
    Changes w call.1 ∧ ∃ more now, call.1.modules.get? m = some now ∧
      now.inbox = { inbox with queue := inbox.queue ++ more } := by
  have deeds : Deeds _ call.1 := (attending_deeds found running kept took).trans (callsOf_deeds member)
  obtain ⟨more, now, -⟩ := deeds.posted (told_found _ envelope (w.took_found envelope inbox found))
  have changes : ChangesIn (.attend m) w call.1 := (told_changes found running kept took).trans deeds.changes
  exact ⟨changes.changes, more, _, now, rfl⟩

/-- However a module and all the others have come to where they are, each of its calls is answered in the same order:
what is wrong with the arguments, then that the inbox is closed, then that it is full, and ok otherwise. Nothing has
changed after a refusal, and after an ok one envelope with just these arguments waits behind all the others. The inbox
never holds more than it was asked to take, one where none was asked for, and a call from within the dispatch of an
envelope is refused only if as many wait behind that one. -/
theorem calls_answered_in_order {w : World} (reached : w.Reachable) {plan : Plan} {settings : Settings}
    (given : plan.settings = some settings) {built : World} {answer : Answer}
    (followed : w.follow? plan = some (built, answer)) :
    ∃ m target, w.BuiltAs built plan settings m target ∧ ∀ later, Changes built later →
      ∃ there, later.modules.get? m = some there ∧
        there.inbox.queue.length ≤ max 1 settings.inboxCapacity ∧
        (∀ asked, later.AnswersInOrder m there.inbox (max 1 settings.inboxCapacity) asked) ∧
        (∀ action made asked, later.callMade? action = some (made, m, asked) →
          later.perform action = made.call m asked) ∧
        ∀ envelope rest, there.phase = .running → there.cancelled = false → there.inbox.queue = envelope :: rest →
          ∀ call ∈ later.callsIn (.attend m), ∃ more now, call.1.modules.get? m = some now ∧
            now.inbox.isReceiving = true ∧ now.inbox.queue = rest ++ more ∧
            ∀ asked, call.1.AnswersInOrder m now.inbox (max 1 settings.inboxCapacity) asked := by
  obtain ⟨-, m, target, there⟩ := follow?_builds reached.numbered given followed
  refine ⟨m, target, there, ?_⟩
  intro later changes
  have building : ChangesIn (.build plan) w built := follow_changes followed
  have occurs : ∀ {later}, Changes built later → later.Occurs :=
    fun changes => (reached.changes.trans building.changes).trans changes
  have capacity : ∀ {later now}, Changes built later → later.modules.get? m = some now →
      now.inbox.capacity = max 1 settings.inboxCapacity :=
    fun changes found => (Changes.capacity changes there.found found).trans there.capacity
  obtain ⟨now, found, -⟩ := changes.lasts there.found
  refine ⟨now, found, ?_, ?_, ?_, ?_⟩
  · exact capacity changes found ▸ (occurs changes).fits m now found
  · exact fun asked => capacity changes found ▸ answers_capacity (occurs changes) found asked
  · exact fun action made asked makes => perform_eq_call makes
  · intro envelope rest running kept waits call member
    have took : now.inbox.take? = some (envelope, { now.inbox with queue := rest }) := by
      rw [Inbox.take?, waits]
    obtain ⟨onward, more, moment, here, inbox⟩ := call_found_behind found running kept took member
    have receiving : moment.inbox.isReceiving = true := by
      rw [inbox]
      exact Inbox.isReceiving_iff.2 (Occurs.receiving (occurs changes) found running)
    refine ⟨more, moment, here, receiving, by rw [inbox], ?_⟩
    intro asked
    exact capacity (changes.trans onward) here ▸ answers_capacity (occurs (changes.trans onward)) here asked

def oneRoom : Plan := ⟨"a", "r", "d", some { inboxCapacity := 0 }, []⟩

theorem second_call_finds_inbox_full : ∃ built later m, ({} : World).follow? oneRoom = some (built, .ok) ∧
    built.call m (.notify (.ended 1)) = (later, .ok) ∧
    later.call m (.notify (.ended 2)) = (later, .refused .inboxFull) ∧
    later.call m (.transfer 0x15 0xFF) = (later, .refused (.invalidPower 0x15)) := by
  obtain ⟨⟨built, answer⟩, followed⟩ :=
    Option.isSome_iff_exists.1 (by decide : (({} : World).follow? oneRoom).isSome = true)
  obtain ⟨rfl, -⟩ := follow?_builds numbered_empty rfl followed
  obtain ⟨m, target, there, answers⟩ := calls_answered_in_order reachable_empty rfl followed
  obtain ⟨now, found, -, first, -⟩ := answers built .refl
  obtain rfl := Option.some.inj (there.found.symm.trans found)
  have empty : target.inbox.queue.length ≠ 1 := by
    rw [there.fresh.queue]
    decide
  obtain ⟨envelope, -, ok, -, grown⟩ :=
    (first (.notify (.ended 1))).accepted rfl there.fresh.receiving empty
  have onward : Changes built (built.call m (.notify (.ended 1))).1 := by
    have deeds : ChangesIn .rejoin built (built.call m (.notify (.ended 1))).1 :=
      (built.submit_deeds m (.notification (.ended 1))).changes
    exact deeds.changes
  have posted : (built.call m (.notify (.ended 1))).1.modules.get? m = some (target.posted [envelope]) := by
    rw [grown]
    simp [found]
  obtain ⟨next, here, -, second, -⟩ := answers _ onward
  obtain rfl := Option.some.inj (posted.symm.trans here)
  have full : (target.posted [envelope]).inbox.queue.length = 1 := by
    simp [Module.posted, Module.withInbox, there.fresh.queue]
  exact ⟨built, _, m, followed, Prod.ext rfl ok, (second _).full rfl there.fresh.receiving full,
    (second _).faulty _ (by decide)⟩

end World

end WirelessCharging
