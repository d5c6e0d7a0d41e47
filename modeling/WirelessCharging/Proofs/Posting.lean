import WirelessCharging.Proofs.Fifo
import WirelessCharging.Proofs.Routing
/-!
Who calls. A move makes one call itself, or it runs the script of whoever is called back, of a device or of a
hook, or it makes no call at all. The envelopes that a module accepts over a run are those that its calls hand
in, in the order of the calls, and no call touches the power transfers that devices have been handed.
-/
namespace WirelessCharging

namespace World

/-- The calls of a script, each with the world in which it is made. -/
def callsOf (w : World) : Script → List (World × Action)
  | [] => []
  | action :: rest =>
    (w, action) :: ((w.perform action).1.record (.acted action (w.perform action).2)).callsOf rest

def hooking (w : World) (m : ModuleRef) (target : Module) (kind : HookKind) : World × Script :=
  match target.hook? kind with
  | none => (w, [])
  | some hook =>
    (w.record (.hookCalled m kind hook.tag target.context (w.hasSubscriber target.context)), hook.script)

def attending (w : World) (m : ModuleRef) : World × Script :=
  match w.modules.get? m with
  | none => (w, [])
  | some target =>
    if target.phase ≠ .running then (w, [])
    else if target.cancelled then
      ((w.adjustModule m (·.closingUntil (w.now + target.delay .afterStop))).record (.closed m)).hooking
        m target .afterStop
    else
      match target.inbox.take? with
      | none => (w, [])
      | some (envelope, inbox) => (w.took m envelope inbox).dispatching m target envelope

def enrolling (w : World) (name : String) : World × Script :=
  match w.idle? name with
  | none => (w, [])
  | some (m, target) =>
    match w.registration? target.registry .wlc with
    | some _ => (w, [])
    | none => ((w.register target.registry m).setPhase m .launching).hooking m target .beforeStart

/-- The script that runs in a move, and the world in which it starts. -/
def calling (w : World) : Move → World × Script
  | .act action => (w, [action])
  | .enrol name => w.enrolling name
  | .attend m => w.attending m
  | _ => (w, [])

def callsIn (w : World) (move : Move) : List (World × Action) := (w.calling move).1.callsOf (w.calling move).2

def calls (w : World) : List Move → List (World × Action)
  | [] => []
  | move :: rest =>
    match w.move? move with
    | none => []
    | some after => w.callsIn move ++ after.calls rest

theorem calls_cons {w after : World} {move : Move} (moved : w.move? move = some after) {rest : List Move} :
    w.calls (move :: rest) = w.callsIn move ++ after.calls rest := by
  rw [calls, moved]

theorem callHook_eq (w : World) (m : ModuleRef) (target : Module) (kind : HookKind) :
    w.callHook m target kind = (w.hooking m target kind).1.runScript (w.hooking m target kind).2 := by
  simp only [callHook, hooking]
  cases target.hook? kind with
  | none => rfl
  | some hook => rfl

end World

/-- Devices keep what they have been handed, and modules stay where they are. -/
structure World.Extends (w later : World) : Prop where
  transfers : w.transfers <+: later.transfers
  modules : w.modules.keys <+: later.modules.keys

def Entry.forwarded? : Entry → Option Transfer
  | .forwarded issuer _ device power duration => some ⟨issuer, device, power, duration⟩
  | _ => none

/-- Devices are handed some more power transfers, and nothing is accepted meanwhile. -/
structure World.Hands (w : World) (more : List Transfer) (later : World) : Prop where
  accepted : ∀ m, later.accepted m = w.accepted m
  forwarded : later.noted Entry.forwarded? = w.noted Entry.forwarded? ++ more
  transfers : later.transfers = w.transfers ++ more
  modules : w.modules.keys <+: later.modules.keys

abbrev World.Quiet (w later : World) : Prop := w.Hands [] later

namespace World

theorem Extends.refl (w : World) : w.Extends w := ⟨List.prefix_rfl, List.prefix_rfl⟩

theorem Extends.trans {w middle last : World} (first : w.Extends middle) (rest : middle.Extends last) :
    w.Extends last :=
  ⟨first.transfers.trans rest.transfers, first.modules.trans rest.modules⟩

theorem Hands.extends {w later : World} {more : List Transfer} (h : w.Hands more later) : w.Extends later :=
  ⟨h.transfers ▸ List.prefix_append _ _, h.modules⟩

theorem Hands.append {w middle last : World} {more rest : List Transfer} (first : w.Hands more middle)
    (next : middle.Hands rest last) : w.Hands (more ++ rest) last := by
  constructor
  case accepted =>
    intro m
    rw [next.accepted, first.accepted]
  case forwarded => rw [next.forwarded, first.forwarded, List.append_assoc]
  case transfers => rw [next.transfers, first.transfers, List.append_assoc]
  case modules => exact first.modules.trans next.modules

theorem Hands.trans {w middle last : World} {more : List Transfer} (first : w.Hands more middle)
    (rest : middle.Quiet last) : w.Hands more last := by
  have both := first.append rest
  rwa [List.append_nil] at both

theorem Hands.after {w middle last : World} {more : List Transfer} (rest : middle.Hands more last)
    (first : w.Quiet middle) : w.Hands more last := first.append rest

theorem quiet_of_same {w later : World} (journal : later.journal = w.journal)
    (transfers : later.transfers = w.transfers) (modules : later.modules.keys = w.modules.keys) :
    w.Quiet later :=
  ⟨fun _ => noted_congr _ journal, by rw [noted_congr _ journal, List.append_nil],
    by rw [transfers, List.append_nil], modules ▸ List.prefix_rfl⟩

theorem Quiet.refl (w : World) : w.Quiet w := quiet_of_same rfl rfl rfl

theorem quiet_record (w : World) {entry : Entry} (unaccepting : ∀ m, Entry.acceptedBy? m entry = none)
    (nothing : Entry.forwarded? entry = none) : w.Quiet (w.record entry) := by
  constructor
  case accepted => exact fun m => noted_of_none rfl (unaccepting m)
  case forwarded => rw [noted_of_none (w := w) rfl nothing, List.append_nil]
  case transfers => exact (List.append_nil _).symm
  case modules => exact List.prefix_rfl

theorem quiet_senders (w : World) (senders : List Sender) : w.Quiet { w with senders } := quiet_of_same rfl rfl rfl

theorem quiet_adjustModule (w : World) (m : ModuleRef) (f : Module → Module) : w.Quiet (w.adjustModule m f) :=
  quiet_of_same rfl rfl (Roster.keys_adjust _ _ _)

def acceptance? (m : ModuleRef) (call : World × Action) : Option Envelope :=
  match call.1.submission? call.2 with
  | none => none
  | some (receiver, envelope) =>
    if receiver = m ∧ (call.1.perform call.2).2 = .ok then some envelope else none

theorem acceptance?_eq_some {m : ModuleRef} {call : World × Action} {envelope : Envelope} :
    acceptance? m call = some envelope ↔
      call.1.submission? call.2 = some (m, envelope) ∧ (call.1.perform call.2).2 = .ok := by
  unfold acceptance?
  cases call.1.submission? call.2 with
  | none => simp
  | some handed =>
    obtain ⟨receiver, waiting⟩ := handed
    simp only [Option.ite_none_right_eq_some, Option.some.injEq, Prod.mk.injEq]
    exact and_right_comm

theorem perform_acceptance (w : World) (action : Action) (m : ModuleRef) :
    (w.perform action).1.accepted m = w.accepted m ++ (acceptance? m (w, action)).toList := by
  rw [perform_accepted, acceptance?]
  cases w.submission? action with
  | none => rw [receivedBy, ite_self]; rfl
  | some received =>
    obtain ⟨receiver, envelope⟩ := received
    by_cases ok : (w.perform action).2 = .ok <;> by_cases here : receiver = m <;>
      simp [receivedBy, ok, here]

@[simp] theorem wake_transfers (w : World) (m : ModuleRef) : (w.wake m).transfers = w.transfers := by
  unfold wake
  split <;> rfl

@[simp] theorem wake_inHand (w : World) (m : ModuleRef) : (w.wake m).inHand = w.inHand := by
  unfold wake
  split <;> rfl

theorem wake_quiet (w : World) (m : ModuleRef) : w.Quiet (w.wake m) :=
  quiet_of_same (w.wake_journal m) (w.wake_transfers m) (by rw [wake_modules])

/-- An operation that neither looks at modules or the journal nor changes them. -/
def Blind (f : World → World) : Prop :=
  ∀ w modules journal, f { w with modules, journal } = { f w with modules, journal }

theorem Blind.modules {f : World → World} (h : Blind f) (w : World) : (f w).modules = w.modules := by
  have same := congrArg World.modules (h w w.modules w.journal)
  exact same

theorem Blind.journal {f : World → World} (h : Blind f) (w : World) : (f w).journal = w.journal := by
  have same := congrArg World.journal (h w w.modules w.journal)
  exact same

theorem letGo_blind (name : String) : Blind (·.letGo name) := by
  intro w modules journal
  have same : heldSubscriber? { w with modules, journal } name = w.heldSubscriber? name := rfl
  dsimp only [letGo]
  rw [same]
  split <;> rfl

theorem ensureSubscriber_blind (name : String) : Blind fun w => (w.ensureSubscriber name).1 := by
  intro w modules journal
  have same : heldSubscriber? { w with modules, journal } name = w.heldSubscriber? name := rfl
  dsimp only [ensureSubscriber]
  rw [same]
  split <;> rfl

theorem ensureSubscriber_ref {w v : World} (subscribers : v.subscribers = w.subscribers) (name : String) :
    (v.ensureSubscriber name).2 = (w.ensureSubscriber name).2 := by
  have held : v.heldSubscriber? name = w.heldSubscriber? name := by
    rw [heldSubscriber?, heldSubscriber?, subscribers]
  rw [ensureSubscriber, ensureSubscriber, held, subscribers]
  split <;> rfl

theorem ensureDevice_blind (name : String) : Blind (·.ensureDevice name) := by
  intro w modules journal
  dsimp only [ensureDevice]
  split <;> rfl

theorem ensureSubscriber_aside (w : World) (name : String) :
    (w.ensureSubscriber name).1.transfers = w.transfers ∧ (w.ensureSubscriber name).1.modules = w.modules ∧
      (w.ensureSubscriber name).1.inHand = w.inHand := by
  unfold ensureSubscriber
  split <;> exact ⟨rfl, rfl, rfl⟩

theorem submit_aside (w : World) (m : ModuleRef) (envelope : Envelope) :
    (w.submit m envelope).1.transfers = w.transfers ∧
      (w.submit m envelope).1.modules.keys = w.modules.keys ∧ (w.submit m envelope).1.inHand = w.inHand := by
  unfold submit
  split
  · exact ⟨rfl, rfl, rfl⟩
  · split
    · exact ⟨rfl, rfl, rfl⟩
    · simp [record, setInbox, adjustModule]

theorem request_aside (w : World) (name : String) (request : Except Refusal Request) :
    (w.request name request).1.transfers = w.transfers ∧
      (w.request name request).1.modules.keys = w.modules.keys ∧ (w.request name request).1.inHand = w.inHand := by
  cases request with
  | error refusal => exact ⟨rfl, rfl, rfl⟩
  | ok request =>
    simp only [World.request, submitTo]
    split
    · exact ⟨rfl, rfl, rfl⟩
    · exact w.submit_aside _ _

theorem perform_aside (w : World) (action : Action) :
    (w.perform action).1.transfers = w.transfers ∧ (w.perform action).1.modules.keys = w.modules.keys ∧
      (w.perform action).1.inHand = w.inHand := by
  cases action with
  | enable name subscriber =>
    cases subscriber with
    | none => exact ⟨rfl, rfl, rfl⟩
    | some subscriber =>
      obtain ⟨transfers, modules, inHand⟩ := w.ensureSubscriber_aside subscriber
      rw [← transfers, ← modules, ← inHand]
      exact request_aside _ name _
  | start name mode => exact w.request_aside name _
  | transfer name power duration => exact w.request_aside name _
  | notify name notification =>
    simp only [perform, submitTo]
    split
    · exact ⟨rfl, rfl, rfl⟩
    · exact w.submit_aside _ _
  | reply transfer notification =>
    simp only [perform, reply]
    split
    · exact ⟨rfl, rfl, rfl⟩
    · exact w.submit_aside _ _
  | setDevice name change onTransfer =>
    simp only [perform, ensureDevice, adjustDevice]
    split <;> exact ⟨rfl, rfl, rfl⟩
  | subscribe name kind reactions =>
    simp only [perform, letGo, addSubscriber]
    split <;> exact ⟨rfl, rfl, rfl⟩
  | release name =>
    simp only [perform, letGo]
    split <;> exact ⟨rfl, rfl, rfl⟩
  | query name runtime id => exact ⟨rfl, rfl, rfl⟩

theorem submit_congr {w later : World} (same : later.modules = w.modules) (m : ModuleRef) (envelope : Envelope) :
    (later.submit m envelope).2 = (w.submit m envelope).2 := by
  unfold submit
  rw [same]
  split
  · rfl
  · split <;> rfl

theorem perform_answer {w : World} {action : Action} {m : ModuleRef} {envelope : Envelope}
    (handed : w.submission? action = some (m, envelope)) : (w.perform action).2 = (w.submit m envelope).2 := by
  have requested : ∀ {ensured : World} {name : String} {request : Except Refusal Request},
      ensured.modules = w.modules → w.addressed? name request = some (m, envelope) →
        (ensured.request name request).2 = (w.submit m envelope).2 := by
    intro ensured name request same there
    obtain ⟨latest, posted, rfl, rfl⟩ := addressed?_eq_some.1 there
    rw [← same] at latest
    simp only [World.request, submitTo, latest]
    exact submit_congr same m _
  cases action with
  | enable name subscriber =>
    cases subscriber with
    | none => cases handed
    | some subscriber =>
      exact requested (w.ensureSubscriber_aside subscriber).2.1 handed
  | start name mode => exact requested rfl handed
  | transfer name power duration => exact requested rfl handed
  | notify name notification =>
    obtain ⟨receiver, latest, same⟩ := Option.map_eq_some_iff.1 handed
    cases same
    simp only [perform, submitTo, latest]
  | reply transfer notification =>
    obtain ⟨issued, there, same⟩ := Option.map_eq_some_iff.1 handed
    cases same
    simp only [perform, reply, there]
  | setDevice name change onTransfer => cases handed
  | subscribe name kind reactions => cases handed
  | release name => cases handed
  | query name runtime id => cases handed

theorem runScript_accepted (w : World) (script : Script) (m : ModuleRef) :
    (w.runScript script).accepted m = w.accepted m ++ (w.callsOf script).filterMap (acceptance? m) := by
  induction script generalizing w with
  | nil => exact (List.append_nil _).symm
  | cons action rest ih =>
    have noted : ((w.perform action).1.record (.acted action (w.perform action).2)).accepted m =
        (w.perform action).1.accepted m := noted_of_none rfl rfl
    rw [runScript, ih, noted, perform_acceptance, callsOf, List.append_assoc, List.filterMap_cons]
    cases acceptance? m (w, action) with
    | none => rfl
    | some envelope => rfl

theorem runScript_append (w : World) (first rest : Script) :
    w.runScript (first ++ rest) = (w.runScript first).runScript rest := by
  induction first generalizing w with
  | nil => rfl
  | cons action first ih => exact ih _

theorem runScript_aside (w : World) (script : Script) :
    (w.runScript script).transfers = w.transfers ∧ (w.runScript script).modules.keys = w.modules.keys ∧
      (w.runScript script).inHand = w.inHand := by
  induction script generalizing w with
  | nil => exact ⟨rfl, rfl, rfl⟩
  | cons action rest ih =>
    obtain ⟨transfers, modules, inHand⟩ := ih ((w.perform action).1.record (.acted action (w.perform action).2))
    obtain ⟨same, alike, held⟩ := w.perform_aside action
    exact ⟨transfers.trans same, modules.trans alike, inHand.trans held⟩

theorem callsOf_aside {w : World} {script : Script} {call : World × Action} (member : call ∈ w.callsOf script) :
    call.1.transfers = w.transfers ∧ call.1.modules.keys = w.modules.keys := by
  induction script generalizing w with
  | nil => cases member
  | cons action rest ih =>
    rcases List.mem_cons.1 member with rfl | later
    · exact ⟨rfl, rfl⟩
    · obtain ⟨transfers, modules⟩ := ih later
      obtain ⟨same, alike, -⟩ := w.perform_aside action
      exact ⟨transfers.trans same, modules.trans alike⟩

theorem callsOf_deeds {w : World} {script : Script} {call : World × Action} (member : call ∈ w.callsOf script) :
    Deeds w call.1 := by
  induction script generalizing w with
  | nil => cases member
  | cons action rest ih =>
    rcases List.mem_cons.1 member with rfl | later
    · exact .refl
    · exact ((w.perform_deeds action).tail (.note _ _ _)).trans (ih later)

theorem callback_quiet (w : World) (m : ModuleRef) (s : SubscriberRef) (event : Event) :
    w.Quiet (w.callback m s event).1 := by
  have told : w.Quiet (w.record (.delivered m s event)) := w.quiet_record (fun _ => rfl) rfl
  unfold callback
  dsimp only
  split
  · exact told
  · split
    · split
      · exact told
      · exact told.trans (quiet_of_same rfl rfl rfl)
    · exact told

theorem reporting_quiet (w : World) (m : ModuleRef) (event : Event) : w.Quiet (w.reporting m event).1 := by
  unfold reporting
  split
  · rename_i s _
    have held : w.Quiet { w with inHand := [s] } := quiet_of_same rfl rfl rfl
    exact held.trans (callback_quiet _ m s event)
  · exact w.quiet_record (fun _ => rfl) rfl

theorem hooking_quiet (w : World) (m : ModuleRef) (target : Module) (kind : HookKind) :
    w.Quiet (w.hooking m target kind).1 := by
  unfold hooking
  split
  · exact .refl w
  · exact w.quiet_record (fun _ => rfl) rfl

theorem hooking_changes {move : Move} (w : World) (m : ModuleRef) (target : Module) (kind : HookKind) :
    ChangesIn move w (w.hooking m target kind).1 := by
  unfold hooking
  split
  · exact .refl
  · exact .single (.hook w m kind _ _ _)

theorem attending_taking {w : World} {m : ModuleRef} {target : Module} (found : w.modules.get? m = some target)
    (running : target.phase = .running) (kept : target.cancelled = false) {envelope : Envelope} {inbox : Inbox}
    (took : target.inbox.take? = some (envelope, inbox)) :
    w.attending m = (w.took m envelope inbox).dispatching m target envelope := by
  simp only [attending, found, running, kept, took, ne_eq, not_true_eq_false, if_false, Bool.false_eq_true]

theorem attending_deeds {w : World} {m : ModuleRef} {target : Module} (found : w.modules.get? m = some target)
    (running : target.phase = .running) (kept : target.cancelled = false) {envelope : Envelope} {inbox : Inbox}
    (took : target.inbox.take? = some (envelope, inbox)) :
    Deeds ((w.took m envelope inbox).told m (target.withInbox inbox) envelope) (w.attending m).1 := by
  have deeds := (w.took m envelope inbox).dispatching_deeds m envelope (w.took_found envelope inbox found)
  rwa [dispatching_withInbox, ← attending_taking found running kept took] at deeds

theorem attending_closing {w : World} {m : ModuleRef} {target : Module} (found : w.modules.get? m = some target)
    (running : target.phase = .running) (cancelled : target.cancelled = true) :
    w.attending m = ((w.adjustModule m (·.closingUntil (w.now + target.delay .afterStop))).record (.closed m)).hooking
      m target .afterStop := by
  simp only [attending, found, running, cancelled, ne_eq, not_true_eq_false, if_true, if_false]

def handing? (m : ModuleRef) (target : Module) : Envelope → Option Transfer
  | .request (.transfer power duration) => some ⟨m, target.device, power, duration⟩
  | _ => none

theorem transferring_hands (w : World) (transfer : Transfer) :
    w.Hands [transfer] (w.transferring transfer).1 := by
  have recorded : (w.handOver transfer).journal = .forwarded transfer.issuer w.transfers.length transfer.device
      transfer.power transfer.duration :: w.journal := rfl
  have handed : w.Hands [transfer] (w.handOver transfer) :=
    ⟨fun _ => noted_of_none recorded rfl, noted_cons _ recorded, rfl, List.prefix_rfl⟩
  unfold transferring
  split
  · exact handed
  · split
    · exact handed
    · exact handed.trans (quiet_of_same rfl rfl rfl)

theorem dispatching_hands (w : World) (m : ModuleRef) (target : Module) (envelope : Envelope) :
    w.Hands (handing? m target envelope).toList (w.dispatching m target envelope).1 := by
  have remembers : ∀ context, w.Quiet (w.setContext m context) := fun _ => w.quiet_adjustModule m _
  cases envelope with
  | notification notification => exact w.reporting_quiet m _
  | request request =>
    cases request with
    | enable s =>
      simp only [dispatching]
      split
      · have held : w.Quiet { w.setContext m (target.context.enabledFor s) with inHand := [s] } :=
          (remembers _).trans (quiet_of_same rfl rfl rfl)
        exact held.trans (callback_quiet _ m s _)
      · have held : w.Quiet { w with inHand := [s] } := quiet_of_same rfl rfl rfl
        exact held.trans (callback_quiet _ m s _)
    | start mode =>
      simp only [dispatching]
      split
      · exact w.quiet_record (fun _ => rfl) rfl
      · exact (remembers _).trans (reporting_quiet _ m _)
    | transfer power duration => exact w.transferring_hands _

def handedIn (w : World) : Move → List Transfer
  | .attend m =>
    match w.modules.get? m, w.taking? m with
    | some target, some (_, envelope) => (handing? m target envelope).toList
    | _, _ => []
  | _ => []

/-- The calls of a move come after what it hands to a device, and what follows them is nobody's call. -/
structure CallsIn (w : World) (move : Move) (after : World) : Prop where
  before : w.Hands (w.handedIn move) (w.calling move).1
  past : ((w.calling move).1.runScript (w.calling move).2).Quiet after

theorem attend_callsIn {w after : World} {m : ModuleRef} (h : w.attend? m = some after) :
    w.CallsIn (.attend m) after := by
  obtain ⟨target, found, running, ⟨cancelled, rfl⟩ | ⟨kept, envelope, inbox, took, rfl⟩⟩ := attend?_eq_some.1 h
  · constructor
    case before =>
      simp only [handedIn, found, taking?_none found cancelled, calling, attending_closing found running cancelled]
      exact ((w.quiet_adjustModule m _).trans (quiet_record _ (fun _ => rfl) rfl)).trans (hooking_quiet _ m _ _)
    case past =>
      simp only [calling, attending_closing found running cancelled, closeDown, callHook_eq]
      split
      · exact (quiet_adjustModule _ m _).trans (quiet_senders _ _)
      · exact .refl _
  · have taken : w.Quiet (w.took m envelope inbox) :=
      (w.quiet_adjustModule m _).trans (quiet_record _ (fun _ => rfl) rfl)
    constructor
    case before =>
      simp only [handedIn, found, taking?_eq found running kept took, calling, attending_taking found running kept took]
      exact ((w.took m envelope inbox).dispatching_hands m target envelope).after taken
    case past =>
      simp only [calling, attending_taking found running kept took]
      obtain ⟨inHand, same⟩ := (w.took m envelope inbox).dispatch_eq m target envelope
      exact same ▸ quiet_of_same rfl rfl rfl

theorem enrol_callsIn {w after : World} {name : String} (h : w.enrol? name = some after) :
    w.CallsIn (.enrol name) after := by
  unfold enrol? at h
  split at h
  · cases h
  · rename_i m target idle
    split at h
    · rename_i holder taken
      obtain rfl := Option.some.inj h
      constructor
      case before =>
        simp only [calling, enrolling, idle, taken]
        exact Quiet.refl w
      case past =>
        simp only [calling, enrolling, idle, taken]
        exact (w.quiet_adjustModule m _).trans (quiet_senders _ _)
    · rename_i vacant
      obtain rfl := Option.some.inj h
      constructor
      case before =>
        simp only [calling, enrolling, idle, vacant]
        have enrolled : w.Quiet ((w.register target.registry m).setPhase m .launching) :=
          quiet_of_same rfl rfl (Roster.keys_adjust _ _ _)
        exact (hooking_quiet _ m target _).after enrolled
      case past =>
        simp only [calling, enrolling, idle, vacant, enrol, callHook_eq]
        exact .refl _

theorem quiet_callsIn {w after : World} {move : Move} (none_called : w.calling move = (w, []))
    (nothing : w.handedIn move = []) (quiet : w.Quiet after) : w.CallsIn move after := by
  constructor
  case before =>
    rw [none_called, nothing]
    exact Quiet.refl w
  case past =>
    rw [none_called]
    exact quiet

theorem ensureRuntime_quiet (w : World) (name : String) : w.Quiet (w.ensureRuntime name) := by
  unfold ensureRuntime
  split
  · exact .refl w
  · exact quiet_of_same rfl rfl rfl

theorem dropIdle_quiet (w : World) (name : String) : w.Quiet (w.dropIdle name) := by
  unfold dropIdle
  split
  · exact .refl w
  · exact (w.quiet_adjustModule _ _).trans (quiet_senders _ _)

theorem follow_quiet {w after : World} {plan : Plan} {answer : Answer}
    (h : w.follow? plan = some (after, answer)) : w.Quiet after := by
  have ensured : w.Quiet ((w.ensureRuntime plan.runtime).ensureDevice plan.device) := by
    refine (w.ensureRuntime_quiet plan.runtime).trans ?_
    unfold ensureDevice
    split
    · exact .refl _
    · exact quiet_of_same rfl rfl rfl
  unfold follow? at h
  dsimp only at h
  split at h
  · obtain ⟨rfl, -⟩ := Prod.mk.inj (Option.some.inj h)
    exact ensured
  · obtain ⟨built, builds, same⟩ := Option.map_eq_some_iff.1 h
    obtain ⟨rfl, -⟩ := Prod.mk.inj same
    unfold build? at builds
    split at builds
    · obtain rfl := Option.some.inj builds
      refine (ensured.trans (dropIdle_quiet _ plan.name)).trans
        ⟨fun _ => rfl, (List.append_nil _).symm, (List.append_nil _).symm, ?_⟩
      rw [addModule_modules, Roster.keys_add]
      exact List.prefix_append _ _
    · cases builds

theorem hookOver_quiet (w : World) (m : ModuleRef) (target : Module) (kind : HookKind) :
    w.Quiet (w.hookOver m target kind) := by
  unfold hookOver
  split
  · exact .refl w
  · exact w.quiet_record (fun _ => rfl) rfl

theorem spawn_quiet {w after : World} {m : ModuleRef} (h : w.spawn? m = some after) : w.Quiet after := by
  unfold spawn? at h
  split at h
  · cases h
  · rename_i target _
    split at h
    · obtain rfl := Option.some.inj h
      have begun : w.Quiet ((w.hookOver m target .beforeStart).setPhase m .running) :=
        (w.hookOver_quiet m target .beforeStart).trans (quiet_adjustModule _ m _)
      exact (begun.trans (quiet_senders _ _)).trans (wake_quiet _ m)
    · cases h

theorem advance_quiet (w : World) (limit : Nat) : w.Quiet (w.advance limit) := by
  have rested : w.Quiet ((w.due limit).foldl (fun w entry => w.restOver entry.2) w) := by
    refine List.foldlRecOn (motive := fun after : World => w.Quiet after) (w.due limit) _ (.refl w) ?_
    intro after quiet entry _
    unfold restOver
    split
    · exact quiet
    · exact ((quiet.trans (after.hookOver_quiet _ _ _)).trans (quiet_adjustModule _ _ _)).trans (quiet_senders _ _)
  exact rested.trans (quiet_of_same rfl rfl rfl)

theorem cloneRuntime_quiet (w : World) (name source : String) : w.Quiet (w.cloneRuntime name source) := by
  unfold cloneRuntime
  dsimp only
  split
  · exact w.ensureRuntime_quiet source
  · exact (w.ensureRuntime_quiet source).trans (quiet_of_same rfl rfl rfl)

/-- Every move hands over first, then come the calls that scripts make in it, and the rest is quiet. -/
theorem move_callsIn {w after : World} {move : Move} (h : w.move? move = some after) : w.CallsIn move after := by
  cases move with
  | act action =>
    obtain rfl := Option.some.inj h
    constructor
    case before => exact Quiet.refl w
    case past =>
      -- the entry of a call at the top is its answer alone, so the script has one entry more
      constructor
      case accepted => exact fun m => (noted_of_none rfl rfl).symm
      case forwarded => exact (List.append_nil _).symm
      case transfers => exact (List.append_nil _).symm
      case modules => exact List.prefix_rfl
  | build plan =>
    obtain ⟨⟨built, answer⟩, followed, rfl⟩ := Option.map_eq_some_iff.1 h
    exact quiet_callsIn rfl rfl (follow_quiet followed)
  | enrol name => exact enrol_callsIn h
  | spawn m => exact quiet_callsIn rfl rfl (spawn_quiet h)
  | attend m => exact attend_callsIn h
  | pass time =>
    simp only [move?] at h
    split at h
    · obtain rfl := Option.some.inj h
      exact quiet_callsIn rfl rfl (w.advance_quiet time)
    · cases h
  | cancel m =>
    obtain rfl := Option.some.inj h
    exact quiet_callsIn rfl rfl ((w.quiet_adjustModule m _).trans (wake_quiet _ m))
  | deregister m =>
    simp only [move?, deregister?] at h
    split at h
    · cases h
    · split at h
      · obtain rfl := Option.some.inj h
        exact quiet_callsIn rfl rfl (quiet_of_same rfl rfl rfl)
      · cases h
  | yield =>
    simp only [move?, yield?] at h
    split at h
    · cases h
    · split at h
      · obtain rfl := Option.some.inj h
        exact quiet_callsIn rfl rfl (quiet_of_same rfl rfl rfl)
      · cases h
  | setFirstAside =>
    obtain rfl := Option.some.inj h
    obtain ⟨ready, aside, same⟩ := w.setFirstAside_eq
    rw [same]
    exact quiet_callsIn rfl rfl (quiet_of_same rfl rfl rfl)
  | rejoin =>
    obtain rfl := Option.some.inj h
    exact quiet_callsIn rfl rfl (quiet_of_same rfl rfl rfl)
  | newRuntime name =>
    obtain rfl := Option.some.inj h
    exact quiet_callsIn rfl rfl (quiet_of_same rfl rfl rfl)
  | cloneRuntime name source =>
    obtain rfl := Option.some.inj h
    exact quiet_callsIn rfl rfl (w.cloneRuntime_quiet name source)
  | dropRuntime name =>
    obtain rfl := Option.some.inj h
    exact quiet_callsIn rfl rfl (quiet_of_same rfl rfl rfl)
  | dropIdle name =>
    obtain rfl := Option.some.inj h
    exact quiet_callsIn rfl rfl (w.dropIdle_quiet name)
  | clone m =>
    obtain ⟨senders, rfl⟩ := clone?_senders h
    exact quiet_callsIn rfl rfl (w.quiet_senders senders)
  | drop sender =>
    obtain ⟨senders, rfl⟩ := drop?_senders h
    exact quiet_callsIn rfl rfl (w.quiet_senders senders)

theorem CallsIn.accepted {w after : World} {move : Move} (h : w.CallsIn move after) (m : ModuleRef) :
    after.accepted m = w.accepted m ++ (w.callsIn move).filterMap (acceptance? m) := by
  rw [h.past.accepted, runScript_accepted, h.before.accepted, callsIn]

theorem CallsIn.transfers {w after : World} {move : Move} (h : w.CallsIn move after) :
    after.transfers = w.transfers ++ w.handedIn move := by
  rw [h.past.transfers, List.append_nil, (runScript_aside _ _).1, h.before.transfers]

theorem CallsIn.forwarded {w after : World} {move : Move} (h : w.CallsIn move after) :
    after.noted Entry.forwarded? = w.noted Entry.forwarded? ++ w.handedIn move := by
  have called : ((w.calling move).1.runScript (w.calling move).2).noted Entry.forwarded? =
      (w.calling move).1.noted Entry.forwarded? :=
    (runScript_deeds _ _).noted_eq (fun _ _ => rfl) fun _ _ => rfl
  rw [h.past.forwarded, List.append_nil, called, h.before.forwarded]

theorem CallsIn.extends {w after : World} {move : Move} (h : w.CallsIn move after) : w.Extends after := by
  obtain ⟨transfers, modules, -⟩ := runScript_aside (w.calling move).1 (w.calling move).2
  have called : (w.calling move).1.Extends ((w.calling move).1.runScript (w.calling move).2) :=
    ⟨transfers ▸ List.prefix_rfl, modules ▸ List.prefix_rfl⟩
  exact (h.before.extends.trans called).trans h.past.extends

theorem CallsIn.extends_call {w after : World} {move : Move} (h : w.CallsIn move after) {call : World × Action}
    (member : call ∈ w.callsIn move) : w.Extends call.1 := by
  obtain ⟨transfers, modules⟩ := callsOf_aside member
  exact h.before.extends.trans ⟨transfers ▸ List.prefix_rfl, modules ▸ List.prefix_rfl⟩

/-- Over a run, a module accepts what its calls hand in, in the order of the calls. -/
theorem play_accepted {w last : World} {moves : List Move} (played : w.play? moves = some last) (m : ModuleRef) :
    last.accepted m = w.accepted m ++ (w.calls moves).filterMap (acceptance? m) := by
  induction moves generalizing w with
  | nil =>
    obtain rfl := Option.some.inj played
    exact (List.append_nil _).symm
  | cons move rest ih =>
    obtain ⟨after, moved, through⟩ := play?_cons.1 played
    rw [ih through, (move_callsIn moved).accepted, calls_cons moved, List.filterMap_append, List.append_assoc]

theorem play_extends {w last : World} {moves : List Move} (played : w.play? moves = some last) :
    w.Extends last := by
  induction moves generalizing w with
  | nil => exact Option.some.inj played ▸ .refl w
  | cons move rest ih =>
    obtain ⟨after, moved, through⟩ := play?_cons.1 played
    exact (move_callsIn moved).extends.trans (ih through)

theorem calls_extend {w : World} {moves : List Move} {call : World × Action} (member : call ∈ w.calls moves) :
    w.Extends call.1 := by
  induction moves generalizing w with
  | nil => cases member
  | cons move rest ih =>
    cases moved : w.move? move with
    | none =>
      rw [calls, moved] at member
      cases member
    | some after =>
      rw [calls_cons moved, List.mem_append] at member
      rcases member with now | later
      · exact (move_callsIn moved).extends_call now
      · exact (move_callsIn moved).extends.trans (ih later)

end World

end WirelessCharging
