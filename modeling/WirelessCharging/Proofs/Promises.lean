import WirelessCharging.Proofs.Posting
/-!
What scripts may still post. A reaction, the answer of a device and a last hook are each used once, so every
envelope that is accepted while dispatchers run has been promised by one of them beforehand: what has been accepted
and what is still promised are together no more after a callback than before it, and a script adds no more than the
posts that it makes or installs.
-/
namespace WirelessCharging

namespace Entry

def acceptance? : Entry → Option (ModuleRef × Envelope)
  | .accepted target envelope => some (target, envelope)
  | _ => none

def taking? : Entry → Option (ModuleRef × Envelope)
  | .taken target envelope => some (target, envelope)
  | _ => none

end Entry

def Device.promises (device : Device) : Nat := scriptsPosts device.onTransfer

def Subscriber.promises (subscriber : Subscriber) : Nat := reactionsPosts subscriber.reactions

namespace World

def acceptances (w : World) : Nat := (w.noted Entry.acceptance?).length

def takings (w : World) : Nat := (w.noted Entry.taking?).length

/-- How many posts the callbacks of devices and subscribers may still make. -/
def promised (w : World) : Nat := w.devices.total Device.promises + w.subscribers.total Subscriber.promises

/-- What has been accepted, and what may still be posted. -/
def ledger (w : World) : Nat := w.acceptances + w.promised

theorem acceptances_cons {w later : World} {m : ModuleRef} {envelope : Envelope}
    (recorded : later.journal = .accepted m envelope :: w.journal) : later.acceptances = w.acceptances + 1 := by
  rw [acceptances, noted_cons Entry.acceptance? recorded, List.length_append]
  rfl

theorem acceptances_of_none {w later : World} {entry : Entry} (recorded : later.journal = entry :: w.journal)
    (other : entry.acceptance? = none) : later.acceptances = w.acceptances := by
  rw [acceptances, noted_of_none recorded other, acceptances]

theorem takings_cons {w later : World} {m : ModuleRef} {envelope : Envelope}
    (recorded : later.journal = .taken m envelope :: w.journal) : later.takings = w.takings + 1 := by
  rw [takings, noted_cons Entry.taking? recorded, List.length_append]
  rfl

theorem takings_of_none {w later : World} {entry : Entry} (recorded : later.journal = entry :: w.journal)
    (other : entry.taking? = none) : later.takings = w.takings := by
  rw [takings, noted_of_none recorded other, takings]

theorem ledger_record (w : World) {entry : Entry} (other : entry.acceptance? = none) :
    (w.record entry).ledger = w.ledger := by
  rw [ledger, acceptances_of_none (w := w) rfl other]
  rfl

theorem ledger_accept (w : World) (m : ModuleRef) (envelope : Envelope) :
    (w.record (.accepted m envelope)).ledger = w.ledger + 1 := by
  have one_more : (w.record (.accepted m envelope)).acceptances = w.acceptances + 1 := acceptances_cons rfl
  have same : (w.record (.accepted m envelope)).promised = w.promised := rfl
  rw [ledger, one_more, same, ledger]
  omega

theorem ledger_wake (w : World) (m : ModuleRef) : (w.wake m).ledger = w.ledger := by
  unfold wake
  split <;> rfl

theorem ledger_submit_le (w : World) (m : ModuleRef) (envelope : Envelope) :
    (w.submit m envelope).1.ledger ≤ w.ledger + 1 := by
  unfold submit
  split
  · exact Nat.le_succ _
  · split
    · exact Nat.le_succ _
    · rename_i inbox _
      rw [ledger_wake, ledger_accept]
      exact Nat.le_refl _

theorem ledger_submitTo_le (w : World) (name : String) (envelope : Envelope) :
    (w.submitTo name envelope).1.ledger ≤ w.ledger + 1 := by
  unfold submitTo
  split
  · exact Nat.le_succ _
  · exact w.ledger_submit_le _ _

theorem ledger_request_le (w : World) (name : String) (request : Except Refusal Request) :
    (w.request name request).1.ledger ≤ w.ledger + 1 := by
  cases request with
  | error refusal => exact Nat.le_succ _
  | ok request => exact w.ledger_submitTo_le _ _

theorem ledger_reply_le (w : World) (transfer : Nat) (notification : Notification) :
    (w.reply transfer notification).1.ledger ≤ w.ledger + 1 := by
  unfold reply
  split
  · exact Nat.le_succ _
  · exact w.ledger_submit_le _ _

theorem ledger_adjustDevice (w : World) (name : String) (f : Device → Device) {device : Device}
    (found : w.devices.get? name = some device) :
    (w.adjustDevice name f).ledger + device.promises = w.ledger + (f device).promises := by
  have changed := w.devices.total_adjust name f Device.promises found
  have same : (w.adjustDevice name f).acceptances = w.acceptances := rfl
  have promises : (w.adjustDevice name f).promised =
      (w.devices.adjust name f).total Device.promises + w.subscribers.total Subscriber.promises := rfl
  rw [ledger, same, promises, ledger, promised]
  omega

theorem ledger_adjustSubscriber (w : World) (s : SubscriberRef) (f : Subscriber → Subscriber)
    {subscriber : Subscriber} (found : w.subscribers.get? s = some subscriber) :
    (w.adjustSubscriber s f).ledger + subscriber.promises = w.ledger + (f subscriber).promises := by
  have changed := w.subscribers.total_adjust s f Subscriber.promises found
  have same : (w.adjustSubscriber s f).acceptances = w.acceptances := rfl
  have promises : (w.adjustSubscriber s f).promised =
      w.devices.total Device.promises + (w.subscribers.adjust s f).total Subscriber.promises := rfl
  rw [ledger, same, promises, ledger, promised]
  omega

theorem ledger_letGo (w : World) (name : String) : (w.letGo name).ledger = w.ledger := by
  unfold letGo
  split
  · rfl
  · rename_i s _
    cases found : w.subscribers.get? s with
    | none => rw [adjustSubscriber, Roster.adjust_of_get?_none _ _ _ found]
    | some subscriber =>
      have changed := w.ledger_adjustSubscriber s (fun subscriber => { subscriber with held := false }) found
      have same : ({ subscriber with held := false } : Subscriber).promises = subscriber.promises := rfl
      omega

theorem ledger_addSubscriber (w : World) (name : String) (subscriber : Subscriber) :
    (w.addSubscriber name subscriber).ledger = w.ledger + subscriber.promises := by
  have same : (w.addSubscriber name subscriber).acceptances = w.acceptances := rfl
  have promises : (w.addSubscriber name subscriber).promised = w.devices.total Device.promises +
      (w.subscribers.add (w.subscribers.nextRef name) subscriber).total Subscriber.promises := rfl
  rw [ledger, same, promises, Roster.total_add, ledger, promised]
  omega

theorem ledger_ensureSubscriber (w : World) (name : String) : (w.ensureSubscriber name).1.ledger = w.ledger := by
  unfold ensureSubscriber
  split
  · rfl
  · exact w.ledger_addSubscriber name {}

theorem ledger_ensureDevice (w : World) (name : String) : (w.ensureDevice name).ledger = w.ledger := by
  unfold ensureDevice
  split
  · rfl
  · simp only [ledger, promised, Roster.total_add]
    rfl

theorem ledger_setDevice_le (w : World) (name : String) (change : ReadingsChange) (onTransfer : Option (List Script)) :
    ((w.ensureDevice name).adjustDevice name (·.changed change onTransfer)).ledger ≤
      w.ledger + (Action.setDevice name change onTransfer).posts := by
  have ensured := w.ledger_ensureDevice name
  cases found : (w.ensureDevice name).devices.get? name with
  | none =>
    rw [adjustDevice, Roster.adjust_of_get?_none _ _ _ found]
    exact Nat.le_trans (Nat.le_of_eq ensured) (Nat.le_add_right _ _)
  | some device =>
    have changed := (w.ensureDevice name).ledger_adjustDevice name (·.changed change onTransfer) found
    cases onTransfer with
    | none =>
      have same : (device.changed change none).promises = device.promises := rfl
      omega
    | some scripts =>
      have installed : (device.changed change (some scripts)).promises = scriptsPosts scripts := rfl
      have posts : (Action.setDevice name change (some scripts)).posts = scriptsPosts scripts := by
        simp only [Action.posts]
      omega

theorem ledger_perform_le (w : World) (action : Action) : (w.perform action).1.ledger ≤ w.ledger + action.posts := by
  cases action with
  | enable name subscriber =>
    simp only [Action.posts]
    cases subscriber with
    | none => exact w.ledger_request_le name _
    | some subscriber =>
      have requested := (w.ensureSubscriber subscriber).1.ledger_request_le name
        (Request.ofEnable (some (w.ensureSubscriber subscriber).2))
      rw [ledger_ensureSubscriber] at requested
      exact requested
  | start name mode =>
    simp only [Action.posts]
    exact w.ledger_request_le name _
  | transfer name power duration =>
    simp only [Action.posts]
    exact w.ledger_request_le name _
  | notify name notification =>
    simp only [Action.posts]
    exact w.ledger_submitTo_le name _
  | reply transfer notification =>
    simp only [Action.posts]
    exact w.ledger_reply_le transfer notification
  | setDevice name change onTransfer => exact w.ledger_setDevice_le name change onTransfer
  | subscribe name kind reactions =>
    simp only [perform, ledger_addSubscriber, ledger_letGo, Action.posts]
    exact Nat.le_refl _
  | release name =>
    simp only [perform, ledger_letGo]
    exact Nat.le_add_right _ _
  | query name runtime id => exact Nat.le_add_right _ _

theorem ledger_runScript_le (w : World) (script : Script) :
    (w.runScript script).ledger ≤ w.ledger + scriptPosts script := by
  induction script generalizing w with
  | nil => exact Nat.le_add_right _ _
  | cons action rest ih =>
    have performed := w.ledger_perform_le action
    have ran := ih ((w.perform action).1.record (.acted action (w.perform action).2))
    rw [ledger_record _ rfl] at ran
    simp only [runScript, scriptPosts]
    omega

theorem ledger_callback (w : World) (m : ModuleRef) (s : SubscriberRef) (event : Event) :
    (w.callback m s event).1.ledger + scriptPosts (w.callback m s event).2 = w.ledger := by
  have told : (w.record (.delivered m s event)).ledger = w.ledger := w.ledger_record rfl
  unfold callback
  dsimp only
  split
  · exact told
  · rename_i subscriber found
    split
    · split
      · exact told
      · rename_i script others taken
        have changed := (w.record (.delivered m s event)).ledger_adjustSubscriber s
          (fun subscriber => { subscriber with reactions := others }) found
        have before : subscriber.promises = scriptPosts script + reactionsPosts others := takeReaction_posts taken
        have left : ({ subscriber with reactions := others } : Subscriber).promises = reactionsPosts others := rfl
        dsimp only
        omega
    · exact told

theorem ledger_reporting (w : World) (m : ModuleRef) (event : Event) :
    (w.reporting m event).1.ledger + scriptPosts (w.reporting m event).2 = w.ledger := by
  unfold reporting
  split
  · rename_i s _
    exact ledger_callback { w with inHand := [s] } m s event
  · exact w.ledger_record rfl

theorem ledger_transferring (w : World) (transfer : Transfer) :
    (w.transferring transfer).1.ledger + scriptPosts (w.transferring transfer).2 = w.ledger := by
  have handed : (w.handOver transfer).ledger = w.ledger :=
    ledger_record { w with transfers := w.transfers ++ [transfer] } rfl
  unfold transferring
  split
  · exact handed
  · rename_i device found
    split
    · exact handed
    · rename_i script rest scripts
      have changed := (w.handOver transfer).ledger_adjustDevice transfer.device
        (fun device => { device with onTransfer := rest }) found
      have before : device.promises = scriptPosts script + scriptsPosts rest := by
        rw [Device.promises, scripts, scriptsPosts]
      have left : ({ device with onTransfer := rest } : Device).promises = scriptsPosts rest := rfl
      dsimp only
      omega

theorem ledger_dispatching (w : World) (m : ModuleRef) (target : Module) (envelope : Envelope) :
    (w.dispatching m target envelope).1.ledger + scriptPosts (w.dispatching m target envelope).2 = w.ledger := by
  cases envelope with
  | notification notification => exact w.ledger_reporting m _
  | request request =>
    cases request with
    | enable s =>
      simp only [dispatching]
      split
      · exact ledger_callback { w.setContext m (target.context.enabledFor s) with inHand := [s] } m s _
      · exact ledger_callback { w with inHand := [s] } m s _
    | start mode =>
      simp only [dispatching]
      split
      · exact w.ledger_record rfl
      · exact ledger_reporting (w.setContext m (target.context.startedIn mode)) m _
    | transfer power duration => exact w.ledger_transferring _

/-- An envelope that is dealt with uses up promises for all that is posted meanwhile. -/
theorem ledger_dispatch_le (w : World) (m : ModuleRef) (target : Module) (envelope : Envelope) :
    (w.dispatch m target envelope).ledger ≤ w.ledger := by
  obtain ⟨inHand, same⟩ := w.dispatch_eq m target envelope
  have promised := w.ledger_dispatching m target envelope
  have ran := (w.dispatching m target envelope).1.ledger_runScript_le (w.dispatching m target envelope).2
  rw [same]
  calc ((w.dispatching m target envelope).1.runScript (w.dispatching m target envelope).2).ledger
      ≤ (w.dispatching m target envelope).1.ledger + scriptPosts (w.dispatching m target envelope).2 := ran
    _ = w.ledger := promised

end World

def Module.hookPosts (target : Module) (kind : HookKind) : Nat :=
  scriptPosts (((target.hook? kind).map (·.script)).getD [])

namespace World

theorem ledger_callHook_le (w : World) (m : ModuleRef) (target : Module) (kind : HookKind) :
    (w.callHook m target kind).ledger ≤ w.ledger + target.hookPosts kind := by
  unfold callHook
  split
  · exact Nat.le_add_right _ _
  · rename_i hook found
    have ran := (w.record (.hookCalled m kind hook.tag target.context
      (w.hasSubscriber target.context))).ledger_runScript_le hook.script
    rw [ledger_record _ rfl] at ran
    simp only [Module.hookPosts, found, Option.map_some, Option.getD_some]
    exact ran

theorem ledger_closeDown_le (w : World) (m : ModuleRef) (target : Module) :
    (w.closeDown m target).ledger ≤ w.ledger + target.hookPosts .afterStop := by
  let closing := w.adjustModule m (·.closingUntil (w.now + target.delay .afterStop))
  have closed : (closing.record (.closed m)).ledger = w.ledger := closing.ledger_record rfl
  have called := (closing.record (.closed m)).ledger_callHook_le m target .afterStop
  rw [closed] at called
  unfold closeDown
  dsimp only
  split
  · exact called
  · exact called

end World

end WirelessCharging
