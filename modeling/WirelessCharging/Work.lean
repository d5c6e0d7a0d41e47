import WirelessCharging.Dispatch
/-!
A bound on the work that dispatchers have before them, under which letting them run comes to an end. An
envelope that waits counts two, a post that a script may still make counts four, a dispatcher counts one until
it closes down and one more while it is in line or set aside: so a post pays for its envelope and for waking a
dispatcher, and whatever a dispatcher does leaves less to do.
-/
namespace WirelessCharging

/-- What a dispatcher has before it besides its inbox: closing down, with the last hook. -/
def Module.ahead (target : Module) : Nat :=
  if target.phase = .running then
    1 + 4 * scriptPosts ((target.hook? .afterStop).map (·.script) |>.getD [])
  else 0

def Module.work (target : Module) : Nat := 2 * target.inbox.queue.length + target.ahead

theorem Module.work_withInbox (target : Module) (inbox : Inbox) :
    (target.withInbox inbox).work = 2 * inbox.queue.length + target.ahead := rfl

def Device.work (device : Device) : Nat := 4 * scriptsPosts device.onTransfer

def Subscriber.work (subscriber : Subscriber) : Nat := 4 * reactionsPosts subscriber.reactions

namespace World

def work (w : World) : Nat :=
  w.modules.total Module.work + w.devices.total Device.work + w.subscribers.total Subscriber.work +
    w.ready.length + w.setAside.length

@[simp] theorem work_record (w : World) (entry : Entry) : (w.record entry).work = w.work := rfl

@[simp] theorem work_grant (w : World) (m : ModuleRef) (holder : Holder) : (w.grant m holder).work = w.work := rfl

@[simp] theorem work_withdraw (w : World) (m : ModuleRef) (holder : Holder) :
    (w.withdraw m holder).work = w.work := rfl

theorem work_adjustModule (w : World) (m : ModuleRef) (f : Module → Module) {target : Module}
    (found : w.modules.get? m = some target) :
    (w.adjustModule m f).work + target.work = w.work + (f target).work := by
  have := w.modules.total_adjust m f Module.work found
  simp only [work, adjustModule]
  omega

theorem work_adjustDevice (w : World) (name : String) (f : Device → Device) {device : Device}
    (found : w.devices.get? name = some device) :
    (w.adjustDevice name f).work + device.work = w.work + (f device).work := by
  have := w.devices.total_adjust name f Device.work found
  simp only [work, adjustDevice]
  omega

theorem work_adjustSubscriber (w : World) (s : SubscriberRef) (f : Subscriber → Subscriber)
    {subscriber : Subscriber} (found : w.subscribers.get? s = some subscriber) :
    (w.adjustSubscriber s f).work + subscriber.work = w.work + (f subscriber).work := by
  have := w.subscribers.total_adjust s f Subscriber.work found
  simp only [work, adjustSubscriber]
  omega

theorem work_wake_le (w : World) (m : ModuleRef) : (w.wake m).work ≤ w.work + 1 := by
  unfold wake
  split
  · simp only [work, List.length_append, List.length_cons, List.length_nil]
    omega
  · omega

theorem work_submit_le (w : World) (m : ModuleRef) (envelope : Envelope) :
    (w.submit m envelope).1.work ≤ w.work + 3 := by
  unfold submit
  split
  · dsimp only; omega
  · rename_i target found
    split
    · dsimp only; omega
    · rename_i inbox posted
      have grown := w.work_adjustModule m (·.withInbox inbox) found
      have woken := ((w.setInbox m inbox).record (.accepted m envelope)).work_wake_le m
      have length := target.inbox.length_post posted
      have heavier := target.work_withInbox inbox
      have before : target.work = 2 * target.inbox.queue.length + target.ahead := rfl
      simp only [work_record, setInbox] at woken ⊢
      omega

theorem work_submitTo_le (w : World) (name : String) (envelope : Envelope) :
    (w.submitTo name envelope).1.work ≤ w.work + 3 := by
  unfold submitTo
  split
  · dsimp only; omega
  · exact w.work_submit_le _ _

theorem work_request_le (w : World) (name : String) (request : Except Refusal Request) :
    (w.request name request).1.work ≤ w.work + 3 := by
  cases request with
  | error refusal => simp only [World.request]; omega
  | ok request => exact w.work_submitTo_le _ _

theorem work_reply_le (w : World) (transfer : Nat) (notification : Notification) :
    (w.reply transfer notification).1.work ≤ w.work + 3 := by
  unfold reply
  split
  · dsimp only; omega
  · exact w.work_submit_le _ _

theorem work_letGo (w : World) (name : String) : (w.letGo name).work = w.work := by
  unfold letGo
  split
  · rfl
  · rename_i s _
    cases found : w.subscribers.get? s with
    | none => simp [adjustSubscriber, Roster.adjust_of_get?_none _ _ _ found]
    | some subscriber =>
      have changed :=
        w.work_adjustSubscriber s (fun subscriber => { subscriber with held := false }) found
      have same : ({ subscriber with held := false } : Subscriber).work = subscriber.work := rfl
      omega

theorem work_addSubscriber (w : World) (name : String) (subscriber : Subscriber) :
    (w.addSubscriber name subscriber).work = w.work + subscriber.work := by
  simp only [work, addSubscriber, Roster.total_add]
  omega

theorem work_ensureSubscriber (w : World) (name : String) :
    (w.ensureSubscriber name).1.work = w.work := by
  unfold ensureSubscriber
  split
  · rfl
  · simp [work_addSubscriber, Subscriber.work, reactionsPosts]

theorem work_ensureDevice (w : World) (name : String) : (w.ensureDevice name).work = w.work := by
  unfold ensureDevice
  split
  · rfl
  · simp [work, Roster.total_add, Device.work, Device.fresh, scriptsPosts]

theorem work_setDevice_le (w : World) (name : String) (change : ReadingsChange)
    (onTransfer : Option (List Script)) :
    ((w.ensureDevice name).adjustDevice name (·.changed change onTransfer)).work ≤
      w.work + 4 * (Action.setDevice name change onTransfer).posts := by
  have ensured := w.work_ensureDevice name
  cases found : (w.ensureDevice name).devices.get? name with
  | none =>
    rw [adjustDevice, Roster.adjust_of_get?_none _ _ _ found]
    exact Nat.le_trans (Nat.le_of_eq ensured) (Nat.le_add_right _ _)
  | some device =>
    have changed := (w.ensureDevice name).work_adjustDevice name (·.changed change onTransfer) found
    cases onTransfer with
    | none =>
      simp only [Device.work, Device.changed, Option.getD_none] at changed ⊢
      omega
    | some scripts =>
      simp only [Device.work, Device.changed, Option.getD_some, Action.posts] at changed ⊢
      omega

/-- An action pays for what it sets off out of the posts that its script still had to make. -/
theorem work_perform_le (w : World) (action : Action) :
    (w.perform action).1.work ≤ w.work + 4 * action.posts := by
  cases action with
  | enable name subscriber =>
    cases subscriber with
    | none => simp only [perform, World.request, Request.ofEnable]; omega
    | some subscriber =>
      have ensured := w.work_ensureSubscriber subscriber
      have requested := (w.ensureSubscriber subscriber).1.work_request_le name
        (Request.ofEnable (some (w.ensureSubscriber subscriber).2))
      simp only [perform, Action.posts]
      omega
  | start name mode =>
    have := w.work_request_le name (Request.ofStart mode)
    simp only [perform, Action.posts]
    omega
  | transfer name power duration =>
    have := w.work_request_le name (Request.ofTransfer power duration)
    simp only [perform, Action.posts]
    omega
  | notify name notification =>
    have := w.work_submitTo_le name (.notification notification)
    simp only [perform, Action.posts]
    omega
  | reply transfer notification =>
    have := w.work_reply_le transfer notification
    simp only [perform, Action.posts]
    omega
  | setDevice name change onTransfer => exact w.work_setDevice_le name change onTransfer
  | subscribe name kind reactions =>
    simp only [perform, work_addSubscriber, work_letGo, Subscriber.work, Action.posts]
    omega
  | release name =>
    simp only [perform, work_letGo]
    omega
  | query name runtime id =>
    simp only [perform]
    omega

theorem work_runScript_le (w : World) (script : Script) :
    (w.runScript script).work ≤ w.work + 4 * scriptPosts script := by
  induction script generalizing w with
  | nil => simp only [runScript]; omega
  | cons action rest ih =>
    have performed := w.work_perform_le action
    have ran := ih ((w.perform action).1.record (.acted action (w.perform action).2))
    simp only [work_record] at ran
    simp only [runScript, scriptPosts]
    omega

theorem work_deliver_le (w : World) (m : ModuleRef) (s : SubscriberRef) (event : Event) :
    (w.deliver m s event).work ≤ w.work := by
  unfold deliver
  dsimp only
  split
  · exact Nat.le_of_eq (work_record _ _)
  · rename_i subscriber found
    split
    · split
      · exact Nat.le_of_eq (work_record _ _)
      · rename_i script others taken
        have changed := (w.record (.delivered m s event)).work_adjustSubscriber s
          (fun subscriber => { subscriber with reactions := others }) found
        have ran := ((w.record (.delivered m s event)).adjustSubscriber s
          fun subscriber => { subscriber with reactions := others }).work_runScript_le script
        have posts := takeReaction_posts taken
        simp only [Subscriber.work, work_record] at changed ran
        omega
    · exact Nat.le_of_eq (work_record _ _)

theorem work_deliverHolding_le (w : World) (m : ModuleRef) (s : SubscriberRef) (event : Event) :
    (w.deliverHolding m s event).work ≤ w.work :=
  work_deliver_le { w with inHand := [s] } m s event

theorem work_report_le (w : World) (m : ModuleRef) (event : Event) :
    (w.report m event).work ≤ w.work := by
  unfold report
  split
  · exact w.work_deliverHolding_le _ _ _
  · exact Nat.le_of_eq (work_record _ _)

theorem work_setContext (w : World) (m : ModuleRef) (context : Context) :
    (w.setContext m context).work = w.work := by
  cases found : w.modules.get? m with
  | none => rw [setContext, adjustModule, Roster.adjust_of_get?_none _ _ _ found]
  | some target =>
    have changed := w.work_adjustModule m (·.withContext context) found
    have same : (target.withContext context).work = target.work := rfl
    simp only [setContext]
    omega

theorem work_dispatch_le (w : World) (m : ModuleRef) (target : Module) (envelope : Envelope) :
    (w.dispatch m target envelope).work ≤ w.work := by
  cases envelope with
  | notification notification => exact w.work_report_le _ _
  | request request =>
    cases request with
    | enable s =>
      simp only [dispatch, dispatchEnable]
      split
      · exact Nat.le_trans (work_deliverHolding_le _ _ _ _)
          (Nat.le_of_eq (w.work_setContext m _))
      · exact w.work_deliverHolding_le _ _ _
    | start mode =>
      simp only [dispatch, dispatchStart]
      split
      · exact Nat.le_of_eq (work_record _ _)
      · exact Nat.le_trans (work_report_le _ _ _)
          (Nat.le_of_eq (w.work_setContext m _))
    | transfer power duration =>
      simp only [dispatch, dispatchTransfer]
      split
      · exact Nat.le_of_eq (work_record _ _)
      · rename_i device found
        split
        · exact Nat.le_of_eq (work_record _ _)
        · rename_i script rest scripts
          refine Nat.le_trans (work_runScript_le _ _) ?_
          have changed := work_adjustDevice _ target.device
            (fun device => { device with onTransfer := rest }) found
          simp only [Device.work, scripts, scriptsPosts, work_record, work_grant] at changed
          have same : ({ w with transfers := w.transfers ++
            [{ issuer := m, device := target.device, power, duration }] } : World).work = w.work := rfl
          omega

theorem work_callHook_le (w : World) (m : ModuleRef) (target : Module) (kind : HookKind) :
    (w.callHook m target kind).work ≤
      w.work + 4 * scriptPosts ((target.hook? kind).map (·.script) |>.getD []) := by
  unfold callHook
  split
  · omega
  · rename_i hook found
    have ran := (w.record (.hookCalled m kind hook.tag target.context
      (w.hasSubscriber target.context))).work_runScript_le hook.script
    simp only [work_record] at ran
    simp only [found, Option.map_some, Option.getD_some]
    omega

theorem work_finish_le (w : World) (m : ModuleRef) : (w.finish m).work ≤ w.work := by
  cases found : w.modules.get? m with
  | none => simp [finish, adjustModule, Roster.adjust_of_get?_none _ _ _ found]
  | some target =>
    have changed := w.work_adjustModule m (·.ended .finished) found
    have none_left : (target.ended .finished).work = 0 := by
      simp [Module.work, Module.ahead, Module.ended, Inbox.discard]
    simp only [finish, work_withdraw]
    omega

theorem work_closeDown_lt (w : World) (m : ModuleRef) {target : Module}
    (found : w.modules.get? m = some target) (running : target.phase = .running) :
    (w.closeDown m target).work < w.work := by
  have changed :=
    w.work_adjustModule m (·.closingUntil (w.now + target.delay .afterStop)) found
  have called := work_callHook_le ((w.adjustModule m
    (·.closingUntil (w.now + target.delay .afterStop))).record (.closed m)) m target .afterStop
  have before : target.work = 2 * target.inbox.queue.length +
      (1 + 4 * scriptPosts ((target.hook? .afterStop).map (·.script) |>.getD [])) := by
    simp [Module.work, Module.ahead, running]
  have left : (target.closingUntil (w.now + target.delay .afterStop)).work =
      2 * target.inbox.queue.length := by
    simp [Module.work, Module.ahead, Module.closingUntil, Inbox.close]
  simp only [work_record] at called
  unfold closeDown
  dsimp only
  split
  · exact Nat.lt_of_le_of_lt (work_finish_le _ _) (by omega)
  · omega

theorem work_attend_lt {w after : World} {m : ModuleRef} (h : w.attend? m = some after) :
    after.work < w.work := by
  unfold attend? at h
  split at h
  · simp at h
  · rename_i target found
    split at h
    · simp at h
    · rename_i running
      simp only [ne_eq, Decidable.not_not] at running
      split at h
      · simp only [Option.some.injEq] at h
        exact h ▸ w.work_closeDown_lt m found running
      · split at h
        · simp at h
        · rename_i envelope inbox took
          simp only [Option.some.injEq] at h
          have changed := w.work_adjustModule m (·.withInbox inbox) found
          have length := target.inbox.length_take took
          have dispatched := work_dispatch_le ((w.setInbox m inbox).record (.taken m envelope))
            m target envelope
          have lighter := target.work_withInbox inbox
          have before : target.work = 2 * target.inbox.queue.length + target.ahead := rfl
          simp only [work_record, setInbox] at dispatched
          subst h
          simp only [setInbox]
          omega

end World

end WirelessCharging
