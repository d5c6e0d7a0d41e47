import Mathlib.Data.List.Basic
import WirelessCharging.Proofs.Posting
/-!
What devices are asked for. A device is handed one power transfer for each transfer request that the dispatcher of
its module takes, so what it is handed can be read off the calls that the module has accepted, byte for byte.
Whatever happens later, the answer to a transfer goes to the module that asked for it.
-/
namespace WirelessCharging

/-- The bytes that callers may ask for, of a power and of a duration. -/
def AreTransferBytes (power duration : UInt8) : Prop :=
  (power ≤ 0x14 ∨ 0xF6 ≤ power) ∧ duration ≤ 0x13 ∧ duration &&& 0xC0 = 0

def Action.transferBytes? : Action → Option (UInt8 × UInt8)
  | .transfer _ power duration => some (power, duration)
  | _ => none

def Envelope.transferBytes? : Envelope → Option (UInt8 × UInt8)
  | .request (.transfer power duration) => some (power.raw, duration.raw)
  | _ => none

def Transfer.bytes (transfer : Transfer) : UInt8 × UInt8 := (transfer.power.raw, transfer.duration.raw)

theorem Request.ofTransfer_cases (power duration : UInt8) :
    (AreTransferBytes power duration ∧ ∃ adjustment limit, adjustment.raw = power ∧ limit.raw = duration ∧
        Request.ofTransfer power duration = .ok (.transfer adjustment limit)) ∨
      (¬ AreTransferBytes power duration ∧ ∃ refusal, refusal.kind = .validation ∧
        Request.ofTransfer power duration = .error refusal) := by
  unfold ofTransfer
  by_cases adjusts : power ≤ PowerAdjustment.greatestIncrease ∨ PowerAdjustment.leastDecrease ≤ power
  · by_cases limits : duration ≤ TransferDuration.greatest ∧ duration &&& TransferDuration.reserved = 0
    · left
      refine ⟨⟨adjusts, limits⟩, ⟨power, adjusts⟩, ⟨duration, limits.1, limits.2⟩, rfl, rfl, ?_⟩
      simp only [readPower, PowerAdjustment.ofByte?, dif_pos adjusts, readDuration, TransferDuration.ofByte?,
        dif_pos limits]
      rfl
    · right
      refine ⟨fun both => limits both.2, .invalidDuration duration, rfl, ?_⟩
      simp only [readPower, PowerAdjustment.ofByte?, dif_pos adjusts, readDuration, TransferDuration.ofByte?,
        dif_neg limits]
      rfl
  · right
    refine ⟨fun both => adjusts both.1, .invalidPower power, rfl, ?_⟩
    simp only [readPower, PowerAdjustment.ofByte?, dif_neg adjusts]
    rfl

theorem Request.of_ofStart {raw : UInt8} {request : Request} (made : Request.ofStart raw = .ok request) :
    ∃ mode, request = .start mode := by
  unfold ofStart at made
  cases read : readMode raw with
  | error refusal =>
    rw [read] at made
    cases made
  | ok mode =>
    simp only [read, Except.bind, ofMode] at made
    split at made
    · exact ⟨mode, (Except.ok.inj made).symm⟩
    · cases made

namespace World

theorem submission?_transferBytes? {w : World} {action : Action} {m : ModuleRef} {envelope : Envelope}
    (handed : w.submission? action = some (m, envelope)) : envelope.transferBytes? = action.transferBytes? := by
  cases action with
  | enable name subscriber =>
    cases subscriber with
    | none => cases handed
    | some subscriber =>
      simp only [submission?, addressed?_eq_some] at handed
      obtain ⟨-, posted, made, rfl⟩ := handed
      cases made
      rfl
  | start name mode =>
    simp only [submission?, addressed?_eq_some] at handed
    obtain ⟨-, posted, made, rfl⟩ := handed
    obtain ⟨chosen, rfl⟩ := Request.of_ofStart made
    rfl
  | transfer name power duration =>
    simp only [submission?, addressed?_eq_some] at handed
    obtain ⟨-, posted, made, rfl⟩ := handed
    rcases Request.ofTransfer_cases power duration with
      ⟨-, adjustment, limit, rfl, rfl, same⟩ | ⟨-, refusal, -, same⟩
    · cases made.symm.trans same
      rfl
    · cases made.symm.trans same
  | notify name notification =>
    obtain ⟨receiver, -, same⟩ := Option.map_eq_some_iff.1 handed
    cases same
    rfl
  | reply transfer notification =>
    obtain ⟨issued, -, same⟩ := Option.map_eq_some_iff.1 handed
    cases same
    rfl
  | setDevice name change onTransfer => cases handed
  | subscribe name kind reactions => cases handed
  | release name => cases handed
  | query name runtime id => cases handed

def acceptedCalls (w : World) (m : ModuleRef) (moves : List Move) : List (Action × Envelope) :=
  (w.calls moves).filterMap fun call => (acceptance? m call).map (call.2, ·)

theorem acceptedCalls_envelopes (w : World) (m : ModuleRef) (moves : List Move) :
    (w.acceptedCalls m moves).map (·.2) = (w.calls moves).filterMap (acceptance? m) := by
  rw [acceptedCalls, List.map_filterMap]
  apply List.filterMap_congr
  intro call _
  cases acceptance? m call with
  | none => rfl
  | some envelope => rfl

theorem acceptedCalls_transferBytes? {w : World} {m : ModuleRef} {moves : List Move}
    {call : Action × Envelope} (member : call ∈ w.acceptedCalls m moves) :
    call.2.transferBytes? = call.1.transferBytes? := by
  obtain ⟨made, -, chosen⟩ := List.mem_filterMap.1 member
  obtain ⟨envelope, accepts, rfl⟩ := Option.map_eq_some_iff.1 chosen
  exact submission?_transferBytes? (acceptance?_eq_some.1 accepts).1

/-- The power transfers that a module has asked its device for, in order. -/
def handed (w : World) (m : ModuleRef) : List Transfer := w.transfers.filter (·.issuer = m)

/-- A module has asked its device for what the transfer requests among the envelopes that it has taken say. -/
def PassesOn (w : World) (m : ModuleRef) : Prop :=
  match w.modules.get? m with
  | none => w.handed m = [] ∧ w.taken m = []
  | some target => w.handed m = (w.taken m).filterMap (handing? m target)

theorem passesOn_found {w : World} {m : ModuleRef} {target : Module} (found : w.modules.get? m = some target) :
    w.PassesOn m ↔ w.handed m = (w.taken m).filterMap (handing? m target) := by
  rw [PassesOn, found]

theorem handing?_congr (m : ModuleRef) {target other : Module} (same : other.device = target.device) :
    handing? m other = handing? m target := by
  funext envelope
  cases envelope with
  | notification notification => rfl
  | request request =>
    cases request with
    | enable s => rfl
    | start mode => rfl
    | transfer power duration => rw [handing?, handing?, same]

theorem handing?_issuer {m : ModuleRef} {target : Module} {envelope : Envelope} {transfer : Transfer}
    (asks : handing? m target envelope = some transfer) :
    transfer.issuer = m ∧ transfer.device = target.device ∧ envelope.transferBytes? = some transfer.bytes := by
  unfold handing? at asks
  split at asks
  · cases asks
    exact ⟨rfl, rfl, rfl⟩
  · cases asks

theorem handedIn_attend {w : World} {m : ModuleRef} {target : Module} (found : w.modules.get? m = some target) :
    w.handedIn (.attend m) = ((w.taking? m).toList.map (·.2)).filterMap (handing? m target) := by
  rw [handedIn, found]
  cases w.taking? m with
  | none => rfl
  | some taking =>
    simp only [Option.toList_some, List.map_cons, List.map_nil]
    cases asks : handing? m target taking.2 with
    | none => simp [asks]
    | some transfer => simp [asks]

theorem handedIn_issuer {w : World} {move : Move} {transfer : Transfer} (member : transfer ∈ w.handedIn move) :
    move = .attend transfer.issuer := by
  unfold handedIn at member
  split at member
  · split at member
    · rw [Option.mem_toList] at member
      rw [(handing?_issuer member).1]
    · cases member
  · cases member

/-- What a move has a module ask for is what the envelope says that the module deals with in it. -/
theorem handedIn_meeting {w : World} {m : ModuleRef} {target : Module} (found : w.modules.get? m = some target)
    (move : Move) : (w.handedIn move).filter (·.issuer = m) =
      ((w.meeting? m move).toList.map (·.2)).filterMap (handing? m target) := by
  by_cases own : move = .attend m
  · subst own
    rw [meeting?, if_pos rfl, handedIn_attend found, List.filter_eq_self]
    intro transfer member
    obtain ⟨envelope, -, asks⟩ := List.mem_filterMap.1 member
    exact decide_eq_true (handing?_issuer asks).1
  · have nothing : w.meeting? m move = none := by
      cases move with
      | attend other => exact if_neg fun same => own (congrArg Move.attend same)
      | _ => rfl
    rw [nothing, Option.toList_none, List.map_nil, List.filterMap_nil, List.filter_eq_nil_iff]
    intro transfer member issued
    exact own (of_decide_eq_true issued ▸ handedIn_issuer member)

theorem move_handed {w after : World} {move : Move} (moved : w.move? move = some after) (m : ModuleRef) :
    after.handed m = w.handed m ++ (w.handedIn move).filter (·.issuer = m) := by
  rw [handed, (move_callsIn moved).transfers, List.filter_append]
  rfl

theorem move_taken {w after : World} (numbered : w.modules.Numbered) {move : Move}
    (moved : w.move? move = some after) (m : ModuleRef) :
    after.taken m = w.taken m ++ (w.meeting? m move).toList.map (·.2) := by
  rcases move_meets numbered moved m with ⟨nothing, spares⟩ | ⟨moment, envelope, target, meets, -, -, -, took, -⟩
  · rw [nothing, spares.taken]
    exact (List.append_nil _).symm
  · rw [meets, took]
    rfl

theorem unbuilt_meeting? {w : World} {m : ModuleRef} (missing : w.modules.get? m = none) (move : Move) :
    w.meeting? m move = none := by
  cases move with
  | attend other =>
    simp only [meeting?]
    split
    · rw [taking?, missing]
    · rfl
  | _ => rfl

theorem unbuilt_handedIn {w : World} {m : ModuleRef} (missing : w.modules.get? m = none) (move : Move) :
    (w.handedIn move).filter (·.issuer = m) = [] := by
  rw [List.filter_eq_nil_iff]
  intro transfer member issued
  obtain rfl := of_decide_eq_true issued
  obtain rfl := handedIn_issuer member
  rw [handedIn, missing] at member
  cases member

theorem move_passesOn {w after : World} (numbered : w.modules.Numbered) {move : Move}
    (moved : w.move? move = some after) {m : ModuleRef} (start : w.PassesOn m) : after.PassesOn m := by
  have handed := move_handed moved m
  have taken := move_taken numbered moved m
  cases there : w.modules.get? m with
  | none =>
    -- it may be built now, but it has taken nothing yet
    rw [PassesOn, there] at start
    rw [unbuilt_handedIn there, start.1] at handed
    rw [unbuilt_meeting? there, start.2] at taken
    unfold PassesOn
    split
    · exact ⟨handed, taken⟩
    · rw [handed, taken]
      rfl
  | some target =>
    obtain ⟨last, here, lasts⟩ := Changes.lasts (move_changes numbered moved).changes there
    rw [passesOn_found there] at start
    rw [passesOn_found here, handing?_congr m lasts.device, handed, taken, handedIn_meeting there, start,
      List.filterMap_append]

theorem play_passesOn {w last : World} (numbered : w.modules.Numbered) {moves : List Move}
    (played : w.play? moves = some last) {m : ModuleRef} (start : w.PassesOn m) : last.PassesOn m := by
  induction moves generalizing w with
  | nil => exact Option.some.inj played ▸ start
  | cons move rest ih =>
    obtain ⟨after, moved, through⟩ := play?_cons.1 played
    exact ih (move_numbered numbered moved) through (move_passesOn numbered moved start)

theorem play_forwarded {w last : World} {moves : List Move} (played : w.play? moves = some last)
    (start : w.noted Entry.forwarded? = w.transfers) : last.noted Entry.forwarded? = last.transfers := by
  induction moves generalizing w with
  | nil => exact Option.some.inj played ▸ start
  | cons move rest ih =>
    obtain ⟨after, moved, through⟩ := play?_cons.1 played
    refine ih through ?_
    rw [(move_callsIn moved).forwarded, (move_callsIn moved).transfers, start]

end World

/-- An answer to a transfer is one post on the inbox of one module. -/
structure World.Answers (w : World) (transfer : Nat) (m : ModuleRef) : Prop where
  attempt : ∃ target, w.modules.get? m = some target ∧ ∀ notification,
    (∃ inbox, target.inbox.post (.notification notification) = .ok inbox ∧
      (w.perform (.reply transfer notification)).2 = .ok ∧
      (w.perform (.reply transfer notification)).1.modules.get? m = some (target.withInbox inbox)) ∨
    ∃ refusal, target.inbox.post (.notification notification) = .error refusal ∧
      w.perform (.reply transfer notification) = (w, .refused refusal)
  others : ∀ notification other, other ≠ m →
    (w.perform (.reply transfer notification)).1.modules.get? other = w.modules.get? other

namespace World

theorem submit_found {w : World} {m : ModuleRef} {target : Module} (found : w.modules.get? m = some target)
    (envelope : Envelope) :
    (∃ inbox, target.inbox.post envelope = .ok inbox ∧ (w.submit m envelope).2 = .ok ∧
      (w.submit m envelope).1.modules.get? m = some (target.withInbox inbox)) ∨
    ∃ refusal, target.inbox.post envelope = .error refusal ∧ w.submit m envelope = (w, .refused refusal) := by
  unfold submit
  simp only [found]
  cases target.inbox.post envelope with
  | error refusal => exact Or.inr ⟨refusal, rfl, rfl⟩
  | ok inbox =>
    refine Or.inl ⟨inbox, rfl, rfl, ?_⟩
    simp [record, setInbox, adjustModule, found]

theorem submit_others (w : World) (m : ModuleRef) (envelope : Envelope) {other : ModuleRef} (different : other ≠ m) :
    (w.submit m envelope).1.modules.get? other = w.modules.get? other := by
  unfold submit
  split
  · rfl
  · split
    · rfl
    · simp [record, setInbox, adjustModule, Roster.get?_adjust_of_ne _ _ different]

/-- A transfer that a device has been handed is answered to its issuer, in whatever world that comes later. -/
theorem Extends.answers {w later : World} (h : w.Extends later) {n : Nat} {transfer : Transfer}
    (there : w.transfers[n]? = some transfer) {target : Module}
    (found : w.modules.get? transfer.issuer = some target) : later.Answers n transfer.issuer := by
  have still : later.transfers[n]? = some transfer := by
    obtain ⟨more, same⟩ := h.transfers
    rw [← same, List.getElem?_append_left (List.getElem?_eq_some_iff.1 there).1, there]
  have posts : ∀ notification, later.perform (.reply n notification) =
      later.submit transfer.issuer (.notification notification) := by
    intro notification
    simp only [perform, reply, still]
  obtain ⟨last, here⟩ : ∃ last, later.modules.get? transfer.issuer = some last :=
    Roster.get?_of_mem_keys (h.modules.subset (Roster.mem_keys_of_get? found))
  constructor
  case attempt =>
    refine ⟨last, here, ?_⟩
    intro notification
    rw [posts]
    exact submit_found here _
  case others =>
    intro notification other different
    rw [posts]
    exact later.submit_others _ _ different

/-- The calls whose envelopes a dispatcher has taken come first among those that its module has accepted. -/
theorem acceptedCalls_taken {moves : List Move} {w : World} (played : ({} : World).play? moves = some w)
    (m : ModuleRef) : ∃ dealt waiting, ({} : World).acceptedCalls m moves = dealt ++ waiting ∧
      dealt.map (·.2) = w.taken m := by
  have accepted : w.accepted m = (({} : World).acceptedCalls m moves).map (·.2) := by
    rw [acceptedCalls_envelopes, play_accepted played m]
    rfl
  have conserved := World.Occurs.conserved (Reachable.changes ⟨moves, played⟩) m
  have first : w.taken m <+: w.accepted m := by
    cases there : w.modules.get? m with
    | none =>
      rw [there] at conserved
      rw [conserved.2]
      exact List.nil_prefix
    | some target =>
      rw [there] at conserved
      exact conserved.first
  refine ⟨_, _, (List.take_append_drop (w.taken m).length _).symm, ?_⟩
  rw [List.map_take, ← accepted]
  exact (List.prefix_iff_eq_take.1 first).symm

theorem PassesOn.bytes {w : World} {m : ModuleRef} (h : w.PassesOn m) :
    (w.handed m).map Transfer.bytes = (w.taken m).filterMap Envelope.transferBytes? := by
  unfold PassesOn at h
  split at h
  · rw [h.1, h.2]
    rfl
  · rename_i target _
    rw [h, List.map_filterMap]
    apply List.filterMap_congr
    intro envelope _
    cases envelope with
    | notification notification => rfl
    | request request => cases request <;> rfl

theorem PassesOn.device {w : World} {m : ModuleRef} (h : w.PassesOn m) {transfer : Transfer}
    (member : transfer ∈ w.handed m) :
    ∃ target, w.modules.get? m = some target ∧ transfer.device = target.device := by
  unfold PassesOn at h
  split at h
  · rw [h.1] at member
    cases member
  · rename_i target found
    rw [h] at member
    obtain ⟨envelope, -, asks⟩ := List.mem_filterMap.1 member
    exact ⟨target, found, (handing?_issuer asks).2.1⟩

/-- Over every run, what a module hands to its device, as observers see it too, is what the calls that it has
accepted and its dispatcher has dealt with ask for, in order and with the same bytes. No bytes out of range are
handed over, and a call with such bytes changes nothing. At any later time, in the middle of a move or between
two, the answer to a transfer is one post on the inbox of its issuer, whatever else has its name by then. -/
theorem transfers_follow_accepted_calls {moves : List Move} {w : World}
    (played : ({} : World).play? moves = some w) (m : ModuleRef) :
    w.noted Entry.forwarded? = w.transfers ∧
      (∃ dealt waiting, ({} : World).acceptedCalls m moves = dealt ++ waiting ∧
        dealt.map (·.2) = w.taken m ∧
        (w.handed m).map Transfer.bytes = dealt.filterMap (·.1.transferBytes?)) ∧
      (∀ transfer ∈ w.handed m, AreTransferBytes transfer.power.raw transfer.duration.raw ∧
        ∃ target, w.modules.get? m = some target ∧ transfer.device = target.device) ∧
      (∀ power duration, ¬ AreTransferBytes power duration → ∃ refusal, refusal.kind = .validation ∧
        ∀ name, w.perform (.transfer name power duration) = (w, .refused refusal)) ∧
      ∀ n transfer more, w.transfers[n]? = some transfer →
        (∀ later, w.play? more = some later → later.Answers n transfer.issuer) ∧
        ∀ call ∈ w.calls more, call.1.Answers n transfer.issuer := by
  have passes : ∀ other, w.PassesOn other := fun other => play_passesOn numbered_empty played ⟨rfl, rfl⟩
  refine ⟨play_forwarded played rfl, ?_, ?_, ?_, ?_⟩
  · obtain ⟨dealt, waiting, all, taken⟩ := acceptedCalls_taken played m
    refine ⟨dealt, waiting, all, taken, ?_⟩
    rw [(passes m).bytes, ← taken, List.filterMap_map]
    apply List.filterMap_congr
    intro call member
    apply acceptedCalls_transferBytes?
    rw [all]
    exact List.mem_append_left _ member
  · intro transfer member
    constructor
    · exact ⟨transfer.power.in_range, transfer.duration.in_range, transfer.duration.reserved_clear⟩
    · exact (passes m).device member
  · intro power duration out
    rcases Request.ofTransfer_cases power duration with ⟨good, -⟩ | ⟨-, refusal, kind, refused⟩
    · exact absurd good out
    · refine ⟨refusal, kind, ?_⟩
      intro name
      rw [perform, refused, World.request]
  · intro n transfer more there
    have member : transfer ∈ w.handed transfer.issuer :=
      List.mem_filter.2 ⟨List.mem_of_getElem? there, decide_eq_true rfl⟩
    obtain ⟨target, found, -⟩ := (passes transfer.issuer).device member
    constructor
    · intro later through
      exact (play_extends through).answers there found
    · intro call later
      exact (calls_extend later).answers there found

/-- Two transfers and one that is turned down, and then a second module of the same name. -/
def twoTransfers : List Move :=
  [.build ⟨"a", "r", "d", some {}, []⟩, .enrol "a", .spawn ⟨"a", 0⟩, .act (.transfer "a" 5 10),
    .act (.transfer "a" 0x20 10), .act (.transfer "a" 0xF6 0x13), .attend ⟨"a", 0⟩, .attend ⟨"a", 0⟩,
    .build ⟨"a", "r", "d", some {}, []⟩]

theorem transfers_after_a_namesake : ∃ w : World, ({} : World).play? twoTransfers = some w ∧
    (w.handed ⟨"a", 0⟩).map Transfer.bytes = [(5, 10), (0xF6, 0x13)] ∧
    (∃ dealt waiting, ({} : World).acceptedCalls ⟨"a", 0⟩ twoTransfers = dealt ++ waiting ∧
      (w.handed ⟨"a", 0⟩).map Transfer.bytes = dealt.filterMap (·.1.transferBytes?)) ∧
    w.Answers 1 ⟨"a", 0⟩ := by
  obtain ⟨w, played⟩ := Option.isSome_iff_exists.1 (by decide : (({} : World).play? twoTransfers).isSome = true)
  have handed : (({} : World).play? twoTransfers).map (fun w => (w.handed ⟨"a", 0⟩).map Transfer.bytes) =
    some [(5, 10), (0xF6, 0x13)] := by decide
  have second : (({} : World).play? twoTransfers).map (·.transfers[1]?.map (·.issuer)) =
    some (some ⟨"a", 0⟩) := by decide
  rw [played] at handed second
  obtain ⟨transfer, there, issued⟩ := Option.map_eq_some_iff.1 (Option.some.inj second)
  obtain ⟨-, ⟨dealt, waiting, all, -, same⟩, -, -, answered⟩ :=
    transfers_follow_accepted_calls played ⟨"a", 0⟩
  refine ⟨w, played, Option.some.inj handed, ⟨dealt, waiting, all, same⟩, ?_⟩
  exact issued ▸ (answered 1 transfer [] there).1 w rfl

end World

end WirelessCharging
