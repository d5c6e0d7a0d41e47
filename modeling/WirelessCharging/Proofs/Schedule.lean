import WirelessCharging.Proofs.Lifetime
/-!
Two things that hold in every world that can be reached: a dispatcher with something to do is in line, and no
last hook is overdue.
-/
namespace WirelessCharging

def World.InLine (w : World) (m : ModuleRef) : Prop := m ∈ w.ready ∨ m ∈ w.setAside

/-- There is something for the dispatcher to see: its cancellation, or an envelope. -/
def Module.Busy (target : Module) : Prop :=
  target.phase = .running ∧ (target.cancelled = true ∨ target.inbox.queue ≠ [])

def World.Attentive (w : World) : Prop :=
  ∀ m target, w.modules.get? m = some target → target.Busy → w.InLine m

def World.Punctual (w : World) : Prop :=
  ∀ m target wake, w.modules.get? m = some target → target.phase = .closing wake → w.now ≤ wake

namespace World

theorem inLine_wake {w : World} {m : ModuleRef} (waker : ModuleRef) (line : w.InLine m) :
    (w.wake waker).InLine m := by
  unfold wake
  split
  · rcases line with ready | aside
    · exact Or.inl (List.mem_append_left _ ready)
    · exact Or.inr aside
  · exact line

theorem wake_inLine {w : World} {m : ModuleRef} {target : Module} (found : w.modules.get? m = some target)
    (running : target.phase = .running) : (w.wake m).InLine m := by
  unfold wake
  split
  · exact Or.inl (List.mem_append_right _ (List.mem_singleton_self m))
  · rename_i kept
    simp only [found, Option.any_some, running, beq_self_eq_true, Bool.true_and, Bool.and_eq_true,
      Bool.not_eq_true', List.contains_eq_mem, decide_eq_false_iff_not, not_and, Decidable.not_not] at kept
    by_cases ready : m ∈ w.ready
    · exact Or.inl ready
    · exact Or.inr (kept ready)

theorem attentive_wake {w later : World} {m : ModuleRef} {f : Module → Module} (start : w.Attentive)
    (modules : later.modules = w.modules.adjust m f) (ready : later.ready = w.ready)
    (aside : later.setAside = w.setAside) : (later.wake m).Attentive := by
  intro other target found busy
  rw [wake_modules] at found
  rw [modules] at found
  rcases found_adjust found with ⟨rfl, -⟩ | ⟨-, before⟩
  · rw [← modules] at found
    exact wake_inLine found busy.1
  · refine inLine_wake m ?_
    rw [InLine, ready, aside]
    exact start other target before busy

theorem attentive_adjust {w : World} {m : ModuleRef} {f : Module → Module} (start : w.Attentive)
    (idle : ∀ target, w.modules.get? m = some target → (f target).Busy → target.Busy) :
    (w.adjustModule m f).Attentive := by
  intro other target found busy
  rcases found_adjust found with ⟨rfl, before, there, rfl⟩ | ⟨-, before⟩
  · exact start other before there (idle before there busy)
  · exact start other target before busy

end World

variable {move : Move}

theorem Change.attentive {w later : World} (h : Change move w later) (start : w.Attentive) :
    later.Attentive := by
  cases h with
  | deed h =>
    cases h with
    | accept found posted => exact World.attentive_wake start rfl rfl rfl
    | aside => exact start
    | note => exact start
    | lend => exact start
  | hook => exact start
  | hookOver => exact start
  | take found running kept took named =>
    refine World.attentive_adjust start ?_
    intro before there _
    obtain rfl := Option.some.inj (there.symm.trans found)
    refine ⟨running, Or.inr ?_⟩
    rw [Inbox.take?_eq_some.1 took]
    exact List.cons_ne_nil _ _
  | handle => exact World.attentive_adjust start fun _ _ busy => busy
  | close => exact World.attentive_adjust start fun _ _ busy => Phase.noConfusion busy.1
  | finish => exact World.attentive_adjust start fun _ _ busy => Phase.noConfusion busy.1
  | drop => exact World.attentive_adjust start fun _ _ busy => Phase.noConfusion busy.1
  | @build name target fresh runtime known =>
    intro m there found busy
    rw [World.addModule_modules, Roster.get?_add] at found
    rcases Option.or_eq_some_iff.1 found with before | ⟨-, new⟩
    · exact start m there before busy
    · split at new
      · obtain rfl := Option.some.inj new
        have running := busy.1
        rw [fresh.phase] at running
        cases running
      · cases new
  | enrol found idle name named vacant =>
    exact World.attentive_adjust (w := w.register _ _) start fun _ _ busy => Phase.noConfusion busy.1
  | spawn => exact World.attentive_wake start rfl rfl rfl
  | cancel => exact World.attentive_wake start rfl rfl rfl
  | deregister => exact start
  | newRuntime => exact start
  | rename => exact start
  | clock => exact start
  | @yield m rest line nothing =>
    intro other target found busy
    rcases start other target found busy with ready | aside
    · rw [line] at ready
      rcases List.mem_cons.1 ready with rfl | later
      · obtain ⟨kept, empty⟩ := World.idle_of_attend?_none nothing found busy.1
        rcases busy.2 with cancelled | waiting
        · rw [kept] at cancelled
          cases cancelled
        · exact absurd empty waiting
      · left
        rw [World.yield, line]
        exact later
    · exact Or.inr aside
  | setFirstAside =>
    unfold World.setFirstAside
    split
    · exact start
    · rename_i first rest line
      intro m target found busy
      rcases start m target found busy with ready | aside
      · rw [line] at ready
        rcases List.mem_cons.1 ready with rfl | later
        · exact Or.inr List.mem_cons_self
        · exact Or.inl later
      · exact Or.inr (List.mem_cons_of_mem _ aside)
  | rejoin =>
    intro m target found busy
    exact Or.inl (List.mem_append.2 (start m target found busy))
  | clone => exact start
  | letGo => exact start

theorem Change.now {w later : World} (h : Change move w later) :
    later.now = w.now ∨ later.modules = w.modules ∧ later.Punctual := by
  cases h with
  | deed h =>
    cases h with
    | accept => exact Or.inl (World.wake_now _ _)
    | aside => exact Or.inl rfl
    | note => exact Or.inl rfl
    | lend => exact Or.inl rfl
  | spawn => exact Or.inl (World.wake_now _ _)
  | cancel => exact Or.inl (World.wake_now _ _)
  | clock forward none_due => exact Or.inr ⟨rfl, none_due⟩
  | setFirstAside =>
    obtain ⟨ready, aside, same⟩ := w.setFirstAside_eq
    rw [same]
    exact Or.inl rfl
  | _ => exact Or.inl rfl

theorem Change.punctual {w later : World} (h : Change move w later) (start : w.Punctual) : later.Punctual := by
  rcases h.now with now | ⟨-, punctual⟩
  · intro m target wake found closing
    obtain ⟨more, gone, becomes, -, -⟩ := h.affects m
    rw [found] at becomes
    rw [now]
    generalize there : w.modules.get? m = before at becomes
    cases becomes with
    | same => exact start m target wake there closing
    | built fresh runtime known => rw [fresh.phase] at closing; cases closing
    | posted envelope receiving => exact start m _ wake there closing
    | took running kept took named => exact start m _ wake there closing
    | handled before envelope named => exact start m _ wake there closing
    | closed running cancelled later => cases closing; exact later
    | finished ending => cases closing
    | dropped idle => cases closing
    | enrolled idle => cases closing
    | spawned launching => cases closing
    | cancelled before named => exact start m _ wake there closing
  · exact punctual

namespace World

theorem Reachable.attentive {w : World} (reached : w.Reachable) : w.Attentive :=
  Changes.keep Change.attentive reached.changes fun _ _ found => nomatch found

theorem Reachable.punctual {w : World} (reached : w.Reachable) : w.Punctual :=
  Changes.keep Change.punctual reached.changes fun _ _ _ found => nomatch found

end World

end WirelessCharging
