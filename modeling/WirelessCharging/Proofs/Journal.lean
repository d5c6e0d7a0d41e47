import WirelessCharging.World
/-!
What the journal tells of one module, the earliest first: the envelopes whose submission it answered with
ok, the envelopes that its dispatcher has taken, and the events that it has delivered, each with its subscriber.
-/
namespace WirelessCharging

namespace Entry

def acceptedBy? (m : ModuleRef) : Entry → Option Envelope
  | .accepted target envelope => if target = m then some envelope else none
  | _ => none

def takenBy? (m : ModuleRef) : Entry → Option Envelope
  | .taken target envelope => if target = m then some envelope else none
  | _ => none

def deliveredBy? (m : ModuleRef) : Entry → Option (SubscriberRef × Event)
  | .delivered source subscriber event => if source = m then some (subscriber, event) else none
  | _ => none

end Entry

namespace World

def noted {α : Type} (w : World) (reading? : Entry → Option α) : List α :=
  (w.journal.filterMap reading?).reverse

def accepted (w : World) (m : ModuleRef) : List Envelope := w.noted (Entry.acceptedBy? m)

def taken (w : World) (m : ModuleRef) : List Envelope := w.noted (Entry.takenBy? m)

def deliveries (w : World) (m : ModuleRef) : List (SubscriberRef × Event) :=
  w.noted (Entry.deliveredBy? m)

theorem noted_cons {α : Type} {w later : World} {entry : Entry} (reading? : Entry → Option α)
    (recorded : later.journal = entry :: w.journal) :
    later.noted reading? = w.noted reading? ++ (reading? entry).toList := by
  cases h : reading? entry <;> simp [noted, recorded, h]

theorem accepted_cons {w later : World} {m : ModuleRef} {envelope : Envelope}
    (recorded : later.journal = .accepted m envelope :: w.journal) (other : ModuleRef) :
    later.accepted other = w.accepted other ++ if other = m then [envelope] else [] := by
  rw [accepted, noted_cons _ recorded, Entry.acceptedBy?]
  by_cases same : other = m
  · rw [if_pos same, if_pos same.symm]
    rfl
  · rw [if_neg same, if_neg fun e => same e.symm]
    rfl

theorem taken_cons {w later : World} {m : ModuleRef} {envelope : Envelope}
    (recorded : later.journal = .taken m envelope :: w.journal) (other : ModuleRef) :
    later.taken other = w.taken other ++ if other = m then [envelope] else [] := by
  rw [taken, noted_cons _ recorded, Entry.takenBy?]
  by_cases same : other = m
  · rw [if_pos same, if_pos same.symm]
    rfl
  · rw [if_neg same, if_neg fun e => same e.symm]
    rfl

theorem noted_congr {α : Type} {w later : World} (reading? : Entry → Option α)
    (same : later.journal = w.journal) : later.noted reading? = w.noted reading? := by
  rw [noted, same, noted]

theorem noted_of_none {α : Type} {w later : World} {entry : Entry} {reading? : Entry → Option α}
    (recorded : later.journal = entry :: w.journal) (nothing : reading? entry = none) :
    later.noted reading? = w.noted reading? := by
  simp [noted_cons reading? recorded, nothing]

end World

end WirelessCharging
