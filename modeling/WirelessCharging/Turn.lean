import WirelessCharging.Work
/-!
Turns. The dispatcher that is first in line goes on until it has to wait, or until it has taken as many
envelopes as one turn allows. It is then set aside, even if its inbox has just become empty, for the others in
line come first. A turn leaves less work.
-/
namespace WirelessCharging

def envelopesInTurn : Nat := 128

namespace World

/-- The first dispatcher in line has to wait and leaves the line. -/
def yield (w : World) : World := { w with ready := w.ready.tail }

/-- The first dispatcher in line has used up its turn. -/
def setFirstAside (w : World) : World :=
  match w.ready with
  | [] => w
  | m :: rest => { w with ready := rest, setAside := m :: w.setAside }

def turn (w : World) (m : ModuleRef) : Nat → World
  | 0 => w.setFirstAside
  | left + 1 =>
    match w.attend? m with
    | none => w.yield
    | some after => after.turn m left

theorem work_yield_le (w : World) : w.yield.work ≤ w.work := by
  simp only [work, yield, List.length_tail]
  omega

theorem work_yield_lt {w : World} {m : ModuleRef} {rest : List ModuleRef} (h : w.ready = m :: rest) :
    w.yield.work < w.work := by
  simp only [work, yield, h, List.tail_cons, List.length_cons]
  omega

theorem work_setFirstAside (w : World) : w.setFirstAside.work = w.work := by
  unfold setFirstAside
  split
  · rfl
  · rename_i m rest line
    simp only [work, line, List.length_cons]
    omega

theorem work_turn_le (w : World) (m : ModuleRef) (left : Nat) : (w.turn m left).work ≤ w.work := by
  induction left generalizing w with
  | zero => exact Nat.le_of_eq w.work_setFirstAside
  | succ left ih =>
    unfold turn
    split
    · exact w.work_yield_le
    · rename_i after attended
      exact Nat.le_trans (ih after) (Nat.le_of_lt (work_attend_lt attended))

theorem work_turn_lt {w : World} {m : ModuleRef} {rest : List ModuleRef} (h : w.ready = m :: rest)
    {left : Nat} (some_left : left ≠ 0) : (w.turn m left).work < w.work := by
  unfold turn
  split
  · exact absurd rfl some_left
  · split
    · exact work_yield_lt h
    · rename_i after attended
      exact Nat.lt_of_le_of_lt (work_turn_le after m _) (work_attend_lt attended)

end World

end WirelessCharging
