import WirelessCharging.Turn
/-!
Letting the dispatchers run while the clock stands still. They take turns in rounds. After a round those that
were set aside get in line again, the last one first, and whoever waits for a dispatcher sees what has become
of it. There are rounds until no dispatcher is in line.
-/
namespace WirelessCharging

def turnsInRound : Nat := 61

namespace World

def round (w : World) : Nat → World
  | 0 => w
  | left + 1 =>
    match w.ready with
    | [] => w
    | m :: _ => (w.turn m envelopesInTurn).round left

def rejoin (w : World) : World := { w with ready := w.ready ++ w.setAside, setAside := [] }

theorem work_round_le (w : World) (left : Nat) : (w.round left).work ≤ w.work := by
  induction left generalizing w with
  | zero => exact Nat.le_refl _
  | succ left ih =>
    unfold round
    split
    · exact Nat.le_refl _
    · exact Nat.le_trans (ih _) (work_turn_le _ _ _)

theorem work_round_lt {w : World} (h : w.ready ≠ []) {left : Nat} (some_left : left ≠ 0) :
    (w.round left).work < w.work := by
  unfold round
  split
  · exact absurd rfl some_left
  · split
    · exact absurd ‹w.ready = []› h
    · exact Nat.lt_of_le_of_lt (work_round_le _ _) (work_turn_lt ‹_› (by decide))

theorem work_rejoin (w : World) : w.rejoin.work = w.work := by
  simp only [work, rejoin, List.length_append, List.length_nil]
  omega

/-- Rounds until no dispatcher is in line, or until what is waited for is seen between two rounds. -/
def runUntil (w : World) (seen : World → Bool) : World :=
  if _line : w.rejoin.ready = [] then w.rejoin
  else if seen w.rejoin then w.rejoin
  else (w.rejoin.round turnsInRound).runUntil seen
termination_by w.work
decreasing_by exact w.work_rejoin ▸ work_round_lt _line (by decide)

def settle (w : World) : World := w.runUntil fun _ => false

theorem setAside_runUntil (w : World) (seen : World → Bool) : (w.runUntil seen).setAside = [] := by
  fun_induction runUntil w seen with
  | case1 => rfl
  | case2 => rfl
  | case3 w line unseen ih => exact ih

/-- Either no dispatcher is in line in the end, or what was waited for has been seen. -/
theorem ready_runUntil (w : World) (seen : World → Bool) :
    (w.runUntil seen).ready = [] ∨ seen (w.runUntil seen) = true := by
  fun_induction runUntil w seen with
  | case1 w line => exact Or.inl line
  | case2 w line found => exact Or.inr found
  | case3 w line unseen ih => exact ih

theorem ready_settle (w : World) : w.settle.ready = [] :=
  (w.ready_runUntil fun _ => false).resolve_right Bool.false_ne_true

end World

end WirelessCharging
