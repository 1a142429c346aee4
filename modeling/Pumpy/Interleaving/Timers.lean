import Mathlib.Data.List.Basic

/-
  The timers of an event loop.  A timer is armed for a moment
  and fires once, at that moment or later, unless it is cleared
  before; clearing one that is not armed does nothing.

  Key definitions include:
    * `Timers`
    * `Timers.arm`
    * `Timers.clear`
    * `Timers.fire`
-/

------------------------------------------------------------
-- Timers
------------------------------------------------------------

namespace Interleaving

structure Timer where
  id : ℕ
  due : ℕ
deriving DecidableEq

/- The clock, the timers that are armed, the next identifier. -/
structure Timers where
  now : ℕ
  armed : List Timer
  next : ℕ
deriving DecidableEq

namespace Timers

def start (now : ℕ) : Timers where
  now := now
  armed := []
  next := 0

def advance (ts : Timers) (delay : ℕ) : Timers :=
  { ts with now := ts.now + delay }

def arm (ts : Timers) (delay : ℕ) : ℕ × Timers :=
  (ts.next,
    { ts with
      armed := ts.armed ++ [⟨ts.next, ts.now + delay⟩]
      next := ts.next + 1 })

def clear (ts : Timers) (id : ℕ) : Timers :=
  { ts with armed := ts.armed.filter fun t => t.id ≠ id }

/- A timer that is due may fire; it is not armed any more. -/
def fire (ts : Timers) (id : ℕ) : Option Timers :=
  if ts.armed.any fun t => t.id = id ∧ t.due ≤ ts.now then
    some (ts.clear id)
  else
    none

section Armed

variable {ts ts' : Timers} {t : Timer} {id : ℕ}

theorem mem_clear :
    t ∈ (ts.clear id).armed ↔ t ∈ ts.armed ∧ t.id ≠ id := by
  unfold clear
  rw [List.mem_filter, decide_eq_true_iff]

/- What fires has been armed, and due. -/
theorem fire_cases
    (hFire : ts.fire id = some ts') :
    (∃ t ∈ ts.armed, t.id = id ∧ t.due ≤ ts.now) ∧
      ts' = ts.clear id := by
  unfold fire at hFire
  split at hFire
  · rename_i hAny
    rcases List.any_eq_true.mp hAny with ⟨t, hMem, hDue⟩
    exact ⟨⟨t, hMem, of_decide_eq_true hDue⟩, (Option.some.inj hFire).symm⟩
  · cases hFire

/- Clearing the only timer there is leaves none. -/
theorem armed_clear_of_only
    (hOnly : ∀ t ∈ ts.armed, t.id = id) :
    (ts.clear id).armed = [] := by
  rw [List.eq_nil_iff_forall_not_mem]
  intro t hMem
  rcases mem_clear.mp hMem with ⟨hArmed, hOther⟩
  exact hOther (hOnly t hArmed)

end Armed

end Timers

end Interleaving
