import Pumpy.Numeric.Window

/-
  A broadcast channel of a fixed capacity: every value is meant
  for every receiver.  The channel holds the last values that
  were sent; a receiver which has not kept up is told how many
  it has missed, and goes on with the oldest value that is held.

  Key definitions include:
    * `Broadcast`
    * `Broadcast.send`
    * `Broadcast.recv`
    * `Retains`
    * `Follows`

  The main results are about what a receiver has got:
  `Follows.sublist`, that it is in order and nothing else;
  `Follows.exact`, that it is everything, where nothing was
  missed; and `Follows.recent`, that what is missed is never
  among the last values sent.
-/

------------------------------------------------------------
-- Channels
------------------------------------------------------------

namespace Interleaving

/- What a receiver gets: a value, or how many it has missed. -/
inductive Received (α : Type) where
  | value (x : α) : Received α
  | lagged (missed : ℕ) : Received α
deriving DecidableEq

/- How many values were sent, and those that are held. -/
structure Broadcast (α : Type) where
  capacity : ℕ
  sent : ℕ
  held : List α
deriving DecidableEq

namespace Broadcast

variable {α : Type}

def start (capacity : ℕ) : Broadcast α where
  capacity := capacity
  sent := 0
  held := []

def send (b : Broadcast α) (x : α) : Broadcast α where
  capacity := b.capacity
  sent := b.sent + 1
  held := Window.push b.capacity b.held x

/- The number of the oldest value that is held. -/
def oldest (b : Broadcast α) : ℕ :=
  b.sent - b.held.length

/-
  What is there for a receiver that waits for value number
  `next`, and the number it waits for after that.  It has to go
  on waiting where there is nothing.
-/
def recv
    (b : Broadcast α)
    (next : ℕ) : Option (Received α × ℕ) :=
  if next < b.oldest then
    some (.lagged (b.oldest - next), b.oldest)
  else
    (b.held[next - b.oldest]?).map fun x => (.value x, next + 1)

/- The channel holds the last of the values sent so far. -/
structure Retains (b : Broadcast α) (log : List α) : Prop where
  sent : b.sent = log.length
  held : b.held = log.rtake b.capacity

section Retains

variable {b : Broadcast α} {log : List α} {next next' : ℕ}
variable {r : Received α}

theorem retains_start (capacity : ℕ) :
    Retains (start capacity : Broadcast α) [] where
  sent := rfl
  held := by
    rw [Window.rtake_of_length_le (Nat.zero_le _)]
    rfl

theorem Retains.send
    (hRetains : Retains b log)
    (x : α) :
    Retains (b.send x) (log ++ [x]) where
  sent := by
    rw [List.length_append, List.length_singleton, ← hRetains.sent]
    rfl
  held := by
    change Window.push b.capacity b.held x = _
    rw [hRetains.held, Window.push_rtake]
    rfl

theorem Retains.oldest
    (hRetains : Retains b log) :
    b.oldest = log.length - b.capacity := by
  unfold Broadcast.oldest
  rw [hRetains.sent, hRetains.held, Window.length_rtake]
  omega

theorem Retains.getElem_held
    (hRetains : Retains b log)
    (hNext : b.oldest ≤ next) :
    b.held[next - b.oldest]? = log[next]? := by
  have hOldest := hRetains.oldest
  rw [hRetains.held, List.rtake, List.getElem?_drop]
  congr 1
  omega

/- A receiver either gets its value or has missed some. -/
theorem recv_cases
    (hRetains : Retains b log)
    (hRecv : b.recv next = some (r, next')) :
    (∃ x,
        r = .value x ∧
          log[next]? = some x ∧
            next' = next + 1 ∧ log.length ≤ next + b.capacity) ∨
      ∃ k,
        r = .lagged k ∧
          next' = next + k ∧
            next' + b.capacity = log.length ∧ 0 < k := by
  have hOldest := hRetains.oldest
  unfold recv at hRecv
  split at hRecv
  · rename_i hBehind
    right
    cases hRecv
    exact ⟨_, rfl, by omega, by omega, by omega⟩
  · rename_i hHeld
    left
    rw [hRetains.getElem_held (Nat.le_of_not_lt hHeld)] at hRecv
    rcases Option.map_eq_some_iff.mp hRecv with ⟨x, hAt, hSame⟩
    cases hSame
    exact ⟨x, rfl, hAt, rfl, by omega⟩

/- There is nothing exactly for a receiver that has caught up. -/
theorem recv_eq_none_iff
    (hRetains : Retains b log)
    (hNext : next ≤ log.length) :
    b.recv next = none ↔ next = log.length := by
  have hOldest := hRetains.oldest
  unfold recv
  split
  · rename_i hBehind
    exact iff_of_false (by simp) (by omega)
  · rename_i hHeld
    rw [hRetains.getElem_held (Nat.le_of_not_lt hHeld),
      Option.map_eq_none_iff, List.getElem?_eq_none_iff]
    omega

end Retains

end Broadcast

------------------------------------------------------------
-- Receivers
------------------------------------------------------------

namespace Received

variable {α : Type}

def value? : Received α → Option α
  | value x => some x
  | lagged _ => none

def missed : Received α → ℕ
  | value _ => 0
  | lagged k => k

/- The values among what was received. -/
def values (rs : List (Received α)) : List α :=
  rs.filterMap value?

/- How many values were missed altogether. -/
def lost (rs : List (Received α)) : ℕ :=
  rs.foldl (fun n r => n + r.missed) 0

variable {rs : List (Received α)} {x : α} {k : ℕ}

@[simp] theorem values_concat_value :
    values (rs ++ [.value x]) = values rs ++ [x] :=
  List.filterMap_append

@[simp] theorem values_concat_lagged :
    values (rs ++ [.lagged k]) = values rs := by
  rw [values, List.filterMap_append]
  exact List.append_nil _

@[simp] theorem lost_concat (r : Received α) :
    lost (rs ++ [r]) = lost rs + r.missed := by
  simp [lost]

end Received

/-
  A receiver that waited for value number `first` has received
  `rs` since and waits for value number `next`.  When it was
  told that it had missed values, the channel had been filled
  since.
-/
inductive Follows
    {α : Type}
    (capacity : ℕ)
    (log : List α)
    (first : ℕ) : List (Received α) → ℕ → Prop where
  | nil : Follows capacity log first [] first
  | value
      {rs : List (Received α)} {next : ℕ} {x : α}
      (h : Follows capacity log first rs next)
      (hAt : log[next]? = some x) :
      Follows capacity log first (rs ++ [.value x]) (next + 1)
  | lagged
      {rs : List (Received α)} {next k : ℕ}
      (h : Follows capacity log first rs next)
      (hFull : next + k + capacity ≤ log.length) :
      Follows capacity log first (rs ++ [.lagged k]) (next + k)

namespace Follows

open Received

variable {α : Type} {capacity first next next' : ℕ}
variable {log more : List α} {rs : List (Received α)}
variable {r : Received α}

/- What is sent later does not change what was received. -/
theorem later
    (hFollows : Follows capacity log first rs next)
    (more : List α) :
    Follows capacity (log ++ more) first rs next := by
  induction hFollows with
  | nil => exact .nil
  | value h hAt ih =>
      refine ih.value ?_
      have hInside := (List.getElem?_eq_some_iff.mp hAt).1
      rw [List.getElem?_append_left hInside]
      exact hAt
  | lagged h hFull ih =>
      refine ih.lagged ?_
      rw [List.length_append]
      omega

theorem recv
    {b : Broadcast α}
    (hFollows : Follows b.capacity log first rs next)
    (hRetains : b.Retains log)
    (hRecv : b.recv next = some (r, next')) :
    Follows b.capacity log first (rs ++ [r]) next' := by
  rcases Broadcast.recv_cases hRetains hRecv with
    ⟨x, rfl, hAt, rfl, _⟩ | ⟨k, rfl, rfl, hFull, _⟩
  · exact hFollows.value hAt
  · exact hFollows.lagged hFull.le

theorem first_le
    (hFollows : Follows capacity log first rs next) :
    first ≤ next := by
  induction hFollows with
  | nil => exact le_refl _
  | value h hAt ih => omega
  | lagged h hFull ih => omega

theorem next_le
    (hFollows : Follows capacity log first rs next)
    (hFirst : first ≤ log.length) :
    next ≤ log.length := by
  induction hFollows with
  | nil => exact hFirst
  | value h hAt ih =>
      exact (List.getElem?_eq_some_iff.mp hAt).1
  | lagged h hFull ih => omega

/- A stretch of a list, and the element that comes after it. -/
theorem drop_take_succ
    {l : List α} {m n : ℕ} {x : α}
    (hLe : m ≤ n)
    (hAt : l[n]? = some x) :
    (l.take (n + 1)).drop m = (l.take n).drop m ++ [x] := by
  have hInside := (List.getElem?_eq_some_iff.mp hAt).1
  rw [List.take_add_one, hAt, Option.toList_some,
    List.drop_append_of_le_length]
  rw [List.length_take]
  omega

/- Every value is received or missed. -/
theorem length_values
    (hFollows : Follows capacity log first rs next) :
    first + (values rs).length + lost rs = next := by
  induction hFollows with
  | nil => rfl
  | value h hAt ih =>
      rw [values_concat_value, lost_concat, List.length_append,
        List.length_singleton, Received.missed]
      omega
  | lagged h hFull ih =>
      rw [values_concat_lagged, lost_concat, Received.missed]
      omega

/- Values are received in order, and no other ones. -/
theorem sublist
    (hFollows : Follows capacity log first rs next) :
    (values rs).Sublist ((log.take next).drop first) := by
  induction hFollows with
  | nil => exact List.nil_sublist _
  | @value rs next x h hAt ih =>
      rw [values_concat_value, drop_take_succ h.first_le hAt]
      exact ih.append (List.Sublist.refl _)
  | @lagged rs next k h hFull ih =>
      rw [values_concat_lagged]
      refine ih.trans ((List.Sublist.drop ?_ first))
      exact (List.take_prefix_take_left
        (Nat.le_add_right next k)).sublist

/- Where none was missed, every value was received. -/
theorem exact
    (hFollows : Follows capacity log first rs next)
    (hNone : lost rs = 0)
    (hFirst : first ≤ log.length) :
    values rs = (log.take next).drop first := by
  refine hFollows.sublist.eq_of_length ?_
  have hLength := hFollows.length_values
  have hNext := hFollows.next_le hFirst
  rw [List.length_drop, List.length_take]
  omega

/- The values that could be held by now were not missed. -/
theorem recent
    (hFollows : Follows capacity log first rs next) :
    (log.take next).drop (max first (log.length - capacity)) <:+
      values rs := by
  induction hFollows with
  | nil =>
      rw [List.drop_eq_nil_of_le]
      · exact List.nil_suffix
      · rw [List.length_take]
        omega
  | @value rs next x h hAt ih =>
      rw [values_concat_value]
      by_cases hLe : max first (log.length - capacity) ≤ next
      · rcases ih with ⟨older, hOlder⟩
        refine ⟨older, ?_⟩
        rw [drop_take_succ hLe hAt, ← List.append_assoc, hOlder]
      · rw [List.drop_eq_nil_of_le]
        · exact List.nil_suffix
        · rw [List.length_take]
          omega
  | @lagged rs next k h hFull ih =>
      rw [List.drop_eq_nil_of_le]
      · exact List.nil_suffix
      · rw [List.length_take]
        omega

end Follows

end Interleaving
