import Mathlib.Data.List.DropRight
import Mathlib.Data.Nat.Basic

/-
  Windows on a list that grows at its end: its last `n`
  elements, whether they are cut out of the whole list or kept
  as the elements come in.

  Key definitions include:
    * `push`
    * `enqueue`

  The main results are `push_rtake`: the window of what has come
  in so far, after one more, is the window of all of it; and
  `push_eq_self_iff`: an element leaves a window as it was
  exactly if the window is full of it.
-/

------------------------------------------------------------
-- The Last Elements
------------------------------------------------------------

namespace Window

variable {α : Type} {m n : ℕ} {l w : List α} {x : α}

/- A window of at most `n`, after one more element. -/
def push (n : ℕ) (w : List α) (x : α) : List α :=
  (w ++ [x]).rtake n

/- A queue that drops its first element once it has `cap`. -/
def enqueue (cap : ℕ) (q : List α) (x : α) : List α :=
  (if cap ≤ q.length then q.tail else q) ++ [x]

theorem length_rtake (n : ℕ) (l : List α) :
    (l.rtake n).length = min n l.length := by
  unfold List.rtake
  rw [List.length_drop]
  omega

theorem rtake_of_length_le
    (hLe : l.length ≤ n) :
    l.rtake n = l := by
  unfold List.rtake
  rw [Nat.sub_eq_zero_of_le hLe, List.drop_zero]

theorem rtake_eq_self_iff :
    l.rtake n = l ↔ l.length ≤ n := by
  constructor
  · intro hSame
    have hLength := length_rtake n l
    rw [hSame] at hLength
    omega
  · exact rtake_of_length_le

theorem rtake_rtake
    (hLe : n ≤ m)
    (l : List α) :
    (l.rtake m).rtake n = l.rtake n := by
  rw [List.rtake_eq_reverse_take_reverse,
    List.rtake_eq_reverse_take_reverse, List.reverse_reverse,
    List.take_take, Nat.min_eq_left hLe,
    List.rtake_eq_reverse_take_reverse]

/- What has left the window is not missed. -/
theorem push_rtake (l : List α) (x : α) :
    push n (l.rtake n) x = (l ++ [x]).rtake n := by
  unfold push
  cases n with
  | zero => rw [List.rtake_zero, List.rtake_zero]
  | succ n =>
      rw [List.rtake_concat_succ, List.rtake_concat_succ,
        rtake_rtake (Nat.le_succ n)]

theorem length_push_le : (push n w x).length ≤ n := by
  unfold push
  rw [length_rtake]
  exact Nat.min_le_left _ _

/- A list that moves up by one and is the same has one element. -/
theorem append_eq_cons_iff
    {y : α} :
    w ++ [x] = y :: w ↔ y = x ∧ w = List.replicate w.length x := by
  induction w generalizing y with
  | nil => simp [eq_comm]
  | cons z w ih =>
      rw [List.cons_append, List.cons.injEq, ih, List.length_cons,
        List.replicate_succ, List.cons.injEq]
      constructor
      · rintro ⟨rfl, rfl, hRest⟩
        exact ⟨rfl, rfl, hRest⟩
      · rintro ⟨rfl, rfl, hRest⟩
        exact ⟨rfl, rfl, hRest⟩

/- A window stays as it was only if it is full of what comes. -/
theorem push_eq_self_iff
    (hLe : w.length ≤ n) :
    push n w x = w ↔ w = List.replicate n x := by
  cases n with
  | zero =>
      rw [List.length_eq_zero_iff.mp (Nat.le_zero.mp hLe)]
      simp [push]
  | succ n =>
      unfold push
      rw [List.rtake_concat_succ]
      by_cases hFull : w.length ≤ n
      · rw [rtake_of_length_le hFull]
        refine iff_of_false (fun hSame => ?_) (fun hSame => ?_)
        · simpa using congrArg List.length hSame
        · rw [hSame, List.length_replicate] at hFull
          omega
      · cases w with
        | nil => exact absurd (Nat.zero_le n) hFull
        | cons y w =>
            have hLength : w.length = n := by
              rw [List.length_cons] at hLe hFull
              omega
            have hTail : (y :: w).rtake n = w := by
              unfold List.rtake
              rw [List.length_cons, hLength, Nat.add_sub_cancel_left]
              rfl
            rw [hTail, append_eq_cons_iff, hLength, List.replicate_succ,
              List.cons.injEq]

------------------------------------------------------------
-- Queues
------------------------------------------------------------

section Queues

variable {cap : ℕ} {q : List α}

/- A queue is a window, of one element at least. -/
theorem enqueue_eq_push
    (hLe : q.length ≤ max cap 1) :
    enqueue cap q x = push (max cap 1) q x := by
  unfold enqueue push
  split
  · rename_i hFull
    cases q with
    | nil =>
        rw [rtake_of_length_le (le_max_right cap 1)]
        rfl
    | cons y q =>
        have hLength : q.length + 1 = max cap 1 := by
          rw [List.length_cons] at hLe hFull
          omega
        rw [← hLength, List.rtake_concat_succ, List.rtake,
          List.length_cons, Nat.add_sub_cancel_left]
        rfl
  · rename_i hRoom
    rw [rtake_of_length_le]
    rw [List.length_append, List.length_singleton]
    omega

theorem length_enqueue_le
    (hLe : q.length ≤ max cap 1) :
    (enqueue cap q x).length ≤ max cap 1 := by
  rw [enqueue_eq_push hLe]
  exact length_push_le

/- What fits into an empty queue is what it holds. -/
theorem foldl_enqueue
    (hLe : l.length ≤ max cap 1) :
    l.foldl (enqueue cap) [] = l := by
  induction l using List.reverseRecOn with
  | nil => rfl
  | append_singleton l x ih =>
      rw [List.length_append, List.length_singleton] at hLe
      have hBefore : l.length ≤ max cap 1 := by omega
      rw [List.foldl_append, ih hBefore, List.foldl_cons, List.foldl_nil,
        enqueue_eq_push hBefore, push, rtake_of_length_le]
      rwa [List.length_append, List.length_singleton]

end Queues

end Window
