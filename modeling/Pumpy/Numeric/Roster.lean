import Mathlib.Data.List.Nodup
import Pumpy.Numeric.Window

/-
  Rosters: at most `n` keys, in the order in which they came.  A
  key that is there already stays where it is; where there is no
  room for a new one, the key that came first leaves.

  Key definitions include:
    * `enrol`
    * `roster`
    * `Overtaken`

  The main result is `mem_roster_or_overtaken`: a key is on the
  roster unless `n` others have come after it.
-/

------------------------------------------------------------
-- Enrolment
------------------------------------------------------------

namespace Roster

variable {κ : Type} [DecidableEq κ]
variable {n : ℕ} {ks w : List κ} {k x : κ}

/- The roster once the key has come. -/
def enrol
    (n : ℕ)
    (w : List κ)
    (k : κ) : List κ :=
  if k ∈ w then w else Window.push n w k

/- The roster once all of the keys have come, one by one. -/
def roster (n : ℕ) (ks : List κ) : List κ :=
  ks.foldl (enrol n) []

theorem roster_concat :
    roster n (ks ++ [k]) = enrol n (roster n ks) k := by
  rw [roster, List.foldl_append]
  rfl

omit [DecidableEq κ] in
theorem nodup_concat
    (hOnce : w.Nodup)
    (hNew : k ∉ w) :
    (w ++ [k]).Nodup := by
  rw [List.nodup_append]
  refine ⟨hOnce, List.nodup_singleton k, ?_⟩
  rintro x hMem y hY rfl
  rw [List.mem_singleton.mp hY] at hMem
  exact hNew hMem

theorem nodup_roster (n : ℕ) (ks : List κ) :
    (roster n ks).Nodup := by
  induction ks using List.reverseRecOn with
  | nil => exact List.nodup_nil
  | append_singleton ks k ih =>
      rw [roster_concat, enrol]
      split
      · exact ih
      · rename_i hNew
        exact (nodup_concat ih hNew).sublist (List.drop_sublist _ _)

theorem length_roster_le (n : ℕ) (ks : List κ) :
    (roster n ks).length ≤ n := by
  induction ks using List.reverseRecOn with
  | nil => exact Nat.zero_le n
  | append_singleton ks k ih =>
      rw [roster_concat, enrol]
      split
      · exact ih
      · exact Window.length_push_le

theorem mem_of_mem_roster
    (hMem : k ∈ roster n ks) :
    k ∈ ks := by
  induction ks using List.reverseRecOn with
  | nil => exact hMem
  | append_singleton ks x ih =>
      rw [roster_concat, enrol] at hMem
      split at hMem
      · exact List.mem_append_left _ (ih hMem)
      · rcases List.mem_append.mp (List.mem_of_mem_drop hMem) with
          hBefore | hLast
        · exact List.mem_append_left _ (ih hBefore)
        · exact List.mem_append_right _ hLast

------------------------------------------------------------
-- Leaving
------------------------------------------------------------

/- Since the key came, `n` others have. -/
def Overtaken (n : ℕ) (k : κ) (ks : List κ) : Prop :=
  ∃ pre post others,
    ks = pre ++ k :: post ∧ others ⊆ post ∧ others.Nodup ∧
      k ∉ others ∧ others.length = n

/- The key is there, and those behind it have come since it did. -/
def Stays (k : κ) (ks w : List κ) : Prop :=
  ∃ pre post older newer,
    ks = pre ++ k :: post ∧ w = older ++ k :: newer ∧ newer ⊆ post

omit [DecidableEq κ] in
theorem Overtaken.later
    (hOvertaken : Overtaken n k ks) :
    Overtaken n k (ks ++ [x]) := by
  rcases hOvertaken with ⟨pre, post, others, rfl, hAfter, hOnce⟩
  refine ⟨pre, post ++ [x], others, ?_, ?_, hOnce⟩
  · rw [List.append_assoc, List.cons_append]
  · exact fun y hMem => List.mem_append_left _ (hAfter hMem)

omit [DecidableEq κ] in
theorem Stays.later
    (hStays : Stays k ks w) :
    Stays k (ks ++ [x]) w := by
  rcases hStays with ⟨pre, post, older, newer, rfl, hAt, hAfter⟩
  refine ⟨pre, post ++ [x], older, newer, ?_, hAt, ?_⟩
  · rw [List.append_assoc, List.cons_append]
  · exact fun y hMem => List.mem_append_left _ (hAfter hMem)

omit [DecidableEq κ] in
/- It leaves only for the last of `n` keys behind it. -/
theorem Stays.push
    (hStays : Stays k ks w)
    (hOnce : (w ++ [x]).Nodup) :
    Stays k (ks ++ [x]) (Window.push n w x) ∨
      Overtaken n k (ks ++ [x]) := by
  rcases hStays with ⟨pre, post, older, newer, rfl, rfl, hAfter⟩
  have hKeys :
      pre ++ k :: post ++ [x] = pre ++ k :: (post ++ [x]) := by
    rw [List.append_assoc, List.cons_append]
  have hBehind : newer ++ [x] ⊆ post ++ [x] := by
    intro y hMem
    rcases List.mem_append.mp hMem with hNewer | hLast
    · exact List.mem_append_left _ (hAfter hNewer)
    · exact List.mem_append_right _ hLast
  have hList :
      older ++ k :: newer ++ [x] = older ++ k :: (newer ++ [x]) := by
    rw [List.append_assoc, List.cons_append]
  rw [hList] at hOnce
  have hTail := List.nodup_cons.mp (List.nodup_append.mp hOnce).2.1
  by_cases hFew : (newer ++ [x]).length < n
  · refine .inl ⟨pre, post ++ [x],
      older.drop ((older ++ k :: (newer ++ [x])).length - n),
      newer ++ [x], hKeys, ?_, hBehind⟩
    unfold Window.push List.rtake
    rw [hList, List.drop_append_of_le_length]
    rw [List.length_append, List.length_cons]
    omega
  · refine .inr ⟨pre, post ++ [x], (newer ++ [x]).take n, hKeys,
      fun y hMem => hBehind (List.mem_of_mem_take hMem),
      hTail.2.sublist (List.take_sublist _ _),
      fun hMem => hTail.1 (List.mem_of_mem_take hMem), ?_⟩
    rw [List.length_take]
    omega

omit [DecidableEq κ] in
/- A key that has just come is there, if there is room at all. -/
theorem stays_push (ks w : List κ) :
    Stays x (ks ++ [x]) (Window.push n w x) ∨
      Overtaken n x (ks ++ [x]) := by
  cases n with
  | zero =>
      exact .inr ⟨ks, [], [], rfl, List.nil_subset _, List.nodup_nil,
        List.not_mem_nil, rfl⟩
  | succ n =>
      refine .inl ⟨ks, [], w.rtake n, [], rfl, ?_, List.nil_subset _⟩
      rw [Window.push, List.rtake_concat_succ]

theorem stays_or_overtaken
    (hMem : k ∈ ks) :
    Stays k ks (roster n ks) ∨ Overtaken n k ks := by
  induction ks using List.reverseRecOn with
  | nil => cases hMem
  | append_singleton ks x ih =>
      rw [roster_concat, enrol]
      split
      · rename_i hThere
        have hBefore : k ∈ ks := by
          rcases List.mem_append.mp hMem with hBefore | hLast
          · exact hBefore
          · rw [List.mem_singleton.mp hLast]
            exact mem_of_mem_roster hThere
        exact (ih hBefore).imp Stays.later Overtaken.later
      · rename_i hNew
        by_cases hSame : k = x
        · rw [hSame]
          exact stays_push ks _
        · have hBefore : k ∈ ks := by
            rcases List.mem_append.mp hMem with hBefore | hLast
            · exact hBefore
            · exact absurd (List.mem_singleton.mp hLast) hSame
          rcases ih hBefore with hStays | hOvertaken
          · exact hStays.push (nodup_concat (nodup_roster n ks) hNew)
          · exact .inr hOvertaken.later

/- A key is on the roster unless `n` others have come after it. -/
theorem mem_roster_or_overtaken
    (n : ℕ)
    (hMem : k ∈ ks) :
    k ∈ roster n ks ∨ Overtaken n k ks := by
  rcases stays_or_overtaken hMem with hStays | hOvertaken
  · rcases hStays with ⟨_, _, older, newer, _, hAt, _⟩
    rw [hAt]
    exact .inl (List.mem_append_right _ List.mem_cons_self)
  · exact .inr hOvertaken

end Roster
