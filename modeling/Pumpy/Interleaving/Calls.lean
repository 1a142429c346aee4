import Pumpy.Interleaving.Machine
import Mathlib.Data.List.Induction

/-
  This file relates a run to the programs of its tasks, one at
  a time: the calls a task has made along the trace lead from
  its body to what is left of it.  The trace of a run fixes
  where it comes to.

  Key definitions include:
    * `Machine.Happened`
    * `Machine.callOf`
    * `Machine.calls`
-/

namespace Interleaving

/- What always holds holds of the calls made and of those to come. -/
theorem Prog.Always.after
    {Op : Type}
    {Resp : Op → Type}
    {α : Type}
    {Q : Op → Prop}
    {p q : Prog Op Resp α}
    {h : List (Prog.Call Op Resp)}
    (hAlways : p.Always Q)
    (hAfter : p.After h q) :
    (∀ call ∈ h, Q call.1) ∧ q.Always Q := by
  refine ⟨fun call hMem => hAlways _ (hAfter.canExecute hMem), ?_⟩
  induction hAfter with
  | refl => exact hAlways
  | call _ ih =>
      exact ih fun op hLater => hAlways op (.inr ⟨_, hLater⟩)

namespace Machine

variable {Op : Type} {Resp : Op → Type}
variable {Env Ext σ Root Ret : Type}
variable {M : Machine Op Resp Env Ext σ Root Ret}
variable {C D : StepCond Op Resp Env Ext σ}
variable {s₀ : σ} {tr : List (Event Op Resp Env Ext)}
variable {c c' : Config Op Resp σ Root Ret}
variable {e : Event Op Resp Env Ext} {tid : Nat} {root : Root}

------------------------------------------------------------
-- Traces Fix Configurations
------------------------------------------------------------

theorem Step.unique
    {c₁ c₂ : Config Op Resp σ Root Ret}
    (hStep : Step M c e c₁)
    (hAgain : Step M c e c₂) :
    c₁ = c₂ := by
  cases hStep with
  | op hTask hExec =>
      cases hAgain with
      | op hTask' hExec' =>
          rw [hTask] at hTask'
          cases hTask'
          rw [hExec] at hExec'
          cases hExec'
          rfl
  | ext hExt =>
      cases hAgain with
      | ext hExt' =>
          rw [hExt] at hExt'
          cases hExt'
          rfl

/- The last step of a run. -/
theorem Run.snoc_inv
    (hRun : Run M C s₀ (tr ++ [e]) c) :
    ∃ c₀, Run M C s₀ tr c₀ ∧ C tr c₀.state e ∧ Step M c₀ e c := by
  generalize hEq : tr ++ [e] = tr' at hRun
  cases hRun with
  | nil => simp at hEq
  | snoc hBefore hCond hStep =>
      rcases List.append_inj' hEq rfl with ⟨rfl, hLast⟩
      cases hLast
      exact ⟨_, hBefore, hCond, hStep⟩

/- The step that an event of the trace was. -/
theorem Run.step_at
    {pre post : List (Event Op Resp Env Ext)}
    (hRun : Run M C s₀ tr c)
    (hSplit : tr = pre ++ e :: post) :
    ∃ c₀ c₁,
      Run M C s₀ pre c₀ ∧ C pre c₀.state e ∧ Step M c₀ e c₁ := by
  have hCut : tr = pre ++ [e] ++ post := by
    rw [hSplit, List.append_assoc]
    rfl
  rcases hRun.earlier hCut with ⟨c₁, hPre⟩
  rcases hPre.snoc_inv with ⟨c₀, hBefore, hCond, hStep⟩
  exact ⟨c₀, c₁, hBefore, hCond, hStep⟩

/- One trace does not lead to two configurations. -/
theorem Run.unique
    (hRun : Run M C s₀ tr c)
    (hAgain : Run M D s₀ tr c') :
    c = c' := by
  induction hRun generalizing c' with
  | nil =>
      generalize hEq : ([] : List (Event Op Resp Env Ext)) = tr at hAgain
      cases hAgain with
      | nil => rfl
      | snoc _ _ _ => simp at hEq
  | snoc _ _ hStep ih =>
      rcases hAgain.snoc_inv with ⟨c₀, hBefore, _, hLast⟩
      rw [ih hBefore] at hStep
      exact hStep.unique hLast

/- What holds at a point of a run and is kept by every step. -/
theorem Run.since
    {P : Config Op Resp σ Root Ret → Prop}
    {pre post : List (Event Op Resp Env Ext)}
    (hKeep : ∀ c e c', Step M c e c' → P c → P c')
    (hPre : Run M D s₀ pre c')
    (hHolds : P c')
    (hRun : Run M C s₀ (pre ++ post) c) :
    P c := by
  induction post using List.reverseRecOn generalizing c with
  | nil =>
      rw [List.append_nil] at hRun
      rw [hRun.unique hPre]
      exact hHolds
  | append_singleton post e ih =>
      rw [← List.append_assoc] at hRun
      rcases hRun.snoc_inv with ⟨c₀, hBefore, _, hStep⟩
      exact hKeep _ _ _ hStep (ih hBefore)

/- A run under a condition is one under what follows at its steps. -/
theorem Run.weaken
    (hCD :
      ∀ tr c e c',
        Step M c e c' → C tr c.state e → D tr c.state e)
    (hRun : Run M C s₀ tr c) :
    Run M D s₀ tr c := by
  induction hRun with
  | nil => exact .nil
  | snoc _ hCond hStep ih =>
      exact .snoc ih (hCD _ _ _ _ hStep hCond) hStep

------------------------------------------------------------
-- What Has Happened
------------------------------------------------------------

/- At some step of the trace `P` held, of where it began and of the event. -/
def Happened
    (M : Machine Op Resp Env Ext σ Root Ret)
    (s₀ : σ)
    (P : Config Op Resp σ Root Ret → Event Op Resp Env Ext → Prop)
    (tr : List (Event Op Resp Env Ext)) : Prop :=
  ∃ pre e post c,
    tr = pre ++ e :: post ∧ Run M anyStep s₀ pre c ∧ P c e

variable {P : Config Op Resp σ Root Ret → Event Op Resp Env Ext → Prop}

theorem Happened.later
    {post : List (Event Op Resp Env Ext)}
    (hHappened : Happened M s₀ P tr) :
    Happened M s₀ P (tr ++ post) := by
  rcases hHappened with ⟨pre, e, post', c, rfl, hRun, hHolds⟩
  exact ⟨pre, e, post' ++ post, c,
    by rw [List.append_assoc, List.cons_append], hRun, hHolds⟩

theorem Run.happened
    (hRun : Run M C s₀ tr c)
    (hHolds : P c e) :
    Happened M s₀ P (tr ++ [e]) :=
  ⟨tr, e, [], c, rfl, hRun.mono fun _ _ _ _ => trivial, hHolds⟩

/- What has happened happened before the last step, or with it. -/
theorem Run.happened_snoc
    (hRun : Run M C s₀ tr c)
    (hHappened : Happened M s₀ P (tr ++ [e])) :
    Happened M s₀ P tr ∨ P c e := by
  rcases hHappened with ⟨pre, e', post, c', hSplit, hPre, hHolds⟩
  rcases List.eq_nil_or_concat post with rfl | ⟨post', last, hPost⟩
  · rcases List.append_inj' hSplit rfl with ⟨rfl, hLast⟩
    cases hLast
    rw [hRun.unique hPre]
    exact .inr hHolds
  · rw [hPost, List.concat_eq_append, ← List.cons_append,
      ← List.append_assoc] at hSplit
    exact .inl ⟨pre, e', post', c', (List.append_inj' hSplit rfl).1,
      hPre, hHolds⟩

------------------------------------------------------------
-- Calls of a Task
------------------------------------------------------------

/- The call the event is for the task. -/
def callOf
    (tid : Nat) :
    Event Op Resp Env Ext → Option (Prog.Call Op Resp)
  | .op tid' op _ r => if tid' = tid then some ⟨op, r⟩ else none
  | .ext _ => none

/- The calls a task has made along a trace. -/
def calls
    (tr : List (Event Op Resp Env Ext))
    (tid : Nat) : List (Prog.Call Op Resp) :=
  tr.filterMap (callOf tid)

theorem mem_calls
    {call : Prog.Call Op Resp} :
    call ∈ calls tr tid ↔
      ∃ env, .op tid call.1 env call.2 ∈ tr := by
  unfold calls
  rw [List.mem_filterMap]
  constructor
  · rintro ⟨e, hMem, hCall⟩
    cases e with
    | op tid' op env r =>
        simp only [callOf] at hCall
        split at hCall
        · rename_i hSame
          cases hCall
          rw [hSame] at hMem
          exact ⟨env, hMem⟩
        · cases hCall
    | ext e => cases hCall
  · rintro ⟨env, hMem⟩
    exact ⟨_, hMem, if_pos rfl⟩

theorem calls_append_singleton_self
    {op : Op} {env : Env} {r : Resp op} :
    calls (tr ++ [.op tid op env r]) tid =
      calls tr tid ++ [⟨op, r⟩] := by
  simp [calls, callOf]

theorem calls_append_singleton_other
    (hOther : ∀ op env r, e ≠ .op tid op env r) :
    calls (tr ++ [e]) tid = calls tr tid := by
  have hNone : callOf tid e = none := by
    cases e with
    | op tid' op env r =>
        refine if_neg ?_
        rintro rfl
        exact hOther op env r rfl
    | ext e => rfl
  simp [calls, hNone]

/- Tasks that are not there yet have made no calls. -/
theorem Run.calls_eq_nil
    (hRun : Run M C s₀ tr c)
    (hLe : c.tasks.length ≤ tid) :
    calls tr tid = [] := by
  induction hRun with
  | nil => rfl
  | @snoc tr c c' e _ _ hStep ih =>
      have hLength := congrArg List.length hStep.roots_eq
      simp only [List.length_map, List.length_append] at hLength
      rw [calls_append_singleton_other, ih (by omega)]
      rintro op env r rfl
      cases hStep with
      | op hTask hExec =>
          have hLt := (List.getElem?_eq_some_iff.mp hTask).1
          simp only [List.length_append, List.length_set] at hLe
          omega

/- The calls of a task lead from its body to what is left of it. -/
theorem Run.after_calls
    {p : Prog Op Resp Ret}
    (hRun : Run M C s₀ tr c)
    (hTask : c.tasks[tid]? = some ⟨root, some p⟩) :
    (M.body root).After (calls tr tid) p := by
  induction hRun generalizing p with
  | nil => simp at hTask
  | @snoc tr c c' e hBefore hCond hStep ih =>
      have hNew :
          c.tasks.length ≤ tid →
            calls (tr ++ [e]) tid = [] → ∀ roots : List Root,
              (⟨root, some p⟩ : Task Op Resp Root Ret) ∈
                  roots.map M.start →
                (M.body root).After (calls (tr ++ [e]) tid) p := by
        intro _ hNone roots hMem
        rcases List.mem_map.mp hMem with ⟨root', _, hStart⟩
        cases hStart
        rw [hNone]
        exact .refl
      cases hStep with
      | @op s s' tasks tid' root' op k env r hAt hExec =>
          rcases getElem?_set_append hTask with
            ⟨rfl, hSame⟩ | ⟨hOther, hOld⟩ | ⟨hLe, hMem⟩
          · cases hSame
            rw [calls_append_singleton_self]
            exact (ih hAt).trans (.call .refl)
          · rw [calls_append_singleton_other]
            · exact ih hOld
            · rintro op' env' r' hEq
              cases hEq
              exact hOther rfl
          · have hLt := (List.getElem?_eq_some_iff.mp hAt).1
            refine hNew hLe ?_ _ hMem
            rw [calls_append_singleton_other, hBefore.calls_eq_nil hLe]
            rintro op' env' r' hEq
            cases hEq
            exact absurd hLt (Nat.not_lt.mpr hLe)
      | @ext s s' tasks e hExt =>
          have hQuiet :
              calls (tr ++ [.ext e]) tid = calls tr tid :=
            calls_append_singleton_other fun _ _ _ => (nomatch ·)
          by_cases hLt : tid < tasks.length
          · rw [List.getElem?_append_left (by simpa using hLt),
              List.getElem?_mapIdx] at hTask
            rw [hQuiet]
            cases hOld : tasks[tid]? with
            | none => simp [hOld] at hTask
            | some t =>
                simp only [hOld, Option.map_some, Option.some.injEq,
                  survive] at hTask
                split at hTask
                · cases hTask
                · exact ih (hTask ▸ hOld)
          · have hLe : tasks.length ≤ tid := Nat.le_of_not_lt hLt
            rw [List.getElem?_append_right (by simpa using hLe)] at hTask
            refine hNew hLe ?_ _ (List.mem_of_getElem? hTask)
            rw [hQuiet, hBefore.calls_eq_nil hLe]

end Machine

end Interleaving
