import Pumpy.Interleaving.Prog

/-
  This file defines machines: a shared state, the tasks that
  run over it, and the outside world.  A step either lets one
  task execute its next operation or lets the outside world
  act.  Runs carry the trace of their events and may be
  restricted to steps that meet a condition.

  Key definitions include:
    * `Machine`
    * `Event`
    * `Config`
    * `Machine.Step`
    * `Machine.Run`
    * `Machine.play`
    * `Machine.rootsIn`
-/

------------------------------------------------------------
-- Machines and Configurations
------------------------------------------------------------

namespace Interleaving

/-
  A machine over the operations `Op`.  The environment value
  `Env` given to `exec` is what the outside world contributes
  to one operation: the outcome of a statement, the order in
  which a map is iterated, a clock reading.  `exec` is `none`
  where the operation is not enabled.
-/
structure Machine
    (Op : Type)
    (Resp : Op → Type)
    (Env Ext σ Root Ret : Type) where
  exec : (op : Op) → Env → σ → Option (Resp op × σ)
  ext : Ext → σ → Option σ
  body : Root → Prog Op Resp Ret
  opRoots : Op → List Root
  extRoots : Ext → List Root
  kills : Ext → Nat → Root → Bool

/- One step of a run, as it appears in the trace. -/
inductive Event
    (Op : Type)
    (Resp : Op → Type)
    (Env Ext : Type) : Type where
  | op (tid : Nat) (op : Op) (env : Env) (r : Resp op) :
      Event Op Resp Env Ext
  | ext (e : Ext) : Event Op Resp Env Ext

/- A task and what is left of its program; `none` if it was dropped. -/
structure Task
    (Op : Type)
    (Resp : Op → Type)
    (Root Ret : Type) where
  root : Root
  prog : Option (Prog Op Resp Ret)

/- The shared state and all tasks ever started, by number. -/
structure Config
    (Op : Type)
    (Resp : Op → Type)
    (σ Root Ret : Type) where
  state : σ
  tasks : List (Task Op Resp Root Ret)

namespace Machine

variable {Op : Type} {Resp : Op → Type}
variable {Env Ext σ Root Ret : Type}

/- The task that starts at `root`. -/
def start
    (M : Machine Op Resp Env Ext σ Root Ret)
    (root : Root) : Task Op Resp Root Ret :=
  ⟨root, some (M.body root)⟩

/- Drop the task if the outside event kills it. -/
def survive
    (M : Machine Op Resp Env Ext σ Root Ret)
    (e : Ext)
    (tid : Nat)
    (t : Task Op Resp Root Ret) : Task Op Resp Root Ret :=
  if M.kills e tid t.root then ⟨t.root, none⟩ else t

/- One step of the machine. -/
inductive Step
    (M : Machine Op Resp Env Ext σ Root Ret) :
    Config Op Resp σ Root Ret →
      Event Op Resp Env Ext →
        Config Op Resp σ Root Ret → Prop
  | op
      {s s' : σ}
      {tasks : List (Task Op Resp Root Ret)}
      {tid : Nat}
      {root : Root}
      {op : Op}
      {k : Resp op → Prog Op Resp Ret}
      {env : Env}
      {r : Resp op}
      (hTask : tasks[tid]? = some ⟨root, some (.act op k)⟩)
      (hExec : M.exec op env s = some (r, s')) :
      Step M ⟨s, tasks⟩ (.op tid op env r)
        ⟨s', tasks.set tid ⟨root, some (k r)⟩ ++
          (M.opRoots op).map M.start⟩
  | ext
      {s s' : σ}
      {tasks : List (Task Op Resp Root Ret)}
      {e : Ext}
      (hExt : M.ext e s = some s') :
      Step M ⟨s, tasks⟩ (.ext e)
        ⟨s', tasks.mapIdx (M.survive e) ++
          (M.extRoots e).map M.start⟩

------------------------------------------------------------
-- Runs
------------------------------------------------------------

/- A condition on a step: the trace so far, the state, the event. -/
abbrev StepCond
    (Op : Type)
    (Resp : Op → Type)
    (Env Ext σ : Type) :=
  List (Event Op Resp Env Ext) → σ → Event Op Resp Env Ext → Prop

/- The condition every step meets. -/
def anyStep : StepCond Op Resp Env Ext σ :=
  fun _ _ _ => True

/-
  Runs from the state `s₀` with no task, all of whose steps
  meet `C`, with their trace.
-/
inductive Run
    (M : Machine Op Resp Env Ext σ Root Ret)
    (C : StepCond Op Resp Env Ext σ)
    (s₀ : σ) :
    List (Event Op Resp Env Ext) →
      Config Op Resp σ Root Ret → Prop
  | nil : Run M C s₀ [] ⟨s₀, []⟩
  | snoc
      {tr : List (Event Op Resp Env Ext)}
      {c c' : Config Op Resp σ Root Ret}
      {e : Event Op Resp Env Ext}
      (hRun : Run M C s₀ tr c)
      (hCond : C tr c.state e)
      (hStep : Step M c e c') :
      Run M C s₀ (tr ++ [e]) c'

/- A run under a condition is a run under a weaker one. -/
theorem Run.mono
    {M : Machine Op Resp Env Ext σ Root Ret}
    {C D : StepCond Op Resp Env Ext σ}
    {s₀ : σ}
    {tr : List (Event Op Resp Env Ext)}
    {c : Config Op Resp σ Root Ret}
    (hCD : ∀ tr s e, C tr s e → D tr s e)
    (hRun : Run M C s₀ tr c) :
    Run M D s₀ tr c := by
  induction hRun with
  | nil => exact .nil
  | snoc _ hCond hStep ih =>
      exact .snoc ih (hCD _ _ _ hCond) hStep

/- A run is one under every condition that its steps meet. -/
theorem Run.meets
    {M : Machine Op Resp Env Ext σ Root Ret}
    {C D : StepCond Op Resp Env Ext σ}
    {s₀ : σ}
    {tr : List (Event Op Resp Env Ext)}
    {c : Config Op Resp σ Root Ret}
    (hRun : Run M C s₀ tr c)
    (hMeets :
      ∀ pre post e c',
        tr = pre ++ e :: post → Run M C s₀ pre c' →
          D pre c'.state e) :
    Run M D s₀ tr c := by
  induction hRun with
  | nil => exact .nil
  | @snoc tr c c' e hRun hCond hStep ih =>
      have hBefore : Run M D s₀ tr c := by
        apply ih
        intro pre post e₁ c₁ hSplit hPre
        refine hMeets pre (post ++ [e]) e₁ c₁ ?_ hPre
        rw [hSplit, List.append_assoc, List.cons_append]
      exact .snoc hBefore (hMeets tr [] e c rfl hRun) hStep

/- Every initial part of the trace of a run is the trace of a run. -/
theorem Run.earlier
    {M : Machine Op Resp Env Ext σ Root Ret}
    {C : StepCond Op Resp Env Ext σ}
    {s₀ : σ}
    {tr pre post : List (Event Op Resp Env Ext)}
    {c : Config Op Resp σ Root Ret}
    (hRun : Run M C s₀ tr c)
    (hSplit : tr = pre ++ post) :
    ∃ c', Run M C s₀ pre c' := by
  induction hRun generalizing post with
  | nil =>
      have hPre : pre = [] := (List.nil_eq_append_iff.mp hSplit).1
      subst hPre
      exact ⟨_, .nil⟩
  | @snoc tr c c' e hRun hCond hStep ih =>
      rcases List.eq_nil_or_concat post with hNil | ⟨post', e', hPost⟩
      · subst hNil
        rw [List.append_nil] at hSplit
        subst hSplit
        exact ⟨_, .snoc hRun hCond hStep⟩
      · rw [hPost, List.concat_eq_append, ← List.append_assoc] at hSplit
        exact ih (List.append_inj' hSplit rfl).1

------------------------------------------------------------
-- Task Numbers
------------------------------------------------------------

/- The tasks an event starts. -/
def roots
    (M : Machine Op Resp Env Ext σ Root Ret) :
    Event Op Resp Env Ext → List Root
  | .op _ op _ _ => M.opRoots op
  | .ext e => M.extRoots e

/-
  The tasks started along a trace.  A task's number is its
  position in this list.
-/
def rootsIn
    (M : Machine Op Resp Env Ext σ Root Ret)
    (tr : List (Event Op Resp Env Ext)) : List Root :=
  tr.flatMap M.roots

@[simp] theorem rootsIn_nil
    (M : Machine Op Resp Env Ext σ Root Ret) :
    M.rootsIn [] = [] :=
  rfl

@[simp] theorem rootsIn_append
    (M : Machine Op Resp Env Ext σ Root Ret)
    (tr tr' : List (Event Op Resp Env Ext)) :
    M.rootsIn (tr ++ tr') = M.rootsIn tr ++ M.rootsIn tr' :=
  List.flatMap_append

@[simp] theorem rootsIn_singleton
    (M : Machine Op Resp Env Ext σ Root Ret)
    (e : Event Op Resp Env Ext) :
    M.rootsIn [e] = M.roots e := by
  simp [rootsIn]

/- A task's number names the same task in every longer trace. -/
theorem rootsIn_append_left
    (M : Machine Op Resp Env Ext σ Root Ret)
    {tr : List (Event Op Resp Env Ext)}
    {tid : Nat}
    (tr' : List (Event Op Resp Env Ext))
    (hLt : tid < (M.rootsIn tr).length) :
    (M.rootsIn (tr ++ tr'))[tid]? = (M.rootsIn tr)[tid]? := by
  rw [rootsIn_append, List.getElem?_append_left hLt]

theorem root_append
    (M : Machine Op Resp Env Ext σ Root Ret)
    {tr : List (Event Op Resp Env Ext)}
    {tid : Nat}
    {root : Root}
    (hRoot : (M.rootsIn tr)[tid]? = some root)
    (tr' : List (Event Op Resp Env Ext)) :
    (M.rootsIn (tr ++ tr'))[tid]? = some root := by
  rw [rootsIn_append_left M tr' (List.getElem?_eq_some_iff.mp hRoot).1]
  exact hRoot

/- Writing the element that is there changes nothing. -/
theorem set_eq_self_of_getElem?
    {α : Type}
    {l : List α}
    {i : Nat}
    {a : α}
    (hAt : l[i]? = some a) :
    l.set i a = l := by
  rcases List.getElem?_eq_some_iff.mp hAt with ⟨hLt, hEq⟩
  rw [← hEq]
  exact List.set_getElem_self hLt

/- What a list names after one entry was replaced and more were added. -/
theorem getElem?_set_append
    {α : Type}
    {l new : List α}
    {i j : Nat}
    {a b : α}
    (hAt : (l.set i a ++ new)[j]? = some b) :
    (j = i ∧ b = a) ∨
      (j ≠ i ∧ l[j]? = some b) ∨
        (l.length ≤ j ∧ b ∈ new) := by
  by_cases hLt : j < l.length
  · rw [List.getElem?_append_left (by simpa using hLt)] at hAt
    by_cases hEq : j = i
    · subst hEq
      rw [List.getElem?_set_self hLt] at hAt
      exact .inl ⟨rfl, (Option.some.inj hAt).symm⟩
    · rw [List.getElem?_set_ne (Ne.symm hEq)] at hAt
      exact .inr (.inl ⟨hEq, hAt⟩)
  · have hLe : l.length ≤ j := Nat.le_of_not_lt hLt
    rw [List.getElem?_append_right (by simpa using hLe)] at hAt
    exact .inr (.inr ⟨hLe, List.mem_of_getElem? hAt⟩)

/- A step keeps the tasks in place and appends the new ones. -/
theorem Step.roots_eq
    {M : Machine Op Resp Env Ext σ Root Ret}
    {c c' : Config Op Resp σ Root Ret}
    {e : Event Op Resp Env Ext}
    (hStep : Step M c e c') :
    c'.tasks.map Task.root =
      c.tasks.map Task.root ++ M.roots e := by
  cases hStep with
  | @op s s' tasks tid root op k env r hTask hExec =>
      have hSet :
          (tasks.map Task.root).set tid root =
            tasks.map Task.root := by
        apply set_eq_self_of_getElem?
        simp [hTask]
      simp [start, roots, List.map_set, hSet,
        Function.comp_def]
  | @ext s s' tasks e hExt =>
      have hSurvive :
          (tasks.mapIdx (M.survive e)).map Task.root =
            tasks.map Task.root := by
        apply List.ext_getElem?
        intro i
        simp only [List.getElem?_map, List.getElem?_mapIdx]
        cases tasks[i]? with
        | none => rfl
        | some t =>
            simp only [Option.map_some, survive]
            split <;> rfl
      simp [hSurvive, start, roots, Function.comp_def]

/- The tasks of a run are those its trace started. -/
theorem Run.roots_eq
    {M : Machine Op Resp Env Ext σ Root Ret}
    {C : StepCond Op Resp Env Ext σ}
    {s₀ : σ}
    {tr : List (Event Op Resp Env Ext)}
    {c : Config Op Resp σ Root Ret}
    (hRun : Run M C s₀ tr c) :
    c.tasks.map Task.root = M.rootsIn tr := by
  induction hRun with
  | nil => rfl
  | snoc _ _ hStep ih => simp [hStep.roots_eq, ih]

------------------------------------------------------------
-- Playing a Schedule
------------------------------------------------------------

/- A scheduling decision: which task moves, or what happens outside. -/
inductive Choice (Env Ext : Type) : Type where
  | task (tid : Nat) (env : Env) : Choice Env Ext
  | ext (e : Ext) : Choice Env Ext

/- Take the step a choice asks for, if it is enabled. -/
def playOne
    (M : Machine Op Resp Env Ext σ Root Ret)
    (c : Config Op Resp σ Root Ret) :
    Choice Env Ext →
      Option (Event Op Resp Env Ext × Config Op Resp σ Root Ret)
  | .task tid env =>
      match c.tasks[tid]? with
      | some ⟨root, some (.act op k)⟩ =>
          match M.exec op env c.state with
          | some (r, s') =>
              some (.op tid op env r,
                ⟨s', c.tasks.set tid ⟨root, some (k r)⟩ ++
                  (M.opRoots op).map M.start⟩)
          | none => none
      | _ => none
  | .ext e =>
      match M.ext e c.state with
      | some s' =>
          some (.ext e,
            ⟨s', c.tasks.mapIdx (M.survive e) ++
              (M.extRoots e).map M.start⟩)
      | none => none

/- Play a schedule from the trace `tr` and the configuration `c`. -/
def playFrom
    (M : Machine Op Resp Env Ext σ Root Ret)
    (tr : List (Event Op Resp Env Ext))
    (c : Config Op Resp σ Root Ret) :
    List (Choice Env Ext) →
      Option (List (Event Op Resp Env Ext) ×
        Config Op Resp σ Root Ret)
  | [] => some (tr, c)
  | ch :: chs =>
      match M.playOne c ch with
      | some (e, c') => M.playFrom (tr ++ [e]) c' chs
      | none => none

/- Play a schedule from a state with no task. -/
def play
    (M : Machine Op Resp Env Ext σ Root Ret)
    (s₀ : σ)
    (chs : List (Choice Env Ext)) :
    Option (List (Event Op Resp Env Ext) ×
      Config Op Resp σ Root Ret) :=
  M.playFrom [] ⟨s₀, []⟩ chs

theorem playOne_step
    {M : Machine Op Resp Env Ext σ Root Ret}
    {c c' : Config Op Resp σ Root Ret}
    {ch : Choice Env Ext}
    {e : Event Op Resp Env Ext}
    (hPlay : M.playOne c ch = some (e, c')) :
    Step M c e c' := by
  rcases c with ⟨s, tasks⟩
  cases ch with
  | task tid env =>
      simp only [playOne] at hPlay
      split at hPlay
      · rename_i root op k hTask
        split at hPlay
        · rename_i r s' hExec
          simp only [Option.some.injEq, Prod.mk.injEq] at hPlay
          rcases hPlay with ⟨rfl, rfl⟩
          exact .op hTask hExec
        · cases hPlay
      · cases hPlay
  | ext e' =>
      simp only [playOne] at hPlay
      split at hPlay
      · rename_i s' hExt
        simp only [Option.some.injEq, Prod.mk.injEq] at hPlay
        rcases hPlay with ⟨rfl, rfl⟩
        exact .ext hExt
      · cases hPlay

theorem playFrom_run
    {M : Machine Op Resp Env Ext σ Root Ret}
    {s₀ : σ}
    {chs : List (Choice Env Ext)}
    {tr tr' : List (Event Op Resp Env Ext)}
    {c c' : Config Op Resp σ Root Ret}
    (hRun : Run M anyStep s₀ tr c)
    (hPlay : M.playFrom tr c chs = some (tr', c')) :
    Run M anyStep s₀ tr' c' := by
  induction chs generalizing tr c with
  | nil =>
      simp only [playFrom, Option.some.injEq, Prod.mk.injEq] at hPlay
      rcases hPlay with ⟨rfl, rfl⟩
      exact hRun
  | cons ch chs ih =>
      simp only [playFrom] at hPlay
      split at hPlay
      · rename_i e c₁ hOne
        exact ih (.snoc hRun trivial (playOne_step hOne)) hPlay
      · cases hPlay

/- A schedule that plays to a configuration passing `P` gives such a run. -/
theorem exists_run_of_play
    (M : Machine Op Resp Env Ext σ Root Ret)
    (s₀ : σ)
    (chs : List (Choice Env Ext))
    (P : List (Event Op Resp Env Ext) →
      Config Op Resp σ Root Ret → Bool)
    (hPlay :
      (M.play s₀ chs).any (fun p => P p.1 p.2) = true) :
    ∃ tr c, Run M anyStep s₀ tr c ∧ P tr c = true := by
  cases hEq : M.play s₀ chs with
  | none => simp [hEq] at hPlay
  | some p =>
      rw [hEq] at hPlay
      exact ⟨p.1, p.2, playFrom_run .nil hEq, by simpa using hPlay⟩

/- Playing extends the trace. -/
theorem playFrom_extends
    {M : Machine Op Resp Env Ext σ Root Ret}
    {chs : List (Choice Env Ext)}
    {tr tr' : List (Event Op Resp Env Ext)}
    {c c' : Config Op Resp σ Root Ret}
    (hPlay : M.playFrom tr c chs = some (tr', c')) :
    ∃ post, tr' = tr ++ post := by
  induction chs generalizing tr c with
  | nil =>
      simp only [playFrom, Option.some.injEq, Prod.mk.injEq] at hPlay
      exact ⟨[], by rw [List.append_nil, hPlay.1]⟩
  | cons ch chs ih =>
      simp only [playFrom] at hPlay
      split at hPlay
      · rename_i e c₁ hOne
        rcases ih hPlay with ⟨post, hPost⟩
        exact ⟨e :: post, by rw [hPost, List.append_assoc]; rfl⟩
      · cases hPlay

/- A schedule in two parts gives a run and a later one. -/
theorem exists_runs_of_play
    (M : Machine Op Resp Env Ext σ Root Ret)
    (s₀ : σ)
    (chs chs' : List (Choice Env Ext))
    (P : List (Event Op Resp Env Ext) →
      Config Op Resp σ Root Ret →
        List (Event Op Resp Env Ext) →
          Config Op Resp σ Root Ret → Bool)
    (hPlay :
      (M.play s₀ chs).any (fun p =>
        (M.playFrom p.1 p.2 chs').any fun q =>
          P p.1 p.2 q.1 q.2) = true) :
    ∃ tr c post c',
      Run M anyStep s₀ tr c ∧ Run M anyStep s₀ (tr ++ post) c' ∧
        P tr c (tr ++ post) c' = true := by
  cases hEq : M.play s₀ chs with
  | none => simp [hEq] at hPlay
  | some p =>
      have hRun : Run M anyStep s₀ p.1 p.2 := playFrom_run .nil hEq
      cases hEq' : M.playFrom p.1 p.2 chs' with
      | none => simp [hEq, hEq'] at hPlay
      | some q =>
          rcases playFrom_extends hEq' with ⟨post, hPost⟩
          have hLater : Run M anyStep s₀ q.1 q.2 :=
            playFrom_run hRun hEq'
          rw [hPost] at hLater
          refine ⟨p.1, p.2, post, q.2, hRun, hLater, ?_⟩
          rw [← hPost]
          simpa [hEq, hEq'] using hPlay

/- Play a schedule as long as its steps meet the condition. -/
def playFromUnder
    (M : Machine Op Resp Env Ext σ Root Ret)
    (C : StepCond Op Resp Env Ext σ)
    [∀ tr s e, Decidable (C tr s e)]
    (tr : List (Event Op Resp Env Ext))
    (c : Config Op Resp σ Root Ret) :
    List (Choice Env Ext) →
      Option (List (Event Op Resp Env Ext) ×
        Config Op Resp σ Root Ret)
  | [] => some (tr, c)
  | ch :: chs =>
      match M.playOne c ch with
      | some (e, c') =>
          if C tr c.state e then
            M.playFromUnder C (tr ++ [e]) c' chs
          else
            none
      | none => none

/- Play a schedule under a condition from a state with no task. -/
def playUnder
    (M : Machine Op Resp Env Ext σ Root Ret)
    (C : StepCond Op Resp Env Ext σ)
    [∀ tr s e, Decidable (C tr s e)]
    (s₀ : σ)
    (chs : List (Choice Env Ext)) :
    Option (List (Event Op Resp Env Ext) ×
      Config Op Resp σ Root Ret) :=
  M.playFromUnder C [] ⟨s₀, []⟩ chs

theorem playFromUnder_run
    {M : Machine Op Resp Env Ext σ Root Ret}
    {C : StepCond Op Resp Env Ext σ}
    [∀ tr s e, Decidable (C tr s e)]
    {s₀ : σ}
    {chs : List (Choice Env Ext)}
    {tr tr' : List (Event Op Resp Env Ext)}
    {c c' : Config Op Resp σ Root Ret}
    (hRun : Run M C s₀ tr c)
    (hPlay : M.playFromUnder C tr c chs = some (tr', c')) :
    Run M C s₀ tr' c' := by
  induction chs generalizing tr c with
  | nil =>
      simp only [playFromUnder, Option.some.injEq,
        Prod.mk.injEq] at hPlay
      rcases hPlay with ⟨rfl, rfl⟩
      exact hRun
  | cons ch chs ih =>
      simp only [playFromUnder] at hPlay
      split at hPlay
      · rename_i e c₁ hOne
        split at hPlay
        · rename_i hCond
          exact ih (.snoc hRun hCond (playOne_step hOne)) hPlay
        · cases hPlay
      · cases hPlay

/- A schedule that plays under a condition gives a run under it. -/
theorem exists_run_of_playUnder
    (M : Machine Op Resp Env Ext σ Root Ret)
    (C : StepCond Op Resp Env Ext σ)
    [∀ tr s e, Decidable (C tr s e)]
    (s₀ : σ)
    (chs : List (Choice Env Ext))
    (P : List (Event Op Resp Env Ext) →
      Config Op Resp σ Root Ret → Bool)
    (hPlay :
      (M.playUnder C s₀ chs).any (fun p => P p.1 p.2) = true) :
    ∃ tr c, Run M C s₀ tr c ∧ P tr c = true := by
  cases hEq : M.playUnder C s₀ chs with
  | none => simp [hEq] at hPlay
  | some p =>
      rw [hEq] at hPlay
      exact ⟨p.1, p.2, playFromUnder_run .nil hEq, by simpa using hPlay⟩

end Machine

end Interleaving
