import Mathlib.Data.List.Forall2
import Pumpy.Interleaving.Machine

/-
  This file defines protocols: automata that say which
  operation a task may execute next.  A program follows a
  protocol if the protocol can move along with it whatever
  the responses, and a machine whose programs follow a
  protocol runs only as the protocol allows.  Invariants of a machine are
  therefore proven over protocol phases, with no program in
  sight.

  Key definitions include:
    * `Protocol`
    * `Protocol.Wp`
    * `Protocol.within`
    * `Protocol.Follows`
    * `Shadow`
    * `Protocol.ShadowStep`
    * `Protocol.ShadowRun`
    * `Protocol.TrackedRun`

  The main result is `Protocol.trackedRun_of_run`.
-/

------------------------------------------------------------
-- Protocols
------------------------------------------------------------

namespace Interleaving

/-
  An automaton over the phases `G`: where a task starts, the
  moves from a phase by an operation and its response to the
  next phase, and the phases a task may panic in.
-/
structure Protocol
    (Op : Type)
    (Resp : Op → Type)
    (Root G : Type) where
  start : Root → G
  move : G → (op : Op) → Resp op → G → Prop
  crash : G → Prop

/-
  What the protocol sees of a task: where it started and its
  phase, `none` once the task was dropped.
-/
structure Shadow (Root G : Type) where
  root : Root
  phase : Option G

namespace Protocol

variable {Op : Type} {Resp : Op → Type}
variable {Root G Env Ext σ Ret : Type}
variable {α β : Type}

/-
  From phase `g` on, whatever the responses, the protocol has
  a move for every operation `p` executes, `p` panics only
  where it may, and returns in a phase and with a value that
  meet `Q`.
-/
def Wp
    (P : Protocol Op Resp Root G) :
    Prog Op Resp α → G → (α → G → Prop) → Prop
  | .done a, g, Q => Q a g
  | .crash, g, _ => P.crash g
  | .act op k, g, Q =>
      ∀ r, ∃ g', P.move g op r g' ∧ P.Wp (k r) g' Q

@[simp] theorem wp_done
    (P : Protocol Op Resp Root G)
    (a : α)
    (g : G)
    (Q : α → G → Prop) :
    P.Wp (.done a) g Q = Q a g :=
  rfl

@[simp] theorem wp_crash
    (P : Protocol Op Resp Root G)
    (g : G)
    (Q : α → G → Prop) :
    P.Wp .crash g Q = P.crash g :=
  rfl

@[simp] theorem wp_act
    (P : Protocol Op Resp Root G)
    (op : Op)
    (k : Resp op → Prog Op Resp α)
    (g : G)
    (Q : α → G → Prop) :
    P.Wp (.act op k) g Q =
      ∀ r, ∃ g', P.move g op r g' ∧ P.Wp (k r) g' Q :=
  rfl

/- The rule of consequence. -/
theorem Wp.mono
    {P : Protocol Op Resp Root G}
    {p : Prog Op Resp α}
    {g : G}
    {Q R : α → G → Prop}
    (hWp : P.Wp p g Q)
    (hQR : ∀ a g, Q a g → R a g) :
    P.Wp p g R := by
  induction p generalizing g with
  | done a => exact hQR a g hWp
  | crash => exact hWp
  | act op k ih =>
      intro r
      rcases hWp r with ⟨g', hMove, hRest⟩
      exact ⟨g', hMove, ih r hRest⟩

/- The rule of sequencing. -/
theorem wp_bind
    (P : Protocol Op Resp Root G)
    (p : Prog Op Resp α)
    (f : α → Prog Op Resp β)
    (g : G)
    (Q : β → G → Prop) :
    P.Wp (p >>= f) g Q ↔
      P.Wp p g fun a g' => P.Wp (f a) g' Q := by
  induction p generalizing g with
  | done a => exact Iff.rfl
  | crash => exact Iff.rfl
  | act op k ih =>
      simp only [Prog.act_bind, wp_act]
      constructor
      · intro hWp r
        rcases hWp r with ⟨g', hMove, hRest⟩
        exact ⟨g', hMove, (ih r g').mp hRest⟩
      · intro hWp r
        rcases hWp r with ⟨g', hMove, hRest⟩
        exact ⟨g', hMove, (ih r g').mpr hRest⟩

/- Sequencing through a known postcondition of the first part. -/
theorem Wp.bind
    {P : Protocol Op Resp Root G}
    {p : Prog Op Resp α}
    {f : α → Prog Op Resp β}
    {g : G}
    {Q : α → G → Prop}
    {R : β → G → Prop}
    (hFirst : P.Wp p g Q)
    (hRest : ∀ a g', Q a g' → P.Wp (f a) g' R) :
    P.Wp (p >>= f) g R :=
  (wp_bind P p f g R).mpr (hFirst.mono hRest)

/- What executes only operations that keep a phase stays in it. -/
theorem Wp.of_always
    {P : Protocol Op Resp Root G}
    {p : Prog Op Resp α}
    {g : G}
    {Q : Op → Prop}
    (hAlways : p.Always Q)
    (hKeeps : ∀ op r, Q op → P.move g op r g)
    (hCrash : P.crash g) :
    P.Wp p g (fun _ g' => g' = g) := by
  induction p with
  | done a => exact rfl
  | crash => exact hCrash
  | act op k ih =>
      intro r
      refine ⟨g, hKeeps op r (hAlways op (.inl rfl)), ?_⟩
      exact ih r fun op' hLater => hAlways op' (.inr ⟨r, hLater⟩)

/- What is left of a program, from phases it cannot leave. -/
theorem Wp.after
    {P : Protocol Op Resp Root G}
    {T : G → Prop}
    {p q : Prog Op Resp α}
    {g : G}
    {h : List (Prog.Call Op Resp)}
    {Q : α → G → Prop}
    (hTrap : ∀ g op r g', T g → P.move g op r g' → T g')
    (hIn : T g)
    (hWp : P.Wp p g Q)
    (hAfter : p.After h q) :
    ∃ g', T g' ∧ P.Wp q g' Q := by
  induction hAfter generalizing g with
  | refl => exact ⟨g, hIn, hWp⟩
  | @call op k r h q _ ih =>
      rcases hWp r with ⟨g', hMove, hRest⟩
      exact ih (hTrap _ _ _ _ hIn hMove) hRest

/- Where the protocol has no move left, a program has returned. -/
theorem Wp.done_of_stuck
    {P : Protocol Op Resp Root G}
    {p : Prog Op Resp α}
    {g : G}
    {Q : α → G → Prop}
    (hResp : ∀ op, Nonempty (Resp op))
    (hNoMove : ∀ op r g', ¬P.move g op r g')
    (hNoCrash : ¬P.crash g)
    (hWp : P.Wp p g Q) :
    ∃ a, p = .done a ∧ Q a g := by
  cases p with
  | done a => exact ⟨a, rfl, hWp⟩
  | crash => exact absurd hWp hNoCrash
  | act op k =>
      rcases hResp op with ⟨r⟩
      rcases hWp r with ⟨g', hMove, _⟩
      exact absurd hMove (hNoMove op r g')

/- The protocol that moreover stays inside `Inv`. -/
def within
    (P : Protocol Op Resp Root G)
    (Inv : G → Prop) : Protocol Op Resp Root G where
  start := P.start
  move := fun g op r g' => P.move g op r g' ∧ Inv g'
  crash := P.crash

/-
  The rule for a deadline: inside the deadline the program
  keeps `Inv`, and the timer may fire in any phase of `Inv`.
-/
theorem Wp.timeout
    {P : Protocol Op Resp Root G}
    (Inv : G → Prop)
    {isAwait : Op → Bool}
    {timer : Op}
    {fired : Resp timer → Bool}
    {p : Prog Op Resp α}
    {g : G}
    {Q : Option α → G → Prop}
    (hInv : Inv g)
    (hFired :
      ∀ g t, Inv g → fired t = true →
        ∃ g', P.move g timer t g' ∧ Q none g')
    (hNotFired :
      ∀ g t, Inv g → fired t = false → P.move g timer t g)
    (hWp :
      (P.within Inv).Wp p g fun a g' => Inv g' → Q (some a) g') :
    P.Wp (p.timeout isAwait timer fired) g Q := by
  induction p generalizing g with
  | done a => exact hWp hInv
  | crash => exact hWp
  | act op k ih =>
      intro r
      rcases hWp r with ⟨g', ⟨hMove, hInv'⟩, hRest⟩
      refine ⟨g', hMove, ?_⟩
      have hGo := ih r hInv' hRest
      cases isAwait op with
      | false => exact hGo
      | true =>
          intro t
          cases hT : fired t with
          | true =>
              simp only [hT, if_true, wp_done]
              exact hFired g' t hInv' hT
          | false =>
              simp only [hT]
              exact ⟨g', hNotFired g' t hInv' hT, hGo⟩

------------------------------------------------------------
-- Runs as the Protocol Allows
------------------------------------------------------------

/- The shadow of a task that starts at `root`. -/
def startShadow
    (P : Protocol Op Resp Root G)
    (root : Root) : Shadow Root G :=
  ⟨root, some (P.start root)⟩

/- Every program of the machine follows the protocol. -/
def Follows
    (P : Protocol Op Resp Root G)
    (M : Machine Op Resp Env Ext σ Root Ret)
    (final : Ret → G → Prop) : Prop :=
  ∀ root, P.Wp (M.body root) (P.start root) final

/- A task conforms to its shadow. -/
def Tracks
    (P : Protocol Op Resp Root G)
    (final : Ret → G → Prop)
    (t : Task Op Resp Root Ret)
    (sh : Shadow Root G) : Prop :=
  t.root = sh.root ∧
    match t.prog, sh.phase with
    | some p, some g => P.Wp p g final
    | none, none => True
    | _, _ => False

/- Drop the shadow if the outside event kills its task. -/
def surviveShadow
    (M : Machine Op Resp Env Ext σ Root Ret)
    (e : Ext)
    (tid : Nat)
    (sh : Shadow Root G) : Shadow Root G :=
  if M.kills e tid sh.root then ⟨sh.root, none⟩ else sh

/-
  One step the protocol allows: any operation it has a move
  for, with any outcome the machine gives it.
-/
inductive ShadowStep
    (P : Protocol Op Resp Root G)
    (M : Machine Op Resp Env Ext σ Root Ret) :
    σ → List (Shadow Root G) → Event Op Resp Env Ext →
      σ → List (Shadow Root G) → Prop
  | op
      {s s' : σ}
      {shs : List (Shadow Root G)}
      {tid : Nat}
      {root : Root}
      {g g' : G}
      {op : Op}
      {env : Env}
      {r : Resp op}
      (hPhase : shs[tid]? = some ⟨root, some g⟩)
      (hMove : P.move g op r g')
      (hExec : M.exec op env s = some (r, s')) :
      ShadowStep P M s shs (.op tid op env r) s'
        (shs.set tid ⟨root, some g'⟩ ++
          (M.opRoots op).map P.startShadow)
  | ext
      {s s' : σ}
      {shs : List (Shadow Root G)}
      {e : Ext}
      (hExt : M.ext e s = some s') :
      ShadowStep P M s shs (.ext e) s'
        (shs.mapIdx (surviveShadow M e) ++
          (M.extRoots e).map P.startShadow)

/- The runs the protocol allows, with their trace. -/
inductive ShadowRun
    (P : Protocol Op Resp Root G)
    (M : Machine Op Resp Env Ext σ Root Ret)
    (C : Machine.StepCond Op Resp Env Ext σ)
    (s₀ : σ) :
    List (Event Op Resp Env Ext) →
      σ → List (Shadow Root G) → Prop
  | nil : ShadowRun P M C s₀ [] s₀ []
  | snoc
      {tr : List (Event Op Resp Env Ext)}
      {s s' : σ}
      {shs shs' : List (Shadow Root G)}
      {e : Event Op Resp Env Ext}
      (hRun : ShadowRun P M C s₀ tr s shs)
      (hCond : C tr s e)
      (hStep : ShadowStep P M s shs e s' shs') :
      ShadowRun P M C s₀ (tr ++ [e]) s' shs'

/- Tracking survives one operation of the task at `tid`. -/
private theorem forall₂_set
    {R : Task Op Resp Root Ret → Shadow Root G → Prop}
    {ts : List (Task Op Resp Root Ret)}
    {shs : List (Shadow Root G)}
    {t : Task Op Resp Root Ret}
    {sh : Shadow Root G}
    (hAll : List.Forall₂ R ts shs)
    (tid : Nat)
    (hNew : R t sh) :
    List.Forall₂ R (ts.set tid t) (shs.set tid sh) := by
  induction hAll generalizing tid with
  | nil => simp
  | cons hHead hTail ih =>
      cases tid with
      | zero => exact .cons hNew hTail
      | succ tid => exact .cons hHead (ih tid)

/- The shadow at a number tracks the task at that number. -/
private theorem forall₂_getElem?
    {R : Task Op Resp Root Ret → Shadow Root G → Prop}
    {ts : List (Task Op Resp Root Ret)}
    {shs : List (Shadow Root G)}
    (hAll : List.Forall₂ R ts shs)
    {tid : Nat}
    {t : Task Op Resp Root Ret}
    (hTask : ts[tid]? = some t) :
    ∃ sh, shs[tid]? = some sh ∧ R t sh := by
  induction hAll generalizing tid with
  | nil => simp at hTask
  | cons hHead hTail ih =>
      cases tid with
      | zero =>
          simp only [List.getElem?_cons_zero, Option.some.injEq]
            at hTask
          subst hTask
          exact ⟨_, rfl, hHead⟩
      | succ tid => exact ih (by simpa using hTask)

/- Tracking survives an outside event. -/
private theorem forall₂_mapIdx
    {R : Task Op Resp Root Ret → Shadow Root G → Prop}
    {ts : List (Task Op Resp Root Ret)}
    {shs : List (Shadow Root G)}
    (hAll : List.Forall₂ R ts shs)
    {f : Nat → Task Op Resp Root Ret → Task Op Resp Root Ret}
    {h : Nat → Shadow Root G → Shadow Root G}
    (hMap : ∀ i t sh, R t sh → R (f i t) (h i sh)) :
    List.Forall₂ R (ts.mapIdx f) (shs.mapIdx h) := by
  induction hAll generalizing f h with
  | nil => simp
  | cons hHead hTail ih =>
      simp only [List.mapIdx_cons]
      exact .cons (hMap 0 _ _ hHead)
        (ih fun i t sh => hMap (i + 1) t sh)

/- New tasks are tracked by their starting shadows. -/
private theorem forall₂_start
    {P : Protocol Op Resp Root G}
    {M : Machine Op Resp Env Ext σ Root Ret}
    {final : Ret → G → Prop}
    (hFollows : P.Follows M final)
    (roots : List Root) :
    List.Forall₂ (P.Tracks final) (roots.map M.start)
      (roots.map P.startShadow) := by
  induction roots with
  | nil => exact .nil
  | cons root roots ih =>
      exact .cons ⟨rfl, hFollows root⟩ ih

/- A run, and what the protocol sees of it. -/
inductive TrackedRun
    (P : Protocol Op Resp Root G)
    (M : Machine Op Resp Env Ext σ Root Ret)
    (final : Ret → G → Prop)
    (C : Machine.StepCond Op Resp Env Ext σ)
    (s₀ : σ) :
    List (Event Op Resp Env Ext) →
      Config Op Resp σ Root Ret → List (Shadow Root G) → Prop
  | nil : TrackedRun P M final C s₀ [] ⟨s₀, []⟩ []
  | snoc
      {tr : List (Event Op Resp Env Ext)}
      {c c' : Config Op Resp σ Root Ret}
      {shs shs' : List (Shadow Root G)}
      {e : Event Op Resp Env Ext}
      (hRun : TrackedRun P M final C s₀ tr c shs)
      (hCond : C tr c.state e)
      (hStep : Machine.Step M c e c')
      (hShadow : ShadowStep P M c.state shs e c'.state shs')
      (hTracks : List.Forall₂ (P.Tracks final) c'.tasks shs') :
      TrackedRun P M final C s₀ (tr ++ [e]) c' shs'

section Tracked

variable {P : Protocol Op Resp Root G}
variable {M : Machine Op Resp Env Ext σ Root Ret}
variable {final : Ret → G → Prop}
variable {C : Machine.StepCond Op Resp Env Ext σ}
variable {s₀ : σ}
variable {tr : List (Event Op Resp Env Ext)}
variable {c : Config Op Resp σ Root Ret}
variable {shs : List (Shadow Root G)}

theorem TrackedRun.run
    (hRun : P.TrackedRun M final C s₀ tr c shs) :
    Machine.Run M C s₀ tr c := by
  induction hRun with
  | nil => exact .nil
  | snoc _ hCond hStep _ _ ih => exact .snoc ih hCond hStep

theorem TrackedRun.shadowRun
    (hRun : P.TrackedRun M final C s₀ tr c shs) :
    P.ShadowRun M C s₀ tr c.state shs := by
  induction hRun with
  | nil => exact .nil
  | snoc _ hCond _ hShadow _ ih => exact .snoc ih hCond hShadow

theorem TrackedRun.tracks
    (hRun : P.TrackedRun M final C s₀ tr c shs) :
    List.Forall₂ (P.Tracks final) c.tasks shs := by
  cases hRun with
  | nil => exact .nil
  | snoc _ _ _ _ hTracks => exact hTracks

/- Every task of a tracked run has its shadow. -/
theorem TrackedRun.shadow_of_task
    {tid : Nat}
    {t : Task Op Resp Root Ret}
    (hRun : P.TrackedRun M final C s₀ tr c shs)
    (hTask : c.tasks[tid]? = some t) :
    ∃ sh, shs[tid]? = some sh ∧ P.Tracks final t sh :=
  forall₂_getElem? hRun.tracks hTask

/- Every shadow of a tracked run is that of a task. -/
theorem TrackedRun.task_of_shadow
    {tid : Nat}
    {sh : Shadow Root G}
    (hRun : P.TrackedRun M final C s₀ tr c shs)
    (hAt : shs[tid]? = some sh) :
    ∃ t, c.tasks[tid]? = some t ∧ P.Tracks final t sh := by
  have hLt : tid < c.tasks.length := by
    rw [hRun.tracks.length_eq]
    exact (List.getElem?_eq_some_iff.mp hAt).1
  have hTask := List.getElem?_eq_getElem hLt
  rcases hRun.shadow_of_task hTask with ⟨sh', hAt', hTracks⟩
  rw [hAt] at hAt'
  cases hAt'
  exact ⟨_, hTask, hTracks⟩

/-
  A machine whose programs follow a protocol runs only as
  the protocol allows, and its tasks conform to their
  shadows.
-/
theorem trackedRun_of_run
    (hFollows : P.Follows M final)
    (hRun : Machine.Run M C s₀ tr c) :
    ∃ shs, P.TrackedRun M final C s₀ tr c shs := by
  induction hRun with
  | nil => exact ⟨[], .nil⟩
  | snoc hRun hCond hStep ih =>
      rcases ih with ⟨shs, hTracked⟩
      have hTracks := hTracked.tracks
      cases hStep with
      | @op s s' tasks tid root op k env r hTask hExec =>
          rcases forall₂_getElem? hTracks hTask with
            ⟨⟨root', phase⟩, hAt, hRoot, hPhase⟩
          dsimp only at hRoot hPhase
          subst hRoot
          cases phase with
          | none => exact hPhase.elim
          | some g =>
              rcases hPhase r with ⟨g', hMove, hRest⟩
              refine ⟨_, .snoc hTracked hCond (.op hTask hExec)
                (.op hAt hMove hExec) ?_⟩
              exact List.rel_append
                (forall₂_set hTracks tid ⟨rfl, hRest⟩)
                (forall₂_start hFollows _)
      | @ext s s' tasks e hExt =>
          refine ⟨_, .snoc hTracked hCond (.ext hExt) (.ext hExt) ?_⟩
          refine List.rel_append ?_ (forall₂_start hFollows _)
          apply forall₂_mapIdx hTracks
          rintro i ⟨root, prog⟩ ⟨root', phase⟩ ⟨hRoot, hPhase⟩
          dsimp only at hRoot hPhase
          subst hRoot
          simp only [Machine.survive, surviveShadow]
          split
          · exact ⟨rfl, trivial⟩
          · exact ⟨rfl, hPhase⟩

/- The protocol's view alone. -/
theorem shadowRun_of_run
    (hFollows : P.Follows M final)
    (hRun : Machine.Run M C s₀ tr c) :
    ∃ shs, P.ShadowRun M C s₀ tr c.state shs := by
  rcases trackedRun_of_run hFollows hRun with ⟨shs, hTracked⟩
  exact ⟨shs, hTracked.shadowRun⟩

end Tracked

/- A step keeps the shadows in place and appends the new ones. -/
theorem ShadowStep.roots_eq
    {P : Protocol Op Resp Root G}
    {M : Machine Op Resp Env Ext σ Root Ret}
    {s s' : σ}
    {shs shs' : List (Shadow Root G)}
    {e : Event Op Resp Env Ext}
    (hStep : P.ShadowStep M s shs e s' shs') :
    shs'.map Shadow.root = shs.map Shadow.root ++ M.roots e := by
  cases hStep with
  | @op _ _ tid root _ _ _ _ _ hPhase _ _ =>
      have hSet :
          (shs.map Shadow.root).set tid root =
            shs.map Shadow.root := by
        apply Machine.set_eq_self_of_getElem?
        simp [hPhase]
      simp [List.map_set, hSet, startShadow, Machine.roots,
        Function.comp_def]
  | @ext _ _ e hExt =>
      have hSurvive :
          (shs.mapIdx (surviveShadow M e)).map Shadow.root =
            shs.map Shadow.root := by
        apply List.ext_getElem?
        intro i
        simp only [List.getElem?_map, List.getElem?_mapIdx]
        cases shs[i]? with
        | none => rfl
        | some sh =>
            simp only [Option.map_some, surviveShadow]
            split <;> rfl
      simp [hSurvive, startShadow, Machine.roots,
        Function.comp_def]

/- The shadows of a run start where its trace says. -/
theorem ShadowRun.roots_eq
    {P : Protocol Op Resp Root G}
    {M : Machine Op Resp Env Ext σ Root Ret}
    {C : Machine.StepCond Op Resp Env Ext σ}
    {s₀ s : σ}
    {tr : List (Event Op Resp Env Ext)}
    {shs : List (Shadow Root G)}
    (hRun : P.ShadowRun M C s₀ tr s shs) :
    shs.map Shadow.root = M.rootsIn tr := by
  induction hRun with
  | nil => rfl
  | snoc _ _ hStep ih => simp [hStep.roots_eq, ih]

/- Where a task of a run started, by any longer trace. -/
theorem ShadowRun.root_at
    {P : Protocol Op Resp Root G}
    {M : Machine Op Resp Env Ext σ Root Ret}
    {C : Machine.StepCond Op Resp Env Ext σ}
    {s₀ s : σ}
    {tr : List (Event Op Resp Env Ext)}
    {shs : List (Shadow Root G)}
    {tid : Nat}
    {sh : Shadow Root G}
    (tr' : List (Event Op Resp Env Ext))
    (hRun : P.ShadowRun M C s₀ tr s shs)
    (hAt : shs[tid]? = some sh) :
    (M.rootsIn (tr ++ tr'))[tid]? = some sh.root := by
  have hRoot : (M.rootsIn tr)[tid]? = some sh.root := by
    rw [← hRun.roots_eq, List.getElem?_map, hAt]
    rfl
  exact M.root_append hRoot tr'

end Protocol

end Interleaving
