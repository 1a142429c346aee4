import Mathlib.Data.List.Perm.Basic
import Pumpy.Interleaving.Protocol

/-
  This file defines what the tasks of a run hold: a token each
  phase may carry.  Tokens that no two tasks may carry at once
  are counted over all tasks, and the rules below say how one
  step changes that count.  It also gives the induction rules
  for invariants of a single task and for the moment an event
  of the trace happened.

  Key definitions include:
    * `Protocol.held`

  Rules are:
    * `Protocol.exists_held_set`
    * `Protocol.ShadowStep.phase_next`
    * `Protocol.ShadowStep.phase_before`
    * `Protocol.ShadowRun.local_invariant`
    * `Protocol.ShadowRun.at_event`
    * `Protocol.ShadowRun.since`
    * `Protocol.TrackedRun.at_event`
    * `Protocol.TrackedRun.since`
-/

------------------------------------------------------------
-- Tokens
------------------------------------------------------------

namespace Interleaving

namespace Protocol

variable {Op : Type} {Resp : Op → Type}
variable {Root G Env Ext σ Ret β : Type}

/- The tokens the tasks hold, in the order of the tasks. -/
def held
    (f : G → Option β)
    (shs : List (Shadow Root G)) : List β :=
  shs.filterMap fun sh => sh.phase.bind f

@[simp] theorem held_nil
    (f : G → Option β) :
    held f ([] : List (Shadow Root G)) = [] :=
  rfl

@[simp] theorem held_append
    (f : G → Option β)
    (shs shs' : List (Shadow Root G)) :
    held f (shs ++ shs') = held f shs ++ held f shs' :=
  List.filterMap_append

/- A token is held by some task. -/
theorem mem_held
    {f : G → Option β}
    {shs : List (Shadow Root G)}
    {b : β} :
    b ∈ held f shs ↔
      ∃ (tid : Nat) (root : Root) (g : G),
        shs[tid]? = some ⟨root, some g⟩ ∧ f g = some b := by
  constructor
  · intro hMem
    rcases List.mem_filterMap.mp hMem with ⟨⟨root, phase⟩, hSh, hTok⟩
    rcases List.getElem?_of_mem hSh with ⟨tid, hAt⟩
    cases phase with
    | none => cases hTok
    | some g => exact ⟨tid, root, g, hAt, hTok⟩
  · rintro ⟨tid, root, g, hAt, hTok⟩
    exact List.mem_filterMap.mpr
      ⟨_, List.mem_of_getElem? hAt, hTok⟩

/-
  The tokens before and after one task changes its phase: the
  others hold `rest` in both.
-/
theorem exists_held_set
    {f : G → Option β}
    {shs : List (Shadow Root G)}
    {tid : Nat}
    {root : Root}
    {g : G}
    (g' : G)
    (hAt : shs[tid]? = some ⟨root, some g⟩) :
    ∃ rest,
      (held f shs).Perm ((f g).toList ++ rest) ∧
      (held f (shs.set tid ⟨root, some g'⟩)).Perm
        ((f g').toList ++ rest) := by
  induction shs generalizing tid with
  | nil => simp at hAt
  | cons sh shs ih =>
      cases tid with
      | zero =>
          simp only [List.getElem?_cons_zero, Option.some.injEq]
            at hAt
          subst hAt
          refine ⟨held f shs, ?_, ?_⟩
          · cases hTok : f g <;> simp [held, hTok]
          · cases hTok : f g' <;> simp [held, hTok]
      | succ tid =>
          rcases ih (by simpa using hAt) with ⟨rest, hOld, hNew⟩
          refine ⟨(sh.phase.bind f).toList ++ rest, ?_, ?_⟩
          · have hSplit :
                held f (sh :: shs) =
                  (sh.phase.bind f).toList ++ held f shs := by
              cases hTok : sh.phase.bind f <;> simp [held, hTok]
            rw [hSplit]
            exact (hOld.append_left _).trans
              (by simpa using List.perm_append_comm_assoc _ _ _)
          · have hSplit :
                held f ((sh :: shs).set (tid + 1) ⟨root, some g'⟩) =
                  (sh.phase.bind f).toList ++
                    held f (shs.set tid ⟨root, some g'⟩) := by
              cases hTok : sh.phase.bind f <;> simp [held, hTok]
            rw [hSplit]
            exact (hNew.append_left _).trans
              (by simpa using List.perm_append_comm_assoc _ _ _)

/- Tokens that are also tokens of another kind. -/
theorem held_sublist
    {f h : G → Option β}
    (hLe : ∀ g b, f g = some b → h g = some b)
    (shs : List (Shadow Root G)) :
    (held f shs).Sublist (held h shs) := by
  induction shs with
  | nil => exact .refl _
  | cons sh shs ih =>
      unfold held at ih ⊢
      rw [List.filterMap_cons, List.filterMap_cons]
      cases hTok : sh.phase.bind f with
      | none =>
          dsimp only
          split
          · exact ih
          · exact ih.cons _
      | some b =>
          have hAlso : sh.phase.bind h = some b := by
            rcases Option.bind_eq_some_iff.mp hTok with ⟨g, hPhase, hG⟩
            exact Option.bind_eq_some_iff.mpr ⟨g, hPhase, hLe g b hG⟩
          rw [hAlso]
          exact ih.cons_cons b

/- If no token is held twice, a token names its holder. -/
theorem holder_unique
    {f : G → Option β}
    {shs : List (Shadow Root G)}
    {tid tid' : Nat}
    {root root' : Root}
    {g g' : G}
    {b : β}
    (hNodup : (held f shs).Nodup)
    (hAt : shs[tid]? = some ⟨root, some g⟩)
    (hAt' : shs[tid']? = some ⟨root', some g'⟩)
    (hTok : f g = some b)
    (hTok' : f g' = some b) :
    tid = tid' := by
  induction shs generalizing tid tid' with
  | nil => simp at hAt
  | cons sh shs ih =>
      have hTail : (held f shs).Nodup :=
        hNodup.sublist (by
          cases hHead : sh.phase.bind f <;> simp [held, hHead])
      cases tid with
      | zero =>
          cases tid' with
          | zero => rfl
          | succ tid' =>
              have hHead : sh = ⟨root, some g⟩ := by simpa using hAt
              have hMem : b ∈ held f shs :=
                mem_held.mpr ⟨tid', root', g', by simpa using hAt', hTok'⟩
              subst hHead
              simp [held, hTok] at hNodup
              exact absurd hMem (by simpa [held] using hNodup.1)
      | succ tid =>
          cases tid' with
          | zero =>
              have hHead : sh = ⟨root', some g'⟩ := by simpa using hAt'
              have hMem : b ∈ held f shs :=
                mem_held.mpr ⟨tid, root, g, by simpa using hAt, hTok⟩
              subst hHead
              simp [held, hTok'] at hNodup
              exact absurd hMem (by simpa [held] using hNodup.1)
          | succ tid' =>
              have hSame : tid = tid' :=
                ih hTail (by simpa using hAt) (by simpa using hAt')
              rw [hSame]

/- An outside event that kills no task leaves the shadows alone. -/
theorem mapIdx_survive_of_spares
    {M : Machine Op Resp Env Ext σ Root Ret}
    {e : Ext}
    (hSpares : ∀ tid root, M.kills e tid root = false)
    (shs : List (Shadow Root G)) :
    shs.mapIdx (surviveShadow M e) = shs := by
  apply List.ext_getElem?
  intro i
  rw [List.getElem?_mapIdx]
  cases shs[i]? with
  | none => rfl
  | some sh => simp [surviveShadow, hSpares]

/- An outside event that kills every task leaves no tokens. -/
theorem held_survive_of_kills
    {M : Machine Op Resp Env Ext σ Root Ret}
    {e : Ext}
    (hKills : ∀ tid root, M.kills e tid root = true)
    (f : G → Option β)
    (shs : List (Shadow Root G)) :
    held f (shs.mapIdx (surviveShadow M e)) = [] := by
  apply List.filterMap_eq_nil_iff.mpr
  intro sh hMem
  rcases List.mem_mapIdx.mp hMem with ⟨i, hLt, rfl⟩
  simp [surviveShadow, hKills]

/- An outside event adds no token to those the tasks hold. -/
theorem held_survive_sublist
    (M : Machine Op Resp Env Ext σ Root Ret)
    (e : Ext)
    (f : G → Option β)
    (shs : List (Shadow Root G)) :
    (held f (shs.mapIdx (surviveShadow M e))).Sublist (held f shs) := by
  have hAny :
      ∀ h : Nat → Shadow Root G → Shadow Root G,
        (∀ i sh, h i sh = sh ∨ (h i sh).phase = none) →
          (held f (shs.mapIdx h)).Sublist (held f shs) := by
    induction shs with
    | nil => exact fun _ _ => .refl _
    | cons sh shs ih =>
        intro h hSpares
        have hTail := ih (fun i => h (i + 1)) fun i => hSpares (i + 1)
        rw [List.mapIdx_cons]
        unfold held at hTail ⊢
        rcases hSpares 0 sh with hSame | hNone
        · rw [List.filterMap_cons, List.filterMap_cons, hSame]
          split
          · exact hTail
          · exact hTail.cons_cons _
        · rw [List.filterMap_cons_none (by rw [hNone]; rfl)]
          exact hTail.trans ((List.sublist_cons_self sh shs).filterMap _)
  refine hAny _ fun i sh => ?_
  unfold surviveShadow
  split
  · exact .inr rfl
  · exact .inl rfl

------------------------------------------------------------
-- Single Tasks
------------------------------------------------------------

/- The task a shadow list names after an outside event. -/
theorem getElem?_survive_append
    {M : Machine Op Resp Env Ext σ Root Ret}
    {e : Ext}
    {shs new : List (Shadow Root G)}
    {tid : Nat}
    {root : Root}
    {g : G}
    (hAt :
      (shs.mapIdx (surviveShadow M e) ++ new)[tid]? =
        some ⟨root, some g⟩) :
    shs[tid]? = some ⟨root, some g⟩ ∨
      (shs.length ≤ tid ∧ ⟨root, some g⟩ ∈ new) := by
  by_cases hLt : tid < shs.length
  · rw [List.getElem?_append_left (by simpa using hLt),
      List.getElem?_mapIdx] at hAt
    left
    cases hSh : shs[tid]? with
    | none => simp [hSh] at hAt
    | some sh =>
        simp only [hSh, Option.map_some, Option.some.injEq] at hAt
        unfold surviveShadow at hAt
        split at hAt
        · cases hAt
        · rw [hAt]
  · have hLe : shs.length ≤ tid := Nat.le_of_not_lt hLt
    rw [List.getElem?_append_right (by simpa using hLe)] at hAt
    exact .inr ⟨hLe, List.mem_of_getElem? hAt⟩

variable {P : Protocol Op Resp Root G}
variable {M : Machine Op Resp Env Ext σ Root Ret}
variable {C : Machine.StepCond Op Resp Env Ext σ}
variable {s₀ s : σ}
variable {tr : List (Event Op Resp Env Ext)}
variable {shs : List (Shadow Root G)}

/- What a step does to one task that is still there. -/
theorem ShadowStep.phase_next
    {s s' : σ}
    {shs shs' : List (Shadow Root G)}
    {e : Event Op Resp Env Ext}
    {tid : Nat}
    {root : Root}
    {g : G}
    (hStep : P.ShadowStep M s shs e s' shs')
    (hAt : shs[tid]? = some ⟨root, some g⟩) :
    shs'[tid]? = some ⟨root, some g⟩ ∨
      (∃ op env r g',
        e = .op tid op env r ∧ P.move g op r g' ∧
          M.exec op env s = some (r, s') ∧
            shs'[tid]? = some ⟨root, some g'⟩) ∨
        ∃ ext, e = .ext ext ∧ M.kills ext tid root = true := by
  have hLt := (List.getElem?_eq_some_iff.mp hAt).1
  cases hStep with
  | @op _ _ tid' root' g₁ g' op env r hPhase hMove hExec =>
      rw [List.getElem?_append_left (by simpa using hLt)]
      by_cases hSame : tid' = tid
      · subst hSame
        rw [hAt] at hPhase
        cases hPhase
        exact .inr (.inl ⟨op, env, r, g', rfl, hMove, hExec,
          List.getElem?_set_self hLt⟩)
      · rw [List.getElem?_set_ne hSame]
        exact .inl hAt
  | @ext _ _ ext hExt =>
      by_cases hKills : M.kills ext tid root = true
      · exact .inr (.inr ⟨ext, rfl, hKills⟩)
      · rw [List.getElem?_append_left (by simpa using hLt),
          List.getElem?_mapIdx, hAt]
        left
        simp [surviveShadow, hKills]

/- Where the phase of a task after a step comes from. -/
theorem ShadowStep.phase_before
    {s s' : σ}
    {shs shs' : List (Shadow Root G)}
    {e : Event Op Resp Env Ext}
    {tid : Nat}
    {root : Root}
    {g' : G}
    (hStep : P.ShadowStep M s shs e s' shs')
    (hAt : shs'[tid]? = some ⟨root, some g'⟩) :
    shs[tid]? = some ⟨root, some g'⟩ ∨
      (∃ op env r g,
        e = .op tid op env r ∧ P.move g op r g' ∧
          M.exec op env s = some (r, s') ∧
            shs[tid]? = some ⟨root, some g⟩) ∨
        g' = P.start root := by
  cases hStep with
  | @op _ _ tid' root' g₁ g₂ op env r hPhase hMove hExec =>
      rcases Machine.getElem?_set_append hAt with
        ⟨rfl, hEq⟩ | ⟨_, hOld⟩ | ⟨_, hNew⟩
      · cases hEq
        exact .inr (.inl ⟨op, env, r, g₁, rfl, hMove, hExec, hPhase⟩)
      · exact .inl hOld
      · rcases List.mem_map.mp hNew with ⟨root₁, _, hEq⟩
        cases hEq
        exact .inr (.inr rfl)
  | ext hExt =>
      rcases getElem?_survive_append hAt with hOld | ⟨_, hNew⟩
      · exact .inl hOld
      · rcases List.mem_map.mp hNew with ⟨root₁, _, hEq⟩
        cases hEq
        exact .inr (.inr rfl)

/- Only tasks that have been started execute operations. -/
theorem ShadowRun.tid_lt
    (hRun : P.ShadowRun M C s₀ tr s shs)
    {tid : Nat}
    {op : Op}
    {env : Env}
    {r : Resp op}
    (hMem : .op tid op env r ∈ tr) :
    tid < shs.length := by
  induction hRun with
  | nil => simp at hMem
  | snoc hRun hCond hStep ih =>
      cases hStep with
      | op hPhase hMove hExec =>
          rw [List.length_append, List.length_set]
          rcases List.mem_append.mp hMem with hOld | hNew
          · exact Nat.lt_add_right _ (ih hOld)
          · cases List.mem_singleton.mp hNew
            exact Nat.lt_add_right _
              (List.getElem?_eq_some_iff.mp hPhase).1
      | ext hExt =>
          rw [List.length_append, List.length_mapIdx]
          rcases List.mem_append.mp hMem with hOld | hNew
          · exact Nat.lt_add_right _ (ih hOld)
          · cases List.mem_singleton.mp hNew

/-
  The rule for an invariant of one task: it holds where tasks
  start, the task's own moves keep it, and nothing another
  task or the outside world does can break it.
-/
theorem ShadowRun.local_invariant
    (L : List (Event Op Resp Env Ext) → Nat → Root → G → Prop)
    (hStart :
      ∀ tr tid root,
        (∀ op env r, .op tid op env r ∉ tr) →
          L tr tid root (P.start root))
    (hMove :
      ∀ tr s s' shs tid root g op env r g',
        P.ShadowRun M C s₀ tr s shs → C tr s (.op tid op env r) →
          shs[tid]? = some ⟨root, some g⟩ →
            M.exec op env s = some (r, s') →
              L tr tid root g → P.move g op r g' →
                L (tr ++ [.op tid op env r]) tid root g')
    (hOther :
      ∀ tr s shs tid root g e,
        P.ShadowRun M C s₀ tr s shs →
          shs[tid]? = some ⟨root, some g⟩ →
            L tr tid root g →
              (∀ op env r, e ≠ .op tid op env r) →
                L (tr ++ [e]) tid root g)
    (hRun : P.ShadowRun M C s₀ tr s shs)
    {tid : Nat}
    {root : Root}
    {g : G}
    (hAt : shs[tid]? = some ⟨root, some g⟩) :
    L tr tid root g := by
  induction hRun generalizing tid root g with
  | nil => simp at hAt
  | @snoc tr s s' shs shs' e hRun hCond hStep ih =>
      cases hStep with
      | op hPhase hMove' hExec =>
          rcases Machine.getElem?_set_append hAt with
            ⟨rfl, hEq⟩ | ⟨hNe, hOld⟩ | ⟨hLe, hNew⟩
          · cases hEq
            exact hMove _ _ _ _ _ _ _ _ _ _ _ hRun hCond hPhase hExec
              (ih hPhase) hMove'
          · refine hOther _ _ _ _ _ _ _ hRun hOld (ih hOld)
              fun op' env' r' hEq => ?_
            cases hEq
            exact hNe rfl
          · rcases List.mem_map.mp hNew with ⟨root', _, hEq⟩
            cases hEq
            refine hStart _ _ _ fun op' env' r' hMem => ?_
            rcases List.mem_append.mp hMem with hOld | hLast
            · exact Nat.not_lt.mpr hLe (hRun.tid_lt hOld)
            · cases List.mem_singleton.mp hLast
              exact Nat.not_lt.mpr hLe
                (List.getElem?_eq_some_iff.mp hPhase).1
      | ext hExt =>
          rcases getElem?_survive_append hAt with
            hOld | ⟨hLe, hNew⟩
          · refine hOther _ _ _ _ _ _ _ hRun hOld (ih hOld)
              fun op' env' r' hEq => ?_
            cases hEq
          · rcases List.mem_map.mp hNew with ⟨root', _, hEq⟩
            cases hEq
            refine hStart _ _ _ fun op' env' r' hMem => ?_
            rcases List.mem_append.mp hMem with hOld | hLast
            · exact Nat.not_lt.mpr hLe (hRun.tid_lt hOld)
            · cases List.mem_singleton.mp hLast

------------------------------------------------------------
-- Events
------------------------------------------------------------

/- Where an element of a list stands once one more is appended. -/
theorem append_singleton_split
    {α : Type}
    {l pre post : List α}
    {a b : α}
    (hSplit : l ++ [a] = pre ++ b :: post) :
    (l = pre ∧ a = b ∧ post = []) ∨
      ∃ post', post = post' ++ [a] ∧ l = pre ++ b :: post' := by
  rcases List.eq_nil_or_concat post with hNil | ⟨post', a', hPost⟩
  · subst hNil
    rcases List.append_inj' hSplit rfl with ⟨hPre, hEq⟩
    exact .inl ⟨hPre, List.singleton_inj.mp hEq, rfl⟩
  · rw [hPost, List.concat_eq_append, ← List.cons_append,
      ← List.append_assoc] at hSplit
    rcases List.append_inj' hSplit rfl with ⟨hPre, hEq⟩
    have hLast : a = a' := List.singleton_inj.mp hEq
    subst hLast
    exact .inr ⟨post', by rw [hPost, List.concat_eq_append], hPre⟩

/- The last element with a property. -/
theorem exists_last
    {α : Type}
    {l : List α}
    {p : α → Prop}
    (hSome : ∃ a ∈ l, p a) :
    ∃ pre a post, l = pre ++ a :: post ∧ p a ∧ ∀ b ∈ post, ¬p b := by
  induction l with
  | nil =>
      rcases hSome with ⟨a, hMem, _⟩
      cases hMem
  | cons b l ih =>
      by_cases hLater : ∃ a ∈ l, p a
      · rcases ih hLater with ⟨pre, a, post, rfl, hLast⟩
        exact ⟨b :: pre, a, post, rfl, hLast⟩
      · rcases hSome with ⟨a, hMem, hHolds⟩
        rcases List.mem_cons.mp hMem with rfl | hOld
        · exact ⟨[], a, l, rfl, hHolds,
            fun c hIn hC => hLater ⟨c, hIn, hC⟩⟩
        · exact absurd ⟨a, hOld, hHolds⟩ hLater

/- Two elements of a list, in one order, the other, or the same. -/
theorem split_cases
    {α : Type}
    {pre post pre' post' : List α}
    {a a' : α}
    (hSplit : pre ++ a :: post = pre' ++ a' :: post') :
    (∃ mid, pre' = pre ++ a :: mid) ∨ (pre = pre' ∧ a = a') ∨
      ∃ mid, pre = pre' ++ a' :: mid := by
  rcases List.append_eq_append_iff.mp hSplit with
    ⟨mid, hLater, hRest⟩ | ⟨mid, hLater, hRest⟩
  · cases mid with
    | nil =>
        rcases List.cons.inj hRest with ⟨hHead, _⟩
        rw [List.append_nil] at hLater
        exact .inr (.inl ⟨hLater.symm, hHead⟩)
    | cons b mid =>
        rcases List.cons.inj hRest with ⟨hHead, _⟩
        exact .inl ⟨mid, by rw [hLater, hHead]⟩
  · cases mid with
    | nil =>
        rcases List.cons.inj hRest with ⟨hHead, _⟩
        rw [List.append_nil] at hLater
        exact .inr (.inl ⟨hLater, hHead.symm⟩)
    | cons b mid =>
        rcases List.cons.inj hRest with ⟨hHead, _⟩
        exact .inr (.inr ⟨mid, by rw [hLater, hHead]⟩)

/- A task that is dropped, or in phases it cannot leave, stays so. -/
theorem ShadowStep.trapped
    {T : G → Prop}
    {s s' : σ}
    {shs shs' : List (Shadow Root G)}
    {e : Event Op Resp Env Ext}
    {tid : Nat}
    (hTrap : ∀ g op r g', T g → P.move g op r g' → T g')
    (hStep : P.ShadowStep M s shs e s' shs')
    (hLt : tid < shs.length)
    (hIn : ∀ root g, shs[tid]? = some ⟨root, some g⟩ → T g) :
    tid < shs'.length ∧
      ∀ root g, shs'[tid]? = some ⟨root, some g⟩ → T g := by
  cases hStep with
  | @op _ _ tid' root g g' op env r hPhase hMove hExec =>
      constructor
      · rw [List.length_append, List.length_set]
        exact Nat.lt_add_right _ hLt
      · intro root₁ g₁ hAt
        rcases Machine.getElem?_set_append hAt with
          ⟨rfl, hEq⟩ | ⟨_, hOld⟩ | ⟨hLe, _⟩
        · cases hEq
          exact hTrap _ _ _ _ (hIn root g hPhase) hMove
        · exact hIn _ _ hOld
        · exact absurd hLt (Nat.not_lt.mpr hLe)
  | ext hExt =>
      constructor
      · rw [List.length_append, List.length_mapIdx]
        exact Nat.lt_add_right _ hLt
      · intro root₁ g₁ hAt
        rcases getElem?_survive_append hAt with hOld | ⟨hLe, _⟩
        · exact hIn _ _ hOld
        · exact absurd hLt (Nat.not_lt.mpr hLe)

/- The moment an event of the trace happened. -/
theorem ShadowRun.at_event
    (hRun : P.ShadowRun M C s₀ tr s shs)
    {pre post : List (Event Op Resp Env Ext)}
    {e : Event Op Resp Env Ext}
    (hSplit : tr = pre ++ e :: post) :
    ∃ s₁ shs₁ s₂ shs₂,
      P.ShadowRun M C s₀ pre s₁ shs₁ ∧ C pre s₁ e ∧
        P.ShadowStep M s₁ shs₁ e s₂ shs₂ := by
  induction hRun generalizing post with
  | nil => simp at hSplit
  | snoc hRun hCond hStep ih =>
      rcases append_singleton_split hSplit with
        ⟨rfl, rfl, _⟩ | ⟨post', _, hOld⟩
      · exact ⟨_, _, _, _, hRun, hCond, hStep⟩
      · exact ih hOld

/- A task has been started before it acts. -/
theorem ShadowRun.started
    (hRun : P.ShadowRun M C s₀ tr s shs)
    {pre post : List (Event Op Resp Env Ext)}
    {tid : Nat}
    {op : Op}
    {env : Env}
    {r : Resp op}
    (hSplit : tr = pre ++ .op tid op env r :: post) :
    tid < (M.rootsIn pre).length := by
  rcases hRun.at_event hSplit with ⟨s₁, shs₁, _, _, hPre, _, hStep⟩
  cases hStep with
  | op hPhase _ _ =>
      rw [← hPre.roots_eq, List.length_map]
      exact (List.getElem?_eq_some_iff.mp hPhase).1

/- A task that acts has its root already. -/
theorem ShadowRun.root_before
    (hRun : P.ShadowRun M C s₀ tr s shs)
    {pre post : List (Event Op Resp Env Ext)}
    {tid : Nat}
    {op : Op}
    {env : Env}
    {r : Resp op}
    {root : Root}
    (hSplit : tr = pre ++ .op tid op env r :: post)
    (hRoot : (M.rootsIn tr)[tid]? = some root) :
    (M.rootsIn pre)[tid]? = some root := by
  rw [hSplit, Machine.rootsIn_append_left M _ (hRun.started hSplit)]
    at hRoot
  exact hRoot

/-
  The rule for what holds from an event on, given what has
  happened since: the event brings it about, and every later
  step keeps it.
-/
theorem ShadowRun.after
    {Q : List (Event Op Resp Env Ext) → σ → List (Shadow Root G) → Prop}
    {pre post : List (Event Op Resp Env Ext)}
    {e : Event Op Resp Env Ext}
    (hAt :
      ∀ s₁ shs₁ s₂ shs₂,
        P.ShadowRun M C s₀ pre s₁ shs₁ → C pre s₁ e →
          P.ShadowStep M s₁ shs₁ e s₂ shs₂ → Q [] s₂ shs₂)
    (hKeep :
      ∀ mid s₁ shs₁ e' s₂ shs₂,
        P.ShadowRun M C s₀ (pre ++ e :: mid) s₁ shs₁ →
          C (pre ++ e :: mid) s₁ e' →
            P.ShadowStep M s₁ shs₁ e' s₂ shs₂ →
              Q mid s₁ shs₁ → Q (mid ++ [e']) s₂ shs₂)
    (hRun : P.ShadowRun M C s₀ tr s shs)
    (hSplit : tr = pre ++ e :: post) :
    Q post s shs := by
  induction hRun generalizing post with
  | nil => simp at hSplit
  | snoc hRun hCond hStep ih =>
      rcases append_singleton_split hSplit with
        ⟨rfl, rfl, rfl⟩ | ⟨post', rfl, rfl⟩
      · exact hAt _ _ _ _ hRun hCond hStep
      · exact hKeep _ _ _ _ _ _ hRun hCond hStep (ih rfl)

/- The rule where only the state and the tasks matter. -/
theorem ShadowRun.since
    {Q : σ → List (Shadow Root G) → Prop}
    {pre post : List (Event Op Resp Env Ext)}
    {e : Event Op Resp Env Ext}
    (hAt :
      ∀ s₁ shs₁ s₂ shs₂,
        P.ShadowRun M C s₀ pre s₁ shs₁ → C pre s₁ e →
          P.ShadowStep M s₁ shs₁ e s₂ shs₂ → Q s₂ shs₂)
    (hKeep :
      ∀ tr s₁ shs₁ e' s₂ shs₂,
        P.ShadowRun M C s₀ tr s₁ shs₁ → C tr s₁ e' →
          P.ShadowStep M s₁ shs₁ e' s₂ shs₂ →
            Q s₁ shs₁ → Q s₂ shs₂)
    (hRun : P.ShadowRun M C s₀ tr s shs)
    (hSplit : tr = pre ++ e :: post) :
    Q s shs :=
  hRun.after (Q := fun _ => Q) hAt
    (fun _ => hKeep _) hSplit

variable {final : Ret → G → Prop}
variable {c : Config Op Resp σ Root Ret}

/- The moment an event happened, with the tasks of that moment. -/
theorem TrackedRun.at_event
    (hRun : P.TrackedRun M final C s₀ tr c shs)
    {pre post : List (Event Op Resp Env Ext)}
    {e : Event Op Resp Env Ext}
    (hSplit : tr = pre ++ e :: post) :
    ∃ c₁ shs₁ c₂ shs₂,
      P.TrackedRun M final C s₀ pre c₁ shs₁ ∧ C pre c₁.state e ∧
        Machine.Step M c₁ e c₂ ∧
        P.ShadowStep M c₁.state shs₁ e c₂.state shs₂ := by
  induction hRun generalizing post with
  | nil => simp at hSplit
  | snoc hRun hCond hStep hShadow hTracks ih =>
      rcases append_singleton_split hSplit with
        ⟨rfl, rfl, _⟩ | ⟨post', _, hOld⟩
      · exact ⟨_, _, _, _, hRun, hCond, hStep, hShadow⟩
      · exact ih hOld

/-
  The moment an event happened, and what it says of later: a
  task that is dropped by then, or in phases it cannot leave,
  has stayed so.
-/
theorem TrackedRun.at_event_trapped
    {T : G → Prop}
    (hTrap : ∀ g op r g', T g → P.move g op r g' → T g')
    (hRun : P.TrackedRun M final C s₀ tr c shs)
    {pre post : List (Event Op Resp Env Ext)}
    {e : Event Op Resp Env Ext}
    (hSplit : tr = pre ++ e :: post) :
    ∃ c₁ shs₁ c₂ shs₂,
      P.TrackedRun M final C s₀ pre c₁ shs₁ ∧ C pre c₁.state e ∧
        P.ShadowStep M c₁.state shs₁ e c₂ shs₂ ∧
        ∀ tid < shs₁.length,
          (∀ root g, shs₁[tid]? = some ⟨root, some g⟩ → T g) →
            tid < shs.length ∧
              ∀ root g, shs[tid]? = some ⟨root, some g⟩ → T g := by
  induction hRun generalizing post with
  | nil => simp at hSplit
  | snoc hRun hCond hStep hShadow hTracks ih =>
      rcases append_singleton_split hSplit with
        ⟨rfl, rfl, _⟩ | ⟨post', _, hOld⟩
      · exact ⟨_, _, _, _, hRun, hCond, hShadow,
          fun tid hLt hIn => hShadow.trapped hTrap hLt hIn⟩
      · rcases ih hOld with
          ⟨c₁, shs₁, c₂, shs₂, hPre, hCond₁, hStep₁, hStays⟩
        refine ⟨c₁, shs₁, c₂, shs₂, hPre, hCond₁, hStep₁, ?_⟩
        intro tid hLt hIn
        have hThen := hStays tid hLt hIn
        exact hShadow.trapped hTrap hThen.1 hThen.2

/- What holds from an event on, by the tasks of that moment. -/
theorem TrackedRun.since
    {Q : σ → List (Shadow Root G) → Prop}
    {pre post : List (Event Op Resp Env Ext)}
    {e : Event Op Resp Env Ext}
    (hAt :
      ∀ c₁ shs₁ s₂ shs₂,
        P.TrackedRun M final C s₀ pre c₁ shs₁ → C pre c₁.state e →
          P.ShadowStep M c₁.state shs₁ e s₂ shs₂ → Q s₂ shs₂)
    (hKeep :
      ∀ tr s₁ shs₁ e' s₂ shs₂,
        P.ShadowRun M C s₀ tr s₁ shs₁ → C tr s₁ e' →
          P.ShadowStep M s₁ shs₁ e' s₂ shs₂ →
            Q s₁ shs₁ → Q s₂ shs₂)
    (hRun : P.TrackedRun M final C s₀ tr c shs)
    (hSplit : tr = pre ++ e :: post) :
    Q c.state shs := by
  induction hRun generalizing post with
  | nil => simp at hSplit
  | snoc hRun hCond hStep hShadow hTracks ih =>
      rcases append_singleton_split hSplit with
        ⟨rfl, rfl, _⟩ | ⟨post', _, hOld⟩
      · exact hAt _ _ _ _ hRun hCond hShadow
      · exact hKeep _ _ _ _ _ _ hRun.shadowRun hCond hShadow (ih hOld)

end Protocol

end Interleaving
