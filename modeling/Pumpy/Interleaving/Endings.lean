import Pumpy.Interleaving.Calls

/-
  This file reasons about the last calls of an execution: the
  calls `w` lead a program to `R` if `R` holds of what is left
  of it whenever its calls end with `w`.

  Key definitions include:
    * `Prog.Leads`

  The rules are `Prog.leads_act`, `Prog.Leads.bind`,
  `Prog.Leads.skip`, `Prog.leads_of_never` and
  `Prog.Leads.timeout`.
-/

namespace Interleaving

namespace Prog

variable {Op : Type} {Resp : Op → Type}
variable {α β : Type}

------------------------------------------------------------
-- Executions in Two Parts
------------------------------------------------------------

section After

variable {p q : Prog Op Resp α} {h h' : List (Call Op Resp)}

theorem After.nil_inv
    (hAfter : p.After [] q) :
    q = p := by
  generalize hEq : ([] : List (Call Op Resp)) = h at hAfter
  cases hAfter with
  | refl => rfl
  | call _ => cases hEq

/- Calls leave one program. -/
theorem After.unique
    {q' : Prog Op Resp α}
    (hAfter : p.After h q)
    (hAgain : p.After h q') :
    q = q' := by
  induction hAfter with
  | refl =>
      cases hAgain
      rfl
  | call _ ih =>
      cases hAgain with
      | call hRest => exact ih hRest

/- What is left after some of the calls goes on with the others. -/
theorem After.append_inv
    (hAfter : p.After (h ++ h') q) :
    ∃ m, p.After h m ∧ m.After h' q := by
  induction h generalizing p with
  | nil => exact ⟨p, .refl, hAfter⟩
  | cons call h ih =>
      cases hAfter with
      | call hRest =>
          rcases ih hRest with ⟨m, hFirst, hThen⟩
          exact ⟨m, .call hFirst, hThen⟩

/- The rest of an execution, from a point that is known. -/
theorem After.rest
    {m : Prog Op Resp α}
    (hFirst : p.After h m)
    (hAfter : p.After (h ++ h') q) :
    m.After h' q := by
  rcases hAfter.append_inv with ⟨m', hFirst', hThen⟩
  rw [hFirst.unique hFirst']
  exact hThen

/- A program that has returned has executed its next operation. -/
theorem After.act_done_inv
    {op : Op}
    {k : Resp op → Prog Op Resp α}
    {a : α}
    (hAfter : (Prog.act op k).After h (.done a)) :
    ∃ r h', h = ⟨op, r⟩ :: h' ∧ (k r).After h' (.done a) := by
  rcases hAfter.act_inv with ⟨_, hEq⟩ | hNext
  · cases hEq
  · exact hNext

/- A sequence that has returned has done so in both its parts. -/
theorem after_bind_done
    {f : α → Prog Op Resp β}
    {b : β}
    (hAfter : (p >>= f).After h (.done b)) :
    ∃ h₁ h₂ a,
      h = h₁ ++ h₂ ∧ p.After h₁ (.done a) ∧
        (f a).After h₂ (.done b) := by
  rcases after_bind hAfter with ⟨q, _, hOpen, hEq⟩ | hBoth
  · cases q with
    | done a => exact absurd rfl (hOpen a)
    | crash => cases hEq
    | act op k => cases hEq
  · exact hBoth

/- A program that wraps what another one returns runs that one. -/
theorem after_map
    {f : α → β}
    {t : Prog Op Resp β}
    (hAfter :
      (p >>= fun a => (pure (f a) : Prog Op Resp β)).After h t) :
    ∃ q, p.After h q := by
  rcases after_bind hAfter with
    ⟨q, hFirst, _⟩ | ⟨h₁, h₂, a, rfl, hFirst, hWrap⟩
  · exact ⟨q, hFirst⟩
  · rcases hWrap.done_inv with ⟨rfl, _⟩
    rw [List.append_nil]
    exact ⟨.done a, hFirst⟩

theorem after_map_done
    {f : α → β}
    {b : β}
    (hAfter :
      (p >>= fun a => (pure (f a) : Prog Op Resp β)).After h
        (.done b)) :
    ∃ a, b = f a ∧ p.After h (.done a) := by
  rcases after_bind_done hAfter with ⟨h₁, h₂, a, rfl, hFirst, hWrap⟩
  rcases hWrap.done_inv with ⟨rfl, hEq⟩
  rw [List.append_nil]
  cases hEq
  exact ⟨a, rfl, hFirst⟩

end After

/- What always holds follows from what always holds. -/
theorem Always.mono
    {Q R : Op → Prop}
    {p : Prog Op Resp α}
    (hAlways : p.Always Q)
    (hQR : ∀ op, Q op → R op) :
    p.Always R :=
  fun op hExecutes => hQR op (hAlways op hExecutes)

------------------------------------------------------------
-- Last Calls
------------------------------------------------------------

/- Executions that end with the calls `w` leave what `R` holds of. -/
def Leads
    (w : List (Call Op Resp))
    (p : Prog Op Resp α)
    (R : Prog Op Resp α → Prop) : Prop :=
  ∀ h q, p.After (h ++ w) q → R q

/- The program executes none of the operations called in `w`. -/
def Avoids
    (w : List (Call Op Resp))
    (p : Prog Op Resp α) : Prop :=
  p.Always fun op => ∀ call ∈ w, op ≠ call.1

theorem avoids_of
    {Q : Op → Prop}
    {w : List (Call Op Resp)}
    {p : Prog Op Resp α}
    (hAlways : p.Always Q)
    (hNot : ∀ call ∈ w, ¬Q call.1) :
    Avoids w p := by
  refine hAlways.mono fun op hQ call hMem => ?_
  rintro rfl
  exact hNot call hMem hQ

section Leads

variable {w : List (Call Op Resp)}
variable {p : Prog Op Resp α} {R : Prog Op Resp α → Prop}

theorem Leads.mono
    {R' : Prog Op Resp α → Prop}
    (hLeads : Leads w p R)
    (hImp : ∀ q, R q → R' q) :
    Leads w p R' :=
  fun h q hAfter => hImp q (hLeads h q hAfter)

theorem leads_done
    (a : α)
    (hSome : w ≠ []) :
    Leads w (.done a) R := by
  intro h q hAfter
  rcases hAfter.done_inv with ⟨hNil, _⟩
  exact absurd (List.append_eq_nil_iff.mp hNil).2 hSome

theorem leads_crash
    (hSome : w ≠ []) :
    Leads w (.crash : Prog Op Resp α) R := by
  intro h q hAfter
  generalize hEq : h ++ w = h' at hAfter
  cases hAfter
  exact absurd (List.append_eq_nil_iff.mp hEq).2 hSome

/- An operation the calls do not begin with changes nothing. -/
theorem leads_act
    {op : Op}
    {k : Resp op → Prog Op Resp α}
    (hOther : ∀ r w', w ≠ ⟨op, r⟩ :: w')
    (hSome : w ≠ [])
    (hLater : ∀ r, Leads w (k r) R) :
    Leads w (.act op k) R := by
  intro h q hAfter
  rcases hAfter.act_inv with ⟨hNil, _⟩ | ⟨r, h', hEq, hRest⟩
  · exact absurd (List.append_eq_nil_iff.mp hNil).2 hSome
  · cases h with
    | nil => exact absurd hEq (hOther r h')
    | cons call h =>
        cases hEq
        exact hLater r h q hRest

/- The operation whose call is awaited decides. -/
theorem leads_act_of
    {op : Op}
    {r₀ : Resp op}
    {k : Resp op → Prog Op Resp α}
    (hNow : R (k r₀))
    (hLater : ∀ r, Leads [⟨op, r₀⟩] (k r) R) :
    Leads [⟨op, r₀⟩] (.act op k) R := by
  intro h q hAfter
  rcases hAfter.act_inv with ⟨hNil, _⟩ | ⟨r, h', hEq, hRest⟩
  · simp at hNil
  · cases h with
    | nil =>
        cases hEq
        rw [hRest.nil_inv]
        exact hNow
    | cons call h =>
        cases hEq
        exact hLater r h q hRest

theorem Leads.act_inv
    {op : Op}
    {k : Resp op → Prog Op Resp α}
    (hLeads : Leads w (.act op k) R)
    (r : Resp op) :
    Leads w (k r) R :=
  fun h q hAfter => hLeads (⟨op, r⟩ :: h) q (.call hAfter)

/- A program that avoids the calls does not end with them. -/
theorem leads_of_avoids
    (hSome : w ≠ [])
    (hAvoids : Avoids w p) :
    Leads w p R := by
  intro h q hAfter
  rcases List.exists_mem_of_ne_nil w hSome with ⟨call, hMem⟩
  exact absurd rfl
    (hAvoids call.1 (hAfter.canExecute (List.mem_append_right h hMem))
      call hMem)

/- A first part that makes none of the calls may be left out. -/
theorem Leads.skip
    {f : α → Prog Op Resp β}
    {R : Prog Op Resp β → Prop}
    (hAvoids : Avoids w p)
    (hSome : w ≠ [])
    (hRest : ∀ a, p.CanReturn a → Leads w (f a) R) :
    Leads w (p >>= f) R := by
  intro h t hAfter
  rcases after_bind hAfter with
    ⟨q, hFirst, _⟩ | ⟨h₁, h₂, a, hSplit, hFirst, hThen⟩
  · exact leads_of_avoids hSome hAvoids (R := fun _ => R t) h q hFirst
  · rcases List.append_eq_append_iff.mp hSplit with
      ⟨m, rfl, rfl⟩ | ⟨m, rfl, rfl⟩
    · cases m with
      | nil =>
          exact hRest a hFirst.canReturn [] t hThen
      | cons call m =>
          have hCan := hFirst.canExecute (c := call) (by simp)
          exact absurd rfl (hAvoids call.1 hCan call (by simp))
    · exact hRest a hFirst.canReturn m t hThen

/- A rest that makes none of the calls is still to come. -/
theorem Leads.bind
    {f : α → Prog Op Resp β}
    (hLeads : Leads w p R)
    (hSome : w ≠ [])
    (hAvoids : ∀ a, p.CanReturn a → Avoids w (f a)) :
    Leads w (p >>= f) fun t => ∃ q, R q ∧ t = q >>= f := by
  intro h t hAfter
  rcases after_bind hAfter with
    ⟨q, hFirst, _, rfl⟩ | ⟨h₁, h₂, a, hSplit, hFirst, hThen⟩
  · exact ⟨q, hLeads h q hFirst, rfl⟩
  · rcases List.eq_nil_or_concat h₂ with rfl | ⟨h₂', last, hLast⟩
    · rw [List.append_nil] at hSplit
      rw [← hSplit] at hFirst
      exact ⟨.done a, hLeads h _ hFirst, hThen.nil_inv⟩
    · rcases List.eq_nil_or_concat w with hNil | ⟨w', last', hEnd⟩
      · exact absurd hNil hSome
      · have hSame : last' = last := by
          rw [hLast, hEnd, List.concat_eq_append, List.concat_eq_append,
            ← List.append_assoc, ← List.append_assoc] at hSplit
          exact List.singleton_inj.mp (List.append_inj' hSplit rfl).2
        have hCan := hThen.canExecute (c := last) (by simp [hLast])
        exact absurd rfl
          (hAvoids a hFirst.canReturn last.1 hCan last
            (by simp [hEnd, hSame]))

/-
  Under a deadline that holds off after the call, the program
  has returned what it returns after the call.
-/
theorem Leads.timeout
    {isAwait : Op → Bool}
    {timer : Op}
    {fired : Resp timer → Bool}
    {call : Call Op Resp}
    {t : Resp timer}
    {a : α}
    (hAwait : isAwait call.1 = true)
    (hTimer : isAwait timer = false)
    (hOff : fired t = false)
    (hLeads : Leads [call] p (· = .done a)) :
    Leads [call, ⟨timer, t⟩] (p.timeout isAwait timer fired)
      (· = .done (some a)) := by
  induction p with
  | done b => exact leads_done _ (by simp)
  | crash => exact leads_crash (by simp)
  | act op k ih =>
      intro h q hAfter
      rcases After.act_inv hAfter with ⟨hNil, _⟩ | ⟨r, h', hEq, hRest⟩
      · simp at hNil
      have hOn := ih r (hLeads.act_inv r)
      cases h with
      | nil =>
          cases hEq
          have hStop : k r = .done a := hLeads [] _ (.call .refl)
          rw [if_pos hAwait, hStop] at hRest
          rcases hRest.act_inv with ⟨hNil, _⟩ | ⟨t', h', hEq, hRest⟩
          · simp at hNil
          · cases hEq
            rw [if_neg (by simp [hOff])] at hRest
            exact hRest.done_inv.2
      | cons call' h =>
          cases hEq
          cases hOp : isAwait op with
          | false =>
              rw [if_neg (by simp [hOp])] at hRest
              exact hOn h q hRest
          | true =>
              rw [if_pos hOp] at hRest
              rcases hRest.act_inv with ⟨hNil, _⟩ | ⟨t', h', hEq, hRest⟩
              · simp at hNil
              · cases h with
                | nil =>
                    cases hEq
                    rw [hTimer] at hAwait
                    cases hAwait
                | cons call'' h =>
                    cases hEq
                    cases hFired : fired t' with
                    | true =>
                        rw [if_pos hFired] at hRest
                        have hNil := hRest.done_inv.1
                        simp at hNil
                    | false =>
                        rw [if_neg (by simp [hFired])] at hRest
                        exact hOn h q hRest

end Leads

end Prog

namespace Machine

variable {Op : Type} {Resp : Op → Type}
variable {Env Ext σ Root Ret : Type}
variable {M : Machine Op Resp Env Ext σ Root Ret}
variable {C : StepCond Op Resp Env Ext σ}
variable {s₀ : σ} {tr pre post : List (Event Op Resp Env Ext)}
variable {c c' : Config Op Resp σ Root Ret}
variable {tid : Nat} {root : Root}

------------------------------------------------------------
-- Calls Since a Point of the Run
------------------------------------------------------------

theorem calls_append :
    calls (pre ++ post) tid = calls pre tid ++ calls post tid := by
  unfold calls
  exact List.filterMap_append

/- What a task has called since leads on from what was left of it. -/
theorem Run.after_since
    {p q : Prog Op Resp Ret}
    (hBefore : (M.body root).After (calls pre tid) p)
    (hRun : Run M C s₀ (pre ++ post) c)
    (hTask : c.tasks[tid]? = some ⟨root, some q⟩) :
    p.After (calls post tid) q := by
  have hAfter := hRun.after_calls hTask
  rw [calls_append] at hAfter
  exact hBefore.rest hAfter

/- A task that executes an operation is there already. -/
theorem Run.root_at
    {op : Op} {env : Env} {r : Resp op}
    (hRun : Run M C s₀ tr c)
    (hSplit : tr = pre ++ .op tid op env r :: post) :
    (M.rootsIn pre)[tid]? = (M.rootsIn tr)[tid]? := by
  rcases hRun.step_at hSplit with ⟨c₀, c₁, hEarly, _, hStep⟩
  cases hStep with
  | op hTask _ =>
      have hLength := congrArg List.length hEarly.roots_eq
      have hLt := (List.getElem?_eq_some_iff.mp hTask).1
      rw [List.length_map] at hLength
      rw [hSplit, rootsIn_append_left M _ (hLength ▸ hLt)]

/- The operation a task executes next, since a point of the run. -/
theorem Run.op_since
    {p : Prog Op Resp Ret}
    {mid : List (Event Op Resp Env Ext)}
    {op : Op} {env : Env} {r : Resp op}
    (hBefore : (M.body root).After (calls pre tid) p)
    (hRoot : (M.rootsIn pre)[tid]? = some root)
    (hRun : Run M C s₀ tr c)
    (hSplit : tr = pre ++ mid ++ .op tid op env r :: post) :
    p.CanExecute op := by
  rcases hRun.step_at hSplit with ⟨c₀, c₁, hEarly, _, hStep⟩
  cases hStep with
  | @op s s' tasks tid root' op k env r hTask hExec =>
      have hSame : root' = root := by
        have hAt := congrArg (·[tid]?) hEarly.roots_eq
        simp only [List.getElem?_map, hTask, Option.map_some,
          rootsIn_append_left M mid
            (List.getElem?_eq_some_iff.mp hRoot).1, hRoot] at hAt
        exact Option.some.inj hAt
      subst hSame
      exact (hEarly.after_since hBefore hTask).canExecute_next

/- A task's calls up to one of them are an execution of its body. -/
theorem Run.after_op
    {op : Op} {env : Env} {r : Resp op}
    (hRun : Run M C s₀ tr c)
    (hSplit : tr = pre ++ .op tid op env r :: post)
    (hRoot : (M.rootsIn tr)[tid]? = some root) :
    ∃ p, (M.body root).After (calls pre tid ++ [⟨op, r⟩]) p := by
  have hRootPre := (hRun.root_at hSplit).trans hRoot
  rcases hRun.step_at hSplit with ⟨c₀, c₁, hEarly, _, hStep⟩
  cases hStep with
  | @op s s' tasks tid root' op k env r hTask hExec =>
      have hSame : root' = root := by
        have hAt := congrArg (·[tid]?) hEarly.roots_eq
        simp only [List.getElem?_map, hTask, Option.map_some,
          hRootPre] at hAt
        exact Option.some.inj hAt
      subst hSame
      exact ⟨k r, (hEarly.after_calls hTask).trans (.call .refl)⟩

end Machine

end Interleaving
