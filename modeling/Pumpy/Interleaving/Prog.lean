import Mathlib.Data.List.Basic

/-
  This file defines programs over atomic operations: the
  sequential code of one task, cut at the points where other
  tasks may run.  A program either has finished with a value,
  or has panicked, or waits for the response to one
  operation.

  Key definitions include:
    * `Prog`
    * `Prog.bind`
    * `Prog.perform`
    * `Prog.timeout`
    * `Prog.mark`
    * `Prog.CanReturn`
    * `Prog.CanExecute`
    * `Prog.Always`
    * `Prog.After`
    * `Prog.runAlone`
-/

------------------------------------------------------------
-- Programs
------------------------------------------------------------

namespace Interleaving

/-
  A program over the operations `Op`.  `done a` has returned
  `a`; `crash` has panicked; `act op k` is about to execute
  `op` and continues with `k` on its response.
-/
inductive Prog
    (Op : Type)
    (Resp : Op → Type)
    (α : Type) : Type where
  | done (a : α) : Prog Op Resp α
  | crash : Prog Op Resp α
  | act (op : Op) (k : Resp op → Prog Op Resp α) : Prog Op Resp α

namespace Prog

variable {Op : Type} {Resp : Op → Type}
variable {α β γ : Type}

/- Run `p`, then the program `f` gives for its value. -/
def bind
    (p : Prog Op Resp α)
    (f : α → Prog Op Resp β) : Prog Op Resp β :=
  match p with
  | .done a => f a
  | .crash => .crash
  | .act op k => .act op fun r => (k r).bind f

instance : Monad (Prog Op Resp) where
  pure := .done
  bind := Prog.bind

/- The program that executes one operation. -/
def perform (op : Op) : Prog Op Resp (Resp op) :=
  .act op .done

@[simp] theorem pure_eq (a : α) :
    (pure a : Prog Op Resp α) = .done a :=
  rfl

@[simp] theorem done_bind
    (a : α)
    (f : α → Prog Op Resp β) :
    (.done a : Prog Op Resp α) >>= f = f a :=
  rfl

@[simp] theorem crash_bind
    (f : α → Prog Op Resp β) :
    (.crash : Prog Op Resp α) >>= f = .crash :=
  rfl

@[simp] theorem act_bind
    (op : Op)
    (k : Resp op → Prog Op Resp α)
    (f : α → Prog Op Resp β) :
    (.act op k : Prog Op Resp α) >>= f =
      .act op fun r => k r >>= f :=
  rfl

@[simp] theorem perform_bind
    (op : Op)
    (f : Resp op → Prog Op Resp β) :
    perform op >>= f = .act op f :=
  rfl

/-
  Run `p` under a deadline.  The deadline is looked at
  whenever `p` has been suspended on an awaiting operation:
  if it has passed, `p` is dropped although its last
  operation may have taken effect.
-/
def timeout
    (isAwait : Op → Bool)
    (timer : Op)
    (fired : Resp timer → Bool) :
    Prog Op Resp α → Prog Op Resp (Option α)
  | .done a => .done (some a)
  | .crash => .crash
  | .act op k =>
      .act op fun r =>
        if isAwait op then
          .act timer fun t =>
            if fired t then
              .done none
            else
              timeout isAwait timer fired (k r)
        else
          timeout isAwait timer fired (k r)

/- The program with each of its operations marked by `i`. -/
def mark
    {ι : Type}
    (i : ι) :
    Prog Op Resp α → Prog (ι × Op) (fun op => Resp op.2) α
  | .done a => .done a
  | .crash => .crash
  | .act op k => .act (i, op) fun r => (k r).mark i

------------------------------------------------------------
-- What Programs May Do
------------------------------------------------------------

/- Some responses lead the program to return `a`. -/
def CanReturn : Prog Op Resp α → α → Prop
  | .done b, a => b = a
  | .crash, _ => False
  | .act _ k, a => ∃ r, (k r).CanReturn a

/- Some responses lead the program to execute `op`. -/
def CanExecute : Prog Op Resp α → Op → Prop
  | .done _, _ => False
  | .crash, _ => False
  | .act op' k, op => op' = op ∨ ∃ r, (k r).CanExecute op

/- Whatever the responses, what the program executes meets `Q`. -/
def Always
    (Q : Op → Prop)
    (p : Prog Op Resp α) : Prop :=
  ∀ op, p.CanExecute op → Q op

@[simp] theorem canReturn_done (a b : α) :
    (.done b : Prog Op Resp α).CanReturn a ↔ b = a :=
  Iff.rfl

@[simp] theorem canReturn_crash (a : α) :
    ¬(.crash : Prog Op Resp α).CanReturn a :=
  id

@[simp] theorem canReturn_act
    (op : Op)
    (k : Resp op → Prog Op Resp α)
    (a : α) :
    (.act op k : Prog Op Resp α).CanReturn a ↔
      ∃ r, (k r).CanReturn a :=
  Iff.rfl

@[simp] theorem canExecute_done (b : α) (op : Op) :
    ¬(.done b : Prog Op Resp α).CanExecute op :=
  id

@[simp] theorem canExecute_crash (op : Op) :
    ¬(.crash : Prog Op Resp α).CanExecute op :=
  id

@[simp] theorem canExecute_act
    (op op' : Op)
    (k : Resp op' → Prog Op Resp α) :
    (.act op' k : Prog Op Resp α).CanExecute op ↔
      op' = op ∨ ∃ r, (k r).CanExecute op :=
  Iff.rfl

/- What a sequence may execute. -/
theorem canExecute_bind
    (p : Prog Op Resp α)
    (f : α → Prog Op Resp β)
    (op : Op) :
    (p >>= f).CanExecute op ↔
      p.CanExecute op ∨ ∃ a, p.CanReturn a ∧ (f a).CanExecute op := by
  induction p with
  | done a => simp
  | crash => simp
  | act op' k ih =>
      simp only [act_bind, canExecute_act, canReturn_act, ih]
      constructor
      · rintro (hNow | ⟨r, hFirst | ⟨a, hReturns, hRest⟩⟩)
        · exact .inl (.inl hNow)
        · exact .inl (.inr ⟨r, hFirst⟩)
        · exact .inr ⟨a, ⟨r, hReturns⟩, hRest⟩
      · rintro ((hNow | ⟨r, hFirst⟩) | ⟨a, ⟨r, hReturns⟩, hRest⟩)
        · exact .inl hNow
        · exact .inr ⟨r, .inl hFirst⟩
        · exact .inr ⟨r, .inr ⟨a, hReturns, hRest⟩⟩

/- The rule of sequencing. -/
theorem Always.bind
    {Q : Op → Prop}
    {p : Prog Op Resp α}
    {f : α → Prog Op Resp β}
    (hFirst : p.Always Q)
    (hRest : ∀ a, p.CanReturn a → (f a).Always Q) :
    (p >>= f).Always Q := by
  intro op hExecutes
  rcases (canExecute_bind p f op).mp hExecutes with
    hNow | ⟨a, hReturns, hLater⟩
  · exact hFirst op hNow
  · exact hRest a hReturns op hLater

theorem always_done
    {Q : Op → Prop}
    (a : α) :
    (.done a : Prog Op Resp α).Always Q :=
  fun _ hExecutes => hExecutes.elim

theorem always_crash
    {Q : Op → Prop} :
    (.crash : Prog Op Resp α).Always Q :=
  fun _ hExecutes => hExecutes.elim

theorem always_act
    {Q : Op → Prop}
    {op : Op}
    {k : Resp op → Prog Op Resp α}
    (hNow : Q op)
    (hLater : ∀ r, (k r).Always Q) :
    (.act op k : Prog Op Resp α).Always Q := by
  rintro op' (rfl | ⟨r, hExecutes⟩)
  · exact hNow
  · exact hLater r op' hExecutes

/- Under a deadline a program executes what it would, and the timer. -/
theorem canExecute_timeout
    {isAwait : Op → Bool}
    {timer : Op}
    {fired : Resp timer → Bool}
    {p : Prog Op Resp α}
    {op : Op}
    (hExecutes : (p.timeout isAwait timer fired).CanExecute op) :
    op = timer ∨ p.CanExecute op := by
  induction p with
  | done a => exact hExecutes.elim
  | crash => exact hExecutes.elim
  | act op' k ih =>
      rcases hExecutes with hNow | ⟨r, hLater⟩
      · exact .inr (.inl hNow)
      · dsimp only at hLater
        cases hAwait : isAwait op' with
        | false =>
            rw [if_neg (by simp [hAwait])] at hLater
            exact (ih r hLater).imp id fun h => .inr ⟨r, h⟩
        | true =>
            rw [if_pos hAwait] at hLater
            rcases hLater with hTimer | ⟨t, hRest⟩
            · exact .inl hTimer.symm
            · dsimp only at hRest
              cases hFired : fired t with
              | true =>
                  rw [if_pos hFired] at hRest
                  exact hRest.elim
              | false =>
                  rw [if_neg (by simp [hFired])] at hRest
                  exact (ih r hRest).imp id fun h => .inr ⟨r, h⟩

/- A deadline that may hold off lets the program execute what it would. -/
theorem CanExecute.timeout
    {isAwait : Op → Bool}
    {timer : Op}
    {fired : Resp timer → Bool}
    {p : Prog Op Resp α}
    {op : Op}
    (hOff : ∃ t, fired t = false)
    (hExecutes : p.CanExecute op) :
    (p.timeout isAwait timer fired).CanExecute op := by
  rcases hOff with ⟨t, hOff⟩
  induction p with
  | done a => exact hExecutes.elim
  | crash => exact hExecutes.elim
  | act op' k ih =>
      rcases hExecutes with hNow | ⟨r, hLater⟩
      · exact .inl hNow
      · refine .inr ⟨r, ?_⟩
        dsimp only
        cases hAwait : isAwait op' with
        | false =>
            rw [if_neg (by simp)]
            exact ih r hLater
        | true =>
            rw [if_pos rfl]
            refine .inr ⟨t, ?_⟩
            dsimp only
            rw [if_neg (by simp [hOff])]
            exact ih r hLater

/- A marked program executes what it would, under its mark. -/
theorem canExecute_mark
    {ι : Type}
    {i : ι}
    {p : Prog Op Resp α}
    {op : ι × Op}
    (hExecutes : (p.mark i).CanExecute op) :
    op.1 = i ∧ p.CanExecute op.2 := by
  induction p with
  | done a => exact hExecutes.elim
  | crash => exact hExecutes.elim
  | act op' k ih =>
      rcases hExecutes with rfl | ⟨r, hLater⟩
      · exact ⟨rfl, .inl rfl⟩
      · exact ⟨(ih r hLater).1, .inr ⟨r, (ih r hLater).2⟩⟩

------------------------------------------------------------
-- Executions of a Program
------------------------------------------------------------

/- An operation that was executed, and its response. -/
abbrev Call
    (Op : Type)
    (Resp : Op → Type) :=
  (op : Op) × Resp op

/- The program `p` has executed the calls, and `q` is left of it. -/
inductive After :
    Prog Op Resp α → List (Call Op Resp) →
      Prog Op Resp α → Prop
  | refl {p : Prog Op Resp α} : After p [] p
  | call
      {op : Op}
      {k : Resp op → Prog Op Resp α}
      {r : Resp op}
      {h : List (Call Op Resp)}
      {q : Prog Op Resp α}
      (hRest : After (k r) h q) :
      After (.act op k) (⟨op, r⟩ :: h) q

section After

variable {p q : Prog Op Resp α} {h h' : List (Call Op Resp)}

theorem After.trans
    {t : Prog Op Resp α}
    (hFirst : p.After h q)
    (hRest : q.After h' t) :
    p.After (h ++ h') t := by
  induction hFirst with
  | refl => exact hRest
  | call _ ih => exact .call (ih hRest)

/- What was executed could be executed. -/
theorem After.canExecute
    {c : Call Op Resp}
    (hAfter : p.After h q)
    (hMem : c ∈ h) :
    p.CanExecute c.1 := by
  induction hAfter with
  | refl => cases hMem
  | call _ ih =>
      rcases List.mem_cons.mp hMem with rfl | hLater
      · exact .inl rfl
      · exact .inr ⟨_, ih hLater⟩

/- What is about to be executed could be executed. -/
theorem After.canExecute_next
    {op : Op}
    {k : Resp op → Prog Op Resp α}
    (hAfter : p.After h (.act op k)) :
    p.CanExecute op := by
  generalize hEq : Prog.act op k = q at hAfter
  induction hAfter with
  | refl =>
      subst hEq
      exact .inl rfl
  | call _ ih => exact .inr ⟨_, ih hEq⟩

/- What was returned could be returned. -/
theorem After.canReturn
    {a : α}
    (hAfter : p.After h (.done a)) :
    p.CanReturn a := by
  generalize hEq : (Prog.done a : Prog Op Resp α) = q at hAfter
  induction hAfter with
  | refl =>
      subst hEq
      exact rfl
  | call _ ih => exact ⟨_, ih hEq⟩

/- What can be executed is executed by some execution. -/
theorem CanExecute.exists_after
    {op : Op}
    (hExecutes : p.CanExecute op) :
    ∃ h k, p.After h (.act op k) := by
  induction p with
  | done a => exact hExecutes.elim
  | crash => exact hExecutes.elim
  | act op' k ih =>
      rcases hExecutes with rfl | ⟨r, hLater⟩
      · exact ⟨[], k, .refl⟩
      · rcases ih r hLater with ⟨h, k', hAfter⟩
        exact ⟨_, k', .call hAfter⟩

/- The first call of an execution. -/
theorem After.act_inv
    {op : Op}
    {k : Resp op → Prog Op Resp α}
    (hAfter : (Prog.act op k).After h q) :
    (h = [] ∧ q = .act op k) ∨
      ∃ r h', h = ⟨op, r⟩ :: h' ∧ (k r).After h' q := by
  cases hAfter with
  | refl => exact .inl ⟨rfl, rfl⟩
  | call hRest => exact .inr ⟨_, _, rfl, hRest⟩

theorem After.done_inv
    {a : α}
    (hAfter : (Prog.done a).After h q) :
    h = [] ∧ q = .done a := by
  cases hAfter
  exact ⟨rfl, rfl⟩

/- An execution of the first part of a sequence. -/
theorem After.bind
    {f : α → Prog Op Resp β}
    (hAfter : p.After h q) :
    (p >>= f).After h (q >>= f) := by
  induction hAfter with
  | refl => exact .refl
  | call _ ih => exact .call ih

/-
  An execution of a sequence has not come to the end of the
  first part, or goes on from where that has returned.
-/
theorem after_bind
    {f : α → Prog Op Resp β}
    {t : Prog Op Resp β}
    (hAfter : (p >>= f).After h t) :
    (∃ q, p.After h q ∧ (∀ a, q ≠ .done a) ∧ t = q >>= f) ∨
      ∃ h₁ h₂ a,
        h = h₁ ++ h₂ ∧ p.After h₁ (.done a) ∧ (f a).After h₂ t := by
  induction p generalizing h with
  | done a => exact .inr ⟨[], h, a, rfl, .refl, hAfter⟩
  | crash =>
      cases hAfter
      exact .inl ⟨.crash, .refl, fun a => (nomatch ·), rfl⟩
  | act op k ih =>
      rcases After.act_inv hAfter with ⟨rfl, rfl⟩ | ⟨r, h', rfl, hRest⟩
      · exact .inl ⟨_, .refl, fun a => (nomatch ·), rfl⟩
      · rcases ih r hRest with
          ⟨q, hFirst, hOpen, rfl⟩ | ⟨h₁, h₂, a, rfl, hFirst, hNext⟩
        · exact .inl ⟨q, .call hFirst, hOpen, rfl⟩
        · exact .inr ⟨_ :: h₁, h₂, a, rfl, .call hFirst, hNext⟩

end After

------------------------------------------------------------
-- Running Alone
------------------------------------------------------------

/-
  Run the program to its end with nobody in between, where the
  response to an operation depends on the state only.  There
  is no value if it panics or comes to an operation that is not
  enabled.
-/
def runAlone
    {σ : Type}
    (exec : (op : Op) → σ → Option (Resp op × σ)) :
    Prog Op Resp α → σ → Option α × σ
  | .done a, s => (some a, s)
  | .crash, s => (none, s)
  | .act op k, s =>
      match exec op s with
      | some (r, s') => (k r).runAlone exec s'
      | none => (none, s)

section RunAlone

variable {σ : Type} {exec : (op : Op) → σ → Option (Resp op × σ)}

@[simp] theorem runAlone_done (a : α) (s : σ) :
    (.done a : Prog Op Resp α).runAlone exec s = (some a, s) :=
  rfl

@[simp] theorem runAlone_crash (s : σ) :
    (.crash : Prog Op Resp α).runAlone exec s = (none, s) :=
  rfl

end RunAlone

end Prog

end Interleaving
