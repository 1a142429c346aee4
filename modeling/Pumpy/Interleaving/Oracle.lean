import Pumpy.Interleaving.Prog

/-
  This file runs a program against given answers: some
  operations always get the same response, the others ask, and
  the n-th question gets the n-th reply.  Two programs are twins
  if they do the same until they part over one operation.

  Key definitions include:
    * `Oracle`
    * `Oracle.run`
    * `Twin`

  Rules are:
    * `Oracle.ops_bind_some`
    * `Oracle.ops_always`
    * `Twin.bind`
    * `Twin.timeout`
    * `Twin.run`
-/

------------------------------------------------------------
-- Oracle
------------------------------------------------------------

namespace Interleaving

variable {Op : Type} {Resp : Op → Type} {α β : Type}

/- Sequencing is associative. -/
theorem Prog.bind_assoc
    {γ : Type}
    (p : Prog Op Resp α)
    (f : α → Prog Op Resp β)
    (g : β → Prog Op Resp γ) :
    (p >>= f) >>= g = p >>= fun a => f a >>= g := by
  induction p with
  | done a => rfl
  | crash => rfl
  | act op k ih =>
      simp only [Prog.act_bind]
      exact congrArg _ (funext fun r => ih r)

/- The settled responses, and the replies to the other operations. -/
structure Oracle
    (Op : Type)
    (Resp : Op → Type) where
  settled : (op : Op) → Option (Resp op)
  reply : Nat → (op : Op) → Resp op

/-
  What a program has executed, what it has returned, if it has
  not panicked, and the number of its next question.
-/
structure Answered
    (Op : Type)
    (Resp : Op → Type)
    (α : Type) where
  calls : List (Prog.Call Op Resp)
  value : Option α
  next : Nat

namespace Oracle

variable (A : Oracle Op Resp)

/- The response to an operation, and the number of the next question. -/
def respond (n : Nat) (op : Op) : Resp op × Nat :=
  match A.settled op with
  | some r => (r, n)
  | none => (A.reply n op, n + 1)

/- Run a program from the `n`-th question on. -/
def run : Prog Op Resp α → Nat → Answered Op Resp α
  | .done a, n => ⟨[], some a, n⟩
  | .crash, n => ⟨[], none, n⟩
  | .act op k, n =>
      let p := A.respond n op
      let rest := run (k p.1) p.2
      ⟨⟨op, p.1⟩ :: rest.calls, rest.value, rest.next⟩

@[simp] theorem run_done (a : α) (n : Nat) :
    A.run (.done a) n = ⟨[], some a, n⟩ :=
  rfl

@[simp] theorem run_crash (n : Nat) :
    A.run (.crash : Prog Op Resp α) n = ⟨[], none, n⟩ :=
  rfl

@[simp] theorem run_act
    (op : Op)
    (k : Resp op → Prog Op Resp α)
    (n : Nat) :
    A.run (.act op k) n =
      ⟨⟨op, (A.respond n op).1⟩ ::
          (A.run (k (A.respond n op).1) (A.respond n op).2).calls,
        (A.run (k (A.respond n op).1) (A.respond n op).2).value,
        (A.run (k (A.respond n op).1) (A.respond n op).2).next⟩ :=
  rfl

/- The operations a program executes from the `n`-th question on. -/
def ops (p : Prog Op Resp α) (n : Nat) : List Op :=
  (A.run p n).calls.map (·.1)

@[simp] theorem ops_done (a : α) (n : Nat) :
    A.ops (.done a) n = [] :=
  rfl

@[simp] theorem ops_crash (n : Nat) :
    A.ops (.crash : Prog Op Resp α) n = [] :=
  rfl

@[simp] theorem ops_act
    (op : Op)
    (k : Resp op → Prog Op Resp α)
    (n : Nat) :
    A.ops (.act op k) n =
      op :: A.ops (k (A.respond n op).1) (A.respond n op).2 :=
  rfl

variable {A}

/- The second part goes on from where the first has returned. -/
theorem run_bind_some
    {p : Prog Op Resp α}
    {n : Nat}
    {a : α}
    (f : α → Prog Op Resp β)
    (hValue : (A.run p n).value = some a) :
    A.run (p >>= f) n =
      ⟨(A.run p n).calls ++ (A.run (f a) (A.run p n).next).calls,
        (A.run (f a) (A.run p n).next).value,
        (A.run (f a) (A.run p n).next).next⟩ := by
  induction p generalizing n with
  | done b =>
      cases hValue
      rfl
  | crash => cases hValue
  | act op k ih =>
      simp only [Prog.act_bind, run_act, ih _ hValue, List.cons_append]

/- A part that has panicked is the last. -/
theorem run_bind_none
    {p : Prog Op Resp α}
    {n : Nat}
    (f : α → Prog Op Resp β)
    (hValue : (A.run p n).value = none) :
    A.run (p >>= f) n =
      ⟨(A.run p n).calls, none, (A.run p n).next⟩ := by
  induction p generalizing n with
  | done b => cases hValue
  | crash => rfl
  | act op k ih => simp only [Prog.act_bind, run_act, ih _ hValue]

theorem ops_bind_some
    {p : Prog Op Resp α}
    {n : Nat}
    {a : α}
    (f : α → Prog Op Resp β)
    (hValue : (A.run p n).value = some a) :
    A.ops (p >>= f) n = A.ops p n ++ A.ops (f a) (A.run p n).next := by
  unfold ops
  rw [run_bind_some f hValue, List.map_append]

theorem ops_bind_none
    {p : Prog Op Resp α}
    {n : Nat}
    (f : α → Prog Op Resp β)
    (hValue : (A.run p n).value = none) :
    A.ops (p >>= f) n = A.ops p n := by
  unfold ops
  rw [run_bind_none f hValue]

/- Returning another value executes nothing. -/
theorem ops_map
    (f : α → β)
    (p : Prog Op Resp α)
    (n : Nat) :
    A.ops (p >>= fun a => .done (f a)) n = A.ops p n := by
  cases hValue : (A.run p n).value with
  | none => exact ops_bind_none _ hValue
  | some a =>
      rw [ops_bind_some _ hValue, ops_done, List.append_nil]

/- The first part's operations come first. -/
theorem ops_bind_prefix
    (p : Prog Op Resp α)
    (n : Nat)
    (f : α → Prog Op Resp β) :
    A.ops p n <+: A.ops (p >>= f) n := by
  cases hValue : (A.run p n).value with
  | none =>
      exact ⟨[], by rw [ops_bind_none f hValue, List.append_nil]⟩
  | some a =>
      rw [ops_bind_some f hValue]
      exact List.prefix_append _ _

/- What a program executes on given answers, it may execute. -/
theorem ops_always
    {Q : Op → Prop}
    {p : Prog Op Resp α}
    (hAlways : p.Always Q)
    (n : Nat) :
    ∀ op ∈ A.ops p n, Q op := by
  induction p generalizing n with
  | done a => exact fun op hMem => by cases hMem
  | crash => exact fun op hMem => by cases hMem
  | act op k ih =>
      intro op' hMem
      rcases List.mem_cons.mp hMem with rfl | hLater
      · exact hAlways op' (.inl rfl)
      · refine ih _ (fun op₁ hNext => ?_) _ op' hLater
        exact hAlways op₁ (.inr ⟨_, hNext⟩)

end Oracle

------------------------------------------------------------
-- Twins
------------------------------------------------------------

/-
  Both programs execute the same operations, all of which meet
  `N`, until they part over two operations related by `D`.
-/
inductive Twin
    (N : Op → Prop)
    (D : Op → Op → Prop) :
    Prog Op Resp α → Prog Op Resp α → Prop
  | done (a : α) : Twin N D (.done a) (.done a)
  | crash : Twin N D .crash .crash
  | act
      {op : Op}
      {k k' : Resp op → Prog Op Resp α}
      (hN : N op)
      (hRest : ∀ r, Twin N D (k r) (k' r)) :
      Twin N D (.act op k) (.act op k')
  | part
      {op op' : Op}
      {k : Resp op → Prog Op Resp α}
      {k' : Resp op' → Prog Op Resp α}
      (hD : D op op') :
      Twin N D (.act op k) (.act op' k')

namespace Twin

variable {N : Op → Prop} {D : Op → Op → Prop}
variable {p p' : Prog Op Resp α}

/- A program that never parts is its own twin. -/
theorem of_always
    (hAlways : p.Always N) :
    Twin N D p p := by
  induction p with
  | done a => exact .done a
  | crash => exact .crash
  | act op k ih =>
      refine .act (hAlways op (.inl rfl)) fun r => ih r fun op' hLater => ?_
      exact hAlways op' (.inr ⟨r, hLater⟩)

/- The rule of sequencing. -/
theorem bind
    {f f' : α → Prog Op Resp β}
    (hFirst : Twin N D p p')
    (hRest : ∀ a, Twin N D (f a) (f' a)) :
    Twin N D (p >>= f) (p' >>= f') := by
  induction hFirst with
  | done a => exact hRest a
  | crash => exact .crash
  | act hN _ ih => exact .act hN ih
  | part hD => exact .part hD

/- The rule for a deadline. -/
theorem timeout
    {isAwait : Op → Bool}
    {timer : Op}
    {fired : Resp timer → Bool}
    (hTimer : N timer)
    (hTwin : Twin N D p p') :
    Twin N D (p.timeout isAwait timer fired)
      (p'.timeout isAwait timer fired) := by
  induction hTwin with
  | done a => exact .done _
  | crash => exact .crash
  | @act op k k' hN _ ih =>
      refine .act hN fun r => ?_
      split
      · refine .act hTimer fun t => ?_
        split
        · exact .done none
        · exact ih r
      · exact ih r
  | part hD => exact .part hD

/- Twins run alike, or part after the same operations. -/
theorem run
    (A : Oracle Op Resp)
    (n : Nat)
    (hTwin : Twin N D p p') :
    (A.run p n = A.run p' n ∧ ∀ op ∈ A.ops p n, N op) ∨
      ∃ h op op' t t',
        D op op' ∧ (∀ op ∈ h, N op) ∧
          A.ops p n = h ++ op :: t ∧ A.ops p' n = h ++ op' :: t' := by
  induction hTwin generalizing n with
  | done a => exact .inl ⟨rfl, fun op hMem => by cases hMem⟩
  | crash => exact .inl ⟨rfl, fun op hMem => by cases hMem⟩
  | @act op k k' hN _ ih =>
      rcases ih (A.respond n op).1 (A.respond n op).2 with
        ⟨hSame, hAll⟩ | ⟨h, op₁, op₂, t, t', hD, hBefore, hLeft, hRight⟩
      · left
        simp only [Oracle.run_act, hSame, true_and]
        intro op' hMem
        rcases List.mem_cons.mp hMem with rfl | hLater
        · exact hN
        · exact hAll op' hLater
      · right
        refine ⟨op :: h, op₁, op₂, t, t', hD, ?_, ?_, ?_⟩
        · simpa using ⟨hN, hBefore⟩
        · rw [Oracle.ops_act, hLeft, List.cons_append]
        · rw [Oracle.ops_act, hRight, List.cons_append]
  | @part op op' k k' hD =>
      refine .inr ⟨[], op, op', _, _, hD, ?_, rfl, rfl⟩
      simp

end Twin

end Interleaving
