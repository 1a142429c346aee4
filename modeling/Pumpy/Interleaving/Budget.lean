import Pumpy.Interleaving.Calls

/-
  Programs that make few calls of a kind, whatever the
  responses.  A task of a machine makes no more of them than
  its body may.

  Key definitions include:
    * `Prog.AtMost`

  The main result is `Machine.Run.countP_calls_le`.
-/

------------------------------------------------------------
-- Programs
------------------------------------------------------------

namespace Interleaving

namespace Prog

variable {Op : Type} {Resp : Op → Type} {α β : Type}

/- No execution of the program makes more than `n` calls in `q`. -/
def AtMost
    (q : Call Op Resp → Bool)
    (p : Prog Op Resp α)
    (n : Nat) : Prop :=
  ∀ h p', p.After h p' → h.countP q ≤ n

section AtMost

variable {q : Call Op Resp → Bool} {p : Prog Op Resp α}
variable {op : Op} {k : Resp op → Prog Op Resp α} {m n : Nat}

theorem atMost_done
    (a : α) :
    (Prog.done a : Prog Op Resp α).AtMost q n := by
  intro h p' hAfter
  rw [hAfter.done_inv.1]
  exact Nat.zero_le n

/- An operation that is not counted. -/
theorem atMost_act
    (hQuiet : ∀ r, q ⟨op, r⟩ = false)
    (hLater : ∀ r, (k r).AtMost q n) :
    (Prog.act op k).AtMost q n := by
  intro h p' hAfter
  rcases hAfter.act_inv with ⟨rfl, _⟩ | ⟨r, h', rfl, hRest⟩
  · exact Nat.zero_le n
  · rw [List.countP_cons_of_neg (by simp [hQuiet])]
    exact hLater r h' p' hRest

/- An operation that may be counted. -/
theorem atMost_act_succ
    (hLater : ∀ r, (k r).AtMost q n) :
    (Prog.act op k).AtMost q (n + 1) := by
  intro h p' hAfter
  rcases hAfter.act_inv with ⟨rfl, _⟩ | ⟨r, h', rfl, hRest⟩
  · exact Nat.zero_le _
  · have hFew := hLater r h' p' hRest
    rw [List.countP_cons]
    split
    · omega
    · omega

/- The rule of sequencing. -/
theorem AtMost.bind
    {f : α → Prog Op Resp β}
    (hFirst : p.AtMost q m)
    (hRest : ∀ a, (f a).AtMost q n) :
    (p >>= f).AtMost q (m + n) := by
  intro h t hAfter
  rcases after_bind hAfter with
    ⟨p', hPart, _⟩ | ⟨h₁, h₂, a, rfl, hPart, hThen⟩
  · exact Nat.le_trans (hFirst h p' hPart) (Nat.le_add_right m n)
  · rw [List.countP_append]
    exact Nat.add_le_add (hFirst h₁ _ hPart) (hRest a h₂ t hThen)

end AtMost

end Prog

------------------------------------------------------------
-- Tasks
------------------------------------------------------------

namespace Machine

variable {Op : Type} {Resp : Op → Type}
variable {Env Ext σ Root Ret : Type}
variable {M : Machine Op Resp Env Ext σ Root Ret}
variable {C : StepCond Op Resp Env Ext σ} {s₀ : σ}
variable {tr : List (Event Op Resp Env Ext)}
variable {c : Config Op Resp σ Root Ret}
variable {q : Prog.Call Op Resp → Bool} {n : Nat}

/- A task makes no more of the calls than its body may. -/
theorem Run.countP_calls_le
    (hBody : ∀ root, (M.body root).AtMost q n)
    (hRun : Run M C s₀ tr c)
    (tid : Nat) :
    (calls tr tid).countP q ≤ n := by
  induction hRun with
  | nil => exact Nat.zero_le n
  | @snoc tr c c' e hBefore hCond hStep ih =>
    by_cases hOwn : ∃ op env r, e = .op tid op env r
    · rcases hOwn with ⟨op, env, r, rfl⟩
      rw [calls_append_singleton_self]
      cases hStep with
      | @op s s' tasks tid root op k env r hTask hExec =>
        have hAfter := hBefore.after_calls hTask
        exact hBody root _ _ (hAfter.trans (.call .refl))
    · rw [calls_append_singleton_other]
      · exact ih
      · intro op env r hEq
        exact hOwn ⟨op, env, r, hEq⟩

end Machine

end Interleaving
