import Pumpy.Wallet.Agreement

/-
  Halted wallets.  No writer looks at the status it replaces, so
  a halted wallet is resumed or paused by whoever comes next, and
  not only by the request that says so.

  Key definitions include:
    * `LeftOnlyExplicitly`
    * `SparesHalted`

  The main results are `leftOnlyExplicitly_iff` and
  `not_leftOnlyExplicitly`.
-/

namespace Pumpy

open Interleaving

------------------------------------------------------------
-- What is promised
------------------------------------------------------------

/- A row of the wallet is halted before and is not after. -/
def LeavesHalted (t t' : WalletTables) (id : String) : Prop :=
  (t.registry id = some .halted ∧ t'.registry id ≠ some .halted) ∨
    (t.configStatus id = some .halted ∧
      t'.configStatus id ≠ some .halted)

/- The event is a configuration request with a status in it. -/
def PutsStatus (id : String) (e : WalletEvent) : Prop :=
  ∃ tid u st out r,
    e = .op tid (.putConfig id u) out r ∧ u.status = some st

/- A halted wallet is left only by such a request. -/
def LeftOnlyExplicitly : WalletCond :=
  fun _ t e =>
    ∀ tid op out r t' id,
      e = .op tid op out r → t.exec op out = some (r, t') →
        LeavesHalted t t' id → PutsStatus id e

/-
  A pause or a resume of the API, or a pause of the engine, takes
  effect on no row that is halted.
-/
def SparesHalted : WalletCond :=
  fun _ t e =>
    ∀ tid op out r id st,
      e = .op tid op out r → out.stmt.applies = true → st ≠ .halted →
        (op = .setStatus id st →
          t.registry id ≠ some .halted ∧
            t.configStatus id ≠ some .halted) ∧
        (op = .updateRegistryStatus id st →
          t.registry id ≠ some .halted) ∧
        (op = .updateConfigStatus id st →
          t.configStatus id ≠ some .halted)

------------------------------------------------------------
-- Single events
------------------------------------------------------------

section Events

variable {t t' : WalletTables} {op : WalletOp} {out : WalletOutcome}
variable {r : op.Resp} {id id' : String} {st : WalletStatus}

/- A row that is set to a status has left the one it had. -/
theorem eq_and_ne_of_set
    {before after : Option WalletStatus}
    (hAfter : after = if id = id' then before.map fun _ => st else before)
    (hBefore : before = some .halted)
    (hLeft : after ≠ some .halted) :
    id = id' ∧ st ≠ .halted := by
  rw [hBefore] at hAfter
  by_cases hSame : id = id'
  · rw [if_pos hSame] at hAfter
    refine ⟨hSame, ?_⟩
    rintro rfl
    exact hLeft hAfter
  · rw [if_neg hSame] at hAfter
    exact absurd hAfter hLeft

/- Where an update says nothing of the status, it stays. -/
theorem exists_status_of_left
    {u : ConfigUpdate}
    {before after : Option WalletStatus}
    (hAfter :
      after = if id = id' then before.map (u.status.getD ·) else before)
    (hBefore : before = some .halted)
    (hLeft : after ≠ some .halted) :
    id = id' ∧ ∃ st, u.status = some st := by
  rw [hBefore] at hAfter
  by_cases hSame : id = id'
  · rw [if_pos hSame] at hAfter
    refine ⟨hSame, ?_⟩
    cases hStatus : u.status with
    | some st => exact ⟨st, rfl⟩
    | none =>
      rw [hStatus] at hAfter
      exact absurd hAfter hLeft
  · rw [if_neg hSame] at hAfter
    exact absurd hAfter hLeft

/- An operation that leaves a halted row takes effect. -/
theorem applies_of_leavesHalted
    (hExec : t.exec op out = some (r, t'))
    (hLeaves : LeavesHalted t t' id) :
    out.stmt.applies = true ∧ t' = t.apply out.now op := by
  have hTables :
      (if out.stmt.applies then t.apply out.now op else t) = t' :=
    (Prod.mk.inj (Option.some.inj hExec)).2
  cases hApplies : out.stmt.applies with
  | true =>
    rw [hApplies] at hTables
    exact ⟨rfl, hTables.symm⟩
  | false =>
    rw [hApplies] at hTables
    have hSame : t = t' := hTables
    subst hSame
    rcases hLeaves with ⟨hWas, hNot⟩ | ⟨hWas, hNot⟩
    · exact absurd hWas hNot
    · exact absurd hWas hNot

/- The registry after the route that sets the configuration. -/
theorem registry_apply_putConfig
    {u : ConfigUpdate}
    {now : Timestamp} :
    (t.putConfig id u now).registry id' = t.registry id' ∨
      (t.putConfig id u now).registry id' =
        if id = id' then (t.registry id').map (u.status.getD ·)
        else t.registry id' := by
  unfold WalletTables.putConfig
  split
  · exact .inl rfl
  · exact .inl rfl
  · rename_i st hStatus
    right
    rw [registry_updateRegistry, hStatus]
    rfl

/- What spares halted rows leaves them only by a request that says so. -/
theorem putsStatus_of_spares
    {tr : List WalletEvent}
    {tid : Nat}
    (hSpares : SparesHalted tr t (.op tid op out r))
    (hExec : t.exec op out = some (r, t'))
    (hLeaves : LeavesHalted t t' id) :
    PutsStatus id (.op tid op out r) := by
  rcases applies_of_leavesHalted hExec hLeaves with ⟨hApplies, rfl⟩
  cases op with
  | setStatus id₀ st =>
    rcases hLeaves with ⟨hWas, hNot⟩ | ⟨hWas, hNot⟩
    · rcases eq_and_ne_of_set registry_updateRegistry hWas hNot with
        ⟨rfl, hSt⟩
      exact absurd hWas
        ((hSpares tid _ out r id₀ st rfl hApplies hSt).1 rfl).1
    · rcases eq_and_ne_of_set configStatus_updateConfig hWas hNot with
        ⟨rfl, hSt⟩
      exact absurd hWas
        ((hSpares tid _ out r id₀ st rfl hApplies hSt).1 rfl).2
  | updateRegistryStatus id₀ st =>
    rcases hLeaves with ⟨hWas, hNot⟩ | ⟨hWas, hNot⟩
    · rcases eq_and_ne_of_set registry_updateRegistry hWas hNot with
        ⟨rfl, hSt⟩
      exact absurd hWas
        ((hSpares tid _ out r id₀ st rfl hApplies hSt).2.1 rfl)
    · exact absurd hWas hNot
  | updateConfigStatus id₀ st =>
    rcases hLeaves with ⟨hWas, hNot⟩ | ⟨hWas, hNot⟩
    · exact absurd hWas hNot
    · rcases eq_and_ne_of_set configStatus_updateConfig hWas hNot with
        ⟨rfl, hSt⟩
      exact absurd hWas
        ((hSpares tid _ out r id₀ st rfl hApplies hSt).2.2 rfl)
  | putConfig id₀ u =>
    rcases hLeaves with ⟨hWas, hNot⟩ | ⟨hWas, hNot⟩
    · rcases registry_apply_putConfig with hSame | hSet
      · exact absurd (hSame.trans hWas) hNot
      · rcases exists_status_of_left hSet hWas hNot with
          ⟨rfl, st, hStatus⟩
        exact ⟨tid, u, st, out, r, rfl, hStatus⟩
    · rcases exists_status_of_left configStatus_putConfig hWas hNot with
        ⟨rfl, st, hStatus⟩
      exact ⟨tid, u, st, out, r, rfl, hStatus⟩
  | upsertWalletAlert id₀ count =>
    rcases hLeaves with ⟨hWas, hNot⟩ | ⟨hWas, hNot⟩
    · exact absurd hWas hNot
    · exact absurd hWas hNot

/- A row that is set to another status is no longer halted. -/
theorem ne_halted_of_set
    {before after : Option WalletStatus}
    (hAfter : after = if id = id then before.map fun _ => st else before)
    (hSt : st ≠ .halted)
    (hBefore : before = some .halted) :
    after ≠ some .halted := by
  rw [hAfter, if_pos rfl, hBefore]
  intro hEq
  exact hSt (Option.some.inj hEq)

/- Where halted rows are left by no other request, the others spare them. -/
theorem sparesHalted_of_leftOnlyExplicitly
    {tr : List WalletEvent}
    {tid : Nat}
    (hLeft : LeftOnlyExplicitly tr t (.op tid op out r))
    (hExec : t.exec op out = some (r, t')) :
    SparesHalted tr t (.op tid op out r) := by
  intro tid' op' out' r' id st hEq hApplies hSt
  cases hEq
  have hTables : t.apply out.now op = t' := by
    have hBoth := (Prod.mk.inj (Option.some.inj hExec)).2
    rwa [if_pos hApplies] at hBoth
  have hOnly := fun hLeaves => hLeft tid op out r t' id rfl hExec hLeaves
  subst hTables
  refine ⟨?_, ?_, ?_⟩
  · rintro rfl
    refine ⟨fun hWas => ?_, fun hWas => ?_⟩
    · rcases hOnly (.inl ⟨hWas,
          ne_halted_of_set registry_updateRegistry hSt hWas⟩) with
        ⟨_, _, _, _, _, hNot, _⟩
      cases hNot
    · rcases hOnly (.inr ⟨hWas,
          ne_halted_of_set configStatus_updateConfig hSt hWas⟩) with
        ⟨_, _, _, _, _, hNot, _⟩
      cases hNot
  · rintro rfl hWas
    rcases hOnly (.inl ⟨hWas,
        ne_halted_of_set registry_updateRegistry hSt hWas⟩) with
      ⟨_, _, _, _, _, hNot, _⟩
    cases hNot
  · rintro rfl hWas
    rcases hOnly (.inr ⟨hWas,
        ne_halted_of_set configStatus_updateConfig hSt hWas⟩) with
      ⟨_, _, _, _, _, hNot, _⟩
    cases hNot

end Events

------------------------------------------------------------
-- Runs
------------------------------------------------------------

/-
  Halted wallets are left only by a request that says so, all
  along a run, exactly if no pause, resume or auto-pause of the
  run takes effect on a halted row.
-/
theorem leftOnlyExplicitly_iff
    {s₀ : WalletTables}
    {tr : List WalletEvent}
    {c : WalletSystem} :
    walletMachine.Run LeftOnlyExplicitly s₀ tr c ↔
      walletMachine.Run SparesHalted s₀ tr c := by
  constructor
  · refine Machine.Run.weaken ?_
    intro tr c e c' hStep hLeft
    cases hStep with
    | op _ hExec => exact sparesHalted_of_leftOnlyExplicitly hLeft hExec
    | ext _ =>
      intro _ _ _ _ _ _ hEq
      cases hEq
  · refine Machine.Run.weaken ?_
    intro tr c e c' hStep hSpares tid op out r t' id hEq hExec hLeaves
    subst hEq
    exact putsStatus_of_spares hSpares hExec hLeaves

/- The event is a write of a status, and no configuration request. -/
def setsStatus : WalletEvent → Bool
  | .op _ (.setStatus _ _) _ _ => true
  | _ => false

/-
  An operator halts a wallet, with the confirmation that takes,
  and somebody resumes it as if it had been paused.
-/
theorem not_leftOnlyExplicitly :
    ∃ tr c,
      walletMachine.Run Machine.anyStep (sampleTables .enabled) tr c ∧
        ¬walletMachine.Run LeftOnlyExplicitly (sampleTables .enabled)
          tr c := by
  rcases walletMachine.exists_runs_of_play (sampleTables .enabled)
      [.ext (.halt "wallet_001" true), .task 0 landed,
        .ext (.resume "wallet_001")]
      [.task 1 landed]
      (fun tr c tr' c' =>
        c.state.registry "wallet_001" = some .halted
          && c'.state.registry "wallet_001" = some .enabled
          && tr'.length = tr.length + 1
          && (tr'.getLast?.any setsStatus))
      (by decide +kernel) with
    ⟨tr, c, post, c', hBefore, hRun, hState⟩
  simp only [Bool.and_eq_true, decide_eq_true_eq, List.length_append,
    Nat.add_left_cancel_iff] at hState
  rcases hState with ⟨⟨⟨hHalted, hEnabled⟩, hOne⟩, hLast⟩
  rcases List.length_eq_one_iff.mp hOne with ⟨e, rfl⟩
  refine ⟨_, c', hRun, fun hLeft => ?_⟩
  rcases hLeft.snoc_inv with ⟨c₀, hPre, hCond, hStep⟩
  have hSame := hPre.unique hBefore
  subst hSame
  rw [List.getLast?_concat] at hLast
  cases hStep with
  | @op s s' tasks tid root op k out r hTask hExec =>
    have hLeaves : LeavesHalted s s' "wallet_001" := by
      refine .inl ⟨hHalted, ?_⟩
      dsimp only at hEnabled
      rw [hEnabled]
      exact fun hEq => by cases hEq
    rcases hCond tid op out r s' "wallet_001" rfl hExec hLeaves with
      ⟨_, _, _, _, _, hPut, _⟩
    rw [hPut] at hLast
    cases hLast
  | ext _ => cases hLast

end Pumpy
