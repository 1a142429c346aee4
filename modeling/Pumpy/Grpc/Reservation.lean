import Pumpy.Grpc.Handling
import Pumpy.Interleaving.Calls

/-
  At most one order for a key.  As long as the table's clean-up
  has not removed the key's row, the row stands for at most one
  of: a handler that may still submit or still has to release
  the key, a release that is to take effect later, an order
  that was accepted.

  Key definitions include:
    * `acceptances`
    * `FirstReserved`
    * `claims`

  The main result is `acceptances_le_one`.
-/

------------------------------------------------------------
-- What Is Promised
------------------------------------------------------------

namespace Pumpy

open Interleaving

/- The manager accepts an order for a request with key `k`. -/
def accepts (roots : List GrpcRoot) (k : String) : GrpcEvent → Bool
  | .op tid (.submitOrder _ _) _ (.ok _) =>
      roots[tid]?.any fun root => root.req.idempotencyKey = k
  | _ => false

/- How many orders were accepted for the key. -/
def acceptances
    (svc : BotService)
    (tr : List GrpcEvent)
    (k : String) : Nat :=
  tr.countP (accepts (svc.machine.rootsIn tr) k)

/- The first row for the key was inserted at time `t`. -/
def FirstReserved
    (svc : BotService)
    (s₀ : GrpcState)
    (k : String)
    (t : Timestamp)
    (tr : List GrpcEvent) : Prop :=
  ∃ pre e post c₀ c₁,
    tr = pre ++ e :: post ∧
      Machine.Run svc.machine Machine.anyStep s₀ pre c₀ ∧
        Machine.Step svc.machine c₀ e c₁ ∧ c₀.state.clock = t ∧
          c₁.state.table k ≠ none ∧
            ∀ pre' post' c',
              pre = pre' ++ post' →
                Machine.Run svc.machine Machine.anyStep s₀ pre' c' →
                  c'.state.table k = none

------------------------------------------------------------
-- Statements
------------------------------------------------------------

/- Whether the table has a row for the key, as a number. -/
def KeyTable.rows (t : KeyTable) (k : String) : Nat :=
  if (t k).isSome then 1 else 0

def GrpcOp.isStatement : GrpcOp → Bool
  | key _ => true
  | _ => false

namespace KeyOp

/- The key a statement is about. -/
def ikey : KeyOp → String
  | check ikey => ikey
  | reserve ikey _ => ikey
  | commit ikey _ => ikey
  | release ikey => ikey

section Apply

variable {clock : Timestamp} {t : KeyTable} {k : String}

theorem apply_of_ne
    {op : KeyOp}
    (hOther : op.ikey ≠ k) :
    op.apply clock t k = t k := by
  cases op with
  | check ikey => rfl
  | reserve ikey placer =>
      simp only [KeyOp.apply]
      split
      · exact Function.update_of_ne (Ne.symm hOther) _ _
      · rfl
  | commit ikey orderId =>
      exact Function.update_of_ne (Ne.symm hOther) _ _
  | release ikey => exact Function.update_of_ne (Ne.symm hOther) _ _

theorem rows_apply_reserve
    (placer : Nat) :
    KeyTable.rows ((reserve k placer).apply clock t) k = 1 := by
  refine if_pos ?_
  simp only [KeyOp.apply]
  split
  · rw [Function.update_self]
    rfl
  · rename_i hSome
    simpa [Option.isSome_iff_ne_none] using hSome

theorem rows_apply_commit
    (orderId : OrderId) :
    KeyTable.rows ((commit k orderId).apply clock t) k = t.rows k := by
  simp [KeyTable.rows, KeyOp.apply]

theorem rows_apply_release
    (clock : Timestamp) :
    KeyTable.rows ((release k).apply clock t) k = 0 := by
  simp [KeyTable.rows, KeyOp.apply]

/- Only releasing the key removes its row. -/
theorem rows_le_apply
    {op : KeyOp}
    (hNot : op ≠ release k) :
    t.rows k ≤ KeyTable.rows (op.apply clock t) k := by
  by_cases hSame : op.ikey = k
  · cases op with
    | check ikey => exact Nat.le_refl _
    | reserve ikey placer =>
        have hSame : ikey = k := hSame
        subst hSame
        rw [rows_apply_reserve]
        unfold KeyTable.rows
        split
        · exact Nat.le_refl _
        · exact Nat.zero_le _
    | commit ikey orderId =>
        have hSame : ikey = k := hSame
        subst hSame
        rw [rows_apply_commit]
    | release ikey =>
        have hSame : ikey = k := hSame
        subst hSame
        exact absurd rfl hNot
  · unfold KeyTable.rows
    rw [apply_of_ne hSame]

/- Where the row of a key after a statement comes from. -/
theorem row_of_apply
    {op : KeyOp} {row : IdempotencyKeyRow}
    (hRow : op.apply clock t k = some row) :
    t k = some row ∨
      (t k = none ∧ ∃ n, op = reserve k n ∧ row = ⟨"", clock, n⟩) ∨
        ∃ orderId row₀,
          op = commit k orderId ∧ t k = some row₀ ∧
            row = { row₀ with orderId := orderId } := by
  by_cases hSame : op.ikey = k
  · cases op with
    | check ikey => exact .inl hRow
    | reserve ikey placer =>
        have hSame : ikey = k := hSame
        subst hSame
        simp only [KeyOp.apply] at hRow
        split at hRow
        · rename_i hFree
          rw [Function.update_self] at hRow
          cases hRow
          exact .inr (.inl ⟨Option.isNone_iff_eq_none.mp hFree, placer,
            rfl, rfl⟩)
        · exact .inl hRow
    | commit ikey orderId =>
        have hSame : ikey = k := hSame
        subst hSame
        simp only [KeyOp.apply, Function.update_self] at hRow
        rcases Option.map_eq_some_iff.mp hRow with ⟨row₀, hOld, rfl⟩
        exact .inr (.inr ⟨orderId, row₀, rfl, hOld, rfl⟩)
    | release ikey =>
        have hSame : ikey = k := hSame
        subst hSame
        simp [KeyOp.apply] at hRow
  · rw [apply_of_ne hSame] at hRow
    exact .inl hRow

end Apply

end KeyOp

------------------------------------------------------------
-- Claims on a Key
------------------------------------------------------------

/- The key a handler has reserved and neither used nor given back. -/
def owns : GrpcPhase → Option String
  | .keyed h .reserved => some h.key
  | .keyed h .rejected => some h.key
  | .keyed h .releasing => some h.key
  | _ => none

/- What the row of a key may stand for. -/
def claims
    (svc : BotService)
    (k : String)
    (tr : List GrpcEvent)
    (s : GrpcState)
    (shs : List (Shadow GrpcRoot GrpcPhase)) : Nat :=
  (Protocol.held owns shs).count k + s.pending.count (.release k) +
    acceptances svc tr k

/- The clean-up does not remove the row of the key. -/
def KeepsRow (k : String) : GrpcCond :=
  fun _ s e =>
    e = .ext .cleanup →
      ∀ row, s.table k = some row → s.clock ≤ row.createdAt + ikeyTtl

/- The runs of the service, as its protocol sees them. -/
abbrev GrpcShadowRun (svc : BotService) :=
  Protocol.ShadowRun handling svc.machine

section Claims

variable {svc : BotService} {C : GrpcCond} {s₀ s s' : GrpcState}
variable {tr : List GrpcEvent} {k : String} {e : GrpcEvent}
variable {shs shs' : List (Shadow GrpcRoot GrpcPhase)}

/- A handler's phase names the handler. -/
theorem phase_names
    (hRun : GrpcShadowRun svc C s₀ tr s shs)
    {tid : Nat} {root : GrpcRoot} {g : GrpcPhase}
    (hPhase : shs[tid]? = some ⟨root, some g⟩) :
    g.Names root := by
  refine hRun.local_invariant (fun _ _ root g => g.Names root)
    ?_ ?_ ?_ hPhase
  · intro _ _ root _
    change GrpcPhase.Names root root.phase
    unfold GrpcRoot.phase
    split
    · assumption
    · exact ⟨rfl, by assumption⟩
  · rintro _ _ _ _ _ root g op _ r g' _ _ _ _ hNames hMove
    have hMove : GrpcMove g op r g' := hMove
    cases hMove <;> exact hNames
  · intro _ _ _ _ _ _ _ _ _ hHolds _
    exact hHolds

/- Requests that come later change nothing about earlier events. -/
theorem acceptances_append_singleton
    (hRun : GrpcShadowRun svc C s₀ tr s shs) :
    acceptances svc (tr ++ [e]) k =
      acceptances svc tr k +
        if accepts (svc.machine.rootsIn (tr ++ [e])) k e then 1 else 0 := by
  unfold acceptances
  rw [List.countP_append, List.countP_singleton]
  congr 1
  apply List.countP_congr
  intro e' hMem
  have hSame :
      accepts (svc.machine.rootsIn (tr ++ [e])) k e' =
        accepts (svc.machine.rootsIn tr) k e' := by
    unfold accepts
    split
    · rename_i tid p o env orderId
      have hLt := hRun.tid_lt hMem
      rw [← List.length_map (f := Shadow.root), hRun.roots_eq] at hLt
      rw [Machine.rootsIn_append_left _ _ hLt]
    · rfl
  rw [hSame]

/- The outcome of a statement. -/
theorem exec_key
    {op : KeyOp} {env : GrpcOutcome} {r : (GrpcOp.key op).Resp}
    (hExec : GrpcState.exec (.key op) env s = some (r, s')) :
    ∃ d, env = .delivery d ∧ r = (op.exec d s).1 ∧ s' = (op.exec d s).2 := by
  cases env with
  | delivery d =>
      have hEq : op.exec d s = (r, s') := Option.some.inj hExec
      exact ⟨d, rfl, by rw [hEq], by rw [hEq]⟩
  | _ => cases hExec

/- An operation that is no statement changes memory only. -/
theorem exec_of_not_statement
    {op : GrpcOp} {env : GrpcOutcome} {r : op.Resp}
    (hExec : GrpcState.exec op env s = some (r, s'))
    (hOther : op.isStatement = false) :
    ∃ processes, s' = { s with processes := processes } := by
  cases op with
  | cache p op =>
      cases env with
      | plain =>
          cases hExec
          exact ⟨_, rfl⟩
      | _ => cases hExec
  | key op => cases hOther
  | utcNow =>
      cases env with
      | time t =>
          cases hExec
          exact ⟨_, rfl⟩
      | _ => cases hExec
  | submitOrder p order =>
      cases env with
      | order r =>
          rcases Option.ite_none_left_eq_some.mp hExec with ⟨_, hEq⟩
          cases hEq
          exact ⟨_, rfl⟩
      | _ => cases hExec

/- An operation changes memory only, or does what a statement does. -/
inductive TableStep (s : GrpcState) :
    (op : GrpcOp) → GrpcOutcome → op.Resp → GrpcState → Prop
  | memory
      {op : GrpcOp}
      {env : GrpcOutcome}
      {r : op.Resp}
      (processes : Nat → EngineProcess) :
      TableStep s op env r { s with processes := processes }
  | statement
      (op : KeyOp)
      (d : Delivery) :
      TableStep s (.key op) (.delivery d) (op.exec d s).1
        (op.exec d s).2

theorem tableStep_of_exec
    {op : GrpcOp} {env : GrpcOutcome} {r : op.Resp}
    (hExec : GrpcState.exec op env s = some (r, s')) :
    TableStep s op env r s' := by
  cases hStatement : op.isStatement with
  | false =>
      rcases exec_of_not_statement hExec hStatement with
        ⟨processes, rfl⟩
      exact .memory processes
  | true =>
      cases op with
      | key op =>
          rcases exec_key hExec with ⟨d, rfl, rfl, rfl⟩
          exact .statement op d
      | _ => cases hStatement

theorem clock_exec_key
    {op : KeyOp} {d : Delivery} :
    (op.exec d s).2.clock = s.clock := by
  cases d <;> rfl

/- What a statement that does not release the key leaves. -/
theorem rows_of_exec_key
    {op : KeyOp} {d : Delivery}
    (hNot : op ≠ .release k) :
    s.table.rows k ≤ KeyTable.rows (op.exec d s).2.table k ∧
      (op.exec d s).2.pending.count (.release k) =
        s.pending.count (.release k) := by
  cases d with
  | answered => exact ⟨KeyOp.rows_le_apply hNot, rfl⟩
  | lost e => exact ⟨KeyOp.rows_le_apply hNot, rfl⟩
  | late e =>
      refine ⟨Nat.le_refl _, ?_⟩
      exact List.count_cons_of_ne hNot
  | failed e => exact ⟨Nat.le_refl _, rfl⟩

/- A release takes effect, is to do so later, or never does. -/
theorem rows_of_exec_release
    {d : Delivery} :
    let s' := ((KeyOp.release k).exec d s).2
    (s'.table.rows k = 0 ∨ s'.table.rows k = s.table.rows k) ∧
      (s'.pending.count (.release k) = s.pending.count (.release k) ∨
        (s'.table.rows k = s.table.rows k ∧
          s'.pending.count (.release k) =
            s.pending.count (.release k) + 1)) := by
  cases d with
  | answered => exact ⟨.inl (KeyOp.rows_apply_release s.clock), .inl rfl⟩
  | lost e => exact ⟨.inl (KeyOp.rows_apply_release s.clock), .inl rfl⟩
  | late e =>
      refine ⟨.inr rfl, .inr ⟨rfl, ?_⟩⟩
      exact List.count_cons_self
  | failed e => exact ⟨.inr rfl, .inl rfl⟩

/- What a phase adds to the claims on a key. -/
def stake (k : String) (g : GrpcPhase) : Nat :=
  (owns g).toList.count k

/- Where the next phase claims no more, nothing is claimed anew. -/
theorem stake_of_not_owner
    {g : GrpcPhase}
    (hNone : owns g = none) :
    stake k g = 0 := by
  rw [stake, hNone]
  rfl

theorem stake_of_owner
    {g : GrpcPhase} {h : GrpcHandler}
    (hOwns : owns g = some h.key) :
    stake k g = if h.key = k then 1 else 0 := by
  rw [stake, hOwns, Option.toList_some, List.count_singleton]
  simp only [beq_iff_eq]

theorem rows_le_one
    (t : KeyTable) :
    t.rows k ≤ 1 := by
  unfold KeyTable.rows
  split
  · exact Nat.le_refl _
  · exact Nat.zero_le _

/- Reserving a key claims it only where the row is its own. -/
theorem stake_reserve
    {h : GrpcHandler} {d : Delivery} {n : Nat}
    (hBefore : n + s.pending.count (.release k) ≤ s.table.rows k) :
    let x := (KeyOp.reserve h.key h.number).exec d s
    stake k (.keyed h (.afterReserve x.1)) + n +
        x.2.pending.count (.release k) ≤
      KeyTable.rows x.2.table k := by
  intro x
  have hKept :
      s.table.rows k ≤ KeyTable.rows x.2.table k ∧
        x.2.pending.count (.release k) =
          s.pending.count (.release k) :=
    rows_of_exec_key (nomatch ·)
  have hPlain :
      owns (.keyed h (.afterReserve x.1)) = none →
        stake k (.keyed h (.afterReserve x.1)) + n +
            x.2.pending.count (.release k) ≤
          KeyTable.rows x.2.table k := by
    intro hNone
    rw [stake_of_not_owner hNone]
    omega
  cases d with
  | lost e => exact hPlain rfl
  | late e => exact hPlain rfl
  | failed e => exact hPlain rfl
  | answered =>
      cases hRow : s.table h.key with
      | some row =>
          refine hPlain ?_
          have hTaken : x.1 = .ok false := by
            simp [x, KeyOp.exec, KeyOp.value, hRow]
          rw [hTaken]
          rfl
      | none =>
          have hTaken : x.1 = .ok true := by
            simp [x, KeyOp.exec, KeyOp.value, hRow]
          rw [hTaken, stake_of_owner (h := h) rfl]
          by_cases hSame : h.key = k
          · subst hSame
            have hFree : s.table.rows h.key = 0 := by
              simp [KeyTable.rows, hRow]
            have hTook : KeyTable.rows x.2.table h.key = 1 :=
              KeyOp.rows_apply_reserve h.number
            rw [if_pos rfl, hTook]
            omega
          · rw [if_neg hSame]
            omega

/- Releasing a key gives up the claim, or leaves it to the statement. -/
theorem stake_release
    {h : GrpcHandler} {d : Delivery} {n : Nat}
    (hBefore :
      stake k (.keyed h .releasing) + n +
          s.pending.count (.release k) ≤
        s.table.rows k) :
    let x := (KeyOp.release h.key).exec d s
    n + x.2.pending.count (.release k) ≤
      KeyTable.rows x.2.table k := by
  intro x
  rw [stake_of_owner (h := h) rfl] at hBefore
  by_cases hSame : h.key = k
  · subst hSame
    rw [if_pos rfl] at hBefore
    have hOne := rows_le_one (k := h.key) s.table
    have hGone :
        (x.2.table.rows h.key = 0 ∨
            x.2.table.rows h.key = s.table.rows h.key) ∧
          (x.2.pending.count (.release h.key) =
              s.pending.count (.release h.key) ∨
            (x.2.table.rows h.key = s.table.rows h.key ∧
              x.2.pending.count (.release h.key) =
                s.pending.count (.release h.key) + 1)) :=
      rows_of_exec_release
    omega
  · rw [if_neg hSame] at hBefore
    have hNot : KeyOp.release h.key ≠ .release k := by
      intro hEq
      cases hEq
      exact hSame rfl
    have hKept :
        s.table.rows k ≤ KeyTable.rows x.2.table k ∧
          x.2.pending.count (.release k) =
            s.pending.count (.release k) :=
      rows_of_exec_key hNot
    omega

/- An operation that is no statement, where nothing is accepted. -/
theorem stake_idle
    {op : GrpcOp} {env : GrpcOutcome} {r : op.Resp} {tid n : Nat}
    {roots : List GrpcRoot} {g g' : GrpcPhase}
    (hExec : GrpcState.exec op env s = some (r, s'))
    (hOther : op.isStatement = false)
    (hAccepts : accepts roots k (.op tid op env r) = false)
    (hStake : stake k g' = stake k g)
    (hBefore :
      stake k g + n + s.pending.count (.release k) ≤ s.table.rows k) :
    (stake k g' + n + s'.pending.count (.release k) +
        if accepts roots k (.op tid op env r) then 1 else 0) ≤
      s'.table.rows k := by
  rcases exec_of_not_statement hExec hOther with ⟨processes, rfl⟩
  rw [hAccepts, hStake]
  simpa using hBefore

/- A statement that neither reserves nor releases the key. -/
theorem stake_statement
    {op : KeyOp} {env : GrpcOutcome} {r : (GrpcOp.key op).Resp}
    {tid n : Nat} {roots : List GrpcRoot} {g g' : GrpcPhase}
    (hExec : GrpcState.exec (.key op) env s = some (r, s'))
    (hNot : op ≠ .release k)
    (hStake : stake k g' = 0)
    (hBefore :
      stake k g + n + s.pending.count (.release k) ≤ s.table.rows k) :
    (stake k g' + n + s'.pending.count (.release k) +
        if accepts roots k (.op tid (.key op) env r) then 1 else 0) ≤
      s'.table.rows k := by
  rcases exec_key hExec with ⟨d, rfl, rfl, rfl⟩
  rcases rows_of_exec_key (s := s) (d := d) hNot with ⟨hRows, hPending⟩
  rw [hStake, hPending]
  simp only [accepts, Bool.false_eq_true, if_false]
  omega

/- No move claims a key whose row stands for something else. -/
theorem stake_move
    {op : GrpcOp} {env : GrpcOutcome} {r : op.Resp} {tid n : Nat}
    {roots : List GrpcRoot} {root : GrpcRoot} {g g' : GrpcPhase}
    (hKey : k ≠ "")
    (hRoot : roots[tid]? = some root)
    (hNames : g.Names root)
    (hMove : GrpcMove g op r g')
    (hExec : GrpcState.exec op env s = some (r, s'))
    (hBefore :
      stake k g + n + s.pending.count (.release k) ≤ s.table.rows k) :
    (stake k g' + n + s'.pending.count (.release k) +
        if accepts roots k (.op tid op env r) then 1 else 0) ≤
      s'.table.rows k := by
  cases hMove with
  | now => exact stake_idle hExec rfl rfl rfl hBefore
  | submit =>
      have hNone : root.req.idempotencyKey = "" := hNames
      refine stake_idle hExec rfl ?_ rfl hBefore
      unfold accepts
      split
      · rename_i tid' p' o' env' orderId hEq
        cases hEq
        rw [hRoot]
        simpa [hNone] using hKey.symm
      · rfl
  | @lookup h hit =>
      refine stake_idle hExec rfl rfl ?_ hBefore
      rw [stake_of_not_owner (g := .keyed h .start) rfl,
        stake_of_not_owner]
      unfold KeyStage.afterLookup
      split
      · rfl
      · split <;> rfl
  | @check h row =>
      refine stake_statement hExec (nomatch ·) ?_ hBefore
      rw [stake_of_not_owner]
      unfold KeyStage.afterCheck
      split
      · rfl
      · rfl
      · split <;> rfl
  | @reserve h r =>
      rcases exec_key hExec with ⟨d, rfl, rfl, rfl⟩
      rw [stake_of_not_owner (g := .keyed h .checked) rfl,
        Nat.zero_add] at hBefore
      simpa [accepts] using stake_reserve (h := h) (d := d) hBefore
  | build => exact stake_idle hExec rfl rfl rfl hBefore
  | @place h o r =>
      have hSame : h = root.handler := hNames.1
      cases r with
      | error e =>
          exact stake_idle hExec rfl rfl rfl hBefore
      | ok orderId =>
          rcases exec_of_not_statement hExec rfl with ⟨processes, rfl⟩
          have hAccepts :
              (if accepts roots k
                  (.op tid (.submitOrder h.process o) env (.ok orderId))
                then 1 else 0) =
                stake k (.keyed h .reserved) := by
            rw [stake_of_owner (h := h) rfl, hSame]
            by_cases hEq : root.req.idempotencyKey = k <;>
              simp [accepts, hRoot, GrpcRoot.handler, hEq]
          rw [hAccepts, stake_of_not_owner rfl]
          dsimp only
          omega
  | store => exact stake_idle hExec rfl rfl rfl hBefore
  | commit => exact stake_statement hExec (nomatch ·) rfl hBefore
  | withdraw => exact stake_idle hExec rfl rfl rfl hBefore
  | @release h r =>
      rcases exec_key hExec with ⟨d, rfl, rfl, rfl⟩
      rw [stake_of_not_owner (g := .keyed h (.closed .refused)) rfl,
        Nat.zero_add]
      simpa [accepts] using stake_release (d := d) hBefore
  | fail => exact stake_idle hExec rfl rfl rfl hBefore
  | yield => exact stake_idle hExec rfl rfl rfl hBefore
  | recover => exact stake_idle hExec rfl rfl rfl hBefore

/- A statement that takes effect later gives up its claim then. -/
theorem claims_takeEffect
    {op : KeyOp} {n : Nat}
    (hMem : op ∈ s.pending)
    (hBefore : n + s.pending.count (.release k) ≤ s.table.rows k) :
    n + (s.pending.erase op).count (.release k) ≤
      KeyTable.rows (op.apply s.clock s.table) k := by
  by_cases hRelease : op = .release k
  · subst hRelease
    have hOne := rows_le_one (k := k) s.table
    have hPos : 0 < s.pending.count (.release k) :=
      List.count_pos_iff.mpr hMem
    rw [List.count_erase_self]
    omega
  · have hRows : s.table.rows k ≤ KeyTable.rows (op.apply s.clock s.table) k :=
      KeyOp.rows_le_apply hRelease
    rw [List.count_erase_of_ne (Ne.symm hRelease)]
    omega

/- Nothing outside the handlers claims a key, or removes its row. -/
theorem claims_ext
    {ext : GrpcExt} {n : Nat}
    (hCond : KeepsRow k tr s (.ext ext))
    (hExt : ext.exec s = some s')
    (hBefore : n + s.pending.count (.release k) ≤ s.table.rows k) :
    n + s'.pending.count (.release k) ≤ s'.table.rows k := by
  cases ext with
  | request root =>
      rcases Option.ite_none_right_eq_some.mp hExt with ⟨_, hEq⟩
      cases hEq
      exact hBefore
  | drop tid =>
      cases hExt
      exact hBefore
  | restart p =>
      cases hExt
      exact hBefore
  | takeEffect op =>
      rcases Option.ite_none_right_eq_some.mp hExt with ⟨hMem, hEq⟩
      cases hEq
      exact claims_takeEffect hMem hBefore
  | cleanup =>
      cases hExt
      refine Nat.le_trans hBefore (Nat.le_of_eq ?_)
      cases hRow : s.table k with
      | none => simp [KeyTable.rows, hRow]
      | some row =>
          have hKept := hCond rfl row hRow
          simp [KeyTable.rows, hRow, Option.filter, hKept]
  | dbTick d =>
      cases hExt
      exact hBefore
  | tick p d =>
      cases hExt
      exact hBefore

/- A handler that starts has claimed nothing. -/
theorem held_requested
    (ext : GrpcExt) :
    Protocol.held owns
      ((svc.machine.extRoots ext).map handling.startShadow) = [] := by
  apply List.filterMap_eq_nil_iff.mpr
  intro sh hMem
  rcases List.mem_map.mp hMem with ⟨root, _, rfl⟩
  change owns root.phase = none
  unfold GrpcRoot.phase
  split <;> rfl

/- The row of a key stands for at most one claim. -/
theorem claims_le_rows
    (hKey : k ≠ "")
    (hStart : s₀.pending = [])
    (hRun : GrpcShadowRun svc (KeepsRow k) s₀ tr s shs) :
    claims svc k tr s shs ≤ s.table.rows k := by
  induction hRun with
  | nil => simp [claims, acceptances, hStart]
  | @snoc tr s s' shs shs' e hRun hCond hStep ih =>
      unfold claims at ih ⊢
      rw [acceptances_append_singleton hRun]
      cases hStep with
      | @op _ _ tid root g g' op env r hPhase hMove hExec =>
          rcases Protocol.exists_held_set (f := owns) g' hPhase with
            ⟨rest, hOld, hNew⟩
          have hRoots :
              (svc.machine.rootsIn (tr ++ [.op tid op env r]))[tid]? =
                some root :=
            hRun.root_at _ hPhase
          have hNow : GrpcMove g op r g' := hMove
          have hDone : GrpcState.exec op env s = some (r, s') := hExec
          have hStake :=
            stake_move (n := rest.count k + acceptances svc tr k) hKey
              hRoots (phase_names hRun hPhase) hNow hDone
              (by
                rw [hOld.count_eq, List.count_append] at ih
                unfold stake
                omega)
          have hNone : svc.machine.opRoots op = [] := rfl
          rw [hNone, List.map_nil, List.append_nil, hNew.count_eq,
            List.count_append]
          unfold stake at hStake
          omega
      | @ext _ _ ext hExt =>
          have hDone : ext.exec s = some s' := hExt
          have hFewer :
              (Protocol.held owns
                (shs.mapIdx (Protocol.surviveShadow svc.machine ext) ++
                  (svc.machine.extRoots ext).map
                    handling.startShadow)).count k ≤
                (Protocol.held owns shs).count k := by
            rw [Protocol.held_append, held_requested, List.append_nil]
            exact (Protocol.held_survive_sublist svc.machine ext owns
              shs).count_le k
          have hRest :=
            claims_ext
              (n := (Protocol.held owns shs).count k +
                acceptances svc tr k)
              hCond hDone (by omega)
          simp only [accepts, Bool.false_eq_true, if_false]
          omega

------------------------------------------------------------
-- The Window
------------------------------------------------------------

/- It is not before `t`, and no row for the key is older. -/
structure Since (k : String) (t : Timestamp) (s : GrpcState) :
    Prop where
  clock : t ≤ s.clock
  rows : ∀ row, s.table k = some row → t ≤ row.createdAt

/- A statement inserts rows of its own time only. -/
theorem created_apply
    {clock t : Timestamp} {table : KeyTable}
    (op : KeyOp)
    (hClock : t ≤ clock)
    (hRows : ∀ row, table k = some row → t ≤ row.createdAt) :
    ∀ row, op.apply clock table k = some row → t ≤ row.createdAt := by
  intro row hRow
  rcases KeyOp.row_of_apply hRow with
    hOld | ⟨_, n, _, rfl⟩ | ⟨orderId, row₀, _, hOld, rfl⟩
  · exact hRows row hOld
  · exact hClock
  · exact hRows row₀ hOld

theorem since_exec
    {t : Timestamp} {op : GrpcOp} {env : GrpcOutcome} {r : op.Resp}
    (hExec : GrpcState.exec op env s = some (r, s'))
    (hSince : Since k t s) :
    Since k t s' := by
  cases tableStep_of_exec hExec with
  | memory processes => exact ⟨hSince.clock, hSince.rows⟩
  | statement op d =>
      refine ⟨by rw [clock_exec_key]; exact hSince.clock, ?_⟩
      cases d with
      | answered => exact created_apply op hSince.clock hSince.rows
      | lost e => exact created_apply op hSince.clock hSince.rows
      | late e => exact hSince.rows
      | failed e => exact hSince.rows

theorem since_ext
    {t : Timestamp} {ext : GrpcExt}
    (hExt : ext.exec s = some s')
    (hSince : Since k t s) :
    Since k t s' := by
  cases ext with
  | request root =>
      rcases Option.ite_none_right_eq_some.mp hExt with ⟨_, hEq⟩
      cases hEq
      exact ⟨hSince.clock, hSince.rows⟩
  | drop tid =>
      cases hExt
      exact hSince
  | restart p =>
      cases hExt
      exact ⟨hSince.clock, hSince.rows⟩
  | takeEffect op =>
      rcases Option.ite_none_right_eq_some.mp hExt with ⟨_, hEq⟩
      cases hEq
      exact ⟨hSince.clock, created_apply op hSince.clock hSince.rows⟩
  | cleanup =>
      cases hExt
      refine ⟨hSince.clock, fun row hRow => ?_⟩
      rcases Option.filter_eq_some_iff.mp hRow with ⟨hOld, _⟩
      exact hSince.rows row hOld
  | dbTick d =>
      cases hExt
      exact ⟨Nat.le_trans hSince.clock (Nat.le_add_right _ _),
        hSince.rows⟩
  | tick p d =>
      cases hExt
      exact ⟨hSince.clock, hSince.rows⟩

theorem since_step
    {t : Timestamp} {c c' : GrpcConfig}
    (hStep : Machine.Step svc.machine c e c')
    (hSince : Since k t c.state) :
    Since k t c'.state := by
  cases hStep with
  | op hTask hExec => exact since_exec hExec hSince
  | ext hExt => exact since_ext hExt hSince

/- The table's clock does not go back. -/
theorem clock_step
    {c c' : GrpcConfig}
    (hStep : Machine.Step svc.machine c e c') :
    c.state.clock ≤ c'.state.clock := by
  cases hStep with
  | @op s s' _ _ _ op _ env r _ hExec =>
      have hDone : GrpcState.exec op env s = some (r, s') := hExec
      cases tableStep_of_exec hDone with
      | memory processes => exact Nat.le_refl _
      | statement op d => exact Nat.le_of_eq clock_exec_key.symm
  | @ext s s' _ ext hExt =>
      have hDone : ext.exec s = some s' := hExt
      cases ext with
      | request root =>
          rcases Option.ite_none_right_eq_some.mp hDone with ⟨_, hEq⟩
          cases hEq
          exact Nat.le_refl _
      | takeEffect op =>
          rcases Option.ite_none_right_eq_some.mp hDone with ⟨_, hEq⟩
          cases hEq
          exact Nat.le_refl _
      | dbTick d =>
          cases hDone
          exact Nat.le_add_right _ _
      | _ =>
          cases hDone
          exact Nat.le_refl _

/- Within the window no clean-up removes the key's row. -/
theorem keepsRow_of_window
    {c : GrpcConfig} {t : Timestamp}
    (hRun : Machine.Run svc.machine Machine.anyStep s₀ tr c)
    (hFirst : FirstReserved svc s₀ k t tr)
    (hWindow : c.state.clock ≤ t + ikeyTtl) :
    Machine.Run svc.machine (KeepsRow k) s₀ tr c := by
  rcases hFirst with
    ⟨pre, e, post, c₀, c₁, hSplit, hPre, _, hClock, _, hNone⟩
  refine hRun.meets ?_
  rintro pre' post' e' c' hAt hPre' rfl row hRow
  have hLater : c'.state.clock ≤ c.state.clock := by
    rw [hAt] at hRun
    exact hPre'.since (P := fun c => c'.state.clock ≤ c.state.clock)
      (fun _ _ _ hStep hLe => Nat.le_trans hLe (clock_step hStep))
      (Nat.le_refl _) hRun
  have hOld : t ≤ row.createdAt := by
    rw [hSplit] at hAt
    rcases List.append_eq_append_iff.mp hAt with
      ⟨mid, rfl, _⟩ | ⟨mid, rfl, _⟩
    · have hStart : Since k t c₀.state := by
        refine ⟨Nat.le_of_eq hClock.symm, fun row' hRow' => ?_⟩
        rw [hNone pre [] c₀ (List.append_nil _).symm hPre] at hRow'
        cases hRow'
      exact (hPre.since (P := fun c => Since k t c.state)
        (fun _ _ _ hStep hSince => since_step hStep hSince)
        hStart hPre').rows row hRow
    · rw [hNone pre' mid c' rfl hPre'] at hRow
      cases hRow
  exact Nat.le_trans hLater
    (Nat.le_trans hWindow (Nat.add_le_add_right hOld _))

end Claims

/- Within the window there is at most one claim on the key. -/
theorem exists_claims_le_one
    (svc : BotService)
    (clock : Timestamp)
    (table : KeyTable)
    {k : String}
    {t : Timestamp}
    {tr : List GrpcEvent}
    {c : GrpcConfig}
    (hKey : k ≠ "")
    (hRun :
      Machine.Run svc.machine Machine.anyStep (.boot clock table) tr c)
    (hFirst : FirstReserved svc (.boot clock table) k t tr)
    (hWindow : c.state.clock ≤ t + ikeyTtl) :
    ∃ shs, claims svc k tr c.state shs ≤ 1 := by
  have hKeeps := keepsRow_of_window hRun hFirst hWindow
  rcases Protocol.shadowRun_of_run svc.follows hKeeps with
    ⟨shs, hShadow⟩
  have hClaims := claims_le_rows hKey rfl hShadow
  exact ⟨shs, Nat.le_trans hClaims (rows_le_one (k := k) c.state.table)⟩

------------------------------------------------------------
-- At Most One Order
------------------------------------------------------------

/-
  Within 60 seconds of the first row for a key, at most one
  order is accepted for it: whatever the handlers, in whichever
  processes, whatever fails, is dropped or starts anew.
-/
theorem acceptances_le_one
    (svc : BotService)
    (clock : Timestamp)
    (table : KeyTable)
    {k : String}
    {t : Timestamp}
    {tr : List GrpcEvent}
    {c : GrpcConfig}
    (hKey : k ≠ "")
    (hRun :
      Machine.Run svc.machine Machine.anyStep (.boot clock table) tr c)
    (hFirst : FirstReserved svc (.boot clock table) k t tr)
    (hWindow : c.state.clock ≤ t + ikeyTtl) :
    acceptances svc tr k ≤ 1 := by
  rcases exists_claims_le_one svc clock table hKey hRun hFirst hWindow
    with ⟨shs, hClaims⟩
  unfold claims at hClaims
  omega

/- A key with a row was first reserved at some time. -/
theorem exists_firstReserved
    {svc : BotService} {s₀ : GrpcState} {k : String}
    {tr : List GrpcEvent} {c : GrpcConfig}
    (hRun : Machine.Run svc.machine Machine.anyStep s₀ tr c)
    (hStart : s₀.table k = none)
    (hRow : c.state.table k ≠ none) :
    ∃ t, s₀.clock ≤ t ∧ FirstReserved svc s₀ k t tr := by
  have hEither :
      (∀ pre post c',
        tr = pre ++ post →
          Machine.Run svc.machine Machine.anyStep s₀ pre c' →
            c'.state.table k = none) ∨
        ∃ t, s₀.clock ≤ t ∧ FirstReserved svc s₀ k t tr := by
    clear hRow
    induction hRun with
    | nil =>
        left
        intro pre post c' hSplit hPre
        rw [(List.nil_eq_append_iff.mp hSplit).1] at hPre
        rw [hPre.unique (.nil (C := Machine.anyStep))]
        exact hStart
    | @snoc tr c c' e hRun hCond hStep ih =>
        rcases ih with hNone | ⟨t, hLe, pre, e', post, c₀, c₁, hSplit, hRest⟩
        · by_cases hRow : c'.state.table k = none
          · left
            intro pre post c₁ hSplit hPre
            rcases List.eq_nil_or_concat post with rfl | ⟨post', last, hPost⟩
            · rw [List.append_nil] at hSplit
              rw [← hSplit] at hPre
              rw [hPre.unique (.snoc hRun hCond hStep)]
              exact hRow
            · rw [hPost, List.concat_eq_append, ← List.append_assoc]
                at hSplit
              exact hNone pre post' c₁ (List.append_inj' hSplit rfl).1 hPre
          · right
            have hLater : s₀.clock ≤ c.state.clock :=
              Machine.Run.since (P := fun c => s₀.clock ≤ c.state.clock)
                (fun _ _ _ hStep hLe => Nat.le_trans hLe (clock_step hStep))
                (.nil (C := Machine.anyStep)) (Nat.le_refl _) hRun
            exact ⟨c.state.clock, hLater, tr, e, [], c, c', rfl, hRun,
              hStep, rfl, hRow, hNone⟩
        · right
          exact ⟨t, hLe, pre, e', post ++ [e], c₀, c₁,
            by rw [hSplit, List.append_assoc]; rfl, hRest⟩
  rcases hEither with hNone | hFirst
  · exact absurd (hNone tr [] c (List.append_nil _).symm hRun) hRow
  · exact hFirst

/-
  A request comes in at two processes.  One reserves the key
  and has its order accepted; the other finds the row.  Both
  are told of success.
-/
def duplicateSchedule : List (Machine.Choice GrpcOutcome GrpcExt) :=
  [arrives 0 0 "k", arrives 1 1 "k"] ++
    grpcSteps 0
      [.plain, .delivery .answered, .delivery .answered] ++
    grpcSteps 1 [.plain, .delivery .answered] ++
    grpcSteps 0
      [.time 0, .time 0, .order (.ok "a"), .plain,
        .delivery .answered]

theorem exists_acceptances_le_one :
    ∃ (tr : List GrpcEvent) (c : GrpcConfig) (t : Timestamp),
      FirstReserved sampleService sampleGrpcState "k" t tr ∧
        successes c = 2 ∧ acceptances sampleService tr "k" ≤ 1 := by
  have hPlay :=
    Machine.exists_run_of_play sampleService.machine sampleGrpcState
      duplicateSchedule
      (fun _ c =>
        decide (successes c = 2 ∧ c.state.clock = 0 ∧
          c.state.table "k" ≠ none))
      (by decide +kernel)
  rcases hPlay with ⟨tr, c, hRun, hShown⟩
  rcases of_decide_eq_true hShown with ⟨hBoth, hClock, hRow⟩
  rcases exists_firstReserved hRun rfl hRow with ⟨t, _, hFirst⟩
  refine ⟨tr, c, t, hFirst, hBoth, ?_⟩
  refine acceptances_le_one _ _ _ (by decide) hRun hFirst ?_
  rw [hClock]
  exact Nat.zero_le _

end Pumpy
