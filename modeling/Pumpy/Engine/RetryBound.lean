import Pumpy.Engine.Retry
import Pumpy.Interleaving.Endings

/-
  Retries are bounded: the count of an order in the channel is
  the number of passes it has had, and a pass that does not put
  its order back is the last one.

  Key definitions include:
    * `passesOf`
    * `RetriesHold`
    * `Retry.Past`
    * `Counted`
    * `Handed`

  The main result is `retriesHold_of_untried`.
-/

------------------------------------------------------------
-- What is Promised
------------------------------------------------------------

namespace Pumpy

open Interleaving

/- The order a task is a pass of, if it is one of this order. -/
def Root.passOf (id : OrderId) : Root → Option Order
  | .processOrder o => if o.id = id then some o else none
  | _ => none

/- The passes of an order, from the first. -/
def passesOf
    (om : OrderManager)
    (tr : List OmEvent)
    (id : OrderId) : List Order :=
  (om.machine.rootsIn tr).filterMap (Root.passOf id)

/- The task has sent an order into the channel. -/
def Resent (tr : List OmEvent) (tid : Nat) : Prop :=
  ∃ o env r, .op tid (.chan (.orderSend o)) env r ∈ tr

/- The gate of the task has not let its order through. -/
def GateRefused (tr : List OmEvent) (tid : Nat) : Prop :=
  ∃ rec env u,
    .op tid (.engine (.emit rec)) env u ∈ tr ∧
      rec.decision.isAllow = false

/- What is left of the pass of `o` is what follows the error. -/
def ErrsWith
    (om : OrderManager)
    (tr : List OmEvent)
    (tid : Nat)
    (o v : Order)
    (e : String) : Prop :=
  (om.machine.rootsIn tr)[tid]? = some (.processOrder o) ∧
    (om.machine.body (.processOrder o)).After
      (Machine.calls tr tid)
      (om.settle v (.error e) >>= fun r => pure (.processed r))

/- No pass of the same order begins after this one. -/
def LastPass
    (om : OrderManager)
    (tr : List OmEvent)
    (tid : Nat) : Prop :=
  ∀ tid' o o',
    (om.machine.rootsIn tr)[tid]? = some (.processOrder o) →
      (om.machine.rootsIn tr)[tid']? = some (.processOrder o') →
        o'.id = o.id → tid' ≤ tid

/-
  Every order has a bounded number of passes, which its copies
  count, and one copy at most in the channel.  A pass that puts
  its order back has slept the back-off just before, and one
  that is refused or fails for good is the last.
-/
structure RetriesHold
    (om : OrderManager)
    (tr : List OmEvent)
    (s : State) : Prop where
  bounded :
    ∀ id,
      (passesOf om tr id).length ≤ om.config.maxRetries.toNat + 1
  counted :
    ∀ id,
      (passesOf om tr id).map (·.retryCount.toNat) =
        List.range (passesOf om tr id).length
  within :
    ∀ id, ∀ o ∈ passesOf om tr id,
      o.retryCount ≤ om.config.maxRetries
  single :
    ∀ id, (s.chan.queue.filter (·.id = id)).length ≤ 1
  waits :
    ∀ pre post tid o v env r,
      tr = pre ++ .op tid (.chan (.orderSend v)) env r :: post →
        (om.machine.rootsIn tr)[tid]? = some (.processOrder o) →
          v.id = o.id ∧
            v.retryCount.toNat = o.retryCount.toNat + 1 ∧
              ∃ h delay,
                Machine.calls pre tid =
                    h ++ [⟨.sys (.sleep delay), ()⟩] ∧
                  (o.retryCount.toNat < 32 →
                    delay =
                      om.config.retryDelay * 2 ^ o.retryCount.toNat)
  timely :
    ∀ pre post tid o v e,
      tr = pre ++ post → ErrsWith om pre tid o v e →
        isRetriableError e = true →
          v.retryCount < om.config.maxRetries →
            v.retryCount.toNat < 32 →
              om.config.retryDelay * 2 ^ v.retryCount.toNat <
                  2 ^ 64 * 1000000000 →
                om.settle v (.error e) =
                  OrderManager.requeue v
                    (om.config.retryDelay *
                      2 ^ v.retryCount.toNat)
  refused :
    ∀ tid, GateRefused tr tid → LastPass om tr tid
  failed :
    ∀ pre post tid o v e,
      tr = pre ++ post → ErrsWith om pre tid o v e →
        isRetriableError e = false → LastPass om tr tid

/- An order is submitted with no retry behind it. -/
def Untried : OmCond :=
  fun _ _ e => ∀ o, e = .ext (.submitOrder o) → o.retryCount = 0

------------------------------------------------------------
-- Passes along a Trace
------------------------------------------------------------

section Passes

variable {om : OrderManager} {tr : List OmEvent} {id : OrderId}

theorem passesOf_snoc
    (e : OmEvent) :
    passesOf om (tr ++ [e]) id =
      passesOf om tr id ++
        (om.machine.roots e).filterMap (Root.passOf id) := by
  unfold passesOf
  rw [Machine.rootsIn_append, Machine.rootsIn_singleton,
    List.filterMap_append]

/- An operation starts no pass. -/
theorem passesOf_op
    (tid : Nat) (op : Op) (env : Outcome) (r : op.Resp) :
    passesOf om (tr ++ [.op tid op env r]) id =
      passesOf om tr id := by
  have hNone : op.roots.filterMap (Root.passOf id) = [] := by
    rcases op with op | op | op | op | op | op | op
    case sys => cases op <;> rfl
    all_goals rfl
  rw [passesOf_snoc]
  exact (congrArg (passesOf om tr id ++ ·) hNone).trans
    (List.append_nil _)

/- From outside, only the worker starts a pass. -/
theorem passesOf_ext
    {e : Ext}
    (hNot : ∀ o, e ≠ .recv o) :
    passesOf om (tr ++ [.ext e]) id = passesOf om tr id := by
  have hNone : e.roots.filterMap (Root.passOf id) = [] := by
    cases e with
    | recv o => exact absurd rfl (hNot o)
    | _ => rfl
  rw [passesOf_snoc]
  exact (congrArg (passesOf om tr id ++ ·) hNone).trans
    (List.append_nil _)

theorem passesOf_recv
    (o : Order) :
    passesOf om (tr ++ [.ext (.recv o)]) id =
      passesOf om tr id ++ if o.id = id then [o] else [] := by
  rw [passesOf_snoc]
  refine congrArg (passesOf om tr id ++ ·) ?_
  change [Root.processOrder o].filterMap (Root.passOf id) = _
  rw [List.filterMap_cons, List.filterMap_nil]
  unfold Root.passOf
  split
  · split <;> simp_all
  · split <;> simp_all

end Passes

------------------------------------------------------------
-- The Past of a Task
------------------------------------------------------------

section Past

variable {tr : List OmEvent} {tid : Nat} {e : OmEvent}

theorem resent_snoc
    (hSends :
      ∀ o env r, e ≠ .op tid (.chan (.orderSend o)) env r)
    (hResent : Resent (tr ++ [e]) tid) :
    Resent tr tid := by
  rcases hResent with ⟨o, env, r, hMem⟩
  rcases List.mem_append.mp hMem with hOld | hNew
  · exact ⟨o, env, r, hOld⟩
  · exact absurd (List.mem_singleton.mp hNew).symm (hSends o env r)

theorem refused_snoc
    (hRefuses :
      ∀ op env r, e = .op tid op env r → op.refuses = false)
    (hRefused : GateRefused (tr ++ [e]) tid) :
    GateRefused tr tid := by
  rcases hRefused with ⟨rec, env, u, hMem, hNot⟩
  rcases List.mem_append.mp hMem with hOld | hNew
  · exact ⟨rec, env, u, hOld, hNot⟩
  · have hAllow := hRefuses _ env u (List.mem_singleton.mp hNew).symm
    simp [Op.refuses, hNot] at hAllow

end Past

/- What a task's place says of what it has done. -/
def Retry.Past
    (om : OrderManager)
    (tr : List OmEvent)
    (tid : Nat)
    (root : Root) : Retry → Prop
  | .asking o => root = .submitOrder o
  | .accepting _ _ => ∃ o, root = .submitOrder o
  | .passing o =>
      root = .processOrder o ∧ ¬Resent tr tid ∧ ¬GateRefused tr tid
  | .refused o => root = .processOrder o ∧ ¬Resent tr tid
  | .resting o delay =>
      root = .processOrder o ∧ ¬Resent tr tid ∧
        ¬GateRefused tr tid ∧
        o.retryCount < om.config.maxRetries ∧
          om.retryBackoff o = some delay ∧
            ∃ h, Machine.calls tr tid =
              h ++ [⟨.sys (.sleep delay), ()⟩]
  | .resent => (∃ o, root = .processOrder o) ∧ ¬GateRefused tr tid
  | .apart => ∀ o, root ≠ .processOrder o

/- The runs of the order manager, as its retries allow them. -/
abbrev RetryRun (om : OrderManager) :=
  Protocol.ShadowRun om.retrying om.machine

section Runs

variable {om : OrderManager} {C : OmCond} {s₀ s : State}
variable {tr : List OmEvent} {shs : List (Shadow Root Retry)}
variable {tid : Nat} {root : Root} {g g' : Retry}
variable {op : Op} {env : Outcome} {r : op.Resp}

theorem Retry.past_start
    (hNone : ∀ op env r, .op tid op env r ∉ tr) :
    (om.retrying.start root).Past om tr tid root := by
  have hResent : ¬Resent tr tid := by
    rintro ⟨o, env, r, hMem⟩
    exact hNone _ _ _ hMem
  have hRefused : ¬GateRefused tr tid := by
    rintro ⟨rec, env, u, hMem, _⟩
    exact hNone _ _ _ hMem
  cases root with
  | submitOrder o => exact rfl
  | processOrder o => exact ⟨rfl, hResent, hRefused⟩
  | cancelOrder id => exact fun o hEq => by cases hEq
  | pauseWallet reason n => exact fun o hEq => by cases hEq

/- What the task itself does. -/
theorem Retry.Past.move
    (hPast : g.Past om tr tid root)
    (hMove : RetryMove om g op r g') :
    g'.Past om (tr ++ [.op tid op env r]) tid root := by
  have hResent :
      (∀ o, op ≠ .chan (.orderSend o)) →
        ¬Resent tr tid →
          ¬Resent (tr ++ [.op tid op env r]) tid := by
    intro hSends
    refine mt (resent_snoc fun o env' r' hEq => ?_)
    cases hEq
    exact hSends o rfl
  have hRefused :
      op.refuses = false →
        ¬GateRefused tr tid →
          ¬GateRefused (tr ++ [.op tid op env r]) tid := by
    intro hRefuses
    refine mt (refused_snoc fun op' env' r' hEq => ?_)
    cases hEq
    exact hRefuses
  cases hMove with
  | idle hMay =>
      have hSends : ∀ o, op ≠ .chan (.orderSend o) := by
        rintro o rfl
        cases Retry.keeps_of_mayDo hMay
      cases g with
      | asking o | resting o delay => cases hMay
      | accepting id count | apart => exact hPast
      | passing o =>
          have hRefuses : op.refuses = false := by
            simpa using (Bool.and_eq_true_iff.mp hMay).2
          exact ⟨hPast.1, hResent hSends hPast.2.1,
            hRefused hRefuses hPast.2.2⟩
      | refused o => exact ⟨hPast.1, hResent hSends hPast.2⟩
      | resent =>
          exact ⟨hPast.1,
            hRefused (Op.keeps_of_departs hMay).2 hPast.2⟩
  | draw => exact ⟨_, hPast⟩
  | submit hId hCount =>
      rcases hPast with ⟨o, rfl⟩
      exact fun o' hEq => by cases hEq
  | refuse hRefuses =>
      exact ⟨hPast.1, hResent (fun o hEq => by cases hEq) hPast.2.1⟩
  | rest hLeft hDelay =>
      refine ⟨hPast.1, hResent (fun o hEq => by cases hEq) hPast.2.1,
        hRefused rfl hPast.2.2, hLeft, hDelay, Machine.calls tr tid, ?_⟩
      exact Machine.calls_append_singleton_self
  | resend hId hCount =>
      exact ⟨⟨_, hPast.1⟩, hRefused rfl hPast.2.2.1⟩

/- What others do is no part of it. -/
theorem Retry.Past.other
    {e : OmEvent}
    (hPast : g.Past om tr tid root)
    (hOther : ∀ op env r, e ≠ .op tid op env r) :
    g.Past om (tr ++ [e]) tid root := by
  have hResent : ¬Resent tr tid → ¬Resent (tr ++ [e]) tid :=
    mt (resent_snoc fun o => hOther (.chan (.orderSend o)))
  have hRefused :
      ¬GateRefused tr tid → ¬GateRefused (tr ++ [e]) tid :=
    mt (refused_snoc fun op env r hEq => absurd hEq (hOther op env r))
  cases g with
  | asking o | accepting id count | apart => exact hPast
  | passing o =>
      exact ⟨hPast.1, hResent hPast.2.1, hRefused hPast.2.2⟩
  | refused o => exact ⟨hPast.1, hResent hPast.2⟩
  | resent => exact ⟨hPast.1, hRefused hPast.2⟩
  | resting o delay =>
      rcases hPast with ⟨hRoot, hR, hF, hLeft, hDelay, h, hCalls⟩
      refine ⟨hRoot, hResent hR, hRefused hF, hLeft, hDelay, h, ?_⟩
      rw [Machine.calls_append_singleton_other hOther, hCalls]

/- A pass that has sent its order is past that. -/
theorem Retry.Past.resent_of_sent
    {o : Order}
    (hPast : g.Past om tr tid (.processOrder o))
    (hResent : Resent tr tid) :
    g = .resent := by
  cases g with
  | asking o' => cases hPast
  | accepting id count =>
      rcases hPast with ⟨o', hOther⟩
      cases hOther
  | passing o' => exact absurd hResent hPast.2.1
  | refused o' => exact absurd hResent hPast.2
  | resting o' delay => exact absurd hResent hPast.2.1
  | resent => rfl
  | apart => exact absurd rfl (hPast o)

/- In every run, what a task has done is what its place says. -/
theorem past_of_retryRun
    (hRun : RetryRun om C s₀ tr s shs)
    (hAt : shs[tid]? = some ⟨root, some g⟩) :
    g.Past om tr tid root :=
  Protocol.ShadowRun.local_invariant
    (fun tr tid root g => g.Past om tr tid root)
    (fun _ _ _ hNone => Retry.past_start hNone)
    (fun _ _ _ _ _ _ _ _ _ _ _ _ _ _ _ hPast hMove =>
      hPast.move hMove)
    (fun _ _ _ _ _ _ _ _ _ hPast hOther => hPast.other hOther)
    hRun hAt

end Runs

------------------------------------------------------------
-- What the Channel Counts
------------------------------------------------------------

/- What a task's place says of the passes of its order. -/
def Retry.Agrees
    (om : OrderManager)
    (tr : List OmEvent) : Retry → Prop
  | .asking o => o.retryCount = 0
  | .accepting id count => count = 0 ∧ passesOf om tr id = []
  | .passing o =>
      (passesOf om tr o.id).length = o.retryCount.toNat + 1
  | .resting o _ =>
      o.retryCount < om.config.maxRetries ∧
        (passesOf om tr o.id).length = o.retryCount.toNat + 1
  | _ => True

/- The copies of an order count its passes. -/
structure Counted
    (om : OrderManager)
    (tr : List OmEvent)
    (s : State)
    (shs : List (Shadow Root Retry)) : Prop where
  queued :
    ∀ o ∈ s.chan.queue,
      (passesOf om tr o.id).length = o.retryCount.toNat ∧
        o.retryCount ≤ om.config.maxRetries
  phases :
    ∀ (tid : Nat) (root : Root) (g : Retry),
      shs[tid]? = some ⟨root, some g⟩ → g.Agrees om tr
  unseen : ∀ id ∉ s.seenIds, passesOf om tr id = []
  counted :
    ∀ id,
      (passesOf om tr id).map (·.retryCount.toNat) =
        List.range (passesOf om tr id).length
  within :
    ∀ id, ∀ o ∈ passesOf om tr id,
      o.retryCount ≤ om.config.maxRetries

section Steps

variable {om : OrderManager} {s s' : State}
variable {tr tr' : List OmEvent} {shs : List (Shadow Root Retry)}
variable {tid : Nat} {root : Root} {g g' : Retry}
variable {op : Op} {env : Outcome} {r : op.Resp} {e : Ext}

/- Where a task stands agrees as long as its passes are the same. -/
theorem Retry.Agrees.of_eq
    (hAgrees : g.Agrees om tr)
    (hSame :
      ∀ id, g.holds = some id →
        passesOf om tr' id = passesOf om tr id) :
    g.Agrees om tr' := by
  cases g with
  | asking o => exact hAgrees
  | accepting id count =>
      exact ⟨hAgrees.1, (hSame id rfl).trans hAgrees.2⟩
  | passing o => exact (congrArg List.length (hSame _ rfl)).trans hAgrees
  | resting o delay =>
      exact ⟨hAgrees.1,
        (congrArg List.length (hSame _ rfl)).trans hAgrees.2⟩
  | refused o | resent | apart => trivial

/- What the task itself does; what it draws has had no pass. -/
theorem Retry.Agrees.move
    (hAgrees : g.Agrees om tr)
    (hMove : RetryMove om g op r g')
    (hFresh :
      ∀ id, op.drawn r = some id → passesOf om tr id = []) :
    g'.Agrees om tr := by
  cases hMove with
  | idle hMay => exact hAgrees
  | draw => exact ⟨hAgrees, hFresh _ rfl⟩
  | rest hLeft hDelay => exact ⟨hLeft, hAgrees⟩
  | submit hId hCount | refuse hRefuses | resend hId hCount => trivial

/- The tasks an operation starts are no passes. -/
theorem Retry.agrees_start_op
    (hRoot : root ∈ op.roots) :
    (om.retrying.start root).Agrees om tr := by
  rcases op with op | op | op | op | op | op | op
  case sys =>
    cases op with
    | spawnPauseWallet reason n =>
        cases List.mem_singleton.mp hRoot
        trivial
    | _ => cases hRoot
  all_goals cases hRoot

/- A count below the budget has room for one more. -/
theorem toNat_retryCount_succ
    {n max : UInt32}
    (hLeft : n < max) :
    (n + 1).toNat = n.toNat + 1 ∧ n + 1 ≤ max := by
  have hLt : n.toNat < max.toNat := UInt32.lt_iff_toNat_lt.mp hLeft
  have hMax : max.toNat < 2 ^ 32 := max.toNat_lt
  have hNat : (n + 1).toNat = n.toNat + 1 := by
    rw [UInt32.toNat_add]
    exact Nat.mod_eq_of_lt (by simp; omega)
  refine ⟨hNat, UInt32.le_iff_toNat_le.mpr ?_⟩
  omega

/- An operation of one task. -/
theorem Counted.afterOp
    (hCounted : Counted om tr s shs)
    (hPhase : shs[tid]? = some ⟨root, some g⟩)
    (hMove : RetryMove om g op r g')
    (hExec : State.exec op env s = some (r, s')) :
    Counted om (tr ++ [.op tid op env r]) s'
      (Pumpy.afterOp om.retrying shs tid root g' op) := by
  have hSame :
      ∀ id, passesOf om (tr ++ [.op tid op env r]) id =
        passesOf om tr id := fun id => passesOf_op tid op env r
  rcases exec_seenIds hExec with ⟨hFresh, hSeen⟩
  have hAgrees : g.Agrees om tr := hCounted.phases tid root g hPhase
  constructor
  · intro o hMem
    rw [hSame]
    rw [exec_queue hExec] at hMem
    rcases List.mem_append.mp hMem with hOld | hNew
    · exact hCounted.queued o hOld
    · have hSent := Option.mem_toList.mp hNew
      cases hMove with
      | idle hMay =>
          rw [Op.enqueues_of_keeps (Retry.keeps_of_mayDo hMay)] at hSent
          cases hSent
      | draw | refuse hRefuses | rest hLeft hDelay => cases hSent
      | @submit id count o' sent hId hCount =>
          cases sent with
          | false => cases hSent
          | true =>
              cases hSent
              rw [hId, hAgrees.2, hCount, hAgrees.1]
              exact ⟨rfl, UInt32.zero_le⟩
      | @resend o₁ o' delay sent hId hCount =>
          cases sent with
          | false => cases hSent
          | true =>
              cases hSent
              have hSucc := toNat_retryCount_succ hAgrees.1
              rw [hId, hAgrees.2, hCount]
              exact ⟨hSucc.1.symm, hSucc.2⟩
  · intro tid' root' g₁ hAt
    have hBefore : g₁.Agrees om tr := by
      rcases Machine.getElem?_set_append hAt with
        ⟨rfl, hEq⟩ | ⟨_, hOld⟩ | ⟨_, hNew⟩
      · cases hEq
        exact hAgrees.move hMove fun id hDrawn =>
          hCounted.unseen id (hFresh id hDrawn)
      · exact hCounted.phases tid' root' g₁ hOld
      · rcases List.mem_map.mp hNew with ⟨root₁, hRoot, hEq⟩
        cases hEq
        exact Retry.agrees_start_op hRoot
    exact hBefore.of_eq fun id _ => hSame id
  · intro id hNot
    rw [hSame]
    refine hCounted.unseen id fun hOld => hNot ?_
    rw [hSeen]
    exact List.mem_append_right _ hOld
  · intro id
    rw [hSame]
    exact hCounted.counted id
  · intro id o hMem
    rw [hSame] at hMem
    exact hCounted.within id o hMem

/- From outside, with what the passes of other orders are. -/
theorem Counted.afterExt_of_same
    (hCounted : Counted om tr s shs)
    (hExt : Ext.exec e s = some s')
    (hUntried : ∀ o, e = .submitOrder o → o.retryCount = 0)
    (hRecv : ∀ o, e ≠ .recv o) :
    Counted om (tr ++ [.ext e]) s'
      (Pumpy.afterExt om om.retrying shs e) := by
  have hSame :
      ∀ id, passesOf om (tr ++ [.ext e]) id = passesOf om tr id :=
    fun id => passesOf_ext hRecv
  have hQueue : ∀ o ∈ s'.chan.queue, o ∈ s.chan.queue := by
    intro o hMem
    by_cases hClose : e = .closeChannel
    · subst hClose
      cases hExt
      cases hMem
    · by_cases hRestart : e = .restart
      · subst hRestart
        cases hExt
        cases hMem
      · rw [queue_ext hRecv hClose hRestart hExt] at hMem
        exact hMem
  constructor
  · intro o hMem
    rw [hSame]
    exact hCounted.queued o (hQueue o hMem)
  · intro tid' root' g₁ hAt
    have hBefore : g₁.Agrees om tr := by
      rcases Protocol.getElem?_survive_append hAt with
        hOld | ⟨_, hNew⟩
      · exact hCounted.phases tid' root' g₁ hOld
      · rcases List.mem_map.mp hNew with ⟨root₁, hRoot, hEq⟩
        cases hEq
        cases e with
        | submitOrder o =>
            cases List.mem_singleton.mp hRoot
            exact hUntried o rfl
        | cancelOrder id =>
            cases List.mem_singleton.mp hRoot
            trivial
        | recv o => exact absurd rfl (hRecv o)
        | _ => cases hRoot
    exact hBefore.of_eq fun id _ => hSame id
  · intro id hNot
    rw [hSame]
    exact hCounted.unseen id fun hOld =>
      hNot (seenIds_ext hExt id hOld)
  · intro id
    rw [hSame]
    exact hCounted.counted id
  · intro id o hMem
    rw [hSame] at hMem
    exact hCounted.within id o hMem

/- The worker takes an order off the channel. -/
theorem Counted.afterRecv
    {o : Order}
    (hCounted : Counted om tr s shs)
    (hOwned : OwnedBy Retry.holds s shs)
    (hExt : Ext.exec (.recv o) s = some s') :
    Counted om (tr ++ [.ext (.recv o)]) s'
      (Pumpy.afterExt om om.retrying shs (.recv o)) := by
  rcases exec_recv hExt with ⟨hQueue, hState⟩
  have hHead : o ∈ s.chan.queue := by
    rw [hQueue]
    exact List.mem_cons_self
  have hCount := hCounted.queued o hHead
  have hOther :
      ∀ id, id ≠ o.id →
        passesOf om (tr ++ [.ext (.recv o)]) id = passesOf om tr id := by
    intro id hNe
    rw [passesOf_recv, if_neg hNe.symm, List.append_nil]
  have hOwn :
      passesOf om (tr ++ [.ext (.recv o)]) o.id =
        passesOf om tr o.id ++ [o] := by
    rw [passesOf_recv, if_pos rfl]
  constructor
  · intro o' hMem
    have hNe : o'.id ≠ o.id := by
      have hNodup := (List.nodup_append.mp hOwned.nodup).1
      rw [hQueue, List.map_cons, List.nodup_cons] at hNodup
      intro hEq
      exact hNodup.1 (List.mem_map.mpr ⟨o', hMem, hEq⟩)
    rw [hOther _ hNe]
    refine hCounted.queued o' ?_
    rw [hQueue]
    exact List.mem_cons_of_mem _ hMem
  · intro tid' root' g₁ hAt
    rcases Protocol.getElem?_survive_append hAt with
      hOld | ⟨_, hNew⟩
    · have hBefore := hCounted.phases tid' root' g₁ hOld
      refine hBefore.of_eq fun id hHolds => hOther id ?_
      rintro rfl
      exact hOwned.not_queued hOld hHolds (List.mem_map_of_mem hHead)
    · rcases List.mem_map.mp hNew with ⟨root₁, hRoot, hEq⟩
      cases hEq
      cases List.mem_singleton.mp hRoot
      change (passesOf om _ o.id).length = _
      rw [hOwn, List.length_append, hCount.1]
      rfl
  · intro id hNot
    have hNotBefore : id ∉ s.seenIds := fun hOld =>
      hNot (seenIds_ext hExt id hOld)
    have hNe : id ≠ o.id := by
      rintro rfl
      refine hNotBefore (hOwned.seen _ ?_)
      exact List.mem_append_left _ (List.mem_map_of_mem hHead)
    rw [hOther id hNe]
    exact hCounted.unseen id hNotBefore
  · intro id
    by_cases hId : id = o.id
    · subst hId
      rw [hOwn, List.map_append, hCounted.counted, List.length_append,
        hCount.1]
      exact List.range_succ.symm
    · rw [hOther id hId]
      exact hCounted.counted id
  · intro id o' hMem
    by_cases hId : id = o.id
    · subst hId
      rw [hOwn] at hMem
      rcases List.mem_append.mp hMem with hOld | hNew
      · exact hCounted.within _ o' hOld
      · rw [List.mem_singleton.mp hNew]
        exact hCount.2
    · rw [hOther id hId] at hMem
      exact hCounted.within id o' hMem

end Steps

section Runs

variable {om : OrderManager} {s : State}
variable {db : Database} {chain : Chain} {seenIds : List OrderId}
variable {tr : List OmEvent} {shs : List (Shadow Root Retry)}

theorem owned_of_retryRun
    {C : OmCond}
    (hRun : RetryRun om C (State.boot db chain seenIds) tr s shs) :
    OwnedBy Retry.holds s shs :=
  ownedBy_of_shadowRun (fun root => by cases root <;> rfl)
    (fun _ _ _ _ hMove => RetryMove.hands hMove) hRun

/- In every run of untried orders, their copies count their passes. -/
theorem counted_of_retryRun
    (hRun :
      RetryRun om Untried (State.boot db chain seenIds) tr s shs) :
    Counted om tr s shs := by
  induction hRun with
  | nil =>
      refine ⟨fun o hMem => ?_, fun tid root g hAt => ?_,
        fun _ _ => rfl, fun _ => rfl, fun _ o hMem => ?_⟩
      · cases hMem
      · simp at hAt
      · cases hMem
  | @snoc tr s s' shs shs' e hRun hCond hStep ih =>
      cases hStep with
      | op hPhase hMove hExec => exact ih.afterOp hPhase hMove hExec
      | @ext _ _ e hExt =>
          by_cases hRecv : ∃ o, e = .recv o
          · rcases hRecv with ⟨o, rfl⟩
            exact ih.afterRecv (owned_of_retryRun hRun) hExt
          · refine ih.afterExt_of_same hExt ?_ fun o hEq =>
              hRecv ⟨o, hEq⟩
            rintro o rfl
            exact hCond o rfl

end Runs

------------------------------------------------------------
-- Sends and Refusals
------------------------------------------------------------

section Sends

variable {om : OrderManager} {C : OmCond} {s₀ s : State}
variable {tr pre post : List OmEvent}
variable {shs : List (Shadow Root Retry)}
variable {tid : Nat} {env : Outcome} {o v : Order}

/- A pass that sends is at the end of its rest. -/
theorem resting_of_send
    {r : Bool}
    (hRun : RetryRun om C s₀ tr s shs)
    (hSplit :
      tr = pre ++ .op tid (.chan (.orderSend v)) env r :: post)
    (hRoot :
      (om.machine.rootsIn tr)[tid]? = some (.processOrder o)) :
    v.id = o.id ∧ v.retryCount = o.retryCount + 1 ∧
      ∃ delay,
        (Retry.resting o delay).Past om pre tid (.processOrder o) := by
  rcases hRun.at_event hSplit with
    ⟨s₁, shs₁, s₂, shs₂, hPre, _, hStep⟩
  cases hStep with
  | @op _ _ _ root g g' _ _ _ hPhase hMove hExec =>
      have hPast := past_of_retryRun hPre hPhase
      have hSame : root = .processOrder o := by
        have hAt := hPre.root_at
          (.op tid (.chan (.orderSend v)) env r :: post) hPhase
        rw [← hSplit, hRoot] at hAt
        exact (Option.some.inj hAt).symm
      subst hSame
      cases hMove with
      | idle hMay => cases Retry.keeps_of_mayDo hMay
      | submit hId hCount =>
          rcases hPast with ⟨o', hOther⟩
          cases hOther
      | @resend o' _ delay _ hId hCount =>
          have hOrder : o' = o := by
            have hIs := hPast.1
            cases hIs
            rfl
          subst hOrder
          exact ⟨hId, hCount, delay, hPast⟩

/- A pass that is refused has not sent its order. -/
theorem not_resent_of_refusal
    {rec : AuditRecord} {u : Unit}
    (hRun : RetryRun om C s₀ tr s shs)
    (hSplit :
      tr = pre ++ .op tid (.engine (.emit rec)) env u :: post)
    (hNot : rec.decision.isAllow = false)
    (hRoot :
      (om.machine.rootsIn tr)[tid]? = some (.processOrder o)) :
    ¬Resent pre tid := by
  rcases hRun.at_event hSplit with
    ⟨s₁, shs₁, s₂, shs₂, hPre, _, hStep⟩
  cases hStep with
  | @op _ _ _ root g g' _ _ _ hPhase hMove hExec =>
      have hPast := past_of_retryRun hPre hPhase
      have hSame : root = .processOrder o := by
        have hAt := hPre.root_at
          (.op tid (.engine (.emit rec)) env u :: post) hPhase
        rw [← hSplit, hRoot] at hAt
        exact (Option.some.inj hAt).symm
      subst hSame
      cases hMove with
      | idle hMay =>
          cases g with
          | asking o | resting o delay => cases hMay
          | accepting id count =>
              rcases hPast with ⟨o', hOther⟩
              cases hOther
          | passing o =>
              simp [Retry.mayDo, Op.refuses, hNot] at hMay
          | refused o => exact hPast.2
          | resent => cases hMay
          | apart => exact absurd rfl (hPast o)
      | refuse hRefuses => exact hPast.2.1

/- No pass is refused and sends its order. -/
theorem not_resent_of_refused
    (hRun : RetryRun om C s₀ tr s shs)
    (hRoot :
      (om.machine.rootsIn tr)[tid]? = some (.processOrder o))
    (hRefused : GateRefused tr tid) :
    ¬Resent tr tid := by
  rintro ⟨v, env₁, r, hSent⟩
  rcases hRefused with ⟨rec, env₂, u, hEmitted, hNot⟩
  rcases List.append_of_mem hSent with ⟨pre, post, hSplit⟩
  rcases List.append_of_mem hEmitted with ⟨pre', post', hSplit'⟩
  rcases resting_of_send hRun hSplit hRoot with ⟨_, _, delay, hPast⟩
  have hUnsent := not_resent_of_refusal hRun hSplit' hNot hRoot
  rcases Protocol.split_cases (hSplit.symm.trans hSplit') with
    ⟨mid, hLater⟩ | ⟨_, hEq⟩ | ⟨mid, hLater⟩
  · refine hUnsent ⟨v, env₁, r, ?_⟩
    rw [hLater]
    exact List.mem_append_right _ List.mem_cons_self
  · cases hEq
  · refine hPast.2.2.1 ⟨rec, env₂, u, ?_, hNot⟩
    rw [hLater]
    exact List.mem_append_right _ List.mem_cons_self

/- The delay of a retry, as long as the factor fits. -/
theorem delay_of_retryBackoff
    {delay : Duration}
    (hDelay : om.retryBackoff o = some delay)
    (hFew : o.retryCount.toNat < 32) :
    delay = om.config.retryDelay * 2 ^ o.retryCount.toNat := by
  have hFits : 2 ^ o.retryCount.toNat < 2 ^ 32 :=
    Nat.pow_lt_pow_right (Nat.lt_succ_self 1) hFew
  unfold OrderManager.retryBackoff BuildProfile.u32 at hDelay
  rw [if_pos hFits] at hDelay
  simp only [Option.bind_eq_bind, Option.bind_some] at hDelay
  unfold Duration.mulU32 at hDelay
  split at hDelay
  · cases hDelay
    rw [UInt32.toNat_ofNat_of_lt' hFits]
  · cases hDelay

/- The back-off of a retry that fits. -/
theorem retryBackoff_of_fits
    (hFew : o.retryCount.toNat < 32)
    (hFits :
      om.config.retryDelay * 2 ^ o.retryCount.toNat <
        2 ^ 64 * 1000000000) :
    om.retryBackoff o =
      some (om.config.retryDelay * 2 ^ o.retryCount.toNat) := by
  have hFactor : 2 ^ o.retryCount.toNat < 2 ^ 32 :=
    Nat.pow_lt_pow_right (Nat.lt_succ_self 1) hFew
  unfold OrderManager.retryBackoff BuildProfile.u32
  rw [if_pos hFactor]
  simp only [Option.bind_eq_bind, Option.bind_some]
  unfold Duration.mulU32
  rw [UInt32.toNat_ofNat_of_lt' hFactor, if_pos hFits]

end Sends

------------------------------------------------------------
-- Passes That Have Been Followed
------------------------------------------------------------

/-
  A pass has sent its order, or still holds it, or the order is
  gone; and one that was followed by another has sent it.
-/
structure Handed
    (om : OrderManager)
    (tr : List OmEvent)
    (s : State)
    (shs : List (Shadow Root Retry)) : Prop where
  each :
    ∀ (tid : Nat) (o : Order),
      (om.machine.rootsIn tr)[tid]? = some (.processOrder o) →
        Resent tr tid ∨
          (∃ g, shs[tid]? = some ⟨.processOrder o, some g⟩ ∧
            g.holds = some o.id) ∨
            (o.id ∈ s.seenIds ∧ o.id ∉ holdersBy Retry.holds s shs)
  followed :
    ∀ (tid tid' : Nat) (o o' : Order),
      (om.machine.rootsIn tr)[tid]? = some (.processOrder o) →
        (om.machine.rootsIn tr)[tid']? = some (.processOrder o') →
          o'.id = o.id → tid < tid' → Resent tr tid

section Steps

variable {om : OrderManager} {s s' : State}
variable {tr : List OmEvent} {shs : List (Shadow Root Retry)}
variable {tid : Nat} {root : Root} {g g' : Retry}
variable {op : Op} {env : Outcome} {r : op.Resp} {e : OmEvent}

theorem Resent.later
    (hResent : Resent tr tid) :
    Resent (tr ++ [e]) tid := by
  rcases hResent with ⟨o, env, r, hMem⟩
  exact ⟨o, env, r, List.mem_append_left _ hMem⟩

/- A pass after an event was there before, or has just begun. -/
theorem pass_snoc
    {o : Order}
    (hRoot :
      (om.machine.rootsIn (tr ++ [e]))[tid]? =
        some (.processOrder o)) :
    (om.machine.rootsIn tr)[tid]? = some (.processOrder o) ∨
      (e = .ext (.recv o) ∧ tid = (om.machine.rootsIn tr).length) := by
  rw [Machine.rootsIn_append, Machine.rootsIn_singleton] at hRoot
  by_cases hLt : tid < (om.machine.rootsIn tr).length
  · rw [List.getElem?_append_left hLt] at hRoot
    exact .inl hRoot
  · rw [List.getElem?_append_right (Nat.le_of_not_lt hLt)] at hRoot
    have hMem := List.mem_of_getElem? hRoot
    have hIndex := (List.getElem?_eq_some_iff.mp hRoot).1
    right
    cases e with
    | op tid' op env r =>
        have hNew : .processOrder o ∈ op.roots := hMem
        rcases op with op | op | op | op | op | op | op
        case sys =>
          cases op with
          | spawnPauseWallet reason n =>
              cases List.mem_singleton.mp hNew
          | _ => cases hNew
        all_goals cases hNew
    | ext e =>
        have hNew : .processOrder o ∈ e.roots := hMem
        cases e with
        | recv o' =>
            cases List.mem_singleton.mp hNew
            have hOne :
                tid - (om.machine.rootsIn tr).length < 1 := hIndex
            exact ⟨rfl, by omega⟩
        | submitOrder o' | cancelOrder id =>
            cases List.mem_singleton.mp hNew
        | _ => cases hNew

/- What a move does to the order its task holds. -/
theorem RetryMove.passes
    {id : OrderId}
    (hMove : RetryMove om g op r g')
    (hHolds : g.holds = some id) :
    g'.holds = some id ∨ (∃ o, op = .chan (.orderSend o)) ∨
      (g'.holds = none ∧ op.enqueues r = none) := by
  cases hMove with
  | idle hMay => exact .inl hHolds
  | draw => cases hHolds
  | submit hId hCount => exact .inr (.inl ⟨_, rfl⟩)
  | refuse hRefuses => exact .inr (.inr ⟨rfl, rfl⟩)
  | rest hLeft hDelay => exact .inl hHolds
  | resend hId hCount => exact .inr (.inl ⟨_, rfl⟩)

/- An operation begins no pass. -/
theorem Handed.afterOp
    (hHanded : Handed om tr s shs)
    (hOwned : OwnedBy Retry.holds s shs)
    (hPhase : shs[tid]? = some ⟨root, some g⟩)
    (hMove : RetryMove om g op r g')
    (hExec : State.exec op env s = some (r, s')) :
    Handed om (tr ++ [.op tid op env r]) s'
      (Pumpy.afterOp om.retrying shs tid root g' op) := by
  have hOld :
      ∀ (tid' : Nat) (o : Order),
        (om.machine.rootsIn (tr ++ [.op tid op env r]))[tid']? =
            some (.processOrder o) →
          (om.machine.rootsIn tr)[tid']? =
            some (.processOrder o) := by
    intro tid' o hRoot
    rcases pass_snoc hRoot with hBefore | ⟨hEq, _⟩
    · exact hBefore
    · cases hEq
  have hSeen : ∀ id ∈ s.seenIds, id ∈ s'.seenIds := by
    intro id hMem
    rw [(exec_seenIds hExec).2]
    exact List.mem_append_right _ hMem
  constructor
  · intro tid' o hRoot
    rcases hHanded.each tid' o (hOld tid' o hRoot) with
      hResent | ⟨g₁, hAt, hHolds⟩ | ⟨hKnown, hGone⟩
    · exact .inl hResent.later
    · by_cases hTid : tid' = tid
      · subst hTid
        rw [hPhase] at hAt
        cases hAt
        rcases hMove.passes hHolds with
          hStill | ⟨v, rfl⟩ | ⟨hNone, hQuiet⟩
        · exact .inr (.inl ⟨g', afterOp_self hPhase, hStill⟩)
        · exact .inl ⟨v, env, r,
            List.mem_append_right _ (List.mem_singleton_self _)⟩
        · refine .inr (.inr ⟨hSeen _ (hOwned.seen_of_held hPhase hHolds),
            ?_⟩)
          exact hOwned.released (fun _ _ => rfl) hPhase hExec hHolds
            hNone hQuiet
      · exact .inr (.inl ⟨g₁, afterOp_other hTid hAt, hHolds⟩)
    · exact .inr (.inr ⟨hSeen _ hKnown,
        not_holdersBy_op (fun _ _ => rfl) hPhase hMove.hands hExec
          hKnown hGone⟩)
  · intro tid₁ tid₂ o o' hRoot hRoot' hId hLt
    exact (hHanded.followed tid₁ tid₂ o o' (hOld _ _ hRoot)
      (hOld _ _ hRoot') hId hLt).later

/- A pass begins with an order from the channel. -/
theorem Handed.afterExt
    {e : Ext}
    (hHanded : Handed om tr s shs)
    (hOwned : OwnedBy Retry.holds s shs)
    (hLength : shs.length = (om.machine.rootsIn tr).length)
    (hExt : Ext.exec e s = some s') :
    Handed om (tr ++ [.ext e]) s'
      (Pumpy.afterExt om om.retrying shs e) := by
  have hStart : ∀ root : Root,
      (om.retrying.start root).holds = root.carried := fun root => by
    cases root <;> rfl
  constructor
  · intro tid o hRoot
    rcases pass_snoc hRoot with hBefore | ⟨hEq, rfl⟩
    · rcases hHanded.each tid o hBefore with
        hResent | ⟨g₁, hAt, hHolds⟩ | ⟨hKnown, hGone⟩
      · exact .inl hResent.later
      · have hKnown := seenIds_ext hExt _ (hOwned.seen_of_held hAt hHolds)
        by_cases hRestart : e = .restart
        · subst hRestart
          refine .inr (.inr ⟨hKnown, ?_⟩)
          cases hExt
          simp [holdersBy, State.boot, held_afterExt_restart]
        · refine .inr (.inl ⟨g₁, ?_, hHolds⟩)
          rw [afterExt_of_ne_restart om _ _ hRestart,
            List.getElem?_append_left
              (List.getElem?_eq_some_iff.mp hAt).1]
          exact hAt
      · exact .inr (.inr ⟨seenIds_ext hExt _ hKnown,
          not_holdersBy_ext om hStart hExt hGone⟩)
    · cases hEq
      refine .inr (.inl ⟨.passing o, ?_, rfl⟩)
      rw [afterExt_of_ne_restart om _ _ (fun h => by cases h),
        ← hLength, List.getElem?_append_right (Nat.le_refl _),
        Nat.sub_self]
      rfl
  · intro tid tid' o o' hRoot hRoot' hId hLt
    rcases pass_snoc hRoot' with hBefore' | ⟨hEq, rfl⟩
    · have hBefore : (om.machine.rootsIn tr)[tid]? =
          some (.processOrder o) := by
        rcases pass_snoc hRoot with hBefore | ⟨_, rfl⟩
        · exact hBefore
        · have hIndex := (List.getElem?_eq_some_iff.mp hBefore').1
          omega
      exact (hHanded.followed tid tid' o o' hBefore hBefore' hId
        hLt).later
    · cases hEq
      have hBefore : (om.machine.rootsIn tr)[tid]? =
          some (.processOrder o) := by
        rcases pass_snoc hRoot with hBefore | ⟨_, rfl⟩
        · exact hBefore
        · omega
      have hQueued : o.id ∈ s.chan.queue.map Order.id := by
        rw [(exec_recv hExt).1, List.map_cons, hId]
        exact List.mem_cons_self
      rcases hHanded.each tid o hBefore with
        hResent | ⟨g₁, hAt, hHolds⟩ | ⟨_, hGone⟩
      · exact hResent.later
      · exact absurd hQueued (hOwned.not_queued hAt hHolds)
      · exact absurd (List.mem_append_left _ hQueued) hGone

end Steps

section Runs

variable {om : OrderManager} {C : OmCond} {s : State}
variable {db : Database} {chain : Chain} {seenIds : List OrderId}
variable {tr : List OmEvent} {shs : List (Shadow Root Retry)}

/- In every run, a pass that was followed has sent its order. -/
theorem handed_of_retryRun
    (hRun : RetryRun om C (State.boot db chain seenIds) tr s shs) :
    Handed om tr s shs := by
  induction hRun with
  | nil =>
      refine ⟨fun tid o hRoot => ?_, fun tid tid' o o' hRoot => ?_⟩
      · simp at hRoot
      · simp at hRoot
  | snoc hRun hCond hStep ih =>
      have hOwned := owned_of_retryRun hRun
      cases hStep with
      | op hPhase hMove hExec =>
          exact ih.afterOp hOwned hPhase hMove hExec
      | ext hExt =>
          have hLength := congrArg List.length hRun.roots_eq
          rw [List.length_map] at hLength
          exact ih.afterExt hOwned hLength hExt

/- A pass that never sends its order is the last. -/
theorem lastPass_of_not_resent
    {tid : Nat}
    (hRun : RetryRun om C (State.boot db chain seenIds) tr s shs)
    (hNot :
      ∀ o, (om.machine.rootsIn tr)[tid]? = some (.processOrder o) →
        ¬Resent tr tid) :
    LastPass om tr tid := by
  intro tid' o o' hRoot hRoot' hId
  by_contra hLater
  exact hNot o hRoot
    ((handed_of_retryRun hRun).followed tid tid' o o' hRoot hRoot' hId
      (Nat.lt_of_not_le hLater))

end Runs

------------------------------------------------------------
-- Errors for Good
------------------------------------------------------------

section Errors

variable {om : OrderManager} {C : OmCond} {s₀ : State}
variable {tr pre post : List OmEvent} {c : OmConfig}
variable {tid : Nat} {o v : Order} {e : String}

/- A task that has sent its order only leaves the active map. -/
theorem RetryMove.resent_trapped
    (g : Retry) (op : Op) (r : op.Resp) (g' : Retry)
    (hResent : g = .resent)
    (hMove : RetryMove om g op r g') :
    g' = .resent := by
  subst hResent
  cases hMove with
  | idle hMay => rfl

/- An error that is not retried is filed. -/
theorem settle_of_not_retriable
    (hFinal : isRetriableError e = false) :
    om.settle v (.error e) = (do
      let updatedAt ← Do.utcNow
      Do.count .ordersFailed
      OrderManager.finalizeOrderMinimal
        { v with
          status := .failed
          error := some e
          updatedAt := updatedAt }) := by
  refine if_neg fun hAgain => ?_
  rw [hFinal] at hAgain
  exact Bool.noConfusion hAgain.2

/- Right after a send, what is left only leaves the active map. -/
theorem exists_left_of_send
    {env : Outcome} {r : Bool}
    (hRun :
      Machine.Run om.machine C s₀
        (pre ++ [.op tid (.chan (.orderSend v)) env r]) c)
    (hRoot :
      (om.machine.rootsIn pre)[tid]? = some (.processOrder o)) :
    ∃ p : OmProg Ret,
      (om.machine.body (.processOrder o)).After
          (Machine.calls
            (pre ++ [.op tid (.chan (.orderSend v)) env r]) tid)
          p ∧
        om.retrying.Wp p .resent (fun _ _ => True) := by
  rcases hRun.snoc_inv with ⟨c₀, hEarly, _, hStep⟩
  cases hStep with
  | @op s s' tasks _ root _ k _ _ hTask hExec =>
      have hSame : root = .processOrder o := by
        have hAt := congrArg (·[tid]?) hEarly.roots_eq
        simp only [List.getElem?_map, hTask, Option.map_some, hRoot]
          at hAt
        exact Option.some.inj hAt
      subst hSame
      have hNow :
          (tasks.set tid ⟨.processOrder o, some (k r)⟩ ++
              (om.machine.opRoots (.chan (.orderSend v))).map
                om.machine.start)[tid]? =
            some ⟨.processOrder o, some (k r)⟩ := by
        have hLt := (List.getElem?_eq_some_iff.mp hTask).1
        rw [List.getElem?_append_left (by simpa using hLt),
          List.getElem?_set_self hLt]
      refine ⟨k r, hRun.after_calls hNow, ?_⟩
      rcases Protocol.trackedRun_of_run om.follows_retrying hRun with
        ⟨shs, hTracked⟩
      rcases hTracked.shadow_of_task hNow with
        ⟨⟨root', phase⟩, hAt, hRootEq, hPhase⟩
      cases hRootEq
      cases phase with
      | none => exact hPhase.elim
      | some g =>
          have hPast := past_of_retryRun hTracked.shadowRun hAt
          have hPlace := hPast.resent_of_sent
            ⟨v, env, r,
              List.mem_append_right _ (List.mem_singleton_self _)⟩
          subst hPlace
          exact hPhase

/- A pass that comes to an error for good has sent nothing. -/
theorem not_sent_before_error
    {v' : Order} {env : Outcome} {r : Bool}
    (hRun : Machine.Run om.machine C s₀ pre c)
    (hErrs : ErrsWith om pre tid o v e)
    (hFinal : isRetriableError e = false) :
    .op tid (.chan (.orderSend v')) env r ∉ pre := by
  intro hMem
  rcases hErrs with ⟨hRoot, hAfter⟩
  rcases List.append_of_mem hMem with ⟨pre', rest, hSplit⟩
  have hCut :
      pre =
        pre' ++ [.op tid (.chan (.orderSend v')) env r] ++ rest := by
    rw [hSplit, List.append_assoc]
    rfl
  rcases hRun.earlier hCut with ⟨c', hSent⟩
  rw [← hRun.root_at hSplit] at hRoot
  rcases exists_left_of_send hSent hRoot with ⟨p, hThen, hWp⟩
  rw [hCut, Machine.calls_append] at hAfter
  rcases hWp.after (T := (· = .resent)) RetryMove.resent_trapped rfl
      (hThen.rest hAfter) with
    ⟨g, rfl, hLeft⟩
  rw [settle_of_not_retriable hFinal] at hLeft
  rcases hLeft 0 with ⟨g', hMove, _⟩
  cases hMove with
  | idle hMay => cases hMay

/- Nor does what is left after the error send the order. -/
theorem not_sent_after_error
    {v' : Order} {env : Outcome} {r : Bool}
    (hRun : Machine.Run om.machine C s₀ tr c)
    (hSplit : tr = pre ++ post)
    (hErrs : ErrsWith om pre tid o v e)
    (hFinal : isRetriableError e = false) :
    .op tid (.chan (.orderSend v')) env r ∉ post := by
  intro hMem
  rcases hErrs with ⟨hRoot, hAfter⟩
  rcases List.append_of_mem hMem with ⟨mid, rest, rfl⟩
  have hLater :
      tr =
        pre ++ mid ++ .op tid (.chan (.orderSend v')) env r :: rest := by
    rw [hSplit, List.append_assoc]
  have hExecutes := hRun.op_since hAfter hRoot hLater
  rw [settle_of_not_retriable hFinal] at hExecutes
  have hFinishes :
      ((do
        let updatedAt ← Do.utcNow
        Do.count .ordersFailed
        OrderManager.finalizeOrderMinimal
          { v with
            status := .failed
            error := some e
            updatedAt := updatedAt } : OmProg (Except OrderError Unit))
        >>= fun r => (pure (.processed r) : OmProg Ret)).Always
          (·.finishes = true) := by
    refine Prog.always_act rfl fun updatedAt => ?_
    refine Prog.always_act rfl fun _ => ?_
    exact Prog.Always.bind (finishes_finalizeOrderMinimal _)
      fun _ _ => Prog.always_done _
  cases hFinishes _ hExecutes

end Errors

------------------------------------------------------------
-- Retries Hold
------------------------------------------------------------

/-
  In every run in which orders are submitted untried, their
  retries are bounded and wait as long as they should.
-/
theorem retriesHold_of_untried
    (om : OrderManager)
    (db : Database)
    (chain : Chain)
    (seenIds : List OrderId)
    {tr : List OmEvent}
    {c : OmConfig}
    (hRun :
      Machine.Run om.machine Untried (State.boot db chain seenIds) tr
        c) :
    RetriesHold om tr c.state := by
  rcases Protocol.trackedRun_of_run om.follows_retrying hRun with
    ⟨shs, hTracked⟩
  have hShadow := hTracked.shadowRun
  have hCounted := counted_of_retryRun hShadow
  have hOwned := owned_of_retryRun hShadow
  constructor
  · intro id
    by_contra hMany
    have hLast :
        (om.config.maxRetries.toNat + 1) ∈
          (passesOf om tr id).map (·.retryCount.toNat) := by
      rw [hCounted.counted]
      exact List.mem_range.mpr (Nat.lt_of_not_le hMany)
    rcases List.mem_map.mp hLast with ⟨o, hMem, hCount⟩
    have hLe := UInt32.le_iff_toNat_le.mp (hCounted.within id o hMem)
    omega
  · exact hCounted.counted
  · exact hCounted.within
  · intro id
    have hNodup := (List.nodup_append.mp hOwned.nodup).1
    have hOne :
        (c.state.chan.queue.map Order.id).count id ≤ 1 :=
      List.nodup_iff_count.mp hNodup id
    rw [List.count_eq_countP, List.countP_map, List.countP_eq_length_filter]
      at hOne
    refine le_trans (le_of_eq (congrArg List.length ?_)) hOne
    exact List.filter_congr fun o _ => rfl
  · intro pre post tid o v env r hSplit hRoot
    rcases resting_of_send hShadow hSplit hRoot with
      ⟨hId, hCount, delay, _, _, _, hLeft, hDelay, h, hCalls⟩
    refine ⟨hId, ?_, h, delay, hCalls, delay_of_retryBackoff hDelay⟩
    rw [hCount]
    exact (toNat_retryCount_succ hLeft).1
  · intro pre post tid o v e _ _ hAgain hLeft hFew hFits
    dsimp only [OrderManager.settle]
    rw [if_pos ⟨hLeft, hAgain⟩, retryBackoff_of_fits hFew hFits]
  · intro tid hRefused
    exact lastPass_of_not_resent hShadow fun o hRoot =>
      not_resent_of_refused hShadow hRoot hRefused
  · intro pre post tid o v e hSplit hErrs hFinal
    refine lastPass_of_not_resent hShadow fun o' _ => ?_
    rintro ⟨v', env, r, hMem⟩
    rw [hSplit] at hMem
    rcases hRun.earlier hSplit with ⟨c', hPre⟩
    rcases List.mem_append.mp hMem with hOld | hNew
    · exact not_sent_before_error hPre hErrs hFinal hOld
    · exact not_sent_after_error hRun hSplit hErrs hFinal hNew

instance
    (tr : List OmEvent) (s : State) (e : OmEvent) :
    Decidable (Untried tr s e) :=
  match e with
  | .ext (.submitOrder o) =>
      decidable_of_iff (o.retryCount = 0)
        ⟨fun hCount _ hEq => by cases hEq; exact hCount,
          fun hAll => hAll o rfl⟩
  | .ext (.cancelOrder _) | .ext (.recv _) | .ext (.setStatus _)
  | .ext (.land _) | .ext .closeChannel | .ext .restart
  | .op _ _ _ _ => isTrue fun _ hEq => nomatch hEq

/- A pass finds no blockhash, for the given reason. -/
def stalledSteps (tid : Nat) (reason : String) :
    List (Machine.Choice Outcome Ext) :=
  steps tid
    [.time 0, .plain, .unit (.ok ()), .deadline false,
      .blockhash (.error reason), .deadline false]

/- The first pass may be retried, the second may not. -/
def stalledSchedule : List (Machine.Choice Outcome Ext) :=
  [.ext (.submitOrder (sampleOrder "" 1000))] ++
    acceptSteps 0 "a" [] ++
    [.ext (.recv (sampleOrder "a" 1000))] ++
    gateSteps 1
      [{ sampleOrder "a" 1000 with status := .validating }] ++
    stalledSteps 1 "no node" ++
    steps 1 [.plain, .plain, .plain, .plain, .plain, .plain] ++
    [.ext (.recv { sampleOrder "a" 1000 with retryCount := 1 })] ++
    gateSteps 2
      [{ sampleOrder "a" 1000 with
          status := .validating, retryCount := 1 }] ++
    stalledSteps 2 "insufficient funds" ++
    steps 2
      [.time 0, .plain, .stmt .done, .plain, .plain, .plain, .plain,
        .plain, .plain]

/- An order has two passes and is filed. -/
theorem exists_retriesHold :
    ∃ (tr : List OmEvent) (c : OmConfig),
      (passesOf sampleManager tr "a").map (·.retryCount) = [0, 1] ∧
        c.state.maps.history.map (fun o => (o.id, o.status)) =
            [("a", .failed)] ∧
          RetriesHold sampleManager tr c.state := by
  rcases Machine.exists_run_of_playUnder sampleManager.machine Untried
      (sampleState .enabled) stalledSchedule
      (fun tr c =>
        decide
          ((passesOf sampleManager tr "a").map (·.retryCount) =
              [0, 1] ∧
            c.state.maps.history.map (fun o => (o.id, o.status)) =
              [("a", .failed)]))
      (by decide +kernel) with
    ⟨tr, c, hRun, hShown⟩
  have hFacts := of_decide_eq_true hShown
  exact ⟨tr, c, hFacts.1, hFacts.2,
    retriesHold_of_untried sampleManager _ _ _ hRun⟩

end Pumpy
