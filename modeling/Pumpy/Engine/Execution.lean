import Pumpy.Engine.OrderManager
import Pumpy.Interleaving.Endings

/-
  What the parts of a pass execute: one class of operations for
  its gate, one for a bundle, one for delivering a transaction
  either way, one for the work under its deadline, and one for
  the end of the pass.

  Key definitions include:
    * `Op.decides`
    * `Op.offers`
    * `Op.delivers`
    * `Op.executes`
    * `Op.finishes`

  The main results are `executes_executeTrade` and
  `settles_settle`.
-/

------------------------------------------------------------
-- Classes of Operations
------------------------------------------------------------

namespace Pumpy

open Interleaving

namespace Op

/- The operations of an evaluation. -/
def decides : Op → Bool
  | engine _ => true
  | _ => false

/- The operations that hand a pause over to be written. -/
def raises : Op → Bool
  | engine _ => true
  | sys (.spawnPauseWallet _ _) => true
  | _ => false

/- The operations that build, send and follow a bundle. -/
def bundles : Op → Bool
  | chain .getClient => true
  | chain .getLatestBlockhash => true
  | chain (.sendBundle _) => true
  | chain (.getBundleStatus _) => true
  | sys (.sleep _) => true
  | _ => false

/- The operations of a submission as a bundle. -/
def offers : Op → Bool
  | chain .chooseTipAccount => true
  | chain (.simulateTransaction _) => true
  | db (.getConfigValue _) => true
  | op => op.bundles

/- The operations that build, send and follow a transaction. -/
def delivers : Op → Bool
  | chain .getClient => true
  | chain .getLatestBlockhash => true
  | chain (.sendAndConfirmTransaction _) => true
  | chain (.sendBundle _) => true
  | chain (.getBundleStatus _) => true
  | sys (.sleep _) => true
  | _ => false

/- The operations under the deadline of a pass. -/
def executes : Op → Bool
  | chain .chooseTipAccount => true
  | chain (.simulateTransaction _) => true
  | db (.getConfigValue _) => true
  | metric (.count .jitoBundlesLanded) => true
  | op => op.delivers

/- The operations that give an order up with its outcome. -/
def finishes : Op → Bool
  | db (.updateOrder _) => true
  | db (.insertTrade _) => true
  | map .activeLock => true
  | map (.activeRemove _) => true
  | map .activeUnlock => true
  | map (.historyInsert _) => true
  | chan (.eventSend _) => true
  | metric (.dec _) => true
  | metric (.count _) => true
  | sys .utcNow => true
  | _ => false

/- The operations after the deadline of a pass. -/
def settles : Op → Bool
  | chan (.orderSend _) => true
  | sys (.sleep _) => true
  | op => op.finishes

theorem delivers_of_bundles
    {op : Op}
    (hBundles : op.bundles = true) :
    op.delivers = true := by
  rcases op with op | op | op | op | op | op | op <;> cases op <;>
    first
    | rfl
    | cases hBundles

theorem executes_of_offers
    {op : Op}
    (hOffers : op.offers = true) :
    op.executes = true := by
  rcases op with op | op | op | op | op | op | op <;> cases op <;>
    first
    | rfl
    | cases hOffers

theorem offers_of_bundles
    {op : Op}
    (hBundles : op.bundles = true) :
    op.offers = true := by
  rcases op with op | op | op | op | op | op | op <;> cases op <;>
    first
    | rfl
    | cases hBundles

theorem executes_of_delivers
    {op : Op}
    (hDelivers : op.delivers = true) :
    op.executes = true := by
  rcases op with op | op | op | op | op | op | op <;> cases op <;>
    first
    | rfl
    | cases hDelivers

theorem settles_of_finishes
    {op : Op}
    (hFinishes : op.finishes = true) :
    op.settles = true := by
  rcases op with op | op | op | op | op | op | op <;> cases op <;>
    first
    | rfl
    | cases hFinishes

end Op

------------------------------------------------------------
-- The Gate
------------------------------------------------------------

section Gate

variable {de : DecisionEngine} {ctx : DecisionContext}

theorem decides_emit
    (d : Decision) :
    (DecisionEngine.emit ctx d).Always (·.decides = true) :=
  Prog.always_act rfl fun _ => Prog.always_done _

theorem decides_countReject
    (d : Decision)
    (count : UInt32) :
    (de.countReject ctx d count).Always (·.decides = true) := by
  unfold DecisionEngine.countReject
  split
  · refine Prog.always_act rfl fun wasPaused => ?_
    cases wasPaused with
    | true => exact decides_emit d
    | false => exact Prog.always_act rfl fun _ => decides_emit _
  · exact decides_emit d

theorem decides_evaluate :
    (de.evaluate ctx).Always (·.decides = true) := by
  refine Prog.always_act rfl fun autoPaused => ?_
  cases autoPaused with
  | true => exact decides_emit _
  | false =>
      dsimp only [Prog.bind]
      rw [if_neg (by simp)]
      split
      · exact decides_emit _
      · split
        · refine Prog.always_act rfl fun prev => ?_
          dsimp only [Prog.bind]
          split
          · exact Prog.always_crash
          · exact decides_countReject _ _
        · exact Prog.always_crash
        · exact Prog.always_act rfl fun _ => decides_emit _

theorem raises_raiseDbPause
    (d : Decision)
    (default : String) :
    (OrderManager.raiseDbPause d default).Always
      (·.raises = true) := by
  refine Prog.always_act rfl fun needsDbPause => ?_
  cases needsDbPause with
  | false => exact Prog.always_done _
  | true =>
      refine Prog.always_act rfl fun rejectCount => ?_
      exact Prog.always_act rfl fun _ => Prog.always_done _

end Gate

------------------------------------------------------------
-- The Execution
------------------------------------------------------------

section Execution

variable {om : OrderManager} {mint : Pubkey} {o : Order}
variable {bound : UInt64} {tip : Option Instruction}

theorem bundles_buildTransactionWithTip :
    (om.buildTransactionWithTip mint o bound tip).Always
      (·.bundles = true) := by
  refine Prog.always_act rfl fun client => ?_
  cases client with
  | error e => exact Prog.always_done _
  | ok u =>
      refine Prog.always_act rfl fun blockhash => ?_
      cases blockhash <;> exact Prog.always_done _

theorem delivers_buildTransactionWithTip :
    (om.buildTransactionWithTip mint o bound tip).Always
      (·.delivers = true) :=
  bundles_buildTransactionWithTip.mono fun _ => Op.delivers_of_bundles

theorem delivers_executeDirect
    (maxCost minOutput : UInt64) :
    (om.executeDirect mint o maxCost minOutput).Always
      (·.delivers = true) := by
  apply Prog.Always.bind delivers_buildTransactionWithTip
  intro built _
  cases built with
  | error e => exact Prog.always_done _
  | ok tx => exact Prog.always_act rfl fun _ => Prog.always_done _

theorem bundles_waitBeforeRetry
    (jitoAttempt : Nat) :
    (OrderManager.waitBeforeRetry jitoAttempt).Always
      (·.bundles = true) := by
  unfold OrderManager.waitBeforeRetry
  split
  · exact Prog.always_act rfl fun _ => Prog.always_done _
  · exact Prog.always_done _

theorem bundles_pollBundleFailed
    (bundleId : String)
    (n : Nat) :
    (OrderManager.pollBundleFailed bundleId n).Always
      (·.bundles = true) := by
  induction n with
  | zero => exact Prog.always_done _
  | succ n ih =>
      refine Prog.always_act rfl fun _ => ?_
      refine Prog.always_act rfl fun status => ?_
      cases status with
      | error e => exact ih
      | ok status =>
          dsimp only [Prog.bind]
          split
          · exact Prog.always_done _
          · split
            · exact Prog.always_done _
            · exact ih

theorem bundles_bundleAttempts
    (n jitoAttempt : Nat) :
    (om.bundleAttempts mint o bound tip n jitoAttempt).Always
      (·.bundles = true) := by
  induction n generalizing jitoAttempt with
  | zero => exact Prog.always_done _
  | succ n ih =>
      apply Prog.Always.bind (bundles_waitBeforeRetry jitoAttempt)
      intro _ _
      apply Prog.Always.bind bundles_buildTransactionWithTip
      intro built _
      cases built with
      | error e => exact Prog.always_done _
      | ok tradeTx =>
          refine Prog.always_act rfl fun reply => ?_
          cases reply with
          | error e => exact ih _
          | ok bundleId =>
              apply Prog.Always.bind
                (bundles_pollBundleFailed bundleId 5)
              intro failed _
              cases failed with
              | true => exact ih _
              | false => exact Prog.always_done _

theorem delivers_bundleAttempts
    (n jitoAttempt : Nat) :
    (om.bundleAttempts mint o bound tip n jitoAttempt).Always
      (·.delivers = true) :=
  (bundles_bundleAttempts n jitoAttempt).mono
    fun _ => Op.delivers_of_bundles

theorem offers_simulateFirst
    (jito : JitoClient)
    (simEnabled : Bool) :
    (om.simulateFirst jito mint o bound tip simEnabled).Always
      (·.offers = true) := by
  unfold OrderManager.simulateFirst
  cases simEnabled with
  | false => exact Prog.always_done _
  | true =>
      apply Prog.Always.bind
        (bundles_buildTransactionWithTip.mono
          fun _ => Op.offers_of_bundles)
      intro built _
      cases built with
      | error e => exact Prog.always_done _
      | ok simTx =>
          unfold OrderManager.executeSimulationGate
          cases jito.simRpcUrl with
          | none => exact Prog.always_done _
          | some url =>
              refine Prog.always_act rfl fun simulated => ?_
              cases simulated <;> exact Prog.always_done _

/- A submission as a bundle sends nothing to a node. -/
theorem offers_executeViaJitoMinimal
    (jito : JitoClient)
    (maxCost minOutput : UInt64) :
    (om.executeViaJitoMinimal jito mint o maxCost minOutput).Always
      (·.offers = true) := by
  iterate 5
    refine Prog.always_act rfl fun _ => ?_
  apply Prog.Always.bind (offers_simulateFirst jito _)
  intro gate _
  cases gate with
  | error e => exact Prog.always_done _
  | ok u =>
      exact (bundles_bundleAttempts 2 0).mono
        fun _ => Op.offers_of_bundles

theorem delivers_afterJitoError
    (maxCost minOutput : UInt64)
    (e : String) :
    (om.afterJitoError mint o maxCost minOutput e).Always
      (·.delivers = true) := by
  unfold OrderManager.afterJitoError
  split
  · exact Prog.always_done _
  · exact delivers_executeDirect _ _

theorem executes_of_always_delivers
    {α : Type} {p : OmProg α}
    (hDelivers : p.Always (·.delivers = true)) :
    p.Always (·.executes = true) :=
  hDelivers.mono fun _ => Op.executes_of_delivers

/- Everything a pass executes under its deadline. -/
theorem executes_executeTrade
    (maxCost minOutput : UInt64) :
    (om.executeTrade mint o maxCost minOutput).Always
      (·.executes = true) := by
  unfold OrderManager.executeTrade
  split
  · apply Prog.Always.bind
      ((offers_executeViaJitoMinimal _ _ _).mono
        fun _ => Op.executes_of_offers)
    intro result _
    cases result with
    | ok sig => exact Prog.always_act rfl fun _ => Prog.always_done _
    | error e =>
        exact executes_of_always_delivers (delivers_afterJitoError _ _ e)
  · exact executes_of_always_delivers (delivers_executeDirect _ _)

end Execution

------------------------------------------------------------
-- The End of a Pass
------------------------------------------------------------

theorem finishes_leave
    (o : Order) :
    (OrderManager.finalizeOrderMinimal.leave o).Always
      (·.finishes = true) := by
  iterate 6
    refine Prog.always_act rfl fun _ => ?_
  exact Prog.always_done _

theorem finishes_finalizeOrderMinimal
    (o : Order) :
    (OrderManager.finalizeOrderMinimal o).Always
      (·.finishes = true) := by
  refine Prog.always_act rfl fun updated => ?_
  cases updated with
  | error e => exact Prog.always_done _
  | ok u =>
      dsimp only [Prog.bind]
      split
      · exact Prog.always_act rfl fun _ => finishes_leave o
      · exact finishes_leave o

theorem finishes_failOrder
    (o : Order)
    (reason : String) :
    (OrderManager.failOrder o reason).Always (·.finishes = true) :=
  Prog.always_act rfl fun _ => finishes_finalizeOrderMinimal _

/- Everything a pass executes after its deadline. -/
theorem settles_settle
    (om : OrderManager)
    (o : Order)
    (result : Except String String) :
    (om.settle o result).Always (·.settles = true) := by
  have hFinalize :
      ∀ v, (OrderManager.finalizeOrderMinimal v).Always
        (·.settles = true) :=
    fun v => (finishes_finalizeOrderMinimal v).mono
      fun _ => Op.settles_of_finishes
  unfold OrderManager.settle
  split
  · iterate 3
      refine Prog.always_act rfl fun _ => ?_
    exact hFinalize _
  · split
    · split
      · exact Prog.always_crash
      · iterate 6
          refine Prog.always_act rfl fun _ => ?_
        exact Prog.always_done _
    · iterate 2
        refine Prog.always_act rfl fun _ => ?_
      exact hFinalize _

/- The calls of a pass that leaves the maps. -/
theorem calls_of_leave
    {o : Order} {h : List OmCall} {r : Except OrderError Unit}
    (hAfter :
      (OrderManager.finalizeOrderMinimal.leave o).After h (.done r)) :
    ∃ removed,
      r = .ok () ∧
        h =
          [⟨.chan (.eventSend o.event), ()⟩, ⟨.map .activeLock, ()⟩,
            ⟨.map (.activeRemove o.id), removed⟩,
            ⟨.metric (.dec .activeOrders), ()⟩,
            ⟨.map (.historyInsert o), ()⟩, ⟨.map .activeUnlock, ()⟩] := by
  rcases hAfter.act_done_inv with ⟨_, h₁, rfl, hLock⟩
  rcases hLock.act_done_inv with ⟨_, h₂, rfl, hRemove⟩
  rcases hRemove.act_done_inv with ⟨removed, h₃, rfl, hDec⟩
  rcases hDec.act_done_inv with ⟨_, h₄, rfl, hFile⟩
  rcases hFile.act_done_inv with ⟨_, h₅, rfl, hUnlock⟩
  rcases hUnlock.act_done_inv with ⟨_, h₆, rfl, hEnd⟩
  rcases hEnd.done_inv with ⟨rfl, hEq⟩
  cases hEq
  exact ⟨removed, rfl, rfl⟩

/-
  The calls of the finalizer: its statement has failed, and it
  has done nothing else, or it has left the maps.
-/
theorem calls_of_finalizeOrderMinimal
    {o : Order} {h : List OmCall} {r : Except OrderError Unit}
    (hAfter :
      (OrderManager.finalizeOrderMinimal o).After h (.done r)) :
    (∃ e, r = .error (.databaseError e) ∧
      h = [⟨.db (.updateOrder o), .error e⟩]) ∨
      ∃ trade h',
        h = ⟨.db (.updateOrder o), .ok ()⟩ :: trade ++ h' ∧
          (∀ call ∈ trade, call.1 = .db (.insertTrade o)) ∧
            (OrderManager.finalizeOrderMinimal.leave o).After h'
              (.done r) := by
  rcases hAfter.act_done_inv with ⟨updated, h₁, rfl, hRest⟩
  cases updated with
  | error e =>
      rcases hRest.done_inv with ⟨rfl, hEq⟩
      cases hEq
      exact .inl ⟨e, rfl, rfl⟩
  | ok u =>
      right
      dsimp only [Prog.bind] at hRest
      split at hRest
      · rcases hRest.act_done_inv with ⟨stored, h₂, rfl, hLeave⟩
        exact ⟨[⟨_, stored⟩], h₂, rfl, by simp, hLeave⟩
      · exact ⟨[], h₁, rfl, by simp, hRest⟩

/- A finalizer whose statement succeeds files its order. -/
theorem filed_of_finalizeOrderMinimal
    {o : Order} {h : List OmCall} {r : Except OrderError Unit}
    (hAfter :
      (OrderManager.finalizeOrderMinimal o).After h (.done r))
    (hWritten : ∀ u, ⟨.db (.updateOrder o), u⟩ ∈ h → u = .ok ()) :
    ⟨.db (.updateOrder o), .ok ()⟩ ∈ h ∧
      ⟨.chan (.eventSend o.event), ()⟩ ∈ h ∧
        ⟨.map (.historyInsert o), ()⟩ ∈ h := by
  rcases calls_of_finalizeOrderMinimal hAfter with
    ⟨e, _, rfl⟩ | ⟨trade, h', rfl, _, hLeave⟩
  · have hOk := hWritten (.error e) (List.mem_singleton_self _)
    cases hOk
  · rcases calls_of_leave hLeave with ⟨removed, _, rfl⟩
    refine ⟨List.mem_cons_self, ?_, ?_⟩
    · exact List.mem_append_right _ List.mem_cons_self
    · apply List.mem_append_right
      simp

end Pumpy
