import Pumpy.Engine.Lifecycle

/-
  This file says what one operation does to the parts of the
  state that the invariants speak of: the channel, the
  identifiers, the active map and its lock, the pending orders,
  the history, the orders table, the latch, the registry row,
  the gauges, and the chain.  What an operation does not
  concern, it leaves unchanged.
-/

------------------------------------------------------------
-- Operations by Effect
------------------------------------------------------------

namespace Pumpy

open Interleaving

namespace Op

/- The order an operation sends into the channel. -/
def sends : Op → Option Order
  | chan (.orderSend o) => some o
  | _ => none

/- The identifier an operation draws. -/
def drawn : (op : Op) → op.Resp → Option OrderId
  | sys .newUuid, id => some id
  | _, _ => none

/- The order an operation puts into the active map. -/
def inserts : Op → Option Order
  | map (.activeInsert o) => some o
  | _ => none

/- The entry an operation takes out of the active map. -/
def removes : Op → Option OrderId
  | map (.activeRemove id) => some id
  | _ => none

/- What an operation adds to a gauge. -/
def delta : Op → Gauge → Int
  | metric (.inc g), gauge => if g = gauge then 1 else 0
  | metric (.dec g), gauge => if g = gauge then -1 else 0
  | _, _ => 0

/- Operations on the lock of the active map. -/
def locks : Op → Bool
  | map .activeLock => true
  | map .activeUnlock => true
  | _ => false

/- Operations that write the registry row. -/
def writesRegistry : Op → Bool
  | db (.updateRegistryStatus _) => true
  | _ => false

/- Operations that write the latch or the flag. -/
def writesLatch : Op → Bool
  | engine (.storeAutoPaused _) => true
  | engine (.swapAutoPaused _) => true
  | engine (.storeNeedsDbPause _) => true
  | engine (.swapNeedsDbPause _) => true
  | _ => false

/- Operations with none of these effects. -/
structure Inert (op : Op) : Prop where
  sends : op.sends = none
  drawn : ∀ r, op.drawn r = none
  inserts : op.inserts = none
  removes : op.removes = none
  locks : op.locks = false
  writesRegistry : op.writesRegistry = false
  writesLatch : op.writesLatch = false
  submits : op.submits = none

theorem inert_of_neutral
    {op : Op}
    (hNeutral : op.neutral = true) :
    op.Inert := by
  rcases op with op | op | op | op | op | op | op <;> cases op <;>
    first
    | exact ⟨rfl, fun _ => rfl, rfl, rfl, rfl, rfl, rfl, rfl⟩
    | cases hNeutral

theorem inert_of_announces
    {op : Op}
    {p : OrderId × OrderStatus}
    (hOp : op.announces = some p) :
    op.Inert := by
  rcases op with op | op | op | op | op | op | op <;> cases op <;>
    first
    | exact ⟨rfl, fun _ => rfl, rfl, rfl, rfl, rfl, rfl, rfl⟩
    | cases hOp

end Op

------------------------------------------------------------
-- Frames
------------------------------------------------------------

section Frames

variable {op : Op} {env : Outcome} {s s' : State} {r : op.Resp}

/- An operation changes one part of the state. -/
theorem exec_part
    (hExec : State.exec op env s = some (r, s')) :
    match op with
    | .engine _ => ∃ latch, s' = { s with latch := latch }
    | .db _ => ∃ db, s' = { s with db := db }
    | .map _ => ∃ maps, s' = { s with maps := maps }
    | .chan _ => ∃ chan, s' = { s with chan := chan }
    | .metric _ => ∃ metrics, s' = { s with metrics := metrics }
    | .chain _ => ∃ chain, s' = { s with chain := chain }
    | .sys _ => ∃ seenIds, s' = { s with seenIds := seenIds } := by
  cases op with
  | engine op =>
      cases env <;> simp [State.exec] at hExec
      exact ⟨_, hExec.2.symm⟩
  | db op =>
      simp only [State.exec, Option.map_eq_some_iff] at hExec
      rcases hExec with ⟨p, _, hEq⟩
      cases hEq
      exact ⟨_, rfl⟩
  | map op =>
      simp only [State.exec, Option.map_eq_some_iff] at hExec
      rcases hExec with ⟨p, _, hEq⟩
      cases hEq
      exact ⟨_, rfl⟩
  | chan op =>
      cases env <;> simp [State.exec] at hExec
      exact ⟨_, hExec.2.symm⟩
  | metric op =>
      cases env <;> simp [State.exec] at hExec
      exact ⟨_, hExec.symm⟩
  | chain op =>
      simp only [State.exec, Option.map_eq_some_iff] at hExec
      rcases hExec with ⟨p, _, hEq⟩
      cases hEq
      exact ⟨_, rfl⟩
  | sys op =>
      simp only [State.exec, Option.map_eq_some_iff] at hExec
      rcases hExec with ⟨p, _, hEq⟩
      cases hEq
      exact ⟨_, rfl⟩

/- The channel changes by what is sent. -/
theorem exec_chan
    (hExec : State.exec op env s = some (r, s')) :
    s'.chan.receiverAlive = s.chan.receiverAlive ∧
      s'.chan.queue =
        if s.chan.receiverAlive then
          s.chan.queue ++ op.sends.toList
        else
          s.chan.queue := by
  cases op with
  | chan op =>
      cases op with
      | orderSend o =>
          cases env <;> simp [State.exec] at hExec
          rcases hExec with ⟨_, rfl⟩
          cases hAlive : s.chan.receiverAlive <;>
            simp [ChanOp.exec, Op.sends, hAlive]
      | eventSend ev =>
          cases env <;> simp [State.exec] at hExec
          rcases hExec with ⟨_, rfl⟩
          simp [ChanOp.exec, Op.sends]
  | engine op | db op | map op | metric op | chain op | sys op =>
      rcases exec_part hExec with ⟨_, rfl⟩
      simp [Op.sends]

/- The identifiers grow by what is drawn, which is new. -/
theorem exec_seenIds
    (hExec : State.exec op env s = some (r, s')) :
    (∀ id, op.drawn r = some id → id ∉ s.seenIds) ∧
      s'.seenIds = (op.drawn r).toList ++ s.seenIds := by
  cases op with
  | sys op =>
      cases op with
      | newUuid =>
          cases env <;> simp [State.exec, SysOp.exec] at hExec
          rcases hExec with ⟨hNew, rfl, rfl⟩
          refine ⟨fun id hDrawn => ?_, rfl⟩
          cases hDrawn
          exact hNew
      | utcNow | sleep d | timer | spawnPauseWallet reason n =>
          cases env <;> simp [State.exec, SysOp.exec] at hExec
          simp [← hExec, Op.drawn]
  | engine op | db op | map op | metric op | chain op | chan op =>
      rcases exec_part hExec with ⟨_, rfl⟩
      exact ⟨fun id hDrawn => (by cases hDrawn), rfl⟩

theorem exec_active
    (hInserts : op.inserts = none)
    (hRemoves : op.removes = none)
    (hExec : State.exec op env s = some (r, s')) :
    s'.maps.active = s.maps.active := by
  cases op with
  | map op =>
      simp only [State.exec, Option.map_eq_some_iff] at hExec
      rcases hExec with ⟨p, hOp, hEq⟩
      cases hEq
      cases op with
      | activeInsert o => cases hInserts
      | activeRemove id => cases hRemoves
      | activeValues | activeLock | activeUnlock | pendingPush max o
      | pendingRetain id | historyInsert o =>
          cases env <;> simp [MapOp.exec] at hOp
          grind
  | engine op | db op | metric op | chain op | chan op | sys op =>
      rcases exec_part hExec with ⟨_, rfl⟩
      rfl

/- Most operations are not about the pending orders. -/
theorem exec_pending
    (hPush : ∀ max o, op ≠ .map (.pendingPush max o))
    (hRetain : ∀ id, op ≠ .map (.pendingRetain id))
    (hExec : State.exec op env s = some (r, s')) :
    s'.maps.pending = s.maps.pending := by
  cases op with
  | map op =>
      simp only [State.exec, Option.map_eq_some_iff] at hExec
      rcases hExec with ⟨p, hOp, hEq⟩
      cases hEq
      cases op with
      | pendingPush max o => exact absurd rfl (hPush max o)
      | pendingRetain id => exact absurd rfl (hRetain id)
      | activeInsert o | activeValues | activeLock | activeRemove id
      | activeUnlock | historyInsert o =>
          cases env <;> simp [MapOp.exec] at hOp
          grind
  | engine op | db op | metric op | chain op | chan op | sys op =>
      rcases exec_part hExec with ⟨_, rfl⟩
      rfl

/- Only a pass that ends puts orders into the history. -/
theorem exec_history
    (hArchive : ∀ o, op ≠ .map (.historyInsert o))
    (hExec : State.exec op env s = some (r, s')) :
    s'.maps.history = s.maps.history := by
  cases op with
  | map op =>
      simp only [State.exec, Option.map_eq_some_iff] at hExec
      rcases hExec with ⟨p, hOp, hEq⟩
      cases hEq
      cases op with
      | historyInsert o => exact absurd rfl (hArchive o)
      | activeInsert o | activeValues | activeLock | activeRemove id
      | activeUnlock | pendingPush max o | pendingRetain id =>
          cases env <;> simp [MapOp.exec] at hOp
          grind
  | engine op | db op | metric op | chain op | chan op | sys op =>
      rcases exec_part hExec with ⟨_, rfl⟩
      rfl

/- The gauges change by what is counted. -/
theorem exec_gauges
    (gauge : Gauge)
    (hExec : State.exec op env s = some (r, s')) :
    s'.metrics.gauges gauge =
      s.metrics.gauges gauge + op.delta gauge := by
  cases op with
  | metric op =>
      cases env <;> simp [State.exec] at hExec
      subst hExec
      cases op with
      | inc g | dec g =>
          by_cases hSame : gauge = g
          · subst hSame
            simp [MetricOp.exec, Op.delta, Int.sub_eq_add_neg]
          · simp [MetricOp.exec, Op.delta, hSame, Ne.symm hSame]
      | count counter => simp [MetricOp.exec, Op.delta]
  | engine op | db op | map op | chain op | chan op | sys op =>
      rcases exec_part hExec with ⟨_, rfl⟩
      simp [Op.delta]

theorem exec_activeLocked
    (hLocks : op.locks = false)
    (hExec : State.exec op env s = some (r, s')) :
    s'.maps.activeLocked = s.maps.activeLocked := by
  cases op with
  | map op =>
      simp only [State.exec, Option.map_eq_some_iff] at hExec
      rcases hExec with ⟨p, hOp, hEq⟩
      cases hEq
      cases op with
      | activeLock => cases hLocks
      | activeUnlock => cases hLocks
      | activeInsert o | activeValues | activeRemove id
      | pendingPush max o | pendingRetain id | historyInsert o =>
          cases env <;> simp [MapOp.exec] at hOp
          grind
  | engine op | db op | metric op | chain op | chan op | sys op =>
      rcases exec_part hExec with ⟨_, rfl⟩
      rfl

theorem exec_latch
    (hWrites : op.writesLatch = false)
    (hExec : State.exec op env s = some (r, s')) :
    s'.latch.autoPaused = s.latch.autoPaused ∧
      s'.latch.needsDbPause = s.latch.needsDbPause := by
  cases op with
  | engine op =>
      cases env <;> simp [State.exec] at hExec
      rcases hExec with ⟨_, rfl⟩
      cases op with
      | storeAutoPaused b | swapAutoPaused b | storeNeedsDbPause b
      | swapNeedsDbPause b =>
          cases hWrites
      | loadAutoPaused | isAutoPaused | loadConsecutiveRejects
      | storeConsecutiveRejects n | fetchAddConsecutiveRejects n
      | emit rec =>
          exact ⟨rfl, rfl⟩
  | db op | map op | metric op | chain op | chan op | sys op =>
      rcases exec_part hExec with ⟨_, rfl⟩
      exact ⟨rfl, rfl⟩

end Frames

------------------------------------------------------------
-- Effects
------------------------------------------------------------

section Effects

variable {env : Outcome} {s s' : State}

theorem exec_activeInsert
    {o : Order} {u : Unit}
    (hExec :
      State.exec (.map (.activeInsert o)) env s = some (u, s')) :
    s.maps.activeLocked = false ∧
      s'.maps.active = insertById o s.maps.active := by
  cases env <;> simp [State.exec, MapOp.exec] at hExec
  rcases hExec with ⟨hUnlocked, rfl⟩
  exact ⟨hUnlocked, rfl⟩

/- A reader sees the whole map, in some order, with no writer. -/
theorem exec_activeValues
    {l : List Order}
    (hExec :
      State.exec (.map .activeValues) env s = some (l, s')) :
    s.maps.activeLocked = false ∧ l.Perm s.maps.active ∧ s' = s := by
  cases env <;> simp [State.exec, MapOp.exec] at hExec
  rcases hExec with ⟨⟨hUnlocked, hPerm⟩, rfl, rfl⟩
  exact ⟨hUnlocked, List.isPerm_iff.mp hPerm, rfl⟩

theorem exec_activeRemove
    {id : OrderId} {removed : Option Order}
    (hExec :
      State.exec (.map (.activeRemove id)) env s =
        some (removed, s')) :
    removed = findById id s.maps.active ∧
      s'.maps.active = removeById id s.maps.active := by
  cases env <;> simp [State.exec, MapOp.exec] at hExec
  rcases hExec with ⟨rfl, rfl⟩
  exact ⟨rfl, rfl⟩

/- An entry of the active map is new, or was there and is not removed. -/
theorem exec_mem_active
    {op : Op} {r : op.Resp} {x : Order}
    (hExec : State.exec op env s = some (r, s'))
    (hMem : x ∈ s'.maps.active) :
    op.inserts = some x ∨
      (x ∈ s.maps.active ∧ op.removes ≠ some x.id) := by
  cases hInserts : op.inserts with
  | some o =>
      cases op with
      | map op =>
          cases op with
          | activeInsert o' =>
              cases hInserts
              rw [(exec_activeInsert hExec).2] at hMem
              rcases List.mem_cons.mp hMem with rfl | hOld
              · exact .inl rfl
              · refine .inr ⟨(List.mem_filter.mp hOld).1, ?_⟩
                intro hRemoves
                cases hRemoves
          | _ => cases hInserts
      | _ => cases hInserts
  | none =>
      right
      cases hRemoves : op.removes with
      | none =>
          rw [exec_active hInserts hRemoves hExec] at hMem
          exact ⟨hMem, fun hEq => by cases hEq⟩
      | some id =>
          cases op with
          | map op =>
              cases op with
              | activeRemove id' =>
                  cases hRemoves
                  rw [(exec_activeRemove hExec).2] at hMem
                  have hBoth := List.mem_filter.mp hMem
                  refine ⟨hBoth.1, fun hEq => ?_⟩
                  have hNe := of_decide_eq_true hBoth.2
                  exact hNe (Option.some.inj hEq).symm
              | _ => cases hRemoves
          | _ => cases hRemoves

/- An entry stays, unless it is removed or replaced. -/
theorem exec_keeps_active
    {op : Op} {r : op.Resp} {x : Order}
    (hExec : State.exec op env s = some (r, s'))
    (hInserts : ∀ o, op.inserts = some o → o.id ≠ x.id)
    (hRemoves : op.removes ≠ some x.id)
    (hMem : x ∈ s.maps.active) :
    x ∈ s'.maps.active := by
  cases hNew : op.inserts with
  | some o =>
      cases op with
      | map op =>
          cases op with
          | activeInsert o' =>
              cases hNew
              have hNe : x.id ≠ o.id := (hInserts o rfl).symm
              rw [(exec_activeInsert hExec).2]
              refine List.mem_cons_of_mem _ (List.mem_filter.mpr ?_)
              exact ⟨hMem, decide_eq_true hNe⟩
          | _ => cases hNew
      | _ => cases hNew
  | none =>
      cases hGone : op.removes with
      | none =>
          rw [exec_active hNew hGone hExec]
          exact hMem
      | some id =>
          cases op with
          | map op =>
              cases op with
              | activeRemove id' =>
                  cases hGone
                  have hNe : x.id ≠ id := by
                    intro hEq
                    rw [hEq] at hRemoves
                    exact hRemoves rfl
                  rw [(exec_activeRemove hExec).2]
                  exact List.mem_filter.mpr ⟨hMem, decide_eq_true hNe⟩
              | _ => cases hGone
          | _ => cases hGone

theorem exec_activeLock
    {u : Unit}
    (hExec : State.exec (.map .activeLock) env s = some (u, s')) :
    s.maps.activeLocked = false ∧ s'.maps.activeLocked = true := by
  cases env <;> simp [State.exec, MapOp.exec] at hExec
  rcases hExec with ⟨hUnlocked, rfl⟩
  exact ⟨hUnlocked, rfl⟩

theorem exec_activeUnlock
    {u : Unit}
    (hExec : State.exec (.map .activeUnlock) env s = some (u, s')) :
    s'.maps.activeLocked = false := by
  cases env <;> simp [State.exec, MapOp.exec] at hExec
  rcases hExec with rfl
  rfl

/- The statement that stores an order. -/
theorem exec_insertOrder
    {o : Order} {r : Except DbError Unit}
    (hExec :
      State.exec (.db (.insertOrder o)) env s = some (r, s')) :
    ∃ out : StmtOutcome,
      env = .stmt out ∧
        r = out.result ∧
          s' =
            { s with
              db := if out.applies then s.db.insertOrder o else s.db } := by
  cases env <;> simp [State.exec, DbOp.exec, execStmt] at hExec
  exact ⟨_, rfl, hExec.1.symm, hExec.2.symm⟩

/- The push, which finds room or not. -/
theorem exec_pendingPush
    {max : Nat} {o : Order} {b : Bool}
    (hExec :
      State.exec (.map (.pendingPush max o)) env s = some (b, s')) :
    (max ≤ s.maps.pending.length ∧ b = false ∧ s' = s) ∨
      (s.maps.pending.length < max ∧ b = true ∧
        s' =
          { s with
            maps :=
              { s.maps with pending := s.maps.pending ++ [o] } }) := by
  simp only [State.exec, Option.map_eq_some_iff] at hExec
  rcases hExec with ⟨p, hOp, hEq⟩
  cases hEq
  cases env <;> simp [MapOp.exec] at hOp
  by_cases hFull : max ≤ s.maps.pending.length
  · rw [if_pos hFull] at hOp
    cases hOp
    exact .inl ⟨hFull, rfl, rfl⟩
  · rw [if_neg hFull] at hOp
    cases hOp
    exact .inr ⟨Nat.lt_of_not_le hFull, rfl, rfl⟩

theorem exec_historyInsert
    {o : Order} {u : Unit}
    (hExec :
      State.exec (.map (.historyInsert o)) env s = some (u, s')) :
    s'.maps.history = insertById o s.maps.history := by
  cases env <;> simp [State.exec, MapOp.exec] at hExec
  rw [← hExec]

/- A cancellation takes out all entries of an order. -/
theorem exec_pendingRetain
    {id : OrderId} {dropped : Bool}
    (hExec :
      State.exec (.map (.pendingRetain id)) env s =
        some (dropped, s')) :
    dropped = s.maps.pending.any (·.id = id) ∧
      s' =
        { s with
          maps :=
            { s.maps with
              pending := removeById id s.maps.pending } } := by
  cases env <;> simp [State.exec, MapOp.exec] at hExec
  exact ⟨by simp [← hExec.1], hExec.2.symm⟩

/- The send, which finds a receiver or not. -/
theorem exec_orderSend
    {o : Order} {b : Bool}
    (hExec :
      State.exec (.chan (.orderSend o)) env s = some (b, s')) :
    (s.chan.receiverAlive = false ∧ b = false ∧ s' = s) ∨
      (s.chan.receiverAlive = true ∧ b = true ∧
        s' =
          { s with
            chan :=
              { s.chan with queue := s.chan.queue ++ [o] } }) := by
  cases env <;> simp [State.exec] at hExec
  rcases hExec with ⟨hSent, rfl⟩
  cases hAlive : s.chan.receiverAlive with
  | false =>
      simp only [ChanOp.exec, hAlive] at hSent ⊢
      exact .inl ⟨trivial, hSent.symm, rfl⟩
  | true =>
      simp only [ChanOp.exec, hAlive] at hSent ⊢
      exact .inr ⟨trivial, hSent.symm, rfl⟩

/- An operation on the engine's atomics does what `EngineOp.exec` says. -/
theorem exec_engine
    {op : EngineOp} {r : op.Resp}
    (hExec : State.exec (.engine op) env s = some (r, s')) :
    r = (op.exec s.latch).1 ∧
      s' = { s with latch := (op.exec s.latch).2 } := by
  cases env <;> simp [State.exec] at hExec
  exact ⟨hExec.1.symm, hExec.2.symm⟩

end Effects

end Pumpy
