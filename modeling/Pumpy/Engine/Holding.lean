import Pumpy.Engine.Effects
import Pumpy.Interleaving.Population

/-
  What the engine's tasks hold, for any protocol they follow:
  the tokens before and after one operation or one outside
  event.  The identifiers that may still reach a pass are those
  in the channel and those that tasks hold; if every move hands
  its identifier on, none has two holders.

  Key definitions include:
    * `afterOp`
    * `afterExt`
    * `holdersBy`
    * `Hands`
    * `OwnedBy`

  The main result is `ownedBy_of_shadowRun`.
-/

------------------------------------------------------------
-- Tokens after a Step
------------------------------------------------------------

namespace Pumpy

open Interleaving

section Tokens

variable {G β : Type} {P : Protocol Op Op.Resp Root G}
variable {f : G → Option β}
variable {om : OrderManager} {shs : List (Shadow Root G)}
variable {tid : Nat} {root : Root} {g g' : G} {op : Op}

/- The shadows after the task `tid` has executed `op`. -/
def afterOp
    (P : Protocol Op Op.Resp Root G)
    (shs : List (Shadow Root G))
    (tid : Nat)
    (root : Root)
    (g' : G)
    (op : Op) : List (Shadow Root G) :=
  shs.set tid ⟨root, some g'⟩ ++ op.roots.map P.startShadow

/- The shadows after the outside event `e`. -/
def afterExt
    (om : OrderManager)
    (P : Protocol Op Op.Resp Root G)
    (shs : List (Shadow Root G))
    (e : Ext) : List (Shadow Root G) :=
  shs.mapIdx (Protocol.surviveShadow om.machine e) ++
    e.roots.map P.startShadow

/- The tasks an operation starts hold what a pause write holds. -/
theorem held_roots
    (P : Protocol Op Op.Resp Root G)
    (op : Op)
    (hPausing : ∀ reason n, f (P.start (.pauseWallet reason n)) = none) :
    Protocol.held f (op.roots.map P.startShadow) = [] := by
  rcases op with op | op | op | op | op | op | op
  case sys =>
    cases op with
    | spawnPauseWallet reason n =>
        exact List.filterMap_eq_nil_iff.mpr fun sh hMem => by
          cases List.mem_singleton.mp hMem
          exact hPausing reason n
    | _ => rfl
  all_goals rfl

/- The shadow of the task that has moved. -/
theorem afterOp_self
    (hPhase : shs[tid]? = some ⟨root, some g⟩) :
    (afterOp P shs tid root g' op)[tid]? = some ⟨root, some g'⟩ := by
  have hLt : tid < shs.length :=
    (List.getElem?_eq_some_iff.mp hPhase).1
  unfold afterOp
  rw [List.getElem?_append_left (by simpa using hLt),
    List.getElem?_set_self hLt]

/- The shadow of another task. -/
theorem afterOp_other
    {tid' : Nat} {sh : Shadow Root G}
    (hNe : tid' ≠ tid)
    (hAt : shs[tid']? = some sh) :
    (afterOp P shs tid root g' op)[tid']? = some sh := by
  have hLt : tid' < shs.length :=
    (List.getElem?_eq_some_iff.mp hAt).1
  unfold afterOp
  rw [List.getElem?_append_left (by simpa using hLt),
    List.getElem?_set_ne hNe.symm]
  exact hAt

/- Where a token that is held after an operation comes from. -/
theorem mem_held_afterOp
    {b : β}
    (hPausing : ∀ reason n, f (P.start (.pauseWallet reason n)) = none)
    (hMem : b ∈ Protocol.held f (afterOp P shs tid root g' op)) :
    f g' = some b ∨
      ∃ (tid' : Nat) (root' : Root) (g₁ : G),
        tid' ≠ tid ∧ shs[tid']? = some ⟨root', some g₁⟩ ∧
          f g₁ = some b := by
  unfold afterOp at hMem
  rw [Protocol.held_append, held_roots P op hPausing,
    List.append_nil] at hMem
  rcases Protocol.mem_held.mp hMem with ⟨tid', root', g₁, hAt, hHolds⟩
  by_cases hTid : tid' = tid
  · subst hTid
    have hLt : tid' < shs.length := by
      simpa using (List.getElem?_eq_some_iff.mp hAt).1
    rw [List.getElem?_set_self hLt] at hAt
    cases hAt
    exact .inl hHolds
  · rw [List.getElem?_set_ne (Ne.symm hTid)] at hAt
    exact .inr ⟨tid', root', g₁, hTid, hAt, hHolds⟩

/- What the tasks hold before and after an operation. -/
theorem exists_held_afterOp
    (op : Op)
    (g' : G)
    (hPausing : ∀ reason n, f (P.start (.pauseWallet reason n)) = none)
    (hPhase : shs[tid]? = some ⟨root, some g⟩) :
    ∃ rest,
      (Protocol.held f shs).Perm ((f g).toList ++ rest) ∧
      (Protocol.held f (afterOp P shs tid root g' op)).Perm
        ((f g').toList ++ rest) := by
  rcases Protocol.exists_held_set g' hPhase with
    ⟨rest, hOld, hNew⟩
  refine ⟨rest, hOld, ?_⟩
  rw [afterOp, Protocol.held_append, held_roots P op hPausing,
    List.append_nil]
  exact hNew

/- A token of the task that has moved is held. -/
theorem mem_held_self
    {b : β}
    (hPhase : shs[tid]? = some ⟨root, some g⟩)
    (hHolds : f g' = some b) :
    b ∈ Protocol.held f (afterOp P shs tid root g' op) :=
  Protocol.mem_held.mpr
    ⟨tid, root, g', afterOp_self hPhase, hHolds⟩

/- Only a restart drops tasks. -/
theorem afterExt_of_ne_restart
    (om : OrderManager)
    (P : Protocol Op Op.Resp Root G)
    (shs : List (Shadow Root G))
    {e : Ext}
    (hNe : e ≠ .restart) :
    afterExt om P shs e = shs ++ e.roots.map P.startShadow := by
  unfold afterExt
  rw [Protocol.mapIdx_survive_of_spares]
  intro tid root
  cases e <;> first | rfl | exact absurd rfl hNe

/- After a restart no task holds anything. -/
theorem held_afterExt_restart
    (f : G → Option β) :
    Protocol.held f (afterExt om P shs .restart) = [] := by
  rw [afterExt, Protocol.held_append,
    Protocol.held_survive_of_kills fun _ _ => rfl]
  rfl

/- From outside nothing else changes what tasks hold that have begun. -/
theorem held_afterExt
    {e : Ext}
    (hNe : e ≠ .restart)
    (hStart : ∀ root ∈ e.roots, f (P.start root) = none) :
    Protocol.held f (afterExt om P shs e) = Protocol.held f shs := by
  rw [afterExt_of_ne_restart om P shs hNe, Protocol.held_append]
  have hNew : Protocol.held f (e.roots.map P.startShadow) = [] := by
    refine List.filterMap_eq_nil_iff.mpr fun sh hMem => ?_
    rcases List.mem_map.mp hMem with ⟨root, hRoot, rfl⟩
    exact hStart root hRoot
  rw [hNew, List.append_nil]

end Tokens

------------------------------------------------------------
-- Outside Events
------------------------------------------------------------

section Outside

variable {s s' : State} {e : Ext}

/- Identifiers are never forgotten. -/
theorem seenIds_ext
    (hExt : Ext.exec e s = some s') :
    ∀ id ∈ s.seenIds, id ∈ s'.seenIds := by
  intro id hMem
  cases e with
  | recv o =>
      simp only [Ext.exec] at hExt
      grind
  | cancelOrder id' =>
      cases hExt
      exact List.mem_cons_of_mem _ hMem
  | submitOrder o | setStatus st | closeChannel | restart =>
      cases hExt
      exact hMem
  | land tx =>
      simp only [Ext.exec] at hExt
      grind

/- The worker takes the head of the queue. -/
theorem exec_recv
    {o : Order}
    (hExt : Ext.exec (.recv o) s = some s') :
    s.chan.queue = o :: s'.chan.queue ∧
      s' = { s with chan := { s.chan with queue := s'.chan.queue } } := by
  simp only [Ext.exec] at hExt
  split at hExt
  · cases hExt
  · rename_i head queue hQueue
    split at hExt
    · rename_i hHead
      cases hExt
      exact ⟨hHead ▸ hQueue, rfl⟩
    · cases hExt

/- Only a restart touches the maps from outside. -/
theorem active_ext
    (hNe : e ≠ .restart)
    (hExt : Ext.exec e s = some s') :
    s'.maps = s.maps := by
  cases e with
  | recv o =>
      rw [(exec_recv hExt).2]
  | submitOrder o | cancelOrder id | setStatus st | closeChannel =>
      cases hExt
      rfl
  | land tx =>
      simp only [Ext.exec] at hExt
      grind
  | restart => exact absurd rfl hNe

theorem metrics_ext
    (hNe : e ≠ .restart)
    (hExt : Ext.exec e s = some s') :
    s'.metrics = s.metrics := by
  cases e with
  | recv o =>
      rw [(exec_recv hExt).2]
  | submitOrder o | cancelOrder id | setStatus st | closeChannel =>
      cases hExt
      rfl
  | land tx =>
      simp only [Ext.exec] at hExt
      grind
  | restart => exact absurd rfl hNe

/- Only the worker and the end of the channel shorten the queue. -/
theorem queue_ext
    (hRecv : ∀ o, e ≠ .recv o)
    (hClose : e ≠ .closeChannel)
    (hNe : e ≠ .restart)
    (hExt : Ext.exec e s = some s') :
    s'.chan.queue = s.chan.queue := by
  cases e with
  | recv o => exact absurd rfl (hRecv o)
  | submitOrder o | cancelOrder id | setStatus st =>
      cases hExt
      rfl
  | land tx =>
      simp only [Ext.exec] at hExt
      grind
  | closeChannel => exact absurd rfl hClose
  | restart => exact absurd rfl hNe

end Outside

------------------------------------------------------------
-- Holders
------------------------------------------------------------

/- The order an operation has put into the channel. -/
def Op.enqueues : (op : Op) → op.Resp → Option Order
  | .chan (.orderSend o), sent => if sent = true then some o else none
  | _, _ => none

/- The order a task has from its start on. -/
def Root.carried : Root → Option OrderId
  | .processOrder o => some o.id
  | _ => none

section Holders

variable {G : Type} {f : G → Option OrderId}
variable {P : Protocol Op Op.Resp Root G}
variable {om : OrderManager} {s s' : State}
variable {shs : List (Shadow Root G)}
variable {tid : Nat} {root : Root} {g g' : G}
variable {op : Op} {env : Outcome} {r : op.Resp} {e : Ext}

/- The queue grows by what is sent while there is a receiver. -/
theorem exec_queue
    (hExec : State.exec op env s = some (r, s')) :
    s'.chan.queue = s.chan.queue ++ (op.enqueues r).toList := by
  have hQueue := (exec_chan hExec).2
  cases op with
  | chan op =>
      cases op with
      | orderSend o =>
          rcases exec_orderSend hExec with
            ⟨_, rfl, rfl⟩ | ⟨_, rfl, rfl⟩
          · simp [Op.enqueues]
          · simp [Op.enqueues]
      | eventSend ev => simpa [Op.sends, Op.enqueues] using hQueue
  | engine op | db op | map op | metric op | chain op | sys op =>
      simpa [Op.sends, Op.enqueues] using hQueue

theorem Op.enqueues_of_sends
    (hSends : op.sends = none) :
    op.enqueues r = none := by
  cases op with
  | chan op =>
      cases op with
      | orderSend o => cases hSends
      | eventSend ev => rfl
  | _ => rfl

/- The identifiers in the channel and those that tasks hold. -/
def holdersBy
    (f : G → Option OrderId)
    (s : State)
    (shs : List (Shadow Root G)) : List OrderId :=
  s.chan.queue.map Order.id ++ Protocol.held f shs

/-
  What a move does with the identifier its task holds: it keeps
  it, lets go of it, draws it, or puts it into the channel.
-/
inductive Hands
    (f : G → Option OrderId)
    (g : G)
    (op : Op)
    (r : op.Resp)
    (g' : G) : Prop
  | keeps
      (hEnqueues : op.enqueues r = none)
      (hDrawn : op.drawn r = none)
      (hSame : f g' = f g)
  | drops
      (hEnqueues : op.enqueues r = none)
      (hDrawn : op.drawn r = none)
      (hNone : f g' = none)
  | draws
      {id : OrderId}
      (hEnqueues : op.enqueues r = none)
      (hDrawn : op.drawn r = some id)
      (hNone : f g = none)
      (hSome : f g' = some id)
  | sends
      {o : Order}
      (hEnqueues : op.enqueues r = some o)
      (hDrawn : op.drawn r = none)
      (hSome : f g = some o.id)
      (hNone : f g' = none)

/-
  An operation draws a new identifier, or leaves the holders
  what they were but for those that let go.
-/
theorem holdersBy_op
    (hPausing : ∀ reason n, f (P.start (.pauseWallet reason n)) = none)
    (hPhase : shs[tid]? = some ⟨root, some g⟩)
    (hHands : Hands f g op r g')
    (hExec : State.exec op env s = some (r, s')) :
    (s'.seenIds = s.seenIds ∧
      ∃ gone, (holdersBy f s shs).Perm
        (gone ++ holdersBy f s' (afterOp P shs tid root g' op))) ∨
      ∃ id, id ∉ s.seenIds ∧ s'.seenIds = id :: s.seenIds ∧
        (holdersBy f s' (afterOp P shs tid root g' op)).Perm
          (id :: holdersBy f s shs) := by
  rcases exists_held_afterOp (P := P) op g' hPausing hPhase with
    ⟨rest, hOld, hNew⟩
  rcases exec_seenIds hExec with ⟨hFresh, hSeen⟩
  have hQueue := exec_queue hExec
  unfold holdersBy
  rw [hQueue]
  cases hHands with
  | keeps hEnqueues hDrawn hSame =>
      left
      rw [hDrawn] at hSeen
      rw [hEnqueues, Option.toList_none, List.append_nil]
      rw [hSame] at hNew
      exact ⟨hSeen, [], (hOld.trans hNew.symm).append_left _⟩
  | drops hEnqueues hDrawn hNone =>
      left
      rw [hDrawn] at hSeen
      rw [hEnqueues, Option.toList_none, List.append_nil]
      rw [hNone] at hNew
      refine ⟨hSeen, (f g).toList, ?_⟩
      refine ((hOld.trans (hNew.symm.append_left _)).append_left
        _).trans ?_
      exact List.perm_append_comm_assoc _ _ _
  | @draws id hEnqueues hDrawn hNone hSome =>
      right
      rw [hDrawn] at hSeen
      rw [hEnqueues, Option.toList_none, List.append_nil]
      rw [hNone] at hOld
      rw [hSome] at hNew
      refine ⟨id, hFresh id hDrawn, hSeen, ?_⟩
      refine ((hNew.trans (hOld.symm.append_left _)).append_left
        _).trans ?_
      exact List.perm_append_comm_assoc _ _ _
  | @sends o hEnqueues hDrawn hSome hNone =>
      left
      rw [hDrawn] at hSeen
      rw [hEnqueues]
      rw [hSome] at hOld
      rw [hNone] at hNew
      have hHeld := hOld.trans (hNew.symm.append_left _)
      refine ⟨hSeen, [], (hHeld.append_left _).trans ?_⟩
      simp

/- No identifier has two holders, and all of them are known. -/
structure OwnedBy
    (f : G → Option OrderId)
    (s : State)
    (shs : List (Shadow Root G)) : Prop where
  nodup : (holdersBy f s shs).Nodup
  seen : ∀ id ∈ holdersBy f s shs, id ∈ s.seenIds

theorem OwnedBy.afterOp
    (hOwned : OwnedBy f s shs)
    (hPausing : ∀ reason n, f (P.start (.pauseWallet reason n)) = none)
    (hPhase : shs[tid]? = some ⟨root, some g⟩)
    (hHands : Hands f g op r g')
    (hExec : State.exec op env s = some (r, s')) :
    OwnedBy f s' (Pumpy.afterOp P shs tid root g' op) := by
  rcases holdersBy_op (P := P) hPausing hPhase hHands hExec with
    ⟨hSeen, gone, hPerm⟩ | ⟨id, hNew, hSeen, hPerm⟩
  · refine ⟨?_, fun id hMem => ?_⟩
    · have hAll := hPerm.nodup_iff.mp hOwned.nodup
      exact (List.nodup_append.mp hAll).2.1
    · rw [hSeen]
      exact hOwned.seen id
        (hPerm.mem_iff.mpr (List.mem_append_right _ hMem))
  · refine ⟨?_, fun id' hMem => ?_⟩
    · refine hPerm.nodup_iff.mpr (List.nodup_cons.mpr ⟨?_, hOwned.nodup⟩)
      intro hMem
      exact hNew (hOwned.seen id hMem)
    · rw [hSeen]
      rcases List.mem_cons.mp (hPerm.mem_iff.mp hMem) with rfl | hOld
      · exact List.mem_cons_self
      · exact List.mem_cons_of_mem _ (hOwned.seen id' hOld)

/- Two tasks that hold one identifier are one task. -/
theorem OwnedBy.unique
    {tid' : Nat} {root' : Root} {id : OrderId}
    (hOwned : OwnedBy f s shs)
    (hPhase : shs[tid]? = some ⟨root, some g⟩)
    (hPhase' : shs[tid']? = some ⟨root', some g'⟩)
    (hHeld : f g = some id)
    (hHeld' : f g' = some id) :
    tid = tid' := by
  have hNodup : (Protocol.held f shs).Nodup :=
    (List.nodup_append.mp hOwned.nodup).2.1
  exact Protocol.holder_unique hNodup hPhase hPhase' hHeld hHeld'

/- What a task holds is not in the channel. -/
theorem OwnedBy.not_queued
    {id : OrderId}
    (hOwned : OwnedBy f s shs)
    (hPhase : shs[tid]? = some ⟨root, some g⟩)
    (hHeld : f g = some id) :
    id ∉ s.chan.queue.map Order.id := by
  intro hQueued
  have hMem : id ∈ Protocol.held f shs :=
    Protocol.mem_held.mpr ⟨tid, root, g, hPhase, hHeld⟩
  exact (List.nodup_append.mp hOwned.nodup).2.2 id hQueued id hMem rfl

/- What a task holds is known. -/
theorem OwnedBy.seen_of_held
    {id : OrderId}
    (hOwned : OwnedBy f s shs)
    (hPhase : shs[tid]? = some ⟨root, some g⟩)
    (hHeld : f g = some id) :
    id ∈ s.seenIds := by
  apply hOwned.seen
  apply List.mem_append_right
  exact Protocol.mem_held.mpr ⟨tid, root, g, hPhase, hHeld⟩

/- A task that lets go of its identifier was its last holder. -/
theorem OwnedBy.released
    {id : OrderId}
    (hOwned : OwnedBy f s shs)
    (hPausing : ∀ reason n, f (P.start (.pauseWallet reason n)) = none)
    (hPhase : shs[tid]? = some ⟨root, some g⟩)
    (hExec : State.exec op env s = some (r, s'))
    (hHeld : f g = some id)
    (hReleased : f g' = none)
    (hEnqueues : op.enqueues r = none) :
    id ∉ holdersBy f s' (Pumpy.afterOp P shs tid root g' op) := by
  rcases exists_held_afterOp (P := P) op g' hPausing hPhase with
    ⟨rest, hOld, hNew⟩
  have hQueue : s'.chan.queue = s.chan.queue := by
    rw [exec_queue hExec, hEnqueues, Option.toList_none,
      List.append_nil]
  rw [hHeld] at hOld
  rw [hReleased] at hNew
  have hAll :
      (id :: (s.chan.queue.map Order.id ++ rest)).Nodup := by
    refine List.Perm.nodup ?_ hOwned.nodup
    exact (hOld.append_left _).trans
      (List.perm_append_comm_assoc _ _ _)
  intro hMem
  refine (List.nodup_cons.mp hAll).1 ?_
  unfold holdersBy at hMem
  rw [hQueue] at hMem
  rcases List.mem_append.mp hMem with hQ | hH
  · exact List.mem_append_left _ hQ
  · exact List.mem_append_right _ (hNew.mem_iff.mp hH)

/- An identifier in use and let go of is never held again. -/
theorem not_holdersBy_op
    {id : OrderId}
    (hPausing : ∀ reason n, f (P.start (.pauseWallet reason n)) = none)
    (hPhase : shs[tid]? = some ⟨root, some g⟩)
    (hHands : Hands f g op r g')
    (hExec : State.exec op env s = some (r, s'))
    (hSeen : id ∈ s.seenIds)
    (hNot : id ∉ holdersBy f s shs) :
    id ∉ holdersBy f s' (Pumpy.afterOp P shs tid root g' op) := by
  intro hMem
  rcases holdersBy_op (P := P) hPausing hPhase hHands hExec with
    ⟨_, gone, hPerm⟩ | ⟨id', hNew, _, hPerm⟩
  · exact hNot (hPerm.mem_iff.mpr (List.mem_append_right _ hMem))
  · rcases List.mem_cons.mp (hPerm.mem_iff.mp hMem) with rfl | hOld
    · exact hNew hSeen
    · exact hNot hOld

/- Of the tasks an outside event starts, a pass holds its order. -/
theorem held_ext_roots
    (hStart : ∀ root, f (P.start root) = root.carried)
    (e : Ext) :
    Protocol.held f (e.roots.map P.startShadow) =
      e.roots.filterMap Root.carried := by
  cases e <;> simp [Protocol.held, Protocol.startShadow, Ext.roots,
    hStart, Root.carried]

/- Outside, orders only move from the channel to a pass, or vanish. -/
theorem holdersBy_ext
    (om : OrderManager)
    (shs : List (Shadow Root G))
    (hStart : ∀ root, f (P.start root) = root.carried)
    (hExt : Ext.exec e s = some s') :
    ∃ gone, (holdersBy f s shs).Perm
      (gone ++ holdersBy f s' (afterExt om P shs e)) := by
  by_cases hRestart : e = .restart
  · subst hRestart
    cases hExt
    refine ⟨holdersBy f s shs, .of_eq ?_⟩
    simp [holdersBy, State.boot, held_afterExt_restart]
  · unfold holdersBy
    rw [afterExt_of_ne_restart _ _ _ hRestart,
      Protocol.held_append, held_ext_roots hStart]
    cases e with
    | recv o =>
        rcases exec_recv hExt with ⟨hQueue, _⟩
        refine ⟨[], ?_⟩
        rw [hQueue, List.map_cons, List.nil_append,
          ← List.append_assoc]
        exact (List.perm_append_singleton _ _).symm
    | submitOrder o | cancelOrder id | setStatus st =>
        cases hExt
        exact ⟨[], .of_eq (by simp [Ext.roots, Root.carried])⟩
    | land tx =>
        have hSame : s'.chan.queue = s.chan.queue :=
          queue_ext (by simp) (by simp) hRestart hExt
        exact ⟨[], .of_eq (by simp [Ext.roots, hSame])⟩
    | closeChannel =>
        cases hExt
        refine ⟨s.chan.queue.map Order.id, .of_eq ?_⟩
        simp [Ext.roots]
    | restart => exact absurd rfl hRestart

theorem not_holdersBy_ext
    {id : OrderId}
    (om : OrderManager)
    (hStart : ∀ root, f (P.start root) = root.carried)
    (hExt : Ext.exec e s = some s')
    (hNot : id ∉ holdersBy f s shs) :
    id ∉ holdersBy f s' (Pumpy.afterExt om P shs e) := by
  intro hMem
  rcases holdersBy_ext om shs hStart hExt with ⟨gone, hPerm⟩
  exact hNot (hPerm.mem_iff.mpr (List.mem_append_right _ hMem))

theorem OwnedBy.afterExt
    (hOwned : OwnedBy f s shs)
    (hStart : ∀ root, f (P.start root) = root.carried)
    (hExt : Ext.exec e s = some s') :
    OwnedBy f s' (Pumpy.afterExt om P shs e) := by
  rcases holdersBy_ext om shs hStart hExt with ⟨gone, hPerm⟩
  refine ⟨?_, fun id hMem => ?_⟩
  · have hAll := hPerm.nodup_iff.mp hOwned.nodup
    exact (List.nodup_append.mp hAll).2.1
  · exact seenIds_ext hExt id
      (hOwned.seen id
        (hPerm.mem_iff.mpr (List.mem_append_right _ hMem)))

/- If every move hands its identifier on, none has two holders. -/
theorem ownedBy_of_shadowRun
    {C : OmCond} {db : Database} {chain : Chain}
    {seenIds : List OrderId} {tr : List OmEvent}
    (hStart : ∀ root, f (P.start root) = root.carried)
    (hHands :
      ∀ g op (r : op.Resp) g', P.move g op r g' → Hands f g op r g')
    (hRun :
      P.ShadowRun om.machine C (State.boot db chain seenIds) tr s
        shs) :
    OwnedBy f s shs := by
  induction hRun with
  | nil => exact ⟨List.nodup_nil, fun id hMem => by cases hMem⟩
  | snoc hRun hCond hStep ih =>
      cases hStep with
      | op hPhase hMove hExec =>
          exact ih.afterOp (fun _ _ => hStart _) hPhase
            (hHands _ _ _ _ hMove) hExec
      | ext hExt => exact ih.afterExt hStart hExt

end Holders

end Pumpy
