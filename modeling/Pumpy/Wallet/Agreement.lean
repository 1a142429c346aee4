import Pumpy.Wallet.Writers

/-
  Agreement of the two status columns.  A transaction of the API
  writes both, so they part only by the engine's writers: where
  one of the two statements takes effect without the other, or
  where they reach the tables in another order than somebody
  else's.

  Key definitions include:
    * `Agree`
    * `Quiescent`
    * `registryWriter`
    * `StillToCome`
    * `InOrder`

  The main results are `agree_of_inOrder` and `not_agree`.
-/

namespace Pumpy

open Interleaving

------------------------------------------------------------
-- What is promised
------------------------------------------------------------

/- The columns agree for every wallet that has both rows. -/
def Agree (t : WalletTables) : Prop :=
  ∀ id rs cs,
    t.registry id = some rs → t.configStatus id = some cs → rs = cs

/- No writer is at work. -/
def Quiescent (c : WalletSystem) : Prop :=
  ∀ task ∈ c.tasks, ∃ r, task.prog = some (.done r)

------------------------------------------------------------
-- The order of the writes
------------------------------------------------------------

/- The status an event writes to the wallet's row of the registry. -/
def registryWrite? (id : String) : WalletEvent → Option WalletStatus
  | .op _ (.setStatus id' st) out _ =>
      if id' = id ∧ out.stmt.applies = true then some st else none
  | .op _ (.putConfig id' u) out _ =>
      if id' = id ∧ out.stmt.applies = true then u.status else none
  | .op _ (.updateRegistryStatus id' st) out _ =>
      if id' = id ∧ out.stmt.applies = true then some st else none
  | _ => none

/- The last write to the wallet's row of the registry, and its writer. -/
def registryWriter
    (tr : List WalletEvent)
    (id : String) : Option (Nat × WalletStatus) :=
  (tr.filterMap fun e =>
    match e with
    | .op tid _ _ _ => (registryWrite? id e).map fun st => (tid, st)
    | .ext _ => none).getLast?

/- The engine's writer has still to write the other table. -/
def StillToCome (tr : List WalletEvent) (tid : Nat) : Prop :=
  (∃ id st out r,
    .op tid (.updateRegistryStatus id st) out r ∈ tr) ∧
    ∀ id st out r,
      .op tid (.updateConfigStatus id st) out r ∉ tr

/-
  A statement of the engine that writes `wallet_config` takes
  effect exactly if the writer's one for the registry did, and
  the last write to the wallet's row of the registry is the
  writer's own or that of an engine's writer whose statement for
  `wallet_config` is still to come.
-/
def InOrder : WalletCond :=
  fun tr _ e =>
    ∀ tid id st out r,
      e = .op tid (.updateConfigStatus id st) out r →
        (out.stmt.applies = true ↔
          ∃ out' r',
            .op tid (.updateRegistryStatus id st) out' r' ∈ tr ∧
              out'.stmt.applies = true) ∧
        (out.stmt.applies = true →
          ∃ writer st',
            registryWriter tr id = some (writer, st') ∧
              (writer = tid ∨ StillToCome tr writer))

section Order

variable {tr : List WalletEvent} {e : WalletEvent}
variable {id : String} {tid : Nat} {st : WalletStatus}

theorem registryWriter_append_of_none
    (hNone : registryWrite? id e = none) :
    registryWriter (tr ++ [e]) id = registryWriter tr id := by
  unfold registryWriter
  cases e with
  | op tid op out r => simp [hNone]
  | ext task => simp

theorem registryWriter_append_of_some
    {op : WalletOp}
    {out : WalletOutcome}
    {r : op.Resp}
    (hSome : registryWrite? id (.op tid op out r) = some st) :
    registryWriter (tr ++ [.op tid op out r]) id = some (tid, st) := by
  unfold registryWriter
  simp [hSome]

/- The last write is in the trace. -/
theorem exists_event_of_registryWriter
    (hWriter : registryWriter tr id = some (tid, st)) :
    ∃ op out r,
      .op tid op out r ∈ tr ∧
        registryWrite? id (.op tid op out r) = some st := by
  unfold registryWriter at hWriter
  have hMem := List.mem_of_getLast? hWriter
  rcases List.mem_filterMap.mp hMem with ⟨e, hIn, hEvent⟩
  cases e with
  | op tid' op out r =>
    rcases Option.map_eq_some_iff.mp hEvent with ⟨st', hWrite, hSame⟩
    cases hSame
    exact ⟨op, out, r, hIn, hWrite⟩
  | ext task => cases hEvent

/- Another event leaves a writer's statement to come. -/
theorem StillToCome.append
    (hToCome : StillToCome tr tid)
    (hOther :
      ∀ id st out r, e ≠ .op tid (.updateConfigStatus id st) out r) :
    StillToCome (tr ++ [e]) tid := by
  rcases hToCome with ⟨⟨id, st, out, r, hMem⟩, hNone⟩
  refine ⟨⟨id, st, out, r, List.mem_append_left _ hMem⟩, ?_⟩
  intro id st out r hIn
  rcases List.mem_append.mp hIn with hOld | hNew
  · exact hNone id st out r hOld
  · exact hOther id st out r (List.mem_singleton.mp hNew).symm

end Order

------------------------------------------------------------
-- The engine's writers
------------------------------------------------------------

/- What an engine's writer writes, and where. -/
def WalletTask.engineWrite : WalletTask → Option (String × WalletStatus)
  | pauseWallet id _ => some (id, .paused)
  | haltWallet id => some (id, .halted)
  | _ => none

/- One of the two statements an engine's writer writes a status by. -/
def WalletOp.isHalf : WalletOp → Bool
  | updateRegistryStatus _ _ => true
  | updateConfigStatus _ _ => true
  | _ => false

/- How far an engine's writer has come. -/
inductive Stage (id : String) (st : WalletStatus) :
    List (Prog.Call WalletOp WalletOp.Resp) →
      WalletProg (Option ApiReply) → Prop
  | first
      {k : _ → WalletProg (Option ApiReply)} :
      Stage id st [] (.act (.updateRegistryStatus id st) k)
  | second
      {r : Except DbError Unit}
      {k : _ → WalletProg (Option ApiReply)} :
      Stage id st [⟨.updateRegistryStatus id st, r⟩]
        (.act (.updateConfigStatus id st) k)
  | written
      {r r' : Except DbError Unit}
      {rest : List (Prog.Call WalletOp WalletOp.Resp)}
      {p : WalletProg (Option ApiReply)}
      (hRest : ∀ call ∈ rest, call.1.isHalf = false)
      (hLater : p.Always fun op => op.isHalf = false) :
      Stage id st
        (⟨.updateRegistryStatus id st, r⟩ ::
          ⟨.updateConfigStatus id st, r'⟩ :: rest)
        p

section Writers

variable {task : WalletTask}
variable {h : List (Prog.Call WalletOp WalletOp.Resp)}
variable {p : WalletProg (Option ApiReply)}
variable {id : String} {st : WalletStatus}

/- A route writes both tables by one operation. -/
theorem always_statusRoute
    {failed : String} :
    (statusRoute id st failed).Always fun op => op.isHalf = false := by
  refine Prog.always_act rfl fun r => ?_
  cases r with
  | ok _ => exact Prog.always_done _
  | error _ => exact Prog.always_done _

theorem always_route
    (hRoute : task.engineWrite = none) :
    task.body.Always fun op => op.isHalf = false := by
  cases task with
  | pause id =>
    exact Prog.Always.bind always_statusRoute
      fun _ _ => Prog.always_done _
  | resume id =>
    exact Prog.Always.bind always_statusRoute
      fun _ _ => Prog.always_done _
  | halt id confirm =>
    refine Prog.Always.bind ?_ fun _ _ => Prog.always_done _
    unfold haltRoute
    split
    · exact always_statusRoute
    · exact Prog.always_done _
  | putConfig id body =>
    refine Prog.Always.bind ?_ fun _ _ => Prog.always_done _
    unfold putConfigRoute
    split
    · exact Prog.always_done _
    · refine Prog.always_act rfl fun r => ?_
      split <;> exact Prog.always_done _
  | pauseWallet id rejectCount => cases hRoute
  | haltWallet id => cases hRoute

theorem stage_of_two
    {q : WalletProg (Option ApiReply)}
    (hLater : q.Always fun op => op.isHalf = false)
    (hAfter :
      Prog.After
        (.act (.updateRegistryStatus id st) fun _ =>
          .act (.updateConfigStatus id st) fun _ => q)
        h p) :
    Stage id st h p := by
  rcases hAfter.act_inv with ⟨rfl, rfl⟩ | ⟨r, h', rfl, hSecond⟩
  · exact .first
  · rcases hSecond.act_inv with ⟨rfl, rfl⟩ | ⟨r', rest, rfl, hRest⟩
    · exact .second
    · exact .written (hLater.after hRest).1 (hLater.after hRest).2

/- An engine's writer goes through its stages. -/
theorem stage_of_after
    (hEngine : task.engineWrite = some (id, st))
    (hAfter : task.body.After h p) :
    Stage id st h p := by
  cases task with
  | pauseWallet id' rejectCount =>
    cases hEngine
    refine stage_of_two ?_ hAfter
    exact Prog.always_act rfl fun _ => Prog.always_done _
  | haltWallet id' =>
    cases hEngine
    exact stage_of_two (Prog.always_done _) hAfter
  | pause id' => cases hEngine
  | resume id' => cases hEngine
  | halt id' confirm => cases hEngine
  | putConfig id' body => cases hEngine

/- Where a statement of a pair was called, the task is the engine's. -/
theorem engineWrite_of_half
    {call : Prog.Call WalletOp WalletOp.Resp}
    (hAfter : task.body.After h p)
    (hMem : call ∈ h)
    (hHalf : call.1.isHalf = true) :
    ∃ id st, task.engineWrite = some (id, st) ∧ Stage id st h p := by
  cases hEngine : task.engineWrite with
  | none =>
    have hNot := ((always_route hEngine).after hAfter).1 call hMem
    rw [hHalf] at hNot
    cases hNot
  | some w => exact ⟨w.1, w.2, rfl, stage_of_after hEngine hAfter⟩

/- The same for the statement that is next. -/
theorem stage_of_next
    {op : WalletOp}
    {k : op.Resp → WalletProg (Option ApiReply)}
    (hAfter : task.body.After h (.act op k))
    (hHalf : op.isHalf = true) :
    ∃ id st,
      task.engineWrite = some (id, st) ∧ Stage id st h (.act op k) := by
  cases hEngine : task.engineWrite with
  | none =>
    have hNot : op.isHalf = false :=
      ((always_route hEngine).after hAfter).2 op (.inl rfl)
    rw [hHalf] at hNot
    cases hNot
  | some w => exact ⟨w.1, w.2, rfl, stage_of_after hEngine hAfter⟩

end Writers

------------------------------------------------------------
-- What an operation writes
------------------------------------------------------------

/- The status an event writes to the wallet's row of the other table. -/
def configWrite? (id : String) : WalletEvent → Option WalletStatus
  | .op _ (.setStatus id' st) out _ =>
      if id' = id ∧ out.stmt.applies = true then some st else none
  | .op _ (.putConfig id' u) out _ =>
      if id' = id ∧ out.stmt.applies = true then u.status else none
  | .op _ (.updateConfigStatus id' st) out _ =>
      if id' = id ∧ out.stmt.applies = true then some st else none
  | _ => none

section Tables

variable {t t' : WalletTables} {id id' : String} {st : WalletStatus}
variable {u : ConfigUpdate} {now : Timestamp}

theorem registry_updateRegistry :
    (t.updateRegistry id st).registry id' =
      if id = id' then (t.registry id').map fun _ => st
      else t.registry id' := by
  unfold WalletTables.updateRegistry
  by_cases hSame : id' = id
  · subst hSame
    simp
  · simp [hSame, Ne.symm hSame]

@[simp] theorem configStatus_updateRegistry :
    (t.updateRegistry id st).configStatus id' = t.configStatus id' :=
  rfl

@[simp] theorem registry_updateConfig :
    (t.updateConfig id u now).registry id' = t.registry id' :=
  rfl

theorem configStatus_updateConfig :
    (t.updateConfig id u now).configStatus id' =
      if id = id' then (t.configStatus id').map (u.status.getD ·)
      else t.configStatus id' := by
  unfold WalletTables.updateConfig WalletTables.configStatus
  by_cases hSame : id' = id
  · subst hSame
    simp [Function.comp_def, ConfigUpdate.apply]
  · simp [hSame, Ne.symm hSame]

theorem configStatus_putConfig :
    (t.putConfig id u now).configStatus id' =
      if id = id' then (t.configStatus id').map (u.status.getD ·)
      else t.configStatus id' := by
  unfold WalletTables.putConfig
  split
  · rename_i hNone
    split
    · rename_i hSame
      subst hSame
      simp [WalletTables.configStatus, hNone]
    · rfl
  · exact configStatus_updateConfig
  · rw [configStatus_updateRegistry]
    exact configStatus_updateConfig

theorem registry_putConfig
    (hRow : t.configStatus id' ≠ none) :
    (t.putConfig id u now).registry id' =
      if id = id' then (t.registry id').map (u.status.getD ·)
      else t.registry id' := by
  unfold WalletTables.putConfig
  split
  · rename_i hNone
    split
    · rename_i hSame
      subst hSame
      exact absurd (by simp [WalletTables.configStatus, hNone]) hRow
    · rfl
  · rename_i hStatus
    simp [hStatus]
  · rename_i st hStatus
    rw [registry_updateRegistry, hStatus]
    rfl

/- The second table after an operation. -/
theorem configStatus_exec
    (tid : Nat)
    {op : WalletOp}
    {out : WalletOutcome}
    {r : op.Resp}
    (hExec : t.exec op out = some (r, t')) :
    t'.configStatus id =
      (t.configStatus id).map
        ((configWrite? id (.op tid op out r)).getD ·) := by
  have hTables :
      t' = if out.stmt.applies then t.apply out.now op else t :=
    (Prod.mk.inj (Option.some.inj hExec)).2.symm
  rw [hTables]
  cases hApplies : out.stmt.applies with
  | false => cases op <;> simp [configWrite?, hApplies]
  | true =>
    cases op with
    | setStatus id' st =>
      simp only [if_true, WalletTables.apply, WalletTables.setStatus,
        configStatus_updateConfig, configStatus_updateRegistry,
        configWrite?, hApplies, and_true]
      split <;> simp [ConfigUpdate.ofStatus]
    | putConfig id' u =>
      simp only [if_true, WalletTables.apply, configStatus_putConfig,
        configWrite?, hApplies, and_true]
      split <;> simp
    | updateRegistryStatus id' st =>
      simp [WalletTables.apply, configWrite?]
    | updateConfigStatus id' st =>
      simp only [if_true, WalletTables.apply,
        configStatus_updateConfig, configWrite?, hApplies, and_true]
      split <;> simp [ConfigUpdate.ofStatus]
    | upsertWalletAlert id' count =>
      simp [WalletTables.apply, WalletTables.upsertAlert,
        WalletTables.configStatus, configWrite?, Function.comp_def]

/- The registry after an operation, where the second row exists. -/
theorem registry_exec
    (tid : Nat)
    {op : WalletOp}
    {out : WalletOutcome}
    {r : op.Resp}
    (hRow : t.configStatus id ≠ none)
    (hExec : t.exec op out = some (r, t')) :
    t'.registry id =
      (t.registry id).map
        ((registryWrite? id (.op tid op out r)).getD ·) := by
  have hTables :
      t' = if out.stmt.applies then t.apply out.now op else t :=
    (Prod.mk.inj (Option.some.inj hExec)).2.symm
  rw [hTables]
  cases hApplies : out.stmt.applies with
  | false => cases op <;> simp [registryWrite?, hApplies]
  | true =>
    cases op with
    | setStatus id' st =>
      simp only [if_true, WalletTables.apply, WalletTables.setStatus,
        registry_updateConfig, registry_updateRegistry,
        registryWrite?, hApplies, and_true]
      split <;> simp
    | putConfig id' u =>
      simp only [if_true, WalletTables.apply, registry_putConfig hRow,
        registryWrite?, hApplies, and_true]
      split <;> simp
    | updateRegistryStatus id' st =>
      simp only [if_true, WalletTables.apply, registry_updateRegistry,
        registryWrite?, hApplies, and_true]
      split <;> simp
    | updateConfigStatus id' st =>
      simp [WalletTables.apply, registryWrite?]
    | upsertWalletAlert id' count =>
      simp [WalletTables.apply, WalletTables.upsertAlert,
        registryWrite?]

end Tables

------------------------------------------------------------
-- The columns along a run
------------------------------------------------------------

/-
  The row of the registry is as its last writer left it, and the
  columns part only while that writer has a statement to come.
-/
structure Ordered (tr : List WalletEvent) (t : WalletTables) : Prop where
  last :
    ∀ id tid st rs,
      registryWriter tr id = some (tid, st) →
        t.configStatus id ≠ none → t.registry id = some rs → rs = st
  parted :
    ∀ id rs cs,
      t.registry id = some rs → t.configStatus id = some cs →
        rs = cs ∨
          ∃ tid st,
            registryWriter tr id = some (tid, st) ∧ StillToCome tr tid

section Runs

variable {C : WalletCond} {s₀ : WalletTables}
variable {tr : List WalletEvent} {c : WalletSystem}
variable {t t' : WalletTables} {tid : Nat} {task : WalletTask}

/- The calls of a writer lead from its code to what is left of it. -/
theorem after_of_task
    {p : WalletProg (Option ApiReply)}
    (hRun : walletMachine.Run C s₀ tr c)
    (hTask : c.tasks[tid]? = some ⟨task, some p⟩) :
    task.body.After (Machine.calls tr tid) p :=
  hRun.after_calls hTask

/- A statement for the registry is the first its writer calls. -/
theorem calls_of_updateRegistry
    {id : String}
    {st : WalletStatus}
    {k : _ → WalletProg (Option ApiReply)}
    (hRun : walletMachine.Run C s₀ tr c)
    (hTask :
      c.tasks[tid]? =
        some ⟨task, some (.act (.updateRegistryStatus id st) k)⟩) :
    Machine.calls tr tid = [] := by
  have hAfter := after_of_task hRun hTask
  rcases stage_of_next hAfter rfl with ⟨id', st', _, hStage⟩
  generalize Machine.calls tr tid = h at hStage ⊢
  cases hStage with
  | first => rfl
  | written _ hLater => cases hLater _ (.inl rfl)

/- The one for the other table comes right after it. -/
theorem calls_of_updateConfig
    {id : String}
    {st : WalletStatus}
    {k : _ → WalletProg (Option ApiReply)}
    (hRun : walletMachine.Run C s₀ tr c)
    (hTask :
      c.tasks[tid]? =
        some ⟨task, some (.act (.updateConfigStatus id st) k)⟩) :
    ∃ r, Machine.calls tr tid = [⟨.updateRegistryStatus id st, r⟩] := by
  have hAfter := after_of_task hRun hTask
  rcases stage_of_next hAfter rfl with ⟨id', st', _, hStage⟩
  generalize Machine.calls tr tid = h at hStage ⊢
  cases hStage with
  | second => exact ⟨_, rfl⟩
  | written _ hLater => cases hLater _ (.inl rfl)

/- An event that writes both tables alike, or none. -/
theorem Ordered.step_both
    {op : WalletOp}
    {out : WalletOutcome}
    {r : op.Resp}
    (hOrdered : Ordered tr t)
    (hExec : t.exec op out = some (r, t'))
    (hAlike :
      ∀ id,
        registryWrite? id (.op tid op out r) =
          configWrite? id (.op tid op out r))
    (hOther : ∀ id st, op ≠ .updateConfigStatus id st) :
    ∀ id rs cs,
      t'.registry id = some rs → t'.configStatus id = some cs →
        rs = cs ∨
          ∃ tid' st,
            registryWriter (tr ++ [.op tid op out r]) id =
                some (tid', st) ∧
              StillToCome (tr ++ [.op tid op out r]) tid' := by
  intro id rs cs hRs hCs
  rw [configStatus_exec tid hExec] at hCs
  rcases Option.map_eq_some_iff.mp hCs with ⟨cs₀, hCs₀, rfl⟩
  rw [registry_exec tid (by simp [hCs₀]) hExec] at hRs
  rcases Option.map_eq_some_iff.mp hRs with ⟨rs₀, hRs₀, rfl⟩
  rw [← hAlike]
  cases hWrite : registryWrite? id (.op tid op out r) with
  | some st => exact .inl rfl
  | none =>
    rcases hOrdered.parted id rs₀ cs₀ hRs₀ hCs₀ with
      hEq | ⟨tid', st, hWriter, hToCome⟩
    · exact .inl hEq
    · right
      refine ⟨tid', st, ?_, hToCome.append ?_⟩
      · rw [registryWriter_append_of_none hWrite]
        exact hWriter
      · rintro id' st' out' r' hEq
        cases hEq
        exact hOther id' st' rfl

/- The row of the registry stays as its last writer left it. -/
theorem Ordered.step_last
    {op : WalletOp}
    {out : WalletOutcome}
    {r : op.Resp}
    (hOrdered : Ordered tr t)
    (hExec : t.exec op out = some (r, t')) :
    ∀ id tid' st rs,
      registryWriter (tr ++ [.op tid op out r]) id = some (tid', st) →
        t'.configStatus id ≠ none → t'.registry id = some rs →
          rs = st := by
  intro id tid' st rs hWriter hRow hRs
  rw [configStatus_exec tid hExec] at hRow
  have hRow₀ : t.configStatus id ≠ none := by
    intro hNone
    rw [hNone] at hRow
    exact hRow rfl
  rw [registry_exec tid hRow₀ hExec] at hRs
  rcases Option.map_eq_some_iff.mp hRs with ⟨rs₀, hRs₀, rfl⟩
  cases hWrite : registryWrite? id (.op tid op out r) with
  | some st₀ =>
    rw [registryWriter_append_of_some hWrite] at hWriter
    cases hWriter
    rfl
  | none =>
    rw [registryWriter_append_of_none hWrite] at hWriter
    exact hOrdered.last id tid' st rs₀ hWriter hRow₀ hRs₀

/- The engine writes the registry: its other statement is to come. -/
theorem Ordered.step_updateRegistry
    {id₀ : String}
    {st₀ : WalletStatus}
    {out : WalletOutcome}
    {r : Except DbError Unit}
    (hOrdered : Ordered tr t)
    (hFirst : Machine.calls tr tid = [])
    (hExec :
      t.exec (.updateRegistryStatus id₀ st₀) out = some (r, t')) :
    ∀ id rs cs,
      t'.registry id = some rs → t'.configStatus id = some cs →
        rs = cs ∨
          ∃ tid' st,
            registryWriter
                (tr ++ [.op tid (.updateRegistryStatus id₀ st₀) out r])
                id =
                some (tid', st) ∧
              StillToCome
                (tr ++ [.op tid (.updateRegistryStatus id₀ st₀) out r])
                tid' := by
  intro id rs cs hRs hCs
  rw [configStatus_exec tid hExec] at hCs
  rcases Option.map_eq_some_iff.mp hCs with ⟨cs₀, hCs₀, rfl⟩
  rw [registry_exec tid (by simp [hCs₀]) hExec] at hRs
  rcases Option.map_eq_some_iff.mp hRs with ⟨rs₀, hRs₀, rfl⟩
  cases hWrite :
      registryWrite? id
        (.op tid (.updateRegistryStatus id₀ st₀) out r) with
  | some st =>
    refine .inr ⟨tid, st, registryWriter_append_of_some hWrite,
      ⟨id₀, st₀, out, r, List.mem_append_right _ List.mem_cons_self⟩,
      fun id' st' out' r' hMem => ?_⟩
    rcases List.mem_append.mp hMem with hOld | hNew
    · have hCall :
          (⟨.updateConfigStatus id' st', r'⟩ :
              Prog.Call WalletOp WalletOp.Resp) ∈
            Machine.calls tr tid :=
        Machine.mem_calls.mpr ⟨out', hOld⟩
      rw [hFirst] at hCall
      cases hCall
    · cases List.mem_singleton.mp hNew
  | none =>
    rcases hOrdered.parted id rs₀ cs₀ hRs₀ hCs₀ with
      hEq | ⟨tid', st, hWriter, hToCome⟩
    · exact .inl hEq
    · refine .inr ⟨tid', st, ?_, hToCome.append fun _ _ _ _ => (nomatch ·)⟩
      rw [registryWriter_append_of_none hWrite]
      exact hWriter

/- A writer that has called this one statement has written by it. -/
theorem write_of_registryWriter
    {id id₀ : String}
    {st st₀ : WalletStatus}
    {r : Except DbError Unit}
    (hCalls :
      Machine.calls tr tid = [⟨.updateRegistryStatus id₀ st₀, r⟩])
    (hWriter : registryWriter tr id = some (tid, st)) :
    id₀ = id ∧ st₀ = st ∧
      ∃ out r',
        .op tid (.updateRegistryStatus id₀ st₀) out r' ∈ tr ∧
          out.stmt.applies = true := by
  rcases exists_event_of_registryWriter hWriter with
    ⟨op, out, r', hMem, hWrite⟩
  have hCall :
      (⟨op, r'⟩ : Prog.Call WalletOp WalletOp.Resp) ∈
        Machine.calls tr tid :=
    Machine.mem_calls.mpr ⟨out, hMem⟩
  rw [hCalls] at hCall
  cases List.mem_singleton.mp hCall
  simp only [registryWrite?] at hWrite
  split at hWrite
  · rename_i hBoth
    cases hWrite
    exact ⟨hBoth.1, rfl, out, r, hMem, hBoth.2⟩
  · cases hWrite

/- The engine writes the other table, in order. -/
theorem Ordered.step_updateConfig
    {id₀ : String}
    {st₀ : WalletStatus}
    {out : WalletOutcome}
    {r r₀ : Except DbError Unit}
    (hOrdered : Ordered tr t)
    (hCalls :
      Machine.calls tr tid = [⟨.updateRegistryStatus id₀ st₀, r₀⟩])
    (hInOrder :
      InOrder tr t (.op tid (.updateConfigStatus id₀ st₀) out r))
    (hExec :
      t.exec (.updateConfigStatus id₀ st₀) out = some (r, t')) :
    ∀ id rs cs,
      t'.registry id = some rs → t'.configStatus id = some cs →
        rs = cs ∨
          ∃ tid' st,
            registryWriter
                (tr ++ [.op tid (.updateConfigStatus id₀ st₀) out r])
                id =
                some (tid', st) ∧
              StillToCome
                (tr ++ [.op tid (.updateConfigStatus id₀ st₀) out r])
                tid' := by
  intro id rs cs hRs hCs
  rcases hInOrder tid id₀ st₀ out r rfl with ⟨hBoth, hLast⟩
  rw [configStatus_exec tid hExec] at hCs
  rcases Option.map_eq_some_iff.mp hCs with ⟨cs₀, hCs₀, rfl⟩
  have hRow : t.configStatus id ≠ none := by simp [hCs₀]
  rw [registry_exec tid hRow hExec] at hRs
  rcases Option.map_eq_some_iff.mp hRs with ⟨rs₀, hRs₀, rfl⟩
  have hKept :
      ∀ tid' st,
        tid' ≠ tid → registryWriter tr id = some (tid', st) →
          StillToCome tr tid' →
            registryWriter
                (tr ++ [.op tid (.updateConfigStatus id₀ st₀) out r])
                id =
                some (tid', st) ∧
              StillToCome
                (tr ++ [.op tid (.updateConfigStatus id₀ st₀) out r])
                tid' := by
    intro tid' st hNe hWriter hToCome
    refine ⟨?_, hToCome.append ?_⟩
    · rw [registryWriter_append_of_none rfl]
      exact hWriter
    · rintro id' st' out' r' hEq
      cases hEq
      exact hNe rfl
  by_cases hHere : id₀ = id ∧ out.stmt.applies = true
  · rcases hHere with ⟨rfl, hApplies⟩
    rcases hLast hApplies with ⟨writer, st, hWriter, hWho⟩
    by_cases hOwn : writer = tid
    · subst hOwn
      have hSt := hOrdered.last id₀ writer st rs₀ hWriter hRow hRs₀
      have hOurs := write_of_registryWriter hCalls hWriter
      left
      simp [registryWrite?, configWrite?, hApplies, hSt, hOurs.2.1]
    · exact .inr ⟨writer, st,
        hKept writer st hOwn hWriter (hWho.resolve_left hOwn)⟩
  · have hSame :
        (configWrite? id
            (.op tid (.updateConfigStatus id₀ st₀) out r)).getD cs₀ =
          cs₀ := by
      simp [configWrite?, hHere]
    rw [hSame]
    rcases hOrdered.parted id rs₀ cs₀ hRs₀ hCs₀ with
      hEq | ⟨tid', st, hWriter, hToCome⟩
    · exact .inl hEq
    · right
      refine ⟨tid', st, hKept tid' st ?_ hWriter hToCome⟩
      rintro rfl
      rcases write_of_registryWriter hCalls hWriter with
        ⟨hId, rfl, out', r', hMem, hDone⟩
      exact hHere ⟨hId, hBoth.mpr ⟨out', r', hMem, hDone⟩⟩

/- In order, the columns are ordered all along a run. -/
theorem ordered_of_run
    (hAgree : Agree s₀)
    (hRun : walletMachine.Run InOrder s₀ tr c) :
    Ordered tr c.state := by
  induction hRun with
  | nil =>
    exact {
      last := fun id tid st rs hWriter => by cases hWriter
      parted := fun id rs cs hRs hCs => .inl (hAgree id rs cs hRs hCs) }
  | @snoc tr c c' e hBefore hCond hStep ih =>
    cases hStep with
    | @op s s' tasks tid root op k out r hTask hExec =>
      refine ⟨ih.step_last hExec, ?_⟩
      cases op with
      | setStatus id st =>
        exact ih.step_both hExec (fun _ => rfl) fun _ _ => (nomatch ·)
      | putConfig id u =>
        exact ih.step_both hExec (fun _ => rfl) fun _ _ => (nomatch ·)
      | upsertWalletAlert id count =>
        exact ih.step_both hExec (fun _ => rfl) fun _ _ => (nomatch ·)
      | updateRegistryStatus id st =>
        exact ih.step_updateRegistry
          (calls_of_updateRegistry hBefore hTask) hExec
      | updateConfigStatus id st =>
        rcases calls_of_updateConfig hBefore hTask with ⟨r₀, hCalls⟩
        exact ih.step_updateConfig hCalls hCond hExec
    | @ext s s' tasks task hExt =>
      cases hExt
      have hNone :
          ∀ id,
            registryWriter (tr ++ [.ext task]) id =
              registryWriter tr id :=
        fun id => registryWriter_append_of_none rfl
      refine ⟨fun id tid st rs hWriter => ?_, fun id rs cs hRs hCs => ?_⟩
      · rw [hNone] at hWriter
        exact ih.last id tid st rs hWriter
      · rw [hNone]
        rcases ih.parted id rs cs hRs hCs with
          hEq | ⟨tid, st, hWriter, hToCome⟩
        · exact .inl hEq
        · exact .inr ⟨tid, st, hWriter,
            hToCome.append fun _ _ _ _ => (nomatch ·)⟩

/- A writer with a statement to come is at work. -/
theorem not_quiescent_of_stillToCome
    (hRun : walletMachine.Run C s₀ tr c)
    (hToCome : StillToCome tr tid) :
    ¬Quiescent c := by
  intro hQuiet
  rcases hToCome with ⟨⟨id, st, out, r, hMem⟩, hNone⟩
  have hCall :
      (⟨.updateRegistryStatus id st, r⟩ :
          Prog.Call WalletOp WalletOp.Resp) ∈
        Machine.calls tr tid :=
    Machine.mem_calls.mpr ⟨out, hMem⟩
  have hLt : tid < c.tasks.length := by
    by_contra hGe
    rw [hRun.calls_eq_nil (Nat.le_of_not_lt hGe)] at hCall
    cases hCall
  have hAt := List.getElem?_eq_getElem hLt
  rcases hQuiet _ (List.getElem_mem hLt) with ⟨ret, hDone⟩
  generalize c.tasks[tid] = entry at hAt hDone
  rcases entry with ⟨task, prog⟩
  cases hDone
  have hAfter := after_of_task hRun hAt
  rcases engineWrite_of_half hAfter hCall rfl with ⟨id', st', _, hStage⟩
  have hConfig :
      ∀ r', (⟨.updateConfigStatus id' st', r'⟩ :
          Prog.Call WalletOp WalletOp.Resp) ∉
        Machine.calls tr tid := by
    intro r' hIn
    rcases Machine.mem_calls.mp hIn with ⟨out', hEvent⟩
    exact hNone id' st' out' r' hEvent
  generalize Machine.calls tr tid = h at hStage hConfig
  cases hStage with
  | written _ _ =>
    exact hConfig _ (List.mem_cons_of_mem _ List.mem_cons_self)

end Runs

/-
  Where the engine's two statements of a writer both take effect
  or both do not, and nobody else's write to the registry comes
  between them that is not followed by its own, the columns
  agree whenever no writer is at work.
-/
theorem agree_of_inOrder
    {s₀ : WalletTables}
    {tr : List WalletEvent}
    {c : WalletSystem}
    (hAgree : Agree s₀)
    (hRun : walletMachine.Run InOrder s₀ tr c)
    (hQuiet : Quiescent c) :
    Agree c.state := by
  intro id rs cs hRs hCs
  rcases (ordered_of_run hAgree hRun).parted id rs cs hRs hCs with
    hEq | ⟨tid, st, _, hToCome⟩
  · exact hEq
  · exact absurd hQuiet (not_quiescent_of_stillToCome hRun hToCome)

------------------------------------------------------------
-- Runs
------------------------------------------------------------

/- One wallet, whose two rows say the same. -/
def sampleTables (st : WalletStatus) : WalletTables where
  registry := fun id => if id = "wallet_001" then some st else none
  config := fun id =>
    if id = "wallet_001" then
      some
        { riskPerTradeSol := .fin (1 / 10)
          dailyLossLimitSol := .fin 1
          strategyPreset := .balanced
          status := st
          updatedAt := 0 }
    else
      none
  alerts := fun _ => none

theorem agree_sampleTables
    (st : WalletStatus) :
    Agree (sampleTables st) := by
  intro id rs cs hRs hCs
  unfold WalletTables.configStatus sampleTables at *
  dsimp only at hRs hCs
  split at hRs
  · rename_i hSame
    cases hRs
    rw [if_pos hSame] at hCs
    exact Option.some.inj hCs
  · cases hRs

/- A statement that succeeds. -/
def landed : WalletOutcome where
  stmt := .done
  now := 1

/- The engine halts a wallet undisturbed. -/
theorem agree_haltWallet :
    ∃ tr c,
      walletMachine.Run InOrder (sampleTables .enabled) tr c ∧
        Quiescent c ∧ c.state.registry "wallet_001" = some .halted ∧
          Agree c.state := by
  have hStart :
      walletMachine.Run InOrder (sampleTables .enabled)
        [.ext (.haltWallet "wallet_001")] _ :=
    .snoc .nil (fun _ _ _ _ _ => (nomatch ·)) (.ext rfl)
  have hFirst :
      walletMachine.Run InOrder (sampleTables .enabled)
        [.ext (.haltWallet "wallet_001"),
          .op 0 (.updateRegistryStatus "wallet_001" .halted) landed
            (.ok ())]
        _ :=
    .snoc hStart (fun _ _ _ _ _ => (nomatch ·)) (.op rfl rfl)
  have hInOrder :
      InOrder
        [.ext (.haltWallet "wallet_001"),
          .op 0 (.updateRegistryStatus "wallet_001" .halted) landed
            (.ok ())]
        ((sampleTables .enabled).updateRegistry "wallet_001" .halted)
        (.op 0 (.updateConfigStatus "wallet_001" .halted) landed
          (.ok ())) := by
    intro tid id st out r hEq
    cases hEq
    refine ⟨iff_of_true rfl ⟨landed, .ok (), ?_, rfl⟩,
      fun _ => ⟨0, .halted, rfl, .inl rfl⟩⟩
    exact List.mem_cons_of_mem _ List.mem_cons_self
  have hSecond :
      walletMachine.Run InOrder (sampleTables .enabled)
        [.ext (.haltWallet "wallet_001"),
          .op 0 (.updateRegistryStatus "wallet_001" .halted) landed
            (.ok ()),
          .op 0 (.updateConfigStatus "wallet_001" .halted) landed
            (.ok ())]
        _ :=
    .snoc hFirst hInOrder (.op rfl rfl)
  refine ⟨_, _, hSecond, ?_, rfl, ?_⟩
  · intro task hMem
    rw [List.mem_singleton.mp hMem]
    exact ⟨none, rfl⟩
  · refine agree_of_inOrder (agree_sampleTables _) hSecond ?_
    intro task hMem
    rw [List.mem_singleton.mp hMem]
    exact ⟨none, rfl⟩

/- No writer of the configuration is at work. -/
def atRest (c : WalletSystem) : Bool :=
  c.tasks.all fun task =>
    match task.prog with
    | some (.done _) => true
    | _ => false

theorem quiescent_of_atRest
    {c : WalletSystem}
    (hRest : atRest c = true) :
    Quiescent c := by
  intro task hMem
  have hTask := List.all_eq_true.mp hRest task hMem
  split at hTask
  · rename_i r hProg
    exact ⟨r, hProg⟩
  · cases hTask

/-
  An operator resumes a wallet between the two statements of the
  engine's halt.  Both succeed, and the columns stay apart.
-/
theorem not_agree :
    ∃ tr c,
      walletMachine.Run Machine.anyStep (sampleTables .paused) tr c ∧
        Quiescent c ∧ ¬Agree c.state := by
  rcases walletMachine.exists_run_of_play (sampleTables .paused)
      [.ext (.haltWallet "wallet_001"), .ext (.resume "wallet_001"),
        .task 0 landed, .task 1 landed, .task 0 landed]
      (fun _ c =>
        atRest c
          && c.state.registry "wallet_001" = some .enabled
          && c.state.configStatus "wallet_001" = some .halted)
      (by decide +kernel) with
    ⟨tr, c, hRun, hState⟩
  simp only [Bool.and_eq_true, decide_eq_true_eq] at hState
  rcases hState with ⟨⟨hRest, hRegistry⟩, hConfig⟩
  refine ⟨tr, c, hRun, quiescent_of_atRest hRest, fun hAgree => ?_⟩
  cases hAgree _ _ _ hRegistry hConfig

end Pumpy
