import Pumpy.Grpc.Reservation

/-
  Acknowledgements.  A handler that finds a placeholder or a
  row of its key without an order answers that the order is
  being processed, on the strength of the handler that placed
  it.  That handler may fail all the same.

  Key definitions include:
    * `Honoured`
    * `reliesOn`
    * `Fails`
    * `Reliable`
    * `Accounted`

  The main results are `honoured_of_reliable` and
  `not_honoured`.
-/

------------------------------------------------------------
-- What Is Promised
------------------------------------------------------------

namespace Pumpy

open Interleaving

/- Some handler of the key has answered with `success: true`. -/
def Succeeded (k : String) (c : GrpcConfig) : Prop :=
  ∃ task ∈ c.tasks,
    task.root.req.idempotencyKey = k ∧ GrpcTask.succeeded task = true

/- Every handler of the key has finished. -/
def Finished (k : String) (c : GrpcConfig) : Prop :=
  ∀ task ∈ c.tasks,
    task.root.req.idempotencyKey = k → GrpcTask.inFlight task = false

instance (k : String) (c : GrpcConfig) : Decidable (Succeeded k c) :=
  inferInstanceAs (Decidable (∃ task ∈ c.tasks, _ ∧ _))

instance (k : String) (c : GrpcConfig) : Decidable (Finished k c) :=
  inferInstanceAs (Decidable (∀ task ∈ c.tasks, _ → _))

/-
  If by now some handler of the key has answered with success,
  and all of them have finished, then an order was accepted.
-/
def Honoured
    (svc : BotService)
    (s₀ : GrpcState)
    (k : String)
    (tr : List GrpcEvent)
    (c : GrpcConfig) : Prop :=
  (∃ pre post c',
    tr = pre ++ post ∧
      Machine.Run svc.machine Machine.anyStep s₀ pre c' ∧
        Succeeded k c') →
    Finished k c → 0 < acceptances svc tr k

------------------------------------------------------------
-- Reliance and Failure
------------------------------------------------------------

/-
  The handler on the strength of whose placeholder or row the
  event tells another that its order is in hand.
-/
def reliesOn (k : String) (s : GrpcState) : GrpcEvent → Option Nat
  | .op _ (.cache p (.lookup ikey _)) _ (some orderId) =>
      if ikey = k ∧ orderId = "" then
        ((s.processes p).cache k).map IdempotencyEntry.placer
      else
        none
  | .op _ (.key (.check ikey)) _ (.ok (some orderId)) =>
      if ikey = k ∧ orderId = "" then
        (s.table k).map IdempotencyKeyRow.placer
      else
        none
  | .op _ (.key (.reserve ikey _)) _ (.ok false) =>
      if ikey = k then
        (s.table k).map IdempotencyKeyRow.placer
      else
        none
  | _ => none

/- What a handler has yet to do whose order may yet be accepted. -/
def GrpcOp.leadsToOrder : GrpcOp → Bool
  | key (.check _) => true
  | key (.reserve _ _) => true
  | utcNow => true
  | submitOrder _ _ => true
  | _ => false

/-
  Handler `n` fails: a statement of it does, its order is
  rejected, or it is dropped before its order is accepted.
-/
def Fails (c : GrpcConfig) (n : Nat) : GrpcEvent → Prop
  | .op tid (.key (.check _)) _ (.error _) => tid = n
  | .op tid (.key (.reserve _ _)) _ (.error _) => tid = n
  | .op tid (.submitOrder _ _) _ (.error _) => tid = n
  | .op _ _ _ _ => False
  | .ext ext =>
      ∃ root op cont,
        c.tasks[n]? = some ⟨root, some (.act op cont)⟩ ∧
          op.leadsToOrder = true ∧ ext.kills n root = true

section Ledger

variable (svc : BotService) (s₀ : GrpcState) (k : String)

/- Somebody was told to rely on handler `n`. -/
def ReliedOn (n : Nat) (tr : List GrpcEvent) : Prop :=
  Machine.Happened svc.machine s₀
    (fun c e => reliesOn k c.state e = some n) tr

/- Handler `n` has failed. -/
def HasFailed (n : Nat) (tr : List GrpcEvent) : Prop :=
  Machine.Happened svc.machine s₀ (fun c e => Fails c n e) tr

/-
  As long as no order was accepted for the key, nobody relies
  on a handler that has failed, and no handler fails that
  somebody relies on.
-/
def Reliable : GrpcCond :=
  fun tr _ e =>
    acceptances svc tr k = 0 →
      ∀ c, Machine.Run svc.machine Machine.anyStep s₀ tr c →
        ∀ n,
          (reliesOn k c.state e = some n → ¬HasFailed svc s₀ n tr) ∧
            (Fails c n e → ¬ReliedOn svc s₀ k n tr)

end Ledger

------------------------------------------------------------
-- Phases
------------------------------------------------------------

namespace GrpcPhase

/- The handler has placed its placeholder, and goes on. -/
def working (k : String) : GrpcPhase → Bool
  | keyed h .placed => h.key = k
  | keyed h .checked => h.key = k
  | keyed h .reserved => h.key = k
  | _ => false

/- The handler has reserved the key. -/
def reserving (k : String) : GrpcPhase → Bool
  | keyed h .reserved => h.key = k
  | _ => false

/- There is an order for the handler's request. -/
def ordered : GrpcPhase → Bool
  | unkeyed (some ending) => ending.succeeds
  | keyed _ (.accepted _) => true
  | keyed _ (.storing _) => true
  | keyed _ (.found _) => true
  | keyed _ (.closed .existing) => true
  | keyed _ (.closed .submitted) => true
  | _ => false

/- The handler leaves its order to another one. -/
def deferred : GrpcPhase → Bool
  | keyed _ .outraced => true
  | keyed _ (.closed .acknowledged) => true
  | _ => false

theorem working_inv
    {k : String} {g : GrpcPhase}
    (hWorking : g.working k = true) :
    ∃ h, h.key = k ∧
      (g = .keyed h .placed ∨ g = .keyed h .checked ∨
        g = .keyed h .reserved) := by
  unfold working at hWorking
  split at hWorking
  · exact ⟨_, of_decide_eq_true hWorking, .inl rfl⟩
  · exact ⟨_, of_decide_eq_true hWorking, .inr (.inl rfl)⟩
  · exact ⟨_, of_decide_eq_true hWorking, .inr (.inr rfl)⟩
  · cases hWorking

theorem reserving_inv
    {k : String} {g : GrpcPhase}
    (hReserving : g.reserving k = true) :
    ∃ h, h.key = k ∧ g = .keyed h .reserved := by
  unfold reserving at hReserving
  split at hReserving
  · exact ⟨_, of_decide_eq_true hReserving, rfl⟩
  · cases hReserving

end GrpcPhase

/- Who answers with success has an order, or leaves it to another. -/
theorem Answers.of_success
    {response : SubmitOrderResponse} {g : GrpcPhase}
    (hAnswers : Answers (.ok response) g)
    (hSuccess : response.success = true) :
    g.ordered = true ∨ g.deferred = true := by
  match g with
  | .unkeyed none =>
      rcases hAnswers with ⟨status, hEq⟩
      cases hEq
  | .unkeyed (some ending) => exact .inl (hAnswers.symm.trans hSuccess)
  | .keyed h .start =>
      rcases hAnswers with ⟨status, hEq⟩
      cases hEq
  | .keyed h (.closed ending) =>
      have hEnding : ending.succeeds = true :=
        (show response.success = ending.succeeds from hAnswers).symm.trans
          hSuccess
      cases ending with
      | acknowledged => exact .inr rfl
      | existing => exact .inl rfl
      | submitted => exact .inl rfl
      | refused => cases hEnding
      | unavailable => cases hEnding

/- What handlers do at work leads to an order. -/
theorem leads_of_working
    {k : String} {g : GrpcPhase}
    {p : GrpcProg (Except Status SubmitOrderResponse)}
    (hWp : handling.Wp p g Answers)
    (hWorking : g.working k = true) :
    ∃ op cont, p = .act op cont ∧ op.leadsToOrder = true := by
  rcases GrpcPhase.working_inv hWorking with ⟨h, _, hStage⟩
  cases p with
  | done r =>
      rcases hStage with rfl | rfl | rfl <;> cases r <;> exact hWp.elim
  | crash => exact hWp.elim
  | act op cont =>
      refine ⟨op, cont, rfl, ?_⟩
      rcases op.nonempty_resp with ⟨r⟩
      rcases hWp r with ⟨g', hMove, _⟩
      have hMove : GrpcMove g op r g' := hMove
      rcases hStage with rfl | rfl | rfl
      · cases hMove
        rfl
      · cases hMove
        rfl
      · cases hMove with
        | build => rfl
        | place => rfl

------------------------------------------------------------
-- Handlers at Work
------------------------------------------------------------

/- Task `n` is in a phase of `P`. -/
def At
    (P : GrpcPhase → Bool)
    (shs : List (Shadow GrpcRoot GrpcPhase))
    (n : Nat) : Prop :=
  ∃ root g, shs[n]? = some ⟨root, some g⟩ ∧ P g = true

/- The runs of the service, with its handlers' phases. -/
abbrev GrpcTracked (svc : BotService) :=
  Protocol.TrackedRun handling svc.machine Answers

/-
  As long as no order was accepted for the key, its
  placeholders and rows carry none, and are those of handlers
  at work or of handlers that have failed.
-/
structure Accounted
    (svc : BotService)
    (s₀ : GrpcState)
    (k : String)
    (tr : List GrpcEvent)
    (s : GrpcState)
    (shs : List (Shadow GrpcRoot GrpcPhase)) : Prop where
  cached :
    ∀ p entry,
      (s.processes p).cache k = some entry →
        entry.orderId = "" ∧
          (At (GrpcPhase.working k) shs entry.placer ∨
            HasFailed svc s₀ entry.placer tr ∨
              ∃ n, ReliedOn svc s₀ k n tr)
  rows :
    ∀ row,
      s.table k = some row →
        row.orderId = "" ∧
          (At (GrpcPhase.reserving k) shs row.placer ∨
            HasFailed svc s₀ row.placer tr)
  commits : ∀ orderId, .commit k orderId ∉ s.pending
  reserves :
    ∀ n, .reserve k n ∈ s.pending → HasFailed svc s₀ n tr
  told :
    (∃ n, ReliedOn svc s₀ k n tr) →
      ∃ n, ReliedOn svc s₀ k n tr ∧ At (GrpcPhase.working k) shs n
  phases :
    ∀ (n : Nat) root g,
      shs[n]? = some ⟨root, some g⟩ →
        root.req.idempotencyKey = k →
          g.ordered = false ∧
            (g.deferred = true → ∃ n, ReliedOn svc s₀ k n tr)

/- The outcome of a section under the lock of a cache. -/
theorem exec_cache
    {p : Nat} {op : CacheOp} {env : GrpcOutcome} {s s' : GrpcState}
    {r : (GrpcOp.cache p op).Resp}
    (hExec : GrpcState.exec (.cache p op) env s = some (r, s')) :
    r = (op.exec (s.processes p)).1 ∧
      s' =
        { s with
          processes :=
            Function.update s.processes p
              (op.exec (s.processes p)).2 } := by
  cases env with
  | plain =>
      cases hExec
      exact ⟨rfl, rfl⟩
  | _ => cases hExec

namespace CacheOp

variable {ikey k : String} {placer : Nat} {s : EngineProcess}
variable {entry : IdempotencyEntry}

/- A lookup that hits gives the order of the entry. -/
theorem entry_of_hit
    {orderId : OrderId}
    (hHit : ((lookup ikey placer).exec s).1 = some orderId) :
    ∃ entry, s.cache ikey = some entry ∧ entry.orderId = orderId := by
  simp only [CacheOp.exec] at hHit
  split at hHit
  · rename_i entry hEntry
    cases hHit
    exact ⟨entry, (Option.filter_eq_some_iff.mp hEntry).1, rfl⟩
  · cases hHit

/- A lookup that misses places an entry; it drops old ones. -/
theorem entry_of_lookup
    (hEntry : ((lookup ikey placer).exec s).2.cache k = some entry) :
    s.cache k = some entry ∨
      (ikey = k ∧ entry.orderId = "" ∧ entry.placer = placer ∧
        ((lookup ikey placer).exec s).1 = none) := by
  simp only [CacheOp.exec] at hEntry ⊢
  split at hEntry
  · exact .inl (Option.filter_eq_some_iff.mp hEntry).1
  · dsimp only at hEntry
    by_cases hSame : k = ikey
    · subst hSame
      rw [Function.update_self] at hEntry
      cases hEntry
      exact .inr ⟨rfl, rfl, rfl, rfl⟩
    · rw [Function.update_of_ne hSame] at hEntry
      exact .inl (Option.filter_eq_some_iff.mp hEntry).1

theorem entry_of_remove
    (hEntry : ((remove ikey).exec s).2.cache k = some entry) :
    s.cache k = some entry := by
  by_cases hSame : k = ikey
  · simp [CacheOp.exec, hSame] at hEntry
  · simpa [CacheOp.exec, hSame] using hEntry

theorem entry_of_setOrderId
    {orderId : OrderId}
    (hOther : ikey ≠ k)
    (hEntry :
      ((setOrderId ikey orderId).exec s).2.cache k = some entry) :
    s.cache k = some entry := by
  simpa [CacheOp.exec, Ne.symm hOther] using hEntry

end CacheOp

section Steps

variable {svc : BotService} {C : GrpcCond} {s₀ s' : GrpcState}
variable {tr : List GrpcEvent} {c : GrpcConfig} {e : GrpcEvent}
variable {k : String} {n : Nat}
variable {shs shs' : List (Shadow GrpcRoot GrpcPhase)}

/- The number of a handler is that of its task. -/
theorem number_of_root
    (hStart : s₀.requests = 0)
    {s : GrpcState}
    (hRun : GrpcShadowRun svc C s₀ tr s shs) :
    s.requests = (svc.machine.rootsIn tr).length ∧
      ∀ (tid : Nat) (root : GrpcRoot),
        (svc.machine.rootsIn tr)[tid]? = some root →
          root.number = tid := by
  induction hRun with
  | nil => exact ⟨hStart, fun tid root hAt => by simp at hAt⟩
  | @snoc tr s s' shs shs' e hRun _ hStep ih =>
      rcases ih with ⟨hCount, hNumbers⟩
      have hQuiet :
          s'.requests = s.requests → svc.machine.roots e = [] →
            s'.requests = (svc.machine.rootsIn (tr ++ [e])).length ∧
              ∀ (tid : Nat) (root : GrpcRoot),
                (svc.machine.rootsIn (tr ++ [e]))[tid]? = some root →
                  root.number = tid := by
        intro hSame hNone
        rw [Machine.rootsIn_append, Machine.rootsIn_singleton, hNone,
          List.append_nil, hSame]
        exact ⟨hCount, hNumbers⟩
      cases hStep with
      | @op _ _ tid root g g' op env r hPhase hMove hExec =>
          refine hQuiet ?_ rfl
          have hDone : GrpcState.exec op env s = some (r, s') := hExec
          cases tableStep_of_exec hDone with
          | memory processes => rfl
          | statement op d => cases d <;> rfl
      | @ext _ _ ext hExt =>
          have hDone : ext.exec s = some s' := hExt
          cases ext with
          | request root =>
              rcases Option.ite_none_right_eq_some.mp hDone with
                ⟨hNumber, hEq⟩
              cases hEq
              have hRoots :
                  svc.machine.roots (.ext (.request root)) = [root] :=
                rfl
              rw [Machine.rootsIn_append, Machine.rootsIn_singleton,
                hRoots]
              refine ⟨by simp [hCount], ?_⟩
              intro tid root' hAt
              by_cases hLt : tid < (svc.machine.rootsIn tr).length
              · rw [List.getElem?_append_left hLt] at hAt
                exact hNumbers tid root' hAt
              · rw [List.getElem?_append_right (Nat.le_of_not_lt hLt)]
                  at hAt
                rcases List.getElem?_eq_some_iff.mp hAt with ⟨hOne, hEq⟩
                rw [List.length_singleton] at hOne
                have hLast : root = root' := by simpa using hEq
                rw [← hLast, hNumber, hCount]
                omega
          | takeEffect op =>
              rcases Option.ite_none_right_eq_some.mp hDone with ⟨_, hEq⟩
              cases hEq
              exact hQuiet rfl rfl
          | _ =>
              cases hDone
              exact hQuiet rfl rfl

theorem number_of_shadow
    (hStart : s₀.requests = 0)
    {s : GrpcState} {root : GrpcRoot} {phase : Option GrpcPhase}
    (hRun : GrpcShadowRun svc C s₀ tr s shs)
    (hAt : shs[n]? = some ⟨root, phase⟩) :
    root.number = n := by
  refine (number_of_root hStart hRun).2 n root ?_
  have hRoot := hRun.root_at [] hAt
  rwa [List.append_nil] at hRoot

/- The answer to a statement is that of the table. -/
theorem value_of_exec
    {op : KeyOp} {d : Delivery} {s : GrpcState} {v : op.Value}
    (hValue : (op.exec d s).1 = .ok v) :
    d = .answered ∧ v = op.value s.table := by
  cases d with
  | answered => exact ⟨rfl, (Except.ok.inj hValue).symm⟩
  | _ => cases hValue

/- A handler that is dropped at work fails. -/
theorem fails_of_kills
    {root : GrpcRoot} {g : GrpcPhase} {ext : GrpcExt}
    (hRun : GrpcTracked svc C s₀ tr c shs)
    (hAt : shs[n]? = some ⟨root, some g⟩)
    (hWorking : g.working k = true)
    (hKills : ext.kills n root = true) :
    Fails c n (.ext ext) := by
  rcases hRun.task_of_shadow hAt with ⟨⟨root', prog⟩, hTask, hTracks⟩
  rcases hTracks with ⟨hRoot, hProg⟩
  dsimp only at hRoot hProg
  subst hRoot
  cases prog with
  | none => exact hProg.elim
  | some p =>
      rcases leads_of_working hProg hWorking with ⟨op, cont, rfl, hLeads⟩
      exact ⟨root', op, cont, hTask, hLeads, hKills⟩

/- The order of a handler with the key is not accepted at a step. -/
theorem not_accepts
    {s : GrpcState} {root : GrpcRoot} {g : GrpcPhase}
    {p : Nat} {o : Order} {env : GrpcOutcome} {orderId : OrderId}
    (hRun : GrpcShadowRun svc C s₀ tr s shs)
    (hAt : shs[n]? = some ⟨root, some g⟩)
    (hKey : root.req.idempotencyKey = k)
    (hNone :
      acceptances svc
        (tr ++ [.op n (.submitOrder p o) env (.ok orderId)]) k = 0) :
    False := by
  have hRoot := hRun.root_at [.op n (.submitOrder p o) env (.ok orderId)] hAt
  have hAccepts :
      accepts
          (svc.machine.rootsIn
            (tr ++ [.op n (.submitOrder p o) env (.ok orderId)]))
          k (.op n (.submitOrder p o) env (.ok orderId)) =
        true := by
    simp only [accepts, hRoot, Option.any_some, hKey, decide_true]
  rw [acceptances_append_singleton hRun, if_pos hAccepts] at hNone
  cases hNone

/- A handler that has reserved the key keeps it, or fails. -/
theorem reserving_next
    (hRun : GrpcTracked svc C s₀ tr c shs)
    (hStep :
      Protocol.ShadowStep handling svc.machine c.state shs e s' shs')
    (hNone : acceptances svc (tr ++ [e]) k = 0)
    (hReserving : At (GrpcPhase.reserving k) shs n) :
    At (GrpcPhase.reserving k) shs' n ∨ Fails c n e := by
  rcases hReserving with ⟨root, g, hAt, hHolds⟩
  rcases GrpcPhase.reserving_inv hHolds with ⟨h, hKey, rfl⟩
  rcases hStep.phase_next hAt with
    hSame | ⟨op, env, r, g', rfl, hMove, hExec, hNew⟩ | ⟨ext, rfl, hKills⟩
  · exact .inl ⟨_, _, hSame, hHolds⟩
  · have hMove : GrpcMove (.keyed h .reserved) op r g' := hMove
    cases hMove with
    | build => exact .inl ⟨_, _, hNew, hHolds⟩
    | @place _ o r =>
        cases r with
        | error e => exact .inr rfl
        | ok orderId =>
            have hNames := phase_names hRun.shadowRun hAt
            refine (not_accepts hRun.shadowRun hAt ?_ hNone).elim
            rw [← hKey, hNames.1]
            rfl
  · exact .inr (fails_of_kills hRun hAt (k := k) (decide_eq_true hKey)
      hKills)

/- What a handler finds in its process' cache. -/
theorem relies_of_lookup
    {h : GrpcHandler} {env : GrpcOutcome} {orderId : OrderId}
    (hAcc : Accounted svc s₀ k tr c.state shs)
    (hExec :
      GrpcState.exec (.cache h.process (.lookup h.key h.number)) env
        c.state = some (some orderId, s'))
    (hKey : h.key = k) :
    orderId = "" ∧
      ∃ m,
        reliesOn k c.state
          (.op n (.cache h.process (.lookup h.key h.number)) env
            (some orderId)) = some m := by
  have hHit := (exec_cache hExec).1.symm
  rcases CacheOp.entry_of_hit hHit with ⟨entry, hEntry, rfl⟩
  rw [hKey] at hEntry
  have hEmpty := (hAcc.cached _ _ hEntry).1
  refine ⟨hEmpty, entry.placer, ?_⟩
  simp [reliesOn, hKey, hEntry, hEmpty]

/- What a handler finds in the table. -/
theorem relies_of_check
    {h : GrpcHandler} {env : GrpcOutcome} {orderId : OrderId}
    (hAcc : Accounted svc s₀ k tr c.state shs)
    (hExec :
      GrpcState.exec (.key (.check h.key)) env c.state =
        some (.ok (some orderId), s'))
    (hKey : h.key = k) :
    orderId = "" ∧
      ∃ m,
        reliesOn k c.state
          (.op n (.key (.check h.key)) env (.ok (some orderId))) =
            some m := by
  rcases exec_key hExec with ⟨d, rfl, hReply, _⟩
  have hValue := (value_of_exec hReply.symm).2
  rcases Option.map_eq_some_iff.mp hValue.symm with ⟨row, hRow, rfl⟩
  rw [hKey] at hRow
  have hEmpty := (hAcc.rows row hRow).1
  refine ⟨hEmpty, row.placer, ?_⟩
  simp [reliesOn, hKey, hRow, hEmpty]

/- A handler that cannot reserve its key finds it reserved. -/
theorem relies_of_reserve
    {h : GrpcHandler} {env : GrpcOutcome}
    (hExec :
      GrpcState.exec (.key (.reserve h.key h.number)) env c.state =
        some (.ok false, s'))
    (hKey : h.key = k) :
    ∃ m,
      reliesOn k c.state
        (.op n (.key (.reserve h.key h.number)) env (.ok false)) =
          some m := by
  rcases exec_key hExec with ⟨d, rfl, hReply, _⟩
  have hValue : false = (c.state.table h.key).isNone :=
    (value_of_exec hReply.symm).2
  cases hRow : c.state.table h.key with
  | none =>
      rw [hRow] at hValue
      cases hValue
  | some row =>
      rw [hKey] at hRow
      refine ⟨row.placer, ?_⟩
      simp [reliesOn, hKey, hRow]

/-
  A handler at work goes on, or fails, or leaves its order to
  another one.
-/
theorem working_next
    (hRun : GrpcTracked svc C s₀ tr c shs)
    (hStep :
      Protocol.ShadowStep handling svc.machine c.state shs e s' shs')
    (hAcc : Accounted svc s₀ k tr c.state shs)
    (hNone : acceptances svc (tr ++ [e]) k = 0)
    (hWorking : At (GrpcPhase.working k) shs n) :
    At (GrpcPhase.working k) shs' n ∨ Fails c n e ∨
      ∃ m, reliesOn k c.state e = some m := by
  rcases hWorking with ⟨root, g, hAt, hHolds⟩
  rcases GrpcPhase.working_inv hHolds with ⟨h, hKey, hStage⟩
  rcases hStep.phase_next hAt with
    hSame | ⟨op, env, r, g', rfl, hMove, hExec, hNew⟩ | ⟨ext, rfl, hKills⟩
  · exact .inl ⟨_, _, hSame, hHolds⟩
  · have hMove : GrpcMove g op r g' := hMove
    rcases hStage with rfl | rfl | rfl
    · cases hMove with
      | @check _ row =>
          match row with
          | .error e => exact .inr (.inl rfl)
          | .ok none =>
              exact .inl ⟨_, _, hNew, decide_eq_true hKey⟩
          | .ok (some orderId) =>
              exact .inr (.inr (relies_of_check hAcc hExec hKey).2)
    · cases hMove with
      | @reserve _ reply =>
          match reply with
          | .error e => exact .inr (.inl rfl)
          | .ok true =>
              exact .inl ⟨_, _, hNew, decide_eq_true hKey⟩
          | .ok false =>
              exact .inr (.inr (relies_of_reserve hExec hKey))
    · rcases reserving_next hRun hStep hNone
          ⟨root, _, hAt, decide_eq_true hKey⟩ with
        ⟨root', g, hAt', hReserving⟩ | hFails
      · rcases GrpcPhase.reserving_inv hReserving with ⟨h', hKey', rfl⟩
        exact .inl ⟨_, _, hAt', decide_eq_true hKey'⟩
      · exact .inr (.inl hFails)
  · exact .inr (.inl (fails_of_kills hRun hAt hHolds hKills))

/- What a task that does not act is in stays what it is in. -/
theorem At.other
    {P : GrpcPhase → Bool} {s : GrpcState} {tid : Nat}
    {op : GrpcOp} {env : GrpcOutcome} {r : op.Resp}
    (hAt : At P shs n)
    (hStep :
      Protocol.ShadowStep handling svc.machine s shs
        (.op tid op env r) s' shs')
    (hOther : n ≠ tid) :
    At P shs' n := by
  rcases hAt with ⟨root, g, hAt, hHolds⟩
  rcases hStep.phase_next hAt with
    hSame | ⟨_, _, _, _, hEq, _⟩ | ⟨_, hEq, _⟩
  · exact ⟨root, g, hSame, hHolds⟩
  · cases hEq
    exact absurd rfl hOther
  · cases hEq

theorem At.mono
    {P Q : GrpcPhase → Bool}
    (hPQ : ∀ g, P g = true → Q g = true)
    (hAt : At P shs n) :
    At Q shs n := by
  rcases hAt with ⟨root, g, hAt, hHolds⟩
  exact ⟨root, g, hAt, hPQ g hHolds⟩

/- Two tasks in different phases are not the same. -/
theorem At.ne
    {P : GrpcPhase → Bool} {tid : Nat} {root : GrpcRoot}
    {g : GrpcPhase}
    (hAt : At P shs n)
    (hPhase : shs[tid]? = some ⟨root, some g⟩)
    (hNot : P g = false) :
    n ≠ tid := by
  rintro rfl
  rcases hAt with ⟨root', g', hAt', hHolds⟩
  rw [hPhase] at hAt'
  cases hAt'
  rw [hNot] at hHolds
  cases hHolds

theorem GrpcPhase.working_of_reserving
    (g : GrpcPhase)
    (hReserving : g.reserving k = true) :
    g.working k = true := by
  rcases reserving_inv hReserving with ⟨h, hKey, rfl⟩
  exact decide_eq_true hKey

/- Who has nothing of the key's order is not in one of its phases. -/
theorem Accounted.key_ne
    {h : GrpcHandler} {root : GrpcRoot} {stage : KeyStage}
    (hAcc : Accounted svc s₀ k tr c.state shs)
    (hRun : GrpcTracked svc C s₀ tr c shs)
    (hAt : shs[n]? = some ⟨root, some (.keyed h stage)⟩)
    (hOrdered : (GrpcPhase.keyed h stage).ordered = true) :
    h.key ≠ k := by
  intro hKey
  have hNames := phase_names hRun.shadowRun hAt
  have hRoot : root.req.idempotencyKey = k := by
    rw [← hKey, hNames.1]
    rfl
  rw [(hAcc.phases n root _ hAt hRoot).1] at hOrdered
  cases hOrdered

/- A handler whose row is found by another has reserved the key. -/
theorem relied_of_row
    {m tid : Nat} {root : GrpcRoot} {g : GrpcPhase} {op : GrpcOp}
    {env : GrpcOutcome} {r : op.Resp}
    (hStep :
      Protocol.ShadowStep handling svc.machine c.state shs
        (.op tid op env r) s' shs')
    (hAcc : Accounted svc s₀ k tr c.state shs)
    (hSound : ¬HasFailed svc s₀ m tr)
    (hPhase : shs[tid]? = some ⟨root, some g⟩)
    (hNot : g.reserving k = false)
    (hRow : (c.state.table k).map IdempotencyKeyRow.placer = some m) :
    At (GrpcPhase.working k) shs' m := by
  rcases Option.map_eq_some_iff.mp hRow with ⟨row, hFound, rfl⟩
  have hReserving :=
    (hAcc.rows row hFound).2.resolve_right hSound
  exact (hReserving.other hStep (hReserving.ne hPhase hNot)).mono
    GrpcPhase.working_of_reserving

/- A handler somebody relies on now is at work, or one before it was. -/
theorem relied_next
    {m : Nat}
    (hRun : GrpcTracked svc C s₀ tr c shs)
    (hStep :
      Protocol.ShadowStep handling svc.machine c.state shs e s' shs')
    (hAcc : Accounted svc s₀ k tr c.state shs)
    (hRelies : reliesOn k c.state e = some m)
    (hSound : ¬HasFailed svc s₀ m tr) :
    ∃ n,
      ReliedOn svc s₀ k n (tr ++ [e]) ∧
        At (GrpcPhase.working k) shs' n := by
  have hNow : ReliedOn svc s₀ k m (tr ++ [e]) :=
    hRun.run.happened hRelies
  cases hStep with
  | ext hExt => cases hRelies
  | @op _ _ tid root g g' op env r hPhase hMove hExec =>
      have hThis :=
        Protocol.ShadowStep.op (P := handling) (M := svc.machine) hPhase
          hMove hExec
      have hMove : GrpcMove g op r g' := hMove
      cases hMove with
      | @lookup h hit =>
          cases hit with
          | none => cases hRelies
          | some orderId =>
              simp only [reliesOn] at hRelies
              rcases Option.ite_none_right_eq_some.mp hRelies with
                ⟨⟨hKey, _⟩, hPlacer⟩
              rcases Option.map_eq_some_iff.mp hPlacer with
                ⟨entry, hEntry, rfl⟩
              rcases (hAcc.cached _ _ hEntry).2 with
                hWorking | hFailed | hTold
              · exact ⟨_, hNow,
                  hWorking.other hThis (hWorking.ne hPhase rfl)⟩
              · exact absurd hFailed hSound
              · rcases hAcc.told hTold with ⟨n, hRelied, hWorking⟩
                exact ⟨n, hRelied.later,
                  hWorking.other hThis (hWorking.ne hPhase rfl)⟩
      | @check h row =>
          match row with
          | .error e => cases hRelies
          | .ok none => cases hRelies
          | .ok (some orderId) =>
              simp only [reliesOn] at hRelies
              rcases Option.ite_none_right_eq_some.mp hRelies with
                ⟨_, hPlacer⟩
              exact ⟨m, hNow,
                relied_of_row hThis hAcc hSound hPhase rfl hPlacer⟩
      | @reserve h reply =>
          match reply with
          | .error e => cases hRelies
          | .ok true => cases hRelies
          | .ok false =>
              simp only [reliesOn] at hRelies
              rcases Option.ite_none_right_eq_some.mp hRelies with
                ⟨_, hPlacer⟩
              exact ⟨m, hNow,
                relied_of_row hThis hAcc hSound hPhase rfl hPlacer⟩
      | _ => cases hRelies

------------------------------------------------------------
-- One Step
------------------------------------------------------------

/- Where an entry of a cache after a step comes from. -/
theorem entry_of_exec
    {op : GrpcOp} {env : GrpcOutcome} {r : op.Resp} {s : GrpcState}
    {p : Nat} {entry : IdempotencyEntry}
    (hExec : GrpcState.exec op env s = some (r, s'))
    (hEntry : (s'.processes p).cache k = some entry) :
    (s.processes p).cache k = some entry ∨
      ∃ cop,
        op = .cache p cop ∧
          (cop.exec (s.processes p)).2.cache k = some entry := by
  cases op with
  | cache q cop =>
      rcases exec_cache hExec with ⟨_, rfl⟩
      dsimp only at hEntry
      by_cases hSame : p = q
      · subst hSame
        rw [Function.update_self] at hEntry
        exact .inr ⟨cop, rfl, hEntry⟩
      · rw [Function.update_of_ne hSame] at hEntry
        exact .inl hEntry
  | key op =>
      rcases exec_key hExec with ⟨d, rfl, _, rfl⟩
      cases d <;> exact .inl hEntry
  | utcNow =>
      cases env with
      | time t =>
          cases hExec
          exact .inl hEntry
      | _ => cases hExec
  | submitOrder q order =>
      cases env with
      | order r =>
          rcases Option.ite_none_left_eq_some.mp hExec with ⟨_, hEq⟩
          cases hEq
          exact .inl hEntry
      | _ => cases hExec

/- An entry for the key is an old one, or that of a handler at work. -/
theorem entry_next
    {p : Nat} {entry : IdempotencyEntry}
    (hStart : s₀.requests = 0)
    (hRun : GrpcTracked svc C s₀ tr c shs)
    (hStep :
      Protocol.ShadowStep handling svc.machine c.state shs e s' shs')
    (hAcc : Accounted svc s₀ k tr c.state shs)
    (hEntry : (s'.processes p).cache k = some entry) :
    (c.state.processes p).cache k = some entry ∨
      (entry.orderId = "" ∧
        At (GrpcPhase.working k) shs' entry.placer) := by
  cases hStep with
  | @op _ _ tid root g g' op env r hPhase hMove hExec =>
      have hMove : GrpcMove g op r g' := hMove
      rcases entry_of_exec hExec hEntry with hOld | ⟨cop, hCache, hAfter⟩
      · exact .inl hOld
      cases hMove with
      | @lookup h hit =>
          cases hCache
          rcases CacheOp.entry_of_lookup hAfter with
            hOld | ⟨hKey, hEmpty, hPlacer, hMiss⟩
          · exact .inl hOld
          · have hNumber : h.number = tid := by
              rw [(phase_names hRun.shadowRun hPhase).1]
              exact number_of_shadow hStart hRun.shadowRun hPhase
            have hHit : hit = none := (exec_cache hExec).1.trans hMiss
            subst hHit
            refine .inr ⟨hEmpty, root, .keyed h .placed, ?_,
              decide_eq_true hKey⟩
            have hLt := (List.getElem?_eq_some_iff.mp hPhase).1
            rw [hPlacer, hNumber,
              List.getElem?_append_left (by simpa using hLt)]
            exact List.getElem?_set_self hLt
      | @store h orderId =>
          cases hCache
          have hOther := hAcc.key_ne hRun hPhase rfl
          exact .inl (CacheOp.entry_of_setOrderId hOther hAfter)
      | @recover h orderId =>
          cases hCache
          have hOther := hAcc.key_ne hRun hPhase rfl
          exact .inl (CacheOp.entry_of_setOrderId hOther hAfter)
      | withdraw =>
          cases hCache
          exact .inl (CacheOp.entry_of_remove hAfter)
      | fail =>
          cases hCache
          exact .inl (CacheOp.entry_of_remove hAfter)
      | yield =>
          cases hCache
          exact .inl (CacheOp.entry_of_remove hAfter)
      | _ => cases hCache
  | @ext _ _ ext hExt =>
      have hDone : ext.exec c.state = some s' := hExt
      cases ext with
      | request root =>
          rcases Option.ite_none_right_eq_some.mp hDone with ⟨_, hEq⟩
          cases hEq
          exact .inl hEntry
      | takeEffect op =>
          rcases Option.ite_none_right_eq_some.mp hDone with ⟨_, hEq⟩
          cases hEq
          exact .inl hEntry
      | restart q =>
          cases hDone
          by_cases hSame : p = q
          · simp [hSame] at hEntry
          · exact .inl (by simpa [hSame] using hEntry)
      | tick q d =>
          cases hDone
          by_cases hSame : p = q
          · subst hSame
            exact .inl (by simpa using hEntry)
          · exact .inl (by simpa [hSame] using hEntry)
      | _ =>
          cases hDone
          exact .inl hEntry

/- A statement that fails may take effect later. -/
theorem pending_of_exec
    {op op' : KeyOp} {d : Delivery} {s : GrpcState}
    (hMem : op' ∈ (op.exec d s).2.pending) :
    op' ∈ s.pending ∨
      (op' = op ∧ ∃ e, (op.exec d s).1 = .error e) := by
  cases d with
  | late e =>
      rcases List.mem_cons.mp hMem with hSame | hOld
      · exact .inr ⟨hSame, e, rfl⟩
      · exact .inl hOld
  | _ => exact .inl hMem

/- A statement leaves the row, or takes effect on it. -/
theorem row_of_exec_key
    {op : KeyOp} {d : Delivery} {s : GrpcState}
    {row : IdempotencyKeyRow}
    (hRow : (op.exec d s).2.table k = some row) :
    s.table k = some row ∨ op.apply s.clock s.table k = some row := by
  cases d with
  | answered => exact .inr hRow
  | lost e => exact .inr hRow
  | late e => exact .inl hRow
  | failed e => exact .inl hRow

/- Who inserts a row has reserved the key, or fails. -/
theorem reserving_of_insert
    {tid : Nat} {root : GrpcRoot} {h : GrpcHandler} {d : Delivery}
    (hStart : s₀.requests = 0)
    (hRun : GrpcTracked svc C s₀ tr c shs)
    (hPhase : shs[tid]? = some ⟨root, some (.keyed h .checked)⟩)
    (hKey : h.key = k)
    (hFree : c.state.table k = none) :
    let r := ((KeyOp.reserve h.key h.number).exec d c.state).1
    At (GrpcPhase.reserving k)
        (shs.set tid ⟨root, some (.keyed h (.afterReserve r))⟩)
        h.number ∨
      Fails c h.number
        (.op tid (.key (.reserve h.key h.number)) (.delivery d) r) := by
  intro r
  have hNumber : h.number = tid := by
    rw [(phase_names hRun.shadowRun hPhase).1]
    exact number_of_shadow hStart hRun.shadowRun hPhase
  rw [hNumber]
  cases d with
  | answered =>
      left
      have hTook : r = .ok true := by
        simp [r, KeyOp.exec, KeyOp.value, hKey, hFree]
      rw [hTook]
      exact ⟨root, _,
        List.getElem?_set_self (List.getElem?_eq_some_iff.mp hPhase).1,
        decide_eq_true hKey⟩
  | lost e => exact .inr rfl
  | late e => exact .inr rfl
  | failed e => exact .inr rfl

/- A row for the key is an old one, or of somebody who reserved it. -/
theorem row_next
    {row : IdempotencyKeyRow}
    (hStart : s₀.requests = 0)
    (hRun : GrpcTracked svc C s₀ tr c shs)
    (hStep :
      Protocol.ShadowStep handling svc.machine c.state shs e s' shs')
    (hAcc : Accounted svc s₀ k tr c.state shs)
    (hRow : s'.table k = some row) :
    c.state.table k = some row ∨
      (row.orderId = "" ∧
        (At (GrpcPhase.reserving k) shs' row.placer ∨
          HasFailed svc s₀ row.placer (tr ++ [e]))) := by
  cases hStep with
  | @op _ _ tid root g g' op env r hPhase hMove hExec =>
      have hDone : GrpcState.exec op env c.state = some (r, s') := hExec
      have hMove : GrpcMove g op r g' := hMove
      cases tableStep_of_exec hDone with
      | memory processes => exact .inl hRow
      | statement op d =>
          rcases row_of_exec_key hRow with hOld | hApplied
          · exact .inl hOld
          rcases KeyOp.row_of_apply hApplied with
            hOld | ⟨hFree, n, rfl, rfl⟩ | ⟨orderId, _, rfl, _⟩
          · exact .inl hOld
          · generalize hReply :
              ((KeyOp.reserve k n).exec d c.state).1 = reply at hMove
            cases hMove with
            | @reserve h _ =>
                subst hReply
                have hNone : svc.machine.opRoots
                    (.key (.reserve h.key h.number)) = [] := rfl
                rw [hNone, List.map_nil, List.append_nil]
                refine .inr ⟨rfl, ?_⟩
                exact (reserving_of_insert hStart hRun hPhase rfl
                  hFree).imp_right fun hFails =>
                    hRun.run.happened hFails
          · generalize hReply :
              ((KeyOp.commit k orderId).exec d c.state).1 = reply
                at hMove
            cases hMove with
            | @commit h _ _ =>
                exact absurd rfl (hAcc.key_ne hRun hPhase rfl)
  | @ext _ _ ext hExt =>
      have hDone : ext.exec c.state = some s' := hExt
      cases ext with
      | request root =>
          rcases Option.ite_none_right_eq_some.mp hDone with ⟨_, hEq⟩
          cases hEq
          exact .inl hRow
      | takeEffect op =>
          rcases Option.ite_none_right_eq_some.mp hDone with ⟨hMem, hEq⟩
          cases hEq
          rcases KeyOp.row_of_apply hRow with
            hOld | ⟨_, n, rfl, rfl⟩ | ⟨orderId, _, rfl, _⟩
          · exact .inl hOld
          · exact .inr ⟨rfl, .inr (hAcc.reserves n hMem).later⟩
          · exact absurd hMem (hAcc.commits orderId)
      | cleanup =>
          cases hDone
          exact .inl (Option.filter_eq_some_iff.mp hRow).1
      | _ =>
          cases hDone
          exact .inl hRow

/- A statement that is to take effect later was given up by its handler. -/
theorem pending_next
    {op' : KeyOp}
    (hStep :
      Protocol.ShadowStep handling svc.machine c.state shs e s' shs')
    (hMem : op' ∈ s'.pending) :
    op' ∈ c.state.pending ∨
      ∃ (tid : Nat) (root : GrpcRoot) (g g' : GrpcPhase)
        (env : GrpcOutcome) (err : DbError),
        e = .op tid (.key op') env (.error err) ∧
          shs[tid]? = some ⟨root, some g⟩ ∧
            GrpcMove g (.key op') (.error err) g' := by
  cases hStep with
  | @op _ _ tid root g g' op env r hPhase hMove hExec =>
      have hDone : GrpcState.exec op env c.state = some (r, s') := hExec
      cases tableStep_of_exec hDone with
      | memory processes => exact .inl hMem
      | statement op d =>
          rcases pending_of_exec hMem with hOld | ⟨rfl, err, hError⟩
          · exact .inl hOld
          · rw [hError] at hMove ⊢
            exact .inr ⟨tid, root, g, g', _, err, rfl, hPhase, hMove⟩
  | @ext _ _ ext hExt =>
      have hDone : ext.exec c.state = some s' := hExt
      cases ext with
      | request root =>
          rcases Option.ite_none_right_eq_some.mp hDone with ⟨_, hEq⟩
          cases hEq
          exact .inl hMem
      | takeEffect op =>
          rcases Option.ite_none_right_eq_some.mp hDone with ⟨_, hEq⟩
          cases hEq
          exact .inl (List.mem_of_mem_erase hMem)
      | _ =>
          cases hDone
          exact .inl hMem

/- No handler comes by an order, and who defers relies on another. -/
theorem phases_next
    {root : GrpcRoot} {g' : GrpcPhase}
    (hRun : GrpcTracked svc C s₀ tr c shs)
    (hStep :
      Protocol.ShadowStep handling svc.machine c.state shs e s' shs')
    (hAcc : Accounted svc s₀ k tr c.state shs)
    (hNone : acceptances svc (tr ++ [e]) k = 0)
    (hAt : shs'[n]? = some ⟨root, some g'⟩)
    (hKey : root.req.idempotencyKey = k) :
    g'.ordered = false ∧
      (g'.deferred = true → ∃ m, ReliedOn svc s₀ k m (tr ++ [e])) := by
  have hRelied :
      (∃ m, reliesOn k c.state e = some m) →
        ∃ m, ReliedOn svc s₀ k m (tr ++ [e]) := by
    rintro ⟨m, hRelies⟩
    exact ⟨m, hRun.run.happened hRelies⟩
  rcases hStep.phase_before hAt with
    hOld | ⟨op, env, r, g, rfl, hMove, hExec, hPhase⟩ | rfl
  · rcases hAcc.phases n root g' hOld hKey with ⟨hNot, hDeferred⟩
    exact ⟨hNot, fun hIs => (hDeferred hIs).imp fun m hM => hM.later⟩
  · rcases hAcc.phases n root g hPhase hKey with ⟨hNot, hDeferred⟩
    have hNames := phase_names hRun.shadowRun hPhase
    have hMove : GrpcMove g op r g' := hMove
    have hHandler :
        ∀ {h : GrpcHandler} {stage : KeyStage},
          g = .keyed h stage → h.key = k := by
      rintro h stage rfl
      rw [hNames.1]
      exact hKey
    cases hMove with
    | now => exact ⟨rfl, fun hIs => by cases hIs⟩
    | @submit p o r =>
        cases r with
        | error e => exact ⟨rfl, fun hIs => by cases hIs⟩
        | ok orderId =>
            exact (not_accepts hRun.shadowRun hPhase hKey hNone).elim
    | @lookup h hit =>
        cases hit with
        | none => exact ⟨rfl, fun hIs => by cases hIs⟩
        | some orderId =>
            rcases relies_of_lookup (n := n) hAcc hExec (hHandler rfl) with
              ⟨rfl, hRelies⟩
            exact ⟨rfl, fun _ => hRelied hRelies⟩
    | @check h row =>
        match row with
        | .error e => exact ⟨rfl, fun hIs => by cases hIs⟩
        | .ok none => exact ⟨rfl, fun hIs => by cases hIs⟩
        | .ok (some orderId) =>
            rcases relies_of_check (n := n) hAcc hExec (hHandler rfl) with
              ⟨rfl, hRelies⟩
            exact ⟨rfl, fun _ => hRelied hRelies⟩
    | @reserve h reply =>
        match reply with
        | .error e => exact ⟨rfl, fun hIs => by cases hIs⟩
        | .ok true => exact ⟨rfl, fun hIs => by cases hIs⟩
        | .ok false =>
            exact ⟨rfl, fun _ =>
              hRelied (relies_of_reserve hExec (hHandler rfl))⟩
    | build => exact ⟨rfl, fun hIs => by cases hIs⟩
    | @place h o r =>
        cases r with
        | error e => exact ⟨rfl, fun hIs => by cases hIs⟩
        | ok orderId =>
            exact (not_accepts hRun.shadowRun hPhase hKey hNone).elim
    | store => cases hNot
    | commit => cases hNot
    | withdraw => exact ⟨rfl, fun hIs => by cases hIs⟩
    | release => exact ⟨rfl, fun hIs => by cases hIs⟩
    | fail => exact ⟨rfl, fun hIs => by cases hIs⟩
    | yield =>
        exact ⟨rfl, fun _ => (hDeferred rfl).imp fun m hM => hM.later⟩
    | recover => cases hNot
  · change (GrpcRoot.phase root).ordered = false ∧
      ((GrpcRoot.phase root).deferred = true → _)
    unfold GrpcRoot.phase
    split
    · exact ⟨rfl, fun hIs => by cases hIs⟩
    · exact ⟨rfl, fun hIs => by cases hIs⟩

/- Whoever is relied on, some handler relied on is at work. -/
theorem told_next
    (hRun : GrpcTracked svc (Reliable svc s₀ k) s₀ tr c shs)
    (hCond : Reliable svc s₀ k tr c.state e)
    (hStep :
      Protocol.ShadowStep handling svc.machine c.state shs e s' shs')
    (hAcc : Accounted svc s₀ k tr c.state shs)
    (hBefore : acceptances svc tr k = 0)
    (hNone : acceptances svc (tr ++ [e]) k = 0)
    (hTold : ∃ n, ReliedOn svc s₀ k n (tr ++ [e])) :
    ∃ n,
      ReliedOn svc s₀ k n (tr ++ [e]) ∧
        At (GrpcPhase.working k) shs' n := by
  have hSound := hCond hBefore c (hRun.run.mono fun _ _ _ _ => trivial)
  cases hRelies : reliesOn k c.state e with
  | some m =>
      exact relied_next hRun hStep hAcc hRelies ((hSound m).1 hRelies)
  | none =>
      rcases hTold with ⟨m, hRelied⟩
      have hEarlier : ∃ n, ReliedOn svc s₀ k n tr := by
        rcases hRun.run.happened_snoc hRelied with hOld | hNow
        · exact ⟨m, hOld⟩
        · rw [hRelies] at hNow
          cases hNow
      rcases hAcc.told hEarlier with ⟨n, hRelied, hWorking⟩
      rcases working_next hRun hStep hAcc hNone hWorking with
        hStill | hFails | ⟨m, hNow⟩
      · exact ⟨n, hRelied.later, hStill⟩
      · exact absurd hRelied ((hSound n).2 hFails)
      · rw [hRelies] at hNow
        cases hNow

/- A step under which nobody unreliable is relied on. -/
theorem Accounted.next
    (hStart : s₀.requests = 0)
    (hRun : GrpcTracked svc (Reliable svc s₀ k) s₀ tr c shs)
    (hCond : Reliable svc s₀ k tr c.state e)
    (hStep :
      Protocol.ShadowStep handling svc.machine c.state shs e s' shs')
    (hAcc : Accounted svc s₀ k tr c.state shs)
    (hBefore : acceptances svc tr k = 0)
    (hNone : acceptances svc (tr ++ [e]) k = 0) :
    Accounted svc s₀ k (tr ++ [e]) s' shs' where
  cached := by
    intro p entry hEntry
    rcases entry_next hStart hRun hStep hAcc hEntry with
      hOld | ⟨hEmpty, hWorking⟩
    · rcases hAcc.cached p entry hOld with
        ⟨hEmpty, hWorking | hFailed | hTold⟩
      · refine ⟨hEmpty, ?_⟩
        rcases working_next hRun hStep hAcc hNone hWorking with
          hStill | hFails | ⟨m, hNow⟩
        · exact .inl hStill
        · exact .inr (.inl (hRun.run.happened hFails))
        · exact .inr (.inr ⟨m, hRun.run.happened hNow⟩)
      · exact ⟨hEmpty, .inr (.inl hFailed.later)⟩
      · exact ⟨hEmpty, .inr (.inr (hTold.imp fun m hM => hM.later))⟩
    · exact ⟨hEmpty, .inl hWorking⟩
  rows := by
    intro row hRow
    rcases row_next hStart hRun hStep hAcc hRow with hOld | hNew
    · rcases hAcc.rows row hOld with ⟨hEmpty, hReserving | hFailed⟩
      · refine ⟨hEmpty, ?_⟩
        exact (reserving_next hRun hStep hNone hReserving).imp_right
          fun hFails => hRun.run.happened hFails
      · exact ⟨hEmpty, .inr hFailed.later⟩
    · exact hNew
  commits := by
    intro orderId hMem
    rcases pending_next hStep hMem with
      hOld | ⟨tid, root, g, g', env, err, rfl, hPhase, hMove⟩
    · exact hAcc.commits orderId hOld
    · generalize hReply :
        (Except.error err : Except DbError Unit) = reply at hMove
      cases hMove with
      | commit => exact hAcc.key_ne hRun hPhase rfl rfl
  reserves := by
    intro n hMem
    rcases pending_next hStep hMem with
      hOld | ⟨tid, root, g, g', env, err, rfl, hPhase, hMove⟩
    · exact (hAcc.reserves n hOld).later
    · refine hRun.run.happened ?_
      generalize hReply :
        (Except.error err : Except DbError Bool) = reply at hMove
      cases hMove with
      | @reserve h _ =>
          subst hReply
          change tid = h.number
          rw [(phase_names hRun.shadowRun hPhase).1]
          exact (number_of_shadow hStart hRun.shadowRun hPhase).symm
  told := told_next hRun hCond hStep hAcc hBefore hNone
  phases := fun n root g hAt hKey =>
    phases_next hRun hStep hAcc hNone hAt hKey

------------------------------------------------------------
-- Whole Runs
------------------------------------------------------------

theorem accounted_of_run
    {clock : Timestamp} {table : KeyTable}
    (hFree : table k = none)
    (hRun :
      GrpcTracked svc (Reliable svc (.boot clock table) k)
        (.boot clock table) tr c shs)
    (hNone : acceptances svc tr k = 0) :
    Accounted svc (.boot clock table) k tr c.state shs := by
  induction hRun with
  | nil =>
      constructor
      · intro p entry hEntry
        cases hEntry
      · intro row hRow
        rw [show (GrpcState.boot clock table).table k = none from hFree]
          at hRow
        cases hRow
      · intro orderId hMem
        cases hMem
      · intro n hMem
        cases hMem
      · rintro ⟨n, pre, e, post, c', hSplit, _⟩
        simp at hSplit
      · intro n root g hAt
        simp at hAt
  | @snoc tr c c' shs shs' e hRun hCond _ hShadow _ ih =>
      have hCount := acceptances_append_singleton (e := e) (k := k)
        hRun.shadowRun
      have hBefore : acceptances svc tr k = 0 := by omega
      exact (ih hBefore).next rfl hRun hCond hShadow hBefore hNone

/- What was accepted stays accepted. -/
theorem acceptances_earlier
    {s : GrpcState} {pre post : List GrpcEvent}
    (hRun : GrpcShadowRun svc C s₀ tr s shs)
    (hSplit : tr = pre ++ post) :
    acceptances svc pre k ≤ acceptances svc tr k := by
  induction hRun generalizing post with
  | nil =>
      rw [(List.nil_eq_append_iff.mp hSplit).1]
  | @snoc tr s s' shs shs' e hRun hCond hStep ih =>
      rcases List.eq_nil_or_concat post with rfl | ⟨post', last, hPost⟩
      · rw [hSplit, List.append_nil]
      · rw [hPost, List.concat_eq_append, ← List.append_assoc] at hSplit
        have hOld := ih (List.append_inj' hSplit rfl).1
        rw [acceptances_append_singleton hRun]
        omega

/- Without an order, success is only told on another's word. -/
theorem relied_of_succeeded
    (hRun : GrpcTracked svc C s₀ tr c shs)
    (hAcc : Accounted svc s₀ k tr c.state shs)
    (hSucceeded : Succeeded k c) :
    ∃ n, ReliedOn svc s₀ k n tr := by
  rcases hSucceeded with ⟨⟨root, prog⟩, hMem, hKey, hDone⟩
  rcases List.getElem?_of_mem hMem with ⟨tid, hTask⟩
  rcases hRun.shadow_of_task hTask with ⟨⟨root', phase⟩, hAt, hRoot, hProg⟩
  dsimp only at hRoot hProg hKey
  subst hRoot
  have hResponse :
      ∃ response,
        prog = some (.done (.ok response)) ∧ response.success = true := by
    unfold GrpcTask.succeeded at hDone
    split at hDone
    · rename_i response hEq
      exact ⟨response, hEq, hDone⟩
    · cases hDone
  rcases hResponse with ⟨response, rfl, hSuccess⟩
  cases phase with
  | none => exact hProg.elim
  | some g =>
      have hAnswers : Answers (.ok response) g := hProg
      rcases hAcc.phases tid root g hAt hKey with ⟨hNot, hDeferred⟩
      rcases hAnswers.of_success hSuccess with hOrdered | hIs
      · rw [hNot] at hOrdered
        cases hOrdered
      · exact hDeferred hIs

end Steps

/-
  Where nobody relies on a handler that has failed or is going
  to, whoever is told of success has an order once all
  handlers of the key have finished.
-/
theorem honoured_of_reliable
    (svc : BotService)
    (clock : Timestamp)
    (table : KeyTable)
    {k : String}
    {tr : List GrpcEvent}
    {c : GrpcConfig}
    (hFree : table k = none)
    (hRun :
      Machine.Run svc.machine (Reliable svc (.boot clock table) k)
        (.boot clock table) tr c) :
    Honoured svc (.boot clock table) k tr c := by
  rintro ⟨pre, post, c', hSplit, hPre, hSucceeded⟩ hFinished
  by_contra hNot
  have hNone : acceptances svc tr k = 0 := by omega
  rcases Protocol.trackedRun_of_run svc.follows hRun with ⟨shs, hTracked⟩
  rcases hRun.earlier hSplit with ⟨c₁, hBefore⟩
  have hSame : c' = c₁ := hPre.unique hBefore
  subst hSame
  rcases Protocol.trackedRun_of_run svc.follows hBefore with
    ⟨shs₁, hTracked₁⟩
  have hNone₁ : acceptances svc pre k = 0 := by
    have hLe := acceptances_earlier (k := k) hTracked.shadowRun hSplit
    omega
  have hRelied :=
    relied_of_succeeded hTracked₁
      (accounted_of_run hFree hTracked₁ hNone₁) hSucceeded
  have hLater : ∃ n, ReliedOn svc (.boot clock table) k n tr := by
    rw [hSplit]
    exact hRelied.imp fun n hN => hN.later
  rcases (accounted_of_run hFree hTracked hNone).told hLater with
    ⟨n, _, root, g, hAt, hWorking⟩
  rcases hTracked.task_of_shadow hAt with
    ⟨⟨root', prog⟩, hTask, hRoot, hProg⟩
  dsimp only at hRoot hProg
  subst hRoot
  cases prog with
  | none => exact hProg.elim
  | some p =>
      rcases leads_of_working hProg hWorking with ⟨op, cont, rfl, _⟩
      rcases GrpcPhase.working_inv hWorking with ⟨h, hKey, hStage⟩
      have hNames := phase_names hTracked.shadowRun hAt
      have hRoot : root'.req.idempotencyKey = k := by
        rcases hStage with rfl | rfl | rfl <;>
          · rw [← hKey, hNames.1]
            rfl
      have hOver :=
        hFinished _ (List.mem_of_getElem? hTask) hRoot
      cases hOver

/- A failure of a handler, or what may be one. -/
def mayFail : GrpcEvent → Bool
  | .op _ (.key _) _ (.error _) => true
  | .op _ (.submitOrder _ _) _ (.error _) => true
  | .ext (.drop _) => true
  | .ext (.restart _) => true
  | _ => false

theorem mayFail_of_fails
    {c : GrpcConfig} {n : Nat} {e : GrpcEvent}
    (hFails : Fails c n e) :
    mayFail e = true := by
  unfold Fails at hFails
  split at hFails
  · rfl
  · rfl
  · rfl
  · exact hFails.elim
  · rename_i ext
    rcases hFails with ⟨root, op, cont, _, _, hKills⟩
    cases ext with
    | drop n => rfl
    | restart p => rfl
    | _ => cases hKills

/- Where no handler fails everybody may be relied on. -/
theorem reliable_of_quiet
    {svc : BotService} {s₀ : GrpcState} {k : String}
    {tr : List GrpcEvent} {c : GrpcConfig}
    (hRun : Machine.Run svc.machine Machine.anyStep s₀ tr c)
    (hQuiet : ∀ e ∈ tr, mayFail e = false) :
    Machine.Run svc.machine (Reliable svc s₀ k) s₀ tr c := by
  refine hRun.meets ?_
  rintro pre post e c' rfl _ _ c₁ _ n
  refine ⟨?_, ?_⟩
  · rintro _ ⟨pre', e', post', c₂, rfl, _, hFails⟩
    have hNot := hQuiet e' (by simp)
    rw [mayFail_of_fails hFails] at hNot
    cases hNot
  · intro hFails
    have hNot := hQuiet e (by simp)
    rw [mayFail_of_fails hFails] at hNot
    cases hNot

/- Two processes take up one request; both callers have an order. -/
theorem exists_honoured :
    ∃ (tr : List GrpcEvent) (c : GrpcConfig),
      successes c = 2 ∧ 0 < acceptances sampleService tr "k" := by
  have hPlay :=
    Machine.exists_run_of_play sampleService.machine sampleGrpcState
      duplicateSchedule
      (fun tr c =>
        decide (successes c = 2 ∧ Succeeded "k" c ∧ Finished "k" c ∧
          ∀ e ∈ tr, mayFail e = false))
      (by decide +kernel)
  rcases hPlay with ⟨tr, c, hRun, hShown⟩
  rcases of_decide_eq_true hShown with
    ⟨hBoth, hSucceeded, hFinished, hQuiet⟩
  exact ⟨tr, c, hBoth,
    honoured_of_reliable sampleService 0 (fun _ => none) rfl
      (reliable_of_quiet hRun hQuiet)
      ⟨tr, [], c, (List.append_nil _).symm, hRun, hSucceeded⟩ hFinished⟩

/-
  A request places its placeholder; its duplicate is told that
  the order is being processed.  Then the check of the table
  fails, and the first caller is asked to retry.
-/
def placeholderSchedule : List (Machine.Choice GrpcOutcome GrpcExt) :=
  [arrives 0 0 "k", arrives 1 0 "k"] ++
    grpcSteps 0 [.plain] ++ grpcSteps 1 [.plain] ++
    grpcSteps 0 [.delivery (.failed ⟨"connection closed"⟩), .plain]

theorem not_honoured :
    ¬∀ (svc : BotService) (clock : Timestamp) (table : KeyTable)
        (k : String) (tr : List GrpcEvent) (c : GrpcConfig),
      table k = none →
        Machine.Run svc.machine Machine.anyStep (.boot clock table) tr c →
          Honoured svc (.boot clock table) k tr c := by
  intro hAll
  have hPlay :=
    Machine.exists_run_of_play sampleService.machine sampleGrpcState
      placeholderSchedule
      (fun tr c =>
        decide (Succeeded "k" c ∧ Finished "k" c ∧
          acceptances sampleService tr "k" = 0))
      (by decide +kernel)
  rcases hPlay with ⟨tr, c, hRun, hShown⟩
  rcases of_decide_eq_true hShown with ⟨hSucceeded, hFinished, hNone⟩
  have hSome :=
    hAll sampleService 0 (fun _ => none) "k" tr c rfl hRun
      ⟨tr, [], c, (List.append_nil _).symm, hRun, hSucceeded⟩ hFinished
  omega

end Pumpy
