import Mathlib.Data.List.Pairwise
import Pumpy.Engine.Approval

/-
  Retries and landed trades.  A pass gives a submission up
  when the request fails, when the bundle is reported failed,
  or when its deadline passes; it then submits again, although
  what it has given up may still land.  What it has not given
  up stands, and no order ever has two standing submissions.

  Key definitions include:
    * `AtMostOneLands`
    * `Standing`
    * `standing`
    * `OneStands`

  The main results are `not_atMostOneLands` and
  `oneStands_of_run`.
-/

------------------------------------------------------------
-- Landed Trades
------------------------------------------------------------

namespace Pumpy

open Interleaving

/- The order a task passes. -/
def passId (roots : List Root) (tid : Nat) : Option OrderId :=
  match roots[tid]? with
  | some (.processOrder o) => some o.id
  | _ => none

/- Some pass of the order has submitted the transaction. -/
def SubmittedFor
    (om : OrderManager)
    (tr : List OmEvent)
    (id : OrderId)
    (tx : Transaction) : Prop :=
  ∃ tid op env r,
    .op tid op env r ∈ tr ∧ op.submits = some tx ∧
      passId (om.machine.rootsIn tr) tid = some id

/- No two trades submitted for one order have landed. -/
def AtMostOneLands
    (om : OrderManager)
    (tr : List OmEvent)
    (landed : List Transaction) : Prop :=
  ∀ id tx tx',
    tx ∈ landed → tx' ∈ landed →
      SubmittedFor om tr id tx → SubmittedFor om tr id tx' →
        tx = tx'

/- The trace shows a submission for the order. -/
def showsSubmission
    (om : OrderManager)
    (id : OrderId)
    (tx : Transaction)
    (tr : List OmEvent) : Bool :=
  tr.any fun e =>
    match e with
    | .op tid op _ _ =>
        op.submits = some tx ∧
          passId (om.machine.rootsIn tr) tid = some id
    | .ext _ => false

theorem submittedFor_of_shows
    {om : OrderManager} {id : OrderId} {tx : Transaction}
    {tr : List OmEvent}
    (hShows : showsSubmission om id tx tr = true) :
    SubmittedFor om tr id tx := by
  rcases List.any_eq_true.mp hShows with ⟨e, hMem, hEvent⟩
  cases e with
  | op tid op env r =>
      have hBoth := of_decide_eq_true hEvent
      exact ⟨tid, op, env, r, hMem, hBoth.1, hBoth.2⟩
  | ext e => cases hEvent

/- A manager that submits bundles, without simulation. -/
def bundleManager : OrderManager :=
  { sampleManager with
    mevEnabled := true
    jitoClient := some ⟨none⟩ }

/- The trade of the sample order over a given blockhash. -/
def bundleTrade (recentBlockhash : Hash) : Transaction where
  instructions :=
    [bundleManager.tradeInstruction ⟨Vector.replicate 32 2⟩
      (sampleOrder "a" 1000) 1010]
  payer := bundleManager.payer
  recentBlockhash := recentBlockhash

/-
  A pass whose first bundle is accepted although its reply is
  lost, and whose second bundle is accepted as well.
-/
def lostReplySchedule : List (Machine.Choice Outcome Ext) :=
  [.ext (.submitOrder (sampleOrder "" 1000))] ++
    acceptSteps 0 "a" [] ++
    [.ext (.recv (sampleOrder "a" 1000))] ++
    gateSteps 1
      [{ sampleOrder "a" 1000 with status := .validating }] ++
    steps 1
      [.time 0, .plain,
        .setting none, .deadline false, .setting none, .deadline false,
        .setting none, .deadline false, .tipAccount none,
        .setting (some "false"), .deadline false,
        .unit (.ok ()), .deadline false,
        .blockhash (.ok 7), .deadline false,
        .submit true (.error "connection reset"), .deadline false,
        .plain, .deadline false,
        .unit (.ok ()), .deadline false,
        .blockhash (.ok 8), .deadline false,
        .submit true (.ok "bundle"), .deadline false] ++
    [.ext (.land (bundleTrade 8)), .ext (.land (bundleTrade 7))]

/- A lost reply lets two trades of one order land. -/
theorem not_atMostOneLands :
    ¬∀ (om : OrderManager) (db : Database) (chain : Chain)
      (seenIds : List OrderId) (tr : List OmEvent) (c : OmConfig),
      Machine.Run om.machine Machine.anyStep
          (State.boot db chain seenIds) tr c →
        AtMostOneLands om tr c.state.chain.landed := by
  intro hAll
  have hPlay :=
    Machine.exists_run_of_play bundleManager.machine
      (sampleState .enabled) lostReplySchedule
      (fun tr c =>
        showsSubmission bundleManager "a" (bundleTrade 7) tr &&
          showsSubmission bundleManager "a" (bundleTrade 8) tr &&
          decide (bundleTrade 7 ∈ c.state.chain.landed ∧
            bundleTrade 8 ∈ c.state.chain.landed))
      (by decide +kernel)
  rcases hPlay with ⟨tr, c, hRun, hShows⟩
  simp only [Bool.and_eq_true, decide_eq_true_eq] at hShows
  rcases hShows with ⟨⟨hSeven, hEight⟩, hLanded⟩
  have hEq :=
    hAll bundleManager _ _ _ tr c hRun "a" (bundleTrade 7)
      (bundleTrade 8) hLanded.1 hLanded.2
      (submittedFor_of_shows hSeven) (submittedFor_of_shows hEight)
  exact absurd (congrArg Transaction.recentBlockhash hEq) (by decide)

------------------------------------------------------------
-- Standing Submissions
------------------------------------------------------------

/- A submission, and the reply that acknowledged it. -/
structure Standing where
  tid : Nat
  tx : Transaction
  reply : String
deriving DecidableEq

/- The submissions that stand after one more event. -/
def standStep (l : List Standing) : OmEvent → List Standing
  | .op tid (.chain (.sendBundle tx)) _ (.ok bundleId) =>
      ⟨tid, tx, bundleId⟩ :: l
  | .op tid (.chain (.sendAndConfirmTransaction tx)) _ (.ok sig) =>
      ⟨tid, tx, sig⟩ :: l
  | .op tid (.chain (.getBundleStatus bundleId)) _ (.ok "failed") =>
      l.filter fun x => ¬(x.tid = tid ∧ x.reply = bundleId)
  | .op tid (.sys .timer) _ true =>
      l.filter fun x => x.tid ≠ tid
  | _ => l

/-
  The submissions no pass has given up: acknowledged, not
  reported failed since, and not followed by the deadline.
-/
def standing (tr : List OmEvent) : List Standing :=
  tr.foldl standStep []

@[simp] theorem standing_append_singleton
    (tr : List OmEvent)
    (e : OmEvent) :
    standing (tr ++ [e]) = standStep (standing tr) e := by
  simp [standing]

/- The submission stands, and is one of the order. -/
def StandsFor
    (om : OrderManager)
    (tr : List OmEvent)
    (id : OrderId)
    (x : Standing) : Prop :=
  x ∈ standing tr ∧ passId (om.machine.rootsIn tr) x.tid = some id

/-
  No order has two standing submissions, so at most one trade
  that lands for it is not one its passes had given up.
-/
structure OneStands
    (om : OrderManager)
    (tr : List OmEvent)
    (landed : List Transaction) : Prop where
  distinct :
    (standing tr).Pairwise fun x y =>
      ∀ id, StandsFor om tr id x → ¬StandsFor om tr id y
  lands :
    ∀ id x y,
      StandsFor om tr id x → StandsFor om tr id y →
        x.tx ∈ landed → y.tx ∈ landed → x.tx = y.tx

------------------------------------------------------------
-- Passes and Their Submissions
------------------------------------------------------------

/- What a pass has to do with its submissions. -/
inductive Stand where
  | before : Stand
  | running (live : Option String) : Stand
  | left : Stand
deriving DecidableEq

def Phase.stand : Phase → Stand
  | executing _ _ live => .running live
  | exiting _ _ => .left
  | finished => .left
  | _ => .before

section Moves

variable {om : OrderManager} {g g' : Phase} {op : Op}
variable {env : Outcome} {r : op.Resp} {tid : Nat}

/- Operations with no other effect do not touch submissions. -/
theorem standStep_of_neutral
    (l : List Standing)
    (hNeutral : op.neutral = true) :
    standStep l (.op tid op env r) = l := by
  rcases op with op | op | op | op | op | op | op <;> cases op <;>
    first
    | rfl
    | cases hNeutral

theorem standStep_of_announces
    (l : List Standing)
    {p : OrderId × OrderStatus}
    (hOp : op.announces = some p) :
    standStep l (.op tid op env r) = l := by
  rcases op with op | op | op | op | op | op | op <;> cases op <;>
    first
    | rfl
    | cases hOp

/-
  What one move does to the submissions that stand, and to the
  pass they belong to.
-/
inductive StandMove
    (tid : Nat)
    (op : Op)
    (l : List Standing) :
    Phase → Phase → List Standing → Prop
  | keep
      {g g' : Phase}
      (hSame : g'.stand = g.stand) :
      StandMove tid op l g g' l
  | early
      {g g' : Phase}
      (hBefore : g.stand = .before) :
      StandMove tid op l g g' l
  | add
      {o : Order} {active : List Order} {tx : Transaction}
      {reply : String} :
      StandMove tid op l (.executing o active none)
        (.executing o active (some reply)) (⟨tid, tx, reply⟩ :: l)
  | giveUp
      {o : Order} {active : List Order} {live : Option String}
      {l' : List Standing}
      (hRest :
        ∀ x ∈ l', x ∈ l ∧ (x.tid = tid → some x.reply ≠ live))
      (hSub : l'.Sublist l) :
      StandMove tid op l (.executing o active live)
        (.executing o active none) l'
  | leave
      {o : Order} {active : List Order} {live : Option String}
      {g' : Phase}
      (hLeft : g'.stand = .left)
      (hReleased : g'.carries = none)
      (hSends : op.sends = none) :
      StandMove tid op l (.executing o active live) g' l
  | requeue
      {o : Order} {active : List Order} {g' : Phase} :
      StandMove tid op l (.executing o active none) g' l

theorem OrderManager.Move.standMove
    (tid : Nat)
    (env : Outcome)
    (l : List Standing)
    (hMove : om.Move g op r g') :
    StandMove tid op l g g' (standStep l (.op tid op env r)) := by
  cases hMove with
  | idle hNeutral hOpen =>
      rw [standStep_of_neutral l hNeutral]
      exact .keep rfl
  | announce hOp hMay =>
      rw [standStep_of_announces l hOp]
      exact .keep rfl
  | @close g o o' r hId hMay =>
      cases g with
      | reading gate o => exact .early rfl
      | refused o => exact .early rfl
      | executing o act live =>
          refine .leave ?_ ?_ rfl
          · split <;> rfl
          · split <;> rfl
      | _ => exact hMay.elim
  | @bundle o active tx r hTrades =>
      cases r with
      | error e => exact .keep rfl
      | ok bundleId => exact .add
  | @direct o active tx r hTrades =>
      cases r with
      | error e => exact .keep rfl
      | ok sig => exact .add
  | @poll o active bundleId r =>
      cases r with
      | error e => exact .keep rfl
      | ok status =>
          by_cases hFailed : status = "failed"
          · subst hFailed
            refine .giveUp ?_ List.filter_sublist
            intro x hMem
            have hKept := List.mem_filter.mp hMem
            refine ⟨hKept.1, fun hTid hReply => ?_⟩
            have hSame : x.reply = bundleId := Option.some.inj hReply
            simp [hTid, hSame] at hKept
          · have hLive :
                (if (Except.ok status : Except String String).toOption
                    = some "failed" then none else some bundleId)
                  = some bundleId := by
              simp [Except.toOption, hFailed]
            have hStep :
                standStep l
                  (.op tid (.chain (.getBundleStatus bundleId)) env
                    (.ok status)) = l := by
              unfold standStep
              split <;> simp_all
            rw [hStep, hLive]
            exact .keep rfl
  | @deadline o active live b =>
      cases b with
      | false => exact .keep rfl
      | true =>
          refine .giveUp ?_ List.filter_sublist
          intro x hMem
          have hKept := List.mem_filter.mp hMem
          refine ⟨hKept.1, fun hTid => ?_⟩
          simp [hTid] at hKept
  | requeue hId => exact .requeue
  | exitLock => exact .keep rfl
  | exitRemove hId => exact .keep rfl
  | exitUnlock => exact .keep rfl
  | _ => exact .early rfl

end Moves

------------------------------------------------------------
-- The Invariant
------------------------------------------------------------

section Invariant

variable {om : OrderManager} {C : OmCond}
variable {db : Database} {chain : Chain} {seenIds : List OrderId}
variable {tr : List OmEvent} {s s' : State}
variable {shs shs' : List (Shadow Root Phase)}

/-
  Where the pass of a standing submission is: it still waits
  on that submission, or it has left and its order is gone.
-/
def Located
    (s : State)
    (shs : List (Shadow Root Phase))
    (x : Standing) : Prop :=
  ∃ o phase,
    shs[x.tid]? = some ⟨.processOrder o, phase⟩ ∧
      o.id ∈ s.seenIds ∧
        ((∃ g, phase = some g ∧ g.stand = .running (some x.reply)) ∨
          ((∀ g, phase = some g → g.stand = .left) ∧
            o.id ∉ holders s shs))

/- Standing submissions are located and belong to distinct orders. -/
structure StandInv
    (om : OrderManager)
    (tr : List OmEvent)
    (s : State)
    (shs : List (Shadow Root Phase)) : Prop where
  located : ∀ x ∈ standing tr, Located s shs x
  distinct :
    (standing tr).Pairwise fun x y =>
      passId (om.machine.rootsIn tr) x.tid ≠
        passId (om.machine.rootsIn tr) y.tid

/- A task that waits on a submission carries its own order. -/
theorem carries_of_running
    {tid : Nat} {o : Order} {g : Phase} {live : Option String}
    (hRun :
      OmShadowRun om C (State.boot db chain seenIds) tr s shs)
    (hAt : shs[tid]? = some ⟨.processOrder o, some g⟩)
    (hStand : g.stand = .running live) :
    g.carries = some o.id := by
  have hHistory := history_of_shadowRun hRun hAt
  cases g with
  | executing v active live' =>
      rcases hHistory with ⟨⟨o', hEq, rfl⟩, _⟩
      cases hEq
      rfl
  | _ => cases hStand

/- The number of a located submission names the order of its pass. -/
theorem Located.passId
    {x : Standing}
    (tr' : List OmEvent)
    (hRun :
      OmShadowRun om C (State.boot db chain seenIds) tr s shs)
    (hLocated : Located s shs x) :
    ∃ o phase,
      shs[x.tid]? = some ⟨.processOrder o, phase⟩ ∧
        passId (om.machine.rootsIn (tr ++ tr')) x.tid = some o.id := by
  rcases hLocated with ⟨o, phase, hAt, _⟩
  have hRoot :
      (om.machine.rootsIn (tr ++ tr'))[x.tid]? =
        some (.processOrder o) :=
    root_of_shadow hRun rfl hAt
  exact ⟨o, phase, hAt, by simp only [Pumpy.passId, hRoot]⟩

/- The orders of located submissions stay distinct. -/
theorem distinct_append
    {l : List Standing}
    (tr' : List OmEvent)
    (hRun :
      OmShadowRun om C (State.boot db chain seenIds) tr s shs)
    (hLocated : ∀ x ∈ l, Located s shs x)
    (hDistinct :
      l.Pairwise fun x y =>
        Pumpy.passId (om.machine.rootsIn tr) x.tid ≠
          Pumpy.passId (om.machine.rootsIn tr) y.tid) :
    l.Pairwise fun x y =>
      Pumpy.passId (om.machine.rootsIn (tr ++ tr')) x.tid ≠
        Pumpy.passId (om.machine.rootsIn (tr ++ tr')) y.tid := by
  have hSame :
      ∀ x ∈ l,
        Pumpy.passId (om.machine.rootsIn (tr ++ tr')) x.tid =
          Pumpy.passId (om.machine.rootsIn tr) x.tid := by
    intro x hMem
    rcases (hLocated x hMem).passId tr' hRun with
      ⟨o, phase, hAt, hNew⟩
    have hOld :
        (om.machine.rootsIn tr)[x.tid]? = some (.processOrder o) :=
      root_of_shadow hRun (List.append_nil tr).symm hAt
    rw [hNew]
    simp only [Pumpy.passId, hOld]
  refine hDistinct.imp_of_mem ?_
  intro x y hX hY hNe
  rw [hSame x hX, hSame y hY]
  exact hNe

section Operation

variable {tid : Nat} {root : Root} {g g' : Phase} {op : Op}
variable {env : Outcome} {r : op.Resp}

/- A submission of another task stays located. -/
theorem Located.other
    {x : Standing}
    (hLocated : Located s shs x)
    (hNe : x.tid ≠ tid)
    (hPhase : shs[tid]? = some ⟨root, some g⟩)
    (hMove : om.Move g op r g')
    (hExec : State.exec op env s = some (r, s')) :
    Located s' (shadowsAfter om shs tid root g' op) x := by
  rcases hLocated with ⟨o, phase, hAt, hSeen, hWhere⟩
  have hAt' :
      (shadowsAfter om shs tid root g' op)[x.tid]? =
        some ⟨.processOrder o, phase⟩ :=
    shadowsAfter_other hNe hAt
  have hSeen' : o.id ∈ s'.seenIds := by
    rw [(exec_seenIds hExec).2]
    exact List.mem_append_right _ hSeen
  refine ⟨o, phase, hAt', hSeen', ?_⟩
  rcases hWhere with hWaits | ⟨hLeft, hGone⟩
  · exact .inl hWaits
  · exact .inr
      ⟨hLeft, not_holder_op hPhase hMove hExec hSeen hGone⟩

/- A located submission of the moving task, by its phase. -/
theorem Located.self
    {x : Standing}
    (hLocated : Located s shs x)
    (hTid : x.tid = tid)
    (hPhase : shs[tid]? = some ⟨root, some g⟩) :
    ∃ o, root = .processOrder o ∧ o.id ∈ s.seenIds ∧
      (g.stand = .running (some x.reply) ∨
        (g.stand = .left ∧ o.id ∉ holders s shs)) := by
  rcases hLocated with ⟨o, phase, hAt, hSeen, hWhere⟩
  rw [hTid, hPhase] at hAt
  cases hAt
  refine ⟨o, rfl, hSeen, ?_⟩
  rcases hWhere with ⟨g₁, hEq, hStand⟩ | ⟨hLeft, hGone⟩
  · cases hEq
    exact .inl hStand
  · exact .inr ⟨hLeft g rfl, hGone⟩

/- A task that waits on nothing has nothing standing. -/
theorem StandInv.not_standing
    {x : Standing}
    (hInv : StandInv om tr s shs)
    (hPhase : shs[tid]? = some ⟨root, some g⟩)
    (hNothing : g.stand = .before ∨ g.stand = .running none)
    (hMem : x ∈ standing tr) :
    x.tid ≠ tid := by
  intro hTid
  rcases (hInv.located x hMem).self hTid hPhase with
    ⟨o, _, _, hWaits | ⟨hLeft, _⟩⟩
  · rcases hNothing with hBefore | hRunning
    · rw [hBefore] at hWaits
      cases hWaits
    · rw [hRunning] at hWaits
      cases hWaits
  · rcases hNothing with hBefore | hRunning
    · rw [hBefore] at hLeft
      cases hLeft
    · rw [hRunning] at hLeft
      cases hLeft

/- Nothing stands for the order of a pass that waits on nothing. -/
theorem StandInv.fresh
    {x : Standing} {o o' : Order} {phase : Option Phase}
    (hInv : StandInv om tr s shs)
    (hRun :
      OmShadowRun om C (State.boot db chain seenIds) tr s shs)
    (hPhase : shs[tid]? = some ⟨.processOrder o, some g⟩)
    (hStand : g.stand = .running none)
    (hMem : x ∈ standing tr)
    (hAt : shs[x.tid]? = some ⟨.processOrder o', phase⟩) :
    o.id ≠ o'.id := by
  intro hEq
  have hOwned := owned_of_shadowRun hRun
  have hCarried := carries_of_running hRun hPhase hStand
  have hHeld : o.id ∈ holders s shs :=
    List.mem_append_right _
      (Protocol.mem_held.mpr ⟨tid, _, _, hPhase, hCarried⟩)
  rcases hInv.located x hMem with ⟨o₁, phase₁, hAt₁, _, hWhere⟩
  rw [hAt] at hAt₁
  cases hAt₁
  rcases hWhere with ⟨g₁, rfl, hWaits⟩ | ⟨_, hGone⟩
  · have hCarries := carries_of_running hRun hAt hWaits
    rw [hEq] at hCarried
    exact hInv.not_standing hPhase (.inr hStand) hMem
      (hOwned.unique hAt hPhase hCarries hCarried)
  · exact hGone (hEq ▸ hHeld)

/- While its task waits as before, a submission stays located. -/
theorem Located.kept
    {x : Standing}
    (hLocated : Located s shs x)
    (hSame : g'.stand = g.stand)
    (hPhase : shs[tid]? = some ⟨root, some g⟩)
    (hMove : om.Move g op r g')
    (hExec : State.exec op env s = some (r, s')) :
    Located s' (shadowsAfter om shs tid root g' op) x := by
  have hAfter :
      (shadowsAfter om shs tid root g' op)[tid]? =
        some ⟨root, some g'⟩ :=
    shadowsAfter_self hPhase
  by_cases hTid : x.tid = tid
  · rcases hLocated.self hTid hPhase with ⟨o, rfl, hSeen, hWhere⟩
    have hSeen' : o.id ∈ s'.seenIds := by
      rw [(exec_seenIds hExec).2]
      exact List.mem_append_right _ hSeen
    refine ⟨o, some g', hTid ▸ hAfter, hSeen', ?_⟩
    rcases hWhere with hWaits | ⟨hLeft, hGone⟩
    · exact .inl ⟨g', rfl, hSame.trans hWaits⟩
    · refine .inr ⟨fun g₁ hEq => ?_, ?_⟩
      · cases hEq
        exact hSame.trans hLeft
      · exact not_holder_op hPhase hMove hExec hSeen hGone
  · exact hLocated.other hTid hPhase hMove hExec

/- It is left standing when its task lets its order go. -/
theorem Located.leaves
    {x : Standing} {v : Order} {active : List Order}
    {live : Option String}
    (hLocated : Located s shs x)
    (hRun :
      OmShadowRun om C (State.boot db chain seenIds) tr s shs)
    (hPhase : shs[tid]? = some ⟨root, some (.executing v active live)⟩)
    (hMove : om.Move (.executing v active live) op r g')
    (hExec : State.exec op env s = some (r, s'))
    (hLeft : g'.stand = .left)
    (hReleased : g'.carries = none)
    (hSends : op.sends = none) :
    Located s' (shadowsAfter om shs tid root g' op) x := by
  have hAfter :
      (shadowsAfter om shs tid root g' op)[tid]? =
        some ⟨root, some g'⟩ :=
    shadowsAfter_self hPhase
  by_cases hTid : x.tid = tid
  · rcases hLocated.self hTid hPhase with ⟨o, rfl, hSeen, _⟩
    have hOwned := owned_of_shadowRun hRun
    have hCarried := carries_of_running hRun hPhase rfl
    have hSeen' : o.id ∈ s'.seenIds := by
      rw [(exec_seenIds hExec).2]
      exact List.mem_append_right _ hSeen
    refine ⟨o, some g', hTid ▸ hAfter, hSeen', .inr ?_⟩
    refine ⟨fun g₁ hEq => ?_, ?_⟩
    · cases hEq
      exact hLeft
    · exact hOwned.released hPhase hExec hCarried hReleased hSends
  · exact hLocated.other hTid hPhase hMove hExec

/- A new submission is that of the task, and of no other order. -/
theorem StandInv.added
    {v : Order} {active : List Order}
    (tx : Transaction)
    (reply : String)
    (hInv : StandInv om tr s shs)
    (hRun :
      OmShadowRun om C (State.boot db chain seenIds) tr s shs)
    (hPhase : shs[tid]? = some ⟨root, some (.executing v active none)⟩)
    (hExec : State.exec op env s = some (r, s')) :
    Located s'
        (shadowsAfter om shs tid root (.executing v active (some reply))
          op) ⟨tid, tx, reply⟩ ∧
      ∀ x ∈ standing tr,
        passId (om.machine.rootsIn (tr ++ [.op tid op env r])) tid ≠
          passId (om.machine.rootsIn (tr ++ [.op tid op env r]))
            x.tid := by
  rcases history_of_shadowRun hRun hPhase with ⟨⟨o, rfl, rfl⟩, _⟩
  have hHeld : o.id ∈ holders s shs :=
    List.mem_append_right _
      (Protocol.mem_held.mpr ⟨tid, _, _, hPhase, rfl⟩)
  have hSeen : o.id ∈ s'.seenIds := by
    rw [(exec_seenIds hExec).2]
    exact List.mem_append_right _
      ((owned_of_shadowRun hRun).seen _ hHeld)
  refine ⟨⟨o, _, shadowsAfter_self hPhase, hSeen, .inl ⟨_, rfl, rfl⟩⟩,
    fun x hMem => ?_⟩
  rcases (hInv.located x hMem).passId [.op tid op env r] hRun with
    ⟨o', phase, hAt, hId⟩
  have hOwn :
      (om.machine.rootsIn (tr ++ [.op tid op env r]))[tid]? =
        some (.processOrder o) :=
    root_of_shadow hRun rfl hPhase
  rw [hId]
  simp only [passId, hOwn]
  intro hEq
  exact hInv.fresh hRun hPhase rfl hMem hAt (Option.some.inj hEq)

theorem StandInv.afterOp
    (hInv : StandInv om tr s shs)
    (hRun :
      OmShadowRun om C (State.boot db chain seenIds) tr s shs)
    (hPhase : shs[tid]? = some ⟨root, some g⟩)
    (hMove : om.Move g op r g')
    (hExec : State.exec op env s = some (r, s')) :
    StandInv om (tr ++ [.op tid op env r]) s'
      (shadowsAfter om shs tid root g' op) := by
  have hOther :
      ∀ x ∈ standing tr, x.tid ≠ tid →
        Located s' (shadowsAfter om shs tid root g' op) x :=
    fun x hMem hNe =>
      (hInv.located x hMem).other hNe hPhase hMove hExec
  have hDistinct :=
    distinct_append [.op tid op env r] hRun hInv.located
      hInv.distinct
  have hStand := hMove.standMove tid env (standing tr)
  rw [← standing_append_singleton] at hStand
  generalize hNew : standing (tr ++ [.op tid op env r]) = l' at hStand
  cases hStand with
  | keep hSame =>
      refine ⟨fun x hMem => ?_, by rw [hNew]; exact hDistinct⟩
      rw [hNew] at hMem
      exact (hInv.located x hMem).kept hSame hPhase hMove hExec
  | early hBefore =>
      refine ⟨fun x hMem => ?_, by rw [hNew]; exact hDistinct⟩
      rw [hNew] at hMem
      exact hOther x hMem
        (hInv.not_standing hPhase (.inl hBefore) hMem)
  | @add v active tx reply =>
      have hAdded := StandInv.added tx reply hInv hRun hPhase hExec
      refine ⟨fun x hMem => ?_, ?_⟩
      · rw [hNew] at hMem
        rcases List.mem_cons.mp hMem with rfl | hOld
        · exact hAdded.1
        · exact hOther x hOld
            (hInv.not_standing hPhase (.inr rfl) hOld)
      · rw [hNew]
        exact List.pairwise_cons.mpr ⟨hAdded.2, hDistinct⟩
  | giveUp hRest hSub =>
      refine ⟨fun x hMem => ?_, by rw [hNew]; exact hDistinct.sublist hSub⟩
      rw [hNew] at hMem
      rcases hRest x hMem with ⟨hOld, hGivenUp⟩
      refine hOther x hOld fun hTid => ?_
      rcases (hInv.located x hOld).self hTid hPhase with
        ⟨o, _, _, hWaits | ⟨hLeft, _⟩⟩
      · exact hGivenUp hTid (Stand.running.inj hWaits).symm
      · cases hLeft
  | leave hLeft hReleased hSends =>
      refine ⟨fun x hMem => ?_, by rw [hNew]; exact hDistinct⟩
      rw [hNew] at hMem
      exact (hInv.located x hMem).leaves hRun hPhase hMove hExec hLeft
        hReleased hSends
  | requeue =>
      refine ⟨fun x hMem => ?_, by rw [hNew]; exact hDistinct⟩
      rw [hNew] at hMem
      exact hOther x hMem
        (hInv.not_standing hPhase (.inr rfl) hMem)

end Operation

/- An outside event leaves the standing submissions located. -/
theorem Located.afterExt
    {x : Standing} {e : Ext}
    (hLocated : Located s shs x)
    (hExt : Ext.exec e s = some s') :
    Located s' (shadowsAfterExt om shs e) x := by
  rcases hLocated with ⟨o, phase, hAt, hSeen, hWhere⟩
  have hLt : x.tid < shs.length :=
    (List.getElem?_eq_some_iff.mp hAt).1
  have hSeen' := seenIds_ext hExt o.id hSeen
  by_cases hRestart : e = .restart
  · subst hRestart
    refine ⟨o, none, ?_, hSeen', .inr ⟨fun g hEq => ?_, ?_⟩⟩
    · unfold shadowsAfterExt
      rw [List.getElem?_append_left (by simpa using hLt),
        List.getElem?_mapIdx, hAt]
      rfl
    · cases hEq
    · rw [holders_restart hExt]
      exact List.not_mem_nil
  · refine ⟨o, phase, ?_, hSeen', ?_⟩
    · rw [shadowsAfterExt_of_ne_restart _ _ hRestart,
        List.getElem?_append_left hLt]
      exact hAt
    · rcases hWhere with hWaits | ⟨hLeft, hGone⟩
      · exact .inl hWaits
      · exact .inr ⟨hLeft, not_holder_ext hExt hGone⟩

/- In every run, every order has one standing submission at most. -/
theorem standInv_of_shadowRun
    (hRun :
      OmShadowRun om C (State.boot db chain seenIds) tr s shs) :
    StandInv om tr s shs := by
  induction hRun with
  | nil => exact ⟨fun x hMem => absurd hMem List.not_mem_nil, .nil⟩
  | snoc hRun hCond hStep ih =>
      cases hStep with
      | op hPhase hMove hExec =>
          exact ih.afterOp hRun hPhase hMove hExec
      | ext hExt =>
          refine ⟨fun x hMem => ?_, ?_⟩
          · rw [standing_append_singleton] at hMem
            exact (ih.located x hMem).afterExt hExt
          · rw [standing_append_singleton]
            exact distinct_append _ hRun ih.located ih.distinct

end Invariant

------------------------------------------------------------
-- One Standing Trade
------------------------------------------------------------

/-
  In every run, over all attempts, fallbacks and retries, an
  order has at most one submission its passes have not given
  up, so that at most one such trade lands.
-/
theorem oneStands_of_run
    (om : OrderManager)
    (db : Database)
    (chain : Chain)
    (seenIds : List OrderId)
    {tr : List OmEvent}
    {c : OmConfig}
    (hRun :
      Machine.Run om.machine Machine.anyStep
        (State.boot db chain seenIds) tr c) :
    OneStands om tr c.state.chain.landed := by
  rcases Protocol.shadowRun_of_run om.follows hRun with
    ⟨shs, hShadow⟩
  have hInv := standInv_of_shadowRun hShadow
  have hDistinct :
      (standing tr).Pairwise fun x y =>
        ∀ id, StandsFor om tr id x → ¬StandsFor om tr id y := by
    refine hInv.distinct.imp ?_
    intro x y hNe id hX hY
    exact hNe (hX.2.trans hY.2.symm)
  refine ⟨hDistinct, ?_⟩
  intro id x y hX hY _ _
  by_contra hNe
  have hXY : x ≠ y := fun hEq => hNe (congrArg Standing.tx hEq)
  have hSymm :
      Std.Symm fun x y : Standing =>
        ∀ id, StandsFor om tr id x → ¬StandsFor om tr id y :=
    ⟨fun x y h id hY hX => h id hX hY⟩
  exact hDistinct.forall hX.1 hY.1 hXY id hX hY

/- The two trades of the lost reply land, and one of them stands. -/
theorem exists_oneStands :
    ∃ (tr : List OmEvent) (c : OmConfig),
      c.state.chain.landed = [bundleTrade 7, bundleTrade 8] ∧
        standing tr = [⟨1, bundleTrade 8, "bundle"⟩] ∧
          OneStands bundleManager tr c.state.chain.landed := by
  have hPlay :=
    Machine.exists_run_of_play bundleManager.machine
      (sampleState .enabled) lostReplySchedule
      (fun tr c =>
        decide (c.state.chain.landed = [bundleTrade 7, bundleTrade 8] ∧
          standing tr = [⟨1, bundleTrade 8, "bundle"⟩]))
      (by decide +kernel)
  rcases hPlay with ⟨tr, c, hRun, hBoth⟩
  have hFacts := of_decide_eq_true hBoth
  exact ⟨tr, c, hFacts.1, hFacts.2, oneStands_of_run _ _ _ _ hRun⟩

end Pumpy
