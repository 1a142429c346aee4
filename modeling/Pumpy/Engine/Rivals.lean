import Pumpy.Engine.Bounds
import Pumpy.Engine.Exposure
import Pumpy.Engine.Gauges
import Pumpy.Interleaving.Endings

/-
  Two orders that each fit under the portfolio cap, but not
  both.  A pass puts its order into the active map before it
  reads the map, so each of the two is turned away exactly if
  it reads the other's entry: both are, if both are in the map
  before either reads it.

  Key definitions include:
    * `GateInput`
    * `Passes`
    * `Rival`

  The main results are `not_oneAllowed` and `oneAllowed_iff`.
-/

------------------------------------------------------------
-- What a Gate Is Given
------------------------------------------------------------

namespace Pumpy

open Interleaving

/- What a pass has asked before the rules are applied. -/
structure GateInput where
  score : UInt32
  snapshot : Option BondingCurveParams
  active : List Order
  autoPaused : Bool
deriving DecidableEq

/-
  The input read off the calls of a pass: the first three put
  the order into the map and count it.
-/
def gateInput : List OmCall → Option GateInput
  | _ :: _ :: _ :: ⟨.chain (.analyzeSandwichRisk _ _), score⟩ ::
      ⟨.chain (.getBondingCurveParams _), curve⟩ ::
      ⟨.map .activeValues, active⟩ ::
      ⟨.engine .loadAutoPaused, autoPaused⟩ :: _ =>
      some ⟨score, curve.toOption, active, autoPaused⟩
  | _ => none

namespace GateInput

/- The input as it were without the entry of another order. -/
def without
    (inp : GateInput)
    (id : OrderId) : GateInput :=
  { inp with active := removeById id inp.active }

/- The order was not in the map when the pass read it. -/
def Misses
    (inp : GateInput)
    (id : OrderId) : Prop :=
  id ∉ inp.active.map Order.id

end GateInput

/- What the rules are applied to in a pass of the order. -/
def OrderManager.contextOf
    (om : OrderManager)
    (o : Order)
    (inp : GateInput) : DecisionContext :=
  om.gateContext { o with status := .validating } inp.score inp.snapshot
    inp.active

/- The order satisfies every rule of the gate. -/
structure Passes
    (om : OrderManager)
    (o : Order)
    (inp : GateInput) : Prop where
  unpaused : inp.autoPaused = false
  live : om.demoMode = false
  rules :
    (om.contextOf o inp).verdict om.decisionEngine.profile = .pass

/- The task has returned a decision. -/
def decided (tr : List OmEvent) (tid : Nat) : Bool :=
  tr.any fun e =>
    match e with
    | .op tid' (.engine (.emit _)) _ _ => tid' = tid
    | _ => false

/-
  A pass that has its decision, on an order that satisfies every
  rule but for another order's entry, where it reads one: with
  that the cap is exceeded.
-/
structure Rival
    (om : OrderManager)
    (tr : List OmEvent)
    (tid : Nat)
    (o : Order)
    (other : OrderId)
    (inp : GateInput) : Prop where
  root : (om.machine.rootsIn tr)[tid]? = some (.processOrder o)
  input : gateInput (Machine.calls tr tid) = some inp
  decided : decided tr tid = true
  alone : Passes om o (inp.without other)
  together :
    ¬inp.Misses other →
      (om.contextOf o inp).projectedExposure.gt
        om.config.maxPortfolioExposureSol = true

/- An order of 60 SOL; a cap of 100 has room for one of them. -/
def rivalOrder (id : OrderId) : Order :=
  sampleOrder id 60000000000

/- The map a pass of such an order reads. -/
def rivalInput (ids : List OrderId) : GateInput where
  score := 0
  snapshot := none
  active := ids.map fun id => { rivalOrder id with status := .validating }
  autoPaused := false

/- Two such orders are accepted, and both are received. -/
def rivalArrivals : List (Machine.Choice Outcome Ext) :=
  [.ext (.submitOrder (rivalOrder ""))] ++ acceptSteps 0 "a" [] ++
    [.ext (.submitOrder (rivalOrder ""))] ++ acceptSteps 1 "b" [] ++
    [.ext (.recv (rivalOrder "a")), .ext (.recv (rivalOrder "b"))]

/- Task `tid` puts its order into the map and counts it. -/
def insertSteps (tid : Nat) : List (Machine.Choice Outcome Ext) :=
  steps tid [.plain, .plain, .plain]

/- Task `tid` goes from its first request to its decision. -/
def decideSteps (tid : Nat) (ids : List OrderId) :
    List (Machine.Choice Outcome Ext) :=
  steps tid
    [.risk 0, .curve (.error "no curve"),
      .iteration (rivalInput ids).active, .plain, .plain, .plain]

/- Both are in the map before either reads it. -/
def bothInsertedSchedule : List (Machine.Choice Outcome Ext) :=
  rivalArrivals ++ insertSteps 2 ++ insertSteps 3 ++
    decideSteps 2 ["b", "a"] ++ decideSteps 3 ["b", "a"]

/- What makes task `tid` a rival that has read this map. -/
def isRival
    (tr : List OmEvent)
    (tid : Nat)
    (id : OrderId)
    (ids : List OrderId) : Bool :=
  (capManager.machine.rootsIn tr)[tid]? =
      some (.processOrder (rivalOrder id)) &&
    gateInput (Machine.calls tr tid) = some (rivalInput ids) &&
      decided tr tid

theorem rival_of_isRival
    {tr : List OmEvent} {tid : Nat} {id other : OrderId}
    {ids : List OrderId}
    (hRival : isRival tr tid id ids = true)
    (hAlone :
      (capManager.contextOf (rivalOrder id)
        ((rivalInput ids).without other)).verdict
          capManager.decisionEngine.profile = .pass)
    (hTogether :
      other ∈ (rivalInput ids).active.map Order.id →
        (capManager.contextOf (rivalOrder id)
          (rivalInput ids)).projectedExposure.gt
            capManager.config.maxPortfolioExposureSol = true) :
    Rival capManager tr tid (rivalOrder id) other (rivalInput ids) := by
  simp only [isRival, Bool.and_eq_true, decide_eq_true_eq] at hRival
  rcases hRival with ⟨⟨hRoot, hInput⟩, hDecided⟩
  refine ⟨hRoot, hInput, hDecided, ⟨rfl, rfl, hAlone⟩, ?_⟩
  intro hReads
  exact hTogether (not_not.mp hReads)

/- Each is turned away for the other's sake. -/
theorem not_oneAllowed :
    ¬∀ (om : OrderManager) (db : Database) (chain : Chain)
      (seenIds : List OrderId) (tr : List OmEvent) (c : OmConfig)
      (tid tid' : Nat) (o o' : Order) (inp inp' : GateInput),
      Machine.Run om.machine Machine.anyStep
          (State.boot db chain seenIds) tr c →
        Rival om tr tid o o'.id inp →
          Rival om tr tid' o' o.id inp' →
            allowed tr tid = true ∨ allowed tr tid' = true := by
  intro hAll
  have hPlay :=
    Machine.exists_run_of_play capManager.machine
      (sampleState .enabled) bothInsertedSchedule
      (fun tr _ =>
        isRival tr 2 "a" ["b", "a"] && isRival tr 3 "b" ["b", "a"] &&
          !allowed tr 2 && !allowed tr 3)
      (by decide +kernel)
  rcases hPlay with ⟨tr, c, hRun, hShown⟩
  simp only [Bool.and_eq_true, Bool.not_eq_true'] at hShown
  rcases hShown with ⟨⟨⟨hFirst, hSecond⟩, hRefused⟩, hRefused'⟩
  have hOne :=
    hAll capManager _ _ _ tr c 2 3 (rivalOrder "a") (rivalOrder "b") _ _
      hRun
      (rival_of_isRival hFirst (by decide +kernel)
        fun _ => by decide +kernel)
      (rival_of_isRival hSecond (by decide +kernel)
        fun _ => by decide +kernel)
  rw [hRefused, hRefused'] at hOne
  simp at hOne

------------------------------------------------------------
-- Decisions
------------------------------------------------------------

theorem gateInput_append
    {h : List OmCall} {inp : GateInput}
    (t : List OmCall)
    (hInput : gateInput h = some inp) :
    gateInput (h ++ t) = some inp := by
  unfold gateInput at hInput
  split at hInput
  · exact hInput
  · cases hInput

section Decisions

variable {om : OrderManager} {o : Order} {rec : AuditRecord}
variable {h : List OmCall} {t : OmProg (Except OrderError Unit)}

/- A call before the decision. -/
theorem emits_rest
    {α : Type} {op : Op} {k : op.Resp → OmProg α} {u : Unit}
    {p : OmProg α}
    (hAfter : (Prog.act op k).After h p)
    (hMem : ⟨.engine (.emit rec), u⟩ ∈ h)
    (hOther : ∀ rec, op ≠ .engine (.emit rec)) :
    ∃ r h',
      h = ⟨op, r⟩ :: h' ∧ (k r).After h' p ∧
        ⟨.engine (.emit rec), u⟩ ∈ h' := by
  rcases hAfter.act_inv with ⟨rfl, _⟩ | ⟨r, h', rfl, hRest⟩
  · cases hMem
  · refine ⟨r, h', rfl, hRest, ?_⟩
    rcases List.mem_cons.mp hMem with hEq | hOld
    · cases hEq
      exact absurd rfl (hOther rec)
    · exact hOld

/- An order that passes the rules is let through. -/
theorem decision_of_pass
    {de : DecisionEngine} {ctx : DecisionContext} {d : Decision}
    (hAfter :
      (de.evaluate ctx).After (⟨.engine .loadAutoPaused, false⟩ :: h)
        (.done d))
    (hLive : ctx.demoMode = false)
    (hPass : ctx.verdict de.profile = .pass) :
    d = .allow := by
  rcases hAfter.act_inv with ⟨hNil, _⟩ | ⟨b, h', hEq, hRest⟩
  · cases hNil
  · cases hEq
    dsimp only [Prog.bind] at hRest
    rw [if_neg (by simp), if_neg (by simp [hLive]), hPass] at hRest
    rcases hRest.act_done_inv with ⟨_, _, rfl, hStored⟩
    rcases hStored.act_done_inv with ⟨_, _, rfl, hLogged⟩
    exact Prog.done.inj hLogged.done_inv.2

/- What a pass that has its decision has been given, and decides. -/
theorem exists_gateInput
    {u : Unit}
    (hAfter : (om.processOrder o).After h t)
    (hMem : ⟨.engine (.emit rec), u⟩ ∈ h) :
    ∃ inp,
      gateInput h = some inp ∧
        (inp.autoPaused = false → om.demoMode = false →
          (rec.decision = .allow ↔
            (om.contextOf o inp).verdict om.decisionEngine.profile =
              .pass)) := by
  rcases emits_rest hAfter hMem (fun _ hEq => by cases hEq) with
    ⟨_, h, rfl, hAfter, hMem⟩
  rcases emits_rest hAfter hMem (fun _ hEq => by cases hEq) with
    ⟨_, h, rfl, hAfter, hMem⟩
  rcases emits_rest hAfter hMem (fun _ hEq => by cases hEq) with
    ⟨_, h, rfl, hAfter, hMem⟩
  dsimp only [Prog.bind] at hAfter
  split at hAfter
  · have hLate := always_failOrder o _ 0 _ _ (hAfter.canExecute hMem)
    cases hLate.later
  · rename_i mint hMint
    rcases emits_rest hAfter hMem (fun _ hEq => by cases hEq) with
      ⟨score, h, rfl, hAfter, hMem⟩
    rcases emits_rest hAfter hMem (fun _ hEq => by cases hEq) with
      ⟨curve, h, rfl, hAfter, hMem⟩
    rcases emits_rest hAfter hMem (fun _ hEq => by cases hEq) with
      ⟨active, h, rfl, hAfter, hMem⟩
    rcases evaluated_of_emits hAfter hMem with
      ⟨h₁, h₂, rfl, hEval, _⟩
    rcases hEval.act_inv with ⟨_, hEq⟩ | ⟨autoPaused, h₃, rfl, _⟩
    · cases hEq
    · refine ⟨⟨score, curve.toOption, active, autoPaused⟩, rfl, ?_⟩
      rintro rfl hLive
      constructor
      · intro hAllow
        rw [hAllow] at hEval
        exact (canReturn_allow_iff.mp hEval.canReturn).2
      · exact decision_of_pass hEval hLive

end Decisions

------------------------------------------------------------
-- Rivals
------------------------------------------------------------

section Rivals

variable {om : OrderManager} {C : OmCond} {s₀ : State}
variable {tr : List OmEvent} {c : OmConfig} {tid : Nat}
variable {o : Order} {inp : GateInput} {other : OrderId}

/- What a pass decides, once it has found the gate open. -/
theorem decision_of_event
    {rec : AuditRecord} {env : Outcome} {u : Unit}
    (hRun : Machine.Run om.machine C s₀ tr c)
    (hRoot : (om.machine.rootsIn tr)[tid]? = some (.processOrder o))
    (hInput : gateInput (Machine.calls tr tid) = some inp)
    (hUnpaused : inp.autoPaused = false)
    (hLive : om.demoMode = false)
    (hMem : .op tid (.engine (.emit rec)) env u ∈ tr) :
    rec.decision = .allow ↔
      (om.contextOf o inp).verdict om.decisionEngine.profile =
        .pass := by
  rcases List.append_of_mem hMem with ⟨pre, post, hSplit⟩
  rcases hRun.after_op hSplit hRoot with ⟨p, hBody⟩
  rcases Prog.after_map hBody with ⟨q, hAfter⟩
  rcases exists_gateInput hAfter
    (List.mem_append_right _ (List.mem_singleton_self _)) with
    ⟨inp', hGiven, hDecides⟩
  have hCalls :
      Machine.calls tr tid =
        (Machine.calls pre tid ++ [⟨.engine (.emit rec), u⟩]) ++
          Machine.calls post tid := by
    rw [hSplit, List.append_cons, Machine.calls_append,
      Machine.calls_append_singleton_self]
  rw [hCalls, gateInput_append _ hGiven] at hInput
  cases hInput
  exact hDecides hUnpaused hLive

theorem exists_allow
    (hAllowed : allowed tr tid = true) :
    ∃ rec env u,
      .op tid (.engine (.emit rec)) env u ∈ tr ∧
        rec.decision = .allow := by
  rcases List.any_eq_true.mp hAllowed with ⟨e, hMem, hEmits⟩
  split at hEmits
  · rename_i tid' rec env u
    simp only [Bool.and_eq_true, decide_eq_true_eq] at hEmits
    rcases hEmits with ⟨rfl, hAllow⟩
    refine ⟨rec, env, u, hMem, ?_⟩
    cases hDecision : rec.decision with
    | allow => rfl
    | reject reason | halt reason =>
        rw [hDecision] at hAllow
        cases hAllow
  · cases hEmits

theorem allowed_of_allow
    {rec : AuditRecord} {env : Outcome} {u : Unit}
    (hMem : .op tid (.engine (.emit rec)) env u ∈ tr)
    (hAllow : rec.decision = .allow) :
    allowed tr tid = true := by
  refine List.any_eq_true.mpr ⟨_, hMem, ?_⟩
  simp [hAllow, Decision.isAllow]

theorem exists_emit
    (hDecided : decided tr tid = true) :
    ∃ rec env u, .op tid (.engine (.emit rec)) env u ∈ tr := by
  rcases List.any_eq_true.mp hDecided with ⟨e, hMem, hEmits⟩
  split at hEmits
  · rename_i tid' rec env u
    have hSame : tid' = tid := of_decide_eq_true hEmits
    subst hSame
    exact ⟨rec, env, u, hMem⟩
  · cases hEmits

/- What is over the cap does not pass the rules. -/
theorem not_pass_of_exceeds
    {ctx : DecisionContext} {profile : BuildProfile}
    (hExceeds :
      ctx.projectedExposure.gt ctx.maxPortfolioExposureSol = true) :
    ctx.verdict profile ≠ .pass := by
  unfold DecisionContext.verdict
  split_ifs <;> simp_all

/- A rival is let through exactly if it misses the other's entry. -/
theorem Rival.allowed_iff
    (hRun : Machine.Run om.machine C s₀ tr c)
    (hRival : Rival om tr tid o other inp) :
    allowed tr tid = true ↔ inp.Misses other := by
  have hUnpaused : inp.autoPaused = false := hRival.alone.unpaused
  have hDecides :
      ∀ {rec env u}, .op tid (.engine (.emit rec)) env u ∈ tr →
        (rec.decision = .allow ↔
          (om.contextOf o inp).verdict om.decisionEngine.profile =
            .pass) :=
    decision_of_event hRun hRival.root hRival.input hUnpaused
      hRival.alone.live
  constructor
  · intro hAllowed
    by_contra hReads
    rcases exists_allow hAllowed with ⟨rec, env, u, hMem, hAllow⟩
    exact not_pass_of_exceeds (hRival.together hReads)
      ((hDecides hMem).mp hAllow)
  · intro hMisses
    have hSame : inp.without other = inp := by
      unfold GateInput.without
      rw [removeById_of_notMem hMisses]
    have hRules := hRival.alone.rules
    rw [hSame] at hRules
    rcases exists_emit hRival.decided with ⟨rec, env, u, hMem⟩
    exact allowed_of_allow hMem ((hDecides hMem).mpr hRules)

end Rivals

/-
  Of two orders that fit under the cap one by one, but not
  together, one is let through exactly if one of the two passes
  reads the active map while the other order is not in it;
  otherwise both are turned away.
-/
theorem oneAllowed_iff
    (om : OrderManager)
    (db : Database)
    (chain : Chain)
    (seenIds : List OrderId)
    {tr : List OmEvent}
    {c : OmConfig}
    {tid tid' : Nat}
    {o o' : Order}
    {inp inp' : GateInput}
    (hRun :
      Machine.Run om.machine Machine.anyStep
        (State.boot db chain seenIds) tr c)
    (hRival : Rival om tr tid o o'.id inp)
    (hRival' : Rival om tr tid' o' o.id inp') :
    (allowed tr tid = true ∨ allowed tr tid' = true) ↔
      (inp.Misses o'.id ∨ inp'.Misses o.id) := by
  rw [hRival.allowed_iff hRun, hRival'.allowed_iff hRun]

/- One reads the map before the other is put there. -/
def oneInsertedSchedule : List (Machine.Choice Outcome Ext) :=
  rivalArrivals ++ insertSteps 2 ++ decideSteps 2 ["a"] ++
    insertSteps 3 ++ decideSteps 3 ["b", "a"]

/- One of the two overlapping passes is let through. -/
theorem exists_oneAllowed :
    ∃ tr,
      Rival capManager tr 2 (rivalOrder "a") (rivalOrder "b").id
          (rivalInput ["a"]) ∧
        Rival capManager tr 3 (rivalOrder "b") (rivalOrder "a").id
            (rivalInput ["b", "a"]) ∧
          (allowed tr 2 = true ∨ allowed tr 3 = true) := by
  have hPlay :=
    Machine.exists_run_of_play capManager.machine
      (sampleState .enabled) oneInsertedSchedule
      (fun tr _ =>
        isRival tr 2 "a" ["a"] && isRival tr 3 "b" ["b", "a"])
      (by decide +kernel)
  rcases hPlay with ⟨tr, c, hRun, hShown⟩
  simp only [Bool.and_eq_true] at hShown
  have hMisses : (rivalInput ["a"]).Misses (rivalOrder "b").id := by
    unfold GateInput.Misses
    decide
  have hFirst :
      Rival capManager tr 2 (rivalOrder "a") (rivalOrder "b").id
        (rivalInput ["a"]) :=
    rival_of_isRival hShown.1 (by decide +kernel)
      fun hReads => absurd hReads hMisses
  have hSecond :
      Rival capManager tr 3 (rivalOrder "b") (rivalOrder "a").id
        (rivalInput ["b", "a"]) :=
    rival_of_isRival hShown.2 (by decide +kernel)
      fun _ => by decide +kernel
  exact ⟨tr, hFirst, hSecond,
    (oneAllowed_iff capManager _ _ _ hRun hFirst hSecond).mpr
      (.inl hMisses)⟩

end Pumpy
