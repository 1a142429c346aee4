import Pumpy.Engine.System
import Pumpy.Interleaving.Population
import Mathlib.Data.List.TakeWhile
import Mathlib.Data.List.Induction

/-
  The decision engine, called one call at a time.  Its counter,
  latch and flag say of the calls since the last reset whether
  enough rule violations came in a row, and whether somebody
  still has to be told.

  Key definitions include:
    * `EngineCall`
    * `DecisionEngine.answer`
    * `DecisionEngine.latchAfter`
    * `StreakReached`
    * `Untold`
    * `LatchSpec`

  The main result is `latchSpec`.
-/

------------------------------------------------------------
-- Calls
------------------------------------------------------------

namespace Pumpy

open Interleaving

inductive EngineCall where
  | evaluate (ctx : DecisionContext) : EngineCall
  | takeNeedsDbPause : EngineCall
  | resetPause : EngineCall

inductive EngineReply where
  | decided (d : Decision) : EngineReply
  | took (b : Bool) : EngineReply
  | done : EngineReply
  | panicked : EngineReply
deriving DecidableEq

/- The operations of the engine need no more than its atomics. -/
def engineExec : (op : Op) → Latch → Option (op.Resp × Latch)
  | .engine op, l => some (op.exec l)
  | _, _ => none

/- The atomics of an engine that has just been built. -/
def Latch.new : Latch where
  consecutiveRejects := 0
  autoPaused := false
  needsDbPause := false

namespace DecisionEngine

/- Take the flag: true for the caller that has to write the pause. -/
def takeNeedsDbPause : OmProg Bool :=
  Do.swapNeedsDbPause false

/- The code of a call. -/
def body (de : DecisionEngine) : EngineCall → OmProg EngineReply
  | .evaluate ctx => do
      let d ← de.evaluate ctx
      pure (.decided d)
  | .takeNeedsDbPause => do
      let b ← takeNeedsDbPause
      pure (.took b)
  | .resetPause => do
      resetPause
      pure .done

/- The reply to a call, and the atomics after it. -/
def answer
    (de : DecisionEngine)
    (l : Latch)
    (call : EngineCall) : EngineReply × Latch :=
  let p := (de.body call).runAlone engineExec l
  (p.1.getD .panicked, p.2)

/- The atomics after a sequence of calls. -/
def latchAfter
    (de : DecisionEngine)
    (calls : List EngineCall) : Latch :=
  calls.foldl (fun l call => (de.answer l call).2) Latch.new

/- The reply to a call that follows a sequence of calls. -/
def replyAfter
    (de : DecisionEngine)
    (calls : List EngineCall)
    (call : EngineCall) : EngineReply :=
  (de.answer (de.latchAfter calls) call).1

------------------------------------------------------------
-- Histories
------------------------------------------------------------

/- The context breaks a rule; demo mode is not looked past. -/
def violates (de : DecisionEngine) : EngineCall → Bool
  | .evaluate ctx =>
      match ctx.demoMode, ctx.verdict de.profile with
      | false, .violates _ => true
      | _, _ => false
  | _ => false

/- The context passes all rules. -/
def allows (de : DecisionEngine) : EngineCall → Bool
  | .evaluate ctx =>
      match ctx.demoMode, ctx.verdict de.profile with
      | false, .pass => true
      | _, _ => false
  | _ => false

end DecisionEngine

def EngineCall.isReset : EngineCall → Bool
  | resetPause => true
  | _ => false

/- The calls since the last reset. -/
def sinceReset (calls : List EngineCall) : List EngineCall :=
  (calls.reverse.takeWhile fun call => !call.isReset).reverse

/-
  Among the calls, as many violations as the threshold asks for
  came in a row, with no allow between them.
-/
def StreakReached
    (de : DecisionEngine)
    (calls : List EngineCall) : Prop :=
  ∃ before row after,
    calls = before ++ row ++ after ∧
      (∀ call ∈ row, de.allows call = false) ∧
        max de.autoPauseThreshold.toNat 1 ≤ row.countP de.violates

/- The calls that have reached the threshold, and nobody has asked since. -/
def Untold
    (de : DecisionEngine)
    (calls : List EngineCall) : Prop :=
  ∃ before call after,
    calls = before ++ call :: after ∧
      ¬StreakReached de before ∧ StreakReached de (before ++ [call]) ∧
        .takeNeedsDbPause ∉ after

/- What the engine promises of the calls it has answered. -/
structure LatchSpec
    (de : DecisionEngine)
    (calls : List EngineCall) : Prop where
  paused :
    (de.latchAfter calls).autoPaused = true ↔
      StreakReached de (sinceReset calls)
  violation :
    ∀ ctx reason,
      ctx.demoMode = false →
        ctx.verdict de.profile = .violates reason →
          ¬StreakReached de (sinceReset calls) →
            (StreakReached de
                (sinceReset (calls ++ [.evaluate ctx])) ∧
              ∃ why, de.replyAfter calls (.evaluate ctx) =
                .decided (.halt why)) ∨
            (¬StreakReached de
                (sinceReset (calls ++ [.evaluate ctx])) ∧
              de.replyAfter calls (.evaluate ctx) =
                .decided (.reject reason))
  halted :
    (de.latchAfter calls).autoPaused = true →
      ∀ ctx,
        (∃ why, de.replyAfter calls (.evaluate ctx) =
          .decided (.halt why)) ∧
        de.latchAfter (calls ++ [.evaluate ctx]) = de.latchAfter calls
  told :
    de.replyAfter calls .takeNeedsDbPause = .took true ↔
      Untold de (sinceReset calls)

------------------------------------------------------------
-- Answers
------------------------------------------------------------

section Answers

variable {de : DecisionEngine} {l : Latch} {ctx : DecisionContext}

theorem answer_resetPause :
    de.answer l .resetPause = (.done, Latch.new) :=
  rfl

theorem answer_takeNeedsDbPause :
    de.answer l .takeNeedsDbPause =
      (.took l.needsDbPause, { l with needsDbPause := false }) :=
  rfl

/- A latched engine halts every request, and changes nothing. -/
theorem answer_halted
    (hPaused : l.autoPaused = true) :
    de.answer l (.evaluate ctx) =
      (.decided (.halt de.autoPauseReason), l) := by
  simp [DecisionEngine.answer, DecisionEngine.body,
    DecisionEngine.evaluate, DecisionEngine.emit, Prog.runAlone,
    engineExec, EngineOp.exec, hPaused]

theorem answer_demo
    (hOpen : l.autoPaused = false)
    (hDemo : ctx.demoMode = true) :
    de.answer l (.evaluate ctx) =
      (.decided (.halt DecisionEngine.demoReason), l) := by
  simp [DecisionEngine.answer, DecisionEngine.body,
    DecisionEngine.evaluate, DecisionEngine.emit, Prog.runAlone,
    engineExec, EngineOp.exec, hOpen, hDemo]

theorem answer_allow
    (hOpen : l.autoPaused = false)
    (hDemo : ctx.demoMode = false)
    (hPass : ctx.verdict de.profile = .pass) :
    de.answer l (.evaluate ctx) =
      (.decided .allow, { l with consecutiveRejects := 0 }) := by
  simp [DecisionEngine.answer, DecisionEngine.body,
    DecisionEngine.evaluate, DecisionEngine.emit, Prog.runAlone,
    engineExec, EngineOp.exec, hOpen, hDemo, hPass]

theorem answer_panics
    (hOpen : l.autoPaused = false)
    (hDemo : ctx.demoMode = false)
    (hPanics : ctx.verdict de.profile = .panics) :
    de.answer l (.evaluate ctx) = (.panicked, l) := by
  simp [DecisionEngine.answer, DecisionEngine.body,
    DecisionEngine.evaluate, Prog.runAlone, engineExec,
    EngineOp.exec, hOpen, hDemo, hPanics]

/- A violation is counted; the one that reaches the threshold latches. -/
theorem answer_violation
    {reason : String}
    (hOpen : l.autoPaused = false)
    (hDemo : ctx.demoMode = false)
    (hViolates : ctx.verdict de.profile = .violates reason)
    (hRoom : l.consecutiveRejects.toNat + 1 < 2 ^ 32) :
    de.answer l (.evaluate ctx) =
      if de.autoPauseThreshold.toNat ≤
          l.consecutiveRejects.toNat + 1 then
        (.decided (.halt de.autoPauseReason),
          { consecutiveRejects := l.consecutiveRejects + 1
            autoPaused := true
            needsDbPause := true })
      else
        (.decided (.reject reason),
          { l with
            consecutiveRejects := l.consecutiveRejects + 1 }) := by
  have hToNat :
      (l.consecutiveRejects + 1).toNat =
        l.consecutiveRejects.toNat + 1 := by
    rw [UInt32.toNat_add]
    exact Nat.mod_eq_of_lt hRoom
  have hCount :
      de.profile.u32 (l.consecutiveRejects.toNat + 1) =
        some (l.consecutiveRejects + 1) := by
    unfold BuildProfile.u32
    rw [if_pos hRoom, ← hToNat, UInt32.ofNat_toNat]
  simp only [← hToNat, ← UInt32.le_iff_toNat_le]
  simp only [DecisionEngine.answer, DecisionEngine.body,
    DecisionEngine.evaluate, DecisionEngine.onReject,
    DecisionEngine.countReject, DecisionEngine.emit]
  by_cases hThreshold :
      de.autoPauseThreshold ≤ l.consecutiveRejects + 1
  · simp [Prog.runAlone, engineExec, EngineOp.exec, hOpen, hDemo,
      hViolates, hCount, hThreshold]
  · simp [Prog.runAlone, engineExec, EngineOp.exec, hOpen, hDemo,
      hViolates, hCount, hThreshold]

end Answers

------------------------------------------------------------
-- Streaks
------------------------------------------------------------

section Streaks

variable {de : DecisionEngine} {calls : List EngineCall}
variable {call : EngineCall}

/- The violations after the last allow. -/
def streak (de : DecisionEngine) (calls : List EngineCall) : Nat :=
  (calls.reverse.takeWhile fun call => !de.allows call).countP
    de.violates

theorem streak_append_singleton :
    streak de (calls ++ [call]) =
      if de.allows call then
        0
      else
        streak de calls + if de.violates call then 1 else 0 := by
  unfold streak
  rw [List.reverse_append, List.reverse_singleton,
    List.singleton_append, List.takeWhile_cons]
  cases hAllows : de.allows call with
  | true => rfl
  | false => simp [List.countP_cons]

theorem sinceReset_append_singleton :
    sinceReset (calls ++ [call]) =
      if call.isReset then [] else sinceReset calls ++ [call] := by
  unfold sinceReset
  rw [List.reverse_append, List.reverse_singleton,
    List.singleton_append, List.takeWhile_cons]
  cases hReset : call.isReset with
  | true => rfl
  | false => simp

theorem not_streakReached_nil :
    ¬StreakReached de [] := by
  rintro ⟨before, row, after, hSplit, _, hEnough⟩
  have hRow : row = [] := by
    have hBoth := (List.nil_eq_append_iff.mp hSplit).1
    exact (List.append_eq_nil_iff.mp hBoth).2
  rw [hRow, List.countP_nil] at hEnough
  exact absurd hEnough (by omega)

/- A long enough streak at the end reaches the threshold. -/
theorem streakReached_of_streak
    (hEnough : max de.autoPauseThreshold.toNat 1 ≤ streak de calls) :
    StreakReached de calls := by
  refine ⟨(calls.reverse.dropWhile fun call => !de.allows call).reverse,
    (calls.reverse.takeWhile fun call => !de.allows call).reverse, [],
    ?_, ?_, ?_⟩
  · rw [List.append_nil, ← List.reverse_append,
      List.takeWhile_append_dropWhile, List.reverse_reverse]
  · intro call hMem
    have hNot := List.mem_takeWhile_imp (List.mem_reverse.mp hMem)
    simpa using hNot
  · rw [List.countP_reverse]
    exact hEnough

/- A row at the end with no allow in it is part of the streak. -/
theorem countP_le_streak
    {before row : List EngineCall}
    (hSplit : calls = before ++ row)
    (hNoAllow : ∀ call ∈ row, de.allows call = false) :
    row.countP de.violates ≤ streak de calls := by
  have hAll :
      row.reverse.takeWhile (fun call => !de.allows call) =
        row.reverse := by
    apply List.takeWhile_eq_self_iff.mpr
    intro call hMem
    simpa using hNoAllow call (List.mem_reverse.mp hMem)
  unfold streak
  rw [hSplit, List.reverse_append, ← List.countP_reverse]
  apply List.Sublist.countP_le
  rw [List.takeWhile_append, hAll]
  simp

/- One more call reaches the threshold by a streak that ends with it. -/
theorem streakReached_append_singleton :
    StreakReached de (calls ++ [call]) ↔
      StreakReached de calls ∨
        max de.autoPauseThreshold.toNat 1 ≤
          streak de (calls ++ [call]) := by
  constructor
  · rintro ⟨before, row, after, hSplit, hNoAllow, hEnough⟩
    rcases List.eq_nil_or_concat after with rfl | ⟨after', last, hLast⟩
    · right
      rw [List.append_nil] at hSplit
      exact Nat.le_trans hEnough (countP_le_streak hSplit hNoAllow)
    · left
      rw [hLast, List.concat_eq_append, ← List.append_assoc] at hSplit
      exact ⟨before, row, after', (List.append_inj' hSplit rfl).1,
        hNoAllow, hEnough⟩
  · rintro (⟨before, row, after, hSplit, hRest⟩ | hStreak)
    · exact ⟨before, row, after ++ [call],
        by rw [hSplit, List.append_assoc], hRest⟩
    · exact streakReached_of_streak hStreak

theorem streak_lt_of_not_reached
    (hNot : ¬StreakReached de calls) :
    streak de calls < max de.autoPauseThreshold.toNat 1 := by
  by_contra hGe
  exact hNot (streakReached_of_streak (Nat.le_of_not_lt hGe))

theorem not_untold_nil :
    ¬Untold de [] := by
  rintro ⟨before, call, after, hSplit, _⟩
  simp at hSplit

/- One more call is the one that latches, or leaves the word untold. -/
theorem untold_append_singleton :
    Untold de (calls ++ [call]) ↔
      (Untold de calls ∧ call ≠ .takeNeedsDbPause) ∨
        (¬StreakReached de calls ∧
          StreakReached de (calls ++ [call])) := by
  constructor
  · rintro ⟨before, latching, after, hSplit, hBefore, hReached, hNone⟩
    rcases Protocol.append_singleton_split hSplit with
      ⟨rfl, rfl, rfl⟩ | ⟨after', rfl, rfl⟩
    · exact .inr ⟨hBefore, hReached⟩
    · left
      refine ⟨⟨before, latching, after', rfl, hBefore, hReached,
        fun hMem => hNone (List.mem_append_left _ hMem)⟩, ?_⟩
      rintro rfl
      exact hNone (List.mem_append_right _ List.mem_cons_self)
  · rintro (⟨⟨before, latching, after, hSplit, hBefore, hReached,
      hNone⟩, hOther⟩ | ⟨hBefore, hReached⟩)
    · refine ⟨before, latching, after ++ [call], ?_, hBefore, hReached,
        fun hMem => ?_⟩
      · rw [hSplit, List.append_assoc, List.cons_append]
      · rcases List.mem_append.mp hMem with hOld | hLast
        · exact hNone hOld
        · exact hOther (List.mem_singleton.mp hLast).symm
    · exact ⟨calls, call, [], rfl, hBefore, hReached,
        List.not_mem_nil⟩

end Streaks

------------------------------------------------------------
-- Keeping track
------------------------------------------------------------

/- The atomics say of the calls since the last reset what they should. -/
structure Tracks
    (de : DecisionEngine)
    (calls : List EngineCall)
    (l : Latch) : Prop where
  paused : l.autoPaused = true ↔ StreakReached de calls
  counted :
    ¬StreakReached de calls →
      l.consecutiveRejects.toNat = streak de calls
  flagged : l.needsDbPause = true ↔ Untold de calls

section Tracks

variable {de : DecisionEngine} {calls : List EngineCall}
variable {call : EngineCall} {l : Latch}

theorem tracks_new :
    Tracks de [] Latch.new where
  paused := ⟨fun h => absurd h (by decide),
    fun h => absurd h not_streakReached_nil⟩
  counted := fun _ => rfl
  flagged := ⟨fun h => absurd h (by decide),
    fun h => absurd h not_untold_nil⟩

/- A call that is no violation does not reach the threshold. -/
theorem streakReached_append_of_not_violates
    (calls : List EngineCall)
    (hViolates : de.violates call = false) :
    StreakReached de (calls ++ [call]) ↔ StreakReached de calls := by
  rw [streakReached_append_singleton]
  refine ⟨?_, .inl⟩
  rintro (hOld | hStreak)
  · exact hOld
  · rw [streak_append_singleton, hViolates] at hStreak
    split at hStreak
    · exact absurd hStreak (by omega)
    · exact streakReached_of_streak (by simpa using hStreak)

/- What is reached stays reached, and one call asks no more. -/
theorem untold_append_of_reached_iff
    (hOther : call ≠ .takeNeedsDbPause)
    (hSame :
      StreakReached de (calls ++ [call]) ↔ StreakReached de calls) :
    Untold de (calls ++ [call]) ↔ Untold de calls := by
  rw [untold_append_singleton, hSame]
  tauto

/- The violation that reaches the threshold is untold. -/
theorem untold_append_of_latches
    (hBefore : ¬StreakReached de calls)
    (hReached : StreakReached de (calls ++ [call])) :
    Untold de (calls ++ [call]) :=
  untold_append_singleton.mpr (.inr ⟨hBefore, hReached⟩)

/- A latched engine loses track of nothing. -/
theorem Tracks.halted
    (hTracks : Tracks de calls l)
    (hPaused : l.autoPaused = true)
    (hOther : call ≠ .takeNeedsDbPause) :
    Tracks de (calls ++ [call]) l := by
  have hReached := hTracks.paused.mp hPaused
  have hStill : StreakReached de (calls ++ [call]) :=
    streakReached_append_singleton.mpr (.inl hReached)
  have hSame :
      StreakReached de (calls ++ [call]) ↔ StreakReached de calls :=
    iff_of_true hStill hReached
  exact {
    paused := iff_of_true hPaused hStill
    counted := fun hNot => absurd hStill hNot
    flagged :=
      hTracks.flagged.trans
        (untold_append_of_reached_iff hOther hSame).symm }

/- Neither does a call that is no allow and no violation. -/
theorem Tracks.quiet
    (hTracks : Tracks de calls l)
    (hAllows : de.allows call = false)
    (hViolates : de.violates call = false)
    (hOther : call ≠ .takeNeedsDbPause) :
    Tracks de (calls ++ [call]) l := by
  have hSame :=
    streakReached_append_of_not_violates calls hViolates
  refine ⟨hTracks.paused.trans hSame.symm, fun hNot => ?_,
    hTracks.flagged.trans
      (untold_append_of_reached_iff hOther hSame).symm⟩
  rw [streak_append_singleton, hAllows, hViolates,
    hTracks.counted fun hOld => hNot (hSame.mpr hOld)]
  rfl

/- The flag that was taken is down. -/
theorem Tracks.taken
    (hTracks : Tracks de calls l) :
    Tracks de (calls ++ [.takeNeedsDbPause])
      { l with needsDbPause := false } := by
  have hSame :
      StreakReached de (calls ++ [.takeNeedsDbPause]) ↔
        StreakReached de calls :=
    streakReached_append_of_not_violates calls rfl
  refine ⟨hTracks.paused.trans hSame.symm, fun hNot => ?_,
    ⟨fun h => absurd h Bool.false_ne_true, fun hUntold => ?_⟩⟩
  · rw [streak_append_singleton]
    exact hTracks.counted fun hOld => hNot (hSame.mpr hOld)
  · rcases untold_append_singleton.mp hUntold with
      ⟨_, hOther⟩ | ⟨hNot, hReached⟩
    · exact absurd rfl hOther
    · exact absurd (hSame.mp hReached) hNot

/- An allow starts the count anew. -/
theorem Tracks.allowed
    {ctx : DecisionContext}
    (hTracks : Tracks de calls l)
    (hAllows : de.allows (.evaluate ctx) = true)
    (hViolates : de.violates (.evaluate ctx) = false) :
    Tracks de (calls ++ [.evaluate ctx])
      { l with consecutiveRejects := 0 } := by
  have hSame :=
    streakReached_append_of_not_violates calls hViolates
  refine ⟨hTracks.paused.trans hSame.symm, fun _ => ?_,
    hTracks.flagged.trans
      (untold_append_of_reached_iff (by simp) hSame).symm⟩
  rw [streak_append_singleton, hAllows]
  rfl

/- The streak a violation makes, if the engine was open before it. -/
theorem Tracks.streak_violation
    (hTracks : Tracks de calls l)
    (hOpen : l.autoPaused = false)
    (hAllows : de.allows call = false)
    (hViolates : de.violates call = true) :
    streak de (calls ++ [call]) =
      l.consecutiveRejects.toNat + 1 := by
  have hNot : ¬StreakReached de calls := by
    rw [← hTracks.paused, hOpen]
    exact Bool.false_ne_true
  rw [streak_append_singleton, hAllows, hViolates,
    hTracks.counted hNot]
  rfl

/- An open engine has room for one more violation. -/
theorem Tracks.room
    (hTracks : Tracks de calls l)
    (hOpen : l.autoPaused = false) :
    l.consecutiveRejects.toNat + 1 < 2 ^ 32 ∧
      ¬StreakReached de calls := by
  have hNot : ¬StreakReached de calls := by
    rw [← hTracks.paused, hOpen]
    exact Bool.false_ne_true
  have hLt := streak_lt_of_not_reached hNot
  have hThreshold := de.autoPauseThreshold.toNat_lt
  rw [← hTracks.counted hNot] at hLt
  exact ⟨by omega, hNot⟩

/- A violation reaches the threshold as its count does. -/
theorem Tracks.reached_iff
    (hTracks : Tracks de calls l)
    (hOpen : l.autoPaused = false)
    (hAllows : de.allows call = false)
    (hViolates : de.violates call = true) :
    StreakReached de (calls ++ [call]) ↔
      de.autoPauseThreshold.toNat ≤
        l.consecutiveRejects.toNat + 1 := by
  have hNot := (hTracks.room hOpen).2
  rw [streakReached_append_singleton,
    hTracks.streak_violation hOpen hAllows hViolates]
  constructor
  · rintro (hOld | hEnough)
    · exact absurd hOld hNot
    · omega
  · intro hEnough
    exact .inr (by omega)

/- A violation is counted, and latches an engine it is enough for. -/
theorem Tracks.violation
    {ctx : DecisionContext}
    {reason : String}
    (hTracks : Tracks de calls l)
    (hOpen : l.autoPaused = false)
    (hDemo : ctx.demoMode = false)
    (hViolates : ctx.verdict de.profile = .violates reason) :
    Tracks de (calls ++ [.evaluate ctx])
      (de.answer l (.evaluate ctx)).2 := by
  have hNoAllow : de.allows (.evaluate ctx) = false := by
    simp [DecisionEngine.allows, hDemo, hViolates]
  have hViolation : de.violates (.evaluate ctx) = true := by
    simp [DecisionEngine.violates, hDemo, hViolates]
  have hReached := hTracks.reached_iff hOpen hNoAllow hViolation
  have hStreak := hTracks.streak_violation hOpen hNoAllow hViolation
  rcases hTracks.room hOpen with ⟨hRoom, hNot⟩
  have hCount :
      (l.consecutiveRejects + 1).toNat =
        l.consecutiveRejects.toNat + 1 := by
    rw [UInt32.toNat_add]
    exact Nat.mod_eq_of_lt hRoom
  rw [answer_violation hOpen hDemo hViolates hRoom]
  by_cases hEnough :
      de.autoPauseThreshold.toNat ≤ l.consecutiveRejects.toNat + 1
  · have hNow := hReached.mpr hEnough
    rw [if_pos hEnough]
    exact {
      paused := iff_of_true rfl hNow
      counted := fun hNever => absurd hNow hNever
      flagged := iff_of_true rfl (untold_append_of_latches hNot hNow) }
  · have hNever := fun hNow => hEnough (hReached.mp hNow)
    rw [if_neg hEnough]
    refine ⟨?_, fun _ => hCount.trans hStreak.symm, ?_⟩
    · exact iff_of_false (by simp [hOpen]) hNever
    · exact hTracks.flagged.trans
        (untold_append_of_reached_iff (by simp)
          (iff_of_false hNever hNot)).symm

/- What one call preserves, a reset apart. -/
theorem Tracks.answer
    (hTracks : Tracks de calls l)
    (hCall : call.isReset = false) :
    Tracks de (calls ++ [call]) (de.answer l call).2 := by
  cases call with
  | resetPause => exact absurd hCall (by decide)
  | takeNeedsDbPause => exact hTracks.taken
  | evaluate ctx =>
    cases hPaused : l.autoPaused with
    | true =>
      rw [answer_halted hPaused]
      exact hTracks.halted hPaused (by simp)
    | false =>
      cases hDemo : ctx.demoMode with
      | true =>
        rw [answer_demo hPaused hDemo]
        exact hTracks.quiet (by simp [DecisionEngine.allows, hDemo])
          (by simp [DecisionEngine.violates, hDemo]) (by simp)
      | false =>
        cases hVerdict : ctx.verdict de.profile with
        | pass =>
          rw [answer_allow hPaused hDemo hVerdict]
          exact hTracks.allowed
            (by simp [DecisionEngine.allows, hDemo, hVerdict])
            (by simp [DecisionEngine.violates, hDemo, hVerdict])
        | violates reason =>
          exact hTracks.violation hPaused hDemo hVerdict
        | panics =>
          rw [answer_panics hPaused hDemo hVerdict]
          exact hTracks.quiet
            (by simp [DecisionEngine.allows, hDemo, hVerdict])
            (by simp [DecisionEngine.violates, hDemo, hVerdict])
            (by simp)

theorem latchAfter_append_singleton :
    de.latchAfter (calls ++ [call]) =
      (de.answer (de.latchAfter calls) call).2 := by
  unfold DecisionEngine.latchAfter
  rw [List.foldl_append, List.foldl_cons, List.foldl_nil]

/- Whatever has been called, the atomics track it. -/
theorem tracks_latchAfter
    (calls : List EngineCall) :
    Tracks de (sinceReset calls) (de.latchAfter calls) := by
  induction calls using List.reverseRecOn with
  | nil => exact tracks_new
  | append_singleton calls call ih =>
    rw [latchAfter_append_singleton, sinceReset_append_singleton]
    cases hReset : call.isReset with
    | false => exact ih.answer hReset
    | true =>
      have hCall : call = .resetPause := by
        cases call with
        | resetPause => rfl
        | evaluate _ => exact absurd hReset Bool.false_ne_true
        | takeNeedsDbPause => exact absurd hReset (by decide)
      rw [hCall, answer_resetPause]
      exact tracks_new

end Tracks

------------------------------------------------------------
-- The specification
------------------------------------------------------------

/-
  The latch, the counter and the flag follow the history of the
  calls: whatever was called, in whatever order.
-/
theorem latchSpec
    (de : DecisionEngine)
    (calls : List EngineCall) :
    LatchSpec de calls where
  paused := (tracks_latchAfter calls).paused
  violation := by
    intro ctx reason hDemo hViolates hNot
    have hTracks : Tracks de _ _ := tracks_latchAfter calls
    have hOpen : (de.latchAfter calls).autoPaused = false := by
      rw [← hTracks.paused] at hNot
      exact Bool.eq_false_iff.mpr hNot
    have hNoAllow : de.allows (.evaluate ctx) = false := by
      simp [DecisionEngine.allows, hDemo, hViolates]
    have hViolation : de.violates (.evaluate ctx) = true := by
      simp [DecisionEngine.violates, hDemo, hViolates]
    have hReached := hTracks.reached_iff hOpen hNoAllow hViolation
    rw [sinceReset_append_singleton]
    unfold DecisionEngine.replyAfter
    rw [answer_violation hOpen hDemo hViolates (hTracks.room hOpen).1]
    by_cases hEnough :
        de.autoPauseThreshold.toNat ≤
          (de.latchAfter calls).consecutiveRejects.toNat + 1
    · left
      rw [if_pos hEnough]
      exact ⟨hReached.mpr hEnough, _, rfl⟩
    · right
      rw [if_neg hEnough]
      exact ⟨fun hNow => hEnough (hReached.mp hNow), rfl⟩
  halted := by
    intro hPaused ctx
    rw [latchAfter_append_singleton]
    unfold DecisionEngine.replyAfter
    rw [answer_halted hPaused]
    exact ⟨⟨_, rfl⟩, rfl⟩
  told := by
    rw [← (tracks_latchAfter calls).flagged]
    unfold DecisionEngine.replyAfter
    rw [answer_takeNeedsDbPause]
    simp

end Pumpy
