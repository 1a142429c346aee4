import Pumpy.Interleaving.Transition
import Pumpy.Numeric.Window
import Pumpy.Strategy.Momentum

/-
  The momentum strategy from start to start
  (python-strategy/strategies/momentum.py): its rolling windows,
  which are saved to a file now and then and loaded from it at a
  start, and the cool-down between its signals.

  A save may fail before anything is written, or break off and
  leave a file that cannot be read; the process may end at any
  time.

  Key definitions include:
    * `Process`
    * `LifeEvent`
    * `Life.system`
    * `Journal`
    * `Recovers`
    * `Spaced`

  The main results are `recovers_of_exec`: the windows are those
  of all that was recorded up to the last save before the start,
  and since; and `spaced_of_exec`: after a signal no other is
  begun for its token within the cool-down, from one start to
  the next.
-/

namespace Pumpy

namespace Momentum

open Signals Interleaving

------------------------------------------------------------
-- The Process
------------------------------------------------------------

/- What is saved: the windows of the mints that have any. -/
structure Checkpoint (α : Type) where
  mints : List String
  priceWindows : String → List α
  volumeWindows : String → List α

/- The file at `_checkpoint_path`. -/
inductive CheckpointFile (α : Type) where
  | missing : CheckpointFile α
  | unreadable : CheckpointFile α
  | saved (data : Checkpoint α) : CheckpointFile α

/- How a save ends: `torn` leaves a part of the file. -/
inductive SaveOutcome where
  | done
  | failed
  | torn
deriving DecidableEq, Repr

/- `mints` are the keys of both dictionaries of windows. -/
structure Process (α : Type) where
  strategy : MomentumStrategy α
  mints : List String
  lastCheckpoint : Option α
  file : CheckpointFile α

/-
  A token is analysed, with what the clock says then; the loop
  looks whether a checkpoint is due; the engine stops; the model
  or the amount changes; the process starts again, with those it
  is given.
-/
inductive LifeEvent (α : Type) where
  | analyze (clock : Readings α) (token : TokenMarketData α) :
      LifeEvent α
  | checkpoint (now saved : α) (outcome : SaveOutcome) : LifeEvent α
  | flush (saved : α) (outcome : SaveOutcome) : LifeEvent α
  | retune (mlGenerator : MLSignalGenerator α) (buyAmountSol : α) :
      LifeEvent α
  | start (mlGenerator : MLSignalGenerator α) (buyAmountSol : α) :
      LifeEvent α

namespace CheckpointFile

variable {α : Type}

/- The keys that are loaded. -/
def mints : CheckpointFile α → List String
  | saved data => data.mints
  | _ => []

/- `deque(vals, maxlen=100)` for every key. -/
def load
    (windows : Checkpoint α → String → List α)
    (file : CheckpointFile α)
    (mint : String) : List α :=
  match file with
  | saved data =>
      if mint ∈ data.mints then lastN (windows data mint) 100 else []
  | _ => []

end CheckpointFile

section Model

variable {α : Type} [Field α] [LinearOrder α]

namespace Process

/- `__init__`, and `_load_buffers`. -/
def start
    (mlGenerator : MLSignalGenerator α)
    (buyAmountSol : α)
    (file : CheckpointFile α) : Process α where
  strategy :=
    { mlGenerator := mlGenerator
      priceWindows := file.load Checkpoint.priceWindows
      volumeWindows := file.load Checkpoint.volumeWindows
      lastSignalTime := fun _ => none
      cooldownSeconds := 60
      buyAmountSol := buyAmountSol }
  mints := file.mints
  lastCheckpoint := none
  file := file

/- `save_buffers()`. -/
def saveBuffers
    (p : Process α)
    (saved : α) : SaveOutcome → Process α
  | .done =>
      { p with
        file :=
          .saved
            ⟨p.mints, p.strategy.priceWindows, p.strategy.volumeWindows⟩
        lastCheckpoint := some saved }
  | .failed => p
  | .torn => { p with file := .unreadable }

/- The interval has elapsed, and there is something to save. -/
def due (interval now : α) (p : Process α) : Bool :=
  (p.lastCheckpoint.all fun last => !decide (now - last < interval)) &&
    !p.mints.isEmpty

/- `maybe_checkpoint_buffers()`. -/
def maybeCheckpointBuffers
    (interval now saved : α)
    (p : Process α)
    (outcome : SaveOutcome) : Process α :=
  if p.due interval now then p.saveBuffers saved outcome else p

end Process

/- What the strategy is run with. -/
structure Life (α : Type) where
  np : Numpy α
  text : PyText α
  settings : Settings α
  momentumScore : List α → List α → α
  checkpointInterval : α

namespace Life

/- The strategy analyses a token. -/
def run
    (life : Life α)
    (clock : Readings α)
    (p : Process α)
    (token : TokenMarketData α) :
    MomentumStrategy α × Option (TradeSignal α) :=
  analyze life.np life.text life.settings life.momentumScore clock
    p.strategy token

def step (life : Life α) (p : Process α) : LifeEvent α → Process α
  | .analyze clock token =>
      { p with
        strategy := (life.run clock p token).1
        mints :=
          if shouldEnter life.settings clock.entered p.strategy token then
            if token.mint ∈ p.mints then p.mints
            else p.mints ++ [token.mint]
          else
            p.mints }
  | .checkpoint now saved outcome =>
      p.maybeCheckpointBuffers life.checkpointInterval now saved outcome
  | .flush saved outcome => p.saveBuffers saved outcome
  | .retune mlGenerator buyAmountSol =>
      { p with
        strategy :=
          { p.strategy with
            mlGenerator := mlGenerator
            buyAmountSol := buyAmountSol } }
  | .start mlGenerator buyAmountSol =>
      .start mlGenerator buyAmountSol p.file

def system (life : Life α) : Transition (LifeEvent α) (Process α) :=
  ⟨fun p e => some (life.step p e)⟩

end Life

------------------------------------------------------------
-- What Is Recorded
------------------------------------------------------------

/- All prices and volumes of each mint, in order. -/
structure Records (α : Type) where
  prices : String → List α
  volumes : String → List α

namespace Records

variable {β : Type}

def empty : Records β :=
  ⟨fun _ => [], fun _ => []⟩

def add
    (r : Records β)
    (mint : String)
    (price volume : β) : Records β where
  prices := Function.update r.prices mint (r.prices mint ++ [price])
  volumes := Function.update r.volumes mint (r.volumes mint ++ [volume])

theorem add_of_ne
    {r : Records β}
    {mint other : String}
    {price volume : β}
    (hOther : other ≠ mint) :
    (r.add mint price volume).prices other = r.prices other ∧
      (r.add mint price volume).volumes other = r.volumes other :=
  ⟨Function.update_of_ne hOther _ _, Function.update_of_ne hOther _ _⟩

end Records

/- A signal, with the readings of the analysis that gave it. -/
structure Emitted (α : Type) where
  clock : Readings α
  signal : TradeSignal α

/-
  What was recorded and is not lost, what of it a start would
  find, and the signals since the last start.
-/
structure Journal (α : Type) where
  memory : Records α
  disk : Records α
  signals : List (Emitted α)

namespace Journal

variable {β : Type}

/- A save keeps all that was recorded, unless it fails. -/
def save (j : Journal β) : SaveOutcome → Journal β
  | .done => { j with disk := j.memory }
  | .failed => j
  | .torn => { j with disk := .empty }

/- What the file is known to have at the first start. -/
def ofFile (file : CheckpointFile β) : Journal β where
  memory :=
    ⟨file.load Checkpoint.priceWindows, file.load Checkpoint.volumeWindows⟩
  disk :=
    ⟨file.load Checkpoint.priceWindows, file.load Checkpoint.volumeWindows⟩
  signals := []

end Journal

/- The note that is taken of an event. -/
def Life.note
    (life : Life α)
    (p : Process α)
    (e : LifeEvent α)
    (j : Journal α) : Journal α :=
  match e with
  | .analyze clock token =>
      { j with
        memory :=
          if shouldEnter life.settings clock.entered p.strategy token then
            j.memory.add token.mint token.price token.volume24hSol
          else
            j.memory
        signals :=
          j.signals ++
            ((life.run clock p token).2.map (Emitted.mk clock)).toList }
  | .checkpoint now _ outcome =>
      if p.due life.checkpointInterval now then j.save outcome else j
  | .flush _ outcome => j.save outcome
  | .retune _ _ => j
  | .start _ _ => { j with memory := j.disk, signals := [] }

/- The life of the strategy, with its journal. -/
def Life.watched
    (life : Life α) :
    Transition (LifeEvent α) (Process α × Journal α) :=
  life.system.watch life.note

/-
  The windows are the last hundred of what was recorded and is
  not lost.
-/
structure Recovers (p : Process α) (j : Journal α) : Prop where
  prices :
    ∀ mint,
      p.strategy.priceWindows mint = (j.memory.prices mint).rtake 100
  volumes :
    ∀ mint,
      p.strategy.volumeWindows mint = (j.memory.volumes mint).rtake 100

/-
  From the decision for a signal to the next analysis of its
  token that gives one it is at least a cool-down.  The signals
  bear the time at which they were made, which is later.
-/
structure Spaced (j : Journal α) : Prop where
  apart :
    j.signals.Pairwise fun a b =>
      a.signal.tokenMint = b.signal.tokenMint →
        a.clock.decided + 60 ≤ b.clock.entered
  stamped : ∀ a ∈ j.signals, a.signal.timestamp = a.clock.signalled

/- An analysis does not decide before it has begun. -/
def Timely : Process α × Journal α → LifeEvent α → Prop
  | _, .analyze clock _ => clock.entered ≤ clock.decided
  | _, _ => True

------------------------------------------------------------
-- Windows
------------------------------------------------------------

/-
  The file has what a start would find, the dictionaries have no
  window for any other key, and no window is longer than it may
  be.
-/
structure Kept (p : Process α) (j : Journal α) : Prop where
  recovers : Recovers p j
  keys :
    ∀ mint, mint ∉ p.mints →
      j.memory.prices mint = [] ∧ j.memory.volumes mint = []
  priceFile :
    ∀ mint,
      p.file.load Checkpoint.priceWindows mint =
        (j.disk.prices mint).rtake 100
  volumeFile :
    ∀ mint,
      p.file.load Checkpoint.volumeWindows mint =
        (j.disk.volumes mint).rtake 100
  fileKeys :
    ∀ mint, mint ∉ p.file.mints →
      j.disk.prices mint = [] ∧ j.disk.volumes mint = []

section Windows

variable {life : Life α} {p : Process α} {j : Journal α}
variable {clock : Readings α} {token : TokenMarketData α}

omit [Field α] [LinearOrder α] in
theorem rtake_load
    (windows : Checkpoint α → String → List α)
    (file : CheckpointFile α)
    (mint : String) :
    (file.load windows mint).rtake 100 = file.load windows mint := by
  unfold CheckpointFile.load
  split
  · split
    · exact Window.rtake_rtake le_rfl _
    · rfl
  · rfl

omit [Field α] [LinearOrder α] in
theorem load_eq_nil
    {file : CheckpointFile α}
    {mint : String}
    (windows : Checkpoint α → String → List α)
    (hNone : mint ∉ file.mints) :
    file.load windows mint = [] := by
  unfold CheckpointFile.load
  split
  · exact if_neg hNone
  · rfl

omit [Field α] [LinearOrder α] in
/- What is saved is loaded again. -/
theorem kept_save
    {saved : α}
    (outcome : SaveOutcome)
    (hKept : Kept p j) :
    Kept (p.saveBuffers saved outcome) (j.save outcome) := by
  cases outcome with
  | failed => exact hKept
  | torn =>
      exact ⟨⟨hKept.recovers.prices, hKept.recovers.volumes⟩,
        hKept.keys, fun _ => rfl, fun _ => rfl, fun _ _ => ⟨rfl, rfl⟩⟩
  | done =>
      refine ⟨⟨hKept.recovers.prices, hKept.recovers.volumes⟩,
        hKept.keys, ?_, ?_, hKept.keys⟩
      · intro mint
        change (if mint ∈ p.mints then
          (p.strategy.priceWindows mint).rtake 100 else []) = _
        split
        · rw [hKept.recovers.prices mint]
          exact Window.rtake_rtake le_rfl _
        · rename_i hNone
          rw [Journal.save, (hKept.keys mint hNone).1]
          rfl
      · intro mint
        change (if mint ∈ p.mints then
          (p.strategy.volumeWindows mint).rtake 100 else []) = _
        split
        · rw [hKept.recovers.volumes mint]
          exact Window.rtake_rtake le_rfl _
        · rename_i hNone
          rw [Journal.save, (hKept.keys mint hNone).2]
          rfl

/- What a decision leaves alone. -/
theorem decideTrade_windows
    {text : PyText α} {settings : Settings α}
    {st : MomentumStrategy α} {signal : Signal α} {score : α} :
    (decideTrade text settings clock st token
          signal score).1.priceWindows = st.priceWindows ∧
      (decideTrade text settings clock st token
        signal score).1.volumeWindows = st.volumeWindows := by
  unfold decideTrade
  dsimp only
  split
  · exact ⟨rfl, rfl⟩
  · split
    · exact ⟨rfl, rfl⟩
    · split
      · exact ⟨rfl, rfl⟩
      · exact ⟨rfl, rfl⟩

theorem run_of_enter
    (hEnter : shouldEnter life.settings clock.entered p.strategy token) :
    ∃ signal score,
      life.run clock p token =
        decideTrade life.text life.settings clock
          (recorded p.strategy token) token signal score :=
  ⟨_, _, if_pos hEnter⟩

theorem run_of_stay
    (hStay : ¬shouldEnter life.settings clock.entered p.strategy token) :
    life.run clock p token = (p.strategy, none) :=
  if_neg hStay

omit [Field α] [LinearOrder α] in
/- One more element in the window of a mint. -/
theorem update_window
    {windows all : String → List α}
    {mint : String}
    {v : α}
    (hWindows : ∀ m, windows m = (all m).rtake 100)
    (m : String) :
    Function.update windows mint (push (windows mint) v) m =
      (Function.update all mint (all mint ++ [v]) m).rtake 100 := by
  by_cases hSame : m = mint
  · subst hSame
    rw [Function.update_self, Function.update_self, hWindows m]
    exact Window.push_rtake _ _
  · rw [Function.update_of_ne hSame, Function.update_of_ne hSame]
    exact hWindows m

theorem kept_analyze
    (hKept : Kept p j) :
    Kept (life.step p (.analyze clock token))
      (life.note p (.analyze clock token) j) := by
  by_cases hEnter :
    shouldEnter life.settings clock.entered p.strategy token
  · rcases @run_of_enter α _ _ life p clock token hEnter with
      ⟨signal, score, hRun⟩
    refine ⟨⟨?_, ?_⟩, ?_, hKept.priceFile, hKept.volumeFile,
      hKept.fileKeys⟩
    · intro mint
      simp only [Life.step, Life.note, hRun, hEnter, if_true,
        decideTrade_windows.1]
      exact update_window hKept.recovers.prices mint
    · intro mint
      simp only [Life.step, Life.note, hRun, hEnter, if_true,
        decideTrade_windows.2]
      exact update_window hKept.recovers.volumes mint
    · intro mint hNone
      simp only [Life.step, Life.note, hEnter, if_true] at hNone ⊢
      have hOther : mint ≠ token.mint ∧ mint ∉ p.mints := by
        split at hNone
        · rename_i hThere
          exact ⟨fun hSame => hNone (hSame ▸ hThere), hNone⟩
        · rw [List.mem_append, not_or, List.mem_singleton] at hNone
          exact ⟨hNone.2, hNone.1⟩
      rw [(Records.add_of_ne hOther.1).1, (Records.add_of_ne hOther.1).2]
      exact hKept.keys mint hOther.2
  · simp only [Life.step, Life.note, run_of_stay hEnter, hEnter,
      Bool.false_eq_true, if_false]
    exact ⟨⟨hKept.recovers.prices, hKept.recovers.volumes⟩, hKept.keys,
      hKept.priceFile, hKept.volumeFile, hKept.fileKeys⟩

/- A start finds what was saved. -/
theorem kept_start
    (mlGenerator : MLSignalGenerator α)
    (buyAmountSol : α)
    (hKept : Kept p j) :
    Kept (life.step p (.start mlGenerator buyAmountSol))
      (life.note p (.start mlGenerator buyAmountSol) j) :=
  ⟨⟨hKept.priceFile, hKept.volumeFile⟩, hKept.fileKeys,
    hKept.priceFile, hKept.volumeFile, hKept.fileKeys⟩

theorem kept_step
    (e : LifeEvent α)
    (hKept : Kept p j) :
    Kept (life.step p e) (life.note p e j) := by
  cases e with
  | analyze clock token => exact kept_analyze hKept
  | checkpoint now saved outcome =>
      simp only [Life.step, Life.note, Process.maybeCheckpointBuffers]
      split
      · exact kept_save outcome hKept
      · exact hKept
  | flush saved outcome => exact kept_save outcome hKept
  | retune mlGenerator buyAmountSol =>
      exact ⟨⟨hKept.recovers.prices, hKept.recovers.volumes⟩,
        hKept.keys, hKept.priceFile, hKept.volumeFile, hKept.fileKeys⟩
  | start mlGenerator buyAmountSol =>
      exact kept_start mlGenerator buyAmountSol hKept

omit [LinearOrder α] in
theorem kept_ofFile
    (mlGenerator : MLSignalGenerator α)
    (buyAmountSol : α)
    (file : CheckpointFile α) :
    Kept (.start mlGenerator buyAmountSol file) (.ofFile file) := by
  refine ⟨⟨?_, ?_⟩, ?_, ?_, ?_, ?_⟩
  · exact fun mint => (rtake_load _ file mint).symm
  · exact fun mint => (rtake_load _ file mint).symm
  · exact fun mint hNone => ⟨load_eq_nil _ hNone, load_eq_nil _ hNone⟩
  · exact fun mint => (rtake_load _ file mint).symm
  · exact fun mint => (rtake_load _ file mint).symm
  · exact fun mint hNone => ⟨load_eq_nil _ hNone, load_eq_nil _ hNone⟩

/-
  Whatever is analysed, saved or not, and however often the
  process starts, and whatever the first start found.
-/
theorem recovers_of_exec
    (life : Life α)
    (mlGenerator : MLSignalGenerator α)
    (buyAmountSol : α)
    (file : CheckpointFile α)
    (es : List (LifeEvent α))
    (p : Process α)
    (j : Journal α)
    (hExec :
      life.watched.exec
        (.start mlGenerator buyAmountSol file, .ofFile file) es =
          some (p, j)) :
    Recovers p j := by
  have hKept : Kept (p, j).1 (p, j).2 := by
    refine Transition.exec_induction
      (P := fun _ (q : Process α × Journal α) => Kept q.1 q.2)
      (kept_ofFile mlGenerator buyAmountSol file) ?_ hExec
    intro _ q e q' _ hKept hStep
    rcases Transition.watch_step.mp hStep with ⟨hLife, hNote⟩
    rw [← hNote, ← Option.some.inj hLife]
    exact kept_step e hKept
  exact hKept.recovers

end Windows

------------------------------------------------------------
-- The Cool-Down
------------------------------------------------------------

/- Every decision is no later than the last one for its token. -/
structure Cooled (p : Process α) (j : Journal α) : Prop where
  cooldown : p.strategy.cooldownSeconds = 60
  last :
    ∀ a ∈ j.signals,
      ∃ last,
        p.strategy.lastSignalTime a.signal.tokenMint = some last ∧
          a.clock.decided ≤ last
  spaced : Spaced j

section Cooldown

variable {life : Life α} {p : Process α} {j : Journal α}
variable {clock : Readings α} {token : TokenMarketData α}

/- A token whose cut-offs are not passed leaves no trace. -/
theorem decideTrade_cases
    (text : PyText α)
    (settings : Settings α)
    (clock : Readings α)
    (st : MomentumStrategy α)
    (token : TokenMarketData α)
    (signal : Signal α)
    (score : α) :
    decideTrade text settings clock st token signal score = (st, none) ∨
      ∃ trade : Option (TradeSignal α),
        decideTrade text settings clock st token signal score =
            ({ st with
              lastSignalTime :=
                Function.update st.lastSignalTime token.mint
                  (some clock.decided) },
              trade) ∧
          ∀ t ∈ trade,
            t.tokenMint = token.mint ∧ t.timestamp = clock.signalled := by
  unfold decideTrade
  dsimp only
  split
  · exact .inl rfl
  · split
    · exact .inl rfl
    · right
      split
      · exact ⟨none, rfl, nofun⟩
      · refine ⟨some _, rfl, ?_⟩
        rintro t hT
        cases hT
        exact ⟨rfl, rfl⟩

/- A token is not entered within the cool-down of its last time. -/
theorem cooldown_of_enter
    {settings : Settings α} {now last : α} {st : MomentumStrategy α}
    (hEnter : shouldEnter settings now st token = true)
    (hLast : st.lastSignalTime token.mint = some last) :
    st.cooldownSeconds ≤ now - last := by
  unfold shouldEnter at hEnter
  iterate 4
    split at hEnter
    · cases hEnter
  rw [hLast, Bool.not_eq_true', decide_eq_false_iff_not, not_lt] at hEnter
  exact hEnter

variable [IsStrictOrderedRing α]

/- Then all decisions for it are a cool-down ago. -/
theorem Cooled.enter
    {a : Emitted α}
    (hCooled : Cooled p j)
    (hEnter :
      shouldEnter life.settings clock.entered p.strategy token = true)
    (hMem : a ∈ j.signals)
    (hMint : a.signal.tokenMint = token.mint) :
    a.clock.decided + 60 ≤ clock.entered := by
  rcases hCooled.last a hMem with ⟨last, hLast, hLe⟩
  rw [hMint] at hLast
  have hCool := cooldown_of_enter hEnter hLast
  rw [hCooled.cooldown] at hCool
  linarith

/- A signal that may be given now is given after a cool-down. -/
theorem Cooled.emit
    {trade : Option (TradeSignal α)}
    (hCooled : Cooled p j)
    (hEnter :
      shouldEnter life.settings clock.entered p.strategy token = true)
    (hMade :
      ∀ t ∈ trade,
        t.tokenMint = token.mint ∧ t.timestamp = clock.signalled) :
    Spaced
      { j with
        signals := j.signals ++ (trade.map (Emitted.mk clock)).toList } := by
  have hNew :
      ∀ b ∈ (trade.map (Emitted.mk clock)).toList,
        b.clock = clock ∧ b.signal.tokenMint = token.mint ∧
          b.signal.timestamp = clock.signalled := by
    intro b hMem
    rcases Option.map_eq_some_iff.mp (Option.mem_toList.mp hMem) with
      ⟨t, hTrade, rfl⟩
    exact ⟨rfl, hMade t hTrade⟩
  constructor
  · refine List.pairwise_append.mpr ⟨hCooled.spaced.apart, ?_, ?_⟩
    · cases trade with
      | none => exact List.Pairwise.nil
      | some t => exact List.pairwise_singleton _ _
    · intro a hOld b hLast hSame
      rcases hNew b hLast with ⟨hClock, hMint, _⟩
      rw [hClock]
      exact hCooled.enter hEnter hOld (hSame.trans hMint)
  · intro a hMem
    rcases List.mem_append.mp hMem with hOld | hLast
    · exact hCooled.spaced.stamped a hOld
    · rcases hNew a hLast with ⟨hClock, _, hStamp⟩
      rw [hStamp, hClock]

theorem cooled_analyze
    (hCooled : Cooled p j)
    (hClock : clock.entered ≤ clock.decided) :
    Cooled (life.step p (.analyze clock token))
      (life.note p (.analyze clock token) j) := by
  by_cases hEnter :
    shouldEnter life.settings clock.entered p.strategy token
  · rcases @run_of_enter α _ _ life p clock token hEnter with
      ⟨signal, score, hRun⟩
    rcases decideTrade_cases life.text life.settings clock
      (recorded p.strategy token) token signal score with
      hNone | ⟨trade, hTrade, hMade⟩
    · rw [hNone] at hRun
      simp only [Life.step, Life.note, hRun, Option.map_none,
        Option.toList_none, List.append_nil]
      exact ⟨hCooled.cooldown, hCooled.last,
        ⟨hCooled.spaced.apart, hCooled.spaced.stamped⟩⟩
    · rw [hTrade] at hRun
      simp only [Life.step, Life.note, hRun]
      have hEmit := hCooled.emit hEnter hMade
      refine ⟨hCooled.cooldown, ?_, ⟨hEmit.apart, hEmit.stamped⟩⟩
      intro a hMem
      by_cases hMint : a.signal.tokenMint = token.mint
      · refine ⟨clock.decided, ?_, ?_⟩
        · rw [hMint]
          exact Function.update_self _ _ _
        · rcases List.mem_append.mp hMem with hOld | hNew
          · have hPast := hCooled.enter hEnter hOld hMint
            linarith
          · rcases Option.map_eq_some_iff.mp (Option.mem_toList.mp hNew)
              with ⟨t, _, rfl⟩
            exact le_rfl
      · rcases List.mem_append.mp hMem with hOld | hNew
        · rcases hCooled.last a hOld with ⟨last, hLast, hLe⟩
          refine ⟨last, ?_, hLe⟩
          exact (Function.update_of_ne hMint _ _).trans hLast
        · rcases Option.map_eq_some_iff.mp (Option.mem_toList.mp hNew)
            with ⟨t, hSome, rfl⟩
          exact absurd (hMade t hSome).1 hMint
  · simp only [Life.step, Life.note, run_of_stay hEnter, Option.map_none,
      Option.toList_none, List.append_nil]
    exact ⟨hCooled.cooldown, hCooled.last,
      ⟨hCooled.spaced.apart, hCooled.spaced.stamped⟩⟩

omit [IsStrictOrderedRing α] in
theorem cooled_save
    {saved : α}
    (outcome : SaveOutcome)
    (hCooled : Cooled p j) :
    Cooled (p.saveBuffers saved outcome) (j.save outcome) := by
  cases outcome with
  | failed => exact hCooled
  | done | torn =>
      exact ⟨hCooled.cooldown, hCooled.last,
        ⟨hCooled.spaced.apart, hCooled.spaced.stamped⟩⟩

omit [IsStrictOrderedRing α] in
/- A start knows of no signal before it. -/
theorem cooled_start
    (mlGenerator : MLSignalGenerator α)
    (buyAmountSol : α)
    (file : CheckpointFile α)
    (hNone : j.signals = []) :
    Cooled (.start mlGenerator buyAmountSol file) j := by
  refine ⟨rfl, ?_, ?_, ?_⟩
  · rw [hNone]
    nofun
  · rw [hNone]
    exact List.Pairwise.nil
  · rw [hNone]
    nofun

theorem cooled_step
    (e : LifeEvent α)
    (hCooled : Cooled p j)
    (hTimely : Timely (p, j) e) :
    Cooled (life.step p e) (life.note p e j) := by
  cases e with
  | analyze clock token =>
      exact cooled_analyze hCooled hTimely
  | checkpoint now saved outcome =>
      simp only [Life.step, Life.note, Process.maybeCheckpointBuffers]
      split
      · exact cooled_save outcome hCooled
      · exact hCooled
  | flush saved outcome => exact cooled_save outcome hCooled
  | retune mlGenerator buyAmountSol =>
      exact ⟨hCooled.cooldown, hCooled.last,
        ⟨hCooled.spaced.apart, hCooled.spaced.stamped⟩⟩
  | start mlGenerator buyAmountSol =>
      exact cooled_start mlGenerator buyAmountSol p.file rfl

/-
  Of all runs in which an analysis does not decide before it has
  begun.
-/
theorem spaced_of_exec
    (life : Life α)
    (mlGenerator : MLSignalGenerator α)
    (buyAmountSol : α)
    (file : CheckpointFile α)
    (es : List (LifeEvent α))
    (p : Process α)
    (j : Journal α)
    (hTimely :
      life.watched.Meets Timely
        (.start mlGenerator buyAmountSol file, .ofFile file) es)
    (hExec :
      life.watched.exec
        (.start mlGenerator buyAmountSol file, .ofFile file) es =
          some (p, j)) :
    Spaced j := by
  have hCooled : Cooled (p, j).1 (p, j).2 := by
    refine Transition.exec_invariant
      (P := fun _ (q : Process α × Journal α) => Cooled q.1 q.2)
      (cooled_start mlGenerator buyAmountSol file rfl) ?_ hTimely hExec
    intro _ q e q' _ hCooled hTimely hStep
    rcases Transition.watch_step.mp hStep with ⟨hLife, hNote⟩
    rw [← hNote, ← Option.some.inj hLife]
    exact cooled_step e hCooled hTimely
  exact hCooled.spaced

end Cooldown

end Model

/- A model that is sure of a rise. -/
def sureModel : MLSignalGenerator ℚ :=
  ⟨some ⟨fun _ => .ok [1, 0, 0], ["BUY", "SELL", "HOLD"]⟩⟩

def sampleLife : Life ℚ where
  np := nearZero
  text := plainText
  settings := defaultSettings
  momentumScore := calculateMomentumScore nearZero
  checkpointInterval := 300

/- The volume of the token is above the threshold. -/
def spikedToken (price : ℚ) : TokenMarketData ℚ :=
  { thinToken with price := price, volume24hSol := 20 }

/- The second price is recorded after the save, and is lost. -/
def crashedLife : List (LifeEvent ℚ) :=
  [.analyze ⟨0, 0, 0⟩ (spikedToken 1), .checkpoint 10 10 .done,
    .analyze ⟨60, 60, 60⟩ (spikedToken 2), .checkpoint 70 70 .done,
    .start sureModel (1 / 10), .analyze ⟨80, 80, 80⟩ (spikedToken 3)]

theorem recovers_crashedLife :
    ∃ (p : Process ℚ) (j : Journal ℚ),
      p.strategy.priceWindows "thin" = [1, 3] ∧ Recovers p j := by
  have hAny :=
    Transition.exists_exec_of_any sampleLife.watched
      (.start sureModel (1 / 10) .missing, .ofFile .missing) crashedLife
      (fun q => decide (q.1.strategy.priceWindows "thin" = [1, 3]))
      (by decide +kernel)
  rcases hAny with ⟨⟨p, j⟩, hExec, hShown⟩
  exact ⟨p, j, of_decide_eq_true hShown,
    recovers_of_exec sampleLife sureModel (1 / 10) .missing crashedLife p
      j hExec⟩

/-
  The token is analysed three times, and traded twice; the first
  signal is made long after it was decided.
-/
def spacedLife : List (LifeEvent ℚ) :=
  [.analyze ⟨0, 1, 59⟩ (spikedToken 1),
    .analyze ⟨60, 60, 60⟩ (spikedToken 1),
    .analyze ⟨61, 62, 62⟩ (spikedToken 1)]

theorem spaced_spacedLife :
    ∃ j : Journal ℚ,
      j.signals.map (fun a => (a.clock.decided, a.signal.timestamp)) =
          [(1, 59), (62, 62)] ∧
        Spaced j := by
  have hTimely :
      sampleLife.watched.Meets Timely
        (.start sureModel (1 / 10) .missing, .ofFile .missing)
        spacedLife := by
    refine Transition.meets_cons (by norm_num [Timely]) fun _ _ => ?_
    refine Transition.meets_cons (by norm_num [Timely]) fun _ _ => ?_
    refine Transition.meets_cons (by norm_num [Timely]) fun _ _ => ?_
    exact Transition.meets_nil
  have hAny :=
    Transition.exists_exec_of_any sampleLife.watched
      (.start sureModel (1 / 10) .missing, .ofFile .missing) spacedLife
      (fun q =>
        decide
          (q.2.signals.map
              (fun a => (a.clock.decided, a.signal.timestamp)) =
            [(1, 59), (62, 62)]))
      (by decide +kernel)
  rcases hAny with ⟨⟨p, j⟩, hExec, hShown⟩
  exact ⟨j, of_decide_eq_true hShown,
    spaced_of_exec sampleLife sureModel (1 / 10) .missing spacedLife p j
      hTimely hExec⟩

end Momentum

end Pumpy
