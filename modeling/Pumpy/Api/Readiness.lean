import Mathlib.Data.List.Perm.Basic
import Pumpy.Interleaving.Transition

/-
  The readiness probe of the API server
  (artifacts/api-server/src/routes/health.ts) and the pool of
  database connections it shares with everyone else.

  A callback runs to its next `await`, with all that its promises
  set off at once.  Which probe goes on next, when its timer
  fires, whether and when the pool hands out a connection, and
  how a query ends, is up to the events.

  Key definitions include:
    * `Probe`
    * `Pool`
    * `Pool.system`
    * `Accounted`

  The main result is `accounted_of_exec`: however the probes and
  their time-outs interleave, every connection is in the pool or
  held by one user, and probes that are through hold none.
-/

namespace Pumpy

namespace Readiness

open Interleaving

------------------------------------------------------------
-- Probes
------------------------------------------------------------

def connectTimeoutMs : ℕ := 3000

/- Where the handler waits. -/
inductive Stage where
  -- in `Promise.race`
  | connecting : Stage
  -- in `client.query("SET LOCAL statement_timeout = 3000")`
  | limiting : Stage
  -- in `client.query("SELECT 1")`
  | selecting : Stage
  | finished : Stage
deriving DecidableEq, Repr

inductive Response where
  -- 200
  | ok (db : String) : Response
  -- 503
  | unavailable (error : String) : Response
deriving DecidableEq

/-
  A request: `client` is there until it is released, and
  `releaseLater` if the handler has left it to `connectPromise`.
-/
structure Probe where
  stage : Stage
  client : Option ℕ
  timerFired : Bool
  releaseLater : Bool
  responses : List Response
deriving DecidableEq

/- Who waits for a connection. -/
inductive Requester where
  | probe (i : ℕ) : Requester
  | other : Requester
deriving DecidableEq

/-
  The connections that can be handed out, those who wait for one,
  what others than the probes have, and the probes.
-/
structure Pool where
  idle : List ℕ
  waiting : List Requester
  others : List ℕ
  probes : List Probe
deriving DecidableEq

inductive PoolEvent where
  | request : PoolEvent
  | otherConnects : PoolEvent
  -- one that waits gets a connection
  | grant (k : ℕ) : PoolEvent
  -- one that waits is refused
  | refuse (k : ℕ) (message : String) : PoolEvent
  | timer (i : ℕ) : PoolEvent
  -- the query of a probe ends, with a message if it fails
  | queried (i : ℕ) (failure : Option String) : PoolEvent
  | otherReleases (k : ℕ) : PoolEvent

namespace Probe

/- `pool.connect()`, and the race with the timer. -/
def start : Probe where
  stage := .connecting
  client := none
  timerFired := false
  releaseLater := false
  responses := []

/- The response, with which the handler is done with its client. -/
def finish (p : Probe) (response : Response) : Probe :=
  { p with
    stage := .finished
    client := none
    responses := p.responses ++ [response] }

end Probe

namespace Pool

def start (connections : List ℕ) : Pool where
  idle := connections
  waiting := []
  others := []
  probes := []

def setProbe (s : Pool) (i : ℕ) (p : Probe) : Pool :=
  { s with probes := s.probes.set i p }

/- `client.release()`. -/
def release (s : Pool) (client : Option ℕ) : Pool :=
  { s with idle := s.idle ++ client.toList }

/- `connectPromise` of probe `i` is fulfilled. -/
def fulfil (s : Pool) (i c : ℕ) : Pool :=
  match s.probes[i]? with
  | none => s
  | some p =>
      match p.stage with
      | .connecting =>
          s.setProbe i { p with stage := .limiting, client := some c }
      | _ =>
          if p.releaseLater then
            (s.setProbe i { p with releaseLater := false }).release
              (some c)
          else
            s

/- It is rejected. -/
def reject (s : Pool) (i : ℕ) (message : String) : Pool :=
  match s.probes[i]? with
  | none => s
  | some p =>
      match p.stage with
      | .connecting => s.setProbe i (p.finish (.unavailable message))
      | _ => s.setProbe i { p with releaseLater := false }

/- The timer of probe `i` fires; it is never cleared. -/
def timeOut (s : Pool) (i : ℕ) : Option Pool :=
  match s.probes[i]? with
  | none => none
  | some p =>
      if p.timerFired then
        none
      else
        let p := { p with timerFired := true }
        match p.stage with
        | .connecting =>
            let p :=
              p.finish
                (.unavailable
                  ("DB pool did not yield a connection within " ++
                    toString connectTimeoutMs ++ "ms"))
            some (s.setProbe i { p with releaseLater := true })
        | _ => some (s.setProbe i p)

/- The query of probe `i` ends. -/
def queryEnds
    (s : Pool)
    (i : ℕ)
    (failure : Option String) : Option Pool :=
  match s.probes[i]? with
  | none => none
  | some p =>
      match p.stage, failure with
      | .limiting, none =>
          some (s.setProbe i { p with stage := .selecting })
      | .selecting, none =>
          some ((s.setProbe i (p.finish (.ok "reachable"))).release
            p.client)
      | .limiting, some message | .selecting, some message =>
          some ((s.setProbe i (p.finish (.unavailable message))).release
            p.client)
      | _, _ => none

def step (s : Pool) : PoolEvent → Option Pool
  | .request =>
      some
        { s with
          waiting := s.waiting ++ [.probe s.probes.length]
          probes := s.probes ++ [.start] }
  | .otherConnects => some { s with waiting := s.waiting ++ [.other] }
  | .grant k =>
      match s.idle, s.waiting[k]? with
      | c :: idle, some (.probe i) =>
          some
            ({ s with
              idle := idle
              waiting := s.waiting.eraseIdx k }.fulfil i c)
      | c :: idle, some .other =>
          some
            { s with
              idle := idle
              waiting := s.waiting.eraseIdx k
              others := s.others ++ [c] }
      | _, _ => none
  | .refuse k message =>
      match s.waiting[k]? with
      | none => none
      | some (.probe i) =>
          some ({ s with waiting := s.waiting.eraseIdx k }.reject i message)
      | some .other => some { s with waiting := s.waiting.eraseIdx k }
  | .timer i => s.timeOut i
  | .queried i failure => s.queryEnds i failure
  | .otherReleases k =>
      match s.others[k]? with
      | none => none
      | some c =>
          some
            { s with
              idle := s.idle ++ [c]
              others := s.others.eraseIdx k }

def system : Transition PoolEvent Pool where
  step := step

/- What the probes have. -/
def held (s : Pool) : List ℕ :=
  s.probes.filterMap Probe.client

end Pool

------------------------------------------------------------
-- Accounts
------------------------------------------------------------

/-
  A probe has a connection while it queries, and leaves it to the
  promise only when it is through; it gives one response, and its
  timer does not let it wait for a connection.
-/
structure Probe.Orderly (p : Probe) : Prop where
  client :
    p.client.isSome = true ↔ p.stage = .limiting ∨ p.stage = .selecting
  later : p.releaseLater = true → p.stage = .finished
  responses : p.responses.length = if p.stage = .finished then 1 else 0
  timed : p.timerFired = true → p.stage ≠ .connecting

/-
  Every connection is somewhere, and nowhere twice; once all
  probes are through, the others have what is not in the pool.
-/
structure Accounted (connections : List ℕ) (s : Pool) : Prop where
  conserved : (s.idle ++ s.held ++ s.others).Perm connections
  orderly : ∀ p ∈ s.probes, p.Orderly
  drained :
    (∀ p ∈ s.probes, p.stage = .finished) →
      (s.idle ++ s.others).Perm connections

/- The probe has something to do with a connection it gets. -/
def Probe.awaits (p : Probe) : Bool :=
  p.stage = .connecting || p.releaseLater

/- The requests of probe `i` that ought to wait. -/
def Pool.awaited (s : Pool) (i : ℕ) : ℕ :=
  match s.probes[i]? with
  | none => 0
  | some p => p.awaits.toNat

/- What is so after every run. -/
structure Inv (connections : List ℕ) (s : Pool) : Prop where
  counts :
    ∀ c,
      s.idle.count c + s.held.count c + s.others.count c =
        connections.count c
  orderly : ∀ p ∈ s.probes, p.Orderly
  waits : ∀ i, s.waiting.count (.probe i) = s.awaited i

section Steps

variable {connections : List ℕ} {s s' : Pool} {e : PoolEvent}
variable {i : ℕ} {p p' : Probe}

theorem orderly_start : Probe.start.Orderly where
  client := by simp [Probe.start]
  later := by simp [Probe.start]
  responses := by simp [Probe.start]
  timed := by simp [Probe.start]

theorem Probe.Orderly.finish
    {response : Response}
    (hOrderly : p.Orderly)
    (hStage : p.stage ≠ .finished) :
    (p.finish response).Orderly where
  client := by simp [Probe.finish]
  later := fun _ => rfl
  responses := by
    have hNone := hOrderly.responses
    rw [if_neg hStage] at hNone
    simp [Probe.finish, hNone]
  timed := by simp [Probe.finish]

/- What is taken out of a list, and what is left. -/
theorem perm_eraseIdx
    {α : Type} {xs : List α} {k : ℕ} {x : α}
    (hAt : xs[k]? = some x) :
    (x :: xs.eraseIdx k).Perm xs := by
  rcases List.getElem?_eq_some_iff.mp hAt with ⟨hLess, hEq⟩
  rw [← hEq]
  exact List.getElem_cons_eraseIdx_perm hLess

theorem count_of_perm
    {xs ys : List ℕ} {c : ℕ}
    (hPerm : (c :: xs).Perm ys)
    (x : ℕ) :
    ys.count x = xs.count x + [c].count x := by
  rw [← hPerm.count_eq, ← List.singleton_append, List.count_append,
    Nat.add_comm]

/- A probe that is replaced changes what is held by its own part. -/
theorem count_held_set
    {probes : List Probe}
    (next : Probe)
    (hAt : probes[i]? = some p)
    (c : ℕ) :
    ((probes.set i next).filterMap Probe.client).count c +
        p.client.toList.count c =
      (probes.filterMap Probe.client).count c +
        next.client.toList.count c := by
  have hMap (q : Probe) (qs : List Probe) :
      (q :: qs).filterMap Probe.client =
        q.client.toList ++ qs.filterMap Probe.client := by
    rw [List.filterMap_cons]
    cases q.client with
    | none => rfl
    | some d => rfl
  induction probes generalizing i with
  | nil => cases hAt
  | cons q qs ih =>
    cases i with
    | zero =>
      cases hAt
      rw [List.set_cons_zero, hMap, hMap, List.count_append,
        List.count_append]
      omega
    | succ i =>
      have hRest := ih hAt
      rw [List.set_cons_succ, hMap, hMap, List.count_append,
        List.count_append]
      omega

theorem awaited_set
    {t : Pool}
    (hAt : s.probes[i]? = some p)
    (hProbes : t.probes = s.probes.set i p')
    (j : ℕ) :
    t.awaited j =
      if j = i then p'.awaits.toNat else s.awaited j := by
  unfold Pool.awaited
  rw [hProbes]
  by_cases hSame : j = i
  · subst hSame
    have hLess := (List.getElem?_eq_some_iff.mp hAt).1
    rw [List.getElem?_set_self hLess, if_pos rfl]
  · rw [List.getElem?_set_ne (Ne.symm hSame), if_neg hSame]

/- The rule for whatever happens to one probe. -/
theorem Inv.replace
    {t : Pool}
    (hInv : Inv connections s)
    (hAt : s.probes[i]? = some p)
    (hProbes : t.probes = s.probes.set i p')
    (hOrderly : p'.Orderly)
    (hCounts :
      ∀ c,
        t.idle.count c + p'.client.toList.count c + t.others.count c =
          s.idle.count c + p.client.toList.count c + s.others.count c)
    (hWaits :
      ∀ j,
        t.waiting.count (.probe j) =
          if j = i then p'.awaits.toNat
          else s.waiting.count (.probe j)) :
    Inv connections t := by
  constructor
  · intro c
    have hHeld := count_held_set p' hAt c
    have hBefore := hInv.counts c
    have hNow := hCounts c
    rw [Pool.held] at hBefore ⊢
    rw [hProbes]
    omega
  · intro q hMem
    rw [hProbes] at hMem
    rcases List.mem_or_eq_of_mem_set hMem with hOld | rfl
    · exact hInv.orderly q hOld
    · exact hOrderly
  · intro j
    rw [hWaits, awaited_set hAt hProbes, hInv.waits]

/- Where the queue stays, so does what the probe awaits. -/
theorem Inv.stays
    (hInv : Inv connections s)
    (hAt : s.probes[i]? = some p)
    (hAwaits : p'.awaits = p.awaits)
    (j : ℕ) :
    s.waiting.count (.probe j) =
      if j = i then p'.awaits.toNat
      else s.waiting.count (.probe j) := by
  by_cases hSame : j = i
  · subst hSame
    rw [if_pos rfl, hAwaits, hInv.waits, Pool.awaited, hAt]
  · rw [if_neg hSame]

/- Once its request has left the queue, a probe awaits nothing. -/
theorem Inv.leaves
    {waiting : List Requester}
    (hInv : Inv connections s)
    (hAt : s.probes[i]? = some p)
    (hQueue : (Requester.probe i :: waiting).Perm s.waiting)
    (hAwaits : p'.awaits = false)
    (j : ℕ) :
    waiting.count (.probe j) =
      if j = i then p'.awaits.toNat
      else s.waiting.count (.probe j) := by
  have hCount := hQueue.count_eq (.probe j)
  have hOwn := hInv.waits j
  rw [List.count_cons] at hCount
  by_cases hSame : j = i
  · subst hSame
    rw [if_pos rfl, hAwaits]
    rw [Pool.awaited, hAt] at hOwn
    have hOne : p.awaits.toNat ≤ 1 := Bool.toNat_le _
    rw [beq_self_eq_true, if_pos rfl] at hCount
    dsimp only at hOwn
    rw [Bool.toNat_false]
    omega
  · have hOther : (Requester.probe i == Requester.probe j) = false := by
      apply beq_false_of_ne
      intro hEq
      exact hSame (Requester.probe.inj hEq).symm
    rw [if_neg hSame, ← hCount, hOther]
    rfl

/- While it connects, a probe has nothing yet. -/
theorem Probe.Orderly.connecting
    (hOrderly : p.Orderly)
    (hStage : p.stage = .connecting) :
    p.client = none ∧ p.releaseLater = false ∧ p.responses = [] := by
  have hResponses := hOrderly.responses
  rw [hStage] at hResponses
  refine ⟨?_, ?_, List.length_eq_zero_iff.mp hResponses⟩
  · rw [← Option.not_isSome_iff_eq_none, hOrderly.client, hStage]
    simp
  · cases hLater : p.releaseLater with
    | false => rfl
    | true =>
      have hThrough := hOrderly.later hLater
      rw [hStage] at hThrough
      cases hThrough

theorem Probe.Orderly.releases
    (hOrderly : p.Orderly) :
    Probe.Orderly { p with releaseLater := false } where
  client := hOrderly.client
  later := by
    intro hNever
    cases hNever
  responses := hOrderly.responses
  timed := hOrderly.timed

/- Who is in the queue is there to take the connection. -/
theorem Inv.awaits_of_mem
    (hInv : Inv connections s)
    (hMem : Requester.probe i ∈ s.waiting) :
    ∃ p, s.probes[i]? = some p ∧ p.Orderly ∧ p.awaits = true := by
  have hPositive := List.count_pos_iff.mpr hMem
  rw [hInv.waits, Pool.awaited] at hPositive
  cases hAt : s.probes[i]? with
  | none =>
    rw [hAt] at hPositive
    cases hPositive
  | some p =>
    rw [hAt] at hPositive
    refine ⟨p, rfl, hInv.orderly p (List.mem_of_getElem? hAt), ?_⟩
    cases hAwaits : p.awaits with
    | true => rfl
    | false =>
      dsimp only at hPositive
      rw [hAwaits] at hPositive
      cases hPositive

theorem releaseLater_of_awaits
    (hAwaits : p.awaits = true)
    (hStage : p.stage ≠ .connecting) :
    p.releaseLater = true := by
  simpa [Probe.awaits, hStage] using hAwaits

theorem fulfil_connecting
    {c : ℕ}
    (hAt : s.probes[i]? = some p)
    (hStage : p.stage = .connecting) :
    s.fulfil i c =
      s.setProbe i { p with stage := .limiting, client := some c } := by
  simp [Pool.fulfil, hAt, hStage]

theorem fulfil_later
    {c : ℕ}
    (hAt : s.probes[i]? = some p)
    (hStage : p.stage ≠ .connecting)
    (hLater : p.releaseLater = true) :
    s.fulfil i c =
      (s.setProbe i { p with releaseLater := false }).release
        (some c) := by
  unfold Pool.fulfil
  rw [hAt]
  dsimp only
  split
  · contradiction
  · rw [if_pos hLater]

theorem reject_connecting
    {message : String}
    (hAt : s.probes[i]? = some p)
    (hStage : p.stage = .connecting) :
    s.reject i message =
      s.setProbe i (p.finish (.unavailable message)) := by
  simp [Pool.reject, hAt, hStage]

theorem reject_later
    {message : String}
    (hAt : s.probes[i]? = some p)
    (hStage : p.stage ≠ .connecting) :
    s.reject i message =
      s.setProbe i { p with releaseLater := false } := by
  unfold Pool.reject
  rw [hAt]
  dsimp only
  split
  · contradiction
  · rfl

/- The pool hands a connection to a probe that waits. -/
theorem Inv.fulfil
    {c k : ℕ} {idle : List ℕ}
    (hInv : Inv connections s)
    (hIdle : s.idle = c :: idle)
    (hWaiting : s.waiting[k]? = some (.probe i)) :
    Inv connections
      ({ s with
        idle := idle
        waiting := s.waiting.eraseIdx k }.fulfil i c) := by
  have hQueue := perm_eraseIdx hWaiting
  have hMem := List.mem_of_getElem? hWaiting
  have hCount := count_of_perm (List.Perm.of_eq hIdle.symm)
  rcases hInv.awaits_of_mem hMem with ⟨p, hAt, hOrderly, hAwaits⟩
  have hThere :
      { s with
        idle := idle
        waiting := s.waiting.eraseIdx k }.probes[i]? = some p :=
    hAt
  by_cases hStage : p.stage = .connecting
  · rcases hOrderly.connecting hStage with ⟨hNone, hLater, hNoReply⟩
    rw [fulfil_connecting hThere hStage]
    apply hInv.replace hAt rfl
    · exact ⟨by simp, by simp [hLater], by simp [hNoReply], by simp⟩
    · intro x
      have hX := hCount x
      simp only [Pool.setProbe, Option.toList_some, hNone,
        Option.toList_none, List.count_nil]
      omega
    · apply hInv.leaves hAt hQueue
      simp [Probe.awaits, hLater]
  · have hLater := releaseLater_of_awaits hAwaits hStage
    rw [fulfil_later hThere hStage hLater]
    apply hInv.replace hAt rfl hOrderly.releases
    · intro x
      have hX := hCount x
      simp only [Pool.setProbe, Pool.release, List.count_append,
        Option.toList_some]
      omega
    · apply hInv.leaves hAt hQueue
      simp [Probe.awaits, hStage]

/- A probe whose request is refused does not wait any more. -/
theorem Inv.reject
    {k : ℕ} {message : String}
    (hInv : Inv connections s)
    (hWaiting : s.waiting[k]? = some (.probe i)) :
    Inv connections
      ({ s with waiting := s.waiting.eraseIdx k }.reject i message) := by
  have hQueue := perm_eraseIdx hWaiting
  have hMem := List.mem_of_getElem? hWaiting
  rcases hInv.awaits_of_mem hMem with ⟨p, hAt, hOrderly, hAwaits⟩
  have hThere :
      { s with waiting := s.waiting.eraseIdx k }.probes[i]? = some p :=
    hAt
  by_cases hStage : p.stage = .connecting
  · rcases hOrderly.connecting hStage with ⟨hNone, hLater, hNoReply⟩
    rw [reject_connecting hThere hStage]
    apply hInv.replace hAt rfl
    · apply hOrderly.finish
      rw [hStage]
      decide
    · intro x
      simp [Pool.setProbe, Probe.finish, hNone]
    · apply hInv.leaves hAt hQueue
      simp [Probe.awaits, Probe.finish, hLater]
  · rw [reject_later hThere hStage]
    apply hInv.replace hAt rfl hOrderly.releases
    · intro x
      rfl
    · apply hInv.leaves hAt hQueue
      simp [Probe.awaits, hStage]

theorem Inv.timeOut
    (hInv : Inv connections s)
    (hStep : s.timeOut i = some s') :
    Inv connections s' := by
  unfold Pool.timeOut at hStep
  cases hAt : s.probes[i]? with
  | none =>
    rw [hAt] at hStep
    cases hStep
  | some p =>
    have hOrderly := hInv.orderly p (List.mem_of_getElem? hAt)
    rw [hAt] at hStep
    dsimp only at hStep
    split at hStep
    · cases hStep
    · split at hStep
      -- the handler leaves its connection to the promise
      · rename_i hStage
        rcases hOrderly.connecting hStage with ⟨hNone, hLater, hNoReply⟩
        cases hStep
        apply hInv.replace hAt rfl
        · exact ⟨by simp [Probe.finish], fun _ => rfl,
            by simp [Probe.finish, hNoReply], by simp [Probe.finish]⟩
        · intro x
          simp [Pool.setProbe, Probe.finish, hNone]
        · apply hInv.stays hAt
          simp [Probe.awaits, hStage]
      · rename_i hOpen
        cases hStep
        apply hInv.replace hAt rfl
        · exact ⟨hOrderly.client, hOrderly.later, hOrderly.responses,
            fun _ => hOpen⟩
        · intro x
          rfl
        · exact hInv.stays hAt rfl

/- A probe that is through gives back what it has. -/
theorem Inv.finishes
    {response : Response}
    (hInv : Inv connections s)
    (hAt : s.probes[i]? = some p)
    (hStage : p.stage = .limiting ∨ p.stage = .selecting) :
    Inv connections
      ((s.setProbe i (p.finish response)).release p.client) := by
  have hOrderly := hInv.orderly p (List.mem_of_getElem? hAt)
  have hOpen : p.stage ≠ .finished ∧ p.stage ≠ .connecting := by
    rcases hStage with hStage | hStage
    · rw [hStage]
      decide
    · rw [hStage]
      decide
  apply hInv.replace hAt rfl (hOrderly.finish hOpen.1)
  · intro x
    simp only [Pool.release, Pool.setProbe, List.count_append,
      Probe.finish, Option.toList_none, List.count_nil]
    omega
  · apply hInv.stays hAt
    simp [Probe.awaits, Probe.finish, hOpen.2]

theorem Inv.queryEnds
    {failure : Option String}
    (hInv : Inv connections s)
    (hStep : s.queryEnds i failure = some s') :
    Inv connections s' := by
  unfold Pool.queryEnds at hStep
  cases hAt : s.probes[i]? with
  | none =>
    rw [hAt] at hStep
    cases hStep
  | some p =>
    have hOrderly := hInv.orderly p (List.mem_of_getElem? hAt)
    rw [hAt] at hStep
    dsimp only at hStep
    cases hStage : p.stage with
    | connecting | finished =>
      rw [hStage] at hStep
      cases failure with
      | none => cases hStep
      | some message => cases hStep
    | limiting =>
      rw [hStage] at hStep
      cases failure with
      | some message =>
        cases hStep
        exact hInv.finishes hAt (.inl hStage)
      | none =>
        cases hStep
        have hClient := hOrderly.client
        have hResponses := hOrderly.responses
        rw [hStage] at hClient hResponses
        apply hInv.replace hAt rfl
        · refine ⟨by simpa using hClient, ?_,
            by simpa using hResponses, by simp⟩
          intro hLater
          have hThrough := hOrderly.later hLater
          rw [hStage] at hThrough
          cases hThrough
        · intro x
          rfl
        · apply hInv.stays hAt
          simp [Probe.awaits, hStage]
    | selecting =>
      rw [hStage] at hStep
      cases failure with
      | some message =>
        cases hStep
        exact hInv.finishes hAt (.inr hStage)
      | none =>
        cases hStep
        exact hInv.finishes hAt (.inr hStage)

/- A new probe has nothing, and its request is the last. -/
theorem Inv.request
    (hInv : Inv connections s) :
    Inv connections
      { s with
        waiting := s.waiting ++ [.probe s.probes.length]
        probes := s.probes ++ [.start] } := by
  constructor
  · intro c
    have hBefore := hInv.counts c
    have hHeld : (s.probes ++ [Probe.start]).filterMap Probe.client =
          s.held := by
      rw [List.filterMap_append, Pool.held]
      exact List.append_nil _
    rw [Pool.held]
    dsimp only
    rw [hHeld]
    exact hBefore
  · intro p hMem
    rcases List.mem_append.mp hMem with hOld | hNew
    · exact hInv.orderly p hOld
    · rw [List.mem_singleton.mp hNew]
      exact orderly_start
  · intro j
    have hBefore := hInv.waits j
    rw [Pool.awaited] at hBefore ⊢
    dsimp only
    rw [List.count_append, hBefore]
    rcases Nat.lt_trichotomy j s.probes.length with hLess | rfl | hMore
    · rw [List.getElem?_append_left hLess]
      have hOther :
          [Requester.probe s.probes.length].count (.probe j) = 0 := by
        rw [List.count_eq_zero, List.mem_singleton]
        intro hEq
        cases hEq
        exact Nat.lt_irrefl _ hLess
      omega
    · simp [Probe.awaits, Probe.start]
    · have hOther :
          [Requester.probe s.probes.length].count (.probe j) = 0 := by
        rw [List.count_eq_zero, List.mem_singleton]
        intro hEq
        cases hEq
        exact Nat.lt_irrefl _ hMore
      rw [hOther, List.getElem?_eq_none (Nat.le_of_lt hMore),
        List.getElem?_eq_none (by rw [List.length_append]; exact hMore)]

/- The rule for what does not touch the probes. -/
theorem Inv.apart
    {t : Pool}
    (hInv : Inv connections s)
    (hProbes : t.probes = s.probes)
    (hCounts :
      ∀ c,
        t.idle.count c + t.others.count c =
          s.idle.count c + s.others.count c)
    (hWaits :
      ∀ j, t.waiting.count (.probe j) = s.waiting.count (.probe j)) :
    Inv connections t := by
  constructor
  · intro c
    have hBefore := hInv.counts c
    have hNow := hCounts c
    rw [Pool.held] at hBefore ⊢
    rw [hProbes]
    omega
  · intro p hMem
    rw [hProbes] at hMem
    exact hInv.orderly p hMem
  · intro j
    rw [hWaits, hInv.waits, Pool.awaited, Pool.awaited, hProbes]

theorem Inv.grant
    {k : ℕ}
    (hInv : Inv connections s)
    (hStep : s.step (.grant k) = some s') :
    Inv connections s' := by
  rw [Pool.step] at hStep
  cases hIdle : s.idle with
  | nil =>
    rw [hIdle] at hStep
    cases hStep
  | cons c idle =>
    cases hWaiting : s.waiting[k]? with
    | none =>
      rw [hIdle, hWaiting] at hStep
      cases hStep
    | some r =>
      rw [hIdle, hWaiting] at hStep
      cases r with
      | probe i =>
        cases hStep
        exact hInv.fulfil hIdle hWaiting
      | other =>
        cases hStep
        apply hInv.apart
        · rfl
        · intro x
          have hCount := count_of_perm (List.Perm.of_eq hIdle.symm) x
          simp only [List.count_append]
          omega
        · intro j
          rw [← (perm_eraseIdx hWaiting).count_eq, List.count_cons_of_ne]
          intro hEq
          cases hEq

theorem Inv.refuse
    {k : ℕ} {message : String}
    (hInv : Inv connections s)
    (hStep : s.step (.refuse k message) = some s') :
    Inv connections s' := by
  rw [Pool.step] at hStep
  cases hWaiting : s.waiting[k]? with
  | none =>
    rw [hWaiting] at hStep
    cases hStep
  | some r =>
    rw [hWaiting] at hStep
    cases r with
    | probe i =>
      cases hStep
      exact hInv.reject hWaiting
    | other =>
      cases hStep
      apply hInv.apart
      · rfl
      · intro x
        rfl
      · intro j
        rw [← (perm_eraseIdx hWaiting).count_eq, List.count_cons_of_ne]
        intro hEq
        cases hEq

theorem Inv.otherReleases
    {k : ℕ}
    (hInv : Inv connections s)
    (hStep : s.step (.otherReleases k) = some s') :
    Inv connections s' := by
  rw [Pool.step] at hStep
  cases hThere : s.others[k]? with
  | none =>
    rw [hThere] at hStep
    cases hStep
  | some c =>
    rw [hThere] at hStep
    cases hStep
    apply hInv.apart
    · rfl
    · intro x
      have hCount := count_of_perm (perm_eraseIdx hThere) x
      simp only [List.count_append]
      omega
    · intro j
      rfl

theorem Inv.step
    (hInv : Inv connections s)
    (hStep : Pool.system.step s e = some s') :
    Inv connections s' := by
  cases e with
  | request =>
    cases hStep
    exact hInv.request
  | otherConnects =>
    cases hStep
    apply hInv.apart
    · rfl
    · intro x
      rfl
    · intro j
      simp
  | grant k => exact hInv.grant hStep
  | refuse k message => exact hInv.refuse hStep
  | timer i => exact hInv.timeOut hStep
  | queried i failure => exact hInv.queryEnds hStep
  | otherReleases k => exact hInv.otherReleases hStep

theorem inv_start :
    Inv connections (Pool.start connections) where
  counts := by simp [Pool.start, Pool.held]
  orderly := by simp [Pool.start]
  waits := by simp [Pool.start, Pool.awaited]

theorem inv_of_exec
    {es : List PoolEvent}
    (hExec :
      Pool.system.exec (Pool.start connections) es = some s) :
    Inv connections s :=
  Transition.exec_induction (P := fun _ t => Inv connections t)
    inv_start (fun _ _ _ _ _ hInv hStep => hInv.step hStep) hExec

/- Probes that are through have nothing. -/
theorem held_eq_nil
    (hInv : Inv connections s)
    (hThrough : ∀ p ∈ s.probes, p.stage = .finished) :
    s.held = [] := by
  rw [Pool.held, List.filterMap_eq_nil_iff]
  intro p hMem
  rw [← Option.not_isSome_iff_eq_none, (hInv.orderly p hMem).client,
    hThrough p hMem]
  decide

end Steps

/-
  After every run, whatever connections were slow, refused or too
  late, each is in the pool or with one user.
-/
theorem accounted_of_exec
    (connections : List ℕ)
    (es : List PoolEvent)
    (s : Pool)
    (hExec :
      Pool.system.exec (Pool.start connections) es = some s) :
    Accounted connections s := by
  have hInv := inv_of_exec hExec
  have hConserved : (s.idle ++ s.held ++ s.others).Perm connections := by
    rw [List.perm_iff_count]
    intro c
    rw [List.count_append, List.count_append]
    exact hInv.counts c
  constructor
  · exact hConserved
  · exact hInv.orderly
  · intro hThrough
    rw [held_eq_nil hInv hThrough, List.append_nil] at hConserved
    exact hConserved

/- Of two probes and one connection, the second is too late. -/
def lateConnection : List PoolEvent :=
  [.request, .request, .grant 0, .timer 1, .queried 0 none,
    .queried 0 none, .grant 0]

theorem accounted_lateConnection :
    ∃ s,
      s.idle = [7] ∧
        s.probes.map (fun p => p.responses.length) = [1, 1] ∧
        s.waiting = [] ∧ Accounted [7] s := by
  have hAny :=
    Transition.exists_exec_of_any Pool.system (.start [7])
      lateConnection
      (fun s =>
        decide
          (s.idle = [7] ∧
            s.probes.map (fun p => p.responses.length) = [1, 1] ∧
            s.waiting = []))
      (by decide +kernel)
  rcases hAny with ⟨s, hExec, hLast⟩
  rcases of_decide_eq_true hLast with ⟨hIdle, hReplies, hWaiting⟩
  exact ⟨s, hIdle, hReplies, hWaiting,
    accounted_of_exec [7] lateConnection s hExec⟩

end Readiness

end Pumpy
