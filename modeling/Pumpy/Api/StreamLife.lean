import Pumpy.Api.Fanout

/-
  The life of the StreamOrders call: one call is live, or a
  reconnect is pending.

  The server is never left without a stream and without a
  timer.  It comes to two streams if the second callback of an
  ended call runs after the reconnect: the callback takes the
  new call for ended, and arms a timer that opens another one.

  Key definitions include:
    * `Fanout.OneStream`
    * `Fanout.Timely`
    * `Fanout.Turns`

  The main results are `orPending_of_run`,
  `oneStream_of_timely` and `not_oneStream`.
-/

namespace Pumpy

open Interleaving

namespace Fanout

------------------------------------------------------------
-- The property
------------------------------------------------------------

def liveCalls (s : Fanout) : Nat :=
  s.calls.countP StreamCall.live

/-
  At most one call is live, and if none is, a reconnect is
  pending.
-/
structure OneStream (s : Fanout) : Prop where
  atMostOne : s.liveCalls ≤ 1
  orPending : s.liveCalls = 0 → s.reconnectTimer = true

/- A callback of an ended call runs while no later call is live. -/
def Timely (s : Fanout) : Event → Prop
  | .ended call =>
      (∃ c, s.calls[call]? = some c ∧ c.live = true) ∨
        s.liveCalls = 0
  | .failed call =>
      (∃ c, s.calls[call]? = some c ∧ c.live = true) ∨
        s.liveCalls = 0
  | _ => True

------------------------------------------------------------
-- What an event does to the stream
------------------------------------------------------------

variable {s s' : Fanout} {e : Event} {es : List Event}

/- What is to be known of an event where only the stream counts. -/
inductive Turns (s : Fanout) : Event → Fanout → Prop
  -- A callback of a call ran, which is not live afterwards.
  | ends
      {e : Event}
      {s' : Fanout}
      {call : Nat}
      {c c' : StreamCall}
      (hCall : s.calls[call]? = some c)
      (hEvent : e = .ended call ∨ e = .failed call)
      (hDead : c'.live = false)
      (hCalls : s'.calls = s.calls.set call c')
      (hActive : s'.singletonActive = false)
      (hTimer : s'.reconnectTimer = true) :
      Turns s e s'
  -- The timer fired, and no call was opened.
  | throws
      {s' : Fanout}
      (hWas : s.reconnectTimer = true)
      (hIdle : s.singletonActive = false)
      (hCalls : s'.calls = s.calls)
      (hActive : s'.singletonActive = false)
      (hTimer : s'.reconnectTimer = true) :
      Turns s (.reconnectTimer true) s'
  | opens
      {s' : Fanout}
      (hWas : s.reconnectTimer = true)
      (hIdle : s.singletonActive = false)
      (hCalls : s'.calls = s.calls ++ [⟨false, false⟩])
      (hActive : s'.singletonActive = true)
      (hTimer : s'.reconnectTimer = false) :
      Turns s (.reconnectTimer false) s'
  -- The timer fired while a call was taken for live.
  | ignored
      {throws : Bool}
      {s' : Fanout}
      (hWas : s.reconnectTimer = true)
      (hBusy : s.singletonActive = true)
      (hCalls : s'.calls = s.calls)
      (hActive : s'.singletonActive = true) :
      Turns s (.reconnectTimer throws) s'
  | keeps
      {e : Event}
      {s' : Fanout}
      (hCalls : s'.calls = s.calls)
      (hActive : s'.singletonActive = s.singletonActive)
      (hTimer : s'.reconnectTimer = s.reconnectTimer) :
      Turns s e s'

/- `onEnd` for a call that has just stopped being live. -/
theorem turns_of_onEnd
    {call : Nat}
    {c c' : StreamCall}
    (hCall : s.calls[call]? = some c)
    (hEvent : e = .ended call ∨ e = .failed call)
    (hDead : c'.live = false) :
    Turns s e { s with calls := s.calls.set call c' }.onEnd := by
  apply Turns.ends hCall hEvent hDead
  · simp [onEnd]
  · simp [onEnd]
  · simp [onEnd]

theorem turns_of_step
    (hStep : s.step e = some s') :
    Turns s e s' := by
  cases e with
  | data call update now =>
      simp only [step] at hStep
      split at hStep
      · cases hStep
        exact .keeps rfl rfl rfl
      · cases hStep
  | ended call =>
      obtain ⟨c, c', hCall, hDead, rfl⟩ :=
        ends_of_callback hStep (.inl rfl)
      exact turns_of_onEnd hCall (.inl rfl) hDead
  | failed call =>
      obtain ⟨c, c', hCall, hDead, rfl⟩ :=
        ends_of_callback hStep (.inr rfl)
      exact turns_of_onEnd hCall (.inr rfl) hDead
  | healthTimer =>
      simp only [step] at hStep
      split at hStep
      · cases hStep
        exact .keeps rfl rfl rfl
      · cases hStep
  | reconnectTimer throws =>
      simp only [step] at hStep
      split at hStep
      · next hWas =>
          cases hStep
          cases hBusy : s.singletonActive with
          | true =>
              apply Turns.ignored hWas hBusy <;>
                simp [startSingletonStream]
          | false =>
              cases throws with
              | true =>
                  apply Turns.throws hWas hBusy <;>
                    simp [startSingletonStream]
              | false =>
                  apply Turns.opens hWas hBusy <;>
                    simp [startSingletonStream]
      · cases hStep
  | lookedUp number rows =>
      simp only [step] at hStep
      split at hStep
      · cases hStep
      · cases hStep
        exact .keeps rfl rfl rfl
  | connected orderIds =>
      cases hStep
      exact .keeps rfl rfl rfl
  | filtered client orderIds =>
      obtain ⟨c, c', -, -, rfl⟩ :=
        keeps_received_of_client hStep (.inl ⟨orderIds, rfl⟩)
      exact .keeps rfl rfl rfl
  | closed client =>
      obtain ⟨c, c', -, -, rfl⟩ :=
        keeps_received_of_client hStep (.inr rfl)
      exact .keeps rfl rfl rfl

------------------------------------------------------------
-- The Number of Live Calls
------------------------------------------------------------

/- A call that is not live any more is one less, if it was live. -/
theorem countP_live_set
    {calls : List StreamCall}
    {call : Nat}
    {c c' : StreamCall}
    (hCall : calls[call]? = some c)
    (hDead : c'.live = false) :
    (calls.set call c').countP StreamCall.live =
      calls.countP StreamCall.live - (if c.live then 1 else 0) := by
  rcases List.getElem?_eq_some_iff.mp hCall with ⟨hLess, hSame⟩
  rw [List.countP_set hLess, hSame, hDead]
  simp

/-
  The server takes itself for streaming exactly while no timer
  is pending, and then the call opened last is live.
-/
structure Attended (s : Fanout) : Prop where
  armed : s.singletonActive = !s.reconnectTimer
  streaming : s.singletonActive = true → 1 ≤ s.liveCalls

theorem attended_boot
    (throws : Bool) :
    (boot throws).Attended := by
  cases throws with
  | true => exact ⟨rfl, fun hActive => by cases hActive⟩
  | false => exact ⟨rfl, fun _ => Nat.le_refl 1⟩

theorem Attended.step
    (hInv : s.Attended)
    (hStep : s.step e = some s') :
    s'.Attended := by
  cases turns_of_step hStep with
  | ends _ _ _ _ hActive hTimer =>
      refine ⟨by rw [hActive, hTimer]; rfl, fun hBusy => ?_⟩
      rw [hActive] at hBusy
      cases hBusy
  | throws _ _ _ hActive hTimer =>
      refine ⟨by rw [hActive, hTimer]; rfl, fun hBusy => ?_⟩
      rw [hActive] at hBusy
      cases hBusy
  | opens _ _ hCalls hActive hTimer =>
      refine ⟨by rw [hActive, hTimer]; rfl, fun _ => ?_⟩
      simp [liveCalls, hCalls, StreamCall.live]
  | ignored hWas hBusy _ _ =>
      have hArmed := hInv.armed
      rw [hWas, hBusy] at hArmed
      cases hArmed
  | keeps hCalls hActive hTimer =>
      refine ⟨by rw [hActive, hTimer]; exact hInv.armed, ?_⟩
      rw [hActive, liveCalls, hCalls]
      exact hInv.streaming

theorem attended_of_run
    {throws : Bool}
    (hRun : system.exec (boot throws) es = some s) :
    s.Attended :=
  Transition.exec_induction (P := fun _ s => s.Attended)
    (attended_boot throws)
    (fun _ _ _ _ _ hInv hStep => hInv.step hStep) hRun

/- In every run, no live call means a pending reconnect. -/
theorem orPending_of_run
    {throws : Bool}
    (hRun : system.exec (boot throws) es = some s)
    (hNone : s.liveCalls = 0) :
    s.reconnectTimer = true := by
  have hInv := attended_of_run hRun
  by_contra hTimer
  have hActive : s.singletonActive = true := by
    rw [hInv.armed]
    simpa using hTimer
  have hLive := hInv.streaming hActive
  omega

------------------------------------------------------------
-- Timely Callbacks
------------------------------------------------------------

/- What the server takes for live is what is live. -/
def Alone (s : Fanout) : Prop :=
  s.liveCalls ≤ if s.singletonActive then 1 else 0

theorem alone_boot
    (throws : Bool) :
    (boot throws).Alone := by
  cases throws with
  | true => exact Nat.le_refl 0
  | false => exact Nat.le_refl 1

/- A timely callback leaves no call live. -/
theorem liveCalls_of_timely
    {call : Nat}
    {c c' : StreamCall}
    (hInv : s.Alone)
    (hTimely : s.Timely e)
    (hEvent : e = .ended call ∨ e = .failed call)
    (hCall : s.calls[call]? = some c)
    (hDead : c'.live = false)
    (hCalls : s'.calls = s.calls.set call c') :
    s'.liveCalls = 0 := by
  have hFirst : c.live = true ∨ s.liveCalls = 0 := by
    rcases hEvent with hEvent | hEvent <;>
      · rw [hEvent] at hTimely
        rcases hTimely with ⟨d, hSame, hLive⟩ | hNone
        · rw [hCall] at hSame
          cases hSame
          exact .inl hLive
        · exact .inr hNone
  have hCount :
      s'.liveCalls = s.liveCalls - (if c.live then 1 else 0) := by
    rw [liveCalls, hCalls, countP_live_set hCall hDead]
    rfl
  have hOne : s.liveCalls ≤ 1 := by
    unfold Alone at hInv
    split at hInv <;> omega
  rcases hFirst with hLive | hNone
  · rw [hLive] at hCount
    simp only [if_true] at hCount
    omega
  · omega

theorem Alone.step
    (hInv : s.Alone)
    (hTimely : s.Timely e)
    (hStep : s.step e = some s') :
    s'.Alone := by
  cases turns_of_step hStep with
  | ends hCall hEvent hDead hCalls _ _ =>
      have hNone :=
        liveCalls_of_timely hInv hTimely hEvent hCall hDead hCalls
      rw [Alone, hNone]
      exact Nat.zero_le _
  | throws _ hIdle hCalls hActive _ =>
      rw [Alone, hActive, liveCalls, hCalls, ← hIdle]
      exact hInv
  | opens _ hIdle hCalls hActive _ =>
      have hNone : s.calls.countP StreamCall.live = 0 := by
        rw [Alone, hIdle] at hInv
        exact Nat.le_zero.mp hInv
      rw [Alone, hActive, liveCalls, hCalls, List.countP_append, hNone]
      exact Nat.le_refl 1
  | ignored _ hBusy hCalls hActive =>
      rw [Alone, hActive.trans hBusy.symm, liveCalls, hCalls]
      exact hInv
  | keeps hCalls hActive _ =>
      rw [Alone, hActive, liveCalls, hCalls]
      exact hInv

end Fanout

/-
  If every callback of an ended call runs while no later call
  is live, there is one stream or one pending reconnect in
  every state of the run.
-/
theorem oneStream_of_timely
    {throws : Bool}
    {es : List Fanout.Event}
    (hTimely :
      Fanout.system.Meets Fanout.Timely (.boot throws) es) :
    Fanout.system.Throughout Fanout.OneStream (.boot throws) es := by
  intro pre post s hSplit hPre
  rw [hSplit] at hTimely
  have hAlone : s.Alone :=
    Transition.exec_invariant (P := fun _ s => s.Alone)
      (Fanout.alone_boot throws)
      (fun _ _ _ _ _ hInv hMeets hStep => hInv.step hMeets hStep)
      hTimely.earlier hPre
  refine ⟨?_, Fanout.orPending_of_run hPre⟩
  unfold Fanout.Alone at hAlone
  split at hAlone <;> omega

/- A call fails, its two callbacks run, and it is opened again. -/
def sampleReconnect : List Fanout.Event :=
  [.failed 0, .ended 0, .reconnectTimer false]

theorem oneStream_sampleReconnect :
    Fanout.system.Throughout Fanout.OneStream (.boot false)
      sampleReconnect := by
  apply oneStream_of_timely
  refine Transition.meets_cons (.inl ⟨_, rfl, rfl⟩) fun s hFailed => ?_
  cases hFailed
  refine Transition.meets_cons (.inr (by decide)) fun s hEnded => ?_
  cases hEnded
  exact Transition.meets_cons trivial fun _ _ => Transition.meets_nil

/-
  A call fails and is opened again, and only then its second
  callback runs.  The reconnect it arms opens a second call
  beside the first.
-/
theorem not_oneStream :
    ∃ throws es s,
      Fanout.system.exec (.boot throws) es = some s ∧
        ¬s.OneStream := by
  rcases Fanout.system.exists_exec_of_any (.boot false)
      [.failed 0, .reconnectTimer false, .ended 0,
        .reconnectTimer false]
      (fun s => s.liveCalls = 2) (by decide) with
    ⟨s, hRun, hTwo⟩
  refine ⟨false, _, s, hRun, fun hOne => ?_⟩
  have hMost := hOne.atMostOne
  have hLive := of_decide_eq_true hTwo
  omega

end Pumpy
