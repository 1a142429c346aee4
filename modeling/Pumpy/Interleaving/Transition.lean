import Mathlib.Data.List.Induction

/-
  This file defines transition systems whose events fix all
  there is to choose: what an event does to a state is a
  function.  Runs are lists of events.

  Key definitions include:
    * `Transition`
    * `Transition.exec`
    * `Transition.Meets`
    * `Transition.Throughout`
    * `Transition.StepAt`
    * `Transition.Reaches`
    * `Transition.watch`
-/

namespace Interleaving

/- A system over the states `σ`; `step` is `none` if an event cannot be. -/
structure Transition (Event σ : Type) where
  step : σ → Event → Option σ

namespace Transition

variable {Event σ : Type} {T : Transition Event σ}
variable {s t : σ} {e : Event} {es es' : List Event}

/- The state after a run. -/
def exec
    (T : Transition Event σ)
    (s : σ) : List Event → Option σ
  | [] => some s
  | e :: es =>
      match T.step s e with
      | none => none
      | some s' => T.exec s' es

/- Every event of the run meets the condition where it occurs. -/
def Meets
    (T : Transition Event σ)
    (C : σ → Event → Prop)
    (s : σ)
    (es : List Event) : Prop :=
  ∀ pre e post t,
    es = pre ++ e :: post → T.exec s pre = some t → C t e

/- Every state of the run has the property. -/
def Throughout
    (T : Transition Event σ)
    (P : σ → Prop)
    (s : σ)
    (es : List Event) : Prop :=
  ∀ pre post t,
    es = pre ++ post → T.exec s pre = some t → P t

/- Event number `n` of the run, and the states around it. -/
structure StepAt
    (T : Transition Event σ)
    (s : σ)
    (es : List Event)
    (n : Nat)
    (e : Event)
    (t t' : σ) : Prop where
  event : es[n]? = some e
  before : T.exec s (es.take n) = some t
  step : T.step t e = some t'

/- Some run leads from the one state to the other. -/
def Reaches (T : Transition Event σ) (s t : σ) : Prop :=
  ∃ es, T.exec s es = some t

/- The system together with a note that is taken of every event. -/
def watch
    {γ : Type}
    (T : Transition Event σ)
    (note : σ → Event → γ → γ) : Transition Event (σ × γ) where
  step s e := (T.step s.1 e).map fun t => (t, note s.1 e s.2)

@[simp] theorem exec_nil :
    T.exec s [] = some s :=
  rfl

theorem exec_cons :
    T.exec s (e :: es) = some t ↔
      ∃ m, T.step s e = some m ∧ T.exec m es = some t := by
  rw [exec]
  cases hStep : T.step s e with
  | none => simp
  | some m => simp

theorem exec_append :
    T.exec s (es ++ es') = some t ↔
      ∃ m, T.exec s es = some m ∧ T.exec m es' = some t := by
  induction es generalizing s with
  | nil => simp
  | cons e es ih =>
    rw [List.cons_append, exec_cons]
    constructor
    · rintro ⟨m, hStep, hRest⟩
      rcases ih.mp hRest with ⟨n, hFirst, hThen⟩
      exact ⟨n, exec_cons.mpr ⟨m, hStep, hFirst⟩, hThen⟩
    · rintro ⟨n, hFirst, hThen⟩
      rcases exec_cons.mp hFirst with ⟨m, hStep, hRest⟩
      exact ⟨m, hStep, ih.mpr ⟨n, hRest, hThen⟩⟩

theorem exec_singleton :
    T.exec s [e] = some t ↔ T.step s e = some t := by
  rw [exec_cons]
  simp

theorem exec_append_singleton :
    T.exec s (es ++ [e]) = some t ↔
      ∃ m, T.exec s es = some m ∧ T.step m e = some t := by
  simp only [exec_append, exec_singleton]

/- The earlier events of a run meet the condition, if they all do. -/
theorem Meets.earlier
    {C : σ → Event → Prop}
    (hMeets : T.Meets C s (es ++ es')) :
    T.Meets C s es := by
  intro pre e post t hSplit hPre
  refine hMeets pre e (post ++ es') t ?_ hPre
  rw [hSplit, List.append_assoc, List.cons_append]

theorem meets_nil
    {C : σ → Event → Prop} :
    T.Meets C s [] := by
  intro pre e post t hSplit _
  simp at hSplit

/- A run meets the condition if its first event and the rest do. -/
theorem meets_cons
    {C : σ → Event → Prop}
    (hFirst : C s e)
    (hRest : ∀ m, T.step s e = some m → T.Meets C m es) :
    T.Meets C s (e :: es) := by
  intro pre e' post t hSplit hPre
  cases pre with
  | nil =>
    cases hSplit
    cases hPre
    exact hFirst
  | cons d pre =>
    cases hSplit
    rcases exec_cons.mp hPre with ⟨m, hStep, hPre⟩
    exact hRest m hStep pre e' post t rfl hPre

/- A condition that can be evaluated, checked along a run. -/
def check
    (T : Transition Event σ)
    (C : σ → Event → Bool)
    (s : σ) : List Event → Bool
  | [] => true
  | e :: es =>
      C s e &&
        match T.step s e with
        | none => true
        | some m => T.check C m es

theorem meets_of_check
    {C : σ → Event → Prop}
    [∀ s e, Decidable (C s e)]
    (hCheck : T.check (fun s e => decide (C s e)) s es = true) :
    T.Meets C s es := by
  induction es generalizing s with
  | nil => exact meets_nil
  | cons e es ih =>
    rw [check, Bool.and_eq_true] at hCheck
    refine meets_cons (of_decide_eq_true hCheck.1) ?_
    intro m hStep
    have hRest := hCheck.2
    rw [hStep] at hRest
    exact ih hRest

/-
  What holds at the start, with no event, and is kept by every
  event that meets the condition holds after every run whose
  events meet it.
-/
theorem exec_invariant
    {C : σ → Event → Prop}
    {P : List Event → σ → Prop}
    (hStart : P [] s)
    (hStep :
      ∀ es t e t',
        T.exec s es = some t → P es t → C t e →
          T.step t e = some t' → P (es ++ [e]) t')
    (hMeets : T.Meets C s es)
    (hExec : T.exec s es = some t) :
    P es t := by
  induction es using List.reverseRecOn generalizing t with
  | nil =>
    cases hExec
    exact hStart
  | append_singleton es e ih =>
    rcases exec_append_singleton.mp hExec with ⟨m, hBefore, hLast⟩
    have hEarly : T.Meets C s es := hMeets.earlier
    exact hStep es m e t hBefore (ih hEarly hBefore)
      (hMeets es e [] m rfl hBefore) hLast

/- The rule, where every event will do. -/
theorem exec_induction
    {P : List Event → σ → Prop}
    (hStart : P [] s)
    (hStep :
      ∀ es t e t',
        T.exec s es = some t → P es t → T.step t e = some t' →
          P (es ++ [e]) t')
    (hExec : T.exec s es = some t) :
    P es t :=
  exec_invariant (C := fun _ _ => True) hStart
    (fun es t e t' hEs hP _ hLast => hStep es t e t' hEs hP hLast)
    (fun _ _ _ _ _ _ => trivial) hExec

theorem Reaches.refl (s : σ) : T.Reaches s s :=
  ⟨[], rfl⟩

theorem Reaches.trans
    {m : σ}
    (hFirst : T.Reaches s m)
    (hThen : T.Reaches m t) :
    T.Reaches s t := by
  rcases hFirst with ⟨es, hFirst⟩
  rcases hThen with ⟨es', hThen⟩
  exact ⟨es ++ es', exec_append.mpr ⟨m, hFirst, hThen⟩⟩

theorem reaches_of_step
    (e : Event)
    (hStep : T.step s e = some t) :
    T.Reaches s t :=
  ⟨[e], exec_singleton.mpr hStep⟩

/- What every event keeps is so in every state that is reached. -/
theorem Reaches.invariant
    {P : σ → Prop}
    (hReaches : T.Reaches s t)
    (hStart : P s)
    (hStep : ∀ t e t', P t → T.step t e = some t' → P t') :
    P t := by
  rcases hReaches with ⟨es, hExec⟩
  exact exec_induction (P := fun _ t => P t) hStart
    (fun _ t e t' _ hP hLast => hStep t e t' hP hLast) hExec

theorem throughout_nil
    {P : σ → Prop}
    (hHolds : P s) :
    T.Throughout P s [] := by
  intro pre post t hSplit hPre
  rw [(List.nil_eq_append_iff.mp hSplit).1] at hPre
  cases hPre
  exact hHolds

theorem Throughout.snoc
    {P : σ → Prop}
    (hBefore : T.Throughout P s es)
    (hAfter : ∀ t, T.exec s (es ++ [e]) = some t → P t) :
    T.Throughout P s (es ++ [e]) := by
  intro pre post t hSplit hPre
  rcases List.eq_nil_or_concat post with rfl | ⟨post', last, hPost⟩
  · rw [List.append_nil] at hSplit
    rw [← hSplit] at hPre
    exact hAfter t hPre
  · rw [hPost, List.concat_eq_append, ← List.append_assoc] at hSplit
    exact hBefore pre post' t (List.append_inj' hSplit rfl).1 hPre

/-
  If, where an invariant holds, an event leads to a state with
  the property exactly if it meets the condition, and what
  cannot happen meets it, then a run has the property throughout
  exactly if it meets the condition.
-/
theorem throughout_iff_meets_of_invariant
    {C : σ → Event → Prop}
    {I P : σ → Prop}
    (hInv : I s)
    (hStart : P s)
    (hKeeps : ∀ t e t', I t → T.step t e = some t' → I t')
    (hIdle : ∀ t e, T.step t e = none → C t e)
    (hStep :
      ∀ t e t', I t → P t → T.step t e = some t' → (P t' ↔ C t e)) :
    T.Throughout P s es ↔ T.Meets C s es := by
  have hHolds : ∀ {es t}, T.exec s es = some t → I t :=
    fun hExec =>
      exec_induction (P := fun _ t => I t) hInv
        (fun _ t e t' _ hI hNext => hKeeps t e t' hI hNext) hExec
  constructor
  · intro hThroughout pre e post t hSplit hPre
    cases hNext : T.step t e with
    | none => exact hIdle t e hNext
    | some t' =>
      have hAfter : T.exec s (pre ++ [e]) = some t' :=
        exec_append_singleton.mpr ⟨t, hPre, hNext⟩
      have hSplit' : es = (pre ++ [e]) ++ post := by
        rw [hSplit, List.append_assoc, List.singleton_append]
      exact (hStep t e t' (hHolds hPre)
        (hThroughout pre _ t hSplit hPre) hNext).mp
          (hThroughout _ post t' hSplit' hAfter)
  · rintro hMeets pre post t rfl hPre
    exact exec_invariant (P := fun _ t => P t) hStart
      (fun _ t e t' hEs hP hC hNext =>
        (hStep t e t' (hHolds hEs) hP hNext).mpr hC)
      hMeets.earlier hPre

/- The rule, where no invariant is needed. -/
theorem throughout_iff_meets
    {C : σ → Event → Prop}
    {P : σ → Prop}
    (hStart : P s)
    (hIdle : ∀ t e, T.step t e = none → C t e)
    (hStep : ∀ t e t', P t → T.step t e = some t' → (P t' ↔ C t e)) :
    T.Throughout P s es ↔ T.Meets C s es :=
  throughout_iff_meets_of_invariant (I := fun _ => True) trivial hStart
    (fun _ _ _ _ _ => trivial) hIdle
    (fun t e t' _ hP hNext => hStep t e t' hP hNext)

section Watch

variable {γ : Type} {note : σ → Event → γ → γ} {p q : σ × γ}

theorem watch_step :
    (T.watch note).step p e = some q ↔
      T.step p.1 e = some q.1 ∧ note p.1 e p.2 = q.2 := by
  change (T.step p.1 e).map _ = some q ↔ _
  rw [Option.map_eq_some_iff]
  constructor
  · rintro ⟨t, hStep, rfl⟩
    exact ⟨hStep, rfl⟩
  · rintro ⟨hStep, hNote⟩
    exact ⟨q.1, hStep, by rw [hNote]⟩

theorem watch_step_none :
    (T.watch note).step p e = none ↔ T.step p.1 e = none :=
  Option.map_eq_none_iff

end Watch

/- A property that can be evaluated, checked in every state of a run. -/
def checkStates
    (T : Transition Event σ)
    (P : σ → Bool)
    (s : σ) : List Event → Bool
  | [] => P s
  | e :: es =>
      P s &&
        match T.step s e with
        | none => true
        | some m => T.checkStates P m es

theorem throughout_of_checkStates
    {P : σ → Prop}
    [∀ s, Decidable (P s)]
    (hCheck : T.checkStates (fun s => decide (P s)) s es = true) :
    T.Throughout P s es := by
  induction es generalizing s with
  | nil => exact throughout_nil (of_decide_eq_true hCheck)
  | cons e es ih =>
    rw [checkStates, Bool.and_eq_true] at hCheck
    intro pre post t hSplit hPre
    cases pre with
    | nil =>
      cases hPre
      exact of_decide_eq_true hCheck.1
    | cons d pre =>
      cases hSplit
      rcases exec_cons.mp hPre with ⟨m, hStep, hPre⟩
      have hRest := hCheck.2
      rw [hStep] at hRest
      exact ih hRest pre post t rfl hPre

/- A run that can be evaluated, to a state that passes `P`. -/
theorem exists_exec_of_any
    (T : Transition Event σ)
    (s : σ)
    (es : List Event)
    (P : σ → Bool)
    (hAny : (T.exec s es).any P = true) :
    ∃ t, T.exec s es = some t ∧ P t = true := by
  cases hExec : T.exec s es with
  | none => simp [hExec] at hAny
  | some t => exact ⟨t, rfl, by simpa [hExec] using hAny⟩

end Transition

end Interleaving
