import Mathlib.Logic.Function.Basic
import Pumpy.Interleaving.Timers
import Pumpy.Interleaving.Transition

/-
  The dashboard's cache of the admin key
  (artifacts/dashboard/src/hooks/use-admin-key.ts): variables of
  a module that all instances of the hook share, and a timer of
  the page that wipes them.

  Key definitions include:
    * `Page`
    * `Page.step`
    * `EnteredLast`
    * `ArmedLast`
    * `Expires`

  The main result is `expires`: in every run a key that is read
  is the last one entered, and younger than its TTL; and a timer
  only wipes the key for which it was armed.
-/

------------------------------------------------------------
-- The Module
------------------------------------------------------------

namespace Pumpy

namespace AdminKey

open Interleaving

/- `HOUR_MS`. -/
def hourMs : ℕ :=
  60 * 60 * 1000

/- The working TTL of `setAdminKey`. -/
def workingMs : ℕ :=
  5 * 60 * 1000

/-
  The variables of the module and the timers of the page, whose
  clock is that of `Date.now()`; and the instances of the hook
  in the order of their mounting, each with its state.
-/
structure Page where
  cachedKey : String
  cacheExpiry : ℕ
  expiryTimer : Option ℕ
  listeners : List ℕ
  timers : Timers
  hooks : ℕ → String
  mounted : ℕ

namespace Page

/- The page is loaded. -/
def load (now : ℕ) : Page where
  cachedKey := ""
  cacheExpiry := 0
  expiryTimer := none
  listeners := []
  timers := .start now
  hooks := fun _ => ""
  mounted := 0

/- `readKey()`. -/
def readKey (p : Page) : String × Page :=
  if p.cachedKey ≠ "" ∧ p.timers.now < p.cacheExpiry then
    (p.cachedKey, p)
  else
    ("", { p with cachedKey := "", cacheExpiry := 0 })

/- `getValidAdminKey()`. -/
def getValidAdminKey (p : Page) : String × Page :=
  p.readKey

/- `sync()`, of an instance. -/
def sync (p : Page) (i : ℕ) : Page :=
  let (key, p) := p.readKey
  { p with hooks := Function.update p.hooks i key }

/- `broadcast()`. -/
def broadcast (p : Page) : Page :=
  p.listeners.foldl sync p

/- `if (_expiryTimer !== null) clearTimeout(_expiryTimer)`. -/
def clearExpiry (p : Page) : Page :=
  match p.expiryTimer with
  | some id => { p with timers := p.timers.clear id }
  | none => p

/- `scheduleExpiry(ttlMs)`. -/
def scheduleExpiry (p : Page) (ttlMs : ℕ) : Page :=
  let p := p.clearExpiry
  let (id, timers) := p.timers.arm ttlMs
  { p with timers := timers, expiryTimer := some id }

/- The callback of the timer. -/
def expire (p : Page) : Page :=
  { p with
    cachedKey := ""
    cacheExpiry := 0
    expiryTimer := none }.broadcast

/- `setAdminKey(key)`. -/
def setAdminKey (p : Page) (key : String) : Page :=
  let p :=
    { p with
      cachedKey := key
      cacheExpiry :=
        if key ≠ "" then p.timers.now + workingMs else 0 }
  let p :=
    if key ≠ "" then
      p.scheduleExpiry workingMs
    else
      { p.clearExpiry with expiryTimer := none }
  p.broadcast

/- `rememberAdminKey(key)`. -/
def rememberAdminKey (p : Page) (key : String) : Page :=
  let p :=
    { p with
      cachedKey := key
      cacheExpiry := p.timers.now + hourMs }
  (p.scheduleExpiry hourMs).broadcast

/- `clearAdminKey()`. -/
def clearAdminKey (p : Page) : Page :=
  let p := { p with cachedKey := "", cacheExpiry := 0 }
  { p.clearExpiry with expiryTimer := none }.broadcast

/- An instance is rendered: `useState(readKey)`. -/
def mount (p : Page) : Page :=
  let (key, p) := p.readKey
  { p with
    hooks := Function.update p.hooks p.mounted key
    mounted := p.mounted + 1 }

/- Its effect runs: `_listeners.add(sync)`. -/
def listen (p : Page) (i : ℕ) : Page :=
  if i ∈ p.listeners then p
  else { p with listeners := p.listeners ++ [i] }

/- Its effect is undone: `_listeners.delete(sync)`. -/
def unmount (p : Page) (i : ℕ) : Page :=
  { p with listeners := p.listeners.filter (· ≠ i) }

end Page

inductive Event where
  | setAdminKey (key : String) : Event
  | rememberAdminKey (key : String) : Event
  | clearAdminKey : Event
  | getValidAdminKey : Event
  | fired (id : ℕ) : Event
  | advanced (ms : ℕ) : Event
  | mounted : Event
  | listening (i : ℕ) : Event
  | unmounted (i : ℕ) : Event
deriving DecidableEq, Repr

/- What happens on the page; a timer fires if it is armed and due. -/
def Page.step (p : Page) : Event → Option Page
  | .setAdminKey key => some (p.setAdminKey key)
  | .rememberAdminKey key => some (p.rememberAdminKey key)
  | .clearAdminKey => some p.clearAdminKey
  | .getValidAdminKey => some p.getValidAdminKey.2
  | .fired id =>
      (p.timers.fire id).map fun timers =>
        { p with timers := timers }.expire
  | .advanced ms => some { p with timers := p.timers.advance ms }
  | .mounted => some p.mount
  | .listening i => if i < p.mounted then some (p.listen i) else none
  | .unmounted i => some (p.unmount i)

def pageRuns : Transition Event Page where
  step := Page.step

------------------------------------------------------------
-- What Is Promised
------------------------------------------------------------

namespace Event

/- The key that a call enters, and its TTL. -/
def enters : Event → Option (String × ℕ)
  | setAdminKey key => some (key, workingMs)
  | rememberAdminKey key => some (key, hourMs)
  | _ => none

/- The calls that enter a key, or clear it. -/
def calls : Event → Bool
  | setAdminKey _ => true
  | rememberAdminKey _ => true
  | clearAdminKey => true
  | _ => false

end Event

/- The last call of a run enters this key, at this moment. -/
def EnteredLast
    (start : ℕ)
    (es : List Event)
    (key : String)
    (ttl since : ℕ) : Prop :=
  ∃ pre e post p,
    es = pre ++ e :: post ∧
      pageRuns.exec (.load start) pre = some p ∧
      e.enters = some (key, ttl) ∧
      p.timers.now = since ∧
      ∀ e' ∈ post, e'.calls = false

/- The last call of a run enters this key, and arms this timer. -/
def ArmedLast
    (start : ℕ)
    (es : List Event)
    (id : ℕ)
    (key : String) : Prop :=
  ∃ pre e post p q ttl,
    es = pre ++ e :: post ∧
      pageRuns.exec (.load start) pre = some p ∧
      p.step e = some q ∧
      e.enters = some (key, ttl) ∧
      (∀ t ∈ p.timers.armed, t.id ≠ id) ∧
      (∃ t ∈ q.timers.armed, t.id = id) ∧
      ∀ e' ∈ post, e'.calls = false

/-
  Whenever a key is read, it is that of the last call, and its
  TTL has not elapsed; and whenever a timer fires, the last call
  has armed it, and there is no other key to wipe.
-/
structure Expires (start : ℕ) (es : List Event) : Prop where
  valid :
    ∀ pre post p,
      es = pre ++ post →
        pageRuns.exec (.load start) pre = some p →
          p.getValidAdminKey.1 ≠ "" →
            ∃ ttl since,
              EnteredLast start pre p.getValidAdminKey.1 ttl since ∧
                p.timers.now < since + ttl
  wipes :
    ∀ pre id post p q,
      es = pre ++ .fired id :: post →
        pageRuns.exec (.load start) pre = some p →
          p.step (.fired id) = some q →
            ∃ key,
              ArmedLast start pre id key ∧
                (p.cachedKey = "" ∨ p.cachedKey = key)

------------------------------------------------------------
-- What a Step Does
------------------------------------------------------------

/- The one page is the other, but for the hooks and a wiped key. -/
structure Fades (p q : Page) : Prop where
  timers : q.timers = p.timers
  expiryTimer : q.expiryTimer = p.expiryTimer
  key :
    q.cachedKey ≠ "" →
      q.cachedKey = p.cachedKey ∧ q.cacheExpiry = p.cacheExpiry

section Steps

variable {p q r : Page}

theorem Fades.refl (p : Page) : Fades p p :=
  ⟨rfl, rfl, fun _ => ⟨rfl, rfl⟩⟩

theorem Fades.trans
    (hFirst : Fades p q)
    (hThen : Fades q r) :
    Fades p r := by
  refine ⟨hThen.timers.trans hFirst.timers,
    hThen.expiryTimer.trans hFirst.expiryTimer, fun hKey => ?_⟩
  rcases hThen.key hKey with ⟨hSame, hExpiry⟩
  rw [hSame] at hKey
  rcases hFirst.key hKey with ⟨hSame', hExpiry'⟩
  exact ⟨hSame.trans hSame', hExpiry.trans hExpiry'⟩

theorem fades_readKey (p : Page) : Fades p p.readKey.2 := by
  unfold Page.readKey
  split
  · exact .refl p
  · exact ⟨rfl, rfl, fun hKey => absurd rfl hKey⟩

theorem fades_sync (p : Page) (i : ℕ) : Fades p (p.sync i) :=
  (fades_readKey p).trans ⟨rfl, rfl, fun _ => ⟨rfl, rfl⟩⟩

theorem fades_broadcast (p : Page) : Fades p p.broadcast := by
  have hAll :
      ∀ (l : List ℕ) (p : Page), Fades p (l.foldl Page.sync p) := by
    intro l
    induction l with
    | nil => exact .refl
    | cons i l ih => exact fun p => (fades_sync p i).trans (ih _)
  exact hAll p.listeners p

/- A key that is read has been cached, and not expired. -/
theorem readKey_valid
    (hValid : p.readKey.1 ≠ "") :
    p.readKey.1 = p.cachedKey ∧ p.timers.now < p.cacheExpiry := by
  unfold Page.readKey at hValid ⊢
  split
  · rename_i hBoth
    exact ⟨rfl, hBoth.2⟩
  · rename_i hNot
    rw [if_neg hNot] at hValid
    exact absurd rfl hValid

/- The timer of the module is the only one there can be. -/
def OneTimer (p : Page) : Prop :=
  ∀ t ∈ p.timers.armed, p.expiryTimer = some t.id

theorem armed_clearExpiry
    (hOne : OneTimer p) :
    p.clearExpiry.timers.armed = [] := by
  unfold Page.clearExpiry
  cases hTimer : p.expiryTimer with
  | none =>
      rw [List.eq_nil_iff_forall_not_mem]
      intro t hMem
      have hSame := hOne t hMem
      rw [hTimer] at hSame
      cases hSame
  | some id =>
      apply Timers.armed_clear_of_only
      intro t hMem
      have hSame := hOne t hMem
      rw [hTimer] at hSame
      exact (Option.some.inj hSame).symm

theorem clearExpiry_clock (p : Page) :
    p.clearExpiry.timers.now = p.timers.now ∧
      p.clearExpiry.timers.next = p.timers.next := by
  unfold Page.clearExpiry
  split <;> exact ⟨rfl, rfl⟩

theorem clearExpiry_key (p : Page) :
    p.clearExpiry.cachedKey = p.cachedKey ∧
      p.clearExpiry.cacheExpiry = p.cacheExpiry := by
  unfold Page.clearExpiry
  split <;> exact ⟨rfl, rfl⟩

/- A key is entered: its timer is the one that is armed. -/
structure Enters (p : Page) (key : String) (ttl : ℕ) (q : Page) :
    Prop where
  armed :
    q.timers.armed = [⟨p.timers.next, p.timers.now + ttl⟩]
  next : q.timers.next = p.timers.next + 1
  expiryTimer : q.expiryTimer = some p.timers.next
  key :
    q.cachedKey ≠ "" →
      q.cachedKey = key ∧ q.cacheExpiry = p.timers.now + ttl

/- The key is cleared, and its timer with it. -/
structure Clears (q : Page) : Prop where
  armed : q.timers.armed = []
  key : q.cachedKey = ""

/- No key comes in, and no timer is armed. -/
structure Keeps (p q : Page) : Prop where
  next : q.timers.next = p.timers.next
  armed :
    ∀ t ∈ q.timers.armed,
      t ∈ p.timers.armed ∧ q.expiryTimer = p.expiryTimer
  key :
    q.cachedKey ≠ "" →
      q.cachedKey = p.cachedKey ∧ q.cacheExpiry = p.cacheExpiry

theorem Fades.keeps (hFades : Fades p q) : Keeps p q where
  next := by rw [hFades.timers]
  armed := fun t hMem => by
    rw [hFades.timers] at hMem
    exact ⟨hMem, hFades.expiryTimer⟩
  key := hFades.key

/- The only timer is replaced by a new one. -/
theorem enters_scheduleExpiry
    (ttl : ℕ)
    (hOne : OneTimer p)
    (hExpiry : p.cacheExpiry = p.timers.now + ttl) :
    Enters p p.cachedKey ttl (p.scheduleExpiry ttl) := by
  have hClock := clearExpiry_clock p
  have hKey := clearExpiry_key p
  unfold Page.scheduleExpiry Timers.arm
  dsimp only
  rw [armed_clearExpiry hOne, hClock.1, hClock.2, hKey.1, hKey.2]
  exact ⟨rfl, rfl, rfl, fun _ => ⟨rfl, hExpiry⟩⟩

theorem Enters.fades
    {key : String}
    {ttl : ℕ}
    (hEnters : Enters p key ttl q)
    (hFades : Fades q r) :
    Enters p key ttl r where
  armed := by rw [hFades.timers, hEnters.armed]
  next := by rw [hFades.timers, hEnters.next]
  expiryTimer := by rw [hFades.expiryTimer, hEnters.expiryTimer]
  key := fun hKey => by
    rcases hFades.key hKey with ⟨hSame, hExpiry⟩
    rw [hSame] at hKey
    rw [hSame, hExpiry]
    exact hEnters.key hKey

theorem enters_broadcast
    (key : String)
    (ttl : ℕ)
    (hOne : OneTimer p) :
    Enters p key ttl
      ({ p with
          cachedKey := key
          cacheExpiry := p.timers.now + ttl }.scheduleExpiry
        ttl).broadcast := by
  have hStored : OneTimer
      { p with
        cachedKey := key
        cacheExpiry := p.timers.now + ttl } := hOne
  have hEnters := enters_scheduleExpiry ttl hStored rfl
  exact Enters.fades ⟨hEnters.armed, hEnters.next, hEnters.expiryTimer,
    hEnters.key⟩ (fades_broadcast _)

theorem enters_setAdminKey
    {key : String}
    (hOne : OneTimer p)
    (hSome : key ≠ "") :
    Enters p key workingMs (p.setAdminKey key) := by
  unfold Page.setAdminKey
  dsimp only
  rw [if_pos hSome, if_pos hSome]
  exact enters_broadcast key workingMs hOne

theorem Clears.fades
    (hClears : Clears q)
    (hFades : Fades q r) :
    Clears r where
  armed := by rw [hFades.timers, hClears.armed]
  key := by
    by_contra hKey
    have hSame := (hFades.key hKey).1
    rw [hClears.key] at hSame
    exact hKey hSame

theorem clears_clearExpiry
    (hOne : OneTimer p)
    (hKey : p.cachedKey = "") :
    Clears { p.clearExpiry with expiryTimer := none }.broadcast := by
  have hCleared : Clears { p.clearExpiry with expiryTimer := none } :=
    ⟨armed_clearExpiry hOne, (clearExpiry_key p).1.trans hKey⟩
  exact hCleared.fades (fades_broadcast _)

theorem clears_clearAdminKey
    (hOne : OneTimer p) :
    Clears p.clearAdminKey := by
  have hWiped : OneTimer { p with cachedKey := "", cacheExpiry := 0 } :=
    hOne
  exact clears_clearExpiry hWiped rfl

theorem clears_setAdminKey
    (hOne : OneTimer p) :
    Clears (p.setAdminKey "") := by
  have hWiped : OneTimer { p with cachedKey := "", cacheExpiry := 0 } :=
    hOne
  exact clears_clearExpiry hWiped rfl

/- The timer that fires was the only one. -/
theorem clears_fired
    {id : ℕ}
    (hOne : OneTimer p)
    (hStep : p.step (.fired id) = some q) :
    p.expiryTimer = some id ∧ Clears q := by
  rcases Option.map_eq_some_iff.mp hStep with ⟨timers, hFire, rfl⟩
  rcases Timers.fire_cases hFire with ⟨⟨t, hMem, hId, _⟩, rfl⟩
  have hTimer : p.expiryTimer = some id := by
    rw [hOne t hMem, hId]
  have hOnly : ∀ u ∈ p.timers.armed, u.id = id := by
    intro u hArmed
    have hSame := hOne u hArmed
    rw [hTimer] at hSame
    exact (Option.some.inj hSame).symm
  exact ⟨hTimer, Clears.fades ⟨Timers.armed_clear_of_only hOnly, rfl⟩
    (fades_broadcast _)⟩

/- What a step can do with the key and its timer. -/
theorem step_cases
    {e : Event}
    (hOne : OneTimer p)
    (hStep : p.step e = some q) :
    (∃ key ttl, e.enters = some (key, ttl) ∧ Enters p key ttl q) ∨
      Clears q ∨
        (e.calls = false ∧ Keeps p q) := by
  cases e with
  | setAdminKey key =>
      cases hStep
      by_cases hSome : key = ""
      · rw [hSome]
        exact .inr (.inl (clears_setAdminKey hOne))
      · exact .inl ⟨key, workingMs, rfl, enters_setAdminKey hOne hSome⟩
  | rememberAdminKey key =>
      cases hStep
      exact .inl ⟨key, hourMs, rfl, enters_broadcast key hourMs hOne⟩
  | clearAdminKey =>
      cases hStep
      exact .inr (.inl (clears_clearAdminKey hOne))
  | getValidAdminKey =>
      cases hStep
      exact .inr (.inr ⟨rfl, (fades_readKey p).keeps⟩)
  | fired id => exact .inr (.inl (clears_fired hOne hStep).2)
  | advanced ms =>
      cases hStep
      exact .inr (.inr ⟨rfl, rfl, fun t hMem => ⟨hMem, rfl⟩,
        fun _ => ⟨rfl, rfl⟩⟩)
  | mounted =>
      cases hStep
      have hFades := fades_readKey p
      exact .inr (.inr ⟨rfl,
        Fades.keeps ⟨hFades.timers, hFades.expiryTimer, hFades.key⟩⟩)
  | listening i =>
      dsimp only [Page.step] at hStep
      split at hStep
      · cases hStep
        refine .inr (.inr ⟨rfl, ?_⟩)
        unfold Page.listen
        split
        · exact (Fades.refl p).keeps
        · exact ⟨rfl, fun t hMem => ⟨hMem, rfl⟩, fun _ => ⟨rfl, rfl⟩⟩
      · cases hStep
  | unmounted i =>
      cases hStep
      exact .inr (.inr ⟨rfl, rfl, fun t hMem => ⟨hMem, rfl⟩,
        fun _ => ⟨rfl, rfl⟩⟩)

end Steps

------------------------------------------------------------
-- Runs
------------------------------------------------------------

section Runs

variable {start id ttl since : ℕ} {key : String}
variable {es : List Event} {e : Event} {p q : Page}

theorem quiet_snoc
    {post : List Event}
    (hPost : ∀ e' ∈ post, e'.calls = false)
    (hQuiet : e.calls = false) :
    ∀ e' ∈ post ++ [e], e'.calls = false := by
  intro e' hMem
  rcases List.mem_append.mp hMem with hEarly | hLast
  · exact hPost e' hEarly
  · rw [List.mem_singleton.mp hLast]
    exact hQuiet

theorem EnteredLast.snoc
    (hEntered : EnteredLast start es key ttl since)
    (hQuiet : e.calls = false) :
    EnteredLast start (es ++ [e]) key ttl since := by
  rcases hEntered with ⟨pre, e₀, post, p₀, rfl, hPre, hEnters, hNow, hPost⟩
  refine ⟨pre, e₀, post ++ [e], p₀, ?_, hPre, hEnters, hNow,
    quiet_snoc hPost hQuiet⟩
  rw [List.append_assoc, List.cons_append]

theorem ArmedLast.snoc
    (hArmed : ArmedLast start es id key)
    (hQuiet : e.calls = false) :
    ArmedLast start (es ++ [e]) id key := by
  rcases hArmed with
    ⟨pre, e₀, post, p₀, q₀, ttl, rfl, hPre, hStep, hEnters, hNew, hThere,
      hPost⟩
  refine ⟨pre, e₀, post ++ [e], p₀, q₀, ttl, ?_, hPre, hStep, hEnters, hNew,
    hThere, quiet_snoc hPost hQuiet⟩
  rw [List.append_assoc, List.cons_append]

/-
  There is one timer at most; the last call has armed it, and it
  has entered the key, if there is one.
-/
structure Inv (start : ℕ) (es : List Event) (p : Page) : Prop where
  one : OneTimer p
  fresh : ∀ t ∈ p.timers.armed, t.id < p.timers.next
  armed :
    ∀ t ∈ p.timers.armed,
      ∃ key,
        ArmedLast start es t.id key ∧
          (p.cachedKey = "" ∨ p.cachedKey = key)
  entered :
    p.cachedKey ≠ "" →
      ∃ ttl since,
        EnteredLast start es p.cachedKey ttl since ∧
          p.cacheExpiry = since + ttl

theorem inv_load (start : ℕ) : Inv start [] (.load start) where
  one := nofun
  fresh := nofun
  armed := nofun
  entered := fun hKey => absurd rfl hKey

theorem inv_of_clears
    (hClears : Clears q) :
    Inv start es q where
  one := fun t hMem => by
    rw [hClears.armed] at hMem
    cases hMem
  fresh := fun t hMem => by
    rw [hClears.armed] at hMem
    cases hMem
  armed := fun t hMem => by
    rw [hClears.armed] at hMem
    cases hMem
  entered := fun hKey => absurd hClears.key hKey

theorem inv_of_enters
    (hExec : pageRuns.exec (.load start) es = some p)
    (hInv : Inv start es p)
    (hStep : p.step e = some q)
    (hCall : e.enters = some (key, ttl))
    (hEnters : Enters p key ttl q) :
    Inv start (es ++ [e]) q := by
  have hOnly :
      ∀ t ∈ q.timers.armed, t = ⟨p.timers.next, p.timers.now + ttl⟩ := by
    intro t hMem
    rw [hEnters.armed] at hMem
    exact List.mem_singleton.mp hMem
  have hThere : ∃ t ∈ q.timers.armed, t.id = p.timers.next := by
    rw [hEnters.armed]
    exact ⟨_, List.mem_singleton_self _, rfl⟩
  have hNew : ∀ t ∈ p.timers.armed, t.id ≠ p.timers.next :=
    fun t hMem => Nat.ne_of_lt (hInv.fresh t hMem)
  refine ⟨?_, ?_, ?_, ?_⟩
  · intro t hMem
    rw [hOnly t hMem, hEnters.expiryTimer]
  · intro t hMem
    rw [hOnly t hMem, hEnters.next]
    exact Nat.lt_succ_self _
  · intro t hMem
    rw [hOnly t hMem]
    refine ⟨key, ⟨es, e, [], p, q, ttl, rfl, hExec, hStep, hCall, hNew,
      hThere, nofun⟩, ?_⟩
    by_cases hKey : q.cachedKey = ""
    · exact .inl hKey
    · exact .inr (hEnters.key hKey).1
  · intro hKey
    rcases hEnters.key hKey with ⟨hSame, hExpiry⟩
    refine ⟨ttl, p.timers.now, ?_, hExpiry⟩
    rw [hSame]
    exact ⟨es, e, [], p, rfl, hExec, hCall, rfl, nofun⟩

theorem inv_of_keeps
    (hInv : Inv start es p)
    (hQuiet : e.calls = false)
    (hKeeps : Keeps p q) :
    Inv start (es ++ [e]) q := by
  refine ⟨?_, ?_, ?_, ?_⟩
  · intro t hMem
    rcases hKeeps.armed t hMem with ⟨hArmed, hTimer⟩
    rw [hTimer]
    exact hInv.one t hArmed
  · intro t hMem
    rw [hKeeps.next]
    exact hInv.fresh t (hKeeps.armed t hMem).1
  · intro t hMem
    rcases hInv.armed t (hKeeps.armed t hMem).1 with ⟨key, hArmed, hKey⟩
    refine ⟨key, hArmed.snoc hQuiet, ?_⟩
    by_cases hNone : q.cachedKey = ""
    · exact .inl hNone
    · have hSame := (hKeeps.key hNone).1
      rw [hSame] at hNone ⊢
      exact .inr (hKey.resolve_left hNone)
  · intro hKey
    rcases hKeeps.key hKey with ⟨hSame, hExpiry⟩
    rw [hSame] at hKey ⊢
    rcases hInv.entered hKey with ⟨ttl, since, hEntered, hSince⟩
    exact ⟨ttl, since, hEntered.snoc hQuiet, hExpiry.trans hSince⟩

theorem inv_of_exec
    (hExec : pageRuns.exec (.load start) es = some p) :
    Inv start es p := by
  refine Transition.exec_induction (P := Inv start) (inv_load start) ?_ hExec
  intro es p e q hEs hInv hStep
  rcases step_cases hInv.one hStep with
    ⟨key, ttl, hCall, hEnters⟩ | hClears | ⟨hQuiet, hKeeps⟩
  · exact inv_of_enters hEs hInv hStep hCall hEnters
  · exact inv_of_clears hClears
  · exact inv_of_keeps hInv hQuiet hKeeps

/-
  A key that is read is that of the last call, and within its
  TTL; and a timer that fires has been armed by the last call.
-/
theorem expires (start : ℕ) (es : List Event) : Expires start es where
  valid := by
    rintro pre post p rfl hExec hValid
    have hInv := inv_of_exec hExec
    rcases readKey_valid hValid with ⟨hSame, hBefore⟩
    change p.readKey.1 ≠ "" at hValid
    rw [hSame] at hValid
    rcases hInv.entered hValid with ⟨ttl, since, hEntered, hExpiry⟩
    refine ⟨ttl, since, ?_, ?_⟩
    · change EnteredLast start pre p.readKey.1 ttl since
      rw [hSame]
      exact hEntered
    · rw [← hExpiry]
      exact hBefore
  wipes := by
    rintro pre id post p q rfl hExec hStep
    have hInv := inv_of_exec hExec
    rcases Option.map_eq_some_iff.mp hStep with ⟨timers, hFire, _⟩
    rcases Timers.fire_cases hFire with ⟨⟨t, hMem, hId, _⟩, _⟩
    rw [← hId]
    exact hInv.armed t hMem

end Runs

/- A key that is entered again outlives the first one's timer. -/
example :
    ((pageRuns.exec (.load 0)
        [.setAdminKey "key", .advanced 299000, .rememberAdminKey "key",
          .advanced 3599999]).map
        fun p => (p.getValidAdminKey.1, p.timers.armed.map Timer.id)) =
      some ("key", [1]) := by
  decide

end AdminKey

end Pumpy
