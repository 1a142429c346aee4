import Pumpy.Settings.Config
import Mathlib.Logic.Function.Basic

/-
  Saving the settings under failures of the database: what
  `PUT /settings/config` leaves in bot_config when one of its
  statements raises.

  The route sends one statement for each entry and stops at the
  first that raises; nothing takes the earlier ones back.

  Key definitions include:
    * `writeAll`
    * `saveConfig`
    * `carriedOut`
    * `AllOrNothing`

  The main results are `saveConfig_values` and
  `allOrNothing_iff`.
-/

namespace Pumpy

------------------------------------------------------------
-- Writing by key
------------------------------------------------------------

section Writes

variable {K V E : Type} [DecidableEq K]

/- One write, under the key of its entry. -/
def writeOne
    (key : E → K)
    (write : E → V → V)
    (table : K → V)
    (entry : E) : K → V :=
  Function.update table (key entry) (write entry (table (key entry)))

/- Writes one after another. -/
def writeAll
    (key : E → K)
    (write : E → V → V)
    (table : K → V)
    (entries : List E) : K → V :=
  entries.foldl (writeOne key write) table

variable {key : E → K} {write : E → V → V}

/- A key that no entry has keeps its value. -/
theorem writeAll_of_notMem
    {entries : List E}
    {table : K → V}
    {k : K}
    (hNone : k ∉ entries.map key) :
    writeAll key write table entries k = table k := by
  induction entries generalizing table with
  | nil => rfl
  | cons entry rest ih =>
      rw [List.map_cons, List.mem_cons, not_or] at hNone
      have hRest := @ih (writeOne key write table entry) hNone.2
      unfold writeAll at hRest ⊢
      rw [List.foldl_cons, hRest, writeOne,
        Function.update_of_ne hNone.1]

/- With distinct keys, each entry is written over what was there. -/
theorem writeAll_of_mem
    {entries : List E}
    {table : K → V}
    {entry : E}
    (hKeys : (entries.map key).Nodup)
    (hEntry : entry ∈ entries) :
    writeAll key write table entries (key entry) =
      write entry (table (key entry)) := by
  induction entries generalizing table with
  | nil => simp at hEntry
  | cons first rest ih =>
      rw [List.map_cons, List.nodup_cons] at hKeys
      have hCons :
          writeAll key write table (first :: rest) =
            writeAll key write (writeOne key write table first) rest :=
        rfl
      rw [hCons]
      rcases List.mem_cons.mp hEntry with hFirst | hRest
      · subst hFirst
        rw [writeAll_of_notMem hKeys.1, writeOne,
          Function.update_self]
      · have hOther : key entry ≠ key first := by
          intro hEq
          exact hKeys.1 (hEq ▸ List.mem_map_of_mem hRest)
        rw [ih hKeys.2 hRest, writeOne, Function.update_of_ne hOther]

/- Writes leave no trace exactly if each writes what was there. -/
theorem writeAll_eq_self_iff
    {entries : List E}
    {table : K → V}
    (hKeys : (entries.map key).Nodup) :
    writeAll key write table entries = table ↔
      ∀ entry ∈ entries,
        write entry (table (key entry)) = table (key entry) := by
  constructor
  · intro hSame entry hEntry
    have hWritten :
        writeAll key write table entries (key entry) =
          write entry (table (key entry)) :=
      writeAll_of_mem hKeys hEntry
    rw [← hWritten, hSame]
  · intro hSame
    funext k
    by_cases hKey : k ∈ entries.map key
    · rcases List.mem_map.mp hKey with ⟨entry, hEntry, rfl⟩
      rw [writeAll_of_mem hKeys hEntry, hSame entry hEntry]
    · exact writeAll_of_notMem hKey

end Writes

------------------------------------------------------------
-- The route under failures
------------------------------------------------------------

/- A row of bot_config. -/
structure ConfigRow where
  value : String
  updatedAt : Option Timestamp
deriving DecidableEq

/- bot_config by its primary key. -/
abbrev ConfigRows := String → Option ConfigRow

/- What the routes that only look at values see. -/
def ConfigRows.values (rows : ConfigRows) : ConfigTable :=
  fun key => (rows key).map ConfigRow.value

/-
  A JSON object.  Its keys are distinct; a value is `none` if it
  is not a string.
-/
structure JsonObject where
  fields : List (String × Option String)
  distinct : (fields.map Prod.fst).Nodup

/-
  What becomes of a statement: it is carried out, it raises, or
  it is carried out and the answer is lost, so that it raises.
-/
inductive StatementResult where
  | done | failed | lost
deriving DecidableEq

/- A statement of the loop, and the two dates made for it. -/
structure Attempt where
  result : StatementResult
  insertedAt : Timestamp
  updatedAt : Timestamp

/- An entry and its statement. -/
abbrev Write := (String × String) × Attempt

/- The row a statement leaves: a deletion, or an upsert. -/
def Write.row
    (write : Write)
    (row : Option ConfigRow) : Option ConfigRow :=
  if write.1.2 = "" then
    none
  else
    match row with
    | none => some ⟨write.1.2, some write.2.insertedAt⟩
    | some _ => some ⟨write.1.2, some write.2.updatedAt⟩

/- The key a statement is about. -/
def Write.key (write : Write) : String :=
  write.1.1

/- One statement that is carried out. -/
def putRow (rows : ConfigRows) (write : Write) : ConfigRows :=
  writeOne Write.key Write.row rows write

/-
  The loop over the entries; `attempts` are the statements still
  to come.  It comes out false if one of them raises.
-/
def saveEntries
    (attempts : Nat → Attempt)
    (rows : ConfigRows) :
    List (String × String) → Bool × ConfigRows
  | [] => (true, rows)
  | entry :: rest =>
      match (attempts 0).result with
      | .done =>
          saveEntries (fun i => attempts (i + 1))
            (putRow rows (entry, attempts 0)) rest
      | .failed => (false, rows)
      | .lost => (false, putRow rows (entry, attempts 0))

/- `PUT /settings/config`. -/
def saveConfig
    (rows : ConfigRows)
    (body : Option JsonObject)
    (attempts : Nat → Attempt) : PutResponse × ConfigRows :=
  match body with
  | none =>
      (.badRequest "Request body must be a JSON object", rows)
  | some body =>
      let entries := configEntries body.fields
      if entries = [] then
        (.badRequest "No valid config keys provided", rows)
      else
        match saveEntries attempts rows entries with
        | (true, rows) => (.saved (entries.map Prod.fst), rows)
        | (false, rows) => (.serverError "Failed to save config", rows)

------------------------------------------------------------
-- What a request leaves
------------------------------------------------------------

/- The statements that are carried out, in their order. -/
def carriedOut
    (attempts : Nat → Attempt) :
    List (String × String) → List Write
  | [] => []
  | entry :: rest =>
      match (attempts 0).result with
      | .done =>
          (entry, attempts 0) ::
            carriedOut (fun i => attempts (i + 1)) rest
      | .failed => []
      | .lost => [(entry, attempts 0)]

/- No statement of the entries raises. -/
def AllDone
    (attempts : Nat → Attempt)
    (entries : List (String × String)) : Prop :=
  ∀ i < entries.length, (attempts i).result = .done

theorem allDone_cons_iff
    {attempts : Nat → Attempt}
    {entry : String × String}
    {rest : List (String × String)} :
    AllDone attempts (entry :: rest) ↔
      (attempts 0).result = .done ∧
        AllDone (fun i => attempts (i + 1)) rest := by
  unfold AllDone
  constructor
  · intro hAll
    refine ⟨hAll 0 (by simp), ?_⟩
    intro i hi
    exact hAll (i + 1) (by simpa using hi)
  · rintro ⟨hFirst, hRest⟩ i hi
    cases i with
    | zero => exact hFirst
    | succ i => exact hRest i (by simpa using hi)

/- The loop writes the statements that are carried out. -/
theorem saveEntries_rows
    (attempts : Nat → Attempt)
    (rows : ConfigRows)
    (entries : List (String × String)) :
    (saveEntries attempts rows entries).2 =
      writeAll Write.key Write.row rows (carriedOut attempts entries) := by
  induction entries generalizing attempts rows with
  | nil => rfl
  | cons entry rest ih =>
      unfold saveEntries carriedOut
      cases hResult : (attempts 0).result with
      | done => exact ih _ _
      | failed => rfl
      | lost => rfl

/- The loop succeeds exactly if no statement raises. -/
theorem saveEntries_ok_iff
    (attempts : Nat → Attempt)
    (rows : ConfigRows)
    (entries : List (String × String)) :
    (saveEntries attempts rows entries).1 = true ↔
      AllDone attempts entries := by
  induction entries generalizing attempts rows with
  | nil => simp [saveEntries, AllDone]
  | cons entry rest ih =>
      rw [allDone_cons_iff]
      unfold saveEntries
      cases hResult : (attempts 0).result with
      | done => simpa using ih _ _
      | failed => simp
      | lost => simp

/- The statements of a loop that goes through. -/
theorem mem_carriedOut_of_allDone
    {attempts : Nat → Attempt}
    {entries : List (String × String)}
    {entry : String × String}
    (hDone : AllDone attempts entries)
    (hEntry : entry ∈ entries) :
    ∃ attempt, (entry, attempt) ∈ carriedOut attempts entries := by
  induction entries generalizing attempts with
  | nil => simp at hEntry
  | cons first rest ih =>
      rw [allDone_cons_iff] at hDone
      unfold carriedOut
      rw [hDone.1]
      rcases List.mem_cons.mp hEntry with hFirst | hRest
      · exact ⟨attempts 0, hFirst ▸ List.mem_cons_self⟩
      · rcases ih hDone.2 hRest with ⟨attempt, hAttempt⟩
        exact ⟨attempt, List.mem_cons_of_mem _ hAttempt⟩

/- The statements that are carried out are for first entries. -/
theorem carriedOut_sublist
    (attempts : Nat → Attempt)
    (entries : List (String × String)) :
    ((carriedOut attempts entries).map Prod.fst).Sublist entries := by
  induction entries generalizing attempts with
  | nil => exact List.Sublist.refl _
  | cons entry rest ih =>
      unfold carriedOut
      cases hResult : (attempts 0).result with
      | done => exact (ih _).cons_cons entry
      | failed => exact List.nil_sublist _
      | lost => exact (List.nil_sublist rest).cons_cons entry

/- The entries that are kept of an object have its keys. -/
theorem configEntries_keys
    (fields : List (String × Option String)) :
    ((configEntries fields).map Prod.fst).Sublist
      (fields.map Prod.fst) := by
  induction fields with
  | nil => exact List.Sublist.refl _
  | cons field rest ih =>
      unfold configEntries at ih ⊢
      rw [List.filterMap_cons, List.map_cons]
      split
      · exact ih.cons _
      · rename_i entry hKept
        have hKey : entry.1 = field.1 := by
          rcases field with ⟨key, value⟩
          by_cases hAllowed : key ∈ allowedConfigKeys
          · simp only [if_pos hAllowed, Option.map_eq_some_iff]
              at hKept
            rcases hKept with ⟨_, _, rfl⟩
            rfl
          · simp [if_neg hAllowed] at hKept
        rw [List.map_cons, hKey]
        exact ih.cons_cons _

/- The entries of a request that are accepted. -/
def accepted (body : Option JsonObject) : List (String × String) :=
  match body with
  | none => []
  | some body => configEntries body.fields

/- The statements of a request are about distinct keys. -/
theorem carriedOut_nodup
    (attempts : Nat → Attempt)
    (body : Option JsonObject) :
    ((carriedOut attempts (accepted body)).map Write.key).Nodup := by
  cases body with
  | none => exact List.nodup_nil
  | some body =>
      have hKeys :
          (carriedOut attempts (accepted (some body))).map Write.key =
            ((carriedOut attempts (accepted (some body))).map
              Prod.fst).map Prod.fst := by
        rw [List.map_map]
        rfl
      have hEntries :=
        (carriedOut_sublist attempts (accepted (some body))).map Prod.fst
      rw [hKeys]
      exact body.distinct.sublist
        (hEntries.trans (configEntries_keys body.fields))

/- What a request leaves is what its statements wrote. -/
theorem saveConfig_rows
    (rows : ConfigRows)
    (body : Option JsonObject)
    (attempts : Nat → Attempt) :
    (saveConfig rows body attempts).2 =
      writeAll Write.key Write.row rows
        (carriedOut attempts (accepted body)) := by
  cases body with
  | none => rfl
  | some body =>
      have hRows :=
        saveEntries_rows attempts rows (configEntries body.fields)
      unfold saveConfig accepted
      by_cases hEmpty : configEntries body.fields = []
      · simp only [hEmpty, if_true]
        rfl
      · simp only [if_neg hEmpty]
        rw [← hRows]
        split
        · rename_i hSaved
          rw [hSaved]
        · rename_i hSaved
          rw [hSaved]

/- The answer is ok exactly if there are entries and none raises. -/
theorem saved_iff
    (rows : ConfigRows)
    (body : Option JsonObject)
    (attempts : Nat → Attempt) :
    (∃ updated,
        (saveConfig rows body attempts).1 = .saved updated) ↔
      accepted body ≠ [] ∧ AllDone attempts (accepted body) := by
  cases body with
  | none => simp [saveConfig, accepted]
  | some body =>
      have hOk :=
        saveEntries_ok_iff attempts rows (configEntries body.fields)
      unfold saveConfig accepted
      by_cases hEmpty : configEntries body.fields = []
      · simp [hEmpty]
      · simp only [if_neg hEmpty]
        rw [← hOk]
        split
        · rename_i hSaved
          simp [hSaved, hEmpty]
        · rename_i hSaved
          simp [hSaved]

------------------------------------------------------------
-- Values
------------------------------------------------------------

/- A statement does to the values what its entry says. -/
theorem values_putRow
    (rows : ConfigRows)
    (write : Write) :
    (putRow rows write).values = putEntry rows.values write.1 := by
  funext k
  unfold putRow writeOne putEntry ConfigRows.values Write.row Write.key
  by_cases hEmpty : write.1.2 = ""
  · by_cases hKey : k = write.1.1
    · subst hKey
      simp [hEmpty]
    · simp [hEmpty, Function.update_of_ne hKey]
  · by_cases hKey : k = write.1.1
    · subst hKey
      cases rows write.1.1 <;> simp [hEmpty]
    · simp [hEmpty, Function.update_of_ne hKey]

theorem values_writeAll
    (rows : ConfigRows)
    (writes : List Write) :
    ConfigRows.values (writeAll Write.key Write.row rows writes) =
      (writes.map Prod.fst).foldl putEntry rows.values := by
  induction writes generalizing rows with
  | nil => rfl
  | cons write rest ih =>
      rw [List.map_cons, List.foldl_cons, ← values_putRow]
      exact ih (putRow rows write)

/- The attempts in which a number of statements go through. -/
def UpTo (attempts : Nat → Attempt) (statements : Nat) : Prop :=
  ∀ i,
    (attempts i).result =
      if i < statements then .done else .failed

theorem carriedOut_of_upTo
    {attempts : Nat → Attempt}
    {statements : Nat}
    (entries : List (String × String))
    (hResults : UpTo attempts statements) :
    (carriedOut attempts entries).map Prod.fst =
      entries.take statements := by
  induction entries generalizing attempts statements with
  | nil => simp [carriedOut]
  | cons entry rest ih =>
      have hFirst := hResults 0
      unfold carriedOut
      cases statements with
      | zero =>
          rw [if_neg (Nat.lt_irrefl 0)] at hFirst
          simp [hFirst]
      | succ statements =>
          have hRest :
              UpTo (fun i => attempts (i + 1)) statements := by
            intro i
            have hNext := hResults (i + 1)
            simpa only [Nat.add_lt_add_iff_right] using hNext
          rw [if_pos (Nat.succ_pos _)] at hFirst
          rw [hFirst, List.take_succ_cons, ← ih hRest]
          rfl

theorem allDone_of_upTo
    {attempts : Nat → Attempt}
    {statements : Nat}
    (entries : List (String × String))
    (hResults : UpTo attempts statements) :
    AllDone attempts entries ↔ ¬statements < entries.length := by
  constructor
  · intro hDone hShort
    have hLast := hDone statements hShort
    rw [hResults statements, if_neg (Nat.lt_irrefl _)] at hLast
    simp at hLast
  · intro hLong i hi
    rw [hResults i, if_pos (by omega)]

/-
  The values a request leaves, where no answer is lost, are
  those of the model that only keeps values.
-/
theorem saveConfig_values
    {attempts : Nat → Attempt}
    {statements : Nat}
    (rows : ConfigRows)
    (body : Option JsonObject)
    (hResults : UpTo attempts statements) :
    (saveConfig rows body attempts).2.values =
      (putConfig rows.values
        ⟨body.map JsonObject.fields, statements⟩).2 := by
  rw [saveConfig_rows, values_writeAll,
    carriedOut_of_upTo (accepted body) hResults]
  cases body with
  | none => simp [accepted, putConfig]
  | some body =>
      unfold putConfig PutRequest.effective accepted
      by_cases hEmpty : configEntries body.fields = []
      · simp [hEmpty]
      · simp only [Option.map_some, if_neg hEmpty]
        split <;> rfl

/- The answer is ok in both models for the same requests. -/
theorem saved_iff_putConfig
    {attempts : Nat → Attempt}
    {statements : Nat}
    (rows : ConfigRows)
    (body : Option JsonObject)
    (hResults : UpTo attempts statements) :
    (∃ updated,
        (saveConfig rows body attempts).1 = .saved updated) ↔
      ∃ updated,
        (putConfig rows.values
          ⟨body.map JsonObject.fields, statements⟩).1 =
            .saved updated := by
  rw [saved_iff, allDone_of_upTo (accepted body) hResults]
  cases body with
  | none => simp [accepted, putConfig]
  | some body =>
      unfold putConfig accepted
      by_cases hEmpty : configEntries body.fields = []
      · simp [hEmpty]
      · by_cases hShort :
            statements < (configEntries body.fields).length
        · simp [hEmpty, hShort]
        · simp [hEmpty, hShort]

------------------------------------------------------------
-- All or nothing
------------------------------------------------------------

/-
  Either the answer is ok and the table reflects every accepted
  entry, or it is an error and the table is as it was.
-/
def AllOrNothing
    (rows : ConfigRows)
    (body : Option JsonObject)
    (outcome : PutResponse × ConfigRows) : Prop :=
  match outcome.1 with
  | .saved _ =>
      ∀ entry ∈ accepted body,
        outcome.2.values entry.1 =
          if entry.2 = "" then none else some entry.2
  | .badRequest _ => outcome.2 = rows
  | .serverError _ => outcome.2 = rows

/- A statement that leaves its row as it found it. -/
def Write.Idle (rows : ConfigRows) (write : Write) : Prop :=
  write.row (rows write.key) = rows write.key

/- With no failure, every accepted entry is in the table. -/
theorem values_of_allDone
    {rows : ConfigRows}
    {body : Option JsonObject}
    {attempts : Nat → Attempt}
    {entry : String × String}
    (hDone : AllDone attempts (accepted body))
    (hEntry : entry ∈ accepted body) :
    (saveConfig rows body attempts).2.values entry.1 =
      if entry.2 = "" then none else some entry.2 := by
  rcases mem_carriedOut_of_allDone hDone hEntry with ⟨attempt, hCarried⟩
  have hRow :
      writeAll Write.key Write.row rows
          (carriedOut attempts (accepted body)) entry.1 =
        Write.row (entry, attempt) (rows entry.1) :=
    writeAll_of_mem (carriedOut_nodup attempts body) hCarried
  unfold ConfigRows.values
  rw [saveConfig_rows, hRow]
  unfold Write.row
  by_cases hEmpty : entry.2 = ""
  · simp [hEmpty]
  · cases rows entry.1 <;> simp [hEmpty]

/- An answer that is not ok is all or nothing only if nothing is left. -/
theorem allOrNothing_of_not_saved
    {rows : ConfigRows}
    {body : Option JsonObject}
    {outcome : PutResponse × ConfigRows}
    (hNotSaved : ¬∃ updated, outcome.1 = .saved updated) :
    AllOrNothing rows body outcome ↔ outcome.2 = rows := by
  unfold AllOrNothing
  split
  · rename_i updated hSaved
    exact absurd ⟨updated, hSaved⟩ hNotSaved
  · rfl
  · rfl

/-
  Saving is all or nothing exactly if no statement raises, or
  every statement that was carried out left its row as it was:
  what the loop wrote before it broke off stays.
-/
theorem allOrNothing_iff
    (rows : ConfigRows)
    (body : Option JsonObject)
    (attempts : Nat → Attempt) :
    AllOrNothing rows body (saveConfig rows body attempts) ↔
      AllDone attempts (accepted body) ∨
        ∀ write ∈ carriedOut attempts (accepted body),
          write.Idle rows := by
  have hTable :
      (saveConfig rows body attempts).2 = rows ↔
        ∀ write ∈ carriedOut attempts (accepted body),
          write.Idle rows := by
    rw [saveConfig_rows]
    exact writeAll_eq_self_iff (carriedOut_nodup attempts body)
  by_cases hSaved :
      ∃ updated, (saveConfig rows body attempts).1 = .saved updated
  · have hDone := ((saved_iff rows body attempts).mp hSaved).2
    rcases hSaved with ⟨updated, hAnswer⟩
    refine ⟨fun _ => .inl hDone, fun _ => ?_⟩
    unfold AllOrNothing
    rw [hAnswer]
    intro entry hEntry
    exact values_of_allDone hDone hEntry
  · rw [allOrNothing_of_not_saved hSaved, hTable]
    refine ⟨.inr, ?_⟩
    rintro (hDone | hIdle)
    · -- only a request without entries is refused with no failure
      have hNone : accepted body = [] := by
        by_contra hSome
        exact hSaved ((saved_iff rows body attempts).mpr
          ⟨hSome, hDone⟩)
      rw [hNone]
      intro write hWrite
      simp [carriedOut] at hWrite
    · exact hIdle

/- A new tip floor and a new ceiling. -/
def tipBody : JsonObject where
  fields :=
    [("JITO_TIP_FLOOR_LAMPORTS", some "20000"),
      ("JITO_TIP_CEILING_LAMPORTS", some "50000")]
  distinct := by
    decide

/- The first statement is carried out, the second raises. -/
def secondFails (i : Nat) : Attempt :=
  ⟨if i = 0 then .done else .failed, 1, 1⟩

/- The floor is new, the ceiling is not, and the answer an error. -/
theorem allOrNothing_fails :
    ¬AllOrNothing (fun _ => none) (some tipBody)
      (saveConfig (fun _ => none) (some tipBody) secondFails) := by
  intro hAll
  have hSame :
      (saveConfig (fun _ => none) (some tipBody) secondFails).2 =
        fun _ => none :=
    hAll
  have hFloor := congrFun hSame "JITO_TIP_FLOOR_LAMPORTS"
  exact absurd hFloor (by decide)

end Pumpy
