import CubeOperator.Lib.Session
import CubeOperator.Lib.Table
import CubeOperator.Telemetry.Contract

/-! # The table of executions

    The table `agent_executions` and what the statements of the service do to it.
    Each statement is executed at once.  One that the service has given up on may be
    executed at any later time, or never.

    `service` is the system in which any number of requests and prunes, each with a
    configuration of its own, are at work on one table. -/

namespace CubeOperator.Telemetry

open Interaction

/-! ## Rows -/

/-- A `timestamptz` has microseconds.  What is below them is dropped. -/
def micro (n : ℤ) : ℤ := n / 1000 * 1000

/-- The columns as they are stored. -/
def Columns.encode (c : Columns) : Columns :=
  { c with startedAt := micro c.startedAt, endedAt := micro c.endedAt }

/-- A row of `agent_executions`. -/
structure Row extends Columns where
  /-- `DEFAULT now()`. -/
  recordedAt : ℤ
  deriving DecidableEq

/-- `event_id text PRIMARY KEY`. -/
def Row.primaryKey (row : Row) : String := row.eventId

/-- `SET event_id = agent_executions.event_id`. -/
def Row.onConflict (row : Row) : Row := { row with eventId := row.eventId }

@[simp] theorem onConflict_eq (row : Row) : row.onConflict = row := rfl

/-! ## Statements -/

/-- The table after a statement that is executed at the time `now`, and its result. -/
def execute (now : ℤ) : (statement : Statement) → List Row → List Row × statement.Result
  | .insert c, table =>
    let written := Table.insertOrUpdate Row.primaryKey Row.onConflict ⟨c.encode, now⟩ table
    (written.1, decide (written.2.payload = c.payload))
  | .prune before, table => (table.filter fun row => ¬row.endedAt < micro before, ())

/-- The table, and the statements that the service has given up on. -/
structure Database where
  table : List Row := []
  pending : List Statement := []

/-- The database before and after an exchange. -/
def Serves (db : Database) (e : Exchange) (db' : Database) : Prop :=
  match e with
  | ⟨.query statement, some result⟩ =>
    ∃ now, execute now statement db.table = (db'.table, result) ∧ db'.pending = db.pending
  | ⟨.query statement, none⟩ =>
    db' = db ∨ db' = { db with pending := statement :: db.pending }
  | _ => db' = db

/-- A statement that the service has given up on is executed. -/
def Drifts (db db' : Database) : Prop :=
  ∃ statement now, statement ∈ db.pending ∧
    db' = ⟨(execute now statement db.table).1, db.pending.erase statement⟩

/-! ## The system -/

/-- What is at work: a request to some instance of the service, or one tick of a
    retention loop. -/
inductive Job where
  | request (a : ExecutionAPI) (r : Request)
  | prune (retention : ℤ)

/-- The program of a job, with the answer to a request. -/
def Job.program (lib : Library) : Job → Service (Option Response)
  | .request a r => serveHTTP lib a r >>= fun response => .ret (some response)
  | .prune retention => Telemetry.prune retention >>= fun _ => .ret none

/-- Any jobs begin at any time. -/
def service (lib : Library) : Environment ℕ Job Database Call Answer (Option Response) where
  program := Job.program lib
  begins _ _ _ := True
  serves := Serves
  drifts := Drifts

/-- The service with an empty table. -/
def empty : System ℕ Job Database Call Answer (Option Response) := Environment.idle {}

/-! ## What a statement does -/

variable {table : List Row} {c : Columns} {before now : ℤ}

/-- An insert adds a row when its id is not there, and else leaves the table alone. -/
theorem execute_insert_cases (now : ℤ) (c : Columns) (table : List Row) :
    (Table.stored Row.primaryKey table c.eventId = none ∧
      execute now (.insert c) table = (table ++ [⟨c.encode, now⟩], true)) ∨
    ∃ old, Table.stored Row.primaryKey table c.eventId = some old ∧
      execute now (.insert c) table = (table, decide (old.payload = c.payload)) := by
  have hcases := Table.insertOrUpdate_cases Row.primaryKey ⟨c.encode, now⟩ table onConflict_eq
  rcases hcases with ⟨hnone, h⟩ | ⟨old, hold, h⟩
  · refine .inl ⟨hnone, ?_⟩
    rw [execute, h]
    simp [Columns.encode]
  · refine .inr ⟨old, hold, ?_⟩
    rw [execute, h]

theorem mem_execute_prune {row : Row} :
    row ∈ (execute now (.prune before) table).1 ↔ row ∈ table ∧ micro before ≤ row.endedAt := by
  simp [execute]

/-- Every row of the table after a statement was there before, or is the new row of an
    insert whose id was not there. -/
theorem mem_of_mem_execute {statement : Statement} {row : Row}
    (h : row ∈ (execute now statement table).1) : row ∈ table ∨
      ∃ c, statement = .insert c ∧ row = ⟨c.encode, now⟩ ∧
        Table.stored Row.primaryKey table c.eventId = none := by
  cases statement with
  | insert c =>
    rcases execute_insert_cases now c table with ⟨hnone, hexecute⟩ | ⟨old, -, hexecute⟩
    · rw [hexecute, List.mem_append, List.mem_singleton] at h
      rcases h with h | h
      · exact .inl h
      · exact .inr ⟨c, rfl, h, hnone⟩
    · rw [hexecute] at h
      exact .inl h
  | prune before => exact .inl (mem_execute_prune.mp h).1

/-- A row stays in the table until a prune takes it. -/
theorem mem_execute_of_mem (now : ℤ) (statement : Statement) {row : Row} (h : row ∈ table) :
    row ∈ (execute now statement table).1 ∨
      ∃ before, statement = .prune before ∧ row.endedAt < micro before := by
  cases statement with
  | insert c =>
    rcases execute_insert_cases now c table with ⟨-, hexecute⟩ | ⟨old, -, hexecute⟩
    · rw [hexecute]
      exact .inl (List.mem_append_left _ h)
    · rw [hexecute]
      exact .inl h
  | prune before =>
    by_cases hold : row.endedAt < micro before
    · exact .inr ⟨before, rfl, hold⟩
    · exact .inl (mem_execute_prune.mpr ⟨h, by omega⟩)

/-- A statement keeps the ids unique. -/
theorem unique_execute {statement : Statement}
    (h : Table.Unique Row.primaryKey table) :
    Table.Unique Row.primaryKey (execute now statement table).1 := by
  cases statement with
  | insert c =>
    rcases execute_insert_cases now c table with ⟨hnone, hexecute⟩ | ⟨old, -, hexecute⟩
    · rw [hexecute]
      exact Table.unique_append h hnone
    · rw [hexecute]
      exact h
  | prune before => exact h.filter _

/-- After an insert a row is stored under its id, and the result says whether it has the
    payload of the insert. -/
theorem exists_stored_of_insert (now : ℤ) (c : Columns) (table : List Row) :
    ∃ row ∈ (execute now (.insert c) table).1, row.eventId = c.eventId ∧
      ((execute now (.insert c) table).2 = true ↔ row.payload = c.payload) := by
  rcases execute_insert_cases now c table with ⟨-, hexecute⟩ | ⟨old, hold, hexecute⟩
  · rw [hexecute]
    exact ⟨⟨c.encode, now⟩, by simp, rfl, by simp [Columns.encode]⟩
  · rw [hexecute]
    have hkey : old.primaryKey = c.eventId := Table.key_of_stored hold
    exact ⟨old, Table.mem_of_stored hold, hkey, by simp⟩

/-! ## What an exchange does -/

/-- An exchange leaves the database alone, executes its statement or leaves it behind. -/
theorem serves_cases {db db' : Database} {e : Exchange} (h : Serves db e db') : db' = db ∨
    (∃ statement result now, e = ⟨.query statement, some result⟩ ∧
      execute now statement db.table = (db'.table, result) ∧ db'.pending = db.pending) ∨
    ∃ statement, e = ⟨.query statement, none⟩ ∧
      db' = { db with pending := statement :: db.pending } := by
  obtain ⟨call, answer⟩ := e
  cases call with
  | query statement =>
    cases answer with
    | some result =>
      obtain ⟨now, hexecute, hpending⟩ := h
      exact .inr (.inl ⟨statement, result, now, rfl, hexecute, hpending⟩)
    | none =>
      rcases h with h | h
      · exact .inl h
      · exact .inr (.inr ⟨statement, rfl, h⟩)
  | _ => exact .inl h

end CubeOperator.Telemetry
