import CubeOperator.Lib.Handles
import CubeOperator.Telemetry.Store

/-! # The telemetry collector

    `Collect` and the table `kubernetes_telemetry`, from `collector.go`.  A pass lists
    the nodes and the pods, and writes a row for each in one transaction, which also
    deletes the rows that are too old.

    The transactions of the database are read committed: a row version carries the id of
    the transaction that inserted it, a `DELETE` marks what it can see when it is
    executed, and what a transaction wrote and marked takes effect at its commit. -/

namespace CubeOperator.Telemetry.Collection

open Interaction

/-! ## What is collected -/

structure Condition where
  type : String
  status : String
  deriving DecidableEq

structure Node where
  name : String
  phase : String
  conditions : List Condition
  deriving DecidableEq

structure Pod where
  ns : String
  name : String
  phase : String
  conditions : List Condition
  /-- `RestartCount` of every container status. -/
  restartCounts : List ℤ
  deriving DecidableEq

/-- A row of `kubernetes_telemetry`. -/
structure Row where
  collectedAt : ℤ
  clusterName : String
  ns : String
  resourceKind : String
  resourceName : String
  phase : String
  ready : Bool
  restartCount : ℤ
  deriving DecidableEq

/-- The row as it is stored. -/
def Row.encode (row : Row) : Row := { row with collectedAt := micro row.collectedAt }

/-- `Collector`, with times in nanoseconds. -/
structure Collector where
  cluster : String
  interval : ℤ
  retention : ℤ

/-- The loops over the conditions: the first one of the type decides. -/
def ready (type : String) : List Condition → Bool
  | [] => false
  | condition :: rest =>
    if condition.type = type then decide (condition.status = "True") else ready type rest

def nodeRow (c : Collector) (now : ℤ) (node : Node) : Row where
  collectedAt := now
  clusterName := c.cluster
  ns := ""
  resourceKind := "Node"
  resourceName := node.name
  phase := node.phase
  ready := ready "Ready" node.conditions
  restartCount := 0

def podRow (c : Collector) (now : ℤ) (pod : Pod) : Row where
  collectedAt := now
  clusterName := c.cluster
  ns := pod.ns
  resourceKind := "Pod"
  resourceName := pod.name
  phase := pod.phase
  ready := ready "Ready" pod.conditions
  restartCount := pod.restartCounts.foldl (· + ·) 0

/-- The rows of a pass. -/
def rows (c : Collector) (now : ℤ) (nodes : List Node) (pods : List Pod) : List Row :=
  nodes.map (nodeRow c now) ++ pods.map (podRow c now)

/-! ## Calls -/

/-- How the retention period is passed to the database. -/
structure Formats where
  /-- `strconv.FormatFloat(c.Retention.Hours(), 'f', -1, 64)`. -/
  hours : ℤ → String
  /-- The interval that PostgreSQL reads, in nanoseconds. -/
  interval : String → ℤ

/-- What is sent to the database in a transaction. -/
inductive Statement where
  | copyFrom (rows : List Row)
  /-- `DELETE ... WHERE collected_at < now() - $1::interval`. -/
  | prune (interval : String)
  | commit
  deriving DecidableEq

inductive Call where
  | schema
  | listNodes
  | listPods
  | now
  | begin
  | query (tx : ℕ) (statement : Statement)
  | rollback (tx : ℕ)

@[reducible] def Answer : Call → Type
  | .schema => Except String Unit
  | .listNodes => Except String (List Node)
  | .listPods => Except String (List Pod)
  | .now => ℤ
  | .begin => Except String ℕ
  | .query _ _ => Except String Unit
  | .rollback _ => Unit

abbrev Op : Type → Type := Program Call Answer

abbrev OpE : Type → Type := Attempt Call Answer String

abbrev Exchange : Type := Event Answer

/-- `fmt.Errorf(context + "%w", err)`. -/
def wrap (context : String) (err : String) : String := context ++ err

/-! ## Collect -/

def initializeSchema : OpE Unit :=
  ExceptT.mk (.call .schema fun (r : Except String Unit) =>
    .ret (r.mapError (wrap "initialize schema: ")))

def listNodes : OpE (List Node) :=
  ExceptT.mk (.call .listNodes fun (r : Except String (List Node)) =>
    .ret (r.mapError (wrap "list nodes: ")))

def listPods : OpE (List Pod) :=
  ExceptT.mk (.call .listPods fun (r : Except String (List Pod)) =>
    .ret (r.mapError (wrap "list pods: ")))

def begin : OpE ℕ :=
  ExceptT.mk (.call .begin fun (r : Except String ℕ) =>
    .ret (r.mapError (wrap "begin telemetry transaction: ")))

def query (context : String) (tx : ℕ) (statement : Statement) : OpE Unit :=
  ExceptT.mk (.call (.query tx statement) fun (r : Except String Unit) =>
    .ret (r.mapError (wrap context)))

variable (f : Formats) (c : Collector)

/-- The argument of the `DELETE`. -/
def retentionText : String := f.hours c.retention ++ " hours"

/-- What is done in the transaction. -/
def write (tx : ℕ) (rows : List Row) : OpE Unit := do
  query "write telemetry: " tx (.copyFrom rows)
  query "prune telemetry: " tx (.prune (retentionText f c))
  query "" tx .commit

/-- `write`, and the deferred rollback. -/
def transact (tx : ℕ) (rows : List Row) : OpE Unit :=
  ExceptT.mk do
    let r ← (write f c tx rows).run
    Program.perform (Call.rollback tx)
    pure r

def collect : OpE Unit := do
  initializeSchema
  let nodes ← listNodes
  let pods ← listPods
  let now ← ExceptT.lift (Program.perform Call.now)
  let tx ← begin
  transact f c tx (rows c now nodes pods)

/-! ## The cluster and the database -/

/-- What a list call returns. -/
structure Cluster where
  nodes : List Node
  pods : List Pod

/-- A stored row, and the transaction that inserted it. -/
structure Version where
  xmin : ℕ
  row : Row
  deriving DecidableEq

/-- An open transaction. -/
structure Transaction where
  /-- `now()`. -/
  start : ℤ
  inserted : List Version := []
  deleted : List Version := []
  /-- The times before which rows have been deleted. -/
  cutoffs : List ℤ := []

/-- The cluster with all that it was before, latest first, and the database. -/
structure World where
  history : List Cluster
  table : List Version := []
  /-- The cutoffs of the deletes that have taken effect. -/
  cutoffs : List ℤ := []
  transactions : ℕ → Option Transaction := fun _ => none
  /-- The id of the next transaction. -/
  next : ℕ := 0
  /-- The statements that a collector has given up on. -/
  pending : List (ℕ × Statement) := []

namespace World

variable (w : World) (tx : ℕ) (t : Transaction)

/-- Open a transaction. -/
def opened (start : ℤ) : World :=
  { w with
    transactions := Function.update w.transactions w.next (some { start })
    next := w.next + 1 }

/-- A transaction is rolled back. -/
def rolledBack : World := { w with transactions := Function.update w.transactions tx none }

/-- What a transaction can see: what is committed, and its own rows. -/
def visible : List Version := w.table ++ t.inserted

/-- A statement is executed in the transaction. -/
def executed : Statement → World
  | .copyFrom rows =>
    { w with transactions := Function.update w.transactions tx (some
        { t with inserted := t.inserted ++ rows.map fun row => ⟨tx, row.encode⟩ }) }
  | .prune text =>
    let cutoff := t.start - f.interval text
    { w with transactions := Function.update w.transactions tx (some
        { t with
          deleted := t.deleted ++ (w.visible t).filter fun v => v.row.collectedAt < cutoff
          cutoffs := cutoff :: t.cutoffs }) }
  | .commit =>
    { w with
      table := (w.visible t).filter fun v => v ∉ t.deleted
      cutoffs := t.cutoffs ++ w.cutoffs
      transactions := Function.update w.transactions tx none }

/-- A statement on its way has arrived. -/
def arrived (statement : Statement) : World :=
  { w with pending := w.pending.erase (tx, statement) }

end World

/-- A statement that failed has done nothing, has been executed, or has ended its
    transaction.  It may also be on its way. -/
inductive Fails (w : World) (tx : ℕ) (statement : Statement) : World → Prop where
  | ignored : Fails w tx statement w
  | aborted : Fails w tx statement (w.rolledBack tx)
  | executed {t : Transaction} : w.transactions tx = some t →
      Fails w tx statement (w.executed f tx t statement)
  | pending : Fails w tx statement { w with pending := (tx, statement) :: w.pending }

/-- The world before and after an exchange. -/
def Serves (w : World) (e : Exchange) (w' : World) : Prop :=
  match e with
  | ⟨.listNodes, .ok nodes⟩ => w' = w ∧ ∃ k ∈ w.history.head?, k.nodes = nodes
  | ⟨.listPods, .ok pods⟩ => w' = w ∧ ∃ k ∈ w.history.head?, k.pods = pods
  | ⟨.begin, .ok tx⟩ => tx = w.next ∧ ∃ start, w' = w.opened start
  -- A transaction may have been opened for nobody.
  | ⟨.begin, .error _⟩ => w' = w ∨ ∃ start, w' = w.opened start
  | ⟨.query tx statement, .ok _⟩ =>
    ∃ t, w.transactions tx = some t ∧ w' = w.executed f tx t statement
  | ⟨.query tx statement, .error _⟩ => Fails f w tx statement w'
  | ⟨.rollback tx, _⟩ => w' = w ∨ w' = w.rolledBack tx
  | _ => w' = w

/-- What happens by itself: the cluster changes, the server rolls a transaction back, or
    a statement on its way arrives. -/
inductive Drifts (w : World) : World → Prop where
  | cluster (k : Cluster) : Drifts w { w with history := k :: w.history }
  | rolledBack (tx : ℕ) : Drifts w (w.rolledBack tx)
  | arrived {tx : ℕ} {t : Transaction} {statement : Statement} :
      (tx, statement) ∈ w.pending → w.transactions tx = some t →
      Drifts w ((w.arrived tx statement).executed f tx t statement)

/-! ## The system -/

/-- Any number of collectors, each of which may be stopped and started at any time. -/
def collecting : Environment ℕ Collector World Call Answer (Except String Unit) where
  program c := (collect f c).run
  begins _ _ _ := True
  serves := Serves f
  drifts := Drifts f

/-- No collector has run yet. -/
def World.initial (k : Cluster) : World := { history := [k] }

end CubeOperator.Telemetry.Collection
