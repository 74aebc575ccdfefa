import CubeOperator.Handover.Server
import CubeOperator.Isolation.Footprints
import CubeOperator.Lib.Feed
import CubeOperator.Lib.WorkQueue
import CubeOperator.Status.Stored

/-! # The manager and what it watches

    `SetupWithManager` watches the CubeClusters and the objects of five kinds.  The client
    of the manager reads from the copies that the watches keep, and writes to the API
    server.  A change of a CubeCluster asks for a pass, and so does a change of an object
    whose controller is the CubeCluster before or after it.  Objects a spec refers to are
    not watched. -/

namespace CubeOperator

open Interaction Kube V1alpha1

/-! ## Objects -/

/-- A managed object in the API server. -/
structure Held where
  fields : Tracked
  live : Live
  /-- Its deletion has been asked for, and a finalizer holds it up. -/
  terminating : Bool

namespace Held

/-- The path to a field of the owner reference with the given uid. -/
def ownerPath (uid field : String) : Json.FieldPath :=
  [.field "metadata", .field "ownerReferences", .item [some (.str uid)], .field field]

/-- The controller of the object is the CubeCluster of that name. -/
def ControlledBy (name : String) (o : Held) : Prop :=
  ∃ uid version, o.fields.value (ownerPath uid "controller") = some (.bool true) ∧
    o.fields.value (ownerPath uid "apiVersion") = some (.str ("platform.cube.dev/" ++ version)) ∧
    o.fields.value (ownerPath uid "kind") = some (.str "CubeCluster") ∧
    o.fields.value (ownerPath uid "name") = some (.str name)

/-- A forced apply of `d`, which creates an object that is not there. -/
def apply (d : Manifest) : Option Held → Held
  | none => ⟨ManagedFields.empty.apply cubeOperator (documentFields d), {}, false⟩
  | some o => { o with fields := o.fields.apply cubeOperator (documentFields d) }

/-- What a delete makes of an object.  One whose deletion is held up stays as it is. -/
def Deletes (o : Held) (x : Option Held) : Prop :=
  x = some { o with terminating := true } ∨ (o.terminating = false ∧ x = none)

/-- The object is there, and an apply of `d` changes nothing. -/
def Applied (d : Manifest) (x : Option Held) : Prop := x = some (apply d x)

/-- The object is gone, or on its way. -/
def Gone (x : Option Held) : Prop := ∀ o, x = some o → o.terminating = true

theorem applied_apply (d : Manifest) (x : Option Held) : Applied d (some (apply d x)) := by
  cases x <;> simp [Applied, apply, ManagedFields.apply_apply]

/-- The object has all that the document says. -/
theorem Applied.value {d : Manifest} {x : Option Held} (h : Applied d x) :
    ∃ o, x = some o ∧ ∀ p v, documentFields d p = some v → o.fields.value p = some v := by
  cases x with
  | none => cases h
  | some o =>
    have happly : o.fields.apply cubeOperator (documentFields d) = o.fields :=
      (congrArg Held.fields (Option.some.inj h)).symm
    exact ⟨o, rfl, fun p v hdoc => ManagedFields.value_of_apply_eq happly hdoc⟩

end Held

/-! ## The watched world -/

/-- The CubeCluster and the objects, each with the copy that the manager has of it. -/
structure Watched where
  cluster : Feed (Option CubeCluster)
  objects : Key → Feed (Option Held)

/-- A change from or to this object asks for a pass over the CubeCluster. -/
def Asks (ns name : String) (k : Key) (x : Option Held) : Prop :=
  k.ns = ns ∧ k.kind.isReference = false ∧ ∃ o, x = some o ∧ o.ControlledBy name

namespace Watched

variable (ns name : String)

/-- The watch of one object changes. -/
def setObject (w : Watched) (k : Key) (f : Feed (Option Held)) : Watched :=
  { w with objects := Function.update w.objects k f }

/-- The object `k` becomes `x` in the API server. -/
def WritesObject (w : Watched) (k : Key) (x : Option Held) (w' : Watched) : Prop :=
  ∃ f, (w.objects k).Becomes x f ∧ w' = w.setObject k f

/-- The CubeCluster becomes `x` in the API server. -/
def WritesCluster (w : Watched) (x : Option CubeCluster) (w' : Watched) : Prop :=
  ∃ f, w.cluster.Becomes x f ∧ w' = { w with cluster := f }

/-- What an action that succeeds does. -/
def Performs (w : Watched) (a : Action) (w' : Watched) : Prop :=
  match a with
  | .apply d => w.WritesObject d.key (some (Held.apply d (w.objects d.key).stored)) w'
  | .delete k => ∃ o x, (w.objects k).stored = some o ∧ o.Deletes x ∧ w.WritesObject k x w'
  | .patchStatus _ _ base modified => ∃ c, w.cluster.stored = some c ∧
      w.WritesCluster (some { c with status := patchedStatus base modified c.status }) w'
  | _ => w' = w

/-- A call of the controller.  A write that fails may have been made all the same, but a
    404 is the truth. -/
def Serves (w : Watched) (e : Exchange) (w' : Watched) : Prop :=
  AnswersCluster e ∧
  match e with
  | ⟨.act a, r⟩ => (w.Performs a w' ∨ (r ≠ .ok () ∧ w' = w)) ∧
      ∀ k err, a = .delete k → r = .error err → err.isNotFound →
        (w.objects k).stored = none ∧ w' = w
  | ⟨.getCluster _ _, r⟩ => w' = w ∧ (∀ c, r = .ok c → w.cluster.cached = some c) ∧
      ∀ err, r = .error err → err.isNotFound → w.cluster.cached = none
  | ⟨.get k, r⟩ => w' = w ∧ (k.kind.isReference = false →
      (∀ l, r = .ok l → ∃ o, (w.objects k).cached = some o ∧ o.live = l) ∧
      ∀ err, r = .error err → err.isNotFound → (w.objects k).cached = none)
  | _ => w' = w

/-- Somebody else writes, or the manager is told of a change that does not concern the
    CubeCluster. -/
inductive Drifts (w : Watched) : Watched → Prop where
  | cluster (x : Option CubeCluster) : Drifts w { w with cluster := w.cluster.write x }
  | object (k : Key) (x : Option Held) : Drifts w (w.setObject k ((w.objects k).write x))
  | deliver {k : Key} {f : Feed (Option Held)} :
      (w.objects k).Delivers f → ¬Feed.Alert (Asks ns name k) (w.objects k) f →
      Drifts w (w.setObject k f)

/-- The manager is told of a change of the CubeCluster or of one of its objects. -/
inductive Notifies (w : Watched) : Watched → Prop where
  | cluster {f : Feed (Option CubeCluster)} :
      w.cluster.Delivers f → Notifies w { w with cluster := f }
  | object {k : Key} {f : Feed (Option Held)} :
      (w.objects k).Delivers f → Feed.Alert (Asks ns name k) (w.objects k) f →
      Notifies w (w.setObject k f)

/-- After a restart the copies are empty, and what there is will be told. -/
def restart (w : Watched) : Watched where
  cluster := w.cluster.relist
  objects k := (w.objects k).relist

/-- Every change has been delivered. -/
structure Settled (w : Watched) : Prop where
  cluster : w.cluster.Settled
  objects : ∀ k, (w.objects k).Settled

end Watched

/-- A pass is asked for again after an error or with a delay, and after a panic. -/
def Go.Outcome.repeats : Go.Outcome → Bool
  | .returned result err => err.isSome || result.requeueAfter ≠ 0
  | .panicked => true

/-- The manager, as far as the CubeCluster `name` in `ns` goes. -/
def managing (q : Quantities) (ns name : String) : ControlLoop Watched Call Answer Go.Outcome where
  pass := Go.reconcile q ns name
  repeats := Go.Outcome.repeats
  serves := Watched.Serves
  drifts := Watched.Drifts ns name
  notifies := Watched.Notifies ns name
  restarts w w' := w' = w.restart

end CubeOperator
