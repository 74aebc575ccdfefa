import CubeOperator.Api.Calls
import CubeOperator.Go.Resources

/-! # The Go controller

    `Reconcile` and what it calls, from `cubecluster_controller.go`.  A Go
    function that returns an error is an `OpE GoError`; `Reconcile` itself
    returns a result and an error. -/

namespace CubeOperator.Go

open Interaction Kube V1alpha1

/-! ## Errors -/

/-- A Go error: its text, and the API error that `errors.As` finds in its chain. -/
structure GoError where
  message : String
  api : Option ApiError := none
  deriving DecidableEq

namespace GoError

def ofApi (e : ApiError) : GoError := ⟨e.message, some e⟩

/-- `fmt.Errorf(context + "%w", err)`. -/
def wrap (context : String) (err : GoError) : GoError := ⟨context ++ err.message, err.api⟩

/-- `apierrors.IsConflict`. -/
def isConflict (err : GoError) : Bool := err.api.any ApiError.isConflict

end GoError

/-- The escape of one character in a quoted string. -/
def quoteChar (c : Char) : String :=
  if c = '"' then "\\\"" else if c = '\\' then "\\\\" else if c = '\n' then "\\n"
  else if c = '\r' then "\\r" else if c = '\t' then "\\t"
  else if c.toNat = 7 then "\\a" else if c.toNat = 8 then "\\b"
  else if c.toNat = 11 then "\\v" else if c.toNat = 12 then "\\f"
  else if isNonPrinting c then
    (if c.toNat < 0x80 then "\\x" else "\\u00") ++ hexByte c.toNat
  else c.toString

/-- The verb `%q`. -/
def quote (s : String) : String := "\"" ++ String.join (s.toList.map quoteChar) ++ "\""

/-! ## Validation -/

section controller

variable (q : Quantities)

/-- A lookup of an object the spec names, of which only the error matters. -/
def lookup (context : String) (kind : Kind) (c : CubeCluster) (name : String) :
    OpE GoError Unit := do
  let _ ← getObject (fun e => (GoError.ofApi e).wrap context) ⟨kind, c.ns, name⟩
  pure ()

/-- The last switch of `validateReferences`. -/
def validateStorage (c : CubeCluster) : OpE GoError Unit :=
  let storage := c.spec.cubeStore.remoteStorage
  if storage.type = "persistentVolume" then do
    let claim := (storage.persistentVolume.map (·.existingClaim)).getD ""
    Attempt.failIf (claim = "") { message := "persistentVolume storage requires existingClaim" }
    lookup "remote storage claim: " .persistentVolumeClaim c claim
  else if storage.type = "s3" then do
    let s3 := storage.s3.getD {}
    Attempt.failIf (s3.bucket = "" || s3.region = "")
      { message := "s3 storage requires bucket and region" }
    if s3.secretRef ≠ "" then lookup "S3 credentials secret: " .secret c s3.secretRef else pure ()
  else throw { message := "unsupported remote storage type " ++ quote storage.type }

def validateReferences (c : CubeCluster) : OpE GoError Unit := do
  let spec := c.spec
  let store := spec.cubeStore
  Attempt.failIf (spec.modelConfigMap = "" || spec.configurationSecret = "")
    { message := "spec.modelConfigMap and spec.configurationSecret are required" }
  lookup ("required *v1.ConfigMap " ++ quote spec.modelConfigMap ++ ": ") .configMap c
    spec.modelConfigMap
  lookup ("required *v1.Secret " ++ quote spec.configurationSecret ++ ": ") .secret c
    spec.configurationSecret
  Attempt.failIf (replicas spec.api.replicas 2 < 1 || replicas spec.refreshWorker.replicas 1 < 1)
    { message := "API and refresh worker replicas must be at least 1" }
  Attempt.failIf (storeMode c = "clustered" && replicas store.workers 2 < 1)
    { message := "clustered Cube Store workers must be at least 1" }
  Attempt.failIf (store.mode ≠ "" && store.mode ≠ "single" && store.mode ≠ "clustered")
    { message := "unsupported Cube Store mode " ++ quote store.mode }
  Attempt.failIf (store.scratch.size ≠ "" && (q.value store.scratch.size).isNone)
    { message := "invalid Cube Store scratch size: " ++ q.goError store.scratch.size }
  Attempt.failIf (spec.service.nodePort ≠ 0 && spec.service.type ≠ "NodePort" &&
      spec.service.type ≠ "LoadBalancer")
    { message := "spec.service.nodePort requires service type NodePort or LoadBalancer" }
  validateStorage c

/-! ## Applying and removing objects -/

/-- The controller reference that `SetControllerReference` puts on an object. -/
def controllerReference (owner : CubeCluster) : OwnerReference where
  apiVersion := "platform.cube.dev/v1alpha1"
  kind := "CubeCluster"
  name := owner.name
  uid := owner.uid
  controller := true
  blockOwnerDeletion := true

/-- The document applied for an object. -/
def applied (owner : CubeCluster) (desired : K8s.Object) : Manifest :=
  desired.manifest.ownedBy (controllerReference owner)

/-- The kinds are registered and the objects are new and in the owner's namespace,
    so that only the patch can fail. -/
def reconcileObject (owner : CubeCluster) (desired : K8s.Object) : OpE GoError Unit :=
  act GoError.ofApi (.apply (applied owner desired))

/-- The objects of the store mode that is not in use. -/
def obsoleteStore (c : CubeCluster) : List Key :=
  if storeMode c = "clustered" then
    [⟨.deployment, c.ns, c.name ++ "-cubestore"⟩, ⟨.service, c.ns, c.name ++ "-cubestore"⟩]
  else
    [⟨.statefulSet, c.ns, c.name ++ "-cubestore-router"⟩,
      ⟨.statefulSet, c.ns, c.name ++ "-cubestore-worker"⟩,
      ⟨.service, c.ns, c.name ++ "-cubestore-router"⟩,
      ⟨.service, c.ns, c.name ++ "-cubestore-worker"⟩]

/-- Delete an object; one that does not exist is no error. -/
def deleteObject (key : Key) : OpE GoError Unit :=
  ExceptT.mk (.call (.act (.delete key)) fun (r : Except ApiError Unit) => .ret (match r with
    | .ok () => .ok ()
    | .error e => if e.isNotFound then .ok () else .error (.ofApi e)))

def removeObsoleteStore (c : CubeCluster) : OpE GoError Unit :=
  Attempt.forEach deleteObject (obsoleteStore c)

/-! ## Readiness -/

/-- `Status.ReadyReplicas`, zero when absent. -/
def readyReplicas (l : Live) : ℤ := l.readyReplicas.getD 0

def readWorkload (c : CubeCluster) (kind : Kind) (component : String) : OpE GoError ℤ := do
  let workload ← getObject GoError.ofApi ⟨kind, c.ns, c.name ++ "-" ++ component⟩
  pure (readyReplicas workload)

/-- The Cube Store part of `workloadsAvailable`: whether it is available, and the
    text for the status. -/
def storeAvailable (c : CubeCluster) : OpE GoError (Bool × String) :=
  if storeMode c = "clustered" then do
    let router ← readWorkload c .statefulSet "cubestore-router"
    let workers ← readWorkload c .statefulSet "cubestore-worker"
    let workerExpected := replicas c.spec.cubeStore.workers 2
    pure (decide (router ≥ 1) && decide (workers ≥ workerExpected),
      "Cube Store router " ++ toString router ++ "/1, workers " ++ toString workers ++ "/" ++
        toString workerExpected)
  else do
    let store ← readWorkload c .deployment "cubestore"
    pure (decide (store ≥ 1), "Cube Store " ++ toString store ++ "/1")

/-- The API's ready replicas, whether every workload is available, and the
    progress message. -/
def workloadsAvailable (c : CubeCluster) : OpE GoError (ℤ × Bool × String) := do
  let api ← readWorkload c .deployment "api"
  let apiExpected := replicas c.spec.api.replicas 2
  let refresh ← readWorkload c .deployment "refresh-worker"
  let refreshExpected := replicas c.spec.refreshWorker.replicas 1
  let (storeReady, storePart) ← storeAvailable c
  pure (api, decide (api ≥ apiExpected) && decide (refresh ≥ refreshExpected) && storeReady,
    String.intercalate "; " ["API " ++ toString api ++ "/" ++ toString apiExpected,
      "refresh " ++ toString refresh ++ "/" ++ toString refreshExpected, storePart])

def endpoint (c : CubeCluster) : String := "http://" ++ c.name ++ "-api." ++ c.ns ++ ".svc:4000"

def apiHealthy (c : CubeCluster) : OpE GoError Unit :=
  ExceptT.mk (.call (.httpGet (endpoint c ++ "/readyz")) fun (r : HttpAnswer) => .ret (match r with
    | .invalidRequest m => .error { message := "build Cube API health request: " ++ m }
    | .failed m => .error { message := "Cube API readiness check failed: " ++ m }
    | .status code _ _ =>
      if code < 200 || code ≥ 300 then
        .error { message := "Cube API readiness check returned HTTP " ++ toString code }
      else .ok ()))

/-! ## Status -/

/-- `apimeta.SetStatusCondition` at time `t`: the first condition of the type is
    updated, its transition time only when the status changes. -/
def setStatusCondition (t : ℤ) (new : Condition) : List Condition → List Condition
  | [] => [{ new with lastTransitionTime := t }]
  | c :: rest =>
    if c.type = new.type then
      { new with lastTransitionTime := if c.status = new.status then c.lastTransitionTime else t } ::
        rest
    else c :: setStatusCondition t new rest

/-- The status that `setStatus` writes over `latest`. -/
def newStatus (latest : CubeCluster) (t : ℤ) (status : ConditionStatus) (reason message : String)
    (ready : ℤ) : CubeClusterStatus where
  observedGeneration := latest.generation
  readyAPIs := ready
  endpoint := endpoint latest
  conditions := setStatusCondition t
    { type := "Ready", status := status, reason := reason, message := message
      observedGeneration := latest.generation, lastTransitionTime := 0 } latest.status.conditions

/-- One round of `setStatus`: read the latest object, patch its status. -/
def writeStatus (c : CubeCluster) (status : ConditionStatus) (reason message : String)
    (ready : ℤ) : OpE GoError Unit := do
  let latest ← getCluster GoError.ofApi c.ns c.name
  let t ← ExceptT.lift now
  act (fun e => (GoError.ofApi e).wrap "update CubeCluster status: ")
    (.patchStatus latest.ns latest.name latest.status
      (newStatus latest t status reason message ready))

/-- `retry.RetryOnConflict`: repeat on a conflict, at most `n` more times. -/
def retryOnConflict (body : OpE GoError Unit) : ℕ → OpE GoError Unit
  | 0 => body
  | n + 1 => ExceptT.mk (body.run >>= fun r => match r with
    | .ok () => .ret (.ok ())
    | .error err => if err.isConflict then (retryOnConflict body n).run else .ret (.error err))

/-- `retry.DefaultRetry` makes five attempts. -/
def setStatus (c : CubeCluster) (status : ConditionStatus) (reason message : String)
    (ready : ℤ) : OpE GoError Unit :=
  retryOnConflict (writeStatus c status reason message ready) 4

/-! ## Reconcile -/

/-- `ctrl.Result`: the delay in seconds after which the pass is to be repeated,
    zero for none. -/
structure Result where
  requeueAfter : ℕ := 0
  deriving DecidableEq

/-- How a pass ends. -/
inductive Outcome where
  | returned (result : Result) (err : Option GoError)
  | panicked

/-- The exit after a failed validation. -/
def rejectConfiguration (c : CubeCluster) (err : GoError) : Op Outcome := do
  match ← (setStatus c .isFalse "InvalidConfiguration" err.message 0).run with
  | .error statusErr => pure (.returned {} (some statusErr))
  | .ok () => pure (.returned { requeueAfter := 30 } none)

/-- The exit after a failed apply. -/
def failReconcile (c : CubeCluster) (err : GoError) : Op Outcome := do
  match ← (setStatus c .isFalse "ReconcileFailed" err.message 0).run with
  | .error statusErr =>
    pure (.returned {} (some ⟨"reconcile object: " ++ err.message ++ " (update status: " ++
      statusErr.message ++ ")", err.api⟩))
  | .ok () => pure (.returned {} (some err))

/-- The condition to store: status, reason and message. -/
def readiness (c : CubeCluster) (available : Bool) (message : String) :
    Op (ConditionStatus × String × String) :=
  if available then do
    match ← (apiHealthy c).run with
    | .error err => pure (.isFalse, "APIHealthCheckFailed", err.message)
    | .ok () =>
      pure (.isTrue, "Available",
        "Cube API readiness endpoint is healthy and all workloads are ready")
  else pure (.isFalse, "Progressing", message)

/-- The last part of `Reconcile`, once the workloads have been read. -/
def reportReadiness (c : CubeCluster) (ready : ℤ) (available : Bool) (message : String) :
    Op Outcome := do
  let (condition, reason, message) ← readiness c available message
  match ← (setStatus c condition reason message ready).run with
  | .error err => pure (.returned {} (some err))
  | .ok () => pure (.returned (if condition = .isFalse then { requeueAfter := 10 } else {}) none)

/-- `Reconcile` from the validated spec on: apply, remove, read, report. -/
def reconcileObjects (c : CubeCluster) (objects : List K8s.Object) : Op Outcome := do
  match ← (Attempt.forEach (reconcileObject c) objects).run with
  | .error err => failReconcile c err
  | .ok () =>
    match ← (removeObsoleteStore c).run with
    | .error err => pure (.returned {} (some err))
    | .ok () =>
      match ← (workloadsAvailable c).run with
      | .error err => pure (.returned {} (some err))
      | .ok (ready, available, message) => reportReadiness c ready available message

/-- `Reconcile` once it has read the CubeCluster. -/
def reconcileCluster (c : CubeCluster) : Op Outcome := do
  match ← (validateReferences q c).run with
  | .error err => rejectConfiguration c err
  | .ok () =>
    match objects q c with
    | none => pure .panicked
    | some objects => reconcileObjects c objects

def reconcile (ns name : String) : Op Outcome := do
  match ← (getCluster id ns name).run with
  | .error err => pure (.returned {} (if err.isNotFound then none else some (.ofApi err)))
  | .ok cluster => reconcileCluster q cluster

end controller

end CubeOperator.Go
