import CubeOperator.Api.Calls
import CubeOperator.Kopf.Resources

/-! # The Kopf controller

    `reconcile` and what it calls, from `controller.py`.  A Python function that
    may raise is an `OpE Exc`. -/

namespace CubeOperator.Kopf

open Interaction Kube Crd V1alpha1

/-! ## Exceptions -/

/-- What the functions of the controller raise. -/
inductive Exc where
  | valueError (message : String)
  | apiException (e : StatusError)
  | keyError
  | runtimeError (message : String)
  | temporaryError (message : String) (delay : ℕ)
  /-- Any other exception, such as a connection error of the API client. -/
  | other (message : String)
  deriving DecidableEq

/-- The exception the API client raises for a failed call. -/
def Exc.ofApi : ApiError → Exc
  | .status e => .apiException e
  | .other m => .other m

/-- `repr` of a character between the quotes `q`. -/
def reprChar (q c : Char) : String :=
  if c = q || c = '\\' then "\\" ++ c.toString else if c = '\n' then "\\n"
  else if c = '\r' then "\\r" else if c = '\t' then "\\t"
  else if isNonPrinting c then "\\x" ++ hexByte c.toNat else c.toString

/-- The conversion `!r` of a string, or of a missing value.  The quotes are double when
    only single ones occur. -/
def repr : Option String → String
  | none => "None"
  | some s =>
    let q := if s.toList.contains '\'' && !s.toList.contains '"' then '"' else '\''
    q.toString ++ String.join (s.toList.map (reprChar q)) ++ q.toString

/-! ## Objects -/

def resourceFor (kind : Kind) : OpE Exc Unit := act Exc.ofApi (.discover kind)

def getObject (kind : Kind) (name ns : String) : OpE Exc Live := do
  resourceFor kind
  CubeOperator.getObject Exc.ofApi ⟨kind, ns, name⟩

/-- A lookup of an object the spec names, of which only the exception matters. -/
def lookup (kind : Kind) (name ns : String) : OpE Exc Unit := do
  let _ ← getObject kind name ns
  pure ()

/-- The owner reference that `apply_object` puts on an object. -/
def ownerReference (name uid : String) : OwnerReference where
  apiVersion := "platform.cube.dev/v1alpha1"
  kind := "CubeCluster"
  name := name
  uid := uid
  controller := true
  blockOwnerDeletion := true

/-- Create the object when reading it is answered with 404, else patch it. -/
def createOrPatch (desired : Manifest) : OpE Exc Unit :=
  ExceptT.mk (.call (.get desired.key) fun (r : Except ApiError Live) =>
    match r with
    | .ok _ => (act Exc.ofApi (.patch desired)).run
    | .error e =>
      if e.isNotFound then (act Exc.ofApi (.create desired)).run
      else .ret (.error (.ofApi e)))

def applyObject (owner : OwnerReference) (desired : Manifest) : OpE Exc Unit := do
  resourceFor desired.kind
  createOrPatch (desired.ownedBy owner)

/-- What `delete_if_present` does with an exception: a 404 is no error. -/
def unlessNotFound : Exc → Except Exc Unit
  | .apiException e => if e.code = 404 then .ok () else .error (.apiException e)
  | exc => .error exc

/-- A 404 counts as deleted, also one from API discovery. -/
def deleteIfPresent (key : Key) : OpE Exc Unit :=
  Attempt.rescue unlessNotFound do
    resourceFor key.kind
    act Exc.ofApi (.delete key)

/-! ## Validation -/

section validation

variable (q : Quantities)

/-- The check of a non-empty scratch size. -/
def validateScratchSize (size : String) : OpE Exc Unit :=
  if size ≠ "" then
    match q.value size with
    | some v => Attempt.failIf (v ≤ 0) (.valueError "Cube Store scratch size must be positive")
    | none => throw (match q.pythonError size with
      | .valueError m => .valueError m
      | .invalidOperation | .typeError =>
        .valueError ("invalid Cube Store scratch size: " ++ repr (some size)))
  else pure ()

/-- The last `if` of `validate_references`. -/
def validateStorage (spec : Spec) (ns : String) : OpE Exc Unit :=
  let storage := (spec.cubeStore.getD {}).remoteStorage.getD {}
  if storage.type = some "persistentVolume" then do
    let claim := (storage.persistentVolume.getD {}).existingClaim.getD ""
    Attempt.failIf (claim = "") (.valueError "persistentVolume storage requires existingClaim")
    lookup .persistentVolumeClaim claim ns
  else if storage.type = some "s3" then do
    let s3 := storage.s3.getD {}
    Attempt.failIf (s3.bucket.getD "" = "" || s3.region.getD "" = "")
      (.valueError "s3 storage requires bucket and region")
    if s3.secretRef.getD "" ≠ "" then lookup .secret (s3.secretRef.getD "") ns else pure ()
  else throw (.valueError ("unsupported remote storage type " ++ repr storage.type))

def validateReferences (spec : Spec) (ns : String) : OpE Exc Unit := do
  let model := spec.modelConfigMap.getD ""
  let configuration := spec.configurationSecret.getD ""
  Attempt.failIf (model = "" || configuration = "")
    (.valueError "spec.modelConfigMap and spec.configurationSecret are required")
  lookup .configMap model ns
  lookup .secret configuration ns
  Attempt.failIf (replicas (spec.api.getD {}).replicas 2 < 1 ||
      replicas (spec.refreshWorker.getD {}).replicas 1 < 1)
    (.valueError "API and refresh worker replicas must be at least 1")
  let store := spec.cubeStore.getD {}
  let mode := store.mode.getD "single"
  Attempt.failIf (mode ≠ "single" && mode ≠ "clustered")
    (.valueError ("unsupported Cube Store mode " ++ repr (some mode)))
  Attempt.failIf (mode = "clustered" && replicas store.workers 2 < 1)
    (.valueError "clustered Cube Store workers must be at least 1")
  validateScratchSize q ((store.scratch.getD {}).size.getD "")
  let service := spec.service.getD {}
  let type := service.type.getD "ClusterIP"
  Attempt.failIf (service.nodePort.getD 0 ≠ 0 && type ≠ "NodePort" && type ≠ "LoadBalancer")
    (.valueError "spec.service.nodePort requires service type NodePort or LoadBalancer")
  validateStorage spec ns

end validation

/-! ## Readiness -/

/-- `int(... .get("readyReplicas", 0) or 0)`. -/
def readyReplicas (l : Live) : ℤ := l.readyReplicas.getD 0

def ready (kind : Kind) (name component ns : String) : OpE Exc ℤ := do
  let obj ← getObject kind (name ++ "-" ++ component) ns
  pure (readyReplicas obj)

/-- The Cube Store part of `workload_readiness`. -/
def storeReadiness (spec : Spec) (name ns : String) : OpE Exc (Bool × String) :=
  if storeMode spec = "clustered" then do
    let cubeStore ← Attempt.ofExcept (spec.cubeStore.elim (.error .keyError) .ok)
    let workerExpected := replicas cubeStore.workers 2
    let routerReady ← ready .statefulSet name "cubestore-router" ns
    let workerReady ← ready .statefulSet name "cubestore-worker" ns
    pure (decide (routerReady ≥ 1) && decide (workerReady ≥ workerExpected),
      "Cube Store router " ++ toString routerReady ++ "/1, workers " ++ toString workerReady ++
        "/" ++ toString workerExpected)
  else do
    let storeReady ← ready .deployment name "cubestore" ns
    pure (decide (storeReady ≥ 1), "Cube Store " ++ toString storeReady ++ "/1")

/-- The API's ready replicas, whether every workload is available, and the
    progress message. -/
def workloadReadiness (spec : Spec) (name ns : String) : OpE Exc (ℤ × Bool × String) := do
  let apiExpected := replicas (spec.api.getD {}).replicas 2
  let refreshExpected := replicas (spec.refreshWorker.getD {}).replicas 1
  let apiReady ← ready .deployment name "api" ns
  let refreshReady ← ready .deployment name "refresh-worker" ns
  let (storeReady, storePart) ← storeReadiness spec name ns
  pure (apiReady,
    decide (apiReady ≥ apiExpected) && decide (refreshReady ≥ refreshExpected) && storeReady,
    String.intercalate "; " ["API " ++ toString apiReady ++ "/" ++ toString apiExpected,
      "refresh " ++ toString refreshReady ++ "/" ++ toString refreshExpected, storePart])

def endpoint (name ns : String) : String := "http://" ++ name ++ "-api." ++ ns ++ ".svc:4000"

/-- The text of what `raise_for_status` raises, for the codes from 400 to 599. -/
def statusError (code : ℕ) (reason url : String) : Option String :=
  if 400 ≤ code ∧ code < 500 then
    some (toString code ++ " Client Error: " ++ reason ++ " for url: " ++ url)
  else if 500 ≤ code ∧ code < 600 then
    some (toString code ++ " Server Error: " ++ reason ++ " for url: " ++ url)
  else none

def apiHealthy (name ns : String) : OpE Exc Unit :=
  ExceptT.mk (.call (.httpGet (endpoint name ns ++ "/readyz")) fun (r : HttpAnswer) =>
    .ret (match r with
    | .invalidRequest m | .failed m =>
      .error (.runtimeError ("Cube API readiness check failed: " ++ m))
    | .status code reason url =>
      match statusError code reason url with
      | some m => .error (.runtimeError ("Cube API readiness check failed: " ++ m))
      | none => .ok ()))

/-! ## Status -/

/-- The status patch: `observedGeneration`, `readyAPIs`, `endpoint` and the list
    of conditions, all of which replace what is stored. -/
abbrev StatusPatch : Type := CubeClusterStatus

/-- The transition time of the previous condition when nothing about it changes, else
    the current time. -/
def transitionTime (oldStatus : CubeClusterStatus) (status : ConditionStatus)
    (reason message : String) : Op ℤ :=
  match oldStatus.ready with
  | some previous =>
    if previous.status = status ∧ previous.reason = reason ∧ previous.message = message then
      pure previous.lastTransitionTime
    else now
  | none => now

def setStatus (oldStatus : CubeClusterStatus) (generation : ℤ) (ns name : String) (ready : ℤ)
    (status : ConditionStatus) (reason message : String) : Op StatusPatch := do
  let transition ← transitionTime oldStatus status reason message
  pure {
    observedGeneration := generation
    readyAPIs := ready
    endpoint := endpoint name ns
    conditions := [{ type := "Ready", status := status, reason := reason, message := message
                     observedGeneration := generation, lastTransitionTime := transition }] }

/-! ## Reconcile -/

/-- What a handler is called with. -/
structure Body where
  name : String
  ns : String
  uid : String
  generation : ℤ
  spec : Spec
  status : CubeClusterStatus

/-- How a handler ends: the status patch it leaves for the framework to send, and
    the exception it raises. -/
structure Handled where
  patch : Option StatusPatch := none
  raised : Option Exc := none
  deriving DecidableEq

section reconcile

variable (q : Quantities)

/-- The objects of the store mode that is not in use. -/
def obsoleteStore (spec : Spec) (name ns : String) : List Key :=
  if storeMode spec = "clustered" then
    [⟨.deployment, ns, name ++ "-cubestore"⟩, ⟨.service, ns, name ++ "-cubestore"⟩]
  else
    [⟨.statefulSet, ns, name ++ "-cubestore-router"⟩,
      ⟨.statefulSet, ns, name ++ "-cubestore-worker"⟩,
      ⟨.service, ns, name ++ "-cubestore-router"⟩,
      ⟨.service, ns, name ++ "-cubestore-worker"⟩]

/-- `desired_objects`, a missing key raising a `KeyError`. -/
def desired (b : Body) : OpE Exc (List Manifest) :=
  Attempt.ofExcept ((desiredObjects b.name b.ns b.spec).elim (.error .keyError) .ok)

/-- The status after the workloads have been read. -/
def reportReadiness (b : Body) (ready : ℤ) (available : Bool) (message : String) :
    Op StatusPatch :=
  if available then do
    match ← (apiHealthy b.name b.ns).run with
    | .error (.runtimeError m) =>
      setStatus b.status b.generation b.ns b.name ready .isFalse "APIHealthCheckFailed" m
    | _ =>
      setStatus b.status b.generation b.ns b.name ready .isTrue "Available"
        "Cube API readiness endpoint is healthy and all workloads are ready"
  else setStatus b.status b.generation b.ns b.name ready .isFalse "Progressing" message

/-- The objects part of the `try` block: validate, apply, delete, read. -/
def reconcileObjects (b : Body) : OpE Exc (ℤ × Bool × String) := do
  validateReferences q b.spec b.ns
  let objects ← desired b
  Attempt.forEach (applyObject (ownerReference b.name b.uid)) objects
  Attempt.forEach deleteIfPresent (obsoleteStore b.spec b.name b.ns)
  workloadReadiness b.spec b.name b.ns

/-- The `except` clauses.  The message of an API exception stands for its text. -/
def recover (b : Body) : Exc → Op Handled
  | .valueError m => do
    let patch ← setStatus b.status b.generation b.ns b.name 0 .isFalse "InvalidConfiguration" m
    pure { patch := some patch }
  | .apiException e =>
    if e.code = 404 then do
      let patch ← setStatus b.status b.generation b.ns b.name 0 .isFalse "InvalidConfiguration"
        (if e.phrase = "" then "required reference not found" else e.phrase)
      pure { patch := some patch }
    else pure { raised := some (.temporaryError e.message 10) }
  | exc => pure { raised := some exc }

def reconcile (b : Body) : Op Handled := do
  match ← (reconcileObjects q b).run with
  | .error exc => recover b exc
  | .ok (ready, available, message) =>
    let patch ← reportReadiness b ready available message
    pure { patch := some patch }

end reconcile

end CubeOperator.Kopf
