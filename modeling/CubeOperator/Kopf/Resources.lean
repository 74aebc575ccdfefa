import CubeOperator.Api.Spec

/-! # The resource builders of the Kopf controller

    `desired_objects` and what it calls, from `resources.py`.  The builders work
    on the stored `spec` mapping: `spec.get(k)` is the optional field, and a
    subscript `spec[k]` is `none` when the key is missing. -/

namespace CubeOperator.Kopf

open Kube Crd

def defaultCubeImage : String :=
  "cubejs/cube:v1.7.20@sha256:7f14f4be9f3303afe48a16584480c8a9dc15f44c13daf66c2a5b31019025b71a"

def defaultStoreImage : String :=
  "cubejs/cubestore:v1.7.20@sha256:cd5fe68049204640704a6412a39e7a09eb391fc70890577dd21b5480d85cb219"

/-! ## Helpers -/

/-- `value or fallback` for strings: a missing or an empty one falls back. -/
def orDefault (value : Option String) (fallback : String) : String :=
  if value.getD "" = "" then fallback else value.getD ""

def replicas (value : Option ℤ) (fallback : ℤ) : ℤ := value.getD fallback

def storeMode (spec : Spec) : String :=
  if (spec.cubeStore.getD {}).mode = some "clustered" then "clustered" else "single"

def labels (name component : String) : List (String × String) :=
  [("app.kubernetes.io/name", "cube"), ("app.kubernetes.io/instance", name),
    ("app.kubernetes.io/component", component), ("app.kubernetes.io/part-of", "cube")] ++
    if component.startsWith "cubestore" then [("platform.cube.dev/store", "true")] else []

def podSecurityContext : Json := .obj [("seccompProfile", .obj [("type", .str "RuntimeDefault")])]

def containerSecurityContext : Json :=
  .obj [("allowPrivilegeEscalation", .bool false),
    ("capabilities", .obj [("drop", .arr [.str "ALL"])])]

def cubeStoreHost (name : String) (spec : Spec) : String :=
  name ++ "-" ++ if storeMode spec = "clustered" then "cubestore-router" else "cubestore"

def httpProbe (path : String) : Json :=
  .obj [("httpGet", .obj [("path", .str path), ("port", .str "http")]),
    ("initialDelaySeconds", .num 10), ("periodSeconds", .num 10), ("timeoutSeconds", .num 5),
    ("failureThreshold", .num 6)]

def tcpProbe (port : String) : Json :=
  .obj [("tcpSocket", .obj [("port", .str port)]), ("initialDelaySeconds", .num 5),
    ("periodSeconds", .num 10), ("failureThreshold", .num 6)]

/-- An entry of `env` with a value. -/
def envVar (name value : String) : Json := .obj [("name", .str name), ("value", .str value)]

def secretRef (name : String) : Json := .obj [("secretRef", .obj [("name", .str name)])]

def port (name : String) (containerPort : ℤ) : Json :=
  .obj [("name", .str name), ("containerPort", .num containerPort)]

def servicePort (name : String) (port : ℤ) : Json :=
  .obj [("name", .str name), ("port", .num port)]

def volumeMount (name mountPath : String) : Json :=
  .obj [("name", .str name), ("mountPath", .str mountPath)]

def readOnlyMount (name mountPath : String) : Json :=
  .obj [("name", .str name), ("mountPath", .str mountPath), ("readOnly", .bool true)]

def matchLabels (entries : List (String × String)) : Json :=
  .obj [("matchLabels", stringsJson entries)]

/-! ## API and refresh worker -/

def cubeImage (spec : Spec) : String := orDefault spec.image defaultCubeImage

def pullPolicy (spec : Spec) : String := orDefault spec.imagePullPolicy "IfNotPresent"

/-- `workload.get("resources", {})`. -/
def resources (r : Option ResourceRequirements) : Json := (r.getD {}).toJson

def cubeContainer (name : String) (spec : Spec) (component : String) (workload : WorkloadSpec) :
    Option Json := do
  let configurationSecret ← spec.configurationSecret
  some (.obj [
    ("name", .str component),
    ("image", .str (cubeImage spec)),
    ("imagePullPolicy", .str (pullPolicy spec)),
    ("env", .arr ([envVar "CUBEJS_DEV_MODE" "false",
      envVar "CUBEJS_CUBESTORE_HOST" (cubeStoreHost name spec),
      envVar "CUBEJS_TELEMETRY" "false"] ++
      if component = "refresh-worker" then [envVar "CUBEJS_REFRESH_WORKER" "true"] else [])),
    ("envFrom", .arr [secretRef configurationSecret]),
    ("ports", .arr [port "http" 4000]),
    ("resources", resources workload.resources),
    ("securityContext", containerSecurityContext),
    ("volumeMounts", .arr [readOnlyMount "model" "/cube/conf/model"]),
    ("readinessProbe", httpProbe "/readyz"),
    ("livenessProbe", httpProbe "/livez")])

def modelLoader (spec : Spec) : Json :=
  .obj [
    ("name", .str "model-loader"),
    ("image", .str (cubeImage spec)),
    ("imagePullPolicy", .str (pullPolicy spec)),
    ("command", .arr [.str "sh", .str "-c", .str "cp -L /model-source/* /cube-model/"]),
    ("securityContext", containerSecurityContext),
    ("volumeMounts", .arr [readOnlyMount "model-source" "/model-source",
      volumeMount "model" "/cube-model"])]

/-- The `spec` of a Deployment: replicas, selector and template. -/
def workloadSpec (count : ℤ) (labels : List (String × String)) (podSpec : Json) :
    List (String × Json) :=
  [("replicas", .num count), ("selector", matchLabels labels),
    ("template", .obj [("metadata", .obj [("labels", stringsJson labels)]), ("spec", podSpec)])]

def deployment (name ns : String) (spec : Spec) (component : String) (workload : WorkloadSpec) :
    Option Manifest := do
  let count := replicas workload.replicas (if component = "api" then 2 else 1)
  let container ← cubeContainer name spec component workload
  let modelConfigMap ← spec.modelConfigMap
  some {
    kind := .deployment
    metadata := {
      name := name ++ "-" ++ component, ns := ns, labels := some (labels name component) }
    spec := .obj (workloadSpec count (labels name component) (.obj [
      ("securityContext", podSecurityContext),
      ("initContainers", .arr [modelLoader spec]),
      ("containers", .arr [container]),
      ("volumes", .arr [
        .obj [("name", .str "model-source"), ("configMap", .obj [("name", .str modelConfigMap)])],
        .obj [("name", .str "model"), ("emptyDir", .obj [])]])])) }

/-! ## Cube Store -/

/-- What `storage_configuration` contributes to a store container and its pod. -/
structure StorageConfiguration where
  env : List Json
  envFrom : List Json
  volumes : List Json
  mounts : List Json

/-- `empty_dir`, with the size limit of a non-empty `scratch.size`. -/
def emptyDir (store : CubeStoreSpec) : Json :=
  let size := (store.scratch.getD {}).size.getD ""
  .obj (if size ≠ "" then [("sizeLimit", .quantity size)] else [])

def storageConfiguration (spec : Spec) : Option StorageConfiguration := do
  let store ← spec.cubeStore
  let storage ← store.remoteStorage
  let volumes := [.obj [("name", .str "scratch"), ("emptyDir", emptyDir store)]]
  let mounts := [volumeMount "scratch" "/cube/data"]
  let type ← storage.type
  if type = "s3" then
    let s3 ← storage.s3
    let bucket ← s3.bucket
    let region ← s3.region
    let secret := s3.secretRef.getD ""
    some {
      env := [envVar "CUBESTORE_S3_BUCKET" bucket, envVar "CUBESTORE_S3_REGION" region]
      envFrom := if secret ≠ "" then [secretRef secret] else []
      volumes := volumes
      mounts := mounts }
  else
    let persistentVolume ← storage.persistentVolume
    let claim ← persistentVolume.existingClaim
    some {
      env := [envVar "CUBESTORE_REMOTE_DIR" "/cube/remote"]
      envFrom := []
      volumes := volumes ++ [.obj [("name", .str "remote"),
        ("persistentVolumeClaim", .obj [("claimName", .str claim)])]]
      mounts := mounts ++ [volumeMount "remote" "/cube/remote"] }

def workerAddress (name : String) (index : ℕ) : String :=
  name ++ "-cubestore-worker-" ++ toString index ++ "." ++ name ++ "-cubestore-worker:9001"

/-- `range` of a negative count is empty. -/
def workerAddresses (name : String) (count : ℤ) : String :=
  String.intercalate "," ((List.range count.toNat).map (workerAddress name))

def storeContainer (spec : Spec) (role : String) (roleEnv : List Json) :
    Option (Json × List Json) := do
  let storage ← storageConfiguration spec
  let store ← spec.cubeStore
  let probePort := if role = "worker" then "worker" else "http"
  some (.obj [
    ("name", .str role),
    ("image", .str (orDefault store.image defaultStoreImage)),
    ("imagePullPolicy", .str (pullPolicy spec)),
    ("env", .arr (storage.env ++ roleEnv)),
    ("envFrom", .arr storage.envFrom),
    ("ports", .arr [port "http" 3030, port "meta" 9999, port "worker" 9001]),
    ("resources", resources store.resources),
    ("securityContext", containerSecurityContext),
    ("volumeMounts", .arr storage.mounts),
    ("readinessProbe", tcpProbe probePort),
    ("livenessProbe", tcpProbe probePort)], storage.volumes)

def storeService (name ns component : String) (ports : List Json) (headless : Bool) :
    Manifest where
  kind := .service
  metadata := { name := name ++ "-" ++ component, ns := ns, labels := some (labels name component) }
  spec := .obj ([("selector", stringsJson (labels name component)), ("ports", .arr ports)] ++
    if headless then [("clusterIP", .str "None")] else [])

def storeWorkload (name ns : String) (spec : Spec) (component : String) (count : ℤ)
    (role : String) (roleEnv : List Json) (stateful : Bool) : Option Manifest := do
  let (container, volumes) ← storeContainer spec role roleEnv
  some {
    kind := if stateful then .statefulSet else .deployment
    metadata := {
      name := name ++ "-" ++ component, ns := ns, labels := some (labels name component) }
    spec := .obj (workloadSpec count (labels name component) (.obj [
        ("securityContext", podSecurityContext),
        ("containers", .arr [container]),
        ("volumes", .arr volumes)]) ++
      if stateful then
        [("serviceName", .str (name ++ "-" ++ component)),
          ("podManagementPolicy", .str "Parallel")]
      else []) }

def routerEnv (name addresses : String) : List Json :=
  [envVar "CUBESTORE_SERVER_NAME" (name ++ "-cubestore-router:9999"),
    envVar "CUBESTORE_META_PORT" "9999",
    envVar "CUBESTORE_WORKERS" addresses]

def workerEnv (name addresses : String) : List Json :=
  [.obj [("name", .str "POD_NAME"),
      ("valueFrom", .obj [("fieldRef", .obj [("fieldPath", .str "metadata.name")])])],
    envVar "CUBESTORE_SERVER_NAME" ("$(POD_NAME)." ++ name ++ "-cubestore-worker:9001"),
    envVar "CUBESTORE_WORKER_PORT" "9001",
    envVar "CUBESTORE_META_ADDR" (name ++ "-cubestore-router:9999"),
    envVar "CUBESTORE_WORKERS" addresses]

/-! ## The desired objects -/

def apiService (name ns : String) (spec : Spec) : Manifest :=
  let service := spec.service.getD {}
  let nodePort := service.nodePort.getD 0
  { kind := .service
    metadata := {
      name := name ++ "-api", ns := ns, labels := some (labels name "api")
      annotations := some (service.annotations.getD .empty).entries }
    spec := .obj [
      ("type", .str (orDefault service.type "ClusterIP")),
      ("selector", stringsJson (labels name "api")),
      ("ports", .arr [.obj ([("name", .str "http"), ("port", .num 4000)] ++
        if nodePort ≠ 0 then [("nodePort", .num nodePort)] else [])])] }

def apiPDB (name ns : String) : Manifest where
  kind := .podDisruptionBudget
  metadata := { name := name ++ "-api", ns := ns }
  spec := .obj [("minAvailable", .num 1), ("selector", matchLabels (labels name "api"))]

def networkPolicy (name ns : String) : Manifest where
  kind := .networkPolicy
  metadata := { name := name ++ "-cubestore", ns := ns }
  spec := .obj [
    ("podSelector", matchLabels [("app.kubernetes.io/instance", name),
      ("platform.cube.dev/store", "true")]),
    ("policyTypes", .arr [.str "Ingress"]),
    ("ingress", .arr [.obj [
      ("from", .arr [.obj [("podSelector", matchLabels [("app.kubernetes.io/instance", name)])]]),
      ("ports", .arr ([3030, 9001, 9999].map fun p => .obj [("port", .num p)]))]])]

def desiredObjects (name ns : String) (spec : Spec) : Option (List Manifest) := do
  let api ← deployment name ns spec "api" (spec.api.getD {})
  let refresh ← deployment name ns spec "refresh-worker" (spec.refreshWorker.getD {})
  let result := [apiService name ns spec, api, refresh, apiPDB name ns, networkPolicy name ns]
  if storeMode spec = "single" then
    let store ← storeWorkload name ns spec "cubestore" 1 "cubestore" [] false
    some (result ++
      [storeService name ns "cubestore" [servicePort "http" 3030] false, store])
  else
    let cubeStore ← spec.cubeStore
    let workerCount := replicas cubeStore.workers 2
    let addresses := workerAddresses name workerCount
    let router ← storeWorkload name ns spec "cubestore-router" 1 "router"
      (routerEnv name addresses) true
    let worker ← storeWorkload name ns spec "cubestore-worker" workerCount "worker"
      (workerEnv name addresses) true
    some (result ++
      [storeService name ns "cubestore-router" [servicePort "http" 3030, servicePort "meta" 9999]
        false,
        storeService name ns "cubestore-worker" [servicePort "worker" 9001] true, router, worker])

end CubeOperator.Kopf
