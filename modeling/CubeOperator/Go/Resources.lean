import CubeOperator.Go.Objects

/-! # The resource builders of the Go controller

    `objects` and what it calls, from `cubecluster_controller.go`.  A builder
    that may panic returns an option, `none` being the panic. -/

namespace CubeOperator.Go

open V1alpha1 K8s

def defaultCubeImage : String :=
  "cubejs/cube:v1.7.20@sha256:7f14f4be9f3303afe48a16584480c8a9dc15f44c13daf66c2a5b31019025b71a"

def defaultCubeStoreImage : String :=
  "cubejs/cubestore:v1.7.20@sha256:cd5fe68049204640704a6412a39e7a09eb391fc70890577dd21b5480d85cb219"

/-! ## Helpers -/

def labels (c : CubeCluster) (component : String) : List (String × String) :=
  [("app.kubernetes.io/name", "cube"), ("app.kubernetes.io/instance", c.name),
    ("app.kubernetes.io/component", component), ("app.kubernetes.io/part-of", "cube")] ++
    if component.startsWith "cubestore" then [("platform.cube.dev/store", "true")] else []

def replicas (value : Option ℤ) (fallback : ℤ) : ℤ := value.getD fallback

def storeMode (c : CubeCluster) : String :=
  if c.spec.cubeStore.mode = "clustered" then "clustered" else "single"

def cubeStoreHost (c : CubeCluster) : String :=
  if storeMode c = "clustered" then c.name ++ "-cubestore-router" else c.name ++ "-cubestore"

def workerAddress (name : String) (i : ℕ) : String :=
  name ++ "-cubestore-worker-" ++ toString i ++ "." ++ name ++ "-cubestore-worker:9001"

/-- `make([]string, count)` panics on a negative count. -/
def workerAddresses (c : CubeCluster) : Option String :=
  let count := replicas c.spec.cubeStore.workers 2
  if count < 0 then none
  else some (String.intercalate "," ((List.range count.toNat).map (workerAddress c.name)))

def pullPolicy (c : CubeCluster) : String :=
  if c.spec.imagePullPolicy ≠ "" then c.spec.imagePullPolicy else "IfNotPresent"

def tcpProbe (port : String) : Probe where
  handler := .tcpSocket port
  initialDelaySeconds := 5
  periodSeconds := 10
  failureThreshold := 6

def httpProbe (path : String) : Probe where
  handler := .httpGet path "http"
  initialDelaySeconds := 10
  periodSeconds := 10
  timeoutSeconds := 5
  failureThreshold := 6

def podSecurityContext : String := "RuntimeDefault"

def containerSecurityContext : SecurityContext where
  allowPrivilegeEscalation := false
  drop := ["ALL"]

/-! ## API and refresh worker -/

def apiService (c : CubeCluster) : Service where
  objectMeta := {
    name := c.name ++ "-api", ns := c.ns, labels := labels c "api"
    annotations := c.spec.service.annotations }
  type := if c.spec.service.type = "" then "ClusterIP" else c.spec.service.type
  selector := labels c "api"
  ports := [{ name := "http", port := 4000, nodePort := c.spec.service.nodePort }]

def cubeImage (c : CubeCluster) : String :=
  if c.spec.image = "" then defaultCubeImage else c.spec.image

def modelLoader (c : CubeCluster) : Container where
  name := "model-loader"
  image := cubeImage c
  imagePullPolicy := pullPolicy c
  command := ["sh", "-c", "cp -L /model-source/* /cube-model/"]
  securityContext := containerSecurityContext
  volumeMounts := [{ name := "model-source", mountPath := "/model-source", readOnly := true },
    { name := "model", mountPath := "/cube-model" }]

def cubeContainer (c : CubeCluster) (component : String) (resources : ResourceRequirements)
    (extra : List EnvVar) : Container where
  name := component
  image := cubeImage c
  imagePullPolicy := pullPolicy c
  env := [{ name := "CUBEJS_DEV_MODE", value := "false" },
    { name := "CUBEJS_CUBESTORE_HOST", value := cubeStoreHost c },
    { name := "CUBEJS_TELEMETRY", value := "false" }] ++ extra
  envFrom := [c.spec.configurationSecret]
  ports := [{ name := "http", containerPort := 4000 }]
  resources := resources
  securityContext := containerSecurityContext
  volumeMounts := [{ name := "model", mountPath := "/cube/conf/model", readOnly := true }]
  readinessProbe := some (httpProbe "/readyz")
  livenessProbe := some (httpProbe "/livez")

def modelVolumes (c : CubeCluster) : List Volume :=
  [{ name := "model-source", source := .configMap c.spec.modelConfigMap },
    { name := "model", source := .emptyDir none }]

def deployment (c : CubeCluster) (component : String) (count : ℤ) (container : Container) :
    Deployment where
  objectMeta := { name := c.name ++ "-" ++ component, ns := c.ns, labels := labels c component }
  replicas := count
  selector := labels c component
  template := {
    labels := labels c component
    spec := {
      seccompProfile := podSecurityContext
      initContainers := [modelLoader c]
      containers := [container]
      volumes := modelVolumes c } }

def apiDeployment (c : CubeCluster) : Deployment :=
  deployment c "api" (replicas c.spec.api.replicas 2)
    (cubeContainer c "api" c.spec.api.resources [])

def refreshDeployment (c : CubeCluster) : Deployment :=
  deployment c "refresh-worker" (replicas c.spec.refreshWorker.replicas 1)
    (cubeContainer c "refresh-worker" c.spec.refreshWorker.resources
      [{ name := "CUBEJS_REFRESH_WORKER", value := "true" }])

def apiPDB (c : CubeCluster) : PodDisruptionBudget where
  objectMeta := { name := c.name ++ "-api", ns := c.ns }
  minAvailable := 1
  selector := labels c "api"

def networkPolicy (c : CubeCluster) : NetworkPolicy where
  objectMeta := { name := c.name ++ "-cubestore", ns := c.ns }
  podSelector := [("app.kubernetes.io/instance", c.name), ("platform.cube.dev/store", "true")]
  policyTypes := ["Ingress"]
  ingress := [{ peers := [[("app.kubernetes.io/instance", c.name)]], ports := [3030, 9001, 9999] }]

/-! ## Cube Store -/

def storeService (c : CubeCluster) (component : String) (selector : List (String × String))
    (headless : Bool) (ports : List ServicePort) : Service where
  objectMeta := { name := c.name ++ "-" ++ component, ns := c.ns, labels := selector }
  selector := selector
  ports := ports
  clusterIP := if headless then "None" else ""

def singleStoreService (c : CubeCluster) : Service :=
  storeService c "cubestore" (labels c "cubestore") false [{ name := "http", port := 3030 }]

def routerService (c : CubeCluster) : Service :=
  storeService c "cubestore-router" (labels c "cubestore-router") false
    [{ name := "http", port := 3030 }, { name := "meta", port := 9999 }]

def workerService (c : CubeCluster) : Service :=
  storeService c "cubestore-worker" (labels c "cubestore-worker") true
    [{ name := "worker", port := 9001 }]

/-- What `storageConfiguration` contributes to a store container and its pod. -/
structure StorageConfiguration where
  env : List EnvVar
  envFrom : List String
  volumes : List Volume
  mounts : List VolumeMount

section store

variable (q : Quantities)

/-- The scratch volume's size limit; `resource.MustParse` panics on a bad size. -/
def scratchLimit (c : CubeCluster) : Option (Option ℚ) :=
  if c.spec.cubeStore.scratch.size ≠ "" then
    (q.value c.spec.cubeStore.scratch.size).map some
  else some none

/-- Panics when the sub-object of the storage type is nil. -/
def storageConfiguration (c : CubeCluster) : Option StorageConfiguration := do
  let sizeLimit ← scratchLimit q c
  let volumes : List Volume := [{ name := "scratch", source := .emptyDir sizeLimit }]
  let mounts : List VolumeMount := [{ name := "scratch", mountPath := "/cube/data" }]
  let storage := c.spec.cubeStore.remoteStorage
  if storage.type = "s3" then
    let s3 ← storage.s3
    some {
      env := [{ name := "CUBESTORE_S3_BUCKET", value := s3.bucket },
        { name := "CUBESTORE_S3_REGION", value := s3.region }]
      envFrom := if s3.secretRef ≠ "" then [s3.secretRef] else []
      volumes := volumes
      mounts := mounts }
  else
    let persistentVolume ← storage.persistentVolume
    some {
      env := [{ name := "CUBESTORE_REMOTE_DIR", value := "/cube/remote" }]
      envFrom := []
      volumes := volumes ++
        [{ name := "remote", source := .persistentVolumeClaim persistentVolume.existingClaim }]
      mounts := mounts ++ [{ name := "remote", mountPath := "/cube/remote" }] }

def storeImage (c : CubeCluster) : String :=
  if c.spec.cubeStore.image = "" then defaultCubeStoreImage else c.spec.cubeStore.image

def storeContainer (c : CubeCluster) (name : String) (roleEnv : List EnvVar) :
    Option (Container × List Volume) := do
  let storage ← storageConfiguration q c
  let probePort := if name = "worker" then "worker" else "http"
  some ({
    name := name
    image := storeImage c
    imagePullPolicy := pullPolicy c
    env := storage.env ++ roleEnv
    envFrom := storage.envFrom
    ports := [{ name := "http", containerPort := 3030 }, { name := "meta", containerPort := 9999 },
      { name := "worker", containerPort := 9001 }]
    resources := c.spec.cubeStore.resources
    securityContext := containerSecurityContext
    volumeMounts := storage.mounts
    readinessProbe := some (tcpProbe probePort)
    livenessProbe := some (tcpProbe probePort) }, storage.volumes)

def storePod (container : Container) (volumes : List Volume) : PodSpec where
  seccompProfile := podSecurityContext
  containers := [container]
  volumes := volumes

def singleStoreDeployment (c : CubeCluster) : Option Deployment := do
  let (container, volumes) ← storeContainer q c "cubestore" []
  some {
    objectMeta := { name := c.name ++ "-cubestore", ns := c.ns, labels := labels c "cubestore" }
    replicas := 1
    selector := labels c "cubestore"
    template := { labels := labels c "cubestore", spec := storePod container volumes } }

def stateful (c : CubeCluster) (component : String) (count : ℤ) (container : Container)
    (volumes : List Volume) : StatefulSet where
  objectMeta := { name := c.name ++ "-" ++ component, ns := c.ns, labels := labels c component }
  serviceName := c.name ++ "-" ++ component
  replicas := count
  podManagementPolicy := "Parallel"
  selector := labels c component
  template := { labels := labels c component, spec := storePod container volumes }

def routerEnv (c : CubeCluster) (workers : String) : List EnvVar :=
  [{ name := "CUBESTORE_SERVER_NAME", value := c.name ++ "-cubestore-router:9999" },
    { name := "CUBESTORE_META_PORT", value := "9999" },
    { name := "CUBESTORE_WORKERS", value := workers }]

def routerStatefulSet (c : CubeCluster) : Option StatefulSet := do
  let workers ← workerAddresses c
  let (container, volumes) ← storeContainer q c "router" (routerEnv c workers)
  some (stateful c "cubestore-router" 1 container volumes)

def workerEnv (c : CubeCluster) (workers : String) : List EnvVar :=
  [{ name := "POD_NAME", fieldPath := some "metadata.name" },
    { name := "CUBESTORE_SERVER_NAME",
      value := "$(POD_NAME)." ++ c.name ++ "-cubestore-worker:9001" },
    { name := "CUBESTORE_WORKER_PORT", value := "9001" },
    { name := "CUBESTORE_META_ADDR", value := c.name ++ "-cubestore-router:9999" },
    { name := "CUBESTORE_WORKERS", value := workers }]

def workerStatefulSet (c : CubeCluster) : Option StatefulSet := do
  let count := replicas c.spec.cubeStore.workers 2
  let workers ← workerAddresses c
  let (container, volumes) ← storeContainer q c "worker" (workerEnv c workers)
  some (stateful c "cubestore-worker" count container volumes)

/-! ## The desired objects -/

/-- The objects of either store mode. -/
def commonObjects (c : CubeCluster) : List Object :=
  [.service (apiService c), .deployment (apiDeployment c), .deployment (refreshDeployment c),
    .podDisruptionBudget (apiPDB c), .networkPolicy (networkPolicy c)]

def objects (c : CubeCluster) : Option (List Object) := do
  if storeMode c = "clustered" then
    let router ← routerStatefulSet q c
    let worker ← workerStatefulSet q c
    some (commonObjects c ++
      [.service (routerService c), .service (workerService c), .statefulSet router,
        .statefulSet worker])
  else
    let store ← singleStoreDeployment q c
    some (commonObjects c ++ [.service (singleStoreService c), .deployment store])

end store

end CubeOperator.Go
