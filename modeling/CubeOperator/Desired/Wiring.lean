import CubeOperator.Desired.Names
import CubeOperator.Isolation.Labels
import CubeOperator.Kube.Pods

/-! # The wiring of the Cube Store

    The variables of the generated containers refer to one another by host and port.
    Both controllers write documents of the same shape; in it every endpoint exists, and
    the addresses of the workers are what the workers call themselves. -/

namespace CubeOperator.Wiring

open Interaction Kube Kube.Runtime V1alpha1

variable {q : Quantities} {c : CubeCluster} {name ns : String} {clustered : Bool} {workers : ℤ}

/-! ## The shape of the documents -/

section shape

/-- A container of Cube, which asks the Cube Store at `host`. -/
def cubeContainer (host : String) (extra : List EnvVar) : Container where
  env := [{ name := "CUBEJS_DEV_MODE", value := "false" },
    { name := "CUBEJS_CUBESTORE_HOST", value := host },
    { name := "CUBEJS_TELEMETRY", value := "false" }] ++ extra
  ports := [("http", 4000)]
  probes := ["http", "http"]

/-- A container of the Cube Store, after the variables of its storage. -/
def storeContainer (storageEnv : List EnvVar) (probe : String) (roleEnv : List EnvVar) :
    Container where
  env := storageEnv ++ roleEnv
  ports := [("http", 3030), ("meta", 9999), ("worker", 9001)]
  probes := [probe, probe]

def routerVariables (name addresses : String) : List EnvVar :=
  [{ name := "CUBESTORE_SERVER_NAME", value := name ++ "-cubestore-router:9999" },
    { name := "CUBESTORE_META_PORT", value := "9999" },
    { name := "CUBESTORE_WORKERS", value := addresses }]

def workerVariables (name addresses : String) : List EnvVar :=
  [{ name := "POD_NAME", fieldPath := "metadata.name" },
    { name := "CUBESTORE_SERVER_NAME", value := "$(POD_NAME)." ++ name ++ "-cubestore-worker:9001" },
    { name := "CUBESTORE_WORKER_PORT", value := "9001" },
    { name := "CUBESTORE_META_ADDR", value := name ++ "-cubestore-router:9999" },
    { name := "CUBESTORE_WORKERS", value := addresses }]

variable (name : String) (storageEnv : List EnvVar) (workers : ℤ)

def routerService : Service where
  name := name ++ "-cubestore-router"
  selector := Kopf.labels name "cubestore-router"
  ports := [3030, 9999]

def workerService : Service where
  name := name ++ "-cubestore-worker"
  selector := Kopf.labels name "cubestore-worker"
  ports := [9001]
  headless := true

def singleService : Service where
  name := name ++ "-cubestore"
  selector := Kopf.labels name "cubestore"
  ports := [3030]

def router : PodSet where
  name := name ++ "-cubestore-router"
  labels := Kopf.labels name "cubestore-router"
  containers := [storeContainer storageEnv "http"
    (routerVariables name (Kopf.workerAddresses name workers))]
  set := some (name ++ "-cubestore-router", 1)

def worker : PodSet where
  name := name ++ "-cubestore-worker"
  labels := Kopf.labels name "cubestore-worker"
  containers := [storeContainer storageEnv "worker"
    (workerVariables name (Kopf.workerAddresses name workers))]
  set := some (name ++ "-cubestore-worker", workers)

def single : PodSet where
  name := name ++ "-cubestore"
  labels := Kopf.labels name "cubestore"
  containers := [storeContainer storageEnv "http" []]

/-- A Deployment of Cube: the model loader, which has no variables, and the container. -/
def cube (component host : String) (extra : List EnvVar) : PodSet where
  name := name ++ "-" ++ component
  labels := Kopf.labels name component
  containers := [{}, cubeContainer host extra]

/-- What is deployed besides the store. -/
def cubes (host : String) : List PodSet :=
  [cube name "api" host [],
    cube name "refresh-worker" host [{ name := "CUBEJS_REFRESH_WORKER", value := "true" }]]

def apiService : Service where
  name := name ++ "-api"
  selector := Kopf.labels name "api"
  ports := [4000]

/-- What the documents of a cluster deploy. -/
def deployed (clustered : Bool) : Deployed :=
  if clustered then
    { services := [apiService name, routerService name, workerService name]
      workloads := cubes name (name ++ "-cubestore-router") ++
        [router name storageEnv workers, worker name storageEnv workers] }
  else
    { services := [apiService name, singleService name]
      workloads := cubes name (name ++ "-cubestore") ++ [single name storageEnv] }

/-- The variables of the storage do not take part in the wiring. -/
def OfStorage (storageEnv : List EnvVar) : Prop :=
  ∀ v ∈ storageEnv, v.name ∈ ["CUBESTORE_S3_BUCKET", "CUBESTORE_S3_REGION", "CUBESTORE_REMOTE_DIR"]

end shape

/-! ## The Go controller -/

section go

open K8s

theorem lookup_omitZero (k k' : String) (n : ℤ) :
    Json.lookup k (omitZero k' n) = if k' = k ∧ n ≠ 0 then some (.num n) else none := by
  unfold omitZero
  by_cases hn : n = 0 <;> simp [hn]

@[simp] theorem text_nonempty (s : String) :
    text (if (Json.str s).isEmpty = false then some (.str s) else none) = s := by
  by_cases h : s = "" <;> simp [Json.isEmpty, h, text]

@[simp] theorem items_nonempty (xs : List Json) :
    items (if (Json.arr xs).isEmpty = false then some (.arr xs) else none) = xs := by
  cases xs <;> rfl

@[simp] theorem entries_nonempty (es : List (String × String)) :
    entries (if (stringsJson es).isEmpty = false then some (stringsJson es) else none) = es := by
  cases es with
  | nil => rfl
  | cons e es => exact entries_stringsJson _

/-- The port that a probe names. -/
def handlerPort : ProbeHandler → String
  | .httpGet _ port => port
  | .tcpSocket port => port

@[simp] theorem probePort_toJson (p : Probe) : probePort p.toJson = handlerPort p.handler := by
  obtain ⟨handler, _, _, timeout, _⟩ := p
  cases handler <;>
    simp [probePort, Probe.toJson, ProbeHandler.field, fieldOf_cons, handlerPort,
      Json.lookup_append, lookup_omitZero]

@[simp] theorem read_envVar (e : K8s.EnvVar) :
    Runtime.EnvVar.read e.toJson = ⟨e.name, e.value, e.fieldPath.getD ""⟩ := by
  obtain ⟨name, value, path⟩ := e
  unfold Runtime.EnvVar.read EnvVar.toJson
  cases path <;>
    simp [fieldOf_cons, Json.lookup_append, lookup_omitEmpty, optionalField]

/-- A container as its document is read. -/
def view (k : K8s.Container) : Runtime.Container where
  env := k.env.map fun e => ⟨e.name, e.value, e.fieldPath.getD ""⟩
  ports := k.ports.map fun p => (p.name, p.containerPort)
  probes := ([k.readinessProbe, k.livenessProbe].filterMap id).map fun p => handlerPort p.handler

@[simp] theorem read_container (k : K8s.Container) : Runtime.Container.read k.toJson = view k := by
  have hprobes : ([k.readinessProbe.map Probe.toJson, k.livenessProbe.map Probe.toJson].filterMap
      id).map probePort = ([k.readinessProbe, k.livenessProbe].filterMap id).map
        fun p => handlerPort p.handler := by
    cases k.readinessProbe <;> cases k.livenessProbe <;> simp
  have hport : ∀ p ∈ k.ports, text (Json.lookup "name" p.toJson.fields) = p.name ∧
      number (Json.lookup "containerPort" p.toJson.fields) = p.containerPort := by
    intro p _
    simp [ContainerPort.toJson]
  unfold Runtime.Container.read view Container.toJson
  simp [fieldOf_cons, Json.lookup_append, lookup_omitEmpty, lookup_optionalField]
  exact ⟨hport, hprobes⟩

theorem read_comp_toJson : Runtime.Container.read ∘ Container.toJson = view := funext read_container

@[simp] theorem metadata_name (m : ObjectMeta) : m.metadata.name = m.name := rfl

theorem read_service (s : K8s.Service) :
    Runtime.Service.read (Object.service s).manifest = some {
      name := s.objectMeta.name
      selector := s.selector
      ports := s.ports.map fun p => p.port
      headless := s.clusterIP = "None" } := by
  have hport : ∀ p ∈ s.ports, number (Json.lookup "port" p.toJson.fields) = p.port := by
    intro p _
    simp [ServicePort.toJson]
  unfold Runtime.Service.read
  simp [Object.manifest, K8s.Service.spec, fieldOf_cons, Json.lookup_append, lookup_omitEmpty]
  exact hport

theorem read_deployment (d : K8s.Deployment) :
    Runtime.PodSet.read (Object.deployment d).manifest = some {
      name := d.objectMeta.name
      labels := d.template.labels
      containers := (d.template.spec.initContainers ++ d.template.spec.containers).map view } := by
  unfold Runtime.PodSet.read
  simp [Object.manifest, K8s.Deployment.spec, fieldOf_cons, Json.lookup_append, lookup_omitEmpty,
    PodTemplateSpec.toJson, PodSpec.toJson, read_comp_toJson]

theorem read_statefulSet (s : K8s.StatefulSet) :
    Runtime.PodSet.read (Object.statefulSet s).manifest = some {
      name := s.objectMeta.name
      labels := s.template.labels
      containers := (s.template.spec.initContainers ++ s.template.spec.containers).map view
      set := some (s.serviceName, s.replicas) } := by
  unfold Runtime.PodSet.read
  simp [Object.manifest, K8s.StatefulSet.spec, fieldOf_cons, Json.lookup_append, lookup_omitEmpty,
    PodTemplateSpec.toJson, PodSpec.toJson, read_comp_toJson]

/-- The variables that `storageConfiguration` contributes. -/
theorem ofStorage_of_storageConfiguration {g : Go.StorageConfiguration}
    (h : Go.storageConfiguration q c = some g) :
    OfStorage (g.env.map fun e => ⟨e.name, e.value, e.fieldPath.getD ""⟩) := by
  simp only [Go.storageConfiguration, Option.bind_eq_bind, Option.bind_eq_some_iff] at h
  obtain ⟨_, -, h⟩ := h
  split at h
  · simp only [Option.bind_eq_some_iff, Option.some.injEq] at h
    obtain ⟨_, -, rfl⟩ := h
    simp [OfStorage]
  · simp only [Option.bind_eq_some_iff, Option.some.injEq] at h
    obtain ⟨_, -, rfl⟩ := h
    simp [OfStorage]

theorem view_storeContainer {role : String} {roleEnv : List K8s.EnvVar} {k : K8s.Container}
    {volumes : List K8s.Volume} (h : Go.storeContainer q c role roleEnv = some (k, volumes)) :
    ∃ g, Go.storageConfiguration q c = some g ∧
      view k = storeContainer (g.env.map fun e => ⟨e.name, e.value, e.fieldPath.getD ""⟩)
        (if role = "worker" then "worker" else "http")
        (roleEnv.map fun e => ⟨e.name, e.value, e.fieldPath.getD ""⟩) := by
  simp only [Go.storeContainer, Option.bind_eq_bind, Option.bind_eq_some_iff, Option.some.injEq,
    Prod.mk.injEq] at h
  obtain ⟨g, hg, rfl, -⟩ := h
  refine ⟨g, hg, ?_⟩
  simp [view, storeContainer, Go.tcpProbe, handlerPort]

@[simp] theorem kind_service (s : K8s.Service) : (Object.service s).manifest.kind = .service := rfl

@[simp] theorem kind_deployment (d : Deployment) :
    (Object.deployment d).manifest.kind = .deployment := rfl

@[simp] theorem kind_statefulSet (s : StatefulSet) :
    (Object.statefulSet s).manifest.kind = .statefulSet := rfl

@[simp] theorem kind_podDisruptionBudget (p : PodDisruptionBudget) :
    (Object.podDisruptionBudget p).manifest.kind = .podDisruptionBudget := rfl

@[simp] theorem kind_networkPolicy (p : NetworkPolicy) :
    (Object.networkPolicy p).manifest.kind = .networkPolicy := rfl

/-- The Cube Store that the containers of Cube ask. -/
def storeHost (name : String) (clustered : Bool) : String :=
  if clustered then name ++ "-cubestore-router" else name ++ "-cubestore"

theorem go_storeHost : Go.cubeStoreHost c = storeHost c.name (Go.isClustered c) := by
  unfold Go.cubeStoreHost storeHost Go.isClustered
  by_cases h : Go.storeMode c = "clustered" <;> simp [h]

theorem go_apiService : Runtime.Service.read (Object.service (Go.apiService c)).manifest =
    some (apiService c.name) := by
  rw [read_service]
  rfl

theorem go_storeService {component : String} {headless : Bool} {ports : List ServicePort} :
    Runtime.Service.read (Object.service (Go.storeService c component (Kopf.labels c.name component)
      headless ports)).manifest = some {
        name := c.name ++ "-" ++ component
        selector := Kopf.labels c.name component
        ports := ports.map fun p => p.port
        headless := headless } := by
  rw [read_service]
  cases headless <;> rfl

theorem go_cube {component : String} {count : ℤ} {resources : V1alpha1.ResourceRequirements}
    {extra : List K8s.EnvVar} :
    Runtime.PodSet.read (Object.deployment (Go.deployment c component count
      (Go.cubeContainer c component resources extra))).manifest =
        some (cube c.name component (storeHost c.name (Go.isClustered c))
          (extra.map fun e => ⟨e.name, e.value, e.fieldPath.getD ""⟩)) := by
  rw [read_deployment, ← go_storeHost]
  simp [Go.deployment, view, Go.modelLoader, Go.cubeContainer, cube, cubeContainer, Go.httpProbe,
    handlerPort]

theorem go_routerEnv {addresses : String} :
    ((Go.routerEnv c addresses).map fun e =>
      (⟨e.name, e.value, e.fieldPath.getD ""⟩ : Runtime.EnvVar)) = routerVariables c.name addresses :=
  rfl

theorem go_workerEnv {addresses : String} :
    ((Go.workerEnv c addresses).map fun e =>
      (⟨e.name, e.value, e.fieldPath.getD ""⟩ : Runtime.EnvVar)) = workerVariables c.name addresses :=
  rfl

theorem go_workerAddresses {addresses : String} (h : Go.workerAddresses c = some addresses) :
    addresses = Kopf.workerAddresses c.name (Go.replicas c.spec.cubeStore.workers 2) := by
  unfold Go.workerAddresses at h
  dsimp only at h
  split at h
  · cases h
  · exact (Option.some.inj h).symm

theorem go_single {k : K8s.Container} {volumes : List Volume} {storageEnv : List Runtime.EnvVar}
    (hview : view k = storeContainer storageEnv "http" []) :
    Runtime.PodSet.read (Object.deployment {
      objectMeta := {
        name := c.name ++ "-cubestore", ns := c.ns, labels := Kopf.labels c.name "cubestore" }
      replicas := 1
      selector := Kopf.labels c.name "cubestore"
      template := {
        labels := Kopf.labels c.name "cubestore", spec := Go.storePod k volumes } }).manifest =
          some (single c.name storageEnv) := by
  rw [read_deployment]
  simp [Go.storePod, hview, single]

/-- What the Go controller deploys. -/
theorem go_deployed {os : List Object} (h : Go.objects q c = some os) :
    ∃ storageEnv, OfStorage storageEnv ∧
      Deployed.read (os.map Object.manifest) = deployed c.name storageEnv
        (Go.replicas c.spec.cubeStore.workers 2) (Go.isClustered c) := by
  have hname (component : String) : c.name ++ "-" ++ component = c.name ++ ("-" ++ component) :=
    String.append_assoc ..
  unfold Go.objects at h
  split at h
  · rename_i hm
    have hclustered := Go.storeMode_eq_iff.mp hm
    simp only [Go.routerStatefulSet, Go.workerStatefulSet, Option.bind_eq_bind,
      Option.bind_eq_some_iff, Option.some.injEq] at h
    obtain ⟨_, ⟨addresses, haddresses, ⟨k, volumes⟩, hk, rfl⟩, _,
      ⟨addresses', haddresses', ⟨k', volumes'⟩, hk', rfl⟩, rfl⟩ := h
    obtain ⟨g, hg, hview⟩ := view_storeContainer hk
    obtain ⟨g', hg', hview'⟩ := view_storeContainer hk'
    obtain rfl : g = g' := Option.some.inj (hg.symm.trans hg')
    rw [go_routerEnv, go_workerAddresses haddresses] at hview
    rw [go_workerEnv, go_workerAddresses haddresses'] at hview'
    refine ⟨_, ofStorage_of_storageConfiguration hg, ?_⟩
    simp [Deployed.read, Go.commonObjects, go_apiService, go_storeService,
      Go.routerService, Go.workerService, Go.apiDeployment, Go.refreshDeployment, go_cube,
      read_statefulSet, Go.stateful, Go.storePod, hview, hview', deployed, hclustered, storeHost,
      cubes, routerService, workerService, router, worker, hname]
  · rename_i hm
    have hsingle : Go.isClustered c = false := by
      rw [← Bool.not_eq_true, ← Go.storeMode_eq_iff]
      exact hm
    simp only [Go.singleStoreDeployment, Option.bind_eq_bind, Option.bind_eq_some_iff,
      Option.some.injEq] at h
    obtain ⟨_, ⟨⟨k, volumes⟩, hk, rfl⟩, rfl⟩ := h
    obtain ⟨g, hg, hview⟩ := view_storeContainer hk
    refine ⟨_, ofStorage_of_storageConfiguration hg, ?_⟩
    simp [Deployed.read, Go.commonObjects, go_apiService, go_storeService, Go.singleStoreService,
      Go.apiDeployment, Go.refreshDeployment, go_cube, go_single hview, deployed, hsingle, storeHost,
      cubes, singleService, hname]

end go

/-! ## The Kopf controller -/

section kopf

variable {spec : Crd.Spec}

@[simp] theorem read_kopf_envVar (ref value : String) :
    EnvVar.read (Kopf.envVar ref value) = ⟨ref, value, ""⟩ := rfl

@[simp] theorem probePort_httpProbe (path : String) : probePort (Kopf.httpProbe path) = "http" := rfl

@[simp] theorem probePort_tcpProbe (port : String) : probePort (Kopf.tcpProbe port) = port := rfl

theorem kopf_storeHost : Kopf.cubeStoreHost name spec = storeHost name (Kopf.isClustered spec) := by
  unfold Kopf.cubeStoreHost storeHost
  by_cases h : Kopf.storeMode spec = "clustered"
  · simp [h, Kopf.storeMode_eq_clustered.mp h, String.append_assoc]
  · have hsingle : Kopf.isClustered spec = false := by
      rw [← Bool.not_eq_true, ← Kopf.storeMode_eq_clustered]
      exact h
    simp [h, hsingle, String.append_assoc]

theorem kopf_cube {component : String} {w : Crd.WorkloadSpec} {m : Manifest}
    (h : Kopf.deployment name ns spec component w = some m) :
    m.kind = .deployment ∧ PodSet.read m = some (cube name component
      (storeHost name (Kopf.isClustered spec)) (if component = "refresh-worker" then
        [{ name := "CUBEJS_REFRESH_WORKER", value := "true" }] else [])) := by
  simp only [Kopf.deployment, Kopf.cubeContainer, Option.bind_eq_bind, Option.bind_eq_some_iff,
    Option.some.injEq] at h
  obtain ⟨_, ⟨_, -, rfl⟩, _, -, rfl⟩ := h
  refine ⟨rfl, ?_⟩
  rw [← kopf_storeHost]
  by_cases hc : component = "refresh-worker" <;>
    simp [PodSet.read, Kopf.workloadSpec, fieldOf_cons, Container.read, Kopf.modelLoader, Kopf.port,
      cube, cubeContainer, hc]

theorem kopf_apiService : Service.read (Kopf.apiService name ns spec) = some (apiService name) := by
  simp [Service.read, Kopf.apiService, fieldOf_cons, apiService, text]

theorem kopf_storeService {component : String} {ports : List Json} {headless : Bool} :
    Service.read (Kopf.storeService name ns component ports headless) = some {
      name := name ++ "-" ++ component
      selector := Kopf.labels name component
      ports := ports.map fun port => number (fieldOf port ["port"])
      headless := headless } := by
  cases headless <;> simp [Service.read, Kopf.storeService, fieldOf_cons]

theorem kopf_storeWorkload {component role : String} {count : ℤ} {roleEnv : List Json}
    {stateful : Bool} {m : Manifest}
    (h : Kopf.storeWorkload name ns spec component count role roleEnv stateful = some m) :
    ∃ g, Kopf.storageConfiguration spec = some g ∧ PodSet.read m = some {
      name := name ++ "-" ++ component
      labels := Kopf.labels name component
      containers := [storeContainer (g.env.map EnvVar.read)
        (if role = "worker" then "worker" else "http") (roleEnv.map EnvVar.read)]
      set := if stateful then some (name ++ "-" ++ component, count) else none } := by
  simp only [Kopf.storeWorkload, Kopf.storeContainer, Option.bind_eq_bind, Option.bind_eq_some_iff,
    Option.some.injEq] at h
  obtain ⟨_, ⟨g, hg, store, hstore, rfl⟩, rfl⟩ := h
  refine ⟨g, hg, ?_⟩
  cases stateful <;>
    simp [PodSet.read, Kopf.workloadSpec, fieldOf_cons, Container.read, Kopf.port, storeContainer]

/-- The variables that `storage_configuration` contributes. -/
theorem ofStorage_of_kopf {g : Kopf.StorageConfiguration}
    (h : Kopf.storageConfiguration spec = some g) : OfStorage (g.env.map EnvVar.read) := by
  simp only [Kopf.storageConfiguration, Option.bind_eq_bind, Option.bind_eq_some_iff] at h
  obtain ⟨_, -, _, -, _, -, h⟩ := h
  split at h
  · simp only [Option.bind_eq_some_iff, Option.some.injEq] at h
    obtain ⟨_, -, _, -, _, -, rfl⟩ := h
    simp [OfStorage]
  · simp only [Option.bind_eq_some_iff, Option.some.injEq] at h
    obtain ⟨_, -, _, -, rfl⟩ := h
    simp [OfStorage]

theorem kopf_routerEnv {addresses : String} :
    (Kopf.routerEnv name addresses).map EnvVar.read = routerVariables name addresses := rfl

theorem kopf_workerEnv {addresses : String} :
    (Kopf.workerEnv name addresses).map EnvVar.read = workerVariables name addresses := rfl

/-- What the Kopf controller deploys. -/
theorem kopf_deployed {ds : List Manifest} {store : Crd.CubeStoreSpec}
    (h : Kopf.desiredObjects name ns spec = some ds) (hstore : spec.cubeStore = some store) :
    ∃ storageEnv, OfStorage storageEnv ∧
      Deployed.read ds = deployed name storageEnv (Kopf.replicas store.workers 2)
        (Kopf.isClustered spec) := by
  have hname (component : String) : name ++ "-" ++ component = name ++ ("-" ++ component) :=
    String.append_assoc ..
  simp only [Kopf.desiredObjects, Option.bind_eq_bind, Option.bind_eq_some_iff] at h
  obtain ⟨api, hapi, refresh, hrefresh, h⟩ := h
  obtain ⟨hapiKind, hapi⟩ := kopf_cube hapi
  obtain ⟨hrefreshKind, hrefresh⟩ := kopf_cube hrefresh
  have hpdb : (Kopf.apiPDB name ns).kind = .podDisruptionBudget := rfl
  have hpolicy : (Kopf.networkPolicy name ns).kind = .networkPolicy := rfl
  have hapiService : (Kopf.apiService name ns spec).kind = .service := rfl
  have hservice (component : String) (ports : List Json) (headless : Bool) :
      (Kopf.storeService name ns component ports headless).kind = .service := rfl
  have hworkload {component role : String} {count : ℤ} {roleEnv : List Json} {stateful : Bool}
      {m : Manifest} (hm : Kopf.storeWorkload name ns spec component count role roleEnv stateful =
        some m) : ¬m.kind = .service := by
    simp only [Kopf.storeWorkload, Option.bind_eq_bind, Option.bind_eq_some_iff,
      Option.some.injEq] at hm
    obtain ⟨_, -, rfl⟩ := hm
    cases stateful <;> simp
  split at h
  · -- one store, which answers under its own service
    rename_i hmode
    have hsingle := Kopf.storeMode_eq_single.mp hmode
    simp only [Option.bind_eq_some_iff, Option.some.injEq] at h
    obtain ⟨m, hm, rfl⟩ := h
    obtain ⟨g, hg, hread⟩ := kopf_storeWorkload hm
    have hkind := hworkload hm
    refine ⟨_, ofStorage_of_kopf hg, ?_⟩
    simp [Deployed.read, kopf_apiService, kopf_storeService, hapiKind, hrefreshKind, hapi, hrefresh,
      hpdb, hpolicy, hapiService, hservice, hread, hkind, deployed, hsingle, storeHost, cubes,
      singleService, single, hname, Kopf.servicePort, fieldOf_cons]
  · rename_i hmode
    have hclustered : Kopf.isClustered spec = true := by
      rw [← Bool.not_eq_false, ← Kopf.storeMode_eq_single]
      exact hmode
    simp only [hstore, Option.bind_eq_some_iff, Option.some.injEq, exists_eq_left'] at h
    obtain ⟨m, hm, m', hm', rfl⟩ := h
    obtain ⟨g, hg, hread⟩ := kopf_storeWorkload hm
    obtain ⟨g', hg', hread'⟩ := kopf_storeWorkload hm'
    -- the router and the workers take their storage from the same specification
    obtain rfl : g = g' := Option.some.inj (hg.symm.trans hg')
    have hkind := hworkload hm
    have hkind' := hworkload hm'
    rw [kopf_routerEnv] at hread
    rw [kopf_workerEnv] at hread'
    refine ⟨_, ofStorage_of_kopf hg, ?_⟩
    simp [Deployed.read, kopf_apiService, kopf_storeService, hapiKind, hrefreshKind, hapi, hrefresh,
      hpdb, hpolicy, hapiService, hservice, hread, hread', hkind, hkind', deployed, hclustered,
      storeHost, cubes, routerService, workerService, router, worker, hname, Kopf.servicePort,
      fieldOf_cons]

end kopf

/-! ## What it means to be wired -/

/-- The parts of a text between commas. -/
def commaSplit (text : String) : List String := (text.toList.splitOn ',').map String.ofList

/-- The endpoints that the variables of a container refer to exist. -/
structure Refers (d : Deployed) (k : Container) (pod : String) : Prop where
  host : ∀ host, k.find pod "CUBEJS_CUBESTORE_HOST" = some host → d.Endpoint host 3030
  metaAddr : ∀ address, k.find pod "CUBESTORE_META_ADDR" = some address → d.Address address
  serverName : ∀ address, k.find pod "CUBESTORE_SERVER_NAME" = some address → d.Address address
  workers : ∀ text, k.find pod "CUBESTORE_WORKERS" = some text →
    ∀ address ∈ commaSplit text, d.Address address

/-- Every endpoint that a variable refers to exists, and every probe names a port of its
    own container. -/
structure Closed (d : Deployed) : Prop where
  refers : ∀ w ∈ d.workloads, ∀ k ∈ w.containers, ∀ pod, w.HasPod pod → Refers d k pod
  probes : ∀ w ∈ d.workloads, ∀ k ∈ w.containers, ∀ probe ∈ k.probes, probe ∈ k.ports.map Prod.fst

/-- The router and the workers are given one text, and its parts are what the workers call
    themselves. -/
structure Addressed (d : Deployed) (name : String) (workers : ℤ) (router worker : PodSet)
    (text : String) : Prop where
  hasRouter : router ∈ d.workloads ∧ router.name = name ++ "-cubestore-router" ∧
    router.containers ≠ []
  hasWorker : worker ∈ d.workloads ∧ worker.name = name ++ "-cubestore-worker" ∧
    worker.containers ≠ [] ∧ ∃ service, worker.set = some (service, workers)
  given : ∀ w ∈ [router, worker], ∀ k ∈ w.containers, ∀ pod, w.HasPod pod →
    k.find pod "CUBESTORE_WORKERS" = some text
  count : ((commaSplit text).length : ℤ) = workers
  distinct : (commaSplit text).Nodup
  named : ∀ i : ℕ, (i : ℤ) < workers → ∀ k ∈ worker.containers,
    k.find (worker.name ++ "-" ++ toString i) "CUBESTORE_SERVER_NAME" = (commaSplit text)[i]?

/-- What is deployed for a cluster is wired. -/
structure Wired (d : Deployed) (name : String) (clustered : Bool) (workers : ℤ) : Prop where
  closed : Closed d
  addressed : clustered = true → ∃ router worker text, Addressed d name workers router worker text

/-! ## The addresses of the workers -/

section addresses

theorem toString_injective : Function.Injective (toString : ℕ → String) := by
  intro i j h
  have hdigits : Nat.toDigits 10 i = Nat.toDigits 10 j := by
    simpa only [Nat.toString_eq_repr, Nat.toList_repr] using congrArg String.toList h
  simpa using congrArg (fun digits => Nat.ofDigitChars 10 digits 0) hdigits

theorem workerAddress_injective : Function.Injective (Kopf.workerAddress name) := by
  intro i j h
  unfold Kopf.workerAddress at h
  simp only [String.append_left_inj, String.append_right_inj] at h
  exact toString_injective h

/-- The digits of a number. -/
theorem notMem_toString {ch : Char} (h : ch.isDigit = false) (i : ℕ) : ch ∉ (toString i).toList := by
  intro hmem
  rw [Nat.toString_eq_repr, Nat.toList_repr] at hmem
  have hdigit := Nat.isDigit_of_mem_toDigits (by decide) (by decide) hmem
  rw [h] at hdigit
  cases hdigit

/-- An address has a character only if the name has it, or the fixed texts do. -/
theorem notMem_workerAddress {ch : Char} (hname : ch ∉ name.toList) (hdigit : ch.isDigit = false)
    (hfixed : ∀ part ∈ ["-cubestore-worker-", ".", "-cubestore-worker:9001"], ch ∉ part.toList)
    (i : ℕ) : ch ∉ (Kopf.workerAddress name i).toList := by
  have hdigits := notMem_toString hdigit i
  simp only [List.forall_mem_cons] at hfixed
  obtain ⟨hmiddle, hdot, hend, -⟩ := hfixed
  unfold Kopf.workerAddress
  simp only [String.toList_append, List.mem_append, not_or]
  exact ⟨⟨⟨⟨⟨hname, hmiddle⟩, hdigits⟩, hdot⟩, hname⟩, hend⟩

theorem commaSplit_workerAddresses (hcomma : ',' ∉ name.toList) (hworkers : 1 ≤ workers) :
    commaSplit (Kopf.workerAddresses name workers) =
      (List.range workers.toNat).map (Kopf.workerAddress name) := by
  have hnil : ((List.range workers.toNat).map (Kopf.workerAddress name)).map String.toList ≠ [] := by
    simp
    omega
  have hfree : ∀ l ∈ ((List.range workers.toNat).map (Kopf.workerAddress name)).map String.toList,
      ',' ∉ l := by
    simp only [List.forall_mem_map]
    exact fun i _ => notMem_workerAddress hcomma (by decide) (by decide) i
  unfold commaSplit Kopf.workerAddresses
  rw [String.toList_intercalate]
  have hseparator : ",".toList = [','] := rfl
  rw [hseparator, List.splitOn_intercalate _ hfree hnil, List.map_map]
  simp

end addresses

/-! ## The variables of the containers -/

section find

variable {storageEnv : List EnvVar} {pod host probe : String} {extra : List EnvVar}

theorem notMem_workerAddresses (hdollar : '$' ∉ name.toList) :
    '$' ∉ (Kopf.workerAddresses name workers).toList := by
  unfold Kopf.workerAddresses
  generalize (List.range workers.toNat) = is
  rw [String.toList_intercalate]
  induction is with
  | nil => simp
  | cons i is ih =>
    have hfirst := notMem_workerAddress hdollar (by decide) (by decide) i
    cases is with
    | nil => simpa using hfirst
    | cons j is =>
      simp only [List.map_cons, List.intercalate_cons_cons] at ih ⊢
      simp only [List.mem_append, not_or]
      exact ⟨⟨hfirst, by decide⟩, ih⟩

/-- The name of the cluster before a fixed text. -/
theorem notMem_append {fixed : String} (hdollar : '$' ∉ name.toList) (hfixed : '$' ∉ fixed.toList) :
    '$' ∉ (name ++ fixed).toList := by
  rw [String.toList_append, List.mem_append, not_or]
  exact ⟨hdollar, hfixed⟩

theorem notMem_storeHost (hdollar : '$' ∉ name.toList) : '$' ∉ (storeHost name clustered).toList := by
  unfold storeHost
  split <;> exact notMem_append hdollar (by decide)

/-- The store that a container of Cube asks. -/
theorem find_host (hhost : '$' ∉ host.toList) (hextra : ∀ v ∈ extra, v.name ≠ "CUBEJS_CUBESTORE_HOST") :
    (cubeContainer host extra).find pod "CUBEJS_CUBESTORE_HOST" = some host := by
  unfold Container.find cubeContainer
  dsimp only
  rw [lookup_runtimeEnv_append _ hextra]
  have hentry := lookup_runtimeEnv pod [{ name := "CUBEJS_DEV_MODE", value := "false" }]
    { name := "CUBEJS_CUBESTORE_HOST", value := host }
    [{ name := "CUBEJS_TELEMETRY", value := "false" }] (by simp)
  rw [EnvVar.runtimeValue_of_plain rfl hhost] at hentry
  exact hentry

/-- A variable of the storage is none of the others. -/
theorem ne_of_ofStorage (h : OfStorage storageEnv) {ref : String}
    (href : ref ∉ ["CUBESTORE_S3_BUCKET", "CUBESTORE_S3_REGION", "CUBESTORE_REMOTE_DIR"]) :
    ∀ v ∈ storageEnv, v.name ≠ ref :=
  fun v hv heq => href (heq ▸ h v hv)

section router

variable {addresses : String}

theorem find_router_serverName (hdollar : '$' ∉ name.toList) :
    (storeContainer storageEnv probe (routerVariables name addresses)).find pod
      "CUBESTORE_SERVER_NAME" = some (name ++ "-cubestore-router:9999") := by
  have hentry := lookup_runtimeEnv pod storageEnv
    { name := "CUBESTORE_SERVER_NAME", value := name ++ "-cubestore-router:9999" }
    [{ name := "CUBESTORE_META_PORT", value := "9999" },
      { name := "CUBESTORE_WORKERS", value := addresses }] (by simp)
  rw [EnvVar.runtimeValue_of_plain rfl (notMem_append hdollar (by decide))] at hentry
  exact hentry

theorem find_router_workers (haddresses : '$' ∉ addresses.toList) :
    (storeContainer storageEnv probe (routerVariables name addresses)).find pod
      "CUBESTORE_WORKERS" = some addresses := by
  have hentry := lookup_runtimeEnv pod (storageEnv ++
    [{ name := "CUBESTORE_SERVER_NAME", value := name ++ "-cubestore-router:9999" },
      { name := "CUBESTORE_META_PORT", value := "9999" }])
    { name := "CUBESTORE_WORKERS", value := addresses } [] (by simp)
  rw [EnvVar.runtimeValue_of_plain rfl haddresses, List.append_assoc] at hentry
  exact hentry

theorem find_router_metaAddr (hstorage : OfStorage storageEnv) :
    (storeContainer storageEnv probe (routerVariables name addresses)).find pod
      "CUBESTORE_META_ADDR" = none := by
  refine lookup_runtimeEnv_of_notMem (List.forall_mem_append.mpr ⟨?_, ?_⟩)
  · exact ne_of_ofStorage hstorage (by decide)
  · simp [routerVariables]

end router

section worker

variable {addresses : String}

theorem find_worker_workers (haddresses : '$' ∉ addresses.toList) :
    (storeContainer storageEnv probe (workerVariables name addresses)).find pod
      "CUBESTORE_WORKERS" = some addresses := by
  have hentry := lookup_runtimeEnv pod (storageEnv ++
    [{ name := "POD_NAME", fieldPath := "metadata.name" },
      { name := "CUBESTORE_SERVER_NAME", value := "$(POD_NAME)." ++ name ++ "-cubestore-worker:9001" },
      { name := "CUBESTORE_WORKER_PORT", value := "9001" },
      { name := "CUBESTORE_META_ADDR", value := name ++ "-cubestore-router:9999" }])
    { name := "CUBESTORE_WORKERS", value := addresses } [] (by simp)
  rw [EnvVar.runtimeValue_of_plain rfl haddresses, List.append_assoc] at hentry
  exact hentry

theorem find_worker_metaAddr (hdollar : '$' ∉ name.toList) :
    (storeContainer storageEnv probe (workerVariables name addresses)).find pod
      "CUBESTORE_META_ADDR" = some (name ++ "-cubestore-router:9999") := by
  have hentry := lookup_runtimeEnv pod (storageEnv ++
    [{ name := "POD_NAME", fieldPath := "metadata.name" },
      { name := "CUBESTORE_SERVER_NAME", value := "$(POD_NAME)." ++ name ++ "-cubestore-worker:9001" },
      { name := "CUBESTORE_WORKER_PORT", value := "9001" }])
    { name := "CUBESTORE_META_ADDR", value := name ++ "-cubestore-router:9999" }
    [{ name := "CUBESTORE_WORKERS", value := addresses }] (by simp)
  rw [EnvVar.runtimeValue_of_plain rfl (notMem_append hdollar (by decide)),
    List.append_assoc] at hentry
  exact hentry

/-- The reference to the name of the pod is expanded, since `POD_NAME` comes first. -/
theorem find_worker_serverName (hdollar : '$' ∉ name.toList) :
    (storeContainer storageEnv probe (workerVariables name addresses)).find pod
      "CUBESTORE_SERVER_NAME" = some (pod ++ "." ++ name ++ "-cubestore-worker:9001") := by
  have hentry := lookup_runtimeEnv pod (storageEnv ++
    [{ name := "POD_NAME", fieldPath := "metadata.name" }])
    { name := "CUBESTORE_SERVER_NAME", value := "$(POD_NAME)." ++ name ++ "-cubestore-worker:9001" }
    [{ name := "CUBESTORE_WORKER_PORT", value := "9001" },
      { name := "CUBESTORE_META_ADDR", value := name ++ "-cubestore-router:9999" },
      { name := "CUBESTORE_WORKERS", value := addresses }] (by simp)
  have hpod : (runtimeEnv pod (storageEnv ++
      [{ name := "POD_NAME", fieldPath := "metadata.name" }])).lookup "POD_NAME" = some pod :=
    lookup_runtimeEnv pod storageEnv { name := "POD_NAME", fieldPath := "metadata.name" } []
      (by simp)
  have hvalue : (EnvVar.mk "CUBESTORE_SERVER_NAME"
      ("$(POD_NAME)." ++ name ++ "-cubestore-worker:9001") "").runtimeValue pod
        (runtimeEnv pod (storageEnv ++ [{ name := "POD_NAME", fieldPath := "metadata.name" }])) =
      pod ++ "." ++ name ++ "-cubestore-worker:9001" := by
    have hrest : '$' ∉ ("." ++ (name ++ "-cubestore-worker:9001")).toList := by
      rw [String.toList_append, List.mem_append, not_or]
      exact ⟨by decide, notMem_append hdollar (by decide)⟩
    have hsplit : "$(POD_NAME)." ++ name ++ "-cubestore-worker:9001" =
        "$(" ++ "POD_NAME" ++ ")" ++ ("." ++ (name ++ "-cubestore-worker:9001")) := by
      rw [← String.append_assoc, ← String.append_assoc]
      rfl
    unfold EnvVar.runtimeValue
    dsimp only
    rw [if_pos (by simp), hsplit, expand_reference (by decide) hpod hrest]
    simp only [String.append_assoc]
  rw [hvalue, List.append_assoc] at hentry
  exact hentry

end worker

end find

/-! ## The endpoints -/

section endpoints

variable {storageEnv : List EnvVar}

/-- The labels of different components do not match. -/
theorem labels_subset_iff {component component' : String} :
    Kopf.labels name component ⊆ Kopf.labels name component' ↔ component = component' := by
  let c : CubeCluster := { name := name, ns := "", uid := "", generation := 0, spec := {} }
  have hselects : Isolation.Selects (Go.labels c component) (Go.labels c component') ↔
      c.name = c.name ∧ component = component' := Isolation.selects_labels
  exact hselects.trans (and_iff_right rfl)

/-- A Service selects the pods of its component. -/
theorem serves_of {d : Deployed} {s : Service} {w : PodSet} (name component : String) {port : ℤ}
    (hs : s ∈ d.services) (hw : w ∈ d.workloads) (hport : port ∈ s.ports)
    (hdeclares : ∃ k ∈ w.containers, port ∈ k.ports.map Prod.snd)
    (hselector : s.selector = Kopf.labels name component)
    (hlabels : w.labels = Kopf.labels name component)
    (hothers : ∀ w' ∈ d.workloads, w' = w ∨ ∃ component', component ≠ component' ∧
      w'.labels = Kopf.labels name component') : d.Serves s port w := by
  refine ⟨hs, hport, hw, fun w' hw' => ?_, hdeclares⟩
  rw [hselector]
  constructor
  · intro hsub
    rcases hothers w' hw' with rfl | ⟨component', hne, heq⟩
    · rfl
    · rw [heq] at hsub
      exact absurd (labels_subset_iff.mp hsub) hne
  · rintro rfl
    rw [hlabels]
    exact List.Subset.refl _

theorem serves_single :
    (deployed name storageEnv workers false).Serves (singleService name) 3030
      (single name storageEnv) := by
  refine serves_of name "cubestore" (by simp [deployed]) (by simp [deployed])
    (by simp [singleService]) (by simp [single, storeContainer]) rfl rfl ?_
  simp only [deployed, Bool.false_eq_true, if_false, cubes, List.cons_append, List.nil_append,
    List.forall_mem_cons]
  exact ⟨.inr ⟨"api", by decide, rfl⟩, .inr ⟨"refresh-worker", by decide, rfl⟩, .inl trivial, by simp⟩

theorem serves_router {port : ℤ} (hport : port ∈ (routerService name).ports) :
    (deployed name storageEnv workers true).Serves (routerService name) port
      (router name storageEnv workers) := by
  have hdeclares : port ∈ [3030, 9999, 9001] := by
    simp only [routerService, List.mem_cons, List.not_mem_nil, or_false] at hport ⊢
    tauto
  refine serves_of name "cubestore-router" (by simp [deployed])
    (by simp [deployed]) hport ⟨_, List.mem_singleton_self _, hdeclares⟩ rfl rfl ?_
  simp only [deployed, if_true, cubes, List.cons_append, List.nil_append, List.forall_mem_cons]
  exact ⟨.inr ⟨"api", by decide, rfl⟩, .inr ⟨"refresh-worker", by decide, rfl⟩, .inl trivial,
    .inr ⟨"cubestore-worker", by decide, rfl⟩, by simp⟩

theorem serves_worker :
    (deployed name storageEnv workers true).Serves (workerService name) 9001
      (worker name storageEnv workers) := by
  refine serves_of name "cubestore-worker" (by simp [deployed])
    (by simp [deployed]) (by simp [workerService]) (by simp [worker, storeContainer]) rfl rfl ?_
  simp only [deployed, if_true, cubes, List.cons_append, List.nil_append, List.forall_mem_cons]
  exact ⟨.inr ⟨"api", by decide, rfl⟩, .inr ⟨"refresh-worker", by decide, rfl⟩,
    .inr ⟨"cubestore-router", by decide, rfl⟩, .inl trivial, by simp⟩

/-- The Cube Store that Cube asks exists. -/
theorem endpoint_storeHost :
    (deployed name storageEnv workers clustered).Endpoint (storeHost name clustered) 3030 := by
  cases clustered with
  | false => exact ⟨_, _, serves_single, .inl rfl⟩
  | true => exact ⟨_, _, serves_router (by simp [routerService]), .inl rfl⟩

theorem address_router : (deployed name storageEnv workers true).Address
    (name ++ "-cubestore-router:9999") := by
  refine ⟨name ++ "-cubestore-router", 9999, ?_, _, _, serves_router (by simp [routerService]),
    .inl rfl⟩
  rw [String.append_assoc, String.append_assoc]
  rfl

/-- A pod of the workers has an address of its own. -/
theorem address_worker {pod : String} (hpod : (worker name storageEnv workers).HasPod pod) :
    (deployed name storageEnv workers true).Address
      (pod ++ "." ++ name ++ "-cubestore-worker:9001") := by
  refine ⟨pod ++ "." ++ (name ++ "-cubestore-worker"), 9001, ?_, _, _, serves_worker,
    .inr ⟨rfl, workers, pod, rfl, hpod, rfl⟩⟩
  simp only [String.append_assoc]
  rfl

/-- The address of a worker in the list is the one of its pod. -/
theorem workerAddress_eq (i : ℕ) : Kopf.workerAddress name i =
    name ++ "-cubestore-worker" ++ "-" ++ toString i ++ "." ++ name ++ "-cubestore-worker:9001" := by
  have hmiddle : "-cubestore-worker-" = "-cubestore-worker" ++ "-" := rfl
  unfold Kopf.workerAddress
  rw [hmiddle]
  simp only [String.append_assoc]

theorem hasPod_worker {i : ℕ} (hi : (i : ℤ) < workers) :
    (worker name storageEnv workers).HasPod (name ++ "-cubestore-worker" ++ "-" ++ toString i) := by
  intro service count hset
  obtain ⟨-, rfl⟩ : name ++ "-cubestore-worker" = service ∧ workers = count := by
    simpa [worker] using hset
  exact ⟨i, hi, rfl⟩

theorem address_workers (hcomma : ',' ∉ name.toList) (hworkers : 1 ≤ workers) :
    ∀ address ∈ commaSplit (Kopf.workerAddresses name workers),
      (deployed name storageEnv workers true).Address address := by
  rw [commaSplit_workerAddresses hcomma hworkers]
  simp only [List.forall_mem_map, List.mem_range]
  intro i hi
  rw [workerAddress_eq]
  exact address_worker (hasPod_worker (by omega))

end endpoints

/-! ## The wiring -/

section wired

variable {storageEnv : List EnvVar}

/-- A container without any of these variables. -/
theorem refers_of_notMem {d : Deployed} {k : Container} {pod : String}
    (h : ∀ v ∈ k.env, v.name ∉ ["CUBEJS_CUBESTORE_HOST", "CUBESTORE_META_ADDR",
      "CUBESTORE_SERVER_NAME", "CUBESTORE_WORKERS"]) : Refers d k pod := by
  have hnone {ref : String} (href : ref ∈ ["CUBEJS_CUBESTORE_HOST", "CUBESTORE_META_ADDR",
      "CUBESTORE_SERVER_NAME", "CUBESTORE_WORKERS"]) : k.find pod ref = none :=
    lookup_runtimeEnv_of_notMem fun v hv heq => h v hv (heq ▸ href)
  refine ⟨fun host hhost => ?_, fun a ha => ?_, fun a ha => ?_, fun text htext => ?_⟩
  · rw [hnone (by decide)] at hhost
    cases hhost
  · rw [hnone (by decide)] at ha
    cases ha
  · rw [hnone (by decide)] at ha
    cases ha
  · rw [hnone (by decide)] at htext
    cases htext

theorem refers_cube {pod : String} {extra : List EnvVar} (hdollar : '$' ∉ name.toList)
    (hextra : ∀ v ∈ extra, v.name = "CUBEJS_REFRESH_WORKER") :
    Refers (deployed name storageEnv workers clustered)
      (cubeContainer (storeHost name clustered) extra) pod := by
  have hnames : ∀ v ∈ (cubeContainer (storeHost name clustered) extra).env,
      v.name ∈ ["CUBEJS_DEV_MODE", "CUBEJS_CUBESTORE_HOST", "CUBEJS_TELEMETRY",
        "CUBEJS_REFRESH_WORKER"] := by
    intro v hv
    rcases List.mem_append.mp hv with hv | hv
    · simp only [List.mem_cons, List.not_mem_nil, or_false] at hv
      rcases hv with rfl | rfl | rfl <;> simp
    · rw [hextra v hv]
      decide
  have hnone {ref : String} (href : ref ∉ ["CUBEJS_DEV_MODE", "CUBEJS_CUBESTORE_HOST",
      "CUBEJS_TELEMETRY", "CUBEJS_REFRESH_WORKER"]) :
      (cubeContainer (storeHost name clustered) extra).find pod ref = none :=
    lookup_runtimeEnv_of_notMem fun v hv heq => href (heq ▸ hnames v hv)
  refine ⟨fun host hhost => ?_, fun a ha => ?_, fun a ha => ?_, fun text htext => ?_⟩
  · rw [find_host (notMem_storeHost hdollar) (fun v hv => by simp [hextra v hv])] at hhost
    obtain rfl := Option.some.inj hhost
    exact endpoint_storeHost
  · rw [hnone (by decide)] at ha
    cases ha
  · rw [hnone (by decide)] at ha
    cases ha
  · rw [hnone (by decide)] at htext
    cases htext

/-- The host of Cube is no variable of a container of the store. -/
theorem find_store_host (hstorage : OfStorage storageEnv) {pod probe : String}
    {roleEnv : List EnvVar} (hrole : ∀ v ∈ roleEnv, v.name ≠ "CUBEJS_CUBESTORE_HOST") :
    (storeContainer storageEnv probe roleEnv).find pod "CUBEJS_CUBESTORE_HOST" = none :=
  lookup_runtimeEnv_of_notMem
    (List.forall_mem_append.mpr ⟨ne_of_ofStorage hstorage (by decide), hrole⟩)

theorem refers_router {pod probe : String} (hstorage : OfStorage storageEnv)
    (hcomma : ',' ∉ name.toList) (hdollar : '$' ∉ name.toList) (hworkers : 1 ≤ workers) :
    Refers (deployed name storageEnv workers true) (storeContainer storageEnv probe
      (routerVariables name (Kopf.workerAddresses name workers))) pod := by
  refine ⟨fun host hhost => ?_, fun a ha => ?_, fun a ha => ?_, fun text htext => ?_⟩
  · rw [find_store_host hstorage (by simp [routerVariables])] at hhost
    cases hhost
  · rw [find_router_metaAddr hstorage] at ha
    cases ha
  · rw [find_router_serverName hdollar] at ha
    obtain rfl := Option.some.inj ha
    exact address_router
  · rw [find_router_workers (notMem_workerAddresses hdollar)] at htext
    obtain rfl := Option.some.inj htext
    exact address_workers hcomma hworkers

theorem refers_worker {pod probe : String} (hstorage : OfStorage storageEnv)
    (hcomma : ',' ∉ name.toList) (hdollar : '$' ∉ name.toList) (hworkers : 1 ≤ workers)
    (hpod : (worker name storageEnv workers).HasPod pod) :
    Refers (deployed name storageEnv workers true) (storeContainer storageEnv probe
      (workerVariables name (Kopf.workerAddresses name workers))) pod := by
  refine ⟨fun host hhost => ?_, fun a ha => ?_, fun a ha => ?_, fun text htext => ?_⟩
  · rw [find_store_host hstorage (by simp [workerVariables])] at hhost
    cases hhost
  · rw [find_worker_metaAddr hdollar] at ha
    obtain rfl := Option.some.inj ha
    exact address_router
  · rw [find_worker_serverName hdollar] at ha
    obtain rfl := Option.some.inj ha
    exact address_worker hpod
  · rw [find_worker_workers (notMem_workerAddresses hdollar)] at htext
    obtain rfl := Option.some.inj htext
    exact address_workers hcomma hworkers

theorem refers_single {d : Deployed} {pod probe : String} (hstorage : OfStorage storageEnv) :
    Refers d (storeContainer storageEnv probe []) pod := by
  refine refers_of_notMem fun v hv => ?_
  rw [storeContainer, List.append_nil] at hv
  have hname := hstorage v hv
  simp only [List.mem_cons, List.not_mem_nil, or_false] at hname
  rcases hname with hname | hname | hname <;>
  · rw [hname]
    decide

theorem closed_deployed (hstorage : OfStorage storageEnv) (hcomma : ',' ∉ name.toList)
    (hdollar : '$' ∉ name.toList) (hworkers : clustered = true → 1 ≤ workers) :
    Closed (deployed name storageEnv workers clustered) := by
  have hcubes : ∀ w ∈ cubes name (storeHost name clustered), ∀ k ∈ w.containers, ∀ pod,
      Refers (deployed name storageEnv workers clustered) k pod := by
    simp only [cubes, cube, List.forall_mem_cons]
    have hempty : ∀ pod, Refers (deployed name storageEnv workers clustered) {} pod :=
      fun pod => refers_of_notMem (by simp)
    exact ⟨⟨hempty, fun pod => refers_cube hdollar (by simp), by simp⟩,
      ⟨hempty, fun pod => refers_cube hdollar (by simp), by simp⟩, by simp⟩
  constructor
  · intro w hw k hk pod hpod
    cases clustered with
    | false =>
      rcases List.mem_append.mp hw with hw | hw
      · exact hcubes w hw k hk pod
      · obtain rfl := List.mem_singleton.mp hw
        obtain rfl := List.mem_singleton.mp hk
        exact refers_single hstorage
    | true =>
      have hone := hworkers rfl
      rcases List.mem_append.mp hw with hw | hw
      · exact hcubes w hw k hk pod
      · rcases List.mem_pair.mp hw with rfl | rfl
        · obtain rfl := List.mem_singleton.mp hk
          exact refers_router hstorage hcomma hdollar hone
        · obtain rfl := List.mem_singleton.mp hk
          exact refers_worker hstorage hcomma hdollar hone hpod
  · cases clustered <;>
      simp [deployed, cubes, cube, cubeContainer, single, router, worker, storeContainer]

theorem addressed_deployed (hcomma : ',' ∉ name.toList) (hdollar : '$' ∉ name.toList)
    (hworkers : 1 ≤ workers) : Addressed (deployed name storageEnv workers true) name workers
      (router name storageEnv workers) (worker name storageEnv workers)
      (Kopf.workerAddresses name workers) where
  hasRouter := ⟨by simp [deployed], rfl, by simp [router]⟩
  hasWorker := ⟨by simp [deployed], rfl, by simp [worker], _, rfl⟩
  given := by
    have haddresses : '$' ∉ (Kopf.workerAddresses name workers).toList :=
      notMem_workerAddresses hdollar
    simp only [List.forall_mem_cons, router, worker]
    exact ⟨⟨fun pod _ => find_router_workers haddresses, by simp⟩,
      ⟨fun pod _ => find_worker_workers haddresses, by simp⟩, by simp⟩
  count := by
    rw [commaSplit_workerAddresses hcomma hworkers, List.length_map, List.length_range]
    omega
  distinct := by
    rw [commaSplit_workerAddresses hcomma hworkers]
    exact List.nodup_range.map workerAddress_injective
  named := by
    intro i hi k hk
    obtain rfl := List.mem_singleton.mp hk
    have hlt : i < workers.toNat := by omega
    rw [find_worker_serverName hdollar, commaSplit_workerAddresses hcomma hworkers, List.getElem?_map,
      List.getElem?_range hlt, Option.map_some, workerAddress_eq]
    rfl

/-- What is deployed under a name without commas and dollar signs is wired. -/
theorem wired_deployed (hstorage : OfStorage storageEnv) (hcomma : ',' ∉ name.toList)
    (hdollar : '$' ∉ name.toList) (hworkers : clustered = true → 1 ≤ workers) :
    Wired (deployed name storageEnv workers clustered) name clustered workers := by
  refine ⟨closed_deployed hstorage hcomma hdollar hworkers, ?_⟩
  rintro rfl
  exact ⟨_, _, _, addressed_deployed hcomma hdollar (hworkers rfl)⟩

end wired

/-! ## Both controllers -/

/-- For every valid spec and every name without commas and dollar signs, what either
    controller deploys is wired. -/
theorem wired_both (q : Quantities) (ns name : String) (hcomma : ',' ∉ name.toList)
    (hdollar : '$' ∉ name.toList) :
    (∀ (c : CubeCluster) (tr : List Exchange), c.name = name →
      Exec (Go.validateReferences q c).run tr (.ok ()) →
      ∃ os, Go.objects q c = some os ∧ Wired (Deployed.read (os.map K8s.Object.manifest)) name
        (Go.isClustered c) (Go.replicas c.spec.cubeStore.workers 2)) ∧
    ∀ (spec : Crd.Spec) (tr : List Exchange), spec.Admits →
      Exec (Kopf.validateReferences q spec ns).run tr (.ok ()) →
      ∃ ds, Kopf.desiredObjects name ns spec = some ds ∧ Wired (Deployed.read ds) name
        (Kopf.isClustered spec) (Kopf.replicas (spec.cubeStore.getD {}).workers 2) := by
  constructor
  · rintro c tr rfl hvalidate
    obtain ⟨hvalid, -⟩ := Go.exec_validateReferences_ok hvalidate
    obtain ⟨os, hos⟩ := Go.exists_objects hvalid
    obtain ⟨storageEnv, hstorage, hread⟩ := go_deployed hos
    refine ⟨os, hos, ?_⟩
    rw [hread]
    exact wired_deployed hstorage hcomma hdollar (go_workers hvalid)
  · intro spec tr _ hvalidate
    obtain ⟨hvalid, -⟩ := Kopf.exec_validateReferences_ok hvalidate
    obtain ⟨store, -, hstore, -, -⟩ := hvalid.storage.cases
    obtain ⟨ds, hds⟩ := Kopf.exists_desiredObjects hvalid name ns
    obtain ⟨storageEnv, hstorage, hread⟩ := kopf_deployed hds hstore
    refine ⟨ds, hds, ?_⟩
    have hworkers := kopf_workers hvalid
    rw [hstore, Option.getD_some] at hworkers ⊢
    rw [hread]
    exact wired_deployed hstorage hcomma hdollar hworkers

theorem wired_both_clusteredS3 :
    (∃ os, Go.objects digitQuantities clusteredS3Cluster = some os ∧
      Wired (Deployed.read (os.map K8s.Object.manifest)) "cube" true 2) ∧
    ∃ ds, Kopf.desiredObjects "cube" "default" clusteredS3 = some ds ∧
      Wired (Deployed.read ds) "cube" true 2 := by
  obtain ⟨hgo, hkopf⟩ := wired_both digitQuantities "default" "cube" (by decide) (by decide)
  obtain ⟨tr, hvalidate, -⟩ := Program.exec_eval (lookups fun _ => true)
    (Go.validateReferences digitQuantities clusteredS3Cluster).run
  obtain ⟨tr', hvalidate', -⟩ := Program.exec_eval (lookups fun _ => true)
    (Kopf.validateReferences digitQuantities clusteredS3 "default").run
  exact ⟨hgo clusteredS3Cluster tr rfl hvalidate, hkopf clusteredS3 tr' (.inr rfl) hvalidate'⟩

/-! ### A name with a reference -/

/-- A clustered store. -/
def clusteredSpec : Crd.Spec :=
  { smallSpec with
    cubeStore := smallSpec.cubeStore.map fun store => { store with mode := some "clustered" } }

/-- It under a name that reads as a reference to a variable. -/
def referenceCluster : CubeCluster where
  name := "$(POD_NAME)"
  ns := "default"
  uid := "uid"
  generation := 1
  spec := (decodeSpec digitQuantities clusteredSpec).getD {}

/-- What is deployed for it. -/
def referenceDeployed : Deployed :=
  deployed "$(POD_NAME)" [{ name := "CUBESTORE_REMOTE_DIR", value := "/cube/remote" }] 2 true

theorem deployed_referenceCluster :
    ((Go.objects digitQuantities referenceCluster).map fun os =>
      Deployed.read (os.map K8s.Object.manifest)) = some referenceDeployed := by
  decide +kernel

/-- What the first pods of the router and of the workers find: the workers expand the name. -/
theorem find_reference : ∀ w ∈ referenceDeployed.workloads,
    (w.name = "$(POD_NAME)-cubestore-router" → w.containers.map (fun k =>
      k.find (w.name ++ "-0") "CUBESTORE_WORKERS") =
        [some (Kopf.workerAddresses "$(POD_NAME)" 2)]) ∧
    (w.name = "$(POD_NAME)-cubestore-worker" → w.containers.map (fun k =>
      k.find (w.name ++ "-0") "CUBESTORE_WORKERS") =
        [some (Kopf.workerAddresses "$(POD_NAME)-cubestore-worker-0" 2)]) := by
  decide +kernel

theorem hasPod_reference : ∀ w ∈ referenceDeployed.workloads, w.HasPod (w.name ++ "-0") := by
  have hpositive : ∀ w ∈ referenceDeployed.workloads, ∀ e ∈ w.set.toList, 0 < e.2 := by
    decide +kernel
  intro w hw service replicas hset
  refine ⟨0, hpositive w hw (service, replicas) (by simp [hset]), ?_⟩
  rw [String.append_assoc]
  rfl

theorem reference_not_wired : ¬∀ (q : Quantities) (spec : Crd.Spec) (c : CubeCluster)
    (tr : List Exchange) (os : List K8s.Object), spec.Admits → decodeSpec q spec = some c.spec →
    ',' ∉ c.name.toList → Exec (Go.validateReferences q c).run tr (.ok ()) →
    Go.objects q c = some os → Wired (Deployed.read (os.map K8s.Object.manifest)) c.name
      (Go.isClustered c) (Go.replicas c.spec.cubeStore.workers 2) := by
  intro h
  obtain ⟨tr, hvalidate, -⟩ := Program.exec_eval (lookups fun _ => true)
    (Go.validateReferences digitQuantities referenceCluster).run
  obtain ⟨os, hos, hread⟩ := Option.map_eq_some_iff.mp deployed_referenceCluster
  have hwired := h digitQuantities clusteredSpec referenceCluster tr os (.inr rfl) rfl (by decide)
    hvalidate hos
  rw [hread] at hwired
  obtain ⟨router, worker, text, haddressed⟩ := hwired.addressed rfl
  obtain ⟨hrouter, hrouterName, -⟩ := haddressed.hasRouter
  obtain ⟨hworker, hworkerName, -⟩ := haddressed.hasWorker
  have hgiven {w : PodSet} (hw : w ∈ [router, worker]) (hdeployed : w ∈ referenceDeployed.workloads)
      {found : String} (hfound : w.containers.map
        (fun k => k.find (w.name ++ "-0") "CUBESTORE_WORKERS") = [some found]) : found = text := by
    obtain ⟨k, hk, hkFound⟩ := List.mem_map.mp (hfound ▸ List.mem_singleton_self (some found))
    have hkText := haddressed.given w hw k hk _ (hasPod_reference w hdeployed)
    exact Option.some.inj (hkFound.symm.trans hkText)
  have hfirst := hgiven (by simp) hrouter ((find_reference router hrouter).1 hrouterName)
  have hsecond := hgiven (by simp) hworker ((find_reference worker hworker).2 hworkerName)
  exact absurd (hfirst.trans hsecond.symm) (by decide +kernel)

end CubeOperator.Wiring
