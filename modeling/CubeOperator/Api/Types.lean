import CubeOperator.Api.Spec

/-! # The Go API types of a CubeCluster

    The structs of `api/v1alpha1` with Go's zero values, how a stored spec is
    decoded into them, and the status both controllers write. -/

namespace V1alpha1

/-! ## Spec -/

structure ResourceClaim where
  name : String
  request : String := ""
  deriving DecidableEq

/-- Decoded resource requirements: quantities are numbers. -/
structure ResourceRequirements where
  claims : List ResourceClaim := []
  limits : List (String × ℚ) := []
  requests : List (String × ℚ) := []
  deriving DecidableEq

structure WorkloadSpec where
  replicas : Option ℤ := none
  resources : ResourceRequirements := {}
  deriving DecidableEq

structure PersistentVolumeStorage where
  existingClaim : String := ""
  deriving DecidableEq

structure S3Storage where
  bucket : String := ""
  region : String := ""
  secretRef : String := ""
  deriving DecidableEq

structure RemoteStorageSpec where
  type : String := ""
  persistentVolume : Option PersistentVolumeStorage := none
  s3 : Option S3Storage := none
  deriving DecidableEq

structure ScratchStorageSpec where
  size : String := ""
  deriving DecidableEq

structure CubeStoreSpec where
  mode : String := ""
  image : String := ""
  workers : Option ℤ := none
  resources : ResourceRequirements := {}
  remoteStorage : RemoteStorageSpec := {}
  scratch : ScratchStorageSpec := {}
  deriving DecidableEq

structure ServiceSpec where
  type : String := ""
  nodePort : ℤ := 0
  annotations : List (String × String) := []
  deriving DecidableEq

structure CubeClusterSpec where
  image : String := ""
  imagePullPolicy : String := ""
  modelConfigMap : String := ""
  configurationSecret : String := ""
  api : WorkloadSpec := {}
  refreshWorker : WorkloadSpec := {}
  cubeStore : CubeStoreSpec := {}
  service : ServiceSpec := {}
  deriving DecidableEq

/-! ## Status -/

inductive ConditionStatus where
  | isTrue
  | isFalse
  | unknown
  deriving DecidableEq

structure Condition where
  type : String
  status : ConditionStatus
  reason : String
  message : String
  observedGeneration : ℤ
  lastTransitionTime : ℤ
  deriving DecidableEq

structure CubeClusterStatus where
  observedGeneration : ℤ := 0
  readyAPIs : ℤ := 0
  endpoint : String := ""
  conditions : List Condition := []
  deriving DecidableEq

namespace CubeClusterStatus

/-- The `Ready` condition, the first of that type. -/
def ready (s : CubeClusterStatus) : Option Condition := s.conditions.find? fun c => c.type = "Ready"

/-- `Ready` is stored as `True`. -/
def isReady (s : CubeClusterStatus) : Bool :=
  s.ready.any fun c => c.status = .isTrue

end CubeClusterStatus

/-- A CubeCluster: the metadata the controllers read, spec and status. -/
structure CubeCluster where
  name : String
  ns : String
  uid : String
  generation : ℤ
  spec : CubeClusterSpec
  status : CubeClusterStatus := {}
  deriving DecidableEq

/-! ## Resource quantities -/

/-- What Python raises for a text that is no quantity. -/
inductive PythonQuantityError where
  | valueError (message : String)
  | invalidOperation
  | typeError
  deriving DecidableEq

/-- The quantity parsers of the two controllers (`resource.ParseQuantity` and
    `kubernetes.utils.quantity.parse_quantity`), which agree on the texts that are
    quantities and on their values, and their errors for any other text. -/
structure Quantities where
  value : String → Option ℚ
  goError : String → String
  pythonError : String → PythonQuantityError

/-- The number a text of digits denotes. -/
def digitsValue (text : String) : Option ℚ :=
  let digits := text.toList
  if digits ≠ [] ∧ digits.all Char.isDigit then
    some ((digits.foldl (fun n d => 10 * n + (d.toNat - '0'.toNat)) 0 : ℕ) : ℚ)
  else none

/-- The parsers on texts of digits; every other text counts as no quantity. -/
def digitQuantities : Quantities where
  value := digitsValue
  goError _ := "quantities must match the regular expression"
  pythonError _ := .valueError "Invalid quantity"

/-! ## Decoding -/

section decode

variable (q : Quantities)

/-- A map of quantities decodes when each of its texts does. -/
def decodeQuantities : List (String × Crd.IntOrString) → Option (List (String × ℚ))
  | [] => some []
  | (name, text) :: rest => do
    let value ← q.value text.text
    let values ← decodeQuantities rest
    some ((name, value) :: values)

def decodeResources (r : Crd.ResourceRequirements) : Option ResourceRequirements := do
  let limits ← decodeQuantities q (r.limits.getD [])
  let requests ← decodeQuantities q (r.requests.getD [])
  some {
    claims := (r.claims.getD []).map fun c => { name := c.name, request := c.request.getD "" }
    limits := limits
    requests := requests }

def decodeWorkload (w : Crd.WorkloadSpec) : Option WorkloadSpec := do
  let resources ← decodeResources q (w.resources.getD {})
  some { replicas := w.replicas, resources := resources }

def decodeRemoteStorage (r : Crd.RemoteStorageSpec) : RemoteStorageSpec where
  type := r.type.getD ""
  persistentVolume := r.persistentVolume.map fun pv => { existingClaim := pv.existingClaim.getD "" }
  s3 := r.s3.map fun s3 =>
    { bucket := s3.bucket.getD "", region := s3.region.getD "", secretRef := s3.secretRef.getD "" }

def decodeCubeStore (s : Crd.CubeStoreSpec) : Option CubeStoreSpec := do
  let resources ← decodeResources q (s.resources.getD {})
  some {
    mode := s.mode.getD ""
    image := s.image.getD ""
    workers := s.workers
    resources := resources
    remoteStorage := decodeRemoteStorage (s.remoteStorage.getD {})
    scratch := { size := (s.scratch.getD {}).size.getD "" } }

def decodeService (s : Crd.ServiceSpec) : ServiceSpec where
  type := s.type.getD ""
  nodePort := s.nodePort.getD 0
  annotations := (s.annotations.getD .empty).entries

/-- The Go client's view of a stored spec; `none` when a quantity does not parse. -/
def decodeSpec (s : Crd.Spec) : Option CubeClusterSpec := do
  let api ← decodeWorkload q (s.api.getD {})
  let refreshWorker ← decodeWorkload q (s.refreshWorker.getD {})
  let cubeStore ← decodeCubeStore q (s.cubeStore.getD {})
  some {
    image := s.image.getD ""
    imagePullPolicy := s.imagePullPolicy.getD ""
    modelConfigMap := s.modelConfigMap.getD ""
    configurationSecret := s.configurationSecret.getD ""
    api := api
    refreshWorker := refreshWorker
    cubeStore := cubeStore
    service := decodeService (s.service.getD {}) }

/-- What the fields of a decoded spec are. -/
structure Decoded (s : Crd.Spec) (d : CubeClusterSpec) : Prop where
  image : d.image = s.image.getD ""
  imagePullPolicy : d.imagePullPolicy = s.imagePullPolicy.getD ""
  modelConfigMap : d.modelConfigMap = s.modelConfigMap.getD ""
  configurationSecret : d.configurationSecret = s.configurationSecret.getD ""
  apiReplicas : d.api.replicas = (s.api.getD {}).replicas
  apiResources : decodeResources q ((s.api.getD {}).resources.getD {}) = some d.api.resources
  refreshReplicas : d.refreshWorker.replicas = (s.refreshWorker.getD {}).replicas
  refreshResources :
    decodeResources q ((s.refreshWorker.getD {}).resources.getD {}) = some d.refreshWorker.resources
  mode : d.cubeStore.mode = (s.cubeStore.getD {}).mode.getD ""
  storeImage : d.cubeStore.image = (s.cubeStore.getD {}).image.getD ""
  workers : d.cubeStore.workers = (s.cubeStore.getD {}).workers
  storeResources :
    decodeResources q ((s.cubeStore.getD {}).resources.getD {}) = some d.cubeStore.resources
  remoteStorage : d.cubeStore.remoteStorage =
    decodeRemoteStorage ((s.cubeStore.getD {}).remoteStorage.getD {})
  scratchSize : d.cubeStore.scratch.size = ((s.cubeStore.getD {}).scratch.getD {}).size.getD ""
  service : d.service = decodeService (s.service.getD {})

variable {q}

theorem decoded_of_decodeSpec {s : Crd.Spec} {d : CubeClusterSpec} (h : decodeSpec q s = some d) :
    Decoded q s d := by
  simp only [decodeSpec, decodeWorkload, decodeCubeStore, Option.bind_eq_bind,
    Option.bind_eq_some_iff, Option.some.injEq] at h
  obtain ⟨_, ⟨_, hapi, rfl⟩, _, ⟨_, hrefresh, rfl⟩, _, ⟨_, hstore, rfl⟩, rfl⟩ := h
  exact {
    image := rfl, imagePullPolicy := rfl, modelConfigMap := rfl, configurationSecret := rfl
    apiReplicas := rfl, apiResources := hapi, refreshReplicas := rfl, refreshResources := hrefresh
    mode := rfl, storeImage := rfl, workers := rfl, storeResources := hstore
    remoteStorage := rfl, scratchSize := rfl, service := rfl }

end decode

end V1alpha1
