import CubeOperator.Kube.Objects

/-! # The CubeCluster spec as it is stored

    The spec of a CubeCluster as the mapping the API server stores, once fields
    the schema does not know are pruned: every field is present or absent.  The
    Kopf controller works on this mapping.  `Spec.admits` is the CRD schema. -/

namespace Crd

/-- An integer or a string, the schema's `x-kubernetes-int-or-string`. -/
inductive IntOrString where
  | int (n : ℤ)
  | string (s : String)
  deriving DecidableEq

/-- The notation of a resource quantity. -/
def IntOrString.text : IntOrString → String
  | .int n => toString n
  | .string s => s

/-- A mapping with string values: no key twice. -/
structure StringMap where
  entries : List (String × String) := []
  nodup : (entries.map Prod.fst).Nodup := by decide

namespace StringMap

/-- The mapping without entries. -/
def empty : StringMap where

/-- The keys of the mapping. -/
def keys (m : StringMap) : List String := m.entries.map Prod.fst

end StringMap

/-! ## Fields -/

structure ResourceClaim where
  name : String
  request : Option String := none
  deriving DecidableEq

structure ResourceRequirements where
  claims : Option (List ResourceClaim) := none
  limits : Option (List (String × IntOrString)) := none
  requests : Option (List (String × IntOrString)) := none
  deriving DecidableEq

structure WorkloadSpec where
  replicas : Option ℤ := none
  resources : Option ResourceRequirements := none
  deriving DecidableEq

structure PersistentVolumeStorage where
  existingClaim : Option String := none
  deriving DecidableEq

structure S3Storage where
  bucket : Option String := none
  region : Option String := none
  secretRef : Option String := none
  deriving DecidableEq

structure RemoteStorageSpec where
  type : Option String := none
  persistentVolume : Option PersistentVolumeStorage := none
  s3 : Option S3Storage := none
  deriving DecidableEq

structure ScratchStorageSpec where
  size : Option String := none
  deriving DecidableEq

structure CubeStoreSpec where
  mode : Option String := none
  image : Option String := none
  workers : Option ℤ := none
  resources : Option ResourceRequirements := none
  remoteStorage : Option RemoteStorageSpec := none
  scratch : Option ScratchStorageSpec := none
  deriving DecidableEq

structure ServiceSpec where
  type : Option String := none
  nodePort : Option ℤ := none
  annotations : Option StringMap := none

/-- The `spec` mapping; a CubeCluster without a `spec` has the empty one. -/
structure Spec where
  image : Option String := none
  imagePullPolicy : Option String := none
  modelConfigMap : Option String := none
  configurationSecret : Option String := none
  api : Option WorkloadSpec := none
  refreshWorker : Option WorkloadSpec := none
  cubeStore : Option CubeStoreSpec := none
  service : Option ServiceSpec := none

/-! ## The schema -/

/-- A field the schema does not require: absent, or as `p` says. -/
def optional {α : Type} (p : α → Bool) : Option α → Bool
  | none => true
  | some a => p a

/-- A field the schema requires. -/
def required {α : Type} (p : α → Bool) : Option α → Bool
  | none => false
  | some a => p a

/-- `format: int32`, `minimum: 1`. -/
def countAdmits (n : ℤ) : Bool := 1 ≤ n ∧ n ≤ 2147483647

def WorkloadSpec.admits (w : WorkloadSpec) : Bool := optional countAdmits w.replicas

def RemoteStorageSpec.admits (r : RemoteStorageSpec) : Bool :=
  required (fun t => t = "persistentVolume" || t = "s3") r.type &&
  optional (fun pv => required (fun _ => true) pv.existingClaim) r.persistentVolume &&
  optional (fun s3 => required (fun _ => true) s3.bucket && required (fun _ => true) s3.region) r.s3

def CubeStoreSpec.admits (s : CubeStoreSpec) : Bool :=
  optional (fun m => m = "single" || m = "clustered") s.mode &&
  optional countAdmits s.workers &&
  required RemoteStorageSpec.admits s.remoteStorage

def ServiceSpec.admits (s : ServiceSpec) : Bool :=
  optional (fun t => t = "ClusterIP" || t = "NodePort" || t = "LoadBalancer") s.type &&
  optional (fun p => 30000 ≤ p ∧ p ≤ 32767) s.nodePort

/-- A `spec` that is there and satisfies its schema. -/
def Spec.admitsPresent (s : Spec) : Bool :=
  optional (fun p => p = "Always" || p = "Never" || p = "IfNotPresent") s.imagePullPolicy &&
  required (fun _ => true) s.modelConfigMap &&
  required (fun _ => true) s.configurationSecret &&
  optional WorkloadSpec.admits s.api &&
  optional WorkloadSpec.admits s.refreshWorker &&
  required CubeStoreSpec.admits s.cubeStore &&
  optional ServiceSpec.admits s.service

/-- The schema of `spec`.  It does not require the field itself. -/
def Spec.Admits (s : Spec) : Prop := s = {} ∨ s.admitsPresent = true

/-! ## Resource requirements as JSON -/

def ResourceClaim.toJson (c : ResourceClaim) : Json :=
  .obj (("name", .str c.name) :: Kube.optionalField "request" (c.request.map .str))

def quantitiesJson (entries : List (String × IntOrString)) : Json :=
  .obj (entries.map fun e => (e.1, .quantity e.2.text))

def ResourceRequirements.toJson (r : ResourceRequirements) : Json :=
  .obj (Kube.optionalField "claims" (r.claims.map fun cs => .arr (cs.map ResourceClaim.toJson)) ++
    (Kube.optionalField "limits" (r.limits.map quantitiesJson) ++
      Kube.optionalField "requests" (r.requests.map quantitiesJson)))

end Crd
