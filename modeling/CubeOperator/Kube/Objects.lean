import CubeOperator.Lib.Json

/-! # Kubernetes objects as the controllers see them

    The kinds both controllers touch, the identity of an object, the document
    a controller sends for an object it wants, and the errors of the API. -/

namespace Kube

/-! ## Identity -/

/-- The kinds the controllers read or manage. -/
inductive Kind where
  | configMap
  | secret
  | persistentVolumeClaim
  | service
  | deployment
  | statefulSet
  | podDisruptionBudget
  | networkPolicy
  deriving DecidableEq

namespace Kind

def apiVersion : Kind → String
  | .configMap | .secret | .persistentVolumeClaim | .service => "v1"
  | .deployment | .statefulSet => "apps/v1"
  | .podDisruptionBudget => "policy/v1"
  | .networkPolicy => "networking.k8s.io/v1"

def name : Kind → String
  | .configMap => "ConfigMap"
  | .secret => "Secret"
  | .persistentVolumeClaim => "PersistentVolumeClaim"
  | .service => "Service"
  | .deployment => "Deployment"
  | .statefulSet => "StatefulSet"
  | .podDisruptionBudget => "PodDisruptionBudget"
  | .networkPolicy => "NetworkPolicy"

/-- Kinds a spec refers to by name.  The controllers only look these up. -/
def isReference : Kind → Bool
  | .configMap | .secret | .persistentVolumeClaim => true
  | _ => false

end Kind

/-- An object is identified by its kind, namespace and name. -/
structure Key where
  kind : Kind
  ns : String
  name : String
  deriving DecidableEq

/-! ## Documents -/

/-- A JSON object of strings. -/
def stringsJson (entries : List (String × String)) : Json :=
  .obj (entries.map fun e => (e.1, .str e.2))

structure OwnerReference where
  apiVersion : String
  kind : String
  name : String
  uid : String
  controller : Bool
  blockOwnerDeletion : Bool
  deriving DecidableEq

def OwnerReference.toJson (o : OwnerReference) : Json :=
  .obj [("apiVersion", .str o.apiVersion), ("kind", .str o.kind), ("name", .str o.name),
    ("uid", .str o.uid), ("controller", .bool o.controller),
    ("blockOwnerDeletion", .bool o.blockOwnerDeletion)]

/-- The metadata a controller writes; `none` is a field it does not write. -/
structure Metadata where
  name : String
  ns : String
  labels : Option (List (String × String)) := none
  annotations : Option (List (String × String)) := none
  ownerReferences : Option (List OwnerReference) := none
  deriving DecidableEq

/-- A field that may be absent. -/
def optionalField (k : String) : Option Json → List (String × Json)
  | some v => [(k, v)]
  | none => []

theorem lookup_optionalField (k k' : String) (v : Option Json) :
    Json.lookup k (optionalField k' v) = if k' = k then v else none := by
  cases v <;> simp [optionalField]

def Metadata.fields (m : Metadata) : List (String × Json) :=
  [("name", .str m.name), ("namespace", .str m.ns)] ++
    (optionalField "labels" (m.labels.map stringsJson) ++
      (optionalField "annotations" (m.annotations.map stringsJson) ++
        optionalField "ownerReferences"
          (m.ownerReferences.map fun os => .arr (os.map OwnerReference.toJson))))

/-- The document of an object a controller wants. -/
structure Manifest where
  kind : Kind
  metadata : Metadata
  spec : Json
  /-- The status that is sent along; the API server takes none from a document. -/
  status : Option Json := none

namespace Manifest

def key (m : Manifest) : Key := ⟨m.kind, m.metadata.ns, m.metadata.name⟩

/-- The part of the document that is stored as written: metadata and spec. -/
def body (m : Manifest) : Json := .obj [("metadata", .obj m.metadata.fields), ("spec", m.spec)]

/-- The fields of the document besides its kind. -/
def fields (m : Manifest) : List (String × Json) :=
  [("metadata", .obj m.metadata.fields), ("spec", m.spec)] ++ optionalField "status" m.status

/-- The whole document. -/
def toJson (m : Manifest) : Json :=
  .obj ([("apiVersion", .str m.kind.apiVersion), ("kind", .str m.kind.name)] ++ m.fields)

/-- The document with its owner references set. -/
def ownedBy (m : Manifest) (owner : OwnerReference) : Manifest :=
  { m with metadata := { m.metadata with ownerReferences := some [owner] } }

@[simp] theorem ownedBy_key (m : Manifest) (owner : OwnerReference) :
    (m.ownedBy owner).key = m.key := rfl

@[simp] theorem ownedBy_kind (m : Manifest) (owner : OwnerReference) :
    (m.ownedBy owner).kind = m.kind := rfl

@[simp] theorem ownedBy_spec (m : Manifest) (owner : OwnerReference) :
    (m.ownedBy owner).spec = m.spec := rfl

end Manifest

/-! ## Errors and live objects -/

/-- An error status answered by the API server: the HTTP code and phrase, the
    machine-readable reason and the message. -/
structure StatusError where
  code : Nat
  phrase : String
  reason : String
  message : String
  deriving DecidableEq

/-- A failed call: an error status, or no usable answer at all (a timeout, a
    refused connection). -/
inductive ApiError where
  | status (e : StatusError)
  | other (message : String)
  deriving DecidableEq

namespace ApiError

def message : ApiError → String
  | .status e => e.message
  | .other m => m

/-- The API server says that there is no such object. -/
def isNotFound : ApiError → Bool
  | .status e => e.code = 404
  | .other _ => false

/-- The API server refuses an update that was based on an older version. -/
def isConflict : ApiError → Bool
  | .status e => e.code = 409 && e.reason = "Conflict"
  | .other _ => false

/-- The answer to a lookup of an object that does not exist. -/
def notFound : ApiError := .status ⟨404, "Not Found", "NotFound", "not found"⟩

/-- The answer to the creation of an object that exists. -/
def alreadyExists : ApiError := .status ⟨409, "Conflict", "AlreadyExists", "already exists"⟩

@[simp] theorem isNotFound_notFound : notFound.isNotFound = true := rfl

@[simp] theorem isNotFound_alreadyExists : alreadyExists.isNotFound = false := rfl

end ApiError

/-- What the controllers read of a live object: the ready replicas of a workload,
    absent until its controller has reported them. -/
structure Live where
  readyReplicas : Option ℤ := none
  deriving DecidableEq

end Kube
