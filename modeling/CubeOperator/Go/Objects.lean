import CubeOperator.Api.Types

/-! # The Kubernetes structs the Go controller builds

    The parts of `corev1`, `appsv1`, `policyv1` and `networkingv1` that the
    resource builders fill in, and their JSON.  A field the builders leave at
    its zero value is absent from the JSON, unless `omitempty` does not omit it:
    structs are written as `{}`, an unset target port and the counters of a status
    as 0. -/

namespace K8s

open Kube

/-! ## Pods -/

structure EnvVar where
  name : String
  value : String := ""
  /-- `valueFrom.fieldRef.fieldPath`. -/
  fieldPath : Option String := none

structure ContainerPort where
  name : String
  containerPort : ℤ

structure VolumeMount where
  name : String
  mountPath : String
  readOnly : Bool := false

inductive VolumeSource where
  | configMap (name : String)
  | emptyDir (sizeLimit : Option ℚ)
  | persistentVolumeClaim (claimName : String)

structure Volume where
  name : String
  source : VolumeSource

inductive ProbeHandler where
  | httpGet (path port : String)
  | tcpSocket (port : String)

structure Probe where
  handler : ProbeHandler
  initialDelaySeconds : ℤ
  periodSeconds : ℤ
  timeoutSeconds : ℤ := 0
  failureThreshold : ℤ

structure SecurityContext where
  allowPrivilegeEscalation : Bool
  /-- `capabilities.drop`. -/
  drop : List String

structure Container where
  name : String
  image : String
  imagePullPolicy : String
  command : List String := []
  env : List EnvVar := []
  /-- The secrets of `envFrom`. -/
  envFrom : List String := []
  ports : List ContainerPort := []
  resources : V1alpha1.ResourceRequirements := {}
  securityContext : SecurityContext
  volumeMounts : List VolumeMount
  readinessProbe : Option Probe := none
  livenessProbe : Option Probe := none

structure PodSpec where
  /-- `securityContext.seccompProfile.type`. -/
  seccompProfile : String
  initContainers : List Container := []
  containers : List Container
  volumes : List Volume

/-- A pod template: labels and spec. -/
structure PodTemplateSpec where
  labels : List (String × String)
  spec : PodSpec

/-! ## Objects -/

structure ObjectMeta where
  name : String
  ns : String
  labels : List (String × String) := []
  annotations : List (String × String) := []

structure ServicePort where
  name : String
  port : ℤ
  targetPort : ℤ := 0
  nodePort : ℤ := 0

structure Service where
  objectMeta : ObjectMeta
  type : String := ""
  selector : List (String × String)
  ports : List ServicePort
  clusterIP : String := ""

structure Deployment where
  objectMeta : ObjectMeta
  replicas : ℤ
  selector : List (String × String)
  template : PodTemplateSpec

structure StatefulSet where
  objectMeta : ObjectMeta
  serviceName : String
  replicas : ℤ
  podManagementPolicy : String
  selector : List (String × String)
  template : PodTemplateSpec

structure PodDisruptionBudget where
  objectMeta : ObjectMeta
  minAvailable : ℤ
  selector : List (String × String)

/-- An ingress rule: the pods it admits and the ports it opens. -/
structure NetworkPolicyIngressRule where
  peers : List (List (String × String))
  ports : List ℤ

structure NetworkPolicy where
  objectMeta : ObjectMeta
  podSelector : List (String × String)
  policyTypes : List String
  ingress : List NetworkPolicyIngressRule

inductive Object where
  | service (o : Service)
  | deployment (o : Deployment)
  | statefulSet (o : StatefulSet)
  | podDisruptionBudget (o : PodDisruptionBudget)
  | networkPolicy (o : NetworkPolicy)

/-! ## JSON -/

open Json (omitEmpty)

/-- A number that is left out when it is zero. -/
def omitZero (k : String) (n : ℤ) : List (String × Json) :=
  if n = 0 then [] else [(k, .num n)]

def EnvVar.toJson (e : EnvVar) : Json :=
  .obj ([("name", .str e.name)] ++ (omitEmpty "value" (.str e.value) ++
    optionalField "valueFrom"
      (e.fieldPath.map fun p => .obj [("fieldRef", .obj [("fieldPath", .str p)])])))

def ContainerPort.toJson (p : ContainerPort) : Json :=
  .obj [("name", .str p.name), ("containerPort", .num p.containerPort)]

def VolumeMount.toJson (m : VolumeMount) : Json :=
  .obj ([("name", .str m.name), ("mountPath", .str m.mountPath)] ++
    optionalField "readOnly" (if m.readOnly then some (.bool true) else none))

def VolumeSource.field : VolumeSource → String × Json
  | .configMap name => ("configMap", .obj [("name", .str name)])
  | .emptyDir sizeLimit => ("emptyDir", .obj (optionalField "sizeLimit" (sizeLimit.map .amount)))
  | .persistentVolumeClaim claim => ("persistentVolumeClaim", .obj [("claimName", .str claim)])

def Volume.toJson (v : Volume) : Json := .obj [("name", .str v.name), v.source.field]

def ProbeHandler.field : ProbeHandler → String × Json
  | .httpGet path port => ("httpGet", .obj [("path", .str path), ("port", .str port)])
  | .tcpSocket port => ("tcpSocket", .obj [("port", .str port)])

def Probe.toJson (p : Probe) : Json :=
  .obj ([p.handler.field, ("initialDelaySeconds", .num p.initialDelaySeconds),
    ("periodSeconds", .num p.periodSeconds)] ++
    (omitZero "timeoutSeconds" p.timeoutSeconds ++
      [("failureThreshold", .num p.failureThreshold)]))

def SecurityContext.toJson (s : SecurityContext) : Json :=
  .obj [("allowPrivilegeEscalation", .bool s.allowPrivilegeEscalation),
    ("capabilities", .obj [("drop", .arr (s.drop.map .str))])]

def amountsJson (entries : List (String × ℚ)) : Json :=
  .obj (entries.map fun e => (e.1, .amount e.2))

def resourceClaimJson (c : V1alpha1.ResourceClaim) : Json :=
  .obj ([("name", .str c.name)] ++ omitEmpty "request" (.str c.request))

def resourcesJson (r : V1alpha1.ResourceRequirements) : Json :=
  .obj (omitEmpty "claims" (.arr (r.claims.map resourceClaimJson)) ++
    (omitEmpty "limits" (amountsJson r.limits) ++ omitEmpty "requests" (amountsJson r.requests)))

def envFromJson (secret : String) : Json := .obj [("secretRef", .obj [("name", .str secret)])]

def Container.toJson (c : Container) : Json :=
  .obj ([("name", .str c.name)] ++ (omitEmpty "image" (.str c.image) ++
    (omitEmpty "imagePullPolicy" (.str c.imagePullPolicy) ++
    (omitEmpty "command" (.arr (c.command.map .str)) ++
    (omitEmpty "env" (.arr (c.env.map EnvVar.toJson)) ++
    (omitEmpty "envFrom" (.arr (c.envFrom.map envFromJson)) ++
    (omitEmpty "ports" (.arr (c.ports.map ContainerPort.toJson)) ++
    ([("resources", resourcesJson c.resources), ("securityContext", c.securityContext.toJson)] ++
    (omitEmpty "volumeMounts" (.arr (c.volumeMounts.map VolumeMount.toJson)) ++
    (optionalField "readinessProbe" (c.readinessProbe.map Probe.toJson) ++
    optionalField "livenessProbe" (c.livenessProbe.map Probe.toJson)))))))))))

def PodSpec.toJson (p : PodSpec) : Json :=
  .obj ([("securityContext", .obj [("seccompProfile", .obj [("type", .str p.seccompProfile)])])] ++
    (omitEmpty "initContainers" (.arr (p.initContainers.map Container.toJson)) ++
    ([("containers", .arr (p.containers.map Container.toJson))] ++
    omitEmpty "volumes" (.arr (p.volumes.map Volume.toJson)))))

def PodTemplateSpec.toJson (t : PodTemplateSpec) : Json :=
  .obj [("metadata", .obj (omitEmpty "labels" (stringsJson t.labels))), ("spec", t.spec.toJson)]

def selectorJson (matchLabels : List (String × String)) : Json :=
  .obj (omitEmpty "matchLabels" (stringsJson matchLabels))

def ServicePort.toJson (p : ServicePort) : Json :=
  .obj ([("name", .str p.name), ("port", .num p.port), ("targetPort", .num p.targetPort)] ++
    omitZero "nodePort" p.nodePort)

def Service.spec (s : Service) : Json :=
  .obj (omitEmpty "type" (.str s.type) ++ (omitEmpty "selector" (stringsJson s.selector) ++
    (omitEmpty "ports" (.arr (s.ports.map ServicePort.toJson)) ++
    omitEmpty "clusterIP" (.str s.clusterIP))))

def Deployment.spec (d : Deployment) : Json :=
  .obj [("replicas", .num d.replicas), ("selector", selectorJson d.selector),
    ("template", d.template.toJson), ("strategy", .obj [])]

def StatefulSet.spec (s : StatefulSet) : Json :=
  .obj [("replicas", .num s.replicas), ("selector", selectorJson s.selector),
    ("template", s.template.toJson), ("serviceName", .str s.serviceName),
    ("podManagementPolicy", .str s.podManagementPolicy), ("updateStrategy", .obj [])]

def PodDisruptionBudget.spec (p : PodDisruptionBudget) : Json :=
  .obj [("minAvailable", .num p.minAvailable), ("selector", selectorJson p.selector)]

def peerJson (matchLabels : List (String × String)) : Json :=
  .obj [("podSelector", selectorJson matchLabels)]

def policyPortJson (port : ℤ) : Json := .obj [("port", .num port)]

def NetworkPolicyIngressRule.toJson (r : NetworkPolicyIngressRule) : Json :=
  .obj (omitEmpty "from" (.arr (r.peers.map peerJson)) ++
    omitEmpty "ports" (.arr (r.ports.map policyPortJson)))

def NetworkPolicy.spec (p : NetworkPolicy) : Json :=
  .obj [("podSelector", selectorJson p.podSelector),
    ("policyTypes", .arr (p.policyTypes.map .str)),
    ("ingress", .arr (p.ingress.map NetworkPolicyIngressRule.toJson))]

/-- Metadata with empty maps left out. -/
def ObjectMeta.metadata (m : ObjectMeta) : Metadata where
  name := m.name
  ns := m.ns
  labels := if m.labels = [] then none else some m.labels
  annotations := if m.annotations = [] then none else some m.annotations

/-- The status of an object that is built, as it is written. -/
def Object.status : Object → Option Json
  | .service _ => some (.obj [("loadBalancer", .obj [])])
  | .deployment _ => some (.obj [])
  | .statefulSet _ => some (.obj [("replicas", .num 0), ("availableReplicas", .num 0)])
  | .podDisruptionBudget _ =>
    some (.obj [("disruptionsAllowed", .num 0), ("currentHealthy", .num 0),
      ("desiredHealthy", .num 0), ("expectedPods", .num 0)])
  | .networkPolicy _ => none

/-- The document of an object with the kind that `reconcileObject` sets, the one its
    type is registered under. -/
def Object.manifest (o : Object) : Manifest :=
  match o with
  | .service s => ⟨.service, s.objectMeta.metadata, s.spec, o.status⟩
  | .deployment d => ⟨.deployment, d.objectMeta.metadata, d.spec, o.status⟩
  | .statefulSet s => ⟨.statefulSet, s.objectMeta.metadata, s.spec, o.status⟩
  | .podDisruptionBudget p => ⟨.podDisruptionBudget, p.objectMeta.metadata, p.spec, o.status⟩
  | .networkPolicy p => ⟨.networkPolicy, p.objectMeta.metadata, p.spec, o.status⟩

/-- The document of an object as `objects` returns it, without a kind. -/
def Object.toJson (o : Object) : Json := .obj o.manifest.fields

end K8s
