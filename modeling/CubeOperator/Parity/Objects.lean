import CubeOperator.Go.Readiness
import CubeOperator.Parity.Validation

/-! # The two builders compared

    The objects the controllers build for one spec have the same JSON, empty
    fields aside and quantities read at their value, once those of the Go controller
    have the kind that `reconcileObject` sets and are without the zeros that its
    structs write for a status and a target port. -/

namespace CubeOperator

open Interaction Kube V1alpha1
open Json (normalize normalizeFields omitEmpty)

variable {q : Quantities} {s : Crd.Spec} {c : CubeCluster}

/-! ## Resource requirements -/

/-- An optional field and one that falls back to an empty value. -/
theorem normalizeFields_optionalField {α : Type} (k : String) (f : α → Json) (o : Option α)
    (a : α) (hempty : (normalize q.value (f a)).isEmpty) :
    normalizeFields q.value (optionalField k (o.map f)) =
      omitEmpty k (normalize q.value (f (o.getD a))) := by
  cases o <;> simp [optionalField, omitEmpty, hempty]

theorem normalize_resourceClaim (claim : Crd.ResourceClaim) :
    normalize q.value
        (K8s.resourceClaimJson { name := claim.name, request := claim.request.getD "" }) =
      normalize q.value claim.toJson := by
  have hrequest := normalizeFields_optionalField (q := q) "request" Json.str claim.request "" rfl
  simp [K8s.resourceClaimJson, Crd.ResourceClaim.toJson, hrequest]

theorem normalize_quantities {entries : List (String × Crd.IntOrString)}
    {values : List (String × ℚ)} (h : decodeQuantities q entries = some values) :
    normalize q.value (K8s.amountsJson values) = normalize q.value (Crd.quantitiesJson entries) := by
  unfold K8s.amountsJson Crd.quantitiesJson
  induction entries generalizing values with
  | nil =>
    obtain rfl : values = [] := by simpa [decodeQuantities] using h.symm
    rfl
  | cons e entries ih =>
    obtain ⟨name, text⟩ := e
    simp only [decodeQuantities, Option.bind_eq_bind, Option.bind_eq_some_iff,
      Option.some.injEq] at h
    obtain ⟨v, hv, vs, hvs, rfl⟩ := h
    simpa [Json.normalize_quantity _ hv] using ih hvs

theorem normalize_resources {r : Crd.ResourceRequirements} {d : ResourceRequirements}
    (h : decodeResources q r = some d) :
    normalize q.value (K8s.resourcesJson d) = normalize q.value r.toJson := by
  simp only [decodeResources, Option.bind_eq_bind, Option.bind_eq_some_iff, Option.some.injEq] at h
  obtain ⟨limits, hlimits, requests, hrequests, rfl⟩ := h
  have hclaims : normalize q.value (.arr ((r.claims.getD []).map fun claim =>
        K8s.resourceClaimJson { name := claim.name, request := claim.request.getD "" })) =
      normalize q.value (.arr ((r.claims.getD []).map Crd.ResourceClaim.toJson)) := by
    simp only [Json.normalize_arr, List.map_map]
    congr 1
    exact List.map_congr_left fun claim _ => normalize_resourceClaim claim
  unfold K8s.resourcesJson Crd.ResourceRequirements.toJson
  rw [Json.normalize_obj, Json.normalize_obj]
  simp only [Json.normalizeFields_append, Json.normalizeFields_omitEmpty]
  rw [normalizeFields_optionalField _ _ _ [] rfl, normalizeFields_optionalField _ _ _ [] rfl,
    normalizeFields_optionalField _ _ _ [] rfl, normalize_quantities hlimits,
    normalize_quantities hrequests, ← hclaims, List.map_map]
  rfl

/-! ## Names and settings -/

theorem storeMode_eq (hd : Decoded q s c.spec) : Go.storeMode c = Kopf.storeMode s := by
  have h := storeMode_decode hd
  unfold Kopf.storeMode
  split
  · rename_i hm
    exact h.mpr hm
  · rename_i hm
    unfold Go.storeMode at h ⊢
    split
    · rename_i hc
      exact absurd (h.mp (by simp [hc])) hm
    · rfl

theorem cubeStoreHost_eq (hd : Decoded q s c.spec) :
    Go.cubeStoreHost c = Kopf.cubeStoreHost c.name s := by
  unfold Go.cubeStoreHost Kopf.cubeStoreHost
  rw [storeMode_eq hd]
  split <;> simp [String.append_assoc]

theorem cubeImage_eq (hd : Decoded q s c.spec) : Go.cubeImage c = Kopf.cubeImage s := by
  unfold Go.cubeImage
  simp only [hd.image]
  rfl

theorem storeImage_eq (hd : Decoded q s c.spec) :
    Go.storeImage c = Kopf.orDefault (s.cubeStore.getD {}).image Kopf.defaultStoreImage := by
  unfold Go.storeImage
  simp only [hd.storeImage]
  rfl

theorem pullPolicy_eq (hd : Decoded q s c.spec) : Go.pullPolicy c = Kopf.pullPolicy s := by
  unfold Go.pullPolicy Kopf.pullPolicy Kopf.orDefault
  simp [hd.imagePullPolicy]

/-! ## Parts of a pod -/

@[simp] theorem normalize_envVar (name value : String) :
    normalize q.value (K8s.EnvVar.toJson { name := name, value := value }) =
      normalize q.value (Kopf.envVar name value) := by
  simp [K8s.EnvVar.toJson, Kopf.envVar, optionalField]

@[simp] theorem envFromJson_eq (secret : String) :
    K8s.envFromJson secret = Kopf.secretRef secret := rfl

@[simp] theorem port_toJson (name : String) (n : ℤ) :
    K8s.ContainerPort.toJson { name := name, containerPort := n } = Kopf.port name n := rfl

@[simp] theorem volumeMount_toJson (name mountPath : String) :
    K8s.VolumeMount.toJson { name := name, mountPath := mountPath } =
      Kopf.volumeMount name mountPath := rfl

@[simp] theorem readOnlyMount_toJson (name mountPath : String) :
    K8s.VolumeMount.toJson { name := name, mountPath := mountPath, readOnly := true } =
      Kopf.readOnlyMount name mountPath := rfl

@[simp] theorem httpProbe_toJson (path : String) :
    (Go.httpProbe path).toJson = Kopf.httpProbe path := by
  simp [Go.httpProbe, K8s.Probe.toJson, Kopf.httpProbe, K8s.ProbeHandler.field, K8s.omitZero]

@[simp] theorem tcpProbe_toJson (port : String) :
    (Go.tcpProbe port).toJson = Kopf.tcpProbe port := by
  simp [Go.tcpProbe, K8s.Probe.toJson, Kopf.tcpProbe, K8s.ProbeHandler.field, K8s.omitZero]

@[simp] theorem containerSecurityContext_toJson :
    Go.containerSecurityContext.toJson = Kopf.containerSecurityContext := rfl

@[simp] theorem omitEmpty_str_empty (k : String) : omitEmpty k (.str "") = [] := rfl

@[simp] theorem omitEmpty_obj_nil (k : String) : omitEmpty k (.obj []) = [] := rfl

@[simp] theorem omitEmpty_arr_nil (k : String) : omitEmpty k (.arr []) = [] := rfl

@[simp] theorem omitEmpty_arr_cons (k : String) (x : Json) (xs : List Json) :
    omitEmpty k (.arr (x :: xs)) = [(k, .arr (x :: xs))] := rfl

theorem normalize_cubeContainer (hd : Decoded q s c.spec) {component : String}
    {resources : ResourceRequirements} {w : Crd.WorkloadSpec}
    (hresources : decodeResources q (w.resources.getD {}) = some resources)
    {extra : List K8s.EnvVar}
    (hextra : extra.map (normalize q.value ∘ K8s.EnvVar.toJson) =
      (if component = "refresh-worker" then [Kopf.envVar "CUBEJS_REFRESH_WORKER" "true"]
        else []).map (normalize q.value))
    {container : Json} (h : Kopf.cubeContainer c.name s component w = some container) :
    normalize q.value (Go.cubeContainer c component resources extra).toJson =
      normalize q.value container := by
  unfold Kopf.cubeContainer at h
  simp only [Option.bind_eq_bind, Option.bind_eq_some_iff, Option.some.injEq] at h
  obtain ⟨secret, hsecret, rfl⟩ := h
  have hsecret' : c.spec.configurationSecret = secret := by
    rw [hd.configurationSecret, hsecret, Option.getD_some]
  unfold Go.cubeContainer K8s.Container.toJson Kopf.resources
  simp [optionalField, cubeImage_eq hd, pullPolicy_eq hd, cubeStoreHost_eq hd, hsecret', hextra,
    normalize_resources hresources]

theorem omitEmpty_resources_empty :
    omitEmpty "resources" (normalize q.value (K8s.resourcesJson {})) = [] := by
  simp [K8s.resourcesJson, K8s.amountsJson, omitEmpty, Json.isEmpty]

theorem normalize_modelLoader (hd : Decoded q s c.spec) :
    normalize q.value (Go.modelLoader c).toJson = normalize q.value (Kopf.modelLoader s) := by
  unfold Go.modelLoader K8s.Container.toJson Kopf.modelLoader
  simp [optionalField, cubeImage_eq hd, pullPolicy_eq hd, omitEmpty_resources_empty]

@[simp] theorem normalize_selector (entries : List (String × String)) :
    normalize q.value (K8s.selectorJson entries) = normalize q.value (Kopf.matchLabels entries) := by
  simp [K8s.selectorJson, Kopf.matchLabels]

/-! ## Documents -/

def isZero : Json → Bool
  | .num n => n = 0
  | _ => false

/-- A port without a target port of 0, which stands for none. -/
def dropUnsetTarget (port : Json) : Json :=
  .obj (port.fields.filter fun f => ¬(f.1 = "targetPort" ∧ isZero f.2))

/-- The ports of a Service, each without an unset target port. -/
def dropUnsetTargets : Json → Json
  | .arr ports => .arr (ports.map dropUnsetTarget)
  | j => j

def comparableField (f : String × Json) : String × Json :=
  if f.1 = "ports" then (f.1, dropUnsetTargets f.2) else f

/-- The document without what a struct writes although it is not set. -/
def comparable (m : Manifest) : Manifest :=
  { m with
    spec := .obj (m.spec.fields.map comparableField)
    status := none }

/-- The object of the Go controller, as comparable, has the same document as the one of
    the Kopf controller, empty fields aside and quantities read at their value. -/
def SameDocument (q : Quantities) (o : K8s.Object) (m : Manifest) : Prop :=
  normalize q.value (comparable o.manifest).toJson = normalize q.value m.toJson

theorem comparableField_of_ne {f : String × Json} (h : f.1 ≠ "ports") : comparableField f = f :=
  if_neg h

theorem isEmpty_comparableField (f : String × Json) :
    (comparableField f).2.isEmpty = f.2.isEmpty := by
  obtain ⟨k, v⟩ := f
  by_cases hk : k = "ports"
  · subst hk
    cases v with
    | arr ports => cases ports <;> rfl
    | _ => rfl
  · rw [comparableField_of_ne hk]

theorem map_comparableField_omitEmpty (k : String) (v : Json) :
    (omitEmpty k v).map comparableField = omitEmpty k (comparableField (k, v)).2 := by
  have hname : comparableField (k, v) = (k, (comparableField (k, v)).2) := by
    unfold comparableField
    split <;> rfl
  unfold omitEmpty
  rw [isEmpty_comparableField]
  by_cases hempty : v.isEmpty
  · simp [hempty]
  · simp [hempty, ← hname]

theorem comparable_service (o : K8s.Service) :
    (comparable (K8s.Object.service o).manifest).spec =
      .obj (omitEmpty "type" (.str o.type) ++ (omitEmpty "selector" (stringsJson o.selector) ++
        (omitEmpty "ports" (.arr (o.ports.map (dropUnsetTarget ∘ K8s.ServicePort.toJson))) ++
        omitEmpty "clusterIP" (.str o.clusterIP)))) := by
  simp [comparable, K8s.Object.manifest, K8s.Service.spec, map_comparableField_omitEmpty,
    comparableField, dropUnsetTargets]

/-- No other object has ports of its own. -/
theorem comparable_spec {m : Manifest} {fs : List (String × Json)} (hspec : m.spec = .obj fs)
    (hports : "ports" ∉ fs.map Prod.fst) : (comparable m).spec = m.spec := by
  have hmap : fs.map comparableField = fs := by
    refine (List.map_congr_left fun f hf => ?_).trans (List.map_id fs)
    exact comparableField_of_ne fun h => hports (h ▸ List.mem_map_of_mem hf)
  simp only [comparable, hspec, Json.fields_obj, hmap]

theorem comparable_deployment (d : K8s.Deployment) :
    (comparable (K8s.Object.deployment d).manifest).spec = d.spec :=
  comparable_spec rfl (by simp)

theorem comparable_statefulSet (o : K8s.StatefulSet) :
    (comparable (K8s.Object.statefulSet o).manifest).spec = o.spec :=
  comparable_spec rfl (by simp)

theorem comparable_podDisruptionBudget (p : K8s.PodDisruptionBudget) :
    (comparable (K8s.Object.podDisruptionBudget p).manifest).spec = p.spec :=
  comparable_spec rfl (by simp)

theorem comparable_networkPolicy (p : K8s.NetworkPolicy) :
    (comparable (K8s.Object.networkPolicy p).manifest).spec = p.spec :=
  comparable_spec rfl (by simp)

@[simp] theorem metadata_labels (o : K8s.ObjectMeta) : o.metadata.labels.getD [] = o.labels := by
  unfold K8s.ObjectMeta.metadata
  dsimp only
  split <;> simp_all

@[simp] theorem metadata_annotations (o : K8s.ObjectMeta) :
    o.metadata.annotations.getD [] = o.annotations := by
  unfold K8s.ObjectMeta.metadata
  dsimp only
  split <;> simp_all

/-- Documents agree when kind, metadata and spec do; a map of labels or annotations
    that is absent counts as empty. -/
theorem sameDocument_of {o : K8s.Object} {m : Manifest} (hkind : o.manifest.kind = m.kind)
    (hname : o.manifest.metadata.name = m.metadata.name)
    (hns : o.manifest.metadata.ns = m.metadata.ns)
    (hlabels : o.manifest.metadata.labels.getD [] = m.metadata.labels.getD [])
    (hannotations : o.manifest.metadata.annotations.getD [] = m.metadata.annotations.getD [])
    (howner : o.manifest.metadata.ownerReferences = m.metadata.ownerReferences)
    (hspec : normalize q.value (comparable o.manifest).spec = normalize q.value m.spec)
    (hstatus : m.status = none) : SameDocument q o m := by
  have hstrings (k : String) (o : Option (List (String × String))) :
      normalizeFields q.value (optionalField k (o.map stringsJson)) =
        omitEmpty k (normalize q.value (stringsJson (o.getD []))) :=
    normalizeFields_optionalField k stringsJson o [] rfl
  have hmetadata : (comparable o.manifest).metadata = o.manifest.metadata := rfl
  have hcomparable : (comparable o.manifest).kind = o.manifest.kind := rfl
  have hdropped : (comparable o.manifest).status = none := rfl
  unfold SameDocument Manifest.toJson Manifest.fields Metadata.fields
  simp only [hmetadata, hcomparable, hdropped, hstatus, Json.normalize_obj, Json.normalizeFields_cons,
    Json.normalizeFields_append, hstrings, hkind, hname, hns, hlabels, hannotations, howner, hspec]

@[simp] theorem labels_eq (component : String) :
    Go.labels c component = Kopf.labels c.name component := rfl

theorem sameDocument_deployment (hd : Decoded q s c.spec) {component : String} {count : ℤ}
    {resources : ResourceRequirements} {w : Crd.WorkloadSpec}
    (hresources : decodeResources q (w.resources.getD {}) = some resources)
    (hcount : count = Kopf.replicas w.replicas (if component = "api" then 2 else 1))
    {extra : List K8s.EnvVar}
    (hextra : extra.map (normalize q.value ∘ K8s.EnvVar.toJson) =
      (if component = "refresh-worker" then [Kopf.envVar "CUBEJS_REFRESH_WORKER" "true"]
        else []).map (normalize q.value))
    {m : Manifest} (h : Kopf.deployment c.name c.ns s component w = some m) :
    SameDocument q (K8s.Object.deployment (Go.deployment c component count
      (Go.cubeContainer c component resources extra))) m := by
  unfold Kopf.deployment at h
  simp only [Option.bind_eq_bind, Option.bind_eq_some_iff, Option.some.injEq] at h
  obtain ⟨container, hcontainer, model, hmodel, rfl⟩ := h
  have hmodel' : c.spec.modelConfigMap = model := by
    rw [hd.modelConfigMap, hmodel, Option.getD_some]
  refine sameDocument_of rfl rfl rfl (by simp [K8s.Object.manifest, Go.deployment])
    (by simp [K8s.Object.manifest, Go.deployment]) rfl ?_ rfl
  rw [comparable_deployment]
  simp [K8s.Deployment.spec, Go.deployment, K8s.PodTemplateSpec.toJson, K8s.PodSpec.toJson,
    Kopf.workloadSpec, hcount, normalize_cubeContainer hd hresources hextra hcontainer,
    normalize_modelLoader hd,
    Go.podSecurityContext, Kopf.podSecurityContext, Go.modelVolumes, K8s.Volume.toJson,
    K8s.VolumeSource.field, optionalField, hmodel']

/-! ## The store -/

/-- The two storage configurations, entry by entry. -/
structure StorageAgrees (q : Quantities) (g : Go.StorageConfiguration)
    (k : Kopf.StorageConfiguration) : Prop where
  env : g.env.map (normalize q.value ∘ K8s.EnvVar.toJson) = k.env.map (normalize q.value)
  envFrom : g.envFrom.map K8s.envFromJson = k.envFrom
  volumes : g.volumes.map (normalize q.value ∘ K8s.Volume.toJson) = k.volumes.map (normalize q.value)
  mounts : g.mounts.map K8s.VolumeMount.toJson = k.mounts

/-- The scratch volume of a size that parses. -/
theorem scratch_agrees (hd : Decoded q s c.spec) {store : Crd.CubeStoreSpec}
    (hstore : s.cubeStore = some store)
    (hscratch : Kopf.scratchSize s ≠ "" → (q.value (Kopf.scratchSize s)).isSome) :
    ∃ limit, Go.scratchLimit q c = some limit ∧
      normalize q.value (K8s.Volume.toJson { name := "scratch", source := .emptyDir limit }) =
        normalize q.value (.obj [("name", .str "scratch"), ("emptyDir", Kopf.emptyDir store)]) := by
  have hsize : (store.scratch.getD {}).size.getD "" = Kopf.scratchSize s := by
    rw [Kopf.scratchSize, hstore, Option.getD_some]
  unfold Go.scratchLimit Kopf.emptyDir
  rw [hd.scratchSize, ← Kopf.scratchSize, hsize]
  by_cases h : Kopf.scratchSize s = ""
  · exact ⟨none, by simp [h], by simp [h, K8s.Volume.toJson, K8s.VolumeSource.field, optionalField]⟩
  · obtain ⟨v, hv⟩ := Option.isSome_iff_exists.mp (hscratch h)
    refine ⟨some v, by simp [h, hv], ?_⟩
    simp [h, K8s.Volume.toJson, K8s.VolumeSource.field, optionalField, Json.normalize_quantity _ hv]

theorem storageConfiguration_agrees (hd : Decoded q s c.spec)
    (hstorage : Kopf.StorageValid (Kopf.remoteStorage s))
    (hscratch : Kopf.scratchSize s ≠ "" → (q.value (Kopf.scratchSize s)).isSome) :
    ∃ g k, Go.storageConfiguration q c = some g ∧ Kopf.storageConfiguration s = some k ∧
      StorageAgrees q g k := by
  obtain ⟨store, storage, hstore, hremote, hcases⟩ := hstorage.cases
  obtain ⟨limit, hlimit, hvolume⟩ := scratch_agrees hd hstore hscratch
  have hgo : c.spec.cubeStore.remoteStorage = decodeRemoteStorage storage := by
    rw [hd.remoteStorage, hstore, Option.getD_some, hremote, Option.getD_some]
  unfold Go.storageConfiguration Kopf.storageConfiguration
  rw [hgo, decodeRemoteStorage, hlimit, hstore]
  rcases hcases with ⟨htype, pv, claim, hpv, hclaim⟩ | ⟨htype, s3, bucket, region, hs3, hb, hr⟩
  · refine ⟨_, _, by simp [htype, hpv]; rfl, by simp [hremote, htype, hpv, hclaim]; rfl, ?_⟩
    constructor
    · simp
    · rfl
    · simp [hvolume]
      simp [K8s.Volume.toJson, K8s.VolumeSource.field, hclaim]
    · simp
  · refine ⟨_, _, by simp [htype, hs3]; rfl, by simp [hremote, htype, hs3, hb, hr]; rfl, ?_⟩
    constructor
    · simp [hb, hr]
    · simp
      split <;> simp
    · simp [hvolume]
    · simp

theorem storeContainer_agrees (hd : Decoded q s c.spec)
    (hstorage : Kopf.StorageValid (Kopf.remoteStorage s))
    (hscratch : Kopf.scratchSize s ≠ "" → (q.value (Kopf.scratchSize s)).isSome)
    (role : String) {goEnv : List K8s.EnvVar} {kopfEnv : List Json}
    (henv : goEnv.map (normalize q.value ∘ K8s.EnvVar.toJson) = kopfEnv.map (normalize q.value)) :
    ∃ container volumes container' volumes',
      Go.storeContainer q c role goEnv = some (container, volumes) ∧
      Kopf.storeContainer s role kopfEnv = some (container', volumes') ∧
      normalize q.value container.toJson = normalize q.value container' ∧
      volumes.map (normalize q.value ∘ K8s.Volume.toJson) = volumes'.map (normalize q.value) := by
  obtain ⟨g, k, hg, hk, hagrees⟩ := storageConfiguration_agrees hd hstorage hscratch
  obtain ⟨store, -, hstore, -, -⟩ := hstorage.cases
  unfold Go.storeContainer Kopf.storeContainer
  rw [hg, hk, hstore]
  refine ⟨_, _, _, _, rfl, rfl, ?_, hagrees.volumes⟩
  have hresources := hd.storeResources
  have himage := storeImage_eq hd
  rw [hstore, Option.getD_some] at hresources himage
  simp [K8s.Container.toJson, optionalField, himage, pullPolicy_eq hd, henv, hagrees.env,
    ← hagrees.envFrom, ← hagrees.mounts, normalize_resources hresources, Kopf.resources]

theorem normalize_storePod {container : K8s.Container} {volumes : List K8s.Volume}
    {container' : Json} {volumes' : List Json}
    (hcontainer : normalize q.value container.toJson = normalize q.value container')
    (hvolumes : volumes.map (normalize q.value ∘ K8s.Volume.toJson) =
      volumes'.map (normalize q.value)) :
    normalize q.value (Go.storePod container volumes).toJson =
      normalize q.value (.obj [("securityContext", Kopf.podSecurityContext),
        ("containers", .arr [container']), ("volumes", .arr volumes')]) := by
  simp [Go.storePod, K8s.PodSpec.toJson, hcontainer, hvolumes, Go.podSecurityContext,
    Kopf.podSecurityContext]

/-- The single store's Deployment. -/
theorem singleStore_agrees (hd : Decoded q s c.spec)
    (hstorage : Kopf.StorageValid (Kopf.remoteStorage s))
    (hscratch : Kopf.scratchSize s ≠ "" → (q.value (Kopf.scratchSize s)).isSome) :
    ∃ d m, Go.singleStoreDeployment q c = some d ∧
      Kopf.storeWorkload c.name c.ns s "cubestore" 1 "cubestore" [] false = some m ∧
      SameDocument q (K8s.Object.deployment d) m := by
  obtain ⟨container, volumes, container', volumes', hgo, hkopf, hcontainer, hvolumes⟩ :=
    storeContainer_agrees hd hstorage hscratch "cubestore" (show List.map _ [] = List.map _ [] from rfl)
  unfold Go.singleStoreDeployment Kopf.storeWorkload
  rw [hgo, hkopf]
  have hname : c.name ++ "-cubestore" = c.name ++ "-" ++ "cubestore" := by
    rw [String.append_assoc]
    rfl
  refine ⟨_, _, rfl, rfl, sameDocument_of rfl hname rfl (metadata_labels _)
    (metadata_annotations _) rfl ?_ rfl⟩
  rw [comparable_deployment]
  simp [K8s.Deployment.spec, K8s.PodTemplateSpec.toJson, Kopf.workloadSpec,
    normalize_storePod hcontainer hvolumes]

/-- A StatefulSet of the clustered store. -/
theorem statefulStore_agrees (hd : Decoded q s c.spec)
    (hstorage : Kopf.StorageValid (Kopf.remoteStorage s))
    (hscratch : Kopf.scratchSize s ≠ "" → (q.value (Kopf.scratchSize s)).isSome)
    (component role : String) (count : ℤ) {goEnv : List K8s.EnvVar} {kopfEnv : List Json}
    (henv : goEnv.map (normalize q.value ∘ K8s.EnvVar.toJson) = kopfEnv.map (normalize q.value)) :
    ∃ container volumes m, Go.storeContainer q c role goEnv = some (container, volumes) ∧
      Kopf.storeWorkload c.name c.ns s component count role kopfEnv true = some m ∧
      SameDocument q
        (K8s.Object.statefulSet (Go.stateful c component count container volumes)) m := by
  obtain ⟨container, volumes, container', volumes', hgo, hkopf, hcontainer, hvolumes⟩ :=
    storeContainer_agrees hd hstorage hscratch role henv
  unfold Kopf.storeWorkload
  rw [hkopf]
  refine ⟨_, _, _, hgo, rfl, sameDocument_of rfl rfl rfl (metadata_labels _)
    (metadata_annotations _) rfl ?_ rfl⟩
  rw [comparable_statefulSet]
  simp [Go.stateful, K8s.StatefulSet.spec, K8s.PodTemplateSpec.toJson, Kopf.workloadSpec,
    normalize_storePod hcontainer hvolumes]

theorem routerEnv_agrees (c : CubeCluster) (addresses : String) :
    (Go.routerEnv c addresses).map (normalize q.value ∘ K8s.EnvVar.toJson) =
      (Kopf.routerEnv c.name addresses).map (normalize q.value) := by
  simp [Go.routerEnv, Kopf.routerEnv]

theorem workerEnv_agrees (c : CubeCluster) (addresses : String) :
    (Go.workerEnv c addresses).map (normalize q.value ∘ K8s.EnvVar.toJson) =
      (Kopf.workerEnv c.name addresses).map (normalize q.value) := by
  have hpodName : normalize q.value
        (K8s.EnvVar.toJson { name := "POD_NAME", fieldPath := some "metadata.name" }) =
      normalize q.value (.obj [("name", .str "POD_NAME"),
        ("valueFrom", .obj [("fieldRef", .obj [("fieldPath", .str "metadata.name")])])]) := by
    simp [K8s.EnvVar.toJson, optionalField]
  unfold Go.workerEnv Kopf.workerEnv
  simp only [List.map_cons, List.map_nil, Function.comp_apply, hpodName, normalize_envVar]

theorem workerAddresses_agree {count : ℤ} (hcount : Go.replicas c.spec.cubeStore.workers 2 = count)
    (hpos : 1 ≤ count) :
    Go.workerAddresses c = some (Kopf.workerAddresses c.name count) := by
  unfold Go.workerAddresses
  rw [hcount]
  dsimp only
  rw [if_neg (by omega)]
  rfl

/-- A service of the store. -/
theorem storeService_agrees (component : String) (headless : Bool) {ports : List K8s.ServicePort}
    {ports' : List Json}
    (hports : ports.map (normalize q.value ∘ dropUnsetTarget ∘ K8s.ServicePort.toJson) =
      ports'.map (normalize q.value)) :
    SameDocument q
      (K8s.Object.service (Go.storeService c component (Go.labels c component) headless ports))
      (Kopf.storeService c.name c.ns component ports' headless) := by
  refine sameDocument_of rfl rfl rfl (metadata_labels _) (metadata_annotations _) rfl ?_ rfl
  rw [comparable_service]
  cases headless <;> simp [Go.storeService, Kopf.storeService, hports]

theorem dropUnsetTarget_servicePort (name : String) (port nodePort : ℤ) :
    dropUnsetTarget (K8s.ServicePort.toJson { name := name, port := port, nodePort := nodePort }) =
      .obj ([("name", .str name), ("port", .num port)] ++ K8s.omitZero "nodePort" nodePort) := by
  unfold K8s.ServicePort.toJson K8s.omitZero
  by_cases hnode : nodePort = 0 <;> simp [dropUnsetTarget, isZero, hnode]

@[simp] theorem normalize_servicePort (name : String) (port : ℤ) :
    normalize q.value (dropUnsetTarget (K8s.ServicePort.toJson { name := name, port := port })) =
      normalize q.value (Kopf.servicePort name port) := by
  rw [dropUnsetTarget_servicePort]
  simp [Kopf.servicePort, K8s.omitZero]

/-! ## The common objects -/

theorem apiService_agrees (hd : Decoded q s c.spec) :
    SameDocument q (K8s.Object.service (Go.apiService c)) (Kopf.apiService c.name c.ns s) := by
  refine sameDocument_of rfl rfl rfl (metadata_labels _) ?_ rfl ?_ rfl
  · rw [K8s.Object.manifest, metadata_annotations]
    simp only [Go.apiService, hd.service]
    rfl
  · have hport : c.spec.service.nodePort = (s.service.getD {}).nodePort.getD 0 := by
      rw [hd.service]
      rfl
    have htype : c.spec.service.type = (s.service.getD {}).type.getD "" := by
      rw [hd.service]
      rfl
    rw [comparable_service]
    simp only [Go.apiService, Kopf.apiService, hport, htype, Kopf.orDefault, List.map_cons,
      List.map_nil, Function.comp_apply, dropUnsetTarget_servicePort]
    simp [K8s.omitZero]

theorem apiPDB_agrees :
    SameDocument q (K8s.Object.podDisruptionBudget (Go.apiPDB c)) (Kopf.apiPDB c.name c.ns) := by
  refine sameDocument_of rfl rfl rfl rfl rfl rfl ?_ rfl
  rw [comparable_podDisruptionBudget]
  simp [K8s.PodDisruptionBudget.spec, Go.apiPDB, Kopf.apiPDB]

theorem networkPolicy_agrees :
    SameDocument q (K8s.Object.networkPolicy (Go.networkPolicy c))
      (Kopf.networkPolicy c.name c.ns) := by
  refine sameDocument_of rfl rfl rfl rfl rfl rfl ?_ rfl
  rw [comparable_networkPolicy]
  simp [K8s.NetworkPolicy.spec, Go.networkPolicy, Kopf.networkPolicy,
    K8s.NetworkPolicyIngressRule.toJson, K8s.peerJson, K8s.policyPortJson]

/-- The two Deployments of Cube itself. -/
theorem deployments_agree (hd : Decoded q s c.spec) (hvalid : Kopf.Valid q s) :
    ∃ api refresh, Kopf.deployment c.name c.ns s "api" (s.api.getD {}) = some api ∧
      Kopf.deployment c.name c.ns s "refresh-worker" (s.refreshWorker.getD {}) = some refresh ∧
      SameDocument q (.deployment (Go.apiDeployment c)) api ∧
      SameDocument q (.deployment (Go.refreshDeployment c)) refresh := by
  have hsome {o : Option String} (h : o.getD "" ≠ "") : ∃ v, o = some v := by
    cases o with
    | none => simp at h
    | some v => exact ⟨v, rfl⟩
  obtain ⟨model, hmodel⟩ := hsome hvalid.model
  obtain ⟨secret, hsecret⟩ := hsome hvalid.configuration
  have hdeployment (component : String) (w : Crd.WorkloadSpec) :
      ∃ m, Kopf.deployment c.name c.ns s component w = some m := by
    simp [Kopf.deployment, Kopf.cubeContainer, hmodel, hsecret]
  obtain ⟨api, hapi⟩ := hdeployment "api" (s.api.getD {})
  obtain ⟨refresh, hrefresh⟩ := hdeployment "refresh-worker" (s.refreshWorker.getD {})
  refine ⟨api, refresh, hapi, hrefresh, ?_, ?_⟩
  · exact sameDocument_deployment hd hd.apiResources (by rw [hd.apiReplicas]; rfl) rfl hapi
  · exact sameDocument_deployment hd hd.refreshResources (by rw [hd.refreshReplicas]; rfl)
      (by simp) hrefresh

/-! ## The whole list -/

/-- The objects of a valid spec, in order. -/
theorem objects_agree (hd : Decoded q s c.spec) (hvalid : Kopf.Valid q s) :
    ∃ os ms, Go.objects q c = some os ∧ Kopf.desiredObjects c.name c.ns s = some ms ∧
      List.Forall₂ (SameDocument q) os ms := by
  have hscratch : Kopf.scratchSize s ≠ "" → (q.value (Kopf.scratchSize s)).isSome := by
    intro hsize
    obtain ⟨v, hv, -⟩ := hvalid.scratch hsize
    simp [hv]
  have hmode := storeMode_eq hd
  obtain ⟨api, refresh, hapi, hrefresh, hapi', hrefresh'⟩ := deployments_agree hd hvalid
  unfold Go.objects Kopf.desiredObjects
  rw [hmode, hapi, hrefresh]
  by_cases hclustered : (s.cubeStore.getD {}).mode = some "clustered"
  · have hm : Kopf.storeMode s = "clustered" := by simp [Kopf.storeMode, hclustered]
    have hne : ¬("clustered" = "single") := by decide
    obtain ⟨store, -, hstore, -, -⟩ := hvalid.storage.cases
    have hworkers : 1 ≤ Kopf.replicas store.workers 2 := by
      have := hvalid.workers (by simp [hclustered])
      rwa [hstore, Option.getD_some] at this
    have hcount : Go.replicas c.spec.cubeStore.workers 2 = Kopf.replicas store.workers 2 := by
      rw [hd.workers, hstore, Option.getD_some]
      rfl
    obtain ⟨_, _, router, hrouter, hrouter', hsameRouter⟩ :=
      statefulStore_agrees hd hvalid.storage hscratch "cubestore-router" "router" 1
        (routerEnv_agrees c (Kopf.workerAddresses c.name (Kopf.replicas store.workers 2)))
    obtain ⟨_, _, worker, hworker, hworker', hsameWorker⟩ :=
      statefulStore_agrees hd hvalid.storage hscratch "cubestore-worker" "worker"
        (Kopf.replicas store.workers 2)
        (workerEnv_agrees c (Kopf.workerAddresses c.name (Kopf.replicas store.workers 2)))
    -- both controllers list the addresses of the same number of workers
    rw [Go.routerStatefulSet, Go.workerStatefulSet, workerAddresses_agree hcount hworkers, hstore]
    simp only [hm, Option.bind_eq_bind, Option.bind_some, hrouter, hrouter', hworker, hworker',
      hcount, if_neg hne, reduceIte]
    refine ⟨_, _, rfl, rfl, ?_⟩
    refine .cons (apiService_agrees hd) (.cons hapi' (.cons hrefresh' (.cons apiPDB_agrees
      (.cons networkPolicy_agrees (.cons ?_ (.cons ?_ (.cons hsameRouter (.cons hsameWorker
        .nil))))))))
    · exact storeService_agrees "cubestore-router" false (by simp)
    · exact storeService_agrees "cubestore-worker" true (by simp)
  · have hm : Kopf.storeMode s = "single" := by simp [Kopf.storeMode, hclustered]
    obtain ⟨d, m, hgo, hkopf, hstore⟩ := singleStore_agrees hd hvalid.storage hscratch
    have hne : ¬("single" = "clustered") := by decide
    simp only [hm, Option.bind_eq_bind, Option.bind_some, hgo, hkopf, if_neg hne, reduceIte]
    refine ⟨_, _, rfl, rfl, ?_⟩
    refine .cons (apiService_agrees hd) (.cons hapi' (.cons hrefresh' (.cons apiPDB_agrees
      (.cons networkPolicy_agrees (.cons ?_ (.cons hstore .nil))))))
    exact storeService_agrees "cubestore" false (by simp)

/-! ## Readiness -/

/-- The answers of an API server on which every workload is there as `live` has it. -/
def workloads (live : Key → Live) : (call : Call) → Answer call
  | .act _ => .ok ()
  | .getCluster _ _ => .error .notFound
  | .get k => .ok (live k)
  | .httpGet _ => .failed ""
  | .now => 0

section readiness

variable {live : Key → Live}

theorem eval_readWorkload (kind : Kind) (component : String) :
    (Go.readWorkload c kind component).run.eval (workloads live) =
      .ok (Go.readyReplicas (live ⟨kind, c.ns, c.name ++ "-" ++ component⟩)) := rfl

theorem eval_ready (kind : Kind) (name ns component : String) :
    (Kopf.ready kind name component ns).run.eval (workloads live) =
      .ok (Go.readyReplicas (live ⟨kind, ns, name ++ "-" ++ component⟩)) := rfl

theorem storeReadiness_agrees (hd : Decoded q s c.spec) (hstore : ∃ store, s.cubeStore = some store)
    (live : Key → Live) :
    ∃ r, (Go.storeAvailable c).run.eval (workloads live) = .ok r ∧
      (Kopf.storeReadiness s c.name c.ns).run.eval (workloads live) = .ok r := by
  obtain ⟨store, hstore⟩ := hstore
  have hworkers : Go.replicas c.spec.cubeStore.workers 2 = Kopf.replicas store.workers 2 := by
    rw [hd.workers, hstore, Option.getD_some]
    rfl
  unfold Go.storeAvailable Kopf.storeReadiness
  rw [storeMode_eq hd, hstore]
  split
  · refine ⟨_, by simp only [Program.eval_attempt_bind, eval_readWorkload]; rfl, ?_⟩
    simp only [Option.elim_some, Program.eval_attempt_bind, eval_ready, Attempt.run_ofExcept,
      Program.eval_ret, hworkers]
    rfl
  · refine ⟨_, by simp only [Program.eval_attempt_bind, eval_readWorkload]; rfl, ?_⟩
    simp only [Program.eval_attempt_bind, eval_ready]
    rfl

/-- For any ready replicas, both controllers count, judge and report alike. -/
theorem readiness_agrees (hd : Decoded q s c.spec) (hstore : ∃ store, s.cubeStore = some store)
    (live : Key → Live) :
    ∃ r, (Go.workloadsAvailable c).run.eval (workloads live) = .ok r ∧
      (Kopf.workloadReadiness s c.name c.ns).run.eval (workloads live) = .ok r := by
  obtain ⟨⟨ready, part⟩, hgo, hkopf⟩ := storeReadiness_agrees hd hstore live
  have hapi : Go.replicas c.spec.api.replicas 2 = Kopf.replicas (s.api.getD {}).replicas 2 := by
    rw [hd.apiReplicas]
    rfl
  have hrefresh : Go.replicas c.spec.refreshWorker.replicas 1 =
      Kopf.replicas (s.refreshWorker.getD {}).replicas 1 := by
    rw [hd.refreshReplicas]
    rfl
  unfold Go.workloadsAvailable Kopf.workloadReadiness
  refine ⟨_, by simp only [Program.eval_attempt_bind, eval_readWorkload, hgo]; rfl, ?_⟩
  simp only [Program.eval_attempt_bind, eval_ready, hkopf, hapi, hrefresh]
  rfl

end readiness

/-! ## The same system -/

/-- For a spec that validation accepts, the two controllers want the same objects in
    the same order, and judge the live workloads alike.  The objects of the Go controller
    are compared with the kind that `reconcileObject` sets, and without a status and
    target ports of 0. -/
theorem controllers_build_same_system (hc : decodeSpec q s = some c.spec)
    (haccepts : ∃ tr, Exec (Kopf.validateReferences q s c.ns).run tr (.ok ())) :
    (∃ os ms, Go.objects q c = some os ∧ Kopf.desiredObjects c.name c.ns s = some ms ∧
      List.Forall₂ (SameDocument q) os ms) ∧
    ∀ live : Key → Live, ∃ r, (Go.workloadsAvailable c).run.eval (workloads live) = .ok r ∧
      (Kopf.workloadReadiness s c.name c.ns).run.eval (workloads live) = .ok r := by
  obtain ⟨tr, htr⟩ := haccepts
  obtain ⟨hvalid, -⟩ := Kopf.exec_validateReferences_ok htr
  obtain ⟨store, -, hstore, -, -⟩ := hvalid.storage.cases
  have hd := decoded_of_decodeSpec hc
  exact ⟨objects_agree hd hvalid, readiness_agrees hd ⟨store, hstore⟩⟩

/-- The stored spec of `Go.smallCluster`. -/
def smallSpec : Crd.Spec where
  modelConfigMap := some "model"
  configurationSecret := some "configuration"
  cubeStore := some {
    remoteStorage := some {
      type := some "persistentVolume"
      persistentVolume := some { existingClaim := some "claim" } } }

theorem decodeSpec_smallSpec :
    decodeSpec digitQuantities smallSpec = some Go.smallCluster.spec := rfl

/-- Whether the first port of a Service has a target port. -/
def hasTargetPort (j : Json) : Option Bool := do
  let spec ← j.get? "spec"
  let .arr (port :: _) ← spec.get? "ports" | none
  some (port.get? "targetPort").isSome

/-- Both controllers accept the spec, and the documents differ as `objects` returns them:
    these have no kind, the target port of a Service is 0, and the status of the
    disruption budget has counters.  Each of the three alone makes a difference. -/
theorem written_documents_differ :
    goAccepts digitQuantities Go.smallCluster (fun _ => true) ∧
    kopfAccepts digitQuantities smallSpec "default" (fun _ => true) ∧
    ∃ os ms, Go.objects digitQuantities Go.smallCluster = some os ∧
      Kopf.desiredObjects "cube" "default" smallSpec = some ms ∧
      ¬List.Forall₂ (fun o m => normalize digitQuantities.value o.toJson =
        normalize digitQuantities.value m.toJson) os ms ∧
      ¬List.Forall₂ (fun o m => normalize digitQuantities.value (.obj (comparable o.manifest).fields) =
        normalize digitQuantities.value m.toJson) os ms ∧
      ¬List.Forall₂ (fun o m => normalize digitQuantities.value
        { comparable o.manifest with spec := o.manifest.spec }.toJson =
          normalize digitQuantities.value m.toJson) os ms ∧
      ¬List.Forall₂ (fun o m => normalize digitQuantities.value
        { comparable o.manifest with status := o.manifest.status }.toJson =
          normalize digitQuantities.value m.toJson) os ms := by
  refine ⟨rfl, rfl, _, _, rfl, rfl, ?_, ?_, ?_, ?_⟩
  · intro h
    cases h with
    | cons hservice _ =>
      have hkind := congrArg (fun j : Json => (j.get? "kind").isSome) hservice
      exact absurd hkind (by decide)
  · intro h
    cases h with
    | cons hservice _ =>
      have hkind := congrArg (fun j : Json => (j.get? "kind").isSome) hservice
      exact absurd hkind (by decide)
  · intro h
    cases h with
    | cons hservice _ =>
      have htarget := congrArg hasTargetPort hservice
      exact absurd htarget (by decide)
  · intro h
    -- The disruption budget is the fourth object.
    have hbudget := List.forall₂_iff_get.mp h
    have hstatus := congrArg (fun j : Json => (j.get? "status").isSome)
      (hbudget.2 3 (by decide) (by decide))
    exact absurd hstatus (by decide)

/-- A clustered store on S3 with credentials and a sized scratch volume. -/
def clusteredS3 : Crd.Spec where
  modelConfigMap := some "model"
  configurationSecret := some "configuration"
  api := some { replicas := some 3 }
  cubeStore := some {
    mode := some "clustered"
    remoteStorage := some {
      type := some "s3"
      s3 := some { bucket := some "bucket", region := some "region", secretRef := some "keys" } }
    scratch := some { size := some "1024" } }
  service := some { type := some "NodePort", nodePort := some 30400 }

/-- The cluster the Go controller reads for `clusteredS3`. -/
def clusteredS3Cluster : CubeCluster where
  name := "cube"
  ns := "default"
  uid := "uid"
  generation := 1
  spec := (decodeSpec digitQuantities clusteredS3).getD {}

theorem controllers_build_same_system_clusteredS3 :
    (∃ os ms, Go.objects digitQuantities clusteredS3Cluster = some os ∧
      Kopf.desiredObjects "cube" "default" clusteredS3 = some ms ∧
      List.Forall₂ (SameDocument digitQuantities) os ms) ∧
    ∀ live : Key → Live, ∃ r,
      (Go.workloadsAvailable clusteredS3Cluster).run.eval (workloads live) = .ok r ∧
      (Kopf.workloadReadiness clusteredS3 "cube" "default").run.eval (workloads live) = .ok r :=
  controllers_build_same_system (c := clusteredS3Cluster) rfl
    ((Program.exec_eval (lookups fun _ => true) _).imp fun _ h => h.1)

end CubeOperator
