import CubeOperator.Go.Readiness
import CubeOperator.Kopf.Pass
import CubeOperator.Kube.Names
import CubeOperator.Parity.Objects

/-! # The names of the desired objects

    A CubeCluster may be named by any DNS-1123 subdomain.  Its Services, the pods of its
    StatefulSets and the labels of its objects are named after it, under rules of their
    own.  Neither controller looks at the name, so an accepted cluster gets well-formed
    objects when its name leaves room for what is added to it. -/

namespace CubeOperator

open Interaction Kube V1alpha1

variable {q : Quantities} {c : CubeCluster} {name ns : String} {clustered : Bool} {workers : ℤ}

/-! ## The documents -/

/-- The label values besides the name of the cluster. -/
def labelTexts : List String :=
  ["cube", "true", "api", "refresh-worker", "cubestore", "cubestore-router", "cubestore-worker"]

/-- Every label value of the document is the name of the cluster or one of these. -/
def Labelled (name : String) (m : Manifest) : Prop :=
  ∀ v ∈ m.labelValues, v = name ∨ v ∈ labelTexts

/-- The values of the labels of a component. -/
theorem values_labels {component : String} (h : component ∈ labelTexts) :
    ∀ v ∈ (Kopf.labels name component).map Prod.snd, v = name ∨ v ∈ labelTexts := by
  have hstore : ∀ v ∈ (if component.startsWith "cubestore" then
      [("platform.cube.dev/store", "true")] else []).map Prod.snd, v ∈ labelTexts := by
    split
    · decide
    · simp
  intro v hv
  simp only [Kopf.labels, List.map_append, List.map_cons, List.map_nil, List.mem_append,
    List.mem_cons, List.not_mem_nil, or_false] at hv
  rcases hv with (rfl | rfl | rfl | rfl) | hv
  · exact .inr (by decide)
  · exact .inl rfl
  · exact .inr h
  · exact .inr (by decide)
  · exact .inr (hstore v hv)

/-- A StatefulSet of the store: the router, or the workers. -/
def IsStatefulSet (name : String) (workers : ℤ) (m : Manifest) : Prop :=
  (m.metadata.name = name ++ "-cubestore-router" ∧ m.replicas = 1) ∨
    (m.metadata.name = name ++ "-cubestore-worker" ∧ m.replicas = workers)

section documents

theorem lookup_omitEmpty (k k' : String) (v : Json) :
    Json.lookup k (Json.omitEmpty k' v) =
      if k' = k ∧ v.isEmpty = false then some v else none := by
  unfold Json.omitEmpty
  cases v.isEmpty <;> simp

theorem fieldOf_cons (j : Json) (k : String) (ks : List String) :
    fieldOf j (k :: ks) = (Json.lookup k j.fields).bind fun v => fieldOf v ks := rfl

@[simp] theorem fieldOf_nil (j : Json) : fieldOf j [] = some j := rfl

@[simp] theorem texts_nonempty (es : List (String × String)) :
    texts (if (stringsJson es).isEmpty = false then some (stringsJson es) else none) =
      es.map Prod.snd := by
  cases es with
  | nil => rfl
  | cons e es => exact texts_stringsJson _

/-- The labels themselves are no maps of labels. -/
@[simp] theorem texts_lookup (k : String) (es : List (String × String)) :
    texts (Json.lookup k (stringsJson es).fields) = [] := by
  induction es with
  | nil => rfl
  | cons e es ih =>
    by_cases h : e.1 = k
    · simp [stringsJson, h, texts, Json.fields]
    · simpa [stringsJson, h] using ih

@[simp] theorem texts_selectorJson (es : List (String × String)) :
    texts (some (K8s.selectorJson es)) = [] := by
  cases es <;> rfl

@[simp] theorem texts_matchLabels (es : List (String × String)) :
    texts (Json.lookup "matchLabels" (K8s.selectorJson es).fields) = es.map Prod.snd := by
  cases es with
  | nil => rfl
  | cons e es => exact texts_stringsJson (e :: es)

theorem labelValues_service (s : K8s.Service) :
    (K8s.Object.service s).manifest.labelValues =
      s.objectMeta.labels.map Prod.snd ++ s.selector.map Prod.snd := by
  have hmatch : texts ((if (stringsJson s.selector).isEmpty = false then
      some (stringsJson s.selector) else none).bind fun v =>
        Json.lookup "matchLabels" v.fields) = [] := by
    split
    · exact texts_lookup _ _
    · rfl
  simp [Manifest.labelValues, K8s.Object.manifest, K8s.Service.spec, fieldOf_cons,
    Json.lookup_append, lookup_omitEmpty, items, hmatch]

theorem labelValues_deployment (d : K8s.Deployment) :
    (K8s.Object.deployment d).manifest.labelValues = d.objectMeta.labels.map Prod.snd ++
      (d.selector.map Prod.snd ++ d.template.labels.map Prod.snd) := by
  simp [Manifest.labelValues, K8s.Object.manifest, K8s.Deployment.spec, fieldOf_cons,
    lookup_omitEmpty, items, K8s.PodTemplateSpec.toJson]

theorem labelValues_statefulSet (s : K8s.StatefulSet) :
    (K8s.Object.statefulSet s).manifest.labelValues = s.objectMeta.labels.map Prod.snd ++
      (s.selector.map Prod.snd ++ s.template.labels.map Prod.snd) := by
  simp [Manifest.labelValues, K8s.Object.manifest, K8s.StatefulSet.spec, fieldOf_cons,
    lookup_omitEmpty, items, K8s.PodTemplateSpec.toJson]

theorem labelValues_podDisruptionBudget (p : K8s.PodDisruptionBudget) :
    (K8s.Object.podDisruptionBudget p).manifest.labelValues =
      p.objectMeta.labels.map Prod.snd ++ p.selector.map Prod.snd := by
  simp [Manifest.labelValues, K8s.Object.manifest, K8s.PodDisruptionBudget.spec, fieldOf_cons,
    items]

end documents

/-! ## The Go controller -/

namespace Go

theorem labelled_service {s : K8s.Service} (component : String) (h : component ∈ labelTexts)
    (hlabels : s.objectMeta.labels = labels c component) (hselector : s.selector = labels c component) :
    Labelled c.name (K8s.Object.service s).manifest := by
  intro v hv
  rw [labelValues_service, hlabels, hselector, List.mem_append, or_self] at hv
  exact values_labels h v hv

theorem labelled_deployment {d : K8s.Deployment} (component : String) (h : component ∈ labelTexts)
    (hlabels : d.objectMeta.labels = labels c component)
    (hselector : d.selector = labels c component) (htemplate : d.template.labels = labels c component) :
    Labelled c.name (K8s.Object.deployment d).manifest := by
  intro v hv
  rw [labelValues_deployment, hlabels, hselector, htemplate, List.mem_append, List.mem_append, or_self,
    or_self] at hv
  exact values_labels h v hv

theorem labelled_statefulSet {s : K8s.StatefulSet} (component : String)
    (h : component ∈ labelTexts) (hlabels : s.objectMeta.labels = labels c component)
    (hselector : s.selector = labels c component) (htemplate : s.template.labels = labels c component) :
    Labelled c.name (K8s.Object.statefulSet s).manifest := by
  intro v hv
  rw [labelValues_statefulSet, hlabels, hselector, htemplate, List.mem_append, List.mem_append,
    or_self, or_self] at hv
  exact values_labels h v hv

theorem labelled_apiPDB : Labelled c.name (K8s.Object.podDisruptionBudget (apiPDB c)).manifest := by
  intro v hv
  rw [labelValues_podDisruptionBudget] at hv
  exact values_labels (show "api" ∈ labelTexts by decide) v hv

theorem labelled_networkPolicy :
    Labelled c.name (K8s.Object.networkPolicy (networkPolicy c)).manifest := by
  intro v hv
  have hvalues : (K8s.Object.networkPolicy (networkPolicy c)).manifest.labelValues =
      [c.name, "true", c.name] := rfl
  rw [hvalues] at hv
  simp only [List.mem_cons, List.not_mem_nil, or_false] at hv
  rcases hv with rfl | rfl | rfl
  · exact .inl rfl
  · exact .inr (by decide)
  · exact .inl rfl

theorem labelled_of_objects {os : List K8s.Object} (h : objects q c = some os) :
    ∀ o ∈ os, Labelled c.name o.manifest := by
  have hcommon : ∀ o ∈ commonObjects c, Labelled c.name o.manifest := by
    simp only [commonObjects, List.forall_mem_cons]
    exact ⟨labelled_service "api" (by decide) rfl rfl,
      labelled_deployment "api" (by decide) rfl rfl rfl,
      labelled_deployment "refresh-worker" (by decide) rfl rfl rfl,
      labelled_apiPDB, labelled_networkPolicy, by simp⟩
  unfold objects at h
  split at h
  · simp only [routerStatefulSet, workerStatefulSet, Option.bind_eq_bind, Option.bind_eq_some_iff,
      Option.some.injEq] at h
    obtain ⟨_, ⟨_, -, _, -, rfl⟩, _, ⟨_, -, _, -, rfl⟩, rfl⟩ := h
    refine List.forall_mem_append.mpr ⟨hcommon, ?_⟩
    simp only [List.forall_mem_cons]
    exact ⟨labelled_service "cubestore-router" (by decide) rfl rfl,
      labelled_service "cubestore-worker" (by decide) rfl rfl,
      labelled_statefulSet "cubestore-router" (by decide) rfl rfl rfl,
      labelled_statefulSet "cubestore-worker" (by decide) rfl rfl rfl, by simp⟩
  · simp only [singleStoreDeployment, Option.bind_eq_bind, Option.bind_eq_some_iff,
      Option.some.injEq] at h
    obtain ⟨_, ⟨_, -, rfl⟩, rfl⟩ := h
    refine List.forall_mem_append.mpr ⟨hcommon, ?_⟩
    simp only [List.forall_mem_cons]
    exact ⟨labelled_service "cubestore" (by decide) rfl rfl,
      labelled_deployment "cubestore" (by decide) rfl rfl rfl, by simp⟩

theorem replicas_statefulSet (s : K8s.StatefulSet) :
    (K8s.Object.statefulSet s).manifest.replicas = s.replicas := by
  simp [Manifest.replicas, K8s.Object.manifest, K8s.StatefulSet.spec, fieldOf_cons]

theorem statefulSets_of_objects {os : List K8s.Object} (h : objects q c = some os) :
    ∀ o ∈ os, o.manifest.kind = .statefulSet →
      IsStatefulSet c.name (replicas c.spec.cubeStore.workers 2) o.manifest := by
  have hcommon : ∀ o ∈ commonObjects c, o.manifest.kind ≠ .statefulSet := by
    simp [commonObjects, K8s.Object.manifest]
  have hname (component : String) : c.name ++ "-" ++ component = c.name ++ ("-" ++ component) :=
    String.append_assoc ..
  unfold objects at h
  intro o ho hkind
  split at h
  · simp only [routerStatefulSet, workerStatefulSet, Option.bind_eq_bind, Option.bind_eq_some_iff,
      Option.some.injEq] at h
    obtain ⟨_, ⟨_, -, _, -, rfl⟩, _, ⟨_, -, _, -, rfl⟩, rfl⟩ := h
    simp only [List.mem_append, List.mem_cons, List.not_mem_nil, or_false] at ho
    rcases ho with ho | rfl | rfl | rfl | rfl
    · exact absurd hkind (hcommon o ho)
    · cases hkind
    · cases hkind
    · exact .inl ⟨hname "cubestore-router", replicas_statefulSet _⟩
    · exact .inr ⟨hname "cubestore-worker", replicas_statefulSet _⟩
  · simp only [singleStoreDeployment, Option.bind_eq_bind, Option.bind_eq_some_iff,
      Option.some.injEq] at h
    obtain ⟨_, ⟨_, -, rfl⟩, rfl⟩ := h
    simp only [List.mem_append, List.mem_cons, List.not_mem_nil, or_false] at ho
    rcases ho with ho | rfl | rfl
    · exact absurd hkind (hcommon o ho)
    · cases hkind
    · cases hkind

end Go

/-! ## The Kopf controller -/

namespace Kopf

variable {spec : Crd.Spec}

@[simp] theorem texts_matchLabels (es : List (String × String)) :
    texts (some (matchLabels es)) = [] := rfl

theorem labelled_storeService {component : String} {ports : List Json} {headless : Bool}
    (h : component ∈ labelTexts) : Labelled name (storeService name ns component ports headless) := by
  intro v hv
  have hvalues : (storeService name ns component ports headless).labelValues =
      (labels name component).map Prod.snd ++ (labels name component).map Prod.snd := by
    cases headless <;> simp [Manifest.labelValues, storeService, fieldOf_cons, items]
  rw [hvalues, List.mem_append, or_self] at hv
  exact values_labels h v hv

/-- A Deployment or a StatefulSet, with what comes after its common fields. -/
theorem labelled_workload {m : Manifest} {component : String} {count : ℤ} {podSpec : Json}
    {rest : List (String × Json)} (h : component ∈ labelTexts)
    (hlabels : m.metadata.labels = some (labels name component))
    (hspec : m.spec = .obj (workloadSpec count (labels name component) podSpec ++ rest))
    (hrest : ∀ k ∈ rest.map Prod.fst, k ≠ "podSelector" ∧ k ≠ "ingress") : Labelled name m := by
  have hpodSelector : Json.lookup "podSelector" rest = none :=
    Json.lookup_eq_none_iff.mpr fun hk => (hrest _ hk).1 rfl
  have hingress : Json.lookup "ingress" rest = none :=
    Json.lookup_eq_none_iff.mpr fun hk => (hrest _ hk).2 rfl
  intro v hv
  have hvalues : m.labelValues = (labels name component).map Prod.snd ++
      ((labels name component).map Prod.snd ++ (labels name component).map Prod.snd) := by
    have hmatch : texts (Json.lookup "matchLabels" (matchLabels (labels name component)).fields) =
        (labels name component).map Prod.snd := texts_stringsJson _
    simp [Manifest.labelValues, hlabels, hspec, workloadSpec, fieldOf_cons, items, hpodSelector,
      hingress, hmatch]
  rw [hvalues, List.mem_append, List.mem_append, or_self, or_self] at hv
  exact values_labels h v hv

theorem labelled_deployment {component : String} {w : Crd.WorkloadSpec} {m : Manifest}
    (h : component ∈ labelTexts) (hm : deployment name ns spec component w = some m) :
    Labelled name m := by
  simp only [deployment, Option.bind_eq_bind, Option.bind_eq_some_iff, Option.some.injEq] at hm
  obtain ⟨_, -, _, -, rfl⟩ := hm
  exact labelled_workload h rfl (congrArg Json.obj (List.append_nil _).symm) (by simp)

theorem labelled_storeWorkload {component role : String} {count : ℤ} {roleEnv : List Json}
    {stateful : Bool} {m : Manifest} (h : component ∈ labelTexts)
    (hm : storeWorkload name ns spec component count role roleEnv stateful = some m) :
    Labelled name m := by
  simp only [storeWorkload, Option.bind_eq_bind, Option.bind_eq_some_iff, Option.some.injEq] at hm
  obtain ⟨_, -, rfl⟩ := hm
  refine labelled_workload h rfl rfl ?_
  cases stateful <;> simp

theorem labelled_apiService : Labelled name (apiService name ns spec) := by
  intro v hv
  have hvalues : (apiService name ns spec).labelValues =
      (labels name "api").map Prod.snd ++ (labels name "api").map Prod.snd := by
    simp [Manifest.labelValues, apiService, fieldOf_cons, items]
  rw [hvalues, List.mem_append, or_self] at hv
  exact values_labels (by decide) v hv

theorem labelled_apiPDB : Labelled name (apiPDB name ns) := by
  intro v hv
  have hvalues : (apiPDB name ns).labelValues = (labels name "api").map Prod.snd := rfl
  rw [hvalues] at hv
  exact values_labels (by decide) v hv

theorem labelled_networkPolicy : Labelled name (networkPolicy name ns) := by
  intro v hv
  have hvalues : (networkPolicy name ns).labelValues = [name, "true", name] := rfl
  rw [hvalues] at hv
  simp only [List.mem_cons, List.not_mem_nil, or_false] at hv
  rcases hv with rfl | rfl | rfl
  · exact .inl rfl
  · exact .inr (by decide)
  · exact .inl rfl

theorem labelled_of_desiredObjects {ds : List Manifest} (h : desiredObjects name ns spec = some ds) :
    ∀ d ∈ ds, Labelled name d := by
  simp only [desiredObjects, Option.bind_eq_bind, Option.bind_eq_some_iff] at h
  obtain ⟨api, hapi, refresh, hrefresh, h⟩ := h
  have hcommon : ∀ d ∈ [apiService name ns spec, api, refresh, apiPDB name ns, networkPolicy name ns],
      Labelled name d := by
    simp only [List.forall_mem_cons]
    exact ⟨labelled_apiService, labelled_deployment (by decide) hapi,
      labelled_deployment (by decide) hrefresh, labelled_apiPDB, labelled_networkPolicy, by simp⟩
  split at h
  · simp only [Option.bind_eq_some_iff, Option.some.injEq] at h
    obtain ⟨store, hstore, rfl⟩ := h
    refine List.forall_mem_append.mpr ⟨hcommon, ?_⟩
    simp only [List.forall_mem_cons]
    exact ⟨labelled_storeService (by decide), labelled_storeWorkload (by decide) hstore, by simp⟩
  · simp only [Option.bind_eq_some_iff, Option.some.injEq] at h
    obtain ⟨_, -, router, hrouter, worker, hworker, rfl⟩ := h
    refine List.forall_mem_append.mpr ⟨hcommon, ?_⟩
    simp only [List.forall_mem_cons]
    exact ⟨labelled_storeService (by decide), labelled_storeService (by decide),
      labelled_storeWorkload (by decide) hrouter, labelled_storeWorkload (by decide) hworker, by simp⟩

theorem statefulSets_of_desiredObjects {ds : List Manifest} {store : Crd.CubeStoreSpec}
    (h : desiredObjects name ns spec = some ds) (hstore : spec.cubeStore = some store) :
    ∀ d ∈ ds, d.kind = .statefulSet → IsStatefulSet name (replicas store.workers 2) d := by
  simp only [desiredObjects, deployment, Option.bind_eq_bind, Option.bind_eq_some_iff,
    Option.some.injEq] at h
  obtain ⟨_, ⟨_, -, _, -, rfl⟩, _, ⟨_, -, _, -, rfl⟩, h⟩ := h
  have hname (component : String) : name ++ "-" ++ component = name ++ ("-" ++ component) :=
    String.append_assoc ..
  have hreplicas {count : ℤ} {ls : List (String × String)} {podSpec : Json}
      {rest : List (String × Json)} (m : Manifest)
      (hspec : m.spec = .obj (workloadSpec count ls podSpec ++ rest)) : m.replicas = count := by
    simp [Manifest.replicas, hspec, workloadSpec, fieldOf_cons]
  intro d hd hkind
  split at h
  · simp only [storeWorkload, Option.bind_eq_bind, Option.bind_eq_some_iff, Option.some.injEq] at h
    obtain ⟨_, ⟨_, -, rfl⟩, rfl⟩ := h
    simp only [List.mem_append, List.mem_cons, List.not_mem_nil, or_false] at hd
    rcases hd with (rfl | rfl | rfl | rfl | rfl) | rfl | rfl <;> cases hkind
  · simp only [hstore, storeWorkload, Option.bind_eq_bind, Option.bind_eq_some_iff,
      Option.some.injEq, exists_eq_left'] at h
    obtain ⟨_, ⟨_, -, rfl⟩, _, ⟨_, -, rfl⟩, rfl⟩ := h
    simp only [List.mem_append, List.mem_cons, List.not_mem_nil, or_false] at hd
    rcases hd with (rfl | rfl | rfl | rfl | rfl) | rfl | rfl | rfl | rfl
    · cases hkind
    · cases hkind
    · cases hkind
    · cases hkind
    · cases hkind
    · cases hkind
    · cases hkind
    · exact .inl ⟨hname "cubestore-router", hreplicas _ rfl⟩
    · exact .inr ⟨hname "cubestore-worker", hreplicas _ rfl⟩

end Kopf

/-! ## Room for the suffixes -/

/-- The longest of the texts that are added to the name of the cluster. -/
def longestSuffix (clustered : Bool) (workers : ℤ) : String :=
  if clustered then "-cubestore-worker-" ++ toString (workers - 1).toNat else "-cubestore"

/-- The name of the cluster leaves room: it starts with a letter, has no dot, and together
    with the longest suffix has at most 63 characters. -/
structure Fits (name : String) (clustered : Bool) (workers : ℤ) : Prop where
  letter : name.toList.head?.any Char.isLower = true
  dotless : '.' ∉ name.toList
  length : name.length + (longestSuffix clustered workers).length ≤ 63

theorem extends_suffixes : ∀ suffix ∈ suffixes, Extends suffix.toList := by
  have hall : ∀ suffix ∈ suffixes, suffix.toList.all isLabelCharacter = true ∧
      suffix.toList.getLast?.any isAlphanumeric = true := by decide +kernel
  intro suffix hsuffix
  exact ⟨List.all_eq_true.mp (hall suffix hsuffix).1, (hall suffix hsuffix).2⟩

theorem length_toString (i : ℕ) : (toString i).length = (Nat.toDigits 10 i).length := by
  rw [Nat.toString_eq_repr, ← String.length_toList, Nat.toList_repr]

/-- The length of a number in decimal grows with it. -/
theorem length_toString_le {i j : ℕ} (h : i ≤ j) : (toString i).length ≤ (toString j).length := by
  have hlength (n : ℕ) : (Nat.toDigits 10 n).length ≤ (Nat.toDigits 10 j).length ↔
      n < 10 ^ (Nat.toDigits 10 j).length :=
    Nat.length_toDigits_le_iff (by decide) Nat.length_toDigits_pos
  rw [length_toString, length_toString, hlength]
  exact lt_of_le_of_lt h ((hlength j).mp (Nat.le_refl _))

theorem length_toString_pos (i : ℕ) : 1 ≤ (toString i).length := by
  rw [length_toString]
  exact Nat.length_toDigits_pos

theorem length_longestSuffix_clustered :
    (longestSuffix true workers).length = 18 + (toString (workers - 1).toNat).length := by
  unfold longestSuffix
  rw [if_pos rfl, String.length_append]
  rfl

theorem length_longestSuffix : 10 ≤ (longestSuffix clustered workers).length := by
  cases clustered with
  | false =>
    rw [longestSuffix, if_neg Bool.false_ne_true]
    decide
  | true =>
    rw [length_longestSuffix_clustered]
    omega

/-- The name of an object, and that no Service has a longer suffix. -/
theorem suffix_of_mem (workers : ℤ) {k : Key} (hk : k ∈ clusterKeys clustered ns name) :
    ∃ suffix ∈ suffixes, k.name = name ++ suffix ∧ suffix.length ≤ 20 ∧
      (k.kind = .service → suffix.length ≤ (longestSuffix clustered workers).length) := by
  have hrouter : 17 ≤ (longestSuffix true workers).length := by
    rw [length_longestSuffix_clustered]
    omega
  have hsingle : 10 ≤ (longestSuffix clustered workers).length := length_longestSuffix
  cases clustered <;>
    simp only [clusterKeys, coreKeys, storeKeys, singleKeys, clusteredKeys, if_true,
      Bool.false_eq_true, if_false, List.mem_append, List.mem_cons, List.not_mem_nil, or_false] at hk
  · rcases hk with (rfl | rfl | rfl | rfl | rfl) | rfl | rfl <;>
      refine ⟨_, by decide, rfl, by decide, ?_⟩ <;>
      first
      | exact fun _ => Nat.le_trans (by decide) hsingle
      | exact fun hkind => absurd hkind Kind.noConfusion
  · rcases hk with (rfl | rfl | rfl | rfl | rfl) | rfl | rfl | rfl | rfl <;>
      exact ⟨_, by decide, rfl, by decide, fun _ => le_trans (by decide) hrouter⟩

/-! ## Well-named objects -/

/-- What both controllers generate, as far as the names go. -/
structure Named (ns name : String) (clustered : Bool) (workers : ℤ) (ms : List Manifest) :
    Prop where
  keys : ms.map Manifest.key = clusterKeys clustered ns name
  labelled : ∀ m ∈ ms, Labelled name m
  statefulSets : ∀ m ∈ ms, m.kind = .statefulSet → IsStatefulSet name workers m

namespace Named

variable {ms : List Manifest}

theorem mem_keys (h : Named ns name clustered workers ms) {m : Manifest} (hm : m ∈ ms) :
    m.key ∈ clusterKeys clustered ns name := by
  rw [← h.keys]
  exact List.mem_map_of_mem hm

theorem exists_mem (h : Named ns name clustered workers ms) {k : Key}
    (hk : k ∈ clusterKeys clustered ns name) : ∃ m ∈ ms, m.key = k := by
  rw [← h.keys] at hk
  exact List.mem_map.mp hk

/-- Only a clustered store has StatefulSets. -/
theorem clustered_of_statefulSet (h : Named ns name clustered workers ms) {m : Manifest}
    (hm : m ∈ ms) (hkind : m.kind = .statefulSet) : clustered = true := by
  have hkey := h.mem_keys hm
  have hkeyKind : m.key.kind = .statefulSet := hkind
  cases clustered with
  | true => rfl
  | false =>
    have hnone : ∀ k ∈ clusterKeys false ns name, k.kind ≠ .statefulSet := by
      simp [clusterKeys, coreKeys, storeKeys, singleKeys]
    exact absurd hkeyKind (hnone _ hkey)

/-- With room in the name everything keeps the rules. -/
theorem wellNamed (h : Named ns name clustered workers ms) (hname : IsSubdomain name)
    (hfits : Fits name clustered workers) {m : Manifest} (hm : m ∈ ms) : m.WellNamed := by
  have hlongest := hfits.length
  have hten : 10 ≤ (longestSuffix clustered workers).length := length_longestSuffix
  refine ⟨?_, ?_, ?_⟩
  · obtain ⟨suffix, hsuffix, heq, hshort, hservice⟩ :=
      suffix_of_mem workers (h.mem_keys hm)
    have heq' : m.metadata.name = name ++ suffix := heq
    have hextends := extends_suffixes suffix hsuffix
    rw [heq']
    split
    · rename_i hkind
      have hroom := hservice hkind
      exact (isDns1035Label_append_iff hname hextends).mpr ⟨hfits.letter, hfits.dotless, by omega⟩
    · refine isSubdomain_of_dnsLabel ?_ ?_
      · rw [String.toList_append]
        exact (hname.dnsLabel hfits.dotless).append hextends
      · rw [String.length_append]
        omega
  · intro v hv
    rcases h.labelled m hm v hv with rfl | hv
    · omega
    · have htexts : ∀ v ∈ labelTexts, v.length ≤ 63 := by decide
      exact htexts v hv
  · intro pod hpod
    unfold Manifest.podNames at hpod
    split at hpod
    · rename_i hkind
      obtain rfl := h.clustered_of_statefulSet hm hkind
      rw [length_longestSuffix_clustered] at hlongest
      obtain ⟨i, hi, rfl⟩ := List.mem_map.mp hpod
      have hi' := List.mem_range.mp hi
      rcases h.statefulSets m hm hkind with ⟨heq, hreplicas⟩ | ⟨heq, hreplicas⟩
      · -- the router has one pod, of one digit
        rw [hreplicas] at hi'
        obtain rfl : i = 0 := by omega
        have hdigits := length_toString_pos (workers - 1).toNat
        rw [heq]
        simp only [String.length_append]
        have hsuffix : "-cubestore-router".length = 17 ∧ "-".length = 1 ∧ (toString 0).length = 1 := by
          decide
        omega
      · rw [hreplicas] at hi'
        have hdigits := length_toString_le (i := i) (j := (workers - 1).toNat) (by omega)
        rw [heq]
        simp only [String.length_append]
        have hsuffix : "-cubestore-worker".length = 17 ∧ "-".length = 1 := by decide
        omega
    · cases hpod

/-- The Service of the store and the last of the workers need that room. -/
theorem fits (h : Named ns name clustered workers ms) (hname : IsSubdomain name)
    (hworkers : clustered = true → 1 ≤ workers) (hall : ∀ m ∈ ms, m.WellNamed) :
    Fits name clustered workers := by
  have hservice {suffix : String} (hsuffix : suffix ∈ suffixes)
      (hk : ⟨.service, ns, name ++ suffix⟩ ∈ clusterKeys clustered ns name) :
      name.toList.head?.any Char.isLower = true ∧ '.' ∉ name.toList ∧
        name.length + suffix.length ≤ 63 := by
    obtain ⟨m, hm, hkey⟩ := h.exists_mem hk
    have hkind : m.kind = .service := congrArg Key.kind hkey
    have heq : m.metadata.name = name ++ suffix := congrArg Key.name hkey
    have hrule := (hall m hm).name
    rw [if_pos hkind, heq] at hrule
    exact (isDns1035Label_append_iff hname (extends_suffixes suffix hsuffix)).mp hrule
  cases clustered with
  | false =>
    obtain ⟨hletter, hdotless, hlength⟩ := hservice (show "-cubestore" ∈ suffixes by decide)
      (by simp [clusterKeys, storeKeys, singleKeys])
    exact ⟨hletter, hdotless, hlength⟩
  | true =>
    obtain ⟨hletter, hdotless, -⟩ := hservice (show "-cubestore-worker" ∈ suffixes by decide)
      (by simp [clusterKeys, storeKeys, clusteredKeys])
    refine ⟨hletter, hdotless, ?_⟩
    have hone := hworkers rfl
    obtain ⟨m, hm, hkey⟩ := h.exists_mem (k := ⟨.statefulSet, ns, name ++ "-cubestore-worker"⟩)
      (by simp [clusterKeys, storeKeys, clusteredKeys])
    have hkind : m.kind = .statefulSet := congrArg Key.kind hkey
    have heq : m.metadata.name = name ++ "-cubestore-worker" := congrArg Key.name hkey
    have hreplicas : m.replicas = workers := by
      rcases h.statefulSets m hm hkind with ⟨hrouter, -⟩ | ⟨-, hreplicas⟩
      · rw [heq, String.append_right_inj] at hrouter
        exact absurd hrouter (by decide)
      · exact hreplicas
    -- the pod with the highest ordinal has the longest host name
    have hpod : m.metadata.name ++ "-" ++ toString (workers - 1).toNat ∈ m.podNames := by
      unfold Manifest.podNames
      rw [if_pos hkind, hreplicas]
      exact List.mem_map.mpr ⟨(workers - 1).toNat, List.mem_range.mpr (by omega), rfl⟩
    have hlength := (hall m hm).hosts _ hpod
    rw [heq] at hlength
    simp only [String.length_append] at hlength
    rw [length_longestSuffix_clustered]
    have hsuffix : "-cubestore-worker".length = 17 ∧ "-".length = 1 := by decide
    omega

end Named

/-! ## Both controllers -/

theorem go_workers (hvalid : Go.Valid q c) :
    Go.isClustered c = true → 1 ≤ Go.replicas c.spec.cubeStore.workers 2 :=
  fun hclustered => hvalid.workers (Go.storeMode_eq_iff.mpr hclustered)

theorem kopf_workers {spec : Crd.Spec} (hvalid : Kopf.Valid q spec)
    (hclustered : Kopf.isClustered spec = true) :
    1 ≤ Kopf.replicas (spec.cubeStore.getD {}).workers 2 := by
  have hmode : (spec.cubeStore.getD {}).mode = some "clustered" := by
    simpa [Kopf.isClustered] using hclustered
  exact hvalid.workers (by rw [hmode, Option.getD_some])

theorem Go.named_of_objects {os : List K8s.Object} (h : Go.objects q c = some os) :
    Named c.ns c.name (Go.isClustered c) (Go.replicas c.spec.cubeStore.workers 2)
      (os.map K8s.Object.manifest) where
  keys := by
    rw [List.map_map]
    exact Go.objects_keys h
  labelled := List.forall_mem_map.mpr (Go.labelled_of_objects h)
  statefulSets := List.forall_mem_map.mpr (Go.statefulSets_of_objects h)

theorem Kopf.named_of_desiredObjects {spec : Crd.Spec} {ds : List Manifest}
    {store : Crd.CubeStoreSpec} (h : Kopf.desiredObjects name ns spec = some ds)
    (hstore : spec.cubeStore = some store) :
    Named ns name (Kopf.isClustered spec) (Kopf.replicas store.workers 2) ds where
  keys := Kopf.desiredObjects_keys h
  labelled := Kopf.labelled_of_desiredObjects h
  statefulSets := Kopf.statefulSets_of_desiredObjects h hstore

/-- The objects of an accepted cluster are well named when, and only when, its name leaves
    room for what is added to it. -/
theorem names_wellFormed_iff (q : Quantities) (ns name : String) (hname : IsSubdomain name) :
    (∀ (c : CubeCluster) (tr : List Exchange), c.name = name →
      Exec (Go.validateReferences q c).run tr (.ok ()) →
      ∃ os, Go.objects q c = some os ∧ ((∀ o ∈ os, (K8s.Object.manifest o).WellNamed) ↔
        Fits name (Go.isClustered c) (Go.replicas c.spec.cubeStore.workers 2))) ∧
    ∀ (spec : Crd.Spec) (tr : List Exchange), spec.Admits →
      Exec (Kopf.validateReferences q spec ns).run tr (.ok ()) →
      ∃ ds, Kopf.desiredObjects name ns spec = some ds ∧ ((∀ d ∈ ds, d.WellNamed) ↔
        Fits name (Kopf.isClustered spec)
          (Kopf.replicas (spec.cubeStore.getD {}).workers 2)) := by
  constructor
  · rintro c tr rfl hvalidate
    obtain ⟨hvalid, -⟩ := Go.exec_validateReferences_ok hvalidate
    obtain ⟨os, hos⟩ := Go.exists_objects hvalid
    have hnamed := Go.named_of_objects hos
    refine ⟨os, hos, fun hall => ?_, fun hfits o ho => ?_⟩
    · exact hnamed.fits hname (go_workers hvalid) (List.forall_mem_map.mpr hall)
    · exact hnamed.wellNamed hname hfits (List.mem_map_of_mem ho)
  · intro spec tr _ hvalidate
    obtain ⟨hvalid, -⟩ := Kopf.exec_validateReferences_ok hvalidate
    obtain ⟨store, -, hstore, -, -⟩ := hvalid.storage.cases
    obtain ⟨ds, hds⟩ := Kopf.exists_desiredObjects hvalid name ns
    have hnamed := Kopf.named_of_desiredObjects hds hstore
    have hworkers := kopf_workers hvalid
    rw [hstore, Option.getD_some] at hworkers ⊢
    refine ⟨ds, hds, fun hall => ?_, fun hfits d hd => ?_⟩
    · exact hnamed.fits hname hworkers hall
    · exact hnamed.wellNamed hname hfits hd

/-- A valid name of 54 characters, one more than the Service of the store leaves. -/
def longName : String := String.join (List.replicate 6 "dashboard")

def longNamedCluster : CubeCluster := { Go.smallCluster with name := longName }

theorem isSubdomain_longName : IsSubdomain longName :=
  isSubdomain_of_dnsLabel ⟨List.all_eq_true.mp (by decide +kernel), by decide +kernel,
    by decide +kernel⟩ (by decide +kernel)

theorem longNamedCluster_accepted :
    ∃ tr, Exec (Go.validateReferences digitQuantities longNamedCluster).run tr (.ok ()) :=
  (Program.exec_eval (lookups fun _ => true) _).imp fun _ h => h.1

/-- The Service of its store has a name of 64 characters. -/
theorem longName_refused : ¬∀ (q : Quantities) (spec : Crd.Spec) (c : CubeCluster)
    (tr : List Exchange) (os : List K8s.Object), spec.Admits → decodeSpec q spec = some c.spec →
    IsSubdomain c.name → Exec (Go.validateReferences q c).run tr (.ok ()) → Go.objects q c = some os →
    ∀ o ∈ os, (K8s.Object.manifest o).WellNamed := by
  intro h
  obtain ⟨tr, hvalidate⟩ := longNamedCluster_accepted
  have hall := h digitQuantities smallSpec longNamedCluster tr _ (.inr rfl) decodeSpec_smallSpec
    isSubdomain_longName hvalidate rfl
  have hrule := (hall (.service (Go.singleStoreService longNamedCluster)) (by simp)).name
  have hlength : 64 = (longNamedCluster.name ++ "-" ++ "cubestore").length := by decide +kernel
  exact absurd (hlength ▸ hrule.length) (by decide)

theorem names_wellFormed_iff_longName :
    ∃ os, Go.objects digitQuantities longNamedCluster = some os ∧
      ((∀ o ∈ os, (K8s.Object.manifest o).WellNamed) ↔ Fits longName false 2) := by
  obtain ⟨tr, hvalidate⟩ := longNamedCluster_accepted
  exact (names_wellFormed_iff digitQuantities "default" longName isSubdomain_longName).1
    longNamedCluster tr rfl hvalidate

end CubeOperator
