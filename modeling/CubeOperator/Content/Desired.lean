import CubeOperator.Content.Server
import CubeOperator.Kopf.Pass
import Mathlib.Data.Set.Basic

/-! # The fields of the desired objects

    Two specs of one CubeCluster give an object the same fields, apart from the
    annotations of the API Service and what is inside of lists.  So a merge patch
    only ever leaves stale annotations behind. -/

namespace CubeOperator

open Kube Crd

/-! ## Annotations -/

/-- The path of an annotation. -/
def annotationPath (a : String) : List String := ["metadata", "annotations", a]

/-- The document without its annotations and owner references. -/
def bare (d : Manifest) : Manifest :=
  { d with metadata := { d.metadata with
      annotations := d.metadata.annotations.map fun _ => []
      ownerReferences := some [] } }

/-- The keys of the annotations of a document. -/
def annotationKeys (d : Manifest) : List String := (d.metadata.annotations.getD []).map Prod.fst

theorem isSome_view_stringsJson (entries : List (String × String)) (p : List String) :
    ((stringsJson entries).view p).isSome ↔ p = [] ∨ ∃ a ∈ entries.map Prod.fst, p = [a] := by
  cases p with
  | nil => simp
  | cons k p =>
    rw [Json.view_cons, stringsJson, Json.get?, Json.fields_obj]
    induction entries with
    | nil => simp
    | cons entry entries ih =>
      obtain ⟨a, v⟩ := entry
      by_cases ha : a = k
      · subst ha
        cases p <;> simp [Json.view, Json.get?, Json.fields]
      · simpa [ha, Ne.symm ha] using ih

/-- The fields of the metadata, one by one. -/
theorem lookup_metadata (m : Metadata) (k : String) :
    Json.lookup k m.fields = (Json.lookup k [("name", .str m.name), ("namespace", .str m.ns)]).or
      ((if "labels" = k then m.labels.map stringsJson else none).or
        ((if "annotations" = k then m.annotations.map stringsJson else none).or
          (if "ownerReferences" = k then
            m.ownerReferences.map fun os => .arr (os.map OwnerReference.toJson)
          else none))) := by
  rw [Metadata.fields, Json.lookup_append, Json.lookup_append, Json.lookup_append,
    lookup_optionalField, lookup_optionalField, lookup_optionalField]

theorem lookup_annotations (m : Metadata) :
    Json.lookup "annotations" m.fields = m.annotations.map stringsJson := by
  rw [lookup_metadata]
  simp

/-- The other fields of the metadata are those of the bare document, owner references
    apart. -/
theorem lookup_metadata_of_ne {k : String} (hk : k ≠ "annotations") (d : Manifest)
    (o : OwnerReference) (p : List String) :
    ((Json.lookup k (d.ownedBy o).metadata.fields).bind (Json.view p)).isSome =
      ((Json.lookup k (bare d).metadata.fields).bind (Json.view p)).isSome := by
  rw [lookup_metadata, lookup_metadata, if_neg (Ne.symm hk), if_neg (Ne.symm hk)]
  by_cases howner : "ownerReferences" = k
  · subst howner
    simp [Manifest.ownedBy, bare, Json.isSome_view_arr]
  · rw [if_neg howner, if_neg howner]
    rfl

/-- The paths of a document: those it has without annotations, and the annotations. -/
theorem isSome_view_body (d : Manifest) (o : OwnerReference) (p : List String) :
    ((d.ownedBy o).body.view p).isSome ↔
      ((bare d).body.view p).isSome ∨ ∃ a ∈ annotationKeys d, p = annotationPath a := by
  cases p with
  | nil => simp
  | cons k p =>
    by_cases hk : k = "metadata"
    · subst hk
      have hview (m : Manifest) : m.body.view ("metadata" :: p) = (Json.obj m.metadata.fields).view p := by
        simp [Json.view_cons, Json.get?, Manifest.body]
      rw [hview, hview]
      cases p with
      | nil => simp [annotationPath]
      | cons k' p =>
        rw [Json.view_cons, Json.view_cons, Json.get?, Json.get?, Json.fields_obj, Json.fields_obj]
        by_cases hk' : k' = "annotations"
        · subst hk'
          rw [lookup_annotations, lookup_annotations]
          have hentries := isSome_view_stringsJson (d.metadata.annotations.getD []) p
          cases hannotations : d.metadata.annotations with
          | none => simp [Manifest.ownedBy, bare, annotationKeys, hannotations]
          | some entries =>
            rw [hannotations, Option.getD_some] at hentries
            have hbare := isSome_view_stringsJson [] p
            simp only [List.map_nil, List.not_mem_nil, false_and, exists_false, or_false] at hbare
            simp [Manifest.ownedBy, bare, annotationKeys, annotationPath, hannotations, hentries, hbare]
        · rw [lookup_metadata_of_ne hk']
          simp [annotationPath, hk']
    · have hview (m : Manifest) : m.body.view (k :: p) =
          (Json.lookup k [("spec", m.spec)]).bind (Json.view p) := by
        rw [Json.view_cons, Json.get?, Manifest.body, Json.fields_obj, Json.lookup_cons,
          if_neg (Ne.symm hk)]
      rw [hview, hview]
      simp [bare, annotationPath, hk]

/-- No document blocks the path of an annotation. -/
theorem blocks_annotationPath (d : Manifest) (a : String) :
    Json.blocks (annotationPath a) d.body = false := by
  have hmetadata : Json.blocks (annotationPath a) d.body =
      Json.blocks ["annotations", a] (.obj d.metadata.fields) := by
    simp [annotationPath, Manifest.body, Json.blocks]
  rw [hmetadata, Json.blocks, lookup_annotations]
  cases d.metadata.annotations with
  | none => rfl
  | some entries =>
    simp only [Option.map_some, Option.getD_some, stringsJson, Json.blocks]
    cases Json.lookup a (entries.map fun e => (e.1, Json.str e.2)) <;> rfl

namespace Kopf

/-! ## Patterns -/

/-- A workload of the component, with the given fields of its pod and of its own. -/
def workloadPattern (ns name : String) (kind : Kind) (component : String)
    (pod : List String) (fields : List (String × Json)) : Manifest where
  kind := kind
  metadata := { name := name ++ "-" ++ component, ns := ns, labels := some (labels name component) }
  spec := .obj (workloadSpec 0 (labels name component)
    (.obj (("securityContext", podSecurityContext) :: pod.map fun k => (k, .arr []))) ++ fields)

/-- One document for each managed object, with the fields that any desired document
    of this object has. -/
def patterns (ns name : String) : List Manifest :=
  [apiService name ns {},
    workloadPattern ns name .deployment "api" ["initContainers", "containers", "volumes"] [],
    workloadPattern ns name .deployment "refresh-worker" ["initContainers", "containers", "volumes"]
      [],
    apiPDB name ns, networkPolicy name ns,
    storeService name ns "cubestore" [] false,
    workloadPattern ns name .deployment "cubestore" ["containers", "volumes"] [],
    storeService name ns "cubestore-router" [] false,
    storeService name ns "cubestore-worker" [] true,
    workloadPattern ns name .statefulSet "cubestore-router" ["containers", "volumes"]
      [("serviceName", .null), ("podManagementPolicy", .null)],
    workloadPattern ns name .statefulSet "cubestore-worker" ["containers", "volumes"]
      [("serviceName", .null), ("podManagementPolicy", .null)]]

variable {ns name : String} {spec : Spec} {ds : List Manifest} {d : Manifest}

theorem patterns_keys (ns name : String) :
    (patterns ns name).map Manifest.key = managedKeys ns name := by
  have happend (component : String) : name ++ "-" ++ component = name ++ ("-" ++ component) :=
    String.append_assoc ..
  simp [patterns, managedKeys, coreKeys, singleKeys, clusteredKeys, Manifest.key, apiService,
    apiPDB, networkPolicy, storeService, workloadPattern, happend]

/-- The outline of a document, annotations apart. -/
def shape (d : Manifest) : Json := (bare d).body.outline

/-- A desired document has the shape of the pattern of its object. -/
theorem exists_pattern (h : desiredObjects name ns spec = some ds) (hd : d ∈ ds) :
    ∃ d₀ ∈ patterns ns name, d₀.key = d.key ∧ shape d₀ = shape d := by
  simp only [desiredObjects, Option.bind_eq_bind, Option.bind_eq_some_iff] at h
  obtain ⟨api, hapi, refresh, hrefresh, h⟩ := h
  simp only [deployment, Option.bind_eq_bind, Option.bind_eq_some_iff, Option.some.injEq]
    at hapi hrefresh
  obtain ⟨_, -, _, -, rfl⟩ := hapi
  obtain ⟨_, -, _, -, rfl⟩ := hrefresh
  split at h
  · simp only [storeWorkload, Option.bind_eq_bind, Option.bind_eq_some_iff, Option.some.injEq] at h
    obtain ⟨_, ⟨_, -, rfl⟩, rfl⟩ := h
    revert d
    simp [patterns, Manifest.key, shape, bare, Manifest.body, Metadata.fields, optionalField,
      apiService, apiPDB, networkPolicy, storeService, workloadPattern, workloadSpec]
  · simp only [storeWorkload, Option.bind_eq_bind, Option.bind_eq_some_iff, Option.some.injEq] at h
    obtain ⟨_, -, _, ⟨_, -, rfl⟩, _, ⟨_, -, rfl⟩, rfl⟩ := h
    revert d
    simp [patterns, Manifest.key, shape, bare, Manifest.body, Metadata.fields, optionalField,
      apiService, apiPDB, networkPolicy, storeService, workloadPattern, workloadSpec]

/-- Documents of one object have the same shape, whatever the specs. -/
theorem shape_eq {d₀ d₁ : Manifest} (h₀ : d₀ ∈ patterns ns name) (h₁ : d₁ ∈ patterns ns name)
    (hkey : d₀.key = d₁.key) : d₀ = d₁ := by
  have hnodup : ((patterns ns name).map Manifest.key).Nodup := by
    rw [patterns_keys]
    exact managedKeys_nodup ns name
  exact List.inj_on_of_nodup_map hnodup h₀ h₁ hkey

/-! ## No field twice -/

theorem plain_strings {entries : List (String × String)} (h : (entries.map Prod.fst).Nodup) :
    (stringsJson entries).Plain := by
  refine .obj (by simpa [Function.comp_def] using h) ?_
  intro f hf
  obtain ⟨e, -, rfl⟩ := List.mem_map.mp hf
  exact .str _

theorem labels_nodup (name component : String) :
    ((labels name component).map Prod.fst).Nodup := by
  unfold labels
  split <;> simp

theorem plain_optionalField {k : String} {v : Option Json} (h : ∀ j, v = some j → j.Plain) :
    ∀ f ∈ optionalField k v, f.2.Plain := by
  intro f hf
  cases v with
  | none => cases hf
  | some j =>
    obtain rfl := List.mem_singleton.mp hf
    exact h j rfl

theorem plain_body {m : Manifest} (o : OwnerReference)
    (hlabels : ∀ l, m.metadata.labels = some l → (l.map Prod.fst).Nodup)
    (hannotations : ∀ l, m.metadata.annotations = some l → (l.map Prod.fst).Nodup)
    (hspec : m.spec.Plain) : (m.ownedBy o).body.Plain := by
  have hstrings {entries : Option (List (String × String))}
      (h : ∀ l, entries = some l → (l.map Prod.fst).Nodup) :
      ∀ j, entries.map stringsJson = some j → j.Plain := by
    intro j hj
    obtain ⟨l, hl, rfl⟩ := Option.map_eq_some_iff.mp hj
    exact plain_strings (h l hl)
  have hmetadata : (Json.obj (m.ownedBy o).metadata.fields).Plain := by
    refine .obj ?_ ?_
    · cases hl : m.metadata.labels <;> cases ha : m.metadata.annotations <;>
        simp [Manifest.ownedBy, Metadata.fields, optionalField, hl, ha]
    · refine List.forall_mem_append.mpr ⟨by simp [Json.Plain.str], ?_⟩
      refine List.forall_mem_append.mpr ⟨plain_optionalField (hstrings hlabels), ?_⟩
      refine List.forall_mem_append.mpr ⟨plain_optionalField (hstrings hannotations), ?_⟩
      exact plain_optionalField fun j hj => by
        obtain rfl : _ = j := by simpa [Manifest.ownedBy] using hj
        exact .arr _
  exact .obj (by simp) (by simpa using ⟨hmetadata, hspec⟩)

theorem plain_matchLabels {entries : List (String × String)} (h : (entries.map Prod.fst).Nodup) :
    (matchLabels entries).Plain := by
  refine .obj (by simp) ?_
  simpa using plain_strings h

theorem plain_podSecurityContext : podSecurityContext.Plain :=
  .obj (by simp) (by simpa using .obj (by simp) (by simpa using .str _))

/-- A workload whose pod consists of the security context and lists. -/
theorem plain_workloadSpec {count : ℤ} {component : String} (lists : List (String × List Json))
    (fields : List (String × String))
    (hlists : ("securityContext" :: lists.map Prod.fst).Nodup)
    (hfields : (["replicas", "selector", "template"] ++ fields.map Prod.fst).Nodup) :
    (Json.obj (workloadSpec count (labels name component)
      (.obj (("securityContext", podSecurityContext) :: lists.map fun l => (l.1, .arr l.2))) ++
        fields.map fun f => (f.1, .str f.2))).Plain := by
  have hlabels := labels_nodup name component
  have hpod : (Json.obj (("securityContext", podSecurityContext) ::
      lists.map fun l => (l.1, .arr l.2))).Plain := by
    refine .obj (by simpa [Function.comp_def] using hlists) ?_
    refine List.forall_mem_cons.mpr ⟨plain_podSecurityContext, fun f hf => ?_⟩
    obtain ⟨l, -, rfl⟩ := List.mem_map.mp hf
    exact .arr _
  have hmetadata : (Json.obj [("labels", stringsJson (labels name component))]).Plain :=
    .obj (by simp) (by simpa using plain_strings hlabels)
  have htemplate : (Json.obj [
      ("metadata", .obj [("labels", stringsJson (labels name component))]),
      ("spec", .obj (("securityContext", podSecurityContext) ::
        lists.map fun l => (l.1, .arr l.2)))]).Plain :=
    .obj (by simp) (by simpa using ⟨hmetadata, hpod⟩)
  refine .obj (by simpa [workloadSpec, Function.comp_def] using hfields) ?_
  refine List.forall_mem_append.mpr ⟨?_, fun f hf => ?_⟩
  · simpa [workloadSpec] using ⟨.num _, plain_matchLabels hlabels, htemplate⟩
  · obtain ⟨f, -, rfl⟩ := List.mem_map.mp hf
    exact .str _

/-- The documents the builders make. -/
inductive Built (name ns : String) (spec : Spec) : Manifest → Prop where
  | apiService : Built name ns spec (apiService name ns spec)
  | deployment {component : String} {workload : Crd.WorkloadSpec} {d : Manifest} :
      deployment name ns spec component workload = some d → Built name ns spec d
  | apiPDB : Built name ns spec (apiPDB name ns)
  | networkPolicy : Built name ns spec (networkPolicy name ns)
  | storeService {component : String} (ports : List Json) (headless : Bool) :
      component ≠ "api" → Built name ns spec (storeService name ns component ports headless)
  | storeWorkload {component role : String} {count : ℤ} {env : List Json} {stateful : Bool}
      {d : Manifest} : storeWorkload name ns spec component count role env stateful = some d →
      Built name ns spec d

theorem built_of_mem (h : desiredObjects name ns spec = some ds) (hd : d ∈ ds) :
    Built name ns spec d := by
  simp only [desiredObjects, Option.bind_eq_bind, Option.bind_eq_some_iff] at h
  obtain ⟨api, hapi, refresh, hrefresh, h⟩ := h
  have hcore : d ∈ [apiService name ns spec, api, refresh, apiPDB name ns, networkPolicy name ns] →
      Built name ns spec d := by
    intro hd
    simp only [List.mem_cons, List.not_mem_nil, or_false] at hd
    rcases hd with rfl | rfl | rfl | rfl | rfl
    · exact .apiService
    · exact .deployment hapi
    · exact .deployment hrefresh
    · exact .apiPDB
    · exact .networkPolicy
  split at h
  · simp only [Option.bind_eq_some_iff, Option.some.injEq] at h
    obtain ⟨store, hstore, rfl⟩ := h
    rcases List.mem_append.mp hd with hd | hd
    · exact hcore hd
    · simp only [List.mem_cons, List.not_mem_nil, or_false] at hd
      rcases hd with rfl | rfl
      · exact .storeService _ _ (by decide)
      · exact .storeWorkload hstore
  · simp only [Option.bind_eq_some_iff, Option.some.injEq] at h
    obtain ⟨cubeStore, -, router, hrouter, worker, hworker, rfl⟩ := h
    rcases List.mem_append.mp hd with hd | hd
    · exact hcore hd
    · simp only [List.mem_cons, List.not_mem_nil, or_false] at hd
      rcases hd with rfl | rfl | rfl | rfl
      · exact .storeService _ _ (by decide)
      · exact .storeService _ _ (by decide)
      · exact .storeWorkload hrouter
      · exact .storeWorkload hworker

theorem plain_of_built (h : Built name ns spec d) (o : OwnerReference) : (d.ownedBy o).body.Plain := by
  have hlabels (component : String) : ∀ l, some (labels name component) = some l →
      (l.map Prod.fst).Nodup := by
    rintro _ ⟨⟩
    exact labels_nodup name component
  have hnone : ∀ l, (none : Option (List (String × String))) = some l →
      (l.map Prod.fst).Nodup := by
    intro l hl
    cases hl
  cases h with
  | apiService =>
    refine plain_body o (hlabels "api") ?_ ?_
    · rintro _ ⟨⟩
      exact ((spec.service.getD {}).annotations.getD .empty).nodup
    · exact .obj (by simp)
        (by simpa using ⟨.str _, plain_strings (labels_nodup name "api"), .arr _⟩)
  | @deployment component workload _ hd =>
    simp only [deployment, Option.bind_eq_bind, Option.bind_eq_some_iff, Option.some.injEq] at hd
    obtain ⟨container, -, modelConfigMap, -, rfl⟩ := hd
    refine plain_body o (hlabels component) hnone ?_
    exact plain_workloadSpec [("initContainers", _), ("containers", _), ("volumes", _)] []
      (by simp) (by simp)
  | apiPDB =>
    refine plain_body o hnone hnone (.obj (by simp) ?_)
    simpa using ⟨.num _, plain_matchLabels (labels_nodup name "api")⟩
  | networkPolicy =>
    refine plain_body o hnone hnone (.obj (by simp) ?_)
    simpa using ⟨plain_matchLabels (by simp), .arr _, .arr _⟩
  | @storeService component ports headless _ =>
    refine plain_body o (hlabels component) hnone ?_
    unfold storeService
    cases headless
    · exact .obj (by simp) (by simpa using ⟨plain_strings (labels_nodup name component), .arr _⟩)
    · exact .obj (by simp)
        (by simpa using ⟨plain_strings (labels_nodup name component), .arr _, .str _⟩)
  | @storeWorkload component role count env stateful _ hd =>
    simp only [storeWorkload, Option.bind_eq_bind, Option.bind_eq_some_iff, Option.some.injEq] at hd
    obtain ⟨⟨container, volumes⟩, -, rfl⟩ := hd
    refine plain_body o (hlabels component) hnone ?_
    cases stateful
    · exact plain_workloadSpec [("containers", _), ("volumes", _)] [] (by simp) (by simp)
    · exact plain_workloadSpec [("containers", _), ("volumes", _)]
        [("serviceName", _), ("podManagementPolicy", _)] (by simp) (by simp)

/-! ## The fields of a desired document -/

/-- The API Service. -/
def apiServiceKey (ns name : String) : Key := ⟨.service, ns, name ++ "-api"⟩

/-- The keys of the annotations that a spec gives the API Service. -/
def annotationNames (spec : Spec) : List String :=
  ((spec.service.getD {}).annotations.getD .empty).keys

/-- Only the API Service has annotations. -/
theorem annotationKeys_of_built (h : Built name ns spec d) :
    annotationKeys d = if d.key = apiServiceKey ns name then annotationNames spec else [] := by
  cases h with
  | apiService => simp [annotationKeys, apiService, Manifest.key, apiServiceKey, annotationNames,
      StringMap.keys]
  | deployment hd =>
    simp only [deployment, Option.bind_eq_bind, Option.bind_eq_some_iff, Option.some.injEq] at hd
    obtain ⟨container, -, modelConfigMap, -, rfl⟩ := hd
    simp [annotationKeys, Manifest.key, apiServiceKey]
  | apiPDB => simp [annotationKeys, apiPDB, Manifest.key, apiServiceKey]
  | networkPolicy => simp [annotationKeys, networkPolicy, Manifest.key, apiServiceKey]
  | @storeService component ports headless hcomponent =>
    have hname : name ++ "-" ++ component ≠ name ++ "-api" := by
      intro h
      rw [String.append_assoc, String.append_right_inj] at h
      exact hcomponent ((String.append_right_inj "-").mp (h.trans (by decide)))
    simp [annotationKeys, storeService, Manifest.key, apiServiceKey, hname]
  | @storeWorkload component role count env stateful _ hd =>
    simp only [storeWorkload, Option.bind_eq_bind, Option.bind_eq_some_iff, Option.some.injEq] at hd
    obtain ⟨⟨container, volumes⟩, -, rfl⟩ := hd
    cases stateful <;> simp [annotationKeys, Manifest.key, apiServiceKey]

theorem view_shape_annotationPath (d : Manifest) (a : String) :
    (shape d).view (annotationPath a) = none := by
  have hview : (bare d).body.view (annotationPath a) =
      (Json.lookup "annotations" (bare d).metadata.fields).bind (Json.view [a]) := by
    simp [annotationPath, Manifest.body, Json.view_cons, Json.get?]
  rw [← Option.not_isSome_iff_eq_none, shape, Json.isSome_view_outline, hview, lookup_annotations]
  cases hd : d.metadata.annotations <;> simp [bare, hd, isSome_view_stringsJson]

/-- The path is one of the pattern, or leads to an annotation in `X`. -/
def Allows (ns name : String) (X : Set String) (d₀ : Manifest) (p : List String) : Prop :=
  ((shape d₀).view p).isSome ∨ (d₀.key = apiServiceKey ns name ∧ ∃ a ∈ X, p = annotationPath a)

/-- The fields of a desired document: those of its pattern, and its annotations. -/
theorem isSome_view_desired (h : desiredObjects name ns spec = some ds) (hd : d ∈ ds)
    {d₀ : Manifest} (hd₀ : d₀ ∈ patterns ns name) (hkey : d₀.key = d.key) (o : OwnerReference)
    (p : List String) :
    ((d.ownedBy o).body.view p).isSome ↔ Allows ns name {a | a ∈ annotationNames spec} d₀ p := by
  obtain ⟨d₁, hd₁, hkey₁, hshape⟩ := exists_pattern h hd
  obtain rfl := shape_eq hd₀ hd₁ (hkey.trans hkey₁.symm)
  have hbare : ((bare d).body.view p).isSome ↔ ((shape d₀).view p).isSome := by
    rw [hshape, shape, Json.isSome_view_outline]
  rw [isSome_view_body, hbare, annotationKeys_of_built (built_of_mem h hd), Allows, hkey]
  by_cases hapi : d.key = apiServiceKey ns name <;> simp [hapi]

/-! ## Stored objects of a shape -/

/-- The stored objects have only fields of their patterns, and annotations in `X`. -/
def Shaped (ns name : String) (X : Set String) (s : Store) : Prop :=
  ∀ d₀ ∈ patterns ns name, ∀ p, HasField (s d₀.key) p → Allows ns name X d₀ p

/-- A desired document covers a stored object whose annotations are its own. -/
theorem covered_of_shaped {s : Store} {X : Set String} (hs : Shaped ns name X s)
    (hX : ∀ a ∈ X, a ∈ annotationNames spec) (h : desiredObjects name ns spec = some ds)
    (hd : d ∈ ds) (o : OwnerReference) {j : Json} (hj : s d.key = some j) :
    j.Covered (d.ownedBy o).body := by
  intro p hp
  obtain ⟨d₀, hd₀, hkey, -⟩ := exists_pattern h hd
  left
  rw [isSome_view_desired h hd hd₀ hkey]
  rcases hs d₀ hd₀ p ⟨j, hkey ▸ hj, hp⟩ with hshape | ⟨hapi, a, ha, rfl⟩
  · exact .inl hshape
  · exact .inr ⟨hapi, a, hX a ha, rfl⟩

end Kopf

end CubeOperator
