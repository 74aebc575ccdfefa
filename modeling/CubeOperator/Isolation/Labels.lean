import CubeOperator.Go.Readiness

/-! # Label isolation

    Several CubeClusters share a namespace.  The pods of their workloads carry
    the labels of the pod templates, and everything that selects pods does so by
    these labels.  Every selector finds exactly the pods of one component of one
    cluster, and the stores accept traffic from their own cluster only. -/

namespace CubeOperator.Isolation

open Kube V1alpha1 K8s

/-! ## Selecting pods -/

/-- A label selector matches labels that contain all of its own. -/
def Selects (selector labels : List (String × String)) : Prop := ∀ e ∈ selector, e ∈ labels

instance (selector labels : List (String × String)) : Decidable (Selects selector labels) :=
  inferInstanceAs (Decidable (∀ e ∈ selector, e ∈ labels))

@[simp] theorem selects_nil (labels : List (String × String)) : Selects [] labels := by
  simp [Selects]

@[simp] theorem selects_cons {e : String × String} {selector labels : List (String × String)} :
    Selects (e :: selector) labels ↔ e ∈ labels ∧ Selects selector labels := by
  simp [Selects]

def objectMeta : Object → ObjectMeta
  | .service o => o.objectMeta
  | .deployment o => o.objectMeta
  | .statefulSet o => o.objectMeta
  | .podDisruptionBudget o => o.objectMeta
  | .networkPolicy o => o.objectMeta

/-- The selector of a Service, a workload or a disruption budget. -/
def selector : Object → Option (List (String × String))
  | .service o => some o.selector
  | .deployment o => some o.selector
  | .statefulSet o => some o.selector
  | .podDisruptionBudget o => some o.selector
  | .networkPolicy _ => none

/-- The template of the pods that a workload creates. -/
def template : Object → Option PodTemplateSpec
  | .deployment o => some o.template
  | .statefulSet o => some o.template
  | _ => none

/-- The objects generated for a cluster; none when a builder panics. -/
def generated (q : Quantities) (c : CubeCluster) : List Object := (Go.objects q c).getD []

/-- A pod of a workload that was generated for one of the clusters. -/
structure Pod (q : Quantities) (clusters : List CubeCluster) where
  cluster : CubeCluster
  workload : Object
  podTemplate : PodTemplateSpec
  isCluster : cluster ∈ clusters
  isGenerated : workload ∈ generated q cluster
  isTemplate : template workload = some podTemplate

namespace Pod

variable {q : Quantities} {clusters : List CubeCluster}

def labels (p : Pod q clusters) : List (String × String) := p.podTemplate.labels

/-- A pod lives in the namespace of its workload. -/
def ns (p : Pod q clusters) : String := (objectMeta p.workload).ns

/-- The pod belongs to a component of a cluster. -/
def BelongsTo (p : Pod q clusters) (c : CubeCluster) (component : String) : Prop :=
  p.cluster = c ∧ (objectMeta p.workload).name = c.name ++ "-" ++ component

/-- The pod runs Cube Store: the single one, a router or a worker. -/
def IsStore (p : Pod q clusters) (c : CubeCluster) : Prop :=
  ∃ component ∈ ["cubestore", "cubestore-router", "cubestore-worker"], p.BelongsTo c component

end Pod

/-! ## Ingress policies -/

/-- The rule admits a source with the given labels to a port.  A rule without peers
    or without ports does not restrict them. -/
def RuleAdmits (rule : NetworkPolicyIngressRule) (source : List (String × String)) (port : ℤ) :
    Prop :=
  (rule.peers = [] ∨ ∃ peer ∈ rule.peers, Selects peer source) ∧
    (rule.ports = [] ∨ port ∈ rule.ports)

section ingress

variable {q : Quantities} {clusters : List CubeCluster}

/-- The policy restricts the traffic to the pod. -/
def Isolates (policy : NetworkPolicy) (p : Pod q clusters) : Prop :=
  policy.objectMeta.ns = p.ns ∧ "Ingress" ∈ policy.policyTypes ∧ Selects policy.podSelector p.labels

/-- The policies that were generated for the clusters. -/
def IsPolicy (q : Quantities) (clusters : List CubeCluster) (policy : NetworkPolicy) : Prop :=
  ∃ c ∈ clusters, .networkPolicy policy ∈ generated q c

/-- A pod that no policy restricts accepts everything; any other one what some policy
    that restricts it admits.  Peers are pods in the namespace of the policy. -/
def Accepts (p source : Pod q clusters) (port : ℤ) : Prop :=
  (∀ policy, IsPolicy q clusters policy → ¬Isolates policy p) ∨
    ∃ policy, IsPolicy q clusters policy ∧ Isolates policy p ∧ source.ns = policy.objectMeta.ns ∧
      ∃ rule ∈ policy.ingress, RuleAdmits rule source.labels port

end ingress

/-! ## The labels of the objects -/

section labels

variable {q : Quantities} {c c' : CubeCluster} {component component' : String}

/-- The store label is the only one that not all components carry. -/
theorem mem_labels {e : String × String} :
    e ∈ Go.labels c component ↔ e = ("app.kubernetes.io/name", "cube") ∨
      e = ("app.kubernetes.io/instance", c.name) ∨
      e = ("app.kubernetes.io/component", component) ∨ e = ("app.kubernetes.io/part-of", "cube") ∨
      (component.startsWith "cubestore" = true ∧ e = ("platform.cube.dev/store", "true")) := by
  unfold Go.labels
  generalize component.startsWith "cubestore" = isStore
  cases isStore <;> simp

@[simp] theorem instance_mem_labels {name : String} :
    ("app.kubernetes.io/instance", name) ∈ Go.labels c component ↔ name = c.name := by
  simp [mem_labels]

@[simp] theorem component_mem_labels :
    ("app.kubernetes.io/component", component') ∈ Go.labels c component ↔
      component' = component := by
  simp [mem_labels]

@[simp] theorem store_mem_labels :
    ("platform.cube.dev/store", "true") ∈ Go.labels c component ↔
      component.startsWith "cubestore" = true := by
  simp [mem_labels]

/-- Labels of different components, or of different clusters, do not match. -/
theorem selects_labels :
    Selects (Go.labels c component) (Go.labels c' component') ↔
      c.name = c'.name ∧ component = component' := by
  constructor
  · intro h
    have hinstance := h ("app.kubernetes.io/instance", c.name) (by simp)
    have hcomponent := h ("app.kubernetes.io/component", component) (by simp)
    exact ⟨instance_mem_labels.mp hinstance, component_mem_labels.mp hcomponent⟩
  · rintro ⟨hname, rfl⟩ e he
    simpa only [mem_labels, hname] using he

/-- Only labels of the store components carry the store label. -/
theorem selects_networkPolicy :
    Selects (Go.networkPolicy c).podSelector (Go.labels c' component) ↔
      c.name = c'.name ∧ component.startsWith "cubestore" = true := by
  simp only [Go.networkPolicy, selects_cons, selects_nil, instance_mem_labels, store_mem_labels,
    and_true]

end labels

/-! ## The generated objects -/

section generated

variable {q : Quantities} {c : CubeCluster} {o : Object}

/-- The components of a cluster. -/
def components : List String :=
  ["api", "refresh-worker", "cubestore", "cubestore-router", "cubestore-worker"]

/-- The object is one of a component: it is named after it, and it selects its labels
    and gives them to its pods. -/
structure IsOf (c : CubeCluster) (component : String) (o : Object) : Prop where
  isComponent : component ∈ components
  ns : (objectMeta o).ns = c.ns
  name : (objectMeta o).name = c.name ++ "-" ++ component
  selects : selector o = some (Go.labels c component)
  labels : ∀ t, template o = some t → t.labels = Go.labels c component

namespace IsOf

/-- The names in the builders are the literals that `component` is joined to. -/
theorem name_eq (component : String) (name : String) (h : "-" ++ component = name) :
    c.name ++ name = c.name ++ "-" ++ component := by
  rw [← h, String.append_assoc]

theorem apiService : IsOf c "api" (.service (Go.apiService c)) :=
  ⟨by decide, rfl, name_eq "api" "-api" rfl, rfl, by simp [template]⟩

theorem apiPDB : IsOf c "api" (.podDisruptionBudget (Go.apiPDB c)) :=
  ⟨by decide, rfl, name_eq "api" "-api" rfl, rfl, by simp [template]⟩

theorem deployment {component : String} {count : ℤ} {container : Container}
    (h : component ∈ components) :
    IsOf c component (.deployment (Go.deployment c component count container)) :=
  ⟨h, rfl, rfl, rfl, by rintro t ⟨⟩; rfl⟩

theorem storeService {component : String} {headless : Bool} {ports : List ServicePort}
    (h : component ∈ components) :
    IsOf c component
      (.service (Go.storeService c component (Go.labels c component) headless ports)) :=
  ⟨h, rfl, rfl, rfl, by simp [template]⟩

theorem stateful {component : String} {count : ℤ} {container : Container} {volumes : List Volume}
    (h : component ∈ components) :
    IsOf c component (.statefulSet (Go.stateful c component count container volumes)) :=
  ⟨h, rfl, rfl, rfl, by rintro t ⟨⟩; rfl⟩

theorem singleStoreDeployment {d : Deployment} (h : Go.singleStoreDeployment q c = some d) :
    IsOf c "cubestore" (.deployment d) := by
  simp only [Go.singleStoreDeployment, Option.bind_eq_bind, Option.bind_eq_some_iff,
    Option.some.injEq] at h
  obtain ⟨_, -, rfl⟩ := h
  exact ⟨by decide, rfl, name_eq "cubestore" "-cubestore" rfl, rfl, by rintro t ⟨⟩; rfl⟩

theorem routerStatefulSet {s : StatefulSet} (h : Go.routerStatefulSet q c = some s) :
    IsOf c "cubestore-router" (.statefulSet s) := by
  simp only [Go.routerStatefulSet, Option.bind_eq_bind, Option.bind_eq_some_iff,
    Option.some.injEq] at h
  obtain ⟨_, -, _, -, rfl⟩ := h
  exact stateful (by decide)

theorem workerStatefulSet {s : StatefulSet} (h : Go.workerStatefulSet q c = some s) :
    IsOf c "cubestore-worker" (.statefulSet s) := by
  simp only [Go.workerStatefulSet, Option.bind_eq_bind, Option.bind_eq_some_iff,
    Option.some.injEq] at h
  obtain ⟨_, -, _, -, rfl⟩ := h
  exact stateful (by decide)

end IsOf

/-- Every generated object belongs to a component, the network policy apart. -/
theorem isOf_of_generated (h : o ∈ generated q c) :
    o = .networkPolicy (Go.networkPolicy c) ∨ ∃ component, IsOf c component o := by
  have hcommon (ho : o ∈ Go.commonObjects c) :
      o = .networkPolicy (Go.networkPolicy c) ∨ ∃ component, IsOf c component o := by
    simp only [Go.commonObjects, List.mem_cons, List.not_mem_nil, or_false] at ho
    rcases ho with rfl | rfl | rfl | rfl | rfl
    · exact .inr ⟨_, .apiService⟩
    · exact .inr ⟨_, .deployment (by decide)⟩
    · exact .inr ⟨_, .deployment (by decide)⟩
    · exact .inr ⟨_, .apiPDB⟩
    · exact .inl rfl
  unfold generated Go.objects at h
  split at h
  · cases hrouter : Go.routerStatefulSet q c with
    | none => simp [hrouter] at h
    | some router =>
      cases hworker : Go.workerStatefulSet q c with
      | none => simp [hrouter, hworker] at h
      | some worker =>
        simp only [hrouter, hworker, Option.bind_eq_bind, Option.bind_some, Option.getD_some,
          List.mem_append, List.mem_cons, List.not_mem_nil, or_false] at h
        rcases h with h | rfl | rfl | rfl | rfl
        · exact hcommon h
        · exact .inr ⟨_, .storeService (by decide)⟩
        · exact .inr ⟨_, .storeService (by decide)⟩
        · exact .inr ⟨_, .routerStatefulSet hrouter⟩
        · exact .inr ⟨_, .workerStatefulSet hworker⟩
  · cases hstore : Go.singleStoreDeployment q c with
    | none => simp [hstore] at h
    | some store =>
      simp only [hstore, Option.bind_eq_bind, Option.bind_some, Option.getD_some, List.mem_append,
        List.mem_cons, List.not_mem_nil, or_false] at h
      rcases h with h | rfl | rfl
      · exact hcommon h
      · exact .inr ⟨_, .storeService (by decide)⟩
      · exact .inr ⟨_, .singleStoreDeployment hstore⟩

/-- The policy is there when anything is. -/
theorem networkPolicy_generated (h : o ∈ generated q c) :
    .networkPolicy (Go.networkPolicy c) ∈ generated q c := by
  unfold generated at h ⊢
  cases hobjects : Go.objects q c with
  | none => simp [hobjects] at h
  | some os =>
    have hcommon : ∃ rest, os = Go.commonObjects c ++ rest := by
      unfold Go.objects at hobjects
      split at hobjects
      · simp only [Option.bind_eq_bind, Option.bind_eq_some_iff, Option.some.injEq] at hobjects
        obtain ⟨_, -, _, -, rfl⟩ := hobjects
        exact ⟨_, rfl⟩
      · simp only [Option.bind_eq_bind, Option.bind_eq_some_iff, Option.some.injEq] at hobjects
        obtain ⟨_, -, rfl⟩ := hobjects
        exact ⟨_, rfl⟩
    obtain ⟨rest, rfl⟩ := hcommon
    simp [Go.commonObjects]

/-- The only generated policy is the one of the cluster. -/
theorem eq_networkPolicy {policy : NetworkPolicy} (h : .networkPolicy policy ∈ generated q c) :
    policy = Go.networkPolicy c := by
  rcases isOf_of_generated h with heq | ⟨component, hof⟩
  · exact Object.networkPolicy.inj heq
  · cases hof.selects

end generated

/-! ## Isolation -/

section isolation

variable {q : Quantities} {clusters : List CubeCluster} {c : CubeCluster} {component : String}

/-- A pod has the labels of its component. -/
theorem Pod.isOf (p : Pod q clusters) : ∃ component ∈ components,
    p.BelongsTo p.cluster component ∧ p.labels = Go.labels p.cluster component ∧
      p.ns = p.cluster.ns := by
  obtain ⟨cluster, workload, t, hcluster, hgenerated, htemplate⟩ := p
  rcases isOf_of_generated hgenerated with rfl | ⟨component, hof⟩
  · cases htemplate
  · exact ⟨component, hof.isComponent, ⟨rfl, hof.name⟩, hof.labels t htemplate, hof.ns⟩

/-- A pod belongs to one component only. -/
theorem Pod.BelongsTo.unique {p : Pod q clusters} {component' : String}
    (h : p.BelongsTo c component) (h' : p.BelongsTo c component') : component = component' := by
  have hname := h.2.symm.trans h'.2
  exact (String.append_right_inj _).mp hname

/-- Clusters of one name are one cluster. -/
theorem eq_of_name (hnames : (clusters.map CubeCluster.name).Nodup) {c₁ c₂ : CubeCluster}
    (h₁ : c₁ ∈ clusters) (h₂ : c₂ ∈ clusters) (h : c₁.name = c₂.name) : c₁ = c₂ :=
  List.inj_on_of_nodup_map hnames h₁ h₂ h

/-- The labels of a component select its pods. -/
theorem selects_iff_belongsTo (hnames : (clusters.map CubeCluster.name).Nodup) (hc : c ∈ clusters)
    (p : Pod q clusters) :
    Selects (Go.labels c component) p.labels ↔ p.BelongsTo c component := by
  obtain ⟨component', -, hbelongs, hlabels, -⟩ := p.isOf
  rw [hlabels, selects_labels]
  constructor
  · rintro ⟨hname, rfl⟩
    obtain rfl := eq_of_name hnames hc p.isCluster hname
    exact hbelongs
  · intro hp
    obtain rfl : p.cluster = c := hp.1
    exact ⟨rfl, hp.unique hbelongs⟩

/-- Of the components, those of the store are the ones with its prefix. -/
theorem store_components : ∀ component ∈ components,
    component.startsWith "cubestore" = true ↔
      component ∈ ["cubestore", "cubestore-router", "cubestore-worker"] := by
  decide +kernel

theorem networkPolicy_selects_iff (hnames : (clusters.map CubeCluster.name).Nodup)
    (hc : c ∈ clusters) (p : Pod q clusters) :
    Selects (Go.networkPolicy c).podSelector p.labels ↔ p.IsStore c := by
  obtain ⟨component, hcomponent, hbelongs, hlabels, -⟩ := p.isOf
  rw [hlabels, selects_networkPolicy, store_components component hcomponent]
  constructor
  · rintro ⟨hname, hstore⟩
    obtain rfl := eq_of_name hnames hc p.isCluster hname
    exact ⟨component, hstore, hbelongs⟩
  · rintro ⟨component', hstore, hp⟩
    obtain rfl : p.cluster = c := hp.1
    obtain rfl := hp.unique hbelongs
    exact ⟨rfl, hstore⟩

/-- The rule of a policy admits the pods of its cluster to the ports of the store. -/
theorem ruleAdmits_iff (hnames : (clusters.map CubeCluster.name).Nodup) (hc : c ∈ clusters)
    (source : Pod q clusters) {port : ℤ} :
    (∃ rule ∈ (Go.networkPolicy c).ingress, RuleAdmits rule source.labels port) ↔
      source.cluster = c ∧ port ∈ [3030, 9001, 9999] := by
  obtain ⟨component, -, hbelongs, hlabels, -⟩ := source.isOf
  have hcluster : c.name = source.cluster.name ↔ source.cluster = c :=
    ⟨fun h => eq_of_name hnames source.isCluster hc h.symm, fun h => by rw [h]⟩
  simp [Go.networkPolicy, RuleAdmits, hlabels, hcluster]

/-- A policy restricts exactly the store pods of its cluster. -/
theorem isolates_iff {ns : String} (hns : ∀ c ∈ clusters, c.ns = ns)
    (hnames : (clusters.map CubeCluster.name).Nodup) (hc : c ∈ clusters) (p : Pod q clusters) :
    Isolates (Go.networkPolicy c) p ↔ p.IsStore c := by
  have hsame : (Go.networkPolicy c).objectMeta.ns = p.ns := by
    obtain ⟨-, -, -, -, hp⟩ := p.isOf
    rw [hp, hns _ p.isCluster]
    exact hns c hc
  have hingress : "Ingress" ∈ (Go.networkPolicy c).policyTypes := List.mem_singleton_self _
  unfold Isolates
  rw [networkPolicy_selects_iff hnames hc p]
  exact ⟨fun h => h.2.2, fun h => ⟨hsame, hingress, h⟩⟩

/-- A store pod accepts what the policy of its own cluster admits. -/
theorem accepts_iff {ns : String} (hns : ∀ c ∈ clusters, c.ns = ns)
    (hnames : (clusters.map CubeCluster.name).Nodup) {p : Pod q clusters} (hp : p.IsStore c)
    (source : Pod q clusters) {port : ℤ} :
    Accepts p source port ↔ source.cluster = c ∧ port ∈ [3030, 9001, 9999] := by
  obtain ⟨component, hstore, hbelongs⟩ := hp
  obtain rfl : p.cluster = c := hbelongs.1
  have hpolicy : IsPolicy q clusters (Go.networkPolicy p.cluster) :=
    ⟨p.cluster, p.isCluster, networkPolicy_generated p.isGenerated⟩
  have hisolates : Isolates (Go.networkPolicy p.cluster) p :=
    (isolates_iff hns hnames p.isCluster p).mpr ⟨component, hstore, hbelongs⟩
  constructor
  · rintro (hfree | ⟨policy, ⟨c', hc', hgenerated⟩, hrestricts, -, hrule⟩)
    · exact absurd hisolates (hfree _ hpolicy)
    · -- only the policy of the pod's own cluster restricts it
      obtain rfl := eq_networkPolicy hgenerated
      obtain ⟨_, -, hbelongs'⟩ := (isolates_iff hns hnames hc' p).mp hrestricts
      obtain rfl : p.cluster = c' := hbelongs'.1
      exact (ruleAdmits_iff hnames hc' source).mp hrule
  · intro h
    refine .inr ⟨_, hpolicy, hisolates, ?_, (ruleAdmits_iff hnames p.isCluster source).mpr h⟩
    obtain ⟨-, -, -, -, hsource⟩ := source.isOf
    rw [hsource, h.1]
    rfl

/-- Label isolation.  Whatever the specs, each selector of a cluster finds exactly the
    pods of one of its components, its network policy exactly its store pods, and these
    accept traffic from the pods of the cluster on the ports of the store, and no other. -/
theorem labels_isolate (q : Quantities) (ns : String) (clusters : List CubeCluster)
    (hns : ∀ c ∈ clusters, c.ns = ns) (hnames : (clusters.map CubeCluster.name).Nodup) :
    (∀ c ∈ clusters, ∀ o ∈ generated q c, ∀ labels, selector o = some labels →
      ∃ component ∈ components, (objectMeta o).name = c.name ++ "-" ++ component ∧
        ∀ p : Pod q clusters, Selects labels p.labels ↔ p.BelongsTo c component) ∧
    (∀ c ∈ clusters, ∀ policy, .networkPolicy policy ∈ generated q c → ∀ p : Pod q clusters,
      (Selects policy.podSelector p.labels ↔ p.IsStore c) ∧
        ∀ c', p.BelongsTo c' "api" ∨ p.BelongsTo c' "refresh-worker" →
          ¬Selects policy.podSelector p.labels) ∧
    (∀ c (p : Pod q clusters), p.IsStore c → ∀ (source : Pod q clusters) (port : ℤ),
      Accepts p source port ↔ source.cluster = c ∧ port ∈ [3030, 9001, 9999]) := by
  refine ⟨fun c hc o ho labels hlabels => ?_, fun c hc policy hpolicy p => ?_,
    fun c p hp source port => accepts_iff hns hnames hp source⟩
  · rcases isOf_of_generated ho with rfl | ⟨component, hof⟩
    · cases hlabels
    · have hselects := hof.selects
      rw [hlabels, Option.some.injEq] at hselects
      subst hselects
      exact ⟨component, hof.isComponent, hof.name, selects_iff_belongsTo hnames hc⟩
  · obtain rfl := eq_networkPolicy hpolicy
    have hiff := networkPolicy_selects_iff hnames hc p
    refine ⟨hiff, fun c' hother hselects => ?_⟩
    obtain ⟨component, hstore, hbelongs⟩ := hiff.mp hselects
    obtain rfl : p.cluster = c := hbelongs.1
    rcases hother with hother | hother
    · obtain rfl : p.cluster = c' := hother.1
      obtain rfl := hbelongs.unique hother
      simp at hstore
    · obtain rfl : p.cluster = c' := hother.1
      obtain rfl := hbelongs.unique hother
      simp at hstore

end isolation

/-! ### Two clusters -/

/-- A clustered CubeCluster named like a component of `smallCluster`. -/
def storeNamed : CubeCluster where
  name := "cube-cubestore"
  ns := "default"
  uid := "other"
  generation := 1
  spec := { Go.smallCluster.spec with
    cubeStore := { Go.smallCluster.spec.cubeStore with mode := "clustered" } }

/-- The router of the one cluster accepts traffic from its own API, and not from the API
    of the other. -/
theorem labels_isolate_storeNamed :
    ∃ router other own : Pod digitQuantities [Go.smallCluster, storeNamed],
      router.BelongsTo storeNamed "cubestore-router" ∧ other.BelongsTo Go.smallCluster "api" ∧
        own.BelongsTo storeNamed "api" ∧ ¬Accepts router other 9999 ∧ Accepts router own 9999 := by
  let router : Pod digitQuantities [Go.smallCluster, storeNamed] :=
    ⟨storeNamed, (generated digitQuantities storeNamed).get ⟨7, by decide⟩, _, by simp,
      List.get_mem .., rfl⟩
  let other : Pod digitQuantities [Go.smallCluster, storeNamed] :=
    ⟨Go.smallCluster, (generated digitQuantities Go.smallCluster).get ⟨1, by decide⟩, _, by simp,
      List.get_mem .., rfl⟩
  let own : Pod digitQuantities [Go.smallCluster, storeNamed] :=
    ⟨storeNamed, (generated digitQuantities storeNamed).get ⟨1, by decide⟩, _, by simp,
      List.get_mem .., rfl⟩
  have hrouter : router.BelongsTo storeNamed "cubestore-router" := ⟨rfl, by decide⟩
  have hisolated := (labels_isolate digitQuantities "default" [Go.smallCluster, storeNamed]
    (by simp [Go.smallCluster, storeNamed]) (by decide)).2.2 storeNamed router
    ⟨"cubestore-router", by decide, hrouter⟩
  refine ⟨router, other, own, hrouter, ⟨rfl, by decide⟩, ⟨rfl, by decide⟩, ?_, ?_⟩
  · rw [hisolated]
    rintro ⟨hsame, -⟩
    have hname : Go.smallCluster.name = storeNamed.name := congrArg CubeCluster.name hsame
    exact absurd hname (by decide)
  · exact (hisolated own 9999).mpr ⟨rfl, by decide⟩

end CubeOperator.Isolation
