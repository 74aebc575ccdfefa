import CubeOperator.Kube.Objects

/-! # The objects of one CubeCluster

    Which objects a CubeCluster named `name` in the namespace `ns` has: those of
    Cube itself, and those of one of the two store topologies. -/

namespace CubeOperator

open Kube

/-! ## Keys -/

/-- The objects of Cube itself, which every CubeCluster has. -/
def coreKeys (ns name : String) : List Key :=
  [⟨.service, ns, name ++ "-api"⟩, ⟨.deployment, ns, name ++ "-api"⟩,
    ⟨.deployment, ns, name ++ "-refresh-worker"⟩, ⟨.podDisruptionBudget, ns, name ++ "-api"⟩,
    ⟨.networkPolicy, ns, name ++ "-cubestore"⟩]

/-- The objects of a single store. -/
def singleKeys (ns name : String) : List Key :=
  [⟨.service, ns, name ++ "-cubestore"⟩, ⟨.deployment, ns, name ++ "-cubestore"⟩]

/-- The objects of a clustered store. -/
def clusteredKeys (ns name : String) : List Key :=
  [⟨.service, ns, name ++ "-cubestore-router"⟩, ⟨.service, ns, name ++ "-cubestore-worker"⟩,
    ⟨.statefulSet, ns, name ++ "-cubestore-router"⟩,
    ⟨.statefulSet, ns, name ++ "-cubestore-worker"⟩]

/-- The objects of a store topology. -/
def storeKeys (clustered : Bool) (ns name : String) : List Key :=
  if clustered then clusteredKeys ns name else singleKeys ns name

/-- The objects of a CubeCluster with the given topology. -/
def clusterKeys (clustered : Bool) (ns name : String) : List Key :=
  coreKeys ns name ++ storeKeys clustered ns name

/-- All objects a CubeCluster can have. -/
def managedKeys (ns name : String) : List Key :=
  coreKeys ns name ++ (singleKeys ns name ++ clusteredKeys ns name)

variable {ns name : String} {clustered : Bool}

theorem managedKeys_nodup (ns name : String) : (managedKeys ns name).Nodup := by
  simp [managedKeys, coreKeys, singleKeys, clusteredKeys]

/-- A managed object belongs to the cluster as it is, or to the other topology. -/
theorem mem_managedKeys {k : Key} :
    k ∈ managedKeys ns name ↔
      k ∈ clusterKeys clustered ns name ∨ k ∈ storeKeys (!clustered) ns name := by
  cases clustered <;> simp only [managedKeys, clusterKeys, storeKeys, List.mem_append] <;> tauto

theorem clusterKeys_nodup (clustered : Bool) (ns name : String) :
    (clusterKeys clustered ns name).Nodup := by
  cases clustered <;> simp [clusterKeys, storeKeys, coreKeys, singleKeys, clusteredKeys]

/-- The topologies have no object in common, and none with Cube itself. -/
theorem notMem_clusterKeys {k : Key} (h : k ∈ storeKeys (!clustered) ns name) :
    k ∉ clusterKeys clustered ns name := by
  have hnodup := managedKeys_nodup ns name
  rw [managedKeys, List.nodup_append, List.nodup_append] at hnodup
  obtain ⟨-, ⟨-, -, hstores⟩, hcore⟩ := hnodup
  unfold clusterKeys
  rw [List.mem_append]
  cases clustered with
  | false =>
    rintro (h' | h')
    · exact hcore _ h' _ (List.mem_append_right _ h) rfl
    · exact hstores _ h' _ h rfl
  | true =>
    rintro (h' | h')
    · exact hcore _ h' _ (List.mem_append_left _ h) rfl
    · exact hstores _ h _ h' rfl

/-- No managed object is of a kind that a spec refers to. -/
theorem clusterKeys_kind : ∀ k ∈ clusterKeys clustered ns name, k.kind.isReference = false := by
  cases clustered <;>
    simp [clusterKeys, coreKeys, storeKeys, singleKeys, clusteredKeys, Kind.isReference]

theorem clusterKeys_ns : ∀ k ∈ clusterKeys clustered ns name, k.ns = ns := by
  cases clustered <;> simp [clusterKeys, coreKeys, storeKeys, singleKeys, clusteredKeys]

/-! ## Names -/

/-- What the names of managed objects add to the name of their CubeCluster. -/
def suffixes : List String :=
  ["-api", "-refresh-worker", "-cubestore", "-cubestore-router", "-cubestore-worker"]

theorem managedKeys_name {k : Key} (h : k ∈ managedKeys ns name) :
    k.ns = ns ∧ ∃ suffix ∈ suffixes, k.name = name ++ suffix := by
  simp only [managedKeys, coreKeys, singleKeys, clusteredKeys, List.cons_append, List.nil_append,
    List.mem_cons, List.not_mem_nil, or_false] at h
  rcases h with rfl | rfl | rfl | rfl | rfl | rfl | rfl | rfl | rfl | rfl | rfl <;>
    exact ⟨rfl, _, by decide, rfl⟩

theorem managedKeys_kind : ∀ k ∈ managedKeys ns name, k.kind.isReference = false := by
  simp [managedKeys, coreKeys, singleKeys, clusteredKeys, Kind.isReference]

/-- No suffix ends in another one. -/
theorem suffixes_suffix : ∀ suffix ∈ suffixes, ∀ suffix' ∈ suffixes,
    suffix.toList <:+ suffix'.toList → suffix = suffix' := by
  decide +kernel

/-- The name of a managed object tells the name of its CubeCluster. -/
theorem name_eq_of_append {name' suffix suffix' : String} (hs : suffix ∈ suffixes)
    (hs' : suffix' ∈ suffixes) (h : name ++ suffix = name' ++ suffix') : name = name' := by
  have hsuffix : suffix = suffix' := by
    have hlist : name.toList ++ suffix.toList = name'.toList ++ suffix'.toList := by
      rw [← String.toList_append, h, String.toList_append]
    rcases List.append_eq_append_iff.mp hlist with ⟨l, -, hl⟩ | ⟨l, -, hl⟩
    · exact (suffixes_suffix _ hs' _ hs ⟨l, hl.symm⟩).symm
    · exact suffixes_suffix _ hs _ hs' ⟨l, hl.symm⟩
  rw [hsuffix] at h
  exact (String.append_left_inj _).mp h

/-- CubeClusters of different names have no object in common. -/
theorem managedKeys_disjoint {name' : String} (hne : name ≠ name') {k : Key}
    (h : k ∈ managedKeys ns name) : k ∉ managedKeys ns name' := by
  intro h'
  obtain ⟨-, suffix, hs, hname⟩ := managedKeys_name h
  obtain ⟨-, suffix', hs', hname'⟩ := managedKeys_name h'
  exact hne (name_eq_of_append hs hs' (hname.symm.trans hname'))

end CubeOperator
