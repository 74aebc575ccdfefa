import CubeOperator.Go.Controller

/-! # What the Go validation checks

    `validateReferences` accepts exactly the valid specs whose references it
    finds. -/

namespace CubeOperator.Go

open Interaction Kube V1alpha1

variable {q : Quantities} {c : CubeCluster}

/-! ## Valid specs -/

/-- The storage of the chosen type is described. -/
def StorageValid (storage : RemoteStorageSpec) : Prop :=
  (storage.type = "persistentVolume" ∧
    ∃ pv, storage.persistentVolume = some pv ∧ pv.existingClaim ≠ "") ∨
  (storage.type = "s3" ∧ ∃ s3, storage.s3 = some s3 ∧ s3.bucket ≠ "" ∧ s3.region ≠ "")

/-- What `validateReferences` demands of the spec itself. -/
structure Valid (q : Quantities) (c : CubeCluster) : Prop where
  model : c.spec.modelConfigMap ≠ ""
  configuration : c.spec.configurationSecret ≠ ""
  api : 1 ≤ replicas c.spec.api.replicas 2
  refresh : 1 ≤ replicas c.spec.refreshWorker.replicas 1
  workers : storeMode c = "clustered" → 1 ≤ replicas c.spec.cubeStore.workers 2
  mode : c.spec.cubeStore.mode = "" ∨ c.spec.cubeStore.mode = "single" ∨
    c.spec.cubeStore.mode = "clustered"
  scratch : c.spec.cubeStore.scratch.size ≠ "" → (q.value c.spec.cubeStore.scratch.size).isSome
  nodePort : c.spec.service.nodePort ≠ 0 →
    c.spec.service.type = "NodePort" ∨ c.spec.service.type = "LoadBalancer"
  storage : StorageValid c.spec.cubeStore.remoteStorage

/-- The objects the storage refers to. -/
def storageReferences (c : CubeCluster) : List Key :=
  let storage := c.spec.cubeStore.remoteStorage
  if storage.type = "persistentVolume" then
    [⟨.persistentVolumeClaim, c.ns, (storage.persistentVolume.map (·.existingClaim)).getD ""⟩]
  else if (storage.s3.getD {}).secretRef ≠ "" then
    [⟨.secret, c.ns, (storage.s3.getD {}).secretRef⟩]
  else []

/-- The objects the spec refers to. -/
def references (c : CubeCluster) : List Key :=
  [⟨.configMap, c.ns, c.spec.modelConfigMap⟩, ⟨.secret, c.ns, c.spec.configurationSecret⟩] ++
    storageReferences c

/-- The object was read in the run. -/
def WasRead (tr : List Exchange) (k : Key) : Prop := ∃ l, Exchange.got k (.ok l) ∈ tr

/-- The error `err` reports the failed call `ev`. -/
def Blames (ev : Exchange) (err : GoError) : Prop := ∃ e, ev.error? = some e ∧ err.api = some e

/-- Only failed calls make this part of a pass fail, and each of them does. -/
abbrev FailsByCalls {α : Type} (V : GoError → Prop) : OpE GoError α → Prop :=
  Accounts (fun ev : Exchange => ev.error? = none) Blames V

/-! ## What validation does -/

theorem exec_lookup_ok {context name : String} {kind : Kind} {tr : List Exchange} {u : Unit}
    (h : Exec (lookup context kind c name).run tr (.ok u)) : WasRead tr ⟨kind, c.ns, name⟩ := by
  simp only [lookup, Exec.attempt_bind_ok_iff, exec_getObject] at h
  obtain ⟨_, l, tr₂, rfl, ⟨s, rfl, hs⟩, -⟩ := h
  cases s with
  | ok l' => exact ⟨l', by simp⟩
  | error e => cases hs

theorem failsByCalls_getObject {wrap : ApiError → GoError} {key : Key} {V : GoError → Prop}
    (hwrap : ∀ e, (wrap e).api = some e) :
    FailsByCalls V (CubeOperator.getObject wrap key) := by
  refine Accounts.call (fun r l h => ?_) fun r err h => ?_
  · cases r with
    | ok l => rfl
    | error e => cases h
  · cases r with
    | ok l => cases h
    | error e => cases h; exact ⟨e, rfl, hwrap e⟩

theorem failsByCalls_lookup {context name : String} {kind : Kind} {V : GoError → Prop} :
    FailsByCalls V (lookup context kind c name) :=
  Accounts.bind (failsByCalls_getObject fun _ => rfl) fun _ _ => Accounts.pure ()

theorem exec_validateStorage_ok {tr : List Exchange} {u : Unit}
    (h : Exec (validateStorage c).run tr (.ok u)) :
    StorageValid c.spec.cubeStore.remoteStorage ∧ ∀ k ∈ storageReferences c, WasRead tr k := by
  unfold validateStorage at h
  unfold storageReferences
  dsimp only at h ⊢
  split at h
  · rename_i htype
    simp only [Exec.attempt_bind_ok_iff, Exec.failIf_ok_iff] at h
    obtain ⟨_, _, tr₂, rfl, ⟨rfl, hclaim⟩, h⟩ := h
    refine ⟨.inl ⟨htype, ?_⟩, ?_⟩
    · cases hpv : c.spec.cubeStore.remoteStorage.persistentVolume with
      | none => simp [hpv] at hclaim
      | some pv => exact ⟨pv, rfl, by simpa [hpv] using hclaim⟩
    · simpa [htype] using exec_lookup_ok h
  · split at h
    · rename_i hpv htype
      simp only [Exec.attempt_bind_ok_iff, Exec.failIf_ok_iff] at h
      obtain ⟨_, _, tr₂, rfl, ⟨rfl, hs3⟩, h⟩ := h
      refine ⟨.inr ⟨htype, ?_⟩, ?_⟩
      · cases hsome : c.spec.cubeStore.remoteStorage.s3 with
        | none => simp [hsome] at hs3
        | some s3 => exact ⟨s3, rfl, by simpa [hsome] using hs3⟩
      · split at h
        · rename_i hsecret
          simpa [hpv, hsecret] using exec_lookup_ok h
        · rename_i hsecret
          simp [hpv, hsecret]
    · simp at h

/-- A spec that is accepted is valid, and its references have been read. -/
theorem exec_validateReferences_ok {tr : List Exchange} {u : Unit}
    (h : Exec (validateReferences q c).run tr (.ok u)) :
    Valid q c ∧ ∀ k ∈ references c, WasRead tr k := by
  simp only [validateReferences, Exec.attempt_bind_ok_iff, Exec.failIf_ok_iff] at h
  obtain ⟨_, _, _, rfl, ⟨rfl, hrequired⟩, tr₁, _, _, rfl, hmodel, tr₂, _, _, rfl, hconfiguration,
    _, _, _, rfl, ⟨rfl, hcounts⟩, _, _, _, rfl, ⟨rfl, hworkers⟩, _, _, _, rfl, ⟨rfl, hmode⟩,
    _, _, _, rfl, ⟨rfl, hscratch⟩, _, _, tr₃, rfl, ⟨rfl, hnodePort⟩, hstorage⟩ := h
  obtain ⟨hvalid, hread⟩ := exec_validateStorage_ok hstorage
  simp only [Bool.or_eq_false_iff, decide_eq_false_iff_not] at hrequired hcounts
  refine ⟨{
    model := hrequired.1
    configuration := hrequired.2
    api := by omega
    refresh := by omega
    workers := by simpa using hworkers
    mode := by
      by_cases h₁ : c.spec.cubeStore.mode = ""
      · exact .inl h₁
      by_cases h₂ : c.spec.cubeStore.mode = "single"
      · exact .inr (.inl h₂)
      · simpa [h₁, h₂] using hmode
    scratch := by
      intro hsize
      simpa [hsize, Option.isSome_iff_ne_none] using hscratch
    nodePort := by
      intro hport
      by_cases ht : c.spec.service.type = "NodePort"
      · exact .inl ht
      · simpa [hport, ht] using hnodePort
    storage := hvalid }, ?_⟩
  intro k hk
  simp only [references, List.cons_append, List.nil_append, List.mem_cons] at hk
  rcases hk with rfl | rfl | hk
  · obtain ⟨l, hl⟩ := exec_lookup_ok hmodel
    exact ⟨l, by simp [hl]⟩
  · obtain ⟨l, hl⟩ := exec_lookup_ok hconfiguration
    exact ⟨l, by simp [hl]⟩
  · obtain ⟨l, hl⟩ := hread k hk
    exact ⟨l, by simp [hl]⟩

theorem failsByCalls_validateStorage (hvalid : StorageValid c.spec.cubeStore.remoteStorage) :
    FailsByCalls (fun _ => False) (validateStorage c) := by
  unfold validateStorage
  rcases hvalid with ⟨htype, pv, hpv, hclaim⟩ | ⟨htype, s3, hs3, hbucket, hregion⟩
  · simp only [htype, hpv]
    exact Accounts.bind (Accounts.failIf (by simp [hclaim])) fun _ _ => failsByCalls_lookup
  · simp only [htype, hs3]
    refine Accounts.bind (Accounts.failIf (by simp [hbucket, hregion])) fun _ _ => ?_
    split
    · exact failsByCalls_lookup
    · exact Accounts.pure ()

/-- A valid spec is refused only because a lookup failed. -/
theorem failsByCalls_validateReferences (hvalid : Valid q c) :
    FailsByCalls (fun _ => False) (validateReferences q c) := by
  obtain ⟨hmodel, hconfiguration, hapi, hrefresh, hworkers, hmode, hscratch, hnodePort, hstorage⟩ :=
    hvalid
  unfold validateReferences
  refine Accounts.bind (Accounts.failIf (by simp [hmodel, hconfiguration])) fun _ _ => ?_
  refine Accounts.bind (failsByCalls_lookup) fun _ _ => ?_
  refine Accounts.bind (failsByCalls_lookup) fun _ _ => ?_
  refine Accounts.bind (Accounts.failIf (by simp; omega)) fun _ _ => ?_
  refine Accounts.bind (Accounts.failIf (by simpa using hworkers)) fun _ _ => ?_
  refine Accounts.bind (Accounts.failIf (by rcases hmode with h | h | h <;> simp [h])) fun _ _ => ?_
  refine Accounts.bind (Accounts.failIf ?_) fun _ _ => ?_
  · simpa [Option.isSome_iff_ne_none] using hscratch
  refine Accounts.bind (Accounts.failIf ?_) fun _ _ => failsByCalls_validateStorage hstorage
  by_cases hport : c.spec.service.nodePort = 0
  · simp [hport]
  · rcases hnodePort hport with h | h <;> simp [h]

/-! ## Only lookups -/

/-- A lookup of one of the objects `keys`. -/
def IsLookup (keys : List Key) (e : Exchange) : Prop := ∃ k ∈ keys, ∃ r, e = .got k r

theorem references_kind {k : Key} (hk : k ∈ references c) : k.kind.isReference := by
  simp only [references, storageReferences, List.cons_append, List.nil_append,
    List.mem_cons] at hk
  rcases hk with rfl | rfl | hk
  · rfl
  · rfl
  · split at hk
    · obtain rfl := List.mem_singleton.mp hk
      rfl
    · split at hk
      · obtain rfl := List.mem_singleton.mp hk
        rfl
      · simp at hk

theorem only_lookup {keys : List Key} {context name : String} {kind : Kind}
    (hk : ⟨kind, c.ns, name⟩ ∈ keys) : Only (IsLookup keys) (lookup context kind c name).run :=
  Only.attemptBind (fun r => ⟨⟨_, hk, r, rfl⟩, trivial⟩) fun _ => trivial

theorem only_validateStorage : Only (IsLookup (storageReferences c)) (validateStorage c).run := by
  unfold validateStorage storageReferences
  dsimp only
  split
  · exact Only.attemptBind (Only.failIf _ _) fun _ => only_lookup (by simp)
  · split
    · split
      · exact Only.attemptBind (Only.failIf _ _) fun _ => only_lookup (by simp)
      · trivial
    · split
      · exact Only.attemptBind (Only.failIf _ _) fun _ => trivial
      · trivial

theorem only_validateReferences :
    Only (IsLookup (references c)) (validateReferences q c).run := by
  unfold validateReferences
  refine Only.attemptBind (Only.failIf _ _) fun _ => ?_
  refine Only.attemptBind (only_lookup (by simp [references])) fun _ => ?_
  refine Only.attemptBind (only_lookup (by simp [references])) fun _ => ?_
  refine Only.attemptBind (Only.failIf _ _) fun _ => ?_
  refine Only.attemptBind (Only.failIf _ _) fun _ => ?_
  refine Only.attemptBind (Only.failIf _ _) fun _ => ?_
  refine Only.attemptBind (Only.failIf _ _) fun _ => ?_
  refine Only.attemptBind (Only.failIf _ _) fun _ => ?_
  refine only_validateStorage.mono ?_
  rintro e ⟨k, hk, hr⟩
  exact ⟨k, by simp [references, hk], hr⟩

end CubeOperator.Go
