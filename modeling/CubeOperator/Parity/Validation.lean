import CubeOperator.Go.Validation
import CubeOperator.Kopf.Validation

/-! # The two validators compared

    Both controllers refuse a spec before they touch an object.  They check the
    same clauses, the sign of the scratch size apart: only the Kopf controller
    wants it to be positive. -/

namespace CubeOperator

open Interaction Kube V1alpha1

variable {q : Quantities} {s : Crd.Spec} {c : CubeCluster}

/-! ## The clauses on the stored spec -/

/-- The clauses that both validators check. -/
structure SharedClauses (s : Crd.Spec) : Prop where
  model : s.modelConfigMap.getD "" ≠ ""
  configuration : s.configurationSecret.getD "" ≠ ""
  api : 1 ≤ (s.api.getD {}).replicas.getD 2
  refresh : 1 ≤ (s.refreshWorker.getD {}).replicas.getD 1
  workers : (s.cubeStore.getD {}).mode = some "clustered" →
    1 ≤ (s.cubeStore.getD {}).workers.getD 2
  nodePort : (s.service.getD {}).nodePort.getD 0 ≠ 0 →
    (s.service.getD {}).type = some "NodePort" ∨ (s.service.getD {}).type = some "LoadBalancer"
  storage : Kopf.StorageValid (Kopf.remoteStorage s)

/-- The schema leaves three ways to choose the mode. -/
theorem mode_of_admits (hs : s.Admits) :
    (s.cubeStore.getD {}).mode = none ∨ (s.cubeStore.getD {}).mode = some "single" ∨
      (s.cubeStore.getD {}).mode = some "clustered" := by
  rcases hs with rfl | hs
  · exact .inl rfl
  · simp only [Crd.Spec.admitsPresent, Bool.and_eq_true] at hs
    obtain ⟨⟨-, hstore⟩, -⟩ := hs
    cases hsome : s.cubeStore with
    | none => simp [hsome, Crd.required] at hstore
    | some store =>
      simp only [hsome, Crd.required, Crd.CubeStoreSpec.admits, Bool.and_eq_true] at hstore
      obtain ⟨⟨hmode, -⟩, -⟩ := hstore
      cases hmode' : store.mode with
      | none => simp [hmode']
      | some m => simpa [hmode', Crd.optional] using hmode

theorem getD_eq_iff {a : Option String} {fallback v : String} (h : fallback ≠ v) :
    a.getD fallback = v ↔ a = some v := by
  cases a <;> simp [h]

theorem kopf_valid_iff (hs : s.Admits) :
    Kopf.Valid q s ↔ SharedClauses s ∧
      (Kopf.scratchSize s ≠ "" → ∃ v, q.value (Kopf.scratchSize s) = some v ∧ 0 < v) := by
  have hmode := mode_of_admits hs
  have hNodePort : (s.service.getD {}).type.getD "ClusterIP" = "NodePort" ↔
      (s.service.getD {}).type = some "NodePort" := getD_eq_iff (by decide)
  have hLoadBalancer : (s.service.getD {}).type.getD "ClusterIP" = "LoadBalancer" ↔
      (s.service.getD {}).type = some "LoadBalancer" := getD_eq_iff (by decide)
  have hclustered : (s.cubeStore.getD {}).mode.getD "single" = "clustered" ↔
      (s.cubeStore.getD {}).mode = some "clustered" := getD_eq_iff (by decide)
  constructor
  · intro h
    refine ⟨⟨h.model, h.configuration, h.api, h.refresh, ?_, ?_, h.storage⟩, h.scratch⟩
    · exact fun hm => h.workers (hclustered.mpr hm)
    · exact fun hp => (h.nodePort hp).imp hNodePort.mp hLoadBalancer.mp
  · rintro ⟨h, hscratch⟩
    refine ⟨h.model, h.configuration, h.api, h.refresh, ?_, ?_, hscratch, ?_, h.storage⟩
    · rcases hmode with hm | hm | hm <;> simp [hm]
    · exact fun hm => h.workers (hclustered.mp hm)
    · exact fun hp => (h.nodePort hp).imp hNodePort.mpr hLoadBalancer.mpr

/-! ## The same clauses on the decoded spec -/

theorem storageValid_decode (r : Crd.RemoteStorageSpec) :
    Go.StorageValid (decodeRemoteStorage r) ↔ Kopf.StorageValid r := by
  have htype {v : String} (hv : "" ≠ v) : r.type.getD "" = v ↔ r.type = some v := getD_eq_iff hv
  unfold Go.StorageValid Kopf.StorageValid
  rw [decodeRemoteStorage, htype (by decide), htype (by decide)]
  cases r.persistentVolume <;> cases r.s3 <;> simp

theorem storeMode_decode (hc : Decoded q s c.spec) :
    Go.storeMode c = "clustered" ↔ (s.cubeStore.getD {}).mode = some "clustered" := by
  have hmode : c.spec.cubeStore.mode = "clustered" ↔
      (s.cubeStore.getD {}).mode = some "clustered" := by
    rw [hc.mode]
    exact getD_eq_iff (by decide)
  rw [← hmode, Go.storeMode]
  split <;> simp_all

theorem go_valid_iff (hs : s.Admits) (hc : Decoded q s c.spec) :
    Go.Valid q c ↔ SharedClauses s ∧
      (Kopf.scratchSize s ≠ "" → (q.value (Kopf.scratchSize s)).isSome) := by
  have hmode := mode_of_admits hs
  have hstorage : Go.StorageValid c.spec.cubeStore.remoteStorage ↔
      Kopf.StorageValid (Kopf.remoteStorage s) := by
    rw [hc.remoteStorage]
    exact storageValid_decode _
  have htype {v : String} (hv : "" ≠ v) : c.spec.service.type = v ↔
      (s.service.getD {}).type = some v := by
    rw [hc.service, decodeService, getD_eq_iff hv]
  have hport : c.spec.service.nodePort = (s.service.getD {}).nodePort.getD 0 := by
    rw [hc.service]
    rfl
  constructor
  · rintro ⟨hmodel, hconfiguration, h₁, h₂, h₃, -, hscratch, h₄, h₅⟩
    rw [hc.modelConfigMap] at hmodel
    rw [hc.configurationSecret] at hconfiguration
    rw [hc.apiReplicas] at h₁
    rw [hc.refreshReplicas] at h₂
    rw [storeMode_decode hc, hc.workers] at h₃
    rw [hport, htype (by decide), htype (by decide)] at h₄
    rw [hc.scratchSize] at hscratch
    exact ⟨⟨hmodel, hconfiguration, h₁, h₂, h₃, h₄, hstorage.mp h₅⟩, hscratch⟩
  · rintro ⟨h, hscratch⟩
    refine ⟨?_, ?_, ?_, ?_, ?_, ?_, ?_, ?_, hstorage.mpr h.storage⟩
    · rw [hc.modelConfigMap]
      exact h.model
    · rw [hc.configurationSecret]
      exact h.configuration
    · rw [hc.apiReplicas]
      exact h.api
    · rw [hc.refreshReplicas]
      exact h.refresh
    · rw [storeMode_decode hc, hc.workers]
      exact h.workers
    · rw [hc.mode]
      rcases hmode with hm | hm | hm <;> simp [hm]
    · rw [hc.scratchSize]
      exact hscratch
    · rw [hport, htype (by decide), htype (by decide)]
      exact h.nodePort

theorem references_decode (hc : Decoded q s c.spec) :
    Go.references c = Kopf.references s c.ns := by
  have htype : (Kopf.remoteStorage s).type.getD "" = "persistentVolume" ↔
      (Kopf.remoteStorage s).type = some "persistentVolume" := getD_eq_iff (by decide)
  unfold Go.references Kopf.references Go.storageReferences Kopf.storageReferences
  rw [hc.modelConfigMap, hc.configurationSecret, hc.remoteStorage, ← Kopf.remoteStorage,
    decodeRemoteStorage]
  dsimp only
  simp only [htype]
  cases (Kopf.remoteStorage s).persistentVolume <;> cases (Kopf.remoteStorage s).s3 <;> simp

/-! ## Validation against a set of objects -/

/-- The answers of an API server on which exactly the objects of `present` exist. -/
def lookups (present : Key → Bool) : (call : Call) → Answer call
  | .act _ => .ok ()
  | .getCluster _ _ => .error .notFound
  | .get k => if present k then .ok {} else .error .notFound
  | .httpGet _ => .failed ""
  | .now => 0

/-- Go `validateReferences` returns nil. -/
def goAccepts (q : Quantities) (c : CubeCluster) (present : Key → Bool) : Prop :=
  (Go.validateReferences q c).run.eval (lookups present) = .ok ()

/-- Python `validate_references` returns without raising. -/
def kopfAccepts (q : Quantities) (s : Crd.Spec) (ns : String) (present : Key → Bool) : Prop :=
  (Kopf.validateReferences q s ns).run.eval (lookups present) = .ok ()

theorem present_of_got {present : Key → Bool} {k : Key} {l : Live}
    (h : (Except.ok l : Except ApiError Live) = lookups present (.get k)) : present k = true := by
  by_contra hk
  simp [lookups, hk] at h

theorem absent_of_got {present : Key → Bool} {k : Key} {r : Except ApiError Live} {e : ApiError}
    (h : r = lookups present (.get k)) (he : (Exchange.got k r).error? = some e) :
    present k = false := by
  by_contra hk
  rw [Bool.not_eq_false] at hk
  simp [h, lookups, hk] at he

theorem goAccepts_iff {present : Key → Bool} :
    goAccepts q c present ↔ Go.Valid q c ∧ ∀ k ∈ Go.references c, present k := by
  unfold goAccepts
  obtain ⟨tr, hexec, htr⟩ := Program.exec_eval (lookups present) (Go.validateReferences q c).run
  constructor
  · intro hok
    rw [hok] at hexec
    obtain ⟨hvalid, hread⟩ := Go.exec_validateReferences_ok hexec
    refine ⟨hvalid, fun k hk => ?_⟩
    obtain ⟨l, hl⟩ := hread k hk
    exact present_of_got (htr _ hl)
  · rintro ⟨hvalid, hpresent⟩
    cases hresult : (Go.validateReferences q c).run.eval (lookups present) with
    | ok u => rfl
    | error err =>
      -- an error is the failure of a lookup, and every reference is there
      rw [hresult] at hexec
      rcases (Go.failsByCalls_validateReferences hvalid).2 tr err hexec with
        ⟨h, -⟩ | ⟨tr', ev, rfl, -, e, he, -⟩
      · exact h.elim
      · have hev : ev ∈ tr' ++ [ev] := by simp
        obtain ⟨k, hk, r, rfl⟩ := Go.only_validateReferences.of_exec hexec ev hev
        have := absent_of_got (htr _ hev) he
        rw [hpresent k hk] at this
        cases this

theorem kopfAccepts_iff {ns : String} {present : Key → Bool} :
    kopfAccepts q s ns present ↔ Kopf.Valid q s ∧ ∀ k ∈ Kopf.references s ns, present k := by
  unfold kopfAccepts
  obtain ⟨tr, hexec, htr⟩ :=
    Program.exec_eval (lookups present) (Kopf.validateReferences q s ns).run
  constructor
  · intro hok
    rw [hok] at hexec
    obtain ⟨hvalid, hread⟩ := Kopf.exec_validateReferences_ok hexec
    refine ⟨hvalid, fun k hk => ?_⟩
    obtain ⟨l, hl⟩ := hread k hk
    exact present_of_got (htr _ hl)
  · rintro ⟨hvalid, hpresent⟩
    cases hresult : (Kopf.validateReferences q s ns).run.eval (lookups present) with
    | ok u => rfl
    | error exc =>
      rw [hresult] at hexec
      rcases (Kopf.raisesAll_validateReferences (V := fun _ => False) (.inl hvalid)).2 tr exc
        hexec with ⟨h, -⟩ | ⟨tr', ev, rfl, -, e, he, -⟩
      · exact h.elim
      · have hev : ev ∈ tr' ++ [ev] := by simp
        rcases Kopf.only_validateReferences.of_exec hexec ev hev with
          ⟨kind, r, rfl⟩ | ⟨k, hk, r, rfl⟩
        · have hr := htr _ hev
          simp only [lookups] at hr
          subst hr
          cases he
        · have := absent_of_got (htr _ hev) he
          rw [hpresent k hk] at this
          cases this

/-! ## Parity -/

/-- A scratch size that is a quantity but not a positive one. -/
def ScratchNotPositive (q : Quantities) (s : Crd.Spec) : Prop :=
  Kopf.scratchSize s ≠ "" ∧ ∃ v, q.value (Kopf.scratchSize s) = some v ∧ v ≤ 0

/-- The validators agree on a spec unless all that is wrong with it is a scratch
    size that is zero or negative, which only the Kopf controller refuses. -/
theorem validation_parity_iff (hs : s.Admits) (hc : decodeSpec q s = some c.spec)
    (present : Key → Bool) :
    (goAccepts q c present ↔ kopfAccepts q s c.ns present) ↔
      ¬(ScratchNotPositive q s ∧ SharedClauses s ∧ ∀ k ∈ Kopf.references s c.ns, present k) := by
  have hd := decoded_of_decodeSpec hc
  rw [goAccepts_iff, kopfAccepts_iff, go_valid_iff hs hd, kopf_valid_iff hs, references_decode hd]
  constructor
  · rintro hiff ⟨⟨hsize, v, hv, hneg⟩, hshared, hpresent⟩
    obtain ⟨⟨-, hscratch⟩, -⟩ := hiff.mp ⟨⟨hshared, fun _ => by simp [hv]⟩, hpresent⟩
    obtain ⟨w, hw, hpos⟩ := hscratch hsize
    obtain rfl : v = w := by simpa [hv] using hw
    exact Rat.not_le.mpr hpos hneg
  · intro hnot
    constructor
    · rintro ⟨⟨hshared, hscratch⟩, hpresent⟩
      refine ⟨⟨hshared, fun hsize => ?_⟩, hpresent⟩
      obtain ⟨v, hv⟩ := Option.isSome_iff_exists.mp (hscratch hsize)
      refine ⟨v, hv, Rat.not_le.mp fun hneg => hnot ⟨⟨hsize, v, hv, hneg⟩, hshared, hpresent⟩⟩
    · rintro ⟨⟨hshared, hscratch⟩, hpresent⟩
      refine ⟨⟨hshared, fun hsize => ?_⟩, hpresent⟩
      obtain ⟨v, hv, -⟩ := hscratch hsize
      simp [hv]

/-! ### A scratch size of zero -/

/-- A spec that asks for a scratch volume of size zero. -/
def zeroScratch : Crd.Spec where
  modelConfigMap := some "model"
  configurationSecret := some "configuration"
  cubeStore := some {
    remoteStorage := some {
      type := some "persistentVolume", persistentVolume := some { existingClaim := some "claim" } }
    scratch := some { size := some "0" } }

/-- The cluster the Go controller reads for `zeroScratch`. -/
def zeroScratchCluster : CubeCluster where
  name := "cube"
  ns := "default"
  uid := "uid"
  generation := 1
  spec := {
    modelConfigMap := "model"
    configurationSecret := "configuration"
    cubeStore := {
      remoteStorage := {
        type := "persistentVolume", persistentVolume := some { existingClaim := "claim" } }
      scratch := { size := "0" } } }

theorem zeroScratch_admits : zeroScratch.Admits := .inr rfl

theorem decodeSpec_zeroScratch :
    decodeSpec digitQuantities zeroScratch = some zeroScratchCluster.spec := rfl

/-- With every reference in place, Go accepts a scratch size of zero and Python raises. -/
theorem validation_parity_fails : ¬∀ (q : Quantities) (s : Crd.Spec) (c : CubeCluster)
    (present : Key → Bool), s.Admits → decodeSpec q s = some c.spec →
      (goAccepts q c present ↔ kopfAccepts q s c.ns present) := by
  intro h
  have hiff := h digitQuantities zeroScratch zeroScratchCluster (fun _ => true)
    zeroScratch_admits decodeSpec_zeroScratch
  have hgo : goAccepts digitQuantities zeroScratchCluster fun _ => true := rfl
  have hkopf := hiff.mp hgo
  have hraised : (Kopf.validateReferences digitQuantities zeroScratch "default").run.eval
      (lookups fun _ => true) =
        .error (.valueError "Cube Store scratch size must be positive") := rfl
  cases hkopf.symm.trans hraised

theorem validation_parity_iff_zeroScratch :
    (goAccepts digitQuantities zeroScratchCluster (fun _ => true) ↔
      kopfAccepts digitQuantities zeroScratch "default" fun _ => true) ↔
      ¬(ScratchNotPositive digitQuantities zeroScratch ∧ SharedClauses zeroScratch ∧
        ∀ k ∈ Kopf.references zeroScratch "default", true) :=
  validation_parity_iff zeroScratch_admits decodeSpec_zeroScratch fun _ => true

end CubeOperator
