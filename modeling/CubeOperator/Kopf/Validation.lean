import CubeOperator.Kopf.Controller

/-! # What the Kopf validation checks

    `validate_references` accepts exactly the valid specs whose references it
    finds. -/

namespace CubeOperator.Kopf

open Interaction Kube Crd V1alpha1

variable {q : Quantities} {spec : Spec} {name ns : String}

/-! ## Valid specs -/

/-- The storage of the chosen type is described. -/
def StorageValid (storage : Crd.RemoteStorageSpec) : Prop :=
  (storage.type = some "persistentVolume" ∧
    (storage.persistentVolume.getD {}).existingClaim.getD "" ≠ "") ∨
  (storage.type = some "s3" ∧ (storage.s3.getD {}).bucket.getD "" ≠ "" ∧
    (storage.s3.getD {}).region.getD "" ≠ "")

/-- The storage part of a spec. -/
def remoteStorage (spec : Spec) : Crd.RemoteStorageSpec :=
  (spec.cubeStore.getD {}).remoteStorage.getD {}

/-- The scratch size of a spec, empty when there is none. -/
def scratchSize (spec : Spec) : String := ((spec.cubeStore.getD {}).scratch.getD {}).size.getD ""

/-- What `validate_references` demands of the spec itself. -/
structure Valid (q : Quantities) (spec : Spec) : Prop where
  model : spec.modelConfigMap.getD "" ≠ ""
  configuration : spec.configurationSecret.getD "" ≠ ""
  api : 1 ≤ replicas (spec.api.getD {}).replicas 2
  refresh : 1 ≤ replicas (spec.refreshWorker.getD {}).replicas 1
  mode : (spec.cubeStore.getD {}).mode.getD "single" = "single" ∨
    (spec.cubeStore.getD {}).mode.getD "single" = "clustered"
  workers : (spec.cubeStore.getD {}).mode.getD "single" = "clustered" →
    1 ≤ replicas (spec.cubeStore.getD {}).workers 2
  scratch : scratchSize spec ≠ "" → ∃ v, q.value (scratchSize spec) = some v ∧ 0 < v
  nodePort : (spec.service.getD {}).nodePort.getD 0 ≠ 0 →
    (spec.service.getD {}).type.getD "ClusterIP" = "NodePort" ∨
      (spec.service.getD {}).type.getD "ClusterIP" = "LoadBalancer"
  storage : StorageValid (remoteStorage spec)

/-- A valid storage is there, with the sub-object of its type and that one's fields. -/
theorem StorageValid.cases (h : StorageValid (remoteStorage spec)) :
    ∃ store storage, spec.cubeStore = some store ∧ store.remoteStorage = some storage ∧
      ((storage.type = some "persistentVolume" ∧ ∃ pv claim,
          storage.persistentVolume = some pv ∧ pv.existingClaim = some claim) ∨
        (storage.type = some "s3" ∧ ∃ s3 bucket region,
          storage.s3 = some s3 ∧ s3.bucket = some bucket ∧ s3.region = some region)) := by
  unfold StorageValid remoteStorage at h
  cases hstore : spec.cubeStore with
  | none => simp [hstore] at h
  | some store =>
    cases hstorage : store.remoteStorage with
    | none => simp [hstore, hstorage] at h
    | some storage =>
      refine ⟨store, storage, rfl, hstorage, ?_⟩
      simp only [hstore, hstorage, Option.getD_some] at h
      rcases h with ⟨htype, hclaim⟩ | ⟨htype, hbucket, hregion⟩
      · refine .inl ⟨htype, ?_⟩
        cases hpv : storage.persistentVolume with
        | none => simp [hpv] at hclaim
        | some pv =>
          cases hc : pv.existingClaim with
          | none => simp [hpv, hc] at hclaim
          | some claim => exact ⟨pv, claim, rfl, hc⟩
      · refine .inr ⟨htype, ?_⟩
        cases hs3 : storage.s3 with
        | none => simp [hs3] at hbucket
        | some s3 =>
          cases hb : s3.bucket with
          | none => simp [hs3, hb] at hbucket
          | some bucket =>
            cases hr : s3.region with
            | none => simp [hs3, hr] at hregion
            | some region => exact ⟨s3, bucket, region, rfl, hb, hr⟩

/-- The objects the storage refers to. -/
def storageReferences (spec : Spec) (ns : String) : List Key :=
  let storage := remoteStorage spec
  if storage.type = some "persistentVolume" then
    [⟨.persistentVolumeClaim, ns, (storage.persistentVolume.getD {}).existingClaim.getD ""⟩]
  else if (storage.s3.getD {}).secretRef.getD "" ≠ "" then
    [⟨.secret, ns, (storage.s3.getD {}).secretRef.getD ""⟩]
  else []

/-- The objects the spec refers to. -/
def references (spec : Spec) (ns : String) : List Key :=
  [⟨.configMap, ns, spec.modelConfigMap.getD ""⟩,
    ⟨.secret, ns, spec.configurationSecret.getD ""⟩] ++ storageReferences spec ns

/-- The object was read in the run. -/
def WasRead (tr : List Exchange) (k : Key) : Prop := ∃ l, Exchange.got k (.ok l) ∈ tr

/-- The exception `exc` is the one raised for the failed call `ev`. -/
def Blames (ev : Exchange) (exc : Exc) : Prop := ∃ e, ev.error? = some e ∧ exc = .ofApi e

/-- A call that did not fail, or was answered that there is no such object. -/
def Harmless (ev : Exchange) : Prop := ∀ e, ev.error? = some e → e.isNotFound

theorem harmless_of_none {ev : Exchange} (h : ev.error? = none) : Harmless ev := by
  intro e he
  rw [h] at he
  cases he

/-- Errors of calls, 404 apart, are always raised, and only they and those of `V`. -/
abbrev RaisesForCalls {α : Type} (V : Exc → Prop) : OpE Exc α → Prop := Accounts Harmless Blames V

/-- Errors of calls are always raised, and only they and those of `V`. -/
abbrev RaisesAll {α : Type} (V : Exc → Prop) : OpE Exc α → Prop :=
  Accounts (fun ev : Exchange => ev.error? = none) Blames V

theorem RaisesAll.forCalls {α : Type} {V : Exc → Prop} {x : OpE Exc α} (hx : RaisesAll V x) :
    RaisesForCalls V x := hx.mono fun _ => harmless_of_none

/-! ## What validation does -/

theorem exec_lookup_ok {kind : Kind} {tr : List Exchange} {u : Unit}
    (h : Exec (lookup kind name ns).run tr (.ok u)) : WasRead tr ⟨kind, ns, name⟩ := by
  simp only [lookup, getObject, Exec.attempt_bind_ok_iff, exec_getObject] at h
  obtain ⟨_, l, tr₂, rfl, ⟨tr₃, _, _, rfl, -, s, rfl, hs⟩, -⟩ := h
  cases s with
  | ok l' => exact ⟨l', by simp⟩
  | error e => cases hs

theorem raisesAll_act {a : Action} {V : Exc → Prop} :
    RaisesAll V (act Exc.ofApi a) := by
  refine Accounts.call (fun r u h => ?_) fun r exc h => ?_
  · cases r with
    | ok u => rfl
    | error e => cases h
  · cases r with
    | ok u => cases h
    | error e => cases h; exact ⟨e, rfl, rfl⟩

theorem raisesAll_getObject {kind : Kind} {V : Exc → Prop} :
    RaisesAll V (getObject kind name ns) := by
  refine Accounts.bind raisesAll_act fun _ _ => ?_
  refine Accounts.call (fun r u h => ?_) fun r exc h => ?_
  · cases r with
    | ok u => rfl
    | error e => cases h
  · cases r with
    | ok u => cases h
    | error e => cases h; exact ⟨e, rfl, rfl⟩

theorem raisesAll_lookup {kind : Kind} {V : Exc → Prop} :
    RaisesAll V (lookup kind name ns) :=
  Accounts.bind raisesAll_getObject fun _ _ => Accounts.pure ()

theorem exec_validateScratchSize_ok {size : String} {tr : List Exchange} {u : Unit}
    (h : Exec (validateScratchSize q size).run tr (.ok u)) :
    size ≠ "" → ∃ v, q.value size = some v ∧ 0 < v := by
  intro hsize
  rw [validateScratchSize, if_pos hsize] at h
  cases hvalue : q.value size with
  | none => simp [hvalue] at h
  | some v =>
    refine ⟨v, rfl, ?_⟩
    simp only [hvalue, Exec.failIf_ok_iff, decide_eq_false_iff_not, Rat.not_le] at h
    exact h.2

theorem exec_validateStorage_ok {tr : List Exchange} {u : Unit}
    (h : Exec (validateStorage spec ns).run tr (.ok u)) :
    StorageValid (remoteStorage spec) ∧ ∀ k ∈ storageReferences spec ns, WasRead tr k := by
  unfold validateStorage at h
  unfold storageReferences remoteStorage
  dsimp only at h ⊢
  split at h
  · rename_i htype
    simp only [Exec.attempt_bind_ok_iff, Exec.failIf_ok_iff] at h
    obtain ⟨_, _, tr₂, rfl, ⟨rfl, hclaim⟩, h⟩ := h
    refine ⟨.inl ⟨htype, by simpa using hclaim⟩, ?_⟩
    simpa [htype] using exec_lookup_ok h
  · split at h
    · rename_i hpv htype
      simp only [Exec.attempt_bind_ok_iff, Exec.failIf_ok_iff] at h
      obtain ⟨_, _, tr₂, rfl, ⟨rfl, hs3⟩, h⟩ := h
      refine ⟨.inr ⟨htype, by simpa using hs3⟩, ?_⟩
      split at h
      · rename_i hsecret
        simpa [hpv, hsecret] using exec_lookup_ok h
      · rename_i hsecret
        simp [hpv, hsecret]
    · simp at h

/-- A spec that is accepted is valid, and its references have been read. -/
theorem exec_validateReferences_ok {tr : List Exchange} {u : Unit}
    (h : Exec (validateReferences q spec ns).run tr (.ok u)) :
    Valid q spec ∧ ∀ k ∈ references spec ns, WasRead tr k := by
  simp only [validateReferences, Exec.attempt_bind_ok_iff, Exec.failIf_ok_iff] at h
  obtain ⟨_, _, _, rfl, ⟨rfl, hrequired⟩, tr₁, _, _, rfl, hmodel, tr₂, _, _, rfl, hconfiguration,
    _, _, _, rfl, ⟨rfl, hcounts⟩, _, _, _, rfl, ⟨rfl, hmode⟩, _, _, _, rfl, ⟨rfl, hworkers⟩,
    tr₃, _, _, rfl, hscratch, _, _, tr₄, rfl, ⟨rfl, hnodePort⟩, hstorage⟩ := h
  obtain ⟨hvalid, hread⟩ := exec_validateStorage_ok hstorage
  simp only [Bool.or_eq_false_iff, decide_eq_false_iff_not] at hrequired hcounts
  refine ⟨{
    model := hrequired.1
    configuration := hrequired.2
    api := by omega
    refresh := by omega
    mode := by
      by_cases h₁ : (spec.cubeStore.getD {}).mode.getD "single" = "single"
      · exact .inl h₁
      · exact .inr (by simpa [h₁] using hmode)
    workers := by
      intro hclustered
      simpa [hclustered] using hworkers
    scratch := exec_validateScratchSize_ok hscratch
    nodePort := by
      intro hport
      by_cases ht : (spec.service.getD {}).type.getD "ClusterIP" = "NodePort"
      · exact .inl ht
      · exact .inr (by simpa [hport, ht] using hnodePort)
    storage := hvalid }, ?_⟩
  intro k hk
  simp only [references, List.cons_append, List.nil_append, List.mem_cons] at hk
  rcases hk with rfl | rfl | hk
  · obtain ⟨l, hl⟩ := exec_lookup_ok hmodel
    exact ⟨l, by simp [hl]⟩
  · obtain ⟨l, hl⟩ := exec_lookup_ok hconfiguration
    exact ⟨l, by simp [hl]⟩
  · obtain ⟨l, hl⟩ := hread k hk
    exact ⟨l, by simp [hl]⟩

/-- The exceptions for a spec that is not valid. -/
def IsValueError (exc : Exc) : Prop := ∃ m, exc = .valueError m

theorem raisesAll_validateStorage {V : Exc → Prop}
    (hV : StorageValid (remoteStorage spec) ∨ ∀ m, V (.valueError m)) :
    RaisesAll V (validateStorage spec ns) := by
  unfold validateStorage
  dsimp only
  split
  · rename_i htype
    refine Accounts.bind (Accounts.failIf fun hclaim => ?_) fun _ _ => raisesAll_lookup
    refine hV.elim (fun hvalid => absurd hclaim ?_) fun hV => hV _
    rcases hvalid with ⟨-, h⟩ | ⟨h, -⟩
    · simpa [remoteStorage] using h
    · simp [remoteStorage, htype] at h
  · split
    · rename_i htype
      refine Accounts.bind (Accounts.failIf fun hs3 => ?_) fun _ _ => ?_
      · refine hV.elim (fun hvalid => absurd hs3 ?_) fun hV => hV _
        rcases hvalid with ⟨h, -⟩ | ⟨-, h⟩
        · simp [remoteStorage, htype] at h
        · simpa [remoteStorage] using h
      · split
        · exact raisesAll_lookup
        · exact Accounts.pure ()
    · rename_i h₁ h₂
      refine Accounts.throw (hV.elim (fun hvalid => ?_) fun hV => hV _)
      rcases hvalid with ⟨h, -⟩ | ⟨h, -⟩
      · exact absurd h h₁
      · exact absurd h h₂

theorem raisesAll_validateScratchSize {V : Exc → Prop} {size : String}
    (hV : (size ≠ "" → ∃ v, q.value size = some v ∧ 0 < v) ∨ ∀ m, V (.valueError m)) :
    RaisesAll V (validateScratchSize q size) := by
  unfold validateScratchSize
  split
  · rename_i hsize
    split
    · rename_i v hv
      refine Accounts.failIf fun hneg => hV.elim (fun hpos => ?_) fun hV => hV _
      obtain ⟨w, hw, hpos⟩ := hpos hsize
      obtain rfl : v = w := by simpa [hv] using hw
      exact absurd (of_decide_eq_true hneg) (Rat.not_le.mpr hpos)
    · rename_i hnone
      refine Accounts.throw (hV.elim (fun hpos => ?_) fun hV => ?_)
      · simp [hnone] at hpos
        exact absurd hpos hsize
      · split <;> exact hV _
  · exact Accounts.pure ()

/-- A spec is refused because a lookup failed or, unless it is valid, with a
    `ValueError`. -/
theorem raisesAll_validateReferences {V : Exc → Prop}
    (hV : Valid q spec ∨ ∀ m, V (.valueError m)) :
    RaisesAll V (validateReferences q spec ns) := by
  have check {b : Bool} {m : String} (hvalid : Valid q spec → b = false) :
      RaisesAll V (Attempt.failIf b (.valueError m)) := by
    refine Accounts.failIf fun hb => hV.elim (fun h => ?_) fun hV => hV m
    rw [hvalid h] at hb
    cases hb
  unfold validateReferences
  refine Accounts.bind (check fun h => by simp [h.model, h.configuration]) fun _ _ => ?_
  refine Accounts.bind raisesAll_lookup fun _ _ => ?_
  refine Accounts.bind raisesAll_lookup fun _ _ => ?_
  refine Accounts.bind (check fun h => ?_) fun _ _ => ?_
  · have := h.api
    have := h.refresh
    simp
    omega
  refine Accounts.bind (check fun h => ?_) fun _ _ => ?_
  · rcases h.mode with h | h <;> simp [h]
  refine Accounts.bind (check fun h => ?_) fun _ _ => ?_
  · simpa using h.workers
  refine Accounts.bind (raisesAll_validateScratchSize (hV.imp Valid.scratch id)) fun _ _ => ?_
  refine Accounts.bind (check fun h => ?_) fun _ _ => ?_
  · by_cases hport : (spec.service.getD {}).nodePort.getD 0 = 0
    · simp [hport]
    · rcases h.nodePort hport with h | h <;> simp [h]
  · exact raisesAll_validateStorage (hV.imp Valid.storage id)

/-! ## Only lookups -/

/-- A lookup of one of the objects `keys`, or API discovery. -/
def IsLookup (keys : List Key) (e : Exchange) : Prop :=
  (∃ kind r, e = .did (.discover kind) r) ∨ ∃ k ∈ keys, ∃ r, e = .got k r

theorem references_kind {k : Key} (hk : k ∈ references spec ns) : k.kind.isReference := by
  simp only [references, storageReferences, List.cons_append, List.nil_append,
    List.mem_cons] at hk
  rcases hk with rfl | rfl | hk
  · rfl
  · rfl
  · split at hk
    · obtain rfl := List.mem_singleton.mp hk
      rfl
    · split at hk
      · obtain rfl := List.mem_singleton.mp hk
        rfl
      · simp at hk

theorem only_lookup {keys : List Key} {kind : Kind} (hk : ⟨kind, ns, name⟩ ∈ keys) :
    Only (IsLookup keys) (lookup kind name ns).run := by
  refine Only.attemptBind (Only.attemptBind (fun r => ⟨.inl ⟨kind, r, rfl⟩, trivial⟩) fun _ => ?_)
    fun _ => trivial
  exact fun r => ⟨.inr ⟨_, hk, r, rfl⟩, trivial⟩

theorem only_validateStorage :
    Only (IsLookup (storageReferences spec ns)) (validateStorage spec ns).run := by
  unfold validateStorage storageReferences remoteStorage
  dsimp only
  split
  · exact Only.attemptBind (Only.failIf _ _) fun _ => only_lookup (by simp)
  · split
    · split
      · exact Only.attemptBind (Only.failIf _ _) fun _ => only_lookup (by simp)
      · trivial
    · split
      · exact Only.attemptBind (Only.failIf _ _) fun _ => trivial
      · trivial

theorem only_validateScratchSize {keys : List Key} {size : String} :
    Only (IsLookup keys) (validateScratchSize q size).run := by
  unfold validateScratchSize
  split
  · split
    · exact Only.failIf _ _
    · trivial
  · trivial

theorem only_validateReferences :
    Only (IsLookup (references spec ns)) (validateReferences q spec ns).run := by
  unfold validateReferences
  refine Only.attemptBind (Only.failIf _ _) fun _ => ?_
  refine Only.attemptBind (only_lookup (by simp [references])) fun _ => ?_
  refine Only.attemptBind (only_lookup (by simp [references])) fun _ => ?_
  refine Only.attemptBind (Only.failIf _ _) fun _ => ?_
  refine Only.attemptBind (Only.failIf _ _) fun _ => ?_
  refine Only.attemptBind (Only.failIf _ _) fun _ => ?_
  refine Only.attemptBind only_validateScratchSize fun _ => ?_
  refine Only.attemptBind (Only.failIf _ _) fun _ => ?_
  refine only_validateStorage.mono ?_
  rintro e (h | ⟨k, hk, hr⟩)
  · exact .inl h
  · exact .inr ⟨k, by simp [references, hk], hr⟩

end CubeOperator.Kopf
