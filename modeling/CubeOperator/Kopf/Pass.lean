import CubeOperator.Kopf.Validation
import CubeOperator.Kube.Managed

/-! # What a pass of the Kopf controller does

    The objects a pass is about, and which failed calls end it with an
    exception. -/

namespace CubeOperator.Kopf

open Interaction Kube Crd V1alpha1

variable {q : Quantities} {spec : Crd.Spec} {name ns : String}

/-! ## The desired objects -/

/-- The store of the spec is clustered. -/
def isClustered (spec : Spec) : Bool := (spec.cubeStore.getD {}).mode = some "clustered"

theorem storeMode_eq_clustered : storeMode spec = "clustered" ↔ isClustered spec = true := by
  unfold storeMode isClustered
  split <;> simp_all

theorem storeMode_eq_single : storeMode spec = "single" ↔ isClustered spec = false := by
  unfold storeMode isClustered
  split <;> simp_all

/-- The builders find every key they need in a valid spec. -/
theorem exists_desiredObjects (h : Valid q spec) (name ns : String) :
    ∃ ds, desiredObjects name ns spec = some ds := by
  have hcontainer (component : String) (workload : Crd.WorkloadSpec) :
      ∃ d, deployment name ns spec component workload = some d := by
    obtain ⟨model, hmodel⟩ : ∃ m, spec.modelConfigMap = some m := by
      cases hm : spec.modelConfigMap with
      | none => exact absurd (by simp [hm]) h.model
      | some m => exact ⟨m, rfl⟩
    obtain ⟨configuration, hconfiguration⟩ : ∃ m, spec.configurationSecret = some m := by
      cases hm : spec.configurationSecret with
      | none => exact absurd (by simp [hm]) h.configuration
      | some m => exact ⟨m, rfl⟩
    simp [deployment, cubeContainer, hmodel, hconfiguration]
  obtain ⟨store, storage, hstore, hstorage, hcases⟩ := h.storage.cases
  have hconfiguration : ∃ g, storageConfiguration spec = some g := by
    rcases hcases with ⟨htype, pv, claim, hpv, hclaim⟩ | ⟨htype, s3, bucket, region, hs3, hb, hr⟩
    · simp [storageConfiguration, hstore, hstorage, htype, hpv, hclaim]
    · simp [storageConfiguration, hstore, hstorage, htype, hs3, hb, hr]
  obtain ⟨g, hg⟩ := hconfiguration
  obtain ⟨api, hapi⟩ := hcontainer "api" (spec.api.getD {})
  obtain ⟨refresh, hrefresh⟩ := hcontainer "refresh-worker" (spec.refreshWorker.getD {})
  unfold desiredObjects
  split <;> simp [hapi, hrefresh, hstore, storeWorkload, storeContainer, hg]

theorem desiredObjects_keys {ds : List Manifest} (h : desiredObjects name ns spec = some ds) :
    ds.map Manifest.key = clusterKeys (isClustered spec) ns name := by
  have happend (component : String) : name ++ "-" ++ component = name ++ ("-" ++ component) :=
    String.append_assoc ..
  simp only [desiredObjects, Option.bind_eq_bind, Option.bind_eq_some_iff] at h
  obtain ⟨api, hapi, refresh, hrefresh, h⟩ := h
  simp only [deployment, Option.bind_eq_bind, Option.bind_eq_some_iff, Option.some.injEq]
    at hapi hrefresh
  obtain ⟨_, -, _, -, rfl⟩ := hapi
  obtain ⟨_, -, _, -, rfl⟩ := hrefresh
  split at h
  · rename_i hm
    simp only [storeWorkload, Option.bind_eq_bind, Option.bind_eq_some_iff, Option.some.injEq] at h
    obtain ⟨_, ⟨_, -, rfl⟩, rfl⟩ := h
    simp only [storeMode_eq_single.mp hm, clusterKeys, storeKeys, Bool.false_eq_true, if_false]
    simp [coreKeys, singleKeys, Manifest.key, apiService, apiPDB, networkPolicy, storeService,
      happend]
  · rename_i hm
    rw [storeMode_eq_single, Bool.not_eq_false] at hm
    simp only [storeWorkload, Option.bind_eq_bind, Option.bind_eq_some_iff, Option.some.injEq] at h
    obtain ⟨_, -, _, ⟨_, -, rfl⟩, _, ⟨_, -, rfl⟩, rfl⟩ := h
    simp only [hm, clusterKeys, storeKeys, if_true]
    simp [coreKeys, clusteredKeys, Manifest.key, apiService, apiPDB, networkPolicy, storeService,
      happend]

theorem mem_obsoleteStore {k : Key} :
    k ∈ obsoleteStore spec name ns ↔ k ∈ storeKeys (!isClustered spec) ns name := by
  unfold obsoleteStore
  simp only [storeMode_eq_clustered]
  cases isClustered spec
  · simp [storeKeys, clusteredKeys]
    tauto
  · simp [storeKeys, singleKeys]
    tauto

/-! ## Exceptions -/

section exceptions

variable {V : Exc → Prop}

/-- What `createOrPatch` does after it has read the object. -/
def afterLookup (desired : Manifest) : Except ApiError Live → OpE Exc Unit
  | .ok _ => act Exc.ofApi (.patch desired)
  | .error e => if e.isNotFound then act Exc.ofApi (.create desired) else throw (.ofApi e)

theorem createOrPatch_eq (desired : Manifest) :
    createOrPatch desired =
      ExceptT.mk (.call (.get desired.key) fun r => (afterLookup desired r).run) :=
  rfl

theorem raisesForCalls_createOrPatch {desired : Manifest} :
    RaisesForCalls V (createOrPatch desired) := by
  rw [createOrPatch_eq]
  refine Accounts.callThen fun r => ?_
  cases r with
  | ok l => exact .inl ⟨harmless_of_none rfl, raisesAll_act.forCalls⟩
  | error e =>
    unfold afterLookup
    by_cases he : e.isNotFound
    · refine .inl ⟨fun e' h => ?_, by simpa [he] using raisesAll_act.forCalls⟩
      cases h
      exact he
    · exact .inr ⟨.ofApi e, by simp [he], e, rfl, rfl⟩

theorem raisesForCalls_applyObject {owner : OwnerReference} {desired : Manifest} :
    RaisesForCalls V (applyObject owner desired) :=
  Accounts.bind raisesAll_act.forCalls fun _ _ => raisesForCalls_createOrPatch

theorem raisesForCalls_deleteIfPresent {key : Key} : RaisesForCalls V (deleteIfPresent key) := by
  refine Accounts.rescue (Accounts.bind raisesAll_act.forCalls fun _ _ => raisesAll_act.forCalls)
    fun exc => ?_
  unfold unlessNotFound
  split
  · rename_i e
    by_cases he : e.code = 404
    · refine .inr ⟨(), by simp [he], ?_⟩
      rintro ev ⟨e', hev, h⟩ e'' hev'
      obtain rfl : e' = e'' := by simpa [hev] using hev'
      cases e' with
      | status e' =>
        cases h
        simpa [ApiError.isNotFound] using he
      | other m => cases h
    · exact .inl (by simp [he])
  · exact .inl rfl

theorem raisesForCalls_ready {kind : Kind} {component : String} :
    RaisesForCalls V (ready kind name component ns) :=
  Accounts.bind raisesAll_getObject.forCalls fun _ _ => Accounts.pure _

/-- The `KeyError` of a missing `cubeStore` does not occur for a valid spec. -/
theorem raisesForCalls_storeReadiness (h : Valid q spec) :
    RaisesForCalls V (storeReadiness spec name ns) := by
  obtain ⟨store, storage, hstore, -⟩ := h.storage.cases
  unfold storeReadiness
  split
  · refine Accounts.bind (Accounts.ofExcept fun e he => ?_) fun _ _ => ?_
    · simp [hstore] at he
    · exact Accounts.bind raisesForCalls_ready fun _ _ =>
        Accounts.bind raisesForCalls_ready fun _ _ => Accounts.pure _
  · exact Accounts.bind raisesForCalls_ready fun _ _ => Accounts.pure _

theorem raisesForCalls_workloadReadiness (h : Valid q spec) :
    RaisesForCalls V (workloadReadiness spec name ns) :=
  Accounts.bind raisesForCalls_ready fun _ _ => Accounts.bind raisesForCalls_ready fun _ _ =>
    Accounts.bind (raisesForCalls_storeReadiness h) fun _ _ => Accounts.pure _

/-- The `try` block ends because a call failed, or because the spec is not valid. -/
theorem raisesForCalls_reconcileObjects {b : Body} (hV : Valid q b.spec ∨ ∀ m, V (.valueError m)) :
    RaisesForCalls V (reconcileObjects q b) := by
  unfold reconcileObjects
  refine Accounts.bind (raisesAll_validateReferences hV).forCalls fun u hu => ?_
  obtain ⟨tr, hvalidate⟩ := hu
  have hvalid := (exec_validateReferences_ok hvalidate).1
  obtain ⟨ds, hds⟩ := exists_desiredObjects hvalid b.name b.ns
  refine Accounts.bind (Accounts.ofExcept fun e he => ?_) fun _ _ => ?_
  · simp [hds] at he
  refine Accounts.bind (Accounts.forEach fun _ _ => raisesForCalls_applyObject) fun _ _ => ?_
  refine Accounts.bind (Accounts.forEach fun _ _ => raisesForCalls_deleteIfPresent) fun _ _ => ?_
  exact raisesForCalls_workloadReadiness hvalid

end exceptions

/-! ## The calls of a pass -/

/-- API discovery, a read of a managed object, the health request or the clock. -/
inductive IsQuery (ns name : String) : Exchange → Prop where
  | discover (kind : Kind) (r : Except ApiError Unit) : IsQuery ns name (.did (.discover kind) r)
  | get {k : Key} (r : Except ApiError Live) :
      k ∈ managedKeys ns name → IsQuery ns name (.got k r)
  | httpGet (a : HttpAnswer) : IsQuery ns name (.fetched (endpoint name ns ++ "/readyz") a)
  | now (t : ℤ) : IsQuery ns name (.clock t)

theorem only_resourceFor {kind : Kind} : Only (IsQuery ns name) (resourceFor kind).run :=
  fun r => ⟨.discover kind r, trivial⟩

/-- API discovery, or a read of an object of the cluster. -/
inductive IsRead (spec : Spec) (ns name : String) : Exchange → Prop where
  | discover (kind : Kind) (r : Except ApiError Unit) :
      IsRead spec ns name (.did (.discover kind) r)
  | get {k : Key} (r : Except ApiError Live) :
      k ∈ clusterKeys (isClustered spec) ns name → IsRead spec ns name (.got k r)

theorem isQuery_of_isRead {e : Exchange} (h : IsRead spec ns name e) : IsQuery ns name e := by
  cases h with
  | discover kind r => exact .discover kind r
  | get r hk => exact .get r (mem_managedKeys.mpr (.inl hk))

theorem only_ready {kind : Kind} {component : String}
    (hk : ⟨kind, ns, name ++ "-" ++ component⟩ ∈ clusterKeys (isClustered spec) ns name) :
    Only (IsRead spec ns name) (ready kind name component ns).run := by
  have hdiscover : Only (IsRead spec ns name) (resourceFor kind).run :=
    fun r => ⟨.discover kind r, trivial⟩
  refine Only.attemptBind (Only.attemptBind hdiscover fun _ => ?_) fun _ => trivial
  exact fun r => ⟨.get r hk, trivial⟩

theorem reads_workloadReadiness :
    Only (IsRead spec ns name) (workloadReadiness spec name ns).run := by
  have hname (component : String) : name ++ "-" ++ component = name ++ ("-" ++ component) :=
    String.append_assoc ..
  refine Only.attemptBind (only_ready ?_) fun _ => ?_
  · simp [clusterKeys, coreKeys, hname]
  refine Only.attemptBind (only_ready ?_) fun _ => ?_
  · simp [clusterKeys, coreKeys, hname]
  refine Only.attemptBind ?_ fun _ => trivial
  unfold storeReadiness
  split
  · rename_i hmode
    have hclustered := storeMode_eq_clustered.mp hmode
    refine Only.attemptBind trivial fun _ => ?_
    refine Only.attemptBind (only_ready ?_) fun _ => ?_
    · simp [clusterKeys, storeKeys, hclustered, clusteredKeys, hname]
    refine Only.attemptBind (only_ready ?_) fun _ => trivial
    simp [clusterKeys, storeKeys, hclustered, clusteredKeys, hname]
  · rename_i hmode
    have hsingle : isClustered spec = false := by
      rw [← Bool.not_eq_true, ← storeMode_eq_clustered]
      exact hmode
    refine Only.attemptBind (only_ready ?_) fun _ => trivial
    simp [clusterKeys, storeKeys, hsingle, singleKeys, hname]

theorem only_workloadReadiness : Only (IsQuery ns name) (workloadReadiness spec name ns).run :=
  reads_workloadReadiness.mono fun _ => isQuery_of_isRead

/-- The health request or the clock, which is all that a pass needs to report. -/
inductive IsReport (ns name : String) : Exchange → Prop where
  | httpGet (a : HttpAnswer) : IsReport ns name (.fetched (endpoint name ns ++ "/readyz") a)
  | now (t : ℤ) : IsReport ns name (.clock t)

theorem isQuery_of_isReport {e : Exchange} (h : IsReport ns name e) : IsQuery ns name e := by
  cases h with
  | httpGet a => exact .httpGet a
  | now t => exact .now t

theorem only_setStatus {old : CubeClusterStatus} {generation ready : ℤ}
    {status : ConditionStatus} {reason message : String} :
    Only (IsReport ns name) (setStatus old generation ns name ready status reason message) := by
  have hnow : Only (IsReport ns name) now := fun t => ⟨.now t, trivial⟩
  refine Only.bind ?_ fun _ => trivial
  unfold transitionTime
  split
  · split
    · trivial
    · exact hnow
  · exact hnow

theorem only_reportReadiness {b : Body} {ready : ℤ} {available : Bool} {message : String} :
    Only (IsReport b.ns b.name) (reportReadiness b ready available message) := by
  unfold reportReadiness
  split
  · refine Only.bind (fun a => ⟨.httpGet a, trivial⟩) fun r => ?_
    split <;> exact only_setStatus
  · exact only_setStatus

theorem only_recover {b : Body} {exc : Exc} : Only (IsReport b.ns b.name) (recover b exc) := by
  unfold recover
  split
  · exact Only.bind only_setStatus fun _ => trivial
  · split
    · exact Only.bind only_setStatus fun _ => trivial
    · trivial
  · trivial

/-- An exchange of a pass past the validation. -/
inductive Acts (b : Body) : Exchange → Prop where
  | query {e : Exchange} : IsQuery b.ns b.name e → Acts b e
  | create {ds : List Manifest} {d : Manifest} (r : Except ApiError Unit) :
      desiredObjects b.name b.ns b.spec = some ds → d ∈ ds →
      Acts b (.did (.create (d.ownedBy (ownerReference b.name b.uid))) r)
  | patch {ds : List Manifest} {d : Manifest} (r : Except ApiError Unit) :
      desiredObjects b.name b.ns b.spec = some ds → d ∈ ds →
      Acts b (.did (.patch (d.ownedBy (ownerReference b.name b.uid))) r)
  | delete {k : Key} (r : Except ApiError Unit) :
      k ∈ storeKeys (!isClustered b.spec) b.ns b.name → Acts b (.did (.delete k) r)

/-- An exchange that a pass may make. -/
inductive Makes (b : Body) : Exchange → Prop where
  | act {e : Exchange} : Acts b e → Makes b e
  | lookup {k : Key} (r : Except ApiError Live) : k ∈ references b.spec b.ns → Makes b (.got k r)

section makes

variable {b : Body}

theorem desired_eq {ds : List Manifest} (h : desiredObjects b.name b.ns b.spec = some ds) :
    desired b = pure ds := by
  unfold desired
  rw [h]
  rfl

theorem desired_eq_throw (h : desiredObjects b.name b.ns b.spec = none) :
    desired b = throw .keyError := by
  unfold desired
  rw [h]
  rfl

theorem key_mem_managedKeys {ds : List Manifest} {d : Manifest}
    (h : desiredObjects b.name b.ns b.spec = some ds) (hd : d ∈ ds) :
    d.key ∈ managedKeys b.ns b.name := by
  have hkey : d.key ∈ clusterKeys (isClustered b.spec) b.ns b.name := by
    rw [← desiredObjects_keys h]
    exact List.mem_map_of_mem hd
  exact mem_managedKeys.mpr (.inl hkey)

theorem makes_of_isLookup {e : Exchange} (h : IsLookup (references b.spec b.ns) e) : Makes b e := by
  rcases h with ⟨kind, r, rfl⟩ | ⟨k, hk, r, rfl⟩
  · exact .act (.query (.discover kind r))
  · exact .lookup r hk

theorem only_applyObject {ds : List Manifest} {d : Manifest}
    (h : desiredObjects b.name b.ns b.spec = some ds) (hd : d ∈ ds) :
    Only (Acts b) (applyObject (ownerReference b.name b.uid) d).run := by
  refine Only.attemptBind (only_resourceFor.mono fun _ => .query) fun _ => ?_
  intro r
  have hkey := key_mem_managedKeys h hd
  refine ⟨.query (.get r hkey), ?_⟩
  cases r with
  | ok l => exact fun r => ⟨.patch r h hd, trivial⟩
  | error e =>
    by_cases he : e.isNotFound
    · simp only [he, if_true]
      exact fun r => ⟨.create r h hd, trivial⟩
    · simp only [he, Bool.false_eq_true, if_false]
      trivial

theorem only_deleteIfPresent {k : Key} (hk : k ∈ storeKeys (!isClustered b.spec) b.ns b.name) :
    Only (Acts b) (deleteIfPresent k).run := by
  refine Only.bind (Only.attemptBind (only_resourceFor.mono fun _ => .query) fun _ => ?_) fun r => ?_
  · exact fun r => ⟨.delete r hk, trivial⟩
  · cases r <;> trivial

/-- The objects part past the validation. -/
def afterValidation (b : Body) : OpE Exc (ℤ × Bool × String) := do
  let objects ← desired b
  Attempt.forEach (applyObject (ownerReference b.name b.uid)) objects
  Attempt.forEach deleteIfPresent (obsoleteStore b.spec b.name b.ns)
  workloadReadiness b.spec b.name b.ns

theorem reconcileObjects_eq :
    reconcileObjects q b = validateReferences q b.spec b.ns >>= fun _ => afterValidation b := rfl

theorem only_afterValidation : Only (Acts b) (afterValidation b).run := by
  unfold afterValidation
  cases hds : desiredObjects b.name b.ns b.spec with
  | none =>
    rw [desired_eq_throw hds]
    trivial
  | some ds =>
    simp only [desired_eq hds, pure_bind]
    refine Only.attemptBind (Only.forEach fun d hd => only_applyObject hds hd) fun _ => ?_
    refine Only.attemptBind (Only.forEach fun k hk => ?_) fun _ => ?_
    · exact only_deleteIfPresent (mem_obsoleteStore.mp hk)
    · exact only_workloadReadiness.mono fun _ => .query

/-- The calls of a pass, whatever they are answered. -/
theorem only_makes : Only (Makes b) (reconcile q b) := by
  have hobjects : Only (Makes b) (reconcileObjects q b).run := by
    rw [reconcileObjects_eq]
    exact Only.attemptBind (only_validateReferences.mono fun _ => makes_of_isLookup)
      fun _ => only_afterValidation.mono fun _ => .act
  refine Only.bind hobjects fun r => ?_
  cases r with
  | error exc => exact only_recover.mono fun _ h => .act (.query (isQuery_of_isReport h))
  | ok r =>
    exact Only.bind (only_reportReadiness.mono fun _ h => .act (.query (isQuery_of_isReport h)))
      fun _ => trivial

end makes

/-! ## How a pass ends -/

/-- The patch that `setStatus` leaves. -/
theorem exec_setStatus_eq {old : CubeClusterStatus} {generation ready : ℤ} {status : ConditionStatus}
    {reason message : String} {tr : List Exchange} {patch : StatusPatch}
    (h : Exec (setStatus old generation ns name ready status reason message) tr patch) :
    ∃ transition, patch = ⟨generation, ready, endpoint name ns,
      [⟨"Ready", status, reason, message, generation, transition⟩]⟩ := by
  obtain ⟨tr₁, transition, tr₂, rfl, h₁, h₂⟩ := Exec.bind_iff.mp h
  obtain ⟨rfl, rfl⟩ := Exec.ret_iff.mp h₂
  exact ⟨transition, rfl⟩

/-- The condition in it. -/
theorem exec_setStatus {old : CubeClusterStatus} {generation ready : ℤ} {status : ConditionStatus}
    {reason message : String} {tr : List Exchange} {patch : StatusPatch}
    (h : Exec (setStatus old generation ns name ready status reason message) tr patch) :
    ∃ condition, patch.ready = some condition ∧ condition.reason = reason := by
  obtain ⟨transition, rfl⟩ := exec_setStatus_eq h
  exact ⟨_, rfl, rfl⟩

theorem isReady_setStatus {old : CubeClusterStatus} {generation ready : ℤ} {status : ConditionStatus}
    {reason message : String} {tr : List Exchange} {patch : StatusPatch}
    (h : Exec (setStatus old generation ns name ready status reason message) tr patch) :
    patch.isReady = decide (status = .isTrue) ∧ patch.observedGeneration = generation := by
  obtain ⟨transition, rfl⟩ := exec_setStatus_eq h
  exact ⟨rfl, rfl⟩

theorem error?_of_isReport {ev : Exchange} (h : IsReport ns name ev) : ev.error? = none := by
  cases h <;> rfl

/-- The reason that a pass reports when it has read the workloads. -/
theorem exec_reportReadiness {b : Body} {ready : ℤ} {available : Bool} {message : String}
    {tr : List Exchange} {patch : StatusPatch}
    (h : Exec (reportReadiness b ready available message) tr patch) :
    ∃ condition, patch.ready = some condition ∧
      condition.reason ∈ ["APIHealthCheckFailed", "Available", "Progressing"] := by
  unfold reportReadiness at h
  split at h
  · obtain ⟨tr₁, r, tr₂, rfl, h₁, h₂⟩ := Exec.bind_iff.mp h
    split at h₂ <;>
    · obtain ⟨condition, hcondition, hreason⟩ := exec_setStatus h₂
      exact ⟨condition, hcondition, by simp [hreason]⟩
  · obtain ⟨condition, hcondition, hreason⟩ := exec_setStatus h
    exact ⟨condition, hcondition, by simp [hreason]⟩

/-- Only a pass that has found every workload available reports `Ready=True`. -/
theorem available_of_isReady {b : Body} {ready : ℤ} {available : Bool} {message : String}
    {tr : List Exchange} {patch : StatusPatch}
    (h : Exec (reportReadiness b ready available message) tr patch) (hready : patch.isReady = true) :
    available = true ∧ patch.observedGeneration = b.generation := by
  unfold reportReadiness at h
  split at h
  · rename_i havailable
    obtain ⟨tr₁, r, tr₂, rfl, -, h₂⟩ := Exec.bind_iff.mp h
    split at h₂ <;> exact ⟨havailable, (isReady_setStatus h₂).2⟩
  · obtain ⟨hnot, -⟩ := isReady_setStatus h
    rw [hready] at hnot
    cases hnot

/-- The exceptions that `reconcile` turns into the status `InvalidConfiguration`. -/
def Handles : Exc → Prop
  | .valueError _ => True
  | .apiException e => e.code = 404
  | _ => False

theorem handles_ofApi {e : ApiError} : Handles (.ofApi e) ↔ e.isNotFound := by
  cases e <;> simp [Handles, Exc.ofApi, ApiError.isNotFound]

/-- The handler leaves a status with this reason. -/
def Reports (reason : String) (out : Handled) : Prop :=
  ∃ patch condition, out.patch = some patch ∧ patch.ready = some condition ∧
    condition.reason = reason

/-- An exception is reported as a status or raised, not both. -/
theorem recover_cases {b : Body} {exc : Exc} {tr : List Exchange} {out : Handled}
    (h : Exec (recover b exc) tr out) :
    (Handles exc ∧ ∃ message patch, out = { patch := some patch } ∧
      Exec (setStatus b.status b.generation b.ns b.name 0 .isFalse "InvalidConfiguration" message)
        tr patch) ∨
    (¬Handles exc ∧ ∃ exc', out = { raised := some exc' }) := by
  have hreports {message : String} (h : Exec (do
      let patch ← setStatus b.status b.generation b.ns b.name 0 .isFalse "InvalidConfiguration"
        message
      pure { patch := some patch } : Op Handled) tr out) :
      ∃ message patch, out = { patch := some patch } ∧
        Exec (setStatus b.status b.generation b.ns b.name 0 .isFalse "InvalidConfiguration" message)
          tr patch := by
    obtain ⟨tr₁, patch, tr₂, rfl, h₁, h₂⟩ := Exec.bind_iff.mp h
    obtain ⟨rfl, rfl⟩ := Exec.ret_iff.mp h₂
    exact ⟨message, patch, rfl, by simpa using h₁⟩
  unfold recover at h
  split at h
  · exact .inl ⟨trivial, hreports h⟩
  · split at h
    · rename_i hcode
      exact .inl ⟨hcode, hreports h⟩
    · rename_i hcode
      obtain ⟨rfl, rfl⟩ := Exec.ret_iff.mp h
      exact .inr ⟨hcode, _, rfl⟩
  · rename_i hvalue hapi
    obtain ⟨rfl, rfl⟩ := Exec.ret_iff.mp h
    refine .inr ⟨?_, exc, rfl⟩
    cases exc with
    | valueError m => exact absurd rfl (hvalue m)
    | apiException e => exact absurd rfl (hapi e)
    | _ => exact not_false

theorem exec_recover {b : Body} {exc : Exc} {tr : List Exchange} {out : Handled}
    (h : Exec (recover b exc) tr out) :
    (out.raised = none ↔ Handles exc) ∧ (out.raised ≠ none → out.patch = none) ∧
      (Handles exc → Reports "InvalidConfiguration" out) := by
  rcases recover_cases h with ⟨hhandles, message, patch, rfl, hset⟩ | ⟨hnot, exc', rfl⟩
  · obtain ⟨condition, hcondition, hreason⟩ := exec_setStatus hset
    exact ⟨by simp [hhandles], fun h => absurd rfl h,
      fun _ => ⟨patch, condition, rfl, hcondition, hreason⟩⟩
  · exact ⟨by simp [hnot], fun _ => rfl, fun h => absurd h hnot⟩

theorem isReady_recover {b : Body} {exc : Exc} {tr : List Exchange} {out : Handled}
    {patch : StatusPatch} (h : Exec (recover b exc) tr out) (hpatch : out.patch = some patch) :
    patch.isReady = false := by
  rcases recover_cases h with ⟨-, message, patch', rfl, hset⟩ | ⟨-, exc', rfl⟩
  · obtain rfl := Option.some.inj hpatch
    exact (isReady_setStatus hset).1
  · cases hpatch

/-- The pass ends with an exception exactly when a call failed, a 404 apart, and
    then it leaves no status. -/
theorem exec_reconcile_raised {b : Body} {tr : List Exchange} {out : Handled}
    (h : Exec (reconcile q b) tr out) :
    (out.raised = none ↔ ∀ ev ∈ tr, Harmless ev) ∧ (out.raised ≠ none → out.patch = none) := by
  obtain ⟨hcompletes, hraises⟩ : RaisesForCalls IsValueError (reconcileObjects q b) :=
    raisesForCalls_reconcileObjects (.inr fun m => ⟨m, rfl⟩)
  obtain ⟨tr₁, exc, tr₂, rfl, h₁, h₂⟩ | ⟨tr₁, ⟨ready, available, message⟩, tr₂, rfl, h₁, h₂⟩ :=
    Exec.run_bind_iff.mp h
  · obtain ⟨hraised, hpatch, -⟩ := exec_recover h₂
    refine ⟨?_, hpatch⟩
    have hrest : ∀ ev ∈ tr₂, Harmless ev := fun ev hev =>
      harmless_of_none (error?_of_isReport (only_recover.of_exec h₂ ev hev))
    rw [hraised, List.forall_mem_append]
    rcases hraises tr₁ exc h₁ with ⟨⟨m, rfl⟩, hall⟩ | ⟨tr', ev, rfl, hall, e, hev, rfl⟩
    · simpa [Handles] using ⟨hall, hrest⟩
    · rw [handles_ofApi, List.forall_mem_append]
      constructor
      · intro hnotFound
        refine ⟨⟨hall, ?_⟩, hrest⟩
        intro ev' hev' e' he'
        obtain rfl := List.mem_singleton.mp hev'
        obtain rfl : e = e' := by simpa [hev] using he'
        exact hnotFound
      · rintro ⟨⟨-, hlast⟩, -⟩
        exact hlast ev (by simp) e hev
  · obtain ⟨tr₃, patch, tr₄, rfl, h₃, h₄⟩ := Exec.bind_iff.mp h₂
    obtain ⟨rfl, rfl⟩ := Exec.ret_iff.mp h₄
    refine ⟨⟨fun _ => ?_, fun _ => rfl⟩, fun h => absurd rfl h⟩
    rw [List.append_nil, List.forall_mem_append]
    exact ⟨hcompletes tr₁ _ h₁, fun ev hev =>
      harmless_of_none (error?_of_isReport (only_reportReadiness.of_exec h₃ ev hev))⟩

end CubeOperator.Kopf
