import CubeOperator.Go.Validation
import CubeOperator.Kube.Managed

/-! # What a pass of the Go controller does

    One lemma for each part of `Reconcile`: the runs it can have and what they
    end in.  `reconcileCluster_cases` puts them together. -/

namespace CubeOperator.Go

open Interaction Kube V1alpha1

variable {q : Quantities} {c : CubeCluster}

/-! ## The desired objects -/

/-- The store of the cluster is clustered. -/
def isClustered (c : CubeCluster) : Bool := storeMode c = "clustered"

theorem storeMode_eq_iff : storeMode c = "clustered" ↔ isClustered c = true := by
  simp [isClustered]

/-- The builders do not panic on a valid spec. -/
theorem exists_objects (h : Valid q c) : ∃ os, objects q c = some os := by
  have hstorage : ∃ g, storageConfiguration q c = some g := by
    have hlimit : ∃ l, scratchLimit q c = some l := by
      unfold scratchLimit
      split
      · rename_i hsize
        obtain ⟨v, hv⟩ := Option.isSome_iff_exists.mp (h.scratch hsize)
        exact ⟨some v, by simp [hv]⟩
      · exact ⟨none, rfl⟩
    obtain ⟨l, hl⟩ := hlimit
    unfold storageConfiguration
    rcases h.storage with ⟨htype, pv, hpv, -⟩ | ⟨htype, s3, hs3, -⟩
    · simp [hl, htype, hpv]
    · simp [hl, htype, hs3]
  obtain ⟨g, hg⟩ := hstorage
  unfold objects
  split
  · rename_i hm
    have hworkers : workerAddresses c ≠ none := by
      have := h.workers hm
      unfold workerAddresses
      dsimp only
      rw [if_neg (by omega)]
      simp
    obtain ⟨addresses, haddresses⟩ := Option.ne_none_iff_exists'.mp hworkers
    simp [routerStatefulSet, workerStatefulSet, storeContainer, hg, haddresses]
  · simp [singleStoreDeployment, storeContainer, hg]

theorem objects_keys {os : List K8s.Object} (h : objects q c = some os) :
    os.map (fun o => o.manifest.key) = clusterKeys (isClustered c) c.ns c.name := by
  unfold objects at h
  have happend (component : String) : c.name ++ "-" ++ component = c.name ++ ("-" ++ component) :=
    String.append_assoc ..
  split at h
  · rename_i hm
    simp only [routerStatefulSet, workerStatefulSet, Option.bind_eq_bind, Option.bind_eq_some_iff,
      Option.some.injEq] at h
    obtain ⟨_, ⟨_, -, _, -, rfl⟩, _, ⟨_, -, _, -, rfl⟩, rfl⟩ := h
    rw [storeMode_eq_iff] at hm
    simp only [hm, clusterKeys, storeKeys, if_true]
    simp [commonObjects, coreKeys, clusteredKeys, K8s.Object.manifest, Manifest.key,
      K8s.ObjectMeta.metadata, apiService, apiDeployment, refreshDeployment, deployment, apiPDB,
      networkPolicy, routerService, workerService, storeService, stateful, happend]
  · rename_i hm
    simp only [singleStoreDeployment, Option.bind_eq_bind, Option.bind_eq_some_iff,
      Option.some.injEq] at h
    obtain ⟨_, ⟨_, -, rfl⟩, rfl⟩ := h
    rw [storeMode_eq_iff] at hm
    simp only [hm, clusterKeys, storeKeys, Bool.false_eq_true, if_false]
    simp [commonObjects, coreKeys, singleKeys, K8s.Object.manifest, Manifest.key,
      K8s.ObjectMeta.metadata, apiService, apiDeployment, refreshDeployment, deployment, apiPDB,
      networkPolicy, singleStoreService, storeService, happend]

theorem mem_obsoleteStore {k : Key} :
    k ∈ obsoleteStore c ↔ k ∈ storeKeys (!isClustered c) c.ns c.name := by
  unfold obsoleteStore
  simp only [storeMode_eq_iff]
  cases isClustered c
  · simp [storeKeys, clusteredKeys]
    tauto
  · simp [storeKeys, singleKeys]
    tauto

/-! ## Applying and removing -/

/-- The object `o` was applied. -/
def IsApply (c : CubeCluster) (o : K8s.Object) (e : Exchange) : Prop :=
  e = .did (.apply (applied c o)) (.ok ())

theorem exec_applies_ok {os : List K8s.Object} {tr : List Exchange} :
    Exec (Attempt.forEach (reconcileObject c) os).run tr (.ok ()) ↔
      List.Forall₂ (IsApply c) os tr := by
  refine Exec.forEach_ok_iff_forall₂ fun o tr => ?_
  rw [reconcileObject, exec_act]
  constructor
  · rintro ⟨r, rfl, hr⟩
    cases r with
    | ok u => exact ⟨_, rfl, rfl⟩
    | error e => cases hr
  · rintro ⟨_, rfl, rfl⟩
    exact ⟨.ok (), rfl, rfl⟩

/-- The loop stops at the first object that is not applied. -/
theorem exec_applies_error {os : List K8s.Object} {tr : List Exchange} {err : GoError}
    (h : Exec (Attempt.forEach (reconcileObject c) os).run tr (.error err)) :
    ∃ os₁ o os₂ tr₁ e, os = os₁ ++ o :: os₂ ∧ List.Forall₂ (IsApply c) os₁ tr₁ ∧
      tr = tr₁ ++ [.did (.apply (applied c o)) (.error e)] ∧ err = .ofApi e := by
  obtain ⟨os₁, o, os₂, tr₁, tr₂, rfl, rfl, h₁, h₂⟩ := Exec.forEach_error_iff.mp h
  obtain ⟨r, rfl, hr⟩ := (exec_act _).mp h₂
  cases r with
  | ok u => cases hr
  | error e =>
    cases hr
    exact ⟨os₁, o, os₂, tr₁, e, rfl, exec_applies_ok.mp h₁, rfl, rfl⟩

/-- The object is gone: deleted now, or not there. -/
def Gone (r : Except ApiError Unit) : Prop := ∀ e, r = .error e → e.isNotFound

/-- The object `k` was deleted or is absent. -/
def IsRemoval (k : Key) (e : Exchange) : Prop := ∃ r, e = .did (.delete k) r ∧ Gone r

theorem exec_deleteObject {k : Key} {tr : List Exchange} {r : Except GoError Unit} :
    Exec (deleteObject k).run tr r ↔ ∃ s, tr = [.did (.delete k) s] ∧
      ((Gone s ∧ r = .ok ()) ∨ ∃ e, s = .error e ∧ ¬e.isNotFound ∧ r = .error (.ofApi e)) := by
  simp only [deleteObject, ExceptT.run_mk, Exec.call_iff, Exec.ret_iff]
  constructor
  · rintro ⟨s, _, rfl, rfl, rfl⟩
    refine ⟨s, rfl, ?_⟩
    cases s with
    | ok u => exact .inl ⟨fun e h => (by cases h), rfl⟩
    | error e =>
      by_cases hn : e.isNotFound
      · refine .inl ⟨fun e' h => ?_, by simp [hn]⟩
        cases h
        exact hn
      · exact .inr ⟨e, rfl, hn, by simp [hn]⟩
  · rintro ⟨s, rfl, hs⟩
    refine ⟨s, [], rfl, rfl, ?_⟩
    rcases hs with ⟨hgone, rfl⟩ | ⟨e, rfl, hn, rfl⟩
    · cases s with
      | ok u => rfl
      | error e => simp [hgone e rfl]
    · simp [hn]

theorem exec_removes_ok {ks : List Key} {tr : List Exchange} :
    Exec (Attempt.forEach deleteObject ks).run tr (.ok ()) ↔ List.Forall₂ IsRemoval ks tr := by
  refine Exec.forEach_ok_iff_forall₂ fun k tr => ?_
  rw [exec_deleteObject]
  constructor
  · rintro ⟨s, rfl, ⟨hgone, -⟩ | ⟨e, -, -, h⟩⟩
    · exact ⟨_, rfl, s, rfl, hgone⟩
    · cases h
  · rintro ⟨_, rfl, s, rfl, hgone⟩
    exact ⟨s, rfl, .inl ⟨hgone, rfl⟩⟩

/-- The loop stops at the first object that cannot be deleted. -/
theorem exec_removes_error {ks : List Key} {tr : List Exchange} {err : GoError}
    (h : Exec (Attempt.forEach deleteObject ks).run tr (.error err)) :
    ∃ ks₁ k ks₂ tr₁ e, ks = ks₁ ++ k :: ks₂ ∧ List.Forall₂ IsRemoval ks₁ tr₁ ∧
      tr = tr₁ ++ [.did (.delete k) (.error e)] ∧ ¬e.isNotFound ∧ err = .ofApi e := by
  obtain ⟨ks₁, k, ks₂, tr₁, tr₂, rfl, rfl, h₁, h₂⟩ := Exec.forEach_error_iff.mp h
  obtain ⟨s, rfl, ⟨-, hr⟩ | ⟨e, rfl, hn, hr⟩⟩ := exec_deleteObject.mp h₂
  · cases hr
  · cases hr
    exact ⟨ks₁, k, ks₂, tr₁, e, rfl, exec_removes_ok.mp h₁, rfl, hn, rfl⟩

/-! ## Reading the workloads -/

def workloadKey (c : CubeCluster) (kind : Kind) (component : String) : Key :=
  ⟨kind, c.ns, c.name ++ "-" ++ component⟩

/-- The store workloads of the cluster, each with the ready replicas it needs. -/
def storeExpected (c : CubeCluster) : List (Key × ℤ) :=
  if isClustered c then
    [(workloadKey c .statefulSet "cubestore-router", 1),
      (workloadKey c .statefulSet "cubestore-worker", replicas c.spec.cubeStore.workers 2)]
  else [(workloadKey c .deployment "cubestore", 1)]

/-- The workloads of the cluster, each with the ready replicas it needs. -/
def expected (c : CubeCluster) : List (Key × ℤ) :=
  [(workloadKey c .deployment "api", replicas c.spec.api.replicas 2),
    (workloadKey c .deployment "refresh-worker", replicas c.spec.refreshWorker.replicas 1)] ++
    storeExpected c

theorem expected_nodup (c : CubeCluster) : ((expected c).map Prod.fst).Nodup := by
  unfold expected storeExpected
  cases isClustered c <;> simp [workloadKey]

/-- A workload as it was read, with the ready replicas it needs. -/
structure Reading where
  key : Key
  needed : ℤ
  live : Live

namespace Reading

def workload (r : Reading) : Key × ℤ := (r.key, r.needed)

def exchange (r : Reading) : Exchange := .got r.key (.ok r.live)

/-- The workload has the ready replicas it needs. -/
def isReady (r : Reading) : Bool := readyReplicas r.live ≥ r.needed

end Reading

/-- Every run of `x` reads the workloads `ws` in order and, when it completes, ends
    with what `P` says; it fails only at one that cannot be read. -/
def ReadsAll {α : Type} (ws : List (Key × ℤ)) (P : List Reading → α → Prop)
    (x : OpE GoError α) : Prop :=
  (∀ tr a, Exec x.run tr (.ok a) →
    ∃ rs : List Reading, rs.map Reading.workload = ws ∧ tr = rs.map Reading.exchange ∧ P rs a) ∧
  (∀ tr err, Exec x.run tr (.error err) → ∃ (rs : List Reading) (w : Key × ℤ)
    (rest : List (Key × ℤ)) (e : ApiError), ws = rs.map Reading.workload ++ w :: rest ∧
      tr = rs.map Reading.exchange ++ [.got w.1 (.error e)] ∧ err = .ofApi e)

namespace ReadsAll

variable {α β : Type} {ws : List (Key × ℤ)}

theorem pure {P : List Reading → α → Prop} {a : α} (h : P [] a) :
    ReadsAll [] P (Pure.pure a : OpE GoError α) := by
  constructor
  · intro tr b hb
    obtain ⟨rfl, rfl⟩ : tr = [] ∧ b = a := by simpa using hb
    exact ⟨[], rfl, rfl, h⟩
  · intro tr err herr
    simp at herr

theorem bind {P : List Reading → α → Prop} {P' : List Reading → β → Prop} {x : OpE GoError α}
    {f : α → OpE GoError β} (hx : ReadsAll ws P x) (ws' : List (Key × ℤ))
    (hf : ∀ rs a, P rs a → ReadsAll ws' (fun rs' b => P' (rs ++ rs') b) (f a)) :
    ReadsAll (ws ++ ws') P' (x >>= f) := by
  constructor
  · intro tr b h
    obtain ⟨tr₁, a, tr₂, rfl, h₁, h₂⟩ := Exec.attempt_bind_ok_iff.mp h
    obtain ⟨rs, rfl, rfl, hP⟩ := hx.1 tr₁ a h₁
    obtain ⟨rs', rfl, rfl, hP'⟩ := (hf rs a hP).1 tr₂ b h₂
    exact ⟨rs ++ rs', by simp, by simp, hP'⟩
  · intro tr err h
    rcases Exec.attempt_bind_error_iff.mp h with h | ⟨tr₁, a, tr₂, rfl, h₁, h₂⟩
    · obtain ⟨rs, w, rest, e, rfl, rfl, rfl⟩ := hx.2 tr err h
      exact ⟨rs, w, rest ++ ws', e, by simp, rfl, rfl⟩
    · obtain ⟨rs, rfl, rfl, hP⟩ := hx.1 tr₁ a h₁
      obtain ⟨rs', w, rest, e, rfl, rfl, rfl⟩ := (hf rs a hP).2 tr₂ err h₂
      exact ⟨rs ++ rs', w, rest, e, by simp, by simp, rfl⟩

/-- Reading one workload. -/
theorem read (c : CubeCluster) (kind : Kind) (component : String) (n : ℤ) :
    ReadsAll [(workloadKey c kind component, n)]
      (fun rs ready => ∃ l, rs = [⟨workloadKey c kind component, n, l⟩] ∧ ready = readyReplicas l)
      (readWorkload c kind component) := by
  simp only [ReadsAll, readWorkload, Exec.attempt_bind_iff, exec_getObject, Attempt.run_pure,
    Exec.ret_iff]
  constructor
  · rintro tr a (⟨err, -, h⟩ | ⟨_, l, _, rfl, ⟨r, rfl, hr⟩, rfl, h⟩)
    · cases h
    · cases r with
      | ok l' =>
        cases hr
        cases h
        exact ⟨[⟨workloadKey c kind component, n, l⟩], rfl, rfl, l, rfl, rfl⟩
      | error e => cases hr
  · rintro tr err (⟨_, ⟨r, rfl, hr⟩, h⟩ | ⟨_, l, _, rfl, ⟨r, rfl, hr⟩, rfl, h⟩)
    · cases r with
      | ok l => cases hr
      | error e =>
        cases hr
        cases h
        exact ⟨[], _, [], e, rfl, rfl, rfl⟩
    · cases h

end ReadsAll

theorem readsAll_storeAvailable :
    ReadsAll (storeExpected c) (fun rs r => r.1 = rs.all Reading.isReady) (storeAvailable c) := by
  unfold storeAvailable storeExpected
  simp only [storeMode_eq_iff]
  cases isClustered c
  · refine (ReadsAll.read c .deployment "cubestore" 1).bind [] ?_
    rintro _ _ ⟨l, rfl, rfl⟩
    exact ReadsAll.pure (by simp [Reading.isReady])
  · refine (ReadsAll.read c .statefulSet "cubestore-router" 1).bind [_] ?_
    rintro _ _ ⟨l, rfl, rfl⟩
    refine (ReadsAll.read c .statefulSet "cubestore-worker" _).bind [] ?_
    rintro _ _ ⟨l', rfl, rfl⟩
    exact ReadsAll.pure (by simp [Reading.isReady])

/-- The verdict is that every workload has the ready replicas it needs; the count
    is the API's. -/
theorem readsAll_workloadsAvailable :
    ReadsAll (expected c) (fun rs r => r.2.1 = rs.all Reading.isReady ∧
      ∃ l rs', rs = ⟨workloadKey c .deployment "api", replicas c.spec.api.replicas 2, l⟩ :: rs' ∧
        r.1 = readyReplicas l) (workloadsAvailable c) := by
  unfold workloadsAvailable expected
  refine (ReadsAll.read c .deployment "api" _).bind (_ :: storeExpected c) ?_
  rintro _ _ ⟨l, rfl, rfl⟩
  refine (ReadsAll.read c .deployment "refresh-worker" _).bind (storeExpected c) ?_
  rintro _ _ ⟨l', rfl, rfl⟩
  rw [← List.append_nil (storeExpected c)]
  refine readsAll_storeAvailable.bind [] ?_
  rintro rs ⟨ready, part⟩ rfl
  refine ReadsAll.pure ⟨?_, l, _, rfl, rfl⟩
  simp [Reading.isReady, Bool.and_assoc]

/-- Only reads, of objects of the cluster. -/
theorem reads_workloadsAvailable :
    Only (fun e => ∃ k ∈ clusterKeys (isClustered c) c.ns c.name, ∃ r, e = Exchange.got k r)
      (workloadsAvailable c).run := by
  have hread {kind : Kind} {component : String}
      (hk : workloadKey c kind component ∈ clusterKeys (isClustered c) c.ns c.name) :
      Only (fun e => ∃ k ∈ clusterKeys (isClustered c) c.ns c.name, ∃ r, e = Exchange.got k r)
        (readWorkload c kind component).run :=
    Only.attemptBind (fun r => ⟨⟨_, hk, r, rfl⟩, trivial⟩) fun _ => trivial
  have hname (component : String) : c.name ++ "-" ++ component = c.name ++ ("-" ++ component) :=
    String.append_assoc ..
  refine Only.attemptBind (hread ?_) fun _ => ?_
  · simp [workloadKey, clusterKeys, coreKeys, hname]
  refine Only.attemptBind (hread ?_) fun _ => ?_
  · simp [workloadKey, clusterKeys, coreKeys, hname]
  refine Only.attemptBind ?_ fun _ => trivial
  unfold storeAvailable
  split
  · rename_i hmode
    have hclustered := storeMode_eq_iff.mp hmode
    refine Only.attemptBind (hread ?_) fun _ => Only.attemptBind (hread ?_) fun _ => trivial
    · simp [workloadKey, clusterKeys, storeKeys, hclustered, clusteredKeys, hname]
    · simp [workloadKey, clusterKeys, storeKeys, hclustered, clusteredKeys, hname]
  · rename_i hmode
    have hsingle : isClustered c = false := by
      rw [← Bool.not_eq_true, ← storeMode_eq_iff]
      exact hmode
    refine Only.attemptBind (hread ?_) fun _ => trivial
    simp [workloadKey, clusterKeys, storeKeys, hsingle, singleKeys, hname]

/-- Only reads, of managed objects. -/
theorem only_workloadsAvailable :
    Only (fun e => ∃ k ∈ managedKeys c.ns c.name, ∃ r, e = Exchange.got k r)
      (workloadsAvailable c).run := by
  refine reads_workloadsAvailable.mono ?_
  rintro e ⟨k, hk, hr⟩
  exact ⟨k, mem_managedKeys.mpr (.inl hk), hr⟩

/-! ## The health request -/

/-- Only the request. -/
theorem only_readiness {available : Bool} {message : String} :
    Only (fun e => ∃ url a, e = Exchange.fetched url a) (readiness c available message) := by
  unfold readiness
  split
  · refine Only.bind (fun a => ⟨⟨_, a, rfl⟩, trivial⟩) fun r => ?_
    cases r <;> trivial
  · trivial

/-- The readiness endpoint answered with a status from 200 to 299. -/
def Healthy (a : HttpAnswer) : Prop :=
  ∃ code reason url, a = .status code reason url ∧ 200 ≤ code ∧ code < 300

theorem healthy_status {code : ℕ} {reason url : String} :
    Healthy (.status code reason url) ↔ 200 ≤ code ∧ code < 300 := by
  constructor
  · rintro ⟨_, _, _, ⟨⟩, hcode⟩
    exact hcode
  · intro hcode
    exact ⟨code, reason, url, rfl, hcode⟩

theorem exec_apiHealthy {tr : List Exchange} {r : Except GoError Unit}
    (h : Exec (apiHealthy c).run tr r) :
    ∃ a, tr = [.fetched (endpoint c ++ "/readyz") a] ∧ (r = .ok () ↔ Healthy a) := by
  simp only [apiHealthy, ExceptT.run_mk, Exec.call_iff, Exec.ret_iff] at h
  obtain ⟨a, _, rfl, rfl, rfl⟩ := h
  refine ⟨a, rfl, ?_⟩
  cases a with
  | invalidRequest m => simp [Healthy]
  | failed m => simp [Healthy]
  | status code reason url =>
    by_cases hcode : code < 200 ∨ code ≥ 300
    · simp only [healthy_status, Bool.or_eq_true, decide_eq_true_eq, if_pos hcode, reduceCtorEq,
        false_iff]
      omega
    · simp only [healthy_status, Bool.or_eq_true, decide_eq_true_eq, if_neg hcode, true_iff]
      omega

/-! ## Writing the status -/

/-- The status `s` was stored. -/
def Stores (s : CubeClusterStatus) (e : Exchange) : Prop :=
  ∃ ns name base, e = .did (.patchStatus ns name base s) (.ok ())

/-- An exchange of `setStatus`: reading the cluster or the clock, or patching the
    status it was called with. -/
def IsStatusCall (status : ConditionStatus) (reason message : String) (ready : ℤ)
    (e : Exchange) : Prop :=
  (∃ ns name r, e = .readCluster ns name r) ∨ (∃ t, e = .clock t) ∨
    ∃ (latest : CubeCluster) (t : ℤ) (r : Except ApiError Unit),
      e = .did (.patchStatus latest.ns latest.name latest.status
        (newStatus latest t status reason message ready)) r

section setStatus

variable {status : ConditionStatus} {reason message : String} {ready : ℤ}

theorem find_setStatusCondition (t : ℤ) (new : Condition) (cs : List Condition) :
    ∃ t', (setStatusCondition t new cs).find? (fun c => c.type = new.type) =
      some { new with lastTransitionTime := t' } := by
  induction cs with
  | nil => exact ⟨t, by simp [setStatusCondition]⟩
  | cons c cs ih =>
    by_cases h : c.type = new.type
    · exact ⟨if c.status = new.status then c.lastTransitionTime else t,
        by simp [setStatusCondition, h]⟩
    · simpa [setStatusCondition, h] using ih

@[simp] theorem newStatus_isReady (latest : CubeCluster) (t : ℤ) :
    (newStatus latest t status reason message ready).isReady = decide (status = .isTrue) := by
  unfold CubeClusterStatus.isReady CubeClusterStatus.ready newStatus
  obtain ⟨t', ht'⟩ := find_setStatusCondition t
    { type := "Ready", status := status, reason := reason, message := message
      observedGeneration := latest.generation, lastTransitionTime := 0 } latest.status.conditions
  simp only at ht' ⊢
  rw [ht']
  rfl

theorem only_writeStatus :
    Only (IsStatusCall status reason message ready)
      (writeStatus c status reason message ready).run := by
  refine Only.attemptBind (fun r => ⟨.inl ⟨_, _, r, rfl⟩, trivial⟩) fun latest => ?_
  refine Only.attemptBind (fun t => ⟨.inr (.inl ⟨t, rfl⟩), trivial⟩) fun t => ?_
  exact fun r => ⟨.inr (.inr ⟨latest, t, r, rfl⟩), trivial⟩

theorem only_retryOnConflict {E : Exchange → Prop} {body : OpE GoError Unit}
    (h : Only E body.run) : ∀ n, Only E (retryOnConflict body n).run
  | 0 => h
  | n + 1 => by
    refine Only.bind h fun r => ?_
    cases r with
    | ok u => trivial
    | error err =>
      dsimp only
      split
      · exact only_retryOnConflict h n
      · trivial

theorem only_setStatus :
    Only (IsStatusCall status reason message ready) (setStatus c status reason message ready).run :=
  only_retryOnConflict only_writeStatus 4

/-- `x` completes exactly in the runs in which it stores a status. -/
def StoresIfOk (x : OpE GoError Unit) : Prop :=
  ∀ tr r, Exec x.run tr r → (r = .ok () ↔ ∃ s, ∃ e ∈ tr, Stores s e)

theorem exec_writeStatus {tr : List Exchange} {r : Except GoError Unit} :
    Exec (writeStatus c status reason message ready).run tr r ↔
      (∃ e, tr = [.readCluster c.ns c.name (.error e)] ∧ r = .error (.ofApi e)) ∨
      ∃ latest t s, tr = [.readCluster c.ns c.name (.ok latest), .clock t,
          .did (.patchStatus latest.ns latest.name latest.status
            (newStatus latest t status reason message ready)) s] ∧
        r = s.mapError fun e => (GoError.ofApi e).wrap "update CubeCluster status: " := by
  simp only [writeStatus, Exec.attempt_bind_iff, exec_getCluster, exec_act, Exec.lift_iff, exec_now]
  constructor
  · rintro (⟨err, ⟨s, rfl, hs⟩, rfl⟩ | ⟨_, latest, _, rfl, ⟨s, rfl, hs⟩, h⟩)
    · cases s with
      | ok latest => cases hs
      | error e =>
        cases hs
        exact .inl ⟨e, rfl, rfl⟩
    · rcases h with ⟨err, ⟨t, -, h⟩, -⟩ | ⟨_, t, _, rfl, ⟨t', rfl, ht⟩, s', rfl, rfl⟩
      · cases h
      · cases s with
        | ok latest' =>
          cases hs
          cases ht
          exact .inr ⟨latest, t, s', rfl, rfl⟩
        | error e => cases hs
  · rintro (⟨e, rfl, rfl⟩ | ⟨latest, t, s, rfl, rfl⟩)
    · exact .inl ⟨_, ⟨.error e, rfl, rfl⟩, rfl⟩
    · exact .inr ⟨[Exchange.readCluster c.ns c.name (.ok latest)], latest, _, rfl,
        ⟨.ok latest, rfl, rfl⟩, .inr ⟨[Exchange.clock t], t, _, rfl, ⟨t, rfl, rfl⟩, s, rfl, rfl⟩⟩

/-- The body completes in the last round of a loop that completes. -/
theorem exec_retryOnConflict_ok {body : OpE GoError Unit} :
    ∀ {n : ℕ} {tr : List Exchange}, Exec (retryOnConflict body n).run tr (.ok ()) →
      ∃ tr₁ tr₂, tr = tr₁ ++ tr₂ ∧ Exec body.run tr₂ (.ok ())
  | 0, tr, h => ⟨[], tr, rfl, h⟩
  | n + 1, _, h => by
    obtain ⟨tr₁, err, tr₂, rfl, -, h₂⟩ | ⟨tr₁, u, tr₂, rfl, h₁, h₂⟩ := Exec.run_bind_iff.mp h
    · dsimp only at h₂
      split at h₂
      · obtain ⟨tr₃, tr₄, rfl, hbody⟩ := exec_retryOnConflict_ok h₂
        exact ⟨tr₁ ++ tr₃, tr₄, by simp, hbody⟩
      · cases (Exec.ret_iff.mp h₂).2
    · obtain ⟨rfl, -⟩ := Exec.ret_iff.mp h₂
      exact ⟨[], tr₁, by simp, h₁⟩

/-- What the last round of a completed `setStatus` does. -/
theorem exec_setStatus_ok {tr : List Exchange}
    (h : Exec (setStatus c status reason message ready).run tr (.ok ())) :
    ∃ tr₁ latest t, tr = tr₁ ++ [.readCluster c.ns c.name (.ok latest), .clock t] ++
      [.did (.patchStatus latest.ns latest.name latest.status
        (newStatus latest t status reason message ready)) (.ok ())] := by
  obtain ⟨tr₁, tr₂, rfl, hround⟩ := exec_retryOnConflict_ok h
  rcases exec_writeStatus.mp hround with ⟨e, -, he⟩ | ⟨latest, t, r, rfl, hr⟩
  · cases he
  · cases r with
    | ok u => exact ⟨tr₁, latest, t, by simp⟩
    | error e => cases hr

theorem storesIfOk_writeStatus : StoresIfOk (writeStatus c status reason message ready) := by
  intro tr r h
  rcases exec_writeStatus.mp h with ⟨e, rfl, rfl⟩ | ⟨latest, t, s, rfl, rfl⟩
  · simp [Stores]
  · cases s <;> simp [Stores, Except.mapError]

theorem storesIfOk_retryOnConflict {body : OpE GoError Unit} (h : StoresIfOk body) :
    ∀ n, StoresIfOk (retryOnConflict body n)
  | 0 => h
  | n + 1 => by
    intro tr r hr
    obtain ⟨tr₁, err, tr₂, rfl, h₁, h₂⟩ | ⟨tr₁, u, tr₂, rfl, h₁, h₂⟩ := Exec.run_bind_iff.mp hr
    · -- the first round stored nothing
      have hfirst : ¬∃ s, ∃ e ∈ tr₁, Stores s e := by
        rw [← h tr₁ _ h₁]
        simp
      have hsplit : (∃ s, ∃ e ∈ tr₁ ++ tr₂, Stores s e) ↔ ∃ s, ∃ e ∈ tr₂, Stores s e := by
        constructor
        · rintro ⟨s, e, he, hs⟩
          rcases List.mem_append.mp he with he | he
          · exact absurd ⟨s, e, he, hs⟩ hfirst
          · exact ⟨s, e, he, hs⟩
        · rintro ⟨s, e, he, hs⟩
          exact ⟨s, e, List.mem_append_right _ he, hs⟩
      rw [hsplit]
      dsimp only at h₂
      split at h₂
      · exact storesIfOk_retryOnConflict h n tr₂ r h₂
      · obtain ⟨rfl, rfl⟩ := Exec.ret_iff.mp h₂
        simp
    · obtain ⟨rfl, rfl⟩ := Exec.ret_iff.mp h₂
      simpa using (h tr₁ _ h₁)

theorem storesIfOk_setStatus : StoresIfOk (setStatus c status reason message ready) :=
  storesIfOk_retryOnConflict storesIfOk_writeStatus 4

end setStatus

/-! ## The pass -/

/-- The return after the status of a pass that stopped early or is not ready was
    written, or could not be. -/
def afterStatus (result : Result) : Except GoError Unit → Outcome
  | .ok () => .returned result none
  | .error err => .returned {} (some err)

/-- The ways a pass can go once it has read its cluster. -/
inductive Pass (q : Quantities) (c : CubeCluster) : List Exchange → Outcome → Prop where
  | rejected {tr tr₁ : List Exchange} {err : GoError} {r : Except GoError Unit} :
      Exec (validateReferences q c).run tr (.error err) →
      Exec (setStatus c .isFalse "InvalidConfiguration" err.message 0).run tr₁ r →
      Pass q c (tr ++ tr₁) (afterStatus { requeueAfter := 30 } r)
  | applyFailed {tr tr₁ tr₂ : List Exchange} {os : List K8s.Object} {err err' : GoError}
      {r : Except GoError Unit} :
      Exec (validateReferences q c).run tr (.ok ()) → objects q c = some os →
      Exec (Attempt.forEach (reconcileObject c) os).run tr₁ (.error err) →
      Exec (setStatus c .isFalse "ReconcileFailed" err.message 0).run tr₂ r →
      Pass q c (tr ++ (tr₁ ++ tr₂)) (.returned {} (some err'))
  | removeFailed {tr tr₁ tr₂ : List Exchange} {os : List K8s.Object} {err : GoError} :
      Exec (validateReferences q c).run tr (.ok ()) → objects q c = some os →
      List.Forall₂ (IsApply c) os tr₁ →
      Exec (removeObsoleteStore c).run tr₂ (.error err) →
      Pass q c (tr ++ (tr₁ ++ tr₂)) (.returned {} (some err))
  | readFailed {tr tr₁ tr₂ tr₃ : List Exchange} {os : List K8s.Object} {err : GoError} :
      Exec (validateReferences q c).run tr (.ok ()) → objects q c = some os →
      List.Forall₂ (IsApply c) os tr₁ → List.Forall₂ IsRemoval (obsoleteStore c) tr₂ →
      Exec (workloadsAvailable c).run tr₃ (.error err) →
      Pass q c (tr ++ (tr₁ ++ (tr₂ ++ tr₃))) (.returned {} (some err))
  | reported {tr tr₁ tr₂ tr₃ tr₄ : List Exchange} {os : List K8s.Object} {ready : ℤ}
      {available : Bool} {message : String} {out : Outcome} :
      Exec (validateReferences q c).run tr (.ok ()) → objects q c = some os →
      List.Forall₂ (IsApply c) os tr₁ → List.Forall₂ IsRemoval (obsoleteStore c) tr₂ →
      Exec (workloadsAvailable c).run tr₃ (.ok (ready, available, message)) →
      Exec (reportReadiness c ready available message) tr₄ out →
      Pass q c (tr ++ (tr₁ ++ (tr₂ ++ (tr₃ ++ tr₄)))) out

theorem reconcileCluster_cases {tr : List Exchange} {out : Outcome}
    (h : Exec (reconcileCluster q c) tr out) : Pass q c tr out := by
  obtain ⟨tr, err, tr', rfl, hvalidate, h⟩ | ⟨tr, u, tr', rfl, hvalidate, h⟩ :=
    Exec.run_bind_iff.mp h
  · obtain ⟨tr₁, e, tr₂, rfl, hstatus, h⟩ | ⟨tr₁, u, tr₂, rfl, hstatus, h⟩ :=
      Exec.run_bind_iff.mp h <;>
    · obtain ⟨rfl, rfl⟩ := Exec.ret_iff.mp h
      rw [List.append_nil]
      exact .rejected hvalidate hstatus
  -- a valid spec has objects
  obtain ⟨os, hos⟩ := exists_objects (exec_validateReferences_ok hvalidate).1
  simp only [hos] at h
  obtain ⟨tr₁, err, tr', rfl, happly, h⟩ | ⟨tr₁, u, tr', rfl, happly, h⟩ := Exec.run_bind_iff.mp h
  · obtain ⟨tr₂, e, tr₃, rfl, hstatus, h⟩ | ⟨tr₂, u, tr₃, rfl, hstatus, h⟩ :=
      Exec.run_bind_iff.mp h <;>
    · obtain ⟨rfl, rfl⟩ := Exec.ret_iff.mp h
      rw [List.append_nil]
      exact .applyFailed hvalidate hos happly hstatus
  have happly := exec_applies_ok.mp happly
  obtain ⟨tr₂, err, tr', rfl, hremove, h⟩ | ⟨tr₂, u, tr', rfl, hremove, h⟩ :=
    Exec.run_bind_iff.mp h
  · obtain ⟨rfl, rfl⟩ := Exec.ret_iff.mp h
    rw [List.append_nil]
    exact .removeFailed hvalidate hos happly hremove
  have hremove := exec_removes_ok.mp hremove
  obtain ⟨tr₃, err, tr', rfl, hread, h⟩ | ⟨tr₃, ⟨ready, available, message⟩, tr', rfl, hread, h⟩ :=
    Exec.run_bind_iff.mp h
  · obtain ⟨rfl, rfl⟩ := Exec.ret_iff.mp h
    rw [List.append_nil]
    exact .readFailed hvalidate hos happly hremove hread
  · exact .reported hvalidate hos happly hremove hread h

/-- The report stores one condition: `True` exactly when the workloads are available
    and the health request succeeds. -/
theorem exec_reportReadiness {ready : ℤ} {available : Bool} {message : String}
    {tr : List Exchange} {out : Outcome} (h : Exec (reportReadiness c ready available message) tr out) :
    ∃ tr₁ tr₂ condition reason message' r, tr = tr₁ ++ tr₂ ∧
      (∀ e ∈ tr₁, ∃ url a, e = Exchange.fetched url a) ∧
      Exec (setStatus c condition reason message' ready).run tr₂ r ∧
      reason ∈ ["APIHealthCheckFailed", "Available", "Progressing"] ∧
      (condition = .isTrue ∧ available = true ∧
          (∃ a, tr₁ = [.fetched (endpoint c ++ "/readyz") a] ∧ Healthy a) ∧
          out = afterStatus {} r ∨
        condition = .isFalse ∧
          (available = false ∧ tr₁ = [] ∨
            ∃ a, tr₁ = [.fetched (endpoint c ++ "/readyz") a] ∧ ¬Healthy a) ∧
          out = afterStatus { requeueAfter := 10 } r) := by
  unfold reportReadiness at h
  obtain ⟨tr₁, ⟨condition, reason, message'⟩, tr', rfl, hreadiness, h⟩ := Exec.bind_iff.mp h
  have hreturn : ∃ r, Exec (setStatus c condition reason message' ready).run tr' r ∧
      out = afterStatus (if condition = .isFalse then { requeueAfter := 10 } else {}) r := by
    obtain ⟨tr₂, e, tr₃, rfl, hstatus, h⟩ | ⟨tr₂, u, tr₃, rfl, hstatus, h⟩ :=
      Exec.run_bind_iff.mp h <;>
    · obtain ⟨rfl, rfl⟩ := Exec.ret_iff.mp h
      exact ⟨_, by simpa using hstatus, rfl⟩
  obtain ⟨r, hstatus, hout⟩ := hreturn
  -- the health request is made only when the workloads are available
  refine ⟨tr₁, tr', condition, reason, message', r, rfl, only_readiness.of_exec hreadiness, hstatus,
    ?_⟩
  unfold readiness at hreadiness
  split at hreadiness
  · rename_i havailable
    obtain ⟨tr₂, e, tr₃, rfl, hhealth, hret⟩ | ⟨tr₂, u, tr₃, rfl, hhealth, hret⟩ :=
      Exec.run_bind_iff.mp hreadiness
    · obtain ⟨a, rfl, ha⟩ := exec_apiHealthy hhealth
      obtain ⟨rfl, hcondition⟩ := Exec.ret_iff.mp hret
      cases hcondition
      refine ⟨by simp, .inr ⟨rfl, .inr ⟨a, rfl, fun hok => ?_⟩, hout⟩⟩
      cases ha.mpr hok
    · obtain ⟨a, rfl, ha⟩ := exec_apiHealthy hhealth
      obtain ⟨rfl, hcondition⟩ := Exec.ret_iff.mp hret
      cases hcondition
      exact ⟨by simp, .inl ⟨rfl, havailable, ⟨a, rfl, ha.mp rfl⟩, hout⟩⟩
  · rename_i havailable
    obtain ⟨rfl, hcondition⟩ := Exec.ret_iff.mp hreadiness
    cases hcondition
    exact ⟨by simp, .inr ⟨rfl, .inl ⟨by simpa using havailable, rfl⟩, hout⟩⟩

/-- The calls of a pass after it has read its cluster. -/
theorem exec_reconcile {ns name : String} {tr : List Exchange} {out : Outcome}
    (h : Exec (reconcile q ns name) (Exchange.readCluster ns name (.ok c) :: tr) out) :
    Pass q c tr out := by
  obtain ⟨tr₁, err, tr₂, htr, h₁, h₂⟩ | ⟨tr₁, c', tr₂, htr, h₁, h₂⟩ := Exec.run_bind_iff.mp h
  · obtain ⟨s, rfl, hs⟩ := (exec_getCluster _).mp h₁
    cases s with
    | ok c' => cases hs
    | error e => simp at htr
  · obtain ⟨s, rfl, hs⟩ := (exec_getCluster _).mp h₁
    cases s with
    | ok c'' =>
      cases hs
      obtain ⟨rfl, rfl⟩ : c = c' ∧ tr = tr₂ := by simpa using htr
      exact reconcileCluster_cases h₂
    | error e => cases hs

/-- A pass that finds its cluster goes on with it. -/
theorem reconcile_of_found {tr : List Exchange} {out : Outcome} (ns name : String)
    (h : Exec (reconcileCluster q c) tr out) :
    Exec (reconcile q ns name) (Exchange.readCluster ns name (.ok c) :: tr) out :=
  Exec.run_bind_iff.mpr (.inr ⟨[Exchange.readCluster ns name (.ok c)], c, tr, rfl,
    (exec_getCluster _).mpr ⟨.ok c, rfl, rfl⟩, h⟩)

end CubeOperator.Go
