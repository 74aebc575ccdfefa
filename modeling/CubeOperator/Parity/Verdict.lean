import CubeOperator.Content.Passes
import CubeOperator.Go.Readiness
import CubeOperator.Handover.Passes
import CubeOperator.Parity.Objects
import CubeOperator.Topology.Runs

/-! # The verdict of a pass

    What a pass records of a CubeCluster when no call to the Kubernetes API fails: the
    status and the reason of the `Ready` condition, and the ready replicas of the API.
    Both controllers read the same workloads and ask the same endpoint, and judge the
    answer in ways of their own: Go accepts the codes from 200 to 299, and
    `raise_for_status` refuses those from 400 to 599. -/

namespace CubeOperator

open Interaction Kube V1alpha1

variable {q : Quantities} {c : CubeCluster} {live : Key → Live} {health : HttpAnswer}
  {tr : List Exchange} {s s' : Set Key}

/-! ## Verdicts -/

/-- What a pass records. -/
structure Verdict where
  status : ConditionStatus
  reason : String
  readyAPIs : ℤ
  deriving DecidableEq

/-- The verdict on the workloads and on the answer of the endpoint. -/
def verdict (healthy available : Bool) (ready : ℤ) : Verdict :=
  if available then
    if healthy then ⟨.isTrue, "Available", ready⟩ else ⟨.isFalse, "APIHealthCheckFailed", ready⟩
  else ⟨.isFalse, "Progressing", ready⟩

/-- The verdict that a status holds. -/
def statusVerdict (status : CubeClusterStatus) : Option Verdict :=
  status.ready.map fun condition => ⟨condition.status, condition.reason, status.readyAPIs⟩

/-- The pass of the Go controller stores the verdict. -/
def Go.Records (tr : List Exchange) (v : Verdict) : Prop :=
  ∃ stored, (∃ e ∈ tr, Go.Stores stored e) ∧ statusVerdict stored = some v

/-- The handler of the Kopf controller leaves the verdict. -/
def Kopf.Records (out : Kopf.Handled) (v : Verdict) : Prop :=
  ∃ patch, out.patch = some patch ∧ statusVerdict patch = some v

/-- The answer is a successful readiness response. -/
def Successful : HttpAnswer → Bool
  | .status code _ _ => 200 ≤ code ∧ code < 300
  | _ => false

/-- What `raise_for_status` and the errors of the request leave. -/
def NotRefused : HttpAnswer → Bool
  | .status code _ _ => ¬(400 ≤ code ∧ code < 600)
  | _ => false

/-! ## The server -/

/-- The answers of the server: objects exist or not as `ServesObjects` says, the managed
    ones are as in `live`, and the endpoint answers with `health`. -/
def ServesLive (live : Key → Live) (health : HttpAnswer) (s : Set Key) (e : Exchange)
    (s' : Set Key) : Prop :=
  ServesObjects s e s' ∧ match e with
    | ⟨.get k, r⟩ => k.kind.isReference = false → ∀ l, r = .ok l → l = live k
    | ⟨.httpGet _, answer⟩ => answer = health
    | _ => True

theorem servesObjects_of_replay (h : Replay (ServesLive live health) s tr s') :
    Replay ServesObjects s tr s' :=
  h.map id fun _ _ _ hserves => hserves.1

/-- The reads of a part that finds its objects are answered from `live`. -/
theorem read_of_replay (h : Replay (ServesLive live health) s tr s') (hclean : Clean tr)
    (hreads : ∀ e ∈ tr, (∃ kind r, e = .did (.discover kind) r) ∨
      ∃ k ∈ s, ∃ r, k.kind.isReference = false ∧ e = .got k r) :
    s' = s ∧ ∀ e ∈ tr, e.2 = workloads live e.1 := by
  induction h with
  | nil => exact ⟨rfl, by simp⟩
  | @cons s s₁ s' e tr hserves _ ih =>
    obtain ⟨hfirst, hrest⟩ := List.forall_mem_cons.mp hreads
    obtain ⟨hcleanFirst, hcleanRest⟩ := List.forall_mem_cons.mp hclean
    rcases hfirst with ⟨kind, r, rfl⟩ | ⟨k, hk, r, hkind, rfl⟩
    · obtain rfl : s₁ = s := hserves.1
      obtain ⟨hs, hall⟩ := ih hcleanRest hrest
      refine ⟨hs, List.forall_mem_cons.mpr ⟨?_, hall⟩⟩
      cases r with
      | ok u => rfl
      | error err => exact absurd (hcleanFirst (by simp)) id
    · obtain ⟨⟨rfl, hpresent⟩, hlive⟩ := hserves
      obtain ⟨hs, hall⟩ := ih hcleanRest hrest
      refine ⟨hs, List.forall_mem_cons.mpr ⟨?_, hall⟩⟩
      cases r with
      | ok l => exact congrArg Except.ok (hlive hkind l rfl)
      | error err =>
        -- A clean read can only fail because there is no such object.
        have habsent : k.kind.isReference = false ∧ err.isNotFound := hcleanFirst (by simp)
        exact absurd hk ((hpresent hkind).2 err rfl habsent.2)

/-! ## The Go controller -/

namespace Go

/-- Every workload has the ready replicas it needs. -/
def Available (c : CubeCluster) (live : Key → Live) : Prop :=
  ∀ w ∈ expected c, w.2 ≤ readyReplicas (live w.1)

/-- The API's ready replicas. -/
def liveReady (c : CubeCluster) (live : Key → Live) : ℤ :=
  readyReplicas (live (workloadKey c .deployment "api"))

/-- The workloads as they are live. -/
theorem eval_workloadsAvailable {ready : ℤ} {available : Bool} {message : String}
    (h : (workloadsAvailable c).run.eval (workloads live) = .ok (ready, available, message)) :
    ready = liveReady c live ∧ (available = true ↔ Available c live) := by
  obtain ⟨tr, hexec, htr⟩ := Program.exec_eval (workloads live) (workloadsAvailable c).run
  rw [h] at hexec
  obtain ⟨rs, hws, rfl, havailable, l, rs', rfl, hready⟩ :=
    readsAll_workloadsAvailable.1 tr _ hexec
  dsimp only at havailable hready
  have hlive : ∀ r ∈ (⟨workloadKey c .deployment "api", replicas c.spec.api.replicas 2, l⟩ :: rs'),
      r.live = live r.key := by
    intro r hr
    have hanswer : (Except.ok r.live : Except ApiError Live) = .ok (live r.key) :=
      htr r.exchange (List.mem_map_of_mem hr)
    exact Except.ok.inj hanswer
  constructor
  · have hl : l = live (workloadKey c .deployment "api") := hlive _ (List.mem_cons_self ..)
    rw [hready, hl]
    rfl
  · rw [havailable, List.all_eq_true]
    unfold Available
    rw [← hws]
    simp only [List.forall_mem_map, Reading.isReady, Reading.workload, decide_eq_true_eq, ge_iff_le]
    constructor
    · intro hall r hr
      rw [← hlive r hr]
      exact hall r hr
    · intro hall r hr
      rw [hlive r hr]
      exact hall r hr

/-- Once everything is applied and the other topology is deleted, the objects of the
    cluster exist. -/
theorem present_of_replay {os : List K8s.Object} {tr₁ tr₂ : List Exchange} {s₁ s₂ : Set Key}
    (hos : objects q c = some os) (happly : List.Forall₂ (IsApply c) os tr₁)
    (hremove : List.Forall₂ IsRemoval (obsoleteStore c) tr₂)
    (h₁ : Replay ServesObjects s tr₁ s₁) (h₂ : Replay ServesObjects s₁ tr₂ s₂) :
    ∀ k ∈ clusterKeys (isClustered c) c.ns c.name, k ∈ s₂ := by
  obtain ⟨-, -, happlied⟩ := (Part.grows (grows_reconcileObject (c := c)) os s []).sound
    (exec_applies_ok.mpr happly) (h₁.logged [])
  have hkeys : ∀ k ∈ clusterKeys (isClustered c) c.ns c.name, k ∈ s₁ := by
    rw [← objects_keys hos]
    exact happlied
  have hexec : Exec (Attempt.forEach deleteObject (obsoleteStore c)).run tr₂ (.ok ()) :=
    exec_removes_ok.mpr hremove
  exact ((Part.shrinks (obsoleteStore c) s₁ [] (fun k hk => mem_obsoleteStore.mp hk)
    (fun k hk => shrinks_deleteObject (mem_obsoleteStore.mp hk)) hkeys).sound hexec
      (h₂.logged [])).1

/-- The reads of a pass see the live workloads. -/
theorem reads_of_replay {r : Except GoError (ℤ × Bool × String)}
    (hpresent : ∀ k ∈ clusterKeys (isClustered c) c.ns c.name, k ∈ s)
    (hexec : Exec (workloadsAvailable c).run tr r) (hclean : Clean tr)
    (hreplay : Replay (ServesLive live health) s tr s') :
    r = (workloadsAvailable c).run.eval (workloads live) := by
  refine Program.eq_eval_of_exec hexec (read_of_replay hreplay hclean ?_).2
  intro e he
  obtain ⟨k, hk, r, rfl⟩ := reads_workloadsAvailable.of_exec hexec e he
  exact .inr ⟨k, hpresent k hk, r, clusterKeys_kind k hk, rfl⟩

/-- A pass in which no call fails gets to its report. -/
theorem report_of_clean {out : Outcome} {ready : ℤ} {available : Bool} {message : String}
    (hvalid : Valid q c) (hpass : Pass q c tr out) (hclean : Clean tr)
    (hreplay : Replay (ServesLive live health) s tr s')
    (hlive : (workloadsAvailable c).run.eval (workloads live) = .ok (ready, available, message)) :
    ∃ tr₁ tr₂ s₁, tr = tr₁ ++ tr₂ ∧ (∀ e ∈ tr₁, phase e ≠ .status) ∧
      Exec (reportReadiness c ready available message) tr₂ out ∧
      Replay (ServesLive live health) s₁ tr₂ s' := by
  cases hpass with
  | rejected hrejected =>
    exact absurd hclean.of_append (not_clean_of_rejected hvalid hrejected)
  | applyFailed hvalidate hos happly =>
    obtain ⟨os₁, o, os₂, tr₁, e, rfl, -, rfl, -⟩ := exec_applies_error happly
    exact absurd (hclean (.did (.apply (applied c o)) (.error e)) (by simp) (by simp)) id
  | removeFailed hvalidate hos happly hremove =>
    obtain ⟨ks₁, k, ks₂, tr₁, e, -, -, rfl, hfound, -⟩ := exec_removes_error hremove
    exact absurd (hclean (.did (.delete k) (.error e)) (by simp) (by simp)) hfound
  | @readFailed tr tr₁ tr₂ tr₃ os err hvalidate hos happly hremove hread =>
    obtain ⟨s₁, -, hreplay⟩ := Replay.append_iff.mp hreplay
    obtain ⟨s₂, h₂, hreplay⟩ := Replay.append_iff.mp hreplay
    obtain ⟨s₃, h₃, h₄⟩ := Replay.append_iff.mp hreplay
    -- the applies of this pass have put every workload there before it reads one
    have hpresent := present_of_replay hos happly hremove (servesObjects_of_replay h₂)
      (servesObjects_of_replay h₃)
    have hcleanReads : Clean tr₃ := fun e he => hclean e (by simp [he])
    have hfailed := reads_of_replay hpresent hread hcleanReads h₄
    rw [hlive] at hfailed
    cases hfailed
  | @reported tr tr₁ tr₂ tr₃ tr₄ os ready' available' message' out hvalidate hos happly hremove hread
      hreport =>
    obtain ⟨s₁, -, hreplay⟩ := Replay.append_iff.mp hreplay
    obtain ⟨s₂, h₂, hreplay⟩ := Replay.append_iff.mp hreplay
    obtain ⟨s₃, h₃, hreplay⟩ := Replay.append_iff.mp hreplay
    obtain ⟨s₄, h₄, h₅⟩ := Replay.append_iff.mp hreplay
    have hpresent := present_of_replay hos happly hremove (servesObjects_of_replay h₂)
      (servesObjects_of_replay h₃)
    have hcleanReads : Clean tr₃ := fun e he => hclean e (by simp [he])
    have hfound := reads_of_replay hpresent hread hcleanReads h₄
    rw [hlive] at hfound
    obtain ⟨rfl, rfl, rfl⟩ : ready' = ready ∧ available' = available ∧ message' = message := by
      simpa using hfound
    refine ⟨tr ++ (tr₁ ++ (tr₂ ++ tr₃)), tr₄, s₄, by simp, ?_, hreport, h₅⟩
    have hvalidation := (inPhase_validate hvalidate).ne (show _ ≠ Phase.status by decide)
    have hreads := (inPhase_workloads hread).ne (show _ ≠ Phase.status by decide)
    have happlies := (inPhase_apply happly).ne (show _ ≠ Phase.status by decide)
    have hremoves := (inPhase_remove hremove).ne (show _ ≠ Phase.status by decide)
    simp only [List.forall_mem_append]
    exact ⟨hvalidation, happlies, hremoves, hreads⟩

/-- Only the status part of a pass records a verdict. -/
theorem records_append {tr' : List Exchange} {v : Verdict} (h : ∀ e ∈ tr, phase e ≠ .status) :
    Records (tr ++ tr') v ↔ Records tr' v := by
  constructor
  · intro hrecords
    obtain ⟨stored, ⟨e, he, hstores⟩, hv⟩ := hrecords
    rcases List.mem_append.mp he with he | he
    · exact absurd (phase_stores hstores) (h e he)
    · exact ⟨stored, ⟨e, he, hstores⟩, hv⟩
  · intro hrecords
    obtain ⟨stored, ⟨e, he, hstores⟩, hv⟩ := hrecords
    exact ⟨stored, ⟨e, List.mem_append_right _ he, hstores⟩, hv⟩

section setStatus

variable {status : ConditionStatus} {reason message : String} {ready : ℤ}

theorem statusVerdict_newStatus (latest : CubeCluster) (t : ℤ) :
    statusVerdict (newStatus latest t status reason message ready) =
      some ⟨status, reason, ready⟩ := by
  obtain ⟨t', ht'⟩ := find_setStatusCondition t
    { type := "Ready", status := status, reason := reason, message := message
      observedGeneration := latest.generation, lastTransitionTime := 0 } latest.status.conditions
  unfold statusVerdict CubeClusterStatus.ready newStatus
  simp only at ht' ⊢
  rw [ht']
  rfl

/-- Without a failed call the first round of `setStatus` completes. -/
theorem setStatus_ok_of_clean {r : Except GoError Unit}
    (h : Exec (setStatus c status reason message ready).run tr r) (hclean : Clean tr) :
    r = .ok () := by
  obtain ⟨tr₁, err, tr₂, rfl, hround, -⟩ | ⟨tr₁, u, tr₂, rfl, -, hret⟩ := Exec.run_bind_iff.mp h
  · rcases exec_writeStatus.mp hround with ⟨e, rfl, -⟩ | ⟨latest, t, s, rfl, hs⟩
    · have hread := hclean (.readCluster c.ns c.name (.error e)) (by simp) (by simp)
      exact absurd hread id
    · cases s with
      | ok u => cases hs
      | error e =>
        have hpatch := hclean (.did (.patchStatus latest.ns latest.name latest.status
          (newStatus latest t status reason message ready)) (.error e)) (by simp) (by simp)
        exact absurd hpatch id
  · exact (Exec.ret_iff.mp hret).2

theorem records_setStatus {r : Except GoError Unit}
    (h : Exec (setStatus c status reason message ready).run tr r) (hclean : Clean tr)
    (v : Verdict) : Records tr v ↔ v = ⟨status, reason, ready⟩ := by
  constructor
  · intro hrecords
    obtain ⟨stored, ⟨e, he, hstores⟩, hv⟩ := hrecords
    obtain ⟨latest, t, rfl⟩ := stores_newStatus h he hstores
    rw [statusVerdict_newStatus] at hv
    exact (Option.some.inj hv).symm
  · rintro rfl
    obtain ⟨stored, e, he, hstores⟩ :=
      (storesIfOk_setStatus tr r h).mp (setStatus_ok_of_clean h hclean)
    obtain ⟨latest, t, rfl⟩ := stores_newStatus h he hstores
    exact ⟨_, ⟨e, he, hstores⟩, statusVerdict_newStatus latest t⟩

end setStatus

/-- The condition that a report asks for. -/
theorem exec_readiness {available : Bool} {message message' reason : String}
    {condition : ConditionStatus} (ready : ℤ)
    (h : Exec (readiness c available message) tr (condition, reason, message'))
    (hreplay : Replay (ServesLive live health) s tr s') :
    verdict (Successful health) available ready = ⟨condition, reason, ready⟩ := by
  unfold readiness at h
  cases available with
  | false =>
    obtain ⟨-, hresult⟩ := Exec.ret_iff.mp h
    cases hresult
    rfl
  | true =>
    -- The answer of the endpoint decides.
    have hhealthy {a : HttpAnswer} (hserved : a = health) :
        Successful health = true ↔ Healthy a := by
      subst hserved
      unfold Healthy Successful
      cases a <;> simp
    obtain ⟨tr₁, err, tr₂, rfl, hfailed, hret⟩ | ⟨tr₁, u, tr₂, rfl, hfound, hret⟩ :=
      Exec.run_bind_iff.mp h
    · obtain ⟨a, rfl, ha⟩ := exec_apiHealthy hfailed
      obtain ⟨s₁, hserves, -⟩ := Replay.cons_iff.mp (Replay.append_iff.mp hreplay).choose_spec.1
      have hnot : Successful health = false := by
        rw [← Bool.not_eq_true, hhealthy hserves.2, ← ha]
        simp
      obtain ⟨-, hresult⟩ := Exec.ret_iff.mp hret
      cases hresult
      simp [verdict, hnot]
    · obtain ⟨a, rfl, ha⟩ := exec_apiHealthy hfound
      obtain ⟨s₁, hserves, -⟩ := Replay.cons_iff.mp (Replay.append_iff.mp hreplay).choose_spec.1
      have hyes : Successful health = true := (hhealthy hserves.2).mpr (ha.mp rfl)
      obtain ⟨-, hresult⟩ := Exec.ret_iff.mp hret
      cases hresult
      simp [verdict, hyes]

/-- What a report records. -/
theorem records_of_report {out : Outcome} {ready : ℤ} {available : Bool} {message : String}
    (h : Exec (reportReadiness c ready available message) tr out) (hclean : Clean tr)
    (hreplay : Replay (ServesLive live health) s tr s') (v : Verdict) :
    Records tr v ↔ v = verdict (Successful health) available ready := by
  obtain ⟨tr₁, ⟨condition, reason, message'⟩, tr₂, rfl, hreadiness, hrest⟩ := Exec.bind_iff.mp h
  obtain ⟨s₁, h₁, -⟩ := Replay.append_iff.mp hreplay
  obtain ⟨-, hclean₂⟩ := List.forall_mem_append.mp hclean
  have hquiet : ∀ e ∈ tr₁, phase e ≠ .status :=
    (inPhase_health (only_readiness.of_exec hreadiness)).ne (by decide)
  rw [records_append hquiet, exec_readiness ready hreadiness h₁]
  obtain ⟨tr₃, r, tr₄, rfl, hstatus, hret⟩ := Exec.bind_iff.mp hrest
  have hnil : tr₄ = [] := by
    cases r <;> exact (Exec.ret_iff.mp hret).1
  rw [hnil, List.append_nil] at hclean₂ ⊢
  exact records_setStatus hstatus hclean₂ v

/-- What a pass records in which no call fails. -/
theorem records_of_clean {ns name : String} {out : Outcome} {ready : ℤ} {available : Bool}
    {message : String} (hvalid : Valid q c)
    (hexec : Exec (reconcile q ns name) (Exchange.readCluster ns name (.ok c) :: tr) out)
    (hclean : Clean tr) (hreplay : Replay (ServesLive live health) s tr s')
    (hlive : (workloadsAvailable c).run.eval (workloads live) = .ok (ready, available, message))
    (v : Verdict) : Records tr v ↔ v = verdict (Successful health) available ready := by
  obtain ⟨tr₁, tr₂, s₁, rfl, hquiet, hreport, hreplay⟩ :=
    report_of_clean hvalid (exec_reconcile hexec) hclean hreplay hlive
  obtain ⟨-, hclean⟩ := List.forall_mem_append.mp hclean
  rw [records_append hquiet]
  exact records_of_report hreport hclean hreplay v

end Go

/-! ## The Kopf controller -/

namespace Kopf

variable {b : Body}

/-- Once everything is applied and the other topology is deleted, the objects of the
    cluster exist. -/
theorem present_of_replay {ds : List Manifest} {tr₁ tr₂ : List Exchange} {s₁ s₂ : Set Key}
    (hds : desiredObjects b.name b.ns b.spec = some ds)
    (happly : Exec (Attempt.forEach (applyObject (ownerReference b.name b.uid)) ds).run tr₁ (.ok ()))
    (hremove : Exec (Attempt.forEach deleteIfPresent (obsoleteStore b.spec b.name b.ns)).run tr₂
      (.ok ()))
    (h₁ : Replay ServesObjects s tr₁ s₁) (h₂ : Replay ServesObjects s₁ tr₂ s₂) :
    ∀ k ∈ clusterKeys (isClustered b.spec) b.ns b.name, k ∈ s₂ := by
  obtain ⟨-, -, happlied⟩ := (Part.grows (fun d => grows_applyObject b.ns b.name _ d) ds s []).sound
    happly (h₁.logged [])
  have hkeys : ∀ k ∈ clusterKeys (isClustered b.spec) b.ns b.name, k ∈ s₁ := by
    rw [← desiredObjects_keys hds]
    exact happlied
  exact ((Part.shrinks (obsoleteStore b.spec b.name b.ns) s₁ []
    (fun k hk => mem_obsoleteStore.mp hk)
    (fun k hk => shrinks_deleteIfPresent (mem_obsoleteStore.mp hk)) hkeys).sound hremove
      (h₂.logged [])).1

/-- A pass in which no call fails sees the live workloads. -/
theorem read_of_clean {r : Except Exc (ℤ × Bool × String)} (hvalid : Valid q b.spec)
    (hexec : Exec (reconcileObjects q b).run tr r) (hclean : Clean tr)
    (hreplay : Replay (ServesLive live health) s tr s') :
    r = (workloadReadiness b.spec b.name b.ns).run.eval (workloads live) := by
  obtain ⟨ds, tr₁, tr₂, tr₃, tr₄, hds, rfl, happly, hremove, hread⟩ :=
    exec_clean hvalid hexec hclean
  obtain ⟨s₁, -, hreplay⟩ := Replay.append_iff.mp hreplay
  obtain ⟨s₂, h₂, hreplay⟩ := Replay.append_iff.mp hreplay
  obtain ⟨s₃, h₃, h₄⟩ := Replay.append_iff.mp hreplay
  have hpresent := present_of_replay hds happly hremove (servesObjects_of_replay h₂)
    (servesObjects_of_replay h₃)
  have hcleanReads : Clean tr₄ := fun e he => hclean e (by simp [he])
  refine Program.eq_eval_of_exec hread (read_of_replay h₄ hcleanReads ?_).2
  intro e he
  cases reads_workloadReadiness.of_exec hread e he with
  | discover kind r => exact .inl ⟨kind, r, rfl⟩
  | @get k r hk => exact .inr ⟨k, hpresent k hk, r, clusterKeys_kind k hk, rfl⟩

theorem statusError_eq_none {code : ℕ} {reason url : String} :
    statusError code reason url = none ↔ ¬(400 ≤ code ∧ code < 600) := by
  unfold statusError
  split
  · simp only [reduceCtorEq, false_iff, not_not]
    omega
  · split <;> simp only [reduceCtorEq, false_iff, true_iff, not_not] <;> omega

theorem exec_apiHealthy {r : Except Exc Unit} (h : Exec (apiHealthy b.name b.ns).run tr r) :
    ∃ a, tr = [.fetched (endpoint b.name b.ns ++ "/readyz") a] ∧
      (NotRefused a = true ∧ r = .ok () ∨
        NotRefused a = false ∧ ∃ m, r = .error (.runtimeError m)) := by
  simp only [apiHealthy, ExceptT.run_mk, Exec.call_iff, Exec.ret_iff] at h
  obtain ⟨a, tr', rfl, rfl, rfl⟩ := h
  refine ⟨a, rfl, ?_⟩
  cases a with
  | status code reason url =>
    cases hm : statusError code reason url with
    | none => exact .inl ⟨decide_eq_true (statusError_eq_none.mp hm), by simp only [hm]⟩
    | some m =>
      refine .inr ⟨decide_eq_false fun hno => ?_, _, by simp only [hm]; rfl⟩
      rw [statusError_eq_none.mpr hno] at hm
      cases hm
  | _ => exact .inr ⟨rfl, _, rfl⟩

theorem statusVerdict_setStatus {old : CubeClusterStatus} {generation ready : ℤ}
    {ns name : String} {status : ConditionStatus} {reason message : String} {patch : StatusPatch}
    (h : Exec (setStatus old generation ns name ready status reason message) tr patch) :
    statusVerdict patch = some ⟨status, reason, ready⟩ := by
  obtain ⟨transition, rfl⟩ := exec_setStatus_eq h
  rfl

/-- What a report records. -/
theorem statusVerdict_of_report {ready : ℤ} {available : Bool} {message : String}
    {patch : StatusPatch} (h : Exec (reportReadiness b ready available message) tr patch)
    (hreplay : Replay (ServesLive live health) s tr s') :
    statusVerdict patch = some (verdict (NotRefused health) available ready) := by
  unfold reportReadiness at h
  cases available with
  | false => exact statusVerdict_setStatus h
  | true =>
    obtain ⟨tr₁, r, tr₂, rfl, hhealth, hset⟩ := Exec.bind_iff.mp h
    obtain ⟨a, rfl, hanswer⟩ := exec_apiHealthy hhealth
    obtain ⟨s₁, hserves, -⟩ := Replay.cons_iff.mp (Replay.append_iff.mp hreplay).choose_spec.1
    obtain rfl : a = health := hserves.2
    rcases hanswer with ⟨hyes, rfl⟩ | ⟨hnot, m, rfl⟩
    · rw [statusVerdict_setStatus hset]
      simp [verdict, hyes]
    · rw [statusVerdict_setStatus hset]
      simp [verdict, hnot]

/-- What a pass records in which no call fails. -/
theorem records_of_clean {out : Handled} {ready : ℤ} {available : Bool} {message : String}
    (hvalid : Valid q b.spec) (hexec : Exec (reconcile q b) tr out) (hclean : Clean tr)
    (hreplay : Replay (ServesLive live health) s tr s')
    (hlive : (workloadReadiness b.spec b.name b.ns).run.eval (workloads live) =
      .ok (ready, available, message)) (v : Verdict) :
    Records out v ↔ v = verdict (NotRefused health) available ready := by
  obtain ⟨tr₁, r, tr₂, rfl, hobjects, hrest⟩ := Exec.bind_iff.mp hexec
  obtain ⟨hclean, -⟩ := List.forall_mem_append.mp hclean
  obtain ⟨s₁, h₁, h₂⟩ := Replay.append_iff.mp hreplay
  obtain rfl := (read_of_clean hvalid hobjects hclean h₁).trans hlive
  have hrest' : Exec (reportReadiness b ready available message >>= fun patch =>
    pure ({ patch := some patch } : Handled)) tr₂ out := hrest
  obtain ⟨tr₃, patch, tr₄, rfl, hreport, hret⟩ := Exec.bind_iff.mp hrest'
  obtain ⟨rfl, rfl⟩ := Exec.ret_iff.mp hret
  obtain ⟨s₂, h₃, -⟩ := Replay.append_iff.mp h₂
  have hverdict := statusVerdict_of_report hreport h₃
  constructor
  · rintro ⟨stored, hstored, hv⟩
    obtain rfl := Option.some.inj hstored
    rw [hverdict] at hv
    exact (Option.some.inj hv).symm
  · rintro rfl
    exact ⟨patch, rfl, hverdict⟩

end Kopf

/-! ## One verdict -/

/-- The final codes on which the two readings of the answer differ. -/
def Misjudged (health : HttpAnswer) : Prop :=
  ∃ code reason url, health = .status code reason url ∧ ¬(200 ≤ code ∧ code < 300) ∧
    ¬(400 ≤ code ∧ code < 600)

theorem misjudged_status {code : ℕ} {reason url : String} :
    Misjudged (.status code reason url) ↔
      ¬(200 ≤ code ∧ code < 300) ∧ ¬(400 ≤ code ∧ code < 600) := by
  constructor
  · rintro ⟨_, _, _, ⟨⟩, hcode⟩
    exact hcode
  · intro hcode
    exact ⟨code, reason, url, rfl, hcode⟩

theorem misjudged_iff : Misjudged health ↔ Successful health ≠ NotRefused health := by
  cases health with
  | status code reason url =>
    rw [misjudged_status, Successful, NotRefused, ne_eq, decide_eq_decide]
    omega
  | _ => simp [Misjudged, Successful, NotRefused]

/-- Both passes record one verdict, and it is positive only when the endpoint answered with
    success. -/
structure SameVerdict (health : HttpAnswer) (tr : List Exchange) (handled : Kopf.Handled) :
    Prop where
  same : ∀ v, Go.Records tr v ↔ Kopf.Records handled v
  recorded : ∃ v, Go.Records tr v
  successful : ∀ v, Go.Records tr v ∨ Kopf.Records handled v → v.status = .isTrue →
    Successful health

/-- The verdicts differ exactly when the answer of the endpoint is asked for and misjudged. -/
theorem verdict_eq_iff (ready : ℤ) {healthy healthy' available : Bool} :
    verdict healthy available ready = verdict healthy' available ready ↔
      ¬(available = true ∧ healthy ≠ healthy') := by
  cases available <;> cases healthy <;> cases healthy' <;> simp [verdict]

theorem healthy_of_verdict {healthy available : Bool} {ready : ℤ}
    (h : (verdict healthy available ready).status = .isTrue) : healthy = true := by
  cases available <;> cases healthy <;> simp [verdict] at h ⊢

/-- For a spec that both validators accept, two passes in which no call fails record one
    verdict, unless every workload is available and the endpoint answers with a code that
    neither stands for success nor is refused. -/
theorem verdicts_agree_iff {b : Kopf.Body} {trGo trKopf : List Exchange} {out : Go.Outcome}
    {handled : Kopf.Handled} {s₁ s₁' : Set Key} (hc : decodeSpec q b.spec = some c.spec)
    (hns : b.ns = c.ns) (hname : b.name = c.name)
    (hgoAccepts : ∃ tr, Exec (Go.validateReferences q c).run tr (.ok ()))
    (hkopfAccepts : ∃ tr, Exec (Kopf.validateReferences q b.spec b.ns).run tr (.ok ()))
    (hgo : Exec (Go.reconcile q c.ns c.name)
      (Exchange.readCluster c.ns c.name (.ok c) :: trGo) out)
    (hgoClean : Clean trGo) (hgoReplay : Replay (ServesLive live health) s trGo s')
    (hkopf : Exec (Kopf.reconcile q b) trKopf handled)
    (hkopfClean : Clean trKopf) (hkopfReplay : Replay (ServesLive live health) s₁ trKopf s₁') :
    SameVerdict health trGo handled ↔ ¬(Go.Available c live ∧ Misjudged health) := by
  obtain ⟨_, haccepted⟩ := hgoAccepts
  obtain ⟨hgoValid, -⟩ := Go.exec_validateReferences_ok haccepted
  obtain ⟨_, haccepted⟩ := hkopfAccepts
  obtain ⟨hkopfValid, -⟩ := Kopf.exec_validateReferences_ok haccepted
  -- Both read the same workloads.
  obtain ⟨store, -, hstore, -, -⟩ := hkopfValid.storage.cases
  obtain ⟨⟨ready, available, message⟩, hgoLive, hkopfLive⟩ :=
    readiness_agrees (decoded_of_decodeSpec hc) ⟨store, hstore⟩ live
  obtain ⟨-, havailable⟩ := Go.eval_workloadsAvailable hgoLive
  rw [← hns, ← hname] at hkopfLive
  have hgoRecords := Go.records_of_clean hgoValid hgo hgoClean hgoReplay hgoLive
  have hkopfRecords := Kopf.records_of_clean hkopfValid hkopf hkopfClean hkopfReplay hkopfLive
  rw [← havailable, misjudged_iff, ← verdict_eq_iff ready]
  constructor
  · intro hverdict
    exact (hkopfRecords _).mp ((hverdict.same _).mp ((hgoRecords _).mpr rfl))
  · intro hsame
    refine ⟨fun v => ?_, ⟨_, (hgoRecords _).mpr rfl⟩, fun v hv htrue => ?_⟩
    · rw [hgoRecords, hkopfRecords, hsame]
    · have hv' : v = verdict (Successful health) available ready := by
        rcases hv with hv | hv
        · exact (hgoRecords v).mp hv
        · rw [hsame]
          exact (hkopfRecords v).mp hv
      rw [hv'] at htrue
      exact healthy_of_verdict htrue

/-! ### An answer in between -/

/-- What the Kopf controller is called with for `Go.smallCluster`. -/
def smallBody : Kopf.Body where
  name := "cube"
  ns := "default"
  uid := "uid"
  generation := 1
  spec := smallSpec
  status := {}

/-- A server that grants everything, with two replicas ready of each workload. -/
def answerHealth (health : HttpAnswer) (s : List Key) : (call : Call) → Answer call × List Key
  | .httpGet _ => (health, s)
  | call => grantObjects s call

theorem serves_answerHealth (health : HttpAnswer) (s : List Key) (call : Call) :
    ServesLive (fun _ => { readyReplicas := some 2 }) health {k | k ∈ s}
      ⟨call, (answerHealth health s call).1⟩ {k | k ∈ (answerHealth health s call).2} := by
  cases call with
  | httpGet url => exact ⟨rfl, rfl⟩
  | get k =>
    refine ⟨serves_grantObjects s (.get k), fun _ l hl => ?_⟩
    simp only [answerHealth, grantObjects] at hl
    split at hl
    · exact (Except.ok.inj hl).symm
    · cases hl
  | act a => exact ⟨serves_grantObjects s (.act a), trivial⟩
  | getCluster ns name => exact ⟨serves_grantObjects s (.getCluster ns name), trivial⟩
  | now => exact ⟨serves_grantObjects s .now, trivial⟩

/-- Any program against this server, from no objects on. -/
theorem run_answerHealth {α : Type} (health : HttpAnswer) (p : Op α) :
    Exec p (p.runOn (answerHealth health) []).2.1 (p.runOn (answerHealth health) []).1 ∧
      Replay (ServesLive (fun _ => { readyReplicas := some 2 }) health) ∅
        (p.runOn (answerHealth health) []).2.1 {k | k ∈ (p.runOn (answerHealth health) []).2.2} := by
  obtain ⟨hexec, hreplay⟩ := Program.runOn_run
    (H := fun s e s' => ServesLive (fun _ => { readyReplicas := some 2 }) health {k | k ∈ s} e
      {k | k ∈ s'}) (serves_answerHealth health) p []
  refine ⟨hexec, ?_⟩
  have hserved := hreplay.map (K := ServesLive (fun _ => { readyReplicas := some 2 }) health)
    (fun s => {k | k ∈ s}) fun _ _ _ h => h
  have hempty : {k | k ∈ ([] : List Key)} = (∅ : Set Key) := by simp
  rwa [hempty] at hserved

/-- A response that neither succeeds nor is an error. -/
def notModified : HttpAnswer :=
  .status 304 "Not Modified" "http://cube-api.default.svc:4000/readyz"

/-- The passes of the two controllers over the small cluster, the endpoint answering with
    304. -/
def goNotModified : Go.Outcome × List Exchange × List Key :=
  (Go.reconcileCluster digitQuantities Go.smallCluster).runOn (answerHealth notModified) []

def kopfNotModified : Kopf.Handled × List Exchange × List Key :=
  (Kopf.reconcile digitQuantities smallBody).runOn (answerHealth notModified) []

theorem goNotModified_clean : Clean goNotModified.2.1 := by decide +kernel

theorem kopfNotModified_clean : Clean kopfNotModified.2.1 := by decide +kernel

theorem smallCluster_accepted :
    (∃ tr, Exec (Go.validateReferences digitQuantities Go.smallCluster).run tr (.ok ())) ∧
      ∃ tr, Exec (Kopf.validateReferences digitQuantities smallBody.spec "default").run tr (.ok ()) :=
  ⟨(Program.exec_eval (lookups fun _ => true) _).imp fun _ h => h.1,
    (Program.exec_eval (lookups fun _ => true) _).imp fun _ h => h.1⟩

theorem verdicts_agree_iff_notModified :
    SameVerdict notModified goNotModified.2.1 kopfNotModified.1 ↔
      ¬(Go.Available Go.smallCluster (fun _ => { readyReplicas := some 2 }) ∧
        Misjudged notModified) := by
  obtain ⟨hgo, hgoReplay⟩ := run_answerHealth notModified
    (Go.reconcileCluster digitQuantities Go.smallCluster)
  obtain ⟨hkopf, hkopfReplay⟩ := run_answerHealth notModified
    (Kopf.reconcile digitQuantities smallBody)
  exact verdicts_agree_iff (c := Go.smallCluster) (b := smallBody)
    (q := digitQuantities) decodeSpec_smallSpec rfl rfl smallCluster_accepted.1 smallCluster_accepted.2
    (Go.reconcile_of_found _ _ hgo) goNotModified_clean hgoReplay hkopf kopfNotModified_clean
    hkopfReplay

/-- The Kopf controller takes the code 304 for a healthy API. -/
theorem verdicts_differ_notModified : ¬∀ (q : Quantities) (c : CubeCluster) (b : Kopf.Body)
    (live : Key → Live) (health : HttpAnswer) (s sGo sKopf : Set Key)
    (trGo trKopf : List Exchange) (out : Go.Outcome) (handled : Kopf.Handled),
    decodeSpec q b.spec = some c.spec → b.ns = c.ns → b.name = c.name →
    (∃ tr, Exec (Go.validateReferences q c).run tr (.ok ())) →
    (∃ tr, Exec (Kopf.validateReferences q b.spec b.ns).run tr (.ok ())) →
    Exec (Go.reconcile q c.ns c.name) (Exchange.readCluster c.ns c.name (.ok c) :: trGo) out →
    Clean trGo → Replay (ServesLive live health) s trGo sGo →
    Exec (Kopf.reconcile q b) trKopf handled →
    Clean trKopf → Replay (ServesLive live health) s trKopf sKopf →
    SameVerdict health trGo handled := by
  intro h
  obtain ⟨hgo, hgoReplay⟩ := run_answerHealth notModified
    (Go.reconcileCluster digitQuantities Go.smallCluster)
  obtain ⟨hkopf, hkopfReplay⟩ := run_answerHealth notModified
    (Kopf.reconcile digitQuantities smallBody)
  have hsame := h digitQuantities Go.smallCluster smallBody _ _ _ _ _ _ _ _ _
    decodeSpec_smallSpec rfl rfl
    smallCluster_accepted.1 smallCluster_accepted.2 (Go.reconcile_of_found _ _ hgo)
    goNotModified_clean hgoReplay hkopf kopfNotModified_clean hkopfReplay
  have hready : Kopf.Records kopfNotModified.1 ⟨.isTrue, "Available", 2⟩ := ⟨_, rfl, rfl⟩
  exact absurd (hsame.successful _ (.inr hready) rfl) (by decide)

end CubeOperator
