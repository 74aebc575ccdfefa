import CubeOperator.Status.Cached
import CubeOperator.Watch.Rest

/-! # A pass where everything is as it should be

    Every object is applied again, every obsolete one is deleted again and the status is
    patched again.  None of it changes anything, so that no watch has anything to tell and
    the manager stays at rest. -/

namespace CubeOperator

open Interaction Kube V1alpha1

variable {q : Quantities} {w w' : Watched} {k : Key} {c : CubeCluster}

/-! ## Calls that change nothing -/

/-- Nothing that is asked for at `w` in the exchange changes anything. -/
def Still (w : Watched) (e : Exchange) : Prop := ∀ w', w.Serves e w' → w' = w

theorem replay_still {tr : List Exchange} (htr : ∀ e ∈ tr, Still w e)
    (h : Replay Watched.Serves w tr w') : w' = w ∧ ∀ e ∈ tr, w.Serves e w := by
  induction tr generalizing w' with
  | nil => exact ⟨Replay.nil_iff.mp h, by simp⟩
  | cons e tr ih =>
    obtain ⟨w₁, hserves, hrest⟩ := Replay.cons_iff.mp h
    obtain ⟨hstill, htr⟩ := List.forall_mem_cons.mp htr
    obtain rfl := hstill w₁ hserves
    obtain ⟨rfl, hserved⟩ := ih htr hrest
    exact ⟨rfl, List.forall_mem_cons.mpr ⟨hserves, hserved⟩⟩

theorem Watched.setObject_self (w : Watched) (k : Key) : w.setObject k (w.objects k) = w := by
  simp [setObject]

theorem Watched.WritesObject.eq_self {x : Option Held} (h : w.WritesObject k x w')
    (hx : x = (w.objects k).stored) : w' = w := by
  subst hx
  obtain ⟨f, hbecomes, rfl⟩ := h
  rw [hbecomes.eq_self, Watched.setObject_self]

theorem still_got (k : Key) (r : Except ApiError Live) : Still w (.got k r) :=
  fun _ h => h.2.1

theorem still_apply {d : Manifest} (h : Held.Applied d (w.objects d.key).stored) :
    Still w (.did (.apply d) (.ok ())) := by
  rintro w' ⟨-, hperforms | ⟨hne, -⟩, -⟩
  · exact Watched.WritesObject.eq_self hperforms h.symm
  · exact absurd rfl hne

theorem still_remove {r : Except ApiError Unit} (h : Held.Gone (w.objects k).stored)
    (hr : Go.Gone r) : Still w (.did (.delete k) r) := by
  rintro w' ⟨-, hperforms | ⟨hne, -⟩, hmissing⟩
  · obtain ⟨o, x, ho, hdeletes, hwrites⟩ := hperforms
    have hterminating : o.terminating = true := h o ho
    refine hwrites.eq_self ?_
    rcases hdeletes with hx | ⟨hfalse, -⟩
    · rw [hx, ho, ← hterminating]
    · rw [hterminating] at hfalse
      cases hfalse
  · cases r with
    | ok u => exact absurd rfl hne
    | error err => exact (hmissing k err rfl rfl (hr err rfl)).2

/-- A report that repeats the status changes nothing. -/
theorem newStatus_self {c : CubeCluster} {t t' : ℤ} {status : ConditionStatus}
    {reason message : String} {ready : ℤ}
    (h : c.status = Go.newStatus c t status reason message ready) :
    Go.newStatus c t' status reason message ready = c.status := by
  have hconditions : c.status.conditions = Go.setStatusCondition t
      { type := "Ready", status := status, reason := reason, message := message
        observedGeneration := c.generation, lastTransitionTime := 0 } c.status.conditions :=
    congrArg CubeClusterStatus.conditions h
  obtain ⟨t₀, hfind⟩ := Go.find_setStatusCondition t
    { type := "Ready", status := status, reason := reason, message := message
      observedGeneration := c.generation, lastTransitionTime := 0 } c.status.conditions
  rw [← hconditions] at hfind
  have hkept := (setStatusCondition_eq_self (t := t')).mpr ⟨_, hfind, rfl⟩
  rw [Go.newStatus, hkept, hconditions]
  exact h.symm

/-- The calls of `setStatus` when none fails. -/
def statusCalls (c latest : CubeCluster) (t : ℤ) (status : ConditionStatus)
    (reason message : String) (ready : ℤ) : List Exchange :=
  [.readCluster c.ns c.name (.ok latest), .clock t,
    .did (.patchStatus latest.ns latest.name latest.status
      (Go.newStatus latest t status reason message ready)) (.ok ())]

theorem exec_setStatus_clean {status : ConditionStatus} {reason message : String} {ready : ℤ}
    {tr : List Exchange} {r : Except Go.GoError Unit}
    (h : Exec (Go.setStatus c status reason message ready).run tr r) (hclean : Clean tr) :
    ∃ latest t, r = .ok () ∧ tr = statusCalls c latest t status reason message ready := by
  have hround : ∀ {tr : List Exchange} {r : Except Go.GoError Unit},
      Exec (Go.writeStatus c status reason message ready).run tr r → Clean tr →
        ∃ latest t, r = .ok () ∧ tr = statusCalls c latest t status reason message ready := by
    intro tr r h hclean
    rcases Go.exec_writeStatus.mp h with ⟨err, rfl, rfl⟩ | ⟨latest, t, s, rfl, rfl⟩
    · exact absurd (hclean (Exchange.readCluster c.ns c.name (.error err)) (by simp) (by simp)) id
    · cases s with
      | ok u => exact ⟨latest, t, rfl, rfl⟩
      | error err =>
        refine absurd (hclean (Exchange.did (.patchStatus latest.ns latest.name latest.status
          (Go.newStatus latest t status reason message ready)) (.error err)) (by simp) (by simp)) id
  obtain ⟨tr₁, err, tr₂, rfl, hfirst, -⟩ | ⟨tr₁, u, tr₂, rfl, hfirst, hret⟩ :=
    Exec.run_bind_iff.mp h
  · obtain ⟨latest, t, hr, -⟩ := hround hfirst hclean.of_append
    cases hr
  · obtain ⟨rfl, rfl⟩ := Exec.ret_iff.mp hret
    rw [List.append_nil] at hclean ⊢
    obtain ⟨latest, t, -, htr⟩ := hround hfirst hclean
    exact ⟨latest, t, rfl, htr⟩

/-- The report of a pass that finds the workloads available and the API healthy. -/
theorem exec_reportReadiness_clean {ready : ℤ} {message : String} {tr : List Exchange}
    {out : Go.Outcome} (h : Exec (Go.reportReadiness c ready true message) tr out)
    (hclean : Clean tr) (hhealthy : ∀ url a, Exchange.fetched url a ∈ tr → Go.Healthy a) :
    ∃ url a latest t, out = .returned {} none ∧
      tr = .fetched url a :: statusCalls c latest t .isTrue "Available" Go.readyMessage ready := by
  unfold Go.reportReadiness at h
  obtain ⟨tr₁, ⟨condition, reason, message'⟩, tr₂, rfl, hreadiness, h⟩ := Exec.bind_iff.mp h
  have hready : ∃ url a, tr₁ = [Exchange.fetched url a] ∧ condition = .isTrue ∧ reason = "Available" ∧
      message' = Go.readyMessage := by
    unfold Go.readiness at hreadiness
    obtain ⟨tr₃, err, tr₄, rfl, hhealth, hret⟩ | ⟨tr₃, u, tr₄, rfl, hhealth, hret⟩ :=
      Exec.run_bind_iff.mp hreadiness
    · obtain ⟨a, rfl, ha⟩ := Go.exec_apiHealthy hhealth
      cases ha.mpr (hhealthy (Go.endpoint c ++ "/readyz") a (by simp))
    · obtain ⟨a, rfl, -⟩ := Go.exec_apiHealthy hhealth
      obtain ⟨rfl, hcondition⟩ := Exec.ret_iff.mp hret
      cases hcondition
      exact ⟨_, a, rfl, rfl, rfl, rfl⟩
  obtain ⟨url, a, rfl, rfl, rfl, rfl⟩ := hready
  have hrest : Clean tr₂ := fun e he => hclean e (by simp [he])
  obtain ⟨tr₃, err, tr₄, rfl, hstatus, hret⟩ | ⟨tr₃, u, tr₄, rfl, hstatus, hret⟩ :=
    Exec.run_bind_iff.mp h
  · obtain ⟨latest, t, hr, -⟩ := exec_setStatus_clean hstatus hrest.of_append
    cases hr
  · obtain ⟨rfl, rfl⟩ := Exec.ret_iff.mp hret
    rw [List.append_nil] at hrest ⊢
    obtain ⟨latest, t, -, rfl⟩ := exec_setStatus_clean hstatus hrest
    exact ⟨url, a, latest, t, rfl, rfl⟩

/-- The report at a world that is as it should be. -/
theorem report_of_desired {t₀ : ℤ} {ready : ℤ} {message : String} {tr : List Exchange}
    {out : Go.Outcome} (hcached : w.cluster.cached = some c) (hc : w.cluster.stored = some c)
    (hstatus : c.status = Go.newStatus c t₀ .isTrue "Available" Go.readyMessage ready)
    (h : Exec (Go.reportReadiness c ready true message) tr out)
    (hreplay : Replay Watched.Serves w tr w') (hclean : Clean tr)
    (hhealthy : ∀ url a, Exchange.fetched url a ∈ tr → Go.Healthy a) :
    out = .returned {} none ∧ w' = w := by
  obtain ⟨url, a, latest, t, rfl, rfl⟩ := exec_reportReadiness_clean h hclean hhealthy
  simp only [statusCalls, Replay.cons_iff, Replay.nil_iff] at hreplay
  obtain ⟨_, ⟨-, rfl⟩, _, ⟨-, rfl, hread, -⟩, _, ⟨-, rfl⟩, _, ⟨-, hpatch, -⟩, rfl⟩ := hreplay
  obtain rfl : c = latest := Option.some.inj (hcached.symm.trans (hread latest rfl))
  refine ⟨rfl, ?_⟩
  rcases hpatch with ⟨c', hc', f, hbecomes, rfl⟩ | ⟨hne, -⟩
  · obtain rfl : c = c' := Option.some.inj (hc.symm.trans hc')
    rw [newStatus_self hstatus, patchedStatus_self, ← hc] at hbecomes
    rw [hbecomes.eq_self]
  · exact absurd rfl hne

/-- Nothing is left to apply or to remove. -/
theorem replay_of_desired (hdesired : Desired q w c)
    (hgone : ∀ k ∈ Go.obsoleteStore c, Held.Gone (w.objects k).stored)
    {os : List K8s.Object} (hos : Go.objects q c = some os) {tr₁ tr₂ tr₃ tr : List Exchange}
    (hvalidate : Exec (Go.validateReferences q c).run tr₁ (.ok ()))
    (happly : List.Forall₂ (Go.IsApply c) os tr₂)
    (hremove : List.Forall₂ Go.IsRemoval (Go.obsoleteStore c) tr₃)
    (hreplay : Replay Watched.Serves w (tr₁ ++ (tr₂ ++ (tr₃ ++ tr))) w') :
    Replay Watched.Serves w tr w' := by
  have hstill : ∀ e ∈ tr₁ ++ (tr₂ ++ tr₃), Still w e := by
    intro e he
    rcases List.mem_append.mp he with he | he
    · obtain ⟨k, -, r, rfl⟩ := Go.only_validateReferences.of_exec hvalidate e he
      exact still_got k r
    rcases List.mem_append.mp he with he | he
    · obtain ⟨os', hos', happlied⟩ := hdesired.applied
      obtain rfl : os = os' := Option.some.inj (hos.symm.trans hos')
      obtain ⟨o, ho, rfl⟩ := exists_left_of_mem happly he
      exact still_apply (happlied o ho)
    · obtain ⟨k, hk, r, rfl, hr⟩ := exists_left_of_mem hremove he
      exact still_remove (hgone k hk) hr
  have hsplit : tr₁ ++ (tr₂ ++ (tr₃ ++ tr)) = (tr₁ ++ (tr₂ ++ tr₃)) ++ tr := by simp
  rw [hsplit] at hreplay
  obtain ⟨w₁, hbefore, hafter⟩ := Replay.append_iff.mp hreplay
  obtain ⟨rfl, -⟩ := replay_still hstill hbefore
  exact hafter

/-- What the reads of the workloads show. -/
theorem readings_of_desired (hdesired : Desired q w c) (hsettled : w.Settled)
    {rs : List Go.Reading} (hws : rs.map Go.Reading.workload <+: Go.expected c)
    (hserved : ∀ e ∈ rs.map Go.Reading.exchange, w.Serves e w) : ∀ r ∈ rs, ∃ o,
      (w.objects r.key).stored = some o ∧ o.live = r.live ∧ r.isReady = true := by
  intro r hr
  have hexpected : r.workload ∈ Go.expected c := hws.subset (List.mem_map_of_mem hr)
  obtain ⟨o, ho, hn⟩ := hdesired.available _ hexpected
  obtain ⟨-, -, hread⟩ := hserved _ (List.mem_map_of_mem hr)
  obtain ⟨o', ho', hlive⟩ := (hread (Go.expected_kind c _ hexpected)).1 _ rfl
  obtain rfl : o = o' := by
    rw [(hsettled.objects _).stored] at ho
    exact Option.some.inj (ho.symm.trans ho')
  refine ⟨o, ho, hlive, ?_⟩
  rw [hlive] at hn
  exact decide_eq_true hn

/-- Where everything is as it should be, another pass in which no call fails changes nothing
    and is not to be repeated. -/
theorem pass_of_desired {tr : List Exchange} {out : Go.Outcome} (hsettled : w.Settled)
    (hc : w.cluster.stored = some c) (hdesired : Desired q w c)
    (hgone : ∀ k ∈ Go.obsoleteStore c, Held.Gone (w.objects k).stored)
    (hexec : Exec (Go.reconcile q c.ns c.name) tr out) (hreplay : Replay Watched.Serves w tr w')
    (hclean : Clean tr) (hhealthy : ∀ url a, Exchange.fetched url a ∈ tr → Go.Healthy a) :
    out = .returned {} none ∧ w' = w := by
  have hcached : w.cluster.cached = some c := by rw [← hsettled.cluster.stored, hc]
  rcases Go.reconcile_cases hexec with ⟨err, rfl, rfl⟩ | ⟨c', tr', rfl, hpass⟩
  · exact absurd (hclean (Exchange.readCluster c.ns c.name (.error err)) (by simp) (by simp)) id
  obtain ⟨_, ⟨-, rfl, hread, -⟩, hrest⟩ := Replay.cons_iff.mp hreplay
  obtain rfl : c = c' := Option.some.inj (hcached.symm.trans (hread c' rfl))
  replace hclean : Clean tr' := fun e he => hclean e (by simp [he])
  replace hhealthy : ∀ url a, Exchange.fetched url a ∈ tr' → Go.Healthy a :=
    fun url a he => hhealthy url a (by simp [he])
  cases hpass with
  | rejected hrejected =>
    exact absurd hclean.of_append (Go.not_clean_of_rejected hdesired.valid hrejected)
  | applyFailed _ _ happly =>
    obtain ⟨os₁, o, os₂, tr₁, err, rfl, -, rfl, -⟩ := Go.exec_applies_error happly
    exact absurd (hclean (Exchange.did (.apply (Go.applied c o)) (.error err)) (by simp) (by simp))
      id
  | removeFailed _ _ _ hremove =>
    obtain ⟨ks₁, k, ks₂, tr₁, err, -, -, rfl, hfound, -⟩ := Go.exec_removes_error hremove
    exact absurd (hclean (Exchange.did (.delete k) (.error err)) (by simp) (by simp)) hfound
  | readFailed hvalidate hos happly hremove hfailed =>
    have hafter := replay_of_desired hdesired hgone hos hvalidate happly hremove hrest
    obtain ⟨rs, r, rest, err, hws, rfl, -⟩ := Go.readsAll_workloadsAvailable.2 _ _ hfailed
    have hexpected : r ∈ Go.expected c := by simp [hws]
    -- the workload that could not be read is there
    obtain ⟨-, hserved⟩ := replay_still (fun e he => by
      rcases List.mem_append.mp he with he | he
      · obtain ⟨r, -, rfl⟩ := List.mem_map.mp he
        exact still_got r.key _
      · obtain rfl := List.mem_singleton.mp he
        exact still_got _ _) hafter
    obtain ⟨-, hmissing⟩ :=
      hclean (Exchange.got r.1 (.error err)) (by simp) (by simp)
    obtain ⟨-, -, hread⟩ := hserved (Exchange.got r.1 (.error err)) (by simp)
    have hnone := (hread (Go.expected_kind c r hexpected)).2 err rfl hmissing
    obtain ⟨o, ho, -⟩ := hdesired.available r hexpected
    rw [(hsettled.objects _).stored, hnone] at ho
    cases ho
  | reported hvalidate hos happly hremove hworkloads hreport =>
    have hrest₄ := replay_of_desired hdesired hgone hos hvalidate happly hremove hrest
    obtain ⟨rs, hws, rfl, hready, l, rs', rfl, rfl⟩ :=
      Go.readsAll_workloadsAvailable.1 _ _ hworkloads
    obtain ⟨w₂, hreads, hreported⟩ := Replay.append_iff.mp hrest₄
    obtain ⟨rfl, hserved⟩ := replay_still (fun e he => by
      obtain ⟨r, -, rfl⟩ := List.mem_map.mp he
      exact still_got r.key _) hreads
    have hfound := readings_of_desired hdesired hsettled ⟨[], by simp [hws]⟩ hserved
    have hall : (_ :: rs' : List Go.Reading).all Go.Reading.isReady = true :=
      List.all_eq_true.mpr fun r hr => (hfound r hr).choose_spec.2.2
    obtain ⟨t₀, o, ho, hstatus⟩ := hdesired.status
    obtain ⟨o', ho', hlive, -⟩ :=
      hfound ⟨Go.workloadKey c .deployment "api", Go.replicas c.spec.api.replicas 2, l⟩ (by simp)
    obtain rfl : o = o' := Option.some.inj (ho.symm.trans ho')
    rw [hlive] at hstatus
    simp only at hready
    rw [hall] at hready
    subst hready
    exact report_of_desired hcached hc hstatus hreport hreported
      (fun e he => hclean e (by simp [he])) fun url a he => hhealthy url a (by simp [he])

theorem pass_of_desired_available :
    Desired digitQuantities availableWorld availableCluster ∧ Clean availablePass ∧
      ∃ out w', Exec (Go.reconcile digitQuantities "default" "cube") availablePass out ∧
        Replay Watched.Serves availableWorld availablePass w' ∧ out = .returned {} none ∧
          w' = availableWorld := by
  -- the pass is told nothing else
  have hdesired : Desired digitQuantities availableWorld availableCluster :=
    desired_of_told ((Go.reconcileCluster_cases exec_availableRun).through rfl)
      (fun e he => (serves_availablePass e (List.mem_cons_of_mem _ he)).told) settled_available rfl
  have hgone : ∀ k ∈ Go.obsoleteStore availableCluster,
      Held.Gone (availableWorld.objects k).stored := by
    intro k hk o ho
    have hnot : k ∉ clusterKeys false "default" "cube" :=
      notMem_clusterKeys (Go.mem_obsoleteStore.mp hk)
    rw [(settled_available.objects k).stored, available_of_notMem hnot] at ho
    cases ho
  have hclean : Clean availablePass := by decide
  have hhealthy : ∀ url a, Exchange.fetched url a ∈ availablePass → Go.Healthy a := by
    intro url a he
    obtain rfl : a = .status 200 "OK" url := answers_available _ he
    exact ⟨200, _, _, rfl, by decide, by decide⟩
  have hreplay : Replay Watched.Serves availableWorld availablePass availableWorld :=
    .of_unchanged serves_availablePass
  exact ⟨hdesired, hclean, _, _, exec_available, hreplay, pass_of_desired settled_available rfl
    hdesired hgone exec_available hreplay hclean hhealthy⟩

end CubeOperator
