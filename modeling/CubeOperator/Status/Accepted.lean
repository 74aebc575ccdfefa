import CubeOperator.Kopf.Pass
import CubeOperator.Go.Readiness
import CubeOperator.Status.Workloads

/-! # What a pass has done before it reports

    A pass of either controller that reports `Ready=True` has written every object and
    read of every workload, after writing it, the ready replicas it needs. -/

namespace CubeOperator

open Interaction Kube V1alpha1

/-! ## The Go controller -/

namespace Go

variable {q : Quantities} {ns name : String} {c : CubeCluster}

theorem not_about_of_phase {k : Key} {e : Exchange} (h : phase e = .health ∨ phase e = .status) :
    ¬About k e := by
  rintro (htarget | ⟨r, rfl⟩)
  · obtain ⟨call, r⟩ := e
    cases call with
    | act a => cases a <;> simp_all [Exchange.target, Target, phase]
    | _ => cases htarget
  · unfold phase at h
    dsimp only at h
    split at h <;> simp at h

/-- Each workload is read once. -/
theorem lastRead_readings {rs : List Reading} {r : Reading} {tr : List Exchange}
    (hnodup : (rs.map Reading.key).Nodup) (hr : r ∈ rs) :
    lastRead r.key (tr ++ rs.map Reading.exchange) = some r.live := by
  obtain ⟨rs₁, rs₂, rfl⟩ := List.append_of_mem hr
  rw [List.map_append, List.map_cons, List.nodup_append, List.nodup_cons] at hnodup
  obtain ⟨-, ⟨hnotMem, -⟩, -⟩ := hnodup
  have hlater : ∀ e ∈ rs₂.map Reading.exchange, ¬About r.key e := by
    intro e he
    obtain ⟨r', hr', rfl⟩ := List.mem_map.mp he
    rintro (htarget | ⟨answer, hread⟩)
    · cases htarget
    · have hkey : r'.key = r.key := by
        have hcall := congrArg Sigma.fst hread
        simpa [Reading.exchange] using hcall
      exact hnotMem (hkey ▸ List.mem_map_of_mem hr')
  rw [List.map_append, List.map_cons, List.append_cons, ← List.append_assoc, lastRead_append hlater,
    ← List.append_assoc, lastRead_concat]
  simp [Reading.exchange, knows, Except.toOption]

theorem exists_of_append_eq {α : Type} {xs ys zs rest : List α} {x : α}
    (h : xs ++ ys = zs ++ x :: rest) (hx : x ∉ xs) : ∃ ys', zs = xs ++ ys' ∧ ys = ys' ++ x :: rest := by
  rcases List.append_eq_append_iff.mp h with ⟨ys', hzs, hys⟩ | ⟨zs', hxs, hrest⟩
  · exact ⟨ys', hzs, hys⟩
  · cases zs' with
    | nil => exact ⟨[], by simpa using hxs.symm, by simpa using hrest.symm⟩
    | cons y zs' =>
      obtain ⟨rfl, -⟩ := List.cons.inj hrest
      exact absurd (hxs ▸ by simp) hx

/-- Before it stores `Ready=True`, a pass has applied every object and read of every
    workload the ready replicas it needs. -/
theorem accepted_of_storesReady {tr log rest : List Exchange} {e : Exchange} {out : Outcome}
    {st : CubeClusterStatus} (h : Pass q c tr out) (htr : tr = log ++ e :: rest)
    (hst : Stores st e) (hready : st.isReady = true) :
    ∃ os, objects q c = some os ∧
      (∀ o ∈ os, Exchange.did (.apply (applied c o)) (.ok ()) ∈ log) ∧
      ∀ w ∈ expected c, ∃ l, lastRead w.1 log = some l ∧ w.2 ≤ readyReplicas l := by
  have hphase : phase e = .status := phase_stores hst
  have hstored : StoredReady tr st.readyAPIs := ⟨st, hready, rfl, e, by simp [htr], hst⟩
  cases h with
  | rejected hvalidate hstatus =>
    exact absurd hstored ((not_ready_of_rejected hvalidate hstatus).1 _)
  | applyFailed hvalidate hos happly hstatus =>
    exact absurd hstored ((not_ready_of_applyFailed hvalidate hos happly hstatus).1 _)
  | removeFailed hvalidate hos happly hremove =>
    exact absurd hstored ((not_ready_of_removeFailed hvalidate happly hremove).1 _)
  | readFailed hvalidate hos happly hremove hread =>
    exact absurd hstored ((not_ready_of_readFailed hvalidate happly hremove hread).1 _)
  | @reported tr₀ tr₁ tr₂ tr₃ tr₄ os ready available message _ hvalidate hos happly hremove hread
      hreport =>
    obtain ⟨rs, hws, rfl, havailable, -⟩ := readsAll_workloadsAvailable.1 tr₃ _ hread
    obtain ⟨tr₅, tr₆, condition, reason, message', r, rfl, hfetched, hstatus, -, hcondition⟩ :=
      exec_reportReadiness hreport
    have hhealth := inPhase_health hfetched
    have hread : InPhase .read (rs.map Reading.exchange) := inPhase_read (c := c) ⟨[], by simp [hws]⟩
    -- the status is stored in the last part of the pass
    have hbefore : ∀ e' ∈ tr₀ ++ (tr₁ ++ (tr₂ ++ (rs.map Reading.exchange ++ tr₅))),
        phase e' ≠ .status := by
      simp only [List.forall_mem_append]
      exact ⟨(inPhase_validate hvalidate).ne (by decide), (inPhase_apply happly).ne (by decide),
        (inPhase_remove hremove).ne (by decide), hread.ne (by decide), hhealth.ne (by decide)⟩
    have hsplit : tr₀ ++ (tr₁ ++ (tr₂ ++ (rs.map Reading.exchange ++ tr₅))) ++ tr₆ =
        log ++ e :: rest := by simpa using htr
    obtain ⟨tr₇, rfl, hlast⟩ := exists_of_append_eq hsplit fun he => hbefore e he hphase
    refine ⟨os, hos, fun o ho => ?_, fun w hw => ?_⟩
    · obtain ⟨e', he', rfl⟩ := exists_right_of_mem happly ho
      simp [he']
    · have hall : rs.all Reading.isReady = true := by
        obtain ⟨latest, t, rfl⟩ := stores_newStatus hstatus (by simp [hlast]) hst
        rcases hcondition with ⟨-, hall, -⟩ | ⟨rfl, -⟩
        · exact havailable.symm.trans hall
        · simp at hready
      have hnodup : (rs.map Reading.key).Nodup := by
        have hkeys := expected_nodup c
        rwa [← hws, List.map_map] at hkeys
      rw [← hws] at hw
      obtain ⟨r', hr', rfl⟩ := List.mem_map.mp hw
      have hneeded : r'.needed ≤ readyReplicas r'.live := by
        simpa [Reading.isReady] using List.all_eq_true.mp hall r' hr'
      refine ⟨r'.live, ?_, hneeded⟩
      have hquiet : ∀ e ∈ tr₅ ++ tr₇, ¬About r'.key e := by
        intro e' he'
        rcases List.mem_append.mp he' with he' | he'
        · exact not_about_of_phase (.inl (hhealth e' he'))
        · exact not_about_of_phase (.inr (inPhase_status hstatus e' (by simp [hlast, he'])))
      have hlog : tr₀ ++ (tr₁ ++ (tr₂ ++ (rs.map Reading.exchange ++ tr₅))) ++ tr₇ =
          (tr₀ ++ (tr₁ ++ tr₂)) ++ rs.map Reading.exchange ++ (tr₅ ++ tr₇) := by simp
      rw [hlog]
      exact (lastRead_append hquiet).trans (lastRead_readings hnodup hr')

/-- The workloads belong to the objects. -/
theorem expected_written {os : List K8s.Object} (hos : objects q c = some os) {w : Key × ℤ}
    (hw : w ∈ expected c) : w.1.kind.isWorkload ∧ ∃ o ∈ os, o.manifest.key = w.1 := by
  have happend (component : String) : c.name ++ "-" ++ component = c.name ++ ("-" ++ component) :=
    String.append_assoc ..
  have hkey : w.1.kind.isWorkload ∧ w.1 ∈ clusterKeys (isClustered c) c.ns c.name := by
    unfold expected storeExpected at hw
    cases hclustered : isClustered c <;> simp only [hclustered, if_true, if_false, Bool.false_eq_true,
      List.cons_append, List.nil_append, List.mem_cons, List.not_mem_nil, or_false] at hw
    · rcases hw with rfl | rfl | rfl <;>
        simp [Kind.isWorkload, workloadKey, clusterKeys, coreKeys, storeKeys, singleKeys, happend]
    · rcases hw with rfl | rfl | rfl | rfl <;>
        simp [Kind.isWorkload, workloadKey, clusterKeys, coreKeys, storeKeys, clusteredKeys, happend]
  refine ⟨hkey.1, ?_⟩
  have hmem := hkey.2
  rw [← objects_keys hos] at hmem
  exact List.mem_map.mp hmem

/-- A pass that stores a status has read its CubeCluster first. -/
theorem exists_first {log rest : List Exchange} {e : Exchange} {out : Outcome}
    {st : CubeClusterStatus} (h : Exec (reconcile q ns name) (log ++ e :: rest) out)
    (hst : Stores st e) : ∃ c log', log = Exchange.readCluster ns name (.ok c) :: log' := by
  obtain ⟨ns', name', base, rfl⟩ := hst
  obtain ⟨tr₁, err, tr₂, htr, h₁, h₂⟩ | ⟨tr₁, c, tr₂, htr, h₁, -⟩ := Exec.run_bind_iff.mp h <;>
    obtain ⟨s, rfl, hs⟩ := (exec_getCluster _).mp h₁
  · obtain ⟨rfl, -⟩ := Exec.ret_iff.mp h₂
    cases log with
    | nil => cases htr
    | cons e' log => simp at htr
  · cases s with
    | ok c' =>
      cases log with
      | nil => cases htr
      | cons e' log =>
        obtain ⟨rfl, -⟩ := List.cons.inj htr
        exact ⟨c', log, rfl⟩
    | error err => cases hs

end Go

/-! ## The Kopf controller -/

namespace Kopf

variable {q : Quantities} {ns name : String} {spec : Crd.Spec} {b : Body}

def workloadKey (kind : Kind) (name component ns : String) : Key :=
  ⟨kind, ns, name ++ "-" ++ component⟩

/-- The workloads of the cluster, each with the ready replicas it needs. -/
def expected (spec : Crd.Spec) (name ns : String) : List (Key × ℤ) :=
  [(workloadKey .deployment name "api" ns, replicas (spec.api.getD {}).replicas 2),
    (workloadKey .deployment name "refresh-worker" ns,
      replicas (spec.refreshWorker.getD {}).replicas 1)] ++
  if isClustered spec then
    [(workloadKey .statefulSet name "cubestore-router" ns, 1),
      (workloadKey .statefulSet name "cubestore-worker" ns,
        replicas (spec.cubeStore.getD {}).workers 2)]
  else [(workloadKey .deployment name "cubestore" ns, 1)]

theorem exec_ready {kind : Kind} {component : String} {tr : List Exchange} {n : ℤ}
    (h : Exec (ready kind name component ns).run tr (.ok n)) :
    ∃ r l, tr = [.did (.discover kind) r, .got (workloadKey kind name component ns) (.ok l)] ∧
      n = readyReplicas l := by
  simp only [ready, getObject, resourceFor, Exec.attempt_bind_ok_iff, exec_act, exec_getObject,
    Attempt.run_pure, Exec.ret_iff] at h
  obtain ⟨_, l, _, rfl, ⟨_, _, _, rfl, ⟨r, rfl, -⟩, s, rfl, hs⟩, rfl, hn⟩ := h
  cases s with
  | ok l' =>
    cases hs
    exact ⟨r, l, rfl, Except.ok.inj hn⟩
  | error e => cases hs

/-- The store workloads that a pass has found available. -/
theorem exec_storeReadiness {tr : List Exchange} {message : String}
    (h : Exec (storeReadiness spec name ns).run tr (.ok (true, message))) :
    (isClustered spec = true ∧ ∃ r₁ r₂ router worker,
      tr = [.did (.discover .statefulSet) r₁,
        .got (workloadKey .statefulSet name "cubestore-router" ns) (.ok router),
        .did (.discover .statefulSet) r₂,
        .got (workloadKey .statefulSet name "cubestore-worker" ns) (.ok worker)] ∧
      1 ≤ readyReplicas router ∧ replicas (spec.cubeStore.getD {}).workers 2 ≤ readyReplicas worker) ∨
    (isClustered spec = false ∧ ∃ r store, tr = [.did (.discover .deployment) r,
      .got (workloadKey .deployment name "cubestore" ns) (.ok store)] ∧ 1 ≤ readyReplicas store) := by
  unfold storeReadiness at h
  simp only [storeMode_eq_clustered] at h
  cases hclustered : isClustered spec
  · simp only [hclustered, Bool.false_eq_true, if_false, Exec.attempt_bind_ok_iff] at h
    obtain ⟨tr₁, n, tr₂, rfl, hread, hpure⟩ := h
    obtain ⟨r, l, rfl, rfl⟩ := exec_ready hread
    obtain ⟨rfl, hready, -⟩ : tr₂ = [] ∧ 1 ≤ readyReplicas l ∧ _ := by simpa using hpure
    exact .inr ⟨rfl, r, l, rfl, hready⟩
  · simp only [hclustered, if_true, Exec.attempt_bind_ok_iff] at h
    obtain ⟨tr₁, store, tr₂, rfl, hstore, tr₃, n, tr₄, rfl, hrouter, tr₅, m, tr₆, rfl, hworker, hpure⟩ :=
      h
    obtain ⟨r₁, router, rfl, rfl⟩ := exec_ready hrouter
    obtain ⟨r₂, worker, rfl, rfl⟩ := exec_ready hworker
    -- the key `cubeStore` is there
    obtain ⟨rfl, hsome⟩ : tr₁ = [] ∧ spec.cubeStore = some store := by
      cases hcubeStore : spec.cubeStore <;> simp_all
    obtain ⟨rfl, ⟨hrouter, hworker⟩, -⟩ : tr₆ = [] ∧ (1 ≤ readyReplicas router ∧
        replicas store.workers 2 ≤ readyReplicas worker) ∧ _ := by simpa using hpure
    refine .inl ⟨rfl, r₁, r₂, router, worker, rfl, hrouter, ?_⟩
    rw [hsome]
    exact hworker

/-- The workloads that a pass has found available, each read once. -/
theorem accepted_of_workloadReadiness {tr : List Exchange} {n : ℤ} {message : String}
    (h : Exec (workloadReadiness spec name ns).run tr (.ok (n, true, message)))
    (tr₀ : List Exchange) :
    ∀ w ∈ expected spec name ns, ∃ l, lastRead w.1 (tr₀ ++ tr) = some l ∧
      w.2 ≤ readyReplicas l := by
  simp only [workloadReadiness, Exec.attempt_bind_ok_iff] at h
  obtain ⟨tr₁, api, tr₂, rfl, hapi, tr₃, refresh, tr₄, rfl, hrefresh, tr₅, ⟨store, message'⟩, tr₆,
    rfl, hstore, hpure⟩ := h
  obtain ⟨r₁, api, rfl, rfl⟩ := exec_ready hapi
  obtain ⟨r₂, refresh, rfl, rfl⟩ := exec_ready hrefresh
  obtain ⟨rfl, -, hready, -⟩ : tr₆ = [] ∧ _ ∧ ((replicas (spec.api.getD {}).replicas 2 ≤
      readyReplicas api ∧ replicas (spec.refreshWorker.getD {}).replicas 1 ≤ readyReplicas refresh) ∧
      store = true) ∧ _ := by simpa using hpure
  obtain ⟨⟨hapi, hrefresh⟩, rfl⟩ := hready
  unfold expected
  rcases exec_storeReadiness hstore with
    ⟨hclustered, r₃, r₄, router, worker, rfl, hrouter, hworker⟩ | ⟨hsingle, r₃, single, rfl, hsingle'⟩
  · simp only [hclustered, if_true, List.cons_append, List.nil_append, List.forall_mem_cons]
    refine ⟨⟨api, ?_, hapi⟩, ⟨refresh, ?_, hrefresh⟩, ⟨router, ?_, hrouter⟩, ⟨worker, ?_, hworker⟩,
      by simp⟩ <;>
    simp [lastRead, knows, workloadKey, Target, Except.toOption]
  · simp only [hsingle, Bool.false_eq_true, if_false, List.cons_append, List.nil_append,
      List.forall_mem_cons]
    refine ⟨⟨api, ?_, hapi⟩, ⟨refresh, ?_, hrefresh⟩, ⟨single, ?_, hsingle'⟩, by simp⟩ <;>
    simp [lastRead, knows, workloadKey, Target, Except.toOption]

theorem not_about_of_isReport {k : Key} {e : Exchange} (h : IsReport ns name e) : ¬About k e := by
  rintro (htarget | ⟨r, rfl⟩)
  · cases h <;> cases htarget
  · cases h

/-- An object that was applied was created or patched. -/
theorem wrote_of_applyObject {owner : OwnerReference} {d : Manifest} {tr : List Exchange}
    (h : Exec (applyObject owner d).run tr (.ok ())) : Wrote tr (d.ownedBy owner) := by
  simp only [applyObject, createOrPatch_eq, Exec.attempt_bind_ok_iff, ExceptT.run_mk,
    Exec.call_iff] at h
  obtain ⟨tr₁, _, _, rfl, -, r, tr₂, rfl, hwrite⟩ := h
  cases r with
  | ok l =>
    obtain ⟨r, rfl, hr⟩ := (exec_act Exc.ofApi).mp hwrite
    cases r with
    | ok u => exact ⟨.patch (d.ownedBy owner), .inr (.inr rfl), by simp⟩
    | error e => cases hr
  | error e =>
    unfold afterLookup at hwrite
    dsimp only at hwrite
    split at hwrite
    · obtain ⟨r, rfl, hr⟩ := (exec_act Exc.ofApi).mp hwrite
      cases r with
      | ok u => exact ⟨.create (d.ownedBy owner), .inr (.inl rfl), by simp⟩
      | error e => cases hr
    · simp at hwrite

/-- A pass that leaves `Ready=True` has written every object and read of every workload
    the ready replicas it needs. -/
theorem accepted_of_reportsReady {tr : List Exchange} {out : Handled} {st : StatusPatch}
    (h : Exec (reconcile q b) tr out) (hpatch : out.patch = some st) (hready : st.isReady = true) :
    st.observedGeneration = b.generation ∧
      ∃ ds, desiredObjects b.name b.ns b.spec = some ds ∧
        (∀ d ∈ ds, Wrote tr (d.ownedBy (ownerReference b.name b.uid))) ∧
        ∀ w ∈ expected b.spec b.name b.ns, ∃ l, lastRead w.1 tr = some l ∧
          w.2 ≤ readyReplicas l := by
  obtain ⟨tr₁, exc, tr₂, rfl, h₁, h₂⟩ | ⟨tr₁, ⟨n, available, message⟩, tr₂, rfl, h₁, h₂⟩ :=
    Exec.run_bind_iff.mp h
  · rw [isReady_recover h₂ hpatch] at hready
    cases hready
  · obtain ⟨tr₃, patch, tr₄, rfl, h₃, h₄⟩ := Exec.bind_iff.mp h₂
    obtain ⟨rfl, rfl⟩ := Exec.ret_iff.mp h₄
    obtain rfl := Option.some.inj hpatch
    obtain ⟨rfl, hgeneration⟩ := available_of_isReady h₃ hready
    refine ⟨hgeneration, ?_⟩
    rw [reconcileObjects_eq] at h₁
    obtain ⟨tr₅, u, tr₆, rfl, hvalidate, hrest⟩ := Exec.attempt_bind_ok_iff.mp h₁
    obtain ⟨ds, hds⟩ := exists_desiredObjects (exec_validateReferences_ok hvalidate).1 b.name b.ns
    simp only [afterValidation, desired_eq hds, pure_bind, Exec.attempt_bind_ok_iff] at hrest
    obtain ⟨tr₇, _, tr₈, rfl, happly, tr₉, _, tr₁₀, rfl, -, hread⟩ := hrest
    refine ⟨ds, hds, fun d hd => ?_, fun w hw => ?_⟩
    · obtain ⟨tr', hsub, hexec⟩ := Exec.body_of_forEach_ok happly hd
      refine (wrote_of_applyObject hexec).mono (List.Subset.trans hsub ?_)
      intro e he
      simp [he]
    · obtain ⟨l, hl, hn⟩ := accepted_of_workloadReadiness hread (tr₅ ++ (tr₇ ++ tr₉)) w hw
      refine ⟨l, ?_, hn⟩
      have hreport : ∀ e ∈ tr₃, ¬About w.1 e := fun e he =>
        not_about_of_isReport (only_reportReadiness.of_exec h₃ e he)
      rw [List.append_nil, lastRead_append hreport, ← hl]
      simp

/-- The workloads belong to the objects. -/
theorem expected_written {ds : List Manifest} (hds : desiredObjects name ns spec = some ds)
    {w : Key × ℤ} (hw : w ∈ expected spec name ns) :
    w.1.kind.isWorkload ∧ ∃ d ∈ ds, d.key = w.1 := by
  have happend (component : String) : name ++ "-" ++ component = name ++ ("-" ++ component) :=
    String.append_assoc ..
  have hkey : w.1.kind.isWorkload ∧ w.1 ∈ clusterKeys (isClustered spec) ns name := by
    unfold expected at hw
    cases hclustered : isClustered spec <;> simp only [hclustered, if_true, if_false,
      Bool.false_eq_true, List.cons_append, List.nil_append, List.mem_cons, List.not_mem_nil,
      or_false] at hw
    · rcases hw with rfl | rfl | rfl <;>
        simp [Kind.isWorkload, workloadKey, clusterKeys, coreKeys, storeKeys, singleKeys, happend]
    · rcases hw with rfl | rfl | rfl | rfl <;>
        simp [Kind.isWorkload, workloadKey, clusterKeys, coreKeys, storeKeys, clusteredKeys, happend]
  refine ⟨hkey.1, ?_⟩
  have hmem := hkey.2
  rw [← desiredObjects_keys hds] at hmem
  exact List.mem_map.mp hmem

end Kopf

end CubeOperator
