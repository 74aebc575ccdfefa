import CubeOperator.Go.Pass

/-! # When the Go controller reports a cluster as ready

    A pass stores `Ready=True` exactly when everything it did went well and
    everything it saw is ready.  Every other pass is repeated. -/

namespace CubeOperator.Go

open Interaction Kube V1alpha1

variable {q : Quantities} {c : CubeCluster}

/-! ## The phases of a pass -/

inductive Phase where
  | validate
  | apply
  | remove
  | read
  | health
  | status
  deriving DecidableEq

/-- The part of a pass that makes a call. -/
def phase : Exchange → Phase
  | ⟨.get k, _⟩ => if k.kind.isReference then .validate else .read
  | ⟨.act (.delete _), _⟩ => .remove
  | ⟨.act (.patchStatus _ _ _ _), _⟩ | ⟨.getCluster _ _, _⟩ | ⟨.now, _⟩ => .status
  | ⟨.act _, _⟩ => .apply
  | ⟨.httpGet _, _⟩ => .health

/-- All exchanges of `tr` belong to the part `p`. -/
def InPhase (p : Phase) (tr : List Exchange) : Prop := ∀ e ∈ tr, phase e = p

namespace InPhase

variable {p : Phase} {tr tr' : List Exchange} {e : Exchange}

/-- An exchange of another part is not in this one. -/
theorem mem_right (h : InPhase p tr) (he : e ∈ tr ++ tr') (hp : phase e ≠ p) : e ∈ tr' := by
  rcases List.mem_append.mp he with he | he
  · exact absurd (h e he) hp
  · exact he

theorem mem_left (h : InPhase p tr') (he : e ∈ tr ++ tr') (hp : phase e ≠ p) : e ∈ tr := by
  rcases List.mem_append.mp he with he | he
  · exact he
  · exact absurd (h e he) hp

theorem append (h : InPhase p tr) (h' : InPhase p tr') : InPhase p (tr ++ tr') := by
  intro e he
  rcases List.mem_append.mp he with he | he
  · exact h e he
  · exact h' e he

theorem ne {p' : Phase} (h : InPhase p tr) (hp : p ≠ p') : ∀ e ∈ tr, phase e ≠ p' := by
  intro e he
  rw [h e he]
  exact hp

theorem singleton (h : phase e = p) : InPhase p [e] := by
  intro e' he
  obtain rfl := List.mem_singleton.mp he
  exact h

end InPhase

theorem inPhase_validate {tr : List Exchange} {r : Except GoError Unit}
    (h : Exec (validateReferences q c).run tr r) : InPhase .validate tr := by
  intro e he
  obtain ⟨k, hk, r, rfl⟩ := only_validateReferences.of_exec h e he
  simp [phase, references_kind hk]

theorem inPhase_apply {os : List K8s.Object} {tr : List Exchange}
    (h : List.Forall₂ (IsApply c) os tr) : InPhase .apply tr := by
  intro e he
  obtain ⟨o, -, rfl⟩ := exists_left_of_mem h he
  rfl

theorem inPhase_remove {ks : List Key} {tr : List Exchange}
    (h : List.Forall₂ IsRemoval ks tr) : InPhase .remove tr := by
  intro e he
  obtain ⟨k, -, r, rfl, -⟩ := exists_left_of_mem h he
  rfl

theorem expected_kind (c : CubeCluster) : ∀ w ∈ expected c, w.1.kind.isReference = false := by
  unfold expected storeExpected
  cases isClustered c <;> simp [workloadKey, Kind.isReference]

theorem phase_got {k : Key} (hk : k.kind.isReference = false) (r : Except ApiError Live) :
    phase (.got k r) = .read := by
  simp [phase, hk]

theorem inPhase_read {rs : List Reading} (h : rs.map Reading.workload <+: expected c) :
    InPhase .read (rs.map Reading.exchange) := by
  intro e he
  obtain ⟨r, hr, rfl⟩ := List.mem_map.mp he
  exact phase_got (expected_kind c r.workload (h.subset (List.mem_map_of_mem hr))) _

theorem inPhase_health {tr : List Exchange} (h : ∀ e ∈ tr, ∃ url a, e = Exchange.fetched url a) :
    InPhase .health tr := by
  intro e he
  obtain ⟨url, a, rfl⟩ := h e he
  rfl

theorem inPhase_status {status : ConditionStatus} {reason message : String} {ready : ℤ}
    {tr : List Exchange} {r : Except GoError Unit}
    (h : Exec (setStatus c status reason message ready).run tr r) : InPhase .status tr := by
  intro e he
  rcases only_setStatus.of_exec h e he with ⟨ns, name, r, rfl⟩ | ⟨t, rfl⟩ | ⟨latest, t, r, rfl⟩ <;>
    rfl

theorem only_applies {os : List K8s.Object} :
    Only (fun e => phase e = .apply) (Attempt.forEach (reconcileObject c) os).run :=
  Only.forEach fun _ _ _ => ⟨rfl, trivial⟩

theorem only_removeObsoleteStore :
    Only (fun e => phase e = .remove) (removeObsoleteStore c).run :=
  Only.forEach fun _ _ _ => ⟨rfl, trivial⟩

/-- The reads of the workloads, also when one of them fails. -/
theorem inPhase_workloads {tr : List Exchange} {r : Except GoError (ℤ × Bool × String)}
    (h : Exec (workloadsAvailable c).run tr r) : InPhase .read tr := by
  intro e he
  obtain ⟨k, hk, r, rfl⟩ := only_workloadsAvailable.of_exec h e he
  exact phase_got (managedKeys_kind k hk) r

/-! ## What is stored -/

/-- The pass stored `Ready=True` together with `ready` ready API replicas. -/
def StoredReady (tr : List Exchange) (ready : ℤ) : Prop :=
  ∃ s, s.isReady = true ∧ s.readyAPIs = ready ∧ ∃ e ∈ tr, Stores s e

theorem phase_stores {s : CubeClusterStatus} {e : Exchange} (h : Stores s e) :
    phase e = .status := by
  obtain ⟨ns, name, base, rfl⟩ := h
  rfl

/-- A status that `setStatus` stores is the new one over some version. -/
theorem stores_newStatus {status : ConditionStatus} {reason message : String} {ready : ℤ}
    {tr : List Exchange} {r : Except GoError Unit} {s : CubeClusterStatus} {e : Exchange}
    (h : Exec (setStatus c status reason message ready).run tr r) (he : e ∈ tr)
    (hs : Stores s e) : ∃ latest t, s = newStatus latest t status reason message ready := by
  obtain ⟨ns, name, base, rfl⟩ := hs
  rcases only_setStatus.of_exec h _ he with ⟨_, _, _, h⟩ | ⟨_, h⟩ | ⟨latest, t, r, h⟩
  · cases h
  · cases h
  · cases h
    exact ⟨latest, t, rfl⟩

/-- What `setStatus` stores is what it was called with. -/
theorem storedReady_setStatus {status : ConditionStatus} {reason message : String} {ready : ℤ}
    {tr : List Exchange} {r : Except GoError Unit}
    (h : Exec (setStatus c status reason message ready).run tr r) (n : ℤ) :
    StoredReady tr n ↔ r = .ok () ∧ status = .isTrue ∧ n = ready := by
  constructor
  · rintro ⟨s, hready, rfl, e, he, hs⟩
    obtain ⟨latest, t, rfl⟩ := stores_newStatus h he hs
    refine ⟨(storesIfOk_setStatus tr r h).mpr ⟨_, e, he, hs⟩, by simpa using hready, rfl⟩
  · rintro ⟨hr, hstatus, rfl⟩
    obtain ⟨s, e, he, hs⟩ := (storesIfOk_setStatus tr r h).mp hr
    obtain ⟨latest, t, rfl⟩ := stores_newStatus h he hs
    exact ⟨_, by simp [hstatus], rfl, e, he, hs⟩

/-- Only the status part of a pass stores anything. -/
theorem storedReady_append {p : Phase} (hp : p ≠ .status) {tr tr' : List Exchange}
    (h : InPhase p tr) {n : ℤ} : StoredReady (tr ++ tr') n ↔ StoredReady tr' n := by
  constructor
  · rintro ⟨s, hready, hn, e, he, hs⟩
    refine ⟨s, hready, hn, e, h.mem_right he ?_, hs⟩
    rw [phase_stores hs]
    exact Ne.symm hp
  · rintro ⟨s, hready, hn, e, he, hs⟩
    exact ⟨s, hready, hn, e, List.mem_append_right _ he, hs⟩

theorem not_storedReady {p : Phase} (hp : p ≠ .status) {tr : List Exchange} (h : InPhase p tr)
    {n : ℤ} : ¬StoredReady tr n := by
  rintro ⟨s, -, -, e, he, hs⟩
  exact hp ((h e he).symm.trans (phase_stores hs))

/-! ## The conditions -/

/-- Everything that has to go well in a pass for the cluster to be ready. -/
structure AllWell (q : Quantities) (c : CubeCluster) (tr : List Exchange) : Prop where
  /-- The spec was accepted. -/
  accepted : ∃ tr₁, tr₁ <+: tr ∧ Exec (validateReferences q c).run tr₁ (.ok ())
  /-- Every desired object was applied. -/
  applied : ∃ os, objects q c = some os ∧ ∀ o ∈ os, ∃ e ∈ tr, IsApply c o e
  /-- Every obsolete object was deleted or is absent. -/
  removed : ∀ k ∈ obsoleteStore c, ∃ e ∈ tr, IsRemoval k e
  /-- Every workload was read with the ready replicas it needs. -/
  available : ∀ w ∈ expected c, ∃ l, Exchange.got w.1 (.ok l) ∈ tr ∧ w.2 ≤ readyReplicas l
  /-- The API's readiness endpoint answered with a status from 200 to 299. -/
  healthy : ∃ a, Exchange.fetched (endpoint c ++ "/readyz") a ∈ tr ∧ Healthy a
  /-- The status was written. -/
  written : ∃ s, ∃ e ∈ tr, Stores s e

/-- An object at which the apply loop stopped was not applied. -/
theorem not_applied {os₁ os₂ : List K8s.Object} {o : K8s.Object} {tr₁ : List Exchange}
    {err : ApiError} (hos : objects q c = some (os₁ ++ o :: os₂))
    (h : List.Forall₂ (IsApply c) os₁ tr₁) {e : Exchange}
    (he : e ∈ tr₁ ++ [.did (.apply (applied c o)) (.error err)]) : ¬IsApply c o e := by
  rintro rfl
  have hnodup : ((os₁ ++ o :: os₂).map fun o => o.manifest.key).Nodup := by
    rw [objects_keys hos]
    exact clusterKeys_nodup ..
  rw [List.map_append, List.map_cons, List.nodup_append] at hnodup
  rcases List.mem_append.mp he with he | he
  · obtain ⟨o', ho', heq⟩ := exists_left_of_mem h he
    have happlied : applied c o = applied c o' := by
      simpa [IsApply] using heq
    have hkey : o'.manifest.key = o.manifest.key :=
      (congrArg Manifest.key happlied).symm
    exact hnodup.2.2 _ (List.mem_map_of_mem ho') _ (by simp) hkey
  · cases List.mem_singleton.mp he

theorem obsoleteStore_nodup (c : CubeCluster) : (obsoleteStore c).Nodup := by
  unfold obsoleteStore
  split <;> simp

/-- An object at which the removal stopped is not gone. -/
theorem not_removed {ks₁ ks₂ : List Key} {k : Key} {tr₁ : List Exchange} {err : ApiError}
    (hks : obsoleteStore c = ks₁ ++ k :: ks₂) (h : List.Forall₂ IsRemoval ks₁ tr₁)
    (herr : ¬err.isNotFound) {e : Exchange} (he : e ∈ tr₁ ++ [.did (.delete k) (.error err)]) :
    ¬IsRemoval k e := by
  rintro ⟨r, rfl, hgone⟩
  have hnodup := obsoleteStore_nodup c
  rw [hks, List.nodup_append] at hnodup
  rcases List.mem_append.mp he with he | he
  · obtain ⟨k', hk', r', heq, -⟩ := exists_left_of_mem h he
    cases heq
    exact hnodup.2.2 _ hk' _ (by simp) rfl
  · cases List.mem_singleton.mp he
    exact herr (hgone err rfl)

/-- A workload at which the reading stopped was not read. -/
theorem not_read {rs : List Reading} {w : Key × ℤ} {ws : List (Key × ℤ)} {err : ApiError}
    (hws : expected c = rs.map Reading.workload ++ w :: ws) {l : Live} :
    Exchange.got w.1 (.ok l) ∉ rs.map Reading.exchange ++ [.got w.1 (.error err)] := by
  intro he
  have hnodup := expected_nodup c
  rw [hws, List.map_append, List.map_cons, List.nodup_append] at hnodup
  rcases List.mem_append.mp he with he | he
  · obtain ⟨r, hr, heq⟩ := List.mem_map.mp he
    have hkey : r.key = w.1 := by
      have := congrArg (fun e : Exchange => e.1) heq
      simpa [Reading.exchange] using this
    refine hnodup.2.2 r.key ?_ w.1 (by simp) hkey
    rw [List.map_map]
    exact List.mem_map.mpr ⟨r, hr, rfl⟩
  · cases List.mem_singleton.mp he

/-- The verdict on the readings, from the exchanges alone: a workload is read once. -/
theorem all_isReady_iff {rs : List Reading} (hws : rs.map Reading.workload = expected c) :
    rs.all Reading.isReady = true ↔ ∀ w ∈ expected c,
      ∃ l, Exchange.got w.1 (.ok l) ∈ rs.map Reading.exchange ∧ w.2 ≤ readyReplicas l := by
  rw [List.all_eq_true]
  constructor
  · intro h w hw
    rw [← hws] at hw
    obtain ⟨r, hr, rfl⟩ := List.mem_map.mp hw
    refine ⟨r.live, List.mem_map.mpr ⟨r, hr, rfl⟩, ?_⟩
    simpa [Reading.isReady, Reading.workload] using h r hr
  · intro h r hr
    obtain ⟨l, hl, hn⟩ := h r.workload (by rw [← hws]; exact List.mem_map_of_mem hr)
    have hnodup := expected_nodup c
    rw [← hws, List.map_map] at hnodup
    obtain ⟨r', hr', heq⟩ := List.mem_map.mp hl
    obtain ⟨key, needed, live⟩ := r
    obtain ⟨key', needed', live'⟩ := r'
    cases heq
    obtain ⟨rfl, rfl⟩ : needed' = needed ∧ live' = live := by
      simpa using List.inj_on_of_nodup_map hnodup hr' hr rfl
    simpa [Reading.isReady, Reading.workload] using hn

/-! ## Ready passes -/

/-- A pass that ends before its report stores no `Ready=True` and does not meet the
    conditions for it. -/
theorem not_ready_of_rejected {tr tr₁ : List Exchange} {err : GoError} {r : Except GoError Unit}
    (hvalidate : Exec (validateReferences q c).run tr (.error err))
    (hstatus : Exec (setStatus c .isFalse "InvalidConfiguration" err.message 0).run tr₁ r) :
    (∀ n, ¬StoredReady (tr ++ tr₁) n) ∧ ¬AllWell q c (tr ++ tr₁) := by
  constructor
  · intro n
    rw [storedReady_append (by decide) (inPhase_validate hvalidate), storedReady_setStatus hstatus]
    simp
  · rintro ⟨⟨tr', ⟨rest, hrest⟩, haccepts⟩, -⟩
    cases (haccepts.unique hvalidate hrest).2

theorem not_ready_of_applyFailed {tr tr₁ tr₂ : List Exchange} {os : List K8s.Object}
    {err : GoError} {r : Except GoError Unit}
    (hvalidate : Exec (validateReferences q c).run tr (.ok ())) (hos : objects q c = some os)
    (happly : Exec (Attempt.forEach (reconcileObject c) os).run tr₁ (.error err))
    (hstatus : Exec (setStatus c .isFalse "ReconcileFailed" err.message 0).run tr₂ r) :
    (∀ n, ¬StoredReady (tr ++ (tr₁ ++ tr₂)) n) ∧ ¬AllWell q c (tr ++ (tr₁ ++ tr₂)) := by
  obtain ⟨os₁, o, os₂, tr₃, e, rfl, hfirst, rfl, rfl⟩ := exec_applies_error happly
  have happly : InPhase .apply (tr₃ ++ [.did (.apply (applied c o)) (.error e)]) :=
    (inPhase_apply hfirst).append (InPhase.singleton rfl)
  have hvalidate := inPhase_validate hvalidate
  constructor
  · intro n
    rw [storedReady_append (by decide) hvalidate, storedReady_append (by decide) happly,
      storedReady_setStatus hstatus]
    simp
  · rintro ⟨-, ⟨os', hos', hall⟩, -⟩
    obtain rfl : os₁ ++ o :: os₂ = os' := Option.some.inj (hos.symm.trans hos')
    obtain ⟨ev, hev, hisApply⟩ := hall o (by simp)
    have hphase : phase ev = .apply := by
      rw [hisApply]
      rfl
    have hev := hvalidate.mem_right hev (by simp [hphase])
    have hev := (inPhase_status hstatus).mem_left hev (by simp [hphase])
    exact not_applied hos hfirst hev hisApply

theorem not_ready_of_removeFailed {tr tr₁ tr₂ : List Exchange} {os : List K8s.Object}
    {err : GoError} (hvalidate : Exec (validateReferences q c).run tr (.ok ()))
    (happly : List.Forall₂ (IsApply c) os tr₁)
    (hremove : Exec (removeObsoleteStore c).run tr₂ (.error err)) :
    (∀ n, ¬StoredReady (tr ++ (tr₁ ++ tr₂)) n) ∧ ¬AllWell q c (tr ++ (tr₁ ++ tr₂)) := by
  obtain ⟨ks₁, k, ks₂, tr₃, e, hks, hfirst, rfl, herr, rfl⟩ := exec_removes_error hremove
  have hremove : InPhase .remove (tr₃ ++ [.did (.delete k) (.error e)]) :=
    (inPhase_remove hfirst).append (InPhase.singleton rfl)
  have hvalidate := inPhase_validate hvalidate
  have happly := inPhase_apply happly
  constructor
  · intro n
    rw [storedReady_append (by decide) hvalidate, storedReady_append (by decide) happly]
    exact not_storedReady (by decide) hremove
  · intro h
    obtain ⟨ev, hev, hremoval⟩ := h.removed k (by rw [hks]; simp)
    have hphase : phase ev = .remove := by
      obtain ⟨r, rfl, -⟩ := hremoval
      rfl
    have hev := hvalidate.mem_right hev (by simp [hphase])
    have hev := happly.mem_right hev (by simp [hphase])
    exact not_removed hks hfirst herr hev hremoval

theorem not_ready_of_readFailed {tr tr₁ tr₂ tr₃ : List Exchange} {os : List K8s.Object}
    {err : GoError} (hvalidate : Exec (validateReferences q c).run tr (.ok ()))
    (happly : List.Forall₂ (IsApply c) os tr₁)
    (hremove : List.Forall₂ IsRemoval (obsoleteStore c) tr₂)
    (hread : Exec (workloadsAvailable c).run tr₃ (.error err)) :
    (∀ n, ¬StoredReady (tr ++ (tr₁ ++ (tr₂ ++ tr₃))) n) ∧
      ¬AllWell q c (tr ++ (tr₁ ++ (tr₂ ++ tr₃))) := by
  obtain ⟨rs, w, ws, e, hws, rfl, rfl⟩ := readsAll_workloadsAvailable.2 tr₃ err hread
  have hkind := expected_kind c w (by rw [hws]; simp)
  have hread : InPhase .read (rs.map Reading.exchange ++ [.got w.1 (.error e)]) :=
    (inPhase_read ⟨_, hws.symm⟩).append (InPhase.singleton (phase_got hkind _))
  have hvalidate := inPhase_validate hvalidate
  have happly := inPhase_apply happly
  have hremove := inPhase_remove hremove
  constructor
  · intro n
    rw [storedReady_append (by decide) hvalidate, storedReady_append (by decide) happly,
      storedReady_append (by decide) hremove]
    exact not_storedReady (by decide) hread
  · intro h
    obtain ⟨l, hl, -⟩ := h.available w (by rw [hws]; simp)
    have hphase := phase_got hkind (.ok l)
    have hl := hvalidate.mem_right hl (by simp [hphase])
    have hl := happly.mem_right hl (by simp [hphase])
    have hl := hremove.mem_right hl (by simp [hphase])
    exact not_read hws hl

/-- A pass that reports stores `Ready=True` exactly when it meets the conditions,
    with the API's ready replicas; else it fails or is repeated. -/
theorem ready_iff_of_reported {tr tr₁ tr₂ tr₃ tr₄ : List Exchange} {os : List K8s.Object}
    {ready : ℤ} {available : Bool} {message : String} {out : Outcome}
    (hvalidate : Exec (validateReferences q c).run tr (.ok ())) (hos : objects q c = some os)
    (happly : List.Forall₂ (IsApply c) os tr₁)
    (hremove : List.Forall₂ IsRemoval (obsoleteStore c) tr₂)
    (hread : Exec (workloadsAvailable c).run tr₃ (.ok (ready, available, message)))
    (hreport : Exec (reportReadiness c ready available message) tr₄ out) :
    ((∃ n, StoredReady (tr ++ (tr₁ ++ (tr₂ ++ (tr₃ ++ tr₄)))) n) ↔
      AllWell q c (tr ++ (tr₁ ++ (tr₂ ++ (tr₃ ++ tr₄))))) ∧
    (∀ n, StoredReady (tr ++ (tr₁ ++ (tr₂ ++ (tr₃ ++ tr₄)))) n → n = ready) ∧
    ((∀ n, ¬StoredReady (tr ++ (tr₁ ++ (tr₂ ++ (tr₃ ++ tr₄)))) n) →
      ∃ res err, out = .returned res err ∧ (err ≠ none ∨ 0 < res.requeueAfter)) := by
  obtain ⟨rs, hws, rfl, havailable, -⟩ := readsAll_workloadsAvailable.1 tr₃ _ hread
  replace havailable : available = rs.all Reading.isReady := havailable
  obtain ⟨tr₅, tr₆, condition, reason, message', r, rfl, hfetched, hstatus, -, hcondition⟩ :=
    exec_reportReadiness hreport
  have hhealth := inPhase_health hfetched
  have hread' : InPhase .read (rs.map Reading.exchange) := inPhase_read (c := c) ⟨[], by simp [hws]⟩
  -- past validation, applying and removing
  have hskip {e : Exchange} {rest : List Exchange} (he : e ∈ tr ++ (tr₁ ++ (tr₂ ++ rest)))
      (hp : phase e ≠ .validate ∧ phase e ≠ .apply ∧ phase e ≠ .remove) : e ∈ rest :=
    (inPhase_remove hremove).mem_right ((inPhase_apply happly).mem_right
      ((inPhase_validate hvalidate).mem_right he hp.1) hp.2.1) hp.2.2
  have hstored (n : ℤ) : StoredReady (tr ++ (tr₁ ++ (tr₂ ++ (rs.map Reading.exchange ++
      (tr₅ ++ tr₆))))) n ↔ r = .ok () ∧ condition = .isTrue ∧ n = ready := by
    rw [storedReady_append (by decide) (inPhase_validate hvalidate),
      storedReady_append (by decide) (inPhase_apply happly),
      storedReady_append (by decide) (inPhase_remove hremove),
      storedReady_append (by decide) hread', storedReady_append (by decide) hhealth,
      storedReady_setStatus hstatus]
  refine ⟨?_, fun n hn => ((hstored n).mp hn).2.2, fun hnot => ?_⟩
  · simp only [hstored]
    constructor
    · rintro ⟨n, hr, rfl, rfl⟩
      obtain ⟨-, hall, ⟨a, rfl, ha⟩, -⟩ | ⟨h, -⟩ := hcondition
      · refine ⟨⟨tr, List.prefix_append .., hvalidate⟩, ⟨os, hos, fun o ho => ?_⟩, fun k hk => ?_,
          fun w hw => ?_, ⟨a, by simp, ha⟩, ?_⟩
        · obtain ⟨e, he, hisApply⟩ := exists_right_of_mem happly ho
          exact ⟨e, by simp [he], hisApply⟩
        · obtain ⟨e, he, hremoval⟩ := exists_right_of_mem hremove hk
          exact ⟨e, by simp [he], hremoval⟩
        · obtain ⟨l, hl, hn⟩ := (all_isReady_iff hws).mp (havailable.symm.trans hall) w hw
          exact ⟨l, by simp only [List.mem_append, hl, true_or, or_true], hn⟩
        · obtain ⟨s, e, he, hs⟩ := (storesIfOk_setStatus _ r hstatus).mp hr
          exact ⟨s, e, by simp [he], hs⟩
      · cases h
    · intro h
      have hr : r = .ok () := by
        obtain ⟨s, e, he, hs⟩ := h.written
        have hphase := phase_stores hs
        have he := hread'.mem_right (hskip he (by simp [hphase])) (by simp [hphase])
        have he := hhealth.mem_right he (by simp [hphase])
        exact (storesIfOk_setStatus _ r hstatus).mpr ⟨s, e, he, hs⟩
      have hall : available = true := by
        refine havailable.trans ((all_isReady_iff hws).mpr fun w hw => ?_)
        obtain ⟨l, hl, hn⟩ := h.available w hw
        have hphase := phase_got (expected_kind c w hw) (.ok l)
        have hl := hskip hl (by simp [hphase])
        rw [← List.append_assoc] at hl
        have hl := (inPhase_status hstatus).mem_left hl (by simp [hphase])
        exact ⟨l, hhealth.mem_left hl (by simp [hphase]), hn⟩
      rcases hcondition with ⟨hc, -⟩ | ⟨-, ⟨hfalse, -⟩ | ⟨a, rfl, ha⟩, -⟩
      · exact ⟨ready, hr, hc, rfl⟩
      · rw [hall] at hfalse
        cases hfalse
      · obtain ⟨a', ha', hhealthy⟩ := h.healthy
        have hphase : phase (.fetched (endpoint c ++ "/readyz") a') = .health := rfl
        have ha' := hread'.mem_right (hskip ha' (by simp [hphase])) (by simp [hphase])
        have ha' := (inPhase_status hstatus).mem_left ha' (by simp [hphase])
        cases List.mem_singleton.mp ha'
        exact absurd hhealthy ha
  · have hnot : ¬(r = .ok () ∧ condition = .isTrue) := fun h =>
      hnot ready ((hstored ready).mpr ⟨h.1, h.2, rfl⟩)
    rcases hcondition with ⟨hc, -, -, rfl⟩ | ⟨-, -, rfl⟩
    · cases r with
      | ok u => exact absurd ⟨rfl, hc⟩ hnot
      | error err => exact ⟨_, _, rfl, .inl (by simp)⟩
    · cases r with
      | ok u => exact ⟨_, _, rfl, .inr (by decide)⟩
      | error err => exact ⟨_, _, rfl, .inl (by simp)⟩

/-- `Ready=True` is sound and complete, it comes with the API's ready replicas, and a
    pass that does not store it fails or asks to be repeated. -/
theorem stores_ready_iff {ns name : String} {tr : List Exchange} {out : Outcome}
    (h : Exec (reconcile q ns name) (Exchange.readCluster ns name (.ok c) :: tr) out) :
    ((∃ n, StoredReady tr n) ↔ AllWell q c tr) ∧
    (∀ n, StoredReady tr n → ∃ l,
      Exchange.got (workloadKey c .deployment "api") (.ok l) ∈ tr ∧ n = readyReplicas l) ∧
    ((∀ n, ¬StoredReady tr n) →
      ∃ res err, out = .returned res err ∧ (err ≠ none ∨ 0 < res.requeueAfter)) := by
  -- a pass that stops early stores no `Ready=True`, and neither are the conditions met
  have stopped {tr : List Exchange} {out : Outcome}
      (hnot : (∀ n, ¬StoredReady tr n) ∧ ¬AllWell q c tr)
      (hout : ∃ res err, out = .returned res err ∧ (err ≠ none ∨ 0 < res.requeueAfter)) :
      ((∃ n, StoredReady tr n) ↔ AllWell q c tr) ∧
      (∀ n, StoredReady tr n → ∃ l,
        Exchange.got (workloadKey c .deployment "api") (.ok l) ∈ tr ∧ n = readyReplicas l) ∧
      ((∀ n, ¬StoredReady tr n) →
        ∃ res err, out = .returned res err ∧ (err ≠ none ∨ 0 < res.requeueAfter)) :=
    ⟨⟨fun ⟨n, hn⟩ => absurd hn (hnot.1 n), fun h => absurd h hnot.2⟩,
      fun n hn => absurd hn (hnot.1 n), fun _ => hout⟩
  cases exec_reconcile h with
  | @rejected _ _ _ r hvalidate hstatus =>
    refine stopped (not_ready_of_rejected hvalidate hstatus) ?_
    cases r with
    | ok u => exact ⟨_, _, rfl, .inr (by decide)⟩
    | error err => exact ⟨_, _, rfl, .inl (by simp)⟩
  | applyFailed hvalidate hos happly hstatus =>
    exact stopped (not_ready_of_applyFailed hvalidate hos happly hstatus)
      ⟨_, _, rfl, .inl (by simp)⟩
  | removeFailed hvalidate _ happly hremove =>
    exact stopped (not_ready_of_removeFailed hvalidate happly hremove) ⟨_, _, rfl, .inl (by simp)⟩
  | readFailed hvalidate _ happly hremove hread =>
    exact stopped (not_ready_of_readFailed hvalidate happly hremove hread)
      ⟨_, _, rfl, .inl (by simp)⟩
  | @reported _ _ _ tr₃ _ _ ready available message _ hvalidate hos happly hremove hread hreport =>
    obtain ⟨hiff, hcount, hout⟩ :=
      ready_iff_of_reported hvalidate hos happly hremove hread hreport
    refine ⟨hiff, fun n hn => ?_, hout⟩
    obtain rfl := hcount n hn
    obtain ⟨rs, -, rfl, -, l, rs', rfl, hl⟩ := readsAll_workloadsAvailable.1 tr₃ _ hread
    exact ⟨l, by simp [Reading.exchange], hl⟩

/-- A small cluster with a single store. -/
def smallCluster : CubeCluster where
  name := "cube"
  ns := "default"
  uid := "uid"
  generation := 1
  spec := {
    modelConfigMap := "model"
    configurationSecret := "configuration"
    cubeStore := {
      remoteStorage := {
        type := "persistentVolume", persistentVolume := some { existingClaim := "claim" } } } }

theorem valid_smallCluster : Valid digitQuantities smallCluster where
  model := by decide
  configuration := by decide
  api := by decide
  refresh := by decide
  workers := by decide
  mode := by decide
  scratch := by decide
  nodePort := by decide
  storage := .inl ⟨rfl, _, rfl, by decide⟩

/-- The answers of a cluster in which everything goes well. -/
def allWell : (call : Call) → Answer call
  | .act _ => .ok ()
  | .getCluster _ _ => .ok smallCluster
  | .get _ => .ok { readyReplicas := some 2 }
  | .httpGet url => .status 200 "OK" url
  | .now => 0

theorem stores_ready_iff_smallCluster :
    ∃ tr out, Exec (reconcile digitQuantities "default" "cube")
        (Exchange.readCluster "default" "cube" (.ok smallCluster) :: tr) out ∧
      ((∃ n, StoredReady tr n) ↔ AllWell digitQuantities smallCluster tr) ∧
      (∀ n, StoredReady tr n → ∃ l,
        Exchange.got (workloadKey smallCluster .deployment "api") (.ok l) ∈ tr ∧
          n = readyReplicas l) ∧
      ((∀ n, ¬StoredReady tr n) →
        ∃ res err, out = .returned res err ∧ (err ≠ none ∨ 0 < res.requeueAfter)) := by
  obtain ⟨tr, hexec, -⟩ :=
    Program.exec_eval allWell (reconcileCluster digitQuantities smallCluster)
  have h := reconcile_of_found "default" "cube" hexec
  exact ⟨tr, _, h, stores_ready_iff h⟩

end CubeOperator.Go
