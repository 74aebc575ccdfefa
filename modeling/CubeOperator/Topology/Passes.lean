import CubeOperator.Go.Pass
import CubeOperator.Kopf.Pass
import CubeOperator.Topology.Server

/-! # Passes and topologies

    What a pass of either controller does to the existing objects: it applies all
    objects of its topology before it deletes those of the other. -/

namespace CubeOperator

open Interaction Kube V1alpha1

/-! ## The Go controller -/

namespace Go

variable {q : Quantities} {c : CubeCluster}

theorem grows_reconcileObject (o : K8s.Object) :
    Grows c.ns c.name o.manifest.key (reconcileObject c o) := by
  rintro s log r ⟨s', log'⟩ ⟨hserves, rfl⟩
  obtain ⟨hsub, hok⟩ := servesObjects_apply hserves
  refine ⟨keeps_of_subset hsub (by simp), hsub, List.prefix_append .., ?_⟩
  cases r with
  | ok u => exact hok rfl
  | error e => exact not_clean_append (by simp) id

theorem shrinks_deleteObject {clustered : Bool} {k : Key}
    (hk : k ∈ storeKeys (!clustered) c.ns c.name) :
    Shrinks c.ns c.name clustered k (deleteObject k) := by
  rintro s log hstore r ⟨s', log'⟩ ⟨hserves, rfl⟩
  obtain ⟨hsub, hsup, hok, hnotFound⟩ := servesObjects_delete hserves
  refine ⟨keeps_of_delete hk hstore hsub, hsub, hsup, List.prefix_append .., ?_⟩
  cases r with
  | ok u => exact fun _ => hok rfl
  | error e =>
    by_cases he : e.isNotFound
    · simp only [he, if_true]
      exact fun _ hmem => hnotFound e rfl he (hsup hmem)
    · simp only [he, Bool.false_eq_true, if_false]
      exact not_clean_append (by simp) he

/-- A valid spec is only refused when a lookup fails. -/
theorem not_clean_of_rejected {tr : List Exchange} {err : GoError} (hvalid : Valid q c)
    (h : Exec (validateReferences q c).run tr (.error err)) : ¬Clean tr := by
  rcases (failsByCalls_validateReferences hvalid).2 tr err h with ⟨hfalse, -⟩ | ⟨tr', ev, rfl, -, e, hev, -⟩
  · exact hfalse.elim
  · obtain ⟨k, hk, r, rfl⟩ := only_validateReferences.of_exec h ev (by simp)
    refine not_clean_append (by simp [hev]) ?_
    cases r with
    | ok l => exact id
    | error e' => exact fun habsent => by simp [IsAbsence, references_kind hk] at habsent

/-- The calls that write the status write no object. -/
theorem only_setStatus_quiet {status : ConditionStatus} {reason message : String} {ready : ℤ} :
    Only (fun e => IsWrite e = false) (setStatus c status reason message ready).run := by
  refine only_setStatus.mono ?_
  rintro e (⟨ns, name, r, rfl⟩ | ⟨t, rfl⟩ | ⟨latest, t, r, rfl⟩) <;> rfl

theorem only_reportReadiness_quiet {ready : ℤ} {available : Bool} {message : String} :
    Only (fun e => IsWrite e = false) (reportReadiness c ready available message) := by
  refine Only.bind (only_readiness.mono ?_) fun r => ?_
  · rintro e ⟨url, a, rfl⟩
    rfl
  · refine Only.bind only_setStatus_quiet fun r => ?_
    cases r <;> trivial

theorem only_validateReferences_quiet :
    Only (fun e => IsWrite e = false) (validateReferences q c).run := by
  refine only_validateReferences.mono ?_
  rintro e ⟨k, -, r, rfl⟩
  rfl

theorem only_workloadsAvailable_quiet :
    Only (fun e => IsWrite e = false) (workloadsAvailable c).run := by
  refine only_workloadsAvailable.mono ?_
  rintro e ⟨k, -, r, rfl⟩
  rfl

/-- The exits that write a status. -/
theorem part_setStatus {clustered : Bool} {valid : Prop} {status : ConditionStatus}
    {reason message : String} {f : Except GoError Unit → Op Outcome}
    {st : Set Key × List Exchange} (hf : ∀ r, Only (fun e => IsWrite e = false) (f r))
    (hst : valid → Done c.ns c.name clustered st) :
    Part c.ns c.name (fun _ st' => valid → Done c.ns c.name clustered st')
      ((setStatus c status reason message 0).run >>= f) st :=
  Part.quiet_done (Only.bind only_setStatus_quiet hf) hst

/-- A pass of the Go controller keeps the topologies, and leaves exactly the objects
    of its spec when no call fails. -/
theorem part_reconcileCluster (s : Set Key) :
    Part c.ns c.name (fun _ st => Valid q c → Done c.ns c.name (isClustered c) st)
      (reconcileCluster q c) (s, []) := by
  refine Ensures.seq (Part.quiet only_validateReferences_quiet s []) fun r st hst => ?_
  obtain ⟨-, tr, hlog, hvalidate⟩ := hst
  cases r with
  | error err =>
    refine part_setStatus (fun r => by cases r <;> trivial) fun hvalid hclean => ?_
    rw [hlog] at hclean
    exact absurd hclean (not_clean_of_rejected hvalid hvalidate)
  | ok u =>
    obtain ⟨os, hos⟩ := exists_objects (exec_validateReferences_ok hvalidate).1
    simp only [hos]
    -- everything is applied before anything is deleted
    refine Ensures.seq (Part.grows grows_reconcileObject os st.1 st.2) fun r st₁ hst₁ => ?_
    obtain ⟨-, -, happlied⟩ := hst₁
    cases r with
    | error err =>
      exact part_setStatus (fun r => by cases r <;> trivial) fun _ hclean => absurd hclean happlied
    | ok u =>
      have hkeys : ∀ k ∈ clusterKeys (isClustered c) c.ns c.name, k ∈ st₁.1 := by
        rw [← objects_keys hos]
        exact happlied
      refine Ensures.seq (Part.shrinks (obsoleteStore c) st₁.1 st₁.2
        (fun k hk => mem_obsoleteStore.mp hk)
        (fun k hk => shrinks_deleteObject (mem_obsoleteStore.mp hk)) hkeys) fun r st₂ hst₂ => ?_
      obtain ⟨hcluster, -, -, hremoved⟩ := hst₂
      cases r with
      | error err => exact fun _ hclean => absurd hclean hremoved
      | ok u =>
        have hdone : Valid q c → Done c.ns c.name (isClustered c) st₂ := fun _ hclean =>
          exact_of_clusterKeys hcluster fun k hk => hremoved hclean k (mem_obsoleteStore.mpr hk)
        refine Part.quiet_done (Only.bind only_workloadsAvailable_quiet fun r => ?_) hdone
        cases r with
        | error err => trivial
        | ok r => exact only_reportReadiness_quiet

end Go

/-! ## The Kopf controller -/

namespace Kopf

variable {q : Quantities} {b : Body}

theorem isWrite_of_isQuery {ns name : String} {e : Exchange} (h : IsQuery ns name e) :
    IsWrite e = false := by
  cases h <;> rfl

/-- API discovery touches no object. -/
theorem part_resourceFor {ns name : String} (kind : Kind) (s : Set Key) (log : List Exchange) :
    Part ns name (fun r st => st.1 = s ∧ log <+: st.2 ∧ Ends (fun _ => True) r st)
      (resourceFor kind).run (s, log) := by
  rintro r ⟨s', log'⟩ ⟨hserves, rfl⟩
  refine ⟨keeps_of_quiet hserves rfl, hserves, List.prefix_append .., ?_⟩
  cases r with
  | ok u => trivial
  | error e => exact not_clean_append (by simp) id

theorem grows_create (ns name : String) (d : Manifest) :
    Grows ns name d.key (act Exc.ofApi (.create d)) := by
  rintro s log r ⟨s', log'⟩ ⟨hserves, rfl⟩
  obtain ⟨hsub, hok⟩ := servesObjects_create hserves
  refine ⟨keeps_of_subset hsub (by simp), hsub, List.prefix_append .., ?_⟩
  cases r with
  | ok u => exact hok rfl
  | error e => exact not_clean_append (by simp) id

/-- A patch succeeds only on an object that exists. -/
theorem grows_patch (ns name : String) (d : Manifest) :
    Grows ns name d.key (act Exc.ofApi (.patch d)) := by
  rintro s log r ⟨s', log'⟩ ⟨⟨hs, hok⟩, rfl⟩
  refine ⟨keeps_of_subset hs.ge (by simp), hs.ge, List.prefix_append .., ?_⟩
  cases r with
  | ok u => exact hs.ge (hok rfl)
  | error e => exact not_clean_append (by simp) id

theorem grows_createOrPatch (ns name : String) (d : Manifest) :
    Grows ns name d.key (createOrPatch d) := by
  rintro s log r ⟨s₁, log₁⟩ ⟨hget, rfl⟩
  refine ⟨keeps_of_quiet hget rfl, ?_⟩
  obtain ⟨hs₁ : s₁ = s, -⟩ := hget
  have hnext {x : OpE Exc Unit} (hx : Grows ns name d.key x) :
      Part ns name (fun r st => s ⊆ st.1 ∧ log <+: st.2 ∧ Ends (fun st => d.key ∈ st.1) r st)
        x.run (s₁, log ++ [⟨.get d.key, r⟩]) := by
    refine (hx s₁ _).mono fun r' st ⟨hsub, hlog, hr⟩ => ?_
    exact ⟨hs₁ ▸ hsub, (List.prefix_append ..).trans hlog, hr⟩
  cases r with
  | ok l => exact hnext (grows_patch ns name d)
  | error e =>
    by_cases he : e.isNotFound
    · simp only [he, if_true]
      exact hnext (grows_create ns name d)
    · simp only [he, Bool.false_eq_true, if_false]
      exact ⟨hs₁.ge, List.prefix_append .., not_clean_append (by simp) fun h => he h.2⟩

theorem grows_applyObject (ns name : String) (owner : OwnerReference) (d : Manifest) :
    Grows ns name d.key (applyObject owner d) := by
  intro s log
  refine Ensures.seqAttempt (part_resourceFor d.kind s log) ?_ fun _ st hst => ?_
  · rintro e st ⟨hs, hlog, hunclean⟩
    exact ⟨hs ▸ subset_rfl, hlog, hunclean⟩
  · obtain ⟨hs, hlog, -⟩ := hst
    refine (grows_createOrPatch ns name (d.ownedBy owner) st.1 st.2).mono fun r st' hst' => ?_
    obtain ⟨hsub, hlog', hr⟩ := hst'
    exact ⟨hs ▸ hsub, hlog.trans hlog', hr⟩

/-- A delete of the other topology.  Discovery answered with a 404 drops the delete,
    but then a call has failed. -/
theorem shrinks_deleteIfPresent {ns name : String} {clustered : Bool} {k : Key}
    (hk : k ∈ storeKeys (!clustered) ns name) :
    Shrinks ns name clustered k (deleteIfPresent k) := by
  intro s log hstore
  refine Ensures.seq (R := fun r st => s \ {k} ⊆ st.1 ∧ st.1 ⊆ s ∧ log <+: st.2 ∧ match r with
      | .ok _ => k ∉ st.1
      | .error exc => (Clean st.2 → k ∉ st.1) ∧ (unlessNotFound exc ≠ .ok () → ¬Clean st.2)) ?_ ?_
  · refine Ensures.seqAttempt (part_resourceFor k.kind s log) ?_ fun _ st hst => ?_
    · rintro exc ⟨s', log'⟩ ⟨rfl, hlog, hunclean⟩
      exact ⟨Set.sdiff_subset, subset_rfl, hlog, fun hclean => absurd hclean hunclean,
        fun _ => hunclean⟩
    · obtain ⟨s', log'⟩ := st
      obtain ⟨rfl, hlog, -⟩ := hst
      rintro r ⟨s'', log''⟩ ⟨hserves, rfl⟩
      obtain ⟨hsub, hsup, hok, hnotFound⟩ := servesObjects_delete hserves
      refine ⟨keeps_of_delete hk hstore hsub, hsub, hsup, hlog.trans (List.prefix_append ..), ?_⟩
      cases r with
      | ok u => exact hok rfl
      | error e =>
        -- only a 404 is dropped, and it says that the object is gone
        by_cases he : e.isNotFound
        · refine ⟨fun _ hmem => hnotFound e rfl he (hsup hmem), fun hkeep => absurd ?_ hkeep⟩
          cases e with
          | status e => simpa [Exc.ofApi, unlessNotFound, ApiError.isNotFound] using he
          | other m => cases he
        · have hunclean : ¬Clean (log' ++ [⟨.act (.delete k), .error e⟩]) :=
            not_clean_append (by simp) he
          exact ⟨fun hclean => absurd hclean hunclean, fun _ => hunclean⟩
  · rintro r st ⟨hsub, hsup, hlog, hr⟩
    refine ⟨hsub, hsup, hlog, ?_⟩
    cases r with
    | ok u => exact fun _ => hr
    | error exc =>
      dsimp only at hr ⊢
      cases hexc : unlessNotFound exc with
      | ok u => exact hr.1
      | error exc' => exact hr.2 (by simp [hexc])

theorem not_clean_of_rejected {ns : String} {tr : List Exchange} {exc : Exc}
    (hvalid : Valid q b.spec) (h : Exec (validateReferences q b.spec ns).run tr (.error exc)) :
    ¬Clean tr := by
  have haccounts : RaisesForCalls (fun _ => False) (validateReferences q b.spec ns) :=
    (raisesAll_validateReferences (.inl hvalid)).forCalls
  rcases haccounts.2 tr exc h with ⟨hfalse, -⟩ | ⟨tr', ev, rfl, -, e, hev, -⟩
  · exact hfalse.elim
  · refine not_clean_append (by simp [hev]) ?_
    rcases only_validateReferences.of_exec h ev (by simp) with ⟨kind, r, rfl⟩ | ⟨k, hk, r, rfl⟩
    · cases r <;> exact id
    · cases r with
      | ok l => exact id
      | error e' => exact fun habsent => by simp [IsAbsence, references_kind hk] at habsent

theorem only_validateReferences_quiet {ns : String} :
    Only (fun e => IsWrite e = false) (validateReferences q b.spec ns).run := by
  refine only_validateReferences.mono ?_
  rintro e (⟨kind, r, rfl⟩ | ⟨k, -, r, rfl⟩) <;> rfl

/-- The `try` block of a pass. -/
theorem part_reconcileObjects (s : Set Key) :
    Part b.ns b.name
      (fun _ st => Valid q b.spec → Done b.ns b.name (isClustered b.spec) st)
      (reconcileObjects q b).run (s, []) := by
  refine Ensures.seqAttempt (Part.quiet only_validateReferences_quiet s []) ?_ fun u st hst => ?_
  · rintro exc st ⟨-, tr, hlog, hvalidate⟩ hvalid hclean
    rw [hlog] at hclean
    exact absurd hclean (not_clean_of_rejected hvalid hvalidate)
  obtain ⟨-, tr, hlog, hvalidate⟩ := hst
  obtain ⟨ds, hds⟩ := exists_desiredObjects (exec_validateReferences_ok hvalidate).1 b.name b.ns
  simp only [desired_eq hds, pure_bind]
  -- everything is applied before anything is deleted
  refine Ensures.seqAttempt
    (Part.grows (fun d => grows_applyObject b.ns b.name _ d) ds st.1 st.2) ?_ fun _ st₁ hst₁ => ?_
  · rintro exc st ⟨-, -, hunclean⟩ - hclean
    exact absurd hclean hunclean
  obtain ⟨-, -, happlied⟩ := hst₁
  have hkeys : ∀ k ∈ clusterKeys (isClustered b.spec) b.ns b.name, k ∈ st₁.1 := by
    rw [← desiredObjects_keys hds]
    exact happlied
  refine Ensures.seqAttempt (Part.shrinks (obsoleteStore b.spec b.name b.ns) st₁.1 st₁.2
    (fun k hk => mem_obsoleteStore.mp hk)
    (fun k hk => shrinks_deleteIfPresent (mem_obsoleteStore.mp hk)) hkeys) ?_ fun _ st₂ hst₂ => ?_
  · rintro exc st ⟨-, -, -, hunclean⟩ - hclean
    exact absurd hclean hunclean
  obtain ⟨hcluster, -, -, hremoved⟩ := hst₂
  refine Part.quiet_done (only_workloadReadiness.mono fun _ => isWrite_of_isQuery) ?_
  exact fun _ hclean => exact_of_clusterKeys hcluster
    fun k hk => hremoved hclean k (mem_obsoleteStore.mpr hk)

/-- A pass of the Kopf controller keeps the topologies, and leaves exactly the objects
    of its spec when no call fails. -/
theorem part_reconcile (s : Set Key) :
    Part b.ns b.name
      (fun _ st => Valid q b.spec → Done b.ns b.name (isClustered b.spec) st)
      (reconcile q b) (s, []) := by
  refine Ensures.seq (part_reconcileObjects s) fun r st hst => ?_
  cases r with
  | error exc =>
    exact Part.quiet_done (only_recover.mono fun _ h => isWrite_of_isQuery (isQuery_of_isReport h)) hst
  | ok r =>
    refine Part.quiet_done (Only.bind ?_ fun _ => trivial) hst
    exact only_reportReadiness.mono fun _ h => isWrite_of_isQuery (isQuery_of_isReport h)

end Kopf

end CubeOperator
