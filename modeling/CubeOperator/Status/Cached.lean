import CubeOperator.Isolation.Footprints
import CubeOperator.Status.Generation

/-! # Status writes from a cache

    The client of the manager reads the CubeCluster from a cache, which may be behind
    the API server.  `setStatus` computes a merge patch from the version it finds there
    and sends it without a resourceVersion, so that no conflict is ever raised: the
    patch is applied to whatever is stored by then. -/

namespace CubeOperator

open Interaction Kube V1alpha1

/-! ## Versions -/

/-- The stored CubeCluster, and the versions that were stored before. -/
structure Versions where
  stored : CubeCluster
  earlier : List CubeCluster

namespace Versions

/-- A new version is stored. -/
def write (v : Versions) (c : CubeCluster) : Versions := ⟨c, v.stored :: v.earlier⟩

/-- A call of the controller.  A read is answered with any version so far; a patch that
    fails may have been made all the same. -/
def Serves (v : Versions) (e : Exchange) (v' : Versions) : Prop :=
  AnswersCluster e ∧
  match e with
  | ⟨.getCluster _ _, .ok c⟩ => c ∈ v.stored :: v.earlier ∧ v' = v
  | ⟨.act (.patchStatus _ _ base modified), r⟩ =>
    v' = v.write { v.stored with status := patchedStatus base modified v.stored.status } ∨
      (r ≠ .ok () ∧ v' = v)
  | _ => v' = v

/-- Somebody else writes the CubeCluster. -/
def Writes (v v' : Versions) : Prop := ∃ c, v' = v.write c

end Versions

/-- The arguments of `setStatus`. -/
structure StatusRequest where
  cluster : CubeCluster
  status : ConditionStatus
  reason : String
  message : String
  ready : ℤ

/-- Calls of `setStatus`, one at a time, and other writers. -/
def updating : Environment Unit StatusRequest Versions Call Answer (Except Go.GoError Unit) where
  program job := (Go.setStatus job.cluster job.status job.reason job.message job.ready).run
  begins _ _ _ := True
  serves := Versions.Serves
  drifts := Versions.Writes

/-! ## What is asked for, and what the cache must know -/

namespace StatusRequest

variable (job : StatusRequest)

/-- The condition is the `Ready` condition that was asked for. -/
def Asks (c : Condition) : Prop :=
  c.status = job.status ∧ c.reason = job.reason ∧ c.message = job.message

/-- The status `after` is as requested and keeps the other conditions of `before`. -/
structure Recorded (before after : CubeClusterStatus) : Prop where
  readyAPIs : after.readyAPIs = job.ready
  endpoint : after.endpoint = Go.endpoint job.cluster
  condition : ∃ c, after.ready = some c ∧ job.Asks c
  others : ∀ c ∈ before.conditions, c.type ≠ "Ready" → c ∈ after.conditions

/-- The cached version has the `Ready` condition already, so that no condition is sent. -/
def AlreadySet (cached : CubeCluster) : Prop :=
  ∃ c, cached.status.ready = some c ∧ job.Asks c ∧ c.observedGeneration = cached.generation

/-- Where the stored status differs from the cached one, the patch does not rely on
    it. -/
structure CacheSuffices (cached : CubeCluster) (stored : CubeClusterStatus) : Prop where
  /-- What the cache shows as requested is not sent. -/
  readyAPIs : cached.status.readyAPIs = job.ready → stored.readyAPIs = job.ready
  endpoint : cached.status.endpoint = Go.endpoint job.cluster →
    stored.endpoint = Go.endpoint job.cluster
  condition : job.AlreadySet cached → ∃ c, stored.ready = some c ∧ job.Asks c
  /-- Conditions are sent as a list, which replaces the stored one. -/
  others : ¬job.AlreadySet cached →
    ∀ c ∈ stored.conditions, c.type ≠ "Ready" → c ∈ cached.status.conditions

end StatusRequest

/-! ## The list of conditions -/

section conditions

variable {t : ℤ} {new : Condition}

/-- Nothing changes when the first condition of the type is the new one already. -/
theorem setStatusCondition_eq_self {cs : List Condition} :
    Go.setStatusCondition t new cs = cs ↔
      ∃ c, cs.find? (fun c => c.type = new.type) = some c ∧
        c = { new with lastTransitionTime := c.lastTransitionTime } := by
  induction cs with
  | nil => simp [Go.setStatusCondition]
  | cons c cs ih =>
    by_cases htype : c.type = new.type
    · rw [Go.setStatusCondition, if_pos htype]
      simp only [List.cons.injEq, and_true, List.find?_cons, htype, decide_true, Option.some.injEq,
        exists_eq_left']
      constructor
      · intro h
        rw [← h]
      · intro h
        have hstatus : c.status = new.status := by rw [h]
        rw [if_pos hstatus]
        exact h.symm
    · rw [Go.setStatusCondition, if_neg htype]
      simp only [List.cons.injEq, true_and, List.find?_cons, htype, decide_false]
      exact ih

/-- Conditions of another type stay, and none is added. -/
theorem mem_setStatusCondition {cs : List Condition} {c : Condition} (hc : c.type ≠ new.type) :
    c ∈ Go.setStatusCondition t new cs ↔ c ∈ cs := by
  induction cs with
  | nil =>
    simp only [Go.setStatusCondition, List.mem_singleton, List.not_mem_nil, iff_false]
    rintro rfl
    exact hc rfl
  | cons c' cs ih =>
    by_cases htype : c'.type = new.type
    · simp only [Go.setStatusCondition, if_pos htype, List.mem_cons]
      constructor
      · rintro (rfl | h)
        · exact absurd rfl hc
        · exact .inr h
      · rintro (rfl | h)
        · exact absurd htype hc
        · exact .inr h
    · simp only [Go.setStatusCondition, if_neg htype, List.mem_cons, ih]

end conditions

/-! ## What the patch leaves -/

section patch

variable {job : StatusRequest} {cached : CubeCluster} {stored : CubeClusterStatus}

/-- A field that is sent only when it differs from the base. -/
theorem sent_iff {α : Type} [DecidableEq α] {base modified stored : α} :
    (if modified = base then stored else modified) = modified ↔
      (base = modified → stored = modified) := by
  by_cases h : modified = base
  · rw [if_pos h]
    exact ⟨fun heq _ => heq, fun heq => heq h.symm⟩
  · rw [if_neg h]
    exact ⟨fun _ heq => absurd heq.symm h, fun _ => rfl⟩

/-- The `Ready` condition that the job stores over the cached version. -/
def StatusRequest.new (job : StatusRequest) (cached : CubeCluster) : Condition where
  type := "Ready"
  status := job.status
  reason := job.reason
  message := job.message
  observedGeneration := cached.generation
  lastTransitionTime := 0

/-- The patch sends no conditions exactly when the cached version has the condition. -/
theorem alreadySet_iff {t : ℤ} :
    Go.setStatusCondition t (job.new cached) cached.status.conditions = cached.status.conditions ↔
      job.AlreadySet cached := by
  rw [setStatusCondition_eq_self]
  constructor
  · rintro ⟨c, hc, heq⟩
    refine ⟨c, hc, ⟨?_, ?_, ?_⟩, ?_⟩ <;> rw [heq] <;> rfl
  · rintro ⟨c, hc, ⟨hstatus, hreason, hmessage⟩, hgeneration⟩
    have htype : c.type = "Ready" := by simpa using List.find?_some hc
    refine ⟨c, hc, ?_⟩
    cases c
    simp only at hstatus hreason hmessage hgeneration htype
    simp only [StatusRequest.new, hstatus, hreason, hmessage, hgeneration, htype]

/-- The patch of the status records the request exactly when the cache suffices. -/
theorem recorded_iff {t : ℤ}
    (hcluster : cached.ns = job.cluster.ns ∧ cached.name = job.cluster.name) :
    job.Recorded stored (patchedStatus cached.status
        (Go.newStatus cached t job.status job.reason job.message job.ready) stored) ↔
      job.CacheSuffices cached stored := by
  have hendpoint : Go.endpoint cached = Go.endpoint job.cluster := by
    simp only [Go.endpoint, hcluster.1, hcluster.2]
  have hnew : (Go.newStatus cached t job.status job.reason job.message job.ready).conditions =
      Go.setStatusCondition t (job.new cached) cached.status.conditions := rfl
  -- the fields are sent one by one
  have hfields : (patchedStatus cached.status
        (Go.newStatus cached t job.status job.reason job.message job.ready) stored).readyAPIs =
        job.ready ↔ (cached.status.readyAPIs = job.ready → stored.readyAPIs = job.ready) := sent_iff
  have haddress : (patchedStatus cached.status
        (Go.newStatus cached t job.status job.reason job.message job.ready) stored).endpoint =
        Go.endpoint job.cluster ↔ (cached.status.endpoint = Go.endpoint job.cluster →
          stored.endpoint = Go.endpoint job.cluster) := by
    rw [← hendpoint]
    exact sent_iff
  by_cases halready : job.AlreadySet cached
  · have hconditions : (patchedStatus cached.status
        (Go.newStatus cached t job.status job.reason job.message job.ready) stored).conditions =
        stored.conditions := by
      simp only [patchedStatus, hnew]
      rw [if_pos (alreadySet_iff.mpr halready)]
    have hready : (patchedStatus cached.status
        (Go.newStatus cached t job.status job.reason job.message job.ready) stored).ready =
        stored.ready := by
      unfold CubeClusterStatus.ready
      rw [hconditions]
    constructor
    · intro h
      refine ⟨hfields.mp h.readyAPIs, haddress.mp h.endpoint, fun _ => ?_, fun hnot => ?_⟩
      · rw [← hready]
        exact h.condition
      · exact absurd halready hnot
    · intro h
      refine ⟨hfields.mpr h.readyAPIs, haddress.mpr h.endpoint, ?_, fun c hc _ => ?_⟩
      · rw [hready]
        exact h.condition halready
      · rw [hconditions]
        exact hc
  · have hconditions : (patchedStatus cached.status
        (Go.newStatus cached t job.status job.reason job.message job.ready) stored).conditions =
        Go.setStatusCondition t (job.new cached) cached.status.conditions := by
      simp only [patchedStatus, hnew]
      rw [if_neg (mt alreadySet_iff.mp halready)]
    constructor
    · intro h
      refine ⟨hfields.mp h.readyAPIs, haddress.mp h.endpoint, fun hset => absurd hset halready,
        fun _ c hc htype => ?_⟩
      have hkept := h.others c hc htype
      rw [hconditions] at hkept
      exact (mem_setStatusCondition htype).mp hkept
    · intro h
      refine ⟨hfields.mpr h.readyAPIs, haddress.mpr h.endpoint, ?_, fun c hc htype => ?_⟩
      · obtain ⟨t', ht'⟩ :=
          Go.find_setStatusCondition t (job.new cached) cached.status.conditions
        refine ⟨{ job.new cached with lastTransitionTime := t' }, ?_, ⟨rfl, rfl, rfl⟩⟩
        unfold CubeClusterStatus.ready
        rw [hconditions]
        exact ht'
      · rw [hconditions]
        exact (mem_setStatusCondition htype).mpr
          (h.others halready c hc htype)

end patch

/-! ## Runs -/

section runs

variable {v₀ : Versions} {S S' : System Unit StatusRequest Versions Call Answer (Except Go.GoError Unit)}
  {run run' : Running StatusRequest Call Answer (Except Go.GoError Unit)} {e : Exchange}

/-- When `setStatus` returns without an error, its last call has patched the status, and
    the request is recorded then exactly when the version it had read last from the cache
    suffices. -/
theorem status_recorded_iff (h : updating.Reachable (Environment.idle v₀) S)
    (hrun : S.thread () = some run) (he : updating.Exchanges () e S S')
    (hrun' : S'.thread () = some run') (hdone : run'.Finished (.ok ())) :
    ∃ cached, (reads run.log).getLast? = some cached ∧
      (run.job.Recorded S.state.stored.status S'.state.stored.status ↔
        run.job.CacheSuffices cached S.state.stored.status) := by
  have hreach : updating.Reachable (Environment.idle v₀) S' := h.tail (.exchange () e he)
  obtain ⟨run₁, run₂, hthread, ⟨job, next, log⟩, ⟨-, hserves⟩, hthread'⟩ := he
  obtain rfl : _ = run := Option.some.inj (hthread.symm.trans hrun)
  obtain rfl : _ = run' := by simpa [hthread'] using hrun'
  -- the log with the last call is a completed run, so it ends with a round of `setStatus`
  have hrest : Exec (next e.2) [] (.ok ()) := by
    have hret : next e.2 = .ret (.ok ()) := hdone
    rw [hret]
    exact .ret _
  have hexec : Exec (updating.program job) (log ++ [e] ++ []) (.ok ()) :=
    hreach.exec (by simp [Environment.Starts, Environment.idle]) hrun' hrest
  rw [List.append_nil] at hexec
  obtain ⟨tr, cached, t, htr⟩ := Go.exec_setStatus_ok hexec
  have hanswers : ∀ v e v', updating.serves v e v' → AnswersCluster e := fun _ _ _ h => h.1
  have hanswered : ∀ e' ∈ log ++ [e], AnswersCluster e' := hreach.answered hanswers hrun'
  obtain ⟨rfl, hlast⟩ := List.append_inj' htr rfl
  obtain rfl := List.singleton_inj.mp hlast
  have hcluster : cached.ns = job.cluster.ns ∧ cached.name = job.cluster.name :=
    hanswered _ (by simp) job.cluster.ns job.cluster.name cached rfl
  have hreads : reads (tr ++ [Exchange.readCluster job.cluster.ns job.cluster.name (.ok cached),
      Exchange.clock t]) = reads tr ++ [cached] := List.filterMap_append ..
  refine ⟨cached, by rw [hreads, List.getLast?_concat], ?_⟩
  have hwritten : S'.state.stored.status = patchedStatus cached.status
      (Go.newStatus cached t job.status job.reason job.message job.ready)
      S.state.stored.status := by
    rcases hserves with hstate | ⟨hne, -⟩
    · rw [hstate]
      rfl
    · exact absurd rfl hne
  rw [hwritten]
  exact recorded_iff hcluster

end runs

/-! ### A cache that is behind -/

/-- What one round of `setStatus` that reads the version `cached` stores. -/
def StatusRequest.storedOver (job : StatusRequest) (cached : CubeCluster)
    (stored : CubeClusterStatus) : CubeClusterStatus :=
  patchedStatus cached.status
    (Go.newStatus cached 0 job.status job.reason job.message job.ready) stored

theorem exists_update (job : StatusRequest) (v : Versions) (cached : CubeCluster)
    (hcached : cached ∈ v.stored :: v.earlier)
    (hcluster : cached.ns = job.cluster.ns ∧ cached.name = job.cluster.name) :
    ∃ S S' run run' e, updating.Reachable (Environment.idle v) S ∧ S.thread () = some run ∧
      updating.Exchanges () e S S' ∧ S'.thread () = some run' ∧ run'.Finished (.ok ()) ∧
      run.job = job ∧ reads run.log = [cached] ∧ S.state = v ∧
      S'.state.stored.status = job.storedOver cached v.stored.status := by
  let before : List Exchange :=
    [.readCluster job.cluster.ns job.cluster.name (.ok cached), .clock 0]
  let patch : Exchange := .did (.patchStatus cached.ns cached.name cached.status
    (Go.newStatus cached 0 job.status job.reason job.message job.ready)) (.ok ())
  let after : Versions :=
    v.write { v.stored with status := job.storedOver cached v.stored.status }
  have hexec : Exec (updating.program job) (before ++ [patch]) (.ok ()) :=
    .call _ (.call _ (.call _ (.ret _)))
  have hread : Versions.Serves v (.readCluster job.cluster.ns job.cluster.name (.ok cached)) v := by
    refine ⟨?_, hcached, rfl⟩
    intro ns name c h
    cases h
    exact hcluster
  have hclock : Versions.Serves v (.clock 0) v := by
    refine ⟨?_, rfl⟩
    intro _ _ _ h
    cases h
  have hpatch : Versions.Serves v patch after := by
    refine ⟨?_, .inl rfl⟩
    intro _ _ _ h
    have hcall := congrArg Sigma.fst h
    cases hcall
  have hreplay : Replay updating.serves v before v := .cons hread (.cons hclock (.nil v))
  obtain ⟨S, S', run, run', hreach, hbefore, hrun, hjob, hlog, he, hafter, hrun', hrest⟩ :=
    Environment.exists_exchange (E := updating) () job trivial hexec
      (Environment.replay_servesLater hreplay) (.inl rfl) hpatch
  have hfinished : run'.Finished (.ok ()) := by
    unfold Running.Finished
    generalize run'.rest = p at hrest
    cases hrest
    rfl
  refine ⟨S, S', run, run', patch, hreach, hrun, he, hrun', hfinished, hjob, ?_, hbefore, ?_⟩
  · rw [hlog]
    rfl
  · rw [hafter]
    rfl

/-- A pass finds everything ready. -/
def reportReady : StatusRequest where
  cluster := Go.smallCluster
  status := .isTrue
  reason := "Available"
  message := "Cube API readiness endpoint is healthy and all workloads are ready"
  ready := 2

/-- The CubeCluster after a first such report. -/
def reportedReady : CubeCluster :=
  { Go.smallCluster with status := reportReady.storedOver Go.smallCluster {} }

/-- The CubeCluster after a later report that not all is ready. -/
def reportedProgressing : CubeCluster :=
  { Go.smallCluster with
    status := Go.newStatus reportedReady 1 .isFalse "Progressing" "API 0/2; refresh 1/1" 0 }

/-- The cache still has the first version when the cluster is ready again: nothing is sent,
    and `Ready` stays `False`. -/
theorem status_lost : ¬∀ (v₀ : Versions)
    (S S' : System Unit StatusRequest Versions Call Answer (Except Go.GoError Unit))
    (run run' : Running StatusRequest Call Answer (Except Go.GoError Unit)) (e : Exchange),
    updating.Reachable (Environment.idle v₀) S → S.thread () = some run →
    updating.Exchanges () e S S' → S'.thread () = some run' → run'.Finished (.ok ()) →
    run.job.Recorded S.state.stored.status S'.state.stored.status := by
  intro h
  obtain ⟨S, S', run, run', e, hreach, hrun, he, hrun', hfinished, hjob, -, -, hstored⟩ :=
    exists_update reportReady ⟨reportedProgressing, [reportedReady, Go.smallCluster]⟩ reportedReady
      (by simp) ⟨rfl, rfl⟩
  have hrecorded := (h _ S S' run run' e hreach hrun he hrun' hfinished).readyAPIs
  rw [hstored, hjob] at hrecorded
  have hzero : (reportReady.storedOver reportedReady reportedProgressing.status).readyAPIs = 0 := rfl
  rw [hzero] at hrecorded
  cases hrecorded

/-- With the stored version in the cache, the report is recorded. -/
theorem status_recorded_iff_current :
    ∃ (S S' : System Unit StatusRequest Versions Call Answer (Except Go.GoError Unit))
      (run : Running StatusRequest Call Answer (Except Go.GoError Unit)) (cached : CubeCluster),
      (reads run.log).getLast? = some cached ∧
      reportReady.CacheSuffices cached S.state.stored.status ∧
      updating.Reachable (Environment.idle ⟨reportedProgressing, [reportedReady, Go.smallCluster]⟩) S ∧
      S.thread () = some run ∧
      reportReady.Recorded S.state.stored.status S'.state.stored.status := by
  obtain ⟨S, S', run, run', e, hreach, hrun, he, hrun', hfinished, hjob, hreads, hstate, -⟩ :=
    exists_update reportReady ⟨reportedProgressing, [reportedReady, Go.smallCluster]⟩
      reportedProgressing (by simp) ⟨rfl, rfl⟩
  obtain ⟨cached, hcached, hiff⟩ := status_recorded_iff hreach hrun he hrun' hfinished
  obtain rfl : reportedProgressing = cached := by simpa [hreads] using hcached
  have hsuffices : reportReady.CacheSuffices reportedProgressing S.state.stored.status := by
    rw [hstate]
    refine ⟨id, id, ?_, fun _ c hc _ => hc⟩
    rintro ⟨c, hc, hasks, -⟩
    exact ⟨c, hc, hasks⟩
  rw [hjob] at hiff
  exact ⟨S, S', run, reportedProgressing, hcached, hsuffices, hreach, hrun, hiff.mpr hsuffices⟩

end CubeOperator
