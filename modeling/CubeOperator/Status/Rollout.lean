import CubeOperator.Status.Accepted
import CubeOperator.Status.Failure
import CubeOperator.Status.Generation

/-! # Ready and the rollout

    Both controllers apply the workloads and read their ready replicas in one pass.
    They look neither at the generation that a status is about nor at the template of
    the pods it counts, so that the pods of an earlier spec count for the new one. -/

namespace CubeOperator

open Interaction Kube V1alpha1

/-! ## The Go controller -/

namespace Go

variable {q : Quantities} {merge : Json → Json → Json} {ns name : String} {c : CubeCluster}

/-- The Go controller with its workloads, and edits of the spec. -/
def rollouts (q : Quantities) (merge : Json → Json → Json) (ns name : String) :
    Environment Unit Unit (Rollouts World) Call Answer Outcome :=
  Rollouts.environment merge World.Serves World.Updates (fun _ => reconcile q ns name)
    fun _ _ => True

/-- Without the workloads it is the controller and its CubeCluster. -/
theorem views_rollouts :
    Environment.Views (rollouts q merge ns name) (reconciling q ns name) Rollouts.cluster where
  program _ := rfl
  begins _ _ _ _ := trivial
  serves := by
    rintro s e s' ⟨s₁, -, hserves, -⟩
    exact hserves
  drifts := by
    intro s s' hdrift
    cases hdrift with
    | edit hedit => exact .inr hedit
    | report observed pods hw _ _ => exact .inl rfl

/-! ### Runs -/

/-- The pass has worked on the spec of the generation `g`, and its workloads are rolled
    out. -/
def RolledOutAt (q : Quantities) (s : Rollouts World) (log : List Exchange) (g : ℤ) : Prop :=
  ∃ c os, (reads log).head? = some c ∧ s.cluster.specs g = some c.spec ∧ objects q c = some os ∧
    ∀ w ∈ expected c, s.RollsOut log (os.map (applied c)) w

/-- `Ready=True` is about the rollout of the spec of its generation exactly when the spec
    was kept and the workloads were up to date when they were read. -/
theorem rolledOutAt_iff {c₀ : CubeCluster} {workloads : Key → Option Workload}
    {S S' : System Unit Unit (Rollouts World) Call Answer Outcome}
    {run : Running Unit Call Answer Outcome} {e : Exchange} {st : CubeClusterStatus}
    (h : (rollouts q merge ns name).Reachable
      (Environment.idle (Rollouts.initial (World.initial c₀) workloads)) S)
    (hrun : S.thread () = some run) (he : (rollouts q merge ns name).Exchanges () e S S')
    (hst : Stores st e) (hready : st.isReady = true) :
    RolledOutAt q S.state run.log st.observedGeneration ↔
      SpecKept run.log ∧ ∀ c, (reads run.log).head? = some c → S.state.FoundCaughtUp (expected c) := by
  obtain ⟨hcoherent, hknown⟩ := Rollouts.reachable_known h
  -- without the workloads, the spec is kept or not
  have hcluster : (reconciling q ns name).Reachable (Environment.idle (World.initial c₀))
      (Environment.System.map Rollouts.cluster S) := views_rollouts.reachable h
  have hagrees : Agrees S.state.cluster run.log st.observedGeneration ↔ SpecKept run.log :=
    agrees_iff_specKept hcluster hrun (views_rollouts.exchanges he) hst
  -- the pass goes on in some way
  obtain ⟨run₁, run', hthread, hmakes, -, hthread'⟩ := id he
  obtain rfl := Option.some.inj (hthread.symm.trans hrun)
  have hreach : (rollouts q merge ns name).Reachable _ S' := h.tail (.exchange () e he)
  have hlog : run'.log = run₁.log ++ [e] := by
    cases hmakes
    rfl
  obtain ⟨tr, hrest, -⟩ := Program.exec_eval allWell run'.rest
  have hexec : Exec (reconcile q ns name) (run₁.log ++ e :: tr) (run'.rest.eval allWell) := by
    have hwhole := hreach.exec (by simp [Environment.Starts, Environment.idle])
      (by simp [hthread'] : S'.thread () = some run') hrest
    rw [hlog, ← List.append_cons] at hwhole
    exact hwhole
  obtain ⟨c, log, hfirst⟩ := exists_first hexec hst
  rw [hfirst, List.cons_append] at hexec
  obtain ⟨os, hos, happlied, haccepted⟩ :=
    accepted_of_storesReady (exec_reconcile hexec) rfl hst hready
  have hhead : (reads run₁.log).head? = some c := by
    rw [hfirst]
    rfl
  have hwritten : ∀ w ∈ expected c, w.1.kind.isWorkload ∧
      ∃ d ∈ os.map (applied c), d.key = w.1 ∧ Wrote run₁.log d := by
    intro w hw
    obtain ⟨hkind, o, ho, hkey⟩ := expected_written hos hw
    refine ⟨hkind, applied c o, List.mem_map_of_mem ho, hkey, .apply (applied c o), .inl rfl, ?_⟩
    rw [hfirst]
    exact List.mem_cons_of_mem _ (happlied o ho)
  have hread : ∀ w ∈ expected c, ∃ l, lastRead w.1 run₁.log = some l ∧
      w.2 ≤ l.readyReplicas.getD 0 := by
    intro w hw
    obtain ⟨l, hl, hn⟩ := haccepted w hw
    refine ⟨l, ?_, hn⟩
    rw [hfirst]
    exact hl
  have hiff := Rollouts.rollsOut_iff hcoherent (hknown () run₁ hthread) hwritten hread
  rw [← hagrees]
  constructor
  · rintro ⟨c', os', hc', hspec, hos', hrolls⟩
    obtain rfl := Option.some.inj (hhead.symm.trans hc')
    obtain rfl := Option.some.inj (hos.symm.trans hos')
    refine ⟨⟨c, hhead, hspec⟩, fun c' hc' => ?_⟩
    obtain rfl := Option.some.inj (hhead.symm.trans hc')
    exact hiff.mp hrolls
  · rintro ⟨⟨c', hc', hspec⟩, hcaught⟩
    obtain rfl := Option.some.inj (hhead.symm.trans hc')
    exact ⟨c, os, hhead, hspec, hos, hiff.mpr (hcaught c hhead)⟩

end Go

/-! ## The Kopf controller -/

/-- The generation of the stored CubeCluster, and the spec of every generation so far. -/
structure SpecHistory where
  generation : ℤ
  specs : ℤ → Option Crd.Spec

namespace SpecHistory

/-- A CubeCluster whose earlier generations are not known. -/
def initial (generation : ℤ) (spec : Crd.Spec) : SpecHistory :=
  ⟨generation, fun g => if g = generation then some spec else none⟩

/-- A user updates the spec, which raises the generation. -/
def Updates (h h' : SpecHistory) : Prop :=
  ∃ spec generation, h.generation < generation ∧
    h' = ⟨generation, Function.update h.specs generation (some spec)⟩

/-- No later generation is known. -/
def Current (h : SpecHistory) : Prop := ∀ g, h.generation < g → h.specs g = none

theorem current_initial (generation : ℤ) (spec : Crd.Spec) : (initial generation spec).Current :=
  fun _ hg => if_neg (Int.ne_of_gt hg)

/-- An update keeps the specs of the generations so far. -/
theorem Updates.keeps {h h' : SpecHistory} (hupdate : h.Updates h') (hh : h.Current) :
    h'.Current ∧ ∀ g spec, h.specs g = some spec → h'.specs g = some spec := by
  obtain ⟨spec, generation, hlt, rfl⟩ := hupdate
  constructor
  · intro g hg
    have hne : g ≠ generation := Int.ne_of_gt hg
    simpa [hne] using hh g (Int.lt_trans hlt hg)
  · intro g spec' hg
    have hne : g ≠ generation := by
      rintro rfl
      rw [hh g hlt] at hg
      cases hg
    simpa [hne] using hg

end SpecHistory

namespace Kopf

variable {q : Quantities} {merge : Json → Json → Json} {ns name : String} {spec : Crd.Spec}
  {b : Body}

/-- The Kopf controller with its workloads, and edits of the spec.  The framework calls
    the handler with a version of the CubeCluster. -/
def rollouts (q : Quantities) (merge : Json → Json → Json) (ns name : String) :
    Environment Unit Body (Rollouts SpecHistory) Call Answer Handled :=
  Rollouts.environment merge (fun h _ h' => h' = h) SpecHistory.Updates (reconcile q)
    fun h b => b.ns = ns ∧ b.name = name ∧ h.specs b.generation = some b.spec

/-! ### Runs -/

/-- The spec that a pass works on stays the one of its generation. -/
theorem reachable_specs {generation : ℤ} {spec₀ : Crd.Spec} {workloads : Key → Option Workload}
    {S : System Unit Body (Rollouts SpecHistory) Call Answer Handled}
    (h : (rollouts q merge ns name).Reachable
      (Environment.idle (Rollouts.initial (SpecHistory.initial generation spec₀) workloads)) S) :
    S.state.cluster.Current ∧ ∀ i run, S.thread i = some run →
      S.state.cluster.specs run.job.generation = some run.job.spec := by
  have hbegin : ∀ i s job, (rollouts q merge ns name).begins i s job →
      s.cluster.specs job.generation = some job.spec := fun _ _ _ h => h.2.2
  refine Environment.Reachable.invariant (I := fun s => s.cluster.Current)
    (J := fun s run => s.cluster.specs run.job.generation = some run.job.spec)
    (fun i s job h _ => hbegin i s job h) ?_
    (fun i j _ _ _ _ _ _ hij => absurd (Subsingleton.elim i j) hij) ?_ h
    (SpecHistory.current_initial generation spec₀) (by simp [Environment.idle])
  · rintro s _ e _ s' hs hspecs ⟨job, next, log⟩ ⟨s₁, -, hcluster, -⟩
    rw [hcluster]
    exact ⟨hs, hspecs⟩
  · intro s s' hs hdrift
    cases hdrift with
    | edit hedit =>
      obtain ⟨hcurrent, hkeeps⟩ := hedit.keeps hs
      exact ⟨hcurrent, fun run hrun => hkeeps _ _ hrun⟩
    | report observed pods hw _ _ => exact ⟨hs, fun run hrun => hrun⟩

/-- The pass has worked on the spec of the generation `g`, and its workloads are rolled
    out. -/
def RolledOutAt (b : Body) (s : Rollouts SpecHistory) (log : List Exchange) (g : ℤ) : Prop :=
  ∃ ds, s.cluster.specs g = some b.spec ∧ desiredObjects b.name b.ns b.spec = some ds ∧
    ∀ w ∈ expected b.spec b.name b.ns,
      s.RollsOut log (ds.map fun d => d.ownedBy (ownerReference b.name b.uid)) w

/-- `Ready=True` is about the rollout of the spec of its generation exactly when the
    workloads were up to date when they were read. -/
theorem rolledOutAt_iff {generation : ℤ} {spec₀ : Crd.Spec} {workloads : Key → Option Workload}
    {S : System Unit Body (Rollouts SpecHistory) Call Answer Handled}
    {run : Running Body Call Answer Handled} {out : Handled} {st : StatusPatch}
    (h : (rollouts q merge ns name).Reachable
      (Environment.idle (Rollouts.initial (SpecHistory.initial generation spec₀) workloads)) S)
    (hrun : S.thread () = some run) (hdone : run.Finished out) (hpatch : out.patch = some st)
    (hready : st.isReady = true) :
    RolledOutAt run.job S.state run.log st.observedGeneration ↔
      S.state.FoundCaughtUp (expected run.job.spec run.job.name run.job.ns) := by
  obtain ⟨hcoherent, hknown⟩ := Rollouts.reachable_known h
  have hspec := (reachable_specs h).2 () run hrun
  have hexec : Exec (reconcile q run.job) (run.log ++ []) out := by
    refine h.exec (by simp [Environment.Starts, Environment.idle]) hrun ?_
    have hret : run.rest = .ret out := hdone
    rw [hret]
    exact .ret out
  rw [List.append_nil] at hexec
  obtain ⟨hgeneration, ds, hds, hwrote, haccepted⟩ := accepted_of_reportsReady hexec hpatch hready
  have hwritten : ∀ w ∈ expected run.job.spec run.job.name run.job.ns, w.1.kind.isWorkload ∧
      ∃ d ∈ ds.map fun d => d.ownedBy (ownerReference run.job.name run.job.uid),
        d.key = w.1 ∧ Wrote run.log d := by
    intro w hw
    obtain ⟨hkind, d, hd, hkey⟩ := expected_written hds hw
    exact ⟨hkind, _, List.mem_map_of_mem hd, hkey, hwrote d hd⟩
  have hiff := Rollouts.rollsOut_iff hcoherent (hknown () run hrun) hwritten haccepted
  constructor
  · rintro ⟨ds', -, hds', hrolls⟩
    obtain rfl := Option.some.inj (hds.symm.trans hds')
    exact hiff.mp hrolls
  · intro hcaught
    exact ⟨ds, hgeneration ▸ hspec, hds, hiff.mpr hcaught⟩

end Kopf

/-! ## Both controllers -/

/-- When `Ready=True` is about the rollout of the spec whose generation comes with it.
    The Go controller stores the status itself; the framework stores the patch that a
    Kopf handler leaves. -/
theorem ready_rolledOut_iff (q : Quantities) (merge : Json → Json → Json) (ns name : String) :
    (∀ (c₀ : CubeCluster) (workloads : Key → Option Workload)
        (S S' : System Unit Unit (Rollouts World) Call Answer Go.Outcome)
        (run : Running Unit Call Answer Go.Outcome) (e : Exchange) (st : CubeClusterStatus),
      (Go.rollouts q merge ns name).Reachable
        (Environment.idle (Rollouts.initial (World.initial c₀) workloads)) S →
      S.thread () = some run → (Go.rollouts q merge ns name).Exchanges () e S S' →
      Go.Stores st e → st.isReady = true →
      (Go.RolledOutAt q S.state run.log st.observedGeneration ↔
        SpecKept run.log ∧
          ∀ c, (reads run.log).head? = some c → S.state.FoundCaughtUp (Go.expected c))) ∧
    (∀ (generation : ℤ) (spec₀ : Crd.Spec) (workloads : Key → Option Workload)
        (S : System Unit Kopf.Body (Rollouts SpecHistory) Call Answer Kopf.Handled)
        (run : Running Kopf.Body Call Answer Kopf.Handled) (out : Kopf.Handled)
        (st : Kopf.StatusPatch),
      (Kopf.rollouts q merge ns name).Reachable
        (Environment.idle (Rollouts.initial (SpecHistory.initial generation spec₀) workloads)) S →
      S.thread () = some run → run.Finished out → out.patch = some st → st.isReady = true →
      (Kopf.RolledOutAt run.job S.state run.log st.observedGeneration ↔
        S.state.FoundCaughtUp (Kopf.expected run.job.spec run.job.name run.job.ns))) :=
  ⟨fun _ _ _ _ _ _ _ h hrun he hst hready => Go.rolledOutAt_iff h hrun he hst hready,
    fun _ _ _ _ _ _ _ h hrun hdone hpatch hready =>
      Kopf.rolledOutAt_iff h hrun hdone hpatch hready⟩

/-! ### The pods of the old image -/

/-- The answers about the CubeCluster, and a healthy API. -/
def answerWorld (w : World) : (c : Call) → Answer c × World
  | .act (.patchStatus _ _ base modified) =>
    (.ok (), { w with
      stored := { w.stored with status := patchedStatus base modified w.stored.status } })
  | .act _ => (.ok (), w)
  | .getCluster _ _ => (.ok w.stored, w)
  | .get _ => (.ok {}, w)
  | .httpGet url => (.status 200 "OK" url, w)
  | .now => (0, w)

/-- The pass that brings the cluster up. -/
def goFirstPass : Go.Outcome × List Exchange × Rollouts World :=
  (Go.reconcile digitQuantities "default" "cube").runOn (Rollouts.serveSettled answerWorld)
    (Rollouts.initial (World.initial Go.smallCluster) fun _ => none)

/-- Then the cluster is moved to another image. -/
def goEdited : Rollouts World :=
  { goFirstPass.2.2 with cluster := goFirstPass.2.2.cluster.update nextSpec 2 }

/-- The pass over the new spec, before the workload controllers have seen it. -/
def goSecondPass : Go.Outcome × List Exchange × Rollouts World :=
  (Go.reconcile digitQuantities "default" "cube").runOn (Rollouts.serve answerWorld) goEdited

/-- The status that an exchange stores. -/
def storedStatus : Exchange → Option CubeClusterStatus
  | ⟨.act (.patchStatus _ _ _ modified), .ok ()⟩ => some modified
  | _ => none

theorem stores_of_storedStatus {e : Exchange} {st : CubeClusterStatus}
    (h : storedStatus e = some st) : Go.Stores st e := by
  unfold storedStatus at h
  split at h
  · obtain rfl := Option.some.inj h
    exact ⟨_, _, _, rfl⟩
  · cases h

/-- The pass has stored `Ready=True` last. -/
theorem goSecondPass_stores :
    (goSecondPass.2.1.getLast?.bind storedStatus).map CubeClusterStatus.isReady = some true := by
  decide +kernel

/-- The generation that the status of the API's workload is about when the pass reads it, and
    the one the pass has written. -/
theorem goSecondPass_generations :
    ((reads goSecondPass.2.1).head?.bind fun c =>
      (goSecondPass.2.2.found (Go.workloadKey c .deployment "api")).map Workload.observedGeneration) =
        some 1 ∧
    ((reads goSecondPass.2.1).head?.bind fun c =>
      (goSecondPass.2.2.applied (Go.workloadKey c .deployment "api")).map Workload.generation) =
        some 2 := by
  decide +kernel

theorem serves_answerWorld (w : World) (c : Call) :
    World.Serves w ⟨c, (answerWorld w c).1⟩ (answerWorld w c).2 := by
  cases c with
  | act a =>
    cases a with
    | patchStatus ns name base modified => exact ⟨.inl rfl, rfl⟩
    | _ => exact ⟨rfl, rfl⟩
  | getCluster ns name => exact ⟨⟨rfl, rfl⟩, rfl⟩
  | _ => exact ⟨rfl, rfl⟩

theorem serves_objectCall (w : World) (c : Call) (r : Answer c) (h : IsObjectCall c) :
    World.Serves w ⟨c, r⟩ w := by
  rcases h with ⟨k, rfl⟩ | ⟨a, k, rfl, hk⟩
  · exact ⟨rfl, rfl⟩
  · cases a with
    | patchStatus ns name base modified => cases hk
    | _ => exact ⟨rfl, rfl⟩

/-- The run of both passes, up to the last call. -/
theorem exists_goSecondPass :
    ∃ (S S' : System Unit Unit (Rollouts World) Call Answer Go.Outcome)
      (run : Running Unit Call Answer Go.Outcome) (e : Exchange) (st : CubeClusterStatus),
      (Go.rollouts digitQuantities (fun _ desired => desired) "default" "cube").Reachable
        (Environment.idle (Rollouts.initial (World.initial Go.smallCluster) fun _ => none)) S ∧
      S.thread () = some run ∧
      (Go.rollouts digitQuantities (fun _ desired => desired) "default" "cube").Exchanges () e S S' ∧
      Go.Stores st e ∧ st.isReady = true ∧ reads run.log = reads goSecondPass.2.1 ∧
      S.state.found = goSecondPass.2.2.found ∧ S.state.applied = goSecondPass.2.2.applied := by
  let program : Unit → Op Go.Outcome := fun _ => Go.reconcile digitQuantities "default" "cube"
  have hfirst : (program ()).runOn (Rollouts.serveSettled answerWorld)
      (Rollouts.initial (World.initial Go.smallCluster) fun _ => none) = goFirstPass := rfl
  have hsecond : (program ()).runOn (Rollouts.serve answerWorld) goEdited = goSecondPass := rfl
  have hedit : World.Updates goFirstPass.2.2.cluster (goFirstPass.2.2.cluster.update nextSpec 2) :=
    ⟨nextSpec, 2, by decide +kernel, rfl⟩
  have hedited := Rollouts.reachable_pass_edit program (fun _ _ => True) serves_answerWorld
    serves_objectCall _ () trivial hfirst hedit
  obtain ⟨st, hstored, hready⟩ := Option.map_eq_some_iff.mp goSecondPass_stores
  obtain ⟨e, hlast, hst⟩ := Option.bind_eq_some_iff.mp hstored
  obtain ⟨log, hlog⟩ := List.getLast?_eq_some_iff.mp hlast
  obtain ⟨S, S', run, hreach, hrun, hrunlog, he, hstate⟩ :=
    Rollouts.exists_last_exchange World.Updates program (fun _ _ => True) serves_answerWorld
      serves_objectCall goEdited () trivial hsecond hlog
  have hstores := stores_of_storedStatus hst
  -- the last call does not touch the workloads
  have hsame : S'.state.found = S.state.found ∧ S'.state.applied = S.state.applied := by
    obtain ⟨ns, name, base, rfl⟩ := hstores
    obtain ⟨_, _, -, -, ⟨s₁, heffect, -, hs₁⟩, -⟩ := he
    rw [hs₁]
    cases heffect with
    | write r ha => cases ha
    | other htarget hread => exact ⟨rfl, rfl⟩
  refine ⟨S, S', run, e, st, hedited.trans hreach, hrun, he, hstores, hready, ?_, ?_, ?_⟩
  · obtain ⟨ns, name, base, rfl⟩ := hstores
    rw [hrunlog, hlog, reads_append]
    simp [clusterRead]
  · rw [← hsame.1, hstate]
  · rw [← hsame.2, hstate]

/-- The answers of a healthy API. -/
def answerHistory (h : SpecHistory) : (c : Call) → Answer c × SpecHistory
  | .act _ => (.ok (), h)
  | .getCluster _ _ => (.error .notFound, h)
  | .get _ => (.ok {}, h)
  | .httpGet url => (.status 200 "OK" url, h)
  | .now => (0, h)

/-- What the handler is called with once the image is another. -/
def nextBody : Kopf.Body :=
  { readyBody with generation := 2, spec := { readyBody.spec with image := some "cubejs/cube:next" } }

/-- The pass that brings the cluster up. -/
def kopfFirstPass : Kopf.Handled × List Exchange × Rollouts SpecHistory :=
  (Kopf.reconcile digitQuantities readyBody).runOn (Rollouts.serveSettled answerHistory)
    (Rollouts.initial (SpecHistory.initial 1 readyBody.spec) fun _ => none)

/-- Then the cluster is moved to another image. -/
def kopfEdited : Rollouts SpecHistory :=
  { kopfFirstPass.2.2 with
    cluster := ⟨2, Function.update kopfFirstPass.2.2.cluster.specs 2 (some nextBody.spec)⟩ }

/-- The pass over the new spec, before the workload controllers have seen it. -/
def kopfSecondPass : Kopf.Handled × List Exchange × Rollouts SpecHistory :=
  (Kopf.reconcile digitQuantities nextBody).runOn (Rollouts.serve answerHistory) kopfEdited

/-- The pass has left `Ready=True`. -/
theorem kopfSecondPass_reports :
    kopfSecondPass.1.patch.map CubeClusterStatus.isReady = some true := by
  decide +kernel

theorem kopfSecondPass_generations :
    (kopfSecondPass.2.2.found (Kopf.workloadKey .deployment "cube" "api" "default")).map
        Workload.observedGeneration = some 1 ∧
      (kopfSecondPass.2.2.applied (Kopf.workloadKey .deployment "cube" "api" "default")).map
        Workload.generation = some 2 := by
  decide +kernel

/-- The run of both passes. -/
theorem exists_kopfSecondPass :
    ∃ (S : System Unit Kopf.Body (Rollouts SpecHistory) Call Answer Kopf.Handled)
      (run : Running Kopf.Body Call Answer Kopf.Handled) (st : Kopf.StatusPatch),
      (Kopf.rollouts digitQuantities (fun _ desired => desired) "default" "cube").Reachable
        (Environment.idle (Rollouts.initial (SpecHistory.initial 1 readyBody.spec) fun _ => none)) S ∧
      S.thread () = some run ∧ run.Finished kopfSecondPass.1 ∧ kopfSecondPass.1.patch = some st ∧
      st.isReady = true ∧ run.job = nextBody ∧ S.state = kopfSecondPass.2.2 := by
  let begins : SpecHistory → Kopf.Body → Prop := fun h b =>
    b.ns = "default" ∧ b.name = "cube" ∧ h.specs b.generation = some b.spec
  let serves : SpecHistory → Exchange → SpecHistory → Prop := fun h _ h' => h' = h
  have hanswer : ∀ h c, serves h ⟨c, (answerHistory h c).1⟩ (answerHistory h c).2 := by
    intro h c
    cases c <;> rfl
  have hobjects : ∀ h c (r : Answer c), IsObjectCall c → serves h ⟨c, r⟩ h := fun _ _ _ _ => rfl
  have hfirst : (Kopf.reconcile digitQuantities readyBody).runOn
      (Rollouts.serveSettled answerHistory)
      (Rollouts.initial (SpecHistory.initial 1 readyBody.spec) fun _ => none) = kopfFirstPass := rfl
  have hsecond : (Kopf.reconcile digitQuantities nextBody).runOn (Rollouts.serve answerHistory)
      kopfEdited = kopfSecondPass := rfl
  have hedit : SpecHistory.Updates kopfFirstPass.2.2.cluster
      ⟨2, Function.update kopfFirstPass.2.2.cluster.specs 2 (some nextBody.spec)⟩ :=
    ⟨nextBody.spec, 2, by decide +kernel, rfl⟩
  have hedited := Rollouts.reachable_pass_edit (Kopf.reconcile digitQuantities) begins hanswer
    hobjects _ readyBody ⟨rfl, rfl, rfl⟩ hfirst hedit
  obtain ⟨st, hpatch, hready⟩ := Option.map_eq_some_iff.mp kopfSecondPass_reports
  obtain ⟨S, run, hreach, hrun, hjob, hdone, hstate⟩ :=
    Rollouts.exists_whole_pass SpecHistory.Updates (Kopf.reconcile digitQuantities) begins hanswer
      hobjects kopfEdited nextBody ⟨rfl, rfl, rfl⟩ hsecond
  exact ⟨S, run, st, hedited.trans hreach, hrun, hdone, hpatch, hready, hjob, hstate⟩

/-- With either controller the ready pods of the old image make the new spec ready. -/
theorem old_pods_counted :
    (¬∀ (q : Quantities) (merge : Json → Json → Json) (ns name : String) (c₀ : CubeCluster)
        (S S' : System Unit Unit (Rollouts World) Call Answer Go.Outcome)
        (run : Running Unit Call Answer Go.Outcome) (e : Exchange) (st : CubeClusterStatus),
      (Go.rollouts q merge ns name).Reachable
        (Environment.idle (Rollouts.initial (World.initial c₀) fun _ => none)) S →
      S.thread () = some run → (Go.rollouts q merge ns name).Exchanges () e S S' →
      Go.Stores st e → st.isReady = true →
      Go.RolledOutAt q S.state run.log st.observedGeneration) ∧
    (¬∀ (q : Quantities) (merge : Json → Json → Json) (ns name : String) (generation : ℤ)
        (spec₀ : Crd.Spec) (S : System Unit Kopf.Body (Rollouts SpecHistory) Call Answer Kopf.Handled)
        (run : Running Kopf.Body Call Answer Kopf.Handled) (out : Kopf.Handled)
        (st : Kopf.StatusPatch),
      (Kopf.rollouts q merge ns name).Reachable
        (Environment.idle (Rollouts.initial (SpecHistory.initial generation spec₀) fun _ => none)) S →
      S.thread () = some run → run.Finished out → out.patch = some st → st.isReady = true →
      Kopf.RolledOutAt run.job S.state run.log st.observedGeneration) := by
  -- the status found for the API is about generation 1, and generation 2 was applied
  have hstale {σ : Type} {s : Rollouts σ} {k : Key} {n : ℤ}
      (hfound : (s.found k).map Workload.observedGeneration = some 1)
      (happlied : (s.applied k).map Workload.generation = some 2) : ¬s.RolledOut k n := by
    rintro ⟨desired, found, hdesired, hread, hobserved, -⟩
    rw [hread] at hfound
    rw [hdesired] at happlied
    obtain ⟨hone, htwo⟩ : found.observedGeneration = 1 ∧ desired.generation = 2 :=
      ⟨Option.some.inj hfound, Option.some.inj happlied⟩
    omega
  constructor
  · intro h
    obtain ⟨S, S', run, e, st, hreach, hrun, he, hst, hready, hreads, hfound, happlied⟩ :=
      exists_goSecondPass
    obtain ⟨c, os, hc, -, -, hrolls⟩ := h _ _ _ _ _ S S' run e st hreach hrun he hst hready
    obtain ⟨hobserved, hgeneration⟩ := goSecondPass_generations
    rw [hreads] at hc
    rw [hc, ← hfound] at hobserved
    rw [hc, ← happlied] at hgeneration
    exact hstale hobserved hgeneration (hrolls _ (List.mem_cons_self ..)).rolledOut
  · intro h
    obtain ⟨S, run, st, hreach, hrun, hdone, hpatch, hready, hjob, hstate⟩ := exists_kopfSecondPass
    obtain ⟨ds, -, -, hrolls⟩ := h _ _ _ _ _ _ S run _ st hreach hrun hdone hpatch hready
    obtain ⟨hobserved, hgeneration⟩ := kopfSecondPass_generations
    rw [hjob, hstate] at hrolls
    exact hstale hobserved hgeneration (hrolls _ (List.mem_cons_self ..)).rolledOut

theorem ready_rolledOut_iff_secondPass :
    (∃ (S : System Unit Unit (Rollouts World) Call Answer Go.Outcome)
      (run : Running Unit Call Answer Go.Outcome) (st : CubeClusterStatus),
      reads run.log = reads goSecondPass.2.1 ∧ S.state.found = goSecondPass.2.2.found ∧
      (Go.RolledOutAt digitQuantities S.state run.log st.observedGeneration ↔
        SpecKept run.log ∧
          ∀ c, (reads run.log).head? = some c → S.state.FoundCaughtUp (Go.expected c))) ∧
    (∃ (run : Running Kopf.Body Call Answer Kopf.Handled) (st : Kopf.StatusPatch),
      run.job = nextBody ∧ kopfSecondPass.1.patch = some st ∧
      (Kopf.RolledOutAt run.job kopfSecondPass.2.2 run.log st.observedGeneration ↔
        kopfSecondPass.2.2.FoundCaughtUp
          (Kopf.expected run.job.spec run.job.name run.job.ns))) := by
  obtain ⟨hgo, hkopf⟩ :=
    ready_rolledOut_iff digitQuantities (fun _ desired => desired) "default" "cube"
  constructor
  · obtain ⟨S, S', run, e, st, hreach, hrun, he, hst, hready, hreads, hfound, -⟩ :=
      exists_goSecondPass
    exact ⟨S, run, st, hreads, hfound, hgo _ _ S S' run e st hreach hrun he hst hready⟩
  · obtain ⟨S, run, st, hreach, hrun, hdone, hpatch, hready, hjob, hstate⟩ := exists_kopfSecondPass
    refine ⟨run, st, hjob, hpatch, ?_⟩
    rw [← hstate]
    exact hkopf _ _ _ S run _ st hreach hrun hdone hpatch hready

end CubeOperator
