import CubeOperator.Lib.Session
import CubeOperator.Status.Stored

/-! # The generation in the status

    A pass of the Go controller works on the spec it reads first.  `setStatus`
    reads the CubeCluster again and stores the generation it finds then.  Spec
    updates may land in between. -/

namespace CubeOperator

open Interaction Kube V1alpha1

/-! ## Passes and updates -/

/-- The stored CubeCluster, and the spec of every generation so far. -/
structure World where
  stored : CubeCluster
  specs : ℤ → Option CubeClusterSpec

namespace World

/-- A CubeCluster whose earlier generations are not known. -/
def initial (c : CubeCluster) : World :=
  ⟨c, fun g => if g = c.generation then some c.spec else none⟩

/-- A call of the controller. -/
def Serves (w : World) (e : Exchange) (w' : World) : Prop :=
  ServesCluster w.stored e w'.stored ∧ w'.specs = w.specs

/-- The world after the spec has been updated. -/
def update (w : World) (spec : CubeClusterSpec) (generation : ℤ) : World where
  stored := { w.stored with spec := spec, generation := generation }
  specs := Function.update w.specs generation (some spec)

/-- A user updates the spec, which raises the generation. -/
def Updates (w w' : World) : Prop :=
  ∃ spec generation, w.stored.generation < generation ∧ w' = w.update spec generation

/-- The history knows the stored spec, and no later generation. -/
structure Consistent (w : World) : Prop where
  current : w.specs w.stored.generation = some w.stored.spec
  later : ∀ g, w.stored.generation < g → w.specs g = none

end World

/-- One CubeCluster, its controller and its users. -/
def reconciling (q : Quantities) (ns name : String) :
    Environment Unit Unit World Call Answer Go.Outcome where
  program _ := Go.reconcile q ns name
  begins _ _ _ := True
  serves := World.Serves
  drifts := World.Updates

/-! ## What a pass has read -/

/-- The CubeCluster that an exchange read. -/
def clusterRead : Exchange → Option CubeCluster
  | ⟨.getCluster _ _, .ok c⟩ => some c
  | _ => none

/-- The CubeClusters a pass has read so far.  It validates, applies and compares
    against the first. -/
def reads (log : List Exchange) : List CubeCluster := log.filterMap clusterRead

/-- The spec a pass works on is that of the generation `g`. -/
def Agrees (w : World) (log : List Exchange) (g : ℤ) : Prop :=
  ∃ c, (reads log).head? = some c ∧ w.specs g = some c.spec

/-- The spec that was there when `setStatus` read the CubeCluster again is the one
    the pass began with: the updates in between, if any, came back to it. -/
def SpecKept (log : List Exchange) : Prop :=
  ∃ c latest, (reads log).head? = some c ∧ (reads log).getLast? = some latest ∧
    latest.spec = c.spec

theorem reads_append (log : List Exchange) (e : Exchange) :
    reads (log ++ [e]) = reads log ++ (clusterRead e).toList := by
  unfold reads
  rw [List.filterMap_append]
  cases h : clusterRead e <;> simp [h]

/-! ## What a pass stores -/

/-- A status that is stored carries the generation of the CubeCluster read last. -/
def StoresLatest (log : List Exchange) (e : Exchange) : Prop :=
  ∀ st, Go.Stores st e → ∃ latest t status reason message ready,
    (reads log).getLast? = some latest ∧
      st = Go.newStatus latest t status reason message ready

/-- Guarantee of a program that continues the exchanges `log`. -/
abbrev StoresLatestFrom {α : Type} (p : Op α) (log : List Exchange) : Prop :=
  Ensures (fun log e log' => log' = log ++ [e]) (fun log e _ => StoresLatest log e)
    (fun _ _ => True) p log

section stores

variable {q : Quantities} {c : CubeCluster} {α : Type}

/-- A program that writes no status. -/
theorem storesLatestFrom_of_only {E : Exchange → Prop} {p : Op α} (hp : Only E p)
    (hE : ∀ e, E e → Go.phase e ≠ .status) (log : List Exchange) : StoresLatestFrom p log := by
  refine Ensures.of_only (I := fun _ => True) ?_ hp trivial fun _ _ _ _ _ _ => trivial
  intro log e log' he _ _
  exact ⟨trivial, fun st hst => absurd (Go.phase_stores hst) (hE e he)⟩

theorem storesLatest_of_ne {log : List Exchange} {e : Exchange}
    (h : ∀ ns name base modified r, e ≠ .did (.patchStatus ns name base modified) r) :
    StoresLatest log e := by
  rintro st ⟨ns, name, base, rfl⟩
  exact absurd rfl (h ns name base st (.ok ()))

theorem storesLatestFrom_writeStatus {status : ConditionStatus} {reason message : String}
    {ready : ℤ} (log : List Exchange) :
    StoresLatestFrom (Go.writeStatus c status reason message ready).run log := by
  rintro (e | latest) _ rfl
  · exact ⟨storesLatest_of_ne (by simp), trivial⟩
  refine ⟨storesLatest_of_ne (by simp), ?_⟩
  rintro t _ rfl
  refine ⟨storesLatest_of_ne (by simp), ?_⟩
  rintro r _ rfl
  refine ⟨?_, trivial⟩
  rintro st ⟨ns, name, base, h⟩
  cases h
  refine ⟨latest, t, status, reason, message, ready, ?_, rfl⟩
  rw [reads_append, reads_append]
  simp [clusterRead]

theorem storesLatestFrom_retryOnConflict {x : OpE Go.GoError Unit}
    (hx : ∀ log, StoresLatestFrom x.run log) :
    ∀ n log, StoresLatestFrom (Go.retryOnConflict x n).run log
  | 0, log => hx log
  | n + 1, log => by
    refine Ensures.seq (hx log) fun r log' _ => ?_
    cases r with
    | ok u => trivial
    | error err =>
      dsimp only
      split
      · exact storesLatestFrom_retryOnConflict hx n log'
      · trivial

theorem storesLatestFrom_setStatus {status : ConditionStatus} {reason message : String}
    {ready : ℤ} (log : List Exchange) :
    StoresLatestFrom (Go.setStatus c status reason message ready).run log :=
  storesLatestFrom_retryOnConflict storesLatestFrom_writeStatus 4 log

theorem storesLatestFrom_reportReadiness {ready : ℤ} {available : Bool} {message : String}
    (log : List Exchange) : StoresLatestFrom (Go.reportReadiness c ready available message) log := by
  refine Ensures.seq (storesLatestFrom_of_only Go.only_readiness ?_ log) fun r log' _ => ?_
  · rintro e ⟨url, a, rfl⟩
    simp [Go.phase]
  refine Ensures.seq (storesLatestFrom_setStatus log') fun r _ _ => ?_
  cases r <;> trivial

theorem storesLatestFrom_reconcileCluster (log : List Exchange) :
    StoresLatestFrom (Go.reconcileCluster q c) log := by
  refine Ensures.seq (storesLatestFrom_of_only Go.only_validateReferences ?_ log) fun r log₁ _ => ?_
  · rintro e ⟨k, hk, r, rfl⟩
    simp [Go.phase, Go.references_kind hk]
  cases r with
  | error err =>
    refine Ensures.seq (storesLatestFrom_setStatus log₁) fun r _ _ => ?_
    cases r <;> trivial
  | ok u =>
    dsimp only
    cases hos : Go.objects q c with
    | none => trivial
    | some os =>
      refine Ensures.seq (storesLatestFrom_of_only
        Go.only_applies (by simp_all) log₁) fun r log₂ _ => ?_
      cases r with
      | error err =>
        refine Ensures.seq (storesLatestFrom_setStatus log₂) fun r _ _ => ?_
        cases r <;> trivial
      | ok u =>
        refine Ensures.seq (storesLatestFrom_of_only Go.only_removeObsoleteStore (by simp_all) log₂)
          fun r log₃ _ => ?_
        cases r with
        | error err => trivial
        | ok u =>
          refine Ensures.seq (storesLatestFrom_of_only Go.only_workloadsAvailable ?_ log₃)
            fun r log₄ _ => ?_
          · rintro e ⟨k, hk, r, rfl⟩
            simp [Go.phase_got (managedKeys_kind k hk)]
          cases r with
          | error err => trivial
          | ok r => exact storesLatestFrom_reportReadiness log₄

theorem storesLatestFrom_reconcile (ns name : String) :
    StoresLatestFrom (Go.reconcile q ns name) [] := by
  refine Ensures.seq (R := fun _ _ => True) ?_ fun r log _ => ?_
  · rintro r _ rfl
    exact ⟨storesLatest_of_ne (by simp), trivial⟩
  · cases r with
    | error e => trivial
    | ok c => exact storesLatestFrom_reconcileCluster log

end stores

/-! ## The history of the spec -/

section runs

variable {q : Quantities} {ns name : String} {c₀ : CubeCluster}
  {S S' : System Unit Unit World Call Answer Go.Outcome} {e : Exchange}
  {run : Running Unit Call Answer Go.Outcome}

theorem consistent_initial (c : CubeCluster) : (World.initial c).Consistent where
  current := by simp [World.initial]
  later g hg := if_neg (Int.ne_of_gt hg)

/-- The controller does not change the spec. -/
theorem servesCluster_spec {s s' : CubeCluster} (h : ServesCluster s e s') :
    s'.generation = s.generation ∧ s'.spec = s.spec := by
  unfold ServesCluster at h
  split at h
  · rw [h.2]
    exact ⟨rfl, rfl⟩
  · rcases h with rfl | ⟨-, rfl⟩ <;> exact ⟨rfl, rfl⟩
  · rw [h]
    exact ⟨rfl, rfl⟩

/-- A read returns the stored CubeCluster. -/
theorem eq_stored_of_read {s s' c : CubeCluster} (h : ServesCluster s e s')
    (hread : clusterRead e = some c) : c = s := by
  unfold clusterRead at hread
  split at hread
  · obtain rfl := Option.some.inj hread
    exact h.1
  · cases hread

/-- All that a pass has read is in the history, and stays there. -/
theorem reads_known (h : (reconciling q ns name).Reachable (Environment.idle (World.initial c₀)) S) :
    S.state.Consistent ∧ ∀ i run, S.thread i = some run →
      ∀ c ∈ reads run.log, S.state.specs c.generation = some c.spec := by
  refine Environment.Reachable.invariant
    (J := fun w run => ∀ c ∈ reads run.log, w.specs c.generation = some c.spec)
    (fun _ _ _ _ _ c hc => by simp [reads] at hc) ?_
    (fun i j _ _ _ _ _ _ hij => absurd (Subsingleton.elim i j) hij) ?_ h
    (consistent_initial c₀) (by simp [Environment.idle])
  · rintro w _ e _ w' hw hreads ⟨job, next, log⟩ ⟨hserves, hspecs⟩
    obtain ⟨hgeneration, hspec⟩ := servesCluster_spec hserves
    refine ⟨⟨?_, ?_⟩, fun c hc => ?_⟩
    · rw [hspecs, hgeneration, hspec]
      exact hw.current
    · rw [hspecs, hgeneration]
      exact hw.later
    · rw [hspecs]
      rw [reads_append, List.mem_append] at hc
      rcases hc with hc | hc
      · exact hreads c hc
      · obtain rfl := eq_stored_of_read hserves (Option.mem_toList.mp hc)
        exact hw.current
  · rintro w _ hw ⟨spec, generation, hlt, rfl⟩
    refine ⟨⟨by simp [World.update], fun g hg => ?_⟩, fun run hreads c hc => ?_⟩
    · have hne : g ≠ generation := Int.ne_of_gt hg
      simpa [World.update, hne] using hw.later g (Int.lt_trans hlt hg)
    · -- the new generation was not known before
      have hne : c.generation ≠ generation := by
        intro heq
        have hknown := hreads c hc
        rw [heq, hw.later generation hlt] at hknown
        cases hknown
      simpa [World.update, hne] using hreads c hc

/-- A status that is stored is the new one over the CubeCluster read last. -/
theorem exists_latest {st : CubeClusterStatus}
    (h : (reconciling q ns name).Reachable (Environment.idle (World.initial c₀)) S)
    (hrun : S.thread () = some run) (he : (reconciling q ns name).Exchanges () e S S')
    (hst : Go.Stores st e) : ∃ latest t status reason message ready,
      (reads run.log).getLast? = some latest ∧
        st = Go.newStatus latest t status reason message ready :=
  h.exchange (P := fun _ log e => StoresLatest log e)
    (fun _ _ _ _ => storesLatestFrom_reconcile ns name) hrun he st hst

/-- The spec of the stored generation is the one the pass began with exactly when
    `setStatus` has found the same spec. -/
theorem agrees_iff_specKept {st : CubeClusterStatus}
    (h : (reconciling q ns name).Reachable (Environment.idle (World.initial c₀)) S)
    (hrun : S.thread () = some run) (he : (reconciling q ns name).Exchanges () e S S')
    (hst : Go.Stores st e) : Agrees S.state run.log st.observedGeneration ↔ SpecKept run.log := by
  obtain ⟨latest, t, status, reason, message, ready, hlast, rfl⟩ := exists_latest h hrun he hst
  have hknown := (reads_known h).2 () run hrun latest (List.mem_of_getLast? hlast)
  constructor
  · rintro ⟨c, hc, hagrees⟩
    have hspec : some latest.spec = some c.spec := hknown.symm.trans hagrees
    exact ⟨c, latest, hc, hlast, Option.some.inj hspec⟩
  · rintro ⟨c, latest', hc, hlast', hspec⟩
    obtain rfl := Option.some.inj (hlast.symm.trans hlast')
    exact ⟨c, hc, hspec ▸ hknown⟩

/-- The generation that a pass stores is that of the spec it worked on exactly when
    the spec is still the same at the last read of `setStatus`. -/
theorem generation_agrees_iff {st : CubeClusterStatus}
    (h : (reconciling q ns name).Reachable (Environment.idle (World.initial c₀)) S)
    (hrun : S.thread () = some run) (he : (reconciling q ns name).Exchanges () e S S')
    (hst : Go.Stores st e) :
    (∃ condition, st.ready = some condition ∧
      condition.observedGeneration = st.observedGeneration) ∧
    (Agrees S.state run.log st.observedGeneration ↔ SpecKept run.log) := by
  refine ⟨?_, agrees_iff_specKept h hrun he hst⟩
  obtain ⟨latest, t, status, reason, message, ready, -, rfl⟩ := exists_latest h hrun he hst
  obtain ⟨t', ht'⟩ := Go.find_setStatusCondition t
    { type := "Ready", status := status, reason := reason, message := message
      observedGeneration := latest.generation, lastTransitionTime := 0 } latest.status.conditions
  exact ⟨_, ht', rfl⟩

end runs

/-! ### An update during the health request -/

/-- A user moves the cluster to another image. -/
def nextSpec : CubeClusterSpec := { Go.smallCluster.spec with image := "cubejs/cube:next" }

/-- Everything goes well, and while the health request is under way the spec is
    updated. -/
def updateDuringHealth (w : World) : (c : Call) → Answer c × World
  | .act (.patchStatus _ _ base modified) =>
    (.ok (), { w with
      stored := { w.stored with status := patchedStatus base modified w.stored.status } })
  | .act _ => (.ok (), w)
  | .getCluster _ _ => (.ok w.stored, w)
  | .get _ => (.ok { readyReplicas := some 2 }, w)
  | .httpGet url => (.status 200 "OK" url, w.update nextSpec (w.stored.generation + 1))
  | .now => (0, w)

theorem serves_updateDuringHealth (q : Quantities) (ns name : String) (w : World) (c : Call) :
    (reconciling q ns name).ServesLater w ⟨c, (updateDuringHealth w c).1⟩
      (updateDuringHealth w c).2 := by
  cases c with
  | act a =>
    cases a with
    | patchStatus ns name base modified => exact ⟨w, .inl rfl, .inl rfl, rfl⟩
    | _ => exact ⟨w, .inl rfl, rfl, rfl⟩
  | getCluster ns name => exact ⟨w, .inl rfl, ⟨rfl, rfl⟩, rfl⟩
  | get key => exact ⟨w, .inl rfl, rfl, rfl⟩
  | httpGet url =>
    exact ⟨_, .inr ⟨nextSpec, w.stored.generation + 1, Int.lt_succ _, rfl⟩, rfl, rfl⟩
  | now => exact ⟨w, .inl rfl, rfl, rfl⟩

/-- The pass over `smallCluster`, up to the patch of the status and after it. -/
def updatedPass : Go.Outcome × List Exchange × World :=
  (Go.reconcile digitQuantities "default" "cube").runOn updateDuringHealth
    (World.initial Go.smallCluster)

/-- The CubeCluster that `setStatus` finds. -/
def updatedCluster : CubeCluster := { Go.smallCluster with generation := 2, spec := nextSpec }

/-- The status that the pass stores. -/
def updatedStatus : CubeClusterStatus :=
  Go.newStatus updatedCluster 0 .isTrue "Available"
    "Cube API readiness endpoint is healthy and all workloads are ready" 2

/-- The exchange that stores it. -/
def storesUpdated : Exchange :=
  .did (.patchStatus "default" "cube" updatedCluster.status updatedStatus) (.ok ())

theorem updatedPass_log : updatedPass.2.1 = updatedPass.2.1.dropLast ++ [storesUpdated] := rfl

theorem updatedPass_reads :
    reads updatedPass.2.1.dropLast = [Go.smallCluster, updatedCluster] := rfl

/-- The run up to the patch, and the patch. -/
theorem exists_updatedPass :
    ∃ (S S' : System Unit Unit World Call Answer Go.Outcome)
      (run : Running Unit Call Answer Go.Outcome),
      (reconciling digitQuantities "default" "cube").Reachable
        (Environment.idle (World.initial Go.smallCluster)) S ∧
      S.thread () = some run ∧ run.log = updatedPass.2.1.dropLast ∧
      (reconciling digitQuantities "default" "cube").Exchanges () storesUpdated S S' ∧
      S.state.specs 2 = some nextSpec := by
  obtain ⟨hexec, hreplay⟩ := Program.runOn_run
    (serves_updateDuringHealth digitQuantities "default" "cube")
    (Go.reconcile digitQuantities "default" "cube") (World.initial Go.smallCluster)
  change Exec _ updatedPass.2.1 updatedPass.1 at hexec
  change Replay _ _ updatedPass.2.1 updatedPass.2.2 at hreplay
  rw [updatedPass_log] at hexec hreplay
  obtain ⟨w₁, hbefore, hpatch⟩ := Replay.append_iff.mp hreplay
  obtain ⟨w₂, ⟨w, hdrift, hserves⟩, hend⟩ := Replay.cons_iff.mp hpatch
  obtain rfl := Replay.nil_iff.mp hend
  obtain ⟨S, S', run, -, hreach, -, hrun, -, hlog, he, hstate, -⟩ :=
    Environment.exists_exchange (E := reconciling digitQuantities "default" "cube") () () trivial
      hexec hbefore hdrift hserves
  refine ⟨S, S', run, hreach, hrun, hlog, he, ?_⟩
  obtain ⟨_, _, -, -, ⟨-, hspecs⟩, -⟩ := he
  rw [← hspecs, hstate]
  rfl

/-- An update during the health request makes the status claim the new generation,
    while the pass has worked on the old one. -/
theorem generation_disagrees : ¬∀ (q : Quantities) (ns name : String) (c₀ : CubeCluster)
    (S S' : System Unit Unit World Call Answer Go.Outcome)
    (run : Running Unit Call Answer Go.Outcome) (e : Exchange) (st : CubeClusterStatus),
    (reconciling q ns name).Reachable (Environment.idle (World.initial c₀)) S →
    S.thread () = some run → (reconciling q ns name).Exchanges () e S S' →
    Go.Stores st e → st.isReady = true → Agrees S.state run.log st.observedGeneration := by
  intro h
  obtain ⟨S, S', run, hreach, hrun, hlog, he, hspecs⟩ := exists_updatedPass
  obtain ⟨c, hc, hagrees⟩ :=
    h _ _ _ _ _ _ _ _ updatedStatus hreach hrun he ⟨_, _, _, rfl⟩ rfl
  rw [hlog, updatedPass_reads] at hc
  obtain rfl : Go.smallCluster = c := by simpa using hc
  have himages : some nextSpec = some Go.smallCluster.spec := hspecs.symm.trans hagrees
  exact absurd himages (by decide)

theorem generation_agrees_iff_updated :
    ∃ (S : System Unit Unit World Call Answer Go.Outcome)
      (run : Running Unit Call Answer Go.Outcome), run.log = updatedPass.2.1.dropLast ∧
      (∃ condition, updatedStatus.ready = some condition ∧
        condition.observedGeneration = updatedStatus.observedGeneration) ∧
      (Agrees S.state run.log updatedStatus.observedGeneration ↔ SpecKept run.log) := by
  obtain ⟨S, S', run, hreach, hrun, hlog, he, -⟩ := exists_updatedPass
  exact ⟨S, run, hlog, generation_agrees_iff hreach hrun he ⟨_, _, _, rfl⟩⟩

end CubeOperator
