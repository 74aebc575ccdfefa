import CubeOperator.Kopf.Pass
import CubeOperator.Status.Stored

/-! # Failed passes and the stored condition

    A pass that ends in an error should not leave `Ready=True` behind.  The Go
    controller records an error of validation or of an apply, but returns at once
    when the removal of the obsolete store or the read of a workload fails.  The
    Kopf controller records no error of a call but a 404. -/

namespace CubeOperator

open Interaction Kube V1alpha1

variable {q : Quantities}

/-! ## The Go controller -/

namespace Go

variable {c : CubeCluster} {tr tr' : List Exchange}

/-- `Reconcile` returned an error. -/
def Fails (out : Outcome) : Prop := ∃ result err, out = .returned result (some err)

/-- The status is writable: when the pass writes it, perhaps after conflicts, it is
    stored. -/
def StatusWritable (tr : List Exchange) : Prop :=
  (∃ e ∈ tr, phase e = .status) → ∃ s, ∃ e ∈ tr, Stores s e

/-- No removal failed, and no read of a workload, as far as the pass got. -/
def RemovesAndReads (tr : List Exchange) : Prop :=
  ∀ e ∈ tr, ∀ err, e.error? = some err → (phase e = .remove → err.isNotFound) ∧ phase e ≠ .read

theorem removesAndReads_append :
    RemovesAndReads (tr ++ tr') ↔ RemovesAndReads tr ∧ RemovesAndReads tr' :=
  List.forall_mem_append

theorem removesAndReads_of_phase {p : Phase} (h : InPhase p tr) (hremove : p ≠ .remove)
    (hread : p ≠ .read) : RemovesAndReads tr := by
  intro e he err _
  rw [h e he]
  exact ⟨fun hp => absurd hp hremove, hread⟩

theorem removesAndReads_removes {ks : List Key} (h : List.Forall₂ IsRemoval ks tr) :
    RemovesAndReads tr := by
  intro e he err herr
  obtain ⟨k, -, r, rfl, hgone⟩ := exists_left_of_mem h he
  refine ⟨fun _ => ?_, by simp [phase]⟩
  cases r with
  | ok u => cases herr
  | error err' =>
    cases herr
    exact hgone _ rfl

theorem removesAndReads_reads {rs : List Reading} : RemovesAndReads (rs.map Reading.exchange) := by
  intro e he err herr
  obtain ⟨r, -, rfl⟩ := List.mem_map.mp he
  cases herr

/-- `setStatus` makes a call. -/
theorem exists_status_call {status : ConditionStatus} {reason message : String} {ready : ℤ}
    {r : Except GoError Unit} (h : Exec (setStatus c status reason message ready).run tr r) :
    ∃ e ∈ tr, phase e = .status := by
  obtain ⟨r, tr', rfl, -⟩ := Exec.call_iff.mp h
  exact ⟨_, List.mem_cons_self .., rfl⟩

/-- A writable status is written. -/
theorem StatusWritable.completes {status : ConditionStatus} {reason message : String} {ready : ℤ}
    {r : Except GoError Unit} (h : StatusWritable (tr ++ tr'))
    (hfirst : ∀ e ∈ tr, phase e ≠ .status)
    (hstatus : Exec (setStatus c status reason message ready).run tr' r) : r = .ok () := by
  obtain ⟨e, he, hp⟩ := exists_status_call hstatus
  obtain ⟨s, e', he', hs⟩ := h ⟨e, List.mem_append_right _ he, hp⟩
  refine (storesIfOk_setStatus _ r hstatus).mpr ⟨s, e', ?_, hs⟩
  rcases List.mem_append.mp he' with he' | he'
  · exact absurd (phase_stores hs) (hfirst e' he')
  · exact he'

/-- A pass that stops at a failed removal or read returns an error and leaves the
    status as it was. -/
theorem fails_notReady_of_stopped {s s' : CubeCluster} {err : GoError} {e : Exchange}
    {apiErr : ApiError} (hquiet : ∀ e ∈ tr, phase e ≠ .status) (he : e ∈ tr)
    (herr : e.error? = some apiErr)
    (hphase : (phase e = .remove ∧ ¬apiErr.isNotFound) ∨ phase e = .read)
    (hs : Replay ServesCluster s tr s') :
    (Fails (.returned {} (some err)) → s'.status.isReady = false) ↔
      s.status.isReady = false ∨ RemovesAndReads tr := by
  obtain rfl := replay_unchanged hquiet hs
  have hfailed : ¬RemovesAndReads tr := by
    intro h
    obtain ⟨hremove, hread⟩ := h e he apiErr herr
    rcases hphase with ⟨hp, hnot⟩ | hp
    · exact hnot (hremove hp)
    · exact hread hp
  constructor
  · exact fun h => .inl (h ⟨_, _, rfl⟩)
  · rintro (h | h) -
    · exact h
    · exact absurd h hfailed

/-- A failed pass of the Go controller clears `Ready` unless it failed to remove an
    object or to read a workload. -/
theorem fails_notReady_iff {ns name : String} {out : Outcome} {s s' : CubeCluster}
    (h : Exec (reconcile q ns name) (Exchange.readCluster ns name (.ok c) :: tr) out)
    (hs : Replay ServesCluster s (Exchange.readCluster ns name (.ok c) :: tr) s')
    (hw : StatusWritable tr) :
    (Fails out → s'.status.isReady = false) ↔
      s.status.isReady = false ∨ RemovesAndReads tr := by
  obtain ⟨s₁, ⟨rfl, hread⟩, hrest⟩ := Replay.cons_iff.mp hs
  rw [hread] at hrest
  cases exec_reconcile h with
  | @rejected tr tr₁ err r hvalidate hstatus =>
    have hvalidate := inPhase_validate hvalidate
    have hcalls : RemovesAndReads (tr ++ tr₁) := removesAndReads_append.mpr
      ⟨removesAndReads_of_phase hvalidate (by decide) (by decide),
        removesAndReads_of_phase (inPhase_status hstatus) (by decide) (by decide)⟩
    obtain rfl := hw.completes (hvalidate.ne (by decide)) hstatus
    refine ⟨fun _ => .inr hcalls, ?_⟩
    rintro - ⟨result, err, hout⟩
    cases hout
  | @applyFailed tr tr₁ tr₂ os err err' r hvalidate hos happly hstatus =>
    have hvalidate := inPhase_validate hvalidate
    have happly : InPhase .apply tr₁ := only_applies.of_exec happly
    have hquiet : ∀ e ∈ tr ++ tr₁, phase e ≠ .status :=
      List.forall_mem_append.mpr ⟨hvalidate.ne (by decide), happly.ne (by decide)⟩
    have hcalls := removesAndReads_append.mpr
      ⟨removesAndReads_of_phase hvalidate (by decide) (by decide), removesAndReads_append.mpr
        ⟨removesAndReads_of_phase happly (by decide) (by decide),
          removesAndReads_of_phase (inPhase_status hstatus) (by decide) (by decide)⟩⟩
    refine ⟨fun _ => .inr hcalls, fun _ _ => ?_⟩
    -- the status of the failed apply is written last
    rw [← List.append_assoc] at hw hrest
    obtain ⟨s₂, -, hrest⟩ := Replay.append_iff.mp hrest
    obtain rfl := hw.completes hquiet hstatus
    exact (replay_setStatus hstatus hrest).trans (by decide)
  | @removeFailed tr tr₁ tr₂ os err hvalidate hos happly hremove =>
    obtain ⟨ks₁, k, ks₂, tr₃, e, hks, hfirst, rfl, herr, rfl⟩ := exec_removes_error hremove
    have hremove : InPhase .remove (tr₃ ++ [.did (.delete k) (.error e)]) :=
      (inPhase_remove hfirst).append (InPhase.singleton rfl)
    refine fails_notReady_of_stopped (e := .did (.delete k) (.error e)) ?_ (by simp) rfl
      (.inl ⟨rfl, herr⟩) hrest
    simp only [List.forall_mem_append]
    exact ⟨(inPhase_validate hvalidate).ne (by decide),
      (inPhase_apply happly).ne (by decide),
      List.forall_mem_append.mp (hremove.ne (by decide))⟩
  | @readFailed tr tr₁ tr₂ tr₃ os err hvalidate hos happly hremove hread =>
    obtain ⟨rs, w, ws, e, hws, rfl, rfl⟩ := readsAll_workloadsAvailable.2 tr₃ err hread
    have hkind := expected_kind c w (by rw [hws]; simp)
    have hread : InPhase .read (rs.map Reading.exchange ++ [.got w.1 (.error e)]) :=
      (inPhase_read ⟨_, hws.symm⟩).append (InPhase.singleton (phase_got hkind _))
    refine fails_notReady_of_stopped (e := .got w.1 (.error e)) ?_ (by simp) rfl
      (.inr (phase_got hkind _)) hrest
    simp only [List.forall_mem_append]
    exact ⟨(inPhase_validate hvalidate).ne (by decide),
      (inPhase_apply happly).ne (by decide),
      (inPhase_remove hremove).ne (by decide),
      List.forall_mem_append.mp (hread.ne (by decide))⟩
  | @reported tr tr₁ tr₂ tr₃ tr₄ os ready available message out hvalidate hos happly hremove hread
      hreport =>
    obtain ⟨rs, hws, rfl, -⟩ := readsAll_workloadsAvailable.1 tr₃ _ hread
    obtain ⟨tr₅, tr₆, condition, reason, message', r, rfl, hfetched, hstatus, -, hcondition⟩ :=
      exec_reportReadiness hreport
    have hvalidate := inPhase_validate hvalidate
    have happly := inPhase_apply happly
    have hread : InPhase .read (rs.map Reading.exchange) := inPhase_read (c := c) ⟨[], by simp [hws]⟩
    have hhealth := inPhase_health hfetched
    have hcalls : RemovesAndReads
        (tr ++ (tr₁ ++ (tr₂ ++ (rs.map Reading.exchange ++ (tr₅ ++ tr₆))))) := by
      simp only [removesAndReads_append]
      exact ⟨removesAndReads_of_phase hvalidate (by decide) (by decide),
        removesAndReads_of_phase happly (by decide) (by decide), removesAndReads_removes hremove,
        removesAndReads_reads, removesAndReads_of_phase hhealth (by decide) (by decide),
        removesAndReads_of_phase (inPhase_status hstatus) (by decide) (by decide)⟩
    -- the status is written, so no error is returned
    have hreturns : r = .ok () := by
      have hw : StatusWritable
          (tr ++ (tr₁ ++ (tr₂ ++ (rs.map Reading.exchange ++ tr₅))) ++ tr₆) := by simpa using hw
      refine hw.completes ?_ hstatus
      simp only [List.forall_mem_append]
      exact ⟨hvalidate.ne (by decide), happly.ne (by decide),
        (inPhase_remove hremove).ne (by decide),
        hread.ne (by decide), hhealth.ne (by decide)⟩
    refine ⟨fun _ => .inr hcalls, ?_⟩
    rintro - ⟨result, err, hout⟩
    subst hreturns
    rcases hcondition with ⟨-, -, -, rfl⟩ | ⟨-, -, rfl⟩ <;> cases hout

end Go

/-! ## The Kopf controller -/

namespace Kopf

/-- A failed pass of the Kopf controller clears `Ready` unless a call failed with
    anything but a 404: it raises exactly then, and leaves no status. -/
theorem raises_notReady_iff {b : Body} {tr : List Exchange} {out : Handled}
    (h : Exec (reconcile q b) tr out) (s : CubeClusterStatus) :
    (out.raised ≠ none → (out.patch.getD s).isReady = false) ↔
      s.isReady = false ∨ ∀ ev ∈ tr, Harmless ev := by
  obtain ⟨hraised, hpatch⟩ := exec_reconcile_raised h
  rw [← hraised]
  constructor
  · intro hclears
    by_cases hr : out.raised = none
    · exact .inr hr
    · refine .inl ?_
      simpa [hpatch hr] using hclears hr
  · rintro (hs | hnone) hr
    · simpa [hpatch hr] using hs
    · exact absurd hnone hr

end Kopf

/-! ## Both controllers -/

/-- When a failed pass leaves no stale `Ready=True`.  The Go controller writes the
    status itself; the framework stores the patch a Kopf handler leaves. -/
theorem failed_pass_notReady_iff (q : Quantities) :
    (∀ (ns name : String) (c : CubeCluster) (tr : List Exchange) (out : Go.Outcome)
        (s s' : CubeCluster),
      Exec (Go.reconcile q ns name) (Exchange.readCluster ns name (.ok c) :: tr) out →
      Replay ServesCluster s (Exchange.readCluster ns name (.ok c) :: tr) s' →
      Go.StatusWritable tr →
      ((Go.Fails out → s'.status.isReady = false) ↔
        s.status.isReady = false ∨ Go.RemovesAndReads tr)) ∧
    (∀ (b : Kopf.Body) (tr : List Exchange) (out : Kopf.Handled) (s : CubeClusterStatus),
      Exec (Kopf.reconcile q b) tr out →
      ((out.raised ≠ none → (out.patch.getD s).isReady = false) ↔
        s.isReady = false ∨ ∀ ev ∈ tr, Kopf.Harmless ev)) :=
  ⟨fun _ _ _ _ _ _ _ h hs hw => Go.fails_notReady_iff h hs hw,
    fun _ _ _ s h => Kopf.raises_notReady_iff h s⟩

/-! ### A forbidden delete -/

/-- A cluster that was ready when its status was last written. -/
def readyCluster : CubeCluster :=
  { Go.smallCluster with
    status := {
      observedGeneration := 1
      readyAPIs := 2
      conditions := [{ type := "Ready", status := .isTrue, reason := "Available", message := ""
                       observedGeneration := 1, lastTransitionTime := 0 }] } }

/-- What the Kopf controller is called with for `readyCluster`. -/
def readyBody : Kopf.Body where
  name := "cube"
  ns := "default"
  uid := "uid"
  generation := 1
  spec := {
    modelConfigMap := some "model"
    configurationSecret := some "configuration"
    cubeStore := some {
      remoteStorage := some {
        type := some "persistentVolume"
        persistentVolume := some { existingClaim := some "claim" } } } }
  status := readyCluster.status

/-- An API server that refuses to delete, and grants everything else. -/
def refuseDeletes (s : CubeCluster) : (c : Call) → Answer c × CubeCluster
  | .act (.delete _) => (.error (.status ⟨403, "Forbidden", "Forbidden", "no deletes"⟩), s)
  | .act (.patchStatus _ _ base modified) =>
    (.ok (), { s with status := patchedStatus base modified s.status })
  | .act _ => (.ok (), s)
  | .getCluster _ _ => (.ok s, s)
  | .get _ => (.ok { readyReplicas := some 2 }, s)
  | .httpGet url => (.status 200 "OK" url, s)
  | .now => (0, s)

theorem servesCluster_refuseDeletes (s : CubeCluster) (c : Call) :
    ServesCluster s ⟨c, (refuseDeletes s c).1⟩ (refuseDeletes s c).2 := by
  cases c with
  | act a =>
    cases a with
    | patchStatus ns name base modified => exact .inl rfl
    | _ => rfl
  | getCluster ns name => exact ⟨rfl, rfl⟩
  | _ => rfl

/-- The pass of the Go controller over `readyCluster`. -/
def goRefused : Go.Outcome × List Exchange × CubeCluster :=
  (Go.reconcileCluster digitQuantities readyCluster).runOn refuseDeletes readyCluster

/-- The pass of the Kopf controller over `readyBody`. -/
def kopfRefused : Kopf.Handled × List Exchange × CubeCluster :=
  (Kopf.reconcile digitQuantities readyBody).runOn refuseDeletes readyCluster

theorem goRefused_run :
    Exec (Go.reconcile digitQuantities "default" "cube")
        (Exchange.readCluster "default" "cube" (.ok readyCluster) :: goRefused.2.1) goRefused.1 ∧
      Replay ServesCluster readyCluster
        (Exchange.readCluster "default" "cube" (.ok readyCluster) :: goRefused.2.1) goRefused.2.2 ∧
      Go.StatusWritable goRefused.2.1 := by
  obtain ⟨hexec, hreplay⟩ := Program.runOn_run servesCluster_refuseDeletes
    (Go.reconcileCluster digitQuantities readyCluster) readyCluster
  refine ⟨Go.reconcile_of_found _ _ hexec, .cons ⟨rfl, rfl⟩ hreplay, ?_⟩
  -- the pass does not come to the status
  have hphases : goRefused.2.1.map Go.phase =
      List.replicate 3 .validate ++ List.replicate 7 .apply ++ [.remove] := rfl
  rintro ⟨e, he, hp⟩
  have hmem := List.mem_map_of_mem (f := Go.phase) he
  rw [hphases, hp] at hmem
  simp at hmem

theorem kopfRefused_run :
    Exec (Kopf.reconcile digitQuantities readyBody) kopfRefused.2.1 kopfRefused.1 :=
  (Program.runOn_run servesCluster_refuseDeletes _ _).1

/-- With a forbidden delete both controllers fail and `Ready=True` stays. -/
theorem failed_pass_stays_ready :
    (¬∀ (q : Quantities) (ns name : String) (c : CubeCluster) (tr : List Exchange)
        (out : Go.Outcome) (s s' : CubeCluster),
      Exec (Go.reconcile q ns name) (Exchange.readCluster ns name (.ok c) :: tr) out →
      Replay ServesCluster s (Exchange.readCluster ns name (.ok c) :: tr) s' →
      Go.StatusWritable tr → Go.Fails out → s'.status.isReady = false) ∧
    (¬∀ (q : Quantities) (b : Kopf.Body) (tr : List Exchange) (out : Kopf.Handled)
        (s : CubeClusterStatus),
      Exec (Kopf.reconcile q b) tr out →
      out.raised ≠ none → (out.patch.getD s).isReady = false) := by
  constructor
  · intro h
    obtain ⟨hexec, hreplay, hw⟩ := goRefused_run
    have hfails : Go.Fails goRefused.1 := ⟨_, _, rfl⟩
    have hready : goRefused.2.2.status.isReady = true := rfl
    rw [h _ _ _ _ _ _ _ _ hexec hreplay hw hfails] at hready
    cases hready
  · intro h
    have hraised : kopfRefused.1.raised ≠ none := by
      have : kopfRefused.1.raised = some (.temporaryError "no deletes" 10) := rfl
      simp [this]
    have hready : (kopfRefused.1.patch.getD readyCluster.status).isReady = true := rfl
    rw [h _ _ _ _ readyCluster.status kopfRefused_run hraised] at hready
    cases hready

theorem failed_pass_notReady_iff_refused :
    ((Go.Fails goRefused.1 → goRefused.2.2.status.isReady = false) ↔
      readyCluster.status.isReady = false ∨ Go.RemovesAndReads goRefused.2.1) ∧
    ((kopfRefused.1.raised ≠ none →
        (kopfRefused.1.patch.getD readyCluster.status).isReady = false) ↔
      readyCluster.status.isReady = false ∨ ∀ ev ∈ kopfRefused.2.1, Kopf.Harmless ev) := by
  obtain ⟨hexec, hreplay, hw⟩ := goRefused_run
  obtain ⟨hgo, hkopf⟩ := failed_pass_notReady_iff digitQuantities
  exact ⟨hgo _ _ _ _ _ _ _ hexec hreplay hw, hkopf _ _ _ _ kopfRefused_run⟩

end CubeOperator
