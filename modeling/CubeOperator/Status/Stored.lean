import CubeOperator.Go.Readiness

/-! # The stored CubeCluster

    What the calls of the Go controller do to the CubeCluster in the API server:
    reads return it, and a status patch changes its status. -/

namespace CubeOperator

open Interaction Kube V1alpha1

/-! ## Status patches -/

/-- The merge patch of a status: it sends the fields in which `modified` differs from
    `base`, a list as a whole, and they replace what is stored. -/
def patchedStatus (base modified stored : CubeClusterStatus) : CubeClusterStatus where
  observedGeneration :=
    if modified.observedGeneration = base.observedGeneration then stored.observedGeneration
    else modified.observedGeneration
  readyAPIs :=
    if modified.readyAPIs = base.readyAPIs then stored.readyAPIs else modified.readyAPIs
  endpoint := if modified.endpoint = base.endpoint then stored.endpoint else modified.endpoint
  conditions :=
    if modified.conditions = base.conditions then stored.conditions else modified.conditions

/-- A patch of the status it was computed from gives the modified one. -/
@[simp] theorem patchedStatus_self (base modified : CubeClusterStatus) :
    patchedStatus base modified base = modified := by
  cases modified
  simp only [patchedStatus, CubeClusterStatus.mk.injEq]
  refine ⟨?_, ?_, ?_, ?_⟩ <;> split <;> simp_all

/-! ## Serving the calls -/

/-- The stored CubeCluster before and after a call.  A patch that fails may have been
    made all the same, as when the answer is lost. -/
def ServesCluster (s : CubeCluster) (e : Exchange) (s' : CubeCluster) : Prop :=
  match e with
  | ⟨.getCluster _ _, .ok c⟩ => c = s ∧ s' = s
  | ⟨.act (.patchStatus _ _ base modified), r⟩ =>
    s' = { s with status := patchedStatus base modified s.status } ∨ (r ≠ .ok () ∧ s' = s)
  | _ => s' = s

/-- Only the status part of a pass changes the CubeCluster. -/
theorem servesCluster_of_phase {s s' : CubeCluster} {e : Exchange} (h : ServesCluster s e s')
    (hp : Go.phase e ≠ .status) : s' = s := by
  unfold ServesCluster at h
  split at h
  · exact h.2
  · exact absurd rfl hp
  · exact h

theorem replay_unchanged {s s' : CubeCluster} {tr : List Exchange}
    (htr : ∀ e ∈ tr, Go.phase e ≠ .status) (h : Replay ServesCluster s tr s') : s' = s := by
  induction h with
  | nil s => rfl
  | cons h₁ _ ih =>
    obtain rfl := servesCluster_of_phase h₁ (htr _ (by simp))
    exact ih fun e he => htr e (by simp [he])

/-! ## Setting the status -/

section setStatus

variable {c : CubeCluster} {status : ConditionStatus} {reason message : String} {ready : ℤ}

/-- After `writeStatus` completes, the status is the new one over what was stored. -/
theorem replay_writeStatus {s s' : CubeCluster} {tr : List Exchange}
    (h : Exec (Go.writeStatus c status reason message ready).run tr (.ok ()))
    (hs : Replay ServesCluster s tr s') :
    ∃ t, s' = { s with status := Go.newStatus s t status reason message ready } := by
  rcases Go.exec_writeStatus.mp h with ⟨e, rfl, he⟩ | ⟨latest, t, r, rfl, hr⟩
  · cases he
  · simp only [Replay.cons_iff, Replay.nil_iff] at hs
    obtain ⟨_, ⟨rfl, rfl⟩, _, rfl, _, hpatch, rfl⟩ := hs
    rcases hpatch with rfl | ⟨hne, -⟩
    · exact ⟨t, by simp⟩
    · cases r with
      | ok u => exact absurd rfl hne
      | error e => cases hr

theorem replay_retryOnConflict {x : OpE Go.GoError Unit}
    {P : CubeCluster → Prop} (hx : ∀ s s' tr, Exec x.run tr (.ok ()) →
      Replay ServesCluster s tr s' → P s') :
    ∀ n s s' tr, Exec (Go.retryOnConflict x n).run tr (.ok ()) →
      Replay ServesCluster s tr s' → P s'
  | 0 => hx
  | n + 1 => by
    intro s s' tr h hs
    obtain ⟨tr₁, err, tr₂, rfl, h₁, h₂⟩ | ⟨tr₁, u, tr₂, rfl, h₁, h₂⟩ := Exec.run_bind_iff.mp h
    · obtain ⟨s₁, -, hs₂⟩ := Replay.append_iff.mp hs
      dsimp only at h₂
      split at h₂
      · exact replay_retryOnConflict hx n s₁ s' tr₂ h₂ hs₂
      · cases (Exec.ret_iff.mp h₂).2
    · obtain ⟨rfl, -⟩ := Exec.ret_iff.mp h₂
      exact hx s s' tr₁ h₁ (by simpa using hs)

/-- A completed `setStatus` leaves the requested `Ready` condition. -/
theorem replay_setStatus {s s' : CubeCluster} {tr : List Exchange}
    (h : Exec (Go.setStatus c status reason message ready).run tr (.ok ()))
    (hs : Replay ServesCluster s tr s') : s'.status.isReady = decide (status = .isTrue) := by
  refine replay_retryOnConflict (P := fun s' => s'.status.isReady = decide (status = .isTrue))
    (fun s s' tr h hs => ?_) 4 s s' tr h hs
  obtain ⟨t, rfl⟩ := replay_writeStatus h hs
  exact Go.newStatus_isReady s t

end setStatus

end CubeOperator
