import CubeOperator.Handover.Server
import CubeOperator.Topology.Passes

/-! # What a pass does to the fields

    A pass of the Go controller in which no call fails applies every object of its
    spec once and deletes those of the other topology.  On each object this leaves
    the fields of the document, and besides them what others own. -/

namespace CubeOperator

open Interaction Kube V1alpha1

variable {client : String} {s s' : TrackedStore} {a : Action} {e : Exchange} {k : Key}

/-! ## Single calls -/

/-- A write touches only its target. -/
theorem trackedAfter_of_ne (h : Target a ≠ some k) : s.after client a k = s k := by
  cases a with
  | apply d => exact Function.update_of_ne (fun hk => h (by simp [Target, hk])) _ _
  | create d => exact Function.update_of_ne (fun hk => h (by simp [Target, hk])) _ _
  | patch d => exact Function.update_of_ne (fun hk => h (by simp [Target, hk])) _ _
  | delete k' => exact Function.update_of_ne (fun hk => h (by simp [Target, hk])) _ _
  | _ => rfl

/-- A call changes nothing or makes its write. -/
theorem servesFields_cases (h : ServesFields client s e s') :
    s' = s ∨ ∃ a r, e = .did a r ∧ s' = s.after client a := by
  obtain ⟨c, r⟩ := e
  cases c with
  | act a =>
    rcases h.1 with hs | ⟨-, hs⟩
    · exact .inr ⟨a, r, rfl, hs⟩
    · exact .inl hs
  | get k => exact .inl h.1
  | _ => exact .inl h

/-- A call without a target changes nothing. -/
theorem servesFields_untargeted (h : ServesFields client s e s') (he : e.target = none) : s' = s := by
  rcases servesFields_cases h with hs | ⟨a, r, rfl, rfl⟩
  · exact hs
  · funext k
    refine trackedAfter_of_ne fun hk => ?_
    have hnone : Target a = none := he
    rw [hnone] at hk
    cases hk

theorem replay_untargeted {tr : List Exchange} (h : Replay (ServesFields client) s tr s')
    (htr : ∀ e ∈ tr, e.target = none) : s' = s :=
  h.preserves (P := fun s' => s' = s)
    (fun _ _ _ he hserves hs => (servesFields_untargeted hserves (htr _ he)).trans hs) rfl

/-! ## The Go controller -/

namespace Go

variable {q : Quantities} {c : CubeCluster}

theorem untargeted_setStatus {status : ConditionStatus} {reason message : String} {ready : ℤ} :
    Only (fun e => Exchange.target e = none) (setStatus c status reason message ready).run := by
  refine only_setStatus.mono ?_
  rintro e (⟨ns, name, r, rfl⟩ | ⟨t, rfl⟩ | ⟨latest, t, r, rfl⟩) <;> rfl

theorem untargeted_reportReadiness {ready : ℤ} {available : Bool} {message : String} :
    Only (fun e => Exchange.target e = none) (reportReadiness c ready available message) := by
  refine Only.bind (only_readiness.mono ?_) fun r => ?_
  · rintro e ⟨url, a, rfl⟩
    rfl
  · refine Only.bind untargeted_setStatus fun r => ?_
    cases r <;> trivial

theorem untargeted_validateReferences :
    Only (fun e => Exchange.target e = none) (validateReferences q c).run := by
  refine only_validateReferences.mono ?_
  rintro e ⟨k, -, r, rfl⟩
  rfl

theorem untargeted_workloadsAvailable :
    Only (fun e => Exchange.target e = none) (workloadsAvailable c).run := by
  refine only_workloadsAvailable.mono ?_
  rintro e ⟨k, -, r, rfl⟩
  rfl

/-- The calls of a pass in which none fails: lookups, all applies, all deletes, and a
    report. -/
theorem exec_clean {tr : List Exchange} {out : Outcome} (hvalid : Valid q c)
    (h : Exec (reconcileCluster q c) tr out) (hclean : Clean tr) :
    ∃ os tr₁ tr₂ tr₃ tr₄, objects q c = some os ∧ tr = tr₁ ++ (tr₂ ++ (tr₃ ++ tr₄)) ∧
      (∀ e ∈ tr₁, e.target = none) ∧ List.Forall₂ (IsApply c) os tr₂ ∧
      List.Forall₂ IsRemoval (obsoleteStore c) tr₃ ∧ ∀ e ∈ tr₄, e.target = none := by
  cases reconcileCluster_cases h with
  | rejected hrejected =>
    exact absurd hclean.of_append (not_clean_of_rejected hvalid hrejected)
  | applyFailed hvalidate hos happly =>
    obtain ⟨os₁, o, os₂, tr₁, e, rfl, -, rfl, -⟩ := exec_applies_error happly
    exact absurd (hclean (.did (.apply (applied c o)) (.error e)) (by simp) (by simp)) id
  | removeFailed hvalidate hos happly hremove =>
    obtain ⟨ks₁, k, ks₂, tr₁, e, -, -, rfl, hfound, -⟩ := exec_removes_error hremove
    exact absurd (hclean (.did (.delete k) (.error e)) (by simp) (by simp)) hfound
  | readFailed hvalidate hos happly hremove hread =>
    exact ⟨_, _, _, _, _, hos, rfl, untargeted_validateReferences.of_exec hvalidate, happly, hremove,
      untargeted_workloadsAvailable.of_exec hread⟩
  | reported hvalidate hos happly hremove hread hreport =>
    refine ⟨_, _, _, _, _, hos, rfl, untargeted_validateReferences.of_exec hvalidate, happly, hremove,
      ?_⟩
    exact List.forall_mem_append.mpr ⟨untargeted_workloadsAvailable.of_exec hread,
      untargeted_reportReadiness.of_exec hreport⟩

/-- The loop of applies: each object has been applied to once, the others are as they
    were. -/
theorem applied_of_replay {os : List K8s.Object} {tr : List Exchange}
    (h : List.Forall₂ (IsApply c) os tr) (hnodup : (os.map fun o => o.manifest.key).Nodup)
    (hreplay : Replay (ServesFields client) s tr s') :
    (∀ o ∈ os, s' o.manifest.key = some (((s o.manifest.key).getD .empty).apply cubeOperator
        (documentFields (applied c o)))) ∧
      ∀ k, k ∉ os.map (fun o => o.manifest.key) → s' k = s k := by
  induction h generalizing s with
  | nil =>
    obtain rfl := Replay.nil_iff.mp hreplay
    exact ⟨by simp, fun _ _ => rfl⟩
  | @cons o e os tr hfirst _ ih =>
    obtain ⟨s₁, hserves, hrest⟩ := Replay.cons_iff.mp hreplay
    obtain rfl : e = .did (.apply (applied c o)) (.ok ()) := hfirst
    obtain rfl : s₁ = s.after client (.apply (applied c o)) := by
      rcases hserves.1 with hs | ⟨hne, -⟩
      · exact hs
      · exact absurd rfl hne
    obtain ⟨hnotMem, hnodup⟩ := List.nodup_cons.mp hnodup
    obtain ⟨happlied, hothers⟩ := ih hnodup hrest
    have hother {k : Key} (hk : k ≠ o.manifest.key) :
        s.after client (.apply (applied c o)) k = s k :=
      trackedAfter_of_ne fun h => hk (Option.some.inj h).symm
    constructor
    · refine List.forall_mem_cons.mpr ⟨?_, fun o' ho' => ?_⟩
      · rw [hothers _ hnotMem]
        exact Function.update_self ..
      · -- the rest of the loop applies to other objects
        have hne : o'.manifest.key ≠ o.manifest.key := by
          intro hkey
          exact hnotMem (List.mem_map.mpr ⟨o', ho', hkey⟩)
        rw [happlied o' ho', hother hne]
    · intro k hk
      obtain ⟨hne, hk⟩ := not_or.mp (mt List.mem_cons.mpr hk)
      rw [hothers k hk, hother hne]

/-- The loop of deletes: its objects are gone, the others are as they were. -/
theorem removed_of_replay {ks : List Key} {tr : List Exchange} (h : List.Forall₂ IsRemoval ks tr)
    (hreplay : Replay (ServesFields client) s tr s') :
    (∀ k ∈ ks, s' k = none) ∧ ∀ k, k ∉ ks → s' k = s k := by
  induction h generalizing s with
  | nil =>
    obtain rfl := Replay.nil_iff.mp hreplay
    exact ⟨by simp, fun _ _ => rfl⟩
  | @cons k e ks tr hfirst _ ih =>
    obtain ⟨s₁, hserves, hrest⟩ := Replay.cons_iff.mp hreplay
    obtain ⟨r, rfl, hgone⟩ := hfirst
    obtain ⟨hremoved, hothers⟩ := ih hrest
    -- deleted now, or absent before
    have hnone : s₁ k = none := by
      rcases hserves.1 with rfl | ⟨hne, rfl⟩
      · exact Function.update_self ..
      · cases r with
        | ok u => exact absurd rfl hne
        | error err => exact hserves.2.2 k err rfl rfl (hgone err rfl)
    constructor
    · refine List.forall_mem_cons.mpr ⟨?_, hremoved⟩
      by_cases hk : k ∈ ks
      · exact hremoved k hk
      · rw [hothers k hk, hnone]
    · intro k' hk'
      obtain ⟨hne, hk'⟩ := not_or.mp (mt List.mem_cons.mpr hk')
      rw [hothers k' hk']
      rcases servesFields_cases hserves with rfl | ⟨a, r', heq, rfl⟩
      · rfl
      · cases heq
        exact trackedAfter_of_ne fun h => hne (Option.some.inj h).symm

/-- A pass in which no call fails has applied each object of its spec once, and those of
    the other topology are gone. -/
theorem objects_of_pass {tr : List Exchange} {out : Outcome} (hvalid : Valid q c)
    (hexec : Exec (reconcileCluster q c) tr out) (hclean : Clean tr)
    (hreplay : Replay (ServesFields client) s tr s') :
    ∃ os, objects q c = some os ∧
      (∀ o ∈ os, s' o.manifest.key = some (((s o.manifest.key).getD .empty).apply cubeOperator
        (documentFields (applied c o)))) ∧
      ∀ k ∈ storeKeys (!isClustered c) c.ns c.name, s' k = none := by
  obtain ⟨os, tr₁, tr₂, tr₃, tr₄, hos, rfl, hbefore, happlies, hremoves, hafter⟩ :=
    exec_clean hvalid hexec hclean
  obtain ⟨s₁, hreplay₁, hreplay⟩ := Replay.append_iff.mp hreplay
  obtain ⟨s₂, hreplay₂, hreplay⟩ := Replay.append_iff.mp hreplay
  obtain ⟨s₃, hreplay₃, hreplay₄⟩ := Replay.append_iff.mp hreplay
  obtain rfl := replay_untargeted hreplay₁ hbefore
  obtain rfl := replay_untargeted hreplay₄ hafter
  have hkeys := objects_keys hos
  obtain ⟨happlied, -⟩ := applied_of_replay happlies (hkeys ▸ clusterKeys_nodup ..) hreplay₂
  obtain ⟨hremoved, hothers⟩ := removed_of_replay hremoves hreplay₃
  refine ⟨os, hos, fun o ho => ?_, fun k hk => hremoved k (mem_obsoleteStore.mpr hk)⟩
  -- the deletes spare what was applied
  have hcluster : o.manifest.key ∈ clusterKeys (isClustered c) c.ns c.name := by
    rw [← hkeys]
    exact List.mem_map_of_mem ho
  have hspared : o.manifest.key ∉ obsoleteStore c := fun h =>
    notMem_clusterKeys (mem_obsoleteStore.mp h) hcluster
  rw [hothers _ hspared, happlied o ho]

end Go

end CubeOperator
