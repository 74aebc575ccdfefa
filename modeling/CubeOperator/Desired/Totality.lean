import CubeOperator.Go.Readiness
import CubeOperator.Kopf.Pass
import CubeOperator.Parity.Objects

/-! # An accepted spec can be built

    The builders are partial.  The Go ones dereference the storage of one type, parse the
    scratch size with `MustParse` and allocate one address for each worker; the Python
    ones subscript the spec.  `validateReferences` and `validate_references` make them
    total: neither controller ends a pass in a panic or a `KeyError`. -/

namespace CubeOperator

open Interaction V1alpha1

variable {q : Quantities}

/-! ## The Go controller -/

namespace Go

theorem afterStatus_ne_panicked (result : Result) (r : Except GoError Unit) :
    afterStatus result r ≠ .panicked := by
  cases r <;> simp [afterStatus]

/-- No pass panics. -/
theorem not_panicked {ns name : String} {tr : List Exchange} :
    ¬Exec (reconcile q ns name) tr .panicked := by
  intro h
  obtain ⟨tr₁, err, tr₂, rfl, -, hret⟩ | ⟨tr₁, c, tr₂, rfl, -, hcluster⟩ := Exec.run_bind_iff.mp h
  · cases (Exec.ret_iff.mp hret).2
  · have hpass := reconcileCluster_cases hcluster
    generalize hout : Outcome.panicked = out at hpass
    cases hpass with
    | rejected => exact absurd hout.symm (afterStatus_ne_panicked _ _)
    | applyFailed => cases hout
    | removeFailed => cases hout
    | readFailed => cases hout
    | reported _ _ _ _ _ hreport =>
      obtain ⟨_, _, _, _, _, r, -, -, -, -, hcases⟩ := exec_reportReadiness hreport
      rcases hcases with ⟨-, -, -, hresult⟩ | ⟨-, -, hresult⟩
      · exact absurd (hout.trans hresult).symm (afterStatus_ne_panicked _ r)
      · exact absurd (hout.trans hresult).symm (afterStatus_ne_panicked _ r)

end Go

/-! ## The Kopf controller -/

namespace Kopf

variable {spec : Crd.Spec} {name ns : String}

/-- Without a failed call nothing is raised but a `ValueError`. -/
theorem ne_keyError_of_raisesForCalls {α : Type} {x : OpE Exc α} {tr : List Exchange}
    (h : RaisesForCalls IsValueError x) : ¬Exec x.run tr (.error .keyError) := by
  intro hexec
  rcases h.2 tr .keyError hexec with ⟨⟨m, hm⟩, -⟩ | ⟨tr', ev, -, -, e, -, he⟩
  · cases hm
  · cases e <;> cases he

/-- No pass raises a `KeyError`. -/
theorem not_keyError {b : Body} {tr : List Exchange} {out : Handled}
    (h : Exec (reconcile q b) tr out) : out.raised ≠ some .keyError := by
  obtain ⟨tr₁, exc, tr₂, rfl, hobjects, hrecover⟩ | ⟨tr₁, r, tr₂, rfl, -, hreport⟩ :=
    Exec.run_bind_iff.mp h
  · have hrecovers : Exec (recover b exc) tr₂ out := hrecover
    unfold recover at hrecovers
    split at hrecovers
    · obtain ⟨_, _, _, -, -, hret⟩ := Exec.bind_iff.mp hrecovers
      simp [(Exec.ret_iff.mp hret).2]
    · split at hrecovers
      · obtain ⟨_, _, _, -, -, hret⟩ := Exec.bind_iff.mp hrecovers
        simp [(Exec.ret_iff.mp hret).2]
      · simp [(Exec.ret_iff.mp hrecovers).2]
    · -- Any other exception is raised as it is.
      rw [(Exec.ret_iff.mp hrecovers).2]
      intro hraised
      obtain rfl := Option.some.inj hraised
      exact ne_keyError_of_raisesForCalls
        (raisesForCalls_reconcileObjects (.inr fun m => ⟨m, rfl⟩)) hobjects
  · obtain ⟨_, _, _, -, -, hret⟩ := Exec.bind_iff.mp hreport
    simp [(Exec.ret_iff.mp hret).2]

end Kopf

/-! ## Both -/

/-- What validation makes total: the builders, and with them the passes. -/
structure BuildingTotal (q : Quantities) : Prop where
  objects : ∀ (c : CubeCluster) (tr : List Exchange),
    Exec (Go.validateReferences q c).run tr (.ok ()) → ∃ os, Go.objects q c = some os
  desiredObjects : ∀ (spec : Crd.Spec) (name ns : String) (tr : List Exchange), spec.Admits →
    Exec (Kopf.validateReferences q spec ns).run tr (.ok ()) →
    ∃ ds, Kopf.desiredObjects name ns spec = some ds
  workloadReadiness : ∀ (spec : Crd.Spec) (name ns : String) (tr tr' : List Exchange),
    spec.Admits → Exec (Kopf.validateReferences q spec ns).run tr (.ok ()) →
    ¬Exec (Kopf.workloadReadiness spec name ns).run tr' (.error .keyError)
  go : ∀ (ns name : String) (tr : List Exchange), ¬Exec (Go.reconcile q ns name) tr .panicked
  kopf : ∀ (b : Kopf.Body) (tr : List Exchange) (out : Kopf.Handled),
    Exec (Kopf.reconcile q b) tr out → out.raised ≠ some .keyError

theorem building_total (q : Quantities) : BuildingTotal q where
  objects _ _ hvalidate := Go.exists_objects (Go.exec_validateReferences_ok hvalidate).1
  desiredObjects _ name ns _ _ hvalidate :=
    Kopf.exists_desiredObjects (Kopf.exec_validateReferences_ok hvalidate).1 name ns
  workloadReadiness _ _ _ _ _ _ hvalidate := Kopf.ne_keyError_of_raisesForCalls
    (Kopf.raisesForCalls_workloadReadiness (Kopf.exec_validateReferences_ok hvalidate).1)
  go _ _ _ := Go.not_panicked
  kopf _ _ _ := Kopf.not_keyError

theorem building_total_clusteredS3 :
    (∃ os, Go.objects digitQuantities clusteredS3Cluster = some os) ∧
    (∃ ds, Kopf.desiredObjects "cube" "default" clusteredS3 = some ds) ∧
    (∀ tr, ¬Exec (Kopf.workloadReadiness clusteredS3 "cube" "default").run tr (.error .keyError)) ∧
    ∀ tr, ¬Exec (Go.reconcile digitQuantities "default" "cube") tr .panicked := by
  have htotal := building_total digitQuantities
  have hadmits : clusteredS3.Admits := .inr (by decide)
  obtain ⟨tr, hgo, -⟩ := Program.exec_eval (lookups fun _ => true)
    (Go.validateReferences digitQuantities clusteredS3Cluster).run
  obtain ⟨tr', hkopf, -⟩ := Program.exec_eval (lookups fun _ => true)
    (Kopf.validateReferences digitQuantities clusteredS3 "default").run
  exact ⟨htotal.objects _ tr hgo, htotal.desiredObjects _ _ _ tr' hadmits hkopf,
    fun tr => htotal.workloadReadiness _ _ _ tr' tr hadmits hkopf, fun tr => htotal.go _ _ tr⟩

end CubeOperator
