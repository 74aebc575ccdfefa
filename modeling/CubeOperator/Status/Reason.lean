import CubeOperator.Status.Failure

/-! # What `InvalidConfiguration` says

    Both controllers store the reason `InvalidConfiguration` for a spec that they do not
    accept.  The Go controller stores it for every error of `validateReferences`, also
    for one that says nothing about the spec; the Kopf controller for every 404 that
    comes to its `except` clause, wherever in the pass. -/

namespace CubeOperator

open Interaction Kube V1alpha1

/-! ## The claim of the reason -/

/-- Some object of `refs` was reported not to be there. -/
def Missing (refs : List Key) (tr : List Exchange) : Prop :=
  ∃ k ∈ refs, ∃ err, Exchange.got k (.error err) ∈ tr ∧ err.isNotFound

/-- No call failed but for such reports. -/
def OthersSucceed (refs : List Key) (tr : List Exchange) : Prop :=
  ∀ e ∈ tr, ∀ err, e.error? = some err → err.isNotFound ∧ ∃ k ∈ refs, ∃ r, e = .got k r

/-- The reason is stored for a spec that is not valid or names a missing object, and for
    no other, when `reported` says whether it is. -/
structure Truthful (valid : Prop) (refs : List Key) (tr : List Exchange) (reported : Prop) :
    Prop where
  sound : reported → ¬valid ∨ Missing refs tr
  complete : ¬valid ∨ Missing refs tr → OthersSucceed refs tr → reported

theorem OthersSucceed.of_append {refs : List Key} {tr tr' : List Exchange}
    (h : OthersSucceed refs (tr ++ tr')) : OthersSucceed refs tr ∧ OthersSucceed refs tr' :=
  List.forall_mem_append.mp h

/-! ## The Go controller -/

namespace Go

variable {q : Quantities} {c : CubeCluster} {tr tr' : List Exchange}

/-- The pass stored a `Ready` condition with this reason. -/
def Reports (reason : String) (tr : List Exchange) : Prop :=
  ∃ s, (∃ condition, s.ready = some condition ∧ condition.reason = reason) ∧
    ∃ e ∈ tr, Stores s e

section setStatus

variable {status : ConditionStatus} {reason message : String} {ready : ℤ}

end setStatus

/-- After a failed validation the pass only sets the status. -/
structure Rejects (q : Quantities) (c : CubeCluster) (tr tr' : List Exchange) (err : GoError)
    (r : Except GoError Unit) : Prop where
  validation : Exec (validateReferences q c).run tr (.error err)
  status : Exec (setStatus c .isFalse "InvalidConfiguration" err.message 0).run tr' r

/-- After a successful one it looks nothing up and reports other reasons. -/
structure Proceeds (q : Quantities) (c : CubeCluster) (tr tr' : List Exchange) : Prop where
  validation : Exec (validateReferences q c).run tr (.ok ())
  phases : ∀ e ∈ tr', phase e ≠ .validate
  reason : ¬Reports "InvalidConfiguration" tr'

/-- In a pass that goes on no lookup has failed. -/
theorem Proceeds.lookups (h : Proceeds q c tr tr') {k : Key} (hk : k ∈ references c)
    {err : ApiError} : Exchange.got k (.error err) ∉ tr ++ tr' := by
  intro hmem
  rcases List.mem_append.mp hmem with hmem | hmem
  · have hvalid := (exec_validateReferences_ok h.validation).1
    have hnone := (failsByCalls_validateReferences hvalid).1 tr () h.validation _ hmem
    cases hnone
  · refine h.phases _ hmem ?_
    simp [phase, references_kind hk]

end Go

/-! ## The Kopf controller -/

namespace Kopf

variable {q : Quantities} {b : Body} {tr : List Exchange}

/-- When `x` completes, its last call has read an object. -/
def EndsWithRead {α : Type} (x : OpE Exc α) : Prop :=
  ∀ tr a, Exec x.run tr (.ok a) → ∃ tr' k l, tr = tr' ++ [Exchange.got k (.ok l)]

theorem EndsWithRead.bind {α β : Type} {x : OpE Exc α} {f : α → OpE Exc β}
    (hf : ∀ a, EndsWithRead (f a)) : EndsWithRead (x >>= f) := by
  intro tr b h
  obtain ⟨tr₁, a, tr₂, rfl, -, h₂⟩ := Exec.attempt_bind_ok_iff.mp h
  obtain ⟨tr', k, l, rfl⟩ := hf a tr₂ b h₂
  exact ⟨tr₁ ++ tr', k, l, by simp⟩

end Kopf

/-! ## Both controllers -/

end CubeOperator
