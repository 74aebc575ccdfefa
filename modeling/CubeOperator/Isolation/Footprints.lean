import CubeOperator.Content.Server
import CubeOperator.Lib.Footprint
import CubeOperator.Topology.Passes

/-! # What a pass touches

    A pass of either controller writes the managed objects and the status of its own
    CubeCluster.  Of other objects it only looks up those that the spec refers to. -/

namespace CubeOperator

open Interaction Kube V1alpha1

/-! ## Calls -/

/-- The address of the readiness endpoint of a CubeCluster. -/
def apiUrl (ns name : String) : String := "http://" ++ name ++ "-api." ++ ns ++ ".svc:4000" ++ "/readyz"

/-- What the passes over one CubeCluster exchange with the outside. -/
inductive Touches (ns name : String) : Exchange → Prop where
  | write {a : Action} {k : Key} (r : Except ApiError Unit) :
      Target a = some k → k ∈ managedKeys ns name → Touches ns name (.did a r)
  | patchStatus (base modified : CubeClusterStatus) (r : Except ApiError Unit) :
      Touches ns name (.did (.patchStatus ns name base modified) r)
  | discover (kind : Kind) (r : Except ApiError Unit) : Touches ns name (.did (.discover kind) r)
  | getCluster (r : Except ApiError CubeCluster) : Touches ns name (.readCluster ns name r)
  | get {k : Key} (r : Except ApiError Live) :
      k ∈ managedKeys ns name ∨ k.kind.isReference = true → Touches ns name (.got k r)
  | httpGet (a : HttpAnswer) : Touches ns name (.fetched (apiUrl ns name) a)
  | now (t : ℤ) : Touches ns name (.clock t)

/-- A CubeCluster is answered to the reader that asked for it. -/
def AnswersCluster (e : Exchange) : Prop :=
  ∀ ns name c, e = .readCluster ns name (.ok c) → c.ns = ns ∧ c.name = name

/-- Every exchange of the program satisfies `E`, when each CubeCluster it reads is the one
    it asked for. -/
abbrev Within (E : Exchange → Prop) {α : Type} (p : Op α) : Prop :=
  Always (fun (_ : Unit) e _ => AnswersCluster e) (fun _ e _ => E e) p

section within

variable {E : Exchange → Prop} {α : Type} {p : Op α}

theorem Within.of_only (h : Only E p) : Within E p := Always.of_only h fun _ _ _ he _ => he

theorem Within.of_exec (hp : Within E p) {tr tr' : List Exchange} {a : α}
    (h : Exec p (tr ++ tr') a) (htr : ∀ e ∈ tr, AnswersCluster e) : ∀ e ∈ tr, E e := by
  intro e he
  obtain ⟨-, -, hE⟩ := Always.of_exec hp h (Replay.of_forall htr) e he
  exact hE

end within

/-! ## The Go controller -/

namespace Go

variable {q : Quantities} {c : CubeCluster}

/-- An exchange that a pass over the CubeCluster may make. -/
inductive Makes (q : Quantities) (c : CubeCluster) : Exchange → Prop where
  | lookup {k : Key} (r : Except ApiError Live) : k ∈ references c → Makes q c (.got k r)
  | apply {os : List K8s.Object} {o : K8s.Object} (r : Except ApiError Unit) :
      objects q c = some os → o ∈ os → Makes q c (.did (.apply (applied c o)) r)
  | delete {k : Key} (r : Except ApiError Unit) :
      k ∈ storeKeys (!isClustered c) c.ns c.name → Makes q c (.did (.delete k) r)
  | get {k : Key} (r : Except ApiError Live) :
      k ∈ managedKeys c.ns c.name → Makes q c (.got k r)
  | httpGet (a : HttpAnswer) : Makes q c (.fetched (endpoint c ++ "/readyz") a)
  | getCluster (r : Except ApiError CubeCluster) : Makes q c (.readCluster c.ns c.name r)
  | now (t : ℤ) : Makes q c (.clock t)
  | patchStatus (base modified : CubeClusterStatus) (r : Except ApiError Unit) :
      Makes q c (.did (.patchStatus c.ns c.name base modified) r)

theorem key_mem_managedKeys {os : List K8s.Object} {o : K8s.Object} (h : objects q c = some os)
    (ho : o ∈ os) : (applied c o).key ∈ managedKeys c.ns c.name := by
  have hkey : (applied c o).key ∈ clusterKeys (isClustered c) c.ns c.name := by
    rw [← objects_keys h]
    exact List.mem_map_of_mem ho
  exact mem_managedKeys.mpr (.inl hkey)

theorem makes_workloadsAvailable : Only (Makes q c) (workloadsAvailable c).run := by
  refine only_workloadsAvailable.mono ?_
  rintro e ⟨k, hk, r, rfl⟩
  exact .get r hk

section setStatus

variable {status : ConditionStatus} {reason message : String} {ready : ℤ}

/-- The status is written to the CubeCluster that was just read. -/
theorem within_writeStatus :
    Within (Makes q c) (writeStatus c status reason message ready).run := by
  rintro ⟨⟩ r ⟨⟩ hanswers
  refine ⟨.getCluster r, ?_⟩
  cases r with
  | error e => trivial
  | ok latest =>
    obtain ⟨hns, hname⟩ := hanswers c.ns c.name latest rfl
    refine Within.of_only (p := _) ?_ ()
    refine fun t => ⟨.now t, fun r => ⟨?_, trivial⟩⟩
    rw [hns, hname]
    exact .patchStatus _ _ r

theorem within_retryOnConflict {E : Exchange → Prop} {x : OpE GoError Unit}
    (hx : Within E x.run) : ∀ n, Within E (retryOnConflict x n).run
  | 0 => hx
  | n + 1 => by
    refine Always.bind hx fun r => ?_
    cases r with
    | ok u => exact Always.ret _
    | error err =>
      dsimp only
      split
      · exact within_retryOnConflict hx n
      · exact Always.ret _

theorem within_setStatus : Within (Makes q c) (setStatus c status reason message ready).run :=
  within_retryOnConflict within_writeStatus 4

end setStatus

theorem makes_readiness {available : Bool} {message : String} :
    Only (Makes q c) (readiness c available message) := by
  unfold readiness
  split
  · refine Only.bind (fun a => ⟨.httpGet a, trivial⟩) fun r => ?_
    cases r <;> trivial
  · trivial

theorem within_reportReadiness {ready : ℤ} {available : Bool} {message : String} :
    Within (Makes q c) (reportReadiness c ready available message) := by
  refine Always.bind (Within.of_only makes_readiness) fun r => ?_
  refine Always.bind within_setStatus fun r => ?_
  cases r <;> exact Always.ret _

theorem within_reconcileCluster : Within (Makes q c) (reconcileCluster q c) := by
  have hlookups : Only (Makes q c) (validateReferences q c).run := by
    refine only_validateReferences.mono ?_
    rintro e ⟨k, hk, r, rfl⟩
    exact .lookup r hk
  refine Always.bind (Within.of_only hlookups) fun r => ?_
  cases r with
  | error err => exact Always.bind within_setStatus fun r => by cases r <;> exact Always.ret _
  | ok u =>
    cases hos : objects q c with
    | none => exact Always.ret _
    | some os =>
      have happlies : Only (Makes q c) (Attempt.forEach (reconcileObject c) os).run :=
        Only.forEach fun o ho r => ⟨.apply r hos ho, trivial⟩
      refine Always.bind (Within.of_only happlies) fun r => ?_
      cases r with
      | error err => exact Always.bind within_setStatus fun r => by cases r <;> exact Always.ret _
      | ok u =>
        have hremoves : Only (Makes q c) (removeObsoleteStore c).run :=
          Only.forEach fun k hk r => ⟨.delete r (mem_obsoleteStore.mp hk), trivial⟩
        refine Always.bind (Within.of_only hremoves) fun r => ?_
        cases r with
        | error err => exact Always.ret _
        | ok u =>
          refine Always.bind (Within.of_only makes_workloadsAvailable) fun r => ?_
          cases r with
          | error err => exact Always.ret _
          | ok r => exact within_reportReadiness

theorem touches_of_makes {e : Exchange} (h : Makes q c e) : Touches c.ns c.name e := by
  cases h with
  | lookup r hk => exact .get r (.inr (references_kind hk))
  | apply r hos ho => exact .write r rfl (key_mem_managedKeys hos ho)
  | @delete k r hk =>
    have hmanaged : k ∈ managedKeys c.ns c.name := mem_managedKeys.mpr (.inr hk)
    exact .write r rfl hmanaged
  | get r hk => exact .get r (.inl hk)
  | httpGet a => exact .httpGet a
  | getCluster r => exact .getCluster r
  | now t => exact .now t
  | patchStatus base modified r => exact .patchStatus base modified r

/-- A pass touches the CubeCluster it was called for. -/
theorem within_reconcile {ns name : String} :
    Within (Touches ns name) (reconcile q ns name) := by
  rintro ⟨⟩ r ⟨⟩ hanswers
  refine ⟨.getCluster r, ?_⟩
  cases r with
  | error e => trivial
  | ok c =>
    obtain ⟨rfl, rfl⟩ := hanswers ns name c rfl
    exact Always.mono (fun _ _ _ => touches_of_makes) within_reconcileCluster ()

end Go

/-! ## The Kopf controller -/

namespace Kopf

variable {q : Quantities} {b : Body}

/-- A pass touches the CubeCluster it was called with. -/
theorem touches_reconcile : Only (Touches b.ns b.name) (reconcile q b) := by
  refine only_makes.mono fun e he => ?_
  cases he with
  | lookup r hk => exact .get r (.inr (references_kind hk))
  | act h =>
    cases h with
    | query h =>
      cases h with
      | discover kind r => exact .discover kind r
      | get r hk => exact .get r (.inl hk)
      | httpGet a => exact .httpGet a
      | now t => exact .now t
    | create r hds hd =>
      have hkey := key_mem_managedKeys hds hd
      exact .write r rfl hkey
    | patch r hds hd =>
      have hkey := key_mem_managedKeys hds hd
      exact .write r rfl hkey
    | @delete k r hk =>
      have hmanaged : k ∈ managedKeys b.ns b.name := mem_managedKeys.mpr (.inr hk)
      exact .write r rfl hmanaged

end Kopf

end CubeOperator
