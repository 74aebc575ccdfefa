import CubeOperator.Lib.Rbac
import CubeOperator.Lib.Session
import CubeOperator.Isolation.Interleaving

/-! # Permissions

    The API server authorizes what the controllers ask for.  The role in `config/rbac` grants
    every call but those that write a ConfigMap, a Secret or a PersistentVolumeClaim, and
    no pass makes such a call: the runs of the controllers are those that they would have
    if nothing was ever refused. -/

namespace CubeOperator.Isolation

open Interaction Kube V1alpha1 Rbac

/-! ## Requests -/

/-- The API group of a kind, which its API version starts with. -/
def apiGroup : Kind → String
  | .configMap | .secret | .persistentVolumeClaim | .service => ""
  | .deployment | .statefulSet => "apps"
  | .podDisruptionBudget => "policy"
  | .networkPolicy => "networking.k8s.io"

def resource : Kind → String
  | .configMap => "configmaps"
  | .secret => "secrets"
  | .persistentVolumeClaim => "persistentvolumeclaims"
  | .service => "services"
  | .deployment => "deployments"
  | .statefulSet => "statefulsets"
  | .podDisruptionBudget => "poddisruptionbudgets"
  | .networkPolicy => "networkpolicies"

def onKind (kind : Kind) (verb : String) : Attributes := ⟨verb, apiGroup kind, resource kind, ""⟩

def onCluster (verb subresource : String) : Attributes :=
  ⟨verb, "platform.cube.dev", "cubeclusters", subresource⟩

/-- An owner reference that keeps the owner from being deleted takes the permission to
    update the finalizers of the owner.  All owners are CubeClusters. -/
def ownership (d : Manifest) : List Attributes :=
  ((d.metadata.ownerReferences.getD []).filter fun o => o.blockOwnerDeletion).map
    fun _ => onCluster "update" "finalizers"

/-- A read through a cache lists and watches the objects of the kind. -/
def readingVerbs : List String := ["get", "list", "watch"]

/-- What a call has to be authorized for. -/
def requests : Call → List Attributes
  -- discovery is open to every client
  | .act (.discover _) => []
  -- an apply may create the object
  | .act (.apply d) => ["patch", "create"].map (onKind d.kind) ++ ownership d
  | .act (.create d) => onKind d.kind "create" :: ownership d
  | .act (.patch d) => onKind d.kind "patch" :: ownership d
  | .act (.delete k) => [onKind k.kind "delete"]
  | .act (.patchStatus _ _ _ _) => [onCluster "patch" "status"]
  | .getCluster _ _ => readingVerbs.map fun verb => onCluster verb ""
  | .get k => readingVerbs.map (onKind k.kind)
  | .httpGet _ => []
  | .now => []

/-! ## The role -/

/-- What `config/rbac/role.yaml` grants on the objects that the controllers manage. -/
def managingVerbs : List String := ["create", "delete", "get", "list", "patch", "update", "watch"]

/-- `config/rbac/role.yaml` -/
def role : List PolicyRule :=
  [⟨[""], ["configmaps", "persistentvolumeclaims", "secrets"], ["get", "list", "watch"]⟩,
    ⟨[""], ["events"], ["create", "patch"]⟩,
    ⟨[""], ["services"], managingVerbs⟩,
    ⟨["apps"], ["deployments", "statefulsets"], managingVerbs⟩,
    ⟨["coordination.k8s.io"], ["leases"], managingVerbs⟩,
    ⟨["networking.k8s.io"], ["networkpolicies"], managingVerbs⟩,
    ⟨["platform.cube.dev"], ["cubeclusters"], ["get", "list", "patch", "update", "watch"]⟩,
    ⟨["platform.cube.dev"], ["cubeclusters/finalizers"], ["update"]⟩,
    ⟨["platform.cube.dev"], ["cubeclusters/status"], ["get", "patch", "update"]⟩,
    ⟨["policy"], ["poddisruptionbudgets"], managingVerbs⟩]

/-- The rules allow all that the call has to be authorized for. -/
def Granted (rules : List PolicyRule) (call : Call) : Prop := ∀ r ∈ requests call, allows rules r = true

section granted

variable {e : Exchange} {ns name : String}

theorem allows_reading (kind : Kind) : ∀ verb ∈ readingVerbs, allows role (onKind kind verb) = true := by
  cases kind <;> decide

/-- What only a manager of the kind may do. -/
theorem allows_writing_iff (kind : Kind) : ∀ verb ∈ ["create", "patch", "delete"],
    (allows role (onKind kind verb) = true ↔ kind.isReference = false) := by
  cases kind <;> decide

theorem allows_ownership (d : Manifest) : ∀ r ∈ ownership d, allows role r = true := by
  intro r hr
  obtain ⟨o, -, rfl⟩ := List.mem_map.mp hr
  decide

theorem forall_writes_iff {a : Action} {r : Except ApiError Unit} {P : Key → Prop} :
    (∀ k, WritesObject k (.did a r) → P k) ↔ ∀ k, Target a = some k → P k := by
  constructor
  · intro h k htarget
    exact h k ⟨a, r, rfl, htarget⟩
  · rintro h k ⟨a', r', heq, htarget⟩
    cases heq
    exact h k htarget

/-- The role grants every call but the writes to objects that a spec only refers to. -/
theorem granted_iff : Granted role e.1 ↔ ∀ k, WritesObject k e → k.kind.isReference = false := by
  obtain ⟨c, r⟩ := e
  cases c with
  | act a =>
    rw [forall_writes_iff]
    have hwriting := fun k : Key => allows_writing_iff k.kind
    cases a with
    | discover kind => simp [Granted, requests, Target]
    | patchStatus ns name base modified =>
      have hstatus : allows role (onCluster "patch" "status") = true := by decide
      simp [Granted, requests, Target, hstatus]
    | delete k =>
      have hdelete := hwriting k "delete" (by decide)
      simp [Granted, requests, Target, hdelete]
    | apply d =>
      have hpatch := hwriting d.key "patch" (by decide)
      have hcreate := hwriting d.key "create" (by decide)
      simp only [Granted, requests, Target, List.forall_mem_append, List.map_cons, List.map_nil,
        List.forall_mem_cons, Option.some.injEq, forall_eq']
      -- the owner reference takes nothing that the role does not have
      constructor
      · rintro ⟨⟨hallows, -⟩, -⟩
        exact hpatch.mp hallows
      · intro hmanaged
        exact ⟨⟨hpatch.mpr hmanaged, hcreate.mpr hmanaged, by simp⟩, allows_ownership d⟩
    | create d =>
      have hcreate := hwriting d.key "create" (by decide)
      simp only [Granted, requests, Target, List.forall_mem_cons, Option.some.injEq, forall_eq']
      exact ⟨fun h => hcreate.mp h.1, fun hmanaged => ⟨hcreate.mpr hmanaged, allows_ownership d⟩⟩
    | patch d =>
      have hpatch := hwriting d.key "patch" (by decide)
      simp only [Granted, requests, Target, List.forall_mem_cons, Option.some.injEq, forall_eq']
      exact ⟨fun h => hpatch.mp h.1, fun hmanaged => ⟨hpatch.mpr hmanaged, allows_ownership d⟩⟩
  | getCluster ns name =>
    have hread : ∀ verb ∈ readingVerbs, allows role (onCluster verb "") = true := by decide
    simpa [Granted, requests, WritesObject] using hread
  | get k =>
    have hread := allows_reading k.kind
    simpa [Granted, requests, WritesObject] using hread
  | httpGet url => simp [Granted, requests, WritesObject]
  | now => simp [Granted, requests, WritesObject]

theorem granted_of_touches (h : Touches ns name e) : Granted role e.1 :=
  granted_iff.mpr fun k hwrites => managedKeys_kind k (mem_managedKeys_of_writes h hwrites)

end granted

/-! ## Runs -/

section runs

variable {ι σ : Type} [DecidableEq ι]

/-- Passes of both controllers, any number of them at a time. -/
def operating (ι : Type) (q : Quantities) (serves : σ → Exchange → σ → Prop)
    (drifts : σ → σ → Prop) : Environment ι Trigger σ Call Answer (Go.Outcome ⊕ Kopf.Handled) where
  program := Trigger.program q
  begins _ _ _ := True
  serves := serves
  drifts := drifts

/-- The server with an authorizer in front of it. -/
inductive Authorized (rules : List PolicyRule) (serves : σ → Exchange → σ → Prop) (s : σ)
    (e : Exchange) : σ → Prop where
  | granted {s' : σ} : Granted rules e.1 → serves s e s' → Authorized rules serves s e s'
  | forbidden {err : StatusError} : ¬Granted rules e.1 → e.error? = some (.status err) →
      err.code = 403 → Authorized rules serves s e s

variable {q : Quantities} {serves : σ → Exchange → σ → Prop} {drifts : σ → σ → Prop}

theorem answersCluster_of_authorized {rules : List PolicyRule} {s s' : σ} {e : Exchange}
    (hanswers : ∀ s e s', serves s e s' → AnswersCluster e) (h : Authorized rules serves s e s') :
    AnswersCluster e := by
  cases h with
  | granted _ hserves => exact hanswers _ _ _ hserves
  | forbidden _ herror _ =>
    rintro ns name c rfl
    cases herror

theorem serves_of_authorized {rules : List PolicyRule} {s s' : σ} {e : Exchange}
    (h : Authorized rules serves s e s') (hgranted : Granted rules e.1) : serves s e s' := by
  cases h with
  | granted _ hserves => exact hserves
  | forbidden hnot _ _ => exact absurd hgranted hnot

/-- With the role that the controllers have, authorization changes nothing: the states
    that the controllers and the server can come to are the same. -/
theorem reachable_authorized_iff (hanswers : ∀ s e s', serves s e s' → AnswersCluster e) {s : σ}
    {S : System ι Trigger σ Call Answer (Go.Outcome ⊕ Kopf.Handled)} :
    (operating ι q (Authorized role serves) drifts).Reachable (Environment.idle s) S ↔
      (operating ι q serves drifts).Reachable (Environment.idle s) S := by
  have hgranted : ∀ {serves : σ → Exchange → σ → Prop},
      (∀ s e s', serves s e s' → AnswersCluster e) → ∀ S S' i e,
      (operating ι q serves drifts).Reachable (Environment.idle s) S →
      (operating ι q serves drifts).Exchanges i e S S' → Granted role e.1 :=
    fun hanswers S S' i e hreach hexchanges =>
      Environment.Reachable.always (P := fun e => Granted role e.1) hanswers
        (fun _ _ t _ => Always.mono (fun _ _ _ => granted_of_touches) t.within) hreach hexchanges
  constructor
  -- the authorizer refuses nothing that a pass asks for
  · intro h
    refine h.serving fun S S' i e hreach hexchanges => ?_
    obtain ⟨_, _, -, -, hserves, -⟩ := id hexchanges
    exact serves_of_authorized hserves
      (hgranted (fun _ _ _ => answersCluster_of_authorized hanswers) S S' i e hreach hexchanges)
  · intro h
    refine h.serving fun S S' i e hreach hexchanges => ?_
    obtain ⟨_, _, -, -, hserves, -⟩ := id hexchanges
    exact .granted (hgranted hanswers S S' i e hreach hexchanges) hserves

/-- With the authorizer a pass over `cube` comes to its end. -/
theorem reachable_authorized_iff_twoClusters : ∃ S run a,
    (operating Unit digitQuantities (Authorized role grantingServer.serves) fun _ _ => False).Reachable
      (Environment.idle twoClusters) S ∧
    S.thread () = some run ∧ run.job = .go "default" "cube" ∧ run.Finished a := by
  let unauthorized := operating Unit digitQuantities grantingServer.serves fun _ _ => False
  obtain ⟨a, s', tr, hexec, hreplay⟩ := exists_runs digitQuantities (.go "default" "cube") twoClusters
  obtain ⟨S, run, hreach, hrun, hjob, -, hfinished, -⟩ :=
    Environment.exists_finished (E := unauthorized) (S := Environment.idle twoClusters) ()
      (.go "default" "cube") rfl trivial hexec (Environment.replay_servesLater hreplay)
  have hauthorized := (reachable_authorized_iff grantingServer.answersCluster).mpr hreach
  exact ⟨S, run, a, hauthorized, hrun, hjob, hfinished⟩

end runs

end CubeOperator.Isolation
