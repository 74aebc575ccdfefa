import CubeOperator.Content.Server
import CubeOperator.Go.Readiness
import CubeOperator.Lib.FieldPath
import CubeOperator.Lib.Ownership
import CubeOperator.Topology.Server

/-! # The fields of the objects and their owners

    The API server with the fields of every object and the managers that own them.
    The Go controller applies as `cube-operator`; the client of the Kopf controller
    creates and patches under a name of its own.  On the calls of the Kopf controller
    this server does what the server with contents does. -/

namespace CubeOperator

open Interaction Kube

/-! ## Fields -/

/-- The fields of a document or of a stored object. -/
abbrev Fields : Type := Json.FieldPath → Option Json

/-- The lists whose items the API tells apart, and the fields it tells them apart by.  A
    key that an item does not name has the API's default. -/
def listKeys : Json.ListKeys
  | .field name :: above =>
    if name ∈ ["containers", "initContainers", "env", "volumes", "claims"] then some ["name"]
    else if name = "volumeMounts" then some ["mountPath"]
    else if name = "ownerReferences" then some ["uid"]
    else if name = "ports" then
      some [if above = [.field "spec"] then "port" else "containerPort", "protocol"]
    else none
  | _ => none

/-- The fields of a document. -/
def documentFields (d : Manifest) : Fields := fun p => Json.fieldAt listKeys [] p d.body

/-- The path leads to an annotation, an environment variable, a volume, a mount or a port,
    or to a part of one. -/
def isEntryPath : Json.FieldPath → Bool
  | .field name :: e :: p =>
    name ∈ ["annotations", "env", "volumes", "volumeMounts", "ports"] || isEntryPath (e :: p)
  | .item _ :: p => isEntryPath p
  | _ => false

/-- The entries that a field holds.  The list `envFrom` is one field with all its entries. -/
def entries (p : Json.FieldPath) : Option Json → List Json
  | none => []
  | some v =>
    if isEntryPath p then [v]
    else match p.getLast?, v with
      | some (.field "envFrom"), .arr xs => xs
      | _, _ => []

@[simp] theorem entries_none (p : Json.FieldPath) : entries p none = [] := rfl

/-! ## The server -/

/-- The field manager of the Go controller. -/
def cubeOperator : String := "cube-operator"

/-- A stored object. -/
abbrev Tracked : Type := ManagedFields String Json.FieldPath Json

/-- The stored objects. -/
abbrev TrackedStore : Type := Key → Option Tracked

variable {client : String}

/-- The objects after a write, where `client` is the field manager of the Kopf client. -/
def TrackedStore.after (client : String) (s : TrackedStore) : Action → TrackedStore
  | .apply d =>
    Function.update s d.key (some (((s d.key).getD .empty).apply cubeOperator (documentFields d)))
  | .create d =>
    Function.update s d.key
      (some ((s d.key).getD (ManagedFields.empty.write client (documentFields d))))
  | .patch d =>
    Function.update s d.key
      ((s d.key).map fun o => o.write client (Json.patchFields listKeys o.value d.body))
  | .delete k => Function.update s k none
  | _ => s

/-- The objects have the fields of their content. -/
def HasContent (s : TrackedStore) (content : Store) : Prop :=
  ∀ k, (s k).map ManagedFields.value = (content k).map fun j p => Json.fieldAt listKeys [] p j

/-- An object is absent from both stores, or has in one the fields of its content in the
    other. -/
theorem HasContent.cases {s : TrackedStore} {content : Store} (h : HasContent s content) (k : Key) :
    (s k = none ∧ content k = none) ∨ ∃ o j, s k = some o ∧ content k = some j ∧
      o.value = fun p => Json.fieldAt listKeys [] p j := by
  have hk := h k
  cases hs : s k with
  | none =>
    rw [hs, Option.map_none, eq_comm, Option.map_eq_none_iff] at hk
    exact .inl ⟨rfl, hk⟩
  | some o =>
    rw [hs, Option.map_some, eq_comm, Option.map_eq_some_iff] at hk
    obtain ⟨j, hj, hvalue⟩ := hk
    exact .inr ⟨o, j, rfl, hj, hvalue.symm⟩

/-- The writes of the Kopf controller change the fields as they change the content. -/
theorem hasContent_after {s : TrackedStore} {content : Store} {a : Action}
    (h : HasContent s content) (happly : ∀ d, a ≠ .apply d) (hplain : ∀ d, a = .patch d → d.body.Plain) :
    HasContent (s.after client a) (content.after a) := by
  intro k
  cases a with
  | apply d => exact absurd rfl (happly d)
  | create d =>
    by_cases hk : k = d.key
    · subst hk
      simp only [TrackedStore.after, Function.update_self, after_create, Option.map_some]
      rcases h.cases d.key with ⟨hs, hcontent⟩ | ⟨o, j, hs, hcontent, hvalue⟩
      · rw [hs, hcontent]
        rfl
      · rw [hs, hcontent, Option.getD_some, Option.getD_some, hvalue]
    · simpa [TrackedStore.after, Store.after, hk] using h k
  | patch d =>
    by_cases hk : k = d.key
    · subst hk
      simp only [TrackedStore.after, Function.update_self, after_patch]
      rcases h.cases d.key with ⟨hs, hcontent⟩ | ⟨o, j, hs, hcontent, hvalue⟩
      · rw [hs, hcontent]
        rfl
      · rw [hs, hcontent, Option.map_some, Option.map_some, Option.map_some, Option.map_some,
          ManagedFields.value_write, hvalue, Json.patchFields_fieldAt (hplain d rfl)]
    · simpa [TrackedStore.after, Store.after, hk] using h k
  | delete k' =>
    by_cases hk : k = k'
    · simp [TrackedStore.after, Store.after, hk]
    · simpa [TrackedStore.after, Store.after, hk] using h k
  | _ => exact h k

/-- The server grants a create of an absent object, and a patch or a delete of one that
    is there. -/
def TrackedStore.Grants (s : TrackedStore) : Action → Prop
  | .create d => s d.key = none
  | .patch d => s d.key ≠ none
  | .delete k => s k ≠ none
  | _ => True

/-- The objects before and after a call.  A write that fails may have been made all the
    same; a 404 is the truth. -/
def ServesFields (client : String) (s : TrackedStore) (e : Exchange) (s' : TrackedStore) : Prop :=
  match e with
  | ⟨.act a, r⟩ =>
    (s' = s.after client a ∨ (r ≠ .ok () ∧ s' = s)) ∧ (r = .ok () → s.Grants a) ∧
      ∀ k err, a = .delete k → r = .error err → err.isNotFound → s k = none
  | ⟨.get k, r⟩ =>
    s' = s ∧ (k.kind.isReference = false →
      (∀ l, r = .ok l → s k ≠ none) ∧ ∀ err, r = .error err → err.isNotFound → s k = none)
  | _ => s' = s

/-- A server that grants what can be granted, with every object a spec refers to. -/
def serveFields (client : String) (s : TrackedStore) : (c : Call) → Answer c × TrackedStore
  | .act (.create d) =>
    match s d.key with
    | none => (.ok (), s.after client (.create d))
    | some _ => (.error .alreadyExists, s)
  | .act (.patch d) =>
    match s d.key with
    | none => (.error .notFound, s)
    | some _ => (.ok (), s.after client (.patch d))
  | .act (.delete k) =>
    match s k with
    | none => (.error .notFound, s)
    | some _ => (.ok (), s.after client (.delete k))
  | .act a => (.ok (), s.after client a)
  | .getCluster _ _ => (.ok Go.smallCluster, s)
  | .get k =>
    if k.kind.isReference then (.ok {}, s)
    else match s k with
      | none => (.error .notFound, s)
      | some _ => (.ok { readyReplicas := some 2 }, s)
  | .httpGet url => (.status 200 "OK" url, s)
  | .now => (0, s)

theorem servesFields_serveFields (s : TrackedStore) (c : Call) :
    ServesFields client s ⟨c, (serveFields client s c).1⟩ (serveFields client s c).2 := by
  cases c with
  | act a =>
    cases a with
    | create d => cases h : s d.key <;> simp [serveFields, ServesFields, TrackedStore.Grants, h]
    | patch d => cases h : s d.key <;> simp [serveFields, ServesFields, TrackedStore.Grants, h]
    | delete k => cases h : s k <;> simp [serveFields, ServesFields, TrackedStore.Grants, h]
    | _ => simp [serveFields, ServesFields, TrackedStore.Grants]
  | get k =>
    cases hk : k.kind.isReference <;> cases h : s k <;> simp [serveFields, ServesFields, hk, h]
  | _ => rfl

/-! ## The server without owners -/

theorem HasContent.eq_none_iff {s : TrackedStore} {content : Store} (h : HasContent s content)
    (k : Key) : s k = none ↔ content k = none := by
  rcases h.cases k with ⟨hs, hcontent⟩ | ⟨o, j, hs, hcontent, -⟩ <;> simp [hs, hcontent]

theorem HasContent.grants_iff {s : TrackedStore} {content : Store} {a : Action}
    (h : HasContent s content) : s.Grants a ↔ content.Grants a := by
  cases a with
  | create d => exact h.eq_none_iff d.key
  | patch d => exact not_congr (h.eq_none_iff d.key)
  | delete k => exact not_congr (h.eq_none_iff k)
  | _ => exact Iff.rfl

/-- What the server with owners does on a call of the Kopf controller, the server with
    contents does as well. -/
theorem servesContent_of_fields {s s' : TrackedStore} {content : Store} {e : Exchange}
    (h : HasContent s content) (happly : ∀ d r, e ≠ .did (.apply d) r)
    (hplain : ∀ d r, e = .did (.patch d) r → d.body.Plain) (hserves : ServesFields client s e s') :
    ∃ content', ServesContent content e content' ∧ HasContent s' content' := by
  obtain ⟨c, r⟩ := e
  cases c with
  | act a =>
    obtain ⟨hs, hgrants, habsent⟩ := hserves
    have hgranted : r = .ok () → content.Grants a := fun hr => h.grants_iff.mp (hgrants hr)
    have hgone : ∀ k err, a = .delete k → r = .error err → err.isNotFound → content k = none :=
      fun k err ha hr herr => (h.eq_none_iff k).mp (habsent k err ha hr herr)
    rcases hs with rfl | ⟨hr, rfl⟩
    · -- the write was made, whatever the answer is
      have hafter : HasContent (s.after client a) (content.after a) :=
        hasContent_after h (fun d ha => happly d r (ha ▸ rfl)) fun d ha => hplain d r (ha ▸ rfl)
      exact ⟨content.after a, ⟨.inl rfl, hgranted, hgone⟩, hafter⟩
    · exact ⟨content, ⟨.inr ⟨hr, rfl⟩, hgranted, hgone⟩, h⟩
  | get k =>
    obtain ⟨rfl, hanswer⟩ := hserves
    refine ⟨content, ⟨rfl, fun hk => ⟨fun l hl => ?_, fun err hr herr => ?_⟩⟩, h⟩
    · exact fun hnone => (hanswer hk).1 l hl ((h.eq_none_iff k).mpr hnone)
    · exact (h.eq_none_iff k).mp ((hanswer hk).2 err hr herr)
  | _ =>
    obtain rfl : s' = s := hserves
    exact ⟨content, rfl, h⟩

end CubeOperator
