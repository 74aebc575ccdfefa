import CubeOperator.Api.Calls
import Mathlib.Logic.Function.Basic

/-! # What the objects contain

    The objects with the content that controllers write: metadata and spec.  What
    the API server assigns by itself is left out.  A create stores a document, a
    merge patch merges one into what is stored. -/

namespace CubeOperator

open Interaction Kube

/-! ## The store -/

/-- The stored objects. -/
abbrev Store : Type := Key → Option Json

/-- The object an action writes or deletes. -/
def Target : Action → Option Key
  | .create d | .patch d | .apply d => some d.key
  | .delete k => some k
  | _ => none

/-- The objects after a write. -/
def Store.after (s : Store) : Action → Store
  | .create d => Function.update s d.key (some ((s d.key).getD d.body))
  | .patch d => Function.update s d.key ((s d.key).map fun j => j.mergePatch d.body)
  | .delete k => Function.update s k none
  | _ => s

/-- The server grants a create of an absent object, and a patch or a delete of one that
    is there. -/
def Store.Grants (s : Store) : Action → Prop
  | .create d => s d.key = none
  | .patch d => s d.key ≠ none
  | .delete k => s k ≠ none
  | _ => True

variable {s s' : Store} {a : Action} {e : Exchange} {k : Key}

/-- A write touches only its target. -/
theorem after_of_ne (h : Target a ≠ some k) : s.after a k = s k := by
  cases a with
  | create d => exact Function.update_of_ne (fun hk => h (by simp [Target, hk])) _ _
  | patch d => exact Function.update_of_ne (fun hk => h (by simp [Target, hk])) _ _
  | delete k' => exact Function.update_of_ne (fun hk => h (by simp [Target, hk])) _ _
  | _ => rfl

@[simp] theorem after_create (s : Store) (d : Manifest) :
    s.after (.create d) d.key = some ((s d.key).getD d.body) := Function.update_self ..

@[simp] theorem after_patch (s : Store) (d : Manifest) :
    s.after (.patch d) d.key = (s d.key).map fun j => j.mergePatch d.body :=
  Function.update_self ..

@[simp] theorem after_delete (s : Store) (k : Key) : s.after (.delete k) k = none :=
  Function.update_self ..

/-! ## The server -/

/-- The objects before and after a call.  A write that fails may have been made all
    the same.  Server-side applies, which the Kopf controller does not make, are not
    modelled. -/
def ServesContent (s : Store) (e : Exchange) (s' : Store) : Prop :=
  match e with
  | ⟨.act a, r⟩ =>
    (s' = s.after a ∨ (r ≠ .ok () ∧ s' = s)) ∧ (r = .ok () → s.Grants a) ∧
      ∀ k err, a = .delete k → r = .error err → err.isNotFound → s k = none
  | ⟨.get k, r⟩ =>
    s' = s ∧ (k.kind.isReference = false →
      (∀ l, r = .ok l → s k ≠ none) ∧ ∀ err, r = .error err → err.isNotFound → s k = none)
  | _ => s' = s

/-- A call changes nothing or makes its write. -/
theorem servesContent_cases (h : ServesContent s e s') :
    s' = s ∨ ∃ a r, e = .did a r ∧ s' = s.after a := by
  obtain ⟨c, r⟩ := e
  cases c with
  | act a =>
    rcases h.1 with hs | ⟨-, hs⟩
    · exact .inr ⟨a, r, rfl, hs⟩
    · exact .inl hs
  | get k => exact .inl h.1
  | _ => exact .inl h

/-- A server that grants what can be granted, with every object a spec refers to. -/
def serveContent (s : Store) : (c : Call) → Answer c × Store
  | .act (.create d) =>
    match s d.key with
    | none => (.ok (), s.after (.create d))
    | some _ => (.error .alreadyExists, s)
  | .act (.patch d) =>
    match s d.key with
    | none => (.error .notFound, s)
    | some _ => (.ok (), s.after (.patch d))
  | .act (.delete k) =>
    match s k with
    | none => (.error .notFound, s)
    | some _ => (.ok (), s.after (.delete k))
  | .act a => (.ok (), s.after a)
  | .getCluster _ _ => (.error .notFound, s)
  | .get k =>
    if k.kind.isReference then (.ok {}, s)
    else match s k with
      | none => (.error .notFound, s)
      | some _ => (.ok { readyReplicas := some 2 }, s)
  | .httpGet url => (.status 200 "OK" url, s)
  | .now => (0, s)

theorem servesContent_serveContent (s : Store) (c : Call) :
    ServesContent s ⟨c, (serveContent s c).1⟩ (serveContent s c).2 := by
  cases c with
  | act a =>
    cases a with
    | create d => cases h : s d.key <;> simp [serveContent, ServesContent, Store.Grants, h]
    | patch d => cases h : s d.key <;> simp [serveContent, ServesContent, Store.Grants, h]
    | delete k => cases h : s k <;> simp [serveContent, ServesContent, Store.Grants, h]
    | _ => simp [serveContent, ServesContent, Store.Grants]
  | get k =>
    cases hk : k.kind.isReference <;> cases h : s k <;> simp [serveContent, ServesContent, hk, h]
  | _ => rfl

/-- The object a call writes or deletes. -/
def Exchange.target : Exchange → Option Key
  | ⟨.act a, _⟩ => Target a
  | _ => none

/-- Some call writes or deletes the object. -/
def Touched (tr : List Exchange) (k : Key) : Prop := ∃ e : Exchange, e ∈ tr ∧ e.target = some k

theorem touched_append {tr tr' : List Exchange} :
    Touched (tr ++ tr') k ↔ Touched tr k ∨ Touched tr' k := by
  constructor
  · rintro ⟨e, he, hk⟩
    rcases List.mem_append.mp he with he | he
    · exact .inl ⟨e, he, hk⟩
    · exact .inr ⟨e, he, hk⟩
  · rintro (⟨e, he, hk⟩ | ⟨e, he, hk⟩)
    · exact ⟨e, List.mem_append_left _ he, hk⟩
    · exact ⟨e, List.mem_append_right _ he, hk⟩

theorem touched_singleton : Touched [e] k ↔ e.target = some k := by
  simp [Touched]

/-- A call touches only its target. -/
theorem servesContent_of_ne (h : ServesContent s e s') (he : e.target ≠ some k) : s' k = s k := by
  rcases servesContent_cases h with rfl | ⟨a, r, rfl, rfl⟩
  · rfl
  · exact after_of_ne he

/-! ## Content -/

/-- The object has the content `want`: neither exists, or both do and have the same
    fields with the same values. -/
def SameObject : Option Json → Option Json → Prop
  | none, none => True
  | some j, some j' => j.Same j'
  | _, _ => False

theorem SameObject.refl (o : Option Json) : SameObject o o := by
  cases o with
  | none => trivial
  | some j => exact Json.Same.refl j

theorem SameObject.trans {o o' o'' : Option Json} (h : SameObject o o') (h' : SameObject o' o'') :
    SameObject o o'' := by
  cases o <;> cases o' <;> cases o'' <;> first | trivial | exact h.elim | exact h'.elim | skip
  exact Json.Same.trans h h'

/-- A field of the object, given by its path. -/
def HasField (o : Option Json) (p : List String) : Prop := ∃ j, o = some j ∧ (j.view p).isSome

theorem SameObject.hasField {o o' : Option Json} (h : SameObject o o') {p : List String}
    (hp : HasField o p) : HasField o' p := by
  obtain ⟨j, rfl, hj⟩ := hp
  cases o' with
  | none => exact h.elim
  | some j' => exact ⟨j', rfl, by rwa [← h p]⟩

/-- A granted write leaves the document written; a merge patch does if the document
    covers what is stored. -/
theorem after_same {d : Manifest} (hgrants : s.Grants a) (ha : a = .create d ∨ a = .patch d)
    (hplain : d.body.Plain) (hcovered : ∀ j, a = .patch d → s d.key = some j → j.Covered d.body) :
    SameObject (s.after a d.key) (some d.body) := by
  rcases ha with rfl | rfl
  · have habsent : s d.key = none := hgrants
    rw [after_create, habsent]
    exact Json.Same.refl _
  · cases hj : s d.key with
    | none => exact absurd hj hgrants
    | some j =>
      rw [after_patch, hj]
      exact (Json.mergePatch_same_iff hplain).mpr (hcovered j rfl hj)

/-- The fields of an object after a write were there before, or are written. -/
theorem hasField_after {p : List String} (h : HasField (s.after a k) p)
    (hplain : ∀ d, a = .create d ∨ a = .patch d → d.body.Plain) :
    HasField (s k) p ∨
      ∃ d, (a = .create d ∨ a = .patch d) ∧ d.key = k ∧ (d.body.view p).isSome := by
  by_cases hk : Target a = some k
  · obtain ⟨j, hj, hp⟩ := h
    cases a with
    | create d =>
      obtain rfl : d.key = k := by simpa [Target] using hk
      rw [after_create, Option.some.injEq] at hj
      cases hs : s d.key with
      | none =>
        rw [hs, Option.getD_none] at hj
        exact .inr ⟨d, .inl rfl, rfl, hj ▸ hp⟩
      | some j' =>
        rw [hs, Option.getD_some] at hj
        exact .inl ⟨j', rfl, hj ▸ hp⟩
    | patch d =>
      obtain rfl : d.key = k := by simpa [Target] using hk
      rw [after_patch] at hj
      obtain ⟨j', hs, rfl⟩ := Option.map_eq_some_iff.mp hj
      rcases Json.isSome_view_mergePatch (hplain d (.inr rfl)) hp with hp | hp
      · exact .inl ⟨j', hs, hp⟩
      · exact .inr ⟨d, .inr rfl, rfl, hp⟩
    | delete k' =>
      obtain rfl : k' = k := by simpa [Target] using hk
      rw [after_delete] at hj
      cases hj
    | apply d => exact .inl ⟨j, hj, hp⟩
    | _ => cases hk
  · rw [after_of_ne hk] at h
    exact .inl h

/-- A field stays when the object is not deleted and no patch blocks its path. -/
theorem hasField_after_of_hasField {p : List String} (h : HasField (s k) p) (ha : a ≠ .delete k)
    (hpatch : ∀ d, a = .patch d → d.body.Plain ∧ Json.blocks p d.body = false) :
    HasField (s.after a k) p := by
  by_cases hk : Target a = some k
  · obtain ⟨j, hj, hp⟩ := h
    cases a with
    | create d =>
      obtain rfl : d.key = k := by simpa [Target] using hk
      exact ⟨j, by rw [after_create, hj, Option.getD_some], hp⟩
    | patch d =>
      obtain rfl : d.key = k := by simpa [Target] using hk
      obtain ⟨hplain, hblocks⟩ := hpatch d rfl
      exact ⟨_, by rw [after_patch, hj, Option.map_some],
        Json.isSome_view_mergePatch_left hplain hp hblocks⟩
    | delete k' =>
      obtain rfl : k' = k := by simpa [Target] using hk
      exact absurd rfl ha
    | apply d => exact ⟨j, hj, hp⟩
    | _ => cases hk
  · rwa [after_of_ne hk]

/-- A granted create or patch writes the fields of its document. -/
theorem hasField_after_write {p : List String} {d : Manifest} (hgrants : s.Grants a)
    (ha : a = .create d ∨ a = .patch d) (hplain : d.body.Plain) (hp : (d.body.view p).isSome) :
    HasField (s.after a d.key) p := by
  rcases ha with rfl | rfl
  · have habsent : s d.key = none := hgrants
    exact ⟨d.body, by rw [after_create, habsent, Option.getD_none], hp⟩
  · obtain ⟨j, hj⟩ := Option.ne_none_iff_exists'.mp hgrants
    exact ⟨_, by rw [after_patch, hj, Option.map_some], Json.isSome_view_mergePatch_right hplain hp⟩

end CubeOperator
