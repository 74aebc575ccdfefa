import CubeOperator.Api.Calls
import CubeOperator.Kube.Managed
import Mathlib.Order.BooleanAlgebra.Set

/-! # Which objects exist

    What the calls of a pass do to the set of existing objects, when nobody but
    the controllers creates or deletes one.  The rules at the end say what a loop
    of applies and a loop of deletes do to it. -/

namespace CubeOperator

open Interaction Kube

/-! ## The server -/

/-- Which objects exist before and after a call.  A write that fails may have been
    made all the same, as when the answer is lost; a 404 is the truth.  Objects a spec
    refers to are not ours and may come and go. -/
def ServesObjects (s : Set Key) (e : Exchange) (s' : Set Key) : Prop :=
  match e with
  | ⟨.act (.apply d), r⟩ => s' = insert d.key s ∨ (r ≠ .ok () ∧ s' = s)
  | ⟨.act (.create d), r⟩ =>
    (s' = insert d.key s ∧ (r = .ok () → d.key ∉ s)) ∨ (r ≠ .ok () ∧ s' = s)
  | ⟨.act (.patch d), r⟩ => s' = s ∧ (r = .ok () → d.key ∈ s)
  | ⟨.act (.delete k), r⟩ =>
    (s' = s \ {k} ∨ (r ≠ .ok () ∧ s' = s)) ∧ ∀ err, r = .error err → err.isNotFound → k ∉ s
  | ⟨.get k, r⟩ =>
    s' = s ∧ (k.kind.isReference = false →
      (∀ l, r = .ok l → k ∈ s) ∧ ∀ err, r = .error err → err.isNotFound → k ∉ s)
  | _ => s' = s

/-- A call that may create or delete an object. -/
def IsWrite : Exchange → Bool
  | ⟨.act (.apply _), _⟩ | ⟨.act (.create _), _⟩ | ⟨.act (.delete _), _⟩ => true
  | _ => false

theorem servesObjects_unchanged {s s' : Set Key} {e : Exchange} (h : ServesObjects s e s')
    (he : IsWrite e = false) : s' = s := by
  unfold ServesObjects at h
  split at h
  · cases he
  · cases he
  · exact h.1
  · cases he
  · exact h.1
  · exact h

section writes

variable {s s' : Set Key} {d : Manifest} {k : Key} {r : Except ApiError Unit}

/-- An apply removes nothing, and when it succeeds the object exists. -/
theorem servesObjects_apply (h : ServesObjects s (.did (.apply d) r) s') :
    s ⊆ s' ∧ (r = .ok () → d.key ∈ s') := by
  rcases h with h | ⟨hr, h⟩
  · rw [h]
    exact ⟨Set.subset_insert .., fun _ => Set.mem_insert ..⟩
  · rw [h]
    exact ⟨subset_rfl, fun hok => absurd hok hr⟩

theorem servesObjects_create (h : ServesObjects s (.did (.create d) r) s') :
    s ⊆ s' ∧ (r = .ok () → d.key ∈ s') := by
  rcases h with ⟨h, -⟩ | ⟨hr, h⟩
  · rw [h]
    exact ⟨Set.subset_insert .., fun _ => Set.mem_insert ..⟩
  · rw [h]
    exact ⟨subset_rfl, fun hok => absurd hok hr⟩

/-- A delete removes at most its object, which is gone when it succeeds and was
    absent when it is answered with a 404. -/
theorem servesObjects_delete (h : ServesObjects s (.did (.delete k) r) s') :
    s \ {k} ⊆ s' ∧ s' ⊆ s ∧ (r = .ok () → k ∉ s') ∧
      ∀ err, r = .error err → err.isNotFound → k ∉ s := by
  obtain ⟨h, hnotFound⟩ := h
  refine ⟨?_, ?_, ?_, hnotFound⟩
  · rcases h with h | ⟨-, h⟩ <;> rw [h]
    exact Set.sdiff_subset
  · rcases h with h | ⟨-, h⟩ <;> rw [h]
    exact Set.sdiff_subset
  · intro hok
    rcases h with h | ⟨hr, -⟩
    · simp [h]
    · exact absurd hok hr

end writes

/-! ## Clean passes -/

/-- The answer that one of our objects does not exist, which a pass takes as it is. -/
def IsAbsence : Exchange → Prop
  | ⟨.act (.delete _), .error err⟩ => err.isNotFound
  | ⟨.get k, .error err⟩ => k.kind.isReference = false ∧ err.isNotFound
  | _ => False

instance : DecidablePred IsAbsence
  | ⟨.act (.delete _), .error err⟩ => inferInstanceAs (Decidable (err.isNotFound = true))
  | ⟨.get k, .error err⟩ =>
    inferInstanceAs (Decidable (k.kind.isReference = false ∧ err.isNotFound = true))
  | ⟨.act (.delete _), .ok _⟩ | ⟨.get _, .ok _⟩ | ⟨.act (.discover _), _⟩ | ⟨.act (.apply _), _⟩
  | ⟨.act (.create _), _⟩ | ⟨.act (.patch _), _⟩ | ⟨.act (.patchStatus _ _ _ _), _⟩
  | ⟨.getCluster _ _, _⟩ | ⟨.httpGet _, _⟩ | ⟨.now, _⟩ => isFalse id

/-- No call failed. -/
def Clean (log : List Exchange) : Prop := ∀ e ∈ log, e.error? ≠ none → IsAbsence e

instance (log : List Exchange) : Decidable (Clean log) :=
  inferInstanceAs (Decidable (∀ e ∈ log, e.error? ≠ none → IsAbsence e))

theorem Clean.of_append {log log' : List Exchange} (h : Clean (log ++ log')) : Clean log :=
  (List.forall_mem_append.mp h).1

theorem not_clean_append {log : List Exchange} {e : Exchange} (he : e.error? ≠ none)
    (hnot : ¬IsAbsence e) : ¬Clean (log ++ [e]) :=
  fun h => hnot (h e (by simp) he)

/-! ## Topologies -/

section topology

variable (ns name : String)

/-- All objects of one topology exist. -/
def Complete (s : Set Key) : Prop :=
  ∃ clustered, ∀ k ∈ storeKeys clustered ns name, k ∈ s

/-- What every call of a pass keeps: a complete topology, and the objects of Cube. -/
structure Keeps (s : Set Key) (e : Exchange) (s' : Set Key) : Prop where
  complete : Complete ns name s → Complete ns name s'
  core : ∀ k r, e = .did (.delete k) r → k ∉ coreKeys ns name

/-- Of the managed objects, exactly those of the topology exist. -/
def Exact (clustered : Bool) (s : Set Key) : Prop :=
  ∀ k ∈ managedKeys ns name, k ∈ s ↔ k ∈ clusterKeys clustered ns name

/-- What a pass leaves when no call of it failed. -/
def Done (clustered : Bool) (st : Set Key × List Exchange) : Prop :=
  Clean st.2 → Exact ns name clustered st.1

variable {ns name} {s s' : Set Key} {e : Exchange}

theorem keeps_of_subset (h : s ⊆ s') (he : ∀ k r, e ≠ .did (.delete k) r) :
    Keeps ns name s e s' where
  complete := by
    rintro ⟨clustered, hall⟩
    exact ⟨clustered, fun k hk => h (hall k hk)⟩
  core k r hdelete := absurd hdelete (he k r)

theorem keeps_of_quiet (h : ServesObjects s e s') (he : IsWrite e = false) : Keeps ns name s e s' := by
  refine keeps_of_subset (servesObjects_unchanged h he ▸ subset_rfl) ?_
  rintro k r rfl
  cases he

/-- A delete of the other topology keeps this one. -/
theorem keeps_of_delete {clustered : Bool} {k : Key} {r : Except ApiError Unit}
    (hk : k ∈ storeKeys (!clustered) ns name) (hall : ∀ k ∈ storeKeys clustered ns name, k ∈ s)
    (h : s \ {k} ⊆ s') : Keeps ns name s (.did (.delete k) r) s' where
  complete _ := by
    refine ⟨clustered, fun k' hk' => h ⟨hall k' hk', ?_⟩⟩
    rintro rfl
    exact notMem_clusterKeys hk (List.mem_append_right _ hk')
  core k' r' hdelete := by
    cases hdelete
    exact fun hcore => notMem_clusterKeys hk (List.mem_append_left _ hcore)

end topology

/-! ## Parts of a pass -/

section parts

variable (ns name : String) {α ε β : Type}

/-- Every call of the part keeps the topologies, and the part ends in `Q`, when it
    begins with the objects and the calls of `st`. -/
abbrev Part (Q : α → Set Key × List Exchange → Prop) (p : Op α) (st : Set Key × List Exchange) :
    Prop :=
  Ensures (logged ServesObjects) (fun st e st' => Keeps ns name st.1 e st'.1) Q p st

/-- How a part ends: it completes with `P`, or some call has failed. -/
def Ends (P : Set Key × List Exchange → Prop) : Except ε α → Set Key × List Exchange → Prop
  | .ok _, st => P st
  | .error _, st => ¬Clean st.2

/-- `x` makes sure that the object `k` exists, and removes nothing. -/
def Grows (k : Key) (x : OpE ε Unit) : Prop :=
  ∀ s log, Part ns name
    (fun r st => s ⊆ st.1 ∧ log <+: st.2 ∧ Ends (fun st => k ∈ st.1) r st) x.run (s, log)

/-- With a complete topology in place, `x` removes the object `k` and no other. -/
def Shrinks (clustered : Bool) (k : Key) (x : OpE ε Unit) : Prop :=
  ∀ s log, (∀ k' ∈ storeKeys clustered ns name, k' ∈ s) →
    Part ns name (fun r st => s \ {k} ⊆ st.1 ∧ st.1 ⊆ s ∧ log <+: st.2 ∧
      Ends (fun st => Clean st.2 → k ∉ st.1) r st) x.run (s, log)

variable {ns name}

/-- A part without writes changes nothing. -/
theorem Part.quiet {p : Op α} (hp : Only (fun e => IsWrite e = false) p) (s : Set Key)
    (log : List Exchange) :
    Part ns name (fun a st => st.1 = s ∧ ∃ tr, st.2 = log ++ tr ∧ Exec p tr a) p (s, log) := by
  refine Ensures.of_only (I := fun st => st.1 = s) ?_ hp rfl ?_
  · intro st e st' he hs hserves
    exact ⟨(servesObjects_unchanged hserves.1 he).trans hs, keeps_of_quiet hserves.1 he⟩
  · intro tr a st' hexec hreplay hs
    exact ⟨hs, tr, hreplay.log_eq, hexec⟩

theorem Part.quiet_done {clustered : Bool} {valid : Prop} {p : Op α}
    {st : Set Key × List Exchange} (hp : Only (fun e => IsWrite e = false) p)
    (hst : valid → Done ns name clustered st) :
    Part ns name (fun _ st' => valid → Done ns name clustered st') p st := by
  refine (Part.quiet hp st.1 st.2).mono ?_
  rintro a st' ⟨hs, tr, hlog, -⟩ hvalid hclean
  rw [hlog] at hclean
  rw [hs]
  exact hst hvalid hclean.of_append

/-- The loop of applies: afterwards all its objects exist. -/
theorem Part.grows {ι : Type} {body : ι → OpE ε Unit} {key : ι → Key}
    (hbody : ∀ x, Grows ns name (key x) (body x)) :
    ∀ xs s log, Part ns name (fun r st => s ⊆ st.1 ∧ log <+: st.2 ∧
      Ends (fun st => ∀ k ∈ xs.map key, k ∈ st.1) r st) (Attempt.forEach body xs).run (s, log)
  | [], s, log => ⟨subset_rfl, List.prefix_rfl, by simp [Ends]⟩
  | x :: xs, s, log => by
    refine Ensures.seqAttempt (hbody x s log) (fun e st h => h) fun _ st hst => ?_
    obtain ⟨hs, hlog, hx⟩ := hst
    refine (Part.grows hbody xs st.1 st.2).mono fun r st' hst' => ?_
    obtain ⟨hs', hlog', hrest⟩ := hst'
    refine ⟨hs.trans hs', hlog.trans hlog', ?_⟩
    cases r with
    | ok u => exact List.forall_mem_cons.mpr ⟨hs' hx, hrest⟩
    | error e => exact hrest

/-- The loop of deletes: afterwards, if no call failed, its objects do not exist, and
    the others are untouched. -/
theorem Part.shrinks {clustered : Bool} {body : Key → OpE ε Unit} :
    ∀ (ks : List Key) (s : Set Key) (log : List Exchange),
      (∀ k ∈ ks, k ∈ storeKeys (!clustered) ns name) →
      (∀ k ∈ ks, Shrinks ns name clustered k (body k)) →
      (∀ k ∈ clusterKeys clustered ns name, k ∈ s) →
      Part ns name (fun r st => (∀ k ∈ clusterKeys clustered ns name, k ∈ st.1) ∧ st.1 ⊆ s ∧
        log <+: st.2 ∧ Ends (fun st => Clean st.2 → ∀ k ∈ ks, k ∉ st.1) r st)
        (Attempt.forEach body ks).run (s, log)
  | [], s, log, _, _, hs => ⟨hs, subset_rfl, List.prefix_rfl, by simp [Ends]⟩
  | k :: ks, s, log, hks, hbody, hs => by
    have hstore : ∀ k' ∈ storeKeys clustered ns name, k' ∈ s :=
      fun k' hk' => hs k' (List.mem_append_right _ hk')
    -- the deleted object is none of the cluster's
    have hkept {st : Set Key × List Exchange} (hsub : s \ {k} ⊆ st.1) :
        ∀ k' ∈ clusterKeys clustered ns name, k' ∈ st.1 := by
      intro k' hk'
      refine hsub ⟨hs k' hk', ?_⟩
      rintro rfl
      exact notMem_clusterKeys (hks _ (by simp)) hk'
    refine Ensures.seqAttempt (hbody k (by simp) s log hstore) ?_ fun _ st hst => ?_
    · rintro e st ⟨hsub, hsup, hlog, hunclean⟩
      exact ⟨hkept hsub, hsup, hlog, hunclean⟩
    · obtain ⟨hsub, hsup, hlog, hgone⟩ := hst
      refine (Part.shrinks ks st.1 st.2 (fun k' hk' => hks k' (by simp [hk']))
        (fun k' hk' => hbody k' (by simp [hk'])) (hkept hsub)).mono fun r st' hst' => ?_
      obtain ⟨hcluster, hsup', hlog', hrest⟩ := hst'
      refine ⟨hcluster, hsup'.trans hsup, hlog.trans hlog', ?_⟩
      cases r with
      | ok u =>
        intro hclean
        have hfirst : k ∉ st.1 := hgone (fun e he => hclean e (hlog'.subset he))
        exact List.forall_mem_cons.mpr ⟨fun hk => hfirst (hsup' hk), hrest hclean⟩
      | error e => exact hrest

/-- All desired objects exist and all obsolete ones do not: the topology is exact. -/
theorem exact_of_clusterKeys {clustered : Bool} {s : Set Key}
    (hcluster : ∀ k ∈ clusterKeys clustered ns name, k ∈ s)
    (hgone : ∀ k ∈ storeKeys (!clustered) ns name, k ∉ s) : Exact ns name clustered s := by
  intro k hk
  rcases mem_managedKeys.mp hk with hk | hk
  · exact ⟨fun _ => hk, fun _ => hcluster k hk⟩
  · exact ⟨fun hs => absurd hs (hgone k hk), hcluster k⟩

end parts

end CubeOperator
