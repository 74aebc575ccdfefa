import CubeOperator.Content.Desired
import CubeOperator.Topology.Passes

/-! # What a pass of the Kopf controller writes

    A pass writes the desired documents and deletes the objects of the other
    topology, and nothing else.  When no call fails it has written or deleted every
    managed object.  What it has written is there until somebody else writes. -/

namespace CubeOperator

open Interaction Kube Crd V1alpha1

namespace Kopf

variable {q : Quantities} {b : Body}

/-! ## The writes of a pass -/

/-- The objects of the spec as if they had just been created. -/
def fresh (b : Body) : Store := fun k =>
  (((desiredObjects b.name b.ns b.spec).getD []).find? fun d => d.key = k).map
    fun d => (d.ownedBy (ownerReference b.name b.uid)).body

/-- The writes that a pass may make. -/
def Writes (b : Body) : Action → Prop
  | .create d | .patch d => ∃ ds d₀, desiredObjects b.name b.ns b.spec = some ds ∧ d₀ ∈ ds ∧
      d = d₀.ownedBy (ownerReference b.name b.uid)
  | .delete k => k ∈ storeKeys (!isClustered b.spec) b.ns b.name
  | .discover _ => True
  | _ => False

theorem document_of_writes {a : Action} {d : Manifest} (h : Writes b a)
    (ha : a = .create d ∨ a = .patch d) : ∃ ds d₀, desiredObjects b.name b.ns b.spec = some ds ∧
      d₀ ∈ ds ∧ d = d₀.ownedBy (ownerReference b.name b.uid) := by
  rcases ha with rfl | rfl <;> exact h

/-- An exchange that a pass may make. -/
def IsOwn (b : Body) : Exchange → Prop
  | ⟨.act a, _⟩ => Writes b a
  | ⟨.getCluster _ _, _⟩ => False
  | _ => True

/-- A pass makes only its own writes. -/
theorem only_reconcile : Only (IsOwn b) (reconcile q b) := by
  refine only_makes.mono fun e he => ?_
  cases he with
  | lookup r hk => trivial
  | act h =>
    cases h with
    | query h => cases h <;> trivial
    | create r hds hd => exact ⟨_, _, hds, hd, rfl⟩
    | patch r hds hd => exact ⟨_, _, hds, hd, rfl⟩
    | delete r hk => exact hk

/-! ## What the writes leave -/

theorem fresh_of_mem {ds : List Manifest} {d : Manifest}
    (h : desiredObjects b.name b.ns b.spec = some ds) (hd : d ∈ ds) :
    fresh b d.key = some (d.ownedBy (ownerReference b.name b.uid)).body := by
  have hnodup : (ds.map Manifest.key).Nodup := by
    rw [desiredObjects_keys h]
    exact clusterKeys_nodup ..
  have hfound : ds.find? (fun d' => d'.key = d.key) = some d := by
    cases hd' : ds.find? (fun d' => d'.key = d.key) with
    | none => exact absurd (List.find?_eq_none.mp hd' d hd) (by simp)
    | some d' =>
      have hkey : d'.key = d.key := by simpa using List.find?_some hd'
      rw [List.inj_on_of_nodup_map hnodup (List.mem_of_find?_eq_some hd') hd hkey]
  simp only [fresh, h, Option.getD_some, hfound, Option.map_some]

theorem fresh_of_obsolete {k : Key} (hk : k ∈ storeKeys (!isClustered b.spec) b.ns b.name) :
    fresh b k = none := by
  unfold fresh
  cases h : desiredObjects b.name b.ns b.spec with
  | none => rfl
  | some ds =>
    have habsent : k ∉ ds.map Manifest.key := by
      rw [desiredObjects_keys h]
      exact notMem_clusterKeys hk
    have hnone : ds.find? (fun d => d.key = k) = none := by
      rw [List.find?_eq_none]
      intro d hd hkey
      exact habsent (List.mem_map.mpr ⟨d, hd, by simpa using hkey⟩)
    simp [hnone]

/-- A write of the pass with its desired content. -/
theorem fresh_of_writes {a : Action} {k : Key} (h : Writes b a) (hk : Target a = some k) :
    (∃ d, (a = .create d ∨ a = .patch d) ∧ d.key = k ∧ d.body.Plain ∧ fresh b k = some d.body) ∨
      (a = .delete k ∧ fresh b k = none) := by
  have hdocument {d : Manifest} (ha : a = .create d ∨ a = .patch d) (hk : d.key = k) :
      ∃ d, (a = .create d ∨ a = .patch d) ∧ d.key = k ∧ d.body.Plain ∧ fresh b k = some d.body := by
    obtain ⟨ds, d₀, hds, hd₀, rfl⟩ := document_of_writes h ha
    subst hk
    have hfresh : fresh b d₀.key = _ := fresh_of_mem hds hd₀
    exact ⟨_, ha, rfl, plain_of_built (built_of_mem hds hd₀) _, hfresh⟩
  cases a with
  | create d => exact .inl (hdocument (.inl rfl) (by simpa [Target] using hk))
  | patch d => exact .inl (hdocument (.inr rfl) (by simpa [Target] using hk))
  | delete k' =>
    obtain rfl : k' = k := by simpa [Target] using hk
    exact .inr ⟨rfl, fresh_of_obsolete h⟩
  | discover kind => cases hk
  | _ => exact h.elim

/-- After a write of the pass that is granted, or a delete, the object has the desired
    content, provided that a patch covers what is stored. -/
theorem same_fresh_of_write {a : Action} {k : Key} {s : Store} (h : Writes b a)
    (hk : Target a = some k) (hgrants : a ≠ .delete k → s.Grants a)
    (hcovered : ∀ d j, a = .patch d → s d.key = some j → j.Covered d.body) :
    SameObject (s.after a k) (fresh b k) := by
  rcases fresh_of_writes h hk with ⟨d, ha, rfl, hplain, hfresh⟩ | ⟨rfl, hfresh⟩
  · rw [hfresh]
    refine after_same (hgrants ?_) ha hplain fun j hpatch => hcovered d j hpatch
    rcases ha with rfl | rfl <;> simp
  · rw [hfresh, after_delete]
    trivial

/-- A pass adds no fields but those of its spec. -/
theorem shaped_step {s s' : Store} {e : Exchange} {X : Set String}
    (hX : ∀ a ∈ annotationNames b.spec, a ∈ X) (h : ServesContent s e s') (hown : IsOwn b e)
    (hs : Shaped b.ns b.name X s) : Shaped b.ns b.name X s' := by
  rcases servesContent_cases h with rfl | ⟨a, r, rfl, rfl⟩
  · exact hs
  have hwrites : Writes b a := hown
  intro d₀ hd₀ p hp
  have hplain (d : Manifest) (ha : a = .create d ∨ a = .patch d) : d.body.Plain := by
    obtain ⟨ds, d₁, hds, hd₁, rfl⟩ := document_of_writes hwrites ha
    exact plain_of_built (built_of_mem hds hd₁) _
  rcases hasField_after hp hplain with hp | ⟨d, ha, hkey, hp⟩
  · exact hs d₀ hd₀ p hp
  · obtain ⟨ds, d₁, hds, hd₁, rfl⟩ := document_of_writes hwrites ha
    rcases (isSome_view_desired hds hd₁ hd₀ hkey.symm _ p).mp hp with hshape | ⟨hapi, c, hc, hpath⟩
    · exact .inl hshape
    · exact .inr ⟨hapi, c, hX c hc, hpath⟩

/-- What an exchange writes, when it does not fail. -/
theorem written_of_clean {s s' : Store} {e : Exchange} {k : Key} (hserves : ServesContent s e s')
    (hclean : e.error? ≠ none → IsAbsence e) (hk : e.target = some k) :
    ∃ a r, e = .did a r ∧ s' k = s.after a k ∧ (a ≠ .delete k → s.Grants a) := by
  obtain ⟨c, r⟩ := e
  cases c with
  | act a =>
    obtain ⟨hs, hgrants, habsent⟩ := hserves
    refine ⟨a, r, rfl, ?_⟩
    cases r with
    | ok u =>
      rcases hs with rfl | ⟨hne, -⟩
      · exact ⟨rfl, fun _ => hgrants rfl⟩
      · exact absurd rfl hne
    | error err =>
      -- of the writes only a delete can be answered with an absence
      cases a with
      | delete k' =>
        obtain rfl : k' = k := by simpa [Exchange.target, Target] using hk
        refine ⟨?_, fun hne => absurd rfl hne⟩
        have hnone := habsent k' err rfl rfl (hclean (by simp))
        rcases hs with rfl | ⟨-, rfl⟩
        · rfl
        · rw [after_delete, hnone]
      | _ => exact absurd (hclean (by simp)) id
  | _ => cases hk

theorem apiServiceKey_notMem : apiServiceKey b.ns b.name ∉ storeKeys (!isClustered b.spec) b.ns b.name :=
  fun h => notMem_clusterKeys h (List.mem_append_left _ (List.mem_cons_self ..))

/-! ## What a pass has written -/

/-- When no call fails, `x` completes and writes or deletes the objects `ks`. -/
def WritesAll {α : Type} (ks : List Key) (x : OpE Exc α) : Prop :=
  ∀ tr r, Exec x.run tr r → Clean tr → (∃ a, r = .ok a) ∧ ∀ k ∈ ks, Touched tr k

namespace WritesAll

theorem bind {α β : Type} {ks ks' : List Key} {x : OpE Exc α} {f : α → OpE Exc β}
    (hx : WritesAll ks x) (hf : ∀ a, WritesAll ks' (f a)) : WritesAll (ks ++ ks') (x >>= f) := by
  intro tr r hexec hclean
  rcases Exec.attempt_bind_iff.mp hexec with ⟨e, hfail, -⟩ | ⟨tr₁, a, tr₂, rfl, hfirst, hrest⟩
  · obtain ⟨⟨a, ha⟩, -⟩ := hx tr _ hfail hclean
    cases ha
  · obtain ⟨hclean₁, hclean₂⟩ := List.forall_mem_append.mp hclean
    have hks := (hx tr₁ _ hfirst hclean₁).2
    obtain ⟨hok, hks'⟩ := hf a tr₂ r hrest hclean₂
    refine ⟨hok, fun k hk => touched_append.mpr ?_⟩
    rcases List.mem_append.mp hk with hk | hk
    · exact .inl (hks k hk)
    · exact .inr (hks' k hk)

theorem forEach {ι : Type} {body : ι → OpE Exc Unit} {key : ι → Key}
    (h : ∀ x, WritesAll [key x] (body x)) :
    ∀ xs : List ι, WritesAll (xs.map key) (Attempt.forEach body xs)
  | [] => by
    intro tr r hexec _
    obtain ⟨-, rfl⟩ := Exec.ret_iff.mp hexec
    exact ⟨⟨(), rfl⟩, by simp⟩
  | x :: xs => bind (h x) fun _ => forEach h xs

/-- A call whose failure would show. -/
theorem act {a : Action} {ks : List Key} (hks : ∀ k ∈ ks, Target a = some k)
    (ha : ∀ e, ¬IsAbsence (.did a (.error e))) : WritesAll ks (act Exc.ofApi a) := by
  intro tr r hexec hclean
  obtain ⟨s, rfl, rfl⟩ := (exec_act Exc.ofApi).mp hexec
  cases s with
  | ok u => exact ⟨⟨(), rfl⟩, fun k hk => touched_singleton.mpr (hks k hk)⟩
  | error e => exact absurd (hclean _ (by simp) (by simp)) (ha e)

end WritesAll

theorem writesAll_createOrPatch (d : Manifest) : WritesAll [d.key] (createOrPatch d) := by
  have hpatch : WritesAll [d.key] (act Exc.ofApi (.patch d)) :=
    WritesAll.act (by simp [Target]) fun _ => id
  have hcreate : WritesAll [d.key] (act Exc.ofApi (.create d)) :=
    WritesAll.act (by simp [Target]) fun _ => id
  intro tr r hexec hclean
  rw [createOrPatch_eq] at hexec
  obtain ⟨found, tr', rfl, hrest⟩ := Exec.call_iff.mp hexec
  obtain ⟨hfound, hclean'⟩ := List.forall_mem_cons.mp hclean
  have hnext : (∃ a, r = .ok a) ∧ ∀ k ∈ [d.key], Touched tr' k := by
    unfold afterLookup at hrest
    cases found with
    | ok l => exact hpatch tr' r hrest hclean'
    | error e =>
      have he : e.isNotFound = true := (hfound (by simp)).2
      simp only [he, if_true] at hrest
      exact hcreate tr' r hrest hclean'
  obtain ⟨hok, hks⟩ := hnext
  refine ⟨hok, fun k hk => ?_⟩
  obtain ⟨e, he, hek⟩ := hks k hk
  exact ⟨e, List.mem_cons_of_mem _ he, hek⟩

theorem writesAll_applyObject (owner : OwnerReference) (d : Manifest) :
    WritesAll [d.key] (applyObject owner d) := by
  have hdiscover : WritesAll [] (resourceFor d.kind) := WritesAll.act (by simp) fun _ => id
  exact hdiscover.bind fun _ => writesAll_createOrPatch (d.ownedBy owner)

theorem writesAll_deleteIfPresent (k : Key) : WritesAll [k] (deleteIfPresent k) := by
  intro tr r hexec hclean
  rcases Exec.rescue_iff.mp hexec with ⟨a, rfl, hok⟩ | ⟨exc, rfl, hfail⟩
  · obtain ⟨tr₁, _, tr₂, rfl, -, hdelete⟩ := Exec.attempt_bind_ok_iff.mp hok
    obtain ⟨s, rfl, -⟩ := (exec_act Exc.ofApi).mp hdelete
    refine ⟨⟨_, rfl⟩, fun k' hk' => touched_append.mpr (.inr (touched_singleton.mpr ?_))⟩
    obtain rfl := List.mem_singleton.mp hk'
    rfl
  · rcases Exec.attempt_bind_error_iff.mp hfail with hdiscover | ⟨tr₁, _, tr₂, rfl, -, hdelete⟩
    · obtain ⟨s, rfl, hs⟩ := (exec_act Exc.ofApi).mp hdiscover
      cases s with
      | ok u => cases hs
      | error e =>
        have habsent := hclean (.did (.discover k.kind) (.error e)) (by simp) (by simp)
        exact absurd habsent id
    · obtain ⟨s, rfl, hs⟩ := (exec_act Exc.ofApi).mp hdelete
      cases s with
      | ok u => cases hs
      | error e =>
        -- the delete was answered with a 404, which is no exception
        obtain rfl : exc = Exc.ofApi e := by simpa [Except.mapError] using hs
        have he : e.isNotFound = true := hclean (.did (.delete k) (.error e)) (by simp) (by simp)
        refine ⟨⟨(), ?_⟩, fun k' hk' => touched_append.mpr (.inr (touched_singleton.mpr ?_))⟩
        · cases e with
          | status e => simpa [Exc.ofApi, unlessNotFound, ApiError.isNotFound] using he
          | other m => cases he
        · obtain rfl := List.mem_singleton.mp hk'
          rfl

/-- The objects part of a pass under a valid spec in which no call fails: all objects are
    applied, those of the other topology deleted, and the workloads read. -/
theorem exec_clean {tr : List Exchange} {r : Except Exc (ℤ × Bool × String)}
    (hvalid : Valid q b.spec) (hexec : Exec (reconcileObjects q b).run tr r) (hclean : Clean tr) :
    ∃ ds tr₁ tr₂ tr₃ tr₄, desiredObjects b.name b.ns b.spec = some ds ∧
      tr = tr₁ ++ (tr₂ ++ (tr₃ ++ tr₄)) ∧
      Exec (Attempt.forEach (applyObject (ownerReference b.name b.uid)) ds).run tr₂ (.ok ()) ∧
      Exec (Attempt.forEach deleteIfPresent (obsoleteStore b.spec b.name b.ns)).run tr₃ (.ok ()) ∧
      Exec (workloadReadiness b.spec b.name b.ns).run tr₄ r := by
  obtain ⟨ds, hds⟩ := exists_desiredObjects hvalid b.name b.ns
  unfold reconcileObjects at hexec
  simp only [desired_eq hds, pure_bind] at hexec
  -- none of the three parts before the reads can fail
  rcases Exec.attempt_bind_iff.mp hexec with ⟨exc, hfail, -⟩ | ⟨tr₁, _, tr, rfl, -, hrest⟩
  · exact absurd hclean (not_clean_of_rejected hvalid hfail)
  obtain ⟨-, hclean⟩ := List.forall_mem_append.mp hclean
  rcases Exec.attempt_bind_iff.mp hrest with ⟨exc, hfail, -⟩ | ⟨tr₂, _, tr, rfl, happly, hrest⟩
  · obtain ⟨⟨_, ha⟩, -⟩ := WritesAll.forEach
      (fun d => writesAll_applyObject (ownerReference b.name b.uid) d) ds tr _ hfail hclean
    cases ha
  obtain ⟨-, hclean⟩ := List.forall_mem_append.mp hclean
  rcases Exec.attempt_bind_iff.mp hrest with ⟨exc, hfail, -⟩ | ⟨tr₃, _, tr₄, rfl, hdelete, hread⟩
  · obtain ⟨⟨_, ha⟩, -⟩ := WritesAll.forEach writesAll_deleteIfPresent
      (obsoleteStore b.spec b.name b.ns) tr _ hfail hclean
    cases ha
  exact ⟨ds, tr₁, tr₂, tr₃, tr₄, hds, rfl, happly, hdelete, hread⟩

/-- A pass under a valid spec in which no call fails writes or deletes every managed
    object. -/
theorem touched_of_exec {tr : List Exchange} {out : Handled} (hvalid : Valid q b.spec)
    (hexec : Exec (reconcile q b) tr out) (hclean : Clean tr) {k : Key}
    (hk : k ∈ managedKeys b.ns b.name) : Touched tr k := by
  -- the part of the pass that writes, and the reads after it
  obtain ⟨tr₁, r, tr₂, rfl, hobjects, -⟩ := Exec.bind_iff.mp hexec
  obtain ⟨hclean, -⟩ := List.forall_mem_append.mp hclean
  refine touched_append.mpr (.inl ?_)
  obtain ⟨ds, tr₁, tr₂, tr₃, tr₄, hds, rfl, happly, hdelete, -⟩ := exec_clean hvalid hobjects hclean
  simp only [List.forall_mem_append] at hclean
  obtain ⟨-, hclean₂, hclean₃, -⟩ := hclean
  have happlied := (WritesAll.forEach
    (fun d => writesAll_applyObject (ownerReference b.name b.uid) d) ds tr₂ _ happly hclean₂).2
  have hdeleted := (WritesAll.forEach writesAll_deleteIfPresent
    (obsoleteStore b.spec b.name b.ns) tr₃ _ hdelete hclean₃).2
  simp only [touched_append]
  rcases mem_managedKeys.mp hk with hk | hk
  · refine .inr (.inl (happlied k ?_))
    rwa [desiredObjects_keys hds]
  · exact .inr (.inr (.inl (hdeleted k (by simpa using mem_obsoleteStore.mpr hk))))

end Kopf

end CubeOperator
