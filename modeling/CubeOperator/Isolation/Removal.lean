import CubeOperator.Content.Convergence
import CubeOperator.Isolation.Footprints
import CubeOperator.Topology.Runs

/-! # What a pass deletes

    A pass deletes the store objects of the mode that its spec does not use.  It finds
    them by their names and does not look at their owners, and so it deletes an object
    that somebody else created under such a name. -/

namespace CubeOperator.Isolation

open Interaction Kube V1alpha1

/-! ## Owners -/

/-- The owner references of the existing objects, whoever created them. -/
abbrev Owners : Type := Key → Option (List OwnerReference)

/-- A controller reference to the CubeCluster with the given uid. -/
def OwnedBy (uid : String) (refs : List OwnerReference) : Prop :=
  ∃ o ∈ refs, o.controller = true ∧ o.uid = uid

/-- The object was written, with some owner references. -/
def Written (k : Key) (s s' : Owners) : Prop := ∃ refs, s' = Function.update s k (some refs)

/-- The objects before and after a call.  A write that fails may have been made all the
    same; a 404 is the truth. -/
def ServesOwners (s : Owners) (e : Exchange) (s' : Owners) : Prop :=
  match e with
  | ⟨.act (.apply d), r⟩ => Written d.key s s' ∨ (r ≠ .ok () ∧ s' = s)
  | ⟨.act (.create d), r⟩ => (Written d.key s s' ∧ s d.key = none) ∨ (r ≠ .ok () ∧ s' = s)
  | ⟨.act (.patch d), r⟩ => (Written d.key s s' ∧ s d.key ≠ none) ∨ (r ≠ .ok () ∧ s' = s)
  | ⟨.act (.delete k), r⟩ =>
    ((s' = Function.update s k none ∧ s k ≠ none) ∨ (r ≠ .ok () ∧ s' = s)) ∧
      ∀ err, r = .error err → err.isNotFound → s k = none
  | ⟨.get k, r⟩ =>
    s' = s ∧ (k.kind.isReference = false →
      (∀ l, r = .ok l → s k ≠ none) ∧ ∀ err, r = .error err → err.isNotFound → s k = none)
  | ⟨.getCluster ns name, .ok c⟩ => s' = s ∧ c.ns = ns ∧ c.name = name
  | _ => s' = s

/-- The objects that exist. -/
def existing (s : Owners) : Set Key := {k | s k ≠ none}

theorem existing_update_some (s : Owners) (k : Key) (refs : List OwnerReference) :
    existing (Function.update s k (some refs)) = insert k (existing s) := by
  ext k'
  by_cases h : k' = k
  · simp [existing, h]
  · simp [existing, h]

theorem existing_update_none (s : Owners) (k : Key) :
    existing (Function.update s k none) = existing s \ {k} := by
  ext k'
  by_cases h : k' = k
  · simp [existing, h]
  · simp [existing, h]

theorem answersCluster_of_serves {s s' : Owners} {e : Exchange} (h : ServesOwners s e s') :
    AnswersCluster e := by
  rintro ns name c rfl
  exact h.2

/-- Without the owners this is the server that keeps the set of objects. -/
theorem servesObjects_existing {s s' : Owners} {e : Exchange} (h : ServesOwners s e s') :
    ServesObjects (existing s) e (existing s') := by
  obtain ⟨c, r⟩ := e
  cases c with
  | act a =>
    cases a with
    | apply d =>
      rcases h with ⟨refs, rfl⟩ | ⟨hr, rfl⟩
      · exact .inl (existing_update_some s d.key refs)
      · exact .inr ⟨hr, rfl⟩
    | create d =>
      rcases h with ⟨⟨refs, rfl⟩, habsent⟩ | ⟨hr, rfl⟩
      · exact .inl ⟨existing_update_some s d.key refs, fun _ hd => hd habsent⟩
      · exact .inr ⟨hr, rfl⟩
    | patch d =>
      rcases h with ⟨⟨refs, rfl⟩, hpresent⟩ | ⟨hr, rfl⟩
      · refine ⟨?_, fun _ => hpresent⟩
        rw [existing_update_some]
        exact Set.insert_eq_of_mem hpresent
      · exact ⟨rfl, fun hok => absurd hok hr⟩
    | delete k =>
      obtain ⟨hdelete, hnotFound⟩ := h
      refine ⟨?_, fun err herr he hk => hk (hnotFound err herr he)⟩
      rcases hdelete with ⟨rfl, -⟩ | ⟨hr, rfl⟩
      · exact .inl (existing_update_none s k)
      · exact .inr ⟨hr, rfl⟩
    | discover kind => exact congrArg existing h
    | patchStatus ns name base modified => exact congrArg existing h
  | get k =>
    obtain ⟨rfl, htruth⟩ := h
    refine ⟨rfl, fun hk => ⟨(htruth hk).1, fun err herr he hmem => ?_⟩⟩
    exact hmem ((htruth hk).2 err herr he)
  | getCluster ns name =>
    cases r with
    | ok c => exact congrArg existing h.1
    | error e => exact congrArg existing h
  | httpGet url => exact congrArg existing h
  | now => exact congrArg existing h

/-- Only a delete of the object makes it go away. -/
theorem serves_gone {s s' : Owners} {e : Exchange} {k : Key} (h : ServesOwners s e s')
    (hk : s k ≠ none) (hk' : s' k = none) : ∃ r, e = .did (.delete k) r := by
  have hwritten {k' : Key} (hw : Written k' s s') : False := by
    obtain ⟨refs, rfl⟩ := hw
    by_cases heq : k = k'
    · simp [heq] at hk'
    · rw [Function.update_of_ne heq] at hk'
      exact hk hk'
  have hsame (hs : s' = s) : False := hk (hs ▸ hk')
  obtain ⟨c, r⟩ := e
  cases c with
  | act a =>
    cases a with
    | apply d => exact (h.elim hwritten fun h => hsame h.2).elim
    | create d => exact (h.elim (fun h => hwritten h.1) fun h => hsame h.2).elim
    | patch d => exact (h.elim (fun h => hwritten h.1) fun h => hsame h.2).elim
    | delete k' =>
      rcases h.1 with ⟨rfl, -⟩ | ⟨-, hs⟩
      · by_cases heq : k = k'
        · exact ⟨r, by rw [heq]⟩
        · rw [Function.update_of_ne heq] at hk'
          exact (hk hk').elim
      · exact (hsame hs).elim
    | discover kind => exact (hsame h).elim
    | patchStatus ns name base modified => exact (hsame h).elim
  | get k' => exact (hsame h.1).elim
  | getCluster ns name =>
    cases r with
    | ok c => exact (hsame h.1).elim
    | error e => exact (hsame h).elim
  | httpGet url => exact (hsame h).elim
  | now => exact (hsame h).elim

/-- What a run makes go away, one of its calls deletes. -/
theorem replay_gone {s s' : Owners} {tr : List Exchange} {k : Key}
    (h : Replay ServesOwners s tr s') (hk : s k ≠ none) (hk' : s' k = none) :
    ∃ r, Exchange.did (.delete k) r ∈ tr := by
  induction h with
  | nil s => exact absurd hk' hk
  | @cons s s₁ s' e tr hserves _ ih =>
    by_cases hmiddle : s₁ k = none
    · obtain ⟨r, rfl⟩ := serves_gone hserves hk hmiddle
      exact ⟨r, by simp⟩
    · obtain ⟨r, hr⟩ := ih hmiddle hk'
      exact ⟨r, by simp [hr]⟩

/-! ## The deletes of a pass -/

section deletes

variable {q : Quantities} {p : Pass}

/-- The uid of the CubeCluster of a pass. -/
def uid : Pass → String
  | .go c => c.uid
  | .kopf b => b.uid

/-- The store objects of the mode that the spec of the pass does not use. -/
def obsolete (p : Pass) : List Key := storeKeys (!p.isClustered) p.cluster.1 p.cluster.2

/-- A pass deletes nothing else. -/
def DeletesObsolete (p : Pass) (e : Exchange) : Prop :=
  ∀ k r, e = .did (.delete k) r → k ∈ obsolete p

theorem within_deletesObsolete : Within (DeletesObsolete p) (p.program q) := by
  cases p with
  | go c =>
    refine Always.bind (Always.mono ?_ Go.within_reconcileCluster) fun _ => Always.ret _
    rintro _ e _ hmakes k r rfl
    cases hmakes with
    | delete r hk => exact hk
  | kopf b =>
    refine Within.of_only (Only.bind (Kopf.only_makes.mono ?_) fun _ => trivial)
    rintro e hmakes k r rfl
    cases hmakes with
    | act h =>
      cases h with
      | query h => cases h
      | delete r hk => exact hk

/-- What a pass, cut off anywhere, makes go away. -/
theorem mem_obsolete_of_gone {tr tr' : List Exchange} {a : Unit} {s s' : Owners} {k : Key}
    (hexec : Exec (p.program q) (tr ++ tr') a) (hreplay : Replay ServesOwners s tr s')
    (hk : s k ≠ none) (hk' : s' k = none) : k ∈ obsolete p := by
  obtain ⟨r, hr⟩ := replay_gone hreplay hk hk'
  have hanswers : ∀ e ∈ tr, AnswersCluster e :=
    hreplay.forall_of_step fun _ _ _ h => answersCluster_of_serves h
  exact within_deletesObsolete.of_exec hexec hanswers _ hr k r rfl

end deletes

/-! ## A pass that completes -/

/-- A server that grants every request it can. -/
def grantOwners (s : Owners) : (c : Call) → Answer c × Owners
  | .act (.apply d) =>
    (.ok (), Function.update s d.key (some (d.metadata.ownerReferences.getD [])))
  | .act (.create d) =>
    match s d.key with
    | none => (.ok (), Function.update s d.key (some (d.metadata.ownerReferences.getD [])))
    | some _ => (.error .alreadyExists, s)
  | .act (.patch d) =>
    match s d.key with
    | none => (.error .notFound, s)
    | some _ => (.ok (), Function.update s d.key (some (d.metadata.ownerReferences.getD [])))
  | .act (.delete k) =>
    match s k with
    | none => (.error .notFound, s)
    | some _ => (.ok (), Function.update s k none)
  | .act _ => (.ok (), s)
  | .getCluster ns name => (.ok { name := name, ns := ns, uid := "", generation := 0, spec := {} }, s)
  | .get k =>
    if k.kind.isReference || (s k).isSome then (.ok {}, s) else (.error .notFound, s)
  | .httpGet url => (.status 200 "OK" url, s)
  | .now => (0, s)

theorem serves_grantOwners (s : Owners) (c : Call) :
    ServesOwners s ⟨c, (grantOwners s c).1⟩ (grantOwners s c).2 := by
  cases c with
  | act a =>
    cases a with
    | apply d => exact .inl ⟨_, rfl⟩
    | create d =>
      cases h : s d.key with
      | none =>
        simp only [grantOwners, h]
        exact .inl ⟨⟨_, rfl⟩, h⟩
      | some refs => simp [ServesOwners, grantOwners, h]
    | patch d =>
      cases h : s d.key with
      | none => simp [ServesOwners, grantOwners, h]
      | some refs =>
        simp only [grantOwners, h]
        exact .inl ⟨⟨_, rfl⟩, by simp [h]⟩
    | delete k => cases h : s k <;> simp [ServesOwners, grantOwners, h]
    | discover kind => rfl
    | patchStatus ns name base modified => rfl
  | get k =>
    cases h : s k <;> cases hk : k.kind.isReference <;> simp [ServesOwners, grantOwners, h, hk]
  | getCluster ns name => exact ⟨rfl, rfl, rfl⟩
  | httpGet url => rfl
  | now => rfl

/-- The steps of the granting server. -/
def Grants (s : Owners) (e : Exchange) (s' : Owners) : Prop :=
  e.2 = (grantOwners s e.1).1 ∧ s' = (grantOwners s e.1).2

/-- The call did not fail, or said that one of our objects is absent. -/
def Tidy (e : Exchange) : Prop := e.error? ≠ none → IsAbsence e

/-- A call that is granted only where the object is absent, or only where it is there. -/
def Upserts (e : Exchange) : Prop := ∃ d r, e = .did (.create d) r ∨ e = .did (.patch d) r

theorem tidy_of_grants {s s' : Owners} {e : Exchange} (h : Grants s e s') (he : ¬Upserts e) :
    Tidy e := by
  obtain ⟨c, r⟩ := e
  obtain ⟨hr, -⟩ := h
  simp only at hr
  subst hr
  intro herror
  cases c with
  | act a =>
    cases a with
    | create d => exact absurd ⟨d, _, .inl rfl⟩ he
    | patch d => exact absurd ⟨d, _, .inr rfl⟩ he
    | delete k => cases hk : s k <;> simp [grantOwners, hk, Exchange.error?, IsAbsence] at herror ⊢
    | _ => simp [grantOwners, Exchange.error?] at herror
  | get k =>
    cases hk : s k <;> cases href : k.kind.isReference <;>
      simp [grantOwners, hk, href, Exchange.error?, IsAbsence] at herror ⊢
  | _ => simp [grantOwners, Exchange.error?] at herror

/-- All exchanges of the program with the granting server are tidy. -/
abbrev Smooth {α : Type} (p : Op α) : Prop := Always Grants (fun _ e _ => Tidy e) p

theorem smooth_of_only {α : Type} {E : Exchange → Prop} {p : Op α} (hp : Only E p)
    (hE : ∀ e, E e → ¬Upserts e) : Smooth p :=
  Always.of_only hp fun _ e _ he h => tidy_of_grants h (hE e he)

section smooth

variable {q : Quantities} {b : Kopf.Body}

theorem smooth_reconcileCluster {c : CubeCluster} : Smooth (Go.reconcileCluster q c) := by
  refine Always.of_answers Go.within_reconcileCluster (fun s e s' h => ?_) fun s e s' he h => ?_
  · obtain ⟨c', r⟩ := e
    obtain ⟨hr, -⟩ := h
    simp only at hr
    subst hr
    exact answersCluster_of_serves (serves_grantOwners s c')
  · refine tidy_of_grants h ?_
    rintro ⟨d, r, rfl | rfl⟩ <;> cases he

theorem smooth_of_queries {α : Type} {ns name : String} {p : Op α}
    (hp : Only (Kopf.IsQuery ns name) p) : Smooth p := by
  refine smooth_of_only hp ?_
  rintro _ he ⟨d, r, rfl | rfl⟩ <;> cases he

theorem smooth_of_reports {α : Type} {ns name : String} {p : Op α}
    (hp : Only (Kopf.IsReport ns name) p) : Smooth p :=
  smooth_of_queries (hp.mono fun _ => Kopf.isQuery_of_isReport)

/-- An object is created only when it is absent, and patched only when it is there. -/
theorem smooth_createOrPatch {d : Manifest} (hd : d.key.kind.isReference = false) :
    Smooth (Kopf.createOrPatch d).run := by
  rintro s r s' ⟨hr, hs'⟩
  simp only at hr hs'
  refine ⟨tidy_of_grants ⟨hr, hs'⟩ (by simp [Upserts]), ?_⟩
  cases hk : s d.key with
  | none =>
    have hget : grantOwners s (.get d.key) = (.error .notFound, s) := by
      simp [grantOwners, hd, hk]
    rw [hget] at hr hs'
    subst hr hs'
    rintro r _ ⟨hr, -⟩
    have hcreate : (grantOwners s' (.act (.create d))).1 = .ok () := by simp [grantOwners, hk]
    simp only [hcreate] at hr
    subst hr
    exact ⟨fun h => absurd rfl h, trivial⟩
  | some refs =>
    have hget : grantOwners s (.get d.key) = (.ok {}, s) := by
      simp [grantOwners, hk]
    rw [hget] at hr hs'
    subst hr hs'
    rintro r _ ⟨hr, -⟩
    have hpatch : (grantOwners s' (.act (.patch d))).1 = .ok () := by simp [grantOwners, hk]
    simp only [hpatch] at hr
    subst hr
    exact ⟨fun h => absurd rfl h, trivial⟩

theorem smooth_deleteIfPresent {k : Key} : Smooth (Kopf.deleteIfPresent k).run := by
  have hquiet : Only (fun e => ¬Upserts e) (Kopf.deleteIfPresent k).run := by
    refine Only.bind (Only.attemptBind (fun r => ⟨by simp [Upserts], trivial⟩) fun _ => ?_) fun r => ?_
    · exact fun r => ⟨by simp [Upserts], trivial⟩
    · cases r <;> trivial
  exact smooth_of_only hquiet fun _ he => he

theorem smooth_reconcileObjects : Smooth (Kopf.reconcileObjects q b).run := by
  have hvalidate : Smooth (Kopf.validateReferences q b.spec b.ns).run := by
    refine smooth_of_only Kopf.only_validateReferences ?_
    rintro _ (⟨kind, r, rfl⟩ | ⟨k, -, r, rfl⟩) <;> simp [Upserts]
  refine Always.attemptBind hvalidate fun _ => ?_
  cases hds : Kopf.desiredObjects b.name b.ns b.spec with
  | none =>
    rw [Kopf.desired_eq_throw hds]
    exact Always.ret _
  | some ds =>
    simp only [Kopf.desired_eq hds, pure_bind]
    refine Always.attemptBind (Always.forEach fun d hd => ?_) fun _ => ?_
    · have hdiscover : Only (Kopf.IsQuery b.ns b.name) (Kopf.resourceFor d.kind).run :=
        Kopf.only_resourceFor
      refine Always.attemptBind (smooth_of_queries hdiscover) fun _ => ?_
      have hkey := Kopf.key_mem_managedKeys hds hd
      exact smooth_createOrPatch (managedKeys_kind d.key hkey)
    refine Always.attemptBind (Always.forEach fun k hk => ?_) fun _ => ?_
    · exact smooth_deleteIfPresent
    · exact smooth_of_queries Kopf.only_workloadReadiness

theorem smooth_reconcile : Smooth (Kopf.reconcile q b) := by
  refine Always.bind smooth_reconcileObjects fun r => ?_
  cases r with
  | error exc => exact smooth_of_reports Kopf.only_recover
  | ok r => exact Always.bind (smooth_of_reports Kopf.only_reportReadiness) fun _ => Always.ret _

theorem smooth_program (q : Quantities) (p : Pass) : Smooth (p.program q) := by
  cases p with
  | go c => exact Always.bind smooth_reconcileCluster fun _ => Always.ret _
  | kopf b => exact Always.bind smooth_reconcile fun _ => Always.ret _

end smooth

/-- A pass under a valid spec can complete from any state, and then nothing of the other
    store mode is left. -/
theorem exists_pass {q : Quantities} {p : Pass} (hvalid : p.IsValid q) (s : Owners) :
    ∃ tr s', Exec (p.program q) tr () ∧ Replay ServesOwners s tr s' ∧
      ∀ k ∈ obsolete p, s' k = none := by
  let run := (p.program q).runOn grantOwners s
  obtain ⟨hexec, hserves⟩ := Program.runOn_run serves_grantOwners (p.program q) s
  have hgrants : ∀ s c, Grants s ⟨c, (grantOwners s c).1⟩ (grantOwners s c).2 :=
    fun _ _ => ⟨rfl, rfl⟩
  have hreplay : Replay Grants s run.2.1 run.2.2 :=
    (Program.runOn_run hgrants (p.program q) s).2
  refine ⟨run.2.1, run.2.2, hexec, hserves, fun k hk => ?_⟩
  have hclean : Clean run.2.1 := by
    intro e he
    have hwhole : Exec (p.program q) (run.2.1 ++ []) run.1 := by simpa using hexec
    obtain ⟨-, -, htidy⟩ := (smooth_program q p).of_exec hwhole hreplay e he
    exact htidy
  -- what a clean pass leaves is exactly its own topology
  have hobjects := hserves.map existing fun _ _ _ => servesObjects_existing
  have hexact : Exact p.cluster.1 p.cluster.2 p.isClustered (existing run.2.2) :=
    (part_program (q := q) (p := p) rfl (existing s)).sound hexec (hobjects.logged []) hvalid hclean
  have hmanaged : k ∈ managedKeys p.cluster.1 p.cluster.2 := mem_managedKeys.mpr (.inr hk)
  by_contra hexists
  exact notMem_clusterKeys hk ((hexact k hmanaged).mp hexists)

/-! ## What the deletes depend on -/

/-- A pass deletes store objects of the unused mode only, and it deletes them whoever
    created them: all that passes delete is controlled by the CubeCluster exactly when
    all that exists under these names is. -/
theorem pass_deletes_owned_iff (q : Quantities) (p : Pass) (hvalid : p.IsValid q) (s : Owners) :
    (∀ tr tr' a s' k, Exec (p.program q) (tr ++ tr') a → Replay ServesOwners s tr s' →
      s k ≠ none → s' k = none → k ∈ obsolete p) ∧
    ((∀ tr tr' a s' k refs, Exec (p.program q) (tr ++ tr') a → Replay ServesOwners s tr s' →
        s k = some refs → s' k = none → OwnedBy (uid p) refs) ↔
      ∀ k ∈ obsolete p, ∀ refs, s k = some refs → OwnedBy (uid p) refs) := by
  have hgone : ∀ tr tr' a s' k, Exec (p.program q) (tr ++ tr') a → Replay ServesOwners s tr s' →
      s k ≠ none → s' k = none → k ∈ obsolete p :=
    fun tr tr' a s' k hexec hreplay => mem_obsolete_of_gone hexec hreplay
  refine ⟨hgone, ?_, ?_⟩
  · intro howned k hk refs hrefs
    obtain ⟨tr, s', hexec, hreplay, hnone⟩ := exists_pass hvalid s
    have hwhole : Exec (p.program q) (tr ++ []) () := by simpa using hexec
    exact howned tr [] () s' k refs hwhole hreplay hrefs (hnone k hk)
  · intro howned tr tr' a s' k refs hexec hreplay hrefs hnone
    have hk := hgone tr tr' a s' k hexec hreplay (by simp [hrefs]) hnone
    exact howned k hk refs hrefs

/-! ### An object of somebody else -/

/-- The StatefulSet named like the Cube Store workers of the CubeCluster `cube`. -/
def workerKey : Key := ⟨.statefulSet, "default", "cube-cubestore-worker"⟩

/-- Only that StatefulSet exists, with the given owner references. -/
def onlyWorker (refs : List OwnerReference) : Owners := fun k =>
  if k = workerKey then some refs else none

/-- Under a valid spec a pass deletes the StatefulSet although it has no owner. -/
def DeletesForeign (p : Pass) : Prop :=
  p.IsValid digitQuantities ∧ ∃ tr s', Exec (p.program digitQuantities) tr () ∧
    Replay ServesOwners (onlyWorker []) tr s' ∧ onlyWorker [] workerKey = some [] ∧
    s' workerKey = none ∧ ¬OwnedBy (uid p) []

/-- Both controllers delete it, for a single store that never had workers. -/
theorem foreign_deleted :
    DeletesForeign (.go Go.smallCluster) ∧ DeletesForeign (.kopf Kopf.plainBody) := by
  have hdeletes {p : Pass} (hvalid : p.IsValid digitQuantities) (hk : workerKey ∈ obsolete p) :
      DeletesForeign p := by
    obtain ⟨tr, s', hexec, hreplay, hnone⟩ := exists_pass hvalid (onlyWorker [])
    refine ⟨hvalid, tr, s', hexec, hreplay, by simp [onlyWorker], hnone _ hk, ?_⟩
    simp [OwnedBy]
  exact ⟨hdeletes Go.valid_smallCluster (by decide), hdeletes Kopf.valid_plainBody (by decide)⟩

/-- A StatefulSet left from a clustered store of `smallCluster` is its own. -/
theorem pass_deletes_owned_iff_smallCluster :
    workerKey ∈ obsolete (.go Go.smallCluster) ∧ ∀ tr tr' a s' k refs,
      Exec ((Pass.go Go.smallCluster).program digitQuantities) (tr ++ tr') a →
      Replay ServesOwners (onlyWorker [Go.controllerReference Go.smallCluster]) tr s' →
      onlyWorker [Go.controllerReference Go.smallCluster] k = some refs → s' k = none →
      OwnedBy "uid" refs := by
  refine ⟨by decide, ?_⟩
  refine (pass_deletes_owned_iff digitQuantities (.go Go.smallCluster) Go.valid_smallCluster
    (onlyWorker [Go.controllerReference Go.smallCluster])).2.mpr ?_
  intro k _ refs hrefs
  unfold onlyWorker at hrefs
  split at hrefs
  · cases hrefs
    exact ⟨_, List.mem_singleton_self _, rfl, rfl⟩
  · cases hrefs

end CubeOperator.Isolation
