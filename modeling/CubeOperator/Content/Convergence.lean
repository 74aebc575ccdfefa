import CubeOperator.Content.Passes
import CubeOperator.Lib.Session

/-! # Convergence of the Kopf controller

    A pass of the Kopf controller under a new spec brings the objects to the content
    they would have if they had just been created, except for annotations of the API
    Service that an earlier spec had and the new one has not. -/

namespace CubeOperator

open Interaction Kube Crd V1alpha1

namespace Kopf

variable {q : Quantities} {ns name : String}

/-- Passes over the CubeCluster `name` in `ns`, one at a time. -/
def convergingContent (q : Quantities) (ns name : String) :
    Environment Unit Body Store Call Answer Handled where
  program := reconcile q
  begins _ _ b := b.ns = ns ∧ b.name = name
  serves := ServesContent
  drifts _ _ := False

/-! ## The content over runs -/

/-- In every run that begins without managed objects, the stored objects have only
    fields of their patterns, and annotations. -/
theorem shaped_of_reachable {s₀ : Store} {S : System Unit Body Store Call Answer Handled}
    (h : (convergingContent q ns name).Reachable (Environment.idle s₀) S)
    (hs₀ : ∀ k ∈ managedKeys ns name, s₀ k = none) : Shaped ns name Set.univ S.state := by
  have hinitial : Shaped ns name Set.univ s₀ := by
    intro d₀ hd₀ p hp
    obtain ⟨j, hj, -⟩ := hp
    have hmanaged : d₀.key ∈ managedKeys ns name := by
      rw [← patterns_keys]
      exact List.mem_map_of_mem hd₀
    rw [hs₀ _ hmanaged] at hj
    cases hj
  refine (Environment.Reachable.invariant (I := fun s => Shaped ns name Set.univ s)
    (J := fun _ run => (run.job.ns = ns ∧ run.job.name = name) ∧ Only (IsOwn run.job) run.rest)
    ?_ ?_ ?_ ?_ h hinitial (by simp [Environment.idle])).1
  · exact fun _ _ b hb _ => ⟨hb, only_reconcile⟩
  · rintro s _ e _ s' hs ⟨⟨hns, hname⟩, honly⟩ ⟨b, next, log⟩ hserves
    obtain ⟨hown, hrest⟩ := honly e.2
    subst hns hname
    exact ⟨shaped_step (fun _ _ => trivial) hserves hown hs, ⟨rfl, rfl⟩, hrest⟩
  · exact fun _ _ _ _ _ _ _ _ _ _ _ _ _ hJ => hJ
  · exact fun _ _ _ hd => hd.elim

variable {b : Body} {s s' : Store} {tr : List Exchange} {out : Handled}

theorem shaped_of_replay {X : Set String} (hX : ∀ a ∈ annotationNames b.spec, a ∈ X)
    (hexec : Exec (reconcile q b) tr out) (hreplay : Replay ServesContent s tr s')
    (hs : Shaped b.ns b.name X s) : Shaped b.ns b.name X s' := by
  have hown := only_reconcile.of_exec hexec
  clear hexec
  induction hreplay with
  | nil s => exact hs
  | cons hserves _ ih =>
    obtain ⟨hfirst, hrest⟩ := List.forall_mem_cons.mp hown
    exact ih (shaped_step hX hserves hfirst hs) hrest

/-! ## Annotations -/

/-- An annotation of the API Service stays. -/
theorem annotation_stays {e : Exchange} {a : String} (hserves : ServesContent s e s')
    (hown : IsOwn b e) (h : HasField (s (apiServiceKey b.ns b.name)) (annotationPath a)) :
    HasField (s' (apiServiceKey b.ns b.name)) (annotationPath a) := by
  rcases servesContent_cases hserves with rfl | ⟨act, r, rfl, rfl⟩
  · exact h
  have hwrites : Writes b act := hown
  refine hasField_after_of_hasField h ?_ fun d hd => ?_
  · rintro rfl
    exact apiServiceKey_notMem hwrites
  · subst hd
    obtain ⟨ds, d₀, hds, hd₀, rfl⟩ := hwrites
    exact ⟨plain_of_built (built_of_mem hds hd₀) _, blocks_annotationPath ..⟩

theorem annotation_written {e : Exchange} {a : String} (hserves : ServesContent s e s')
    (hown : IsOwn b e) (hclean : e.error? ≠ none → IsAbsence e) (ha : a ∈ annotationNames b.spec)
    (hk : e.target = some (apiServiceKey b.ns b.name)) :
    HasField (s' (apiServiceKey b.ns b.name)) (annotationPath a) := by
  obtain ⟨act, r, rfl, hs', hgrants⟩ := written_of_clean hserves hclean hk
  have hwrites : Writes b act := hown
  rw [hs']
  rcases fresh_of_writes hwrites hk with ⟨d, hd, hkey, hplain, -⟩ | ⟨rfl, -⟩
  · have hgranted : s.Grants act := hgrants (by rcases hd with rfl | rfl <;> simp)
    obtain ⟨ds, d₀, hds, hd₀, rfl⟩ := document_of_writes hwrites hd
    obtain ⟨d₁, hd₁, hkey₁, -⟩ := exists_pattern hds hd₀
    rw [← hkey]
    refine hasField_after_write hgranted hd hplain ((isSome_view_desired hds hd₀ hd₁ hkey₁ _ _).mpr ?_)
    exact .inr ⟨hkey₁.trans hkey, a, ha, rfl⟩
  · exact absurd hwrites apiServiceKey_notMem

/-- A write of the pass that does not fail leaves the object as if it had just been
    created. -/
theorem same_fresh_step {e : Exchange} {k : Key} (hserves : ServesContent s e s')
    (hown : IsOwn b e) (hclean : e.error? ≠ none → IsAbsence e)
    (hs : Shaped b.ns b.name {a | a ∈ annotationNames b.spec} s) (hk : e.target = some k) :
    SameObject (s' k) (fresh b k) := by
  obtain ⟨act, r, rfl, hs', hgrants⟩ := written_of_clean hserves hclean hk
  have hwrites : Writes b act := hown
  rw [hs']
  refine same_fresh_of_write hwrites hk hgrants fun d j hpatch hj => ?_
  subst hpatch
  obtain ⟨ds, d₀, hds, hd₀, rfl⟩ := hwrites
  exact covered_of_shaped hs (fun _ ha => ha) hds hd₀ _ hj

/-- An annotation of the API Service stays, and a pass in which no call fails writes
    those of its spec. -/
theorem annotation_of_replay {a : String} (hown : ∀ e ∈ tr, IsOwn b e)
    (hreplay : Replay ServesContent s tr s')
    (h : HasField (s (apiServiceKey b.ns b.name)) (annotationPath a) ∨
      (a ∈ annotationNames b.spec ∧ Clean tr ∧ Touched tr (apiServiceKey b.ns b.name))) :
    HasField (s' (apiServiceKey b.ns b.name)) (annotationPath a) := by
  induction hreplay with
  | nil s =>
    rcases h with h | ⟨-, -, e, he, -⟩
    · exact h
    · cases he
  | @cons s s₁ s₂ e tr hserves _ ih =>
    obtain ⟨hfirst, hrest⟩ := List.forall_mem_cons.mp hown
    apply ih hrest
    rcases h with h | ⟨ha, hclean, e', he', hk⟩
    · exact .inl (annotation_stays hserves hfirst h)
    · obtain ⟨hclean₁, hclean₂⟩ := List.forall_mem_cons.mp hclean
      rcases List.mem_cons.mp he' with rfl | he'
      · exact .inl (annotation_written hserves hfirst hclean₁ ha hk)
      · exact .inr ⟨ha, hclean₂, e', he', hk⟩

/-- When the stored annotations are among those of the spec, a pass in which no call
    fails leaves every object it has touched as if it had just been created. -/
theorem same_fresh_of_replay (hown : ∀ e ∈ tr, IsOwn b e) (hreplay : Replay ServesContent s tr s')
    (hclean : Clean tr) (hs : Shaped b.ns b.name {a | a ∈ annotationNames b.spec} s) {k : Key}
    (h : SameObject (s k) (fresh b k) ∨ Touched tr k) : SameObject (s' k) (fresh b k) := by
  induction hreplay with
  | nil s =>
    rcases h with h | ⟨e, he, -⟩
    · exact h
    · cases he
  | @cons s s₁ s₂ e tr hserves _ ih =>
    obtain ⟨hfirst, hrest⟩ := List.forall_mem_cons.mp hown
    obtain ⟨hclean₁, hclean₂⟩ := List.forall_mem_cons.mp hclean
    apply ih hrest hclean₂ (shaped_step (fun _ ha => ha) hserves hfirst hs)
    by_cases hk : Exchange.target e = some k
    · exact .inl (same_fresh_step hserves hfirst hclean₁ hs hk)
    · rw [servesContent_of_ne hserves hk]
      rcases h with h | ⟨e', he', hk'⟩
      · exact .inl h
      · rcases List.mem_cons.mp he' with rfl | he'
        · exact absurd hk' hk
        · exact .inr ⟨e', he', hk'⟩

theorem annotation_of_fresh {a : String}
    (h : HasField (fresh b (apiServiceKey b.ns b.name)) (annotationPath a)) :
    a ∈ annotationNames b.spec := by
  obtain ⟨j, hj, hp⟩ := h
  unfold fresh at hj
  cases hds : desiredObjects b.name b.ns b.spec with
  | none => simp [hds] at hj
  | some ds =>
    rw [hds, Option.getD_some] at hj
    obtain ⟨d, hd, rfl⟩ := Option.map_eq_some_iff.mp hj
    have hmem := List.mem_of_find?_eq_some hd
    obtain ⟨d₀, hd₀, hkey, -⟩ := exists_pattern hds hmem
    rcases (isSome_view_desired hds hmem hd₀ hkey _ _).mp hp with hshape | ⟨-, c, hc, hpath⟩
    · rw [view_shape_annotationPath] at hshape
      cases hshape
    · obtain rfl : a = c := by simpa [annotationPath] using hpath
      exact hc

/-! ## Two passes -/

/-- A pass in which no call fails takes the objects from `s` to `s'`. -/
def Succeeds (q : Quantities) (b : Body) (s s' : Store) : Prop :=
  ∃ tr out, Exec (reconcile q b) tr out ∧ Replay ServesContent s tr s' ∧ Clean tr

/-- After a pass under an earlier spec and a pass under a later one, every object has
    the content it would have if it had just been created, exactly when every
    annotation of the earlier spec, and every one stored before, is one of the later
    spec. -/
theorem converges_iff {s₀ s₁ s₂ : Store} {S : System Unit Body Store Call Answer Handled}
    {b₁ b₂ : Body} (hs₀ : ∀ k ∈ managedKeys ns name, s₀ k = none)
    (h : (convergingContent q ns name).Reachable (Environment.idle s₀) S)
    (hb₁ : b₁.ns = ns ∧ b₁.name = name) (hb₂ : b₂.ns = ns ∧ b₂.name = name)
    (hvalid₁ : Valid q b₁.spec) (hvalid₂ : Valid q b₂.spec)
    (hpass₁ : Succeeds q b₁ S.state s₁) (hpass₂ : Succeeds q b₂ s₁ s₂) :
    (∀ k ∈ managedKeys ns name, s₂ k ≠ none → SameObject (s₂ k) (fresh b₂ k)) ↔
      ∀ a, a ∈ annotationNames b₁.spec ∨
        HasField (S.state (apiServiceKey ns name)) (annotationPath a) →
        a ∈ annotationNames b₂.spec := by
  obtain ⟨tr₁, out₁, hexec₁, hreplay₁, hclean₁⟩ := hpass₁
  obtain ⟨tr₂, out₂, hexec₂, hreplay₂, hclean₂⟩ := hpass₂
  have hown₁ := only_reconcile.of_exec hexec₁
  have hown₂ := only_reconcile.of_exec hexec₂
  have hshaped := shaped_of_reachable h hs₀
  have hmanaged : apiServiceKey ns name ∈ managedKeys ns name := by
    simp [apiServiceKey, managedKeys, coreKeys]
  obtain ⟨hns₁, hname₁⟩ := hb₁
  obtain ⟨rfl, rfl⟩ := hb₂
  have hkey₁ : apiServiceKey b₁.ns b₁.name = apiServiceKey b₂.ns b₂.name := by rw [hns₁, hname₁]
  constructor
  · intro hall a ha
    -- what is stored after the first pass is still there after the second
    have hafter₁ : HasField (s₁ (apiServiceKey b₁.ns b₁.name)) (annotationPath a) := by
      refine annotation_of_replay hown₁ hreplay₁ ?_
      rcases ha with ha | ha
      · have htouched := touched_of_exec hvalid₁ hexec₁ hclean₁
          (k := apiServiceKey b₁.ns b₁.name) (by rwa [hns₁, hname₁])
        exact .inr ⟨ha, hclean₁, htouched⟩
      · exact .inl (hkey₁ ▸ ha)
    rw [hkey₁] at hafter₁
    have hafter₂ := annotation_of_replay hown₂ hreplay₂ (.inl hafter₁)
    have hexists : s₂ (apiServiceKey b₂.ns b₂.name) ≠ none := by
      obtain ⟨j, hj, -⟩ := hafter₂
      simp [hj]
    exact annotation_of_fresh ((hall _ hmanaged hexists).hasField hafter₂)
  · intro hall k hk _
    have hbefore : Shaped b₂.ns b₂.name {a | a ∈ annotationNames b₂.spec} S.state := by
      intro d₀ hd₀ p hp
      rcases hshaped d₀ hd₀ p hp with hshape | ⟨hapi, a, -, rfl⟩
      · exact .inl hshape
      · exact .inr ⟨hapi, a, hall a (.inr (hapi ▸ hp)), rfl⟩
    rw [← hns₁, ← hname₁] at hbefore
    have hbetween := shaped_of_replay (fun a ha => hall a (.inl ha)) hexec₁ hreplay₁ hbefore
    rw [hns₁, hname₁] at hbetween
    exact same_fresh_of_replay hown₂ hreplay₂ hclean₂ hbetween
      (.inr (touched_of_exec hvalid₂ hexec₂ hclean₂ hk))

/-! ### An annotation that is taken out of the spec -/

/-- A small cluster whose service has an annotation. -/
def annotatedBody : Body where
  name := "cube"
  ns := "default"
  uid := "uid"
  generation := 1
  spec := {
    modelConfigMap := some "model"
    configurationSecret := some "configuration"
    cubeStore := some {
      remoteStorage := some {
        type := some "persistentVolume"
        persistentVolume := some { existingClaim := some "claim" } } }
    service := some { annotations := some { entries := [("team", "data")] } } }
  status := {}

/-- The same cluster without the annotation. -/
def plainBody : Body :=
  { annotatedBody with generation := 2, spec := { annotatedBody.spec with service := none } }

/-- The pass that creates the objects. -/
def creatingPass : Handled × List Exchange × Store :=
  (reconcile digitQuantities annotatedBody).runOn serveContent fun _ => none

/-- The pass after the annotation was taken out. -/
def updatingPass : Handled × List Exchange × Store :=
  (reconcile digitQuantities plainBody).runOn serveContent creatingPass.2.2

theorem succeeds_creatingPass :
    Succeeds digitQuantities annotatedBody (fun _ => none) creatingPass.2.2 := by
  obtain ⟨hexec, hreplay⟩ := Program.runOn_run servesContent_serveContent
    (reconcile digitQuantities annotatedBody) fun _ => none
  exact ⟨_, _, hexec, hreplay, of_decide_eq_true rfl⟩

theorem succeeds_updatingPass :
    Succeeds digitQuantities plainBody creatingPass.2.2 updatingPass.2.2 := by
  obtain ⟨hexec, hreplay⟩ := Program.runOn_run servesContent_serveContent
    (reconcile digitQuantities plainBody) creatingPass.2.2
  exact ⟨_, _, hexec, hreplay, of_decide_eq_true rfl⟩

theorem valid_annotatedBody : Valid digitQuantities annotatedBody.spec where
  model := by decide
  configuration := by decide
  api := by decide
  refresh := by decide
  mode := by decide
  workers := by decide
  scratch := by decide
  nodePort := by decide
  storage := .inl ⟨rfl, by decide⟩

theorem valid_plainBody : Valid digitQuantities plainBody.spec :=
  { valid_annotatedBody with nodePort := by decide }

/-- The annotation is still stored after the second pass. -/
theorem updatingPass_annotation :
    HasField (updatingPass.2.2 (apiServiceKey "default" "cube")) (annotationPath "team") := by
  have hview : ((updatingPass.2.2 (apiServiceKey "default" "cube")).bind
      (Json.view (annotationPath "team"))).isSome = true := rfl
  obtain ⟨v, hv⟩ := Option.isSome_iff_exists.mp hview
  obtain ⟨j, hj, hv⟩ := Option.bind_eq_some_iff.mp hv
  exact ⟨j, hj, Option.isSome_iff_exists.mpr ⟨v, hv⟩⟩

/-- An annotation that is taken out of the spec survives on the API Service. -/
theorem convergence_fails : ¬∀ (q : Quantities) (ns name : String) (s₀ s₁ s₂ : Store)
    (S : System Unit Body Store Call Answer Handled) (b₁ b₂ : Body),
    (∀ k ∈ managedKeys ns name, s₀ k = none) →
    (convergingContent q ns name).Reachable (Environment.idle s₀) S →
    (b₁.ns = ns ∧ b₁.name = name) → (b₂.ns = ns ∧ b₂.name = name) →
    Valid q b₁.spec → Valid q b₂.spec → Succeeds q b₁ S.state s₁ → Succeeds q b₂ s₁ s₂ →
    ∀ k ∈ managedKeys ns name, s₂ k ≠ none → SameObject (s₂ k) (fresh b₂ k) := by
  intro h
  have hsame := h digitQuantities "default" "cube" (fun _ => none) _ _ _ annotatedBody plainBody
    (fun _ _ => rfl) .refl ⟨rfl, rfl⟩ ⟨rfl, rfl⟩ valid_annotatedBody valid_plainBody
    succeeds_creatingPass succeeds_updatingPass (apiServiceKey "default" "cube") (by decide)
    (by obtain ⟨j, hj, -⟩ := updatingPass_annotation; simp [hj])
  have hfresh : "team" ∈ annotationNames plainBody.spec :=
    annotation_of_fresh (hsame.hasField updatingPass_annotation)
  exact absurd hfresh (by decide)

theorem converges_iff_plainBody :
    (∀ k ∈ managedKeys "default" "cube", updatingPass.2.2 k ≠ none →
        SameObject (updatingPass.2.2 k) (fresh plainBody k)) ↔
      ∀ a, a ∈ annotationNames annotatedBody.spec ∨
        HasField none (annotationPath a) → a ∈ annotationNames plainBody.spec :=
  converges_iff (S := Environment.idle fun _ => none) (fun _ _ => rfl) .refl ⟨rfl, rfl⟩ ⟨rfl, rfl⟩
    valid_annotatedBody valid_plainBody succeeds_creatingPass succeeds_updatingPass

end Kopf

end CubeOperator
