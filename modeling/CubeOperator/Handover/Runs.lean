import CubeOperator.Content.Convergence
import CubeOperator.Handover.Passes
import CubeOperator.Topology.Runs

/-! # From the Kopf controller to the Go controller

    Any number of Kopf passes over one CubeCluster and then, Kopf being stopped, any
    number of Go passes.  After a Go pass in which no call fails the objects have the
    entries of its spec, and those that the Kopf client still owns.  What the client
    owns does not grow after the switch, and without Kopf passes it is nothing. -/

namespace CubeOperator

open Interaction Kube V1alpha1

/-! ## Runs -/

/-- The pass is one of the Go controller. -/
def Pass.isGo : Pass → Bool
  | go _ => true
  | kopf _ => false

/-- Passes of one of the controllers over the CubeCluster `name` in `ns`, one at a time. -/
def handingOver (q : Quantities) (client ns name : String) (byGo : Bool) :
    Environment Unit Pass TrackedStore Call Answer Unit where
  program := Pass.program q
  begins _ _ p := p.isGo = byGo ∧ p.cluster = (ns, name)
  serves := ServesFields client
  drifts _ _ := False

/-- The objects after a run of Kopf passes that begins without managed objects, and then
    one of Go passes. -/
def HandedOver (q : Quantities) (client ns name : String) (s : TrackedStore) : Prop :=
  ∃ (s₀ : TrackedStore) (S₁ S₂ : System Unit Pass TrackedStore Call Answer Unit),
    (∀ k ∈ managedKeys ns name, s₀ k = none) ∧
      (handingOver q client ns name false).Reachable (Environment.idle s₀) S₁ ∧
      (handingOver q client ns name true).Reachable (Environment.idle S₁.state) S₂ ∧ S₂.state = s

variable {q : Quantities} {client ns name : String} {s s' : TrackedStore} {k : Key}

/-- The fields of a stored object. -/
def storedFields (s : TrackedStore) (k : Key) : Fields := fun p => (s k).bind fun o => o.value p

/-- The fields of a stored object that the client of the Kopf controller owns. -/
def clientFields (client : String) (s : TrackedStore) (k : Key) : Fields :=
  fun p => (s k).bind fun o => o.ownedBy client p

/-! ## Contents over passes -/

/-- The calls of a Kopf pass apply nothing, and patch with plain documents. -/
theorem servesContent_of_kopf {b : Kopf.Body} {e : Exchange} {content : Store}
    (hown : Kopf.IsOwn b e) (h : HasContent s content) (hserves : ServesFields client s e s') :
    ∃ content', ServesContent content e content' ∧ HasContent s' content' := by
  refine servesContent_of_fields h ?_ ?_ hserves
  · rintro d r rfl
    exact hown
  · rintro d r rfl
    have hwrites : Kopf.Writes b (.patch d) := hown
    obtain ⟨ds, d₀, hds, hd₀, rfl⟩ := Kopf.document_of_writes hwrites (.inr rfl)
    exact Kopf.plain_of_built (Kopf.built_of_mem hds hd₀) _

/-- Whatever the server with owners does in Kopf passes, each cut off anywhere, the server
    with contents does as well with the same answers, and the objects keep the fields of
    the contents. -/
theorem contents_of_kopfPasses {passes : List (Kopf.Body × List Exchange)} {content : Store}
    (hpasses : ∀ p ∈ passes, ∃ rest out, Exec (Kopf.reconcile q p.1) (p.2 ++ rest) out)
    (hreplay : Replay (ServesFields client) s (passes.flatMap Prod.snd) s')
    (hcontent : HasContent s content) : ∃ content',
      Replay ServesContent content (passes.flatMap Prod.snd) content' ∧ HasContent s' content' := by
  refine hreplay.simulated (fun s e s' content he hserves h => ?_) hcontent
  obtain ⟨p, hp, hmem⟩ := List.mem_flatMap.mp he
  obtain ⟨rest, out, hexec⟩ := hpasses p hp
  have hown := Kopf.only_reconcile.of_exec hexec e (List.mem_append_left _ hmem)
  exact servesContent_of_kopf hown h hserves

/-- The pass that creates the objects. -/
def creatingFields : Kopf.Handled × List Exchange × TrackedStore :=
  (Kopf.reconcile digitQuantities Kopf.annotatedBody).runOn (serveFields "kopf-client") fun _ => none

/-- That pass is cut off after its first write, and the next one goes to its end. -/
theorem contents_of_kopfPasses_cut : ∃ (tr₂ : List Exchange) (s' : TrackedStore) (content' : Store),
    (creatingFields.2.1.drop 9 ≠ [] ∧
      (∃ out, Exec (Kopf.reconcile digitQuantities Kopf.annotatedBody)
        (creatingFields.2.1.take 9 ++ creatingFields.2.1.drop 9) out) ∧
      ∃ out, Exec (Kopf.reconcile digitQuantities Kopf.plainBody) tr₂ out) ∧
    Replay (ServesFields "kopf-client") (fun _ => none) (creatingFields.2.1.take 9 ++ tr₂) s' ∧
    Replay ServesContent (fun _ => none) (creatingFields.2.1.take 9 ++ tr₂) content' ∧
    HasContent s' content' := by
  have hrun := Program.runOn_run (@servesFields_serveFields "kopf-client")
    (Kopf.reconcile digitQuantities Kopf.annotatedBody) fun _ => none
  have hsplit : creatingFields.2.1.take 9 ++ creatingFields.2.1.drop 9 = creatingFields.2.1 :=
    List.take_append_drop ..
  have hexec₁ : Exec (Kopf.reconcile digitQuantities Kopf.annotatedBody)
      (creatingFields.2.1.take 9 ++ creatingFields.2.1.drop 9) creatingFields.1 := hsplit ▸ hrun.1
  have hreplay₁ : Replay (ServesFields "kopf-client") (fun _ => none)
      (creatingFields.2.1.take 9 ++ creatingFields.2.1.drop 9) creatingFields.2.2 := hsplit ▸ hrun.2
  obtain ⟨s₁, hfirst, -⟩ := Replay.append_iff.mp hreplay₁
  obtain ⟨tr₂, out₂, s₂, hexec₂, hreplay₂⟩ : ∃ tr₂ out₂ s₂,
      Exec (Kopf.reconcile digitQuantities Kopf.plainBody) tr₂ out₂ ∧
        Replay (ServesFields "kopf-client") s₁ tr₂ s₂ :=
    ⟨_, _, _, Program.runOn_run (@servesFields_serveFields "kopf-client") _ s₁⟩
  have hboth := Replay.append_iff.mpr ⟨s₁, hfirst, hreplay₂⟩
  have hpasses : ∀ p ∈ [(Kopf.annotatedBody, creatingFields.2.1.take 9), (Kopf.plainBody, tr₂)],
      ∃ rest out, Exec (Kopf.reconcile digitQuantities p.1) (p.2 ++ rest) out := by
    simp only [List.forall_mem_cons]
    exact ⟨⟨_, _, hexec₁⟩, ⟨[], _, by simpa using hexec₂⟩, by simp⟩
  have hnone : HasContent (fun _ => none) fun _ => none := fun _ => rfl
  obtain ⟨content', hcontent, hhas⟩ :=
    contents_of_kopfPasses hpasses (by simpa using hboth) hnone
  exact ⟨tr₂, s₂, content', ⟨by decide +kernel, ⟨_, hexec₁⟩, _, hexec₂⟩, hboth,
    by simpa using hcontent, hhas⟩

/-! ## Owners over runs -/

/-- The managed objects are owned by the two controllers. -/
def OwnedByControllers (client ns name : String) (s : TrackedStore) : Prop :=
  ∀ k ∈ managedKeys ns name, ∀ o, s k = some o → o.OwnedWithin {cubeOperator, client}

theorem ownedByControllers_after {a : Action} (h : OwnedByControllers client ns name s) :
    OwnedByControllers client ns name (s.after client a) := by
  intro k hk o ho
  by_cases htarget : Target a = some k
  · cases a with
    | apply d =>
      obtain rfl : d.key = k := by simpa [Target] using htarget
      simp only [TrackedStore.after, Function.update_self, Option.some.injEq] at ho
      subst ho
      refine ManagedFields.OwnedWithin.apply ?_ (by simp)
      cases hs : s d.key with
      | none => exact ManagedFields.ownedWithin_empty _
      | some o => exact h _ hk o hs
    | create d =>
      obtain rfl : d.key = k := by simpa [Target] using htarget
      simp only [TrackedStore.after, Function.update_self, Option.some.injEq] at ho
      subst ho
      cases hs : s d.key with
      | none => exact (ManagedFields.ownedWithin_empty _).write (by simp)
      | some o => exact h _ hk o hs
    | patch d =>
      obtain rfl : d.key = k := by simpa [Target] using htarget
      simp only [TrackedStore.after, Function.update_self] at ho
      obtain ⟨o', hs, rfl⟩ := Option.map_eq_some_iff.mp ho
      exact (h _ hk o' hs).write (by simp)
    | delete k' =>
      obtain rfl : k' = k := by simpa [Target] using htarget
      simp [TrackedStore.after] at ho
    | _ => cases htarget
  · rw [trackedAfter_of_ne htarget] at ho
    exact h k hk o ho

theorem ownedByControllers_run {byGo : Bool} {s₀ : TrackedStore}
    {S : System Unit Pass TrackedStore Call Answer Unit}
    (h : (handingOver q client ns name byGo).Reachable (Environment.idle s₀) S)
    (hs₀ : OwnedByControllers client ns name s₀) : OwnedByControllers client ns name S.state := by
  refine (Environment.Reachable.invariant (I := fun s => OwnedByControllers client ns name s)
    (J := fun _ _ => True) ?_ ?_ ?_ ?_ h hs₀ (by simp)).1
  · exact fun _ _ _ _ _ => trivial
  · intro s _ e _ s' hs _ _ hserves
    refine ⟨?_, trivial⟩
    rcases servesFields_cases hserves with rfl | ⟨a, r, -, rfl⟩
    · exact hs
    · exact ownedByControllers_after hs
  · exact fun _ _ _ _ _ _ _ _ _ _ _ _ _ _ => trivial
  · exact fun _ _ _ hd => hd.elim

theorem HandedOver.owned (h : HandedOver q client ns name s) : OwnedByControllers client ns name s := by
  obtain ⟨s₀, S₁, S₂, hs₀, hkopf, hgo, rfl⟩ := h
  have hbegin : OwnedByControllers client ns name s₀ := by
    intro k hk o ho
    rw [hs₀ k hk] at ho
    cases ho
  exact ownedByControllers_run hgo (ownedByControllers_run hkopf hbegin)

/-! ## What the client keeps -/

/-- An exchange that neither creates nor patches an object. -/
def IsGoCall : Exchange → Prop
  | ⟨.act (.create _), _⟩ | ⟨.act (.patch _), _⟩ => False
  | _ => True

theorem isGoCall_of_untargeted {e : Exchange} (h : e.target = none) : IsGoCall e := by
  obtain ⟨c, r⟩ := e
  cases c with
  | act a => cases a <;> trivial
  | _ => trivial

/-- The Go controller neither creates nor patches. -/
theorem Go.isGoCall_reconcileCluster {c : CubeCluster} : Only IsGoCall (reconcileCluster q c) := by
  have hquiet {α : Type} {p : Op α} (h : Only (fun e => Exchange.target e = none) p) :
      Only IsGoCall p := h.mono fun _ => isGoCall_of_untargeted
  have hstatus {reason message : String} {f : Except GoError Unit → Op Outcome}
      (hf : ∀ r, Only IsGoCall (f r)) :
      Only IsGoCall ((setStatus c .isFalse reason message 0).run >>= f) :=
    Only.bind (hquiet untargeted_setStatus) hf
  refine Only.bind (hquiet untargeted_validateReferences) fun r => ?_
  cases r with
  | error err => exact hstatus fun r => by cases r <;> trivial
  | ok u =>
    cases hos : objects q c with
    | none => trivial
    | some os =>
      refine Only.bind (Only.forEach fun o _ r => ⟨trivial, trivial⟩) fun r => ?_
      cases r with
      | error err => exact hstatus fun r => by cases r <;> trivial
      | ok u =>
        refine Only.bind (Only.forEach fun k _ r => ⟨trivial, trivial⟩) fun r => ?_
        cases r with
        | error err => trivial
        | ok u =>
          refine Only.bind (hquiet untargeted_workloadsAvailable) fun r => ?_
          cases r with
          | error err => trivial
          | ok r => exact hquiet untargeted_reportReadiness

/-- A call of the Go controller adds nothing to what the client owns. -/
theorem clientFields_step {e : Exchange} (hclient : client ≠ cubeOperator)
    (hserves : ServesFields client s e s') (he : IsGoCall e) {p : Json.FieldPath} {v : Json}
    (h : clientFields client s' k p = some v) : clientFields client s k p = some v := by
  rcases servesFields_cases hserves with rfl | ⟨a, r, rfl, rfl⟩
  · exact h
  · by_cases htarget : Target a = some k
    · obtain ⟨o, ho, hv⟩ := Option.bind_eq_some_iff.mp h
      cases a with
      | apply d =>
        obtain rfl : d.key = k := by simpa [Target] using htarget
        simp only [TrackedStore.after, Function.update_self, Option.some.injEq] at ho
        subst ho
        have hbefore := ManagedFields.ownedBy_of_ownedBy_apply hclient hv
        cases hs : s d.key with
        | none => simp [hs] at hbefore
        | some o => exact Option.bind_eq_some_iff.mpr ⟨o, hs, by simpa [hs] using hbefore⟩
      | delete k' =>
        obtain rfl : k' = k := by simpa [Target] using htarget
        simp [TrackedStore.after] at ho
      | create d => exact he.elim
      | patch d => exact he.elim
      | _ => cases htarget
    · unfold clientFields at h ⊢
      rwa [trackedAfter_of_ne htarget] at h

/-- After the switch the client owns only what it owned at the switch. -/
theorem clientFields_run {s₁ : TrackedStore} {S : System Unit Pass TrackedStore Call Answer Unit}
    (hclient : client ≠ cubeOperator)
    (h : (handingOver q client ns name true).Reachable (Environment.idle s₁) S)
    {p : Json.FieldPath} {v : Json} (hv : clientFields client S.state k p = some v) :
    clientFields client s₁ k p = some v := by
  let Within (s : TrackedStore) : Prop :=
    ∀ v, clientFields client s k p = some v → clientFields client s₁ k p = some v
  have hwithin : Within S.state := by
    refine (Environment.Reachable.invariant (I := Within) (J := fun _ run => Only IsGoCall run.rest)
      ?_ ?_ ?_ ?_ h (fun _ => id) (by simp [Environment.idle])).1
    · rintro _ _ job ⟨hgo, -⟩ _
      cases job with
      | go c => exact Only.bind Go.isGoCall_reconcileCluster fun _ => trivial
      | kopf b => cases hgo
    · rintro s _ e _ s' hs hrun ⟨job, next, log⟩ hserves
      obtain ⟨he, hrest⟩ := hrun e.2
      exact ⟨fun v hv => hs v (clientFields_step hclient hserves he hv), hrest⟩
    · exact fun _ _ _ _ _ _ _ _ _ _ _ _ _ hJ => hJ
    · exact fun _ _ _ hd => hd.elim
  exact hwithin v hv

/-! ## What a Go pass leaves -/

/-- Every entry among the stored fields is one of the desired fields. -/
def OnlyEntries (stored desired : Fields) : Prop :=
  ∀ p, ∀ v ∈ entries p (stored p), v ∈ entries p (desired p)

/-- Every field that holds an entry is one of the desired fields, with whatever value. -/
def SetsEntries (owned desired : Fields) : Prop := ∀ p, entries p (owned p) ≠ [] → desired p ≠ none

namespace Go

variable {c : CubeCluster}

/-- The fields of the object `k` that the Go controller applies. -/
def desiredFields (q : Quantities) (c : CubeCluster) (k : Key) : Fields := fun p =>
  (((objects q c).getD []).find? fun o => o.manifest.key = k).bind fun o =>
    documentFields (applied c o) p

theorem desiredFields_of_mem {os : List K8s.Object} {o : K8s.Object} (h : objects q c = some os)
    (ho : o ∈ os) : desiredFields q c o.manifest.key = documentFields (applied c o) := by
  have hnodup : (os.map fun o => o.manifest.key).Nodup := by
    rw [objects_keys h]
    exact clusterKeys_nodup ..
  have hfound : os.find? (fun o' => o'.manifest.key = o.manifest.key) = some o := by
    cases ho' : os.find? (fun o' => o'.manifest.key = o.manifest.key) with
    | none => exact absurd (List.find?_eq_none.mp ho' o ho) (by simp)
    | some o' =>
      have hkey : o'.manifest.key = o.manifest.key := by simpa using List.find?_some ho'
      rw [List.inj_on_of_nodup_map hnodup (List.mem_of_find?_eq_some ho') ho hkey]
  funext p
  simp only [desiredFields, h, Option.getD_some, hfound, Option.bind_some]

/-- A pass of the Go controller in which no call fails takes the objects from `s` to
    `s'`. -/
def Succeeds (q : Quantities) (client : String) (c : CubeCluster) (s s' : TrackedStore) : Prop :=
  ∃ tr out, Exec (reconcileCluster q c) tr out ∧ Replay (ServesFields client) s tr s' ∧ Clean tr

/-- Afterwards an object of the spec has the desired fields and what the client owns
    besides them. -/
theorem storedFields_of_succeeds (hclient : client ≠ cubeOperator)
    (howned : OwnedByControllers client c.ns c.name s) (hvalid : Valid q c)
    (hpass : Succeeds q client c s s') (hk : k ∈ clusterKeys (isClustered c) c.ns c.name)
    (p : Json.FieldPath) :
    storedFields s' k p = (desiredFields q c k p).or (clientFields client s k p) := by
  obtain ⟨tr, out, hexec, hreplay, hclean⟩ := hpass
  obtain ⟨os, hos, happlied, -⟩ := objects_of_pass hvalid hexec hclean hreplay
  have hmanaged : k ∈ managedKeys c.ns c.name := mem_managedKeys.mpr (.inl hk)
  rw [← objects_keys hos] at hk
  obtain ⟨o, ho, rfl⟩ := List.mem_map.mp hk
  rw [storedFields, happlied o ho, Option.bind_some, ManagedFields.value_apply,
    desiredFields_of_mem hos ho]
  -- what is left besides the document is the client's
  congr 1
  cases hs : s o.manifest.key with
  | none => simp [clientFields, hs]
  | some o' =>
    simpa [clientFields, hs] using
      ManagedFields.left_eq_ownedBy (howned _ hmanaged o' hs) hclient

theorem storedFields_obsolete (hvalid : Valid q c) (hpass : Succeeds q client c s s')
    (hk : k ∈ storeKeys (!isClustered c) c.ns c.name) (p : Json.FieldPath) :
    storedFields s' k p = none := by
  obtain ⟨tr, out, hexec, hreplay, hclean⟩ := hpass
  obtain ⟨-, -, -, hgone⟩ := objects_of_pass hvalid hexec hclean hreplay
  rw [storedFields, hgone k hk, Option.bind_none]

/-- The entries after a pass are those of the spec if and only if every entry that the
    client owns is at a field the spec sets. -/
theorem onlyEntries_iff (hclient : client ≠ cubeOperator)
    (howned : OwnedByControllers client c.ns c.name s) (hvalid : Valid q c)
    (hpass : Succeeds q client c s s') :
    (∀ k ∈ managedKeys c.ns c.name, OnlyEntries (storedFields s' k) (desiredFields q c k)) ↔
      ∀ k ∈ clusterKeys (isClustered c) c.ns c.name,
        SetsEntries (clientFields client s k) (desiredFields q c k) := by
  constructor
  · intro honly k hk p hentries hdesired
    have hstored : storedFields s' k p = clientFields client s k p := by
      rw [storedFields_of_succeeds hclient howned hvalid hpass hk, hdesired, Option.none_or]
    obtain ⟨v, hv⟩ := List.exists_mem_of_ne_nil _ hentries
    have hmem := honly k (mem_managedKeys.mpr (.inl hk)) p v (hstored ▸ hv)
    rw [hdesired, entries_none] at hmem
    cases hmem
  · intro hsets k hk p v hv
    rcases mem_managedKeys.mp hk with hk | hk
    · rw [storedFields_of_succeeds hclient howned hvalid hpass hk] at hv
      cases hdesired : desiredFields q c k p with
      | some w => rwa [hdesired, Option.some_or] at hv
      | none =>
        rw [hdesired, Option.none_or] at hv
        exact absurd hdesired (hsets k hk p (List.ne_nil_of_mem hv))
    · rw [storedFields_obsolete hvalid hpass hk, entries_none] at hv
      cases hv

end Go

/-- After Kopf passes and then Go passes, a Go pass in which no call fails leaves only
    entries of its spec exactly when it sets every field at which the Kopf client still
    owns an entry. -/
theorem handover_iff {c : CubeCluster} (hclient : client ≠ cubeOperator)
    (hs : HandedOver q client ns name s) (hc : c.ns = ns ∧ c.name = name) (hvalid : Go.Valid q c)
    (hpass : Go.Succeeds q client c s s') :
    (∀ k ∈ managedKeys ns name, OnlyEntries (storedFields s' k) (Go.desiredFields q c k)) ↔
      ∀ k ∈ clusterKeys (Go.isClustered c) ns name,
        SetsEntries (clientFields client s k) (Go.desiredFields q c k) := by
  obtain ⟨rfl, rfl⟩ := hc
  exact Go.onlyEntries_iff hclient hs.owned hvalid hpass

/-! ### A storage change after the switch -/

/-- The small cluster with its store on S3. -/
def bucketCluster : CubeCluster :=
  { Go.smallCluster with
    generation := 2
    spec := { Go.smallCluster.spec with
      cubeStore := {
        remoteStorage := { type := "s3", s3 := some { bucket := "bucket", region := "region" } } } } }

/-- The pass of the Kopf controller that creates the objects. -/
def kopfPass : Unit × List Exchange × TrackedStore :=
  ((Pass.kopf Kopf.plainBody).program digitQuantities).runOn (serveFields "kopf-client") fun _ => none

/-- The first pass of the Go controller, under the same spec. -/
def switchedPass : Unit × List Exchange × TrackedStore :=
  ((Pass.go Go.smallCluster).program digitQuantities).runOn (serveFields "kopf-client") kopfPass.2.2

/-- The pass of the Go controller after the storage was changed to S3. -/
def bucketPass : Go.Outcome × List Exchange × TrackedStore :=
  (Go.reconcileCluster digitQuantities bucketCluster).runOn (serveFields "kopf-client") switchedPass.2.2

/-- The server can take any pass to its end. -/
theorem reachable_of_serveFields {byGo : Bool} {p : Pass} (hp : p.isGo = byGo)
    (hcluster : p.cluster = (ns, name)) (s : TrackedStore) :
    (handingOver q client ns name byGo).Reachable (Environment.idle s)
      (Environment.idle ((p.program q).runOn (serveFields client) s).2.2) := by
  obtain ⟨hexec, hreplay⟩ :=
    Program.runOn_run (@servesFields_serveFields client) (p.program q) s
  exact Environment.reachable_of_whole_run (E := handingOver q client ns name byGo) () p rfl
    ⟨hp, hcluster⟩ hexec (Environment.replay_servesLater hreplay)

/-- The objects after the first pass of the Go controller. -/
theorem handedOver_switchedPass :
    HandedOver digitQuantities "kopf-client" "default" "cube" switchedPass.2.2 :=
  ⟨fun _ => none, _, _, fun _ _ => rfl, reachable_of_serveFields (p := .kopf Kopf.plainBody) rfl rfl _,
    reachable_of_serveFields (p := .go Go.smallCluster) rfl rfl kopfPass.2.2, rfl⟩

theorem valid_bucketCluster : Go.Valid digitQuantities bucketCluster :=
  { Go.valid_smallCluster with storage := .inr ⟨rfl, _, rfl, by decide, by decide⟩ }

/-- A pass against the server in which no call fails. -/
theorem succeeds_of_clean {c : CubeCluster}
    (hclean : Clean ((Go.reconcileCluster q c).runOn (serveFields client) s).2.1) :
    Go.Succeeds q client c s ((Go.reconcileCluster q c).runOn (serveFields client) s).2.2 :=
  have hrun := Program.runOn_run servesFields_serveFields (Go.reconcileCluster q c) s
  ⟨_, _, hrun.1, hrun.2, hclean⟩

theorem succeeds_bucketPass :
    Go.Succeeds digitQuantities "kopf-client" bucketCluster switchedPass.2.2 bucketPass.2.2 :=
  succeeds_of_clean (by decide +kernel)

/-- The environment variable `CUBESTORE_REMOTE_DIR` of the store's container. -/
def remoteDir : Json.FieldPath :=
  [.field "spec", .field "template", .field "spec", .field "containers",
    .item [some (.str "cubestore")], .field "env", .item [some (.str "CUBESTORE_REMOTE_DIR")],
    .field "value"]

/-- The environment of the old storage survives the change to S3. -/
theorem handover_fails : ¬∀ (q : Quantities) (client ns name : String) (s s' : TrackedStore)
    (c : CubeCluster), client ≠ cubeOperator → HandedOver q client ns name s →
    (c.ns = ns ∧ c.name = name) → Go.Valid q c → Go.Succeeds q client c s s' →
    ∀ k ∈ managedKeys ns name, OnlyEntries (storedFields s' k) (Go.desiredFields q c k) := by
  intro h
  have honly := h digitQuantities "kopf-client" "default" "cube" _ _ bucketCluster (by decide)
    handedOver_switchedPass ⟨rfl, rfl⟩ valid_bucketCluster succeeds_bucketPass
    ⟨.deployment, "default", "cube-cubestore"⟩ (by decide) remoteDir (.str "/cube/remote")
    (by decide +kernel)
  have hdesired : Go.desiredFields digitQuantities bucketCluster
      ⟨.deployment, "default", "cube-cubestore"⟩ remoteDir = none := by decide +kernel
  rw [hdesired, entries_none] at honly
  cases honly

theorem handover_iff_bucketCluster :
    (∀ k ∈ managedKeys "default" "cube", OnlyEntries (storedFields bucketPass.2.2 k)
        (Go.desiredFields digitQuantities bucketCluster k)) ↔
      ∀ k ∈ clusterKeys (Go.isClustered bucketCluster) "default" "cube",
        SetsEntries (clientFields "kopf-client" switchedPass.2.2 k)
          (Go.desiredFields digitQuantities bucketCluster k) :=
  handover_iff (by decide) handedOver_switchedPass ⟨rfl, rfl⟩ valid_bucketCluster succeeds_bucketPass

/-! ## Without Kopf passes -/

/-- Without Kopf passes every Go pass in which no call fails leaves only entries of its
    spec. -/
theorem onlyEntries_of_goRun {c : CubeCluster} {s₀ : TrackedStore}
    {S : System Unit Pass TrackedStore Call Answer Unit} (hclient : client ≠ cubeOperator)
    (hs₀ : ∀ k ∈ managedKeys c.ns c.name, s₀ k = none)
    (hgo : (handingOver q client c.ns c.name true).Reachable (Environment.idle s₀) S)
    (hvalid : Go.Valid q c) (hpass : Go.Succeeds q client c S.state s') :
    ∀ k ∈ managedKeys c.ns c.name, OnlyEntries (storedFields s' k) (Go.desiredFields q c k) := by
  have hs : HandedOver q client c.ns c.name S.state :=
    ⟨s₀, Environment.idle s₀, S, hs₀, .refl, hgo, rfl⟩
  refine (Go.onlyEntries_iff hclient hs.owned hvalid hpass).mpr fun k hk p hentries => ?_
  -- the client owns nothing
  have hnone : clientFields client S.state k p = none := by
    by_contra hne
    obtain ⟨v, hv⟩ := Option.ne_none_iff_exists'.mp hne
    have hbefore := clientFields_run hclient hgo hv
    rw [clientFields, hs₀ k (mem_managedKeys.mpr (.inl hk))] at hbefore
    cases hbefore
  rw [hnone, entries_none] at hentries
  exact absurd rfl hentries

/-- The pass of the Go controller that creates the objects. -/
def goPass : Unit × List Exchange × TrackedStore :=
  ((Pass.go Go.smallCluster).program digitQuantities).runOn (serveFields "kopf-client") fun _ => none

/-- The pass after the storage was changed to S3. -/
def goBucketPass : Go.Outcome × List Exchange × TrackedStore :=
  (Go.reconcileCluster digitQuantities bucketCluster).runOn (serveFields "kopf-client") goPass.2.2

theorem onlyEntries_goBucketPass :
    Go.Succeeds digitQuantities "kopf-client" bucketCluster goPass.2.2 goBucketPass.2.2 ∧
      ∀ k ∈ managedKeys "default" "cube", OnlyEntries (storedFields goBucketPass.2.2 k)
        (Go.desiredFields digitQuantities bucketCluster k) := by
  have hgo : (handingOver digitQuantities "kopf-client" "default" "cube" true).Reachable
      (Environment.idle fun _ => none) (Environment.idle goPass.2.2) :=
    reachable_of_serveFields (p := .go Go.smallCluster) rfl rfl _
  have hclean : Clean goBucketPass.2.1 := by decide +kernel
  have hpass : Go.Succeeds digitQuantities "kopf-client" bucketCluster goPass.2.2 goBucketPass.2.2 :=
    succeeds_of_clean hclean
  exact ⟨hpass, onlyEntries_of_goRun (by decide) (fun _ _ => rfl) hgo valid_bucketCluster hpass⟩

end CubeOperator
