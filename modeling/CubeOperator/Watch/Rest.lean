import CubeOperator.Lib.Table
import CubeOperator.Status.Accepted
import CubeOperator.Watch.Server

/-! # Where the manager comes to rest

    Every call of a pass tells the controller something about the CubeCluster or one of
    its objects.  What it was told holds until a change asks for another pass.  So when
    no pass is at work or asked for, the last pass is still right in all it was told. -/

namespace CubeOperator

open Interaction Kube V1alpha1

variable {q : Quantities} {ns name : String} {w w' : Watched} {e : Exchange} {k : Key}

/-! ## What a call tells -/

/-- The CubeCluster has the property, or a change of it is still to be delivered. -/
def Watched.KnowsCluster (w : Watched) (P : Option CubeCluster → Prop) : Prop :=
  w.cluster.Known (fun _ => True) P

/-- The object has the property, or a change that asks for a pass is still to be delivered. -/
def Watched.KnowsObject (ns name : String) (w : Watched) (k : Key) (P : Option Held → Prop) :
    Prop :=
  (w.objects k).Known (Asks ns name k) P

/-- What an exchange tells. -/
def Told (ns name : String) (e : Exchange) (w : Watched) : Prop :=
  match e with
  | ⟨.getCluster ns name, .ok c⟩ =>
      (c.ns = ns ∧ c.name = name) ∧ w.KnowsCluster fun x => x = some c
  | ⟨.getCluster _ _, .error err⟩ => err.isNotFound → w.KnowsCluster fun x => x = none
  | ⟨.get k, .ok l⟩ => k.kind.isReference = false →
      w.KnowsObject ns name k fun x => Asks ns name k x → ∃ o, x = some o ∧ o.live = l
  | ⟨.act (.apply d), .ok ()⟩ => (∀ x, Held.Applied d x → Asks ns name d.key x) →
      w.KnowsObject ns name d.key (Held.Applied d)
  | ⟨.act (.delete k), r⟩ => Go.Gone r →
      w.KnowsObject ns name k fun x => Asks ns name k x → Held.Gone x
  | ⟨.act (.patchStatus _ _ base modified), .ok ()⟩ => w.KnowsCluster fun x =>
      ∃ c, x = some c ∧ patchedStatus base modified c.status = c.status
  | _ => True

/-- Between `w` and `w'` no change was told, so that what was known still is. -/
structure Retains (ns name : String) (w w' : Watched) : Prop where
  cluster : ∀ P, w.KnowsCluster P → w'.KnowsCluster P
  object : ∀ k P, Feed.Blind (Asks ns name k) P → w.KnowsObject ns name k P →
    w'.KnowsObject ns name k P

theorem Retains.refl (w : Watched) : Retains ns name w w := ⟨fun _ h => h, fun _ _ _ h => h⟩

theorem Retains.told (h : Retains ns name w w') (htold : Told ns name e w) : Told ns name e w' := by
  unfold Told at htold ⊢
  split
  · exact ⟨htold.1, h.cluster _ htold.2⟩
  · exact fun hmissing => h.cluster _ (htold hmissing)
  · exact fun hkind => h.object _ _ (Feed.blind_of_unwatched fun _ hnot hasks => absurd hasks hnot)
      (htold hkind)
  · exact fun hasks => h.object _ _ (Feed.blind_of_watched hasks) (htold hasks)
  · exact fun hgone => h.object _ _ (Feed.blind_of_unwatched fun _ hnot hasks => absurd hasks hnot)
      (htold hgone)
  · exact h.cluster _ htold
  · trivial

theorem retains_setCluster {f : Feed (Option CubeCluster)}
    (h : ∀ P, w.KnowsCluster P → f.Known (fun _ => True) P) :
    Retains ns name w { w with cluster := f } := ⟨h, fun _ _ _ hP => hP⟩

theorem retains_setObject {f : Feed (Option Held)}
    (h : ∀ P, Feed.Blind (Asks ns name k) P → w.KnowsObject ns name k P →
      f.Known (Asks ns name k) P) : Retains ns name w (w.setObject k f) := by
  refine ⟨fun _ hP => hP, fun k' P hblind hP => ?_⟩
  by_cases hk : k' = k
  · subst hk
    simpa [Watched.KnowsObject, Watched.setObject] using h P hblind hP
  · simpa [Watched.KnowsObject, Watched.setObject, hk] using hP

theorem Watched.WritesObject.retains {x : Option Held} (h : w.WritesObject k x w') :
    Retains ns name w w' := by
  obtain ⟨f, hbecomes, rfl⟩ := h
  exact retains_setObject fun _ _ hP => hP.becomes hbecomes

theorem Watched.WritesCluster.retains {x : Option CubeCluster} (h : w.WritesCluster x w') :
    Retains ns name w w' := by
  obtain ⟨f, hbecomes, rfl⟩ := h
  exact retains_setCluster fun _ hP => hP.becomes hbecomes

theorem Watched.Performs.retains {a : Action} (h : w.Performs a w') : Retains ns name w w' := by
  cases a with
  | apply d => exact WritesObject.retains h
  | delete k =>
    obtain ⟨o, x, -, -, hwrites⟩ := h
    exact hwrites.retains
  | patchStatus ns name base modified =>
    obtain ⟨c, -, hwrites⟩ := h
    exact hwrites.retains
  | _ =>
    obtain rfl : w' = w := h
    exact Retains.refl _

theorem Watched.Serves.retains (h : w.Serves e w') : Retains ns name w w' := by
  obtain ⟨c, r⟩ := e
  obtain ⟨-, h⟩ := h
  cases c with
  | act a =>
    rcases h.1 with hperforms | ⟨-, rfl⟩
    · exact hperforms.retains
    · exact Retains.refl _
  | getCluster ns name =>
    obtain ⟨rfl, -⟩ := h
    exact Retains.refl _
  | get k =>
    obtain ⟨rfl, -⟩ := h
    exact Retains.refl _
  | _ =>
    obtain rfl : w' = w := h
    exact Retains.refl _

theorem Watched.Drifts.retains (h : w.Drifts ns name w') : Retains ns name w w' := by
  cases h with
  | cluster x => exact retains_setCluster fun _ hP => hP.write x
  | object k x => exact retains_setObject fun _ _ hP => hP.write x
  | deliver hdelivers hquiet =>
    exact retains_setObject fun _ hblind hP => hP.deliver hblind hdelivers hquiet

/-- What the API server has stored is known. -/
theorem Watched.WritesObject.known {x : Option Held} {P : Option Held → Prop}
    (h : w.WritesObject k x w') (hblind : Feed.Blind (Asks ns name k) P) (hP : P x) :
    w'.KnowsObject ns name k P := by
  obtain ⟨f, hbecomes, rfl⟩ := h
  have hstored : f.stored = x := hbecomes.stored
  have hknown : f.Known (Asks ns name k) P := Feed.known_of_stored hblind (hstored ▸ hP)
  simpa [KnowsObject, setObject] using hknown

theorem Watched.WritesCluster.known {x : Option CubeCluster} {P : Option CubeCluster → Prop}
    (h : w.WritesCluster x w') (hP : P x) : w'.KnowsCluster P := by
  obtain ⟨f, hbecomes, rfl⟩ := h
  exact Feed.known_of_stored (Feed.blind_of_forall fun _ => trivial) (hbecomes.stored ▸ hP)

@[simp] theorem patchedStatus_patchedStatus (base modified stored : CubeClusterStatus) :
    patchedStatus base modified (patchedStatus base modified stored) =
      patchedStatus base modified stored := by
  simp only [patchedStatus, CubeClusterStatus.mk.injEq]
  refine ⟨?_, ?_, ?_, ?_⟩ <;> split <;> rfl

theorem gone_of_deletes {o : Held} {x : Option Held} (h : o.Deletes x) : Held.Gone x := by
  rintro o' rfl
  rcases h with hsome | ⟨-, hnone⟩
  · obtain rfl := Option.some.inj hsome
    rfl
  · cases hnone

/-- Each answer is true when it is given, and stays true until a change is told. -/
theorem Watched.Serves.told (h : w.Serves e w') : Told ns name e w' := by
  obtain ⟨hanswers, h⟩ := h
  unfold Told
  split
  · obtain ⟨rfl, hcached, -⟩ := h
    exact ⟨hanswers _ _ _ rfl, Feed.known_of_cached (hcached _ rfl)⟩
  · obtain ⟨rfl, -, hcached⟩ := h
    exact fun hmissing => Feed.known_of_cached (hcached _ rfl hmissing)
  · obtain ⟨rfl, hcached⟩ := h
    exact fun hkind => Feed.known_of_cached fun _ => (hcached hkind).1 _ rfl
  · rcases h.1 with hperforms | ⟨hne, -⟩
    · exact fun hasks => Watched.WritesObject.known hperforms (Feed.blind_of_watched hasks)
        (Held.applied_apply _ _)
    · exact absurd rfl hne
  · rename_i k r
    intro hgone
    -- of what is not watched nothing is said
    have hblind : Feed.Blind (Asks ns name k) fun x => Asks ns name k x → Held.Gone x :=
      Feed.blind_of_unwatched fun _ hnot hasks => absurd hasks hnot
    have hmissing : ∀ err, r = .error err → (w.objects k).stored = none ∧ w' = w :=
      fun err hr => h.2 k err rfl hr (hgone err hr)
    have habsent : (w.objects k).stored = none ∧ w' = w → w'.KnowsObject ns name k fun x =>
        Asks ns name k x → Held.Gone x := by
      rintro ⟨hnone, rfl⟩
      refine Feed.known_of_stored hblind fun _ o ho => ?_
      rw [hnone] at ho
      cases ho
    rcases h.1 with ⟨o, x, -, hdeletes, hwrites⟩ | ⟨hne, -⟩
    · exact hwrites.known hblind fun _ => gone_of_deletes hdeletes
    · cases r with
      | ok u => exact absurd rfl hne
      | error err => exact habsent (hmissing err rfl)
  · rcases h.1 with ⟨c, -, hwrites⟩ | ⟨hne, -⟩
    · exact hwrites.known ⟨_, rfl, by simp⟩
    · exact absurd rfl hne
  · trivial

/-- The manager forgets nothing that it was told, as long as no pass is asked for. -/
theorem recalls_managing : (managing q ns name).Recalls (Told ns name)
    (fun w => w.KnowsCluster fun x => x = none) where
  served _ _ _ hserves := Watched.Serves.told hserves
  kept _ _ _ _ hserves htold := (Watched.Serves.retains hserves).told htold
  drifted _ _ _ hdrifts htold := (Watched.Drifts.retains hdrifts).told htold
  restarted _ _ hrestarts := by
    rw [hrestarts]
    exact Feed.known_of_cached rfl
  stays _ _ hdrifts hfresh := (Watched.Drifts.retains hdrifts).cluster _ hfresh

/-! ## The last pass -/

namespace Go

variable {c : CubeCluster}

/-- The message of a report that all is well. -/
def readyMessage : String := "Cube API readiness endpoint is healthy and all workloads are ready"

/-- The calls of a pass that is not to be repeated: it went through, found everything ready
    and said so. -/
structure Through (q : Quantities) (c : CubeCluster) (tr : List Exchange) : Prop where
  valid : Valid q c
  applied : ∃ os, objects q c = some os ∧ ∀ o ∈ os, ∃ e ∈ tr, IsApply c o e
  removed : ∀ k ∈ obsoleteStore c, ∃ e ∈ tr, IsRemoval k e
  available : ∀ w ∈ expected c, ∃ l, Exchange.got w.1 (.ok l) ∈ tr ∧ w.2 ≤ readyReplicas l
  reported : ∃ l latest t,
    Exchange.got (workloadKey c .deployment "api") (.ok l) ∈ tr ∧
    Exchange.readCluster c.ns c.name (.ok latest) ∈ tr ∧
    Exchange.did (.patchStatus latest.ns latest.name latest.status
      (newStatus latest t .isTrue "Available" readyMessage (readyReplicas l))) (.ok ()) ∈ tr

theorem repeats_afterStatus {result : Result} {r : Except GoError Unit}
    (h : (afterStatus result r).repeats = false) : r = .ok () ∧ result.requeueAfter = 0 := by
  cases r with
  | ok u => exact ⟨rfl, by simpa [afterStatus, Outcome.repeats] using h⟩
  | error err => simp [afterStatus, Outcome.repeats] at h

/-- A report that is not to be repeated. -/
theorem exec_reportReadiness_unrepeated {ready : ℤ} {available : Bool} {message : String}
    {tr : List Exchange} {out : Outcome}
    (h : Exec (reportReadiness c ready available message) tr out) (hout : out.repeats = false) :
    available = true ∧ ∃ tr₁ tr₂, tr = tr₁ ++ tr₂ ∧
      Exec (setStatus c .isTrue "Available" readyMessage ready).run tr₂ (.ok ()) := by
  unfold reportReadiness at h
  obtain ⟨tr₁, ⟨condition, reason, message'⟩, tr₂, rfl, hreadiness, h⟩ := Exec.bind_iff.mp h
  have hstored : condition ≠ .isFalse ∧
      Exec (setStatus c condition reason message' ready).run tr₂ (.ok ()) := by
    obtain ⟨tr₃, err, tr₄, rfl, -, h⟩ | ⟨tr₃, u, tr₄, rfl, hstatus, h⟩ := Exec.run_bind_iff.mp h
    -- a status that could not be stored is an error, and the pass is repeated
    · obtain ⟨-, rfl⟩ := Exec.ret_iff.mp h
      simp [Outcome.repeats] at hout
    · obtain ⟨rfl, rfl⟩ := Exec.ret_iff.mp h
      refine ⟨fun hfalse => ?_, by simpa using hstatus⟩
      simp [Outcome.repeats, hfalse] at hout
  obtain ⟨hnot, hstatus⟩ := hstored
  unfold readiness at hreadiness
  split at hreadiness
  · rename_i havailable
    refine ⟨havailable, tr₁, tr₂, rfl, ?_⟩
    obtain ⟨tr₃, err, tr₄, rfl, -, hret⟩ | ⟨tr₃, u, tr₄, rfl, -, hret⟩ :=
      Exec.run_bind_iff.mp hreadiness
    · obtain ⟨-, hcondition⟩ := Exec.ret_iff.mp hret
      cases hcondition
      exact absurd rfl hnot
    · obtain ⟨-, hcondition⟩ := Exec.ret_iff.mp hret
      cases hcondition
      exact hstatus
  · obtain ⟨-, hcondition⟩ := Exec.ret_iff.mp hreadiness
    cases hcondition
    exact absurd rfl hnot

/-- A pass ends when it cannot read its CubeCluster. -/
theorem reconcile_cases {ns name : String} {tr : List Exchange} {out : Outcome}
    (h : Exec (reconcile q ns name) tr out) :
    (∃ err, tr = [.readCluster ns name (.error err)] ∧
      out = .returned {} (if err.isNotFound then none else some (.ofApi err))) ∨
    ∃ c tr', tr = .readCluster ns name (.ok c) :: tr' ∧ Pass q c tr' out := by
  obtain ⟨tr₁, err, tr₂, rfl, hread, hret⟩ | ⟨tr₁, c', tr₂, rfl, hread, hpass⟩ :=
    Exec.run_bind_iff.mp h
  · obtain ⟨r, rfl, hr⟩ := (exec_getCluster _).mp hread
    cases r with
    | ok c' => cases hr
    | error err' =>
      cases hr
      obtain ⟨rfl, rfl⟩ := Exec.ret_iff.mp hret
      exact .inl ⟨_, rfl, rfl⟩
  · obtain ⟨r, rfl, hr⟩ := (exec_getCluster _).mp hread
    cases r with
    | error err => cases hr
    | ok c'' =>
      cases hr
      exact .inr ⟨c', tr₂, rfl, reconcileCluster_cases hpass⟩

/-- A pass is repeated unless it went through. -/
theorem Pass.through {tr : List Exchange} {out : Outcome} (h : Pass q c tr out)
    (hout : out.repeats = false) : Through q c tr := by
  cases h with
  | rejected =>
    obtain ⟨-, hzero⟩ := repeats_afterStatus hout
    cases hzero
  | applyFailed => simp [Outcome.repeats] at hout
  | removeFailed => simp [Outcome.repeats] at hout
  | readFailed => simp [Outcome.repeats] at hout
  | reported hvalidate hos happly hremove hread hreport =>
    obtain ⟨rs, hws, rfl, hready, l, rs', rfl, rfl⟩ := readsAll_workloadsAvailable.1 _ _ hread
    obtain ⟨hall, tr₁, tr₂, rfl, hstatus⟩ := exec_reportReadiness_unrepeated hreport hout
    obtain ⟨tr₃, latest, t, rfl⟩ := exec_setStatus_ok hstatus
    -- the applies, the deletes, the workloads, and the exchanges of the status
    refine ⟨(exec_validateReferences_ok hvalidate).1, ⟨_, hos, fun o ho => ?_⟩, fun k hk => ?_,
      fun w hw => ?_, l, latest, t, ?_, ?_, ?_⟩
    · obtain ⟨e, he, happlied⟩ := exists_right_of_mem happly ho
      exact ⟨e, by simp [he], happlied⟩
    · obtain ⟨e, he, hremoved⟩ := exists_right_of_mem hremove hk
      exact ⟨e, by simp [he], hremoved⟩
    · obtain ⟨l', hl', hn⟩ := (all_isReady_iff hws).mp (hready.symm.trans hall) w hw
      refine ⟨l', ?_, hn⟩
      simp only [List.mem_append]
      exact .inr (.inr (.inr (.inl hl')))
    · simp [Reading.exchange]
    · simp
    · simp

end Go

/-! ## The objects of the CubeCluster -/

section objects

variable {c : CubeCluster}

/-- The fields of the owner reference in a document that carries one. -/
theorem documentFields_owner (m : Manifest) (owner : OwnerReference) (field : String) :
    documentFields (m.ownedBy owner) (Held.ownerPath owner.uid field) =
      (owner.toJson.get? field).map
        (Json.shell listKeys ([.field field, .item [some (.str owner.uid)],
          .field "ownerReferences", .field "metadata"])) := by
  have hmetadata : (m.ownedBy owner).body.get? "metadata" =
      some (.obj (m.ownedBy owner).metadata.fields) := by
    simp [Manifest.body, Json.get?, Json.fields]
  have hreferences : Json.get? (.obj (m.ownedBy owner).metadata.fields) "ownerReferences" =
      some (.arr [owner.toJson]) := by
    simp [Manifest.ownedBy, Metadata.fields, Json.get?, Json.fields, Json.lookup_append,
      lookup_optionalField]
  have hitem : [owner.toJson].find? (fun x => ["uid"].map x.get? = [some (.str owner.uid)]) =
      some owner.toJson := by
    simp [OwnerReference.toJson, Json.get?, Json.fields]
  have hkeys : listKeys [.field "ownerReferences", .field "metadata"] = some ["uid"] := rfl
  simp only [documentFields, Held.ownerPath, Json.fieldAt_cons, Json.child, hmetadata, hreferences,
    hkeys, hitem, Option.bind_some]
  cases owner.toJson.get? field <;> rfl

/-- What the controller has applied asks for a pass when it changes. -/
theorem asks_of_applied {o : K8s.Object} {x : Option Held}
    (hns : o.manifest.metadata.ns = c.ns) (hkind : o.manifest.kind.isReference = false)
    (h : Held.Applied (Go.applied c o) x) : Asks c.ns c.name o.manifest.key x := by
  obtain ⟨held, rfl, hfields⟩ := h.value
  refine ⟨hns, hkind, held, rfl, c.uid, "v1alpha1", ?_, ?_, ?_, ?_⟩ <;>
  · refine hfields _ _ ((documentFields_owner _ (Go.controllerReference c) _).trans ?_)
    simp [OwnerReference.toJson, Json.get?, Json.fields, Json.shell, Go.controllerReference]

theorem asks_of_objects {os : List K8s.Object} (hos : Go.objects q c = some os) {o : K8s.Object}
    (ho : o ∈ os) {x : Option Held} (h : Held.Applied (Go.applied c o) x) :
    Asks c.ns c.name o.manifest.key x := by
  have hkey : o.manifest.key ∈ clusterKeys (Go.isClustered c) c.ns c.name := by
    rw [← Go.objects_keys hos]
    exact List.mem_map_of_mem ho
  exact asks_of_applied (clusterKeys_ns _ hkey) (clusterKeys_kind _ hkey) h

end objects

/-! ## At rest -/

/-- The API server is as the CubeCluster `c` says it should be, and so does its status. -/
structure Desired (q : Quantities) (w : Watched) (c : CubeCluster) : Prop where
  valid : Go.Valid q c
  /-- Every object of the spec is there, and another apply would not change it. -/
  applied : ∃ os, Go.objects q c = some os ∧
    ∀ o ∈ os, Held.Applied (Go.applied c o) (w.objects o.manifest.key).stored
  /-- No object of the other topology is left, unless it is going or somebody else's. -/
  removed : ∀ k ∈ Go.obsoleteStore c, Asks c.ns c.name k (w.objects k).stored →
    Held.Gone (w.objects k).stored
  /-- Every workload has the ready replicas it needs. -/
  available : ∀ r ∈ Go.expected c, ∃ o, (w.objects r.1).stored = some o ∧
    r.2 ≤ Go.readyReplicas o.live
  /-- The status says so of the current generation, with the API's ready replicas. -/
  status : ∃ t o, (w.objects (Go.workloadKey c .deployment "api")).stored = some o ∧
    c.status = Go.newStatus c t .isTrue "Available" Go.readyMessage (Go.readyReplicas o.live)

/-- What a pass was told that went through, when it is still known and all is delivered. -/
theorem desired_of_told {c : CubeCluster} {tr : List Exchange} (h : Go.Through q c tr)
    (htold : ∀ e ∈ tr, Told c.ns c.name e w) (hsettled : w.Settled)
    (hc : w.cluster.stored = some c) : Desired q w c := by
  obtain ⟨os, hos, happlied⟩ := h.applied
  have hobjects : ∀ o ∈ os, Held.Applied (Go.applied c o) (w.objects o.manifest.key).stored := by
    intro o ho
    obtain ⟨e, he, rfl⟩ := happlied o ho
    have hknows : w.KnowsObject c.ns c.name o.manifest.key (Held.Applied (Go.applied c o)) :=
      htold _ he fun _ => asks_of_objects hos ho
    exact hknows.of_settled (hsettled.objects _)
  -- a workload is one of the objects, so that its changes are told
  have hread : ∀ r ∈ Go.expected c, ∀ l, Exchange.got r.1 (.ok l) ∈ tr →
      ∃ o, (w.objects r.1).stored = some o ∧ o.live = l := by
    intro r hr l hl
    obtain ⟨hworkload, o, ho, hkey⟩ := Go.expected_written hos hr
    have hkind : r.1.kind.isReference = false := Go.expected_kind c r hr
    have hknows := (htold _ hl hkind).of_settled (hsettled.objects _)
    refine hknows ?_
    rw [← hkey]
    exact asks_of_objects hos ho (hobjects o ho)
  refine ⟨h.valid, ⟨os, hos, hobjects⟩, fun k hk => ?_, fun r hr => ?_, ?_⟩
  · obtain ⟨_, he, r, rfl, hgone⟩ := h.removed k hk
    exact (htold _ he hgone).of_settled (hsettled.objects k)
  · obtain ⟨l, hl, hn⟩ := h.available r hr
    obtain ⟨o, ho, rfl⟩ := hread r hr l hl
    exact ⟨o, ho, hn⟩
  · obtain ⟨l, latest, t, hl, hlatest, hpatch⟩ := h.reported
    obtain ⟨o, ho, rfl⟩ := hread (Go.workloadKey c .deployment "api", Go.replicas c.spec.api.replicas 2)
      (by simp [Go.expected]) l hl
    obtain rfl : c = latest := by
      have hstored := (htold _ hlatest).2.of_settled hsettled.cluster
      rw [hc] at hstored
      exact Option.some.inj hstored
    have hpatched : w.KnowsCluster fun x => ∃ c', x = some c' ∧ patchedStatus c.status
        (Go.newStatus c t .isTrue "Available" Go.readyMessage (Go.readyReplicas o.live)) c'.status =
          c'.status := htold _ hpatch
    obtain ⟨c', hc', hstatus⟩ := hpatched.of_settled hsettled.cluster
    rw [hc] at hc'
    obtain rfl := Option.some.inj hc'
    exact ⟨t, o, ho, by simpa using hstatus.symm⟩

/-- The manager has just been started: no pass is at work, and unless one is asked for it
    does not know of the CubeCluster yet. -/
def Started (S : ControlLoop.State Watched Call Answer Go.Outcome) : Prop :=
  S.run = none ∧ (S.queued = false → S.world.cluster.cached = none)

/-- The manager comes to rest only where everything is as the CubeCluster says and is
    reported to be. -/
theorem rest_desired {S₀ S : ControlLoop.State Watched Call Answer Go.Outcome} {c : CubeCluster}
    (h : (managing q ns name).Reachable S₀ S) (hS₀ : Started S₀) (hrest : S.Resting)
    (hsettled : S.world.Settled) (hc : S.world.cluster.stored = some c) : Desired q S.world c := by
  have hstarts : S₀.Starts fun w => w.KnowsCluster fun x => x = none :=
    ⟨hS₀.1, fun hqueued => Feed.known_of_cached (hS₀.2 hqueued)⟩
  have habsent : ¬S.world.KnowsCluster fun x => x = none := by
    intro hnone
    have hstored := hnone.of_settled hsettled.cluster
    rw [hc] at hstored
    cases hstored
  rcases recalls_managing.rest h hstarts hrest with hfresh | ⟨tr, out, hexec, hrepeats, htold⟩
  · exact absurd hfresh habsent
  rcases Go.reconcile_cases hexec with ⟨err, rfl, rfl⟩ | ⟨c', tr', rfl, hpass⟩
  · -- the CubeCluster was not found
    have hmissing : err.isNotFound = true := by
      by_contra hother
      simp [managing, Go.Outcome.repeats, hother] at hrepeats
    exact absurd (htold (Exchange.readCluster ns name (.error err)) (by simp) hmissing) habsent
  · obtain ⟨⟨rfl, rfl⟩, hknows⟩ := htold (Exchange.readCluster ns name (.ok c')) (by simp)
    obtain rfl : c = c' := by
      have hstored := hknows.of_settled hsettled.cluster
      rw [hc] at hstored
      exact Option.some.inj hstored
    exact desired_of_told (hpass.through hrepeats) (fun e he => htold e (by simp [he])) hsettled hc

/-! ### A small cluster at rest -/

/-- The small cluster when it has been reported ready. -/
def availableCluster : CubeCluster :=
  { Go.smallCluster with
    status := Go.newStatus Go.smallCluster 0 .isTrue "Available" Go.readyMessage 2 }

def availableObjects : List K8s.Object := (Go.objects digitQuantities availableCluster).getD []

/-- An object as the controller has applied it, with two ready replicas. -/
def availableObject (o : K8s.Object) : Held :=
  { Held.apply (Go.applied availableCluster o) none with live := { readyReplicas := some 2 } }

/-- Everything is there, and all is delivered. -/
def availableWorld : Watched where
  cluster := ⟨some availableCluster, []⟩
  objects k := ⟨(Table.stored (fun o => o.manifest.key) availableObjects k).map availableObject, []⟩

/-- The answers of that world. -/
def availableAnswers : (call : Call) → Answer call
  | .act (.patchStatus _ _ base modified) =>
    if patchedStatus base modified availableCluster.status = availableCluster.status then .ok ()
    else .error (.other "changes")
  | .act (.delete _) => .error .notFound
  | .act _ => .ok ()
  | .getCluster ns name =>
    if ns = "default" ∧ name = "cube" then .ok availableCluster else .error .notFound
  | .get k =>
    if k.kind.isReference ∨ k ∈ clusterKeys false "default" "cube"
    then .ok { readyReplicas := some 2 } else .error .notFound
  | .httpGet url => .status 200 "OK" url
  | .now => 0

theorem objects_available :
    Go.objects digitQuantities availableCluster = some availableObjects := by
  obtain ⟨os, hos⟩ := Go.exists_objects (q := digitQuantities) (c := availableCluster)
    { Go.valid_smallCluster with }
  rw [availableObjects, hos, Option.getD_some]

theorem keys_available : availableObjects.map (fun o => o.manifest.key) =
    clusterKeys false "default" "cube" := Go.objects_keys objects_available

theorem available_of_mem {o : K8s.Object} (ho : o ∈ availableObjects) :
    (availableWorld.objects o.manifest.key).cached = some (availableObject o) := by
  have hunique : Table.Unique (fun o : K8s.Object => o.manifest.key) availableObjects := by
    rw [Table.Unique, keys_available]
    exact clusterKeys_nodup ..
  simp [availableWorld, Table.stored_of_mem hunique ho]

theorem available_of_notMem {k : Key} (hk : k ∉ clusterKeys false "default" "cube") :
    (availableWorld.objects k).cached = none := by
  have hnone : Table.stored (fun o : K8s.Object => o.manifest.key) availableObjects k = none := by
    refine Table.stored_eq_none_iff.mpr fun o ho hkey => hk ?_
    rw [← keys_available, ← hkey]
    exact List.mem_map_of_mem ho
  simp [availableWorld, hnone]

theorem settled_available : availableWorld.Settled := ⟨rfl, fun _ => rfl⟩

/-- The world serves its answers to a pass, and stays as it is. -/
theorem serves_available {e : Exchange} (h : Go.Makes digitQuantities availableCluster e)
    (he : e.2 = availableAnswers e.1) : availableWorld.Serves e availableWorld := by
  cases h with
  | lookup r hk =>
    refine ⟨by simp [AnswersCluster], rfl, fun hkind => ?_⟩
    rw [Go.references_kind hk] at hkind
    cases hkind
  | @apply os o r hos ho =>
    obtain rfl : availableObjects = os := Option.some.inj (objects_available.symm.trans hos)
    obtain rfl : r = .ok () := he
    have hstored : (availableWorld.objects o.manifest.key).stored = some (availableObject o) := by
      rw [(settled_available.objects _).stored, available_of_mem ho]
    -- the apply would change nothing
    have hsame : some (Held.apply (Go.applied availableCluster o)
        (availableWorld.objects o.manifest.key).stored) =
          (availableWorld.objects o.manifest.key).stored := by
      rw [hstored]
      simp [availableObject, Held.apply, ManagedFields.apply_apply]
    refine ⟨by simp [AnswersCluster], .inl ⟨_, .inl ⟨hsame.symm, rfl⟩, ?_⟩, by simp⟩
    simp [Watched.setObject]
  | @delete k r hk =>
    obtain rfl : r = .error .notFound := he
    have hnot : k ∉ clusterKeys false "default" "cube" := notMem_clusterKeys hk
    refine ⟨by simp [AnswersCluster], .inr ⟨by simp, rfl⟩, ?_⟩
    rintro k' err hk' - -
    cases hk'
    exact ⟨by rw [(settled_available.objects k).stored, available_of_notMem hnot], rfl⟩
  | @get k r hk =>
    have hr : r = availableAnswers (.get k) := he
    refine ⟨by simp [AnswersCluster], rfl, fun hkind => ?_⟩
    by_cases hmem : k ∈ clusterKeys false "default" "cube"
    · rw [availableAnswers, if_pos (.inr hmem)] at hr
      subst hr
      refine ⟨fun l hl => ?_, by simp⟩
      obtain rfl := Except.ok.inj hl
      rw [← keys_available] at hmem
      obtain ⟨o, ho, rfl⟩ := List.mem_map.mp hmem
      exact ⟨availableObject o, available_of_mem ho, rfl⟩
    · exact ⟨fun l hl => by simp [hr, availableAnswers, hkind, hmem] at hl,
        fun _ _ _ => available_of_notMem hmem⟩
  | httpGet a => exact ⟨by simp [AnswersCluster], rfl⟩
  | getCluster r =>
    obtain rfl : r = .ok availableCluster := he
    refine ⟨?_, rfl, ?_, by simp⟩
    · rintro ns name c h
      cases h
      exact ⟨rfl, rfl⟩
    · rintro c h
      cases h
      rfl
  | now t => exact ⟨by simp [AnswersCluster], rfl⟩
  | patchStatus base modified r =>
    -- a patch that would change the status is not granted
    have hr : r = availableAnswers (.act (.patchStatus "default" "cube" base modified)) := he
    refine ⟨by simp [AnswersCluster], ?_, by simp⟩
    by_cases hsame : patchedStatus base modified availableCluster.status = availableCluster.status
    · refine .inl ⟨availableCluster, rfl, _, .inl ⟨?_, rfl⟩, rfl⟩
      rw [hsame]
      rfl
    · refine .inr ⟨?_, rfl⟩
      simp [hr, availableAnswers, hsame]

/-- A pass over that world, after it has read its CubeCluster. -/
def availableRun : Go.Outcome × List Exchange × Unit :=
  (Go.reconcileCluster digitQuantities availableCluster).runOn
    (fun _ call => (availableAnswers call, ())) ()

def availablePass : List Exchange :=
  .readCluster "default" "cube" (.ok availableCluster) :: availableRun.2.1

theorem exec_availableRun : Exec (Go.reconcileCluster digitQuantities availableCluster)
    availableRun.2.1 (.returned {} none) := Program.exec_runOn ..

theorem exec_available : Exec (Go.reconcile digitQuantities "default" "cube") availablePass
    (.returned {} none) := Go.reconcile_of_found "default" "cube" exec_availableRun

theorem answers_available : ∀ e ∈ availablePass, e.2 = availableAnswers e.1 := by
  refine List.forall_mem_cons.mpr ⟨rfl, ?_⟩
  exact Replay.forall_of_step (H := fun _ e _ => e.2 = availableAnswers e.1) (fun _ _ _ h => h)
    (Program.runOn_run (fun _ _ => rfl) _ ()).2

theorem serves_availablePass : ∀ e ∈ availablePass, availableWorld.Serves e availableWorld := by
  have hanswers : ∀ e ∈ availablePass, AnswersCluster e := by
    rintro e he ns name c rfl
    have hr : Except.ok c = availableAnswers (.getCluster ns name) := answers_available _ he
    by_cases hkey : ns = "default" ∧ name = "cube"
    · obtain ⟨rfl, rfl⟩ := hkey
      obtain rfl : c = availableCluster := Except.ok.inj hr
      exact ⟨rfl, rfl⟩
    · simp [availableAnswers, hkey] at hr
  have hexec : Exec (Go.reconcileCluster digitQuantities availableCluster)
      (availableRun.2.1 ++ []) (.returned {} none) := by
    rw [List.append_nil]
    exact exec_availableRun
  have hmakes : ∀ e ∈ availableRun.2.1, Go.Makes digitQuantities availableCluster e :=
    Within.of_exec Go.within_reconcileCluster hexec (List.forall_mem_cons.mp hanswers).2
  refine fun e he => serves_available ?_ (answers_available e he)
  rcases List.mem_cons.mp he with rfl | he
  · exact .getCluster _
  · exact hmakes e he

theorem rest_desired_available : ∃ S,
    (managing digitQuantities "default" "cube").Reachable ⟨availableWorld, none, true, false⟩ S ∧
      S.Resting ∧ Desired digitQuantities S.world availableCluster := by
  have hreach := ControlLoop.reachable_of_pass
    (C := managing digitQuantities "default" "cube") (S := ⟨availableWorld, none, true, false⟩)
    rfl rfl exec_available (Replay.of_unchanged serves_availablePass)
  have hrest : (⟨availableWorld, none, false, false⟩ :
      ControlLoop.State Watched Call Answer Go.Outcome).Resting := ⟨rfl, rfl, rfl⟩
  exact ⟨_, hreach, hrest, rest_desired hreach ⟨rfl, by simp⟩ hrest settled_available rfl⟩

end CubeOperator
