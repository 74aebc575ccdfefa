import CubeOperator.Isolation.Footprints
import CubeOperator.Isolation.Labels
import CubeOperator.Status.Stored

/-! # Passes of different CubeClusters commute

    Two CubeClusters of different names in a namespace have no object in common, for
    no name is another one's with a suffix of a managed object.  So passes over them
    may run in either order, or call by call in any order, and leave what each
    leaves by itself. -/

namespace CubeOperator.Isolation

open Interaction Kube V1alpha1

/-! ## Places -/

/-- What the API server stores: objects, and CubeClusters with their status. -/
inductive Place where
  | object (k : Key)
  | cluster (ns name : String)
  deriving DecidableEq

/-- The places of a CubeCluster: itself and its managed objects. -/
def region (ns name : String) : Set Place :=
  {p | p = .cluster ns name ∨ ∃ k ∈ managedKeys ns name, p = .object k}

/-- The places an action writes. -/
def written (a : Action) : Set Place :=
  {p | (∃ k, Target a = some k ∧ p = .object k) ∨
    ∃ ns name base modified, a = .patchStatus ns name base modified ∧ p = .cluster ns name}

/-- The places of each call.  What an endpoint answers may depend on the objects behind
    it. -/
def footprint : Footprint Call Place where
  writes
    | .act a => written a
    | _ => ∅
  reads
    | .get k => {.object k}
    | .getCluster ns name => {.cluster ns name}
    | .httpGet url => {p | ∃ ns name, url = apiUrl ns name ∧ p ∈ region ns name}
    | _ => ∅

theorem mem_region_object {ns name : String} {k : Key} :
    .object k ∈ region ns name ↔ k ∈ managedKeys ns name := by
  simp [region]

theorem mem_region_cluster {ns name ns' name' : String} :
    .cluster ns' name' ∈ region ns name ↔ ns' = ns ∧ name' = name := by
  simp [region]

/-- CubeClusters of different names have separate places. -/
theorem region_disjoint {ns name name' : String} (hne : name ≠ name') :
    Disjoint (region ns name) (region ns name') := by
  rw [Set.disjoint_left]
  rintro p (rfl | ⟨k, hk, rfl⟩) hp
  · exact hne (mem_region_cluster.mp hp).2
  · exact managedKeys_disjoint hne hk (mem_region_object.mp hp)

theorem ns_of_mem_region {ns name : String} {p : Place} (h : p ∈ region ns name) :
    (∃ k, p = .object k ∧ k.ns = ns) ∨ p = .cluster ns name := by
  rcases h with rfl | ⟨k, hk, rfl⟩
  · exact .inr rfl
  · exact .inl ⟨k, rfl, (managedKeys_name hk).1⟩

/-- Behind the endpoint of a CubeCluster there is nothing of another one. -/
theorem endpoint_disjoint {ns name name' : String} (hne : name ≠ name') :
    Disjoint {p | ∃ ns' n, apiUrl ns name = apiUrl ns' n ∧ p ∈ region ns' n} (region ns name') := by
  rw [Set.disjoint_left]
  rintro p ⟨ns', n, hurl, hp⟩ hp'
  -- a place of both lies in one namespace, so that the addresses name one cluster
  have hns : ns' = ns := by
    rcases ns_of_mem_region hp with ⟨k, rfl, hk⟩ | rfl <;>
      rcases ns_of_mem_region hp' with ⟨k', hkk', hk'⟩ | hkk'
    · cases hkk'
      exact hk.symm.trans hk'
    · cases hkk'
    · cases hkk'
    · cases hkk'
      rfl
  subst hns
  have hname : name = n := by
    simpa [apiUrl] using hurl
  subst hname
  exact Set.disjoint_left.mp (region_disjoint hne) hp hp'

/-! ## What a pass stays away from -/

section confined

variable {ns name name' : String}

theorem written_subset {a : Action} {k : Key} (ha : Target a = some k)
    (hk : k ∈ managedKeys ns name) : written a ⊆ region ns name := by
  rintro p (⟨k', hk', rfl⟩ | ⟨ns', name'', base, modified, rfl, -⟩)
  · rw [ha, Option.some.injEq] at hk'
    subst hk'
    exact mem_region_object.mpr hk
  · cases ha

/-- What touches one CubeCluster stays away from another one. -/
theorem confined_of_touches {e : Exchange} (hne : name ≠ name') (h : Touches ns name e) :
    footprint.Confined (region ns name) (region ns name') e := by
  cases h with
  | write r ha hk => exact ⟨written_subset ha hk, Set.empty_disjoint _⟩
  | patchStatus base modified r =>
    refine ⟨?_, Set.empty_disjoint _⟩
    rintro p (⟨k, hk, -⟩ | ⟨ns', name'', base', modified', ha, rfl⟩)
    · cases hk
    · cases ha
      exact mem_region_cluster.mpr ⟨rfl, rfl⟩
  | discover kind r =>
    refine ⟨?_, Set.empty_disjoint _⟩
    rintro p (⟨k, hk, -⟩ | ⟨ns', name'', base', modified', ha, rfl⟩)
    · cases hk
    · cases ha
  | getCluster r =>
    refine ⟨Set.empty_subset _, Set.disjoint_singleton_left.mpr fun hmem => ?_⟩
    exact hne (mem_region_cluster.mp hmem).2
  | @get k r hk =>
    refine ⟨Set.empty_subset _, Set.disjoint_singleton_left.mpr fun hmem => ?_⟩
    have hforeign := mem_region_object.mp hmem
    rcases hk with hk | hk
    · exact managedKeys_disjoint hne hk hforeign
    · exact absurd (managedKeys_kind k hforeign) (by simp [hk])
  | httpGet a => exact ⟨Set.empty_subset _, endpoint_disjoint hne⟩
  | now t => exact ⟨Set.empty_subset _, Set.empty_disjoint _⟩

end confined

/-! ## Passes -/

/-- A pass as it is triggered: of the Go controller for a CubeCluster it is yet to read,
    or of the Kopf controller with what it is called with. -/
inductive Trigger where
  | go (ns name : String)
  | kopf (b : Kopf.Body)

namespace Trigger

def ns : Trigger → String
  | go ns _ => ns
  | kopf b => b.ns

def name : Trigger → String
  | go _ name => name
  | kopf b => b.name

/-- The pass.  What it returns decides about the next one, and carries the status that
    the Kopf framework stores. -/
def program (q : Quantities) : Trigger → Op (Go.Outcome ⊕ Kopf.Handled)
  | go ns name => Sum.inl <$> Go.reconcile q ns name
  | kopf b => Sum.inr <$> Kopf.reconcile q b

theorem within {q : Quantities} (t : Trigger) :
    Within (Touches t.ns t.name) (t.program q) := by
  cases t with
  | go ns name => exact Always.bind Go.within_reconcile fun _ => Always.ret _
  | kopf b => exact Always.bind (Within.of_only Kopf.touches_reconcile) fun _ => Always.ret _

theorem confined {q : Quantities} (t : Trigger) {ns name : String} (hns : t.ns = ns)
    (hne : t.name ≠ name) :
    footprint.ConfinedProgram AnswersCluster (region t.ns t.name) (region ns name)
      (t.program q) := by
  subst hns
  exact t.within.mono (fun _ _ _ => confined_of_touches hne) ()

end Trigger

/-- An API server, with whatever runs behind it: what a call does depends on and changes
    the places of the call, and a CubeCluster is answered to whom asked for it.  What a
    server shares between objects, such as a pool of node ports, is not part of it. -/
structure Server (V : Type) where
  serves : (Place → V) → Exchange → (Place → V) → Prop
  bounds : footprint.Bounds serves
  answersCluster : ∀ s e s', serves s e s' → AnswersCluster e

/-- The exchange creates, patches or deletes the object. -/
def WritesObject (k : Key) (e : Exchange) : Prop := ∃ a r, e = .did a r ∧ Target a = some k

/-- The exchange writes or reads the object. -/
def UsesObject (k : Key) (e : Exchange) : Prop := WritesObject k e ∨ ∃ r, e = .got k r

section commute

variable {ns name name' : String} {k : Key} {e : Exchange}

theorem mem_managedKeys_of_writes (h : Touches ns name e) (hk : WritesObject k e) :
    k ∈ managedKeys ns name := by
  obtain ⟨a, r, rfl, ha⟩ := hk
  cases h with
  | write r ha' hk' =>
    rw [ha, Option.some.injEq] at ha'
    exact ha' ▸ hk'
  | patchStatus base modified r => cases ha
  | discover kind r => cases ha

theorem not_usesObject (hne : name ≠ name') (h : Touches ns name e)
    (hk : k ∈ managedKeys ns name') : ¬UsesObject k e := by
  rintro (hwrites | ⟨r, rfl⟩)
  · exact managedKeys_disjoint hne (mem_managedKeys_of_writes h hwrites) hk
  · cases h with
    | get r hk' =>
      rcases hk' with hk' | hk'
      · exact managedKeys_disjoint hne hk' hk
      · exact absurd (managedKeys_kind k hk) (by simp [hk'])

/-- The passes `p₁` and `p₂`, each run by itself from `s`, return `a` and `b`, and `s'` has
    the objects and the status that each of them leaves. -/
def Separately (q : Quantities) {V : Type} (server : Server V) (p₁ p₂ : Trigger)
    (s : Place → V) (a b : Go.Outcome ⊕ Kopf.Handled) (s' : Place → V) : Prop :=
  ∃ s₁ s₂, Footprint.Runs server.serves (p₁.program q) s a s₁ ∧
    Footprint.Runs server.serves (p₂.program q) s b s₂ ∧
    Footprint.Combines (region p₁.ns p₁.name) (region p₂.ns p₂.name) s s₁ s₂ s'

/-- Passes over CubeClusters of different names in a namespace, of either controller each,
    have no object in common, and they commute. -/
theorem passes_commute (q : Quantities) (p₁ p₂ : Trigger) (hns : p₁.ns = p₂.ns)
    (hne : p₁.name ≠ p₂.name) :
    (∀ tr₁ tr₂ a b, Exec (p₁.program q) tr₁ a → Exec (p₂.program q) tr₂ b →
      (∀ e ∈ tr₁, AnswersCluster e) → (∀ e ∈ tr₂, AnswersCluster e) →
      ∀ k, (∃ e ∈ tr₁, WritesObject k e) → ∀ e ∈ tr₂, ¬UsesObject k e) ∧
    (∀ (V : Type) (server : Server V) (s s' : Place → V) (a b : Go.Outcome ⊕ Kopf.Handled),
      ((∃ tr, Interleaved (p₁.program q) (p₂.program q) tr a b ∧ Replay server.serves s tr s') ↔
        Separately q server p₁ p₂ s a b s') ∧
      ((∃ s₀, Footprint.Runs server.serves (p₁.program q) s a s₀ ∧
          Footprint.Runs server.serves (p₂.program q) s₀ b s') ↔
        Separately q server p₁ p₂ s a b s') ∧
      ((∃ s₀, Footprint.Runs server.serves (p₂.program q) s b s₀ ∧
          Footprint.Runs server.serves (p₁.program q) s₀ a s') ↔
        Separately q server p₁ p₂ s a b s')) := by
  have hconfined₁ := p₁.confined (q := q) hns hne
  have hconfined₂ := p₂.confined (q := q) hns.symm hne.symm
  have hdisj : Disjoint (region p₁.ns p₁.name) (region p₂.ns p₂.name) :=
    hns ▸ region_disjoint hne
  constructor
  · rintro tr₁ tr₂ a b hexec₁ hexec₂ hanswers₁ hanswers₂ k ⟨e₁, he₁, hwrites⟩ e₂ he₂
    rw [← List.append_nil tr₁] at hexec₁
    rw [← List.append_nil tr₂] at hexec₂
    have htouches₁ := p₁.within.of_exec hexec₁ hanswers₁ e₁ he₁
    have htouches₂ := p₂.within.of_exec hexec₂ hanswers₂ e₂ he₂
    have hmanaged := mem_managedKeys_of_writes htouches₁ hwrites
    exact not_usesObject hne.symm htouches₂ (hns ▸ hmanaged)
  · intro V server s s' a b
    refine ⟨?_, ?_, ?_⟩
    · exact server.bounds.interleaved server.answersCluster hdisj hconfined₁ hconfined₂
    · exact server.bounds.sequence server.answersCluster hdisj hconfined₁ hconfined₂
    · rw [server.bounds.sequence server.answersCluster hdisj.symm hconfined₂ hconfined₁]
      constructor
      · rintro ⟨s₂, s₁, h₂, h₁, hcombines⟩
        exact ⟨s₁, s₂, h₁, h₂, hcombines.swap⟩
      · rintro ⟨s₁, s₂, h₁, h₂, hcombines⟩
        exact ⟨s₂, s₁, h₂, h₁, hcombines.swap⟩

end commute

/-! ### A server -/

/-- What is stored at a place. -/
inductive Content where
  | absent
  | object (d : Manifest)
  | cluster (c : CubeCluster)

namespace Content

def readCluster (ns name : String) : Content → Except ApiError CubeCluster
  | cluster c => if c.ns = ns ∧ c.name = name then .ok c else .error .notFound
  | _ => .error .notFound

def readObject : Content → Except ApiError Live
  | object _ => .ok { readyReplicas := some 2 }
  | _ => .error .notFound

def patchStatus (base modified : CubeClusterStatus) : Content → Content
  | cluster c => cluster { c with status := patchedStatus base modified c.status }
  | stored => stored

end Content

/-- The place of a call, its answer there and what it leaves there, on a server that
    grants every write and whose workloads are all ready. -/
def grant : (c : Call) → Option Place × (Content → Answer c × Content)
  | .act (.apply d) | .act (.create d) | .act (.patch d) =>
    (some (.object d.key), fun _ => (.ok (), .object d))
  | .act (.delete k) => (some (.object k), fun _ => (.ok (), .absent))
  | .act (.patchStatus ns name base modified) =>
    (some (.cluster ns name), fun v => (.ok (), v.patchStatus base modified))
  | .act (.discover _) => (none, fun v => (.ok (), v))
  | .getCluster ns name => (some (.cluster ns name), fun v => (v.readCluster ns name, v))
  | .get k =>
    (some (.object k), fun v => (if k.kind.isReference then .ok {} else v.readObject, v))
  | .httpGet url => (none, fun v => (.status 200 "OK" url, v))
  | .now => (none, fun v => (0, v))

/-- The server that grants everything. -/
def grants (s : Place → Content) (c : Call) : Answer c × (Place → Content) :=
  match (grant c).1 with
  | none => (((grant c).2 .absent).1, s)
  | some p => (((grant c).2 (s p)).1, Function.update s p ((grant c).2 (s p)).2)

theorem mem_of_place {c : Call} {p : Place} (h : (grant c).1 = some p) :
    p ∈ footprint.reads c ∪ footprint.writes c := by
  cases c with
  | act a =>
    cases a with
    | discover kind => cases h
    | patchStatus ns name base modified =>
      cases h
      exact .inr (.inr ⟨ns, name, base, modified, rfl, rfl⟩)
    | _ =>
      cases h
      exact .inr (.inl ⟨_, rfl, rfl⟩)
  | getCluster ns name =>
    cases h
    exact .inl rfl
  | get k =>
    cases h
    exact .inl rfl
  | _ => cases h

/-- A call leaves a place that it only reads as it is. -/
theorem grant_unchanged {c : Call} {p : Place} (h : (grant c).1 = some p)
    (hp : p ∉ footprint.writes c) (v : Content) : ((grant c).2 v).2 = v := by
  cases c with
  | act a =>
    cases a with
    | discover kind => rfl
    | patchStatus ns name base modified =>
      cases h
      exact absurd (.inr ⟨ns, name, base, modified, rfl, rfl⟩) hp
    | _ =>
      cases h
      exact absurd (.inl ⟨_, rfl, rfl⟩) hp
  | _ => rfl

theorem grants_frame (s : Place → Content) (c : Call) :
    Set.EqOn (grants s c).2 s (footprint.writes c)ᶜ := by
  intro x hx
  unfold grants
  cases hp : (grant c).1 with
  | none => rfl
  | some p =>
    by_cases hxp : x = p
    · subst hxp
      simp only [Function.update_self]
      exact grant_unchanged hp hx _
    · simp only [Function.update_of_ne hxp]

theorem grants_depends {s t t' : Place → Content} {c : Call}
    (hst : Set.EqOn t s (footprint.reads c ∪ footprint.writes c))
    (hwrites : Set.EqOn t' (grants s c).2 (footprint.writes c))
    (hothers : Set.EqOn t' t (footprint.writes c)ᶜ) :
    (grants s c).1 = (grants t c).1 ∧ t' = (grants t c).2 := by
  have hsame : (grants s c).1 = (grants t c).1 ∧
      Set.EqOn (grants s c).2 (grants t c).2 (footprint.writes c) := by
    unfold grants
    cases hp : (grant c).1 with
    | none => exact ⟨rfl, fun x hx => (hst (.inr hx)).symm⟩
    | some p =>
      have hplace : t p = s p := hst (mem_of_place hp)
      dsimp only
      rw [hplace]
      refine ⟨rfl, fun x hx => ?_⟩
      by_cases hxp : x = p
      · simp [hxp]
      · simp only [Function.update_of_ne hxp]
        exact (hst (.inr hx)).symm
  refine ⟨hsame.1, ?_⟩
  funext x
  by_cases hx : x ∈ footprint.writes c
  · exact (hwrites hx).trans (hsame.2 hx)
  · exact (hothers hx).trans (grants_frame t c hx).symm

def grantingServer : Server Content where
  serves s e s' := e.2 = (grants s e.1).1 ∧ s' = (grants s e.1).2
  bounds := {
    frame := by
      rintro s ⟨c, r⟩ _ ⟨-, rfl⟩
      exact grants_frame s c
    depends := by
      rintro s ⟨c, r⟩ _ t t' ⟨hr, rfl⟩ hst hwrites hothers
      obtain ⟨hanswer, ht'⟩ := grants_depends hst hwrites hothers
      exact ⟨hr.trans hanswer, ht'⟩ }
  answersCluster := by
    rintro s e s' ⟨hr, -⟩ ns name c rfl
    change Except.ok c = Content.readCluster ns name (s (.cluster ns name)) at hr
    unfold Content.readCluster at hr
    split at hr
    · split at hr
      · cases hr
        assumption
      · cases hr
    · cases hr

/-- A pass against the granting server. -/
theorem exists_runs (q : Quantities) (t : Trigger) (s : Place → Content) :
    ∃ a s', Footprint.Runs grantingServer.serves (t.program q) s a s' := by
  have hserves : ∀ s c, grantingServer.serves s ⟨c, (grants s c).1⟩ (grants s c).2 :=
    fun _ _ => ⟨rfl, rfl⟩
  obtain ⟨hexec, hreplay⟩ := Program.runOn_run hserves (t.program q) s
  exact ⟨_, _, _, hexec, hreplay⟩

/-- What is stored at the beginning: the two CubeClusters, and no object. -/
def twoClusters : Place → Content
  | .cluster ns name =>
    if ns = "default" ∧ name = "cube" then .cluster Go.smallCluster
    else if ns = "default" ∧ name = "cube-cubestore" then .cluster storeNamed
    else .absent
  | .object _ => .absent

/-- Passes over two CubeClusters leave the same in either order. -/
theorem passes_commute_storeNamed : ∃ a b s',
    (∃ s₀, Footprint.Runs grantingServer.serves
        ((Trigger.go "default" "cube").program digitQuantities) twoClusters a s₀ ∧
      Footprint.Runs grantingServer.serves
        ((Trigger.go "default" "cube-cubestore").program digitQuantities) s₀ b s') ∧
    (∃ s₀, Footprint.Runs grantingServer.serves
        ((Trigger.go "default" "cube-cubestore").program digitQuantities) twoClusters b s₀ ∧
      Footprint.Runs grantingServer.serves
        ((Trigger.go "default" "cube").program digitQuantities) s₀ a s') := by
  obtain ⟨a, s₀, hfirst⟩ := exists_runs digitQuantities (.go "default" "cube") twoClusters
  obtain ⟨b, s', hsecond⟩ := exists_runs digitQuantities (.go "default" "cube-cubestore") s₀
  obtain ⟨-, hsequence, hswapped⟩ := (passes_commute digitQuantities (.go "default" "cube")
    (.go "default" "cube-cubestore") rfl (by decide)).2 Content grantingServer twoClusters s' a b
  exact ⟨a, b, s', ⟨s₀, hfirst, hsecond⟩, hswapped.mpr (hsequence.mp ⟨s₀, hfirst, hsecond⟩)⟩

end CubeOperator.Isolation
