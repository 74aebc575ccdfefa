import CubeOperator.Lib.Session
import CubeOperator.Topology.Passes
import CubeOperator.Go.Readiness

/-! # Store topologies over whole runs

    A run is a sequence of passes of either controller over one CubeCluster, each
    under a spec of its own and each possibly cut short.  Once a store topology is
    complete some topology always is, the objects of Cube are never deleted, and a
    pass in which no call fails leaves exactly the objects of its spec. -/

namespace CubeOperator

open Interaction Kube V1alpha1

/-! ## Passes and runs -/

/-- A pass over the CubeCluster: of the Go controller, once it has read `c`, or of the
    Kopf controller, called with `b`. -/
inductive Pass where
  | go (c : CubeCluster)
  | kopf (b : Kopf.Body)

namespace Pass

/-- The namespace and the name of the CubeCluster. -/
def cluster : Pass → String × String
  | go c => (c.ns, c.name)
  | kopf b => (b.ns, b.name)

/-- The spec of the pass asks for a clustered store. -/
def isClustered : Pass → Bool
  | go c => Go.isClustered c
  | kopf b => Kopf.isClustered b.spec

/-- The spec of the pass is valid. -/
def IsValid (q : Quantities) : Pass → Prop
  | go c => Go.Valid q c
  | kopf b => Kopf.Valid q b.spec

/-- The program of the pass; what it returns does not matter here. -/
def program (q : Quantities) : Pass → Op Unit
  | go c => Go.reconcileCluster q c >>= fun _ => pure ()
  | kopf b => Kopf.reconcile q b >>= fun _ => pure ()

end Pass

/-- Passes over the CubeCluster `name` in `ns`, one at a time. -/
def reconcilingObjects (q : Quantities) (ns name : String) :
    Environment Unit Pass (Set Key) Call Answer Unit where
  program := Pass.program q
  begins _ _ p := p.cluster = (ns, name)
  serves := ServesObjects
  drifts _ _ := False

variable {q : Quantities} {ns name : String}

/-- What a pass under a valid spec leaves when no call fails. -/
def Leaves (q : Quantities) (ns name : String) (p : Pass) (_ : Unit)
    (st : Set Key × List Exchange) : Prop :=
  p.IsValid q → Done ns name p.isClustered st

theorem part_program {p : Pass} (hp : p.cluster = (ns, name)) (s : Set Key) :
    Part ns name (Leaves q ns name p) (p.program q) (s, []) := by
  cases p with
  | go c =>
    obtain ⟨rfl, rfl⟩ : c.ns = ns ∧ c.name = name := by simpa [Pass.cluster] using hp
    exact Ensures.seq (Go.part_reconcileCluster s) fun _ _ h => h
  | kopf b =>
    obtain ⟨rfl, rfl⟩ : b.ns = ns ∧ b.name = name := by simpa [Pass.cluster] using hp
    exact Ensures.seq (Kopf.part_reconcile s) fun _ _ h => h

/-! ## Runs -/

section runs

variable {S S' : System Unit Pass (Set Key) Call Answer Unit} {s₀ : Set Key}

/-- What is left of each pass, wherever a run has come to. -/
theorem part_thread (h : (reconcilingObjects q ns name).Reachable (Environment.idle s₀) S) :
    ∀ i run, S.thread i = some run →
      Part ns name (Leaves q ns name run.job) run.rest (S.state, run.log) :=
  (Environment.Reachable.sequential (I := fun _ => True)
    (G := fun st e st' => Keeps ns name st.1 e st'.1)
    (Q := Leaves q ns name) (fun _ s _ hp _ => part_program hp s) (fun _ _ _ _ _ _ => trivial)
    (fun _ _ => id) h
    trivial).2

/-- Each call of a run keeps the topologies. -/
theorem keeps_exchange (h : (reconcilingObjects q ns name).Reachable (Environment.idle s₀) S)
    {e : Exchange} (he : (reconcilingObjects q ns name).Exchanges () e S S') :
    Keeps ns name S.state e S'.state := by
  obtain ⟨run, -, hkeeps⟩ := Environment.guarantees_of_ensures
    (G := fun st e st' => Keeps ns name st.1 e st'.1)
    (Q := Leaves q ns name) (part_thread h) he
  exact hkeeps

/-- A complete topology stays, or another one is complete. -/
theorem complete_step (h : (reconcilingObjects q ns name).Reachable (Environment.idle s₀) S)
    (hstep : (reconcilingObjects q ns name).Step S S') (hS : Complete ns name S.state) :
    Complete ns name S'.state := by
  cases hstep with
  | begin i p _ _ => exact hS
  | exchange i e he => exact (keeps_exchange h he).complete hS
  | stop i => exact hS
  | drift hd => exact hd.elim

theorem complete_run (h : (reconcilingObjects q ns name).Reachable (Environment.idle s₀) S)
    (hrun : (reconcilingObjects q ns name).Reachable S S') (hS : Complete ns name S.state) :
    Complete ns name S'.state := by
  induction hrun with
  | refl => exact hS
  | tail hbefore hstep ih => exact complete_step (h.trans hbefore) hstep ih

/-- The store topology over whole runs, whatever exists at their beginning. -/
theorem topology_over_runs
    (h : (reconcilingObjects q ns name).Reachable (Environment.idle s₀) S) :
    (Complete ns name S.state → ∀ S',
      (reconcilingObjects q ns name).Reachable S S' → Complete ns name S'.state) ∧
    (∀ k r S', (reconcilingObjects q ns name).Exchanges () (Exchange.did (.delete k) r) S S' →
      k ∉ coreKeys ns name) ∧
    (∀ run, S.thread () = some run → run.Finished () → Clean run.log → run.job.IsValid q →
      ∀ k ∈ managedKeys ns name,
        k ∈ S.state ↔ k ∈ clusterKeys run.job.isClustered ns name) := by
  refine ⟨fun hS S' hrun => complete_run h hrun hS, fun k r S' he => ?_, ?_⟩
  · exact (keeps_exchange h he).core k r rfl
  · intro run hthread hfinished hclean hvalid
    have hrest := part_thread h () run hthread
    rw [hfinished] at hrest
    exact hrest hvalid hclean

end runs

/-! ### A first pass -/

/-- A server that keeps the list of objects and grants everything. -/
def grantObjects (s : List Key) : (c : Call) → Answer c × List Key
  | .act (.apply d) => (.ok (), d.key :: s)
  | .act (.create d) =>
    if d.key ∈ s then (.error .alreadyExists, s)
    else (.ok (), d.key :: s)
  | .act (.patch d) =>
    if d.key ∈ s then (.ok (), s) else (.error .notFound, s)
  | .act (.delete k) => (.ok (), s.filter (· ≠ k))
  | .act _ => (.ok (), s)
  | .getCluster _ _ => (.ok Go.smallCluster, s)
  | .get k =>
    if k.kind.isReference || k ∈ s then (.ok { readyReplicas := some 2 }, s)
    else (.error .notFound, s)
  | .httpGet url => (.status 200 "OK" url, s)
  | .now => (0, s)

theorem serves_grantObjects (s : List Key) (c : Call) :
    ServesObjects {k | k ∈ s} ⟨c, (grantObjects s c).1⟩ {k | k ∈ (grantObjects s c).2} := by
  cases c with
  | act a =>
    cases a with
    | apply d => exact .inl (by ext; simp [grantObjects])
    | create d =>
      by_cases h : d.key ∈ s
      · exact .inr (by simp [grantObjects, h])
      · exact .inl ⟨by ext; simp [grantObjects, h], fun _ => h⟩
    | patch d => by_cases h : d.key ∈ s <;> simp [grantObjects, ServesObjects, h]
    | delete k => exact ⟨.inl (by ext; simp [grantObjects]), fun _ h => by cases h⟩
    | _ => rfl
  | get k =>
    by_cases h : k ∈ s
    · simp [grantObjects, ServesObjects, h]
    · cases hk : k.kind.isReference <;> simp [grantObjects, ServesObjects, h, hk]
  | _ => rfl

/-- The first pass over `smallCluster`: what it returns, its calls and the objects. -/
def firstPass : Unit × List Exchange × List Key :=
  ((Pass.go Go.smallCluster).program digitQuantities).runOn grantObjects []

theorem firstPass_clean : Clean firstPass.2.1 := by
  have hgranted : firstPass.2.1.all (fun e => e.error?.isNone) = true := rfl
  intro e he herror
  have hnone := List.all_eq_true.mp hgranted e he
  exact absurd (Option.isNone_iff_eq_none.mp hnone) herror

/-- The first pass in the system. -/
theorem exists_firstPass : ∃ (S : System Unit Pass (Set Key) Call Answer Unit)
    (run : Running Pass Call Answer Unit),
    (reconcilingObjects digitQuantities "default" "cube").Reachable (Environment.idle ∅) S ∧
      S.thread () = some run ∧ run.Finished () ∧ run.job = .go Go.smallCluster ∧
      run.log = firstPass.2.1 ∧ S.state = {k | k ∈ firstPass.2.2} := by
  obtain ⟨hexec, hreplay⟩ := Program.runOn_run
    (H := fun s e s' => ServesObjects {k | k ∈ s} e {k | k ∈ s'}) serves_grantObjects
    ((Pass.go Go.smallCluster).program digitQuantities) []
  have hserved := hreplay.map (K := (reconcilingObjects digitQuantities "default" "cube").ServesLater)
    (fun s => {k | k ∈ s}) fun s e s' h => ⟨_, .inl rfl, h⟩
  obtain ⟨S, run, hreach, hthread, hjob, hlog, hfinished, hstate⟩ :=
    Environment.exists_finished () (.go Go.smallCluster)
      (S := Environment.idle {k | k ∈ ([] : List Key)}) rfl rfl hexec hserved
  have hempty : {k | k ∈ ([] : List Key)} = (∅ : Set Key) := by simp
  rw [hempty] at hreach
  exact ⟨S, run, hreach, hthread, hfinished, hjob, hlog, hstate⟩

/-- After the first pass exactly the objects of a single store exist. -/
theorem topology_over_runs_firstPass : ∃ S : System Unit Pass (Set Key) Call Answer Unit,
    Complete "default" "cube" S.state ∧
    (∀ S', (reconcilingObjects digitQuantities "default" "cube").Reachable S S' →
      Complete "default" "cube" S'.state) ∧
    (∀ k ∈ managedKeys "default" "cube", k ∈ S.state ↔ k ∈ clusterKeys false "default" "cube") := by
  obtain ⟨S, run, hreach, hthread, hfinished, hjob, hlog, hstate⟩ := exists_firstPass
  obtain ⟨hcomplete, -, hexact⟩ := topology_over_runs hreach
  have hobjects := hexact run hthread hfinished (hlog ▸ firstPass_clean)
    (hjob ▸ Go.valid_smallCluster)
  rw [hjob] at hobjects
  have hnow : Complete "default" "cube" S.state := by
    refine ⟨false, fun k hk => (hobjects k ?_).mpr (List.mem_append_right _ hk)⟩
    exact mem_managedKeys.mpr (.inl (List.mem_append_right _ hk))
  exact ⟨S, hnow, hcomplete hnow, hobjects⟩

end CubeOperator
