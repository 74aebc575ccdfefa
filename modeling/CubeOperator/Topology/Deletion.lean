import CubeOperator.Isolation.Footprints
import CubeOperator.Status.Stored
import CubeOperator.Topology.Runs

/-! # A CubeCluster that is being deleted

    In a foreground deletion the CubeCluster stays readable while the garbage
    collector deletes its objects one by one, and each deletion brings the Go
    controller back.  `Reconcile` does not look at the deletion timestamp: a pass
    applies all objects of the spec, also those the collector has already deleted. -/

namespace CubeOperator

open Interaction Kube V1alpha1

/-! ## The controller and the collector -/

/-- A CubeCluster with a deletion timestamp, and those of its objects that exist. -/
structure Deleting where
  cluster : CubeCluster
  existing : Set Key

namespace Deleting

/-- A call of the controller. -/
def Serves (s : Deleting) (e : Exchange) (s' : Deleting) : Prop :=
  AnswersCluster e ∧ ServesCluster s.cluster e s'.cluster ∧
    ServesObjects s.existing e s'.existing

/-- The garbage collector deletes one of the objects. -/
def Collects (ns name : String) (s s' : Deleting) : Prop :=
  ∃ k ∈ managedKeys ns name, s' = { s with existing := s.existing \ {k} }

end Deleting

/-- The deletion of the CubeCluster `name` in `ns`.  A pass may begin whenever none is
    under way, in particular after each step of the collector. -/
def deleting (q : Quantities) (ns name : String) :
    Environment Unit Unit Deleting Call Answer Go.Outcome where
  program _ := Go.reconcile q ns name
  begins _ _ _ := True
  serves := Deleting.Serves
  drifts := Deleting.Collects ns name

/-! ## What makes the objects more -/

section steps

variable {q : Quantities} {ns name : String}
  {S S' : System Unit Unit Deleting Call Answer Go.Outcome} {s₀ : Deleting}

/-- The Go controller applies and never creates. -/
def CreatesNothing (e : Exchange) : Prop := ∀ d r, e ≠ .did (.create d) r

theorem within_createsNothing : Within CreatesNothing (Go.reconcile q ns name) := by
  intro _ r _ hanswers
  have hread : CreatesNothing (.readCluster ns name r) := by
    intro d r' h
    cases h
  refine ⟨hread, ?_⟩
  cases r with
  | error err => trivial
  | ok c =>
    refine Always.mono ?_ (Go.within_reconcileCluster (q := q) (c := c)) ()
    rintro _ e _ hmakes d r rfl
    cases hmakes

/-- A step of the deletion in which whatever is applied exists before. -/
def CollectingStep (q : Quantities) (ns name : String)
    (S S' : System Unit Unit Deleting Call Answer Go.Outcome) : Prop :=
  (deleting q ns name).Step S S' ∧ ∀ d r,
    (deleting q ns name).Exchanges () (Exchange.did (.apply d) r) S S' → d.key ∈ S.state.existing

/-- Only an apply can make a call that creates nothing add an object, and only its own. -/
theorem existing_of_serves {s s' : Set Key} {e : Exchange} (h : ServesObjects s e s')
    (hcreate : CreatesNothing e) (happly : ∀ d r, e = .did (.apply d) r → d.key ∈ s) : s' ⊆ s := by
  by_cases hwrite : IsWrite e = false
  · rw [servesObjects_unchanged h hwrite]
  obtain ⟨c, r⟩ := e
  cases c with
  | act a =>
    cases a with
    | apply d =>
      rcases h with h | ⟨-, h⟩
      · rw [h, Set.insert_eq_of_mem (happly d r rfl)]
      · rw [h]
    | create d => exact absurd rfl (hcreate d r)
    | delete k => exact (servesObjects_delete h).2.1
    | _ => exact absurd rfl hwrite
  | _ => exact absurd rfl hwrite

theorem existing_step (h : (deleting q ns name).Reachable (Environment.idle s₀) S)
    (hstep : CollectingStep q ns name S S') : S'.state.existing ⊆ S.state.existing := by
  obtain ⟨hstep, happlies⟩ := hstep
  cases hstep with
  | begin i job _ _ => exact subset_rfl
  | exchange i e he =>
    have hcreate : CreatesNothing e := by
      refine h.always (A := AnswersCluster) ?_ ?_ he
      · exact fun _ _ _ hserves => hserves.1
      · exact fun _ _ _ _ => within_createsNothing
    have happly : ∀ d r, e = Exchange.did (.apply d) r → d.key ∈ S.state.existing := by
      rintro d r rfl
      exact happlies d r he
    obtain ⟨_, _, -, -, ⟨-, -, hobjects⟩, -⟩ := he
    exact existing_of_serves hobjects hcreate happly
  | stop i => exact subset_rfl
  | drift hdrift =>
    obtain ⟨k, -, rfl⟩ := hdrift
    exact Set.sdiff_subset

/-- In a run whose applies all find their objects in place, what the collector has
    deleted stays deleted.  An apply that finds none creates it. -/
theorem collected_stays_deleted
    (h : (deleting q ns name).Reachable (Environment.idle s₀) S) :
    (∀ S', Relation.ReflTransGen (CollectingStep q ns name) S S' →
      S'.state.existing ⊆ S.state.existing) ∧
    (∀ d S', (deleting q ns name).Exchanges () (Exchange.did (.apply d) (.ok ())) S S' →
      (S'.state.existing ⊆ S.state.existing ↔ d.key ∈ S.state.existing)) := by
  constructor
  · intro S' hrun
    -- every prefix of the run is reachable, so that the step lemma applies along it
    suffices hboth : (deleting q ns name).Reachable (Environment.idle s₀) S' ∧
        S'.state.existing ⊆ S.state.existing from hboth.2
    induction hrun with
    | refl => exact ⟨h, subset_rfl⟩
    | tail _ hlast ih =>
      obtain ⟨hreach, hsub⟩ := ih
      exact ⟨hreach.tail hlast.1, (existing_step hreach hlast).trans hsub⟩
  · intro d S' hexchange
    obtain ⟨_, _, -, -, ⟨-, -, hobjects⟩, -⟩ := hexchange
    obtain ⟨hsub, hmem⟩ := servesObjects_apply hobjects
    constructor
    · intro hshrinks
      exact hshrinks (hmem rfl)
    · intro hd
      refine existing_of_serves hobjects (fun _ _ h => by cases h) ?_
      rintro d' r h
      cases h
      exact hd

end steps

/-! ### An object that comes back -/

/-- A server for the CubeCluster and the list of its objects that grants everything. -/
def grantDeleting (s : CubeCluster × List Key) :
    (c : Call) → Answer c × (CubeCluster × List Key)
  | .getCluster ns name =>
    if s.1.ns = ns ∧ s.1.name = name then (.ok s.1, s) else (.error .notFound, s)
  | .act (.patchStatus _ _ base modified) =>
    (.ok (), { s.1 with status := patchedStatus base modified s.1.status }, s.2)
  | c => ((grantObjects s.2 c).1, s.1, (grantObjects s.2 c).2)

/-- What such a server stands for. -/
def Deleting.of (s : CubeCluster × List Key) : Deleting := ⟨s.1, {k | k ∈ s.2}⟩

theorem serves_grantDeleting (s : CubeCluster × List Key) (c : Call) :
    Deleting.Serves (.of s) ⟨c, (grantDeleting s c).1⟩ (.of (grantDeleting s c).2) := by
  have hobjects := serves_grantObjects s.2 c
  refine ⟨?_, ?_, ?_⟩
  · intro ns name c' hread
    obtain ⟨rfl, hanswer⟩ := Sigma.mk.inj_iff.mp hread
    have hok : (grantDeleting s (.getCluster ns name)).1 = .ok c' := eq_of_heq hanswer
    by_cases h : s.1.ns = ns ∧ s.1.name = name
    · simp only [grantDeleting, if_pos h] at hok
      cases hok
      exact h
    · simp only [grantDeleting, if_neg h] at hok
      cases hok
  · cases c with
    | getCluster ns name =>
      by_cases h : s.1.ns = ns ∧ s.1.name = name
      · simp only [grantDeleting, if_pos h]
        exact ⟨rfl, rfl⟩
      · simp only [grantDeleting, if_neg h]
        rfl
    | act a =>
      cases a with
      | patchStatus ns name base modified => exact .inl rfl
      | _ => rfl
    | _ => rfl
  · cases c with
    | getCluster ns name =>
      by_cases h : s.1.ns = ns ∧ s.1.name = name
      · simp only [grantDeleting, if_pos h]
        rfl
      · simp only [grantDeleting, if_neg h]
        rfl
    | act a =>
      cases a with
      | patchStatus ns name base modified => rfl
      | _ => exact hobjects
    | _ => exact hobjects

/-- The Deployment of the API of the CubeCluster `cube`. -/
def apiKey : Key := ⟨.deployment, "default", "cube-api"⟩

/-- All objects of `smallCluster` exist, but for those in `gone`. -/
def without (gone : List Key) : CubeCluster × List Key :=
  (Go.smallCluster, (clusterKeys false "default" "cube").filter (· ∉ gone))

/-- The pass that begins when the collector has deleted the API Deployment. -/
def passAfter : Go.Outcome × List Exchange × (CubeCluster × List Key) :=
  (Go.reconcile digitQuantities "default" "cube").runOn grantDeleting (without [apiKey])

theorem collect_apiKey :
    Deleting.Collects "default" "cube" (.of (without [])) (.of (without [apiKey])) := by
  refine ⟨apiKey, by decide, ?_⟩
  unfold Deleting.of without
  congr 1
  ext k
  simp

/-- The pass creates the Deployment again, although the CubeCluster is being deleted. -/
theorem collected_comes_back : ¬∀ (q : Quantities) (ns name : String) (s₀ : Deleting)
    (S S' : System Unit Unit Deleting Call Answer Go.Outcome),
    (deleting q ns name).Reachable (Environment.idle s₀) S →
    (deleting q ns name).Reachable S S' → S'.state.existing ⊆ S.state.existing := by
  intro h
  obtain ⟨hexec, hreplay⟩ := Program.runOn_run
    (H := fun s e s' => Deleting.Serves (.of s) e (.of s')) serves_grantDeleting
    (Go.reconcile digitQuantities "default" "cube") (without [apiKey])
  have hserved := hreplay.map (K := (deleting digitQuantities "default" "cube").ServesLater)
    Deleting.of fun s e s' h => ⟨_, .inl rfl, h⟩
  let S : System Unit Unit Deleting Call Answer Go.Outcome :=
    Environment.idle (.of (without [apiKey]))
  have hcollected : (deleting digitQuantities "default" "cube").Reachable
      (Environment.idle (.of (without []))) S := .single (.drift collect_apiKey)
  obtain ⟨S', -, hreach, -, -, -, -, hstate⟩ := Environment.exists_finished
    (E := deleting digitQuantities "default" "cube") () () (S := S) rfl trivial hexec hserved
  have hsub := h _ _ _ _ S S' hcollected hreach
  have hback : apiKey ∈ S'.state.existing := by
    rw [hstate]
    change apiKey ∈ passAfter.2.2.2
    decide
  have hgone : apiKey ∉ (without [apiKey]).2 := by decide
  exact hgone (hsub hback)

/-! ### A pass before the collector -/

/-- Only existing objects are applied. -/
def appliesExisting (s : CubeCluster × List Key) : Call → Bool
  | .act (.apply d) => d.key ∈ s.2
  | _ => true

theorem collectingStep_appliesExisting {q : Quantities} {ns name : String}
    {s : CubeCluster × List Key} {c : Call}
    {thread : Unit → Option (Running Unit Call Answer Go.Outcome)}
    {run run' : Running Unit Call Answer Go.Outcome} (hok : appliesExisting s c = true)
    (hthread : thread () = some run) (hmakes : run.Makes ⟨c, (grantDeleting s c).1⟩ run') :
    CollectingStep q ns name ⟨.of s, thread⟩
      ⟨.of (grantDeleting s c).2, Function.update thread () (some run')⟩ := by
  refine ⟨.exchange () _ ⟨run, run', hthread, hmakes, serves_grantDeleting s c, rfl⟩, ?_⟩
  rintro d r ⟨run₁, _, hthread₁, hmakes₁, -⟩
  -- the thread makes only one call
  obtain rfl : run = run₁ := Option.some.inj (hthread.symm.trans hthread₁)
  obtain ⟨job, next, log⟩ := hmakes
  cases hmakes₁
  have hmem : d.key ∈ s.2 := by simpa [appliesExisting] using hok
  exact hmem

/-- Without a call under way nothing is applied. -/
theorem collectingStep_of_not_exchange {q : Quantities} {ns name : String}
    {S S' : System Unit Unit Deleting Call Answer Go.Outcome}
    (hstep : (deleting q ns name).Step S S')
    (hnone : ∀ run c next, S.thread () = some run → run.rest ≠ .call c next) :
    CollectingStep q ns name S S' := by
  refine ⟨hstep, ?_⟩
  rintro d r ⟨_, _, hthread, ⟨job, next, log⟩, -⟩
  exact absurd rfl (hnone _ _ _ hthread)

/-- Calls of a pass that apply only existing objects. -/
theorem exists_collecting {q : Quantities} {ns name : String} {n : ℕ} {s : CubeCluster × List Key}
    {x : Op Go.Outcome × List Exchange × (CubeCluster × List Key)}
    (h : (Go.reconcile q ns name).runFor grantDeleting appliesExisting n s = some x) :
    ∃ S', Relation.ReflTransGen (CollectingStep q ns name) (Environment.idle (.of s)) S' ∧
      S'.state = .of x.2.2 ∧ S'.thread () = some ⟨(), x.1, x.2.1⟩ := by
  let S₀ : System Unit Unit Deleting Call Answer Go.Outcome := Environment.idle (.of s)
  have hstart : CollectingStep q ns name S₀ _ :=
    collectingStep_of_not_exchange (.begin () () rfl trivial) fun _ _ _ h => by cases h
  have hpass : Relation.ReflTransGen (CollectingStep q ns name) _ _ :=
    Environment.reachable_of_runFor Deleting.of
      (fun _ _ _ _ _ hok hthread hmakes => collectingStep_appliesExisting hok hthread hmakes)
      h (Function.update_self () (some ⟨(), _, []⟩) S₀.thread)
  exact ⟨_, .head hstart hpass, rfl, by simp only [Function.update_self, List.nil_append]⟩

/-- The pass over all objects. -/
def passBefore : Op Go.Outcome × List Exchange × (CubeCluster × List Key) :=
  ((Go.reconcile digitQuantities "default" "cube").runFor grantDeleting appliesExisting 100
    (without [])).get rfl

/-- The pass applies the objects, all of which exist, and then the collector deletes one. -/
theorem collected_stays_deleted_before :
    ∃ S' : System Unit Unit Deleting Call Answer Go.Outcome, (∃ run out,
      S'.thread () = some run ∧ run.Finished out) ∧ apiKey ∉ S'.state.existing ∧
      S'.state.existing ⊆ {k | k ∈ (without []).2} := by
  have hbefore : (Go.reconcile digitQuantities "default" "cube").runFor grantDeleting
      appliesExisting 100 (without []) = some passBefore := (Option.some_get _).symm
  obtain ⟨S, hpass, -, hthread⟩ := exists_collecting hbefore
  obtain ⟨out, hout⟩ := Option.isSome_iff_exists.mp (show passBefore.1.value?.isSome = true from rfl)
  have hfinished := Program.eq_ret_of_value? hout
  let S' : System Unit Unit Deleting Call Answer Go.Outcome :=
    { S with state := { S.state with existing := S.state.existing \ {apiKey} } }
  have hcollect : CollectingStep digitQuantities "default" "cube" S S' := by
    refine collectingStep_of_not_exchange (.drift ⟨apiKey, by decide, rfl⟩) ?_
    rintro run c next hrun
    obtain rfl : _ = run := Option.some.inj (hthread.symm.trans hrun)
    rw [hfinished]
    simp
  have hreach : (deleting digitQuantities "default" "cube").Reachable
      (Environment.idle (.of (without []))) (Environment.idle (.of (without []))) := .refl
  obtain ⟨hsub, -⟩ := collected_stays_deleted hreach
  exact ⟨S', ⟨_, out, hthread, hfinished⟩, by simp [S'], hsub S' (hpass.tail hcollect)⟩

end CubeOperator
