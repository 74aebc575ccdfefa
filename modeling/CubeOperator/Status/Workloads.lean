import CubeOperator.Content.Server
import CubeOperator.Lib.Session

/-! # Workloads and their rollouts

    A Deployment or StatefulSet has a spec, with the template of its pods, and a
    generation that every change of the spec raises.  The workload controllers of
    Kubernetes roll the pods over to a new template and report how far they are:
    the generation they have seen, and the ready pods.  Their reports come at any
    time later. -/

namespace Kube

/-- The kinds with pods. -/
def Kind.isWorkload : Kind → Bool
  | .deployment | .statefulSet => true
  | _ => false

structure Workload where
  spec : Json
  generation : ℤ := 1
  /-- The generation that the status is about. -/
  observedGeneration : ℤ := 0
  /-- The templates of the ready pods that the status counts. -/
  readyPods : List Json := []

namespace Workload

variable (w : Workload)

/-- The template of the pods to be. -/
def template : Json := (w.spec.get? "template").getD .null

/-- The count `readyReplicas`, which tells no template from another. -/
def ready : ℕ := w.readyPods.length

/-- The ready pods that run the template. -/
def updated : ℕ := w.readyPods.count w.template

/-- What a read shows of the status; the API server leaves out a zero. -/
def live : Live where
  readyReplicas := if w.ready = 0 then none else some w.ready

/-- The workload after its spec was written. -/
def write (spec : Json) : Workload :=
  if spec = w.spec then w else { w with spec := spec, generation := w.generation + 1 }

/-- The same spec in the same generation. -/
def Matches (w' : Workload) : Prop := w.spec = w'.spec ∧ w.generation = w'.generation

/-- As many ready pods as are needed run the template, if as many are ready, and the
    status is about the spec. -/
def CaughtUp (n : ℤ) : Prop :=
  w.observedGeneration = w.generation ∧ (n ≤ w.ready → n ≤ w.updated)

theorem live_readyReplicas : w.live.readyReplicas.getD 0 = w.ready := by
  unfold live
  split
  · rename_i hzero
    rw [hzero]
    rfl
  · rfl

end Workload

end Kube

namespace CubeOperator

open Interaction Kube

/-! ## The state of a rollout -/

/-- A CubeCluster as `σ` shows it, its workloads, and what its controller knows of
    them. -/
structure Rollouts (σ : Type) where
  cluster : σ
  workloads : Key → Option Workload
  /-- The workloads as they were written last. -/
  applied : Key → Option Workload
  /-- The workloads as they were read last, since they were written. -/
  found : Key → Option Workload

namespace Rollouts

variable {σ : Type}

/-- Nothing has been read yet. -/
def initial (cluster : σ) (workloads : Key → Option Workload) : Rollouts σ where
  cluster := cluster
  workloads := workloads
  applied := workloads
  found _ := none

/-! ## Writes and reads -/

section serves

variable (merge : Json → Json → Json) (serves : σ → Exchange → σ → Prop)

/-- What an action makes of its target.  A server-side apply of `desired` makes
    `merge stored desired` of the stored spec. -/
def target (w : Option Workload) : Action → Option Workload
  | .apply d => some (w.elim { spec := d.spec } fun w => w.write (merge w.spec d.spec))
  | .create d => some (w.getD { spec := d.spec })
  | .patch d => w.map fun w => w.write (w.spec.mergePatch d.spec)
  | .delete _ => none
  | _ => w

/-- The state after an action on the object `k`. -/
def write (s : Rollouts σ) (k : Key) (a : Action) : Rollouts σ :=
  { s with
    workloads := Function.update s.workloads k (target merge (s.workloads k) a)
    applied := Function.update s.applied k (target merge (s.workloads k) a)
    found := Function.update s.found k none }

/-- The state after a read of the workload `k`. -/
def read (s : Rollouts σ) (k : Key) : Rollouts σ :=
  { s with found := Function.update s.found k (s.workloads k) }

/-- What a call does to the workloads.  A write that fails may have been made all the
    same. -/
inductive Effect (s : Rollouts σ) : Exchange → Rollouts σ → Prop where
  | write {k : Key} {a : Action} (r : Except ApiError Unit) :
      Target a = some k → Effect s (.did a r) (s.write merge k a)
  | failed {a : Action} (err : ApiError) : Effect s (.did a (.error err)) s
  | read {k : Key} {w : Workload} :
      k.kind.isWorkload → s.workloads k = some w → Effect s (.got k (.ok w.live)) (s.read k)
  | other {e : Exchange} :
      e.target = none → (∀ k l, k.kind.isWorkload → e ≠ .got k (.ok l)) → Effect s e s

/-- A call of the controller. -/
def Serves (s : Rollouts σ) (e : Exchange) (s' : Rollouts σ) : Prop :=
  ∃ s₁, Effect merge s e s₁ ∧ serves s.cluster e s'.cluster ∧ s' = { s₁ with cluster := s'.cluster }

end serves

/-- The state after the workload controller has reported that `k` is `w` now. -/
def report (s : Rollouts σ) (k : Key) (w : Workload) : Rollouts σ :=
  { s with workloads := Function.update s.workloads k (some w) }

/-- An edit of the CubeCluster, or a report of a workload controller. -/
inductive Drifts (edits : σ → σ → Prop) (s : Rollouts σ) : Rollouts σ → Prop where
  | edit {cluster : σ} : edits s.cluster cluster → Drifts edits s { s with cluster := cluster }
  | report {k : Key} {w : Workload} (observed : ℤ) (pods : List Json) :
      s.workloads k = some w → w.observedGeneration ≤ observed → observed ≤ w.generation →
      Drifts edits s (s.report k { w with observedGeneration := observed, readyPods := pods })

end Rollouts

/-! ## What a log shows -/

/-- The call reads or writes the object. -/
def About (k : Key) (e : Exchange) : Prop := e.target = some k ∨ ∃ r, e = .got k r

/-- What is known of the object after one more call. -/
def knows (k : Key) (known : Option Live) : Exchange → Option Live
  | ⟨.get k', r⟩ => if k' = k then r.toOption else known
  | ⟨.act a, _⟩ => if Target a = some k then none else known
  | _ => known

/-- The answer to the last read of the object, unless it was written since. -/
def lastRead (k : Key) (log : List Exchange) : Option Live := log.foldl (knows k) none

/-- The document was written and stored. -/
def Wrote (log : List Exchange) (d : Manifest) : Prop :=
  ∃ a, (a = .apply d ∨ a = .create d ∨ a = .patch d) ∧ Exchange.did a (.ok ()) ∈ log

section logs

variable {k : Key} {tr tr' : List Exchange} {e : Exchange}

theorem Wrote.mono {d : Manifest} (h : Wrote tr d) (hsub : tr ⊆ tr') : Wrote tr' d := by
  obtain ⟨a, ha, hmem⟩ := h
  exact ⟨a, ha, hsub hmem⟩

theorem lastRead_concat : lastRead k (tr ++ [e]) = knows k (lastRead k tr) e := by
  simp [lastRead]

theorem knows_of_not_about {known : Option Live} (h : ¬About k e) : knows k known e = known := by
  obtain ⟨c, r⟩ := e
  cases c with
  | act a => exact if_neg fun ha => h (.inl ha)
  | get k' => exact if_neg fun hk => h (.inr ⟨r, by rw [hk]⟩)
  | _ => rfl

theorem lastRead_append (h : ∀ e ∈ tr', ¬About k e) : lastRead k (tr ++ tr') = lastRead k tr := by
  induction tr' generalizing tr with
  | nil => rw [List.append_nil]
  | cons e tr' ih =>
    rw [List.append_cons, ih fun e' he' => h e' (by simp [he']), lastRead_concat,
      knows_of_not_about (h e (by simp))]

end logs

/-! ## What a controller knows -/

namespace Rollouts

variable {σ κ α : Type} {merge : Json → Json → Json} {serves : σ → Exchange → σ → Prop}
  {edits : σ → σ → Prop} {s s' : Rollouts σ} {e : Exchange} {log : List Exchange}

/-- What was written, and what was found since, is the workload up to its status. -/
structure Coherent (s : Rollouts σ) : Prop where
  applied : ∀ k w, s.workloads k = some w → ∃ d, s.applied k = some d ∧ d.Matches w
  found : ∀ k w, s.found k = some w → ∃ d, s.applied k = some d ∧ d.Matches w

/-- A read that the log still knows found the workload as the state has it. -/
def Known (s : Rollouts σ) (log : List Exchange) : Prop :=
  ∀ k, k.kind.isWorkload → ∀ l, lastRead k log = some l → ∃ w, s.found k = some w ∧ w.live = l

theorem coherent_initial (cluster : σ) (workloads : Key → Option Workload) :
    (initial cluster workloads).Coherent where
  applied _ w hw := ⟨w, hw, rfl, rfl⟩
  found _ _ hw := by cases hw

theorem Coherent.write (hs : s.Coherent) (k : Key) (a : Action) : (s.write merge k a).Coherent := by
  constructor
  · intro k' w hw
    by_cases hk : k' = k
    · subst hk
      refine ⟨w, ?_, rfl, rfl⟩
      simpa [Rollouts.write] using hw
    · have hold : s.workloads k' = some w := by simpa [Rollouts.write, hk] using hw
      simpa [Rollouts.write, hk] using hs.applied k' w hold
  · intro k' w hw
    by_cases hk : k' = k
    · subst hk
      simp [Rollouts.write] at hw
    · have hold : s.found k' = some w := by simpa [Rollouts.write, hk] using hw
      simpa [Rollouts.write, hk] using hs.found k' w hold

theorem Coherent.read (hs : s.Coherent) (k : Key) : (s.read k).Coherent := by
  refine ⟨hs.applied, fun k' w hw => ?_⟩
  by_cases hk : k' = k
  · subst hk
    have hnow : s.workloads k' = some w := by simpa [Rollouts.read] using hw
    exact hs.applied k' w hnow
  · have hold : s.found k' = some w := by simpa [Rollouts.read, hk] using hw
    exact hs.found k' w hold

theorem Coherent.effect (hs : s.Coherent) (h : Effect merge s e s') : s'.Coherent := by
  cases h with
  | write r ha => exact hs.write _ _
  | failed err => exact hs
  | read hk hw => exact hs.read _
  | other htarget hread => exact hs

/-- A report changes nothing but the status. -/
theorem Coherent.drift (hs : s.Coherent) (h : Drifts edits s s') : s'.Coherent := by
  cases h with
  | edit hedit => exact ⟨hs.applied, hs.found⟩
  | @report k w observed pods hw _ _ =>
    refine ⟨fun k' w' hw' => ?_, hs.found⟩
    by_cases hk : k' = k
    · subst hk
      obtain rfl : _ = w' := by simpa [Rollouts.report] using hw'
      exact hs.applied k' w hw
    · have hold : s.workloads k' = some w' := by simpa [Rollouts.report, hk] using hw'
      exact hs.applied k' w' hold

theorem Known.effect (hs : s.Known log) (h : Effect merge s e s') : s'.Known (log ++ [e]) := by
  intro k hk l hl
  rw [lastRead_concat] at hl
  cases h with
  | @write k' a r ha =>
    by_cases hkk : k' = k
    · -- a write is forgotten
      subst hkk
      simp [knows, ha] at hl
    · have hold : lastRead k log = some l := by simpa [knows, ha, hkk] using hl
      simpa [Rollouts.write, Ne.symm hkk] using hs k hk l hold
  | @failed a err =>
    refine hs k hk l ?_
    by_cases ha : Target a = some k
    · simp [knows, ha] at hl
    · simpa [knows, ha] using hl
  | @read k' w hk' hw =>
    by_cases hkk : k' = k
    · subst hkk
      obtain rfl : w.live = l := by simpa [knows, Except.toOption] using hl
      exact ⟨w, by simpa [Rollouts.read] using hw, rfl⟩
    · have hold : lastRead k log = some l := by simpa [knows, hkk] using hl
      simpa [Rollouts.read, Ne.symm hkk] using hs k hk l hold
  | other htarget hread =>
    refine hs k hk l ?_
    by_cases habout : About k e
    · rcases habout with htarget' | ⟨r, rfl⟩
      · rw [htarget] at htarget'
        cases htarget'
      · cases r with
        | ok l' => exact absurd rfl (hread k l' hk)
        | error err => simp [knows, Except.toOption] at hl
    · rwa [knows_of_not_about habout] at hl

/-- A controller with its workloads, one pass at a time. -/
def environment (merge : Json → Json → Json) (serves : σ → Exchange → σ → Prop)
    (edits : σ → σ → Prop) (program : κ → Op α) (begins : σ → κ → Prop) :
    Environment Unit κ (Rollouts σ) Call Answer α where
  program := program
  begins _ s job := begins s.cluster job
  serves := Serves merge serves
  drifts := Drifts edits

/-- In every run what the controller has found is what it has written. -/
theorem reachable_known {program : κ → Op α} {begins : σ → κ → Prop} {cluster : σ}
    {workloads : Key → Option Workload} {S : System Unit κ (Rollouts σ) Call Answer α}
    (h : (environment merge serves edits program begins).Reachable
      (Environment.idle (initial cluster workloads)) S) :
    S.state.Coherent ∧ ∀ i run, S.thread i = some run → S.state.Known run.log := by
  refine Environment.Reachable.invariant (J := fun s run => s.Known run.log) ?_ ?_
    (fun i j _ _ _ _ _ _ hij => absurd (Subsingleton.elim i j) hij) ?_ h
    (coherent_initial cluster workloads) (by simp [Environment.idle])
  · intro _ _ _ _ _ k _ l hl
    cases hl
  · rintro s _ e _ s' hs hknown ⟨job, next, log⟩ ⟨s₁, heffect, -, hs'⟩
    have hcoherent : s₁.Coherent := hs.effect heffect
    have hknown' : s₁.Known (log ++ [e]) := hknown.effect heffect
    rw [hs']
    exact ⟨⟨hcoherent.applied, hcoherent.found⟩, hknown'⟩
  · intro s s' hs hdrift
    refine ⟨hs.drift hdrift, fun run hknown => ?_⟩
    cases hdrift with
    | edit hedit => exact hknown
    | report observed pods hw _ _ => exact hknown

/-! ## Rolled out -/

/-- The status found for the workload is about the spec written last, and as many of the
    ready pods as are needed run its template. -/
def RolledOut (s : Rollouts σ) (k : Key) (n : ℤ) : Prop :=
  ∃ desired found, s.applied k = some desired ∧ s.found k = some found ∧
    found.observedGeneration = desired.generation ∧ n ≤ found.readyPods.count desired.template

/-- A workload that was accepted is rolled out exactly when its status has caught up. -/
theorem rolledOut_iff {k : Key} {l : Live} {n : ℤ} (hs : s.Coherent) (hknown : s.Known log)
    (hk : k.kind.isWorkload) (hl : lastRead k log = some l) (hn : n ≤ l.readyReplicas.getD 0) :
    s.RolledOut k n ↔ ∀ w, s.found k = some w → w.CaughtUp n := by
  obtain ⟨w, hw, rfl⟩ := hknown k hk l hl
  obtain ⟨d, hd, hspec, hgeneration⟩ := hs.found k w hw
  rw [Workload.live_readyReplicas] at hn
  have htemplate : d.template = w.template := by
    unfold Workload.template
    rw [hspec]
  constructor
  · rintro ⟨desired, found, hdesired, hfound, hobserved, hcount⟩ w' hw'
    obtain rfl := Option.some.inj (hd.symm.trans hdesired)
    obtain rfl := Option.some.inj (hw.symm.trans hfound)
    obtain rfl := Option.some.inj (hw.symm.trans hw')
    rw [htemplate] at hcount
    exact ⟨hobserved.trans hgeneration, fun _ => hcount⟩
  · intro hcaught
    obtain ⟨hobserved, hcount⟩ := hcaught w hw
    refine ⟨d, w, hd, hw, hobserved.trans hgeneration.symm, ?_⟩
    rw [htemplate]
    exact hcount hn

/-- A document for the workload was written, and with it the ready pods it needs are
    rolled out. -/
structure RollsOut (s : Rollouts σ) (log : List Exchange) (ds : List Manifest)
    (w : Key × ℤ) : Prop where
  written : ∃ d ∈ ds, d.key = w.1 ∧ Wrote log d
  rolledOut : s.RolledOut w.1 w.2

/-- Every workload was up to date, as far as it was accepted, when it was read last. -/
def FoundCaughtUp (s : Rollouts σ) (ws : List (Key × ℤ)) : Prop :=
  ∀ w ∈ ws, ∀ found, s.found w.1 = some found → found.CaughtUp w.2

/-- Workloads that were accepted after they were written are rolled out exactly when they
    were up to date. -/
theorem rollsOut_iff {ds : List Manifest} {ws : List (Key × ℤ)} (hs : s.Coherent) (hknown : s.Known log)
    (hwritten : ∀ w ∈ ws, w.1.kind.isWorkload ∧ ∃ d ∈ ds, d.key = w.1 ∧ Wrote log d)
    (haccepted : ∀ w ∈ ws, ∃ l, lastRead w.1 log = some l ∧ w.2 ≤ l.readyReplicas.getD 0) :
    (∀ w ∈ ws, s.RollsOut log ds w) ↔ s.FoundCaughtUp ws := by
  have hiff : ∀ w ∈ ws, s.RolledOut w.1 w.2 ↔ ∀ found, s.found w.1 = some found →
      found.CaughtUp w.2 := by
    intro w hw
    obtain ⟨l, hl, hn⟩ := haccepted w hw
    exact rolledOut_iff hs hknown (hwritten w hw).1 hl hn
  constructor
  · intro h w hw
    exact (hiff w hw).mp (h w hw).rolledOut
  · intro h w hw
    exact ⟨(hwritten w hw).2, (hiff w hw).mpr (h w hw)⟩

end Rollouts

/-! ## A server -/

section serve

variable {σ : Type} (answer : σ → (c : Call) → Answer c × σ)

/-- An API server that grants every write and shows every workload as it is.  What is not
    about objects is answered as in `answer`. -/
def Rollouts.serve (s : Rollouts σ) : (c : Call) → Answer c × Rollouts σ
  | .act a =>
    match Target a with
    | some k => (.ok (), s.write (fun _ desired => desired) k a)
    | none =>
      let (r, cluster) := answer s.cluster (.act a)
      (r, { s with cluster := cluster })
  | .get k =>
    match s.workloads k with
    | some w => if k.kind.isWorkload then (.ok w.live, s.read k) else (.ok {}, s)
    | none => if k.kind.isReference then (.ok {}, s) else (.error .notFound, s)
  | c =>
    let (r, cluster) := answer s.cluster c
    (r, { s with cluster := cluster })

/-- The workload controller has brought two pods of the template up. -/
def Rollouts.settle (s : Rollouts σ) (k : Key) : Rollouts σ :=
  match s.workloads k with
  | some w =>
    if w.observedGeneration ≤ w.generation then
      s.report k { w with observedGeneration := w.generation, readyPods := [w.template, w.template] }
    else s
  | none => s

/-- The same server when the workload controllers are done before each read. -/
def Rollouts.serveSettled (s : Rollouts σ) (c : Call) : Answer c × Rollouts σ :=
  match c with
  | .get k => (s.settle k).serve answer (.get k)
  | c => s.serve answer c

variable {answer} {serves : σ → Exchange → σ → Prop} {edits : σ → σ → Prop}

/-- A call about an object. -/
def IsObjectCall (c : Call) : Prop := (∃ k, c = .get k) ∨ ∃ a k, c = .act a ∧ Target a = some k

/-- The server is one of those the controllers run against. -/
theorem Rollouts.serves_serve (hanswer : ∀ s c, serves s ⟨c, (answer s c).1⟩ (answer s c).2)
    (hobjects : ∀ s c (r : Answer c), IsObjectCall c → serves s ⟨c, r⟩ s) (s : Rollouts σ)
    (c : Call) : Rollouts.Serves (fun _ desired => desired) serves s ⟨c, (s.serve answer c).1⟩
      (s.serve answer c).2 := by
  have hother (c : Call) (htarget : ∀ r : Answer c, Exchange.target ⟨c, r⟩ = none)
      (hget : ∀ k, c ≠ .get k) :
      Rollouts.Serves (fun _ desired => desired) serves s ⟨c, (answer s.cluster c).1⟩
        { s with cluster := (answer s.cluster c).2 } := by
    refine ⟨s, .other (htarget _) ?_, hanswer _ _, rfl⟩
    rintro k l - hread
    exact hget k (congrArg Sigma.fst hread)
  cases c with
  | act a =>
    cases hk : Target a with
    | some k =>
      simp only [Rollouts.serve, hk]
      exact ⟨_, .write _ hk, hobjects _ _ _ (.inr ⟨a, k, rfl, hk⟩), rfl⟩
    | none =>
      simp only [Rollouts.serve, hk]
      exact hother (.act a) (fun _ => hk) (by simp)
  | get k =>
    have hcluster (r : Answer (.get k)) : serves s.cluster ⟨.get k, r⟩ s.cluster :=
      hobjects _ _ _ (.inl ⟨k, rfl⟩)
    -- what is deployed answers for its key, and the references are always there
    cases hw : s.workloads k with
    | some w =>
      by_cases hkind : k.kind.isWorkload
      · simp only [Rollouts.serve, hw, hkind, if_true]
        exact ⟨_, .read hkind hw, hcluster _, rfl⟩
      · simp only [Rollouts.serve, hw, hkind]
        refine ⟨s, .other rfl ?_, hcluster _, rfl⟩
        rintro k' l hk' hread
        cases hread
        exact hkind hk'
    | none =>
      by_cases hkind : k.kind.isReference
      · simp only [Rollouts.serve, hw, hkind, if_true]
        refine ⟨s, .other rfl ?_, hcluster _, rfl⟩
        rintro k' l hk' hread
        cases hread
        cases hk : k.kind <;> simp [hk, Kind.isWorkload, Kind.isReference] at hk' hkind
      · simp only [Rollouts.serve, hw, hkind]
        refine ⟨s, .other rfl ?_, hcluster _, rfl⟩
        rintro k' l hk' hread
        cases hread
  | getCluster ns name => exact hother (.getCluster ns name) (fun _ => rfl) (by simp)
  | httpGet url => exact hother (.httpGet url) (fun _ => rfl) (by simp)
  | now => exact hother .now (fun _ => rfl) (by simp)

theorem Rollouts.drifts_settle (s : Rollouts σ) (k : Key) :
    s.settle k = s ∨ Rollouts.Drifts edits s (s.settle k) := by
  unfold Rollouts.settle
  split
  · rename_i w hw
    split
    · rename_i hobserved
      exact .inr (.report w.generation _ hw hobserved (Int.le_refl _))
    · exact .inl rfl
  · exact .inl rfl

theorem Rollouts.serves_serveSettled {κ α : Type} {program : κ → Op α} {begins : σ → κ → Prop}
    (hanswer : ∀ s c, serves s ⟨c, (answer s c).1⟩ (answer s c).2)
    (hobjects : ∀ s c (r : Answer c), IsObjectCall c → serves s ⟨c, r⟩ s) (s : Rollouts σ)
    (c : Call) :
    (Rollouts.environment (fun _ desired => desired) serves edits program begins).ServesLater s
      ⟨c, (s.serveSettled answer c).1⟩ (s.serveSettled answer c).2 := by
  cases c with
  | get k =>
    exact ⟨s.settle k, s.drifts_settle k, Rollouts.serves_serve hanswer hobjects _ (.get k)⟩
  | act a => exact ⟨s, .inl rfl, Rollouts.serves_serve hanswer hobjects s (.act a)⟩
  | getCluster ns name =>
    exact ⟨s, .inl rfl, Rollouts.serves_serve hanswer hobjects s (.getCluster ns name)⟩
  | httpGet url => exact ⟨s, .inl rfl, Rollouts.serves_serve hanswer hobjects s (.httpGet url)⟩
  | now => exact ⟨s, .inl rfl, Rollouts.serves_serve hanswer hobjects s .now⟩

/-- A whole pass against the server, with settled workloads or not, and an edit after it. -/
theorem Rollouts.reachable_pass_edit {κ α : Type} (program : κ → Op α) (begins : σ → κ → Prop)
    (hanswer : ∀ s c, serves s ⟨c, (answer s c).1⟩ (answer s c).2)
    (hobjects : ∀ s c (r : Answer c), IsObjectCall c → serves s ⟨c, r⟩ s) (s : Rollouts σ)
    (job : κ) (hbegin : begins s.cluster job) {pass : α × List Exchange × Rollouts σ}
    (hpass : (program job).runOn (Rollouts.serveSettled answer) s = pass) {cluster : σ}
    (hedit : edits pass.2.2.cluster cluster) :
    (Rollouts.environment (fun _ desired => desired) serves edits program begins).Reachable
      (Environment.idle s) (Environment.idle { pass.2.2 with cluster := cluster }) := by
  subst hpass
  have hserve : ∀ (s : Rollouts σ) (c : Call),
      (Rollouts.environment (fun _ desired => desired) serves edits program begins).ServesLater s
        ⟨c, (s.serveSettled answer c).1⟩ (s.serveSettled answer c).2 :=
    Rollouts.serves_serveSettled hanswer hobjects
  obtain ⟨hexec, hreplay⟩ := Program.runOn_run hserve (program job) s
  have hwhole := Environment.reachable_of_whole_run () job (S := Environment.idle s) rfl hbegin hexec
    hreplay
  exact hwhole.tail (.drift (.edit hedit))

/-- The last call of a pass against the server. -/
theorem Rollouts.exists_last_exchange {κ α : Type} (edits : σ → σ → Prop)
    (program : κ → Op α) (begins : σ → κ → Prop)
    (hanswer : ∀ s c, serves s ⟨c, (answer s c).1⟩ (answer s c).2)
    (hobjects : ∀ s c (r : Answer c), IsObjectCall c → serves s ⟨c, r⟩ s) (s : Rollouts σ)
    (job : κ) (hbegin : begins s.cluster job) {pass : α × List Exchange × Rollouts σ}
    (hpass : (program job).runOn (Rollouts.serve answer) s = pass) {log : List Exchange}
    {e : Exchange} (hlog : pass.2.1 = log ++ [e]) :
    ∃ (S S' : System Unit κ (Rollouts σ) Call Answer α) (run : Running κ Call Answer α),
      (Rollouts.environment (fun _ desired => desired) serves edits program begins).Reachable
        (Environment.idle s) S ∧
      S.thread () = some run ∧ run.log = log ∧
      (Rollouts.environment (fun _ desired => desired) serves edits program begins).Exchanges
        () e S S' ∧
      S'.state = pass.2.2 := by
  subst hpass
  have hserve : ∀ (s : Rollouts σ) (c : Call), Rollouts.Serves (fun _ desired => desired) serves s
      ⟨c, (s.serve answer c).1⟩ (s.serve answer c).2 := Rollouts.serves_serve hanswer hobjects
  obtain ⟨hexec, hreplay⟩ := Program.runOn_run hserve (program job) s
  rw [hlog] at hexec hreplay
  obtain ⟨s₁, hbefore, hlast⟩ := Replay.append_iff.mp hreplay
  obtain ⟨s₂, hserves, hend⟩ := Replay.cons_iff.mp hlast
  obtain rfl := Replay.nil_iff.mp hend
  obtain ⟨S, S', run, -, hreach, -, hrun, -, hrunlog, he, hstate, -, -⟩ :=
    Environment.exists_exchange
      (E := Rollouts.environment (fun _ desired => desired) serves edits program begins) () job
      hbegin hexec (Environment.replay_servesLater hbefore) (.inl rfl) hserves
  exact ⟨S, S', run, hreach, hrun, hrunlog, he, hstate⟩

/-- A whole pass against the server. -/
theorem Rollouts.exists_whole_pass {κ α : Type} (edits : σ → σ → Prop)
    (program : κ → Op α) (begins : σ → κ → Prop)
    (hanswer : ∀ s c, serves s ⟨c, (answer s c).1⟩ (answer s c).2)
    (hobjects : ∀ s c (r : Answer c), IsObjectCall c → serves s ⟨c, r⟩ s) (s : Rollouts σ)
    (job : κ) (hbegin : begins s.cluster job) {pass : α × List Exchange × Rollouts σ}
    (hpass : (program job).runOn (Rollouts.serve answer) s = pass) :
    ∃ (S : System Unit κ (Rollouts σ) Call Answer α) (run : Running κ Call Answer α),
      (Rollouts.environment (fun _ desired => desired) serves edits program begins).Reachable
        (Environment.idle s) S ∧
      S.thread () = some run ∧ run.job = job ∧ run.Finished pass.1 ∧ S.state = pass.2.2 := by
  subst hpass
  have hserve : ∀ (s : Rollouts σ) (c : Call), Rollouts.Serves (fun _ desired => desired) serves s
      ⟨c, (s.serve answer c).1⟩ (s.serve answer c).2 := Rollouts.serves_serve hanswer hobjects
  obtain ⟨hexec, hreplay⟩ := Program.runOn_run hserve (program job) s
  obtain ⟨S, run, hreach, hrun, hjob, -, hdone, hstate⟩ :=
    Environment.exists_finished
      (E := Rollouts.environment (fun _ desired => desired) serves edits program begins) () job
      (S := Environment.idle s) rfl hbegin hexec (Environment.replay_servesLater hreplay)
  exact ⟨S, run, hreach, hrun, hjob, hdone, hstate⟩

end serve

end CubeOperator
