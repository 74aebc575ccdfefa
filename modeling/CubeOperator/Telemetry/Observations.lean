import CubeOperator.Kube.Names
import CubeOperator.Telemetry.Snapshots
import Mathlib.Data.List.Nodup

/-! # Observations over time

    What the `DELETE` of a pass has seen of older rows is gone for good once the pass has
    committed.  And the key that the cube `KubernetesTelemetry` gives to an observation,
    the `observationKey` of its model, names one row. -/

namespace CubeOperator.Telemetry.Collection

open Interaction

variable {f : Formats} {k : Cluster}
  {S S' : System ℕ Collector World Call Answer (Except String Unit)}

/-! ## From any state on -/

/-- What the exchanges and the world by itself keep, in sound worlds, holds from any state
    of a run on. -/
theorem keeps_on {P : World → Prop}
    (hserves : ∀ w e w', w.Sound → P w → Effect f w e w' → P w')
    (hdrifts : ∀ w w', w.Sound → P w → Drifts f w w' → P w')
    (h : (collecting f).Reachable (Environment.idle (World.initial k)) S)
    (hrun : (collecting f).Reachable S S') (hP : P S.state) : P S'.state := by
  induction hrun with
  | refl => exact hP
  | @tail S₁ S₂ hreach hstep ih =>
    have hsound := (invariant (h.trans hreach)).1
    cases hstep with
    | begin => exact ih
    | exchange i e hexchanges =>
      obtain ⟨_, _, -, -, hserved, -⟩ := hexchanges
      exact hserves _ e _ hsound ih (effect_of_serves hserved)
    | stop => exact ih
    | drift hdrift => exact hdrifts _ _ hsound ih hdrift

/-! ## What has been deleted -/

/-- The transaction `x` is closed, or has marked the version. -/
def Marked (x : ℕ) (v : Version) (w : World) : Prop :=
  x < w.next ∧ ∀ t, w.transactions x = some t → v ∈ t.deleted

/-- The version is not in the table, and no open transaction will insert it. -/
structure Gone (v : Version) (w : World) : Prop where
  absent : v ∉ w.table
  closed : w.transactions v.xmin = none
  issued : v.xmin < w.next

theorem marked_executed {x y : ℕ} {v : Version} {w : World} {t : Transaction} {statement : Statement}
    (h : Marked x v w) (ht : w.transactions y = some t) :
    Marked x v (w.executed f y t statement) := by
  obtain ⟨hlt, hmarked⟩ := h
  refine ⟨by cases statement <;> exact hlt, fun t' ht' => ?_⟩
  by_cases hxy : x = y
  · subst hxy
    have hdeleted := hmarked t ht
    cases statement with
    | copyFrom rows =>
      simp only [World.executed, Function.update_self, Option.some.injEq] at ht'
      rw [← ht']
      exact hdeleted
    | prune text =>
      simp only [World.executed, Function.update_self, Option.some.injEq] at ht'
      rw [← ht']
      exact List.mem_append_left _ hdeleted
    | commit => simp [World.executed] at ht'
  · refine hmarked t' ?_
    cases statement <;> simpa [World.executed, hxy] using ht'

theorem gone_executed {y : ℕ} {v : Version} {w : World} {t : Transaction} {statement : Statement}
    (hsound : w.Sound) (h : Gone v w) (ht : w.transactions y = some t) :
    Gone v (w.executed f y t statement) := by
  obtain ⟨habsent, hclosed, hlt⟩ := h
  have hne : v.xmin ≠ y := by
    rintro rfl
    rw [hclosed] at ht
    cases ht
  cases statement with
  | commit =>
    refine ⟨fun hmem => ?_, by simp [World.executed, hne, hclosed], hlt⟩
    rcases List.mem_append.mp (List.mem_filter.mp hmem).1 with hold | hnew
    · exact habsent hold
    · exact hne ((hsound.opened y t ht).own v hnew)
  | _ => exact ⟨habsent, by simp [World.executed, hne, hclosed], hlt⟩

theorem marked_rolledBack {x y : ℕ} {v : Version} {w : World} (h : Marked x v w) :
    Marked x v (w.rolledBack y) := by
  refine ⟨h.1, fun t ht => h.2 t ?_⟩
  by_cases hxy : x = y
  · simp [World.rolledBack, hxy] at ht
  · simpa [World.rolledBack, hxy] using ht

theorem gone_rolledBack {y : ℕ} {v : Version} {w : World} (h : Gone v w) : Gone v (w.rolledBack y) := by
  refine ⟨h.absent, ?_, h.issued⟩
  by_cases hvy : v.xmin = y
  · simp [World.rolledBack, hvy]
  · simp [World.rolledBack, hvy, h.closed]

theorem marked_on {x : ℕ} {v : Version}
    (h : (collecting f).Reachable (Environment.idle (World.initial k)) S)
    (hrun : (collecting f).Reachable S S') (hmarked : Marked x v S.state) : Marked x v S'.state := by
  refine keeps_on (P := Marked x v) ?_ ?_ h hrun hmarked
  · intro w e w' _ hP heffect
    cases heffect with
    | unchanged => exact hP
    | opened start =>
      refine ⟨Nat.lt_succ_of_lt hP.1, fun t ht => hP.2 t ?_⟩
      simpa [World.opened, Nat.ne_of_lt hP.1] using ht
    | executed ht => exact marked_executed hP ht
    | pending => exact hP
    | rolledBack y => exact marked_rolledBack hP
  · intro w w' _ hP hdrift
    cases hdrift with
    | cluster k => exact hP
    | rolledBack y => exact marked_rolledBack hP
    | arrived hmem ht => exact marked_executed (w := w.arrived _ _) hP ht

theorem gone_on {v : Version}
    (h : (collecting f).Reachable (Environment.idle (World.initial k)) S)
    (hrun : (collecting f).Reachable S S') (hgone : Gone v S.state) : Gone v S'.state := by
  refine keeps_on (P := Gone v) ?_ ?_ h hrun hgone
  · intro w e w' hsound hP heffect
    cases heffect with
    | unchanged => exact hP
    | opened start =>
      refine ⟨hP.absent, ?_, Nat.lt_succ_of_lt hP.issued⟩
      simp [World.opened, Nat.ne_of_lt hP.issued, hP.closed]
    | executed ht => exact gone_executed hsound hP ht
    | pending => exact ⟨hP.absent, hP.closed, hP.issued⟩
    | rolledBack y => exact gone_rolledBack hP
  · intro w w' hsound hP hdrift
    cases hdrift with
    | cluster k => exact ⟨hP.absent, hP.closed, hP.issued⟩
    | rolledBack y => exact gone_rolledBack hP
    | @arrived tx t statement hmem ht =>
      exact gone_executed (hsound.arriving tx statement) ⟨hP.absent, hP.closed, hP.issued⟩ ht

/-- The statement is executed, whether its answer comes, is lost, or the statement comes
    late. -/
def Executes (f : Formats) (x : ℕ) (statement : Statement) (w w' : World) : Prop :=
  ∃ w₀ t, (w₀ = w ∨ w₀ = w.arrived x statement) ∧ w.transactions x = some t ∧
    w' = w₀.executed f x t statement

theorem executes_of_ok {w w' : World} {x : ℕ} {statement : Statement} {u : Unit}
    (h : Serves f w ⟨.query x statement, .ok u⟩ w') : Executes f x statement w w' := by
  obtain ⟨t, ht, rfl⟩ := h
  exact ⟨w, t, .inl rfl, ht, rfl⟩

theorem marked_of_prune {x : ℕ} {text : String} {v : Version} {w w' : World} {t : Transaction}
    (hsound : w.Sound) (h : Executes f x (.prune text) w w') (ht : w.transactions x = some t)
    (hv : v ∈ w.visible t) (hold : v.row.collectedAt < t.start - f.interval text) :
    Marked x v w' := by
  obtain ⟨w₀, t', hw₀, ht', rfl⟩ := h
  obtain rfl : t = t' := Option.some.inj (ht.symm.trans ht')
  have hsame : w₀.visible t = w.visible t ∧ w₀.next = w.next := by
    rcases hw₀ with rfl | rfl <;> exact ⟨rfl, rfl⟩
  refine ⟨?_, fun u hu => ?_⟩
  · exact Nat.lt_of_lt_of_eq (hsound.issued x t ht) hsame.2.symm
  · simp only [World.executed, Function.update_self, Option.some.injEq] at hu
    rw [← hu, hsame.1]
    exact List.mem_append_right _ (List.mem_filter.mpr ⟨hv, by simpa using hold⟩)

/-- A commit takes away what is marked, and its transaction is closed. -/
theorem gone_of_commit {x : ℕ} {v : Version} {w w' : World} (hsound : w.Sound)
    (hmarked : Marked x v w) (h : Executes f x .commit w w') : Gone v w' := by
  obtain ⟨w₀, t, hw₀, ht, rfl⟩ := h
  have hdeleted := hmarked.2 t ht
  have hsame : w₀.transactions = w.transactions ∧ w₀.next = w.next := by
    rcases hw₀ with rfl | rfl <;> exact ⟨rfl, rfl⟩
  refine ⟨fun hmem => ?_, ?_, ?_⟩
  · simpa [hdeleted] using (List.mem_filter.mp hmem).2
  · rcases (hsound.opened x t ht).marked v hdeleted with hown | ⟨-, hnone⟩
    · simp [World.executed, hown]
    · by_cases hvx : v.xmin = x
      · simp [World.executed, hvx]
      · simp [World.executed, hvx, hsame.1, hnone]
  · refine Nat.lt_of_lt_of_eq ?_ hsame.2.symm
    rcases (hsound.opened x t ht).marked v hdeleted with hown | ⟨hlt, -⟩
    · exact hown ▸ hmarked.1
    · exact hlt

/-- What the `DELETE` of a transaction sees of rows before its cutoff is not in the table
    any more after its commit, and never again. -/
theorem pruned_gone {S₁ S₂ S₃ S₄ : System ℕ Collector World Call Answer (Except String Unit)}
    {x : ℕ} {text : String} {t : Transaction} {v : Version}
    (h : (collecting f).Reachable (Environment.idle (World.initial k)) S)
    (hstep : (collecting f).Step S S₁) (hprune : Executes f x (.prune text) S.state S₁.state)
    (h₁₂ : (collecting f).Reachable S₁ S₂)
    (hstep' : (collecting f).Step S₂ S₃) (hcommit : Executes f x .commit S₂.state S₃.state)
    (h₃₄ : (collecting f).Reachable S₃ S₄)
    (ht : S.state.transactions x = some t) (hv : v ∈ S.state.visible t)
    (hold : v.row.collectedAt < t.start - f.interval text) : v ∉ S₄.state.table := by
  have h₁ := h.tail hstep
  have h₂ := h₁.trans h₁₂
  have hmarked := marked_of_prune (invariant h).1 hprune ht hv hold
  have hgone := gone_of_commit (invariant h₂).1 (marked_on h₁ h₁₂ hmarked) hcommit
  exact (gone_on (h₂.tail hstep') h₃₄ hgone).absent

/-- A second pass a day later, before its `DELETE`. -/
def laterPass : Op (Except String Unit) × List Exchange × World :=
  ((collect hourly smallCollector).run.runFor (servesAll hourly) (fun _ _ => true) 6
    smallPass.2.2).get rfl

/-- A row of the first pass. -/
def smallVersion : Version := ⟨0, nodeRow smallCollector 0 ⟨"n", "", [⟨"Ready", "True"⟩]⟩⟩

/-- Calls of one collector that all go well. -/
theorem exists_calls {i n : ℕ} {c : Collector} {p : Op (Except String Unit)} {log : List Exchange}
    {x : Op (Except String Unit) × List Exchange × World} (hi : S.thread i = some ⟨c, p, log⟩)
    (h : p.runFor (servesAll f) (fun _ _ => true) n S.state = some x) :
    ∃ S', (collecting f).Reachable S S' ∧ S'.state = x.2.2 ∧
      S'.thread i = some ⟨c, x.1, log ++ x.2.1⟩ := by
  have hreach : (collecting f).Reachable S _ := Environment.reachable_of_runFor id
    (fun w call _ run run' _ hthread hmakes =>
      .exchange i _ ⟨run, run', hthread, hmakes, serves_servesAll f w call, rfl⟩) h hi
  exact ⟨_, hreach, rfl, Function.update_self ..⟩

theorem exists_laterPass : ∃ S : System ℕ Collector World Call Answer (Except String Unit),
    (collecting hourly).Reachable (Environment.idle (World.initial smallCluster)) S ∧
    S.state = laterPass.2.2 ∧ S.thread 1 = some ⟨smallCollector, laterPass.1, laterPass.2.1⟩ := by
  obtain ⟨hexec, hreplay⟩ := Program.runOn_run (serves_servesAll hourly)
    (collect hourly smallCollector).run (World.initial smallCluster)
  have hfirst := Environment.reachable_of_whole_run (E := collecting hourly) 0 smallCollector
    (S := Environment.idle (World.initial smallCluster)) rfl trivial hexec
    (Environment.replay_servesLater hreplay)
  have hbegin := hfirst.tail (.begin 1 smallCollector rfl trivial)
  have hlater : (collect hourly smallCollector).run.runFor (servesAll hourly) (fun _ _ => true) 6
      smallPass.2.2 = some laterPass := (Option.some_get _).symm
  let S₁ : System ℕ Collector World Call Answer (Except String Unit) :=
    ⟨smallPass.2.2, Function.update (fun _ => none) 1
      (some ⟨smallCollector, (collect hourly smallCollector).run, []⟩)⟩
  have hbegun : (collecting hourly).Reachable (Environment.idle (World.initial smallCluster)) S₁ :=
    hbegin
  have hthread₁ : S₁.thread 1 = some ⟨smallCollector, (collect hourly smallCollector).run, []⟩ := by
    simp only [S₁, Function.update_self]
  obtain ⟨S, hcalls, hstate, hthread⟩ := exists_calls hthread₁ hlater
  exact ⟨S, hbegun.trans hcalls, hstate, hthread⟩

theorem pruned_gone_later :
    ∃ S S' : System ℕ Collector World Call Answer (Except String Unit),
      smallVersion ∈ S.state.table ∧ (collecting hourly).Reachable S S' ∧
        smallVersion ∉ S'.state.table := by
  obtain ⟨S, hreach, hstate, hthread⟩ := exists_laterPass
  obtain ⟨next, next', hprune, hcommit⟩ : ∃ next next',
      laterPass.1 = .call (.query 1 (.prune "1 hours")) next ∧
        next (.ok ()) = .call (.query 1 .commit) next' := ⟨_, _, rfl, rfl⟩
  obtain ⟨t, ht, hstart⟩ : ∃ t, laterPass.2.2.transactions 1 = some t ∧ t.start = 86400000000000 :=
    ⟨_, rfl, rfl⟩
  rw [hprune] at hthread
  rw [← hstate] at ht
  have hmem : smallVersion ∈ S.state.table := by
    rw [hstate]
    decide +kernel
  -- the `DELETE`, and the commit, whose answer is lost
  let e₁ : Exchange := ⟨.query 1 (.prune "1 hours"), .ok ()⟩
  let e₂ : Exchange := ⟨.query 1 .commit, .error "connection lost"⟩
  let S₁ : System ℕ Collector World Call Answer (Except String Unit) :=
    ⟨S.state.executed hourly 1 t (.prune "1 hours"), Function.update S.thread 1
      (some ⟨smallCollector, .call (.query 1 .commit) next', laterPass.2.1 ++ [e₁]⟩)⟩
  obtain ⟨t₁, ht₁⟩ : ∃ t₁, S₁.state.transactions 1 = some t₁ := by
    simp [S₁, World.executed]
  have h₁ : (collecting hourly).Exchanges 1 e₁ S S₁ := by
    refine ⟨_, ⟨_, next (.ok ()), _⟩, hthread, .intro (e := e₁) _ next _, ⟨t, ht, rfl⟩, ?_⟩
    rw [hcommit]
  have h₂ : (collecting hourly).Exchanges 1 e₂ S₁ ⟨S₁.state.executed hourly 1 t₁ .commit, _⟩ :=
    ⟨⟨smallCollector, .call (.query 1 .commit) next', laterPass.2.1 ++ [e₁]⟩, _,
      by simp only [S₁, Function.update_self], .intro (e := e₂) _ next' _, .executed ht₁, rfl⟩
  refine ⟨S, _, hmem, (Relation.ReflTransGen.single (.exchange 1 _ h₁)).tail (.exchange 1 _ h₂), ?_⟩
  refine pruned_gone hreach (.exchange 1 _ h₁) (executes_of_ok (u := ()) ⟨t, ht, rfl⟩) .refl
    (.exchange 1 _ h₂) ⟨S₁.state, t₁, .inl rfl, ht₁, rfl⟩ .refl ht
    (List.mem_append_left _ hmem) ?_
  rw [hstart]
  decide

/-! ## Fields of a text -/

section fields

variable {α : Type}

theorem mem_intercalate_of_mem {sep l : List α} {ls : List (List α)} (hl : l ∈ ls) {a : α}
    (ha : a ∈ l) : a ∈ sep.intercalate ls := by
  induction ls with
  | nil => cases hl
  | cons first rest ih =>
    by_cases hrest : rest = []
    · subst hrest
      obtain rfl := List.mem_singleton.mp hl
      rwa [List.intercalate_singleton]
    · rw [List.intercalate_cons_of_ne_nil hrest]
      rcases List.mem_cons.mp hl with rfl | hl
      · exact List.mem_append_left _ (List.mem_append_left _ ha)
      · exact List.mem_append_right _ (ih hl)

theorem mem_of_mem_intercalate {sep : List α} {ls : List (List α)} {a : α}
    (ha : a ∈ sep.intercalate ls) : a ∈ sep ∨ ∃ l ∈ ls, a ∈ l := by
  induction ls with
  | nil => cases ha
  | cons first rest ih =>
    by_cases hrest : rest = []
    · subst hrest
      rw [List.intercalate_singleton] at ha
      exact .inr ⟨first, List.mem_singleton_self _, ha⟩
    · rw [List.intercalate_cons_of_ne_nil hrest] at ha
      rcases List.mem_append.mp ha with ha | ha
      · rcases List.mem_append.mp ha with ha | ha
        · exact .inr ⟨first, List.mem_cons_self .., ha⟩
        · exact .inl ha
      · exact (ih ha).imp_right fun ⟨l, hl, hal⟩ => ⟨l, List.mem_cons_of_mem _ hl, hal⟩

/-- A list is cut at its last marked element in one way only. -/
theorem eq_of_last_marked {P : α → Prop} {xs xs' ys ys' : List α} {a a' : α}
    (h : xs ++ a :: ys = xs' ++ a' :: ys') (ha : P a) (ha' : P a') (hys : ∀ y ∈ ys, ¬P y)
    (hys' : ∀ y ∈ ys', ¬P y) : xs = xs' ∧ a = a' ∧ ys = ys' := by
  rcases List.append_eq_append_iff.mp h with ⟨cs, rfl, hcs⟩ | ⟨cs, rfl, hcs⟩
  · cases cs with
    | nil =>
      obtain ⟨rfl, rfl⟩ := List.cons.inj hcs
      exact ⟨(List.append_nil _).symm, rfl, rfl⟩
    | cons c cs =>
      obtain ⟨rfl, rfl⟩ := List.cons.inj hcs
      exact absurd ha' (hys a' (by simp))
  · cases cs with
    | nil =>
      obtain ⟨rfl, rfl⟩ := List.cons.inj hcs
      exact ⟨List.append_nil _, rfl, rfl⟩
    | cons c cs =>
      obtain ⟨rfl, rfl⟩ := List.cons.inj hcs
      exact absurd ha (hys' a (by simp))

end fields

/-! ## The key of an observation -/

/-- `observationKey` of the cube; `text` is the cast `collected_at::text`. -/
def observationKey (text : ℤ → String) (row : Row) : String :=
  row.clusterName ++ ":" ++ row.resourceKind ++ ":" ++ row.ns ++ ":" ++ row.resourceName ++ ":" ++
    text row.collectedAt

/-- The names in a cluster are as Kubernetes has them. -/
structure Cluster.Named (k : Cluster) : Prop where
  nodes : ∀ node ∈ k.nodes, Kube.IsSubdomain node.name
  pods : ∀ pod ∈ k.pods, Kube.IsSubdomain pod.ns ∧ Kube.IsSubdomain pod.name
  nodeNames : (k.nodes.map fun node => node.name).Nodup
  podNames : (k.pods.map fun pod => (pod.ns, pod.name)).Nodup

/-- A row is about a node or a pod, with names as Kubernetes has them. -/
structure Row.Named (row : Row) : Prop where
  kind : row.resourceKind = "Node" ∨ row.resourceKind = "Pod"
  ns : row.ns = "" ∨ Kube.IsSubdomain row.ns
  name : Kube.IsSubdomain row.resourceName

/-- The text of a time has no lower-case letters. -/
def Digital (text : ℤ → String) : Prop := ∀ t, ∀ ch ∈ (text t).toList, ch.isLower = false

theorem character_of_isSubdomain {s : String} (h : Kube.IsSubdomain s) {ch : Char}
    (hch : ch ∈ s.toList) : Kube.isLabelCharacter ch = true ∨ ch = '.' := by
  have hsplit : ['.'].intercalate (s.toList.splitOn '.') = s.toList := List.intercalate_splitOn ..
  rw [← hsplit] at hch
  rcases mem_of_mem_intercalate hch with hdot | ⟨l, hl, hch⟩
  · exact .inr (List.mem_singleton.mp hdot)
  · exact .inl ((h.labels l hl).characters ch hch)

theorem colon_not_mem_of_isSubdomain {s : String} (h : Kube.IsSubdomain s) : ':' ∉ s.toList := by
  intro hmem
  rcases character_of_isSubdomain h hmem with h | h <;> revert h <;> decide

/-- The fields of a key that are kinds. -/
def IsKind (field : List Char) : Prop := field = "Node".toList ∨ field = "Pod".toList

theorem not_isKind_of_isSubdomain {s : String} (h : Kube.IsSubdomain s) : ¬IsKind s.toList := by
  rintro (hs | hs)
  · have hch := character_of_isSubdomain h (show 'N' ∈ s.toList by simp [hs])
    revert hch
    decide
  · have hch := character_of_isSubdomain h (show 'P' ∈ s.toList by simp [hs])
    revert hch
    decide

theorem not_isKind_of_digital {text : ℤ → String} (h : Digital text) {t : ℤ} {field : List Char}
    (hfield : field ∈ (text t).toList.splitOn ':') : ¬IsKind field := by
  intro hkind
  have ho : 'o' ∈ field := by
    rcases hkind with rfl | rfl <;> simp
  have hmem : 'o' ∈ [':'].intercalate ((text t).toList.splitOn ':') :=
    mem_intercalate_of_mem hfield ho
  rw [List.intercalate_splitOn] at hmem
  have hlower := h t 'o' hmem
  revert hlower
  decide

/-- The fields of a key, separated by colons. -/
theorem splitOn_observationKey {text : ℤ → String} {row : Row} (h : row.Named) :
    (observationKey text row).toList.splitOn ':' =
      row.clusterName.toList.splitOn ':' ++ row.resourceKind.toList ::
        (row.ns.toList :: row.resourceName.toList :: (text row.collectedAt).toList.splitOn ':') := by
  have hkind : ':' ∉ row.resourceKind.toList := by
    rcases h.kind with hk | hk <;> rw [hk] <;> decide
  have hns : ':' ∉ row.ns.toList := by
    rcases h.ns with hns | hns
    · simp [hns]
    · exact colon_not_mem_of_isSubdomain hns
  have hname := colon_not_mem_of_isSubdomain h.name
  have hlist : (observationKey text row).toList =
      row.clusterName.toList ++ ':' :: (row.resourceKind.toList ++ ':' :: (row.ns.toList ++
        ':' :: (row.resourceName.toList ++ ':' :: (text row.collectedAt).toList))) := by
    simp [observationKey, String.toList_append]
  rw [hlist, List.splitOn_append_cons_self, List.splitOn_append_cons_self_of_not_mem hkind,
    List.splitOn_append_cons_self_of_not_mem hns, List.splitOn_append_cons_self_of_not_mem hname]

/-- What a row is about. -/
def resource (row : Row) : String × String × String :=
  (row.resourceKind, row.ns, row.resourceName)

/-- A key tells the cluster, the resource and the time. -/
theorem eq_of_observationKey {text : ℤ → String} (htext : Digital text) {row row' : Row}
    (h : row.Named) (h' : row'.Named)
    (hinjective : text row.collectedAt = text row'.collectedAt → row.collectedAt = row'.collectedAt)
    (heq : observationKey text row = observationKey text row') :
    row.clusterName = row'.clusterName ∧ resource row = resource row' ∧
      row.collectedAt = row'.collectedAt := by
  have hfields := congrArg (fun s => s.toList.splitOn ':') heq
  simp only [splitOn_observationKey h, splitOn_observationKey h'] at hfields
  have hkind : ∀ {r : Row}, r.Named → IsKind r.resourceKind.toList := fun hr =>
    hr.kind.imp (congrArg String.toList) (congrArg String.toList)
  -- No field after the kind is a kind.
  have hrest : ∀ {r : Row}, r.Named → ∀ field ∈ r.ns.toList :: r.resourceName.toList ::
      (text r.collectedAt).toList.splitOn ':', ¬IsKind field := by
    intro r hr field hfield
    rcases List.mem_cons.mp hfield with rfl | hfield
    · rcases hr.ns with hns | hns
      · rw [hns]
        rintro (h | h) <;> cases h
      · exact not_isKind_of_isSubdomain hns
    rcases List.mem_cons.mp hfield with rfl | hfield
    · exact not_isKind_of_isSubdomain hr.name
    · exact not_isKind_of_digital htext hfield
  obtain ⟨hcluster, hkinds, htail⟩ := eq_of_last_marked hfields (hkind h) (hkind h') (hrest h) (hrest h')
  obtain ⟨hns, htail⟩ := List.cons.inj htail
  obtain ⟨hname, htime⟩ := List.cons.inj htail
  have hjoin : ∀ {l l' : List Char}, l.splitOn ':' = l'.splitOn ':' → l = l' := by
    intro l l' hl
    have hsplit : [':'].intercalate (l.splitOn ':') = l := List.intercalate_splitOn ..
    rw [← hsplit, hl, List.intercalate_splitOn]
  refine ⟨String.toList_injective (hjoin hcluster), ?_, hinjective (String.toList_injective (hjoin htime))⟩
  exact Prod.ext (String.toList_injective hkinds)
    (Prod.ext (String.toList_injective hns) (String.toList_injective hname))

/-! ## The keys in the table -/

/-- The lists of a pass are lists of the cluster. -/
theorem named_of_observed {p : Pass} {history : List Cluster} (h : p.Observed history)
    (hnamed : ∀ k ∈ history, k.Named) :
    (∀ node ∈ p.nodes, Kube.IsSubdomain node.name) ∧
      (∀ pod ∈ p.pods, Kube.IsSubdomain pod.ns ∧ Kube.IsSubdomain pod.name) ∧
      (p.nodes.map fun node => node.name).Nodup ∧
      (p.pods.map fun pod => (pod.ns, pod.name)).Nodup := by
  obtain ⟨k, l, k', l', h₁, h₂, hnodes, hpods⟩ := h
  have hk := hnamed k ((h₁.trans h₂).subset (List.mem_cons_self ..))
  have hk' := hnamed k' (h₂.subset (List.mem_cons_self ..))
  rw [← hnodes, ← hpods]
  exact ⟨hk.nodes, hk'.pods, hk.nodeNames, hk'.podNames⟩

/-- A pass has one row for each resource, with a name as Kubernetes has them. -/
theorem resources_of_pass {p : Pass} {c : Collector} {history : List Cluster}
    (h : p.Observed history) (hnamed : ∀ k ∈ history, k.Named) :
    (∀ v ∈ p.versions c, v.row.Named) ∧
      ((p.versions c).map fun v => resource v.row).Nodup := by
  obtain ⟨hnodes, hpods, hnodeNames, hpodNames⟩ := named_of_observed h hnamed
  constructor
  · intro v hv
    obtain ⟨row, hrow, rfl⟩ := List.mem_map.mp hv
    obtain ⟨node, hnode, rfl⟩ | ⟨pod, hpod, rfl⟩ :=
      (List.mem_append.mp hrow).imp List.mem_map.mp List.mem_map.mp
    · exact ⟨.inl rfl, .inl rfl, hnodes node hnode⟩
    · exact ⟨.inr rfl, .inr (hpods pod hpod).1, (hpods pod hpod).2⟩
  · have hmap : ((p.versions c).map fun v => resource v.row) =
        (p.nodes.map fun node => ("Node", "", node.name)) ++
          p.pods.map fun pod => ("Pod", pod.ns, pod.name) := by
      simp only [Pass.versions, rows, List.map_append, List.map_map]
      rfl
    rw [hmap]
    refine List.Nodup.append ?_ ?_ ?_
    · refine List.Nodup.of_map (fun r => r.2.2) ?_
      simpa [List.map_map, Function.comp_def] using hnodeNames
    · refine List.Nodup.of_map (fun r => r.2) ?_
      simpa [List.map_map, Function.comp_def] using hpodNames
    · intro r hnode hpod
      obtain ⟨node, -, rfl⟩ := List.mem_map.mp hnode
      obtain ⟨pod, -, heq⟩ := List.mem_map.mp hpod
      have hkind : "Pod" = "Node" := congrArg Prod.fst heq
      exact absurd hkind (by decide)

/-- A list is without duplicates when each of its groups is. -/
theorem nodup_of_inserted {table : List Version} (h : ∀ x, (inserted x table).Nodup) :
    table.Nodup := by
  refine List.nodup_iff_count_le_one.mpr fun v => ?_
  have hcount := List.nodup_iff_count_le_one.mp (h v.xmin) v
  rwa [inserted, List.count_filter (by simp)] at hcount

/-- As long as no two passes of one cluster are of one microsecond, the key is a key of
    the table. -/
theorem observationKey_unique {text : ℤ → String} (htext : Digital text)
    (h : (collecting f).Reachable (Environment.idle (World.initial k)) S)
    (hnamed : ∀ k ∈ S.state.history, k.Named)
    (hinjective : ∀ v ∈ S.state.table, ∀ v' ∈ S.state.table,
      text v.row.collectedAt = text v'.row.collectedAt → v.row.collectedAt = v'.row.collectedAt)
    (hapart : ∀ v ∈ S.state.table, ∀ v' ∈ S.state.table,
      v.row.clusterName = v'.row.clusterName → v.row.collectedAt = v'.row.collectedAt →
      v.xmin = v'.xmin) :
    (S.state.table.map fun v => observationKey text v.row).Nodup := by
  have hgroup : ∀ x, (∀ v ∈ inserted x S.state.table, v.row.Named) ∧
      ((inserted x S.state.table).map fun v => resource v.row).Nodup := by
    intro x
    rcases (invariant h).1.whole x with hnil | ⟨c, p, -, hobserved, hversions⟩
    · rw [hnil]
      exact ⟨by simp, List.nodup_nil⟩
    · rw [hversions]
      exact resources_of_pass hobserved hnamed
  refine List.Nodup.map_on ?_ (nodup_of_inserted fun x => (hgroup x).2.of_map _)
  intro v hv v' hv' hkey
  have hrow := (hgroup v.xmin).1 v (mem_inserted.mpr ⟨hv, rfl⟩)
  have hrow' := (hgroup v'.xmin).1 v' (mem_inserted.mpr ⟨hv', rfl⟩)
  obtain ⟨hcluster, hresource, htime⟩ :=
    eq_of_observationKey htext hrow hrow' (hinjective v hv v' hv') hkey
  have hxmin := hapart v hv v' hv' hcluster htime
  exact List.inj_on_of_nodup_map (hgroup v.xmin).2 (mem_inserted.mpr ⟨hv, rfl⟩)
    (mem_inserted.mpr ⟨hv', hxmin.symm⟩) hresource

theorem named_smallCluster : smallCluster.Named := by
  refine ⟨fun node hnode => ?_, fun pod hpod => ?_, by decide, by decide⟩
  · obtain rfl := List.mem_singleton.mp hnode
    exact Kube.isSubdomain_of_dnsLabel
      ⟨List.all_eq_true.mp (by decide), by decide, by decide⟩ (by decide)
  · obtain rfl := List.mem_singleton.mp hpod
    exact ⟨Kube.isSubdomain_of_dnsLabel
        ⟨List.all_eq_true.mp (by decide), by decide, by decide⟩ (by decide),
      Kube.isSubdomain_of_dnsLabel
        ⟨List.all_eq_true.mp (by decide), by decide, by decide⟩ (by decide)⟩

theorem observationKey_unique_small :
    ∃ S : System ℕ Collector World Call Answer (Except String Unit), S.state.table.length = 2 ∧
      (S.state.table.map fun v => observationKey (fun _ => "1970-01-01 00:00:00+00") v.row).Nodup := by
  obtain ⟨S, run, hreach, -, -, -, -, hstate⟩ := exists_smallPass
  have htable : S.state.table = smallPass.2.2.table := by rw [hstate]
  have htimes : ∀ v ∈ S.state.table, v.row.collectedAt = 0 ∧ v.xmin = 0 := by
    rw [htable]
    decide +kernel
  refine ⟨S, by rw [htable]; decide +kernel, observationKey_unique ?_ hreach ?_ ?_ ?_⟩
  · have hall : "1970-01-01 00:00:00+00".toList.all (fun ch => !ch.isLower) = true := by
      decide +kernel
    exact fun _ ch hch => by simpa using List.all_eq_true.mp hall ch hch
  · intro k hk
    rw [hstate] at hk
    obtain rfl : k = smallCluster := List.mem_singleton.mp hk
    exact named_smallCluster
  · intro v hv v' hv' _
    rw [(htimes v hv).1, (htimes v' hv').1]
  · intro v hv v' hv' _ _
    rw [(htimes v hv).2, (htimes v' hv').2]

end CubeOperator.Telemetry.Collection
