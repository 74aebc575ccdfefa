import CubeOperator.Telemetry.Collector
import Mathlib.Data.List.Infix

/-! # Whole snapshots

    Collectors are stopped and started at any time, their statements fail, are executed
    although they failed, or arrive late.  Still the table holds the rows of a pass
    together or not at all, and what a pass has stored stays until rows of its time are
    deleted. -/

namespace CubeOperator.Telemetry.Collection

open Interaction

variable {f : Formats} {c : Collector}

/-! ## Passes -/

/-- What the calls of a pass were answered, up to its transaction. -/
structure Pass where
  nodes : List Node
  pods : List Pod
  now : ℤ
  tx : ℕ

namespace Pass

variable (p : Pass)

/-- The row versions that the pass inserts. -/
def versions (c : Collector) : List Version :=
  (Collection.rows c p.now p.nodes p.pods).map fun row => ⟨p.tx, row.encode⟩

/-- The exchanges up to the transaction. -/
def begun : List Exchange :=
  [⟨.schema, .ok ()⟩, ⟨.listNodes, .ok p.nodes⟩, ⟨.listPods, .ok p.pods⟩, ⟨.now, p.now⟩,
    ⟨.begin, .ok p.tx⟩]

def copied (c : Collector) : List Exchange :=
  p.begun ++ [⟨.query p.tx (.copyFrom (Collection.rows c p.now p.nodes p.pods)), .ok ()⟩]

def pruned (f : Formats) (c : Collector) : List Exchange :=
  p.copied c ++ [⟨.query p.tx (.prune (retentionText f c)), .ok ()⟩]

def committed (f : Formats) (c : Collector) : List Exchange :=
  p.pruned f c ++ [⟨.query p.tx .commit, .ok ()⟩]

/-- The pass listed the nodes, and then the pods, as they were. -/
def Observed (history : List Cluster) : Prop :=
  ∃ k h k' h', k :: h <:+ k' :: h' ∧ k' :: h' <:+ history ∧ k.nodes = p.nodes ∧ k'.pods = p.pods

variable {p}

theorem Observed.mono {history history' : List Cluster} (h : p.Observed history)
    (hsuffix : history <:+ history') : p.Observed history' := by
  obtain ⟨k, l, k', l', hnodes, hpods, hsame⟩ := h
  exact ⟨k, l, k', l', hnodes, hpods.trans hsuffix, hsame⟩

theorem mem_begun : (⟨.begin, .ok p.tx⟩ : Exchange) ∈ p.begun := by
  simp [begun]

theorem eq_of_prefix {q : Pass} {rest : List Exchange} (h : q.begun <+: p.begun ++ rest) : q = p := by
  obtain ⟨nodes, pods, now, tx⟩ := q
  obtain ⟨nodes', pods', now', tx'⟩ := p
  simp only [begun, List.cons_append, List.cons_prefix_cons, Sigma.mk.injEq, heq_eq_eq,
    Except.ok.injEq, true_and] at h
  obtain ⟨rfl, rfl, rfl, rfl, -⟩ := h
  rfl

theorem begun_prefix_committed (p : Pass) (f : Formats) (c : Collector) :
    p.begun <+: p.committed f c :=
  ((List.prefix_append _ _).trans (List.prefix_append _ _)).trans (List.prefix_append _ _)

theorem collectedAt_of_mem_versions {v : Version} (h : v ∈ p.versions c) :
    v.row.collectedAt = micro p.now := by
  obtain ⟨row, hrow, rfl⟩ := List.mem_map.mp h
  obtain ⟨node, -, rfl⟩ | ⟨pod, -, rfl⟩ :=
    (List.mem_append.mp hrow).imp List.mem_map.mp List.mem_map.mp
  · rfl
  · rfl

end Pass

/-! ## What a pass may do -/

/-- The exchanges of a pass, given those before. -/
def Allowed (f : Formats) (c : Collector) (log : List Exchange) (e : Exchange) : Prop :=
  match e.1 with
  | .listNodes => log = [⟨.schema, .ok ()⟩]
  | .listPods => ∃ nodes, log = [⟨.schema, .ok ()⟩, ⟨.listNodes, .ok nodes⟩]
  | .begin => ∃ p : Pass, log = p.begun.dropLast
  | .query tx (.copyFrom rows) =>
    ∃ p : Pass, log = p.begun ∧ tx = p.tx ∧ rows = Collection.rows c p.now p.nodes p.pods
  | .query tx (.prune text) => ∃ p : Pass, log = p.copied c ∧ tx = p.tx ∧ text = retentionText f c
  | .query tx .commit => ∃ p : Pass, log = p.pruned f c ∧ tx = p.tx
  | .rollback tx => ∃ p : Pass, p.begun <+: log ∧ tx = p.tx
  | _ => True

/-- How a pass ends. -/
inductive Ends (f : Formats) (c : Collector) : List Exchange → Except String Unit → Prop where
  | early {log : List Exchange} {e : String} :
      (∀ x, ⟨.begin, .ok x⟩ ∉ log) → Ends f c log (.error e)
  | failed {log : List Exchange} {e : String} (p : Pass) : p.begun <+: log →
      (∀ r, ⟨.query p.tx .commit, r⟩ ∉ log) → Ends f c log (.error e)
  /-- The commit failed, or its answer was lost. -/
  | unanswered {e : String} (p : Pass) :
      Ends f c (p.pruned f c ++ [⟨.query p.tx .commit, .error e⟩, ⟨.rollback p.tx, ()⟩]) (.error e)
  | committed (p : Pass) : Ends f c (p.committed f c ++ [⟨.rollback p.tx, ()⟩]) (.ok ())

/-- A part of a pass that continues the exchanges `log`, up to the end of the pass. -/
abbrev Keeps {α : Type} (f : Formats) (c : Collector) (p : Op α) (log : List Exchange)
    (Q : α → List Exchange → Prop) : Prop :=
  Ensures (fun log e log' => log' = log ++ [e]) (fun log e _ => Allowed f c log e) Q p log

theorem keeps_transact (p : Pass) :
    Keeps f c (transact f c p.tx (rows c p.now p.nodes p.pods)).run p.begun
      fun r log => Ends f c log r := by
  unfold transact
  -- Every way out of the transaction ends with the rollback.
  refine Ensures.seq (R := fun r log => p.begun <+: log ∧ Ends f c (log ++ [⟨.rollback p.tx, ()⟩]) r)
    ?_ ?_
  · rintro (e | ⟨⟩) _ rfl
    · refine ⟨⟨p, rfl, rfl, rfl⟩, List.prefix_append .., .failed p ?_ (by simp [Pass.begun])⟩
      exact (List.prefix_append ..).trans (List.prefix_append ..)
    refine ⟨⟨p, rfl, rfl, rfl⟩, ?_⟩
    have hcopied : p.begun <+: p.copied c := List.prefix_append ..
    rintro (e | ⟨⟩) _ rfl
    · refine ⟨⟨p, rfl, rfl, rfl⟩, hcopied.trans (List.prefix_append ..), .failed p ?_ ?_⟩
      · exact (hcopied.trans (List.prefix_append ..)).trans (List.prefix_append ..)
      · simp [Pass.begun]
    refine ⟨⟨p, rfl, rfl, rfl⟩, ?_⟩
    have hpruned : p.begun <+: p.pruned f c := hcopied.trans (List.prefix_append ..)
    rintro (e | ⟨⟩) _ rfl
    · exact ⟨⟨p, rfl, rfl⟩, hpruned.trans (List.prefix_append ..), .unanswered p⟩
    · exact ⟨⟨p, rfl, rfl⟩, hpruned.trans (List.prefix_append ..), .committed p⟩
  · rintro r log ⟨hlog, hends⟩ u _ rfl
    exact ⟨⟨p, hlog, rfl⟩, hends⟩

theorem keeps_collect (f : Formats) (c : Collector) :
    Keeps f c (collect f c).run [] fun r log => Ends f c log r := by
  rintro (e | ⟨⟩) _ rfl
  · exact ⟨trivial, .early (by simp)⟩
  refine ⟨trivial, ?_⟩
  rintro (e | nodes) _ rfl
  · exact ⟨rfl, .early (by simp)⟩
  refine ⟨rfl, ?_⟩
  rintro (e | pods) _ rfl
  · exact ⟨⟨nodes, rfl⟩, .early (by simp)⟩
  refine ⟨⟨nodes, rfl⟩, ?_⟩
  rintro now _ rfl
  refine ⟨trivial, ?_⟩
  rintro (e | tx) _ rfl
  · exact ⟨⟨⟨nodes, pods, now, 0⟩, rfl⟩, .early (by simp)⟩
  exact ⟨⟨⟨nodes, pods, now, tx⟩, rfl⟩, keeps_transact ⟨nodes, pods, now, tx⟩⟩

/-! ## The database -/

/-- The row versions that the transaction `x` inserted. -/
def inserted (x : ℕ) (table : List Version) : List Version := table.filter fun v => v.xmin = x

/-- The rows of one pass, in its transaction. -/
def IsSnapshot (history : List Cluster) (x : ℕ) (versions : List Version) : Prop :=
  ∃ (c : Collector) (p : Pass), p.tx = x ∧ p.Observed history ∧ versions = p.versions c

/-- What is known of an open transaction. -/
structure Open (w : World) (x : ℕ) (t : Transaction) : Prop where
  unpublished : ∀ v ∈ w.table, v.xmin ≠ x
  own : ∀ v ∈ t.inserted, v.xmin = x
  sameTime : ∀ v ∈ t.inserted, ∀ v' ∈ t.inserted, v.row.collectedAt = v'.row.collectedAt
  /-- What is marked is its own or committed. -/
  marked : ∀ v ∈ t.deleted, v.xmin = x ∨ v.xmin < w.next ∧ w.transactions v.xmin = none
  /-- What one transaction inserted is marked together. -/
  together : ∀ v ∈ t.deleted, ∀ v' ∈ w.visible t, v'.xmin = v.xmin → v' ∈ t.deleted
  expired : ∀ v ∈ t.deleted, ∃ cutoff ∈ t.cutoffs, v.row.collectedAt < cutoff

/-- What has to hold of a transaction when a statement is executed in it. -/
def Prepared (history : List Cluster) (x : ℕ) (t : Transaction) : Statement → Prop
  | .copyFrom rows => t.inserted = [] ∧ t.deleted = [] ∧ ∃ now, ∀ row ∈ rows, row.collectedAt = now
  | .prune _ => True
  | .commit => IsSnapshot history x t.inserted

structure World.Sound (w : World) : Prop where
  published : ∀ v ∈ w.table, v.xmin < w.next
  issued : ∀ x t, w.transactions x = some t → x < w.next
  opened : ∀ x t, w.transactions x = some t → Open w x t
  whole : ∀ x, inserted x w.table = [] ∨ IsSnapshot w.history x (inserted x w.table)
  /-- At most one statement of a transaction is on its way. -/
  single : (w.pending.map Prod.fst).Nodup
  prepared : ∀ x statement, (x, statement) ∈ w.pending → x < w.next ∧
    ∀ t, w.transactions x = some t → Prepared w.history x t statement

/-- No statement of the transaction is on its way. -/
def World.Free (w : World) (x : ℕ) : Prop := ∀ statement, (x, statement) ∉ w.pending

theorem mem_inserted {x : ℕ} {table : List Version} {v : Version} :
    v ∈ inserted x table ↔ v ∈ table ∧ v.xmin = x := by
  simp [inserted]

theorem inserted_eq_nil {x : ℕ} {table : List Version} (h : ∀ v ∈ table, v.xmin ≠ x) :
    inserted x table = [] := by
  simpa [inserted] using h

theorem inserted_eq_self {x : ℕ} {table : List Version} (h : ∀ v ∈ table, v.xmin = x) :
    inserted x table = table := by
  simpa [inserted] using h

theorem inserted_append (x : ℕ) (table table' : List Version) :
    inserted x (table ++ table') = inserted x table ++ inserted x table' := List.filter_append ..

theorem IsSnapshot.mono {history history' : List Cluster} {x : ℕ} {versions : List Version}
    (h : IsSnapshot history x versions) (hsuffix : history <:+ history') :
    IsSnapshot history' x versions := by
  obtain ⟨c, p, htx, hobserved, hversions⟩ := h
  exact ⟨c, p, htx, hobserved.mono hsuffix, hversions⟩

theorem Prepared.mono {history history' : List Cluster} {x : ℕ} {t : Transaction}
    {statement : Statement} (h : Prepared history x t statement) (hsuffix : history <:+ history') :
    Prepared history' x t statement := by
  cases statement with
  | commit => exact IsSnapshot.mono h hsuffix
  | _ => exact h

namespace World.Sound

variable {w : World} {x : ℕ} {t : Transaction} {statement : Statement}

/-- All that a transaction has in the table is of one time. -/
theorem sameTime (h : w.Sound) {v v' : Version} (hv : v ∈ w.table) (hv' : v' ∈ w.table)
    (hxmin : v'.xmin = v.xmin) : v'.row.collectedAt = v.row.collectedAt := by
  have hmem : v ∈ inserted v.xmin w.table := mem_inserted.mpr ⟨hv, rfl⟩
  have hmem' : v' ∈ inserted v.xmin w.table := mem_inserted.mpr ⟨hv', hxmin⟩
  rcases h.whole v.xmin with hnil | ⟨c, p, -, -, hversions⟩
  · rw [hnil] at hmem
    cases hmem
  · rw [hversions] at hmem hmem'
    rw [Pass.collectedAt_of_mem_versions hmem, Pass.collectedAt_of_mem_versions hmem']

theorem initial (k : Cluster) : (World.initial k).Sound where
  published := by simp [World.initial]
  issued := by simp [World.initial]
  opened := by simp [World.initial]
  whole x := .inl rfl
  single := List.nodup_nil
  prepared := by simp [World.initial]

theorem cluster (h : w.Sound) (k : Cluster) : World.Sound { w with history := k :: w.history } where
  published := h.published
  issued := h.issued
  opened x t ht := by
    obtain ⟨h₁, h₂, h₃, h₄, h₅, h₆⟩ := h.opened x t ht
    exact ⟨h₁, h₂, h₃, h₄, h₅, h₆⟩
  whole x := (h.whole x).imp_right fun hwhole => hwhole.mono (List.suffix_cons ..)
  single := h.single
  prepared x statement hmem := by
    obtain ⟨hlt, hprepared⟩ := h.prepared x statement hmem
    exact ⟨hlt, fun t ht => (hprepared t ht).mono (List.suffix_cons ..)⟩

/-- Fewer open transactions. -/
theorem rolledBack (h : w.Sound) (x : ℕ) : (w.rolledBack x).Sound := by
  have hopen : ∀ y t, (w.rolledBack x).transactions y = some t → w.transactions y = some t := by
    intro y t ht
    by_cases hy : y = x
    · subst hy
      simp [World.rolledBack] at ht
    · simpa [World.rolledBack, hy] using ht
  refine ⟨h.published, fun y t ht => h.issued y t (hopen y t ht), fun y t ht => ?_, h.whole,
    h.single, fun y statement hmem => ?_⟩
  · obtain ⟨h₁, h₂, h₃, h₄, h₅, h₆⟩ := h.opened y t (hopen y t ht)
    refine ⟨h₁, h₂, h₃, fun v hv => ?_, h₅, h₆⟩
    refine (h₄ v hv).imp_right fun ⟨hlt, hnone⟩ => ⟨hlt, ?_⟩
    by_cases hv : v.xmin = x
    · simp [World.rolledBack, hv]
    · simpa [World.rolledBack, hv] using hnone
  · obtain ⟨hlt, hprepared⟩ := h.prepared y statement hmem
    exact ⟨hlt, fun t ht => hprepared t (hopen y t ht)⟩

theorem beginning (h : w.Sound) (start : ℤ) : (w.opened start).Sound where
  published v hv := Nat.lt_succ_of_lt (h.published v hv)
  issued x t ht := by
    by_cases hx : x = w.next
    · subst hx
      exact Nat.lt_succ_self _
    · exact Nat.lt_succ_of_lt (h.issued x t (by simpa [World.opened, hx] using ht))
  opened x t ht := by
    by_cases hx : x = w.next
    · subst hx
      obtain rfl : { start } = t := by simpa [World.opened] using ht
      refine ⟨fun v hv => Nat.ne_of_lt (h.published v hv), ?_, ?_, ?_, ?_, ?_⟩ <;> simp
    · obtain ⟨h₁, h₂, h₃, h₄, h₅, h₆⟩ := h.opened x t (by simpa [World.opened, hx] using ht)
      refine ⟨h₁, h₂, h₃, fun v hv => ?_, h₅, h₆⟩
      refine (h₄ v hv).imp_right fun ⟨hlt, hnone⟩ => ⟨Nat.lt_succ_of_lt hlt, ?_⟩
      simpa [World.opened, Nat.ne_of_lt hlt] using hnone
  whole := h.whole
  single := h.single
  prepared x statement hmem := by
    obtain ⟨hlt, hprepared⟩ := h.prepared x statement hmem
    refine ⟨Nat.lt_succ_of_lt hlt, fun t ht => hprepared t ?_⟩
    simpa [World.opened, Nat.ne_of_lt hlt] using ht

theorem leaving (h : w.Sound) (hfree : w.Free x) (hlt : x < w.next)
    (hprepared : ∀ t, w.transactions x = some t → Prepared w.history x t statement) :
    World.Sound { w with pending := (x, statement) :: w.pending } where
  published := h.published
  issued := h.issued
  opened y t ht := by
    obtain ⟨h₁, h₂, h₃, h₄, h₅, h₆⟩ := h.opened y t ht
    exact ⟨h₁, h₂, h₃, h₄, h₅, h₆⟩
  whole := h.whole
  single := by
    refine List.nodup_cons.mpr ⟨fun hmem => ?_, h.single⟩
    obtain ⟨⟨y, other⟩, hother, rfl⟩ := List.mem_map.mp hmem
    exact hfree other hother
  prepared y other hmem := by
    rcases List.mem_cons.mp hmem with heq | hold
    · obtain ⟨rfl, rfl⟩ := Prod.mk.inj heq
      exact ⟨hlt, hprepared⟩
    · exact h.prepared y other hold

theorem arriving (h : w.Sound) (x : ℕ) (statement : Statement) : (w.arrived x statement).Sound where
  published := h.published
  issued := h.issued
  opened y t ht := by
    obtain ⟨h₁, h₂, h₃, h₄, h₅, h₆⟩ := h.opened y t ht
    exact ⟨h₁, h₂, h₃, h₄, h₅, h₆⟩
  whole := h.whole
  single := h.single.sublist (List.Sublist.map _ (List.erase_sublist ..))
  prepared y other hmem := h.prepared y other (List.mem_of_mem_erase hmem)

/-- An open transaction is changed. -/
theorem changing (h : w.Sound) (hfree : w.Free x) (ht : w.transactions x = some t)
    {t' : Transaction} (hopen : Open w x t') :
    World.Sound { w with transactions := Function.update w.transactions x (some t') } where
  published := h.published
  issued y u hu := by
    by_cases hy : y = x
    · subst hy
      exact h.issued y t ht
    · exact h.issued y u (by simpa [hy] using hu)
  opened y u hu := by
    have hnone : ∀ z, w.transactions z = none →
        Function.update w.transactions x (some t') z = none := by
      intro z hz
      have hne : z ≠ x := by
        rintro rfl
        simp [ht] at hz
      simpa [hne] using hz
    by_cases hy : y = x
    · subst hy
      obtain rfl : t' = u := by simpa using hu
      obtain ⟨h₁, h₂, h₃, h₄, h₅, h₆⟩ := hopen
      exact ⟨h₁, h₂, h₃, fun v hv => (h₄ v hv).imp_right (And.imp_right (hnone _)), h₅, h₆⟩
    · obtain ⟨h₁, h₂, h₃, h₄, h₅, h₆⟩ := h.opened y u (by simpa [hy] using hu)
      exact ⟨h₁, h₂, h₃, fun v hv => (h₄ v hv).imp_right (And.imp_right (hnone _)), h₅, h₆⟩
  whole := h.whole
  single := h.single
  prepared y other hmem := by
    have hy : y ≠ x := by
      rintro rfl
      exact hfree other hmem
    obtain ⟨hlt, hprepared⟩ := h.prepared y other hmem
    exact ⟨hlt, fun u hu => hprepared u (by simpa [hy] using hu)⟩

theorem copying (h : w.Sound) (hfree : w.Free x) (ht : w.transactions x = some t)
    {rows : List Row} (hprepared : Prepared w.history x t (.copyFrom rows)) :
    (w.executed f x t (.copyFrom rows)).Sound := by
  obtain ⟨hinserted, hdeleted, now, hnow⟩ := hprepared
  refine h.changing hfree ht ⟨(h.opened x t ht).unpublished, ?_, ?_, ?_, ?_, ?_⟩
  · intro v hv
    rw [hinserted, List.nil_append] at hv
    obtain ⟨row, -, rfl⟩ := List.mem_map.mp hv
    rfl
  · intro v hv v' hv'
    rw [hinserted, List.nil_append] at hv hv'
    obtain ⟨row, hrow, rfl⟩ := List.mem_map.mp hv
    obtain ⟨row', hrow', rfl⟩ := List.mem_map.mp hv'
    change micro row.collectedAt = micro row'.collectedAt
    rw [hnow row hrow, hnow row' hrow']
  -- Nothing is marked yet.
  · simp [hdeleted]
  · simp [hdeleted]
  · simp [hdeleted]

theorem pruning (h : w.Sound) (hfree : w.Free x) (ht : w.transactions x = some t) (text : String) :
    (w.executed f x t (.prune text)).Sound := by
  obtain ⟨h₁, h₂, h₃, h₄, h₅, h₆⟩ := h.opened x t ht
  -- All that one transaction inserted is of one time, so that the cutoff takes all or none.
  have htime : ∀ v ∈ w.visible t, ∀ v' ∈ w.visible t, v'.xmin = v.xmin →
      v'.row.collectedAt = v.row.collectedAt := by
    intro v hv v' hv' hxmin
    rcases List.mem_append.mp hv with hv | hv <;> rcases List.mem_append.mp hv' with hv' | hv'
    · exact h.sameTime hv hv' hxmin
    · exact absurd (hxmin.symm.trans (h₂ v' hv')) (h₁ v hv)
    · exact absurd (hxmin.trans (h₂ v hv)) (h₁ v' hv')
    · exact h₃ v' hv' v hv
  refine h.changing hfree ht ⟨h₁, h₂, h₃, fun v hv => ?_, fun v hv v' hv' hxmin => ?_,
    fun v hv => ?_⟩
  · rcases List.mem_append.mp hv with hv | hv
    · exact h₄ v hv
    rcases List.mem_append.mp (List.mem_filter.mp hv).1 with hv | hv
    · refine .inr ⟨h.published v hv, ?_⟩
      -- A transaction with rows in the table is not open.
      cases hopen : w.transactions v.xmin with
      | none => rfl
      | some u => exact absurd rfl ((h.opened _ u hopen).unpublished v hv)
    · exact .inl (h₂ v hv)
  · rcases List.mem_append.mp hv with hv | hv
    · exact List.mem_append_left _ (h₅ v hv v' hv' hxmin)
    · obtain ⟨hvisible, hold⟩ := List.mem_filter.mp hv
      refine List.mem_append_right _ (List.mem_filter.mpr ⟨hv', ?_⟩)
      rwa [htime v hvisible v' hv' hxmin]
  · rcases List.mem_append.mp hv with hv | hv
    · obtain ⟨cutoff, hmem, hlt⟩ := h₆ v hv
      exact ⟨cutoff, List.mem_cons_of_mem _ hmem, hlt⟩
    · exact ⟨_, List.mem_cons_self .., by simpa using (List.mem_filter.mp hv).2⟩

/-- A commit takes away what a transaction inserted, or leaves it. -/
theorem inserted_commit (h : w.Sound) (ht : w.transactions x = some t) (y : ℕ) :
    inserted y (w.executed f x t .commit).table = inserted y (w.visible t) ∨
      inserted y (w.executed f x t .commit).table = [] ∧
        ∀ v ∈ inserted y (w.visible t), ∃ cutoff ∈ t.cutoffs, v.row.collectedAt < cutoff := by
  have hopen := h.opened x t ht
  have hcommute : inserted y (w.executed f x t .commit).table =
      (inserted y (w.visible t)).filter fun v => v ∉ t.deleted := by
    simp only [inserted, World.executed, List.filter_filter]
    exact List.filter_congr fun v _ => Bool.and_comm ..
  by_cases hmarked : ∃ v ∈ inserted y (w.visible t), v ∈ t.deleted
  · obtain ⟨v, hv, hdeleted⟩ := hmarked
    have hall : ∀ v' ∈ inserted y (w.visible t), v' ∈ t.deleted := by
      intro v' hv'
      obtain ⟨hvisible, hxmin⟩ := mem_inserted.mp hv'
      exact hopen.together v hdeleted v' hvisible (hxmin.trans (mem_inserted.mp hv).2.symm)
    refine .inr ⟨?_, fun v' hv' => hopen.expired v' (hall v' hv')⟩
    rw [hcommute]
    simpa using hall
  · refine .inl ?_
    rw [hcommute]
    have hnone : ∀ v ∈ inserted y (w.visible t), v ∉ t.deleted :=
      fun v hv hdeleted => hmarked ⟨v, hv, hdeleted⟩
    simpa using hnone

theorem inserted_visible (h : w.Sound) (ht : w.transactions x = some t) (y : ℕ) :
    inserted y (w.visible t) = if y = x then t.inserted else inserted y w.table := by
  obtain ⟨h₁, h₂, -⟩ := h.opened x t ht
  rw [World.visible, inserted_append]
  split
  · rename_i hy
    rw [hy, inserted_eq_nil h₁, List.nil_append, inserted_eq_self h₂]
  · rename_i hy
    have hnone : inserted y t.inserted = [] :=
      inserted_eq_nil fun v hv hxmin => hy (hxmin.symm.trans (h₂ v hv))
    rw [hnone, List.append_nil]

theorem committing (h : w.Sound) (hfree : w.Free x) (ht : w.transactions x = some t)
    (hprepared : Prepared w.history x t .commit) : (w.executed f x t .commit).Sound := by
  obtain ⟨h₁, h₂, -⟩ := h.opened x t ht
  have hlt := h.issued x t ht
  have hclosed : ∀ y u, (w.executed f x t .commit).transactions y = some u →
      y ≠ x ∧ w.transactions y = some u := by
    intro y u hu
    have hy : y ≠ x := by
      rintro rfl
      simp [World.executed] at hu
    exact ⟨hy, by simpa [World.executed, hy] using hu⟩
  have htable : ∀ v ∈ (w.executed f x t .commit).table, v ∈ w.table ∨ v ∈ t.inserted :=
    fun v hv => List.mem_append.mp (List.mem_filter.mp hv).1
  constructor
  case published =>
    intro v hv
    rcases htable v hv with hv | hv
    · exact h.published v hv
    · rw [h₂ v hv]
      exact hlt
  case issued =>
    intro y u hu
    exact h.issued y u (hclosed y u hu).2
  case opened =>
    intro y u hu
    obtain ⟨hy, hu⟩ := hclosed y u hu
    obtain ⟨k₁, k₂, k₃, k₄, k₅, k₆⟩ := h.opened y u hu
    have hnone : ∀ z, w.transactions z = none →
        (w.executed f x t .commit).transactions z = none := by
      intro z hz
      by_cases hzx : z = x
      · simp [World.executed, hzx]
      · simpa [World.executed, hzx] using hz
    refine ⟨fun v hv => ?_, k₂, k₃, fun v hv => (k₄ v hv).imp_right (And.imp_right (hnone _)),
      fun v hv v' hv' hxmin => ?_, k₆⟩
    · rcases htable v hv with hv | hv
      · exact k₁ v hv
      · rw [h₂ v hv]
        exact Ne.symm hy
    · rcases List.mem_append.mp hv' with hv' | hv'
      · rcases htable v' hv' with hv' | hv'
        · exact k₅ v hv v' (List.mem_append_left _ hv') hxmin
        · -- `u` has marked nothing of a transaction that was open.
          have hvx : v.xmin = x := hxmin.symm.trans (h₂ v' hv')
          rcases k₄ v hv with hown | ⟨-, hnone⟩
          · exact absurd (hown.symm.trans hvx) hy
          · rw [hvx, ht] at hnone
            cases hnone
      · exact k₅ v hv v' (List.mem_append_right _ hv') hxmin
  case whole =>
    intro y
    -- what `x` sees of a transaction is all of it, or nothing
    have hvisible : inserted y (w.visible t) = [] ∨
        IsSnapshot w.history y (inserted y (w.visible t)) := by
      rw [h.inserted_visible ht]
      split
      · rename_i hy
        subst hy
        exact .inr hprepared
      · exact h.whole y
    rcases h.inserted_commit (f := f) ht y with hkept | ⟨hgone, -⟩
    · rwa [hkept]
    · exact .inl hgone
  case single => exact h.single
  case prepared =>
    intro y other hmem
    have hy : y ≠ x := by
      rintro rfl
      exact hfree other hmem
    obtain ⟨hylt, hpre⟩ := h.prepared y other hmem
    exact ⟨hylt, fun u hu => hpre u (hclosed y u hu).2⟩

theorem executing (h : w.Sound) (hfree : w.Free x) (ht : w.transactions x = some t)
    (hprepared : Prepared w.history x t statement) : (w.executed f x t statement).Sound := by
  cases statement with
  | copyFrom rows => exact h.copying hfree ht hprepared
  | prune text => exact h.pruning hfree ht text
  | commit => exact h.committing hfree ht hprepared

end World.Sound

/-- A statement that has arrived was the only one on its way. -/
theorem free_arrived {w : World} {x : ℕ} {statement : Statement} (h : w.Sound)
    (hmem : (x, statement) ∈ w.pending) : (w.arrived x statement).Free x := by
  intro other hother
  have hnodup : w.pending.Nodup := h.single.of_map
  obtain ⟨hne, hin⟩ := (hnodup.mem_erase_iff).mp hother
  exact hne (List.inj_on_of_nodup_map h.single hin hmem rfl)

/-! ## What a pass knows -/

/-- The rows of the pass are in the table, or rows of its time have been deleted. -/
def Kept (w : World) (p : Pass) (c : Collector) : Prop :=
  inserted p.tx w.table = p.versions c ∨
    inserted p.tx w.table = [] ∧ ∃ cutoff ∈ w.cutoffs, micro p.now < cutoff

/-- What the log of a pass says about the world. -/
structure Knows (f : Formats) (c : Collector) (log : List Exchange) (w : World) : Prop where
  issued : ∀ x, ⟨.begin, .ok x⟩ ∈ log → x < w.next
  listed : ∀ nodes, ⟨.listNodes, .ok nodes⟩ ∈ log → ∃ k h, k :: h <:+ w.history ∧ k.nodes = nodes
  observed : ∀ p : Pass, ⟨.listNodes, .ok p.nodes⟩ ∈ log → ⟨.listPods, .ok p.pods⟩ ∈ log →
    p.Observed w.history
  begun : ∀ p : Pass, log = p.begun → w.Free p.tx ∧
    ∀ t, w.transactions p.tx = some t → t.inserted = [] ∧ t.deleted = []
  copied : ∀ p : Pass, log = p.copied c → w.Free p.tx ∧
    ∀ t, w.transactions p.tx = some t → t.inserted = p.versions c
  pruned : ∀ p : Pass, log = p.pruned f c → w.Free p.tx ∧
    ∀ t, w.transactions p.tx = some t → t.inserted = p.versions c
  committed : ∀ p : Pass, p.committed f c <+: log → w.Free p.tx ∧ Kept w p c
  /-- Without a commit nothing is in the table, and nothing will be. -/
  uncommitted : ∀ p : Pass, p.begun <+: log → (∀ r, ⟨.query p.tx .commit, r⟩ ∉ log) →
    (p.tx, .commit) ∉ w.pending ∧ inserted p.tx w.table = []

/-- What an exchange can do to the world. -/
inductive Effect (f : Formats) (w : World) : Exchange → World → Prop where
  | unchanged {e : Exchange} : Effect f w e w
  | opened {e : Exchange} (start : ℤ) : Effect f w e (w.opened start)
  | executed {x : ℕ} {t : Transaction} {statement : Statement} {r : Except String Unit} :
      w.transactions x = some t → Effect f w ⟨.query x statement, r⟩ (w.executed f x t statement)
  | pending {x : ℕ} {statement : Statement} {r : Except String Unit} :
      Effect f w ⟨.query x statement, r⟩ { w with pending := (x, statement) :: w.pending }
  | rolledBack {e : Exchange} (x : ℕ) : Effect f w e (w.rolledBack x)

theorem effect_of_serves {w w' : World} {e : Exchange} (h : Serves f w e w') : Effect f w e w' := by
  have hunchanged : w' = w → Effect f w e w' := by
    rintro rfl
    exact .unchanged
  obtain ⟨call, answer⟩ := e
  cases call with
  | schema => exact hunchanged h
  | now => exact hunchanged h
  | listNodes =>
    cases answer with
    | error e => exact hunchanged h
    | ok nodes => exact hunchanged h.1
  | listPods =>
    cases answer with
    | error e => exact hunchanged h
    | ok pods => exact hunchanged h.1
  | begin =>
    cases answer with
    | error e =>
      rcases h with h | ⟨start, rfl⟩
      · exact hunchanged h
      · exact .opened start
    | ok tx =>
      obtain ⟨-, start, rfl⟩ := h
      exact .opened start
  | query tx statement =>
    cases answer with
    | error e =>
      cases h with
      | ignored => exact .unchanged
      | aborted => exact .rolledBack tx
      | executed ht => exact .executed ht
      | pending => exact .pending
    | ok u =>
      obtain ⟨t, ht, rfl⟩ := h
      exact .executed ht
  | rollback tx =>
    rcases h with h | rfl
    · exact hunchanged h
    · exact .rolledBack tx

/-- What only grows. -/
structure Grows (w w' : World) : Prop where
  history : w.history <:+ w'.history
  next : w.next ≤ w'.next
  cutoffs : w.cutoffs ⊆ w'.cutoffs

/-- What is known of the transaction `x` is still true. -/
structure Spares (x : ℕ) (w w' : World) : Prop where
  pending : ∀ statement, (x, statement) ∈ w'.pending → (x, statement) ∈ w.pending
  transaction : w.Free x → w'.transactions x = w.transactions x ∨ w'.transactions x = none
  inserted : (x, .commit) ∉ w.pending → inserted x w'.table = inserted x w.table ∨
    inserted x w'.table = [] ∧
      ∀ v ∈ inserted x w.table, ∃ cutoff ∈ w'.cutoffs, v.row.collectedAt < cutoff

section spares

variable {w w' : World} {x y : ℕ} {t : Transaction} {statement : Statement}

theorem Spares.refl (x : ℕ) (w : World) : Spares x w w :=
  ⟨fun _ h => h, fun _ => .inl rfl, fun _ => .inl rfl⟩

theorem grows_executed (f : Formats) (w : World) (x : ℕ) (t : Transaction) (statement : Statement) :
    Grows w (w.executed f x t statement) := by
  cases statement with
  | commit => exact ⟨List.suffix_rfl, Nat.le_refl _, List.subset_append_right ..⟩
  | _ => exact ⟨List.suffix_rfl, Nat.le_refl _, List.Subset.refl _⟩

/-- The statements of one transaction spare the others. -/
theorem spares_executed (h : w.Sound) (ht : w.transactions y = some t) (hne : x ≠ y) :
    Spares x w (w.executed f y t statement) := by
  cases statement with
  | commit =>
    refine ⟨fun _ h => h, fun _ => .inl (by simp [World.executed, hne]), fun _ => ?_⟩
    have hkept := h.inserted_commit (f := f) ht x
    rw [h.inserted_visible ht, if_neg hne] at hkept
    refine hkept.imp_right fun ⟨hgone, hexpired⟩ => ⟨hgone, fun v hv => ?_⟩
    obtain ⟨cutoff, hmem, hlt⟩ := hexpired v hv
    exact ⟨cutoff, List.mem_append_left _ hmem, hlt⟩
  | _ =>
    refine ⟨fun _ h => h, fun _ => .inl ?_, fun _ => .inl rfl⟩
    simp [World.executed, hne]

theorem spares_rolledBack (w : World) (x y : ℕ) : Spares x w (w.rolledBack y) := by
  refine ⟨fun _ h => h, fun _ => ?_, fun _ => .inl rfl⟩
  by_cases hxy : x = y
  · exact .inr (by simp [World.rolledBack, hxy])
  · exact .inl (by simp [World.rolledBack, hxy])

theorem spares_opened (w : World) (start : ℤ) (hlt : x < w.next) : Spares x w (w.opened start) := by
  refine ⟨fun _ h => h, fun _ => .inl ?_, fun _ => .inl rfl⟩
  simp [World.opened, Nat.ne_of_lt hlt]

theorem grows_of_serves {e : Exchange} (h : Serves f w e w') : Grows w w' := by
  cases effect_of_serves h with
  | opened start => exact ⟨List.suffix_rfl, Nat.le_succ _, List.Subset.refl _⟩
  | executed ht => exact grows_executed ..
  | _ => exact ⟨List.suffix_rfl, Nat.le_refl _, List.Subset.refl _⟩

/-- An exchange spares the transactions that it is not about. -/
theorem spares_of_serves {e : Exchange} (hsound : w.Sound) (h : Serves f w e w') (hlt : x < w.next)
    (hother : ∀ statement, e.1 ≠ .query x statement) : Spares x w w' := by
  cases effect_of_serves h with
  | unchanged => exact Spares.refl ..
  | opened start => exact spares_opened w start hlt
  | rolledBack y => exact spares_rolledBack ..
  | @executed y t statement r ht =>
    refine spares_executed hsound ht ?_
    rintro rfl
    exact hother statement rfl
  | @pending y statement r =>
    refine ⟨fun other hmem => ?_, fun _ => .inl rfl, fun _ => .inl rfl⟩
    rcases List.mem_cons.mp hmem with heq | hmem
    · obtain ⟨rfl, -⟩ := Prod.mk.inj heq
      exact absurd rfl (hother statement)
    · exact hmem

theorem grows_of_drifts (h : Drifts f w w') : Grows w w' := by
  cases h with
  | cluster k => exact ⟨List.suffix_cons .., Nat.le_refl _, List.Subset.refl _⟩
  | rolledBack tx => exact ⟨List.suffix_rfl, Nat.le_refl _, List.Subset.refl _⟩
  | @arrived tx t statement hmem ht =>
    obtain ⟨hhistory, hnext, hcutoffs⟩ := grows_executed f (w.arrived tx statement) tx t statement
    exact ⟨hhistory, hnext, hcutoffs⟩

theorem spares_of_drifts (hsound : w.Sound) (h : Drifts f w w') (x : ℕ) : Spares x w w' := by
  cases h with
  | cluster k => exact ⟨fun _ h => h, fun _ => .inl rfl, fun _ => .inl rfl⟩
  | rolledBack tx => exact spares_rolledBack ..
  | @arrived y t statement hmem ht =>
    by_cases hxy : x = y
    · subst hxy
      refine ⟨fun other hother => ?_, fun hfree => absurd hmem (hfree statement), fun hcommit => ?_⟩
      · have herase : (x, other) ∈ w.pending.erase (x, statement) := by
          cases statement <;> exact hother
        exact List.mem_of_mem_erase herase
      · -- What has arrived was no commit.
        cases statement with
        | commit => exact absurd hmem hcommit
        | _ => exact .inl rfl
    · have hspares : Spares x _ ((w.arrived y statement).executed f y t statement) :=
        spares_executed (hsound.arriving y statement) ht hxy
      obtain ⟨hpending, htransaction, hinserted⟩ := hspares
      refine ⟨fun other hother => List.mem_of_mem_erase (hpending other hother), fun hfree => ?_,
        fun hcommit => ?_⟩
      · exact htransaction fun other hother => hfree other (List.mem_of_mem_erase hother)
      · exact hinserted fun hother => hcommit (List.mem_of_mem_erase hother)

end spares

/-- The transactions that the exchanges of a collector opened. -/
def transactions (f : Formats) : Handles (collecting f) ℕ where
  given
    | ⟨.begin, .ok x⟩ => some x
    | _ => none
  issued w x := x < w.next
  fresh := by
    rintro w ⟨call, answer⟩ w' x hserves hgiven
    cases call with
    | begin =>
      cases answer with
      | error e => cases hgiven
      | ok tx =>
        obtain rfl : tx = x := Option.some.inj hgiven
        obtain rfl : tx = w.next := hserves.1
        exact Nat.lt_irrefl _
    | _ => cases hgiven
  serves := by
    rintro w ⟨call, answer⟩ w' x hserves (hissued | hgiven)
    · exact Nat.lt_of_lt_of_le hissued (grows_of_serves hserves).next
    · cases call with
      | begin =>
        cases answer with
        | error e => cases hgiven
        | ok tx =>
          obtain rfl : tx = x := Option.some.inj hgiven
          obtain ⟨rfl, start, rfl⟩ := hserves
          exact Nat.lt_succ_self _
      | _ => cases hgiven
  drifts w w' x hdrifts hissued := Nat.lt_of_lt_of_le hissued (grows_of_drifts hdrifts).next

/-- Rows that have been deleted, unless there were none. -/
theorem kept_of_expired {w : World} {p : Pass} (hgone : inserted p.tx w.table = [])
    (hexpired : ∀ v ∈ p.versions c, ∃ cutoff ∈ w.cutoffs, v.row.collectedAt < cutoff) :
    Kept w p c := by
  cases hversions : p.versions c with
  | nil => exact .inl (hgone.trans hversions.symm)
  | cons v rest =>
    have hv : v ∈ p.versions c := hversions ▸ List.mem_cons_self ..
    obtain ⟨cutoff, hmem, hlt⟩ := hexpired v hv
    rw [Pass.collectedAt_of_mem_versions hv] at hlt
    exact .inr ⟨hgone, cutoff, hmem, hlt⟩

namespace Knows

variable {w w' : World} {log : List Exchange} {e : Exchange}

theorem nil (f : Formats) (c : Collector) (w : World) : Knows f c [] w where
  issued := by simp
  listed := by simp
  observed := by simp
  begun p hlog := by cases hlog
  copied p hlog := by cases hlog
  pruned p hlog := by cases hlog
  committed p hlog := by simp [Pass.committed] at hlog
  uncommitted p hlog := by simp [Pass.begun] at hlog

theorem kept_of_spares {p : Pass} (h : Kept w p c) (hfree : w.Free p.tx) (hgrows : Grows w w')
    (hspares : Spares p.tx w w') : Kept w' p c := by
  have hcases := hspares.inserted (hfree _)
  rcases h with hkept | ⟨hgone, cutoff, hmem, hlt⟩
  · rw [hkept] at hcases
    rcases hcases with hsame | ⟨hgone, hexpired⟩
    · exact .inl hsame
    · exact kept_of_expired hgone hexpired
  · rw [hgone] at hcases
    refine .inr ⟨?_, cutoff, hgrows.cutoffs hmem, hlt⟩
    rcases hcases with h | ⟨h, -⟩ <;> exact h

/-- What spares the transactions of a pass leaves what it knows. -/
theorem spared (h : Knows f c log w) (hgrows : Grows w w')
    (hspares : ∀ x, ⟨.begin, .ok x⟩ ∈ log → Spares x w w') : Knows f c log w' := by
  have hfree : ∀ x, ⟨.begin, .ok x⟩ ∈ log → w.Free x → w'.Free x := fun x hx hfree statement hmem =>
    hfree statement ((hspares x hx).pending statement hmem)
  -- without a statement on its way the transaction is as it was, or rolled back
  have hopen : ∀ {P : Transaction → Prop} {x : ℕ}, ⟨.begin, .ok x⟩ ∈ log → w.Free x →
      (∀ t, w.transactions x = some t → P t) → ∀ t, w'.transactions x = some t → P t := by
    intro P x hx hfree hP t ht
    rcases (hspares x hx).transaction hfree with hsame | hnone
    · exact hP t (hsame ▸ ht)
    · rw [hnone] at ht
      cases ht
  have hheld : ∀ {p : Pass} {log' : List Exchange}, p.begun <+: log' → log' <+: log →
      (⟨.begin, .ok p.tx⟩ : Exchange) ∈ log :=
    fun hbegun hlog => (hbegun.trans hlog).subset Pass.mem_begun
  have hwhole : ∀ {log' : List Exchange}, log = log' → log' <+: log :=
    fun hlog => ⟨[], by rw [hlog, List.append_nil]⟩
  constructor
  case issued =>
    intro x hx
    exact Nat.lt_of_lt_of_le (h.issued x hx) hgrows.next
  case listed =>
    intro nodes hnodes
    obtain ⟨k, l, hsuffix, hsame⟩ := h.listed nodes hnodes
    exact ⟨k, l, hsuffix.trans hgrows.history, hsame⟩
  case observed =>
    intro p hnodes hpods
    exact (h.observed p hnodes hpods).mono hgrows.history
  case begun =>
    intro p hlog
    have hx := hheld List.prefix_rfl (hwhole hlog)
    obtain ⟨hf, ht⟩ := h.begun p hlog
    exact ⟨hfree _ hx hf, hopen hx hf ht⟩
  case copied =>
    intro p hlog
    have hx := hheld (List.prefix_append ..) (hwhole hlog)
    obtain ⟨hf, ht⟩ := h.copied p hlog
    exact ⟨hfree _ hx hf, hopen hx hf ht⟩
  case pruned =>
    intro p hlog
    have hx := hheld ((List.prefix_append ..).trans (List.prefix_append ..)) (hwhole hlog)
    obtain ⟨hf, ht⟩ := h.pruned p hlog
    exact ⟨hfree _ hx hf, hopen hx hf ht⟩
  case committed =>
    intro p hlog
    have hx := hheld (p.begun_prefix_committed f c) hlog
    obtain ⟨hf, hkept⟩ := h.committed p hlog
    exact ⟨hfree _ hx hf, kept_of_spares hkept hf hgrows (hspares _ hx)⟩
  case uncommitted =>
    intro p hlog hno
    have hx := hheld List.prefix_rfl hlog
    obtain ⟨hnot, hnil⟩ := h.uncommitted p hlog hno
    refine ⟨fun hmem => hnot ((hspares _ hx).pending _ hmem), ?_⟩
    rcases (hspares _ hx).inserted hnot with hsame | ⟨hgone, -⟩
    · rw [hsame, hnil]
    · exact hgone

/-- An exchange that a pass learns nothing from. -/
theorem other (h : Knows f c log w) (hnodes : ∀ nodes, e ≠ ⟨.listNodes, .ok nodes⟩)
    (hpods : ∀ pods, e ≠ ⟨.listPods, .ok pods⟩) (hbegin : ∀ x, e ≠ ⟨.begin, .ok x⟩)
    (hquery : ∀ x statement r, e ≠ ⟨.query x statement, r⟩) : Knows f c (log ++ [e]) w := by
  have hold : ∀ {e' : Exchange}, e ≠ e' → e' ∈ log ++ [e] → e' ∈ log := by
    intro e' hne hmem
    rcases List.mem_append.mp hmem with hmem | hmem
    · exact hmem
    · exact absurd (List.mem_singleton.mp hmem).symm hne
  have hlast : ∀ {log' : List Exchange} {e' : Exchange}, e ≠ e' → log ++ [e] ≠ log' ++ [e'] := by
    intro log' e' hne heq
    exact hne (List.cons.inj (List.append_inj' heq rfl).2).1
  have hbegun : ∀ p : Pass, p.begun = p.begun.dropLast ++ [⟨.begin, .ok p.tx⟩] := fun p => rfl
  refine ⟨fun x hx => h.issued x (hold (hbegin x) hx),
    fun nodes hmem => h.listed nodes (hold (hnodes nodes) hmem),
    fun p h₁ h₂ => h.observed p (hold (hnodes _) h₁) (hold (hpods _) h₂), fun p hlog => ?_,
    fun p hlog => absurd hlog (hlast (hquery _ _ _)), fun p hlog => absurd hlog (hlast (hquery _ _ _)),
    fun p hlog => ?_, fun p hlog hno => ?_⟩
  · rw [hbegun] at hlog
    exact absurd hlog (hlast (hbegin _))
  · rcases List.prefix_concat_iff.mp hlog with heq | hlog
    · exact absurd heq.symm (hlast (hquery _ _ _))
    · exact h.committed p hlog
  · rcases List.prefix_concat_iff.mp hlog with heq | hlog
    · rw [hbegun] at heq
      exact absurd heq.symm (hlast (hbegin _))
    · exact h.uncommitted p hlog fun r hmem => hno r (List.mem_append_left _ hmem)

end Knows

/-- A pass that has not opened its transaction knows what it has listed. -/
theorem knows_of_short {w : World} {log : List Exchange} (hlength : log.length < 5)
    (hbegin : ∀ x, ⟨.begin, .ok x⟩ ∉ log)
    (hlisted : ∀ nodes, ⟨.listNodes, .ok nodes⟩ ∈ log → ∃ k h, k :: h <:+ w.history ∧ k.nodes = nodes)
    (hobserved : ∀ p : Pass, ⟨.listNodes, .ok p.nodes⟩ ∈ log → ⟨.listPods, .ok p.pods⟩ ∈ log →
      p.Observed w.history) : Knows f c log w := by
  have hshort : ∀ p : Pass, ¬p.begun <+: log := fun p hprefix => by
    have := hprefix.length_le
    simp only [Pass.begun, List.length_cons, List.length_nil] at this
    omega
  constructor
  case issued => exact fun x hx => absurd hx (hbegin x)
  case listed => exact hlisted
  case observed => exact hobserved
  case begun => exact fun p hlog => absurd (hlog ▸ List.prefix_rfl) (hshort p)
  case copied => exact fun p hlog => absurd (hlog ▸ List.prefix_append ..) (hshort p)
  case pruned =>
    intro p hlog
    exact absurd (hlog ▸ (List.prefix_append ..).trans (List.prefix_append ..)) (hshort p)
  case committed =>
    exact fun p hlog => absurd ((p.begun_prefix_committed f c).trans hlog) (hshort p)
  case uncommitted => exact fun p hlog => absurd hlog (hshort p)

/-- A pass that has opened its transaction. -/
theorem knows_of_begun {w : World} {p : Pass} {rest : List Exchange}
    (hrest : ∀ e ∈ rest, ∃ statement r, e = ⟨.query p.tx statement, r⟩) (hissued : p.tx < w.next)
    (hobserved : p.Observed w.history)
    (hbegun : rest = [] → w.Free p.tx ∧
      ∀ t, w.transactions p.tx = some t → t.inserted = [] ∧ t.deleted = [])
    (hcopied : p.begun ++ rest = p.copied c → w.Free p.tx ∧
      ∀ t, w.transactions p.tx = some t → t.inserted = p.versions c)
    (hpruned : p.begun ++ rest = p.pruned f c → w.Free p.tx ∧
      ∀ t, w.transactions p.tx = some t → t.inserted = p.versions c)
    (hcommitted : p.committed f c <+: p.begun ++ rest → w.Free p.tx ∧ Kept w p c)
    (huncommitted : (∀ r, ⟨.query p.tx .commit, r⟩ ∉ rest) →
      (p.tx, .commit) ∉ w.pending ∧ inserted p.tx w.table = []) :
    Knows f c (p.begun ++ rest) w := by
  have hearly : ∀ {e : Exchange}, (∀ statement r, e ≠ ⟨.query p.tx statement, r⟩) →
      e ∈ p.begun ++ rest → e ∈ p.begun := by
    intro e hne hmem
    rcases List.mem_append.mp hmem with hmem | hmem
    · exact hmem
    · obtain ⟨statement, r, heq⟩ := hrest e hmem
      exact absurd heq (hne statement r)
  have hsame : ∀ {q : Pass} {log : List Exchange}, q.begun <+: log → p.begun ++ rest = log → q = p :=
    fun hq hlog => Pass.eq_of_prefix (hlog ▸ hq)
  -- a log has one beginning, so that any pass with this log is `p`
  constructor
  case issued =>
    intro x hx
    obtain rfl : x = p.tx := by simpa [Pass.begun] using hearly (by simp) hx
    exact hissued
  case listed =>
    intro nodes hmem
    obtain rfl : nodes = p.nodes := by simpa [Pass.begun] using hearly (by simp) hmem
    obtain ⟨k, l, k', l', h₁, h₂, hnodes, -⟩ := hobserved
    exact ⟨k, l, h₁.trans h₂, hnodes⟩
  case observed =>
    intro q h₁ h₂
    have hnodes : q.nodes = p.nodes := by simpa [Pass.begun] using hearly (by simp) h₁
    have hpods : q.pods = p.pods := by simpa [Pass.begun] using hearly (by simp) h₂
    unfold Pass.Observed
    rw [hnodes, hpods]
    exact hobserved
  case begun =>
    intro q hlog
    obtain rfl := hsame List.prefix_rfl hlog
    exact hbegun (List.append_right_eq_self.mp hlog)
  case copied =>
    intro q hlog
    obtain rfl := hsame (List.prefix_append ..) hlog
    exact hcopied hlog
  case pruned =>
    intro q hlog
    obtain rfl := hsame ((List.prefix_append ..).trans (List.prefix_append ..)) hlog
    exact hpruned hlog
  case committed =>
    intro q hlog
    obtain rfl := Pass.eq_of_prefix ((q.begun_prefix_committed f c).trans hlog)
    exact hcommitted hlog
  case uncommitted =>
    intro q hlog hno
    obtain rfl := Pass.eq_of_prefix hlog
    exact huncommitted fun r hmem => hno r (List.mem_append_right _ hmem)

/-! ## Every exchange keeps it -/

section own

variable {w w' : World} {log : List Exchange} {e : Exchange} {p : Pass}

theorem own_listNodes {nodes : List Node} (hserves : Serves f w ⟨.listNodes, .ok nodes⟩ w') :
    Knows f c [⟨.schema, .ok ()⟩, ⟨.listNodes, .ok nodes⟩] w' := by
  obtain ⟨rfl, k, hhead, rfl⟩ := hserves
  refine knows_of_short (by simp) (by simp) (fun nodes hmem => ?_) (by simp)
  obtain rfl : nodes = k.nodes := by simpa using hmem
  obtain ⟨rest, hrest⟩ := List.head?_eq_some_iff.mp hhead
  exact ⟨k, rest, hrest ▸ List.suffix_rfl, rfl⟩

theorem own_listPods {nodes : List Node} {pods : List Pod}
    (h : Knows f c [⟨.schema, .ok ()⟩, ⟨.listNodes, .ok nodes⟩] w)
    (hserves : Serves f w ⟨.listPods, .ok pods⟩ w') :
    Knows f c [⟨.schema, .ok ()⟩, ⟨.listNodes, .ok nodes⟩, ⟨.listPods, .ok pods⟩] w' := by
  obtain ⟨rfl, k', hhead, rfl⟩ := hserves
  obtain ⟨rest, hrest⟩ := List.head?_eq_some_iff.mp hhead
  refine knows_of_short (by simp) (by simp) (fun nodes' hmem => ?_) fun p h₁ h₂ => ?_
  · exact h.listed nodes' (by simpa using hmem)
  · obtain ⟨k, l, hsuffix, hnodes⟩ := h.listed p.nodes (by simpa using h₁)
    have hpods : k'.pods = p.pods := by simpa [eq_comm] using h₂
    exact ⟨k, l, k', rest, hrest ▸ hsuffix, hrest ▸ List.suffix_rfl, hnodes, hpods⟩

theorem own_begin (hsound : w.Sound) (h : Knows f c p.begun.dropLast w)
    (hserves : Serves f w ⟨.begin, .ok p.tx⟩ w') : Knows f c p.begun w' := by
  obtain ⟨htx, start, rfl⟩ := hserves
  have hpending : ∀ statement, (p.tx, statement) ∉ w.pending := fun statement hmem =>
    Nat.ne_of_lt (hsound.prepared _ _ hmem).1 htx
  rw [← List.append_nil p.begun]
  refine knows_of_begun (by simp) ?_ ?_ (fun _ => ⟨hpending, fun t ht => ?_⟩) (fun hlog => ?_)
    (fun hlog => ?_) (fun hlog => ?_) fun _ => ⟨hpending _, ?_⟩
  · rw [htx]
    exact Nat.lt_succ_self _
  · exact h.observed p (by simp [Pass.begun]) (by simp [Pass.begun])
  · obtain rfl : { start } = t := by simpa [World.opened, htx] using ht
    exact ⟨rfl, rfl⟩
  · simp [Pass.copied] at hlog
  · simp [Pass.pruned, Pass.copied] at hlog
  · exact absurd hlog.length_le (by simp [Pass.committed, Pass.pruned, Pass.copied])
  · exact inserted_eq_nil fun v hv => htx ▸ Nat.ne_of_lt (hsound.published v hv)

/-- A statement that failed has left the table alone, unless it was a commit. -/
theorem fails_table {x : ℕ} {statement : Statement} (h : Fails f w x statement w')
    (hne : statement ≠ .commit) : w'.table = w.table ∧
      ((x, .commit) ∈ w'.pending → (x, .commit) ∈ w.pending) := by
  cases h with
  | ignored => exact ⟨rfl, id⟩
  | aborted => exact ⟨rfl, id⟩
  | executed ht =>
    cases statement with
    | commit => exact absurd rfl hne
    | _ => exact ⟨rfl, id⟩
  | pending =>
    refine ⟨rfl, fun hmem => ?_⟩
    rcases List.mem_cons.mp hmem with heq | hmem
    · exact absurd (Prod.mk.inj heq).2.symm hne
    · exact hmem

theorem own_copyFrom (h : Knows f c p.begun w) {r : Except String Unit}
    (hserves : Serves f w ⟨.query p.tx (.copyFrom (rows c p.now p.nodes p.pods)), r⟩ w') :
    Knows f c (p.begun ++ [⟨.query p.tx (.copyFrom (rows c p.now p.nodes p.pods)), r⟩]) w' := by
  have hgrows := grows_of_serves hserves
  obtain ⟨hfree, hopen⟩ := h.begun p rfl
  obtain ⟨hpending, hnil⟩ := h.uncommitted p List.prefix_rfl (by simp [Pass.begun])
  refine knows_of_begun (by simp) (Nat.lt_of_lt_of_le (h.issued _ Pass.mem_begun) hgrows.next)
    ((h.observed p (by simp [Pass.begun]) (by simp [Pass.begun])).mono hgrows.history)
    (fun hrest => ?_) (fun hlog => ?_) (fun hlog => ?_) (fun hlog => ?_) fun _ => ?_
  · cases hrest
  · -- The transaction had inserted nothing before.
    obtain rfl : r = .ok () := by simpa [Pass.copied] using hlog
    obtain ⟨t, ht, rfl⟩ := hserves
    refine ⟨hfree, fun t' ht' => ?_⟩
    obtain ⟨hinserted, -⟩ := hopen t ht
    obtain rfl : { t with inserted := t.inserted ++ p.versions c } = t' := by
      simpa [World.executed, Pass.versions] using ht'
    simp [hinserted]
  · simp [Pass.pruned, Pass.copied] at hlog
  · exact absurd hlog.length_le (by simp [Pass.committed, Pass.pruned, Pass.copied])
  · cases r with
    | ok u =>
      obtain ⟨t, ht, rfl⟩ := hserves
      exact ⟨hpending, hnil⟩
    | error e =>
      obtain ⟨htable, hback⟩ := fails_table hserves (by simp)
      exact ⟨fun hmem => hpending (hback hmem), htable ▸ hnil⟩

theorem own_prune (h : Knows f c (p.copied c) w) {r : Except String Unit}
    (hserves : Serves f w ⟨.query p.tx (.prune (retentionText f c)), r⟩ w') :
    Knows f c (p.copied c ++ [⟨.query p.tx (.prune (retentionText f c)), r⟩]) w' := by
  have hgrows := grows_of_serves hserves
  have hbegun : p.begun <+: p.copied c := List.prefix_append ..
  obtain ⟨hfree, hopen⟩ := h.copied p rfl
  obtain ⟨hpending, hnil⟩ := h.uncommitted p hbegun (by simp [Pass.begun, Pass.copied])
  rw [Pass.copied, List.append_assoc]
  refine knows_of_begun (by simp)
    (Nat.lt_of_lt_of_le (h.issued _ (hbegun.subset Pass.mem_begun)) hgrows.next)
    ((h.observed p (by simp [Pass.begun, Pass.copied]) (by simp [Pass.begun, Pass.copied])).mono
      hgrows.history)
    (fun hrest => ?_) (fun hlog => ?_) (fun hlog => ?_) (fun hlog => ?_) fun _ => ?_
  · cases hrest
  · simp [Pass.copied] at hlog
  · obtain rfl : r = .ok () := by simpa [Pass.pruned, Pass.copied] using hlog
    obtain ⟨t, ht, rfl⟩ := hserves
    refine ⟨hfree, fun t' ht' => ?_⟩
    have hsame : t'.inserted = t.inserted := by
      simp only [World.executed, Function.update_self, Option.some.injEq] at ht'
      rw [← ht']
    rw [hsame]
    exact hopen t ht
  · exact absurd hlog.length_le (by simp [Pass.committed, Pass.pruned, Pass.copied])
  · cases r with
    | ok u =>
      obtain ⟨t, ht, rfl⟩ := hserves
      exact ⟨hpending, hnil⟩
    | error e =>
      obtain ⟨htable, hback⟩ := fails_table hserves (by simp)
      exact ⟨fun hmem => hpending (hback hmem), htable ▸ hnil⟩

theorem own_commit (hsound : w.Sound) (h : Knows f c (p.pruned f c) w) {r : Except String Unit}
    (hserves : Serves f w ⟨.query p.tx .commit, r⟩ w') :
    Knows f c (p.pruned f c ++ [⟨.query p.tx .commit, r⟩]) w' := by
  have hgrows := grows_of_serves hserves
  have hbegun : p.begun <+: p.pruned f c := (List.prefix_append ..).trans (List.prefix_append ..)
  obtain ⟨hfree, hopen⟩ := h.pruned p rfl
  rw [Pass.pruned, Pass.copied, List.append_assoc, List.append_assoc]
  refine knows_of_begun (by simp)
    (Nat.lt_of_lt_of_le (h.issued _ (hbegun.subset Pass.mem_begun)) hgrows.next)
    ((h.observed p (hbegun.subset (by simp [Pass.begun]))
      (hbegun.subset (by simp [Pass.begun]))).mono hgrows.history)
    (fun hrest => ?_) (fun hlog => ?_) (fun hlog => ?_) (fun hlog => ?_) fun hno => ?_
  · cases hrest
  · simp [Pass.copied] at hlog
  · simp [Pass.pruned, Pass.copied] at hlog
  · obtain rfl : r = .ok () := by
      have heq := hlog.eq_of_length (by simp [Pass.committed, Pass.pruned, Pass.copied])
      simpa [Pass.committed, Pass.pruned, Pass.copied] using heq.symm
    obtain ⟨t, ht, rfl⟩ := hserves
    refine ⟨hfree, ?_⟩
    have hcases := hsound.inserted_commit (f := f) ht p.tx
    rw [hsound.inserted_visible ht, if_pos rfl, hopen t ht] at hcases
    rcases hcases with hkept | ⟨hgone, hexpired⟩
    · exact .inl hkept
    · refine kept_of_expired hgone fun v hv => ?_
      obtain ⟨cutoff, hmem, hlt⟩ := hexpired v hv
      exact ⟨cutoff, List.mem_append_left _ hmem, hlt⟩
  · exact absurd (by simp) (hno r)

/-- A pass sends statements in its own transaction only. -/
theorem held_of_allowed {x : ℕ} {statement : Statement} {r : Except String Unit}
    (h : Allowed f c log ⟨.query x statement, r⟩) : ⟨.begin, .ok x⟩ ∈ log := by
  cases statement with
  | copyFrom rows =>
    obtain ⟨p, rfl, rfl, -⟩ := h
    exact Pass.mem_begun
  | prune text =>
    obtain ⟨p, rfl, rfl, -⟩ := h
    exact List.mem_append_left _ Pass.mem_begun
  | commit =>
    obtain ⟨p, rfl, rfl⟩ := h
    exact List.mem_append_left _ (List.mem_append_left _ Pass.mem_begun)

/-- When a pass sends a statement, its transaction is ready for it. -/
theorem prepared_of_allowed (h : Knows f c log w) {x : ℕ} {statement : Statement}
    {r : Except String Unit} (hallowed : Allowed f c log ⟨.query x statement, r⟩) :
    w.Free x ∧ x < w.next ∧
      ∀ t, w.transactions x = some t → Prepared w.history x t statement := by
  cases statement with
  | copyFrom rows =>
    obtain ⟨p, rfl, rfl, rfl⟩ := hallowed
    obtain ⟨hfree, hopen⟩ := h.begun p rfl
    refine ⟨hfree, h.issued _ Pass.mem_begun, fun t ht => ⟨(hopen t ht).1, (hopen t ht).2, p.now, ?_⟩⟩
    intro row hrow
    obtain ⟨node, -, rfl⟩ | ⟨pod, -, rfl⟩ :=
      (List.mem_append.mp hrow).imp List.mem_map.mp List.mem_map.mp
    · rfl
    · rfl
  | prune text =>
    obtain ⟨p, rfl, rfl, rfl⟩ := hallowed
    have hbegun : p.begun <+: p.copied c := List.prefix_append ..
    exact ⟨(h.copied p rfl).1, h.issued _ (hbegun.subset Pass.mem_begun), fun _ _ => trivial⟩
  | commit =>
    obtain ⟨p, rfl, rfl⟩ := hallowed
    have hbegun : p.begun <+: p.pruned f c := (List.prefix_append ..).trans (List.prefix_append ..)
    obtain ⟨hfree, hopen⟩ := h.pruned p rfl
    refine ⟨hfree, h.issued _ (hbegun.subset Pass.mem_begun), fun t ht => ⟨c, p, rfl, ?_, hopen t ht⟩⟩
    exact h.observed p (hbegun.subset (by simp [Pass.begun])) (hbegun.subset (by simp [Pass.begun]))

theorem sound_of_serves (hsound : w.Sound) (h : Knows f c log w) (hallowed : Allowed f c log e)
    (hserves : Serves f w e w') : w'.Sound := by
  cases effect_of_serves hserves with
  | unchanged => exact hsound
  | opened start => exact hsound.beginning start
  | executed ht =>
    obtain ⟨hfree, -, hprepared⟩ := prepared_of_allowed h hallowed
    exact hsound.executing hfree ht (hprepared _ ht)
  | pending =>
    obtain ⟨hfree, hlt, hprepared⟩ := prepared_of_allowed h hallowed
    exact hsound.leaving hfree hlt hprepared
  | rolledBack x => exact hsound.rolledBack x

theorem knows_of_serves (hsound : w.Sound) (h : Knows f c log w) (hallowed : Allowed f c log e)
    (hserves : Serves f w e w') : Knows f c (log ++ [e]) w' := by
  -- What is no statement spares the transaction of the pass too.
  have hspared : (∀ x statement, e.1 ≠ .query x statement) → Knows f c log w' := fun hquery =>
    h.spared (grows_of_serves hserves) fun x hx =>
      spares_of_serves hsound hserves (h.issued x hx) (hquery x)
  obtain ⟨call, answer⟩ := e
  cases call with
  | schema => exact (hspared (by simp)).other (by simp) (by simp) (by simp) (by simp)
  | now => exact (hspared (by simp)).other (by simp) (by simp) (by simp) (by simp)
  | rollback tx => exact (hspared (by simp)).other (by simp) (by simp) (by simp) (by simp)
  | listNodes =>
    cases answer with
    | error err => exact (hspared (by simp)).other (by simp) (by simp) (by simp) (by simp)
    | ok nodes =>
      obtain rfl : log = [⟨.schema, .ok ()⟩] := hallowed
      exact own_listNodes hserves
  | listPods =>
    cases answer with
    | error err => exact (hspared (by simp)).other (by simp) (by simp) (by simp) (by simp)
    | ok pods =>
      obtain ⟨nodes, rfl⟩ := hallowed
      exact own_listPods h hserves
  | begin =>
    cases answer with
    | error err => exact (hspared (by simp)).other (by simp) (by simp) (by simp) (by simp)
    | ok tx =>
      obtain ⟨p, rfl⟩ := hallowed
      exact own_begin (p := { p with tx }) hsound h hserves
  | query tx statement =>
    cases statement with
    | copyFrom rows =>
      obtain ⟨p, rfl, rfl, rfl⟩ := hallowed
      exact own_copyFrom h hserves
    | prune text =>
      obtain ⟨p, rfl, rfl, rfl⟩ := hallowed
      exact own_prune h hserves
    | commit =>
      obtain ⟨p, rfl, rfl⟩ := hallowed
      exact own_commit hsound h hserves

end own

/-! ## All runs -/

section runs

variable {k : Cluster} {S : System ℕ Collector World Call Answer (Except String Unit)}

theorem sound_of_drifts {w w' : World} (h : w.Sound) (hdrifts : Drifts f w w') : w'.Sound := by
  cases hdrifts with
  | cluster k => exact h.cluster k
  | rolledBack tx => exact h.rolledBack tx
  | @arrived tx t statement hmem ht =>
    refine (h.arriving tx statement).executing (free_arrived h hmem) ht ?_
    exact (h.prepared tx statement hmem).2 t ht

/-- What holds of the world, and of every pass, in all runs. -/
theorem invariant (h : (collecting f).Reachable (Environment.idle (World.initial k)) S) :
    S.state.Sound ∧ ∀ i run, S.thread i = some run → Knows f run.job run.log S.state := by
  refine (transactions f).invariant (Allowed f)
    (fun _ _ c _ => (keeps_collect f c).mono fun _ _ _ => trivial)
    (fun _ w c _ _ => Knows.nil f c w) ?_ ?_ ?_ h (World.Sound.initial k)
  · exact fun w c log e w' hsound hknows hallowed hserves =>
      ⟨sound_of_serves hsound hknows hallowed hserves,
        knows_of_serves hsound hknows hallowed hserves⟩
  · intro w c log e w' c' log' hsound hknows hallowed hserves hapart hknows'
    refine hknows'.spared (grows_of_serves hserves) fun x hx => ?_
    refine spares_of_serves hsound hserves (hknows'.issued x hx) ?_
    -- A statement in `x` would be sent by a thread that holds `x`.
    obtain ⟨call, answer⟩ := e
    rintro statement rfl
    have hheld : ⟨.begin, .ok x⟩ ∈ log := held_of_allowed hallowed
    exact hapart x ⟨_, List.mem_append_left _ hheld, rfl⟩ ⟨_, hx, rfl⟩
  · intro w w' hsound hdrifts
    exact ⟨sound_of_drifts hsound hdrifts, fun c log hknows =>
      hknows.spared (grows_of_drifts hdrifts) fun x _ => spares_of_drifts hsound hdrifts x⟩

/-- The rows that a transaction has in the table are all the rows of one pass, or none. -/
theorem snapshots_whole (h : (collecting f).Reachable (Environment.idle (World.initial k)) S)
    (x : ℕ) : inserted x S.state.table = [] ∨
      IsSnapshot S.state.history x (inserted x S.state.table) :=
  (invariant h).1.whole x

theorem ends_of_finished (h : (collecting f).Reachable (Environment.idle (World.initial k)) S)
    {i : ℕ} {run : Running Collector Call Answer (Except String Unit)} (hrun : S.thread i = some run)
    {r : Except String Unit} (hfinished : run.Finished r) : Ends f run.job run.log r := by
  have hkeeps := Environment.Reachable.thread
    (T := fun run => Keeps f run.job run.rest run.log fun r log => Ends f run.job log r)
    (fun _ _ c _ => keeps_collect f c) (by
      rintro _ e _ ih ⟨job, next, log⟩
      exact (ih e.2 _ rfl).2) h (by simp [Environment.idle]) hrun
  rw [show run.rest = .ret r from hfinished] at hkeeps
  exact hkeeps

/-! ## The passes of a run -/

/-- The runs from the beginning, with the passes that were given a transaction in them, the
    latest first. -/
inductive Ran (f : Formats) (k : Cluster) : List (Collector × Pass) →
    System ℕ Collector World Call Answer (Except String Unit) → Prop where
  | idle : Ran f k [] (Environment.idle (World.initial k))
  | begun {passes : List (Collector × Pass)}
      {S S' : System ℕ Collector World Call Answer (Except String Unit)} {i : ℕ} {p : Pass}
      {run : Running Collector Call Answer (Except String Unit)} : Ran f k passes S →
      (collecting f).Exchanges i ⟨.begin, .ok p.tx⟩ S S' → S'.thread i = some run →
      run.log = p.begun → Ran f k ((run.job, p) :: passes) S'
  | other {passes : List (Collector × Pass)}
      {S S' : System ℕ Collector World Call Answer (Except String Unit)} : Ran f k passes S →
      (collecting f).Step S S' → (∀ i x, ¬(collecting f).Exchanges i ⟨.begin, .ok x⟩ S S') →
      Ran f k passes S'

variable {passes : List (Collector × Pass)}

theorem Ran.reachable (h : Ran f k passes S) :
    (collecting f).Reachable (Environment.idle (World.initial k)) S := by
  induction h with
  | idle => exact .refl
  | begun _ hexchanges _ _ ih => exact ih.tail (.exchange _ _ hexchanges)
  | other _ hstep _ ih => exact ih.tail hstep

/-- A pass makes the exchanges that it may make. -/
theorem allowed_of_exchanges {S' : System ℕ Collector World Call Answer (Except String Unit)}
    {i : ℕ} {e : Exchange} {run : Running Collector Call Answer (Except String Unit)}
    (h : (collecting f).Reachable (Environment.idle (World.initial k)) S)
    (hrun : S.thread i = some run) (hexchanges : (collecting f).Exchanges i e S S') :
    Allowed f run.job run.log e :=
  Environment.Reachable.exchange (P := Allowed f)
    (fun _ _ c _ => (keeps_collect f c).mono fun _ _ _ => trivial) h hrun hexchanges

/-- Every run has its passes. -/
theorem exists_ran (h : (collecting f).Reachable (Environment.idle (World.initial k)) S) :
    ∃ passes, Ran f k passes S := by
  induction h with
  | refl => exact ⟨[], .idle⟩
  | @tail S S' hreach hstep ih =>
    obtain ⟨passes, hran⟩ := ih
    by_cases hbegin : ∃ i x, (collecting f).Exchanges i ⟨.begin, .ok x⟩ S S'
    · obtain ⟨i, x, hexchanges⟩ := hbegin
      obtain ⟨run, run', hi, hmakes, hserves, hthread⟩ := id hexchanges
      obtain ⟨p, hlog⟩ := allowed_of_exchanges hreach hi hexchanges
      have hrun' : S'.thread i = some run' := by simp [hthread]
      refine ⟨_, .begun (p := { p with tx := x }) hran hexchanges hrun' ?_⟩
      cases hmakes with
      | intro job next log =>
        obtain rfl : log = p.begun.dropLast := hlog
        rfl
    · exact ⟨passes, .other hran hstep fun i x hexchanges => hbegin ⟨i, x, hexchanges⟩⟩

theorem grows_of_step {S' : System ℕ Collector World Call Answer (Except String Unit)}
    (h : (collecting f).Step S S') : Grows S.state S'.state := by
  cases h with
  | exchange i e hexchanges =>
    obtain ⟨_, _, -, -, hserves, -⟩ := hexchanges
    exact grows_of_serves hserves
  | drift hdrifts => exact grows_of_drifts hdrifts
  | _ => exact ⟨List.suffix_rfl, Nat.le_refl _, List.Subset.refl _⟩

theorem Ran.issued (h : Ran f k passes S) : ∀ b ∈ passes, b.2.tx < S.state.next := by
  induction h with
  | idle => simp
  | begun _ hexchanges _ _ ih =>
    have hgrows := grows_of_step (.exchange _ _ hexchanges)
    obtain ⟨_, _, -, -, ⟨hnext, start, hopened⟩, -⟩ := hexchanges
    intro b hb
    rcases List.mem_cons.mp hb with rfl | hold
    · rw [hopened, hnext]
      exact Nat.lt_succ_self _
    · exact Nat.lt_of_lt_of_le (ih b hold) hgrows.next
  | other _ hstep _ ih => exact fun b hb => Nat.lt_of_lt_of_le (ih b hb) (grows_of_step hstep).next

/-- No two passes have the same transaction. -/
theorem Ran.nodup (h : Ran f k passes S) : (passes.map fun b => b.2.tx).Nodup := by
  induction h with
  | idle => exact List.nodup_nil
  | begun hran hexchanges _ _ ih =>
    obtain ⟨_, _, -, -, ⟨hnext, -⟩, -⟩ := hexchanges
    refine List.nodup_cons.mpr ⟨fun hmem => ?_, ih⟩
    obtain ⟨b, hb, htx⟩ := List.mem_map.mp hmem
    exact Nat.ne_of_lt (hran.issued b hb) (htx.trans hnext)
  | other _ _ _ ih => exact ih

/-- A thread whose log begins as that of a pass is this pass. -/
theorem Ran.mem (h : Ran f k passes S) {i : ℕ}
    {run : Running Collector Call Answer (Except String Unit)} (hrun : S.thread i = some run)
    {p : Pass} (hp : p.begun <+: run.log) : (run.job, p) ∈ passes := by
  induction h generalizing i run with
  | idle => cases hrun
  | @begun passes S S' j q other _ hexchanges hother hlog ih =>
    by_cases hij : i = j
    · -- The thread has just been given its transaction, and its log is no longer than that.
      subst hij
      obtain rfl : other = run := Option.some.inj (hother.symm.trans hrun)
      rw [hlog, ← List.append_nil q.begun] at hp
      obtain rfl := Pass.eq_of_prefix hp
      exact List.mem_cons_self ..
    · obtain ⟨_, _, -, -, -, hthread⟩ := hexchanges
      exact List.mem_cons_of_mem _ (ih (by simpa [hthread, hij] using hrun) hp)
  | other _ hstep hno ih =>
    obtain hsame | ⟨job, rfl⟩ | ⟨e, _, hi, ⟨job, next, log⟩, hexchanges⟩ := hstep.thread_cases hrun
    · exact ih hsame hp
    · exact absurd (List.prefix_nil.mp hp) (by simp [Pass.begun])
    · rcases List.prefix_concat_iff.mp hp with heq | hold
      · -- The last exchange would have opened the transaction.
        have hlast := congrArg List.getLast? heq
        obtain rfl : ⟨.begin, .ok p.tx⟩ = e := by simpa [Pass.begun] using hlast
        exact absurd hexchanges (hno i p.tx)
      · have hmem := ih hi hold
        exact hmem

/-- Every pass has listed the cluster as it was. -/
theorem Ran.observed (h : Ran f k passes S) : ∀ b ∈ passes, b.2.Observed S.state.history := by
  induction h with
  | idle => simp
  | begun hran hexchanges hrun hlog ih =>
    have hstep := Environment.Step.exchange _ _ hexchanges
    have hknows := (invariant (hran.reachable.tail hstep)).2 _ _ hrun
    rw [hlog] at hknows
    intro b hb
    rcases List.mem_cons.mp hb with rfl | hold
    · exact hknows.observed _ (by simp [Pass.begun]) (by simp [Pass.begun])
    · exact (ih b hold).mono (grows_of_step hstep).history
  | other _ hstep _ ih => exact fun b hb => (ih b hb).mono (grows_of_step hstep).history

/-- The rows are those of one of the passes, which has the transaction `x`. -/
def OfPass (passes : List (Collector × Pass)) (x : ℕ) (versions : List Version) : Prop :=
  ∃ b ∈ passes, b.2.tx = x ∧ versions = b.2.versions b.1

/-- What is stored is of the passes, and so is what a commit on its way will store. -/
structure Attributed (passes : List (Collector × Pass)) (w : World) : Prop where
  stored : ∀ x, inserted x w.table = [] ∨ OfPass passes x (inserted x w.table)
  pending : ∀ x t, (x, .commit) ∈ w.pending → w.transactions x = some t →
    OfPass passes x t.inserted

namespace Attributed

variable {w : World} {x : ℕ} {t : Transaction} {statement : Statement}

theorem cons (h : Attributed passes w) (b : Collector × Pass) : Attributed (b :: passes) w := by
  have hmono : ∀ {x versions}, OfPass passes x versions → OfPass (b :: passes) x versions :=
    fun ⟨b', hb', hof⟩ => ⟨b', List.mem_cons_of_mem _ hb', hof⟩
  exact ⟨fun x => (h.stored x).imp_right hmono, fun x t hmem ht => hmono (h.pending x t hmem ht)⟩

theorem rolledBack (h : Attributed passes w) (x : ℕ) : Attributed passes (w.rolledBack x) := by
  refine ⟨h.stored, fun y t hmem ht => ?_⟩
  by_cases hy : y = x
  · simp [World.rolledBack, hy] at ht
  · exact h.pending y t hmem (by simpa [World.rolledBack, hy] using ht)

theorem opened (h : Attributed passes w) (hsound : w.Sound) (start : ℤ) :
    Attributed passes (w.opened start) := by
  refine ⟨h.stored, fun y t hmem ht => h.pending y t hmem ?_⟩
  have hne : y ≠ w.next := Nat.ne_of_lt (hsound.prepared y _ hmem).1
  simpa [World.opened, hne] using ht

theorem leaving (h : Attributed passes w) (hcommit : statement = .commit →
      ∀ t, w.transactions x = some t → OfPass passes x t.inserted) :
    Attributed passes { w with pending := (x, statement) :: w.pending } := by
  refine ⟨h.stored, fun y t hmem ht => ?_⟩
  rcases List.mem_cons.mp hmem with heq | hold
  · obtain ⟨rfl, rfl⟩ := Prod.mk.inj heq
    exact hcommit rfl t ht
  · exact h.pending y t hold ht

theorem executed (h : Attributed passes w) (hsound : w.Sound) (hfree : w.Free x)
    (ht : w.transactions x = some t) (hcommit : statement = .commit → OfPass passes x t.inserted) :
    Attributed passes (w.executed f x t statement) := by
  cases statement with
  | commit =>
    refine ⟨fun y => ?_, fun y u hmem hu => ?_⟩
    · rcases hsound.inserted_commit (f := f) ht y with hkept | ⟨hgone, -⟩
      · rw [hkept, hsound.inserted_visible ht]
        by_cases hy : y = x
        · subst hy
          rw [if_pos rfl]
          exact .inr (hcommit rfl)
        · rw [if_neg hy]
          exact h.stored y
      · exact .inl hgone
    · have hy : y ≠ x := by
        rintro rfl
        exact hfree _ hmem
      exact h.pending y u hmem (by simpa [World.executed, hy] using hu)
  | _ =>
    refine ⟨h.stored, fun y u hmem hu => ?_⟩
    have hy : y ≠ x := by
      rintro rfl
      exact hfree _ hmem
    exact h.pending y u hmem (by simpa [World.executed, hy] using hu)

theorem drifts {w' : World} (h : Attributed passes w) (hsound : w.Sound) (hdrifts : Drifts f w w') :
    Attributed passes w' := by
  cases hdrifts with
  | cluster k => exact ⟨h.stored, h.pending⟩
  | rolledBack x => exact h.rolledBack x
  | @arrived x t statement hmem ht =>
    have harrived : Attributed passes (w.arrived x statement) :=
      ⟨h.stored, fun y u hu => h.pending y u (List.mem_of_mem_erase hu)⟩
    refine harrived.executed (hsound.arriving x statement) (free_arrived hsound hmem) ht ?_
    rintro rfl
    exact h.pending x t hmem ht

end Attributed

theorem Ran.attributed (h : Ran f k passes S) : Attributed passes S.state := by
  induction h with
  | idle => exact ⟨fun _ => .inl rfl, by simp [Environment.idle, World.initial]⟩
  | begun hran hexchanges _ _ ih =>
    obtain ⟨_, _, -, -, ⟨-, start, hopened⟩, -⟩ := hexchanges
    rw [hopened]
    exact (ih.opened (invariant hran.reachable).1 start).cons _
  | @other passes S S' hran hstep _ ih =>
    obtain ⟨hsound, hknows⟩ := invariant hran.reachable
    cases hstep with
    | begin => exact ih
    | stop => exact ih
    | drift hdrifts => exact ih.drifts hsound hdrifts
    | exchange i e hexchanges =>
      obtain ⟨run, run', hi, -, hserves, -⟩ := id hexchanges
      have hallowed := allowed_of_exchanges hran.reachable hi hexchanges
      -- A commit is asked for by a pass that has all its rows in the transaction.
      have hcommit : ∀ x r, e = ⟨.query x .commit, r⟩ → ∀ t, S.state.transactions x = some t →
          OfPass passes x t.inserted := by
        rintro x r rfl t ht
        obtain ⟨p, hlog, rfl⟩ := hallowed
        have hbegun : p.begun <+: run.log :=
          hlog ▸ (List.prefix_append ..).trans (List.prefix_append ..)
        exact ⟨_, hran.mem hi hbegun, rfl, ((hknows i run hi).pruned p hlog).2 t ht⟩
      have heffect := effect_of_serves hserves
      generalize S'.state = w' at heffect ⊢
      cases heffect with
      | unchanged => exact ih
      | opened start => exact ih.opened hsound start
      | rolledBack x => exact ih.rolledBack x
      | @executed x t statement r ht =>
        obtain ⟨hfree, -⟩ := prepared_of_allowed (hknows i run hi) hallowed
        refine ih.executed hsound hfree ht ?_
        rintro rfl
        exact hcommit x r rfl t ht
      | @pending x statement r =>
        refine ih.leaving ?_
        rintro rfl
        exact hcommit x r rfl

/-- What a pass returns says what it has stored: after a success its rows are in the
    table until rows of its time are deleted, and after a failure they are not, or the
    pass does not know how its commit ended.  No two passes have a transaction in common,
    and what a transaction has in the table is all that its pass has listed. -/
theorem collect_accounted (h : Ran f k passes S) :
    (∀ (i : ℕ) (run : Running Collector Call Answer (Except String Unit)) (r : Except String Unit),
      S.thread i = some run → run.Finished r →
      (r = .ok () → ∃ p : Pass, (run.job, p) ∈ passes ∧ p.committed f run.job <+: run.log ∧
        Kept S.state p run.job) ∧
      ∀ e, r = .error e → ∀ p : Pass, p.begun <+: run.log →
        inserted p.tx S.state.table = [] ∨
          ⟨.query p.tx .commit, .error e⟩ ∈ run.log ∧
            inserted p.tx S.state.table = p.versions run.job) ∧
    (∀ b ∈ passes, b.2.Observed S.state.history) ∧ (passes.map fun b => b.2.tx).Nodup ∧
    ∀ x, inserted x S.state.table ≠ [] → ∃ b ∈ passes, b.2.tx = x ∧
      inserted x S.state.table = b.2.versions b.1 := by
  refine ⟨fun i run r hrun hfinished => ?_, h.observed, h.nodup, fun x hx => ?_⟩
  · have hknows := (invariant h.reachable).2 i run hrun
    have hends := ends_of_finished h.reachable hrun hfinished
    have hmem : ∀ p : Pass, p.begun <+: run.log → (run.job, p) ∈ passes := fun p => h.mem hrun
    obtain ⟨c, rest, log⟩ := run
    dsimp only at hknows hends hmem ⊢
    cases hends with
    | early hbegin =>
      refine ⟨by simp, fun e _ p hp => ?_⟩
      exact absurd (hp.subset Pass.mem_begun) (hbegin p.tx)
    | failed q hq hno =>
      -- the pass has not asked for a commit
      refine ⟨by simp, fun e _ p hp => .inl ?_⟩
      obtain ⟨rest, rfl⟩ := hq
      obtain rfl := Pass.eq_of_prefix hp
      exact (hknows.uncommitted p hp hno).2
    | @unanswered e q =>
      -- the commit may have been carried out all the same
      refine ⟨by simp, fun e' he' p hp => ?_⟩
      obtain rfl := Except.error.inj he'
      have hpasses := hmem p hp
      have hq : q.begun <+: q.pruned f c := (List.prefix_append ..).trans (List.prefix_append ..)
      obtain ⟨rest, hrest⟩ := hq.trans (List.prefix_append ..)
      rw [← hrest] at hp
      obtain rfl := Pass.eq_of_prefix hp
      refine (h.attributed.stored p.tx).imp_right fun ⟨b, hb, htx, hversions⟩ => ⟨by simp, ?_⟩
      obtain rfl : b = (c, p) := List.inj_on_of_nodup_map h.nodup hb hpasses htx
      exact hversions
    | committed p =>
      refine ⟨fun _ => ⟨p, ?_, List.prefix_append .., ?_⟩, by simp⟩
      · exact hmem p ((p.begun_prefix_committed f c).trans (List.prefix_append ..))
      · exact (hknows.committed p (List.prefix_append ..)).2
  · exact (h.attributed.stored x).resolve_left hx

end runs

/-! ## A pass over a small cluster -/

/-- Everything goes well; the transaction `n` begins at the time `n` days. -/
def servesAll (f : Formats) (w : World) : (call : Call) → Answer call × World
  | .schema => (.ok (), w)
  | .listNodes => ((w.history.head?.map (·.nodes)).elim (.error "no cluster") .ok, w)
  | .listPods => ((w.history.head?.map (·.pods)).elim (.error "no cluster") .ok, w)
  | .now => (w.next * 86400000000000, w)
  | .begin => (.ok w.next, w.opened (w.next * 86400000000000))
  | .query tx statement =>
    match w.transactions tx with
    | some t => (.ok (), w.executed f tx t statement)
    | none => (.error "no transaction", w)
  | .rollback tx => ((), w.rolledBack tx)

theorem serves_servesAll (f : Formats) (w : World) (call : Call) :
    Serves f w ⟨call, (servesAll f w call).1⟩ (servesAll f w call).2 := by
  have hlist : ∀ {α : Type} (get : Cluster → α), (w.history.head?.map get = none ∧
      (w.history.head?.map get).elim (Except.error "no cluster") Except.ok = .error "no cluster") ∨
      ∃ k ∈ w.history.head?, (w.history.head?.map get).elim (Except.error "no cluster") Except.ok =
        .ok (get k) := by
    intro α get
    cases w.history.head? with
    | none => exact .inl ⟨rfl, rfl⟩
    | some k => exact .inr ⟨k, rfl, rfl⟩
  cases call with
  | schema => rfl
  | listNodes =>
    rcases hlist (·.nodes) with ⟨-, hnone⟩ | ⟨k, hk, hsome⟩
    · simp only [servesAll, hnone]
      rfl
    · simp only [servesAll, hsome]
      exact ⟨rfl, k, hk, rfl⟩
  | listPods =>
    rcases hlist (·.pods) with ⟨-, hnone⟩ | ⟨k, hk, hsome⟩
    · simp only [servesAll, hnone]
      rfl
    · simp only [servesAll, hsome]
      exact ⟨rfl, k, hk, rfl⟩
  | now => rfl
  | begin => exact ⟨rfl, _, rfl⟩
  | query tx statement =>
    cases ht : w.transactions tx with
    | none =>
      simp only [servesAll, ht]
      exact .ignored
    | some t =>
      simp only [servesAll, ht]
      exact ⟨t, ht, rfl⟩
  | rollback tx => exact .inr rfl

/-- A node and a pod. -/
def smallCluster : Cluster where
  nodes := [⟨"n", "", [⟨"Ready", "True"⟩]⟩]
  pods := [⟨"default", "p", "Running", [⟨"Ready", "False"⟩], [1, 2]⟩]

/-- A retention period of an hour. -/
def hourly : Formats := ⟨fun _ => "1", fun _ => 3600000000000⟩

def smallCollector : Collector := ⟨"kind", 60000000000, 3600000000000⟩

/-- The pass over it. -/
def smallPass : Except String Unit × List Exchange × World :=
  (collect hourly smallCollector).run.runOn (servesAll hourly) (World.initial smallCluster)

theorem exists_smallPass : ∃ (S : System ℕ Collector World Call Answer (Except String Unit))
    (run : Running Collector Call Answer (Except String Unit)),
    (collecting hourly).Reachable (Environment.idle (World.initial smallCluster)) S ∧
    S.thread 0 = some run ∧ run.job = smallCollector ∧ run.log = smallPass.2.1 ∧
    run.Finished (.ok ()) ∧ S.state = smallPass.2.2 := by
  obtain ⟨hexec, hreplay⟩ := Program.runOn_run (serves_servesAll hourly)
    (collect hourly smallCollector).run (World.initial smallCluster)
  obtain ⟨S, run, hreach, hrun, hjob, hlog, hfinished, hstate⟩ :=
    Environment.exists_finished (E := collecting hourly) 0 smallCollector
      (S := Environment.idle (World.initial smallCluster)) rfl trivial hexec
      (Environment.replay_servesLater hreplay)
  exact ⟨S, run, hreach, hrun, hjob, hlog, hfinished, hstate⟩

theorem snapshots_whole_small :
    ∃ S : System ℕ Collector World Call Answer (Except String Unit),
      (inserted 0 S.state.table).map (·.row.restartCount) = [0, 3] ∧
      (inserted 0 S.state.table = [] ∨
        IsSnapshot S.state.history 0 (inserted 0 S.state.table)) := by
  obtain ⟨S, run, hreach, -, -, -, -, hstate⟩ := exists_smallPass
  refine ⟨S, ?_, snapshots_whole hreach 0⟩
  rw [hstate]
  decide +kernel

theorem collect_accounted_small :
    ∃ (S : System ℕ Collector World Call Answer (Except String Unit))
      (passes : List (Collector × Pass)),
      (∃ p, (smallCollector, p) ∈ passes ∧ Kept S.state p smallCollector) ∧
      (passes.map fun b => b.2.tx).Nodup ∧ inserted 0 S.state.table ≠ [] ∧
      ∃ b ∈ passes, b.2.tx = 0 ∧ inserted 0 S.state.table = b.2.versions b.1 := by
  obtain ⟨S, run, hreach, hrun, hjob, -, hfinished, hstate⟩ := exists_smallPass
  obtain ⟨passes, hran⟩ := exists_ran hreach
  obtain ⟨hreturned, -, hnodup, hstored⟩ := collect_accounted hran
  have hne : inserted 0 S.state.table ≠ [] := by
    rw [hstate]
    decide +kernel
  obtain ⟨p, hmem, -, hkept⟩ := (hreturned 0 run _ hrun hfinished).1 rfl
  rw [hjob] at hmem hkept
  exact ⟨S, passes, ⟨p, hmem, hkept⟩, hnodup, hne, hstored 0 hne⟩

end CubeOperator.Telemetry.Collection
