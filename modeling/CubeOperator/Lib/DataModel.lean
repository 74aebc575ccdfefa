import Mathlib.Algebra.BigOperators.Group.List.Basic
import Mathlib.Algebra.Order.Ring.Rat
import Mathlib.Data.List.Dedup
import Mathlib.Data.List.Forall2
import Mathlib.Data.List.Perm.Basic

/-! # Queries over a table

    A data model gives names to expressions over the rows of a table: dimensions, and
    measures, which aggregate.  A query selects rows, groups them by the values of its
    dimensions and gives one line for each group.

    An answer depends on which rows are selected, and on how often, but not on where in the
    table they are (`Select.answers_congr`). -/

namespace DataModel

/-! ## Data models -/

/-- A value in a line.  A time is in nanoseconds. -/
inductive Value where
  | null
  | text (s : String)
  | number (q : ℚ)
  | time (n : ℤ)
  deriving DecidableEq

section models

variable (ρ : Type)

/-- What a measure makes of the rows it counts. -/
inductive Aggregate where
  | count
  | sum (sql : ρ → ℚ)
  | avg (sql : ρ → ℚ)

structure Measure where
  type : Aggregate ρ
  /-- Only the rows that pass all of them are counted. -/
  filters : List (ρ → Bool) := []

structure Model where
  name : String
  dimensions : List (String × (ρ → Value))
  measures : List (String × Measure ρ)

end models

/-- A query.  Each filter is an `equals` on a dimension, with the values it accepts. -/
structure Query where
  dimensions : List String := []
  measures : List String := []
  filters : List (String × List String) := []
  limit : ℕ := 10000

variable {ρ : Type}

namespace Aggregate

/-- A sum and an average of no rows are null. -/
def value : Aggregate ρ → List ρ → Value
  | count, rows => .number rows.length
  | sum sql, rows => if rows.isEmpty then .null else .number (rows.map sql).sum
  | avg sql, rows => if rows.isEmpty then .null else .number ((rows.map sql).sum / rows.length)

theorem value_perm (a : Aggregate ρ) {rows rows' : List ρ} (h : rows.Perm rows') :
    a.value rows = a.value rows' := by
  cases a with
  | count => simp only [value, h.length_eq]
  | sum sql => simp only [value, h.isEmpty_eq, (h.map sql).sum_eq]
  | avg sql => simp only [value, h.isEmpty_eq, (h.map sql).sum_eq, h.length_eq]

end Aggregate

namespace Measure

variable (m : Measure ρ)

def counted (rows : List ρ) : List ρ := rows.filter fun row => m.filters.all fun f => f row

def value (rows : List ρ) : Value := m.type.value (m.counted rows)

theorem value_perm {rows rows' : List ρ} (h : rows.Perm rows') : m.value rows = m.value rows' :=
  m.type.value_perm (h.filter _)

end Measure

/-! ## Measures of two tables -/

section agree

variable {τ : Type} (R : ρ → τ → Prop)

/-- The aggregates read the same off rows that `R` relates. -/
inductive Aggregate.Agree : Aggregate ρ → Aggregate τ → Prop where
  | count : Agree .count .count
  | sum {sql : ρ → ℚ} {sql' : τ → ℚ} : (∀ x y, R x y → sql x = sql' y) → Agree (.sum sql) (.sum sql')
  | avg {sql : ρ → ℚ} {sql' : τ → ℚ} : (∀ x y, R x y → sql x = sql' y) → Agree (.avg sql) (.avg sql')

/-- The measures read the same off rows that `R` relates. -/
structure Measure.Agree (m : Measure ρ) (m' : Measure τ) : Prop where
  type : m.type.Agree R m'.type
  filters : List.Forall₂ (fun f g => ∀ x y, R x y → f x = g y) m.filters m'.filters

variable {R} {xs : List ρ} {ys : List τ}

theorem map_eq_of_forall₂ {sql : ρ → ℚ} {sql' : τ → ℚ} (h : ∀ x y, R x y → sql x = sql' y)
    (hrows : List.Forall₂ R xs ys) : xs.map sql = ys.map sql' := by
  rw [← List.forall₂_eq_eq_eq, List.forall₂_map_left_iff, List.forall₂_map_right_iff]
  exact hrows.imp h

theorem Aggregate.Agree.value {a : Aggregate ρ} {a' : Aggregate τ} (h : a.Agree R a')
    (hrows : List.Forall₂ R xs ys) : a.value xs = a'.value ys := by
  have hlength := hrows.length_eq
  have hempty : xs.isEmpty = ys.isEmpty := by cases hrows <;> rfl
  cases h with
  | count => simp only [Aggregate.value, hlength]
  | sum hsql => simp only [Aggregate.value, hempty, map_eq_of_forall₂ hsql hrows]
  | avg hsql => simp only [Aggregate.value, hempty, map_eq_of_forall₂ hsql hrows, hlength]

theorem all_eq_of_forall₂ {fs : List (ρ → Bool)} {gs : List (τ → Bool)}
    (h : List.Forall₂ (fun f g => ∀ x y, R x y → f x = g y) fs gs) {x : ρ} {y : τ} (hxy : R x y) :
    (fs.all fun f => f x) = gs.all fun g => g y := by
  induction h with
  | nil => rfl
  | cons hfg _ ih => rw [List.all_cons, List.all_cons, hfg x y hxy, ih]

/-- Measures that agree have the same value in tables whose rows are related one by one. -/
theorem Measure.Agree.value {m : Measure ρ} {m' : Measure τ} (h : m.Agree R m')
    (hrows : List.Forall₂ R xs ys) : m.value xs = m'.value ys := by
  have hfilters : ∀ x y, R x y → ((m.filters.all fun f => f x) ↔ (m'.filters.all fun f => f y)) := by
    intro x y hxy
    rw [all_eq_of_forall₂ h.filters hxy]
  exact h.type.value (List.rel_filter (fun _ _ hxy => hfilters _ _ hxy) hrows)

end agree

/-! ## Queries with their expressions -/

/-- A query with the expressions that its names stand for. -/
structure Select (ρ : Type) where
  dimensions : List (String × (ρ → Value))
  measures : List (String × Measure ρ)
  filters : List (ρ → Bool)
  limit : ℕ

namespace Model

variable (m : Model ρ)

/-- The name of a member in a query. -/
def member (name : String) : String := m.name ++ "." ++ name

def dimension (name : String) : Option (ρ → Value) :=
  (m.dimensions.find? fun d => m.member d.1 = name).map Prod.snd

def measure (name : String) : Option (Measure ρ) :=
  (m.measures.find? fun d => m.member d.1 = name).map Prod.snd

/-- A query with a name that the model does not have is no query. -/
def select (q : Query) : Option (Select ρ) := do
  let dimensions ← q.dimensions.mapM fun name => (m.dimension name).map (name, ·)
  let measures ← q.measures.mapM fun name => (m.measure name).map (name, ·)
  let filters ← q.filters.mapM fun f =>
    (m.dimension f.1).map fun sql row => decide (sql row ∈ f.2.map Value.text)
  pure ⟨dimensions, measures, filters, q.limit⟩

end Model

theorem exists_mem_of_mapM {α β : Type} {f : α → Option β} {xs : List α} {ys : List β}
    (h : xs.mapM f = some ys) {x : α} (hx : x ∈ xs) : ∃ y ∈ ys, f x = some y := by
  induction xs generalizing ys with
  | nil => cases hx
  | cons x' xs ih =>
    simp only [List.mapM_cons, Option.bind_eq_bind, Option.pure_def, Option.bind_eq_some_iff] at h
    obtain ⟨y, hy, ys, hys, ⟨⟩⟩ := h
    rcases List.mem_cons.mp hx with rfl | hx
    · exact ⟨y, by simp, hy⟩
    · obtain ⟨y', hmem, hy'⟩ := ih hys hx
      exact ⟨y', by simp [hmem], hy'⟩

/-- A line of an answer: the values under their names. -/
abbrev Line : Type := List (String × Value)

namespace Select

variable (s : Select ρ) (table : List ρ)

def rows : List ρ := table.filter fun row => s.filters.all fun f => f row

def key (row : ρ) : List Value := s.dimensions.map fun d => d.2 row

/-- The keys of the groups.  Without dimensions all rows are one group, even if there are
    none. -/
def keys : List (List Value) :=
  if s.dimensions.isEmpty then [[]] else ((s.rows table).map s.key).dedup

def group (key : List Value) : List ρ := (s.rows table).filter fun row => s.key row = key

def line (key : List Value) : Line :=
  (s.dimensions.map Prod.fst).zip key ++
    s.measures.map fun m => (m.1, m.2.value (s.group table key))

/-- The lines that a query may be answered with: those of the groups in some order, as far
    as the limit goes. -/
def Answers (data : List Line) : Prop :=
  ∃ keys : List (List Value), keys.Perm (s.keys table) ∧
    data = (keys.take s.limit).map (s.line table)

/-- The line of a row that is a group of its own. -/
def lineOf (row : ρ) : Line :=
  (s.dimensions.map Prod.fst).zip (s.key row) ++ s.measures.map fun m => (m.1, m.2.value [row])

variable {s table} {table' : List ρ} {data : List Line}

/-! ## What an answer depends on -/

theorem line_congr (h : (s.rows table).Perm (s.rows table')) (key : List Value) :
    s.line table key = s.line table' key := by
  have hgroup : (s.group table key).Perm (s.group table' key) := h.filter _
  unfold line
  congr 1
  apply List.map_congr_left
  intro m _
  rw [m.2.value_perm hgroup]

theorem keys_congr (h : (s.rows table).Perm (s.rows table')) :
    (s.keys table).Perm (s.keys table') := by
  unfold keys
  split
  · exact .refl _
  · exact (h.map s.key).dedup

/-- Tables with the same selected rows have the same answers. -/
theorem answers_congr (h : (s.rows table).Perm (s.rows table')) :
    s.Answers table data ↔ s.Answers table' data := by
  have hline : s.line table = s.line table' := funext fun key => line_congr h key
  have hkeys := keys_congr h
  unfold Answers
  rw [hline]
  constructor
  · rintro ⟨keys, hperm, hdata⟩
    exact ⟨keys, hperm.trans hkeys, hdata⟩
  · rintro ⟨keys, hperm, hdata⟩
    exact ⟨keys, hperm.trans hkeys.symm, hdata⟩

/-- The rows that a query selects pass its filters. -/
theorem mem_of_select {m : Model ρ} {q : Query} (h : m.select q = some s) {name : String}
    {values : List String} (hfilter : (name, values) ∈ q.filters) {sql : ρ → Value}
    (hname : m.dimension name = some sql) {row : ρ} (hrow : row ∈ s.rows table) :
    sql row ∈ values.map Value.text := by
  simp only [Model.select, Option.bind_eq_bind, Option.pure_def, Option.bind_eq_some_iff] at h
  obtain ⟨dimensions, -, measures, -, filters, hfilters, ⟨⟩⟩ := h
  obtain ⟨f, hf, heq⟩ := exists_mem_of_mapM hfilters hfilter
  rw [hname] at heq
  obtain rfl := Option.some.inj heq
  have hpasses := List.all_eq_true.mp (List.mem_filter.mp hrow).2 _ hf
  exact of_decide_eq_true hpasses

theorem rows_filter {p : ρ → Bool} (h : ∀ row ∈ s.rows table, p row = true) :
    s.rows (table.filter p) = s.rows table := by
  unfold rows at h ⊢
  rw [List.filter_filter, List.filter_congr]
  intro row hrow
  by_cases hpasses : (s.filters.all fun f => f row) = true
  · rw [hpasses, h row (List.mem_filter.mpr ⟨hrow, hpasses⟩)]
    rfl
  · rw [Bool.eq_false_iff.mpr hpasses]
    rfl

/-- Without dimensions there is one line. -/
theorem answers_total_iff (hdimensions : s.dimensions = []) (hlimit : 0 < s.limit) :
    s.Answers table data ↔ data = [s.measures.map fun m => (m.1, m.2.value (s.rows table))] := by
  have hkeys : s.keys table = [[]] := by simp [keys, hdimensions]
  have hgroup : s.group table [] = s.rows table := by simp [group, key, hdimensions]
  have hline : s.line table [] = s.measures.map fun m => (m.1, m.2.value (s.rows table)) := by
    rw [line, hgroup, hdimensions]
    rfl
  unfold Answers
  rw [hkeys, ← hline]
  constructor
  · rintro ⟨keys, hperm, rfl⟩
    rw [List.perm_singleton.mp hperm, List.take_of_length_le hlimit]
    rfl
  · rintro rfl
    refine ⟨[[]], .refl _, ?_⟩
    rw [List.take_of_length_le hlimit]
    rfl

/-- Where the dimensions tell the selected rows apart, each of them has a line of its own. -/
theorem perm_of_answers (hdimensions : s.dimensions ≠ [])
    (hinjective : ∀ row ∈ s.rows table, ∀ row' ∈ s.rows table, s.key row = s.key row' → row = row')
    (hnodup : (s.rows table).Nodup) (hlimit : (s.rows table).length ≤ s.limit)
    (h : s.Answers table data) : data.Perm ((s.rows table).map s.lineOf) := by
  obtain ⟨keys, hperm, rfl⟩ := h
  have hkeys : s.keys table = (s.rows table).map s.key := by
    unfold Select.keys
    rw [if_neg (by simpa using hdimensions)]
    exact (hnodup.map_on hinjective).dedup
  have hlength : keys.length ≤ s.limit := by
    rw [hperm.length_eq, hkeys, List.length_map]
    exact hlimit
  rw [List.take_of_length_le hlength]
  refine (hperm.map (s.line table)).trans ?_
  rw [hkeys, List.map_map]
  apply List.Perm.of_eq
  apply List.map_congr_left
  intro row hrow
  -- the group of the row is the row alone
  have hgroup : s.group table (s.key row) = [row] := by
    apply List.perm_singleton.mp
    refine (List.perm_ext_iff_of_nodup (hnodup.filter _) (List.nodup_singleton row)).mpr fun row' => ?_
    rw [List.mem_filter, List.mem_singleton, decide_eq_true_eq]
    constructor
    · intro ⟨hrow', hkey⟩
      exact hinjective row' hrow' row hrow hkey
    · rintro rfl
      exact ⟨hrow, rfl⟩
  show s.line table (s.key row) = s.lineOf row
  rw [line, hgroup, lineOf]

end Select

end DataModel
