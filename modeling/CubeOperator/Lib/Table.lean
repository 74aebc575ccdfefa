import Mathlib.Algebra.BigOperators.Group.List.Basic
import Mathlib.Data.List.Dedup
import Mathlib.Data.List.Nodup

/-! # Tables with a key

    A table is a list of rows.  This file gives the row stored under a key, an insert
    that updates the row it conflicts with, and what keys that are not repeated give:
    the insert keeps them so, and a sum over the rows is a sum over the keys. -/

namespace Table

variable {ρ κ M : Type} (key : ρ → κ)

/-- No key is stored twice. -/
def Unique (t : List ρ) : Prop := (t.map key).Nodup

theorem Unique.eq_of_key {key : ρ → κ} {t : List ρ} {row row' : ρ} (ht : Unique key t)
    (h : row ∈ t) (h' : row' ∈ t) (hkey : key row = key row') : row = row' :=
  List.inj_on_of_nodup_map ht h h' hkey

theorem Unique.filter {key : ρ → κ} {t : List ρ} (ht : Unique key t) (p : ρ → Bool) :
    Unique key (t.filter p) :=
  ht.sublist ((List.filter_sublist).map key)

variable [DecidableEq κ]

/-- The row stored under a key. -/
def stored (t : List ρ) (k : κ) : Option ρ := t.find? fun row => key row = k

/-- Insert a row, or update the one stored under its key.  Returns the table and the row
    that was written. -/
def insertOrUpdate (update : ρ → ρ) (new : ρ) (t : List ρ) : List ρ × ρ :=
  match stored key t (key new) with
  | none => (t ++ [new], new)
  | some old => (t.map fun row => if key row = key new then update row else row, update old)

variable {key} {t : List ρ} {k : κ} {row new : ρ}

theorem stored_eq_none_iff : stored key t k = none ↔ ∀ row ∈ t, key row ≠ k := by
  simp [stored]

theorem mem_of_stored (h : stored key t k = some row) : row ∈ t :=
  List.mem_of_find?_eq_some h

theorem key_of_stored (h : stored key t k = some row) : key row = k := by
  simpa using List.find?_some h

theorem stored_of_mem (ht : Unique key t) (h : row ∈ t) :
    stored key t (key row) = some row := by
  cases hstored : stored key t (key row) with
  | none => exact absurd rfl (stored_eq_none_iff.mp hstored row h)
  | some row' =>
    have hsame := ht.eq_of_key (mem_of_stored hstored) h (key_of_stored hstored)
    rw [hsame]

theorem stored_append (h : stored key t k = none) (hkey : key new = k) :
    stored key (t ++ [new]) k = some new := by
  unfold stored at h ⊢
  rw [List.find?_append, h]
  simp [hkey]

/-- An insert whose update changes nothing adds the row or leaves the table alone. -/
theorem insertOrUpdate_cases (key : ρ → κ) (new : ρ) (t : List ρ) {update : ρ → ρ}
    (hupdate : ∀ row, update row = row) :
    (stored key t (key new) = none ∧ insertOrUpdate key update new t = (t ++ [new], new)) ∨
    ∃ old, stored key t (key new) = some old ∧ insertOrUpdate key update new t = (t, old) := by
  unfold insertOrUpdate
  cases h : stored key t (key new) with
  | none => exact .inl ⟨rfl, rfl⟩
  | some old => exact .inr ⟨old, rfl, by simp [hupdate]⟩

theorem unique_append (ht : Unique key t) (h : stored key t (key new) = none) :
    Unique key (t ++ [new]) := by
  have hnew := stored_eq_none_iff.mp h
  unfold Unique at ht ⊢
  rw [List.map_append, List.nodup_append]
  refine ⟨ht, List.nodup_singleton _, ?_⟩
  intro k hk k' hk'
  obtain ⟨row, hrow, rfl⟩ := List.mem_map.mp hk
  obtain rfl : k' = key new := by simpa using hk'
  exact hnew row hrow

/-- A sum over the rows counts what is stored under each key once. -/
theorem sum_eq_sum_keys [AddMonoid M] (ht : Unique key t) (f : ρ → M) :
    (t.map f).sum =
      ((t.map key).dedup.map fun k => ((stored key t k).map f).getD 0).sum := by
  have hkeys : (t.map key).dedup = t.map key := ht.dedup
  rw [hkeys, List.map_map]
  congr 1
  refine List.map_congr_left fun row hrow => ?_
  simp [stored_of_mem ht hrow]

end Table
