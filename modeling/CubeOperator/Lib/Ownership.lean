import Mathlib.Data.Finset.Basic

/-! # Fields and their owners

    An object of which the server knows, for every field, the managers that own it.
    A forced apply sets the fields of a document for its manager and gives up those
    the document no longer has.  Any other write makes its manager the owner of
    what it adds or changes.  This file gives

    * `apply` and `write`, which keep that a field is there exactly when it is owned;
    * `left`: the fields that somebody else owns, which an apply leaves behind;
    * `value_apply`: an apply leaves the document, and besides it what `left` has;
    * `ownedBy_apply`: an apply takes from another manager what it sets to another value;
    * `apply_apply`: a second apply of the same document changes nothing;
    * `OwnedWithin`: who can own anything after a number of writes. -/

/-- An object whose fields, at paths in `π`, are owned by managers in `μ`. -/
structure ManagedFields (μ π α : Type) where
  value : π → Option α
  owners : π → Finset μ
  owned : ∀ p, value p = none ↔ owners p = ∅

namespace ManagedFields

variable {μ π α : Type}

theorem ext_of_fields {o o' : ManagedFields μ π α} (hvalue : ∀ p, o.value p = o'.value p)
    (howners : ∀ p, o.owners p = o'.owners p) : o = o' := by
  cases o
  cases o'
  obtain rfl := funext hvalue
  obtain rfl := funext howners
  rfl

/-- The object without fields. -/
def empty : ManagedFields μ π α where
  value _ := none
  owners _ := ∅
  owned _ := by simp

/-- Only managers in `M` own fields. -/
def OwnedWithin (M : Finset μ) (o : ManagedFields μ π α) : Prop := ∀ p, o.owners p ⊆ M

theorem ownedWithin_empty (M : Finset μ) : OwnedWithin M (empty : ManagedFields μ π α) :=
  fun _ => Finset.empty_subset M

/-! ## Who owns a field -/

section left

variable [DecidableEq μ] {m m' : μ} {o : ManagedFields μ π α} {p : π}

/-- The fields that some manager other than `m` owns. -/
def left (m : μ) (o : ManagedFields μ π α) (p : π) : Option α :=
  if (o.owners p).erase m = ∅ then none else o.value p

/-- The fields that the manager `m` owns. -/
def ownedBy (m : μ) (o : ManagedFields μ π α) (p : π) : Option α :=
  if m ∈ o.owners p then o.value p else none

@[simp] theorem left_empty : (empty : ManagedFields μ π α).left m p = none := by
  simp [left, empty]

@[simp] theorem ownedBy_empty : (empty : ManagedFields μ π α).ownedBy m p = none := by
  simp [ownedBy, empty]

/-- With two managers, what is left of one is what the other owns. -/
theorem left_eq_ownedBy (h : o.OwnedWithin {m, m'}) (hne : m' ≠ m) : o.left m p = o.ownedBy m' p := by
  have hiff : (o.owners p).erase m = ∅ ↔ m' ∉ o.owners p := by
    constructor
    · intro hempty hmem
      have herase : m' ∈ (o.owners p).erase m := Finset.mem_erase.mpr ⟨hne, hmem⟩
      rw [hempty] at herase
      cases herase
    · intro hnot
      refine Finset.eq_empty_of_forall_notMem fun x hx => ?_
      obtain ⟨hxm, hx⟩ := Finset.mem_erase.mp hx
      rcases Finset.mem_insert.mp (h p hx) with rfl | hx'
      · exact hxm rfl
      · exact hnot (Finset.mem_singleton.mp hx' ▸ hx)
  unfold left ownedBy
  by_cases hmem : m' ∈ o.owners p
  · rw [if_neg (fun hempty => hiff.mp hempty hmem), if_pos hmem]
  · rw [if_pos (hiff.mpr hmem), if_neg hmem]

end left

/-! ## Writes -/

section writes

variable [DecidableEq α] {m : μ} {new : π → Option α} {o : ManagedFields μ π α}

/-- A write by the manager `m` after which the fields are `new`. -/
def write (m : μ) (new : π → Option α) (o : ManagedFields μ π α) : ManagedFields μ π α where
  value := new
  owners p := if new p = o.value p then o.owners p else if new p = none then ∅ else {m}
  owned p := by
    by_cases hsame : new p = o.value p
    · rw [if_pos hsame, hsame]
      exact o.owned p
    · rw [if_neg hsame]
      by_cases hnone : new p = none <;> simp [hnone]

@[simp] theorem value_write : (o.write m new).value = new := rfl

theorem OwnedWithin.write {M : Finset μ} (h : o.OwnedWithin M) (hm : m ∈ M) :
    (o.write m new).OwnedWithin M := by
  intro p
  simp only [ManagedFields.write]
  split
  · exact h p
  · split
    · exact Finset.empty_subset M
    · exact Finset.singleton_subset_iff.mpr hm

end writes

/-! ## Forced applies -/

section apply

variable [DecidableEq μ] [DecidableEq α] {m m' : μ} {doc : π → Option α}
  {o : ManagedFields μ π α} {p : π} {v : α}

/-- Forced server-side apply of the fields `doc` by the manager `m`. -/
def apply (m : μ) (doc : π → Option α) (o : ManagedFields μ π α) : ManagedFields μ π α where
  value p := (doc p).or (o.left m p)
  owners p :=
    if doc p = none then (o.owners p).erase m
    else if doc p = o.value p then insert m (o.owners p) else {m}
  owned p := by
    cases hdoc : doc p with
    | some v =>
      by_cases hsame : some v = o.value p
      · simp [← hsame]
      · simp [hsame]
    | none =>
      simp only [Option.none_or, if_true, left]
      by_cases hnobody : (o.owners p).erase m = ∅
      · simp [hnobody]
      · -- a field that somebody else owns is there
        have howned : o.owners p ≠ ∅ := fun h => hnobody (by simp [h])
        simp [hnobody, o.owned, howned]

/-- The fields of the document, and what others own besides it. -/
theorem value_apply : (o.apply m doc).value p = (doc p).or (o.left m p) := rfl

/-- An apply takes from another manager what it sets to another value, and nothing else. -/
theorem ownedBy_apply (hne : m' ≠ m) : (o.apply m doc).ownedBy m' p =
    if doc p = none ∨ doc p = o.value p then o.ownedBy m' p else none := by
  rcases Option.eq_none_or_eq_some (doc p) with hdoc | ⟨v, hdoc⟩
  · rw [if_pos (.inl hdoc)]
    by_cases hmem : m' ∈ o.owners p
    · have hleft : (o.owners p).erase m ≠ ∅ :=
        Finset.ne_empty_of_mem (Finset.mem_erase.mpr ⟨hne, hmem⟩)
      simp [ownedBy, apply, left, hdoc, hmem, hne, hleft]
    · simp [ownedBy, apply, hdoc, hmem]
  · by_cases hsame : some v = o.value p
    · rw [if_pos (.inr (hdoc.trans hsame))]
      simp [ownedBy, apply, hdoc, ← hsame, hne]
    · simp [ownedBy, apply, hdoc, hsame, hne]

/-- What another manager owns does not grow by an apply. -/
theorem ownedBy_of_ownedBy_apply (hne : m' ≠ m) (h : (o.apply m doc).ownedBy m' p = some v) :
    o.ownedBy m' p = some v := by
  rw [ownedBy_apply hne] at h
  split at h
  · exact h
  · cases h

/-- Applying a document again changes nothing. -/
theorem apply_apply (m : μ) (doc : π → Option α) (o : ManagedFields μ π α) :
    (o.apply m doc).apply m doc = o.apply m doc := by
  refine ext_of_fields (fun p => ?_) fun p => ?_ <;>
  rcases Option.eq_none_or_eq_some (doc p) with hdoc | ⟨v, hdoc⟩
  · -- what the document does not have is what others own, and they own it still
    by_cases hnobody : (o.owners p).erase m = ∅ <;> simp [apply, left, hdoc, hnobody]
  · simp [apply, hdoc]
  · simp [apply, hdoc]
  · by_cases hsame : some v = o.value p
    · simp [apply, hdoc, ← hsame]
    · simp [apply, hdoc, hsame]

/-- An object that an apply does not change has the fields of the document. -/
theorem value_of_apply_eq (h : o.apply m doc = o) (hdoc : doc p = some v) : o.value p = some v := by
  rw [← h, value_apply, hdoc, Option.some_or]

theorem OwnedWithin.apply {M : Finset μ} (h : o.OwnedWithin M) (hm : m ∈ M) :
    (o.apply m doc).OwnedWithin M := by
  intro p
  simp only [ManagedFields.apply]
  split
  · exact (Finset.erase_subset _ _).trans (h p)
  · split
    · exact Finset.insert_subset hm (h p)
    · exact Finset.singleton_subset_iff.mpr hm

end apply

end ManagedFields
