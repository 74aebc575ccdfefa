import Mathlib.Data.List.Basic

/-! # A value and the copy that a watch keeps

    A server stores a value and sends its changes, in order, to somebody who keeps a
    copy.  The copy is behind by the changes that have not been delivered yet.  A change
    from or to a value that is watched for raises an alert when it is delivered; the
    others go by unnoticed.  This file gives

    * `Becomes` and `Delivers`: how the two sides change;
    * `Known`: the copy has a property, or an alert is still to come;
    * `Known.write` and `Known.deliver`: what is known stays known until an alert, if the
      property does not tell apart what is not watched for;
    * `Known.of_settled`: with all delivered, what is known holds of the stored value. -/

structure Feed (α : Type) where
  cached : α
  undelivered : List α

namespace Feed

variable {α : Type}

/-- The value that the server has. -/
def stored (f : Feed α) : α := f.undelivered.getLast?.getD f.cached

/-- A change is stored, and will be sent. -/
def write (f : Feed α) (a : α) : Feed α := { f with undelivered := f.undelivered ++ [a] }

/-- The value becomes `a`.  What changes nothing is not sent. -/
def Becomes (f : Feed α) (a : α) (f' : Feed α) : Prop :=
  f.stored = a ∧ f' = f ∨ f.stored ≠ a ∧ f' = f.write a

/-- The next change is delivered. -/
def Delivers (f f' : Feed α) : Prop := f.undelivered = f'.cached :: f'.undelivered

/-- Every change has been delivered. -/
def Settled (f : Feed α) : Prop := f.undelivered = []

/-- The watch starts anew: the copy is empty, and what is there will be sent. -/
def relist (f : Feed (Option α)) : Feed (Option α) := ⟨none, f.stored.toList.map some⟩

@[simp] theorem cached_relist (f : Feed (Option α)) : f.relist.cached = none := rfl

@[simp] theorem stored_relist (f : Feed (Option α)) : f.relist.stored = f.stored := by
  unfold relist
  generalize f.stored = x
  cases x <;> rfl

@[simp] theorem cached_write (f : Feed α) (a : α) : (f.write a).cached = f.cached := rfl

@[simp] theorem stored_write (f : Feed α) (a : α) : (f.write a).stored = a := by
  simp [stored, write]

theorem Settled.stored {f : Feed α} (h : f.Settled) : f.stored = f.cached := by
  have hnone : f.undelivered = [] := h
  simp [Feed.stored, hnone]

theorem Becomes.stored {f f' : Feed α} {a : α} (h : f.Becomes a f') : f'.stored = a := by
  rcases h with ⟨ha, rfl⟩ | ⟨-, rfl⟩
  · exact ha
  · exact stored_write f a

theorem Becomes.eq_self {f f' : Feed α} (h : f.Becomes f.stored f') : f' = f := by
  rcases h with ⟨-, hf⟩ | ⟨hne, -⟩
  · exact hf
  · exact absurd rfl hne

theorem stored_mem (f : Feed α) : f.stored ∈ f.cached :: f.undelivered := by
  unfold stored
  cases h : f.undelivered.getLast? with
  | none => simp
  | some a => simp [List.mem_of_getLast? h]

/-! ## What is known -/

section watch

variable {watched : α → Prop} {P : α → Prop} {f f' : Feed α}

/-- A delivery that raises an alert is still to come. -/
def Alerts (watched : α → Prop) (f : Feed α) : Prop :=
  f.undelivered ≠ [] ∧ ∃ a ∈ f.cached :: f.undelivered, watched a

/-- The delivery from `f` to `f'` raises an alert. -/
def Alert (watched : α → Prop) (f f' : Feed α) : Prop := watched f.cached ∨ watched f'.cached

/-- The copy has the property `P`, unless an alert is still to come. -/
def Known (watched P : α → Prop) (f : Feed α) : Prop := f.Alerts watched ∨ P f.cached

/-- The property does not tell apart values that are not watched for. -/
def Blind (watched P : α → Prop) : Prop := ∀ a b, ¬watched a → ¬watched b → P a → P b

/-- Where everything is watched for, every property will do. -/
theorem blind_of_forall (h : ∀ a, watched a) : Blind watched P := fun a _ ha => absurd (h a) ha

/-- A property of watched values only. -/
theorem blind_of_watched (h : ∀ a, P a → watched a) : Blind watched P :=
  fun a _ ha _ hP => absurd (h a hP) ha

/-- A property that says nothing of the others. -/
theorem blind_of_unwatched (h : ∀ a, ¬watched a → P a) : Blind watched P := fun _ b _ hb _ => h b hb

/-- A property of the stored value is known: the copy has the value already, will be
    told of it, or is not told because neither is watched for. -/
theorem known_of_stored (hP : Blind watched P) (h : P f.stored) : Known watched P f := by
  by_cases hnone : f.undelivered = []
  · right
    rwa [← Settled.stored hnone]
  · by_cases hsome : ∃ a ∈ f.cached :: f.undelivered, watched a
    · exact .inl ⟨hnone, hsome⟩
    · push Not at hsome
      exact .inr (hP f.stored f.cached (hsome _ f.stored_mem) (hsome _ (by simp)) h)

theorem known_of_cached (h : P f.cached) : Known watched P f := .inr h

theorem Known.write (h : Known watched P f) (a : α) : Known watched P (f.write a) := by
  rcases h with ⟨-, b, hb, hwatched⟩ | h
  · refine .inl ⟨by simp [Feed.write], b, ?_, hwatched⟩
    simp only [Feed.write, List.mem_cons, List.mem_append] at hb ⊢
    tauto
  · exact .inr h

theorem Known.becomes {a : α} (h : Known watched P f) (hf : f.Becomes a f') :
    Known watched P f' := by
  rcases hf with ⟨-, rfl⟩ | ⟨-, rfl⟩
  · exact h
  · exact h.write a

/-- A delivery without an alert leaves what is known. -/
theorem Known.deliver (hP : Blind watched P) (h : Known watched P f) (hf : f.Delivers f')
    (hquiet : ¬Alert watched f f') : Known watched P f' := by
  have hold : ¬watched f.cached := fun ha => hquiet (.inl ha)
  have hnew : ¬watched f'.cached := fun ha => hquiet (.inr ha)
  rcases h with ⟨-, a, ha, hwatched⟩ | h
  · -- the alert is one of the later changes
    rw [hf] at ha
    rcases List.mem_cons.mp ha with rfl | ha
    · exact absurd hwatched hold
    rcases List.mem_cons.mp ha with rfl | ha
    · exact absurd hwatched hnew
    exact .inl ⟨List.ne_nil_of_mem ha, a, List.mem_cons_of_mem _ ha, hwatched⟩
  · exact .inr (hP _ _ hold hnew h)

theorem Known.of_settled (h : Known watched P f) (hf : f.Settled) : P f.stored := by
  rw [hf.stored]
  exact h.resolve_left fun halerts => halerts.1 hf

end watch

end Feed
