import CubeOperator.Lib.Program
import Mathlib.Data.Set.Function
import Mathlib.Data.Set.Lattice
import Mathlib.Data.Set.Piecewise
import Mathlib.Order.CompletePartialOrder

/-! # Programs with separate footprints

    The state of an environment is a value for each place.  A call changes the
    places of its footprint only, and nothing it does depends on any other place.
    Two programs whose calls stay away from each other's places then commute:
    however their calls interleave, each runs as it does alone. -/

namespace Interaction

variable {Call : Type} {Answer : Call → Type} {π V α β : Type}

/-! ## Interleavings -/

section shuffle

variable {γ : Type} {xs ys zs : List γ}

/-- `Shuffle xs ys zs`: the elements of `xs` and those of `ys` in some order that keeps
    the order of each list. -/
inductive Shuffle : List γ → List γ → List γ → Prop where
  | nil : Shuffle [] [] []
  | left (x : γ) {xs ys zs : List γ} : Shuffle xs ys zs → Shuffle (x :: xs) ys (x :: zs)
  | right (y : γ) {xs ys zs : List γ} : Shuffle xs ys zs → Shuffle xs (y :: ys) (y :: zs)

namespace Shuffle

theorem nil_left (ys : List γ) : Shuffle [] ys ys := by
  induction ys with
  | nil => exact .nil
  | cons y ys ih => exact .right y ih

/-- One list after the other. -/
theorem append (xs ys : List γ) : Shuffle xs ys (xs ++ ys) := by
  induction xs with
  | nil => exact nil_left ys
  | cons x xs ih => exact .left x ih

theorem mem_iff (h : Shuffle xs ys zs) {z : γ} : z ∈ zs ↔ z ∈ xs ∨ z ∈ ys := by
  induction h with
  | nil => simp
  | left x _ ih => simp [ih, or_assoc]
  | right y _ ih => simp [ih, or_left_comm]

end Shuffle

end shuffle

/-- Two programs side by side, one call at a time. -/
inductive Interleaved : Program Call Answer α → Program Call Answer β → List (Event Answer) →
    α → β → Prop where
  | ret (a : α) (b : β) : Interleaved (.ret a) (.ret b) [] a b
  | left {c : Call} {next : Answer c → Program Call Answer α} {q : Program Call Answer β}
      (r : Answer c) {tr : List (Event Answer)} {a : α} {b : β} :
      Interleaved (next r) q tr a b → Interleaved (.call c next) q (⟨c, r⟩ :: tr) a b
  | right {c : Call} {p : Program Call Answer α} {next : Answer c → Program Call Answer β}
      (r : Answer c) {tr : List (Event Answer)} {a : α} {b : β} :
      Interleaved p (next r) tr a b → Interleaved p (.call c next) (⟨c, r⟩ :: tr) a b

/-- Side by side, each program makes a run of its own. -/
theorem interleaved_iff {p : Program Call Answer α} {q : Program Call Answer β}
    {tr : List (Event Answer)} {a : α} {b : β} :
    Interleaved p q tr a b ↔ ∃ tr₁ tr₂, Exec p tr₁ a ∧ Exec q tr₂ b ∧ Shuffle tr₁ tr₂ tr := by
  constructor
  · intro h
    induction h with
    | ret a b => exact ⟨[], [], .ret a, .ret b, .nil⟩
    | left r _ ih =>
      obtain ⟨tr₁, tr₂, h₁, h₂, h⟩ := ih
      exact ⟨_, tr₂, .call r h₁, h₂, .left _ h⟩
    | right r _ ih =>
      obtain ⟨tr₁, tr₂, h₁, h₂, h⟩ := ih
      exact ⟨tr₁, _, h₁, .call r h₂, .right _ h⟩
  · rintro ⟨tr₁, tr₂, h₁, h₂, h⟩
    induction h generalizing p q with
    | nil =>
      cases h₁
      cases h₂
      exact .ret a b
    | left x _ ih =>
      cases h₁ with
      | call r h₁ => exact .left r (ih h₁ h₂)
    | right y _ ih =>
      cases h₂ with
      | call r h₂ => exact .right r (ih h₁ h₂)

/-! ## Footprints -/

/-- The places that a call may change, and those that it only looks at. -/
structure Footprint (Call π : Type) where
  writes : Call → Set π
  reads : Call → Set π

namespace Footprint

variable (F : Footprint Call π) {H : (π → V) → Event Answer → (π → V) → Prop}

/-- The environment changes the places a call writes and no others, and how it does
    depends on the places of the call only. -/
structure Bounds (H : (π → V) → Event Answer → (π → V) → Prop) : Prop where
  frame : ∀ s e s', H s e s' → Set.EqOn s' s (F.writes e.1)ᶜ
  depends : ∀ s e s' t t', H s e s' → Set.EqOn t s (F.reads e.1 ∪ F.writes e.1) →
    Set.EqOn t' s' (F.writes e.1) → Set.EqOn t' t (F.writes e.1)ᶜ → H t e t'

/-- A call changes places of `own` only and does not look at places of `foreign`. -/
def Confined (own foreign : Set π) (e : Event Answer) : Prop :=
  F.writes e.1 ⊆ own ∧ Disjoint (F.reads e.1) foreign

/-- `s'` has the places of `R₁` from `s₁`, those of `R₂` from `s₂` and all others from `s`. -/
structure Combines (R₁ R₂ : Set π) (s s₁ s₂ s' : π → V) : Prop where
  left : Set.EqOn s' s₁ R₁
  right : Set.EqOn s' s₂ R₂
  others : Set.EqOn s' s (R₁ ∪ R₂)ᶜ

variable {F} {R₁ R₂ : Set π}

theorem Combines.swap {s s₁ s₂ s' : π → V} (h : Combines R₁ R₂ s s₁ s₂ s') :
    Combines R₂ R₁ s s₂ s₁ s' where
  left := h.right
  right := h.left
  others := by
    rw [Set.union_comm]
    exact h.others

/-- An exchange that stays away from `R` goes the same way whatever `R` holds. -/
theorem Bounds.transport (hF : F.Bounds H) {own R : Set π} (hR : Disjoint own R) {s s' t : π → V}
    {e : Event Answer} (h : H s e s') (he : F.Confined own R e) (hst : Set.EqOn t s Rᶜ) :
    ∃ t', H t e t' ∧ Set.EqOn t' s' Rᶜ ∧ Set.EqOn t' t R := by
  classical
  obtain ⟨hwrites, hreads⟩ := he
  have hwritesR : Disjoint (F.writes e.1) R := hR.mono_left hwrites
  refine ⟨R.piecewise t s', ?_, R.piecewise_eqOn_compl t s', R.piecewise_eqOn t s'⟩
  have hplaces : F.reads e.1 ∪ F.writes e.1 ⊆ Rᶜ :=
    Set.union_subset hreads.subset_compl_right hwritesR.subset_compl_right
  refine hF.depends s e s' t _ h (hst.mono hplaces) ?_ ?_
  · exact (R.piecewise_eqOn_compl t s').mono hwritesR.subset_compl_right
  · intro p hp
    by_cases hpR : p ∈ R
    · exact R.piecewise_eqOn t s' hpR
    · rw [R.piecewise_eqOn_compl t s' hpR, hF.frame s e s' h hp, hst hpR]

theorem Bounds.transport_replay (hF : F.Bounds H) {own R : Set π} (hR : Disjoint own R)
    {s s' t : π → V} {tr : List (Event Answer)} (h : Replay H s tr s')
    (htr : ∀ e ∈ tr, F.Confined own R e) (hst : Set.EqOn t s Rᶜ) :
    ∃ t', Replay H t tr t' ∧ Set.EqOn t' s' Rᶜ ∧ Set.EqOn t' t R := by
  induction h generalizing t with
  | nil s => exact ⟨t, .nil t, hst, fun _ _ => rfl⟩
  | @cons s s₁ s' e tr hserves _ ih =>
    obtain ⟨t₁, ht₁, hout₁, hin₁⟩ := hF.transport hR hserves (htr e (by simp)) hst
    obtain ⟨t', ht', hout, hin⟩ := ih (fun e he => htr e (by simp [he])) hout₁
    exact ⟨t', .cons ht₁ ht', hout, hin.trans hin₁⟩

/-- An exchange of the first side before both sides go on. -/
theorem Bounds.cons_left (hF : F.Bounds H) (hdisj : Disjoint R₁ R₂) {s s' : π → V}
    {e : Event Answer} (he : F.Confined R₁ R₂ e) {tr₁ tr₂ : List (Event Answer)}
    (htr₂ : ∀ e ∈ tr₂, F.Confined R₂ R₁ e) :
    (∃ s₀, H s e s₀ ∧ ∃ s₁ s₂, Replay H s₀ tr₁ s₁ ∧ Replay H s₀ tr₂ s₂ ∧
        Combines R₁ R₂ s₀ s₁ s₂ s') ↔
      ∃ s₁ s₂, Replay H s (e :: tr₁) s₁ ∧ Replay H s tr₂ s₂ ∧ Combines R₁ R₂ s s₁ s₂ s' := by
  have hR₂ : R₂ ⊆ R₁ᶜ := hdisj.symm.subset_compl_right
  have hframe {s₀ : π → V} (h : H s e s₀) : Set.EqOn s s₀ R₁ᶜ :=
    ((hF.frame s e s₀ h).mono (Set.compl_subset_compl.mpr he.1)).symm
  have hothers : (R₁ ∪ R₂)ᶜ ⊆ R₁ᶜ := Set.compl_subset_compl.mpr Set.subset_union_left
  constructor
  · rintro ⟨s₀, hserves, s₁, s₂, h₁, h₂, hc⟩
    obtain ⟨t₂, ht₂, hout, -⟩ := hF.transport_replay hdisj.symm h₂ htr₂ (hframe hserves)
    refine ⟨s₁, t₂, .cons hserves h₁, ht₂, hc.left, ?_, ?_⟩
    · exact hc.right.trans (hout.mono hR₂).symm
    · exact hc.others.trans ((hframe hserves).mono hothers).symm
  · rintro ⟨s₁, s₂, h₁, h₂, hc⟩
    obtain ⟨s₀, hserves, h₁⟩ := Replay.cons_iff.mp h₁
    obtain ⟨t₂, ht₂, hout, -⟩ := hF.transport_replay hdisj.symm h₂ htr₂ (hframe hserves).symm
    refine ⟨s₀, hserves, s₁, t₂, h₁, ht₂, hc.left, ?_, ?_⟩
    · exact hc.right.trans (hout.mono hR₂).symm
    · exact hc.others.trans ((hframe hserves).mono hothers)

/-- Traces that stay out of each other's places interleave freely: what they leave is
    what each leaves by itself. -/
theorem Bounds.replay_shuffle (hF : F.Bounds H) (hdisj : Disjoint R₁ R₂)
    {tr₁ tr₂ tr : List (Event Answer)} (h : Shuffle tr₁ tr₂ tr)
    (h₁ : ∀ e ∈ tr₁, F.Confined R₁ R₂ e) (h₂ : ∀ e ∈ tr₂, F.Confined R₂ R₁ e) {s s' : π → V} :
    Replay H s tr s' ↔
      ∃ s₁ s₂, Replay H s tr₁ s₁ ∧ Replay H s tr₂ s₂ ∧ Combines R₁ R₂ s s₁ s₂ s' := by
  induction h generalizing s s' with
  | nil =>
    simp only [Replay.nil_iff]
    constructor
    · rintro rfl
      exact ⟨s', s', rfl, rfl, fun _ _ => rfl, fun _ _ => rfl, fun _ _ => rfl⟩
    · rintro ⟨s₁, s₂, rfl, rfl, hleft, hright, hothers⟩
      funext p
      by_cases hp : p ∈ R₁ ∪ R₂
      · exact hp.elim (fun hp => hleft hp) fun hp => hright hp
      · exact hothers hp
  | left e _ ih =>
    have ih := @ih (fun e he => h₁ e (by simp [he])) h₂
    rw [Replay.cons_iff]
    simp only [ih]
    exact hF.cons_left hdisj (h₁ e (by simp)) h₂
  | right e _ ih =>
    have ih := @ih h₁ fun e he => h₂ e (by simp [he])
    -- the same with the sides exchanged
    have hswap {s₀ s' : π → V} {tr₁ tr₂ : List (Event Answer)} :
        (∃ s₁ s₂, Replay H s₀ tr₁ s₁ ∧ Replay H s₀ tr₂ s₂ ∧ Combines R₁ R₂ s₀ s₁ s₂ s') ↔
          ∃ s₂ s₁, Replay H s₀ tr₂ s₂ ∧ Replay H s₀ tr₁ s₁ ∧ Combines R₂ R₁ s₀ s₂ s₁ s' := by
      constructor
      · rintro ⟨s₁, s₂, h₁, h₂, hc⟩
        exact ⟨s₂, s₁, h₂, h₁, hc.swap⟩
      · rintro ⟨s₂, s₁, h₂, h₁, hc⟩
        exact ⟨s₁, s₂, h₁, h₂, hc.swap⟩
    rw [hswap, ← hF.cons_left hdisj.symm (h₂ e (by simp)) h₁]
    simp only [Replay.cons_iff, ih, hswap]

/-! ## Programs -/

/-- Answered as `A` allows, the program changes places of `own` only and does not look
    at places of `foreign`. -/
def ConfinedProgram (F : Footprint Call π) (A : Event Answer → Prop) (own foreign : Set π)
    (p : Program Call Answer α) : Prop :=
  Ensures (fun (_ : Unit) e _ => A e) (fun _ e _ => F.Confined own foreign e) (fun _ _ => True) p ()

theorem ConfinedProgram.of_exec {A : Event Answer → Prop} {p : Program Call Answer α}
    (hp : F.ConfinedProgram A R₁ R₂ p) {tr : List (Event Answer)} {a : α} (h : Exec p tr a)
    (htr : ∀ e ∈ tr, A e) : ∀ e ∈ tr, F.Confined R₁ R₂ e := by
  intro e he
  rw [← List.append_nil tr] at h
  obtain ⟨-, -, hconfined⟩ := Ensures.guarantee hp h (Replay.of_forall htr) e he
  exact hconfined

/-- The program, run by itself from `s`, returns `a` and leaves `s'`. -/
def Runs (H : (π → V) → Event Answer → (π → V) → Prop) (p : Program Call Answer α) (s : π → V)
    (a : α) (s' : π → V) : Prop :=
  ∃ tr, Exec p tr a ∧ Replay H s tr s'

section programs

variable {A : Event Answer → Prop} {p : Program Call Answer α} {q : Program Call Answer β}
  (hF : F.Bounds H) (hA : ∀ s e s', H s e s' → A e) (hdisj : Disjoint R₁ R₂)
  (hp : F.ConfinedProgram A R₁ R₂ p) (hq : F.ConfinedProgram A R₂ R₁ q)

include hF hA hdisj hp hq

/-- Two programs with separate places, run side by side, return and leave what each
    returns and leaves by itself. -/
theorem Bounds.interleaved {a : α} {b : β} {s s' : π → V} :
    (∃ tr, Interleaved p q tr a b ∧ Replay H s tr s') ↔
      ∃ s₁ s₂, Runs H p s a s₁ ∧ Runs H q s b s₂ ∧ Combines R₁ R₂ s s₁ s₂ s' := by
  constructor
  · rintro ⟨tr, hinterleaved, hreplay⟩
    obtain ⟨tr₁, tr₂, h₁, h₂, hshuffle⟩ := interleaved_iff.mp hinterleaved
    have hall := hreplay.forall_of_step hA
    have hc₁ := hp.of_exec h₁ fun e he => hall e (hshuffle.mem_iff.mpr (.inl he))
    have hc₂ := hq.of_exec h₂ fun e he => hall e (hshuffle.mem_iff.mpr (.inr he))
    obtain ⟨s₁, s₂, hs₁, hs₂, hcombines⟩ := (hF.replay_shuffle hdisj hshuffle hc₁ hc₂).mp hreplay
    exact ⟨s₁, s₂, ⟨tr₁, h₁, hs₁⟩, ⟨tr₂, h₂, hs₂⟩, hcombines⟩
  · rintro ⟨s₁, s₂, ⟨tr₁, h₁, hs₁⟩, ⟨tr₂, h₂, hs₂⟩, hcombines⟩
    have hshuffle := Shuffle.append tr₁ tr₂
    have hc₁ := hp.of_exec h₁ (hs₁.forall_of_step hA)
    have hc₂ := hq.of_exec h₂ (hs₂.forall_of_step hA)
    exact ⟨tr₁ ++ tr₂, interleaved_iff.mpr ⟨tr₁, tr₂, h₁, h₂, hshuffle⟩,
      (hF.replay_shuffle hdisj hshuffle hc₁ hc₂).mpr ⟨s₁, s₂, hs₁, hs₂, hcombines⟩⟩

/-- One program after the other is one way to run them side by side. -/
theorem Bounds.sequence {a : α} {b : β} {s s' : π → V} :
    (∃ s₀, Runs H p s a s₀ ∧ Runs H q s₀ b s') ↔
      ∃ s₁ s₂, Runs H p s a s₁ ∧ Runs H q s b s₂ ∧ Combines R₁ R₂ s s₁ s₂ s' := by
  constructor
  · rintro ⟨s₀, ⟨tr₁, h₁, hs₁⟩, ⟨tr₂, h₂, hs₂⟩⟩
    refine (hF.interleaved hA hdisj hp hq).mp ⟨tr₁ ++ tr₂, ?_, Replay.append_iff.mpr ⟨s₀, hs₁, hs₂⟩⟩
    exact interleaved_iff.mpr ⟨tr₁, tr₂, h₁, h₂, Shuffle.append tr₁ tr₂⟩
  · rintro ⟨s₁, s₂, ⟨tr₁, h₁, hs₁⟩, ⟨tr₂, h₂, hs₂⟩, hcombines⟩
    have hc₁ := hp.of_exec h₁ (hs₁.forall_of_step hA)
    have hc₂ := hq.of_exec h₂ (hs₂.forall_of_step hA)
    have hreplay := (hF.replay_shuffle hdisj (Shuffle.append tr₁ tr₂) hc₁ hc₂).mpr
      ⟨s₁, s₂, hs₁, hs₂, hcombines⟩
    obtain ⟨s₀, hfirst, hsecond⟩ := Replay.append_iff.mp hreplay
    exact ⟨s₀, ⟨tr₁, h₁, hfirst⟩, ⟨tr₂, h₂, hsecond⟩⟩

end programs

end Footprint

end Interaction
