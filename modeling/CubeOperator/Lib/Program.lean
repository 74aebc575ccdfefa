import Mathlib.Logic.Relation
import Mathlib.Data.List.Forall2

/-! # Programs that talk to an environment

    A program either returns or makes a call and continues with whatever
    the environment answers.  The calls are a parameter, as is the type of
    answer each call gets.  This file gives

    * the monad of such programs, and programs that may fail;
    * `Exec`: the traces of a program when the environment answers freely;
    * `Replay`: what a trace does to the state of an environment;
    * `Ensures`: guarantees of every step and a postcondition, for all the
      answers an environment may give, with one rule per program former;
    * `eval` and `runOn`: programs run against a fixed environment;
    * `left` and `right`: programs that make calls of two kinds. -/

namespace Interaction

/-! ## Programs -/

/-- A program returns a value, or performs a call and goes on with the answer. -/
inductive Program (Call : Type) (Answer : Call → Type) (α : Type) : Type where
  | ret (value : α) : Program Call Answer α
  | call (c : Call) (next : Answer c → Program Call Answer α) : Program Call Answer α

/-- One exchange with the environment: a call and the answer it got. -/
abbrev Event {Call : Type} (Answer : Call → Type) : Type := (c : Call) × Answer c

variable {Call : Type} {Answer : Call → Type} {α β γ ε ι σ : Type}

namespace Program

/-- Run a program, then continue with the value it returned. -/
def bind : Program Call Answer α → (α → Program Call Answer β) → Program Call Answer β
  | .ret a, f => f a
  | .call c next, f => .call c fun r => (next r).bind f

instance : Monad (Program Call Answer) where
  pure := .ret
  bind := .bind

@[simp] theorem pure_eq (a : α) : (pure a : Program Call Answer α) = .ret a := rfl

@[simp] theorem ret_bind (a : α) (f : α → Program Call Answer β) :
    (.ret a : Program Call Answer α) >>= f = f a := rfl

@[simp] theorem call_bind (c : Call) (next : Answer c → Program Call Answer α)
    (f : α → Program Call Answer β) :
    (.call c next : Program Call Answer α) >>= f = .call c fun r => next r >>= f := rfl

theorem bind_ret (p : Program Call Answer α) : p >>= (fun a => .ret a) = p := by
  induction p with
  | ret a => rfl
  | call c next ih => simp [ih]

theorem bind_assoc (p : Program Call Answer α) (f : α → Program Call Answer β)
    (g : β → Program Call Answer γ) : p >>= f >>= g = p >>= fun a => f a >>= g := by
  induction p with
  | ret a => rfl
  | call c next ih => simp [ih]

instance : LawfulMonad (Program Call Answer) :=
  LawfulMonad.mk' (Program Call Answer) bind_ret (fun _ _ => rfl) bind_assoc

/-- A single call, returning its answer. -/
def perform (c : Call) : Program Call Answer (Answer c) := .call c .ret

@[simp] theorem perform_bind (c : Call) (f : Answer c → Program Call Answer β) :
    (perform c : Program Call Answer (Answer c)) >>= f = .call c f := rfl

end Program

/-! ## Programs that may fail -/

/-- A program that ends with a value or with an error. -/
abbrev Attempt (Call : Type) (Answer : Call → Type) (ε : Type) : Type → Type :=
  ExceptT ε (Program Call Answer)

namespace Attempt

/-- End with the error `e` when `b` holds. -/
def failIf (b : Bool) (e : ε) : Attempt Call Answer ε Unit :=
  if b then throw e else pure ()

/-- End with the outcome `r`. -/
def ofExcept (r : Except ε α) : Attempt Call Answer ε α := ExceptT.mk (.ret r)

/-- Run `body` on each element in order, up to the first error. -/
def forEach (body : ι → Attempt Call Answer ε Unit) : List ι → Attempt Call Answer ε Unit
  | [] => pure ()
  | x :: xs => do
    body x
    forEach body xs

/-- Run an attempt, then decide on its error. -/
def rescue (handle : ε → Except ε α) (x : Attempt Call Answer ε α) : Attempt Call Answer ε α :=
  ExceptT.mk (x.run >>= fun r => .ret (match r with
    | .ok a => .ok a
    | .error e => handle e))

@[simp] theorem run_failIf (b : Bool) (e : ε) :
    (failIf b e : Attempt Call Answer ε Unit).run = .ret (if b then .error e else .ok ()) := by
  unfold failIf
  split <;> rfl

@[simp] theorem run_ofExcept (r : Except ε α) :
    (ofExcept r : Attempt Call Answer ε α).run = .ret r := rfl

@[simp] theorem run_throw (e : ε) : (throw e : Attempt Call Answer ε α).run = .ret (.error e) := rfl

@[simp] theorem run_pure (a : α) : (pure a : Attempt Call Answer ε α).run = .ret (.ok a) := rfl

@[simp] theorem ofExcept_ok_bind (a : α) (f : α → Attempt Call Answer ε β) :
    (ofExcept (.ok a) : Attempt Call Answer ε α) >>= f = f a := rfl

@[simp] theorem ofExcept_error_bind (e : ε) (f : α → Attempt Call Answer ε β) :
    (ofExcept (.error e) : Attempt Call Answer ε α) >>= f = ofExcept (.error e) := rfl

@[simp] theorem failIf_true_bind (e : ε) (f : Unit → Attempt Call Answer ε β) :
    failIf true e >>= f = ofExcept (.error e) := rfl

@[simp] theorem failIf_false_bind (e : ε) (f : Unit → Attempt Call Answer ε β) :
    failIf false e >>= f = f () := rfl

theorem run_bind (x : Attempt Call Answer ε α) (f : α → Attempt Call Answer ε β) :
    (x >>= f).run = x.run >>= fun r =>
      match r with
      | .ok a => (f a).run
      | .error e => .ret (.error e) := by
  rw [ExceptT.run_bind]
  congr 1
  funext r
  cases r <;> rfl

end Attempt

/-! ## Lists side by side -/

section forall₂

variable {R : α → β → Prop} {xs : List α} {ys : List β}

theorem exists_right_of_mem (h : List.Forall₂ R xs ys) {x : α} (hx : x ∈ xs) :
    ∃ y ∈ ys, R x y := by
  induction h with
  | nil => simp at hx
  | cons hR _ ih =>
    rcases List.mem_cons.mp hx with rfl | hx
    · exact ⟨_, by simp, hR⟩
    · obtain ⟨y, hy, hxy⟩ := ih hx
      exact ⟨y, by simp [hy], hxy⟩

theorem exists_left_of_mem (h : List.Forall₂ R xs ys) {y : β} (hy : y ∈ ys) :
    ∃ x ∈ xs, R x y := exists_right_of_mem (R := fun y x => R x y) h.flip hy

theorem forall₂_comp {S : β → γ → Prop} {T : α → γ → Prop} {zs : List γ}
    (h : List.Forall₂ R xs ys) (h' : List.Forall₂ S ys zs) (hT : ∀ x y z, R x y → S y z → T x z) :
    List.Forall₂ T xs zs := by
  induction h generalizing zs with
  | nil =>
    cases h'
    exact .nil
  | cons hR _ ih =>
    cases h' with
    | cons hS hrest => exact .cons (hT _ _ _ hR hS) (ih hrest)

theorem exists_forall₂ (h : ∀ x ∈ xs, ∃ y, R x y) : ∃ ys, List.Forall₂ R xs ys := by
  induction xs with
  | nil => exact ⟨[], .nil⟩
  | cons x xs ih =>
    obtain ⟨⟨y, hy⟩, hxs⟩ := List.forall_mem_cons.mp h
    obtain ⟨ys, hys⟩ := ih hxs
    exact ⟨y :: ys, .cons hy hys⟩

end forall₂

/-! ## Traces -/

/-- `Exec p tr a`: answered as in `tr`, the program `p` returns `a`. -/
inductive Exec : Program Call Answer α → List (Event Answer) → α → Prop where
  | ret (a : α) : Exec (.ret a) [] a
  | call {c : Call} {next : Answer c → Program Call Answer α} (r : Answer c)
      {tr : List (Event Answer)} {a : α} :
      Exec (next r) tr a → Exec (.call c next) (⟨c, r⟩ :: tr) a

namespace Exec

@[simp] theorem ret_iff {a b : α} {tr : List (Event Answer)} :
    Exec (.ret a) tr b ↔ tr = [] ∧ b = a := by
  constructor
  · intro h
    cases h
    exact ⟨rfl, rfl⟩
  · rintro ⟨rfl, rfl⟩
    exact .ret _

theorem call_iff {c : Call} {next : Answer c → Program Call Answer α}
    {tr : List (Event Answer)} {a : α} :
    Exec (.call c next) tr a ↔ ∃ r tr', tr = ⟨c, r⟩ :: tr' ∧ Exec (next r) tr' a := by
  constructor
  · intro h
    cases h with
    | call r h => exact ⟨r, _, rfl, h⟩
  · rintro ⟨r, tr', rfl, h⟩
    exact .call r h

/-- A run of a sequence is a run of the first part followed by a run of the rest. -/
theorem bind_iff {p : Program Call Answer α} {f : α → Program Call Answer β}
    {tr : List (Event Answer)} {b : β} :
    Exec (p >>= f) tr b ↔ ∃ tr₁ a tr₂, tr = tr₁ ++ tr₂ ∧ Exec p tr₁ a ∧ Exec (f a) tr₂ b := by
  induction p generalizing tr with
  | ret a => simp
  | call c next ih =>
    simp only [Program.call_bind, call_iff, ih]
    constructor
    · rintro ⟨r, _, rfl, tr₁, a, tr₂, rfl, h₁, h₂⟩
      exact ⟨⟨c, r⟩ :: tr₁, a, tr₂, rfl, ⟨r, tr₁, rfl, h₁⟩, h₂⟩
    · rintro ⟨_, a, tr₂, rfl, ⟨r, tr₁, rfl, h₁⟩, h₂⟩
      exact ⟨r, tr₁ ++ tr₂, rfl, tr₁, a, tr₂, rfl, h₁, h₂⟩

theorem perform_iff {c : Call} {tr : List (Event Answer)} {r : Answer c} :
    Exec (Program.perform c) tr r ↔ tr = [⟨c, r⟩] := by
  simp only [Program.perform, call_iff, ret_iff]
  constructor
  · rintro ⟨_, _, rfl, rfl, rfl⟩
    rfl
  · rintro rfl
    exact ⟨r, [], rfl, rfl, rfl⟩

/-- A run of a sequence of attempts fails in the first part, or completes it and
    goes on. -/
theorem attempt_bind_iff {x : Attempt Call Answer ε α} {f : α → Attempt Call Answer ε β}
    {tr : List (Event Answer)} {b : Except ε β} :
    Exec (x >>= f).run tr b ↔
      (∃ e, Exec x.run tr (.error e) ∧ b = .error e) ∨
      (∃ tr₁ a tr₂, tr = tr₁ ++ tr₂ ∧ Exec x.run tr₁ (.ok a) ∧ Exec (f a).run tr₂ b) := by
  rw [Attempt.run_bind, bind_iff]
  constructor
  · rintro ⟨tr₁, r, tr₂, rfl, h₁, h₂⟩
    cases r with
    | ok a => exact .inr ⟨tr₁, a, tr₂, rfl, h₁, h₂⟩
    | error e =>
      obtain ⟨rfl, rfl⟩ := ret_iff.mp h₂
      exact .inl ⟨e, by simpa using h₁, rfl⟩
  · rintro (⟨e, h₁, rfl⟩ | ⟨tr₁, a, tr₂, rfl, h₁, h₂⟩)
    · exact ⟨tr, .error e, [], by simp, h₁, by simp⟩
    · exact ⟨tr₁, .ok a, tr₂, rfl, h₁, h₂⟩

theorem attempt_bind_ok_iff {x : Attempt Call Answer ε α} {f : α → Attempt Call Answer ε β}
    {tr : List (Event Answer)} {b : β} :
    Exec (x >>= f).run tr (.ok b) ↔
      ∃ tr₁ a tr₂, tr = tr₁ ++ tr₂ ∧ Exec x.run tr₁ (.ok a) ∧ Exec (f a).run tr₂ (.ok b) := by
  rw [attempt_bind_iff]
  simp

theorem attempt_bind_error_iff {x : Attempt Call Answer ε α}
    {f : α → Attempt Call Answer ε β} {tr : List (Event Answer)} {e : ε} :
    Exec (x >>= f).run tr (.error e) ↔ Exec x.run tr (.error e) ∨
      ∃ tr₁ a tr₂, tr = tr₁ ++ tr₂ ∧ Exec x.run tr₁ (.ok a) ∧ Exec (f a).run tr₂ (.error e) := by
  rw [attempt_bind_iff]
  simp

@[simp] theorem failIf_ok_iff {b : Bool} {e : ε} {tr : List (Event Answer)} {u : Unit} :
    Exec (Attempt.failIf b e : Attempt Call Answer ε Unit).run tr (.ok u) ↔
      tr = [] ∧ b = false := by
  cases b <;> simp

@[simp] theorem failIf_error_iff {b : Bool} {e e' : ε} {tr : List (Event Answer)} :
    Exec (Attempt.failIf b e : Attempt Call Answer ε Unit).run tr (.error e') ↔
      tr = [] ∧ b = true ∧ e' = e := by
  cases b <;> simp

@[simp] theorem lift_iff {p : Program Call Answer α} {tr : List (Event Answer)}
    {r : Except ε α} :
    Exec (ExceptT.lift p : Attempt Call Answer ε α).run tr r ↔ ∃ a, Exec p tr a ∧ r = .ok a := by
  rw [ExceptT.run_lift, map_eq_pure_bind, bind_iff]
  constructor
  · rintro ⟨tr₁, a, tr₂, rfl, h, h'⟩
    obtain ⟨rfl, rfl⟩ := ret_iff.mp h'
    exact ⟨a, by simpa using h, rfl⟩
  · rintro ⟨a, h, rfl⟩
    exact ⟨tr, a, [], by simp, h, .ret _⟩

/-- A loop that completes has run its body on every element, in order. -/
theorem forEach_ok_iff {body : ι → Attempt Call Answer ε Unit} {x : ι} {xs : List ι}
    {tr : List (Event Answer)} {u : Unit} :
    Exec (Attempt.forEach body (x :: xs)).run tr (.ok u) ↔
      ∃ tr₁ tr₂, tr = tr₁ ++ tr₂ ∧ Exec (body x).run tr₁ (.ok ()) ∧
        Exec (Attempt.forEach body xs).run tr₂ (.ok u) := by
  rw [Attempt.forEach, attempt_bind_ok_iff]
  constructor
  · rintro ⟨tr₁, _, tr₂, rfl, h₁, h₂⟩
    exact ⟨tr₁, tr₂, rfl, h₁, h₂⟩
  · rintro ⟨tr₁, tr₂, rfl, h₁, h₂⟩
    exact ⟨tr₁, (), tr₂, rfl, h₁, h₂⟩

/-- A loop that completes has completed its body on every element. -/
theorem body_of_forEach_ok {body : ι → Attempt Call Answer ε Unit} {xs : List ι}
    {tr : List (Event Answer)} {u : Unit} (h : Exec (Attempt.forEach body xs).run tr (.ok u))
    {x : ι} (hx : x ∈ xs) : ∃ tr', tr' ⊆ tr ∧ Exec (body x).run tr' (.ok ()) := by
  induction xs generalizing tr with
  | nil => cases hx
  | cons y ys ih =>
    obtain ⟨tr₁, tr₂, rfl, h₁, h₂⟩ := forEach_ok_iff.mp h
    rcases List.mem_cons.mp hx with rfl | hx
    · exact ⟨tr₁, List.subset_append_left .., h₁⟩
    · obtain ⟨tr', hsub, hexec⟩ := ih h₂ hx
      exact ⟨tr', List.Subset.trans hsub (List.subset_append_right ..), hexec⟩

/-- A loop that fails has completed its body on the elements before one where the
    body fails. -/
theorem forEach_error_iff {body : ι → Attempt Call Answer ε Unit} {xs : List ι}
    {tr : List (Event Answer)} {e : ε} :
    Exec (Attempt.forEach body xs).run tr (.error e) ↔
      ∃ xs₁ x xs₂ tr₁ tr₂, xs = xs₁ ++ x :: xs₂ ∧ tr = tr₁ ++ tr₂ ∧
        Exec (Attempt.forEach body xs₁).run tr₁ (.ok ()) ∧ Exec (body x).run tr₂ (.error e) := by
  induction xs generalizing tr with
  | nil => simp [Attempt.forEach]
  | cons y ys ih =>
    rw [Attempt.forEach, attempt_bind_error_iff]
    constructor
    · rintro (h | ⟨tr₁, _, tr₂, rfl, h₁, h₂⟩)
      · exact ⟨[], y, ys, [], tr, rfl, rfl, by simp [Attempt.forEach], h⟩
      · obtain ⟨xs₁, x, xs₂, tr₃, tr₄, rfl, rfl, h₃, h₄⟩ := ih.mp h₂
        exact ⟨y :: xs₁, x, xs₂, tr₁ ++ tr₃, tr₄, rfl, by simp,
          forEach_ok_iff.mpr ⟨tr₁, tr₃, rfl, h₁, h₃⟩, h₄⟩
    · rintro ⟨xs₁, x, xs₂, tr₁, tr₂, hxs, rfl, h₁, h₂⟩
      cases xs₁ with
      | nil =>
        obtain ⟨rfl, rfl⟩ : y = x ∧ ys = xs₂ := by simpa using hxs
        obtain rfl : tr₁ = [] := by simpa [Attempt.forEach] using h₁
        exact .inl h₂
      | cons z xs₁ =>
        obtain ⟨rfl, rfl⟩ : y = z ∧ ys = xs₁ ++ x :: xs₂ := by simpa using hxs
        obtain ⟨tr₃, tr₄, rfl, h₃, h₄⟩ := forEach_ok_iff.mp h₁
        exact .inr ⟨tr₃, (), tr₄ ++ tr₂, by simp, h₃,
          ih.mpr ⟨xs₁, x, xs₂, tr₄, tr₂, rfl, rfl, h₄, h₂⟩⟩

/-- A loop whose body makes one exchange makes one exchange for each element. -/
theorem forEach_ok_iff_forall₂ {body : ι → Attempt Call Answer ε Unit}
    {R : ι → Event Answer → Prop}
    (hbody : ∀ x tr, Exec (body x).run tr (.ok ()) ↔ ∃ ev, tr = [ev] ∧ R x ev) {xs : List ι}
    {tr : List (Event Answer)} :
    Exec (Attempt.forEach body xs).run tr (.ok ()) ↔ List.Forall₂ R xs tr := by
  induction xs generalizing tr with
  | nil => simp [Attempt.forEach]
  | cons x xs ih =>
    simp only [forEach_ok_iff, ih, hbody, List.forall₂_cons_left_iff]
    constructor
    · rintro ⟨_, tr₂, rfl, ⟨ev, rfl, hev⟩, h⟩
      exact ⟨ev, tr₂, hev, h, rfl⟩
    · rintro ⟨ev, tr₂, hev, h, rfl⟩
      exact ⟨[ev], tr₂, rfl, ⟨ev, rfl, hev⟩, h⟩

/-- The answers decide how far a program runs and what it returns. -/
theorem unique {p : Program Call Answer α} {tr₁ tr₂ u v : List (Event Answer)} {a b : α}
    (h₁ : Exec p tr₁ a) (h₂ : Exec p tr₂ b) (h : tr₁ ++ u = tr₂ ++ v) : tr₁ = tr₂ ∧ a = b := by
  induction h₁ generalizing tr₂ with
  | ret a =>
    obtain ⟨rfl, rfl⟩ := ret_iff.mp h₂
    exact ⟨rfl, rfl⟩
  | call r _ ih =>
    obtain ⟨r', tr, rfl, hrest⟩ := call_iff.mp h₂
    simp only [List.cons_append, List.cons.injEq, Sigma.mk.injEq, heq_eq_eq, true_and] at h
    obtain ⟨rfl, htr⟩ := h
    obtain ⟨rfl, rfl⟩ := ih hrest htr
    exact ⟨rfl, rfl⟩

/-- A run of an attempt followed by a choice on its outcome. -/
theorem run_bind_iff {x : Attempt Call Answer ε α} {f : Except ε α → Program Call Answer β}
    {tr : List (Event Answer)} {b : β} :
    Exec (x.run >>= f) tr b ↔
      (∃ tr₁ e tr₂, tr = tr₁ ++ tr₂ ∧ Exec x.run tr₁ (.error e) ∧ Exec (f (.error e)) tr₂ b) ∨
      (∃ tr₁ a tr₂, tr = tr₁ ++ tr₂ ∧ Exec x.run tr₁ (.ok a) ∧ Exec (f (.ok a)) tr₂ b) := by
  rw [bind_iff]
  constructor
  · rintro ⟨tr₁, r, tr₂, rfl, h₁, h₂⟩
    cases r with
    | ok a => exact .inr ⟨tr₁, a, tr₂, rfl, h₁, h₂⟩
    | error e => exact .inl ⟨tr₁, e, tr₂, rfl, h₁, h₂⟩
  · rintro (⟨tr₁, e, tr₂, rfl, h₁, h₂⟩ | ⟨tr₁, a, tr₂, rfl, h₁, h₂⟩)
    · exact ⟨tr₁, _, tr₂, rfl, h₁, h₂⟩
    · exact ⟨tr₁, _, tr₂, rfl, h₁, h₂⟩

theorem rescue_iff {x : Attempt Call Answer ε α} {handle : ε → Except ε α}
    {tr : List (Event Answer)} {r : Except ε α} :
    Exec (Attempt.rescue handle x).run tr r ↔
      (∃ a, r = .ok a ∧ Exec x.run tr (.ok a)) ∨
      (∃ e, r = handle e ∧ Exec x.run tr (.error e)) := by
  rw [Attempt.rescue, ExceptT.run_mk, run_bind_iff]
  simp only [ret_iff]
  constructor
  · rintro (⟨tr₁, e, _, rfl, h, rfl, rfl⟩ | ⟨tr₁, a, _, rfl, h, rfl, rfl⟩)
    · exact .inr ⟨e, rfl, by simpa using h⟩
    · exact .inl ⟨a, rfl, by simpa using h⟩
  · rintro (⟨a, rfl, h⟩ | ⟨e, rfl, h⟩)
    · exact .inr ⟨tr, a, [], by simp, h, rfl, rfl⟩
    · exact .inl ⟨tr, e, [], by simp, h, rfl, rfl⟩

end Exec

/-- Every exchange a program can make satisfies `E`. -/
def Only (E : Event Answer → Prop) : Program Call Answer α → Prop
  | .ret _ => True
  | .call c next => ∀ r, E ⟨c, r⟩ ∧ Only E (next r)

namespace Only

variable {E E' : Event Answer → Prop}

@[simp] theorem ret (a : α) : Only E (.ret a : Program Call Answer α) := trivial

theorem mono (h : ∀ e, E e → E' e) {p : Program Call Answer α} (hp : Only E p) : Only E' p := by
  induction p with
  | ret a => trivial
  | call c next ih => exact fun r => ⟨h _ (hp r).1, ih r (hp r).2⟩

theorem bind {p : Program Call Answer α} {f : α → Program Call Answer β} (hp : Only E p)
    (hf : ∀ a, Only E (f a)) : Only E (p >>= f) := by
  induction p with
  | ret a => exact hf a
  | call c next ih => exact fun r => ⟨(hp r).1, ih r (hp r).2⟩

theorem attemptBind {x : Attempt Call Answer ε α} {f : α → Attempt Call Answer ε β}
    (hx : Only E x.run) (hf : ∀ a, Only E (f a).run) : Only E (x >>= f).run := by
  rw [Attempt.run_bind]
  refine hx.bind fun r => ?_
  cases r with
  | ok a => exact hf a
  | error e => trivial

theorem failIf (b : Bool) (e : ε) :
    Only E (Attempt.failIf b e : Attempt Call Answer ε Unit).run := by
  rw [Attempt.run_failIf]
  trivial

theorem forEach {body : ι → Attempt Call Answer ε Unit} {xs : List ι}
    (h : ∀ x ∈ xs, Only E (body x).run) : Only E (Attempt.forEach body xs).run := by
  induction xs with
  | nil => trivial
  | cons x xs ih =>
    exact attemptBind (h x (by simp)) fun _ => ih fun y hy => h y (by simp [hy])

theorem of_exec {p : Program Call Answer α} (hp : Only E p) {tr : List (Event Answer)} {a : α}
    (h : Exec p tr a) : ∀ e ∈ tr, E e := by
  induction h with
  | ret a => simp
  | call r _ ih =>
    intro e he
    rcases List.mem_cons.mp he with rfl | he
    · exact (hp r).1
    · exact ih (hp r).2 e he

end Only

/-- In a run that completes every exchange satisfies `C`.  In a run that fails they
    do as well and the error is one of `V`, or all but the last do and `E` blames the
    error on that one. -/
def Accounts (C : Event Answer → Prop) (E : Event Answer → ε → Prop) (V : ε → Prop)
    (x : Attempt Call Answer ε α) : Prop :=
  (∀ tr a, Exec x.run tr (.ok a) → ∀ ev ∈ tr, C ev) ∧
  (∀ tr e, Exec x.run tr (.error e) → (V e ∧ ∀ ev ∈ tr, C ev) ∨
    ∃ tr' ev, tr = tr' ++ [ev] ∧ (∀ ev ∈ tr', C ev) ∧ E ev e)

namespace Accounts

variable {C : Event Answer → Prop} {E : Event Answer → ε → Prop} {V V' : ε → Prop}

theorem mono {C' : Event Answer → Prop} {x : Attempt Call Answer ε α} (hx : Accounts C E V x)
    (hC : ∀ ev, C ev → C' ev) : Accounts C' E V x := by
  constructor
  · intro tr a h ev hev
    exact hC ev (hx.1 tr a h ev hev)
  · intro tr e h
    rcases hx.2 tr e h with ⟨hV, hall⟩ | ⟨tr', ev, rfl, hall, hE⟩
    · exact .inl ⟨hV, fun ev hev => hC ev (hall ev hev)⟩
    · exact .inr ⟨tr', ev, rfl, fun ev hev => hC ev (hall ev hev), hE⟩

theorem pure (a : α) : Accounts C E V (Pure.pure a : Attempt Call Answer ε α) := by
  constructor
  · intro tr b h
    obtain ⟨rfl, -⟩ : tr = [] ∧ b = a := by simpa using h
    simp
  · intro tr e h
    simp at h

theorem throw {e : ε} (he : V e) :
    Accounts C E V (MonadExcept.throw e : Attempt Call Answer ε α) := by
  constructor
  · intro tr a h
    simp at h
  · intro tr e' h
    obtain ⟨rfl, rfl⟩ : tr = [] ∧ e' = e := by simpa using h
    exact .inl ⟨he, by simp⟩

theorem failIf {b : Bool} {e : ε} (he : b = true → V e) :
    Accounts C E V (Attempt.failIf b e : Attempt Call Answer ε Unit) := by
  unfold Attempt.failIf
  split
  · exact throw (he ‹_›)
  · exact pure ()

theorem ofExcept {r : Except ε α} (hr : ∀ e, r = .error e → V e) :
    Accounts C E V (Attempt.ofExcept r : Attempt Call Answer ε α) := by
  cases r with
  | ok a => exact pure a
  | error e => exact Accounts.throw (hr e rfl)

/-- The rest of an attempt is only looked at after a value the first part can
    return. -/
theorem bind {x : Attempt Call Answer ε α} {f : α → Attempt Call Answer ε β}
    (hx : Accounts C E V x)
    (hf : ∀ a, (∃ tr, Exec x.run tr (.ok a)) → Accounts C E V (f a)) :
    Accounts C E V (x >>= f) := by
  constructor
  · intro tr b h ev hev
    obtain ⟨tr₁, a, tr₂, rfl, h₁, h₂⟩ := Exec.attempt_bind_ok_iff.mp h
    rcases List.mem_append.mp hev with hev | hev
    · exact hx.1 tr₁ a h₁ ev hev
    · exact (hf a ⟨tr₁, h₁⟩).1 tr₂ b h₂ ev hev
  · intro tr e h
    rcases Exec.attempt_bind_error_iff.mp h with h | ⟨tr₁, a, tr₂, rfl, h₁, h⟩
    · exact hx.2 tr e h
    · have hfirst := hx.1 tr₁ a h₁
      rcases (hf a ⟨tr₁, h₁⟩).2 tr₂ e h with ⟨hV, hC⟩ | ⟨tr', ev, rfl, hC, hE⟩
      · exact .inl ⟨hV, List.forall_mem_append.mpr ⟨hfirst, hC⟩⟩
      · exact .inr ⟨tr₁ ++ tr', ev, by simp, List.forall_mem_append.mpr ⟨hfirst, hC⟩, hE⟩

theorem forEach {body : ι → Attempt Call Answer ε Unit} {xs : List ι}
    (h : ∀ x ∈ xs, Accounts C E V (body x)) : Accounts C E V (Attempt.forEach body xs) := by
  induction xs with
  | nil => exact pure ()
  | cons x xs ih => exact bind (h x (by simp)) fun _ _ => ih fun y hy => h y (by simp [hy])

/-- A call that goes on after an answer in `C`, and fails after one it is blamed on. -/
theorem callThen {c : Call} {next : Answer c → Attempt Call Answer ε α}
    (h : ∀ r, (C ⟨c, r⟩ ∧ Accounts C E V (next r)) ∨ ∃ e, next r = MonadExcept.throw e ∧ E ⟨c, r⟩ e) :
    Accounts C E V (ExceptT.mk (.call c fun r => (next r).run) : Attempt Call Answer ε α) := by
  constructor
  · intro tr a ha
    obtain ⟨r, tr', rfl, hnext⟩ := Exec.call_iff.mp ha
    rcases h r with ⟨hC, hrest⟩ | ⟨e, hthrow, -⟩
    · exact List.forall_mem_cons.mpr ⟨hC, hrest.1 tr' a hnext⟩
    · rw [hthrow] at hnext
      simp at hnext
  · intro tr e he
    obtain ⟨r, tr', rfl, hnext⟩ := Exec.call_iff.mp he
    rcases h r with ⟨hC, hrest⟩ | ⟨e', hthrow, hE⟩
    · rcases hrest.2 tr' e hnext with ⟨hV, hall⟩ | ⟨tr'', ev, rfl, hall, hE⟩
      · exact .inl ⟨hV, List.forall_mem_cons.mpr ⟨hC, hall⟩⟩
      · exact .inr ⟨⟨c, r⟩ :: tr'', ev, rfl, List.forall_mem_cons.mpr ⟨hC, hall⟩, hE⟩
    · rw [hthrow] at hnext
      obtain ⟨rfl, rfl⟩ : tr' = [] ∧ e = e' := by simpa using hnext
      exact .inr ⟨[], _, rfl, by simp, hE⟩

/-- An attempt that makes one call. -/
theorem call {c : Call} {next : Answer c → Except ε α}
    (hok : ∀ r a, next r = .ok a → C ⟨c, r⟩) (herror : ∀ r e, next r = .error e → E ⟨c, r⟩ e) :
    Accounts C E V (ExceptT.mk (.call c fun r => .ret (next r)) : Attempt Call Answer ε α) := by
  change Accounts C E V (ExceptT.mk (.call c fun r => (Attempt.ofExcept (next r)).run))
  refine callThen fun r => ?_
  cases hr : next r with
  | ok a => exact .inl ⟨hok r a hr, pure a⟩
  | error e => exact .inr ⟨e, rfl, herror r e hr⟩

/-- Handling an error keeps it, or drops one that no call is to blame for. -/
theorem rescue {x : Attempt Call Answer ε α} {handle : ε → Except ε α} (hx : Accounts C E V x)
    (hhandle : ∀ e, handle e = .error e ∨ ∃ a, handle e = .ok a ∧ ∀ ev, E ev e → C ev) :
    Accounts C E V (Attempt.rescue handle x) := by
  constructor
  · intro tr a h
    rcases Exec.rescue_iff.mp h with ⟨b, -, h⟩ | ⟨e, he, h⟩
    · exact hx.1 tr b h
    · rcases hx.2 tr e h with ⟨-, hall⟩ | ⟨tr', ev, rfl, hall, hE⟩
      · exact hall
      · rcases hhandle e with hkeep | ⟨a', -, hdrop⟩
        · rw [hkeep] at he
          cases he
        · exact List.forall_mem_append.mpr ⟨hall, by simpa using hdrop ev hE⟩
  · intro tr e h
    rcases Exec.rescue_iff.mp h with ⟨b, hb, -⟩ | ⟨e', he, h⟩
    · cases hb
    · rcases hhandle e' with hkeep | ⟨a, hok, -⟩
      · rw [hkeep] at he
        cases he
        exact hx.2 tr e h
      · rw [hok] at he
        cases he

end Accounts

/-! ## Environments -/

/-- `Replay H s tr s'`: an environment with transitions `H` can go through the
    exchanges `tr` from `s` to `s'`. -/
inductive Replay (H : σ → Event Answer → σ → Prop) : σ → List (Event Answer) → σ → Prop where
  | nil (s : σ) : Replay H s [] s
  | cons {s s' s'' : σ} {e : Event Answer} {tr : List (Event Answer)} :
      H s e s' → Replay H s' tr s'' → Replay H s (e :: tr) s''

namespace Replay

variable {H : σ → Event Answer → σ → Prop}

@[simp] theorem nil_iff {s s' : σ} : Replay H s [] s' ↔ s' = s := by
  constructor
  · intro h
    cases h
    rfl
  · rintro rfl
    exact .nil _

theorem cons_iff {s s'' : σ} {e : Event Answer} {tr : List (Event Answer)} :
    Replay H s (e :: tr) s'' ↔ ∃ s', H s e s' ∧ Replay H s' tr s'' := by
  constructor
  · intro h
    cases h with
    | cons h₁ h₂ => exact ⟨_, h₁, h₂⟩
  · rintro ⟨s', h₁, h₂⟩
    exact .cons h₁ h₂

theorem append_iff {s s'' : σ} {tr tr' : List (Event Answer)} :
    Replay H s (tr ++ tr') s'' ↔ ∃ s', Replay H s tr s' ∧ Replay H s' tr' s'' := by
  induction tr generalizing s with
  | nil => simp
  | cons e tr ih =>
    simp only [List.cons_append, cons_iff, ih]
    constructor
    · rintro ⟨s₁, h₁, s₂, h₂, h₃⟩
      exact ⟨s₂, ⟨s₁, h₁, h₂⟩, h₃⟩
    · rintro ⟨s₂, ⟨s₁, h₁, h₂⟩, h₃⟩
      exact ⟨s₁, h₁, s₂, h₂, h₃⟩

/-- A trace goes through any view of the state that the exchanges go through. -/
theorem map {τ : Type} {K : τ → Event Answer → τ → Prop} (f : σ → τ)
    (hstep : ∀ s e s', H s e s' → K (f s) e (f s')) {s s' : σ} {tr : List (Event Answer)}
    (h : Replay H s tr s') : Replay K (f s) tr (f s') := by
  induction h with
  | nil s => exact .nil _
  | cons h₁ _ ih => exact .cons (hstep _ _ _ h₁) ih

/-- A trace goes through any states that stay related to those it went through. -/
theorem simulated {τ : Type} {K : τ → Event Answer → τ → Prop} {R : σ → τ → Prop}
    {tr : List (Event Answer)}
    (hstep : ∀ s e s' t, e ∈ tr → H s e s' → R s t → ∃ t', K t e t' ∧ R s' t') {s s' : σ} {t : τ}
    (h : Replay H s tr s') (hR : R s t) : ∃ t', Replay K t tr t' ∧ R s' t' := by
  induction h generalizing t with
  | nil s => exact ⟨t, .nil t, hR⟩
  | @cons s s₁ s₂ e tr h₁ _ ih =>
    obtain ⟨t₁, hK, hR₁⟩ := hstep _ _ _ _ (by simp) h₁ hR
    obtain ⟨t₂, hreplay, hR₂⟩ := ih (fun s e s' t he => hstep s e s' t (by simp [he])) hR₁
    exact ⟨t₂, .cons hK hreplay, hR₂⟩

/-- The exchanges of a trace, seen as others. -/
theorem map_iff {Call' : Type} {Answer' : Call' → Type} (f : Event Answer' → Event Answer)
    {s s' : σ} {tr : List (Event Answer')} :
    Replay H s (tr.map f) s' ↔ Replay (fun s e s' => H s (f e) s') s tr s' := by
  induction tr generalizing s with
  | nil => simp
  | cons e tr ih => simp only [List.map_cons, cons_iff, ih]

/-- What the exchanges of a trace preserve, the trace preserves. -/
theorem preserves {P : σ → Prop} {tr : List (Event Answer)}
    (hstep : ∀ s e s', e ∈ tr → H s e s' → P s → P s') {s s' : σ} (h : Replay H s tr s')
    (hs : P s) : P s' := by
  induction h with
  | nil s => exact hs
  | @cons s s₁ s₂ e tr h₁ _ ih =>
    have hs₁ : P s₁ := hstep _ _ _ (by simp) h₁ hs
    exact ih (fun s e s' he => hstep s e s' (by simp [he])) hs₁

/-- The exchanges of a trace are answered as every exchange is. -/
theorem forall_of_step {A : Event Answer → Prop} (hA : ∀ s e s', H s e s' → A e) {s s' : σ}
    {tr : List (Event Answer)} (h : Replay H s tr s') : ∀ e ∈ tr, A e := by
  induction h with
  | nil s => simp
  | cons h₁ _ ih => exact List.forall_mem_cons.mpr ⟨hA _ _ _ h₁, ih⟩

/-- A trace of exchanges that leave the state as it is. -/
theorem of_unchanged {s : σ} {tr : List (Event Answer)} (h : ∀ e ∈ tr, H s e s) :
    Replay H s tr s := by
  induction tr with
  | nil => exact .nil s
  | cons e tr ih => exact .cons (h e (by simp)) (ih fun e he => h e (by simp [he]))

/-- The exchanges of a trace, against an environment without a state. -/
theorem of_forall {A : Event Answer → Prop} {tr : List (Event Answer)} (h : ∀ e ∈ tr, A e) :
    Replay (fun (_ : Unit) e _ => A e) () tr () := of_unchanged h

end Replay

/-- The environment `H` that also keeps the exchanges so far. -/
def logged (H : σ → Event Answer → σ → Prop) :
    σ × List (Event Answer) → Event Answer → σ × List (Event Answer) → Prop :=
  fun s e s' => H s.1 e s'.1 ∧ s'.2 = s.2 ++ [e]

theorem Replay.logged {H : σ → Event Answer → σ → Prop} {s s' : σ}
    {tr : List (Event Answer)} (h : Replay H s tr s') (log : List (Event Answer)) :
    Replay (Interaction.logged H) (s, log) tr (s', log ++ tr) := by
  induction h generalizing log with
  | nil s => simp
  | @cons s s₁ s₂ e tr h₁ _ ih =>
    have hstep : Interaction.logged H (s, log) e (s₁, log ++ [e]) := ⟨h₁, rfl⟩
    exact .cons hstep (by simpa using ih (log ++ [e]))

theorem Replay.log_eq {H : σ → Event Answer → σ → Prop} {st st' : σ × List (Event Answer)}
    {tr : List (Event Answer)} (h : Replay (Interaction.logged H) st tr st') :
    st'.2 = st.2 ++ tr := by
  induction h with
  | nil st => simp
  | cons h₁ _ ih => rw [ih, h₁.2, List.append_assoc, List.singleton_append]

/-! ## Guarantees of all runs -/

/-- Whatever `H` answers from `s` on, every exchange of the program satisfies `G`
    and the value and the state at the end satisfy `Q`. -/
def Ensures (H G : σ → Event Answer → σ → Prop) (Q : α → σ → Prop) :
    Program Call Answer α → σ → Prop
  | .ret a, s => Q a s
  | .call c next, s => ∀ r s', H s ⟨c, r⟩ s' → G s ⟨c, r⟩ s' ∧ Ensures H G Q (next r) s'

namespace Ensures

variable {H G : σ → Event Answer → σ → Prop}

@[simp] theorem ret_iff {Q : α → σ → Prop} {a : α} {s : σ} :
    Ensures H G Q (.ret a) s ↔ Q a s := Iff.rfl

theorem call_iff {Q : α → σ → Prop} {c : Call} {next : Answer c → Program Call Answer α}
    {s : σ} :
    Ensures H G Q (.call c next) s ↔
      ∀ r s', H s ⟨c, r⟩ s' → G s ⟨c, r⟩ s' ∧ Ensures H G Q (next r) s' := Iff.rfl

theorem mono {Q Q' : α → σ → Prop} (hQ : ∀ a s, Q a s → Q' a s) {p : Program Call Answer α}
    {s : σ} (h : Ensures H G Q p s) : Ensures H G Q' p s := by
  induction p generalizing s with
  | ret a => exact hQ a s h
  | call c next ih => exact fun r s' hr => ⟨(h r s' hr).1, ih r (h r s' hr).2⟩

theorem weaken {G' : σ → Event Answer → σ → Prop} (hG : ∀ s e s', G s e s' → G' s e s')
    {Q : α → σ → Prop} {p : Program Call Answer α} {s : σ} (h : Ensures H G Q p s) :
    Ensures H G' Q p s := by
  induction p generalizing s with
  | ret a => exact h
  | call c next ih => exact fun r s' hr => ⟨hG _ _ _ (h r s' hr).1, ih r (h r s' hr).2⟩

theorem bind_iff {Q : β → σ → Prop} {p : Program Call Answer α}
    {f : α → Program Call Answer β} {s : σ} :
    Ensures H G Q (p >>= f) s ↔ Ensures H G (fun a s' => Ensures H G Q (f a) s') p s := by
  induction p generalizing s with
  | ret a => exact Iff.rfl
  | call c next ih => simp only [Program.call_bind, call_iff, ih]

/-- Sequencing: the rest of the program is checked from what the first part ensures. -/
theorem seq {R : α → σ → Prop} {Q : β → σ → Prop} {p : Program Call Answer α}
    {f : α → Program Call Answer β} {s : σ} (hp : Ensures H G R p s)
    (hf : ∀ a s', R a s' → Ensures H G Q (f a) s') : Ensures H G Q (p >>= f) s :=
  bind_iff.mpr (hp.mono hf)

/-- Sequencing of attempts: an error of the first part is the outcome. -/
theorem seqAttempt {R : Except ε α → σ → Prop} {Q : Except ε β → σ → Prop}
    {x : Attempt Call Answer ε α} {f : α → Attempt Call Answer ε β} {s : σ}
    (hx : Ensures H G R x.run s)
    (herror : ∀ e s', R (.error e) s' → Q (.error e) s')
    (hok : ∀ a s', R (.ok a) s' → Ensures H G Q (f a).run s') :
    Ensures H G Q (x >>= f).run s := by
  rw [Attempt.run_bind]
  refine seq hx fun r s' hr => ?_
  cases r with
  | ok a => exact hok a s' hr
  | error e => exact herror e s' hr

/-- A program whose exchanges keep `I` is judged by its complete runs. -/
theorem of_only {E : Event Answer → Prop} {I : σ → Prop} {Q : α → σ → Prop}
    (hstep : ∀ s e s', E e → I s → H s e s' → I s' ∧ G s e s') {p : Program Call Answer α}
    (hp : Only E p) {s : σ} (hs : I s)
    (hpost : ∀ tr a s', Exec p tr a → Replay H s tr s' → I s' → Q a s') :
    Ensures H G Q p s := by
  induction p generalizing s with
  | ret a => exact hpost [] a s (.ret a) (.nil s) hs
  | call c next ih =>
    intro r s' hr
    obtain ⟨hI, hG⟩ := hstep s _ s' (hp r).1 hs hr
    refine ⟨hG, ih r (hp r).2 hI fun tr a s'' h₁ h₂ h₃ => ?_⟩
    exact hpost (⟨c, r⟩ :: tr) a s'' (.call r h₁) (.cons hr h₂) h₃

/-- What is guaranteed holds of the exchanges of every run of the program against `H`, cut
    off anywhere. -/
theorem guarantee {Q : α → σ → Prop} {p : Program Call Answer α} {tr tr' : List (Event Answer)}
    {a : α} {s s' : σ} (h : Ensures H G Q p s) (hexec : Exec p (tr ++ tr') a)
    (hreplay : Replay H s tr s') : ∀ e ∈ tr, ∃ s₁ s₂, G s₁ e s₂ := by
  induction hreplay generalizing p with
  | nil s => simp
  | @cons s s₁ s' e tr hserves _ ih =>
    cases hexec with
    | call r hrest =>
      obtain ⟨hG, hnext⟩ := h r s₁ hserves
      exact List.forall_mem_cons.mpr ⟨⟨s, s₁, hG⟩, ih hnext hrest⟩

/-- `Ensures` speaks of every run of the program against `H`. -/
theorem sound {Q : α → σ → Prop} {p : Program Call Answer α} {tr : List (Event Answer)}
    {a : α} {s s' : σ} (h : Ensures H G Q p s) (hexec : Exec p tr a)
    (hreplay : Replay H s tr s') : Q a s' := by
  induction hexec generalizing s with
  | ret a =>
    obtain rfl := Replay.nil_iff.mp hreplay
    exact h
  | call r _ ih =>
    obtain ⟨s₁, h₁, h₂⟩ := Replay.cons_iff.mp hreplay
    exact ih (h r s₁ h₁).2 h₂

/-- `Ensures` against an environment that keeps the exchanges speaks of every run. -/
theorem sound_log {G : List (Event Answer) → Event Answer → List (Event Answer) → Prop}
    {Q : α → List (Event Answer) → Prop} {p : Program Call Answer α} {log tr : List (Event Answer)}
    {a : α} (h : Ensures (fun log e log' => log' = log ++ [e]) G Q p log) (hexec : Exec p tr a) :
    Q a (log ++ tr) := by
  induction hexec generalizing log with
  | ret a => simpa using h
  | @call c next r tr a _ ih =>
    have hrest := ih (h r (log ++ [⟨c, r⟩]) rfl).2
    rwa [List.append_assoc, List.singleton_append] at hrest

end Ensures

/-- Whatever `H` answers, and from any state, every exchange of the program satisfies
    `G`. -/
def Always (H G : σ → Event Answer → σ → Prop) (p : Program Call Answer α) : Prop :=
  ∀ s, Ensures H G (fun _ _ => True) p s

namespace Always

variable {H G G' : σ → Event Answer → σ → Prop} {p : Program Call Answer α}

theorem ret (a : α) : Always H G (.ret a : Program Call Answer α) := fun _ => trivial

theorem mono (hG : ∀ s e s', G s e s' → G' s e s') (hp : Always H G p) : Always H G' p :=
  fun s => (hp s).weaken hG

theorem bind {f : α → Program Call Answer β} (hp : Always H G p) (hf : ∀ a, Always H G (f a)) :
    Always H G (p >>= f) :=
  fun s => (hp s).seq fun a s' _ => hf a s'

theorem attemptBind {x : Attempt Call Answer ε α} {f : α → Attempt Call Answer ε β}
    (hx : Always H G x.run) (hf : ∀ a, Always H G (f a).run) : Always H G (x >>= f).run :=
  fun s => (hx s).seqAttempt (fun _ _ h => h) fun a s' _ => hf a s'

theorem forEach {body : ι → Attempt Call Answer ε Unit} {xs : List ι}
    (h : ∀ x ∈ xs, Always H G (body x).run) : Always H G (Attempt.forEach body xs).run := by
  induction xs with
  | nil => exact ret _
  | cons x xs ih => exact attemptBind (h x (by simp)) fun _ => ih fun y hy => h y (by simp [hy])

theorem of_only {E : Event Answer → Prop} (hp : Only E p)
    (hE : ∀ s e s', E e → H s e s' → G s e s') : Always H G p :=
  fun _ => Ensures.of_only (I := fun _ => True) (fun s e s' he _ hs => ⟨trivial, hE s e s' he hs⟩) hp
    trivial fun _ _ _ _ _ _ => trivial

/-- What holds whatever is answered as in `A`, holds against an environment that answers
    so. -/
theorem of_answers {A E : Event Answer → Prop}
    (hp : Always (fun (_ : Unit) e _ => A e) (fun _ e _ => E e) p)
    (hA : ∀ s e s', H s e s' → A e) (hG : ∀ s e s', E e → H s e s' → G s e s') : Always H G p := by
  intro s
  have hunit := hp ()
  induction p generalizing s with
  | ret a => trivial
  | call c next ih =>
    intro r s' hr
    obtain ⟨hE, hrest⟩ := hunit r () (hA _ _ _ hr)
    exact ⟨hG _ _ _ hE hr, ih r (fun _ => hrest) s' hrest⟩

/-- The exchanges of a run against `H`, cut off anywhere. -/
theorem of_exec (hp : Always H G p) {tr tr' : List (Event Answer)} {a : α} {s s' : σ}
    (hexec : Exec p (tr ++ tr') a) (hreplay : Replay H s tr s') :
    ∀ e ∈ tr, ∃ s₁ s₂, G s₁ e s₂ :=
  (hp s).guarantee hexec hreplay

end Always

/-! ## Fixed environments -/

namespace Program

/-- Run a program against an environment that answers every call the same way. -/
def eval (answer : (c : Call) → Answer c) : Program Call Answer α → α
  | .ret a => a
  | .call c next => (next (answer c)).eval answer

@[simp] theorem eval_ret (answer : (c : Call) → Answer c) (a : α) :
    (.ret a : Program Call Answer α).eval answer = a := rfl

@[simp] theorem eval_call (answer : (c : Call) → Answer c) (c : Call)
    (next : Answer c → Program Call Answer α) :
    (Program.call c next).eval answer = (next (answer c)).eval answer := rfl

@[simp] theorem eval_bind (answer : (c : Call) → Answer c) (p : Program Call Answer α)
    (f : α → Program Call Answer β) :
    (p >>= f).eval answer = (f (p.eval answer)).eval answer := by
  induction p with
  | ret a => rfl
  | call c next ih => exact ih (answer c)

theorem eval_attempt_bind (answer : (c : Call) → Answer c) (x : Attempt Call Answer ε α)
    (f : α → Attempt Call Answer ε β) :
    (x >>= f).run.eval answer =
      match x.run.eval answer with
      | .ok a => (f a).run.eval answer
      | .error e => .error e := by
  rw [Attempt.run_bind, eval_bind]
  cases x.run.eval answer <;> rfl

/-- The run behind `eval`. -/
theorem exec_eval (answer : (c : Call) → Answer c) (p : Program Call Answer α) :
    ∃ tr, Exec p tr (p.eval answer) ∧ ∀ e ∈ tr, e.2 = answer e.1 := by
  induction p with
  | ret a => exact ⟨[], .ret a, by simp⟩
  | call c next ih =>
    obtain ⟨tr, hexec, htr⟩ := ih (answer c)
    refine ⟨⟨c, answer c⟩ :: tr, .call _ hexec, ?_⟩
    simpa using htr

/-- A run with the answers of a fixed environment ends with its value. -/
theorem eq_eval_of_exec {answer : (c : Call) → Answer c} {p : Program Call Answer α}
    {tr : List (Event Answer)} {a : α} (h : Exec p tr a) (htr : ∀ e ∈ tr, e.2 = answer e.1) :
    a = p.eval answer := by
  induction h with
  | ret a => rfl
  | @call c next r tr a _ ih =>
    obtain ⟨hfirst, hrest⟩ := List.forall_mem_cons.mp htr
    have hr : r = answer c := hfirst
    rw [eval_call, ← hr]
    exact ih hrest

/-- Run a program against an environment with a state, keeping the trace. -/
def runOn (serve : σ → (c : Call) → Answer c × σ) :
    Program Call Answer α → σ → α × List (Event Answer) × σ
  | .ret a, s => (a, [], s)
  | .call c next, s =>
    let (r, s') := serve s c
    let (a, tr, s'') := (next r).runOn serve s'
    (a, ⟨c, r⟩ :: tr, s'')

/-- `runOn` is a run: the program goes through its trace and so does any
    environment that allows what `serve` answers. -/
theorem runOn_run {serve : σ → (c : Call) → Answer c × σ} {H : σ → Event Answer → σ → Prop}
    (hserve : ∀ s c, H s ⟨c, (serve s c).1⟩ (serve s c).2) (p : Program Call Answer α) (s : σ) :
    Exec p (p.runOn serve s).2.1 (p.runOn serve s).1 ∧
      Replay H s (p.runOn serve s).2.1 (p.runOn serve s).2.2 := by
  induction p generalizing s with
  | ret a => exact ⟨.ret a, .nil s⟩
  | call c next ih =>
    obtain ⟨h₁, h₂⟩ := ih (serve s c).1 (serve s c).2
    exact ⟨.call _ h₁, .cons (hserve s c) h₂⟩

theorem exec_runOn (serve : σ → (c : Call) → Answer c × σ) (p : Program Call Answer α) (s : σ) :
    Exec p (p.runOn serve s).2.1 (p.runOn serve s).1 := by
  induction p generalizing s with
  | ret a => exact .ret a
  | call c next ih => exact .call _ (ih (serve s c).1 (serve s c).2)

/-- The value of a program that has returned. -/
def value? : Program Call Answer α → Option α
  | .ret a => some a
  | .call _ _ => none

theorem eq_ret_of_value? {p : Program Call Answer α} {a : α} (h : p.value? = some a) :
    p = .ret a := by
  cases p with
  | ret b =>
    obtain rfl : b = a := by simpa [value?] using h
    rfl
  | call c next => cases h

/-- Make at most `n` calls, as long as `ok` allows them: what is left of the program,
    the trace and the state. -/
def runFor (serve : σ → (c : Call) → Answer c × σ) (ok : σ → Call → Bool) :
    ℕ → Program Call Answer α → σ → Option (Program Call Answer α × List (Event Answer) × σ)
  | 0, p, s => some (p, [], s)
  | _ + 1, .ret a, s => some (.ret a, [], s)
  | n + 1, .call c next, s =>
    if ok s c then
      ((next (serve s c).1).runFor serve ok n (serve s c).2).map
        fun x => (x.1, ⟨c, (serve s c).1⟩ :: x.2.1, x.2.2)
    else none

end Program

/-! ## Two environments -/

namespace Program

variable {Call' : Type} {Answer' : Call' → Type} {τ : Type}

theorem runOn_bind (serve : σ → (c : Call) → Answer c × σ) (p : Program Call Answer α)
    (f : α → Program Call Answer β) (s : σ) :
    (p >>= f).runOn serve s =
      (((f (p.runOn serve s).1).runOn serve (p.runOn serve s).2.2).1,
        (p.runOn serve s).2.1 ++ ((f (p.runOn serve s).1).runOn serve (p.runOn serve s).2.2).2.1,
        ((f (p.runOn serve s).1).runOn serve (p.runOn serve s).2.2).2.2) := by
  induction p generalizing s with
  | ret a => rfl
  | call c next ih => simp [runOn, ih]

/-- A program whose calls are of the first of two kinds. -/
def left : Program Call Answer α → Program (Call ⊕ Call') (Sum.elim Answer Answer') α
  | .ret a => .ret a
  | .call c next => .call (.inl c) fun r => (next r).left

/-- A program whose calls are of the second of two kinds. -/
def right : Program Call' Answer' α → Program (Call ⊕ Call') (Sum.elim Answer Answer') α
  | .ret a => .ret a
  | .call c next => .call (.inr c) fun r => (next r).right

/-- Two environments, each for the calls of one kind. -/
def both (serve : σ → (c : Call) → Answer c × σ) (serve' : τ → (c : Call') → Answer' c × τ)
    (s : σ × τ) : (c : Call ⊕ Call') → Sum.elim Answer Answer' c × (σ × τ)
  | .inl c => ((serve s.1 c).1, (serve s.1 c).2, s.2)
  | .inr c => ((serve' s.2 c).1, s.1, (serve' s.2 c).2)

variable (serve : σ → (c : Call) → Answer c × σ) (serve' : τ → (c : Call') → Answer' c × τ)

/-- A program of the first kind does what it does alone, and the other environment stays
    as it was. -/
theorem runOn_left (p : Program Call Answer α) (s : σ) (t : τ) :
    (p.left.runOn (both serve serve') (s, t)).1 = (p.runOn serve s).1 ∧
      (p.left.runOn (both serve serve') (s, t)).2.2 = ((p.runOn serve s).2.2, t) := by
  induction p generalizing s with
  | ret a => exact ⟨rfl, rfl⟩
  | call c next ih => exact ih (serve s c).1 (serve s c).2

theorem runOn_right (p : Program Call' Answer' α) (s : σ) (t : τ) :
    (p.right.runOn (both serve serve') (s, t)).1 = (p.runOn serve' t).1 ∧
      (p.right.runOn (both serve serve') (s, t)).2.2 = (s, (p.runOn serve' t).2.2) := by
  induction p generalizing t with
  | ret a => exact ⟨rfl, rfl⟩
  | call c next ih => exact ih (serve' t c).1 (serve' t c).2

/-- An exchange of the first kind. -/
def inLeft (e : Event Answer) : Event (Sum.elim Answer Answer') := ⟨.inl e.1, e.2⟩

/-- An exchange of the second kind. -/
def inRight (e : Event Answer') : Event (Sum.elim Answer Answer') := ⟨.inr e.1, e.2⟩

theorem exec_left_iff {p : Program Call Answer α} {tr : List (Event (Sum.elim Answer Answer'))}
    {a : α} : Exec p.left tr a ↔ ∃ tr₁ : List (Event Answer), tr = tr₁.map inLeft ∧ Exec p tr₁ a := by
  induction p generalizing tr with
  | ret b =>
    simp only [left, Exec.ret_iff]
    constructor
    · rintro ⟨rfl, rfl⟩
      exact ⟨[], rfl, rfl, rfl⟩
    · rintro ⟨_, rfl, rfl, rfl⟩
      exact ⟨rfl, rfl⟩
  | call c next ih =>
    simp only [left, Exec.call_iff]
    constructor
    · rintro ⟨r, _, rfl, h⟩
      obtain ⟨tr₁, rfl, hrest⟩ := (ih r).mp h
      exact ⟨⟨c, r⟩ :: tr₁, rfl, r, tr₁, rfl, hrest⟩
    · rintro ⟨_, rfl, r, tr₁, rfl, h⟩
      exact ⟨r, tr₁.map inLeft, rfl, (ih r).mpr ⟨tr₁, rfl, h⟩⟩

theorem exec_right_iff {p : Program Call' Answer' α} {tr : List (Event (Sum.elim Answer Answer'))}
    {a : α} : Exec p.right tr a ↔
      ∃ tr₁ : List (Event Answer'), tr = tr₁.map inRight ∧ Exec p tr₁ a := by
  induction p generalizing tr with
  | ret b =>
    simp only [right, Exec.ret_iff]
    constructor
    · rintro ⟨rfl, rfl⟩
      exact ⟨[], rfl, rfl, rfl⟩
    · rintro ⟨_, rfl, rfl, rfl⟩
      exact ⟨rfl, rfl⟩
  | call c next ih =>
    simp only [right, Exec.call_iff]
    constructor
    · rintro ⟨r, _, rfl, h⟩
      obtain ⟨tr₁, rfl, hrest⟩ := (ih r).mp h
      exact ⟨⟨c, r⟩ :: tr₁, rfl, r, tr₁, rfl, hrest⟩
    · rintro ⟨_, rfl, r, tr₁, rfl, h⟩
      exact ⟨r, tr₁.map inRight, rfl, (ih r).mpr ⟨tr₁, rfl, h⟩⟩

end Program

/-! ## Outcomes -/

section except

@[simp] theorem ok_bind (a : α) (f : α → Except ε β) : (.ok a : Except ε α) >>= f = f a := rfl

@[simp] theorem error_bind (e : ε) (f : α → Except ε β) :
    (.error e : Except ε α) >>= f = .error e := rfl

theorem bind_eq_ok_iff {x : Except ε α} {f : α → Except ε β} {b : β} :
    x >>= f = .ok b ↔ ∃ a, x = .ok a ∧ f a = .ok b := by
  cases x <;> simp

theorem forM_eq_ok_iff {f : ι → Except ε Unit} {xs : List ι} :
    forM xs f = .ok () ↔ ∀ x ∈ xs, f x = .ok () := by
  induction xs with
  | nil => simp [pure, Except.pure]
  | cons x xs ih =>
    rw [List.forM_cons, List.forall_mem_cons, ← ih]
    cases f x <;> simp

theorem mapM_eq_ok_iff {f : α → Except ε β} {xs : List α} {ys : List β} :
    xs.mapM f = .ok ys ↔ List.Forall₂ (fun x y => f x = .ok y) xs ys := by
  induction xs generalizing ys with
  | nil => cases ys <;> simp [pure, Except.pure]
  | cons x xs ih =>
    rw [List.mapM_cons, bind_eq_ok_iff]
    constructor
    · intro ⟨y, hy, hrest⟩
      obtain ⟨ys', hys, heq⟩ := bind_eq_ok_iff.mp hrest
      obtain rfl : y :: ys' = ys := Except.ok.inj heq
      exact .cons hy (ih.mp hys)
    · intro h
      cases h with
      | cons hy hys => exact ⟨_, hy, bind_eq_ok_iff.mpr ⟨_, ih.mpr hys, rfl⟩⟩

end except

end Interaction
