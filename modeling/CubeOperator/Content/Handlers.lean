import CubeOperator.Content.Convergence

/-! # Two handlers at once

    The timer and the change handler of one CubeCluster may run at the same time, each
    on the spec it was started with.  A pass looks an object up and then creates or
    patches it, and between the two calls the other pass may have written it.  When
    no pass is overtaken in this way, both complete and the newer spec is what is
    stored. -/

namespace CubeOperator

open Interaction Kube Crd V1alpha1

namespace Kopf

/-! ## The system -/

/-- The two passes: of the older spec and of the newer one. -/
inductive Handler where
  | older
  | newer
  deriving DecidableEq

/-- How the server answers a write that it cannot make. -/
def Refuses : Action → ApiError → Prop
  | .create _, err => ∃ e, err = .status e ∧ e.code = 409
  | _, err => err.isNotFound

/-- A server that never fails by itself: every answer is the truth.  The objects a spec
    refers to exist. -/
def ServesReliably (s : Store) (e : Exchange) (s' : Store) : Prop :=
  match e with
  | ⟨.act a, r⟩ => s' = s.after a ∧
    ((s.Grants a ∧ r = .ok ()) ∨ (¬s.Grants a ∧ ∃ err, r = .error err ∧ Refuses a err))
  | ⟨.get k, r⟩ => s' = s ∧
    (((k.kind.isReference ∨ s k ≠ none) ∧ ∃ l, r = .ok l) ∨
      (k.kind.isReference = false ∧ s k = none ∧ ∃ err, r = .error err ∧ err.isNotFound))
  | _ => s' = s

theorem servesContent_of_reliably {s s' : Store} {e : Exchange} (h : ServesReliably s e s') :
    ServesContent s e s' := by
  obtain ⟨c, r⟩ := e
  cases c with
  | act a =>
    obtain ⟨hs, h⟩ := h
    refine ⟨.inl hs, fun hok => ?_, fun k err hdelete herr _ => ?_⟩
    · rcases h with ⟨hgrants, -⟩ | ⟨-, err, herr, -⟩
      · exact hgrants
      · simp [herr] at hok
    · subst hdelete
      rcases h with ⟨-, hok⟩ | ⟨hrefused, -⟩
      · simp [herr] at hok
      · exact not_not.mp hrefused
  | get k =>
    obtain ⟨hs, h⟩ := h
    refine ⟨hs, fun hk => ⟨fun l hl => ?_, fun err herr _ => ?_⟩⟩
    · rcases h with ⟨hexists, -⟩ | ⟨-, -, err, herr, -⟩
      · simpa [hk] using hexists
      · simp [herr] at hl
    · rcases h with ⟨-, l, hl⟩ | ⟨-, habsent, -⟩
      · simp [herr] at hl
      · exact habsent
  | _ => exact h

/-- One pass of each handler. -/
def handling (q : Quantities) : Environment Handler Body Store Call Answer Handled where
  program := reconcile q
  begins _ _ _ := False
  serves := ServesReliably
  drifts _ _ := False

/-- Both handlers have been called, the older one with `b₁` and the newer with `b₂`. -/
def started (q : Quantities) (b₁ b₂ : Body) (s : Store) :
    System Handler Body Store Call Answer Handled where
  state := s
  thread
    | .older => some ⟨b₁, reconcile q b₁, []⟩
    | .newer => some ⟨b₂, reconcile q b₂, []⟩

variable {q : Quantities} {b₁ b₂ : Body} {s₀ : Store}
  {S S' : System Handler Body Store Call Answer Handled}

/-! ## Orderly runs -/

/-- The write `a` of the pass `i` in the state `S` does not collide with the other pass. -/
structure Orderly (S : System Handler Body Store Call Answer Handled) (i : Handler) (a : Action) :
    Prop where
  /-- Only an absent object is created. -/
  creates : ∀ d, a = .create d → S.state d.key = none
  /-- The newer pass patches an object that exists, and has no field the patch keeps. -/
  covers : ∀ d, i = .newer → a = .patch d → ∃ j, S.state d.key = some j ∧ j.Covered d.body
  /-- The older pass writes an object before the newer one does, or does not change it. -/
  early : ∀ k, i = .older → Target a = some k →
    (∀ run, S.thread .newer = some run → ¬Touched run.log k) ∨
      SameObject (S.state.after a k) (S.state k)

/-- A call of one of the passes, orderly if it is a write. -/
def OrderlyStep (q : Quantities) (S S' : System Handler Body Store Call Answer Handled) : Prop :=
  ∃ (i : Handler) (e : Exchange), (handling q).Exchanges i e S S' ∧
    ∀ a r, e = .did a r → Orderly S i a

/-- What holds in orderly runs. -/
structure Settled (b₂ : Body) (S : System Handler Body Store Call Answer Handled) : Prop where
  jobs : ∀ run, S.thread .newer = some run → run.job = b₂
  own : ∀ i run, S.thread i = some run → Only (IsOwn run.job) run.rest
  harmless : ∀ i run, S.thread i = some run → ∀ e ∈ run.log, Harmless e
  clean : ∀ run, S.thread .newer = some run → Clean run.log
  /-- What the newer pass has written is there. -/
  written : ∀ run, S.thread .newer = some run → ∀ k, Touched run.log k →
    SameObject (S.state k) (fresh b₂ k)

/-! ## One call -/

section calls

variable {b : Body} {s s' : Store} {e : Exchange}

/-- No call is answered with an error other than a 404, if only absent objects are
    created. -/
theorem harmless_of_reliably (h : ServesReliably s e s') (hown : IsOwn b e)
    (hcreates : ∀ d r, e = .did (.create d) r → s d.key = none) : Harmless e := by
  obtain ⟨c, r⟩ := e
  intro err herr
  cases c with
  | act a =>
    obtain ⟨-, ⟨-, rfl⟩ | ⟨hrefused, err', rfl, hanswer⟩⟩ := h
    · simp at herr
    · obtain rfl : err' = err := by simpa using herr
      cases a with
      | create d => exact absurd (hcreates d _ rfl) hrefused
      | _ => exact hanswer
  | get k =>
    obtain ⟨-, ⟨-, l, rfl⟩ | ⟨-, -, err', rfl, hanswer⟩⟩ := h
    · simp at herr
    · obtain rfl : err' = err := by simpa using herr
      exact hanswer
  | getCluster ns name => exact hown.elim
  | _ => simp [Exchange.error?] at herr

/-- A call answered with an error is one on an absent object, if what the pass creates
    or patches can be. -/
theorem isAbsence_of_reliably (h : ServesReliably s e s') (hown : IsOwn b e)
    (hgrants : ∀ a r, e = .did a r → (∀ k, a ≠ .delete k) → s.Grants a) :
    e.error? ≠ none → IsAbsence e := by
  obtain ⟨c, r⟩ := e
  intro herr
  cases c with
  | act a =>
    obtain ⟨-, ⟨-, rfl⟩ | ⟨hrefused, err, rfl, hanswer⟩⟩ := h
    · simp at herr
    · cases a with
      | delete k => exact hanswer
      | _ => exact absurd (hgrants _ _ rfl (by simp)) hrefused
  | get k =>
    obtain ⟨-, ⟨-, l, rfl⟩ | ⟨hk, -, err, rfl, hanswer⟩⟩ := h
    · simp at herr
    · exact ⟨hk, hanswer⟩
  | getCluster ns name => exact hown.elim
  | _ => simp [Exchange.error?] at herr

end calls

/-! ## Orderly steps -/

/-- A write of the newer pass is granted, and a patch covers what is stored. -/
theorem Orderly.grants {a : Action} (h : Orderly S .newer a) (hdelete : ∀ k, a ≠ .delete k) :
    S.state.Grants a := by
  cases a with
  | create d => exact h.creates d rfl
  | patch d =>
    obtain ⟨j, hj, -⟩ := h.covers d rfl rfl
    simp [Store.Grants, hj]
  | delete k => exact absurd rfl (hdelete k)
  | _ => trivial

/-- A call of the newer pass on an object leaves it as the newer spec wants it. -/
theorem written_own {e : Exchange} {s' : Store} (hserves : ServesReliably S.state e s')
    (hown : IsOwn b₂ e) (horderly : ∀ a r, e = .did a r → Orderly S .newer a) {k : Key}
    (hk : e.target = some k) : SameObject (s' k) (fresh b₂ k) := by
  obtain ⟨c, r⟩ := e
  cases c with
  | act a =>
    have ha := horderly a r rfl
    rw [hserves.1]
    refine same_fresh_of_write (b := b₂) hown hk (fun hne => ?_) fun d j hpatch hj => ?_
    · refine ha.grants fun k' hdelete => hne ?_
      subst hdelete
      obtain rfl : k' = k := by simpa [Exchange.target, Target] using hk
      rfl
    · obtain ⟨j', hj', hcovered⟩ := ha.covers d rfl hpatch
      obtain rfl : j' = j := Option.some.inj (hj'.symm.trans hj)
      exact hcovered
  | _ => cases hk

/-- A call of the older pass leaves the objects the newer one has written as they are. -/
theorem written_other {e : Exchange} {s' : Store} (hserves : ServesReliably S.state e s')
    (horderly : ∀ a r, e = .did a r → Orderly S .older a) {k : Key}
    {run : Running Body Call Answer Handled} (hrun : S.thread .newer = some run)
    (hk : Touched run.log k) (h : SameObject (S.state k) (fresh b₂ k)) :
    SameObject (s' k) (fresh b₂ k) := by
  by_cases htarget : e.target = some k
  · obtain ⟨c, r⟩ := e
    cases c with
    | act a =>
      rcases (horderly a r rfl).early k rfl htarget with hearly | hsame
      · exact absurd hk (hearly run hrun)
      · rw [hserves.1]
        exact hsame.trans h
    | _ => cases htarget
  · rwa [servesContent_of_ne (servesContent_of_reliably hserves) htarget]

theorem settled_step (h : Settled b₂ S) (hstep : OrderlyStep q S S') : Settled b₂ S' := by
  obtain ⟨i, e, ⟨_, _, hi, ⟨job, next, log⟩, hserves, hthread⟩, horderly⟩ := hstep
  obtain ⟨hown, hrest⟩ := h.own i _ hi e.2
  -- a thread after the step: the one that moved, or another one
  have hcases {j : Handler} {run : Running Body Call Answer Handled}
      (hrun : S'.thread j = some run) :
      (j = i ∧ run = ⟨job, next e.2, log ++ [e]⟩) ∨ (j ≠ i ∧ S.thread j = some run) := by
    by_cases hj : j = i
    · subst hj
      exact .inl ⟨rfl, by simpa [hthread, eq_comm] using hrun⟩
    · exact .inr ⟨hj, by simpa [hthread, hj] using hrun⟩
  have hharmless : Harmless e := harmless_of_reliably hserves hown
    fun d r hd => (horderly _ r hd).creates d rfl
  constructor
  · intro run hrun
    rcases hcases hrun with ⟨rfl, rfl⟩ | ⟨-, hrun⟩
    · exact h.jobs ⟨job, .call e.1 next, log⟩ hi
    · exact h.jobs run hrun
  · intro j run hrun
    rcases hcases hrun with ⟨-, rfl⟩ | ⟨-, hrun⟩
    · exact hrest
    · exact h.own j run hrun
  · intro j run hrun
    rcases hcases hrun with ⟨-, rfl⟩ | ⟨-, hrun⟩
    · exact List.forall_mem_append.mpr ⟨h.harmless i _ hi, by simpa using hharmless⟩
    · exact h.harmless j run hrun
  · intro run hrun
    rcases hcases hrun with ⟨rfl, rfl⟩ | ⟨-, hrun⟩
    · have hclean := isAbsence_of_reliably hserves hown fun a r ha hdelete =>
        (horderly a r ha).grants hdelete
      exact List.forall_mem_append.mpr ⟨h.clean _ hi, by simpa using hclean⟩
    · exact h.clean run hrun
  · intro run hrun k hk
    rcases hcases hrun with ⟨rfl, rfl⟩ | ⟨hne, hrun⟩
    · obtain rfl := h.jobs _ hi
      by_cases htarget : e.target = some k
      · exact written_own hserves hown horderly htarget
      · have hbefore : Touched log k := by
          rcases touched_append.mp hk with hk | hk
          · exact hk
          · exact absurd (touched_singleton.mp hk) htarget
        rw [servesContent_of_ne (servesContent_of_reliably hserves) htarget]
        exact h.written _ hi k hbefore
    · obtain rfl : i = .older := by cases i <;> simp_all
      exact written_other hserves horderly hrun hk (h.written run hrun k hk)

/-! ## Orderly runs -/

theorem settled_started (q : Quantities) (b₁ b₂ : Body) (s₀ : Store) :
    Settled b₂ (started q b₁ b₂ s₀) := by
  have hnewer {run : Running Body Call Answer Handled}
      (hrun : (started q b₁ b₂ s₀).thread .newer = some run) :
      run = ⟨b₂, reconcile q b₂, []⟩ := by simpa [started, eq_comm] using hrun
  have hboth {i : Handler} {run : Running Body Call Answer Handled}
      (hrun : (started q b₁ b₂ s₀).thread i = some run) :
      ∃ b, run = ⟨b, reconcile q b, []⟩ := by
    cases i with
    | older => exact ⟨b₁, by simpa [started, eq_comm] using hrun⟩
    | newer => exact ⟨b₂, hnewer hrun⟩
  constructor
  · intro run hrun
    rw [hnewer hrun]
  · intro i run hrun
    obtain ⟨b, rfl⟩ := hboth hrun
    exact only_reconcile
  · intro i run hrun
    obtain ⟨b, rfl⟩ := hboth hrun
    simp
  · intro run hrun
    rw [hnewer hrun]
    simp [Clean]
  · intro run hrun k hk
    obtain ⟨e, he, -⟩ := hk
    rw [hnewer hrun] at he
    cases he

theorem settled_run (h : Relation.ReflTransGen (OrderlyStep q) (started q b₁ b₂ s₀) S) :
    Settled b₂ S := by
  induction h with
  | refl => exact settled_started q b₁ b₂ s₀
  | tail _ hstep ih => exact settled_step ih hstep

/-- In a run whose writes are orderly no pass raises, and once the newer pass has
    finished the objects are those of its spec, whatever else the older one does. -/
theorem handlers_settle (hvalid : Valid q b₂.spec)
    (h : Relation.ReflTransGen (OrderlyStep q) (started q b₁ b₂ s₀) S) :
    (∀ i run out, S.thread i = some run → run.Finished out → out.raised = none) ∧
    (∀ run out, S.thread .newer = some run → run.Finished out →
      ∀ k ∈ managedKeys b₂.ns b₂.name, SameObject (S.state k) (fresh b₂ k)) := by
  have hsettled := settled_run h
  have hreach : (handling q).Reachable (started q b₁ b₂ s₀) S := by
    refine Relation.ReflTransGen.mono ?_ _ _ h
    rintro S S' ⟨i, e, he, -⟩
    exact .exchange i e he
  have hstarts : (handling q).Starts (started q b₁ b₂ s₀) := by
    intro i run hrun
    cases i <;> (simp only [started, Option.some.injEq] at hrun; subst hrun; exact ⟨rfl, rfl⟩)
  -- what a finished pass has done is a run of its program
  have hexec {i : Handler} {run : Running Body Call Answer Handled} {out : Handled}
      (hrun : S.thread i = some run) (hfinished : run.Finished out) :
      Exec (reconcile q run.job) run.log out := by
    have hrest : Exec run.rest [] out := by
      rw [hfinished]
      exact .ret out
    have hpass := hreach.exec hstarts hrun hrest
    rwa [List.append_nil] at hpass
  constructor
  · intro i run out hrun hfinished
    exact (exec_reconcile_raised (hexec hrun hfinished)).1.mpr (hsettled.harmless i run hrun)
  · intro run out hrun hfinished k hk
    have hjob := hsettled.jobs run hrun
    have hpass := hexec hrun hfinished
    rw [hjob] at hpass
    exact hsettled.written run hrun k
      (touched_of_exec hvalid hpass (hsettled.clean run hrun) hk)

/-! ### Two creates -/

theorem servesReliably_serveContent (s : Store) (c : Call) :
    ServesReliably s ⟨c, (serveContent s c).1⟩ (serveContent s c).2 := by
  cases c with
  | act a =>
    cases a with
    | create d =>
      cases h : s d.key <;>
        simp [serveContent, ServesReliably, Store.Grants, Store.after, Refuses,
          ApiError.alreadyExists, h]
    | patch d =>
      cases h : s d.key <;> simp [serveContent, ServesReliably, Store.Grants, Store.after, Refuses, h]
    | delete k =>
      cases h : s k <;> simp [serveContent, ServesReliably, Store.Grants, Store.after, Refuses, h]
    | _ => simp [serveContent, ServesReliably, Store.Grants]
  | get k =>
    cases hk : k.kind.isReference <;> cases h : s k <;> simp [serveContent, ServesReliably, hk, h]
  | _ => rfl

theorem step_serveContent {i : Handler} {s : Store} {c : Call}
    {thread : Handler → Option (Running Body Call Answer Handled)}
    {run run' : Running Body Call Answer Handled} (hi : thread i = some run)
    (hmakes : run.Makes ⟨c, (serveContent s c).1⟩ run') :
    (handling q).Exchanges i ⟨c, (serveContent s c).1⟩ ⟨s, thread⟩
      ⟨(serveContent s c).2, Function.update thread i (some run')⟩ :=
  ⟨run, run', hi, hmakes, servesReliably_serveContent s c, rfl⟩

/-- At most `n` calls of a pass. -/
def calls (n : ℕ) (p : Op Handled) (s : Store) : Option (Op Handled × List Exchange × Store) :=
  p.runFor serveContent (fun _ _ => true) n s

/-- The older pass has been told that there is no API Service. -/
def lookedUp : Op Handled × List Exchange × Store :=
  (calls 8 (reconcile digitQuantities plainBody) fun _ => none).get rfl

/-- Then the newer pass runs to its end. -/
def overtaken : Op Handled × List Exchange × Store :=
  (calls 100 (reconcile digitQuantities plainBody) lookedUp.2.2).get rfl

/-- Then the older pass goes on. -/
def collided : Op Handled × List Exchange × Store := (calls 100 lookedUp.1 overtaken.2.2).get rfl

/-- The calls of one pass in the system. -/
theorem exists_calls {i : Handler} {n : ℕ} {b : Body} {p : Op Handled} {log : List Exchange}
    {x : Op Handled × List Exchange × Store} (hi : S.thread i = some ⟨b, p, log⟩)
    (h : calls n p S.state = some x) : ∃ S', (handling q).Reachable S S' ∧ S'.state = x.2.2 ∧
      S'.thread i = some ⟨b, x.1, log ++ x.2.1⟩ ∧ ∀ j, j ≠ i → S'.thread j = S.thread j := by
  have hreach : (handling q).Reachable S _ := Environment.reachable_of_runFor id
    (fun _ _ _ _ _ _ hthread hmakes => .exchange _ _ (step_serveContent hthread hmakes)) h hi
  exact ⟨_, hreach, rfl, Function.update_self .., fun j hj => Function.update_of_ne hj _ _⟩

/-- Both passes have finished, the older one after the newer. -/
theorem exists_collision : ∃ (S : System Handler Body Store Call Answer Handled)
    (run₁ run₂ : Running Body Call Answer Handled) (out₁ out₂ : Handled),
    (handling digitQuantities).Reachable
      (started digitQuantities plainBody plainBody fun _ => none) S ∧
    S.thread .older = some run₁ ∧ run₁.Finished out₁ ∧ S.thread .newer = some run₂ ∧
    run₂.Finished out₂ ∧ out₁.raised = some (.temporaryError "already exists" 10) := by
  have hlooked : calls 8 (reconcile digitQuantities plainBody) (fun _ => none) = some lookedUp :=
    (Option.some_get _).symm
  have hovertaken : calls 100 (reconcile digitQuantities plainBody) lookedUp.2.2 = some overtaken :=
    (Option.some_get _).symm
  have hcollided : calls 100 lookedUp.1 overtaken.2.2 = some collided := (Option.some_get _).symm
  -- the older pass up to its create, the newer pass, and the rest of the older one
  obtain ⟨S₁, hreach₁, hstate₁, holder₁, hother₁⟩ := exists_calls (q := digitQuantities)
    (S := started digitQuantities plainBody plainBody fun _ => none) (i := .older) rfl hlooked
  have hnewer₁ : S₁.thread .newer = some ⟨plainBody, reconcile digitQuantities plainBody, []⟩ :=
    hother₁ .newer (by decide)
  rw [← hstate₁] at hovertaken
  obtain ⟨S₂, hreach₂, hstate₂, hnewer₂, hother₂⟩ :=
    exists_calls (q := digitQuantities) hnewer₁ hovertaken
  have holder₂ := (hother₂ .older (by decide)).trans holder₁
  rw [← hstate₂] at hcollided
  obtain ⟨S₃, hreach₃, -, holder₃, hother₃⟩ :=
    exists_calls (q := digitQuantities) holder₂ hcollided
  obtain ⟨out₁, hout₁⟩ := Option.isSome_iff_exists.mp (show collided.1.value?.isSome = true from rfl)
  obtain ⟨out₂, hout₂⟩ := Option.isSome_iff_exists.mp (show overtaken.1.value?.isSome = true from rfl)
  have hraised : collided.1.value?.bind Handled.raised =
      some (.temporaryError "already exists" 10) := rfl
  rw [hout₁, Option.bind_some] at hraised
  exact ⟨S₃, _, _, out₁, out₂, (hreach₁.trans hreach₂).trans hreach₃, holder₃,
    Program.eq_ret_of_value? hout₁, (hother₃ .newer (by decide)).trans hnewer₂,
    Program.eq_ret_of_value? hout₂, hraised⟩

/-- When both passes find no API Service, the second create fails and its pass with it. -/
theorem handlers_collide : ¬∀ (q : Quantities) (b₁ b₂ : Body) (s₀ : Store)
    (S : System Handler Body Store Call Answer Handled)
    (run₁ run₂ : Running Body Call Answer Handled) (out₁ out₂ : Handled),
    b₁.ns = b₂.ns → b₁.name = b₂.name → Valid q b₁.spec → Valid q b₂.spec →
    (handling q).Reachable (started q b₁ b₂ s₀) S →
    S.thread .older = some run₁ → run₁.Finished out₁ →
    S.thread .newer = some run₂ → run₂.Finished out₂ →
    (out₁.raised = none ∧ out₂.raised = none) ∧
      ∀ k ∈ managedKeys b₂.ns b₂.name, SameObject (S.state k) (fresh b₂ k) := by
  intro h
  obtain ⟨S, run₁, run₂, out₁, out₂, hreach, holder, hfinished₁, hnewer, hfinished₂, hraised⟩ :=
    exists_collision
  obtain ⟨⟨hnone, -⟩, -⟩ := h _ plainBody plainBody _ S run₁ run₂ out₁ out₂ rfl rfl valid_plainBody
    valid_plainBody hreach holder hfinished₁ hnewer hfinished₂
  rw [hraised] at hnone
  cases hnone

/-! ### An orderly run -/

/-- Only absent objects are created, and a patch covers what is there. -/
def isOrderly (s : Store) : Call → Bool
  | .act (.create d) => (s d.key).isNone
  | .act (.patch d) => ((s d.key).map fun j => j.coveredBy d.body).getD false
  | _ => true

/-- If the pass is the older one, the newer one has made no call. -/
def Early (i : Handler) (S : System Handler Body Store Call Answer Handled) : Prop :=
  i = .older → ∀ run, S.thread .newer = some run → run.log = []

theorem orderly_of_isOrderly {i : Handler} {s : Store} {c : Call}
    {thread : Handler → Option (Running Body Call Answer Handled)}
    {run run' : Running Body Call Answer Handled} (hok : isOrderly s c = true)
    (hi : thread i = some run) (hmakes : run.Makes ⟨c, (serveContent s c).1⟩ run')
    (hearly : Early i ⟨s, thread⟩) :
    OrderlyStep q ⟨s, thread⟩ ⟨(serveContent s c).2, Function.update thread i (some run')⟩ := by
  refine ⟨i, _, step_serveContent hi hmakes, fun a r ha => ?_⟩
  obtain rfl : c = .act a := congrArg Sigma.fst ha
  constructor
  · rintro d rfl
    simpa [isOrderly] using hok
  · rintro d - rfl
    cases hj : s d.key with
    | none => simp [isOrderly, hj] at hok
    | some j => exact ⟨j, hj, Json.covered_of_coveredBy (by simpa [isOrderly, hj] using hok)⟩
  · intro k hold _
    refine .inl fun other hother htouched => ?_
    obtain ⟨e, he, -⟩ := htouched
    rw [hearly hold other hother] at he
    cases he

/-- Orderly calls of one pass. -/
theorem exists_orderly {i : Handler} {n : ℕ} {b : Body} {p : Op Handled} {log : List Exchange}
    {x : Op Handled × List Exchange × Store} (hi : S.thread i = some ⟨b, p, log⟩)
    (hearly : Early i S) (h : p.runFor serveContent isOrderly n S.state = some x) :
    ∃ S', Relation.ReflTransGen (OrderlyStep q) S S' ∧ S'.state = x.2.2 ∧
      S'.thread i = some ⟨b, x.1, log ++ x.2.1⟩ ∧ ∀ j, j ≠ i → S'.thread j = S.thread j := by
  have hsteps : Relation.ReflTransGen (fun S S' => Early i S → OrderlyStep q S S' ∧ Early i S')
      S ⟨x.2.2, Function.update S.thread i (some ⟨b, x.1, log ++ x.2.1⟩)⟩ := by
    refine Environment.reachable_of_runFor id ?_ h hi
    intro s c thread run run' hok hthread hmakes hearly
    refine ⟨orderly_of_isOrderly hok hthread hmakes hearly, fun hold other hother => ?_⟩
    have hne : Handler.newer ≠ i := by
      rintro rfl
      cases hold
    exact hearly hold other (by simpa [hne] using hother)
  -- `Early` holds at first and every call keeps it, so that every call is orderly.
  have hreach : ∀ {S'}, Relation.ReflTransGen (fun S S' => Early i S → OrderlyStep q S S' ∧ Early i S')
      S S' → Relation.ReflTransGen (OrderlyStep q) S S' ∧ Early i S' := by
    intro S' hsteps
    induction hsteps with
    | refl => exact ⟨.refl, hearly⟩
    | tail _ hstep ih =>
      obtain ⟨horderly, hearly'⟩ := hstep ih.2
      exact ⟨ih.1.tail horderly, hearly'⟩
  exact ⟨_, (hreach hsteps).1, rfl, Function.update_self .., fun j hj => Function.update_of_ne hj _ _⟩

/-- The cluster with the annotation again. -/
def againBody : Body := { annotatedBody with generation := 3 }

/-- The older pass creates the objects. -/
def early : Op Handled × List Exchange × Store :=
  ((reconcile digitQuantities plainBody).runFor serveContent isOrderly 100 fun _ => none).get rfl

/-- Then the newer one patches them. -/
def late : Op Handled × List Exchange × Store :=
  ((reconcile digitQuantities againBody).runFor serveContent isOrderly 100 early.2.2).get
    (by decide +kernel)

theorem handlers_settle_again : ∃ (S : System Handler Body Store Call Answer Handled)
    (run₁ run₂ : Running Body Call Answer Handled) (out₁ out₂ : Handled),
    S.thread .older = some run₁ ∧ run₁.job = plainBody ∧ run₁.Finished out₁ ∧ out₁.raised = none ∧
    S.thread .newer = some run₂ ∧ run₂.job = againBody ∧ run₂.Finished out₂ ∧ out₂.raised = none ∧
      ∀ k ∈ managedKeys "default" "cube", SameObject (S.state k) (fresh againBody k) := by
  have hearly : (reconcile digitQuantities plainBody).runFor serveContent isOrderly 100
      (fun _ => none) = some early := (Option.some_get _).symm
  have hlate : (reconcile digitQuantities againBody).runFor serveContent isOrderly 100 early.2.2 =
      some late := (Option.some_get _).symm
  obtain ⟨S₁, hreach₁, hstate₁, holder₁, hother₁⟩ := exists_orderly (q := digitQuantities)
    (S := started digitQuantities plainBody againBody fun _ => none) (i := .older) rfl
    (fun _ run hrun => by
      obtain rfl : _ = run := Option.some.inj hrun
      rfl) hearly
  have hnewer₁ : S₁.thread .newer = some ⟨againBody, reconcile digitQuantities againBody, []⟩ :=
    hother₁ .newer (by decide)
  rw [← hstate₁] at hlate
  obtain ⟨S₂, hreach₂, -, hnewer₂, hother₂⟩ :=
    exists_orderly (q := digitQuantities) hnewer₁ (by rintro ⟨⟩) hlate
  have holder₂ := (hother₂ .older (by decide)).trans holder₁
  obtain ⟨out₁, hout₁⟩ := Option.isSome_iff_exists.mp (show early.1.value?.isSome = true from rfl)
  obtain ⟨out₂, hout₂⟩ := Option.isSome_iff_exists.mp (show late.1.value?.isSome = true by decide +kernel)
  obtain ⟨hraised, hobjects⟩ := handlers_settle
    (show Valid digitQuantities againBody.spec from valid_annotatedBody) (hreach₁.trans hreach₂)
  have hfinished₁ := Program.eq_ret_of_value? hout₁
  have hfinished₂ := Program.eq_ret_of_value? hout₂
  exact ⟨S₂, _, _, out₁, out₂, holder₂, rfl, hfinished₁, hraised _ _ _ holder₂ hfinished₁, hnewer₂,
    rfl, hfinished₂, hraised _ _ _ hnewer₂ hfinished₂, hobjects _ _ hnewer₂ hfinished₂⟩

end Kopf

end CubeOperator
