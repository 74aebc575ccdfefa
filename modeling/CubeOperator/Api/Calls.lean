import CubeOperator.Api.Types
import CubeOperator.Lib.Program

/-! # The calls the controllers make

    Every effect of a reconcile pass is one of these calls.  A call to the
    Kubernetes API is answered with a result or an error; the readiness request
    over HTTP with a status code or a failure. -/

namespace CubeOperator

open Interaction Kube V1alpha1

/-! ## Texts of errors -/

/-- Two digits of a hexadecimal number. -/
def hexByte (n : ℕ) : String := String.ofList [(n / 16 % 16).digitChar, (n % 16).digitChar]

/-- The control characters, the no-break space and the soft hyphen.  From U+0100 on every
    character is taken to print. -/
def isNonPrinting (c : Char) : Bool :=
  c.toNat < 0x20 || (0x7f ≤ c.toNat && c.toNat ≤ 0xa0) || c.toNat = 0xad

/-! ## Calls and answers -/

/-- How an HTTP request ended, redirects followed. -/
inductive HttpAnswer where
  /-- The request could not be built. -/
  | invalidRequest (message : String)
  /-- No response. -/
  | failed (message : String)
  /-- A response with this code and reason phrase, from this URL. -/
  | status (code : ℕ) (reason url : String)
  deriving DecidableEq

/-- Requests to the Kubernetes API that succeed or fail and return nothing. -/
inductive Action where
  /-- Kopf: API discovery of a kind, unless it is cached. -/
  | discover (kind : Kind)
  /-- Go: forced server-side apply by the field owner `cube-operator`. -/
  | apply (desired : Manifest)
  /-- Kopf: create an object. -/
  | create (desired : Manifest)
  /-- Kopf: JSON merge patch of an object's metadata and spec. -/
  | patch (desired : Manifest)
  /-- Delete an object. -/
  | delete (key : Key)
  /-- Go: merge patch of the status, the difference of `modified` from `base`. -/
  | patchStatus (ns name : String) (base modified : CubeClusterStatus)

inductive Call where
  | act (a : Action)
  /-- Go: read the CubeCluster. -/
  | getCluster (ns name : String)
  /-- Read an object. -/
  | get (key : Key)
  /-- GET over HTTP. -/
  | httpGet (url : String)
  /-- The current time. -/
  | now

/-- The answer each call gets. -/
@[reducible] def Answer : Call → Type
  | .act _ => Except ApiError Unit
  | .getCluster _ _ => Except ApiError CubeCluster
  | .get _ => Except ApiError Live
  | .httpGet _ => HttpAnswer
  | .now => ℤ

/-- A reconcile pass, or a part of it. -/
abbrev Op : Type → Type := Program Call Answer

/-- A part of a pass that may fail with an error of type `ε`. -/
abbrev OpE (ε : Type) : Type → Type := Attempt Call Answer ε

/-- One call of a pass and its answer. -/
abbrev Exchange : Type := Event Answer

namespace Exchange

abbrev did (a : Action) (r : Except ApiError Unit) : Exchange := ⟨.act a, r⟩

abbrev readCluster (ns name : String) (r : Except ApiError CubeCluster) : Exchange :=
  ⟨.getCluster ns name, r⟩

abbrev got (key : Key) (r : Except ApiError Live) : Exchange := ⟨.get key, r⟩

abbrev fetched (url : String) (r : HttpAnswer) : Exchange := ⟨.httpGet url, r⟩

abbrev clock (t : ℤ) : Exchange := ⟨.now, t⟩

/-- The error a call to the Kubernetes API was answered with. -/
def error? : Exchange → Option ApiError
  | ⟨.act _, .error e⟩ | ⟨.getCluster _ _, .error e⟩ | ⟨.get _, .error e⟩ => some e
  | _ => none

@[simp] theorem error?_did_ok (a : Action) : (did a (.ok ())).error? = none := rfl

@[simp] theorem error?_did_error (a : Action) (e : ApiError) :
    (did a (.error e)).error? = some e := rfl

@[simp] theorem error?_got_ok (k : Key) (l : Live) : (got k (.ok l)).error? = none := rfl

@[simp] theorem error?_got_error (k : Key) (e : ApiError) :
    (got k (.error e)).error? = some e := rfl

@[simp] theorem error?_readCluster_ok (ns name : String) (c : CubeCluster) :
    (readCluster ns name (.ok c)).error? = none := rfl

@[simp] theorem error?_readCluster_error (ns name : String) (e : ApiError) :
    (readCluster ns name (.error e)).error? = some e := rfl

@[simp] theorem error?_fetched (url : String) (r : HttpAnswer) :
    (fetched url r).error? = none := rfl

@[simp] theorem error?_clock (t : ℤ) : (clock t).error? = none := rfl

end Exchange

/-! ## Performing a call -/

section perform

variable {ε : Type} (wrap : ApiError → ε)

/-- Perform an action; an error ends this part of the pass. -/
def act (a : Action) : OpE ε Unit :=
  ExceptT.mk (.call (.act a) fun (r : Except ApiError Unit) => .ret (r.mapError wrap))

/-- Read an object; an error ends this part of the pass. -/
def getObject (key : Key) : OpE ε Live :=
  ExceptT.mk (.call (.get key) fun (r : Except ApiError Live) => .ret (r.mapError wrap))

/-- Read the CubeCluster; an error ends this part of the pass. -/
def getCluster (ns name : String) : OpE ε CubeCluster :=
  ExceptT.mk (.call (.getCluster ns name) fun (r : Except ApiError CubeCluster) =>
    .ret (r.mapError wrap))

/-- The current time. -/
def now : Op ℤ := .call .now fun (t : ℤ) => .ret t

theorem exec_act {a : Action} {tr : List Exchange} {r : Except ε Unit} :
    Exec (act wrap a).run tr r ↔ ∃ s, tr = [.did a s] ∧ r = s.mapError wrap := by
  simp only [act, ExceptT.run_mk, Exec.call_iff, Exec.ret_iff]
  constructor
  · rintro ⟨s, _, rfl, rfl, rfl⟩
    exact ⟨s, rfl, rfl⟩
  · rintro ⟨s, rfl, rfl⟩
    exact ⟨s, [], rfl, rfl, rfl⟩

theorem exec_getObject {key : Key} {tr : List Exchange} {r : Except ε Live} :
    Exec (getObject wrap key).run tr r ↔ ∃ s, tr = [.got key s] ∧ r = s.mapError wrap := by
  simp only [getObject, ExceptT.run_mk, Exec.call_iff, Exec.ret_iff]
  constructor
  · rintro ⟨s, _, rfl, rfl, rfl⟩
    exact ⟨s, rfl, rfl⟩
  · rintro ⟨s, rfl, rfl⟩
    exact ⟨s, [], rfl, rfl, rfl⟩

theorem exec_getCluster {ns name : String} {tr : List Exchange} {r : Except ε CubeCluster} :
    Exec (getCluster wrap ns name).run tr r ↔
      ∃ s, tr = [.readCluster ns name s] ∧ r = s.mapError wrap := by
  simp only [getCluster, ExceptT.run_mk, Exec.call_iff, Exec.ret_iff]
  constructor
  · rintro ⟨s, _, rfl, rfl, rfl⟩
    exact ⟨s, rfl, rfl⟩
  · rintro ⟨s, rfl, rfl⟩
    exact ⟨s, [], rfl, rfl, rfl⟩

theorem exec_now {tr : List Exchange} {t : ℤ} : Exec now tr t ↔ tr = [.clock t] :=
  Exec.perform_iff

end perform

end CubeOperator
