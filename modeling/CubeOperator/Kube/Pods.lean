import CubeOperator.Kube.Names

/-! # Services, pods and their environment

    What the documents of Services and workloads come to at run time: the pods of a
    workload, the variables that their containers see, and the endpoints that exist.
    The documents are read field by field, so it does not matter who wrote them. -/

namespace Kube.Runtime

/-! ## Variables -/

/-- An entry of `env`: a value, or the path of a field of the pod. -/
structure EnvVar where
  name : String
  value : String := ""
  fieldPath : String := ""
  deriving DecidableEq

/-- Read a reference after a `$`: the text that takes its place, and how many characters
    it is read from.  A reference to an unknown variable stays as it is. -/
def readReference (value : String → Option String) : List Char → List Char × ℕ
  | [] => (['$'], 0)
  | '$' :: _ => (['$'], 1)
  | '(' :: cs =>
    if ')' ∈ cs then
      let ref := cs.takeWhile (· ≠ ')')
      match value (String.ofList ref) with
      | some text => (text.toList, ref.length + 2)
      | none => ('$' :: '(' :: ref ++ [')'], ref.length + 2)
    else (['$', '('], 1)
  | c :: _ => (['$', c], 1)

/-- Expand the references of a text, the first `skip` characters of which have been read
    already. -/
def expandFrom (value : String → Option String) : ℕ → List Char → List Char
  | _, [] => []
  | skip + 1, _ :: cs => expandFrom value skip cs
  | 0, c :: cs =>
    if c = '$' then
      let (text, read) := readReference value cs
      text ++ expandFrom value read cs
    else c :: expandFrom value 0 cs

/-- Expand the references `$(VAR)` of a text. -/
def expand (value : String → Option String) (text : String) : String :=
  String.ofList (expandFrom value 0 text.toList)

/-- The value of an entry in a pod, given the entries before it. -/
def EnvVar.runtimeValue (pod : String) (before : List (String × String)) (v : EnvVar) : String :=
  if v.value ≠ "" then expand (fun ref => before.lookup ref) v.value
  else if v.fieldPath = "metadata.name" then pod
  else ""

/-- The variables of a container in a pod, the last one first. -/
def runtimeEnv (pod : String) (env : List EnvVar) : List (String × String) :=
  env.foldl (fun before v => (v.name, v.runtimeValue pod before) :: before) []

/-- A text without a dollar sign has no references. -/
theorem expandFrom_of_notMem {value : String → Option String} :
    ∀ {cs : List Char}, '$' ∉ cs → expandFrom value 0 cs = cs
  | [], _ => rfl
  | c :: cs, h => by
    obtain ⟨hc, hcs⟩ := not_or.mp (mt List.mem_cons.mpr h)
    rw [expandFrom, if_neg (Ne.symm hc), expandFrom_of_notMem hcs]

theorem expand_of_notMem {value : String → Option String} {text : String}
    (h : '$' ∉ text.toList) : expand value text = text := by
  rw [expand, expandFrom_of_notMem h, String.ofList_toList]

theorem expandFrom_length (value : String → Option String) (cs ds : List Char) :
    expandFrom value cs.length (cs ++ ds) = expandFrom value 0 ds := by
  induction cs with
  | nil => rfl
  | cons c cs ih => simpa [expandFrom] using ih

/-- A reference to a variable that is set. -/
theorem expand_reference {value : String → Option String} {ref text rest : String}
    (href : ')' ∉ ref.toList) (hvalue : value ref = some text)
    (hrest : '$' ∉ rest.toList) : expand value ("$(" ++ ref ++ ")" ++ rest) = text ++ rest := by
  have htake : (ref.toList ++ ')' :: rest.toList).takeWhile (· ≠ ')') = ref.toList := by
    rw [List.takeWhile_append_of_pos]
    · simp
    · intro c hc
      simpa using fun heq : c = ')' => href (heq ▸ hc)
  have hread : readReference value ('(' :: (ref.toList ++ ')' :: rest.toList)) =
      (text.toList, ref.toList.length + 2) := by
    simp only [readReference, htake, String.ofList_toList, hvalue]
    rw [if_pos (by simp)]
  have hskip : expandFrom value (ref.toList.length + 2)
      ('(' :: (ref.toList ++ ')' :: rest.toList)) = expandFrom value 0 rest.toList := by
    have hlength := expandFrom_length value ('(' :: ref.toList ++ [')']) rest.toList
    simpa using hlength
  have hlist : ("$(" ++ ref ++ ")" ++ rest).toList =
      '$' :: '(' :: (ref.toList ++ ')' :: rest.toList) := by
    simp [String.toList_append]
  rw [expand, hlist, expandFrom, if_pos rfl, hread]
  simp only [hskip, expandFrom_of_notMem hrest]
  rw [String.ofList_append, String.ofList_toList, String.ofList_toList]

/-- An entry without references. -/
theorem EnvVar.runtimeValue_of_plain {v : EnvVar} {pod : String}
    {before : List (String × String)} (hpath : v.fieldPath = "") (hvalue : '$' ∉ v.value.toList) :
    v.runtimeValue pod before = v.value := by
  unfold EnvVar.runtimeValue
  split
  · exact expand_of_notMem hvalue
  · rename_i hempty
    rw [if_neg (by simp [hpath]), not_not.mp hempty]

/-- Entries of other names do not change a variable. -/
theorem lookup_runtimeEnv_append {pod ref : String} (env : List EnvVar) {env' : List EnvVar}
    (h : ∀ v ∈ env', v.name ≠ ref) :
    (runtimeEnv pod (env ++ env')).lookup ref = (runtimeEnv pod env).lookup ref := by
  unfold runtimeEnv
  rw [List.foldl_append]
  generalize env.foldl _ [] = before
  induction env' generalizing before with
  | nil => rfl
  | cons v env' ih =>
    obtain ⟨hv, henv'⟩ := List.forall_mem_cons.mp h
    rw [List.foldl_cons, ih henv', List.lookup_cons, beq_eq_false_iff_ne.mpr hv.symm]

/-- A variable that no entry sets. -/
theorem lookup_runtimeEnv_of_notMem {pod ref : String} {env : List EnvVar}
    (h : ∀ v ∈ env, v.name ≠ ref) : (runtimeEnv pod env).lookup ref = none :=
  lookup_runtimeEnv_append [] h

/-- A variable is what its last entry says. -/
theorem lookup_runtimeEnv (pod : String) (env : List EnvVar) (v : EnvVar) (env' : List EnvVar)
    (h : ∀ v' ∈ env', v'.name ≠ v.name) :
    (runtimeEnv pod (env ++ v :: env')).lookup v.name =
      some (v.runtimeValue pod (runtimeEnv pod env)) := by
  rw [List.append_cons, lookup_runtimeEnv_append _ h]
  unfold runtimeEnv
  rw [List.foldl_append, List.foldl_cons, List.foldl_nil, List.lookup_cons, beq_self_eq_true]

/-! ## Reading documents -/

/-- The text of a field. -/
def text (j : Option Json) : String :=
  match j with
  | some (.str s) => s
  | _ => ""

/-- The number of a field. -/
def number (j : Option Json) : ℤ :=
  match j with
  | some (.num n) => n.num
  | _ => 0

/-- The fields of a value that are texts. -/
def entries (j : Option Json) : List (String × String) :=
  (j.getD .null).fields.filterMap fun f => match f.2 with
    | .str s => some (f.1, s)
    | _ => none

@[simp] theorem text_none : text none = "" := rfl

@[simp] theorem text_some (s : String) : text (some (.str s)) = s := rfl

@[simp] theorem number_some (n : ℚ) : number (some (.num n)) = n.num := rfl

@[simp] theorem entries_stringsJson (es : List (String × String)) :
    entries (some (stringsJson es)) = es := by
  unfold entries stringsJson
  simp only [Option.getD_some, Json.fields_obj, List.filterMap_map, Function.comp_def]
  exact List.filterMap_some

def EnvVar.read (j : Json) : EnvVar where
  name := text (fieldOf j ["name"])
  value := text (fieldOf j ["value"])
  fieldPath := text (fieldOf j ["valueFrom", "fieldRef", "fieldPath"])

/-- The port that a probe names. -/
def probePort (probe : Json) : String :=
  match fieldOf probe ["httpGet", "port"] with
  | some port => text (some port)
  | none => text (fieldOf probe ["tcpSocket", "port"])

/-- A container: its variables, its named ports, and the ports that its probes name. -/
structure Container where
  env : List EnvVar := []
  ports : List (String × ℤ) := []
  probes : List String := []
  deriving DecidableEq

def Container.read (j : Json) : Container where
  env := (items (fieldOf j ["env"])).map EnvVar.read
  ports := (items (fieldOf j ["ports"])).map fun port =>
    (text (fieldOf port ["name"]), number (fieldOf port ["containerPort"]))
  probes := ([fieldOf j ["readinessProbe"], fieldOf j ["livenessProbe"]].filterMap id).map probePort

/-- A Service with the ports it listens on.  No Service of the operator sets a target port,
    and without one (or with zero) a port goes to the same port of the pods. -/
structure Service where
  name : String
  selector : List (String × String)
  ports : List ℤ
  headless : Bool := false
  deriving DecidableEq

def Service.read (m : Manifest) : Option Service :=
  if m.kind = .service then
    some {
      name := m.metadata.name
      selector := entries (fieldOf m.spec ["selector"])
      ports := (items (fieldOf m.spec ["ports"])).map fun port => number (fieldOf port ["port"])
      headless := text (fieldOf m.spec ["clusterIP"]) = "None" }
  else none

@[simp] theorem Service.read_of_ne {m : Manifest} (h : ¬m.kind = .service) :
    Service.read m = none := if_neg h

/-- A workload: the labels of its pods and their containers.  A StatefulSet has a Service
    of its own and a number of replicas. -/
structure PodSet where
  name : String
  labels : List (String × String)
  containers : List Container
  set : Option (String × ℤ) := none
  deriving DecidableEq

def PodSet.read (m : Manifest) : Option PodSet :=
  if m.kind = .deployment ∨ m.kind = .statefulSet then
    some {
      name := m.metadata.name
      labels := entries (fieldOf m.spec ["template", "metadata", "labels"])
      containers := (items (fieldOf m.spec ["template", "spec", "initContainers"]) ++
        items (fieldOf m.spec ["template", "spec", "containers"])).map Container.read
      set := if m.kind = .statefulSet then
          some (text (fieldOf m.spec ["serviceName"]), number (fieldOf m.spec ["replicas"]))
        else none }
  else none

@[simp] theorem PodSet.read_of_ne {m : Manifest} (h : ¬m.kind = .deployment)
    (h' : ¬m.kind = .statefulSet) : PodSet.read m = none := if_neg (not_or.mpr ⟨h, h'⟩)

/-- The Services and workloads of a list of documents. -/
structure Deployed where
  services : List Service
  workloads : List PodSet
  deriving DecidableEq

def Deployed.read (ms : List Manifest) : Deployed where
  services := ms.filterMap Service.read
  workloads := ms.filterMap PodSet.read

/-! ## Endpoints -/

/-- The names that the pods of a workload may have: those of a StatefulSet are numbered. -/
def PodSet.HasPod (w : PodSet) (pod : String) : Prop :=
  ∀ service replicas, w.set = some (service, replicas) →
    ∃ i : ℕ, (i : ℤ) < replicas ∧ pod = w.name ++ "-" ++ toString i

/-- What a container of a pod finds in a variable. -/
def Container.find (k : Container) (pod ref : String) : Option String :=
  (runtimeEnv pod k.env).lookup ref

namespace Deployed

variable {d : Deployed}

/-- The Service exposes the port, its selector matches the pods of the workload and no
    others, and they listen on the port. -/
structure Serves (d : Deployed) (s : Service) (port : ℤ) (w : PodSet) : Prop where
  service : s ∈ d.services
  exposes : port ∈ s.ports
  workload : w ∈ d.workloads
  selects : ∀ w' ∈ d.workloads, s.selector ⊆ w'.labels ↔ w' = w
  declares : ∃ k ∈ w.containers, port ∈ k.ports.map Prod.snd

/-- A host and a port that exist: a Service, or a pod under the headless Service of its
    StatefulSet. -/
def Endpoint (d : Deployed) (host : String) (port : ℤ) : Prop :=
  ∃ s w, d.Serves s port w ∧ (host = s.name ∨ (s.headless = true ∧
    ∃ replicas pod, w.set = some (s.name, replicas) ∧ w.HasPod pod ∧
      host = pod ++ "." ++ s.name))

/-- The address of an endpoint, a host and a port. -/
def Address (d : Deployed) (address : String) : Prop :=
  ∃ host, ∃ port : ℤ, address = host ++ ":" ++ toString port ∧ d.Endpoint host port

end Deployed

end Kube.Runtime
