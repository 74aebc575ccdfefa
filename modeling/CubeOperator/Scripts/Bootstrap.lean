import CubeOperator.Lib.Program
import Mathlib.Data.List.Infix
import Mathlib.Data.List.Nodup

/-! # The bootstrap script

    The two loops of `scripts/bootstrap-microk8s.sh`.  Both read the list of the nodes from
    their standard input, and the commands that they run with `ssh` inherit it: each of
    them may take some of what is still unread.

    A loop that need not end is cut off after a number of rounds, and then the script has
    not come to its end. -/

namespace CubeOperator.Bootstrap

open Interaction

/-! ## The list of the nodes -/

/-- An entry of `node_addresses`. -/
structure Node where
  name : String
  address : String
  deriving DecidableEq

/-- A text that `@tsv` writes as it is. -/
def Plain (s : String) : Prop := s ≠ "" ∧ ∀ c ∈ s.toList, c ∉ ['\t', '\n', '\r', '\\']

/-- An address has nothing that `grep -E` treats specially but dots. -/
def isAddress (s : String) : Bool := s.toList.all fun c => c.isAlphanum || c == '.' || c == ':'

/-- The outputs `node_addresses` and `primary_node`: hostnames and IP addresses of at
    least three machines. -/
structure NodeMap where
  nodes : List Node
  primary : Node
  mem_primary : primary ∈ nodes
  three : 3 ≤ nodes.length
  names : (nodes.map Node.name).Nodup
  addresses : (nodes.map Node.address).Nodup
  plain : ∀ node ∈ nodes, Plain node.name ∧ Plain node.address
  ip : ∀ node ∈ nodes, isAddress node.address = true

/-- A field as `@tsv` writes it. -/
def escape (s : String) : List Char :=
  s.toList.flatMap fun c =>
    if c = '\t' then ['\\', 't']
    else if c = '\n' then ['\\', 'n']
    else if c = '\r' then ['\\', 'r']
    else if c = '\\' then ['\\', '\\']
    else [c]

/-- `to_entries[] | [.key, .value] | @tsv` -/
def tsv (nodes : List Node) : List Char :=
  nodes.flatMap fun node => escape node.name ++ '\t' :: escape node.address ++ ['\n']

/-- The first line of the input and the rest.  An unfinished line is not read. -/
def readLine (input : List Char) : Option (List Char × List Char) :=
  if '\n' ∈ input then
    some (input.takeWhile (· ≠ '\n'), (input.dropWhile (· ≠ '\n')).tail)
  else none

/-- A line without the tabs at its ends. -/
def trimTabs (line : List Char) : List Char :=
  ((line.dropWhile (· = '\t')).reverse.dropWhile (· = '\t')).reverse

/-- What `IFS=$'\t' read -r name address` assigns. -/
def fields (line : List Char) : String × String :=
  let line := trimTabs line
  (String.ofList (line.takeWhile (· ≠ '\t')),
    String.ofList ((line.dropWhile (· ≠ '\t')).dropWhile (· = '\t')))

/-! ## The commands -/

inductive Call where
  /-- A command on a machine, with what is unread on the standard input. -/
  | ssh (address command : String) (unread : List Char)
  | sleep
  deriving DecidableEq

/-- What a command comes to: whether it succeeds, what it prints, and how many characters
    it takes from the standard input. -/
structure Remote where
  succeeds : Bool
  output : String := ""
  taken : ℕ := 0
  deriving DecidableEq

@[reducible] def Answer : Call → Type
  | .ssh _ _ _ => Remote
  | .sleep => Unit

abbrev Exchange : Type := Event Answer

/-- Why the script stops before the end of its loops. -/
inductive Stop where
  /-- A command fails under `set -e`. -/
  | failed (address command : String)
  | noJoinCommand
  /-- A loop has not come to its end. -/
  | unfinished
  deriving DecidableEq

abbrev Script : Type → Type := Attempt Call Answer Stop

/-- `remote`: the answer, and what is unread then. -/
def remote (address command : String) (unread : List Char) : Script (Remote × List Char) := do
  let answer ← ExceptT.lift (Program.perform (Call.ssh address command unread))
  pure (answer, unread.drop answer.taken)

abbrev sleep : Script Unit := ExceptT.lift (Program.perform Call.sleep)

def awaitReady : String :=
  "sudo cloud-init status --wait && sudo timeout 600 microk8s status --wait-ready"

def getNode (name : String) : String := "sudo microk8s kubectl get node '" ++ name ++ "'"

def addNode : String := "sudo microk8s add-node --token-ttl 3600"

/-- Whether a text starts with a match of a pattern of plain characters and dots, which
    match any character. -/
def matchesAt : List Char → List Char → Bool
  | [], _ => true
  | _ :: _, [] => false
  | p :: ps, c :: cs => (p == '.' || p == c) && matchesAt ps cs

/-- `grep` -/
def grep (pattern line : List Char) : Bool := line.tails.any (matchesAt pattern)

/-- `microk8s join ${primary_address}:25000/`, whose only special characters are the dots of
    the address. -/
def joinPattern (address : String) : List Char :=
  "microk8s join ".toList ++ (address.toList ++ ":25000/".toList)

/-- The first line that names a join command. -/
def joinCommand (address output : String) : Option String :=
  ((output.toList.splitOn '\n').find? (grep (joinPattern address))).map String.ofList

/-! ## The loops -/

/-- `until remote "$address" true; do sleep 5; done` -/
def untilReached (address : String) : ℕ → List Char → Script (List Char)
  | 0, _ => throw .unfinished
  | n + 1, unread => do
    let (answer, unread) ← remote address "true" unread
    if answer.succeeds then pure unread
    else do
      sleep
      untilReached address n unread

/-- `while read ...; do ...; done`, with what the body leaves unread. -/
def readLoop (body : String → String → List Char → Script (List Char)) : ℕ → List Char → Script Unit
  | 0, _ => throw .unfinished
  | n + 1, unread =>
    match readLine unread with
    | none => pure ()
    | some (line, unread) => do
      let unread ← body (fields line).1 (fields line).2 unread
      readLoop body n unread

/-- The body of the first loop. -/
def awaitNode (n : ℕ) (_name address : String) (unread : List Char) : Script (List Char) := do
  let unread ← untilReached address n unread
  let (answer, unread) ← remote address awaitReady unread
  .failIf (!answer.succeeds) (.failed address awaitReady)
  pure unread

/-- The body of the second loop. -/
def joinNode (primary : Node) (name address : String) (unread : List Char) :
    Script (List Char) := do
  if name = primary.name then pure unread
  else do
    let (answer, unread) ← remote primary.address (getNode name) unread
    if answer.succeeds then pure unread
    else do
      let (answer, unread) ← remote primary.address addNode unread
      .failIf (!answer.succeeds) (.failed primary.address addNode)
      match joinCommand primary.address answer.output with
      | none => throw .noJoinCommand
      | some command => do
        let (answer, unread) ← remote address ("sudo " ++ command) unread
        .failIf (!answer.succeeds) (.failed address ("sudo " ++ command))
        pure unread

/-- The script up to the end of its loops, each of at most `n` rounds. -/
def bootstrap (n : ℕ) (m : NodeMap) : Script Unit := do
  readLoop (awaitNode n) n (tsv m.nodes)
  readLoop (joinNode m.primary) n (tsv m.nodes)

/-! ## Reading the list -/

variable {name address : String} {node : Node} {nodes : List Node} {unread unread' : List Char}
  {n : ℕ} {tr : List Exchange} {m : NodeMap}

theorem escape_of_plain {s : String} (h : Plain s) : escape s = s.toList := by
  have hplain := h.2
  unfold escape
  generalize s.toList = cs at hplain ⊢
  induction cs with
  | nil => rfl
  | cons c cs ih =>
    obtain ⟨hc, hcs⟩ := List.forall_mem_cons.mp hplain
    simp only [List.mem_cons, List.not_mem_nil, or_false, not_or] at hc
    rw [List.flatMap_cons, ih hcs, if_neg hc.1, if_neg hc.2.1, if_neg hc.2.2.1, if_neg hc.2.2.2]
    rfl

theorem readLine_append {line rest : List Char} (h : '\n' ∉ line) :
    readLine (line ++ '\n' :: rest) = some (line, rest) := by
  have hline : ∀ c ∈ line, decide (c ≠ '\n') = true := by
    intro c hc
    simpa using fun heq : c = '\n' => h (heq ▸ hc)
  unfold readLine
  rw [if_pos (by simp), List.takeWhile_append_of_pos hline, List.dropWhile_append_of_pos hline]
  simp

/-- A text without tabs stops both ways of trimming. -/
theorem dropWhile_of_plain {cs : List Char} (ds : List Char) (hne : cs ≠ []) (h : '\t' ∉ cs) :
    (cs ++ ds).dropWhile (· = '\t') = cs ++ ds := by
  cases cs with
  | nil => exact absurd rfl hne
  | cons c cs =>
    have hc : c ≠ '\t' := fun heq => h (heq ▸ List.mem_cons_self)
    rw [List.cons_append, List.dropWhile_cons_of_neg (by simpa using hc)]

theorem fields_append (hname : name ≠ "") (hnameTabs : '\t' ∉ name.toList) (haddress : address ≠ "")
    (haddressTabs : '\t' ∉ address.toList) :
    fields (name.toList ++ '\t' :: address.toList) = (name, address) := by
  have hnonempty {s : String} (hs : s ≠ "") : s.toList ≠ [] := by simpa using hs
  have htrim : trimTabs (name.toList ++ '\t' :: address.toList) =
      name.toList ++ '\t' :: address.toList := by
    have hreverse : (name.toList ++ '\t' :: address.toList).reverse =
        address.toList.reverse ++ '\t' :: name.toList.reverse := by simp
    unfold trimTabs
    rw [dropWhile_of_plain _ (hnonempty hname) hnameTabs, hreverse,
      dropWhile_of_plain _ (by simpa using hnonempty haddress) (by simpa using haddressTabs), ← hreverse,
      List.reverse_reverse]
  have hall : ∀ c ∈ name.toList, decide (c ≠ '\t') = true := by
    intro c hc
    simpa using fun heq : c = '\t' => hnameTabs (heq ▸ hc)
  unfold fields
  rw [htrim]
  dsimp only
  rw [List.takeWhile_append_of_pos hall, List.dropWhile_append_of_pos hall,
    List.takeWhile_cons_of_neg (by simp), List.dropWhile_cons_of_neg (by simp),
    List.dropWhile_cons_of_pos (by simp), List.append_nil, String.ofList_toList]
  have haddress' := dropWhile_of_plain [] (hnonempty haddress) haddressTabs
  rw [List.append_nil] at haddress'
  rw [haddress', String.ofList_toList]

theorem Plain.notMem {s : String} (h : Plain s) {c : Char} (hc : c ∈ ['\t', '\n', '\r', '\\']) :
    c ∉ s.toList := fun hmem => h.2 c hmem hc

/-- The loop reads the name and the address of the first node. -/
theorem readLine_tsv (nodes : List Node) (h : Plain node.name ∧ Plain node.address) :
    ∃ line, readLine (tsv (node :: nodes)) = some (line, tsv nodes) ∧
      fields line = (node.name, node.address) := by
  obtain ⟨hname, haddress⟩ := h
  refine ⟨node.name.toList ++ '\t' :: node.address.toList, ?_, ?_⟩
  · have hline : '\n' ∉ node.name.toList ++ '\t' :: node.address.toList := by
      simp only [List.mem_append, List.mem_cons, not_or]
      exact ⟨hname.notMem (by decide), by decide, haddress.notMem (by decide)⟩
    have hsplit : tsv (node :: nodes) =
        (node.name.toList ++ '\t' :: node.address.toList) ++ '\n' :: tsv nodes := by
      simp [tsv, escape_of_plain hname, escape_of_plain haddress]
    rw [hsplit, readLine_append hline]
  · exact fields_append hname.1 (hname.notMem (by decide)) haddress.1 (haddress.notMem (by decide))

/-! ## Commands that take nothing -/

/-- The command leaves its standard input as it was. -/
def Spares (e : Exchange) : Prop :=
  match e with
  | ⟨.ssh _ _ unread, answer⟩ => unread.drop answer.taken = unread
  | ⟨.sleep, _⟩ => True

theorem exec_remote {command : String} {answer : Remote}
    (h : Exec (remote address command unread).run tr (.ok (answer, unread'))) :
    tr = [⟨.ssh address command unread, answer⟩] ∧ unread' = unread.drop answer.taken := by
  obtain ⟨tr₁, answer', tr₂, rfl, hcall, hrest⟩ := Exec.attempt_bind_ok_iff.mp h
  obtain ⟨_, hperform, heq⟩ := Exec.lift_iff.mp hcall
  obtain rfl := Except.ok.inj heq
  obtain rfl := Exec.perform_iff.mp hperform
  obtain ⟨rfl, hpair⟩ := Exec.ret_iff.mp hrest
  obtain ⟨rfl, rfl⟩ := Prod.mk.inj (Except.ok.inj hpair)
  exact ⟨rfl, rfl⟩

/-- A command that takes nothing. -/
theorem exec_remote_spared {command : String} {answer : Remote}
    (h : Exec (remote address command unread).run tr (.ok (answer, unread')))
    (hspared : ∀ e ∈ tr, Spares e) :
    tr = [⟨.ssh address command unread, answer⟩] ∧ unread' = unread := by
  obtain ⟨rfl, rfl⟩ := exec_remote h
  exact ⟨rfl, hspared _ List.mem_cons_self⟩

/-- A loop whose body leaves the list as it was runs the body once for each node. -/
theorem exec_readLoop {body : String → String → List Char → Script (List Char)}
    (hbody : ∀ {name address unread tr unread'}, Exec (body name address unread).run tr (.ok unread') →
      (∀ e ∈ tr, Spares e) → unread' = unread)
    (hplain : ∀ node ∈ nodes, Plain node.name ∧ Plain node.address)
    (h : Exec (readLoop body n (tsv nodes)).run tr (.ok ())) (hspared : ∀ e ∈ tr, Spares e) :
    ∃ trs : List (List Exchange), tr = trs.flatten ∧ List.Forall₂ (fun node tr =>
      (∃ unread, Exec (body node.name node.address unread).run tr (.ok unread)) ∧
        ∀ e ∈ tr, Spares e) nodes trs := by
  induction n generalizing nodes tr with
  | zero => simp [readLoop] at h
  | succ n ih =>
    cases nodes with
    | nil =>
      obtain ⟨rfl, -⟩ : tr = [] ∧ True := by simpa [readLoop, readLine, tsv] using h
      exact ⟨[], rfl, .nil⟩
    | cons node nodes =>
      obtain ⟨hnode, hnodes⟩ := List.forall_mem_cons.mp hplain
      obtain ⟨line, hread, hfields⟩ := readLine_tsv nodes hnode
      rw [readLoop, hread] at h
      dsimp only at h
      rw [hfields] at h
      obtain ⟨tr₁, unread', tr₂, rfl, hfirst, hrest⟩ := Exec.attempt_bind_ok_iff.mp h
      obtain ⟨hspared₁, hspared₂⟩ := List.forall_mem_append.mp hspared
      obtain rfl := hbody hfirst hspared₁
      obtain ⟨trs, rfl, htrs⟩ := ih hnodes hrest hspared₂
      exact ⟨tr₁ :: trs, rfl, .cons ⟨⟨_, hfirst⟩, hspared₁⟩ htrs⟩

/-! ## The bodies of the loops -/

/-- The script waits for a machine to answer. -/
def Waits (address : String) (e : Exchange) : Prop :=
  e.1 = .sleep ∨ ∃ unread, e.1 = .ssh address "true" unread

theorem exec_untilReached (h : Exec (untilReached address n unread).run tr (.ok unread'))
    (hspared : ∀ e ∈ tr, Spares e) : unread' = unread ∧ ∀ e ∈ tr, Waits address e := by
  induction n generalizing unread tr with
  | zero => simp [untilReached] at h
  | succ n ih =>
    obtain ⟨tr₁, ⟨answer, unread₁⟩, tr₂, rfl, hfirst, hrest⟩ := Exec.attempt_bind_ok_iff.mp h
    obtain ⟨hspared₁, hspared₂⟩ := List.forall_mem_append.mp hspared
    obtain ⟨rfl, rfl⟩ := exec_remote_spared hfirst hspared₁
    dsimp only at hrest
    have hwaits : Waits address ⟨.ssh address "true" unread₁, answer⟩ := .inr ⟨unread₁, rfl⟩
    split at hrest
    · obtain ⟨rfl, heq⟩ := Exec.ret_iff.mp hrest
      exact ⟨Except.ok.inj heq, by simpa using hwaits⟩
    · obtain ⟨tr₃, u, tr₄, rfl, hsleep, hagain⟩ := Exec.attempt_bind_ok_iff.mp hrest
      obtain ⟨_, hslept, -⟩ := Exec.lift_iff.mp hsleep
      obtain rfl := Exec.perform_iff.mp hslept
      obtain ⟨rfl, hall⟩ := ih hagain (List.forall_mem_append.mp hspared₂).2
      refine ⟨rfl, ?_⟩
      intro e he
      simp only [List.cons_append, List.nil_append, List.mem_cons] at he
      rcases he with rfl | rfl | he
      · exact hwaits
      · exact .inl rfl
      · exact hall e he

/-- The first loop waits for a node and then for cloud-init and MicroK8s on it. -/
theorem exec_awaitNode (h : Exec (awaitNode n name address unread).run tr (.ok unread'))
    (hspared : ∀ e ∈ tr, Spares e) : unread' = unread ∧ ∃ tr' answer,
      tr = tr' ++ [⟨.ssh address awaitReady unread, answer⟩] ∧ answer.succeeds = true ∧
        ∀ e ∈ tr', Waits address e := by
  obtain ⟨tr₁, unread₁, tr₂, rfl, huntil, hrest⟩ := Exec.attempt_bind_ok_iff.mp h
  obtain ⟨hspared₁, hspared₂⟩ := List.forall_mem_append.mp hspared
  obtain ⟨rfl, hwaits⟩ := exec_untilReached huntil hspared₁
  obtain ⟨tr₃, ⟨answer, unread₂⟩, tr₄, rfl, hawait, hrest₁⟩ := Exec.attempt_bind_ok_iff.mp hrest
  obtain ⟨hspared₃, hspared₄⟩ := List.forall_mem_append.mp hspared₂
  obtain ⟨rfl, rfl⟩ := exec_remote_spared hawait hspared₃
  obtain ⟨tr₅, _, tr₆, rfl, hfail, hrest₂⟩ := Exec.attempt_bind_ok_iff.mp hrest₁
  obtain ⟨rfl, hsucceeds⟩ := Exec.failIf_ok_iff.mp hfail
  obtain ⟨rfl, heq⟩ := Exec.ret_iff.mp hrest₂
  exact ⟨Except.ok.inj heq, tr₁, answer, by simp, by simpa using hsucceeds, hwaits⟩

/-- What the second loop does with a node: nothing with the primary one, and a join unless
    it is a member already. -/
inductive Joins (primary : Node) (name address : String) : List Exchange → Prop where
  | primary : name = primary.name → Joins primary name address []
  | member (unread : List Char) (answer : Remote) : answer.succeeds = true →
      Joins primary name address [⟨.ssh primary.address (getNode name) unread, answer⟩]
  | joined {unread unread' unread'' : List Char} {checked token done : Remote} {command : String} :
      joinCommand primary.address token.output = some command →
      Joins primary name address
        [⟨.ssh primary.address (getNode name) unread, checked⟩,
          ⟨.ssh primary.address addNode unread', token⟩,
          ⟨.ssh address ("sudo " ++ command) unread'', done⟩]

theorem exec_joinNode {primary : Node}
    (h : Exec (joinNode primary name address unread).run tr (.ok unread'))
    (hspared : ∀ e ∈ tr, Spares e) : unread' = unread ∧ Joins primary name address tr := by
  unfold joinNode at h
  split at h
  · rename_i hprimary
    obtain ⟨rfl, heq⟩ := Exec.ret_iff.mp h
    exact ⟨Except.ok.inj heq, .primary hprimary⟩
  · obtain ⟨tr₁, ⟨checked, unread₁⟩, tr₂, rfl, hcheck, hrest⟩ := Exec.attempt_bind_ok_iff.mp h
    obtain ⟨hspared₁, hspared₂⟩ := List.forall_mem_append.mp hspared
    obtain ⟨rfl, rfl⟩ := exec_remote_spared hcheck hspared₁
    dsimp only at hrest
    split at hrest
    · rename_i hmember
      obtain ⟨rfl, heq⟩ := Exec.ret_iff.mp hrest
      exact ⟨Except.ok.inj heq, .member _ _ hmember⟩
    · obtain ⟨tr₃, ⟨token, unread₂⟩, tr₄, rfl, htoken, hrest₁⟩ := Exec.attempt_bind_ok_iff.mp hrest
      obtain ⟨hspared₃, hspared₄⟩ := List.forall_mem_append.mp hspared₂
      obtain ⟨rfl, rfl⟩ := exec_remote_spared htoken hspared₃
      obtain ⟨tr₅, _, tr₆, rfl, hfail, hrest₂⟩ := Exec.attempt_bind_ok_iff.mp hrest₁
      obtain ⟨rfl, -⟩ := Exec.failIf_ok_iff.mp hfail
      cases hcommand : joinCommand primary.address token.output with
      | none =>
        rw [hcommand] at hrest₂
        cases (Exec.ret_iff.mp hrest₂).2
      | some command =>
        rw [hcommand] at hrest₂
        obtain ⟨tr₇, ⟨done, unread₃⟩, tr₈, rfl, hjoin, hrest₃⟩ := Exec.attempt_bind_ok_iff.mp hrest₂
        obtain ⟨hspared₅, hspared₆⟩ := List.forall_mem_append.mp (List.forall_mem_append.mp hspared₄).2
        obtain ⟨rfl, rfl⟩ := exec_remote_spared hjoin hspared₅
        obtain ⟨tr₉, _, tr₁₀, rfl, hfail', hrest₄⟩ := Exec.attempt_bind_ok_iff.mp hrest₃
        obtain ⟨rfl, -⟩ := Exec.failIf_ok_iff.mp hfail'
        obtain ⟨rfl, heq⟩ := Exec.ret_iff.mp hrest₄
        exact ⟨Except.ok.inj heq, .joined hcommand⟩

/-! ## Every node -/

/-- A run of the join command on a machine. -/
def IsJoin (m : NodeMap) (address : String) (e : Exchange) : Bool :=
  match e.1 with
  | .ssh address' command _ => address' = address && grep (joinPattern m.primary.address) command.toList
  | .sleep => false

/-- cloud-init and MicroK8s have been awaited on the node. -/
def Awaited (node : Node) (tr : List Exchange) : Prop :=
  ∃ unread answer, (⟨.ssh node.address awaitReady unread, answer⟩ : Exchange) ∈ tr ∧
    answer.succeeds = true

/-- Only the members are found. -/
def Finds (m : NodeMap) (members : Set String) (tr : List Exchange) : Prop :=
  ∀ name unread answer, (⟨.ssh m.primary.address (getNode name) unread, answer⟩ : Exchange) ∈ tr →
    answer.succeeds = true → name ∈ members

/-- Every node has been awaited, and every other node than the primary one is a member
    already or has run the join command once. -/
structure Handled (m : NodeMap) (members : Set String) (tr : List Exchange) : Prop where
  awaited : ∀ node ∈ m.nodes, Awaited node tr
  joined : ∀ node ∈ m.nodes, node ≠ m.primary →
    node.name ∈ members ∨ tr.countP (IsJoin m node.address) = 1

/-- A longer pattern matches less. -/
theorem matchesAt_append {p q cs : List Char} (h : matchesAt (p ++ q) cs = true) :
    matchesAt p cs = true := by
  induction p generalizing cs with
  | nil => rfl
  | cons c p ih =>
    cases cs with
    | nil => cases h
    | cons d cs =>
      simp only [List.cons_append, matchesAt, Bool.and_eq_true] at h ⊢
      exact ⟨h.1, ih h.2⟩

theorem grep_append {p q line : List Char} (h : grep (p ++ q) line = true) : grep p line = true := by
  obtain ⟨cs, hcs, hmatch⟩ := List.any_eq_true.mp h
  exact List.any_eq_true.mpr ⟨cs, hcs, matchesAt_append hmatch⟩

/-- A line found by `grep` is found after a text, too. -/
theorem grep_prefix {p line : List Char} (pre : List Char) (h : grep p line = true) :
    grep p (pre ++ line) = true := by
  obtain ⟨cs, hcs, hmatch⟩ := List.any_eq_true.mp h
  refine List.any_eq_true.mpr ⟨cs, ?_, hmatch⟩
  rw [List.mem_tails] at hcs ⊢
  exact hcs.trans (List.suffix_append pre line)

theorem grep_joinCommand {output command : String} (h : joinCommand address output = some command) :
    grep (joinPattern address) ("sudo " ++ command).toList = true := by
  obtain ⟨line, hfind, rfl⟩ := Option.map_eq_some_iff.mp h
  have hline : (String.ofList line).toList = line := String.toList_ofList
  rw [String.toList_append, hline]
  exact grep_prefix _ (List.find?_some hfind)

theorem not_grep_of_not {command : String}
    (h : grep "microk8s join ".toList command.toList = false) :
    grep (joinPattern address) command.toList = false := by
  cases hgrep : grep (joinPattern address) command.toList with
  | false => rfl
  | true =>
    rw [grep_append hgrep] at h
    cases h

/-- Neither of the commands of the first loop is a join. -/
theorem not_isJoin_of_waits {e : Exchange} {address' : String} (h : Waits address' e) :
    IsJoin m address e = false := by
  obtain ⟨c, answer⟩ := e
  rcases h with heq | ⟨unread, heq⟩
  · obtain rfl : c = .sleep := heq
    rfl
  · obtain rfl : c = .ssh address' "true" unread := heq
    unfold IsJoin
    dsimp only
    rw [not_grep_of_not (by decide +kernel), Bool.and_false]

theorem not_isJoin_awaitReady {address' : String} {answer : Remote} :
    IsJoin m address ⟨.ssh address' awaitReady unread, answer⟩ = false := by
  unfold IsJoin
  dsimp only
  rw [not_grep_of_not (by decide +kernel), Bool.and_false]

theorem not_isJoin_of_ne {address' command : String} {answer : Remote} (h : address' ≠ address) :
    IsJoin m address ⟨.ssh address' command unread, answer⟩ = false := by
  unfold IsJoin
  dsimp only
  rw [decide_eq_false h, Bool.false_and]

theorem isJoin_joinCommand {output command : String} {answer : Remote}
    (h : joinCommand m.primary.address output = some command) :
    IsJoin m address ⟨.ssh address ("sudo " ++ command) unread, answer⟩ = true := by
  unfold IsJoin
  dsimp only
  rw [grep_joinCommand h, decide_eq_true rfl, Bool.true_and]

/-- Another machine does not run a join for this node. -/
theorem countP_joins_of_ne {address' : String} (h : Joins m.primary name address' tr)
    (hprimary : m.primary.address ≠ address) (hne : address' ≠ address) :
    tr.countP (IsJoin m address) = 0 := by
  rw [List.countP_eq_zero]
  intro e he
  rw [Bool.not_eq_true]
  cases h with
  | primary _ => cases he
  | member _ _ _ =>
    obtain rfl := List.mem_singleton.mp he
    exact not_isJoin_of_ne hprimary
  | joined _ =>
    simp only [List.mem_cons, List.not_mem_nil, or_false] at he
    rcases he with rfl | rfl | rfl
    · exact not_isJoin_of_ne hprimary
    · exact not_isJoin_of_ne hprimary
    · exact not_isJoin_of_ne hne

/-- What the second loop does with a node is all that it does on its machine. -/
theorem exists_joins {trs : List (List Exchange)} (haddresses : (nodes.map Node.address).Nodup)
    (h : List.Forall₂ (fun node tr => Joins m.primary node.name node.address tr) nodes trs)
    (hnode : node ∈ nodes) (hprimary : m.primary.address ≠ node.address) :
    ∃ tr ∈ trs, Joins m.primary node.name node.address tr ∧
      trs.flatten.countP (IsJoin m node.address) = tr.countP (IsJoin m node.address) := by
  induction h with
  | nil => cases hnode
  | @cons first tr nodes trs hfirst hrest ih =>
    rw [List.map_cons, List.nodup_cons] at haddresses
    obtain ⟨hnotMem, hnodup⟩ := haddresses
    rw [List.flatten_cons, List.countP_append]
    rcases List.mem_cons.mp hnode with rfl | hnode
    · refine ⟨tr, List.mem_cons_self, hfirst, ?_⟩
      have hothers : trs.flatten.countP (IsJoin m node.address) = 0 := by
        rw [List.countP_eq_zero]
        intro e he
        obtain ⟨tr', htr', he⟩ := List.mem_flatten.mp he
        obtain ⟨node', hnode', hjoins⟩ := exists_left_of_mem hrest htr'
        have hne : node'.address ≠ node.address := fun heq =>
          hnotMem (heq ▸ List.mem_map_of_mem hnode')
        exact List.countP_eq_zero.mp (countP_joins_of_ne hjoins hprimary hne) e he
      rw [hothers, Nat.add_zero]
    · obtain ⟨tr', htr', hjoins, hcount⟩ := ih hnodup hnode
      have hne : first.address ≠ node.address := fun heq =>
        hnotMem (heq ▸ List.mem_map_of_mem hnode)
      exact ⟨tr', List.mem_cons_of_mem _ htr', hjoins, by
        rw [countP_joins_of_ne hfirst hprimary hne, hcount, Nat.zero_add]⟩

/-- If no command of the two loops takes anything of the list that its loop has still to
    read, every node is awaited and joined. -/
theorem handles_every_node {members : Set String} (h : Exec (bootstrap n m).run tr (.ok ()))
    (hfinds : Finds m members tr) (hspared : ∀ e ∈ tr, Spares e) : Handled m members tr := by
  obtain ⟨tr₁, _, tr₂, rfl, hawait, hjoin⟩ := Exec.attempt_bind_ok_iff.mp h
  obtain ⟨hspared₁, hspared₂⟩ := List.forall_mem_append.mp hspared
  obtain ⟨trs₁, rfl, hawaited⟩ := exec_readLoop (fun hexec hspared =>
    (exec_awaitNode hexec hspared).1) m.plain hawait hspared₁
  obtain ⟨trs₂, rfl, hjoined⟩ := exec_readLoop (fun hexec hspared =>
    (exec_joinNode hexec hspared).1) m.plain hjoin hspared₂
  have hjoins := hjoined.imp fun node tr ⟨⟨unread, hexec⟩, hspared⟩ =>
    (exec_joinNode hexec hspared).2
  constructor
  · intro node hnode
    obtain ⟨tr, htr, ⟨unread, hexec⟩, hsparedNode⟩ := exists_right_of_mem hawaited hnode
    obtain ⟨-, tr', answer, rfl, hsucceeds, -⟩ := exec_awaitNode hexec hsparedNode
    refine ⟨unread, answer, List.mem_append_left _ (List.mem_flatten_of_mem htr ?_), hsucceeds⟩
    exact List.mem_append_right _ List.mem_cons_self
  · intro node hnode hne
    have hprimary : m.primary.address ≠ node.address := fun heq =>
      hne (List.inj_on_of_nodup_map m.addresses hnode m.mem_primary heq.symm)
    -- The first loop joins nothing.
    have hnone : trs₁.flatten.countP (IsJoin m node.address) = 0 := by
      rw [List.countP_eq_zero]
      intro e he
      rw [Bool.not_eq_true]
      obtain ⟨tr, htr, he⟩ := List.mem_flatten.mp he
      obtain ⟨node', -, ⟨unread, hexec⟩, hsparedNode⟩ := exists_left_of_mem hawaited htr
      obtain ⟨-, tr', answer, rfl, -, hwaits⟩ := exec_awaitNode hexec hsparedNode
      rcases List.mem_append.mp he with he | he
      · exact not_isJoin_of_waits (hwaits e he)
      · obtain rfl := List.mem_singleton.mp he
        exact not_isJoin_awaitReady
    obtain ⟨tr, htr, hjoinsNode, hcount⟩ := exists_joins m.addresses hjoins hnode hprimary
    cases hjoinsNode with
    | primary heq => exact absurd (List.inj_on_of_nodup_map m.names hnode m.mem_primary heq) hne
    | member unread answer hmember =>
      refine .inl (hfinds node.name unread answer (List.mem_append_right _ ?_) hmember)
      exact List.mem_flatten_of_mem htr List.mem_cons_self
    | joined hcommand =>
      refine .inr ?_
      rw [List.countP_append, hnone, hcount, Nat.zero_add]
      rw [List.countP_cons_of_neg (by simp [not_isJoin_of_ne hprimary]),
        List.countP_cons_of_neg (by simp [not_isJoin_of_ne hprimary]), List.countP_cons_of_pos]
      · rfl
      · exact isJoin_joinCommand hcommand

/-! ### Three nodes -/

theorem plain_of_all {s : String} (hne : s ≠ "")
    (h : s.toList.all (fun c => c ∉ ['\t', '\n', '\r', '\\']) = true) : Plain s :=
  ⟨hne, fun c hc => of_decide_eq_true (List.all_eq_true.mp h c hc)⟩

def threeNodes : NodeMap where
  nodes := [⟨"node-1", "10.0.0.11"⟩, ⟨"node-2", "10.0.0.12"⟩, ⟨"node-3", "10.0.0.13"⟩]
  primary := ⟨"node-1", "10.0.0.11"⟩
  mem_primary := by decide
  three := by decide
  names := by decide
  addresses := by decide
  plain := by
    have hplain : ∀ s ∈ ["node-1", "node-2", "node-3", "10.0.0.11", "10.0.0.12", "10.0.0.13"],
        s ≠ "" ∧ s.toList.all (fun c => c ∉ ['\t', '\n', '\r', '\\']) = true := by decide +kernel
    have hall {s : String} (hs : s ∈ ["node-1", "node-2", "node-3", "10.0.0.11", "10.0.0.12",
        "10.0.0.13"]) : Plain s := plain_of_all (hplain s hs).1 (hplain s hs).2
    simp only [List.forall_mem_cons]
    exact ⟨⟨hall (by decide), hall (by decide)⟩, ⟨hall (by decide), hall (by decide)⟩,
      ⟨hall (by decide), hall (by decide)⟩, by simp⟩
  ip := by decide +kernel

/-- The third node is new.  The commands take a part of what is unread. -/
def answerWith (taken : List Char → ℕ) : (c : Call) → Answer c
  | .ssh _ command unread => {
      succeeds := command ≠ getNode "node-3"
      output := "microk8s join 10.0.0.11:25000/92b2db237428470dc4fcfc4ebbd9dc81/2c0cb3284b05\n"
      taken := taken unread }
  | .sleep => ()

theorem finds_of_answers {tr : List Exchange} {taken : List Char → ℕ}
    (h : ∀ e ∈ tr, e.2 = answerWith taken e.1) : Finds threeNodes {name | name ≠ "node-3"} tr := by
  intro name unread answer hmem hsucceeds
  have hanswer : answer = answerWith taken (.ssh "10.0.0.11" (getNode name) unread) := h _ hmem
  rw [hanswer] at hsucceeds
  intro heq
  subst heq
  simp [answerWith] at hsucceeds

theorem handles_every_node_spared : ∃ tr,
    Exec (bootstrap 4 threeNodes).run tr (.ok ()) ∧ Handled threeNodes {name | name ≠ "node-3"} tr := by
  obtain ⟨tr, hexec, hanswers⟩ := Program.exec_eval (answerWith fun _ => 0) (bootstrap 4 threeNodes).run
  have hok : (bootstrap 4 threeNodes).run.eval (answerWith fun _ => 0) = .ok () := by
    decide +kernel
  rw [hok] at hexec
  refine ⟨tr, hexec, handles_every_node hexec (finds_of_answers hanswers) ?_⟩
  intro ⟨c, answer⟩ he
  have hanswer : answer = answerWith (fun _ => 0) c := hanswers _ he
  subst hanswer
  cases c with
  | ssh address command unread => rfl
  | sleep => trivial

/-- The machine that a command runs on. -/
def Call.machine : Call → String
  | .ssh address _ _ => address
  | .sleep => ""

/-- A command that takes all of the list ends its loop: the third node is lost. -/
theorem third_node_lost : ¬∀ (m : NodeMap) (members : Set String) (n : ℕ) (tr : List Exchange),
    Exec (bootstrap n m).run tr (.ok ()) → Finds m members tr → Handled m members tr := by
  intro h
  let serve : Unit → (c : Call) → Answer c × Unit := fun _ c => (answerWith List.length c, ())
  let allows : Unit → Exchange → Unit → Prop := fun _ e _ => e.2 = answerWith List.length e.1
  have hserve : ∀ s c, allows s ⟨c, (serve s c).1⟩ (serve s c).2 := fun _ _ => rfl
  obtain ⟨hexec, hreplay⟩ := Program.runOn_run hserve (bootstrap 4 threeNodes).run ()
  have hok : ((bootstrap 4 threeNodes).run.runOn serve ()).1 = .ok () := by decide +kernel
  have hmachines : "10.0.0.13" ∉
      ((bootstrap 4 threeNodes).run.runOn serve ()).2.1.map fun e => e.1.machine := by decide +kernel
  have hanswers := Replay.forall_of_step (A := fun e : Exchange => e.2 = answerWith List.length e.1)
    (fun _ _ _ hallows => hallows) hreplay
  rw [hok] at hexec
  have hhandled := h threeNodes _ 4 _ hexec (finds_of_answers hanswers)
  obtain ⟨unread, answer, hmem, -⟩ := hhandled.awaited ⟨"node-3", "10.0.0.13"⟩ (by decide)
  exact hmachines (List.mem_map_of_mem hmem)

end CubeOperator.Bootstrap
