import CubeOperator.Kube.Objects
import Mathlib.Data.List.Basic

/-! # The naming rules of Kubernetes

    Which texts may name objects, Services and pods, and which may be values of labels. -/

namespace Kube

/-! ## Labels of a domain name -/

/-- The characters `[a-z0-9]`. -/
def isAlphanumeric (c : Char) : Bool := c.isLower || c.isDigit

/-- The characters `[-a-z0-9]`. -/
def isLabelCharacter (c : Char) : Bool := isAlphanumeric c || c = '-'

/-- A label of a domain name but for its length: `[a-z0-9]([-a-z0-9]*[a-z0-9])?`. -/
structure DnsLabel (cs : List Char) : Prop where
  characters : ∀ c ∈ cs, isLabelCharacter c = true
  first : cs.head?.any isAlphanumeric = true
  last : cs.getLast?.any isAlphanumeric = true

/-- A DNS-1123 subdomain of at most 253 characters, the rule for the names of most
    objects. -/
structure IsSubdomain (s : String) : Prop where
  length : s.length ≤ 253
  labels : ∀ l ∈ s.toList.splitOn '.', DnsLabel l

/-- A DNS-1035 label of at most 63 characters, the rule for the names of Services. -/
structure IsDns1035Label (s : String) : Prop where
  length : s.length ≤ 63
  label : DnsLabel s.toList
  letter : s.toList.head?.any Char.isLower = true

theorem not_isLabelCharacter_dot : isLabelCharacter '.' = false := by decide

theorem DnsLabel.ne_nil {cs : List Char} (h : DnsLabel cs) : cs ≠ [] := by
  rintro rfl
  exact absurd h.first (by simp)

theorem DnsLabel.dotless {cs : List Char} (h : DnsLabel cs) : '.' ∉ cs := by
  intro hdot
  have hcharacter := h.characters '.' hdot
  rw [not_isLabelCharacter_dot] at hcharacter
  cases hcharacter

/-- A text after a label: of label characters, and alphanumeric at its end. -/
structure Extends (cs : List Char) : Prop where
  characters : ∀ c ∈ cs, isLabelCharacter c = true
  last : cs.getLast?.any isAlphanumeric = true

theorem Extends.ne_nil {cs : List Char} (h : Extends cs) : cs ≠ [] := by
  rintro rfl
  exact absurd h.last (by simp)

theorem head?_append_of_ne_nil {cs ds : List Char} (h : cs ≠ []) :
    (cs ++ ds).head? = cs.head? := by
  cases cs with
  | nil => exact absurd rfl h
  | cons c cs => rfl

theorem DnsLabel.append {cs ds : List Char} (h : DnsLabel cs) (hds : Extends ds) :
    DnsLabel (cs ++ ds) := by
  refine ⟨?_, ?_, ?_⟩
  · intro c hc
    rcases List.mem_append.mp hc with hc | hc
    · exact h.characters c hc
    · exact hds.characters c hc
  · rw [head?_append_of_ne_nil h.ne_nil]
    exact h.first
  · rw [List.getLast?_append_of_ne_nil _ hds.ne_nil]
    exact hds.last

/-- A name without dots is one label. -/
theorem IsSubdomain.dnsLabel {s : String} (h : IsSubdomain s) (hdot : '.' ∉ s.toList) :
    DnsLabel s.toList := by
  have hlabels := h.labels
  rw [List.splitOn_eq_singleton hdot] at hlabels
  exact hlabels _ (List.mem_singleton_self _)

theorem isSubdomain_of_dnsLabel {s : String} (h : DnsLabel s.toList) (hlength : s.length ≤ 253) :
    IsSubdomain s := by
  refine ⟨hlength, ?_⟩
  rw [List.splitOn_eq_singleton h.dotless]
  intro l hl
  rw [List.mem_singleton.mp hl]
  exact h

/-- A name together with a suffix is a DNS-1035 label exactly when the name is one and both
    together are short enough. -/
theorem isDns1035Label_append_iff {name suffix : String} (hname : IsSubdomain name)
    (hsuffix : Extends suffix.toList) :
    IsDns1035Label (name ++ suffix) ↔ name.toList.head?.any Char.isLower = true ∧
      '.' ∉ name.toList ∧ name.length + suffix.length ≤ 63 := by
  have hlist : (name ++ suffix).toList = name.toList ++ suffix.toList := String.toList_append
  have hlength : (name ++ suffix).length = name.length + suffix.length := String.length_append ..
  constructor
  · intro h
    have hdot : '.' ∉ name.toList := by
      intro hdot
      refine h.label.dotless ?_
      rw [hlist]
      exact List.mem_append_left _ hdot
    have hletter := h.letter
    rw [hlist, head?_append_of_ne_nil (hname.dnsLabel hdot).ne_nil] at hletter
    exact ⟨hletter, hdot, hlength ▸ h.length⟩
  · rintro ⟨hletter, hdot, hshort⟩
    have hlabel := hname.dnsLabel hdot
    refine ⟨hlength ▸ hshort, ?_, ?_⟩
    · rw [hlist]
      exact hlabel.append hsuffix
    · rw [hlist, head?_append_of_ne_nil hlabel.ne_nil]
      exact hletter

/-! ## The names in a document -/

/-- The texts among the fields of a value. -/
def texts (j : Option Json) : List String :=
  (j.getD .null).fields.filterMap fun f => match f.2 with
    | .str s => some s
    | _ => none

@[simp] theorem texts_none : texts none = [] := rfl

@[simp] theorem texts_stringsJson (entries : List (String × String)) :
    texts (some (stringsJson entries)) = entries.map Prod.snd := by
  unfold texts stringsJson
  simp only [Option.getD_some, Json.fields_obj, List.filterMap_map, Function.comp_def]
  exact congrFun List.filterMap_eq_map _

/-- The field at the end of a path of keys. -/
def fieldOf (j : Json) : List String → Option Json
  | [] => some j
  | k :: ks => (j.get? k).bind fun v => fieldOf v ks

/-- The items of a list. -/
def items (j : Option Json) : List Json :=
  match j with
  | some (.arr xs) => xs
  | _ => []

@[simp] theorem items_none : items none = [] := rfl

@[simp] theorem items_arr (xs : List Json) : items (some (.arr xs)) = xs := rfl

namespace Manifest

/-- The labels that a document gives, to its object and to the pods, and those that its
    selectors ask for. -/
def labelValues (m : Manifest) : List String :=
  (m.metadata.labels.getD []).map Prod.snd ++
    (texts (fieldOf m.spec ["selector"]) ++
    (texts (fieldOf m.spec ["selector", "matchLabels"]) ++
    (texts (fieldOf m.spec ["template", "metadata", "labels"]) ++
    (texts (fieldOf m.spec ["podSelector", "matchLabels"]) ++
    (items (fieldOf m.spec ["ingress"])).flatMap fun rule =>
      (items (fieldOf rule ["from"])).flatMap fun peer =>
        texts (fieldOf peer ["podSelector", "matchLabels"])))))

/-- The replicas that a document asks for. -/
def replicas (m : Manifest) : ℤ :=
  match fieldOf m.spec ["replicas"] with
  | some (.num n) => n.num
  | _ => 0

/-- The names of the pods of a StatefulSet, which are their host names. -/
def podNames (m : Manifest) : List String :=
  if m.kind = .statefulSet then
    (List.range m.replicas.toNat).map fun i => m.metadata.name ++ "-" ++ toString i
  else []

/-- The names in a document keep the rules. -/
structure WellNamed (m : Manifest) : Prop where
  name : if m.kind = .service then IsDns1035Label m.metadata.name else IsSubdomain m.metadata.name
  labels : ∀ v ∈ m.labelValues, v.length ≤ 63
  hosts : ∀ pod ∈ m.podNames, pod.length ≤ 63

end Manifest

end Kube
