import Mathlib.Data.Rat.Defs
import Mathlib.Data.List.Nodup

/-! # JSON values and merge patches

    JSON values with objects as association lists, the JSON merge patch
    (RFC 7396), and the content of a value as a function on paths of keys.
    Two scalars are added for numbers written in a notation of their own
    (`"500m"`, `"2Gi"`): the text as written and the number it denotes. -/

/-- JSON values.  An object lists its fields; the order carries no meaning. -/
inductive Json where
  | null
  | bool (b : Bool)
  | num (n : ℚ)
  | str (s : String)
  /-- A number in a notation of its own, as written. -/
  | quantity (text : String)
  /-- A number in a notation of its own, read at its value. -/
  | amount (value : ℚ)
  | arr (items : List Json)
  | obj (fields : List (String × Json))
  deriving Inhabited

namespace Json

/-! ## Fields -/

/-- The value of the field `k`. -/
def lookup (k : String) : List (String × Json) → Option Json
  | [] => none
  | (k', v) :: fs => if k' = k then some v else lookup k fs

/-- Give the field `k` the value `v`, in place when the field is there. -/
def setField (k : String) (v : Json) : List (String × Json) → List (String × Json)
  | [] => [(k, v)]
  | (k', w) :: fs => if k' = k then (k, v) :: fs else (k', w) :: setField k v fs

/-- Remove the field `k`. -/
def removeField (k : String) (fs : List (String × Json)) : List (String × Json) :=
  fs.filter fun f => f.1 ≠ k

/-- The fields of an object, none for any other value. -/
def fields : Json → List (String × Json)
  | .obj fs => fs
  | _ => []

@[simp] theorem fields_obj (fs : List (String × Json)) : (Json.obj fs).fields = fs := rfl

/-- The value of the field `k` of an object. -/
def get? (j : Json) (k : String) : Option Json := lookup k j.fields

@[simp] theorem lookup_nil (k : String) : lookup k [] = none := rfl

@[simp] theorem lookup_cons (k k' : String) (v : Json) (fs : List (String × Json)) :
    lookup k ((k', v) :: fs) = if k' = k then some v else lookup k fs := rfl

theorem lookup_append (k : String) (fs gs : List (String × Json)) :
    lookup k (fs ++ gs) = (lookup k fs).or (lookup k gs) := by
  induction fs with
  | nil => rfl
  | cons f fs ih =>
    obtain ⟨k', v⟩ := f
    by_cases h : k' = k
    · simp [h]
    · simp [h, ih]

theorem lookup_setField_self (k : String) (v : Json) (fs : List (String × Json)) :
    lookup k (setField k v fs) = some v := by
  induction fs with
  | nil => simp [setField]
  | cons f fs ih =>
    obtain ⟨k', w⟩ := f
    by_cases h : k' = k
    · simp [setField, h]
    · simp [setField, h, ih]

theorem lookup_setField_ne {k k' : String} (h : k' ≠ k) (v : Json)
    (fs : List (String × Json)) : lookup k (setField k' v fs) = lookup k fs := by
  induction fs with
  | nil => simp [setField, h]
  | cons f fs ih =>
    obtain ⟨l, w⟩ := f
    by_cases hl : l = k'
    · subst hl
      simp [setField, h]
    · simp [setField, hl, ih]

theorem lookup_eq_none_iff {k : String} {fs : List (String × Json)} :
    lookup k fs = none ↔ k ∉ fs.map Prod.fst := by
  induction fs with
  | nil => simp
  | cons f fs ih =>
    obtain ⟨k', v⟩ := f
    by_cases h : k' = k
    · simp [h]
    · simp [h, ih, Ne.symm h]

theorem mem_of_lookup {k : String} {v : Json} {fs : List (String × Json)}
    (h : lookup k fs = some v) : (k, v) ∈ fs := by
  induction fs with
  | nil => simp at h
  | cons f fs ih =>
    obtain ⟨k', w⟩ := f
    by_cases hk : k' = k
    · subst hk
      obtain rfl : w = v := by simpa using h
      simp
    · have := ih (by simpa [hk] using h)
      simp [this]

/-! ## Merge patches -/

mutual

/-- The JSON merge patch: fields of a patch object are merged one by one, `null`
    removes a field, and any other patch replaces the target. -/
def mergePatch : Json → Json → Json
  | target, .obj ps => .obj (mergeFields target.fields ps)
  | _, patch => patch

/-- Merge the fields of a patch into the fields of an object, one after another. -/
def mergeFields : List (String × Json) → List (String × Json) → List (String × Json)
  | fs, [] => fs
  | fs, (k, .null) :: ps => mergeFields (removeField k fs) ps
  | fs, (k, v) :: ps => mergeFields (setField k (mergePatch ((lookup k fs).getD .null) v) fs) ps

end

/-- No `null` anywhere on the way down through objects, and no field twice. -/
inductive Plain : Json → Prop where
  | bool (b : Bool) : Plain (.bool b)
  | num (n : ℚ) : Plain (.num n)
  | str (s : String) : Plain (.str s)
  | quantity (text : String) : Plain (.quantity text)
  | amount (value : ℚ) : Plain (.amount value)
  | arr (items : List Json) : Plain (.arr items)
  | obj {fs : List (String × Json)} (hnodup : (fs.map Prod.fst).Nodup)
      (hplain : ∀ f ∈ fs, Plain f.2) : Plain (.obj fs)

theorem Plain.ne_null {j : Json} (h : Plain j) : j ≠ .null := by
  rintro rfl
  cases h

theorem mergePatch_obj (target : Json) (ps : List (String × Json)) :
    mergePatch target (.obj ps) = .obj (mergeFields target.fields ps) := by
  rw [mergePatch]

@[simp] theorem mergeFields_nil (fs : List (String × Json)) : mergeFields fs [] = fs := by
  rw [mergeFields]

theorem mergeFields_cons {v : Json} (hv : v ≠ .null) (k : String)
    (fs ps : List (String × Json)) :
    mergeFields fs ((k, v) :: ps) =
      mergeFields (setField k (mergePatch ((lookup k fs).getD .null) v) fs) ps := by
  cases v with
  | null => exact absurd rfl hv
  | _ => simp [mergeFields]

/-- A field the patch does not name keeps its value. -/
theorem lookup_mergeFields_of_notMem {k : String} {ps : List (String × Json)}
    (hk : k ∉ ps.map Prod.fst) (hplain : ∀ f ∈ ps, Plain f.2) (fs : List (String × Json)) :
    lookup k (mergeFields fs ps) = lookup k fs := by
  induction ps generalizing fs with
  | nil => simp
  | cons p ps ih =>
    obtain ⟨k', v⟩ := p
    have hv : v ≠ .null := (hplain (k', v) (by simp)).ne_null
    have hne : k' ≠ k := fun h => hk (by simp [h])
    have hk' : k ∉ ps.map Prod.fst := fun h => hk (by simp [h])
    rw [mergeFields_cons hv, ih hk' (fun f hf => hplain f (by simp [hf])),
      lookup_setField_ne hne]

/-- A field the patch names gets its value merged into the old one. -/
theorem lookup_mergeFields_of_mem {k : String} {v : Json} {ps : List (String × Json)}
    (hnodup : (ps.map Prod.fst).Nodup) (hplain : ∀ f ∈ ps, Plain f.2)
    (hk : lookup k ps = some v) (fs : List (String × Json)) :
    lookup k (mergeFields fs ps) = some (mergePatch ((lookup k fs).getD .null) v) := by
  induction ps generalizing fs with
  | nil => simp at hk
  | cons p ps ih =>
    obtain ⟨k', w⟩ := p
    have hw : w ≠ .null := (hplain (k', w) (by simp)).ne_null
    have hps : ∀ f ∈ ps, Plain f.2 := fun f hf => hplain f (by simp [hf])
    obtain ⟨hfresh, hrest⟩ : k' ∉ ps.map Prod.fst ∧ (ps.map Prod.fst).Nodup := by
      simpa using hnodup
    rw [mergeFields_cons hw]
    by_cases h : k' = k
    · subst h
      obtain rfl : w = v := by simpa using hk
      rw [lookup_mergeFields_of_notMem hfresh hps, lookup_setField_self]
    · rw [lookup_cons, if_neg h] at hk
      rw [ih hrest hps hk, lookup_setField_ne h]

/-! ## The content of a value -/

/-- What a path of keys leads to through objects: a marker for an object, the
    value itself for anything else. -/
def view : List String → Json → Option Json
  | [], .obj _ => some (.obj [])
  | [], j => some j
  | k :: p, j => (j.get? k).bind (view p)

/-- Whether a path of keys runs into a value that is not an object. -/
def blocks : List String → Json → Bool
  | [], _ => false
  | k :: p, .obj fs => ((lookup k fs).map (blocks p)).getD false
  | _ :: _, _ => true

/-- Two values have the same content: objects are read as maps. -/
def Same (a b : Json) : Prop := ∀ p, view p a = view p b

/-- Every field of `a`, at any depth, is one that the patch `b` writes. -/
def Covered (a b : Json) : Prop := ∀ p, (view p a).isSome → (view p b).isSome ∨ blocks p b

theorem Same.refl (a : Json) : Same a a := fun _ => rfl

theorem Same.symm {a b : Json} (h : Same a b) : Same b a := fun p => (h p).symm

theorem Same.trans {a b c : Json} (h : Same a b) (h' : Same b c) : Same a c :=
  fun p => (h p).trans (h' p)

@[simp] theorem view_nil_isSome (j : Json) : (view [] j).isSome := by
  cases j <;> rfl

theorem view_cons (k : String) (p : List String) (j : Json) :
    view (k :: p) j = (j.get? k).bind (view p) := by
  rw [view]

theorem view_null_cons (k : String) (p : List String) : view (k :: p) .null = none := by
  simp [view_cons, get?, fields]

/-- Paths end at a list. -/
theorem isSome_view_arr (xs : List Json) (p : List String) :
    (view p (.arr xs)).isSome = decide (p = []) := by
  cases p with
  | nil => simp
  | cons k p => simp [view_cons, get?, fields]

mutual

/-- Whether every field of a value is one of another, at every depth. -/
def coveredBy : Json → Json → Bool
  | .obj fs, .obj gs => fieldsCoveredBy fs gs
  | _, _ => true

/-- `coveredBy` on fields. -/
def fieldsCoveredBy : List (String × Json) → List (String × Json) → Bool
  | [], _ => true
  | (k, v) :: fs, gs => ((lookup k gs).map (coveredBy v)).getD false && fieldsCoveredBy fs gs

end

theorem exists_of_fieldsCoveredBy {fs gs : List (String × Json)} (h : fieldsCoveredBy fs gs = true)
    {k : String} {v : Json} (hk : lookup k fs = some v) :
    ∃ w, lookup k gs = some w ∧ coveredBy v w = true := by
  induction fs with
  | nil => cases hk
  | cons f fs ih =>
    obtain ⟨k', v'⟩ := f
    rw [fieldsCoveredBy, Bool.and_eq_true] at h
    by_cases hkey : k' = k
    · subst hkey
      obtain rfl : v' = v := by simpa using hk
      cases hw : lookup k' gs with
      | none => simp [hw] at h
      | some w => exact ⟨w, rfl, by simpa [hw] using h.1⟩
    · exact ih h.2 (by simpa [hkey] using hk)

theorem covered_of_coveredBy {a b : Json} (h : coveredBy a b = true) : Covered a b := by
  intro p hp
  induction p generalizing a b with
  | nil => exact .inl (view_nil_isSome b)
  | cons k p ih =>
    rw [view_cons] at hp ⊢
    cases b with
    | obj gs =>
      cases a with
      | obj fs =>
        rw [coveredBy] at h
        cases hv : lookup k fs with
        | none => simp [get?, hv] at hp
        | some v =>
          obtain ⟨w, hw, hcovered⟩ := exists_of_fieldsCoveredBy h hv
          simpa [get?, hw, blocks] using ih hcovered (by simpa [get?, hv] using hp)
      | _ => simp [get?, fields] at hp
    | _ => exact .inr rfl

/-- The content of a merge: what the patch writes is there, what it neither writes
    nor blocks is kept. -/
theorem view_mergePatch {b : Json} (hb : Plain b) (a : Json) (p : List String) :
    view p (mergePatch a b) = (view p b).or (if blocks p b then none else view p a) := by
  induction p generalizing a b with
  | nil =>
    cases hb <;> simp [mergePatch, view]
  | cons k p ih =>
    cases hb with
    | obj hnodup hplain =>
      rename_i ps
      rw [mergePatch_obj, view_cons, view_cons, view_cons]
      cases hk : lookup k ps with
      | none =>
        have hmem := lookup_eq_none_iff.mp hk
        simp [get?, hk, blocks, lookup_mergeFields_of_notMem hmem hplain]
      | some v =>
        have hv : Plain v := hplain (k, v) (mem_of_lookup hk)
        simp only [get?, fields_obj, lookup_mergeFields_of_mem hnodup hplain hk, hk,
          Option.bind_some, blocks, Option.map_some, Option.getD_some]
        rw [ih hv]
        cases hlk : lookup k a.fields with
        | some w => simp
        | none =>
          cases p with
          | nil =>
            have := view_nil_isSome v
            cases hview : view [] v with
            | none => simp [hview] at this
            | some w => simp
          | cons l p => simp [view_null_cons]
    | _ => simp [mergePatch, view_cons, get?, fields, blocks]

/-- A merge leaves exactly the patch if and only if the patch covers the target. -/
theorem mergePatch_same_iff {a b : Json} (hb : Plain b) :
    Same (mergePatch a b) b ↔ Covered a b := by
  constructor
  · intro h p ha
    have hp := h p
    rw [view_mergePatch hb] at hp
    by_cases hs : (view p b).isSome
    · exact .inl hs
    · right
      rw [Option.not_isSome_iff_eq_none] at hs
      by_contra hblock
      simp only [hs, Option.none_or] at hp
      rw [if_neg (by simpa using hblock)] at hp
      rw [hp] at ha
      simp at ha
  · intro h p
    rw [view_mergePatch hb]
    cases hview : view p b with
    | some v => rfl
    | none =>
      rw [Option.none_or]
      split
      · rfl
      · rename_i hblock
        by_contra hne
        have hsome : (view p a).isSome := by
          rw [Option.isSome_iff_ne_none]
          exact hne
        rcases h p hsome with h' | h'
        · simp [hview] at h'
        · exact hblock h'

/-- A merge has no paths but those of the target and of the patch. -/
theorem isSome_view_mergePatch {a b : Json} (hb : Plain b) {p : List String}
    (h : (view p (mergePatch a b)).isSome) : (view p a).isSome ∨ (view p b).isSome := by
  rw [view_mergePatch hb] at h
  cases hview : view p b with
  | some v => exact .inr rfl
  | none =>
    rw [hview, Option.none_or] at h
    split at h
    · cases h
    · exact .inl h

/-- A merge keeps the paths of the target that the patch does not block. -/
theorem isSome_view_mergePatch_left {a b : Json} (hb : Plain b) {p : List String}
    (h : (view p a).isSome) (hblocks : blocks p b = false) :
    (view p (mergePatch a b)).isSome := by
  rw [view_mergePatch hb, hblocks]
  cases hview : view p b with
  | some v => rfl
  | none => exact h

theorem isSome_view_mergePatch_right {a b : Json} (hb : Plain b) {p : List String}
    (h : (view p b).isSome) : (view p (mergePatch a b)).isSome := by
  rw [view_mergePatch hb, Option.isSome_or, h, Bool.true_or]

/-! ## Outlines -/

mutual

/-- The objects of a value and their keys; any other value counts as `null`. -/
def outline : Json → Json
  | .obj fs => .obj (outlineFields fs)
  | _ => .null

/-- `outline` on fields. -/
def outlineFields : List (String × Json) → List (String × Json)
  | [] => []
  | (k, v) :: fs => (k, outline v) :: outlineFields fs

end

@[simp] theorem outline_obj (fs : List (String × Json)) :
    outline (.obj fs) = .obj (outlineFields fs) := by
  rw [outline]

@[simp] theorem outlineFields_nil : outlineFields [] = [] := by
  rw [outlineFields]

@[simp] theorem outlineFields_cons (k : String) (v : Json) (fs : List (String × Json)) :
    outlineFields ((k, v) :: fs) = (k, outline v) :: outlineFields fs := by
  rw [outlineFields]

@[simp] theorem outlineFields_append (fs gs : List (String × Json)) :
    outlineFields (fs ++ gs) = outlineFields fs ++ outlineFields gs := by
  induction fs with
  | nil => simp
  | cons f fs ih =>
    obtain ⟨k, v⟩ := f
    simp [ih]

@[simp] theorem outline_str (s : String) : outline (.str s) = .null := by simp [outline]

@[simp] theorem outline_num (n : ℚ) : outline (.num n) = .null := by simp [outline]

@[simp] theorem outline_arr (xs : List Json) : outline (.arr xs) = .null := by simp [outline]

@[simp] theorem outline_null : outline .null = .null := by simp [outline]

theorem lookup_outlineFields (k : String) (fs : List (String × Json)) :
    lookup k (outlineFields fs) = (lookup k fs).map outline := by
  induction fs with
  | nil => rfl
  | cons f fs ih =>
    obtain ⟨k', v⟩ := f
    by_cases h : k' = k
    · simp [h]
    · simp [h, ih]

/-- A value and its outline have the same paths. -/
theorem isSome_view_outline (p : List String) (j : Json) :
    (view p (outline j)).isSome = (view p j).isSome := by
  induction p generalizing j with
  | nil => simp
  | cons k p ih =>
    rw [view_cons, view_cons]
    cases j with
    | obj fs =>
      simp only [get?, outline_obj, fields_obj, lookup_outlineFields]
      cases lookup k fs with
      | none => rfl
      | some v => exact ih v
    | _ => simp [get?, outline, fields]

/-! ## Normal forms

    For comparing what two writers of one document produce: numbers in a
    notation of their own are read at their value, and fields whose value is an
    empty object, list or string count as absent. -/

/-- An empty object, list or string. -/
def isEmpty : Json → Bool
  | .str s => s = ""
  | .arr xs => xs.isEmpty
  | .obj fs => fs.isEmpty
  | _ => false

/-- The field `k` with the value `v`, left out when `v` is empty. -/
def omitEmpty (k : String) (v : Json) : List (String × Json) :=
  if v.isEmpty then [] else [(k, v)]

section normalize

variable (value : String → Option ℚ)

mutual

/-- Read quantities at their value and drop empty fields, at every depth. -/
def normalize : Json → Json
  | .quantity text =>
    match value text with
    | some q => .amount q
    | none => .quantity text
  | .arr xs => .arr (normalizeItems xs)
  | .obj fs => .obj (normalizeFields fs)
  | j => j

/-- `normalize` on the items of a list. -/
def normalizeItems : List Json → List Json
  | [] => []
  | x :: xs => normalize x :: normalizeItems xs

/-- `normalize` on fields, dropping those with an empty value. -/
def normalizeFields : List (String × Json) → List (String × Json)
  | [] => []
  | (k, v) :: fs => omitEmpty k (normalize v) ++ normalizeFields fs

end

theorem normalizeItems_eq_map (xs : List Json) :
    normalizeItems value xs = xs.map (normalize value) := by
  induction xs with
  | nil => simp [normalizeItems]
  | cons x xs ih => simp [normalizeItems, ih]

@[simp] theorem normalizeFields_append (fs gs : List (String × Json)) :
    normalizeFields value (fs ++ gs) = normalizeFields value fs ++ normalizeFields value gs := by
  induction fs with
  | nil => simp [normalizeFields]
  | cons f fs ih => simp [normalizeFields, ih]

@[simp] theorem normalize_str (s : String) : normalize value (.str s) = .str s := by
  simp [normalize]

@[simp] theorem normalize_num (n : ℚ) : normalize value (.num n) = .num n := by
  simp [normalize]

@[simp] theorem normalize_bool (b : Bool) : normalize value (.bool b) = .bool b := by
  simp [normalize]

@[simp] theorem normalize_amount (n : ℚ) : normalize value (.amount n) = .amount n := by
  simp [normalize]

theorem normalize_quantity {text : String} {n : ℚ} (h : value text = some n) :
    normalize value (.quantity text) = .amount n := by
  simp [normalize, h]

@[simp] theorem normalize_arr (xs : List Json) :
    normalize value (.arr xs) = .arr (xs.map (normalize value)) := by
  rw [normalize, normalizeItems_eq_map]

@[simp] theorem normalize_obj (fs : List (String × Json)) :
    normalize value (.obj fs) = .obj (normalizeFields value fs) := by
  rw [normalize]

@[simp] theorem normalizeFields_nil : normalizeFields value [] = [] := by
  rw [normalizeFields]

@[simp] theorem normalizeFields_cons (k : String) (v : Json) (fs : List (String × Json)) :
    normalizeFields value ((k, v) :: fs) =
      omitEmpty k (normalize value v) ++ normalizeFields value fs := by
  rw [normalizeFields]

/-- Leaving an empty field out makes no difference to the normal form. -/
@[simp] theorem normalizeFields_omitEmpty (k : String) (v : Json) :
    normalizeFields value (omitEmpty k v) = omitEmpty k (normalize value v) := by
  unfold omitEmpty
  cases v with
  | str s => by_cases h : s = "" <;> simp [isEmpty, normalize, normalizeFields, omitEmpty, h]
  | arr xs => cases xs <;> simp [isEmpty, normalize, normalizeItems, normalizeFields, omitEmpty]
  | obj fs =>
    cases fs with
    | nil => simp [isEmpty, normalize, normalizeFields]
    | cons f fs => simp [isEmpty, normalize, normalizeFields, omitEmpty]
  | _ => simp [isEmpty, normalizeFields, omitEmpty]

end normalize

/-! ## Equality -/

mutual

/-- Equality is decidable, field by field in the order of the lists. -/
def decEq : (a b : Json) → Decidable (a = b)
  | .null, b => match b with
    | .null => isTrue rfl
    | .bool _ | .num _ | .str _ | .quantity _ | .amount _ | .arr _ | .obj _ => isFalse (by simp)
  | .bool x, b => match b with
    | .bool y => decidable_of_iff (x = y) (by simp)
    | .null | .num _ | .str _ | .quantity _ | .amount _ | .arr _ | .obj _ => isFalse (by simp)
  | .num x, b => match b with
    | .num y => decidable_of_iff (x = y) (by simp)
    | .null | .bool _ | .str _ | .quantity _ | .amount _ | .arr _ | .obj _ => isFalse (by simp)
  | .str x, b => match b with
    | .str y => decidable_of_iff (x = y) (by simp)
    | .null | .bool _ | .num _ | .quantity _ | .amount _ | .arr _ | .obj _ => isFalse (by simp)
  | .quantity x, b => match b with
    | .quantity y => decidable_of_iff (x = y) (by simp)
    | .null | .bool _ | .num _ | .str _ | .amount _ | .arr _ | .obj _ => isFalse (by simp)
  | .amount x, b => match b with
    | .amount y => decidable_of_iff (x = y) (by simp)
    | .null | .bool _ | .num _ | .str _ | .quantity _ | .arr _ | .obj _ => isFalse (by simp)
  | .arr xs, b => match b with
    | .arr ys =>
      have := decEqItems xs ys
      decidable_of_iff (xs = ys) (by simp)
    | .null | .bool _ | .num _ | .str _ | .quantity _ | .amount _ | .obj _ => isFalse (by simp)
  | .obj xs, b => match b with
    | .obj ys =>
      have := decEqFields xs ys
      decidable_of_iff (xs = ys) (by simp)
    | .null | .bool _ | .num _ | .str _ | .quantity _ | .amount _ | .arr _ => isFalse (by simp)

def decEqItems : (xs ys : List Json) → Decidable (xs = ys)
  | [], [] => isTrue rfl
  | [], _ :: _ | _ :: _, [] => isFalse (by simp)
  | x :: xs, y :: ys =>
    have := decEq x y
    have := decEqItems xs ys
    decidable_of_iff (x = y ∧ xs = ys) (by simp)

def decEqFields : (xs ys : List (String × Json)) → Decidable (xs = ys)
  | [], [] => isTrue rfl
  | [], _ :: _ | _ :: _, [] => isFalse (by simp)
  | (k, x) :: xs, (l, y) :: ys =>
    have := decEq x y
    have := decEqFields xs ys
    decidable_of_iff (k = l ∧ x = y ∧ xs = ys) (by simp [and_assoc])

end

instance : DecidableEq Json := decEq

end Json
