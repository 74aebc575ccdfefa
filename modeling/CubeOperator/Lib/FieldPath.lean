import CubeOperator.Lib.Json

/-! # The fields of a JSON value

    A path leads through objects by the names of their fields, and through some
    lists by fields that tell their items apart.  A list whose items are not told
    apart is one field with all that is in it. -/

namespace Json

/-- A step of a path. -/
inductive PathElement where
  | field (name : String)
  /-- The item of a list with these values of its keys. -/
  | item (key : List (Option Json))
  deriving DecidableEq

/-- A path from the whole value to one of its fields. -/
abbrev FieldPath : Type := List PathElement

/-- The fields that tell the items of a list apart, for the lists that have such.  The
    path to the list is given from its end. -/
abbrev ListKeys : Type := FieldPath → Option (List String)

/-! ## Fields -/

section fieldAt

variable (keys : ListKeys)

/-- What an element leads to, in the value at the path `above`. -/
def child (above : FieldPath) : PathElement → Json → Option Json
  | .field k, j => j.get? k
  | .item key, .arr xs => (keys above).bind fun names => xs.find? fun x => names.map x.get? = key
  | .item _, _ => none

/-- The value without the fields inside of it. -/
def shell (above : FieldPath) : Json → Json
  | .obj _ => .obj []
  | .arr xs => if (keys above).isSome then .arr [] else .arr xs
  | j => j

/-- The field at a path, in the value at the path `above`. -/
def fieldAt (above : FieldPath) : FieldPath → Json → Option Json
  | [], j => some (shell keys above j)
  | e :: p, j => (child keys above e j).bind (fieldAt (e :: above) p)

@[simp] theorem fieldAt_nil (above : FieldPath) (j : Json) :
    fieldAt keys above [] j = some (shell keys above j) := rfl

theorem fieldAt_cons (above : FieldPath) (e : PathElement) (p : FieldPath) (j : Json) :
    fieldAt keys above (e :: p) j = (child keys above e j).bind (fieldAt keys (e :: above) p) := rfl

end fieldAt

/-! ## Merge patches -/

/-- Whether a merge patch determines the field at a path: it writes the field, or
    replaces a value above it. -/
def determines : FieldPath → Json → Bool
  | [], _ => true
  | .field k :: p, .obj fs => ((lookup k fs).map (determines p)).getD false
  | _ :: _, _ => true

/-- The fields after a merge patch. -/
def patchFields (keys : ListKeys) (old : FieldPath → Option Json) (patch : Json) (p : FieldPath) :
    Option Json :=
  if determines p patch then fieldAt keys [] p patch else old p

/-- A merge has the fields that the patch determines as the patch has them, and the others
    as the target has them. -/
theorem fieldAt_mergePatch {b : Json} (hb : Plain b) (keys : ListKeys) (a : Json)
    (above p : FieldPath) :
    fieldAt keys above p (mergePatch a b) =
      if determines p b then fieldAt keys above p b else fieldAt keys above p a := by
  induction p generalizing a b above with
  | nil => cases hb <;> simp [mergePatch, determines, shell]
  | cons e p ih =>
    cases hb with
    | obj hnodup hplain =>
      rename_i ps
      rw [mergePatch_obj]
      cases e with
      | item key => simp [determines, fieldAt_cons, child]
      | field k =>
        simp only [fieldAt_cons, child, get?, fields_obj]
        rcases Option.eq_none_or_eq_some (lookup k ps) with hk | ⟨v, hk⟩
        · have hmem := lookup_eq_none_iff.mp hk
          simp [determines, hk, lookup_mergeFields_of_notMem hmem hplain]
        · have hv : Plain v := hplain (k, v) (mem_of_lookup hk)
          simp only [determines, hk, lookup_mergeFields_of_mem hnodup hplain hk, Option.bind_some,
            Option.map_some, Option.getD_some, ih hv]
          rcases Option.eq_none_or_eq_some (lookup k a.fields) with hlookup | ⟨w, hlookup⟩
          · -- below the absent field there is only what the patch puts there
            rw [hlookup]
            cases p with
            | nil => simp [determines]
            | cons e' p => cases e' <;> simp [fieldAt_cons, child, get?, fields]
          · simp [hlookup]
    | _ => simp [mergePatch, determines]

/-- Patching the fields of a value gives the fields of the patched value. -/
theorem patchFields_fieldAt {b : Json} (hb : Plain b) (keys : ListKeys) (a : Json) :
    patchFields keys (fun p => fieldAt keys [] p a) b = fun p => fieldAt keys [] p (mergePatch a b) :=
  funext fun p => (fieldAt_mergePatch hb keys a [] p).symm

end Json
