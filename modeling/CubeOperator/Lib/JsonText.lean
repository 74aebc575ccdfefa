import Mathlib.Algebra.Field.Rat
import Mathlib.Algebra.Ring.Rat
import Mathlib.Data.List.Basic
import Mathlib.Data.List.TakeWhile
import Mathlib.Tactic.Common

/-! # The text of JSON objects

    How a decoder reads the text of an object whose members are scalars.  The scalars are
    kept as they are written, since what a text or a number comes to depends on where it
    is stored.  `Spells` is the other direction: the texts that spell a list of members,
    with white space between any two tokens.  What is spelled is read back, and so are strings
    and whole numbers as they are usually written. -/

namespace JsonText

/-! ## White space -/

def isSpace (c : Char) : Bool := c = ' ' || c = '\t' || c = '\n' || c = '\r'

def skip (cs : List Char) : List Char := cs.dropWhile isSpace

def Blank (cs : List Char) : Prop := ∀ c ∈ cs, isSpace c = true

/-- A text that does not begin with white space. -/
def Starts (cs : List Char) : Prop := ∃ c rest, cs = c :: rest ∧ isSpace c = false

theorem skip_append {w cs : List Char} (hw : Blank w) (hcs : Starts cs) : skip (w ++ cs) = cs := by
  obtain ⟨c, rest, rfl, hc⟩ := hcs
  unfold skip
  rw [List.dropWhile_append_of_pos hw, List.dropWhile_cons_of_neg (by simp [hc])]

/-! ## Strings -/

/-- The text of a string up to its closing quote, and what follows the quote. -/
def scanText : List Char → Option (List Char × List Char)
  | [] => none
  | '"' :: cs => some ([], cs)
  | '\\' :: c :: cs => (scanText cs).map fun x => ('\\' :: c :: x.1, x.2)
  | c :: cs => if c.toNat < 0x20 then none else (scanText cs).map fun x => (c :: x.1, x.2)

/-- A text between quotes. -/
inductive Closed : List Char → Prop where
  | nil : Closed []
  | escaped (c : Char) {raw : List Char} : Closed raw → Closed ('\\' :: c :: raw)
  | plain {c : Char} {raw : List Char} : c ≠ '"' → c ≠ '\\' → 0x20 ≤ c.toNat → Closed raw →
      Closed (c :: raw)

theorem scanText_of_closed {raw : List Char} (h : Closed raw) (rest : List Char) :
    scanText (raw ++ '"' :: rest) = some (raw, rest) := by
  induction h with
  | nil => rfl
  | escaped c _ ih => simp [scanText, ih]
  | plain hquote hescape hcontrol _ ih =>
    rw [List.cons_append, scanText]
    · simp [ih, Nat.not_lt.mpr hcontrol]
    · exact hquote
    · intro c' cs' heq
      exact absurd heq hescape

/-- The value of a hexadecimal digit. -/
def hexDigit (c : Char) : Option ℕ :=
  if c.isDigit then some (c.toNat - '0'.toNat)
  else if 'a' ≤ c ∧ c ≤ 'f' then some (c.toNat - 'a'.toNat + 10)
  else if 'A' ≤ c ∧ c ≤ 'F' then some (c.toNat - 'A'.toNat + 10)
  else none

def hex (cs : List Char) : Option ℕ :=
  cs.foldlM (fun n c => (hexDigit c).map fun d => 16 * n + d) 0

/-- The character of an escape of one letter. -/
def unescape : Char → Option Char
  | '"' => some '"'
  | '\\' => some '\\'
  | '/' => some '/'
  | 'b' => some (Char.ofNat 8)
  | 'f' => some (Char.ofNat 12)
  | 'n' => some '\n'
  | 'r' => some '\r'
  | 't' => some '\t'
  | _ => none

/-- The characters of a string, and the UTF-16 units that are written as `\u....`. -/
def pieces : List Char → Option (List (Char ⊕ ℕ))
  | [] => some []
  | '\\' :: 'u' :: a :: b :: c :: d :: cs => do
    let n ← hex [a, b, c, d]
    let rest ← pieces cs
    some (.inr n :: rest)
  | '\\' :: c :: cs => do
    let e ← unescape c
    let rest ← pieces cs
    some (.inl e :: rest)
  | c :: cs => if c = '\\' then none else (pieces cs).map fun rest => .inl c :: rest

def isHigh (n : ℕ) : Bool := 0xD800 ≤ n && n < 0xDC00

def isLow (n : ℕ) : Bool := 0xDC00 ≤ n && n < 0xE000

/-- A unit alone.  Half of a surrogate pair becomes U+FFFD. -/
def unit (n : ℕ) : Char := if isHigh n || isLow n then Char.ofNat 0xFFFD else Char.ofNat n

/-- The characters, with surrogate pairs put together. -/
def combine : List (Char ⊕ ℕ) → List Char
  | [] => []
  | .inl c :: ps => c :: combine ps
  | [.inr n] => [unit n]
  | .inr n :: .inl c :: ps => unit n :: c :: combine ps
  | .inr n :: .inr m :: ps =>
    if isHigh n && isLow m then
      Char.ofNat (0x10000 + (n - 0xD800) * 0x400 + (m - 0xDC00)) :: combine ps
    else unit n :: combine (.inr m :: ps)

/-- The string that a text between quotes stands for. -/
def unquote (raw : List Char) : Option String :=
  (pieces raw).map fun ps => String.ofList (combine ps)

/-! ## Numbers -/

structure Number where
  negative : Bool
  whole : List Char
  fraction : Option (List Char)
  exponent : Option (Bool × List Char)
  deriving DecidableEq

/-- A text without its sign, and whether that is a minus. -/
def signed (plus : Bool) : List Char → Bool × List Char
  | '-' :: cs => (true, cs)
  | c :: cs => if plus ∧ c = '+' then (false, cs) else (false, c :: cs)
  | [] => (false, [])

/-- A fraction, if there is one, and what follows it. -/
def readFraction : List Char → Option (Option (List Char) × List Char)
  | '.' :: cs =>
    if cs.takeWhile Char.isDigit = [] then none
    else some (some (cs.takeWhile Char.isDigit), cs.dropWhile Char.isDigit)
  | cs => some (none, cs)

/-- An exponent, if there is one. -/
def readExponent : List Char → Option (Option (Bool × List Char))
  | [] => some none
  | e :: cs =>
    if (e = 'e' ∨ e = 'E') ∧ (signed true cs).2 ≠ [] ∧ (signed true cs).2.all Char.isDigit then
      some (some (signed true cs))
    else none

/-- A number as it is written.  There are no leading zeros. -/
def readNumber (raw : List Char) : Option Number := do
  let (negative, cs) := signed false raw
  let whole := cs.takeWhile Char.isDigit
  if whole = [] ∨ (whole.head? = some '0' ∧ whole ≠ ['0']) then none
  else do
    let (fraction, rest) ← readFraction (cs.dropWhile Char.isDigit)
    let exponent ← readExponent rest
    some ⟨negative, whole, fraction, exponent⟩

abbrev natOf (digits : List Char) : ℕ := Nat.ofDigitChars 10 digits 0

namespace Number

def sign (n : Number) : ℤ := if n.negative then -1 else 1

def scale (n : Number) : ℤ :=
  match n.exponent with
  | none => 0
  | some (negative, digits) => if negative then -(natOf digits : ℤ) else natOf digits

/-- The value of a number. -/
def value (n : Number) : ℚ :=
  let fraction := n.fraction.getD []
  n.sign * natOf (n.whole ++ fraction) * 10 ^ (n.scale - fraction.length)

/-- The value of a number without a fraction and an exponent. -/
def integer? (n : Number) : Option ℤ :=
  if n.fraction = none ∧ n.exponent = none then some (n.sign * natOf n.whole) else none

theorem value_of_integer {n : Number} {z : ℤ} (h : n.integer? = some z) : n.value = z := by
  unfold integer? at h
  split at h
  · rename_i hplain
    obtain ⟨hfraction, hexponent⟩ := hplain
    obtain rfl := Option.some.inj h
    simp [value, scale, hfraction, hexponent]
  · cases h

end Number

def isNumberChar (c : Char) : Bool :=
  c.isDigit || c = '-' || c = '+' || c = '.' || c = 'e' || c = 'E'

/-! ## Members -/

/-- A scalar as it is written. -/
inductive Literal where
  | null
  | text (raw : List Char)
  | number (raw : List Char)
  deriving DecidableEq

/-- The literal that a text begins with. -/
def readLiteral : List Char → Option (Literal × List Char)
  | '"' :: cs => (scanText cs).map fun x => (.text x.1, x.2)
  | 'n' :: 'u' :: 'l' :: 'l' :: cs => some (.null, cs)
  | cs =>
    if (readNumber (cs.takeWhile isNumberChar)).isSome then
      some (.number (cs.takeWhile isNumberChar), cs.dropWhile isNumberChar)
    else none

/-- A key with its colon and its value. -/
def readMember (cs : List Char) : Option ((String × Literal) × List Char) :=
  match skip cs with
  | '"' :: cs => do
    let (raw, cs) ← scanText cs
    let key ← unquote raw
    match skip cs with
    | ':' :: cs => do
      let (value, cs) ← readLiteral (skip cs)
      some ((key, value), cs)
    | _ => none
  | _ => none

/-- The members that are left, at most `n` of them, and what follows the object. -/
def readMembers : ℕ → List Char → Option (List (String × Literal) × List Char)
  | 0, _ => none
  | n + 1, cs => do
    let (m, cs) ← readMember cs
    match skip cs with
    | ',' :: cs => do
      let (ms, cs) ← readMembers n cs
      some (m :: ms, cs)
    | '}' :: cs => some ([m], cs)
    | _ => none

/-- An object, or `null` for one without members. -/
def readObject (cs : List Char) : Option (List (String × Literal) × List Char) :=
  match skip cs with
  | 'n' :: 'u' :: 'l' :: 'l' :: cs => some ([], cs)
  | '{' :: cs =>
    match skip cs with
    | '}' :: cs => some ([], cs)
    | _ => readMembers cs.length cs
  | _ => none

/-! ## Spelling -/

inductive SpellsLiteral : Literal → List Char → Prop where
  | null : SpellsLiteral .null ['n', 'u', 'l', 'l']
  | text {raw : List Char} : Closed raw → SpellsLiteral (.text raw) ('"' :: (raw ++ ['"']))
  | number {raw : List Char} : (readNumber raw).isSome → SpellsLiteral (.number raw) raw

/-- A text of a member, with white space around its tokens. -/
structure SpellsMember (m : String × Literal) (cs : List Char) : Prop where
  spells : ∃ w raw w₂ w₃ value w₄, Blank w ∧ Blank w₂ ∧ Blank w₃ ∧ Blank w₄ ∧ Closed raw ∧
    unquote raw = some m.1 ∧ SpellsLiteral m.2 value ∧
    cs = w ++ '"' :: (raw ++ '"' :: (w₂ ++ ':' :: (w₃ ++ (value ++ w₄))))

/-- A text of the members from the first one to the end of the object. -/
inductive SpellsMembers : List (String × Literal) → List Char → Prop where
  | last {m : String × Literal} {cs : List Char} : SpellsMember m cs →
      SpellsMembers [m] (cs ++ ['}'])
  | cons {m : String × Literal} {ms : List (String × Literal)} {cs cs' : List Char} :
      SpellsMember m cs → SpellsMembers ms cs' → SpellsMembers (m :: ms) (cs ++ ',' :: cs')

/-- A text of an object, with white space around it. -/
inductive Spells : List (String × Literal) → List Char → Prop where
  | empty {w w₂ w₃ : List Char} : Blank w → Blank w₂ → Blank w₃ →
      Spells [] (w ++ '{' :: (w₂ ++ '}' :: w₃))
  | members {w w₂ cs : List Char} {ms : List (String × Literal)} : Blank w → Blank w₂ →
      SpellsMembers ms cs → Spells ms (w ++ '{' :: (cs ++ w₂))

/-! ## What is spelled is read -/

theorem signed_chars (plus : Bool) {cs : List Char}
    (h : ∀ c ∈ (signed plus cs).2, isNumberChar c = true) : ∀ c ∈ cs, isNumberChar c = true := by
  unfold signed at h
  split at h
  · exact List.forall_mem_cons.mpr ⟨by decide, h⟩
  · split at h
    · rename_i hplus
      exact List.forall_mem_cons.mpr ⟨by rw [hplus.2]; decide, h⟩
    · exact h
  · simp

/-- The digits that a text begins with, and what follows them. -/
theorem digits_chars {cs : List Char} (h : ∀ c ∈ cs.dropWhile Char.isDigit, isNumberChar c = true) :
    ∀ c ∈ cs, isNumberChar c = true := by
  intro c hc
  rw [← List.takeWhile_append_dropWhile (p := Char.isDigit) (l := cs)] at hc
  rcases List.mem_append.mp hc with hc | hc
  · have hdigit := List.all_eq_true.mp (List.all_takeWhile (p := Char.isDigit) (l := cs)) c hc
    simp [isNumberChar, hdigit]
  · exact h c hc

theorem readFraction_chars {cs rest : List Char} {fraction : Option (List Char)}
    (hread : readFraction cs = some (fraction, rest)) (h : ∀ c ∈ rest, isNumberChar c = true) :
    ∀ c ∈ cs, isNumberChar c = true := by
  unfold readFraction at hread
  split at hread
  · split at hread
    · cases hread
    · cases hread
      exact List.forall_mem_cons.mpr ⟨by decide, digits_chars h⟩
  · cases hread
    exact h

theorem readExponent_chars {cs : List Char} (h : (readExponent cs).isSome) :
    ∀ c ∈ cs, isNumberChar c = true := by
  cases cs with
  | nil => simp
  | cons e cs =>
    rw [readExponent] at h
    split at h
    · rename_i hexponent
      obtain ⟨he, -, hdigits⟩ := hexponent
      refine List.forall_mem_cons.mpr ⟨by rcases he with rfl | rfl <;> decide, ?_⟩
      refine signed_chars true fun c hc => ?_
      simp [isNumberChar, List.all_eq_true.mp hdigits c hc]
    · cases h

/-- A number has no other characters than those of numbers. -/
theorem readNumber_chars {raw : List Char} (h : (readNumber raw).isSome) :
    ∀ c ∈ raw, isNumberChar c = true := by
  obtain ⟨n, hn⟩ := Option.isSome_iff_exists.mp h
  unfold readNumber at hn
  dsimp only at hn
  split at hn
  · cases hn
  · simp only [Option.bind_eq_bind, Option.bind_eq_some_iff] at hn
    obtain ⟨⟨fraction, rest⟩, hfraction, exponent, hexponent, -⟩ := hn
    have hrest := readExponent_chars (Option.isSome_iff_exists.mpr ⟨_, hexponent⟩)
    exact signed_chars _ (digits_chars (readFraction_chars hfraction hrest))

/-- A text after which a number ends. -/
def Ends (rest : List Char) : Prop := ∀ c ∈ rest.head?, isNumberChar c = false

theorem readLiteral_spelled {l : Literal} {cs rest : List Char} (h : SpellsLiteral l cs)
    (hrest : Ends rest) : readLiteral (cs ++ rest) = some (l, rest) := by
  cases h with
  | null => rfl
  | text hclosed => simp [readLiteral, scanText_of_closed hclosed]
  | number hnumber =>
    have hchars := readNumber_chars hnumber
    have htake : (cs ++ rest).takeWhile isNumberChar = cs := by
      rw [List.takeWhile_append_of_pos hchars]
      cases rest with
      | nil => simp
      | cons c rest => simp [hrest c rfl]
    have hdrop : (cs ++ rest).dropWhile isNumberChar = rest := by
      rw [List.dropWhile_append_of_pos hchars]
      cases rest with
      | nil => rfl
      | cons c rest => simp [hrest c rfl]
    -- A number begins neither like a string nor like `null`.
    have hhead : ∀ c cs', cs ++ rest = c :: cs' → isNumberChar c = true := by
      intro c cs' heq
      cases cs with
      | nil => cases hnumber
      | cons d cs =>
        obtain ⟨rfl, -⟩ := List.cons.inj heq
        exact hchars _ List.mem_cons_self
    rw [readLiteral]
    · rw [htake, hdrop, if_pos hnumber]
    · intro cs' heq
      exact absurd (hhead _ _ heq) (by decide)
    · intro cs' heq
      exact absurd (hhead _ _ heq) (by decide)

theorem starts_cons {c : Char} {cs : List Char} (h : isSpace c = false) : Starts (c :: cs) :=
  ⟨c, cs, rfl, h⟩

/-- A number, a string and `null` begin with no white space. -/
theorem starts_of_spells {l : Literal} {cs rest : List Char} (h : SpellsLiteral l cs) :
    Starts (cs ++ rest) := by
  cases h with
  | null => exact starts_cons (by decide)
  | text _ => exact starts_cons (by decide)
  | number hnumber =>
    cases cs with
    | nil => cases hnumber
    | cons c cs =>
      have hc := readNumber_chars hnumber c List.mem_cons_self
      refine starts_cons ?_
      by_contra hspace
      rw [Bool.not_eq_false] at hspace
      simp only [isSpace, Bool.or_eq_true, decide_eq_true_eq] at hspace
      rcases hspace with ((rfl | rfl) | rfl) | rfl <;> exact absurd hc (by decide)

/-- White space and the marks after a value end a number. -/
theorem ends_blank {w rest : List Char} {c : Char} (hw : Blank w) (hc : isNumberChar c = false) :
    Ends (w ++ c :: rest) := by
  intro d hd
  cases w with
  | nil =>
    obtain rfl : c = d := by simpa using hd
    exact hc
  | cons e w =>
    obtain rfl : e = d := by simpa using hd
    have hspace := hw e List.mem_cons_self
    simp only [isSpace, Bool.or_eq_true, decide_eq_true_eq] at hspace
    rcases hspace with ((rfl | rfl) | rfl) | rfl <;> decide

/-- What follows a member is read up to its white space. -/
theorem readMember_spelled {m : String × Literal} {cs : List Char} (h : SpellsMember m cs) {c : Char}
    (rest : List Char) (hc : isNumberChar c = false) (hspace : isSpace c = false) :
    ∃ w, Blank w ∧ readMember (cs ++ c :: rest) = some (m, w ++ c :: rest) ∧
      skip (w ++ c :: rest) = c :: rest := by
  obtain ⟨w, raw, w₂, w₃, value, w₄, hw, hw₂, hw₃, hw₄, hclosed, hkey, hvalue, rfl⟩ := h
  refine ⟨w₄, hw₄, ?_, skip_append hw₄ (starts_cons hspace)⟩
  unfold readMember
  simp only [List.append_assoc, List.cons_append]
  rw [skip_append hw (starts_cons (by decide))]
  simp only [scanText_of_closed hclosed, Option.bind_eq_bind, Option.bind_some, hkey]
  rw [skip_append hw₂ (starts_cons (by decide))]
  simp only
  rw [skip_append hw₃ (starts_of_spells hvalue), readLiteral_spelled hvalue (ends_blank hw₄ hc)]
  rfl

theorem readMembers_spelled {ms : List (String × Literal)} {cs : List Char} (h : SpellsMembers ms cs) :
    ∀ {n : ℕ} (rest : List Char), ms.length ≤ n → readMembers n (cs ++ rest) = some (ms, rest) := by
  induction h with
  | last hmember =>
    intro n rest hn
    cases n with
    | zero => cases hn
    | succ n =>
      obtain ⟨w, -, hread, hskip⟩ := readMember_spelled hmember (c := '}') rest (by decide) (by decide)
      simp [readMembers, hread, hskip]
  | cons hmember _ ih =>
    intro n rest hn
    cases n with
    | zero => cases hn
    | succ n =>
      obtain ⟨w, -, hread, hskip⟩ := readMember_spelled hmember (c := ',') _ (by decide) (by decide)
      have hrest := ih (n := n) rest (Nat.le_of_succ_le_succ hn)
      rw [List.append_assoc, List.cons_append, readMembers, hread]
      simp [hskip, hrest]

theorem SpellsMember.starts {m : String × Literal} {cs : List Char} (h : SpellsMember m cs)
    (rest : List Char) : ∃ cs', skip (cs ++ rest) = '"' :: cs' := by
  obtain ⟨w, raw, w₂, w₃, value, w₄, hw, -, -, -, -, -, -, rfl⟩ := h
  rw [List.append_assoc, List.cons_append, skip_append hw (starts_cons (by decide))]
  exact ⟨_, rfl⟩

theorem SpellsMembers.starts {ms : List (String × Literal)} {cs : List Char} (h : SpellsMembers ms cs)
    (rest : List Char) : ∃ cs', skip (cs ++ rest) = '"' :: cs' := by
  cases h with
  | last hmember =>
    rw [List.append_assoc]
    exact hmember.starts _
  | cons hmember _ =>
    rw [List.append_assoc]
    exact hmember.starts _

theorem SpellsMembers.length_le {ms : List (String × Literal)} {cs : List Char}
    (h : SpellsMembers ms cs) : ms.length ≤ cs.length := by
  induction h with
  | last _ => simp
  | cons _ _ ih =>
    simp only [List.length_cons, List.length_append]
    omega

/-- The members that a text spells are read from it, and only white space is left. -/
theorem readObject_spelled {ms : List (String × Literal)} {cs : List Char} (h : Spells ms cs) :
    ∃ w, Blank w ∧ readObject cs = some (ms, w) := by
  cases h with
  | @empty w w₂ w₃ hw hw₂ hw₃ =>
    refine ⟨w₃, hw₃, ?_⟩
    unfold readObject
    rw [skip_append hw (starts_cons (by decide))]
    simp only
    rw [skip_append hw₂ (starts_cons (by decide))]
    rfl
  | @members w w₂ cs ms hw hw₂ hmembers =>
    refine ⟨w₂, hw₂, ?_⟩
    unfold readObject
    rw [skip_append hw (starts_cons (by decide))]
    simp only
    obtain ⟨cs', hstarts⟩ := hmembers.starts w₂
    rw [hstarts]
    refine readMembers_spelled hmembers w₂ (hmembers.length_le.trans ?_)
    simp

/-! ## Writing -/

/-- A character that needs no escape. -/
def isPlain (c : Char) : Bool := c ≠ '"' && c ≠ '\\' && 0x20 ≤ c.toNat

theorem closed_of_plain {raw : List Char} (h : raw.all isPlain = true) : Closed raw := by
  induction raw with
  | nil => exact .nil
  | cons c cs ih =>
    simp only [List.all_cons, Bool.and_eq_true, isPlain, decide_eq_true_eq] at h
    obtain ⟨⟨⟨hquote, hescape⟩, hcontrol⟩, hrest⟩ := h
    exact .plain hquote hescape hcontrol (ih hrest)

theorem pieces_plain {c : Char} (h : isPlain c = true) (cs : List Char) :
    pieces (c :: cs) = (pieces cs).map fun ps => .inl c :: ps := by
  simp only [isPlain, Bool.and_eq_true, decide_eq_true_eq] at h
  have hescape : c ≠ '\\' := h.1.2
  rw [pieces]
  · rw [if_neg hescape]
  · intro a b d e cs' heq
    exact absurd heq hescape
  · intro a cs' heq
    exact absurd heq hescape

/-- Four digits of a hexadecimal number. -/
def hexDigits (n : ℕ) : List Char :=
  [(n / 4096 % 16).digitChar, (n / 256 % 16).digitChar, (n / 16 % 16).digitChar, (n % 16).digitChar]

/-- A character of a text between quotes.  The marks of HTML and the line ends of JavaScript
    are escaped as well. -/
def escapeChar (c : Char) : List Char :=
  if c = '"' ∨ c = '\\' then ['\\', c]
  else if c = Char.ofNat 8 then ['\\', 'b']
  else if c = Char.ofNat 12 then ['\\', 'f']
  else if c = '\n' then ['\\', 'n']
  else if c = '\r' then ['\\', 'r']
  else if c = '\t' then ['\\', 't']
  else if c.toNat < 0x20 ∨ c = '<' ∨ c = '>' ∨ c = '&' ∨ c.toNat = 0x2028 ∨ c.toNat = 0x2029 then
    '\\' :: 'u' :: hexDigits c.toNat
  else [c]

def escape (s : String) : List Char := s.toList.flatMap escapeChar

theorem hexDigit_digitChar {n : ℕ} (h : n < 16) : hexDigit n.digitChar = some n := by
  have hall : (List.range 16).all (fun n => hexDigit n.digitChar = some n) = true := by decide
  simpa using List.all_eq_true.mp hall n (List.mem_range.mpr h)

theorem hex_hexDigits {n : ℕ} (h : n < 65536) : hex (hexDigits n) = some n := by
  unfold hex hexDigits
  have h₁ := hexDigit_digitChar (Nat.mod_lt (n / 4096) (by decide : 0 < 16))
  have h₂ := hexDigit_digitChar (Nat.mod_lt (n / 256) (by decide : 0 < 16))
  have h₃ := hexDigit_digitChar (Nat.mod_lt (n / 16) (by decide : 0 < 16))
  have h₄ := hexDigit_digitChar (Nat.mod_lt n (by decide : 0 < 16))
  simp only [List.foldlM_cons, List.foldlM_nil, h₁, h₂, h₃, h₄, Option.map_some, Option.bind_eq_bind,
    Option.bind_some, Option.pure_def]
  congr 1
  omega

/-- An escaped character is one piece, whose unit is no half of a pair. -/
theorem pieces_escapeChar (c : Char) (cs : List Char) :
    ∃ p : Char ⊕ ℕ, (p = .inl c ∨ p = .inr c.toNat ∧ isHigh c.toNat = false ∧ unit c.toNat = c) ∧
      pieces (escapeChar c ++ cs) = (pieces cs).map fun ps => p :: ps := by
  unfold escapeChar
  split_ifs with hquote h₁ h₂ h₃ h₄ h₅ hunit
  · refine ⟨.inl c, .inl rfl, ?_⟩
    rcases hquote with rfl | rfl <;> cases hpieces : pieces cs <;> simp [pieces, unescape, hpieces]
  · refine ⟨.inl c, .inl rfl, ?_⟩
    cases hpieces : pieces cs <;> simp [pieces, unescape, hpieces, h₁]
  · refine ⟨.inl c, .inl rfl, ?_⟩
    cases hpieces : pieces cs <;> simp [pieces, unescape, hpieces, h₂]
  · refine ⟨.inl c, .inl rfl, ?_⟩
    cases hpieces : pieces cs <;> simp [pieces, unescape, hpieces, h₃]
  · refine ⟨.inl c, .inl rfl, ?_⟩
    cases hpieces : pieces cs <;> simp [pieces, unescape, hpieces, h₄]
  · refine ⟨.inl c, .inl rfl, ?_⟩
    cases hpieces : pieces cs <;> simp [pieces, unescape, hpieces, h₅]
  · have hsmall : c.toNat < 0xD800 := by
      rcases hunit with h | rfl | rfl | rfl | h | h
      · omega
      · decide
      · decide
      · decide
      · omega
      · omega
    have hhigh : isHigh c.toNat = false := by
      simp [isHigh]
      omega
    have hlow : isLow c.toNat = false := by
      simp [isLow]
      omega
    refine ⟨.inr c.toNat, .inr ⟨rfl, hhigh, ?_⟩, ?_⟩
    · simp [unit, hhigh, hlow]
    · have hhex := hex_hexDigits (n := c.toNat) (by omega)
      unfold hexDigits at hhex ⊢
      cases hpieces : pieces cs <;> simp [pieces, hhex, hpieces]
  · refine ⟨.inl c, .inl rfl, ?_⟩
    have hescape : c ≠ '\\' := fun h => hquote (.inr h)
    rw [List.singleton_append, pieces]
    · rw [if_neg hescape]
    · intro a b d e cs' heq
      exact absurd heq hescape
    · intro a cs' heq
      exact absurd heq hescape

theorem combine_piece {c : Char} {p : Char ⊕ ℕ} (ps : List (Char ⊕ ℕ))
    (h : p = .inl c ∨ p = .inr c.toNat ∧ isHigh c.toNat = false ∧ unit c.toNat = c) :
    combine (p :: ps) = c :: combine ps := by
  rcases h with rfl | ⟨rfl, hhigh, hunit⟩
  · rfl
  · cases ps with
    | nil => simp [combine, hunit]
    | cons q ps => cases q <;> simp [combine, hhigh, hunit]

/-- A string whose characters are escaped where they have to be is read back. -/
theorem unquote_flatMap {f : Char → List Char}
    (hf : ∀ c, f c = escapeChar c ∨ isPlain c = true ∧ f c = [c]) (s : String) :
    unquote (s.toList.flatMap f) = some s := by
  have hchars : ∀ cs : List Char, ∃ ps, pieces (cs.flatMap f) = some ps ∧ combine ps = cs := by
    intro cs
    induction cs with
    | nil => exact ⟨[], rfl, rfl⟩
    | cons c cs ih =>
      obtain ⟨ps, hpieces, hcombine⟩ := ih
      rcases hf c with hescaped | ⟨hplain, hself⟩
      · obtain ⟨p, hp, hescape⟩ := pieces_escapeChar c (cs.flatMap f)
        refine ⟨p :: ps, ?_, ?_⟩
        · rw [List.flatMap_cons, hescaped, hescape, hpieces, Option.map_some]
        · rw [combine_piece ps hp, hcombine]
      · refine ⟨.inl c :: ps, ?_, ?_⟩
        · rw [List.flatMap_cons, hself, List.singleton_append, pieces_plain hplain, hpieces,
            Option.map_some]
        · rw [combine_piece ps (.inl rfl), hcombine]
  obtain ⟨ps, hpieces, hcombine⟩ := hchars s.toList
  simp [unquote, hpieces, hcombine]

theorem unquote_escape (s : String) : unquote (escape s) = some s :=
  unquote_flatMap (fun _ => .inl rfl) s

theorem closed_escapeChar (c : Char) {raw : List Char} (h : Closed raw) :
    Closed (escapeChar c ++ raw) := by
  have hplain : ∀ {n : ℕ} {cs : List Char}, n < 16 → Closed cs → Closed (n.digitChar :: cs) := by
    intro n cs hn hcs
    have hdigit : n.digitChar ≠ '"' ∧ n.digitChar ≠ '\\' ∧ 0x20 ≤ n.digitChar.toNat := by
      have hall : (List.range 16).all (fun n => n.digitChar ≠ '"' ∧ n.digitChar ≠ '\\' ∧
          0x20 ≤ n.digitChar.toNat) = true := by decide
      simpa using List.all_eq_true.mp hall n (List.mem_range.mpr hn)
    exact .plain hdigit.1 hdigit.2.1 hdigit.2.2 hcs
  unfold escapeChar
  split_ifs with hquote h₁ h₂ h₃ h₄ h₅ hunit
  · exact .escaped _ h
  · exact .escaped _ h
  · exact .escaped _ h
  · exact .escaped _ h
  · exact .escaped _ h
  · exact .escaped _ h
  · exact .escaped _ (hplain (Nat.mod_lt _ (by decide)) (hplain (Nat.mod_lt _ (by decide))
      (hplain (Nat.mod_lt _ (by decide)) (hplain (Nat.mod_lt _ (by decide)) h))))
  · exact .plain (fun h => hquote (.inl h)) (fun h => hquote (.inr h))
      (not_lt.mp fun h => hunit (.inl h)) h

theorem closed_flatMap {f : Char → List Char}
    (hf : ∀ c, f c = escapeChar c ∨ isPlain c = true ∧ f c = [c]) (s : String) :
    Closed (s.toList.flatMap f) := by
  induction s.toList with
  | nil => exact .nil
  | cons c cs ih =>
    rw [List.flatMap_cons]
    rcases hf c with hescaped | ⟨hplain, hself⟩
    · rw [hescaped]
      exact closed_escapeChar c ih
    · simp only [isPlain, Bool.and_eq_true, decide_eq_true_eq] at hplain
      rw [hself]
      exact .plain hplain.1.1 hplain.1.2 hplain.2 ih

theorem closed_escape (s : String) : Closed (escape s) := closed_flatMap (fun _ => .inl rfl) s

/-- A whole number. -/
def writeInt (z : ℤ) : List Char :=
  if z < 0 then '-' :: Nat.toDigits 10 z.natAbs else Nat.toDigits 10 z.natAbs

/-- A number has no zero in front unless it is zero. -/
theorem head_toDigits {n : ℕ} (h : (Nat.toDigits 10 n).head? = some '0') : n = 0 := by
  induction n using Nat.strong_induction_on with
  | _ n ih =>
    by_cases hsmall : n < 10
    · rw [Nat.toDigits_of_lt_base hsmall] at h
      simpa using h
    · have hbase : 10 ≤ n := not_lt.mp hsmall
      rw [Nat.toDigits_of_base_le (by decide) hbase, List.head?_append_of_ne_nil _ Nat.toDigits_ne_nil] at h
      have hzero := ih (n / 10) (by omega) h
      omega

theorem readNumber_writeInt (z : ℤ) :
    ∃ n, readNumber (writeInt z) = some n ∧ n.integer? = some z := by
  have hdigits : ∀ c ∈ Nat.toDigits 10 z.natAbs, c.isDigit = true :=
    fun c hc => Nat.isDigit_of_mem_toDigits (by decide) (by decide) hc
  have htake : (Nat.toDigits 10 z.natAbs).takeWhile Char.isDigit = Nat.toDigits 10 z.natAbs :=
    List.takeWhile_eq_self_iff.mpr hdigits
  have hdrop : (Nat.toDigits 10 z.natAbs).dropWhile Char.isDigit = [] :=
    List.dropWhile_eq_nil_iff.mpr hdigits
  have hvalue : natOf (Nat.toDigits 10 z.natAbs) = z.natAbs :=
    Nat.ofDigitChars_toDigits (by decide) (by decide)
  have hgood : ¬(Nat.toDigits 10 z.natAbs = [] ∨
      ((Nat.toDigits 10 z.natAbs).head? = some '0' ∧ Nat.toDigits 10 z.natAbs ≠ ['0'])) := by
    rintro (hempty | ⟨hhead, hne⟩)
    · exact Nat.toDigits_ne_nil hempty
    · rw [head_toDigits hhead] at hne
      exact hne rfl
  have hread : ∀ negative, signed false (writeInt z) = (negative, Nat.toDigits 10 z.natAbs) →
      readNumber (writeInt z) = some ⟨negative, Nat.toDigits 10 z.natAbs, none, none⟩ := by
    intro negative hsigned
    unfold readNumber
    simp only [hsigned, htake, hdrop]
    rw [if_neg hgood]
    rfl
  by_cases hnegative : z < 0
  · refine ⟨_, hread true (by simp [writeInt, hnegative, signed]), ?_⟩
    rw [Number.integer?, if_pos ⟨rfl, rfl⟩, hvalue]
    refine congrArg some ?_
    show -1 * (z.natAbs : ℤ) = z
    omega
  · have hsigned : signed false (writeInt z) = (false, Nat.toDigits 10 z.natAbs) := by
      rw [writeInt, if_neg hnegative]
      cases hcs : Nat.toDigits 10 z.natAbs with
      | nil => rfl
      | cons c cs =>
        have hc := hdigits c (by simp [hcs])
        rw [signed]
        · simp
        · rintro rfl
          exact absurd hc (by decide)
    refine ⟨_, hread false hsigned, ?_⟩
    rw [Number.integer?, if_pos ⟨rfl, rfl⟩, hvalue]
    refine congrArg some ?_
    show 1 * (z.natAbs : ℤ) = z
    omega

def writeLiteral : Literal → List Char
  | .null => ['n', 'u', 'l', 'l']
  | .text raw => '"' :: (raw ++ ['"'])
  | .number raw => raw

def writeMember (m : String × Literal) : List Char :=
  '"' :: (escape m.1 ++ '"' :: ':' :: writeLiteral m.2)

/-- The members from the first one to the end of the object, without white space. -/
def writeMembers : List (String × Literal) → List Char
  | [] => ['}']
  | [m] => writeMember m ++ ['}']
  | m :: ms => writeMember m ++ ',' :: writeMembers ms

def writeObject (ms : List (String × Literal)) : List Char := '{' :: writeMembers ms

/-! ## Sizes -/

theorem size_ofList_le (cs : List Char) : (String.ofList cs).utf8ByteSize ≤ 4 * cs.length := by
  induction cs with
  | nil => decide
  | cons c cs ih =>
    have hc := c.utf8Size_le_four
    rw [String.ofList_cons, String.utf8ByteSize_append, String.utf8ByteSize_singleton,
      List.length_cons]
    omega

theorem length_escapeChar (c : Char) : (escapeChar c).length ≤ 6 := by
  unfold escapeChar
  split_ifs <;> simp [hexDigits]

theorem length_flatMap_le {f : Char → List Char}
    (hf : ∀ c, f c = escapeChar c ∨ isPlain c = true ∧ f c = [c]) (cs : List Char) :
    (cs.flatMap f).length ≤ 6 * cs.length := by
  induction cs with
  | nil => simp
  | cons c cs ih =>
    have hc : (f c).length ≤ 6 := by
      rcases hf c with hescaped | ⟨-, hself⟩
      · rw [hescaped]
        exact length_escapeChar c
      · simp [hself]
    rw [List.flatMap_cons, List.length_append, List.length_cons]
    omega

/-- The object takes a mark more than its members and the marks between them. -/
theorem length_writeObject_le (ms : List (String × Literal)) :
    (writeObject ms).length ≤ 2 + (ms.map fun m => (writeMember m).length + 1).sum := by
  have hmembers : (writeMembers ms).length ≤ 1 + (ms.map fun m => (writeMember m).length + 1).sum := by
    induction ms with
    | nil => simp [writeMembers]
    | cons m ms ih =>
      cases ms with
      | nil => simp [writeMembers]
      | cons m' ms =>
        rw [writeMembers, List.length_append, List.length_cons, List.map_cons, List.sum_cons]
        · omega
        · simp
  rw [writeObject, List.length_cons]
  omega

/-! ## What is written -/

theorem spellsMember_writeMember {m : String × Literal} (h : SpellsLiteral m.2 (writeLiteral m.2)) :
    SpellsMember m (writeMember m) :=
  ⟨[], escape m.1, [], [], writeLiteral m.2, [], by simp [Blank], by simp [Blank], by simp [Blank],
    by simp [Blank], closed_escape m.1, unquote_escape m.1, h, by simp [writeMember]⟩

theorem spellsMembers_writeMembers {m : String × Literal} {ms : List (String × Literal)}
    (h : ∀ m' ∈ m :: ms, SpellsLiteral m'.2 (writeLiteral m'.2)) :
    SpellsMembers (m :: ms) (writeMembers (m :: ms)) := by
  induction ms generalizing m with
  | nil => exact .last (spellsMember_writeMember (h m List.mem_cons_self))
  | cons m' ms ih =>
    obtain ⟨hhead, hrest⟩ := List.forall_mem_cons.mp h
    exact .cons (spellsMember_writeMember hhead) (ih hrest)

/-- What is written spells the members. -/
theorem spells_writeObject {ms : List (String × Literal)}
    (h : ∀ m ∈ ms, SpellsLiteral m.2 (writeLiteral m.2)) : Spells ms (writeObject ms) := by
  have hblank : Blank [] := by simp [Blank]
  cases ms with
  | nil => exact .empty hblank hblank hblank
  | cons m ms =>
    have hspells := Spells.members hblank hblank (spellsMembers_writeMembers h)
    rwa [List.append_nil, List.nil_append] at hspells

end JsonText
