import Mathlib.Algebra.Order.Ring.Int
import Mathlib.Data.List.DropRight
import Mathlib.Data.Nat.Find
import Mathlib.Tactic.Common

/-! # Times in RFC 3339

    An instant is a number of nanoseconds since 1970, with the seconds that its zone is
    ahead of UTC.  `read` takes every text of the format, with any fraction of a second, and
    drops what is below a nanosecond.  It takes some texts beyond the format as well, as
    `time.Parse` of Go does: an hour of one digit, a comma before the fraction, and zones of
    24 hours or 60 minutes.  `write` gives the shortest fraction.  What is written is read
    back. -/

namespace Rfc3339

/-! ## The calendar -/

def leapDay (year : ℕ) : ℕ :=
  if year % 4 = 0 ∧ (year % 100 ≠ 0 ∨ year % 400 = 0) then 1 else 0

/-- The days of the years from 0 on that are before a year. -/
def daysBefore (year : ℕ) : ℕ :=
  365 * year + (year + 3) / 4 - (year + 99) / 100 + (year + 399) / 400

theorem le_daysBefore (year : ℕ) : 365 * year ≤ daysBefore year := by
  unfold daysBefore
  omega

theorem daysBefore_succ (year : ℕ) :
    daysBefore (year + 1) = daysBefore year + (365 + leapDay year) := by
  have h4 : (year + 1 + 3) / 4 = (year + 3) / 4 + if year % 4 = 0 then 1 else 0 := by
    split <;> omega
  have h100 : (year + 1 + 99) / 100 = (year + 99) / 100 + if year % 100 = 0 then 1 else 0 := by
    split <;> omega
  have h400 : (year + 1 + 399) / 400 = (year + 399) / 400 + if year % 400 = 0 then 1 else 0 := by
    split <;> omega
  have hleap : leapDay year + (if year % 100 = 0 then 1 else 0) =
      (if year % 4 = 0 then 1 else 0) + if year % 400 = 0 then 1 else 0 := by
    unfold leapDay
    split_ifs <;> omega
  have hone : (if year % 100 = 0 then 1 else 0) ≤ 1 := by
    split <;> omega
  unfold daysBefore
  rw [h4, h100, h400]
  omega

/-- The year of a day. -/
def yearOf (n : ℕ) : ℕ := Nat.findGreatest (fun year => daysBefore year ≤ n) (n / 365)

theorem daysBefore_yearOf (n : ℕ) :
    daysBefore (yearOf n) ≤ n ∧ n < daysBefore (yearOf n + 1) := by
  constructor
  · exact Nat.findGreatest_spec (P := fun year => daysBefore year ≤ n) (Nat.zero_le _) (Nat.zero_le _)
  · by_contra hlt
    have hle : 365 * (yearOf n + 1) ≤ n := (le_daysBefore _).trans (not_lt.mp hlt)
    have hbound : yearOf n + 1 ≤ n / 365 := by omega
    exact Nat.findGreatest_is_greatest (Nat.lt_succ_self _) hbound (not_lt.mp hlt)

def monthLengths (year : ℕ) : List ℕ :=
  [31, 28 + leapDay year, 31, 30, 31, 30, 31, 31, 30, 31, 30, 31]

/-- The days of some months together. -/
def total : List ℕ → ℕ
  | [] => 0
  | length :: lengths => length + total lengths

theorem total_monthLengths (year : ℕ) : total (monthLengths year) = 365 + leapDay year := by
  simp only [monthLengths, total]
  omega

theorem monthLength_le (year month : ℕ) : (monthLengths year).getD month 0 ≤ 31 := by
  have hleap : leapDay year ≤ 1 := by
    unfold leapDay
    split <;> decide
  have hlengths : ∀ length ∈ monthLengths year, length ≤ 31 := by
    simp [monthLengths]
    omega
  rw [List.getD_eq_getElem?_getD]
  cases hmonth : (monthLengths year)[month]? with
  | none => exact Nat.zero_le _
  | some length => exact hlengths length (List.mem_of_getElem? hmonth)

/-- The month that a day falls into, and the day of that month, both from 0 on. -/
def splitDays : List ℕ → ℕ → ℕ × ℕ
  | [], day => (0, day)
  | length :: lengths, day =>
    if day < length then (0, day)
    else ((splitDays lengths (day - length)).1 + 1, (splitDays lengths (day - length)).2)

theorem splitDays_spec (lengths : List ℕ) {day : ℕ} (h : day < total lengths) :
    (splitDays lengths day).1 < lengths.length ∧
      (splitDays lengths day).2 < lengths.getD (splitDays lengths day).1 0 ∧
      total (lengths.take (splitDays lengths day).1) + (splitDays lengths day).2 = day := by
  induction lengths generalizing day with
  | nil => cases h
  | cons length lengths ih =>
    rw [total] at h
    unfold splitDays
    split
    · rename_i hfirst
      simpa [total] using hfirst
    · have hday : day - length < total lengths := by omega
      obtain ⟨hmonth, hday, hsum⟩ := ih hday
      refine ⟨by simpa using hmonth, by simpa using hday, ?_⟩
      rw [List.take_succ_cons, total]
      omega

structure Date where
  year : ℕ
  month : ℕ
  day : ℕ
  deriving DecidableEq

/-- The days from the beginning of the year 0 to a date. -/
def Date.number (date : Date) : ℕ :=
  daysBefore date.year + total ((monthLengths date.year).take (date.month - 1)) + (date.day - 1)

def Date.ofNumber (n : ℕ) : Date where
  year := yearOf n
  month := (splitDays (monthLengths (yearOf n)) (n - daysBefore (yearOf n))).1 + 1
  day := (splitDays (monthLengths (yearOf n)) (n - daysBefore (yearOf n))).2 + 1

/-- A date of the calendar. -/
structure Date.Valid (date : Date) : Prop where
  month : 1 ≤ date.month ∧ date.month ≤ 12
  day : 1 ≤ date.day ∧ date.day ≤ (monthLengths date.year).getD (date.month - 1) 0

theorem lt_total_monthLengths (n : ℕ) :
    n - daysBefore (yearOf n) < total (monthLengths (yearOf n)) := by
  obtain ⟨hle, hlt⟩ := daysBefore_yearOf n
  rw [total_monthLengths]
  rw [daysBefore_succ] at hlt
  omega

theorem Date.valid_ofNumber (n : ℕ) : (Date.ofNumber n).Valid := by
  obtain ⟨hmonth, hday, -⟩ := splitDays_spec _ (lt_total_monthLengths n)
  exact ⟨⟨Nat.succ_pos _, hmonth⟩, ⟨Nat.succ_pos _, hday⟩⟩

theorem Date.number_ofNumber (n : ℕ) : (Date.ofNumber n).number = n := by
  obtain ⟨-, -, hsum⟩ := splitDays_spec _ (lt_total_monthLengths n)
  have hle := (daysBefore_yearOf n).1
  simp only [Date.number, Date.ofNumber, Nat.add_sub_cancel, Nat.add_assoc, hsum]
  omega

/-! ## Digits -/

/-- The last `k` decimal digits of a number. -/
def digits : ℕ → ℕ → List Char
  | 0, _ => []
  | k + 1, n => digits k (n / 10) ++ [(n % 10).digitChar]

@[simp] theorem length_digits (k n : ℕ) : (digits k n).length = k := by
  induction k generalizing n with
  | zero => rfl
  | succ k ih => simp [digits, ih]

theorem isDigit_of_mem_digits {k n : ℕ} {c : Char} (h : c ∈ digits k n) : c.isDigit = true := by
  induction k generalizing n with
  | zero => cases h
  | succ k ih =>
    rw [digits, List.mem_append, List.mem_singleton] at h
    rcases h with h | rfl
    · exact ih h
    · simp only [Nat.isDigit_digitChar, decide_eq_true_eq]
      omega

theorem ofDigitChars_digits {k n : ℕ} (h : n < 10 ^ k) : Nat.ofDigitChars 10 (digits k n) 0 = n := by
  induction k generalizing n with
  | zero =>
    rw [pow_zero] at h
    rw [digits, Nat.ofDigitChars_nil]
    omega
  | succ k ih =>
    rw [pow_succ] at h
    have hlast : n % 10 < 10 := Nat.mod_lt _ (by decide)
    rw [digits, Nat.ofDigitChars_append, ih (by omega),
      Nat.ofDigitChars_cons_digitChar_of_lt_ten hlast, Nat.ofDigitChars_nil]
    omega

/-- Zeros at the end of a number. -/
theorem digits_mul_pow (k j n : ℕ) :
    digits (k + j) (n * 10 ^ j) = digits k n ++ List.replicate j '0' := by
  induction j with
  | zero => simp
  | succ j ih =>
    have hshift : n * 10 ^ (j + 1) = n * 10 ^ j * 10 := by rw [pow_succ, Nat.mul_assoc]
    have hlast : n * 10 ^ (j + 1) % 10 = 0 := by omega
    have hrest : n * 10 ^ (j + 1) / 10 = n * 10 ^ j := by omega
    rw [← Nat.add_assoc, digits, hlast, hrest, ih, List.append_assoc, List.replicate_succ']
    rfl

/-- A number of `k` digits, within bounds, and what follows it. -/
def readField (k least greatest : ℕ) (cs : List Char) : Option (ℕ × List Char) :=
  let n := Nat.ofDigitChars 10 (cs.take k) 0
  if (cs.take k).length = k ∧ (cs.take k).all Char.isDigit ∧ least ≤ n ∧ n ≤ greatest then
    some (n, cs.drop k)
  else none

theorem readField_digits {k n least greatest : ℕ} (rest : List Char) (hfits : n < 10 ^ k)
    (hleast : least ≤ n) (hgreatest : n ≤ greatest) :
    readField k least greatest (digits k n ++ rest) = some (n, rest) := by
  have htake : (digits k n ++ rest).take k = digits k n := by
    rw [List.take_append_of_le_length (by simp), List.take_of_length_le (by simp)]
  have hdrop : (digits k n ++ rest).drop k = rest := by
    rw [List.drop_append_of_le_length (by simp), List.drop_of_length_le (by simp), List.nil_append]
  have hdigits : (digits k n).all Char.isDigit = true :=
    List.all_eq_true.mpr fun _ => isDigit_of_mem_digits
  unfold readField
  simp [htake, hdrop, hdigits, ofDigitChars_digits hfits, hleast, hgreatest]

/-- What follows a character. -/
def readMark (c : Char) : List Char → Option (List Char)
  | [] => none
  | d :: cs => if d = c then some cs else none

@[simp] theorem readMark_cons (c : Char) (cs : List Char) : readMark c (c :: cs) = some cs := by
  simp [readMark]

/-! ## Dates and times of day -/

def writeDate (date : Date) : List Char :=
  digits 4 date.year ++ '-' :: (digits 2 date.month ++ '-' :: digits 2 date.day)

/-- The days from the beginning of the year 0 to a date. -/
def readDate (cs : List Char) : Option (ℕ × List Char) := do
  let (year, cs) ← readField 4 0 9999 cs
  let cs ← readMark '-' cs
  let (month, cs) ← readField 2 1 12 cs
  let cs ← readMark '-' cs
  let (day, cs) ← readField 2 1 ((monthLengths year).getD (month - 1) 0) cs
  some (Date.number ⟨year, month, day⟩, cs)

theorem readDate_writeDate {date : Date} (rest : List Char) (hvalid : date.Valid)
    (hyear : date.year ≤ 9999) : readDate (writeDate date ++ rest) = some (date.number, rest) := by
  obtain ⟨⟨hmonth, hmonths⟩, hday, hdays⟩ := hvalid
  have hlength := monthLength_le date.year (date.month - 1)
  unfold readDate writeDate
  simp only [List.append_assoc, List.cons_append]
  rw [readField_digits _ (by omega) (Nat.zero_le _) hyear]
  simp only [Option.bind_eq_bind, Option.bind_some, readMark_cons]
  rw [readField_digits _ (by omega) hmonth hmonths]
  simp only [Option.bind_some, readMark_cons]
  rw [readField_digits _ (by omega) hday hdays]
  rfl

/-- The seconds of a day as hours, minutes and seconds. -/
def writeClock (seconds : ℕ) : List Char :=
  digits 2 (seconds / 3600) ++ ':' :: (digits 2 (seconds / 60 % 60) ++ ':' :: digits 2 (seconds % 60))

/-- An hour of two digits, or of one if no digit follows it. -/
def readHour (cs : List Char) : Option (ℕ × List Char) :=
  if ((cs.drop 1).take 1).any Char.isDigit then readField 2 0 23 cs else readField 1 0 9 cs

theorem readHour_digits {n : ℕ} (rest : List Char) (hfits : n ≤ 23) :
    readHour (digits 2 n ++ rest) = some (n, rest) := by
  have htwo : (((digits 2 n ++ rest).drop 1).take 1).any Char.isDigit = true := by
    have hlast : n % 10 < 10 := Nat.mod_lt _ (by decide)
    simp [digits, Nat.isDigit_digitChar, hlast]
  rw [readHour, if_pos htwo, readField_digits _ (by omega) (Nat.zero_le _) hfits]

def readClock (cs : List Char) : Option (ℕ × List Char) := do
  let (hour, cs) ← readHour cs
  let cs ← readMark ':' cs
  let (minute, cs) ← readField 2 0 59 cs
  let cs ← readMark ':' cs
  let (second, cs) ← readField 2 0 59 cs
  some (3600 * hour + 60 * minute + second, cs)

theorem readClock_writeClock {seconds : ℕ} (rest : List Char) (h : seconds < 86400) :
    readClock (writeClock seconds ++ rest) = some (seconds, rest) := by
  unfold readClock writeClock
  simp only [List.append_assoc, List.cons_append]
  rw [readHour_digits _ (by omega)]
  simp only [Option.bind_eq_bind, Option.bind_some, readMark_cons]
  rw [readField_digits _ (by omega) (Nat.zero_le _) (by omega)]
  simp only [Option.bind_some, readMark_cons]
  rw [readField_digits _ (by omega) (Nat.zero_le _) (by omega)]
  have hsum : 3600 * (seconds / 3600) + 60 * (seconds / 60 % 60) + seconds % 60 = seconds := by omega
  rw [Option.bind_some, hsum]

/-! ## Fractions and zones -/

/-- A part of a second, without the zeros at its end. -/
def writeFraction (nanos : ℕ) : List Char :=
  if nanos = 0 then [] else '.' :: (digits 9 nanos).rdropWhile (· = '0')

/-- The nanoseconds of a fraction, if there is one.  Digits after the ninth are dropped. -/
def readFraction : List Char → Option (ℕ × List Char)
  | [] => some (0, [])
  | c :: cs =>
    if c = '.' ∨ c = ',' then
      if cs.takeWhile Char.isDigit = [] then none
      else some (Nat.ofDigitChars 10 ((cs.takeWhile Char.isDigit ++ List.replicate 9 '0').take 9) 0,
        cs.dropWhile Char.isDigit)
    else some (0, c :: cs)

/-- Zeros put back at the end of a text of `k` characters. -/
theorem padded {cs : List Char} {k : ℕ} (h : cs.length = k) :
    (cs.rdropWhile (· = '0') ++ List.replicate k '0').take k = cs := by
  have hsplit : cs.rdropWhile (· = '0') ++ cs.rtakeWhile (· = '0') = cs :=
    List.rdropWhile_append_rtakeWhile
  have hzeros : cs.rtakeWhile (· = '0') =
      List.replicate (cs.rtakeWhile (· = '0')).length '0' := by
    refine List.eq_replicate_of_mem fun c hc => ?_
    simpa using List.mem_rtakeWhile_imp hc
  have hlength : (cs.rdropWhile (· = '0')).length + (cs.rtakeWhile (· = '0')).length = k := by
    rw [← List.length_append, hsplit, h]
  have htake : min (k - (cs.rdropWhile (· = '0')).length) k = (cs.rtakeWhile (· = '0')).length := by
    omega
  rw [List.take_append, List.take_of_length_le (by omega), List.take_replicate, htake, ← hzeros, hsplit]

theorem readFraction_writeFraction {nanos : ℕ} {rest : List Char} (h : nanos < 10 ^ 9)
    (hrest : ∀ c ∈ rest.head?, c.isDigit = false ∧ c ≠ '.' ∧ c ≠ ',') :
    readFraction (writeFraction nanos ++ rest) = some (nanos, rest) := by
  unfold writeFraction
  split
  · rename_i hzero
    cases rest with
    | nil => simp [readFraction, hzero]
    | cons c rest =>
      obtain ⟨-, hpoint, hcomma⟩ := hrest c rfl
      rw [List.nil_append, readFraction, if_neg (by simp [hpoint, hcomma]), hzero]
  · rename_i hnonzero
    have hdigits : ∀ c ∈ (digits 9 nanos).rdropWhile (· = '0'), c.isDigit = true :=
      fun c hc => isDigit_of_mem_digits ((List.rdropWhile_prefix _ _).subset hc)
    have htake : ((digits 9 nanos).rdropWhile (· = '0') ++ rest).takeWhile Char.isDigit =
        (digits 9 nanos).rdropWhile (· = '0') := by
      rw [List.takeWhile_append_of_pos hdigits]
      cases rest with
      | nil => simp
      | cons c rest => simp [(hrest c rfl).1]
    have hdrop : ((digits 9 nanos).rdropWhile (· = '0') ++ rest).dropWhile Char.isDigit = rest := by
      rw [List.dropWhile_append_of_pos hdigits]
      cases rest with
      | nil => rfl
      | cons c rest => simp [(hrest c rfl).1]
    -- Nine zeros would be the number zero.
    have hsome : (digits 9 nanos).rdropWhile (· = '0') ≠ [] := by
      intro hnone
      have hpadded := padded (length_digits 9 nanos)
      rw [hnone, List.nil_append, List.take_replicate] at hpadded
      have hvalue := ofDigitChars_digits h
      rw [← hpadded, Nat.ofDigitChars_replicate_zero] at hvalue
      omega
    rw [List.cons_append, readFraction, if_pos (.inl rfl), htake, hdrop, if_neg hsome,
      padded (length_digits 9 nanos), ofDigitChars_digits h]

/-- A fraction of up to nine digits, written with the zeros at its end. -/
theorem readFraction_digits {k n : ℕ} {rest : List Char} (h : n < 10 ^ k) (hsome : 0 < k) (hk : k ≤ 9)
    (hrest : ∀ c ∈ rest.head?, c.isDigit = false) :
    readFraction ('.' :: (digits k n ++ rest)) = some (n * 10 ^ (9 - k), rest) := by
  have hdigits : ∀ c ∈ digits k n, c.isDigit = true := fun c hc => isDigit_of_mem_digits hc
  have htake : (digits k n ++ rest).takeWhile Char.isDigit = digits k n := by
    rw [List.takeWhile_append_of_pos hdigits]
    cases rest with
    | nil => simp
    | cons c rest => simp [hrest c rfl]
  have hdrop : (digits k n ++ rest).dropWhile Char.isDigit = rest := by
    rw [List.dropWhile_append_of_pos hdigits]
    cases rest with
    | nil => rfl
    | cons c rest => simp [hrest c rfl]
  have hne : digits k n ≠ [] := List.ne_nil_of_length_pos (by simpa using hsome)
  have hnine : k + (9 - k) = 9 := by omega
  have hpadded : (digits k n ++ List.replicate 9 '0').take 9 = digits 9 (n * 10 ^ (9 - k)) := by
    have hmul := digits_mul_pow k (9 - k) n
    rw [hnine] at hmul
    rw [hmul, List.take_append, List.take_of_length_le (by simpa using hk), length_digits,
      List.take_replicate, min_eq_left (by omega)]
  have hbound : n * 10 ^ (9 - k) < 10 ^ 9 := by
    calc n * 10 ^ (9 - k) < 10 ^ k * 10 ^ (9 - k) := Nat.mul_lt_mul_of_pos_right h (Nat.pow_pos (by decide))
      _ = 10 ^ 9 := by rw [← pow_add, hnine]
  rw [readFraction, if_pos (.inl rfl), htake, hdrop, if_neg hne, hpadded, ofDigitChars_digits hbound]

/-- `Z` for UTC, and else the hours and minutes that the zone is ahead or behind. -/
def writeZone (offset : ℤ) : List Char :=
  if offset = 0 then ['Z']
  else (if offset < 0 then '-' else '+') ::
    (digits 2 (offset.natAbs / 3600) ++ ':' :: digits 2 (offset.natAbs / 60 % 60))

/-- Hours and minutes at the end of a text, in seconds.  Some do write zones of 24 hours
    or 60 minutes. -/
def readHours (cs : List Char) : Option ℕ := do
  let (hour, cs) ← readField 2 0 24 cs
  let cs ← readMark ':' cs
  let (minute, cs) ← readField 2 0 60 cs
  if cs = [] then some (3600 * hour + 60 * minute) else none

def readZone : List Char → Option ℤ
  | ['Z'] => some 0
  | '+' :: cs => (readHours cs).map fun (seconds : ℕ) => (seconds : ℤ)
  | '-' :: cs => (readHours cs).map fun (seconds : ℕ) => -(seconds : ℤ)
  | _ => none

theorem readHours_digits {seconds : ℕ} (hbound : seconds < 86400) (hminutes : seconds % 60 = 0) :
    readHours (digits 2 (seconds / 3600) ++ ':' :: digits 2 (seconds / 60 % 60)) = some seconds := by
  unfold readHours
  rw [readField_digits _ (by omega) (Nat.zero_le _) (by omega)]
  simp only [Option.bind_eq_bind, Option.bind_some, readMark_cons]
  rw [← List.append_nil (digits 2 (seconds / 60 % 60)),
    readField_digits _ (by omega) (Nat.zero_le _) (by omega)]
  have hsum : 3600 * (seconds / 3600) + 60 * (seconds / 60 % 60) = seconds := by omega
  simp [hsum]

theorem readZone_writeZone {offset : ℤ} (hbound : offset.natAbs < 86400)
    (hminutes : offset.natAbs % 60 = 0) : readZone (writeZone offset) = some offset := by
  unfold writeZone
  split_ifs with hzero hnegative
  · rw [hzero]
    rfl
  · rw [readZone, readHours_digits hbound hminutes, Option.map_some]
    congr 1
    omega
  · rw [readZone, readHours_digits hbound hminutes, Option.map_some]
    congr 1
    omega

theorem head_writeZone (offset : ℤ) :
    ∀ c ∈ (writeZone offset).head?, c.isDigit = false ∧ c ≠ '.' ∧ c ≠ ',' := by
  unfold writeZone
  split_ifs <;> simp

/-! ## Instants -/

/-- The days from the beginning of the year 0 to 1970. -/
def epochDays : ℕ := 719528

/-- What the clocks of the zone show, in nanoseconds since the beginning of the year 0. -/
def localNanos (unixNano offset : ℤ) : ℤ := unixNano + (offset + epochDays * 86400) * 10 ^ 9

def write (unixNano offset : ℤ) : List Char :=
  let nanos := (localNanos unixNano offset).toNat
  writeDate (.ofNumber (nanos / (86400 * 10 ^ 9))) ++ 'T' ::
    (writeClock (nanos / 10 ^ 9 % 86400) ++ (writeFraction (nanos % 10 ^ 9) ++ writeZone offset))

/-- The nanoseconds since 1970, and the offset of the zone. -/
def read (cs : List Char) : Option (ℤ × ℤ) := do
  let (days, cs) ← readDate cs
  let cs ← readMark 'T' cs
  let (seconds, cs) ← readClock cs
  let (nanos, cs) ← readFraction cs
  let offset ← readZone cs
  some (((days - epochDays) * 86400 + seconds - offset) * 10 ^ 9 + nanos, offset)

/-- A time whose year has four digits, in a zone of whole minutes. -/
structure Writable (unixNano offset : ℤ) : Prop where
  from_year_0 : 0 ≤ localNanos unixNano offset
  to_year_9999 : localNanos unixNano offset < 3652425 * 86400 * 10 ^ 9
  minutes : offset.natAbs % 60 = 0
  day : offset.natAbs < 86400

theorem yearOf_le {n : ℕ} (h : n < 3652425) : yearOf n ≤ 9999 := by
  by_contra hlate
  have hle := (daysBefore_yearOf n).1
  unfold daysBefore at hle
  omega

/-- A time is read back from its date and clock, and any text of its fraction and zone. -/
theorem read_spelled {unixNano offset : ℤ} (h : Writable unixNano offset) {fraction zone : List Char}
    (hfraction : readFraction (fraction ++ zone) =
      some ((localNanos unixNano offset).toNat % 10 ^ 9, zone))
    (hzone : readZone zone = some offset) :
    read (writeDate (.ofNumber ((localNanos unixNano offset).toNat / (86400 * 10 ^ 9))) ++ 'T' ::
      (writeClock ((localNanos unixNano offset).toNat / 10 ^ 9 % 86400) ++ (fraction ++ zone))) =
      some (unixNano, offset) := by
  obtain ⟨hfrom, hto, -, -⟩ := h
  obtain ⟨nanos, hnanos⟩ := Int.eq_ofNat_of_zero_le hfrom
  have hbound : nanos < 3652425 * 86400 * 10 ^ 9 := by omega
  have hyear : (Date.ofNumber (nanos / (86400 * 10 ^ 9))).year ≤ 9999 := yearOf_le (by omega)
  unfold read
  simp only [hnanos, Int.toNat_natCast] at hfraction ⊢
  rw [readDate_writeDate _ (Date.valid_ofNumber _) hyear]
  simp only [Option.bind_eq_bind, Option.bind_some, readMark_cons]
  rw [readClock_writeClock _ (Nat.mod_lt _ (by decide)), Option.bind_some, hfraction,
    Option.bind_some, hzone, Option.bind_some, Date.number_ofNumber]
  -- The parts of a number of nanoseconds add up to it.
  have hparts : nanos = (nanos / (86400 * 10 ^ 9) * 86400 + nanos / 10 ^ 9 % 86400) * 10 ^ 9 +
      nanos % 10 ^ 9 := by omega
  unfold localNanos at hnanos
  refine congrArg (fun t => some (t, offset)) ?_
  omega

/-- What is written is read back. -/
theorem read_write {unixNano offset : ℤ} (h : Writable unixNano offset) :
    read (write unixNano offset) = some (unixNano, offset) :=
  read_spelled h (readFraction_writeFraction (Nat.mod_lt _ (by decide)) (head_writeZone offset))
    (readZone_writeZone h.day h.minutes)

/-! ## The characters of a time -/

def isTimeChar (c : Char) : Bool :=
  c.isDigit || c = '-' || c = '+' || c = 'T' || c = ':' || c = '.' || c = 'Z'

theorem digits_chars {k n : ℕ} : ∀ c ∈ digits k n, isTimeChar c = true := by
  intro c hc
  simp [isTimeChar, isDigit_of_mem_digits hc]

/-- Two texts with a mark between them. -/
theorem chars_append {cs cs' : List Char} {mark : Char} (h : ∀ c ∈ cs, isTimeChar c = true)
    (hmark : isTimeChar mark = true) (h' : ∀ c ∈ cs', isTimeChar c = true) :
    ∀ c ∈ cs ++ mark :: cs', isTimeChar c = true := by
  have hrest : ∀ c ∈ mark :: cs', isTimeChar c = true := List.forall_mem_cons.mpr ⟨hmark, h'⟩
  intro c hc
  rcases List.mem_append.mp hc with hc | hc
  · exact h c hc
  · exact hrest c hc

theorem writeFraction_chars (nanos : ℕ) : ∀ c ∈ writeFraction nanos, isTimeChar c = true := by
  unfold writeFraction
  split
  · simp
  · refine List.forall_mem_cons.mpr ⟨by decide, fun c hc => ?_⟩
    exact digits_chars c ((List.rdropWhile_prefix _ _).subset hc)

theorem writeZone_chars (offset : ℤ) : ∀ c ∈ writeZone offset, isTimeChar c = true := by
  unfold writeZone
  split_ifs
  · exact List.forall_mem_singleton.mpr (by decide)
  · exact List.forall_mem_cons.mpr ⟨by decide, chars_append digits_chars (by decide) digits_chars⟩
  · exact List.forall_mem_cons.mpr ⟨by decide, chars_append digits_chars (by decide) digits_chars⟩

theorem writeClock_chars (seconds : ℕ) : ∀ c ∈ writeClock seconds, isTimeChar c = true :=
  chars_append digits_chars (by decide) (chars_append digits_chars (by decide) digits_chars)

theorem writeDate_chars (date : Date) : ∀ c ∈ writeDate date, isTimeChar c = true :=
  chars_append digits_chars (by decide) (chars_append digits_chars (by decide) digits_chars)

theorem write_chars (unixNano offset : ℤ) : ∀ c ∈ write unixNano offset, isTimeChar c = true := by
  refine chars_append (writeDate_chars _) (by decide) fun c hc => ?_
  rcases List.mem_append.mp hc with hc | hc
  · exact writeClock_chars _ c hc
  · rcases List.mem_append.mp hc with hc | hc
    · exact writeFraction_chars _ c hc
    · exact writeZone_chars _ c hc

end Rfc3339
