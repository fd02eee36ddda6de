import Mathlib.Data.Int.Notation
import Mathlib.Data.List.DropRight
import Mathlib.Tactic.Common

/-!
# Decimal numerals

Integers written with a minimal number of characters and read back from a text, the way a
formatting language and a parser of integer literals do it.

- `padInt_injective`: zeros in front of the digits do not make two integers look alike;
- `parseInt`: an optional sign and digits, between two of which an underscore may stand.
-/

namespace RobotDataHarness.Library

namespace Decimal

/-- The digits of a number, with zeros in front up to a width. -/
def padNat (width n : ℕ) : List Char := (Nat.toDigits 10 n).leftpad width '0'

/-- `f"{n:0{width}d}"`: the sign counts for the width. -/
def padInt (width : ℕ) (n : ℤ) : List Char :=
  if n < 0 then '-' :: padNat (width - 1) n.natAbs else padNat width n.natAbs

/-- Zeros in front do not change the number that is read back. -/
theorem ofDigitChars_padNat (width n : ℕ) : Nat.ofDigitChars 10 (padNat width n) 0 = n := by
  simp [padNat, List.leftpad, Nat.ofDigitChars_append]

theorem isDigit_of_mem_padNat {width n : ℕ} {c : Char} (h : c ∈ padNat width n) : c.isDigit := by
  rcases List.mem_append.mp h with h | h
  · rw [List.eq_of_mem_replicate h]
    decide
  · exact Nat.isDigit_of_mem_toDigits (by decide) (by decide) h

theorem padNat_injective (width : ℕ) : Function.Injective (padNat width) := by
  intro n m h
  rw [← ofDigitChars_padNat width n, h, ofDigitChars_padNat]

/-- No natural number is written with a sign. -/
theorem padNat_ne_minus (width n : ℕ) (cs : List Char) : padNat width n ≠ '-' :: cs := by
  intro h
  have hdigit : '-'.isDigit := isDigit_of_mem_padNat (h ▸ List.mem_cons_self)
  exact absurd hdigit (by decide)

theorem padInt_injective (width : ℕ) : Function.Injective (padInt width) := by
  intro n m h
  simp only [padInt] at h
  split at h <;> split at h
  · have habs := padNat_injective _ (List.cons.inj h).2
    omega
  · exact absurd h.symm (padNat_ne_minus _ _ _)
  · exact absurd h (padNat_ne_minus _ _ _)
  · have habs := padNat_injective _ h
    omega

/-- Digits, with single underscores between them. -/
def parseNat (cs : List Char) : Option ℕ :=
  if (cs.splitOn '_').all (fun part => !part.isEmpty && part.all Char.isDigit) then
    some (Nat.ofDigitChars 10 (cs.filter (· ≠ '_')) 0)
  else none

/-- An integer literal, with spaces around it. -/
def parseInt (cs : List Char) : Option ℤ :=
  match (cs.dropWhile Char.isWhitespace).rdropWhile Char.isWhitespace with
  | '-' :: digits => (parseNat digits).map fun n => -n
  | '+' :: digits => (parseNat digits).map fun n => n
  | digits => (parseNat digits).map fun n => n

theorem parseNat_padNat (width n : ℕ) : parseNat (padNat width n) = some n := by
  have hdigits : ∀ c ∈ padNat width n, c.isDigit = true := fun c hc => isDigit_of_mem_padNat hc
  have hunder : '_' ∉ padNat width n := fun hc => absurd (hdigits _ hc) (by decide)
  have hne : padNat width n ≠ [] := by
    rw [padNat, List.leftpad]
    simp [Nat.toDigits_ne_nil]
  have hsplit : (padNat width n).splitOn '_' = [padNat width n] := by
    have hpieces : ∀ l ∈ [padNat width n], '_' ∉ l := fun l hl => List.mem_singleton.mp hl ▸ hunder
    have hjoin := List.splitOn_intercalate '_' hpieces (List.cons_ne_nil _ _)
    simpa [List.intercalate] using hjoin
  have hfilter : (padNat width n).filter (· ≠ '_') = padNat width n := by
    rw [List.filter_eq_self]
    exact fun c hc => by simpa using fun heq : c = '_' => hunder (heq ▸ hc)
  rw [parseNat, hsplit, if_pos, hfilter, ofDigitChars_padNat]
  simpa [hne] using hdigits

/-- An integer is read back, whatever its width. -/
theorem parseInt_padInt (width : ℕ) (n : ℤ) : parseInt (padInt width n) = some n := by
  have hchar : ∀ c ∈ padInt width n, c = '-' ∨ c.isDigit = true := by
    intro c hc
    rw [padInt] at hc
    split_ifs at hc
    · exact (List.mem_cons.mp hc).imp id fun hc => isDigit_of_mem_padNat hc
    · exact Or.inr (isDigit_of_mem_padNat hc)
  have hspace : ∀ c ∈ padInt width n, c.isWhitespace = false := by
    intro c hc
    by_contra hspace
    have hcases : c = ' ' ∨ c = '\t' ∨ c = '\r' ∨ c = '\n' := by
      simpa only [Char.isWhitespace, Bool.or_eq_true, decide_eq_true_eq, or_assoc,
        Bool.not_eq_false] using hspace
    rcases hcases with rfl | rfl | rfl | rfl <;> exact absurd (hchar _ hc) (by decide)
  have hdrop : (padInt width n).dropWhile Char.isWhitespace = padInt width n := by
    cases hs : padInt width n with
    | nil => rfl
    | cons c s => rw [List.dropWhile_cons_of_neg (by simp [hspace c (hs ▸ List.mem_cons_self)])]
  have hrdrop : (padInt width n).rdropWhile Char.isWhitespace = padInt width n := by
    rw [List.rdropWhile_eq_self_iff]
    exact fun hne => by simp [hspace _ (List.getLast_mem hne)]
  -- nothing is stripped, and the sign decides what is left to be read
  rw [parseInt, hdrop, hrdrop, padInt]
  by_cases hn : n < 0
  · rw [if_pos hn]
    simp only [parseNat_padNat]
    refine congrArg some ?_
    show -((n.natAbs : ℕ) : ℤ) = n
    omega
  · rw [if_neg hn]
    split
    next digits heq => exact absurd heq (padNat_ne_minus _ _ _)
    next digits heq =>
      have hplus : '+'.isDigit := isDigit_of_mem_padNat (heq ▸ List.mem_cons_self)
      exact absurd hplus (by decide)
    next =>
      simp only [parseNat_padNat]
      refine congrArg some ?_
      show ((n.natAbs : ℕ) : ℤ) = n
      omega

example : parseInt " 1_0".toList = some 10 ∧ parseInt "1.5".toList = none := by decide

end Decimal

end RobotDataHarness.Library

/-!
## Calendar days

Days counted from 1970-01-01, as the year, month and day of the Gregorian calendar and as the text
of ISO 8601, and seconds counted from then, as a text of digits and as a time of ISO 8601.

- `ofCivil_civil`: the date of a day gives the day back;
- `secondText_injective`: no two seconds have the same text.
-/

namespace RobotDataHarness.Library

namespace Calendar

/-- A date of the Gregorian calendar. -/
@[ext]
structure CivilDate where
  year : ℤ
  month : ℤ
  day : ℤ
  deriving DecidableEq

/-- A day within its era of 400 years.  The years of an era begin in March, so that a leap day is
the last day of its year. -/
structure EraDay where
  era : ℤ
  century : ℤ
  olympiad : ℤ
  year : ℤ
  dayOfYear : ℤ

namespace EraDay

/-- Successive divisions by the length of an era, of a century, of four years and of a year; the
last century of an era and the last year of four are one day longer. -/
def ofDay (d : ℤ) : EraDay :=
  let days := d + 719468
  let doe := days % 146097
  let century := min (doe / 36524) 3
  let doc := doe - 36524 * century
  let doo := doc % 1461
  let year := min (doo / 365) 3
  { era := days / 146097
    century
    olympiad := doc / 1461
    year
    dayOfYear := doo - 365 * year }

/-- What the divisions leave. -/
structure InRange (e : EraDay) : Prop where
  century : 0 ≤ e.century ∧ e.century ≤ 3
  olympiad : 0 ≤ e.olympiad ∧ e.olympiad ≤ 24
  year : 0 ≤ e.year ∧ e.year ≤ 3
  dayOfYear : 0 ≤ e.dayOfYear ∧ e.dayOfYear ≤ 365

theorem inRange_ofDay (d : ℤ) : (ofDay d).InRange := by
  refine ⟨?_, ?_, ?_, ?_⟩ <;> simp only [ofDay] <;> omega

/-- The years since the era of the year 0 began. -/
def years (e : EraDay) : ℤ := 400 * e.era + 100 * e.century + 4 * e.olympiad + e.year

/-- The month, counted from March. -/
def month (e : EraDay) : ℤ := (5 * e.dayOfYear + 2) / 153

end EraDay

/-- The days before a month, counted from March. -/
def daysBefore (month : ℤ) : ℤ := (153 * month + 2) / 5

/-- The date of a day of an era. -/
def EraDay.civil (e : EraDay) : CivilDate :=
  let month := if e.month < 10 then e.month + 3 else e.month - 9
  { year := e.years + if month ≤ 2 then 1 else 0
    month
    day := e.dayOfYear - daysBefore e.month + 1 }

/-- The date of a day. -/
def civil (d : ℤ) : CivilDate := (EraDay.ofDay d).civil

/-- The day of a date. -/
def ofCivil (c : CivilDate) : ℤ :=
  let years := c.year - if c.month ≤ 2 then 1 else 0
  let month := (c.month + 9) % 12
  365 * years + years / 4 - years / 100 + years / 400 + daysBefore month + c.day - 1 - 719468

/-- Twelve months begin in a year. -/
theorem EraDay.InRange.month {e : EraDay} (h : e.InRange) : 0 ≤ e.month ∧ e.month ≤ 11 := by
  obtain ⟨hlow, hhigh⟩ := h.dayOfYear
  simp only [EraDay.month]
  omega

/-- The days before the years of an era day, by the leap years among them. -/
theorem EraDay.InRange.years {e : EraDay} (h : e.InRange) :
    365 * e.years + e.years / 4 - e.years / 100 + e.years / 400 =
      146097 * e.era + 36524 * e.century + 1461 * e.olympiad + 365 * e.year := by
  obtain ⟨hc, ho, hy, -⟩ := h
  have hfour : e.years / 4 = 100 * e.era + 25 * e.century + e.olympiad := by
    simp only [EraDay.years]
    omega
  have hhundred : e.years / 100 = 4 * e.era + e.century := by
    simp only [EraDay.years]
    omega
  have hera : e.years / 400 = e.era := by
    simp only [EraDay.years]
    omega
  rw [hfour, hhundred, hera, EraDay.years]
  omega

theorem EraDay.InRange.ofCivil_civil {e : EraDay} (h : e.InRange) :
    ofCivil e.civil = 146097 * e.era + 36524 * e.century + 1461 * e.olympiad + 365 * e.year +
      e.dayOfYear - 719468 := by
  obtain ⟨hlow, hhigh⟩ := h.month
  have hyears := h.years
  have hmonth : ((if e.month < 10 then e.month + 3 else e.month - 9) + 9) % 12 = e.month := by
    split <;> omega
  simp only [ofCivil, EraDay.civil, hmonth]
  omega

theorem ofCivil_civil (d : ℤ) : ofCivil (civil d) = d := by
  have hdays : 146097 * (EraDay.ofDay d).era + 36524 * (EraDay.ofDay d).century +
      1461 * (EraDay.ofDay d).olympiad + 365 * (EraDay.ofDay d).year +
      (EraDay.ofDay d).dayOfYear = d + 719468 := by
    simp only [EraDay.ofDay]
    omega
  rw [civil, (EraDay.inRange_ofDay d).ofCivil_civil, hdays]
  omega

theorem civil_injective : Function.Injective civil :=
  Function.LeftInverse.injective ofCivil_civil

/-- The months and the days of a month are counted from 1. -/
theorem civil_pos (d : ℤ) : 1 ≤ (civil d).month ∧ 1 ≤ (civil d).day := by
  have h := EraDay.inRange_ofDay d
  obtain ⟨hlow, hhigh⟩ := h.month
  obtain ⟨hday, -⟩ := h.dayOfYear
  simp only [civil, EraDay.civil, daysBefore]
  constructor
  · split <;> omega
  · simp only [EraDay.month]
    omega

/-! ## The text of a day -/

/-- A text is cut at the last place of a character in one way. -/
theorem append_cons_inj_right {α : Type*} {a : α} {x x' y y' : List α} (h : a ∉ y) (h' : a ∉ y')
    (heq : x ++ a :: y = x' ++ a :: y') : x = x' ∧ y = y' := by
  rcases List.append_eq_append_iff.mp heq with ⟨zs, rfl, hzs⟩ | ⟨zs, rfl, hzs⟩
  · cases zs with
    | nil => simpa using hzs
    | cons z zs =>
      -- the longer of the two ends would have the other cut inside
      exact absurd (by rw [(List.cons.inj hzs).2]; simp) h
  · cases zs with
    | nil => simpa [eq_comm] using hzs
    | cons z zs => exact absurd (by rw [(List.cons.inj hzs).2]; simp) h'

theorem isDigit_or_minus_of_mem_padInt {width : ℕ} {n : ℤ} {c : Char}
    (h : c ∈ Decimal.padInt width n) : c.isDigit ∨ c = '-' := by
  rw [Decimal.padInt] at h
  split at h
  · rcases List.mem_cons.mp h with rfl | h
    · exact Or.inr rfl
    · exact Or.inl (Decimal.isDigit_of_mem_padNat h)
  · exact Or.inl (Decimal.isDigit_of_mem_padNat h)

/-- The characters of `isoformat`. -/
def isoChars (d : ℤ) : List Char :=
  Decimal.padInt 4 (civil d).year ++ '-' :: (Decimal.padInt 2 (civil d).month ++
    '-' :: Decimal.padInt 2 (civil d).day)

/-- The month and the day have no sign, so the text is cut at its last two hyphens. -/
theorem minus_notMem_padInt {width : ℕ} {n : ℤ} (h : 1 ≤ n) : '-' ∉ Decimal.padInt width n := by
  intro hmem
  rw [Decimal.padInt, if_neg (by omega)] at hmem
  exact absurd (Decimal.isDigit_of_mem_padNat hmem) (by decide)

theorem isoChars_injective : Function.Injective isoChars := by
  intro d d' h
  obtain ⟨hmonth, hday⟩ := civil_pos d
  obtain ⟨hmonth', hday'⟩ := civil_pos d'
  simp only [isoChars, ← List.append_assoc, ← List.cons_append] at h
  obtain ⟨hym, hd⟩ := append_cons_inj_right (minus_notMem_padInt hday) (minus_notMem_padInt hday') h
  obtain ⟨hy, hm⟩ := append_cons_inj_right (minus_notMem_padInt hmonth)
    (minus_notMem_padInt hmonth') hym
  refine civil_injective (CivilDate.ext ?_ ?_ ?_)
  · exact Decimal.padInt_injective 4 hy
  · exact Decimal.padInt_injective 2 hm
  · exact Decimal.padInt_injective 2 hd

/-- `date.isoformat()`, for a day given by its number. -/
def isoformat (d : ℤ) : String := String.ofList (isoChars d)

/-- The text of a day has digits and hyphens only. -/
theorem isDigit_or_minus_of_mem_isoChars {d : ℤ} {c : Char} (h : c ∈ isoChars d) :
    c.isDigit ∨ c = '-' := by
  simp only [isoChars, List.mem_append, List.mem_cons] at h
  rcases h with h | h | h | h | h
  · exact isDigit_or_minus_of_mem_padInt h
  · exact Or.inr h
  · exact isDigit_or_minus_of_mem_padInt h
  · exact Or.inr h
  · exact isDigit_or_minus_of_mem_padInt h

example : isoformat 19783 = "2024-03-01" ∧ isoformat (-1) = "1969-12-31" := by decide

/-! ## The text of a second -/

/-- A month and a day of a month have at most two digits. -/
theorem civil_lt_hundred (d : ℤ) : (civil d).month < 100 ∧ (civil d).day < 100 := by
  have h := EraDay.inRange_ofDay d
  obtain ⟨hlow, hhigh⟩ := h.month
  obtain ⟨hday, hday'⟩ := h.dayOfYear
  simp only [civil, EraDay.civil, daysBefore]
  constructor
  · split <;> omega
  · simp only [EraDay.month]
    omega

/-- A day that is not before 1970 is not in a year before the year 0. -/
theorem civil_year_nonneg {d : ℤ} (h : 0 ≤ d) : 0 ≤ (civil d).year := by
  obtain ⟨hc, ho, hy, -⟩ := EraDay.inRange_ofDay d
  have hera : 0 ≤ (EraDay.ofDay d).era := by
    simp only [EraDay.ofDay]
    omega
  simp only [civil, EraDay.civil, EraDay.years]
  split <;> omega

theorem length_padNat_two {n : ℕ} (h : n < 100) : (Decimal.padNat 2 n).length = 2 := by
  have hall : ∀ n : Fin 100, (Decimal.padNat 2 n.val).length = 2 := by decide
  exact hall ⟨n, h⟩

/-- Two digits at the end of a text are cut off in one way. -/
theorem append_padNat_inj {x x' : List Char} {n n' : ℕ} (h : n < 100) (h' : n' < 100)
    (heq : x ++ Decimal.padNat 2 n = x' ++ Decimal.padNat 2 n') : x = x' ∧ n = n' := by
  obtain ⟨hx, hn⟩ := List.append_inj' heq (by rw [length_padNat_two h, length_padNat_two h'])
  exact ⟨hx, Decimal.padNat_injective 2 hn⟩

/-- The characters of `%Y%m%d%H%M%S`; before the year 10000 they are fourteen. -/
def stampChars (t : ℕ) : List Char :=
  let date := civil (t / 86400 : ℕ)
  Decimal.padNat 4 date.year.toNat ++ Decimal.padNat 2 date.month.toNat ++
    Decimal.padNat 2 date.day.toNat ++ Decimal.padNat 2 (t % 86400 / 3600) ++
      Decimal.padNat 2 (t % 3600 / 60) ++ Decimal.padNat 2 (t % 60)

/-- `strftime("%Y%m%d%H%M%S")` of a second after the beginning of 1970. -/
def stamp (t : ℕ) : String := String.ofList (stampChars t)

/-- The hour, the minute and the second of a day have two digits each. -/
theorem clock_lt_hundred (t : ℕ) : t % 86400 / 3600 < 100 ∧ t % 3600 / 60 < 100 ∧ t % 60 < 100 := by
  omega

theorem eq_of_clock_eq {t t' : ℕ} (hday : t / 86400 = t' / 86400)
    (hhour : t % 86400 / 3600 = t' % 86400 / 3600) (hmin : t % 3600 / 60 = t' % 3600 / 60)
    (hsec : t % 60 = t' % 60) : t = t' := by
  omega

/-- The year, the month and the day of two dates agree where their numbers of digits do. -/
theorem civil_eq_of_toNat_eq {d d' : ℤ} (h : 0 ≤ d) (h' : 0 ≤ d')
    (hyear : (civil d).year.toNat = (civil d').year.toNat)
    (hmonth : (civil d).month.toNat = (civil d').month.toNat)
    (hday : (civil d).day.toNat = (civil d').day.toNat) : d = d' := by
  have hy := civil_year_nonneg h
  have hy' := civil_year_nonneg h'
  obtain ⟨hm, hd⟩ := civil_pos d
  obtain ⟨hm', hd'⟩ := civil_pos d'
  exact civil_injective (CivilDate.ext (by omega) (by omega) (by omega))

theorem stampChars_injective : Function.Injective stampChars := by
  intro t t' h
  obtain ⟨hhour, hmin, hsec⟩ := clock_lt_hundred t
  obtain ⟨hhour', hmin', hsec'⟩ := clock_lt_hundred t'
  have hdate : ∀ t : ℕ, (civil (t / 86400 : ℕ)).month.toNat < 100 ∧
      (civil (t / 86400 : ℕ)).day.toNat < 100 := by
    intro t
    obtain ⟨hm, hd⟩ := civil_lt_hundred (t / 86400 : ℕ)
    exact ⟨(Int.toNat_lt' (by decide)).mpr hm, (Int.toNat_lt' (by decide)).mpr hd⟩
  simp only [stampChars] at h
  -- the fields after the year have two digits each
  obtain ⟨h, hs⟩ := append_padNat_inj hsec hsec' h
  obtain ⟨h, hmi⟩ := append_padNat_inj hmin hmin' h
  obtain ⟨h, hho⟩ := append_padNat_inj hhour hhour' h
  obtain ⟨h, hd⟩ := append_padNat_inj (hdate t).2 (hdate t').2 h
  obtain ⟨h, hmo⟩ := append_padNat_inj (hdate t).1 (hdate t').1 h
  have hday := civil_eq_of_toNat_eq (Int.natCast_nonneg _) (Int.natCast_nonneg _)
    (Decimal.padNat_injective 4 h) hmo hd
  exact eq_of_clock_eq (Int.natCast_inj.mp hday) hho hmi hs

theorem isDigit_of_mem_stampChars {t : ℕ} {c : Char} (h : c ∈ stampChars t) : c.isDigit := by
  simp only [stampChars, List.mem_append] at h
  rcases h with ((((h | h) | h) | h) | h) | h <;> exact Decimal.isDigit_of_mem_padNat h

example : stamp 1728000000 = "20241004000000" := by decide

/-- The characters of `%Y-%m-%dT%H:%M:%SZ`. -/
def secondChars (t : ℤ) : List Char :=
  isoChars (t / 86400) ++ 'T' :: (Decimal.padNat 2 (t % 86400 / 3600).toNat ++
    ':' :: (Decimal.padNat 2 (t % 3600 / 60).toNat ++
      ':' :: (Decimal.padNat 2 (t % 60).toNat ++ ['Z'])))

/-- `strftime("%Y-%m-%dT%H:%M:%SZ")` of a second, counted from the beginning of 1970. -/
def secondText (t : ℤ) : String := String.ofList (secondChars t)

theorem secondChars_injective : Function.Injective secondChars := by
  intro t t' h
  simp only [secondChars] at h
  -- the clock has digits, colons and a Z, so the day ends at the only T behind it
  have hclock : ∀ a b c : ℕ, 'T' ∉ Decimal.padNat 2 a ++ ':' :: (Decimal.padNat 2 b ++
      ':' :: (Decimal.padNat 2 c ++ ['Z'])) := by
    intro a b c hmem
    simp only [List.mem_append, List.mem_cons, List.not_mem_nil, or_false] at hmem
    rcases hmem with hmem | hmem | hmem | hmem | hmem | hmem
    · exact absurd (Decimal.isDigit_of_mem_padNat hmem) (by decide)
    · exact absurd hmem (by decide)
    · exact absurd (Decimal.isDigit_of_mem_padNat hmem) (by decide)
    · exact absurd hmem (by decide)
    · exact absurd (Decimal.isDigit_of_mem_padNat hmem) (by decide)
    · exact absurd hmem (by decide)
  obtain ⟨hday, hrest⟩ := append_cons_inj_right (hclock _ _ _) (hclock _ _ _) h
  have hlen : ∀ {n : ℤ}, 0 ≤ n → n < 100 → (Decimal.padNat 2 n.toNat).length = 2 :=
    fun hn hlt => length_padNat_two ((Int.toNat_lt hn).mpr hlt)
  obtain ⟨hhour, hrest⟩ := List.append_inj hrest
    (by rw [hlen (by omega) (by omega), hlen (by omega) (by omega)])
  obtain ⟨hminute, hrest⟩ := List.append_inj (List.cons.inj hrest).2
    (by rw [hlen (by omega) (by omega), hlen (by omega) (by omega)])
  obtain ⟨hsecond, -⟩ := List.append_inj (List.cons.inj hrest).2
    (by rw [hlen (by omega) (by omega), hlen (by omega) (by omega)])
  have hday := isoChars_injective hday
  have hhour := Decimal.padNat_injective 2 hhour
  have hminute := Decimal.padNat_injective 2 hminute
  have hsecond := Decimal.padNat_injective 2 hsecond
  omega

theorem secondText_injective : Function.Injective secondText := fun _ _ h =>
  secondChars_injective (String.ofList_injective h)

example : secondText 1728000000 = "2024-10-04T00:00:00Z" := by decide

end Calendar

end RobotDataHarness.Library
