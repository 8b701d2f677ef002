import SmtpSink.CompareProofs
import SmtpSink.Utf8Proofs

/-! # RFC 3339 — how instants are written

    A date and a time of day in decimal digits of fixed width, perhaps with a
    fraction of a second, and the offset from UTC.  An instant is a minute of UTC
    and a second in it, the sixty-first being a leap second.

    * `named_order` — the date and the time name instants in the order in which
      they are read;
    * `text_order` — so are texts compared, as far as the tails behind the second,
      where there are four digits for the year;
    * `tail_order` — and how these are. -/

namespace Rfc3339

open Utf8 Compare

/-! ## The calendar -/

def LeapYear (y : ℤ) : Prop := y % 4 = 0 ∧ (y % 100 ≠ 0 ∨ y % 400 = 0)

instance (y : ℤ) : Decidable (LeapYear y) := inferInstanceAs (Decidable (_ ∧ _))

/-- The days of a month. -/
def monthLength (y : ℤ) : ℕ → ℕ
  | 2 => if LeapYear y then 29 else 28
  | 4 | 6 | 9 | 11 => 30
  | 1 | 3 | 5 | 7 | 8 | 10 | 12 => 31
  | _ => 0

theorem monthLength_le (y : ℤ) (m : ℕ) : monthLength y m ≤ 31 := by
  unfold monthLength
  split
  · split_ifs <;> decide
  all_goals decide

/-- The days of a year before a month. -/
def daysBefore (y : ℤ) : ℕ → ℕ
  | 0 => 0
  | m + 1 => daysBefore y m + monthLength y m

/-- The days before a year, from the year 1 on. -/
def daysBeforeYear (y : ℤ) : ℤ := 365 * (y - 1) + (y - 1) / 4 - (y - 1) / 100 + (y - 1) / 400

/-- A date that exists. -/
structure Date where
  year : ℤ
  month : ℕ
  day : ℕ
  month_pos : 1 ≤ month
  month_le : month ≤ 12
  day_pos : 1 ≤ day
  day_le : day ≤ monthLength year month

/-- The days up to a date, from the first of January of the year 1 on. -/
def Date.number (d : Date) : ℤ := daysBeforeYear d.year + daysBefore d.year d.month + d.day

theorem daysBeforeYear_succ (y : ℤ) :
    daysBeforeYear (y + 1) = daysBeforeYear y + daysBefore y 13 := by
  have hyear : daysBefore y 13 = 365 + if LeapYear y then 1 else 0 := by
    simp only [daysBefore, monthLength]
    split_ifs <;> rfl
  rw [hyear, daysBeforeYear, daysBeforeYear]
  -- the quotients grow just where the year is divisible
  split_ifs with h
  · obtain ⟨h4, h100⟩ := h
    omega
  · rw [LeapYear] at h
    omega

theorem daysBefore_mono (y : ℤ) : Monotone (daysBefore y) :=
  monotone_nat_of_le_succ (fun m => Nat.le_add_right _ (monthLength y m))

theorem daysBeforeYear_mono : Monotone daysBeforeYear := by
  refine monotone_int_of_le_succ (fun y => ?_)
  rw [daysBeforeYear_succ]
  omega

/-- A day of a month comes before the next month. -/
theorem Date.number_le (d : Date) :
    d.number ≤ daysBeforeYear d.year + daysBefore d.year (d.month + 1) := by
  have hday := d.day_le
  rw [Date.number, daysBefore]
  omega

theorem Date.lt_number (d : Date) :
    daysBeforeYear d.year + daysBefore d.year d.month < d.number := by
  have hday := d.day_pos
  rw [Date.number]
  omega

theorem number_lt_of_year {d e : Date} (h : d.year < e.year) : d.number < e.number := by
  have hd := d.number_le
  have he := e.lt_number
  have hmonth : daysBefore d.year (d.month + 1) ≤ daysBefore d.year 13 :=
    daysBefore_mono d.year (Nat.succ_le_succ d.month_le)
  have hyear := daysBeforeYear_mono (Int.add_one_le_of_lt h)
  rw [daysBeforeYear_succ] at hyear
  omega

theorem number_lt_of_month {d e : Date} (hy : d.year = e.year) (h : d.month < e.month) :
    d.number < e.number := by
  have hd := d.number_le
  have he := e.lt_number
  have hmonth : daysBefore d.year (d.month + 1) ≤ daysBefore d.year e.month :=
    daysBefore_mono d.year (Nat.succ_le_of_lt h)
  rw [← hy] at he
  omega

/-- Dates follow each other as their parts are compared. -/
theorem cmp_number (d e : Date) : cmp d.number e.number
    = (cmp d.year e.year).then ((cmp d.month e.month).then (cmp d.day e.day)) := by
  refine cmp_eq_then number_lt_of_year number_lt_of_year (fun hy => ?_)
  refine cmp_eq_then (number_lt_of_month hy) (number_lt_of_month hy.symm) (fun hm => ?_)
  rw [Date.number, Date.number, hy, hm]
  exact cmp_congr (by omega) (by omega)

/-! ## Digits -/

/-- The last `w` decimal digits of a number. -/
def digits : ℕ → ℕ → Text
  | 0, _ => []
  | w + 1, n => digits w (n / 10) ++ [Nat.digitChar (n % 10)]

theorem length_digits (w n : ℕ) : (digits w n).length = w := by
  induction w generalizing n with
  | zero => rfl
  | succ w ih => rw [digits, List.length_append, ih, List.length_singleton]

theorem toNat_digit {k : ℕ} (hk : k < 10) : (Nat.digitChar k).toNat = 48 + k :=
  Nat.toNat_digitChar_of_lt_ten hk

theorem digit_lt_digit {j k : ℕ} (hj : j < 10) (hk : k < 10) (h : j < k) :
    Nat.digitChar j < Nat.digitChar k := by
  show (Nat.digitChar j).toNat < (Nat.digitChar k).toNat
  rw [toNat_digit hj, toNat_digit hk]
  omega

theorem compares_digit {j k : ℕ} (hj : j < 10) (hk : k < 10) :
    (cmp j k).Compares (Nat.digitChar j) (Nat.digitChar k) := by
  rcases lt_trichotomy j k with h | rfl | h
  · rw [h.cmp_eq_lt]
    exact digit_lt_digit hj hk h
  · rw [cmp_self_eq_eq]
    exact rfl
  · rw [h.cmp_eq_gt]
    exact digit_lt_digit hk hj h

/-- Digits of one width are compared as the numbers. -/
theorem compares_digits {w n m : ℕ} (hn : n < 10 ^ w) (hm : m < 10 ^ w) :
    (cmp n m).Compares (digits w n) (digits w m) := by
  induction w generalizing n m with
  | zero =>
      obtain rfl := Nat.lt_one_iff.mp hn
      obtain rfl := Nat.lt_one_iff.mp hm
      rw [cmp_self_eq_eq]
      exact rfl
  | succ w ih =>
      -- all digits but the last are those of the tenth part
      rw [pow_succ] at hn hm
      have hcmp : cmp n m = (cmp (n / 10) (m / 10)).then (cmp (n % 10) (m % 10)) := by
        refine cmp_eq_then (fun h => ?_) (fun h => ?_) (fun h => ?_)
        · omega
        · omega
        · exact cmp_congr (by omega) (by omega)
      have hlast : (cmp (n % 10) (m % 10)).Compares [Nat.digitChar (n % 10)]
          [Nat.digitChar (m % 10)] := by
        have hempty : Ordering.eq.Compares ([] : Text) [] := rfl
        have h := compares_cons
          (compares_digit (Nat.mod_lt n (by decide)) (Nat.mod_lt m (by decide))) hempty
        rwa [Ordering.then_eq] at h
      have hlen : (digits w (n / 10)).length = (digits w (m / 10)).length := by
        rw [length_digits, length_digits]
      rw [hcmp, digits, digits]
      exact compares_append hlen (ih (by omega) (by omega)) hlast

/-! ## Fractions -/

/-- The digits of a fraction behind the point. -/
abbrev Fraction := List (Fin 10)

/-- What a fraction is of the whole. -/
def value : Fraction → ℚ
  | [] => 0
  | d :: f => (d.val + value f) / 10

theorem value_nonneg (f : Fraction) : 0 ≤ value f := by
  induction f with
  | nil => exact le_refl 0
  | cons d f ih =>
      have hd : (0 : ℚ) ≤ d.val := Nat.cast_nonneg d.val
      rw [value]
      linarith

theorem value_lt_one (f : Fraction) : value f < 1 := by
  induction f with
  | nil => exact one_pos
  | cons d f ih =>
      have hd : (d.val : ℚ) ≤ 9 := by exact_mod_cast Nat.le_of_lt_succ d.isLt
      rw [value]
      linarith

theorem value_append_lt {f g : Fraction} (p : Fraction) (h : value f < value g) :
    value (p ++ f) < value (p ++ g) := by
  induction p with
  | nil => exact h
  | cons d p ih =>
      rw [List.cons_append, List.cons_append, value, value]
      linarith

/-- The first digits that differ decide. -/
theorem value_lt_of_parts (p s t : Fraction) {x y : Fin 10} (h : x < y) :
    value (p ++ x :: s) < value (p ++ y :: t) := by
  refine value_append_lt p ?_
  have hs := value_lt_one s
  have ht := value_nonneg t
  have hxy : (x.val : ℚ) + 1 ≤ y.val := by exact_mod_cast h
  rw [value, value]
  linarith

/-- More digits make it no smaller. -/
theorem value_le_append (f t : Fraction) : value f ≤ value (f ++ t) := by
  induction f with
  | nil => exact value_nonneg t
  | cons d f ih =>
      rw [List.cons_append, value, value]
      linarith

/-! ## Times of day and offsets -/

/-- A time of day; the sixty-first second of a minute is a leap second. -/
structure Clock where
  hour : Fin 24
  minute : Fin 60
  second : Fin 61
  fraction : Fraction

/-- The place of a time of day among all, up to the second. -/
def Clock.number (c : Clock) : ℤ := (c.hour.val * 60 + c.minute.val) * 61 + c.second.val

/-- The offset from UTC: a letter `Z`, or hours and minutes. -/
inductive Zone where
  | letter (upper : Bool)
  | numeric (west : Bool) (hour : Fin 24) (minute : Fin 60)
  deriving DecidableEq

/-- The offset of UTC, in numbers. -/
def Zone.utc : Zone := .numeric false 0 0

/-- The offset is a letter. -/
def Zone.IsLetter (z : Zone) : Prop := ∃ upper, z = .letter upper

/-- The minutes by which a clock in the zone is ahead of UTC. -/
def Zone.offset : Zone → ℤ
  | .letter _ => 0
  | .numeric false hour minute => hour.val * 60 + minute.val
  | .numeric true hour minute => -(hour.val * 60 + minute.val)

/-- What stands between the date and the time. -/
inductive Separator where
  | upper
  | lower
  | space
  deriving DecidableEq

/-- A date and a time with an offset, as they are written. -/
structure Written where
  date : Date
  separator : Separator
  clock : Clock
  zone : Zone

/-! ## Instants -/

/-- A minute of UTC, and the second in it. -/
abbrev Instant := ℤ ×ₗ ℚ

def Clock.seconds (c : Clock) : ℚ := c.second.val + value c.fraction

/-- The minute the date and the time name. -/
def Written.minutes (w : Written) : ℤ :=
  w.date.number * 1440 + (w.clock.hour.val * 60 + w.clock.minute.val)

/-- The instant of UTC the date and the time name, the offset left aside. -/
def Written.named (w : Written) : Instant := toLex (w.minutes, w.clock.seconds)

/-- The instant that is written. -/
def Written.instant (w : Written) : Instant :=
  toLex (w.minutes - w.zone.offset, w.clock.seconds)

theorem instant_eq_named {w : Written} (h : w.zone.offset = 0) : w.instant = w.named := by
  rw [Written.instant, Written.named, h, sub_zero]

/-- Times of day are compared up to the second, and then by the fraction. -/
theorem clock_order (c e : Clock) : cmp c.number e.number
    = (cmp (c.hour.val * 60 + c.minute.val : ℤ) (e.hour.val * 60 + e.minute.val)).then
      (cmp c.second.val e.second.val) := by
  have hc := c.second.isLt
  have he := e.second.isLt
  rw [Clock.number, Clock.number, cmp_scale (by omega) (by omega) (by omega) (by omega)]
  exact congrArg _ (cmp_congr (by omega) (by omega))

theorem cmp_seconds (c e : Clock) : cmp c.seconds e.seconds
    = (cmp c.second.val e.second.val).then (cmp (value c.fraction) (value e.fraction)) := by
  have hc0 := value_nonneg c.fraction
  have hc1 := value_lt_one c.fraction
  have he0 := value_nonneg e.fraction
  have he1 := value_lt_one e.fraction
  refine cmp_eq_then (fun h => ?_) (fun h => ?_) (fun h => ?_)
  · have hle : (c.second.val : ℚ) + 1 ≤ e.second.val := by exact_mod_cast h
    rw [Clock.seconds, Clock.seconds]
    linarith
  · have hle : (e.second.val : ℚ) + 1 ≤ c.second.val := by exact_mod_cast h
    rw [Clock.seconds, Clock.seconds]
    linarith
  · rw [Clock.seconds, Clock.seconds, h]
    refine cmp_congr ?_ ?_
    · rw [add_lt_add_iff_left]
    · rw [add_right_inj]

/-- **The instants that are named follow each other as they are read.** -/
theorem named_order (r q : Written) : cmp r.named q.named
    = (cmp r.date.number q.date.number).then ((cmp r.clock.number q.clock.number).then
      (cmp (value r.clock.fraction) (value q.clock.fraction))) := by
  have hrh := r.clock.hour.isLt
  have hrm := r.clock.minute.isLt
  have hqh := q.clock.hour.isLt
  have hqm := q.clock.minute.isLt
  rw [Written.named, Written.named, cmp_toLex, cmp_seconds, clock_order]
  dsimp only
  rw [Written.minutes, Written.minutes,
    cmp_scale (by omega) (by omega) (by omega) (by omega)]
  simp only [Ordering.then_assoc]

/-! ## Texts -/

/-- Four digits for the years that have them, and a sign for the others. -/
def yearText (y : ℤ) : Text :=
  if 0 ≤ y ∧ y ≤ 9999 then digits 4 y.toNat
  else (if y < 0 then '-' else '+') :: (Nat.toDigits 10 y.natAbs).leftpad 4 '0'

def Date.text (d : Date) : Text :=
  yearText d.year ++ '-' :: (digits 2 d.month ++ '-' :: digits 2 d.day)

def Separator.char : Separator → Char
  | .upper => 'T'
  | .lower => 't'
  | .space => ' '

/-- The time of day up to the second. -/
def Clock.text (c : Clock) : Text :=
  digits 2 c.hour.val ++ ':' :: (digits 2 c.minute.val ++ ':' :: digits 2 c.second.val)

def fractionDigits (f : Fraction) : Text := f.map (fun d => Nat.digitChar d.val)

def Zone.text : Zone → Text
  | .letter true => ['Z']
  | .letter false => ['z']
  | .numeric west hour minute =>
      (if west then '-' else '+') :: (digits 2 hour.val ++ ':' :: digits 2 minute.val)

/-- A fraction, if there is one, with its point. -/
def fractionText (f : Fraction) : Text := if f = [] then [] else '.' :: fractionDigits f

/-- What is written behind the second. -/
def tail (f : Fraction) (z : Zone) : Text := fractionText f ++ z.text

def Written.text (w : Written) : Text :=
  w.date.text ++ w.separator.char :: (w.clock.text ++ tail w.clock.fraction w.zone)

/-- The year has four digits. -/
def Date.FourDigits (d : Date) : Prop := 0 ≤ d.year ∧ d.year ≤ 9999

instance (d : Date) : Decidable d.FourDigits := inferInstanceAs (Decidable (_ ∧ _))

/-! ## The order of texts -/

theorem year_order {y z : ℤ} (hy : 0 ≤ y ∧ y ≤ 9999) (hz : 0 ≤ z ∧ z ≤ 9999) :
    (cmp y z).Compares (yearText y) (yearText z) ∧ (yearText y).length = (yearText z).length := by
  rw [yearText, yearText, if_pos hy, if_pos hz, length_digits, length_digits]
  have hcmp : cmp y z = cmp y.toNat z.toNat := cmp_congr (by omega) (by omega)
  rw [hcmp]
  exact ⟨compares_digits (by omega) (by omega), rfl⟩

/-- A year with a sign comes before all that have none. -/
theorem signed_lt {y z : ℤ} (hy : ¬ (0 ≤ y ∧ y ≤ 9999)) (hz : 0 ≤ z ∧ z ≤ 9999) (s t : Text) :
    yearText y ++ s < yearText z ++ t := by
  rw [yearText, yearText, if_neg hy, if_pos hz]
  -- a sign stands before every digit
  obtain ⟨k, hk, rest, hrest⟩ : ∃ k < 10, ∃ rest, digits 4 z.toNat = Nat.digitChar k :: rest :=
    ⟨z.toNat / 10 / 10 / 10 % 10, Nat.mod_lt _ (by decide), _, rfl⟩
  rw [hrest]
  refine List.cons_lt_cons_iff.mpr (Or.inl ?_)
  have hsign : ∀ k < 10, '-' < Nat.digitChar k ∧ '+' < Nat.digitChar k := by decide
  split_ifs
  · exact (hsign k hk).1
  · exact (hsign k hk).2

/-- So does a date and a time in it. -/
theorem signed_text_lt {r q : Written} (hr : ¬ r.date.FourDigits) (hq : q.date.FourDigits) :
    r.text < q.text := by
  simp only [Written.text, Date.text, List.append_assoc]
  exact signed_lt hr hq _ _

theorem date_order {d e : Date} (hd : d.FourDigits) (he : e.FourDigits) :
    (cmp d.number e.number).Compares d.text e.text ∧ d.text.length = e.text.length := by
  obtain ⟨hyear, hlen⟩ := year_order hd he
  have hmonth : (cmp d.month e.month).Compares (digits 2 d.month) (digits 2 e.month) :=
    compares_digits (Nat.lt_of_le_of_lt d.month_le (by decide))
      (Nat.lt_of_le_of_lt e.month_le (by decide))
  have hday : (cmp d.day e.day).Compares (digits 2 d.day) (digits 2 e.day) :=
    compares_digits (Nat.lt_of_le_of_lt (d.day_le.trans (monthLength_le _ _)) (by decide))
      (Nat.lt_of_le_of_lt (e.day_le.trans (monthLength_le _ _)) (by decide))
  refine ⟨?_, ?_⟩
  · rw [cmp_number, Date.text, Date.text]
    refine compares_append hlen hyear (compares_append_left ['-'] ?_)
    refine compares_append ?_ hmonth (compares_append_left ['-'] hday)
    rw [length_digits, length_digits]
  · simp only [Date.text, List.length_append, List.length_cons, length_digits, hlen]

theorem clock_text_order (c e : Clock) :
    (cmp c.number e.number).Compares c.text e.text ∧ c.text.length = e.text.length := by
  have hch := c.hour.isLt
  have hcm := c.minute.isLt
  have heh := e.hour.isLt
  have hem := e.minute.isLt
  have hhour : (cmp c.hour.val e.hour.val).Compares (digits 2 c.hour.val) (digits 2 e.hour.val) :=
    compares_digits (by omega) (by omega)
  have hminute : (cmp c.minute.val e.minute.val).Compares (digits 2 c.minute.val)
      (digits 2 e.minute.val) := compares_digits (by omega) (by omega)
  have hsecond : (cmp c.second.val e.second.val).Compares (digits 2 c.second.val)
      (digits 2 e.second.val) :=
    compares_digits (Nat.lt_trans c.second.isLt (by decide))
      (Nat.lt_trans e.second.isLt (by decide))
  have hcast : ∀ a b : ℕ, cmp (a : ℤ) b = cmp a b := fun a b => cmp_congr (by omega) (by omega)
  refine ⟨?_, ?_⟩
  · rw [clock_order, cmp_scale (by omega) (by omega) (by omega) (by omega), hcast, hcast,
      Ordering.then_assoc, Clock.text, Clock.text]
    refine compares_append ?_ hhour (compares_append_left [':'] ?_)
    · rw [length_digits, length_digits]
    · refine compares_append ?_ hminute (compares_append_left [':'] hsecond)
      rw [length_digits, length_digits]
  · simp only [Clock.text, List.length_append, List.length_cons, length_digits]

/-- How a capital `T` compares with a separator. -/
def Separator.order : Separator → Ordering
  | .upper => .eq
  | .lower => .lt
  | .space => .gt

theorem separator_order (s : Separator) : s.order.Compares 'T' s.char := by
  cases s with
  | upper => exact rfl
  | lower => exact (by decide : 'T' < 't')
  | space => exact (by decide : ' ' < 'T')

/-- **Texts are compared by the date, the separator, the time of day up to the second,
    and the tails.** -/
theorem text_order {r q : Written} (hr : r.date.FourDigits) (hq : q.date.FourDigits)
    (hsep : r.separator = .upper) {o : Ordering}
    (h : o.Compares (tail r.clock.fraction r.zone) (tail q.clock.fraction q.zone)) :
    ((cmp r.date.number q.date.number).then
      (q.separator.order.then ((cmp r.clock.number q.clock.number).then o))).Compares
      r.text q.text := by
  obtain ⟨hdate, hdlen⟩ := date_order hr hq
  obtain ⟨hclock, hclen⟩ := clock_text_order r.clock q.clock
  have hseparator : q.separator.order.Compares r.separator.char q.separator.char := by
    rw [hsep]
    exact separator_order q.separator
  exact compares_append hdlen hdate
    (compares_cons hseparator (compares_append hclen hclock h))

/-! ## Tails -/

/-- A fraction with more digits, as a text. -/
theorem fraction_grows (f t : Fraction) (x : Fin 10) : ∃ c rest,
    fractionText (f ++ x :: t) = fractionText f ++ c :: rest
      ∧ '+' < c ∧ '-' < c ∧ c < 'Z' ∧ c < 'z' := by
  have hdigit : ∀ x : Fin 10, '+' < Nat.digitChar x.val ∧ '-' < Nat.digitChar x.val
      ∧ Nat.digitChar x.val < 'Z' ∧ Nat.digitChar x.val < 'z' := by decide
  cases f with
  | nil => exact ⟨'.', fractionDigits (x :: t), rfl, by decide⟩ -- the point comes first
  | cons d f =>
      refine ⟨Nat.digitChar x.val, fractionDigits t, ?_, hdigit x⟩
      rw [fractionText, fractionText, if_neg (List.append_ne_nil_of_left_ne_nil (by simp) _),
        if_neg (List.cons_ne_nil d f), fractionDigits, fractionDigits, List.map_append]
      rfl

/-- The offset of UTC comes first of those to the east. -/
theorem utc_lt_east {hour : Fin 24} {minute : Fin 60} (h : Zone.numeric false hour minute ≠ .utc) :
    Zone.utc.text < (Zone.numeric false hour minute).text := by
  have hhour : (cmp 0 hour.val).Compares (digits 2 0) (digits 2 hour.val) :=
    compares_digits (by decide) (Nat.lt_trans hour.isLt (by decide))
  have hminute : (cmp 0 minute.val).Compares (digits 2 0) (digits 2 minute.val) :=
    compares_digits (by decide) (Nat.lt_trans minute.isLt (by decide))
  -- `00:00` is less than any other offset
  have horder : (cmp 0 hour.val).then (cmp 0 minute.val) = .lt := by
    rcases Nat.eq_zero_or_pos hour.val with hzero | hpos
    · have hmpos : 0 < minute.val := by
        refine Nat.pos_of_ne_zero (fun hm => h ?_)
        rw [Zone.utc, Fin.ext hzero (b := 0), Fin.ext hm (b := 0)]
      rw [hzero, cmp_self_eq_eq, hmpos.cmp_eq_lt]
      rfl
    · rw [hpos.cmp_eq_lt]
      rfl
  have hlen : (digits 2 0).length = (digits 2 hour.val).length := by
    rw [length_digits, length_digits]
  have htext := compares_append hlen hhour (compares_append_left [':'] hminute)
  rw [horder] at htext
  exact compares_append_left (o := .lt) ['+'] htext

theorem zone_order (z : Zone) :
    (if z = .utc then Ordering.eq else .lt).Compares Zone.utc.text z.text := by
  split_ifs with h
  · exact congrArg Zone.text h.symm
  · cases z with
    | letter upper =>
        cases upper with
        | false => exact List.cons_lt_cons_iff.mpr (Or.inl (by decide : '+' < 'z'))
        | true => exact List.cons_lt_cons_iff.mpr (Or.inl (by decide : '+' < 'Z'))
    | numeric west hour minute =>
        cases west with
        | true => exact List.cons_lt_cons_iff.mpr (Or.inl (by decide : '+' < '-'))
        | false => exact utc_lt_east h

/-- Tails with one fraction are compared by the offsets. -/
theorem tail_same (f : Fraction) (z : Zone) :
    (if z = .utc then Ordering.eq else .lt).Compares (tail f .utc) (tail f z) :=
  compares_append_left (fractionText f) (zone_order z)

/-- A fraction that goes on comes behind the offset of UTC. -/
theorem tail_shorter (f t : Fraction) (x : Fin 10) (z : Zone) :
    tail f .utc < tail (f ++ x :: t) z := by
  obtain ⟨c, rest, htext, hplus, -, -, -⟩ := fraction_grows f t x
  rw [tail, tail, htext, List.append_assoc]
  refine compares_append_left (o := .lt) (fractionText f) ?_
  exact List.cons_lt_cons_iff.mpr (Or.inl hplus)

/-- It comes behind all numeric offsets, and before the letters. -/
theorem tail_longer (g t : Fraction) (x : Fin 10) (z : Zone) :
    (z.IsLetter → tail (g ++ x :: t) .utc < tail g z)
      ∧ (¬ z.IsLetter → tail g z < tail (g ++ x :: t) .utc) := by
  obtain ⟨c, rest, htext, hplus, hminus, hupper, hlower⟩ := fraction_grows g t x
  rw [tail, tail, htext, List.append_assoc]
  cases z with
  | letter upper =>
      refine ⟨fun _ => ?_, fun h => absurd ⟨upper, rfl⟩ h⟩
      refine compares_append_left (o := .lt) (fractionText g) ?_
      cases upper with
      | false => exact List.cons_lt_cons_iff.mpr (Or.inl hlower)
      | true => exact List.cons_lt_cons_iff.mpr (Or.inl hupper)
  | numeric west hour minute =>
      refine ⟨fun h => ?_, fun _ => ?_⟩
      · obtain ⟨upper, h⟩ := h
        cases h
      · refine compares_append_left (o := .lt) (fractionText g) ?_
        cases west with
        | false => exact List.cons_lt_cons_iff.mpr (Or.inl hplus)
        | true => exact List.cons_lt_cons_iff.mpr (Or.inl hminus)

/-- Fractions that part are compared by the digits at which they do. -/
theorem tail_parts (p s t : Fraction) {x y : Fin 10} (h : x < y) (z z' : Zone) :
    tail (p ++ x :: s) z < tail (p ++ y :: t) z' := by
  have hne : ∀ d : Fin 10, ∀ u, p ++ d :: u ≠ [] :=
    fun d u => List.append_ne_nil_of_right_ne_nil p (List.cons_ne_nil d u)
  rw [tail, tail, fractionText, fractionText, if_neg (hne x s), if_neg (hne y t), fractionDigits,
    fractionDigits, List.map_append, List.map_append]
  rw [List.cons_append, List.cons_append, List.append_assoc, List.append_assoc]
  refine List.cons_lt_cons_iff.mpr (Or.inr ⟨rfl, compares_append_left (o := .lt) _ ?_⟩)
  exact List.cons_lt_cons_iff.mpr (Or.inl (digit_lt_digit x.isLt y.isLt h))

/-- The order of the tails of a time in UTC and of any other. -/
inductive TailOrder (f g : Fraction) (z : Zone) : Ordering → Prop where
  | same : f = g → TailOrder f g z (if z = .utc then .eq else .lt)
  | shorter : f <+: g → f ≠ g → TailOrder f g z .lt
  | letter : g <+: f → g ≠ f → z.IsLetter → TailOrder f g z .lt
  | longer : g <+: f → g ≠ f → ¬ z.IsLetter → TailOrder f g z .gt
  | parted : ¬ g <+: f → value f ≠ value g → TailOrder f g z (cmp (value f) (value g))

theorem not_prefix_of_parts {p s t : Fraction} {x y : Fin 10} (h : x ≠ y) :
    ¬ p ++ y :: t <+: p ++ x :: s := by
  rw [List.prefix_append_right_inj, List.cons_prefix_cons]
  exact fun hyx => h hyx.1.symm

theorem tail_order (f g : Fraction) (z : Zone) : ∃ o, TailOrder f g z o := by
  have hne : ∀ (f t : Fraction) x, f ≠ f ++ x :: t := fun f t x h => by simp at h
  rcases parts f g with rfl | ⟨x, t, rfl⟩ | ⟨x, t, rfl⟩ | ⟨p, x, y, s, t, hxy, rfl, rfl⟩
  · exact ⟨_, .same rfl⟩
  · exact ⟨.lt, .shorter (List.prefix_append f _) (hne f t x)⟩
  · by_cases hz : z.IsLetter
    · exact ⟨.lt, .letter (List.prefix_append g _) (hne g t x) hz⟩
    · exact ⟨.gt, .longer (List.prefix_append g _) (hne g t x) hz⟩
  · refine ⟨_, .parted (not_prefix_of_parts hxy) ?_⟩
    rcases Nat.lt_or_gt_of_ne (fun h => hxy (Fin.ext h)) with h | h
    · exact (value_lt_of_parts p s t h).ne
    · exact (value_lt_of_parts p t s h).ne'

/-- **Tails are compared in that order.** -/
theorem TailOrder.compares {f g : Fraction} {z : Zone} {o : Ordering} (h : TailOrder f g z o) :
    o.Compares (tail f .utc) (tail g z) := by
  -- a list that goes on behind another one
  have hgrows : ∀ {f g : Fraction}, f <+: g → f ≠ g → ∃ x t, g = f ++ x :: t := by
    rintro f g ⟨t, rfl⟩ hne
    cases t with
    | nil => exact absurd (List.append_nil f).symm hne
    | cons x t => exact ⟨x, t, rfl⟩
  cases h with
  | same hfg =>
      subst hfg
      exact tail_same f z
  | shorter hfg hne =>
      obtain ⟨x, t, rfl⟩ := hgrows hfg hne
      exact tail_shorter f t x z
  | letter hgf hne hz =>
      obtain ⟨x, t, rfl⟩ := hgrows hgf hne
      exact (tail_longer g t x z).1 hz
  | longer hgf hne hz =>
      obtain ⟨x, t, rfl⟩ := hgrows hgf hne
      exact (tail_longer g t x z).2 hz
  | parted hgf hne =>
      rcases parts f g with rfl | ⟨x, t, rfl⟩ | ⟨x, t, rfl⟩ | ⟨p, x, y, s, t, hxy, rfl, rfl⟩
      · exact absurd rfl hne
      · have hlt := lt_of_le_of_ne (value_le_append f (x :: t)) hne
        rw [hlt.cmp_eq_lt]
        exact tail_shorter f t x z
      · exact absurd (List.prefix_append g _) hgf
      · rcases Nat.lt_or_gt_of_ne (fun h => hxy (Fin.ext h)) with h | h
        · rw [(value_lt_of_parts p s t h).cmp_eq_lt]
          exact tail_parts p s t h .utc z
        · rw [(value_lt_of_parts p t s h).cmp_eq_gt]
          exact tail_parts p t s h z .utc

theorem value_le_of_begins {f g : Fraction} (h : f <+: g) : value f ≤ value g := by
  obtain ⟨t, rfl⟩ := h
  exact value_le_append f t

/-- Fractions that differ are in the order of their tails, unless the longer one meets
    a letter. -/
theorem TailOrder.of_value_ne {f g : Fraction} {z : Zone} {o : Ordering}
    (h : TailOrder f g z o) (hne : value f ≠ value g) :
    (o = cmp (value f) (value g) ∧ ¬ (z.IsLetter ∧ g <+: f))
      ∨ (o = .lt ∧ value g < value f ∧ z.IsLetter ∧ g <+: f) := by
  cases h with
  | same hfg => exact absurd (congrArg value hfg) hne
  | shorter hfg hdiff =>
      have hlt := lt_of_le_of_ne (value_le_of_begins hfg) hne
      refine Or.inl ⟨hlt.cmp_eq_lt.symm, fun hgf => hdiff ?_⟩
      exact hfg.eq_of_length (le_antisymm hfg.length_le hgf.2.length_le)
  | letter hgf _ hz =>
      exact Or.inr ⟨rfl, lt_of_le_of_ne (value_le_of_begins hgf) hne.symm, hz, hgf⟩
  | longer hgf _ hz =>
      have hlt := lt_of_le_of_ne (value_le_of_begins hgf) hne.symm
      exact Or.inl ⟨hlt.cmp_eq_gt.symm, fun h => hz h.1⟩
  | parted hgf _ => exact Or.inl ⟨rfl, fun h => hgf h.2⟩

theorem offset_of_letter {z : Zone} (h : z.IsLetter) : z.offset = 0 := by
  obtain ⟨upper, rfl⟩ := h
  rfl

/-- Of one value, tails are in the order of the offsets where they are the same text,
    or the longer one has the offset on its side. -/
theorem TailOrder.of_value_eq {f g : Fraction} {z : Zone} {o : Ordering}
    (h : TailOrder f g z o) (hval : value f = value g) :
    o = cmp z.offset 0 ↔ (z = .utc ∧ f = g) ∨ (z.offset < 0 ∧ f <+: g)
      ∨ (0 < z.offset ∧ g <+: f ∧ g ≠ f) := by
  cases h with
  | same hfg =>
      subst hfg
      split_ifs with hz
      · subst hz
        exact iff_of_true rfl (Or.inl ⟨rfl, rfl⟩)
      · rw [eq_comm, cmp_eq_lt_iff]
        simp [hz]
  | shorter hfg hdiff =>
      have hgf : ¬ g <+: f := fun hgf =>
        hdiff (hfg.eq_of_length (le_antisymm hfg.length_le hgf.length_le))
      rw [eq_comm, cmp_eq_lt_iff]
      simp [hdiff, hfg, hgf]
  | letter hgf hdiff hz =>
      have hfg : ¬ f <+: g := fun hfg =>
        hdiff (hgf.eq_of_length (le_antisymm hgf.length_le hfg.length_le))
      rw [offset_of_letter hz]
      simp [hdiff.symm]
  | longer hgf hdiff hz =>
      have hfg : ¬ f <+: g := fun hfg =>
        hdiff (hgf.eq_of_length (le_antisymm hgf.length_le hfg.length_le))
      rw [eq_comm, cmp_eq_gt_iff]
      simp [hdiff, hdiff.symm, hgf, hfg]
  | parted _ hne => exact absurd hval hne

/-! ## ASCII -/

/-- The text has characters of ASCII only. -/
def Ascii (s : Text) : Prop := ∀ c ∈ s, c.toNat < 128

theorem Ascii.cons {c : Char} {s : Text} (hc : c.toNat < 128) (hs : Ascii s) : Ascii (c :: s) :=
  List.forall_mem_cons.mpr ⟨hc, hs⟩

theorem Ascii.append {s t : Text} (hs : Ascii s) (ht : Ascii t) : Ascii (s ++ t) :=
  List.forall_mem_append.mpr ⟨hs, ht⟩

theorem ascii_digits (w n : ℕ) : Ascii (digits w n) := by
  induction w generalizing n with
  | zero => exact fun c hc => absurd hc List.not_mem_nil
  | succ w ih =>
      refine (ih (n / 10)).append (Ascii.cons ?_ (fun c hc => absurd hc List.not_mem_nil))
      have hlt := Nat.mod_lt n (show 0 < 10 by decide)
      rw [toNat_digit hlt]
      omega

theorem ascii_year (y : ℤ) : Ascii (yearText y) := by
  rw [yearText]
  split_ifs
  · exact ascii_digits 4 y.toNat
  all_goals
    refine Ascii.cons (by decide) (Ascii.append (fun c hc => ?_) (fun c hc => ?_))
    · rw [List.eq_of_mem_replicate hc]
      decide
    · have hdigit := Nat.isDigit_of_mem_toDigits (by decide) (by decide) hc
      exact Nat.lt_of_le_of_lt (Char.isDigit_iff_toNat.mp hdigit).2 (by decide)

theorem ascii_zone (z : Zone) : Ascii z.text := by
  cases z with
  | letter upper =>
      cases upper <;> exact Ascii.cons (by decide) (fun c hc => absurd hc List.not_mem_nil)
  | numeric west hour minute =>
      refine Ascii.cons ?_ ((ascii_digits _ _).append (Ascii.cons (by decide) (ascii_digits _ _)))
      split_ifs <;> decide

theorem ascii_tail (f : Fraction) (z : Zone) : Ascii (tail f z) := by
  refine Ascii.append ?_ (ascii_zone z)
  rw [fractionText]
  split_ifs
  · exact fun c hc => absurd hc List.not_mem_nil
  · -- a point and digits
    refine Ascii.cons (by decide) (fun c hc => ?_)
    obtain ⟨d, -, rfl⟩ := List.mem_map.mp hc
    have hd := d.isLt
    rw [toNat_digit hd]
    omega

theorem ascii_text (w : Written) : Ascii w.text := by
  have hdate : Ascii w.date.text := (ascii_year _).append (Ascii.cons (by decide)
    ((ascii_digits _ _).append (Ascii.cons (by decide) (ascii_digits _ _))))
  have hclock : Ascii w.clock.text := (ascii_digits _ _).append (Ascii.cons (by decide)
    ((ascii_digits _ _).append (Ascii.cons (by decide) (ascii_digits _ _))))
  refine hdate.append (Ascii.cons ?_ (hclock.append (ascii_tail _ _)))
  cases w.separator <;> decide

/-- Bytes of ASCII texts are in the order of the texts. -/
theorem encode_lt {s t : Text} (hs : Ascii s) (ht : Ascii t) (h : s < t) :
    encode s < encode t := by
  induction s generalizing t with
  | nil =>
      cases t with
      | nil => exact absurd h (List.not_lt_nil [])
      | cons d t =>
          rw [encode_ascii (ht d List.mem_cons_self)]
          exact List.nil_lt_cons _ _
  | cons c s ih =>
      cases t with
      | nil => exact absurd h (List.not_lt_nil _)
      | cons d t =>
          obtain ⟨hc, hs'⟩ := List.forall_mem_cons.mp hs
          obtain ⟨hd, ht'⟩ := List.forall_mem_cons.mp ht
          rw [encode_ascii hc, encode_ascii hd, List.cons_lt_cons_iff]
          rcases List.cons_lt_cons_iff.mp h with hcd | ⟨rfl, hst⟩
          · -- a byte of ASCII is the number of its character
            left
            have hcd : c.toNat < d.toNat := hcd
            rw [UInt8.lt_iff_toNat_lt, asciiByte, asciiByte, UInt8.toNat_ofNat',
              UInt8.toNat_ofNat', Nat.mod_eq_of_lt (by omega), Nat.mod_eq_of_lt (by omega)]
            exact hcd
          · exact Or.inr ⟨rfl, ih hs' ht' hst⟩

theorem encode_order {r q : Written} {o : Ordering} (h : o.Compares r.text q.text) :
    o.Compares (encode r.text) (encode q.text) := by
  cases o with
  | lt => exact encode_lt (ascii_text r) (ascii_text q) h
  | eq => exact congrArg encode h
  | gt => exact encode_lt (ascii_text q) (ascii_text r) h

end Rfc3339
