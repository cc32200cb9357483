/- The proleptic Gregorian calendar by day ordinals: day 1 is 1 January of year 1.
   The conversions follow the usual 400/100/4/1 year cycles. -/
namespace GregorianCalendar

def isLeap (year : Nat) : Bool := year % 4 == 0 && (year % 100 != 0 || year % 400 == 0)

def daysBeforeYear (year : Nat) : Nat :=
  let y := year - 1
  y * 365 + y / 4 - y / 100 + y / 400

def monthTable : List Nat := [0, 0, 31, 59, 90, 120, 151, 181, 212, 243, 273, 304, 334]

def daysBeforeMonth (leap : Bool) (month : Nat) : Nat :=
  monthTable.getD month 0 + if 2 < month && leap then 1 else 0

def ymd2ord (year month day : Nat) : Nat :=
  daysBeforeYear year + daysBeforeMonth (isLeap year) month + day

/- The month and day of the zero-based day number n of a year. The estimate is exact
   or one too large. -/
def monthDay (leap : Bool) (n : Nat) : Nat × Nat :=
  let month := (n + 50) / 32
  if n < daysBeforeMonth leap month then
    (month - 1, n - daysBeforeMonth leap (month - 1) + 1)
  else (month, n - daysBeforeMonth leap month + 1)

def ord2ymd (ordinal : Nat) : Nat × Nat × Nat :=
  let n := ordinal - 1
  let n400 := n / 146097
  let r400 := n % 146097
  let n100 := r400 / 36524
  let r100 := r400 % 36524
  let n4 := r100 / 1461
  let r4 := r100 % 1461
  let n1 := r4 / 365
  let day := r4 % 365
  let year := n400 * 400 + n100 * 100 + n4 * 4 + n1 + 1
  if n1 = 4 ∨ n100 = 4 then (year - 1, 12, 31)
  else (year, monthDay (n1 == 3 && (n4 != 24 || n100 == 3)) day)

theorem month_day_bounds (leap : Bool) (n : Nat) (inside : n < 365) :
    1 ≤ (monthDay leap n).1 ∧ (monthDay leap n).1 ≤ 12 ∧
      1 ≤ (monthDay leap n).2 ∧ (monthDay leap n).2 ≤ 31 := by
  revert n
  cases leap <;> decide +kernel

theorem month_day_position (leap : Bool) (n : Nat) (inside : n < 365) :
    daysBeforeMonth leap (monthDay leap n).1 + (monthDay leap n).2 = n + 1 := by
  revert n
  cases leap <;> decide +kernel

theorem cycle_year_days (a b c d : Nat) (hb : b < 4) (hc : c < 25) (hd : d < 4) :
    daysBeforeYear (a * 400 + b * 100 + c * 4 + d + 1) =
      146097 * a + 36524 * b + 1461 * c + 365 * d := by
  simp only [daysBeforeYear, Nat.add_sub_cancel]
  omega

theorem cycle_year_leap (a b c d : Nat) (hb : b < 4) (hc : c < 25) (hd : d < 4) :
    isLeap (a * 400 + b * 100 + c * 4 + d + 1) = (d == 3 && (c != 24 || b == 3)) := by
  have fourth : (a * 400 + b * 100 + c * 4 + d + 1) % 4 = (d + 1) % 4 := by omega
  have century : (a * 400 + b * 100 + c * 4 + d + 1) % 100 = (c * 4 + d + 1) % 100 := by omega
  have cycle : (a * 400 + b * 100 + c * 4 + d + 1) % 400 =
      (b * 100 + c * 4 + d + 1) % 400 := by omega
  simp only [isLeap, fourth, century, cycle]
  rw [Bool.eq_iff_iff]
  simp only [Bool.and_eq_true, Bool.or_eq_true, beq_iff_eq, bne_iff_ne]
  omega

theorem last_day_of_leap_year (year : Nat) (leap : isLeap year = true) :
    ymd2ord year 12 31 = daysBeforeYear year + 366 := by
  simp [ymd2ord, daysBeforeMonth, monthTable, leap]

/- Converting an ordinal to a date and back is the identity on every day. -/
theorem ord_ymd_ord (ordinal : Nat) (positive : 0 < ordinal) :
    ymd2ord (ord2ymd ordinal).1 (ord2ymd ordinal).2.1 (ord2ymd ordinal).2.2 = ordinal := by
  simp only [ord2ymd]
  generalize en : ordinal - 1 = n
  generalize ea : n / 146097 = a
  generalize er : n % 146097 = r400
  generalize eb : r400 / 36524 = b
  generalize es : r400 % 36524 = r100
  generalize ec : r100 / 1461 = c
  generalize et : r100 % 1461 = r4
  generalize ed : r4 / 365 = d
  generalize eu : r4 % 365 = day
  have hc : c < 25 := by omega
  by_cases endOfCycle : d = 4 ∨ b = 4
  · simp only [if_pos endOfCycle]
    by_cases century : b = 4
    · -- the last day of a 400-year cycle: year a * 400 + 400
      have shape : a * 400 + b * 100 + c * 4 + d + 1 - 1 = a * 400 + 3 * 100 + 24 * 4 + 3 + 1 := by
        omega
      have leap := cycle_year_leap a 3 24 3 (by decide) (by decide) (by decide)
      have days := cycle_year_days a 3 24 3 (by decide) (by decide) (by decide)
      rw [shape, last_day_of_leap_year _ leap, days]
      omega
    · -- the last day of a 4-year cycle that ends in a leap year
      have hd : d = 4 := by omega
      have hb : b < 4 := by omega
      have shape : a * 400 + b * 100 + c * 4 + d + 1 - 1 = a * 400 + b * 100 + c * 4 + 3 + 1 := by
        omega
      have leap : (c != 24 || b == 3) = true := by
        simp only [Bool.or_eq_true, bne_iff_ne, beq_iff_eq]
        omega
      rw [shape, last_day_of_leap_year _ (by rw [cycle_year_leap _ _ _ _ hb hc (by decide), leap]; rfl),
        cycle_year_days _ _ _ _ hb hc (by decide)]
      omega
  · have hd : d < 4 := by omega
    have hb : b < 4 := by omega
    have position := month_day_position (d == 3 && (c != 24 || b == 3)) day (by omega)
    simp only [if_neg endOfCycle, ymd2ord]
    rw [cycle_year_leap a b c d hb hc hd, cycle_year_days a b c d hb hc hd]
    omega

theorem ord2ymd_bounds (ordinal : Nat) (last : ordinal ≤ 3652059) :
    (ord2ymd ordinal).1 ≤ 9999 ∧ 1 ≤ (ord2ymd ordinal).2.1 ∧ (ord2ymd ordinal).2.1 ≤ 12 ∧
      1 ≤ (ord2ymd ordinal).2.2 ∧ (ord2ymd ordinal).2.2 ≤ 31 := by
  simp only [ord2ymd]
  split
  · simp only
    omega
  · have month := month_day_bounds
      (((ordinal - 1) % 146097 % 36524 % 1461 / 365 == 3) &&
        (((ordinal - 1) % 146097 % 36524 / 1461 != 24) ||
          ((ordinal - 1) % 146097 / 36524 == 3)))
      ((ordinal - 1) % 146097 % 36524 % 1461 % 365) (Nat.mod_lt _ (by decide))
    exact ⟨by omega, month⟩

end GregorianCalendar
