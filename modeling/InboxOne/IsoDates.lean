import InboxOne.Calendar
import InboxOne.PythonValues
import InboxOne.TextCodecs

/- datetime.isoformat and datetime.fromisoformat of the Python library. The reader takes
   the extended forms that the writer produces and no other spelling. -/
namespace InboxIsoDates
open InboxPython GregorianCalendar TextCodecs

def secondMicros : Nat := 1000000

/-- The optional `.ffffff` of a reading in microseconds. -/
def isoFraction (micros : Nat) : List Char :=
  if micros % secondMicros = 0 then [] else '.' :: padded 6 (micros % secondMicros)

def isoMinutes (micros : Nat) : List Char :=
  padded 2 (micros / (3600 * secondMicros)) ++ ':' ::
    padded 2 (micros / (60 * secondMicros) % 60)

def isoSeconds (micros : Nat) : List Char :=
  ':' :: padded 2 (micros / secondMicros % 60) ++ isoFraction micros

/-- An offset shows its seconds only when it has any. -/
def isoOffset (offset : Offset) : List Char :=
  let size := offset.micros.natAbs
  (if offset.micros < 0 then '-' else '+') :: isoMinutes size ++
    (if size % (60 * secondMicros) = 0 then [] else isoSeconds size)

def isoDate (ordinal : Nat) : List Char :=
  let (year, month, day) := ord2ymd ordinal
  padded 4 year ++ '-' :: padded 2 month ++ '-' :: padded 2 day

def isoZone : Option Offset → List Char
  | none => []
  | some offset => isoOffset offset

def isoformat (date : Datetime) : List Char :=
  let time := date.clock.micros % dayMicros
  isoDate (date.clock.micros / dayMicros + 1) ++ 'T' :: isoMinutes time ++ isoSeconds time ++
    isoZone date.tzinfo

def readFraction : List Char → Option (Nat × List Char)
  | '.' :: rest => readField 6 rest
  | rest => some (0, rest)

/-- Hours and minutes with optional seconds and microseconds, as one reading. -/
def readTime (cs : List Char) : Option (Nat × List Char) := do
  let (hours, rest) ← readField 2 cs
  let rest ← expect ':' rest
  let (minutes, rest) ← readField 2 rest
  match rest with
  | ':' :: rest =>
      let (seconds, rest) ← readField 2 rest
      let (micros, rest) ← readFraction rest
      if minutes < 60 ∧ seconds < 60 then
        some (((hours * 60 + minutes) * 60 + seconds) * secondMicros + micros, rest)
      else none
  | rest =>
      if minutes < 60 then some ((hours * 60 + minutes) * 60 * secondMicros, rest) else none

theorem offset_fits {size : Nat} (small : size < dayMicros) :
    (-(dayMicros : Int) < size ∧ (size : Int) < dayMicros) ∧
      -(dayMicros : Int) < -(size : Int) ∧ -(size : Int) < dayMicros := by
  omega

def readZone : List Char → Option (Option Offset)
  | [] => some none
  | sign :: rest => do
      let (size, rest) ← readTime rest
      if rest ≠ [] then none
      else if small : size < dayMicros then
        if sign = '+' then some (some ⟨size, (offset_fits small).1.1, (offset_fits small).1.2⟩)
        else if sign = '-' then some (some ⟨-size, (offset_fits small).2.1, (offset_fits small).2.2⟩)
        else none
      else none

/-- The ordinal of a date that exists: one that its ordinal leads back to. -/
def readDate (cs : List Char) : Option (Nat × List Char) := do
  let (year, rest) ← readField 4 cs
  let rest ← expect '-' rest
  let (month, rest) ← readField 2 rest
  let rest ← expect '-' rest
  let (day, rest) ← readField 2 rest
  if ord2ymd (ymd2ord year month day) = (year, month, day) then
    some (ymd2ord year month day, rest)
  else none

def fromisoformat (cs : List Char) : Option Datetime := do
  let (ordinal, rest) ← readDate cs
  let rest ← expect 'T' rest
  let (time, rest) ← readTime rest
  let tzinfo ← readZone rest
  if inside : time < dayMicros ∧ (ordinal - 1) * dayMicros + time < clockEnd then
    some ⟨⟨(ordinal - 1) * dayMicros + time, inside.2⟩, tzinfo⟩
  else none

/- What may follow a field: the reader of an optional part must not take it for its own. -/
def Ends (stops : List Char) (rest : List Char) : Prop := ∀ c ∈ stops, rest.head? ≠ some c

theorem read_fraction_absent {rest : List Char} (ends : Ends ['.'] rest) :
    readFraction rest = some (0, rest) := by
  cases rest with
  | nil => rfl
  | cons c rest =>
    rw [readFraction.eq_2]
    intro tail same
    rw [List.cons.injEq] at same
    exact ends '.' List.mem_cons_self (by rw [same.1]; rfl)

theorem read_iso_fraction (micros : Nat) {rest : List Char} (ends : Ends ['.'] rest) :
    readFraction (isoFraction micros ++ rest) = some (micros % secondMicros, rest) := by
  rw [isoFraction]
  split
  · rename_i whole
    rw [List.nil_append, read_fraction_absent ends, whole]
  · have small : micros % secondMicros < 10 ^ 6 := Nat.mod_lt _ (by decide)
    exact read_field_padded small rest

theorem read_iso_seconds {micros : Nat} (short : micros < 100 * 3600 * secondMicros)
    {rest : List Char} (ends : Ends ['.'] rest) :
    readTime (isoMinutes micros ++ (isoSeconds micros ++ rest)) = some (micros, rest) := by
  have hours : micros / (3600 * secondMicros) < 10 ^ 2 := by unfold secondMicros at *; omega
  have minutes : micros / (60 * secondMicros) % 60 < 60 := Nat.mod_lt _ (by decide)
  have seconds : micros / secondMicros % 60 < 60 := Nat.mod_lt _ (by decide)
  have sum : ((micros / (3600 * secondMicros) * 60 + micros / (60 * secondMicros) % 60) * 60 +
      micros / secondMicros % 60) * secondMicros + micros % secondMicros = micros := by
    unfold secondMicros at *
    omega
  simp only [isoMinutes, isoSeconds, List.append_assoc, List.cons_append, readTime,
    read_field_padded hours, read_field_padded (show _ < 10 ^ 2 from lt_trans minutes (by decide)),
    read_field_padded (show _ < 10 ^ 2 from lt_trans seconds (by decide)), expect_cons,
    read_iso_fraction micros ends, Option.bind_eq_bind, Option.bind_some, minutes, seconds,
    and_self, if_true, sum]

theorem read_iso_minutes {micros : Nat} (short : micros < 100 * 3600 * secondMicros)
    (whole : micros % (60 * secondMicros) = 0) :
    readTime (isoMinutes micros) = some (micros, []) := by
  have hours : micros / (3600 * secondMicros) < 10 ^ 2 := by unfold secondMicros at *; omega
  have minutes : micros / (60 * secondMicros) % 60 < 60 := Nat.mod_lt _ (by decide)
  have last := read_field_padded (show _ < 10 ^ 2 from lt_trans minutes (by decide)) []
  have sum : (micros / (3600 * secondMicros) * 60 + micros / (60 * secondMicros) % 60) * 60 *
      secondMicros = micros := by
    unfold secondMicros at *
    omega
  rw [List.append_nil] at last
  simp only [isoMinutes, readTime, read_field_padded hours, last, expect_cons,
    Option.bind_eq_bind, Option.bind_some, minutes, if_true, sum]

theorem read_iso_offset_size (size : Nat) (short : size < 100 * 3600 * secondMicros) :
    readTime (isoMinutes size ++
      (if size % (60 * secondMicros) = 0 then [] else isoSeconds size)) = some (size, []) := by
  split
  · rename_i whole
    rw [List.append_nil]
    exact read_iso_minutes short whole
  · have nothing : Ends ['.'] [] := by
      intro c _
      simp
    have read := read_iso_seconds short nothing
    rw [List.append_nil] at read
    exact read

theorem read_iso_zone (tzinfo : Option Offset) : readZone (isoZone tzinfo) = some tzinfo := by
  cases tzinfo with
  | none => rfl
  | some offset =>
    obtain ⟨micros, above, below⟩ := offset
    have inside : micros.natAbs < dayMicros := by omega
    have size := read_iso_offset_size micros.natAbs
      (by unfold secondMicros; unfold dayMicros at inside; omega)
    simp only [isoZone, isoOffset, List.cons_append, readZone, size, Option.bind_eq_bind,
      Option.bind_some, ne_eq, not_true_eq_false, if_false, dif_pos inside]
    by_cases negative : micros < 0
    · have same : -(micros.natAbs : Int) = micros := by omega
      simp only [if_pos negative, show ('-' : Char) ≠ '+' by decide, if_false, if_true, same]
    · have same : (micros.natAbs : Int) = micros := by omega
      simp only [if_neg negative, if_true, same]

theorem zone_ends (tzinfo : Option Offset) : Ends ['.'] (isoZone tzinfo) := by
  intro c mem
  rw [List.mem_singleton] at mem
  subst mem
  cases tzinfo with
  | none => simp [isoZone]
  | some offset =>
    simp only [isoZone, isoOffset, List.cons_append, List.head?_cons]
    split <;> simp

theorem read_iso_date {ordinal : Nat} (positive : 0 < ordinal) (last : ordinal ≤ 3652059)
    (rest : List Char) : readDate (isoDate ordinal ++ rest) = some (ordinal, rest) := by
  obtain ⟨years, _, months, _, days⟩ := ord2ymd_bounds ordinal last
  have back := ord_ymd_ord ordinal positive
  generalize shape : ord2ymd ordinal = date at years months days back
  obtain ⟨year, month, day⟩ := date
  simp only at years months days back
  simp only [isoDate, shape, List.append_assoc, List.cons_append, readDate,
    read_field_padded (show year < 10 ^ 4 by omega), expect_cons,
    read_field_padded (show month < 10 ^ 2 by omega),
    read_field_padded (show day < 10 ^ 2 by omega), Option.bind_eq_bind, Option.bind_some,
    back, if_true]

theorem fromisoformat_isoformat (date : Datetime) : fromisoformat (isoformat date) = some date := by
  obtain ⟨⟨micros, inside⟩, tzinfo⟩ := date
  have day : micros / dayMicros + 1 ≤ 3652059 := by
    unfold clockEnd dayMicros at *
    omega
  have time : micros % dayMicros < dayMicros := Nat.mod_lt _ (by decide)
  have short : micros % dayMicros < 100 * 3600 * secondMicros := by
    unfold secondMicros dayMicros at *
    omega
  have sum : (micros / dayMicros + 1 - 1) * dayMicros + micros % dayMicros = micros := by
    rw [Nat.add_sub_cancel, Nat.mul_comm, Nat.div_add_mod]
  simp only [isoformat, List.append_assoc, List.cons_append, fromisoformat,
    read_iso_date (Nat.succ_pos _) day, expect_cons, read_iso_seconds short (zone_ends tzinfo),
    read_iso_zone, Option.bind_eq_bind, Option.bind_some, sum, time, inside, and_self, dite_true]

/- The characters of an ISO date stand for themselves in a JSON string. -/
theorem isoformat_chars {P : Char → Prop} (digits : ∀ d < 10, P (digitChar d))
    (marks : ∀ c ∈ ['-', ':', '.', '+', 'T'], P c) (date : Datetime) :
    ∀ c ∈ isoformat date, P c := by
  have field (w n : Nat) : ∀ c ∈ padded w n, P c := padded_chars digits w n
  have fraction (n : Nat) : ∀ c ∈ isoFraction n, P c := by
    intro c mem
    unfold isoFraction at mem
    split at mem
    · simp at mem
    · rcases List.mem_cons.mp mem with dot | mem
      · exact dot ▸ marks '.' (by simp)
      · exact field _ _ c mem
  have minutes (n : Nat) : ∀ c ∈ isoMinutes n, P c := by
    intro c mem
    rcases List.mem_append.mp mem with mem | mem
    · exact field _ _ c mem
    · rcases List.mem_cons.mp mem with colon | mem
      · exact colon ▸ marks ':' (by simp)
      · exact field _ _ c mem
  have seconds (n : Nat) : ∀ c ∈ isoSeconds n, P c := by
    intro c mem
    rcases List.mem_append.mp mem with mem | mem
    · rcases List.mem_cons.mp mem with colon | mem
      · exact colon ▸ marks ':' (by simp)
      · exact field _ _ c mem
    · exact fraction n c mem
  have days (n : Nat) : ∀ c ∈ isoDate n, P c := by
    intro c mem
    simp only [isoDate, List.mem_append, List.mem_cons] at mem
    rcases mem with (mem | dash | mem) | dash | mem
    · exact field _ _ c mem
    · exact dash ▸ marks '-' (by simp)
    · exact field _ _ c mem
    · exact dash ▸ marks '-' (by simp)
    · exact field _ _ c mem
  have zone (z : Option Offset) : ∀ c ∈ isoZone z, P c := by
    intro c mem
    cases z with
    | none => simp [isoZone] at mem
    | some offset =>
      simp only [isoZone, isoOffset, List.cons_append, List.mem_cons, List.mem_append] at mem
      rcases mem with sign | mem | mem
      · subst sign
        split
        · exact marks '-' (by simp)
        · exact marks '+' (by simp)
      · exact minutes _ c mem
      · split at mem
        · simp at mem
        · exact seconds _ c mem
  intro c mem
  simp only [isoformat, List.mem_append, List.mem_cons] at mem
  rcases mem with ((mem | t | mem) | mem) | mem
  · exact days _ c mem
  · exact t ▸ marks 'T' (by simp)
  · exact minutes _ c mem
  · exact seconds _ c mem
  · exact zone _ c mem

end InboxIsoDates
