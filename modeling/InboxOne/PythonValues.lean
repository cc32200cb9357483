import Mathlib.Order.Basic

/- Exceptions and datetime values as the Python code sees them. A datetime is its
   clock reading in microseconds since 0001-01-01T00:00:00 with an optional offset
   from UTC; the year range 1 to 9999 is the bound of the clock. -/
namespace InboxPython

inductive PyException where
  | valueError (text : String)
  | typeError (text : String)
  | overflowError
  | stopIteration
  | integrityError
  | connectionError
  | imapClientError
  | messageNotFound
  | http (status : Nat) (detail : String)
  deriving DecidableEq, Repr

def dayMicros : Nat := 86400000000

/- datetime.max.toordinal() is 3652059. -/
def clockEnd : Nat := 3652059 * dayMicros

structure Clock where
  micros : Nat
  inside : micros < clockEnd
  deriving DecidableEq, Repr

theorem clock_micros_injective : Function.Injective Clock.micros := by
  intro a b same
  cases a; cases b
  simpa using same

structure Offset where
  micros : Int
  above : -(dayMicros : Int) < micros
  below : micros < dayMicros
  deriving DecidableEq, Repr

def utc : Offset := ⟨0, by decide, by decide⟩

structure Datetime where
  clock : Clock
  tzinfo : Option Offset
  deriving DecidableEq, Repr

/- The UTC clock reading of an aware datetime may lie outside the years 1 to 9999. -/
def utcMicros (clock : Clock) (offset : Offset) : Int := (clock.micros : Int) - offset.micros

def astimezoneUtc (clock : Clock) (offset : Offset) : Except PyException Clock :=
  if h : 0 ≤ utcMicros clock offset ∧ utcMicros clock offset < clockEnd then
    .ok ⟨(utcMicros clock offset).toNat, by omega⟩
  else .error .overflowError

/-- `UTCDateTime.process_bind_param`: what is stored is a naive UTC reading. -/
def processBindParam : Option Datetime → Except PyException (Option Clock)
  | none => .ok none
  | some ⟨clock, none⟩ => .ok (some clock)
  | some ⟨clock, some offset⟩ => (astimezoneUtc clock offset).map some

/-- `UTCDateTime.process_result_value`: UTC is attached again on the way out. -/
def processResultValue : Option Clock → Option Datetime
  | none => none
  | some clock => some ⟨clock, some utc⟩

/- A date that can be stored: missing, naive, or with a UTC reading in range. -/
def UtcRepresentable : Option Datetime → Prop
  | none => True
  | some ⟨_, none⟩ => True
  | some ⟨clock, some offset⟩ =>
      0 ≤ utcMicros clock offset ∧ utcMicros clock offset < clockEnd

instance (d : Option Datetime) : Decidable (UtcRepresentable d) :=
  match d with
  | none => isTrue trivial
  | some ⟨_, none⟩ => isTrue trivial
  | some ⟨clock, some offset⟩ => inferInstanceAs
      (Decidable (0 ≤ utcMicros clock offset ∧ utcMicros clock offset < clockEnd))

theorem bind_param_ok_iff (d : Option Datetime) :
    (∃ stored, processBindParam d = .ok stored) ↔ UtcRepresentable d := by
  match d with
  | none => simp [processBindParam, UtcRepresentable]
  | some ⟨clock, none⟩ => simp [processBindParam, UtcRepresentable]
  | some ⟨clock, some offset⟩ =>
    simp only [processBindParam, astimezoneUtc, UtcRepresentable]
    split
    · rename_i inside
      exact ⟨fun _ => inside, fun _ => ⟨_, rfl⟩⟩
    · rename_i outside
      refine ⟨?_, fun inside => absurd inside outside⟩
      rintro ⟨stored, eq⟩
      simp [Except.map] at eq

theorem astimezone_keeps_utc (clock : Clock) : astimezoneUtc clock utc = .ok clock := by
  have unchanged : utcMicros clock utc = clock.micros := Int.sub_zero _
  have inside : 0 ≤ utcMicros clock utc ∧ utcMicros clock utc < clockEnd := by
    have := clock.inside
    rw [unchanged]
    omega
  have reading : (utcMicros clock utc).toNat = clock.micros := by rw [unchanged]; rfl
  rw [astimezoneUtc, dif_pos inside, Except.ok.injEq]
  exact clock_micros_injective reading

/- What a column gives back can always be stored again, unchanged. -/
theorem bind_param_result_value (stored : Option Clock) :
    processBindParam (processResultValue stored) = .ok stored := by
  cases stored with
  | none => rfl
  | some clock => rw [processResultValue, processBindParam, astimezone_keeps_utc]; rfl

end InboxPython
