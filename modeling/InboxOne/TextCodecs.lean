import Mathlib.Data.Nat.Notation
import Mathlib.Tactic.IntervalCases

/-!
Texts that carry numbers and bytes: decimal digits of fixed or natural width, and
base64 with the URL-safe alphabet. Each reader undoes its writer.
-/
namespace TextCodecs

def digitChar (d : Nat) : Char := Char.ofNat (48 + d)

def digitValue (c : Char) : Option Nat :=
  if 48 ≤ c.toNat ∧ c.toNat ≤ 57 then some (c.toNat - 48) else none

theorem digit_char_value {d : Nat} (small : d < 10) : digitValue (digitChar d) = some d := by
  interval_cases d <;> rfl

/-- The last w decimal digits. -/
def padded : Nat → Nat → List Char
  | 0, _ => []
  | w + 1, n => padded w (n / 10) ++ [digitChar (n % 10)]

/-- Decimal digits without leading zeros; the fuel bounds their number. -/
def decimalDigits : Nat → Nat → List Char
  | 0, _ => []
  | fuel + 1, n => if n < 10 then [digitChar n] else decimalDigits fuel (n / 10) ++ [digitChar (n % 10)]

def decimal (n : Nat) : List Char := decimalDigits (n + 1) n

def pushDigit (n : Nat) (c : Char) : Option Nat := (digitValue c).map fun d => 10 * n + d

def readDigits (cs : List Char) : Option Nat := cs.foldlM pushDigit 0

theorem read_snoc (cs : List Char) {n d : Nat} (front : readDigits cs = some n) (small : d < 10) :
    readDigits (cs ++ [digitChar d]) = some (10 * n + d) := by
  unfold readDigits at front ⊢
  rw [List.foldlM_append, front]
  simp [pushDigit, digit_char_value small]

theorem padded_length (w n : Nat) : (padded w n).length = w := by
  induction w generalizing n with
  | zero => rfl
  | succ w ih => rw [padded, List.length_append, ih, List.length_singleton]

theorem read_padded (w : Nat) : ∀ {n : Nat}, n < 10 ^ w → readDigits (padded w n) = some n := by
  induction w with
  | zero =>
    intro n small
    have zero : n = 0 := by omega
    rw [zero]
    rfl
  | succ w ih =>
    intro n small
    have front := ih (show n / 10 < 10 ^ w by rw [Nat.pow_succ] at small; omega)
    rw [padded, read_snoc _ front (Nat.mod_lt n (by decide))]
    congr 1
    omega

theorem read_decimal_digits (fuel : Nat) : ∀ {n : Nat}, n < fuel →
    readDigits (decimalDigits fuel n) = some n := by
  induction fuel with
  | zero =>
    intro n small
    omega
  | succ fuel ih =>
    intro n small
    rw [decimalDigits]
    split
    · rename_i one
      have front : readDigits [] = some 0 := rfl
      have whole := read_snoc [] front one
      rw [Nat.mul_zero, Nat.zero_add, List.nil_append] at whole
      exact whole
    · rename_i more
      have front := ih (show n / 10 < fuel by omega)
      rw [read_snoc _ front (Nat.mod_lt n (by decide))]
      congr 1
      omega

theorem read_decimal (n : Nat) : readDigits (decimal n) = some n :=
  read_decimal_digits (n + 1) (Nat.lt_succ_self n)

/- A property of all digits holds of all characters that a writer uses. -/
theorem padded_chars {P : Char → Prop} (digits : ∀ d < 10, P (digitChar d)) (w : Nat) :
    ∀ n, ∀ c ∈ padded w n, P c := by
  induction w with
  | zero =>
    intro n c mem
    simp [padded] at mem
  | succ w ih =>
    intro n c mem
    rcases List.mem_append.mp mem with front | last
    · exact ih (n / 10) c front
    · rw [List.mem_singleton.mp last]
      exact digits _ (Nat.mod_lt n (by decide))

theorem decimal_digits_chars {P : Char → Prop} (digits : ∀ d < 10, P (digitChar d)) (fuel : Nat) :
    ∀ n, ∀ c ∈ decimalDigits fuel n, P c := by
  induction fuel with
  | zero =>
    intro n c mem
    simp [decimalDigits] at mem
  | succ fuel ih =>
    intro n c mem
    rw [decimalDigits] at mem
    split at mem
    · rename_i one
      rw [List.mem_singleton.mp mem]
      exact digits n one
    · rcases List.mem_append.mp mem with front | last
      · exact ih (n / 10) c front
      · rw [List.mem_singleton.mp last]
        exact digits _ (Nat.mod_lt n (by decide))

theorem decimal_chars {P : Char → Prop} (digits : ∀ d < 10, P (digitChar d)) (n : Nat) :
    ∀ c ∈ decimal n, P c :=
  decimal_digits_chars digits (n + 1) n

/-- A field of exactly w digits and what follows it. -/
def readField (w : Nat) (cs : List Char) : Option (Nat × List Char) :=
  if w ≤ cs.length then (readDigits (cs.take w)).map fun n => (n, cs.drop w) else none

theorem read_field_padded {w n : Nat} (small : n < 10 ^ w) (rest : List Char) :
    readField w (padded w n ++ rest) = some (n, rest) := by
  have long : w ≤ (padded w n ++ rest).length := by
    rw [List.length_append, padded_length]
    omega
  rw [readField, if_pos long, List.take_append_of_le_length (padded_length w n).ge,
    List.take_of_length_le (padded_length w n).le, read_padded w small, Option.map_some,
    List.drop_append_of_le_length (padded_length w n).ge,
    List.drop_of_length_le (padded_length w n).le, List.nil_append]

def expect (c : Char) : List Char → Option (List Char)
  | [] => none
  | first :: rest => if first = c then some rest else none

@[simp] theorem expect_cons (c : Char) (rest : List Char) : expect c (c :: rest) = some rest := by
  rw [expect, if_pos rfl]

/-- What stands before the first stop character, and what after it. -/
def readUntil (stop : Char) : List Char → Option (List Char × List Char)
  | [] => none
  | c :: rest =>
      if c = stop then some ([], rest)
      else (readUntil stop rest).map fun (front, after) => (c :: front, after)

theorem read_until_append {stop : Char} {front : List Char} (free : stop ∉ front)
    (after : List Char) : readUntil stop (front ++ stop :: after) = some (front, after) := by
  induction front with
  | nil => rw [List.nil_append, readUntil, if_pos rfl]
  | cons c front ih =>
    rw [List.mem_cons, not_or] at free
    rw [List.cons_append, readUntil, if_neg (Ne.symm free.1), ih free.2, Option.map_some]

def sextetChar (n : Nat) : Char :=
  if n < 26 then Char.ofNat (65 + n)
  else if n < 52 then Char.ofNat (71 + n)
  else if n < 62 then Char.ofNat (n - 4)
  else if n = 62 then '-'
  else '_'

def sextetValue (c : Char) : Option Nat :=
  if 65 ≤ c.toNat ∧ c.toNat ≤ 90 then some (c.toNat - 65)
  else if 97 ≤ c.toNat ∧ c.toNat ≤ 122 then some (c.toNat - 71)
  else if 48 ≤ c.toNat ∧ c.toNat ≤ 57 then some (c.toNat + 4)
  else if c = '-' then some 62
  else if c = '_' then some 63
  else none

theorem sextet_char_value {n : Nat} (small : n < 64) : sextetValue (sextetChar n) = some n := by
  interval_cases n <;> rfl

theorem sextet_char_not_pad {n : Nat} (small : n < 64) : sextetChar n ≠ '=' := by
  intro pad
  have value := sextet_char_value small
  rw [pad] at value
  contradiction

/-- `urlsafe_b64encode`. -/
def base64 : List UInt8 → List Char
  | [] => []
  | [a] => [sextetChar (a.toNat / 4), sextetChar (a.toNat % 4 * 16), '=', '=']
  | [a, b] =>
      [sextetChar (a.toNat / 4), sextetChar (a.toNat % 4 * 16 + b.toNat / 16),
        sextetChar (b.toNat % 16 * 4), '=']
  | a :: b :: c :: rest =>
      sextetChar (a.toNat / 4) :: sextetChar (a.toNat % 4 * 16 + b.toNat / 16) ::
        sextetChar (b.toNat % 16 * 4 + c.toNat / 64) :: sextetChar (c.toNat % 64) :: base64 rest

/-- `urlsafe_b64decode` on texts of whole groups in the alphabet. -/
def unbase64 : List Char → Option (List UInt8)
  | [] => some []
  | w :: x :: y :: z :: rest => do
      let w ← sextetValue w
      let x ← sextetValue x
      if z = '=' then
        if rest ≠ [] then none
        else if y = '=' then some [UInt8.ofNat (w * 4 + x / 16)]
        else
          let y ← sextetValue y
          some [UInt8.ofNat (w * 4 + x / 16), UInt8.ofNat (x % 16 * 16 + y / 4)]
      else
        let y ← sextetValue y
        let z ← sextetValue z
        let bytes ← unbase64 rest
        some (UInt8.ofNat (w * 4 + x / 16) :: UInt8.ofNat (x % 16 * 16 + y / 4) ::
          UInt8.ofNat (y % 4 * 64 + z) :: bytes)
  | _ => none

theorem ofNat_eq {n : Nat} {a : UInt8} (same : n = a.toNat) : UInt8.ofNat n = a := by
  rw [same, UInt8.ofNat_toNat]

theorem unbase64_base64 (bytes : List UInt8) : unbase64 (base64 bytes) = some bytes := by
  induction bytes using base64.induct with
  | case1 => rfl
  | case2 a =>
    have ha := a.toNat_lt
    have first := sextet_char_value (show a.toNat / 4 < 64 by omega)
    have second := sextet_char_value (show a.toNat % 4 * 16 < 64 by omega)
    have only := ofNat_eq (show a.toNat / 4 * 4 + a.toNat % 4 * 16 / 16 = a.toNat by omega)
    simp only [base64, unbase64, first, second, Option.bind_eq_bind, Option.bind_some, if_true,
      ne_eq, not_true_eq_false, if_false, only]
  | case3 a b =>
    have ha := a.toNat_lt
    have hb := b.toNat_lt
    have first := sextet_char_value (show a.toNat / 4 < 64 by omega)
    have second := sextet_char_value (show a.toNat % 4 * 16 + b.toNat / 16 < 64 by omega)
    have third := sextet_char_value (show b.toNat % 16 * 4 < 64 by omega)
    have notPad := sextet_char_not_pad (show b.toNat % 16 * 4 < 64 by omega)
    have one := ofNat_eq
      (show a.toNat / 4 * 4 + (a.toNat % 4 * 16 + b.toNat / 16) / 16 = a.toNat by omega)
    have two := ofNat_eq
      (show (a.toNat % 4 * 16 + b.toNat / 16) % 16 * 16 + b.toNat % 16 * 4 / 4 = b.toNat by omega)
    simp only [base64, unbase64, first, second, third, notPad, Option.bind_eq_bind,
      Option.bind_some, if_true, ne_eq, not_true_eq_false, if_false, one, two]
  | case4 a b c rest ih =>
    have ha := a.toNat_lt
    have hb := b.toNat_lt
    have hc := c.toNat_lt
    have first := sextet_char_value (show a.toNat / 4 < 64 by omega)
    have second := sextet_char_value (show a.toNat % 4 * 16 + b.toNat / 16 < 64 by omega)
    have third := sextet_char_value (show b.toNat % 16 * 4 + c.toNat / 64 < 64 by omega)
    have fourth := sextet_char_value (show c.toNat % 64 < 64 by omega)
    have notPad := sextet_char_not_pad (show c.toNat % 64 < 64 by omega)
    have one := ofNat_eq
      (show a.toNat / 4 * 4 + (a.toNat % 4 * 16 + b.toNat / 16) / 16 = a.toNat by omega)
    have two := ofNat_eq (show (a.toNat % 4 * 16 + b.toNat / 16) % 16 * 16 +
      (b.toNat % 16 * 4 + c.toNat / 64) / 4 = b.toNat by omega)
    have three := ofNat_eq
      (show (b.toNat % 16 * 4 + c.toNat / 64) % 4 * 64 + c.toNat % 64 = c.toNat by omega)
    simp only [base64, unbase64, first, second, third, fourth, if_neg notPad, ih,
      Option.bind_eq_bind, Option.bind_some, one, two, three]

end TextCodecs
