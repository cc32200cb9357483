import Mathlib.Data.List.Infix
import Mathlib.Tactic.IntervalCases

/-!
LIKE with an escape character, read in two steps: the pattern becomes a list of tokens
and the tokens are matched against the text. U+0000 is a character like any other, in the
pattern and in the text.
-/
namespace SqlLike

inductive Token where
  | run
  | one
  | exact (c : Char)
  | never
  deriving DecidableEq, Repr

def plainToken (c : Char) : Token :=
  if c = '%' then .run else if c = '_' then .one else .exact c

/-- The escaped character stands for itself; an escape at the end matches nothing. -/
def tokens (escape : Char) : List Char → List Token
  | [] => []
  | [c] => if c = escape then [.never] else [plainToken c]
  | c :: d :: rest =>
      if c = escape then .exact d :: tokens escape rest
      else plainToken c :: tokens escape (d :: rest)

def accepts : List Token → List Char → Bool
  | [], text => text.isEmpty
  | .run :: ts, text => text.tails.any (accepts ts)
  | .one :: _, [] => false
  | .one :: ts, _ :: rest => accepts ts rest
  | .exact _ :: _, [] => false
  | .exact c :: ts, d :: rest => c == d && accepts ts rest
  | .never :: _, _ => false

def like (escape : Char) (pattern text : List Char) : Bool := accepts (tokens escape pattern) text

/-- The last character is an escape with nothing behind it to escape. -/
def dangling (escape : Char) : List Char → Bool
  | [] => false
  | [c] => c == escape
  | c :: d :: rest => if c = escape then dangling escape rest else dangling escape (d :: rest)

/-- The case folding of a database without Unicode support: ASCII letters only. -/
def lower (text : List Char) : List Char := text.map Char.toLower

/-- `lower(a) LIKE lower(b) ESCAPE …`; NULL matches nothing. -/
def ilike (escape : Char) (pattern : List Char) : Option (List Char) → Bool
  | none => false
  | some text => like escape (lower pattern) (lower text)

/-- Puts the escape character before every character that a pattern gives a meaning. -/
def literalChar (escape c : Char) : List Char :=
  if c = escape ∨ c = '%' ∨ c = '_' then [escape, c] else [c]

def literal (escape : Char) (term : List Char) : List Char := term.flatMap (literalChar escape)

theorem tokens_escaped (escape d : Char) (rest : List Char) :
    tokens escape (escape :: d :: rest) = .exact d :: tokens escape rest := by
  rw [tokens, if_pos rfl]

theorem tokens_plain {escape c : Char} (plain : c ≠ escape) (rest : List Char) :
    tokens escape (c :: rest) = plainToken c :: tokens escape rest := by
  cases rest with
  | nil => rw [tokens.eq_2, if_neg plain, tokens]
  | cons d rest => rw [tokens, if_neg plain]

theorem tokens_literal (escape : Char) (term rest : List Char) :
    tokens escape (literal escape term ++ rest) = term.map Token.exact ++ tokens escape rest := by
  induction term with
  | nil => rfl
  | cons c term ih =>
    rw [literal, List.flatMap_cons, ← literal, List.append_assoc, List.map_cons, List.cons_append,
      literalChar]
    split
    · rw [List.cons_append, List.cons_append, List.nil_append, tokens_escaped, ih]
    · rename_i plain
      rw [not_or, not_or] at plain
      have itself : plainToken c = .exact c := by
        rw [plainToken, if_neg plain.2.1, if_neg plain.2.2]
      rw [List.cons_append, List.nil_append, tokens_plain plain.1, ih, itself]

theorem plain_never (c : Char) : plainToken c ≠ .never := by
  unfold plainToken
  split
  · simp
  · split <;> simp

theorem dangling_escaped (escape d : Char) (rest : List Char) :
    dangling escape (escape :: d :: rest) = dangling escape rest := by
  rw [dangling, if_pos rfl]

theorem dangling_plain {escape c : Char} (plain : c ≠ escape) (rest : List Char) :
    dangling escape (c :: rest) = dangling escape rest := by
  cases rest with
  | nil => simp [dangling, plain]
  | cons d rest => rw [dangling, if_neg plain]

/- The token that matches nothing comes from a dangling escape and from nowhere else. -/
theorem never_iff_dangling (escape : Char) (pattern : List Char) :
    Token.never ∈ tokens escape pattern ↔ dangling escape pattern = true := by
  fun_induction dangling escape pattern with
  | case1 => simp [tokens]
  | case2 c =>
    by_cases last : c = escape
    · simp [tokens, last]
    · simp [tokens, last, (plain_never c).symm]
  | case3 d rest ih => rw [tokens_escaped, List.mem_cons, or_iff_right nofun, ih]
  | case4 c d rest plain ih =>
    rw [tokens, if_neg plain, List.mem_cons, or_iff_right (plain_never c).symm, ih]

theorem dangling_literal (escape : Char) (term rest : List Char) :
    dangling escape (literal escape term ++ rest) = dangling escape rest := by
  induction term with
  | nil => rfl
  | cons c term ih =>
    rw [literal, List.flatMap_cons, ← literal, List.append_assoc, literalChar]
    split
    · rw [List.cons_append, List.cons_append, List.nil_append, dangling_escaped, ih]
    · rename_i plain
      rw [not_or] at plain
      rw [List.cons_append, List.nil_append, dangling_plain plain.1, ih]

/- The closing run stays a run: nothing before it escapes it. -/
theorem containing_not_dangling {escape : Char} (notRun : escape ≠ '%') (term : List Char) :
    dangling escape ('%' :: literal escape term ++ ['%']) = false := by
  rw [List.cons_append, dangling_plain (Ne.symm notRun), dangling_literal,
    dangling_plain (Ne.symm notRun), dangling]

theorem accepts_exact (term : List Char) (ts : List Token) : ∀ text : List Char,
    accepts (term.map Token.exact ++ ts) text = true ↔
      ∃ rest, text = term ++ rest ∧ accepts ts rest = true := by
  induction term with
  | nil =>
    intro text
    constructor
    · intro here
      exact ⟨text, rfl, here⟩
    · intro there
      obtain ⟨rest, same, here⟩ := there
      rw [List.nil_append] at same
      exact same ▸ here
  | cons c term ih =>
    intro text
    cases text with
    | nil => simp [accepts]
    | cons d text =>
      rw [List.map_cons, List.cons_append, accepts, Bool.and_eq_true, beq_iff_eq, ih]
      constructor
      · intro both
        obtain ⟨same, rest, shape, here⟩ := both
        exact ⟨rest, by rw [same, shape, List.cons_append], here⟩
      · intro there
        obtain ⟨rest, shape, here⟩ := there
        rw [List.cons_append, List.cons.injEq] at shape
        exact ⟨shape.1.symm, rest, shape.2, here⟩

theorem accepts_run (ts : List Token) (text : List Char) :
    accepts (.run :: ts) text = true ↔ ∃ rest, rest <:+ text ∧ accepts ts rest = true := by
  rw [accepts, List.any_eq_true]
  constructor
  · intro found
    obtain ⟨rest, mem, here⟩ := found
    exact ⟨rest, (List.mem_tails rest text).mp mem, here⟩
  · intro there
    obtain ⟨rest, suffix, here⟩ := there
    exact ⟨rest, (List.mem_tails rest text).mpr suffix, here⟩

/- A literal between two runs asks for a part of the text. -/
theorem like_containing {escape : Char} (notRun : escape ≠ '%') (term text : List Char) :
    like escape ('%' :: literal escape term ++ ['%']) text = true ↔ term <:+: text := by
  have last : tokens escape ['%'] = [.run] := by
    rw [tokens, if_neg (Ne.symm notRun)]
    rfl
  have shape : tokens escape ('%' :: literal escape term ++ ['%']) =
      .run :: (term.map Token.exact ++ [.run]) := by
    rw [List.cons_append, tokens_plain (Ne.symm notRun), tokens_literal, last]
    rfl
  have anything : ∀ rest, accepts [.run] rest = true := by
    intro rest
    exact (accepts_run [] rest).mpr ⟨[], List.nil_suffix, rfl⟩
  rw [like, shape, accepts_run]
  constructor
  · intro found
    obtain ⟨rest, ⟨front, whole⟩, here⟩ := found
    obtain ⟨after, split, _⟩ := (accepts_exact term [.run] rest).mp here
    exact ⟨front, after, by rw [List.append_assoc, ← split, whole]⟩
  · intro part
    obtain ⟨front, after, whole⟩ := part
    exact ⟨term ++ after, ⟨front, by rw [← List.append_assoc, whole]⟩,
      (accepts_exact term [.run] (term ++ after)).mpr ⟨after, rfl, anything after⟩⟩

theorem lower_letter {c : Char} (letter : 65 ≤ c.toNat ∧ c.toNat ≤ 90) :
    c.toLower.toNat = c.toNat + 32 := by
  have same : c = Char.ofNat c.toNat := (Char.ofNat_toNat c).symm
  obtain ⟨low, high⟩ := letter
  generalize c.toNat = n at low high same
  subst same
  interval_cases n <;> rfl

theorem lower_other {c : Char} (other : ¬ (65 ≤ c.toNat ∧ c.toNat ≤ 90)) : c.toLower = c := by
  unfold Char.toLower
  rw [dif_neg]
  intro inside
  exact other ⟨inside.1, inside.2⟩

/- Folding neither makes nor removes a character that is no letter. -/
theorem lower_eq_iff {d : Char} (upper : ¬ (65 ≤ d.toNat ∧ d.toNat ≤ 90))
    (small : ¬ (97 ≤ d.toNat ∧ d.toNat ≤ 122)) (c : Char) : c.toLower = d ↔ c = d := by
  by_cases letter : 65 ≤ c.toNat ∧ c.toNat ≤ 90
  · have folded := lower_letter letter
    constructor
    · intro same
      rw [same] at folded
      omega
    · intro same
      exact absurd (same ▸ letter) upper
  · rw [lower_other letter]

theorem lower_literal {escape : Char} (upper : ¬ (65 ≤ escape.toNat ∧ escape.toNat ≤ 90))
    (small : ¬ (97 ≤ escape.toNat ∧ escape.toNat ≤ 122)) (term : List Char) :
    lower (literal escape term) = literal escape (lower term) := by
  have each : ∀ c, lower (literalChar escape c) = literalChar escape c.toLower := by
    intro c
    have fixed : escape.toLower = escape := lower_other upper
    have percent : c.toLower = '%' ↔ c = '%' := lower_eq_iff (by decide) (by decide) c
    have underscore : c.toLower = '_' ↔ c = '_' := lower_eq_iff (by decide) (by decide) c
    simp only [literalChar, lower_eq_iff upper small, percent, underscore]
    split
    · rw [lower, List.map_cons, List.map_cons, List.map_nil, fixed]
    · rfl
  induction term with
  | nil => rfl
  | cons c term ih =>
    have append : ∀ front back, lower (front ++ back) = lower front ++ lower back := by
      intro front back
      exact List.map_append
    have folded : lower (c :: term) = c.toLower :: lower term := rfl
    rw [literal, List.flatMap_cons, ← literal, append, each, ih, folded, literal, literal,
      List.flatMap_cons]

theorem lower_containing {escape : Char} (upper : ¬ (65 ≤ escape.toNat ∧ escape.toNat ≤ 90))
    (small : ¬ (97 ≤ escape.toNat ∧ escape.toNat ≤ 122)) (term : List Char) :
    lower ('%' :: literal escape term ++ ['%']) = '%' :: literal escape (lower term) ++ ['%'] := by
  rw [← lower_literal upper small, lower, lower, List.map_append, List.map_cons]
  rfl

/- A part of the folded text is the folding of a part. -/
theorem lower_part_iff (term text : List Char) : lower term <:+: lower text ↔
    ∃ front part back, text = front ++ part ++ back ∧ lower part = lower term := by
  constructor
  · intro there
    obtain ⟨front, back, whole⟩ := there
    obtain ⟨before, rest, outer, left, last⟩ := List.map_eq_append_iff.mp whole.symm
    obtain ⟨first, part, inner, _, same⟩ := List.map_eq_append_iff.mp left
    exact ⟨first, part, rest, by rw [outer, inner], same⟩
  · intro there
    obtain ⟨front, part, back, whole, same⟩ := there
    refine ⟨lower front, lower back, ?_⟩
    rw [← same, whole, lower, lower, lower, lower, List.map_append, List.map_append]

/- Without regard to ASCII case, the term is a part of the text. -/
theorem ilike_containing {escape : Char} (upper : ¬ (65 ≤ escape.toNat ∧ escape.toNat ≤ 90))
    (small : ¬ (97 ≤ escape.toNat ∧ escape.toNat ≤ 122)) (notRun : escape ≠ '%')
    (term text : List Char) :
    ilike escape ('%' :: literal escape term ++ ['%']) (some text) = true ↔
      lower term <:+: lower text := by
  rw [ilike, lower_containing upper small, like_containing notRun]

end SqlLike
