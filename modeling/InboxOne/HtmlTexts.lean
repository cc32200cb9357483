import InboxOne.HtmlTokens

/-!
Texts inside HTML. A text in front of a boundary is read as its own characters if and only
if it has neither the beginning of a tag nor a reference in it; an escaped text always is.
What is read differently is read shorter, up to the first tag behind it.
-/
namespace HtmlTokens
open HttpHeaders (hexValue)

section Lengths

theorem tag_rest_shorter {place : TagPlace} {text inside rest : List Char}
    (found : tagRest place text = some (inside, rest)) : rest.length ≤ text.length := by
  induction text generalizing place inside with
  | nil =>
    rw [tagRest] at found
    contradiction
  | cons c text ih =>
    rw [tagRest] at found
    rw [List.length_cons]
    cases stepped : place.next c with
    | none =>
      rw [stepped] at found
      cases found
      omega
    | some next =>
      simp only [stepped] at found
      obtain ⟨⟨inside', rest'⟩, inner, same⟩ := Option.map_eq_some_iff.mp found
      cases same
      have := ih inner
      omega

theorem start_tag_shorter (text : List Char) : (startTag text).2.length ≤ text.length := by
  unfold startTag
  split
  · simp
  · rename_i inside rest found
    split
    · have dropped := List.length_dropWhile_le isNameChar text
      exact Nat.le_trans (tag_rest_shorter found) dropped
    · simp

theorem end_tag_shorter (text : List Char) : (endTag text).2.length ≤ text.length := by
  unfold endTag
  split
  · simp
  · rename_i inside rest found
    have dropped := List.length_dropWhile_le isNameChar text
    exact Nat.le_trans (tag_rest_shorter found) dropped

theorem after_bogus_shorter (text : List Char) : (afterBogus text).length ≤ text.length := by
  have dropped := List.length_dropWhile_le (· != '>') text
  rw [afterBogus, List.length_tail]
  omega

theorem after_comment_shorter (text : List Char) : (afterComment text).length ≤ text.length := by
  induction text with
  | nil => exact Nat.le_refl _
  | cons c rest ih =>
    rw [afterComment, List.length_cons]
    split
    · rw [List.length_drop]
      omega
    · split
      · rw [List.length_drop]
        omega
      · omega

theorem declaration_shorter (text : List Char) :
    (declarationRest text).length ≤ text.length := by
  unfold declarationRest
  split
  · rw [List.length_drop]
    omega
  · split
    · rw [List.length_drop]
      omega
    · split
      · have := after_comment_shorter (text.drop 2)
        rw [List.length_drop] at this
        omega
      · exact after_bogus_shorter text

theorem closing_shorter (text : List Char) : (closing text).2.length ≤ text.length := by
  cases text with
  | nil => exact Nat.le_refl _
  | cons c rest =>
    rw [closing]
    split
    · exact end_tag_shorter _
    · split
      · exact Nat.le_succ _
      · exact after_bogus_shorter _

theorem markup_shorter (text : List Char) : (markup text).2.length ≤ text.length := by
  cases text with
  | nil => exact Nat.le_refl _
  | cons c rest =>
    rw [markup]
    split
    · exact start_tag_shorter _
    · split
      · exact Nat.le_succ_of_le (closing_shorter rest)
      · split
        · exact Nat.le_succ_of_le (declaration_shorter rest)
        · split
          · exact Nat.le_succ_of_le (after_bogus_shorter rest)
          · exact Nat.le_refl _

theorem numbered_shorter {base : Nat} {isDigit : Char → Bool} {text expansion after : List Char}
    (found : numbered base isDigit text = some (expansion, after)) :
    expansion.length + after.length ≤ text.length := by
  unfold numbered at found
  split at found
  · contradiction
  · rename_i some
    cases found
    have whole := congrArg List.length (List.takeWhile_append_dropWhile (p := isDigit) (l := text))
    have first := List.length_pos_iff.mpr some
    have last : (dropSemicolon (text.dropWhile isDigit)).length ≤ (text.dropWhile isDigit).length := by
      unfold dropSemicolon
      split
      · rw [List.length_tail]
        omega
      · exact Nat.le_refl _
    rw [List.length_append] at whole
    rw [List.length_singleton]
    omega

theorem named_shorter {names : CharacterNames} {text expansion after : List Char} {n : Nat}
    (bound : n ≤ text.length) (found : named names text n = some (expansion, after)) :
    expansion.length + after.length ≤ text.length := by
  induction n with
  | zero =>
    rw [named] at found
    contradiction
  | succ n ih =>
    rw [named] at found
    split at found
    · rename_i known
      cases found
      have short := names.shorter known
      rw [List.length_take] at short
      rw [List.length_drop]
      omega
    · exact ih (by omega) found

/-- A reference is shorter than its spelling with the ampersand. -/
theorem reference_shorter {names : CharacterNames} {text expansion after : List Char}
    (found : reference names text = some (expansion, after)) :
    expansion.length + after.length ≤ text.length := by
  have tails : ∀ t : List Char, t.tail.length ≤ t.length := by
    intro t
    rw [List.length_tail]
    omega
  unfold reference at found
  split at found
  · unfold numericReference at found
    have outer := tails text
    have inner := tails text.tail
    split at found
    · have := numbered_shorter found
      omega
    · have := numbered_shorter found
      omega
  · exact named_shorter (Nat.le_refl _) found

end Lengths

section Reading
variable (names : CharacterNames)

theorem item_shorter (c : Char) (rest : List Char) : (item names c rest).2.length ≤ rest.length := by
  unfold item
  split
  · exact markup_shorter rest
  · split
    · unfold ampersand
      split
      · rename_i found
        have := reference_shorter found
        simp only
        omega
      · exact Nat.le_refl _
    · exact Nat.le_refl _

theorem tokens_enough (fuel : Nat) : ∀ text : List Char, text.length ≤ fuel →
    tokens names fuel text = read names text := by
  induction fuel using Nat.strongRecOn with
  | ind fuel ih =>
    intro text enough
    cases text with
    | nil =>
      cases fuel with
      | zero => rfl
      | succ fuel => rfl
    | cons c rest =>
      cases fuel with
      | zero => exact absurd enough (Nat.not_succ_le_zero _)
      | succ fuel =>
        have short := item_shorter names c rest
        rw [List.length_cons] at enough
        rw [read, List.length_cons, tokens, tokens, ih fuel (by omega) _ (by omega)]
        congr 1
        by_cases same : rest.length = fuel
        · rw [same, ih fuel (by omega) _ (by omega)]
        · rw [ih rest.length (by omega) _ (by omega)]

theorem read_nil : read names [] = [] := rfl

theorem read_cons (c : Char) (rest : List Char) :
    read names (c :: rest) = (item names c rest).1 ++ read names (item names c rest).2 := by
  rw [read, List.length_cons, tokens, tokens_enough _ _ _ (item_shorter names c rest)]

theorem read_less (rest : List Char) :
    read names ('<' :: rest) = (markup rest).1 ++ read names (markup rest).2 := read_cons names '<' rest

theorem read_ampersand (rest : List Char) : read names ('&' :: rest) =
    (ampersand names rest).1 ++ read names (ampersand names rest).2 := read_cons names '&' rest

theorem read_char {c : Char} (less : c ≠ '<') (amp : c ≠ '&') (rest : List Char) :
    read names (c :: rest) = .char c :: read names rest := by
  rw [read_cons, item, if_neg less, if_neg amp]
  rfl

end Reading

/-- The characters up to the first tag. -/
def leading : List Token → List Char
  | .char c :: rest => c :: leading rest
  | _ => []

theorem leading_chars (text : List Char) (rest : List Token) :
    leading (chars text ++ rest) = text ++ leading rest := by
  induction text with
  | nil => rfl
  | cons c text ih => exact congrArg (c :: ·) ih

/-- No reference, tag or line end continues with this character. -/
def endsText (c : Char) : Bool := !c.isAlphanum && !"#;/!?>\n".toList.contains c

theorem ends_text_facts {c : Char} (ends : endsText c = true) :
    c.isAlphanum = false ∧ c ≠ '#' ∧ c ≠ ';' ∧ c ≠ '/' ∧ c ≠ '!' ∧ c ≠ '?' ∧ c ≠ '>' ∧
      c ≠ '\n' := by
  simp only [endsText, Bool.and_eq_true, Bool.not_eq_true', List.contains_eq_mem,
    decide_eq_false_iff_not] at ends
  refine ⟨ends.1, ?_, ?_, ?_, ?_, ?_, ?_, ?_⟩
  all_goals
    rintro rfl
    exact absurd ends.2 (by decide)

theorem hex_alphanumeric {c : Char} (hex : isHexDigit c = true) : c.isAlphanum = true := by
  simp only [isHexDigit, hexValue] at hex
  delta Char.isAlphanum Char.isAlpha Char.isUpper Char.isLower Char.isDigit
  simp only [Bool.or_eq_true, Bool.and_eq_true, decide_eq_true_eq, UInt32.le_iff_toNat_le,
    ge_iff_le]
  change ((65 ≤ c.toNat ∧ c.toNat ≤ 90) ∨ (97 ≤ c.toNat ∧ c.toNat ≤ 122)) ∨
    (48 ≤ c.toNat ∧ c.toNat ≤ 57)
  split at hex
  · omega
  · split at hex
    · omega
    · split at hex
      · omega
      · contradiction

section Boundary
variable {b : Char} {more : List Char}

theorem take_while_boundary {p : Char → Bool} (stop : p b = false) (text more : List Char) :
    (text ++ b :: more).takeWhile p = text.takeWhile p ∧
      (text ++ b :: more).dropWhile p = text.dropWhile p ++ b :: more := by
  induction text with
  | nil => simp [stop]
  | cons c text ih =>
    simp only [List.cons_append, List.takeWhile_cons, List.dropWhile_cons]
    split
    · exact ⟨congrArg (c :: ·) ih.1, ih.2⟩
    · exact ⟨rfl, rfl⟩

/-- The rest behind what was found, with the boundary behind it. -/
def followedBy (more : List Char) (found : List Char × List Char) : List Char × List Char :=
  (found.1, found.2 ++ more)

theorem drop_semicolon_boundary (ends : endsText b = true) (text : List Char) :
    dropSemicolon (text ++ b :: more) = dropSemicolon text ++ b :: more := by
  cases text with
  | nil =>
    have other := (ends_text_facts ends).2.2.1
    simp [dropSemicolon, other]
  | cons c text =>
    simp only [dropSemicolon, List.cons_append, List.head?_cons, Option.some.injEq, List.tail_cons]
    split
    · rfl
    · rfl

theorem numbered_boundary {base : Nat} {isDigit : Char → Bool} (ends : endsText b = true)
    (stop : isDigit b = false) (text : List Char) :
    numbered base isDigit (text ++ b :: more) =
      (numbered base isDigit text).map (followedBy (b :: more)) := by
  obtain ⟨taken, dropped⟩ := take_while_boundary stop text more
  unfold numbered
  rw [taken, dropped, drop_semicolon_boundary ends]
  split
  · rfl
  · rfl

theorem numeric_reference_boundary (ends : endsText b = true) (text : List Char) :
    numericReference (text ++ b :: more) =
      (numericReference text).map (followedBy (b :: more)) := by
  have alone := (ends_text_facts ends).1
  have noHex : isHexDigit b = false := Bool.eq_false_iff.mpr fun hex => by
    rw [hex_alphanumeric hex] at alone
    contradiction
  have noDigit : b.isDigit = false := by
    rw [Char.isAlphanum, Bool.or_eq_false_iff] at alone
    exact alone.2
  have noX : b ≠ 'x' ∧ b ≠ 'X' := by
    constructor
    · rintro rfl
      contradiction
    · rintro rfl
      contradiction
  cases text with
  | nil =>
    have lower : ¬ ((b :: more).head? = some 'x' ∨ (b :: more).head? = some 'X') := by
      simp [noX.1, noX.2]
    rw [List.nil_append, numericReference, if_neg lower]
    exact numbered_boundary ends noDigit []
  | cons c text =>
    simp only [numericReference, List.cons_append, List.head?_cons, Option.some.injEq, List.tail_cons]
    split
    · exact numbered_boundary ends noHex text
    · exact numbered_boundary ends noDigit (c :: text)

theorem name_chars {name : List Char} (isName : isReferenceName name = true) :
    ∀ c ∈ name, c.isAlphanum = true ∨ c = ';' := by
  intro c mem
  rw [isReferenceName, Bool.and_eq_true] at isName
  have spelled := List.all_eq_true.mp isName.2 c mem
  simpa using spelled

variable {names : CharacterNames}

theorem expand_boundary (ends : endsText b = true) {name : List Char} (mem : b ∈ name) :
    names.expand name = none := by
  obtain ⟨alone, _, semicolon, _⟩ := ends_text_facts ends
  cases known : names.expand name with
  | none => rfl
  | some expansion =>
    rcases name_chars (names.spelled known) b mem with letter | last
    · rw [letter] at alone
      contradiction
    · exact absurd last semicolon

theorem named_inside (text more : List Char) {n : Nat} (inside : n ≤ text.length) :
    named names (text ++ more) n = (named names text n).map (followedBy more) := by
  induction n with
  | zero => rfl
  | succ n ih =>
    rw [named, named, List.take_append_of_le_length inside, List.drop_append_of_le_length inside]
    cases names.expand (text.take (n + 1)) with
    | none => exact ih (by omega)
    | some expansion => rfl

/-- A name does not reach over the boundary. -/
theorem named_boundary (ends : endsText b = true) (text : List Char) {n : Nat}
    (outside : text.length ≤ n) : named names (text ++ b :: more) n =
      (named names text text.length).map (followedBy (b :: more)) := by
  induction n with
  | zero =>
    have empty : text = [] := List.length_eq_zero_iff.mp (Nat.le_zero.mp outside)
    rw [empty]
    rfl
  | succ n ih =>
    by_cases reached : text.length = n + 1
    · rw [← reached]
      exact named_inside text (b :: more) (Nat.le_refl _)
    · have mem : b ∈ (text ++ b :: more).take (n + 1) := by
        rw [List.take_append, List.mem_append]
        right
        have positive : n + 1 - text.length = (n - text.length) + 1 := by omega
        rw [positive, List.take_succ_cons]
        exact List.mem_cons_self
      rw [named, expand_boundary ends mem]
      exact ih (by omega)

theorem reference_boundary (ends : endsText b = true) (text : List Char) :
    reference names (text ++ b :: more) =
      (reference names text).map (followedBy (b :: more)) := by
  cases text with
  | nil =>
    have other := (ends_text_facts ends).2.1
    have head : ¬ (b :: more).head? = some '#' := by simp [other]
    rw [List.nil_append, reference, if_neg head]
    exact named_boundary ends [] (Nat.zero_le _)
  | cons c text =>
    unfold reference
    simp only [List.cons_append, List.head?_cons, Option.some.injEq, List.tail_cons]
    split
    · exact numeric_reference_boundary ends text
    · rw [← List.cons_append]
      exact named_boundary ends (c :: text) (by rw [List.length_append]; omega)

end Boundary

def opensMarkup : List Char → Bool
  | [] => false
  | c :: _ => c.isAlpha || c == '/' || c == '!' || c == '?'

/-- No tag, comment or declaration begins in the text, and no reference. -/
def isPlain (names : CharacterNames) : List Char → Bool
  | [] => true
  | c :: rest => !(c == '<' && opensMarkup rest) && !(c == '&' && (reference names rest).isSome) &&
      isPlain names rest

theorem alphabetic_alphanumeric {c : Char} (other : c.isAlphanum = false) : c.isAlpha = false := by
  rw [Char.isAlphanum, Bool.or_eq_false_iff] at other
  exact other.1

theorem markup_none {text : List Char} (closed : opensMarkup text = false) :
    markup text = ([.char '<'], text) := by
  cases text with
  | nil => rfl
  | cons c text =>
    simp only [opensMarkup, Bool.or_eq_false_iff, beq_eq_false_iff_ne] at closed
    obtain ⟨⟨⟨letter, slash⟩, bang⟩, question⟩ := closed
    rw [markup, letter, if_neg Bool.false_ne_true, if_neg slash, if_neg bang, if_neg question]

section Texts
variable {names : CharacterNames} {b : Char} {more : List Char}

theorem boundary_opens_nothing (ends : endsText b = true) : opensMarkup (b :: more) = false := by
  obtain ⟨other, _, _, slash, bang, question, _⟩ := ends_text_facts ends
  simp [opensMarkup, alphabetic_alphanumeric other, slash, bang, question]

/-- A character that begins nothing is itself. -/
theorem plain_head (ends : endsText b = true) {c : Char} {rest : List Char}
    (tag : ¬ (c = '<' ∧ opensMarkup rest = true))
    (named : ¬ (c = '&' ∧ (reference names rest).isSome = true)) :
    read names (c :: rest ++ b :: more) = .char c :: read names (rest ++ b :: more) := by
  by_cases less : c = '<'
  · have closed : opensMarkup (rest ++ b :: more) = false := by
      cases rest with
      | nil => exact boundary_opens_nothing ends
      | cons d rest => exact Bool.eq_false_iff.mpr fun opens => tag ⟨less, opens⟩
    rw [less, List.cons_append, read_less, markup_none closed]
    rfl
  · by_cases amp : c = '&'
    · have none : reference names rest = none := by
        cases found : reference names rest with
        | none => rfl
        | some found' => exact absurd ⟨amp, by rw [found]; rfl⟩ named
      rw [amp, List.cons_append, read_ampersand, ampersand, reference_boundary ends, none]
      rfl
    · exact read_char names less amp _

theorem is_plain_cons {c : Char} {rest : List Char} : isPlain names (c :: rest) = true ↔
    ¬ (c = '<' ∧ opensMarkup rest = true) ∧ ¬ (c = '&' ∧ (reference names rest).isSome = true) ∧
      isPlain names rest = true := by
  simp only [isPlain, Bool.and_eq_true, Bool.not_eq_true', ← Bool.not_eq_true, beq_iff_eq, and_assoc]

theorem plain_read (ends : endsText b = true) {text : List Char}
    (plain : isPlain names text = true) :
    read names (text ++ b :: more) = chars text ++ read names (b :: more) := by
  induction text with
  | nil => rfl
  | cons c rest ih =>
    obtain ⟨tag, named, inner⟩ := is_plain_cons.mp plain
    rw [plain_head ends tag named, ih inner]
    rfl

theorem start_tag_leading (text : List Char) :
    leading ((startTag text).1 ++ read names (startTag text).2) = [] := by
  unfold startTag
  split
  · rfl
  · split
    · rfl
    · rfl

theorem end_tag_leading (text : List Char) :
    leading ((endTag text).1 ++ read names (endTag text).2) = [] := by
  unfold endTag
  split
  · rfl
  · rfl

/-- How many characters there are up to the first tag. -/
def leadingLength (names : CharacterNames) (text : List Char) : Nat :=
  (leading (read names text)).length

/-- The text adds at most its own length. -/
def AddsLength (names : CharacterNames) (tail text : List Char) : Prop :=
  leadingLength names (text ++ tail) ≤ text.length + leadingLength names tail

/-- What opens a tag ends the leading characters, but for an end tag without a name. -/
theorem markup_length (ends : endsText b = true) {text : List Char}
    (opens : opensMarkup text = true)
    (shorter : ∀ t : List Char, t.length < text.length → AddsLength names (b :: more) t) :
    leadingLength names ('<' :: (text ++ b :: more)) ≤
      text.length + leadingLength names (b :: more) := by
  have ended : ∀ ts : List Token, leading ts = [] →
      (leading ts).length ≤ text.length + leadingLength names (b :: more) := by
    intro ts none
    rw [none]
    exact Nat.zero_le _
  rw [leadingLength, read_less]
  cases text with
  | nil => contradiction
  | cons c text =>
    rw [List.cons_append, markup]
    split
    · exact ended _ (start_tag_leading _)
    · rename_i letter
      split
      · cases text with
        | nil =>
          obtain ⟨other, _, _, _, _, _, greater, _⟩ := ends_text_facts ends
          rw [List.nil_append, closing, alphabetic_alphanumeric other,
            if_neg Bool.false_ne_true, if_neg greater]
          exact ended _ rfl
        | cons d text =>
          rw [List.cons_append, closing]
          split
          · exact ended _ (end_tag_leading _)
          · split
            · have inner := shorter text (by simp only [List.length_cons]; omega)
              rw [AddsLength, leadingLength] at inner
              simp only [List.nil_append, List.length_cons]
              omega
            · exact ended _ rfl
      · rename_i slash
        split
        · exact ended _ rfl
        · rename_i bang
          split
          · exact ended _ rfl
          · rename_i question
            simp [opensMarkup, letter, slash, bang, question] at opens

/-- Only a plain text adds as many characters as it has. -/
theorem inserted_length (ends : endsText b = true) (text : List Char) :
    AddsLength names (b :: more) text ∧
      (leadingLength names (text ++ b :: more) = text.length + leadingLength names (b :: more) →
        isPlain names text = true) := by
  induction measured : text.length using Nat.strongRecOn generalizing text with
  | ind size ih =>
    have shorter : ∀ t : List Char, t.length < text.length → AddsLength names (b :: more) t :=
      fun t less => (ih t.length (measured ▸ less) t rfl).1
    cases text with
    | nil =>
      refine ⟨?_, fun _ => rfl⟩
      rw [AddsLength, List.nil_append, List.length_nil, Nat.zero_add]
    | cons c rest =>
      rw [List.length_cons] at measured
      rw [AddsLength, List.length_cons, ← measured]
      have enough : leadingLength names (c :: rest ++ b :: more) ≤
          rest.length + leadingLength names (b :: more) →
          leadingLength names (c :: rest ++ b :: more) ≤
            rest.length + 1 + leadingLength names (b :: more) ∧
          (leadingLength names (c :: rest ++ b :: more) =
            rest.length + 1 + leadingLength names (b :: more) → isPlain names (c :: rest) = true) := by
        intro short
        exact ⟨by omega, fun same => by omega⟩
      by_cases tag : c = '<' ∧ opensMarkup rest = true
      · apply enough
        rw [tag.1, List.cons_append]
        exact markup_length ends tag.2 fun t less => shorter t (Nat.lt_succ_of_lt less)
      · by_cases named : c = '&' ∧ (reference names rest).isSome = true
        · apply enough
          obtain ⟨⟨expansion, after⟩, found⟩ := Option.isSome_iff_exists.mp named.2
          have short := reference_shorter found
          have inner := shorter after (by simp only [List.length_cons]; omega)
          rw [AddsLength, leadingLength] at inner
          rw [named.1, List.cons_append, leadingLength, read_ampersand, ampersand,
            reference_boundary ends, found]
          simp only [Option.map_some, followedBy, leading_chars, List.length_append]
          omega
        · obtain ⟨bound, whole⟩ := ih rest.length (by omega) rest rfl
          rw [AddsLength] at bound
          have longer : leadingLength names (c :: rest ++ b :: more) =
              leadingLength names (rest ++ b :: more) + 1 := by
            rw [leadingLength, plain_head ends tag named]
            rfl
          rw [longer]
          refine ⟨by omega, fun same => is_plain_cons.mpr ⟨tag, named, whole (by omega)⟩⟩

end Texts

end HtmlTokens
