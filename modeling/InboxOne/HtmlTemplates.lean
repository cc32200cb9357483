import InboxOne.HtmlTexts

/-!
HTML written from a template: fixed parts, and texts put between them raw or escaped.
There is a rule for each kind of part. It says when the part is shown as meant, and
leaves the question for what is behind it.
-/
namespace HtmlTokens

theorem normalise_append {more : List Char} (other : more.head? ≠ some '\n') (text : List Char) :
    normalise (text ++ more) = normalise text ++ normalise more := by
  induction text with
  | nil => rfl
  | cons c rest ih =>
    have heads : (rest ++ more).head? = some '\n' ↔ rest.head? = some '\n' := by
      cases rest with
      | nil => simp [other]
      | cons d rest => exact Iff.rfl
    simp only [List.cons_append, normalise, heads, ih]
    split
    · split
      · rfl
      · rfl
    · rfl

theorem normalise_literal {text : List Char} (lines : '\r' ∉ text) (more : List Char) :
    normalise (text ++ more) = text ++ normalise more := by
  induction text with
  | nil => rfl
  | cons c text ih =>
    rw [List.mem_cons, not_or] at lines
    rw [List.cons_append, normalise, if_neg (Ne.symm lines.1), ih lines.2]
    rfl

theorem normalise_length (text : List Char) : (normalise text).length ≤ text.length := by
  induction text with
  | nil => exact Nat.le_refl _
  | cons c rest ih =>
    rw [normalise]
    split
    · split
      · exact Nat.le_succ_of_le ih
      · exact Nat.succ_le_succ ih
    · exact Nat.succ_le_succ ih

theorem normalise_lines (text : List Char) : '\r' ∉ normalise text := by
  induction text with
  | nil => exact List.not_mem_nil
  | cons c rest ih =>
    rw [normalise]
    split
    · split
      · exact ih
      · simp [ih]
    · rename_i other
      rw [List.mem_cons, not_or]
      exact ⟨Ne.symm other, ih⟩

theorem normalise_same_iff {text : List Char} : normalise text = text ↔ '\r' ∉ text := by
  constructor
  · intro same
    rw [← same]
    exact normalise_lines text
  · intro lines
    have whole := normalise_literal lines []
    rwa [List.append_nil, normalise, List.append_nil] at whole

/-- The characters of a text that get into the document. -/
def kept : Bool → List Char → List Char
  | _, [] => []
  | fresh, c :: rest =>
      if c = nulChar ∨ (fresh = true ∧ c = '\n') then kept false rest else c :: kept false rest

theorem kept_sublist (fresh : Bool) (text : List Char) : (kept fresh text).Sublist text := by
  induction text generalizing fresh with
  | nil => exact List.Sublist.refl _
  | cons c rest ih =>
    rw [kept]
    split
    · exact (ih false).cons c
    · exact (ih false).cons_cons c

theorem kept_same_iff {fresh : Bool} {text : List Char} : kept fresh text = text ↔
    nulChar ∉ text ∧ (fresh = true → text.head? ≠ some '\n') := by
  induction text generalizing fresh with
  | nil => simp [kept]
  | cons c rest ih =>
    have short := (kept_sublist false rest).length_le
    rw [kept]
    split
    · rename_i dropped
      constructor
      · intro same
        have long := congrArg List.length same
        rw [List.length_cons] at long
        omega
      · rintro ⟨noNul, head⟩
        rcases dropped with nul | ⟨start, feed⟩
        · exact absurd (nul ▸ List.mem_cons_self) noNul
        · exact absurd (congrArg some feed) (head start)
    · rename_i stays
      rw [not_or, not_and] at stays
      rw [List.cons.injEq, ih, List.mem_cons, not_or]
      simp only [true_and, Bool.false_eq_true, false_implies, and_true, List.head?_cons,
        Option.some.injEq, ne_eq]
      exact ⟨fun inner => ⟨⟨Ne.symm stays.1, inner⟩, stays.2⟩, fun both => both.1.2⟩

/-- It is shown as it is: no carriage return, no NUL, and no line feed where it is dropped. -/
def Carried (fresh : Bool) (text : List Char) : Prop :=
  (∀ c ∈ text, c ≠ '\r' ∧ c ≠ nulChar) ∧ (fresh = true → text.head? ≠ some '\n')

theorem carried_normal {fresh : Bool} {text : List Char} (carried : Carried fresh text) :
    normalise text = text :=
  normalise_same_iff.mpr fun mem => (carried.1 _ mem).1 rfl

theorem carried_iff {fresh : Bool} {text : List Char} :
    kept fresh (normalise text) = text ↔ Carried fresh text := by
  constructor
  · intro same
    have lines : '\r' ∉ text := by
      intro mem
      rw [← same] at mem
      exact normalise_lines text ((kept_sublist _ _).subset mem)
    rw [normalise_same_iff.mpr lines] at same
    obtain ⟨noNul, head⟩ := kept_same_iff.mp same
    exact ⟨fun c mem => ⟨fun odd => lines (odd ▸ mem), fun odd => noNul (odd ▸ mem)⟩, head⟩
  · intro carried
    rw [carried_normal carried, kept_same_iff]
    exact ⟨fun mem => (carried.1 _ mem).2 rfl, carried.2⟩

theorem content_chars (fresh : Bool) (text : List Char) (rest : List Token) :
    content fresh (chars text ++ rest) =
      chars (kept fresh text) ++ content (fresh && text.isEmpty) rest := by
  induction text generalizing fresh with
  | nil =>
    rw [List.isEmpty_nil, Bool.and_true]
    rfl
  | cons c text ih =>
    have pushed : chars (c :: text) ++ rest = .char c :: (chars text ++ rest) := rfl
    rw [pushed, content, kept, List.isEmpty_cons, Bool.and_false]
    have next : content false (chars text ++ rest) =
        chars (kept false text) ++ content false rest := by
      rw [ih false, Bool.false_and]
    simp only [Token.char.injEq, opensPre, next]
    split
    · rfl
    · rfl

theorem content_fresh {rest : List Token} (other : rest.head? ≠ some (.char '\n')) (fresh : Bool) :
    content fresh rest = content false rest := by
  cases rest with
  | nil => simp only [content]
  | cons t rest =>
    have feed : t ≠ .char '\n' := fun same => other (congrArg some same)
    simp [content, feed]

theorem content_leading (fresh : Bool) (ts : List Token) :
    (leading (content fresh ts)).length ≤ (leading ts).length := by
  induction ts generalizing fresh with
  | nil => simp [content, leading]
  | cons t ts ih =>
    rw [content]
    split
    · rename_i dropped
      rcases dropped with rfl | ⟨_, rfl⟩
      · exact Nat.le_succ_of_le (ih false)
      · exact Nat.le_succ_of_le (ih false)
    · cases t with
      | char c => exact Nat.succ_le_succ (ih _)
      | start name inside => exact Nat.zero_le _
      | stop name => exact Nat.zero_le _
      | comment => exact Nat.zero_le _
      | unread text => exact Nat.zero_le _

theorem chars_injective {text text' : List Char} (same : chars text = chars text') :
    text = text' :=
  (List.map_inj_right fun _ _ h => Token.char.inj h).mp same

/-- A text that is read as its characters is shown if and only if it is carried. -/
theorem shown_iff {fresh : Bool} {text : List Char} {T E : List Token}
    (other : T.head? ≠ some (.char '\n')) (same : (leading E).length = (leading T).length) :
    content fresh (chars (normalise text) ++ T) = chars text ++ E ↔
      Carried fresh text ∧ content false T = E := by
  rw [content_chars, content_fresh other, ← carried_iff]
  constructor
  · intro shows
    have long := congrArg (fun ts => (leading ts).length) shows
    simp only [leading_chars, List.length_append] at long
    have behind := content_leading false T
    have inside := (kept_sublist fresh (normalise text)).length_le
    have normal := normalise_length text
    have front : (chars (kept fresh (normalise text))).length = (chars text).length := by
      rw [chars, chars, List.length_map, List.length_map]
      omega
    obtain ⟨texts, rests⟩ := List.append_inj shows front
    exact ⟨chars_injective texts, rests⟩
  · rintro ⟨keeps, rests⟩
    rw [keeps, rests]

section Escaping

def escapeChar (c : Char) : List Char :=
  if c = '&' then "&amp;".toList else if c = '<' then "&lt;".toList
  else if c = '>' then "&gt;".toList else [c]

def escape (text : List Char) : List Char := text.flatMap escapeChar

theorem escape_plain {c : Char} (amp : c ≠ '&') (less : c ≠ '<') (greater : c ≠ '>') :
    escapeChar c = [c] := by
  rw [escapeChar, if_neg amp, if_neg less, if_neg greater]

theorem escape_cons (c : Char) (text : List Char) :
    escape (c :: text) = escapeChar c ++ escape text := List.flatMap_cons

variable {names : CharacterNames} {letters tail expansion : List Char}

/-- Nothing in the table reaches over a semicolon. -/
theorem expand_over (c : Char) (more : List Char) :
    names.expand (letters ++ ';' :: c :: more) = none := by
  cases known : names.expand (letters ++ ';' :: c :: more) with
  | none => rfl
  | some expansion =>
    have spelled := names.spelled known
    rw [isReferenceName, Bool.and_eq_true, List.all_eq_true] at spelled
    have inner : ';' ∈ (letters ++ ';' :: c :: more).dropLast := by
      rw [List.dropLast_append_cons, List.dropLast_cons_cons]
      simp
    exact absurd (spelled.1 _ inner) (by decide)

theorem named_ends (known : names.expand (letters ++ [';']) = some expansion) {n : Nat}
    (enough : letters.length < n) (bound : n ≤ (letters ++ ';' :: tail).length) :
    named names (letters ++ ';' :: tail) n = some (expansion, tail) := by
  induction n with
  | zero => exact absurd enough (Nat.not_lt_zero _)
  | succ n ih =>
    rw [named, List.take_append, List.drop_append]
    rw [List.length_append, List.length_cons] at bound
    by_cases last : n = letters.length
    · have one : n + 1 - letters.length = 1 := by omega
      have all : letters.length ≤ n + 1 := by omega
      rw [one, List.take_of_length_le all, List.drop_of_length_le all]
      simp only [List.take_succ_cons, List.take_zero, known]
      rfl
    · have longer : ∃ k, n + 1 - letters.length = k + 2 := ⟨n + 1 - letters.length - 2, by omega⟩
      obtain ⟨k, longer⟩ := longer
      have all : letters.length ≤ n + 1 := by omega
      have more : ∃ c more, tail.take (k + 1) = c :: more := by
        cases tail with
        | nil =>
          simp only [List.length_nil] at bound
          omega
        | cons c tail => exact ⟨c, tail.take k, List.take_succ_cons⟩
      obtain ⟨c, more, taken⟩ := more
      rw [longer, List.take_of_length_le all, List.take_succ_cons, taken, expand_over]
      exact ih (by omega) (by rw [List.length_append, List.length_cons]; omega)

/-- A known name with its semicolon is one reference. -/
theorem read_known (letters tail : List Char) (known : names.expand (letters ++ [';']) = some expansion)
    (letter : (letters ++ ';' :: tail).head? ≠ some '#') :
    read names ('&' :: (letters ++ ';' :: tail)) = chars expansion ++ read names tail := by
  have found : reference names (letters ++ ';' :: tail) = some (expansion, tail) := by
    rw [reference, if_neg letter]
    exact named_ends known (by rw [List.length_append, List.length_cons]; omega) (Nat.le_refl _)
  rw [read_ampersand, ampersand, found]

theorem read_escaped_char (c : Char) (more : List Char) :
    read names (escapeChar c ++ more) = .char c :: read names more := by
  unfold escapeChar
  split
  · rename_i amp
    rw [amp]
    exact read_known "amp".toList more names.amp (by simp)
  · rename_i amp
    split
    · rename_i less
      rw [less]
      exact read_known "lt".toList more names.lt (by simp)
    · rename_i less
      split
      · rename_i greater
        rw [greater]
        exact read_known "gt".toList more names.gt (by simp)
      · exact read_char names less amp more

/-- Reading undoes escaping, whatever follows. -/
theorem read_escaped (text more : List Char) :
    read names (escape text ++ more) = chars text ++ read names more := by
  induction text with
  | nil => rfl
  | cons c text ih =>
    rw [escape_cons, List.append_assoc, read_escaped_char, ih]
    rfl

theorem escape_char_head (c : Char) (more : List Char) :
    (escapeChar c ++ more).head? = some '\n' ↔ c = '\n' := by
  unfold escapeChar
  split
  · rename_i amp
    simp [amp]
  · split
    · rename_i less
      simp [less]
    · split
      · rename_i greater
        simp [greater]
      · simp

/-- Escaping leaves the line ends alone. -/
theorem normalise_escape (text : List Char) : normalise (escape text) = escape (normalise text) := by
  induction text with
  | nil => rfl
  | cons c rest ih =>
    by_cases line : c = '\r'
    · have heads : (escape rest).head? = some '\n' ↔ rest.head? = some '\n' := by
        cases rest with
        | nil => exact Iff.rfl
        | cons d rest =>
          rw [escape_cons, escape_char_head, List.head?_cons, Option.some.injEq]
      have alone : escapeChar c = [c] := by rw [line]; rfl
      rw [escape_cons, alone, List.singleton_append, normalise, normalise, if_pos line, if_pos line]
      simp only [heads]
      split
      · exact ih
      · rw [ih]
        rfl
    · have lines : '\r' ∉ escapeChar c := by
        unfold escapeChar
        split
        · simp
        · split
          · simp
          · split
            · simp
            · simpa using Ne.symm line
      rw [escape_cons, normalise_literal lines, ih, normalise, if_neg line, escape_cons]

end Escaping

section Tags

/-- One attribute with its value in quotes. -/
def attributeText (a : List Char × List Char) : List Char :=
  ' ' :: (a.1 ++ '=' :: '"' :: (a.2 ++ ['"']))

def attributesText (attributes : List (List Char × List Char)) : List Char :=
  attributes.flatMap attributeText

def openTag (name : List Char) (attributes : List (List Char × List Char)) : List Char :=
  name ++ (attributesText attributes ++ ['>'])

def closeTag (name : List Char) : List Char := '/' :: (name ++ ['>'])

def isAttribute (a : List Char × List Char) : Bool :=
  !a.1.isEmpty && a.1.all (fun c => isNameChar c && c != '=') && a.2.all (· != '"')

/-- In lower case, and of an element that is known. -/
def isTagName (name : List Char) : Bool :=
  name.head?.any Char.isAlpha && name.all isNameChar && name.map Char.toLower == name &&
    isOrdinary name

def behind (front : List Char) (found : List Char × List Char) : List Char × List Char :=
  (front ++ found.1, found.2)

theorem tag_rest_step {place next : TagPlace} {c : Char} (step : place.next c = some next)
    (more : List Char) : tagRest place (c :: more) = (tagRest next more).map (behind [c]) := by
  rw [tagRest, step]
  rfl

theorem map_behind (front back : List Char) (found : Option (List Char × List Char)) :
    (found.map (behind back)).map (behind front) = found.map (behind (front ++ back)) := by
  cases found with
  | none => rfl
  | some found => simp [behind]

theorem tag_rest_run {place : TagPlace} {text : List Char}
    (stays : ∀ c ∈ text, place.next c = some place) (more : List Char) :
    tagRest place (text ++ more) = (tagRest place more).map (behind text) := by
  induction text with
  | nil =>
    rw [List.nil_append]
    cases tagRest place more with
    | none => rfl
    | some found => rfl
  | cons c text ih =>
    rw [List.cons_append, tag_rest_step (stays c List.mem_cons_self),
      ih fun d mem => stays d (List.mem_cons_of_mem _ mem), map_behind]
    rfl

theorem name_char_facts {c : Char} (nameChar : isNameChar c = true) :
    isSpace c = false ∧ c ≠ '/' ∧ c ≠ '>' := by
  simpa [isNameChar, and_assoc] using nameChar

theorem attribute_rest {a : List Char × List Char} (good : isAttribute a = true)
    (more : List Char) : tagRest .between (attributeText a ++ more) =
      (tagRest .between more).map (behind (attributeText a)) := by
  obtain ⟨name, value⟩ := a
  simp only [isAttribute, Bool.and_eq_true, List.all_eq_true, bne_iff_ne, ne_eq] at good
  obtain ⟨⟨_, names⟩, values⟩ := good
  cases name with
  | nil => contradiction
  | cons c name =>
    have first : TagPlace.between.next c = some .name := by
      obtain ⟨space, slash, greater⟩ := name_char_facts (names c List.mem_cons_self).1
      simp [TagPlace.next, space, slash, greater]
    have run : ∀ d ∈ name, TagPlace.name.next d = some .name := by
      intro d mem
      obtain ⟨nameChar, equals⟩ := names d (List.mem_cons_of_mem _ mem)
      obtain ⟨space, slash, greater⟩ := name_char_facts nameChar
      simp [TagPlace.next, space, slash, greater, equals]
    have inside : ∀ d ∈ value, TagPlace.double.next d = some .double := by
      intro d mem
      rw [TagPlace.next, if_neg (values d mem)]
    have spelled : attributeText (c :: name, value) ++ more =
        ' ' :: c :: (name ++ '=' :: '"' :: (value ++ '"' :: more)) := by
      simp [attributeText]
    have space : TagPlace.between.next ' ' = some .between := rfl
    have equals : TagPlace.name.next '=' = some .beforeValue := rfl
    have opens : TagPlace.beforeValue.next '"' = some .double := rfl
    have closes : TagPlace.double.next '"' = some .between := rfl
    rw [spelled, tag_rest_step space, tag_rest_step first, tag_rest_run run, tag_rest_step equals,
      tag_rest_step opens, tag_rest_run inside, tag_rest_step closes]
    simp only [map_behind]
    congr 2

theorem attributes_rest {attributes : List (List Char × List Char)}
    (good : attributes.all isAttribute = true) (more : List Char) :
    tagRest .between (attributesText attributes ++ '>' :: more) =
      some (attributesText attributes, more) := by
  induction attributes with
  | nil => rfl
  | cons a attributes ih =>
    rw [List.all_cons, Bool.and_eq_true] at good
    have split : attributesText (a :: attributes) = attributeText a ++ attributesText attributes :=
      List.flatMap_cons
    rw [split, List.append_assoc, attribute_rest good.1, ih good.2]
    rfl

/-- The name of a tag ends where its attributes or its end begin. -/
theorem tag_name_ends {name : List Char} {b : Char} (letters : name.all isNameChar = true)
    (stop : isNameChar b = false) (text : List Char) : (name ++ b :: text).takeWhile isNameChar = name ∧
      (name ++ b :: text).dropWhile isNameChar = b :: text := by
  obtain ⟨taken, dropped⟩ := take_while_boundary stop name text
  have all := List.all_eq_true.mp letters
  rw [taken, dropped, List.takeWhile_eq_self_iff.mpr all, List.dropWhile_eq_nil_iff.mpr all]
  exact ⟨rfl, rfl⟩

theorem tag_name_facts {name : List Char} (good : isTagName name = true) :
    (∃ c rest, name = c :: rest ∧ c.isAlpha = true) ∧ name.all isNameChar = true ∧
      name.map Char.toLower = name ∧ isOrdinary name = true := by
  simp only [isTagName, Bool.and_eq_true, beq_iff_eq] at good
  obtain ⟨⟨⟨letter, letters⟩, lower⟩, ordinary⟩ := good
  refine ⟨?_, letters, lower, ordinary⟩
  cases name with
  | nil => contradiction
  | cons c rest => exact ⟨c, rest, rfl, letter⟩

/-- An open tag with quoted attributes is read as such. -/
theorem open_tag_read {name : List Char} {attributes : List (List Char × List Char)}
    (tag : isTagName name = true) (good : attributes.all isAttribute = true) (rest : List Char) :
    markup (openTag name attributes ++ rest) =
      ([.start name (attributesText attributes)], rest) := by
  obtain ⟨⟨c, letters, spelled, letter⟩, all, lower, ordinary⟩ := tag_name_facts tag
  have shape : openTag name attributes ++ rest =
      name ++ (attributesText attributes ++ '>' :: rest) := by simp [openTag]
  have opened : markup (openTag name attributes ++ rest) =
      startTag (openTag name attributes ++ rest) := by
    rw [openTag, spelled, List.cons_append, List.cons_append, markup, letter, if_pos rfl]
  have first : ∃ b more, attributesText attributes ++ '>' :: rest = b :: more ∧
      isNameChar b = false := by
    cases attributes with
    | nil => exact ⟨'>', rest, rfl, rfl⟩
    | cons a attributes => exact ⟨' ', _, rfl, rfl⟩
  obtain ⟨b, more, tail, stop⟩ := first
  have ends := tag_name_ends all stop more
  rw [← tail] at ends
  rw [opened, shape, startTag, tagName, ends.1, ends.2, attributes_rest good, lower]
  simp only [ordinary, if_true]

theorem close_tag_read {name : List Char} (tag : isTagName name = true) (rest : List Char) :
    markup (closeTag name ++ rest) = ([.stop name], rest) := by
  obtain ⟨⟨c, letters, spelled, letter⟩, all, lower, _⟩ := tag_name_facts tag
  have ends := tag_name_ends (b := '>') all rfl rest
  have shape : closeTag name ++ rest = '/' :: (name ++ '>' :: rest) := by simp [closeTag]
  have closes : closing (name ++ '>' :: rest) = endTag (name ++ '>' :: rest) := by
    rw [spelled, List.cons_append, closing, letter, if_pos rfl]
  have slash : markup ('/' :: (name ++ '>' :: rest)) = closing (name ++ '>' :: rest) := rfl
  rw [shape, slash, closes, endTag, tagName, ends.1, ends.2, lower]
  rfl

end Tags

section Literals
variable (names : CharacterNames)

/-- A fixed part: how it is read, whatever is behind it, and whether a line feed is dropped
    there. -/
structure Literal (text : List Char) (ts : List Token) (fresh : Bool) : Prop where
  lines : '\r' ∉ text
  reads : ∀ rest, read names (text ++ rest) = ts ++ read names rest
  keeps : ∀ rest, content false (ts ++ rest) = ts ++ content fresh rest

/-- A fixed part with a tag in it, where a text in front of it ends. -/
structure Delimiter (text : List Char) (ts : List Token) (fresh : Bool) : Prop
    extends Literal names text ts fresh where
  ends : ∃ c rest, text = c :: rest ∧ endsText c = true
  opens : ∀ rest, (ts ++ rest).head? ≠ some (.char '\n')
  tagged : ∀ rest, leading (ts ++ rest) = leading ts

variable {names}

def isFixed (c : Char) : Bool := c != '<' && c != '&' && c != '\r' && c != nulChar

theorem literal_text {text : List Char} (fixed : text.all isFixed = true) :
    Literal names text (chars text) false := by
  have each : ∀ c ∈ text, ((c ≠ '<' ∧ c ≠ '&') ∧ c ≠ '\r') ∧ c ≠ nulChar := by
    intro c mem
    simpa [isFixed] using List.all_eq_true.mp fixed c mem
  refine ⟨fun mem => (each _ mem).1.2 rfl, fun rest => ?_, fun rest => ?_⟩
  · clear fixed
    induction text with
    | nil => rfl
    | cons c text ih =>
      obtain ⟨⟨⟨less, amp⟩, _⟩, _⟩ := each c List.mem_cons_self
      rw [List.cons_append, read_char names less amp, ih fun d mem => each d (.tail c mem)]
      rfl
  · have whole : kept false text = text :=
      kept_same_iff.mpr ⟨fun mem => (each _ mem).2 rfl, nofun⟩
    rw [content_chars, whole, Bool.false_and]

theorem literal_tag {source : List Char} {t : Token} (lines : '\r' ∉ source)
    (reads : ∀ rest, markup (source ++ rest) = ([t], rest)) (tag : ∀ c, t ≠ .char c) :
    Literal names ('<' :: source) [t] (opensPre t) := by
  refine ⟨?_, fun rest => ?_, fun rest => ?_⟩
  · rw [List.mem_cons, not_or]
    exact ⟨by decide, lines⟩
  · rw [List.cons_append, read_less, reads]
  · rw [List.singleton_append, content, if_neg]
    · rfl
    · rintro (nul | ⟨_, feed⟩)
      · exact tag _ nul
      · exact tag _ feed

theorem literal_append {text text' : List Char} {ts ts' : List Token} {fresh : Bool}
    (first : Literal names text ts false) (second : Literal names text' ts' fresh) :
    Literal names (text ++ text') (ts ++ ts') fresh := by
  refine ⟨?_, fun rest => ?_, fun rest => ?_⟩
  · rw [List.mem_append, not_or]
    exact ⟨first.lines, second.lines⟩
  · rw [List.append_assoc, first.reads, second.reads, List.append_assoc]
  · rw [List.append_assoc, first.keeps, second.keeps, List.append_assoc]

/-- A piece of a template, by what it is. -/
inductive Piece where
  | words (text : String)
  | opened (name : String) (attributes : List (String × String))
  | closed (name : String)
  deriving DecidableEq, Repr

def spelled (attributes : List (String × String)) : List (List Char × List Char) :=
  attributes.map fun a => (a.1.toList, a.2.toList)

def Piece.source : Piece → List Char
  | words text => text.toList
  | opened name attributes => '<' :: openTag name.toList (spelled attributes)
  | closed name => '<' :: closeTag name.toList

def Piece.tokens : Piece → List Token
  | words text => chars text.toList
  | opened name attributes => [.start name.toList (attributesText (spelled attributes))]
  | closed name => [.stop name.toList]

def Piece.dropsFeed : Piece → Bool
  | opened name _ => name.toList == "pre".toList
  | _ => false

def Piece.isSpelled : Piece → Bool
  | words text => text.toList.all isFixed
  | opened name attributes => isTagName name.toList && (spelled attributes).all isAttribute
  | closed name => isTagName name.toList

def Piece.isProper (p : Piece) : Bool := p.isSpelled && p.source.all (· != '\r')

def source (pieces : List Piece) : List Char := pieces.flatMap Piece.source

def shownAs (pieces : List Piece) : List Token := pieces.flatMap Piece.tokens

/-- All pieces are proper, and only behind the last one a line feed may be dropped. -/
def isTemplate : List Piece → Bool
  | [] => true
  | [p] => p.isProper
  | p :: rest => p.isProper && !p.dropsFeed && isTemplate rest

def dropsFeed (pieces : List Piece) : Bool := pieces.getLast?.any Piece.dropsFeed

theorem piece_literal {p : Piece} (proper : p.isProper = true) :
    Literal names p.source p.tokens p.dropsFeed := by
  rw [Piece.isProper, Bool.and_eq_true] at proper
  obtain ⟨good, lines⟩ := proper
  have noReturn : '\r' ∉ p.source := fun mem => by
    have odd := List.all_eq_true.mp lines _ mem
    simp at odd
  cases p with
  | words text => exact literal_text good
  | opened name attributes =>
    obtain ⟨tag, quoted⟩ := Bool.and_eq_true_iff.mp good
    exact literal_tag (fun mem => noReturn (.tail _ mem)) (open_tag_read tag quoted) nofun
  | closed name =>
    exact literal_tag (fun mem => noReturn (.tail _ mem)) (close_tag_read good) nofun

theorem template_literal {pieces : List Piece} (good : isTemplate pieces = true) :
    Literal names (source pieces) (shownAs pieces) (dropsFeed pieces) := by
  induction pieces with
  | nil => exact ⟨List.not_mem_nil, fun _ => rfl, fun _ => rfl⟩
  | cons p rest ih =>
    have texts : source (p :: rest) = p.source ++ source rest := List.flatMap_cons
    have tokens : shownAs (p :: rest) = p.tokens ++ shownAs rest := List.flatMap_cons
    rw [texts, tokens]
    cases rest with
    | nil =>
      have last := @piece_literal names p good
      simpa [source, shownAs, dropsFeed] using last
    | cons q rest =>
      simp only [isTemplate, Bool.and_eq_true, Bool.not_eq_true'] at good
      have first := @piece_literal names p good.1.1
      rw [good.1.2] at first
      have later := ih good.2
      have same : dropsFeed (p :: q :: rest) = dropsFeed (q :: rest) := by
        rw [dropsFeed, List.getLast?_cons_cons]
        rfl
      rw [same]
      exact literal_append first later

def Piece.isTag : Piece → Bool
  | words _ => false
  | _ => true

/-- The pieces begin where a text ends, and a tag is among them. -/
def isDelimiter (pieces : List Piece) : Bool :=
  isTemplate pieces && (source pieces).head?.any endsText &&
    (shownAs pieces).head?.any (· != .char '\n') && pieces.any Piece.isTag

theorem leading_tagged {ts : List Token} {t : Token} (tag : ∀ c, t ≠ .char c) (mem : t ∈ ts)
    (rest : List Token) : leading (ts ++ rest) = leading ts := by
  induction ts with
  | nil => exact absurd mem List.not_mem_nil
  | cons u ts ih =>
    rcases List.mem_cons.mp mem with rfl | later
    · cases t with
      | char c => exact absurd rfl (tag c)
      | start name inside => rfl
      | stop name => rfl
      | comment => rfl
      | unread text => rfl
    · cases u with
      | char c => exact congrArg (c :: ·) (ih later)
      | start name inside => rfl
      | stop name => rfl
      | comment => rfl
      | unread text => rfl

theorem tag_token {p : Piece} (tag : p.isTag = true) : ∃ t ∈ p.tokens, ∀ c, t ≠ .char c := by
  cases p with
  | words text => contradiction
  | opened name attributes => exact ⟨_, List.mem_singleton_self _, nofun⟩
  | closed name => exact ⟨_, List.mem_singleton_self _, nofun⟩

theorem template_delimiter {pieces : List Piece} (good : isDelimiter pieces = true) :
    Delimiter names (source pieces) (shownAs pieces) (dropsFeed pieces) := by
  simp only [isDelimiter, Bool.and_eq_true] at good
  obtain ⟨⟨⟨template, boundary⟩, start⟩, tagged⟩ := good
  refine { toLiteral := template_literal template, ends := ?_, opens := ?_, tagged := ?_ }
  · cases text : source pieces with
    | nil =>
      rw [text] at boundary
      contradiction
    | cons c rest =>
      rw [text] at boundary
      exact ⟨c, rest, rfl, boundary⟩
  · intro rest
    cases tokens : shownAs pieces with
    | nil =>
      rw [tokens] at start
      contradiction
    | cons t ts =>
      rw [tokens] at start
      have other : t ≠ .char '\n' := by simpa using start
      exact fun odd => other (Option.some.inj odd)
  · intro rest
    obtain ⟨p, mem, tag⟩ := List.any_eq_true.mp tagged
    obtain ⟨t, inside, other⟩ := tag_token tag
    exact leading_tagged other (List.mem_flatMap.mpr ⟨p, mem, inside⟩) rest

/-- What is shown of a page from here on. -/
def Shows (names : CharacterNames) (fresh : Bool) (text : List Char) (shown : List Token) : Prop :=
  content fresh (read names (normalise text)) = shown

variable {text rest : List Char} {ts E : List Token} {fresh after : Bool}

theorem shows_end : Shows names fresh [] [] := by
  rw [Shows, normalise, read_nil, content]

theorem literal_rule (l : Literal names text ts after) :
    Shows names false (text ++ rest) (ts ++ E) ↔ Shows names after rest E := by
  rw [Shows, normalise_literal l.lines, l.reads, l.keeps, List.append_right_inj]
  exact Iff.rfl

/-- A delimiter as a tail: its boundary, and the length up to its tag. -/
theorem delimiter_tail (d : Delimiter names text ts after) (rest : List Char) (E : List Token) :
    (∃ b more, text ++ rest = b :: more ∧ endsText b = true) ∧
      (leading (ts ++ E)).length = (leading (read names (text ++ rest))).length := by
  obtain ⟨b, more, same, ends⟩ := d.ends
  refine ⟨⟨b, more ++ rest, by rw [same]; rfl, ends⟩, ?_⟩
  rw [d.reads, d.tagged, d.tagged]

theorem place_normal (d : Delimiter names text ts after) (s rest : List Char) :
    normalise (s ++ (text ++ rest)) = normalise s ++ (text ++ normalise rest) := by
  obtain ⟨b, more, same, ends⟩ := d.ends
  obtain ⟨_, _, _, _, _, _, _, feed⟩ := ends_text_facts ends
  have other : (text ++ rest).head? ≠ some '\n' := by
    rw [same, List.cons_append, List.head?_cons]
    exact fun odd => feed (Option.some.inj odd)
  rw [normalise_append other, normalise_literal d.lines]

theorem delimited_iff (d : Delimiter names text ts after) {s : List Char} :
    content fresh (chars (normalise s) ++ read names (text ++ normalise rest)) =
      chars s ++ (ts ++ E) ↔ Carried fresh s ∧ Shows names after rest E := by
  have opens : (read names (text ++ normalise rest)).head? ≠ some (.char '\n') := by
    rw [d.reads]
    exact d.opens _
  rw [shown_iff opens (delimiter_tail d _ E).2, d.reads, d.keeps, List.append_right_inj]
  exact Iff.rfl

theorem escaped_rule (d : Delimiter names text ts after) {s : List Char} :
    Shows names fresh (escape s ++ (text ++ rest)) (chars s ++ (ts ++ E)) ↔
      Carried fresh s ∧ Shows names after rest E := by
  rw [Shows, place_normal d, normalise_escape, read_escaped, delimited_iff d]

theorem raw_rule (d : Delimiter names text ts after) {s : List Char} :
    Shows names fresh (s ++ (text ++ rest)) (chars s ++ (ts ++ E)) ↔
      isPlain names s = true ∧ Carried fresh s ∧ Shows names after rest E := by
  obtain ⟨⟨b, more, tail, ends⟩, same⟩ := delimiter_tail d (normalise rest) E
  rw [Shows, place_normal d]
  constructor
  · intro shows
    obtain ⟨bound, whole⟩ := @inserted_length names b more ends (normalise s)
    have normal := normalise_length s
    have long := congrArg (fun ts => (leading ts).length) shows
    have visible := content_leading fresh (read names (normalise s ++ (text ++ normalise rest)))
    simp only [leading_chars, List.length_append] at long
    rw [AddsLength, ← tail, leadingLength, leadingLength] at bound
    rw [← tail, leadingLength, leadingLength] at whole
    have plain := whole (by omega)
    rw [tail, plain_read ends plain, ← tail, delimited_iff d] at shows
    rw [carried_normal shows.1] at plain
    exact ⟨plain, shows⟩
  · rintro ⟨plain, carried, shows⟩
    have normal := carried_normal carried
    rw [← normal] at plain
    rw [tail, plain_read ends plain, ← tail]
    exact (delimited_iff d).mpr ⟨carried, shows⟩

end Literals

end HtmlTokens
