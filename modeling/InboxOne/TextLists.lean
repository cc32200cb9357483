import Mathlib.Data.List.Basic

/-!
Lists written in a text and read back: words between separators, and lines. A carriage
return and the line feed behind it end one line; a line end at the very end starts none.
-/
namespace TextLists

section Words
variable {C : Type} (isSeparator : C → Bool)

def wordsBy (text : List C) : List (List C) :=
  (text.splitOnP isSeparator).filter fun word => !word.isEmpty

variable {isSeparator}

theorem words_of_separators {sep : List C} (breaks : ∀ c ∈ sep, isSeparator c = true)
    (text : List C) : wordsBy isSeparator (sep ++ text) = wordsBy isSeparator text := by
  induction sep with
  | nil => rfl
  | cons c sep ih =>
    have first : (([] : List C) ++ c :: (sep ++ text)).splitOnP isSeparator =
        [] :: (sep ++ text).splitOnP isSeparator :=
      List.splitOnP_append_cons_of_forall_mem nofun c (breaks c List.mem_cons_self) _
    rw [List.nil_append] at first
    rw [List.cons_append, wordsBy, first, List.filter_cons_of_neg (by simp), ← wordsBy]
    exact ih fun d mem => breaks d (List.mem_cons_of_mem _ mem)

theorem words_of_word {word : List C} (here : word ≠ []) (plain : ∀ c ∈ word, isSeparator c = false)
    {sep : List C} (separated : sep ≠ []) (breaks : ∀ c ∈ sep, isSeparator c = true)
    (text : List C) :
    wordsBy isSeparator (word ++ (sep ++ text)) = word :: wordsBy isSeparator text := by
  obtain ⟨c, rest, shape⟩ := List.exists_cons_of_ne_nil separated
  subst shape
  have first : (word ++ c :: (rest ++ text)).splitOnP isSeparator =
      word :: (rest ++ text).splitOnP isSeparator :=
    List.splitOnP_append_cons_of_forall_mem plain c (breaks c List.mem_cons_self) _
  rw [List.cons_append, wordsBy, first, List.filter_cons_of_pos (by simp [here]), ← wordsBy,
    words_of_separators fun d mem => breaks d (List.mem_cons_of_mem _ mem)]

/- What is joined with separators is read back. -/
theorem words_joined {sep : List C} (separated : sep ≠ []) (breaks : ∀ c ∈ sep, isSeparator c = true)
    (words : List (List C)) (plain : ∀ word ∈ words, word ≠ [] ∧ ∀ c ∈ word, isSeparator c = false) :
    wordsBy isSeparator (sep.intercalate words) = words := by
  induction words with
  | nil => simp [wordsBy]
  | cons word words ih =>
    obtain ⟨here, clean⟩ := plain word List.mem_cons_self
    cases words with
    | nil =>
      rw [List.intercalate_singleton, wordsBy, List.splitOnP_eq_singleton clean,
        List.filter_cons_of_pos (by simp [here]), List.filter_nil]
    | cons next words =>
      rw [List.intercalate_cons_cons, List.append_assoc, words_of_word here clean separated breaks,
        ih fun other mem => plain other (List.mem_cons_of_mem _ mem)]

end Words

section Lines
variable (isBreak : Char → Bool)

def breakLines : List Char → List (List Char)
  | [] => []
  | '\r' :: '\n' :: rest => [] :: breakLines rest
  | c :: rest =>
      if isBreak c then [] :: breakLines rest
      else match breakLines rest with
        | [] => [[c]]
        | line :: lines => (c :: line) :: lines

/-- The lines of a text that has at least one, be it empty. -/
def textLines (text : List Char) : List (List Char) :=
  if text = [] then [[]] else breakLines isBreak text

/-- Every line with the same end. -/
def endLines (lines : List (List Char)) : List Char := ['\n'].intercalate lines ++ ['\n']

variable {isBreak}

theorem break_lines_line (returns : isBreak '\r' = true) (feeds : isBreak '\n' = true)
    {line : List Char} (clean : ∀ c ∈ line, isBreak c = false) (rest : List Char) :
    breakLines isBreak (line ++ '\n' :: rest) = line :: breakLines isBreak rest := by
  induction line with
  | nil => simp [breakLines, feeds]
  | cons c line ih =>
    have plain := clean c List.mem_cons_self
    have here : c ≠ '\r' := by
      intro same
      rw [same, returns] at plain
      contradiction
    rw [List.cons_append, breakLines.eq_3 _ _ _ fun _ same _ => here same, plain,
      ih fun d mem => clean d (List.mem_cons_of_mem _ mem)]
    rfl

/- Without a break the text is one line at most. -/
theorem break_lines_clean (returns : isBreak '\r' = true) {text : List Char}
    (clean : ∀ c ∈ text, isBreak c = false) : (breakLines isBreak text).length ≤ 1 := by
  induction text with
  | nil => simp [breakLines]
  | cons c text ih =>
    have plain := clean c List.mem_cons_self
    have here : c ≠ '\r' := by
      intro same
      rw [same, returns] at plain
      contradiction
    have rest := ih fun d mem => clean d (List.mem_cons_of_mem _ mem)
    rw [breakLines.eq_3 _ _ _ fun _ same _ => here same, plain]
    cases lines : breakLines isBreak text with
    | nil => simp
    | cons line more =>
      rw [lines] at rest
      simpa using rest

theorem break_lines_ended (returns : isBreak '\r' = true) (feeds : isBreak '\n' = true)
    {lines : List (List Char)} (nonempty : lines ≠ [])
    (clean : ∀ line ∈ lines, ∀ c ∈ line, isBreak c = false) :
    breakLines isBreak (endLines lines) = lines := by
  unfold endLines
  induction lines with
  | nil => contradiction
  | cons line lines ih =>
    have first := clean line List.mem_cons_self
    cases lines with
    | nil =>
      rw [List.intercalate_singleton, break_lines_line returns feeds first]
      rfl
    | cons next lines =>
      rw [List.intercalate_cons_cons, List.append_assoc, List.append_assoc, List.singleton_append,
        break_lines_line returns feeds first,
        ih (by simp) fun other mem => clean other (List.mem_cons_of_mem _ mem)]

theorem lines_clean (text : List Char) :
    ∀ line ∈ breakLines isBreak text, ∀ c ∈ line, isBreak c = false := by
  fun_induction breakLines isBreak text with
  | case1 => simp
  | case2 rest ih =>
    intro line mem c inside
    rcases List.mem_cons.mp mem with head | tail
    · subst head
      contradiction
    · exact ih line tail c inside
  | case3 c rest other breaks ih =>
    intro line mem d inside
    rcases List.mem_cons.mp mem with head | tail
    · subst head
      contradiction
    · exact ih line tail d inside
  | case4 c rest other plain last ih =>
    intro line mem d inside
    rw [List.mem_singleton.mp mem, List.mem_singleton] at inside
    rw [inside]
    exact eq_false_of_ne_true plain
  | case5 c rest other plain line lines found ih =>
    intro own mem d inside
    rw [found] at ih
    rcases List.mem_cons.mp mem with head | tail
    · subst head
      rcases List.mem_cons.mp inside with first | later
      · rw [first]
        exact eq_false_of_ne_true plain
      · exact ih line List.mem_cons_self d later
    · exact ih own (List.mem_cons_of_mem _ tail) d inside

theorem lines_nonempty {text : List Char} (nonempty : text ≠ []) : breakLines isBreak text ≠ [] := by
  fun_cases breakLines isBreak text <;> simp_all

/- Other line ends, and one more at the end, leave the lines as they are. -/
theorem text_lines_ended (returns : isBreak '\r' = true) (feeds : isBreak '\n' = true)
    (text : List Char) :
    textLines isBreak (endLines (breakLines isBreak text)) = textLines isBreak text := by
  have ended : endLines (breakLines isBreak text) ≠ [] := by simp [endLines]
  rw [textLines, if_neg ended, textLines]
  by_cases empty : text = []
  · rw [if_pos empty, empty]
    simp [breakLines, endLines, feeds]
  · rw [if_neg empty, break_lines_ended returns feeds (lines_nonempty empty) (lines_clean text)]

end Lines

end TextLists
