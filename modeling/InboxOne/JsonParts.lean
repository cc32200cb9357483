import Mathlib.Data.List.Infix
import InboxOne.JsonText

/-!
What can be found in the JSON text of a list of strings. The quotes cut the text into the
spelled strings and the punctuation between them: a part lies in one piece, or it crosses a
quote.
-/
namespace JsonParts
open JsonText

/-- The part goes across the separator between these two texts. -/
def Across {A : Type} (q : A) (part front back : List A) : Prop :=
  ∃ before after, part = before ++ q :: after ∧ before <:+ front ∧ after <+: back

theorem infix_around {A : Type} {q : A} {part front back : List A} :
    part <:+: front ++ q :: back ↔
      part <:+: front ∨ part <:+: back ∨ Across q part front back := by
  constructor
  · intro inside
    rcases List.infix_append_iff_ne_nil.mp inside with left | right | ⟨before, rest, _, nonempty,
      rfl, ends, begins⟩
    · exact Or.inl left
    · rcases List.infix_cons_iff.mp right with here | behind
      · rcases List.prefix_cons_iff.mp here with rfl | ⟨after, rfl, begins⟩
        · exact Or.inl List.nil_infix
        · exact Or.inr (Or.inr ⟨[], after, rfl, List.nil_suffix, begins⟩)
      · exact Or.inr (Or.inl behind)
    · rcases List.prefix_cons_iff.mp begins with empty | ⟨after, rfl, behind⟩
      · exact absurd empty nonempty
      · exact Or.inr (Or.inr ⟨before, after, rfl, ends, behind⟩)
  · rintro (inside | inside | ⟨before, after, rfl, ⟨rest, rfl⟩, ⟨rest', rfl⟩⟩)
    · exact List.infix_append_of_infix_left inside
    · exact List.infix_append_of_infix_right (inside.trans (List.suffix_cons q back).isInfix)
    · exact ⟨rest, rest', by simp⟩

/-- The spelling of a string, without its quotes. -/
def spelling (text : List Char) : List Char := text.flatMap escapeChar

/-- The text behind the first string of a list. -/
def afterFirst : List (List Char) → List Char
  | [] => [']']
  | piece :: rest => [',', ' '] ++ '"' :: (piece ++ '"' :: afterFirst rest)

def listText : List (List Char) → List Char
  | [] => ['[', ']']
  | piece :: rest => ['['] ++ '"' :: (piece ++ '"' :: afterFirst rest)

theorem intercalate_text (item : String) (items : List String) :
    List.intercalate [',', ' '] ((item :: items).map dumpsString) ++ [']'] =
      '"' :: (spelling item.toList ++
        '"' :: afterFirst (items.map fun item => spelling item.toList)) := by
  induction items generalizing item with
  | nil => simp [List.intercalate, dumpsString, spelling, afterFirst]
  | cons next rest ih =>
    have step : List.intercalate [',', ' '] ((item :: next :: rest).map dumpsString) =
        dumpsString item ++ [',', ' '] ++
          List.intercalate [',', ' '] ((next :: rest).map dumpsString) := by
      simp [List.intercalate]
    rw [step, List.append_assoc, ih]
    simp [dumpsString, spelling, afterFirst]

theorem dumps_strings_text (items : List String) :
    (dumpsStrings items).toList = listText (items.map fun item => spelling item.toList) := by
  rw [dumpsStrings, String.toList_ofList]
  cases items with
  | nil => rfl
  | cons item items =>
    rw [List.cons_append, intercalate_text]
    rfl

/-- A change of letters that leaves the punctuation alone. -/
theorem list_text_map {f : Char → Char}
    (fixed : ∀ c ∈ ['[', ']', ',', ' ', '"'], f c = c) (pieces : List (List Char)) :
    (listText pieces).map f = listText (pieces.map (List.map f)) := by
  simp only [List.forall_mem_cons, List.not_mem_nil, false_implies, implies_true, and_true] at fixed
  obtain ⟨opening, closing, comma, blank, quote⟩ := fixed
  have behind : (afterFirst pieces).map f = afterFirst (pieces.map (List.map f)) := by
    induction pieces with
    | nil => simp [afterFirst, closing]
    | cons piece rest ih => simp [afterFirst, comma, blank, quote, ih]
  cases pieces with
  | nil => simp [listText, opening, closing]
  | cons piece rest =>
    have rest : (afterFirst rest).map f = afterFirst (rest.map (List.map f)) := by
      simpa [afterFirst, comma, blank, quote] using behind
    simp [listText, opening, quote, rest]

/-- The piece before each quote that delimits a string, and all the text behind the quote. -/
def cutsBehind : List (List Char) → List (List Char × List Char)
  | [] => []
  | piece :: rest =>
      ([',', ' '], piece ++ '"' :: afterFirst rest) :: (piece, afterFirst rest) :: cutsBehind rest

def cuts : List (List Char) → List (List Char × List Char)
  | [] => []
  | piece :: rest =>
      (['['], piece ++ '"' :: afterFirst rest) :: (piece, afterFirst rest) :: cutsBehind rest

/-- The part goes across one of these quotes. -/
def Crosses (part : List Char) (places : List (List Char × List Char)) : Prop :=
  ∃ place ∈ places, Across '"' part place.1 place.2

theorem crosses_cons {part : List Char} {place : List Char × List Char}
    {places : List (List Char × List Char)} :
    Crosses part (place :: places) ↔ Across '"' part place.1 place.2 ∨ Crosses part places :=
  List.exists_mem_cons_iff ..

theorem free_crosses_none {part : List Char} (free : '"' ∉ part)
    (places : List (List Char × List Char)) : ¬ Crosses part places := by
  rintro ⟨place, _, before, after, rfl, _⟩
  exact free (List.mem_append_right before List.mem_cons_self)

theorem part_after_first {part : List Char} (pieces : List (List Char)) :
    part <:+: afterFirst pieces ↔ part <:+: [']'] ∨ (pieces ≠ [] ∧ part <:+: [',', ' ']) ∨
      (∃ piece ∈ pieces, part <:+: piece) ∨ Crosses part (cutsBehind pieces) := by
  induction pieces with
  | nil => simp [afterFirst, cutsBehind, Crosses]
  | cons piece rest ih =>
    rw [afterFirst, infix_around, infix_around, ih, cutsBehind, crosses_cons, crosses_cons]
    simp only [ne_eq, reduceCtorEq, not_false_eq_true, true_and, List.exists_mem_cons_iff]
    grind

/-- Where a part can be found. -/
theorem part_list_text {part : List Char} (pieces : List (List Char)) :
    part <:+: listText pieces ↔ (pieces = [] ∧ part <:+: ['[', ']']) ∨ part <:+: ['['] ∨
      part <:+: [']'] ∨ (2 ≤ pieces.length ∧ part <:+: [',', ' ']) ∨
      (∃ piece ∈ pieces, part <:+: piece) ∨ Crosses part (cuts pieces) := by
  cases pieces with
  | nil =>
    constructor
    · exact fun inside => Or.inl ⟨rfl, inside⟩
    · rintro (⟨_, inside⟩ | inside | inside | ⟨more, _⟩ | ⟨piece, mem, _⟩ | ⟨place, mem, _⟩)
      · exact inside
      · exact inside.trans (List.prefix_append ['['] [']']).isInfix
      · exact inside.trans (List.suffix_append ['['] [']']).isInfix
      · contradiction
      · contradiction
      · contradiction
  | cons piece rest =>
    have more : 2 ≤ (piece :: rest).length ↔ rest ≠ [] := by
      rw [List.length_cons, ne_eq, ← List.length_eq_zero_iff]
      omega
    rw [listText, infix_around, infix_around, part_after_first, more, cuts, crosses_cons,
      crosses_cons]
    simp only [reduceCtorEq, false_and, false_or, List.exists_mem_cons_iff]
    grind

def Printable (c : Char) : Prop := 32 ≤ c.toNat ∧ c.toNat ≤ 126

/-- The characters that stand for themselves in a JSON string. -/
def Plain (c : Char) : Prop := Printable c ∧ c ≠ '"' ∧ c ≠ '\\'

instance (c : Char) : Decidable (Printable c) := inferInstanceAs (Decidable (_ ∧ _))

instance (c : Char) : Decidable (Plain c) := inferInstanceAs (Decidable (_ ∧ _))

theorem all_of_check {P : Char → Prop} [DecidablePred P] {text : List Char}
    (check : text.all (fun c => decide (P c)) = true) : ∀ c ∈ text, P c :=
  fun c mem => of_decide_eq_true (List.all_eq_true.mp check c mem)

theorem plain_escape {c : Char} (plain : Plain c) : escapeChar c = [c] := by
  obtain ⟨printable, quote, backslash⟩ := plain
  have different : ∀ d : Char, d.toNat < 32 → c ≠ d := by
    intro d control same
    rw [same] at printable
    exact absurd printable.1 (by omega)
  have low := printable.1
  rw [escapeChar, if_neg quote, if_neg backslash, if_neg (different _ (by decide)),
    if_neg (different _ (by decide)), if_neg (different _ (by decide)), if_neg (by omega),
    if_neg (by omega)]
  exact if_pos printable

theorem plain_spelling {text : List Char} (plain : ∀ c ∈ text, Plain c) : spelling text = text := by
  induction text with
  | nil => rfl
  | cons c rest ih =>
    have others := ih fun d mem => plain d (List.mem_cons_of_mem _ mem)
    rw [spelling, List.flatMap_cons, ← spelling, others, plain_escape (plain c List.mem_cons_self)]
    rfl

theorem hex_digit_printable (n : Nat) : Printable (hexDigit n) := by
  have all : ∀ c ∈ "0123456789abcdef".toList, Printable c := all_of_check (by decide)
  rw [hexDigit, List.getD_eq_getElem?_getD]
  cases found : "0123456789abcdef".toList[n]? with
  | none => exact (by decide : Printable '0')
  | some c => exact all c (List.mem_of_getElem? found)

theorem unicode_escape_printable {unit : Nat} : ∀ c ∈ unicodeEscape unit, Printable c := by
  intro c mem
  simp only [unicodeEscape, List.mem_cons, List.not_mem_nil, or_false] at mem
  rcases mem with rfl | rfl | rfl | rfl | rfl | rfl
  · decide
  · decide
  all_goals exact hex_digit_printable _

theorem escape_char_printable (c : Char) : ∀ d ∈ escapeChar c, Printable d := by
  unfold escapeChar
  split_ifs with quote backslash line feed tab back form plain basic
  · exact all_of_check (by decide)
  · exact all_of_check (by decide)
  · exact all_of_check (by decide)
  · exact all_of_check (by decide)
  · exact all_of_check (by decide)
  · exact all_of_check (by decide)
  · exact all_of_check (by decide)
  · intro d mem
    rw [List.mem_singleton.mp mem]
    exact plain
  · exact unicode_escape_printable
  · intro d mem
    rcases List.mem_append.mp mem with first | second
    · exact unicode_escape_printable d first
    · exact unicode_escape_printable d second

theorem list_text_printable {pieces : List (List Char)}
    (each : ∀ piece ∈ pieces, ∀ c ∈ piece, Printable c) : ∀ c ∈ listText pieces, Printable c := by
  have fixed : ∀ c ∈ ['[', ']', ',', ' ', '"'], Printable c := all_of_check (by decide)
  have behind : ∀ rest : List (List Char), (∀ piece ∈ rest, ∀ c ∈ piece, Printable c) →
      ∀ c ∈ afterFirst rest, Printable c := by
    intro rest
    induction rest with
    | nil =>
      intro _ c mem
      exact fixed c (by simp_all [afterFirst])
    | cons piece rest ih =>
      intro good c mem
      simp only [afterFirst, List.cons_append, List.nil_append, List.mem_cons, List.mem_append] at mem
      rcases mem with rfl | rfl | rfl | inside | rfl | later
      · exact fixed _ (by simp)
      · exact fixed _ (by simp)
      · exact fixed _ (by simp)
      · exact good piece List.mem_cons_self c inside
      · exact fixed _ (by simp)
      · exact ih (fun p inside => good p (List.mem_cons_of_mem _ inside)) c later
  intro c mem
  cases pieces with
  | nil => exact fixed c (by simp_all [listText]; tauto)
  | cons piece rest =>
    simp only [listText, List.cons_append, List.nil_append, List.mem_cons, List.mem_append] at mem
    rcases mem with rfl | rfl | inside | rfl | later
    · exact fixed _ (by simp)
    · exact fixed _ (by simp)
    · exact each piece List.mem_cons_self c inside
    · exact fixed _ (by simp)
    · exact behind rest (fun p inside => each p (List.mem_cons_of_mem _ inside)) c later

theorem dumps_strings_printable (items : List String) :
    ∀ c ∈ (dumpsStrings items).toList, Printable c := by
  rw [dumps_strings_text]
  refine list_text_printable fun piece mem => ?_
  obtain ⟨item, _, rfl⟩ := List.mem_map.mp mem
  intro c inside
  obtain ⟨d, _, there⟩ := List.mem_flatMap.mp inside
  exact escape_char_printable d c there

end JsonParts
