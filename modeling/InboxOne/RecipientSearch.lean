import InboxOne.JsonParts
import InboxOne.MailParser
import InboxOne.MessageList

/-!
What a search of the message list finds. The recipients are stored as the JSON text of a
list of addresses, and the LIKE pattern is compared with that text. U+0000, at which a
database may take a text to end, is a character like any other here.
-/
namespace InboxRecipientSearch
open JsonText JsonParts SqlLike InboxPython InboxMailbox InboxMailParser InboxTables
open InboxDatabase InboxMessageList

/-- Without regard to ASCII case, the term is a part of the text. -/
def Occurs (term : List Char) (text : String) : Prop := lower term <:+: lower text.toList

instance (term : List Char) (text : String) : Decidable (Occurs term text) :=
  inferInstanceAs (Decidable (_ <:+: _))

def termOf (filters : Filters) : List Char := strip (filters.search.getD "").toList

/-- The individual addresses that the import reads from a header. -/
def recipients {Msg : Type} (email : EmailPackage Msg) (headerBytes : Bytes) (name : String) :
    List String :=
  match addressHeader email (email.parsebytes headerBytes) name with
  | .ok text => addressList (email.getaddresses text)
  | .error _ => []

/-- The row has the envelope that was parsed. -/
structure ImportedFrom (parsed : ParsedHeader) (m : Message) : Prop where
  subject : m.subject = parsed.subject
  fromName : m.fromName = parsed.fromName
  fromAddr : m.fromAddr = parsed.fromAddr
  toAddrs : m.toAddrs = some parsed.toAddrs
  ccAddrs : m.ccAddrs = some parsed.ccAddrs

/-- The pages of the list, followed to the last one, hold the message. -/
def Included (db : Database) (filters : Filters) (limit : Nat) (m : Message) : Prop :=
  ∃ n pages, walk filters limit none (List.replicate n db) = some pages ∧ m ∈ pages.flatten

def InEnvelope (term : List Char) (m : Message) : Prop :=
  ∃ field ∈ [m.subject, m.fromName, m.fromAddr], ∃ text, field = some text ∧ Occurs term text

def InAddress (term : List Char) (lists : List (List String)) : Prop :=
  ∃ list ∈ lists, ∃ address ∈ list, Occurs term address

def InStored (term : List Char) (lists : List (List String)) : Prop :=
  ∃ list ∈ lists, Occurs term (dumpsStrings list)

/-- The brackets of every list, the comma of a longer one, both brackets of an empty one. -/
def Punctuation (term : List Char) (lists : List (List String)) : Prop :=
  term = ['['] ∨ term = [']'] ∨ (term = [','] ∧ ∃ list ∈ lists, 2 ≤ list.length) ∨
    (term = ['[', ']'] ∧ [] ∈ lists)

def InSpelling (term : List Char) (lists : List (List String)) : Prop :=
  ∃ list ∈ lists, ∃ address ∈ list, lower term <:+: lower (spelling address.toList)

/-- From the end of one piece of a list's text to the beginning of what its quote opens or
    what it closes. -/
def AcrossQuote (term : List Char) (lists : List (List String)) : Prop :=
  ∃ list ∈ lists, Crosses (lower term)
    (cuts (list.map fun address => lower (spelling address.toList)))

/-- The JSON text answers for the addresses. A term with a character that JSON never writes
    must be in none of them; a term that JSON writes as it is may be in one, or else it is
    neither punctuation nor a part of an escape; a term with a quote or a backslash is in an
    address, and in a spelled one or across a quote of the list as well, or it is nowhere. -/
def Searchable (term : List Char) (lists : List (List String)) : Prop :=
  ((∃ c ∈ term, ¬ Printable c) ∧ ¬ InAddress term lists) ∨
    ((∀ c ∈ term, Plain c) ∧
      (InAddress term lists ∨ (¬ Punctuation term lists ∧ ¬ InSpelling term lists))) ∨
    ((∀ c ∈ term, Printable c) ∧ ('"' ∈ term ∨ '\\' ∈ term) ∧
      ((InAddress term lists ∧ (InSpelling term lists ∨ AcrossQuote term lists)) ∨
        (¬ InAddress term lists ∧ ¬ InSpelling term lists ∧ ¬ AcrossQuote term lists)))

theorem lower_printable {c : Char} : Printable c.toLower ↔ Printable c := by
  by_cases letter : 65 ≤ c.toNat ∧ c.toNat ≤ 90
  · have folded := lower_letter letter
    unfold Printable
    omega
  · rw [lower_other letter]

theorem lower_plain {c : Char} : Plain c.toLower ↔ Plain c := by
  unfold Plain
  rw [lower_printable, ne_eq, ne_eq, lower_eq_iff (by decide) (by decide) c,
    lower_eq_iff (by decide) (by decide) c]

theorem lower_mem_iff {d : Char} (upper : ¬ (65 ≤ d.toNat ∧ d.toNat ≤ 90))
    (small : ¬ (97 ≤ d.toNat ∧ d.toNat ≤ 122)) {text : List Char} : d ∈ lower text ↔ d ∈ text := by
  simp only [lower, List.mem_map, lower_eq_iff upper small]
  simp

theorem lower_singleton_iff {d : Char} (upper : ¬ (65 ≤ d.toNat ∧ d.toNat ≤ 90))
    (small : ¬ (97 ≤ d.toNat ∧ d.toNat ≤ 122)) {text : List Char} : lower text = [d] ↔ text = [d] := by
  simp only [lower, List.map_eq_singleton_iff, lower_eq_iff upper small]
  simp

theorem lower_brackets_iff {text : List Char} : lower text = ['[', ']'] ↔ text = ['[', ']'] := by
  rcases text with _ | ⟨a, _ | ⟨b, rest⟩⟩
  · simp [lower]
  · simp [lower]
  · simp [lower, lower_eq_iff (d := '[') (by decide) (by decide),
      lower_eq_iff (d := ']') (by decide) (by decide)]

theorem infix_singleton {A : Type} {part : List A} (present : part ≠ []) (a : A) :
    part <:+: [a] ↔ part = [a] := by
  simp [List.infix_cons_iff, List.prefix_cons_iff, present]

theorem infix_pair {A : Type} {part : List A} (present : part ≠ []) (a b : A) :
    part <:+: [a, b] ↔ part = [a] ∨ part = [a, b] ∨ part = [b] := by
  rw [List.infix_cons_iff, infix_singleton present, List.prefix_cons_iff]
  simp only [present, false_or, List.prefix_cons_iff, List.prefix_nil]
  constructor
  · rintro (⟨_, rfl, rfl | ⟨_, rfl, rfl⟩⟩ | rfl)
    · exact Or.inl rfl
    · exact Or.inr (Or.inl rfl)
    · exact Or.inr (Or.inr rfl)
  · rintro (rfl | rfl | rfl)
    · exact Or.inl ⟨[], rfl, Or.inl rfl⟩
    · exact Or.inl ⟨[b], rfl, Or.inr ⟨[], rfl, rfl⟩⟩
    · exact Or.inr rfl

theorem strip_last (text : List Char) : (strip text).getLast? ≠ some ' ' := by
  intro last
  have first := List.head?_dropWhile_not isSpace (text.dropWhile isSpace).reverse
  rw [strip, List.getLast?_reverse] at last
  rw [last] at first
  contradiction

theorem stored_text (list : List String) : lower (dumpsStrings list).toList =
    listText (list.map fun address => lower (spelling address.toList)) := by
  have fixed : ∀ c ∈ ['[', ']', ',', ' ', '"'], c.toLower = c := all_of_check (by decide)
  rw [dumps_strings_text, lower, list_text_map fixed, List.map_map]
  rfl

/-- Where the JSON text holds a term that JSON writes as it is. -/
theorem plain_stored_iff {term : List Char} (present : term ≠ []) (last : term.getLast? ≠ some ' ')
    (plain : ∀ c ∈ term, Plain c) (list : List String) :
    Occurs term (dumpsStrings list) ↔ (list = [] ∧ term = ['[', ']']) ∨ term = ['['] ∨
      term = [']'] ∨ (2 ≤ list.length ∧ term = [',']) ∨
      ∃ address ∈ list, lower term <:+: lower (spelling address.toList) := by
  have free : '"' ∉ lower term := by
    rw [lower_mem_iff (by decide) (by decide)]
    exact fun mem => (plain _ mem).2.1 rfl
  have nonempty : lower term ≠ [] := fun empty => present (List.map_eq_nil_iff.mp empty)
  have bracket : lower term = ['['] ↔ term = ['['] := lower_singleton_iff (by decide) (by decide)
  have closing : lower term = [']'] ↔ term = [']'] := lower_singleton_iff (by decide) (by decide)
  have comma : lower term = [','] ↔ term = [','] := lower_singleton_iff (by decide) (by decide)
  have blank : lower term ≠ [' '] := by
    intro same
    rw [lower_singleton_iff (by decide) (by decide)] at same
    exact last (same ▸ rfl)
  have pair : lower term ≠ [',', ' '] := by
    intro same
    obtain ⟨c, rest, rfl, _, shape⟩ := List.map_eq_cons_iff.mp same
    have one : rest = [' '] := (lower_singleton_iff (by decide) (by decide)).mp shape
    exact last (one ▸ rfl)
  rw [Occurs, stored_text, part_list_text, or_iff_left (free_crosses_none free _),
    infix_pair nonempty, infix_pair nonempty, infix_singleton nonempty, infix_singleton nonempty,
    bracket, closing, comma, lower_brackets_iff]
  simp only [List.map_eq_nil_iff, List.length_map, List.mem_map, exists_exists_and_eq_and, blank,
    pair, or_false]
  constructor
  · rintro (⟨empty, opening | both | close⟩ | rest)
    · exact Or.inr (Or.inl opening)
    · exact Or.inl ⟨empty, both⟩
    · exact Or.inr (Or.inr (Or.inl close))
    · exact Or.inr rest
  · rintro (⟨empty, both⟩ | rest)
    · exact Or.inl ⟨empty, Or.inr (Or.inl both)⟩
    · exact Or.inr rest

theorem plain_stored {term : List Char} (present : term ≠ []) (last : term.getLast? ≠ some ' ')
    (plain : ∀ c ∈ term, Plain c) (lists : List (List String)) (nonempty : lists ≠ []) :
    InStored term lists ↔ Punctuation term lists ∨ InSpelling term lists := by
  obtain ⟨first, mem⟩ := List.exists_mem_of_ne_nil lists nonempty
  simp only [InStored, plain_stored_iff present last plain]
  constructor
  · rintro ⟨list, inside, ⟨rfl, both⟩ | opening | closing | ⟨more, comma⟩ | spelled⟩
    · exact Or.inl (Or.inr (Or.inr (Or.inr ⟨both, inside⟩)))
    · exact Or.inl (Or.inl opening)
    · exact Or.inl (Or.inr (Or.inl closing))
    · exact Or.inl (Or.inr (Or.inr (Or.inl ⟨comma, list, inside, more⟩)))
    · exact Or.inr ⟨list, inside, spelled⟩
  · rintro ((opening | closing | ⟨comma, list, inside, more⟩ | ⟨both, inside⟩) | spelled)
    · exact ⟨first, mem, Or.inr (Or.inl opening)⟩
    · exact ⟨first, mem, Or.inr (Or.inr (Or.inl closing))⟩
    · exact ⟨list, inside, Or.inr (Or.inr (Or.inr (Or.inl ⟨more, comma⟩)))⟩
    · exact ⟨[], inside, Or.inl ⟨rfl, both⟩⟩
    · obtain ⟨list, inside, found⟩ := spelled
      exact ⟨list, inside, Or.inr (Or.inr (Or.inr (Or.inr found)))⟩

/-- A term with a quote or a backslash is no punctuation. -/
theorem quoted_stored {term : List Char} (quoted : '"' ∈ term ∨ '\\' ∈ term)
    (lists : List (List String)) :
    InStored term lists ↔ InSpelling term lists ∨ AcrossQuote term lists := by
  have no_piece : ∀ piece : List Char, '"' ∉ piece → '\\' ∉ piece → ¬ lower term <:+: piece := by
    intro piece quote backslash inside
    rcases quoted with mem | mem
    · exact quote (inside.subset ((lower_mem_iff (by decide) (by decide)).mpr mem))
    · exact backslash (inside.subset ((lower_mem_iff (by decide) (by decide)).mpr mem))
  have each : ∀ list : List String, Occurs term (dumpsStrings list) ↔
      (∃ address ∈ list, lower term <:+: lower (spelling address.toList)) ∨
        Crosses (lower term) (cuts (list.map fun address => lower (spelling address.toList))) := by
    intro list
    rw [Occurs, stored_text, part_list_text]
    simp only [no_piece ['[', ']'] (by decide) (by decide), no_piece ['['] (by decide) (by decide),
      no_piece [']'] (by decide) (by decide), no_piece [',', ' '] (by decide) (by decide),
      and_false, false_or, List.mem_map, exists_exists_and_eq_and]
  simp only [InStored, InSpelling, AcrossQuote, each, and_or_left, exists_or]

/-- A term that JSON writes as it is stays where it is when the address is spelled. -/
theorem plain_in_spelling {term address : List Char} (plain : ∀ c ∈ term, Plain c)
    (inside : lower term <:+: lower address) : lower term <:+: lower (spelling address) := by
  obtain ⟨front, back, whole⟩ := inside
  obtain ⟨rest, tail, rfl, before, rfl⟩ := List.map_eq_append_iff.mp whole.symm
  obtain ⟨head, middle, rfl, rfl, same⟩ := List.map_eq_append_iff.mp before
  have kept : spelling middle = middle := by
    refine plain_spelling fun c mem => lower_plain.mp ?_
    have lowered : c.toLower ∈ lower term := same ▸ List.mem_map_of_mem mem
    obtain ⟨d, there, eq⟩ := List.mem_map.mp lowered
    exact eq ▸ lower_plain.mpr (plain d there)
  have split : spelling (head ++ middle ++ tail) = spelling head ++ middle ++ spelling tail := by
    simp only [spelling, List.flatMap_append] at kept ⊢
    rw [kept]
  rw [split]
  refine ⟨lower (spelling head), lower (spelling tail), ?_⟩
  have lowered : lower (spelling head ++ middle ++ spelling tail) =
      lower (spelling head) ++ lower middle ++ lower (spelling tail) := by
    simp only [lower, List.map_append]
  rw [lowered]
  exact congrArg (fun part => lower (spelling head) ++ part ++ lower (spelling tail)) same.symm

theorem unprintable_not_stored {term : List Char} {c : Char} (mem : c ∈ term)
    (odd : ¬ Printable c) (lists : List (List String)) : ¬ InStored term lists := by
  rintro ⟨list, _, found⟩
  have inside : c.toLower ∈ lower (dumpsStrings list).toList :=
    List.IsInfix.subset found (List.mem_map_of_mem mem)
  obtain ⟨d, written, same⟩ := List.mem_map.mp inside
  have printable := lower_printable.mpr (dumps_strings_printable list d written)
  exact odd (lower_printable.mp (same ▸ printable))

theorem searchable_iff {term : List Char} (present : term ≠ []) (last : term.getLast? ≠ some ' ')
    {lists : List (List String)} (nonempty : lists ≠ []) :
    (InStored term lists ↔ InAddress term lists) ↔ Searchable term lists := by
  by_cases printable : ∀ c ∈ term, Printable c
  · have written : ¬ ∃ c ∈ term, ¬ Printable c := by simpa using printable
    by_cases plain : ∀ c ∈ term, Plain c
    · have unquoted : ¬ ('"' ∈ term ∨ '\\' ∈ term) := by
        rintro (quote | backslash)
        · exact (plain _ quote).2.1 rfl
        · exact (plain _ backslash).2.2 rfl
      have spelled : InAddress term lists → InSpelling term lists := by
        rintro ⟨list, mem, address, inside, found⟩
        exact ⟨list, mem, address, inside, plain_in_spelling plain found⟩
      rw [plain_stored present last plain lists nonempty]
      unfold Searchable
      tauto
    · have quoted : '"' ∈ term ∨ '\\' ∈ term := by
        by_contra neither
        rw [not_or] at neither
        refine plain fun c mem => ⟨printable c mem, ?_, ?_⟩
        · exact fun same => neither.1 (same ▸ mem)
        · exact fun same => neither.2 (same ▸ mem)
      rw [quoted_stored quoted]
      unfold Searchable
      tauto
  · have odd : ∃ c ∈ term, ¬ Printable c := by simpa using printable
    have notPlain : ¬ ∀ c ∈ term, Plain c := fun plain => printable fun c mem => (plain c mem).1
    obtain ⟨c, mem, out⟩ := odd
    have unstored := unprintable_not_stored mem out lists
    constructor
    · intro same
      exact Or.inl ⟨⟨c, mem, out⟩, fun found => unstored (same.mpr found)⟩
    · rintro (⟨_, missing⟩ | ⟨plain, _⟩ | ⟨all, _⟩)
      · exact iff_of_false unstored missing
      · exact absurd plain notPlain
      · exact absurd all printable

theorem included_iff {db : Database} {filters : Filters} {limit : Nat} (positive : 1 ≤ limit)
    {m : Message} : Included db filters limit m ↔
      m ∈ db.messages.rows ∧ matchesFilters db filters m = true := by
  constructor
  · rintro ⟨n, pages, walked, mem⟩
    obtain ⟨other, same, both⟩ := (walk_order walked).2 m mem
    rw [List.eq_of_mem_replicate same] at both
    exact both
  · intro both
    obtain ⟨n, pages, walked, listed⟩ := walk_of_unchanged filters positive db
    exact ⟨n, pages, walked, (listed m).mpr both⟩

/-- A search narrows what the other filters permit. -/
theorem filters_split (db : Database) (filters : Filters) (m : Message) :
    matchesFilters db filters m =
      (matchesFilters db { filters with search := none } m && matchesSearch filters.search m) := by
  have unsearched : matchesSearch none m = true := (matches_search_iff none m).mpr (Or.inl rfl)
  simp only [matchesFilters, unsearched, Bool.and_true]

section Imported
variable {Msg : Type} {email : EmailPackage Msg} {headerBytes : Bytes} {parsed : ParsedHeader}

/-- The addresses are stored as two JSON lists. -/
theorem parsed_recipients (parse : parseHeaderBlock email headerBytes = .ok parsed) :
    parsed.toAddrs = dumpsStrings (recipients email headerBytes "To") ∧
      parsed.ccAddrs = dumpsStrings (recipients email headerBytes "Cc") := by
  obtain ⟨toText, ccText, toRead, ccRead, _, toAddrs, ccAddrs⟩ := parsed_parts email parse
  unfold recipients
  rw [toRead, ccRead]
  exact ⟨toAddrs, ccAddrs⟩

theorem matches_stored_iff {m : Message} (parse : parseHeaderBlock email headerBytes = .ok parsed)
    (imported : ImportedFrom parsed m) {filters : Filters} (present : termOf filters ≠ []) :
    matchesSearch filters.search m = true ↔ InEnvelope (termOf filters) m ∨
      InStored (termOf filters)
        [recipients email headerBytes "To", recipients email headerBytes "Cc"] := by
  obtain ⟨toAddrs, ccAddrs⟩ := parsed_recipients parse
  have toStored : m.toAddrs = some _ := imported.toAddrs.trans (congrArg some toAddrs)
  have ccStored : m.ccAddrs = some _ := imported.ccAddrs.trans (congrArg some ccAddrs)
  have asked : ¬ strip (filters.search.getD "").toList = [] := present
  rw [matches_search_iff, or_iff_right asked, searchFields, toStored, ccStored]
  simp only [InEnvelope, InStored, termOf, Occurs, List.exists_mem_cons_iff, List.not_mem_nil,
    false_and, exists_false, or_false, Option.some.injEq, exists_eq_left', or_assoc]

/-- For every search term and every imported message: the list includes the message just
    when the term occurs in its envelope or one of its addresses, if and only if the term is
    in the envelope or can be searched for in the JSON text. -/
theorem search_exact_iff {db : Database} {filters : Filters} {limit : Nat} {m : Message}
    (parse : parseHeaderBlock email headerBytes = .ok parsed) (imported : ImportedFrom parsed m)
    (row : m ∈ db.messages.rows) (others : matchesFilters db { filters with search := none } m = true)
    (present : termOf filters ≠ []) (positive : 1 ≤ limit) :
    (Included db filters limit m ↔ InEnvelope (termOf filters) m ∨
      InAddress (termOf filters)
        [recipients email headerBytes "To", recipients email headerBytes "Cc"]) ↔
      InEnvelope (termOf filters) m ∨
        Searchable (termOf filters)
          [recipients email headerBytes "To", recipients email headerBytes "Cc"] := by
  have searched := matches_stored_iff parse imported present
  have last := strip_last (filters.search.getD "").toList
  have exact := searchable_iff present last (List.cons_ne_nil (recipients email headerBytes "To")
    [recipients email headerBytes "Cc"])
  rw [included_iff positive, filters_split, others, Bool.true_and, searched, ← exact]
  simp only [row, true_and]
  by_cases found : InEnvelope (termOf filters) m
  · simp [found]
  · simp [found]

end Imported

/- A mail to one address with a letter outside ASCII. -/
def reneAddress : String := "rené@example.com"

def reneHeader : Bytes := ("To: " ++ reneAddress ++ "\r\n\r\n").toUTF8.toList

/- What the email package answers for that header block. -/
def reneEmail : EmailPackage Bytes where
  parsebytes := id
  get := fun _ name => .ok (if name = "To" then some reneAddress else none)
  rawItems := fun _ => [("To", reneAddress)]
  unparsedAddress := id
  parseaddr := fun _ => ("", "")
  getaddresses := fun text => [("", text)]
  parsedateToDatetime := fun _ => .error (.valueError "Invalid date value or format")

def reneParsed : ParsedHeader where
  subject := none
  fromName := none
  fromAddr := none
  toAddrs := dumpsStrings [reneAddress]
  ccAddrs := dumpsStrings []
  dateSent := none
  messageIdHeader := none
  inReplyTo := none
  references := none

def reneLetter : Message :=
  { letter 1 none with
    subject := none
    toAddrs := some (dumpsStrings [reneAddress])
    ccAddrs := some (dumpsStrings []) }

def reneBox : Database := inboxWith reneLetter rfl rfl

def searching (term : String) : Filters := ⟨none, none, false, false, some term⟩

theorem rene_parse : parseHeaderBlock reneEmail reneHeader = .ok reneParsed := rfl

theorem rene_imported : ImportedFrom reneParsed reneLetter := ⟨rfl, rfl, rfl, rfl, rfl⟩

theorem rene_permitted (term : String) :
    matchesFilters reneBox { searching term with search := none } reneLetter = true := by
  show matchesFilters reneBox ⟨none, none, false, false, none⟩ reneLetter = true
  decide +kernel

theorem search_exact_iff_ren : Included reneBox (searching " REN ") 50 reneLetter := by
  have present : termOf (searching " REN ") ≠ [] := by decide
  have inside : InAddress (termOf (searching " REN "))
      [recipients reneEmail reneHeader "To", recipients reneEmail reneHeader "Cc"] :=
    ⟨_, List.mem_cons_self, _, List.mem_singleton.mpr rfl, by decide +kernel⟩
  have plain : ∀ c ∈ termOf (searching " REN "), Plain c :=
    all_of_check (by decide +kernel)
  have law := search_exact_iff rene_parse rene_imported List.mem_cons_self
    (rene_permitted " REN ") present (show 1 ≤ 50 by decide)
  exact (law.mpr (Or.inr (Or.inr (Or.inl ⟨plain, Or.inl inside⟩)))).mpr (Or.inr inside)

/- The letter is missed by its own accent and found by a bracket that it does not have. -/
theorem accent_missed_bracket_found :
    parseHeaderBlock reneEmail reneHeader = .ok reneParsed ∧ ImportedFrom reneParsed reneLetter ∧
      (InAddress (termOf (searching "é")) [[reneAddress], []] ∧
        ¬ Included reneBox (searching "é") 50 reneLetter) ∧
      (Included reneBox (searching "]") 50 reneLetter ∧
        ¬ InEnvelope (termOf (searching "]")) reneLetter ∧
        ¬ InAddress (termOf (searching "]")) [[reneAddress], []]) := by
  have many : 1 ≤ 50 := by decide
  refine ⟨rfl, rene_imported, ⟨?_, ?_⟩, ?_, ?_, ?_⟩
  · exact ⟨_, List.mem_cons_self, _, List.mem_singleton.mpr rfl, by decide +kernel⟩
  · rw [included_iff many]
    exact fun both => absurd both.2 (by decide +kernel)
  · rw [included_iff many]
    exact ⟨List.mem_cons_self, by decide +kernel⟩
  · simp [InEnvelope, reneLetter, letter]
  · rintro ⟨list, mem, address, inside, found⟩
    have only : ∀ list ∈ [[reneAddress], []], ∀ address ∈ list,
        ¬ Occurs (termOf (searching "]")) address := by decide +kernel
    exact only list mem address inside found

end InboxRecipientSearch
