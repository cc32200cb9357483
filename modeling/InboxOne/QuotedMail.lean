import InboxOne.HtmlTemplates

/-!
The HTML that quotes a mail: below a reply, in a forward, and in the frame of the reading
pane. A mail without an HTML body is quoted by its text. The forward and the frame escape
what they put in; the reply puts the sender and the text in as they are.
-/
namespace InboxQuotedMail
open HtmlTokens

/-- What the quoting reads of a fetched message. -/
structure MessageDetail where
  subject : Option String
  fromName : Option String
  fromAddr : Option String
  toAddrs : List String
  dateSent : Option String
  textBody : Option String
  htmlBody : Option String
  deriving DecidableEq, Repr

/-- `a || b`, with a text on the right. -/
def orText (a : Option String) (b : String) : String := if a.getD "" = "" then b else a.getD ""

/-- `text.replace(/c/g, by)`. -/
def replaceAll (c : Char) (replacement text : String) : String :=
  String.ofList (text.toList.flatMap fun d => if d = c then replacement.toList else [d])

def escapeHtml (text : String) : String :=
  replaceAll '>' "&gt;" (replaceAll '<' "&lt;" (replaceAll '&' "&amp;" text))

def whoOf (detail : MessageDetail) : String := orText detail.fromName (orText detail.fromAddr "them")

def fromOf (detail : MessageDetail) : String :=
  if detail.fromName.getD "" ≠ "" then
    detail.fromName.getD "" ++ " <" ++ detail.fromAddr.getD "" ++ ">"
  else detail.fromAddr.getD ""

def subjectOf (detail : MessageDetail) : String := detail.subject.getD ""

def recipientsOf (detail : MessageDetail) : String := ", ".intercalate detail.toAddrs

def textOf (detail : MessageDetail) : String := detail.textBody.getD ""

section Builders
variable (toLocaleString : String → String)

/-- An empty date counts as none. -/
def whenOf (detail : MessageDetail) : String :=
  if detail.dateSent.getD "" ≠ "" then toLocaleString (detail.dateSent.getD "") else ""

def buildQuotedHtml (detail : MessageDetail) : String :=
  let body := detail.htmlBody.getD ("<pre>" ++ textOf detail ++ "</pre>")
  "<p>On " ++ whenOf toLocaleString detail ++ ", " ++ whoOf detail ++
    " wrote:</p><blockquote style=\"border-left:2px solid #ccc;" ++
    "padding-left:10px;margin-left:0;color:#555;\">" ++ body ++ "</blockquote>"

def buildForwardedHtml (detail : MessageDetail) : String :=
  let body := detail.htmlBody.getD ("<pre>" ++ escapeHtml (textOf detail) ++ "</pre>")
  "<p><br></p><p>---------- Forwarded message ---------</p><p><strong>From:</strong> " ++
    escapeHtml (fromOf detail) ++ "<br><strong>Date:</strong> " ++
    escapeHtml (whenOf toLocaleString detail) ++ "<br><strong>Subject:</strong> " ++
    escapeHtml (subjectOf detail) ++ "<br><strong>To:</strong> " ++
    escapeHtml (recipientsOf detail) ++ "</p>" ++ body

end Builders

/-- Empty as long as nothing is fetched. -/
def srcDoc : Option MessageDetail → String
  | none => ""
  | some detail =>
      let body := detail.htmlBody.getD
        ("<pre style=\"white-space:pre-wrap;font-family:inherit;\">" ++
          escapeHtml (textOf detail) ++ "</pre>")
      "<html><head><meta name=\"color-scheme\" content=\"light\"><base target=\"_blank\"></head>" ++
        "<body style=\"margin:0;padding:12px;background:#fff;color:#111;" ++
        "font-family:system-ui,sans-serif;font-size:14px;\">" ++ body ++ "</body></html>"

def quoteStart : List Piece := [.opened "p" [], .words "On "]

def quoteMiddle : List Piece := [.words " wrote:", .closed "p", .opened "blockquote"
  [("style", "border-left:2px solid #ccc;padding-left:10px;margin-left:0;color:#555;")],
  .opened "pre" []]

def quoteEnd : List Piece := [.closed "pre", .closed "blockquote"]

/-- A reply that quotes these texts. -/
def quotedTokens (date who text : String) : List Token :=
  shownAs quoteStart ++ (chars date.toList ++ (chars ", ".toList ++ (chars who.toList ++
    (shownAs quoteMiddle ++ (chars text.toList ++ (shownAs quoteEnd ++ []))))))

def forwardStart : List Piece := [.opened "p" [], .opened "br" [], .closed "p", .opened "p" [],
  .words "---------- Forwarded message ---------", .closed "p", .opened "p" [],
  .opened "strong" [], .words "From:", .closed "strong", .words " "]

/-- Between two fields of the forwarded header. -/
def fieldStart (label : String) : List Piece :=
  [.opened "br" [], .opened "strong" [], .words label, .closed "strong", .words " "]

def forwardMiddle : List Piece := [.closed "p", .opened "pre" []]

def forwardEnd : List Piece := [.closed "pre"]

/-- A forward that quotes these texts. -/
def forwardedTokens (sender date subject recipients text : String) : List Token :=
  shownAs forwardStart ++ (chars sender.toList ++ (shownAs (fieldStart "Date:") ++
    (chars date.toList ++ (shownAs (fieldStart "Subject:") ++ (chars subject.toList ++
      (shownAs (fieldStart "To:") ++ (chars recipients.toList ++ (shownAs forwardMiddle ++
        (chars text.toList ++ (shownAs forwardEnd ++ []))))))))))

def paneStart : List Piece := [.opened "html" [], .opened "head" [],
  .opened "meta" [("name", "color-scheme"), ("content", "light")],
  .opened "base" [("target", "_blank")], .closed "head",
  .opened "body" [("style", "margin:0;padding:12px;background:#fff;color:#111;" ++
    "font-family:system-ui,sans-serif;font-size:14px;")],
  .opened "pre" [("style", "white-space:pre-wrap;font-family:inherit;")]]

def paneEnd : List Piece := [.closed "pre", .closed "body", .closed "html"]

/-- A frame that shows this text. -/
def paneTokens (text : String) : List Token :=
  shownAs paneStart ++ (chars text.toList ++ (shownAs paneEnd ++ []))

/-- The characters at the start of the first preformatted element. -/
def preformatted (ts : List Token) : List Char := leading (ts.dropWhile fun t => !opensPre t).tail

theorem quote_start_source : source quoteStart = "<p>On ".toList := by
  simp [source, quoteStart, Piece.source, openTag, spelled, attributesText]

theorem quote_middle_source : source quoteMiddle =
    " wrote:</p><blockquote style=\"border-left:2px solid #ccc;".toList ++
      ("padding-left:10px;margin-left:0;color:#555;\">".toList ++ "<pre>".toList) := by
  simp [source, quoteMiddle, Piece.source, openTag, closeTag, spelled, attributesText, attributeText]

theorem quote_end_source : source quoteEnd = "</pre>".toList ++ "</blockquote>".toList := by
  simp [source, quoteEnd, Piece.source, closeTag]

theorem forward_start_source : source forwardStart =
    "<p><br></p><p>---------- Forwarded message ---------</p><p><strong>From:</strong> ".toList := by
  simp [source, forwardStart, Piece.source, openTag, closeTag, spelled, attributesText]

theorem date_source : source (fieldStart "Date:") = "<br><strong>Date:</strong> ".toList := by
  simp [source, fieldStart, Piece.source, openTag, closeTag, spelled, attributesText]

theorem subject_source :
    source (fieldStart "Subject:") = "<br><strong>Subject:</strong> ".toList := by
  simp [source, fieldStart, Piece.source, openTag, closeTag, spelled, attributesText]

theorem recipients_source : source (fieldStart "To:") = "<br><strong>To:</strong> ".toList := by
  simp [source, fieldStart, Piece.source, openTag, closeTag, spelled, attributesText]

theorem forward_middle_source : source forwardMiddle = "</p>".toList ++ "<pre>".toList := by
  simp [source, forwardMiddle, Piece.source, openTag, closeTag, spelled, attributesText]

theorem forward_end_source : source forwardEnd = "</pre>".toList := by
  simp [source, forwardEnd, Piece.source, closeTag]

theorem pane_start_source : source paneStart =
    "<html><head><meta name=\"color-scheme\" content=\"light\"><base target=\"_blank\"></head>".toList ++
      ("<body style=\"margin:0;padding:12px;background:#fff;color:#111;".toList ++
        ("font-family:system-ui,sans-serif;font-size:14px;\">".toList ++
          "<pre style=\"white-space:pre-wrap;font-family:inherit;\">".toList)) := by
  simp [source, paneStart, Piece.source, openTag, closeTag, spelled, attributesText, attributeText]

theorem pane_end_source : source paneEnd = "</pre>".toList ++ "</body></html>".toList := by
  simp [source, paneEnd, Piece.source, closeTag]

section Texts
variable (toLocaleString : String → String) {detail : MessageDetail}

theorem reply_text (plain : detail.htmlBody = none) :
    (buildQuotedHtml toLocaleString detail).toList = source quoteStart ++
      ((whenOf toLocaleString detail).toList ++ (", ".toList ++ ((whoOf detail).toList ++
        (source quoteMiddle ++ ((textOf detail).toList ++ (source quoteEnd ++ [])))))) := by
  rw [quote_start_source, quote_middle_source, quote_end_source]
  unfold buildQuotedHtml
  simp only [plain, Option.getD_none, String.toList_append, List.append_assoc, List.append_nil]

theorem forward_text (plain : detail.htmlBody = none) :
    (buildForwardedHtml toLocaleString detail).toList = source forwardStart ++
      ((escapeHtml (fromOf detail)).toList ++ (source (fieldStart "Date:") ++
        ((escapeHtml (whenOf toLocaleString detail)).toList ++ (source (fieldStart "Subject:") ++
          ((escapeHtml (subjectOf detail)).toList ++ (source (fieldStart "To:") ++
            ((escapeHtml (recipientsOf detail)).toList ++ (source forwardMiddle ++
              ((escapeHtml (textOf detail)).toList ++ (source forwardEnd ++ [])))))))))) := by
  rw [date_source, subject_source, recipients_source, forward_start_source, forward_middle_source,
    forward_end_source]
  unfold buildForwardedHtml
  simp only [plain, Option.getD_none, String.toList_append, List.append_assoc, List.append_nil]

theorem pane_text (plain : detail.htmlBody = none) :
    (srcDoc (some detail)).toList = source paneStart ++ ((escapeHtml (textOf detail)).toList ++
      (source paneEnd ++ [])) := by
  rw [pane_start_source, pane_end_source]
  unfold srcDoc
  simp only [plain, Option.getD_none, String.toList_append, List.append_assoc, List.append_nil]

end Texts

theorem replace_all_text (c : Char) (replacement text : String) :
    (replaceAll c replacement text).toList =
      text.toList.flatMap fun d => if d = c then replacement.toList else [d] := by
  rw [replaceAll, String.toList_ofList]

/-- What is put in by a later replacement is not replaced again. -/
theorem escape_html_text (text : String) : (escapeHtml text).toList = escape text.toList := by
  rw [escapeHtml, replace_all_text, replace_all_text, replace_all_text, List.flatMap_assoc,
    List.flatMap_assoc, escape]
  congr 1
  funext d
  by_cases amp : d = '&'
  · rw [amp]
    rfl
  · by_cases less : d = '<'
    · rw [less]
      rfl
    · rw [if_neg amp]
      by_cases greater : d = '>'
      · rw [greater]
        rfl
      · simp [less, greater, escape_plain amp less greater]

/-- The texts that are put in. -/
def textsOf (detail : MessageDetail) : List String :=
  detail.fromName.getD "" :: detail.fromAddr.getD "" :: subjectOf detail :: textOf detail ::
    detail.toAddrs

def Clean (text : List Char) : Prop := ∀ c ∈ text, c ≠ '\r' ∧ c ≠ nulChar

theorem carried_clean {text : List Char} : Carried false text ↔ Clean text :=
  ⟨fun both => both.1, fun clean => ⟨clean, nofun⟩⟩

theorem clean_append {text text' : List Char} : Clean (text ++ text') ↔ Clean text ∧ Clean text' :=
  List.forall_mem_append

theorem clean_of_check {text : List Char}
    (check : text.all (fun c => c != '\r' && c != nulChar) = true) : Clean text := by
  intro c mem
  simpa using List.all_eq_true.mp check c mem

theorem clean_recipients {texts : List String} :
    Clean (", ".intercalate texts).toList ↔ ∀ text ∈ texts, Clean text.toList := by
  have comma : Clean ", ".toList := clean_of_check (by decide)
  induction texts with
  | nil => simp [Clean]
  | cons first rest ih =>
    cases rest with
    | nil => simp
    | cons second rest =>
      rw [String.intercalate_cons_cons, String.toList_append, String.toList_append, clean_append,
        clean_append, List.forall_mem_cons]
      exact ⟨fun all => ⟨all.1.1, ih.mp all.2⟩, fun all => ⟨⟨all.1, comma⟩, ih.mpr all.2⟩⟩

theorem clean_sender {detail : MessageDetail} : Clean (fromOf detail).toList ↔
    Clean (detail.fromName.getD "").toList ∧ Clean (detail.fromAddr.getD "").toList := by
  have opens : Clean " <".toList := clean_of_check (by decide)
  have closes : Clean ">".toList := clean_of_check (by decide)
  unfold fromOf
  split
  · rw [String.toList_append, String.toList_append, String.toList_append, clean_append,
      clean_append, clean_append]
    exact ⟨fun all => ⟨all.1.1.1, all.1.2⟩, fun both => ⟨⟨⟨both.1, opens⟩, both.2⟩, closes⟩⟩
  · rename_i empty
    rw [not_not.mp empty]
    exact ⟨fun address => ⟨fun c mem => absurd mem (by simp), address⟩, fun both => both.2⟩

section Quoting
variable {names : CharacterNames} {toLocaleString : String → String} {detail : MessageDetail}

theorem quote_start : Literal names (source quoteStart) (shownAs quoteStart) false :=
  template_literal (by decide)

theorem quote_middle : Delimiter names (source quoteMiddle) (shownAs quoteMiddle) true :=
  template_delimiter (by decide)

theorem quote_end : Delimiter names (source quoteEnd) (shownAs quoteEnd) false :=
  template_delimiter (by decide)

theorem forward_start : Literal names (source forwardStart) (shownAs forwardStart) false :=
  template_literal (by decide)

theorem date_start :
    Delimiter names (source (fieldStart "Date:")) (shownAs (fieldStart "Date:")) false :=
  template_delimiter (by decide)

theorem subject_start :
    Delimiter names (source (fieldStart "Subject:")) (shownAs (fieldStart "Subject:")) false :=
  template_delimiter (by decide)

theorem recipients_start :
    Delimiter names (source (fieldStart "To:")) (shownAs (fieldStart "To:")) false :=
  template_delimiter (by decide)

theorem forward_middle : Delimiter names (source forwardMiddle) (shownAs forwardMiddle) true :=
  template_delimiter (by decide)

theorem forward_end : Delimiter names (source forwardEnd) (shownAs forwardEnd) false :=
  template_delimiter (by decide)

theorem pane_start : Literal names (source paneStart) (shownAs paneStart) true :=
  template_literal (by decide)

theorem pane_end : Delimiter names (source paneEnd) (shownAs paneEnd) false :=
  template_delimiter (by decide)

theorem comma : Literal names ", ".toList (chars ", ".toList) false := literal_text (by decide)

/-- Raw texts: the reply. -/
theorem reply_shown_iff (plain : detail.htmlBody = none)
    (date : (whenOf toLocaleString detail).toList.all isFixed = true) :
    display names (buildQuotedHtml toLocaleString detail).toList =
        quotedTokens (whenOf toLocaleString detail) (whoOf detail) (textOf detail) ↔
      (isPlain names (whoOf detail).toList = true ∧ Carried false (whoOf detail).toList) ∧
        isPlain names (textOf detail).toList = true ∧ Carried true (textOf detail).toList := by
  rw [reply_text toLocaleString plain]
  change Shows names false _ (quotedTokens _ _ _) ↔ _
  rw [quotedTokens, literal_rule quote_start, literal_rule (literal_text date), literal_rule comma,
    raw_rule quote_middle, raw_rule quote_end, and_assoc]
  simp only [shows_end, and_true]

/-- Escaped texts: the forward. -/
theorem forward_shown_iff (plain : detail.htmlBody = none) :
    display names (buildForwardedHtml toLocaleString detail).toList =
        forwardedTokens (fromOf detail) (whenOf toLocaleString detail) (subjectOf detail)
          (recipientsOf detail) (textOf detail) ↔
      Carried false (fromOf detail).toList ∧ Carried false (whenOf toLocaleString detail).toList ∧
        Carried false (subjectOf detail).toList ∧ Carried false (recipientsOf detail).toList ∧
          Carried true (textOf detail).toList := by
  rw [forward_text toLocaleString plain]
  change Shows names false _ (forwardedTokens _ _ _ _ _) ↔ _
  rw [forwardedTokens, literal_rule forward_start]
  simp only [escape_html_text, escaped_rule date_start, escaped_rule subject_start,
    escaped_rule recipients_start, escaped_rule forward_middle, escaped_rule forward_end, shows_end,
    and_true]

theorem pane_shown_iff (plain : detail.htmlBody = none) :
    display names (srcDoc (some detail)).toList = paneTokens (textOf detail) ↔
      Carried true (textOf detail).toList := by
  rw [pane_text plain]
  change Shows names false _ (paneTokens _) ↔ _
  rw [paneTokens, literal_rule pane_start, escape_html_text, escaped_rule pane_end]
  simp only [shows_end, and_true]

theorem preformatted_front {front : List Token} (others : front.all (fun t => !opensPre t) = true)
    (rest : List Token) : preformatted (front ++ rest) = preformatted rest := by
  rw [preformatted, List.dropWhile_append_of_pos (List.all_eq_true.mp others)]
  rfl

theorem preformatted_chars (text : List Char) (rest : List Token) :
    preformatted (chars text ++ rest) = preformatted rest := by
  apply preformatted_front
  rw [chars, List.all_map, List.all_eq_true]
  exact fun c _ => rfl

theorem preformatted_start (inside text : List Char) (t : Token) (rest : List Token)
    (tag : leading (t :: rest) = []) :
    preformatted (.start "pre".toList inside :: (chars text ++ t :: rest)) = text := by
  have opened : opensPre (.start "pre".toList inside) = true := rfl
  rw [preformatted, List.dropWhile_cons_of_neg (by rw [opened]; decide), List.tail_cons, leading_chars,
    tag, List.append_nil]

/-- A reply and a forward that are read as meant quote the same text. -/
theorem same_text (date who sender date' subject recipients text : String) :
    preformatted (quotedTokens date who text) =
      preformatted (forwardedTokens sender date' subject recipients text) := by
  have reply : preformatted (quotedTokens date who text) = text.toList := by
    have middle : shownAs quoteMiddle = shownAs quoteMiddle.dropLast ++ [.start "pre".toList []] := rfl
    rw [quotedTokens, preformatted_front (by decide), preformatted_chars, preformatted_chars,
      preformatted_chars, middle, List.append_assoc, preformatted_front (by decide)]
    exact preformatted_start _ _ _ _ rfl
  have forward : preformatted (forwardedTokens sender date' subject recipients text) =
      text.toList := by
    have middle : shownAs forwardMiddle =
        shownAs forwardMiddle.dropLast ++ [.start "pre".toList []] := rfl
    rw [forwardedTokens, preformatted_front (by decide), preformatted_chars,
      preformatted_front (by decide), preformatted_chars, preformatted_front (by decide),
      preformatted_chars, preformatted_front (by decide), preformatted_chars, middle,
      List.append_assoc, preformatted_front (by decide)]
    exact preformatted_start _ _ _ _ rfl
  rw [reply, forward]

/-- Each of the three is read as its own template with the texts in it, and the reply quotes
    the same text as the forward. -/
structure QuotesPlainly (names : CharacterNames) (toLocaleString : String → String)
    (detail : MessageDetail) : Prop where
  reply : display names (buildQuotedHtml toLocaleString detail).toList =
    quotedTokens (whenOf toLocaleString detail) (whoOf detail) (textOf detail)
  forward : display names (buildForwardedHtml toLocaleString detail).toList =
    forwardedTokens (fromOf detail) (whenOf toLocaleString detail) (subjectOf detail)
      (recipientsOf detail) (textOf detail)
  pane : display names (srcDoc (some detail)).toList = paneTokens (textOf detail)
  same : preformatted (display names (buildQuotedHtml toLocaleString detail).toList) =
    preformatted (display names (buildForwardedHtml toLocaleString detail).toList)

/-- The sender and the text hold nothing that HTML reads as a tag or a reference, no text has
    a carriage return or a NUL, and the quoted text does not begin with a line feed. -/
structure Quotable (names : CharacterNames) (detail : MessageDetail) : Prop where
  who : isPlain names (whoOf detail).toList = true
  text : isPlain names (textOf detail).toList = true
  clean : ∀ text ∈ textsOf detail, Clean text.toList
  start : (textOf detail).toList.head? ≠ some '\n'

theorem clean_who (clean : ∀ text ∈ textsOf detail, Clean text.toList) :
    Clean (whoOf detail).toList := by
  unfold whoOf orText
  split
  · split
    · exact clean_of_check (by decide)
    · exact clean _ (List.mem_cons_of_mem _ List.mem_cons_self)
  · exact clean _ List.mem_cons_self

theorem when_fixed (locale : ∀ date, (toLocaleString date).toList.all isFixed = true)
    (detail : MessageDetail) : (whenOf toLocaleString detail).toList.all isFixed = true := by
  unfold whenOf
  split
  · exact locale _
  · rfl

theorem fixed_clean {text : List Char} (fixed : text.all isFixed = true) : Clean text := by
  intro c mem
  have each := List.all_eq_true.mp fixed c mem
  simp only [isFixed, Bool.and_eq_true, bne_iff_ne] at each
  exact ⟨each.1.2, each.2⟩

/-- For every fetched message without an HTML body. A localised date has no markup and no
    control characters of this kind. -/
theorem plain_quoting_iff (locale : ∀ date, (toLocaleString date).toList.all isFixed = true)
    (plain : detail.htmlBody = none) :
    QuotesPlainly names toLocaleString detail ↔ Quotable names detail := by
  have date := when_fixed locale detail
  constructor
  · rintro ⟨reply, forward, _, _⟩
    obtain ⟨⟨who, _⟩, text, _, start⟩ := (reply_shown_iff plain date).mp reply
    obtain ⟨sender, _, subject, recipients, body⟩ := (forward_shown_iff plain).mp forward
    obtain ⟨name, address⟩ := clean_sender.mp sender.1
    refine ⟨who, text, ?_, start rfl⟩
    simp only [textsOf, List.forall_mem_cons]
    exact ⟨name, address, subject.1, body.1, clean_recipients.mp recipients.1⟩
  · rintro ⟨who, text, clean, start⟩
    have senders := clean_who clean
    simp only [textsOf, List.forall_mem_cons] at clean
    obtain ⟨name, address, subject, body, recipients⟩ := clean
    have quoted : Carried true (textOf detail).toList := ⟨body, fun _ => start⟩
    have reply := (reply_shown_iff plain date).mpr
      ⟨⟨who, carried_clean.mpr senders⟩, text, quoted⟩
    have forward := (@forward_shown_iff names toLocaleString detail plain).mpr
      ⟨carried_clean.mpr (clean_sender.mpr ⟨name, address⟩), carried_clean.mpr (fixed_clean date),
        carried_clean.mpr subject, carried_clean.mpr (clean_recipients.mpr recipients), quoted⟩
    refine ⟨reply, forward, (pane_shown_iff plain).mpr quoted, ?_⟩
    rw [reply, forward]
    exact same_text _ _ _ _ _ _ _

end Quoting

/- Part of the table of HTML. -/
def commonEntries : List (String × String) :=
  [("amp;", "&"), ("lt;", "<"), ("gt;", ">"), ("quot;", "\""), ("copy;", "©"), ("amp", "&"),
    ("lt", "<"), ("gt", ">"), ("quot", "\""), ("copy", "©")]

def commonExpand (name : List Char) : Option (List Char) :=
  (commonEntries.find? fun e => e.1.toList == name).map fun e => e.2.toList

theorem common_expand_entry {name text : List Char} (found : commonExpand name = some text) :
    ∃ e ∈ commonEntries, e.1.toList = name ∧ e.2.toList = text := by
  obtain ⟨e, first, same⟩ := Option.map_eq_some_iff.mp found
  exact ⟨e, List.mem_of_find?_eq_some first, beq_iff_eq.mp (List.find?_some first :), same⟩

theorem common_spelled {name text : List Char} (found : commonExpand name = some text) :
    isReferenceName name = true := by
  have all : commonEntries.all (fun e => isReferenceName e.1.toList) = true := by decide
  obtain ⟨e, mem, rfl, _⟩ := common_expand_entry found
  exact List.all_eq_true.mp all e mem

theorem common_shorter {name text : List Char} (found : commonExpand name = some text) :
    text.length ≤ name.length := by
  have all : commonEntries.all (fun e => decide (e.2.toList.length ≤ e.1.toList.length)) = true := by
    decide
  obtain ⟨e, mem, rfl, rfl⟩ := common_expand_entry found
  exact of_decide_eq_true (List.all_eq_true.mp all e mem)

def commonNames : CharacterNames where
  expand := commonExpand
  spelled := common_spelled
  shorter := common_shorter
  amp := rfl
  lt := rfl
  gt := rfl

def noteFrom (name text : String) : MessageDetail where
  subject := some "Sums"
  fromName := some name
  fromAddr := some "ann@example.org"
  toAddrs := ["bob@example.org", "cem@example.org"]
  dateSent := some "2024-01-02T03:04:05Z"
  textBody := some text
  htmlBody := none

def utcLocale (_ : String) : String := "1/2/2024, 3:04:05 AM"

theorem utc_locale_fixed (date : String) : (utcLocale date).toList.all isFixed = true := by
  have fixed : "1/2/2024, 3:04:05 AM".toList.all isFixed = true := by decide
  exact fixed

theorem sums_clean : (textsOf (noteFrom "Ann & Bob" "1 < 2 & 2 > 1")).all
    (fun text => text.toList.all fun c => c != '\r' && c != nulChar) = true := by decide

theorem plain_quoting_iff_sums :
    QuotesPlainly commonNames utcLocale (noteFrom "Ann & Bob" "1 < 2 & 2 > 1") :=
  (plain_quoting_iff utc_locale_fixed rfl).mpr ⟨by decide, by decide,
    fun text mem => clean_of_check (List.all_eq_true.mp sums_clean text mem), by decide⟩

/- A tag, a reference and a line feed at the start of the text. -/
theorem tags_references_and_first_feed_lost :
    ¬ QuotesPlainly commonNames utcLocale (noteFrom "Ann" "see <b>here</b>") ∧
      ¬ QuotesPlainly commonNames utcLocale (noteFrom "Ann" "write &lt; for it") ∧
        ¬ QuotesPlainly commonNames utcLocale (noteFrom "Ann" "\nHello") := by
  refine ⟨fun quotes => ?_, fun quotes => ?_, fun quotes => ?_⟩
  · have shown := (reply_shown_iff rfl (when_fixed utc_locale_fixed _)).mp quotes.reply
    exact absurd shown.2.1 (by decide)
  · have shown := (reply_shown_iff rfl (when_fixed utc_locale_fixed _)).mp quotes.reply
    exact absurd shown.2.1 (by decide)
  · have shown := (reply_shown_iff rfl (when_fixed utc_locale_fixed _)).mp quotes.reply
    exact shown.2.2.2 rfl rfl

end InboxQuotedMail
