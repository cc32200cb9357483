import InboxOne.FetchedBodies
import InboxOne.FolderSegments
import InboxOne.MessageList

/-!
The date of one message in the list and in the reading pane. The list shows the stored
UTC reading of the Date header, or else of INTERNALDATE; the reading pane parses the Date
header of the fetched message again and shows what that gives.
-/
namespace InboxReadingDates
open FaultyCalls InboxPython InboxMailbox InboxMailParser InboxTables InboxDatabase InboxFolderSync
open InboxFolderSegments InboxImapClient InboxMessageRoutes InboxMessageList InboxMailParts
open InboxFetchedBodies

/-- Both are missing, or both carry an offset and denote one instant. -/
def SameInstant : Option Datetime → Option Datetime → Prop
  | none, none => True
  | some ⟨clock, some offset⟩, some ⟨clock', some offset'⟩ =>
      utcMicros clock offset = utcMicros clock' offset'
  | _, _ => False

/-- `date_sent` of a listed row, as the column gives it back. -/
def listedDate (m : Message) : Option Datetime := processResultValue m.dateSent

/-- What FETCH answers for the headers of a message. -/
def fetchedHeader (uid : Nat) (content : Content) : FetchedHeader :=
  ⟨uid, content.flags, content.internaldate, content.size, content.header⟩

section Dates
variable {Msg : Type} (email : EmailPackage Msg)

/-- The Date header is there and the package parses it to this datetime. -/
def DatedAs (headerBytes : Bytes) (date : Datetime) : Prop :=
  ∃ text, email.get (email.parsebytes headerBytes) "Date" = .ok (some text) ∧ text ≠ "" ∧
    email.parsedateToDatetime text = .ok date

/-- The package says that the text is no date. -/
def NoDate (text : String) : Prop :=
  (∃ message, email.parsedateToDatetime text = .error (.valueError message)) ∨
    ∃ message, email.parsedateToDatetime text = .error (.typeError message)

/-- The Date header is absent, empty or not a date. -/
def Undated (headerBytes : Bytes) : Prop :=
  email.get (email.parsebytes headerBytes) "Date" = .ok none ∨
    ∃ text, email.get (email.parsebytes headerBytes) "Date" = .ok (some text) ∧
      (text = "" ∨ NoDate email text)

def ReadAs (headerBytes : Bytes) : Option Datetime → Prop
  | none => Undated email headerBytes
  | some date => DatedAs email headerBytes date

variable {email} {headerBytes : Bytes}

theorem header_date_read {date : Option Datetime}
    (read : headerDate email (email.parsebytes headerBytes) = .ok date) :
    ReadAs email headerBytes date := by
  unfold headerDate at read
  obtain ⟨value, got, read⟩ := ok_of_bind read
  cases value with
  | none =>
    cases read
    exact Or.inl got
  | some text =>
    by_cases empty : text = ""
    · simp only [if_pos empty] at read
      cases read
      exact Or.inr ⟨text, got, Or.inl empty⟩
    · simp only [if_neg empty] at read
      cases parse : email.parsedateToDatetime text with
      | ok found =>
        rw [parse] at read
        cases read
        exact ⟨text, got, empty, parse⟩
      | error e =>
        rw [parse] at read
        cases e with
        | valueError message =>
          cases read
          exact Or.inr ⟨text, got, Or.inr (Or.inl ⟨message, parse⟩)⟩
        | typeError message =>
          cases read
          exact Or.inr ⟨text, got, Or.inr (Or.inr ⟨message, parse⟩)⟩
        | _ => contradiction

theorem dated_unique {date date' : Datetime} (first : DatedAs email headerBytes date)
    (second : DatedAs email headerBytes date') : date = date' := by
  obtain ⟨text, got, _, parse⟩ := first
  obtain ⟨text', got', _, parse'⟩ := second
  rw [got, Except.ok.injEq, Option.some.injEq] at got'
  rw [got', parse', Except.ok.injEq] at parse
  exact parse.symm

theorem dated_not_undated {date : Datetime} (dated : DatedAs email headerBytes date) :
    ¬ Undated email headerBytes := by
  obtain ⟨text, got, nonempty, parse⟩ := dated
  rintro (absent | ⟨text', got', reason⟩)
  · rw [absent] at got
    cases got
  · rw [got, Except.ok.injEq, Option.some.injEq] at got'
    rw [← got'] at reason
    rcases reason with empty | ⟨_, fails⟩ | ⟨_, fails⟩
    · exact nonempty empty
    · rw [parse] at fails
      contradiction
    · rw [parse] at fails
      contradiction

/-- An aware datetime is stored as its UTC reading. -/
theorem aware_stored {clock : Clock} {offset : Offset} {stored : Option Clock}
    (bound : processBindParam (some ⟨clock, some offset⟩) = .ok stored) :
    ∃ reading, stored = some reading ∧ (reading.micros : Int) = utcMicros clock offset := by
  simp only [processBindParam, astimezoneUtc] at bound
  split at bound
  · rename_i inside
    cases bound
    exact ⟨_, rfl, Int.toNat_of_nonneg inside.1⟩
  · contradiction

theorem utc_micros_utc (clock : Clock) : utcMicros clock utc = clock.micros := Int.sub_zero _

/-- The list and the reading pane, for a Date header that was read as `date`. -/
theorem same_instant_iff {date internaldate : Option Datetime} {stored : Option Clock}
    (bound : processBindParam (date.or internaldate) = .ok stored) :
    SameInstant (processResultValue stored) date ↔
      (∃ clock offset, date = some ⟨clock, some offset⟩) ∨ (date = none ∧ internaldate = none) := by
  match date with
  | none =>
    rw [Option.none_or] at bound
    cases internaldate with
    | none =>
      cases bound
      simp [processResultValue, SameInstant]
    | some received =>
      have kept : stored ≠ none := by
        obtain ⟨clock, zone⟩ := received
        cases zone with
        | none =>
          cases bound
          simp
        | some offset =>
          obtain ⟨reading, same, _⟩ := aware_stored bound
          simp [same]
      cases stored with
      | none => contradiction
      | some reading => simp [processResultValue, SameInstant]
  | some ⟨clock, none⟩ =>
    rw [Option.some_or] at bound
    cases bound
    simp [processResultValue, SameInstant]
  | some ⟨clock, some offset⟩ =>
    rw [Option.some_or] at bound
    obtain ⟨reading, rfl, same⟩ := aware_stored bound
    simp only [processResultValue, SameInstant, utc_micros_utc, same, true_iff]
    exact Or.inl ⟨clock, offset, rfl⟩

end Dates

/-- A page holds rows of the table. -/
theorem list_messages_rows {db : Database} {filters : Filters} {limit : Nat} {cursor : Option String}
    {page : Page} (listed : listMessages db filters limit cursor = some page) :
    ∀ m ∈ page.items, m ∈ db.messages.rows := by
  unfold listMessages at listed
  obtain ⟨under, _, listed⟩ := Option.bind_eq_some_iff.mp listed
  cases listed
  intro m mem
  have sorted := List.mem_of_mem_take (List.mem_of_mem_take mem)
  rw [KeysetPages.descending, List.mem_insertionSort] at sorted
  exact (mem_selected.mp (List.mem_filter.mp sorted).1).1

section Agreement
variable {Msg Draft : Type} (mail : MessagePackage Msg)
variable (buildReplyMime : Account → Draft → Message → Except PyException (Content × String))
variable (env : Environment)

/-- For every imported message that the list shows and the reading pane opens: the two dates
    agree if and only if the Date header is parsed to a datetime with an offset, or there is
    neither a date in the headers nor an INTERNALDATE. -/
theorem dates_agree_iff {db : Database} {m : Message} {folder : Folder} {content : Content}
    {parsed : ParsedHeader} (row : db.messageById m.id = some m) (home : db.folderOf m = some folder)
    (imported : Yields mail.toEmailPackage (fetchedHeader m.uid content) parsed m.dateSent)
    {servers : Servers}
    (served : Serves m folder.imapPath (content.header ++ content.body) servers)
    (alike : mail.get (mail.parsebytes (content.header ++ content.body)) "Date" =
      mail.get (mail.parsebytes content.header) "Date")
    {filters : Filters} {limit : Nat} {cursor : Option String} {page : Page}
    (listed : listMessages db filters limit cursor = some page) {item : Message}
    (inside : item ∈ page.items) (same : item.id = m.id)
    {outcomes : List Outcome} {detail : FullMessage}
    (opened : (getMessage (mailFormat mail buildReplyMime) env m.id ⟨begin db servers, outcomes⟩).1 =
      .ok detail) :
    SameInstant (listedDate item) detail.dateSent ↔
      (∃ clock offset, DatedAs mail.toEmailPackage content.header ⟨clock, some offset⟩) ∨
        (Undated mail.toEmailPackage content.header ∧ content.internaldate = none) := by
  obtain ⟨parse, bound⟩ := imported
  obtain ⟨_, _, _, _, read, _⟩ := parsed_parts _ parse
  have itself : item = m :=
    id_determines (list_messages_rows listed item inside) (message_by_id_eq.mp row).1 same
  have answer := get_message_answers _ env row home served opened
  obtain ⟨header, _, _, headerParse, _, _, rfl⟩ := parse_full_ok_iff.mp answer
  obtain ⟨_, _, _, _, reread, _⟩ := parsed_parts _ headerParse
  have once : header.dateSent = parsed.dateSent := by
    unfold headerDate at reread read
    rw [alike] at reread
    exact Except.ok.inj (reread.symm.trans read)
  have law := same_instant_iff bound
  rw [itself]
  show SameInstant (processResultValue m.dateSent) header.dateSent ↔ _
  rw [once, law]
  have known := header_date_read read
  cases date : parsed.dateSent with
  | none =>
    rw [date] at known
    constructor
    · rintro (⟨_, _, clash⟩ | ⟨_, missing⟩)
      · contradiction
      · exact Or.inr ⟨known, missing⟩
    · rintro (⟨_, _, dated⟩ | ⟨_, missing⟩)
      · exact absurd known (dated_not_undated dated)
      · exact Or.inr ⟨rfl, missing⟩
  | some found =>
    rw [date] at known
    constructor
    · rintro (⟨clock, offset, same⟩ | ⟨clash, _⟩)
      · cases same
        exact Or.inl ⟨clock, offset, known⟩
      · contradiction
    · rintro (⟨clock, offset, dated⟩ | ⟨undated, _⟩)
      · exact Or.inl ⟨clock, offset, congrArg some (dated_unique known dated)⟩
      · exact absurd undated (dated_not_undated known)

end Agreement

/- A mail without a body whose only header, if any, is the date. -/
def dateOnly (text : Option String) (internaldate : Option Datetime) : Content where
  flags := ∅
  internaldate := internaldate
  size := none
  header := (((text.map fun t => "Date: " ++ t ++ "\r\n").getD "") ++ "\r\n").toUTF8.data.toList
  body := []

/- What the email package answers for that mail, `date` being what it makes of the text. -/
def dateEmail (text : Option String) (date : Except PyException Datetime) :
    MessagePackage Bytes where
  parsebytes := id
  get := fun _ name => .ok (if name = "Date" then text else none)
  rawItems := fun _ => (text.map fun t => ("Date", t)).toList
  unparsedAddress := id
  parseaddr := fun _ => ("", "")
  getaddresses := fun _ => [("", "")]
  parsedateToDatetime := fun _ => date
  parseMessage := fun _ => .leaf ⟨none, none, "text/plain", none, some []⟩
  getBody := fun part kind => if kind = "plain" then some part else none
  getContent := fun _ => .ok ""

def dateRow (stored : Option Clock) : Message := { letter 1 stored with subject := none }

def dateDb (stored : Option Clock) : Database := inboxWith (dateRow stored) rfl rfl

def dateParsed (date : Option Datetime) : ParsedHeader where
  subject := none
  fromName := none
  fromAddr := none
  toAddrs := JsonText.dumpsStrings []
  ccAddrs := JsonText.dumpsStrings []
  dateSent := date
  messageIdHeader := none
  inReplyTo := none
  references := none

def dateDetail (date : Option Datetime) : FullMessage :=
  { dateParsed date with textBody := some "", htmlBody := none, attachments := [] }

def everything : Filters := ⟨none, none, false, false, none⟩

/- 2 January 2026, ten and twelve o'clock. -/
def tenOClock : Clock := ⟨63902944800000000, by decide⟩

def twelveOClock : Clock := ⟨63902952000000000, by decide⟩

def twoHours : Offset := ⟨7200000000, by decide, by decide⟩

theorem date_served (content : Content) (stored : Option Clock) :
    Serves (dateRow stored) "INBOX" (content.header ++ content.body) (oneMailServers content) := by
  intro mb here _ rm found
  cases here
  cases found
  rfl

theorem date_home (stored : Option Clock) :
    (dateDb stored).messageById 1 = some (dateRow stored) ∧
      (dateDb stored).folderOf (dateRow stored) = some inbox := ⟨rfl, rfl⟩

theorem date_listed (stored : Option Clock) :
    listMessages (dateDb stored) everything 50 none = some ⟨[dateRow stored], none⟩ := rfl

/- Opening the mail, when every call is answered. -/
def opened (text : Option String) (internaldate : Option Datetime)
    (date : Except PyException Datetime) (stored : Option Clock) : Except PyException FullMessage :=
  (getMessage (mailFormat (dateEmail text date) noReply) quietHost 1
    ⟨begin (dateDb stored) (oneMailServers (dateOnly text internaldate)), []⟩).1

theorem dates_agree_iff_zoned :
    SameInstant (listedDate (dateRow (some tenOClock)))
      (dateDetail (some ⟨twelveOClock, some twoHours⟩)).dateSent := by
  have answer : opened (some "Fri, 2 Jan 2026 12:00:00 +0200") none
      (.ok ⟨twelveOClock, some twoHours⟩) (some tenOClock) =
        .ok (dateDetail (some ⟨twelveOClock, some twoHours⟩)) := rfl
  have law := dates_agree_iff (dateEmail (some "Fri, 2 Jan 2026 12:00:00 +0200")
      (.ok ⟨twelveOClock, some twoHours⟩)) noReply quietHost (date_home (some tenOClock)).1
    (date_home (some tenOClock)).2 ⟨rfl, rfl⟩
    (date_served (dateOnly (some "Fri, 2 Jan 2026 12:00:00 +0200") none) _) rfl
    (date_listed (some tenOClock)) List.mem_cons_self rfl answer
  exact law.mpr (Or.inl ⟨_, _, _, rfl, by decide, rfl⟩)

/- The mail is imported, listed and opened; the reading pane shows `date`. -/
def Shown (text : Option String) (internaldate : Option Datetime)
    (parsedAs : Except PyException Datetime) (stored : Option Clock) (date : Option Datetime) :
    Prop :=
  Yields (dateEmail text parsedAs).toEmailPackage (fetchedHeader 1 (dateOnly text internaldate))
      (dateParsed date) stored ∧
    listMessages (dateDb stored) everything 50 none = some ⟨[dateRow stored], none⟩ ∧
    opened text internaldate parsedAs stored = .ok (dateDetail date)

/- A date without a zone is shown without an offset; without a Date header the list shows
   INTERNALDATE and the reading pane nothing. -/
theorem dates_disagree :
    (Shown (some "Fri, 2 Jan 2026 10:00:00 -0000") none (.ok ⟨tenOClock, none⟩) (some tenOClock)
        (some ⟨tenOClock, none⟩) ∧
      ¬ SameInstant (listedDate (dateRow (some tenOClock))) (some ⟨tenOClock, none⟩)) ∧
    (Shown none (some ⟨tenOClock, none⟩) (.error (.valueError "Invalid date value or format"))
        (some tenOClock) none ∧
      ¬ SameInstant (listedDate (dateRow (some tenOClock))) none) :=
  ⟨⟨⟨⟨rfl, rfl⟩, rfl, rfl⟩, id⟩, ⟨⟨rfl, rfl⟩, rfl, rfl⟩, id⟩

end InboxReadingDates
