import InboxOne.MessageList
import InboxOne.MessageRoutes
import InboxOne.TextLists

/-!
What a reply and a forward submit: a MIME message over SMTP, a JSON message to Graph. The
two are built by different modules from the same request and the same original, and are
compared as they are built, field by field, before the email package or a JSON encoder
writes them out.
-/
namespace InboxOutgoingMail
open FaultyCalls InboxPython InboxMailbox InboxTables InboxDatabase InboxImapClient
open InboxMessageRoutes TextLists

/- Without the account_id, by which the endpoints choose the account to send from. -/
structure OutgoingMessageRequest where
  toAddrs : List String
  cc : List String
  bcc : List String
  subject : String
  bodyHtml : String
  deriving DecidableEq, Repr

/- Of Python's email package: the text of a header as it is stored, and the two values that
   depend on the clock and the host. -/
structure HeaderPackage where
  headerFactory : String → String → Except PyException String
  formatdate : String
  makeMsgid : String

structure EmailMessage where
  headers : List (String × String)
  plain : Option String
  html : Option String
  deriving DecidableEq, Repr

def EmailMessage.get (msg : EmailMessage) (name : String) : Option String :=
  msg.headers.lookup name

def emptyMessage : EmailMessage := ⟨[], none, none⟩

/-- The breaks of `str.splitlines`. -/
def strBreak (c : Char) : Bool := c.toNat ∈ [10, 11, 12, 13, 28, 29, 30, 133, 8232, 8233]

/-- The breaks of `bytes.splitlines`. -/
def byteBreak (c : Char) : Bool := c == '\n' || c == '\r'

def linefeedComplaint : String :=
  "Header values may not contain linefeed or carriage return characters"

variable (pkg : HeaderPackage)

/-- The text that `msg[name] = value` stores. -/
def storedText (name value : String) : Except PyException String :=
  if 1 < (breakLines strBreak value.toList).length then .error (.valueError linefeedComplaint)
  else pkg.headerFactory name value

def setHeader (msg : EmailMessage) (name value : String) : Except PyException EmailMessage := do
  let text ← storedText pkg name value
  pure { msg with headers := msg.headers ++ [(name, text)] }

/-- `", ".join(addrs)`. -/
def joinAddresses (addrs : List String) : String :=
  String.ofList ([',', ' '].intercalate (addrs.map String.toList))

/-- None and the empty text are false. -/
def truthy (text : Option String) : Option String := text.filter fun t => t ≠ ""

/-- `re.sub("<[^<]+?>", "", html)`; the first argument is what follows a `<` not yet closed. -/
def stripTags : Option (List Char) → List Char → List Char
  | none, [] => []
  | some seen, [] => '<' :: seen
  | none, c :: rest => if c = '<' then stripTags (some []) rest else c :: stripTags none rest
  | some seen, c :: rest =>
      if c = '<' then '<' :: seen ++ stripTags (some []) rest
      else if c = '>' ∧ seen ≠ [] then stripTags none rest
      else stripTags (some (seen ++ [c])) rest

/-- A text part has line feeds for line ends, also behind its last line. -/
def textPart (content : String) : String :=
  String.ofList (endLines (breakLines byteBreak content.toList))

def chained (originalReferences : Option String) (originalMessageId : String) : String :=
  match truthy originalReferences with
  | none => originalMessageId
  | some references => references ++ " " ++ originalMessageId

def buildReplyMime (fromAddr : String) (toAddrs cc bcc : List String) (subject bodyHtml : String)
    (originalMessageId originalReferences : Option String) : Except PyException EmailMessage := do
  let msg ← setHeader pkg emptyMessage "From" fromAddr
  let msg ← setHeader pkg msg "To" (joinAddresses toAddrs)
  let msg ← if cc = [] then pure msg else setHeader pkg msg "Cc" (joinAddresses cc)
  let msg ← if bcc = [] then pure msg else setHeader pkg msg "Bcc" (joinAddresses bcc)
  let msg ← setHeader pkg msg "Subject" subject
  let msg ← setHeader pkg msg "Date" pkg.formatdate
  let msg ← setHeader pkg msg "Message-ID" pkg.makeMsgid
  let msg ← match truthy originalMessageId with
    | none => pure msg
    | some messageId => do
        let msg ← setHeader pkg msg "In-Reply-To" messageId
        setHeader pkg msg "References" (chained originalReferences messageId)
  pure { msg with
    plain := some (textPart (String.ofList (stripTags none bodyHtml.toList)))
    html := some (textPart bodyHtml) }

def buildForwardMime (fromAddr : String) (toAddrs cc bcc : List String) (subject bodyHtml : String) :
    Except PyException EmailMessage :=
  buildReplyMime pkg fromAddr toAddrs cc bcc subject bodyHtml none none

structure EmailAddress where
  address : String
  deriving DecidableEq, Repr

structure Recipient where
  emailAddress : EmailAddress
  deriving DecidableEq, Repr

structure InternetHeader where
  name : String
  value : String
  deriving DecidableEq, Repr

/-- The JSON of a message; an absent key is none. -/
structure GraphMessage where
  subject : String
  contentType : String
  content : String
  toRecipients : List Recipient
  ccRecipients : Option (List Recipient)
  bccRecipients : Option (List Recipient)
  internetMessageHeaders : Option (List InternetHeader)
  deriving DecidableEq, Repr

def recipients (addrs : List String) : List Recipient := addrs.map fun a => ⟨⟨a⟩⟩

def headerIf (name : String) (value : Option String) : List InternetHeader :=
  match truthy value with
  | none => []
  | some text => [⟨name, text⟩]

/-- `send_mail` up to its request. -/
def sendMail (subject bodyHtml : String) (toAddrs cc bcc : List String)
    (inReplyTo references : Option String) : GraphMessage :=
  let internetHeaders := headerIf "In-Reply-To" inReplyTo ++ headerIf "References" references
  { subject := subject
    contentType := "HTML"
    content := bodyHtml
    toRecipients := recipients toAddrs
    ccRecipients := if cc = [] then none else some (recipients cc)
    bccRecipients := if bcc = [] then none else some (recipients bcc)
    internetMessageHeaders := if internetHeaders = [] then none else some internetHeaders }

inductive Submission where
  | smtp (mime : EmailMessage)
  | graph (message : GraphMessage)
  deriving DecidableEq, Repr

/-- What the endpoint `reply` submits for an account of the protocol. -/
def replySubmission (protocol : Protocol) (smtpUsername : String) (payload : OutgoingMessageRequest)
    (original : Message) : Except PyException Submission :=
  match protocol with
  | .oauthMicrosoft => .ok (.graph (sendMail payload.subject payload.bodyHtml payload.toAddrs
      payload.cc payload.bcc original.messageIdHeader original.references))
  | .imapBasic => (buildReplyMime pkg smtpUsername payload.toAddrs payload.cc payload.bcc
      payload.subject payload.bodyHtml original.messageIdHeader original.references).map .smtp

/-- What the endpoint `forward` submits. -/
def forwardSubmission (protocol : Protocol) (smtpUsername : String)
    (payload : OutgoingMessageRequest) : Except PyException Submission :=
  match protocol with
  | .oauthMicrosoft => .ok (.graph (sendMail payload.subject payload.bodyHtml payload.toAddrs
      payload.cc payload.bcc none none))
  | .imapBasic => (buildForwardMime pkg smtpUsername payload.toAddrs payload.cc payload.bcc
      payload.subject payload.bodyHtml).map .smtp

/-- The characters of an atom: printable ASCII without the specials. -/
def isAtext (c : Char) : Bool :=
  33 ≤ c.toNat && c.toNat ≤ 126 && !("()<>[]:;@\\,.\"".toList.contains c)

def isDotAtom (text : List Char) : Bool :=
  (text.all fun c => c == '.' || isAtext c) && (text.splitOn '.').all fun atom => !atom.isEmpty

/-- local@domain without a display name, and without the mark of an encoded word. -/
def Bare (addr : String) : Prop :=
  ¬ ['=', '?'] <:+: addr.toList ∧
    ∃ loc domain, addr.toList = loc ++ '@' :: domain ∧ isDotAtom loc = true ∧ isDotAtom domain = true

def isSeparator (c : Char) : Bool := c == ',' || c == ' '

/-- The bare addresses that a header text lists. -/
def addressesOf (text : String) : List String :=
  (wordsBy isSeparator text.toList).map String.ofList

/-- What is known of the package: bare addresses are stored as they are, and its own date and
Message-ID are accepted. -/
structure Documented : Prop where
  addresses : ∀ name ∈ ["To", "Cc", "Bcc"], ∀ addrs, (∀ a ∈ addrs, Bare a) →
    pkg.headerFactory name (joinAddresses addrs) = .ok (joinAddresses addrs)
  date : ∃ text, storedText pkg "Date" pkg.formatdate = .ok text
  messageId : ∃ text, storedText pkg "Message-ID" pkg.makeMsgid = .ok text

theorem atom_char {c : Char} (atom : (c == '.' || isAtext c) = true) :
    isSeparator c = false ∧ strBreak c = false := by
  have visible : 33 ≤ c.toNat ∧ c.toNat ≤ 126 ∧ c ≠ ',' := by
    rw [Bool.or_eq_true, beq_iff_eq] at atom
    rcases atom with dot | text
    · subst dot
      decide
    · unfold isAtext at text
      simp only [Bool.and_eq_true, decide_eq_true_eq] at text
      refine ⟨text.1.1, text.1.2, fun comma => ?_⟩
      subst comma
      exact absurd text.2 (by decide)
  have blank : c ≠ ' ' := by
    intro same
    subst same
    exact absurd visible.1 (by decide)
  refine ⟨by simp [isSeparator, visible.2.2, blank], ?_⟩
  simp only [strBreak, List.mem_cons, List.not_mem_nil, or_false, decide_eq_false_iff_not]
  omega

theorem bare_plain {addr : String} (bare : Bare addr) :
    addr.toList ≠ [] ∧ ∀ c ∈ addr.toList, isSeparator c = false ∧ strBreak c = false := by
  obtain ⟨_, loc, domain, shape, left, right⟩ := bare
  have parts : ∀ text : List Char, isDotAtom text = true → ∀ c ∈ text,
      isSeparator c = false ∧ strBreak c = false := by
    intro text atoms c mem
    unfold isDotAtom at atoms
    rw [Bool.and_eq_true] at atoms
    exact atom_char (List.all_eq_true.mp atoms.1 c mem)
  rw [shape]
  refine ⟨by simp, fun c mem => ?_⟩
  rcases List.mem_append.mp mem with inLocal | rest
  · exact parts loc left c inLocal
  · rcases List.mem_cons.mp rest with sign | inDomain
    · subst sign
      decide
    · exact parts domain right c inDomain

theorem addresses_joined {addrs : List String} (bare : ∀ a ∈ addrs, Bare a) :
    addressesOf (joinAddresses addrs) = addrs := by
  have words : wordsBy isSeparator ([',', ' '].intercalate (addrs.map String.toList)) =
      addrs.map String.toList := by
    have breaks : ∀ c ∈ [',', ' '], isSeparator c = true := by simp [isSeparator]
    apply words_joined (by simp) breaks
    intro word mem
    obtain ⟨a, aMem, same⟩ := List.mem_map.mp mem
    subst same
    exact ⟨(bare_plain (bare a aMem)).1, fun c inside => ((bare_plain (bare a aMem)).2 c inside).1⟩
  rw [addressesOf, joinAddresses, String.toList_ofList, words, List.map_map]
  refine (List.map_congr_left fun a _ => ?_).trans (List.map_id _)
  exact String.ofList_toList

theorem joined_one_line {addrs : List String} (bare : ∀ a ∈ addrs, Bare a) :
    (breakLines strBreak (joinAddresses addrs).toList).length ≤ 1 := by
  rw [joinAddresses, String.toList_ofList]
  apply break_lines_clean (by decide)
  intro c mem
  induction addrs with
  | nil => simp at mem
  | cons a addrs ih =>
    have first := (bare_plain (bare a List.mem_cons_self)).2
    cases addrs with
    | nil =>
      rw [List.map_singleton, List.intercalate_singleton] at mem
      exact (first c mem).2
    | cons next addrs =>
      rw [List.map_cons, List.map_cons, List.intercalate_cons_cons, ← List.map_cons,
        List.append_assoc, List.mem_append, List.mem_append] at mem
      rcases mem with here | comma | later
      · exact (first c here).2
      · rcases List.mem_cons.mp comma with same | blank
        · subst same
          decide
        · rw [List.mem_singleton.mp blank]
          decide
      · exact ih (fun other mem => bare other (List.mem_cons_of_mem _ mem)) later

/-- The headers of build_reply_mime, in the order in which they are set. -/
def replyHeaders (fromAddr : String) (toAddrs cc bcc : List String) (subject : String)
    (originalMessageId originalReferences : Option String) : List (String × String) :=
  ("From", fromAddr) :: ("To", joinAddresses toAddrs) ::
    ((if cc = [] then [] else [("Cc", joinAddresses cc)]) ++
      (if bcc = [] then [] else [("Bcc", joinAddresses bcc)]) ++
      [("Subject", subject), ("Date", pkg.formatdate), ("Message-ID", pkg.makeMsgid)] ++
      match truthy originalMessageId with
      | none => []
      | some messageId =>
          [("In-Reply-To", messageId), ("References", chained originalReferences messageId)])

section Headers
variable {pkg}

theorem set_headers_iff (hs : List (String × String)) (msg mime : EmailMessage) :
    hs.foldlM (fun msg h => setHeader pkg msg h.1 h.2) msg = .ok mime ↔
      ∃ stored, List.Forall₂ (fun h s => s.1 = h.1 ∧ storedText pkg h.1 h.2 = .ok s.2) hs stored ∧
        mime = { msg with headers := msg.headers ++ stored } := by
  induction hs generalizing msg with
  | nil =>
    rw [List.foldlM_nil]
    constructor
    · intro same
      have last : msg = mime := Except.ok.inj same
      exact ⟨[], .nil, by rw [last, List.append_nil]⟩
    · intro there
      obtain ⟨stored, none, same⟩ := there
      cases none
      rw [same, List.append_nil]
      rfl
  | cons h hs ih =>
    obtain ⟨name, value⟩ := h
    rw [List.foldlM_cons]
    unfold setHeader
    dsimp only
    cases taken : storedText pkg name value with
    | error e =>
      constructor
      · intro fails
        contradiction
      · intro there
        obtain ⟨stored, each, _⟩ := there
        cases each with
        | cons first _ =>
          rw [taken] at first
          exact absurd first.2 nofun
    | ok text =>
      have next := ih { msg with headers := msg.headers ++ [(name, text)] }
      constructor
      · intro through
        obtain ⟨stored, each, same⟩ := next.mp through
        refine ⟨(name, text) :: stored, .cons ⟨rfl, taken⟩ each, ?_⟩
        rw [same, List.append_assoc, List.singleton_append]
      · intro there
        obtain ⟨stored, each, same⟩ := there
        cases each with
        | @cons _ first _ rest here later =>
          obtain ⟨name', text'⟩ := first
          obtain ⟨sameName, sameText⟩ := here
          have given : text = text' := Except.ok.inj (taken.symm.trans sameText)
          refine next.mpr ⟨rest, later, ?_⟩
          rw [same, given, ← (show name' = name from sameName), List.append_assoc,
            List.singleton_append]

/- A header is read as it was stored. -/
theorem lookup_stored {hs stored : List (String × String)}
    (each : List.Forall₂ (fun h s => s.1 = h.1 ∧ storedText pkg h.1 h.2 = .ok s.2) hs stored)
    (name : String) :
    (∀ value, hs.lookup name = some value →
      ∃ text, storedText pkg name value = .ok text ∧ stored.lookup name = some text) ∧
      (hs.lookup name = none → stored.lookup name = none) := by
  induction each with
  | nil => exact ⟨nofun, fun _ => rfl⟩
  | @cons h s hs stored here later ih =>
    obtain ⟨sameName, taken⟩ := here
    rw [List.lookup_cons, List.lookup_cons, sameName]
    by_cases own : name = h.1
    · subst own
      rw [beq_self_eq_true]
      refine ⟨fun value same => ⟨s.2, ?_, rfl⟩, nofun⟩
      rw [← Option.some.inj same]
      exact taken
    · rw [beq_false_of_ne own]
      exact ih

end Headers

theorem build_reply_shape (fromAddr : String) (toAddrs cc bcc : List String)
    (subject bodyHtml : String) (originalMessageId originalReferences : Option String) :
    buildReplyMime pkg fromAddr toAddrs cc bcc subject bodyHtml originalMessageId
        originalReferences = (do
      let msg ← (replyHeaders pkg fromAddr toAddrs cc bcc subject originalMessageId
        originalReferences).foldlM (fun msg h => setHeader pkg msg h.1 h.2) emptyMessage
      pure { msg with
        plain := some (textPart (String.ofList (stripTags none bodyHtml.toList)))
        html := some (textPart bodyHtml) }) := by
  unfold buildReplyMime replyHeaders
  by_cases noCc : cc = [] <;> by_cases noBcc : bcc = [] <;>
    cases truthy originalMessageId <;> simp [noCc, noBcc]

section Building
variable {pkg}
variable {fromAddr subject bodyHtml : String} {toAddrs cc bcc : List String}
variable {originalMessageId originalReferences : Option String}

/- Every header that is set is accepted, so the message is built. -/
theorem build_reply_ok (accepted : ∀ h ∈ replyHeaders pkg fromAddr toAddrs cc bcc subject
      originalMessageId originalReferences, ∃ text, storedText pkg h.1 h.2 = .ok text) :
    ∃ mime, buildReplyMime pkg fromAddr toAddrs cc bcc subject bodyHtml originalMessageId
      originalReferences = .ok mime := by
  have some : ∀ hs : List (String × String), (∀ h ∈ hs, ∃ text, storedText pkg h.1 h.2 = .ok text) →
      ∃ stored : List (String × String),
        List.Forall₂ (fun h s => s.1 = h.1 ∧ storedText pkg h.1 h.2 = .ok s.2) hs stored := by
    intro hs each
    induction hs with
    | nil => exact ⟨[], .nil⟩
    | cons h hs ih =>
      obtain ⟨text, taken⟩ := each h List.mem_cons_self
      obtain ⟨stored, later⟩ := ih fun other mem => each other (List.mem_cons_of_mem _ mem)
      exact ⟨(h.1, text) :: stored, .cons ⟨rfl, taken⟩ later⟩
  obtain ⟨stored, each⟩ := some _ accepted
  rw [build_reply_shape, (set_headers_iff _ emptyMessage _).mpr ⟨stored, each, rfl⟩]
  exact ⟨_, rfl⟩

/- What is read of a message that was built. -/
theorem build_reply_reads {mime : EmailMessage}
    (built : buildReplyMime pkg fromAddr toAddrs cc bcc subject bodyHtml originalMessageId
      originalReferences = .ok mime) (name : String) :
    (∀ value, (replyHeaders pkg fromAddr toAddrs cc bcc subject originalMessageId
        originalReferences).lookup name = some value →
      ∃ text, storedText pkg name value = .ok text ∧ mime.get name = some text) ∧
      ((replyHeaders pkg fromAddr toAddrs cc bcc subject originalMessageId
        originalReferences).lookup name = none → mime.get name = none) ∧
      mime.html = some (textPart bodyHtml) := by
  rw [build_reply_shape] at built
  cases run : (replyHeaders pkg fromAddr toAddrs cc bcc subject originalMessageId
      originalReferences).foldlM (fun msg h => setHeader pkg msg h.1 h.2) emptyMessage with
  | error e =>
    rw [run] at built
    contradiction
  | ok msg =>
    rw [run] at built
    have same := Except.ok.inj built
    obtain ⟨stored, each, shape⟩ := (set_headers_iff _ emptyMessage _).mp run
    have headers : mime.headers = stored := by
      rw [← same, shape]
      rfl
    unfold EmailMessage.get
    rw [headers]
    exact ⟨(lookup_stored each name).1, (lookup_stored each name).2, by rw [← same]⟩

end Building

def GraphMessage.header (message : GraphMessage) (name : String) : Option String :=
  ((message.internetMessageHeaders.getD []).find? fun h => h.name == name).map InternetHeader.value

def GraphMessage.addresses (listed : Option (List Recipient)) : List String :=
  (listed.getD []).map fun r => r.emailAddress.address

/-- A recipient reads the same in both. -/
structure SameMessage (mime : EmailMessage) (message : GraphMessage) : Prop where
  toAddrs : addressesOf ((mime.get "To").getD "") = GraphMessage.addresses (some message.toRecipients)
  cc : addressesOf ((mime.get "Cc").getD "") = GraphMessage.addresses message.ccRecipients
  bcc : addressesOf ((mime.get "Bcc").getD "") = GraphMessage.addresses message.bccRecipients
  subject : mime.get "Subject" = some message.subject
  html : message.contentType = "HTML" ∧ ∃ html, mime.html = some html ∧
    textLines byteBreak html.toList = textLines byteBreak message.content.toList
  inReplyTo : mime.get "In-Reply-To" = message.header "In-Reply-To"
  references : mime.get "References" = message.header "References"

inductive Kind where
  | reply
  | forward
  deriving DecidableEq, Repr

def submission (kind : Kind) (protocol : Protocol) (smtpUsername : String)
    (payload : OutgoingMessageRequest) (original : Message) : Except PyException Submission :=
  match kind with
  | .reply => replySubmission pkg protocol smtpUsername payload original
  | .forward => forwardSubmission pkg protocol smtpUsername payload

/-- A reply to an original with a Message-ID carries its References followed by that id; a
forward is in no thread. -/
def Threaded (kind : Kind) (original : Message) (mime : EmailMessage) (message : GraphMessage) :
    Prop :=
  match kind with
  | .reply => ∀ messageId, truthy original.messageIdHeader = some messageId →
      mime.get "References" = some (chained original.references messageId) ∧
        message.header "References" = some (chained original.references messageId)
  | .forward => mime.get "In-Reply-To" = none ∧ mime.get "References" = none ∧
      message.header "In-Reply-To" = none ∧ message.header "References" = none

/-- Both paths submit, and they submit the same message. -/
def PathsAgree (kind : Kind) (smtpUsername : String) (payload : OutgoingMessageRequest)
    (original : Message) : Prop :=
  ∃ mime message, submission pkg kind .imapBasic smtpUsername payload original = .ok (.smtp mime) ∧
    submission pkg kind .oauthMicrosoft smtpUsername payload original = .ok (.graph message) ∧
    SameMessage mime message ∧ Threaded kind original mime message

theorem reply_headers_read (fromAddr : String) (toAddrs cc bcc : List String) (subject : String)
    (originalMessageId originalReferences : Option String) :
    let hs := replyHeaders pkg fromAddr toAddrs cc bcc subject originalMessageId originalReferences
    hs.lookup "From" = some fromAddr ∧ hs.lookup "To" = some (joinAddresses toAddrs) ∧
      hs.lookup "Cc" = (if cc = [] then none else some (joinAddresses cc)) ∧
      hs.lookup "Bcc" = (if bcc = [] then none else some (joinAddresses bcc)) ∧
      hs.lookup "Subject" = some subject ∧
      hs.lookup "In-Reply-To" = truthy originalMessageId ∧
      hs.lookup "References" = (truthy originalMessageId).map (chained originalReferences) := by
  unfold replyHeaders
  by_cases noCc : cc = [] <;> by_cases noBcc : bcc = [] <;>
    cases truthy originalMessageId <;> simp [noCc, noBcc, List.lookup_cons]

theorem graph_headers (subject bodyHtml : String) (toAddrs cc bcc : List String)
    (inReplyTo references : Option String) :
    let message := sendMail subject bodyHtml toAddrs cc bcc inReplyTo references
    message.header "In-Reply-To" = truthy inReplyTo ∧ message.header "References" = truthy references := by
  unfold sendMail GraphMessage.header headerIf
  cases truthy inReplyTo <;> cases truthy references <;> simp

theorem graph_addresses (addrs : List String) :
    GraphMessage.addresses (some (recipients addrs)) = addrs ∧
      GraphMessage.addresses (if addrs = [] then none else some (recipients addrs)) = addrs := by
  have all : GraphMessage.addresses (some (recipients addrs)) = addrs := by
    simp [GraphMessage.addresses, recipients, Function.comp_def]
  refine ⟨all, ?_⟩
  by_cases empty : addrs = []
  · rw [if_pos empty, empty]
    rfl
  · rw [if_neg empty]
    exact all

/- Two ids of the original go into a reply, none into a forward. -/
def parents (kind : Kind) (original : Message) : Option String × Option String :=
  match kind with
  | .reply => (original.messageIdHeader, original.references)
  | .forward => (none, none)

theorem submission_smtp (kind : Kind) (smtpUsername : String) (payload : OutgoingMessageRequest)
    (original : Message) :
    submission pkg kind .imapBasic smtpUsername payload original =
      (buildReplyMime pkg smtpUsername payload.toAddrs payload.cc payload.bcc payload.subject
        payload.bodyHtml (parents kind original).1 (parents kind original).2).map .smtp := by
  cases kind <;> rfl

theorem submission_graph (kind : Kind) (smtpUsername : String) (payload : OutgoingMessageRequest)
    (original : Message) :
    submission pkg kind .oauthMicrosoft smtpUsername payload original =
      .ok (.graph (sendMail payload.subject payload.bodyHtml payload.toAddrs payload.cc payload.bcc
        (parents kind original).1 (parents kind original).2)) := by
  cases kind <;> rfl

/- A text with something behind it is another text. -/
theorem longer_text (text more : String) (nonempty : more ≠ "") : text ++ more ≠ text := by
  intro same
  have lengths := congrArg String.length same
  rw [String.length_append] at lengths
  have long : more.length ≠ 0 := fun zero => nonempty (String.length_eq_zero_iff.mp zero)
  omega

theorem chained_differs (references : Option String) (messageId : String) :
    truthy references ≠ some (chained references messageId) := by
  unfold chained
  cases present : truthy references with
  | none => simp
  | some text =>
    intro same
    have equal : text ++ (" " ++ messageId) = text := by
      rw [← String.append_assoc]
      exact (Option.some.inj same).symm
    refine longer_text text (" " ++ messageId) ?_ equal
    intro empty
    have lengths := congrArg String.length empty
    rw [String.length_append] at lengths
    have one : (" " : String).length = 1 := rfl
    have zero : ("" : String).length = 0 := rfl
    omega

/-- The sender and the subject are taken by the package, the subject as it is, and nothing is
to be said of a thread. -/
structure Plain (kind : Kind) (smtpUsername : String) (payload : OutgoingMessageRequest)
    (original : Message) : Prop where
  sender : ∃ text, storedText pkg "From" smtpUsername = .ok text
  subject : storedText pkg "Subject" payload.subject = .ok payload.subject
  thread : kind = .forward ∨
    (truthy original.messageIdHeader = none ∧ truthy original.references = none)

section Agreement
variable {pkg} {kind : Kind} {smtpUsername : String} {payload : OutgoingMessageRequest}
variable {original : Message}

theorem address_header (documented : Documented pkg) {name : String} (mem : name ∈ ["To", "Cc", "Bcc"])
    {addrs : List String} (bare : ∀ a ∈ addrs, Bare a) :
    storedText pkg name (joinAddresses addrs) = .ok (joinAddresses addrs) := by
  have short := joined_one_line bare
  rw [storedText, if_neg (by omega)]
  exact documented.addresses name mem addrs bare

/- Cc and Bcc stay out of the message when they are empty. -/
theorem optional_addresses (documented : Documented pkg) {mime : EmailMessage} {name : String}
    (mem : name ∈ ["To", "Cc", "Bcc"]) {addrs : List String} (bare : ∀ a ∈ addrs, Bare a)
    (reads : ∀ value, (if addrs = [] then none else some (joinAddresses addrs)) = some value →
      ∃ text, storedText pkg name value = .ok text ∧ mime.get name = some text)
    (absent : (if addrs = [] then none else some (joinAddresses addrs)) = none →
      mime.get name = none) :
    addressesOf ((mime.get name).getD "") = addrs := by
  by_cases empty : addrs = []
  · rw [absent (if_pos empty), empty]
    rfl
  · obtain ⟨text, stored, found⟩ := reads _ (if_neg empty)
    rw [address_header documented mem bare] at stored
    rw [found, ← Except.ok.inj stored]
    exact addresses_joined bare

theorem plain_of_agree (agree : PathsAgree pkg kind smtpUsername payload original) :
    Plain pkg kind smtpUsername payload original := by
  obtain ⟨mime, message, overSmtp, overGraph, same, threaded⟩ := agree
  rw [submission_smtp] at overSmtp
  rw [submission_graph] at overGraph
  have shape := Submission.graph.inj (Except.ok.inj overGraph)
  cases run : buildReplyMime pkg smtpUsername payload.toAddrs payload.cc payload.bcc payload.subject
      payload.bodyHtml (parents kind original).1 (parents kind original).2 with
  | error e =>
    rw [run] at overSmtp
    contradiction
  | ok built =>
    rw [run] at overSmtp
    have sent := Submission.smtp.inj (Except.ok.inj overSmtp)
    subst sent
    subst shape
    obtain ⟨sender, _, _, _, subject, _, references⟩ := reply_headers_read pkg smtpUsername
      payload.toAddrs payload.cc payload.bcc payload.subject (parents kind original).1
      (parents kind original).2
    have graph := (graph_headers payload.subject payload.bodyHtml payload.toAddrs payload.cc
      payload.bcc (parents kind original).1 (parents kind original).2).2
    constructor
    · obtain ⟨text, taken, _⟩ := (build_reply_reads run "From").1 _ sender
      exact ⟨text, taken⟩
    · obtain ⟨text, taken, found⟩ := (build_reply_reads run "Subject").1 _ subject
      have itself : some text = some payload.subject := found.symm.trans same.subject
      rw [taken, Option.some.inj itself]
    · cases kind with
      | forward => exact .inl rfl
      | reply =>
        right
        -- Graph never has the Message-ID in its References
        cases present : truthy original.messageIdHeader with
        | some messageId =>
          have claimed := (threaded messageId present).2
          rw [graph] at claimed
          exact absurd claimed (chained_differs _ _)
        | none =>
          have absent : built.get "References" = none := by
            apply (build_reply_reads run "References").2.1
            rw [references]
            show (truthy original.messageIdHeader).map _ = none
            rw [present]
            rfl
          have both := same.references
          rw [absent, graph] at both
          exact ⟨rfl, both.symm⟩

theorem plain_apart (plain : Plain pkg kind smtpUsername payload original) :
    truthy (parents kind original).1 = none ∧ truthy (parents kind original).2 = none := by
  rcases plain.thread with forward | apart
  · subst forward
    exact ⟨rfl, rfl⟩
  · cases kind with
    | reply => exact apart
    | forward => exact ⟨rfl, rfl⟩

section Request
variable (documented : Documented pkg) (bareTo : ∀ a ∈ payload.toAddrs, Bare a)
variable (bareCc : ∀ a ∈ payload.cc, Bare a) (bareBcc : ∀ a ∈ payload.bcc, Bare a)

include documented bareTo bareCc bareBcc

/- Every header of the message is accepted. -/
theorem plain_accepted (plain : Plain pkg kind smtpUsername payload original) :
    ∀ h ∈ replyHeaders pkg smtpUsername payload.toAddrs payload.cc payload.bcc payload.subject
      (parents kind original).1 (parents kind original).2, ∃ text, storedText pkg h.1 h.2 = .ok text := by
  intro h mem
  unfold replyHeaders at mem
  rw [(plain_apart plain).1] at mem
  simp only [List.mem_cons, List.mem_append, List.not_mem_nil, or_false] at mem
  rcases mem with sender | receivers | (cc | bcc) | subject | date | messageId
  · rw [sender]
    exact plain.sender
  · rw [receivers]
    exact ⟨_, address_header documented (by simp) bareTo⟩
  · split at cc
    · contradiction
    · rw [List.mem_singleton.mp cc]
      exact ⟨_, address_header documented (by simp) bareCc⟩
  · split at bcc
    · contradiction
    · rw [List.mem_singleton.mp bcc]
      exact ⟨_, address_header documented (by simp) bareBcc⟩
  · rw [subject]
    exact ⟨_, plain.subject⟩
  · rw [date]
    exact documented.date
  · rw [messageId]
    exact documented.messageId

/- A message that was built has the addresses, the subject and the body of the Graph message,
   whatever the two say of the thread. -/
theorem built_same {originalMessageId originalReferences : Option String} {mime : EmailMessage}
    (taken : storedText pkg "Subject" payload.subject = .ok payload.subject)
    (built : buildReplyMime pkg smtpUsername payload.toAddrs payload.cc payload.bcc payload.subject
      payload.bodyHtml originalMessageId originalReferences = .ok mime)
    {message : GraphMessage} (sent : message = sendMail payload.subject payload.bodyHtml
      payload.toAddrs payload.cc payload.bcc originalMessageId originalReferences)
    (inReplyTo : mime.get "In-Reply-To" = message.header "In-Reply-To")
    (references : mime.get "References" = message.header "References") :
    SameMessage mime message := by
  obtain ⟨_, receivers, cc, bcc, subject, _, _⟩ := reply_headers_read pkg smtpUsername
    payload.toAddrs payload.cc payload.bcc payload.subject originalMessageId originalReferences
  subst sent
  constructor
  · obtain ⟨text, stored, found⟩ := (build_reply_reads built "To").1 _ receivers
    rw [address_header documented (by simp) bareTo] at stored
    rw [found, ← Except.ok.inj stored]
    exact (addresses_joined bareTo).trans (graph_addresses _).1.symm
  · have reads := build_reply_reads built "Cc"
    rw [cc] at reads
    exact (optional_addresses documented (by simp) bareCc reads.1 reads.2.1).trans
      (graph_addresses _).2.symm
  · have reads := build_reply_reads built "Bcc"
    rw [bcc] at reads
    exact (optional_addresses documented (by simp) bareBcc reads.1 reads.2.1).trans
      (graph_addresses _).2.symm
  · obtain ⟨text, stored, found⟩ := (build_reply_reads built "Subject").1 _ subject
    rw [taken] at stored
    rw [found, ← Except.ok.inj stored]
    rfl
  · refine ⟨rfl, _, (build_reply_reads built "").2.2, ?_⟩
    rw [textPart, String.toList_ofList]
    exact text_lines_ended (by decide) (by decide) payload.bodyHtml.toList
  · exact inReplyTo
  · exact references

end Request

theorem agree_of_plain (documented : Documented pkg)
    (bare : ∀ a ∈ payload.toAddrs ++ payload.cc ++ payload.bcc, Bare a)
    (plain : Plain pkg kind smtpUsername payload original) :
    PathsAgree pkg kind smtpUsername payload original := by
  have bareTo : ∀ a ∈ payload.toAddrs, Bare a := fun a mem => bare a (by simp [mem])
  have bareCc : ∀ a ∈ payload.cc, Bare a := fun a mem => bare a (by simp [mem])
  have bareBcc : ∀ a ∈ payload.bcc, Bare a := fun a mem => bare a (by simp [mem])
  have apart := plain_apart plain
  obtain ⟨mime, built⟩ : ∃ mime, buildReplyMime pkg smtpUsername payload.toAddrs payload.cc
      payload.bcc payload.subject payload.bodyHtml (parents kind original).1
      (parents kind original).2 = .ok mime :=
    build_reply_ok (plain_accepted documented bareTo bareCc bareBcc plain)
  obtain ⟨_, _, _, _, _, inReplyTo, references⟩ := reply_headers_read pkg smtpUsername
    payload.toAddrs payload.cc payload.bcc payload.subject (parents kind original).1
    (parents kind original).2
  rw [apart.1] at inReplyTo references
  obtain ⟨graphParent, graphChain⟩ := graph_headers payload.subject payload.bodyHtml payload.toAddrs
    payload.cc payload.bcc (parents kind original).1 (parents kind original).2
  rw [apart.1] at graphParent
  rw [apart.2] at graphChain
  have noParent := (build_reply_reads built "In-Reply-To").2.1 inReplyTo
  have noChain := (build_reply_reads built "References").2.1 references
  refine ⟨mime, _, by rw [submission_smtp, built]; rfl, submission_graph .., ?_, ?_⟩
  · exact built_same documented bareTo bareCc bareBcc plain.subject built rfl
      (noParent.trans graphParent.symm) (noChain.trans graphChain.symm)
  · cases kind with
    | reply =>
      intro messageId present
      have absent : truthy original.messageIdHeader = none := apart.1
      rw [absent] at present
      contradiction
    | forward => exact ⟨noParent, noChain, graphParent, graphChain⟩

end Agreement

/-- The two paths submit the same message exactly when the original takes no part in it: a
forward, or a reply to an original with neither a Message-ID nor References. -/
theorem sending_paths_agree_iff (documented : Documented pkg) (kind : Kind) (smtpUsername : String)
    (payload : OutgoingMessageRequest)
    (bare : ∀ a ∈ payload.toAddrs ++ payload.cc ++ payload.bcc, Bare a) (original : Message) :
    PathsAgree pkg kind smtpUsername payload original ↔
      Plain pkg kind smtpUsername payload original :=
  ⟨plain_of_agree, agree_of_plain documented bare⟩

section Endpoint
variable {Detail Attachment : Type} (username : Account → String)
variable (serialise : EmailMessage → Content)

/-- build_reply_mime as the endpoint `reply` calls it: the bytes and the Message-ID of the
message. -/
def replyDraft (account : Account) (payload : OutgoingMessageRequest) (original : Message) :
    Except PyException (Content × String) :=
  (buildReplyMime pkg (username account) payload.toAddrs payload.cc payload.bcc payload.subject
    payload.bodyHtml original.messageIdHeader original.references).map fun mime =>
      (serialise mime, (mime.get "Message-ID").getD "")

/- A subject of several lines is not sent over SMTP: nothing is built and nothing changes. -/
theorem broken_subject_not_sent {mail : MailFormat Detail Attachment OutgoingMessageRequest}
    (builds : mail.buildReplyMime = replyDraft pkg username serialise) (env : Environment)
    {account : Account} (smtp : account.protocol = .imapBasic)
    (request : ReplyRequest OutgoingMessageRequest) (original : Message)
    (broken : 1 < (breakLines strBreak request.draft.subject.toList).length) (c : Config Request) :
    ∃ e, sendReply mail env account request original c = (.error e, c) := by
  have unbuilt : ∃ e, replyDraft pkg username serialise account request.draft original = .error e := by
    unfold replyDraft
    cases run : buildReplyMime pkg (username account) request.draft.toAddrs request.draft.cc
        request.draft.bcc request.draft.subject request.draft.bodyHtml original.messageIdHeader
        original.references with
    | error e => exact ⟨e, rfl⟩
    | ok mime =>
      have subject := (reply_headers_read pkg (username account) request.draft.toAddrs
        request.draft.cc request.draft.bcc request.draft.subject original.messageIdHeader
        original.references).2.2.2.2.1
      obtain ⟨text, taken, _⟩ := (build_reply_reads run "Subject").1 _ subject
      rw [storedText, if_pos broken] at taken
      contradiction
  obtain ⟨e, fails⟩ := unbuilt
  refine ⟨e, ?_⟩
  unfold sendReply
  rw [smtp, builds]
  dsimp only
  rw [fails]
  rfl

end Endpoint

/- A package on texts without encoded words. -/
def plainPackage : HeaderPackage where
  headerFactory := fun _ value => .ok value
  formatdate := "Sat, 25 Jul 2026 12:00:00 GMT"
  makeMsgid := "<2@example.org>"

theorem plain_documented : Documented plainPackage where
  addresses := fun _ _ _ _ => rfl
  date := ⟨_, rfl⟩
  messageId := ⟨_, rfl⟩

def answer : OutgoingMessageRequest :=
  ⟨["ann@example.org"], ["cy@example.org", "di@example.org"], ["eve@example.org"], "Re: Hello",
    "<p>Hi</p>"⟩

/- A letter that has a Message-ID and starts a thread. -/
def question : Message :=
  { InboxMessageList.letter 1 none with messageIdHeader := some "<1@example.org>" }

theorem answer_bare : ∀ a ∈ answer.toAddrs ++ answer.cc ++ answer.bcc, Bare a := by
  intro a mem
  simp only [answer, List.mem_append, List.mem_cons, List.not_mem_nil, or_false] at mem
  rcases mem with (rfl | rfl | rfl) | rfl
  · exact ⟨by decide, "ann".toList, "example.org".toList, rfl, by decide, by decide⟩
  · exact ⟨by decide, "cy".toList, "example.org".toList, rfl, by decide, by decide⟩
  · exact ⟨by decide, "di".toList, "example.org".toList, rfl, by decide, by decide⟩
  · exact ⟨by decide, "eve".toList, "example.org".toList, rfl, by decide, by decide⟩

theorem forward_paths_agree :
    Documented plainPackage ∧ (∀ a ∈ answer.toAddrs ++ answer.cc ++ answer.bcc, Bare a) ∧
      PathsAgree plainPackage .forward "bob@example.org" answer question :=
  ⟨plain_documented, answer_bare, (sending_paths_agree_iff plainPackage plain_documented .forward
    "bob@example.org" answer answer_bare question).mpr ⟨⟨_, rfl⟩, rfl, .inl rfl⟩⟩

/- Over Graph the reply does not refer to the letter it answers. -/
theorem graph_reply_loses_its_thread :
    Documented plainPackage ∧ (∀ a ∈ answer.toAddrs ++ answer.cc ++ answer.bcc, Bare a) ∧
      storedText plainPackage "From" "bob@example.org" = .ok "bob@example.org" ∧
      storedText plainPackage "Subject" answer.subject = .ok answer.subject ∧
      (∃ mime, submission plainPackage .reply .imapBasic "bob@example.org" answer question =
        .ok (.smtp mime) ∧ mime.get "References" = some "<1@example.org>") ∧
      (∃ message, submission plainPackage .reply .oauthMicrosoft "bob@example.org" answer question =
        .ok (.graph message) ∧ message.header "References" = none) ∧
      ¬ PathsAgree plainPackage .reply "bob@example.org" answer question := by
  refine ⟨plain_documented, answer_bare, rfl, rfl, ⟨_, rfl, rfl⟩, ⟨_, rfl, rfl⟩, fun agree => ?_⟩
  rcases (plain_of_agree agree).thread with forward | apart
  · contradiction
  · exact absurd apart.1 (by decide)

end InboxOutgoingMail
