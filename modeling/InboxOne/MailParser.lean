import InboxOne.JsonText
import InboxOne.Mailbox

/- Header parsing of received mail. The email package of the Python library is a
   parameter: which headers it finds and how it splits addresses and dates is its
   business, and only the code around it is modelled. -/
namespace InboxMailParser
open InboxPython InboxMailbox

structure EmailPackage (Msg : Type) where
  parsebytes : Bytes → Msg
  get : Msg → String → Except PyException (Option String)
  rawItems : Msg → List (String × String)
  unparsedAddress : String → String
  parseaddr : String → String × String
  getaddresses : String → List (String × String)
  parsedateToDatetime : String → Except PyException Datetime

structure ParsedHeader where
  subject : Option String
  fromName : Option String
  fromAddr : Option String
  toAddrs : String
  ccAddrs : String
  dateSent : Option Datetime
  messageIdHeader : Option String
  inReplyTo : Option String
  references : Option String
  deriving DecidableEq, Repr

def crlfComplaint : String := "address parts cannot contain CR or LF"

def contains (text part : String) : Bool := decide (part.toList <:+: text.toList)

def orNone (text : String) : Option String := if text = "" then none else some text

def flattenNewlines (text : String) : String :=
  String.ofList (text.toList.map fun c => if c = '\r' ∨ c = '\n' then ' ' else c)

variable {Msg : Type} (email : EmailPackage Msg)

def addressHeader (msg : Msg) (name : String) : Except PyException String :=
  match email.get msg name with
  | .ok value => .ok (value.getD "")
  | .error (.valueError text) =>
      if contains text crlfComplaint then
        match (email.rawItems msg).find? fun item => item.1.toLower = name.toLower with
        | some (_, raw) => .ok (flattenNewlines (email.unparsedAddress raw))
        | none => .error .stopIteration
      else .error (.valueError text)
  | .error other => .error other

/- An absent or empty Date header, or one that fails to parse, leaves the date open. -/
def headerDate (msg : Msg) : Except PyException (Option Datetime) := do
  match ← email.get msg "Date" with
  | none => return none
  | some text =>
    if text = "" then return none
    match email.parsedateToDatetime text with
    | .ok date => return some date
    | .error (.valueError _) => return none
    | .error (.typeError _) => return none
    | .error other => throw other

def addressList (addresses : List (String × String)) : List String :=
  (addresses.map Prod.snd).filter fun addr => addr ≠ ""

def parseHeaderBlock (headerBytes : Bytes) : Except PyException ParsedHeader := do
  let msg := email.parsebytes headerBytes
  let (fromName, fromAddr) := email.parseaddr (← addressHeader email msg "From")
  let toAddrs := addressList (email.getaddresses (← addressHeader email msg "To"))
  let ccAddrs := addressList (email.getaddresses (← addressHeader email msg "Cc"))
  let dateSent ← headerDate email msg
  return {
    subject := ← email.get msg "Subject"
    fromName := orNone fromName
    fromAddr := orNone fromAddr
    toAddrs := JsonText.dumpsStrings toAddrs
    ccAddrs := JsonText.dumpsStrings ccAddrs
    dateSent := dateSent
    messageIdHeader := ← email.get msg "Message-ID"
    inReplyTo := ← email.get msg "In-Reply-To"
    references := ← email.get msg "References" }

theorem ok_of_bind {A B : Type} {x : Except PyException A} {f : A → Except PyException B} {b : B}
    (done : x >>= f = .ok b) : ∃ a, x = .ok a ∧ f a = .ok b := by
  cases x with
  | error e => contradiction
  | ok a => exact ⟨a, rfl, done⟩

/- The addresses and the date that a successful parse read. -/
theorem parsed_parts {headerBytes : Bytes} {parsed : ParsedHeader}
    (parse : parseHeaderBlock email headerBytes = .ok parsed) :
    ∃ toText ccText, addressHeader email (email.parsebytes headerBytes) "To" = .ok toText ∧
      addressHeader email (email.parsebytes headerBytes) "Cc" = .ok ccText ∧
      headerDate email (email.parsebytes headerBytes) = .ok parsed.dateSent ∧
      parsed.toAddrs = JsonText.dumpsStrings (addressList (email.getaddresses toText)) ∧
      parsed.ccAddrs = JsonText.dumpsStrings (addressList (email.getaddresses ccText)) := by
  obtain ⟨fromText, _, parse⟩ := ok_of_bind parse
  obtain ⟨toText, toRead, parse⟩ := ok_of_bind parse
  obtain ⟨ccText, ccRead, parse⟩ := ok_of_bind parse
  obtain ⟨dateSent, dateRead, parse⟩ := ok_of_bind parse
  obtain ⟨_, _, parse⟩ := ok_of_bind parse
  obtain ⟨_, _, parse⟩ := ok_of_bind parse
  obtain ⟨_, _, parse⟩ := ok_of_bind parse
  obtain ⟨_, _, parse⟩ := ok_of_bind parse
  cases parse
  exact ⟨toText, ccText, toRead, ccRead, dateRead, rfl, rfl⟩

/- What the package answers for an empty header block. -/
def emptyHeaderEmail : EmailPackage Unit where
  parsebytes := fun _ => ()
  get := fun _ _ => .ok none
  rawItems := fun _ => []
  unparsedAddress := id
  parseaddr := fun _ => ("", "")
  getaddresses := fun _ => [("", "")]
  parsedateToDatetime := fun _ => .error (.valueError "Invalid date value or format")

end InboxMailParser
