import Mathlib.Logic.Function.Basic
import InboxOne.Database
import InboxOne.FaultyCalls
import InboxOne.FolderSync

/-!
The IMAP commands of a request and the functions that wrap them. A request works on its
own session of the database and on the servers of the accounts; every command is a call
that may fail with or without its effect, or be refused by the server.
-/
namespace InboxImapClient
open FaultyCalls InboxPython InboxMailbox InboxTables InboxDatabase InboxFolderSync

structure ImapServer where
  mailbox : String → Option Mailbox

def ImapServer.put (server : ImapServer) (path : String) (mb : Mailbox) : ImapServer :=
  ⟨Function.update server.mailbox path (some mb)⟩

abbrev Servers := Nat → ImapServer

structure Selected where
  path : String
  readonly : Bool
  deriving DecidableEq, Repr

/- A connection belongs to one account. -/
structure Connection where
  account : Nat
  selected : Option Selected
  deriving DecidableEq, Repr

/- `stored` is what is committed, `session` what the request sees of it. -/
structure Request where
  stored : Database
  session : Database
  servers : Servers
  client : Option Connection

inductive SpecialUse where
  | trash
  | sent
  deriving DecidableEq, Repr

/- A message that a mail provider files by itself: where, and the UIDs it skips. -/
structure Delivery where
  account : Nat
  path : String
  gap : Nat
  content : Content

/-- What the code does not decide: IMAPClient's guess at the special folders, the
namespace, whether a token call renews the cache, how the server matches a Message-ID,
the UIDVALIDITY of a created folder, and what a submission files. -/
structure Environment where
  special : SpecialUse → Option String
  personalPrefix : Option String
  newTokenCache : Bool
  hasMessageId : String → RemoteMessage → Bool
  createdValidity : Nat
  delivered : List Delivery

abbrev Action (A : Type) := Program Request PyException A

variable {A : Type} (env : Environment)

def Request.answered (s : Request) (client : Connection) (server : ImapServer)
    (selected : Option Selected) : Request :=
  { s with
    servers := Function.update s.servers client.account server
    client := some { client with selected := selected } }

/-- One command on the open connection. -/
def imapCall (effect : ImapServer → Option Selected →
    Except PyException (A × ImapServer × Option Selected)) : Action A :=
  call .connectionError fun s =>
    match s.client with
    | none => .error .connectionError
    | some client =>
        match effect (s.servers client.account) client.selected with
        | .error e => .error e
        | .ok (a, server, selected) => .ok (a, s.answered client server selected)

/-- SELECT, or EXAMINE when read-only; answers the UIDVALIDITY. -/
def selectFolder (path : String) (readonly : Bool) : Action Nat :=
  imapCall fun server _ =>
    match server.mailbox path with
    | none => .error .imapClientError
    | some mb => .ok (mb.uidvalidity, server, some ⟨path, readonly⟩)

/- A command on the selected mailbox; f learns whether it was opened read-only. -/
def onSelected (f : Bool → Mailbox → Except PyException (A × Mailbox)) : Action A :=
  imapCall fun server selected =>
    match selected with
    | none => .error .imapClientError
    | some ⟨path, readonly⟩ =>
        match server.mailbox path with
        | none => .error .imapClientError
        | some mb =>
            match f readonly mb with
            | .error e => .error e
            | .ok (a, mb') => .ok (a, server.put path mb', some ⟨path, readonly⟩)

/- A command that changes the mailbox is refused after EXAMINE. -/
def changeSelected (f : Mailbox → Mailbox) : Action Unit :=
  onSelected fun readonly mb => if readonly then .error .imapClientError else .ok ((), f mb)

def storeFlags (f : Flags → Flags) (uids : List Nat) (mb : Mailbox) : Mailbox :=
  mb.store fun m => if m.uid ∈ uids then f m.flags else m.flags

def addFlags (uids : List Nat) (flags : Flags) : Action Unit :=
  changeSelected (storeFlags (fun old => old ∪ flags) uids)

def removeFlags (uids : List Nat) (flags : Flags) : Action Unit :=
  changeSelected (storeFlags (fun old => old \ flags) uids)

def deleteMessages (uids : List Nat) : Action Unit := addFlags uids {.deleted}

/-- A plain EXPUNGE removes every message flagged \Deleted. -/
def expunged (mb : Mailbox) : Mailbox := mb.remove fun m => .deleted ∈ m.flags

def expunge : Action Unit := changeSelected expunged

/-- COPY keeps flags and dates; UIDs that are gone are passed over. -/
def copied (source : Mailbox) (uids : List Nat) (target : Mailbox) : Mailbox :=
  (requested source uids).foldl (fun mb m => mb.arrive 0 m.content) target

def copy (uids : List Nat) (target : String) : Action Unit :=
  imapCall fun server selected =>
    match selected with
    | none => .error .imapClientError
    | some ⟨path, readonly⟩ =>
        match server.mailbox path, server.mailbox target with
        | some mb, some into =>
            .ok ((), server.put target (copied mb uids into), some ⟨path, readonly⟩)
        | _, _ => .error .imapClientError

/-- FETCH of BODY[], which sets \Seen unless the mailbox is read-only, or of BODY.PEEK[]. -/
def fetchBody (uid : Nat) (peek : Bool) : Action (Option Bytes) :=
  onSelected fun readonly mb =>
    .ok ((mb.find uid).map fun m => m.content.header ++ m.content.body,
      if peek || readonly then mb else storeFlags (fun old => old ∪ {.seen}) [uid] mb)

def searchMessageId (messageId : String) : Action (List Nat) :=
  onSelected fun _ mb =>
    .ok ((mb.messages.filter (env.hasMessageId messageId)).map RemoteMessage.uid, mb)

def appendMessage (path : String) (content : Content) : Action Unit :=
  imapCall fun server selected =>
    match server.mailbox path with
    | none => .error .imapClientError
    | some mb => .ok ((), server.put path (mb.arrive 0 content), selected)

def emptyMailbox (validity : Nat) : Mailbox where
  uidvalidity := validity
  uidNext := 1
  messages := []
  ordered := List.Pairwise.nil
  bounded := by
    intro m mem
    contradiction
  started := Nat.one_pos

def createFolder (path : String) : Action Unit :=
  imapCall fun server selected =>
    match server.mailbox path with
    | some _ => .error .imapClientError
    | none => .ok ((), server.put path (emptyMailbox env.createdValidity), selected)

def findSpecialFolder (use : SpecialUse) : Action (Option String) :=
  imapCall fun server selected => .ok (env.special use, server, selected)

def logout : Action Unit :=
  call .connectionError fun s => .ok ((), { s with client := none })

def commit : Action Unit := modify fun s => { s with stored := s.session }

/-- A token for IMAP or Graph; a renewed cache is committed with all that is pending. -/
def acquireToken : Action Unit := do
  call .connectionError fun s => .ok ((), s)
  if env.newTokenCache then commit else pure ()

def acquireImapToken (account : Account) : Action Unit :=
  match account.protocol with
  | .imapBasic => pure ()
  | .oauthMicrosoft => acquireToken env

def connect (account : Account) : Action Unit :=
  call .connectionError fun s => .ok ((), { s with client := some ⟨account.id, none⟩ })

def openImapConnection (account : Account) : Action Unit := do
  acquireImapToken env account
  connect account

def getGraphToken : Action Unit := acquireToken env

def selectFolderUidvalidity (path : String) : Action Nat := selectFolder path true

def markSeen (path : String) (uids : List Nat) : Action Unit :=
  if uids = [] then pure ()
  else do
    let _ ← selectFolder path false
    addFlags uids {.seen}

def findTrashFolder : Action (Option String) := findSpecialFolder env .trash

/-- The first personal namespace; asked for only where the server has namespaces. -/
def personalNamespace : Action String :=
  match env.personalPrefix with
  | none => pure ""
  | some personal => imapCall fun server selected => .ok (personal, server, selected)

def ensureSentFolder : Action String := do
  match ← findSpecialFolder env .sent with
  | some path => pure path
  | none =>
      let personal ← personalNamespace env
      createFolder env (personal ++ "Sent")
      pure (personal ++ "Sent")

def appendSentMessage (path : String) (content : Content) (messageId : String) : Action Unit := do
  let _ ← selectFolder path true
  let found ← searchMessageId env messageId
  if found = [] then appendMessage path { content with flags := {.seen} }
  else pure ()

def moveToTrash (source : String) (uid : Nat) (trash : String) : Action Unit := do
  let _ ← selectFolder source false
  copy [uid] trash
  deleteMessages [uid]
  expunge

def fetchFullMessage (path : String) (uid : Nat) (markSeen : Bool) : Action Bytes := do
  let _ ← selectFolder path (!markSeen)
  match ← fetchBody uid (!markSeen) with
  | none => raise .messageNotFound
  | some raw => if raw = [] then raise .messageNotFound else pure raw

end InboxImapClient
