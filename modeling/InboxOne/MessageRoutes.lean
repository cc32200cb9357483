import InboxOne.ImapClient
import InboxOne.MailParser

/-!
The message endpoints that talk to a mail server. Each one is a program over the request:
it reads its row, calls the server of the row's account and writes the flags it knows of.
An exception drops what the session has not committed.
-/
namespace InboxMessageRoutes
open FaultyCalls InboxPython InboxMailbox InboxTables InboxDatabase InboxFolderSync InboxImapClient

/- parse_full_message, extract_attachment_bytes and build_reply_mime of the mail parser.
   What a reply consists of does not matter here, only that it may fail to be built. -/
structure MailFormat (Detail Attachment Draft : Type) where
  parseFullMessage : Bytes → Except PyException Detail
  extractAttachmentBytes : Bytes → String → Except PyException Attachment
  buildReplyMime : Account → Draft → Message → Except PyException (Content × String)

structure FlagsUpdate where
  seen : Option Bool
  flagged : Option Bool
  deriving DecidableEq, Repr

structure ReplyRequest (Draft : Type) where
  accountId : Option Nat
  draft : Draft

variable {Detail Attachment Draft : Type} (mail : MailFormat Detail Attachment Draft)
variable (env : Environment)

def notFound : PyException := .http 404 "Message not found"

def lift {A : Type} : Except PyException A → Action A := rethrow

/-- The row with its account and its folder, as selectinload fetches them. -/
def loadMessage (messageId : Nat) : Action (Message × Account × Folder) := do
  match ← read fun s : Request => s.session.messageById messageId with
  | none => raise notFound
  | some m =>
      match ← read fun s : Request => (s.session.accountById m.accountId, s.session.folderOf m) with
      | (some account, some folder) => pure (m, account, folder)
      | _ => raise notFound

def changeRows (ids : List Nat) (change : FlagChange) : Action Unit :=
  modify fun s => { s with session := s.session.changeFlags ids change }

/-- How `_fetch_raw` reports what went wrong. -/
def fetchError : PyException → PyException
  | .messageNotFound => .http 404 "Message no longer exists on the mail server"
  | .http status detail => .http status detail
  | _ => .http 502 "Could not fetch message from the mail server"

def fetchSelected (m : Message) (path : String) (markSeen : Bool) : Action Bytes := do
  let validity ← selectFolderUidvalidity path
  if validity ≠ m.uidvalidity then
    raise (.http 404 "Message no longer exists on the mail server")
  else fetchFullMessage path m.uid markSeen

/-- `_fetch_raw`; a failing logout is only logged. -/
def fetchRaw (account : Account) (folder : Folder) (m : Message) (markSeen : Bool) :
    Action Bytes := do
  match ← attempt (openImapConnection env account) with
  | .error e => raise (fetchError e)
  | .ok () =>
      let result ← attempt (fetchSelected m folder.imapPath markSeen)
      let _ ← attempt logout
      match result with
      | .ok raw => pure raw
      | .error e => raise (fetchError e)

def getMessage (messageId : Nat) : Action Detail := do
  let (m, account, folder) ← loadMessage messageId
  let raw ← fetchRaw env account folder m true
  let parsed ← lift (mail.parseFullMessage raw)
  if m.isSeen then pure parsed
  else
    changeRows [m.id] { seen := some true }
    commit
    pure parsed

def attachmentError : PyException → PyException
  | .valueError _ => .http 404 "Attachment not found"
  | other => other

def getAttachment (messageId : Nat) (partIndex : String) : Action Attachment := do
  let (m, account, folder) ← loadMessage messageId
  let raw ← fetchRaw env account folder m false
  match mail.extractAttachmentBytes raw partIndex with
  | .ok attachment => pure attachment
  | .error e => raise (attachmentError e)

/-- `_apply_flags`: one STORE for each flag of the payload. -/
def storeFlag (uid : Nat) (flag : Flag) : Option Bool → Action Unit
  | none => pure ()
  | some true => addFlags [uid] {flag}
  | some false => removeFlags [uid] {flag}

def applyFlags (path : String) (uid : Nat) (payload : FlagsUpdate) : Action Unit := do
  let _ ← selectFolder path false
  storeFlag uid .seen payload.seen
  storeFlag uid .flagged payload.flagged

def updateFlags (messageId : Nat) (payload : FlagsUpdate) : Action Unit := do
  let (m, account, folder) ← loadMessage messageId
  openImapConnection env account
  ensuring (do
      applyFlags folder.imapPath m.uid payload
      changeRows [m.id] { seen := payload.seen, flagged := payload.flagged })
    logout
  commit

def trashMessage (source : String) (uid : Nat) : Action Unit := do
  match ← findTrashFolder env with
  | none => raise (.http 422 "Could not find a Trash folder on this account")
  | some trash =>
      if source = trash then raise (.http 400 "Message is already in Trash")
      else moveToTrash source uid trash

def deleteMessage (messageId : Nat) : Action Unit := do
  let (m, account, folder) ← loadMessage messageId
  openImapConnection env account
  ensuring (trashMessage env folder.imapPath m.uid) logout
  modify fun s => { s with session := s.session.deleteMessage messageId }
  commit

/- The messages that mark_all_read selects: unread, in the folder or in the inboxes. -/
def unreadRows (db : Database) (accountId folderId : Option Nat) : List Message :=
  db.messages.rows.filter fun m =>
    !m.isSeen &&
    (match accountId with
      | none => true
      | some account => m.accountId == account) &&
    (match folderId with
      | none => (db.folderOf m).any Folder.isInbox
      | some folder => m.folderId == folder)

/-- A dictionary built by setdefault and append: keys in the order they appear. -/
def groupBy {R K : Type} [BEq K] (key : R → K) (rows : List R) : List (K × List R) :=
  ((rows.map key).eraseDups).map fun k => (k, rows.filter fun r => key r == k)

def pathOf (db : Database) (m : Message) : String := ((db.folderOf m).map Folder.imapPath).getD ""

def readBatch : Nat := 200

/-- `uids[offset : offset + 200] for offset in range(0, len(uids), 200)`. -/
def batches (uids : List Nat) : List (List Nat) :=
  (List.range ((uids.length + readBatch - 1) / readBatch)).map fun i =>
    (uids.drop (i * readBatch)).take readBatch

def markFolder (path : String) (rows : List Message) : Action Nat := do
  foldEach (batches (rows.map fun m => m.uid)) () fun _ uids => markSeen path uids
  changeRows (rows.map Message.id) { seen := some true }
  pure rows.length

/- An exception ends the account's loop; what was marked before it still counts. -/
def markFolders : List (String × List Message) → Action Nat
  | [] => pure 0
  | (path, rows) :: rest => do
      match ← attempt (markFolder path rows) with
      | .error _ => pure 0
      | .ok n =>
          let m ← markFolders rest
          pure (n + m)

def markAccount (accountRows : Nat × List Message) : Action Nat := do
  let db ← read Request.session
  match db.accountById accountRows.1 with
  | none => pure 0
  | some account =>
      match ← attempt (openImapConnection env account) with
      | .error _ => pure 0
      | .ok () =>
          let n ← markFolders (groupBy (pathOf db) accountRows.2)
          logout
          pure n

def markAccounts (groups : List (Nat × List Message)) : Action Nat :=
  foldEach groups 0 fun updated accountRows => do
    let n ← markAccount env accountRows
    pure (updated + n)

def markAllRead (accountId folderId : Option Nat) : Action Nat := do
  let db ← read Request.session
  let updated ← markAccounts env
    (groupBy (fun m => m.accountId) (unreadRows db accountId folderId))
  commit
  pure updated

def lower (text : String) : List Char := text.toList.map Char.toLower

/-- Gmail files what it submits, whatever the spelling of its hosts. -/
def gmailSavesSent (account : Account) : Bool :=
  (lower (account.smtpHost.getD "") ∈ ["smtp.gmail.com".toList, "smtp.googlemail.com".toList]) &&
  (lower (account.imapHost.getD "") ∈ ["imap.gmail.com".toList, "imap.googlemail.com".toList])

def deliver (servers : Servers) (d : Delivery) : Servers :=
  match (servers d.account).mailbox d.path with
  | none => servers
  | some mb =>
      Function.update servers d.account ((servers d.account).put d.path (mb.arrive d.gap d.content))

/-- SMTP or Graph submission. What the providers file of it arrives as new mail. -/
def submit : Action Unit :=
  call .connectionError fun s => .ok ((), { s with servers := env.delivered.foldl deliver s.servers })

def savedWarning : String :=
  "Your message was sent, but its copy could not be saved in the account's " ++
    "Sent folder. Do not send it again."

def sendSmtpAndSave (account : Account) (content : Content) (messageId : String) :
    Action (Option String) := do
  if gmailSavesSent account then
    submit env
    pure none
  else
    openImapConnection env account
    let result ← attempt (do
      let path ← ensureSentFolder env
      submit env
      match ← attempt (appendSentMessage env path content messageId) with
      | .ok () => pure none
      | .error _ => pure (some savedWarning))
    let _ ← attempt logout
    rethrow result

/- payload.account_id or original.account_id: no id and the id 0 mean the original's. -/
def sendAccountId (request : ReplyRequest Draft) (original : Message) : Nat :=
  match request.accountId with
  | none => original.accountId
  | some accountId => if accountId = 0 then original.accountId else accountId

def sendReply (account : Account) (request : ReplyRequest Draft) (original : Message) :
    Action (Option String) := do
  match account.protocol with
  | .oauthMicrosoft =>
      getGraphToken env
      submit env
      pure none
  | .imapBasic =>
      let (content, headerId) ← lift (mail.buildReplyMime account request.draft original)
      sendSmtpAndSave env account content headerId

def reply (messageId : Nat) (request : ReplyRequest Draft) : Action (Option String) := do
  let (original, _, _) ← loadMessage messageId
  match ← read fun s : Request => s.session.accountById (sendAccountId request original) with
  | none => raise (.http 404 "Send-as account not found")
  | some account =>
      let warning ← sendReply mail env account request original
      changeRows [messageId] { answered := some true }
      commit
      pure warning

/-- A request starts from what is committed, without a connection. -/
def begin (db : Database) (servers : Servers) : Request := ⟨db, db, servers, none⟩

end InboxMessageRoutes
