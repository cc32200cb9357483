import Mathlib.Data.List.Sort
import InboxOne.Tables

/-!
One pass of `_sync_folder` over one folder. The pass is cut at its IMAP calls: a
program counter says which call it waits for and holds its local variables, and each
segment runs from the answer of one call to the next call. Every segment ends in a
commit, so it is one transaction of the folder row and the message table.
-/
namespace InboxFolderSync
open InboxPython InboxMailbox InboxMailParser InboxTables

/- The entry of one message in the dictionary that IMAPClient.fetch returns. -/
structure FetchData where
  flags : Option Flags
  internaldate : Option Datetime
  size : Option Nat
  header : Option Bytes
  deriving DecidableEq

structure FetchedHeader where
  uid : Nat
  flags : Flags
  internaldate : Option Datetime
  size : Option Nat
  headerBytes : Bytes
  deriving DecidableEq

def listUids (found : List Nat) : List Nat := found.insertionSort (· ≤ ·)

def fetchHeaders (response : List (Nat × FetchData)) : List FetchedHeader :=
  (response.insertionSort fun a b => a.1 ≤ b.1).map fun (uid, data) =>
    { uid := uid
      flags := data.flags.getD ∅
      internaldate := data.internaldate
      size := data.size
      headerBytes := data.header.getD [] }

def fetchFlags (response : List (Nat × FetchData)) : List (Nat × Flags) :=
  response.map fun (uid, data) => (uid, data.flags.getD ∅)

def syncBatchSize : Nat := 200

structure FolderDb where
  folder : Folder
  messages : MessageTable

def FolderDb.InFolder (db : FolderDb) (m : Message) : Prop :=
  m ∈ db.messages.rows ∧ m.folderId = db.folder.id

def FolderDb.Cached (db : FolderDb) (uid : Nat) : Prop := ∃ m, db.InFolder m ∧ m.uid = uid

inductive Pc where
  | select
  | search (validity : Nat)
  | headers (validity : Nat) (remoteUids newUids : List Nat)
  | flags (remoteUids : List Nat) (messages : List Message)

def afterSelect (db : FolderDb) (validity : Nat) : FolderDb :=
  if db.folder.lastUidvalidity ≠ some validity then
    { folder := { db.folder with
        lastSeenUid := 0, historyComplete := false, lastUidvalidity := some validity }
      messages := db.messages.deleteWhere fun m => m.folderId = db.folder.id }
  else db

def nextMessages (db : FolderDb) (afterUid : Nat) : List Message :=
  ((db.messages.rows.filter fun m => m.folderId = db.folder.id ∧ afterUid < m.uid).insertionSort
    fun a b => a.uid ≤ b.uid).take syncBatchSize

/- The head of the reconciliation loop; without messages left the pass is complete. -/
def reconcileAfter (db : FolderDb) (remoteUids : List Nat) (afterUid : Nat) :
    FolderDb × Option Pc :=
  match nextMessages db afterUid with
  | [] => ({ db with folder := { db.folder with historyComplete := true } }, none)
  | messages => (db, some (.flags remoteUids messages))

def afterSearch (db : FolderDb) (validity : Nat) (remoteUids : List Nat) :
    FolderDb × Option Pc :=
  match remoteUids.filter fun uid => db.folder.lastSeenUid < uid with
  | [] => reconcileAfter db remoteUids 0
  | newUids => (db, some (.headers validity remoteUids newUids))

def multipartMixed : Bytes := "multipart/mixed".toUTF8.toList

def lowerByte (b : UInt8) : UInt8 := if 65 ≤ b ∧ b ≤ 90 then b + 32 else b

def containsBytes (text part : Bytes) : Bool := decide (part <:+: text)

variable {Msg : Type} (email : EmailPackage Msg)

def newMessage (folder : Folder) (validity : Nat) (header : FetchedHeader)
    (parsed : ParsedHeader) (dateSent : Option Clock) : NewMessage where
  accountId := folder.accountId
  folderId := folder.id
  uid := header.uid
  uidvalidity := validity
  notificationEligible := folder.historyComplete
  messageIdHeader := parsed.messageIdHeader
  inReplyTo := parsed.inReplyTo
  references := parsed.references
  subject := parsed.subject
  fromName := parsed.fromName
  fromAddr := parsed.fromAddr
  toAddrs := some parsed.toAddrs
  ccAddrs := some parsed.ccAddrs
  dateSent := dateSent
  isSeen := decide (.seen ∈ header.flags)
  isFlagged := decide (.flagged ∈ header.flags)
  isAnswered := decide (.answered ∈ header.flags)
  hasAttachments := containsBytes (header.headerBytes.map lowerByte) multipartMixed
  snippet := none
  sizeBytes := header.size

/-- The loop over the headers of a batch: all new ones are parsed before a row is stored. -/
def parseHeaders (cached : List Nat) (headers : List FetchedHeader) :
    Except PyException (List (FetchedHeader × ParsedHeader)) :=
  (headers.filter fun header => header.uid ∉ cached).mapM fun header => do
    let parsed ← parseHeaderBlock email header.headerBytes
    return (header, parsed)

def bindMessage (folder : Folder) (validity : Nat) (entry : FetchedHeader × ParsedHeader) :
    Except PyException NewMessage := do
  let dateSent ← processBindParam (entry.2.dateSent.or entry.1.internaldate)
  return newMessage folder validity entry.1 entry.2 dateSent

/- The commit binds the columns of every new row before it inserts the first one. -/
def boundMessages (folder : Folder) (validity : Nat) (cached : List Nat)
    (headers : List FetchedHeader) : Except PyException (List NewMessage) := do
  let parsed ← parseHeaders email cached headers
  parsed.mapM (bindMessage folder validity)

def importHeaders (folder : Folder) (validity : Nat) (cached : List Nat) (table : MessageTable)
    (headers : List FetchedHeader) : Except PyException MessageTable := do
  let messages ← boundMessages email folder validity cached headers
  messages.foldlM MessageTable.insert table

def cachedUids (db : FolderDb) (batch : List Nat) : List Nat :=
  (db.messages.rows.filter fun m => m.folderId = db.folder.id ∧ m.uid ∈ batch).map fun m => m.uid

def afterHeaders (db : FolderDb) (validity : Nat) (remoteUids newUids : List Nat)
    (headers : List FetchedHeader) : Except PyException (FolderDb × Option Pc) := do
  let batch := newUids.take syncBatchSize
  let table ← importHeaders email db.folder validity (cachedUids db batch) db.messages headers
  let db : FolderDb :=
    { folder := { db.folder with lastSeenUid := batch.getLastD db.folder.lastSeenUid }
      messages := table }
  match newUids.drop syncBatchSize with
  | [] => return reconcileAfter db remoteUids 0
  | rest => return (db, some (.headers validity remoteUids rest))

def presentUids (remoteUids : List Nat) (messages : List Message) : List Nat :=
  (messages.map fun m => m.uid).filter fun uid => uid ∈ remoteUids

def reconcileRow (messages : List Message) (flags : List (Nat × Flags)) (row : Message) :
    Option Message :=
  if row.id ∈ messages.map Message.id then (flags.lookup row.uid).map row.withFlags
  else some row

theorem reconcileRow_keeps (messages : List Message) (flags : List (Nat × Flags))
    (m m' : Message) (eq : reconcileRow messages flags m = some m') :
    m'.id = m.id ∧ m'.identity = m.identity := by
  unfold reconcileRow at eq
  split at eq
  · obtain ⟨_, _, same⟩ := Option.map_eq_some_iff.mp eq
    exact same ▸ ⟨rfl, rfl⟩
  · rw [Option.some.injEq] at eq
    exact eq ▸ ⟨rfl, rfl⟩

def afterFlags (db : FolderDb) (remoteUids : List Nat) (messages : List Message)
    (flags : List (Nat × Flags)) : FolderDb × Option Pc :=
  reconcileAfter
    { db with
      messages := db.messages.rewrite (reconcileRow messages flags)
        (reconcileRow_keeps messages flags) }
    remoteUids ((messages.getLast?.map fun m => m.uid).getD 0)

/- How the server answers: exactly the requested UIDs that still exist. -/
def searchAll (mb : Mailbox) : List Nat := mb.messages.map fun m => m.uid

def requested (mb : Mailbox) (uids : List Nat) : List RemoteMessage :=
  mb.messages.filter fun m => m.uid ∈ uids

def headerResponse (mb : Mailbox) (uids : List Nat) : List (Nat × FetchData) :=
  (requested mb uids).map fun m =>
    (m.uid, ⟨some m.flags, m.content.internaldate, m.content.size, some m.content.header⟩)

/- fetch_flags makes no call for an empty list. -/
def flagResponse (mb : Mailbox) (uids : List Nat) : List (Nat × FetchData) :=
  if uids = [] then []
  else (requested mb uids).map fun m => (m.uid, ⟨some m.flags, none, none, none⟩)

/- From the call the pass waits for to the next one, or to its end. An exception
   rolls the session back, so nothing of the segment stays. -/
def resume (mb : Mailbox) (db : FolderDb) : Pc → Except PyException (FolderDb × Option Pc)
  | .select => .ok (afterSelect db mb.uidvalidity, some (.search mb.uidvalidity))
  | .search validity => .ok (afterSearch db validity (listUids (searchAll mb)))
  | .headers validity remoteUids newUids =>
      afterHeaders email db validity remoteUids newUids
        (fetchHeaders (headerResponse mb (newUids.take syncBatchSize)))
  | .flags remoteUids messages =>
      .ok (afterFlags db remoteUids messages
        (fetchFlags (flagResponse mb (presentUids remoteUids messages))))

end InboxFolderSync
