import InboxOne.LabelledRuns
import InboxOne.FolderSegments

/-!
Runs of `_sync_folder` passes over one folder against a server that other clients
change. A label is one step of the environment or of the pass: the server may change
before every IMAP call, a call may raise, and UIDVALIDITY may be reset between passes.
The fields `used` and `log` only observe the run; no segment reads them.
-/
namespace InboxFolderRuns
open LabelledRuns InboxPython InboxMailbox InboxMailParser InboxTables InboxFolderSync
open InboxFolderSegments

inductive Record where
  | arrived (validity uid : Nat)
  | expunged (uid : Nat)
  | flagsChanged (uid : Nat)
  | reset (validity : Nat)
  | began
  | searched (validity : Nat) (snapshot : List Nat)
  | imported (validity : Nat) (uids : List Nat)
  | completed (validity : Option Nat)
  | aborted
  deriving DecidableEq, Repr

/- used holds every UIDVALIDITY so far, log the observed steps, newest first. -/
structure World where
  server : Mailbox
  used : List Nat
  db : FolderDb
  pass : Option Pc
  log : List Record

inductive Label where
  | arrive (gap : Nat) (content : Content)
  | expunge (uid : Nat)
  | changeFlags (uid : Nat) (flags : Flags)
  | reset (mailbox : Mailbox)
  | begin
  | call
  | abort

def World.change (w : World) (server : Mailbox) (r : Record) : World :=
  { w with server := server, log := r :: w.log }

def expungeUid (mb : Mailbox) (uid : Nat) : Mailbox := mb.remove fun m => m.uid = uid

def changeFlagsOf (mb : Mailbox) (uid : Nat) (flags : Flags) : Mailbox :=
  mb.store fun m => if m.uid = uid then flags else m.flags

def importedUids (db : FolderDb) (mb : Mailbox) (batch : List Nat) : List Nat :=
  ((fetchHeaders (headerResponse mb batch)).map FetchedHeader.uid).filter fun uid =>
    uid ∉ cachedUids db batch

def callRecords (mb : Mailbox) (db : FolderDb) : Pc → List Record
  | .search validity => [.searched validity (listUids (searchAll mb))]
  | .headers validity _ newUids =>
      [.imported validity (importedUids db mb (newUids.take syncBatchSize))]
  | _ => []

def endRecords (db : FolderDb) : Option Pc → List Record
  | none => [.completed db.folder.lastUidvalidity]
  | some _ => []

variable {Msg : Type} (email : EmailPackage Msg)

def callStep (w : World) (pc : Pc) : World :=
  match resume email w.server w.db pc with
  | .error _ => { w with pass := none, log := .aborted :: w.log }
  | .ok (db, pass) =>
      { w with
        db := db, pass := pass
        log := endRecords db pass ++ callRecords w.server w.db pc ++ w.log }

def next (w : World) : Label → Option World
  | .arrive gap content =>
      some (w.change (w.server.arrive gap content)
        (.arrived w.server.uidvalidity (w.server.uidNext + gap)))
  | .expunge uid => some (w.change (expungeUid w.server uid) (.expunged uid))
  | .changeFlags uid flags =>
      some (w.change (changeFlagsOf w.server uid flags) (.flagsChanged uid))
  | .reset mailbox =>
      if w.pass.isNone ∧ mailbox.uidvalidity ∉ w.used then
        some { w.change mailbox (.reset mailbox.uidvalidity) with
          used := mailbox.uidvalidity :: w.used }
      else none
  | .begin =>
      if w.pass.isNone then some { w with pass := some .select, log := .began :: w.log } else none
  | .call => w.pass.map (callStep email w)
  | .abort => w.pass.map fun _ => { w with pass := none, log := .aborted :: w.log }

/- The UIDVALIDITY and snapshot of the latest SEARCH, and whether the server stood still since. -/
def lastSearch : List Record → Option (Nat × List Nat)
  | [] => none
  | .searched validity snapshot :: _ => some (validity, snapshot)
  | _ :: older => lastSearch older

def Record.IsChange : Record → Prop
  | .arrived _ _ | .expunged _ | .flagsChanged _ | .reset _ => True
  | _ => False

def QuietSinceSearch : List Record → Prop
  | [] => False
  | .searched _ _ :: _ => True
  | r :: older => ¬ r.IsChange ∧ QuietSinceSearch older

/- Where a run may start: the cached rows belong to the recorded UIDVALIDITY, and if
   that is still the server's, everything up to last_seen_uid is cached. New messages
   get UIDs above the earlier ones, which the recorded UIDs are. -/
structure Consistent (server : Mailbox) (used : List Nat) (db : FolderDb) : Prop where
  owned : ∀ m, db.InFolder m → m.accountId = db.folder.accountId
  current : ∀ m, db.InFolder m → db.folder.lastUidvalidity = some m.uidvalidity
  positive : ∀ m, db.InFolder m → 0 < m.uid
  caughtUp : db.folder.lastUidvalidity = some server.uidvalidity →
    ∀ uid, server.Has uid → uid ≤ db.folder.lastSeenUid → db.Cached uid
  earlier : db.folder.lastUidvalidity = some server.uidvalidity →
    db.folder.lastSeenUid < server.uidNext ∧ ∀ m, db.InFolder m → m.uid < server.uidNext
  serverUsed : server.uidvalidity ∈ used
  folderUsed : ∀ v, db.folder.lastUidvalidity = some v → v ∈ used

structure Start (w : World) : Prop where
  consistent : Consistent w.server w.used w.db
  idle : w.pass = none
  unobserved : w.log = []

def FlagsAgree (m : Message) (flags : Flags) : Prop :=
  m.isSeen = decide (.seen ∈ flags) ∧ m.isFlagged = decide (.flagged ∈ flags) ∧
    m.isAnswered = decide (.answered ∈ flags)

/- The rows are exactly the messages of the server, with their flags. -/
def Mirrors (db : FolderDb) (mb : Mailbox) : Prop :=
  (∀ uid, db.Cached uid ↔ mb.Has uid) ∧
    ∀ m, db.InFolder m → ∀ remote, mb.find m.uid = some remote → FlagsAgree m remote.flags

/- What a completed pass leaves behind, for the snapshot of its SEARCH. -/
structure Converged (server : Mailbox) (db : FolderDb) (log : List Record)
    (snapshot : List Nat) : Prop where
  validity : db.folder.lastUidvalidity = some server.uidvalidity
  history : db.folder.historyComplete = true
  seen : ∀ uid ∈ snapshot, uid ≤ db.folder.lastSeenUid
  noneExtra : ∀ uid, db.Cached uid → uid ∈ snapshot
  noneMissing : ∀ uid ∈ snapshot, server.Has uid → db.Cached uid
  quiet : QuietSinceSearch log → Mirrors db server

/- The snapshot during the pass. Everything below bound was on the server at the
   SEARCH or is gone for good. -/
structure Snapshot (server : Mailbox) (db : FolderDb) (log : List Record)
    (remoteUids : List Nat) : Prop where
  validity : db.folder.lastUidvalidity = some server.uidvalidity
  ascending : remoteUids.Pairwise (· < ·)
  logged : lastSearch log = some (server.uidvalidity, remoteUids)
  bounded : ∃ bound, bound ≤ server.uidNext ∧
    (∀ uid, server.Has uid → uid < bound → uid ∈ remoteUids) ∧
    (∀ m, db.InFolder m → m.uid < bound) ∧ (∀ uid ∈ remoteUids, uid < bound)
  quiet : QuietSinceSearch log → ∀ uid, server.Has uid ↔ uid ∈ remoteUids

/- The rows up to a UID have been reconciled with the snapshot. -/
def Reconciled (server : Mailbox) (db : FolderDb) (log : List Record) (remoteUids : List Nat)
    (afterUid : Nat) : Prop :=
  ∀ m, db.InFolder m → m.uid ≤ afterUid → m.uid ∈ remoteUids ∧
    (QuietSinceSearch log → ∃ remote, server.find m.uid = some remote ∧
      FlagsAgree m remote.flags)

def PassSound (server : Mailbox) (db : FolderDb) (log : List Record) : Pc → Prop
  | .select => True
  | .search validity =>
      validity = server.uidvalidity ∧ db.folder.lastUidvalidity = some validity
  | .headers validity remoteUids newUids =>
      validity = server.uidvalidity ∧ Snapshot server db log remoteUids ∧ newUids ≠ [] ∧
        newUids = remoteUids.filter fun uid => db.folder.lastSeenUid < uid
  | .flags remoteUids messages =>
      Snapshot server db log remoteUids ∧
        (∀ uid ∈ remoteUids, uid ≤ db.folder.lastSeenUid) ∧
        ∃ afterUid, Reconciled server db log remoteUids afterUid ∧ messages ≠ [] ∧
          messages = nextMessages db afterUid

structure Sound (w : World) : Prop where
  consistent : Consistent w.server w.used w.db
  pass : ∀ pc, w.pass = some pc →
    PassSound w.server w.db w.log pc ∧ ∀ v older, w.log ≠ .completed v :: older
  converged : ∀ v older, w.log = .completed v :: older →
    ∃ snapshot, lastSearch older = some (w.server.uidvalidity, snapshot) ∧
      Converged w.server w.db w.log snapshot

end InboxFolderRuns
