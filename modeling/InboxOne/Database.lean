import InboxOne.Tables

/- The whole database: accounts, folders and messages with their keys. A message is
   written with the account of its folder, so the two always agree. -/
namespace InboxDatabase
open InboxPython InboxTables

inductive Protocol where
  | imapBasic
  | oauthMicrosoft
  deriving DecidableEq, Repr

structure Account where
  id : Nat
  protocol : Protocol
  imapHost : Option String
  smtpHost : Option String
  deriving DecidableEq, Repr

structure Database where
  accounts : List Account
  folders : List Folder
  messages : MessageTable
  accountKeys : (accounts.map Account.id).Nodup
  folderKeys : (folders.map Folder.id).Nodup
  folderPaths : (folders.map fun f => (f.accountId, f.imapPath)).Nodup
  folderOwners : ∀ f ∈ folders, ∃ a ∈ accounts, a.id = f.accountId
  messageHomes : ∀ m ∈ messages.rows, ∃ f ∈ folders, f.id = m.folderId ∧ f.accountId = m.accountId

def Database.folderOf (db : Database) (m : Message) : Option Folder :=
  db.folders.find? fun f => f.id == m.folderId

def Database.accountById (db : Database) (accountId : Nat) : Option Account :=
  db.accounts.find? fun a => a.id == accountId

def Database.messageById (db : Database) (messageId : Nat) : Option Message :=
  db.messages.rows.find? fun m => m.id == messageId

theorem folder_of_eq {db : Database} {m : Message} {f : Folder} :
    db.folderOf m = some f ↔ f ∈ db.folders ∧ f.id = m.folderId := by
  constructor
  · intro found
    exact ⟨List.mem_of_find?_eq_some found, by simpa using List.find?_some found⟩
  · intro home
    exact find_by_key db.folderKeys home.1 home.2

theorem message_by_id_eq {db : Database} {messageId : Nat} {m : Message} :
    db.messageById messageId = some m ↔ m ∈ db.messages.rows ∧ m.id = messageId := by
  constructor
  · intro found
    exact ⟨List.mem_of_find?_eq_some found, by simpa using List.find?_some found⟩
  · intro row
    exact find_by_key db.messages.keys row.1 row.2

/- A row finds its folder and its account. -/
theorem message_home (db : Database) {m : Message} (mem : m ∈ db.messages.rows) :
    ∃ f a, db.folderOf m = some f ∧ f.accountId = m.accountId ∧
      db.accountById m.accountId = some a ∧ a.id = m.accountId := by
  obtain ⟨f, fMem, home, owner⟩ := db.messageHomes m mem
  obtain ⟨a, aMem, same⟩ := db.folderOwners f fMem
  exact ⟨f, a, folder_of_eq.mpr ⟨fMem, home⟩, owner,
    find_by_key db.accountKeys aMem (same.trans owner), same.trans owner⟩

theorem path_determines {db : Database} {f f' : Folder} (fMem : f ∈ db.folders)
    (mem : f' ∈ db.folders) (account : f.accountId = f'.accountId) (path : f.imapPath = f'.imapPath) :
    f = f' :=
  List.inj_on_of_nodup_map db.folderPaths fMem mem (by rw [account, path])

/-- Another message table whose rows stay in the folders of the old one. -/
def Database.withMessages (db : Database) (table : MessageTable)
    (homes : ∀ m ∈ table.rows, ∃ old ∈ db.messages.rows,
      old.folderId = m.folderId ∧ old.accountId = m.accountId) : Database :=
  { db with
    messages := table
    messageHomes := by
      intro m mem
      obtain ⟨old, oldMem, folder, account⟩ := homes m mem
      obtain ⟨f, fMem, home, owner⟩ := db.messageHomes old oldMem
      exact ⟨f, fMem, home.trans folder, owner.trans account⟩ }

/-- The flag columns that an endpoint writes; `none` leaves a column alone. -/
structure FlagChange where
  seen : Option Bool := none
  flagged : Option Bool := none
  answered : Option Bool := none
  deriving DecidableEq, Repr

def FlagChange.apply (change : FlagChange) (m : Message) : Message :=
  { m with
    isSeen := change.seen.getD m.isSeen
    isFlagged := change.flagged.getD m.isFlagged
    isAnswered := change.answered.getD m.isAnswered }

def FlagChange.applyTo (change : FlagChange) (ids : List Nat) (m : Message) : Message :=
  if m.id ∈ ids then change.apply m else m

@[simp] theorem apply_to_id (change : FlagChange) (ids : List Nat) (m : Message) :
    (change.applyTo ids m).id = m.id := by
  unfold FlagChange.applyTo
  split <;> rfl

@[simp] theorem apply_to_identity (change : FlagChange) (ids : List Nat) (m : Message) :
    (change.applyTo ids m).identity = m.identity := by
  unfold FlagChange.applyTo
  split <;> rfl

def MessageTable.changeFlags (table : MessageTable) (ids : List Nat) (change : FlagChange) :
    MessageTable :=
  table.rewrite (fun m => some (change.applyTo ids m)) (by
    intro m m' same
    rw [Option.some.injEq] at same
    rw [← same]
    exact ⟨apply_to_id change ids m, apply_to_identity change ids m⟩)

theorem change_flags_rows (table : MessageTable) (ids : List Nat) (change : FlagChange) :
    (MessageTable.changeFlags table ids change).rows = table.rows.map (change.applyTo ids) := by
  simp only [MessageTable.changeFlags, MessageTable.rewrite]
  rw [List.filterMap_eq_map']

def Database.changeFlags (db : Database) (ids : List Nat) (change : FlagChange) : Database :=
  db.withMessages (MessageTable.changeFlags db.messages ids change) (by
    intro m mem
    rw [change_flags_rows] at mem
    obtain ⟨old, oldMem, same⟩ := List.mem_map.mp mem
    have identity : old.identity = m.identity := by rw [← same, apply_to_identity]
    rw [Message.identity, Message.identity, NewMessage.identity, NewMessage.identity,
      Prod.mk.injEq, Prod.mk.injEq] at identity
    exact ⟨old, oldMem, identity.2.1, identity.1⟩)

def Database.deleteMessage (db : Database) (messageId : Nat) : Database :=
  db.withMessages (db.messages.deleteWhere fun m => m.id = messageId) (by
    intro m mem
    exact ⟨m, (mem_deleteWhere.mp mem).1, rfl, rfl⟩)

end InboxDatabase
