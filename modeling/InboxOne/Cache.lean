import InboxOne.FolderSegments

/- The folder and message tables together, as the sync worker changes them: it updates
   the progress of a folder, and discovery adds and removes folders of an account. -/
namespace InboxCache
open InboxPython InboxMailbox InboxMailParser InboxTables InboxFolderSync InboxFolderSegments

structure Cache where
  folders : List Folder
  messages : MessageTable
  folderKeys : (folders.map Folder.id).Nodup
  folderPaths : (folders.map fun f => (f.accountId, f.imapPath)).Nodup

def Cache.folderById (c : Cache) (folderId : Nat) : Option Folder :=
  c.folders.find? fun f => f.id == folderId

def Cache.messageById (c : Cache) (messageId : Nat) : Option Message :=
  c.messages.rows.find? fun m => m.id == messageId

/-- The folder as `_sync_folder` sees it. -/
def Cache.view (c : Cache) (f : Folder) : FolderDb := ⟨f, c.messages⟩

def progressOf (db : FolderDb) (f : Folder) : Folder :=
  if f.id = db.folder.id then
    { f with
      historyComplete := db.folder.historyComplete
      lastUidvalidity := db.folder.lastUidvalidity
      lastSeenUid := db.folder.lastSeenUid }
  else f

@[simp] theorem progress_id (db : FolderDb) (f : Folder) : (progressOf db f).id = f.id := by
  unfold progressOf
  split <;> rfl

@[simp] theorem progress_path (db : FolderDb) (f : Folder) :
    ((progressOf db f).accountId, (progressOf db f).imapPath) = (f.accountId, f.imapPath) := by
  unfold progressOf
  split <;> rfl

/- The commit of a segment: UPDATE writes the columns that changed. -/
def Cache.write (c : Cache) (db : FolderDb) : Cache where
  folders := c.folders.map (progressOf db)
  messages := db.messages
  folderKeys := by
    rw [List.map_map]
    exact (List.map_congr_left fun f _ => progress_id db f) ▸ c.folderKeys
  folderPaths := by
    rw [List.map_map]
    exact (List.map_congr_left fun f _ => progress_path db f) ▸ c.folderPaths

/-- The DELETE of the message endpoint. -/
def Cache.deleteMessage (c : Cache) (messageId : Nat) : Cache :=
  { c with messages := c.messages.deleteWhere fun m => m.id = messageId }

def nextFolderId (folders : List Folder) : Nat := (folders.map Folder.id).foldr max 0 + 1

def newFolder (folderId account : Nat) (path : String) : Folder where
  id := folderId
  accountId := account
  imapPath := path
  displayName := some (if path.toLower = "inbox" then "Inbox" else path)
  isInbox := path.toLower = "inbox"
  historyComplete := false
  lastUidvalidity := none
  lastSeenUid := 0

/- A path that has a folder keeps it. -/
def Cache.addFolder (c : Cache) (account : Nat) (path : String) : Cache :=
  if unknown : (account, path) ∉ c.folders.map fun f => (f.accountId, f.imapPath) then
    { folders := c.folders ++ [newFolder (nextFolderId c.folders) account path]
      messages := c.messages
      folderKeys := by
        rw [List.map_append, List.map_singleton]
        exact c.folderKeys.append (List.nodup_singleton _)
          (List.disjoint_singleton.mpr (after_largest_fresh _))
      folderPaths := by
        rw [List.map_append, List.map_singleton]
        exact c.folderPaths.append (List.nodup_singleton _)
          (List.disjoint_singleton.mpr unknown) }
  else c

/- The messages of a removed folder go with it. -/
def Cache.removeFolders (c : Cache) (gone : Folder → Bool) : Cache where
  folders := c.folders.filter fun f => !gone f
  messages := c.messages.deleteWhere fun m => c.folders.any fun f => gone f && f.id == m.folderId
  folderKeys := c.folderKeys.sublist (List.filter_sublist.map _)
  folderPaths := c.folderPaths.sublist (List.filter_sublist.map _)

def sortedPaths (paths : List String) : List String := paths.dedup.insertionSort (· ≤ ·)

/-- What `_discover_folders` commits after a successful LIST; the flush inserts before it
deletes. -/
def Cache.discover (c : Cache) (account : Nat) (paths : List String) : Cache :=
  ((sortedPaths paths).foldl (fun c path => c.addFolder account path) c).removeFolders
    fun f => f.accountId = account ∧ f.imapPath ∉ paths

theorem folder_by_id_eq {c : Cache} {folderId : Nat} {f : Folder} :
    c.folderById folderId = some f ↔ f ∈ c.folders ∧ f.id = folderId := by
  constructor
  · intro found
    exact ⟨List.mem_of_find?_eq_some found, by simpa using List.find?_some found⟩
  · intro home
    exact find_by_key c.folderKeys home.1 home.2

theorem message_by_id_mem {c : Cache} {messageId : Nat} {m : Message}
    (found : c.messageById messageId = some m) : m ∈ c.messages.rows ∧ m.id = messageId :=
  ⟨List.mem_of_find?_eq_some found, by simpa using List.find?_some found⟩

theorem add_folder_messages (c : Cache) (account : Nat) (path : String) :
    (c.addFolder account path).messages = c.messages := by
  unfold Cache.addFolder
  split <;> rfl

theorem add_folders_messages (account : Nat) (paths : List String) (c : Cache) :
    (paths.foldl (fun c path => c.addFolder account path) c).messages = c.messages := by
  induction paths generalizing c with
  | nil => rfl
  | cons path rest ih => rw [List.foldl_cons, ih, add_folder_messages]

/- Discovery inserts no message. -/
theorem discover_rows {c : Cache} {account : Nat} {paths : List String} {m : Message}
    (mem : m ∈ (c.discover account paths).messages.rows) : m ∈ c.messages.rows := by
  have kept := (mem_deleteWhere.mp mem).1
  rwa [add_folders_messages] at kept

/-- Folders that discovery added have ids above all earlier ones and paths of their own. -/
def AddedTo (c : Cache) (account : Nat) (f : Folder) : Prop :=
  f.accountId = account ∧ (∀ g ∈ c.folders, g.id < f.id) ∧
    ∀ g ∈ c.folders, ¬ (g.accountId = account ∧ g.imapPath = f.imapPath)

theorem add_folder_mem (c : Cache) (account : Nat) (path : String) :
    (∀ f ∈ c.folders, f ∈ (c.addFolder account path).folders) ∧
      (∀ f ∈ (c.addFolder account path).folders, f ∈ c.folders ∨ AddedTo c account f) ∧
      ∃ f ∈ (c.addFolder account path).folders, f.accountId = account ∧ f.imapPath = path := by
  unfold Cache.addFolder
  split
  · rename_i unknown
    have fresh : AddedTo c account (newFolder (nextFolderId c.folders) account path) := by
      refine ⟨rfl, fun g mem => ?_, fun g mem same => unknown ?_⟩
      · exact Nat.lt_succ_of_le (le_largest (List.mem_map_of_mem mem))
      · exact List.mem_map.mpr ⟨g, mem, by rw [same.1, same.2]; rfl⟩
    refine ⟨fun f mem => List.mem_append_left _ mem, fun f mem => ?_, _,
      List.mem_append_right _ List.mem_cons_self, rfl, rfl⟩
    rcases List.mem_append.mp mem with old | new
    · exact Or.inl old
    · exact Or.inr (List.mem_singleton.mp new ▸ fresh)
  · rename_i known
    obtain ⟨g, mem, same⟩ := List.mem_map.mp (not_not.mp known)
    obtain ⟨own, name⟩ := Prod.mk.inj same
    exact ⟨fun f mem => mem, fun f mem => Or.inl mem, g, mem, own, name⟩

theorem add_folders_mem (account : Nat) (paths : List String) (c : Cache) :
    (∀ f ∈ c.folders, f ∈ (paths.foldl (fun c path => c.addFolder account path) c).folders) ∧
      (∀ f ∈ (paths.foldl (fun c path => c.addFolder account path) c).folders,
        f ∈ c.folders ∨ AddedTo c account f) ∧
      ∀ path ∈ paths, ∃ f ∈ (paths.foldl (fun c path => c.addFolder account path) c).folders,
        f.accountId = account ∧ f.imapPath = path := by
  induction paths generalizing c with
  | nil => exact ⟨fun f mem => mem, fun f mem => Or.inl mem, by simp⟩
  | cons path rest ih =>
    obtain ⟨kept, new, home⟩ := add_folder_mem c account path
    obtain ⟨keptLater, newLater, homes⟩ := ih (c.addFolder account path)
    rw [List.foldl_cons]
    refine ⟨fun f mem => keptLater f (kept f mem), fun f mem => ?_, fun p mem => ?_⟩
    · rcases newLater f mem with early | late
      · exact new f early
      · exact Or.inr ⟨late.1, fun g old => late.2.1 g (kept g old),
          fun g old => late.2.2 g (kept g old)⟩
    · rcases List.mem_cons.mp mem with first | later
      · obtain ⟨f, fMem, own, name⟩ := home
        exact ⟨f, keptLater f fMem, own, name.trans first.symm⟩
      · exact homes p later

theorem mem_sorted_paths {paths : List String} {path : String} :
    path ∈ sortedPaths paths ↔ path ∈ paths := by
  rw [sortedPaths, List.mem_insertionSort, List.mem_dedup]

/- After discovery the account has exactly the listed paths, old rows unchanged. -/
theorem discover_folders (c : Cache) (account : Nat) (paths : List String) :
    (∀ f ∈ (c.discover account paths).folders, f ∈ c.folders ∨ AddedTo c account f) ∧
      (∀ f ∈ (c.discover account paths).folders, f.accountId = account → f.imapPath ∈ paths) ∧
      (∀ path ∈ paths, ∃ f ∈ (c.discover account paths).folders,
        f.accountId = account ∧ f.imapPath = path) ∧
      ∀ f ∈ c.folders, f.accountId = account → f.imapPath ∈ paths →
        f ∈ (c.discover account paths).folders := by
  obtain ⟨kept, new, homes⟩ := add_folders_mem account (sortedPaths paths) c
  have mem_iff : ∀ f, f ∈ (c.discover account paths).folders ↔
      f ∈ ((sortedPaths paths).foldl (fun c path => c.addFolder account path) c).folders ∧
        (f.accountId = account → f.imapPath ∈ paths) := by
    intro f
    simp [Cache.discover, Cache.removeFolders, imp_iff_not_or]
  refine ⟨fun f mem => new f ((mem_iff f).mp mem).1, fun f mem => ((mem_iff f).mp mem).2,
    fun path mem => ?_, fun f mem own listed => (mem_iff f).mpr ⟨kept f mem, fun _ => listed⟩⟩
  obtain ⟨f, fMem, own, name⟩ := homes path (mem_sorted_paths.mpr mem)
  exact ⟨f, (mem_iff f).mpr ⟨fMem, fun _ => name ▸ mem⟩, own, name⟩

/- A folder, its mailbox with one message of the given UID, and the empty mailbox. -/
def letterFolder : Folder := newFolder 1 1 "INBOX"

def letter : Content := ⟨∅, none, some 0, [], []⟩

def letterBox (uid : Nat) : Mailbox where
  uidvalidity := 7
  uidNext := uid + 2
  messages := [⟨uid + 1, letter⟩]
  ordered := List.pairwise_singleton _ _
  bounded := by simp
  started := Nat.succ_pos _

theorem nothing_ordered : ([] : List RemoteMessage).Pairwise fun a b => a.uid < b.uid :=
  List.Pairwise.nil

def emptyBox : Mailbox where
  uidvalidity := 7
  uidNext := 2
  messages := []
  ordered := nothing_ordered
  bounded := by simp
  started := by decide

end InboxCache
