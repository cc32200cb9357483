import Mathlib.Algebra.BigOperators.Group.List.Basic
import InboxOne.MessageList
import InboxOne.RecordedChanges
import InboxOne.RowsByKey

/-!
The unread badges of the account list, the unread list and mark-all-read. Each of them looks
for the unread messages of a scope in its own way: a count for every folder and sums in the
browser, a filter with pages, and a selection that is sent account by account and folder by
folder. Without an account and a folder the scope is every inbox.
-/
namespace InboxUnreadCounts
open FaultyCalls PairedRuns RowsByKey InboxPython InboxTables InboxDatabase InboxFolderSync
open InboxImapClient InboxMessageRoutes InboxMessageList InboxRouteRules InboxRecordedChanges

structure ListedFolder where
  folder : Folder
  unreadCount : Nat
  deriving DecidableEq, Repr

structure ListedAccount where
  account : Account
  folders : List ListedFolder
  deriving DecidableEq, Repr

def unseen (db : Database) : List Message := db.messages.rows.filter fun m => !m.isSeen

/-- The unread messages counted by folder; a folder without any has no entry. -/
def countsByFolder (db : Database) : List (Nat × Nat) :=
  (groupBy (fun m => m.folderId) (unseen db)).map fun group => (group.1, group.2.length)

def unreadCount (db : Database) (folderId : Nat) : Nat :=
  ((countsByFolder db).lookup folderId).getD 0

def listAccounts (db : Database) : List ListedAccount :=
  db.accounts.map fun account => {
    account := account
    folders := (db.folders.filter fun f => f.accountId == account.id).map fun f =>
      ⟨f, unreadCount db f.id⟩ }

def inboxFolders (account : ListedAccount) : List ListedFolder :=
  account.folders.filter fun f => f.folder.isInbox

def inboxUnreadCount (account : ListedAccount) : Nat :=
  (inboxFolders account).foldl (fun sum f => sum + f.unreadCount) 0

/-- No account asked for stands for every account. -/
def asks (accountId : Option Nat) (id : Nat) : Bool :=
  match accountId with
  | none => true
  | some asked => id == asked

/- The accounts of a scope, as the account list answers them. -/
def scopeAccounts (db : Database) (accountId : Option Nat) : List ListedAccount :=
  (listAccounts db).filter fun a => asks accountId a.account.id

/-- The badge of all inboxes, of an account or of a folder listed under an account. -/
def unreadBadge (db : Database) (accountId folderId : Option Nat) : Nat :=
  match folderId with
  | none => (scopeAccounts db accountId).foldl (fun sum a => sum + inboxUnreadCount a) 0
  | some id =>
      ((((scopeAccounts db accountId).flatMap ListedAccount.folders).find? fun f =>
        f.folder.id == id).map ListedFolder.unreadCount).getD 0

def unreadFilters (accountId folderId : Option Nat) : Filters :=
  ⟨accountId, folderId, true, false, none⟩

/-- What one account is sent: its folders one after the other, 200 UIDs at a time. -/
def folderBatches (folders : List (String × List Message)) : List (String × List Nat) :=
  folders.flatMap fun folder =>
    (batches (folder.2.map fun m => m.uid)).map fun uids => (folder.1, uids)

def accountBatches (db : Database) (groups : List (Nat × List Message)) :
    List (Account × List (String × List Nat)) :=
  groups.filterMap fun group => (db.accountById group.1).map fun account =>
    (account, folderBatches (groupBy (pathOf db) group.2))

/-- Everything that mark_all_read sends, account by account. -/
def sentBatches (db : Database) (accountId folderId : Option Nat) :
    List (Account × List (String × List Nat)) :=
  accountBatches db (groupBy (fun m => m.accountId) (unreadRows db accountId folderId))

variable (env : Environment)

def storeBatches (sent : List (String × List Nat)) : Action Unit :=
  foldEach sent () fun _ batch => markSeen batch.1 batch.2

def sendAccount (sent : Account × List (String × List Nat)) : Action Unit := do
  openImapConnection env sent.1
  storeBatches sent.2
  logout

/-- The calls alone, in their order: the first that fails ends them. -/
def sendAll (sent : List (Account × List (String × List Nat))) : Action Unit :=
  foldEach sent () fun _ account => sendAccount env account

/-- Every UID with the account and the folder it is sent for. -/
def sentUids (sent : List (Account × List (String × List Nat))) : List (Nat × String × Nat) :=
  sent.flatMap fun account => account.2.flatMap fun batch => batch.2.map fun uid =>
    (account.1.id, batch.1, uid)

/-- The folders a scope takes its messages from. -/
def scopeFolders (db : Database) (accountId folderId : Option Nat) : List Folder :=
  db.folders.filter fun f => asks accountId f.accountId &&
    (match folderId with
      | none => f.isInbox
      | some id => f.id == id)

theorem asks_iff (accountId : Option Nat) (id : Nat) :
    asks accountId id = true ↔ ∀ asked, accountId = some asked → id = asked := by
  unfold asks
  cases accountId with
  | none => simp
  | some asked => simp

theorem unread_count_eq (db : Database) (folderId : Nat) :
    unreadCount db folderId = (rowsOf (fun m => m.folderId) (unseen db) folderId).length := by
  have entries : countsByFolder db = (((unseen db).map fun m => m.folderId).eraseDups).map fun k =>
      (k, (rowsOf (fun m => m.folderId) (unseen db) k).length) := by
    rw [countsByFolder, groupBy, List.map_map]
    rfl
  rw [unreadCount, entries, lookup_of_keys]
  split
  · rfl
  · rename_i absent
    rw [List.contains_iff_mem, List.mem_eraseDups] at absent
    symm
    rw [Option.getD_none, List.length_eq_zero_iff, rowsOf, List.filter_eq_nil_iff]
    intro m mem same
    exact absent (List.mem_map.mpr ⟨m, mem, beq_iff_eq.mp same⟩)

/- A row is found through its folder. -/
theorem row_in_scope_iff (db : Database) (accountId folderId : Option Nat) {m : Message}
    (row : m ∈ db.messages.rows) :
    m.folderId ∈ (scopeFolders db accountId folderId).map Folder.id ↔
      (∀ id, accountId = some id → m.accountId = id) ∧
        (match folderId with
          | none => (db.folderOf m).any Folder.isInbox = true
          | some id => m.folderId = id) := by
  obtain ⟨home, _, found, owner, _⟩ := message_home db row
  obtain ⟨homeMem, homeId⟩ := folder_of_eq.mp found
  have only : ∀ f ∈ db.folders, f.id = m.folderId → f = home := fun f mem same =>
    Option.some.inj ((folder_of_eq.mpr ⟨mem, same⟩).symm.trans found)
  rw [found, List.mem_map]
  constructor
  · intro there
    obtain ⟨f, mem, same⟩ := there
    obtain ⟨fMem, inside⟩ := List.mem_filter.mp mem
    rw [only f fMem same] at inside
    rw [Bool.and_eq_true] at inside
    refine ⟨fun id scope => owner.symm.trans ((asks_iff _ _).mp inside.1 id scope), ?_⟩
    · cases folderId with
      | none => exact inside.2
      | some id => exact homeId.symm.trans (beq_iff_eq.mp inside.2)
  · intro inside
    obtain ⟨account, folder⟩ := inside
    refine ⟨home, List.mem_filter.mpr ⟨homeMem, ?_⟩, homeId⟩
    rw [Bool.and_eq_true]
    constructor
    · exact (asks_iff _ _).mpr fun id scope => owner.trans (account id scope)
    · cases folderId with
      | none => exact folder
      | some id => exact beq_iff_eq.mpr (homeId.trans folder)

theorem unread_rows_eq (db : Database) (accountId folderId : Option Nat) :
    unreadRows db accountId folderId = (unseen db).filter fun m =>
      ((scopeFolders db accountId folderId).map Folder.id).contains m.folderId := by
  unfold unreadRows unseen
  rw [List.filter_filter]
  apply List.filter_congr
  intro m row
  rw [Bool.eq_iff_iff, Bool.and_eq_true, Bool.and_eq_true, Bool.and_eq_true,
    List.contains_iff_mem, row_in_scope_iff db accountId folderId row]
  cases accountId <;> cases folderId <;> simp <;> tauto

theorem mem_listed (db : Database) (accountId : Option Nat) (listed : ListedFolder) :
    listed ∈ (scopeAccounts db accountId).flatMap ListedAccount.folders ↔
      listed.folder ∈ db.folders ∧ (∀ id, accountId = some id → listed.folder.accountId = id) ∧
        listed.unreadCount = unreadCount db listed.folder.id := by
  rw [List.mem_flatMap]
  constructor
  · intro there
    obtain ⟨a, mem, inside⟩ := there
    obtain ⟨aMem, scope⟩ := List.mem_filter.mp mem
    obtain ⟨account, _, same⟩ := List.mem_map.mp aMem
    subst same
    obtain ⟨f, fMem, entry⟩ := List.mem_map.mp inside
    obtain ⟨row, own⟩ := List.mem_filter.mp fMem
    subst entry
    exact ⟨row, fun id asked => (beq_iff_eq.mp own).trans ((asks_iff _ _).mp scope id asked), rfl⟩
  · intro both
    obtain ⟨row, scope, count⟩ := both
    obtain ⟨account, aMem, own⟩ := db.folderOwners listed.folder row
    refine ⟨_, List.mem_filter.mpr ⟨List.mem_map.mpr ⟨account, aMem, rfl⟩, ?_⟩, ?_⟩
    · exact (asks_iff _ _).mpr fun id asked => own.trans (scope id asked)
    · refine List.mem_map.mpr ⟨listed.folder, List.mem_filter.mpr ⟨row, ?_⟩, ?_⟩
      · exact beq_iff_eq.mpr own.symm
      · rw [← count]

theorem folder_badge (db : Database) (accountId : Option Nat) (folderId : Nat) :
    unreadBadge db accountId (some folderId) =
      (unreadRows db accountId (some folderId)).length := by
  rw [unread_rows_eq]
  unfold unreadBadge
  dsimp only
  cases found : ((scopeAccounts db accountId).flatMap ListedAccount.folders).find?
      fun f => f.folder.id == folderId with
  | none =>
    have outside : ∀ m ∈ unseen db, ¬ ((scopeFolders db accountId (some folderId)).map
        Folder.id).contains m.folderId = true := by
      intro m _ inside
      rw [List.contains_iff_mem, List.mem_map] at inside
      obtain ⟨f, mem, _⟩ := inside
      obtain ⟨row, scope⟩ := List.mem_filter.mp mem
      rw [Bool.and_eq_true] at scope
      have entry : (⟨f, unreadCount db f.id⟩ : ListedFolder) ∈
          (scopeAccounts db accountId).flatMap ListedAccount.folders :=
        (mem_listed db accountId _).mpr ⟨row, (asks_iff _ _).mp scope.1, rfl⟩
      have none := List.find?_eq_none.mp found _ entry
      exact none scope.2
    rw [List.filter_eq_nil_iff.mpr outside]
    rfl
  | some listed =>
    have same : listed.folder.id = folderId := by simpa using List.find?_some found
    obtain ⟨row, scope, count⟩ := (mem_listed db accountId listed).mp (List.mem_of_find?_eq_some found)
    have inside : listed.folder ∈ scopeFolders db accountId (some folderId) := by
      refine List.mem_filter.mpr ⟨row, ?_⟩
      rw [Bool.and_eq_true]
      exact ⟨(asks_iff _ _).mpr scope, beq_iff_eq.mpr same⟩
    rw [Option.map_some, Option.getD_some, count, unread_count_eq, same, rowsOf]
    congr 1
    apply List.filter_congr
    intro m _
    rw [Bool.eq_iff_iff, List.contains_iff_mem, List.mem_map, beq_iff_eq]
    constructor
    · intro home
      exact ⟨listed.folder, inside, same.trans home.symm⟩
    · intro there
      obtain ⟨f, mem, home⟩ := there
      have asked := (List.mem_filter.mp mem).2
      rw [Bool.and_eq_true] at asked
      exact home.symm.trans (beq_iff_eq.mp asked.2)

theorem foldl_sum {A : Type} (xs : List A) (count : A → Nat) :
    xs.foldl (fun sum x => sum + count x) 0 = (xs.map count).sum := by
  rw [List.sum_eq_foldl, List.foldl_map]

theorem inbox_unread_count_eq (db : Database) (account : Account) :
    inboxUnreadCount ⟨account, (db.folders.filter fun f => f.accountId == account.id).map fun f =>
        ⟨f, unreadCount db f.id⟩⟩ =
      ((rowsOf Folder.accountId (db.folders.filter Folder.isInbox) account.id).map fun f =>
        unreadCount db f.id).sum := by
  unfold inboxUnreadCount inboxFolders rowsOf
  rw [foldl_sum, List.filter_map, List.map_map, List.filter_filter, List.filter_filter]
  congr 2
  apply List.filter_congr
  intro f _
  exact Bool.and_comm _ _

/- The accounts of the scope, one after the other, list its inboxes. -/
theorem scope_inboxes (db : Database) (accountId : Option Nat) :
    (((db.accounts.filter fun a => asks accountId a.id).map Account.id).flatMap
      (rowsOf Folder.accountId (db.folders.filter Folder.isInbox))).Perm
      (scopeFolders db accountId none) := by
  have distinct : ((db.accounts.filter fun a => asks accountId a.id).map Account.id).Nodup :=
    db.accountKeys.sublist (List.filter_sublist.map _)
  refine (rows_of_keys distinct Folder.accountId _).trans (List.Perm.of_eq ?_)
  unfold scopeFolders
  rw [List.filter_filter]
  apply List.filter_congr
  intro f row
  obtain ⟨owner, oMem, own⟩ := db.folderOwners f row
  rw [Bool.eq_iff_iff, Bool.and_eq_true, Bool.and_eq_true, List.contains_iff_mem, List.mem_map]
  refine and_congr_left fun _ => ?_
  constructor
  · intro there
    obtain ⟨a, mem, same⟩ := there
    exact same ▸ (List.mem_filter.mp mem).2
  · intro scope
    exact ⟨owner, List.mem_filter.mpr ⟨oMem, own ▸ scope⟩, own⟩

theorem inbox_badge (db : Database) (accountId : Option Nat) :
    unreadBadge db accountId none = (unreadRows db accountId none).length := by
  have keys : ((scopeFolders db accountId none).map Folder.id).Nodup :=
    db.folderKeys.sublist (List.filter_sublist.map _)
  have sums : unreadBadge db accountId none =
      (((db.accounts.filter fun a => asks accountId a.id).map Account.id).map fun id =>
        ((rowsOf Folder.accountId (db.folders.filter Folder.isInbox) id).map fun f =>
          unreadCount db f.id).sum).sum := by
    unfold unreadBadge scopeAccounts listAccounts
    dsimp only
    rw [foldl_sum, List.filter_map, List.map_map, List.map_map]
    congr 1
    apply List.map_congr_left
    intro account _
    exact inbox_unread_count_eq db account
  calc unreadBadge db accountId none
    _ = ((scopeFolders db accountId none).map fun f => unreadCount db f.id).sum := by
        rw [sums, ← ((scope_inboxes db accountId).map fun f => unreadCount db f.id).sum_eq,
          List.map_flatMap, List.flatMap_def, List.sum_flatten, List.map_map (g := List.sum)]
        rfl
    _ = (((scopeFolders db accountId none).map Folder.id).map fun id =>
          (rowsOf (fun m => m.folderId) (unseen db) id).length).sum := by
        rw [List.map_map]
        congr 1
        apply List.map_congr_left
        intro f _
        exact unread_count_eq db f.id
    _ = (unreadRows db accountId none).length := by
        rw [total_of_keys keys, unread_rows_eq]

/- The badge counts the messages that mark_all_read selects. -/
theorem badge_eq (db : Database) (accountId folderId : Option Nat) :
    unreadBadge db accountId folderId = (unreadRows db accountId folderId).length := by
  cases folderId with
  | none => exact inbox_badge db accountId
  | some id => exact folder_badge db accountId id

/- The unread list of the scope selects the same messages. -/
theorem unread_list_eq (db : Database) (accountId folderId : Option Nat) :
    selected db (unreadFilters accountId folderId) = unreadRows db accountId folderId := by
  have everything : ∀ m, matchesSearch none m = true := fun m => by
    rw [matches_search_iff]
    exact .inl rfl
  unfold selected unreadRows
  apply List.filter_congr
  intro m _
  unfold matchesFilters unreadFilters
  rw [everything, Bool.eq_iff_iff]
  simp only [Bool.not_false, Bool.not_true, Bool.true_or, Bool.false_or, Bool.and_true,
    Bool.and_eq_true]
  tauto

/- Every complete walk through the unread list returns the selected messages once each. -/
theorem unread_pages (db : Database) (accountId folderId : Option Nat) {limit n : Nat}
    {pages : List (List Message)} (positive : 1 ≤ limit)
    (walked : walk (unreadFilters accountId folderId) limit none (List.replicate n db) =
      some pages) : pages.flatten.Perm (unreadRows db accountId folderId) := by
  obtain ⟨once, listed⟩ := unchanged_pages positive walked
  have keys : ((unreadRows db accountId folderId).map Message.id).Nodup :=
    db.messages.keys.sublist (List.filter_sublist.map _)
  refine (List.perm_ext_iff_of_nodup once.of_map keys.of_map).mpr fun m => ?_
  rw [listed, ← unread_list_eq, mem_selected]

theorem blocks_flatten {A : Type} (xs : List A) (size n : Nat) :
    ((List.range n).map fun i => (xs.drop (i * size)).take size).flatten = xs.take (n * size) := by
  induction n with
  | zero => simp
  | succ n ih =>
    rw [List.range_succ, List.map_append, List.flatten_append, ih, List.map_singleton,
      List.flatten_singleton, Nat.succ_mul, List.take_add]

theorem batches_flatten (uids : List Nat) : (batches uids).flatten = uids := by
  unfold batches
  rw [blocks_flatten]
  apply List.take_of_length_le
  unfold readBatch
  omega

theorem batches_small {uids batch : List Nat} (mem : batch ∈ batches uids) :
    batch.length ≤ readBatch := by
  obtain ⟨i, _, same⟩ := List.mem_map.mp mem
  rw [← same]
  exact List.length_take_le _ _

/- Grouping neither loses nor repeats a row. -/
theorem group_by_perm {R K : Type} [BEq K] [LawfulBEq K] (key : R → K) (rows : List R) :
    ((groupBy key rows).flatMap Prod.snd).Perm rows := by
  have groups : (groupBy key rows).flatMap Prod.snd =
      ((rows.map key).eraseDups).flatMap (rowsOf key rows) := by
    rw [groupBy, List.flatMap_map]
    rfl
  rw [groups]
  refine (rows_of_keys (erase_dups_nodup _) key rows).trans (List.Perm.of_eq ?_)
  rw [List.filter_eq_self]
  intro r mem
  rw [List.contains_iff_mem, List.mem_eraseDups]
  exact List.mem_map.mpr ⟨r, mem, rfl⟩

/- The UIDs of an account's batches, each with its folder. -/
theorem folder_batches_uids (folders : List (String × List Message)) :
    ((folderBatches folders).flatMap fun batch => batch.2.map fun uid => (batch.1, uid)) =
      folders.flatMap fun folder => folder.2.map fun m => (folder.1, m.uid) := by
  unfold folderBatches
  rw [List.flatMap_assoc]
  apply List.flatMap_congr
  intro folder _
  have pairs : ∀ parts : List (List Nat), (parts.flatMap fun uids =>
      uids.map fun uid => (folder.1, uid)) = parts.flatten.map fun uid => (folder.1, uid) := by
    intro parts
    rw [List.map_flatten, List.flatMap_def]
  rw [List.flatMap_map, pairs, batches_flatten, List.map_map]
  rfl

theorem path_group_uids (db : Database) (rows : List Message) :
    ((groupBy (pathOf db) rows).flatMap fun folder => folder.2.map fun m => (folder.1, m.uid)) =
      ((groupBy (pathOf db) rows).flatMap Prod.snd).map fun m => (pathOf db m, m.uid) := by
  rw [List.map_flatMap]
  apply List.flatMap_congr
  intro folder mem
  apply List.map_congr_left
  intro m inside
  rw [(folder_member mem inside).2]

theorem account_batches_uids (db : Database) (rows : List Message) (accountId : Nat)
    (own : ∀ m ∈ rows, m.accountId = accountId) :
    ((folderBatches (groupBy (pathOf db) rows)).flatMap fun batch => batch.2.map fun uid =>
      (accountId, batch.1, uid)).Perm (rows.map fun m => (m.accountId, pathOf db m, m.uid)) := by
  have named : ((folderBatches (groupBy (pathOf db) rows)).flatMap fun batch =>
      batch.2.map fun uid => (accountId, batch.1, uid)) =
      (((groupBy (pathOf db) rows).flatMap Prod.snd).map fun m => (pathOf db m, m.uid)).map
        fun place => (accountId, place) := by
    rw [← path_group_uids, ← folder_batches_uids, List.map_flatMap]
    apply List.flatMap_congr
    intro batch _
    rw [List.map_map]
    rfl
  rw [named]
  refine (((group_by_perm (pathOf db) rows).map _).map _).trans (List.Perm.of_eq ?_)
  rw [List.map_map]
  apply List.map_congr_left
  intro m mem
  rw [own m mem]
  rfl

theorem account_batches_cons {db : Database} {group : Nat × List Message} {owner : Account}
    (known : db.accountById group.1 = some owner) (rest : List (Nat × List Message)) :
    accountBatches db (group :: rest) =
      (owner, folderBatches (groupBy (pathOf db) group.2)) :: accountBatches db rest := by
  unfold accountBatches
  apply List.filterMap_cons_some
  rw [known]
  rfl

/- Each selected message is sent once, under its account and its folder. -/
theorem sent_uids_perm (db : Database) (accountId folderId : Option Nat) :
    (sentUids (sentBatches db accountId folderId)).Perm
      ((unreadRows db accountId folderId).map fun m => (m.accountId, pathOf db m, m.uid)) := by
  have groups : ∀ gs : List (Nat × List Message),
      (∀ g ∈ gs, g ∈ groupBy (fun m => m.accountId) (unreadRows db accountId folderId)) →
      (sentUids (accountBatches db gs)).Perm
        ((gs.flatMap Prod.snd).map fun m => (m.accountId, pathOf db m, m.uid)) := by
    intro gs
    induction gs with
    | nil =>
      intro _
      exact List.Perm.nil
    | cons g rest ih =>
      intro all
      have here := all g List.mem_cons_self
      obtain ⟨owner, known⟩ := group_account here
      have ownId : owner.id = g.1 := by simpa using List.find?_some known
      have first := account_batches_uids db g.2 owner.id fun m inside =>
        (group_member here inside).2.trans ownId.symm
      rw [account_batches_cons known, sentUids, List.flatMap_cons, ← sentUids, List.flatMap_cons,
        List.map_append]
      exact first.append (ih fun other mem => all other (List.mem_cons_of_mem _ mem))
  exact (groups _ fun _ mem => mem).trans ((group_by_perm _ _).map _)

end InboxUnreadCounts
