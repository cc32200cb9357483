import InboxOne.Cache
import InboxOne.NamedRows

/-!
`_discover_folders` of one account: the reply to LIST, the mailboxes it names, and the
folder rows after the commit.
-/
namespace InboxFolderDiscovery
open NamedRows InboxPython InboxMailbox InboxTables InboxFolderSync InboxCache

/-- IMAPClient gives attributes as bytes, and as text where it had to decode them. -/
inductive Attribute where
  | bytes (name : Bytes)
  | text (name : String)
  deriving DecidableEq, Repr

structure Listed where
  attributes : List Attribute
  path : String
  deriving DecidableEq, Repr

def Attribute.lower : Attribute → Bytes
  | .bytes name => name.map lowerByte
  | .text name => name.toLower.toUTF8.data.toList

def noselect : Bytes := "\\noselect".toUTF8.data.toList

def listFolders (reply : List Listed) : List String :=
  (reply.filter fun l => noselect ∉ l.attributes.map Attribute.lower).map Listed.path

/-- `_discover_folders`; an exception of LIST leaves it before anything is written. -/
def discoverFolders (c : Cache) (account : Nat) :
    Except PyException (List Listed) → Except PyException Unit × Cache
  | .error e => (.error e, c)
  | .ok reply => (.ok (), c.discover account (listFolders reply))

/-- The inbox folder that `create_account` inserts. -/
def createdInbox (folderId account : Nat) : Folder where
  id := folderId
  accountId := account
  imapPath := "INBOX"
  displayName := some "Inbox"
  isInbox := true
  historyComplete := false
  lastUidvalidity := none
  lastSeenUid := 0

def IsInbox (path : String) : Prop := path.toLower = "inbox"

theorem is_inbox_iff {path : String} :
    IsInbox path ↔ path.toList.map Char.toLower = ['i', 'n', 'b', 'o', 'x'] := by
  unfold IsInbox String.toLower
  rw [← String.toList_inj, String.toList_map]
  rfl

instance (path : String) : Decidable (IsInbox path) := decidable_of_iff _ is_inbox_iff.symm

/-- The mailbox that a path names: INBOX has one name in any letter case. -/
def mailboxOf (path : String) : String := if IsInbox path then "INBOX" else path

def ownFolders (c : Cache) (account : Nat) : List Folder :=
  c.folders.filter fun f => f.accountId = account

/-- Everything of a folder row but the path. -/
def SameRow (f f' : Folder) : Prop :=
  f'.id = f.id ∧ f'.accountId = f.accountId ∧ f'.displayName = f.displayName ∧
    f'.isInbox = f.isInbox ∧ f'.historyComplete = f.historyComplete ∧
    f'.lastUidvalidity = f.lastUidvalidity ∧ f'.lastSeenUid = f.lastSeenUid

def SameMessages (c c' : Cache) (folderId : Nat) : Prop :=
  ∀ m : Message, m.folderId = folderId → (m ∈ c'.messages.rows ↔ m ∈ c.messages.rows)

/-- The attribute \Noselect in any letter case. -/
def Attribute.IsNoselect : Attribute → Prop
  | .bytes name => name.map lowerByte = noselect
  | .text name => name.toLower = "\\noselect"

def Listed.Selectable (l : Listed) : Prop := ∀ a ∈ l.attributes, ¬ a.IsNoselect

/-- A selectable mailbox of the reply has this path, or another spelling of INBOX. -/
def Names (reply : List Listed) (path : String) : Prop :=
  ∃ l ∈ reply, l.Selectable ∧ mailboxOf path = mailboxOf l.path

/-- Discovery preserves the identity of mailboxes. -/
structure PreservesIdentity (c c' : Cache) (account : Nat) (reply : List Listed) : Prop where
  one : ∀ l ∈ reply, l.Selectable → ∃ f ∈ ownFolders c' account,
    mailboxOf f.imapPath = mailboxOf l.path ∧
      ∀ g ∈ ownFolders c' account, mailboxOf g.imapPath = mailboxOf l.path → g = f
  only : ∀ f ∈ ownFolders c' account, Names reply f.imapPath
  kept : ∀ f ∈ ownFolders c account, Names reply f.imapPath →
    (∃ f' ∈ ownFolders c' account, SameRow f f') ∧ SameMessages c c' f.id
  fresh : ∀ f' ∈ ownFolders c' account, (∀ f ∈ ownFolders c account, f.id ≠ f'.id) →
    (f'.isInbox = true ↔ IsInbox f'.imapPath)
  removed : ∀ f ∈ ownFolders c account, ¬ Names reply f.imapPath →
    (∀ f' ∈ c'.folders, f'.id ≠ f.id) ∧ ∀ m ∈ c'.messages.rows, m.folderId ≠ f.id

/-- One call of discovery: identity is preserved, and nothing changes when LIST fails. -/
def Preserved (c : Cache) (account : Nat) (reply : Except PyException (List Listed)) : Prop :=
  match reply with
  | .error _ => (discoverFolders c account reply).2 = c
  | .ok listed => PreservesIdentity c (discoverFolders c account reply).2 account listed

/-- If the reply names INBOX as a selectable mailbox, all its spellings of INBOX and those
    of the stored rows are one. -/
def OneInboxSpelling (c : Cache) (account : Nat) : Except PyException (List Listed) → Prop
  | .error _ => True
  | .ok listed => ∀ inbox ∈ listed, inbox.Selectable → IsInbox inbox.path →
      (∀ l ∈ listed, l.Selectable → IsInbox l.path → l.path = inbox.path) ∧
        ∀ f ∈ ownFolders c account, IsInbox f.imapPath → f.imapPath = inbox.path

theorem lower_noselect (a : Attribute) : a.lower = noselect ↔ a.IsNoselect := by
  cases a with
  | bytes name => exact Iff.rfl
  | text name =>
    unfold Attribute.lower Attribute.IsNoselect noselect
    rw [Array.toList_inj, ← ByteArray.ext_iff]
    exact String.toByteArray_inj

theorem mem_list_folders {reply : List Listed} {path : String} :
    path ∈ listFolders reply ↔ ∃ l ∈ reply, l.Selectable ∧ l.path = path := by
  simp only [listFolders, List.mem_map, List.mem_filter, decide_eq_true_eq, and_assoc,
    Listed.Selectable, lower_noselect, not_exists, not_and]

example : listFolders [⟨[.bytes "\\NoSELECT".toUTF8.data.toList], "Shared"⟩,
    ⟨[.bytes "\\HasNoChildren".toUTF8.data.toList], "INBOX"⟩] = ["INBOX"] := by
  decide

theorem mailbox_eq {p q : String} : mailboxOf p = mailboxOf q ↔ p = q ∨ IsInbox p ∧ IsInbox q := by
  have inbox : IsInbox "INBOX" := by decide
  unfold mailboxOf
  by_cases hp : IsInbox p <;> by_cases hq : IsInbox q
  · simp [hp, hq]
  · simp only [hp, hq, if_true, if_false, and_false, or_false]
    constructor
    · exact fun eq => absurd (eq ▸ inbox) hq
    · exact fun eq => absurd (eq ▸ hp) hq
  · simp only [hp, hq, if_true, if_false, false_and, or_false]
    constructor
    · exact fun eq => absurd (eq ▸ inbox) hp
    · exact fun eq => absurd (eq ▸ hq) hp
  · simp [hp, hq]

/-! ### The rows after the commit -/

variable {c : Cache} {account : Nat} {paths : List String}

theorem mem_own {c : Cache} {f : Folder} :
    f ∈ ownFolders c account ↔ f ∈ c.folders ∧ f.accountId = account := by
  simp [ownFolders]

theorem own_paths (c : Cache) (account : Nat) :
    ((ownFolders c account).map Folder.imapPath).Nodup := by
  have all : ((ownFolders c account).map fun f => (f.accountId, f.imapPath)).Nodup :=
    c.folderPaths.sublist (List.filter_sublist.map _)
  have paired : ((ownFolders c account).map fun f => (f.accountId, f.imapPath)) =
      ((ownFolders c account).map Folder.imapPath).map fun path => (account, path) := by
    rw [List.map_map]
    refine List.map_congr_left fun f mem => ?_
    rw [Function.comp, (mem_own.mp mem).2]
  rw [paired] at all
  exact List.Nodup.of_map _ all

/- Discovery matches the rows by their paths. -/
theorem discover_by_name (c : Cache) (account : Nat) (paths : List String) :
    ByName Folder.imapPath (ownFolders c account) (ownFolders (c.discover account paths) account)
      paths := by
  obtain ⟨_, listed, every, kept⟩ := discover_folders c account paths
  constructor
  · exact own_paths _ account
  · intro f mem
    obtain ⟨row, own⟩ := mem_own.mp mem
    exact listed f row own
  · intro path mem
    obtain ⟨f, row, own, same⟩ := every path mem
    exact ⟨f, mem_own.mpr ⟨row, own⟩, same⟩
  · intro f mem inside
    obtain ⟨row, own⟩ := mem_own.mp mem
    exact mem_own.mpr ⟨kept f row own inside, own⟩

/- A row that has the id of an earlier row is that row. -/
theorem discover_same_id {f f' : Folder} (old : f ∈ c.folders)
    (new : f' ∈ (c.discover account paths).folders) (same : f'.id = f.id) : f' = f := by
  rcases (discover_folders c account paths).1 f' new with former | added
  · exact List.inj_on_of_nodup_map c.folderKeys former old same
  · have above := added.2.1 f old
    omega

theorem add_folders_new (paths : List String) (c : Cache) {f : Folder}
    (mem : f ∈ (paths.foldl (fun c path => c.addFolder account path) c).folders) :
    f ∈ c.folders ∨ ∃ folderId, ∃ path ∈ paths, f = newFolder folderId account path := by
  induction paths generalizing c with
  | nil => exact Or.inl mem
  | cons path rest ih =>
    rcases ih (c.addFolder account path) mem with first | ⟨folderId, later, inside, new⟩
    · unfold Cache.addFolder at first
      split at first
      · rcases List.mem_append.mp first with old | added
        · exact Or.inl old
        · exact Or.inr ⟨_, path, List.mem_cons_self, List.mem_singleton.mp added⟩
      · exact Or.inl first
    · exact Or.inr ⟨folderId, later, List.mem_cons_of_mem _ inside, new⟩

theorem discover_new {f : Folder} (mem : f ∈ (c.discover account paths).folders) :
    f ∈ c.folders ∨ ∃ folderId, ∃ path ∈ paths, f = newFolder folderId account path := by
  rcases add_folders_new (sortedPaths paths) c (List.mem_of_mem_filter mem) with
    old | ⟨folderId, path, inside, new⟩
  · exact Or.inl old
  · exact Or.inr ⟨folderId, path, mem_sorted_paths.mp inside, new⟩

/- A message stays unless it lies in a folder of the account whose path is not listed. -/
theorem discover_message {m : Message} :
    m ∈ (c.discover account paths).messages.rows ↔ m ∈ c.messages.rows ∧
      ∀ f ∈ c.folders, f.accountId = account → f.imapPath ∉ paths → f.id ≠ m.folderId := by
  have all : m ∈ (c.discover account paths).messages.rows ↔ m ∈ c.messages.rows ∧
      ∀ f ∈ ((sortedPaths paths).foldl (fun c path => c.addFolder account path) c).folders,
        f.accountId = account → f.imapPath ∉ paths → f.id ≠ m.folderId := by
    rw [Cache.discover, Cache.removeFolders]
    simp only [mem_deleteWhere, add_folders_messages, List.any_eq_false]
    simp
  rw [all]
  refine and_congr_right fun _ => ?_
  constructor
  · exact fun every f mem => every f ((add_folders_mem account (sortedPaths paths) c).1 f mem)
  · intro every f mem own unlisted
    rcases add_folders_new (sortedPaths paths) c mem with old | ⟨_, path, inside, rfl⟩
    · exact every f old own unlisted
    · exact absurd (mem_sorted_paths.mp inside) unlisted

/-- A row that is no longer listed goes, and its messages with it. -/
theorem discover_removes {f : Folder} (mem : f ∈ ownFolders c account)
    (unlisted : f.imapPath ∉ paths) :
    (∀ f' ∈ (c.discover account paths).folders, f'.id ≠ f.id) ∧
      ∀ m ∈ (c.discover account paths).messages.rows, m.folderId ≠ f.id := by
  obtain ⟨row, own⟩ := mem_own.mp mem
  constructor
  · intro f' mem' same
    have eq := discover_same_id row mem' same
    subst eq
    exact unlisted ((discover_folders c account paths).2.1 f' mem' own)
  · intro m mem' same
    exact (discover_message.mp mem').2 f row own unlisted same.symm

theorem discover_keeps_messages {f : Folder} (mem : f ∈ ownFolders c account)
    (listed : f.imapPath ∈ paths) : SameMessages c (c.discover account paths) f.id := by
  intro m home
  rw [discover_message, and_iff_left_iff_imp]
  intro _ g gm _ unlisted same
  have eq : g = f :=
    List.inj_on_of_nodup_map c.folderKeys gm (mem_own.mp mem).1 (same.trans home)
  exact unlisted (eq ▸ listed)

theorem names_iff {reply : List Listed} {path : String} :
    Names reply path ↔ ∃ n ∈ listFolders reply, mailboxOf path = mailboxOf n := by
  unfold Names
  constructor
  · rintro ⟨l, mem, selectable, same⟩
    exact ⟨l.path, mem_list_folders.mpr ⟨l, mem, selectable, rfl⟩, same⟩
  · rintro ⟨n, mem, same⟩
    obtain ⟨l, inside, selectable, rfl⟩ := mem_list_folders.mp mem
    exact ⟨l, inside, selectable, same⟩

variable {reply : List Listed}

theorem preserves_of_unambiguous (clear : Unambiguous Folder.imapPath mailboxOf
    (ownFolders c account) (listFolders reply)) :
    PreservesIdentity c (c.discover account (listFolders reply)) account reply := by
  have by_name := discover_by_name c account (listFolders reply)
  constructor
  · intro l mem selectable
    exact one_row_of_unambiguous by_name clear l.path
      (mem_list_folders.mpr ⟨l, mem, selectable, rfl⟩)
  · intro f mem
    exact names_iff.mpr ⟨f.imapPath, by_name.only f mem, rfl⟩
  · intro f mem named
    have kept := keeps_of_unambiguous by_name clear f mem (names_iff.mp named)
    exact ⟨⟨f, kept, rfl, rfl, rfl, rfl, rfl, rfl, rfl⟩,
      discover_keeps_messages mem (by_name.only f kept)⟩
  · intro f' mem unknown
    obtain ⟨row, own⟩ := mem_own.mp mem
    rcases discover_new row with old | ⟨_, path, _, rfl⟩
    · exact absurd rfl (unknown f' (mem_own.mpr ⟨old, own⟩))
    · exact decide_eq_true_iff
  · intro f mem unnamed
    exact discover_removes mem fun inside => unnamed (names_iff.mpr ⟨f.imapPath, inside, rfl⟩)

theorem unambiguous_of_preserves
    (preserves : PreservesIdentity c (c.discover account (listFolders reply)) account reply) :
    Unambiguous Folder.imapPath mailboxOf (ownFolders c account) (listFolders reply) := by
  refine unambiguous_of_both (discover_by_name c account (listFolders reply)) ?_ ?_
  · intro path mem
    obtain ⟨l, inside, selectable, rfl⟩ := mem_list_folders.mp mem
    exact preserves.one l inside selectable
  · intro f mem found
    obtain ⟨f', mem', same⟩ := (preserves.kept f mem (names_iff.mpr found)).1
    have eq := discover_same_id (mem_own.mp mem).1 (mem_own.mp mem').1 same.1
    exact eq ▸ mem'

theorem unambiguous_iff {rows : List Folder} :
    Unambiguous Folder.imapPath mailboxOf rows paths ↔ ∀ inbox ∈ paths, IsInbox inbox →
      (∀ path ∈ paths, IsInbox path → path = inbox) ∧
        ∀ f ∈ rows, IsInbox f.imapPath → f.imapPath = inbox := by
  constructor
  · intro clear inbox mem isInbox
    refine ⟨fun path inside also => ?_, fun f row also => ?_⟩
    · exact (clear inbox mem).1 path inside (mailbox_eq.mpr (Or.inr ⟨also, isInbox⟩))
    · exact (clear inbox mem).2 f row (mailbox_eq.mpr (Or.inr ⟨also, isInbox⟩))
  · intro one n mem
    refine ⟨fun path inside same => ?_, fun f row same => ?_⟩
    · rcases mailbox_eq.mp same with eq | ⟨also, isInbox⟩
      · exact eq
      · exact (one n mem isInbox).1 path inside also
    · rcases mailbox_eq.mp same with eq | ⟨also, isInbox⟩
      · exact eq
      · exact (one n mem isInbox).2 f row also

theorem one_spelling_iff : OneInboxSpelling c account (.ok reply) ↔
    ∀ inbox ∈ listFolders reply, IsInbox inbox →
      (∀ path ∈ listFolders reply, IsInbox path → path = inbox) ∧
        ∀ f ∈ ownFolders c account, IsInbox f.imapPath → f.imapPath = inbox := by
  unfold OneInboxSpelling
  constructor
  · intro one inbox mem isInbox
    obtain ⟨l, inside, selectable, rfl⟩ := mem_list_folders.mp mem
    refine ⟨fun path listed also => ?_, (one l inside selectable isInbox).2⟩
    obtain ⟨other, inside', selectable', rfl⟩ := mem_list_folders.mp listed
    exact (one l inside selectable isInbox).1 other inside' selectable' also
  · intro one l inside selectable isInbox
    have listed := one l.path (mem_list_folders.mpr ⟨l, inside, selectable, rfl⟩) isInbox
    refine ⟨fun other inside' selectable' also => ?_, listed.2⟩
    exact listed.1 other.path (mem_list_folders.mpr ⟨other, inside', selectable', rfl⟩) also

/-- Discovery preserves the identity of mailboxes exactly when INBOX occurs in one
    spelling only. -/
theorem discovery_preserves_iff (c : Cache) (account : Nat)
    (reply : Except PyException (List Listed)) :
    Preserved c account reply ↔ OneInboxSpelling c account reply := by
  cases reply with
  | error e => simp [Preserved, discoverFolders, OneInboxSpelling]
  | ok listed =>
    rw [one_spelling_iff]
    refine Iff.trans ?_ unambiguous_iff
    exact ⟨unambiguous_of_preserves, preserves_of_unambiguous⟩

/- An account as `create_account` leaves it, after a message was synchronised. -/
def oldLetter : Message where
  accountId := 1
  folderId := 1
  uid := 1
  uidvalidity := 1
  notificationEligible := false
  messageIdHeader := none
  inReplyTo := none
  references := none
  subject := some "Hello"
  fromName := none
  fromAddr := none
  toAddrs := none
  ccAddrs := none
  dateSent := none
  isSeen := true
  isFlagged := false
  isAnswered := false
  hasAttachments := false
  snippet := none
  sizeBytes := none
  id := 1

/- The created row after the pass that stored the message. -/
def syncedInbox : Folder :=
  { createdInbox 1 1 with historyComplete := true, lastUidvalidity := some 1, lastSeenUid := 1 }

def createdCache : Cache where
  folders := [syncedInbox]
  messages := ⟨[oldLetter], by decide, by decide⟩
  folderKeys := by decide
  folderPaths := by decide

/- The reply of a server that calls its inbox "Inbox". -/
def inboxReply : List Listed := [⟨[], "Inbox"⟩]

/-- The created row goes with its message, and a row without progress takes its place. -/
theorem created_inbox_is_replaced :
    (∀ f ∈ (discoverFolders createdCache 1 (.ok inboxReply)).2.folders, f.id ≠ 1) ∧
      (∃ f ∈ (discoverFolders createdCache 1 (.ok inboxReply)).2.folders,
        f.accountId = 1 ∧ f.imapPath = "Inbox") ∧
      (∀ m ∈ (discoverFolders createdCache 1 (.ok inboxReply)).2.messages.rows, m.folderId ≠ 1) ∧
      ¬ Preserved createdCache 1 (.ok inboxReply) := by
  have own : syncedInbox ∈ ownFolders createdCache 1 := List.mem_singleton_self _
  have listed : listFolders inboxReply = ["Inbox"] := by decide
  have unlisted : syncedInbox.imapPath ∉ listFolders inboxReply := by
    rw [listed]
    decide
  have gone := discover_removes own unlisted
  refine ⟨gone.1, ?_, gone.2, ?_⟩
  · exact (discover_folders createdCache 1 (listFolders inboxReply)).2.2.1 "Inbox" (by simp [listed])
  · intro preserved
    have named : syncedInbox.imapPath = "Inbox" :=
      (unambiguous_iff.mp (unambiguous_of_preserves preserved) "Inbox" (by simp [listed])
        (by decide)).2 _ own (by decide)
    exact absurd named (by decide)

end InboxFolderDiscovery
