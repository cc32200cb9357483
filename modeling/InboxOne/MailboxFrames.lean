import InboxOne.ImapRules

/-!
What a request leaves alone. A message that the server holds is named by its account,
path, UIDVALIDITY and UID. `Kept` compares one mailbox with an earlier state of itself on
the foreign UIDs of that time, whatever has arrived since.
-/
namespace InboxMailboxFrames
open InboxMailbox InboxTables InboxDatabase InboxFolderSync InboxImapClient InboxMessageRoutes
open InboxImapRules

structure RemoteId where
  account : Nat
  path : String
  uidvalidity : Nat
  uid : Nat
  deriving DecidableEq, Repr

/-- The server holds this message, with these flags and this text. -/
def Stored (servers : Servers) (id : RemoteId) (content : Content) : Prop :=
  ∃ mb, (servers id.account).mailbox id.path = some mb ∧ mb.uidvalidity = id.uidvalidity ∧
    ⟨id.uid, content⟩ ∈ mb.messages

/-- Every message that is not `own` is still there, with the same flags. -/
def ChangesAtMost (own : RemoteId → Prop) (before after : Servers) : Prop :=
  ∀ id content, ¬ own id → Stored before id content → Stored after id content

structure Kept (foreign : Nat → Prop) (mb now : Mailbox) : Prop where
  validity : now.uidvalidity = mb.uidvalidity
  next : mb.uidNext ≤ now.uidNext
  same : ∀ r : RemoteMessage, r.uid < mb.uidNext → foreign r.uid →
    (r ∈ now.messages ↔ r ∈ mb.messages)

theorem kept_refl (foreign : Nat → Prop) (mb : Mailbox) : Kept foreign mb mb :=
  ⟨rfl, le_refl _, fun _ _ _ => Iff.rfl⟩

theorem mem_store_flags {f : Flags → Flags} {uids : List Nat} {mb : Mailbox} {r : RemoteMessage} :
    r ∈ (storeFlags f uids mb).messages ↔
      ∃ old ∈ mb.messages, old.withFlags (if old.uid ∈ uids then f old.flags else old.flags) = r :=
  List.mem_map

variable {foreign : Nat → Prop} {mb now : Mailbox}

theorem kept_store {f : Flags → Flags} {uids : List Nat} (kept : Kept foreign mb now)
    (fixed : ∀ r ∈ mb.messages, foreign r.uid → r.uid ∈ uids → f r.flags = r.flags) :
    Kept foreign mb (storeFlags f uids now) := by
  have unchanged : ∀ r : RemoteMessage, r ∈ mb.messages → foreign r.uid →
      r.withFlags (if r.uid ∈ uids then f r.flags else r.flags) = r := by
    intro r mem alien
    split
    · rename_i inside
      rw [fixed r mem alien inside, withFlags_same]
    · exact withFlags_same r
  refine ⟨kept.validity, kept.next, ?_⟩
  intro r old alien
  rw [mem_store_flags]
  constructor
  · intro there
    obtain ⟨r', mem, same⟩ := there
    have sameUid : r'.uid = r.uid := by rw [← same, withFlags_uid]
    have before := (kept.same r' (sameUid ▸ old) (sameUid ▸ alien)).mp mem
    rw [unchanged r' before (sameUid ▸ alien)] at same
    exact same ▸ before
  · intro mem
    exact ⟨r, (kept.same r old alien).mpr mem, unchanged r mem alien⟩

theorem kept_expunged (kept : Kept foreign mb now)
    (plain : ∀ r ∈ mb.messages, foreign r.uid → .deleted ∉ r.flags) :
    Kept foreign mb (expunged now) := by
  refine ⟨kept.validity, kept.next, ?_⟩
  intro r old alien
  rw [← kept.same r old alien]
  constructor
  · intro there
    exact List.mem_of_mem_filter there
  · intro mem
    have stays := plain r ((kept.same r old alien).mp mem) alien
    exact List.mem_filter.mpr ⟨mem, by simpa using stays⟩

theorem kept_arrive {gap : Nat} {content : Content} (kept : Kept foreign mb now) :
    Kept foreign mb (now.arrive gap content) := by
  have later := kept.next
  refine ⟨kept.validity, ?_, ?_⟩
  · show mb.uidNext ≤ now.uidNext + gap + 1
    omega
  · intro r old alien
    rw [← kept.same r old alien]
    constructor
    · intro there
      rcases List.mem_append.mp there with mem | new
      · exact mem
      · have uid : r.uid = now.uidNext + gap := by rw [List.mem_singleton.mp new]
        omega
    · intro mem
      exact List.mem_append_left _ mem

theorem kept_copied {source : Mailbox} {uids : List Nat} (kept : Kept foreign mb now) :
    Kept foreign mb (copied source uids now) := by
  unfold copied
  induction requested source uids generalizing now with
  | nil => exact kept
  | cons m rest ih => exact ih (kept_arrive kept)

/-- Every mailbox of every server is kept, but for the messages that are `own`. -/
def ServersKept (own : RemoteId → Prop) (before now : Servers) : Prop :=
  ∀ account path mb, (before account).mailbox path = some mb →
    ∃ mb', (now account).mailbox path = some mb' ∧
      Kept (fun uid => ¬ own ⟨account, path, mb.uidvalidity, uid⟩) mb mb'

theorem servers_kept_refl (own : RemoteId → Prop) (servers : Servers) :
    ServersKept own servers servers :=
  fun _ _ mb here => ⟨mb, here, kept_refl _ mb⟩

theorem servers_kept_changes {own : RemoteId → Prop} {before now : Servers}
    (kept : ServersKept own before now) : ChangesAtMost own before now := by
  intro id content alien stored
  obtain ⟨mb, here, validity, mem⟩ := stored
  obtain ⟨mb', there, same⟩ := kept id.account id.path mb here
  have uid := (mb.bounded _ mem).2
  have foreign : ¬ own ⟨id.account, id.path, mb.uidvalidity, id.uid⟩ := by
    rw [validity]
    exact alien
  exact ⟨mb', there, same.validity.trans validity, (same.same ⟨id.uid, content⟩ uid foreign).mpr mem⟩

theorem servers_kept_put {own : RemoteId → Prop} {before servers : Servers} {account : Nat}
    {path : String} {cur next : Mailbox} (kept : ServersKept own before servers)
    (here : (servers account).mailbox path = some cur)
    (step : ∀ mb, (before account).mailbox path = some mb →
      Kept (fun uid => ¬ own ⟨account, path, mb.uidvalidity, uid⟩) mb cur →
      Kept (fun uid => ¬ own ⟨account, path, mb.uidvalidity, uid⟩) mb next) :
    ServersKept own before (putMailbox servers account path next) := by
  intro a p mb start
  obtain ⟨mb', there, same⟩ := kept a p mb start
  by_cases place : a = account ∧ p = path
  · obtain ⟨sameAccount, samePath⟩ := place
    subst sameAccount
    subst samePath
    rw [here, Option.some.injEq] at there
    subst there
    exact ⟨next, put_here servers a p next, step mb start same⟩
  · exact ⟨mb', by rw [put_elsewhere servers next place, there], same⟩

/-- The message that a row stands for. -/
def remoteId (db : Database) (m : Message) : RemoteId :=
  ⟨m.accountId, pathOf db m, m.uidvalidity, m.uid⟩

theorem path_of_folder {db : Database} {m : Message} {f : Folder} (found : db.folderOf m = some f) :
    pathOf db m = f.imapPath := by
  rw [pathOf, found]
  rfl

/-- Every message satisfies P, and the mailbox is there. -/
def AllWith (account : Nat) (path : String) (P : RemoteMessage → Prop) (now : Servers) : Prop :=
  ∃ cur, (now account).mailbox path = some cur ∧ ∀ r ∈ cur.messages, P r

theorem all_with_store {now : Servers} {account : Nat} {path : String} {cur : Mailbox}
    {f : Flags → Flags} {uids : List Nat} {P : RemoteMessage → Prop}
    (each : ∀ r ∈ cur.messages, P (r.withFlags (if r.uid ∈ uids then f r.flags else r.flags))) :
    AllWith account path P (putMailbox now account path (storeFlags f uids cur)) := by
  refine ⟨storeFlags f uids cur, put_here _ _ _ _, ?_⟩
  intro r mem
  obtain ⟨old, oldMem, same⟩ := mem_store_flags.mp mem
  exact same ▸ each old oldMem

/-- The message with the UID, if it is still there, is marked as read. -/
def Read (account : Nat) (path : String) (uid : Nat) : Fact := fun now _ =>
  AllWith account path (fun r => r.uid = uid → .seen ∈ r.flags) now

theorem read_stored {account : Nat} {path : String} {uid : Nat} {now : Servers} {session : Database}
    {cur : Mailbox} {uids : List Nat} (inside : uid ∈ uids) :
    Read account path uid
      (putMailbox now account path (storeFlags (fun old => old ∪ {.seen}) uids cur)) session := by
  apply all_with_store
  intro r _ same
  rw [withFlags_uid] at same
  rw [withFlags_flags, if_pos (same ▸ inside)]
  exact Finset.mem_union_right _ (Finset.mem_singleton_self _)

theorem read_put {account : Nat} {path : String} {uid : Nat} {now : Servers} {session : Database}
    {a : Nat} {p : String} {cur : Mailbox} {uids : List Nat}
    (holds : Read account path uid now session) (here : (now a).mailbox p = some cur) :
    Read account path uid
      (putMailbox now a p (storeFlags (fun old => old ∪ {.seen}) uids cur)) session := by
  obtain ⟨cur', there, each⟩ := holds
  by_cases place : account = a ∧ path = p
  · obtain ⟨sameAccount, samePath⟩ := place
    subst sameAccount
    subst samePath
    rw [here, Option.some.injEq] at there
    apply all_with_store
    intro r mem uid
    rw [withFlags_uid] at uid
    rw [withFlags_flags]
    have seen := each r (there ▸ mem) uid
    split
    · exact Finset.mem_union_left _ seen
    · exact seen
  · exact ⟨cur', by rw [put_elsewhere now _ place, there], each⟩

end InboxMailboxFrames
