import Mathlib.Data.List.Nodup
import InboxOne.MailParser

/- The folder and message tables. The primary key and the identity constraint
   uq_message_identity are fields of the message table, so a table that breaks one
   of them cannot be built. -/
namespace InboxTables
open InboxPython InboxMailbox InboxMailParser

structure Folder where
  id : Nat
  accountId : Nat
  imapPath : String
  displayName : Option String
  isInbox : Bool
  historyComplete : Bool
  lastUidvalidity : Option Nat
  lastSeenUid : Nat
  deriving DecidableEq, Repr

/- Everything of a message row except the key that the database assigns. -/
structure NewMessage where
  accountId : Nat
  folderId : Nat
  uid : Nat
  uidvalidity : Nat
  notificationEligible : Bool
  messageIdHeader : Option String
  inReplyTo : Option String
  references : Option String
  subject : Option String
  fromName : Option String
  fromAddr : Option String
  toAddrs : Option String
  ccAddrs : Option String
  dateSent : Option Clock
  isSeen : Bool
  isFlagged : Bool
  isAnswered : Bool
  hasAttachments : Bool
  snippet : Option String
  sizeBytes : Option Nat
  deriving DecidableEq, Repr

structure Message extends NewMessage where
  id : Nat
  deriving DecidableEq, Repr

/- The columns of uq_message_identity. -/
def NewMessage.identity (m : NewMessage) : Nat × Nat × Nat × Nat :=
  (m.accountId, m.folderId, m.uid, m.uidvalidity)

def Message.identity (m : Message) : Nat × Nat × Nat × Nat := m.toNewMessage.identity

def Message.withFlags (m : Message) (flags : Flags) : Message :=
  { m with
    isSeen := decide (.seen ∈ flags)
    isFlagged := decide (.flagged ∈ flags)
    isAnswered := decide (.answered ∈ flags) }

structure MessageTable where
  rows : List Message
  keys : (rows.map Message.id).Nodup
  identities : (rows.map Message.identity).Nodup

def MessageTable.empty : MessageTable := ⟨[], List.nodup_nil, List.nodup_nil⟩

theorem find_by_key {R : Type} {key : R → Nat} {rows : List R} (distinct : (rows.map key).Nodup)
    {r : R} (mem : r ∈ rows) {k : Nat} (same : key r = k) :
    (rows.find? fun x => key x == k) = some r := by
  cases found : rows.find? fun x => key x == k with
  | none =>
    have missing := List.find?_eq_none.mp found r mem
    simp [same] at missing
  | some other =>
    have equal : key other = k := by simpa using List.find?_some found
    rw [List.inj_on_of_nodup_map distinct (List.mem_of_find?_eq_some found) mem
      (equal.trans same.symm)]

/- An INTEGER PRIMARY KEY without AUTOINCREMENT: one more than the largest key. -/
def nextId (rows : List Message) : Nat := (rows.map Message.id).foldr max 0 + 1

theorem le_largest {ids : List Nat} {i : Nat} (mem : i ∈ ids) : i ≤ ids.foldr max 0 := by
  induction ids with
  | nil => simp at mem
  | cons j rest ih =>
    rw [List.foldr_cons]
    rcases List.mem_cons.mp mem with eq | mem
    · omega
    · have := ih mem
      omega

theorem after_largest_fresh (ids : List Nat) : ids.foldr max 0 + 1 ∉ ids :=
  fun mem => Nat.not_succ_le_self _ (le_largest mem)

theorem nextId_fresh (rows : List Message) : nextId rows ∉ rows.map Message.id :=
  after_largest_fresh _

def MessageTable.insert (table : MessageTable) (m : NewMessage) :
    Except PyException MessageTable :=
  if fresh : m.identity ∉ table.rows.map Message.identity then
    .ok {
      rows := table.rows ++ [⟨m, nextId table.rows⟩]
      keys := by
        rw [List.map_append, List.map_singleton]
        exact table.keys.append (List.nodup_singleton _)
          (List.disjoint_singleton.mpr (nextId_fresh table.rows))
      identities := by
        rw [List.map_append, List.map_singleton]
        exact table.identities.append (List.nodup_singleton _)
          (List.disjoint_singleton.mpr fresh) }
  else .error .integrityError

theorem filterMap_keeps_column {β : Type} {f : Message → Option Message} {column : Message → β}
    (keeps : ∀ m m', f m = some m' → column m' = column m) (rows : List Message) :
    ((rows.filterMap f).map column).Sublist (rows.map column) := by
  induction rows with
  | nil => exact List.Sublist.refl _
  | cons m rest ih =>
    cases eq : f m with
    | none => simpa [List.filterMap_cons, eq] using ih.cons _
    | some m' => simpa [List.filterMap_cons, eq, keeps m m' eq] using ih

/- Each row is deleted or rewritten in its other columns. -/
def MessageTable.rewrite (table : MessageTable) (f : Message → Option Message)
    (keeps : ∀ m m', f m = some m' → m'.id = m.id ∧ m'.identity = m.identity) :
    MessageTable where
  rows := table.rows.filterMap f
  keys := table.keys.sublist
    (filterMap_keeps_column (fun m m' eq => (keeps m m' eq).1) table.rows)
  identities := table.identities.sublist
    (filterMap_keeps_column (fun m m' eq => (keeps m m' eq).2) table.rows)

def MessageTable.deleteWhere (table : MessageTable) (p : Message → Bool) : MessageTable :=
  table.rewrite (fun m => if p m then none else some m) (by
    intro m m' eq
    split at eq
    · contradiction
    · rw [Option.some.injEq] at eq
      exact eq ▸ ⟨rfl, rfl⟩)

theorem mem_deleteWhere {table : MessageTable} {p : Message → Bool} {m : Message} :
    m ∈ (table.deleteWhere p).rows ↔ m ∈ table.rows ∧ p m = false := by
  simp only [MessageTable.deleteWhere, MessageTable.rewrite, List.mem_filterMap]
  constructor
  · rintro ⟨m', mem, eq⟩
    split at eq
    · contradiction
    · rename_i keep
      rw [Option.some.injEq] at eq
      exact eq ▸ ⟨mem, by simpa using keep⟩
  · rintro ⟨mem, keep⟩
    exact ⟨m, mem, by simp [keep]⟩

theorem insert_ok {table table' : MessageTable} {m : NewMessage}
    (ok : table.insert m = .ok table') :
    table'.rows = table.rows ++ [⟨m, nextId table.rows⟩] := by
  rw [MessageTable.insert] at ok
  split at ok
  · rw [Except.ok.injEq] at ok
    exact ok ▸ rfl
  · contradiction

theorem id_determines {table : MessageTable} {a b : Message} (ha : a ∈ table.rows)
    (hb : b ∈ table.rows) (same : a.id = b.id) : a = b :=
  List.inj_on_of_nodup_map table.keys ha hb same

theorem identity_determines {table : MessageTable} {a b : Message} (ha : a ∈ table.rows)
    (hb : b ∈ table.rows) (same : a.identity = b.identity) : a = b :=
  List.inj_on_of_nodup_map table.identities ha hb same

end InboxTables
