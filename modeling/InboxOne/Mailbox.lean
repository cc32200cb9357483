import Mathlib.Data.Finset.Basic
import Mathlib.Data.List.Nodup
import InboxOne.PythonValues

/- One mailbox of the IMAP server. The invariants of the protocol that the code
   relies on are fields: UIDs are positive, ascending and below UIDNEXT. -/
namespace InboxMailbox
open InboxPython

abbrev Bytes := List UInt8

inductive Flag where
  | seen
  | answered
  | flagged
  | deleted
  | keyword (name : String)
  deriving DecidableEq, Repr

abbrev Flags := Finset Flag

structure Content where
  flags : Flags
  internaldate : Option Datetime
  size : Option Nat
  header : Bytes
  body : Bytes
  deriving DecidableEq

structure RemoteMessage where
  uid : Nat
  content : Content
  deriving DecidableEq

def RemoteMessage.flags (m : RemoteMessage) : Flags := m.content.flags

def RemoteMessage.withFlags (m : RemoteMessage) (flags : Flags) : RemoteMessage :=
  { m with content := { m.content with flags := flags } }

@[simp] theorem withFlags_uid (m : RemoteMessage) (flags : Flags) :
    (m.withFlags flags).uid = m.uid := rfl

@[simp] theorem withFlags_flags (m : RemoteMessage) (flags : Flags) :
    (m.withFlags flags).flags = flags := rfl

@[simp] theorem withFlags_same (m : RemoteMessage) : m.withFlags m.flags = m := rfl

structure Mailbox where
  uidvalidity : Nat
  uidNext : Nat
  messages : List RemoteMessage
  ordered : messages.Pairwise fun a b => a.uid < b.uid
  bounded : ∀ m ∈ messages, 0 < m.uid ∧ m.uid < uidNext
  started : 0 < uidNext

def Mailbox.find (mb : Mailbox) (uid : Nat) : Option RemoteMessage :=
  mb.messages.find? fun m => m.uid = uid

def Mailbox.Has (mb : Mailbox) (uid : Nat) : Prop := ∃ m ∈ mb.messages, m.uid = uid

instance (mb : Mailbox) (uid : Nat) : Decidable (mb.Has uid) :=
  inferInstanceAs (Decidable (∃ m ∈ mb.messages, m.uid = uid))

/- A new message takes any UID from UIDNEXT on; gap is the number of UIDs skipped. -/
def Mailbox.arrive (mb : Mailbox) (gap : Nat) (content : Content) : Mailbox where
  uidvalidity := mb.uidvalidity
  uidNext := mb.uidNext + gap + 1
  messages := mb.messages ++ [⟨mb.uidNext + gap, content⟩]
  ordered := by
    simp only [List.pairwise_append, List.pairwise_singleton, List.mem_singleton]
    refine ⟨mb.ordered, trivial, ?_⟩
    rintro a ha b rfl
    have := (mb.bounded a ha).2
    simp only
    omega
  bounded := by
    intro m mem
    rcases List.mem_append.mp mem with old | new
    · have := mb.bounded m old
      omega
    · have := mb.started
      rw [List.mem_singleton.mp new]
      simp only
      omega
  started := Nat.succ_pos _

/- EXPUNGE of the messages that satisfy p. -/
def Mailbox.remove (mb : Mailbox) (p : RemoteMessage → Bool) : Mailbox where
  uidvalidity := mb.uidvalidity
  uidNext := mb.uidNext
  messages := mb.messages.filter fun m => !p m
  ordered := mb.ordered.filter _
  bounded := fun m mem => mb.bounded m (List.mem_of_mem_filter mem)
  started := mb.started

/- STORE: every message gets the flags that f gives it. -/
def Mailbox.store (mb : Mailbox) (f : RemoteMessage → Flags) : Mailbox where
  uidvalidity := mb.uidvalidity
  uidNext := mb.uidNext
  messages := mb.messages.map fun m => m.withFlags (f m)
  ordered := by
    rw [List.pairwise_map]
    exact mb.ordered
  bounded := by
    intro m mem
    obtain ⟨m', old, rfl⟩ := List.mem_map.mp mem
    exact mb.bounded m' old
  started := mb.started

theorem uids_nodup (mb : Mailbox) : (mb.messages.map RemoteMessage.uid).Nodup := by
  rw [List.Nodup, List.pairwise_map]
  exact mb.ordered.imp fun lt => Nat.ne_of_lt lt

theorem uid_determines {mb : Mailbox} {a b : RemoteMessage} (ha : a ∈ mb.messages)
    (hb : b ∈ mb.messages) (same : a.uid = b.uid) : a = b :=
  List.inj_on_of_nodup_map (uids_nodup mb) ha hb same

theorem find_eq_some_iff {mb : Mailbox} {uid : Nat} {m : RemoteMessage} :
    mb.find uid = some m ↔ m ∈ mb.messages ∧ m.uid = uid := by
  constructor
  · intro found
    exact ⟨List.mem_of_find?_eq_some found, by simpa using List.find?_some found⟩
  · rintro ⟨mem, rfl⟩
    cases found : mb.find m.uid with
    | none =>
      have missing := List.find?_eq_none.mp found m mem
      simp at missing
    | some other =>
      have same : other.uid = m.uid := by simpa using List.find?_some found
      rw [uid_determines (List.mem_of_find?_eq_some found) mem same]

theorem has_iff_find {mb : Mailbox} {uid : Nat} : mb.Has uid ↔ ∃ m, mb.find uid = some m := by
  simp only [Mailbox.Has, find_eq_some_iff]

theorem arrive_has {mb : Mailbox} {gap uid : Nat} {content : Content} :
    (mb.arrive gap content).Has uid ↔ mb.Has uid ∨ uid = mb.uidNext + gap := by
  simp [Mailbox.Has, Mailbox.arrive, or_and_right, exists_or, eq_comm]

theorem remove_has {mb : Mailbox} {p : RemoteMessage → Bool} {uid : Nat}
    (has : (mb.remove p).Has uid) : mb.Has uid := by
  obtain ⟨m, mem, eq⟩ := has
  exact ⟨m, List.mem_of_mem_filter mem, eq⟩

theorem store_has {mb : Mailbox} {f : RemoteMessage → Flags} {uid : Nat} :
    (mb.store f).Has uid ↔ mb.Has uid := by
  simp [Mailbox.Has, Mailbox.store]

theorem has_below_next {mb : Mailbox} {uid : Nat} (has : mb.Has uid) :
    0 < uid ∧ uid < mb.uidNext := by
  obtain ⟨m, mem, rfl⟩ := has
  exact mb.bounded m mem

end InboxMailbox
