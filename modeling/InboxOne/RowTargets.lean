import Mathlib.Data.List.TakeWhile
import InboxOne.MailboxFrames
import InboxOne.RouteRules

/-!
Which messages a write reaches on the server. Only reading compares UIDVALIDITY; the
writes name a message by its UID alone, and EXPUNGE by no name at all.
-/
namespace InboxRowTargets
open FaultyCalls InboxPython InboxMailbox InboxTables InboxDatabase InboxFolderSync InboxImapClient
open InboxMessageRoutes InboxImapRules InboxMailboxFrames InboxRouteRules

inductive WriteOp where
  | updateFlags (messageId : Nat) (payload : FlagsUpdate)
  | deleteMessage (messageId : Nat)
  | markAllRead (accountId folderId : Option Nat)

/-- The rows that the request is about. -/
def WriteOp.rows (db : Database) : WriteOp → List Message
  | .updateFlags messageId _ => (db.messageById messageId).toList
  | .deleteMessage messageId => (db.messageById messageId).toList
  | .markAllRead accountId folderId => unreadRows db accountId folderId

def WriteOp.Own (db : Database) (op : WriteOp) (id : RemoteId) : Prop :=
  ∃ m ∈ op.rows db, id = remoteId db m

def WriteOp.program (env : Environment) : WriteOp → Action Unit
  | .updateFlags messageId payload => InboxMessageRoutes.updateFlags env messageId payload
  | .deleteMessage messageId => InboxMessageRoutes.deleteMessage env messageId
  | .markAllRead accountId folderId => do
      let _ ← InboxMessageRoutes.markAllRead env accountId folderId
      pure ()

/-- The servers once the request has ended, whatever its calls came to. -/
def WriteOp.serversAfter (env : Environment) (db : Database) (servers : Servers)
    (outcomes : List Outcome) (op : WriteOp) : Servers :=
  (op.program env ⟨begin db servers, outcomes⟩).2.state.servers

/-- The message has the flags that the payload asks for. -/
def Agrees (payload : FlagsUpdate) (flags : Flags) : Prop :=
  (∀ on, payload.seen = some on → (.seen ∈ flags ↔ on = true)) ∧
    ∀ on, payload.flagged = some on → (.flagged ∈ flags ↔ on = true)

/-- The folders of an account that mark_all_read gets to. -/
def reached (servers : Servers) (account : Nat) (groups : List (String × List Message)) :
    List (String × List Message) :=
  groups.takeWhile fun h => ((servers account).mailbox h.1).isSome

/- When a write changes no message but its own: update_flags needs the UIDVALIDITY of
   the row or flags that are set already; delete_message needs every message with the
   UID or the \Deleted flag to be the row's; mark_all_read needs a selected row for
   every unread message with a selected UID. -/
def WriteOp.Safe (env : Environment) (db : Database) (servers : Servers) : WriteOp → Prop
  | .updateFlags messageId payload =>
      ∀ m, db.messageById messageId = some m →
        ∀ mb, (servers m.accountId).mailbox (pathOf db m) = some mb →
          mb.uidvalidity = m.uidvalidity ∨
            ∀ r ∈ mb.messages, r.uid = m.uid → Agrees payload r.flags
  | .deleteMessage messageId =>
      ∀ m, db.messageById messageId = some m →
        ∀ trash mb into, env.special .trash = some trash → pathOf db m ≠ trash →
          (servers m.accountId).mailbox (pathOf db m) = some mb →
          (servers m.accountId).mailbox trash = some into →
          ∀ r ∈ mb.messages, (r.uid = m.uid ∨ .deleted ∈ r.flags) →
            mb.uidvalidity = m.uidvalidity ∧ r.uid = m.uid
  | .markAllRead accountId folderId =>
      ∀ g ∈ groupBy (fun m => m.accountId) (unreadRows db accountId folderId),
        ∀ h ∈ reached servers g.1 (groupBy (pathOf db) g.2),
          ∀ mb, (servers g.1).mailbox h.1 = some mb →
            ∀ m ∈ h.2, ∀ r ∈ mb.messages, r.uid = m.uid → .seen ∉ r.flags →
              ∃ own ∈ h.2, own.uidvalidity = mb.uidvalidity ∧ own.uid = r.uid

theorem begin_sees {db : Database} {servers : Servers} {quiet : Bool} {outcomes : List Outcome}
    {I : Servers → Prop} (start : I servers)
    (still : quiet = true → ∀ o ∈ outcomes, o = .done) :
    When quiet (Holds (Sees db I)) ⟨begin db servers, outcomes⟩ :=
  ⟨still, rfl, start⟩

/- What holds of the servers after every run of a program. -/
theorem after_any {A : Type} {program : Action A} {c : Config Request} {P : Config Request → Prop}
    {I : Servers → Prop} (meets : Meets P program (fun _ => When false fun s => I s.servers)
      (When false (Holds (Ofs I)))) (start : P c) : I (program c).2.state.servers := by
  have here := meets c start
  cases eq : program c with
  | mk r c' =>
    rw [eq] at here
    cases r with
    | ok a => exact here.2
    | error e => exact here.2

/- What holds of the servers after a run in which nothing fails. -/
theorem after_quiet {A : Type} {program : Action A} {c : Config Request} {P : Config Request → Prop}
    {I : Servers → Prop} (meets : Meets P program (fun _ => When true fun s => I s.servers)
      (When true (Holds (Ofs fun _ => False)))) (start : P c) : I (program c).2.state.servers := by
  have here := meets c start
  cases eq : program c with
  | mk r c' =>
    rw [eq] at here
    cases r with
    | ok a => exact here.2
    | error e => exact here.2.elim

section Frame
variable {own : RemoteId → Prop} {before : Servers} {account : Nat} {path : String}

theorem stepped_store {f : Flags → Flags} {uids : List Nat}
    (fixed : ∀ mb, (before account).mailbox path = some mb → ∀ r ∈ mb.messages,
      ¬ own ⟨account, path, mb.uidvalidity, r.uid⟩ → r.uid ∈ uids → f r.flags = r.flags) :
    Stepped (ServersKept own before) (ServersKept own before) account path (storeFlags f uids) := by
  intro servers cur kept here
  apply servers_kept_put kept here
  intro mb start same
  exact kept_store same (fixed mb start)

theorem stepped_expunge
    (plain : ∀ mb, (before account).mailbox path = some mb → ∀ r ∈ mb.messages,
      ¬ own ⟨account, path, mb.uidvalidity, r.uid⟩ → .deleted ∉ r.flags) :
    Stepped (ServersKept own before) (ServersKept own before) account path expunged := by
  intro servers cur kept here
  apply servers_kept_put kept here
  intro mb start same
  exact kept_expunged same (plain mb start)

end Frame

/- A flag that is as the payload wants it stays so. -/
theorem set_flag_fixed {flag : Flag} {value : Option Bool} {flags : Flags}
    (agrees : ∀ on, value = some on → (flag ∈ flags ↔ on = true)) : setFlag flag value flags = flags := by
  cases value with
  | none => rfl
  | some on =>
    have wanted := agrees on rfl
    cases on with
    | true => exact Finset.union_eq_left.mpr (Finset.singleton_subset_iff.mpr (wanted.mpr rfl))
    | false =>
      have absent : flag ∉ flags := fun inside => Bool.false_ne_true (wanted.mp inside)
      exact Finset.sdiff_eq_self_of_disjoint (Finset.disjoint_singleton_right.mpr absent)

/- An endpoint that does not find its row does nothing. -/
theorem missing_row_stops {db : Database} {own : RemoteId → Prop} {servers : Servers}
    {messageId : Nat} (row : db.messageById messageId = none)
    {rest : Message × Account × Folder → Action Unit} :
    Meets (When false (Holds (Sees db (ServersKept own servers)))) (loadMessage messageId >>= rest)
      (fun _ => When false fun s => ServersKept own servers s.servers)
      (When false (Holds (Ofs (ServersKept own servers)))) :=
  meets_bind (meets_load_missing (Q := fun _ _ => False) row) fun _ _ impossible => impossible.elim

theorem update_flags_safe {env : Environment} {db : Database} {servers : Servers} {messageId : Nat}
    {payload : FlagsUpdate} (safe : (WriteOp.updateFlags messageId payload).Safe env db servers)
    (outcomes : List Outcome) :
    ServersKept ((WriteOp.updateFlags messageId payload).Own db) servers
      ((WriteOp.updateFlags messageId payload).serversAfter env db servers outcomes) := by
  generalize same : (WriteOp.updateFlags messageId payload).Own db = own
  have start : When false (Holds (Sees db (ServersKept own servers))) ⟨begin db servers, outcomes⟩ :=
    begin_sees (servers_kept_refl own servers) nofun
  cases row : db.messageById messageId with
  | none =>
    exact after_any (missing_row_stops row) start
  | some m =>
    obtain ⟨folder, _, home, _⟩ := message_home db (message_by_id_eq.mp row).1
    have there : pathOf db m = folder.imapPath := path_of_folder home
    have fixed : ∀ mb, (servers m.accountId).mailbox folder.imapPath = some mb → ∀ r ∈ mb.messages,
        ¬ own ⟨m.accountId, folder.imapPath, mb.uidvalidity, r.uid⟩ → r.uid ∈ [m.uid] →
        Agrees payload r.flags := by
      intro mb found r mem alien uid
      rw [List.mem_singleton] at uid
      rcases safe m row mb (there ▸ found) with validity | agrees
      · rw [← same] at alien
        refine absurd ⟨m, ?_, ?_⟩ alien
        · simp [WriteOp.rows, row]
        · rw [remoteId, there, validity, uid]
      · exact agrees r mem uid
    have kept : Meets (When false (Holds (Sees db (ServersKept own servers))))
        (updateFlags env messageId payload) (fun _ => When false fun s => ServersKept own servers s.servers)
        (When false (Holds (Ofs (ServersKept own servers)))) := by
      apply meets_post (meets_update_flags env false (J := ServersKept own servers)
        (L := ServersKept own servers) (F := ServersKept own servers) row home (fun _ _ holds => holds)
        (stepped_store fun mb found r mem alien uid =>
          set_flag_fixed (fixed mb found r mem alien uid).1)
        (fun _ _ holds => holds)
        (stepped_store fun mb found r mem alien uid =>
          set_flag_fixed (fixed mb found r mem alien uid).2)
        (fun _ holds _ => holds) (fun _ holds _ => holds)
        fun _ => ⟨fun _ holds => holds, fun _ holds => holds, fun _ holds => holds⟩)
      exact fun _ c holds => ⟨holds.1, holds.2.2⟩
    exact after_any kept start

theorem delete_message_safe {env : Environment} {db : Database} {servers : Servers} {messageId : Nat}
    (safe : (WriteOp.deleteMessage messageId).Safe env db servers) (outcomes : List Outcome) :
    ServersKept ((WriteOp.deleteMessage messageId).Own db) servers
      ((WriteOp.deleteMessage messageId).serversAfter env db servers outcomes) := by
  generalize same : (WriteOp.deleteMessage messageId).Own db = own
  have start : When false (Holds (Sees db (ServersKept own servers))) ⟨begin db servers, outcomes⟩ :=
    begin_sees (servers_kept_refl own servers) nofun
  cases row : db.messageById messageId with
  | none =>
    exact after_any (missing_row_stops row) start
  | some m =>
    obtain ⟨folder, _, home, _⟩ := message_home db (message_by_id_eq.mp row).1
    have there : pathOf db m = folder.imapPath := path_of_folder home
    by_cases refused : ∀ trash, env.special .trash = some trash → folder.imapPath = trash
    · have stops := meets_delete_refused env false (I := ServersKept own servers) row
        home refused
      apply after_any (P := When false (Holds (Sees db (ServersKept own servers)))) _ start
      apply meets_post stops
      exact fun _ c impossible => impossible.elim
    · push Not at refused
      obtain ⟨trash, special, apart⟩ := refused
      let Both : Prop := (∃ mb, (servers m.accountId).mailbox folder.imapPath = some mb) ∧
        ∃ into, (servers m.accountId).mailbox trash = some into
      have own_message : Both → ∀ mb, (servers m.accountId).mailbox folder.imapPath = some mb →
          ∀ r ∈ mb.messages, (r.uid = m.uid ∨ .deleted ∈ r.flags) →
          own ⟨m.accountId, folder.imapPath, mb.uidvalidity, r.uid⟩ := by
        intro both mb found r mem touched
        obtain ⟨_, into, target⟩ := both
        obtain ⟨validity, uid⟩ := safe m row trash mb into special (there ▸ apart) (there ▸ found)
          target r mem touched
        rw [← same]
        refine ⟨m, ?_, ?_⟩
        · simp [WriteOp.rows, row]
        · rw [remoteId, there, validity, uid]
      let Going : Servers → Prop := fun now => ServersKept own servers now ∧ Both
      have marks : Stepped Going Going m.accountId folder.imapPath
          (storeFlags (fun old => old ∪ {.deleted}) [m.uid]) := by
        intro now cur holds found
        refine ⟨?_, holds.2⟩
        apply stepped_store _ now cur holds.1 found
        intro mb before r mem alien uid
        exact absurd (own_message holds.2 mb before r mem (.inl (List.mem_singleton.mp uid))) alien
      have expunges : Stepped Going Going m.accountId folder.imapPath expunged := by
        intro now cur holds found
        refine ⟨?_, holds.2⟩
        apply stepped_expunge _ now cur holds.1 found
        intro mb before r mem alien deleted
        exact alien (own_message holds.2 mb before r mem (.inr deleted))
      have kept := meets_delete_message env false (I := fun now => now = servers)
        (J := Going) (L := Going) (N := Going) (F := ServersKept own servers) row home special apart
        (by
          intro now mb into unchanged here target
          subst unchanged
          refine ⟨?_, ⟨mb, here⟩, ⟨into, target⟩⟩
          apply servers_kept_put (servers_kept_refl own now) target
          exact fun _ _ kept => kept_copied kept)
        marks expunges
        (fun now unchanged _ => unchanged ▸ servers_kept_refl own servers)
        (fun _ holds _ => holds.1) (fun _ holds _ => holds.1)
        fun _ => ⟨fun now unchanged => unchanged ▸ servers_kept_refl own servers,
          fun _ holds => holds.1, fun _ holds => holds.1, fun _ holds => holds.1⟩
      apply after_any (P := When false (Holds (Sees db fun now => now = servers))) _
        (begin_sees rfl nofun)
      apply meets_post kept
      exact fun _ c holds => ⟨holds.1, holds.2.2.1⟩

section MarkAll
variable {env : Environment} {db : Database} {servers : Servers} {accountId folderId : Option Nat}

/- Marking adds \Seen, to messages that have it or are a row's own. -/
def Marking (own : RemoteId → Prop) (db : Database) (before : Servers) : Fact := fun now session =>
  ServersKept own before now ∧ Familiar db session ∧
    ∀ a p, ((now a).mailbox p).isSome = ((before a).mailbox p).isSome

theorem put_present {now : Servers} {a : Nat} {p : String} {cur next : Mailbox}
    (here : (now a).mailbox p = some cur) (a' : Nat) (p' : String) :
    ((putMailbox now a p next a').mailbox p').isSome = ((now a').mailbox p').isSome := by
  by_cases place : a' = a ∧ p' = p
  · obtain ⟨sameAccount, samePath⟩ := place
    rw [sameAccount, samePath, put_here, here]
    rfl
  · rw [put_elsewhere now next place]

theorem mark_all_read_safe (safe : (WriteOp.markAllRead accountId folderId).Safe env db servers)
    (outcomes : List Outcome) :
    ServersKept ((WriteOp.markAllRead accountId folderId).Own db) servers
      ((WriteOp.markAllRead accountId folderId).serversAfter env db servers outcomes) := by
  generalize same : (WriteOp.markAllRead accountId folderId).Own db = own
  have accounts : ∀ g ∈ groupBy (fun m => m.accountId) (unreadRows db accountId folderId),
      Meets (When false (Holds (Marking own db servers))) (markAccount env g)
        (fun _ => When false (Holds (Marking own db servers)))
        (When false (Holds (Marking own db servers))) := by
    intro g mem
    obtain ⟨owner, known⟩ := group_account mem
    apply meets_mark_account_when env (J := Marking own db servers)
      (fun _ _ holds => holds.2.1) known _ (fun _ _ _ holds => holds) fun _ _ _ holds => holds
    apply meets_mark_folders (fun p => ((servers g.1).mailbox p).isSome)
      (fun now _ holds p => holds.2.2 g.1 p) _ (fun h hMem => folder_nonempty hMem)
    · intro h hMem uids batch now session cur holds here
      have inFolder := (List.takeWhile_prefix _).subset hMem
      refine ⟨?_, holds.2.1, fun a p => (put_present here a p).trans (holds.2.2 a p)⟩
      apply stepped_store _ now cur holds.1 here
      intro mb before r rMem alien inBatch
      have inRows := mem_batches.mpr ⟨uids, batch, inBatch⟩
      obtain ⟨m, mMem, sameUid⟩ := List.mem_map.mp inRows
      by_cases seen : .seen ∈ r.flags
      · exact Finset.union_eq_left.mpr (Finset.singleton_subset_iff.mpr seen)
      · obtain ⟨row, rowMem, validity, uid⟩ := safe g mem h hMem mb before m mMem r rMem
          sameUid.symm seen
        obtain ⟨inGroup, path⟩ := folder_member inFolder rowMem
        obtain ⟨selected, account⟩ := group_member mem inGroup
        rw [← same] at alien
        refine absurd ⟨row, selected, ?_⟩ alien
        rw [remoteId, account, path, validity, uid]
    · exact fun h _ now session holds => ⟨holds.1, holds.2.1, holds.2.2⟩
  have whole : Meets (fun c => c.state.session = db ∧ When false (Holds (Marking own db servers)) c)
      ((WriteOp.markAllRead accountId folderId).program env)
      (fun _ => When false fun s => ServersKept own servers s.servers)
      (When false (Holds (Ofs (ServersKept own servers)))) := by
    apply meets_discard
    apply meets_weaken (meets_mark_all_read_when env (meets_mark_accounts env accounts))
    · exact fun c holds => holds
    · exact fun _ c holds => ⟨holds.1, holds.2.2.1⟩
    · exact fun c holds => ⟨holds.1, holds.2.1⟩
  exact after_any whole ⟨rfl, nofun, servers_kept_refl own servers, ⟨rfl, rfl⟩, fun _ _ => rfl⟩

end MarkAll

/- A message that was stored and does not satisfy what all now satisfy has changed. -/
theorem changed_of_all_with {own : RemoteId → Prop} {before after : Servers} {account : Nat}
    {path : String} {P : RemoteMessage → Prop} {mb : Mailbox} {r : RemoteMessage}
    (found : (before account).mailbox path = some mb) (mem : r ∈ mb.messages)
    (alien : ¬ own ⟨account, path, mb.uidvalidity, r.uid⟩) (all : AllWith account path P after)
    (fails : ¬ P r) : ¬ ChangesAtMost own before after := by
  intro changes
  obtain ⟨cur, now, _, there⟩ := changes ⟨account, path, mb.uidvalidity, r.uid⟩ r.content alien
    ⟨mb, found, rfl, mem⟩
  obtain ⟨cur', here, each⟩ := all
  rw [here, Option.some.injEq] at now
  exact fails (each r (now ▸ there))

def payloadValue (payload : FlagsUpdate) : Flag → Option Bool
  | .seen => payload.seen
  | .flagged => payload.flagged
  | _ => none

/- Undisturbed, update_flags sets each flag of its payload on every message with the UID. -/
theorem update_flags_sets {env : Environment} {db : Database} {servers : Servers} {messageId : Nat}
    {payload : FlagsUpdate} {m : Message} (row : db.messageById messageId = some m) {mb : Mailbox}
    (found : (servers m.accountId).mailbox (pathOf db m) = some mb) {flag : Flag} {on : Bool}
    (value : payloadValue payload flag = some on) :
    AllWith m.accountId (pathOf db m) (fun r => r.uid = m.uid → (flag ∈ r.flags ↔ on = true))
      ((WriteOp.updateFlags messageId payload).serversAfter env db servers []) := by
  obtain ⟨folder, _, home, _⟩ := message_home db (message_by_id_eq.mp row).1
  have there : pathOf db m = folder.imapPath := path_of_folder home
  rw [there] at found ⊢
  let Here : Servers → Prop := AllWith m.accountId folder.imapPath fun _ => True
  let Set : Servers → Prop := AllWith m.accountId folder.imapPath
    fun r => r.uid = m.uid → (flag ∈ r.flags ↔ on = true)
  let Half : Servers → Prop := fun now => Here now ∧ (flag = .seen → Set now)
  have seen : Stepped Here Half m.accountId folder.imapPath
      (storeFlags (setFlag .seen payload.seen) [m.uid]) := by
    intro now cur _ _
    refine ⟨all_with_store fun _ _ => trivial, ?_⟩
    intro same
    subst same
    apply all_with_store
    intro r _ uid
    rw [withFlags_uid] at uid
    rw [withFlags_flags, if_pos (List.mem_singleton.mpr uid), show payload.seen = some on from value]
    exact mem_set_flag .seen on r.flags
  have flagged : Stepped Half Set m.accountId folder.imapPath
      (storeFlags (setFlag .flagged payload.flagged) [m.uid]) := by
    intro now cur holds here
    apply all_with_store
    intro r mem uid
    rw [withFlags_uid] at uid
    rw [withFlags_flags, if_pos (List.mem_singleton.mpr uid)]
    cases flag with
    | seen =>
      obtain ⟨cur', there, each⟩ := holds.2 rfl
      rw [here, Option.some.injEq] at there
      rw [mem_set_other (by decide)]
      exact each r (there ▸ mem) uid
    | flagged =>
      rw [show payload.flagged = some on from value]
      exact mem_set_flag .flagged on r.flags
    | answered => contradiction
    | deleted => contradiction
    | keyword name => contradiction
  have skipped : payload.flagged = none → ∀ now, Half now → Set now := by
    intro absent now holds
    cases flag with
    | seen => exact holds.2 rfl
    | flagged =>
      rw [show payload.flagged = some on from value] at absent
      contradiction
    | answered => contradiction
    | deleted => contradiction
    | keyword name => contradiction
  have seenSkipped : payload.seen = none → ∀ now, Here now → Half now := by
    intro absent now holds
    refine ⟨holds, ?_⟩
    intro same
    subst same
    rw [show payload.seen = some on from value] at absent
    contradiction
  have here : ∀ now, Here now → (now m.accountId).mailbox folder.imapPath ≠ none := by
    intro now holds none
    obtain ⟨cur, there, _⟩ := holds
    rw [none] at there
    contradiction
  have quiet := meets_update_flags env true (I := Here) (J := Half) (L := Set)
    (F := fun _ => False) row home seenSkipped seen skipped flagged
    (fun now holds none => here now holds none) (fun now holds none => here now holds.1 none) nofun
  apply after_quiet (P := When true (Holds (Sees db Here))) _
    (begin_sees ⟨mb, found, fun _ _ => trivial⟩ fun _ => List.forall_mem_nil _)
  apply meets_post quiet
  exact fun _ c holds => ⟨holds.1, holds.2.2⟩

theorem update_flags_unsafe {env : Environment} {db : Database} {servers : Servers} {messageId : Nat}
    {payload : FlagsUpdate} (safeless : ¬ (WriteOp.updateFlags messageId payload).Safe env db servers) :
    ¬ ChangesAtMost ((WriteOp.updateFlags messageId payload).Own db) servers
      ((WriteOp.updateFlags messageId payload).serversAfter env db servers []) := by
  simp only [WriteOp.Safe, not_forall, not_or] at safeless
  obtain ⟨m, row, mb, found, validity, r, mem, uid, disagrees⟩ := safeless
  have alien : ¬ (WriteOp.updateFlags messageId payload).Own db
      ⟨m.accountId, pathOf db m, mb.uidvalidity, r.uid⟩ := by
    intro ours
    obtain ⟨m', rowMem, same⟩ := ours
    have sameRow : m' = m := by simpa [WriteOp.rows, row] using rowMem
    rw [sameRow, remoteId, RemoteId.mk.injEq] at same
    exact validity same.2.2.1
  have wanted : ∃ flag on, payloadValue payload flag = some on ∧ ¬ (flag ∈ r.flags ↔ on = true) := by
    by_contra none
    push Not at none
    exact disagrees ⟨fun on value => none .seen on value, fun on value => none .flagged on value⟩
  obtain ⟨flag, on, value, differs⟩ := wanted
  exact changed_of_all_with found mem alien (update_flags_sets row found value)
    fun all => differs (all uid)

/- Undisturbed, delete_message leaves neither the UID nor a message flagged \\Deleted. -/
theorem delete_message_clears {env : Environment} {db : Database} {servers : Servers}
    {messageId : Nat} {m : Message} (row : db.messageById messageId = some m) {trash : String}
    {mb into : Mailbox} (special : env.special .trash = some trash) (apart : pathOf db m ≠ trash)
    (found : (servers m.accountId).mailbox (pathOf db m) = some mb)
    (target : (servers m.accountId).mailbox trash = some into) :
    AllWith m.accountId (pathOf db m) (fun r => r.uid ≠ m.uid ∧ .deleted ∉ r.flags)
      ((WriteOp.deleteMessage messageId).serversAfter env db servers []) := by
  obtain ⟨folder, _, home, _⟩ := message_home db (message_by_id_eq.mp row).1
  have there : pathOf db m = folder.imapPath := path_of_folder home
  rw [there] at found apart ⊢
  let Here : Servers → Prop := AllWith m.accountId folder.imapPath fun _ => True
  let Both : Servers → Prop := fun now => Here now ∧ (now m.accountId).mailbox trash ≠ none
  let Marked : Servers → Prop := AllWith m.accountId folder.imapPath
    fun r => r.uid = m.uid → .deleted ∈ r.flags
  let Gone : Servers → Prop := AllWith m.accountId folder.imapPath
    fun r => r.uid ≠ m.uid ∧ .deleted ∉ r.flags
  have present : ∀ {P : RemoteMessage → Prop} now, AllWith m.accountId folder.imapPath P now →
      (now m.accountId).mailbox folder.imapPath ≠ none := by
    intro P now holds none
    obtain ⟨cur, there, _⟩ := holds
    rw [none] at there
    contradiction
  have copies : ∀ now mb into, Both now → (now m.accountId).mailbox folder.imapPath = some mb →
      (now m.accountId).mailbox trash = some into →
      Here (putMailbox now m.accountId trash (copied mb [m.uid] into)) := by
    intro now mb into _ here _
    refine ⟨mb, ?_, fun _ _ => trivial⟩
    rw [put_elsewhere now _ fun both => apart both.2, here]
  have marks : Stepped Here Marked m.accountId folder.imapPath
      (storeFlags (fun old => old ∪ {.deleted}) [m.uid]) := by
    intro now cur _ _
    apply all_with_store
    intro r _ uid
    rw [withFlags_uid] at uid
    rw [withFlags_flags, if_pos (List.mem_singleton.mpr uid)]
    exact Finset.mem_union_right _ (Finset.mem_singleton_self _)
  have expunges : Stepped Marked Gone m.accountId folder.imapPath expunged := by
    intro now cur holds here
    obtain ⟨cur', there, each⟩ := holds
    rw [here, Option.some.injEq] at there
    refine ⟨expunged cur, put_here _ _ _ _, ?_⟩
    intro r mem
    obtain ⟨inside, plain⟩ := List.mem_filter.mp mem
    have kept : Flag.deleted ∉ r.flags := by simpa using plain
    exact ⟨fun uid => kept (each r (there ▸ inside) uid), kept⟩
  have quiet := meets_delete_message env true (I := Both) (J := Here) (L := Marked)
    (N := Gone) (F := fun _ => False) row home special apart copies marks expunges
    (fun now holds none => none.elim (present now holds.1) holds.2)
    (fun now holds none => present now holds none) (fun now holds none => present now holds none)
    nofun
  apply after_quiet (P := When true (Holds (Sees db Both))) _
    (begin_sees ⟨⟨mb, found, fun _ _ => trivial⟩, by rw [target]; nofun⟩ fun _ => List.forall_mem_nil _)
  apply meets_post quiet
  exact fun _ c holds => ⟨holds.1, holds.2.2⟩

theorem delete_message_unsafe {env : Environment} {db : Database} {servers : Servers} {messageId : Nat}
    (safeless : ¬ (WriteOp.deleteMessage messageId).Safe env db servers) :
    ¬ ChangesAtMost ((WriteOp.deleteMessage messageId).Own db) servers
      ((WriteOp.deleteMessage messageId).serversAfter env db servers []) := by
  simp only [WriteOp.Safe, not_forall] at safeless
  obtain ⟨m, row, trash, mb, into, special, apart, found, target, r, mem, touched, foreign⟩ := safeless
  have alien : ¬ (WriteOp.deleteMessage messageId).Own db
      ⟨m.accountId, pathOf db m, mb.uidvalidity, r.uid⟩ := by
    intro ours
    obtain ⟨m', rowMem, same⟩ := ours
    have sameRow : m' = m := by simpa [WriteOp.rows, row] using rowMem
    rw [sameRow, remoteId, RemoteId.mk.injEq] at same
    exact foreign ⟨same.2.2.1, same.2.2.2⟩
  apply changed_of_all_with found mem alien
    (delete_message_clears row special apart found target)
  intro gone
  exact touched.elim gone.1 gone.2

section MarkAll
variable {env : Environment} {db : Database} {servers : Servers} {accountId folderId : Option Nat}

/- The accounts and mailboxes are those of the start. -/
def Standing (db : Database) (before : Servers) : Fact := fun now session =>
  Familiar db session ∧ ∀ a p, ((now a).mailbox p).isSome = ((before a).mailbox p).isSome

theorem standing_put {before now : Servers} {session : Database} {a : Nat} {p : String}
    {cur next : Mailbox} (holds : Standing db before now session)
    (here : (now a).mailbox p = some cur) : Standing db before (putMailbox now a p next) session :=
  ⟨holds.1, fun a' p' => (put_present here a' p').trans (holds.2 a' p')⟩

/- An account whose loop gets to the folder leaves its UIDs read. -/
theorem mark_folders_read {account : Nat} {uid : Nat} {h : String × List Message}
    (inRows : uid ∈ h.2.map fun m => m.uid) {G : Config Request → Prop}
    (groups : List (String × List Message)) (nonempty : ∀ g ∈ groups, g.2 ≠ [])
    (mem : h ∈ reached servers account groups) :
    Meets (When true (On (Standing db servers) account)) (markFolders groups)
      (fun _ => When true (Holds fun now session =>
        Standing db servers now session ∧ Read account h.1 uid now session)) G := by
  have standing : ∀ g : String × List Message, ((servers account).mailbox g.1).isSome = true →
      ∀ now session, Standing db servers now session → (now account).mailbox g.1 = none → False := by
    intro g present now session holds none
    have same := holds.2 account g.1
    rw [none, present] at same
    contradiction
  have inReach : ((servers account).mailbox h.1).isSome = true := by
    have passes := List.mem_takeWhile_imp mem
    exact passes
  apply meets_mark_folders_mem (J := fun now session =>
      Standing db servers now session ∧ Read account h.1 uid now session)
    (fun p => ((servers account).mailbox p).isSome) _ groups mem
  · intro g _ present
    exact meets_mark_folder (M := fun _ _ _ => True)
      (fun _ _ now session cur holds found => standing_put holds found)
      (fun _ _ _ _ _ _ _ _ _ => trivial) (fun _ _ _ _ _ _ _ _ _ => trivial)
      (fun _ _ holds _ => holds) (standing g present) nofun
  · intro rest inGroups
    apply meets_mark_folders (fun p => ((servers account).mailbox p).isSome)
      (fun now session holds p => holds.1.2 account p) rest fun g gMem => nonempty g (inGroups g gMem)
    · exact fun _ _ _ _ now session cur holds found =>
        ⟨standing_put holds.1 found, read_put holds.2 found⟩
    · exact fun _ _ now session holds => holds
  · apply meets_mark_folder (M := Read account h.1)
      (fun _ _ now session cur holds found => standing_put holds found)
    · exact fun uids _ u inBatch now session cur _ _ => read_stored inBatch
    · exact fun _ _ u now session cur _ marked found => read_put marked found
    · intro now session holds marked
      obtain ⟨m, mMem, same⟩ := List.mem_map.mp inRows
      have here := marked m mMem
      rw [same] at here
      exact ⟨holds, here⟩
    · exact standing h inReach
    · exact nofun

theorem mark_all_read_unsafe
    (safeless : ¬ (WriteOp.markAllRead accountId folderId).Safe env db servers) :
    ¬ ChangesAtMost ((WriteOp.markAllRead accountId folderId).Own db) servers
      ((WriteOp.markAllRead accountId folderId).serversAfter env db servers []) := by
  simp only [WriteOp.Safe, not_forall] at safeless
  obtain ⟨g, gMem, h, hMem, mb, found, m, mMem, r, rMem, uid, unseen, foreign⟩ := safeless
  have inFolder := (List.takeWhile_prefix _).subset hMem
  have alien : ¬ (WriteOp.markAllRead accountId folderId).Own db ⟨g.1, h.1, mb.uidvalidity, r.uid⟩ := by
    intro ours
    obtain ⟨row, selected, same⟩ := ours
    rw [remoteId, RemoteId.mk.injEq] at same
    obtain ⟨account, path, validity, sameUid⟩ := same
    have inGroup : row ∈ g.2 := by
      rw [(mem_group_by.mp gMem).2, List.mem_filter, beq_iff_eq]
      exact ⟨selected, account.symm⟩
    have inRows : row ∈ h.2 := by
      rw [(mem_group_by.mp inFolder).2, List.mem_filter, beq_iff_eq]
      exact ⟨inGroup, path.symm⟩
    exact foreign ⟨row, inRows, validity.symm, sameUid.symm⟩
  have accounts : ∀ (I : Fact), (∀ now session, I now session → Standing db servers now session) →
      (∀ a p uids now session cur, I now session → (now a).mailbox p = some cur →
        I (putMailbox now a p (storeFlags (fun old => old ∪ {.seen}) uids cur)) session) →
      (∀ ids now session, I now session → I now (session.changeFlags ids { seen := some true })) →
      ∀ g ∈ groupBy (fun m => m.accountId) (unreadRows db accountId folderId),
        Meets (When true (Holds I)) (markAccount env g) (fun _ => When true (Holds I))
          (When true (Holds fun _ _ => False)) := by
    intro I standing step change g mem
    obtain ⟨owner, known⟩ := group_account mem
    apply meets_mark_account_when env
      (fun now session holds => (standing now session holds).1) known _ nofun nofun
    apply meets_mark_folders (fun p => ((servers g.1).mailbox p).isSome)
      (fun now session holds p => (standing now session holds).2 g.1 p) _
      (fun h hMem => folder_nonempty hMem)
    · exact fun h _ uids _ now session cur holds here => step g.1 h.1 uids now session cur holds here
    · exact fun h _ now session holds => change _ now session holds
  have here : Meets (When true (Holds (Standing db servers))) (markAccount env g)
      (fun _ => When true (Holds fun now session =>
        Standing db servers now session ∧ Read g.1 h.1 r.uid now session))
      (When true (Holds fun _ _ => False)) := by
    obtain ⟨owner, known⟩ := group_account gMem
    apply meets_mark_account_when env (fun now session holds => holds.1)
      known _ nofun nofun
    exact mark_folders_read (List.mem_map.mpr ⟨m, mMem, uid.symm⟩) _
      (fun h hMem => folder_nonempty hMem) hMem
  have loop := meets_mark_accounts_mem env gMem
    (accounts (Standing db servers) (fun _ _ holds => holds)
      (fun _ _ _ _ _ _ holds found => standing_put holds found) fun _ _ _ holds => holds) here
    (accounts _ (fun _ _ holds => holds.1)
      (fun _ _ _ _ _ _ holds found => ⟨standing_put holds.1 found, read_put holds.2 found⟩)
      fun _ _ _ holds => holds)
  have whole : Meets (fun c => c.state.session = db ∧ When true (Holds (Standing db servers)) c)
      ((WriteOp.markAllRead accountId folderId).program env)
      (fun _ => When true fun s =>
        AllWith g.1 h.1 (fun x => x.uid = r.uid → .seen ∈ x.flags) s.servers)
      (When true (Holds (Ofs fun _ => False))) := by
    apply meets_discard
    apply meets_post (meets_mark_all_read_when env loop)
    exact fun _ c holds => ⟨holds.1, holds.2.2.2⟩
  apply changed_of_all_with found rMem alien
    (after_quiet whole ⟨rfl, fun _ => List.forall_mem_nil _, ⟨rfl, rfl⟩, fun _ _ => rfl⟩)
  exact fun all => unseen (all rfl)

end MarkAll

/- A write changes no message but its own rows', however its calls fail, exactly when the
   state it meets is safe for it. -/
theorem writes_own_messages_iff (env : Environment) (db : Database) (servers : Servers) (op : WriteOp) :
    (∀ outcomes, ChangesAtMost (op.Own db) servers (op.serversAfter env db servers outcomes)) ↔
      op.Safe env db servers := by
  constructor
  · intro always
    by_contra safeless
    cases op with
    | updateFlags messageId payload => exact update_flags_unsafe safeless (always [])
    | deleteMessage messageId => exact delete_message_unsafe safeless (always [])
    | markAllRead accountId folderId => exact mark_all_read_unsafe safeless (always [])
  · intro safe outcomes
    apply servers_kept_changes
    cases op with
    | updateFlags messageId payload => exact update_flags_safe safe outcomes
    | deleteMessage messageId => exact delete_message_safe safe outcomes
    | markAllRead accountId folderId => exact mark_all_read_safe safe outcomes

def plainAccount : Account :=
  { id := 1, protocol := .imapBasic, imapHost := none, smtpHost := none }

def inboxFolder : Folder :=
  { id := 1, accountId := 1, imapPath := "INBOX", displayName := none, isInbox := true,
    historyComplete := true, lastUidvalidity := some 1, lastSeenUid := 5 }

/-- Cached under the UIDVALIDITY 1. -/
def staleRow : Message :=
  { id := 1, accountId := 1, folderId := 1, uid := 5, uidvalidity := 1,
    notificationEligible := false, messageIdHeader := none, inReplyTo := none, references := none,
    subject := none, fromName := none, fromAddr := none, toAddrs := none, ccAddrs := none,
    dateSent := none, isSeen := false, isFlagged := false, isAnswered := false,
    hasAttachments := false, snippet := none, sizeBytes := none }

def staleDb : Database where
  accounts := [plainAccount]
  folders := [inboxFolder]
  messages := ⟨[staleRow], by decide, by decide⟩
  accountKeys := by decide
  folderKeys := by decide
  folderPaths := by decide
  folderOwners := by decide
  messageHomes := by decide

/-- The folder since it was recreated: another message has the UID 5. -/
def recreated : Mailbox where
  uidvalidity := 2
  uidNext := 6
  messages := [⟨5, ⟨∅, none, none, [], [1]⟩⟩]
  ordered := List.pairwise_singleton _ _
  bounded := by
    intro m mem
    rw [List.mem_singleton.mp mem]
    decide
  started := by decide

def recreatedServers : Servers := fun _ => ⟨fun path => if path = "INBOX" then some recreated else none⟩

def noSpecials : Environment where
  special := fun _ => none
  personalPrefix := none
  newTokenCache := false
  hasMessageId := fun _ _ => false
  createdValidity := 1
  delivered := []

/- Opening the stale row's menu and marking it read marks the other message. -/
theorem stale_row_marks_other_message :
    ¬ ChangesAtMost ((WriteOp.updateFlags 1 ⟨some true, none⟩).Own staleDb) recreatedServers
      ((WriteOp.updateFlags 1 ⟨some true, none⟩).serversAfter noSpecials staleDb recreatedServers []) := by
  apply update_flags_unsafe
  intro safe
  rcases safe staleRow rfl recreated rfl with same | agrees
  · contradiction
  · have seen := (agrees ⟨5, ⟨∅, none, none, [], [1]⟩⟩ List.mem_cons_self rfl).1 true rfl
    exact absurd (seen.mpr rfl) (Finset.notMem_empty _)

end InboxRowTargets
