import InboxOne.RowTargets

/-!
Deleting a message: COPY to Trash, STORE \Deleted, EXPUNGE. The first two name the
message; the plain EXPUNGE takes every message that carries the flag.
-/
namespace InboxTrashMoves
open FaultyCalls InboxPython InboxMailbox InboxTables InboxDatabase InboxFolderSync InboxImapClient
open InboxMessageRoutes InboxImapRules InboxMailboxFrames InboxRouteRules InboxRowTargets

/-- The same mail, flags aside. -/
def SameMail (r r' : RemoteMessage) : Prop := r'.content = { r.content with flags := r'.flags }

theorem same_mail_refl (r : RemoteMessage) : SameMail r r := rfl

/- The others stay in the source with their flags, the target stays there or is in Trash. -/
def NothingLost (env : Environment) (db : Database) (messageId : Nat) (before after : Servers) :
    Prop :=
  ∀ m, db.messageById messageId = some m →
    ∀ mb, (before m.accountId).mailbox (pathOf db m) = some mb →
      ∃ cur, (after m.accountId).mailbox (pathOf db m) = some cur ∧
        cur.uidvalidity = mb.uidvalidity ∧
        (∀ r ∈ mb.messages, r.uid ≠ m.uid → r ∈ cur.messages) ∧
        ∀ r ∈ mb.messages, r.uid = m.uid →
          (∃ r' ∈ cur.messages, r'.uid = m.uid ∧ SameMail r r') ∨
            ∃ trash bin, env.special .trash = some trash ∧
              (after m.accountId).mailbox trash = some bin ∧ ∃ r' ∈ bin.messages, SameMail r r'

/-- No other message of the source is flagged \Deleted where the move can be carried out. -/
def NoneElseDeleted (env : Environment) (db : Database) (messageId : Nat) (servers : Servers) :
    Prop :=
  ∀ m, db.messageById messageId = some m →
    ∀ trash mb into, env.special .trash = some trash → pathOf db m ≠ trash →
      (servers m.accountId).mailbox (pathOf db m) = some mb →
      (servers m.accountId).mailbox trash = some into →
      ∀ r ∈ mb.messages, .deleted ∈ r.flags → r.uid = m.uid

def serversAfter (env : Environment) (db : Database) (servers : Servers) (messageId : Nat)
    (outcomes : List Outcome) : Servers :=
  (WriteOp.deleteMessage messageId).serversAfter env db servers outcomes

theorem mem_copied {source : Mailbox} {uids : List Nat} {r : RemoteMessage}
    (mem : r ∈ source.messages) (uid : r.uid ∈ uids) (into : Mailbox) :
    ∃ r' ∈ (copied source uids into).messages, r'.content = r.content := by
  have stays : ∀ (ms : List RemoteMessage) (mb : Mailbox) (r' : RemoteMessage), r' ∈ mb.messages →
      r' ∈ (ms.foldl (fun mb m => mb.arrive 0 m.content) mb).messages := by
    intro ms
    induction ms with
    | nil => exact fun mb r' inside => inside
    | cons m rest ih => exact fun mb r' inside => ih _ r' (List.mem_append_left _ inside)
  have comes : ∀ (ms : List RemoteMessage) (mb : Mailbox), r ∈ ms →
      ∃ r' ∈ (ms.foldl (fun mb m => mb.arrive 0 m.content) mb).messages, r'.content = r.content := by
    intro ms
    induction ms with
    | nil =>
      intro mb inside
      contradiction
    | cons m rest ih =>
      intro mb inside
      rcases List.mem_cons.mp inside with head | tail
      · rw [head]
        exact ⟨⟨mb.uidNext + 0, m.content⟩,
          stays rest _ _ (List.mem_append_right _ (List.mem_singleton_self _)), rfl⟩
      · exact ih _ tail
  exact comes _ into (List.mem_filter.mpr ⟨mem, decide_eq_true uid⟩)

section Moving
variable {env : Environment} {db : Database} {servers : Servers} {messageId : Nat} {m : Message}

/-- What holds from the COPY on: the others are kept and Trash has the target. -/
def Copied (m : Message) (path trash : String) (mb : Mailbox) (now : Servers) : Prop :=
  (∃ cur, (now m.accountId).mailbox path = some cur ∧ Kept (fun uid => uid ≠ m.uid) mb cur) ∧
    ∀ r ∈ mb.messages, r.uid = m.uid → ∃ bin, (now m.accountId).mailbox trash = some bin ∧
      ∃ r' ∈ bin.messages, SameMail r r'

theorem copied_loses_nothing {path trash : String} {mb : Mailbox} {now : Servers}
    (row : db.messageById messageId = some m) (there : pathOf db m = path)
    (found : (servers m.accountId).mailbox path = some mb) (special : env.special .trash = some trash)
    (done : Copied m path trash mb now) : NothingLost env db messageId servers now := by
  intro m' row' mb' found'
  have sameRow : m' = m := Option.some.inj (row'.symm.trans row)
  subst sameRow
  rw [there] at found' ⊢
  have sameBox : mb' = mb := Option.some.inj (found'.symm.trans found)
  subst sameBox
  obtain ⟨⟨cur, here, kept⟩, bins⟩ := done
  refine ⟨cur, here, kept.validity, ?_, ?_⟩
  · intro r mem other
    exact (kept.same r (mb'.bounded r mem).2 other).mpr mem
  · intro r mem uid
    obtain ⟨bin, inBin, copy⟩ := bins r mem uid
    exact .inr ⟨trash, bin, special, inBin, copy⟩

/- A step on the source keeps the copy in Trash, and the others if it spares them. -/
theorem copied_step {path trash : String} {mb : Mailbox} (apart : path ≠ trash) {f : Mailbox → Mailbox}
    (spares : ∀ cur, Kept (fun uid => uid ≠ m.uid) mb cur → Kept (fun uid => uid ≠ m.uid) mb (f cur)) :
    Stepped (Copied m path trash mb) (Copied m path trash mb) m.accountId path f := by
  intro now cur holds here
  obtain ⟨⟨cur', there, kept⟩, bins⟩ := holds
  have same : cur' = cur := Option.some.inj (there.symm.trans here)
  subst same
  refine ⟨⟨f cur', put_here _ _ _ _, spares cur' kept⟩, ?_⟩
  intro r mem uid
  obtain ⟨bin, inBin, copy⟩ := bins r mem uid
  exact ⟨bin, by rw [put_elsewhere now _ fun both => apart both.2.symm, inBin], copy⟩

theorem unchanged_loses_nothing : NothingLost env db messageId servers servers := by
  intro m _ mb found
  exact ⟨mb, found, rfl, fun r mem _ => mem, fun r mem uid => .inl ⟨r, mem, uid, same_mail_refl r⟩⟩

theorem move_loses_nothing (alone : NoneElseDeleted env db messageId servers)
    (outcomes : List Outcome) :
    NothingLost env db messageId servers (serversAfter env db servers messageId outcomes) := by
  have start : When false (Holds (Sees db fun now => now = servers)) ⟨begin db servers, outcomes⟩ :=
    begin_sees rfl nofun
  cases row : db.messageById messageId with
  | none =>
    intro m' row'
    rw [row] at row'
    contradiction
  | some m =>
    obtain ⟨folder, _, home, _⟩ := message_home db (message_by_id_eq.mp row).1
    have there : pathOf db m = folder.imapPath := path_of_folder home
    by_cases refused : ∀ trash, env.special .trash = some trash → folder.imapPath = trash
    · have stops := meets_delete_refused env false (I := fun now => now = servers) row home refused
      apply after_any (P := When false (Holds (Sees db fun now => now = servers))) _ start
      apply meets_weaken stops
      · exact fun c holds => holds
      · exact fun _ c impossible => impossible.elim
      · exact fun c holds => ⟨holds.1, holds.2 ▸ unchanged_loses_nothing⟩
    · push Not at refused
      obtain ⟨trash, special, apart⟩ := refused
      cases found : (servers m.accountId).mailbox folder.imapPath with
      | none =>
        intro m' row' mb' found'
        have sameRow : m' = m := Option.some.inj (row'.symm.trans row)
        rw [sameRow, there, found] at found'
        contradiction
      | some mb =>
        let Going : Servers → Prop := fun now => Copied m folder.imapPath trash mb now ∧
          ∃ into, (servers m.accountId).mailbox trash = some into
        have lossless : ∀ now, Going now → NothingLost env db messageId servers now :=
          fun now holds => copied_loses_nothing row there found special holds.1
        have copies : ∀ now source into, now = servers →
            (now m.accountId).mailbox folder.imapPath = some source →
            (now m.accountId).mailbox trash = some into →
            Going (putMailbox now m.accountId trash (copied source [m.uid] into)) := by
          intro now source into unchanged here target
          subst unchanged
          have same : source = mb := Option.some.inj (here.symm.trans found)
          subst same
          refine ⟨⟨⟨source, ?_, kept_refl _ source⟩, ?_⟩, into, target⟩
          · rw [put_elsewhere now _ fun both => apart both.2, here]
          · intro r mem uid
            obtain ⟨r', inside, content⟩ := mem_copied mem (List.mem_singleton.mpr uid) into
            refine ⟨_, put_here _ _ _ _, r', inside, ?_⟩
            unfold SameMail
            rw [content, RemoteMessage.flags, content]
        have marks : Stepped Going Going m.accountId folder.imapPath
            (storeFlags (fun old => old ∪ {.deleted}) [m.uid]) := by
          intro now cur holds here
          refine ⟨copied_step apart (fun cur kept => kept_store kept ?_) now cur holds.1 here, holds.2⟩
          intro r _ other uid
          exact absurd (List.mem_singleton.mp uid) other
        have expunges : Stepped Going Going m.accountId folder.imapPath expunged := by
          intro now cur holds here
          refine ⟨copied_step apart (fun cur kept => kept_expunged kept ?_) now cur holds.1 here,
            holds.2⟩
          intro r mem other deleted
          obtain ⟨into, target⟩ := holds.2
          exact other (alone m row trash mb into special (there ▸ apart) (there ▸ found) target r mem
            deleted)
        have moved := meets_delete_message env false (I := fun now => now = servers) (J := Going)
          (L := Going) (N := Going) (F := NothingLost env db messageId servers) row home special apart
          copies marks expunges (fun now unchanged _ => unchanged ▸ unchanged_loses_nothing)
          (fun now holds _ => lossless now holds) (fun now holds _ => lossless now holds)
          fun _ => ⟨fun now unchanged => unchanged ▸ unchanged_loses_nothing, lossless, lossless,
            lossless⟩
        apply after_any (P := When false (Holds (Sees db fun now => now = servers))) _ start
        apply meets_post moved
        exact fun _ c holds => ⟨holds.1, lossless _ holds.2.2⟩

/- Undisturbed, the EXPUNGE takes the other message along. -/
theorem other_deleted_lost (others : ¬ NoneElseDeleted env db messageId servers) :
    ¬ NothingLost env db messageId servers (serversAfter env db servers messageId []) := by
  simp only [NoneElseDeleted, not_forall] at others
  obtain ⟨m, row, trash, mb, into, special, apart, found, target, r, mem, deleted, other⟩ := others
  intro lossless
  obtain ⟨cur, here, _, stay, _⟩ := lossless m row mb found
  obtain ⟨cur', there, cleared⟩ := delete_message_clears row special apart found target
  have same : cur' = cur := Option.some.inj (there.symm.trans here)
  exact (cleared r (same ▸ stay r mem other)).2 deleted

end Moving

/- Deleting loses no mail, wherever one of its calls fails, exactly when no other message
   of the folder is flagged \Deleted. -/
theorem deletion_loses_nothing_iff (env : Environment) (db : Database) (servers : Servers)
    (messageId : Nat) :
    (∀ outcomes, NothingLost env db messageId servers
      (serversAfter env db servers messageId outcomes)) ↔
      NoneElseDeleted env db messageId servers := by
  constructor
  · intro always
    by_contra others
    exact other_deleted_lost others (always [])
  · exact move_loses_nothing

/-- The row's message, and one that another client has flagged but not expunged. -/
def sharedMailbox : Mailbox where
  uidvalidity := 1
  uidNext := 7
  messages := [⟨5, ⟨∅, none, none, [], [1]⟩⟩, ⟨6, ⟨{.deleted}, none, none, [], [2]⟩⟩]
  ordered := by decide
  bounded := by decide
  started := by decide

def sharedServers : Servers := fun _ =>
  ⟨fun path => if path = "INBOX" then some sharedMailbox
    else if path = "Trash" then some (emptyMailbox 1) else none⟩

def withTrash : Environment := { noSpecials with special := fun _ => some "Trash" }

/- Deleting message 5 erases message 6 for good. -/
theorem deletion_erases_flagged_message :
    ¬ NothingLost withTrash staleDb 1 sharedServers
      (serversAfter withTrash staleDb sharedServers 1 []) := by
  apply other_deleted_lost
  intro alone
  have same := alone staleRow rfl "Trash" sharedMailbox (emptyMailbox 1) rfl (by decide) rfl rfl
    ⟨6, ⟨{.deleted}, none, none, [], [2]⟩⟩ (List.mem_cons_of_mem _ List.mem_cons_self)
    (Finset.mem_singleton_self _)
  contradiction

end InboxTrashMoves
