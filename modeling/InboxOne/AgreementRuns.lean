import InboxOne.FlagMarking
import InboxOne.SteadyPass

/-!
Both copies of the flags over runs of requests, and a pass over the folders after them.
-/
namespace InboxAgreementRuns
open LabelledRuns FaultyCalls InboxMailbox InboxMailParser InboxTables InboxDatabase
open InboxImapClient InboxMessageRoutes InboxMailboxFrames InboxFlagAgreement InboxFlagMarking
open InboxSteadyPass

inductive FlagCall (Draft : Type) where
  | getMessage (messageId : Nat)
  | getAttachment (messageId : Nat) (partIndex : String)
  | updateFlags (messageId : Nat) (payload : FlagsUpdate)
  | markAllRead (accountId folderId : Option Nat)
  | reply (messageId : Nat) (request : ReplyRequest Draft)

/-- One request, with the environment it meets and what its calls come to. -/
structure Label (Draft : Type) where
  call : FlagCall Draft
  env : Environment
  outcomes : List Outcome

structure World where
  db : Database
  servers : Servers

section Runs
variable {Detail Attachment Draft : Type} (mail : MailFormat Detail Attachment Draft)

def FlagCall.program (env : Environment) : FlagCall Draft → Action Unit
  | .getMessage messageId => do
      let _ ← InboxMessageRoutes.getMessage mail env messageId
      pure ()
  | .getAttachment messageId partIndex => do
      let _ ← InboxMessageRoutes.getAttachment mail env messageId partIndex
      pure ()
  | .updateFlags messageId payload => InboxMessageRoutes.updateFlags env messageId payload
  | .markAllRead accountId folderId => do
      let _ ← InboxMessageRoutes.markAllRead env accountId folderId
      pure ()
  | .reply messageId request => do
      let _ ← InboxMessageRoutes.reply mail env messageId request
      pure ()

/-- The next request succeeds: it ends without an exception. -/
def next (w : World) (l : Label Draft) : Option World :=
  match l.call.program mail l.env ⟨begin w.db w.servers, l.outcomes⟩ with
  | (.ok _, c) => some ⟨c.state.stored, c.state.servers⟩
  | (.error _, _) => none

/-- The selected rows of each folder fit into one STORE. -/
def oneBatchEach (db : Database) (accountId folderId : Option Nat) : Bool :=
  (groupBy (fun m => m.accountId) (unreadRows db accountId folderId)).all fun g =>
    (groupBy (pathOf db) g.2).all fun h => h.2.length ≤ readBatch

/-- A reply answers a row that is marked as answered already. mark_all_read ends without an
exception whatever fails inside it: there no call takes effect that fails, and none fails at
all where a folder needs a second STORE. -/
def careful (w : World) (l : Label Draft) : Bool :=
  match l.call with
  | .reply messageId _ => (w.db.messageById messageId).all fun m => m.isAnswered
  | .markAllRead accountId folderId =>
      (l.outcomes.all fun o => o = .done) ||
        ((l.outcomes.all fun o => o ≠ .failed true) && oneBatchEach w.db accountId folderId)
  | _ => true

/- What a successful request leaves behind. -/
theorem next_meets {w w' : World} {l : Label Draft} {P : Config Request → Prop}
    {Q : Request → Prop} (meets : Meets P (l.call.program mail l.env) (fun _ c => Q c.state)
      (fun _ => True)) (start : P ⟨begin w.db w.servers, l.outcomes⟩)
    (step : next mail w l = some w') : ∃ s, Q s ∧ w' = ⟨s.stored, s.servers⟩ := by
  have after := meets _ start
  unfold next at step
  cases eq : l.call.program mail l.env ⟨begin w.db w.servers, l.outcomes⟩ with
  | mk r c =>
    rw [eq] at after step
    cases r with
    | ok _ => exact ⟨c.state, after, (Option.some.inj step).symm⟩
    | error e => contradiction

theorem begin_fresh {w : World} (agrees : InAgreement w.servers w.db) :
    Fresh w.db (begin w.db w.servers) :=
  ⟨⟨rfl, rfl⟩, agrees⟩

theorem next_settles {w w' : World} {l : Label Draft} {P : Config Request → Prop}
    (meets : Meets P (l.call.program mail l.env) (fun _ c => Settled c.state) (fun _ => True))
    (start : P ⟨begin w.db w.servers, l.outcomes⟩) (step : next mail w l = some w') :
    InAgreement w'.servers w'.db := by
  obtain ⟨s, settled, same⟩ := next_meets mail meets start step
  rw [same]
  exact settled

/- A request that keeps the agreement whatever fails inside it. -/
theorem keeps_settles {w w' : World} {l : Label Draft} {A : Type} {program : Action A}
    (keeps : KeepsAgreement false program)
    (same : l.call.program mail l.env = do
      let _ ← program
      pure ())
    (agrees : InAgreement w.servers w.db) (step : next mail w l = some w') :
    InAgreement w'.servers w'.db := by
  have meets := meets_discard (keeps w.db)
  rw [← same] at meets
  exact next_settles mail (meets_post meets fun _ _ holds => holds.2) ⟨nofun, begin_fresh agrees⟩
    step

theorem mark_all_read_settles {w w' : World} {env : Environment} {outcomes : List Outcome}
    {accountId folderId : Option Nat} (agrees : InAgreement w.servers w.db)
    (care : careful w (⟨.markAllRead accountId folderId, env, outcomes⟩ : Label Draft) = true)
    (step : next mail w ⟨.markAllRead accountId folderId, env, outcomes⟩ = some w') :
    InAgreement w'.servers w'.db := by
  have keeps : ∀ allowed : Outcome → Prop, (∀ o ∈ outcomes, allowed o) →
      (∀ o, allowed o → o ≠ .failed true) →
      (∀ g ∈ groupBy (fun m => m.accountId) (unreadRows w.db accountId folderId),
        ∀ h ∈ groupBy (pathOf w.db) g.2, h.2.length ≤ readBatch ∨ ∀ o, allowed o → o = .done) →
      InAgreement w'.servers w'.db := by
    intro allowed may idle settled
    have meets := meets_discard (mark_all_read_keeps env idle settled)
    exact next_settles mail (meets_post meets fun _ _ holds => holds.2) ⟨may, begin_fresh agrees⟩
      step
  unfold careful at care
  rw [Bool.or_eq_true, Bool.and_eq_true] at care
  rcases care with quiet | ⟨idle, few⟩
  · apply keeps (fun o => o = .done)
    · exact fun o mem => of_decide_eq_true (List.all_eq_true.mp quiet o mem)
    · rintro o rfl
      decide
    · exact fun _ _ _ _ => .inr fun _ done => done
  · apply keeps (fun o => o ≠ .failed true)
    · exact fun o mem => of_decide_eq_true (List.all_eq_true.mp idle o mem)
    · exact fun _ allowed => allowed
    · intro g gMem h hMem
      have each := List.all_eq_true.mp few g gMem
      exact .inl (of_decide_eq_true (List.all_eq_true.mp each h hMem))

/- One careful request. -/
theorem step_agrees {w w' : World} {l : Label Draft} (agrees : InAgreement w.servers w.db)
    (step : restrict careful (next mail) w l = some w') : InAgreement w'.servers w'.db := by
  obtain ⟨care, ended⟩ := restrict_step step
  obtain ⟨call, env, outcomes⟩ := l
  cases call with
  | getMessage messageId =>
    exact keeps_settles mail (get_message_keeps env mail) rfl agrees ended
  | getAttachment messageId partIndex =>
    exact keeps_settles mail (get_attachment_keeps env mail) rfl agrees ended
  | updateFlags messageId payload =>
    exact next_settles mail (meets_post (update_flags_keeps env w.db) fun _ _ holds => holds.2)
      ⟨nofun, begin_fresh agrees⟩ ended
  | markAllRead accountId folderId => exact mark_all_read_settles mail agrees care ended
  | reply messageId request =>
    have answered : ∀ m, w.db.messageById messageId = some m → m.isAnswered = true := by
      intro m row
      simp only [careful, row, Option.all_some] at care
      exact care
    have replied : Meets (When false (Fresh w.db)) (InboxMessageRoutes.reply mail env messageId request)
        (fun _ => When false Settled) (fun _ => True) := reply_keeps env mail answered
    have meets := meets_discard replied
    exact next_settles mail (meets_post meets fun _ _ holds => holds.2) ⟨nofun, begin_fresh agrees⟩
      ended

/- A successful reply to a message that is not marked as answered ends the agreement. -/
theorem reply_agrees_iff {w w' : World} {messageId : Nat} {request : ReplyRequest Draft}
    {env : Environment} {outcomes : List Outcome} {m : Message}
    (agrees : InAgreement w.servers w.db) (row : w.db.messageById messageId = some m)
    (step : next mail w ⟨.reply messageId request, env, outcomes⟩ = some w') :
    InAgreement w'.servers w'.db ↔ m.isAnswered = true := by
  have replied : Meets (When false (Fresh w.db)) (InboxMessageRoutes.reply mail env messageId request)
      (fun _ => When false fun s => AgreesWith w.db id s.servers ∧
        s.stored = w.db.changeFlags [messageId] { answered := some true }) (fun _ => True) :=
    meets_reply env mail row
  have meets := meets_discard replied
  obtain ⟨s, after, same⟩ := next_meets mail (Q := fun s => AgreesWith w.db id s.servers ∧
      s.stored = w.db.changeFlags [messageId] { answered := some true })
    (meets_post meets fun _ _ holds => holds.2) ⟨nofun, begin_fresh agrees⟩ step
  rw [same]
  show InAgreement s.servers s.stored ↔ _
  rw [after.2]
  exact answered_agrees_iff row after.1

theorem folder_rows_agree {w : World} {f : Folder} {mb : Mailbox} (agrees : InAgreement w.servers w.db)
    (fMem : f ∈ w.db.folders) (found : (w.servers f.accountId).mailbox f.imapPath = some mb)
    {m : Message} (mem : m ∈ w.db.messages.rows) (own : m.folderId = f.id) : RowAgrees mb m := by
  have home : w.db.folderOf m = some f := folder_of_eq.mpr ⟨fMem, own.symm⟩
  obtain ⟨f', _, home', owner, _⟩ := message_home w.db mem
  rw [home, Option.some.injEq] at home'
  subst home'
  obtain ⟨mb', here, rest⟩ := agrees m mem
  rw [← owner, path_of_folder home, found, Option.some.injEq] at here
  exact here ▸ rest

/- Careful requests keep the cached flags equal to the server's, so that a pass over any
   folder afterwards changes the flags of no row, and where the UIDVALIDITY is the recorded
   one leaves every row as it is. -/
theorem careful_requests_keep_agreement {Msg : Type} (email : EmailPackage Msg) {w0 w : World}
    {labels : List (Label Draft)} (agrees : InAgreement w0.servers w0.db)
    (run : replay (restrict careful (next mail)) w0 labels = some w) :
    InAgreement w.servers w.db ∧
      ∀ f ∈ w.db.folders, ∀ mb, (w.servers f.accountId).mailbox f.imapPath = some mb →
        ∀ calls after, replay (restrict (fun _ l => isPass l) (InboxFolderRuns.next email))
          (passStart mb f w.db.messages) calls = some after →
        (∀ m ∈ w.db.messages.rows, ∀ m' ∈ after.db.messages.rows,
          m'.identity = m.identity → SameFlags m m') ∧
        (f.lastUidvalidity = some mb.uidvalidity →
          ∀ m ∈ w.db.messages.rows, m ∈ after.db.messages.rows) := by
  have kept : InAgreement w.servers w.db :=
    replay_invariant (fun w => InAgreement w.servers w.db) agrees
      (fun _ _ _ before step => step_agrees mail before step) run
  refine ⟨kept, ?_⟩
  intro f fMem mb found calls after pass
  exact steady_pass email (fun m mem own => folder_rows_agree kept fMem found mem own) pass

end Runs

def graphAccount : Account :=
  { id := 1, protocol := .oauthMicrosoft, imapHost := some "outlook.office365.com", smtpHost := none }

def inbox : Folder :=
  { id := 1, accountId := 1, imapPath := "INBOX", displayName := none, isInbox := true,
    historyComplete := true, lastUidvalidity := some 1, lastSeenUid := 5 }

def unansweredRow : Message :=
  { id := 1, accountId := 1, folderId := 1, uid := 5, uidvalidity := 1,
    notificationEligible := false, messageIdHeader := none, inReplyTo := none, references := none,
    subject := none, fromName := none, fromAddr := none, toAddrs := none, ccAddrs := none,
    dateSent := none, isSeen := false, isFlagged := false, isAnswered := false,
    hasAttachments := false, snippet := none, sizeBytes := none }

def unansweredBox : Mailbox where
  uidvalidity := 1
  uidNext := 6
  messages := [⟨5, ⟨∅, none, none, [], []⟩⟩]
  ordered := List.pairwise_singleton _ _
  bounded := by
    intro m mem
    rw [List.mem_singleton.mp mem]
    decide
  started := Nat.succ_pos 5

def unansweredWorld : World where
  db :=
    { accounts := [graphAccount], folders := [inbox]
      messages := ⟨[unansweredRow], by decide, by decide⟩
      accountKeys := by decide, folderKeys := by decide, folderPaths := by decide
      folderOwners := by decide, messageHomes := by decide }
  servers := fun _ => ⟨fun path => if path = "INBOX" then some unansweredBox else none⟩

def plainEnvironment : Environment where
  special := fun _ => none
  personalPrefix := none
  newTokenCache := false
  hasMessageId := fun _ _ => false
  createdValidity := 1
  delivered := []

def plainMail : MailFormat Unit Unit Unit where
  parseFullMessage := fun _ => .ok ()
  extractAttachmentBytes := fun _ _ => .ok ()
  buildReplyMime := fun _ _ _ => .ok (⟨∅, none, none, [], []⟩, "")

theorem unanswered_agrees : InAgreement unansweredWorld.servers unansweredWorld.db := by
  intro m mem
  rw [List.mem_singleton.mp mem]
  exact ⟨unansweredBox, rfl, rfl, ⟨5, ⟨∅, none, none, [], []⟩⟩, List.mem_cons_self, rfl, rfl, rfl, rfl⟩

def replyLabel : Label Unit := ⟨.reply 1 ⟨none, ()⟩, plainEnvironment, []⟩

def repliedWorld : World :=
  { unansweredWorld with db := unansweredWorld.db.changeFlags [1] { answered := some true } }

/- The reply succeeds and the row says answered; no command told the server, so the next
   pass says that the message is not answered. -/
theorem reply_is_forgotten :
    InAgreement unansweredWorld.servers unansweredWorld.db ∧
      next plainMail unansweredWorld replyLabel = some repliedWorld ∧
      ¬ InAgreement repliedWorld.servers repliedWorld.db ∧
      (repliedWorld.servers inbox.accountId).mailbox inbox.imapPath = some unansweredBox ∧
      repliedWorld.db.messages.rows.map (fun m => (m.id, m.isAnswered)) = [(1, true)] ∧
      ∃ after, replay (restrict (fun _ l => isPass l) (InboxFolderRuns.next emptyHeaderEmail))
          (passStart unansweredBox inbox repliedWorld.db.messages) [.begin, .call, .call, .call] =
          some after ∧ after.pass = none ∧
        after.db.messages.rows.map (fun m => (m.id, m.isAnswered)) = [(1, false)] := by
  refine ⟨unanswered_agrees, rfl, ?_, rfl, rfl, _, rfl, rfl, rfl⟩
  intro agrees
  have mem : FlagChange.apply { answered := some true } unansweredRow ∈ repliedWorld.db.messages.rows :=
    List.mem_cons_self
  obtain ⟨mb, here, _, r, inBox, _, _, _, answered⟩ := agrees _ mem
  have sameBox : mb = unansweredBox := (Option.some.inj here).symm
  rw [sameBox] at inBox
  rw [List.mem_singleton.mp inBox] at answered
  contradiction

/- The token for marking all as read is refused; then the message is flagged and all are
   marked. -/
def flaggedLabels : List (Label Unit) :=
  [⟨.markAllRead none none, plainEnvironment, [.failed false]⟩,
    ⟨.updateFlags 1 ⟨none, some true⟩, plainEnvironment, []⟩,
    ⟨.markAllRead none none, plainEnvironment, []⟩]

theorem flagged_run : (replay (restrict careful (next plainMail)) unansweredWorld flaggedLabels).map
    (fun w => w.db.messages.rows.map fun m => (m.isSeen, m.isFlagged)) = some [(true, true)] := rfl

theorem careful_requests_keep_agreement_flagged : ∃ w,
    replay (restrict careful (next plainMail)) unansweredWorld flaggedLabels = some w ∧
      w.db.messages.rows.map (fun m => (m.isSeen, m.isFlagged)) = [(true, true)] ∧
      InAgreement w.servers w.db := by
  obtain ⟨w, run, rows⟩ := Option.map_eq_some_iff.mp flagged_run
  exact ⟨w, run, rows,
    (careful_requests_keep_agreement plainMail emptyHeaderEmail unanswered_agrees run).1⟩

end InboxAgreementRuns
