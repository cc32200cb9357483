import InboxOne.MailParts
import InboxOne.SendRules

/-!
What the message routes answer: the parse of the bytes that the server has for the
UIDVALIDITY and UID of the row.
-/
namespace InboxFetchedBodies
open FaultyCalls InboxPython InboxMailbox InboxTables InboxDatabase InboxImapClient
open InboxMessageRoutes InboxImapRules InboxRouteRules InboxSendRules InboxMailParts

/-- The routes over the parser of full messages. -/
def mailFormat {Msg Draft : Type} (mail : MessagePackage Msg)
    (buildReplyMime : Account → Draft → Message → Except PyException (Content × String)) :
    MailFormat FullMessage (Bytes × String × Option String) Draft where
  parseFullMessage := parseFullMessage mail
  extractAttachmentBytes := extractAttachmentBytes mail
  buildReplyMime := buildReplyMime

/-- Where the server has the message that the row was made for, it has these bytes. -/
def Serves (m : Message) (path : String) (raw : Bytes) (servers : Servers) : Prop :=
  ∀ mb, (servers m.accountId).mailbox path = some mb → mb.uidvalidity = m.uidvalidity →
    ∀ rm, mb.find m.uid = some rm → rm.content.header ++ rm.content.body = raw

section Rules
variable {db : Database} {m : Message} {folder : Folder} {owner : Account} {path : String}
variable {raw : Bytes} {marking : Bool} (env : Environment)

variable (raw) in
/-- The body that a FETCH answers is that of the message, while the UIDVALIDITY is known. -/
theorem fetch_body_serves {I : Fact} (served : ∀ servers session mb, I servers session →
      (servers m.accountId).mailbox path = some mb →
      ∀ rm, mb.find m.uid = some rm → rm.content.header ++ rm.content.body = raw) :
    Meets (When false (At I m.accountId (some ⟨path, !marking⟩))) (fetchBody m.uid (!marking))
      (fun got _ => ∀ bytes, got = some bytes → bytes = raw) (fun _ => True) := by
  have rule : Meets (When false (At I m.accountId (some ⟨path, !marking⟩)))
      (fetchBody m.uid (!marking))
      (fun got => When false fun _ => ∀ bytes, got = some bytes → bytes = raw)
      (When false (Holds Anything)) := by
    unfold fetchBody onSelected
    refine meets_imap ?_ (fun _ _ _ _ _ => trivial) fun _ _ _ _ => trivial
    intro s got server chosen holds ok
    refine ⟨?_, fun _ => trivial⟩
    simp only at ok
    cases found : (s.servers m.accountId).mailbox path with
    | none =>
      rw [found] at ok
      contradiction
    | some mb =>
      rw [found] at ok
      simp only [Except.ok.injEq, Prod.mk.injEq] at ok
      obtain ⟨answer, _⟩ := ok
      intro bytes same
      rw [same] at answer
      obtain ⟨rm, there, read⟩ := Option.map_eq_some_iff.mp answer
      rw [← read]
      exact served s.servers s.session mb holds.1 found rm there
  exact meets_weaken rule (fun _ holds => holds) (fun _ _ holds => holds.2) fun _ _ => trivial

theorem fetch_selected_serves :
    Meets (When false (At (Ofs (Serves m path raw)) m.accountId none)) (fetchSelected m path marking)
      (fun got _ => got = raw) (fun _ => True) := by
  have anything : ∀ {K : Fact}, false = false → ∀ servers session, K servers session →
      Anything servers session := fun _ _ _ _ => trivial
  have ended : ∀ c : Config Request, When false (Holds Anything) c → True := fun _ _ => trivial
  apply meets_bind (meets_weaken (meets_select (F := Anything) (fun _ _ _ _ => trivial) anything)
    (fun _ holds => holds) (fun _ _ holds => holds) ended)
  intro validity
  split
  · exact meets_raise fun _ _ => trivial
  · rename_i same
    have validityIs : validity = m.uidvalidity := not_not.mp same
    apply meets_bind (meets_weaken (meets_open (F := Anything) (fun _ _ _ _ => trivial) anything)
      (fun _ holds => holds) (fun _ _ holds => holds) ended)
    intro _
    refine meets_bind (fetch_body_serves raw ?_) ?_
    · intro servers session mb holds here rm there
      obtain ⟨serves, other, found, validity⟩ := holds
      rw [here, Option.some.injEq] at found
      exact serves mb here (found ▸ validity.trans validityIs) rm there
    · intro got
      cases got with
      | none => exact meets_raise fun _ _ => trivial
      | some bytes =>
        show Meets _ (if bytes = [] then (raise PyException.messageNotFound : Action Bytes)
          else pure bytes) _ _
        split
        · exact meets_raise fun _ _ => trivial
        · exact meets_pure fun _ holds => holds bytes rfl

theorem fetch_raw_serves (sameOwner : owner.id = m.accountId) :
    Meets (When false (Holds (Ofs (Serves m folder.imapPath raw)))) (fetchRaw env owner folder m marking)
      (fun got _ => got = raw) (fun _ => True) := by
  apply meets_bind (meets_attempt (meets_connect env (F := Anything) fun _ _ _ _ => trivial))
  intro opened
  cases opened with
  | error e => exact meets_raise fun _ _ => trivial
  | ok _ =>
    rw [sameOwner]
    apply meets_bind (meets_attempt fetch_selected_serves)
    intro result
    have closed : Meets (Either (fun got _ => got = raw) (fun _ => True) result) (attempt logout)
        (fun _ _ => ∀ bytes, result = .ok bytes → bytes = raw) (fun _ => True) := by
      intro c holds bytes same
      rw [same] at holds
      exact holds
    apply meets_bind closed
    intro _
    cases result with
    | ok bytes => exact meets_pure fun _ holds => holds bytes rfl
    | error e => exact meets_raise fun _ _ => trivial

end Rules

section Answers
variable {Detail Attachment Draft : Type} (mail : MailFormat Detail Attachment Draft)
variable {db : Database} {servers : Servers} {messageId : Nat} {m : Message} {folder : Folder}
variable {raw : Bytes} (env : Environment) {outcomes : List Outcome}

theorem get_message_answers (row : db.messageById messageId = some m)
    (home : db.folderOf m = some folder) (served : Serves m folder.imapPath raw servers)
    {detail : Detail}
    (answered : (getMessage mail env messageId ⟨begin db servers, outcomes⟩).1 = .ok detail) :
    mail.parseFullMessage raw = .ok detail := by
  obtain ⟨owner, sameOwner, load⟩ := meets_load_row
    (P := When false (Holds (Sees db (Serves m folder.imapPath raw)))) (F := fun _ => True)
    row home fun _ holds => holds.2.1
  have rule : Meets (When false (Holds (Sees db (Serves m folder.imapPath raw))))
      (getMessage mail env messageId) (fun answer _ => mail.parseFullMessage raw = .ok answer)
      (fun _ => True) := by
    unfold getMessage
    apply meets_bind_known load
    apply meets_bind (meets_weaken (fetch_raw_serves env sameOwner)
      (fun _ holds => ⟨holds.1, holds.2.2⟩) (fun _ _ holds => holds) fun _ holds => holds)
    intro got
    apply meets_bind (Q := fun parsed _ => mail.parseFullMessage raw = .ok parsed)
    · unfold lift
      cases parse : mail.parseFullMessage got with
      | ok parsed => exact meets_pure fun _ same => same ▸ parse
      | error e => exact meets_raise fun _ _ => trivial
    · intro parsed
      split
      · exact meets_pure fun _ holds => holds
      · refine meets_bind (meets_modify (Q := fun _ _ => mail.parseFullMessage raw = .ok parsed)
          fun _ holds => holds) fun _ => ?_
        refine meets_bind (meets_modify (Q := fun _ _ => mail.parseFullMessage raw = .ok parsed)
          fun _ holds => holds) fun _ => ?_
        exact meets_pure fun _ holds => holds
  exact meets_answer rule ⟨nofun, rfl, served⟩ answered

theorem get_attachment_answers (row : db.messageById messageId = some m)
    (home : db.folderOf m = some folder) (served : Serves m folder.imapPath raw servers)
    {partIndex : String} {attachment : Attachment}
    (answered : (getAttachment mail env messageId partIndex ⟨begin db servers, outcomes⟩).1 =
      .ok attachment) : mail.extractAttachmentBytes raw partIndex = .ok attachment := by
  obtain ⟨owner, sameOwner, load⟩ := meets_load_row
    (P := When false (Holds (Sees db (Serves m folder.imapPath raw)))) (F := fun _ => True)
    row home fun _ holds => holds.2.1
  have rule : Meets (When false (Holds (Sees db (Serves m folder.imapPath raw))))
      (getAttachment mail env messageId partIndex)
      (fun answer _ => mail.extractAttachmentBytes raw partIndex = .ok answer)
      (fun _ => True) := by
    unfold getAttachment
    apply meets_bind_known load
    apply meets_bind (meets_weaken (fetch_raw_serves env sameOwner)
      (fun _ holds => ⟨holds.1, holds.2.2⟩) (fun _ _ holds => holds) fun _ holds => holds)
    intro got
    cases extract : mail.extractAttachmentBytes got partIndex with
    | ok parsed => exact meets_pure fun _ same => same ▸ extract
    | error e => exact meets_raise fun _ _ => trivial
  exact meets_answer rule ⟨nofun, rfl, served⟩ answered

end Answers

/- A host whose only mail is in the inbox, without special folders and replies. -/
def oneMail (content : Content) : Mailbox where
  uidvalidity := 1
  uidNext := 2
  messages := [⟨1, content⟩]
  ordered := List.pairwise_singleton _ _
  bounded := fun _ mem => List.mem_singleton.mp mem ▸ ⟨Nat.one_pos, Nat.one_lt_two⟩
  started := Nat.two_pos

def oneMailServers (content : Content) : Servers :=
  fun _ => ⟨fun path => if path = "INBOX" then some (oneMail content) else none⟩

def noReply (_ : Account) (_ : Unit) (_ : Message) : Except PyException (Content × String) :=
  .error .stopIteration

def quietHost : Environment where
  special := fun _ => none
  personalPrefix := none
  newTokenCache := false
  hasMessageId := fun _ _ => false
  createdValidity := 1
  delivered := []

end InboxFetchedBodies
