import InboxOne.PairedRuns
import InboxOne.RowTargets

/-!
A reply while other tasks work on the same database. At every await of the request they may
commit what they like, and in particular a sync pass may delete the original; the last flush
of the request then matches no row. What became of the mail itself is kept beside it.
-/
namespace InboxReplyRuns
open FaultyCalls PairedRuns InboxPython InboxMailbox InboxTables InboxDatabase InboxImapClient
open InboxMessageRoutes

/- `elsewhere` lists what the others commit, one entry for each await of the request;
   `submitted` and `saved` say how the submission and append_sent_message ended. -/
structure Sending where
  db : Database
  servers : Servers
  client : Option Connection
  elsewhere : List (Database → Database)
  submitted : Bool
  saved : Option Bool

inductive SendError where
  | raised (e : PyException)
  | staleData
  deriving DecidableEq, Repr

abbrev Sends (A : Type) := Program Sending SendError A

def Sending.othersCommit (s : Sending) : Sending :=
  match s.elsewhere with
  | [] => s
  | change :: later => { s with db := change s.db, elsewhere := later }

def answer {A : Type} : Except PyException A → Except SendError A
  | .ok a => .ok a
  | .error e => .error (.raised e)

/-- The calls of a service. They write no row: all that they may commit is a token. -/
def service {A : Type} (x : Action A) : Sends A := fun c =>
  let run := x ⟨⟨c.state.db, c.state.db, c.state.servers, c.state.client⟩, c.outcomes⟩
  (answer run.1,
    { state := { c.state with servers := run.2.state.servers, client := run.2.state.client }
      outcomes := run.2.outcomes })

def awaiting {A : Type} (x : Action A) : Sends A := do
  let result ← attempt (service x)
  modify Sending.othersCommit
  rethrow result

def query {A : Type} (f : Database → A) : Sends A := do
  let found ← FaultyCalls.read fun s : Sending => f s.db
  modify Sending.othersCommit
  pure found

variable {Detail Attachment Draft : Type} (mail : MailFormat Detail Attachment Draft)
variable (env : Environment)

def submitMail : Sends Unit := do
  awaiting (submit env)
  modify fun s => { s with submitted := true }

def succeeded {A : Type} : Except SendError A → Bool
  | .ok _ => true
  | .error _ => false

def saveCopy (path : String) (content : Content) (messageId : String) : Sends Unit := do
  let result ← attempt (awaiting (appendSentMessage env path content messageId))
  modify fun s => { s with saved := some (succeeded result) }
  rethrow result

/- With the connection open: a failed copy is a warning and no failure. -/
def submitAndSave (content : Content) (messageId : String) : Sends (Option String) := do
  let path ← awaiting (ensureSentFolder env)
  submitMail env
  match ← attempt (saveCopy env path content messageId) with
  | .ok () => pure none
  | .error _ => pure (some savedWarning)

/-- `send_smtp_and_save`. -/
def sendSmtpAndSave (account : Account) (content : Content) (messageId : String) :
    Sends (Option String) := do
  if gmailSavesSent account then
    submitMail env
    pure none
  else
    awaiting (openImapConnection env account)
    let result ← attempt (submitAndSave env content messageId)
    let _ ← attempt (awaiting logout)
    rethrow result

def sendReply (account : Account) (request : ReplyRequest Draft) (original : Message) :
    Sends (Option String) := do
  match account.protocol with
  | .oauthMicrosoft =>
      awaiting (getGraphToken env)
      submitMail env
      pure none
  | .imapBasic =>
      let (content, headerId) ← service (lift (mail.buildReplyMime account request.draft original))
      sendSmtpAndSave env account content headerId

/- Up to the last flush: the original as it was loaded, and the warning. -/
def sendOriginal (messageId : Nat) (request : ReplyRequest Draft) :
    Sends (Message × Option String) := do
  match ← query fun db => db.messageById messageId with
  | none => raise (.raised notFound)
  | some original =>
      match ← query fun db => db.accountById (sendAccountId request original) with
      | none => raise (.raised (.http 404 "Send-as account not found"))
      | some account =>
          let warning ← sendReply mail env account request original
          pure (original, warning)

/-- `original.is_answered = True` and the commit. An attribute that does not change makes no
UPDATE, and an UPDATE that matches no row raises. -/
def markAnswered (original : Message) : Sends Unit :=
  if original.isAnswered then pure ()
  else do
    match ← FaultyCalls.read fun s : Sending => s.db.messageById original.id with
    | none => raise .staleData
    | some _ =>
        modify fun s => { s with db := s.db.changeFlags [original.id] { answered := some true } }

def reply (messageId : Nat) (request : ReplyRequest Draft) : Sends (Option String) := do
  let (original, warning) ← sendOriginal mail env messageId request
  markAnswered original
  pure warning

def start (db : Database) (servers : Servers) (elsewhere : List (Database → Database)) : Sending where
  db := db
  servers := servers
  client := none
  elsewhere := elsewhere
  submitted := false
  saved := none

/- Before the request has sent anything. -/
def Unsent (s : Sending) : Prop := s.submitted = false ∧ s.saved = none

/-- The warning says that a copy was to be saved and could not be. -/
def WarningFits (warning : Option String) (s : Sending) : Prop :=
  warning = if s.saved = some false then some savedWarning else none

/-- A submitted reply is answered as sent, with the right warning; a request that fails has
neither submitted anything nor touched the Sent folder. -/
def ReportedRight (messageId : Nat) (request : ReplyRequest Draft) (c : Config Sending) : Prop :=
  ((reply mail env messageId request c).2.state.submitted = true →
    ∃ warning, (reply mail env messageId request c).1 = .ok warning ∧
      WarningFits warning (reply mail env messageId request c).2.state) ∧
  (∀ e, (reply mail env messageId request c).1 = .error e →
    Unsent (reply mail env messageId request c).2.state)

/-- Where the last flush writes the original, its row is still there. -/
def RowStays (messageId : Nat) (request : ReplyRequest Draft) (c : Config Sending) : Prop :=
  ∀ original warning, (sendOriginal mail env messageId request c).1 = .ok (original, warning) →
    original.isAnswered = true ∨
      ((sendOriginal mail env messageId request c).2.state.db.messageById original.id).isSome

def Holding (P : Sending → Prop) (c : Config Sending) : Prop := P c.state

section Rules
variable {P : Sending → Prop}

/- What neither the servers nor the other tasks can change. -/
structure Kept (P : Sending → Prop) : Prop where
  service : ∀ s servers client, P s → P { s with servers := servers, client := client }
  others : ∀ s, P s → P s.othersCommit

theorem meets_service {A : Type} {x : Action A} (kept : Kept P) :
    Meets (Holding P) (service x) (fun _ => Holding P) (Holding P) := by
  intro c holds
  have after := fun servers client => kept.service c.state servers client holds
  unfold service
  dsimp only
  cases answer (x ⟨⟨c.state.db, c.state.db, c.state.servers, c.state.client⟩, c.outcomes⟩).1 with
  | ok a => exact after _ _
  | error e => exact after _ _

theorem meets_rethrow {A : Type} {Q : A → Config Sending → Prop} {F R : Config Sending → Prop}
    (result : Except SendError A) (ok : ∀ a, result = .ok a → ∀ c, R c → Q a c)
    (failed : ∀ e, result = .error e → ∀ c, R c → F c) : Meets R (rethrow result) Q F := by
  cases result with
  | ok a => exact meets_pure (ok a rfl)
  | error e => exact meets_raise (failed e rfl)

theorem meets_awaiting {A : Type} {x : Action A} (kept : Kept P) :
    Meets (Holding P) (awaiting x) (fun _ => Holding P) (Holding P) := by
  apply meets_bind (meets_attempt_same (meets_service kept))
  intro result
  apply meets_bind (Q := fun _ => Holding P)
  · exact meets_modify fun c holds => kept.others c.state holds
  · intro _
    exact meets_rethrow result (fun _ _ _ holds => holds) fun _ _ _ holds => holds

theorem meets_query {A : Type} {f : Database → A} {F : Config Sending → Prop} (kept : Kept P) :
    Meets (Holding P) (query f) (fun _ => Holding P) F := by
  apply meets_bind (Q := fun _ => Holding P)
  · exact meets_read fun _ holds => holds
  · intro found
    apply meets_bind (Q := fun _ => Holding P)
    · exact meets_modify fun c holds => kept.others c.state holds
    · exact fun _ => meets_pure fun _ holds => holds

end Rules

/- Facts about the mail only are kept by everything that happens elsewhere. -/
theorem kept_mail (f : Bool → Option Bool → Prop) : Kept fun s => f s.submitted s.saved := by
  constructor
  · exact fun _ _ _ holds => holds
  · intro s holds
    unfold Sending.othersCommit
    cases s.elsewhere with
    | nil => exact holds
    | cons change later => exact holds

def Submitted (s : Sending) : Prop := s.submitted = true ∧ s.saved = none

/- How the mail stands with this warning. -/
def Finished (warning : Option String) (s : Sending) : Prop :=
  s.submitted = true ∧ WarningFits warning s

theorem kept_unsent : Kept Unsent := kept_mail fun submitted saved => submitted = false ∧ saved = none

theorem kept_submitted : Kept Submitted :=
  kept_mail fun submitted saved => submitted = true ∧ saved = none

theorem kept_finished (warning : Option String) : Kept (Finished warning) :=
  kept_mail fun submitted saved =>
    submitted = true ∧ warning = if saved = some false then some savedWarning else none

theorem meets_submit_mail : Meets (Holding Unsent) (submitMail env) (fun _ => Holding Submitted)
    (Holding Unsent) := by
  apply meets_bind (meets_awaiting kept_unsent)
  exact fun _ => meets_modify fun c holds => ⟨rfl, holds.2⟩

theorem meets_save_copy {path messageId : String} {content : Content} :
    Meets (Holding Submitted) (saveCopy env path content messageId)
      (fun _ => Holding (Finished none)) (Holding (Finished (some savedWarning))) := by
  apply meets_bind (meets_attempt_same (meets_awaiting kept_submitted))
  intro result
  apply meets_bind (Q := fun _ => Holding fun s =>
    s.submitted = true ∧ s.saved = some (succeeded result))
  · exact meets_modify fun c holds => ⟨holds.1, rfl⟩
  · intro _
    apply meets_rethrow
    · intro a ok c holds
      subst ok
      refine ⟨holds.1, ?_⟩
      rw [WarningFits, holds.2]
      rfl
    · intro e fails c holds
      subst fails
      refine ⟨holds.1, ?_⟩
      rw [WarningFits, holds.2]
      rfl

theorem meets_submit_and_save {content : Content} {messageId : String} :
    Meets (Holding Unsent) (submitAndSave env content messageId)
      (fun warning => Holding (Finished warning)) (Holding Unsent) := by
  apply meets_bind (meets_awaiting kept_unsent)
  intro path
  apply meets_bind (meets_submit_mail env)
  intro _
  apply meets_bind (meets_attempt (meets_save_copy env))
  intro copied
  cases copied with
  | ok _ => exact meets_pure fun _ holds => holds
  | error _ => exact meets_pure fun _ holds => holds

theorem finished_submitted {s : Sending} (holds : Submitted s) : Finished none s := by
  refine ⟨holds.1, ?_⟩
  rw [WarningFits, holds.2]
  rfl

/- Nothing fails once the mail is submitted: an answer comes with the right warning, an
   exception only before the submission. -/
theorem meets_send_smtp {account : Account} {content : Content} {messageId : String} :
    Meets (Holding Unsent) (sendSmtpAndSave env account content messageId)
      (fun warning => Holding (Finished warning)) (Holding Unsent) := by
  unfold sendSmtpAndSave
  split
  · apply meets_bind (meets_submit_mail env)
    exact fun _ => meets_pure fun c holds => finished_submitted holds
  · apply meets_bind (meets_awaiting kept_unsent)
    intro _
    apply meets_bind (meets_attempt (meets_submit_and_save env))
    intro result
    apply meets_bind (Q := fun _ => Either (fun warning => Holding (Finished warning))
      (Holding Unsent) result)
    · cases result with
      | ok warning => exact meets_attempt_same (meets_awaiting (kept_finished warning))
      | error e => exact meets_attempt_same (meets_awaiting kept_unsent)
    · intro _
      cases result with
      | ok warning => exact meets_pure fun _ holds => holds
      | error e => exact meets_raise fun _ holds => holds

theorem meets_send_reply {account : Account} {request : ReplyRequest Draft} {original : Message} :
    Meets (Holding Unsent) (sendReply mail env account request original)
      (fun warning => Holding (Finished warning)) (Holding Unsent) := by
  unfold sendReply
  cases account.protocol with
  | oauthMicrosoft =>
    apply meets_bind (meets_awaiting kept_unsent)
    intro _
    apply meets_bind (meets_submit_mail env)
    exact fun _ => meets_pure fun c holds => finished_submitted holds
  | imapBasic =>
    apply meets_bind (meets_service kept_unsent)
    exact fun built => meets_send_smtp env

theorem meets_send_original {messageId : Nat} {request : ReplyRequest Draft} :
    Meets (Holding Unsent) (sendOriginal mail env messageId request)
      (fun sent => Holding (Finished sent.2)) (Holding Unsent) := by
  apply meets_bind (meets_query kept_unsent)
  intro found
  cases found with
  | none => exact meets_raise fun _ holds => holds
  | some original =>
    apply meets_bind (meets_query kept_unsent)
    intro known
    cases known with
    | none => exact meets_raise fun _ holds => holds
    | some account =>
      apply meets_bind (meets_send_reply mail env)
      exact fun warning => meets_pure fun _ holds => holds

/- The last flush fails exactly where it has something to write and no row to write it to. -/
theorem mark_answered_run (original : Message) (c : Config Sending) :
    ((markAnswered original c).1 = .ok () ↔ original.isAnswered = true ∨
        (c.state.db.messageById original.id).isSome) ∧
      ((markAnswered original c).1 = .ok () ∨ (markAnswered original c).1 = .error .staleData) ∧
      (markAnswered original c).2.state.submitted = c.state.submitted ∧
      (markAnswered original c).2.state.saved = c.state.saved := by
  unfold markAnswered
  cases answered : original.isAnswered with
  | true => exact ⟨⟨fun _ => Or.inl rfl, fun _ => rfl⟩, Or.inl rfl, rfl, rfl⟩
  | false =>
    have looked : (FaultyCalls.read (fun s : Sending => s.db.messageById original.id) c :
        Except SendError _ × Config Sending).1 = .ok (c.state.db.messageById original.id) := rfl
    have same : (FaultyCalls.read (fun s : Sending => s.db.messageById original.id) c :
        Except SendError _ × Config Sending).2 = c := rfl
    rw [if_neg (by simp), run_bind_ok looked, same]
    cases c.state.db.messageById original.id with
    | none => exact ⟨by simp [raise], Or.inr rfl, rfl, rfl⟩
    | some row => exact ⟨⟨fun _ => Or.inr rfl, fun _ => rfl⟩, Or.inl rfl, rfl, rfl⟩

/-- A reply is reported right exactly when the row of the original stays until the request
writes it, or was marked answered before. -/
theorem reply_reported_iff (db : Database) (servers : Servers)
    (elsewhere : List (Database → Database)) (outcomes : List Outcome) (messageId : Nat)
    (request : ReplyRequest Draft) :
    ReportedRight mail env messageId request ⟨start db servers elsewhere, outcomes⟩ ↔
      RowStays mail env messageId request ⟨start db servers elsewhere, outcomes⟩ := by
  have unsent : Unsent (start db servers elsewhere) := ⟨rfl, rfl⟩
  generalize same : (⟨start db servers elsewhere, outcomes⟩ : Config Sending) = c
  have begins : Holding Unsent c := same ▸ unsent
  have sent : Meets (Holding Unsent) (sendOriginal mail env messageId request)
    (fun sent => Holding (Finished sent.2)) (Holding Unsent) := meets_send_original mail env
  unfold ReportedRight RowStays reply
  cases result : (sendOriginal mail env messageId request c).1 with
  | error e =>
    have failed := meets_exception sent begins result
    rw [run_bind_error result]
    constructor
    · exact fun _ _ _ ok => by contradiction
    · refine fun _ => ⟨fun submitted => ?_, fun _ _ => failed⟩
      rw [failed.1] at submitted
      contradiction
  | ok found =>
    obtain ⟨original, warning⟩ := found
    have finished := meets_answer sent begins result
    obtain ⟨stays, either, submitted, saved⟩ :=
      mark_answered_run original (sendOriginal mail env messageId request c).2
    rw [run_bind_ok result]
    dsimp only
    constructor
    · rintro ⟨reported, _⟩ original' warning' ok
      obtain ⟨rfl, rfl⟩ := Prod.mk.inj (Except.ok.inj ok)
      apply stays.mp
      rcases either with written | stale
      · exact written
      · rw [run_bind_error stale] at reported
        obtain ⟨_, answered, _⟩ := reported (submitted.trans finished.1)
        contradiction
    · intro there
      have written := stays.mpr (there original warning rfl)
      rw [run_bind_ok written]
      refine ⟨fun _ => ⟨warning, rfl, ?_⟩, fun _ fails => by contradiction⟩
      show WarningFits warning (markAnswered original _).2.state
      rw [WarningFits, saved]
      exact finished.2

/- The plain account of the row, its mailboxes and a mail package that builds anything. -/
def plainMail : MailFormat Unit Unit Unit where
  parseFullMessage := fun _ => .ok ()
  extractAttachmentBytes := fun _ _ => .ok ()
  buildReplyMime := fun _ _ _ => .ok (⟨∅, none, none, [], [1]⟩, "<reply@inbox>")

def sentFolder : Environment := { InboxRowTargets.noSpecials with special := fun _ => some "Sent" }

def sentServers : Servers := fun _ =>
  ⟨fun path => if path = "Sent" then some (emptyMailbox 1) else none⟩

/- While SMTP takes the mail, a pass finds the original expunged and deletes its row. -/
def deletedMeanwhile : List (Database → Database) :=
  [id, id, id, id, fun db => db.deleteMessage 1]

theorem sent_reply_reported_as_failed :
    ¬ ReportedRight plainMail sentFolder 1 ⟨none, ()⟩
      ⟨start InboxRowTargets.staleDb sentServers deletedMeanwhile, []⟩ := by
  intro reported
  obtain ⟨_, answered, _⟩ := reported.1 rfl
  contradiction

end InboxReplyRuns
