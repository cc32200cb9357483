import InboxOne.PairedRuns
import InboxOne.RowTargets
import InboxOne.SendRules

/-!
What the endpoints commit when some of their IMAP calls fail. The commands that change the
server are run on their own, and the endpoint is compared with them: a LOGOUT that fails
afterwards is the only thing that can come between the two.
-/
namespace InboxRecordedChanges
open FaultyCalls PairedRuns InboxPython InboxMailbox InboxTables InboxDatabase InboxFolderSync
open InboxImapClient InboxMessageRoutes InboxImapRules InboxRouteRules InboxSendRules

variable (env : Environment)

/-- The endpoint succeeds and commits its change when its commands did, and otherwise fails
and commits nothing. -/
def Recorded (endpoint commands : Action Unit) (change : Database → Database)
    (c : Config Request) : Prop :=
  ((commands c).1 = .ok () →
    (endpoint c).1 = .ok () ∧ (endpoint c).2.state.stored = change c.state.session) ∧
  ((commands c).1 ≠ .ok () →
    (endpoint c).1 ≠ .ok () ∧ (endpoint c).2.state.stored = c.state.stored)

def LogoutDone (c : Config Request) : Prop := c.outcomes.headD .done = .done

theorem logout_result (c : Config Request) :
    ((logout c).1 = .ok () ↔ LogoutDone c) ∧
      (logout c).2.state.stored = c.state.stored ∧ (logout c).2.state.session = c.state.session ∧
      (logout c).2.state.servers = c.state.servers ∧ (logout c).2.outcomes = c.outcomes.tail := by
  unfold logout call LogoutDone
  cases c.outcomes.headD .done with
  | done => simp
  | failed applied => cases applied <;> simp

theorem load_spec (messageId : Nat) (c : Config Request) :
    (loadMessage messageId c).2 = c ∧
      ∀ found, (loadMessage messageId c).1 = .ok found → found.1.id = messageId := by
  have meets : Meets (fun d => d = c) (loadMessage messageId)
      (fun found d => d = c ∧ found.1.id = messageId) (fun d => d = c) := by
    apply meets_bind (Q := fun row d =>
      d = c ∧ ∀ m : Message, row = some m → m.id = messageId)
    · refine meets_read fun d same => ⟨same, fun m row => ?_⟩
      exact (message_by_id_eq.mp row).2
    · intro row
      cases row with
      | none => exact meets_raise fun _ holds => holds.1
      | some m =>
        apply meets_bind (Q := fun _ d => d = c ∧ m.id = messageId)
        · exact meets_read fun _ holds => ⟨holds.1, holds.2 m rfl⟩
        · intro home
          match home with
          | (some _, some _) => exact meets_pure fun _ holds => holds
          | (none, _) | (some _, none) => exact meets_raise fun _ holds => holds.1
  refine ⟨meets_run (meets_weaken meets (fun _ same => same) (fun _ _ holds => holds.1)
    fun _ same => same) rfl, fun found ok => ?_⟩
  exact (meets_answer meets rfl ok).2

/- Commands that leave the database alone, as the rules for `Untouched` say it of a run. -/
theorem untouched_run {A : Type} {x : Action A} {db : Database} {c : Config Request}
    (meets : Meets (When false (Untouched db)) x (fun _ => When false (Untouched db))
      (When false (Untouched db))) (start : Untouched db c.state) :
    Untouched db (x c).2.state :=
  (meets_run meets ⟨fun quiet => by contradiction, start⟩).2

section Single
variable {db : Database} {messageId : Nat} {work tail : Message → Folder → Action Unit}

/- What an endpoint does after its connection is open: its commands, LOGOUT and commit. -/
def Finishes (db : Database) (work tail : Action Unit) (change : Database → Database)
    (c : Config Request) : Prop :=
  ((tail c).1 = .ok () ↔ (work c).1 = .ok () ∧ LogoutDone (work c).2) ∧
    ((tail c).1 = .ok () → (tail c).2.state.stored = change db) ∧
    ((tail c).1 ≠ .ok () → (tail c).2.state.stored = db)

/-- A loaded message, an open connection, and then the endpoint or its commands alone. -/
def onMessage (messageId : Nat) (work : Message → Folder → Action Unit) : Action Unit := do
  let (m, account, folder) ← loadMessage messageId
  openImapConnection env account
  work m folder

theorem recorded_iff {change : Database → Database} (servers : Servers) (outcomes : List Outcome)
    (finishes : ∀ m folder c, m.id = messageId → Untouched db c.state →
      Finishes db (work m folder) (tail m folder) change c) :
    Recorded (onMessage env messageId tail) (onMessage env messageId work) change
        ⟨begin db servers, outcomes⟩ ↔
      ((onMessage env messageId work ⟨begin db servers, outcomes⟩).1 = .ok () →
        LogoutDone (onMessage env messageId work ⟨begin db servers, outcomes⟩).2) := by
  obtain ⟨same, known⟩ := load_spec messageId ⟨begin db servers, outcomes⟩
  cases loaded : (loadMessage messageId ⟨begin db servers, outcomes⟩).1 with
  | error e =>
    unfold Recorded onMessage
    rw [run_bind_error loaded, run_bind_error loaded, same]
    simp [begin]
  | ok found =>
    obtain ⟨m, account, folder⟩ := found
    have opened : Untouched db
        (openImapConnection env account ⟨begin db servers, outcomes⟩).2.state :=
      untouched_run (untouched_connect env) ⟨rfl, rfl⟩
    unfold Recorded onMessage
    rw [run_bind_ok loaded, run_bind_ok loaded, same]
    dsimp only
    cases connected : (openImapConnection env account ⟨begin db servers, outcomes⟩).1 with
    | error e =>
      rw [run_bind_error connected, run_bind_error connected]
      simpa [begin] using opened.1
    | ok _ =>
      rw [run_bind_ok connected, run_bind_ok connected]
      obtain ⟨ends, committed, dropped⟩ := finishes m folder _ (known _ loaded) opened
      constructor
      · intro recorded ok
        exact (ends.mp (recorded.1 ok).1).2
      · intro closes
        refine ⟨fun ok => ?_, fun fails => ?_⟩
        · have through := ends.mpr ⟨ok, closes ok⟩
          exact ⟨through, committed through⟩
        · have stopped := fun through => fails (ends.mp through).1
          exact ⟨stopped, dropped stopped⟩

end Single

/- The commands of update_flags and of delete_message, up to their LOGOUT. -/
def flagCommands (messageId : Nat) (payload : FlagsUpdate) : Action Unit :=
  onMessage env messageId fun m folder => applyFlags folder.imapPath m.uid payload

def trashCommands (messageId : Nat) : Action Unit :=
  onMessage env messageId fun m folder => trashMessage env folder.imapPath m.uid

section Commands
variable {db : Database}

/- Two commands one after the other. -/
theorem untouched_bind {A B : Type} {x : Action A} {f : A → Action B}
    (first : Meets (When false (Untouched db)) x (fun _ => When false (Untouched db))
      (When false (Untouched db)))
    (second : ∀ a, Meets (When false (Untouched db)) (f a) (fun _ => When false (Untouched db))
      (When false (Untouched db))) :
    Meets (When false (Untouched db)) (x >>= f) (fun _ => When false (Untouched db))
      (When false (Untouched db)) :=
  meets_bind first second

theorem untouched_change (f : Mailbox → Mailbox) :
    Meets (When false (Untouched db)) (changeSelected f) (fun _ => When false (Untouched db))
      (When false (Untouched db)) := by
  unfold changeSelected onSelected
  exact untouched_imap

theorem untouched_store (uid : Nat) (flag : Flag) (value : Option Bool) :
    Meets (When false (Untouched db)) (storeFlag uid flag value)
      (fun _ => When false (Untouched db)) (When false (Untouched db)) := by
  unfold storeFlag
  match value with
  | none => exact meets_pure fun _ holds => holds
  | some true => exact untouched_change (storeFlags (fun old => old ∪ {flag}) [uid])
  | some false => exact untouched_change (storeFlags (fun old => old \ {flag}) [uid])

theorem untouched_apply (path : String) (uid : Nat) (payload : FlagsUpdate) :
    Meets (When false (Untouched db)) (applyFlags path uid payload)
      (fun _ => When false (Untouched db)) (When false (Untouched db)) := by
  apply untouched_bind
  · exact untouched_imap
  · intro _
    apply untouched_bind
    · exact untouched_store uid .seen payload.seen
    · exact fun _ => untouched_store uid .flagged payload.flagged

theorem untouched_trash (source : String) (uid : Nat) :
    Meets (When false (Untouched db)) (trashMessage env source uid)
      (fun _ => When false (Untouched db)) (When false (Untouched db)) := by
  apply untouched_bind
  · unfold findTrashFolder findSpecialFolder
    exact untouched_imap
  · intro found
    cases found with
    | none => exact meets_raise fun _ holds => holds
    | some trash =>
      dsimp only
      split
      · exact meets_raise fun _ holds => holds
      · apply untouched_bind untouched_imap
        intro _
        apply untouched_bind untouched_imap
        intro _
        exact untouched_bind (untouched_change _) fun _ => untouched_change expunged

end Commands

/- Commands and local changes under a LOGOUT, and a commit after it. -/
theorem finishes_of {db : Database} {work body last : Action Unit} {change : Database → Database}
    {c : Config Request}
    (runs : ((body c).1 = .ok () ↔ (work c).1 = .ok ()) ∧
      (body c).2.outcomes = (work c).2.outcomes ∧ (body c).2.state.stored = db)
    (commits : (body c).1 = .ok () → ∀ d : Config Request,
      d.state.session = (body c).2.state.session →
        (last d).1 = .ok () ∧ (last d).2.state.stored = change db) :
    Finishes db work (ensuring body logout >>= fun _ => last) change c := by
  obtain ⟨ok_iff, outcomes, stored⟩ := runs
  obtain ⟨through, state⟩ := run_ensuring body logout c ()
  obtain ⟨closed, keptStored, keptSession, _⟩ := logout_result (body c).2
  have done_iff : LogoutDone (body c).2 ↔ LogoutDone (work c).2 := by
    unfold LogoutDone
    rw [outcomes]
  unfold Finishes
  rw [← ok_iff, ← done_iff, ← closed, ← through]
  cases result : (ensuring body logout c).1 with
  | error e =>
    rw [run_bind_error result, state, keptStored]
    exact ⟨by simp, fun ok => by contradiction, fun _ => stored⟩
  | ok u =>
    rw [run_bind_ok result, state]
    obtain ⟨ends, committed⟩ := commits (through.mp result).1 _ keptSession
    exact ⟨⟨fun _ => rfl, fun _ => ends⟩, fun _ => committed, fun fails => absurd ends fails⟩

/- After its connection is open. -/
def finishUpdate (payload : FlagsUpdate) (m : Message) (folder : Folder) : Action Unit := do
  ensuring (do
      applyFlags folder.imapPath m.uid payload
      changeRows [m.id] { seen := payload.seen, flagged := payload.flagged })
    logout
  commit

def finishDelete (messageId : Nat) (m : Message) (folder : Folder) : Action Unit := do
  ensuring (trashMessage env folder.imapPath m.uid) logout
  modify fun s => { s with session := s.session.deleteMessage messageId }
  commit

theorem update_flags_shape (messageId : Nat) (payload : FlagsUpdate) :
    updateFlags env messageId payload = onMessage env messageId (finishUpdate payload) := rfl

theorem delete_message_shape (messageId : Nat) :
    deleteMessage env messageId = onMessage env messageId (finishDelete env messageId) := rfl

theorem update_finishes {db : Database} {messageId : Nat} (payload : FlagsUpdate) {m : Message}
    {folder : Folder} {c : Config Request} (same : m.id = messageId)
    (untouched : Untouched db c.state) :
    Finishes db (applyFlags folder.imapPath m.uid payload) (finishUpdate payload m folder)
      (fun db => db.changeFlags [messageId] { seen := payload.seen, flagged := payload.flagged })
      c := by
  have kept := untouched_run (untouched_apply folder.imapPath m.uid payload) untouched
  cases applied : (applyFlags folder.imapPath m.uid payload c).1 with
  | error e =>
    apply finishes_of
    · rw [run_bind_error applied, applied]
      exact ⟨Iff.rfl, rfl, kept.1⟩
    · rw [run_bind_error applied]
      exact fun ok => by contradiction
  | ok u =>
    apply finishes_of
    · rw [run_bind_ok applied, applied]
      exact ⟨⟨fun _ => rfl, fun _ => rfl⟩, rfl, kept.1⟩
    · rw [run_bind_ok applied]
      intro _ d session
      refine ⟨rfl, session.trans ?_⟩
      show (applyFlags folder.imapPath m.uid payload c).2.state.session.changeFlags [m.id] _ = _
      rw [kept.2, same]

theorem delete_finishes {db : Database} {messageId : Nat} {m : Message} {folder : Folder}
    {c : Config Request} (untouched : Untouched db c.state) :
    Finishes db (trashMessage env folder.imapPath m.uid) (finishDelete env messageId m folder)
      (fun db => db.deleteMessage messageId) c := by
  have kept := untouched_run (untouched_trash env folder.imapPath m.uid) untouched
  apply finishes_of
  · exact ⟨Iff.rfl, rfl, kept.1⟩
  · intro _ d session
    refine ⟨rfl, ?_⟩
    show d.state.session.deleteMessage messageId = _
    rw [session, kept.2]

theorem update_flags_recorded_iff (db : Database) (servers : Servers) (outcomes : List Outcome)
    (messageId : Nat) (payload : FlagsUpdate) :
    Recorded (updateFlags env messageId payload) (flagCommands env messageId payload)
        (fun db => db.changeFlags [messageId] { seen := payload.seen, flagged := payload.flagged })
        ⟨begin db servers, outcomes⟩ ↔
      ((flagCommands env messageId payload ⟨begin db servers, outcomes⟩).1 = .ok () →
        LogoutDone (flagCommands env messageId payload ⟨begin db servers, outcomes⟩).2) := by
  rw [update_flags_shape]
  apply recorded_iff
  intro m folder c same untouched
  exact update_finishes payload same untouched

theorem delete_message_recorded_iff (db : Database) (servers : Servers) (outcomes : List Outcome)
    (messageId : Nat) :
    Recorded (deleteMessage env messageId) (trashCommands env messageId)
        (fun db => db.deleteMessage messageId) ⟨begin db servers, outcomes⟩ ↔
      ((trashCommands env messageId ⟨begin db servers, outcomes⟩).1 = .ok () →
        LogoutDone (trashCommands env messageId ⟨begin db servers, outcomes⟩).2) := by
  rw [delete_message_shape]
  apply recorded_iff
  intro m folder c _ untouched
  exact delete_finishes env untouched

/- The STORE batches of one folder. -/
def storeFolder (path : String) (rows : List Message) : Action Unit :=
  foldEach (batches (rows.map fun m => m.uid)) () fun _ uids => markSeen path uids

/-- The rows of the folders whose batches all succeeded; a failure ends the account. -/
def storeFolders : List (String × List Message) → Config Request → List Message × Config Request
  | [], c => ([], c)
  | (path, rows) :: rest, c =>
      match storeFolder path rows c with
      | (.error _, c') => ([], c')
      | (.ok (), c') => (rows ++ (storeFolders rest c').1, (storeFolders rest c').2)

/- What one account's calls give: the rows whose STORE succeeded, whether the LOGOUT did,
   and the outcomes that are left. -/
structure Turn where
  rows : List Message
  closed : Prop
  outcomes : List Outcome

/-- The account alone, on the servers as the request found them. -/
def accountTurn (db : Database) (servers : Servers) (group : Nat × List Message)
    (outcomes : List Outcome) : Turn :=
  match db.accountById group.1 with
  | none => ⟨[], True, outcomes⟩
  | some account =>
      match openImapConnection env account ⟨begin db servers, outcomes⟩ with
      | (.error _, c) => ⟨[], True, c.outcomes⟩
      | (.ok (), c) =>
          let stored := storeFolders (groupBy (pathOf db) group.2) c
          ⟨stored.1, LogoutDone stored.2, stored.2.outcomes.tail⟩

/-- Every account takes its turn, whatever came of the others. -/
def accountTurns (db : Database) (servers : Servers) :
    List (Nat × List Message) → List Outcome → List Turn
  | [], _ => []
  | group :: rest, outcomes =>
      let turn := accountTurn env db servers group outcomes
      turn :: accountTurns db servers rest turn.outcomes

def allTurns (db : Database) (servers : Servers) (outcomes : List Outcome)
    (accountId folderId : Option Nat) : List Turn :=
  accountTurns env db servers
    (groupBy (fun m => m.accountId) (unreadRows db accountId folderId)) outcomes

def storedRows (turns : List Turn) : List Message := turns.flatMap Turn.rows

/-- The rows of the folders whose batches all succeeded are read, and their number is the
answer. -/
def MarkedExactly (db : Database) (servers : Servers) (outcomes : List Outcome)
    (accountId folderId : Option Nat) : Prop :=
  (markAllRead env accountId folderId ⟨begin db servers, outcomes⟩).1 =
      .ok (storedRows (allTurns env db servers outcomes accountId folderId)).length ∧
    (markAllRead env accountId folderId ⟨begin db servers, outcomes⟩).2.state.stored =
      db.changeFlags ((storedRows (allTurns env db servers outcomes accountId folderId)).map
        Message.id) { seen := some true }

/- The session after these rows were marked. -/
def marked (session : Database) (rows : List Message) : Database :=
  session.changeFlags (rows.map Message.id) { seen := some true }

theorem apply_to_again (change : FlagChange) (ids ids' : List Nat) (m : Message) :
    change.applyTo ids' (change.applyTo ids m) = change.applyTo (ids ++ ids') m := by
  have twice : ∀ m : Message, change.apply (change.apply m) = change.apply m := by
    intro m
    unfold FlagChange.apply
    cases change.seen <;> cases change.flagged <;> cases change.answered <;> rfl
  unfold FlagChange.applyTo
  have same : (change.apply m).id = m.id := rfl
  by_cases first : m.id ∈ ids
  · by_cases second : m.id ∈ ids' <;> simp [first, second, same, twice]
  · by_cases second : m.id ∈ ids' <;> simp [first, second]

theorem with_messages_eq {db db' : Database} (accounts : db.accounts = db'.accounts)
    (folders : db.folders = db'.folders) (rows : db.messages.rows = db'.messages.rows) :
    db = db' := by
  obtain ⟨_, _, ⟨_, _, _⟩, _, _, _, _, _⟩ := db
  obtain ⟨_, _, ⟨_, _, _⟩, _, _, _, _, _⟩ := db'
  simp only at accounts folders rows
  subst accounts folders rows
  rfl

theorem change_flags_again (db : Database) (ids ids' : List Nat) (change : FlagChange) :
    (db.changeFlags ids change).changeFlags ids' change = db.changeFlags (ids ++ ids') change := by
  refine with_messages_eq rfl rfl ?_
  simp only [Database.changeFlags, Database.withMessages, change_flags_rows, List.map_map]
  apply List.map_congr_left
  intro m _
  exact apply_to_again change ids ids' m

theorem marked_again (session : Database) (rows rows' : List Message) :
    marked (marked session rows) rows' = marked session (rows ++ rows') := by
  unfold marked
  rw [change_flags_again, List.map_append]

theorem marked_nothing (session : Database) : marked session [] = session := by
  refine with_messages_eq rfl rfl ?_
  simp only [marked, Database.changeFlags, Database.withMessages, change_flags_rows]
  refine (List.map_congr_left fun m _ => ?_).trans (List.map_id _)
  simp [FlagChange.applyTo]

/- The request beside an account that takes its turn alone: they agree on the outcomes to
   come and on the account's own server. -/
structure Beside (account : Nat) (session : Database) (base : Servers) (c c' : Config Request) :
    Prop where
  outcomes : c.outcomes = c'.outcomes
  server : c.state.servers account = c'.state.servers account
  session : c.state.session = session
  others : ∀ other, other ≠ account → c.state.servers other = base other

def Joined (account : Nat) (session : Database) (base : Servers) (c c' : Config Request) : Prop :=
  Beside account session base c c' ∧ ∃ selected, c.state.client = some ⟨account, selected⟩ ∧
    c'.state.client = some ⟨account, selected⟩

section Beside
variable {account : Nat} {session : Database} {base : Servers}

theorem beside_next {c c' : Config Request} (beside : Beside account session base c c') :
    Beside account session base ⟨c.state, c.outcomes.tail⟩ ⟨c'.state, c'.outcomes.tail⟩ :=
  ⟨by rw [beside.outcomes], beside.server, beside.session, beside.others⟩

theorem beside_imap {A : Type} {effect : ImapServer → Option Selected →
      Except PyException (A × ImapServer × Option Selected)} :
    Paired (Joined account session base) (imapCall effect) (imapCall effect)
      (fun _ => Joined account session base) (Beside account session base) := by
  apply paired_call
  · exact fun _ _ joined => joined.1.outcomes
  · rintro c c' ⟨beside, selected, client, client'⟩
    simp only [client, client', beside.server]
    cases result : effect (c'.state.servers account) selected with
    | error e => exact Or.inr ⟨e, rfl, rfl⟩
    | ok answer =>
      obtain ⟨a, server, chosen⟩ := answer
      have after : Joined account session base
          ⟨c.state.answered ⟨account, selected⟩ server chosen, c.outcomes.tail⟩
          ⟨c'.state.answered ⟨account, selected⟩ server chosen, c'.outcomes.tail⟩ := by
        refine ⟨⟨by rw [beside.outcomes], ?_, beside.session, fun other ne => ?_⟩,
          chosen, rfl, rfl⟩
        · simp [Request.answered]
        · show Function.update c.state.servers account server other = base other
          rw [Function.update_of_ne ne]
          exact beside.others other ne
      exact Or.inl ⟨a, _, _, rfl, rfl, after, after.1⟩
  · exact fun _ _ joined => beside_next joined.1

theorem beside_logout {c c' : Config Request} (beside : Beside account session base c c') :
    ((logout c).1 = .ok () ↔ LogoutDone c') ∧
      Beside account session base (logout c).2 ⟨c'.state, c'.outcomes.tail⟩ := by
  obtain ⟨closed, _, sessions, servers, outcomes⟩ := logout_result c
  refine ⟨?_, by rw [outcomes, beside.outcomes], by rw [servers]; exact beside.server,
    sessions.trans beside.session, by rw [servers]; exact beside.others⟩
  rw [closed, LogoutDone, LogoutDone, beside.outcomes]

theorem beside_token : Paired (Beside account session base) (acquireToken env) (acquireToken env)
    (fun _ => Beside account session base) (Beside account session base) := by
  unfold acquireToken
  apply paired_bind (Q := fun _ => Beside account session base)
  · apply paired_call
    · exact fun _ _ beside => beside.outcomes
    · intro c c' beside
      exact Or.inl ⟨(), c.state, c'.state, rfl, rfl, beside_next beside, beside_next beside⟩
    · exact fun _ _ beside => beside_next beside
  · intro _
    split
    · apply paired_modify
      exact fun c c' beside => ⟨beside.outcomes, beside.server, beside.session, beside.others⟩
    · exact paired_pure fun _ _ beside => beside

theorem beside_open {owner : Account} (own : owner.id = account) :
    Paired (Beside account session base) (openImapConnection env owner)
      (openImapConnection env owner) (fun _ => Joined account session base)
      (Beside account session base) := by
  apply paired_bind (Q := fun _ => Beside account session base)
  · unfold acquireImapToken
    cases owner.protocol with
    | imapBasic => exact paired_pure fun _ _ beside => beside
    | oauthMicrosoft => exact beside_token env
  · intro _
    apply paired_call
    · exact fun _ _ beside => beside.outcomes
    · intro c c' beside
      have next := beside_next beside
      exact Or.inl ⟨(), _, _, rfl, rfl, ⟨⟨next.outcomes, next.server, next.session, next.others⟩,
        none, by rw [own], by rw [own]⟩, ⟨next.outcomes, next.server, next.session, next.others⟩⟩
    · exact fun _ _ beside => beside_next beside

theorem beside_mark_seen (path : String) (uids : List Nat) :
    Paired (Joined account session base) (markSeen path uids) (markSeen path uids)
      (fun _ => Joined account session base) (Beside account session base) := by
  unfold markSeen
  split
  · exact paired_pure fun _ _ joined => joined
  · apply paired_bind (Q := fun _ => Joined account session base)
    · unfold selectFolder
      exact beside_imap
    · intro _
      unfold addFlags changeSelected onSelected
      exact beside_imap

theorem beside_store (path : String) (rows : List Message) :
    Paired (Joined account session base) (storeFolder path rows) (storeFolder path rows)
      (fun _ => Joined account session base) (Beside account session base) :=
  paired_fold_each (fun uids _ _ => beside_mark_seen path uids) ()

theorem mark_folder_run (path : String) (rows : List Message) {c c' : Config Request}
    (joined : Joined account session base c c') :
    ((storeFolder path rows c').1 = .ok () ∧ (markFolder path rows c).1 = .ok rows.length ∧
        Joined account (marked session rows) base (markFolder path rows c).2
          (storeFolder path rows c').2) ∨
      ∃ e, (storeFolder path rows c').1 = .error e ∧ (markFolder path rows c).1 = .error e ∧
        Beside account session base (markFolder path rows c).2 (storeFolder path rows c').2 := by
  have shape : markFolder path rows = storeFolder path rows >>= fun _ =>
      changeRows (rows.map Message.id) { seen := some true } >>= fun _ => pure rows.length := rfl
  rw [shape]
  rcases beside_store path rows c c' joined with ⟨u, ok, ok', after⟩ | ⟨e, fails, fails', after⟩
  · rw [run_bind_ok ok]
    obtain ⟨⟨outcomes, server, sessions, others⟩, client⟩ := after
    refine Or.inl ⟨ok', rfl, ⟨outcomes, server, ?_, others⟩, client⟩
    show (storeFolder path rows c).2.state.session.changeFlags _ _ = _
    rw [sessions, marked]
  · rw [run_bind_error fails]
    exact Or.inr ⟨e, fails', rfl, after⟩

/- The loop over the folders marks what the batches alone would have stored. -/
theorem mark_folders_run (groups : List (String × List Message)) {session : Database}
    {c c' : Config Request} (joined : Joined account session base c c') :
    (markFolders groups c).1 = .ok (storeFolders groups c').1.length ∧
      Beside account (marked session (storeFolders groups c').1) base (markFolders groups c).2
        (storeFolders groups c').2 := by
  induction groups generalizing session c c' with
  | nil =>
    refine ⟨rfl, ?_⟩
    show Beside account (marked session []) base c c'
    rw [marked_nothing]
    exact joined.1
  | cons group rest ih =>
    obtain ⟨path, rows⟩ := group
    have first := mark_folder_run path rows joined
    have attempted : (attempt (markFolder path rows) c).1 = .ok (markFolder path rows c).1 := rfl
    have handled : (attempt (markFolder path rows) c).2 = (markFolder path rows c).2 := rfl
    unfold markFolders storeFolders
    rw [run_bind_ok attempted, handled]
    cases run : storeFolder path rows c' with
    | mk result d' =>
      rw [run] at first
      rcases first with ⟨ok', ok, after⟩ | ⟨e, fails', fails, after⟩
      · have succeeded : result = .ok () := ok'
        subst succeeded
        obtain ⟨count, finished⟩ := ih after
        rw [ok]
        dsimp only
        rw [run_bind_ok count, List.length_append, ← marked_again]
        exact ⟨rfl, finished⟩
      · have failed : result = .error e := fails'
        subst failed
        rw [fails]
        refine ⟨rfl, ?_⟩
        show Beside account (marked session []) base (markFolder path rows c).2 d'
        rw [marked_nothing]
        exact after

end Beside

section Opened
variable {db session : Database} {group : Nat × List Message} {c : Config Request}

theorem mark_account_absent (familiar : Familiar db session) (current : c.state.session = session)
    (absent : db.accountById group.1 = none) : markAccount env group c = (.ok 0, c) := by
  have looked : (FaultyCalls.read Request.session c : _ × Config Request) =
      ((.ok session : Except PyException Database), c) := by
    rw [← current]
    rfl
  have accounts : session.accountById group.1 = none := by
    rw [Database.accountById, familiar.1]
    exact absent
  unfold markAccount
  rw [run_bind_ok (congrArg Prod.fst looked), looked, accounts]
  rfl

/- The account's loop with its handler taken apart: what follows an open connection. -/
theorem mark_account_opened (familiar : Familiar db session) (current : c.state.session = session)
    {owner : Account} (known : db.accountById group.1 = some owner) :
    ((openImapConnection env owner c).1 = .ok () → markAccount env group c =
      (markFolders (groupBy (pathOf db) group.2) >>= fun n => logout >>= fun _ => pure n)
        (openImapConnection env owner c).2) ∧
    ∀ e, (openImapConnection env owner c).1 = .error e →
      markAccount env group c = (.ok 0, (openImapConnection env owner c).2) := by
  have looked : (FaultyCalls.read Request.session c : _ × Config Request) =
      ((.ok session : Except PyException Database), c) := by
    rw [← current]
    rfl
  have accounts : session.accountById group.1 = some owner := by
    rw [Database.accountById, familiar.1]
    exact known
  have paths : pathOf session = pathOf db := path_of_congr familiar.2
  have attempted : (attempt (openImapConnection env owner) c : _ × Config Request) =
      ((.ok (openImapConnection env owner c).1 : Except PyException _),
        (openImapConnection env owner c).2) := rfl
  unfold markAccount
  rw [run_bind_ok (congrArg Prod.fst looked), looked, accounts, paths]
  dsimp only
  rw [run_bind_ok (congrArg Prod.fst attempted), attempted]
  constructor
  · intro opened
    rw [opened]
  · intro e fails
    rw [fails]
    rfl

end Opened

/-- One turn of the request: what the account alone would have stored is marked, and the
request goes on exactly when the LOGOUT succeeded. -/
theorem mark_account_run {db : Database} {servers base : Servers} {session : Database}
    {group : Nat × List Message} {c : Config Request} (familiar : Familiar db session)
    (beside : Beside group.1 session base c ⟨begin db servers, c.outcomes⟩) {turn : Turn}
    (own : accountTurn env db servers group c.outcomes = turn) :
    ((markAccount env group c).1 = .ok turn.rows.length ↔ turn.closed) ∧
      ((markAccount env group c).1 = .ok turn.rows.length ∨
        ∃ e, (markAccount env group c).1 = .error e) ∧
      (markAccount env group c).2.state.session = marked session turn.rows ∧
      (markAccount env group c).2.outcomes = turn.outcomes ∧
      ∀ other, other ≠ group.1 → (markAccount env group c).2.state.servers other = base other := by
  unfold accountTurn at own
  cases found : db.accountById group.1 with
  | none =>
    rw [found] at own
    subst own
    rw [mark_account_absent env familiar beside.session found]
    refine ⟨⟨fun _ => trivial, fun _ => rfl⟩, Or.inl rfl, ?_, rfl, beside.others⟩
    rw [marked_nothing]
    exact beside.session
  | some owner =>
    rw [found] at own
    dsimp only at own
    have ownId : owner.id = group.1 := by simpa using List.find?_some found
    obtain ⟨goesOn, stops⟩ := mark_account_opened env familiar beside.session found
    have opened := beside_open env ownId c _ beside
    cases run : openImapConnection env owner ⟨begin db servers, c.outcomes⟩ with
    | mk result d' =>
      rw [run] at opened own
      rcases opened with ⟨u, ok, ok', joined⟩ | ⟨e, fails, fails', kept⟩
      · have succeeded : result = .ok () := ok'
        subst succeeded
        obtain ⟨count, after⟩ := mark_folders_run (groupBy (pathOf db) group.2) joined
        obtain ⟨closed, out⟩ := beside_logout after
        dsimp only at own
        subst own
        rw [goesOn ok, run_bind_ok count, ← closed]
        cases ended : (logout (markFolders (groupBy (pathOf db) group.2)
            (openImapConnection env owner c).2).2).1 with
        | ok _ =>
          rw [run_bind_ok ended]
          exact ⟨⟨fun _ => rfl, fun _ => rfl⟩, Or.inl rfl, out.session, out.outcomes, out.others⟩
        | error e =>
          rw [run_bind_error ended]
          exact ⟨⟨fun ok => by contradiction, fun ok => by contradiction⟩, Or.inr ⟨e, rfl⟩,
            out.session, out.outcomes, out.others⟩
      · have failed : result = .error e := fails'
        subst failed
        dsimp only at own
        subst own
        rw [stops e fails]
        refine ⟨⟨fun _ => trivial, fun _ => rfl⟩, Or.inl rfl, ?_, kept.outcomes, kept.others⟩
        rw [marked_nothing]
        exact kept.session

/-- The loop over the accounts: each one meets its server as the request found it. -/
theorem mark_accounts_run {db : Database} {servers : Servers}
    (groups : List (Nat × List Message)) (distinct : (groups.map Prod.fst).Nodup) {n : Nat}
    {session : Database} {c : Config Request} (familiar : Familiar db session)
    (current : c.state.session = session)
    (fresh : ∀ g ∈ groups, c.state.servers g.1 = servers g.1) {turns : List Turn}
    (own : accountTurns env db servers groups c.outcomes = turns) :
    ((foldEach groups n (fun updated accountRows => do
        let n ← markAccount env accountRows
        pure (updated + n)) c).1 = .ok (n + (storedRows turns).length) ↔
          ∀ turn ∈ turns, turn.closed) ∧
      ((∀ turn ∈ turns, turn.closed) →
        (foldEach groups n (fun updated accountRows => do
          let n ← markAccount env accountRows
          pure (updated + n)) c).2.state.session = marked session (storedRows turns)) := by
  induction groups generalizing n session c turns with
  | nil =>
    subst own
    refine ⟨⟨fun _ turn mem => by contradiction, fun _ => rfl⟩, fun _ => ?_⟩
    show c.state.session = marked session []
    rw [marked_nothing]
    exact current
  | cons group rest ih =>
    rw [List.map_cons, List.nodup_cons] at distinct
    have beside : Beside group.1 session c.state.servers c ⟨begin db servers, c.outcomes⟩ :=
      ⟨rfl, fresh group List.mem_cons_self, current, fun _ _ => rfl⟩
    obtain ⟨closed, answer, after, outcomes, others⟩ :=
      mark_account_run env familiar beside (Eq.refl (accountTurn env db servers group c.outcomes))
    subst own
    have all : (∀ turn ∈ accountTurns env db servers (group :: rest) c.outcomes, turn.closed) ↔
        (accountTurn env db servers group c.outcomes).closed ∧
          ∀ turn ∈ accountTurns env db servers rest
            (accountTurn env db servers group c.outcomes).outcomes, turn.closed := by
      simp [accountTurns]
    have rows : storedRows (accountTurns env db servers (group :: rest) c.outcomes) =
        (accountTurn env db servers group c.outcomes).rows ++
          storedRows (accountTurns env db servers rest
            (accountTurn env db servers group c.outcomes).outcomes) := by
      simp [storedRows, accountTurns]
    rw [all, rows, List.length_append, ← Nat.add_assoc, ← marked_again, foldEach]
    rcases answer with ok | ⟨e, fails⟩
    · have step : ((markAccount env group >>= fun more => pure (n + more) : Action Nat) c).1 =
          .ok (n + (accountTurn env db servers group c.outcomes).rows.length) := by
        rw [run_bind_ok ok]
        rfl
      have next : ((markAccount env group >>= fun more => pure (n + more) : Action Nat) c).2 =
          (markAccount env group c).2 := by
        rw [run_bind_ok ok]
        rfl
      rw [run_bind_ok step, next]
      have later := ih distinct.2 (familiar_change familiar) after
        (fun g mem => by
          rw [others g.1 (fun same => distinct.1 (List.mem_map.mpr ⟨g, mem, same⟩))]
          exact fresh g (List.mem_cons_of_mem _ mem))
        (n := n + (accountTurn env db servers group c.outcomes).rows.length)
        (congrArg (accountTurns env db servers rest) outcomes)
      have through := closed.mp ok
      exact ⟨by rw [later.1]; simp [through], fun shut => later.2 shut.2⟩
    · have open' : ¬ (accountTurn env db servers group c.outcomes).closed := by
        rw [← closed, fails]
        intro same
        contradiction
      have stop : ((markAccount env group >>= fun more => pure (n + more) : Action Nat) c).1 =
          .error e := by
        rw [run_bind_error fails]
      rw [run_bind_error stop]
      exact ⟨by simp [open'], fun shut => absurd shut.1 open'⟩

theorem erase_dups_nodup {K : Type} [BEq K] [LawfulBEq K] (keys : List K) :
    keys.eraseDups.Nodup := by
  induction size : keys.length using Nat.strongRecOn generalizing keys with
  | ind n ih =>
    cases keys with
    | nil => exact List.nodup_nil
    | cons key rest =>
      rw [List.eraseDups_cons, List.nodup_cons, List.mem_eraseDups]
      have shorter := List.length_filter_le (fun k => !k == key) rest
      rw [List.length_cons] at size
      exact ⟨by simp, ih _ (by omega) _ rfl⟩

theorem group_keys_nodup {R K : Type} [BEq K] [LawfulBEq K] (key : R → K) (rows : List R) :
    ((groupBy key rows).map Prod.fst).Nodup := by
  unfold groupBy
  rw [List.map_map]
  exact (List.map_id _).symm ▸ erase_dups_nodup _

theorem mark_all_read_shape (db : Database) (servers : Servers) (outcomes : List Outcome)
    (accountId folderId : Option Nat) :
    markAllRead env accountId folderId ⟨begin db servers, outcomes⟩ =
      (markAccounts env (groupBy (fun m => m.accountId) (unreadRows db accountId folderId)) >>=
        fun updated => commit >>= fun _ => pure updated) ⟨begin db servers, outcomes⟩ := by
  have looked : (FaultyCalls.read Request.session ⟨begin db servers, outcomes⟩ :
      _ × Config Request).1 = (.ok db : Except PyException Database) := rfl
  unfold markAllRead
  rw [run_bind_ok looked]
  rfl

theorem mark_all_read_iff (db : Database) (servers : Servers) (outcomes : List Outcome)
    (accountId folderId : Option Nat) :
    MarkedExactly env db servers outcomes accountId folderId ↔
      ∀ turn ∈ allTurns env db servers outcomes accountId folderId, turn.closed := by
  obtain ⟨count, after⟩ := mark_accounts_run env (n := 0) (c := ⟨begin db servers, outcomes⟩)
    (groupBy (fun m => m.accountId) (unreadRows db accountId folderId)) (group_keys_nodup _ _)
    (⟨rfl, rfl⟩ : Familiar db db) rfl (fun _ _ => rfl)
    (Eq.refl (accountTurns env db servers
      (groupBy (fun m => m.accountId) (unreadRows db accountId folderId)) outcomes))
  rw [Nat.zero_add] at count
  unfold MarkedExactly
  rw [mark_all_read_shape, allTurns, ← count]
  unfold markAccounts
  cases answer : (foldEach (groupBy (fun m => m.accountId) (unreadRows db accountId folderId)) 0
      (fun updated accountRows => do
        let n ← markAccount env accountRows
        pure (updated + n)) ⟨begin db servers, outcomes⟩).1 with
  | error e =>
    rw [run_bind_error answer]
    exact ⟨fun exactly => exactly.1, fun fails => by contradiction⟩
  | ok n =>
    rw [run_bind_ok answer]
    refine ⟨fun exactly => exactly.1, fun same => ⟨same, ?_⟩⟩
    exact after (count.mp (answer.trans same))

/-- A change made on the server is recorded, unless a LOGOUT fails after it. -/
theorem server_changes_recorded_iff (db : Database) (servers : Servers) (outcomes : List Outcome) :
    (∀ messageId payload,
      Recorded (updateFlags env messageId payload) (flagCommands env messageId payload)
          (fun db => db.changeFlags [messageId] { seen := payload.seen, flagged := payload.flagged })
          ⟨begin db servers, outcomes⟩ ↔
        ((flagCommands env messageId payload ⟨begin db servers, outcomes⟩).1 = .ok () →
          LogoutDone (flagCommands env messageId payload ⟨begin db servers, outcomes⟩).2)) ∧
    (∀ messageId,
      Recorded (deleteMessage env messageId) (trashCommands env messageId)
          (fun db => db.deleteMessage messageId) ⟨begin db servers, outcomes⟩ ↔
        ((trashCommands env messageId ⟨begin db servers, outcomes⟩).1 = .ok () →
          LogoutDone (trashCommands env messageId ⟨begin db servers, outcomes⟩).2)) ∧
    ∀ accountId folderId,
      MarkedExactly env db servers outcomes accountId folderId ↔
        ∀ turn ∈ allTurns env db servers outcomes accountId folderId, turn.closed :=
  ⟨update_flags_recorded_iff env db servers outcomes,
    delete_message_recorded_iff env db servers outcomes,
    mark_all_read_iff env db servers outcomes⟩

def currentInbox : Mailbox := { InboxRowTargets.recreated with uidvalidity := 1 }

def currentServers : Servers := fun _ =>
  ⟨fun path => if path = "INBOX" then some currentInbox else none⟩

/- Connect, SELECT and STORE succeed, the LOGOUT fails. -/
def lostAtLogout : List Outcome := [.done, .done, .done, .failed false]

theorem failed_logout_drops_the_change :
    ¬ Recorded (updateFlags InboxRowTargets.noSpecials 1 ⟨some true, none⟩)
      (flagCommands InboxRowTargets.noSpecials 1 ⟨some true, none⟩)
      (fun db => db.changeFlags [1] { seen := some true })
      ⟨begin InboxRowTargets.staleDb currentServers, lostAtLogout⟩ := by
  intro recorded
  have answered := (recorded.1 rfl).1
  contradiction

end InboxRecordedChanges
