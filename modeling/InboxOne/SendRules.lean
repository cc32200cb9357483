import InboxOne.RouteRules

/-!
Rules for reading a body and for sending. Sending only adds to the servers: what is
submitted is filed as new mail, a Sent folder may be created and a copy appended to it.
-/
namespace InboxSendRules
open FaultyCalls InboxPython InboxMailbox InboxTables InboxDatabase InboxFolderSync InboxImapClient
open InboxMessageRoutes InboxImapRules InboxRouteRules

theorem put_same {servers : Servers} {account : Nat} {path : String} {mb : Mailbox}
    (here : (servers account).mailbox path = some mb) :
    putMailbox servers account path mb = servers := by
  have server : (servers account).put path mb = servers account := by
    unfold ImapServer.put
    rw [← here, Function.update_eq_self]
  rw [putMailbox, server, Function.update_eq_self]

variable {A : Type} {I J : Fact} {quiet : Bool} {account : Nat} (env : Environment)

/-- Nothing is said of a state; every failure is accepted. -/
def Anything : Fact := fun _ _ => True

section Reading
variable {path : String} {uid : Nat} {m : Message} {folder : Folder} {owner : Account}

theorem meets_fetch_body {marking : Bool}
    (reads : marking = true → ∀ servers db mb, I servers db → (servers account).mailbox path = some mb →
      J (putMailbox servers account path (storeFlags (fun old => old ∪ {.seen}) [uid] mb)) db)
    (peeks : marking = false → ∀ servers db, I servers db → J servers db) :
    Meets (When quiet (At I account (some ⟨path, !marking⟩))) (fetchBody uid (!marking))
      (fun _ => When quiet (At J account (some ⟨path, !marking⟩))) (When quiet (Holds Anything)) := by
  unfold fetchBody onSelected
  apply meets_imap
  · intro s raw server chosen holds ok
    simp only at ok
    cases found : (s.servers account).mailbox path with
    | none => rw [found] at ok; contradiction
    | some mb =>
      rw [found] at ok
      simp only [Except.ok.injEq, Prod.mk.injEq] at ok
      obtain ⟨_, sameServer, sameChosen⟩ := ok
      subst sameServer
      subst sameChosen
      refine ⟨⟨?_, rfl⟩, fun _ => trivial⟩
      cases marking with
      | true => exact reads rfl s.servers s.session mb holds.1 found
      | false =>
        have unchanged := put_same found
        show J (putMailbox s.servers account path mb) s.session
        rw [unchanged]
        exact peeks rfl s.servers s.session holds.1
  · exact fun _ _ _ _ _ => trivial
  · exact fun _ _ _ _ => trivial

theorem meets_fetch_selected {marking : Bool}
    (reads : marking = true → ∀ servers db mb, I servers db → (servers account).mailbox path = some mb →
      mb.uidvalidity = m.uidvalidity →
      J (putMailbox servers account path (storeFlags (fun old => old ∪ {.seen}) [m.uid] mb)) db)
    (peeks : marking = false → ∀ servers db, I servers db → J servers db) :
    Meets (When quiet (At I account none)) (fetchSelected m path marking)
      (fun _ => When quiet (Holds J)) (When quiet (Holds Anything)) := by
  have anything : ∀ {K : Fact}, quiet = false → ∀ servers db, K servers db → Anything servers db :=
    fun _ _ _ _ => trivial
  apply meets_bind (meets_select (F := Anything) (fun _ _ _ _ => trivial) anything)
  intro validity
  split
  · exact meets_raise fun c holds => ⟨holds.1, trivial⟩
  · rename_i same
    have validityIs : validity = m.uidvalidity := not_not.mp same
    subst validityIs
    apply meets_bind (meets_open (F := Anything) (fun _ _ _ _ => trivial) anything)
    intro _
    apply meets_bind (meets_fetch_body (J := J) _ _)
    · intro raw
      have raised : Meets (When quiet (At J account (some ⟨path, !marking⟩)))
          (raise .messageNotFound : Action Bytes) (fun _ => When quiet (Holds J))
          (When quiet (Holds Anything)) := meets_raise fun c holds => ⟨holds.1, trivial⟩
      cases raw with
      | none => exact raised
      | some raw =>
        show Meets _ (if raw = [] then (raise PyException.messageNotFound : Action Bytes)
          else pure raw) _ _
        split
        · exact raised
        · exact meets_pure fun c holds => ⟨holds.1, holds.2.1⟩
    · intro marks servers db mb holds found
      obtain ⟨now, mb', found', validity⟩ := holds
      rw [found, Option.some.injEq] at found'
      exact reads marks servers db mb now found (found' ▸ validity)
    · exact fun peek servers db holds => peeks peek servers db holds.1

/- _fetch_raw: a body was read only from the mailbox with the UIDVALIDITY of the row. -/
theorem meets_fetch_raw {marking : Bool} (sameOwner : owner.id = m.accountId)
    (reads : marking = true → ∀ servers db mb, I servers db →
      (servers m.accountId).mailbox folder.imapPath = some mb → mb.uidvalidity = m.uidvalidity →
      J (putMailbox servers m.accountId folder.imapPath
        (storeFlags (fun old => old ∪ {.seen}) [m.uid] mb)) db)
    (peeks : marking = false → ∀ servers db, I servers db → J servers db) :
    Meets (When quiet (Holds I)) (fetchRaw env owner folder m marking)
      (fun _ => When quiet (Holds J)) (When quiet (Holds Anything)) := by
  have raised : ∀ (e : PyException) (P : Config Request → Prop),
      (∀ c, P c → When quiet (Holds Anything) c) →
      Meets P (raise e : Action Bytes) (fun _ => When quiet (Holds J)) (When quiet (Holds Anything)) :=
    fun e P weak => meets_raise weak
  apply meets_bind (meets_attempt (meets_connect env (F := Anything) fun _ _ _ _ => trivial))
  intro opened
  cases opened with
  | error e => exact raised _ _ fun c holds => holds
  | ok _ =>
    rw [sameOwner]
    apply meets_bind (meets_attempt (meets_fetch_selected reads peeks))
    intro result
    cases result with
    | ok raw =>
      apply meets_bind (Q := fun _ => When quiet (Holds J))
      · exact meets_attempt_same (meets_logout (I := J) fun _ _ _ holds => holds)
      · exact fun _ => meets_pure fun c holds => holds
    | error e =>
      apply meets_bind (Q := fun _ => When quiet (Holds Anything))
      · exact meets_attempt_same (meets_logout (I := Anything) fun _ _ _ holds => holds)
      · exact fun _ => raised _ _ fun c holds => holds

end Reading

section Untouched
variable {db : Database}

/-- Neither what is committed nor what the session sees has changed. -/
def Untouched (db : Database) (s : Request) : Prop := s.stored = db ∧ s.session = db

theorem untouched_call {lost : PyException} {effect : Request → Except PyException (A × Request)}
    (keeps : ∀ s a s', effect s = .ok (a, s') → s'.stored = s.stored ∧ s'.session = s.session) :
    Meets (When quiet (Untouched db)) (call lost effect) (fun _ => When quiet (Untouched db))
      (When quiet (Untouched db)) := by
  apply meets_call_when
  · intro s a s' holds ok
    obtain ⟨stored, session⟩ := keeps s a s' ok
    have after : Untouched db s' := ⟨stored.trans holds.1, session.trans holds.2⟩
    exact ⟨after, fun _ => after⟩
  · exact fun _ _ holds _ => holds
  · exact fun _ _ holds => holds

theorem untouched_imap {effect : ImapServer → Option Selected →
      Except PyException (A × ImapServer × Option Selected)} :
    Meets (When quiet (Untouched db)) (imapCall effect) (fun _ => When quiet (Untouched db))
      (When quiet (Untouched db)) := by
  apply untouched_call
  intro s a s' ok
  cases connection : s.client with
  | none => rw [connection] at ok; contradiction
  | some client =>
    rw [connection] at ok
    simp only at ok
    cases result : effect (s.servers client.account) client.selected with
    | error e => rw [result] at ok; contradiction
    | ok answer =>
      rw [result] at ok
      simp only [Except.ok.injEq, Prod.mk.injEq] at ok
      rw [← ok.2]
      exact ⟨rfl, rfl⟩

/- A renewed token cache is committed, with a session that holds nothing else. -/
theorem untouched_connect {owner : Account} :
    Meets (When quiet (Untouched db)) (openImapConnection env owner)
      (fun _ => When quiet (Untouched db)) (When quiet (Untouched db)) := by
  apply meets_bind (Q := fun _ => When quiet (Untouched db))
  · unfold acquireImapToken
    cases owner.protocol with
    | imapBasic => exact meets_pure fun _ holds => holds
    | oauthMicrosoft =>
      apply meets_bind (Q := fun _ => When quiet (Untouched db))
      · apply untouched_call
        intro s a s' ok
        rw [Except.ok.injEq, Prod.mk.injEq] at ok
        rw [← ok.2]
        exact ⟨rfl, rfl⟩
      · intro _
        split
        · exact meets_modify_when fun s holds => ⟨holds.2, holds.2⟩
        · exact meets_pure fun _ holds => holds
  · intro _
    apply untouched_call
    intro s a s' ok
    rw [Except.ok.injEq, Prod.mk.injEq] at ok
    rw [← ok.2]
    exact ⟨rfl, rfl⟩

theorem untouched_fetch_raw {owner : Account} {folder : Folder} {m : Message} {marking : Bool} :
    Meets (When quiet (Untouched db)) (fetchRaw env owner folder m marking)
      (fun _ => When quiet (Untouched db)) (When quiet (Untouched db)) := by
  have raised : ∀ e : PyException, Meets (When quiet (Untouched db)) (raise e : Action Bytes)
      (fun _ => When quiet (Untouched db)) (When quiet (Untouched db)) :=
    fun e => meets_raise fun _ holds => holds
  have selected : Meets (When quiet (Untouched db)) (fetchSelected m folder.imapPath marking)
      (fun _ => When quiet (Untouched db)) (When quiet (Untouched db)) := by
    apply meets_bind (Q := fun _ => When quiet (Untouched db))
    · unfold selectFolderUidvalidity selectFolder
      exact untouched_imap
    · intro validity
      split
      · exact raised _
      · apply meets_bind (Q := fun _ => When quiet (Untouched db))
        · exact untouched_imap
        · intro _
          apply meets_bind (Q := fun _ => When quiet (Untouched db))
          · unfold fetchBody onSelected
            exact untouched_imap
          · intro raw
            cases raw with
            | none => exact raised _
            | some raw =>
              show Meets _ (if raw = [] then (raise PyException.messageNotFound : Action Bytes)
                else pure raw) _ _
              split
              · exact raised _
              · exact meets_pure fun _ holds => holds
  apply meets_bind (meets_attempt_same (untouched_connect env))
  intro opened
  cases opened with
  | error e => exact raised _
  | ok _ =>
    apply meets_bind (meets_attempt_same selected)
    intro result
    apply meets_bind (Q := fun _ => When quiet (Untouched db))
    · apply meets_attempt_same
      apply untouched_call
      intro s a s' ok
      rw [Except.ok.injEq, Prod.mk.injEq] at ok
      rw [← ok.2]
      exact ⟨rfl, rfl⟩
    · intro _
      cases result with
      | ok raw => exact meets_pure fun _ holds => holds
      | error e => exact raised _

end Untouched

/-- What survives new mail and new folders. -/
structure Grows (I : Fact) : Prop where
  arrives : ∀ {servers : Servers} {db : Database} {account : Nat} {path : String} {mb : Mailbox}
    (gap : Nat) (content : Content), I servers db → (servers account).mailbox path = some mb →
    I (putMailbox servers account path (mb.arrive gap content)) db
  creates : ∀ {servers : Servers} {db : Database} {account : Nat} {path : String} (validity : Nat),
    I servers db → (servers account).mailbox path = none →
    I (putMailbox servers account path (emptyMailbox validity)) db

/-- The command leaves its server alone, appends a message to it or creates a folder. -/
def Adds (effect : ImapServer → Option Selected →
    Except PyException (A × ImapServer × Option Selected)) : Prop :=
  ∀ server selected a server' selected', effect server selected = .ok (a, server', selected') →
    server' = server ∨
    (∃ path mb content, server.mailbox path = some mb ∧
      server' = server.put path (mb.arrive 0 content)) ∨
    ∃ path validity, server.mailbox path = none ∧
      server' = server.put path (emptyMailbox validity)

section Sending
variable {Detail Attachment Draft : Type} (mail : MailFormat Detail Attachment Draft)

theorem meets_adding {effect : ImapServer → Option Selected →
      Except PyException (A × ImapServer × Option Selected)} (grows : Grows I) (adds : Adds effect) :
    Meets (When quiet (On I account)) (imapCall effect) (fun _ => When quiet (On I account))
      (When quiet (Holds I)) := by
  intro c holds
  obtain ⟨still, selected, now⟩ := holds
  have called : Meets (When quiet (At I account selected)) (imapCall effect)
      (fun _ => When quiet (On I account)) (When quiet (Holds I)) := by
    apply meets_imap
    · intro s a server chosen here ok
      have after : I (Function.update s.servers account server) s.session := by
        rcases adds _ _ _ _ _ ok with same | ⟨path, mb, content, found, put⟩ | ⟨path, validity, none, put⟩
        · rw [same, Function.update_eq_self]
          exact here.1
        · rw [put]
          exact grows.arrives 0 content here.1 found
        · rw [put]
          exact grows.creates validity here.1 none
      exact ⟨⟨chosen, after, rfl⟩, fun _ => after⟩
    · exact fun _ _ _ here _ => here
    · exact fun _ _ _ here => here
  exact called c ⟨still, now⟩

theorem select_adds (path : String) (readonly : Bool) :
    Meets (When quiet (On I account)) (selectFolder path readonly)
      (fun _ => When quiet (On I account)) (When quiet (Holds I)) := by
  intro c holds
  obtain ⟨still, selected, now⟩ := holds
  have opened : Meets (When quiet (At I account selected)) (selectFolder path readonly)
      (fun _ => When quiet (On I account)) (When quiet (Holds I)) := by
    apply meets_post (meets_open (fun _ _ here _ => here) fun _ _ _ here => here)
    exact fun _ c holds => ⟨holds.1, _, holds.2⟩
  exact opened c ⟨still, now⟩

theorem meets_append_sent {path messageId : String} {content : Content} (grows : Grows I) :
    Meets (When quiet (On I account)) (appendSentMessage env path content messageId)
      (fun _ => When quiet (On I account)) (When quiet (Holds I)) := by
  unfold appendSentMessage
  apply meets_bind (select_adds path true)
  intro _
  apply meets_bind (Q := fun _ => When quiet (On I account))
  · unfold searchMessageId onSelected
    apply meets_adding grows
    intro server selected found server' selected' ok
    left
    cases selected with
    | none => contradiction
    | some s =>
      simp only at ok
      cases here : server.mailbox s.path with
      | none => rw [here] at ok; contradiction
      | some mb =>
        rw [here] at ok
        simp only [Except.ok.injEq, Prod.mk.injEq] at ok
        rw [← ok.2.1, ImapServer.put, ← here, Function.update_eq_self]
  · intro found
    split
    · apply meets_adding grows
      intro server selected _ server' selected' ok
      simp only at ok
      cases here : server.mailbox path with
      | none => rw [here] at ok; contradiction
      | some mb =>
        rw [here] at ok
        simp only [Except.ok.injEq, Prod.mk.injEq] at ok
        exact .inr (.inl ⟨path, mb, _, here, ok.2.1.symm⟩)
    · exact meets_pure fun _ holds => holds

theorem meets_ensure_sent (grows : Grows I) :
    Meets (When quiet (On I account)) (ensureSentFolder env) (fun _ => When quiet (On I account))
      (When quiet (Holds I)) := by
  have unchanged : ∀ {B : Type} (b : B), Meets (When quiet (On I account))
      (imapCall fun server selected => .ok (b, server, selected)) (fun _ => When quiet (On I account))
      (When quiet (Holds I)) := by
    intro B b
    apply meets_adding grows
    intro server selected _ server' selected' ok
    simp only [Except.ok.injEq, Prod.mk.injEq] at ok
    exact .inl ok.2.1.symm
  apply meets_bind (unchanged (env.special .sent))
  intro found
  cases found with
  | some path => exact meets_pure fun _ holds => holds
  | none =>
    apply meets_bind (Q := fun _ => When quiet (On I account))
    · unfold personalNamespace
      cases env.personalPrefix with
      | none => exact meets_pure fun _ holds => holds
      | some personal => exact unchanged personal
    · intro personal
      apply meets_bind (Q := fun _ => When quiet (On I account))
      · apply meets_adding grows
        intro server selected _ server' selected' ok
        simp only at ok
        cases here : server.mailbox (personal ++ "Sent") with
        | some mb => rw [here] at ok; contradiction
        | none =>
          rw [here] at ok
          simp only [Except.ok.injEq, Prod.mk.injEq] at ok
          exact .inr (.inr ⟨_, _, here, ok.2.1.symm⟩)
      · exact fun _ => meets_pure fun _ holds => holds

theorem delivered_keeps (grows : Grows I) {db : Database} (delivered : List Delivery) :
    ∀ servers, I servers db → I (delivered.foldl deliver servers) db := by
  induction delivered with
  | nil => exact fun _ holds => holds
  | cons d rest ih =>
    intro servers holds
    apply ih
    unfold deliver
    split
    · exact holds
    · rename_i mb here
      exact grows.arrives d.gap d.content holds here

/- What is submitted comes back as new mail; the connection stays as it is. -/
theorem meets_submit {P : Request → Prop} (grows : Grows I) (fact : ∀ s, P s → Holds I s)
    (connection : ∀ s servers, P s → I servers s.session → P { s with servers := servers }) :
    Meets (When quiet P) (submit env) (fun _ => When quiet P) (When quiet (Holds I)) := by
  have after : ∀ s, P s → I (env.delivered.foldl deliver s.servers) s.session :=
    fun s holds => delivered_keeps grows env.delivered s.servers (fact s holds)
  apply meets_call_when
  · intro s _ s' holds ok
    simp only [Except.ok.injEq, Prod.mk.injEq, true_and] at ok
    subst ok
    exact ⟨connection s _ holds (after s holds), fun _ => after s holds⟩
  · intro s e _ error
    contradiction
  · exact fun _ s holds => fact s holds

theorem meets_send_smtp {owner : Account} {content : Content} {messageId : String} (grows : Grows I) :
    Meets (When quiet (Holds I)) (sendSmtpAndSave env owner content messageId)
      (fun _ => When quiet (Holds I)) (When quiet (Holds I)) := by
  have submitted : Meets (When quiet (On I owner.id)) (submit env)
      (fun _ => When quiet (On I owner.id)) (When quiet (Holds I)) := by
    apply meets_submit env grows
    · intro s holds
      obtain ⟨_, now⟩ := holds
      exact now.1
    · intro s servers holds after
      obtain ⟨selected, _, client⟩ := holds
      exact ⟨selected, after, client⟩
  have connected : Meets (When quiet (Holds I)) (openImapConnection env owner)
      (fun _ => When quiet (On I owner.id)) (When quiet (Holds I)) := by
    apply meets_post (meets_connect env fun _ _ _ holds => holds)
    exact fun _ c holds => ⟨holds.1, none, holds.2⟩
  unfold sendSmtpAndSave
  split
  · apply meets_bind (meets_submit env grows (fun _ holds => holds) fun _ _ _ after => after)
    exact fun _ => meets_pure fun _ holds => holds
  · apply meets_bind connected
    intro _
    apply meets_bind (Q := fun _ => When quiet (Holds I))
    · apply meets_attempt_same
      apply meets_bind (meets_ensure_sent env grows)
      intro path
      apply meets_bind submitted
      intro _
      apply meets_bind (meets_attempt (meets_append_sent env grows))
      intro appended
      cases appended with
      | ok _ =>
        apply meets_pure
        intro c holds
        obtain ⟨still, _, now⟩ := holds
        exact ⟨still, now.1⟩
      | error e => exact meets_pure fun _ holds => holds
    · intro result
      apply meets_bind (Q := fun _ => When quiet (Holds I))
      · exact meets_attempt_same (meets_logout (I := I) fun _ _ _ holds => holds)
      · intro _
        cases result with
        | ok _ => exact meets_pure fun _ holds => holds
        | error e => exact meets_raise fun _ holds => holds

/- Sending, whether by Graph or by SMTP, only adds to the servers. -/
theorem meets_send_reply {owner : Account} {request : ReplyRequest Draft} {original : Message}
    (grows : Grows I) :
    Meets (When quiet (Holds I)) (sendReply mail env owner request original)
      (fun _ => When quiet (Holds I)) (When quiet (Holds I)) := by
  unfold sendReply
  cases owner.protocol with
  | oauthMicrosoft =>
    apply meets_bind (meets_token env fun _ _ _ holds => holds)
    intro _
    apply meets_bind (meets_submit env grows (fun _ holds => holds) fun _ _ _ after => after)
    exact fun _ => meets_pure fun _ holds => holds
  | imapBasic =>
    apply meets_bind (Q := fun _ => When quiet (Holds I))
    · unfold lift
      cases mail.buildReplyMime owner request.draft original with
      | ok built => exact meets_pure fun _ holds => holds
      | error e => exact meets_raise fun _ holds => holds
    · exact fun built => meets_send_smtp env grows

end Sending

end InboxSendRules
