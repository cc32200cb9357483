import InboxOne.RowTargets
import InboxOne.SendRules
import InboxOne.SharedCalls

/-!
The copy of a reply or a forward in the Sent folder. Other clients and the provider work on
the same mailboxes: what they do takes place between any two commands of the request, the
search for an earlier copy and the APPEND included.
-/
namespace InboxSentCopies
open FaultyCalls SharedCalls InboxPython InboxMailbox InboxTables InboxDatabase
open InboxFolderSync InboxImapClient InboxMessageRoutes InboxImapRules InboxRouteRules
open InboxSendRules

abbrev Change := Servers → Servers

def changeServers (change : Change) (s : Request) : Request :=
  { s with servers := change s.servers }

abbrev Sends (A : Type) := Program (Shared Request Change) PyException A

def run {A : Type} (x : Action A) : Sends A := command changeServers x

variable {Detail Attachment Draft : Type} (mail : MailFormat Detail Attachment Draft)
variable (buildForwardMime : Account → Draft → Except PyException (Content × String))
variable (env : Environment)

def ensureSentFolder : Sends String := do
  match ← run (findSpecialFolder env .sent) with
  | some path => pure path
  | none =>
      let personal ← run (personalNamespace env)
      run (createFolder env (personal ++ "Sent"))
      pure (personal ++ "Sent")

def appendSentMessage (path : String) (content : Content) (messageId : String) : Sends Unit := do
  let _ ← run (selectFolder path true)
  let found ← run (searchMessageId env messageId)
  if found = [] then run (appendMessage path { content with flags := {.seen} })
  else pure ()

/- With the connection open. -/
def submitAndSave (content : Content) (messageId : String) : Sends (Option String) := do
  let path ← ensureSentFolder env
  run (submit env)
  match ← attempt (appendSentMessage env path content messageId) with
  | .ok () => pure none
  | .error _ => pure (some savedWarning)

def sendSmtpAndSave (account : Account) (content : Content) (messageId : String) :
    Sends (Option String) := do
  if gmailSavesSent account then
    run (submit env)
    pure none
  else
    run (openImapConnection env account)
    let result ← attempt (submitAndSave env content messageId)
    let _ ← attempt (run logout)
    rethrow result

/- The part that reply and forward share: Graph or SMTP, as the account has it. -/
def sendFrom (account : Account) (mime : Except PyException (Content × String)) :
    Sends (Option String) := do
  match account.protocol with
  | .oauthMicrosoft =>
      run (getGraphToken env)
      run (submit env)
      pure none
  | .imapBasic =>
      let (content, headerId) ← within (lift mime)
      sendSmtpAndSave env account content headerId

/- How a request ends that has sent its mail. StaleDataError is what the last flush raises
   where the row of the original is gone. -/
inductive Report where
  | sent (warning : Option String)
  | staleData
  deriving DecidableEq, Repr

/- An attribute that does not change makes no UPDATE. -/
def markAnswered (gone : Bool) (original : Message) (warning : Option String) : Sends Report :=
  if original.isAnswered then pure (.sent warning)
  else if gone then pure .staleData
  else do
    within (changeRows [original.id] { answered := some true })
    within commit
    pure (.sent warning)

/- `gone`: a sync pass has deleted the row of the original in the meantime. -/
def reply (gone : Bool) (messageId : Nat) (request : ReplyRequest Draft) : Sends Report := do
  let (original, _, _) ← within (loadMessage messageId)
  match ← within (read fun s : Request =>
      s.session.accountById (sendAccountId request original)) with
  | none => raise (.http 404 "Send-as account not found")
  | some account =>
      let warning ← sendFrom env account (mail.buildReplyMime account request.draft original)
      markAnswered gone original warning

/- A ForwardRequest has the fields of a ReplyRequest; the original is not marked. -/
def forward (messageId : Nat) (request : ReplyRequest Draft) : Sends Report := do
  match ← within (read fun s : Request => s.session.messageById messageId) with
  | none => raise notFound
  | some original =>
      match ← within (read fun s : Request =>
          s.session.accountById (sendAccountId request original)) with
      | none => raise (.http 404 "Send-as account not found")
      | some account =>
          let warning ← sendFrom env account (buildForwardMime account request.draft)
          pure (.sent warning)

/-- A Message-ID in one folder of one account. -/
structure Place where
  account : Nat
  path : String
  messageId : String
  deriving DecidableEq, Repr

variable {found : String → RemoteMessage → Bool} {place : Place}

/- The messages of the folder that a search for the Message-ID finds. -/
def Place.copies (found : String → RemoteMessage → Bool) (place : Place) (servers : Servers) :
    Nat :=
  match (servers place.account).mailbox place.path with
  | none => 0
  | some mb => mb.messages.countP (found place.messageId)

theorem copies_here {servers : Servers} {mb : Mailbox}
    (here : (servers place.account).mailbox place.path = some mb) :
    place.copies found servers = mb.messages.countP (found place.messageId) := by
  rw [Place.copies, here]

theorem copies_elsewhere {servers : Servers} {account : Nat} {path : String} {mb : Mailbox}
    (other : ¬ (place.account = account ∧ place.path = path)) :
    place.copies found (putMailbox servers account path mb) = place.copies found servers := by
  unfold Place.copies
  rw [put_elsewhere servers mb other]

variable (found place) in
/-- An arriving message adds at most itself. -/
theorem copies_arrive {servers : Servers} {account : Nat} {path : String} {mb : Mailbox}
    (there : (servers account).mailbox path = some mb) (gap : Nat) (content : Content) :
    place.copies found (putMailbox servers account path (mb.arrive gap content)) =
      place.copies found servers + if place.account = account ∧ place.path = path ∧
        found place.messageId ⟨mb.uidNext + gap, content⟩ = true then 1 else 0 := by
  by_cases same : place.account = account ∧ place.path = path
  · obtain ⟨rfl, rfl⟩ := same
    rw [copies_here (put_here servers place.account place.path _), copies_here there]
    simp only [Mailbox.arrive, List.countP_append, List.countP_singleton, true_and]
  · rw [copies_elsewhere same, if_neg fun all => same ⟨all.1, all.2.1⟩, Nat.add_zero]

theorem copies_created {servers : Servers} {account : Nat} {path : String} (validity : Nat)
    (absent : (servers account).mailbox path = none) :
    place.copies found (putMailbox servers account path (emptyMailbox validity)) =
      place.copies found servers := by
  by_cases same : place.account = account ∧ place.path = path
  · obtain ⟨rfl, rfl⟩ := same
    rw [copies_here (put_here servers place.account place.path _), Place.copies, absent]
    rfl
  · exact copies_elsewhere same

/-- The server finds the message by its own Message-ID and by no other. -/
structure FoundById (found : String → RemoteMessage → Bool) (content : Content)
    (messageId : String) : Prop where
  own : ∀ uid flags, found messageId ⟨uid, { content with flags := flags }⟩ = true
  other : ∀ uid flags id, found id ⟨uid, { content with flags := flags }⟩ = true → id = messageId

def NeverAdds (found : String → RemoteMessage → Bool) (place : Place) (change : Change) : Prop :=
  ∀ servers, place.copies found (change servers) ≤ place.copies found servers

def NeverRemoves (found : String → RemoteMessage → Bool) (place : Place) (change : Change) : Prop :=
  ∀ servers, place.copies found servers ≤ place.copies found (change servers)

/- Others may remove copies unless they are watched. -/
def Tolerated (found : String → RemoteMessage → Bool) (place : Place) (watched : Prop)
    (change : Change) : Prop :=
  NeverAdds found place change ∧ (watched → NeverRemoves found place change)

section Rules
variable {A : Type} {allowed : Change → Prop} {I J : Servers → Prop} {account : Nat}

/-- No allowed change of the servers can end I. -/
def Lasting (allowed : Change → Prop) (I : Servers → Prop) : Prop :=
  ∀ change servers, allowed change → I servers → I (change servers)

theorem steady_holds (lasting : Lasting allowed I) :
    Steady changeServers allowed (Holds (Ofs I)) :=
  fun change s fits holds => lasting change s.servers fits holds

theorem steady_at {selected : Option Selected} (lasting : Lasting allowed I) :
    Steady changeServers allowed (At (Ofs I) account selected) :=
  fun change s fits holds => ⟨lasting change s.servers fits holds.1, holds.2⟩

theorem steady_on (lasting : Lasting allowed I) :
    Steady changeServers allowed (On (Ofs I) account) := by
  rintro change s fits ⟨selected, holds⟩
  exact ⟨selected, steady_at lasting change s fits holds⟩

theorem steady_given {P : Request → Prop} (K : Prop) (steady : Steady changeServers allowed P) :
    Steady changeServers allowed fun s => K ∧ P s :=
  fun change s fits holds => ⟨holds.1, steady change s fits holds.2⟩

/- A command whose servers, if it takes effect, satisfy J, whatever is selected. -/
theorem meets_on {effect : ImapServer → Option Selected →
      Except PyException (A × ImapServer × Option Selected)} {Q : A → Servers → Prop}
    (step : ∀ servers selected a server chosen, I servers →
      effect (servers account) selected = .ok (a, server, chosen) →
      Q a (Function.update servers account server) ∧ J (Function.update servers account server))
    (stays : ∀ servers, I servers → J servers) :
    Meets (When false (On (Ofs I) account)) (imapCall effect)
      (fun a => When false (On (Ofs (Q a)) account)) (When false (Holds (Ofs J))) := by
  intro c holds
  obtain ⟨still, selected, now⟩ := holds
  have called : Meets (When false (At (Ofs I) account selected)) (imapCall effect)
      (fun a => When false (On (Ofs (Q a)) account)) (When false (Holds (Ofs J))) := by
    apply meets_imap
    · intro s a server chosen here ok
      obtain ⟨after, failed⟩ := step s.servers selected a server chosen here.1 ok
      exact ⟨⟨chosen, after, rfl⟩, fun _ => failed⟩
    · exact fun servers _ _ here _ => stays servers here
    · exact fun _ servers _ here => stays servers here
  exact called c ⟨still, now⟩

theorem meets_select_sent {path : String} (lasting : Lasting allowed I) :
    Meets (Beside allowed (On (Ofs I) account)) (run (selectFolder path true))
      (fun _ => Beside allowed (At (Ofs I) account (some ⟨path, true⟩)))
      (Beside allowed (Holds (Ofs I))) := by
  apply meets_command (Q := fun _ => At (Ofs I) account (some ⟨path, true⟩))
  · intro c holds
    obtain ⟨still, selected, now⟩ := holds
    have opened : Meets (When false (At (Ofs I) account selected)) (selectFolder path true)
        (fun _ => When false (At (Ofs I) account (some ⟨path, true⟩)))
        (When false (Holds (Ofs I))) :=
      meets_open (fun _ _ here _ => here) fun _ _ _ here => here
    exact opened c ⟨still, now⟩
  · exact fun _ => steady_at lasting
  · exact steady_holds lasting

/- Where the Sent folder is looked for, or made. -/
def sentPath (env : Environment) : String :=
  (env.special .sent).getD (env.personalPrefix.getD "" ++ "Sent")

theorem meets_ensure (lasting : Lasting allowed I)
    (creates : ∀ {servers : Servers} {path : String} (validity : Nat), I servers →
      (servers account).mailbox path = none →
      I (putMailbox servers account path (emptyMailbox validity))) :
    Meets (Beside allowed (On (Ofs I) account)) (ensureSentFolder env)
      (fun path => Beside allowed fun s => path = sentPath env ∧ On (Ofs I) account s)
      (Beside allowed (Holds (Ofs I))) := by
  have looked : ∀ {B : Type} (b : B), Meets (Beside allowed (On (Ofs I) account))
      (run (imapCall fun server selected => .ok (b, server, selected)))
      (fun answer => Beside allowed fun s => answer = b ∧ On (Ofs I) account s)
      (Beside allowed (Holds (Ofs I))) := by
    intro B b
    apply meets_command (Q := fun answer s => answer = b ∧ On (Ofs I) account s)
    · apply meets_post
      · apply meets_on (Q := fun answer servers => answer = b ∧ I servers)
        · intro servers selected answer server chosen holds ok
          simp only [Except.ok.injEq, Prod.mk.injEq] at ok
          obtain ⟨rfl, rfl, rfl⟩ := ok
          rw [Function.update_eq_self]
          exact ⟨⟨rfl, holds⟩, holds⟩
        · exact fun _ holds => holds
      · rintro answer c ⟨still, selected, ⟨same, holds⟩, client⟩
        exact ⟨still, same, selected, holds, client⟩
    · exact fun _ => steady_given _ (steady_on lasting)
    · exact steady_holds lasting
  apply meets_bind (looked (env.special .sent))
  intro special
  apply meets_beside_given
  rintro rfl
  unfold sentPath
  cases env.special .sent with
  | some path => exact meets_pure fun c holds => ⟨⟨rfl, holds.1⟩, holds.2⟩
  | none =>
    apply meets_bind (Q := fun personal => Beside allowed fun s =>
      personal = env.personalPrefix.getD "" ∧ On (Ofs I) account s)
    · unfold personalNamespace
      cases env.personalPrefix with
      | some personal => exact looked personal
      | none =>
        apply meets_command (Q := fun personal s => personal = "" ∧ On (Ofs I) account s)
        · exact meets_pure fun c holds => ⟨holds.1, rfl, holds.2⟩
        · exact fun _ => steady_given _ (steady_on lasting)
        · exact steady_holds lasting
    · intro personal
      apply meets_beside_given
      rintro rfl
      apply meets_bind (Q := fun _ => Beside allowed (On (Ofs I) account))
      · apply meets_command (Q := fun _ => On (Ofs I) account)
        · apply meets_on (Q := fun _ => I)
          · intro servers selected _ server chosen holds ok
            cases there : (servers account).mailbox (env.personalPrefix.getD "" ++ "Sent") with
            | some mb => rw [there] at ok; contradiction
            | none =>
              rw [there] at ok
              simp only [Except.ok.injEq, Prod.mk.injEq, true_and] at ok
              obtain ⟨rfl, rfl⟩ := ok
              have after := creates env.createdValidity holds there
              exact ⟨after, after⟩
          · exact fun _ holds => holds
        · exact fun _ => steady_on lasting
        · exact steady_holds lasting
      · exact fun _ => meets_pure fun c holds => ⟨⟨rfl, holds.1⟩, holds.2⟩

end Rules

section Counting
variable {watched : Prop} {n k account : Nat} {path messageId : String} {content : Content}

def AtMost (found : String → RemoteMessage → Bool) (place : Place) (n : Nat) (servers : Servers) :
    Prop := place.copies found servers ≤ n

/-- No second copy, and where nobody takes it away one is there. -/
def OneCopy (found : String → RemoteMessage → Bool) (place : Place) (watched here : Prop)
    (servers : Servers) : Prop :=
  AtMost found place 1 servers ∧ (watched → here → 1 ≤ place.copies found servers)

theorem lasting_at_most : Lasting (Tolerated found place watched) (AtMost found place n) :=
  fun _ servers fits few => (fits.1 servers).trans few

theorem lasting_one_copy (here : Prop) :
    Lasting (Tolerated found place watched) (OneCopy found place watched here) := by
  intro change servers fits one
  refine ⟨lasting_at_most change servers fits one.1, fun looked is => ?_⟩
  exact (one.2 looked is).trans (fits.2 looked servers)

/- What a search leaves known: without a hit there is no copy, with a hit there is one. -/
def Searched (found : String → RemoteMessage → Bool) (place : Place) (watched here : Prop)
    (uids : List Nat) (servers : Servers) : Prop :=
  OneCopy found place watched (here ∧ uids ≠ []) servers ∧
    (here → uids = [] → place.copies found servers = 0)

theorem lasting_searched (here : Prop) (uids : List Nat) :
    Lasting (Tolerated found place watched) (Searched found place watched here uids) := by
  intro change servers fits searched
  refine ⟨lasting_one_copy _ change servers fits searched.1, fun is empty => ?_⟩
  have none := searched.2 is empty
  have fewer := fits.1 servers
  omega

theorem searched_folder {servers : Servers} {mb : Mailbox} (few : AtMost found place 1 servers)
    (there : (servers account).mailbox path = some mb) :
    Searched found place watched (place = ⟨account, path, messageId⟩)
      ((mb.messages.filter (found messageId)).map RemoteMessage.uid) servers := by
  have counted : place = ⟨account, path, messageId⟩ → place.copies found servers =
      ((mb.messages.filter (found messageId)).map RemoteMessage.uid).length := by
    rintro rfl
    rw [copies_here there, List.countP_eq_length_filter, List.length_map]
  refine ⟨⟨few, fun _ is => ?_⟩, fun is empty => ?_⟩
  · rw [counted is.1]
    exact List.length_pos_iff.mpr is.2
  · rw [counted is, empty]
    rfl

/- After a search without a hit the APPEND makes the only copy. -/
theorem appended_copy {servers : Servers} {mb : Mailbox} {uids : List Nat}
    (named : FoundById found content messageId) (empty : uids = [])
    (searched : Searched found place watched (place = ⟨account, path, messageId⟩) uids servers)
    (there : (servers account).mailbox path = some mb) :
    OneCopy found place watched (place = ⟨account, path, messageId⟩)
      (putMailbox servers account path (mb.arrive 0 { content with flags := {.seen} })) := by
  have few := searched.1.1
  have sum := copies_arrive found place there 0 { content with flags := {.seen} }
  unfold OneCopy AtMost
  unfold AtMost at few
  by_cases is : place = ⟨account, path, messageId⟩
  · have none := searched.2 is empty
    subst is
    rw [if_pos ⟨rfl, rfl, named.own _ _⟩, none] at sum
    rw [sum]
    exact ⟨Nat.le_refl 1, fun _ _ => Nat.le_refl 1⟩
  · rw [if_neg] at sum
    · rw [sum]
      exact ⟨few, fun _ same => absurd same is⟩
    · rintro ⟨sameAccount, samePath, hit⟩
      have sameId := named.other _ _ _ hit
      exact is (by rw [← sameAccount, ← samePath, ← sameId])

theorem meets_append (finds : env.hasMessageId = found)
    (named : FoundById found content messageId) :
    Meets (Beside (Tolerated found place watched) (On (Ofs (AtMost found place 1)) account))
      (appendSentMessage env path content messageId)
      (fun _ => Beside (Tolerated found place watched)
        (On (Ofs (OneCopy found place watched (place = ⟨account, path, messageId⟩))) account))
      (Beside (Tolerated found place watched) (Holds (Ofs (AtMost found place 1)))) := by
  apply meets_bind (meets_select_sent lasting_at_most)
  intro _
  apply meets_bind (Q := fun uids => Beside (Tolerated found place watched)
    (On (Ofs (Searched found place watched (place = ⟨account, path, messageId⟩) uids)) account))
  · apply meets_command (Q := fun uids =>
      On (Ofs (Searched found place watched (place = ⟨account, path, messageId⟩) uids)) account)
    · unfold searchMessageId onSelected
      apply meets_imap
      · intro s uids server chosen holds ok
        simp only at ok
        cases there : (s.servers account).mailbox path with
        | none => rw [there] at ok; contradiction
        | some mb =>
          rw [there, finds] at ok
          simp only [Except.ok.injEq, Prod.mk.injEq] at ok
          obtain ⟨rfl, rfl, rfl⟩ := ok
          have unchanged : Function.update s.servers account ((s.servers account).put path mb) =
              s.servers := put_same there
          refine ⟨⟨_, ?_, rfl⟩, fun _ => ?_⟩
          · show Searched _ _ _ _ _ (Function.update s.servers account _)
            rw [unchanged]
            exact searched_folder holds.1 there
          · rw [unchanged]
            exact holds.1
      · exact fun _ _ _ holds _ => holds
      · exact fun _ _ _ holds => holds
    · exact fun uids => steady_on (lasting_searched _ uids)
    · exact steady_holds lasting_at_most
  · intro uids
    split
    · rename_i empty
      apply meets_command (Q := fun _ =>
        On (Ofs (OneCopy found place watched (place = ⟨account, path, messageId⟩))) account)
      · apply meets_on (Q := fun _ =>
          OneCopy found place watched (place = ⟨account, path, messageId⟩))
        · intro servers selected _ server chosen searched ok
          cases there : (servers account).mailbox path with
          | none => rw [there] at ok; contradiction
          | some mb =>
            rw [there] at ok
            simp only [Except.ok.injEq, Prod.mk.injEq, true_and] at ok
            obtain ⟨rfl, rfl⟩ := ok
            have one := appended_copy named empty searched there
            exact ⟨one, one.1⟩
        · exact fun servers searched => searched.1.1
      · exact fun _ => steady_on (lasting_one_copy _)
      · exact steady_holds lasting_at_most
    · rename_i hit
      apply meets_pure
      rintro c ⟨⟨selected, ⟨⟨few, kept⟩, _⟩, client⟩, fits⟩
      exact ⟨⟨selected, ⟨few, fun looked is => kept looked ⟨is, hit⟩⟩, client⟩, fits⟩

/-- What the provider files of a submission, as far as this Message-ID goes. -/
def Files (found : String → RemoteMessage → Bool) (place : Place) (env : Environment) (n k : Nat) :
    Prop :=
  ∀ servers, AtMost found place n servers →
    AtMost found place k (env.delivered.foldl deliver servers)

theorem meets_submit_filed {P P' : Request → Prop} (files : Files found place env n k)
    (more : n ≤ k)
    (counts : ∀ s, P s → AtMost found place n s.servers)
    (after : ∀ s servers, P s → AtMost found place k servers → P' { s with servers := servers })
    (steady : Steady changeServers (Tolerated found place watched) P') :
    Meets (Beside (Tolerated found place watched) P) (run (submit env))
      (fun _ => Beside (Tolerated found place watched) P')
      (Beside (Tolerated found place watched) (Holds (Ofs (AtMost found place k)))) := by
  apply meets_command (Q := fun _ => P')
  · apply meets_call_when
    · intro s _ s' holds ok
      simp only [Except.ok.injEq, Prod.mk.injEq, true_and] at ok
      subst ok
      have filed := files s.servers (counts s holds)
      exact ⟨after s _ holds filed, fun _ => filed⟩
    · intro s e _ error
      contradiction
    · exact fun _ s holds => (counts s holds).trans more
  · exact fun _ => steady
  · exact steady_holds lasting_at_most

/- More copies are allowed. -/
theorem beside_more {allowed : Change → Prop} (more : n ≤ k) {c : Config (Shared Request Change)}
    (holds : Beside allowed (Holds (Ofs (AtMost found place n))) c) :
    Beside allowed (Holds (Ofs (AtMost found place k))) c :=
  ⟨Nat.le_trans holds.1 more, holds.2⟩

/-- How the folder stands with this answer. -/
def Answered (found : String → RemoteMessage → Bool) (place : Place) (watched here : Prop)
    (warning : Option String) : Servers → Prop :=
  OneCopy found place watched (here ∧ warning = none)

theorem meets_submit_and_save (finds : env.hasMessageId = found)
    (named : FoundById found content messageId) (files : Files found place env n k) (more : n ≤ k)
    (one : k ≤ 1) :
    Meets (Beside (Tolerated found place watched) (On (Ofs (AtMost found place n)) account))
      (submitAndSave env content messageId)
      (fun warning => Beside (Tolerated found place watched) (Holds (Ofs
        (Answered found place watched (place = ⟨account, sentPath env, messageId⟩) warning))))
      (Beside (Tolerated found place watched) (Holds (Ofs (AtMost found place k)))) := by
  have ensured : Meets
      (Beside (Tolerated found place watched) (On (Ofs (AtMost found place n)) account))
      (ensureSentFolder env)
      (fun path => Beside (Tolerated found place watched) fun s =>
        path = sentPath env ∧ On (Ofs (AtMost found place n)) account s)
      (Beside (Tolerated found place watched) (Holds (Ofs (AtMost found place k)))) := by
    apply meets_weaken (meets_ensure env lasting_at_most _)
    · exact fun c holds => holds
    · exact fun path c holds => holds
    · exact fun c holds => beside_more more holds
    · intro servers path validity few absent
      unfold AtMost
      rw [copies_created validity absent]
      exact few
  apply meets_bind ensured
  intro path
  apply meets_beside_given
  rintro rfl
  apply meets_bind (Q := fun _ =>
    Beside (Tolerated found place watched) (On (Ofs (AtMost found place 1)) account))
  · apply meets_submit_filed env files more
    · rintro s ⟨_, few, _⟩
      exact few
    · rintro s servers ⟨selected, _, client⟩ filed
      exact ⟨selected, Nat.le_trans filed one, client⟩
    · exact steady_on lasting_at_most
  · intro _
    apply meets_bind (meets_attempt (meets_append env finds named))
    intro appended
    cases appended with
    | ok _ =>
      apply meets_pure
      rintro c ⟨⟨selected, ⟨few, kept⟩, _⟩, fits⟩
      exact ⟨⟨few, fun looked is => kept looked is.1⟩, fits⟩
    | error e =>
      apply meets_pure
      rintro c ⟨few, fits⟩
      exact ⟨⟨few, fun _ is => by cases is.2⟩, fits⟩

/- The request saves a copy itself, unless the provider does. -/
def savesCopy (account : Account) : Bool :=
  match account.protocol with
  | .oauthMicrosoft => false
  | .imapBasic => !gmailSavesSent account

/-- As many as the provider files where it files them, and one elsewhere. -/
def most (account : Account) (k : Nat) : Nat := if savesCopy account then 1 else k

/-- How the folder stands once this account has sent, and the request was answered. -/
def Settled (found : String → RemoteMessage → Bool) (place : Place) (watched : Prop) (k : Nat)
    (account : Account) (here : Prop) (warning : Option String) (servers : Servers) : Prop :=
  AtMost found place (most account k) servers ∧
    (savesCopy account = true → Answered found place watched here warning servers)

/- Where the provider keeps the copy the request adds none. -/
theorem meets_submit_only {owner : Account} {here : Prop} (files : Files found place env n k)
    (more : n ≤ k) (leaves : savesCopy owner = false) :
    Meets (Beside (Tolerated found place watched) (Holds (Ofs (AtMost found place n)))) (do
        run (submit env)
        pure none)
      (fun warning => Beside (Tolerated found place watched)
        (Holds (Ofs (Settled found place watched k owner here warning))))
      (Beside (Tolerated found place watched) (Holds (Ofs (AtMost found place k)))) := by
  apply meets_bind (Q := fun _ => Beside (Tolerated found place watched)
    (Holds (Ofs (AtMost found place k))))
  · apply meets_submit_filed env files more
    · exact fun s few => few
    · exact fun s servers _ filed => filed
    · exact steady_holds lasting_at_most
  · intro _
    apply meets_pure
    rintro c ⟨few, fits⟩
    refine ⟨⟨?_, fun saves => ?_⟩, fits⟩
    · rw [most, leaves]
      exact few
    · rw [leaves] at saves
      contradiction

theorem meets_log_out {allowed : Change → Prop} {I : Servers → Prop}
    {F : Config (Shared Request Change) → Prop} (lasting : Lasting allowed I) :
    Meets (Beside allowed (Holds (Ofs I))) (attempt (run logout))
      (fun _ => Beside allowed (Holds (Ofs I))) F := by
  apply meets_attempt_same
  apply meets_command (meets_logout fun _ _ _ holds => holds)
  · exact fun _ => steady_holds lasting
  · exact steady_holds lasting

/- Over SMTP, where the request keeps the copy itself. -/
theorem meets_send_smtp {owner : Account} (finds : env.hasMessageId = found)
    (named : FoundById found content messageId) (files : Files found place env n k) (more : n ≤ k)
    (one : k ≤ 1) (own : gmailSavesSent owner = false) :
    Meets (Beside (Tolerated found place watched) (Holds (Ofs (AtMost found place n))))
      (sendSmtpAndSave env owner content messageId)
      (fun warning => Beside (Tolerated found place watched) (Holds (Ofs
        (Answered found place watched (place = ⟨owner.id, sentPath env, messageId⟩) warning))))
      (Beside (Tolerated found place watched) (Holds (Ofs (AtMost found place k)))) := by
  have lasts : Lasting (Tolerated found place watched) (AtMost found place n) := lasting_at_most
  unfold sendSmtpAndSave
  rw [own, if_neg Bool.false_ne_true]
  apply meets_bind (Q := fun _ => Beside (Tolerated found place watched)
    (On (Ofs (AtMost found place n)) owner.id))
  · apply meets_weaken (meets_command (Q := fun _ => On (Ofs (AtMost found place n)) owner.id)
      (F := Holds (Ofs (AtMost found place n))) _ (fun _ => steady_on lasts) (steady_holds lasts))
    · exact fun c holds => holds
    · exact fun _ c holds => holds
    · exact fun c holds => beside_more more holds
    · apply meets_post (meets_connect env fun _ _ _ holds => holds)
      exact fun _ c holds => ⟨holds.1, none, holds.2⟩
  · intro _
    apply meets_bind (meets_attempt (meets_submit_and_save env finds named files more one))
    intro result
    cases result with
    | ok warning =>
      apply meets_bind (meets_log_out (lasting_one_copy _))
      exact fun _ => meets_pure fun c holds => holds
    | error e =>
      apply meets_bind (meets_log_out lasting_at_most)
      exact fun _ => meets_raise fun c holds => holds

theorem meets_send_from {owner : Account} {mime : Except PyException (Content × String)}
    (finds : env.hasMessageId = found)
    (named : ∀ content messageId, mime = .ok (content, messageId) →
      FoundById found content messageId)
    (files : Files found place env n k) (more : n ≤ k) (one : k ≤ 1) :
    Meets (Beside (Tolerated found place watched) (Holds (Ofs (AtMost found place n))))
      (sendFrom env owner mime)
      (fun warning => Beside (Tolerated found place watched) (Holds (Ofs
        (Settled found place watched k owner (∃ content messageId, mime = .ok (content, messageId) ∧
          place = ⟨owner.id, sentPath env, messageId⟩) warning))))
      (Beside (Tolerated found place watched) (Holds (Ofs (AtMost found place k)))) := by
  have lasts : Lasting (Tolerated found place watched) (AtMost found place n) := lasting_at_most
  have kept : ∀ s, Holds (Ofs (AtMost found place n)) s → Holds (Ofs (AtMost found place k)) s :=
    fun _ few => Nat.le_trans few more
  unfold sendFrom
  cases protocol : owner.protocol with
  | oauthMicrosoft =>
    apply meets_bind (Q := fun _ => Beside (Tolerated found place watched)
      (Holds (Ofs (AtMost found place n))))
    · apply meets_weaken (meets_command (F := Holds (Ofs (AtMost found place n)))
        (meets_token env fun _ _ _ holds => holds) (fun _ => steady_holds lasts)
        (steady_holds lasts))
      · exact fun c holds => holds
      · exact fun _ c holds => holds
      · exact fun c holds => beside_more more holds
    · intro _
      apply meets_submit_only env files more
      rw [savesCopy, protocol]
  | imapBasic =>
    have saves : savesCopy owner = !gmailSavesSent owner := by rw [savesCopy, protocol]
    apply meets_bind (Q := fun built => Beside (Tolerated found place watched) fun s =>
      mime = .ok built ∧ Holds (Ofs (AtMost found place n)) s)
    · apply meets_within
        (Q := fun built s => mime = .ok built ∧ Holds (Ofs (AtMost found place n)) s)
      cases mime with
      | ok built => exact meets_pure fun c holds => ⟨holds.1, rfl, holds.2⟩
      | error e => exact meets_raise fun c holds => ⟨holds.1, kept c.state holds.2⟩
    · rintro ⟨content, messageId⟩
      apply meets_beside_given
      intro built
      cases gmail : gmailSavesSent owner with
      | true =>
        unfold sendSmtpAndSave
        rw [gmail]
        apply meets_submit_only env files more
        rw [saves, gmail]
        rfl
      | false =>
        apply meets_post (meets_send_smtp env finds (named content messageId built) files more one
          gmail)
        rintro warning c ⟨answered, fits⟩
        refine ⟨⟨?_, fun _ => ⟨answered.1, fun looked is => answered.2 looked ⟨?_, is.2⟩⟩⟩, fits⟩
        · rw [most, saves, gmail]
          exact answered.1
        · obtain ⟨⟨_, _, same, place⟩, _⟩ := is
          obtain ⟨rfl, rfl⟩ := Prod.mk.inj (Except.ok.inj (built.symm.trans same))
          exact place

end Counting

inductive Kind where
  | reply
  | forward
  deriving DecidableEq, Repr

/-- One request to send, with the answers it gets and what others do meanwhile. -/
structure Attempt (Draft : Type) where
  kind : Kind
  env : Environment
  db : Database
  elsewhere : List Change
  outcomes : List Outcome
  gone : Bool
  messageId : Nat
  request : ReplyRequest Draft

def Attempt.start (a : Attempt Draft) (servers : Servers) : Config (Shared Request Change) :=
  ⟨⟨begin a.db servers, a.elsewhere⟩, a.outcomes⟩

def Attempt.send (a : Attempt Draft) : Sends Report :=
  match a.kind with
  | .reply => reply mail a.env a.gone a.messageId a.request
  | .forward => forward buildForwardMime a.env a.messageId a.request

def Attempt.run (a : Attempt Draft) (servers : Servers) :
    Except PyException Report × Config (Shared Request Change) :=
  a.send mail buildForwardMime (a.start servers)

def Attempt.after (a : Attempt Draft) (servers : Servers) : Servers :=
  (a.run mail buildForwardMime servers).2.state.own.servers

/-- The account it sends from. -/
def Attempt.sender (a : Attempt Draft) : Option Account :=
  (a.db.messageById a.messageId).bind fun original =>
    a.db.accountById (sendAccountId a.request original)

/-- What it sends, as bytes with their Message-ID. -/
def Attempt.mime (a : Attempt Draft) (owner : Account) : Except PyException (Content × String) :=
  match a.kind, a.db.messageById a.messageId with
  | .reply, some original => mail.buildReplyMime owner a.request.draft original
  | .forward, some _ => buildForwardMime owner a.request.draft
  | _, none => .error notFound

/-- Here the copy of the request belongs. -/
def Attempt.Here (a : Attempt Draft) (place : Place) (owner : Account) : Prop :=
  ∃ content messageId, a.mime mail buildForwardMime owner = .ok (content, messageId) ∧
    place = ⟨owner.id, sentPath a.env, messageId⟩

/-- The server finds what is sent by its Message-ID; the provider files it so often; and the
others, whatever else they do, add no message with this Message-ID to the folder. -/
structure Sound (found : String → RemoteMessage → Bool) (place : Place) (n k : Nat)
    (a : Attempt Draft) : Prop where
  finds : a.env.hasMessageId = found
  named : ∀ owner content messageId,
    a.mime mail buildForwardMime owner = .ok (content, messageId) →
      FoundById found content messageId
  files : Files found place a.env n k
  others : ∀ change ∈ a.elsewhere, NeverAdds found place change

section Endpoints
variable {watched : Prop} {n k : Nat} {db : Database}

theorem meets_load {allowed : Change → Prop} {I : Servers → Prop} (messageId : Nat) :
    Meets (Beside allowed (Holds (Sees db I))) (within (loadMessage messageId))
      (fun loaded => Beside allowed fun s =>
        db.messageById messageId = some loaded.1 ∧ Holds (Sees db I) s)
      (Beside allowed (Holds (Ofs I))) := by
  apply meets_within
    (Q := fun (loaded : Message × Account × Folder) s =>
      db.messageById messageId = some loaded.1 ∧ Holds (Sees db I) s)
  apply meets_bind (meets_read (Q := fun row c =>
    db.messageById messageId = row ∧ When false (Holds (Sees db I)) c) _)
  · intro row
    cases row with
    | none => exact meets_raise fun c holds => ⟨holds.2.1, holds.2.2.2⟩
    | some original =>
      apply meets_bind (meets_read (Q := fun _ c =>
        db.messageById messageId = some original ∧ When false (Holds (Sees db I)) c) _)
      · intro both
        split
        · exact meets_pure fun c holds => ⟨holds.2.1, holds.1, holds.2.2⟩
        · exact meets_raise fun c holds => ⟨holds.2.1, holds.2.2.2⟩
      · exact fun c holds => holds
  · intro c holds
    have session : c.state.session = db := holds.2.1
    exact ⟨by rw [session], holds⟩

theorem meets_find_account {allowed : Change → Prop} {I : Servers → Prop}
    {F : Config (Shared Request Change) → Prop} (accountId : Nat) :
    Meets (Beside allowed (Holds (Sees db I)))
      (within (read fun s : Request => s.session.accountById accountId) : Sends (Option Account))
      (fun owner => Beside allowed fun s =>
        db.accountById accountId = owner ∧ Holds (Ofs I) s) F := by
  rintro c ⟨⟨session, holds⟩, fits⟩
  have seen : db = c.state.own.session := session.symm
  exact ⟨⟨congrArg (fun d => d.accountById accountId) seen, holds⟩, fits⟩

/-- What an answered request leaves: who sent, and how the folder stands. -/
def Sent (found : String → RemoteMessage → Bool) (place : Place) (watched : Prop) (k : Nat)
    (a : Attempt Draft) (report : Report) (servers : Servers) : Prop :=
  ∃ owner warning, a.sender = some owner ∧ (report = .sent warning ∨ report = .staleData) ∧
    Settled found place watched k owner (a.Here mail buildForwardMime place owner) warning servers

variable {mail buildForwardMime} {a : Attempt Draft}

theorem meets_send_as {original : Message} {owner : Account}
    {mime : Except PyException (Content × String)} {finish : Option String → Sends Report}
    (sound : Sound mail buildForwardMime found place n k a) (more : n ≤ k) (one : k ≤ 1)
    (row : a.db.messageById a.messageId = some original)
    (known : a.db.accountById (sendAccountId a.request original) = some owner)
    (builds : a.mime mail buildForwardMime owner = mime)
    (finishes : ∀ {I : Servers → Prop} warning, Meets
      (Beside (Tolerated found place watched) (Holds (Ofs I))) (finish warning)
      (fun report => Beside (Tolerated found place watched) fun s =>
        (report = .sent warning ∨ report = .staleData) ∧ Holds (Ofs I) s)
      (Beside (Tolerated found place watched) (Holds (Ofs (AtMost found place k))))) :
    Meets (Beside (Tolerated found place watched) (Holds (Ofs (AtMost found place n))))
      (sendFrom a.env owner mime >>= finish)
      (fun report => Beside (Tolerated found place watched)
        (Holds (Ofs (Sent mail buildForwardMime found place watched k a report))))
      (Beside (Tolerated found place watched) (Holds (Ofs (AtMost found place k)))) := by
  subst builds
  have sender : a.sender = some owner := by
    rw [Attempt.sender, row]
    exact known
  apply meets_bind
    (meets_send_from a.env sound.finds (sound.named owner) sound.files more one)
  intro warning
  apply meets_post (finishes warning)
  exact fun report c holds => ⟨⟨owner, warning, sender, holds.1.1, holds.1.2⟩, holds.2⟩

theorem meets_mark_answered {I : Servers → Prop} {allowed : Change → Prop}
    {F : Config (Shared Request Change) → Prop} (gone : Bool) (original : Message)
    (warning : Option String) :
    Meets (Beside allowed (Holds (Ofs I))) (markAnswered gone original warning)
      (fun report => Beside allowed fun s =>
        (report = .sent warning ∨ report = .staleData) ∧ Holds (Ofs I) s) F := by
  unfold markAnswered
  split
  · exact meets_pure fun c holds => ⟨⟨.inl rfl, holds.1⟩, holds.2⟩
  · split
    · exact meets_pure fun c holds => ⟨⟨.inr rfl, holds.1⟩, holds.2⟩
    · exact fun c holds => ⟨⟨.inl rfl, holds.1⟩, holds.2⟩

theorem meets_send (watched : Prop) (sound : Sound mail buildForwardMime found place n k a)
    (more : n ≤ k) (one : k ≤ 1) :
    Meets (Beside (Tolerated found place watched) (Holds (Sees a.db (AtMost found place n))))
      (a.send mail buildForwardMime)
      (fun report => Beside (Tolerated found place watched)
        (Holds (Ofs (Sent mail buildForwardMime found place watched k a report))))
      (Beside (Tolerated found place watched) (Holds (Ofs (AtMost found place k)))) := by
  have fewer : ∀ c : Config (Shared Request Change),
      Beside (Tolerated found place watched) (Holds (Ofs (AtMost found place n))) c →
      Beside (Tolerated found place watched) (Holds (Ofs (AtMost found place k))) c :=
    fun c holds => beside_more more holds
  have refused : ∀ e : PyException, Meets
      (Beside (Tolerated found place watched) (Holds (Ofs (AtMost found place n))))
      (raise e : Sends Report)
      (fun report => Beside (Tolerated found place watched)
        (Holds (Ofs (Sent mail buildForwardMime found place watched k a report))))
      (Beside (Tolerated found place watched) (Holds (Ofs (AtMost found place k)))) :=
    fun e => meets_raise fewer
  unfold Attempt.send
  cases kind : a.kind with
  | reply =>
    apply meets_bind (meets_weaken (meets_load a.messageId) (fun c holds => holds)
      (fun _ c holds => holds) fewer)
    rintro ⟨original, _, _⟩
    apply meets_beside_given
    intro row
    apply meets_bind (meets_find_account _)
    intro owner
    apply meets_beside_given
    intro known
    cases owner with
    | none => exact refused _
    | some owner =>
      apply meets_send_as sound more one row known
      · rw [Attempt.mime, kind, row]
      · exact meets_mark_answered a.gone original
  | forward =>
    apply meets_bind (Q := fun row => Beside (Tolerated found place watched) fun s =>
      a.db.messageById a.messageId = row ∧ Holds (Sees a.db (AtMost found place n)) s)
    · rintro c ⟨⟨session, holds⟩, fits⟩
      have seen : a.db = c.state.own.session := session.symm
      exact ⟨⟨congrArg (fun d => d.messageById a.messageId) seen, session, holds⟩, fits⟩
    · intro original
      apply meets_beside_given
      intro row
      cases original with
      | none => exact meets_raise fun c holds => fewer c ⟨holds.1.2, holds.2⟩
      | some original =>
        apply meets_bind (meets_find_account _)
        intro owner
        apply meets_beside_given
        intro known
        cases owner with
        | none => exact refused _
        | some owner =>
          apply meets_send_as sound more one row known
          · rw [Attempt.mime, kind, row]
          · exact fun warning => meets_pure fun c holds => ⟨⟨.inl rfl, holds.1⟩, holds.2⟩

end Endpoints

section Runs
variable {mail buildForwardMime}

inductive Event (Draft : Type) where
  | sends (a : Attempt Draft)
  | others (change : Change)

def next (mail : MailFormat Detail Attachment Draft)
    (buildForwardMime : Account → Draft → Except PyException (Content × String))
    (servers : Servers) : Event Draft → Servers
  | .sends a => a.after mail buildForwardMime servers
  | .others change => change servers

/- Other requests are sound as well, and nobody else adds a copy. -/
def Minds (mail : MailFormat Detail Attachment Draft)
    (buildForwardMime : Account → Draft → Except PyException (Content × String))
    (found : String → RemoteMessage → Bool) (place : Place) : Event Draft → Prop
  | .sends a => Sound mail buildForwardMime found place 1 1 a
  | .others change => NeverAdds found place change

theorem beside_start {a : Attempt Draft} {watched : Prop} {n k : Nat} {servers : Servers}
    (sound : Sound mail buildForwardMime found place n k a)
    (few : AtMost found place n servers)
    (looks : watched → ∀ change ∈ a.elsewhere, NeverRemoves found place change) :
    Beside (Tolerated found place watched) (Holds (Sees a.db (AtMost found place n)))
      (a.start servers) :=
  ⟨⟨rfl, few⟩, fun change mem =>
    ⟨sound.others change mem, fun watching => looks watching change mem⟩⟩

/-- One request, answered or not, leaves no second copy. -/
theorem one_after_send {a : Attempt Draft} {n k : Nat} {servers : Servers}
    (sound : Sound mail buildForwardMime found place n k a) (more : n ≤ k) (one : k ≤ 1)
    (few : AtMost found place n servers) :
    AtMost found place 1 (a.after mail buildForwardMime servers) := by
  have sent := meets_send False sound more one (a.start servers)
    (beside_start sound few fun watching => watching.elim)
  unfold Attempt.after Attempt.run
  cases result : a.send mail buildForwardMime (a.start servers) with
  | mk answer c =>
    rw [result] at sent
    cases answer with
    | error e => exact Nat.le_trans sent.1 one
    | ok report =>
      obtain ⟨⟨owner, _, _, _, settled, _⟩, _⟩ := sent
      have bounded : most owner k ≤ 1 := by
        unfold most
        split
        · exact Nat.le_refl 1
        · exact one
      exact Nat.le_trans settled bounded

theorem one_after_run {events : List (Event Draft)}
    (minds : ∀ e ∈ events, Minds mail buildForwardMime found place e) :
    ∀ servers, AtMost found place 1 servers →
      AtMost found place 1 (events.foldl (next mail buildForwardMime) servers) := by
  induction events with
  | nil => exact fun _ one => one
  | cons e rest ih =>
    intro servers one
    apply ih fun later mem => minds later (List.mem_cons_of_mem e mem)
    have here := minds e List.mem_cons_self
    cases e with
    | sends a => exact one_after_send here (Nat.le_refl 1) (Nat.le_refl 1) one
    | others change => exact (here servers).trans one

/-- A request whose Message-ID is new in the folder never leads to a second copy there,
whatever follows. When sending failed, and wherever the provider keeps the copies, it has added
none; reported as sent without a warning, its copy is in Sent of the account it sent from. -/
theorem sent_copy_is_kept_once {a : Attempt Draft} {k : Nat} {servers : Servers}
    (one : k ≤ 1) (sound : Sound mail buildForwardMime found place 0 k a)
    (fresh : place.copies found servers = 0) {later : List (Event Draft)}
    (minds : ∀ e ∈ later, Minds mail buildForwardMime found place e) :
    place.copies found
        (later.foldl (next mail buildForwardMime) (a.after mail buildForwardMime servers)) ≤ 1 ∧
      match (a.run mail buildForwardMime servers).1 with
      | .error _ => place.copies found (a.after mail buildForwardMime servers) ≤ k
      | .ok report => ∃ owner, a.sender = some owner ∧
          place.copies found (a.after mail buildForwardMime servers) ≤ most owner k ∧
          (savesCopy owner = true → report = .sent none → a.Here mail buildForwardMime place owner →
            (∀ change ∈ a.elsewhere, NeverRemoves found place change) →
            place.copies found (a.after mail buildForwardMime servers) = 1) := by
  have few : AtMost found place 0 servers := Nat.le_of_eq fresh
  constructor
  · exact one_after_run minds _ (one_after_send sound (Nat.zero_le k) one few)
  · have sent := meets_send (∀ change ∈ a.elsewhere, NeverRemoves found place change) sound
      (Nat.zero_le k) one (a.start servers) (beside_start sound few fun looks => looks)
    unfold Attempt.after Attempt.run
    cases result : a.send mail buildForwardMime (a.start servers) with
    | mk answer c =>
      rw [result] at sent
      cases answer with
      | error e => exact sent.1
      | ok report =>
        obtain ⟨⟨owner, warning, sender, reported, settled, answered⟩, _⟩ := sent
        refine ⟨owner, sender, settled, fun saves sent here looks => ?_⟩
        have quiet : warning = none := by
          rcases reported with same | stale
          · exact (Report.sent.inj (same.symm.trans sent))
          · cases stale.symm.trans sent
        have kept := answered saves
        exact Nat.le_antisymm kept.1 (kept.2 looks ⟨here, quiet⟩)

end Runs

/- A message that the search does not find leaves the count alone. -/
theorem copies_deliver {servers : Servers} {d : Delivery}
    (unlike : ∀ uid, found place.messageId ⟨uid, d.content⟩ = false) :
    place.copies found (deliver servers d) = place.copies found servers := by
  unfold deliver
  split
  · rfl
  · rename_i mb there
    have sum := copies_arrive found place there d.gap d.content
    rw [unlike, if_neg fun all => by cases all.2.2] at sum
    exact sum

/- Headers of one byte: a reply, a forward, and mail of others. -/
def byHeader (id : String) (m : RemoteMessage) : Bool :=
  match m.content.header with
  | [7] => id == "<reply@inbox>"
  | [8] => id == "<forward@inbox>"
  | _ => false

def mailOf (header : UInt8) : Content := ⟨∅, none, none, [header], [1]⟩

def shortMail : MailFormat Unit Unit Unit where
  parseFullMessage := fun _ => .ok ()
  extractAttachmentBytes := fun _ _ => .ok ()
  buildReplyMime := fun _ _ _ => .ok (mailOf 7, "<reply@inbox>")

def shortForward : Account → Unit → Except PyException (Content × String) :=
  fun _ _ => .ok (mailOf 8, "<forward@inbox>")

/- Another client files a note in Sent after each command. -/
def noteArrives : Change := fun servers => deliver servers ⟨1, "Sent", 0, mailOf 9⟩

def replyOnce : Attempt Unit where
  kind := .reply
  env := { InboxRowTargets.noSpecials with
    special := fun _ => some "Sent", hasMessageId := byHeader }
  db := InboxRowTargets.staleDb
  elsewhere := [noteArrives, noteArrives, noteArrives, noteArrives, noteArrives]
  outcomes := []
  gone := false
  messageId := 1
  request := ⟨none, ()⟩

def emptySent : Servers := fun _ =>
  ⟨fun path => if path = "Sent" then some (emptyMailbox 1) else none⟩

def replyPlace : Place := ⟨1, "Sent", "<reply@inbox>"⟩

theorem sent_copy_is_kept_once_reply : replyPlace.copies byHeader
    (replyOnce.after shortMail shortForward emptySent) = 1 := by
  have notes : ∀ change ∈ replyOnce.elsewhere, change = noteArrives := by
    intro change mem
    simp only [replyOnce, List.mem_cons, List.not_mem_nil, or_false, or_self] at mem
    exact mem
  have same : ∀ servers, replyPlace.copies byHeader (noteArrives servers) =
      replyPlace.copies byHeader servers := fun servers => copies_deliver fun uid => rfl
  have named : ∀ owner content messageId,
      replyOnce.mime shortMail shortForward owner = .ok (content, messageId) →
      FoundById byHeader content messageId := by
    intro owner content messageId built
    have builds : replyOnce.mime shortMail shortForward owner =
        .ok (mailOf 7, "<reply@inbox>") := rfl
    rw [builds] at built
    obtain ⟨rfl, rfl⟩ := Prod.mk.inj (Except.ok.inj built)
    exact ⟨fun uid flags => rfl, fun uid flags id hit => eq_of_beq hit⟩
  have sound : Sound shortMail shortForward byHeader replyPlace 0 0 replyOnce := by
    refine ⟨rfl, named, fun servers few => few, fun change mem servers => ?_⟩
    rw [notes change mem]
    exact Nat.le_of_eq (same servers)
  have fresh : replyPlace.copies byHeader emptySent = 0 := rfl
  have nothing : ∀ e ∈ ([] : List (Event Unit)),
      Minds shortMail shortForward byHeader replyPlace e := fun e mem => by contradiction
  obtain ⟨_, owner, sender, _, kept⟩ := sent_copy_is_kept_once (Nat.zero_le 1) sound fresh nothing
  have first : replyOnce.sender = some InboxRowTargets.plainAccount := rfl
  obtain rfl := Option.some.inj (sender.symm.trans first)
  apply kept rfl rfl ⟨_, _, rfl, rfl⟩
  intro change mem servers
  rw [notes change mem]
  exact Nat.le_of_eq (same servers).symm

end InboxSentCopies
