import InboxOne.MessageRoutes

/-!
One rule for each command of a request: what it makes of the servers and of the session
when it is answered, and what may be said when it fails. `I`, `J` and `F` speak of the
servers and the session only, so connecting and selecting do not touch them.
-/
namespace InboxImapRules
open FaultyCalls InboxPython InboxMailbox InboxTables InboxDatabase InboxFolderSync InboxImapClient
open InboxMessageRoutes

abbrev Fact := Servers → Database → Prop

def Holds (I : Fact) (s : Request) : Prop := I s.servers s.session

/-- I holds while the connection of the account has this mailbox selected. -/
def At (I : Fact) (account : Nat) (selected : Option Selected) (s : Request) : Prop :=
  Holds I s ∧ s.client = some ⟨account, selected⟩

def writing (path : String) : Option Selected := some ⟨path, false⟩

/-- The servers after one mailbox of one account is another. -/
def putMailbox (servers : Servers) (account : Nat) (path : String) (mb : Mailbox) : Servers :=
  Function.update servers account ((servers account).put path mb)

theorem put_here (servers : Servers) (account : Nat) (path : String) (mb : Mailbox) :
    (putMailbox servers account path mb account).mailbox path = some mb := by
  rw [putMailbox, Function.update_self]
  exact Function.update_self path (some mb) (servers account).mailbox

theorem put_elsewhere (servers : Servers) {account a : Nat} {path p : String} (mb : Mailbox)
    (other : ¬ (a = account ∧ p = path)) :
    (putMailbox servers account path mb a).mailbox p = (servers a).mailbox p := by
  unfold putMailbox
  by_cases same : a = account
  · subst same
    have different : p ≠ path := fun samePath => other ⟨rfl, samePath⟩
    rw [Function.update_self]
    exact Function.update_of_ne different (some mb) (servers a).mailbox
  · rw [Function.update_of_ne same]

variable {A : Type} {I J F : Fact} {quiet : Bool} {account : Nat} {selected : Option Selected}
variable {path : String} (env : Environment)

theorem meets_imap {Q : A → Request → Prop} {effect : ImapServer → Option Selected →
      Except PyException (A × ImapServer × Option Selected)}
    (answered : ∀ s a server chosen, At I account selected s →
      effect (s.servers account) selected = .ok (a, server, chosen) →
      Q a (s.answered ⟨account, selected⟩ server chosen) ∧
        (quiet = false → F (Function.update s.servers account server) s.session))
    (refused : ∀ servers db e, I servers db → effect (servers account) selected = .error e →
      F servers db)
    (failed : quiet = false → ∀ servers db, I servers db → F servers db) :
    Meets (When quiet (At I account selected)) (imapCall effect) (fun a => When quiet (Q a))
      (When quiet (Holds F)) := by
  apply meets_call_when
  · intro s a s' holds ok
    rw [holds.2] at ok
    simp only at ok
    cases result : effect (s.servers account) selected with
    | error e => rw [result] at ok; contradiction
    | ok answer =>
      obtain ⟨b, server, chosen⟩ := answer
      rw [result] at ok
      simp only [Except.ok.injEq, Prod.mk.injEq] at ok
      obtain ⟨sameA, sameS⟩ := ok
      subst sameA
      subst sameS
      exact answered s b server chosen holds result
  · intro s e holds error
    rw [holds.2] at error
    simp only at error
    cases result : effect (s.servers account) selected with
    | error e' => exact refused s.servers s.session e' holds.1 result
    | ok answer => rw [result] at error; contradiction
  · intro loud s holds
    exact failed loud s.servers s.session holds.1

theorem meets_select {readonly : Bool}
    (refused : ∀ servers db, I servers db → (servers account).mailbox path = none → F servers db)
    (failed : quiet = false → ∀ servers db, I servers db → F servers db) :
    Meets (When quiet (At I account selected)) (selectFolder path readonly)
      (fun validity => When quiet (At (fun servers db => I servers db ∧
        ∃ mb, (servers account).mailbox path = some mb ∧ mb.uidvalidity = validity)
        account (some ⟨path, readonly⟩))) (When quiet (Holds F)) := by
  apply meets_imap
  · intro s validity server chosen holds ok
    cases found : (s.servers account).mailbox path with
    | none => rw [found] at ok; contradiction
    | some mb =>
      rw [found] at ok
      simp only [Except.ok.injEq, Prod.mk.injEq] at ok
      obtain ⟨sameValidity, sameServer, sameChosen⟩ := ok
      subst sameServer
      subst sameChosen
      have unchanged : Function.update s.servers account (s.servers account) = s.servers :=
        Function.update_eq_self account s.servers
      refine ⟨⟨?_, rfl⟩, ?_⟩
      · show I (Function.update s.servers account (s.servers account)) s.session ∧
          ∃ mb, (Function.update s.servers account (s.servers account) account).mailbox path =
            some mb ∧ mb.uidvalidity = validity
        rw [unchanged]
        exact ⟨holds.1, mb, found, sameValidity⟩
      · intro loud
        rw [unchanged]
        exact failed loud s.servers s.session holds.1
  · intro servers db e holds error
    cases found : (servers account).mailbox path with
    | none => exact refused servers db holds found
    | some mb => rw [found] at error; contradiction
  · exact failed

theorem meets_open {readonly : Bool}
    (refused : ∀ servers db, I servers db → (servers account).mailbox path = none → F servers db)
    (failed : quiet = false → ∀ servers db, I servers db → F servers db) :
    Meets (When quiet (At I account selected)) (selectFolder path readonly)
      (fun _ => When quiet (At I account (some ⟨path, readonly⟩))) (When quiet (Holds F)) := by
  apply meets_post (meets_select refused failed)
  exact fun validity c holds => ⟨holds.1, holds.2.1.1, holds.2.2⟩

theorem meets_change {f : Mailbox → Mailbox}
    (step : ∀ servers db mb, I servers db → (servers account).mailbox path = some mb →
      J (putMailbox servers account path (f mb)) db)
    (missing : ∀ servers db, I servers db → (servers account).mailbox path = none → F servers db)
    (failed : quiet = false → (∀ servers db, I servers db → F servers db) ∧
      ∀ servers db, J servers db → F servers db) :
    Meets (When quiet (At I account (writing path))) (changeSelected f)
      (fun _ => When quiet (At J account (writing path))) (When quiet (Holds F)) := by
  unfold changeSelected onSelected
  apply meets_imap
  · intro s _ server chosen holds ok
    simp only [writing] at ok
    cases found : (s.servers account).mailbox path with
    | none => rw [found] at ok; contradiction
    | some mb =>
      rw [found] at ok
      simp only [Bool.false_eq_true, if_false, Except.ok.injEq, Prod.mk.injEq, true_and] at ok
      obtain ⟨sameServer, sameChosen⟩ := ok
      subst sameServer
      subst sameChosen
      have after := step s.servers s.session mb holds.1 found
      exact ⟨⟨after, rfl⟩, fun loud => (failed loud).2 _ _ after⟩
  · intro servers db e holds error
    simp only [writing] at error
    cases found : (servers account).mailbox path with
    | none => exact missing servers db holds found
    | some mb =>
      rw [found] at error
      simp only [Bool.false_eq_true, if_false] at error
      contradiction
  · exact fun loud => (failed loud).1

theorem meets_copy {uids : List Nat} {target : String}
    (step : ∀ servers db mb into, I servers db → (servers account).mailbox path = some mb →
      (servers account).mailbox target = some into →
      J (putMailbox servers account target (copied mb uids into)) db)
    (missing : ∀ servers db, I servers db → ((servers account).mailbox path = none ∨
      (servers account).mailbox target = none) → F servers db)
    (failed : quiet = false → (∀ servers db, I servers db → F servers db) ∧
      ∀ servers db, J servers db → F servers db) :
    Meets (When quiet (At I account (writing path))) (copy uids target)
      (fun _ => When quiet (At J account (writing path))) (When quiet (Holds F)) := by
  apply meets_imap
  · intro s _ server chosen holds ok
    simp only [writing] at ok
    cases found : (s.servers account).mailbox path with
    | none => rw [found] at ok; contradiction
    | some mb =>
      cases there : (s.servers account).mailbox target with
      | none => rw [found, there] at ok; contradiction
      | some into =>
        rw [found, there] at ok
        simp only [Except.ok.injEq, Prod.mk.injEq, true_and] at ok
        obtain ⟨sameServer, sameChosen⟩ := ok
        subst sameServer
        subst sameChosen
        have after := step s.servers s.session mb into holds.1 found there
        exact ⟨⟨after, rfl⟩, fun loud => (failed loud).2 _ _ after⟩
  · intro servers db e holds error
    simp only [writing] at error
    cases found : (servers account).mailbox path with
    | none => exact missing servers db holds (.inl found)
    | some mb =>
      cases there : (servers account).mailbox target with
      | none => exact missing servers db holds (.inr there)
      | some into => rw [found, there] at error; contradiction
  · exact fun loud => (failed loud).1

theorem meets_find_special {use : SpecialUse}
    (failed : quiet = false → ∀ servers db, I servers db → F servers db) :
    Meets (When quiet (At I account selected)) (findSpecialFolder env use)
      (fun answer => When quiet fun s => answer = env.special use ∧ At I account selected s)
      (When quiet (Holds F)) := by
  apply meets_imap
  · intro s answer server chosen holds ok
    simp only [Except.ok.injEq, Prod.mk.injEq] at ok
    obtain ⟨sameAnswer, sameServer, sameChosen⟩ := ok
    subst sameServer
    subst sameChosen
    have unchanged : Function.update s.servers account (s.servers account) = s.servers :=
      Function.update_eq_self account s.servers
    refine ⟨⟨sameAnswer.symm, ?_, rfl⟩, ?_⟩
    · show I (Function.update s.servers account (s.servers account)) s.session
      rw [unchanged]
      exact holds.1
    · intro loud
      rw [unchanged]
      exact failed loud s.servers s.session holds.1
  · intro servers db e _ error
    contradiction
  · exact failed

/- A call that is always answered and leaves the servers and the session alone. -/
theorem meets_harmless {effect : Request → Request}
    (same : ∀ s, (effect s).servers = s.servers ∧ (effect s).session = s.session)
    (failed : quiet = false → ∀ servers db, I servers db → F servers db) :
    Meets (When quiet (Holds I)) (call .connectionError fun s => .ok ((), effect s) : Action Unit)
      (fun _ => When quiet (Holds I)) (When quiet (Holds F)) := by
  have kept : ∀ s, Holds I s → Holds I (effect s) := by
    intro s holds
    unfold Holds
    rw [(same s).1, (same s).2]
    exact holds
  apply meets_call_when
  · intro s _ s' holds ok
    simp only [Except.ok.injEq, Prod.mk.injEq, true_and] at ok
    subst ok
    exact ⟨kept s holds, fun loud => failed loud _ _ (kept s holds)⟩
  · intro s e _ error
    contradiction
  · exact fun loud s holds => failed loud s.servers s.session holds

theorem meets_logout (failed : quiet = false → ∀ servers db, I servers db → F servers db) :
    Meets (When quiet (Holds I)) logout (fun _ => When quiet (Holds I)) (When quiet (Holds F)) :=
  meets_harmless (fun _ => ⟨rfl, rfl⟩) failed

theorem meets_token (failed : quiet = false → ∀ servers db, I servers db → F servers db) :
    Meets (When quiet (Holds I)) (acquireToken env) (fun _ => When quiet (Holds I))
      (When quiet (Holds F)) := by
  unfold acquireToken
  apply meets_bind (Q := fun _ => When quiet (Holds I))
  · exact meets_harmless (fun _ => ⟨rfl, rfl⟩) failed
  · intro _
    split
    · exact meets_modify_when fun _ holds => holds
    · exact meets_pure fun _ holds => holds

theorem meets_connect {owner : Account}
    (failed : quiet = false → ∀ servers db, I servers db → F servers db) :
    Meets (When quiet (Holds I)) (openImapConnection env owner)
      (fun _ => When quiet (At I owner.id none)) (When quiet (Holds F)) := by
  apply meets_bind (Q := fun _ => When quiet (Holds I))
  · unfold acquireImapToken
    cases owner.protocol with
    | imapBasic => exact meets_pure fun _ holds => holds
    | oauthMicrosoft => exact meets_token env failed
  · intro _
    apply meets_call_when
    · intro s _ s' holds ok
      simp only [Except.ok.injEq, Prod.mk.injEq, true_and] at ok
      subst ok
      exact ⟨⟨holds, rfl⟩, fun loud => failed loud _ _ holds⟩
    · intro s e _ error
      contradiction
    · exact fun loud s holds => failed loud s.servers s.session holds

end InboxImapRules
