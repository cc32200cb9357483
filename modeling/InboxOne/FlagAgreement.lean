import InboxOne.FolderRuns
import InboxOne.MailboxFrames
import InboxOne.SendRules

/-!
Requests that keep both copies of a row's flags alike. Reading and flagging change the
server and the row; a reply changes the row alone.
-/
namespace InboxFlagAgreement
open FaultyCalls InboxPython InboxMailbox InboxTables InboxDatabase InboxFolderSync InboxImapClient
open InboxMessageRoutes InboxImapRules InboxRouteRules InboxMailboxFrames InboxSendRules
open InboxFolderRuns (FlagsAgree)

/-- The server holds the message of the row, with flags that satisfy P. -/
def RowAt (now : Servers) (db : Database) (m : Message) (P : Flags → Prop) : Prop :=
  ∃ mb, (now m.accountId).mailbox (pathOf db m) = some mb ∧ mb.uidvalidity = m.uidvalidity ∧
    ∃ r ∈ mb.messages, r.uid = m.uid ∧ P r.flags

/-- The cached flags of every row are the server's. -/
def InAgreement (now : Servers) (db : Database) : Prop :=
  ∀ m ∈ db.messages.rows, RowAt now db m (FlagsAgree m)

/-- The same once every row has gone through g. -/
def AgreesWith (db : Database) (g : Message → Message) (now : Servers) : Prop :=
  ∀ m ∈ db.messages.rows, RowAt now db m (FlagsAgree (g m))

section Rows
variable {now : Servers} {db : Database} {m : Message} {P Q : Flags → Prop} {account : Nat}
variable {path : String} {mb : Mailbox}

theorem row_at_weaken (there : RowAt now db m P) (weaker : ∀ flags, P flags → Q flags) :
    RowAt now db m Q := by
  obtain ⟨mb, here, validity, r, mem, uid, holds⟩ := there
  exact ⟨mb, here, validity, r, mem, uid, weaker r.flags holds⟩

/- A STORE reaches the row when it names its account, path and UID. -/
theorem row_at_store {f : Flags → Flags} {uids : List Nat} (there : RowAt now db m P)
    (here : (now account).mailbox path = some mb)
    (hit : m.accountId = account → pathOf db m = path → m.uid ∈ uids → ∀ flags, P flags → Q (f flags))
    (miss : ¬ (m.accountId = account ∧ pathOf db m = path ∧ m.uid ∈ uids) →
      ∀ flags, P flags → Q flags) :
    RowAt (putMailbox now account path (storeFlags f uids mb)) db m Q := by
  by_cases place : m.accountId = account ∧ pathOf db m = path
  · obtain ⟨sameAccount, samePath⟩ := place
    obtain ⟨mb', here', validity, r, mem, uid, holds⟩ := there
    rw [sameAccount, samePath, here, Option.some.injEq] at here'
    subst here'
    refine ⟨storeFlags f uids mb, ?_, validity,
      r.withFlags (if r.uid ∈ uids then f r.flags else r.flags), ?_, uid, ?_⟩
    · rw [sameAccount, samePath]
      exact put_here now account path _
    · exact mem_store_flags.mpr ⟨r, mem, rfl⟩
    · rw [withFlags_flags]
      split
      · rename_i inside
        exact hit sameAccount samePath (uid ▸ inside) r.flags holds
      · rename_i outside
        exact miss (fun all => outside (uid ▸ all.2.2)) r.flags holds
  · obtain ⟨mb', here', rest⟩ := row_at_weaken there (miss fun all => place ⟨all.1, all.2.1⟩)
    exact ⟨mb', by rw [put_elsewhere now _ place, here'], rest⟩

theorem row_at_arrive {gap : Nat} {content : Content} (there : RowAt now db m P)
    (here : (now account).mailbox path = some mb) :
    RowAt (putMailbox now account path (mb.arrive gap content)) db m P := by
  obtain ⟨mb', here', validity, r, mem, rest⟩ := there
  by_cases place : m.accountId = account ∧ pathOf db m = path
  · obtain ⟨sameAccount, samePath⟩ := place
    rw [sameAccount, samePath, here, Option.some.injEq] at here'
    subst here'
    refine ⟨mb.arrive gap content, ?_, validity, r, List.mem_append_left _ mem, rest⟩
    rw [sameAccount, samePath]
    exact put_here now account path _
  · exact ⟨mb', by rw [put_elsewhere now _ place, here'], validity, r, mem, rest⟩

theorem row_at_create {validity : Nat} (there : RowAt now db m P)
    (absent : (now account).mailbox path = none) :
    RowAt (putMailbox now account path (emptyMailbox validity)) db m P := by
  obtain ⟨mb', here', rest⟩ := there
  have other : ¬ (m.accountId = account ∧ pathOf db m = path) := by
    intro place
    rw [place.1, place.2, absent] at here'
    contradiction
  exact ⟨mb', by rw [put_elsewhere now _ other, here'], rest⟩

/- Two rows of one message are one row. -/
theorem same_place {o : Message} (mem : m ∈ db.messages.rows) (mem' : o ∈ db.messages.rows)
    (there : RowAt now db m P) (there' : RowAt now db o Q) (account : m.accountId = o.accountId)
    (path : pathOf db m = pathOf db o) (uid : m.uid = o.uid) : m = o := by
  obtain ⟨f, _, home, owner, _⟩ := message_home db mem
  obtain ⟨f', _, home', owner', _⟩ := message_home db mem'
  obtain ⟨fMem, id⟩ := folder_of_eq.mp home
  obtain ⟨fMem', id'⟩ := folder_of_eq.mp home'
  have sameFolder : f = f' := by
    apply path_determines fMem fMem' (owner.trans (account.trans owner'.symm))
    rw [← path_of_folder home, ← path_of_folder home', path]
  obtain ⟨mb, here, validity, _⟩ := there
  obtain ⟨mb', here', validity', _⟩ := there'
  rw [account, path, here', Option.some.injEq] at here
  have sameValidity : m.uidvalidity = o.uidvalidity := by rw [← validity, ← validity', here]
  apply identity_determines mem mem'
  rw [Message.identity, Message.identity, NewMessage.identity, NewMessage.identity, account, uid,
    sameValidity, ← id, ← id', sameFolder]

theorem row_at_change {ids : List Nat} {change : FlagChange} :
    RowAt now (db.changeFlags ids change) (change.applyTo ids m) P ↔ RowAt now db m P := by
  unfold FlagChange.applyTo
  split
  · exact Iff.rfl
  · exact Iff.rfl

theorem agreement_after_change {ids : List Nat} {change : FlagChange}
    (agrees : AgreesWith db (change.applyTo ids) now) : InAgreement now (db.changeFlags ids change) := by
  intro m' mem'
  have listed : m' ∈ db.messages.rows.map (change.applyTo ids) :=
    change_flags_rows db.messages ids change ▸ mem'
  obtain ⟨m, mem, same⟩ := List.mem_map.mp listed
  rw [← same]
  exact row_at_change.mpr (agrees m mem)

end Rows

section Flags
variable {m : Message} {flags : Flags}

theorem apply_to_row (change : FlagChange) (m : Message) : change.applyTo [m.id] m = change.apply m :=
  if_pos List.mem_cons_self

theorem apply_to_other {change : FlagChange} {o : Message} (other : o.id ≠ m.id) :
    change.applyTo [m.id] o = o :=
  if_neg fun inside => other (List.mem_singleton.mp inside)

theorem agree_seen (agree : FlagsAgree m flags) (value : Option Bool) :
    FlagsAgree (FlagChange.apply { seen := value } m) (setFlag .seen value flags) := by
  obtain ⟨seen, flagged, answered⟩ := agree
  cases value with
  | none => exact ⟨seen, flagged, answered⟩
  | some on =>
    refine ⟨?_, ?_, ?_⟩
    · show on = _
      simp [mem_set_flag]
    · rw [decide_eq_decide.mpr (mem_set_other (by decide) (some on) flags)]
      exact flagged
    · rw [decide_eq_decide.mpr (mem_set_other (by decide) (some on) flags)]
      exact answered

theorem agree_flagged {before : Option Bool}
    (agree : FlagsAgree (FlagChange.apply { seen := before } m) flags) (value : Option Bool) :
    FlagsAgree (FlagChange.apply { seen := before, flagged := value } m)
      (setFlag .flagged value flags) := by
  obtain ⟨seen, flagged, answered⟩ := agree
  cases value with
  | none => exact ⟨seen, flagged, answered⟩
  | some on =>
    refine ⟨?_, ?_, ?_⟩
    · rw [decide_eq_decide.mpr (mem_set_other (by decide) (some on) flags)]
      exact seen
    · show on = _
      simp [mem_set_flag]
    · rw [decide_eq_decide.mpr (mem_set_other (by decide) (some on) flags)]
      exact answered

end Flags

/- A STORE that names one row brings its message to the new flags of the row. -/
theorem agrees_stepped {db : Database} {g g' : Message → Message} {m : Message} {path : String}
    {f : Flags → Flags} (mem : m ∈ db.messages.rows) (there : pathOf db m = path)
    (others : ∀ o : Message, o.id ≠ m.id → g' o = g o)
    (step : ∀ flags, FlagsAgree (g m) flags → FlagsAgree (g' m) (f flags)) :
    Stepped (AgreesWith db g) (AgreesWith db g') m.accountId path (storeFlags f [m.uid]) := by
  intro now mb agrees here o oMem
  apply row_at_store (agrees o oMem) here
  · intro account samePath uid flags before
    have same : o = m := same_place oMem mem (agrees o oMem) (agrees m mem) account
      (samePath.trans there.symm) (List.mem_singleton.mp uid)
    rw [same] at before ⊢
    exact step flags before
  · intro outside flags before
    have other : o.id ≠ m.id := by
      intro sameId
      have same : o = m := id_determines oMem mem sameId
      rw [same] at outside
      exact outside ⟨rfl, there, List.mem_singleton.mpr rfl⟩
    rw [others o other]
    exact before

variable (env : Environment)

/-- A request begins with what is committed, in agreement with the servers. -/
def Fresh (db : Database) (s : Request) : Prop := Untouched db s ∧ InAgreement s.servers db

/-- A request has ended and what is committed agrees. -/
def Settled (s : Request) : Prop := InAgreement s.servers s.stored

def KeepsAgreement {A : Type} (quiet : Bool) (program : Action A) : Prop :=
  ∀ db, Meets (When quiet (Fresh db)) program (fun _ => When quiet Settled) (fun _ => True)

section Requests
variable {quiet : Bool} {db : Database} {messageId : Nat} {A : Type}

theorem fresh_sees {c : Config Request} (fresh : When quiet (Fresh db) c) :
    When quiet (Holds (Sees db (AgreesWith db id))) c :=
  ⟨fresh.1, fresh.2.1.2, fresh.2.2⟩

/- Without the row the request fails. -/
theorem missing_keeps {next : Message × Account × Folder → Action A}
    (absent : db.messageById messageId = none) :
    Meets (When quiet (Fresh db)) (loadMessage messageId >>= next) (fun _ => When quiet Settled)
      (fun _ => True) := by
  apply meets_weaken (P := When quiet (Holds (Sees db (AgreesWith db id))))
    (Q := fun _ => When quiet Settled) (F := When quiet (Holds (Ofs (AgreesWith db id))))
  · exact meets_bind (meets_load_missing (Q := fun _ _ => False) absent)
      fun _ _ impossible => impossible.elim
  · exact fun _ fresh => fresh_sees fresh
  · exact fun _ _ holds => holds
  · exact fun _ _ => trivial

/-- A request keeps the agreement when it does so for the row that it loads. -/
theorem keeps_of_row {next : Message × Account × Folder → Action A}
    (each : ∀ {db : Database} {m : Message} {owner : Account} {folder : Folder},
      m ∈ db.messages.rows → db.folderOf m = some folder → owner.id = m.accountId →
        Meets (When false (Fresh db)) (next (m, owner, folder)) (fun _ => When false Settled)
          (fun _ => True)) :
    KeepsAgreement false (loadMessage messageId >>= next) := by
  intro db
  cases row : db.messageById messageId with
  | none => exact missing_keeps row
  | some m =>
    have mem := (message_by_id_eq.mp row).1
    obtain ⟨folder, _, home, _⟩ := message_home db mem
    obtain ⟨owner, sameOwner, load⟩ := meets_load_row (P := When false (Fresh db))
      (F := fun _ => True) row home fun _ fresh => fresh.2.1.2
    exact meets_bind_known load (each mem home sameOwner)

theorem update_flags_keeps {payload : FlagsUpdate} :
    KeepsAgreement false (updateFlags env messageId payload) := by
  intro db
  cases row : db.messageById messageId with
  | none => exact missing_keeps row
  | some m =>
    have mem := (message_by_id_eq.mp row).1
    obtain ⟨folder, _, home, _⟩ := message_home db mem
    have there : pathOf db m = folder.imapPath := path_of_folder home
    let half : FlagChange := { seen := payload.seen }
    let whole : FlagChange := { seen := payload.seen, flagged := payload.flagged }
    have seen : Stepped (AgreesWith db id) (AgreesWith db (half.applyTo [m.id])) m.accountId
        folder.imapPath (storeFlags (setFlag .seen payload.seen) [m.uid]) := by
      apply agrees_stepped mem there
      · exact fun o other => apply_to_other other
      · intro flags agree
        rw [apply_to_row]
        exact agree_seen agree payload.seen
    have flagged : Stepped (AgreesWith db (half.applyTo [m.id])) (AgreesWith db (whole.applyTo [m.id]))
        m.accountId folder.imapPath (storeFlags (setFlag .flagged payload.flagged) [m.uid]) := by
      apply agrees_stepped mem there
      · exact fun o other => (apply_to_other other).trans (apply_to_other other).symm
      · intro flags agree
        rw [apply_to_row] at agree ⊢
        exact agree_flagged agree payload.flagged
    have seen_skipped : payload.seen = none → ∀ now, AgreesWith db id now →
        AgreesWith db (half.applyTo [m.id]) now := by
      intro absent now agrees o oMem
      have same : half.applyTo [m.id] o = o := by
        simp only [half, absent, FlagChange.applyTo, FlagChange.apply, Option.getD_none, ite_self]
      rw [same]
      exact agrees o oMem
    have flagged_skipped : payload.flagged = none → ∀ now, AgreesWith db (half.applyTo [m.id]) now →
        AgreesWith db (whole.applyTo [m.id]) now := by
      intro absent now agrees
      have same : whole = half := by simp only [whole, half, absent]
      rw [same]
      exact agrees
    apply meets_weaken (meets_update_flags env false (F := fun _ => True) row home seen_skipped seen
      flagged_skipped flagged (fun _ _ _ => trivial) (fun _ _ _ => trivial)
      fun _ => ⟨fun _ _ => trivial, fun _ _ => trivial, fun _ _ => trivial⟩)
    · exact fun _ fresh => fresh_sees fresh
    · intro _ c holds
      obtain ⟨still, stored, agrees⟩ := holds
      refine ⟨still, ?_⟩
      unfold Settled
      rw [stored]
      exact agreement_after_change agrees
    · exact fun _ _ => trivial

section Reading
variable {m : Message} {folder : Folder} {owner : Account}

/-- Nothing is written yet; the servers are ahead of the rows by g. -/
def Ahead (db : Database) (g : Message → Message) (s : Request) : Prop :=
  Untouched db s ∧ AgreesWith db g s.servers

def readChange : FlagChange := { seen := some true }

theorem fetch_raw_ahead (marking : Bool) {g : Message → Message} (mem : m ∈ db.messages.rows)
    (home : db.folderOf m = some folder) (sameOwner : owner.id = m.accountId)
    (marks : marking = true → g = readChange.applyTo [m.id]) (peeks : marking = false → g = id) :
    Meets (When quiet (Fresh db)) (fetchRaw env owner folder m marking)
      (fun _ => When quiet (Ahead db g)) (fun _ => True) := by
  have fetched : Meets (When quiet (Holds (Sees db (AgreesWith db id))))
      (fetchRaw env owner folder m marking) (fun _ => When quiet (Holds (Sees db (AgreesWith db g))))
      (When quiet (Holds Anything)) := by
    apply meets_fetch_raw env sameOwner
    · intro marked now session mb holds here _
      rw [marks marked]
      refine ⟨holds.1, ?_⟩
      apply agrees_stepped mem (path_of_folder home) _ _ now mb holds.2 here
      · exact fun o other => apply_to_other other
      · intro flags agree
        rw [apply_to_row]
        exact agree_seen agree (some true)
    · intro peeked now session holds
      rw [peeks peeked]
      exact holds
  apply meets_weaken (meets_both fetched (untouched_fetch_raw env))
  · exact fun c fresh => ⟨fresh_sees fresh, fresh.1, fresh.2.1⟩
  · exact fun _ c both => ⟨both.1.1, both.2.2, both.1.2.2⟩
  · exact fun _ _ => trivial

theorem agreement_of_same {g : Message → Message} {now : Servers} (agrees : AgreesWith db g now)
    (same : ∀ o ∈ db.messages.rows, g o = o) : InAgreement now db := by
  intro o mem
  have there := agrees o mem
  rw [same o mem] at there
  exact there

/- A change of one row that has its values already changes nothing. -/
theorem apply_to_same {change : FlagChange} (mem : m ∈ db.messages.rows) (same : change.apply m = m)
    {o : Message} (oMem : o ∈ db.messages.rows) : change.applyTo [m.id] o = o := by
  by_cases own : o.id = m.id
  · have sameRow : o = m := id_determines oMem mem own
    rw [sameRow, apply_to_row, same]
  · exact apply_to_other own

theorem write_row_settles {change : FlagChange} {ids : List Nat} {B : Type} {b : B} :
    Meets (When quiet (Ahead db (change.applyTo ids))) (do
        changeRows ids change
        commit
        pure b) (fun _ => When quiet Settled) (fun _ => True) := by
  apply meets_bind (Q := fun _ => When quiet fun s =>
    s.session = db.changeFlags ids change ∧ AgreesWith db (change.applyTo ids) s.servers)
  · apply meets_modify_when
    intro s holds
    have session : s.session = db := holds.1.2
    exact ⟨by rw [session], holds.2⟩
  · intro _
    apply meets_bind (Q := fun _ => When quiet Settled)
    · apply meets_modify_when
      intro s holds
      show InAgreement s.servers s.session
      rw [holds.1]
      exact agreement_after_change holds.2
    · exact fun _ => meets_pure fun _ holds => holds

variable {Detail Attachment Draft : Type} (mail : MailFormat Detail Attachment Draft)

theorem get_message_keeps : KeepsAgreement false (getMessage mail env messageId) := by
  apply keeps_of_row
  intro db m owner folder mem home sameOwner
  apply meets_bind (fetch_raw_ahead env true mem home sameOwner (fun _ => rfl) nofun)
  intro raw
  apply meets_bind (Q := fun _ => When false (Ahead db (readChange.applyTo [m.id])))
  · unfold lift
    cases mail.parseFullMessage raw with
    | ok parsed => exact meets_pure fun _ holds => holds
    | error e => exact meets_raise fun _ _ => trivial
  · intro parsed
    split
    · rename_i seen
      apply meets_pure
      intro c holds
      refine ⟨holds.1, ?_⟩
      have same : readChange.apply m = m := by
        unfold FlagChange.apply readChange
        rw [Option.getD_some, ← seen]
        rfl
      unfold Settled
      rw [holds.2.1.1]
      exact agreement_of_same holds.2.2 fun o oMem => apply_to_same mem same oMem
    · exact write_row_settles

theorem get_attachment_keeps {partIndex : String} :
    KeepsAgreement false (getAttachment mail env messageId partIndex) := by
  apply keeps_of_row
  intro db m owner folder mem home sameOwner
  apply meets_bind (fetch_raw_ahead env false mem home sameOwner nofun fun _ => rfl)
  intro raw
  cases mail.extractAttachmentBytes raw partIndex with
  | ok attachment =>
    apply meets_pure
    intro c holds
    refine ⟨holds.1, ?_⟩
    unfold Settled
    rw [holds.2.1.1]
    exact holds.2.2
  | error e => exact meets_raise fun _ _ => trivial

theorem agreement_grows : Grows (Sees db (AgreesWith db id)) := by
  constructor
  · intro servers session account path mb gap content holds here
    exact ⟨holds.1, fun m mem => row_at_arrive (holds.2 m mem) here⟩
  · intro servers session account path validity holds absent
    exact ⟨holds.1, fun m mem => row_at_create (holds.2 m mem) absent⟩

/- Sending leaves the flags of every message alone; the row is marked all the same. -/
theorem meets_reply {request : ReplyRequest Draft} {m : Message}
    (row : db.messageById messageId = some m) :
    Meets (When quiet (Fresh db)) (reply mail env messageId request)
      (fun _ => When quiet fun s => AgreesWith db id s.servers ∧
        s.stored = db.changeFlags [messageId] { answered := some true }) (fun _ => True) := by
  obtain ⟨folder, _, home, _⟩ := message_home db (message_by_id_eq.mp row).1
  obtain ⟨owner, _, load⟩ := meets_load_row (F := fun _ => True)
    (P := When quiet (Holds (Sees db (AgreesWith db id)))) row home fun _ holds => holds.2.1
  unfold reply
  apply meets_weaken (P := When quiet (Holds (Sees db (AgreesWith db id)))) (F := fun _ => True)
    (Q := fun _ => When quiet fun s => AgreesWith db id s.servers ∧
      s.stored = db.changeFlags [messageId] { answered := some true })
  · apply meets_bind_known load
    apply meets_bind (meets_read (Q := fun _ => When quiet (Holds (Sees db (AgreesWith db id))))
      fun c holds => holds)
    intro found
    cases found with
    | none => exact meets_raise fun _ _ => trivial
    | some account =>
      apply meets_bind (Q := fun _ => When quiet (Holds (Sees db (AgreesWith db id))))
      · apply meets_weaken (meets_send_reply env mail agreement_grows)
        · exact fun _ holds => holds
        · exact fun _ _ holds => holds
        · exact fun _ _ => trivial
      · intro warning
        apply meets_bind (Q := fun _ => When quiet fun s => AgreesWith db id s.servers ∧
          s.session = db.changeFlags [messageId] { answered := some true })
        · apply meets_modify_when
          intro s holds
          have session : s.session = db := holds.1
          exact ⟨holds.2, by rw [session]⟩
        · intro _
          apply meets_bind (Q := fun _ => When quiet fun s => AgreesWith db id s.servers ∧
            s.stored = db.changeFlags [messageId] { answered := some true })
          · apply meets_modify_when
            exact fun s holds => holds
          · exact fun _ => meets_pure fun _ holds => holds
  · exact fun _ fresh => fresh_sees fresh
  · exact fun _ _ holds => holds
  · exact fun _ _ => trivial

/- So the agreement stays where there was nothing to write, and there only. -/
theorem answered_agrees_iff {m : Message} {now : Servers} (row : db.messageById messageId = some m)
    (agrees : AgreesWith db id now) :
    InAgreement now (db.changeFlags [messageId] { answered := some true }) ↔ m.isAnswered = true := by
  obtain ⟨mem, sameId⟩ := message_by_id_eq.mp row
  subst sameId
  constructor
  · intro after
    have listed : FlagChange.apply { answered := some true } m ∈
        (db.changeFlags [m.id] { answered := some true }).messages.rows := by
      show _ ∈ (MessageTable.changeFlags db.messages [m.id] { answered := some true }).rows
      rw [change_flags_rows]
      exact List.mem_map.mpr ⟨m, mem, apply_to_row _ m⟩
    have there := after _ listed
    rw [← apply_to_row] at there
    obtain ⟨mb, here, _, r, inBox, uid, _, _, marked⟩ := row_at_change.mp there
    obtain ⟨mb', here', _, r', inBox', uid', _, _, answered⟩ := agrees m mem
    rw [here, Option.some.injEq] at here'
    subst here'
    have same : r = r' := uid_determines inBox inBox' (uid.trans uid'.symm)
    rw [same, apply_to_row] at marked
    exact answered.trans marked.symm
  · intro answered
    have same : FlagChange.apply { answered := some true } m = m := by
      unfold FlagChange.apply
      rw [Option.getD_some, ← answered]
      rfl
    apply agreement_after_change
    intro o oMem
    rw [apply_to_same mem same oMem]
    exact agrees o oMem

theorem reply_keeps {request : ReplyRequest Draft}
    (answered : ∀ m, db.messageById messageId = some m → m.isAnswered = true) :
    Meets (When quiet (Fresh db)) (reply mail env messageId request) (fun _ => When quiet Settled)
      (fun _ => True) := by
  cases row : db.messageById messageId with
  | none => exact missing_keeps row
  | some m =>
    apply meets_weaken (meets_reply env mail row)
    · exact fun _ fresh => fresh
    · intro _ c holds
      refine ⟨holds.1, ?_⟩
      unfold Settled
      rw [holds.2.2]
      exact (answered_agrees_iff row holds.2.1).mpr (answered m row)
    · exact fun _ _ => trivial

end Reading

end Requests

end InboxFlagAgreement
