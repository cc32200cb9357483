import InboxOne.ImapRules

/-!
One rule for each endpoint, over what may be said of the servers at its steps. The rows
and folders a request reads are those of the database it began with.
-/
namespace InboxRouteRules
open FaultyCalls InboxPython InboxMailbox InboxTables InboxDatabase InboxFolderSync InboxImapClient
open InboxMessageRoutes InboxImapRules

/-- The session still is `db`, and `I` holds of the servers. -/
def Sees (db : Database) (I : Servers → Prop) : Fact := fun servers session => session = db ∧ I servers

def Ofs (I : Servers → Prop) : Fact := fun servers _ => I servers

theorem ofs_of_sees {db : Database} {I F : Servers → Prop}
    (imp : ∀ servers, I servers → F servers) :
    ∀ servers session, Sees db I servers session → Ofs F servers session :=
  fun servers _ holds => imp servers holds.2

/-- What one flag of the payload makes of a message's flags. -/
def setFlag (flag : Flag) : Option Bool → Flags → Flags
  | none, flags => flags
  | some true, flags => flags ∪ {flag}
  | some false, flags => flags \ {flag}

theorem mem_set_flag (flag : Flag) (on : Bool) (flags : Flags) :
    flag ∈ setFlag flag (some on) flags ↔ on = true := by
  cases on <;> simp [setFlag]

theorem mem_set_other {flag other : Flag} (different : other ≠ flag) (value : Option Bool)
    (flags : Flags) : other ∈ setFlag flag value flags ↔ other ∈ flags := by
  cases value with
  | none => rfl
  | some on => cases on <;> simp [setFlag, different]

variable {quiet : Bool} {account : Nat} {path : String} (env : Environment)

/- A row finds its account and its folder; what is found does not change anything. -/
theorem meets_load_row {db : Database} {messageId : Nat} {m : Message} {folder : Folder}
    {P F : Config Request → Prop} (row : db.messageById messageId = some m)
    (home : db.folderOf m = some folder) (sees : ∀ c, P c → c.state.session = db) :
    ∃ owner : Account, owner.id = m.accountId ∧
      Meets P (loadMessage messageId) (fun found c => found = (m, owner, folder) ∧ P c) F := by
  obtain ⟨_, owner, _, _, known, same⟩ := message_home db (message_by_id_eq.mp row).1
  refine ⟨owner, same, ?_⟩
  apply meets_bind (meets_read (Q := fun a c => a = some m ∧ P c) ?_)
  · intro found
    cases found with
    | none => exact fun c holds => nomatch holds.1
    | some m' =>
      apply meets_bind (meets_read (Q := fun a c =>
        (m' = m ∧ a = (some owner, some folder)) ∧ P c) ?_)
      · intro both c holds
        obtain ⟨⟨sameRow, sameBoth⟩, rest⟩ := holds
        rw [sameRow, sameBoth]
        exact ⟨rfl, rest⟩
      · intro c holds
        have sameRow : m' = m := Option.some.inj holds.1
        rw [sameRow, sees c holds.2, known, home]
        exact ⟨⟨rfl, rfl⟩, holds.2⟩
  · intro c holds
    rw [sees c holds]
    exact ⟨row, holds⟩

theorem meets_load_missing {db : Database} {I : Servers → Prop} {messageId : Nat}
    {Q : Message × Account × Folder → Config Request → Prop} (absent : db.messageById messageId = none) :
    Meets (When quiet (Holds (Sees db I))) (loadMessage messageId) Q
      (When quiet (Holds (Ofs I))) := by
  apply meets_bind (meets_read (Q := fun a c => a = none ∧ When quiet (Holds (Sees db I)) c) ?_)
  · intro found
    cases found with
    | none => exact meets_raise fun c holds => ⟨holds.2.1, holds.2.2.2⟩
    | some m => exact fun c holds => nomatch holds.1
  · intro c holds
    have session : c.state.session = db := holds.2.1
    rw [session]
    exact ⟨absent, holds⟩

/-- J follows from I once every message of the mailbox has gone through f. -/
def Stepped (I J : Servers → Prop) (account : Nat) (path : String) (f : Mailbox → Mailbox) : Prop :=
  ∀ servers mb, I servers → (servers account).mailbox path = some mb →
    J (putMailbox servers account path (f mb))

def Missing (I F : Servers → Prop) (account : Nat) (path : String) : Prop :=
  ∀ servers, I servers → (servers account).mailbox path = none → F servers

theorem meets_store_flag {db : Database} {I J F : Servers → Prop} {uid : Nat} {flag : Flag}
    {value : Option Bool} (skipped : value = none → ∀ servers, I servers → J servers)
    (step : Stepped I J account path (storeFlags (setFlag flag value) [uid]))
    (missing : Missing I F account path)
    (failed : quiet = false → (∀ servers, I servers → F servers) ∧ ∀ servers, J servers → F servers) :
    Meets (When quiet (At (Sees db I) account (writing path))) (storeFlag uid flag value)
      (fun _ => When quiet (At (Sees db J) account (writing path))) (When quiet (Holds (Ofs F))) := by
  have stored : Meets (When quiet (At (Sees db I) account (writing path)))
      (changeSelected (storeFlags (setFlag flag value) [uid]))
      (fun _ => When quiet (At (Sees db J) account (writing path))) (When quiet (Holds (Ofs F))) := by
    apply meets_change
    · intro servers session mb holds found
      exact ⟨holds.1, step servers mb holds.2 found⟩
    · intro servers session holds none
      exact missing servers holds.2 none
    · intro loud
      exact ⟨ofs_of_sees (failed loud).1, ofs_of_sees (failed loud).2⟩
  cases value with
  | none =>
    apply meets_pure
    intro c holds
    exact ⟨holds.1, ⟨holds.2.1.1, skipped rfl _ holds.2.1.2⟩, holds.2.2⟩
  | some on =>
    cases on with
    | true => exact stored
    | false => exact stored

/- update_flags: SELECT, at most two STOREs, and the same change of the row. -/
theorem meets_update_flags (quiet : Bool) {db : Database} {I J L F : Servers → Prop} {messageId : Nat}
    {payload : FlagsUpdate} {m : Message} {folder : Folder}
    (row : db.messageById messageId = some m) (home : db.folderOf m = some folder)
    (seenSkipped : payload.seen = none → ∀ servers, I servers → J servers)
    (seen : Stepped I J m.accountId folder.imapPath (storeFlags (setFlag .seen payload.seen) [m.uid]))
    (flaggedSkipped : payload.flagged = none → ∀ servers, J servers → L servers)
    (flagged : Stepped J L m.accountId folder.imapPath
      (storeFlags (setFlag .flagged payload.flagged) [m.uid]))
    (missing : Missing I F m.accountId folder.imapPath)
    (missing' : Missing J F m.accountId folder.imapPath)
    (failed : quiet = false → (∀ servers, I servers → F servers) ∧
      (∀ servers, J servers → F servers) ∧ ∀ servers, L servers → F servers) :
    Meets (When quiet (Holds (Sees db I))) (updateFlags env messageId payload)
      (fun _ => When quiet fun s => s.stored =
        db.changeFlags [m.id] { seen := payload.seen, flagged := payload.flagged } ∧ L s.servers)
      (When quiet (Holds (Ofs F))) := by
  obtain ⟨owner, sameOwner, load⟩ := meets_load_row
    (P := When quiet (Holds (Sees db I))) (F := When quiet (Holds (Ofs F))) row home
    fun _ holds => holds.2.1
  have failI : quiet = false → ∀ servers session, Sees db I servers session → Ofs F servers session :=
    fun loud => ofs_of_sees (failed loud).1
  have apply_flags : Meets (When quiet (At (Sees db I) m.accountId none))
      (applyFlags folder.imapPath m.uid payload)
      (fun _ => When quiet (At (Sees db L) m.accountId (writing folder.imapPath)))
      (When quiet (Holds (Ofs F))) := by
    apply meets_bind (meets_open (fun servers _ holds none => missing servers holds.2 none) failI)
    intro _
    apply meets_bind (meets_store_flag seenSkipped seen missing
      fun loud => ⟨(failed loud).1, (failed loud).2.1⟩)
    intro _
    exact meets_store_flag flaggedSkipped flagged missing'
      fun loud => ⟨(failed loud).2.1, (failed loud).2.2⟩
  have change_row : Meets (When quiet (At (Sees db L) m.accountId (writing folder.imapPath)))
      (changeRows [m.id] { seen := payload.seen, flagged := payload.flagged })
      (fun _ => When quiet (Holds (Sees (db.changeFlags [m.id]
        { seen := payload.seen, flagged := payload.flagged }) L)))
      (When quiet (Holds (Ofs F))) := by
    apply meets_modify_when
    intro s holds
    have session : s.session = db := holds.1.1
    exact ⟨by rw [session], holds.1.2⟩
  unfold updateFlags
  apply meets_bind_known load
  apply meets_bind (sameOwner ▸ meets_connect env failI)
  intro _
  apply meets_bind (Q := fun _ => When quiet (Holds (Sees (db.changeFlags [m.id]
        { seen := payload.seen, flagged := payload.flagged }) L)))
  · apply meets_ensuring (meets_bind apply_flags fun _ => change_row)
    · intro _
      exact meets_logout fun loud => ofs_of_sees (failed loud).2.2
    · exact meets_logout fun _ _ _ holds => holds
  · intro _
    apply meets_modify_when
    exact fun s holds => holds

/- delete_message when the account has a Trash other than the folder of the row. -/
theorem meets_delete_message (quiet : Bool) {db : Database} {I J L N F : Servers → Prop} {messageId : Nat}
    {m : Message} {folder : Folder} {trash : String} (row : db.messageById messageId = some m)
    (home : db.folderOf m = some folder) (special : env.special .trash = some trash)
    (apart : folder.imapPath ≠ trash)
    (copies : ∀ servers mb into, I servers →
      (servers m.accountId).mailbox folder.imapPath = some mb →
      (servers m.accountId).mailbox trash = some into →
      J (putMailbox servers m.accountId trash (copied mb [m.uid] into)))
    (marks : Stepped J L m.accountId folder.imapPath
      (storeFlags (fun old => old ∪ {.deleted}) [m.uid]))
    (expunges : Stepped L N m.accountId folder.imapPath expunged)
    (missing : ∀ servers, I servers → ((servers m.accountId).mailbox folder.imapPath = none ∨
      (servers m.accountId).mailbox trash = none) → F servers)
    (missing' : Missing J F m.accountId folder.imapPath)
    (missing'' : Missing L F m.accountId folder.imapPath)
    (failed : quiet = false → (∀ servers, I servers → F servers) ∧ (∀ servers, J servers → F servers) ∧
      (∀ servers, L servers → F servers) ∧ ∀ servers, N servers → F servers) :
    Meets (When quiet (Holds (Sees db I))) (deleteMessage env messageId)
      (fun _ => When quiet fun s => s.stored = db.deleteMessage messageId ∧ N s.servers)
      (When quiet (Holds (Ofs F))) := by
  obtain ⟨owner, sameOwner, load⟩ := meets_load_row
    (P := When quiet (Holds (Sees db I))) (F := When quiet (Holds (Ofs F))) row home
    fun _ holds => holds.2.1
  have failI : quiet = false → ∀ servers session, Sees db I servers session → Ofs F servers session :=
    fun loud => ofs_of_sees (failed loud).1
  have move : Meets (When quiet (At (Sees db I) m.accountId none))
      (moveToTrash folder.imapPath m.uid trash)
      (fun _ => When quiet (At (Sees db N) m.accountId (writing folder.imapPath)))
      (When quiet (Holds (Ofs F))) := by
    apply meets_bind (meets_open
      (fun servers _ holds none => missing servers holds.2 (.inl none)) failI)
    intro _
    apply meets_bind (meets_copy (J := Sees db J)
      (fun servers _ mb into holds here there => ⟨holds.1, copies servers mb into holds.2 here there⟩)
      (fun servers _ holds none => missing servers holds.2 none)
      (fun loud => ⟨failI loud, ofs_of_sees (failed loud).2.1⟩))
    intro _
    apply meets_bind (meets_change (J := Sees db L)
      (fun servers _ mb holds here => ⟨holds.1, marks servers mb holds.2 here⟩)
      (fun servers _ holds none => missing' servers holds.2 none)
      (fun loud => ⟨ofs_of_sees (failed loud).2.1, ofs_of_sees (failed loud).2.2.1⟩))
    intro _
    exact meets_change (J := Sees db N)
      (fun servers _ mb holds here => ⟨holds.1, expunges servers mb holds.2 here⟩)
      (fun servers _ holds none => missing'' servers holds.2 none)
      (fun loud => ⟨ofs_of_sees (failed loud).2.2.1, ofs_of_sees (failed loud).2.2.2⟩)
  have find_and_move : Meets (When quiet (At (Sees db I) m.accountId none))
      (trashMessage env folder.imapPath m.uid) (fun _ => When quiet (Holds (Sees db N)))
      (When quiet (Holds (Ofs F))) := by
    apply meets_bind_known (a := some trash)
      (R := When quiet (At (Sees db I) m.accountId none))
    · apply meets_post (meets_find_special env failI)
      exact fun answer c holds => ⟨holds.2.1.trans special, holds.1, holds.2.2⟩
    · simp only [if_neg apart]
      apply meets_post move
      exact fun _ c holds => ⟨holds.1, holds.2.1⟩
  unfold deleteMessage
  apply meets_bind_known load
  apply meets_bind (sameOwner ▸ meets_connect env failI)
  intro _
  apply meets_bind (Q := fun _ => When quiet (Holds (Sees db N)))
  · apply meets_ensuring find_and_move
    · intro _
      exact meets_logout fun loud => ofs_of_sees (failed loud).2.2.2
    · exact meets_logout fun _ _ _ holds => holds
  · intro _
    apply meets_bind (Q := fun _ => When quiet (Holds (Sees (db.deleteMessage messageId) N)))
    · apply meets_modify_when
      intro s holds
      have session : s.session = db := holds.1
      exact ⟨by rw [session], holds.2⟩
    · intro _
      apply meets_modify_when
      exact fun s holds => holds

/- Without a Trash, or within it, delete_message does not touch the server. -/
theorem meets_delete_refused (quiet : Bool) {db : Database} {I : Servers → Prop} {messageId : Nat}
    {m : Message} {folder : Folder} (row : db.messageById messageId = some m)
    (home : db.folderOf m = some folder)
    (refused : ∀ trash, env.special .trash = some trash → folder.imapPath = trash) :
    Meets (When quiet (Holds (Sees db I))) (deleteMessage env messageId) (fun _ _ => False)
      (When quiet (Holds (Ofs I))) := by
  obtain ⟨owner, sameOwner, load⟩ := meets_load_row
    (P := When quiet (Holds (Sees db I))) (F := When quiet (Holds (Ofs I))) row home
    fun _ holds => holds.2.1
  have keep : quiet = false → ∀ servers session, Sees db I servers session → Ofs I servers session :=
    fun _ => ofs_of_sees fun _ holds => holds
  have find : Meets (When quiet (At (Sees db I) m.accountId none))
      (trashMessage env folder.imapPath m.uid) (fun _ _ => False) (When quiet (Holds (Ofs I))) := by
    apply meets_bind_known (a := env.special .trash)
      (R := When quiet (At (Sees db I) m.accountId none))
    · apply meets_post (meets_find_special env keep)
      exact fun answer c holds => ⟨holds.2.1, holds.1, holds.2.2⟩
    · cases special : env.special .trash with
      | none => exact meets_raise fun c holds => ⟨holds.1, holds.2.1.2⟩
      | some trash =>
        simp only [if_pos (refused trash special)]
        exact meets_raise fun c holds => ⟨holds.1, holds.2.1.2⟩
  unfold deleteMessage
  apply meets_bind_known load
  apply meets_bind (sameOwner ▸ meets_connect env keep)
  intro _
  apply meets_bind (Q := fun _ _ => False)
  · apply meets_ensuring find
    · exact fun _ c impossible => impossible.elim
    · exact meets_logout fun _ _ _ holds => holds
  · exact fun _ c impossible => impossible.elim

/-- The connection of the account is open, whatever it has selected. -/
def On (I : Fact) (account : Nat) (s : Request) : Prop := ∃ selected, At I account selected s

section Marking
variable {I J F : Fact}

theorem meets_mark_seen {uids : List Nat} (skipped : uids = [] → ∀ servers db, I servers db → J servers db)
    (step : ∀ servers db mb, I servers db → (servers account).mailbox path = some mb →
      J (putMailbox servers account path (storeFlags (fun old => old ∪ {.seen}) uids mb)) db)
    (missing : ∀ servers db, I servers db → (servers account).mailbox path = none → F servers db)
    (failed : quiet = false → (∀ servers db, I servers db → F servers db) ∧
      ∀ servers db, J servers db → F servers db) :
    Meets (When quiet (On I account)) (markSeen path uids) (fun _ => When quiet (On J account))
      (When quiet (Holds F)) := by
  unfold markSeen
  split
  · rename_i empty
    apply meets_pure
    intro c holds
    obtain ⟨still, selected, now, client⟩ := holds
    exact ⟨still, selected, skipped empty _ _ now, client⟩
  · intro c holds
    obtain ⟨still, selected, now⟩ := holds
    have marked : Meets (When quiet (At I account selected)) (do
          let _ ← selectFolder path false
          addFlags uids {.seen}) (fun _ => When quiet (At J account (writing path)))
        (When quiet (Holds F)) := by
      apply meets_bind (meets_open missing fun loud => (failed loud).1)
      intro _
      exact meets_change step missing failed
    have weaker : Meets (When quiet (At I account selected)) (do
          let _ ← selectFolder path false
          addFlags uids {.seen}) (fun _ => When quiet (On J account)) (When quiet (Holds F)) := by
      apply meets_post marked
      exact fun _ c holds => ⟨holds.1, _, holds.2⟩
    exact weaker c ⟨still, now⟩

theorem mem_batches {uids : List Nat} {uid : Nat} :
    uid ∈ uids ↔ ∃ batch ∈ batches uids, uid ∈ batch := by
  constructor
  · intro mem
    obtain ⟨k, inside, same⟩ := List.mem_iff_getElem.mp mem
    have place : k = k / readBatch * readBatch + k % readBatch := by
      rw [Nat.mul_comm, Nat.div_add_mod]
    have small : k % readBatch < readBatch := Nat.mod_lt _ (by decide)
    refine ⟨(uids.drop (k / readBatch * readBatch)).take readBatch, ?_, ?_⟩
    · apply List.mem_map.mpr
      refine ⟨k / readBatch, List.mem_range.mpr ?_, rfl⟩
      unfold readBatch at *
      omega
    · apply List.mem_iff_getElem.mpr
      refine ⟨k % readBatch, ?_, ?_⟩
      · rw [List.length_take, List.length_drop]
        omega
      · rw [List.getElem_take, List.getElem_drop]
        simp only [← place]
        exact same
  · intro there
    obtain ⟨batch, mem, inside⟩ := there
    obtain ⟨i, _, same⟩ := List.mem_map.mp mem
    rw [← same] at inside
    exact List.mem_of_mem_drop (List.mem_of_mem_take inside)

theorem mem_group_by {R K : Type} [BEq K] [LawfulBEq K] {key : R → K} {rows : List R} {k : K}
    {members : List R} :
    (k, members) ∈ groupBy key rows ↔
      (∃ r ∈ rows, key r = k) ∧ members = rows.filter fun r => key r == k := by
  unfold groupBy
  rw [List.mem_map]
  constructor
  · intro there
    obtain ⟨k', mem, same⟩ := there
    rw [Prod.mk.injEq] at same
    obtain ⟨sameKey, sameRows⟩ := same
    subst sameKey
    exact ⟨List.mem_map.mp (List.mem_eraseDups.mp mem), sameRows.symm⟩
  · intro both
    exact ⟨k, List.mem_eraseDups.mpr (List.mem_map.mpr both.1), by rw [both.2]⟩

section Groups
variable {db : Database} {accountId folderId : Option Nat}

theorem group_member {g : Nat × List Message}
    (mem : g ∈ groupBy (fun m => m.accountId) (unreadRows db accountId folderId)) {m : Message}
    (inside : m ∈ g.2) : m ∈ unreadRows db accountId folderId ∧ m.accountId = g.1 := by
  rw [(mem_group_by.mp mem).2, List.mem_filter, beq_iff_eq] at inside
  exact inside

theorem folder_member {rows : List Message} {h : String × List Message}
    (mem : h ∈ groupBy (pathOf db) rows) {m : Message} (inside : m ∈ h.2) :
    m ∈ rows ∧ pathOf db m = h.1 := by
  rw [(mem_group_by.mp mem).2, List.mem_filter, beq_iff_eq] at inside
  exact inside

theorem folder_nonempty {rows : List Message} {h : String × List Message}
    (mem : h ∈ groupBy (pathOf db) rows) : h.2 ≠ [] := by
  obtain ⟨⟨m, inside, same⟩, shape⟩ := mem_group_by.mp mem
  rw [shape]
  exact List.ne_nil_of_mem (List.mem_filter.mpr ⟨inside, beq_iff_eq.mpr same⟩)

theorem group_account {g : Nat × List Message}
    (mem : g ∈ groupBy (fun m => m.accountId) (unreadRows db accountId folderId)) :
    ∃ owner, db.accountById g.1 = some owner := by
  obtain ⟨⟨m, inside, same⟩, _⟩ := mem_group_by.mp mem
  obtain ⟨_, owner, _, _, known, _⟩ := message_home db (List.mem_of_mem_filter inside)
  exact ⟨owner, same ▸ known⟩

end Groups

/- The rows of one folder: one STORE for each batch, then the rows themselves. What a STORE
   establishes of the UIDs of its batch holds of all of them when the rows change. -/
theorem meets_mark_folder {rows : List Message} {M : Nat → Fact}
    (step : ∀ uids ∈ batches (rows.map fun m => m.uid), ∀ servers db mb, I servers db →
      (servers account).mailbox path = some mb →
      I (putMailbox servers account path (storeFlags (fun old => old ∪ {.seen}) uids mb)) db)
    (here : ∀ uids ∈ batches (rows.map fun m => m.uid), ∀ uid ∈ uids, ∀ servers db mb,
      I servers db → (servers account).mailbox path = some mb →
      M uid (putMailbox servers account path (storeFlags (fun old => old ∪ {.seen}) uids mb)) db)
    (keeps : ∀ uids ∈ batches (rows.map fun m => m.uid), ∀ uid servers db mb, I servers db →
      M uid servers db → (servers account).mailbox path = some mb →
      M uid (putMailbox servers account path (storeFlags (fun old => old ∪ {.seen}) uids mb)) db)
    (change : ∀ servers db, I servers db → (∀ m ∈ rows, M m.uid servers db) →
      J servers (db.changeFlags (rows.map Message.id) { seen := some true }))
    (missing : ∀ servers db, I servers db → (servers account).mailbox path = none → F servers db)
    (failed : quiet = false → ∀ servers db, I servers db → F servers db) :
    Meets (When quiet (On I account)) (markFolder path rows) (fun _ => When quiet (On J account))
      (When quiet (Holds F)) := by
  have each : ∀ uids ∈ batches (rows.map fun m => m.uid), ∀ _ : Unit,
      Meets (When quiet (On I account)) (markSeen path uids) (fun _ => When quiet (On I account))
        (When quiet (Holds F)) := by
    intro uids mem _
    exact meets_mark_seen (fun _ _ _ holds => holds) (step uids mem) missing
      fun loud => ⟨failed loud, failed loud⟩
  have marked : ∀ uid : { uid // uid ∈ rows.map fun m => m.uid }, Meets (When quiet (On I account))
      (foldEach (batches (rows.map fun m => m.uid)) () fun _ uids => markSeen path uids)
      (fun _ => When quiet (Holds (M uid))) (When quiet (Holds F)) := by
    intro uid
    let Both : Fact := fun now db => I now db ∧ M uid now db
    have both : ∀ c : Config Request, (When quiet (On I account) c ∧ When quiet (Holds (M uid)) c) ↔
        When quiet (On Both account) c := by
      intro c
      constructor
      · intro b
        obtain ⟨⟨still, selected, now, client⟩, _, marked⟩ := b
        exact ⟨still, selected, ⟨now, marked⟩, client⟩
      · intro b
        obtain ⟨still, selected, ⟨now, marked⟩, client⟩ := b
        exact ⟨⟨still, selected, now, client⟩, still, marked⟩
    obtain ⟨uids, batch, inBatch⟩ := mem_batches.mp uid.2
    have established := meets_fold_each_mem (I := When quiet (On I account))
      (M := When quiet (Holds (M uid))) (F := When quiet (Holds F))
      (f := fun (_ : Unit) uids => markSeen path uids) batch each
      (fun _ => by
        apply meets_weaken (meets_mark_seen (J := Both)
          (fun empty => absurd empty (List.ne_nil_of_mem inBatch))
          (fun servers db mb holds found => ⟨step uids batch servers db mb holds found,
            here uids batch uid inBatch servers db mb holds found⟩) missing
          fun loud => ⟨failed loud, fun servers db holds => failed loud servers db holds.1⟩)
        · exact fun c holds => holds
        · exact fun _ c holds => (both c).mpr holds
        · exact fun c holds => holds)
      (fun u uMem _ => by
        apply meets_weaken (meets_mark_seen (I := Both) (J := Both) (fun _ _ _ holds => holds)
          (fun servers db mb holds found => ⟨step u uMem servers db mb holds.1 found,
            keeps u uMem uid servers db mb holds.1 holds.2 found⟩)
          (fun servers db holds none => missing servers db holds.1 none)
          fun loud => ⟨fun servers db holds => failed loud servers db holds.1,
            fun servers db holds => failed loud servers db holds.1⟩)
        · exact fun c holds => (both c).mp holds
        · exact fun _ c holds => (both c).mpr holds
        · exact fun c holds => holds)
    apply meets_post (established ())
    exact fun _ c holds => holds.2
  unfold markFolder
  apply meets_bind (meets_and (meets_fold_each each ()) marked)
  intro _
  apply meets_bind (Q := fun _ => When quiet (On J account))
  · intro c holds
    obtain ⟨⟨still, selected, now, client⟩, all⟩ := holds
    exact ⟨still, selected, change _ _ now fun m mem =>
      (all ⟨m.uid, List.mem_map.mpr ⟨m, mem, rfl⟩⟩).2, client⟩
  · exact fun _ => meets_pure fun _ holds => holds

theorem batches_cons {uids : List Nat} (nonempty : uids ≠ []) :
    ∃ first rest, batches uids = first :: rest ∧ first ≠ [] := by
  obtain ⟨uid, tail, shape⟩ := List.exists_cons_of_ne_nil nonempty
  have inside : uid ∈ uids := by
    rw [shape]
    exact List.mem_cons_self
  obtain ⟨batch, mem, _⟩ := mem_batches.mp inside
  have positive : 0 < (uids.length + readBatch - 1) / readBatch := by
    have long : 0 < uids.length := List.length_pos_iff.mpr nonempty
    unfold readBatch
    omega
  obtain ⟨n, more⟩ := Nat.exists_eq_succ_of_ne_zero (Nat.ne_of_gt positive)
  refine ⟨(uids.drop (0 * readBatch)).take readBatch, _, by
    rw [batches, more, List.range_succ_eq_map]
    rfl, ?_⟩
  rw [shape, Nat.zero_mul, List.drop_zero]
  nofun

/- A folder whose mailbox is gone ends the loop of its account. -/
theorem meets_mark_missing {rows : List Message} (nonempty : rows ≠ [])
    (gone : ∀ servers db, I servers db → (servers account).mailbox path = none)
    (failed : quiet = false → ∀ servers db, I servers db → F servers db)
    (refused : ∀ servers db, I servers db → F servers db) :
    Meets (When quiet (On I account)) (markFolder path rows) (fun _ _ => False)
      (When quiet (Holds F)) := by
  have uids : (rows.map fun m => m.uid) ≠ [] := by
    intro empty
    exact nonempty (List.map_eq_nil_iff.mp empty)
  obtain ⟨first, rest, shape, some_uids⟩ := batches_cons uids
  unfold markFolder
  rw [shape]
  apply meets_bind (Q := fun _ _ => False)
  · apply meets_bind (Q := fun _ _ => False)
    · show Meets _ (markSeen path first) _ _
      unfold markSeen
      rw [if_neg some_uids]
      intro c holds
      obtain ⟨still, selected, now⟩ := holds
      have select : Meets (When quiet (At I account selected)) (selectFolder path false)
          (fun _ _ => False) (When quiet (Holds F)) := by
        apply meets_weaken (meets_select (fun servers db holds _ => refused servers db holds) failed)
        · exact fun c holds => holds
        · intro validity c there
          obtain ⟨_, ⟨before, mb, found, _⟩, _⟩ := there
          rw [gone _ _ before] at found
          contradiction
        · exact fun c holds => holds
      exact meets_bind select (fun _ c impossible => impossible.elim) c ⟨still, now⟩
    · exact fun _ c impossible => impossible.elim
  · exact fun _ c impossible => impossible.elim

/- The loop over an account's folders: only those before the first missing mailbox count. -/
theorem meets_mark_folders (present : String → Bool) {G : Config Request → Prop}
    (presence : ∀ servers db, I servers db → ∀ p, ((servers account).mailbox p).isSome = present p) :
    ∀ groups : List (String × List Message), (∀ g ∈ groups, g.2 ≠ []) →
      (∀ g ∈ groups.takeWhile fun g => present g.1, ∀ uids ∈ batches (g.2.map fun m => m.uid),
        ∀ servers db mb, I servers db → (servers account).mailbox g.1 = some mb →
        I (putMailbox servers account g.1 (storeFlags (fun old => old ∪ {.seen}) uids mb)) db) →
      (∀ g ∈ groups.takeWhile fun g => present g.1, ∀ servers db, I servers db →
        I servers (db.changeFlags (g.2.map Message.id) { seen := some true })) →
      Meets (When quiet (On I account)) (markFolders groups) (fun _ => When quiet (Holds I)) G := by
  intro groups
  induction groups with
  | nil =>
    intro _ _ _
    apply meets_pure
    intro c holds
    obtain ⟨still, _, now, _⟩ := holds
    exact ⟨still, now⟩
  | cons g groups ih =>
    obtain ⟨path, rows⟩ := g
    intro nonempty step change
    have others : ∀ g ∈ groups, g.2 ≠ [] := fun g mem => nonempty g (List.mem_cons_of_mem _ mem)
    cases here : present path with
    | false =>
      have gone : ∀ servers db, I servers db → (servers account).mailbox path = none := by
        intro servers db holds
        have absent := presence servers db holds path
        rw [here] at absent
        exact Option.isSome_eq_false_iff.mp absent |> Option.isNone_iff_eq_none.mp
      apply meets_bind (meets_attempt (meets_mark_missing (F := I)
        (nonempty _ List.mem_cons_self) gone (fun _ _ _ holds => holds) fun _ _ holds => holds))
      intro result
      cases result with
      | ok n => exact fun c impossible => impossible.elim
      | error e => exact meets_pure fun _ holds => holds
    | true =>
      rw [List.takeWhile_cons_of_pos (by exact here)] at step change
      have later := ih others (fun g mem => step g (List.mem_cons_of_mem _ mem))
        fun g mem => change g (List.mem_cons_of_mem _ mem)
      apply meets_bind (meets_attempt (meets_mark_folder (F := I) (J := I)
        (M := fun _ _ _ => True) (step _ List.mem_cons_self) (fun _ _ _ _ _ _ _ _ _ => trivial)
        (fun _ _ _ _ _ _ _ _ _ => trivial) (fun now db holds _ => change _ List.mem_cons_self now db holds)
        (fun _ _ holds _ => holds) fun _ _ _ holds => holds))
      intro result
      cases result with
      | ok n =>
        apply meets_bind later
        exact fun _ => meets_pure fun _ holds => holds
      | error e => exact meets_pure fun _ holds => holds

/- Undisturbed, a folder that the loop reaches establishes M, which the others keep. -/
theorem meets_mark_folders_mem (present : String → Bool) {M : Fact} {G : Config Request → Prop}
    {h : String × List Message}
    (here : Meets (When true (On I account)) (markFolder h.1 h.2)
      (fun _ => When true (On J account)) (When true (Holds fun _ _ => False))) :
    ∀ groups : List (String × List Message), h ∈ (groups.takeWhile fun g => present g.1) →
      (∀ g ∈ groups, present g.1 = true → Meets (When true (On I account)) (markFolder g.1 g.2)
        (fun _ => When true (On I account)) (When true (Holds fun _ _ => False))) →
      (∀ rest, (∀ g ∈ rest, g ∈ groups) → Meets (When true (On J account)) (markFolders rest)
        (fun _ => When true (Holds M)) G) →
      Meets (When true (On I account)) (markFolders groups) (fun _ => When true (Holds M)) G := by
  intro groups
  induction groups with
  | nil =>
    intro mem _ _
    contradiction
  | cons g groups ih =>
    intro mem each later
    cases there : present g.1 with
    | false =>
      rw [List.takeWhile_cons_of_neg (by simp [there])] at mem
      contradiction
    | true =>
      rw [List.takeWhile_cons_of_pos (by exact there)] at mem
      rcases List.mem_cons.mp mem with head | tail
      · subst head
        apply meets_bind (meets_attempt here)
        intro result
        cases result with
        | error e => exact fun c impossible => impossible.2.elim
        | ok n =>
          apply meets_bind (later groups fun g gMem => List.mem_cons_of_mem _ gMem)
          exact fun _ => meets_pure fun _ holds => holds
      · apply meets_bind (meets_attempt (each g List.mem_cons_self there))
        intro result
        cases result with
        | error e => exact fun c impossible => impossible.2.elim
        | ok n =>
          apply meets_bind (ih tail (fun g gMem => each g (List.mem_cons_of_mem _ gMem))
            fun rest inRest => later rest fun g gMem => List.mem_cons_of_mem _ (inRest g gMem))
          exact fun _ => meets_pure fun _ holds => holds

theorem path_of_congr {db db' : Database} (same : db'.folders = db.folders) :
    pathOf db' = pathOf db := by
  funext m
  unfold pathOf Database.folderOf
  rw [same]

/-- The session reads accounts and folders as the database has them. -/
def Familiar (db session : Database) : Prop :=
  session.accounts = db.accounts ∧ session.folders = db.folders

theorem familiar_change {db session : Database} {ids : List Nat} {change : FlagChange}
    (known : Familiar db session) : Familiar db (session.changeFlags ids change) := known

theorem meets_mark_account {db : Database} {rows : List Message} {owner : Account}
    {P Q F : Config Request → Prop} {R : Unit → Config Request → Prop}
    (familiar : ∀ c, P c → Familiar db c.state.session)
    (known : db.accountById account = some owner)
    (connect : Meets P (openImapConnection env owner) R Q)
    (folders : Meets (R ()) (markFolders (groupBy (pathOf db) rows)) (fun _ => Q) F)
    (leave : Meets Q logout (fun _ => Q) F) :
    Meets P (markAccount env (account, rows)) (fun _ => Q) F := by
  unfold markAccount
  apply meets_bind (meets_read (Q := fun session c => Familiar db session ∧ P c) ?_)
  · intro session
    apply meets_given
    intro familiar
    obtain ⟨accounts, sameFolders⟩ := familiar
    have found : session.accountById account = some owner := by
      rw [Database.accountById, accounts]
      exact known
    have paths : pathOf session = pathOf db := path_of_congr sameFolders
    simp only [found, paths]
    apply meets_bind (meets_attempt connect)
    intro result
    cases result with
    | error e => exact meets_pure fun _ holds => holds
    | ok _ =>
      apply meets_bind folders
      intro n
      apply meets_bind leave
      exact fun _ => meets_pure fun _ holds => holds
  · intro c holds
    exact ⟨familiar c holds, holds⟩

theorem meets_mark_account_when {db : Database} {rows : List Message} {owner : Account}
    (familiar : ∀ servers session, I servers session → Familiar db session)
    (known : db.accountById account = some owner)
    (folders : Meets (When quiet (On I account)) (markFolders (groupBy (pathOf db) rows))
      (fun _ => When quiet (Holds J)) (fun _ => False))
    (kept : quiet = false → ∀ servers db, I servers db → J servers db)
    (failed : quiet = false → ∀ servers db, J servers db → F servers db) :
    Meets (When quiet (Holds I)) (markAccount env (account, rows)) (fun _ => When quiet (Holds J))
      (When quiet (Holds F)) := by
  have sameOwner : owner.id = account := by simpa using List.find?_some known
  apply meets_mark_account env (fun c holds => familiar _ _ holds.2) known
    (sameOwner ▸ meets_connect env kept)
  · apply meets_weaken folders
    · exact fun c holds => ⟨holds.1, none, holds.2⟩
    · exact fun _ _ holds => holds
    · exact fun c impossible => impossible.elim
  · exact meets_logout failed

theorem meets_mark_all_read {db : Database} {accountId folderId : Option Nat}
    {P Q R F : Config Request → Prop}
    (loop : Meets P
      (markAccounts env (groupBy (fun m => m.accountId) (unreadRows db accountId folderId)))
      (fun _ => Q) F)
    (committed : Meets Q commit (fun _ => R) F) :
    Meets (fun c => c.state.session = db ∧ P c) (markAllRead env accountId folderId)
      (fun _ => R) F := by
  apply meets_bind_known (a := db) (R := P)
  · exact meets_read fun c holds => holds
  · apply meets_bind loop
    intro n
    apply meets_bind committed
    exact fun _ => meets_pure fun _ holds => holds

theorem meets_mark_all_read_when {db : Database} {accountId folderId : Option Nat}
    (loop : Meets (When quiet (Holds I))
      (markAccounts env (groupBy (fun m => m.accountId) (unreadRows db accountId folderId)))
      (fun _ => When quiet (Holds J)) (When quiet (Holds F))) :
    Meets (fun c => c.state.session = db ∧ When quiet (Holds I) c)
      (markAllRead env accountId folderId)
      (fun _ => When quiet fun s => s.stored = s.session ∧ J s.servers s.stored)
      (When quiet (Holds F)) := by
  apply meets_mark_all_read env loop
  apply meets_modify_when
  exact fun s holds => ⟨rfl, holds⟩

theorem meets_mark_accounts {groups : List (Nat × List Message)}
    (each : ∀ g ∈ groups, Meets (When quiet (Holds I)) (markAccount env g)
      (fun _ => When quiet (Holds I)) (When quiet (Holds F))) :
    Meets (When quiet (Holds I)) (markAccounts env groups) (fun _ => When quiet (Holds I))
      (When quiet (Holds F)) := by
  apply meets_fold_each
  intro g mem n
  apply meets_bind (each g mem)
  exact fun _ => meets_pure fun _ holds => holds

/- One account establishes M, every account keeps it. -/
theorem meets_mark_accounts_mem {groups : List (Nat × List Message)} {M : Fact}
    {g : Nat × List Message} (mem : g ∈ groups)
    (each : ∀ g ∈ groups, Meets (When quiet (Holds I)) (markAccount env g)
      (fun _ => When quiet (Holds I)) (When quiet (Holds F)))
    (here : Meets (When quiet (Holds I)) (markAccount env g)
      (fun _ => When quiet (Holds fun now db => I now db ∧ M now db)) (When quiet (Holds F)))
    (later : ∀ g ∈ groups, Meets (When quiet (Holds fun now db => I now db ∧ M now db))
      (markAccount env g) (fun _ => When quiet (Holds fun now db => I now db ∧ M now db))
      (When quiet (Holds F))) :
    Meets (When quiet (Holds I)) (markAccounts env groups)
      (fun _ => When quiet (Holds fun now db => I now db ∧ M now db)) (When quiet (Holds F)) := by
  have both : ∀ c : Config Request, When quiet (Holds I) c ∧ When quiet (Holds M) c ↔
      When quiet (Holds fun now db => I now db ∧ M now db) c := by
    intro c
    exact ⟨fun b => ⟨b.1.1, b.1.2, b.2.2⟩, fun b => ⟨⟨b.1, b.2.1⟩, ⟨b.1, b.2.2⟩⟩⟩
  have established := meets_fold_each_mem (I := When quiet (Holds I)) (M := When quiet (Holds M))
    (F := When quiet (Holds F)) (f := fun (updated : Nat) accountRows => do
      let n ← markAccount env accountRows
      pure (updated + n)) mem
    (fun x xMem n => meets_bind (each x xMem) fun _ => meets_pure fun _ holds => holds)
    (fun n => meets_bind here fun _ => meets_pure fun c holds => (both c).mpr holds)
    (fun x xMem n => meets_bind (Q := fun _ => When quiet (Holds fun now db => I now db ∧ M now db))
      (meets_weaken (later x xMem) (fun c holds => (both c).mp holds) (fun _ _ holds => holds)
        fun _ holds => holds) fun _ => meets_pure fun c holds => (both c).mpr holds)
  apply meets_post (established 0)
  exact fun _ c holds => (both c).mp holds

end Marking

end InboxRouteRules
