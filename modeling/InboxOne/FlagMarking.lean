import InboxOne.FlagAgreement

/-!
Marking all as read, where a call that fails takes no effect, and where none fails if a
folder needs several STOREs. While the rows of a folder are marked the server is ahead of
them; from folder to folder, and whatever a handler swallows, both are level.
-/
namespace InboxFlagMarking
open FaultyCalls InboxMailbox InboxTables InboxDatabase InboxImapClient InboxMessageRoutes
open InboxImapRules InboxRouteRules InboxMailboxFrames InboxSendRules InboxFlagAgreement
open InboxFolderRuns (FlagsAgree)

variable (env : Environment) {db : Database} {accountId folderId : Option Nat} {early : List Nat}
variable {rows : List Message} {account : Nat} {path : String}

/-- The flags of a row's message: \Seen also where it is marked `early`, before the row. -/
def ReadEarly (early : List Nat) (m : Message) (flags : Flags) : Prop :=
  m.isFlagged = decide (.flagged ∈ flags) ∧ m.isAnswered = decide (.answered ∈ flags) ∧
    (.seen ∈ flags ↔ m.isSeen = true ∨ m.id ∈ early)

/-- The session is the database with some rows marked; the server has marked these and the
early ones. -/
def MarkedEarly (db : Database) (early : List Nat) : Fact := fun now session =>
  Familiar db session ∧ ∃ done,
    session.messages.rows = db.messages.rows.map (readChange.applyTo done) ∧
    ∀ m ∈ db.messages.rows, RowAt now db m (ReadEarly (early ++ done) m)

def Level (db : Database) : Fact := MarkedEarly db []

/-- These rows of the database have their messages in this mailbox. -/
def Homed (db : Database) (account : Nat) (path : String) (rows : List Message) : Prop :=
  ∀ o ∈ rows, o ∈ db.messages.rows ∧ o.accountId = account ∧ pathOf db o = path

def idsOf (rows : List Message) (uids : List Nat) : List Nat :=
  (rows.filter fun m => m.uid ∈ uids).map Message.id

theorem mem_ids_of {uids : List Nat} {i : Nat} :
    i ∈ idsOf rows uids ↔ ∃ o ∈ rows, o.uid ∈ uids ∧ o.id = i := by
  simp [idsOf, and_assoc]

theorem mailbox_there {now : Servers} {session : Database}
    (marked : MarkedEarly db early now session) (homed : Homed db account path rows)
    (nonempty : rows ≠ []) : (now account).mailbox path ≠ none := by
  intro absent
  obtain ⟨o, oMem⟩ := List.exists_mem_of_ne_nil rows nonempty
  obtain ⟨row, account', path'⟩ := homed o oMem
  obtain ⟨_, _, _, read⟩ := marked
  obtain ⟨mb, here, _⟩ := read o row
  rw [account', path', absent] at here
  contradiction

/- A STORE puts the server ahead by the rows of its batch. -/
theorem marked_put {now : Servers} {session : Database} {cur : Mailbox} {uids : List Nat}
    (marked : MarkedEarly db early now session) (homed : Homed db account path rows)
    (inside : ∀ uid ∈ uids, ∃ o ∈ rows, o.uid = uid)
    (here : (now account).mailbox path = some cur) :
    MarkedEarly db (idsOf rows uids ++ early)
      (putMailbox now account path (storeFlags (fun old => old ∪ {.seen}) uids cur)) session := by
  obtain ⟨familiar, done, table, read⟩ := marked
  refine ⟨familiar, done, table, ?_⟩
  intro m mem
  apply row_at_store (read m mem) here
  · intro sameAccount samePath inUids flags before
    obtain ⟨flagged, answered, _⟩ := before
    obtain ⟨o, oMem, uid⟩ := inside m.uid inUids
    obtain ⟨row, account', path'⟩ := homed o oMem
    have same : m = o := same_place mem row (read m mem) (read o row)
      (sameAccount.trans account'.symm) (samePath.trans path'.symm) uid.symm
    have listed : m.id ∈ idsOf rows uids := mem_ids_of.mpr ⟨o, oMem, uid ▸ inUids, by rw [same]⟩
    refine ⟨by simpa using flagged, by simpa using answered, iff_of_true ?_ (.inr ?_)⟩
    · exact Finset.mem_union_right _ (Finset.mem_singleton_self _)
    · exact List.mem_append_left _ (List.mem_append_left _ listed)
  · intro missed flags before
    obtain ⟨flagged, answered, seen⟩ := before
    have outside : m.id ∉ idsOf rows uids := by
      intro listed
      obtain ⟨o, oMem, inUids, sameId⟩ := mem_ids_of.mp listed
      obtain ⟨row, account', path'⟩ := homed o oMem
      have same : o = m := id_determines row mem sameId
      subst same
      exact missed ⟨account', path', inUids⟩
    refine ⟨flagged, answered, seen.trans (or_congr_right ?_)⟩
    rw [List.append_assoc, List.mem_append (s := idsOf rows uids)]
    exact (or_iff_right outside).symm

theorem read_twice (first second : List Nat) (m : Message) :
    readChange.applyTo first (readChange.applyTo second m) = readChange.applyTo (first ++ second) m := by
  unfold FlagChange.applyTo
  by_cases inFirst : m.id ∈ first
  · by_cases inSecond : m.id ∈ second
    · simp [inFirst, inSecond, FlagChange.apply, readChange]
    · simp [inFirst, inSecond]
  · by_cases inSecond : m.id ∈ second
    · simp [inFirst, inSecond, FlagChange.apply]
    · simp [inFirst, inSecond]

/- Writing the rows that are early levels both again. -/
theorem level_change {now : Servers} {session : Database} {ids : List Nat}
    (marked : MarkedEarly db early now session) (all : ∀ i, i ∈ ids ↔ i ∈ early) :
    Level db now (session.changeFlags ids readChange) := by
  obtain ⟨familiar, done, table, read⟩ := marked
  refine ⟨familiar_change familiar, ids ++ done, ?_, ?_⟩
  · show (MessageTable.changeFlags session.messages ids readChange).rows = _
    rw [change_flags_rows, table, List.map_map]
    exact List.map_congr_left fun m _ => read_twice _ _ m
  · intro m mem
    apply row_at_weaken (read m mem)
    intro flags before
    obtain ⟨flagged, answered, seen⟩ := before
    refine ⟨flagged, answered, seen.trans (or_congr_right ?_)⟩
    rw [List.nil_append, List.mem_append, List.mem_append, all]

theorem level_agrees {now : Servers} {session : Database} (level : Level db now session) :
    InAgreement now session := by
  obtain ⟨familiar, done, table, read⟩ := level
  intro m' mem'
  rw [table] at mem'
  obtain ⟨m, mem, same⟩ := List.mem_map.mp mem'
  have there : RowAt now db m (FlagsAgree m') := by
    apply row_at_weaken (read m mem)
    intro flags before
    obtain ⟨flagged, answered, seen⟩ := before
    rw [List.nil_append] at seen
    rw [← same]
    unfold FlagChange.applyTo
    by_cases inDone : m.id ∈ done
    · rw [if_pos inDone]
      exact ⟨(decide_eq_true (seen.mpr (.inr inDone))).symm, flagged, answered⟩
    · rw [if_neg inDone]
      refine ⟨?_, flagged, answered⟩
      rw [Bool.eq_iff_iff, decide_eq_true_iff, seen, or_iff_left inDone]
  obtain ⟨mb, here, validity, rest⟩ := there
  have columns : m'.accountId = m.accountId ∧ m'.uidvalidity = m.uidvalidity ∧ m'.uid = m.uid ∧
      pathOf session m' = pathOf db m := by
    rw [path_of_congr familiar.2, ← same]
    unfold FlagChange.applyTo
    split
    · exact ⟨rfl, rfl, rfl, rfl⟩
    · exact ⟨rfl, rfl, rfl, rfl⟩
  refine ⟨mb, ?_, ?_, ?_⟩
  · rw [columns.1, columns.2.2.2, here]
  · rw [columns.2.1, validity]
  · rw [columns.2.2.1]
    exact rest

theorem fresh_level {s : Request} (fresh : Fresh db s) : Level db s.servers s.session := by
  obtain ⟨⟨_, session⟩, agrees⟩ := fresh
  rw [session]
  refine ⟨⟨rfl, rfl⟩, [], ?_, ?_⟩
  · have unchanged : readChange.applyTo [] = id := by
      funext m
      exact if_neg List.not_mem_nil
    rw [unchanged, List.map_id]
  · intro m mem
    apply row_at_weaken (agrees m mem)
    intro flags agree
    obtain ⟨seen, flagged, answered⟩ := agree
    refine ⟨flagged, answered, ?_⟩
    rw [seen, decide_eq_true_iff]
    exact (or_iff_left List.not_mem_nil).symm

theorem consumes_connect {owner : Account} : Consumes (openImapConnection env owner) := by
  apply consumes_bind
  · unfold acquireImapToken
    cases owner.protocol with
    | imapBasic => exact consumes_pure ()
    | oauthMicrosoft =>
      apply consumes_bind (consumes_call _ _)
      intro _
      split
      · exact consumes_modify _
      · exact consumes_pure ()
  · exact fun _ => consumes_call _ _

theorem batches_single {uids : List Nat} (nonempty : uids ≠ []) (few : uids.length ≤ readBatch) :
    batches uids = [uids] := by
  have positive : 0 < uids.length := List.length_pos_iff.mpr nonempty
  have one : (uids.length + readBatch - 1) / readBatch = 1 := by
    unfold readBatch at few ⊢
    omega
  unfold batches
  rw [one, List.range_one, List.map_singleton, Nat.zero_mul, List.drop_zero,
    List.take_of_length_le few]

section Calls
variable {allowed : Outcome → Prop}

/- One SELECT and one STORE. A call that fails finds both sides level, or none can fail. -/
theorem mark_seen_marks {uids : List Nat} (idle : ∀ o, allowed o → o ≠ .failed true)
    (homed : Homed db account path rows) (nonempty : rows ≠ [])
    (inside : ∀ uid ∈ uids, ∃ o ∈ rows, o.uid = uid)
    (settled : early = [] ∨ ∀ o, allowed o → o = .done) :
    Meets (Amid allowed (On (MarkedEarly db early) account)) (markSeen path uids)
      (fun _ => Amid allowed (On (MarkedEarly db (idsOf rows uids ++ early)) account))
      (Amid allowed (Holds (Level db))) := by
  have missing : ∀ servers session, MarkedEarly db early servers session →
      (servers account).mailbox path = none → Level db servers session :=
    fun _ _ marked absent => absurd absent (mailbox_there marked homed nonempty)
  unfold markSeen
  split
  · rename_i empty
    subst empty
    have unmoved : idsOf rows [] ++ early = early := by simp [idsOf]
    rw [unmoved]
    exact meets_pure fun _ holds => holds
  · rintro c ⟨may, selected, now⟩
    have select : Meets (Amid allowed (At (MarkedEarly db early) account selected))
        (selectFolder path false)
        (fun _ => Amid allowed (At (MarkedEarly db early) account (writing path)))
        (Amid allowed (Holds (Level db))) := by
      rcases settled with level | quiet
      · subst level
        exact meets_amid false (consumes_call _ _) nofun
          (meets_open missing fun _ _ _ holds => holds)
      · exact meets_amid true (consumes_call _ _) (fun _ => quiet)
          (meets_open missing nofun)
    have store : Meets (Amid allowed (At (MarkedEarly db early) account (writing path)))
        (addFlags uids {.seen})
        (fun _ => Amid allowed
          (At (MarkedEarly db (idsOf rows uids ++ early)) account (writing path)))
        (Amid allowed (Holds (Level db))) := by
      unfold addFlags changeSelected onSelected imapCall
      apply meets_call_amid idle
      · exact meets_change (fun _ _ _ marked here => marked_put marked homed inside here) missing
          nofun
      · intro o may fails s holds
        rcases settled with level | quiet
        · subst level
          exact holds.1
        · exact absurd (quiet o may) fails
    have both : Meets (Amid allowed (At (MarkedEarly db early) account selected)) (do
          let _ ← selectFolder path false
          addFlags uids {.seen})
        (fun _ => Amid allowed (On (MarkedEarly db (idsOf rows uids ++ early)) account))
        (Amid allowed (Holds (Level db))) := by
      apply meets_bind select
      intro _
      apply meets_post store
      exact fun _ c holds => ⟨holds.1, _, holds.2⟩
    exact both c ⟨may, now⟩

theorem mark_folder_levels (idle : ∀ o, allowed o → o ≠ .failed true)
    (homed : Homed db account path rows) (nonempty : rows ≠ [])
    (settled : rows.length ≤ readBatch ∨ ∀ o, allowed o → o = .done) :
    Meets (Amid allowed (On (Level db) account)) (markFolder path rows)
      (fun _ => Amid allowed (On (Level db) account)) (Amid allowed (Holds (Level db))) := by
  let uids := rows.map fun m => m.uid
  have inside : ∀ batch ∈ batches uids, ∀ uid ∈ batch, ∃ o ∈ rows, o.uid = uid := by
    intro batch listed uid mem
    exact List.mem_map.mp (mem_batches.mpr ⟨batch, listed, mem⟩)
  have stored : Meets (Amid allowed (On (Level db) account))
      (foldEach (batches uids) () fun _ batch => markSeen path batch)
      (fun _ => Amid allowed
        (On (MarkedEarly db ((batches uids).reverse.flatMap (idsOf rows))) account))
      (Amid allowed (Holds (Level db))) := by
    rcases settled with few | quiet
    · have nonempty_uids : uids ≠ [] := fun empty => nonempty (List.map_eq_nil_iff.mp empty)
      have single : batches uids = [uids] := batches_single nonempty_uids (by simpa [uids] using few)
      rw [single] at inside ⊢
      apply meets_bind (mark_seen_marks idle homed nonempty (inside uids List.mem_cons_self)
        (.inl rfl))
      exact fun _ => meets_pure fun _ holds => by simpa using holds
    · have grown := meets_fold_each_done (F := Amid allowed (Holds (Level db)))
        (I := fun past => Amid allowed (On (MarkedEarly db (past.flatMap (idsOf rows))) account))
        (f := fun (_ : Unit) batch => markSeen path batch)
        (fun batch mem past _ => by
          rw [List.flatMap_cons]
          exact mark_seen_marks idle homed nonempty (inside batch mem) (.inr quiet)) [] ()
      rw [List.append_nil] at grown
      exact grown
  have all : ∀ i, i ∈ rows.map Message.id ↔ i ∈ (batches uids).reverse.flatMap (idsOf rows) := by
    intro i
    rw [List.mem_flatMap, List.mem_map]
    constructor
    · rintro ⟨o, mem, rfl⟩
      obtain ⟨batch, listed, uid⟩ := mem_batches.mp (List.mem_map_of_mem (f := fun m => m.uid) mem)
      exact ⟨batch, List.mem_reverse.mpr listed, mem_ids_of.mpr ⟨o, mem, uid, rfl⟩⟩
    · rintro ⟨batch, _, listed⟩
      obtain ⟨o, mem, _, same⟩ := mem_ids_of.mp listed
      exact ⟨o, mem, same⟩
  unfold markFolder
  apply meets_bind stored
  intro _
  apply meets_bind (Q := fun _ => Amid allowed (On (Level db) account))
  · rintro c ⟨may, selected, now, client⟩
    exact ⟨may, selected, level_change now all, client⟩
  · exact fun _ => meets_pure fun _ holds => holds

theorem mark_folders_level (idle : ∀ o, allowed o → o ≠ .failed true) {G : Config Request → Prop}
    (groups : List (String × List Message))
    (each : ∀ h ∈ groups, Homed db account h.1 h.2 ∧ h.2 ≠ [] ∧
      (h.2.length ≤ readBatch ∨ ∀ o, allowed o → o = .done)) :
    Meets (Amid allowed (On (Level db) account)) (markFolders groups)
      (fun _ => Amid allowed (Holds (Level db))) G := by
  induction groups with
  | nil => exact meets_pure fun _ ⟨may, _, now, _⟩ => ⟨may, now⟩
  | cons h groups ih =>
    obtain ⟨homed, nonempty, settled⟩ := each h List.mem_cons_self
    apply meets_bind (meets_attempt (mark_folder_levels idle homed nonempty settled))
    intro result
    cases result with
    | error e => exact meets_pure fun _ holds => holds
    | ok n =>
      apply meets_bind (ih fun g mem => each g (List.mem_cons_of_mem _ mem))
      exact fun _ => meets_pure fun _ holds => holds

theorem mark_account_levels (idle : ∀ o, allowed o → o ≠ .failed true) {g : Nat × List Message}
    (mem : g ∈ groupBy (fun m => m.accountId) (unreadRows db accountId folderId))
    (settled : ∀ h ∈ groupBy (pathOf db) g.2,
      h.2.length ≤ readBatch ∨ ∀ o, allowed o → o = .done) :
    Meets (Amid allowed (Holds (Level db))) (markAccount env g)
      (fun _ => Amid allowed (Holds (Level db))) (Amid allowed (Holds (Level db))) := by
  obtain ⟨owner, known⟩ := group_account mem
  have sameOwner : owner.id = g.1 := by simpa using List.find?_some known
  apply meets_mark_account env (fun _ holds => holds.2.1) known
  · exact meets_amid false (consumes_connect env) nofun
      (meets_connect env fun _ _ _ level => level)
  · rw [sameOwner]
    apply meets_weaken (mark_folders_level idle _ _)
    · exact fun _ holds => ⟨holds.1, none, holds.2⟩
    · exact fun _ _ holds => holds
    · exact fun _ holds => holds
    · intro h hMem
      refine ⟨?_, folder_nonempty hMem, settled h hMem⟩
      intro o oMem
      obtain ⟨inGroup, path⟩ := folder_member hMem oMem
      obtain ⟨selected, account⟩ := group_member mem inGroup
      exact ⟨List.mem_of_mem_filter selected, account, path⟩
  · exact meets_amid false (consumes_call _ _) nofun
      (meets_logout fun _ _ _ level => level)

theorem mark_all_read_keeps (idle : ∀ o, allowed o → o ≠ .failed true)
    (settled : ∀ g ∈ groupBy (fun m => m.accountId) (unreadRows db accountId folderId),
      ∀ h ∈ groupBy (pathOf db) g.2, h.2.length ≤ readBatch ∨ ∀ o, allowed o → o = .done) :
    Meets (Amid allowed (Fresh db)) (markAllRead env accountId folderId)
      (fun _ => Amid allowed Settled) (fun _ => True) := by
  have loop : Meets (Amid allowed (Holds (Level db)))
      (markAccounts env (groupBy (fun m => m.accountId) (unreadRows db accountId folderId)))
      (fun _ => Amid allowed (Holds (Level db))) (Amid allowed (Holds (Level db))) := by
    apply meets_fold_each
    intro g mem n
    apply meets_bind (mark_account_levels env idle mem (settled g mem))
    exact fun _ => meets_pure fun _ holds => holds
  apply meets_weaken (meets_mark_all_read env loop
    (R := Amid allowed Settled) (meets_modify fun c holds => ⟨holds.1, level_agrees holds.2⟩))
  · exact fun _ fresh => ⟨fresh.2.1.2, fresh.1, fresh_level fresh.2⟩
  · exact fun _ _ holds => holds
  · exact fun _ _ => trivial

end Calls

end InboxFlagMarking
