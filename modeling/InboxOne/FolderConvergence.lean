import InboxOne.FolderRuns

/- The invariant of folder runs: every step of the server and of the pass preserves
   it, and it contains what a completed pass has achieved. -/
namespace InboxFolderConvergence
open LabelledRuns InboxPython InboxMailbox InboxMailParser InboxTables InboxFolderSync
open InboxFolderSegments InboxFolderRuns

/- A change of the server under one UIDVALIDITY never brings an old UID back. -/
structure Evolves (s s' : Mailbox) : Prop where
  validity : s'.uidvalidity = s.uidvalidity
  uidNext : s.uidNext ≤ s'.uidNext
  old : ∀ uid, s'.Has uid → uid < s.uidNext → s.Has uid

theorem arrive_evolves (mb : Mailbox) (gap : Nat) (content : Content) :
    Evolves mb (mb.arrive gap content) := by
  refine ⟨rfl, ?_, ?_⟩
  · simp only [Mailbox.arrive]
    omega
  · intro uid has below
    rcases arrive_has.mp has with old | new
    · exact old
    · omega

theorem expunge_evolves (mb : Mailbox) (uid : Nat) : Evolves mb (expungeUid mb uid) :=
  ⟨rfl, Nat.le_refl _, fun _ has _ => remove_has has⟩

theorem change_flags_evolves (mb : Mailbox) (uid : Nat) (flags : Flags) :
    Evolves mb (changeFlagsOf mb uid flags) :=
  ⟨rfl, Nat.le_refl _, fun _ has _ => store_has.mp has⟩

theorem change_not_quiet {r : Record} (change : r.IsChange) (older : List Record) :
    ¬ QuietSinceSearch (r :: older) := by
  cases r <;> simp_all [Record.IsChange, QuietSinceSearch]

theorem change_last_search {r : Record} (change : r.IsChange) (older : List Record) :
    lastSearch (r :: older) = lastSearch older := by
  cases r <;> simp_all [Record.IsChange, lastSearch]

theorem one_row_per_uid {server : Mailbox} {used : List Nat} {db : FolderDb}
    (c : Consistent server used db) : OneRowPerUid db := by
  intro a b ha hb same
  have validity : a.uidvalidity = b.uidvalidity := by
    have := (c.current a ha).symm.trans (c.current b hb)
    exact Option.some.inj this
  have account := (c.owned a ha).trans (c.owned b hb).symm
  have folder : a.folderId = b.folderId := ha.2.trans hb.2.symm
  refine identity_determines ha.1 hb.1 ?_
  simp only [Message.identity, NewMessage.identity, validity, account, folder, same]

theorem change_sound {w : World} {s : Mailbox} {r : Record} (sound : Sound w)
    (evolves : Evolves w.server s) (change : r.IsChange) : Sound (w.change s r) := by
  obtain ⟨c, pass, _⟩ := sound
  have validity := evolves.validity
  have uidNext := evolves.uidNext
  have notQuiet := change_not_quiet change w.log
  have notCompleted : ∀ v older, r :: w.log ≠ .completed v :: older := by
    intro v older eq
    have head : r = .completed v := (List.cons.inj eq).1
    subst head
    exact change
  have keepSnapshot : ∀ remoteUids, Snapshot w.server w.db w.log remoteUids →
      Snapshot s w.db (r :: w.log) remoteUids := by
    intro remoteUids snap
    obtain ⟨bound, below, old, rows, remote⟩ := snap.bounded
    refine ⟨validity.symm ▸ snap.validity, snap.ascending,
      (change_last_search change w.log).trans (validity.symm ▸ snap.logged),
      ⟨bound, Nat.le_trans below uidNext, ?_, rows, remote⟩, fun quiet => absurd quiet notQuiet⟩
    intro uid has lt
    exact old uid (evolves.old uid has (by omega)) lt
  refine ⟨⟨c.owned, c.current, c.positive, ?_, ?_, ?_, c.folderUsed⟩, ?_, ?_⟩
  · intro same uid has upto
    have same : w.db.folder.lastUidvalidity = some w.server.uidvalidity := validity ▸ same
    have below := (c.earlier same).1
    exact c.caughtUp same uid (evolves.old uid has (Nat.lt_of_le_of_lt upto below)) upto
  · intro same
    have same : w.db.folder.lastUidvalidity = some w.server.uidvalidity := validity ▸ same
    exact ⟨Nat.lt_of_lt_of_le (c.earlier same).1 uidNext,
      fun m inside => Nat.lt_of_lt_of_le ((c.earlier same).2 m inside) uidNext⟩
  · exact validity.symm ▸ c.serverUsed
  · intro pc eq
    have before := (pass pc eq).1
    refine ⟨?_, fun v older eqLog => notCompleted v older eqLog⟩
    cases pc with
    | select => trivial
    | search v => exact ⟨before.1.trans validity.symm, before.2⟩
    | headers v remoteUids newUids =>
      exact ⟨before.1.trans validity.symm, keepSnapshot _ before.2.1, before.2.2⟩
    | flags remoteUids messages =>
      obtain ⟨snap, seen, afterUid, done, page⟩ := before
      refine ⟨keepSnapshot _ snap, seen, afterUid, ?_, page⟩
      intro m inside upto
      exact ⟨(done m inside upto).1, fun quiet => absurd quiet notQuiet⟩
  · exact fun v older eqLog => absurd eqLog (notCompleted v older)

/- The end of the import phase or of one reconciliation batch. -/
theorem reconcile_sound {server : Mailbox} {used : List Nat} {middle db : FolderDb}
    {pass : Option Pc} {log : List Record} {remoteUids : List Nat} {afterUid : Nat}
    (c : Consistent server used middle) (snap : Snapshot server middle log remoteUids)
    (seen : ∀ uid ∈ remoteUids, uid ≤ middle.folder.lastSeenUid)
    (done : Reconciled server middle log remoteUids afterUid)
    (run : (db, pass) = reconcileAfter middle remoteUids afterUid)
    (running : ∀ v older, log ≠ .completed v :: older) :
    Sound ⟨server, used, db, pass, endRecords db pass ++ log⟩ := by
  rcases reconcile_cases middle remoteUids afterUid with ⟨empty, eq⟩ | ⟨more, eq⟩
  · rw [eq, Prod.mk.injEq] at run
    obtain ⟨rfl, rfl⟩ := run
    refine ⟨⟨c.owned, c.current, c.positive, c.caughtUp, c.earlier, c.serverUsed, c.folderUsed⟩,
      fun pc none => by contradiction, ?_⟩
    intro v older eqLog
    have rest : log = older := (List.cons.inj eqLog).2
    refine ⟨remoteUids, rest ▸ snap.logged, ?_⟩
    have extra : ∀ uid, middle.Cached uid → uid ∈ remoteUids := by
      intro uid cached
      obtain ⟨m, inside, rfl⟩ := cached
      exact (done m inside (next_messages_empty empty inside)).1
    have missing : ∀ uid ∈ remoteUids, server.Has uid → middle.Cached uid :=
      fun uid mem has => c.caughtUp snap.validity uid has (seen uid mem)
    refine ⟨snap.validity, rfl, seen, extra, missing, ?_⟩
    intro quiet
    have quiet : QuietSinceSearch log := quiet.2
    refine ⟨fun uid => ⟨fun cached => (snap.quiet quiet uid).mpr (extra uid cached),
      fun has => missing uid ((snap.quiet quiet uid).mp has) has⟩, ?_⟩
    intro m inside remote found
    obtain ⟨other, same, agree⟩ := (done m inside (next_messages_empty empty inside)).2 quiet
    have one : other = remote := Option.some.inj (same.symm.trans found)
    exact one ▸ agree
  · rw [eq, Prod.mk.injEq] at run
    obtain ⟨rfl, rfl⟩ := run
    refine ⟨c, ?_, fun v older eqLog => absurd eqLog (running v older)⟩
    intro pc eq
    have same := Option.some.inj eq
    subst same
    exact ⟨⟨snap, seen, afterUid, done, more, rfl⟩, running⟩

theorem select_sound {w : World} (c : Consistent w.server w.used w.db) (log : List Record)
    (running : ∀ v older, log ≠ .completed v :: older) :
    Sound ⟨w.server, w.used, afterSelect w.db w.server.uidvalidity,
      some (.search w.server.uidvalidity), log⟩ := by
  have validity := select_validity w.db w.server.uidvalidity
  refine ⟨?_, ?_, fun v older eq => absurd eq (running v older)⟩
  · by_cases same : w.db.folder.lastUidvalidity = some w.server.uidvalidity
    · rw [select_same_validity same]
      exact c
    · obtain ⟨folder, empty⟩ := select_new_validity same
      refine ⟨fun m inside => absurd inside (empty m), fun m inside => absurd inside (empty m),
        fun m inside => absurd inside (empty m), ?_, ?_, c.serverUsed, ?_⟩
      · intro _ uid has upto
        have zero : (afterSelect w.db w.server.uidvalidity).folder.lastSeenUid = 0 := by rw [folder]
        have upto : uid ≤ (afterSelect w.db w.server.uidvalidity).folder.lastSeenUid := upto
        have positive := (has_below_next has).1
        omega
      · intro _
        refine ⟨?_, fun m inside => absurd inside (empty m)⟩
        rw [folder]
        exact w.server.started
      · intro v eq
        rw [validity, Option.some.injEq] at eq
        exact eq ▸ c.serverUsed
  · intro pc eq
    have same := Option.some.inj eq
    subst same
    exact ⟨⟨rfl, validity⟩, running⟩

theorem search_sound {w : World} (c : Consistent w.server w.used w.db)
    (validity : w.db.folder.lastUidvalidity = some w.server.uidvalidity)
    {db : FolderDb} {pass : Option Pc} (run : (db, pass) =
      afterSearch w.db w.server.uidvalidity (listUids (searchAll w.server))) :
    Sound ⟨w.server, w.used, db, pass, endRecords db pass ++
      [.searched w.server.uidvalidity (listUids (searchAll w.server))] ++ w.log⟩ := by
  obtain ⟨ascending, listed⟩ := search_ascending w.server
  have snap : Snapshot w.server w.db
      (.searched w.server.uidvalidity (listUids (searchAll w.server)) :: w.log)
      (listUids (searchAll w.server)) := by
    refine ⟨validity, ascending, rfl, ⟨w.server.uidNext, Nat.le_refl _,
      fun uid has _ => (listed uid).mpr has, (c.earlier validity).2, ?_⟩,
      fun _ uid => (listed uid).symm⟩
    intro uid mem
    exact (has_below_next ((listed uid).mp mem)).2
  rw [List.append_assoc, List.singleton_append]
  rcases search_cases w.db w.server.uidvalidity (listUids (searchAll w.server)) with
    ⟨none, eq⟩ | ⟨new, eq⟩
  · rw [eq] at run
    refine reconcile_sound c snap ?_ ?_ run (by simp)
    · intro uid mem
      have notNew := List.filter_eq_nil_iff.mp none uid mem
      simpa using notNew
    · intro m inside zero
      have positive := c.positive m inside
      omega
  · rw [eq, Prod.mk.injEq] at run
    obtain ⟨rfl, rfl⟩ := run
    refine ⟨c, ?_, by simp [endRecords]⟩
    intro pc eq
    have same := Option.some.inj eq
    subst same
    exact ⟨⟨rfl, snap, new, rfl⟩, by simp [endRecords]⟩

variable {Msg : Type} (email : EmailPackage Msg)

theorem in_folder_append {db middle : FolderDb} {added : List Message}
    (rows : middle.messages.rows = db.messages.rows ++ added)
    (same : middle.folder.id = db.folder.id) {m : Message} :
    middle.InFolder m ↔ db.InFolder m ∨ (m ∈ added ∧ m.folderId = db.folder.id) := by
  unfold FolderDb.InFolder
  rw [rows, same, List.mem_append, or_and_right]

/- One batch has been imported and the pass goes on. -/
structure Imported (w : World) (remoteUids newUids : List Nat) (added : List Message) (last : Nat)
    (middle : FolderDb) : Prop where
  snap : Snapshot w.server w.db w.log remoteUids
  new : newUids = remoteUids.filter fun uid => w.db.folder.lastSeenUid < uid
  spec : Added email w.db.folder w.server.uidvalidity (cachedUids w.db (newUids.take syncBatchSize))
    (fetchHeaders (headerResponse w.server (newUids.take syncBatchSize))) added
  isLast : (newUids.take syncBatchSize).getLast? = some last
  folder : middle.folder = { w.db.folder with lastSeenUid := last }
  rows : middle.messages.rows = w.db.messages.rows ++ added

section Import
variable {w : World} {remoteUids newUids : List Nat} {added : List Message} {last : Nat}
variable {middle : FolderDb}

theorem mem_imported (i : Imported email w remoteUids newUids added last middle) {m : Message} :
    middle.InFolder m ↔ w.db.InFolder m ∨ (m ∈ added ∧ m.folderId = w.db.folder.id) :=
  in_folder_append i.rows (by rw [i.folder])

theorem mem_batch (i : Imported email w remoteUids newUids added last middle) (uid : Nat) :
    uid ∈ newUids.take syncBatchSize ↔
      uid ∈ remoteUids ∧ w.db.folder.lastSeenUid < uid ∧ uid ≤ last :=
  (SortedBatches.batch_section i.snap.ascending i.new i.isLast).1 uid

theorem import_consistent (c : Consistent w.server w.used w.db)
    (i : Imported email w remoteUids newUids added last middle) :
    Consistent w.server w.used middle := by
  obtain ⟨bound, below, old, rowsBelow, remoteBelow⟩ := i.snap.bounded
  have lastSeen : middle.folder.lastSeenUid = last := by rw [i.folder]
  have validity : middle.folder.lastUidvalidity = w.db.folder.lastUidvalidity := by rw [i.folder]
  have account : middle.folder.accountId = w.db.folder.accountId := by rw [i.folder]
  have lastRemote := (mem_batch email i last).mp (List.mem_of_getLast? i.isLast)
  refine ⟨?_, ?_, ?_, ?_, ?_, c.serverUsed, ?_⟩
  · intro m mem
    rw [account]
    rcases (mem_imported email i).mp mem with older | ⟨newer, _⟩
    · exact c.owned m older
    · exact (added_row email i.spec newer).1.2.1
  · intro m mem
    rw [validity]
    rcases (mem_imported email i).mp mem with older | ⟨newer, _⟩
    · exact c.current m older
    · rw [i.snap.validity, (added_row email i.spec newer).1.2.2.1]
  · intro m mem
    rcases (mem_imported email i).mp mem with older | ⟨newer, _⟩
    · exact c.positive m older
    · exact (has_below_next (added_row email i.spec newer).2.1).1
  · intro _ uid has upto
    rw [lastSeen] at upto
    by_cases early : uid ≤ w.db.folder.lastSeenUid
    · obtain ⟨m, known, eq⟩ := c.caughtUp i.snap.validity uid has early
      exact ⟨m, (mem_imported email i).mpr (Or.inl known), eq⟩
    · have remote := old uid has (Nat.lt_of_le_of_lt upto (remoteBelow last lastRemote.1))
      have asked := (mem_batch email i uid).mpr ⟨remote, Nat.lt_of_not_le early, upto⟩
      obtain ⟨header, fetched, eq⟩ := (header_uids _ _ _).mpr ⟨has, asked⟩
      by_cases known : uid ∈ cachedUids w.db (newUids.take syncBatchSize)
      · obtain ⟨m, known, eq⟩ := (mem_cachedUids.mp known).1
        exact ⟨m, (mem_imported email i).mpr (Or.inl known), eq⟩
      · obtain ⟨m, mem, same⟩ := i.spec.complete header fetched (eq ▸ known)
        have own := (added_row email i.spec mem).1.1
        exact ⟨m, (mem_imported email i).mpr (Or.inr ⟨mem, own⟩), same.trans eq⟩
  · intro _
    constructor
    · rw [lastSeen]
      exact Nat.lt_of_lt_of_le (remoteBelow last lastRemote.1) below
    · intro m mem
      rcases (mem_imported email i).mp mem with older | ⟨newer, _⟩
      · exact Nat.lt_of_lt_of_le (rowsBelow m older) below
      · exact (has_below_next (added_row email i.spec newer).2.1).2
  · intro v eq
    exact c.folderUsed v (validity ▸ eq)

theorem import_snapshot (i : Imported email w remoteUids newUids added last middle)
    (imported : List Nat) : Snapshot w.server middle
      (.imported w.server.uidvalidity imported :: w.log) remoteUids := by
  obtain ⟨bound, below, old, rowsBelow, remoteBelow⟩ := i.snap.bounded
  have validity : middle.folder.lastUidvalidity = w.db.folder.lastUidvalidity := by rw [i.folder]
  refine ⟨validity.trans i.snap.validity, i.snap.ascending, i.snap.logged,
    ⟨bound, below, old, ?_, remoteBelow⟩, fun quiet => i.snap.quiet quiet.2⟩
  intro m mem
  rcases (mem_imported email i).mp mem with older | ⟨newer, _⟩
  · exact rowsBelow m older
  · exact remoteBelow _ ((mem_batch email i _).mp (added_row email i.spec newer).2.2.1).1

end Import

theorem headers_sound {w : World} (c : Consistent w.server w.used w.db)
    {remoteUids newUids : List Nat}
    (before : PassSound w.server w.db w.log (.headers w.server.uidvalidity remoteUids newUids))
    {db : FolderDb} {pass : Option Pc} {imported : List Nat}
    (run : afterHeaders email w.db w.server.uidvalidity remoteUids newUids
      (fetchHeaders (headerResponse w.server (newUids.take syncBatchSize))) = .ok (db, pass)) :
    Sound ⟨w.server, w.used, db, pass, endRecords db pass ++
      [.imported w.server.uidvalidity imported] ++ w.log⟩ := by
  obtain ⟨_, snap, nonempty, new⟩ := before
  obtain ⟨added, last, middle, spec, isLast, folder, rows, ending⟩ :=
    after_headers_ok email nonempty run
  have i : Imported email w remoteUids newUids added last middle :=
    ⟨snap, new, spec, isLast, folder, rows⟩
  have lastSeen : middle.folder.lastSeenUid = last := by rw [folder]
  have consistent := import_consistent email c i
  have snapshot := import_snapshot email i imported
  have left := (SortedBatches.batch_section snap.ascending new isLast).2
  rw [List.append_assoc, List.singleton_append]
  rcases ending with ⟨none, run⟩ | ⟨more, run⟩
  · refine reconcile_sound consistent snapshot ?_ ?_ run (by simp)
    · intro uid mem
      rw [lastSeen]
      rw [left] at none
      have notNew := List.filter_eq_nil_iff.mp none uid mem
      simpa using notNew
    · intro m mem zero
      have positive := consistent.positive m mem
      omega
  · rw [Prod.mk.injEq] at run
    obtain ⟨rfl, rfl⟩ := run
    refine ⟨consistent, ?_, by simp [endRecords]⟩
    intro pc eq
    have same := Option.some.inj eq
    subst same
    exact ⟨⟨rfl, snapshot, more, by rw [left, lastSeen]⟩, by simp [endRecords]⟩

/- The table after one reconciliation batch. -/
def reconciledDb (mb : Mailbox) (db : FolderDb) (remoteUids : List Nat)
    (messages : List Message) : FolderDb :=
  { db with
    messages := db.messages.rewrite
      (reconcileRow messages (fetchFlags (flagResponse mb (presentUids remoteUids messages))))
      (reconcileRow_keeps messages _) }

theorem mem_reconciledDb {mb : Mailbox} {db : FolderDb} {remoteUids : List Nat} {afterUid : Nat}
    {m' : Message} :
    (reconciledDb mb db remoteUids (nextMessages db afterUid)).InFolder m' ↔
      ∃ m, db.InFolder m ∧ ((m ∉ nextMessages db afterUid ∧ m' = m) ∨
        (m ∈ nextMessages db afterUid ∧ m.uid ∈ remoteUids ∧
          ∃ remote, mb.find m.uid = some remote ∧ m' = m.withFlags remote.flags)) := by
  have inPage : ∀ m ∈ db.messages.rows, m.id ∈ (nextMessages db afterUid).map Message.id ↔
      m ∈ nextMessages db afterUid := by
    intro m mem
    refine ⟨?_, fun page => List.mem_map_of_mem page⟩
    intro listed
    obtain ⟨other, page, same⟩ := List.mem_map.mp listed
    exact id_determines (mem_nextMessages page).1.1 mem same ▸ page
  constructor
  · intro inside
    obtain ⟨m, mem, change⟩ := mem_reconciled.mp inside.1
    rw [inPage m mem] at change
    rcases change with ⟨out, eq⟩ | ⟨page, asked, remote, found, eq⟩
    · exact ⟨m, ⟨mem, eq ▸ inside.2⟩, Or.inl ⟨out, eq⟩⟩
    · have asked : m.uid ∈ remoteUids := by
        simpa using (List.mem_filter.mp asked).2
      exact ⟨m, (mem_nextMessages page).1, Or.inr ⟨page, asked, remote, found, eq⟩⟩
  · rintro ⟨m, inside, ⟨out, eq⟩ | ⟨page, asked, remote, found, eq⟩⟩
    · refine ⟨mem_reconciled.mpr ⟨m, inside.1, Or.inl ⟨?_, eq⟩⟩, eq ▸ inside.2⟩
      rw [inPage m inside.1]
      exact out
    · refine ⟨mem_reconciled.mpr ⟨m, inside.1, Or.inr ⟨List.mem_map_of_mem page, ?_, remote,
        found, eq⟩⟩, eq ▸ inside.2⟩
      exact List.mem_filter.mpr ⟨List.mem_map_of_mem page, by simpa using asked⟩

/- A row outlives reconciliation as long as its message is on the server. -/
theorem reconciled_keeps {server : Mailbox} {db : FolderDb} {log : List Record}
    {remoteUids : List Nat} {afterUid : Nat} (snap : Snapshot server db log remoteUids)
    {m : Message} (inside : db.InFolder m) (has : server.Has m.uid) :
    ∃ m', (reconciledDb server db remoteUids (nextMessages db afterUid)).InFolder m' ∧
      m'.id = m.id ∧ m'.identity = m.identity := by
  by_cases page : m ∈ nextMessages db afterUid
  · obtain ⟨bound, _, old, rows, _⟩ := snap.bounded
    obtain ⟨remote, found⟩ := has_iff_find.mp has
    exact ⟨m.withFlags remote.flags, mem_reconciledDb.mpr ⟨m, inside, Or.inr
      ⟨page, old m.uid has (rows m inside), remote, found, rfl⟩⟩, rfl, rfl⟩
  · exact ⟨m, mem_reconciledDb.mpr ⟨m, inside, Or.inl ⟨page, rfl⟩⟩, rfl, rfl⟩

/- Every row after reconciliation is an old one up to its flags. -/
theorem reconciled_origin {mb : Mailbox} {db : FolderDb} {remoteUids : List Nat} {afterUid : Nat}
    {m' : Message}
    (inside : (reconciledDb mb db remoteUids (nextMessages db afterUid)).InFolder m') :
    ∃ m, db.InFolder m ∧ m'.uid = m.uid ∧ m'.uidvalidity = m.uidvalidity ∧
      m'.accountId = m.accountId := by
  obtain ⟨m, old, ⟨_, rfl⟩ | ⟨_, _, remote, _, rfl⟩⟩ := mem_reconciledDb.mp inside
  · exact ⟨m', old, rfl, rfl, rfl⟩
  · exact ⟨m, old, rfl, rfl, rfl⟩

theorem flags_sound {w : World} (c : Consistent w.server w.used w.db) {remoteUids : List Nat}
    {messages : List Message}
    (before : PassSound w.server w.db w.log (.flags remoteUids messages))
    (running : ∀ v older, w.log ≠ .completed v :: older) {db : FolderDb} {pass : Option Pc}
    (run : (db, pass) = afterFlags w.db remoteUids messages
      (fetchFlags (flagResponse w.server (presentUids remoteUids messages)))) :
    Sound ⟨w.server, w.used, db, pass, endRecords db pass ++ w.log⟩ := by
  obtain ⟨snap, seen, afterUid, done, nonempty, rfl⟩ := before
  obtain ⟨bound, below, old, rowsBelow, remoteBelow⟩ := snap.bounded
  cases isLast : (nextMessages w.db afterUid).getLast? with
  | none => exact absurd (List.getLast?_eq_none_iff.mp isLast) nonempty
  | some last =>
    obtain ⟨above, _, complete⟩ := next_messages_last isLast
    have complete := complete (one_row_per_uid c)
    have run : (db, pass) = reconcileAfter
        (reconciledDb w.server w.db remoteUids (nextMessages w.db afterUid)) remoteUids
        last.uid := by
      rw [run, afterFlags, isLast]
      rfl
    have consistent : Consistent w.server w.used
        (reconciledDb w.server w.db remoteUids (nextMessages w.db afterUid)) := by
      refine ⟨?_, ?_, ?_, ?_, ?_, c.serverUsed, c.folderUsed⟩
      · intro m' inside
        obtain ⟨m, origin, _, _, account⟩ := reconciled_origin inside
        exact account.trans (c.owned m origin)
      · intro m' inside
        obtain ⟨m, origin, _, validity, _⟩ := reconciled_origin inside
        exact validity.symm ▸ c.current m origin
      · intro m' inside
        obtain ⟨m, origin, uid, _⟩ := reconciled_origin inside
        exact uid.symm ▸ c.positive m origin
      · intro same uid has upto
        obtain ⟨m, inside, rfl⟩ := c.caughtUp same uid has upto
        obtain ⟨m', kept, _, identity⟩ := reconciled_keeps snap inside has
        exact ⟨m', kept, congrArg (fun t => t.2.2.1) identity⟩
      · intro same
        refine ⟨(c.earlier same).1, ?_⟩
        intro m' inside
        obtain ⟨m, origin, uid, _⟩ := reconciled_origin inside
        exact uid.symm ▸ (c.earlier same).2 m origin
    have snapshot : Snapshot w.server
        (reconciledDb w.server w.db remoteUids (nextMessages w.db afterUid)) w.log remoteUids := by
      refine ⟨snap.validity, snap.ascending, snap.logged,
        ⟨bound, below, old, ?_, remoteBelow⟩, snap.quiet⟩
      intro m' inside
      obtain ⟨m, origin, uid, _⟩ := reconciled_origin inside
      exact uid.symm ▸ rowsBelow m origin
    refine reconcile_sound consistent snapshot seen ?_ run running
    intro m' inside upto
    obtain ⟨m, origin, ⟨out, eq⟩ | ⟨_, asked, remote, found, eq⟩⟩ := mem_reconciledDb.mp inside
    · subst eq
      refine done m' origin ?_
      by_contra late
      exact out (complete m' origin (Nat.lt_of_not_le late) upto)
    · subst eq
      exact ⟨asked, fun _ => ⟨remote, found, rfl, rfl, rfl⟩⟩

theorem call_sound {w : World} (sound : Sound w) {pc : Pc} (active : w.pass = some pc) :
    Sound (callStep email w pc) := by
  have c := sound.consistent
  obtain ⟨before, running⟩ := sound.pass pc active
  unfold callStep
  cases answer : resume email w.server w.db pc with
  | error e =>
    exact ⟨c, fun pc none => by contradiction, fun v older eq => by simp at eq⟩
  | ok out =>
    obtain ⟨db, pass⟩ := out
    cases pc with
    | select =>
      rw [resume, Except.ok.injEq, Prod.mk.injEq] at answer
      obtain ⟨rfl, rfl⟩ := answer
      exact select_sound c w.log running
    | search validity =>
      obtain ⟨rfl, current⟩ := before
      exact search_sound c current (Except.ok.inj answer).symm
    | headers validity remoteUids newUids =>
      have same := before.1
      subst same
      exact headers_sound email c before answer
    | flags remoteUids messages =>
      have run := flags_sound c before running (Except.ok.inj answer).symm
      simpa [callRecords] using run

theorem reset_sound {w : World} (sound : Sound w) (idle : w.pass = none) {mailbox : Mailbox}
    (fresh : mailbox.uidvalidity ∉ w.used) :
    Sound { w.change mailbox (.reset mailbox.uidvalidity) with
      used := mailbox.uidvalidity :: w.used } := by
  have c := sound.consistent
  have outdated : w.db.folder.lastUidvalidity ≠ some mailbox.uidvalidity :=
    fun same => fresh (c.folderUsed _ same)
  refine ⟨⟨c.owned, c.current, c.positive, ?_, ?_, List.mem_cons_self, ?_⟩, ?_, ?_⟩
  · exact fun same => absurd same outdated
  · exact fun same => absurd same outdated
  · exact fun v same => List.mem_cons_of_mem _ (c.folderUsed v same)
  · intro pc active
    rw [show w.pass = some pc from active] at idle
    contradiction
  · intro v older eq
    simp [World.change] at eq

theorem next_sound {w w' : World} {l : Label} (sound : Sound w)
    (step : next email w l = some w') : Sound w' := by
  cases l with
  | arrive gap content =>
    rw [next, Option.some.injEq] at step
    exact step ▸ change_sound sound (arrive_evolves _ _ _) trivial
  | expunge uid =>
    rw [next, Option.some.injEq] at step
    exact step ▸ change_sound sound (expunge_evolves _ _) trivial
  | changeFlags uid flags =>
    rw [next, Option.some.injEq] at step
    exact step ▸ change_sound sound (change_flags_evolves _ _ _) trivial
  | reset mailbox =>
    rw [next] at step
    split at step
    · rename_i allowed
      rw [Option.some.injEq] at step
      exact step ▸ reset_sound sound (by simpa using allowed.1) allowed.2
    · contradiction
  | begin =>
    rw [next] at step
    split at step
    · rw [Option.some.injEq] at step
      subst step
      refine ⟨sound.consistent, ?_, fun v older eq => by simp at eq⟩
      intro pc eq
      have same := Option.some.inj eq
      subst same
      exact ⟨trivial, by simp⟩
    · contradiction
  | call =>
    obtain ⟨pc, active, rfl⟩ := Option.map_eq_some_iff.mp step
    exact call_sound email sound active
  | abort =>
    obtain ⟨pc, active, rfl⟩ := Option.map_eq_some_iff.mp step
    exact ⟨sound.consistent, fun pc none => by contradiction, fun v older eq => by simp at eq⟩

theorem start_sound {w : World} (start : Start w) : Sound w := by
  refine ⟨start.consistent, ?_, ?_⟩
  · intro pc active
    rw [start.idle] at active
    contradiction
  · intro v older eq
    rw [start.unobserved] at eq
    contradiction

theorem run_sound {w0 w : World} {labels : List Label} (start : Start w0)
    (run : replay (next email) w0 labels = some w) : Sound w :=
  replay_invariant Sound (start_sound start) (fun _ _ _ sound step => next_sound email sound step)
    run

theorem reconcile_rows {middle db : FolderDb} {pass : Option Pc} {remoteUids : List Nat}
    {afterUid : Nat} (run : (db, pass) = reconcileAfter middle remoteUids afterUid) (m : Message) :
    db.InFolder m ↔ middle.InFolder m := by
  rcases reconcile_cases middle remoteUids afterUid with ⟨_, eq⟩ | ⟨_, eq⟩
  · rw [eq, Prod.mk.injEq] at run
    exact run.1 ▸ Iff.rfl
  · rw [eq, Prod.mk.injEq] at run
    exact run.1 ▸ Iff.rfl

/- The pass removes no row whose message the server still has. -/
theorem resume_keeps {w : World} (sound : Sound w) {pc : Pc} (active : w.pass = some pc)
    {db : FolderDb} {pass : Option Pc} (answer : resume email w.server w.db pc = .ok (db, pass))
    {m : Message} (inside : w.db.InFolder m) (validity : w.server.uidvalidity = m.uidvalidity)
    (has : w.server.Has m.uid) :
    ∃ m', db.InFolder m' ∧ m'.id = m.id ∧ m'.identity = m.identity := by
  have before := (sound.pass pc active).1
  cases pc with
  | select =>
    rw [resume, Except.ok.injEq, Prod.mk.injEq] at answer
    have same : w.db.folder.lastUidvalidity = some w.server.uidvalidity :=
      validity ▸ sound.consistent.current m inside
    rw [select_same_validity same] at answer
    exact ⟨m, answer.1 ▸ inside, rfl, rfl⟩
  | search v =>
    have run := (Except.ok.inj answer).symm
    rcases search_cases w.db v (listUids (searchAll w.server)) with ⟨_, eq⟩ | ⟨_, eq⟩
    · rw [eq] at run
      exact ⟨m, (reconcile_rows run m).mpr inside, rfl, rfl⟩
    · rw [eq, Prod.mk.injEq] at run
      exact ⟨m, run.1 ▸ inside, rfl, rfl⟩
  | headers v remoteUids newUids =>
    obtain ⟨added, last, middle, _, _, folder, rows, ending⟩ :=
      after_headers_ok email before.2.2.1 answer
    have kept : middle.InFolder m :=
      (in_folder_append rows (by rw [folder])).mpr (Or.inl inside)
    rcases ending with ⟨_, run⟩ | ⟨_, run⟩
    · exact ⟨m, (reconcile_rows run m).mpr kept, rfl, rfl⟩
    · rw [Prod.mk.injEq] at run
      exact ⟨m, run.1 ▸ kept, rfl, rfl⟩
  | flags remoteUids messages =>
    obtain ⟨snap, _, afterUid, _, _, rfl⟩ := before
    obtain ⟨m', kept, same⟩ := reconciled_keeps snap inside has
    have run := (Except.ok.inj answer).symm
    exact ⟨m', (reconcile_rows run m').mpr kept, same⟩

theorem step_keeps {w w' : World} {l : Label} (sound : Sound w)
    (step : next email w l = some w') {m : Message} (inside : w.db.InFolder m)
    (validity : w'.server.uidvalidity = m.uidvalidity) (has : w'.server.Has m.uid) :
    ∃ m', w'.db.InFolder m' ∧ m'.id = m.id ∧ m'.identity = m.identity := by
  cases l with
  | arrive | expunge | changeFlags =>
    rw [next, Option.some.injEq] at step
    subst step
    exact ⟨m, inside, rfl, rfl⟩
  | reset | begin =>
    rw [next] at step
    split at step
    · rw [Option.some.injEq] at step
      subst step
      exact ⟨m, inside, rfl, rfl⟩
    · contradiction
  | abort =>
    obtain ⟨pc, _, rfl⟩ := Option.map_eq_some_iff.mp step
    exact ⟨m, inside, rfl, rfl⟩
  | call =>
    obtain ⟨pc, active, rfl⟩ := Option.map_eq_some_iff.mp step
    unfold callStep at validity has ⊢
    cases answer : resume email w.server w.db pc with
    | error e => exact ⟨m, inside, rfl, rfl⟩
    | ok out =>
      rw [answer] at validity has
      exact resume_keeps email sound active answer inside validity has

/- A message that is on the server now was there before, unless it is new. -/
theorem step_server {w w' : World} {l : Label} (step : next email w l = some w') :
    (∀ v ∈ w.used, v ∈ w'.used) ∧
      (w'.server.uidvalidity ∈ w.used → Evolves w.server w'.server) := by
  have same : Evolves w.server w.server := ⟨rfl, Nat.le_refl _, fun _ has _ => has⟩
  cases l with
  | arrive gap content =>
    rw [next, Option.some.injEq] at step
    exact step ▸ ⟨fun _ mem => mem, fun _ => arrive_evolves _ _ _⟩
  | expunge uid =>
    rw [next, Option.some.injEq] at step
    exact step ▸ ⟨fun _ mem => mem, fun _ => expunge_evolves _ _⟩
  | changeFlags uid flags =>
    rw [next, Option.some.injEq] at step
    exact step ▸ ⟨fun _ mem => mem, fun _ => change_flags_evolves _ _ _⟩
  | reset mailbox =>
    rw [next] at step
    split at step
    · rename_i allowed
      rw [Option.some.injEq] at step
      subst step
      exact ⟨fun v mem => List.mem_cons_of_mem _ mem, fun used => absurd used allowed.2⟩
    · contradiction
  | begin =>
    rw [next] at step
    split at step
    · rw [Option.some.injEq] at step
      exact step ▸ ⟨fun _ mem => mem, fun _ => same⟩
    · contradiction
  | abort =>
    obtain ⟨pc, _, rfl⟩ := Option.map_eq_some_iff.mp step
    exact ⟨fun _ mem => mem, fun _ => same⟩
  | call =>
    obtain ⟨pc, _, rfl⟩ := Option.map_eq_some_iff.mp step
    unfold callStep
    cases resume email w.server w.db pc with
    | error e => exact ⟨fun _ mem => mem, fun _ => same⟩
    | ok out => exact ⟨fun _ mem => mem, fun _ => same⟩

/- What a run owes to a row m of its first state. -/
structure Owed (m : Message) (w : World) : Prop where
  used : m.uidvalidity ∈ w.used
  below : w.server.uidvalidity = m.uidvalidity → m.uid < w.server.uidNext
  kept : w.server.uidvalidity = m.uidvalidity → w.server.Has m.uid →
    ∃ m', w.db.InFolder m' ∧ m'.id = m.id ∧ m'.identity = m.identity

theorem run_keeps {w w' : World} {labels : List Label} (sound : Sound w)
    (run : replay (next email) w labels = some w') {m : Message} (inside : w.db.InFolder m) :
    Owed m w' := by
  have c := sound.consistent
  have validity := c.current m inside
  have start : Owed m w := by
    refine ⟨c.folderUsed _ validity, ?_, fun _ _ => ⟨m, inside, rfl, rfl⟩⟩
    intro same
    exact (c.earlier (same ▸ validity)).2 m inside
  have both : Sound w' ∧ Owed m w' := by
    refine replay_invariant (fun u => Sound u ∧ Owed m u) ⟨sound, start⟩ ?_ run
    intro t l u before step
    obtain ⟨sound, owed⟩ := before
    obtain ⟨usedGrows, evolves⟩ := step_server email step
    refine ⟨next_sound email sound step, usedGrows _ owed.used, ?_, ?_⟩
    · intro same
      have evolves := evolves (same ▸ owed.used)
      exact Nat.lt_of_lt_of_le (owed.below (evolves.validity.symm.trans same)) evolves.uidNext
    · intro same has
      have evolves := evolves (same ▸ owed.used)
      have earlier := evolves.validity.symm.trans same
      obtain ⟨m1, inside1, id1, identity1⟩ :=
        owed.kept earlier (evolves.old _ has (owed.below earlier))
      have uid1 : m1.uid = m.uid := congrArg (fun t => t.2.2.1) identity1
      have validity1 : m1.uidvalidity = m.uidvalidity := congrArg (fun t => t.2.2.2) identity1
      obtain ⟨m2, inside2, id2, identity2⟩ := step_keeps email sound step inside1
        (same.trans validity1.symm) (uid1.symm ▸ has)
      exact ⟨m2, inside2, id2.trans id1, identity2.trans identity1⟩
  exact both.2

/-- In every run there is one row for each UID, a row keeps its id as long as its
    message is on the server, and a completed pass leaves exactly the messages of its
    SEARCH snapshot that were not expunged meanwhile. -/
theorem folder_sync_converges {w0 w : World} {labels : List Label} (start : Start w0)
    (run : replay (next email) w0 labels = some w) :
    (∀ a b, w.db.InFolder a → w.db.InFolder b → a.uid = b.uid → a = b) ∧
      (∀ before after w1, labels = before ++ after → replay (next email) w0 before = some w1 →
        ∀ m, w1.db.InFolder m → w.server.uidvalidity = m.uidvalidity → w.server.Has m.uid →
          ∃ m', w.db.InFolder m' ∧ m'.id = m.id ∧ m'.uid = m.uid ∧
            m'.uidvalidity = m.uidvalidity) ∧
      (∀ v older, w.log = .completed v :: older → ∃ snapshot,
        lastSearch older = some (w.server.uidvalidity, snapshot) ∧
          Converged w.server w.db w.log snapshot) := by
  have sound := run_sound email start run
  refine ⟨one_row_per_uid sound.consistent, ?_, sound.converged⟩
  intro before after w1 split prefixRun m inside validity has
  rw [split, replay_append, prefixRun, Option.bind_some] at run
  obtain ⟨m', kept, id, identity⟩ :=
    (run_keeps email (run_sound email start prefixRun) run inside).kept validity has
  exact ⟨m', kept, id, congrArg (fun t => t.2.2.1) identity,
    congrArg (fun t => t.2.2.2) identity⟩

/- A folder row that was never synchronised, over a mailbox with two messages. -/
def freshFolder : Folder where
  id := 1
  accountId := 1
  imapPath := "INBOX"
  displayName := some "Inbox"
  isInbox := true
  historyComplete := false
  lastUidvalidity := none
  lastSeenUid := 0

def plainContent : Content := ⟨∅, none, some 0, [], []⟩

def twoMessageMailbox : Mailbox where
  uidvalidity := 7
  uidNext := 5
  messages := [⟨2, plainContent⟩, ⟨4, plainContent⟩]
  ordered := by decide
  bounded := by decide
  started := by decide

def freshWorld : World := ⟨twoMessageMailbox, [7], ⟨freshFolder, .empty⟩, none, []⟩

theorem fresh_world_start : Start freshWorld := by
  have empty : ∀ m, ¬ freshWorld.db.InFolder m := fun m inside => List.not_mem_nil inside.1
  refine ⟨⟨fun m inside => absurd inside (empty m), fun m inside => absurd inside (empty m),
    fun m inside => absurd inside (empty m), fun same => ?_, fun same => ?_, ?_, ?_⟩, rfl, rfl⟩
  · contradiction
  · contradiction
  · exact List.mem_singleton.mpr rfl
  · intro v eq
    contradiction

/- An aborted pass, an arrival between the passes and an expunge during the second. -/
def interruptedLabels : List Label :=
  [.begin, .call, .call, .abort, .arrive 3 plainContent, .begin, .call, .call, .call,
    .expunge 2, .call]

theorem interrupted_log : (replay (next emptyHeaderEmail) freshWorld interruptedLabels).map
    World.log = some [.completed (some 7), .expunged 2, .imported 7 [2, 4, 8],
      .searched 7 [2, 4, 8], .began, .arrived 7 8, .aborted, .searched 7 [2, 4], .began] := rfl

theorem folder_sync_converges_interrupted : ∃ w,
    replay (next emptyHeaderEmail) freshWorld interruptedLabels = some w ∧
      Converged w.server w.db w.log [2, 4, 8] := by
  obtain ⟨w, run, log⟩ := Option.map_eq_some_iff.mp interrupted_log
  obtain ⟨snapshot, eq, converged⟩ :=
    (folder_sync_converges emptyHeaderEmail fresh_world_start run).2.2 _ _ log
  have three : snapshot = [2, 4, 8] := congrArg Prod.snd (Option.some.inj eq).symm
  exact ⟨w, run, three ▸ converged⟩

end InboxFolderConvergence
