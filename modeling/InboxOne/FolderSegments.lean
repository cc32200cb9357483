import InboxOne.FolderSync
import InboxOne.SortedBatches

/- What each segment of a pass does to the folder row and the message table. Callers
   cite these statements and do not unfold the segments again. -/
namespace InboxFolderSegments
open InboxPython InboxMailbox InboxMailParser InboxTables InboxFolderSync

variable {Msg : Type} (email : EmailPackage Msg)

/- Progress of a folder that a segment leaves alone. -/
def SameFolder (a b : FolderDb) : Prop :=
  b.folder.id = a.folder.id ∧ b.folder.accountId = a.folder.accountId

theorem search_ascending (mb : Mailbox) :
    (listUids (searchAll mb)).Pairwise (· < ·) ∧
      ∀ uid, uid ∈ listUids (searchAll mb) ↔ mb.Has uid := by
  have ascending : (searchAll mb).Pairwise (· < ·) := by
    unfold searchAll
    rw [List.pairwise_map]
    exact mb.ordered
  have sorted : listUids (searchAll mb) = searchAll mb :=
    (ascending.imp fun lt => Nat.le_of_lt lt).insertionSort_eq
  rw [sorted]
  refine ⟨ascending, fun uid => ?_⟩
  simp [searchAll, Mailbox.Has]

theorem select_same_validity {db : FolderDb} {validity : Nat}
    (same : db.folder.lastUidvalidity = some validity) : afterSelect db validity = db := by
  unfold afterSelect
  rw [if_neg (not_not.mpr same)]

theorem select_new_validity {db : FolderDb} {validity : Nat}
    (changed : db.folder.lastUidvalidity ≠ some validity) :
    (afterSelect db validity).folder = { db.folder with
        lastSeenUid := 0, historyComplete := false, lastUidvalidity := some validity } ∧
      ∀ m, ¬ (afterSelect db validity).InFolder m := by
  unfold afterSelect
  rw [if_pos changed]
  refine ⟨rfl, ?_⟩
  intro m inside
  have kept := mem_deleteWhere.mp inside.1
  have own : m.folderId = db.folder.id := inside.2
  simp [own] at kept

theorem select_validity (db : FolderDb) (validity : Nat) :
    (afterSelect db validity).folder.lastUidvalidity = some validity := by
  by_cases same : db.folder.lastUidvalidity = some validity
  · rw [select_same_validity same, same]
  · rw [(select_new_validity same).1]

theorem select_same_folder (db : FolderDb) (validity : Nat) :
    SameFolder db (afterSelect db validity) := by
  by_cases same : db.folder.lastUidvalidity = some validity
  · rw [select_same_validity same]
    exact ⟨rfl, rfl⟩
  · unfold SameFolder
    rw [(select_new_validity same).1]
    exact ⟨rfl, rfl⟩

/- A row the reset keeps belongs to the current UIDVALIDITY or to another folder. -/
theorem select_row {db : FolderDb} {validity : Nat} {m : Message}
    (inside : (afterSelect db validity).InFolder m) :
    db.InFolder m ∧ db.folder.lastUidvalidity = some validity := by
  by_cases same : db.folder.lastUidvalidity = some validity
  · rw [select_same_validity same] at inside
    exact ⟨inside, same⟩
  · exact absurd inside ((select_new_validity same).2 m)

theorem mem_nextMessages {db : FolderDb} {afterUid : Nat} {m : Message}
    (mem : m ∈ nextMessages db afterUid) : db.InFolder m ∧ afterUid < m.uid := by
  have kept := List.mem_of_mem_take mem
  rw [List.mem_insertionSort, List.mem_filter] at kept
  have props : m.folderId = db.folder.id ∧ afterUid < m.uid := by simpa using kept.2
  exact ⟨⟨kept.1, props.1⟩, props.2⟩

/- A folder without two rows for one UID. -/
def OneRowPerUid (db : FolderDb) : Prop :=
  ∀ a b, db.InFolder a → db.InFolder b → a.uid = b.uid → a = b

theorem next_messages_empty {db : FolderDb} {afterUid : Nat}
    (empty : nextMessages db afterUid = []) {m : Message} (inside : db.InFolder m) :
    m.uid ≤ afterUid := by
  by_contra above
  have mem : m ∈ (db.messages.rows.filter fun m =>
      m.folderId = db.folder.id ∧ afterUid < m.uid).insertionSort fun a b => a.uid ≤ b.uid := by
    rw [List.mem_insertionSort, List.mem_filter]
    exact ⟨inside.1, by simpa using ⟨inside.2, Nat.lt_of_not_le above⟩⟩
  obtain ⟨last, isLast, _⟩ := SortedBatches.take_last_exists
    (show 0 < syncBatchSize by decide) (List.ne_nil_of_mem mem)
  unfold nextMessages at empty
  rw [empty] at isLast
  contradiction

theorem next_messages_last {db : FolderDb} {afterUid : Nat} {last : Message}
    (isLast : (nextMessages db afterUid).getLast? = some last) :
    afterUid < last.uid ∧ (∀ m ∈ nextMessages db afterUid, m.uid ≤ last.uid) ∧
      (OneRowPerUid db → ∀ m, db.InFolder m → afterUid < m.uid → m.uid ≤ last.uid →
        m ∈ nextMessages db afterUid) := by
  have sorted := SortedBatches.sort_by_key (fun m : Message => m.uid)
    (db.messages.rows.filter fun m => m.folderId = db.folder.id ∧ afterUid < m.uid)
  refine ⟨(mem_nextMessages (List.mem_of_getLast? isLast)).2, ?_, ?_⟩
  · intro m mem
    exact SortedBatches.take_below_last sorted isLast mem
  · intro unique m inside above upto
    have listed : ∀ {x : Message}, x ∈ (db.messages.rows.filter fun m =>
        m.folderId = db.folder.id ∧ afterUid < m.uid).insertionSort (fun a b => a.uid ≤ b.uid) ↔
          db.InFolder x ∧ afterUid < x.uid := by
      intro x
      rw [List.mem_insertionSort, List.mem_filter]
      simp [FolderDb.InFolder, and_assoc]
    refine SortedBatches.take_complete_upto_last sorted ?_ isLast (listed.mpr ⟨inside, above⟩) upto
    intro a ha b hb same
    exact unique a b (listed.mp ha).1 (listed.mp hb).1 same

theorem reconcile_cases (db : FolderDb) (remoteUids : List Nat) (afterUid : Nat) :
    (nextMessages db afterUid = [] ∧ reconcileAfter db remoteUids afterUid =
        ({ db with folder := { db.folder with historyComplete := true } }, none)) ∨
      (nextMessages db afterUid ≠ [] ∧ reconcileAfter db remoteUids afterUid =
        (db, some (.flags remoteUids (nextMessages db afterUid)))) := by
  unfold reconcileAfter
  cases page : nextMessages db afterUid with
  | nil => exact Or.inl ⟨rfl, rfl⟩
  | cons m rest => exact Or.inr ⟨by simp, rfl⟩

theorem search_cases (db : FolderDb) (validity : Nat) (remoteUids : List Nat) :
    (remoteUids.filter (fun uid => db.folder.lastSeenUid < uid) = [] ∧
        afterSearch db validity remoteUids = reconcileAfter db remoteUids 0) ∨
      (remoteUids.filter (fun uid => db.folder.lastSeenUid < uid) ≠ [] ∧
        afterSearch db validity remoteUids = (db, some (.headers validity remoteUids
          (remoteUids.filter fun uid => db.folder.lastSeenUid < uid)))) := by
  unfold afterSearch
  cases new : remoteUids.filter fun uid => decide (db.folder.lastSeenUid < uid) with
  | nil => exact Or.inl ⟨rfl, rfl⟩
  | cons uid rest => exact Or.inr ⟨by simp, rfl⟩

theorem mem_cachedUids {db : FolderDb} {batch : List Nat} {uid : Nat} :
    uid ∈ cachedUids db batch ↔ db.Cached uid ∧ uid ∈ batch := by
  simp only [cachedUids, List.mem_map, List.mem_filter, FolderDb.Cached, FolderDb.InFolder,
    decide_eq_true_eq]
  constructor
  · rintro ⟨m, ⟨mem, own, inBatch⟩, rfl⟩
    exact ⟨⟨m, ⟨mem, own⟩, rfl⟩, inBatch⟩
  · rintro ⟨⟨m, ⟨mem, own⟩, rfl⟩, inBatch⟩
    exact ⟨m, ⟨mem, own, inBatch⟩, rfl⟩

/- The columns that a header yields, with the date as it is stored. -/
def Yields (header : FetchedHeader) (parsed : ParsedHeader) (dateSent : Option Clock) : Prop :=
  parseHeaderBlock email header.headerBytes = .ok parsed ∧
    processBindParam (parsed.dateSent.or header.internaldate) = .ok dateSent

theorem bound_known {folder : Folder} {validity : Nat} {cached : List Nat}
    {header : FetchedHeader} (known : header.uid ∈ cached) (rest : List FetchedHeader) :
    boundMessages email folder validity cached (header :: rest) =
      boundMessages email folder validity cached rest := by
  unfold boundMessages parseHeaders
  rw [List.filter_cons_of_neg (by simpa using known)]

/- The first header of a batch is parsed and bound like the others. -/
theorem bound_cons {folder : Folder} {validity : Nat} {cached : List Nat}
    {header : FetchedHeader} (unknown : header.uid ∉ cached) {rest : List FetchedHeader}
    {messages : List NewMessage} :
    boundMessages email folder validity cached (header :: rest) = .ok messages ↔
      ∃ parsed dateSent tail, Yields email header parsed dateSent ∧
        boundMessages email folder validity cached rest = .ok tail ∧
        messages = newMessage folder validity header parsed dateSent :: tail := by
  unfold boundMessages parseHeaders Yields
  rw [List.filter_cons_of_pos (by simpa using unknown), List.mapM_cons]
  cases parse : parseHeaderBlock email header.headerBytes with
  | error e => simp [bind, Except.bind]
  | ok parsed =>
    cases others : (rest.filter fun header => header.uid ∉ cached).mapM fun header =>
        (do
          let parsed ← parseHeaderBlock email header.headerBytes
          return (header, parsed) : Except PyException (FetchedHeader × ParsedHeader)) with
    | error e => simp [bind, Except.bind, pure, Except.pure]
    | ok entries =>
      simp only [bind, Except.bind, pure, Except.pure, List.mapM_cons, bindMessage]
      cases date : processBindParam (parsed.dateSent.or header.internaldate) with
      | error e => simp [date]
      | ok dateSent =>
        cases tail : entries.mapM (bindMessage folder validity) with
        | error e => simp
        | ok tail => simp [date, eq_comm]

/- The rows that a batch adds: one for each header outside the cached set. -/
structure Added (folder : Folder) (validity : Nat) (cached : List Nat)
    (headers : List FetchedHeader) (added : List Message) : Prop where
  source : ∀ m ∈ added, ∃ header ∈ headers, header.uid ∉ cached ∧ ∃ parsed dateSent,
    Yields email header parsed dateSent ∧
      m.toNewMessage = newMessage folder validity header parsed dateSent
  complete : ∀ header ∈ headers, header.uid ∉ cached → ∃ m ∈ added, m.uid = header.uid

theorem import_headers_known {folder : Folder} {validity : Nat} {cached : List Nat}
    {header : FetchedHeader} (known : header.uid ∈ cached) (rest : List FetchedHeader)
    (table : MessageTable) :
    importHeaders email folder validity cached table (header :: rest) =
      importHeaders email folder validity cached table rest := by
  unfold importHeaders
  rw [bound_known email known]

/- A batch with a new header in front is stored row by row. -/
theorem import_headers_cons {folder : Folder} {validity : Nat} {cached : List Nat}
    {header : FetchedHeader} (unknown : header.uid ∉ cached) {rest : List FetchedHeader}
    {table table' : MessageTable} :
    importHeaders email folder validity cached table (header :: rest) = .ok table' ↔
      ∃ parsed dateSent middle, Yields email header parsed dateSent ∧
        table.insert (newMessage folder validity header parsed dateSent) = .ok middle ∧
        importHeaders email folder validity cached middle rest = .ok table' := by
  unfold importHeaders
  constructor
  · intro ok
    cases bound : boundMessages email folder validity cached (header :: rest) with
    | error e => simp [bound, bind, Except.bind] at ok
    | ok messages =>
      obtain ⟨parsed, dateSent, tail, yields, others, rfl⟩ := (bound_cons email unknown).mp bound
      simp only [bound, bind, Except.bind, List.foldlM_cons] at ok
      cases first : table.insert (newMessage folder validity header parsed dateSent) with
      | error e => simp [first] at ok
      | ok middle =>
        refine ⟨parsed, dateSent, middle, yields, first, ?_⟩
        rw [first] at ok
        simp only [others, bind, Except.bind]
        exact ok
  · rintro ⟨parsed, dateSent, middle, yields, first, later⟩
    cases others : boundMessages email folder validity cached rest with
    | error e => simp [others, bind, Except.bind] at later
    | ok tail =>
      rw [(bound_cons email unknown).mpr ⟨parsed, dateSent, tail, yields, others, rfl⟩]
      simp only [others, bind, Except.bind] at later
      simp only [bind, Except.bind, List.foldlM_cons, first]
      exact later

theorem import_batch_ok {folder : Folder} {validity : Nat} {cached : List Nat}
    {headers : List FetchedHeader} {table table' : MessageTable}
    (ok : importHeaders email folder validity cached table headers = .ok table') :
    ∃ added, table'.rows = table.rows ++ added ∧
      Added email folder validity cached headers added := by
  induction headers generalizing table with
  | nil =>
    have same : table = table' := Except.ok.inj ok
    exact ⟨[], by simp [same], by simp, by simp⟩
  | cons header rest ih =>
    by_cases known : header.uid ∈ cached
    · rw [import_headers_known email known] at ok
      obtain ⟨added, rows, spec⟩ := ih ok
      refine ⟨added, rows, ?_, ?_⟩
      · intro m mem
        obtain ⟨h, hmem, props⟩ := spec.source m mem
        exact ⟨h, List.mem_cons_of_mem _ hmem, props⟩
      · intro h hmem fresh
        rcases List.mem_cons.mp hmem with eq | hmem
        · exact absurd known (eq ▸ fresh)
        · exact spec.complete h hmem fresh
    · obtain ⟨parsed, dateSent, middle, yields, first, ok⟩ :=
        (import_headers_cons email known).mp ok
      obtain ⟨added, rows, spec⟩ := ih ok
      refine ⟨⟨newMessage folder validity header parsed dateSent, nextId table.rows⟩ :: added,
        by rw [rows, insert_ok first, List.append_assoc, List.singleton_append], ?_, ?_⟩
      · intro m mem
        rcases List.mem_cons.mp mem with eq | mem
        · exact ⟨header, List.mem_cons_self, known, parsed, dateSent, yields, by rw [eq]⟩
        · obtain ⟨h, hmem, props⟩ := spec.source m mem
          exact ⟨h, List.mem_cons_of_mem _ hmem, props⟩
      · intro h hmem fresh
        rcases List.mem_cons.mp hmem with eq | hmem
        · exact ⟨_, List.mem_cons_self, by rw [eq]; rfl⟩
        · obtain ⟨m, mem, same⟩ := spec.complete h hmem fresh
          exact ⟨m, List.mem_cons_of_mem _ mem, same⟩

theorem header_uids (mb : Mailbox) (uids : List Nat) (uid : Nat) :
    (∃ header ∈ fetchHeaders (headerResponse mb uids), header.uid = uid) ↔
      mb.Has uid ∧ uid ∈ uids := by
  simp only [fetchHeaders, headerResponse, requested, List.mem_map, List.mem_insertionSort,
    List.mem_filter, decide_eq_true_eq, Mailbox.Has, exists_exists_and_eq_and]
  constructor
  · rintro ⟨m, ⟨mem, asked⟩, rfl⟩
    exact ⟨⟨m, mem, rfl⟩, asked⟩
  · rintro ⟨⟨m, mem, rfl⟩, asked⟩
    exact ⟨m, ⟨mem, asked⟩, rfl⟩

/- What a new row takes from the folder, the server and the header. -/
theorem added_row {folder : Folder} {validity : Nat} {cached batch : List Nat} {mb : Mailbox}
    {added : List Message} (spec : Added email folder validity cached
      (fetchHeaders (headerResponse mb batch)) added) {m : Message} (mem : m ∈ added) :
    (m.folderId = folder.id ∧ m.accountId = folder.accountId ∧ m.uidvalidity = validity ∧
      m.notificationEligible = folder.historyComplete) ∧
      mb.Has m.uid ∧ m.uid ∈ batch ∧ m.uid ∉ cached := by
  obtain ⟨header, fetched, unknown, parsed, dateSent, _, eq⟩ := spec.source m mem
  have uid : m.uid = header.uid := congrArg NewMessage.uid eq
  obtain ⟨has, asked⟩ := (header_uids mb batch m.uid).mp ⟨header, fetched, uid.symm⟩
  exact ⟨⟨congrArg NewMessage.folderId eq, congrArg NewMessage.accountId eq,
    congrArg NewMessage.uidvalidity eq, congrArg NewMessage.notificationEligible eq⟩,
    has, asked, uid ▸ unknown⟩

/- What the commit of a batch writes: its rows and the new position. -/
def storedBatch (db : FolderDb) (newUids : List Nat) (table : MessageTable) : FolderDb :=
  { folder := { db.folder with
      lastSeenUid := (newUids.take syncBatchSize).getLastD db.folder.lastSeenUid }
    messages := table }

theorem after_headers_cases (db : FolderDb) (validity : Nat) (remoteUids newUids : List Nat)
    (headers : List FetchedHeader) :
    (∃ e, importHeaders email db.folder validity (cachedUids db (newUids.take syncBatchSize))
        db.messages headers = .error e ∧
      afterHeaders email db validity remoteUids newUids headers = .error e) ∨
    ∃ table, importHeaders email db.folder validity (cachedUids db (newUids.take syncBatchSize))
        db.messages headers = .ok table ∧
      ((newUids.drop syncBatchSize = [] ∧
          afterHeaders email db validity remoteUids newUids headers =
            .ok (reconcileAfter (storedBatch db newUids table) remoteUids 0)) ∨
        (newUids.drop syncBatchSize ≠ [] ∧
          afterHeaders email db validity remoteUids newUids headers =
            .ok (storedBatch db newUids table,
              some (.headers validity remoteUids (newUids.drop syncBatchSize))))) := by
  unfold afterHeaders
  dsimp only
  cases importHeaders email db.folder validity (cachedUids db (newUids.take syncBatchSize))
      db.messages headers with
  | error e => exact Or.inl ⟨e, rfl, rfl⟩
  | ok table =>
    refine Or.inr ⟨table, rfl, ?_⟩
    cases newUids.drop syncBatchSize with
    | nil => exact Or.inl ⟨rfl, rfl⟩
    | cons uid rest => exact Or.inr ⟨by simp, rfl⟩

theorem reconcile_messages (db : FolderDb) (remoteUids : List Nat) (afterUid : Nat) :
    (reconcileAfter db remoteUids afterUid).1.messages = db.messages := by
  rcases reconcile_cases db remoteUids afterUid with ⟨_, eq⟩ | ⟨_, eq⟩
  · rw [eq]
  · rw [eq]

theorem after_headers_table {db db' : FolderDb} {validity : Nat} {remoteUids newUids : List Nat}
    {headers : List FetchedHeader} {pass : Option Pc}
    (ok : afterHeaders email db validity remoteUids newUids headers = .ok (db', pass)) :
    importHeaders email db.folder validity (cachedUids db (newUids.take syncBatchSize))
      db.messages headers = .ok db'.messages := by
  rcases after_headers_cases email db validity remoteUids newUids headers with
    ⟨e, _, eq⟩ | ⟨table, batch, ⟨_, eq⟩ | ⟨_, eq⟩⟩
  · rw [eq] at ok
    contradiction
  · have same := congrArg (fun r => r.1.messages) (Except.ok.inj (eq.symm.trans ok))
    rw [reconcile_messages] at same
    rw [batch, ← same]
    rfl
  · have same := congrArg (fun r => r.1.messages) (Except.ok.inj (eq.symm.trans ok))
    rw [batch, ← same]
    rfl

theorem after_headers_ok {db db' : FolderDb} {validity : Nat} {remoteUids newUids : List Nat}
    {headers : List FetchedHeader} {pc' : Option Pc} (some_new : newUids ≠ [])
    (ok : afterHeaders email db validity remoteUids newUids headers = .ok (db', pc')) :
    ∃ (added : List Message) (last : Nat) (middle : FolderDb),
      Added email db.folder validity (cachedUids db (newUids.take syncBatchSize)) headers added ∧
      (newUids.take syncBatchSize).getLast? = some last ∧
      middle.folder = { db.folder with lastSeenUid := last } ∧
      middle.messages.rows = db.messages.rows ++ added ∧
      ((newUids.drop syncBatchSize = [] ∧ (db', pc') = reconcileAfter middle remoteUids 0) ∨
        (newUids.drop syncBatchSize ≠ [] ∧ (db', pc') =
          (middle, some (.headers validity remoteUids (newUids.drop syncBatchSize))))) := by
  obtain ⟨last, isLast, _⟩ := SortedBatches.take_last_exists (show 0 < syncBatchSize by decide)
    some_new
  unfold afterHeaders at ok
  cases batch : importHeaders email db.folder validity
      (cachedUids db (newUids.take syncBatchSize)) db.messages headers with
  | error e => simp [batch, bind, Except.bind] at ok
  | ok table =>
    obtain ⟨added, rows, spec⟩ := import_batch_ok email batch
    have seen : (newUids.take syncBatchSize).getLastD db.folder.lastSeenUid = last := by
      rw [List.getLastD_eq_getLast?, isLast]
      rfl
    simp only [batch, bind, Except.bind, seen] at ok
    refine ⟨added, last, ⟨{ db.folder with lastSeenUid := last }, table⟩, spec, isLast, rfl, rows, ?_⟩
    cases left : newUids.drop syncBatchSize with
    | nil =>
      rw [left] at ok
      exact Or.inl ⟨rfl, (Except.ok.inj ok).symm⟩
    | cons uid rest =>
      rw [left] at ok
      exact Or.inr ⟨by simp, (Except.ok.inj ok).symm⟩

theorem lookup_requested (l : List RemoteMessage) (uids : List Nat) (uid : Nat) :
    ((l.filter fun m => m.uid ∈ uids).map fun m => (m.uid, m.flags)).lookup uid =
      if uid ∈ uids then (l.find? fun m => m.uid = uid).map RemoteMessage.flags else none := by
  induction l with
  | nil => simp
  | cons m rest ih =>
    by_cases asked : m.uid ∈ uids
    · rw [List.filter_cons_of_pos (by simpa using asked), List.map_cons, List.lookup_cons]
      by_cases same : m.uid = uid
      · simp [same, same ▸ asked]
      · simp [same, ih, beq_eq_false_iff_ne.mpr (Ne.symm same)]
    · rw [List.filter_cons_of_neg (by simpa using asked), ih]
      by_cases same : m.uid = uid
      · simp [same ▸ asked]
      · simp [same]

theorem flags_lookup (mb : Mailbox) (uids : List Nat) (uid : Nat) :
    (fetchFlags (flagResponse mb uids)).lookup uid =
      if uid ∈ uids then (mb.find uid).map RemoteMessage.flags else none := by
  by_cases empty : uids = []
  · subst empty
    simp [fetchFlags, flagResponse]
  · have lookup := lookup_requested mb.messages uids uid
    simp only [fetchFlags, flagResponse, if_neg empty, requested, List.map_map]
    exact lookup

/- A row survives reconciliation unless it was read and its message was not reported;
   a row that was read takes the reported flags. -/
theorem mem_reconciled {db : FolderDb} {remoteUids : List Nat} {messages : List Message}
    {mb : Mailbox} {m' : Message} :
    (m' ∈ db.messages.rows.filterMap (reconcileRow messages
      (fetchFlags (flagResponse mb (presentUids remoteUids messages))))) ↔
      ∃ m ∈ db.messages.rows, (m.id ∉ messages.map Message.id ∧ m' = m) ∨
        (m.id ∈ messages.map Message.id ∧ m.uid ∈ presentUids remoteUids messages ∧
          ∃ remote, mb.find m.uid = some remote ∧ m' = m.withFlags remote.flags) := by
  rw [List.mem_filterMap]
  refine exists_congr fun m => and_congr_right fun _ => ?_
  unfold reconcileRow
  by_cases page : m.id ∈ messages.map Message.id
  · rw [if_pos page, flags_lookup]
    by_cases asked : m.uid ∈ presentUids remoteUids messages
    · rw [if_pos asked]
      simp [page, asked, eq_comm]
    · simp [page, asked]
  · rw [if_neg page]
    simp [page, eq_comm]

end InboxFolderSegments
