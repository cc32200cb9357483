import InboxOne.FolderRuns

/-!
A pass over a folder whose rows already have the flags of their messages. Nobody else
changes the mailbox meanwhile, so the only labels of such a run are those of the pass.
-/
namespace InboxSteadyPass
open LabelledRuns InboxPython InboxMailbox InboxMailParser InboxTables InboxFolderSync
open InboxFolderSegments InboxFolderRuns

def isPass : Label → Bool
  | .begin | .call | .abort => true
  | _ => false

/-- The row's message is in the mailbox, with the flags of the row. -/
def RowAgrees (mb : Mailbox) (m : Message) : Prop :=
  mb.uidvalidity = m.uidvalidity ∧ ∃ r ∈ mb.messages, r.uid = m.uid ∧ FlagsAgree m r.flags

def SameFlags (m m' : Message) : Prop :=
  m'.isSeen = m.isSeen ∧ m'.isFlagged = m.isFlagged ∧ m'.isAnswered = m.isAnswered

def passStart (mb : Mailbox) (f : Folder) (messages : MessageTable) : World :=
  ⟨mb, [], ⟨f, messages⟩, none, []⟩

/- Between two calls: the snapshot lists every message, a page holds rows of the folder. -/
def PcSteady (mb : Mailbox) (db : FolderDb) : Pc → Prop
  | .select => True
  | .search validity => validity = mb.uidvalidity
  | .headers validity remoteUids newUids =>
      validity = mb.uidvalidity ∧ newUids ≠ [] ∧ ∀ uid, mb.Has uid → uid ∈ remoteUids
  | .flags remoteUids messages =>
      (∀ uid, mb.Has uid → uid ∈ remoteUids) ∧ ∀ m ∈ messages, db.InFolder m

/- Rows come and go with the UIDVALIDITY; those that are there agree with their message,
   and rows of other folders are the ones there were. -/
structure SteadyDb (mb : Mailbox) (f : Folder) (rows : List Message) (db : FolderDb) : Prop where
  sameFolder : db.folder.id = f.id
  others : ∀ m, m.folderId ≠ f.id → (m ∈ db.messages.rows ↔ m ∈ rows)
  agree : ∀ m, db.InFolder m → RowAgrees mb m
  kept : f.lastUidvalidity = some mb.uidvalidity →
    db.folder.lastUidvalidity = some mb.uidvalidity ∧ ∀ m ∈ rows, m ∈ db.messages.rows

structure Steady (mb : Mailbox) (f : Folder) (rows : List Message) (w : World) : Prop where
  server : w.server = mb
  db : SteadyDb mb f rows w.db
  pass : ∀ pc, w.pass = some pc → PcSteady mb w.db pc

theorem with_flags_agree {m : Message} {flags : Flags} (agree : FlagsAgree m flags) :
    m.withFlags flags = m := by
  obtain ⟨seen, flagged, answered⟩ := agree
  unfold Message.withFlags
  rw [← seen, ← flagged, ← answered]

theorem header_flags {mb : Mailbox} {uids : List Nat} {header : FetchedHeader}
    (mem : header ∈ fetchHeaders (headerResponse mb uids)) :
    ∃ r ∈ mb.messages, r.uid = header.uid ∧ header.flags = r.flags := by
  obtain ⟨entry, listed, same⟩ := List.mem_map.mp mem
  rw [List.mem_insertionSort] at listed
  obtain ⟨r, asked, built⟩ := List.mem_map.mp listed
  subst built
  subst same
  exact ⟨r, List.mem_of_mem_filter asked, rfl, rfl⟩

variable {mb : Mailbox} {f : Folder} {rows : List Message} {db : FolderDb}

theorem select_steady (steady : SteadyDb mb f rows db) :
    SteadyDb mb f rows (afterSelect db mb.uidvalidity) := by
  refine ⟨(select_same_folder db mb.uidvalidity).1.trans steady.sameFolder, ?_, ?_, ?_⟩
  · intro m elsewhere
    rw [← steady.others m elsewhere]
    unfold afterSelect
    split
    · have other : m.folderId ≠ db.folder.id := by
        rw [steady.sameFolder]
        exact elsewhere
      simp [mem_deleteWhere, other]
    · exact Iff.rfl
  · intro m inside
    exact steady.agree m (select_row inside).1
  · intro current
    have validity := (steady.kept current).1
    rw [select_same_validity validity]
    exact steady.kept current

theorem reconcile_steady {db' : FolderDb} {pass : Option Pc} {remoteUids : List Nat} {afterUid : Nat}
    (steady : SteadyDb mb f rows db) (listed : ∀ uid, mb.Has uid → uid ∈ remoteUids)
    (head : (db', pass) = reconcileAfter db remoteUids afterUid) :
    SteadyDb mb f rows db' ∧ ∀ pc, pass = some pc → PcSteady mb db' pc := by
  rcases reconcile_cases db remoteUids afterUid with ⟨_, done⟩ | ⟨_, more⟩
  · rw [done, Prod.mk.injEq] at head
    rw [head.1, head.2]
    exact ⟨⟨steady.sameFolder, steady.others, steady.agree, steady.kept⟩, nofun⟩
  · rw [more, Prod.mk.injEq] at head
    rw [head.1, head.2]
    refine ⟨steady, ?_⟩
    intro pc waiting
    rw [← Option.some.inj waiting]
    exact ⟨listed, fun m mem => (mem_nextMessages mem).1⟩

theorem search_steady {db' : FolderDb} {pass : Option Pc} (steady : SteadyDb mb f rows db)
    (search : (db', pass) = afterSearch db mb.uidvalidity (listUids (searchAll mb))) :
    SteadyDb mb f rows db' ∧ ∀ pc, pass = some pc → PcSteady mb db' pc := by
  have listed : ∀ uid, mb.Has uid → uid ∈ listUids (searchAll mb) :=
    fun uid has => ((search_ascending mb).2 uid).mpr has
  rcases search_cases db mb.uidvalidity (listUids (searchAll mb)) with ⟨_, none⟩ | ⟨some_new, new⟩
  · rw [none] at search
    exact reconcile_steady steady listed search
  · rw [new, Prod.mk.injEq] at search
    rw [search.1, search.2]
    refine ⟨steady, ?_⟩
    intro pc waiting
    rw [← Option.some.inj waiting]
    exact ⟨rfl, some_new, listed⟩

variable {Msg : Type} (email : EmailPackage Msg)

theorem headers_steady {db' : FolderDb} {pass : Option Pc} {remoteUids newUids : List Nat}
    (steady : SteadyDb mb f rows db) (some_new : newUids ≠ [])
    (listed : ∀ uid, mb.Has uid → uid ∈ remoteUids)
    (ok : afterHeaders email db mb.uidvalidity remoteUids newUids
      (fetchHeaders (headerResponse mb (newUids.take syncBatchSize))) = .ok (db', pass)) :
    SteadyDb mb f rows db' ∧ ∀ pc, pass = some pc → PcSteady mb db' pc := by
  obtain ⟨added, last, middle, spec, _, folder, table, ends⟩ := after_headers_ok email some_new ok
  have new_row : ∀ m ∈ added, m.folderId = f.id ∧ RowAgrees mb m := by
    intro m mem
    obtain ⟨header, inHeaders, _, parsed, dateSent, _, columns⟩ := spec.source m mem
    obtain ⟨r, inBox, uid, flags⟩ := header_flags inHeaders
    unfold RowAgrees FlagsAgree
    rw [columns]
    refine ⟨steady.sameFolder, rfl, r, inBox, uid, ?_⟩
    rw [← flags]
    exact ⟨rfl, rfl, rfl⟩
  have after : SteadyDb mb f rows middle := by
    have sameId : middle.folder.id = f.id := by
      rw [folder]
      exact steady.sameFolder
    refine ⟨sameId, ?_, ?_, ?_⟩
    · intro m elsewhere
      rw [table, List.mem_append, ← steady.others m elsewhere]
      exact ⟨fun there => there.resolve_right fun mem => elsewhere (new_row m mem).1, .inl⟩
    · intro m inside
      have mem : m ∈ db.messages.rows ++ added := table ▸ inside.1
      have own : m.folderId = f.id := inside.2.trans sameId
      rcases List.mem_append.mp mem with old | new
      · exact steady.agree m ⟨old, own.trans steady.sameFolder.symm⟩
      · exact (new_row m new).2
    · intro current
      obtain ⟨validity, all⟩ := steady.kept current
      rw [folder, table]
      exact ⟨validity, fun m mem => List.mem_append_left _ (all m mem)⟩
  rcases ends with ⟨_, head⟩ | ⟨more, next⟩
  · exact reconcile_steady after listed head
  · rw [Prod.mk.injEq] at next
    rw [next.1, next.2]
    refine ⟨after, ?_⟩
    intro pc waiting
    rw [← Option.some.inj waiting]
    exact ⟨rfl, more, listed⟩

/- The reported flags are those that the rows have, so reconciling changes no row. -/
theorem reconciled_same {remoteUids : List Nat} {messages : List Message}
    (steady : SteadyDb mb f rows db) (listed : ∀ uid, mb.Has uid → uid ∈ remoteUids)
    (page : ∀ m ∈ messages, db.InFolder m) {m' : Message} :
    m' ∈ db.messages.rows.filterMap (reconcileRow messages
      (fetchFlags (flagResponse mb (presentUids remoteUids messages)))) ↔ m' ∈ db.messages.rows := by
  have on_page : ∀ m ∈ db.messages.rows, m.id ∈ messages.map Message.id →
      m.uid ∈ presentUids remoteUids messages ∧
        ∃ remote, mb.find m.uid = some remote ∧ m.withFlags remote.flags = m := by
    intro m mem onPage
    obtain ⟨read, inPage, sameId⟩ := List.mem_map.mp onPage
    have same : read = m := id_determines (page read inPage).1 mem sameId
    subst same
    obtain ⟨_, r, inBox, uid, flags⟩ := steady.agree read (page read inPage)
    have present : read.uid ∈ remoteUids := listed _ ⟨r, inBox, uid⟩
    refine ⟨?_, r, find_eq_some_iff.mpr ⟨inBox, uid⟩, with_flags_agree flags⟩
    exact List.mem_filter.mpr ⟨List.mem_map.mpr ⟨read, inPage, rfl⟩, by simpa using present⟩
  rw [mem_reconciled]
  constructor
  · intro there
    obtain ⟨m, mem, ⟨_, same⟩ | ⟨onPage, _, remote, found, same⟩⟩ := there
    · exact same ▸ mem
    · obtain ⟨_, r, foundToo, unchanged⟩ := on_page m mem onPage
      rw [found, Option.some.injEq] at foundToo
      rw [same, foundToo, unchanged]
      exact mem
  · intro mem
    refine ⟨m', mem, ?_⟩
    by_cases onPage : m'.id ∈ messages.map Message.id
    · obtain ⟨present, r, found, unchanged⟩ := on_page m' mem onPage
      exact .inr ⟨onPage, present, r, found, unchanged.symm⟩
    · exact .inl ⟨onPage, rfl⟩

theorem flags_steady {db' : FolderDb} {pass : Option Pc} {remoteUids : List Nat}
    {messages : List Message} (steady : SteadyDb mb f rows db)
    (listed : ∀ uid, mb.Has uid → uid ∈ remoteUids) (page : ∀ m ∈ messages, db.InFolder m)
    (flags : (db', pass) = afterFlags db remoteUids messages
      (fetchFlags (flagResponse mb (presentUids remoteUids messages)))) :
    SteadyDb mb f rows db' ∧ ∀ pc, pass = some pc → PcSteady mb db' pc := by
  have same : ∀ m, m ∈ (db.messages.rewrite (reconcileRow messages
      (fetchFlags (flagResponse mb (presentUids remoteUids messages))))
      (reconcileRow_keeps messages _)).rows ↔ m ∈ db.messages.rows :=
    fun m => reconciled_same steady listed page
  apply reconcile_steady _ listed flags
  refine ⟨steady.sameFolder, ?_, ?_, ?_⟩
  · intro m elsewhere
    rw [same, steady.others m elsewhere]
  · intro m inside
    exact steady.agree m ⟨(same m).mp inside.1, inside.2⟩
  · intro current
    obtain ⟨validity, all⟩ := steady.kept current
    exact ⟨validity, fun m mem => (same m).mpr (all m mem)⟩

theorem resume_steady {db' : FolderDb} {pass : Option Pc} {pc : Pc} (steady : SteadyDb mb f rows db)
    (waiting : PcSteady mb db pc) (ok : resume email mb db pc = .ok (db', pass)) :
    SteadyDb mb f rows db' ∧ ∀ pc, pass = some pc → PcSteady mb db' pc := by
  cases pc with
  | select =>
    have ends := Except.ok.inj ok
    rw [Prod.mk.injEq] at ends
    rw [← ends.1, ← ends.2]
    refine ⟨select_steady steady, ?_⟩
    intro pc next
    rw [← Option.some.inj next]
    rfl
  | search validity =>
    rw [show validity = mb.uidvalidity from waiting] at ok
    exact search_steady steady (Except.ok.inj ok).symm
  | headers validity remoteUids newUids =>
    obtain ⟨same, some_new, listed⟩ := waiting
    rw [same] at ok
    exact headers_steady email steady some_new listed ok
  | flags remoteUids messages =>
    exact flags_steady steady waiting.1 waiting.2 (Except.ok.inj ok).symm

theorem step_steady {w w' : World} {l : Label} (steady : Steady mb f rows w)
    (step : restrict (fun _ l => isPass l) (next email) w l = some w') : Steady mb f rows w' := by
  obtain ⟨own, moved⟩ := restrict_step step
  cases l with
  | arrive gap content => contradiction
  | expunge uid => contradiction
  | changeFlags uid flags => contradiction
  | reset mailbox => contradiction
  | begin =>
    simp only [next] at moved
    split at moved
    · rw [← Option.some.inj moved]
      refine ⟨steady.server, steady.db, ?_⟩
      intro pc started
      rw [← Option.some.inj started]
      trivial
    · contradiction
  | abort =>
    obtain ⟨_, _, done⟩ := Option.map_eq_some_iff.mp moved
    rw [← done]
    exact ⟨steady.server, steady.db, nofun⟩
  | call =>
    obtain ⟨pc, waiting, done⟩ := Option.map_eq_some_iff.mp moved
    rw [← done]
    unfold callStep
    cases answer : resume email w.server w.db pc with
    | error e => exact ⟨steady.server, steady.db, nofun⟩
    | ok ends =>
      rw [steady.server] at answer
      obtain ⟨db, pass⟩ := resume_steady email steady.db (steady.pass pc waiting) answer
      exact ⟨steady.server, db, pass⟩

/- No pass changes a flag: a row that was there, under whatever key, has the flags it had;
   and where the UIDVALIDITY is the recorded one, every row stays. -/
theorem steady_pass {messages : MessageTable}
    (homes : ∀ m ∈ messages.rows, m.folderId = f.id → RowAgrees mb m) {labels : List Label}
    {w : World} (run : replay (restrict (fun _ l => isPass l) (next email))
      (passStart mb f messages) labels = some w) :
    (∀ m ∈ messages.rows, ∀ m' ∈ w.db.messages.rows, m'.identity = m.identity → SameFlags m m') ∧
      (f.lastUidvalidity = some mb.uidvalidity → ∀ m ∈ messages.rows, m ∈ w.db.messages.rows) := by
  have start : Steady mb f messages.rows (passStart mb f messages) :=
    ⟨rfl, ⟨rfl, fun _ _ => Iff.rfl, fun m inside => homes m inside.1 inside.2,
      fun current => ⟨current, fun _ mem => mem⟩⟩, nofun⟩
  have steady := replay_invariant (Steady mb f messages.rows) start
    (fun _ _ _ before step => step_steady email before step) run
  refine ⟨?_, fun current => (steady.db.kept current).2⟩
  intro m mem m' mem' same
  have columns := same
  rw [Message.identity, Message.identity, NewMessage.identity, NewMessage.identity,
    Prod.mk.injEq, Prod.mk.injEq, Prod.mk.injEq] at columns
  by_cases own : m.folderId = f.id
  · have own' : m'.folderId = w.db.folder.id := by rw [columns.2.1, own, steady.db.sameFolder]
    obtain ⟨_, r, inBox, uid, seen, flagged, answered⟩ := homes m mem own
    obtain ⟨_, r', inBox', uid', seen', flagged', answered'⟩ := steady.db.agree m' ⟨mem', own'⟩
    have sameMessage : r' = r := uid_determines inBox' inBox (by rw [uid, uid', columns.2.2.1])
    subst sameMessage
    exact ⟨seen'.trans seen.symm, flagged'.trans flagged.symm, answered'.trans answered.symm⟩
  · have elsewhere : m'.folderId ≠ f.id := by rw [columns.2.1]; exact own
    have old := (steady.db.others m' elsewhere).mp mem'
    rw [identity_determines old mem same]
    exact ⟨rfl, rfl, rfl⟩

end InboxSteadyPass
