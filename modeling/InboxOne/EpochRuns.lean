import InboxOne.FolderConvergence

/-!
Runs of `_sync_folder` passes in which the folder may be deleted and created again, with a
fresh UIDVALIDITY, before any IMAP call. The fields `seen` and `began` only observe the
run: every state of every message with the UIDVALIDITY it had, and the messages that each
UIDVALIDITY began with.
-/
namespace InboxEpochRuns
open LabelledRuns InboxPython InboxMailbox InboxMailParser InboxTables InboxFolderSync
open InboxFolderSegments InboxFolderConvergence
open InboxFolderRuns (expungeUid changeFlagsOf FlagsAgree)

structure World where
  server : Mailbox
  used : List Nat
  db : FolderDb
  pass : Option Pc
  seen : List (Nat × RemoteMessage)
  began : List (Nat × Nat)

inductive Label where
  | arrive (gap : Nat) (content : Content)
  | expunge (uid : Nat)
  | changeFlags (uid : Nat) (flags : Flags)
  | reset (mailbox : Mailbox)
  | begin
  | call
  | abort

def states (mb : Mailbox) : List (Nat × RemoteMessage) :=
  mb.messages.map fun m => (mb.uidvalidity, m)

def World.change (w : World) (server : Mailbox) : World :=
  { w with server := server, seen := states server ++ w.seen }

def World.reset (w : World) (mailbox : Mailbox) : World :=
  { w.change mailbox with
    used := mailbox.uidvalidity :: w.used
    began := (mailbox.messages.map fun m => (mailbox.uidvalidity, m.uid)) ++ w.began }

variable {Msg : Type} (email : EmailPackage Msg)

def callStep (w : World) (pc : Pc) : World :=
  match resume email w.server w.db pc with
  | .error _ => { w with pass := none }
  | .ok (db, pass) => { w with db := db, pass := pass }

def next (w : World) : Label → Option World
  | .arrive gap content => some (w.change (w.server.arrive gap content))
  | .expunge uid => some (w.change (expungeUid w.server uid))
  | .changeFlags uid flags => some (w.change (changeFlagsOf w.server uid flags))
  | .reset mailbox => if mailbox.uidvalidity ∉ w.used then some (w.reset mailbox) else none
  | .begin => if w.pass.isNone then some { w with pass := some .select } else none
  | .call => w.pass.map (callStep email w)
  | .abort => w.pass.map fun _ => { w with pass := none }

/-- The mailbox that answers a FETCH has the UIDVALIDITY that the SELECT of the pass reported,
or it has none of the UIDs asked for. -/
def fetchesOwnEpoch (w : World) : Label → Bool
  | .call =>
      match w.pass with
      | some (.headers validity _ newUids) =>
          w.server.uidvalidity = validity ∨
            (requested w.server (newUids.take syncBatchSize)).isEmpty
      | some (.flags remoteUids messages) =>
          w.db.folder.lastUidvalidity = some w.server.uidvalidity ∨
            (requested w.server (presentUids remoteUids messages)).isEmpty
      | _ => true
  | _ => true

/-- What FETCH reports of a message. -/
def headerOf (m : RemoteMessage) : FetchedHeader :=
  ⟨m.uid, m.flags, m.content.internaldate, m.content.size, m.content.header⟩

/-- Apart from its flags the row is what the import of this message gives. -/
def HoldsHeaders (row : Message) (m : RemoteMessage) : Prop :=
  ∃ folder parsed dateSent, Yields email (headerOf m) parsed dateSent ∧
    row.withFlags m.flags =
      ⟨newMessage folder row.uidvalidity (headerOf m) parsed dateSent, row.id⟩

/-- The headers and the flags are those of the message with the row's UIDVALIDITY and UID,
    each as it was at some time. -/
structure Genuine (seen : List (Nat × RemoteMessage)) (row : Message) : Prop where
  headers : ∃ m, (row.uidvalidity, m) ∈ seen ∧ m.uid = row.uid ∧ HoldsHeaders email row m
  flags : ∃ m, (row.uidvalidity, m) ∈ seen ∧ m.uid = row.uid ∧ FlagsAgree row m.flags

/-- The messages that the current UIDVALIDITY began with and that are still there lie below
    a position. -/
def Passed (server : Mailbox) (began : List (Nat × Nat)) (position : Nat) : Prop :=
  ∀ uid, (server.uidvalidity, uid) ∈ began → server.Has uid → uid ≤ position

def PassSound (server : Mailbox) (began : List (Nat × Nat)) (folder : Folder) : Pc → Prop
  | .select => True
  | .search validity => folder.lastUidvalidity = some validity
  | .headers validity _ newUids =>
      folder.lastUidvalidity = some validity ∧ newUids ≠ [] ∧ newUids.Pairwise (· < ·) ∧
        (∀ uid ∈ newUids, folder.lastSeenUid < uid) ∧
        (validity = server.uidvalidity → ∀ uid, (validity, uid) ∈ began → server.Has uid →
          uid ≤ folder.lastSeenUid ∨ uid ∈ newUids)
  | .flags _ _ =>
      folder.lastUidvalidity = some server.uidvalidity → Passed server began folder.lastSeenUid

structure Sound (w : World) : Prop where
  serverSeen : ∀ m ∈ w.server.messages, (w.server.uidvalidity, m) ∈ w.seen
  serverUsed : w.server.uidvalidity ∈ w.used
  folderUsed : ∀ v, w.db.folder.lastUidvalidity = some v → v ∈ w.used
  beganUsed : ∀ e ∈ w.began, e.1 ∈ w.used
  beganBelow : ∀ uid, (w.server.uidvalidity, uid) ∈ w.began → uid < w.server.uidNext
  current : ∀ m, w.db.InFolder m → w.db.folder.lastUidvalidity = some m.uidvalidity
  genuine : ∀ m, w.db.InFolder m → Genuine email w.seen m
  late : ∀ m, w.db.InFolder m → m.notificationEligible = true →
    (m.uidvalidity, m.uid) ∉ w.began
  passed : w.db.folder.historyComplete = true →
    w.db.folder.lastUidvalidity = some w.server.uidvalidity →
    Passed w.server w.began w.db.folder.lastSeenUid
  pass : ∀ pc, w.pass = some pc → PassSound w.server w.began w.db.folder pc

variable {email}

theorem genuine_grows {seen more : List (Nat × RemoteMessage)} {row : Message}
    (genuine : Genuine email seen row) : Genuine email (more ++ seen) row := by
  obtain ⟨⟨m, old, uid, holds⟩, ⟨m', old', uid', agree⟩⟩ := genuine
  exact ⟨⟨m, List.mem_append_right _ old, uid, holds⟩,
    ⟨m', List.mem_append_right _ old', uid', agree⟩⟩

theorem states_mem {mb : Mailbox} {m : RemoteMessage} (mem : m ∈ mb.messages)
    (seen : List (Nat × RemoteMessage)) : (mb.uidvalidity, m) ∈ states mb ++ seen :=
  List.mem_append_left _ (List.mem_map_of_mem mem)

/-! ### The server changes -/

section Changes
variable {w : World}

theorem passed_evolves {s s' : Mailbox} {began : List (Nat × Nat)} {position : Nat}
    (evolves : Evolves s s') (below : ∀ uid, (s.uidvalidity, uid) ∈ began → uid < s.uidNext)
    (passed : Passed s began position) : Passed s' began position := by
  intro uid old has
  rw [evolves.validity] at old
  exact passed uid old (evolves.old uid has (below uid old))

theorem pass_evolves {s s' : Mailbox} {began : List (Nat × Nat)} {folder : Folder} {pc : Pc}
    (evolves : Evolves s s') (below : ∀ uid, (s.uidvalidity, uid) ∈ began → uid < s.uidNext)
    (sound : PassSound s began folder pc) : PassSound s' began folder pc := by
  cases pc with
  | select => trivial
  | search validity => exact sound
  | headers validity remoteUids newUids =>
    obtain ⟨last, nonempty, ascending, above, covered⟩ := sound
    refine ⟨last, nonempty, ascending, above, ?_⟩
    intro same uid old has
    rw [evolves.validity] at same
    exact covered same uid old (evolves.old uid has (below uid (same ▸ old)))
  | flags remoteUids messages =>
    intro last
    exact passed_evolves evolves below (sound (evolves.validity ▸ last))

theorem change_sound {server : Mailbox} (sound : Sound email w)
    (evolves : Evolves w.server server) : Sound email (w.change server) := by
  constructor
  · exact fun m mem => states_mem mem w.seen
  · exact evolves.validity ▸ sound.serverUsed
  · exact sound.folderUsed
  · exact sound.beganUsed
  · intro uid old
    rw [World.change, evolves.validity] at old
    exact Nat.lt_of_lt_of_le (sound.beganBelow uid old) evolves.uidNext
  · exact sound.current
  · exact fun m inside => genuine_grows (sound.genuine m inside)
  · exact sound.late
  · intro complete last
    refine passed_evolves evolves sound.beganBelow (sound.passed complete ?_)
    exact evolves.validity ▸ last
  · exact fun pc active => pass_evolves evolves sound.beganBelow (sound.pass pc active)

theorem reset_sound {mailbox : Mailbox} (sound : Sound email w)
    (fresh : mailbox.uidvalidity ∉ w.used) : Sound email (w.reset mailbox) := by
  have stale : w.db.folder.lastUidvalidity ≠ some mailbox.uidvalidity :=
    fun last => fresh (sound.folderUsed _ last)
  have older : ∀ v uid, v ∈ w.used → (v, uid) ∈ (w.reset mailbox).began → (v, uid) ∈ w.began := by
    intro v uid used mem
    rcases List.mem_append.mp mem with new | old
    · obtain ⟨m, _, eq⟩ := List.mem_map.mp new
      exact absurd ((Prod.mk.inj eq).1 ▸ used) fresh
    · exact old
  constructor
  · exact fun m mem => states_mem mem w.seen
  · exact List.mem_cons_self
  · exact fun v last => List.mem_cons_of_mem _ (sound.folderUsed v last)
  · intro e mem
    rcases List.mem_append.mp mem with new | old
    · obtain ⟨m, _, rfl⟩ := List.mem_map.mp new
      exact List.mem_cons_self
    · exact List.mem_cons_of_mem _ (sound.beganUsed e old)
  · intro uid mem
    rcases List.mem_append.mp mem with new | old
    · obtain ⟨m, inside, eq⟩ := List.mem_map.mp new
      rw [← (Prod.mk.inj eq).2]
      exact (mailbox.bounded m inside).2
    · exact absurd (sound.beganUsed _ old) fresh
  · exact sound.current
  · exact fun m inside => genuine_grows (sound.genuine m inside)
  · intro m inside eligible mem
    have used := sound.folderUsed _ (sound.current m inside)
    exact sound.late m inside eligible (older _ _ used mem)
  · exact fun _ last => absurd last stale
  · intro pc active
    have before := sound.pass pc active
    cases pc with
    | select => trivial
    | search validity => exact before
    | headers validity remoteUids newUids =>
      obtain ⟨last, nonempty, ascending, above, _⟩ := before
      refine ⟨last, nonempty, ascending, above, ?_⟩
      intro same
      exact absurd (same ▸ last) stale
    | flags remoteUids messages => exact fun last => absurd last stale

end Changes

/-! ### The segments of a pass -/

theorem header_source {mb : Mailbox} {uids : List Nat} {header : FetchedHeader}
    (mem : header ∈ fetchHeaders (headerResponse mb uids)) :
    ∃ m ∈ mb.messages, m.uid ∈ uids ∧ header = headerOf m := by
  simp only [fetchHeaders, headerResponse, requested, List.mem_map, List.mem_insertionSort,
    List.mem_filter, decide_eq_true_eq] at mem
  obtain ⟨entry, ⟨m, ⟨inside, asked⟩, rfl⟩, rfl⟩ := mem
  exact ⟨m, inside, asked, rfl⟩

/- A row as it is imported holds the headers and the flags of its message. -/
theorem imported_genuine {seen : List (Nat × RemoteMessage)} {m : RemoteMessage} {row : Message}
    {folder : Folder} {validity : Nat} {parsed : ParsedHeader} {dateSent : Option Clock}
    (known : (validity, m) ∈ seen) (yields : Yields email (headerOf m) parsed dateSent)
    (eq : row.toNewMessage = newMessage folder validity (headerOf m) parsed dateSent) :
    Genuine email seen row := by
  obtain ⟨new, id⟩ := row
  simp only at eq
  subst eq
  constructor
  · exact ⟨m, known, rfl, folder, parsed, dateSent, yields, rfl⟩
  · exact ⟨m, known, rfl, rfl, rfl, rfl⟩

/- New flags leave the headers of a row alone. -/
theorem reflagged_genuine {seen : List (Nat × RemoteMessage)} {m : RemoteMessage} {row : Message}
    (genuine : Genuine email seen row) (known : (row.uidvalidity, m) ∈ seen)
    (same : m.uid = row.uid) : Genuine email seen (row.withFlags m.flags) := by
  obtain ⟨source, old, uid, folder, parsed, dateSent, yields, eq⟩ := genuine.headers
  exact ⟨⟨source, old, uid, folder, parsed, dateSent, yields, eq⟩, ⟨m, known, same, rfl, rfl, rfl⟩⟩

/- The state after a segment, when the pass has reached the reconciliation of its rows. -/
theorem reconcile_sound {w : World} {db db' : FolderDb} {pass : Option Pc}
    {remoteUids : List Nat} {afterUid : Nat} (sound : Sound email { w with db := db, pass := none })
    (passed : db.folder.lastUidvalidity = some w.server.uidvalidity →
      Passed w.server w.began db.folder.lastSeenUid)
    (eq : (db', pass) = reconcileAfter db remoteUids afterUid) :
    Sound email { w with db := db', pass := pass } := by
  rcases reconcile_cases db remoteUids afterUid with ⟨_, complete⟩ | ⟨_, page⟩
  · rw [complete] at eq
    cases eq
    refine ⟨sound.serverSeen, sound.serverUsed, sound.folderUsed, sound.beganUsed,
      sound.beganBelow, sound.current, sound.genuine, sound.late, fun _ => passed, ?_⟩
    intro pc active
    contradiction
  · rw [page] at eq
    cases eq
    refine ⟨sound.serverSeen, sound.serverUsed, sound.folderUsed, sound.beganUsed,
      sound.beganBelow, sound.current, sound.genuine, sound.late, sound.passed, ?_⟩
    intro pc active
    cases active
    exact passed

section Segments
variable {w : World}

theorem aborted_sound (sound : Sound email w) : Sound email { w with pass := none } := by
  refine ⟨sound.serverSeen, sound.serverUsed, sound.folderUsed, sound.beganUsed,
    sound.beganBelow, sound.current, sound.genuine, sound.late, sound.passed, ?_⟩
  intro pc active
  contradiction

theorem select_sound (sound : Sound email w) :
    Sound email { w with
      db := afterSelect w.db w.server.uidvalidity
      pass := some (.search w.server.uidvalidity) } := by
  have validity := select_validity w.db w.server.uidvalidity
  refine ⟨sound.serverSeen, sound.serverUsed, ?_, sound.beganUsed, sound.beganBelow, ?_, ?_, ?_,
    ?_, ?_⟩
  · intro v last
    rw [validity, Option.some.injEq] at last
    exact last ▸ sound.serverUsed
  · intro m inside
    obtain ⟨old, same⟩ := select_row inside
    rw [validity, ← same]
    exact sound.current m old
  · exact fun m inside => sound.genuine m (select_row inside).1
  · exact fun m inside => sound.late m (select_row inside).1
  · intro complete _
    by_cases same : w.db.folder.lastUidvalidity = some w.server.uidvalidity
    · rw [select_same_validity same] at complete ⊢
      exact sound.passed complete same
    · rw [(select_new_validity same).1] at complete
      contradiction
  · intro pc active
    cases active
    exact validity

theorem search_sound (sound : Sound email w) {validity : Nat}
    (last : w.db.folder.lastUidvalidity = some validity) {db : FolderDb} {pass : Option Pc}
    (eq : (db, pass) = afterSearch w.db validity (listUids (searchAll w.server))) :
    Sound email { w with db := db, pass := pass } := by
  obtain ⟨ascending, found⟩ := search_ascending w.server
  rcases search_cases w.db validity (listUids (searchAll w.server)) with ⟨empty, none_new⟩ |
    ⟨some_new, headers⟩
  · rw [none_new] at eq
    refine reconcile_sound (aborted_sound sound) ?_ eq
    intro _ uid _ has
    have early := List.filter_eq_nil_iff.mp empty uid ((found uid).mpr has)
    simpa using early
  · rw [headers] at eq
    cases eq
    refine ⟨sound.serverSeen, sound.serverUsed, sound.folderUsed, sound.beganUsed,
      sound.beganBelow, sound.current, sound.genuine, sound.late, sound.passed, ?_⟩
    intro pc active
    cases active
    refine ⟨last, some_new, ascending.filter _, ?_, ?_⟩
    · intro uid mem
      simpa using (List.mem_filter.mp mem).2
    · intro _ uid _ has
      by_cases early : uid ≤ w.db.folder.lastSeenUid
      · exact Or.inl early
      · refine Or.inr (List.mem_filter.mpr ⟨(found uid).mpr has, ?_⟩)
        simpa using early

/- A committed batch, before the pass goes on. -/
theorem batch_sound (sound : Sound email w) {validity : Nat} {remoteUids newUids : List Nat}
    (before : PassSound w.server w.began w.db.folder (.headers validity remoteUids newUids))
    (own : w.server.uidvalidity = validity ∨
      requested w.server (newUids.take syncBatchSize) = [])
    {added : List Message} {last : Nat} {middle : FolderDb}
    (spec : Added email w.db.folder validity (cachedUids w.db (newUids.take syncBatchSize))
      (fetchHeaders (headerResponse w.server (newUids.take syncBatchSize))) added)
    (isLast : (newUids.take syncBatchSize).getLast? = some last)
    (folder : middle.folder = { w.db.folder with lastSeenUid := last })
    (rows : middle.messages.rows = w.db.messages.rows ++ added) :
    Sound email { w with db := middle, pass := none } := by
  obtain ⟨current, _, _, above, _⟩ := before
  have inside : ∀ m, middle.InFolder m → w.db.InFolder m ∨ m ∈ added := by
    intro m mem
    rcases (in_folder_append rows (by rw [folder])).mp mem with old | new
    · exact Or.inl old
    · exact Or.inr new.1
  have lastNew : last ∈ newUids := List.mem_of_mem_take (List.mem_of_getLast? isLast)
  have grown : w.db.folder.lastSeenUid < last := above last lastNew
  -- a foreign mailbox adds no row
  have answered : ∀ m ∈ added, w.server.uidvalidity = validity := by
    intro m new
    obtain ⟨header, fetched, _⟩ := spec.source m new
    obtain ⟨remote, rm, asked, _⟩ := header_source fetched
    rcases own with same | unanswered
    · exact same
    · exact absurd (List.mem_filter.mpr ⟨rm, decide_eq_true asked⟩)
        (unanswered ▸ List.not_mem_nil (a := remote))
  refine ⟨sound.serverSeen, sound.serverUsed, ?_, sound.beganUsed, sound.beganBelow, ?_, ?_, ?_,
    ?_, ?_⟩
  · intro v eq
    simp only [folder] at eq
    exact sound.folderUsed v eq
  · intro m mem
    simp only [folder]
    rcases inside m mem with old | new
    · exact sound.current m old
    · rw [current, (added_row email spec new).1.2.2.1]
  · intro m mem
    rcases inside m mem with old | new
    · exact sound.genuine m old
    · obtain ⟨header, fetched, _, parsed, dateSent, yields, eq⟩ := spec.source m new
      obtain ⟨remote, rm, _, rfl⟩ := header_source fetched
      exact imported_genuine (answered m new ▸ sound.serverSeen remote rm) yields eq
  · intro m mem eligible
    rcases inside m mem with old | new
    · exact sound.late m old eligible
    · obtain ⟨⟨_, _, validity, flag⟩, has, asked, _⟩ := added_row email spec new
      intro old
      rw [validity, ← answered m new] at old
      have below := sound.passed (flag ▸ eligible) (answered m new ▸ current) m.uid old has
      have := above m.uid (List.mem_of_mem_take asked)
      omega
  · intro complete validity uid old has
    simp only [folder] at complete validity ⊢
    have := sound.passed complete validity uid old has
    omega
  · intro pc active
    contradiction

theorem headers_sound (sound : Sound email w) {validity : Nat} {remoteUids newUids : List Nat}
    (before : PassSound w.server w.began w.db.folder (.headers validity remoteUids newUids))
    (own : w.server.uidvalidity = validity ∨
      requested w.server (newUids.take syncBatchSize) = []) {db : FolderDb} {pass : Option Pc}
    (ok : afterHeaders email w.db validity remoteUids newUids
      (fetchHeaders (headerResponse w.server (newUids.take syncBatchSize))) = .ok (db, pass)) :
    Sound email { w with db := db, pass := pass } := by
  obtain ⟨current, nonempty, ascending, above, covered⟩ := id before
  obtain ⟨added, last, middle, spec, isLast, folder, rows, after⟩ :=
    after_headers_ok email nonempty ok
  have batch := batch_sound sound before own spec isLast folder rows
  have lastNew : last ∈ newUids := List.mem_of_mem_take (List.mem_of_getLast? isLast)
  have early : ∀ uid ∈ newUids.take syncBatchSize, uid ≤ last := by
    intro uid mem
    rcases SortedBatches.take_upto_last (ascending.sublist (List.take_sublist _ _)) mem isLast with
      eq | lt
    · exact Nat.le_of_eq eq
    · exact Nat.le_of_lt lt
  -- what the epoch began with is behind the batch or in what is left
  have left : validity = w.server.uidvalidity → ∀ uid, (validity, uid) ∈ w.began →
      w.server.Has uid → uid ≤ last ∨ uid ∈ newUids.drop syncBatchSize := by
    intro same uid old has
    rcases covered same uid old has with behind | new
    · have := above last lastNew
      exact Or.inl (by omega)
    · rw [← List.take_append_drop syncBatchSize newUids, List.mem_append] at new
      rcases new with inBatch | rest
      · exact Or.inl (early uid inBatch)
      · exact Or.inr rest
  rcases after with ⟨finished, eq⟩ | ⟨more, eq⟩
  · refine reconcile_sound batch ?_ eq
    intro validity' uid old has
    have same : validity = w.server.uidvalidity := by
      rw [folder] at validity'
      exact Option.some.inj (current.symm.trans validity')
    rw [folder]
    rcases left same uid (same ▸ old) has with behind | rest
    · exact behind
    · rw [finished] at rest
      contradiction
  · cases eq
    refine ⟨batch.serverSeen, batch.serverUsed, batch.folderUsed, batch.beganUsed,
      batch.beganBelow, batch.current, batch.genuine, batch.late, batch.passed, ?_⟩
    intro pc active
    cases active
    simp only [PassSound, folder]
    refine ⟨current, more, ascending.sublist (List.drop_sublist _ _), ?_, left⟩
    intro uid mem
    exact SortedBatches.take_before_drop ascending syncBatchSize (List.mem_of_getLast? isLast) mem

theorem flags_sound (sound : Sound email w) {remoteUids : List Nat} {messages : List Message}
    (before : PassSound w.server w.began w.db.folder (.flags remoteUids messages))
    (own : w.db.folder.lastUidvalidity = some w.server.uidvalidity ∨
      requested w.server (presentUids remoteUids messages) = [])
    {db : FolderDb} {pass : Option Pc}
    (eq : (db, pass) = afterFlags w.db remoteUids messages
      (fetchFlags (flagResponse w.server (presentUids remoteUids messages)))) :
    Sound email { w with db := db, pass := pass } := by
  suffices middle : Sound email { w with
      db := reconciledDb w.server w.db remoteUids messages, pass := none } from
    reconcile_sound middle before eq
  -- a row is an old one, or one with the flags that the server reports now
  have row : ∀ m' : Message, m' ∈ w.db.messages.rows.filterMap (reconcileRow messages
      (fetchFlags (flagResponse w.server (presentUids remoteUids messages)))) →
      m'.folderId = w.db.folder.id →
      w.db.InFolder m' ∨ ∃ m remote, w.db.InFolder m ∧ remote ∈ w.server.messages ∧
        remote.uid = m.uid ∧ m' = m.withFlags remote.flags ∧
        m.uid ∈ presentUids remoteUids messages := by
    intro m' mem folder
    obtain ⟨m, inside, ⟨_, same⟩ | ⟨_, asked, remote, found, same⟩⟩ := mem_reconciled.mp mem
    · exact Or.inl (same ▸ ⟨inside, same ▸ folder⟩)
    · obtain ⟨rm, uid⟩ := find_eq_some_iff.mp found
      refine Or.inr ⟨m, remote, ⟨inside, ?_⟩, rm, uid, same, asked⟩
      rw [same] at folder
      exact folder
  refine ⟨sound.serverSeen, sound.serverUsed, sound.folderUsed, sound.beganUsed,
    sound.beganBelow, ?_, ?_, ?_, sound.passed, ?_⟩
  · intro m' inside
    rcases row m' inside.1 inside.2 with old | ⟨m, remote, old, _, _, rfl, _⟩
    · exact sound.current m' old
    · exact sound.current m old
  · intro m' inside
    rcases row m' inside.1 inside.2 with old | ⟨m, remote, old, rm, uid, rfl, asked⟩
    · exact sound.genuine m' old
    · have last : w.db.folder.lastUidvalidity = some w.server.uidvalidity := by
        rcases own with same | unanswered
        · exact same
        · exact absurd (List.mem_filter.mpr ⟨rm, decide_eq_true (uid ▸ asked)⟩)
            (unanswered ▸ List.not_mem_nil (a := remote))
      have validity : w.server.uidvalidity = m.uidvalidity :=
        Option.some.inj (last.symm.trans (sound.current m old))
      exact reflagged_genuine (sound.genuine m old) (validity ▸ sound.serverSeen remote rm) uid
  · intro m' inside eligible
    rcases row m' inside.1 inside.2 with old | ⟨m, remote, old, _, _, rfl, _⟩
    · exact sound.late m' old eligible
    · exact sound.late m old eligible
  · intro pc active
    contradiction

end Segments

variable {w w' : World}

theorem call_sound (sound : Sound email w) {pc : Pc} (active : w.pass = some pc)
    (own : fetchesOwnEpoch w .call = true) : Sound email (callStep email w pc) := by
  have before := sound.pass pc active
  simp only [fetchesOwnEpoch, active] at own
  unfold callStep
  split
  · exact aborted_sound sound
  · rename_i db pass answered
    cases pc with
    | select =>
      cases answered
      exact select_sound sound
    | search validity =>
      simp only [resume, Except.ok.injEq] at answered
      exact search_sound sound before answered.symm
    | headers validity remoteUids newUids =>
      exact headers_sound sound before (by simpa using own) answered
    | flags remoteUids messages =>
      simp only [resume, Except.ok.injEq] at answered
      exact flags_sound sound before (by simpa using own) answered.symm

theorem next_sound {l : Label} (sound : Sound email w)
    (step : restrict fetchesOwnEpoch (next email) w l = some w') : Sound email w' := by
  obtain ⟨own, step⟩ := restrict_step step
  cases l with
  | arrive gap content =>
    cases step
    exact change_sound sound (arrive_evolves w.server gap content)
  | expunge uid =>
    cases step
    exact change_sound sound (expunge_evolves w.server uid)
  | changeFlags uid flags =>
    cases step
    exact change_sound sound (change_flags_evolves w.server uid flags)
  | reset mailbox =>
    simp only [next] at step
    split at step
    · rename_i fresh
      cases step
      exact reset_sound sound fresh
    · contradiction
  | begin =>
    simp only [next] at step
    split at step
    · cases step
      refine ⟨sound.serverSeen, sound.serverUsed, sound.folderUsed, sound.beganUsed,
        sound.beganBelow, sound.current, sound.genuine, sound.late, sound.passed, ?_⟩
      intro pc active
      cases active
      trivial
    · contradiction
  | call =>
    obtain ⟨pc, active, rfl⟩ := Option.map_eq_some_iff.mp step
    exact call_sound sound active own
  | abort =>
    obtain ⟨pc, _, rfl⟩ := Option.map_eq_some_iff.mp step
    exact aborted_sound sound

/-- A folder row that was never synchronised. -/
structure Fresh (w : World) : Prop where
  idle : w.pass = none
  empty : ∀ m, ¬ w.db.InFolder m
  unknown : w.db.folder.lastUidvalidity = none
  incomplete : w.db.folder.historyComplete = false
  seen : w.seen = states w.server
  used : w.used = [w.server.uidvalidity]
  began : w.began = w.server.messages.map fun m => (w.server.uidvalidity, m.uid)

theorem fresh_sound (fresh : Fresh w) : Sound email w := by
  have began : ∀ e ∈ w.began, e.1 = w.server.uidvalidity ∧ e.2 < w.server.uidNext := by
    intro e mem
    rw [fresh.began] at mem
    obtain ⟨m, inside, rfl⟩ := List.mem_map.mp mem
    exact ⟨rfl, (w.server.bounded m inside).2⟩
  constructor
  · intro m mem
    rw [fresh.seen]
    exact List.mem_map_of_mem mem
  · rw [fresh.used]
    exact List.mem_singleton_self _
  · intro v last
    rw [fresh.unknown] at last
    contradiction
  · intro e mem
    rw [fresh.used, (began e mem).1]
    exact List.mem_singleton_self _
  · exact fun uid mem => (began _ mem).2
  · exact fun m inside => absurd inside (fresh.empty m)
  · exact fun m inside => absurd inside (fresh.empty m)
  · exact fun m inside => absurd inside (fresh.empty m)
  · intro complete
    rw [fresh.incomplete] at complete
    contradiction
  · intro pc active
    rw [fresh.idle] at active
    contradiction

/-- In a run in which every FETCH is answered by the mailbox whose UIDVALIDITY its pass has
    selected, or with nothing, a row with a UIDVALIDITY and a UID holds the headers and the
    flags of that message, and no message that a UIDVALIDITY began with is eligible for a
    notification. -/
theorem rows_keep_their_epoch {w0 w : World} {labels : List Label} (fresh : Fresh w0)
    (run : replay (restrict fetchesOwnEpoch (next email)) w0 labels = some w) :
    ∀ m, w.db.InFolder m → Genuine email w.seen m ∧
      (m.notificationEligible = true → (m.uidvalidity, m.uid) ∉ w.began) := by
  have sound : Sound email w := replay_invariant (Sound email) (fresh_sound fresh)
    (fun _ _ _ before step => next_sound before step) run
  exact fun m inside => ⟨sound.genuine m inside, sound.late m inside⟩

/- Two messages are imported; one arrives; the folder is created again between passes. -/
def letterOf (size : Nat) : Content := ⟨∅, none, some size, [], []⟩

def firstEpoch : Mailbox where
  uidvalidity := 1
  uidNext := 2
  messages := [⟨1, letterOf 65⟩]
  ordered := List.pairwise_singleton _ _
  bounded := by simp
  started := Nat.succ_pos _

def secondEpoch : Mailbox where
  uidvalidity := 2
  uidNext := 4
  messages := [⟨1, letterOf 66⟩, ⟨2, letterOf 67⟩]
  ordered := by simp
  bounded := by simp
  started := Nat.succ_pos _

def newFolder : World where
  server := firstEpoch
  used := [1]
  db := ⟨freshFolder, .empty⟩
  pass := none
  seen := states firstEpoch
  began := [(1, 1)]

theorem new_folder_fresh : Fresh newFolder :=
  ⟨rfl, fun _ inside => List.not_mem_nil inside.1, rfl, rfl, rfl, rfl, rfl⟩

def resetBetween : List Label :=
  [.begin, .call, .call, .call, .call, .arrive 0 (letterOf 68), .begin, .call, .call, .call,
    .call, .reset secondEpoch, .begin, .call, .call, .call, .call]

theorem reset_between_keeps_epochs : ∃ w,
    replay (restrict fetchesOwnEpoch (next emptyHeaderEmail)) newFolder resetBetween = some w ∧
      w.db.messages.rows.map (fun m => (m.uidvalidity, m.uid)) = [(2, 1), (2, 2)] ∧
      ∀ m, w.db.InFolder m → Genuine emptyHeaderEmail w.seen m ∧
        (m.notificationEligible = true → (m.uidvalidity, m.uid) ∉ w.began) :=
  ⟨_, rfl, rfl, rows_keep_their_epoch new_folder_fresh
    (show replay (restrict fetchesOwnEpoch (next emptyHeaderEmail)) newFolder resetBetween =
      some _ from rfl)⟩

/- The second pass selects the old folder; the folder is created again before its SEARCH. -/
def resetDuring : List Label :=
  [.begin, .call, .call, .call, .call, .begin, .call, .reset secondEpoch, .call, .call]

/-- A row with the old UIDVALIDITY holds a message that only the new one has, and that
    message, which the new UIDVALIDITY began with, is eligible for a notification. -/
theorem rows_mix_epochs : ∃ w, replay (next emptyHeaderEmail) newFolder resetDuring = some w ∧
    ∃ m, w.db.InFolder m ∧ m.uidvalidity = 1 ∧ m.uid = 2 ∧ m.notificationEligible = true ∧
      ¬ Genuine emptyHeaderEmail w.seen m ∧
      HoldsHeaders emptyHeaderEmail m ⟨2, letterOf 67⟩ ∧
      (2, ⟨2, letterOf 67⟩) ∈ w.seen ∧ (2, 2) ∈ w.began := by
  refine ⟨_, rfl, _, ⟨List.mem_cons_of_mem _ List.mem_cons_self, rfl⟩, rfl, rfl, rfl, ?_,
    ⟨_, _, _, ⟨rfl, rfl⟩, rfl⟩, by decide, by decide⟩
  intro genuine
  obtain ⟨m, old, uid, _⟩ := genuine.headers
  have first : ∀ e ∈ states secondEpoch ++ states firstEpoch, e.1 = 1 → e.2.uid = 1 := by decide
  have one := first _ old rfl
  rw [uid] at one
  contradiction

end InboxEpochRuns
