import InboxOne.FolderSegments

/-!
A pass over one folder from its first call to its end, against a given list of answers.
What it commits depends on the folder row and on the rows of that folder, apart from the
keys that the database assigns, and it leaves the rows of all other folders alone.
-/
namespace InboxFolderPasses
open InboxPython InboxMailbox InboxMailParser InboxTables InboxFolderSync InboxFolderSegments

/-- A pass after some of its calls were answered, with what it has committed. -/
inductive Progress where
  | waiting (db : FolderDb) (pc : Pc)
  | completed (db : FolderDb)
  | failed (db : FolderDb) (error : PyException)

def Progress.db : Progress → FolderDb
  | .waiting db _ | .completed db | .failed db _ => db

abbrev Segment := FolderDb → Pc → Except PyException (FolderDb × Option Pc)

def advance (segment : Segment) : Progress → Progress
  | .waiting db pc =>
      match segment db pc with
      | .ok (db', some pc') => .waiting db' pc'
      | .ok (db', none) => .completed db'
      | .error e => .failed db e
  | ended => ended

/-- The pass when its calls are answered in this order; without an answer it waits. -/
def runPass {Answer : Type} (segment : Answer → Segment) (answers : List Answer) (p : Progress) :
    Progress :=
  answers.foldl (fun p answer => advance (segment answer) p) p

theorem pass_invariant {Answer : Type} {segment : Answer → Segment} {Inv : Progress → Prop}
    (step : ∀ answer p, Inv p → Inv (advance (segment answer) p)) {p : Progress} (inv : Inv p)
    (answers : List Answer) : Inv (runPass segment answers p) := by
  induction answers generalizing p with
  | nil => exact inv
  | cons answer rest ih => exact ih (step answer p inv)

/- A pass that has ended does not go on. -/
theorem pass_failed {Answer : Type} (segment : Answer → Segment) (answers : List Answer)
    (db : FolderDb) (e : PyException) :
    runPass segment answers (.failed db e) = .failed db e := by
  induction answers with
  | nil => rfl
  | cons answer rest ih => exact ih

/-- The rows of a folder without their keys. -/
def contents (table : MessageTable) (folderId : Nat) : List NewMessage :=
  (table.rows.filter fun m => m.folderId = folderId).map Message.toNewMessage

/-- The same folder with the same rows, under keys that may differ. -/
structure Alike (a b : FolderDb) : Prop where
  folder : a.folder = b.folder
  rows : contents a.messages a.folder.id = contents b.messages b.folder.id

/- The rows of the page that reconciliation waits with are rows of the folder. -/
def PageWithin (db : FolderDb) : Pc → Prop
  | .flags _ messages => ∀ m ∈ messages, db.InFolder m
  | _ => True

def SamePc : Pc → Pc → Prop
  | .flags remote messages, .flags remote' messages' =>
      remote = remote' ∧
        messages.map Message.toNewMessage = messages'.map Message.toNewMessage
  | .flags _ _, _ | _, .flags _ _ => False
  | pc, pc' => pc = pc'

/- Two suspended passes that will do the same. -/
structure Together (a b : FolderDb) (pc pc' : Pc) : Prop where
  alike : Alike a b
  same : SamePc pc pc'
  within : PageWithin a pc ∧ PageWithin b pc'

theorem contents_filter (table : MessageTable) (folderId : Nat) (p : NewMessage → Bool) :
    (contents table folderId).filter p =
      (table.rows.filter fun m => m.folderId = folderId ∧ p m.toNewMessage).map
        Message.toNewMessage := by
  unfold contents
  rw [List.filter_map, List.filter_filter]
  congr 1
  apply List.filter_congr
  intro m _
  simp [Bool.and_comm]

theorem cached_of_contents (db : FolderDb) (batch : List Nat) :
    cachedUids db batch = ((contents db.messages db.folder.id).filter fun n =>
      n.uid ∈ batch).map NewMessage.uid := by
  rw [contents_filter, List.map_map]
  simp only [cachedUids, decide_eq_true_eq]
  rfl

theorem page_of_contents (db : FolderDb) (afterUid : Nat) :
    (nextMessages db afterUid).map Message.toNewMessage =
      (((contents db.messages db.folder.id).filter fun n => afterUid < n.uid).insertionSort
        fun a b => a.uid ≤ b.uid).take syncBatchSize := by
  unfold nextMessages
  rw [contents_filter, List.map_take]
  simp only [decide_eq_true_eq]
  congr 1
  exact List.map_insertionSort (fun a b : Message => a.uid ≤ b.uid)
    (fun a b : NewMessage => a.uid ≤ b.uid) Message.toNewMessage _ (fun _ _ _ _ => Iff.rfl)

theorem mem_contents {table : MessageTable} {folderId : Nat} {n : NewMessage} :
    n ∈ contents table folderId ↔
      ∃ m ∈ table.rows, m.folderId = folderId ∧ m.toNewMessage = n := by
  simp [contents, and_assoc]

/- A reset leaves no row of the folder. -/
theorem contents_deleted (table : MessageTable) (folderId : Nat) :
    contents (table.deleteWhere fun m => m.folderId = folderId) folderId = [] := by
  rw [List.eq_nil_iff_forall_not_mem]
  intro n mem
  obtain ⟨m, row, own, _⟩ := mem_contents.mp mem
  have kept := (mem_deleteWhere.mp row).2
  simp [own] at kept

section Import
variable {Msg : Type} (email : EmailPackage Msg)

theorem contents_append {table table' : MessageTable} {m : Message}
    (rows : table'.rows = table.rows ++ [m]) (folderId : Nat) :
    contents table' folderId =
      contents table folderId ++ if m.folderId = folderId then [m.toNewMessage] else [] := by
  unfold contents
  rw [rows, List.filter_append, List.map_append]
  by_cases own : m.folderId = folderId <;> simp [own]

/- Whether an insert is refused depends on the rows of its own folder. -/
theorem insert_refused_iff (table : MessageTable) (m : NewMessage) :
    table.insert m = .error .integrityError ↔
      m.identity ∈ (contents table m.folderId).map NewMessage.identity := by
  unfold MessageTable.insert
  split
  · rename_i fresh
    constructor
    · intro refused
      contradiction
    · intro known
      obtain ⟨n, mem, same⟩ := List.mem_map.mp known
      obtain ⟨row, rowMem, _, eq⟩ := mem_contents.mp mem
      exact absurd (List.mem_map.mpr ⟨row, rowMem, by rw [← same, ← eq]; rfl⟩) fresh
  · rename_i known
    obtain ⟨row, rowMem, same⟩ := List.mem_map.mp (not_not.mp known)
    have own : row.folderId = m.folderId := congrArg (fun t => t.2.1) same
    simp only [true_iff]
    exact List.mem_map.mpr ⟨row.toNewMessage, mem_contents.mpr ⟨row, rowMem, own, rfl⟩, same⟩

/-- Both fail in the same way, or both succeed with related results. -/
def BothOk {X Y : Type} (R : X → Y → Prop) :
    Except PyException X → Except PyException Y → Prop
  | .ok a, .ok b => R a b
  | .error e, .error e' => e = e'
  | _, _ => False

theorem insert_alike {table table' : MessageTable} (m : NewMessage)
    (same : contents table m.folderId = contents table' m.folderId) :
    BothOk (fun t t' => contents t m.folderId = contents t' m.folderId) (table.insert m)
      (table'.insert m) := by
  have refused := insert_refused_iff table m
  have refused' := insert_refused_iff table' m
  rw [← same] at refused'
  cases first : table.insert m with
  | error e =>
    have only : e = .integrityError := by
      unfold MessageTable.insert at first
      split at first
      · contradiction
      · exact (Except.error.inj first).symm
    have second := refused'.mpr (refused.mp (only ▸ first))
    rw [second]
    exact only
  | ok t =>
    cases second : table'.insert m with
    | error e =>
      have only : e = .integrityError := by
        unfold MessageTable.insert at second
        split at second
        · contradiction
        · exact (Except.error.inj second).symm
      have clash := refused.mpr (refused'.mp (only ▸ second))
      rw [clash] at first
      contradiction
    | ok t' =>
      show contents t m.folderId = contents t' m.folderId
      rw [contents_append (insert_ok first), contents_append (insert_ok second), same]

theorem insert_all_alike {folderId : Nat} {messages : List NewMessage}
    (own : ∀ m ∈ messages, m.folderId = folderId) {table table' : MessageTable}
    (same : contents table folderId = contents table' folderId) :
    BothOk (fun t t' => contents t folderId = contents t' folderId)
      (messages.foldlM MessageTable.insert table)
      (messages.foldlM MessageTable.insert table') := by
  induction messages generalizing table table' with
  | nil => exact same
  | cons m rest ih =>
    obtain rfl := own m List.mem_cons_self
    have step := insert_alike m same
    rw [List.foldlM_cons, List.foldlM_cons]
    cases first : table.insert m with
    | error e =>
      cases second : table'.insert m with
      | error e' =>
        rw [first, second] at step
        exact step
      | ok t' => rw [first, second] at step; exact step.elim
    | ok t =>
      cases second : table'.insert m with
      | error e' => rw [first, second] at step; exact step.elim
      | ok t' =>
        rw [first, second] at step
        exact ih (fun other mem => own other (List.mem_cons_of_mem _ mem)) step

theorem bound_folder {folder : Folder} {validity : Nat} {cached : List Nat}
    {headers : List FetchedHeader} {messages : List NewMessage}
    (bound : boundMessages email folder validity cached headers = .ok messages) :
    ∀ m ∈ messages, m.folderId = folder.id := by
  induction headers generalizing messages with
  | nil =>
    obtain rfl := Except.ok.inj bound
    simp
  | cons header rest ih =>
    by_cases known : header.uid ∈ cached
    · rw [bound_known email known] at bound
      exact ih bound
    · obtain ⟨parsed, dateSent, tail, _, others, rfl⟩ := (bound_cons email known).mp bound
      intro m mem
      rcases List.mem_cons.mp mem with rfl | later
      · rfl
      · exact ih others m later

theorem import_batch_alike (folder : Folder) (validity : Nat) (cached : List Nat)
    (headers : List FetchedHeader) {table table' : MessageTable}
    (same : contents table folder.id = contents table' folder.id) :
    BothOk (fun t t' => contents t folder.id = contents t' folder.id)
      (importHeaders email folder validity cached table headers)
      (importHeaders email folder validity cached table' headers) := by
  unfold importHeaders
  cases bound : boundMessages email folder validity cached headers with
  | error e => rfl
  | ok messages =>
    simp only [bind, Except.bind]
    exact insert_all_alike (bound_folder email bound) same

/- Two segments that end alike, with passes that go on together. -/
def After : FolderDb × Option Pc → FolderDb × Option Pc → Prop
  | (a, some pc), (b, some pc') => Together a b pc pc'
  | (a, none), (b, none) => Alike a b
  | _, _ => False

theorem reconcile_alike {a b : FolderDb} (alike : Alike a b) (remoteUids : List Nat)
    (afterUid : Nat) :
    After (reconcileAfter a remoteUids afterUid) (reconcileAfter b remoteUids afterUid) := by
  have pages : (nextMessages a afterUid).map Message.toNewMessage =
      (nextMessages b afterUid).map Message.toNewMessage := by
    rw [page_of_contents, page_of_contents, alike.rows]
  rcases reconcile_cases a remoteUids afterUid with ⟨done, eq⟩ | ⟨more, eq⟩
  · have done' : nextMessages b afterUid = [] := by simpa [done] using pages.symm
    rcases reconcile_cases b remoteUids afterUid with ⟨_, eq'⟩ | ⟨more', _⟩
    · rw [eq, eq']
      exact ⟨by rw [alike.folder], alike.rows⟩
    · exact absurd done' more'
  · rcases reconcile_cases b remoteUids afterUid with ⟨done', _⟩ | ⟨_, eq'⟩
    · exact absurd (by simpa [done'] using pages) more
    · rw [eq, eq']
      exact ⟨alike, ⟨rfl, pages⟩, fun m mem => (mem_nextMessages mem).1,
        fun m mem => (mem_nextMessages mem).1⟩

theorem select_alike {a b : FolderDb} (alike : Alike a b) (validity : Nat) :
    Alike (afterSelect a validity) (afterSelect b validity) := by
  by_cases same : a.folder.lastUidvalidity = some validity
  · have same' : b.folder.lastUidvalidity = some validity := alike.folder ▸ same
    rw [select_same_validity same, select_same_validity same']
    exact alike
  · have same' : b.folder.lastUidvalidity ≠ some validity := alike.folder ▸ same
    unfold afterSelect
    rw [if_pos same, if_pos same', alike.folder]
    exact ⟨rfl, by rw [contents_deleted, contents_deleted]⟩

theorem search_alike {a b : FolderDb} (alike : Alike a b) (validity : Nat)
    (remoteUids : List Nat) :
    After (afterSearch a validity remoteUids) (afterSearch b validity remoteUids) := by
  have reconciled := reconcile_alike alike remoteUids 0
  unfold afterSearch
  rw [alike.folder]
  cases remoteUids.filter fun uid => decide (b.folder.lastSeenUid < uid) with
  | nil => exact reconciled
  | cons uid rest => exact ⟨alike, rfl, trivial, trivial⟩

theorem headers_alike {a b : FolderDb} (alike : Alike a b) (validity : Nat)
    (remoteUids newUids : List Nat) (headers : List FetchedHeader) :
    BothOk After (afterHeaders email a validity remoteUids newUids headers)
      (afterHeaders email b validity remoteUids newUids headers) := by
  have cached : cachedUids b (newUids.take syncBatchSize) =
      cachedUids a (newUids.take syncBatchSize) := by
    rw [cached_of_contents, cached_of_contents, alike.rows]
  have rows : contents a.messages a.folder.id = contents b.messages a.folder.id := by
    rw [alike.rows, alike.folder]
  have batch := import_batch_alike email a.folder validity
    (cachedUids a (newUids.take syncBatchSize)) headers rows
  rcases after_headers_cases email a validity remoteUids newUids headers with
    ⟨e, first, eq⟩ | ⟨table, first, more⟩
  · rcases after_headers_cases email b validity remoteUids newUids headers with
      ⟨e', second, eq'⟩ | ⟨table', second, _⟩
    · rw [← alike.folder, cached] at second
      rw [first, second] at batch
      rw [eq, eq']
      exact batch
    · rw [← alike.folder, cached] at second
      rw [first, second] at batch
      exact batch.elim
  · rcases after_headers_cases email b validity remoteUids newUids headers with
      ⟨e', second, _⟩ | ⟨table', second, more'⟩
    · rw [← alike.folder, cached] at second
      rw [first, second] at batch
      exact batch.elim
    · rw [← alike.folder, cached] at second
      rw [first, second] at batch
      have stored : Alike (storedBatch a newUids table) (storedBatch b newUids table') :=
        ⟨by rw [storedBatch, storedBatch, alike.folder], by
          show contents table a.folder.id = contents table' b.folder.id
          rw [← alike.folder]
          exact batch⟩
      rcases more with ⟨last, eq⟩ | ⟨further, eq⟩
      · rcases more' with ⟨_, eq'⟩ | ⟨further', _⟩
        · rw [eq, eq']
          exact reconcile_alike stored remoteUids 0
        · exact absurd last further'
      · rcases more' with ⟨last', _⟩ | ⟨_, eq'⟩
        · exact absurd last' further
        · rw [eq, eq']
          exact ⟨stored, rfl, trivial, trivial⟩

/- What reconciliation makes of a row, for a page given by its rows without keys. -/
def reconciledContent (page : List NewMessage) (flags : List (Nat × Flags)) (n : NewMessage) :
    Option NewMessage :=
  if (page.map NewMessage.identity).contains n.identity then
    (flags.lookup n.uid).map fun flags =>
      { n with
        isSeen := decide (.seen ∈ flags)
        isFlagged := decide (.flagged ∈ flags)
        isAnswered := decide (.answered ∈ flags) }
  else some n

theorem page_by_identity {db : FolderDb} {messages : List Message}
    (within : ∀ m ∈ messages, db.InFolder m) {m : Message} (mem : m ∈ db.messages.rows) :
    m.id ∈ messages.map Message.id ↔
      m.toNewMessage.identity ∈ (messages.map Message.toNewMessage).map NewMessage.identity := by
  rw [List.map_map]
  constructor
  · intro listed
    obtain ⟨other, page, same⟩ := List.mem_map.mp listed
    have eq := id_determines (within other page).1 mem same
    exact List.mem_map.mpr ⟨other, page, congrArg Message.identity eq⟩
  · intro listed
    obtain ⟨other, page, same⟩ := List.mem_map.mp listed
    have eq := identity_determines (within other page).1 mem same
    exact List.mem_map.mpr ⟨other, page, congrArg Message.id eq⟩

theorem reconcile_row_content {db : FolderDb} {messages : List Message}
    (within : ∀ m ∈ messages, db.InFolder m) (flags : List (Nat × Flags)) {m : Message}
    (mem : m ∈ db.messages.rows) :
    (reconcileRow messages flags m).map Message.toNewMessage =
      reconciledContent (messages.map Message.toNewMessage) flags m.toNewMessage := by
  have page := page_by_identity within mem
  unfold reconcileRow reconciledContent
  by_cases listed : m.id ∈ messages.map Message.id
  · rw [if_pos listed, if_pos (List.contains_iff_mem.mpr (page.mp listed)), Option.map_map]
    rfl
  · rw [if_neg listed, if_neg fun inside => listed (page.mpr (List.contains_iff_mem.mp inside))]
    rfl

theorem contents_reconciled {db : FolderDb} {messages : List Message}
    (within : ∀ m ∈ messages, db.InFolder m) (flags : List (Nat × Flags)) :
    contents (db.messages.rewrite (reconcileRow messages flags) (reconcileRow_keeps messages flags))
        db.folder.id =
      (contents db.messages db.folder.id).filterMap
        (reconciledContent (messages.map Message.toNewMessage) flags) := by
  unfold contents MessageTable.rewrite
  rw [List.filter_filterMap, List.map_filterMap, List.filterMap_map, List.filterMap_filter]
  apply List.filterMap_congr
  intro m mem
  have row := reconcile_row_content within flags mem
  have stays : ∀ m', reconcileRow messages flags m = some m' → m'.folderId = m.folderId :=
    fun m' eq => congrArg (fun t => t.2.1) (reconcileRow_keeps messages flags m m' eq).2
  simp only [decide_eq_true_eq, Function.comp_apply, ← row]
  cases result : reconcileRow messages flags m with
  | none => split <;> rfl
  | some m' => simp [Option.filter, stays m' result]

theorem flags_alike {a b : FolderDb} (alike : Alike a b) {messages messages' : List Message}
    (same : messages.map Message.toNewMessage = messages'.map Message.toNewMessage)
    (within : ∀ m ∈ messages, a.InFolder m) (within' : ∀ m ∈ messages', b.InFolder m)
    (remoteUids : List Nat) (flags : List (Nat × Flags)) :
    After (afterFlags a remoteUids messages flags) (afterFlags b remoteUids messages' flags) := by
  have last : (messages.getLast?.map fun m => m.uid) = messages'.getLast?.map fun m => m.uid := by
    have mapped := congrArg (fun l => (List.getLast? l).map NewMessage.uid) same
    simpa [List.getLast?_map, Option.map_map, Function.comp_def] using mapped
  unfold afterFlags
  rw [last]
  apply reconcile_alike
  refine ⟨alike.folder, ?_⟩
  rw [contents_reconciled within, contents_reconciled within', alike.rows, same]

/- The answers of the server do not depend on the keys either. -/
theorem present_alike {messages messages' : List Message} (remoteUids : List Nat)
    (same : messages.map Message.toNewMessage = messages'.map Message.toNewMessage) :
    presentUids remoteUids messages = presentUids remoteUids messages' := by
  have uids : (messages.map fun m => m.uid) = messages'.map fun m => m.uid := by
    have mapped := congrArg (List.map NewMessage.uid) same
    simpa [List.map_map, Function.comp_def] using mapped
  unfold presentUids
  rw [uids]

theorem resume_alike {a b : FolderDb} {pc pc' : Pc} (together : Together a b pc pc')
    (mb : Mailbox) : BothOk After (resume email mb a pc) (resume email mb b pc') := by
  obtain ⟨alike, same, within, within'⟩ := together
  cases pc with
  | select =>
    cases pc' with
    | select => exact ⟨select_alike alike mb.uidvalidity, rfl, trivial, trivial⟩
    | flags _ _ => exact same.elim
    | _ => contradiction
  | search validity =>
    cases pc' with
    | search validity' =>
      rw [Pc.search.inj same]
      exact search_alike alike validity' _
    | flags _ _ => exact same.elim
    | _ => contradiction
  | headers validity remoteUids newUids =>
    cases pc' with
    | headers validity' remoteUids' newUids' =>
      obtain ⟨one, two, three⟩ := Pc.headers.inj same
      subst one two three
      exact headers_alike email alike validity remoteUids newUids _
    | flags _ _ => exact same.elim
    | _ => contradiction
  | flags remoteUids messages =>
    cases pc' with
    | flags remoteUids' messages' =>
      obtain ⟨sameUids, rows⟩ := same
      subst sameUids
      have answers := present_alike remoteUids rows
      simp only [resume, answers]
      exact flags_alike alike rows within within' remoteUids _
    | _ => exact same.elim

/-- Two passes at the same point, over folders that are alike. -/
def Progress.Alike : Progress → Progress → Prop
  | .waiting a pc, .waiting b pc' => Together a b pc pc'
  | .completed a, .completed b => InboxFolderPasses.Alike a b
  | .failed a e, .failed b e' => InboxFolderPasses.Alike a b ∧ e = e'
  | _, _ => False

theorem advance_alike {p q : Progress} (alike : p.Alike q) (mb : Mailbox) :
    (advance (resume email mb) p).Alike (advance (resume email mb) q) := by
  cases p with
  | waiting a pc =>
    cases q with
    | waiting b pc' =>
      have together : Together a b pc pc' := alike
      have step := resume_alike email together mb
      simp only [advance]
      cases first : resume email mb a pc with
      | error e =>
        cases second : resume email mb b pc' with
        | error e' =>
          rw [first, second] at step
          exact ⟨together.alike, step⟩
        | ok r' => rw [first, second] at step; exact step.elim
      | ok r =>
        cases second : resume email mb b pc' with
        | error e' => rw [first, second] at step; exact step.elim
        | ok r' =>
          rw [first, second] at step
          obtain ⟨db, next⟩ := r
          obtain ⟨db', next'⟩ := r'
          cases next with
          | none =>
            cases next' with
            | none => exact step
            | some _ => exact step.elim
          | some _ =>
            cases next' with
            | none => exact step.elim
            | some _ => exact step
    | completed _ | failed _ _ => exact alike.elim
  | completed a =>
    cases q with
    | completed b => exact alike
    | waiting _ _ | failed _ _ => exact alike.elim
  | failed a e =>
    cases q with
    | failed b e' => exact alike
    | waiting _ _ | completed _ => exact alike.elim

theorem pass_alike {p q : Progress} (alike : p.Alike q) (answers : List Mailbox) :
    (runPass (resume email) answers p).Alike (runPass (resume email) answers q) := by
  induction answers generalizing p q with
  | nil => exact alike
  | cons mb rest ih => exact ih (advance_alike email alike mb)

theorem progress_alike_db {p q : Progress} (alike : p.Alike q) : InboxFolderPasses.Alike p.db q.db := by
  cases p with
  | waiting a pc =>
    cases q with
    | waiting b pc' => exact Together.alike alike
    | completed _ | failed _ _ => exact alike.elim
  | completed a =>
    cases q with
    | completed b => exact alike
    | waiting _ _ | failed _ _ => exact alike.elim
  | failed a e =>
    cases q with
    | failed b e' => exact alike.1
    | waiting _ _ | completed _ => exact alike.elim

/- What a pass leaves alone: the keys and names of its folder, and all other folders. -/
structure Within (a b : FolderDb) : Prop where
  columns : b.folder = { a.folder with
    historyComplete := b.folder.historyComplete
    lastUidvalidity := b.folder.lastUidvalidity
    lastSeenUid := b.folder.lastSeenUid }
  others : ∀ folderId, folderId ≠ a.folder.id →
    contents b.messages folderId = contents a.messages folderId

theorem within_refl (a : FolderDb) : Within a a := ⟨rfl, fun _ _ => rfl⟩

theorem within_id {a b : FolderDb} (within : Within a b) : b.folder.id = a.folder.id := by
  rw [within.columns]

theorem within_trans {a b c : FolderDb} (first : Within a b) (second : Within b c) :
    Within a c := by
  refine ⟨?_, fun folderId other => ?_⟩
  · rw [second.columns, first.columns]
  · have other' : folderId ≠ b.folder.id := within_id first ▸ other
    exact (second.others folderId other').trans (first.others folderId other)

theorem reconcile_within (db : FolderDb) (remoteUids : List Nat) (afterUid : Nat) :
    Within db (reconcileAfter db remoteUids afterUid).1 ∧
      ∀ pc, (reconcileAfter db remoteUids afterUid).2 = some pc →
        PageWithin (reconcileAfter db remoteUids afterUid).1 pc := by
  rcases reconcile_cases db remoteUids afterUid with ⟨_, eq⟩ | ⟨_, eq⟩
  · rw [eq]
    exact ⟨⟨rfl, fun _ _ => rfl⟩, fun pc none => by contradiction⟩
  · rw [eq]
    refine ⟨within_refl db, fun pc same => ?_⟩
    rw [← Option.some.inj same]
    exact fun m mem => (mem_nextMessages mem).1

theorem contents_rewrite_other {table : MessageTable} {f : Message → Option Message}
    (keeps : ∀ m m', f m = some m' → m'.id = m.id ∧ m'.identity = m.identity) {folderId : Nat}
    (same : ∀ m ∈ table.rows, m.folderId = folderId → f m = some m) :
    contents (table.rewrite f keeps) folderId = contents table folderId := by
  unfold contents MessageTable.rewrite
  congr 1
  rw [List.filter_filterMap, ← List.filterMap_eq_filter]
  apply List.filterMap_congr
  intro m mem
  by_cases own : m.folderId = folderId
  · rw [same m mem own]
    simp [Option.filter, Option.guard, own]
  · cases result : f m with
    | none => simp [Option.guard, own]
    | some m' =>
      have stays : m'.folderId = m.folderId := congrArg (fun t => t.2.1) (keeps m m' result).2
      simp [Option.filter, Option.guard, stays, own]

theorem contents_delete_other {table : MessageTable} {p : Message → Bool} {folderId : Nat}
    (spared : ∀ m ∈ table.rows, m.folderId = folderId → p m = false) :
    contents (table.deleteWhere p) folderId = contents table folderId :=
  contents_rewrite_other _ fun m mem own => by rw [spared m mem own]; rfl

theorem select_within (db : FolderDb) (validity : Nat) : Within db (afterSelect db validity) := by
  unfold afterSelect
  split
  · refine ⟨rfl, fun folderId other => ?_⟩
    exact contents_delete_other fun m _ own => by simpa [own] using other
  · exact within_refl db

theorem import_batch_others {folder : Folder} {validity : Nat} {cached : List Nat}
    {headers : List FetchedHeader} {table table' : MessageTable}
    (ok : importHeaders email folder validity cached table headers = .ok table')
    {folderId : Nat} (other : folderId ≠ folder.id) :
    contents table' folderId = contents table folderId := by
  obtain ⟨added, rows, spec⟩ := import_batch_ok email ok
  have none : added.filter (fun m => decide (m.folderId = folderId)) = [] := by
    rw [List.filter_eq_nil_iff]
    intro m mem
    obtain ⟨header, _, _, parsed, dateSent, _, eq⟩ := spec.source m mem
    have own : m.folderId = folder.id := congrArg NewMessage.folderId eq
    simpa [own] using Ne.symm other
  unfold contents
  rw [rows, List.filter_append, none, List.append_nil]

theorem headers_within {db db' : FolderDb} {validity : Nat} {remoteUids newUids : List Nat}
    {headers : List FetchedHeader} {pass : Option Pc}
    (ok : afterHeaders email db validity remoteUids newUids headers = .ok (db', pass)) :
    Within db db' ∧ ∀ pc, pass = some pc → PageWithin db' pc := by
  rcases after_headers_cases email db validity remoteUids newUids headers with
    ⟨e, _, eq⟩ | ⟨table, batch, more⟩
  · rw [eq] at ok
    contradiction
  · have stored : Within db (storedBatch db newUids table) :=
      ⟨rfl, fun folderId other => import_batch_others email batch other⟩
    rcases more with ⟨_, eq⟩ | ⟨_, eq⟩
    · have same := Except.ok.inj (eq.symm.trans ok)
      have reconciled := reconcile_within (storedBatch db newUids table) remoteUids 0
      rw [same] at reconciled
      exact ⟨within_trans stored reconciled.1, reconciled.2⟩
    · obtain ⟨rfl, rfl⟩ := Prod.mk.inj (Except.ok.inj (eq.symm.trans ok))
      exact ⟨stored, fun pc same => (Option.some.inj same) ▸ trivial⟩

theorem flags_within {db : FolderDb} {messages : List Message}
    (page : ∀ m ∈ messages, db.InFolder m) (remoteUids : List Nat) (flags : List (Nat × Flags)) :
    Within db (afterFlags db remoteUids messages flags).1 ∧
      ∀ pc, (afterFlags db remoteUids messages flags).2 = some pc →
        PageWithin (afterFlags db remoteUids messages flags).1 pc := by
  have stored : Within db
      { db with
        messages := db.messages.rewrite (reconcileRow messages flags)
          (reconcileRow_keeps messages flags) } := by
    refine ⟨rfl, fun folderId other => ?_⟩
    refine contents_rewrite_other (reconcileRow_keeps messages flags) fun m mem own => ?_
    apply if_neg
    intro listed
    obtain ⟨read, inPage, same⟩ := List.mem_map.mp listed
    have eq := id_determines (page read inPage).1 mem same
    exact other (own ▸ eq ▸ (page read inPage).2)
  have reconciled := reconcile_within
    { db with
      messages := db.messages.rewrite (reconcileRow messages flags)
        (reconcileRow_keeps messages flags) }
    remoteUids ((messages.getLast?.map fun m => m.uid).getD 0)
  exact ⟨within_trans stored reconciled.1, reconciled.2⟩

theorem resume_within {mb : Mailbox} {db db' : FolderDb} {pc : Pc} {pass : Option Pc}
    (page : PageWithin db pc) (ok : resume email mb db pc = .ok (db', pass)) :
    Within db db' ∧ ∀ pc, pass = some pc → PageWithin db' pc := by
  cases pc with
  | select =>
    obtain ⟨rfl, rfl⟩ := Prod.mk.inj (Except.ok.inj ok)
    exact ⟨select_within db _, fun pc same => (Option.some.inj same) ▸ trivial⟩
  | search validity =>
    have same := Except.ok.inj ok
    have reconciled := reconcile_within db (listUids (searchAll mb)) 0
    rcases search_cases db validity (listUids (searchAll mb)) with ⟨_, eq⟩ | ⟨_, eq⟩
    · rw [← eq, same] at reconciled
      exact reconciled
    · rw [eq] at same
      obtain ⟨rfl, rfl⟩ := Prod.mk.inj same
      exact ⟨within_refl db, fun pc same => (Option.some.inj same) ▸ trivial⟩
  | headers validity remoteUids newUids => exact headers_within email ok
  | flags remoteUids messages =>
    have within := flags_within page remoteUids
      (fetchFlags (flagResponse mb (presentUids remoteUids messages)))
    rw [Except.ok.inj ok] at within
    exact within

def Progress.PageWithin : Progress → Prop
  | .waiting db pc => InboxFolderPasses.PageWithin db pc
  | _ => True

theorem pass_within {p : Progress} (page : p.PageWithin) (answers : List Mailbox) :
    Within p.db (runPass (resume email) answers p).db := by
  induction answers generalizing p with
  | nil => exact within_refl _
  | cons mb rest ih =>
    have step : Within p.db (advance (resume email mb) p).db ∧
        (advance (resume email mb) p).PageWithin := by
      cases p with
      | waiting db pc =>
        simp only [advance]
        cases result : resume email mb db pc with
        | error e => exact ⟨within_refl db, trivial⟩
        | ok r =>
          obtain ⟨db', pass⟩ := r
          have within := resume_within email page result
          cases pass with
          | none => exact ⟨within.1, trivial⟩
          | some pc' => exact ⟨within.1, within.2 pc' rfl⟩
      | completed db => exact ⟨within_refl db, trivial⟩
      | failed db e => exact ⟨within_refl db, trivial⟩
    exact within_trans step.1 (ih step.2)

end Import

end InboxFolderPasses
