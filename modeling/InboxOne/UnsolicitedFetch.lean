import InboxOne.FolderCompletion
import InboxOne.FolderPasses

/-!
FETCH replies with additional entries. A server may report the flags of any message at
any time, and IMAPClient returns them in the same dictionary. A pass with such entries is
compared with the pass over the same mailboxes without them.
-/
namespace InboxUnsolicitedFetch
open InboxPython InboxMailbox InboxMailParser InboxTables InboxFolderSync InboxFolderSegments
open InboxFolderPasses InboxFolderCompletion

/-- What one call finds: the mailbox, and the messages whose flags come along unasked. -/
structure Reply where
  mailbox : Mailbox
  extra : List (Nat × Flags)
  distinct : (extra.map Prod.fst).Nodup

/- The entries for messages that were not asked for. -/
def Reply.unsolicited (r : Reply) (uids : List Nat) : List (Nat × FetchData) :=
  (r.extra.filter fun e => e.1 ∉ uids).map fun e => (e.1, ⟨some e.2, none, none, none⟩)

def Reply.headers (r : Reply) (uids : List Nat) : List (Nat × FetchData) :=
  headerResponse r.mailbox uids ++ r.unsolicited uids

/- fetch_flags makes no call for an empty list. -/
def Reply.flags (r : Reply) (uids : List Nat) : List (Nat × FetchData) :=
  if uids = [] then [] else flagResponse r.mailbox uids ++ r.unsolicited uids

variable {Msg : Type} (email : EmailPackage Msg)

def resumeWith (r : Reply) (db : FolderDb) : Pc → Except PyException (FolderDb × Option Pc)
  | .headers validity remoteUids newUids =>
      afterHeaders email db validity remoteUids newUids
        (fetchHeaders (r.headers (newUids.take syncBatchSize)))
  | .flags remoteUids messages =>
      .ok (afterFlags db remoteUids messages
        (fetchFlags (r.flags (presentUids remoteUids messages))))
  | .select => resume email r.mailbox db .select
  | .search validity => resume email r.mailbox db (.search validity)

/- The pass that gets the additional entries, and the pass without them. -/
def disturbed (replies : List Reply) (p : Progress) : Progress :=
  runPass (resumeWith email) replies p

def calm (replies : List Reply) (p : Progress) : Progress :=
  runPass (fun r => resume email r.mailbox) replies p

theorem disturbed_cons (r : Reply) (rest : List Reply) (p : Progress) :
    disturbed email (r :: rest) p = disturbed email rest (advance (resumeWith email r) p) := rfl

theorem calm_cons (r : Reply) (rest : List Reply) (p : Progress) :
    calm email (r :: rest) p = calm email rest (advance (resume email r.mailbox) p) := rfl

def SameEnd : Progress → Progress → Prop
  | .waiting _ _, .waiting _ _ | .completed _, .completed _ | .failed _ _, .failed _ _ => True
  | _, _ => False

def Readable (header : FetchedHeader) : Prop :=
  ∃ parsed dateSent, Yields email header parsed dateSent

/- The commit of these headers meets the unique constraint. -/
def Refused (folder : Folder) (validity : Nat) (cached : List Nat) (table : MessageTable)
    (headers : List FetchedHeader) : Prop :=
  ∃ messages, boundMessages email folder validity cached headers = .ok messages ∧
    messages.foldlM MessageTable.insert table = .error .integrityError

/- A batch of headers does not fail on the unique constraint and adds rows for UIDs of the
   batch only, each from its own header. -/
def InsertsReturned (r : Reply) : Progress → Prop
  | .waiting db (.headers validity remoteUids newUids) =>
      ¬ Refused email db.folder validity (cachedUids db (newUids.take syncBatchSize)) db.messages
          (fetchHeaders (r.headers (newUids.take syncBatchSize))) ∧
        ∀ db' pass, resumeWith email r db (.headers validity remoteUids newUids) = .ok (db', pass) →
          ∀ m ∈ db'.messages.rows, m ∉ db.messages.rows →
            m.uid ∈ newUids.take syncBatchSize ∧
              ∃ header ∈ fetchHeaders (headerResponse r.mailbox (newUids.take syncBatchSize)),
                ∃ parsed dateSent, Yields email header parsed dateSent ∧
                  m.toNewMessage = newMessage db.folder validity header parsed dateSent
  | _ => True

def AllInsertsReturned : List Reply → Progress → Prop
  | [], _ => True
  | r :: rest, p => InsertsReturned email r p ∧
      AllInsertsReturned rest (advance (resumeWith email r) p)

/-- The additional entries make no difference to the pass. -/
structure Undisturbed (replies : List Reply) (p : Progress) : Prop where
  rows : (disturbed email replies p).db = (calm email replies p).db
  ends : SameEnd (disturbed email replies p) (calm email replies p)
  inserts : AllInsertsReturned email replies p

/- One of the headers to be imported cannot be parsed or stored. -/
def Spoilt (cached : List Nat) (headers : List FetchedHeader) : Prop :=
  ∃ header ∈ headers, header.uid ∉ cached ∧ ¬ Readable email header

/-- No additional entry comes with a batch of headers, unless the batch fails anyway on one
of its own headers; none that comes with flags is for a row of the page that the SEARCH
did not list. -/
def Harmless (r : Reply) : Progress → Prop
  | .waiting db (.headers _ _ newUids) =>
      r.unsolicited (newUids.take syncBatchSize) = [] ∨
        Spoilt email (cachedUids db (newUids.take syncBatchSize))
          (fetchHeaders (headerResponse r.mailbox (newUids.take syncBatchSize)))
  | .waiting _ (.flags remoteUids messages) =>
      presentUids remoteUids messages = [] ∨
        ∀ m ∈ messages, m.uid ∉ remoteUids → ∀ e ∈ r.extra, e.1 ≠ m.uid
  | _ => True

def AllHarmless : List Reply → Progress → Prop
  | [], _ => True
  | r :: rest, p => Harmless email r p ∧
      AllHarmless rest (advance (resume email r.mailbox) p)

/- What a pass relies on at its calls, whatever the replies were. -/
def Shape (db : FolderDb) : Pc → Prop
  | .select | .search _ => True
  | .headers _ _ newUids => newUids ≠ [] ∧ newUids.Pairwise (· < ·) ∧
      ∀ uid ∈ newUids, db.folder.lastSeenUid < uid
  | .flags _ messages => ∃ afterUid, messages = nextMessages db afterUid

def Shaped : Progress → Prop
  | .waiting db pc => Shape db pc
  | _ => True

theorem reconcile_shape (db : FolderDb) (remoteUids : List Nat) (afterUid : Nat) :
    (reconcileAfter db remoteUids afterUid).1.folder.lastSeenUid = db.folder.lastSeenUid ∧
      ∀ pc, (reconcileAfter db remoteUids afterUid).2 = some pc →
        Shape (reconcileAfter db remoteUids afterUid).1 pc := by
  rcases reconcile_cases db remoteUids afterUid with ⟨_, eq⟩ | ⟨_, eq⟩
  · rw [eq]
    exact ⟨rfl, fun pc none => by contradiction⟩
  · rw [eq]
    refine ⟨rfl, fun pc same => ?_⟩
    rw [← Option.some.inj same]
    exact ⟨afterUid, rfl⟩

theorem headers_shape {db db' : FolderDb} {validity : Nat} {remoteUids newUids : List Nat}
    {headers : List FetchedHeader} {pass : Option Pc}
    (shape : Shape db (.headers validity remoteUids newUids))
    (ok : afterHeaders email db validity remoteUids newUids headers = .ok (db', pass)) :
    db.folder.lastSeenUid < db'.folder.lastSeenUid ∧ ∀ pc, pass = some pc → Shape db' pc := by
  obtain ⟨some_new, ascending, above⟩ := shape
  obtain ⟨added, last, middle, _, isLast, folder, _, more⟩ :=
    after_headers_ok email some_new ok
  have inBatch : last ∈ newUids.take syncBatchSize := List.mem_of_getLast? isLast
  have seen : middle.folder.lastSeenUid = last := by rw [folder]
  have advanced := above last (List.mem_of_mem_take inBatch)
  rcases more with ⟨_, eq⟩ | ⟨further, eq⟩
  · have reconciled := reconcile_shape middle remoteUids 0
    rw [← eq, seen] at reconciled
    exact ⟨by rw [reconciled.1]; exact advanced, reconciled.2⟩
  · obtain ⟨rfl, rfl⟩ := Prod.mk.inj eq
    refine ⟨by rw [seen]; exact advanced, fun pc same => ?_⟩
    rw [← Option.some.inj same]
    refine ⟨further, ascending.sublist (List.drop_sublist _ _), fun uid mem => ?_⟩
    rw [seen]
    exact SortedBatches.take_before_drop ascending _ inBatch mem

theorem search_shape (mb : Mailbox) (db : FolderDb) (validity : Nat) :
    ∀ pc, (afterSearch db validity (listUids (searchAll mb))).2 = some pc →
      Shape (afterSearch db validity (listUids (searchAll mb))).1 pc := by
  rcases search_cases db validity (listUids (searchAll mb)) with ⟨_, eq⟩ | ⟨new, eq⟩
  · rw [eq]
    exact (reconcile_shape db _ 0).2
  · rw [eq]
    intro pc same
    rw [← Option.some.inj same]
    refine ⟨new, (search_ascending mb).1.filter _, fun uid mem => ?_⟩
    simpa using (List.mem_filter.mp mem).2

theorem resume_with_shape {r : Reply} {db db' : FolderDb} {pc : Pc} {pass : Option Pc}
    (shape : Shape db pc) (ok : resumeWith email r db pc = .ok (db', pass)) :
    ∀ pc', pass = some pc' → Shape db' pc' := by
  cases pc with
  | select =>
    obtain ⟨rfl, rfl⟩ := Prod.mk.inj (Except.ok.inj ok)
    exact fun pc' same => (Option.some.inj same) ▸ trivial
  | search validity =>
    have shaped := search_shape r.mailbox db validity
    rw [Except.ok.inj ok] at shaped
    exact shaped
  | headers validity remoteUids newUids => exact (headers_shape email shape ok).2
  | flags remoteUids messages =>
    have shaped := (reconcile_shape { db with
        messages := db.messages.rewrite
          (reconcileRow messages (fetchFlags (r.flags (presentUids remoteUids messages))))
          (reconcileRow_keeps _ _) } remoteUids
      ((messages.getLast?.map fun m => m.uid).getD 0)).2
    have same := Except.ok.inj ok
    unfold afterFlags at same
    rw [same] at shaped
    exact shaped

def Reply.quiet (r : Reply) : Reply := ⟨r.mailbox, [], List.nodup_nil⟩

@[simp] theorem quiet_unsolicited (r : Reply) (uids : List Nat) : r.quiet.unsolicited uids = [] := rfl

theorem quiet_flags (r : Reply) (uids : List Nat) :
    r.quiet.flags uids = flagResponse r.mailbox uids := by
  unfold Reply.flags flagResponse
  split
  · rfl
  · simp only [quiet_unsolicited, List.append_nil]
    rfl

theorem quiet_resume (r : Reply) (db : FolderDb) (pc : Pc) :
    resumeWith email r.quiet db pc = resume email r.mailbox db pc := by
  cases pc with
  | select | search _ => rfl
  | headers validity remoteUids newUids =>
    simp only [resumeWith, resume, Reply.headers, quiet_unsolicited, List.append_nil]
    rfl
  | flags remoteUids messages => simp only [resumeWith, resume, quiet_flags]

theorem mem_fetch_headers {response : List (Nat × FetchData)} {header : FetchedHeader} :
    header ∈ fetchHeaders response ↔ ∃ entry ∈ response, header =
      { uid := entry.1
        flags := entry.2.flags.getD ∅
        internaldate := entry.2.internaldate
        size := entry.2.size
        headerBytes := entry.2.header.getD [] } := by
  simp only [fetchHeaders, List.mem_map, List.mem_insertionSort, eq_comm]

/- An uncached UID of the batch has no row under any UIDVALIDITY. -/
theorem uncached_fresh {db : FolderDb} {batch : List Nat} {uid : Nat} (validity : Nat)
    (asked : uid ∈ batch) (uncached : uid ∉ cachedUids db batch) :
    (db.folder.accountId, db.folder.id, uid, validity) ∉ db.messages.rows.map Message.identity := by
  intro known
  obtain ⟨m, mem, same⟩ := List.mem_map.mp known
  have own : m.folderId = db.folder.id := congrArg (fun t => t.2.1) same
  have uids : m.uid = uid := congrArg (fun t => t.2.2.1) same
  exact uncached (mem_cachedUids.mpr ⟨⟨m, ⟨mem, own⟩, uids⟩, asked⟩)

theorem bound_yields {folder : Folder} {validity : Nat} {cached : List Nat}
    {headers : List FetchedHeader} {messages : List NewMessage}
    (bound : boundMessages email folder validity cached headers = .ok messages) :
    ∀ header ∈ headers, header.uid ∉ cached → Readable email header := by
  induction headers generalizing messages with
  | nil => simp
  | cons first rest ih =>
    intro header mem unknown
    by_cases known : first.uid ∈ cached
    · rw [bound_known email known] at bound
      rcases List.mem_cons.mp mem with rfl | later
      · exact absurd known unknown
      · exact ih bound header later unknown
    · obtain ⟨parsed, dateSent, tail, yields, others, _⟩ := (bound_cons email known).mp bound
      rcases List.mem_cons.mp mem with rfl | later
      · exact ⟨parsed, dateSent, yields⟩
      · exact ih others header later unknown

/- Nothing is stored of a spoilt batch, and no row of it reaches the constraint. -/
theorem spoilt_unbound {cached : List Nat} {headers : List FetchedHeader}
    (spoilt : Spoilt email cached headers) (folder : Folder) (validity : Nat) :
    ∃ e, boundMessages email folder validity cached headers = .error e := by
  obtain ⟨header, mem, unknown, unreadable⟩ := spoilt
  cases bound : boundMessages email folder validity cached headers with
  | error e => exact ⟨e, rfl⟩
  | ok messages => exact absurd (bound_yields email bound header mem unknown) unreadable

theorem spoilt_fails {db : FolderDb} {newUids : List Nat} {headers : List FetchedHeader}
    (spoilt : Spoilt email (cachedUids db (newUids.take syncBatchSize)) headers)
    (validity : Nat) (remoteUids : List Nat) :
    ∃ e, afterHeaders email db validity remoteUids newUids headers = .error e := by
  obtain ⟨e, unbound⟩ := spoilt_unbound email spoilt db.folder validity
  refine ⟨e, ?_⟩
  unfold afterHeaders importHeaders
  simp only [unbound, bind, Except.bind]

/- A requested batch that can be read is stored. -/
theorem unspoilt_stored {mb : Mailbox} {db : FolderDb} {batch : List Nat}
    (unspoilt : ¬ Spoilt email (cachedUids db batch) (fetchHeaders (headerResponse mb batch)))
    (validity : Nat) : ∃ table, importHeaders email db.folder validity (cachedUids db batch)
      db.messages (fetchHeaders (headerResponse mb batch)) = .ok table := by
  refine import_batch_total email (header_uids_nodup mb _) ?_ ?_
  · intro header mem unknown
    exact uncached_fresh validity ((header_uids mb _ header.uid).mp ⟨header, mem, rfl⟩).2 unknown
  · intro header mem unknown
    by_contra unreadable
    exact unspoilt ⟨header, mem, unknown, unreadable⟩

/- The additional entries cannot save a batch that fails without them. -/
theorem spoilt_with_extra {r : Reply} {cached uids : List Nat}
    (spoilt : Spoilt email cached (fetchHeaders (headerResponse r.mailbox uids))) :
    Spoilt email cached (fetchHeaders (r.headers uids)) := by
  obtain ⟨header, mem, bad⟩ := spoilt
  obtain ⟨entry, fetched, eq⟩ := mem_fetch_headers.mp mem
  exact ⟨header, mem_fetch_headers.mpr ⟨entry, List.mem_append_left _ fetched, eq⟩, bad⟩

theorem lookup_append {entries extra : List (Nat × Flags)} {uid : Nat}
    (unlisted : extra.lookup uid = none) : (entries ++ extra).lookup uid = entries.lookup uid := by
  rw [List.lookup_append, unlisted, Option.or_none]

theorem unsolicited_lookup {r : Reply} {uids : List Nat} {uid : Nat}
    (asked : uid ∈ uids ∨ ∀ e ∈ r.extra, e.1 ≠ uid) :
    (fetchFlags (r.unsolicited uids)).lookup uid = none := by
  rw [List.lookup_eq_none_iff]
  intro entry mem
  simp only [fetchFlags, Reply.unsolicited, List.mem_map, List.mem_filter,
    decide_eq_true_eq] at mem
  obtain ⟨_, ⟨e, ⟨eMem, unasked⟩, rfl⟩, rfl⟩ := mem
  simp only [bne_iff_ne, ne_eq]
  rcases asked with inside | absent
  · intro eq
    exact unasked (eq ▸ inside)
  · intro eq
    exact absent e eMem eq.symm

theorem table_eq_of_rows {a b : MessageTable} (rows : a.rows = b.rows) : a = b := by
  obtain ⟨rowsA, keysA, identitiesA⟩ := a
  obtain ⟨rowsB, keysB, identitiesB⟩ := b
  have same : rowsA = rowsB := rows
  subst same
  rfl

theorem mem_present {remoteUids : List Nat} {messages : List Message} {m : Message}
    (page : m ∈ messages) (listed : m.uid ∈ remoteUids) : m.uid ∈ presentUids remoteUids messages := by
  simp only [presentUids, List.mem_filter, List.mem_map, decide_eq_true_eq]
  exact ⟨⟨m, page, rfl⟩, listed⟩

/- The page is reconciled alike when no additional entry is for a row that is gone. -/
theorem harmless_flags {r : Reply} {db : FolderDb} {remoteUids : List Nat}
    {messages : List Message} (page : ∀ m ∈ messages, db.InFolder m)
    (harmless : Harmless email r (.waiting db (.flags remoteUids messages))) :
    resumeWith email r db (.flags remoteUids messages) =
      resume email r.mailbox db (.flags remoteUids messages) := by
  have lookups : ∀ m ∈ messages,
      (fetchFlags (r.flags (presentUids remoteUids messages))).lookup m.uid =
        (fetchFlags (flagResponse r.mailbox (presentUids remoteUids messages))).lookup m.uid := by
    intro m mem
    by_cases nothing : presentUids remoteUids messages = []
    · rw [Reply.flags, flagResponse, if_pos nothing, if_pos nothing]
    · rw [Reply.flags, if_neg nothing, fetchFlags, List.map_append]
      apply lookup_append
      apply unsolicited_lookup
      by_cases listed : m.uid ∈ remoteUids
      · exact Or.inl (mem_present mem listed)
      · exact Or.inr (harmless.resolve_left nothing m mem listed)
  have rows : db.messages.rows.filterMap
      (reconcileRow messages (fetchFlags (r.flags (presentUids remoteUids messages)))) =
      db.messages.rows.filterMap (reconcileRow messages
        (fetchFlags (flagResponse r.mailbox (presentUids remoteUids messages)))) := by
    apply List.filterMap_congr
    intro row mem
    unfold reconcileRow
    split
    · rename_i listed
      obtain ⟨m, inPage, same⟩ := List.mem_map.mp listed
      have eq := id_determines (page m inPage).1 mem same
      rw [← eq, lookups m inPage]
    · rfl
  simp only [resumeWith, resume, afterFlags]
  congr 3
  exact table_eq_of_rows rows

/-- A harmless reply has the effect of the reply without its additional entries, or the
pass fails in either case. -/
theorem harmless_step {r : Reply} {p : Progress} (shape : Shaped p) (harmless : Harmless email r p) :
    advance (resumeWith email r) p = advance (resume email r.mailbox) p ∨
      ∃ db e e', advance (resumeWith email r) p = .failed db e ∧
        advance (resume email r.mailbox) p = .failed db e' := by
  cases p with
  | completed db => exact Or.inl rfl
  | failed db e => exact Or.inl rfl
  | waiting db pc =>
    cases pc with
    | select | search _ => exact Or.inl rfl
    | headers validity remoteUids newUids =>
      rcases harmless with nothing | spoilt
      · have same : resumeWith email r db (.headers validity remoteUids newUids) =
            resume email r.mailbox db (.headers validity remoteUids newUids) := by
          simp only [resumeWith, resume, Reply.headers, nothing, List.append_nil]
        exact Or.inl (by simp only [advance, same])
      · obtain ⟨e', fails'⟩ := spoilt_fails email spoilt validity remoteUids
        obtain ⟨e, fails⟩ := spoilt_fails email (spoilt_with_extra email spoilt) validity remoteUids
        exact Or.inr ⟨db, e, e', by simp only [advance, resumeWith, fails],
          by simp only [advance, resume, fails']⟩
    | flags remoteUids messages =>
      obtain ⟨afterUid, page⟩ := shape
      have same := harmless_flags email (fun m mem => (mem_nextMessages (page ▸ mem)).1) harmless
      exact Or.inl (by simp only [advance, same])

theorem advance_shape {r : Reply} {p : Progress} (shape : Shaped p) :
    Shaped (advance (resumeWith email r) p) := by
  cases p with
  | completed _ | failed _ _ => trivial
  | waiting db pc =>
    simp only [advance]
    cases result : resumeWith email r db pc with
    | error e => trivial
    | ok out =>
      obtain ⟨db', pass⟩ := out
      cases pass with
      | none => trivial
      | some pc' => exact resume_with_shape email shape result pc' rfl

theorem advance_quiet (r : Reply) (p : Progress) :
    advance (resumeWith email r.quiet) p = advance (resume email r.mailbox) p := by
  cases p with
  | completed _ | failed _ _ => rfl
  | waiting db pc => simp only [advance, quiet_resume]

theorem same_end_refl (p : Progress) : SameEnd p p := by
  cases p <;> trivial

theorem failed_inserts (replies : List Reply) (db : FolderDb) (e : PyException) :
    AllInsertsReturned email replies (.failed db e) := by
  induction replies with
  | nil => trivial
  | cons r rest ih => exact ⟨trivial, ih⟩

theorem harmless_inserts {r : Reply} {p : Progress} (harmless : Harmless email r p) :
    InsertsReturned email r p := by
  match p with
  | .completed _ | .failed _ _ | .waiting _ .select | .waiting _ (.search _)
  | .waiting _ (.flags _ _) => trivial
  | .waiting db (.headers validity remoteUids newUids) =>
    rcases harmless with nothing | spoilt
    · have quiet : fetchHeaders (r.headers (newUids.take syncBatchSize)) =
          fetchHeaders (headerResponse r.mailbox (newUids.take syncBatchSize)) := by
        rw [Reply.headers, nothing, List.append_nil]
      constructor
      · rintro ⟨messages, bound, refused⟩
        rw [quiet] at bound
        have unspoilt : ¬ Spoilt email _ _ := fun ⟨header, mem, unknown, unreadable⟩ =>
          unreadable (bound_yields email bound header mem unknown)
        obtain ⟨table, stored⟩ := unspoilt_stored email unspoilt validity
        unfold importHeaders at stored
        simp only [bound, bind, Except.bind, refused] at stored
        contradiction
      · intro db' pass ok m mem fresh
        rw [resumeWith, quiet] at ok
        obtain ⟨added, rows, spec⟩ := import_batch_ok email (after_headers_table email ok)
        rw [rows] at mem
        have new := (List.mem_append.mp mem).resolve_left fresh
        obtain ⟨header, fetched, _, parsed, dateSent, yields, eq⟩ := spec.source m new
        exact ⟨(added_row email spec new).2.2.1, header, fetched, parsed, dateSent, yields, eq⟩
    · have spoilt' := spoilt_with_extra email spoilt
      constructor
      · rintro ⟨messages, bound, _⟩
        obtain ⟨e, unbound⟩ := spoilt_unbound email spoilt' db.folder validity
        rw [unbound] at bound
        contradiction
      · intro db' pass ok
        obtain ⟨e, fails⟩ := spoilt_fails email spoilt' validity remoteUids
        rw [resumeWith, fails] at ok
        contradiction

theorem harmless_undisturbed (replies : List Reply) {p : Progress} (shape : Shaped p)
    (harmless : AllHarmless email replies p) : Undisturbed email replies p := by
  induction replies generalizing p with
  | nil => exact ⟨rfl, same_end_refl p, trivial⟩
  | cons r rest ih =>
    obtain ⟨first, later⟩ := harmless
    have inserts := harmless_inserts email first
    rcases harmless_step email shape first with same | ⟨db, e, e', failed, failed'⟩
    · have shape' : Shaped (advance (resume email r.mailbox) p) := by
        rw [← advance_quiet]
        exact advance_shape email shape
      obtain ⟨rows, ends, more⟩ := ih shape' later
      refine ⟨?_, ?_, inserts, same ▸ more⟩
      · rw [disturbed_cons, calm_cons, same]
        exact rows
      · rw [disturbed_cons, calm_cons, same]
        exact ends
    · have loud : disturbed email (r :: rest) p = .failed db e := by
        rw [disturbed_cons, failed]
        exact pass_failed _ rest db e
      have quiet : calm email (r :: rest) p = .failed db e' := by
        rw [calm_cons, failed']
        exact pass_failed _ rest db e'
      refine ⟨by rw [loud, quiet]; rfl, by rw [loud, quiet]; trivial, inserts, ?_⟩
      rw [failed]
      exact failed_inserts email rest db e

/- The part of a pass that fetches and reconciles. -/
def Fetching : Pc → Prop
  | .headers _ _ _ | .flags _ _ => True
  | .select | .search _ => False

/- A pass that is past a position, in the part that fetches. -/
def Beyond (position : Nat) : Progress → Prop
  | .waiting db pc => position < db.folder.lastSeenUid ∧ Shape db pc ∧ Fetching pc
  | .completed db | .failed db _ => position < db.folder.lastSeenUid

theorem reconcile_next {db : FolderDb} {remoteUids : List Nat} {afterUid : Nat} {pc : Pc}
    (more : (reconcileAfter db remoteUids afterUid).2 = some pc) :
    pc = .flags remoteUids (nextMessages db afterUid) := by
  rcases reconcile_cases db remoteUids afterUid with ⟨_, eq⟩ | ⟨_, eq⟩
  · rw [eq] at more
    contradiction
  · rw [eq] at more
    exact (Option.some.inj more).symm

/- A fetching segment neither goes back nor returns to the search. -/
theorem fetching_step {r : Reply} {db db' : FolderDb} {pc : Pc} {pass : Option Pc}
    (shape : Shape db pc) (fetching : Fetching pc)
    (ok : resumeWith email r db pc = .ok (db', pass)) :
    db.folder.lastSeenUid ≤ db'.folder.lastSeenUid ∧ ∀ pc', pass = some pc' → Fetching pc' := by
  cases pc with
  | select | search _ => exact fetching.elim
  | headers validity remoteUids newUids =>
    have grows := (headers_shape email shape ok).1
    obtain ⟨_, _, middle, _, _, _, _, ⟨_, eq⟩ | ⟨_, eq⟩⟩ := after_headers_ok email shape.1 ok
    · have next : (reconcileAfter middle remoteUids 0).2 = pass := (congrArg Prod.snd eq).symm
      refine ⟨by omega, fun pc' same => ?_⟩
      rw [reconcile_next (next.trans same)]
      trivial
    · refine ⟨by omega, fun pc' same => ?_⟩
      have next := (congrArg Prod.snd eq).symm.trans same
      rw [← Option.some.inj next]
      trivial
  | flags remoteUids messages =>
    have result := Except.ok.inj ok
    unfold afterFlags at result
    constructor
    · have kept := congrArg (fun out => out.1.folder.lastSeenUid) result
      simp only [(reconcile_shape _ _ _).1] at kept
      omega
    · intro pc' same
      rw [reconcile_next ((congrArg Prod.snd result).trans same)]
      trivial

theorem advance_beyond {r : Reply} {position : Nat} {p : Progress} (beyond : Beyond position p) :
    Beyond position (advance (resumeWith email r) p) := by
  cases p with
  | completed _ | failed _ _ => exact beyond
  | waiting db pc =>
    obtain ⟨past, shape, fetching⟩ := beyond
    simp only [advance]
    cases result : resumeWith email r db pc with
    | error e => exact past
    | ok out =>
      obtain ⟨db', pass⟩ := out
      obtain ⟨grows, still⟩ := fetching_step email shape fetching result
      cases pass with
      | none => exact Nat.lt_of_lt_of_le past grows
      | some pc' =>
        exact ⟨Nat.lt_of_lt_of_le past grows, resume_with_shape email shape result pc' rfl,
          still pc' rfl⟩

/- The entry for a UID outside the batch is imported, or the batch fails. -/
theorem extra_is_inserted {r : Reply} {db db' : FolderDb} {validity : Nat}
    {remoteUids newUids : List Nat} {pass : Option Pc}
    (extra : r.unsolicited (newUids.take syncBatchSize) ≠ [])
    (ok : resumeWith email r db (.headers validity remoteUids newUids) = .ok (db', pass)) :
    ∃ m ∈ db'.messages.rows, m ∉ db.messages.rows ∧ m.uid ∉ newUids.take syncBatchSize := by
  obtain ⟨entry, mem⟩ := List.exists_mem_of_ne_nil _ extra
  have outside : entry.1 ∉ newUids.take syncBatchSize := by
    obtain ⟨e, kept, rfl⟩ := List.mem_map.mp mem
    simpa using (List.mem_filter.mp kept).2
  have uncached : entry.1 ∉ cachedUids db (newUids.take syncBatchSize) :=
    fun known => outside (mem_cachedUids.mp known).2
  obtain ⟨added, rows, spec⟩ := import_batch_ok email (after_headers_table email ok)
  obtain ⟨m, new, uid⟩ := spec.complete _
    (mem_fetch_headers.mpr ⟨entry, List.mem_append_right _ mem, rfl⟩) uncached
  refine ⟨m, rows ▸ List.mem_append_right _ new, fun known => ?_, uid ▸ outside⟩
  have keys := db'.messages.keys
  rw [rows, List.map_append] at keys
  exact (List.disjoint_of_nodup_append keys) (List.mem_map_of_mem known) (List.mem_map_of_mem new)

theorem headers_disturb {r : Reply} {rest : List Reply} {db db1 : FolderDb} {validity : Nat}
    {remoteUids newUids : List Nat} {pass : Option Pc}
    (shape : Shape db (.headers validity remoteUids newUids))
    (extra : r.unsolicited (newUids.take syncBatchSize) ≠ [])
    (ok : resume email r.mailbox db (.headers validity remoteUids newUids) = .ok (db1, pass)) :
    ¬ Undisturbed email (r :: rest) (.waiting db (.headers validity remoteUids newUids)) := by
  intro undisturbed
  cases result : resumeWith email r db (.headers validity remoteUids newUids) with
  | ok out =>
    obtain ⟨m, mem, fresh, outside⟩ := extra_is_inserted email extra result
    exact outside (undisturbed.inserts.1.2 out.1 out.2 result m mem fresh).1
  | error e =>
    -- the disturbed pass keeps its position, the other one has gone past it
    have stuck : (disturbed email (r :: rest)
        (.waiting db (.headers validity remoteUids newUids))).db = db := by
      rw [disturbed_cons, show advance (resumeWith email r)
        (.waiting db (.headers validity remoteUids newUids)) = .failed db e by
          simp only [advance, result]]
      exact congrArg Progress.db (pass_failed _ rest db e)
    have quiet : resumeWith email r.quiet db (.headers validity remoteUids newUids) =
        .ok (db1, pass) := by rw [quiet_resume, ok]
    have grows := (headers_shape email shape quiet).1
    have past : Beyond db.folder.lastSeenUid
        (advance (resume email r.mailbox) (.waiting db (.headers validity remoteUids newUids))) := by
      simp only [advance, ok]
      cases pass with
      | none => exact grows
      | some pc => exact ⟨grows, resume_with_shape email shape quiet pc rfl,
          (fetching_step email shape trivial quiet).2 pc rfl⟩
    have ended : Beyond db.folder.lastSeenUid (calm email (r :: rest)
        (.waiting db (.headers validity remoteUids newUids))) := by
      rw [calm_cons]
      refine pass_invariant (fun answer p inv => ?_) past rest
      rw [← advance_quiet]
      exact advance_beyond email inv
    have further : db.folder.lastSeenUid < (calm email (r :: rest)
        (.waiting db (.headers validity remoteUids newUids))).db.folder.lastSeenUid := by
      revert ended
      cases calm email (r :: rest) (.waiting db (.headers validity remoteUids newUids)) with
      | waiting db pc => exact fun ended => ended.1
      | completed db | failed db e => exact id
    rw [← undisturbed.rows, stuck] at further
    exact Nat.lt_irrefl _ further

/- A pass that reconciles pages after a row, which it keeps as it is. -/
def Keeps (id uid : Nat) : Progress → Prop
  | .waiting db pc => (∃ m ∈ db.messages.rows, m.id = id ∧ m.uid = uid) ∧
      ∃ remoteUids messages, pc = .flags remoteUids messages ∧ messages ≠ [] ∧
        ∃ afterUid, messages = nextMessages db afterUid ∧ uid ≤ afterUid
  | .completed db | .failed db _ => ∃ m ∈ db.messages.rows, m.id = id ∧ m.uid = uid

/- A pass that reconciles and has no row under this id. -/
def Lacks (id : Nat) : Progress → Prop
  | .waiting db pc => (∀ m ∈ db.messages.rows, m.id ≠ id) ∧
      ∃ remoteUids messages, pc = .flags remoteUids messages
  | .completed db | .failed db _ => ∀ m ∈ db.messages.rows, m.id ≠ id

def reconciledTable (db : FolderDb) (messages : List Message) (flags : List (Nat × Flags)) :
    MessageTable :=
  db.messages.rewrite (reconcileRow messages flags) (reconcileRow_keeps messages flags)

theorem mem_reconciledTable {db : FolderDb} {messages : List Message} {flags : List (Nat × Flags)}
    {m : Message} : m ∈ (reconciledTable db messages flags).rows ↔
      ∃ row ∈ db.messages.rows, reconcileRow messages flags row = some m :=
  List.mem_filterMap

section Page
variable {r : Reply} {db : FolderDb} {remoteUids : List Nat} {messages : List Message}

theorem flags_step_keeps {id uid : Nat}
    (row : ∃ m ∈ (reconciledTable db messages
      (fetchFlags (r.flags (presentUids remoteUids messages)))).rows, m.id = id ∧ m.uid = uid)
    (past : uid ≤ (messages.getLast?.map fun m => m.uid).getD 0) :
    Keeps id uid (advance (resumeWith email r) (.waiting db (.flags remoteUids messages))) := by
  simp only [advance, resumeWith, afterFlags]
  rcases reconcile_cases { db with
      messages := reconciledTable db messages
        (fetchFlags (r.flags (presentUids remoteUids messages))) } remoteUids
      ((messages.getLast?.map fun m => m.uid).getD 0) with ⟨_, done⟩ | ⟨more, again⟩
  · unfold reconciledTable at done
    rw [done]
    exact row
  · unfold reconciledTable at again
    rw [again]
    exact ⟨row, remoteUids, _, rfl, more, _, rfl, past⟩

theorem flags_step_lacks {id : Nat}
    (gone : ∀ m ∈ (reconciledTable db messages
      (fetchFlags (r.flags (presentUids remoteUids messages)))).rows, m.id ≠ id) :
    Lacks id (advance (resumeWith email r) (.waiting db (.flags remoteUids messages))) := by
  simp only [advance, resumeWith, afterFlags]
  rcases reconcile_cases { db with
      messages := reconciledTable db messages
        (fetchFlags (r.flags (presentUids remoteUids messages))) } remoteUids
      ((messages.getLast?.map fun m => m.uid).getD 0) with ⟨_, done⟩ | ⟨_, again⟩
  · unfold reconciledTable at done
    rw [done]
    exact gone
  · unfold reconciledTable at again
    rw [again]
    exact ⟨gone, remoteUids, _, rfl⟩

end Page

theorem advance_keeps {r : Reply} {id uid : Nat} {p : Progress} (keeps : Keeps id uid p) :
    Keeps id uid (advance (resumeWith email r) p) := by
  cases p with
  | completed _ | failed _ _ => exact keeps
  | waiting db pc =>
    obtain ⟨⟨m, mem, same, uids⟩, remoteUids, messages, rfl, some_page, afterUid, page, past⟩ := keeps
    obtain ⟨last, isLast⟩ : ∃ last, messages.getLast? = some last :=
      ⟨_, List.getLast?_eq_some_getLast some_page⟩
    have later := (next_messages_last (page ▸ isLast)).1
    apply flags_step_keeps
    · refine ⟨m, mem_reconciledTable.mpr ⟨m, mem, ?_⟩, same, uids⟩
      unfold reconcileRow
      rw [if_neg]
      intro listed
      obtain ⟨other, inPage, eq⟩ := List.mem_map.mp listed
      have behind := mem_nextMessages (page ▸ inPage)
      rw [id_determines behind.1.1 mem eq] at behind
      omega
    · rw [isLast]
      simp only [Option.map_some, Option.getD_some]
      omega

theorem advance_lacks {r : Reply} {id : Nat} {p : Progress} (lacks : Lacks id p) :
    Lacks id (advance (resumeWith email r) p) := by
  cases p with
  | completed _ | failed _ _ => exact lacks
  | waiting db pc =>
    obtain ⟨gone, remoteUids, messages, rfl⟩ := lacks
    apply flags_step_lacks
    intro m mem
    obtain ⟨row, rowMem, eq⟩ := mem_reconciledTable.mp mem
    rw [(reconcileRow_keeps _ _ row m eq).1]
    exact gone row rowMem

theorem keeps_row {id uid : Nat} {p : Progress} (keeps : Keeps id uid p) :
    ∃ m ∈ p.db.messages.rows, m.id = id := by
  have row : ∃ m ∈ p.db.messages.rows, m.id = id ∧ m.uid = uid := by
    cases p with
    | waiting db pc => exact keeps.1
    | completed _ | failed _ _ => exact keeps
  obtain ⟨m, mem, same, _⟩ := row
  exact ⟨m, mem, same⟩

theorem lacks_row {id : Nat} {p : Progress} (lacks : Lacks id p) :
    ∀ m ∈ p.db.messages.rows, m.id ≠ id := by
  cases p with
  | waiting db pc => exact lacks.1
  | completed _ | failed _ _ => exact lacks

theorem lookup_of_mem {entries : List (Nat × Flags)} {uid : Nat} {flags : Flags}
    (mem : (uid, flags) ∈ entries) : ∃ found, entries.lookup uid = some found := by
  cases result : entries.lookup uid with
  | some found => exact ⟨found, rfl⟩
  | none => simpa using List.lookup_eq_none_iff.mp result _ mem

/-- An entry for a row of the page that the SEARCH did not list keeps the row, which the
pass without the entry deletes. -/
theorem flags_disturb {r : Reply} {rest : List Reply} {db : FolderDb} {remoteUids : List Nat}
    {messages : List Message} (shape : Shape db (.flags remoteUids messages))
    (asks : presentUids remoteUids messages ≠ []) {m : Message} (inPage : m ∈ messages)
    (unlisted : m.uid ∉ remoteUids) {e : Nat × Flags} (mem : e ∈ r.extra) (same : e.1 = m.uid) :
    ¬ Undisturbed email (r :: rest) (.waiting db (.flags remoteUids messages)) := by
  intro undisturbed
  obtain ⟨afterUid, page⟩ := shape
  have row := (mem_nextMessages (page ▸ inPage)).1.1
  have notPresent : m.uid ∉ presentUids remoteUids messages := by
    intro present
    exact unlisted (by simpa using (List.mem_filter.mp present).2)
  obtain ⟨last, isLast⟩ : ∃ last, messages.getLast? = some last :=
    ⟨_, List.getLast?_eq_some_getLast (List.ne_nil_of_mem inPage)⟩
  have upto := (next_messages_last (page ▸ isLast)).2.1 m (page ▸ inPage)
  have kept : Keeps m.id m.uid
      (advance (resumeWith email r) (.waiting db (.flags remoteUids messages))) := by
    apply flags_step_keeps
    · have reported : (m.uid, e.2) ∈ fetchFlags (r.flags (presentUids remoteUids messages)) := by
        unfold Reply.flags fetchFlags
        rw [if_neg asks, List.map_append]
        apply List.mem_append_right
        simp only [Reply.unsolicited, List.mem_map, List.mem_filter, decide_eq_true_eq]
        exact ⟨_, ⟨e, ⟨mem, same ▸ notPresent⟩, rfl⟩, by rw [same]; rfl⟩
      obtain ⟨flags, found⟩ := lookup_of_mem reported
      refine ⟨m.withFlags flags, mem_reconciledTable.mpr ⟨m, row, ?_⟩, rfl, rfl⟩
      unfold reconcileRow
      rw [if_pos (List.mem_map_of_mem inPage), found]
      rfl
    · rw [isLast]
      exact upto
  have gone : Lacks m.id
      (advance (resume email r.mailbox) (.waiting db (.flags remoteUids messages))) := by
    rw [← advance_quiet]
    apply flags_step_lacks
    intro m' mem' eq
    obtain ⟨old, oldMem, survived⟩ := mem_reconciledTable.mp mem'
    have keeps := reconcileRow_keeps _ _ old m' survived
    have was := id_determines oldMem row (keeps.1.symm.trans eq)
    unfold reconcileRow at survived
    rw [was, if_pos (List.mem_map_of_mem inPage)] at survived
    have unreported : (fetchFlags (r.quiet.flags (presentUids remoteUids messages))).lookup m.uid =
        none := by
      have lookup := flags_lookup r.mailbox (presentUids remoteUids messages) m.uid
      rw [if_neg notPresent] at lookup
      rw [quiet_flags, lookup]
    rw [unreported] at survived
    contradiction
  have keptEnd : Keeps m.id m.uid (disturbed email rest _) :=
    pass_invariant (fun _ _ inv => advance_keeps email inv) kept rest
  have goneEnd : Lacks m.id (calm email rest
      (advance (resume email r.mailbox) (.waiting db (.flags remoteUids messages)))) := by
    refine pass_invariant (fun answer p inv => ?_) gone rest
    rw [← advance_quiet]
    exact advance_lacks email inv
  obtain ⟨m', mem', same'⟩ := keeps_row keptEnd
  have rows : (disturbed email rest (advance (resumeWith email r)
      (.waiting db (.flags remoteUids messages)))).db = (calm email rest
        (advance (resume email r.mailbox) (.waiting db (.flags remoteUids messages)))).db :=
    undisturbed.rows
  exact lacks_row goneEnd m' (rows ▸ mem') same'

theorem undisturbed_first {r : Reply} {rest : List Reply} {p : Progress} (shape : Shaped p)
    (undisturbed : Undisturbed email (r :: rest) p) : Harmless email r p := by
  match p with
  | .completed _ | .failed _ _ | .waiting _ .select | .waiting _ (.search _) => trivial
  | .waiting db (.headers validity remoteUids newUids) =>
    by_cases nothing : r.unsolicited (newUids.take syncBatchSize) = []
    · exact Or.inl nothing
    · refine Or.inr ?_
      by_contra unspoilt
      obtain ⟨table, stored⟩ := unspoilt_stored email unspoilt validity
      obtain ⟨out, ok⟩ : ∃ out,
          resume email r.mailbox db (.headers validity remoteUids newUids) = .ok out :=
        after_headers_total email stored
      exact headers_disturb email shape nothing ok undisturbed
  | .waiting db (.flags remoteUids messages) =>
    by_cases asks : presentUids remoteUids messages = []
    · exact Or.inl asks
    · exact Or.inr fun m inPage unlisted e mem same =>
        flags_disturb email shape asks inPage unlisted mem same undisturbed

theorem failed_harmless (replies : List Reply) (db : FolderDb) (e : PyException) :
    AllHarmless email replies (.failed db e) := by
  induction replies with
  | nil => trivial
  | cons r rest ih => exact ⟨trivial, ih⟩

theorem undisturbed_harmless (replies : List Reply) {p : Progress} (shape : Shaped p)
    (undisturbed : Undisturbed email replies p) : AllHarmless email replies p := by
  induction replies generalizing p with
  | nil => trivial
  | cons r rest ih =>
    have first := undisturbed_first email shape undisturbed
    refine ⟨first, ?_⟩
    rcases harmless_step email shape first with same | ⟨db, e, e', _, failed'⟩
    · have shape' : Shaped (advance (resume email r.mailbox) p) := by
        rw [← advance_quiet]
        exact advance_shape email shape
      obtain ⟨rows, ends, _, inserts⟩ := undisturbed
      rw [disturbed_cons, calm_cons, same] at rows ends
      exact ih shape' ⟨rows, ends, same ▸ inserts⟩
    · rw [failed']
      exact failed_harmless email rest db e'

/-- A pass is undisturbed exactly when the additional entries it gets are harmless. -/
theorem additional_entries_harmless (db : FolderDb) (replies : List Reply) :
    Undisturbed email replies (.waiting db .select) ↔
      AllHarmless email replies (.waiting db .select) :=
  ⟨undisturbed_harmless email replies trivial, harmless_undisturbed email replies trivial⟩

theorem third_uid_positive : 0 < 3 := by decide

def twoMessages : Mailbox where
  uidvalidity := 1
  uidNext := 3
  messages := [⟨1, ∅, none, none, [], []⟩, ⟨2, ∅, none, none, [], []⟩]
  ordered := by decide
  bounded := by decide
  started := third_uid_positive

def readInbox : Folder where
  id := 1
  accountId := 1
  imapPath := "INBOX"
  displayName := none
  isInbox := true
  historyComplete := true
  lastUidvalidity := some 1
  lastSeenUid := 1

def emptyHeader : ParsedHeader := ⟨none, none, none, "[]", "[]", none, none, none, none⟩

/- Message 1 is cached, and message 2 has just arrived. -/
def firstCached : FolderDb where
  folder := readInbox
  messages :=
    { rows := [⟨newMessage readInbox 1 ⟨1, ∅, none, none, []⟩ emptyHeader none, 1⟩]
      keys := List.nodup_singleton _
      identities := List.nodup_singleton _ }

/- The server reports the flags of message 1 together with the headers of message 2. -/
def reportedAlong : List Reply :=
  [⟨twoMessages, [], List.nodup_nil⟩, ⟨twoMessages, [], List.nodup_nil⟩,
    ⟨twoMessages, [(1, {.seen})], List.nodup_singleton _⟩, ⟨twoMessages, [], List.nodup_nil⟩]

theorem reported_flags_fail_the_pass :
    ¬ Undisturbed emptyHeaderEmail reportedAlong (.waiting firstCached .select) := by
  intro undisturbed
  exact undisturbed.ends

end InboxUnsolicitedFetch
