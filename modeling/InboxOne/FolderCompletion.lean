import InboxOne.FolderConvergence

/-!
How far a pass gets when every IMAP call is answered. The number of calls is bounded
after the SEARCH, so the only way not to finish is an exception of a segment, and the
only segment that raises is the import of a batch.
-/
namespace InboxFolderCompletion
open LabelledRuns InboxPython InboxMailbox InboxMailParser InboxTables InboxFolderSync
open InboxFolderSegments InboxFolderRuns InboxFolderConvergence

variable {Msg : Type} (email : EmailPackage Msg)

/- The headers parse, and the date, or else INTERNALDATE, has a UTC reading within
   the years 1 to 9999. -/
def Storable (content : Content) : Prop :=
  ∃ parsed, parseHeaderBlock email content.header = .ok parsed ∧
    UtcRepresentable (parsed.dateSent.or content.internaldate)

/- The message is cached under the UIDVALIDITY that the server has. -/
def Known (w : World) (uid : Nat) : Prop :=
  w.db.folder.lastUidvalidity = some w.server.uidvalidity ∧ w.db.Cached uid

def AllStorable (w : World) : Prop :=
  ∀ m ∈ w.server.messages, Known w m.uid ∨ Storable email m.content

theorem header_source {mb : Mailbox} {uids : List Nat} {header : FetchedHeader}
    (mem : header ∈ fetchHeaders (headerResponse mb uids)) :
    ∃ m ∈ mb.messages, m.uid ∈ uids ∧ header.uid = m.uid ∧
      header.headerBytes = m.content.header ∧ header.internaldate = m.content.internaldate := by
  simp only [fetchHeaders, headerResponse, requested, List.mem_map, List.mem_insertionSort,
    List.mem_filter, decide_eq_true_eq] at mem
  obtain ⟨_, ⟨m, ⟨inside, asked⟩, rfl⟩, rfl⟩ := mem
  exact ⟨m, inside, asked, rfl, rfl, rfl⟩

theorem header_uids_nodup (mb : Mailbox) (uids : List Nat) :
    ((fetchHeaders (headerResponse mb uids)).map FetchedHeader.uid).Nodup := by
  have response : ((headerResponse mb uids).map Prod.fst).Nodup := by
    unfold headerResponse requested
    rw [List.map_map]
    exact (uids_nodup mb).sublist (List.filter_sublist.map _)
  unfold fetchHeaders
  rw [List.map_map]
  exact ((List.perm_insertionSort _ (headerResponse mb uids)).map Prod.fst).nodup_iff.mpr response

theorem insert_total {table : MessageTable} {m : NewMessage}
    (fresh : m.identity ∉ table.rows.map Message.identity) :
    ∃ table', table.insert m = .ok table' ∧
      table'.rows = table.rows ++ [⟨m, nextId table.rows⟩] := by
  rw [MessageTable.insert, dif_pos fresh]
  exact ⟨_, rfl, rfl⟩

theorem new_message_identity (folder : Folder) (validity : Nat) (header : FetchedHeader)
    (parsed : ParsedHeader) (dateSent : Option Clock) :
    (newMessage folder validity header parsed dateSent).identity =
      (folder.accountId, folder.id, header.uid, validity) := rfl

/- A batch whose new headers can all be stored is imported without an exception. -/
theorem import_batch_total {folder : Folder} {validity : Nat} {cached : List Nat}
    {headers : List FetchedHeader} {table : MessageTable}
    (distinct : (headers.map FetchedHeader.uid).Nodup)
    (fresh : ∀ header ∈ headers, header.uid ∉ cached →
      (folder.accountId, folder.id, header.uid, validity) ∉ table.rows.map Message.identity)
    (yields : ∀ header ∈ headers, header.uid ∉ cached →
      ∃ parsed dateSent, Yields email header parsed dateSent) :
    ∃ table', importHeaders email folder validity cached table headers = .ok table' := by
  induction headers generalizing table with
  | nil => exact ⟨table, rfl⟩
  | cons header rest ih =>
    rw [List.map_cons, List.nodup_cons] at distinct
    obtain ⟨other, distinct⟩ := distinct
    have later : ∀ h ∈ rest, h.uid ∉ cached → ∃ parsed dateSent, Yields email h parsed dateSent :=
      fun h mem => yields h (List.mem_cons_of_mem _ mem)
    by_cases known : header.uid ∈ cached
    · rw [import_headers_known email known]
      exact ih distinct (fun h mem => fresh h (List.mem_cons_of_mem _ mem)) later
    · obtain ⟨parsed, dateSent, yielded⟩ := yields header List.mem_cons_self known
      have absent := fresh header List.mem_cons_self known
      rw [← new_message_identity folder validity header parsed dateSent] at absent
      obtain ⟨middle, inserted, rows⟩ := insert_total absent
      have absent' : ∀ h ∈ rest, h.uid ∉ cached →
          (folder.accountId, folder.id, h.uid, validity) ∉ middle.rows.map Message.identity := by
        intro h mem unknown old
        rw [rows, List.map_append, List.mem_append] at old
        rcases old with old | new
        · exact fresh h (List.mem_cons_of_mem _ mem) unknown old
        · have same : h.uid = header.uid := by
            rw [List.map_singleton, List.mem_singleton, Message.identity,
              new_message_identity] at new
            simp only [Prod.mk.injEq] at new
            exact new.2.2.1
          exact other (List.mem_map.mpr ⟨h, mem, same⟩)
      obtain ⟨table', ok⟩ := ih distinct absent' later
      exact ⟨table', (import_headers_cons email known).mpr
        ⟨parsed, dateSent, middle, yielded, inserted, ok⟩⟩

theorem after_headers_total {db : FolderDb} {validity : Nat} {remoteUids newUids : List Nat}
    {headers : List FetchedHeader} {table : MessageTable}
    (batch : importHeaders email db.folder validity
      (cachedUids db (newUids.take syncBatchSize)) db.messages headers = .ok table) :
    ∃ out, afterHeaders email db validity remoteUids newUids headers = .ok out := by
  unfold afterHeaders
  simp only [batch, bind, Except.bind]
  cases newUids.drop syncBatchSize with
  | nil => exact ⟨_, rfl⟩
  | cons uid rest => exact ⟨_, rfl⟩

theorem resume_total {w : World} (sound : Sound w) (storable : AllStorable email w) {pc : Pc}
    (active : w.pass = some pc) : ∃ out, resume email w.server w.db pc = .ok out := by
  have before := (sound.pass pc active).1
  cases pc with
  | select => exact ⟨_, rfl⟩
  | search validity => exact ⟨_, rfl⟩
  | flags remoteUids messages => exact ⟨_, rfl⟩
  | headers validity remoteUids newUids =>
    obtain ⟨rfl, snap, _, _⟩ := before
    have batch : ∃ table, importHeaders email w.db.folder w.server.uidvalidity
        (cachedUids w.db (newUids.take syncBatchSize)) w.db.messages
        (fetchHeaders (headerResponse w.server (newUids.take syncBatchSize))) = .ok table := by
      refine import_batch_total email (header_uids_nodup w.server _) ?_ ?_
      · intro header mem unknown old
        obtain ⟨m, _, asked, uid, _⟩ := header_source mem
        obtain ⟨row, inTable, identity⟩ := List.mem_map.mp old
        simp only [Message.identity, NewMessage.identity, Prod.mk.injEq] at identity
        obtain ⟨_, own, same, _⟩ := identity
        exact unknown (mem_cachedUids.mpr ⟨⟨row, ⟨inTable, own⟩, same⟩, uid ▸ asked⟩)
      · intro header mem unknown
        obtain ⟨m, inside, asked, uid, bytes, internaldate⟩ := header_source mem
        rcases storable m inside with known | storable
        · exact absurd (mem_cachedUids.mpr ⟨uid ▸ known.2, uid ▸ asked⟩) unknown
        · obtain ⟨parsed, parse, representable⟩ := storable
          obtain ⟨dateSent, date⟩ := (bind_param_ok_iff _).mpr representable
          exact ⟨parsed, dateSent, bytes ▸ parse, internaldate ▸ date⟩
    obtain ⟨table, batch⟩ := batch
    exact after_headers_total email batch

/- The server changes while the pass waits for an answer. -/
def Harmless : Label → Prop
  | .arrive _ content => Storable email content
  | .expunge _ | .changeFlags _ _ => True
  | _ => False

theorem harmless_change {w : World} {l : Label} (storable : AllStorable email w)
    (harmless : Harmless email l) : ∃ w', next email w l = some w' ∧ w'.db = w.db ∧
      w'.pass = w.pass ∧ w'.used = w.used ∧ AllStorable email w' := by
  cases l with
  | arrive gap content =>
    refine ⟨_, rfl, rfl, rfl, rfl, ?_⟩
    intro m mem
    rcases List.mem_append.mp mem with old | new
    · exact storable m old
    · rw [List.mem_singleton.mp new]
      exact Or.inr harmless
  | expunge uid =>
    exact ⟨_, rfl, rfl, rfl, rfl, fun m mem => storable m (List.mem_of_mem_filter mem)⟩
  | changeFlags uid flags =>
    refine ⟨_, rfl, rfl, rfl, rfl, ?_⟩
    intro m mem
    obtain ⟨old, inside, rfl⟩ := List.mem_map.mp mem
    exact storable old inside
  | reset mailbox => exact harmless.elim
  | begin => exact harmless.elim
  | call => exact harmless.elim
  | abort => exact harmless.elim

theorem harmless_changes {w : World} {labels : List Label} (sound : Sound w)
    (storable : AllStorable email w) (harmless : ∀ l ∈ labels, Harmless email l) :
    ∃ w', replay (next email) w labels = some w' ∧ w'.db = w.db ∧ w'.pass = w.pass ∧
      w'.used = w.used ∧ AllStorable email w' ∧ Sound w' := by
  induction labels generalizing w with
  | nil => exact ⟨w, rfl, rfl, rfl, rfl, storable, sound⟩
  | cons l rest ih =>
    obtain ⟨w1, step, db1, pass1, used1, storable1⟩ :=
      harmless_change email storable (harmless l List.mem_cons_self)
    obtain ⟨w2, run, db2, pass2, used2, storable2, sound2⟩ :=
      ih (next_sound email sound step) storable1 fun l' mem =>
        harmless l' (List.mem_cons_of_mem _ mem)
    refine ⟨w2, ?_, db2.trans db1, pass2.trans pass1, used2.trans used1, storable2, sound2⟩
    rw [replay_cons, step]
    exact run

/- A call keeps what is cached of the server's messages, so it stays storable or known. -/
theorem answered_storable {w : World} (sound : Sound w) (storable : AllStorable email w)
    {pc : Pc} (active : w.pass = some pc) {db : FolderDb} {pass : Option Pc}
    (answer : resume email w.server w.db pc = .ok (db, pass)) {log : List Record}
    (after : Sound ⟨w.server, w.used, db, pass, log⟩) :
    AllStorable email ⟨w.server, w.used, db, pass, log⟩ := by
  intro m mem
  rcases storable m mem with known | storable
  · obtain ⟨row, inside, uid⟩ := known.2
    have validity := sound.consistent.current row inside
    have same : w.server.uidvalidity = row.uidvalidity :=
      Option.some.inj (known.1.symm.trans validity)
    obtain ⟨row', inside', _, identity⟩ :=
      resume_keeps email sound active answer inside same (uid ▸ ⟨m, mem, rfl⟩)
    simp only [Message.identity, NewMessage.identity, Prod.mk.injEq] at identity
    have current := after.consistent.current row' inside'
    refine Or.inl ⟨?_, row', inside', ?_⟩
    · rw [identity.2.2.2, ← same] at current
      exact current
    · exact identity.2.2.1.trans uid
  · exact Or.inr storable

/- The labels from call k on: before each call come the changes of the server. -/
def callsFrom (changes : Nat → List Label) (k : Nat) : Nat → List Label
  | 0 => []
  | n + 1 => changes k ++ .call :: callsFrom changes (k + 1) n

def Finished (w : World) : Prop := w.pass = none ∧ ∃ v older, w.log = .completed v :: older

def Finishes (changes : Nat → List Label) (k : Nat) (w : World) : Prop :=
  ∃ n w', replay (next email) w (callsFrom changes k n) = some w' ∧ Finished w'

variable {changes : Nat → List Label} (harmless : ∀ k, ∀ l ∈ changes k, Harmless email l)

theorem finishes_later {k : Nat} {w w1 : World}
    (call : replay (next email) w (changes k ++ [.call]) = some w1)
    (rest : Finishes email changes (k + 1) w1) : Finishes email changes k w := by
  obtain ⟨n, w', run, finished⟩ := rest
  refine ⟨n + 1, w', ?_, finished⟩
  rw [callsFrom, ← List.singleton_append, ← List.append_assoc, replay_append, call]
  exact run

theorem finishes_now {k : Nat} {w w1 : World}
    (call : replay (next email) w (changes k ++ [.call]) = some w1) (finished : Finished w1) :
    Finishes email changes k w :=
  finishes_later email call ⟨0, w1, rfl, finished⟩

include harmless

theorem answered_call (k : Nat) {w : World} (sound : Sound w) (storable : AllStorable email w)
    {pc : Pc} (active : w.pass = some pc) : ∃ server log db pass,
      replay (next email) w (changes k ++ [.call]) =
        some ⟨server, w.used, db, pass, endRecords db pass ++ log⟩ ∧
      resume email server w.db pc = .ok (db, pass) ∧
      Sound ⟨server, w.used, db, pass, endRecords db pass ++ log⟩ ∧
      AllStorable email ⟨server, w.used, db, pass, endRecords db pass ++ log⟩ := by
  obtain ⟨w1, run, db1, pass1, used1, storable1, sound1⟩ :=
    harmless_changes email sound storable (harmless k)
  have active1 : w1.pass = some pc := pass1.trans active
  obtain ⟨⟨db, pass⟩, answer⟩ := resume_total email sound1 storable1 active1
  have called : callStep email w1 pc = ⟨w1.server, w.used, db, pass,
      endRecords db pass ++ (callRecords w1.server w1.db pc ++ w1.log)⟩ := by
    rw [callStep, answer, ← used1, ← List.append_assoc]
  have after := call_sound email sound1 active1
  rw [called] at after
  have step : next email w1 .call = some (callStep email w1 pc) := by rw [next, active1]; rfl
  have same : w1.used = w.used := used1
  refine ⟨w1.server, callRecords w1.server w1.db pc ++ w1.log, db, pass, ?_, db1 ▸ answer, after, ?_⟩
  · rw [replay_append, run, Option.bind_some, replay_cons, step, called]
    rfl
  · rw [← same] at after ⊢
    exact answered_storable email sound1 storable1 active1 answer after

/- The flag fetches walk upwards through UIDs that lie below a fixed bound. -/
theorem finishes_flags (bound fuel : Nat) : ∀ (k : Nat) (w : World) (remoteUids : List Nat)
    (afterUid : Nat), bound - afterUid ≤ fuel → Sound w → AllStorable email w →
    w.pass = some (.flags remoteUids (nextMessages w.db afterUid)) →
    (∀ m, w.db.InFolder m → m.uid < bound) → Finishes email changes k w := by
  induction fuel with
  | zero =>
    intro k w remoteUids afterUid left sound _ active below
    obtain ⟨_, _, _, _, nonempty, _⟩ := (sound.pass _ active).1
    obtain ⟨m, mem⟩ := List.exists_mem_of_ne_nil _ nonempty
    obtain ⟨inside, above⟩ := mem_nextMessages mem
    have := below m inside
    omega
  | succ fuel ih =>
    intro k w remoteUids afterUid left sound storable active below
    obtain ⟨_, _, _, _, nonempty, _⟩ := (sound.pass _ active).1
    obtain ⟨server, log, db, pass, run, answer, sound1, storable1⟩ :=
      answered_call email harmless k sound storable active
    cases isLast : (nextMessages w.db afterUid).getLast? with
    | none => exact absurd (List.getLast?_eq_none_iff.mp isLast) nonempty
    | some last =>
      have lastInside := mem_nextMessages (List.mem_of_getLast? isLast)
      have answer := Except.ok.inj answer
      simp only [afterFlags, isLast, Option.map_some, Option.getD_some] at answer
      have rows : ∀ m, db.InFolder m → m.uid < bound := by
        intro m inside
        have inside := (reconcile_rows answer.symm m).mp inside
        obtain ⟨old, oldInside, uid, _⟩ := @reconciled_origin server _ _ _ _ inside
        have := below old oldInside
        omega
      rcases reconcile_cases _ remoteUids last.uid with ⟨_, eq⟩ | ⟨_, eq⟩
      · have done := (Prod.mk.inj (answer.symm.trans eq)).2
        subst done
        exact finishes_now email run ⟨rfl, _, _, rfl⟩
      · obtain ⟨same, more⟩ := Prod.mk.inj (answer.symm.trans eq)
        refine finishes_later email run
          (ih (k + 1) _ remoteUids last.uid ?_ sound1 storable1 ?_ rows)
        · have := below last lastInside.1
          have := lastInside.2
          omega
        · rw [more, same]

/- Whatever ends in reconciliation finishes. -/
theorem finishes_reconcile {k : Nat} {w : World} {middle db : FolderDb} {pass : Option Pc}
    {server : Mailbox} {log : List Record} {remoteUids : List Nat} {afterUid : Nat}
    (call : replay (next email) w (changes k ++ [.call]) =
      some ⟨server, w.used, db, pass, endRecords db pass ++ log⟩)
    (sound : Sound ⟨server, w.used, db, pass, endRecords db pass ++ log⟩)
    (storable : AllStorable email ⟨server, w.used, db, pass, endRecords db pass ++ log⟩)
    (run : (db, pass) = reconcileAfter middle remoteUids afterUid) :
    Finishes email changes k w := by
  rcases reconcile_cases middle remoteUids afterUid with ⟨_, eq⟩ | ⟨_, eq⟩
  · have done := (Prod.mk.inj (run.trans eq)).2
    subst done
    exact finishes_now email call ⟨rfl, _, _, rfl⟩
  · obtain ⟨same, more⟩ := Prod.mk.inj (run.trans eq)
    subst same more
    obtain ⟨snap, _⟩ := (sound.pass _ rfl).1
    obtain ⟨bound, _, _, below, _⟩ := snap.bounded
    exact finishes_later email call
      (finishes_flags email harmless bound _ (k + 1) _ remoteUids afterUid (Nat.le_refl _) sound
        storable rfl below)

theorem finishes_headers (fuel : Nat) : ∀ (k : Nat) (w : World) (validity : Nat)
    (remoteUids newUids : List Nat), newUids.length ≤ fuel → Sound w → AllStorable email w →
    w.pass = some (.headers validity remoteUids newUids) → Finishes email changes k w := by
  induction fuel with
  | zero =>
    intro k w validity remoteUids newUids left sound _ active
    obtain ⟨_, _, nonempty, _⟩ := (sound.pass _ active).1
    exact absurd (List.length_eq_zero_iff.mp (Nat.le_zero.mp left)) nonempty
  | succ fuel ih =>
    intro k w validity remoteUids newUids left sound storable active
    obtain ⟨_, _, nonempty, _⟩ := (sound.pass _ active).1
    obtain ⟨server, log, db, pass, run, answer, sound1, storable1⟩ :=
      answered_call email harmless k sound storable active
    obtain ⟨_, _, middle, _, _, _, _, ending⟩ := after_headers_ok email nonempty answer
    rcases ending with ⟨_, eq⟩ | ⟨_, eq⟩
    · exact finishes_reconcile email harmless run sound1 storable1 eq
    · obtain ⟨same, more⟩ := Prod.mk.inj eq
      subst same more
      refine finishes_later email run (ih (k + 1) _ validity remoteUids _ ?_ sound1 storable1 rfl)
      have shorter : (newUids.drop syncBatchSize).length < newUids.length := by
        have some := List.length_pos_iff.mpr nonempty
        rw [List.length_drop, syncBatchSize]
        omega
      omega

theorem finishes_search {k : Nat} {w : World} {validity : Nat} (sound : Sound w)
    (storable : AllStorable email w) (active : w.pass = some (.search validity)) :
    Finishes email changes k w := by
  obtain ⟨server, log, db, pass, run, answer, sound1, storable1⟩ :=
    answered_call email harmless k sound storable active
  have answer := (Except.ok.inj answer).symm
  rcases search_cases w.db validity (listUids (searchAll server)) with ⟨_, eq⟩ | ⟨_, eq⟩
  · exact finishes_reconcile email harmless run sound1 storable1 (answer.trans eq)
  · obtain ⟨same, more⟩ := Prod.mk.inj (answer.trans eq)
    subst same more
    exact finishes_later email run (finishes_headers email harmless _ (k + 1) _ validity _ _
      (Nat.le_refl _) sound1 storable1 rfl)

/- Every pass finishes on a server where all messages are storable or cached,
   whatever else changes while it runs. -/
theorem pass_finishes {k : Nat} {w : World} (sound : Sound w) (storable : AllStorable email w)
    (active : w.pass = some .select) : Finishes email changes k w := by
  obtain ⟨server, log, db, pass, run, answer, sound1, storable1⟩ :=
    answered_call email harmless k sound storable active
  obtain ⟨same, more⟩ := Prod.mk.inj (Except.ok.inj answer)
  subst same more
  exact finishes_later email run (finishes_search email harmless sound1 storable1 rfl)

omit harmless

theorem call_server (w : World) (pc : Pc) : (callStep email w pc).server = w.server := by
  unfold callStep
  split <;> rfl

/- A message that cannot be stored is not cached by any call. -/
theorem unstorable_call {w : World} (sound : Sound w) {pc : Pc} (active : w.pass = some pc)
    {m : RemoteMessage} (mem : m ∈ w.server.messages) (unstorable : ¬ Storable email m.content)
    (unknown : ¬ Known w m.uid) : ¬ Known (callStep email w pc) m.uid := by
  have before := (sound.pass pc active).1
  unfold callStep
  cases answer : resume email w.server w.db pc with
  | error e => exact unknown
  | ok out =>
    obtain ⟨db, pass⟩ := out
    rintro ⟨validity, row, inside, uid⟩
    simp only at validity inside
    have old : ∀ {middle : FolderDb}, (∀ r, middle.InFolder r ↔ w.db.InFolder r) →
        middle.folder.lastUidvalidity = w.db.folder.lastUidvalidity →
        ∀ {remoteUids : List Nat} {afterUid : Nat},
          (db, pass) = reconcileAfter middle remoteUids afterUid → False := by
      intro middle rows same remoteUids afterUid run
      refine unknown ⟨?_, row, (rows row).mp ((reconcile_rows run row).mp inside), uid⟩
      rcases reconcile_cases middle remoteUids afterUid with ⟨_, eq⟩ | ⟨_, eq⟩
      · rw [(Prod.mk.inj (run.trans eq)).1] at validity
        exact same ▸ validity
      · rw [(Prod.mk.inj (run.trans eq)).1] at validity
        exact same ▸ validity
    cases pc with
    | select =>
      rw [resume, Except.ok.injEq, Prod.mk.injEq] at answer
      obtain ⟨kept, same⟩ := select_row (answer.1 ▸ inside)
      exact unknown ⟨same, row, kept, uid⟩
    | search selected =>
      have run := (Except.ok.inj answer).symm
      rcases search_cases w.db selected (listUids (searchAll w.server)) with ⟨_, eq⟩ | ⟨_, eq⟩
      · exact old (fun _ => Iff.rfl) rfl (run.trans eq)
      · rw [(Prod.mk.inj (run.trans eq)).1] at validity inside
        exact unknown ⟨validity, row, inside, uid⟩
    | headers validity remoteUids newUids =>
      obtain ⟨rfl, snap, nonempty, _⟩ := before
      obtain ⟨added, last, middle, spec, _, folder, rows, ending⟩ :=
        after_headers_ok email nonempty answer
      have inMiddle : middle.InFolder row := by
        rcases ending with ⟨_, run⟩ | ⟨_, run⟩
        · exact (reconcile_rows run row).mp inside
        · exact (Prod.mk.inj run).1 ▸ inside
      rcases (in_folder_append rows (by rw [folder])).mp inMiddle with kept | ⟨new, _⟩
      · exact unknown ⟨snap.validity, row, kept, uid⟩
      · obtain ⟨header, fetched, _, parsed, dateSent, ⟨parse, date⟩, eq⟩ := spec.source row new
        obtain ⟨source, sourceMem, _, sourceUid, bytes, internaldate⟩ := header_source fetched
        have sameUid : source.uid = m.uid :=
          sourceUid.symm.trans ((congrArg NewMessage.uid eq).symm.trans uid)
        have same := uid_determines sourceMem mem sameUid
        subst same
        refine unstorable ⟨parsed, bytes ▸ parse, ?_⟩
        exact (bind_param_ok_iff _).mp ⟨dateSent, internaldate ▸ date⟩
    | flags remoteUids messages =>
      obtain ⟨snap, _, afterUid, _, _, rfl⟩ := before
      have run := (Except.ok.inj answer).symm
      have inMiddle := (reconcile_rows run row).mp inside
      obtain ⟨kept, keptInside, same, _⟩ := @reconciled_origin w.server _ _ _ _ inMiddle
      exact unknown ⟨snap.validity, kept, keptInside, same.symm.trans uid⟩

theorem quiet_records {records log : List Record} (still : ∀ r ∈ records, ¬ r.IsChange)
    (quiet : QuietSinceSearch log) : QuietSinceSearch (records ++ log) := by
  induction records with
  | nil => exact quiet
  | cons r rest ih =>
    have later := ih fun r' mem => still r' (List.mem_cons_of_mem _ mem)
    cases r with
    | searched => trivial
    | _ => exact ⟨still _ List.mem_cons_self, later⟩

/- Before the SEARCH, or with a server that stood still since. -/
def StillSinceSearch (w : World) : Prop :=
  w.pass = some .select ∨ (∃ validity, w.pass = some (.search validity)) ∨
    QuietSinceSearch w.log

theorem end_records_still (db : FolderDb) (pass : Option Pc) :
    ∀ r ∈ endRecords db pass, ¬ r.IsChange := by
  cases pass <;> simp [endRecords, Record.IsChange]

theorem call_still {w : World} (still : StillSinceSearch w) {pc : Pc}
    (active : w.pass = some pc) : StillSinceSearch (callStep email w pc) := by
  unfold StillSinceSearch at still
  rw [active] at still
  unfold callStep
  cases answer : resume email w.server w.db pc with
  | error e =>
    cases pc with
    | select => contradiction
    | search => contradiction
    | headers => exact Or.inr (Or.inr ⟨fun change => change, by simpa using still⟩)
    | flags => contradiction
  | ok out =>
    obtain ⟨db, pass⟩ := out
    cases pc with
    | select => exact Or.inr (Or.inl ⟨_, (Prod.mk.inj (Except.ok.inj answer)).2.symm⟩)
    | search validity =>
      refine Or.inr (Or.inr ?_)
      simp only [callRecords, List.append_assoc]
      exact quiet_records (end_records_still db pass) trivial
    | headers validity remoteUids newUids =>
      refine Or.inr (Or.inr ?_)
      simp only [callRecords, List.append_assoc]
      exact quiet_records (end_records_still db pass) ⟨fun change => change, by simpa using still⟩
    | flags remoteUids messages =>
      refine Or.inr (Or.inr ?_)
      simp only [callRecords, List.append_nil]
      exact quiet_records (end_records_still db pass) (by simpa using still)

/- What holds along a pass whose server stands still. -/
theorem undisturbed_invariant {P : World → Prop}
    (step : ∀ w pc, Sound w → P w → w.pass = some pc → P (callStep email w pc)) (n : Nat) :
    ∀ {w w' : World}, Sound w → P w →
      replay (next email) w (List.replicate n .call) = some w' →
      Sound w' ∧ P w' ∧ w'.server = w.server := by
  induction n with
  | zero =>
    intro w w' sound holds run
    rw [List.replicate_zero, replay_nil, Option.some.injEq] at run
    exact run ▸ ⟨sound, holds, rfl⟩
  | succ n ih =>
    intro w w' sound holds run
    rw [List.replicate_succ, replay_cons] at run
    obtain ⟨w1, called, run⟩ := Option.bind_eq_some_iff.mp run
    obtain ⟨pc, active, rfl⟩ := Option.map_eq_some_iff.mp called
    obtain ⟨sound', holds', server⟩ :=
      ih (call_sound email sound active) (step w pc sound holds active) run
    exact ⟨sound', holds', server.trans (call_server email w pc)⟩

theorem calls_undisturbed (k n : Nat) :
    callsFrom (fun _ => []) k n = List.replicate n .call := by
  induction n generalizing k with
  | zero => rfl
  | succ n ih => rw [callsFrom, ih, List.nil_append, List.replicate_succ]

/- The whole mailbox is cached and last_seen_uid is past it. -/
def CachesAll (server : Mailbox) (w : World) : Prop :=
  Finished w ∧ w.db.folder.historyComplete = true ∧
    ∀ uid, server.Has uid → uid ≤ w.db.folder.lastSeenUid ∧ w.db.Cached uid

def begun (w : World) : World := { w with pass := some .select, log := .began :: w.log }

theorem begin_step {w : World} (idle : w.pass = none) : next email w .begin = some (begun w) := by
  rw [next, idle]
  rfl

/- A new message that cannot be stored keeps every pass from caching the mailbox. -/
theorem unstorable_blocks {w : World} (sound : Sound w) (idle : w.pass = none)
    {m : RemoteMessage} (mem : m ∈ w.server.messages) (unstorable : ¬ Storable email m.content)
    (unknown : ¬ Known w m.uid) (n : Nat) {w' : World}
    (run : replay (next email) w (.begin :: List.replicate n .call) = some w') :
    ¬ CachesAll w.server w' := by
  rw [replay_cons, begin_step email idle] at run
  have started : Sound (begun w) := next_sound email sound (begin_step email idle)
  obtain ⟨sound', ⟨mem', unknown'⟩, server⟩ := undisturbed_invariant email
    (P := fun u => m ∈ u.server.messages ∧ ¬ Known u m.uid) (fun u pc s holds active =>
      ⟨call_server email u pc ▸ holds.1,
        unstorable_call email s active holds.1 unstorable holds.2⟩) n started ⟨mem, unknown⟩ run
  rintro ⟨⟨_, v, older, log⟩, _, all⟩
  obtain ⟨_, _, converged⟩ := sound'.converged v older log
  exact unknown' ⟨converged.validity, (all m.uid ⟨m, mem, rfl⟩).2⟩

theorem storable_completes {w : World} (sound : Sound w) (idle : w.pass = none)
    (storable : AllStorable email w) : ∃ n w',
      replay (next email) w (.begin :: List.replicate n .call) = some w' ∧
        CachesAll w.server w' := by
  have started : Sound (begun w) := next_sound email sound (begin_step email idle)
  have untouched : ∀ k, ∀ l ∈ (fun _ => [] : Nat → List Label) k, Harmless email l := by simp
  obtain ⟨n, w', run, finished⟩ :=
    pass_finishes email (k := 0) untouched started (show AllStorable email (begun w) from storable) rfl
  rw [calls_undisturbed] at run
  obtain ⟨sound', still, server⟩ := undisturbed_invariant email (P := StillSinceSearch)
    (fun u pc _ holds active => call_still email holds active) n started (Or.inl rfl) run
  refine ⟨n, w', ?_, finished, ?_⟩
  · rw [replay_cons, begin_step email idle]
    exact run
  · obtain ⟨ended, v, older, log⟩ := finished
    obtain ⟨snapshot, _, converged⟩ := sound'.converged v older log
    refine ⟨converged.history, ?_⟩
    intro uid has
    have quiet : QuietSinceSearch w'.log := by
      rcases still with active | ⟨_, active⟩ | quiet
      · rw [ended] at active
        contradiction
      · rw [ended] at active
        contradiction
      · exact quiet
    have sameServer : w'.server = w.server := server
    have cached := ((converged.quiet quiet).1 uid).mpr (sameServer ▸ has)
    exact ⟨converged.seen uid (converged.noneExtra uid cached), cached⟩

/- A pass over a mailbox at rest completes exactly when every message that is not
   cached yet can be stored. Changes during the pass do not stop it either, as long as
   everything that is there or arrives can be stored. -/
theorem pass_completes_iff_storable {w0 w : World} {labels : List Label} (start : Start w0)
    (run : replay (next email) w0 labels = some w) (idle : w.pass = none) :
    ((∃ n w', replay (next email) w (.begin :: List.replicate n .call) = some w' ∧
        CachesAll w.server w') ↔
      ∀ m ∈ w.server.messages, Known w m.uid ∨ Storable email m.content) ∧
    ∀ changes : Nat → List Label, (∀ k, ∀ l ∈ changes k, Harmless email l) →
      (∀ m ∈ w.server.messages, Known w m.uid ∨ Storable email m.content) →
      ∃ n w' snapshot, replay (next email) w (.begin :: callsFrom changes 0 n) = some w' ∧
        Finished w' ∧ Converged w'.server w'.db w'.log snapshot := by
  have sound := run_sound email start run
  refine ⟨⟨?_, storable_completes email sound idle⟩, ?_⟩
  · intro completes m mem
    obtain ⟨n, w', run, all⟩ := completes
    by_contra blocked
    rw [not_or] at blocked
    exact unstorable_blocks email sound idle mem blocked.2 blocked.1 n run all
  · intro changes harmless storable
    have started : Sound (begun w) := next_sound email sound (begin_step email idle)
    obtain ⟨n, w', run, finished⟩ := pass_finishes email (k := 0) harmless started
      (show AllStorable email (begun w) from storable) rfl
    have whole : replay (next email) w (.begin :: callsFrom changes 0 n) = some w' := by
      rw [replay_cons, begin_step email idle]
      exact run
    have sound' : Sound w' := replay_invariant Sound sound
      (fun _ _ _ before step => next_sound email before step) whole
    obtain ⟨ended, v, older, log⟩ := finished
    obtain ⟨snapshot, _, converged⟩ := sound'.converged v older log
    exact ⟨n, w', snapshot, whole, ⟨ended, v, older, log⟩, converged⟩

theorem pass_completes_iff_storable_fresh : ∃ n w',
    replay (next emptyHeaderEmail) freshWorld (.begin :: List.replicate n .call) = some w' ∧
      CachesAll twoMessageMailbox w' := by
  have none : replay (next emptyHeaderEmail) freshWorld [] = some freshWorld := rfl
  refine (pass_completes_iff_storable emptyHeaderEmail fresh_world_start none rfl).1.mpr ?_
  intro m mem
  have plain : m.content = plainContent := by
    simp only [freshWorld, twoMessageMailbox, List.mem_cons, List.not_mem_nil, or_false] at mem
    rcases mem with rfl | rfl
    · rfl
    · rfl
  exact Or.inr ⟨_, rfl, plain ▸ trivial⟩

/- Fri, 31 Dec 9999 23:59:59 -0100 is a datetime without a UTC counterpart. -/
def farDateText : String := "Fri, 31 Dec 9999 23:59:59 -0100"

def farDate : Datetime where
  clock := ⟨clockEnd - 1000000, by decide⟩
  tzinfo := some ⟨-3600000000, by decide, by decide⟩

def farDateHeader : Bytes := ("Date: " ++ farDateText ++ "\r\n\r\n").toUTF8.toList

/- What the email package answers for the header block with that date. -/
def farDateEmail : EmailPackage Bytes where
  parsebytes := id
  get := fun _ name => .ok (if name = "Date" then some farDateText else none)
  rawItems := fun _ => [("Date", farDateText)]
  unparsedAddress := id
  parseaddr := fun _ => ("", "")
  getaddresses := fun _ => [("", "")]
  parsedateToDatetime := fun text =>
    if text = farDateText then .ok farDate
    else .error (.valueError "Invalid date value or format")

def farDateMailbox : Mailbox where
  uidvalidity := 7
  uidNext := 3
  messages := [⟨1, ⟨∅, none, some 39, farDateHeader, []⟩⟩, ⟨2, plainContent⟩]
  ordered := List.pairwise_pair.mpr (Nat.lt_succ_self 1)
  bounded := by
    refine List.forall_mem_cons.mpr ⟨⟨Nat.succ_pos 0, Nat.lt_add_of_pos_right (Nat.succ_pos 1)⟩, ?_⟩
    exact List.forall_mem_singleton.mpr ⟨Nat.succ_pos 1, Nat.lt_succ_self 2⟩
  started := Nat.succ_pos _

def farDateWorld : World := { freshWorld with server := farDateMailbox }

theorem far_date_not_storable : ¬ Storable farDateEmail ⟨∅, none, some 39, farDateHeader, []⟩ := by
  rintro ⟨parsed, parse, representable⟩
  have date : (parseHeaderBlock farDateEmail farDateHeader).map ParsedHeader.dateSent =
      .ok (some farDate) := rfl
  rw [parse] at date
  rw [Except.ok.inj date] at representable
  exact absurd representable (by decide)

theorem far_date_world_start : Start farDateWorld := by
  obtain ⟨⟨owned, current, positive, _, _, used, folder⟩, idle, log⟩ := fresh_world_start
  refine ⟨⟨owned, current, positive, ?_, ?_, used, folder⟩, idle, log⟩
  · intro same
    contradiction
  · intro same
    contradiction

/- The import raises and the pass is over: there is no fourth call. -/
theorem far_date_runs : ∀ n, (replay (next farDateEmail) farDateWorld
    (.begin :: List.replicate n .call)).all (fun w => w.db.messages.rows = []) = true
  | 0 => rfl
  | 1 => rfl
  | 2 => rfl
  | 3 => rfl
  | n + 4 => by
    have ended : (replay (next farDateEmail) farDateWorld
        [.begin, .call, .call, .call]).map World.pass = some none := rfl
    obtain ⟨w, run, idle⟩ := Option.map_eq_some_iff.mp ended
    have more : Label.begin :: List.replicate (n + 4) Label.call =
        [.begin, .call, .call, .call] ++ .call :: List.replicate n .call := rfl
    have stuck : next farDateEmail w .call = none := by rw [next, idle]; rfl
    rw [more, replay_append, run, Option.bind_some, replay_cons, stuck]
    rfl

/- The message is never cached, and neither is the other one of its batch. -/
theorem far_date_blocks_folder : Start farDateWorld ∧ ∀ n w',
    replay (next farDateEmail) farDateWorld (.begin :: List.replicate n .call) = some w' →
      w'.db.messages.rows = [] ∧ ¬ CachesAll farDateMailbox w' := by
  refine ⟨far_date_world_start, ?_⟩
  intro n w' run
  have none := far_date_runs n
  rw [run] at none
  refine ⟨of_decide_eq_true none, ?_⟩
  refine unstorable_blocks farDateEmail (start_sound far_date_world_start) rfl List.mem_cons_self
    far_date_not_storable ?_ n run
  intro known
  exact absurd known.1 (by decide)

end InboxFolderCompletion
