import InboxOne.Cache
import InboxOne.LabelledRuns

/-!
Which mail an id of the message table names. A run interleaves passes over the folders of
all accounts, discoveries, deletions by id and arbitrary changes of the servers. The lock
of an account admits one pass or discovery at a time. The field `newest` only observes
the run: it is the highest id handed out so far.
-/
namespace InboxMessageIds
open LabelledRuns InboxPython InboxMailbox InboxMailParser InboxTables InboxFolderSync
open InboxFolderSegments InboxCache

def newestId (rows : List Message) : Nat := (rows.map Message.id).foldr max 0

structure World where
  servers : Nat → String → Option Mailbox
  cache : Cache
  passes : Nat → Option (Nat × Pc)
  newest : Nat

inductive Label where
  | server (account : Nat) (path : String) (mailbox : Option Mailbox)
  | begin (folderId : Nat)
  | call (account : Nat)
  | abort (account : Nat)
  | discover (account : Nat) (paths : List String)
  | delete (messageId : Nat)

def World.store (w : World) (cache : Cache) : World :=
  { w with cache := cache, newest := max w.newest (newestId cache.messages.rows) }

def World.setPass (w : World) (account : Nat) (pass : Option (Nat × Pc)) : World :=
  { w with passes := Function.update w.passes account pass }

variable {Msg : Type} (email : EmailPackage Msg)

/- What the pass of an account commits on the answer of the call it waits for. -/
def committed (w : World) (account : Nat) : Option (FolderDb × Option (Nat × Pc)) := do
  let (folderId, pc) ← w.passes account
  let f ← w.cache.folderById folderId
  let mailbox ← w.servers account f.imapPath
  match resume email mailbox (w.cache.view f) pc with
  | .ok (db, pass) => some (db, pass.map fun pc => (folderId, pc))
  | .error _ => none

def next (w : World) : Label → Option World
  | .server account path mailbox =>
      some { w with
        servers := Function.update w.servers account
          (Function.update (w.servers account) path mailbox) }
  | .begin folderId => do
      let f ← w.cache.folderById folderId
      if (w.passes f.accountId).isNone then
        return w.setPass f.accountId (some (folderId, .select))
      else none
  | .call account =>
      if (w.passes account).isNone then none
      else match committed email w account with
        | some (db, pass) => some ((w.store (w.cache.write db)).setPass account pass)
        | none => some (w.setPass account none)
  | .abort account =>
      if (w.passes account).isNone then none else some (w.setPass account none)
  | .discover account paths =>
      if (w.passes account).isNone then some (w.store (w.cache.discover account paths)) else none
  | .delete messageId => some (w.store (w.cache.deleteMessage messageId))

/- The batch that arrives adds rows. -/
def grows (w : World) (account : Nat) : Bool :=
  (committed email w account).any fun (db, _) =>
    w.cache.messages.rows.length < db.messages.rows.length

/-- The row that got the highest id so far is still there. -/
def newestPresent (w : World) : Bool := w.newest ≤ newestId w.cache.messages.rows

/-- No batch adds rows while the newest row is gone. -/
def careful (w : World) : Label → Bool
  | .call account => !grows email w account || newestPresent w
  | _ => true

theorem id_le_newest {rows : List Message} {m : Message} (mem : m ∈ rows) :
    m.id ≤ newestId rows := le_largest (List.mem_map_of_mem mem)

theorem newest_id_le {rows : List Message} {bound : Nat} (below : ∀ m ∈ rows, m.id ≤ bound) :
    newestId rows ≤ bound := by
  induction rows with
  | nil => exact Nat.zero_le bound
  | cons m rest ih =>
    have tail := ih fun x mem => below x (List.mem_cons_of_mem _ mem)
    have head := below m List.mem_cons_self
    unfold newestId at tail ⊢
    rw [List.map_cons, List.foldr_cons]
    omega

theorem newest_snoc (rows : List Message) (m : NewMessage) :
    newestId (rows ++ [⟨m, nextId rows⟩]) = nextId rows := by
  apply Nat.le_antisymm
  · apply newest_id_le
    intro x mem
    rcases List.mem_append.mp mem with old | new
    · exact Nat.le_succ_of_le (id_le_newest old)
    · rw [List.mem_singleton.mp new]
  · have mem : (⟨m, nextId rows⟩ : Message) ∈ rows ++ [⟨m, nextId rows⟩] := by simp
    exact id_le_newest mem

/-- The rows of a table, and their ids, that an import appends to it. -/
structure Appended (rows rows' added : List Message) : Prop where
  after : rows' = rows ++ added
  ids : added.map Message.id = List.range' (nextId rows) added.length

theorem import_appends {folder : Folder} {validity : Nat} {cached : List Nat}
    {headers : List FetchedHeader} {table table' : MessageTable}
    (ok : importHeaders email folder validity cached table headers = .ok table') :
    ∃ added, Appended table.rows table'.rows added := by
  induction headers generalizing table with
  | nil =>
    have same : table = table' := Except.ok.inj ok
    exact ⟨[], by simp [same], rfl⟩
  | cons header rest ih =>
    by_cases known : header.uid ∈ cached
    · rw [import_headers_known email known] at ok
      exact ih ok
    · obtain ⟨parsed, dateSent, middle, _, first, ok⟩ := (import_headers_cons email known).mp ok
      obtain ⟨added, tail⟩ := ih ok
      have one := insert_ok first
      refine ⟨⟨newMessage folder validity header parsed dateSent, nextId table.rows⟩ :: added,
        ?_, ?_⟩
      · rw [tail.after, one, List.append_assoc, List.singleton_append]
      · have after : nextId middle.rows = nextId table.rows + 1 := by
          rw [one]
          exact congrArg (· + 1) (newest_snoc table.rows _)
        rw [List.map_cons, tail.ids, after, List.length_cons, List.range'_succ]

/- Some row already carried this id for this mail. -/
def SameMail (rows : List Message) (m : Message) : Prop :=
  ∃ old ∈ rows, old.id = m.id ∧ old.identity = m.identity

theorem same_mail_refl {rows : List Message} {m : Message} (mem : m ∈ rows) : SameMail rows m :=
  ⟨m, mem, rfl, rfl⟩

/- A segment keeps the mail of every id, except that a batch of headers appends rows. -/
theorem resume_rows {mb : Mailbox} {db db' : FolderDb} {pc : Pc} {pass : Option Pc}
    (ok : resume email mb db pc = .ok (db', pass)) :
    (∀ m ∈ db'.messages.rows, SameMail db.messages.rows m) ∨
      ∃ added, added ≠ [] ∧ Appended db.messages.rows db'.messages.rows added := by
  cases pc with
  | select =>
    have same : afterSelect db mb.uidvalidity = db' := congrArg Prod.fst (Except.ok.inj ok)
    refine Or.inl fun m mem => ?_
    rw [← same] at mem
    unfold afterSelect at mem
    split at mem
    · exact same_mail_refl (mem_deleteWhere.mp mem).1
    · exact same_mail_refl mem
  | search validity =>
    have same : (afterSearch db validity (listUids (searchAll mb))).1 = db' :=
      congrArg Prod.fst (Except.ok.inj ok)
    have rows : db'.messages = db.messages := by
      rw [← same]
      rcases search_cases db validity (listUids (searchAll mb)) with ⟨_, eq⟩ | ⟨_, eq⟩
      · rw [eq, reconcile_messages]
      · rw [eq]
    exact Or.inl fun m mem => same_mail_refl (rows ▸ mem)
  | headers validity remoteUids newUids =>
    obtain ⟨added, appended⟩ := import_appends email (after_headers_table email ok)
    by_cases nothing : added = []
    · refine Or.inl fun m mem => ?_
      rw [appended.after, nothing, List.append_nil] at mem
      exact same_mail_refl mem
    · exact Or.inr ⟨added, nothing, appended⟩
  | flags remoteUids messages =>
    have same := congrArg (fun r => r.1.messages.rows) (Except.ok.inj ok)
    simp only [afterFlags, reconcile_messages] at same
    refine Or.inl fun m mem => ?_
    rw [← same] at mem
    obtain ⟨old, oldMem, eq⟩ := List.mem_filterMap.mp mem
    have keeps := reconcileRow_keeps _ _ old m eq
    exact ⟨old, oldMem, keeps.1.symm, keeps.2.symm⟩

theorem committed_segment {w : World} {account : Nat} {db : FolderDb} {pass : Option (Nat × Pc)}
    (commits : committed email w account = some (db, pass)) :
    ∃ f mb pc pc', resume email mb (w.cache.view f) pc = .ok (db, pc') := by
  simp only [committed, Option.bind_eq_bind, Option.bind_eq_some_iff, Prod.exists] at commits
  obtain ⟨folderId, pc, _, f, _, mb, _, segment⟩ := commits
  cases result : resume email mb (w.cache.view f) pc with
  | error e => simp [result] at segment
  | ok answer =>
    simp only [result, Option.some.injEq, Prod.mk.injEq] at segment
    exact ⟨f, mb, pc, answer.2, by rw [result, ← segment.1]⟩

/-- What a step does to the rows: it keeps the mail of every id, or appends a batch. -/
def Allocates (w w' : World) (l : Label) : Prop :=
  (∀ m ∈ w'.cache.messages.rows, SameMail w.cache.messages.rows m) ∨
    ∃ account added, l = .call account ∧ grows email w account = true ∧
      Appended w.cache.messages.rows w'.cache.messages.rows added

theorem call_allocates {w w' : World} {account : Nat}
    (step : next email w (.call account) = some w') : Allocates email w w' (.call account) := by
  simp only [next] at step
  split at step
  · contradiction
  · cases commits : committed email w account with
    | none =>
      simp only [commits, Option.some.injEq] at step
      exact Or.inl fun m mem => same_mail_refl (by rwa [← step] at mem)
    | some answer =>
      obtain ⟨db, pass⟩ := answer
      simp only [commits, Option.some.injEq] at step
      have rows : w'.cache.messages.rows = db.messages.rows := by
        rw [← step]
        rfl
      unfold Allocates
      rw [rows]
      obtain ⟨f, mb, pc, pc', segment⟩ := committed_segment email commits
      rcases resume_rows email segment with kept | ⟨added, some_added, appended⟩
      · exact Or.inl kept
      · refine Or.inr ⟨account, added, rfl, ?_, appended⟩
        have longer : w.cache.messages.rows.length < db.messages.rows.length := by
          rw [appended.after, List.length_append]
          have := List.length_pos_of_ne_nil some_added
          simp only [Cache.view]
          omega
        simpa [grows, commits] using longer

theorem next_allocates {w w' : World} {l : Label} (step : next email w l = some w') :
    Allocates email w w' l := by
  cases l with
  | server account path mailbox =>
    have same := Option.some.inj step
    exact Or.inl fun m mem => same_mail_refl (by rwa [← same] at mem)
  | begin folderId =>
    simp only [next, Option.bind_eq_bind, Option.bind_eq_some_iff] at step
    obtain ⟨f, _, step⟩ := step
    split at step
    · have same := Option.some.inj step
      exact Or.inl fun m mem => same_mail_refl (by rwa [← same] at mem)
    · contradiction
  | call account => exact call_allocates email step
  | abort account =>
    simp only [next] at step
    split at step
    · contradiction
    · have same := Option.some.inj step
      exact Or.inl fun m mem => same_mail_refl (by rwa [← same] at mem)
  | discover account paths =>
    simp only [next] at step
    split at step
    · have same := Option.some.inj step
      exact Or.inl fun m mem => same_mail_refl (discover_rows (by rwa [← same] at mem))
    · contradiction
  | delete messageId =>
    have same := Option.some.inj step
    refine Or.inl fun m mem => ?_
    rw [← same] at mem
    exact same_mail_refl (mem_deleteWhere.mp mem).1

theorem same_mail_newest {rows rows' : List Message} (kept : ∀ m ∈ rows', SameMail rows m) :
    newestId rows' ≤ newestId rows := by
  apply newest_id_le
  intro m mem
  obtain ⟨old, oldMem, id, _⟩ := kept m mem
  exact id ▸ id_le_newest oldMem

theorem same_mail_length {table table' : MessageTable}
    (kept : ∀ m ∈ table'.rows, SameMail table.rows m) : table'.rows.length ≤ table.rows.length := by
  have subset : table'.rows.map Message.id ⊆ table.rows.map Message.id := by
    intro id listed
    obtain ⟨m, mem, rfl⟩ := List.mem_map.mp listed
    obtain ⟨old, oldMem, same, _⟩ := kept m mem
    exact List.mem_map.mpr ⟨old, oldMem, same⟩
  simpa using table'.keys.length_le_of_subset subset

theorem appended_id {rows rows' added : List Message} (appended : Appended rows rows' added)
    {m : Message} (mem : m ∈ added) :
    newestId rows < m.id ∧ m.id ≤ newestId rows + added.length := by
  have listed : m.id ∈ added.map Message.id := List.mem_map_of_mem mem
  have start : nextId rows = newestId rows + 1 := rfl
  rw [appended.ids, List.mem_range'_1, start] at listed
  omega

/- The observed highest id is the highest one of all states so far. -/
theorem next_newest {w w' : World} {l : Label} (known : newestId w.cache.messages.rows ≤ w.newest)
    (step : next email w l = some w') :
    w'.newest = max w.newest (newestId w'.cache.messages.rows) := by
  cases l with
  | server account path mailbox =>
    have same := Option.some.inj step
    rw [← same]
    exact (max_eq_left known).symm
  | begin folderId =>
    simp only [next, Option.bind_eq_bind, Option.bind_eq_some_iff] at step
    obtain ⟨f, _, step⟩ := step
    split at step
    · have same := Option.some.inj step
      rw [← same]
      exact (max_eq_left known).symm
    · contradiction
  | call account =>
    simp only [next] at step
    split at step
    · contradiction
    · cases commits : committed email w account with
      | none =>
        simp only [commits, Option.some.injEq] at step
        rw [← step]
        exact (max_eq_left known).symm
      | some answer =>
        simp only [commits, Option.some.injEq] at step
        rw [← step]
        rfl
  | abort account =>
    simp only [next] at step
    split at step
    · contradiction
    · have same := Option.some.inj step
      rw [← same]
      exact (max_eq_left known).symm
  | discover account paths =>
    simp only [next] at step
    split at step
    · have same := Option.some.inj step
      rw [← same]
      rfl
    · contradiction
  | delete messageId =>
    have same := Option.some.inj step
    rw [← same]
    rfl

/- A row of the second state with an id from the time of the first is a row of the first. -/
structure Since (w1 w2 : World) : Prop where
  known : newestId w2.cache.messages.rows ≤ w2.newest
  later : w1.newest ≤ w2.newest
  kept : ∀ m ∈ w2.cache.messages.rows, m.id ≤ w1.newest → SameMail w1.cache.messages.rows m

theorem since_step {w1 w2 w3 : World} {l : Label} (since : Since w1 w2)
    (step : restrict (careful email) (next email) w2 l = some w3) : Since w1 w3 := by
  obtain ⟨allowed, step⟩ := restrict_step step
  have newest := next_newest email since.known step
  have old : ∀ m, SameMail w2.cache.messages.rows m → m.id ≤ w1.newest →
      SameMail w1.cache.messages.rows m := by
    intro m same upto
    obtain ⟨m2, mem2, id2, identity2⟩ := same
    obtain ⟨m1, mem1, id1, identity1⟩ := since.kept m2 mem2 (id2 ▸ upto)
    exact ⟨m1, mem1, id1.trans id2, identity1.trans identity2⟩
  refine ⟨newest ▸ le_max_right _ _, newest ▸ le_max_of_le_left since.later, ?_⟩
  intro m mem upto
  rcases next_allocates email step with kept | ⟨account, added, call, grown, appended⟩
  · exact old m (kept m mem) upto
  · rw [appended.after] at mem
    rcases List.mem_append.mp mem with before | new
    · exact old m (same_mail_refl before) upto
    · -- a batch that adds rows finds the newest row in place
      have present : w2.newest ≤ newestId w2.cache.messages.rows := by
        simpa [call, careful, grown, newestPresent] using allowed
      have above := (appended_id appended new).1
      have := since.later
      omega

/- A run starts between passes; ids are observed from there on. -/
structure Start (w : World) : Prop where
  idle : ∀ account, w.passes account = none
  newest : w.newest = newestId w.cache.messages.rows

theorem run_known {w0 w : World} {labels : List Label} (start : Start w0)
    (run : replay (restrict (careful email) (next email)) w0 labels = some w) :
    newestId w.cache.messages.rows ≤ w.newest := by
  have since : Since w0 w :=
    replay_invariant (Since w0)
      ⟨start.newest.ge, Nat.le_refl _, fun m mem _ => same_mail_refl mem⟩
      (fun _ _ _ since step => since_step email since step) run
  exact since.known

/-- As long as no batch adds rows while the newest row is gone, an id keeps its mail: a
later row with the id is for the same mail, and so is what a later request finds. -/
theorem message_ids_keep_their_mail {w0 w1 w2 : World} {first later : List Label}
    (start : Start w0)
    (run : replay (restrict (careful email) (next email)) w0 first = some w1)
    (run' : replay (restrict (careful email) (next email)) w1 later = some w2)
    {m1 : Message} (seen : m1 ∈ w1.cache.messages.rows) :
    (∀ m2 ∈ w2.cache.messages.rows, m2.id = m1.id → m2.identity = m1.identity) ∧
      (w2.cache.messageById m1.id = none ∨
        ∃ m2, w2.cache.messageById m1.id = some m2 ∧ m2.identity = m1.identity) := by
  have known := run_known email start run
  have since : Since w1 w2 :=
    replay_invariant (Since w1) ⟨known, Nat.le_refl _, fun m mem _ => same_mail_refl mem⟩
      (fun _ _ _ since step => since_step email since step) run'
  have keeps : ∀ m2 ∈ w2.cache.messages.rows, m2.id = m1.id → m2.identity = m1.identity := by
    intro m2 mem same
    have upto : m2.id ≤ w1.newest := same ▸ Nat.le_trans (id_le_newest seen) known
    obtain ⟨old, oldMem, id, identity⟩ := since.kept m2 mem upto
    rw [← identity, id_determines oldMem seen (id.trans same)]
  refine ⟨keeps, ?_⟩
  cases found : w2.cache.messageById m1.id with
  | none => exact Or.inl rfl
  | some m2 =>
    obtain ⟨mem, same⟩ := message_by_id_mem found
    exact Or.inr ⟨m2, rfl, keeps m2 mem same⟩

/- Some state of the run had a row with this id. -/
def Named (w0 : World) (labels : List Label) (messageId : Nat) : Prop :=
  ∃ before after w1, labels = before ++ after ∧ replay (next email) w0 before = some w1 ∧
    ∃ m ∈ w1.cache.messages.rows, m.id = messageId

theorem named_later {w0 : World} {labels : List Label} {l : Label} {messageId : Nat}
    (named : Named email w0 labels messageId) : Named email w0 (labels ++ [l]) messageId := by
  obtain ⟨before, after, w1, split, run, row⟩ := named
  exact ⟨before, after ++ [l], w1, by rw [split, List.append_assoc], run, row⟩

theorem every_id_named {w0 w : World} {labels : List Label} (nothing : w0.newest = 0)
    (empty : w0.cache.messages.rows = []) (run : replay (next email) w0 labels = some w) :
    newestId w.cache.messages.rows ≤ w.newest ∧
      ∀ id, 0 < id → id ≤ w.newest → Named email w0 labels id := by
  apply replay_history_invariant (fun labels w => newestId w.cache.messages.rows ≤ w.newest ∧
    ∀ id, 0 < id → id ≤ w.newest → Named email w0 labels id) _ _ run
  · rw [empty, nothing]
    exact ⟨Nat.le_refl 0, fun id positive none => absurd positive (by omega)⟩
  · intro labels w l w' prefixRun ih step
    have newest := next_newest email ih.1 step
    refine ⟨newest ▸ le_max_right _ _, fun id positive upto => ?_⟩
    by_cases before : id ≤ w.newest
    · exact named_later email (ih.2 id positive before)
    · have reaches : id ≤ newestId w'.cache.messages.rows := by
        rw [newest] at upto
        omega
      rcases next_allocates email step with kept | ⟨account, added, _, _, appended⟩
      · have := same_mail_newest kept
        have := ih.1
        omega
      · have bounded : newestId w'.cache.messages.rows ≤
            newestId w.cache.messages.rows + added.length := by
          apply newest_id_le
          intro m mem
          rw [appended.after] at mem
          rcases List.mem_append.mp mem with old | new
          · have := id_le_newest old
            omega
          · exact (appended_id appended new).2
        have listed : id ∈ added.map Message.id := by
          have start : nextId w.cache.messages.rows = newestId w.cache.messages.rows + 1 := rfl
          rw [appended.ids, List.mem_range'_1, start]
          have := ih.1
          omega
        obtain ⟨m, mem, same⟩ := List.mem_map.mp listed
        refine ⟨labels ++ [l], [], w', by simp, ?_, m, ?_, same⟩
        · rw [replay_append, prefixRun, Option.bind_some, replay_cons, step]
          rfl
        · rw [appended.after]
          exact List.mem_append_right _ mem

/-- The condition is tight: a batch that adds rows while the newest row is gone names a
second mail by an id that an earlier row had. -/
theorem growth_reuses_id {w0 w w' : World} {labels : List Label} {account : Nat}
    (nothing : w0.newest = 0) (empty : w0.cache.messages.rows = [])
    (run : replay (next email) w0 labels = some w)
    (step : next email w (.call account) = some w')
    (grown : w.cache.messages.rows.length < w'.cache.messages.rows.length)
    (gone : newestPresent w = false) :
    ∃ m ∈ w'.cache.messages.rows, m.id ∉ w.cache.messages.rows.map Message.id ∧
      Named email w0 labels m.id := by
  have named := (every_id_named email nothing empty run).2
  rcases next_allocates email step with kept | ⟨_, added, _, _, appended⟩
  · exact absurd (same_mail_length kept) (Nat.not_le_of_lt grown)
  · rw [appended.after, List.length_append] at grown
    obtain ⟨m, rest, split⟩ := List.exists_cons_of_length_pos (by omega : 0 < added.length)
    have ids := appended.ids
    rw [split, List.map_cons, List.length_cons, List.range'_succ, List.cons.injEq] at ids
    have first : m.id = nextId w.cache.messages.rows := ids.1
    have start : nextId w.cache.messages.rows = newestId w.cache.messages.rows + 1 := rfl
    have missing : newestId w.cache.messages.rows < w.newest := by
      simpa [newestPresent] using gone
    refine ⟨m, ?_, first ▸ nextId_fresh _, named m.id (by omega) (by omega)⟩
    rw [appended.after, split]
    exact List.mem_append_right _ List.mem_cons_self

def quietWorld : World where
  servers := fun _ _ => none
  cache := ⟨[letterFolder], .empty, by decide, by decide⟩
  passes := fun _ => none
  newest := 0

theorem quiet_world_start : Start quietWorld := ⟨fun _ => rfl, rfl⟩

/- One pass over the mailbox: SELECT, SEARCH, at most one batch of headers, one of flags. -/
def passLabels (mailbox : Mailbox) (calls : Nat) : List Label :=
  [.server 1 "INBOX" (some mailbox), .begin 1] ++ List.replicate calls (.call 1)

def World.ids (w : World) : List (Nat × Nat) := w.cache.messages.rows.map fun m => (m.id, m.uid)

def firstPass : List Label := passLabels (letterBox 0) 4

/- The message is expunged; only after the next pass a new one arrives. -/
def laterPasses : List Label := passLabels emptyBox 3 ++ passLabels (letterBox 1) 4

theorem later_passes_ids :
    (replay (next emptyHeaderEmail) quietWorld firstPass).map World.ids = some [(1, 1)] ∧
      (replay (next emptyHeaderEmail) quietWorld (firstPass ++ laterPasses)).map World.ids =
        some [(1, 2)] := by decide

/-- The message with UID 1 is shown with id 1; a delete for this id that arrives two passes
later finds the message with UID 2 and removes its row. -/
theorem deleted_id_is_given_away : Start quietWorld ∧ ∃ w1 w2 m1 m2 w3,
    replay (next emptyHeaderEmail) quietWorld firstPass = some w1 ∧
      replay (next emptyHeaderEmail) w1 laterPasses = some w2 ∧
      m1 ∈ w1.cache.messages.rows ∧ w2.cache.messageById m1.id = some m2 ∧
      m2.identity ≠ m1.identity ∧
      next emptyHeaderEmail w2 (.delete m1.id) = some w3 ∧ w3.cache.messages.rows = [] := by
  refine ⟨quiet_world_start, ?_⟩
  obtain ⟨w1, run1, ids1⟩ := Option.map_eq_some_iff.mp later_passes_ids.1
  obtain ⟨w2, run2, ids2⟩ := Option.map_eq_some_iff.mp later_passes_ids.2
  rw [replay_append, run1, Option.bind_some] at run2
  obtain ⟨m1, rows1, one⟩ := List.map_eq_singleton_iff.mp ids1
  obtain ⟨m2, rows2, two⟩ := List.map_eq_singleton_iff.mp ids2
  obtain ⟨id1, uid1⟩ := Prod.mk.inj one
  obtain ⟨id2, uid2⟩ := Prod.mk.inj two
  have differ : m2.identity ≠ m1.identity := by
    intro same
    have uids : m2.uid = m1.uid := congrArg (fun t => t.2.2.1) same
    omega
  refine ⟨w1, w2, m1, m2, _, run1, run2, by simp [rows1], ?_, differ, rfl, ?_⟩
  · simp [Cache.messageById, rows2, id1, id2]
  · simp [World.store, Cache.deleteMessage, MessageTable.deleteWhere, MessageTable.rewrite, rows2,
      id1, id2]

theorem message_ids_keep_their_mail_read : ∃ w1 w2 m1,
    m1 ∈ w1.cache.messages.rows ∧
      replay (restrict (careful emptyHeaderEmail) (next emptyHeaderEmail)) w1
        (passLabels (letterBox 0) 3) = some w2 ∧
      ∀ m2 ∈ w2.cache.messages.rows, m2.id = m1.id → m2.identity = m1.identity := by
  have runs : (replay (restrict (careful emptyHeaderEmail) (next emptyHeaderEmail)) quietWorld
      firstPass).map World.ids = some [(1, 1)] ∧
      (replay (restrict (careful emptyHeaderEmail) (next emptyHeaderEmail)) quietWorld
        (firstPass ++ passLabels (letterBox 0) 3)).map World.ids = some [(1, 1)] := by decide
  obtain ⟨w1, run1, ids1⟩ := Option.map_eq_some_iff.mp runs.1
  obtain ⟨w2, run2, _⟩ := Option.map_eq_some_iff.mp runs.2
  rw [replay_append, run1, Option.bind_some] at run2
  obtain ⟨m1, rows1, _⟩ := List.map_eq_singleton_iff.mp ids1
  have seen : m1 ∈ w1.cache.messages.rows := by simp [rows1]
  exact ⟨w1, w2, m1, seen, run2,
    (message_ids_keep_their_mail emptyHeaderEmail quiet_world_start run1 run2 seen).1⟩

end InboxMessageIds
