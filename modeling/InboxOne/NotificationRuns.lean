import InboxOne.FolderConvergence
import Mathlib.Tactic.Tauto

/-!
Which cached rows may raise a new-mail notification. Eligibility is fixed when a row is
inserted, from a flag that the last statement of a pass sets and that a change of
UIDVALIDITY clears; here it is compared with the recorded order of imports and
completed passes.
-/
namespace InboxNotificationRuns
open LabelledRuns InboxPython InboxMailbox InboxMailParser InboxTables InboxFolderSync
open InboxFolderSegments InboxFolderRuns InboxFolderConvergence

/- The log as it was when the latest pass began, and what was added since. -/
def beforePass : List Record → List Record
  | [] => []
  | .began :: older => older
  | _ :: older => beforePass older

def sincePass : List Record → List Record
  | [] => []
  | .began :: _ => []
  | r :: older => r :: sincePass older

def sinceSearch : List Record → List Record
  | [] => []
  | .searched _ _ :: _ => []
  | r :: older => r :: sinceSearch older

/- The message was imported by a pass that began after some pass had completed under
   the same UIDVALIDITY. -/
def ImportedAfterCompletion (log : List Record) (validity uid : Nat) : Prop :=
  ∃ newer uids older, log = newer ++ .imported validity uids :: older ∧ uid ∈ uids ∧
    .completed (some validity) ∈ beforePass older

/- The oldest occurrence of a record splits a log in only one way. -/
theorem oldest_split_unique {a : Record} {log n1 o1 n2 o2 : List Record}
    (eq1 : log = n1 ++ a :: o1) (eq2 : log = n2 ++ a :: o2) (last1 : a ∉ o1) (last2 : a ∉ o2) :
    o1 = o2 := by
  induction log generalizing n1 n2 with
  | nil => simp at eq1
  | cons r log ih =>
    rcases cons_split eq1 with ⟨_, rfl, rfl⟩ | ⟨n1', _, rest1⟩
    · rcases cons_split eq2 with ⟨_, _, rfl⟩ | ⟨n2', _, rest2⟩
      · rfl
      · exact absurd (rest2 ▸ by simp) last1
    · rcases cons_split eq2 with ⟨_, rfl, rfl⟩ | ⟨n2', _, rest2⟩
      · exact absurd (rest1 ▸ by simp) last2
      · exact ih rest1 rest2

theorem oldest_split_exists {a : Record} {log : List Record} (mem : a ∈ log) :
    ∃ newer older, log = newer ++ a :: older ∧ a ∉ older := by
  induction log with
  | nil => simp at mem
  | cons r log ih =>
    by_cases later : a ∈ log
    · obtain ⟨newer, older, eq, last⟩ := ih later
      exact ⟨r :: newer, older, by rw [eq, List.cons_append], last⟩
    · rcases List.mem_cons.mp mem with same | later'
      · exact ⟨[], log, by rw [same, List.nil_append], later⟩
      · exact absurd later' later

theorem before_pass_mem {r : Record} {log : List Record} (mem : r ∈ beforePass log) : r ∈ log := by
  induction log with
  | nil => exact mem
  | cons a log ih =>
    cases a with
    | began => exact List.mem_cons_of_mem _ mem
    | _ => exact List.mem_cons_of_mem _ (ih mem)

theorem mem_pass_cases {r : Record} {log : List Record} (mem : r ∈ log) :
    r ∈ sincePass log ∨ r = .began ∨ r ∈ beforePass log := by
  induction log with
  | nil => simp at mem
  | cons a log ih =>
    rcases List.mem_cons.mp mem with same | later
    · subst same
      cases r with
      | began => exact Or.inr (Or.inl rfl)
      | _ => exact Or.inl List.mem_cons_self
    · cases a with
      | began => exact Or.inr (Or.inr later)
      | _ =>
        rcases ih later with since | rest
        · exact Or.inl (List.mem_cons_of_mem _ since)
        · exact Or.inr rest

theorem other_record_import {r : Record} (notImport : ∀ v uids, r ≠ .imported v uids)
    (log : List Record) (validity uid : Nat) :
    ImportedAfterCompletion (r :: log) validity uid ↔
      ImportedAfterCompletion log validity uid := by
  constructor
  · intro imported
    obtain ⟨newer, uids, older, eq, rest⟩ := imported
    rcases cons_split eq with ⟨_, same, _⟩ | ⟨newer', _, eq'⟩
    · exact absurd same (notImport validity uids)
    · exact ⟨newer', uids, older, eq', rest⟩
  · intro imported
    obtain ⟨newer, uids, older, eq, rest⟩ := imported
    exact ⟨r :: newer, uids, older, by rw [eq, List.cons_append], rest⟩

/- Why a record may follow the older ones. A pass imports from its own snapshot, only
   what was not imported before and lies above every completed snapshot; a message that
   arrives is in no earlier snapshot. -/
def Follows (r : Record) (older : List Record) : Prop :=
  match r with
  | .imported v uids =>
      (∃ snapshot, lastSearch older = some (v, snapshot) ∧ ∀ uid ∈ uids, uid ∈ snapshot) ∧
      (∀ v', .completed v' ∉ sincePass older) ∧
      (∀ uids', .imported v uids' ∈ older → ∀ uid ∈ uids, uid ∉ uids') ∧
      ∀ n o snapshot, older = n ++ .completed (some v) :: o →
        lastSearch o = some (v, snapshot) → ∀ uid ∈ uids, uid ∉ snapshot
  | .arrived v uid => ∀ snapshot, .searched v snapshot ∈ older → uid ∉ snapshot
  | .completed v => ∃ validity snapshot, v = some validity ∧
      lastSearch older = some (validity, snapshot)
  | _ => True

def Justified : List Record → Prop
  | [] => True
  | r :: older => Follows r older ∧ Justified older

theorem justified_split {newer older : List Record} {r : Record}
    (justified : Justified (newer ++ r :: older)) : Follows r older := by
  induction newer with
  | nil => exact justified.1
  | cons a newer ih => exact ih justified.2

/- The invariant that ties the folder row and its messages to the log. -/
structure Notified (server : Mailbox) (used : List Nat) (db : FolderDb) (running : Bool)
    (log : List Record) : Prop where
  justified : Justified log
  history : db.folder.historyComplete = true ↔
    ∃ v, db.folder.lastUidvalidity = some v ∧ .completed (some v) ∈ log
  completedCurrent : ∀ v, .completed (some v) ∈ log → v ∈ used ∧
    (server.uidvalidity = v → db.folder.lastUidvalidity = some v)
  importedCurrent : ∀ v uids, .imported v uids ∈ log → v ∈ used ∧
    (server.uidvalidity = v → db.folder.lastUidvalidity = some v) ∧
    (db.folder.lastUidvalidity = some v → ∀ uid ∈ uids, uid ≤ db.folder.lastSeenUid)
  searchedCurrent : ∀ v snapshot, .searched v snapshot ∈ log → v ∈ used ∧
    (server.uidvalidity = v → ∀ uid ∈ snapshot, uid < server.uidNext)
  noneCompleted : running = true → ∀ v, .completed v ∉ sincePass log
  seen : ∀ v n o snapshot, log = n ++ .completed (some v) :: o →
    lastSearch o = some (v, snapshot) → db.folder.lastUidvalidity = some v →
    ∀ uid ∈ snapshot, uid ≤ db.folder.lastSeenUid
  imported : ∀ m, db.InFolder m → ∃ uids, .imported m.uidvalidity uids ∈ log ∧ m.uid ∈ uids
  eligible : ∀ m, db.InFolder m → (m.notificationEligible = true ↔
    ImportedAfterCompletion log m.uidvalidity m.uid)

theorem since_record {r : Record} (notBegan : r ≠ .began) (log : List Record) :
    sincePass (r :: log) = r :: sincePass log := by
  cases r <;> first | rfl | contradiction

/- A record that is neither an import nor a completion. -/
theorem notified_record {server : Mailbox} {used : List Nat} {db : FolderDb}
    {running running' : Bool} {log : List Record} {r : Record}
    (n : Notified server used db running log) (follows : Follows r log)
    (notCompleted : ∀ v, r ≠ .completed v) (notImported : ∀ v uids, r ≠ .imported v uids)
    (searched : ∀ v snapshot, r = .searched v snapshot → v ∈ used ∧
      (server.uidvalidity = v → ∀ uid ∈ snapshot, uid < server.uidNext))
    (active : running' = true → r = .began ∨ running = true) :
    Notified server used db running' (r :: log) := by
  have older : ∀ {a : Record}, r ≠ a → a ∈ r :: log → a ∈ log := by
    intro a ne mem
    exact (List.mem_cons.mp mem).resolve_left (Ne.symm ne)
  refine ⟨⟨follows, n.justified⟩, ?_, ?_, ?_, ?_, ?_, ?_, ?_, ?_⟩
  · rw [n.history]
    refine exists_congr fun v => and_congr_right fun _ => ?_
    exact ⟨List.mem_cons_of_mem _, older (notCompleted _)⟩
  · exact fun v mem => n.completedCurrent v (older (notCompleted _) mem)
  · exact fun v uids mem => n.importedCurrent v uids (older (notImported _ _) mem)
  · intro v snapshot mem
    rcases List.mem_cons.mp mem with same | mem
    · exact searched v snapshot same.symm
    · exact n.searchedCurrent v snapshot mem
  · intro now v mem
    by_cases began : r = .began
    · subst began
      simp [sincePass] at mem
    · rw [since_record began] at mem
      have before := (active now).resolve_left began
      exact n.noneCompleted before v ((List.mem_cons.mp mem).resolve_left (notCompleted v).symm)
  · intro v newer o snapshot eq
    rcases cons_split eq with ⟨_, same, _⟩ | ⟨newer', _, eq'⟩
    · exact absurd same (notCompleted _)
    · exact n.seen v newer' o snapshot eq'
  · intro m inside
    obtain ⟨uids, mem, uid⟩ := n.imported m inside
    exact ⟨uids, List.mem_cons_of_mem _ mem, uid⟩
  · intro m inside
    rw [n.eligible m inside, other_record_import notImported]

theorem notified_server {server s : Mailbox} {used : List Nat} {db : FolderDb} {running : Bool}
    {log : List Record} (n : Notified server used db running log) (evolves : Evolves server s) :
    Notified s used db running log := by
  have validity := evolves.validity
  refine ⟨n.justified, n.history, ?_, ?_, ?_, n.noneCompleted, n.seen, n.imported, n.eligible⟩
  · exact fun v mem => validity ▸ n.completedCurrent v mem
  · exact fun v uids mem => validity ▸ n.importedCurrent v uids mem
  · intro v snapshot mem
    obtain ⟨known, below⟩ := n.searchedCurrent v snapshot mem
    refine ⟨known, ?_⟩
    intro same uid inside
    exact Nat.lt_of_lt_of_le (below (validity ▸ same) uid inside) evolves.uidNext

theorem notified_reset {server s : Mailbox} {used : List Nat} {db : FolderDb} {running : Bool}
    {log : List Record} (n : Notified server used db running log)
    (fresh : s.uidvalidity ∉ used) :
    Notified s (s.uidvalidity :: used) db running log := by
  refine ⟨n.justified, n.history, ?_, ?_, ?_, n.noneCompleted, n.seen, n.imported, n.eligible⟩
  · intro v mem
    have known := (n.completedCurrent v mem).1
    exact ⟨List.mem_cons_of_mem _ known, fun same => absurd (same ▸ known) fresh⟩
  · intro v uids mem
    obtain ⟨known, _, below⟩ := n.importedCurrent v uids mem
    exact ⟨List.mem_cons_of_mem _ known, fun same => absurd (same ▸ known) fresh, below⟩
  · intro v snapshot mem
    have known := (n.searchedCurrent v snapshot mem).1
    exact ⟨List.mem_cons_of_mem _ known, fun same => absurd (same ▸ known) fresh⟩

theorem notified_begin {server : Mailbox} {used : List Nat} {db : FolderDb} {running : Bool}
    {log : List Record} (n : Notified server used db running log) :
    Notified server used db true (.began :: log) :=
  notified_record n trivial (by simp) (by simp) (by simp) fun _ => Or.inl rfl

theorem notified_abort {server : Mailbox} {used : List Nat} {db : FolderDb} {running : Bool}
    {log : List Record} (n : Notified server used db running log) :
    Notified server used db false (.aborted :: log) :=
  notified_record n trivial (by simp) (by simp) (by simp) fun active => by contradiction

theorem notified_arrive {server : Mailbox} {used : List Nat} {db : FolderDb} {running : Bool}
    {log : List Record} (n : Notified server used db running log) (gap : Nat)
    (content : Content) :
    Notified (server.arrive gap content) used db running
      (.arrived server.uidvalidity (server.uidNext + gap) :: log) := by
  refine notified_record (notified_server n (arrive_evolves server gap content)) ?_ (by simp)
    (by simp) (by simp) Or.inr
  intro snapshot mem inside
  have below := (n.searchedCurrent _ snapshot mem).2 rfl _ inside
  omega

theorem notified_select {server : Mailbox} {used : List Nat} {db : FolderDb} {running : Bool}
    {log : List Record} (n : Notified server used db running log) :
    Notified server used (afterSelect db server.uidvalidity) running log := by
  by_cases same : db.folder.lastUidvalidity = some server.uidvalidity
  · rw [select_same_validity same]
    exact n
  · obtain ⟨folder, empty⟩ := select_new_validity same
    have validity := select_validity db server.uidvalidity
    have noneCompleted : .completed (some server.uidvalidity) ∉ log :=
      fun mem => same ((n.completedCurrent _ mem).2 rfl)
    refine ⟨n.justified, ?_, ?_, ?_, n.searchedCurrent, n.noneCompleted, ?_,
      fun m inside => absurd inside (empty m), fun m inside => absurd inside (empty m)⟩
    · rw [folder]
      simp [noneCompleted]
    · exact fun v mem => ⟨(n.completedCurrent v mem).1, fun eq => eq ▸ validity⟩
    · intro v uids mem
      obtain ⟨known, current, _⟩ := n.importedCurrent v uids mem
      refine ⟨known, fun eq => eq ▸ validity, ?_⟩
      intro eq
      rw [validity, Option.some.injEq] at eq
      exact absurd (eq ▸ current eq) same
    · intro v newer o snapshot eq _ current
      rw [validity, Option.some.injEq] at current
      exact absurd (eq ▸ current ▸ by simp) noneCompleted

theorem notified_search {server : Mailbox} {used : List Nat} {db : FolderDb} {running : Bool}
    {log : List Record} (n : Notified server used db running log)
    (known : server.uidvalidity ∈ used) :
    Notified server used db running
      (.searched server.uidvalidity (listUids (searchAll server)) :: log) := by
  refine notified_record n trivial (by simp) (by simp) ?_ Or.inr
  intro v snapshot same
  rw [Record.searched.injEq] at same
  obtain ⟨rfl, rfl⟩ := same
  refine ⟨known, fun _ uid inside => ?_⟩
  exact (has_below_next (((search_ascending server).2 uid).mp inside)).2

/- The end of a segment: either the pass goes on, or history_complete is set. -/
theorem notified_ending {server : Mailbox} {used : List Nat} {middle db : FolderDb}
    {pass : Option Pc} {log : List Record} {remoteUids : List Nat} {afterUid : Nat}
    (n : Notified server used middle true log)
    (run : (db, pass) = reconcileAfter middle remoteUids afterUid)
    (sound : Sound ⟨server, used, db, pass, endRecords db pass ++ log⟩) :
    Notified server used db pass.isSome (endRecords db pass ++ log) := by
  rcases reconcile_cases middle remoteUids afterUid with ⟨_, eq⟩ | ⟨_, eq⟩
  · rw [eq, Prod.mk.injEq] at run
    obtain ⟨rfl, rfl⟩ := run
    obtain ⟨snapshot, logged, converged⟩ := sound.converged _ _ rfl
    have validity : middle.folder.lastUidvalidity = some server.uidvalidity := converged.validity
    have same : ∀ {v : Nat}, (Record.completed (some v)) ∈
        Record.completed middle.folder.lastUidvalidity :: log → v = server.uidvalidity ∨
          .completed (some v) ∈ log := by
      intro v mem
      rcases List.mem_cons.mp mem with eq | mem
      · rw [validity, Record.completed.injEq, Option.some.injEq] at eq
        exact Or.inl eq
      · exact Or.inr mem
    refine ⟨⟨⟨_, snapshot, validity, logged⟩, n.justified⟩, ?_, ?_, ?_, ?_,
      fun active => by contradiction, ?_, ?_, ?_⟩
    · refine ⟨fun _ => ⟨_, validity, ?_⟩, fun _ => rfl⟩
      rw [← validity]
      exact List.mem_cons_self
    · intro v mem
      rcases same mem with rfl | mem
      · exact ⟨sound.consistent.serverUsed, fun _ => validity⟩
      · exact n.completedCurrent v mem
    · exact fun v uids mem => n.importedCurrent v uids (by simpa [endRecords] using mem)
    · exact fun v s mem => n.searchedCurrent v s (by simpa [endRecords] using mem)
    · intro v newer o s eq last current
      rcases cons_split eq with ⟨_, _, rest⟩ | ⟨newer', _, eq'⟩
      · subst rest
        have one := Option.some.inj (logged.symm.trans last)
        exact (Prod.mk.inj one).2 ▸ converged.seen
      · exact n.seen v newer' o s eq' last current
    · intro m inside
      obtain ⟨uids, mem, uid⟩ := n.imported m inside
      exact ⟨uids, List.mem_cons_of_mem _ mem, uid⟩
    · intro m inside
      exact (n.eligible m inside).trans (other_record_import (by simp) log _ _).symm
  · rw [eq, Prod.mk.injEq] at run
    obtain ⟨rfl, rfl⟩ := run
    exact n

theorem mem_importedUids {db : FolderDb} {mb : Mailbox} {batch : List Nat} {uid : Nat} :
    uid ∈ importedUids db mb batch ↔ mb.Has uid ∧ uid ∈ batch ∧ ¬ db.Cached uid := by
  have fetched : uid ∈ (fetchHeaders (headerResponse mb batch)).map FetchedHeader.uid ↔
      mb.Has uid ∧ uid ∈ batch := by
    rw [List.mem_map]
    exact header_uids mb batch uid
  simp only [importedUids, List.mem_filter, fetched, decide_eq_true_eq, mem_cachedUids]
  tauto

/- The import of one batch, before it is known whether the pass goes on. -/
section Import
variable {Msg : Type} {email : EmailPackage Msg} {w : World} {remoteUids newUids : List Nat}
variable {added : List Message} {last : Nat} {middle : FolderDb}

/- A UID of the batch lies above everything imported under this UIDVALIDITY. -/
theorem batch_not_imported (n : Notified w.server w.used w.db true w.log)
    (i : Imported email w remoteUids newUids added last middle) {uids : List Nat} {uid : Nat}
    (record : .imported w.server.uidvalidity uids ∈ w.log)
    (batch : uid ∈ newUids.take syncBatchSize) : uid ∉ uids := by
  intro old
  have below := (n.importedCurrent _ uids record).2.2 i.snap.validity uid old
  have above := ((mem_batch email i uid).mp batch).2.1
  omega

theorem added_imported (i : Imported email w remoteUids newUids added last middle) {m : Message}
    (mem : m ∈ added) : m.uid ∈ importedUids w.db w.server (newUids.take syncBatchSize) := by
  obtain ⟨_, has, batch, fresh⟩ := added_row email i.spec mem
  exact mem_importedUids.mpr ⟨has, batch, fun known => fresh (mem_cachedUids.mpr ⟨known, batch⟩)⟩

theorem import_follows (n : Notified w.server w.used w.db true w.log)
    (i : Imported email w remoteUids newUids added last middle) :
    Follows (.imported w.server.uidvalidity
      (importedUids w.db w.server (newUids.take syncBatchSize))) w.log := by
  refine ⟨⟨remoteUids, i.snap.logged, ?_⟩, n.noneCompleted rfl, ?_, ?_⟩
  · intro uid mem
    exact ((mem_batch email i uid).mp (mem_importedUids.mp mem).2.1).1
  · intro uids record uid mem
    exact batch_not_imported n i record (mem_importedUids.mp mem).2.1
  · intro newer o snapshot eq logged uid mem old
    have below := n.seen _ newer o snapshot eq logged i.snap.validity uid old
    have above := ((mem_batch email i uid).mp (mem_importedUids.mp mem).2.1).2.1
    omega

/- A row that was there keeps its verdict: its UID is not in the batch. -/
theorem eligible_old (n : Notified w.server w.used w.db true w.log) {m : Message}
    (old : w.db.InFolder m) : m.notificationEligible = true ↔
      ImportedAfterCompletion (.imported w.server.uidvalidity
        (importedUids w.db w.server (newUids.take syncBatchSize)) :: w.log) m.uidvalidity m.uid := by
  rw [n.eligible m old]
  constructor
  · rintro ⟨newer, uids, older, eq, rest⟩
    exact ⟨_ :: newer, uids, older, by rw [eq, List.cons_append], rest⟩
  · rintro ⟨newer, uids, older, eq, uid, rest⟩
    rcases cons_split eq with ⟨_, same, _⟩ | ⟨newer', _, eq'⟩
    · rw [Record.imported.injEq] at same
      have fresh := (mem_importedUids.mp (same.2 ▸ uid)).2.2
      exact absurd ⟨m, old, rfl⟩ fresh
    · exact ⟨newer', uids, older, eq', uid, rest⟩

/- A new row takes history_complete, which is set exactly after a completed pass. -/
theorem eligible_new (n : Notified w.server w.used w.db true w.log)
    (i : Imported email w remoteUids newUids added last middle) {m : Message} (new : m ∈ added) :
    m.notificationEligible = true ↔
      ImportedAfterCompletion (.imported w.server.uidvalidity
        (importedUids w.db w.server (newUids.take syncBatchSize)) :: w.log) m.uidvalidity m.uid := by
  obtain ⟨⟨_, _, same, eligible⟩, _, batch, _⟩ := added_row email i.spec new
  rw [eligible, n.history, same]
  constructor
  · rintro ⟨v, current, done⟩
    rw [i.snap.validity, Option.some.injEq] at current
    subst current
    refine ⟨[], _, w.log, rfl, added_imported i new, ?_⟩
    rcases mem_pass_cases done with since | began | before
    · exact absurd since (n.noneCompleted rfl _)
    · contradiction
    · exact before
  · rintro ⟨newer, uids, older, eq, listed, before⟩
    rcases cons_split eq with ⟨_, _, rfl⟩ | ⟨newer', _, eq'⟩
    · exact ⟨_, i.snap.validity, before_pass_mem before⟩
    · have record : .imported w.server.uidvalidity uids ∈ w.log := by rw [eq']; simp
      exact absurd listed (batch_not_imported n i record batch)

theorem notified_import (n : Notified w.server w.used w.db true w.log)
    (known : w.server.uidvalidity ∈ w.used)
    (i : Imported email w remoteUids newUids added last middle) :
    Notified w.server w.used middle true (.imported w.server.uidvalidity
      (importedUids w.db w.server (newUids.take syncBatchSize)) :: w.log) := by
  have lastSeen : middle.folder.lastSeenUid = last := by rw [i.folder]
  have validity : middle.folder.lastUidvalidity = w.db.folder.lastUidvalidity := by rw [i.folder]
  have history : middle.folder.historyComplete = w.db.folder.historyComplete := by rw [i.folder]
  have grows := ((mem_batch email i last).mp (List.mem_of_getLast? i.isLast)).2.1
  refine ⟨⟨import_follows n i, n.justified⟩, ?_, ?_, ?_, ?_, ?_, ?_, ?_, ?_⟩
  · rw [history, validity, n.history]
    simp
  · intro v mem
    rw [validity]
    exact n.completedCurrent v (by simpa using mem)
  · intro v uids mem
    rw [validity, lastSeen]
    rcases List.mem_cons.mp mem with same | mem
    · rw [Record.imported.injEq] at same
      obtain ⟨rfl, rfl⟩ := same
      refine ⟨known, fun _ => i.snap.validity, fun _ uid new => ?_⟩
      exact ((mem_batch email i uid).mp (mem_importedUids.mp new).2.1).2.2
    · obtain ⟨known, current, below⟩ := n.importedCurrent v uids mem
      refine ⟨known, current, ?_⟩
      intro eq uid old
      have := below eq uid old
      omega
  · exact fun v s mem => n.searchedCurrent v s (by simpa using mem)
  · intro active v mem
    exact n.noneCompleted active v (by simpa [sincePass] using mem)
  · intro v newer o snapshot eq logged current
    rw [lastSeen]
    rcases cons_split eq with ⟨_, same, _⟩ | ⟨newer', _, eq'⟩
    · contradiction
    · intro uid mem
      have := n.seen v newer' o snapshot eq' logged (validity ▸ current) uid mem
      omega
  · intro m mem
    rcases (mem_imported email i).mp mem with old | ⟨new, _⟩
    · obtain ⟨uids, record, uid⟩ := n.imported m old
      exact ⟨uids, List.mem_cons_of_mem _ record, uid⟩
    · have same := (added_row email i.spec new).1.2.2.1
      exact ⟨_, same ▸ List.mem_cons_self, added_imported i new⟩
  · intro m mem
    rcases (mem_imported email i).mp mem with old | ⟨new, _⟩
    · exact eligible_old n old
    · exact eligible_new n i new

end Import

theorem notified_reconciled {server : Mailbox} {used : List Nat} {db : FolderDb}
    {running : Bool} {log : List Record} (n : Notified server used db running log)
    (remoteUids : List Nat) (afterUid : Nat) :
    Notified server used (reconciledDb server db remoteUids (nextMessages db afterUid)) running
      log := by
  have origin : ∀ m',
      (reconciledDb server db remoteUids (nextMessages db afterUid)).InFolder m' →
      ∃ m, db.InFolder m ∧ m'.uid = m.uid ∧ m'.uidvalidity = m.uidvalidity ∧
        m'.notificationEligible = m.notificationEligible := by
    intro m' inside
    obtain ⟨m, old, ⟨_, rfl⟩ | ⟨_, _, remote, _, rfl⟩⟩ := mem_reconciledDb.mp inside
    · exact ⟨m', old, rfl, rfl, rfl⟩
    · exact ⟨m, old, rfl, rfl, rfl⟩
  refine ⟨n.justified, n.history, n.completedCurrent, n.importedCurrent, n.searchedCurrent,
    n.noneCompleted, n.seen, ?_, ?_⟩
  · intro m' inside
    obtain ⟨m, old, uid, validity, _⟩ := origin m' inside
    rw [uid, validity]
    exact n.imported m old
  · intro m' inside
    obtain ⟨m, old, uid, validity, eligible⟩ := origin m' inside
    rw [uid, validity, eligible]
    exact n.eligible m old

/- Of every world: which rows are eligible, and what the log then tells of their mail. -/
def NotifiedWorld (w : World) : Prop :=
  Notified w.server w.used w.db w.pass.isSome w.log

variable {Msg : Type} (email : EmailPackage Msg)

theorem notified_call {w : World} (sound : Sound w) (n : NotifiedWorld w) {pc : Pc}
    (active : w.pass = some pc) : NotifiedWorld (callStep email w pc) := by
  have n : Notified w.server w.used w.db true w.log := by
    have same : w.pass.isSome = true := by rw [active]; rfl
    exact same ▸ n
  have known := sound.consistent.serverUsed
  have before := (sound.pass pc active).1
  have after := call_sound email sound active
  unfold NotifiedWorld
  unfold callStep at after ⊢
  cases answer : resume email w.server w.db pc with
  | error e => exact notified_abort n
  | ok out =>
    obtain ⟨db, pass⟩ := out
    rw [answer] at after
    simp only at after ⊢
    cases pc with
    | select =>
      rw [resume, Except.ok.injEq, Prod.mk.injEq] at answer
      obtain ⟨rfl, rfl⟩ := answer
      exact notified_select n
    | search validity =>
      obtain ⟨rfl, _⟩ := before
      have searched := notified_search n known
      rw [callRecords, List.append_assoc, List.singleton_append] at after ⊢
      have run := (Except.ok.inj answer).symm
      rcases search_cases w.db w.server.uidvalidity (listUids (searchAll w.server)) with
        ⟨_, eq⟩ | ⟨_, eq⟩
      · rw [eq] at run
        exact notified_ending searched run after
      · rw [eq, Prod.mk.injEq] at run
        obtain ⟨rfl, rfl⟩ := run
        exact searched
    | headers validity remoteUids newUids =>
      obtain ⟨rfl, snap, nonempty, new⟩ := before
      obtain ⟨added, last, middle, spec, isLast, folder, rows, ending⟩ :=
        after_headers_ok email nonempty answer
      have imported := notified_import n known
        (⟨snap, new, spec, isLast, folder, rows⟩ : Imported email w remoteUids newUids added last middle)
      rw [callRecords, List.append_assoc, List.singleton_append] at after ⊢
      rcases ending with ⟨_, run⟩ | ⟨_, run⟩
      · exact notified_ending imported run after
      · rw [Prod.mk.injEq] at run
        obtain ⟨rfl, rfl⟩ := run
        exact imported
    | flags remoteUids messages =>
      obtain ⟨_, _, afterUid, _, _, rfl⟩ := before
      simp only [callRecords, List.append_nil] at after ⊢
      exact notified_ending (notified_reconciled n remoteUids afterUid)
        (Except.ok.inj answer).symm after

theorem notified_next {w w' : World} {l : Label} (sound : Sound w) (n : NotifiedWorld w)
    (step : next email w l = some w') : NotifiedWorld w' := by
  cases l with
  | arrive gap content =>
    rw [next, Option.some.injEq] at step
    exact step ▸ notified_arrive n gap content
  | expunge uid =>
    rw [next, Option.some.injEq] at step
    exact step ▸ notified_record (notified_server n (expunge_evolves w.server uid)) trivial
      (by simp) (by simp) (by simp) Or.inr
  | changeFlags uid flags =>
    rw [next, Option.some.injEq] at step
    exact step ▸ notified_record (notified_server n (change_flags_evolves w.server uid flags))
      trivial (by simp) (by simp) (by simp) Or.inr
  | reset mailbox =>
    rw [next] at step
    split at step
    · rename_i allowed
      rw [Option.some.injEq] at step
      exact step ▸ notified_record (notified_reset n allowed.2) trivial (by simp) (by simp)
        (by simp) Or.inr
    · contradiction
  | begin =>
    rw [next] at step
    split at step
    · rw [Option.some.injEq] at step
      exact step ▸ notified_begin n
    · contradiction
  | call =>
    obtain ⟨pc, active, rfl⟩ := Option.map_eq_some_iff.mp step
    exact notified_call email sound n active
  | abort =>
    obtain ⟨pc, _, rfl⟩ := Option.map_eq_some_iff.mp step
    exact notified_abort n

/- A folder row as discovery inserts it. -/
structure Fresh (w : World) : Prop extends Start w where
  never : w.db.folder.lastUidvalidity = none
  incomplete : w.db.folder.historyComplete = false

theorem fresh_notified {w : World} (fresh : Fresh w) : NotifiedWorld w := by
  have empty : ∀ m, ¬ w.db.InFolder m := by
    intro m inside
    have := fresh.consistent.current m inside
    rw [fresh.never] at this
    contradiction
  unfold NotifiedWorld
  rw [fresh.unobserved]
  refine ⟨trivial, ?_, by simp, by simp, by simp, by simp [sincePass], by simp,
    fun m inside => absurd inside (empty m), fun m inside => absurd inside (empty m)⟩
  rw [fresh.incomplete]
  simp

theorem run_notified {w0 w : World} {labels : List Label} (fresh : Fresh w0)
    (run : replay (next email) w0 labels = some w) : NotifiedWorld w := by
  have both : Sound w ∧ NotifiedWorld w := by
    refine replay_invariant (fun u => Sound u ∧ NotifiedWorld u)
      ⟨start_sound fresh.toStart, fresh_notified fresh⟩ ?_ run
    intro t l u before step
    exact ⟨next_sound email before.1 step, notified_next email before.1 before.2 step⟩
  exact both.2

/- Two records of one log: one is older than the other, or they are the same. -/
theorem log_positions {x y : Record} {n1 o1 n2 o2 : List Record}
    (eq : n1 ++ x :: o1 = n2 ++ y :: o2) :
    (x = y ∧ o1 = o2) ∨ (∃ k, o1 = k ++ y :: o2) ∨ ∃ k, o2 = k ++ x :: o1 := by
  rcases List.append_eq_append_iff.mp eq with ⟨k, _, later⟩ | ⟨k, _, later⟩
  · rcases cons_split later with ⟨_, same, rest⟩ | ⟨k', _, rest⟩
    · exact Or.inl ⟨same, rest⟩
    · exact Or.inr (Or.inl ⟨k', rest⟩)
  · rcases cons_split later with ⟨_, same, rest⟩ | ⟨k', _, rest⟩
    · exact Or.inl ⟨same.symm, rest.symm⟩
    · exact Or.inr (Or.inr ⟨k', rest⟩)

theorem last_search_split {log : List Record} {v : Nat} {snapshot : List Nat}
    (last : lastSearch log = some (v, snapshot)) :
    ∃ older, log = sinceSearch log ++ .searched v snapshot :: older := by
  induction log with
  | nil => contradiction
  | cons r log ih =>
    cases r with
    | searched v' snapshot' =>
      rw [lastSearch, Option.some.injEq, Prod.mk.injEq] at last
      obtain ⟨rfl, rfl⟩ := last
      exact ⟨log, rfl⟩
    | _ =>
      obtain ⟨older, eq⟩ := ih last
      exact ⟨older, congrArg (List.cons _) eq⟩

theorem since_search_not_searched {log : List Record} {v : Nat} {snapshot : List Nat} :
    .searched v snapshot ∉ sinceSearch log := by
  induction log with
  | nil => simp [sinceSearch]
  | cons r log ih =>
    cases r with
    | searched _ _ => simp [sinceSearch]
    | _ =>
      intro mem
      rcases List.mem_cons.mp mem with same | later
      · contradiction
      · exact ih later

theorem since_search_prefix (log : List Record) : ∃ rest, log = sinceSearch log ++ rest := by
  induction log with
  | nil => exact ⟨[], rfl⟩
  | cons r log ih =>
    obtain ⟨rest, eq⟩ := ih
    cases r with
    | searched v snapshot => exact ⟨.searched v snapshot :: log, rfl⟩
    | _ => exact ⟨rest, congrArg (List.cons _) eq⟩

/- A completion older than an import lies before the pass of the import began. -/
theorem completion_before_pass {r : Record} {log newer older : List Record} {v : Nat}
    {uids : List Nat} (justified : Justified log)
    (eq : log = newer ++ .imported v uids :: older) (done : r = .completed (some v))
    (mem : r ∈ older) : .completed (some v) ∈ beforePass older := by
  subst done
  have follows := justified_split (eq ▸ justified)
  rcases mem_pass_cases mem with since | began | before
  · exact absurd since (follows.2.1 _)
  · contradiction
  · exact before

/- A message of the first completed snapshot is imported before that pass completes. -/
theorem snapshot_import_not_later {log newer older : List Record} {v uid : Nat}
    {snapshot : List Nat} (justified : Justified log)
    (first : log = newer ++ .completed (some v) :: older)
    (oldest : .completed (some v) ∉ older) (search : lastSearch older = some (v, snapshot))
    (inside : uid ∈ snapshot) : ¬ ImportedAfterCompletion log v uid := by
  rintro ⟨newer', uids, older', eq, listed, before⟩
  have follows := justified_split (eq ▸ justified)
  obtain ⟨n, o, split, last⟩ := oldest_split_exists (before_pass_mem before)
  have again : log = (newer' ++ .imported v uids :: n) ++ .completed (some v) :: o := by
    rw [eq, split, List.append_assoc, List.cons_append]
  have same : older = o := oldest_split_unique first again oldest last
  subst same
  exact follows.2.2.2 n older snapshot split search uid listed inside

/- A message that arrives after that snapshot is imported by a later pass. -/
theorem arrival_imported_later {log newer older : List Record} {v uid : Nat} {uids : List Nat}
    (justified : Justified log) (first : log = newer ++ .completed (some v) :: older)
    (arrived : .arrived v uid ∈ newer ∨ .arrived v uid ∈ sinceSearch older)
    (imported : .imported v uids ∈ log) (listed : uid ∈ uids) :
    ImportedAfterCompletion log v uid := by
  obtain ⟨newer', older', eq⟩ := List.append_of_mem imported
  have follows := justified_split (eq ▸ justified)
  obtain ⟨snapshot, last, known⟩ := follows.1
  obtain ⟨beforeSearch, split⟩ := last_search_split last
  -- the arrival is older than the SEARCH that found the message
  have searchLater : ∀ n o, log = n ++ .arrived v uid :: o → .searched v snapshot ∉ o := by
    intro n o position mem
    have arrival : Follows (.arrived v uid) o := justified_split (position ▸ justified)
    exact arrival snapshot mem (known uid listed)
  have whole : log = (newer' ++ .imported v uids :: sinceSearch older') ++
      .searched v snapshot :: beforeSearch := by
    rw [eq, List.append_assoc, List.cons_append, ← split]
  refine ⟨newer', uids, older', eq, listed, completion_before_pass justified eq rfl ?_⟩
  rw [first] at whole
  rcases log_positions whole with ⟨impossible, _⟩ | ⟨k, searchOlder⟩ | ⟨k, older_eq⟩
  · contradiction
  · exfalso
    -- the SEARCH is the completed pass's own or an earlier one
    rcases arrived with arrived | arrived
    · obtain ⟨a, b, position⟩ := List.append_of_mem arrived
      refine searchLater a (b ++ .completed (some v) :: older) ?_ ?_
      · rw [first, position, List.append_assoc, List.cons_append]
      · rw [searchOlder]
        simp
    · obtain ⟨a, b, position⟩ := List.append_of_mem arrived
      have found : ∃ b', older = a ++ .arrived v uid :: b' ∧ .searched v snapshot ∈ b' := by
        obtain ⟨c, whole⟩ := since_search_prefix older
        refine ⟨b ++ c, ?_, ?_⟩
        · rw [whole, position]
          simp
        · have mem : .searched v snapshot ∈ sinceSearch older ++ c := by
            rw [← whole, searchOlder]
            simp
          rcases List.mem_append.mp mem with since | inC
          · exact absurd since since_search_not_searched
          · exact List.mem_append_right _ inC
      obtain ⟨b', position', mem⟩ := found
      refine searchLater (newer ++ .completed (some v) :: a) b' ?_ mem
      rw [first, position', List.append_assoc, List.cons_append]
  · have later : (.completed (some v)) ∈ beforeSearch := by
      rw [older_eq]
      simp
    rw [split]
    exact List.mem_append_right _ (List.mem_cons_of_mem _ later)

/- A row is eligible exactly when a pass imported it that began after a completed pass
   of the current UIDVALIDITY: nothing of the first completed snapshot is, everything
   that arrives after that snapshot is. -/
theorem notifications_follow_completion {w0 w : World} {labels : List Label} (fresh : Fresh w0)
    (run : replay (next email) w0 labels = some w) :
    (∀ m, w.db.InFolder m → w.db.folder.lastUidvalidity = some m.uidvalidity ∧
      (m.notificationEligible = true ↔
        ImportedAfterCompletion w.log m.uidvalidity m.uid)) ∧
    ∀ newer older v, w.log = newer ++ .completed (some v) :: older →
      .completed (some v) ∉ older →
      ∃ snapshot, lastSearch older = some (v, snapshot) ∧
        (∀ m, w.db.InFolder m → m.uidvalidity = v → m.uid ∈ snapshot →
          m.notificationEligible = false) ∧
        ∀ m, w.db.InFolder m → m.uidvalidity = v →
          (.arrived v m.uid ∈ newer ∨ .arrived v m.uid ∈ sinceSearch older) →
          m.notificationEligible = true := by
  have sound := run_sound email fresh.toStart run
  have n : Notified w.server w.used w.db w.pass.isSome w.log := run_notified email fresh run
  constructor
  · intro m inside
    exact ⟨sound.consistent.current m inside, n.eligible m inside⟩
  · intro newer older v first oldest
    have completion : Follows (.completed (some v)) older :=
      justified_split (first ▸ n.justified)
    obtain ⟨validity, snapshot, same, search⟩ := completion
    rw [Option.some.injEq] at same
    subst same
    refine ⟨snapshot, search, ?_, ?_⟩
    · intro m inside current listed
      have notLater :=
        snapshot_import_not_later n.justified first oldest search listed
      rw [← current, ← n.eligible m inside] at notLater
      exact Bool.eq_false_iff.mpr notLater
    · intro m inside current arrived
      obtain ⟨uids, imported, listed⟩ := n.imported m inside
      rw [n.eligible m inside, current]
      exact arrival_imported_later n.justified first arrived (current ▸ imported) listed

/- A message arrives while the first pass imports; the second pass caches it. -/
def backfillLabels : List Label :=
  [.begin, .call, .call, .arrive 3 plainContent, .call, .call, .begin, .call, .call, .call, .call]

theorem fresh_world_fresh : Fresh freshWorld := ⟨fresh_world_start, rfl, rfl⟩

theorem backfill_outcome : (replay (next emptyHeaderEmail) freshWorld backfillLabels).map
    (fun w => (w.log, w.db.folder.id,
      w.db.messages.rows.map fun m => (m.folderId, m.uidvalidity, m.uid))) =
    some ([.completed (some 7), .imported 7 [8], .searched 7 [2, 4, 8], .began,
      .completed (some 7), .imported 7 [2, 4], .arrived 7 8, .searched 7 [2, 4], .began],
      1, [(1, 7, 2), (1, 7, 4), (1, 7, 8)]) := rfl

theorem notifications_follow_completion_backfill : ∃ w,
    replay (next emptyHeaderEmail) freshWorld backfillLabels = some w ∧
      w.db.messages.rows.map (fun m => m.uid) = [2, 4, 8] ∧
      (∀ m ∈ w.db.messages.rows, m.uid = 8 → m.notificationEligible = true) ∧
      ∀ m ∈ w.db.messages.rows, m.uid = 2 ∨ m.uid = 4 → m.notificationEligible = false := by
  obtain ⟨w, run, outcome⟩ := Option.map_eq_some_iff.mp backfill_outcome
  obtain ⟨log, tables⟩ := Prod.mk.inj outcome
  obtain ⟨folder, rows⟩ := Prod.mk.inj tables
  obtain ⟨all, first⟩ := notifications_follow_completion emptyHeaderEmail fresh_world_fresh run
  obtain ⟨snapshot, search, old, new⟩ := first
    [.completed (some 7), .imported 7 [8], .searched 7 [2, 4, 8], .began]
    [.imported 7 [2, 4], .arrived 7 8, .searched 7 [2, 4], .began] 7 log (by simp)
  have two : snapshot = [2, 4] := congrArg Prod.snd (Option.some.inj search).symm
  subst two
  have inside : ∀ m ∈ w.db.messages.rows, w.db.InFolder m ∧ m.uidvalidity = 7 := by
    intro m mem
    have listed : (m.folderId, m.uidvalidity, m.uid) ∈
        w.db.messages.rows.map fun m => (m.folderId, m.uidvalidity, m.uid) :=
      List.mem_map_of_mem mem
    rw [rows] at listed
    simp only [List.mem_cons, Prod.mk.injEq, List.not_mem_nil, or_false] at listed
    exact ⟨⟨mem, by omega⟩, by omega⟩
  have uids := congrArg (List.map fun row : Nat × Nat × Nat => row.2.2) rows
  rw [List.map_map] at uids
  refine ⟨w, run, uids, ?_, ?_⟩
  · intro m mem uid
    exact new m (inside m mem).1 (inside m mem).2 (Or.inr (by rw [uid]; decide))
  · intro m mem uid
    exact old m (inside m mem).1 (inside m mem).2 (by simpa using uid)

end InboxNotificationRuns
