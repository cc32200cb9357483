import InboxOne.Cache
import InboxOne.FolderPasses
import InboxOne.Watcher

/-!
`sync_account`: it connects, discovers the folders and passes over each selected one, all
in one session of the database. A folder whose pass raises is rolled back, which drops
what the session had not committed. The field `attempts` only observes the loop.
-/
namespace InboxSyncAccount
open InboxPython InboxMailbox InboxMailParser InboxTables InboxFolderSync InboxFolderSegments
open InboxCache InboxFolderPasses InboxWatcher

def typeName : PyException → String
  | .valueError _ => "ValueError"
  | .typeError _ => "TypeError"
  | .overflowError => "OverflowError"
  | .stopIteration => "StopIteration"
  | .integrityError => "IntegrityError"
  | .connectionError => "ConnectionError"
  | .imapClientError => "IMAPClientError"
  | .messageNotFound => "MessageNotFoundError"
  | .http _ _ => "HTTPException"

/-- What is committed, and what the session would commit next. -/
structure Session where
  stored : Cache
  working : Cache

def Session.rollback (s : Session) : Session := ⟨s.stored, s.stored⟩

/-- How the mail server answers. The pass over a path gets these answers; the call after
the last of them raises an exception of the given type, and `unsaved` is what the segment
that raised has changed in the session. -/
structure Provider where
  connect : Option String
  listFolders : Except String (List String)
  answers : String → List Mailbox
  breaks : String → String
  unsaved : String → Cache → Cache

/-- The calls of live.account_errors.pop, live.synced and live.sync_failed. -/
inductive LiveCall where
  | cleared
  | synced (folderId : Nat)
  | failed (folderId : Option Nat) (error : String)
  deriving DecidableEq, Repr

structure Sync where
  session : Session
  attempts : List Nat
  errors : List String
  live : List LiveCall

structure AccountStatus where
  id : Nat
  isActive : Bool
  lastSyncStatus : Option String
  lastSyncError : Option String
  deriving DecidableEq, Repr

structure State where
  account : AccountStatus
  cache : Cache

variable {Msg : Type} (email : EmailPackage Msg) (provider : Provider)

def passOf (c : Cache) (f : Folder) : Progress :=
  runPass (resume email) (provider.answers f.imapPath) (.waiting (c.view f) .select)

/- The type of the exception that ends a pass early. -/
def passError (path : String) : Progress → Option String
  | .completed _ => none
  | .failed _ e => some (typeName e)
  | .waiting _ _ => some (provider.breaks path)

/-- `_sync_folder` on the session: every segment of the pass ends in a commit. -/
def syncFolder (s : Session) (f : Folder) : Session × Option String :=
  let progress := passOf email provider s.working f
  let committed := s.working.write progress.db
  match passError provider f.imapPath progress with
  | none => (⟨committed, committed⟩, none)
  | some e => (⟨committed, provider.unsaved f.imapPath committed⟩, some e)

/- One round of the loop over the folders. -/
def syncOne (s : Sync) (folderId : Nat) : Sync :=
  match s.session.working.folderById folderId with
  | none => s
  | some f =>
      match syncFolder email provider s.session f with
      | (session, none) =>
          { session := session
            attempts := s.attempts ++ [folderId]
            errors := s.errors
            live := s.live ++ [.synced folderId] }
      | (session, some e) =>
          { session := session.rollback
            attempts := s.attempts ++ [folderId]
            errors := s.errors ++ [f.imapPath ++ ": " ++ safeError e]
            live := s.live ++ [.failed (some folderId) (safeError e)] }

/- Folders outside the scope are skipped, unless they were just discovered. -/
def skipped (scope : Option (Finset Nat)) (existing : List Nat) (folderId : Nat) : Bool :=
  match scope with
  | none => false
  | some ids => folderId ∉ ids ∧ folderId ∈ existing

def folderIdsOf (c : Cache) (account : Nat) : List Nat :=
  (c.folders.filter fun f => f.accountId = account).map Folder.id

def folderAt (c : Cache) (account : Nat) (path : String) : Option Folder :=
  c.folders.find? fun f => f.accountId = account ∧ f.imapPath = path

/-- `_discover_folders`, or the folders that are known already. -/
def discoverFolders (c : Cache) (account : Nat) (discover : Bool) :
    Except String (Cache × List Nat) :=
  if discover then
    match provider.listFolders with
    | .error e => .error e
    | .ok paths =>
        let found := c.discover account paths
        .ok (found, (sortedPaths paths).filterMap fun path =>
          (folderAt found account path).map Folder.id)
  else .ok (c, folderIdsOf c account)

/- The outer handler: nothing of the account was synchronised. -/
def failedSync (c : Cache) (e : String) : Sync :=
  ⟨⟨c, c⟩, [], [safeError e], [.failed none (safeError e)]⟩

def syncFolders (c : Cache) (account : Nat) (scope : Option (Finset Nat)) (discover : Bool) :
    Sync :=
  match provider.connect with
  | some e => failedSync c e
  | none =>
      match discoverFolders provider c account discover with
      | .error e => failedSync c e
      | .ok (found, discovered) =>
          (discovered.filter fun id => !skipped scope (folderIdsOf c account) id).foldl
            (syncOne email provider) ⟨⟨found, found⟩, [], [], [.cleared]⟩

/-- `sync_account` for an account row; an inactive account is left alone. What LOGOUT
answers is only logged. -/
def syncAccount (s : State) (scope : Option (Finset Nat)) (discover : Bool) : State × Sync :=
  if s.account.isActive then
    let sync := syncFolders email provider s.cache s.account.id scope discover
    ({ account := { s.account with
        lastSyncStatus := some (if sync.errors = [] then "ok" else "error")
        lastSyncError := if sync.errors = [] then none else some ("; ".intercalate sync.errors) }
       cache := sync.session.stored }, sync)
  else (s, ⟨⟨s.cache, s.cache⟩, [], [], []⟩)

/-- The folder row and its rows, apart from their keys, are those of this pass. -/
structure EndsAs (c : Cache) (folderId : Nat) (db : FolderDb) : Prop where
  folder : c.folderById folderId = some db.folder
  rows : contents c.messages folderId = contents db.messages folderId

theorem view_alike {c c' : Cache} {f : Folder}
    (rows : contents c.messages f.id = contents c'.messages f.id) :
    (Progress.waiting (c.view f) .select).Alike (.waiting (c'.view f) .select) :=
  ⟨⟨rfl, rows⟩, rfl, trivial, trivial⟩

/- The pass over a folder looks only at the folder's own rows. -/
theorem pass_of_alike {c c' : Cache} {f : Folder}
    (rows : contents c.messages f.id = contents c'.messages f.id) :
    (passOf email provider c f).Alike (passOf email provider c' f) :=
  pass_alike email (view_alike rows) _

theorem pass_error_alike {p q : Progress} (alike : p.Alike q) (path : String) :
    passError provider path p = passError provider path q := by
  cases p with
  | waiting _ _ =>
    cases q with
    | waiting _ _ => rfl
    | completed _ | failed _ _ => exact alike.elim
  | completed _ =>
    cases q with
    | completed _ => rfl
    | waiting _ _ | failed _ _ => exact alike.elim
  | failed _ e =>
    cases q with
    | failed _ e' => exact congrArg (fun e => some (typeName e)) alike.2
    | waiting _ _ | completed _ => exact alike.elim

theorem write_ends {c : Cache} {f : Folder} (mem : f ∈ c.folders) {db : FolderDb}
    (within : Within (c.view f) db) :
    EndsAs (c.write db) f.id db ∧ ∀ folderId, folderId ≠ f.id →
      (c.write db).folderById folderId = c.folderById folderId ∧
        contents (c.write db).messages folderId = contents c.messages folderId := by
  have own : db.folder.id = f.id := within_id within
  constructor
  · refine ⟨folder_by_id_eq.mpr ⟨List.mem_map.mpr ⟨f, mem, ?_⟩, own⟩, rfl⟩
    have columns := within.columns
    rw [progressOf, if_pos own.symm]
    exact columns.symm
  · intro folderId other
    refine ⟨?_, within.others folderId other⟩
    have still : ∀ g : Folder, g.id = folderId → progressOf db g = g := fun g same =>
      if_neg (by rw [same, own]; exact other)
    apply Option.ext
    intro g
    rw [folder_by_id_eq, folder_by_id_eq]
    constructor
    · rintro ⟨listed, same⟩
      obtain ⟨old, oldMem, eq⟩ := List.mem_map.mp listed
      have key : old.id = folderId := by rw [← same, ← eq, progress_id]
      rw [still old key] at eq
      exact ⟨eq ▸ oldMem, same⟩
    · rintro ⟨old, same⟩
      exact ⟨List.mem_map.mpr ⟨g, old, still g same⟩, same⟩

/- Between two folders the session has nothing left to commit. -/
def Clean (s : Sync) : Prop := s.session.working = s.session.stored

/- A folder is as it was. -/
def Untouched (c c' : Cache) (folderId : Nat) : Prop :=
  c'.folderById folderId = c.folderById folderId ∧
    contents c'.messages folderId = contents c.messages folderId

theorem sync_one_missing {s : Sync} (clean : Clean s) {folderId : Nat}
    (missing : s.session.stored.folderById folderId = none) :
    syncOne email provider s folderId = s := by
  unfold syncOne
  rw [clean, missing]

/-- What one round does to the committed tables, whether or not the pass raises. -/
structure Round (s s' : Sync) (f : Folder) : Prop where
  clean : Clean s'
  attempts : s'.attempts = s.attempts ++ [f.id]
  ends : EndsAs s'.session.stored f.id (passOf email provider s.session.stored f).db
  others : ∀ folderId, folderId ≠ f.id → Untouched s.session.stored s'.session.stored folderId
  errors : s'.errors = [] ↔ s.errors = [] ∧
    passError provider f.imapPath (passOf email provider s.session.stored f) = none

theorem sync_one_round {s : Sync} (clean : Clean s) {f : Folder}
    (mem : f ∈ s.session.stored.folders) :
    Round email provider s (syncOne email provider s f.id) f := by
  have found : s.session.stored.folderById f.id = some f := folder_by_id_eq.mpr ⟨mem, rfl⟩
  have page : (Progress.waiting (s.session.stored.view f) .select).PageWithin := trivial
  obtain ⟨ends, others⟩ := write_ends mem (pass_within email page (provider.answers f.imapPath))
  unfold syncOne syncFolder
  rw [clean, found]
  dsimp only
  cases result : passError provider f.imapPath (passOf email provider s.session.stored f) with
  | none => exact ⟨rfl, rfl, ends, others, by simp [result]⟩
  | some e => exact ⟨rfl, rfl, ends, others, by simp [result]⟩

theorem ends_alike {c : Cache} {folderId : Nat} {a b : FolderDb} (ends : EndsAs c folderId a)
    (alike : InboxFolderPasses.Alike a b) : EndsAs c folderId b := by
  have key : a.folder.id = folderId := (folder_by_id_eq.mp ends.folder).2
  have rows := alike.rows
  rw [← alike.folder, key] at rows
  exact ⟨alike.folder ▸ ends.folder, ends.rows.trans rows⟩

theorem ends_untouched {c c' : Cache} {folderId : Nat} {db : FolderDb}
    (ends : EndsAs c folderId db) (same : Untouched c c' folderId) : EndsAs c' folderId db :=
  ⟨same.1.trans ends.folder, same.2.trans ends.rows⟩

/- The loop: every folder ends as its own pass from the tables before the loop. -/
structure Looped (s s' : Sync) (ids : List Nat) : Prop where
  clean : Clean s'
  attempts : s'.attempts = s.attempts ++
    ids.filter fun id => (s.session.stored.folderById id).isSome
  ends : ∀ f ∈ s.session.stored.folders, f.id ∈ ids →
    EndsAs s'.session.stored f.id (passOf email provider s.session.stored f).db
  others : ∀ folderId, folderId ∉ ids → Untouched s.session.stored s'.session.stored folderId
  errors : s'.errors = [] ↔ s.errors = [] ∧ ∀ f ∈ s.session.stored.folders, f.id ∈ ids →
    passError provider f.imapPath (passOf email provider s.session.stored f) = none

theorem loop_folders (ids : List Nat) (nodup : ids.Nodup) {s : Sync} (clean : Clean s) :
    Looped email provider s (ids.foldl (syncOne email provider) s) ids := by
  induction ids generalizing s with
  | nil => exact ⟨clean, by simp, by simp, fun _ _ => ⟨rfl, rfl⟩, by simp⟩
  | cons id rest ih =>
    obtain ⟨notLater, later⟩ := List.nodup_cons.mp nodup
    rw [List.foldl_cons]
    cases found : s.session.stored.folderById id with
    | none =>
      rw [sync_one_missing email provider clean found]
      have looped := ih later clean
      have absent : ∀ f ∈ s.session.stored.folders, f.id ∈ id :: rest → f.id ∈ rest := by
        intro f mem listed
        rcases List.mem_cons.mp listed with same | inRest
        · rw [folder_by_id_eq.mpr ⟨mem, same⟩] at found
          contradiction
        · exact inRest
      constructor
      · exact looped.clean
      · rw [looped.attempts]
        simp [found]
      · exact fun f mem listed => looped.ends f mem (absent f mem listed)
      · exact fun folderId outside =>
          looped.others folderId fun inRest => outside (List.mem_cons_of_mem _ inRest)
      · rw [looped.errors]
        refine and_congr_right fun _ => forall₂_congr fun f mem => ?_
        exact ⟨fun all listed => all (absent f mem listed),
          fun all inRest => all (List.mem_cons_of_mem _ inRest)⟩
    | some f =>
      obtain ⟨mem, rfl⟩ := folder_by_id_eq.mp found
      have round := sync_one_round email provider clean mem
      have looped := ih later round.clean
      -- a later folder is still the one from before the round
      have others : ∀ id ∈ rest, id ≠ f.id := fun id inRest eq => notLater (eq ▸ inRest)
      have still : ∀ g : Folder, g.id ∈ rest →
          (g ∈ (syncOne email provider s f.id).session.stored.folders ↔
            g ∈ s.session.stored.folders) := by
        intro g inRest
        have row := (round.others g.id (others g.id inRest)).1
        have here : s.session.stored.folderById g.id = some g ↔
            g ∈ s.session.stored.folders ∧ g.id = g.id := folder_by_id_eq
        rw [← row, folder_by_id_eq] at here
        simpa using here
      have alike : ∀ g : Folder, g.id ∈ rest →
          (passOf email provider (syncOne email provider s f.id).session.stored g).Alike
            (passOf email provider s.session.stored g) := fun g inRest =>
        pass_of_alike email provider (round.others g.id (others g.id inRest)).2
      have unique : ∀ g ∈ s.session.stored.folders, g.id = f.id → g = f := fun g gMem eq =>
        List.inj_on_of_nodup_map s.session.stored.folderKeys gMem mem eq
      constructor
      · exact looped.clean
      · rw [looped.attempts, round.attempts, List.append_assoc,
          List.filter_cons_of_pos (by rw [found]; rfl), List.singleton_append]
        congr 2
        apply List.filter_congr
        intro other inRest
        rw [(round.others other (others other inRest)).1]
      · intro g gMem listed
        rcases List.mem_cons.mp listed with eq | inRest
        · rw [unique g gMem eq]
          exact ends_untouched round.ends (looped.others f.id notLater)
        · exact ends_alike (looped.ends g ((still g inRest).mpr gMem) inRest)
            (progress_alike_db (alike g inRest))
      · intro folderId outside
        obtain ⟨differs, notRest⟩ := not_or.mp fun inside => outside (List.mem_cons.mpr inside)
        have first := round.others folderId differs
        have second := looped.others folderId notRest
        exact ⟨second.1.trans first.1, second.2.trans first.2⟩
      · rw [looped.errors, round.errors, and_assoc]
        refine and_congr_right fun _ => ?_
        constructor
        · rintro ⟨own, restOk⟩ g gMem listed
          rcases List.mem_cons.mp listed with eq | inRest
          · rw [unique g gMem eq]
            exact own
          · rw [← pass_error_alike provider (alike g inRest)]
            exact restOk g ((still g inRest).mpr gMem) inRest
        · intro all
          refine ⟨all f mem List.mem_cons_self, fun g gMem inRest => ?_⟩
          rw [pass_error_alike provider (alike g inRest)]
          exact all g ((still g inRest).mp gMem) (List.mem_cons_of_mem _ inRest)

/-- The folders that a run selects once discovery has found `found`: all of the account for
no scope, otherwise those in scope and those of paths that had no folder before. -/
def Selected (c found : Cache) (account : Nat) (scope : Option (Finset Nat)) (f : Folder) : Prop :=
  f ∈ found.folders ∧ f.accountId = account ∧
    (scope = none ∨ (∃ ids, scope = some ids ∧ f.id ∈ ids) ∨
      ∀ g ∈ c.folders, ¬ (g.accountId = account ∧ g.imapPath = f.imapPath))

/-- What discovery hands to the loop. -/
structure Discovered (c found : Cache) (account : Nat) (discovered : List Nat) : Prop where
  nodup : discovered.Nodup
  listed : ∀ id, id ∈ discovered ↔ ∃ f ∈ found.folders, f.id = id ∧ f.accountId = account
  known : ∀ f ∈ found.folders, f.accountId = account →
    (f.id ∈ folderIdsOf c account ↔ ∃ g ∈ c.folders, g.accountId = account ∧
      g.imapPath = f.imapPath)

theorem mem_folder_ids {c : Cache} {account id : Nat} :
    id ∈ folderIdsOf c account ↔ ∃ f ∈ c.folders, f.id = id ∧ f.accountId = account := by
  simp only [folderIdsOf, List.mem_map, List.mem_filter, decide_eq_true_eq]
  exact ⟨fun ⟨f, ⟨mem, own⟩, same⟩ => ⟨f, mem, same, own⟩,
    fun ⟨f, mem, same, own⟩ => ⟨f, ⟨mem, own⟩, same⟩⟩

theorem path_determines {c : Cache} {f g : Folder} (fMem : f ∈ c.folders) (gMem : g ∈ c.folders)
    (account : f.accountId = g.accountId) (path : f.imapPath = g.imapPath) : f = g :=
  List.inj_on_of_nodup_map c.folderPaths fMem gMem (by rw [account, path])

theorem folder_at_eq {c : Cache} {account : Nat} {path : String} {f : Folder} :
    folderAt c account path = some f ↔
      f ∈ c.folders ∧ f.accountId = account ∧ f.imapPath = path := by
  constructor
  · intro found
    have holds := List.find?_some found
    simp only [decide_eq_true_eq] at holds
    exact ⟨List.mem_of_find?_eq_some found, holds⟩
  · rintro ⟨mem, own, name⟩
    cases found : folderAt c account path with
    | none =>
      have missing := List.find?_eq_none.mp found f mem
      simp [own, name] at missing
    | some g =>
      have holds := List.find?_some found
      simp only [decide_eq_true_eq] at holds
      rw [path_determines (List.mem_of_find?_eq_some found) mem (holds.1.trans own.symm)
        (holds.2.trans name.symm)]

theorem discovered_known (c : Cache) (account : Nat) :
    Discovered c c account (folderIdsOf c account) := by
  constructor
  · exact c.folderKeys.sublist (List.filter_sublist.map _)
  · exact fun id => mem_folder_ids
  · intro f mem own
    rw [mem_folder_ids]
    constructor
    · intro _
      exact ⟨f, mem, own, rfl⟩
    · intro _
      exact ⟨f, mem, rfl, own⟩

theorem discovered_listed (c : Cache) (account : Nat) (paths : List String) :
    Discovered c (c.discover account paths) account
      ((sortedPaths paths).filterMap fun path =>
        (folderAt (c.discover account paths) account path).map Folder.id) := by
  obtain ⟨origin, within, _, kept⟩ := discover_folders c account paths
  constructor
  · have distinct : (sortedPaths paths).Nodup :=
      (List.perm_insertionSort _ _).nodup_iff.mpr (List.nodup_dedup _)
    apply distinct.filterMap
    intro path path' id here there
    obtain ⟨f, found, same⟩ := Option.map_eq_some_iff.mp here
    obtain ⟨g, found', same'⟩ := Option.map_eq_some_iff.mp there
    obtain ⟨fMem, _, name⟩ := folder_at_eq.mp found
    obtain ⟨gMem, _, name'⟩ := folder_at_eq.mp found'
    have eq := List.inj_on_of_nodup_map (c.discover account paths).folderKeys fMem gMem
      (same.trans same'.symm)
    rw [← name, ← name', eq]
  · intro id
    rw [List.mem_filterMap]
    constructor
    · rintro ⟨path, _, here⟩
      obtain ⟨f, found, same⟩ := Option.map_eq_some_iff.mp here
      obtain ⟨mem, own, _⟩ := folder_at_eq.mp found
      exact ⟨f, mem, same, own⟩
    · rintro ⟨f, mem, same, own⟩
      have found := folder_at_eq.mpr ⟨mem, own, rfl⟩
      exact ⟨f.imapPath, mem_sorted_paths.mpr (within f mem own), by rw [found, ← same]; rfl⟩
  · intro f mem own
    rw [mem_folder_ids]
    constructor
    · rintro ⟨g, gMem, same, gOwn⟩
      rcases origin f mem with old | added
      · exact ⟨f, old, own, rfl⟩
      · have := added.2.1 g gMem
        omega
    · rintro ⟨g, gMem, gOwn, name⟩
      rcases origin f mem with old | added
      · exact ⟨f, old, rfl, own⟩
      · exact absurd ⟨gOwn, name⟩ (added.2.2 g gMem)

theorem discover_folders_ok {c found : Cache} {account : Nat} {discover : Bool}
    {discovered : List Nat}
    (ok : discoverFolders provider c account discover = .ok (found, discovered)) :
    Discovered c found account discovered := by
  unfold discoverFolders at ok
  split at ok
  · cases listing : provider.listFolders with
    | error e =>
      rw [listing] at ok
      contradiction
    | ok paths =>
      rw [listing] at ok
      obtain ⟨rfl, rfl⟩ := Prod.mk.inj (Except.ok.inj ok)
      exact discovered_listed c account paths
  · obtain ⟨rfl, rfl⟩ := Prod.mk.inj (Except.ok.inj ok)
    exact discovered_known c account

theorem mem_selected {c found : Cache} {account : Nat} {discovered : List Nat}
    (spec : Discovered c found account discovered) (scope : Option (Finset Nat)) {f : Folder}
    (mem : f ∈ found.folders) :
    f.id ∈ discovered.filter (fun id => !skipped scope (folderIdsOf c account) id) ↔
      Selected c found account scope f := by
  have own : f.id ∈ discovered ↔ f.accountId = account := by
    rw [spec.listed]
    constructor
    · rintro ⟨g, gMem, same, gOwn⟩
      rw [← List.inj_on_of_nodup_map found.folderKeys gMem mem same, gOwn]
    · intro own
      exact ⟨f, mem, rfl, own⟩
  rw [List.mem_filter, own, Selected, and_iff_right mem]
  refine and_congr_right fun isOwn => ?_
  have known := spec.known f mem isOwn
  cases scope with
  | none => simp [skipped]
  | some ids =>
    by_cases inScope : f.id ∈ ids
    · simp [skipped, inScope]
    · simp [skipped, inScope, known]

/- Another behaviour of the server that is the same for one folder. -/
structure SameFor (provider provider' : Provider) (f : Folder) : Prop where
  connect : provider'.connect = provider.connect
  listFolders : provider'.listFolders = provider.listFolders
  answers : provider'.answers f.imapPath = provider.answers f.imapPath

theorem sync_loop {s : State} (active : s.account.isActive = true)
    (connected : provider.connect = none) {found : Cache} {discovered : List Nat} {discover : Bool}
    (ok : discoverFolders provider s.cache s.account.id discover = .ok (found, discovered))
    (scope : Option (Finset Nat)) :
    Looped email provider ⟨⟨found, found⟩, [], [], [.cleared]⟩
      (syncAccount email provider s scope discover).2
      (discovered.filter fun id => !skipped scope (folderIdsOf s.cache s.account.id) id) ∧
    (syncAccount email provider s scope discover).1.cache =
      (syncAccount email provider s scope discover).2.session.stored := by
  have nodup := (discover_folders_ok provider ok).nodup.filter
    fun id => !skipped scope (folderIdsOf s.cache s.account.id) id
  unfold syncAccount syncFolders
  rw [if_pos active, connected, ok]
  exact ⟨loop_folders email provider _ nodup rfl, rfl⟩

theorem selected_ends {s : State} (active : s.account.isActive = true)
    (connected : provider.connect = none) {found : Cache} {discovered : List Nat} {discover : Bool}
    (ok : discoverFolders provider s.cache s.account.id discover = .ok (found, discovered))
    {scope : Option (Finset Nat)} {f : Folder}
    (selected : Selected s.cache found s.account.id scope f) :
    EndsAs (syncAccount email provider s scope discover).1.cache f.id
      (passOf email provider found f).db := by
  obtain ⟨looped, stored⟩ := sync_loop email provider active connected ok scope
  rw [stored]
  exact looped.ends f selected.1
    ((mem_selected (discover_folders_ok provider ok) scope selected.1).mpr selected)

theorem attempts_selected {s : State} (active : s.account.isActive = true)
    (connected : provider.connect = none) {found : Cache} {discovered : List Nat} {discover : Bool}
    (ok : discoverFolders provider s.cache s.account.id discover = .ok (found, discovered))
    (scope : Option (Finset Nat)) (id : Nat) :
    id ∈ (syncAccount email provider s scope discover).2.attempts ↔
      ∃ f, f.id = id ∧ Selected s.cache found s.account.id scope f := by
  have spec := discover_folders_ok provider ok
  rw [(sync_loop email provider active connected ok scope).1.attempts, List.nil_append,
    List.mem_filter]
  constructor
  · rintro ⟨listed, exists_folder⟩
    obtain ⟨f, row⟩ := Option.isSome_iff_exists.mp exists_folder
    obtain ⟨mem, rfl⟩ := folder_by_id_eq.mp row
    exact ⟨f, rfl, (mem_selected spec scope mem).mp listed⟩
  · rintro ⟨f, rfl, selected⟩
    have row : found.folderById f.id = some f := folder_by_id_eq.mpr ⟨selected.1, rfl⟩
    exact ⟨(mem_selected spec scope selected.1).mpr selected, Option.isSome_iff_exists.mpr ⟨f, row⟩⟩

theorem status_ok_iff {s : State} (active : s.account.isActive = true)
    (scope : Option (Finset Nat)) (discover : Bool) :
    (syncAccount email provider s scope discover).1.account.lastSyncStatus = some "ok" ↔
      (syncFolders email provider s.cache s.account.id scope discover).errors = [] := by
  unfold syncAccount
  rw [if_pos active]
  simp

theorem errors_empty_iff {s : State} (active : s.account.isActive = true)
    (connected : provider.connect = none) {found : Cache} {discovered : List Nat} {discover : Bool}
    (ok : discoverFolders provider s.cache s.account.id discover = .ok (found, discovered))
    (scope : Option (Finset Nat)) :
    (syncFolders email provider s.cache s.account.id scope discover).errors = [] ↔
      ∀ f, Selected s.cache found s.account.id scope f →
        passError provider f.imapPath (passOf email provider found f) = none := by
  have looped := (sync_loop email provider active connected ok scope).1
  have same : (syncAccount email provider s scope discover).2 =
      syncFolders email provider s.cache s.account.id scope discover := by
    unfold syncAccount
    rw [if_pos active]
  rw [← same, looped.errors, and_iff_right rfl]
  have selected := fun (f : Folder) (mem : f ∈ found.folders) =>
    mem_selected (discover_folders_ok provider ok) scope mem
  exact ⟨fun all f sel => all f sel.1 ((selected f sel.1).mpr sel),
    fun all f mem listed => all f ((selected f mem).mp listed)⟩

/-- A failing folder neither stops nor changes the others. -/
theorem folder_failures_isolated (s : State) (scope : Option (Finset Nat)) (discover : Bool)
    (active : s.account.isActive = true) :
    (∀ found discovered, provider.connect = none →
      discoverFolders provider s.cache s.account.id discover = .ok (found, discovered) →
      (∀ id, id ∈ (syncAccount email provider s scope discover).2.attempts ↔
        ∃ f, f.id = id ∧ Selected s.cache found s.account.id scope f) ∧
      ∀ f, Selected s.cache found s.account.id scope f →
        EndsAs (syncAccount email provider s scope discover).1.cache f.id
          (passOf email provider found f).db ∧
        ∀ provider', SameFor provider provider' f →
          EndsAs (syncAccount email provider' s scope discover).1.cache f.id
            (passOf email provider found f).db) ∧
    ((syncAccount email provider s scope discover).1.account.lastSyncStatus = some "ok" ↔
      provider.connect = none ∧ ∃ found discovered,
        discoverFolders provider s.cache s.account.id discover = .ok (found, discovered) ∧
        ∀ f, Selected s.cache found s.account.id scope f →
          passError provider f.imapPath (passOf email provider found f) = none) := by
  refine ⟨fun found discovered connected ok => ⟨?_, fun f selected => ⟨?_, ?_⟩⟩, ?_⟩
  · exact attempts_selected email provider active connected ok scope
  · exact selected_ends email provider active connected ok selected
  · intro provider' same
    have ok' : discoverFolders provider' s.cache s.account.id discover = .ok (found, discovered) := by
      rw [← ok, discoverFolders, discoverFolders, same.listFolders]
    have own : passOf email provider' found f = passOf email provider found f := by
      rw [passOf, passOf, same.answers]
    rw [← own]
    exact selected_ends email provider' active (same.connect.trans connected) ok' selected
  · rw [status_ok_iff email provider active]
    constructor
    · intro noErrors
      cases connected : provider.connect with
      | some e =>
        rw [syncFolders, connected] at noErrors
        contradiction
      | none =>
        cases ok : discoverFolders provider s.cache s.account.id discover with
        | error e =>
          rw [syncFolders, connected, ok] at noErrors
          contradiction
        | ok answer =>
          obtain ⟨found, discovered⟩ := answer
          exact ⟨rfl, found, discovered, rfl,
            (errors_empty_iff email provider active connected ok scope).mp noErrors⟩
    · rintro ⟨connected, found, discovered, ok, all⟩
      exact (errors_empty_iff email provider active connected ok scope).mpr all

def archiveFolder : Folder := newFolder 2 1 "Archive"

def mailState : State where
  account := ⟨1, true, none, none⟩
  cache := ⟨[letterFolder, archiveFolder], .empty, by decide, by decide⟩

/-- The connection breaks at the SEARCH of the archive. -/
def halfBroken : Provider where
  connect := none
  listFolders := .ok ["INBOX", "Archive"]
  answers := fun path =>
    if path = "INBOX" then List.replicate 4 (letterBox 0) else [letterBox 0]
  breaks := fun _ => "TimeoutError"
  unsaved := fun _ c => c.deleteMessage 1

theorem folder_failures_isolated_archive :
    (syncAccount emptyHeaderEmail halfBroken mailState none false).1.account.lastSyncStatus ≠
        some "ok" ∧
      2 ∈ (syncAccount emptyHeaderEmail halfBroken mailState none false).2.attempts ∧
      EndsAs (syncAccount emptyHeaderEmail halfBroken mailState none false).1.cache 1
        (passOf emptyHeaderEmail halfBroken mailState.cache letterFolder).db := by
  obtain ⟨isolated, status⟩ :=
    folder_failures_isolated emptyHeaderEmail halfBroken mailState none false rfl
  obtain ⟨attempts, ends⟩ := isolated mailState.cache [1, 2] rfl rfl
  have archive : Selected mailState.cache mailState.cache 1 none archiveFolder :=
    ⟨List.mem_cons_of_mem _ List.mem_cons_self, rfl, Or.inl rfl⟩
  refine ⟨fun ok => ?_, (attempts 2).mpr ⟨archiveFolder, rfl, archive⟩,
    (ends letterFolder ⟨List.mem_cons_self, rfl, Or.inl rfl⟩).1⟩
  obtain ⟨_, found, discovered, same, all⟩ := status.mp ok
  obtain ⟨rfl, rfl⟩ := Prod.mk.inj (Except.ok.inj same)
  have completes := all archiveFolder archive
  contradiction

end InboxSyncAccount
