import InboxOne.FolderCompletion
import InboxOne.SyncAccount

/-!
`sync_account` over the folders of an account whose mailboxes go on changing: what the
tables have to do with the mail server after any number of passes. A pass may break off
at any call, select only some folders, or fail to connect or to list; between two calls
on a path, and between two passes, the mailbox of the path evolves, and between two
passes it may also get a new UIDVALIDITY.
-/
namespace InboxAccountMirror
open InboxPython InboxMailbox InboxMailParser InboxTables InboxFolderSync InboxFolderSegments
open LabelledRuns InboxFolderRuns InboxFolderConvergence InboxFolderCompletion InboxCache
open InboxFolderPasses InboxSyncAccount

/- The mailbox goes through these answers, in order, and ends as the last argument. -/
def Unfolds : Mailbox → List Mailbox → Mailbox → Prop
  | mb, [], last => Evolves mb last
  | mb, answer :: rest, last => Evolves mb answer ∧ Unfolds answer rest last

theorem evolves_refl (mb : Mailbox) : Evolves mb mb :=
  ⟨rfl, Nat.le_refl _, fun _ has _ => has⟩

theorem evolves_trans {a b c : Mailbox} (first : Evolves a b) (second : Evolves b c) :
    Evolves a c := by
  refine ⟨second.validity.trans first.validity, Nat.le_trans first.uidNext second.uidNext, ?_⟩
  intro uid has below
  exact first.old uid (second.old uid has (Nat.lt_of_lt_of_le below first.uidNext)) below

theorem unfolds_evolves {mb last : Mailbox} {answers : List Mailbox}
    (unfolds : Unfolds mb answers last) : Evolves mb last := by
  induction answers generalizing mb with
  | nil => exact unfolds
  | cons answer rest ih => exact evolves_trans unfolds.1 (ih unfolds.2)

theorem unfolds_at_rest (mb : Mailbox) (n : Nat) : Unfolds mb (List.replicate n mb) mb := by
  induction n with
  | zero => exact evolves_refl mb
  | succ n ih => exact ⟨evolves_refl mb, ih⟩

theorem consistent_evolves {mb mb' : Mailbox} {used : List Nat} {db : FolderDb}
    (c : Consistent mb used db) (evolves : Evolves mb mb') : Consistent mb' used db :=
  (change_sound (w := ⟨mb, used, db, none, []⟩) (r := .flagsChanged 0)
    (start_sound ⟨c, rfl, rfl⟩) evolves trivial).consistent

theorem searched_uids {mb : Mailbox} {uid : Nat} : uid ∈ listUids (searchAll mb) ↔ mb.Has uid := by
  simp [listUids, searchAll, Mailbox.Has]

theorem consistent_reset {mb mb' : Mailbox} {used : List Nat} {db : FolderDb}
    (c : Consistent mb used db) (fresh : mb'.uidvalidity ∉ used) :
    Consistent mb' (mb'.uidvalidity :: used) db :=
  (reset_sound (w := ⟨mb, used, db, none, []⟩) (start_sound ⟨c, rfl, rfl⟩) rfl fresh).consistent

/- What a finished pass has made of the mailbox that its SEARCH saw, for the mailbox as it
   is now. -/
structure Replica (seen now : Mailbox) (db : FolderDb) : Prop where
  evolved : Evolves seen now
  validity : db.folder.lastUidvalidity = some now.uidvalidity
  history : db.folder.historyComplete = true
  noneExtra : ∀ uid, db.Cached uid → seen.Has uid
  noneMissing : ∀ uid, seen.Has uid → now.Has uid → db.Cached uid

/- The UIDs that the last SEARCH has answered are those of one of these mailboxes. -/
def SearchedOne (answers : List Mailbox) (mb : Mailbox) (log : List Record) : Prop :=
  ∀ validity snapshot, lastSearch log = some (validity, snapshot) →
    ∃ seen ∈ answers, Evolves seen mb ∧ snapshot = listUids (searchAll seen)

/- The state of a pass whose server has come to this mailbox, with `quiet` for a server
   that stands still while the pass runs. -/
def PassHolds (quiet : Prop) (answers : List Mailbox) (used : List Nat) (mb : Mailbox) :
    Progress → Prop
  | .waiting db pc => ∃ log, Sound ⟨mb, used, db, some pc, log⟩ ∧ SearchedOne answers mb log ∧
      (quiet → StillSinceSearch ⟨mb, used, db, some pc, log⟩)
  | .completed db => Consistent mb used db ∧ (∃ seen ∈ answers, Replica seen mb db) ∧
      (quiet → Mirrors db mb)
  | .failed db _ => Consistent mb used db

theorem replica_evolves {seen now now' : Mailbox} {db : FolderDb} (r : Replica seen now db)
    (evolves : Evolves now now') : Replica seen now' db := by
  refine ⟨evolves_trans r.evolved evolves, evolves.validity ▸ r.validity, r.history, r.noneExtra,
    ?_⟩
  intro uid had has
  obtain ⟨m, mem, same⟩ := had
  have below : uid < now.uidNext :=
    Nat.lt_of_lt_of_le (same ▸ (seen.bounded m mem).2) r.evolved.uidNext
  exact r.noneMissing uid ⟨m, mem, same⟩ (evolves.old uid has below)

section Passes
variable {Msg : Type} (email : EmailPackage Msg) {quiet : Prop} {answers : List Mailbox}
variable {used : List Nat} {mb mb' : Mailbox} {p : Progress}

/- The mailbox changes while the pass waits, or after its end. -/
theorem pass_moved (evolves : Evolves mb mb') (same : quiet → mb' = mb)
    (holds : PassHolds quiet answers used mb p) : PassHolds quiet answers used mb' p := by
  by_cases still : mb' = mb
  · exact still ▸ holds
  · cases p with
    | waiting db pc =>
      obtain ⟨log, sound, searched, _⟩ := holds
      refine ⟨.flagsChanged 0 :: log, change_sound sound evolves trivial, ?_,
        fun quiet => absurd (same quiet) still⟩
      intro validity snapshot last
      obtain ⟨seen, mem, evolved, eq⟩ := searched validity snapshot last
      exact ⟨seen, mem, evolves_trans evolved evolves, eq⟩
    | completed db =>
      obtain ⟨c, ⟨seen, mem, replica⟩, _⟩ := holds
      exact ⟨consistent_evolves c evolves, ⟨seen, mem, replica_evolves replica evolves⟩,
        fun quiet => absurd (same quiet) still⟩
    | failed db e => exact consistent_evolves holds evolves

theorem searched_call (listed : mb ∈ answers) (db : FolderDb) (pc : Pc) {log : List Record}
    (searched : SearchedOne answers mb log) :
    SearchedOne answers mb (callRecords mb db pc ++ log) := by
  cases pc with
  | search validity =>
    intro v snapshot last
    obtain ⟨_, rfl⟩ := Prod.mk.inj (Option.some.inj last)
    exact ⟨mb, listed, evolves_refl mb, rfl⟩
  | select | headers | flags => exact searched

/- A pass that is at its end has a snapshot, and this is what it has achieved. -/
theorem pass_converged {db : FolderDb} {log : List Record} {v : Option Nat}
    (sound : Sound ⟨mb, used, db, none, .completed v :: log⟩)
    (searched : SearchedOne answers mb log)
    (still : quiet → StillSinceSearch ⟨mb, used, db, none, .completed v :: log⟩) :
    PassHolds quiet answers used mb (.completed db) := by
  obtain ⟨snapshot, last, converged⟩ := sound.converged v log rfl
  obtain ⟨seen, mem, evolved, rfl⟩ := searched _ _ last
  refine ⟨sound.consistent, ⟨seen, mem, evolved, converged.validity, converged.history, ?_, ?_⟩, ?_⟩
  · exact fun uid cached => searched_uids.mp (converged.noneExtra uid cached)
  · exact fun uid had has => converged.noneMissing uid (searched_uids.mpr had) has
  · intro isQuiet
    rcases still isQuiet with active | ⟨_, active⟩ | quietSince
    · contradiction
    · contradiction
    · exact converged.quiet quietSince

theorem pass_called (listed : mb ∈ answers) (holds : PassHolds quiet answers used mb p) :
    PassHolds quiet answers used mb (advance (resume email mb) p) := by
  cases p with
  | completed db => exact holds
  | failed db e => exact holds
  | waiting db pc =>
    obtain ⟨log, sound, searched, still⟩ := holds
    have after := call_sound email sound rfl
    have stillAfter := fun isQuiet => call_still email (still isQuiet) rfl
    unfold callStep at after stillAfter
    cases answer : resume email mb db pc with
    | error e =>
      simp only [advance, answer]
      exact sound.consistent
    | ok out =>
      obtain ⟨db', pass⟩ := out
      rw [answer] at after stillAfter
      simp only [advance, answer]
      have before := searched_call listed db pc searched
      cases pass with
      | some pc' => exact ⟨_, after, before, stillAfter⟩
      | none => exact pass_converged after before stillAfter

theorem pass_answered (listed : mb' ∈ answers) (evolves : Evolves mb mb')
    (same : quiet → mb' = mb) (holds : PassHolds quiet answers used mb p) :
    PassHolds quiet answers used mb' (advance (resume email mb') p) :=
  pass_called email listed (pass_moved evolves same holds)

theorem answers_hold {last : Mailbox} (rest : List Mailbox) (listed : ∀ a ∈ rest, a ∈ answers)
    (unfolds : Unfolds mb rest last) (same : quiet → (∀ a ∈ rest, a = mb) ∧ last = mb)
    (holds : PassHolds quiet answers used mb p) :
    PassHolds quiet answers used last (runPass (resume email) rest p) := by
  induction rest generalizing mb p with
  | nil => exact pass_moved unfolds (fun isQuiet => (same isQuiet).2) holds
  | cons answer rest ih =>
    have first : quiet → answer = mb := fun isQuiet => (same isQuiet).1 answer List.mem_cons_self
    have answered := pass_answered email (listed answer List.mem_cons_self) unfolds.1 first holds
    refine ih (fun a mem => listed a (List.mem_cons_of_mem _ mem)) unfolds.2 ?_ answered
    intro isQuiet
    rw [first isQuiet]
    exact ⟨fun a mem => (same isQuiet).1 a (List.mem_cons_of_mem _ mem), (same isQuiet).2⟩

/- A whole pass, from the tables that it finds. -/
theorem pass_holds {last : Mailbox} {db : FolderDb} (c : Consistent mb used db)
    (unfolds : Unfolds mb answers last) :
    PassHolds ((∀ a ∈ answers, a = mb) ∧ last = mb) answers used last
      (runPass (resume email) answers (.waiting db .select)) := by
  refine answers_hold email answers (fun _ mem => mem) unfolds id ⟨[.began], ?_, ?_, ?_⟩
  · exact next_sound email (w := ⟨mb, used, db, none, []⟩) (start_sound ⟨c, rfl, rfl⟩)
      (begin_step email rfl)
  · intro validity snapshot last
    contradiction
  · exact fun _ => Or.inl rfl

theorem pass_consistent (holds : PassHolds quiet answers used mb p) : Consistent mb used p.db := by
  cases p with
  | waiting db pc => exact holds.choose_spec.1.consistent
  | completed db => exact holds.1
  | failed db e => exact holds

theorem pass_completed (answers : List Mailbox) (db : FolderDb) :
    runPass (resume email) answers (.completed db) = .completed db := by
  induction answers with
  | nil => rfl
  | cons answer rest ih => exact ih

/- A run of calls that ends with a completed pass never broke off. -/
theorem calls_complete (n : Nat) : ∀ {db : FolderDb} {pc : Pc} {log : List Record} {w' : World},
    replay (next email) ⟨mb, used, db, some pc, log⟩ (List.replicate n .call) = some w' →
      Finished w' →
      ∃ db', runPass (resume email) (List.replicate n mb) (.waiting db pc) = .completed db' := by
  induction n with
  | zero =>
    intro db pc log w' run finished
    rw [List.replicate_zero, replay_nil, Option.some.injEq] at run
    rw [← run] at finished
    exact absurd finished.1 (by simp)
  | succ n ih =>
    intro db pc log w' run finished
    rw [List.replicate_succ, replay_cons] at run
    have called : next email ⟨mb, used, db, some pc, log⟩ .call =
        some (callStep email ⟨mb, used, db, some pc, log⟩ pc) := rfl
    rw [called, Option.bind_some] at run
    rw [List.replicate_succ]
    -- a pass that is over takes no further call
    have stays : ∀ w : World, w.pass = none →
        replay (next email) w (List.replicate n .call) = some w' → w' = w := by
      intro w idle run
      cases n with
      | zero => exact (Option.some.inj run).symm
      | succ n =>
        rw [List.replicate_succ, replay_cons, next, idle] at run
        contradiction
    unfold callStep at run
    cases answer : resume email mb db pc with
    | error e =>
      rw [answer] at run
      obtain ⟨_, v, older, log⟩ := finished
      rw [stays _ rfl run] at log
      cases (List.cons.inj log).1
    | ok out =>
      obtain ⟨db', pass⟩ := out
      rw [answer] at run
      show ∃ done, runPass (resume email) (List.replicate n mb)
        (advance (resume email mb) (.waiting db pc)) = .completed done
      simp only [advance, answer]
      cases pass with
      | some pc' => exact ih run finished
      | none => exact ⟨db', pass_completed email _ db'⟩

/- With enough calls answered, a pass over a mailbox at rest completes. -/
theorem pass_finishes_at_rest {db : FolderDb} (c : Consistent mb used db)
    (storable : AllStorable email ⟨mb, used, db, none, []⟩) :
    ∃ enough, ∀ calls, enough ≤ calls → ∃ db',
      runPass (resume email) (List.replicate calls mb) (.waiting db .select) = .completed db' := by
  obtain ⟨n, w', run, finished, _⟩ :=
    storable_completes email (start_sound ⟨c, rfl, rfl⟩) rfl storable
  rw [replay_cons, begin_step email rfl] at run
  obtain ⟨db', completed⟩ := calls_complete email n run finished
  refine ⟨n, fun calls more => ⟨db', ?_⟩⟩
  obtain ⟨extra, rfl⟩ := Nat.exists_eq_add_of_le more
  have parts : runPass (resume email) (List.replicate n mb ++ List.replicate extra mb)
      (.waiting db .select) = runPass (resume email) (List.replicate extra mb)
        (runPass (resume email) (List.replicate n mb) (.waiting db .select)) :=
    List.foldl_append ..
  rw [List.replicate_add, parts, completed, pass_completed]

end Passes

/- The same rows under other keys have the same part in all of this. -/
section Alike
variable {a b : FolderDb}

theorem alike_symm (alike : InboxFolderPasses.Alike a b) : InboxFolderPasses.Alike b a :=
  ⟨alike.folder.symm, alike.rows.symm⟩

theorem alike_row (alike : InboxFolderPasses.Alike a b) {m : Message} (inside : b.InFolder m) :
    ∃ m', a.InFolder m' ∧ m'.toNewMessage = m.toNewMessage := by
  have listed : m.toNewMessage ∈ contents b.messages b.folder.id :=
    mem_contents.mpr ⟨m, inside.1, inside.2, rfl⟩
  rw [← alike.rows] at listed
  obtain ⟨m', row, own, same⟩ := mem_contents.mp listed
  exact ⟨m', ⟨row, own⟩, same⟩

theorem alike_cached (alike : InboxFolderPasses.Alike a b) {uid : Nat} (cached : b.Cached uid) :
    a.Cached uid := by
  obtain ⟨m, inside, rfl⟩ := cached
  obtain ⟨m', row, same⟩ := alike_row alike inside
  exact ⟨m', row, congrArg NewMessage.uid same⟩

theorem consistent_alike {mb : Mailbox} {used : List Nat} (c : Consistent mb used a)
    (alike : InboxFolderPasses.Alike a b) : Consistent mb used b := by
  have folder := alike.folder
  refine ⟨?_, ?_, ?_, ?_, ?_, c.serverUsed, folder ▸ c.folderUsed⟩
  · intro m inside
    obtain ⟨m', row, same⟩ := alike_row alike inside
    rw [← congrArg NewMessage.accountId same, ← folder]
    exact c.owned m' row
  · intro m inside
    obtain ⟨m', row, same⟩ := alike_row alike inside
    rw [← congrArg NewMessage.uidvalidity same, ← folder]
    exact c.current m' row
  · intro m inside
    obtain ⟨m', row, same⟩ := alike_row alike inside
    rw [← congrArg NewMessage.uid same]
    exact c.positive m' row
  · intro current uid has upto
    exact alike_cached (alike_symm alike)
      (c.caughtUp (folder ▸ current) uid has (folder ▸ upto))
  · intro current
    obtain ⟨seen, rows⟩ := c.earlier (folder ▸ current)
    refine ⟨folder ▸ seen, fun m inside => ?_⟩
    obtain ⟨m', row, same⟩ := alike_row alike inside
    rw [← congrArg NewMessage.uid same]
    exact rows m' row

theorem replica_alike {seen now : Mailbox} (r : Replica seen now a)
    (alike : InboxFolderPasses.Alike a b) : Replica seen now b :=
  ⟨r.evolved, alike.folder ▸ r.validity, alike.folder ▸ r.history,
    fun uid cached => r.noneExtra uid (alike_cached alike cached),
    fun uid had has => alike_cached (alike_symm alike) (r.noneMissing uid had has)⟩

theorem mirrors_alike {mb : Mailbox} (mirrors : Mirrors a mb)
    (alike : InboxFolderPasses.Alike a b) : Mirrors b mb := by
  refine ⟨fun uid => ⟨fun cached => (mirrors.1 uid).mp (alike_cached alike cached),
    fun has => alike_cached (alike_symm alike) ((mirrors.1 uid).mpr has)⟩, ?_⟩
  intro m inside remote found
  obtain ⟨m', row, same⟩ := alike_row alike inside
  have agree := mirrors.2 m' row remote (congrArg NewMessage.uid same ▸ found)
  unfold FlagsAgree at agree ⊢
  rw [← congrArg NewMessage.isSeen same, ← congrArg NewMessage.isFlagged same,
    ← congrArg NewMessage.isAnswered same]
  exact agree

end Alike

/- A mailbox with every UIDVALIDITY that it has had. -/
abbrev Site := Mailbox × List Nat

inductive Moves : Site → Site → Prop where
  | evolves {mb mb' : Mailbox} {used : List Nat} (evolves : Evolves mb mb') :
      Moves (mb, used) (mb', used)
  | reset {mb mb' : Mailbox} {used : List Nat} (fresh : mb'.uidvalidity ∉ used) :
      Moves (mb, used) (mb', mb'.uidvalidity :: used)

/-- How the sites of one account change while a pass with these answers runs. -/
def Serves (server server' : String → Site) (provider : Provider) : Prop :=
  ∀ path, ∃ first last used, Relation.ReflTransGen Moves (server path) (first, used) ∧
    Unfolds first (provider.answers path) last ∧
    Relation.ReflTransGen Moves (last, used) (server' path)

/-- The mail servers of all accounts, and the tables. -/
structure World where
  server : Nat → String → Site
  cache : Cache

variable {Msg : Type} (email : EmailPackage Msg)

inductive Step : World → World → Prop where
  | server {w : World} (server : Nat → String → Site)
      (moves : ∀ account path,
        Relation.ReflTransGen Moves (w.server account path) (server account path)) :
      Step w { w with server := server }
  | sync {w : World} (a : AccountStatus) (provider : Provider) (scope : Option (Finset Nat))
      (discover : Bool) (server : String → Site) (serves : Serves (w.server a.id) server provider) :
      Step w ⟨Function.update w.server a.id server,
        (syncAccount email provider ⟨a, w.cache⟩ scope discover).1.cache⟩

/- The rows of every folder are the remains of earlier passes over its mailbox, and no row
   lacks a folder. -/
structure Faithful (w : World) : Prop where
  consistent : ∀ f ∈ w.cache.folders, Consistent (w.server f.accountId f.imapPath).1
    (w.server f.accountId f.imapPath).2 (w.cache.view f)
  homes : ∀ folderId, w.cache.folderById folderId = none →
    contents w.cache.messages folderId = []
  used : ∀ account path, (w.server account path).1.uidvalidity ∈ (w.server account path).2

theorem moves_consistent {site site' : Site} (moves : Relation.ReflTransGen Moves site site')
    {db : FolderDb} (c : Consistent site.1 site.2 db) : Consistent site'.1 site'.2 db := by
  induction moves with
  | refl => exact c
  | tail _ move ih =>
    cases move with
    | evolves evolves => exact consistent_evolves ih evolves
    | reset fresh => exact consistent_reset ih fresh

theorem moves_used {site site' : Site} (moves : Relation.ReflTransGen Moves site site')
    (used : site.1.uidvalidity ∈ site.2) : site'.1.uidvalidity ∈ site'.2 := by
  induction moves with
  | refl => exact used
  | tail _ move ih =>
    cases move with
    | evolves evolves => exact evolves.validity ▸ ih
    | reset fresh => exact List.mem_cons_self

/- A mailbox that still has its UIDVALIDITY has only evolved. -/
theorem moves_cases {site site' : Site} (moves : Relation.ReflTransGen Moves site site') :
    site.2 ⊆ site'.2 ∧ (Evolves site.1 site'.1 ∨ site'.1.uidvalidity ∉ site.2) := by
  induction moves with
  | refl => exact ⟨fun _ mem => mem, Or.inl (evolves_refl _)⟩
  | tail _ move ih =>
    obtain ⟨more, before⟩ := ih
    cases move with
    | evolves evolves =>
      refine ⟨more, before.imp (fun first => evolves_trans first evolves) fun fresh => ?_⟩
      exact evolves.validity ▸ fresh
    | reset fresh =>
      exact ⟨fun v mem => List.mem_cons_of_mem _ (more mem), Or.inr fun old => fresh (more old)⟩

/- A pass of some account as seen by a folder that it does not reach. -/
theorem unvisited_consistent {servers : Nat → String → Site} {account : Nat}
    {server : String → Site} {provider : Provider}
    (serves : Serves (servers account) server provider) {f : Folder} {db : FolderDb}
    (c : Consistent (servers f.accountId f.imapPath).1 (servers f.accountId f.imapPath).2 db) :
    Consistent (Function.update servers account server f.accountId f.imapPath).1
      (Function.update servers account server f.accountId f.imapPath).2 db := by
  by_cases own : f.accountId = account
  · rw [own] at c
    rw [own, Function.update_self]
    obtain ⟨first, last, used, before, unfolds, after⟩ := serves f.imapPath
    exact moves_consistent after (consistent_evolves (moves_consistent before c)
      (unfolds_evolves unfolds))
  · rw [Function.update_of_ne own]
    exact c

theorem served_used {servers : Nat → String → Site} {account : Nat} {server : String → Site}
    {provider : Provider} (serves : Serves (servers account) server provider)
    (used : ∀ other path, (servers other path).1.uidvalidity ∈ (servers other path).2)
    (other : Nat) (path : String) :
    (Function.update servers account server other path).1.uidvalidity
      ∈ (Function.update servers account server other path).2 := by
  by_cases own : other = account
  · subst own
    rw [Function.update_self]
    obtain ⟨first, last, validities, before, unfolds, after⟩ := serves path
    have reached := moves_used before (used _ path)
    exact moves_used after ((unfolds_evolves unfolds).validity ▸ reached)
  · rw [Function.update_of_ne own]
    exact used other path

section Discovery

theorem remove_contents {c : Cache} {gone : Folder → Bool} {folderId : Nat}
    (kept : ∀ g ∈ c.folders, gone g = true → g.id ≠ folderId) :
    contents (c.removeFolders gone).messages folderId = contents c.messages folderId := by
  apply contents_delete_other
  intro m _ own
  rw [List.any_eq_false]
  intro g mem both
  rw [Bool.and_eq_true, beq_iff_eq] at both
  exact kept g mem both.1 (both.2.trans own)

theorem removed_contents {c : Cache} {gone : Folder → Bool} {g : Folder} (mem : g ∈ c.folders)
    (isGone : gone g = true) : contents (c.removeFolders gone).messages g.id = [] := by
  rw [List.eq_nil_iff_forall_not_mem]
  intro n listed
  obtain ⟨m, row, own, _⟩ := mem_contents.mp listed
  have stays := (mem_deleteWhere.mp row).2
  rw [List.any_eq_false] at stays
  exact stays g mem (by simp [isGone, own])

theorem mem_discover {c : Cache} {account : Nat} {paths : List String} {f : Folder} :
    f ∈ (c.discover account paths).folders ↔
      f ∈ ((sortedPaths paths).foldl (fun c path => c.addFolder account path) c).folders ∧
        (f.accountId = account → f.imapPath ∈ paths) := by
  simp [Cache.discover, Cache.removeFolders, imp_iff_not_or]

theorem discover_contents {c : Cache} {account : Nat} {paths : List String} {f : Folder}
    (mem : f ∈ (c.discover account paths).folders) :
    contents (c.discover account paths).messages f.id = contents c.messages f.id := by
  obtain ⟨added, stays⟩ := mem_discover.mp mem
  rw [Cache.discover, remove_contents, add_folders_messages]
  intro g gMem isGone same
  have eq := List.inj_on_of_nodup_map (Cache.folderKeys _) gMem added same
  simp only [decide_eq_true_eq] at isGone
  exact isGone.2 (eq ▸ stays (eq ▸ isGone.1))

theorem discover_homes {c : Cache} {account : Nat} {paths : List String}
    (homes : ∀ folderId, c.folderById folderId = none → contents c.messages folderId = [])
    {folderId : Nat} (missing : (c.discover account paths).folderById folderId = none) :
    contents (c.discover account paths).messages folderId = [] := by
  by_cases known : ∃ g ∈ ((sortedPaths paths).foldl (fun c path => c.addFolder account path)
      c).folders, g.id = folderId
  · obtain ⟨g, mem, rfl⟩ := known
    apply removed_contents mem
    by_contra stays
    have listed : g ∈ (c.discover account paths).folders :=
      mem_discover.mpr ⟨mem, fun own => by simpa [own] using stays⟩
    rw [folder_by_id_eq.mpr ⟨listed, rfl⟩] at missing
    contradiction
  · rw [Cache.discover, remove_contents fun g mem _ same => known ⟨g, mem, same⟩,
      add_folders_messages]
    apply homes
    rw [Option.eq_none_iff_forall_ne_some]
    intro f found
    obtain ⟨mem, same⟩ := folder_by_id_eq.mp found
    exact known ⟨f, (add_folders_mem account (sortedPaths paths) c).1 f mem, same⟩

/- A folder that was just added has no rows yet. -/
theorem added_empty {w : World} (faithful : Faithful w) {account : Nat} {f : Folder}
    (added : AddedTo w.cache account f) : contents w.cache.messages f.id = [] := by
  apply faithful.homes
  rw [Option.eq_none_iff_forall_ne_some]
  intro g found
  obtain ⟨mem, same⟩ := folder_by_id_eq.mp found
  exact absurd same (Nat.ne_of_lt (added.2.1 g mem))

theorem add_folders_unread (account : Nat) (paths : List String) (c : Cache) {f : Folder}
    (mem : f ∈ (paths.foldl (fun c path => c.addFolder account path) c).folders) :
    f ∈ c.folders ∨ f.lastUidvalidity = none := by
  induction paths generalizing c with
  | nil => exact Or.inl mem
  | cons path rest ih =>
    rcases ih (c.addFolder account path) mem with early | unread
    · unfold Cache.addFolder at early
      split at early
      · rcases List.mem_append.mp early with old | new
        · exact Or.inl old
        · exact Or.inr (List.mem_singleton.mp new ▸ rfl)
      · exact Or.inl early
    · exact Or.inr unread

theorem unread_consistent {mb : Mailbox} {used : List Nat} {db : FolderDb}
    (usedNow : mb.uidvalidity ∈ used) (unread : db.folder.lastUidvalidity = none)
    (empty : contents db.messages db.folder.id = []) : Consistent mb used db := by
  have noRow : ∀ m, ¬ db.InFolder m := by
    intro m inside
    have listed : m.toNewMessage ∈ contents db.messages db.folder.id :=
      mem_contents.mpr ⟨m, inside.1, inside.2, rfl⟩
    rw [empty] at listed
    contradiction
  refine ⟨fun m inside => absurd inside (noRow m), fun m inside => absurd inside (noRow m),
    fun m inside => absurd inside (noRow m), ?_, ?_, usedNow, ?_⟩
  · intro current
    rw [unread] at current
    contradiction
  · intro current
    rw [unread] at current
    contradiction
  · intro v current
    rw [unread] at current
    contradiction

theorem discover_faithful {w : World} (faithful : Faithful w) (account : Nat)
    (paths : List String) : Faithful { w with cache := w.cache.discover account paths } := by
  refine ⟨fun f mem => ?_, fun folderId => discover_homes faithful.homes, faithful.used⟩
  have rows := discover_contents mem
  rcases (discover_folders w.cache account paths).1 f mem with old | added
  · exact consistent_alike (faithful.consistent f old) ⟨rfl, rows.symm⟩
  · have unread : f.lastUidvalidity = none := by
      rcases add_folders_unread account _ _ (mem_discover.mp mem).1 with old | unread
      · exact absurd (added.2.1 f old) (Nat.lt_irrefl _)
      · exact unread
    exact unread_consistent (faithful.used _ _) unread (rows.trans (added_empty faithful added))

theorem found_faithful {w : World} (faithful : Faithful w) {provider : Provider}
    {account : Nat} {discover : Bool} {found : Cache} {discovered : List Nat}
    (ok : discoverFolders provider w.cache account discover = .ok (found, discovered)) :
    Faithful { w with cache := found } := by
  unfold discoverFolders at ok
  split at ok
  · cases listing : provider.listFolders with
    | error e =>
      rw [listing] at ok
      contradiction
    | ok paths =>
      rw [listing] at ok
      obtain ⟨rfl, _⟩ := Prod.mk.inj (Except.ok.inj ok)
      exact discover_faithful faithful account paths
  · obtain ⟨rfl, _⟩ := Prod.mk.inj (Except.ok.inj ok)
    exact faithful

end Discovery

section Runs

/- A pass of the account that gets as far as its folders. -/
structure Reaches (w : World) (a : AccountStatus) (provider : Provider) (discover : Bool)
    (found : Cache) (discovered : List Nat) : Prop where
  active : a.isActive = true
  connected : provider.connect = none
  ok : discoverFolders provider w.cache a.id discover = .ok (found, discovered)

/- Every other pass leaves the tables as they are. -/
theorem unreached_unchanged (w : World) (a : AccountStatus) (provider : Provider)
    (scope : Option (Finset Nat)) (discover : Bool)
    (never : ∀ found discovered, ¬ Reaches w a provider discover found discovered) :
    (syncAccount email provider ⟨a, w.cache⟩ scope discover).1.cache = w.cache := by
  unfold syncAccount
  by_cases active : a.isActive = true
  · rw [if_pos active]
    show (syncFolders email provider w.cache a.id scope discover).session.stored = w.cache
    unfold syncFolders
    cases connected : provider.connect with
    | some e => rfl
    | none =>
      cases ok : discoverFolders provider w.cache a.id discover with
      | error e => rfl
      | ok out => exact absurd ⟨active, connected, ok⟩ (never out.1 out.2)
  · rw [if_neg active]

/- A folder that the loop visits, and one that it does not. -/
theorem visited_folder {w : World} {a : AccountStatus} {provider : Provider} {discover : Bool}
    {found : Cache} {discovered : List Nat}
    (reaches : Reaches w a provider discover found discovered)
    (scope : Option (Finset Nat)) {g : Folder}
    (mem : g ∈ (syncAccount email provider ⟨a, w.cache⟩ scope discover).1.cache.folders) :
    ∃ f ∈ found.folders, f.id = g.id ∧ f.accountId = g.accountId ∧ f.imapPath = g.imapPath ∧
      ((Selected w.cache found a.id scope f ∧ g = (passOf email provider found f).db.folder ∧
          InboxFolderPasses.Alike (passOf email provider found f).db
            ((syncAccount email provider ⟨a, w.cache⟩ scope discover).1.cache.view g)) ∨
        (¬ Selected w.cache found a.id scope f ∧ g = f ∧ InboxFolderPasses.Alike (found.view f)
          ((syncAccount email provider ⟨a, w.cache⟩ scope discover).1.cache.view g))) := by
  have spec := discover_folders_ok provider reaches.ok
  obtain ⟨looped, stored⟩ := sync_loop email (s := ⟨a, w.cache⟩) provider reaches.active
    reaches.connected reaches.ok scope
  have row : (syncAccount email provider ⟨a, w.cache⟩ scope discover).1.cache.folderById g.id =
      some g := folder_by_id_eq.mpr ⟨mem, rfl⟩
  by_cases visited : g.id ∈ discovered.filter fun id => !skipped scope (folderIdsOf w.cache a.id) id
  · obtain ⟨f, fMem, same, _⟩ := (spec.listed g.id).mp (List.mem_filter.mp visited).1
    have selected := (mem_selected spec scope fMem).mp (same ▸ visited)
    have ends := selected_ends email (s := ⟨a, w.cache⟩) provider reaches.active
      reaches.connected reaches.ok selected
    have eq : g = (passOf email provider found f).db.folder :=
      Option.some.inj (row.symm.trans (same ▸ ends.folder))
    have page : (Progress.waiting (found.view f) .select).PageWithin := trivial
    have columns := (pass_within email page (provider.answers f.imapPath)).columns
    refine ⟨f, fMem, same, ?_, ?_, Or.inl ⟨selected, eq, eq.symm, ?_⟩⟩
    · rw [eq]
      exact (congrArg Folder.accountId columns).symm
    · rw [eq]
      exact (congrArg Folder.imapPath columns).symm
    · have rows := ends.rows.symm
      rw [same] at rows
      rw [← eq]
      exact rows
  · have untouched := looped.others g.id visited
    rw [← stored] at untouched
    have before : found.folderById g.id = some g := untouched.1.symm.trans row
    have fMem := (folder_by_id_eq.mp before).1
    refine ⟨g, fMem, rfl, rfl, rfl, Or.inr ⟨?_, rfl, rfl, untouched.2.symm⟩⟩
    exact fun selected => visited ((mem_selected spec scope fMem).mpr selected)

/- The pass over a path, between what the site was before and what it is afterwards. -/
theorem served_pass {server server' : String → Site} {provider : Provider}
    (serves : Serves server server' provider) {path : String} {db : FolderDb}
    (c : Consistent (server path).1 (server path).2 db) : ∃ quiet last used,
      PassHolds quiet (provider.answers path) used last
        (runPass (resume email) (provider.answers path) (.waiting db .select)) ∧
      Relation.ReflTransGen Moves (last, used) (server' path) := by
  obtain ⟨first, last, used, before, unfolds, after⟩ := serves path
  exact ⟨_, last, used, pass_holds email (moves_consistent before c) unfolds, after⟩

theorem pass_faithful {w : World} (faithful : Faithful w) {a : AccountStatus}
    {provider : Provider} {discover : Bool} {found : Cache} {discovered : List Nat}
    (reaches : Reaches w a provider discover found discovered) (scope : Option (Finset Nat))
    {server : String → Site} (serves : Serves (w.server a.id) server provider) :
    Faithful ⟨Function.update w.server a.id server,
      (syncAccount email provider ⟨a, w.cache⟩ scope discover).1.cache⟩ := by
  have before := found_faithful faithful reaches.ok
  have spec := discover_folders_ok provider reaches.ok
  obtain ⟨looped, stored⟩ := sync_loop email (s := ⟨a, w.cache⟩) provider reaches.active
    reaches.connected reaches.ok scope
  refine ⟨fun g mem => ?_, fun folderId missing => ?_, served_used serves faithful.used⟩
  · obtain ⟨f, fMem, _, own, name, visited | unvisited⟩ := visited_folder email reaches scope mem
    · obtain ⟨selected, _, alike⟩ := visited
      have c := before.consistent f fMem
      have account : f.accountId = a.id := selected.2.1
      rw [account] at c
      obtain ⟨_, last, used, holds, after⟩ := served_pass email serves c
      simp only [← own, ← name, account, Function.update_self]
      exact consistent_alike (moves_consistent after (pass_consistent holds)) alike
    · obtain ⟨_, rfl, alike⟩ := unvisited
      exact unvisited_consistent serves (consistent_alike (before.consistent g fMem) alike)
  · have untouched : folderId ∉ discovered.filter fun id =>
        !skipped scope (folderIdsOf w.cache a.id) id := by
      intro visited
      obtain ⟨f, fMem, rfl, _⟩ := (spec.listed folderId).mp (List.mem_filter.mp visited).1
      have ends := looped.ends f fMem visited
      rw [← stored] at ends
      have row := ends.folder.symm.trans missing
      contradiction
    have same := looped.others folderId untouched
    rw [← stored] at same
    exact same.2.trans (before.homes folderId (same.1.symm.trans missing))

theorem step_faithful {w w' : World} (step : Step email w w') (faithful : Faithful w) :
    Faithful w' := by
  cases step with
  | server server moves =>
    exact ⟨fun f mem => moves_consistent (moves _ _) (faithful.consistent f mem), faithful.homes,
      fun account path => moves_used (moves account path) (faithful.used account path)⟩
  | sync a provider scope discover server serves =>
    by_cases reaches : ∃ found discovered, Reaches w a provider discover found discovered
    · obtain ⟨found, discovered, reaches⟩ := reaches
      exact pass_faithful email faithful reaches scope serves
    · have never := fun found discovered holds => reaches ⟨found, discovered, holds⟩
      rw [unreached_unchanged email w a provider scope discover never]
      exact ⟨fun f mem => unvisited_consistent serves (faithful.consistent f mem),
        faithful.homes, served_used serves faithful.used⟩

theorem run_faithful {w w' : World} (run : Relation.ReflTransGen (Step email) w w')
    (faithful : Faithful w) : Faithful w' := by
  induction run with
  | refl => exact faithful
  | tail _ step ih => exact step_faithful email step ih

/-- A folder whose pass has come to its end: its rows are those of the mailbox that the
SEARCH saw, less what was expunged since, and of the mailbox itself if that stood still. -/
structure Caught (provider : Provider) (site : Site) (db : FolderDb) : Prop where
  history : db.folder.historyComplete = true
  replica : ∃ seen ∈ provider.answers db.folder.imapPath,
    db.folder.lastUidvalidity = some seen.uidvalidity ∧
      (site.1.uidvalidity = seen.uidvalidity → Replica seen site.1 db)
  mirrors : ∀ mb, (∀ answer ∈ provider.answers db.folder.imapPath, answer = mb) → Mirrors db mb

theorem at_rest_mirrors {mb first : Mailbox} {used : List Nat} {db done : FolderDb}
    {answers : List Mailbox} (c : Consistent first used db) {last : Mailbox}
    (unfolds : Unfolds first answers last) (still : ∀ answer ∈ answers, answer = mb)
    (completed : runPass (resume email) answers (.waiting db .select) = .completed done) :
    Mirrors done mb := by
  cases answers with
  | nil => contradiction
  | cons answer rest =>
    have head : answer = mb := still answer List.mem_cons_self
    have c' : Consistent mb used db := consistent_evolves c (head ▸ unfolds.1)
    have same := List.eq_replicate_of_mem still
    have holds := pass_holds email c' (same ▸ unfolds_at_rest mb _)
    rw [completed] at holds
    exact holds.2.2 ⟨still, rfl⟩

theorem pass_caught {server server' : String → Site} {provider : Provider}
    (serves : Serves server server' provider) {c : Cache} {f : Folder} {done : FolderDb}
    (consistent : Consistent (server f.imapPath).1 (server f.imapPath).2 (c.view f))
    (completed : passOf email provider c f = .completed done) :
    Caught provider (server' f.imapPath) done := by
  have page : (Progress.waiting (c.view f) .select).PageWithin := trivial
  have columns := (pass_within email page (provider.answers f.imapPath)).columns
  rw [show runPass (resume email) (provider.answers f.imapPath) _ = _ from completed] at columns
  have paths := congrArg Folder.imapPath columns
  have path : done.folder.imapPath = f.imapPath := paths
  obtain ⟨first, last, used, before, unfolds, after⟩ := serves f.imapPath
  have c' := moves_consistent before consistent
  have holds := pass_holds email c' unfolds
  rw [show runPass (resume email) (provider.answers f.imapPath) _ = _ from completed] at holds
  obtain ⟨cDone, ⟨seen, mem, replica⟩, _⟩ := holds
  have validity : seen.uidvalidity = last.uidvalidity := replica.evolved.validity.symm
  refine ⟨replica.history, ⟨seen, path ▸ mem, validity ▸ replica.validity, ?_⟩, ?_⟩
  · intro same
    rcases (moves_cases after).2 with evolves | fresh
    · exact replica_evolves replica evolves
    · rw [same, validity] at fresh
      exact absurd cDone.serverUsed fresh
  · intro mb still
    rw [path] at still
    exact at_rest_mirrors email c' unfolds still completed

theorem caught_alike {provider : Provider} {site : Site} {a b : FolderDb}
    (caught : Caught provider site a) (alike : InboxFolderPasses.Alike a b) :
    Caught provider site b := by
  have folder := alike.folder
  refine ⟨folder ▸ caught.history, ?_, ?_⟩
  · rw [← folder]
    obtain ⟨seen, mem, validity, replica⟩ := caught.replica
    exact ⟨seen, mem, validity, fun same => replica_alike (replica same) alike⟩
  · rw [← folder]
    exact fun mb still => mirrors_alike (caught.mirrors mb still) alike

theorem completed_of_no_error {provider : Provider} {path : String} {p : Progress}
    (unbroken : passError provider path p = none) : ∃ done, p = .completed done := by
  cases p with
  | completed done => exact ⟨done, rfl⟩
  | waiting db pc => contradiction
  | failed db e => contradiction

theorem status_reaches {w : World} {a : AccountStatus} {provider : Provider}
    {scope : Option (Finset Nat)} {discover : Bool} (active : a.isActive = true)
    (ok : (syncAccount email provider ⟨a, w.cache⟩ scope discover).1.account.lastSyncStatus =
      some "ok") : ∃ found discovered, Reaches w a provider discover found discovered ∧
        ∀ f, Selected w.cache found a.id scope f →
          ∃ done, passOf email provider found f = .completed done := by
  obtain ⟨connected, found, discovered, listed, all⟩ :=
    (folder_failures_isolated email provider ⟨a, w.cache⟩ scope discover active).2.mp ok
  exact ⟨found, discovered, ⟨active, connected, listed⟩,
    fun f selected => completed_of_no_error (all f selected)⟩

/- Discovery and the loop leave the folders of other accounts alone. -/
theorem found_others {provider : Provider} {c found : Cache} {account : Nat} {discover : Bool}
    {discovered : List Nat}
    (ok : discoverFolders provider c account discover = .ok (found, discovered)) {f : Folder}
    (other : f.accountId ≠ account) : (f ∈ found.folders ↔ f ∈ c.folders) ∧
      (f ∈ c.folders → contents found.messages f.id = contents c.messages f.id) := by
  unfold discoverFolders at ok
  split at ok
  · cases listing : provider.listFolders with
    | error e =>
      rw [listing] at ok
      contradiction
    | ok paths =>
      rw [listing] at ok
      obtain ⟨rfl, _⟩ := Prod.mk.inj (Except.ok.inj ok)
      have kept : f ∈ c.folders → f ∈ (c.discover account paths).folders := fun mem =>
        mem_discover.mpr ⟨(add_folders_mem account _ c).1 f mem, fun own => absurd own other⟩
      refine ⟨⟨fun mem => ?_, kept⟩, fun mem => discover_contents (kept mem)⟩
      exact ((discover_folders c account paths).1 f mem).resolve_right fun added =>
        other added.1
  · obtain ⟨rfl, _⟩ := Prod.mk.inj (Except.ok.inj ok)
    exact ⟨Iff.rfl, fun _ => rfl⟩

theorem pass_others {w : World} {a : AccountStatus} {provider : Provider} {discover : Bool}
    {found : Cache} {discovered : List Nat}
    (reaches : Reaches w a provider discover found discovered)
    (scope : Option (Finset Nat)) {f : Folder} (other : f.accountId ≠ a.id)
    (mem : f ∈ w.cache.folders) :
    Untouched w.cache (syncAccount email provider ⟨a, w.cache⟩ scope discover).1.cache f.id := by
  have spec := discover_folders_ok provider reaches.ok
  obtain ⟨looped, stored⟩ := sync_loop email (s := ⟨a, w.cache⟩) provider reaches.active
    reaches.connected reaches.ok scope
  obtain ⟨same, rows⟩ := found_others reaches.ok other
  have outside : f.id ∉ discovered.filter fun id =>
      !skipped scope (folderIdsOf w.cache a.id) id := by
    intro visited
    obtain ⟨g, gMem, key, own⟩ := (spec.listed f.id).mp (List.mem_filter.mp visited).1
    have eq := List.inj_on_of_nodup_map found.folderKeys gMem (same.mpr mem) key
    exact other (eq ▸ own)
  have untouched := looped.others f.id outside
  rw [← stored] at untouched
  have before : found.folderById f.id = w.cache.folderById f.id := by
    rw [folder_by_id_eq.mpr ⟨mem, rfl⟩]
    exact folder_by_id_eq.mpr ⟨same.mpr mem, rfl⟩
  exact ⟨untouched.1.trans before, untouched.2.trans (rows mem)⟩

theorem folder_stays {w : World} {a : AccountStatus} {provider : Provider} {discover : Bool}
    {found : Cache} {discovered : List Nat}
    (reaches : Reaches w a provider discover found discovered)
    (scope : Option (Finset Nat)) {f : Folder} (mem : f ∈ found.folders) :
    ∃ g ∈ (syncAccount email provider ⟨a, w.cache⟩ scope discover).1.cache.folders,
      g.id = f.id ∧ g.accountId = f.accountId ∧ g.imapPath = f.imapPath := by
  obtain ⟨looped, stored⟩ := sync_loop email (s := ⟨a, w.cache⟩) provider reaches.active
    reaches.connected reaches.ok scope
  have row : ∃ g, (syncAccount email provider ⟨a, w.cache⟩ scope discover).1.cache.folderById f.id =
      some g := by
    rw [stored]
    by_cases visited : f.id ∈ discovered.filter fun id =>
        !skipped scope (folderIdsOf w.cache a.id) id
    · exact ⟨_, (looped.ends f mem visited).folder⟩
    · exact ⟨f, (looped.others f.id visited).1.trans (folder_by_id_eq.mpr ⟨mem, rfl⟩)⟩
  obtain ⟨g, found_g⟩ := row
  obtain ⟨gMem, key⟩ := folder_by_id_eq.mp found_g
  obtain ⟨f', fMem, same, account, name, _⟩ := visited_folder email reaches scope gMem
  have eq := List.inj_on_of_nodup_map found.folderKeys fMem mem (same.trans key)
  exact ⟨g, gMem, key, eq ▸ account.symm, eq ▸ name.symm⟩

theorem listed_folders {w : World} {a : AccountStatus} {provider : Provider} {found : Cache}
    {discovered : List Nat} (reaches : Reaches w a provider true found discovered)
    (scope : Option (Finset Nat)) : ∃ paths, provider.listFolders = .ok paths ∧
      found = w.cache.discover a.id paths ∧ ∀ path, path ∈ paths ↔
        ∃ f ∈ (syncAccount email provider ⟨a, w.cache⟩ scope true).1.cache.folders,
          f.accountId = a.id ∧ f.imapPath = path := by
  have ok := reaches.ok
  unfold discoverFolders at ok
  rw [if_pos rfl] at ok
  cases listing : provider.listFolders with
  | error e =>
    rw [listing] at ok
    contradiction
  | ok paths =>
    rw [listing] at ok
    obtain ⟨rfl, _⟩ := Prod.mk.inj (Except.ok.inj ok)
    obtain ⟨_, within, homes, _⟩ := discover_folders w.cache a.id paths
    refine ⟨paths, rfl, rfl, fun path => ⟨fun listed => ?_, ?_⟩⟩
    · obtain ⟨f, fMem, own, name⟩ := homes path listed
      obtain ⟨g, gMem, _, account, path_eq⟩ := folder_stays email reaches scope fMem
      exact ⟨g, gMem, account.trans own, path_eq.trans name⟩
    · rintro ⟨g, gMem, own, rfl⟩
      obtain ⟨f, fMem, _, account, name, _⟩ := visited_folder email reaches scope gMem
      exact name ▸ within f fMem (account.trans own)

/-- After any history of passes and of changes on the server, a pass of an account that
ends with the status "ok" has brought every folder that it covers up to its mailbox, has a
folder for exactly the listed paths, and has not touched the other accounts. -/
theorem successful_pass_replicates {w0 w : World} (start : Faithful w0)
    (run : Relation.ReflTransGen (Step email) w0 w) {a : AccountStatus}
    (active : a.isActive = true) {provider : Provider} {scope : Option (Finset Nat)}
    {discover : Bool} {server : String → Site} (serves : Serves (w.server a.id) server provider)
    (ok : (syncAccount email provider ⟨a, w.cache⟩ scope discover).1.account.lastSyncStatus =
      some "ok") :
    (∀ f ∈ (syncAccount email provider ⟨a, w.cache⟩ scope discover).1.cache.folders,
      f.accountId = a.id → (∀ ids, scope = some ids → f.id ∈ ids) →
        Caught provider (server f.imapPath)
          ((syncAccount email provider ⟨a, w.cache⟩ scope discover).1.cache.view f)) ∧
    (discover = true → ∃ paths, provider.listFolders = .ok paths ∧ ∀ path, path ∈ paths ↔
      ∃ f ∈ (syncAccount email provider ⟨a, w.cache⟩ scope discover).1.cache.folders,
        f.accountId = a.id ∧ f.imapPath = path) ∧
    ∀ f ∈ w.cache.folders, f.accountId ≠ a.id →
      Untouched w.cache (syncAccount email provider ⟨a, w.cache⟩ scope discover).1.cache f.id := by
  have faithful := run_faithful email run start
  obtain ⟨found, discovered, reaches, completed⟩ := status_reaches email active ok
  have before := found_faithful faithful reaches.ok
  refine ⟨fun g mem own inScope => ?_, fun isDiscovery => ?_, fun f mem other =>
    pass_others email reaches scope other mem⟩
  · obtain ⟨f, fMem, key, account, name, cases⟩ := visited_folder email reaches scope mem
    have selected : Selected w.cache found a.id scope f := by
      refine ⟨fMem, account.trans own, ?_⟩
      cases scope with
      | none => exact Or.inl rfl
      | some ids => exact Or.inr (Or.inl ⟨ids, rfl, key ▸ inScope ids rfl⟩)
    obtain ⟨done, ended⟩ := completed f selected
    rcases cases with ⟨_, _, alike⟩ | ⟨skipped, _⟩
    · have c := before.consistent f fMem
      rw [account.trans own] at c
      have caught := pass_caught email serves c ended
      rw [name] at caught
      rw [ended] at alike
      exact caught_alike caught alike
    · exact absurd selected skipped
  · subst isDiscovery
    obtain ⟨paths, listing, _, listed⟩ := listed_folders email reaches scope
    exact ⟨paths, listing, listed⟩

/- Two folders that were never read, over mailboxes with one message each. -/
def letterWorld : World := ⟨fun _ _ => (letterBox 0, [7]), mailState.cache⟩

theorem letter_world_faithful : Faithful letterWorld := by
  refine ⟨fun f mem => unread_consistent List.mem_cons_self ?_ rfl, fun _ _ => rfl,
    fun _ _ => List.mem_cons_self⟩
  rcases List.mem_cons.mp mem with rfl | archive
  · rfl
  · rw [List.mem_singleton.mp archive]
    rfl

/-- Every call is answered, and the archive is gone from the list. -/
def calmServer : Provider where
  connect := none
  listFolders := .ok ["INBOX"]
  answers := fun _ => List.replicate 4 (letterBox 0)
  breaks := fun _ => "TimeoutError"
  unsaved := fun _ c => c

/- The world after a pass that broke off in the archive. -/
def brokenWorld : World :=
  ⟨Function.update letterWorld.server 1 (letterWorld.server 1),
    (syncAccount emptyHeaderEmail halfBroken ⟨mailState.account, letterWorld.cache⟩ none
      false).1.cache⟩

theorem broken_site (path : String) : brokenWorld.server 1 path = (letterBox 0, [7]) := by
  simp [brokenWorld, letterWorld]

theorem half_broken_serves : Serves (letterWorld.server 1) (letterWorld.server 1) halfBroken := by
  intro path
  refine ⟨letterBox 0, letterBox 0, [7], .refl, ?_, .refl⟩
  unfold halfBroken
  dsimp only
  split
  · exact unfolds_at_rest (letterBox 0) 4
  · exact unfolds_at_rest (letterBox 0) 1

theorem successful_pass_replicates_inbox : Step emptyHeaderEmail letterWorld brokenWorld ∧
    ∀ f ∈ (syncAccount emptyHeaderEmail calmServer ⟨mailState.account, brokenWorld.cache⟩ none
      true).1.cache.folders, f.accountId = 1 → Caught calmServer (letterBox 0, [7])
        ((syncAccount emptyHeaderEmail calmServer ⟨mailState.account, brokenWorld.cache⟩ none
          true).1.cache.view f) := by
  have broke : Step emptyHeaderEmail letterWorld brokenWorld :=
    .sync mailState.account halfBroken none false _ half_broken_serves
  have serves : Serves (brokenWorld.server 1) (brokenWorld.server 1) calmServer := by
    intro path
    rw [broken_site path]
    exact ⟨letterBox 0, letterBox 0, [7], .refl, unfolds_at_rest (letterBox 0) 4, .refl⟩
  have ok : (syncAccount emptyHeaderEmail calmServer ⟨mailState.account, brokenWorld.cache⟩ none
      true).1.account.lastSyncStatus = some "ok" := by rfl
  have caught := (successful_pass_replicates emptyHeaderEmail letter_world_faithful
    (.single broke) (a := mailState.account) rfl serves ok).1
  refine ⟨broke, fun f mem own => ?_⟩
  have done := caught f mem own (fun ids none => by contradiction)
  exact broken_site f.imapPath ▸ done

/-- A mailbox whose messages are all stored already, or can be stored. -/
def CanStore (c : Cache) (account : Nat) (path : String) (mb : Mailbox) : Prop :=
  ∀ m ∈ mb.messages, Storable email m.content ∨ ∃ f ∈ c.folders, f.accountId = account ∧
    f.imapPath = path ∧ f.lastUidvalidity = some mb.uidvalidity ∧ (c.view f).Cached m.uid

/- A listed folder keeps what it has cached through discovery. -/
theorem discover_storable {c : Cache} {account : Nat} {paths : List String} {f : Folder}
    (mem : f ∈ (c.discover account paths).folders) (own : f.accountId = account)
    (listed : f.imapPath ∈ paths) {mb : Mailbox} (used : List Nat)
    (can : CanStore email c account f.imapPath mb) :
    AllStorable email ⟨mb, used, (c.discover account paths).view f, none, []⟩ := by
  intro m inside
  rcases can m inside with storable | ⟨g, gMem, gOwn, name, validity, cached⟩
  · exact Or.inr storable
  · have kept := (discover_folders c account paths).2.2.2 g gMem gOwn (name ▸ listed)
    have eq := path_determines kept mem (gOwn.trans own.symm) name
    subst eq
    have rows : InboxFolderPasses.Alike ((c.discover account paths).view g) (c.view g) :=
      ⟨rfl, discover_contents mem⟩
    exact Or.inl ⟨validity, alike_cached rows cached⟩

/-- After any history, an account whose server stands still is mirrored by one full pass: as
soon as enough calls are answered the pass ends with "ok", and then the folders are the
listed ones and each has exactly the messages of its mailbox, with their flags. -/
theorem resting_account_is_mirrored {w0 w : World} (start : Faithful w0)
    (run : Relation.ReflTransGen (Step email) w0 w) {a : AccountStatus}
    (active : a.isActive = true) (paths : List String)
    (can : ∀ path ∈ paths, CanStore email w.cache a.id path (w.server a.id path).1) :
    ∃ enough, ∀ (provider : Provider) (calls : Nat), enough ≤ calls → provider.connect = none →
      provider.listFolders = .ok paths →
      (∀ path ∈ paths, provider.answers path = List.replicate calls (w.server a.id path).1) →
      (syncAccount email provider ⟨a, w.cache⟩ none true).1.account.lastSyncStatus = some "ok" ∧
      (∀ path, path ∈ paths ↔
        ∃ f ∈ (syncAccount email provider ⟨a, w.cache⟩ none true).1.cache.folders,
          f.accountId = a.id ∧ f.imapPath = path) ∧
      ∀ f ∈ (syncAccount email provider ⟨a, w.cache⟩ none true).1.cache.folders,
        f.accountId = a.id →
          Mirrors ((syncAccount email provider ⟨a, w.cache⟩ none true).1.cache.view f)
            (w.server a.id f.imapPath).1 := by
  have faithful := discover_faithful (run_faithful email run start) a.id paths
  have homes := discover_folders w.cache a.id paths
  have bound : ∀ f ∈ (w.cache.discover a.id paths).folders, ∃ enough, f.accountId = a.id →
      ∀ calls, enough ≤ calls → ∃ done, runPass (resume email)
        (List.replicate calls (w.server a.id f.imapPath).1)
        (.waiting ((w.cache.discover a.id paths).view f) .select) = .completed done := by
    intro f mem
    by_cases own : f.accountId = a.id
    · have listed := homes.2.1 f mem own
      have c := faithful.consistent f mem
      rw [own] at c
      obtain ⟨enough, finishes⟩ := pass_finishes_at_rest email c
        (discover_storable email mem own listed _ (can f.imapPath listed))
      exact ⟨enough, fun _ => finishes⟩
    · exact ⟨0, fun same => absurd same own⟩
  choose! enough finishes using bound
  refine ⟨((w.cache.discover a.id paths).folders.map enough).foldr max 0, ?_⟩
  intro provider calls more connected listing answers
  obtain ⟨discovered, listed⟩ : ∃ discovered, discoverFolders provider w.cache a.id true =
      .ok (w.cache.discover a.id paths, discovered) := by
    unfold discoverFolders
    rw [if_pos rfl, listing]
    exact ⟨_, rfl⟩
  have reaches : Reaches w a provider true (w.cache.discover a.id paths) discovered :=
    ⟨active, connected, listed⟩
  have ended : ∀ f ∈ (w.cache.discover a.id paths).folders, f.accountId = a.id →
      ∃ done, passOf email provider (w.cache.discover a.id paths) f = .completed done := by
    intro f mem own
    have answered := answers f.imapPath (homes.2.1 f mem own)
    rw [passOf, answered]
    exact finishes f mem own calls (Nat.le_trans (le_largest (List.mem_map_of_mem mem)) more)
  refine ⟨?_, ?_, fun g mem own => ?_⟩
  · refine (folder_failures_isolated email provider ⟨a, w.cache⟩ none true active).2.mpr
      ⟨connected, _, discovered, listed, fun f selected => ?_⟩
    obtain ⟨done, completed⟩ := ended f selected.1 selected.2.1
    rw [completed, passError]
  · obtain ⟨paths', listing', _, same⟩ := listed_folders email reaches none
    rw [listing, Except.ok.injEq] at listing'
    exact listing' ▸ same
  · obtain ⟨f, fMem, _, account, name, cases⟩ := visited_folder email reaches none mem
    have fOwn := account.trans own
    obtain ⟨done, completed⟩ := ended f fMem fOwn
    rcases cases with ⟨_, _, alike⟩ | ⟨skipped, _⟩
    · have c := faithful.consistent f fMem
      rw [fOwn] at c
      have answered := answers f.imapPath (homes.2.1 f fMem fOwn)
      have unfolds := unfolds_at_rest (w.server a.id f.imapPath).1 calls
      rw [passOf, answered] at completed
      rw [passOf, answered, completed] at alike
      rw [← name]
      exact mirrors_alike (at_rest_mirrors email c unfolds
        (fun answer mem => List.eq_of_mem_replicate mem) completed) alike
    · exact absurd ⟨fMem, fOwn, Or.inl rfl⟩ skipped

theorem resting_account_is_mirrored_inbox : ∃ enough, ∀ calls, enough ≤ calls →
    ∀ f ∈ (syncAccount emptyHeaderEmail
        { calmServer with answers := fun _ => List.replicate calls (letterBox 0) }
        ⟨mailState.account, letterWorld.cache⟩ none true).1.cache.folders, f.accountId = 1 →
      Mirrors ((syncAccount emptyHeaderEmail
        { calmServer with answers := fun _ => List.replicate calls (letterBox 0) }
        ⟨mailState.account, letterWorld.cache⟩ none true).1.cache.view f) (letterBox 0) := by
  have can : ∀ path ∈ ["INBOX"],
      CanStore emptyHeaderEmail letterWorld.cache mailState.account.id path
      (letterWorld.server mailState.account.id path).1 := by
    intro path _ m mem
    rw [show m = ⟨1, letter⟩ from List.mem_singleton.mp mem]
    exact Or.inl ⟨_, rfl, trivial⟩
  obtain ⟨enough, mirrored⟩ := resting_account_is_mirrored emptyHeaderEmail letter_world_faithful
    .refl (a := mailState.account) rfl ["INBOX"] can
  refine ⟨enough, fun calls more => ?_⟩
  exact (mirrored { calmServer with answers := fun _ => List.replicate calls (letterBox 0) } calls
    more rfl rfl fun _ _ => rfl).2.2

end Runs

end InboxAccountMirror
