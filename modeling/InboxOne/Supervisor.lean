import InboxOne.RefreshTicks
import InboxOne.Watcher

/-!
The loop of the supervisor from `start_scheduler` to `stop_scheduler`: `_run` with its wake
flag, `_tick` as far as it starts and stops watchers, and the functions that other tasks
call meanwhile. Of `_last_full` only the accounts count here; the times and the requests of
a tick, and the renewal of tokens, are left out. The accounts and the folder rows are
committed by others at any time. The fields behind `lastFull` only observe the run.
-/
namespace InboxSupervisor
open LabelledRuns InboxWatcher
open InboxRefreshTicks (FolderRow)

/-- The keys of `_tasks`, which are those of `_accounts`, in the order of their insertion. -/
def watched (s : Scheduler) : List Nat :=
  (List.range s.spawned).filterMap fun task =>
    (s.tasks task).bind fun w => if s.registry w.folder = some task then some w.folder else none

/-- `_tasks[folder_id].done()` -/
def ended (s : Scheduler) (folder : Nat) : Bool :=
  match (s.registry folder).bind s.tasks with
  | some w => w.pc = .done
  | none => false

def stopWhere (which : Scheduler → Nat → Bool) (s : Scheduler) : Scheduler :=
  (watched s).foldl (fun s folder => if which s folder then stopFolder s folder else s) s

/-- `unschedule_account_sync` on the watchers. -/
def unscheduleAccount (s : Scheduler) (account : Nat) : Scheduler :=
  stopWhere (fun s folder => s.accounts folder = some account) s

def startWatcher (s : Scheduler) (row : FolderRow) : Scheduler :=
  match s.registry row.id with
  | none => spawnWatcher s row.account row.id row.path
  | some _ => s

/- `live.watchers` without the folders that are gone. -/
def dropStates (s : Scheduler) (folders : List FolderRow) : Scheduler :=
  { s with watchers := fun id => if id ∈ folders.map FolderRow.id then s.watchers id else none }

def undesired (desired : List FolderRow) (s : Scheduler) (folder : Nat) : Bool :=
  folder ∉ desired.map FolderRow.id || ended s folder

/- The part of `_tick` behind its last await. `gone` are the accounts in `_last_full` that
   are not active. -/
def supervise (s : Scheduler) (folders : List FolderRow) (gone : List Nat) : Scheduler :=
  let desired := folders.filter FolderRow.isInbox
  let s := stopWhere (undesired desired) (dropStates s folders)
  desired.foldl startWatcher (gone.foldl unscheduleAccount s)

/-- What the loop awaits. -/
inductive Turn where
  | off
  | created
  | retired
  | interval
  | accounts
  | folders (active : List Nat)
  | closing (active : List Nat) (folders : List FolderRow) (born : Nat)
  | waiting
  | cancelled

structure World where
  scheduler : Scheduler
  active : List Nat
  rows : List FolderRow
  started : Bool
  wake : Bool
  turn : Turn
  lastFull : List Nat
  born : Nat
  version : Nat
  announced : Nat
  begun : Nat
  failed : Bool
  desired : List FolderRow
  startedAt : Nat → Nat

def World.initial : World where
  scheduler := .initial
  active := []
  rows := []
  started := false
  wake := false
  turn := .off
  lastFull := []
  born := 0
  version := 0
  announced := 0
  begun := 0
  failed := false
  desired := []
  startedAt := fun _ => 0

/-- Which rows a commit may leave: each is an earlier one or has a new serial number. -/
def Follows (w : World) (rows : List FolderRow) (born : Nat) : Prop :=
  w.born ≤ born ∧ (rows.map FolderRow.id).Nodup ∧ ∀ r ∈ rows, r.serial < born ∧
    (w.born ≤ r.serial ∨ ∃ o ∈ w.rows, o.serial = r.serial ∧ o.id = r.id ∧
      o.account = r.account ∧ o.path = r.path)

instance (w : World) (rows : List FolderRow) (born : Nat) : Decidable (Follows w rows born) :=
  inferInstanceAs (Decidable (_ ∧ _ ∧ _))

inductive Label where
  | commit (active : List Nat) (rows : List FolderRow) (born : Nat)
  | watcher (l : InboxWatcher.Label)
  | schedule (account : Nat)
  | unschedule (account : Nat)
  | foldersChanged
  | start
  | begin
  | proceed
  | fail
  | stop
  | stopped

/-- `_wake.set()` -/
def setWake (w : World) : World := { w with wake := true, announced := w.version }

def unschedule (w : World) (account : Nat) : World :=
  setWake { w with
    scheduler := unscheduleAccount w.scheduler account, lastFull := w.lastFull.erase account }

/- The end of a tick that has read these accounts and folders. -/
def finishTick (w : World) (active : List Nat) (folders : List FolderRow) (born : Nat) : World :=
  let gone := w.lastFull.filter (· ∉ active)
  let s := supervise w.scheduler folders gone
  let w' := if gone = [] then w else setWake w
  { w' with
    scheduler := s, turn := .waiting, lastFull := active, failed := false
    desired := folders.filter FolderRow.isInbox
    startedAt := fun task => if task < w.scheduler.spawned then w.startedAt task else born }

/- Watchers are started and stopped here only. -/
def ofWatchers : InboxWatcher.Label → Bool
  | .spawn _ _ _ | .stop _ => false
  | _ => true

def next (w : World) : Label → Option World
  | .commit active rows born =>
      if Follows w rows born then
        some { w with active := active, rows := rows, born := born, version := w.version + 1 }
      else none
  | .watcher l =>
      if ofWatchers l then
        (InboxWatcher.next w.scheduler l).map fun s => { w with scheduler := s }
      else none
  | .schedule account => if w.started then some (unschedule w account) else some w
  | .unschedule account => some (unschedule w account)
  | .foldersChanged => if w.started then some (setWake w) else some w
  | .start =>
      match w.turn with
      | .off => some { w with started := true, turn := .created }
      | _ => none
  | .begin =>
      match w.turn with
      | .created | .waiting => some { w with wake := false, turn := .retired, begun := w.version }
      | _ => none
  | .proceed =>
      match w.turn with
      | .retired => some { w with turn := .interval }
      | .interval => some { w with turn := .accounts }
      | .accounts => some { w with turn := .folders w.active }
      | .folders active =>
          some { w with turn := .closing active (w.rows.filter (·.account ∈ active)) w.born }
      | .closing active folders born => some (finishTick w active folders born)
      | _ => none
  | .fail =>
      match w.turn with
      | .interval | .accounts | .folders _ | .closing _ _ _ =>
          some { w with turn := .waiting, failed := true }
      | _ => none
  | .stop => some { w with started := false, turn := .cancelled }
  | .stopped =>
      match w.turn with
      | .cancelled => some { w with
          scheduler := stopWhere (fun _ _ => true) w.scheduler, turn := .off, lastFull := [] }
      | _ => none

/- What the tables and the tasks have to do with each other. -/
structure Registered (s : Scheduler) : Prop where
  registered : ∀ f t, s.registry f = some t → ∃ x, s.tasks t = some x ∧ x.folder = f ∧
    x.cancelling = false ∧ s.accounts f = some x.account
  live : ∀ t x, s.tasks t = some x → x.cancelling = false → x.pc ≠ .done →
    s.registry x.folder = some t
  unspawned : ∀ t, s.spawned ≤ t → s.tasks t = none

theorem registered_spawned {s : Scheduler} (registered : Registered s) {f t : Nat}
    (entry : s.registry f = some t) : t < s.spawned := by
  obtain ⟨x, found, _⟩ := registered.registered f t entry
  by_contra late
  rw [registered.unspawned t (Nat.le_of_not_lt late)] at found
  contradiction

theorem mem_watched {s : Scheduler} (registered : Registered s) {f t : Nat}
    (entry : s.registry f = some t) : f ∈ watched s := by
  obtain ⟨x, found, own, _⟩ := registered.registered f t entry
  refine List.mem_filterMap.mpr ⟨t, List.mem_range.mpr (registered_spawned registered entry), ?_⟩
  rw [found, Option.bind_some, own, if_pos entry]

section Stopping
variable {s s' : Scheduler} {f t : Nat}

/-- Watchers are stopped and none is started. -/
structure Reduced (s s' : Scheduler) : Prop where
  kept : ∀ f t, s'.registry f = some t → s.registry f = some t ∧ s'.tasks t = s.tasks t ∧
    s'.accounts f = s.accounts f
  spawned : s'.spawned = s.spawned

theorem reduced_refl (s : Scheduler) : Reduced s s := ⟨fun _ _ entry => ⟨entry, rfl, rfl⟩, rfl⟩

theorem reduced_trans {u : Scheduler} (first : Reduced s s') (second : Reduced s' u) :
    Reduced s u := by
  refine ⟨fun f t entry => ?_, second.spawned.trans first.spawned⟩
  obtain ⟨middle, tasks, accounts⟩ := second.kept f t entry
  obtain ⟨before, tasks', accounts'⟩ := first.kept f t middle
  exact ⟨before, tasks.trans tasks', accounts.trans accounts'⟩

/- The task in the registry is cancelled, unless it has ended. -/
theorem stop_tables (s : Scheduler) (folder : Nat) :
    (stopFolder s folder).registry = Function.update s.registry folder none ∧
      (stopFolder s folder).accounts = Function.update s.accounts folder none ∧
      (stopFolder s folder).spawned = s.spawned ∧
      ((stopFolder s folder).tasks = s.tasks ∧
          (∀ t x, s.registry folder = some t → s.tasks t = some x → x.pc = .done) ∨
        ∃ t x, s.registry folder = some t ∧ s.tasks t = some x ∧
          (stopFolder s folder).tasks = Function.update s.tasks t
            (some { x with mustCancel := true, cancelling := true })) := by
  unfold stopFolder stopTask
  cases entry : s.registry folder with
  | none =>
    refine ⟨?_, rfl, rfl, Or.inl ⟨rfl, fun t x present => by contradiction⟩⟩
    exact (Function.update_eq_self_iff.mpr entry.symm).symm
  | some t =>
    cases found : s.tasks t with
    | none =>
      simp only [cancelTask, found]
      refine ⟨trivial, trivial, trivial, Or.inl ⟨trivial, fun u x same known => ?_⟩⟩
      rw [← Option.some.inj same, found] at known
      contradiction
    | some x =>
      by_cases done_ : x.pc = .done
      · simp only [cancelTask, found, if_pos done_]
        refine ⟨trivial, trivial, trivial, Or.inl ⟨trivial, fun u y same known => ?_⟩⟩
        rw [← Option.some.inj same, found] at known
        exact Option.some.inj known ▸ done_
      · simp only [cancelTask, found, if_neg done_]
        exact ⟨trivial, trivial, trivial, Or.inr ⟨t, x, rfl, found, rfl⟩⟩

theorem stop_reduced (registered : Registered s) (folder : Nat) :
    Registered (stopFolder s folder) ∧ Reduced s (stopFolder s folder) := by
  obtain ⟨registry, accounts, spawned, tasks⟩ := stop_tables s folder
  have kept : ∀ f t, (stopFolder s folder).registry f = some t → f ≠ folder ∧
      s.registry f = some t ∧ (stopFolder s folder).tasks t = s.tasks t := by
    intro f t entry
    rw [registry] at entry
    by_cases same : f = folder
    · rw [same, Function.update_self] at entry
      contradiction
    · rw [Function.update_of_ne same] at entry
      refine ⟨same, entry, ?_⟩
      rcases tasks with ⟨tasks, _⟩ | ⟨u, x, own, found, tasks⟩
      · rw [tasks]
      · rw [tasks, Function.update_of_ne]
        rintro rfl
        obtain ⟨y, known, first, _⟩ := registered.registered f t entry
        obtain ⟨z, known', second, _⟩ := registered.registered folder t own
        rw [known, Option.some.injEq] at known'
        exact same (first.symm.trans (known' ▸ second))
  constructor
  · constructor
    · intro f t entry
      obtain ⟨other, before, same⟩ := kept f t entry
      rw [same, accounts, Function.update_of_ne other]
      exact registered.registered f t before
    · intro t x found calm active
      rcases tasks with ⟨tasks, gone⟩ | ⟨u, y, own, known, tasks⟩
      · rw [tasks] at found
        have entry := registered.live t x found calm active
        rw [registry, Function.update_of_ne]
        · exact entry
        · intro same
          rw [same] at entry
          exact active (gone t x entry found)
      · rw [tasks] at found
        by_cases same : t = u
        · subst same
          rw [Function.update_self, Option.some.injEq] at found
          subst found
          contradiction
        · rw [Function.update_of_ne same] at found
          have entry := registered.live t x found calm active
          rw [registry, Function.update_of_ne]
          · exact entry
          · intro here
            rw [here, own, Option.some.injEq] at entry
            exact same entry.symm
    · intro t late
      rw [spawned] at late
      have absent := registered.unspawned t late
      rcases tasks with ⟨tasks, _⟩ | ⟨u, y, _, known, tasks⟩
      · rw [tasks]
        exact absent
      · rw [tasks, Function.update_of_ne]
        · exact absent
        · rintro rfl
          rw [known] at absent
          contradiction
  · refine ⟨fun f t entry => ?_, spawned⟩
    obtain ⟨other, before, same⟩ := kept f t entry
    exact ⟨before, same, by rw [accounts, Function.update_of_ne other]⟩

/-- What a loop asks about a folder does not depend on the other folders. -/
def Local (which : Scheduler → Nat → Bool) : Prop :=
  ∀ s s' f t, Reduced s s' → s'.registry f = some t → which s' f = which s f

theorem ended_local : Local ended := by
  intro s s' f t reduced entry
  obtain ⟨before, tasks, _⟩ := reduced.kept f t entry
  rw [ended, ended, entry, before, Option.bind_some, Option.bind_some, tasks]

theorem stop_each {which : Scheduler → Nat → Bool} (isLocal : Local which) (folders : List Nat) :
    ∀ {s : Scheduler}, Registered s →
      let s' := folders.foldl (fun s f => if which s f then stopFolder s f else s) s
      Registered s' ∧ Reduced s s' ∧
        ∀ f ∈ folders, ∀ t, s'.registry f = some t → which s' f = false := by
  induction folders with
  | nil =>
    intro s registered
    exact ⟨registered, reduced_refl s, fun f mem => by contradiction⟩
  | cons g rest ih =>
    intro s registered
    dsimp only
    rw [List.foldl_cons]
    by_cases chosen : which s g = true
    · rw [if_pos chosen]
      obtain ⟨registered', reduced⟩ := stop_reduced registered g
      obtain ⟨after, less, left⟩ := ih registered'
      refine ⟨after, reduced_trans reduced less, fun f mem t entry => ?_⟩
      rcases List.mem_cons.mp mem with rfl | later
      · have before := (less.kept f t entry).1
        rw [(stop_tables s f).1, Function.update_self] at before
        contradiction
      · exact left f later t entry
    · rw [if_neg chosen]
      obtain ⟨after, less, left⟩ := ih registered
      refine ⟨after, less, fun f mem t entry => ?_⟩
      rcases List.mem_cons.mp mem with rfl | later
      · rw [isLocal s _ f t less entry]
        exact Bool.eq_false_iff.mpr chosen
      · exact left f later t entry

theorem stop_where {which : Scheduler → Nat → Bool} (isLocal : Local which)
    (registered : Registered s) : Registered (stopWhere which s) ∧
      Reduced s (stopWhere which s) ∧
      ∀ f t, (stopWhere which s).registry f = some t → which (stopWhere which s) f = false := by
  obtain ⟨after, reduced, left⟩ := stop_each isLocal (watched s) registered
  refine ⟨after, reduced, fun f t entry => left f ?_ t entry⟩
  exact mem_watched registered (reduced.kept f t entry).1

/- No watcher of the account is left in the tables. -/
theorem unschedule_account (registered : Registered s) (account : Nat) :
    Registered (unscheduleAccount s account) ∧ Reduced s (unscheduleAccount s account) ∧
      ∀ f t x, (unscheduleAccount s account).registry f = some t →
        (unscheduleAccount s account).tasks t = some x → x.account ≠ account := by
  have isLocal : Local fun s folder => s.accounts folder = some account := by
    intro s s' f t reduced entry
    dsimp only
    rw [(reduced.kept f t entry).2.2]
  obtain ⟨after, reduced, left⟩ := stop_where isLocal registered
  refine ⟨after, reduced, fun f t x entry found => ?_⟩
  rintro rfl
  obtain ⟨y, known, _, _, accounts⟩ := after.registered f t entry
  have same : y = x := Option.some.inj (known.symm.trans found)
  have other := left f t entry
  rw [same] at accounts
  exact absurd accounts (by simpa using other)

theorem unschedule_accounts (accounts : List Nat) : ∀ {s : Scheduler}, Registered s →
    Registered (accounts.foldl unscheduleAccount s) ∧
      Reduced s (accounts.foldl unscheduleAccount s) := by
  induction accounts with
  | nil => exact fun registered => ⟨registered, reduced_refl _⟩
  | cons account rest ih =>
    intro s registered
    obtain ⟨registered', reduced, _⟩ := unschedule_account registered account
    obtain ⟨after, less⟩ := ih registered'
    exact ⟨after, reduced_trans reduced less⟩

end Stopping

section Starting
variable {s s' : Scheduler}

/-- Watchers are started for rows of the list, and none is stopped. -/
structure Extended (rows : List FolderRow) (s s' : Scheduler) : Prop where
  kept : ∀ f t, s.registry f = some t → s'.registry f = some t ∧ s'.tasks t = s.tasks t
  fresh : ∀ f t, s'.registry f = some t → s.registry f = some t ∨
    s.spawned ≤ t ∧ ∃ row ∈ rows, row.id = f ∧ ∃ x, s'.tasks t = some x ∧ x.pc = .created ∧
      x.account = row.account ∧ x.path = row.path
  spawned : s.spawned ≤ s'.spawned

theorem spawn_registered (registered : Registered s) {account folder : Nat} (path : String)
    (vacant : s.registry folder = none) : Registered (spawnWatcher s account folder path) := by
  have other : ∀ f t, s.registry f = some t → f ≠ folder := by
    rintro f t entry rfl
    rw [vacant] at entry
    contradiction
  have older : ∀ {t x}, s.tasks t = some x → t ≠ s.spawned := by
    rintro t x found rfl
    rw [registered.unspawned _ (Nat.le_refl _)] at found
    contradiction
  constructor
  · intro f t entry
    change Function.update s.registry folder (some s.spawned) f = some t at entry
    change ∃ x, Function.update s.tasks s.spawned _ t = some x ∧ _ ∧ _ ∧
      Function.update s.accounts folder (some account) f = _
    by_cases same : f = folder
    · subst same
      rw [Function.update_self, Option.some.injEq] at entry
      subst entry
      rw [Function.update_self, Function.update_self]
      exact ⟨_, rfl, rfl, rfl, rfl⟩
    · rw [Function.update_of_ne same] at entry
      obtain ⟨x, found, rest⟩ := registered.registered f t entry
      rw [Function.update_of_ne (older found), Function.update_of_ne same]
      exact ⟨x, found, rest⟩
  · intro t x found calm active
    change Function.update s.tasks s.spawned _ t = some x at found
    change Function.update s.registry folder (some s.spawned) x.folder = some t
    by_cases same : t = s.spawned
    · subst same
      rw [Function.update_self, Option.some.injEq] at found
      subst found
      exact Function.update_self ..
    · rw [Function.update_of_ne same] at found
      have entry := registered.live t x found calm active
      rw [Function.update_of_ne (other _ _ entry)]
      exact entry
  · intro t late
    change s.spawned + 1 ≤ t at late
    change Function.update s.tasks s.spawned _ t = none
    rw [Function.update_of_ne (Nat.ne_of_gt late)]
    exact registered.unspawned t (Nat.le_of_succ_le late)

theorem start_extended (registered : Registered s) (row : FolderRow) :
    Registered (startWatcher s row) ∧ Extended [row] s (startWatcher s row) ∧
      ((startWatcher s row).registry row.id).isSome := by
  unfold startWatcher
  cases vacant : s.registry row.id with
  | some t =>
    refine ⟨registered, ⟨fun _ _ entry => ⟨entry, rfl⟩, fun _ _ entry => Or.inl entry, ?_⟩, ?_⟩
    · exact Nat.le_refl _
    · rw [vacant]
      rfl
  | none =>
    have registry : ∀ f, (spawnWatcher s row.account row.id row.path).registry f =
        if f = row.id then some s.spawned else s.registry f := fun f => by
      exact Function.update_apply ..
    refine ⟨spawn_registered registered row.path vacant, ⟨fun f t entry => ?_, fun f t entry => ?_,
      Nat.le_succ _⟩, ?_⟩
    · refine ⟨?_, Function.update_of_ne (Nat.ne_of_lt (registered_spawned registered entry)) ..⟩
      rw [registry, if_neg]
      · exact entry
      · rintro rfl
        rw [vacant] at entry
        contradiction
    · dsimp only at entry
      rw [registry] at entry
      split at entry
      · rename_i same
        rw [Option.some.injEq] at entry
        subst entry
        refine Or.inr ⟨Nat.le_refl _, row, List.mem_singleton_self _, same.symm, ?_⟩
        exact ⟨_, Function.update_self .., rfl, rfl, rfl⟩
      · exact Or.inl entry
    · dsimp only
      rw [registry, if_pos rfl]
      rfl

theorem start_each (rows : List FolderRow) : ∀ {s : Scheduler}, Registered s →
    Registered (rows.foldl startWatcher s) ∧ Extended rows s (rows.foldl startWatcher s) ∧
      ∀ row ∈ rows, ((rows.foldl startWatcher s).registry row.id).isSome := by
  induction rows with
  | nil =>
    intro s registered
    exact ⟨registered, ⟨fun _ _ entry => ⟨entry, rfl⟩, fun _ _ entry => Or.inl entry,
      Nat.le_refl _⟩, fun row mem => by contradiction⟩
  | cons row rest ih =>
    intro s registered
    obtain ⟨registered', first, covered⟩ := start_extended registered row
    obtain ⟨after, more, others⟩ := ih registered'
    rw [List.foldl_cons]
    refine ⟨after, ⟨fun f t entry => ?_, fun f t entry => ?_, ?_⟩, fun r mem => ?_⟩
    · obtain ⟨middle, tasks⟩ := first.kept f t entry
      obtain ⟨last, tasks'⟩ := more.kept f t middle
      exact ⟨last, tasks'.trans tasks⟩
    · rcases more.fresh f t entry with middle | ⟨late, r, mem, own⟩
      · rcases first.fresh f t middle with before | ⟨late, r, mem, own, x, found, kinds⟩
        · exact Or.inl before
        · refine Or.inr ⟨late, r, ?_, own, x, ?_, kinds⟩
          · rw [List.mem_singleton.mp mem]
            exact List.mem_cons_self
          · exact (more.kept f t middle).2.trans found
      · exact Or.inr ⟨Nat.le_trans first.spawned late, r, List.mem_cons_of_mem _ mem, own⟩
    · exact Nat.le_trans first.spawned more.spawned
    · rcases List.mem_cons.mp mem with rfl | later
      · obtain ⟨t, entry⟩ := Option.isSome_iff_exists.mp covered
        rw [(more.kept _ t entry).1]
        rfl
      · exact others r later

end Starting

/-- What a tick leaves: the inboxes it has read are watched, and nothing else is. A watcher
from before is one that has not ended. -/
structure Supervised (s s' : Scheduler) (desired : List FolderRow) : Prop where
  registered : Registered s'
  exactly : ∀ f, (s'.registry f).isSome ↔ ∃ row ∈ desired, row.id = f
  watchers : ∀ f t x, s'.registry f = some t → s'.tasks t = some x → x.pc ≠ .done ∧
    (s.registry f = some t ∧ s.tasks t = some x ∨
      s.spawned ≤ t ∧ ∃ row ∈ desired, row.id = f ∧ x.account = row.account ∧ x.path = row.path)
  spawned : s.spawned ≤ s'.spawned

theorem supervise_supervised {s : Scheduler} (registered : Registered s)
    (folders : List FolderRow) (gone : List Nat) :
    Supervised s (supervise s folders gone) (folders.filter FolderRow.isInbox) := by
  let desired := folders.filter FolderRow.isInbox
  let pruned := dropStates s folders
  have isLocal : Local (undesired desired) := by
    intro a b f t reduced entry
    rw [undesired, undesired, ended_local a b f t reduced entry]
  have pruned_registered : Registered pruned :=
    ⟨registered.registered, registered.live, registered.unspawned⟩
  obtain ⟨stopped, reduced, left⟩ := stop_where isLocal pruned_registered
  obtain ⟨unscheduled, less⟩ := unschedule_accounts gone stopped
  obtain ⟨started, extended, covered⟩ := start_each desired unscheduled
  have all := reduced_trans reduced less
  have before : ∀ f t,
      (gone.foldl unscheduleAccount (stopWhere (undesired desired) pruned)).registry f = some t →
      s.registry f = some t ∧ (∃ row ∈ desired, row.id = f) ∧
        ∃ x, s.tasks t = some x ∧ x.pc ≠ .done := by
    intro f t entry
    have middle := (less.kept f t entry).1
    obtain ⟨first, tasks, _⟩ := reduced.kept f t middle
    obtain ⟨x, found, _⟩ := registered.registered f t first
    have kept := left f t middle
    rw [isLocal pruned _ f t reduced middle] at kept
    obtain ⟨listed, active⟩ : f ∈ desired.map FolderRow.id ∧ ended pruned f = false := by
      simpa [undesired] using kept
    refine ⟨first, List.mem_map.mp listed, x, found, fun done_ => ?_⟩
    rw [ended, show pruned.registry f = some t from first, Option.bind_some,
      show pruned.tasks t = some x from found] at active
    simp [done_] at active
  refine ⟨started, fun f => ?_, fun f t x entry found => ?_, ?_⟩
  · constructor
    · intro present
      obtain ⟨t, entry⟩ := Option.isSome_iff_exists.mp present
      rcases extended.fresh f t entry with old | ⟨_, row, mem, own, _⟩
      · exact (before f t old).2.1
      · exact ⟨row, mem, own⟩
    · rintro ⟨row, mem, rfl⟩
      exact covered row mem
  · rcases extended.fresh f t entry with old | ⟨late, row, mem, own, y, known, fresh, account, path⟩
    · obtain ⟨first, _, y, known, active⟩ := before f t old
      have same : y = x := by
        have tasks := (extended.kept f t old).2.trans (all.kept f t old).2.1
        exact Option.some.inj ((known.symm.trans tasks.symm).trans found)
      exact ⟨same ▸ active, Or.inl ⟨first, same ▸ known⟩⟩
    · have same : y = x := Option.some.inj (known.symm.trans found)
      subst same
      rw [all.spawned] at late
      exact ⟨by rw [fresh]; simp, Or.inr ⟨late, row, mem, own, account, path⟩⟩
  · exact Nat.le_trans (Nat.le_of_eq all.spawned.symm) extended.spawned

section Working
variable {s s' : Scheduler}

def SamePlace (x x' : Watch) : Prop := x'.account = x.account ∧ x'.path = x.path

theorem inner_finally_place (x : Watch) (again : Bool) : SamePlace x (innerFinally x again).1 := by
  unfold innerFinally afterFinally
  cases x.client with
  | some client => exact ⟨rfl, rfl⟩
  | none => cases again <;> exact ⟨rfl, rfl⟩

theorem thrown_place (x : Watch) : SamePlace x (throwCancelled x).1 := by
  have through := inner_finally_place { x with mustCancel := false } false
  unfold throwCancelled
  cases x.pc <;> first | exact through | exact ⟨rfl, rfl⟩

theorem after_session_place (x : Watch) (leave : Leave) : SamePlace x (afterSession x leave).1 := by
  cases leave with
  | proceed => exact ⟨rfl, rfl⟩
  | returned => exact inner_finally_place x false
  | raised e => exact ⟨rfl, rfl⟩
  | cancelled => exact inner_finally_place x false

theorem after_check_place (x : Watch) (elapsed : Bool) : SamePlace x (afterCheck x elapsed).1 := by
  unfold afterCheck
  dsimp only
  split
  · exact ⟨rfl, rfl⟩
  · split <;> exact ⟨rfl, rfl⟩

/- A watcher keeps to its account and its path, and one that has ended stays so. -/
theorem resume_place {x x' : Watch} {a : Answer} {effects : List Effect}
    (step : resume x a = some (x', effects)) :
    SamePlace x x' ∧ (x.pc = .done → x'.pc = .done) := by
  unfold resume at step
  split at step
  · split at step
    · have same : (throwCancelled x).1 = x' := congrArg Prod.fst (Option.some.inj step)
      subst same
      refine ⟨thrown_place x, fun done_ => ?_⟩
      rw [throwCancelled]
      simp only [done_]
    · contradiction
  · have after_finally : ∀ again, SamePlace x (afterFinally x again).1 := by
      intro again
      cases again <;> exact ⟨rfl, rfl⟩
    split at step
    all_goals first
      | contradiction
      | rename_i pc
        have same := congrArg Prod.fst (Option.some.inj step)
        subst same
        refine ⟨?_, fun done_ => by simp [pc] at done_⟩
        first
          | exact ⟨rfl, rfl⟩
          | exact after_session_place _ _
          | exact after_check_place _ _
          | exact inner_finally_place _ _
          | exact after_finally _

theorem effects_accounts (task folder : Nat) (effects : List Effect) (s : Scheduler) :
    (effects.foldl (applyEffect task folder) s).accounts = s.accounts := by
  induction effects generalizing s with
  | nil => rfl
  | cons e rest ih =>
    rw [List.foldl_cons, ih]
    cases e <;> rfl

/-- The watchers go on, each for itself, and the supervisor does nothing. -/
structure Worked (s s' : Scheduler) : Prop where
  registry : s'.registry = s.registry
  accounts : s'.accounts = s.accounts
  spawned : s'.spawned = s.spawned
  tasks : ∀ t x', s'.tasks t = some x' → ∃ x, s.tasks t = some x ∧ SamePlace x x' ∧
    x'.folder = x.folder ∧ x'.cancelling = x.cancelling ∧ (x.pc = .done → x'.pc = .done)
  same : ∀ t, (s'.tasks t).isSome = (s.tasks t).isSome

/- One task is written. -/
theorem written_worked {t : Nat} {x x' : Watch} (found : s.tasks t = some x)
    (registry : s'.registry = s.registry) (accounts : s'.accounts = s.accounts)
    (spawned : s'.spawned = s.spawned) (tasks : s'.tasks = Function.update s.tasks t (some x'))
    (place : SamePlace x x') (folder : x'.folder = x.folder)
    (cancelling : x'.cancelling = x.cancelling) (ends : x.pc = .done → x'.pc = .done) :
    Worked s s' := by
  refine ⟨registry, accounts, spawned, fun u y known => ?_, fun u => ?_⟩
  · rw [tasks] at known
    by_cases own : u = t
    · subst own
      rw [Function.update_self, Option.some.injEq] at known
      exact known ▸ ⟨x, found, place, folder, cancelling, ends⟩
    · rw [Function.update_of_ne own] at known
      exact ⟨y, known, ⟨rfl, rfl⟩, rfl, rfl, id⟩
  · rw [tasks]
    by_cases own : u = t
    · subst own
      rw [Function.update_self, found]
      rfl
    · rw [Function.update_of_ne own]

theorem watcher_worked {l : InboxWatcher.Label} (own : ofWatchers l = true)
    (step : InboxWatcher.next s l = some s') : Worked s s' := by
  cases l with
  | spawn account folder path => contradiction
  | stop folder => contradiction
  | answer task a =>
    obtain ⟨x, x', effects, answer, resumed⟩ := answer_step step
    have keeps := resume_keeps answer
    have place := resume_place answer
    refine written_worked resumed.found resumed.registry ?_ resumed.spawned resumed.tasks
      place.1 keeps.folder keeps.cancelling place.2
    rw [InboxWatcher.next] at step
    simp only [resumed.found] at step
    split at step
    · obtain ⟨⟨y, more⟩, _, rfl⟩ := Option.map_eq_some_iff.mp step
      exact effects_accounts ..
    · contradiction
  | report task response =>
    obtain ⟨x, found, _, rfl⟩ := report_step step
    exact written_worked found rfl rfl rfl rfl ⟨rfl, rfl⟩ rfl rfl id
  | doneCallback task =>
    obtain ⟨x, found, _, rfl⟩ := callback_step step
    exact ⟨rfl, rfl, rfl, fun t x known => ⟨x, known, ⟨rfl, rfl⟩, rfl, rfl, id⟩, fun _ => rfl⟩

theorem worked_registered (registered : Registered s) (worked : Worked s s') : Registered s' := by
  constructor
  · intro f t entry
    rw [worked.registry] at entry
    obtain ⟨x, found, own, calm, account⟩ := registered.registered f t entry
    have present : (s'.tasks t).isSome := by
      rw [worked.same, found]
      rfl
    obtain ⟨x', found'⟩ := Option.isSome_iff_exists.mp present
    obtain ⟨y, known, place, folder, cancelling, _⟩ := worked.tasks t x' found'
    have eq : y = x := Option.some.inj (known.symm.trans found)
    subst eq
    exact ⟨x', found', folder.trans own, cancelling.trans calm,
      by rw [worked.accounts, account, place.1]⟩
  · intro t x' found' calm active
    obtain ⟨x, found, _, folder, cancelling, ends⟩ := worked.tasks t x' found'
    rw [worked.registry, folder]
    exact registered.live t x found (cancelling.symm.trans calm) fun done_ => active (ends done_)
  · intro t late
    have absent := registered.unspawned t (worked.spawned ▸ late)
    rw [← Option.isNone_iff_eq_none, ← Option.not_isSome, worked.same, absent]
    simp

end Working

/-- The inbox folders of active accounts. -/
def inboxes (active : List Nat) (rows : List FolderRow) : List FolderRow :=
  (rows.filter (·.account ∈ active)).filter FolderRow.isInbox

/- What a tick on its way has read. Until the next commit it is what the database has. -/
structure Sound (w : World) : Prop where
  registered : Registered w.scheduler
  distinct : (w.rows.map FolderRow.id).Nodup
  older : ∀ r ∈ w.rows, r.serial < w.born
  desired : ∀ f t, w.scheduler.registry f = some t → ∃ row ∈ w.desired, row.id = f
  complete : w.turn = .waiting → w.failed = false → w.wake = false →
    ∀ row ∈ w.desired, (w.scheduler.registry row.id).isSome
  current : w.turn = .waiting → w.failed = false → w.begun = w.version →
    w.desired = inboxes w.active w.rows
  reading : ∀ active, w.turn = .folders active → w.begun = w.version → active = w.active
  closing : ∀ active folders born, w.turn = .closing active folders born → born ≤ w.born ∧
    (w.begun = w.version → active = w.active ∧ folders = w.rows.filter (·.account ∈ active)) ∧
    ∀ o ∈ folders, ∀ r ∈ w.rows, r.id = o.id → r.serial < born →
      o.account = r.account ∧ o.path = r.path
  announced : w.announced ≤ w.version
  begun : w.begun ≤ w.version
  noticed : w.wake = false → w.announced ≤ w.begun
  named : ∀ f t x r, w.scheduler.registry f = some t → w.scheduler.tasks t = some x →
    r ∈ w.rows → r.id = f → r.serial < w.startedAt t → x.account = r.account ∧ x.path = r.path
  born : ∀ f t, w.scheduler.registry f = some t → w.startedAt t ≤ w.born
  off : w.turn = .off ∨ w.turn = .created → ∀ f, w.scheduler.registry f = none

theorem initial_sound : Sound .initial := by
  constructor <;> simp [World.initial, Scheduler.initial]
  · constructor <;> simp

variable {w w' : World}

theorem commit_sound (sound : Sound w) {active : List Nat} {rows : List FolderRow} {born : Nat}
    (follows : Follows w rows born) : Sound { w with
      active := active, rows := rows, born := born, version := w.version + 1 } := by
  obtain ⟨grows, distinct, each⟩ := follows
  have stale : w.begun ≠ w.version + 1 := by
    have := sound.begun
    omega
  -- a row that is not new has kept its account and its path
  have earlier : ∀ r ∈ rows, r.serial < w.born → ∃ o ∈ w.rows, o.serial = r.serial ∧ o.id = r.id ∧
      o.account = r.account ∧ o.path = r.path := by
    intro r mem old
    rcases (each r mem).2 with new | kept
    · omega
    · exact kept
  constructor
  · exact sound.registered
  · exact distinct
  · exact fun r mem => (each r mem).1
  · exact sound.desired
  · exact sound.complete
  · exact fun _ _ fresh => absurd fresh stale
  · exact fun _ _ fresh => absurd fresh stale
  · intro act folders b turn
    obtain ⟨before, _, same⟩ := sound.closing act folders b turn
    refine ⟨Nat.le_trans before grows, fun fresh => absurd fresh stale,
      fun o listed r mem own old => ?_⟩
    obtain ⟨p, inside, serial, id, account, path⟩ := earlier r mem (Nat.lt_of_lt_of_le old before)
    obtain ⟨account', path'⟩ := same o listed p inside (id.trans own) (serial ▸ old)
    exact ⟨account'.trans account, path'.trans path⟩
  · exact Nat.le_succ_of_le sound.announced
  · exact Nat.le_succ_of_le sound.begun
  · exact sound.noticed
  · intro f t x r entry found mem own old
    have before := sound.born f t entry
    obtain ⟨p, inside, serial, id, account, path⟩ := earlier r mem (Nat.lt_of_lt_of_le old before)
    obtain ⟨account', path'⟩ := sound.named f t x p entry found inside (id.trans own) (serial ▸ old)
    exact ⟨account'.trans account, path'.trans path⟩
  · exact fun f t entry => Nat.le_trans (sound.born f t entry) grows
  · exact sound.off

theorem worked_sound (sound : Sound w) {s : Scheduler} (worked : Worked w.scheduler s) :
    Sound { w with scheduler := s } := by
  have entries : ∀ {f t}, s.registry f = some t → w.scheduler.registry f = some t :=
    fun entry => worked.registry ▸ entry
  constructor
  · exact worked_registered sound.registered worked
  · exact sound.distinct
  · exact sound.older
  · exact fun f t entry => sound.desired f t (entries entry)
  · intro turn fine quiet row mem
    rw [worked.registry]
    exact sound.complete turn fine quiet row mem
  · exact sound.current
  · exact sound.reading
  · exact sound.closing
  · exact sound.announced
  · exact sound.begun
  · exact sound.noticed
  · intro f t x' r entry found' mem own old
    obtain ⟨x, found, place, _⟩ := worked.tasks t x' found'
    obtain ⟨account, path⟩ := sound.named f t x r (entries entry) found mem own old
    exact ⟨place.1.trans account, place.2.trans path⟩
  · exact fun f t entry => sound.born f t (entries entry)
  · intro turn f
    rw [worked.registry]
    exact sound.off turn f

/- Watchers are stopped, and the loop is told. -/
theorem reduced_sound (sound : Sound w) {s : Scheduler} (registered : Registered s)
    (reduced : Reduced w.scheduler s) (accounts : List Nat) :
    Sound (setWake { w with scheduler := s, lastFull := accounts }) := by
  constructor
  · exact registered
  · exact sound.distinct
  · exact sound.older
  · exact fun f t entry => sound.desired f t (reduced.kept f t entry).1
  · intro _ _ quiet
    contradiction
  · exact sound.current
  · exact sound.reading
  · exact sound.closing
  · exact Nat.le_refl _
  · exact sound.begun
  · intro quiet
    contradiction
  · intro f t x r entry found mem own old
    obtain ⟨before, tasks, _⟩ := reduced.kept f t entry
    exact sound.named f t x r before (tasks ▸ found) mem own old
  · exact fun f t entry => sound.born f t (reduced.kept f t entry).1
  · intro turn f
    rw [Option.eq_none_iff_forall_ne_some]
    intro t entry
    have before := (reduced.kept f t entry).1
    rw [sound.off turn f] at before
    contradiction

theorem unschedule_sound (sound : Sound w) (account : Nat) : Sound (unschedule w account) := by
  obtain ⟨registered, reduced, _⟩ := unschedule_account sound.registered account
  exact reduced_sound sound registered reduced _

theorem wake_sound (sound : Sound w) : Sound (setWake w) :=
  reduced_sound sound sound.registered (reduced_refl _) w.lastFull

/- The loop goes on to its next await, apart from the end of a tick. -/
theorem turn_sound (sound : Sound w) {turn : Turn} {started failed : Bool}
    (waits : turn = .waiting → failed = true)
    (reads : ∀ active, turn = .folders active → active = w.active)
    (closes : ∀ active folders born, turn = .closing active folders born → born = w.born ∧
      folders = w.rows.filter (·.account ∈ active) ∧ (w.begun = w.version → active = w.active))
    (off : turn = .off ∨ turn = .created → w.turn = .off) :
    Sound { w with turn := turn, started := started, failed := failed } := by
  constructor
  · exact sound.registered
  · exact sound.distinct
  · exact sound.older
  · exact sound.desired
  · intro waiting fine
    rw [show failed = true from waits waiting] at fine
    contradiction
  · intro waiting fine
    rw [show failed = true from waits waiting] at fine
    contradiction
  · exact fun active reading _ => reads active reading
  · intro active folders born closing
    obtain ⟨rfl, listed, fresh⟩ := closes active folders born closing
    refine ⟨Nat.le_refl _, fun same => ⟨fresh same, listed⟩, fun o mem r inside own _ => ?_⟩
    rw [listed] at mem
    have same : r = o :=
      List.inj_on_of_nodup_map sound.distinct inside (List.mem_of_mem_filter mem) own
    exact same ▸ ⟨rfl, rfl⟩
  · exact sound.announced
  · exact sound.begun
  · exact sound.noticed
  · exact sound.named
  · exact sound.born
  · exact fun turn f => sound.off (Or.inl (off turn)) f

theorem await_sound (sound : Sound w) {turn : Turn} (started : Bool)
    (plain : turn = .interval ∨ turn = .accounts ∨ turn = .cancelled) :
    Sound { w with turn := turn, started := started } := by
  have other : ∀ t : Turn, turn = t → t = .interval ∨ t = .accounts ∨ t = .cancelled :=
    fun t same => same ▸ plain
  refine turn_sound sound (fun waits => ?_) (fun active reads => ?_)
    (fun active folders born closes => ?_) (fun off => ?_)
  · simpa using other _ waits
  · simpa using other _ reads
  · simpa using other _ closes
  · rcases off with off | created
    · simpa using other _ off
    · simpa using other _ created

theorem begin_sound (sound : Sound w) :
    Sound { w with wake := false, turn := .retired, begun := w.version } := by
  constructor
  · exact sound.registered
  · exact sound.distinct
  · exact sound.older
  · exact sound.desired
  · intro waiting
    contradiction
  · intro waiting
    contradiction
  · intro active reading
    contradiction
  · intro active folders born closing
    contradiction
  · exact sound.announced
  · exact Nat.le_refl _
  · exact fun _ => sound.announced
  · exact sound.named
  · exact sound.born
  · rintro (off | created) <;> contradiction

theorem finish_sound (sound : Sound w) {active : List Nat} {folders : List FolderRow} {born : Nat}
    (turn : w.turn = .closing active folders born) : Sound (finishTick w active folders born) := by
  obtain ⟨before, fresh, same⟩ := sound.closing active folders born turn
  have supervised := supervise_supervised sound.registered folders
    (w.lastFull.filter (· ∉ active))
  have flags : Sound (if w.lastFull.filter (· ∉ active) = [] then w else setWake w) := by
    split
    · exact sound
    · exact wake_sound sound
  have parts : ∀ w' : World, w' = (if w.lastFull.filter (· ∉ active) = [] then w else setWake w) →
      w'.active = w.active ∧ w'.rows = w.rows ∧ w'.born = w.born ∧ w'.version = w.version ∧
        w'.begun = w.begun := by
    rintro w' rfl
    split <;> exact ⟨rfl, rfl, rfl, rfl, rfl⟩
  unfold finishTick
  dsimp only
  generalize eq : (if w.lastFull.filter (· ∉ active) = [] then w else setWake w) = w' at flags ⊢
  obtain ⟨actives, rows, borns, version, begun⟩ := parts w' eq.symm
  constructor
  · exact supervised.registered
  · exact flags.distinct
  · exact flags.older
  · intro f t entry
    exact (supervised.exactly f).mp (by rw [entry]; rfl)
  · exact fun _ _ _ row mem => (supervised.exactly row.id).mpr ⟨row, mem, rfl⟩
  · intro _ _ unchanged
    dsimp only at unchanged ⊢
    rw [begun, version] at unchanged
    obtain ⟨read, listed⟩ := fresh unchanged
    rw [listed, read, actives, rows]
    rfl
  · intro act reading
    contradiction
  · intro act more b closing
    contradiction
  · exact flags.announced
  · exact flags.begun
  · exact flags.noticed
  · intro f t x r entry found mem own old
    dsimp only at entry found mem old
    rw [rows] at mem
    rcases (supervised.watchers f t x entry found).2 with ⟨entry', found'⟩ | ⟨late, row, listed,
      id, account, path⟩
    · rw [if_pos (registered_spawned sound.registered entry')] at old
      exact sound.named f t x r entry' found' mem own old
    · rw [if_neg (Nat.not_lt.mpr late)] at old
      obtain ⟨account', path'⟩ :=
        same row (List.mem_of_mem_filter listed) r mem (own.trans id.symm) old
      exact ⟨account.trans account', path.trans path'⟩
  · intro f t entry
    dsimp only at entry ⊢
    rw [borns]
    split
    · rename_i older
      obtain ⟨x, found, _⟩ := supervised.registered.registered f t entry
      rcases (supervised.watchers f t x entry found).2 with ⟨entry', _⟩ | ⟨late, _⟩
      · exact sound.born f t entry'
      · exact absurd older (Nat.not_lt.mpr late)
    · exact before
  · rintro (off | created) <;> contradiction

theorem stopped_sound (sound : Sound w) : Sound { w with
    scheduler := stopWhere (fun _ _ => true) w.scheduler, turn := .off, lastFull := [] } := by
  obtain ⟨registered, reduced, left⟩ :=
    stop_where (fun _ _ _ _ _ _ => rfl : Local fun _ _ => true) sound.registered
  have empty : ∀ f, (stopWhere (fun _ _ => true) w.scheduler).registry f = none := by
    intro f
    rw [Option.eq_none_iff_forall_ne_some]
    intro t entry
    have := left f t entry
    contradiction
  constructor
  · exact registered
  · exact sound.distinct
  · exact sound.older
  · exact fun f t entry => sound.desired f t (reduced.kept f t entry).1
  · intro waiting
    contradiction
  · intro waiting
    contradiction
  · intro active reading
    contradiction
  · intro active folders born closing
    contradiction
  · exact sound.announced
  · exact sound.begun
  · exact sound.noticed
  · intro f t x r entry
    rw [show _ = none from empty f] at entry
    contradiction
  · exact fun f t entry => sound.born f t (reduced.kept f t entry).1
  · exact fun _ => empty

theorem next_sound (sound : Sound w) {l : Label} (step : next w l = some w') : Sound w' := by
  cases l with
  | commit active rows born =>
    rw [next] at step
    split at step
    · rename_i follows
      rw [Option.some.injEq] at step
      exact step ▸ commit_sound sound follows
    · contradiction
  | watcher l =>
    rw [next] at step
    split at step
    · rename_i own
      obtain ⟨s, moved, rfl⟩ := Option.map_eq_some_iff.mp step
      exact worked_sound sound (watcher_worked own moved)
    · contradiction
  | schedule account =>
    rw [next] at step
    split at step
    · rw [Option.some.injEq] at step
      exact step ▸ unschedule_sound sound account
    · rw [Option.some.injEq] at step
      exact step ▸ sound
  | unschedule account =>
    rw [next, Option.some.injEq] at step
    exact step ▸ unschedule_sound sound account
  | foldersChanged =>
    rw [next] at step
    split at step
    · rw [Option.some.injEq] at step
      exact step ▸ wake_sound sound
    · rw [Option.some.injEq] at step
      exact step ▸ sound
  | start =>
    rw [next] at step
    split at step
    · rename_i turn
      rw [Option.some.injEq] at step
      subst step
      exact turn_sound sound (fun waits => by contradiction) (fun _ reads => by contradiction)
        (fun _ _ _ closes => by contradiction) (fun _ => turn)
    · contradiction
  | begin =>
    rw [next] at step
    split at step
    · rw [Option.some.injEq] at step
      exact step ▸ begin_sound sound
    · rw [Option.some.injEq] at step
      exact step ▸ begin_sound sound
    · contradiction
  | proceed =>
    rw [next] at step
    split at step
    · rw [Option.some.injEq] at step
      subst step
      exact await_sound sound w.started (Or.inl rfl)
    · rw [Option.some.injEq] at step
      subst step
      exact await_sound sound w.started (Or.inr (Or.inl rfl))
    · rw [Option.some.injEq] at step
      subst step
      exact turn_sound sound (fun waits => by contradiction)
        (fun _ reads => (Turn.folders.inj reads).symm) (fun _ _ _ closes => by contradiction)
        (fun off => by rcases off with o | o <;> contradiction)
    · rename_i active turn
      rw [Option.some.injEq] at step
      subst step
      refine turn_sound sound (fun waits => by contradiction) (fun _ reads => by contradiction)
        (fun act folders born closes => ?_) (fun off => by rcases off with o | o <;> contradiction)
      obtain ⟨rfl, rfl, rfl⟩ := Turn.closing.inj closes
      exact ⟨rfl, rfl, sound.reading active turn⟩
    · rename_i turn
      rw [Option.some.injEq] at step
      exact step ▸ finish_sound sound turn
    · contradiction
  | fail =>
    rw [next] at step
    split at step
    all_goals first
      | contradiction
      | rw [Option.some.injEq] at step
        subst step
        exact turn_sound sound (fun _ => rfl) (fun _ reads => by contradiction)
          (fun _ _ _ closes => by contradiction)
          (fun off => by rcases off with o | o <;> contradiction)
  | stop =>
    rw [next, Option.some.injEq] at step
    subst step
    exact await_sound sound false (Or.inr (Or.inr rfl))
  | stopped =>
    rw [next] at step
    split at step
    · rw [Option.some.injEq] at step
      exact step ▸ stopped_sound sound
    · contradiction

theorem run_sound {labels : List Label} (run : replay next .initial labels = some w) : Sound w :=
  replay_invariant Sound initial_sound (fun _ _ _ sound step => next_sound sound step) run

/-- In every run of ticks, commits, calls by other tasks and watchers: when the loop sleeps
after a tick that did not fail, with no wake-up pending and every commit announced, exactly
the inboxes of active accounts have a watcher. Each tick that finishes watches exactly the
inboxes it has read, with watchers that have not ended. A watcher keeps to the account and
the path of its row, unless another row took the id since the rows were read. Outside the
tables, and once the loop is off, there is no watcher that has neither ended nor been
cancelled. -/
theorem inboxes_are_watched {labels : List Label} (run : replay next .initial labels = some w) :
    (w.turn = .waiting → w.failed = false → w.wake = false → w.announced = w.version →
      ∀ f, (w.scheduler.registry f).isSome ↔
        ∃ r ∈ w.rows, r.id = f ∧ r.isInbox = true ∧ r.account ∈ w.active) ∧
    (∀ active folders born w', w.turn = .closing active folders born →
      next w .proceed = some w' →
      Supervised w.scheduler w'.scheduler (folders.filter FolderRow.isInbox)) ∧
    (∀ f t x r, w.scheduler.registry f = some t → w.scheduler.tasks t = some x → r ∈ w.rows →
      r.id = f → x.account = r.account ∧ x.path = r.path ∨ w.startedAt t ≤ r.serial) ∧
    ∀ t x, w.scheduler.tasks t = some x → x.cancelling = false → x.pc ≠ .done →
      w.scheduler.registry x.folder = some t ∧ w.turn ≠ .off := by
  have sound := run_sound run
  refine ⟨fun turn fine quiet announced f => ?_, fun active folders born w' turn step => ?_,
    fun f t x r entry found mem own => ?_, fun t x found calm active => ?_⟩
  · have fresh : w.begun = w.version :=
      Nat.le_antisymm sound.begun (announced ▸ sound.noticed quiet)
    have desired := sound.current turn fine fresh
    constructor
    · intro present
      obtain ⟨t, entry⟩ := Option.isSome_iff_exists.mp present
      obtain ⟨row, mem, own⟩ := sound.desired f t entry
      rw [desired, inboxes, List.mem_filter, List.mem_filter] at mem
      exact ⟨row, mem.1.1, own, mem.2, by simpa using mem.1.2⟩
    · rintro ⟨row, mem, rfl, isInbox, active⟩
      refine sound.complete turn fine quiet row ?_
      rw [desired, inboxes, List.mem_filter, List.mem_filter]
      exact ⟨⟨mem, by simpa using active⟩, isInbox⟩
  · rw [next] at step
    simp only [turn, Option.some.injEq] at step
    subst step
    exact supervise_supervised sound.registered folders _
  · rcases Nat.lt_or_ge r.serial (w.startedAt t) with old | new
    · exact Or.inl (sound.named f t x r entry found mem own old)
    · exact Or.inr new
  · have entry := sound.registered.live t x found calm active
    refine ⟨entry, fun off => ?_⟩
    rw [sound.off (Or.inl off)] at entry
    contradiction

/- An account with an inbox and an archive is announced and read. -/
def firstTick : List Label :=
  [.commit [1] [⟨0, 10, 1, "INBOX", true⟩, ⟨1, 11, 1, "Archive", false⟩] 2, .start, .schedule 1,
    .begin, .proceed, .proceed, .proceed, .proceed, .proceed]

theorem first_tick_watches : ∃ w, replay next .initial firstTick = some w ∧
    w.scheduler.registry 10 = some 0 ∧ w.scheduler.registry 11 = none ∧ w.turn = .waiting ∧
    w.failed = false ∧ w.wake = false ∧ w.announced = w.version :=
  ⟨_, rfl, rfl, rfl, rfl, rfl, rfl, rfl⟩

theorem inboxes_are_watched_first_tick : ∃ w, replay next .initial firstTick = some w ∧
    ∀ f, (w.scheduler.registry f).isSome ↔
      ∃ r ∈ w.rows, r.id = f ∧ r.isInbox = true ∧ r.account ∈ w.active := by
  obtain ⟨w, run, _, _, turn, fine, quiet, announced⟩ := first_tick_watches
  exact ⟨w, run, (inboxes_are_watched run).1 turn fine quiet announced⟩

/-- A watcher in the tables is new, or it was in the tables before, at the same place. -/
structure Inherits (s s' : Scheduler) : Prop where
  old : ∀ f t x', s'.registry f = some t → s'.tasks t = some x' → t < s.spawned →
    s.registry f = some t ∧ ∃ x, s.tasks t = some x ∧ SamePlace x x'
  spawned : s.spawned ≤ s'.spawned

theorem inherits_refl (s : Scheduler) : Inherits s s :=
  ⟨fun _ _ x entry found _ => ⟨entry, x, found, rfl, rfl⟩, Nat.le_refl _⟩

theorem reduced_inherits {s s' : Scheduler} (reduced : Reduced s s') : Inherits s s' := by
  refine ⟨fun f t x entry found _ => ?_, Nat.le_of_eq reduced.spawned.symm⟩
  obtain ⟨before, tasks, _⟩ := reduced.kept f t entry
  exact ⟨before, x, tasks ▸ found, rfl, rfl⟩

theorem next_inherits (sound : Sound w) {l : Label} (step : next w l = some w') :
    Inherits w.scheduler w'.scheduler := by
  have stays : w'.scheduler = w.scheduler → Inherits w.scheduler w'.scheduler :=
    fun same => same ▸ inherits_refl _
  have unscheduled : ∀ account, Inherits w.scheduler (unscheduleAccount w.scheduler account) :=
    fun account => reduced_inherits (unschedule_account sound.registered account).2.1
  cases l with
  | watcher l =>
    rw [next] at step
    split at step
    · rename_i own
      obtain ⟨s, moved, rfl⟩ := Option.map_eq_some_iff.mp step
      have worked := watcher_worked own moved
      refine ⟨fun f t x' entry found _ => ?_, Nat.le_of_eq worked.spawned.symm⟩
      obtain ⟨x, before, place, _⟩ := worked.tasks t x' found
      exact ⟨worked.registry ▸ entry, x, before, place⟩
    · contradiction
  | schedule account =>
    rw [next] at step
    split at step
    · rw [Option.some.injEq] at step
      exact step ▸ unscheduled account
    · exact stays (by rw [← Option.some.inj step])
  | unschedule account =>
    rw [next, Option.some.injEq] at step
    exact step ▸ unscheduled account
  | proceed =>
    rw [next] at step
    split at step
    case h_5 active folders born turn =>
      rw [Option.some.injEq] at step
      subst step
      have supervised := supervise_supervised sound.registered folders
        (w.lastFull.filter (· ∉ active))
      refine ⟨fun f t x entry found older => ?_, supervised.spawned⟩
      rcases (supervised.watchers f t x entry found).2 with ⟨entry', found'⟩ | ⟨late, _⟩
      · exact ⟨entry', x, found', rfl, rfl⟩
      · exact absurd older (Nat.not_lt.mpr late)
    all_goals first
      | contradiction
      | exact stays (by rw [← Option.some.inj step])
  | stopped =>
    rw [next] at step
    split at step
    · rw [Option.some.injEq] at step
      subst step
      exact reduced_inherits
        (stop_where (fun _ _ _ _ _ _ => rfl : Local fun _ _ => true) sound.registered).2.1
    · contradiction
  | commit active rows born =>
    rw [next] at step
    split at step
    · exact stays (by rw [← Option.some.inj step])
    · contradiction
  | foldersChanged =>
    rw [next] at step
    split at step
    · exact stays (by rw [← Option.some.inj step, setWake])
    · exact stays (by rw [← Option.some.inj step])
  | stop =>
    rw [next] at step
    exact stays (by rw [← Option.some.inj step])
  | _ =>
    rw [next] at step
    split at step
    all_goals first
      | contradiction
      | exact stays (by rw [← Option.some.inj step])

/-- Once an edit of an account was announced to the running supervisor, whatever happens
later, the watchers that were started before it have ended or are cancelled. -/
theorem edit_restarts_watchers {labels more : List Label} {edited later : World} {account : Nat}
    (run : replay next .initial labels = some w) (started : w.started = true)
    (edit : next w (.schedule account) = some edited)
    (onward : replay next edited more = some later) {t : Nat} {x : Watch}
    (found : later.scheduler.tasks t = some x) (own : x.account = account)
    (before : t < w.scheduler.spawned) : x.cancelling = true ∨ x.pc = .done := by
  rw [next, if_pos started, Option.some.injEq] at edit
  subst edit
  have sound := unschedule_sound (run_sound run) account
  obtain ⟨_, reduced, gone⟩ := unschedule_account (run_sound run).registered account
  let Restarted (w' : World) : Prop := Sound w' ∧ w.scheduler.spawned ≤ w'.scheduler.spawned ∧
    ∀ f t x, w'.scheduler.registry f = some t → w'.scheduler.tasks t = some x →
      t < w.scheduler.spawned → x.account ≠ account
  have start : Restarted (unschedule w account) :=
    ⟨sound, Nat.le_of_eq reduced.spawned.symm, fun f t x entry found _ => gone f t x entry found⟩
  obtain ⟨sound', _, others⟩ : Restarted later := by
    refine replay_invariant Restarted start ?_ onward
    rintro u l v ⟨sound, grown, others⟩ step
    have inherits := next_inherits sound step
    refine ⟨next_sound sound step, Nat.le_trans grown inherits.spawned,
      fun f t x' entry found older => ?_⟩
    obtain ⟨entry', x, found', place⟩ :=
      inherits.old f t x' entry found (Nat.lt_of_lt_of_le older grown)
    rw [place.1]
    exact others f t x entry' found' older
  by_contra alive
  obtain ⟨calm, active⟩ := not_or.mp alive
  have entry := sound'.registered.live t x found (by simpa using calm) active
  exact others x.folder t x entry found before own

/- The account is edited, and the next tick starts its watcher again. -/
def secondTick : List Label :=
  [.begin, .proceed, .proceed, .proceed, .proceed, .proceed]

theorem second_tick_replaces : ∃ w edited later x, replay next .initial firstTick = some w ∧
    w.started = true ∧ next w (.schedule 1) = some edited ∧
    replay next edited secondTick = some later ∧ later.scheduler.registry 10 = some 1 ∧
    later.scheduler.tasks 0 = some x ∧ x.account = 1 ∧ w.scheduler.spawned = 1 :=
  ⟨_, _, _, _, rfl, rfl, rfl, rfl, rfl, rfl, rfl, rfl⟩

theorem edit_restarts_watchers_second_tick : ∃ (later : World) (x : Watch),
    later.scheduler.registry 10 = some 1 ∧ later.scheduler.tasks 0 = some x ∧
    (x.cancelling = true ∨ x.pc = .done) := by
  obtain ⟨w, edited, later, x, run, started, edit, onward, entry, found, own, spawned⟩ :=
    second_tick_replaces
  exact ⟨later, x, entry, found,
    edit_restarts_watchers run started edit onward found own (by rw [spawned]; decide)⟩

end InboxSupervisor
