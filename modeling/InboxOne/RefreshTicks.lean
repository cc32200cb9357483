import Mathlib
import InboxOne.LabelledRuns
import InboxOne.Requests

/-!
The refresh policy of the supervisor. `_tick` issues requests by two tables of times, one
for accounts and one for inboxes; between two ticks the interval, the accounts, the folder
rows and the inbox choices change. A folder row has a serial number besides its id, which
the database may give to another row later.
-/
namespace InboxRefreshTicks
open LabelledRuns InboxRequests

structure FolderRow where
  serial : Nat
  id : Nat
  account : Nat
  path : String
  isInbox : Bool
  deriving DecidableEq, Repr

/-- `_last_full` by account and `_last_inbox` by folder. -/
structure Timers (T : Type*) where
  lastFull : Nat → Option T
  lastInbox : Nat → Option T

/-- A call of `request_sync`. -/
structure Request where
  account : Nat
  scope : Scope
  deriving DecidableEq

def Request.Covers (r : Request) (folder : Nat) : Prop :=
  ∀ ids, r.scope.folders = some ids → folder ∈ ids

/-- A tick on its way: the tables and the requests it has issued. -/
structure Turn (T : Type*) where
  timers : Timers T
  issued : List Request

variable {T : Type*}

def request (t : Turn T) (account : Nat) (folders : Option (Finset Nat)) (discover : Bool) :
    Turn T :=
  { t with issued := t.issued ++ [⟨account, ⟨folders, discover⟩⟩] }

def setFull (now : T) (t : Turn T) (account : Nat) : Turn T :=
  { t with timers :=
      { t.timers with lastFull := Function.update t.timers.lastFull account (some now) } }

def setInbox (now : T) (t : Turn T) (folder : FolderRow) : Turn T :=
  { t with timers :=
      { t.timers with lastInbox := Function.update t.timers.lastInbox folder.id (some now) } }

def inboxes (folders : List FolderRow) (account : Nat) : List FolderRow :=
  folders.filter fun f => f.account = account ∧ f.isInbox

def otherFolders (folders : List FolderRow) (account : Nat) : List FolderRow :=
  folders.filter fun f => f.account = account ∧ f.isInbox = false

section Policy
variable [AddCommGroup T] [LinearOrder T]

/- A full pass when the account has no entry, else a pass over the folders that are not
   inboxes when it is due. -/
def refreshAccount (interval now : T) (folders : List FolderRow) (t : Turn T) (account : Nat) :
    Turn T :=
  match t.timers.lastFull account with
  | none =>
      (inboxes folders account).foldl (setInbox now)
        (setFull now (request t account none true) account)
  | some last =>
      if interval ≤ now - last then
        let scope := ((otherFolders folders account).map FolderRow.id).toFinset
        setFull now (request t account (some scope) true) account
      else t

def refreshInbox (interval now : T) (account : Nat) (t : Turn T) (folder : FolderRow) : Turn T :=
  if interval ≤ now - (t.timers.lastInbox folder.id).getD 0 then
    setInbox now (request t account (some {folder.id}) false) folder
  else t

def refresh (interval now : T) (folders : List FolderRow) (t : Turn T) (account : Nat) : Turn T :=
  (inboxes folders account).foldl (refreshInbox interval now account)
    (refreshAccount interval now folders t account)

def unscheduleInactive (active : List Nat) (timers : Timers T) : Timers T :=
  { timers with lastFull := fun a => if a ∈ active then timers.lastFull a else none }

/-- `_tick` on the tables. Entries of folders that are no inboxes are dropped last. -/
def tick (interval now : T) (active : List Nat) (rows : List FolderRow) (timers : Timers T) :
    Turn T :=
  let folders := rows.filter fun f => f.account ∈ active
  let turn := active.foldl (refresh interval now folders) ⟨unscheduleInactive active timers, []⟩
  { turn with timers :=
      { turn.timers with lastInbox := fun id =>
          if ∃ f ∈ folders, f.isInbox ∧ f.id = id then turn.timers.lastInbox id else none } }

end Policy

/-- What a tick read and issued, and when. -/
structure Tick (T : Type*) where
  time : T
  interval : T
  active : List Nat
  rows : List FolderRow
  issued : List Request

/-- The folders of active accounts. -/
def Tick.folders (t : Tick T) : List FolderRow := t.rows.filter fun f => f.account ∈ t.active

structure World (T : Type*) where
  timers : Timers T
  interval : T
  active : List Nat
  rows : List FolderRow
  born : Nat
  clock : T
  ticks : List (Tick T)

def World.initial [Zero T] (interval : T) : World T :=
  ⟨⟨fun _ => none, fun _ => none⟩, interval, [], [], 0, 0, []⟩

/-- `schedule_account_sync` and `unschedule_account_sync` on the tables. -/
def unschedule (timers : Timers T) (account : Nat) : Timers T :=
  { timers with lastFull := Function.update timers.lastFull account none }

structure Selection where
  path : String
  isInbox : Bool

def choose (account : Nat) (rows : List FolderRow) (selection : Selection) : List FolderRow :=
  rows.map fun f =>
    if f.account = account ∧ f.path = selection.path then { f with isInbox := selection.isInbox }
    else f

inductive Label (T : Type*) where
  | tick (now : T)
  | setInterval (interval : T)
  | setActive (accounts : List Nat)
  | addFolder (id account : Nat) (path : String) (isInbox : Bool)
  | removeFolder (id : Nat)
  | updateAccountFolders (account : Nat) (selections : List Selection)
  | unschedule (account : Nat)
  | stop

def next [AddCommGroup T] [LinearOrder T] (w : World T) : Label T → Option (World T)
  | .tick now =>
      if w.clock ≤ now then
        let turn := tick w.interval now w.active w.rows w.timers
        some { w with
          timers := turn.timers
          clock := now
          ticks := ⟨now, w.interval, w.active, w.rows, turn.issued⟩ :: w.ticks }
      else none
  | .setInterval interval => some { w with interval := interval }
  | .setActive accounts => some { w with active := accounts }
  | .addFolder id account path isInbox =>
      if ∃ f ∈ w.rows, f.id = id then none
      else
        some { w with
          rows := w.rows ++ [⟨w.born, id, account, path, isInbox⟩]
          born := w.born + 1 }
  | .removeFolder id => some { w with rows := w.rows.filter fun f => f.id ≠ id }
  -- the inbox choices are committed and the account is scheduled anew
  | .updateAccountFolders account selections =>
      if ∀ s ∈ selections, ∃ f ∈ w.rows, f.account = account ∧ f.path = s.path then
        some { w with
          rows := selections.foldl (choose account) w.rows
          timers := unschedule w.timers account }
      else none
  | .unschedule account => some { w with timers := unschedule w.timers account }
  | .stop => some { w with timers := ⟨fun _ => none, fun _ => none⟩ }

def Served (issued : List Request) (account folder : Nat) : Prop :=
  ∃ r ∈ issued, r.account = account ∧ r.Covers folder

/-- The requests serve every folder of the account that is not an inbox. -/
def ServedOthers (issued : List Request) (rows : List FolderRow) (account : Nat) : Prop :=
  ∀ f ∈ rows, f.account = account → f.isInbox = false → Served issued account f.id

/- Every entry of the tables was there before or dates a request of this tick. -/
structure Dated (start : Timers T) (now : T) (folders : List FolderRow) (t : Turn T) : Prop where
  full : ∀ a v, t.timers.lastFull a = some v →
    start.lastFull a = some v ∨ v = now ∧ ServedOthers t.issued folders a
  inbox : ∀ id v, t.timers.lastInbox id = some v →
    start.lastInbox id = some v ∨
      v = now ∧ ∃ f ∈ folders, f.id = id ∧ Served t.issued f.account id

variable {start : Timers T} {now interval : T} {folders : List FolderRow} {t : Turn T}

theorem served_mono {issued more : List Request} (grown : issued ⊆ more) {account folder : Nat}
    (served : Served issued account folder) : Served more account folder := by
  obtain ⟨r, mem, same, covers⟩ := served
  exact ⟨r, grown mem, same, covers⟩

theorem served_others_mono {issued more : List Request} (grown : issued ⊆ more)
    {account : Nat} (served : ServedOthers issued folders account) :
    ServedOthers more folders account :=
  fun f mem same other => served_mono grown (served f mem same other)

theorem dated_request (dated : Dated start now folders t) (account : Nat)
    (scope : Option (Finset Nat)) (discover : Bool) :
    Dated start now folders (request t account scope discover) := by
  have grown : t.issued ⊆ (request t account scope discover).issued :=
    List.subset_append_left _ _
  constructor
  · intro a v entry
    rcases dated.full a v entry with old | ⟨new, served⟩
    · exact Or.inl old
    · exact Or.inr ⟨new, served_others_mono grown served⟩
  · intro id v entry
    rcases dated.inbox id v entry with old | ⟨new, f, mem, same, served⟩
    · exact Or.inl old
    · exact Or.inr ⟨new, f, mem, same, served_mono grown served⟩

theorem dated_set_full (dated : Dated start now folders t) {account : Nat}
    (served : ServedOthers t.issued folders account) :
    Dated start now folders (setFull now t account) := by
  constructor
  · intro a v entry
    rcases written_cell entry with ⟨rfl, rfl⟩ | ⟨_, before⟩
    · exact Or.inr ⟨rfl, served⟩
    · exact dated.full a v before
  · exact dated.inbox

theorem dated_set_inbox (dated : Dated start now folders t) {folder : FolderRow}
    (mem : folder ∈ folders) (served : Served t.issued folder.account folder.id) :
    Dated start now folders (setInbox now t folder) := by
  constructor
  · exact dated.full
  · intro id v entry
    rcases written_cell entry with ⟨rfl, rfl⟩ | ⟨_, before⟩
    · exact Or.inr ⟨rfl, folder, mem, rfl, served⟩
    · exact dated.inbox id v before

theorem mem_inboxes {account : Nat} {f : FolderRow} :
    f ∈ inboxes folders account ↔ f ∈ folders ∧ f.account = account ∧ f.isInbox = true := by
  simp [inboxes]

theorem served_request (t : Turn T) (account folder : Nat) {scope : Option (Finset Nat)}
    (discover : Bool) (covers : ∀ ids, scope = some ids → folder ∈ ids) :
    Served (request t account scope discover).issued account folder :=
  ⟨_, List.mem_append_right _ (List.mem_singleton_self _), rfl, covers⟩

theorem served_full (t : Turn T) (account folder : Nat) (discover : Bool) :
    Served (request t account none discover).issued account folder :=
  served_request t account folder discover fun ids eq => absurd eq (Option.some_ne_none ids).symm

theorem served_others (t : Turn T) (account : Nat) (discover : Bool) :
    ServedOthers (request t account
      (some ((otherFolders folders account).map FolderRow.id).toFinset) discover).issued
      folders account := by
  intro f mem same other
  apply served_request
  intro ids eq
  cases eq
  rw [List.mem_toFinset]
  exact List.mem_map_of_mem (by simp [otherFolders, mem, same, other])

theorem set_inboxes_issued (now : T) (fs : List FolderRow) (t : Turn T) :
    (fs.foldl (setInbox now) t).issued = t.issued := by
  induction fs generalizing t with
  | nil => rfl
  | cons f rest ih => exact ih (setInbox now t f)

/- What a fold over folders or accounts keeps, when each of its steps does. -/
theorem fold_issues {X : Type} {step : Turn T → X → Turn T}
    (grows : ∀ t x, t.issued ⊆ (step t x).issued) (xs : List X) (t : Turn T) :
    t.issued ⊆ (xs.foldl step t).issued := by
  induction xs generalizing t with
  | nil => exact List.Subset.refl _
  | cons x rest ih => exact List.Subset.trans (grows t x) (ih _)

theorem fold_dated {X : Type} {step : Turn T → X → Turn T} (xs : List X)
    (keeps : ∀ x ∈ xs, ∀ t, Dated start now folders t → Dated start now folders (step t x))
    {t : Turn T} (dated : Dated start now folders t) :
    Dated start now folders (xs.foldl step t) := by
  induction xs generalizing t with
  | nil => exact dated
  | cons x rest ih =>
    apply ih
    · exact fun y mem => keeps y (List.mem_cons_of_mem _ mem)
    · exact keeps x List.mem_cons_self t dated

theorem inboxes_within (account : Nat) :
    ∀ f ∈ inboxes folders account, f ∈ folders ∧ f.account = account :=
  fun _ mem => ⟨(mem_inboxes.mp mem).1, (mem_inboxes.mp mem).2.1⟩

theorem dated_set_inboxes {account : Nat} (fs : List FolderRow) (t : Turn T)
    (within : ∀ f ∈ fs, f ∈ folders ∧ f.account = account)
    (served : ∀ id, Served t.issued account id) (dated : Dated start now folders t) :
    Dated start now folders (fs.foldl (setInbox now) t) := by
  induction fs generalizing t with
  | nil => exact dated
  | cons f rest ih =>
    obtain ⟨mem, same⟩ := within f List.mem_cons_self
    apply ih
    · exact fun g gm => within g (List.mem_cons_of_mem _ gm)
    · exact served
    · exact dated_set_inbox dated mem (same ▸ served f.id)

variable [AddCommGroup T] [LinearOrder T]

theorem refresh_account_grows (t : Turn T) (account : Nat) :
    t.issued ⊆ (refreshAccount interval now folders t account).issued := by
  unfold refreshAccount
  split
  · rw [set_inboxes_issued]
    exact List.subset_append_left _ _
  · split
    · exact List.subset_append_left _ _
    · exact List.Subset.refl _

theorem dated_refresh_account (dated : Dated start now folders t) (account : Nat) :
    Dated start now folders (refreshAccount interval now folders t account) := by
  unfold refreshAccount
  split
  · have all : ∀ id, Served (request t account none true).issued account id :=
      fun id => served_full t account id true
    apply dated_set_inboxes (inboxes folders account) _ (inboxes_within account)
    · exact all
    · exact dated_set_full (dated_request dated account none true) fun f _ _ _ => all f.id
  · split
    · exact dated_set_full (dated_request dated account _ true) (served_others t account true)
    · exact dated

theorem refresh_inbox_grows (account : Nat) (t : Turn T) (f : FolderRow) :
    t.issued ⊆ (refreshInbox interval now account t f).issued := by
  unfold refreshInbox
  split
  · exact List.subset_append_left _ _
  · exact List.Subset.refl _

theorem dated_refresh_inbox (dated : Dated start now folders t) {f : FolderRow}
    (mem : f ∈ folders) :
    Dated start now folders (refreshInbox interval now f.account t f) := by
  unfold refreshInbox
  split
  · apply dated_set_inbox (dated_request dated f.account _ false) mem
    apply served_request
    intro ids eq
    cases eq
    exact Finset.mem_singleton_self f.id
  · exact dated

theorem refresh_inboxes_grows (account : Nat) (fs : List FolderRow) (t : Turn T) :
    t.issued ⊆ (fs.foldl (refreshInbox interval now account) t).issued :=
  fold_issues (fun t f => refresh_inbox_grows account t f) fs t

theorem dated_refresh_inboxes {account : Nat} (fs : List FolderRow) (t : Turn T)
    (within : ∀ f ∈ fs, f ∈ folders ∧ f.account = account) (dated : Dated start now folders t) :
    Dated start now folders (fs.foldl (refreshInbox interval now account) t) := by
  apply fold_dated fs _ dated
  intro f inside t dated
  obtain ⟨mem, same⟩ := within f inside
  exact same ▸ dated_refresh_inbox dated mem

theorem refresh_grows (t : Turn T) (account : Nat) :
    t.issued ⊆ (refresh interval now folders t account).issued :=
  List.Subset.trans (refresh_account_grows t account) (refresh_inboxes_grows account _ _)

theorem dated_refresh (dated : Dated start now folders t) (account : Nat) :
    Dated start now folders (refresh interval now folders t account) :=
  dated_refresh_inboxes _ _ (inboxes_within account) (dated_refresh_account dated account)

theorem refresh_all_grows (active : List Nat) (t : Turn T) :
    t.issued ⊆ (active.foldl (refresh interval now folders) t).issued :=
  fold_issues refresh_grows active t

theorem dated_refresh_all (active : List Nat) (t : Turn T) (dated : Dated start now folders t) :
    Dated start now folders (active.foldl (refresh interval now folders) t) :=
  fold_dated active (fun a _ _ dated => dated_refresh dated a) dated

/- A folder that is not an inbox is served unless the entry of its account is recent. -/
theorem refresh_account_serves (dated : Dated start now folders t) {f : FolderRow}
    (mem : f ∈ folders) (other : f.isInbox = false)
    (due : ∀ v, start.lastFull f.account = some v → interval ≤ now - v) :
    Served (refreshAccount interval now folders t f.account).issued f.account f.id := by
  unfold refreshAccount
  split
  · rw [set_inboxes_issued]
    exact served_full t f.account f.id true
  · rename_i last entry
    split
    · exact served_others t f.account true f mem rfl other
    · rename_i recent
      rcases dated.full f.account last entry with old | ⟨_, served⟩
      · exact absurd (due last old) recent
      · exact served f mem rfl other

theorem refresh_inbox_serves (dated : Dated start now folders t)
    (unique : (folders.map FolderRow.id).Nodup) {f : FolderRow} (mem : f ∈ folders)
    (due : ∀ v, start.lastInbox f.id = some v → interval ≤ now - v) (late : interval ≤ now) :
    Served (refreshInbox interval now f.account t f).issued f.account f.id := by
  unfold refreshInbox
  split
  · apply served_request
    intro ids eq
    cases eq
    exact Finset.mem_singleton_self f.id
  · rename_i recent
    cases entry : t.timers.lastInbox f.id with
    | none =>
      rw [entry, Option.getD_none, sub_zero] at recent
      exact absurd late recent
    | some last =>
      rw [entry, Option.getD_some] at recent
      rcases dated.inbox f.id last entry with old | ⟨_, g, gm, same, served⟩
      · exact absurd (due last old) recent
      · have eq : g = f := List.inj_on_of_nodup_map unique gm mem same
        exact eq ▸ served

theorem refresh_inboxes_serve {account : Nat} (fs : List FolderRow) (t : Turn T)
    (within : ∀ f ∈ fs, f ∈ folders ∧ f.account = account) (dated : Dated start now folders t)
    (unique : (folders.map FolderRow.id).Nodup) {f : FolderRow} (mem : f ∈ fs)
    (due : ∀ v, start.lastInbox f.id = some v → interval ≤ now - v) (late : interval ≤ now) :
    Served (fs.foldl (refreshInbox interval now account) t).issued f.account f.id := by
  induction fs generalizing t with
  | nil => contradiction
  | cons g rest ih =>
    obtain ⟨gm, same⟩ := within g List.mem_cons_self
    rcases List.mem_cons.mp mem with rfl | later
    · rw [List.foldl_cons, ← same]
      exact served_mono (refresh_inboxes_grows f.account rest _)
        (refresh_inbox_serves dated unique gm due late)
    · refine ih _ (fun h hm => within h (List.mem_cons_of_mem _ hm)) ?_ later
      exact same ▸ dated_refresh_inbox dated gm

/- What a tick does for one folder of an active account. -/
theorem refresh_serves (dated : Dated start now folders t)
    (unique : (folders.map FolderRow.id).Nodup) {f : FolderRow} (mem : f ∈ folders)
    (full : f.isInbox = false → ∀ v, start.lastFull f.account = some v → interval ≤ now - v)
    (inbox : f.isInbox = true → ∀ v, start.lastInbox f.id = some v → interval ≤ now - v)
    (late : interval ≤ now) :
    Served (refresh interval now folders t f.account).issued f.account f.id := by
  cases choice : f.isInbox with
  | false =>
    exact served_mono (refresh_inboxes_grows f.account _ _)
      (refresh_account_serves dated mem choice (full choice))
  | true =>
    exact refresh_inboxes_serve _ _ (inboxes_within f.account)
      (dated_refresh_account dated f.account) unique (mem_inboxes.mpr ⟨mem, rfl, choice⟩)
      (inbox choice) late

theorem refresh_all_serve (active : List Nat) (t : Turn T) (dated : Dated start now folders t)
    (unique : (folders.map FolderRow.id).Nodup) {f : FolderRow} (mem : f ∈ folders)
    (listed : f.account ∈ active)
    (full : f.isInbox = false → ∀ v, start.lastFull f.account = some v → interval ≤ now - v)
    (inbox : f.isInbox = true → ∀ v, start.lastInbox f.id = some v → interval ≤ now - v)
    (late : interval ≤ now) :
    Served (active.foldl (refresh interval now folders) t).issued f.account f.id := by
  induction active generalizing t with
  | nil => contradiction
  | cons a rest ih =>
    rcases List.mem_cons.mp listed with rfl | later
    · exact served_mono (refresh_all_grows rest _)
        (refresh_serves dated unique mem full inbox late)
    · exact ih _ (dated_refresh dated a) later

/-- The folder exists and its account is active. -/
def Present (t : Tick T) (folder : Nat) : Prop :=
  ∃ f ∈ t.rows, f.serial = folder ∧ f.account ∈ t.active

instance (t : Tick T) (folder : Nat) : Decidable (Present t folder) :=
  inferInstanceAs (Decidable (∃ f ∈ t.rows, f.serial = folder ∧ f.account ∈ t.active))

def Serves (t : Tick T) (folder : Nat) : Prop :=
  ∃ f ∈ t.rows, f.serial = folder ∧ Served t.issued f.account f.id

omit [AddCommGroup T] [LinearOrder T] in
theorem mem_folders {t : Tick T} {f : FolderRow} :
    f ∈ t.folders ↔ f ∈ t.rows ∧ f.account ∈ t.active := by
  simp [Tick.folders]

omit [AddCommGroup T] [LinearOrder T] in
theorem dated_begin : Dated start now folders ⟨start, []⟩ :=
  ⟨fun _ _ entry => Or.inl entry, fun _ _ entry => Or.inl entry⟩

/- The entries that a tick leaves. -/
theorem tick_dated (interval now : T) (active : List Nat) (rows : List FolderRow)
    (timers : Timers T) :
    Dated timers now (rows.filter fun f => f.account ∈ active)
      (tick interval now active rows timers) := by
  let folders := rows.filter fun f => f.account ∈ active
  have dated : Dated (unscheduleInactive active timers) now folders
      (active.foldl (refresh interval now folders) ⟨unscheduleInactive active timers, []⟩) :=
    dated_refresh_all active _ dated_begin
  constructor
  · intro a v entry
    rcases dated.full a v entry with old | new
    · refine Or.inl ?_
      simp only [unscheduleInactive] at old
      split at old
      · exact old
      · contradiction
    · exact Or.inr new
  · intro id v entry
    simp only [tick] at entry
    split at entry
    · exact dated.inbox id v entry
    · contradiction

theorem tick_serves {interval now : T} {active : List Nat} {rows : List FolderRow}
    {timers : Timers T} (unique : (rows.map FolderRow.id).Nodup) {f : FolderRow}
    (mem : f ∈ rows) (listed : f.account ∈ active)
    (full : f.isInbox = false → ∀ v, timers.lastFull f.account = some v → interval ≤ now - v)
    (inbox : f.isInbox = true → ∀ v, timers.lastInbox f.id = some v → interval ≤ now - v)
    (late : interval ≤ now) :
    Served (tick interval now active rows timers).issued f.account f.id := by
  apply refresh_all_serve active _ dated_begin
  · exact List.Nodup.sublist (List.filter_sublist.map _) unique
  · exact List.mem_filter.mpr ⟨mem, decide_eq_true listed⟩
  · exact listed
  · intro other v entry
    simp only [unscheduleInactive, if_pos listed] at entry
    exact full other v entry
  · exact inbox
  · exact late

/-- Between two ticks that are an interval apart, or at the later one, every folder that
    both and all between see is served. -/
def Fed (t : Tick T) (older : List (Tick T)) : Prop :=
  ∀ between first earlier, older = between ++ first :: earlier → first.time < t.time →
    t.interval ≤ t.time - first.time →
    ∀ folder, (∀ u ∈ t :: (between ++ [first]), Present u folder) →
      ∃ u ∈ t :: between, first.time < u.time ∧ u.time ≤ t.time ∧ Serves u folder

/-- What an earlier tick saw, compared with the rows of now. -/
structure PastTick (w : World T) (t : Tick T) : Prop where
  start : 0 ≤ t.time
  time : t.time ≤ w.clock
  unique : (t.rows.map FolderRow.id).Nodup
  serials : ∀ f ∈ t.rows, f.serial < w.born
  same : ∀ f ∈ t.rows, ∀ g ∈ w.rows, g.serial = f.serial → g.id = f.id ∧ g.account = f.account

structure Sound (w : World T) : Prop where
  start : 0 ≤ w.clock
  unique : (w.rows.map FolderRow.id).Nodup
  serials : (w.rows.map FolderRow.serial).Nodup
  old : ∀ f ∈ w.rows, f.serial < w.born
  past : ∀ t ∈ w.ticks, PastTick w t
  ordered : w.ticks.Pairwise fun later earlier => earlier.time ≤ later.time
  full : ∀ a v, w.timers.lastFull a = some v → ∃ t ∈ w.ticks, t.time = v ∧
    ServedOthers t.issued t.folders a ∧
    ∀ f ∈ t.rows, ∀ g ∈ w.rows, g.serial = f.serial → g.account = a → g.isInbox = f.isInbox
  inbox : ∀ id v, w.timers.lastInbox id = some v → ∃ t ∈ w.ticks, t.time = v ∧
    ∃ f ∈ t.folders, f.id = id ∧ Served t.issued f.account id
  fed : ∀ newer t older, w.ticks = newer ++ t :: older → Fed t older

theorem sound_initial (interval : T) : Sound (World.initial interval) := by
  constructor
  · exact le_refl 0
  · exact List.nodup_nil
  · exact List.nodup_nil
  · exact fun f mem => absurd mem List.not_mem_nil
  · exact fun t mem => absurd mem List.not_mem_nil
  · exact List.Pairwise.nil
  · exact fun a v entry => absurd entry (Option.some_ne_none v).symm
  · exact fun id v entry => absurd entry (Option.some_ne_none v).symm
  · exact fun newer t older split => absurd split.symm (by simp [World.initial])

variable {w w' : World T}

/-- A step that is not a tick: no entry is new, and a row is a former one or a fresh one.
    Its inbox choice is the former one as long as its account has an entry. -/
structure Moved (w w' : World T) : Prop where
  ticks : w'.ticks = w.ticks
  clock : w'.clock = w.clock
  born : w.born ≤ w'.born
  unique : (w'.rows.map FolderRow.id).Nodup
  serials : (w'.rows.map FolderRow.serial).Nodup
  old : ∀ g ∈ w'.rows, g.serial < w'.born
  rows : ∀ g ∈ w'.rows, w.born ≤ g.serial ∨ ∃ f ∈ w.rows, g.serial = f.serial ∧ g.id = f.id ∧
    g.account = f.account ∧ ∀ v, w'.timers.lastFull g.account = some v → g.isInbox = f.isInbox
  full : ∀ a v, w'.timers.lastFull a = some v → w.timers.lastFull a = some v
  inbox : ∀ id v, w'.timers.lastInbox id = some v → w.timers.lastInbox id = some v

theorem past_moved (sound : Sound w) (moved : Moved w w') {t : Tick T} (mem : t ∈ w.ticks) :
    PastTick w' t := by
  have past := sound.past t mem
  constructor
  · exact past.start
  · exact moved.clock ▸ past.time
  · exact past.unique
  · exact fun f fm => Nat.lt_of_lt_of_le (past.serials f fm) moved.born
  · intro f fm g gm same
    rcases moved.rows g gm with fresh | ⟨h, hm, serial, id, account, _⟩
    · have := past.serials f fm
      omega
    · have former := past.same f fm h hm (serial ▸ same)
      exact ⟨id.trans former.1, account.trans former.2⟩

theorem moved_sound (sound : Sound w) (moved : Moved w w') : Sound w' := by
  constructor
  · exact moved.clock ▸ sound.start
  · exact moved.unique
  · exact moved.serials
  · exact moved.old
  · exact fun t mem => past_moved sound moved (moved.ticks ▸ mem)
  · exact moved.ticks ▸ sound.ordered
  · intro a v entry
    obtain ⟨t, mem, time, served, choices⟩ := sound.full a v (moved.full a v entry)
    refine ⟨t, moved.ticks ▸ mem, time, served, ?_⟩
    intro f fm g gm same account
    rcases moved.rows g gm with fresh | ⟨h, hm, serial, _, former, kept⟩
    · have := (sound.past t mem).serials f fm
      omega
    · rw [kept v (account ▸ entry)]
      exact choices f fm h hm (serial ▸ same) (former ▸ account)
  · intro id v entry
    obtain ⟨t, mem, rest⟩ := sound.inbox id v (moved.inbox id v entry)
    exact ⟨t, moved.ticks ▸ mem, rest⟩
  · intro newer t older split
    exact sound.fed newer t older (moved.ticks ▸ split)

theorem choose_row {account : Nat} {rows : List FolderRow} {s : Selection} {g : FolderRow}
    (mem : g ∈ choose account rows s) : ∃ f ∈ rows, g.serial = f.serial ∧ g.id = f.id ∧
      g.account = f.account ∧ (g.account ≠ account → g.isInbox = f.isInbox) := by
  obtain ⟨f, fm, eq⟩ := List.mem_map.mp mem
  refine ⟨f, fm, ?_⟩
  split at eq
  · rename_i chosen
    subst eq
    exact ⟨rfl, rfl, rfl, fun other => absurd chosen.1 other⟩
  · subst eq
    exact ⟨rfl, rfl, rfl, fun _ => rfl⟩

theorem choose_keys (account : Nat) (rows : List FolderRow) (s : Selection) :
    (choose account rows s).map FolderRow.id = rows.map FolderRow.id ∧
      (choose account rows s).map FolderRow.serial = rows.map FolderRow.serial := by
  unfold choose
  rw [List.map_map, List.map_map]
  constructor
  · refine List.map_congr_left fun f _ => ?_
    simp only [Function.comp]
    split <;> rfl
  · refine List.map_congr_left fun f _ => ?_
    simp only [Function.comp]
    split <;> rfl

theorem choose_all_row {account : Nat} (selections : List Selection) (rows : List FolderRow)
    {g : FolderRow} (mem : g ∈ selections.foldl (choose account) rows) :
    ∃ f ∈ rows, g.serial = f.serial ∧ g.id = f.id ∧ g.account = f.account ∧
      (g.account ≠ account → g.isInbox = f.isInbox) := by
  induction selections generalizing rows with
  | nil => exact ⟨g, mem, rfl, rfl, rfl, fun _ => rfl⟩
  | cons s rest ih =>
    obtain ⟨h, hm, serial, id, former, kept⟩ := ih (choose account rows s) mem
    obtain ⟨f, fm, serial', id', former', kept'⟩ := choose_row hm
    refine ⟨f, fm, serial.trans serial', id.trans id', former.trans former', ?_⟩
    intro other
    exact (kept other).trans (kept' (former ▸ other))

theorem choose_all_keys (account : Nat) (selections : List Selection) (rows : List FolderRow) :
    (selections.foldl (choose account) rows).map FolderRow.id = rows.map FolderRow.id ∧
      (selections.foldl (choose account) rows).map FolderRow.serial =
        rows.map FolderRow.serial := by
  induction selections generalizing rows with
  | nil => exact ⟨rfl, rfl⟩
  | cons s rest ih =>
    have first := choose_keys account rows s
    have later := ih (choose account rows s)
    exact ⟨later.1.trans first.1, later.2.trans first.2⟩

/- A step that changes no row. -/
theorem moved_timers (sound : Sound w) {timers : Timers T}
    (full : ∀ a v, timers.lastFull a = some v → w.timers.lastFull a = some v)
    (inbox : ∀ id v, timers.lastInbox id = some v → w.timers.lastInbox id = some v)
    (interval : T) (active : List Nat) :
    Moved w { w with timers := timers, interval := interval, active := active } where
  ticks := rfl
  clock := rfl
  born := Nat.le_refl w.born
  unique := sound.unique
  serials := sound.serials
  old := sound.old
  rows := fun g gm => Or.inr ⟨g, gm, rfl, rfl, rfl, fun _ _ => rfl⟩
  full := full
  inbox := inbox

omit [AddCommGroup T] [LinearOrder T] in
theorem unschedule_full {timers : Timers T} {account a : Nat} {v : T}
    (entry : (unschedule timers account).lastFull a = some v) :
    a ≠ account ∧ timers.lastFull a = some v := by
  by_cases here : a = account
  · simp [unschedule, here] at entry
  · refine ⟨here, ?_⟩
    rw [← entry]
    exact (Function.update_of_ne here none timers.lastFull).symm

theorem moved_choices (sound : Sound w) (account : Nat) (selections : List Selection) :
    Moved w { w with
      rows := selections.foldl (choose account) w.rows
      timers := unschedule w.timers account } where
  ticks := rfl
  clock := rfl
  born := Nat.le_refl w.born
  unique := (choose_all_keys account selections w.rows).1 ▸ sound.unique
  serials := (choose_all_keys account selections w.rows).2 ▸ sound.serials
  old := by
    intro g gm
    obtain ⟨f, fm, serial, _⟩ := choose_all_row selections w.rows gm
    exact serial ▸ sound.old f fm
  rows := by
    intro g gm
    obtain ⟨f, fm, serial, id, former, kept⟩ := choose_all_row selections w.rows gm
    exact Or.inr ⟨f, fm, serial, id, former, fun v entry => kept (unschedule_full entry).1⟩
  full := fun a v entry => (unschedule_full entry).2
  inbox := fun _ _ entry => entry

theorem moved_remove (sound : Sound w) (id : Nat) :
    Moved w { w with rows := w.rows.filter fun f => f.id ≠ id } where
  ticks := rfl
  clock := rfl
  born := Nat.le_refl w.born
  unique := List.Nodup.sublist (List.filter_sublist.map _) sound.unique
  serials := List.Nodup.sublist (List.filter_sublist.map _) sound.serials
  old := fun g gm => sound.old g (List.mem_of_mem_filter gm)
  rows := fun g gm =>
    Or.inr ⟨g, List.mem_of_mem_filter gm, rfl, rfl, rfl, fun _ _ => rfl⟩
  full := fun _ _ entry => entry
  inbox := fun _ _ entry => entry

theorem moved_add (sound : Sound w) {id : Nat} (account : Nat) (path : String) (isInbox : Bool)
    (fresh : ¬ ∃ f ∈ w.rows, f.id = id) :
    Moved w { w with
      rows := w.rows ++ [⟨w.born, id, account, path, isInbox⟩]
      born := w.born + 1 } where
  ticks := rfl
  clock := rfl
  born := Nat.le_succ w.born
  unique := by
    rw [List.map_append]
    apply List.Nodup.append sound.unique (List.nodup_singleton id)
    simpa using fun f mem same => fresh ⟨f, mem, same⟩
  serials := by
    rw [List.map_append]
    apply List.Nodup.append sound.serials (List.nodup_singleton w.born)
    simpa using fun f mem => Nat.ne_of_lt (sound.old f mem)
  old := by
    intro g gm
    rcases List.mem_append.mp gm with former | new
    · exact Nat.lt_succ_of_lt (sound.old g former)
    · rw [List.mem_singleton.mp new]
      exact Nat.lt_succ_self w.born
  rows := by
    intro g gm
    rcases List.mem_append.mp gm with former | new
    · exact Or.inr ⟨g, former, rfl, rfl, rfl, fun _ _ => rfl⟩
    · rw [List.mem_singleton.mp new]
      exact Or.inl (Nat.le_refl w.born)
  full := fun _ _ entry => entry
  inbox := fun _ _ entry => entry

omit [AddCommGroup T] in
/- A tick that is later than the first one of a split lies between. -/
theorem between_of_later {ticks between earlier : List (Tick T)} {first u : Tick T}
    (ordered : ticks.Pairwise fun later earlier => earlier.time ≤ later.time)
    (split : ticks = between ++ first :: earlier) (mem : u ∈ ticks)
    (later : first.time < u.time) : u ∈ between := by
  rw [split] at mem ordered
  rcases List.mem_append.mp mem with inside | rest
  · exact inside
  rcases List.mem_cons.mp rest with same | before
  · exact absurd (same ▸ later) (lt_irrefl _)
  · have tail := (List.pairwise_append.mp ordered).2.1
    have bound := (List.pairwise_cons.mp tail).1 u before
    exact absurd later (not_lt_of_ge bound)

/- The folder in the rows of now and in those of an earlier tick. -/
theorem present_row (sound : Sound w) {u : Tick T} (mem : u ∈ w.ticks) {f : FolderRow}
    (fm : f ∈ w.rows) (present : Present u f.serial) :
    ∃ g ∈ u.folders, g ∈ u.rows ∧ g.serial = f.serial ∧ g.id = f.id ∧ g.account = f.account := by
  obtain ⟨g, gm, same, listed⟩ := present
  have kept := (sound.past u mem).same g gm f fm same.symm
  exact ⟨g, mem_folders.mpr ⟨gm, listed⟩, gm, same, kept.1.symm, kept.2.symm⟩

theorem full_entry_serves (sound : Sound w) {f : FolderRow} (fm : f ∈ w.rows)
    (other : f.isInbox = false) {v : T} (entry : w.timers.lastFull f.account = some v)
    {between earlier : List (Tick T)} {first : Tick T}
    (split : w.ticks = between ++ first :: earlier) (later : first.time < v)
    (present : ∀ u ∈ between, Present u f.serial) :
    ∃ u ∈ between, u.time = v ∧ Serves u f.serial := by
  obtain ⟨u, um, time, served, choices⟩ := sound.full f.account v entry
  have inside : u ∈ between := between_of_later sound.ordered split um (time.symm ▸ later)
  obtain ⟨g, gm, row, serial, id, account⟩ := present_row sound um fm (present u inside)
  have choice : g.isInbox = false :=
    (choices g row f fm serial.symm rfl).symm.trans other
  have found := served g gm account choice
  exact ⟨u, inside, time, g, row, serial, account.symm ▸ found⟩

theorem inbox_entry_serves (sound : Sound w) {f : FolderRow} (fm : f ∈ w.rows) {v : T}
    (entry : w.timers.lastInbox f.id = some v)
    {between earlier : List (Tick T)} {first : Tick T}
    (split : w.ticks = between ++ first :: earlier) (later : first.time < v)
    (present : ∀ u ∈ between, Present u f.serial) :
    ∃ u ∈ between, u.time = v ∧ Serves u f.serial := by
  obtain ⟨u, um, time, h, hm, same, served⟩ := sound.inbox f.id v entry
  have inside : u ∈ between := between_of_later sound.ordered split um (time.symm ▸ later)
  obtain ⟨g, gm, row, serial, id, account⟩ := present_row sound um fm (present u inside)
  have eq : h = g :=
    List.inj_on_of_nodup_map (sound.past u um).unique (mem_folders.mp hm).1 row
      (same.trans id.symm)
  rw [eq, ← id] at served
  exact ⟨u, inside, time, g, row, serial, served⟩

section Starvation
variable [IsOrderedAddMonoid T]

/- An entry that is not due at a tick dates a tick after the earlier one. -/
theorem recent_is_later {now interval earlier v : T} (due : interval ≤ now - earlier)
    (recent : ¬ interval ≤ now - v) : earlier < v := by
  by_contra early
  exact recent (le_trans due (sub_le_sub_left (not_lt.mp early) now))

/- The tick of this state feeds every folder that all ticks since the earlier one saw. -/
theorem tick_feeds (sound : Sound w) {now : T} (clock : w.clock ≤ now) :
    Fed ⟨now, w.interval, w.active, w.rows,
      (tick w.interval now w.active w.rows w.timers).issued⟩ w.ticks := by
  intro between first earlier split before due folder present
  obtain ⟨f, fm, rfl, listed⟩ := present _ List.mem_cons_self
  have seen : ∀ u ∈ between, Present u f.serial :=
    fun u mem => present u (List.mem_cons_of_mem _ (List.mem_append_left _ mem))
  have start := (sound.past first (by simp [split])).start
  have late : w.interval ≤ now := le_trans due (sub_le_self now start)
  have earlierTick : ∀ v, first.time < v → (∃ u ∈ between, u.time = v ∧ Serves u f.serial) →
      ∃ u ∈ ⟨now, w.interval, w.active, w.rows,
          (tick w.interval now w.active w.rows w.timers).issued⟩ :: between,
        first.time < u.time ∧ u.time ≤ now ∧ Serves u f.serial := by
    intro v later found
    obtain ⟨u, um, rfl, serves⟩ := found
    have mem : u ∈ w.ticks := by simp [split, um]
    exact ⟨u, List.mem_cons_of_mem _ um, later, le_trans (sound.past u mem).time clock, serves⟩
  -- either both entries are old enough, or one of them dates an earlier tick
  by_cases full : f.isInbox = false → ∀ v, w.timers.lastFull f.account = some v →
      w.interval ≤ now - v
  · by_cases inbox : f.isInbox = true → ∀ v, w.timers.lastInbox f.id = some v →
        w.interval ≤ now - v
    · exact ⟨_, List.mem_cons_self, before, le_refl now, f, fm, rfl,
        tick_serves sound.unique fm listed full inbox late⟩
    · push Not at inbox
      obtain ⟨_, v, entry, recent⟩ := inbox
      have later := recent_is_later due (not_le_of_gt recent)
      exact earlierTick v later (inbox_entry_serves sound fm entry split later seen)
  · push Not at full
    obtain ⟨other, v, entry, recent⟩ := full
    have later := recent_is_later due (not_le_of_gt recent)
    exact earlierTick v later (full_entry_serves sound fm other entry split later seen)

theorem tick_sound (sound : Sound w) {now : T} (step : next w (.tick now) = some w') :
    Sound w' := by
  simp only [next] at step
  split at step
  · rename_i clock
    cases step
    have dated := tick_dated w.interval now w.active w.rows w.timers
    constructor
    · exact le_trans sound.start clock
    · exact sound.unique
    · exact sound.serials
    · exact sound.old
    · intro t mem
      rcases List.mem_cons.mp mem with rfl | old
      · refine ⟨le_trans sound.start clock, le_refl now, sound.unique, sound.old, ?_⟩
        intro f fm g gm same
        rw [List.inj_on_of_nodup_map sound.serials gm fm same]
        exact ⟨rfl, rfl⟩
      · have past := sound.past t old
        exact ⟨past.start, le_trans past.time clock, past.unique, past.serials, past.same⟩
    · apply List.pairwise_cons.mpr
      exact ⟨fun t mem => le_trans (sound.past t mem).time clock, sound.ordered⟩
    · intro a v entry
      rcases dated.full a v entry with old | ⟨rfl, served⟩
      · obtain ⟨t, mem, rest⟩ := sound.full a v old
        exact ⟨t, List.mem_cons_of_mem _ mem, rest⟩
      · refine ⟨_, List.mem_cons_self, rfl, served, ?_⟩
        intro f fm g gm same _
        rw [List.inj_on_of_nodup_map sound.serials gm fm same]
    · intro id v entry
      rcases dated.inbox id v entry with old | ⟨rfl, f, fm, same, served⟩
      · obtain ⟨t, mem, rest⟩ := sound.inbox id v old
        exact ⟨t, List.mem_cons_of_mem _ mem, rest⟩
      · exact ⟨_, List.mem_cons_self, rfl, f, fm, same, same ▸ served⟩
    · intro newer t older split
      rcases cons_split split with ⟨_, same, rest⟩ | ⟨newer', _, rest⟩
      · rw [← same, ← rest]
        exact tick_feeds sound clock
      · exact sound.fed newer' t older rest
  · contradiction

theorem next_sound (sound : Sound w) {l : Label T} (step : next w l = some w') : Sound w' := by
  cases l with
  | tick now => exact tick_sound sound step
  | setInterval interval =>
    cases step
    exact moved_sound sound (moved_timers sound (fun _ _ entry => entry)
      (fun _ _ entry => entry) interval w.active)
  | setActive accounts =>
    cases step
    exact moved_sound sound (moved_timers sound (fun _ _ entry => entry)
      (fun _ _ entry => entry) w.interval accounts)
  | addFolder id account path isInbox =>
    simp only [next] at step
    split at step
    · contradiction
    · rename_i fresh
      cases step
      exact moved_sound sound (moved_add sound account path isInbox fresh)
  | removeFolder id =>
    cases step
    exact moved_sound sound (moved_remove sound id)
  | updateAccountFolders account selections =>
    simp only [next] at step
    split at step
    · cases step
      exact moved_sound sound (moved_choices sound account selections)
    · contradiction
  | unschedule account =>
    cases step
    exact moved_sound sound (moved_timers sound (fun _ _ entry => (unschedule_full entry).2)
      (fun _ _ entry => entry) w.interval w.active)
  | stop =>
    cases step
    exact moved_sound sound (moved_timers sound
      (fun a v entry => absurd entry (Option.some_ne_none v).symm)
      (fun id v entry => absurd entry (Option.some_ne_none v).symm) w.interval w.active)

/-- For any two ticks that are at least the interval of the later one apart, every folder
    that exists with its account active at both and at all ticks between is covered by a
    request of some tick after the first and up to the second. -/
theorem no_folder_starves {interval : T} {labels : List (Label T)} {w : World T}
    (run : replay next (World.initial interval) labels = some w)
    {later between earlier : List (Tick T)} {first second : Tick T}
    (ticks : w.ticks = later ++ second :: (between ++ first :: earlier))
    (apart : first.time < second.time) (due : second.interval ≤ second.time - first.time)
    {folder : Nat} (present : ∀ t ∈ second :: (between ++ [first]), Present t folder) :
    ∃ t ∈ second :: between, first.time < t.time ∧ t.time ≤ second.time ∧ Serves t folder := by
  have sound : Sound w := replay_invariant Sound (sound_initial interval)
    (fun _ _ _ before step => next_sound before step) run
  exact sound.fed later second _ ticks between first earlier rfl apart due folder present

end Starvation

/- An inbox and an archive; the archive becomes an inbox and is one no more later. -/
def weekday : List (Label ℤ) :=
  [.setActive [7], .addFolder 1 7 "INBOX" true, .addFolder 2 7 "Archive" false, .tick 10,
    .updateAccountFolders 7 [⟨"Archive", true⟩], .tick 500,
    .updateAccountFolders 7 [⟨"Archive", false⟩], .tick 600, .setInterval 300, .tick 1000]

theorem weekday_serves_archive : ∃ w, replay next (World.initial 900) weekday = some w ∧
    ∃ second between first, w.ticks = [] ++ second :: (between ++ first :: []) ∧
      (∃ t ∈ second :: between, first.time < t.time ∧ t.time ≤ second.time ∧ Serves t 1) := by
  refine ⟨_, rfl, _, [_, _], _, rfl, ?_⟩
  refine no_folder_starves (show replay next (World.initial 900) weekday = some _ from rfl)
    (show _ = [] ++ _ :: ([_, _] ++ _ :: []) from rfl) (show (10 : ℤ) < 1000 by omega)
    (show (300 : ℤ) ≤ 1000 - 10 by omega) ?_
  decide

end InboxRefreshTicks
