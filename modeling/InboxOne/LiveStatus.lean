import InboxOne.Watcher

/-!
The shared connection state of `live.py`: what the watchers and the passes write into it
and the colours that `snapshot` derives from it. Time stamps, names and colours of
accounts are left out, and so are the leases.
-/
namespace InboxLiveStatus
open InboxWatcher

inductive State where
  | watcher (state : WatcherState)
  | connected
  | scheduled
  deriving DecidableEq, Repr

inductive StatusMode where
  | watcher (mode : Mode)
  | scheduled
  deriving DecidableEq, Repr

/-- An entry of the dictionary `watchers`; a key that is absent or None is none. -/
structure Entry where
  accountId : Option Nat
  state : Option State
  mode : Option Mode
  error : Option String
  syncError : Option String
  deriving DecidableEq, Repr

def Entry.empty : Entry := ⟨none, none, none, none, none⟩

def setWatcher (entry : Option Entry) (values : WatcherValues) : Entry :=
  let e := entry.getD .empty
  { e with
    accountId := values.accountId.or e.accountId
    state := some (.watcher values.state)
    mode := some values.mode
    error := values.error.getD e.error }

def synced (entry : Option Entry) : Entry :=
  let e := { entry.getD .empty with syncError := none }
  if e.state = some (.watcher .reconciling) then { e with state := some .connected } else e

def syncFailed (entry : Option Entry) (exception : String) : Entry :=
  { entry.getD .empty with syncError := some (safeError exception) }

/-- The columns of a folder that `snapshot` reads. -/
structure FolderRow where
  id : Nat
  accountId : Nat
  isInbox : Bool
  deriving DecidableEq, Repr

inductive Health where
  | neutral
  | red
  | yellow
  | green
  deriving DecidableEq, Repr

structure FolderStatus where
  folderId : Nat
  isInbox : Bool
  state : State
  mode : StatusMode
  error : Option String
  syncError : Option String
  health : Health
  deriving DecidableEq, Repr

structure AccountStatus where
  accountId : Nat
  health : Health
  folders : List FolderStatus
  error : Option String
  deriving DecidableEq, Repr

structure Status where
  health : Health
  accounts : List AccountStatus
  deriving DecidableEq, Repr

def truthy : Option String → Bool
  | some text => text ≠ ""
  | none => false

def folderHealth (isInbox : Bool) (state : State) (syncError : Option String) : Health :=
  if truthy syncError ∨ state = .watcher .error then .red
  else if isInbox ∧ state ≠ .connected then .yellow
  else .green

def folderStatus (watchers : Nat → Option Entry) (folder : FolderRow) : FolderStatus :=
  let e := (watchers folder.id).getD .empty
  let state := e.state.getD (if folder.isInbox then .watcher .connecting else .scheduled)
  { folderId := folder.id
    isInbox := folder.isInbox
    state := state
    mode := (e.mode.map StatusMode.watcher).getD
      (if folder.isInbox then .watcher .idle else .scheduled)
    error := e.error
    syncError := e.syncError
    health := folderHealth folder.isInbox state e.syncError }

def accountStatus (folders : List FolderRow) (watchers : Nat → Option Entry)
    (accountErrors : Nat → Option String) (account : Nat) : AccountStatus :=
  let items := (folders.filter fun folder => folder.accountId = account).map
    (folderStatus watchers)
  { accountId := account
    health := if accountErrors account ≠ none then .red
      else if items.any fun item => item.health = .red then .red
      else if items = [] ∨ items.any fun item => item.health = .yellow then .yellow
      else .green
    folders := items
    error := accountErrors account }

/-- `snapshot`, once the active accounts and the folders are read. -/
def snapshot (accounts : List Nat) (folders : List FolderRow) (watchers : Nat → Option Entry)
    (accountErrors : Nat → Option String) : Status :=
  let result := accounts.map (accountStatus folders watchers accountErrors)
  { health := if result = [] then .neutral
      else if result.any fun account => account.health = .red then .red
      else if result.any fun account => account.health = .yellow then .yellow
      else .green
    accounts := result }

theorem safe_error_truthy (exception : String) : truthy (some (safeError exception)) = true := by
  simp only [safeError]
  split
  · decide
  · split
    · decide
    · decide

/-- What decides about the colour of a folder. -/
def stateOf (entry : Option Entry) : Option State := entry.bind Entry.state

def hasFailed (entry : Option Entry) : Bool := truthy (entry.bind Entry.syncError)

theorem set_watcher_state (entry : Option Entry) (values : WatcherValues) :
    stateOf (some (setWatcher entry values)) = some (.watcher values.state) := rfl

theorem set_watcher_failure (entry : Option Entry) (values : WatcherValues) :
    hasFailed (some (setWatcher entry values)) = hasFailed entry := by
  cases entry with
  | none => rfl
  | some e => rfl

theorem synced_failure (entry : Option Entry) : hasFailed (some (synced entry)) = false := by
  unfold synced
  dsimp only
  split
  · rfl
  · rfl

theorem synced_state (entry : Option Entry) : stateOf (some (synced entry)) =
    if stateOf entry = some (.watcher .reconciling) then some .connected else stateOf entry := by
  have state : (entry.getD .empty).state = stateOf entry := by cases entry <;> rfl
  unfold synced
  dsimp only
  rw [state]
  split
  · rfl
  · rfl

theorem sync_failed_failure (entry : Option Entry) (exception : String) :
    hasFailed (some (syncFailed entry exception)) = true := safe_error_truthy exception

theorem sync_failed_state (entry : Option Entry) (exception : String) :
    stateOf (some (syncFailed entry exception)) = stateOf entry := by
  cases entry with
  | none => rfl
  | some e => rfl

theorem health_green {isInbox : Bool} {state : State} {syncError : Option String}
    (green : folderHealth isInbox state syncError = .green) :
    truthy syncError = false ∧ (isInbox = true → state = .connected) := by
  unfold folderHealth at green
  split at green
  · contradiction
  · rename_i calm
    split at green
    · contradiction
    · rename_i steady
      constructor
      · exact Bool.eq_false_iff.mpr fun failed => calm (Or.inl failed)
      · intro inbox
        exact not_not.mp fun other => steady ⟨inbox, other⟩

theorem health_not_neutral (isInbox : Bool) (state : State) (syncError : Option String) :
    folderHealth isInbox state syncError ≠ .neutral := by
  unfold folderHealth
  split
  · decide
  · split
    · decide
    · decide

/-- A folder is green without a recorded failure, and an inbox only when it is connected. -/
theorem folder_green {watchers : Nat → Option Entry} {folder : FolderRow}
    (green : (folderStatus watchers folder).health = .green) :
    hasFailed (watchers folder.id) = false ∧
      (folder.isInbox = true → stateOf (watchers folder.id) = some .connected) := by
  obtain ⟨calm, steady⟩ := health_green green
  cases entry : watchers folder.id with
  | none =>
    rw [entry] at steady
    refine ⟨rfl, fun inbox => ?_⟩
    have connecting := steady inbox
    simp [Entry.empty, inbox] at connecting
  | some e =>
    rw [entry] at calm steady
    refine ⟨calm, fun inbox => ?_⟩
    have connected := steady inbox
    cases state : e.state with
    | none => simp [state, inbox] at connected
    | some s =>
      rw [Option.getD_some, state, Option.getD_some] at connected
      exact state.trans (congrArg some connected)

theorem account_green {folders : List FolderRow} {watchers : Nat → Option Entry}
    {accountErrors : Nat → Option String} {account : Nat}
    (green : (accountStatus folders watchers accountErrors account).health = .green) :
    accountErrors account = none ∧ ∀ folder ∈ folders, folder.accountId = account →
      (folderStatus watchers folder).health = .green := by
  unfold accountStatus at green
  dsimp only at green
  split at green
  · contradiction
  · rename_i clean
    split at green
    · contradiction
    · rename_i noRed
      split at green
      · contradiction
      · rename_i noYellow
        refine ⟨not_not.mp clean, ?_⟩
        intro folder mem own
        have item : folderStatus watchers folder ∈
            (folders.filter fun folder => folder.accountId = account).map
              (folderStatus watchers) := by
          apply List.mem_map_of_mem
          simp [mem, own]
        have notRed : (folderStatus watchers folder).health ≠ .red := by
          intro red
          exact noRed (List.any_eq_true.mpr ⟨_, item, by simp [red]⟩)
        have notYellow : (folderStatus watchers folder).health ≠ .yellow := by
          intro yellow
          exact noYellow (Or.inr (List.any_eq_true.mpr ⟨_, item, by simp [yellow]⟩))
        cases health : (folderStatus watchers folder).health with
        | green => rfl
        | red => exact absurd health notRed
        | yellow => exact absurd health notYellow
        | neutral => exact absurd health (health_not_neutral _ _ _)

end InboxLiveStatus
