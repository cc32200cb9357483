import InboxOne.Requests
import InboxOne.Watcher

/-!
`sync_account` as its task runs it: the program counter is the await it is suspended at,
with the local variables that later code reads. One step resumes it with the answer of
what it awaited, or throws CancelledError into it. What it does between two awaits is a
list of writes; the reports about single folders and the activities are left out.
-/
namespace InboxSyncTask
open InboxRequests
open InboxWatcher (safeError)

/-- How the code so far was left; `returned` is also the way on after the try block. -/
inductive Leave where
  | returned
  | raised (exception : String)
  | cancelled
  deriving DecidableEq, Repr

/-- Where a call is suspended. In `awaitOpening` and `shutdown` the cancellation was
    caught; `rollback` and `refresh` are in the handler of one folder, `outerRollback` in
    that of the whole pass. -/
inductive Pc where
  | lock
  | semaphore
  | loadAccount
  | opening
  | awaitOpening
  | discover
  | getFolder (folder : Nat)
  | syncFolder (path : String)
  | rollback
  | refresh
  | shutdown
  | outerRollback
  | logout (leave : Leave)
  | execute (leave : Leave)
  | commit (leave : Leave)
  | closeSession (leave : Leave)
  | ended (leave : Leave)
  deriving DecidableEq, Repr

/-- The local variables; `account` holds the folders of the account row, if it was found,
    `client` says that there is a connection. -/
structure Sync where
  scope : Scope
  pc : Pc
  account : Option (List Nat)
  client : Bool
  cancelled : Bool
  errors : List String
  todo : List Nat
  mustCancel : Bool

inductive Answer where
  | ok
  | fail (exception : String)
  | account (folders : Option (List Nat))
  | discovered (folders : List Nat)
  | folder (path : Option String)
  | cancelled
  deriving DecidableEq, Repr

/-- What a pass writes about its account. -/
inductive Write where
  | accountError (error : String)
  | clearError
  | status (errors : List String)
  deriving DecidableEq, Repr

def Sync.start (scope : Scope) : Sync where
  scope := scope
  pc := .lock
  account := none
  client := false
  cancelled := false
  errors := []
  todo := []
  mustCancel := false

/- The end of the finally block, from the status on. -/
def afterLogout (s : Sync) (leave : Leave) : Sync × List Write :=
  if s.cancelled = false ∧ (s.account ≠ none ∨ s.errors ≠ []) then
    ({ s with pc := .execute leave }, [.status s.errors])
  else ({ s with pc := .closeSession leave }, [])

def finallyBlock (s : Sync) (leave : Leave) : Sync × List Write :=
  if s.client then ({ s with pc := .logout leave }, []) else afterLogout s leave

/-- `except asyncio.CancelledError`. -/
def cancelHandler (s : Sync) : Sync × List Write :=
  let s := { s with cancelled := true }
  if s.client then ({ s with pc := .shutdown }, []) else finallyBlock s .cancelled

/-- `except Exception` around the whole pass. -/
def outerHandler (s : Sync) (exception : String) : Sync × List Write :=
  ({ s with pc := .outerRollback, errors := s.errors ++ [safeError exception] },
    [.accountError (safeError exception)])

/- The loop over the folders, up to the next one or the end of the try block. -/
def nextFolder (s : Sync) : Sync × List Write :=
  match s.todo with
  | [] => finallyBlock s .returned
  | folder :: rest => ({ s with pc := .getFolder folder, todo := rest }, [])

/-- The folders that the loop does not skip. -/
def selected (scope : Scope) (existing discovered : List Nat) : List Nat :=
  discovered.filter fun folder =>
    match scope.folders with
    | none => true
    | some folders => folder ∈ folders ∨ folder ∉ existing

def beginFolders (s : Sync) (discovered : List Nat) : Sync × List Write :=
  let (s, writes) := nextFolder { s with
    todo := selected s.scope (s.account.getD []) discovered }
  (s, .clearError :: writes)

def throwCancelled (s : Sync) : Sync × List Write :=
  let s := { s with mustCancel := false }
  match s.pc with
  | .lock | .semaphore => ({ s with pc := .ended .cancelled }, [])
  | .opening => ({ s with pc := .awaitOpening }, [])
  | .shutdown | .outerRollback => finallyBlock s .cancelled
  | .logout _ | .execute _ | .commit _ => ({ s with pc := .closeSession .cancelled }, [])
  | .closeSession _ | .ended _ => ({ s with pc := .ended .cancelled }, [])
  | _ => cancelHandler s

def resume (s : Sync) (answer : Answer) : Option (Sync × List Write) :=
  if s.mustCancel then
    if answer = .cancelled then some (throwCancelled s) else none
  else
    match s.pc, answer with
    | .lock, .ok => some ({ s with pc := .semaphore }, [])
    | .semaphore, .ok => some ({ s with pc := .loadAccount }, [])
    | .loadAccount, .account none => some (finallyBlock s .returned)
    | .loadAccount, .account (some folders) =>
        some ({ s with pc := .opening, account := some folders }, [])
    | .opening, .ok =>
        let s := { s with client := true }
        if s.scope.discover then some ({ s with pc := .discover }, [])
        else some (beginFolders s (s.account.getD []))
    | .awaitOpening, .ok => some (cancelHandler { s with client := true })
    | .discover, .discovered folders => some (beginFolders s folders)
    | .getFolder _, .folder none => some (nextFolder s)
    | .getFolder _, .folder (some path) => some ({ s with pc := .syncFolder path }, [])
    | .syncFolder _, .ok => some (nextFolder s)
    | .syncFolder path, .fail e =>
        some ({ s with pc := .rollback, errors := s.errors ++ [path ++ ": " ++ safeError e] }, [])
    | .rollback, .ok => some ({ s with pc := .refresh }, [])
    | .refresh, .ok => some (nextFolder s)
    | .shutdown, .ok | .shutdown, .fail _ => some (finallyBlock s .cancelled)
    | .outerRollback, .ok => some (finallyBlock s .returned)
    | .outerRollback, .fail e => some (finallyBlock s (.raised e))
    | .logout leave, .ok | .logout leave, .fail _ => some (afterLogout s leave)
    | .execute leave, .ok => some ({ s with pc := .commit leave }, [])
    | .commit leave, .ok => some ({ s with pc := .closeSession leave }, [])
    | .execute _, .fail e | .commit _, .fail e =>
        some ({ s with pc := .closeSession (.raised e) }, [])
    | .closeSession leave, .ok => some ({ s with pc := .ended leave }, [])
    | .closeSession _, .fail e => some ({ s with pc := .ended (.raised e) }, [])
    | .loadAccount, .fail e | .opening, .fail e | .awaitOpening, .fail e | .discover, .fail e
    | .getFolder _, .fail e | .rollback, .fail e | .refresh, .fail e => some (outerHandler s e)
    | _, _ => none

/- A cancellation was thrown into the call, or will be. -/
def Thrown (s : Sync) : Prop :=
  s.mustCancel = true ∨ match s.pc with
    | .awaitOpening | .shutdown | .logout .cancelled | .execute .cancelled | .commit .cancelled
    | .closeSession .cancelled | .ended .cancelled => True
    | _ => False

/- CancelledError is on its way out of the call, and nothing is written on it. -/
def Unwinding (s : Sync) : Prop :=
  s.mustCancel = false ∧ match s.pc with
    | .awaitOpening | .closeSession .cancelled | .ended .cancelled => True
    | .shutdown | .logout .cancelled => s.cancelled = true
    | _ => False

/- The call only unwinds, now or from its next step on. -/
def Doomed (s : Sync) : Prop :=
  s.mustCancel = true ∧ s.pc ≠ .outerRollback ∧ s.pc ≠ .shutdown ∨ Unwinding s

theorem finally_unwinds {s : Sync} (calm : s.mustCancel = false) (flag : s.cancelled = true) :
    Unwinding (finallyBlock s .cancelled).1 ∧ (finallyBlock s .cancelled).2 = [] := by
  unfold finallyBlock
  split
  · simp [Unwinding, calm, flag]
  · simp [afterLogout, Unwinding, calm, flag]

theorem handler_unwinds {s : Sync} (calm : s.mustCancel = false) :
    Unwinding (cancelHandler s).1 ∧ (cancelHandler s).2 = [] := by
  unfold cancelHandler
  dsimp only
  split
  · simp [Unwinding, calm]
  · exact finally_unwinds calm rfl

theorem throw_unwinds {s : Sync} (place : s.pc ≠ .outerRollback ∧ s.pc ≠ .shutdown) :
    Unwinding (throwCancelled s).1 ∧ (throwCancelled s).2 = [] := by
  unfold throwCancelled
  dsimp only
  split
  · exact ⟨by simp [Unwinding], rfl⟩
  · exact ⟨by simp [Unwinding], rfl⟩
  · exact ⟨by simp [Unwinding], rfl⟩
  · rename_i pc
    exact absurd pc place.2
  · rename_i pc
    exact absurd pc place.1
  · exact ⟨by simp [Unwinding], rfl⟩
  · exact ⟨by simp [Unwinding], rfl⟩
  · exact ⟨by simp [Unwinding], rfl⟩
  · exact ⟨by simp [Unwinding], rfl⟩
  · exact ⟨by simp [Unwinding], rfl⟩
  · exact handler_unwinds rfl

/-- A step of a call that only unwinds writes nothing. -/
theorem unwind_resume {s s' : Sync} {a : Answer} {writes : List Write} (doomed : Doomed s)
    (clean : ∀ e, a = .fail e → s.pc ≠ .awaitOpening ∧ s.pc ≠ .closeSession .cancelled)
    (step : resume s a = some (s', writes)) : Unwinding s' ∧ writes = [] := by
  rcases doomed with ⟨must, place⟩ | ⟨must, unwinds⟩
  · unfold resume at step
    rw [if_pos must] at step
    split at step
    · have same := Option.some.inj step
      obtain ⟨further, silent⟩ := throw_unwinds place
      rw [same] at further silent
      exact ⟨further, silent⟩
    · contradiction
  · have through : ∀ {out : Sync × List Write}, some out = some (s', writes) →
        Unwinding out.1 ∧ out.2 = [] → Unwinding s' ∧ writes = [] := by
      intro out eq further
      rw [Option.some.inj eq] at further
      exact further
    unfold resume at step
    rw [if_neg (by simp [must])] at step
    cases pc : s.pc with
    | awaitOpening =>
      cases a with
      | ok =>
        simp only [pc] at step
        refine through step (handler_unwinds ?_)
        exact must
      | fail e => exact absurd pc (clean e rfl).1
      | _ => simp [pc] at step
    | shutdown =>
      rw [pc] at unwinds
      cases a with
      | ok | fail =>
        simp only [pc] at step
        exact through step (finally_unwinds must unwinds)
      | _ => simp [pc] at step
    | logout leave =>
      rw [pc] at unwinds
      cases leave with
      | cancelled =>
        cases a with
        | ok | fail =>
          simp only [pc, afterLogout] at step
          rw [if_neg (by simp [unwinds])] at step
          exact through step ⟨by simp [Unwinding, must], rfl⟩
        | _ => simp [pc] at step
      | _ => contradiction
    | closeSession leave =>
      rw [pc] at unwinds
      cases leave with
      | cancelled =>
        cases a with
        | ok =>
          simp only [pc] at step
          exact through step ⟨by simp [Unwinding, must], rfl⟩
        | fail e => exact absurd pc (clean e rfl).2
        | _ => simp [pc] at step
      | _ => contradiction
    | ended leave => simp [pc] at step
    | _ =>
      rw [pc] at unwinds
      contradiction

theorem finally_thrown {s : Sync} {leave : Leave} (calm : s.mustCancel = false)
    (other : leave ≠ .cancelled) : ¬Thrown (finallyBlock s leave).1 := by
  cases leave with
  | cancelled => contradiction
  | _ =>
    unfold finallyBlock
    split
    · simp [Thrown, calm]
    · unfold afterLogout
      split <;> simp [Thrown, calm]

theorem next_folder_thrown {s : Sync} (calm : s.mustCancel = false) :
    ¬Thrown (nextFolder s).1 := by
  unfold nextFolder
  split
  · exact finally_thrown calm (by simp)
  · simp [Thrown, calm]

/-- Only a CancelledError that is in the call already keeps it on the way out. -/
theorem thrown_resume {s s' : Sync} {a : Answer} {writes : List Write}
    (step : resume s a = some (s', writes)) (thrown : Thrown s') : Thrown s := by
  by_contra calm
  have must : s.mustCancel = false := by
    cases must : s.mustCancel with
    | true => exact absurd (Or.inl must) calm
    | false => rfl
  have through : ∀ {out : Sync × List Write}, some out = some (s', writes) →
      ¬Thrown out.1 → False := by
    intro out eq other
    rw [Option.some.inj eq] at other
    exact other thrown
  have fails : ∀ {e : String}, some (outerHandler s e) = some (s', writes) → False :=
    fun eq => through eq (by simp [outerHandler, Thrown, must])
  have begins : ∀ {x : Sync} {found : List Nat}, x.mustCancel = false →
      some (beginFolders x found) = some (s', writes) → False := by
    intro x found must' eq
    apply through eq
    unfold beginFolders
    apply next_folder_thrown
    exact must'
  have outside : ∀ {pc : Pc}, s.pc = pc → ¬Thrown { s with pc := pc } := by
    intro pc eq inside
    subst eq
    exact calm inside
  unfold resume at step
  rw [if_neg (by simp [must])] at step
  cases pc : s.pc with
  | awaitOpening | shutdown => exact outside pc (Or.inr trivial)
  | lock | semaphore =>
    cases a with
    | ok =>
      simp only [pc] at step
      exact through step (by simp [Thrown, must])
    | _ => simp [pc] at step
  | loadAccount =>
    cases a with
    | account folders =>
      cases folders with
      | none =>
        simp only [pc] at step
        exact through step (finally_thrown must (by simp))
      | some folders =>
        simp only [pc] at step
        exact through step (by simp [Thrown, must])
    | fail e =>
      simp only [pc] at step
      exact fails step
    | _ => simp [pc] at step
  | opening =>
    cases a with
    | ok =>
      simp only [pc] at step
      split at step
      · exact through step (by simp [Thrown, must])
      · refine begins ?_ step
        exact must
    | fail e =>
      simp only [pc] at step
      exact fails step
    | _ => simp [pc] at step
  | discover =>
    cases a with
    | discovered folders =>
      simp only [pc] at step
      exact begins must step
    | fail e =>
      simp only [pc] at step
      exact fails step
    | _ => simp [pc] at step
  | getFolder folder =>
    cases a with
    | folder path =>
      cases path with
      | none =>
        simp only [pc] at step
        exact through step (next_folder_thrown must)
      | some path =>
        simp only [pc] at step
        exact through step (by simp [Thrown, must])
    | fail e =>
      simp only [pc] at step
      exact fails step
    | _ => simp [pc] at step
  | syncFolder path =>
    cases a with
    | ok =>
      simp only [pc] at step
      exact through step (next_folder_thrown must)
    | fail e =>
      simp only [pc] at step
      exact through step (by simp [Thrown, must])
    | _ => simp [pc] at step
  | rollback =>
    cases a with
    | ok =>
      simp only [pc] at step
      exact through step (by simp [Thrown, must])
    | fail e =>
      simp only [pc] at step
      exact fails step
    | _ => simp [pc] at step
  | refresh =>
    cases a with
    | ok =>
      simp only [pc] at step
      exact through step (next_folder_thrown must)
    | fail e =>
      simp only [pc] at step
      exact fails step
    | _ => simp [pc] at step
  | outerRollback =>
    cases a with
    | ok | fail =>
      simp only [pc] at step
      exact through step (finally_thrown must (by simp))
    | _ => simp [pc] at step
  | logout leave =>
    have other : leave ≠ .cancelled := by
      intro same
      exact outside pc (Or.inr (same ▸ trivial))
    cases a with
    | ok | fail =>
      simp only [pc, afterLogout] at step
      cases leave with
      | cancelled => contradiction
      | _ => split at step <;> exact through step (by simp [Thrown, must])
    | _ => simp [pc] at step
  | execute leave | commit leave | closeSession leave =>
    have other : leave ≠ .cancelled := by
      intro same
      exact outside pc (Or.inr (same ▸ trivial))
    cases a with
    | ok =>
      simp only [pc] at step
      cases leave with
      | cancelled => contradiction
      | _ => exact through step (by simp [Thrown, must])
    | fail e =>
      simp only [pc] at step
      exact through step (by simp [Thrown, must])
    | _ => simp [pc] at step
  | ended leave => simp [pc] at step

end InboxSyncTask
