import InboxOne.Database
import InboxOne.LabelledRuns

/-!
Signing in to Microsoft with a device code: the flows in memory, the task that drives each
of them, and the requests that start, reconnect and poll. A flow id is a fresh uuid4; here it
is the number of flows before it. Between two awaits of a request anything else may happen,
also to the rows it has loaded. An account has a serial number besides its id, which the
database may give away again. Of the account row there are the columns that this code reads
or writes; what MSAL answers is left open. The log only observes the run, newest first.
-/
namespace InboxDeviceFlows
open LabelledRuns
open InboxDatabase (Protocol)

inductive Status where
  | pending
  | complete
  | error
  deriving DecidableEq

structure DeviceFlowState (C : Type) where
  status : Status
  error : Option String
  tokenCacheSerialized : Option C
  username : Option String

def DeviceFlowState.initial {C : Type} : DeviceFlowState C := ⟨.pending, none, none, none⟩

/-- `_pending_metadata` -/
inductive Metadata where
  | create (name color clientId tenant : String)
  | reconnect (accountId : Nat)

/-- What `_drive_device_flow` awaits. -/
inductive Drive where
  | acquiring
  | acquiringSilent (username : String)

structure Account (C : Type) where
  serial : Nat
  name : String
  color : String
  protocol : Protocol
  imapHost : Option String
  imapPort : Option Nat
  imapUseTls : Bool
  imapUsername : Option String
  oauthClientId : Option String
  oauthTenant : Option String
  oauthTokenCache : Option C
  lastSyncStatus : Option String
  lastSyncError : Option String

inductive Answer where
  | started (flow : Nat)
  | polled (status : Status) (error : Option String) (accountId : Option Nat)
  | http (status : Nat) (detail : String)
  | crashed

/-- A request by what it awaits. -/
inductive Request (C : Type) where
  | reconnecting (accountId : Nat)
  | initiating (meta_ : Metadata) (serial : Option Nat)
  | selecting (flow accountId : Nat) (cache : Option C) (username : Option String)
  | committing (flow accountId : Nat) (loaded : Account C) (cache : Option C)
      (username : Option String)
  | inserting (flow : Nat) (account : Account C)
  | refreshing (accountId : Nat)
  | addingInbox (accountId : Nat)
  | answered (answer : Answer)

inductive Record (C : Type) where
  | began (flow : Nat) (meta_ : Metadata) (serial : Option Nat)
  | signedIn (flow : Nat) (cache : C) (username : Option String)
  | failed (flow : Nat) (text : String)
  | created (flow accountId : Nat) (account : Account C)
  | updated (flow accountId : Nat) (loaded before after : Account C)
  | dropped (flow : Nat)
  | deleted (accountId serial : Nat)

structure World (C : Type) where
  flows : Nat → Option (DeviceFlowState C)
  metadata : Nat → Option Metadata
  drives : Nat → Option Drive
  requests : Nat → Option (Request C)
  accounts : Nat → Option (Account C)
  folders : Nat → List String
  issued : Nat
  arrived : Nat
  serials : Nat
  scheduled : List Nat
  log : List (Record C)

def World.initial {C : Type} : World C where
  flows := fun _ => none
  metadata := fun _ => none
  drives := fun _ => none
  requests := fun _ => none
  accounts := fun _ => none
  folders := fun _ => []
  issued := 0
  arrived := 0
  serials := 0
  scheduled := []
  log := []

variable {C : Type}

def defaultClientId : String := "9e5f94bc-e8a4-4e73-b8be-63364c29d753"

/-- `payload.client_id or DEFAULT_CLIENT_ID` -/
def clientIdOf : Option String → String
  | none => defaultClientId
  | some clientId => if clientId = "" then defaultClientId else clientId

def setRequest (w : World C) (r : Nat) (q : Request C) : World C :=
  { w with requests := Function.update w.requests r (some q) }

def answer (w : World C) (r : Nat) (a : Answer) : World C := setRequest w r (.answered a)

/-- A request arrives. -/
def receive (w : World C) (q : Request C) : World C :=
  { w with requests := Function.update w.requests w.arrived (some q), arrived := w.arrived + 1 }

/-- `start_device_flow` once MSAL has answered, and what its caller writes down. -/
def startDeviceFlow (w : World C) (meta_ : Metadata) (serial : Option Nat) : World C :=
  { w with
    flows := Function.update w.flows w.issued (some .initial)
    metadata := Function.update w.metadata w.issued (some meta_)
    drives := Function.update w.drives w.issued (some .acquiring)
    issued := w.issued + 1
    log := .began w.issued meta_ serial :: w.log }

/-- What `acquire_token_by_device_flow` and `get_accounts` give. -/
inductive TokenAnswer (C : Type) where
  | token (accounts : List String) (cache : C)
  | refused (description : Option String)
  | raised (text : String)

inductive SilentAnswer (C : Type) where
  | answered (cache : C)
  | raised (text : String)

def finishDrive (w : World C) (flow : Nat) (state : DeviceFlowState C) (r : Record C) : World C :=
  { w with
    flows := Function.update w.flows flow (some state)
    drives := Function.update w.drives flow none
    log := r :: w.log }

def completeDrive (w : World C) (flow : Nat) (cache : C) (username : Option String) : World C :=
  finishDrive w flow ⟨.complete, none, some cache, username⟩ (.signedIn flow cache username)

def failDrive (w : World C) (flow : Nat) (text : String) : World C :=
  finishDrive w flow ⟨.error, some text, none, none⟩ (.failed flow text)

/-- `_drive_device_flow`: no answer of the second token is needed, but an exception is an
error. -/
def driveToken (w : World C) (flow : Nat) : TokenAnswer C → World C
  | .token [] cache => completeDrive w flow cache none
  | .token (username :: _) _ =>
      { w with drives := Function.update w.drives flow (some (.acquiringSilent username)) }
  | .refused description =>
      failDrive w flow (description.getD "Unknown error acquiring token")
  | .raised text => failDrive w flow text

def driveSilent (w : World C) (flow : Nat) (username : String) : SilentAnswer C → World C
  | .answered cache => completeDrive w flow cache (some username)
  | .raised text => failDrive w flow text

/- The account of a new sign-in. The database assigns its id, here also its serial number. -/
def newAccount (name color clientId tenant : String) (cache : Option C)
    (username : Option String) : Account C where
  serial := 0
  name := name
  color := color
  protocol := .oauthMicrosoft
  imapHost := some "outlook.office365.com"
  imapPort := some 993
  imapUseTls := true
  imapUsername := username
  oauthClientId := some clientId
  oauthTenant := some tenant
  oauthTokenCache := cache
  lastSyncStatus := none
  lastSyncError := none

/-- `poll` up to its first await, with `poll_device_flow`. -/
def poll (w : World C) (flow : Nat) : World C :=
  match w.flows flow with
  | none => receive w (.answered (.polled .error (some "Unknown flow id") none))
  | some state =>
      let forgotten := { w with flows := Function.update w.flows flow none }
      match state.status with
      | .pending => receive w (.answered (.polled .pending state.error none))
      | .error => receive forgotten (.answered (.polled .error state.error none))
      | .complete =>
          match w.metadata flow with
          | none =>
              receive forgotten (.answered (.http 400 "Unknown or already-consumed flow id"))
          | some meta_ =>
              let taken :=
                { forgotten with metadata := Function.update w.metadata flow none }
              match meta_ with
              | .reconnect accountId =>
                  receive taken
                    (.selecting flow accountId state.tokenCacheSerialized state.username)
              | .create name color clientId tenant =>
                  receive taken (.inserting flow (newAccount name color clientId tenant
                    state.tokenCacheSerialized state.username))

section Sessions
variable [DecidableEq C]

/-- A column that the session has set: it is written if it differs from the loaded value. -/
def written {V : Type} [DecidableEq V] (loaded new current : V) : V :=
  if loaded = new then current else new

/-- The user name that a reconnect sets, unless it is empty. -/
def nameAfter (loaded : Account C) (username : Option String) : Option String :=
  if username = none ∨ username = some "" then loaded.imapUsername else username

def isDirty (loaded : Account C) (cache : Option C) (username : Option String) : Bool :=
  loaded.oauthTokenCache ≠ cache || loaded.imapUsername ≠ nameAfter loaded username ||
    loaded.lastSyncStatus ≠ none || loaded.lastSyncError ≠ none

def reconnected (loaded : Account C) (cache : Option C) (username : Option String)
    (current : Account C) : Account C :=
  { current with
    oauthTokenCache := written loaded.oauthTokenCache cache current.oauthTokenCache
    imapUsername := written loaded.imapUsername (nameAfter loaded username) current.imapUsername
    lastSyncStatus := written loaded.lastSyncStatus none current.lastSyncStatus
    lastSyncError := written loaded.lastSyncError none current.lastSyncError }

def drop (w : World C) (flow : Nat) : World C := { w with log := .dropped flow :: w.log }

def schedule (w : World C) (accountId : Nat) : World C :=
  { w with scheduled := accountId :: w.scheduled }

def finishPoll (w : World C) (r accountId : Nat) : World C :=
  answer (schedule w accountId) r (.polled .complete none (some accountId))

/-- A request goes on, as its await was answered; `id` is what an INSERT assigns. -/
def proceed (w : World C) (r id : Nat) : Request C → Option (World C)
  | .reconnecting accountId => some (match w.accounts accountId with
      | none => answer w r (.http 404 "Account not found")
      | some account =>
          if account.protocol = .oauthMicrosoft then
            setRequest w r (.initiating (.reconnect accountId) (some account.serial))
          else answer w r (.http 400 "Not an Outlook/Microsoft 365 account"))
  | .initiating meta_ serial =>
      some (answer (startDeviceFlow w meta_ serial) r (.started w.issued))
  | .selecting flow accountId cache username => some (match w.accounts accountId with
      | none => answer (drop w flow) r (.http 404 "Account not found")
      | some loaded => setRequest w r (.committing flow accountId loaded cache username))
  | .committing flow accountId loaded cache username => some (match w.accounts accountId with
      | none =>
          if isDirty loaded cache username then answer (drop w flow) r .crashed
          else finishPoll (drop w flow) r accountId
      | some before =>
          let after := reconnected loaded cache username before
          finishPoll { w with
            accounts := Function.update w.accounts accountId (some after)
            log := .updated flow accountId loaded before after :: w.log } r accountId)
  | .inserting flow account =>
      if w.accounts id = none then
        let row := { account with serial := w.serials }
        some (setRequest { w with
          accounts := Function.update w.accounts id (some row)
          serials := w.serials + 1
          log := .created flow id row :: w.log } r (.refreshing id))
      else none
  | .refreshing accountId => some (match w.accounts accountId with
      | none => answer w r .crashed
      | some _ => setRequest w r (.addingInbox accountId))
  | .addingInbox accountId =>
      some (if w.accounts accountId = none ∨ "INBOX" ∈ w.folders accountId then
        answer w r .crashed
      else finishPoll { w with
        folders := Function.update w.folders accountId ("INBOX" :: w.folders accountId) } r
        accountId)
  | .answered _ => none

/-- The sign-in that a request still has to write. -/
def Request.carries : Request C → Option Nat
  | .selecting flow _ _ _ | .committing flow _ _ _ _ | .inserting flow _ => some flow
  | _ => none

/- What the request awaits raises an exception. -/
def fail (w : World C) (r : Nat) (q : Request C) : Option (World C) :=
  match q with
  | .answered _ => none
  | _ =>
      match q.carries with
      | some flow => some (answer (drop w flow) r .crashed)
      | none => some (answer w r .crashed)

inductive Label (C : Type) where
  | start (name color : String) (clientId : Option String) (tenant : String)
  | reconnect (accountId : Nat)
  | poll (flow : Nat)
  | proceed (r id : Nat)
  | fail (r : Nat)
  | token (flow : Nat) (answer : TokenAnswer C)
  | silent (flow : Nat) (answer : SilentAnswer C)
  | addAccount (id : Nat) (account : Account C)
  | edit (id : Nat) (account : Account C)
  | delete (id : Nat)
  | discover (id : Nat) (folders : List String)

def next (w : World C) : Label C → Option (World C)
  | .start name color clientId tenant =>
      some (receive w (.initiating (.create name color (clientIdOf clientId) tenant) none))
  | .reconnect accountId => some (receive w (.reconnecting accountId))
  | .poll flow => some (poll w flow)
  | .proceed r id => (w.requests r).bind (proceed w r id)
  | .fail r => (w.requests r).bind (fail w r)
  | .token flow answer =>
      match w.drives flow with
      | some .acquiring => some (driveToken w flow answer)
      | _ => none
  | .silent flow answer =>
      match w.drives flow with
      | some (.acquiringSilent username) => some (driveSilent w flow username answer)
      | _ => none
  | .addAccount id account =>
      if w.accounts id = none then
        some { w with
          accounts := Function.update w.accounts id (some { account with serial := w.serials })
          serials := w.serials + 1 }
      else none
  | .edit id account => (w.accounts id).map fun row =>
      { w with
        accounts := Function.update w.accounts id (some { account with serial := row.serial }) }
  | .delete id => (w.accounts id).map fun row =>
      { w with
        accounts := Function.update w.accounts id none
        folders := Function.update w.folders id []
        log := .deleted id row.serial :: w.log }
  | .discover id folders => (w.accounts id).map fun _ =>
      { w with folders := Function.update w.folders id folders }

end Sessions

def about (f : Nat) : Record C → Bool
  | .began g _ _ | .signedIn g _ _ | .failed g _ | .created g _ _ | .updated g _ _ _ _
  | .dropped g => g = f
  | .deleted _ _ => false

def history (w : World C) (f : Nat) : List (Record C) := w.log.filter (about f)

/-- A request that has taken this sign-in, and what it is going to write. -/
inductive Fits (f : Nat) (cache : C) (username : Option String) : Metadata → Request C → Prop
  | selecting (id : Nat) : Fits f cache username (.reconnect id)
      (.selecting f id (some cache) username)
  | committing (id : Nat) (loaded : Account C) : Fits f cache username (.reconnect id)
      (.committing f id loaded (some cache) username)
  | inserting (name color clientId tenant : String) :
      Fits f cache username (.create name color clientId tenant)
        (.inserting f (newAccount name color clientId tenant (some cache) username))

/-- No request carries the flow. -/
def Free (w : World C) (f : Nat) : Prop := ∀ r q, w.requests r = some q → q.carries ≠ some f

variable {w w' : World C} {f r : Nat} {q : Request C}

theorem fits_carries {cache : C} {username : Option String} {m : Metadata}
    (fits : Fits f cache username m q) : q.carries = some f := by
  cases fits <;> rfl

/- One request is written. -/
theorem written_request (requests : w'.requests = Function.update w.requests r (some q))
    (before : ∀ p, w.requests r = some p → p.carries ≠ some f) (after : q.carries ≠ some f)
    (r' : Nat) (q' : Request C) (carries : q'.carries = some f) :
    w'.requests r' = some q' ↔ w.requests r' = some q' := by
  rw [requests]
  by_cases same : r' = r
  · subst same
    rw [Function.update_self]
    constructor
    · intro eq
      rw [Option.some.inj eq] at after
      exact absurd carries after
    · exact fun request => absurd carries (before q' request)
  · rw [Function.update_of_ne same]

/- The request goes on without the flow, or with it. -/
theorem released_free (requests : w'.requests = Function.update w.requests r (some q))
    (released : q.carries ≠ some f)
    (only : ∀ r' q', w.requests r' = some q' → q'.carries = some f → r' = r) : Free w' f := by
  intro r' q' request' carries'
  rw [requests] at request'
  by_cases same : r' = r
  · rw [same, Function.update_self, Option.some.injEq] at request'
    exact released (request' ▸ carries')
  · rw [Function.update_of_ne same] at request'
    exact same (only r' q' request' carries')

theorem taken_only (requests : w'.requests = Function.update w.requests r (some q))
    (only : ∀ r' q', w.requests r' = some q' → q'.carries = some f → r' = r) (r' : Nat)
    (q' : Request C) (request' : w'.requests r' = some q') (carries' : q'.carries = some f) :
    r' = r := by
  by_contra other
  rw [requests, Function.update_of_ne other] at request'
  exact other (only r' q' request' carries')

theorem history_own {record : Record C} (log : w'.log = record :: w.log)
    (own : about f record = true) : history w' f = record :: history w f := by
  rw [history, log, List.filter_cons_of_pos own, history]

theorem history_other {record : Record C} (log : w'.log = record :: w.log)
    (other : ¬ about f record = true) : history w' f = history w f := by
  rw [history, log, List.filter_cons_of_neg other, history]

/-- An answer that a request may get: no completed flow is without its metadata, and what a
completed poll names has been scheduled. -/
def Fair (w : World C) : Answer → Prop
  | .http _ detail => detail ≠ "Unknown or already-consumed flow id"
  | .polled .complete _ accountId => ∃ id, accountId = some id ∧ id ∈ w.scheduled
  | _ => True

/-- A step that is none of the flow's. -/
structure SameFlow (w w' : World C) (f : Nat) : Prop where
  flow : w'.flows f = w.flows f
  metadata : w'.metadata f = w.metadata f
  drive : w'.drives f = w.drives f
  requests : ∀ r q, q.carries = some f → (w'.requests r = some q ↔ w.requests r = some q)
  past : history w' f = history w f

/-- A step that writes one request. -/
structure Moves (w w' : World C) (r : Nat) (q : Request C) : Prop where
  requests : w'.requests = Function.update w.requests r (some q)
  arrived : w.arrived ≤ w'.arrived
  inside : r < w'.arrived
  scheduled : w.scheduled ⊆ w'.scheduled
  fair : ∀ a, q = .answered a → Fair w' a

theorem fair_mono (scheduled : w.scheduled ⊆ w'.scheduled) {a : Answer} (fair : Fair w a) :
    Fair w' a := by
  cases a with
  | polled status error accountId =>
    cases status with
    | complete =>
      obtain ⟨id, eq, mem⟩ := fair
      exact ⟨id, eq, scheduled mem⟩
    | pending => trivial
    | error => trivial
  | started flow => trivial
  | http status detail => exact fair
  | crashed => trivial

/-- The tables of the flows stay as they are. -/
structure SameTables (w w' : World C) : Prop where
  flows : w'.flows = w.flows
  metadata : w'.metadata = w.metadata
  drives : w'.drives = w.drives
  issued : w'.issued = w.issued

theorem other_same (moves : Moves w w' r q) (tables : SameTables w w')
    (past : history w' f = history w f)
    (before : ∀ p, w.requests r = some p → p.carries ≠ some f) (after : q.carries ≠ some f) :
    SameFlow w w' f :=
  ⟨congrFun tables.flows f, congrFun tables.metadata f, congrFun tables.drives f,
    written_request moves.requests before after, past⟩

theorem receive_moves (w : World C) {q : Request C} (fair : ∀ a, q = .answered a → Fair w a) :
    Moves w (receive w q) w.arrived q :=
  ⟨rfl, Nat.le_succ _, Nat.lt_succ_self _, List.Subset.refl _, fair⟩

/-- The record says what became of a sign-in. -/
def Record.settles (f : Nat) : Record C → Bool
  | .created g _ _ | .updated g _ _ _ _ | .dropped g => g = f
  | _ => false

section Phases
variable [DecidableEq C]

/-- What a sign-in has led to. -/
inductive Settles (f : Nat) (cache : C) (username : Option String) : Metadata → Record C → Prop
  | created (name color clientId tenant : String) (id serial : Nat) :
      Settles f cache username (.create name color clientId tenant)
        (.created f id { newAccount name color clientId tenant (some cache) username with
          serial := serial })
  | updated (id : Nat) (loaded before : Account C) :
      Settles f cache username (.reconnect id)
        (.updated f id loaded before (reconnected loaded (some cache) username before))
  | dropped (meta_ : Metadata) : Settles f cache username meta_ (.dropped f)

/-- The life of a flow, with everything that the tables hold of it. -/
inductive Phase (w : World C) (f : Nat) : Prop
  | unknown (flow : w.flows f = none) (metadata : w.metadata f = none) (drive : w.drives f = none)
      (free : Free w f) (past : history w f = [])
  | pending (m : Metadata) (s : Option Nat) (flow : w.flows f = some .initial)
      (metadata : w.metadata f = some m) (free : Free w f) (past : history w f = [.began f m s])
  | complete (m : Metadata) (s : Option Nat) (cache : C) (username : Option String)
      (flow : w.flows f = some ⟨.complete, none, some cache, username⟩)
      (metadata : w.metadata f = some m) (drive : w.drives f = none) (free : Free w f)
      (past : history w f = [.signedIn f cache username, .began f m s])
  | failed (m : Metadata) (s : Option Nat) (text : String)
      (flow : w.flows f = some ⟨.error, some text, none, none⟩) (drive : w.drives f = none)
      (free : Free w f) (past : history w f = [.failed f text, .began f m s])
  | reported (m : Metadata) (s : Option Nat) (text : String) (flow : w.flows f = none)
      (drive : w.drives f = none) (free : Free w f)
      (past : history w f = [.failed f text, .began f m s])
  | carried (m : Metadata) (s : Option Nat) (cache : C) (username : Option String) (r : Nat)
      (q : Request C) (flow : w.flows f = none) (drive : w.drives f = none)
      (request : w.requests r = some q) (fits : Fits f cache username m q)
      (only : ∀ r' q', w.requests r' = some q' → q'.carries = some f → r' = r)
      (past : history w f = [.signedIn f cache username, .began f m s])
  | settled (m : Metadata) (s : Option Nat) (cache : C) (username : Option String)
      (record : Record C) (flow : w.flows f = none) (drive : w.drives f = none)
      (free : Free w f) (settles : Settles f cache username m record)
      (past : history w f = [record, .signedIn f cache username, .began f m s])

theorem phase_frame (same : SameFlow w w' f) (phase : Phase w f) : Phase w' f := by
  have free : Free w f → Free w' f := fun free r q request carries =>
    free r q ((same.requests r q carries).mp request) carries
  cases phase with
  | unknown flow metadata drive unused past =>
    exact .unknown (same.flow.trans flow) (same.metadata.trans metadata) (same.drive.trans drive)
      (free unused) (same.past.trans past)
  | pending m s flow metadata unused past =>
    exact .pending m s (same.flow.trans flow) (same.metadata.trans metadata) (free unused)
      (same.past.trans past)
  | complete m s cache username flow metadata drive unused past =>
    exact .complete m s cache username (same.flow.trans flow) (same.metadata.trans metadata)
      (same.drive.trans drive) (free unused) (same.past.trans past)
  | failed m s text flow drive unused past =>
    exact .failed m s text (same.flow.trans flow) (same.drive.trans drive) (free unused)
      (same.past.trans past)
  | reported m s text flow drive unused past =>
    exact .reported m s text (same.flow.trans flow) (same.drive.trans drive) (free unused)
      (same.past.trans past)
  | carried m s cache username r q flow drive request fits only past =>
    have carries := fits_carries fits
    exact .carried m s cache username r q (same.flow.trans flow) (same.drive.trans drive)
      ((same.requests r q carries).mpr request) fits
      (fun r' q' request' carries' =>
        only r' q' ((same.requests r' q' carries').mp request') carries')
      (same.past.trans past)
  | settled m s cache username record flow drive unused settles past =>
    exact .settled m s cache username record (same.flow.trans flow) (same.drive.trans drive)
      (free unused) settles (same.past.trans past)

/- The request that carries a flow tells its phase. -/
theorem carried_phase (phase : Phase w f) (request : w.requests r = some q)
    (carries : q.carries = some f) : ∃ m s cache username, w.flows f = none ∧
      w.drives f = none ∧ Fits f cache username m q ∧
      (∀ r' q', w.requests r' = some q' → q'.carries = some f → r' = r) ∧
      history w f = [.signedIn f cache username, .began f m s] := by
  cases phase with
  | carried m s cache username r' q' flow drive request' fits only past =>
    have same := only r q request carries
    subst same
    rw [request, Option.some.injEq] at request'
    subst request'
    exact ⟨m, s, cache, username, flow, drive, fits, only, past⟩
  | unknown _ _ _ free _ => exact absurd carries (free r q request)
  | pending _ _ _ _ free _ => exact absurd carries (free r q request)
  | complete _ _ _ _ _ _ _ free _ => exact absurd carries (free r q request)
  | failed _ _ _ _ _ free _ => exact absurd carries (free r q request)
  | reported _ _ _ _ _ free _ => exact absurd carries (free r q request)
  | settled _ _ _ _ _ _ _ free _ _ => exact absurd carries (free r q request)

structure Sound (w : World C) : Prop where
  phases : ∀ f, Phase w f
  unissued : ∀ f, w.issued ≤ f → history w f = []
  unarrived : ∀ r, w.arrived ≤ r → w.requests r = none
  answers : ∀ r a, w.requests r = some (.answered a) → Fair w a

theorem moves_sound (sound : Sound w) (moves : Moves w w' r q) (phases : ∀ f, Phase w' f)
    (unissued : ∀ f, w'.issued ≤ f → history w' f = []) : Sound w' := by
  refine ⟨phases, unissued, fun r' late => ?_, fun r' a request => ?_⟩
  · rw [moves.requests, Function.update_of_ne]
    · exact sound.unarrived r' (Nat.le_trans moves.arrived late)
    · exact Nat.ne_of_gt (Nat.lt_of_lt_of_le moves.inside late)
  · rw [moves.requests] at request
    by_cases same : r' = r
    · rw [same, Function.update_self, Option.some.injEq] at request
      exact moves.fair a request
    · rw [Function.update_of_ne same] at request
      exact fair_mono moves.scheduled (sound.answers r' a request)

/- A request that has to do with no flow. -/
theorem plain_sound (sound : Sound w) (moves : Moves w w' r q) (tables : SameTables w w')
    (past : ∀ f, history w' f = history w f)
    (before : ∀ p, w.requests r = some p → p.carries = none) (after : q.carries = none) :
    Sound w' := by
  refine moves_sound sound moves (fun f => phase_frame ?_ (sound.phases f)) fun f late => ?_
  · refine other_same moves tables (past f) (fun p request => ?_) ?_
    · rw [before p request]
      simp
    · rw [after]
      simp
  · rw [past]
    exact sound.unissued f (tables.issued ▸ late)

/- A request goes on with the flow that it carries. -/
theorem carry_sound (sound : Sound w) {p : Request C} (request : w.requests r = some p)
    (carries : p.carries = some f) (moves : Moves w w' r q) (tables : SameTables w w')
    (log : w'.log = w.log)
    (fits : ∀ cache username m, Fits f cache username m p → Fits f cache username m q) :
    Sound w' := by
  have past : ∀ g, history w' g = history w g := fun g => by rw [history, log, history]
  obtain ⟨m, s, cache, username, flow, drive, before, only, history_eq⟩ :=
    carried_phase (sound.phases f) request carries
  have after := fits cache username m before
  refine moves_sound sound moves (fun g => ?_) fun g late => ?_
  · by_cases own : g = f
    · subst own
      refine .carried m s cache username r q ?_ ?_ ?_ after ?_ ((past g).trans history_eq)
      · rw [tables.flows, flow]
      · rw [tables.drives, drive]
      · rw [moves.requests, Function.update_self]
      · exact taken_only moves.requests only
    · refine phase_frame (other_same moves tables (past g) (fun p' request' => ?_) ?_)
        (sound.phases g)
      · rw [request, Option.some.injEq] at request'
        rw [← request', carries]
        exact fun same => own (Option.some.inj same).symm
      · rw [fits_carries after]
        exact fun same => own (Option.some.inj same).symm
  · rw [past]
    exact sound.unissued g (tables.issued ▸ late)

/- A request writes what it carries, or gives it up. -/
theorem settle_sound (sound : Sound w) {p : Request C} (request : w.requests r = some p)
    (carries : p.carries = some f) (moves : Moves w w' r q) (tables : SameTables w w')
    (released : q.carries = none) {record : Record C} (log : w'.log = record :: w.log)
    (concerns : ∀ g, about g record = true ↔ g = f)
    (settles : ∀ cache username m, Fits f cache username m p → Settles f cache username m record) :
    Sound w' := by
  obtain ⟨m, s, cache, username, flow, drive, fits, only, past⟩ :=
    carried_phase (sound.phases f) request carries
  have own_past := history_own log ((concerns f).mpr rfl)
  have other_past : ∀ g, g ≠ f → history w' g = history w g := fun g other =>
    history_other log fun own => other ((concerns g).mp own)
  refine moves_sound sound moves (fun g => ?_) fun g late => ?_
  · by_cases own : g = f
    · subst own
      refine .settled m s cache username record ?_ ?_ ?_ (settles cache username m fits)
        (own_past.trans (congrArg _ past))
      · rw [tables.flows, flow]
      · rw [tables.drives, drive]
      · exact released_free moves.requests (by rw [released]; simp) only
    · refine phase_frame (other_same moves tables (other_past g own) (fun p' request' => ?_) ?_)
        (sound.phases g)
      · rw [request, Option.some.injEq] at request'
        rw [← request', carries]
        exact fun same => own (Option.some.inj same).symm
      · rw [released]
        simp
  · have issued : w.issued ≤ g := tables.issued ▸ late
    rw [other_past g, sound.unissued g issued]
    rintro rfl
    rw [sound.unissued g issued] at past
    contradiction

theorem driven_open (phase : Phase w f) {drive : Drive} (driving : w.drives f = some drive) :
    ∃ m s, w.flows f = some .initial ∧ w.metadata f = some m ∧ Free w f ∧
      history w f = [.began f m s] := by
  have busy : w.drives f ≠ none := by simp [driving]
  cases phase with
  | pending m s flow metadata free past => exact ⟨m, s, flow, metadata, free, past⟩
  | unknown _ _ idle => exact absurd idle busy
  | complete _ _ _ _ _ _ idle => exact absurd idle busy
  | failed _ _ _ _ idle => exact absurd idle busy
  | reported _ _ _ _ idle => exact absurd idle busy
  | carried _ _ _ _ _ _ _ idle => exact absurd idle busy
  | settled _ _ _ _ _ _ idle => exact absurd idle busy

/- A flow is changed by the task that drives it. -/
theorem drive_sound (sound : Sound w) {drive : Drive} (driving : w.drives f = some drive)
    {state : DeviceFlowState C} {record : Record C}
    (ends : (∃ cache username, state = ⟨.complete, none, some cache, username⟩ ∧
        record = .signedIn f cache username) ∨
      ∃ text, state = ⟨.error, some text, none, none⟩ ∧ record = .failed f text) :
    Sound (finishDrive w f state record) := by
  have concerns : ∀ g, about g record = true ↔ g = f := by
    intro g
    rcases ends with ⟨cache, username, _, rfl⟩ | ⟨text, _, rfl⟩
    · simp [about, eq_comm]
    · simp [about, eq_comm]
  have other_past : ∀ g, g ≠ f → history (finishDrive w f state record) g = history w g :=
    fun g other => history_other rfl fun own => other ((concerns g).mp own)
  obtain ⟨m, s, _, metadata, free, past⟩ := driven_open (sound.phases f) driving
  have own_past : history (finishDrive w f state record) f = record :: history w f :=
    history_own rfl ((concerns f).mpr rfl)
  refine ⟨fun g => ?_, fun g late => ?_, sound.unarrived, sound.answers⟩
  · by_cases own : g = f
    · subst own
      have flow : (finishDrive w g state record).flows g = some state := Function.update_self ..
      have idle : (finishDrive w g state record).drives g = none := Function.update_self ..
      rcases ends with ⟨cache, username, rfl, rfl⟩ | ⟨text, rfl, rfl⟩
      · exact .complete m s cache username flow metadata idle free (own_past.trans (by rw [past]))
      · exact .failed m s text flow idle free (own_past.trans (by rw [past]))
    · refine phase_frame ⟨Function.update_of_ne own .., rfl, Function.update_of_ne own ..,
        fun _ _ _ => Iff.rfl, other_past g own⟩ (sound.phases g)
  · have unlogged := sound.unissued g late
    rw [other_past g, unlogged]
    rintro rfl
    rw [past] at unlogged
    contradiction

theorem token_sound (sound : Sound w) (driving : w.drives f = some .acquiring)
    (answer : TokenAnswer C) : Sound (driveToken w f answer) := by
  cases answer with
  | token accounts cache =>
    cases accounts with
    | nil => exact drive_sound sound driving (Or.inl ⟨cache, none, rfl, rfl⟩)
    | cons username rest =>
      refine ⟨fun g => ?_, sound.unissued, sound.unarrived, sound.answers⟩
      by_cases own : g = f
      · subst own
        obtain ⟨m, s, flow, metadata, free, past⟩ := driven_open (sound.phases g) driving
        exact .pending m s flow metadata free past
      · have same : SameFlow w (driveToken w f (.token (username :: rest) cache)) g :=
          ⟨rfl, rfl, Function.update_of_ne own .., fun _ _ _ => Iff.rfl, rfl⟩
        exact phase_frame same (sound.phases g)
  | refused description => exact drive_sound sound driving (Or.inr ⟨_, rfl, rfl⟩)
  | raised text => exact drive_sound sound driving (Or.inr ⟨_, rfl, rfl⟩)

theorem silent_sound (sound : Sound w) {username : String}
    (driving : w.drives f = some (.acquiringSilent username)) (answer : SilentAnswer C) :
    Sound (driveSilent w f username answer) := by
  cases answer with
  | answered cache => exact drive_sound sound driving (Or.inl ⟨cache, some username, rfl, rfl⟩)
  | raised text => exact drive_sound sound driving (Or.inr ⟨_, rfl, rfl⟩)

theorem receive_sound (sound : Sound w) {q : Request C} (plain : q.carries = none)
    (fair : ∀ a, q = .answered a → Fair w a) : Sound (receive w q) := by
  refine plain_sound sound (receive_moves w fair) ⟨rfl, rfl, rfl, rfl⟩ (fun _ => rfl)
    (fun p request => ?_) plain
  rw [sound.unarrived _ (Nat.le_refl _)] at request
  contradiction

/- A poll that takes the flow out of the table. -/
theorem forget_sound (sound : Sound w) {metadata : Nat → Option Metadata} {q : Request C}
    (others : ∀ g, g ≠ f → metadata g = w.metadata g)
    (carries : ∀ g, g ≠ f → q.carries ≠ some g) (fair : ∀ a, q = .answered a → Fair w a)
    (own : Phase (receive { w with
      flows := Function.update w.flows f none, metadata := metadata } q) f) :
    Sound (receive { w with
      flows := Function.update w.flows f none, metadata := metadata } q) := by
  have moves : Moves w (receive { w with
      flows := Function.update w.flows f none, metadata := metadata } q) w.arrived q :=
    ⟨rfl, Nat.le_succ _, Nat.lt_succ_self _, List.Subset.refl _, fair⟩
  refine moves_sound sound moves (fun g => ?_) sound.unissued
  by_cases same : g = f
  · exact same ▸ own
  · refine phase_frame ⟨Function.update_of_ne same .., others g same, rfl,
      written_request moves.requests (fun p request => ?_) (carries g same), rfl⟩ (sound.phases g)
    rw [sound.unarrived _ (Nat.le_refl _)] at request
    contradiction

theorem poll_sound (sound : Sound w) (f : Nat) : Sound (poll w f) := by
  have unknown : w.flows f = none → Sound (poll w f) := by
    intro absent
    rw [poll, absent]
    exact receive_sound sound rfl fun a eq => by cases eq; trivial
  have fresh : ∀ p, w.requests w.arrived ≠ some p := by
    intro p request
    rw [sound.unarrived _ (Nat.le_refl _)] at request
    contradiction
  cases sound.phases f with
  | unknown flow => exact unknown flow
  | reported _ _ _ flow => exact unknown flow
  | carried _ _ _ _ _ _ flow => exact unknown flow
  | settled _ _ _ _ _ flow => exact unknown flow
  | pending m s flow metadata free past =>
    rw [poll, flow]
    exact receive_sound sound rfl fun a eq => by cases eq; trivial
  | failed m s text flow drive free past =>
    rw [poll, flow]
    refine forget_sound sound (fun _ _ => rfl) (fun g _ => by simp [Request.carries])
      (fun a eq => by cases eq; trivial) ?_
    refine .reported m s text (Function.update_self ..) drive ?_ past
    exact released_free rfl (by simp [Request.carries]) fun r' q' request carries' =>
      absurd carries' (free r' q' request)
  | complete m s cache username flow metadata drive free past =>
    have takes : ∀ q : Request C, Fits f cache username m q →
        Sound (receive { w with
          flows := Function.update w.flows f none
          metadata := Function.update w.metadata f none } q) := by
      intro q fits
      have carries := fits_carries fits
      refine forget_sound sound (fun g other => Function.update_of_ne other ..) (fun g other => ?_)
        (fun a eq => ?_) ?_
      · rw [carries]
        exact fun same => other (Option.some.inj same).symm
      · rw [eq] at carries
        contradiction
      · refine .carried m s cache username w.arrived q (Function.update_self ..) drive
          (Function.update_self ..) fits ?_ past
        exact taken_only rfl fun r' q' request carries' => absurd carries' (free r' q' request)
    rw [poll, flow]
    simp only [metadata]
    cases m with
    | create name color clientId tenant => exact takes _ (.inserting name color clientId tenant)
    | reconnect accountId => exact takes _ (.selecting accountId)

theorem untouched_free (phase : Phase w f) (untouched : history w f = []) : Free w f := by
  cases phase with
  | unknown _ _ _ free _ => exact free
  | pending _ _ _ _ free _ => exact free
  | complete _ _ _ _ _ _ _ free _ => exact free
  | failed _ _ _ _ _ free _ => exact free
  | reported _ _ _ _ _ free _ => exact free
  | carried _ _ _ _ _ _ _ _ _ _ _ past =>
    rw [untouched] at past
    contradiction
  | settled _ _ _ _ _ _ _ free _ _ => exact free

theorem begun_sound (sound : Sound w) {m : Metadata} {s : Option Nat}
    (request : w.requests r = some (.initiating m s)) :
    Sound (answer (startDeviceFlow w m s) r (.started w.issued)) := by
  have inside : r < w.arrived := by
    by_contra late
    rw [sound.unarrived r (Nat.le_of_not_lt late)] at request
    contradiction
  have moves : Moves w (answer (startDeviceFlow w m s) r (.started w.issued)) r
      (.answered (.started w.issued)) :=
    ⟨rfl, Nat.le_refl _, inside, List.Subset.refl _, fun a eq => by cases eq; trivial⟩
  have own_past : history (answer (startDeviceFlow w m s) r (.started w.issued)) w.issued =
      .began w.issued m s :: history w w.issued := history_own rfl (by simp [about])
  have other_past : ∀ g, g ≠ w.issued →
      history (answer (startDeviceFlow w m s) r (.started w.issued)) g = history w g :=
    fun g other => history_other rfl (by simpa [about] using Ne.symm other)
  refine moves_sound sound moves (fun g => ?_) fun g late => ?_
  · have plain : ∀ p, w.requests r = some p → p.carries ≠ some g := by
      intro p same
      rw [request, Option.some.injEq] at same
      simp [← same, Request.carries]
    by_cases own : g = w.issued
    · subst own
      rw [sound.unissued _ (Nat.le_refl _)] at own_past
      refine .pending m s (Function.update_self ..) (Function.update_self ..) ?_ own_past
      refine released_free moves.requests (by simp [Request.carries]) fun r' q' known carries => ?_
      have free := untouched_free (sound.phases w.issued) (sound.unissued _ (Nat.le_refl _))
      exact absurd carries (free r' q' known)
    · exact phase_frame ⟨Function.update_of_ne own .., Function.update_of_ne own ..,
        Function.update_of_ne own ..,
        written_request moves.requests plain (by simp [Request.carries]),
        other_past g own⟩ (sound.phases g)
  · rw [other_past g (Nat.ne_of_gt late)]
    exact sound.unissued g (Nat.le_of_succ_le late)

/- Where a request that is not answered goes. -/
theorem set_moves (sound : Sound w) {p : Request C} (request : w.requests r = some p)
    (requests : w'.requests = Function.update w.requests r (some q))
    (arrived : w'.arrived = w.arrived) (scheduled : w.scheduled ⊆ w'.scheduled)
    (fair : ∀ a, q = .answered a → Fair w' a) : Moves w w' r q := by
  refine ⟨requests, Nat.le_of_eq arrived.symm, ?_, scheduled, fair⟩
  rw [arrived]
  by_contra late
  rw [sound.unarrived r (Nat.le_of_not_lt late)] at request
  contradiction

theorem dropped_sound (sound : Sound w) {p : Request C} (request : w.requests r = some p)
    (carries : p.carries = some f) {a : Answer} (fair : Fair w a) :
    Sound (answer (drop w f) r a) := by
  refine settle_sound sound request carries
    (set_moves sound request rfl rfl (List.Subset.refl _) fun b eq => by cases eq; exact fair)
    ⟨rfl, rfl, rfl, rfl⟩ rfl rfl (fun g => by simp [about, eq_comm]) ?_
  exact fun cache username m _ => .dropped m

theorem answered_sound (sound : Sound w) {p : Request C} (request : w.requests r = some p)
    (plain : p.carries = none) {q : Request C} (still : q.carries = none)
    (fair : ∀ a, q = .answered a → Fair w a) : Sound (setRequest w r q) := by
  refine plain_sound sound (set_moves sound request rfl rfl (List.Subset.refl _) fair)
    ⟨rfl, rfl, rfl, rfl⟩ (fun _ => rfl) (fun p' request' => ?_) still
  rw [request, Option.some.injEq] at request'
  exact request' ▸ plain

theorem fail_sound (sound : Sound w) (request : w.requests r = some q)
    (step : fail w r q = some w') : Sound w' := by
  unfold fail at step
  split at step
  · contradiction
  · split at step
    · rename_i carries
      rw [Option.some.injEq] at step
      exact step ▸ dropped_sound sound request carries trivial
    · rename_i plain
      rw [Option.some.injEq] at step
      exact step ▸ answered_sound sound request plain rfl fun a eq => by cases eq; trivial

theorem proceed_sound (sound : Sound w) (request : w.requests r = some q) {id : Nat}
    (step : proceed w r id q = some w') : Sound w' := by
  have crashed : ∀ a, (Request.answered .crashed : Request C) = .answered a → Fair w a :=
    fun a eq => by cases eq; trivial
  cases q with
  | reconnecting accountId =>
    rw [proceed, Option.some.injEq] at step
    subst step
    split
    · exact answered_sound sound request rfl rfl fun a eq => by cases eq; simp [Fair]
    · split
      · exact answered_sound sound request rfl rfl fun a eq => by contradiction
      · exact answered_sound sound request rfl rfl fun a eq => by cases eq; simp [Fair]
  | initiating m s =>
    rw [proceed, Option.some.injEq] at step
    exact step ▸ begun_sound sound request
  | selecting flow accountId cache username =>
    rw [proceed, Option.some.injEq] at step
    subst step
    split
    · exact dropped_sound sound request rfl (by simp [Fair])
    · rename_i loaded _
      refine carry_sound sound request rfl
        (set_moves sound request rfl rfl (List.Subset.refl _) fun a eq => by contradiction)
        ⟨rfl, rfl, rfl, rfl⟩ rfl ?_
      intro cache' username' m fits
      cases fits
      exact .committing accountId loaded
  | committing flow accountId loaded cache username =>
    rw [proceed, Option.some.injEq] at step
    subst step
    have finished : ∀ {u : World C}, Fair (schedule u accountId)
        (.polled .complete none (some accountId)) :=
      ⟨accountId, rfl, List.mem_cons_self⟩
    split
    · split
      · exact dropped_sound sound request rfl trivial
      · refine settle_sound sound request rfl (set_moves sound request rfl rfl
          (List.subset_cons_self ..) fun a eq => by cases eq; exact finished)
          ⟨rfl, rfl, rfl, rfl⟩ rfl rfl (fun g => by simp [about, eq_comm]) ?_
        exact fun cache' username' m _ => .dropped m
    · rename_i before _
      refine settle_sound sound request rfl (set_moves sound request rfl rfl
        (List.subset_cons_self ..) fun a eq => by cases eq; exact finished)
        ⟨rfl, rfl, rfl, rfl⟩ rfl rfl (fun g => by simp [about, eq_comm]) ?_
      intro cache' username' m fits
      cases fits
      exact .updated accountId loaded before
  | inserting flow account =>
    rw [proceed] at step
    split at step
    · rw [Option.some.injEq] at step
      subst step
      refine settle_sound sound request rfl (set_moves sound request rfl rfl
        (List.Subset.refl _) fun a eq => by contradiction)
        ⟨rfl, rfl, rfl, rfl⟩ rfl rfl (fun g => by simp [about, eq_comm]) ?_
      intro cache' username' m fits
      cases fits
      exact .created _ _ _ _ id w.serials
    · contradiction
  | refreshing accountId =>
    rw [proceed, Option.some.injEq] at step
    subst step
    split
    · exact answered_sound sound request rfl rfl crashed
    · exact answered_sound sound request rfl rfl fun a eq => by contradiction
  | addingInbox accountId =>
    rw [proceed, Option.some.injEq] at step
    subst step
    split
    · exact answered_sound sound request rfl rfl crashed
    · refine plain_sound sound (set_moves sound request rfl rfl (List.subset_cons_self ..)
        fun a eq => by cases eq; exact ⟨accountId, rfl, List.mem_cons_self⟩)
        ⟨rfl, rfl, rfl, rfl⟩ (fun _ => rfl) (fun p' request' => ?_) rfl
      rw [request, Option.some.injEq] at request'
      exact request' ▸ rfl
  | answered a => contradiction

/- The rows are changed by others. -/
theorem rows_sound (sound : Sound w) (flows : w'.flows = w.flows)
    (metadata : w'.metadata = w.metadata) (drives : w'.drives = w.drives)
    (requests : w'.requests = w.requests) (past : ∀ f, history w' f = history w f)
    (issued : w'.issued = w.issued) (arrived : w'.arrived = w.arrived)
    (scheduled : w'.scheduled = w.scheduled) : Sound w' := by
  refine ⟨fun f => phase_frame ⟨congrFun flows f, congrFun metadata f, congrFun drives f,
    fun r q _ => by rw [requests], past f⟩ (sound.phases f), fun f late => ?_, fun r late => ?_,
    fun r a request => ?_⟩
  · rw [past]
    exact sound.unissued f (issued ▸ late)
  · rw [requests]
    exact sound.unarrived r (arrived ▸ late)
  · rw [requests] at request
    exact fair_mono (scheduled ▸ List.Subset.refl _) (sound.answers r a request)

theorem next_sound (sound : Sound w) {l : Label C} (step : next w l = some w') : Sound w' := by
  cases l with
  | start name color clientId tenant =>
    rw [next, Option.some.injEq] at step
    exact step ▸ receive_sound sound rfl fun a eq => by contradiction
  | reconnect accountId =>
    rw [next, Option.some.injEq] at step
    exact step ▸ receive_sound sound rfl fun a eq => by contradiction
  | poll flow =>
    rw [next, Option.some.injEq] at step
    exact step ▸ poll_sound sound flow
  | proceed r id =>
    obtain ⟨q, request, moved⟩ := Option.bind_eq_some_iff.mp step
    exact proceed_sound sound request moved
  | fail r =>
    obtain ⟨q, request, moved⟩ := Option.bind_eq_some_iff.mp step
    exact fail_sound sound request moved
  | token flow answer =>
    rw [next] at step
    split at step
    · rename_i driving
      rw [Option.some.injEq] at step
      exact step ▸ token_sound sound driving answer
    · contradiction
  | silent flow answer =>
    rw [next] at step
    split at step
    · rename_i driving
      rw [Option.some.injEq] at step
      exact step ▸ silent_sound sound driving answer
    · contradiction
  | addAccount id account =>
    rw [next] at step
    split at step
    · rw [Option.some.injEq] at step
      exact step ▸ rows_sound sound rfl rfl rfl rfl (fun _ => rfl) rfl rfl rfl
    · contradiction
  | edit id account =>
    obtain ⟨row, _, rfl⟩ := Option.map_eq_some_iff.mp step
    exact rows_sound sound rfl rfl rfl rfl (fun _ => rfl) rfl rfl rfl
  | delete id =>
    obtain ⟨row, _, rfl⟩ := Option.map_eq_some_iff.mp step
    refine rows_sound sound rfl rfl rfl rfl (fun f => ?_) rfl rfl rfl
    exact history_other rfl (by simp [about])
  | discover id folders =>
    obtain ⟨row, _, rfl⟩ := Option.map_eq_some_iff.mp step
    exact rows_sound sound rfl rfl rfl rfl (fun _ => rfl) rfl rfl rfl

theorem initial_sound : Sound (World.initial : World C) := by
  refine ⟨fun f => ?_, fun _ _ => rfl, fun _ _ => rfl, fun r a request => by contradiction⟩
  exact .unknown rfl rfl rfl (fun r q request => by contradiction) rfl

theorem run_sound {labels : List (Label C)} (run : replay next .initial labels = some w) :
    Sound w :=
  replay_invariant Sound initial_sound (fun _ _ _ sound step => next_sound sound step) run

end Phases

section Aim

variable [DecidableEq C]

/- The sign-in of an account is renewed. -/
def renewed : List (Label Nat) :=
  [.addAccount 3 (newAccount "Old" "#000000" "client" "common" (some 1) none), .reconnect 3,
    .proceed 0 0, .proceed 0 0, .token 0 (.token [] 7), .poll 0, .proceed 1 0, .proceed 1 0]

end Aim

end InboxDeviceFlows
