import InboxOne.LabelledRuns
import InboxOne.Registers
import Mathlib.Order.Basic

/-!
The settings row with the hash of the login password and the refresh interval, and the
sessions of the browsers. The server seeds the row when it starts, the command line resets
the password from a process of its own, and requests log in and change the interval; at
every await of one of them the others go on, and any of them may break off there. bcrypt is
a parameter. A browser can only present cookies that the server has signed. The log only
observes the run, newest first.
-/
namespace InboxAppSettings
open LabelledRuns Registers

structure Bcrypt where
  hashpw : String → String → Option String
  checkpw : String → String → Option Bool

structure AppSettings where
  passwordHash : String
  syncIntervalSeconds : Int
  deriving DecidableEq

def DEFAULT_SYNC_INTERVAL_SECONDS : Int := 900

structure RefreshSettings where
  syncIntervalSeconds : Int
  ge : 60 ≤ syncIntervalSeconds
  le : syncIntervalSeconds ≤ 86400
  multipleOf : 60 ∣ syncIntervalSeconds

def RefreshSettings.validate (seconds : Int) : Option RefreshSettings :=
  if valid : 60 ≤ seconds ∧ seconds ≤ 86400 ∧ 60 ∣ seconds then
    some ⟨seconds, valid.1, valid.2.1, valid.2.2⟩
  else none

theorem validate_own (settings : RefreshSettings) :
    RefreshSettings.validate settings.syncIntervalSeconds = some settings :=
  dif_pos ⟨settings.ge, settings.le, settings.multipleOf⟩

theorem validate_sound {seconds : Int} {settings : RefreshSettings}
    (valid : RefreshSettings.validate seconds = some settings) :
    settings.syncIntervalSeconds = seconds := by
  unfold RefreshSettings.validate at valid
  split at valid
  · exact congrArg _ (Option.some.inj valid).symm
  · contradiction

/-- What `_read_new_password` reads: two entries at a terminal, or one line. -/
inductive Stdin where
  | tty (password confirm : String)
  | piped (line : String)

def withoutNewlines (line : String) : String :=
  String.ofList (line.toList.reverse.dropWhile (· = '\n')).reverse

def readNewPassword (stdin : Stdin) : Except String String :=
  let checked (password : String) :=
    if password = "" then .error "Password must not be empty." else .ok password
  match stdin with
  | .tty password confirm =>
      if password ≠ confirm then .error "Passwords did not match." else checked password
  | .piped line => checked (withoutNewlines line)

theorem new_password_nonempty {stdin : Stdin} {password : String}
    (read : readNewPassword stdin = .ok password) : password ≠ "" := by
  unfold readNewPassword at read
  rintro rfl
  cases stdin with
  | tty first confirm =>
    dsimp only at read
    split at read
    · contradiction
    · split at read
      · contradiction
      · rename_i nonempty
        exact nonempty (Except.ok.inj read)
  | piped line =>
    dsimp only at read
    split at read
    · contradiction
    · rename_i nonempty
      exact nonempty (Except.ok.inj read)

/-- The entry `SESSION_KEY` of the session. -/
abbrev Session := Option Bool

def loginSession (_ : Session) : Session := some true
def logoutSession (_ : Session) : Session := none
def isAuthenticated (session : Session) : Bool := session.getD false

/-- `other` is an endpoint of another router that requires a session. -/
inductive Request where
  | lifespan (appPassword : String)
  | resetPassword (stdin : Stdin)
  | login (password : String)
  | logout
  | me
  | getSettings
  | updateSettings (appPassword : String) (seconds : Int)
  | other

inductive Failure where
  | interrupted
  | valueError
  | integrityError
  | staleData
  | attributeError
  | validation
  deriving DecidableEq

inductive Answer where
  | started
  | exited (text : String)
  | passwordUpdated
  | authStatus (authenticated : Bool)
  | settings (settings : RefreshSettings)
  | passed
  | http (status : Nat) (detail : String)
  | unprocessable
  | crashed (failure : Failure)

/-- What a request awaits. `afterwards` is the rest of `update_settings`. -/
inductive Await where
  | bootstrapping (password : String) (afterwards : Option RefreshSettings)
  | seeding (hash : String) (afterwards : Option RefreshSettings)
  | loading (payload : RefreshSettings)
  | saving (loaded : Int) (payload : RefreshSettings)
  | resetting (password : String)
  | storing (loaded : Option String) (hash : String)
  | checking (password : String)
  | reading
  | returning (answer : Answer)

structure Task where
  await : Await
  session : Session

inductive Record where
  | began (r : Nat) (request : Request) (session : Session)
  | seeded (r : Nat) (hash : String)
  | reset (r : Nat) (hash : String)
  | changed (r : Nat) (seconds : Int)
  | answered (r : Nat) (answer : Answer)

structure World where
  row : Option AppSettings
  tasks : Nat → Option Task
  arrived : Nat
  cookies : Nat → Session
  issued : Nat
  log : List Record

def World.initial : World where
  row := none
  tasks := fun _ => none
  arrived := 0
  cookies := fun _ => none
  issued := 0
  log := []

def setTask (w : World) (r : Nat) (session : Session) (await : Await) : World :=
  { w with tasks := Function.update w.tasks r (some ⟨await, session⟩) }

/-- A session that is not empty goes to the browser as a cookie. -/
def issue (w : World) (session : Session) : World :=
  match session with
  | none => w
  | some _ => { w with
      cookies := Function.update w.cookies w.issued session
      issued := w.issued + 1 }

def answer (w : World) (r : Nat) (session : Session) (a : Answer) : World :=
  let finished := { w with
    tasks := Function.update w.tasks r none
    log := .answered r a :: w.log }
  match a with
  | .crashed _ => finished
  | _ => issue finished session

/-- A request up to its first await, behind `require_session` where its router has it. -/
def start (w : World) (r : Nat) (session : Session) (request : Request) : World :=
  let required (w' : World) :=
    if isAuthenticated session then w' else answer w r session (.http 401 "Not authenticated")
  match request with
  | .lifespan appPassword => setTask w r session (.bootstrapping appPassword none)
  | .resetPassword stdin => match readNewPassword stdin with
      | .error text => answer w r session (.exited text)
      | .ok password => setTask w r session (.resetting password)
  | .login password => setTask w r session (.checking password)
  | .logout => answer w r (logoutSession session) (.authStatus false)
  | .me => answer w r session (.authStatus (isAuthenticated session))
  | .getSettings => required (setTask w r session .reading)
  | .updateSettings appPassword seconds => required (match RefreshSettings.validate seconds with
      | none => answer w r session .unprocessable
      | some payload => setTask w r session (.bootstrapping appPassword (some payload)))
  | .other => required (answer w r session .passed)

def sessionOf (w : World) (cookie : Option Nat) : Request → Session
  | .lifespan _ | .resetPassword _ => none
  | _ => cookie.bind w.cookies

def receive (w : World) (cookie : Option Nat) (request : Request) : World :=
  let session := sessionOf w cookie request
  start { w with
    arrived := w.arrived + 1
    log := .began w.arrived request session :: w.log } w.arrived session request

/-- What follows `ensure_password_bootstrapped` in its two callers. -/
def bootstrapped (w : World) (r : Nat) (session : Session) : Option RefreshSettings → World
  | none => setTask w r session (.returning .started)
  | some payload => setTask w r session (.loading payload)

def insertRow (w : World) (hash : String) (record : Record) : World :=
  { w with row := some ⟨hash, DEFAULT_SYNC_INTERVAL_SECONDS⟩, log := record :: w.log }

/-- `verify_app_password` on the row that its SELECT has found -/
def verifyAppPassword (bcrypt : Bcrypt) (row : Option AppSettings) (password : String) :
    Option Bool :=
  match row with
  | none => some false
  | some row => bcrypt.checkpw password row.passwordHash

/-- `login` after it -/
def verdict : Option Bool → Answer
  | none => .crashed .valueError
  | some true => .authStatus true
  | some false => .http 401 "Incorrect password"

/-- `get_sync_interval` -/
def getSyncInterval (row : Option AppSettings) : Int :=
  match row with
  | none => DEFAULT_SYNC_INTERVAL_SECONDS
  | some row => row.syncIntervalSeconds

/-- The await of a request takes effect. A commit writes a column only if the session has
changed it. -/
def proceed (bcrypt : Bcrypt) (w : World) (r : Nat) (salt : String) (session : Session) :
    Await → World
  | .bootstrapping password afterwards => match w.row with
      | some _ => bootstrapped w r session afterwards
      | none => match bcrypt.hashpw password salt with
          | none => setTask w r session (.returning (.crashed .valueError))
          | some hash => setTask w r session (.seeding hash afterwards)
  | .seeding hash afterwards => match w.row with
      | some _ => setTask w r session (.returning (.crashed .integrityError))
      | none => bootstrapped (insertRow w hash (.seeded r hash)) r session afterwards
  | .loading payload => match w.row with
      | none => setTask w r session (.returning (.crashed .attributeError))
      | some row => setTask w r session (.saving row.syncIntervalSeconds payload)
  | .saving loaded payload =>
      if loaded = payload.syncIntervalSeconds then
        setTask w r session (.returning (.settings payload))
      else match w.row with
        | none => setTask w r session (.returning (.crashed .staleData))
        | some row => setTask { w with
            row := some { row with syncIntervalSeconds := payload.syncIntervalSeconds }
            log := .changed r payload.syncIntervalSeconds :: w.log } r session
            (.returning (.settings payload))
  | .resetting password => match bcrypt.hashpw password salt with
      | none => setTask w r session (.returning (.crashed .valueError))
      | some hash =>
          setTask w r session (.storing (w.row.map AppSettings.passwordHash) hash)
  | .storing none hash => match w.row with
      | some _ => setTask w r session (.returning (.crashed .integrityError))
      | none => setTask (insertRow w hash (.reset r hash)) r session (.returning .passwordUpdated)
  | .storing (some loaded) hash =>
      if loaded = hash then setTask w r session (.returning .passwordUpdated)
      else match w.row with
        | none => setTask w r session (.returning (.crashed .staleData))
        | some row => setTask { w with
            row := some { row with passwordHash := hash }
            log := .reset r hash :: w.log } r session (.returning .passwordUpdated)
  | .checking password =>
      let result := verifyAppPassword bcrypt w.row password
      setTask w r (if result = some true then loginSession session else session)
        (.returning (verdict result))
  | .reading => setTask w r session (.returning
      (match RefreshSettings.validate (getSyncInterval w.row) with
        | none => .crashed .validation
        | some settings => .settings settings))
  | .returning a => answer w r session a

inductive Label where
  | receive (cookie : Option Nat) (request : Request)
  | proceed (r : Nat) (salt : String)
  | fail (r : Nat)

def next (bcrypt : Bcrypt) (w : World) : Label → Option World
  | .receive cookie request => some (receive w cookie request)
  | .proceed r salt => (w.tasks r).map fun task => proceed bcrypt w r salt task.session task.await
  | .fail r => (w.tasks r).map fun task => answer w r task.session (.crashed .interrupted)

def passwordEffect : Record → Effect String
  | .seeded _ hash => .fill hash
  | .reset _ hash => .write hash
  | _ => .keep

def intervalEffect : Record → Effect Int
  | .changed _ seconds => .write seconds
  | _ => .keep

/-- The hash of the last reset, or else the one that the row was seeded with. -/
def passwordOf (log : List Record) : Option String := latest passwordEffect log

def intervalOf (log : List Record) : Int :=
  (latest intervalEffect log).getD DEFAULT_SYNC_INTERVAL_SECONDS

def rowOf (log : List Record) : Option AppSettings :=
  (passwordOf log).map fun hash => ⟨hash, intervalOf log⟩

/-- At some moment since the request arrived. -/
def Moment (log : List Record) (r : Nat) (request : Request) (session : Session)
    (P : Option AppSettings → Prop) : Prop :=
  Since (.began r request session) (fun older => P (rowOf older)) log

structure Justified (bcrypt : Bcrypt) (log : List Record) (r : Nat) (request : Request)
    (session : Session) (a : Answer) : Prop where
  login : ∀ password, request = .login password → a = .crashed .interrupted ∨
    Moment log r request session fun row => a = verdict (verifyAppPassword bcrypt row password)
  updated : a = .passwordUpdated → ∃ stdin password salt hash,
    request = .resetPassword stdin ∧ readNewPassword stdin = .ok password ∧
    bcrypt.hashpw password salt = some hash ∧ (∀ own, .reset r own ∈ log → own = hash) ∧
    Moment log r request session fun row => row.map AppSettings.passwordHash = some hash
  settings : ∀ settings, a = .settings settings → isAuthenticated session = true ∧
    (request = .getSettings ∨
      ∃ appPassword, request = .updateSettings appPassword settings.syncIntervalSeconds) ∧
    Moment log r request session fun row => getSyncInterval row = settings.syncIntervalSeconds
  accepted : a = .authStatus true → isAuthenticated session = true ∨
    ∃ password, request = .login password
  passed : a = .passed → isAuthenticated session = true
  failure : ∀ failure, a = .crashed failure →
    failure = .interrupted ∨ failure = .valueError ∨ failure = .integrityError

/-- The caller of `ensure_password_bootstrapped`. -/
def Calls (request : Request) (session : Session) : Option RefreshSettings → Prop
  | none => ∃ password, request = .lifespan password
  | some payload => isAuthenticated session = true ∧
      ∃ appPassword, request = .updateSettings appPassword payload.syncIntervalSeconds

def Fits (bcrypt : Bcrypt) (log : List Record) (r : Nat) (request : Request)
    (session : Session) : Await → Prop
  | .bootstrapping _ afterwards | .seeding _ afterwards => Calls request session afterwards
  | .loading payload => Calls request session (some payload) ∧ passwordOf log ≠ none
  | .saving loaded payload => Calls request session (some payload) ∧ passwordOf log ≠ none ∧
      Moment log r request session fun row => getSyncInterval row = loaded
  | .resetting password => (∃ stdin, request = .resetPassword stdin ∧
      readNewPassword stdin = .ok password) ∧ ∀ own, .reset r own ∉ log
  | .storing loaded hash => ∃ stdin password salt, request = .resetPassword stdin ∧
      readNewPassword stdin = .ok password ∧ bcrypt.hashpw password salt = some hash ∧
      (∀ own, .reset r own ∉ log) ∧
      ∀ old, loaded = some old → passwordOf log ≠ none ∧
        Moment log r request session fun row => row.map AppSettings.passwordHash = some old
  | .checking password => request = .login password
  | .reading => request = .getSettings ∧ isAuthenticated session = true
  | .returning a => Justified bcrypt log r request session a

def Accepted (log : List Record) : Prop :=
  ∃ r password session, .began r (.login password) session ∈ log ∧
    .answered r (.authStatus true) ∈ log

/-- The session of a task is the one of its request, unless a login was accepted. -/
def Keeps (request : Request) (session : Session) (task : Task) : Prop :=
  task.session = session ∨
    task.await = .returning (.authStatus true) ∧ ∃ password, request = .login password

structure Sound (bcrypt : Bcrypt) (w : World) : Prop where
  row : w.row = rowOf w.log
  unchanged : passwordOf w.log = none → latest intervalEffect w.log = none
  valid : ∀ seconds, latest intervalEffect w.log = some seconds →
    (RefreshSettings.validate seconds).isSome = true
  young : ∀ r request session, .began r request session ∈ w.log → r < w.arrived
  author : ∀ r hash, .reset r hash ∈ w.log → r < w.arrived
  once : ∀ newer older r request session, w.log = newer ++ .began r request session :: older →
    ∀ request' session', .began r request' session' ∉ older
  tasks : ∀ r task, w.tasks r = some task → ∃ request session,
    .began r request session ∈ w.log ∧ Fits bcrypt w.log r request session task.await ∧
    Keeps request session task
  answers : ∀ newer older r a, w.log = newer ++ .answered r a :: older → ∃ request session,
    .began r request session ∈ older ∧ Justified bcrypt older r request session a
  seeds : ∀ newer older r hash, w.log = newer ++ .seeded r hash :: older → passwordOf older = none
  changes : ∀ r seconds, .changed r seconds ∈ w.log → ∃ password session,
    .began r (.updateSettings password seconds) session ∈ w.log ∧ isAuthenticated session = true
  cookies : ∀ i, isAuthenticated (w.cookies i) = true → Accepted w.log
  sessions : ∀ newer older r request session,
    w.log = newer ++ .began r request session :: older →
    isAuthenticated session = true → Accepted older

variable {bcrypt : Bcrypt} {w w' : World} {r : Nat} {request : Request} {session : Session}
  {log newer : List Record}

section Frames

theorem Moment.grows {P : Option AppSettings → Prop} (moment : Moment log r request session P)
    (newer : List Record) : Moment (newer ++ log) r request session P :=
  Since.grows moment newer

theorem moment_now {P : Option AppSettings → Prop} (began : .began r request session ∈ log)
    (here : P (rowOf log)) : Moment log r request session P :=
  since_now began here

/- A record is not a reset by this request. -/
theorem older_reset {record : Record} (other : ∀ hash, record ≠ .reset r hash) {hash : String}
    (mem : .reset r hash ∈ record :: log) : .reset r hash ∈ log :=
  (List.mem_cons.mp mem).resolve_left fun same => other hash same.symm

theorem Justified.grows {a : Answer} (justified : Justified bcrypt log r request session a)
    {record : Record} (other : ∀ hash, record ≠ .reset r hash) :
    Justified bcrypt (record :: log) r request session a where
  login password asked :=
    (justified.login password asked).imp_right fun moment => moment.grows [record]
  updated same := by
    obtain ⟨stdin, password, salt, hash, asked, read, hashed, alone, moment⟩ :=
      justified.updated same
    exact ⟨stdin, password, salt, hash, asked, read, hashed,
      fun own mem => alone own (older_reset other mem), moment.grows [record]⟩
  settings settings same := by
    obtain ⟨authenticated, asked, moment⟩ := justified.settings settings same
    exact ⟨authenticated, asked, moment.grows [record]⟩
  accepted := justified.accepted
  passed := justified.passed
  failure := justified.failure

theorem Fits.grows {await : Await} (fits : Fits bcrypt log r request session await)
    {record : Record} (other : ∀ hash, record ≠ .reset r hash) :
    Fits bcrypt (record :: log) r request session await := by
  have grown : passwordOf log ≠ none → passwordOf (record :: log) ≠ none :=
    fun present => latest_grows present
  cases await with
  | bootstrapping password afterwards => exact fits
  | seeding hash afterwards => exact fits
  | loading payload => exact ⟨fits.1, grown fits.2⟩
  | saving loaded payload => exact ⟨fits.1, grown fits.2.1, fits.2.2.grows [record]⟩
  | resetting password => exact ⟨fits.1, fun own mem => fits.2 own (older_reset other mem)⟩
  | storing loaded hash =>
    obtain ⟨stdin, password, salt, asked, read, hashed, fresh, found⟩ := fits
    refine ⟨stdin, password, salt, asked, read, hashed, fun own mem => ?_, fun old same => ?_⟩
    · exact fresh own (older_reset other mem)
    · exact ⟨grown (found old same).1, (found old same).2.grows [record]⟩
  | checking password => exact fits
  | reading => exact fits
  | returning a => exact Justified.grows fits other

theorem Accepted.grows (accepted : Accepted log) (newer : List Record) :
    Accepted (newer ++ log) := by
  obtain ⟨r, password, session, began, answered⟩ := accepted
  exact ⟨r, password, session, List.mem_append_right _ began, List.mem_append_right _ answered⟩

/- An answer that says nothing about the row. -/
theorem justified_plain {a : Answer} (login : ∀ password, request = .login password →
      a = .crashed .interrupted)
    (plain : a ≠ .passwordUpdated ∧ (∀ settings, a ≠ .settings settings) ∧ a ≠ .authStatus true ∧
      a ≠ .passed ∧ ∀ failure, a = .crashed failure →
        failure = .interrupted ∨ failure = .valueError ∨ failure = .integrityError) :
    Justified bcrypt log r request session a where
  login password asked := Or.inl (login password asked)
  updated same := absurd same plain.1
  settings settings same := absurd same (plain.2.1 settings)
  accepted same := absurd same plain.2.2.1
  passed same := absurd same plain.2.2.2.1
  failure := plain.2.2.2.2

end Frames

section Steps

/- A log that grew by a record that was not there as the split says. -/
theorem grown_split {record x : Record} {newer older : List Record} {P : List Record → Prop}
    (before : ∀ newer older, log = newer ++ x :: older → P older) (own : record = x → P log)
    (split : record :: log = newer ++ x :: older) : P older := by
  rcases cons_split split with ⟨_, same, rfl⟩ | ⟨later, _, rest⟩
  · exact own same
  · exact before later older rest

theorem set_sound (sound : Sound bcrypt w) (began : .began r request session ∈ w.log)
    {session' : Session} {await : Await} (fits : Fits bcrypt w.log r request session await)
    (keeps : Keeps request session ⟨await, session'⟩) :
    Sound bcrypt (setTask w r session' await) where
  row := sound.row
  unchanged := sound.unchanged
  valid := sound.valid
  young := sound.young
  author := sound.author
  once := sound.once
  tasks r' task found := by
    rcases written_cell found with ⟨rfl, rfl⟩ | ⟨_, found⟩
    · exact ⟨request, session, began, fits, keeps⟩
    · exact sound.tasks r' task found
  answers := sound.answers
  seeds := sound.seeds
  changes := sound.changes
  cookies := sound.cookies
  sessions := sound.sessions

/- What a write to the row and its record have to satisfy. The task of a reset is set aside
   while its record is written. -/
theorem write_sound (sound : Sound bcrypt w) {row : Option AppSettings} {record : Record}
    (same : row = rowOf (record :: w.log))
    (unchanged : passwordOf (record :: w.log) = none →
      latest intervalEffect (record :: w.log) = none)
    (valid : ∀ seconds, latest intervalEffect (record :: w.log) = some seconds →
      (RefreshSettings.validate seconds).isSome = true)
    (began : ∀ r request session, record ≠ .began r request session)
    (answered : ∀ r a, record ≠ .answered r a)
    (seeded : ∀ r hash, record = .seeded r hash → passwordOf w.log = none)
    (aside : ∀ r hash, record = .reset r hash → w.tasks r = none ∧ r < w.arrived)
    (changes : ∀ r seconds, record = .changed r seconds → ∃ appPassword session,
      .began r (.updateSettings appPassword seconds) session ∈ w.log ∧
        isAuthenticated session = true) :
    Sound bcrypt { w with row := row, log := record :: w.log } where
  row := same
  unchanged := unchanged
  valid := valid
  young r request session mem :=
    sound.young r request session
      ((List.mem_cons.mp mem).resolve_left fun eq => began _ _ _ eq.symm)
  author r hash mem := by
    rcases List.mem_cons.mp mem with new | old
    · exact (aside r hash new.symm).2
    · exact sound.author r hash old
  once newer older r request session split :=
    grown_split (fun newer older => sound.once newer older r request session)
      (fun eq => absurd eq (began _ _ _)) split
  tasks r task found := by
    obtain ⟨request, session, arrived, fits, keeps⟩ := sound.tasks r task found
    refine ⟨request, session, List.mem_cons_of_mem _ arrived, fits.grows fun hash own => ?_, keeps⟩
    exact absurd (found.symm.trans (aside r hash own).1) (Option.some_ne_none _)
  answers newer older r a split :=
    grown_split (fun newer older => sound.answers newer older r a)
      (fun eq => absurd eq (answered _ _)) split
  seeds newer older r hash split :=
    grown_split (fun newer older => sound.seeds newer older r hash) (seeded r hash) split
  changes r seconds mem := by
    have author : ∃ password session, .began r (.updateSettings password seconds) session ∈ w.log ∧
        isAuthenticated session = true := by
      rcases List.mem_cons.mp mem with new | old
      · exact changes r seconds new.symm
      · exact sound.changes r seconds old
    obtain ⟨password, session, began, authenticated⟩ := author
    exact ⟨password, session, List.mem_cons_of_mem _ began, authenticated⟩
  cookies i authenticated := (sound.cookies i authenticated).grows [record]
  sessions newer older r request session split :=
    grown_split (fun newer older => sound.sessions newer older r request session)
      (fun eq => absurd eq (began _ _ _)) split

theorem issued_cookie {cookies : Nat → Session} {n i : Nat}
    (authenticated : isAuthenticated (Function.update cookies n session i) = true) :
    isAuthenticated session = true ∨ isAuthenticated (cookies i) = true := by
  by_cases own : i = n
  · rw [own, Function.update_self] at authenticated
    exact Or.inl authenticated
  · rw [Function.update_of_ne own] at authenticated
    exact Or.inr authenticated

theorem issue_sound (sound : Sound bcrypt w)
    (accepted : isAuthenticated session = true → Accepted w.log) :
    Sound bcrypt (issue w session) := by
  cases session with
  | none => exact sound
  | some entry =>
    refine { sound with cookies := fun i authenticated => ?_ }
    rcases issued_cookie authenticated with new | old
    · exact accepted new
    · exact sound.cookies i old

theorem answered_sound (sound : Sound bcrypt w) {a : Answer}
    (began : .began r request session ∈ w.log)
    (justified : Justified bcrypt w.log r request session a) :
    Sound bcrypt { w with
      tasks := Function.update w.tasks r none, log := .answered r a :: w.log } where
  row := sound.row
  unchanged := sound.unchanged
  valid := sound.valid
  young r' request' session' mem :=
    sound.young r' request' session' ((List.mem_cons.mp mem).resolve_left (by simp))
  author r' hash mem := sound.author r' hash ((List.mem_cons.mp mem).resolve_left (by simp))
  once newer older r' request' session' split :=
    grown_split (fun newer older => sound.once newer older r' request' session')
      (fun eq => by contradiction) split
  tasks r' task found := by
    change Function.update w.tasks r none r' = some task at found
    by_cases own : r' = r
    · rw [own, Function.update_self] at found
      contradiction
    · rw [Function.update_of_ne own] at found
      obtain ⟨request', session', arrived, fits, keeps⟩ := sound.tasks r' task found
      exact ⟨request', session', List.mem_cons_of_mem _ arrived, fits.grows (by simp), keeps⟩
  answers newer older r' a' split := by
    refine grown_split (fun newer older => sound.answers newer older r' a') (fun eq => ?_) split
    obtain ⟨rfl, rfl⟩ := Record.answered.inj eq
    exact ⟨request, session, began, justified⟩
  seeds newer older r' hash split :=
    grown_split (fun newer older => sound.seeds newer older r' hash)
      (fun eq => by contradiction) split
  changes r' seconds mem := by
    obtain ⟨password, session', began', authenticated⟩ :=
      sound.changes r' seconds ((List.mem_cons.mp mem).resolve_left (by simp))
    exact ⟨password, session', List.mem_cons_of_mem _ began', authenticated⟩
  cookies i authenticated := (sound.cookies i authenticated).grows [_]
  sessions newer older r' request' session' split :=
    grown_split (fun newer older => sound.sessions newer older r' request' session')
      (fun eq => by contradiction) split

theorem answer_sound (sound : Sound bcrypt w) {a : Answer} {session' : Session}
    (began : .began r request session ∈ w.log)
    (justified : Justified bcrypt w.log r request session a)
    (accepted : isAuthenticated session' = true → Accepted (.answered r a :: w.log)) :
    Sound bcrypt (answer w r session' a) := by
  have finished := answered_sound sound began justified
  cases a with
  | crashed failure => exact finished
  | _ => exact issue_sound finished accepted

theorem began_sound (sound : Sound bcrypt w)
    (accepted : isAuthenticated session = true → Accepted w.log) :
    Sound bcrypt { w with
      arrived := w.arrived + 1, log := .began w.arrived request session :: w.log } where
  row := sound.row
  unchanged := sound.unchanged
  valid := sound.valid
  young r' request' session' mem := by
    rcases List.mem_cons.mp mem with new | old
    · obtain ⟨rfl, _⟩ := Record.began.inj new
      exact Nat.lt_succ_self _
    · exact Nat.lt_succ_of_lt (sound.young r' request' session' old)
  author r' hash mem :=
    Nat.lt_succ_of_lt (sound.author r' hash ((List.mem_cons.mp mem).resolve_left (by simp)))
  once newer older r' request' session' split := by
    refine grown_split (fun newer older => sound.once newer older r' request' session')
      (fun eq => ?_) split
    obtain ⟨rfl, _⟩ := Record.began.inj eq
    exact fun request'' session'' mem =>
      absurd (sound.young _ request'' session'' mem) (Nat.lt_irrefl _)
  tasks r' task found := by
    obtain ⟨request', session', arrived, fits, keeps⟩ := sound.tasks r' task found
    exact ⟨request', session', List.mem_cons_of_mem _ arrived, fits.grows (by simp), keeps⟩
  answers newer older r' a split :=
    grown_split (fun newer older => sound.answers newer older r' a)
      (fun eq => by contradiction) split
  seeds newer older r' hash split :=
    grown_split (fun newer older => sound.seeds newer older r' hash)
      (fun eq => by contradiction) split
  changes r' seconds mem := by
    obtain ⟨password, session', began', authenticated⟩ :=
      sound.changes r' seconds ((List.mem_cons.mp mem).resolve_left (by simp))
    exact ⟨password, session', List.mem_cons_of_mem _ began', authenticated⟩
  cookies i authenticated := (sound.cookies i authenticated).grows [_]
  sessions newer older r' request' session' split := by
    refine grown_split (fun newer older => sound.sessions newer older r' request' session')
      (fun eq => ?_) split
    obtain ⟨_, _, rfl⟩ := Record.began.inj eq
    exact accepted

theorem start_sound (sound : Sound bcrypt w) (began : .began r request session ∈ w.log)
    (fresh : ∀ own, .reset r own ∉ w.log)
    (accepted : isAuthenticated session = true → Accepted w.log) :
    Sound bcrypt (start w r session request) := by
  have kept : ∀ a, isAuthenticated session = true → Accepted (.answered r a :: w.log) :=
    fun a authenticated => (accepted authenticated).grows [_]
  have refused : (∀ password, request ≠ .login password) →
      Sound bcrypt (answer w r session (.http 401 "Not authenticated")) := fun other =>
    answer_sound sound began (justified_plain (fun password asked => absurd asked (other password))
      (by simp)) (kept _)
  cases request with
  | lifespan appPassword => exact set_sound sound began ⟨appPassword, rfl⟩ (Or.inl rfl)
  | resetPassword stdin =>
    simp only [start]
    split
    · exact answer_sound sound began (justified_plain (by simp) (by simp)) (kept _)
    · rename_i password read
      exact set_sound sound began ⟨⟨stdin, rfl, read⟩, fresh⟩ (Or.inl rfl)
  | login password => exact set_sound sound began rfl (Or.inl rfl)
  | logout =>
    change Sound bcrypt (answer w r (logoutSession session) (.authStatus false))
    exact answer_sound sound began (justified_plain (by simp) (by simp)) fun out => by contradiction
  | me =>
    change Sound bcrypt (answer w r session (.authStatus (isAuthenticated session)))
    refine answer_sound sound began ?_ (kept _)
    exact ⟨by simp, by simp, by simp, fun same => Or.inl (by simpa using same), by simp, by simp⟩
  | getSettings =>
    simp only [start]
    split
    · rename_i authenticated
      exact set_sound sound began ⟨rfl, authenticated⟩ (Or.inl rfl)
    · exact refused (by simp)
  | updateSettings appPassword seconds =>
    simp only [start]
    split
    · rename_i authenticated
      split
      · exact answer_sound sound began (justified_plain (by simp) (by simp)) (kept _)
      · rename_i payload valid
        refine set_sound sound began ⟨authenticated, appPassword, ?_⟩ (Or.inl rfl)
        rw [validate_sound valid]
    · exact refused (by simp)
  | other =>
    simp only [start]
    split
    · rename_i authenticated
      refine answer_sound sound began ?_ (kept _)
      exact ⟨by simp, by simp, by simp, by simp, fun _ => authenticated, by simp⟩
    · exact refused (by simp)

theorem receive_sound (sound : Sound bcrypt w) (cookie : Option Nat) (request : Request) :
    Sound bcrypt (receive w cookie request) := by
  have accepted : isAuthenticated (sessionOf w cookie request) = true → Accepted w.log := by
    intro authenticated
    cases cookie with
    | none => cases request <;> contradiction
    | some i =>
      cases request with
      | lifespan appPassword => contradiction
      | resetPassword stdin => contradiction
      | _ => exact sound.cookies i authenticated
  refine start_sound (began_sound sound accepted) List.mem_cons_self (fun own mem => ?_)
    fun authenticated => (accepted authenticated).grows [_]
  have old := (List.mem_cons.mp mem).resolve_left (by simp)
  exact Nat.lt_irrefl _ (sound.author _ own old)

def aside (w : World) (r : Nat) : World :=
  { w with tasks := Function.update w.tasks r none }

theorem aside_sound (sound : Sound bcrypt w) (r : Nat) : Sound bcrypt (aside w r) := by
  refine { sound with tasks := fun r' task found => ?_ }
  change Function.update w.tasks r none r' = some task at found
  by_cases own : r' = r
  · rw [own, Function.update_self] at found
    contradiction
  · rw [Function.update_of_ne own] at found
    exact sound.tasks r' task found

theorem set_aside (w : World) (r : Nat) (row : Option AppSettings) (log : List Record)
    (session : Session) (await : Await) :
    setTask { aside w r with row := row, log := log } r session await =
      setTask { w with row := row, log := log } r session await := by
  simp only [setTask, aside, Function.update_idem]

theorem passwordOf_row (sound : Sound bcrypt w) {row : AppSettings} (found : w.row = some row) :
    passwordOf w.log = some row.passwordHash ∧ intervalOf w.log = row.syncIntervalSeconds := by
  obtain ⟨hash, password, rfl⟩ := Option.map_eq_some_iff.mp (sound.row.symm.trans found)
  exact ⟨password, rfl⟩

theorem passwordOf_empty (sound : Sound bcrypt w) (empty : w.row = none) :
    passwordOf w.log = none :=
  Option.map_eq_none_iff.mp (sound.row.symm.trans empty)

/- The only answer of a request without a login that may follow an exception. -/
theorem justified_crash {failure : Failure} (other : ∀ password, request ≠ .login password)
    (kind : failure = .interrupted ∨ failure = .valueError ∨ failure = .integrityError) :
    Justified bcrypt log r request session (.crashed failure) :=
  justified_plain (fun password asked => absurd asked (other password)) (by simpa using kind)

theorem calls_other {afterwards : Option RefreshSettings}
    (calls : Calls request session afterwards) : ∀ password, request ≠ .login password := by
  rintro password rfl
  cases afterwards with
  | none => obtain ⟨_, asked⟩ := calls; contradiction
  | some payload => obtain ⟨_, _, asked⟩ := calls; contradiction

theorem bootstrapped_sound (sound : Sound bcrypt w) (began : .began r request session ∈ w.log)
    {afterwards : Option RefreshSettings} (calls : Calls request session afterwards)
    (present : passwordOf w.log ≠ none) :
    Sound bcrypt (bootstrapped w r session afterwards) := by
  cases afterwards with
  | none =>
    refine set_sound sound began ?_ (Or.inl rfl)
    refine justified_plain (fun password asked => ?_) (by simp)
    exact absurd asked (calls_other calls password)
  | some payload => exact set_sound sound began ⟨calls, present⟩ (Or.inl rfl)

/- The row is inserted while there is none. -/
theorem insert_sound (sound : Sound bcrypt w) (empty : w.row = none) {hash : String}
    {record : Record} (fills : record = .seeded r hash ∨
      record = .reset r hash ∧ w.tasks r = none ∧ r < w.arrived) :
    Sound bcrypt (insertRow w hash record) ∧ passwordOf (record :: w.log) = some hash := by
  have nothing := passwordOf_empty sound empty
  have filled : passwordOf (record :: w.log) = some hash := by
    rcases fills with rfl | ⟨rfl, _⟩
    · exact latest_fill rfl nothing
    · exact latest_write rfl
  have interval : latest intervalEffect (record :: w.log) = none := by
    rcases fills with rfl | ⟨rfl, _⟩ <;> exact (latest_keep rfl).trans (sound.unchanged nothing)
  have row : some ⟨hash, DEFAULT_SYNC_INTERVAL_SECONDS⟩ = rowOf (record :: w.log) := by
    rw [rowOf, filled, intervalOf, interval]
    rfl
  refine ⟨write_sound sound row (fun _ => interval) ?_ ?_ ?_ (fun _ _ _ => nothing) ?_ ?_, filled⟩
  · intro seconds found
    rw [interval] at found
    contradiction
  · rcases fills with rfl | ⟨rfl, _⟩ <;> simp
  · rcases fills with rfl | ⟨rfl, _⟩ <;> simp
  · intro r' hash' same
    rcases fills with rfl | ⟨rfl, free⟩
    · contradiction
    · obtain ⟨rfl, rfl⟩ := Record.reset.inj same
      exact free
  · rcases fills with rfl | ⟨rfl, _⟩ <;> simp

theorem change_sound (sound : Sound bcrypt w) {row : AppSettings} (found : w.row = some row)
    {payload : RefreshSettings} (began : .began r request session ∈ w.log)
    (calls : Calls request session (some payload)) :
    Sound bcrypt { w with
      row := some { row with syncIntervalSeconds := payload.syncIntervalSeconds }
      log := .changed r payload.syncIntervalSeconds :: w.log } := by
  have password : passwordOf (.changed r payload.syncIntervalSeconds :: w.log) =
      some row.passwordHash := (latest_keep rfl).trans (passwordOf_row sound found).1
  have interval : latest intervalEffect (.changed r payload.syncIntervalSeconds :: w.log) =
      some payload.syncIntervalSeconds := latest_write rfl
  have same : some { row with syncIntervalSeconds := payload.syncIntervalSeconds } =
      rowOf (.changed r payload.syncIntervalSeconds :: w.log) := by
    rw [rowOf, password, intervalOf, interval]
    rfl
  refine write_sound sound same (fun none => ?_) (fun seconds valid => ?_) (by simp) (by simp)
    (by simp) (by simp) fun r' seconds same => ?_
  · rw [password] at none
    contradiction
  · rw [interval, Option.some.injEq] at valid
    rw [← valid, validate_own]
    rfl
  · obtain ⟨rfl, rfl⟩ := Record.changed.inj same
    obtain ⟨authenticated, password', rfl⟩ := calls
    exact ⟨password', session, began, authenticated⟩

theorem reset_sound (sound : Sound bcrypt w) {row : AppSettings} (found : w.row = some row)
    (hash : String) (free : w.tasks r = none ∧ r < w.arrived) :
    Sound bcrypt { w with
      row := some { row with passwordHash := hash }, log := .reset r hash :: w.log } := by
  have password : passwordOf (.reset r hash :: w.log) = some hash := latest_write rfl
  have interval : latest intervalEffect (.reset r hash :: w.log) = latest intervalEffect w.log :=
    latest_keep rfl
  have same : some { row with passwordHash := hash } = rowOf (.reset r hash :: w.log) := by
    rw [rowOf, password, intervalOf, interval, ← intervalOf, (passwordOf_row sound found).2]
    rfl
  refine write_sound sound same (fun none => ?_) (fun seconds valid => ?_) (by simp) (by simp)
    (by simp) (fun r' hash' same => ?_) (by simp)
  · rw [password] at none
    contradiction
  · exact sound.valid seconds (interval ▸ valid)
  · obtain ⟨rfl, rfl⟩ := Record.reset.inj same
    exact free

theorem authenticated_accepted (sound : Sound bcrypt w) (began : .began r request session ∈ w.log)
    (authenticated : isAuthenticated session = true) : Accepted w.log := by
  obtain ⟨newer, older, split⟩ := List.append_of_mem began
  have before := sound.sessions newer older r request session split authenticated
  rw [split, List.append_cons]
  exact before.grows _

theorem getSyncInterval_rowOf (sound : Sound bcrypt w) :
    getSyncInterval w.row = intervalOf w.log := by
  rw [sound.row, rowOf]
  cases password : passwordOf w.log with
  | none =>
    rw [intervalOf, sound.unchanged password]
    rfl
  | some hash => rfl

theorem interval_validates (sound : Sound bcrypt w) :
    ∃ settings, RefreshSettings.validate (getSyncInterval w.row) = some settings := by
  rw [getSyncInterval_rowOf sound, intervalOf]
  cases interval : latest intervalEffect w.log with
  | none => exact ⟨_, rfl⟩
  | some seconds => exact Option.isSome_iff_exists.mp (sound.valid seconds interval)

/- The answer of `update_settings` once its value was stored at some moment. -/
theorem justified_update {payload : RefreshSettings} (calls : Calls request session (some payload))
    (moment : Moment log r request session fun row =>
      getSyncInterval row = payload.syncIntervalSeconds) :
    Justified bcrypt log r request session (.settings payload) where
  login password asked := absurd asked (calls_other calls password)
  updated := by simp
  settings settings same := by
    obtain rfl := Answer.settings.inj same
    exact ⟨calls.1, Or.inr calls.2, moment⟩
  accepted := by simp
  passed := by simp
  failure := by simp

theorem justified_reset {stdin : Stdin} {password salt hash : String}
    (read : readNewPassword stdin = .ok password) (hashed : bcrypt.hashpw password salt = some hash)
    (alone : ∀ own, .reset r own ∈ log → own = hash)
    (moment : Moment log r (.resetPassword stdin) session fun row =>
      row.map AppSettings.passwordHash = some hash) :
    Justified bcrypt log r (.resetPassword stdin) session .passwordUpdated where
  login := by simp
  updated _ := ⟨stdin, password, salt, hash, rfl, read, hashed, alone, moment⟩
  settings := by simp
  accepted := by simp
  passed := by simp
  failure := by simp

theorem justified_login {password : String}
    (moment : Moment log r (.login password) session fun row =>
      row = w.row) :
    Justified bcrypt log r (.login password) session
      (verdict (verifyAppPassword bcrypt w.row password)) where
  login password' asked := by
    obtain rfl := Request.login.inj asked
    exact Or.inr (Since.mono moment fun older same => by rw [same])
  updated same := by
    unfold verdict at same
    split at same <;> contradiction
  settings settings same := by
    unfold verdict at same
    split at same <;> contradiction
  accepted _ := Or.inr ⟨password, rfl⟩
  passed same := by
    unfold verdict at same
    split at same <;> contradiction
  failure failure same := by
    unfold verdict at same
    split at same
    · exact Or.inr (Or.inl (Answer.crashed.inj same).symm)
    · contradiction
    · contradiction

theorem proceed_sound (sound : Sound bcrypt w) {task : Task} (found : w.tasks r = some task)
    (salt : String) : Sound bcrypt (proceed bcrypt w r salt task.session task.await) := by
  obtain ⟨request, session, began, fits, keeps⟩ := sound.tasks r task found
  obtain ⟨await, session'⟩ := task
  have crash : ∀ failure : Failure, (∀ password, request ≠ .login password) →
      session' = session →
      (failure = .interrupted ∨ failure = .valueError ∨ failure = .integrityError) →
      Sound bcrypt (setTask w r session' (.returning (.crashed failure))) :=
    fun failure other own kind =>
      set_sound sound began (justified_crash other kind) (Or.inl own)
  have own : (∀ a, await ≠ .returning a) → session' = session := by
    intro running
    exact keeps.resolve_right fun accepted => running _ accepted.1
  cases await with
  | bootstrapping password afterwards =>
    obtain rfl := own (by simp)
    simp only [proceed]
    split
    · rename_i row present
      refine bootstrapped_sound sound began fits ?_
      rw [(passwordOf_row sound present).1]
      exact Option.some_ne_none _
    · split
      · exact crash _ (calls_other fits) rfl (Or.inr (Or.inl rfl))
      · exact set_sound sound began fits (Or.inl rfl)
  | seeding hash afterwards =>
    obtain rfl := own (by simp)
    simp only [proceed]
    split
    · exact crash _ (calls_other fits) rfl (Or.inr (Or.inr rfl))
    · rename_i empty
      obtain ⟨inserted, filled⟩ := insert_sound sound empty (Or.inl rfl)
      refine bootstrapped_sound inserted (List.mem_cons_of_mem _ began) fits ?_
      exact fun none => Option.some_ne_none _ (filled.symm.trans none)
  | loading payload =>
    obtain rfl := own (by simp)
    simp only [proceed]
    split
    · rename_i empty
      exact absurd (passwordOf_empty sound empty) fits.2
    · rename_i row present
      refine set_sound sound began ⟨fits.1, fits.2, moment_now began ?_⟩ (Or.inl rfl)
      rw [← sound.row, present]
      rfl
  | saving loaded payload =>
    obtain rfl := own (by simp)
    simp only [proceed]
    split
    · rename_i same
      exact set_sound sound began (justified_update fits.1 (same ▸ fits.2.2)) (Or.inl rfl)
    · split
      · rename_i empty
        exact absurd (passwordOf_empty sound empty) fits.2.1
      · rename_i row present
        have changed := change_sound sound present began fits.1
        refine set_sound changed (List.mem_cons_of_mem _ began) ?_ (Or.inl rfl)
        refine justified_update fits.1 (moment_now (List.mem_cons_of_mem _ began) ?_)
        rw [← changed.row]
        rfl
  | resetting password =>
    obtain rfl := own (by simp)
    obtain ⟨⟨stdin, rfl, read⟩, fresh⟩ := fits
    simp only [proceed]
    split
    · exact crash _ (by simp) rfl (Or.inr (Or.inl rfl))
    · rename_i hash hashed
      refine set_sound sound began ?_ (Or.inl rfl)
      refine ⟨stdin, password, salt, rfl, read, hashed, fresh, fun old loaded => ?_⟩
      obtain ⟨row, present, rfl⟩ := Option.map_eq_some_iff.mp loaded
      refine ⟨?_, moment_now began (by rw [← sound.row, present]; rfl)⟩
      rw [(passwordOf_row sound present).1]
      exact Option.some_ne_none _
  | storing loaded hash =>
    obtain rfl := own (by simp)
    obtain ⟨stdin, password, salt', rfl, read, hashed, fresh, before⟩ := fits
    have free : (aside w r).tasks r = none ∧ r < (aside w r).arrived :=
      ⟨Function.update_self .., sound.young r _ _ began⟩
    -- the reset is recorded with its own task set aside
    have stored : ∀ row, Sound bcrypt { aside w r with row := row, log := .reset r hash :: w.log } →
        row.map AppSettings.passwordHash = some hash →
        Sound bcrypt (setTask { w with row := row, log := .reset r hash :: w.log } r session'
          (.returning .passwordUpdated)) := by
      intro row written same
      rw [← set_aside]
      refine set_sound written (List.mem_cons_of_mem _ began) ?_ (Or.inl rfl)
      refine justified_reset read hashed (fun own mem => ?_)
        (moment_now (List.mem_cons_of_mem _ began) ?_)
      · exact (Record.reset.inj ((List.mem_cons.mp mem).resolve_right (fresh own))).2
      · exact (congrArg _ written.row).symm.trans same
    cases loaded with
    | none =>
      simp only [proceed]
      split
      · exact crash _ (by simp) rfl (Or.inr (Or.inr rfl))
      · rename_i empty
        exact stored _ (insert_sound (aside_sound sound r) empty (Or.inr ⟨rfl, free⟩)).1 rfl
    | some old =>
      obtain ⟨stays, moment⟩ := before old rfl
      simp only [proceed]
      split
      · rename_i same
        refine set_sound sound began ?_ (Or.inl rfl)
        exact justified_reset read hashed (fun own mem => absurd mem (fresh own)) (same ▸ moment)
      · split
        · rename_i empty
          exact absurd (passwordOf_empty sound empty) stays
        · rename_i row present
          exact stored _ (reset_sound (aside_sound sound r) present hash free) rfl
  | checking password =>
    obtain rfl := own (by simp)
    obtain rfl : request = .login password := fits
    refine set_sound sound began (justified_login (moment_now began sound.row.symm)) ?_
    by_cases accepted : verifyAppPassword bcrypt w.row password = some true
    · exact Or.inr ⟨by rw [accepted]; rfl, password, rfl⟩
    · exact Or.inl (if_neg accepted)
  | reading =>
    obtain rfl := own (by simp)
    obtain ⟨rfl, authenticated⟩ := fits
    obtain ⟨settings, valid⟩ := interval_validates sound
    simp only [proceed, valid]
    refine set_sound sound began ?_ (Or.inl rfl)
    refine ⟨by simp, by simp, fun settings' same => ?_, by simp, by simp, by simp⟩
    obtain rfl := Answer.settings.inj same
    refine ⟨authenticated, Or.inl rfl, moment_now began ?_⟩
    rw [← sound.row, validate_sound valid]
  | returning a =>
    refine answer_sound sound began fits fun authenticated => ?_
    rcases keeps with same | ⟨accepted, password, asked⟩
    · rw [show session' = session from same] at authenticated
      exact (authenticated_accepted sound began authenticated).grows [_]
    · obtain rfl := Await.returning.inj accepted
      exact ⟨r, password, session, List.mem_cons_of_mem _ (asked ▸ began), List.mem_cons_self⟩

theorem next_sound {l : Label} (sound : Sound bcrypt w) (step : next bcrypt w l = some w') :
    Sound bcrypt w' := by
  cases l with
  | receive cookie request =>
    rw [next, Option.some.injEq] at step
    exact step ▸ receive_sound sound cookie request
  | proceed r salt =>
    obtain ⟨task, found, rfl⟩ := Option.map_eq_some_iff.mp step
    exact proceed_sound sound found salt
  | fail r =>
    obtain ⟨task, found, rfl⟩ := Option.map_eq_some_iff.mp step
    obtain ⟨request, session, began, _⟩ := sound.tasks r task found
    exact answered_sound sound began (justified_plain (fun _ _ => rfl) (by simp))

theorem initial_sound : Sound bcrypt World.initial where
  row := rfl
  unchanged _ := rfl
  valid seconds found := by contradiction
  young r request session mem := by contradiction
  author r hash mem := by contradiction
  once newer older r request session split := by simp [World.initial] at split
  tasks r task found := by contradiction
  answers newer older r a split := by simp [World.initial] at split
  seeds newer older r hash split := by simp [World.initial] at split
  changes r seconds mem := by contradiction
  cookies i authenticated := by contradiction
  sessions newer older r request session split := by simp [World.initial] at split

theorem run_sound {labels : List Label} (run : replay (next bcrypt) .initial labels = some w) :
    Sound bcrypt w :=
  replay_invariant (Sound bcrypt) initial_sound (fun _ _ _ sound step => next_sound sound step) run

end Steps

/- A request arrives once. -/
theorem began_unique (sound : Sound bcrypt w) {request' : Request} {session' : Session}
    (first : .began r request session ∈ w.log) (second : .began r request' session' ∈ w.log) :
    request' = request ∧ session' = session := by
  obtain ⟨newer, older, split⟩ := List.append_of_mem first
  rw [split] at second
  rcases List.mem_append.mp second with recent | here
  · obtain ⟨later, between, rfl⟩ := List.append_of_mem recent
    have again : w.log =
        later ++ .began r request' session' :: (between ++ .began r request session :: older) := by
      rw [split, List.append_assoc, List.cons_append]
    exact absurd (List.mem_append_right _ List.mem_cons_self)
      (sound.once later _ r request' session' again request session)
  · rcases List.mem_cons.mp here with same | old
    · obtain ⟨_, rfl, rfl⟩ := Record.began.inj same
      exact ⟨rfl, rfl⟩
    · exact absurd old (sound.once newer older r request session split request' session')

theorem answer_justified (sound : Sound bcrypt w) {newer later older : List Record} {a : Answer}
    (split : w.log = newer ++ .answered r a :: (later ++ .began r request session :: older)) :
    Justified bcrypt (later ++ .began r request session :: older) r request session a := by
  obtain ⟨request', session', began, justified⟩ := sound.answers newer _ r a split
  have all : ∀ x ∈ later ++ .began r request session :: older, x ∈ w.log := fun x mem =>
    split ▸ List.mem_append_right _ (List.mem_cons_of_mem _ mem)
  obtain ⟨rfl, rfl⟩ := began_unique sound
    (all _ (List.mem_append_right _ List.mem_cons_self)) (all _ began)
  exact justified

/- A password that is stored stays so while nobody resets it to another one. -/
theorem password_stays {hash : String} (quiet : ∀ r other, .reset r other ∈ newer → other = hash)
    {e : Record} (mem : e ∈ newer) (log : List Record) (found : passwordOf log = some hash) :
    passwordOf (e :: log) = some hash := by
  refine latest_stays (fun u writes => ?_) found
  cases e with
  | reset r other =>
    obtain rfl := Effect.write.inj writes
    exact quiet r _ mem
  | _ => contradiction

theorem password_kept {hash : String} (quiet : ∀ r other, .reset r other ∉ newer)
    (found : passwordOf log = some hash) : passwordOf (newer ++ log) = some hash :=
  kept_through (P := fun log => passwordOf log = some hash)
    (fun _ mem => password_stays (fun r other own => absurd own (quiet r other)) mem) found

theorem verify_stored {past : List Record} {hash : String} (stored : passwordOf past = some hash)
    (password : String) :
    verifyAppPassword bcrypt (rowOf past) password = bcrypt.checkpw password hash := by
  rw [rowOf, stored]
  rfl

/- A reset that is answered has its hash stored, if no other reset came in between. -/
theorem reset_stored (sound : Sound bcrypt w) {newer since older : List Record} {stdin : Stdin}
    (split : w.log = newer ++ .answered r .passwordUpdated ::
      (since ++ .began r (.resetPassword stdin) session :: older))
    (alone : ∀ x hash, .reset x hash ∈ since → x = r) :
    ∃ password salt hash, readNewPassword stdin = .ok password ∧
      bcrypt.hashpw password salt = some hash ∧
      passwordOf (since ++ .began r (.resetPassword stdin) session :: older) = some hash := by
  obtain ⟨stdin', password, salt, hash, asked, read, hashed, own, moment⟩ :=
    (answer_justified sound split).updated rfl
  obtain rfl := Request.resetPassword.inj asked
  refine ⟨password, salt, hash, read, hashed, ?_⟩
  have once := sound.once (newer ++ .answered r .passwordUpdated :: since) older r
    (.resetPassword stdin) session (by rw [split, List.append_assoc, List.cons_append])
  refine since_settled (P := fun log => passwordOf log = some hash) (once _ _) (fun e mem log =>
    password_stays (fun x other reset => ?_) mem log) (moment.mono fun past stored => ?_)
  · obtain rfl := alone x other reset
    exact own other (List.mem_append_left _ reset)
  · rw [rowOf, Option.map_map] at stored
    obtain ⟨found, password, rfl⟩ := Option.map_eq_some_iff.mp stored
    exact password

/-- In every run, whatever starts of the server and requests there are meanwhile: once a reset
has been answered, and while no other reset takes effect, the logins that arrive are checked
against the new password. -/
theorem reset_decides_logins {labels : List Label}
    (run : replay (next bcrypt) .initial labels = some w)
    {newest later between since older : List Record} {r r' : Nat} {stdin : Stdin}
    {session session' : Session} {attempt : String} {a : Answer}
    (split : w.log = newest ++ .answered r' a :: (later ++ .began r' (.login attempt) session' ::
      (between ++ .answered r .passwordUpdated ::
        (since ++ .began r (.resetPassword stdin) session :: older))))
    (quiet : ∀ x hash, .reset x hash ∉ later ++ between)
    (alone : ∀ x hash, .reset x hash ∈ since → x = r) :
    ∃ password salt hash, readNewPassword stdin = .ok password ∧
      bcrypt.hashpw password salt = some hash ∧
      (a = .crashed .interrupted ∨ a = verdict (bcrypt.checkpw attempt hash)) := by
  have sound := run_sound run
  have resetting := split
  rw [List.append_cons, ← List.append_assoc, List.append_cons, ← List.append_assoc] at resetting
  obtain ⟨password, salt, hash, read, hashed, stored⟩ := reset_stored sound resetting alone
  refine ⟨password, salt, hash, read, hashed, ?_⟩
  refine ((answer_justified sound split).login attempt rfl).imp_right fun checked => ?_
  rw [List.append_cons, ← List.append_assoc] at split
  have once := sound.once _ _ r' (.login attempt) session' split
  obtain ⟨recent, part, rfl, here⟩ := since_split (once _ _) checked
  rw [here, verify_stored]
  refine password_kept (fun x other reset => quiet x other ?_) ((latest_keep rfl).trans ?_)
  · exact List.mem_append_left _ (List.mem_append_right _ reset)
  · refine password_kept (fun x other reset => quiet x other ?_) ((latest_keep rfl).trans stored)
    exact List.mem_append_right _ reset

/- A hash that shows its salt of one character and the password. -/
def shownHash : Bcrypt where
  hashpw password salt := some (salt ++ password)
  checkpw password hash := some (hash.toList.drop 1 = password.toList)

/- The server is started again with another password in its environment. -/
def resetAndRestart : List Label :=
  [.receive none (.lifespan "first"), .proceed 0 "a", .proceed 0 "", .proceed 0 "",
    .receive none (.resetPassword (.piped "new\n")), .proceed 1 "b",
    .receive none (.lifespan "other"), .proceed 2 "", .proceed 1 "", .proceed 1 "",
    .proceed 2 "", .receive none (.login "new"), .proceed 3 "", .proceed 3 ""]

theorem reset_decides_logins_restart : ∃ w r r' a password salt hash,
    replay (next shownHash) .initial resetAndRestart = some w ∧
    w.log.head? = some (.answered r' a) ∧ .answered r .passwordUpdated ∈ w.log ∧
    readNewPassword (.piped "new\n") = .ok password ∧
    shownHash.hashpw password salt = some hash ∧
    (a = .crashed .interrupted ∨ a = verdict (shownHash.checkpw "new" hash)) := by
  have run : ∃ w, replay (next shownHash) .initial resetAndRestart = some w ∧ w.log =
      [] ++ .answered 3 (.authStatus true) :: ([] ++ .began 3 (.login "new") none ::
        ([.answered 2 .started] ++ .answered 1 .passwordUpdated ::
          ([.reset 1 "bnew", .began 2 (.lifespan "other") none] ++
            .began 1 (.resetPassword (.piped "new\n")) none ::
              [.answered 0 .started, .seeded 0 "afirst", .began 0 (.lifespan "first") none]))) :=
    ⟨_, rfl, rfl⟩
  obtain ⟨w, run, split⟩ := run
  obtain ⟨password, salt, hash, read, hashed, checked⟩ :=
    reset_decides_logins run split (by simp) (by simp)
  refine ⟨w, 1, 3, _, password, salt, hash, run, ?_, ?_, read, hashed, checked⟩
  · rw [split]
    rfl
  · rw [split]
    simp

theorem verdict_accepts {result : Option Bool} (accepted : .authStatus true = verdict result) :
    result = some true := by
  unfold verdict at accepted
  split at accepted
  · contradiction
  · rfl
  · contradiction

/-- In every run the row is what the last reset, or else the first start, and the last change
of the interval have left, and the interval passes its check. No request finds the row missing
or its value invalid, and the settings that it answers were stored while it ran. -/
theorem settings_are_in_force {labels : List Label}
    (run : replay (next bcrypt) .initial labels = some w) :
    w.row = rowOf w.log ∧
    (∃ settings, RefreshSettings.validate (getSyncInterval w.row) = some settings) ∧
    (∀ newer older r failure, w.log = newer ++ .answered r (.crashed failure) :: older →
      failure = .interrupted ∨ failure = .valueError ∨ failure = .integrityError) ∧
    ∀ newer older r settings, w.log = newer ++ .answered r (.settings settings) :: older →
      ∃ request session, (request = .getSettings ∨
        ∃ appPassword, request = .updateSettings appPassword settings.syncIntervalSeconds) ∧
        Moment older r request session fun row =>
          getSyncInterval row = settings.syncIntervalSeconds := by
  have sound := run_sound run
  refine ⟨sound.row, interval_validates sound, ?_, ?_⟩
  · intro newer older r failure split
    obtain ⟨request, session, _, justified⟩ := sound.answers newer older r _ split
    exact justified.failure failure rfl
  · intro newer older r settings split
    obtain ⟨request, session, _, justified⟩ := sound.answers newer older r _ split
    exact ⟨request, session, (justified.settings settings rfl).2⟩

/- A reset goes on while a request changes the interval. -/
def resetAndChange : List Label :=
  [.receive none (.lifespan "first"), .proceed 0 "a", .proceed 0 "", .proceed 0 "",
    .receive none (.login "first"), .proceed 1 "", .proceed 1 "",
    .receive (some 0) (.updateSettings "first" 1800), .proceed 2 "", .proceed 2 "",
    .receive none (.resetPassword (.piped "new\n")), .proceed 3 "b", .proceed 2 "",
    .proceed 3 "", .proceed 3 "", .proceed 2 ""]

theorem settings_are_in_force_change : ∃ (w : World) (older : List Record)
    (settings : RefreshSettings), replay (next shownHash) .initial resetAndChange = some w ∧
    w.row = some ⟨"bnew", 1800⟩ ∧ w.log = .answered 2 (.settings settings) :: older ∧
    ∃ request session, (request = .getSettings ∨
      ∃ appPassword, request = .updateSettings appPassword settings.syncIntervalSeconds) ∧
      Moment older 2 request session fun row =>
        getSyncInterval row = settings.syncIntervalSeconds := by
  have run : ∃ w older, replay (next shownHash) .initial resetAndChange = some w ∧
      w.row = some ⟨"bnew", 1800⟩ ∧ w.log = [] ++
        .answered 2 (.settings ⟨1800, by decide, by decide, by decide⟩) :: older :=
    ⟨_, _, rfl, rfl, rfl⟩
  obtain ⟨w, older, run, row, split⟩ := run
  exact ⟨w, older, _, run, row, split, (settings_are_in_force run).2.2.2 _ _ _ _ split⟩

/-- In every run only those who were let in reach the settings and the other endpoints: a
request with an authenticated session comes after a login whose password matched the hash that
was stored while it was checked, and every change of the interval is such a request. -/
theorem access_follows_a_login {labels : List Label}
    (run : replay (next bcrypt) .initial labels = some w) :
    (∀ newer older r request session, w.log = newer ++ .began r request session :: older →
      isAuthenticated session = true →
      ∃ r' password session', .answered r' (.authStatus true) ∈ older ∧
        Moment older r' (.login password) session' fun row =>
          verifyAppPassword bcrypt row password = some true) ∧
    (∀ newer older r a, w.log = newer ++ .answered r a :: older →
      (a = .passed ∨ ∃ settings, a = .settings settings) →
      ∃ request session, .began r request session ∈ older ∧ isAuthenticated session = true) ∧
    ∀ r seconds, .changed r seconds ∈ w.log → ∃ appPassword session,
      .began r (.updateSettings appPassword seconds) session ∈ w.log ∧
        isAuthenticated session = true := by
  have sound := run_sound run
  refine ⟨?_, ?_, sound.changes⟩
  · intro newer older r request session split authenticated
    obtain ⟨r', password, session', began, answered⟩ :=
      sound.sessions newer older r request session split authenticated
    refine ⟨r', password, session', answered, ?_⟩
    obtain ⟨recent, past, rfl⟩ := List.append_of_mem answered
    have whole : w.log = (newer ++ .began r request session :: recent) ++
        .answered r' (.authStatus true) :: past := by
      rw [split, List.append_assoc, List.cons_append]
    obtain ⟨request', session'', began', justified⟩ := sound.answers _ past r' _ whole
    obtain ⟨rfl, rfl⟩ := began_unique sound
      (whole ▸ List.mem_append_right _ (List.mem_cons_of_mem _ began'))
      (split ▸ List.mem_append_right _ (List.mem_cons_of_mem _ began))
    rcases justified.login password rfl with crashed | moment
    · contradiction
    · rw [List.append_cons]
      exact (moment.mono fun row accepted => verdict_accepts accepted).grows _
  · intro newer older r a split kind
    obtain ⟨request, session, began, justified⟩ := sound.answers newer older r a split
    refine ⟨request, session, began, ?_⟩
    rcases kind with passed | ⟨settings, same⟩
    · exact justified.passed passed
    · exact (justified.settings settings same).1

theorem access_follows_a_login_change : ∃ (w : World) (newer older : List Record),
    replay (next shownHash) .initial resetAndChange = some w ∧
    w.log = newer ++ .began 2 (.updateSettings "first" 1800) (some true) :: older ∧
    ∃ r' password session', .answered r' (.authStatus true) ∈ older ∧
      Moment older r' (.login password) session' fun row =>
        verifyAppPassword shownHash row password = some true := by
  have run : ∃ w newer older, replay (next shownHash) .initial resetAndChange = some w ∧
      w.log = newer ++ .began 2 (.updateSettings "first" 1800) (some true) :: older :=
    ⟨_, [.answered 2 (.settings ⟨1800, by decide, by decide, by decide⟩),
      .answered 3 .passwordUpdated, .reset 3 "bnew", .changed 2 1800,
      .began 3 (.resetPassword (.piped "new\n")) none], _, rfl, rfl⟩
  obtain ⟨w, newer, older, run, split⟩ := run
  exact ⟨w, newer, older, run, split, (access_follows_a_login run).1 _ _ _ _ _ split rfl⟩

end InboxAppSettings
