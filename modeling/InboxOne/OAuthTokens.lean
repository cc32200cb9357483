import InboxOne.LabelledRuns
import InboxOne.ReadModifyWrite

/-!
The Microsoft token cache of one account, stored as a whole in one column. Every session
that needs a token works on the account row it has loaded; between the load, the answer of
the token endpoint and the commit, other sessions and a reconnect may commit.
-/
namespace InboxOAuthTokens
open LabelledRuns ReadModifyWrite

/-- `IMAP_SCOPE` and `GRAPH_SCOPE`. -/
inductive Resource where
  | imap
  | graph
  deriving DecidableEq, Repr

/-- A deserialized token cache: the signed-in account and the grant of each resource. -/
structure TokenCache (G : Type*) where
  account : Option String
  imap : Option G
  graph : Option G
  deriving DecidableEq, Repr

variable {G : Type*}

def TokenCache.grant (cache : TokenCache G) : Resource → Option G
  | .imap => cache.imap
  | .graph => cache.graph

def TokenCache.renew (cache : TokenCache G) (grant : G) : Resource → TokenCache G
  | .imap => { cache with imap := some grant }
  | .graph => { cache with graph := some grant }

theorem renew_frame (cache : TokenCache G) (grant : G) {scope k : Resource} (other : k ≠ scope) :
    (cache.renew grant scope).grant k = cache.grant k := by
  cases scope <;> cases k <;> first | rfl | exact absurd rfl other

/-- The grant of a resource in the stored column. -/
def storedGrant (column : Option (TokenCache G)) (scope : Resource) : Option G :=
  column.bind fun cache => cache.grant scope

/-- What `acquire_token_silent` does: it finds a token in the cache, or renews the grant of
    the resource it was asked for, or gives no token. -/
inductive Silent (G : Type*) where
  | cached
  | renews (grant : G)
  | fails (description : String)
  deriving DecidableEq, Repr

/-- The new cache, or `none` when the cache has not changed. -/
def getAccessToken (cacheJson : Option (TokenCache G)) (scope : Resource) (silent : Silent G) :
    Except String (Option (TokenCache G)) :=
  match cacheJson.bind fun cache => cache.account.map fun _ => cache with
  | none => .error "No cached Microsoft account - account needs to be re-linked"
  | some cache =>
      match silent with
      | .cached => .ok none
      | .renews grant => .ok (some (cache.renew grant scope))
      | .fails description => .error ("Failed to refresh Microsoft token: " ++ description)

inductive Caller where
  | syncAccount
  | watcher
  | refreshLoop
  | request
  deriving DecidableEq, Repr

/-- The callers that hold the lock of the account while they use its row. -/
def Caller.locks : Caller → Bool
  | .request => false
  | _ => true

inductive Pc (G : Type*) where
  | ready
  | acquiring (scope : Resource)
  | acquired (scope : Resource) (newCache : Option (TokenCache G))
  deriving DecidableEq, Repr

/-- A database session. `row` is the column as this session has loaded or written it, and
    `seen` the number of commits of that moment. -/
structure Session (G : Type*) where
  row : Version (Option (TokenCache G))
  seen : Nat
  pc : Pc G
  deriving DecidableEq, Repr

structure World (G : Type*) where
  column : Version (Option (TokenCache G))
  commits : List (Commit (Option (TokenCache G)) Resource)
  lock : Option Nat
  sessions : Nat → Option (Session G)

def World.initial (start : Option (TokenCache G)) : World G := ⟨⟨start, 0⟩, [], none, fun _ => none⟩

inductive Label (G : Type*) where
  | load (session : Nat) (caller : Caller)
  | refresh (session : Nat)
  | acquire (session : Nat) (scope : Resource)
  | answer (session : Nat) (silent : Silent G)
  | persist (session : Nat)
  | close (session : Nat)
  | reconnect (cache : Option (TokenCache G))
  deriving DecidableEq, Repr

def World.read (w : World G) : Session G := ⟨w.column, w.commits.length, .ready⟩

def setSession (w : World G) (session : Nat) (s : Session G) : World G :=
  { w with sessions := Function.update w.sessions session (some s) }

/- The commit of a new cache from this session: the whole column is overwritten. -/
def storeCache (w : World G) (session : Nat) (s : Session G) (scope : Resource)
    (newCache : TokenCache G) : World G :=
  let column : Version (Option (TokenCache G)) := ⟨some newCache, s.row.origin⟩
  { w with
    column := column
    commits := .write scope (some newCache) :: w.commits
    sessions := Function.update w.sessions session (some ⟨column, w.commits.length + 1, .ready⟩) }

variable [DecidableEq G]

/-- `_persist_new_token_cache`. The column is written when its value differs from the one
    this session knows. -/
def persistNewTokenCache (w : World G) (session : Nat) (s : Session G) (scope : Resource) :
    Option (TokenCache G) → World G
  | none => setSession w session { s with pc := .ready }
  | some newCache =>
      if s.row.record = some newCache then setSession w session { s with pc := .ready }
      else storeCache w session s scope newCache

def next (w : World G) : Label G → Option (World G)
  | .load session caller =>
      match w.sessions session with
      | some _ => none
      | none =>
          if caller.locks then
            if w.lock = none then some (setSession { w with lock := some session } session w.read)
            else none
          else some (setSession w session w.read)
  | .refresh session =>
      match w.sessions session with
      | some ⟨_, _, .ready⟩ => some (setSession w session w.read)
      | _ => none
  | .acquire session scope =>
      match w.sessions session with
      | some ⟨row, seen, .ready⟩ => some (setSession w session ⟨row, seen, .acquiring scope⟩)
      | _ => none
  | .answer session silent =>
      match w.sessions session with
      | some ⟨row, seen, .acquiring scope⟩ =>
          match getAccessToken row.record scope silent with
          | .ok newCache => some (setSession w session ⟨row, seen, .acquired scope newCache⟩)
          | .error _ => some (setSession w session ⟨row, seen, .ready⟩)
      | _ => none
  | .persist session =>
      match w.sessions session with
      | some ⟨row, seen, .acquired scope newCache⟩ =>
          some (persistNewTokenCache w session ⟨row, seen, .acquired scope newCache⟩ scope newCache)
      | _ => none
  -- the end of a session, whether its work is done or an exception leaves it
  | .close session =>
      match w.sessions session with
      | some _ =>
          some { w with
            lock := if w.lock = some session then none else w.lock
            sessions := Function.update w.sessions session none }
      | none => none
  -- `poll`, which stores the cache of a completed sign-in
  | .reconnect cache =>
      some { w with
        column := ⟨cache, replacements w.commits + 1⟩
        commits := .replace cache :: w.commits }

/-- What an acquisition is about to write. -/
def pendingWrite : Session G → Option (Resource × TokenCache G)
  | ⟨row, _, .acquired scope (some newCache)⟩ =>
      if row.record = some newCache then none else some (scope, newCache)
  | _ => none

/-- When an acquisition writes its cache, nothing but grants of the same resource was
    committed since its session knows the column. -/
def ownResourceOnly (w : World G) : Label G → Bool
  | .persist session =>
      ((w.sessions session).bind fun s => (pendingWrite s).map fun write =>
        undisturbed write.1 s.seen w.commits).getD true
  | _ => true

/-- A session's row is a copy of the column, and an acquired cache differs from it in the
    grant of its resource only. -/
structure Genuine (start : Option (TokenCache G))
    (commits : List (Commit (Option (TokenCache G)) Resource)) (s : Session G) : Prop where
  copied : Copied storedGrant start commits s.seen s.row
  own : ∀ scope newCache, s.pc = .acquired scope (some newCache) →
    ∀ k, k ≠ scope → newCache.grant k = storedGrant s.row.record k

structure Sound (start : Option (TokenCache G)) (w : World G) : Prop where
  current : Current storedGrant start w.commits w.column
  genuine : ∀ session s, w.sessions session = some s → Genuine start w.commits s

omit [DecidableEq G] in
theorem get_access_token_own {cacheJson : Option (TokenCache G)} {scope : Resource}
    {silent : Silent G} {newCache : TokenCache G}
    (acquired : getAccessToken cacheJson scope silent = .ok (some newCache)) {k : Resource}
    (other : k ≠ scope) : newCache.grant k = storedGrant cacheJson k := by
  unfold getAccessToken at acquired
  split at acquired
  · contradiction
  · rename_i cache found
    have same : cacheJson = some cache := by
      obtain ⟨c, stored, signedIn⟩ := Option.bind_eq_some_iff.mp found
      obtain ⟨_, _, eq⟩ := Option.map_eq_some_iff.mp signedIn
      rw [stored, eq]
    cases silent with
    | cached => cases acquired
    | renews grant =>
      cases acquired
      rw [same]
      exact renew_frame cache grant other
    | fails description => cases acquired

omit [DecidableEq G] in
theorem genuine_grows {start : Option (TokenCache G)}
    {commits : List (Commit (Option (TokenCache G)) Resource)} {s : Session G}
    (genuine : Genuine start commits s) (commit : Commit (Option (TokenCache G)) Resource) :
    Genuine start (commit :: commits) s :=
  ⟨copied_grows genuine.copied commit, genuine.own⟩

omit [DecidableEq G] in
theorem sound_read {start : Option (TokenCache G)} {w : World G} (sound : Sound start w) :
    Genuine start w.commits w.read := by
  constructor
  · exact current_copied sound.current
  · intro scope newCache acquired
    cases acquired

omit [DecidableEq G] in
/- A step that rewrites one session and commits nothing. -/
theorem sound_session {start : Option (TokenCache G)} {w : World G} (sound : Sound start w)
    {session : Nat} {s : Session G} (genuine : Genuine start w.commits s) :
    Sound start (setSession w session s) := by
  constructor
  · exact sound.current
  · intro other t found
    rcases written_cell found with ⟨_, eq⟩ | ⟨_, before⟩
    · exact eq ▸ genuine
    · exact sound.genuine other t before

omit [DecidableEq G] in
theorem sound_lock {start : Option (TokenCache G)} {w : World G} (sound : Sound start w)
    (lock : Option Nat) : Sound start { w with lock := lock } :=
  ⟨sound.current, sound.genuine⟩

omit [DecidableEq G] in
/- A session that has not acquired a cache has nothing to show for it. -/
theorem genuine_idle {start : Option (TokenCache G)}
    {commits : List (Commit (Option (TokenCache G)) Resource)}
    {row : Version (Option (TokenCache G))} {seen : Nat} {pc pc' : Pc G}
    (genuine : Genuine start commits ⟨row, seen, pc⟩)
    (idle : ∀ scope newCache, pc' ≠ .acquired scope (some newCache)) :
    Genuine start commits ⟨row, seen, pc'⟩ :=
  ⟨genuine.copied, fun scope newCache acquired => absurd acquired (idle scope newCache)⟩

omit [DecidableEq G] in
theorem sound_store {start : Option (TokenCache G)} {w : World G} (sound : Sound start w)
    {session : Nat} {s : Session G} (genuine : Genuine start w.commits s) {scope : Resource}
    {newCache : TokenCache G} (acquired : s.pc = .acquired scope (some newCache))
    (alone : undisturbed scope s.seen w.commits = true) :
    Sound start (storeCache w session s scope newCache) := by
  have written : Current storedGrant start (.write scope (some newCache) :: w.commits)
      ⟨some newCache, s.row.origin⟩ :=
    current_write genuine.copied alone fun k other => genuine.own scope newCache acquired k other
  constructor
  · exact written
  · intro other t found
    rcases written_cell found with ⟨_, eq⟩ | ⟨_, before⟩
    · subst eq
      constructor
      · exact current_copied written
      · intro scope' newCache' acquired'
        cases acquired'
    · exact genuine_grows (sound.genuine other t before) _

theorem next_sound {start : Option (TokenCache G)} {w w' : World G} {l : Label G}
    (sound : Sound start w) (step : restrict ownResourceOnly next w l = some w') :
    Sound start w' := by
  obtain ⟨allowed, step⟩ := restrict_step step
  cases l with
  | load session caller =>
    have read := sound_read sound
    simp only [next] at step
    split at step
    · contradiction
    split at step
    · split at step
      · cases step
        exact sound_session (sound_lock sound (some session)) read
      · contradiction
    · cases step
      exact sound_session sound read
  | refresh session =>
    simp only [next] at step
    split at step
    · cases step
      exact sound_session sound (sound_read sound)
    · contradiction
  | acquire session scope =>
    simp only [next] at step
    split at step
    · rename_i row seen found
      cases step
      apply sound_session sound
      apply genuine_idle (sound.genuine session _ found)
      intro scope newCache acquired
      contradiction
    · contradiction
  | answer session silent =>
    simp only [next] at step
    split at step
    · rename_i row seen scope found
      have genuine := sound.genuine session _ found
      split at step
      · rename_i newCache answer
        cases step
        apply sound_session sound
        refine ⟨genuine.copied, ?_⟩
        intro scope' newCache' acquired k other
        cases acquired
        exact get_access_token_own answer other
      · cases step
        apply sound_session sound
        apply genuine_idle genuine
        intro scope newCache acquired
        contradiction
    · contradiction
  | persist session =>
    simp only [next] at step
    split at step
    · rename_i row seen scope newCache found
      cases step
      have genuine := sound.genuine session _ found
      have waiting : Genuine start w.commits ⟨row, seen, .ready⟩ := by
        apply genuine_idle genuine
        intro scope newCache acquired
        contradiction
      cases newCache with
      | none => exact sound_session sound waiting
      | some newCache =>
        by_cases same : row.record = some newCache
        · simp only [persistNewTokenCache, if_pos same]
          exact sound_session sound waiting
        · simp only [persistNewTokenCache, if_neg same]
          apply sound_store sound genuine rfl
          simpa [ownResourceOnly, found, pendingWrite, same] using allowed
    · contradiction
  | close session =>
    simp only [next] at step
    split at step
    · cases step
      constructor
      · exact sound.current
      · intro other t found
        by_cases here : other = session
        · simp [here] at found
        · exact sound.genuine other t ((Function.update_of_ne here none w.sessions).symm.trans found)
    · contradiction
  | reconnect cache =>
    cases step
    constructor
    · exact current_replace cache
    · intro session s found
      exact genuine_grows (sound.genuine session s found) _

omit [DecidableEq G] in
theorem sound_initial (start : Option (TokenCache G)) : Sound start (World.initial start) := by
  constructor
  · exact current_start
  · intro session s found
    contradiction

/-- In a run in which nothing but grants of the same resource comes between the read and
    the write of an acquisition, the column always holds, for each resource, the grant
    committed last for it, and derives from the last reconnect. -/
theorem no_grant_is_lost {start : Option (TokenCache G)} {labels : List (Label G)} {w : World G}
    (run : replay (restrict ownResourceOnly next) (World.initial start) labels = some w) :
    (∀ scope, storedGrant w.column.record scope = latest storedGrant start w.commits scope) ∧
      w.column.origin = replacements w.commits := by
  have sound : Sound start w := replay_invariant (Sound start) (sound_initial start)
    (fun _ _ _ before step => next_sound before step) run
  exact ⟨sound.current.latest, sound.current.origin⟩

/- The refresh loop renews both grants in one session, and a reconnect follows. -/
def orderly : List (Label Nat) :=
  [.load 0 .refreshLoop, .acquire 0 .imap, .answer 0 (.renews 2), .persist 0,
    .acquire 0 .graph, .answer 0 (.renews 3), .persist 0, .close 0,
    .reconnect (some ⟨some "me", some 4, some 5⟩)]

theorem orderly_keeps_grants :
    ∃ w, replay (restrict ownResourceOnly next)
        (World.initial (some ⟨some "me", some 1, some 1⟩)) orderly = some w ∧
      w.commits.length = 3 ∧
      (∀ scope, storedGrant w.column.record scope =
        latest storedGrant (some ⟨some "me", some 1, some 1⟩) w.commits scope) ∧
      w.column.origin = replacements w.commits :=
  ⟨_, rfl, rfl, no_grant_is_lost (show replay (restrict ownResourceOnly next)
    (World.initial (some ⟨some "me", some 1, some 1⟩)) orderly = some _ from rfl)⟩

/- A watcher renews the IMAP grant while a request renews the Graph grant. -/
def renewedTogether : List (Label Nat) :=
  [.load 0 .watcher, .load 1 .request, .acquire 0 .imap, .acquire 1 .graph,
    .answer 0 (.renews 2), .answer 1 (.renews 3), .persist 0, .persist 1, .close 0, .close 1]

/- A reconnect stores its cache while a request waits for a token. -/
def reconnected : List (Label Nat) :=
  [.load 0 .request, .acquire 0 .graph, .reconnect (some ⟨some "me", some 7, some 8⟩),
    .answer 0 (.renews 3), .persist 0, .close 0]

/-- The request writes the old IMAP grant back, and a cache derived from the one before
    the reconnect replaces the reconnect's. -/
theorem grants_are_lost :
    (∃ w, replay next (World.initial (some ⟨some "me", some 1, some 1⟩)) renewedTogether = some w ∧
      (∀ session, w.sessions session = none) ∧
      storedGrant w.column.record .imap = some 1 ∧
      latest storedGrant (some ⟨some "me", some 1, some 1⟩) w.commits .imap = some 2) ∧
    ∃ w, replay next (World.initial (some ⟨some "me", some 1, some 1⟩)) reconnected = some w ∧
      (∀ session, w.sessions session = none) ∧
      storedGrant w.column.record .imap = some 1 ∧
      latest storedGrant (some ⟨some "me", some 1, some 1⟩) w.commits .imap = some 7 ∧
      w.column.origin = 0 ∧ replacements w.commits = 1 := by
  constructor
  · refine ⟨_, rfl, ?_, rfl, rfl⟩
    intro session
    match session with
    | 0 => rfl
    | 1 => rfl
    | _ + 2 => rfl
  · refine ⟨_, rfl, ?_, rfl, rfl, rfl, rfl⟩
    intro session
    match session with
    | 0 => rfl
    | _ + 1 => rfl

end InboxOAuthTokens
