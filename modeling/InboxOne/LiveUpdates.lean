import InboxOne.ActivityStore
import InboxOne.QueryCache
import InboxOne.Timers

/-!
`LiveUpdates.tsx` from its mount to its cleanup, with the queries of the page: the event
stream of the server, the timer that reopens it, the three intervals, the reports of
presence, and the queries that its events make stale. The cache of the queries is a
parameter, and its queries are always observed. What the stream brings for the activity
list is left out. `announced`, `closedAt`, `downSince`, `ran` and the fields of the exchange
beside the cache only observe.
-/
namespace InboxLiveUpdates
open InboxEventStream InboxActivityStore LabelledRuns OverflowQueue QueryCache Timers

inductive Query where
  | messages
  | accounts
  | connections
  | settings
  deriving DecidableEq

/-- What the server keeps. -/
inductive Datum where
  | messageRows
  | folderRows
  | accountRows
  | settingsRow
  | watchers
  deriving DecidableEq

/-- The version of everything that the server keeps. -/
abbrev Data := Datum → Nat

/-- What the server reads to answer a query. -/
def reads : Query → List Datum
  | .messages => [.messageRows, .folderRows, .accountRows]
  | .accounts => [.accountRows, .folderRows, .messageRows]
  | .connections => [.accountRows, .folderRows, .settingsRow, .watchers]
  | .settings => [.settingsRow]

/-- What the server has changed when it publishes an event. -/
def tells : Event → List Datum
  | .activity _ => []
  | .connection _ _ => [.watchers]
  | .folder _ _ => [.messageRows, .folderRows, .watchers]
  | .folders _ => [.folderRows, .messageRows]
  | .settings => [.settingsRow]

/-- What `onmessage` invalidates. -/
def invalidated : Sent Event Items → List Query
  | .snapshot _ _ => [.settings, .messages, .accounts, .connections]
  | .event _ .settings => [.settings, .connections]
  | .event _ (.folder _ _) | .event _ (.folders _) => [.messages, .accounts, .connections]
  | .event _ (.connection _ _) => [.connections]
  | .event _ (.activity _) => []

inductive Interval where
  | lease
  | fallback
  | activityFallback
  deriving DecidableEq

def periodMs : Interval → Nat
  | .lease => 20000
  | .fallback => 60000
  | .activityFallback => 2000

def reconnectMs : Nat := 3000

inductive Callback where
  | connect
  | tick (i : Interval)
  deriving DecidableEq

/-- `presences` are the reports that were sent, and `save` is the request of
    `RefreshSettings` on the way, with its answer. -/
structure World (State : Type) where
  server : InboxEventStream.World
  data : Data
  announced : Data
  page : Exchange Query Data State
  save : Option (Option Data)
  connection : Connection
  connected : Bool
  disposed : Bool
  visible : Bool
  presences : List Bool
  clock : Clock Callback
  reconnectTimer : Option Nat
  intervals : Interval → Nat
  closedAt : Nat
  downSince : Nat
  ran : Interval → Nat

variable {State Turn : Type} (client : Client Query Data State Turn)

/- After the effect ran: the stream is opening, the presence is reported and the intervals
   are set, in the order of the source. -/
def World.initial (visible : Bool) : World State where
  server := .initial
  data := fun _ => 0
  announced := fun _ => 0
  page := .initial client fun _ => 0
  save := none
  connection := .opening
  connected := false
  disposed := false
  visible := visible
  presences := [visible]
  clock := ((Clock.initial.set (periodMs .lease) (.tick .lease)).set (periodMs .fallback)
    (.tick .fallback)).set (periodMs .activityFallback) (.tick .activityFallback)
  reconnectTimer := none
  intervals
    | .lease => 0
    | .fallback => 1
    | .activityFallback => 2
  closedAt := 0
  downSince := 0
  ran := fun _ => 0

def World.done (w : World State) (i : Interval) : World State :=
  { w with ran := Function.update w.ran i w.clock.now }

def invalidateQueries (w : World State) (queries : List Query) : World State :=
  { w with page := w.page.invalidate client w.data queries }

def invalidate (w : World State) : World State :=
  (invalidateQueries client w [.messages, .accounts, .connections]).done .fallback

/-- `refreshActivity` sends its request; what its answer does is left out. -/
def refreshActivity (w : World State) : World State := w.done .activityFallback

def presence (w : World State) (refreshStatus : Bool) : World State :=
  let reported := { w with presences := w.presences ++ [w.visible] }
  if w.visible then
    let leased := reported.done .lease
    if refreshStatus then refreshActivity leased else leased
  else reported

/- The listeners are removed by the cleanup. -/
def onVisibility (w : World State) : World State := if w.disposed then w else presence w true

def onPageHide (w : World State) : World State := { w with presences := w.presences ++ [false] }

/- A publish announces the data as they are then. -/
def withServer (w : World State) (server : InboxEventStream.World) : World State :=
  let events := server.published.drop w.server.published.length
  { w with
    server := server
    announced := fun d => if events.any (d ∈ tells ·) then w.data d else w.announced d }

inductive Label (Turn : Type) where
  | change (d : Datum)
  | server (step : InboxEventStream.Label)
  | accepted (k : Nat)
  | transmit
  | message
  | error
  | fire
  | wait (elapsed : Nat)
  | visibility (visible : Bool)
  | pageHide
  | dispose
  | invalidate (queries : List Query)
  | serve (q : Query) (request : Nat)
  | deliver (q : Query) (request : Nat)
  | turn (turn : Turn)
  | submit
  | patch
  | saved
  | saveFailed

/- The response in use is not opened a second time. -/
def opensOwn (w : World State) : InboxEventStream.Label → Bool
  | .connect k =>
      match w.connection with
      | .streaming j _ _ => j = k
      | _ => false
  | _ => false

/- When an interval does something. -/
def active (w : World State) : Interval → Bool
  | .lease => w.visible
  | .fallback => !w.connected
  | .activityFallback => !w.connected && w.visible

def tick (w : World State) : Interval → World State
  | .lease => presence w false
  | .fallback => invalidate client w
  | .activityFallback => refreshActivity w

def runCallback (w : World State) : Callback → World State
  | .connect => if w.disposed then w else { w with connection := .opening }
  | .tick i =>
      let again := { w with
        intervals := Function.update w.intervals i w.clock.issued
        clock := w.clock.set (periodMs i) (.tick i) }
      if active again i then tick client again i else again

def onError (w : World State) : World State :=
  let closed := { w with
    connection := .closed, connected := false, closedAt := w.clock.now
    downSince := if w.connected then w.clock.now else w.downSince }
  let refreshed := if w.visible then refreshActivity closed else closed
  { refreshed with
    reconnectTimer := some w.clock.issued, clock := w.clock.set reconnectMs .connect }

/-- The cleanup of the effect. -/
def dispose (w : World State) : World State :=
  let reconnect := match w.reconnectTimer with
    | some timer => w.clock.clear timer
    | none => w.clock
  let cleared := ((reconnect.clear (w.intervals .lease)).clear (w.intervals .fallback)).clear
    (w.intervals .activityFallback)
  onPageHide { w with
    disposed := true, connection := .closed, connected := false, clock := cleared }

/-- The answer to a save is put into the cache. -/
def onSuccess (w : World State) (saved : Data) : World State :=
  let written := { w with page := w.page.set client .settings saved, save := none }
  invalidateQueries client written [.connections]

def next (capacity : Nat) (w : World State) : Label Turn → Option (World State)
  | .change d => some { w with data := Function.update w.data d (w.data d + 1) }
  | .server step =>
      if opensOwn w step then none
      else (InboxEventStream.next capacity w.server step).map (withServer w)
  | .accepted k =>
      match w.connection with
      | .opening => (InboxEventStream.next capacity w.server (.connect k)).map fun server =>
          invalidate client
            { w with server := server, connection := .streaming k 0 [], connected := true }
      | _ => none
  | .transmit =>
      match w.connection with
      | .streaming k transmitted wire =>
          ((w.server.subscribers k).bind fun c => c.sent[transmitted]?).map fun message =>
            { w with connection := .streaming k (transmitted + 1) (wire ++ [message]) }
      | _ => none
  | .message =>
      match w.connection with
      | .streaming k transmitted (message :: wire) =>
          some { invalidateQueries client w (invalidated message) with
            connection := .streaming k transmitted wire }
      | _ => none
  | .error =>
      match w.connection with
      | .closed => none
      | _ => some (onError w)
  | .fire =>
      match w.clock.fire with
      | some (timer, clock) => some (runCallback client { w with clock := clock } timer.action)
      | none => none
  | .wait elapsed => some { w with clock := w.clock.advance elapsed }
  | .visibility visible => some (onVisibility { w with visible := visible })
  | .pageHide => some (if w.disposed then w else onPageHide w)
  | .dispose => if w.disposed then none else some (dispose w)
  | .invalidate queries => some (invalidateQueries client w queries)
  | .serve q request => (w.page.serve w.data q request).map fun page => { w with page := page }
  | .deliver q request => (w.page.deliver client q request).map fun page => { w with page := page }
  | .turn turn => (w.page.own client turn).map fun page => { w with page := page }
  | .submit => if w.save.isNone then some { w with save := some none } else none
  | .patch =>
      match w.save with
      | some none =>
          let data := Function.update w.data .settingsRow (w.data .settingsRow + 1)
          some { w with data := data, save := some (some data) }
      | _ => none
  | .saved =>
      match w.save with
      | some (some saved) => some (onSuccess client w saved)
      | _ => none
  | .saveFailed => w.save.map fun _ => { w with save := none }

/-- Which timers are armed, for the stream and the page as they are. -/
structure Kept (w : World State) : Prop where
  connecting : ∀ k due, ⟨k, due, .connect⟩ ∈ w.clock.timers → w.connection = .closed ∧
    w.reconnectTimer = some k ∧ due ≤ w.closedAt + reconnectMs ∧ w.disposed = false
  waiting : w.disposed = false → w.connection = .closed →
    ∃ k due, ⟨k, due, .connect⟩ ∈ w.clock.timers
  ticking : ∀ i k due, ⟨k, due, .tick i⟩ ∈ w.clock.timers →
    k = w.intervals i ∧ w.disposed = false ∧ due ≤ w.clock.now + periodMs i ∧
      (active w i = true → due ≤ w.ran i + periodMs i ∨
        i = .fallback ∧ due ≤ w.downSince + periodMs i)
  armed : w.disposed = false → ∀ i, ∃ due, ⟨w.intervals i, due, .tick i⟩ ∈ w.clock.timers
  stream : w.connected = true ↔ ∃ k transmitted wire,
    w.connection = .streaming k transmitted wire
  ended : w.disposed = true → w.connection = .closed ∧ w.presences.getLast? = some false

variable {client} {w w' : World State}

theorem initial_kept (visible : Bool) : Kept (World.initial client visible) := by
  have timers : ∀ t : Timer Callback, t ∈ (World.initial client visible).clock.timers ↔
      t = ⟨0, periodMs .lease, .tick .lease⟩ ∨ t = ⟨1, periodMs .fallback, .tick .fallback⟩ ∨
        t = ⟨2, periodMs .activityFallback, .tick .activityFallback⟩ := by
    intro t
    simp [World.initial, Clock.initial, mem_set, or_assoc]
  constructor
  · intro k due mem
    simp [timers] at mem
  · intro _ closed
    contradiction
  · intro i k due mem
    rw [timers] at mem
    rcases mem with same | same | same
    all_goals
      cases same
      exact ⟨rfl, rfl, Nat.le_add_left _ _, fun _ => Or.inl (Nat.le_add_left _ _)⟩
  · intro _ i
    cases i with
    | lease => exact ⟨_, (timers _).mpr (Or.inl rfl)⟩
    | fallback => exact ⟨_, (timers _).mpr (Or.inr (Or.inl rfl))⟩
    | activityFallback => exact ⟨_, (timers _).mpr (Or.inr (Or.inr rfl))⟩
  · constructor
    · intro connected
      contradiction
    · rintro ⟨_, _, _, streaming⟩
      contradiction
  · intro disposed
    contradiction

/- The stream is closed, opening or open as before, and the timers are the same. What an
   interval does may have been done. -/
structure SameStream (w w' : World State) : Prop where
  closed : w'.connection = .closed ↔ w.connection = .closed
  streaming : (∃ k transmitted wire, w'.connection = .streaming k transmitted wire) ↔
    ∃ k transmitted wire, w.connection = .streaming k transmitted wire
  connected : w'.connected = w.connected
  disposed : w'.disposed = w.disposed
  clock : w'.clock = w.clock
  reconnectTimer : w'.reconnectTimer = w.reconnectTimer
  intervals : w'.intervals = w.intervals
  closedAt : w'.closedAt = w.closedAt
  downSince : w'.downSince = w.downSince
  ran : w.disposed = false → ∀ i, active w' i = true →
    w'.ran i = w.clock.now ∨ active w i = true ∧ w'.ran i = w.ran i
  presences : w.disposed = true → w'.presences = w.presences

theorem same_kept (kept : Kept w) (same : SameStream w w') : Kept w' := by
  constructor
  · intro k due mem
    rw [same.clock] at mem
    rw [same.closed, same.reconnectTimer, same.closedAt, same.disposed]
    exact kept.connecting k due mem
  · rw [same.disposed, same.closed, same.clock]
    exact kept.waiting
  · intro i k due mem
    rw [same.clock] at mem
    rw [same.intervals, same.disposed, same.clock, same.downSince]
    obtain ⟨key, live, soon, behind⟩ := kept.ticking i k due mem
    refine ⟨key, live, soon, fun acts => ?_⟩
    rcases same.ran live i acts with now | ⟨acted, ran⟩
    · rw [now]
      exact Or.inl soon
    · rw [ran]
      exact behind acted
  · rw [same.disposed, same.intervals, same.clock]
    exact kept.armed
  · rw [same.connected, same.streaming]
    exact kept.stream
  · intro disposed
    rw [same.disposed] at disposed
    rw [same.closed, same.presences disposed]
    exact kept.ended disposed

/- Steps of the queries and of the server. -/
theorem apart_same (connection : w'.connection = w.connection)
    (connected : w'.connected = w.connected) (disposed : w'.disposed = w.disposed)
    (visible : w'.visible = w.visible) (presences : w'.presences = w.presences)
    (clock : w'.clock = w.clock) (reconnectTimer : w'.reconnectTimer = w.reconnectTimer)
    (intervals : w'.intervals = w.intervals) (closedAt : w'.closedAt = w.closedAt)
    (downSince : w'.downSince = w.downSince) (ran : w'.ran = w.ran) : SameStream w w' := by
  refine ⟨by rw [connection], by rw [connection], connected, disposed, clock, reconnectTimer,
    intervals, closedAt, downSince, fun _ i acts => Or.inr ⟨?_, by rw [ran]⟩, fun _ => presences⟩
  rw [← acts]
  cases i <;> simp [active, connected, visible]

theorem done_same (w : World State) (i : Interval) : SameStream w (w.done i) := by
  refine ⟨Iff.rfl, Iff.rfl, rfl, rfl, rfl, rfl, rfl, rfl, rfl, fun _ j acts => ?_, fun _ => rfl⟩
  by_cases own : j = i
  · subst own
    exact Or.inl (Function.update_self ..)
  · refine Or.inr ⟨?_, Function.update_of_ne own ..⟩
    cases j <;> exact acts

theorem visibility_same (w : World State) (visible : Bool) :
    SameStream w (onVisibility { w with visible := visible }) := by
  by_cases disposed : w.disposed = true
  · have same : onVisibility { w with visible := visible } = { w with visible := visible } :=
      if_pos disposed
    rw [same]
    refine ⟨Iff.rfl, Iff.rfl, rfl, rfl, rfl, rfl, rfl, rfl, rfl, fun live => ?_, fun _ => rfl⟩
    rw [disposed] at live
    contradiction
  · have reports : onVisibility { w with visible := visible } =
        presence { w with visible := visible } true := if_neg disposed
    rw [reports]
    cases visible with
    | true =>
      refine ⟨Iff.rfl, Iff.rfl, rfl, rfl, rfl, rfl, rfl, rfl, rfl, fun _ i acts => ?_,
        fun gone => absurd gone disposed⟩
      cases i with
      | lease => exact Or.inl rfl
      | fallback => exact Or.inr ⟨acts, rfl⟩
      | activityFallback => exact Or.inl rfl
    | false =>
      refine ⟨Iff.rfl, Iff.rfl, rfl, rfl, rfl, rfl, rfl, rfl, rfl, fun _ i acts => ?_,
        fun gone => absurd gone disposed⟩
      cases i with
      | lease => contradiction
      | fallback => exact Or.inr ⟨acts, rfl⟩
      | activityFallback => simp [active, presence] at acts

theorem wait_kept (kept : Kept w) (elapsed : Nat) :
    Kept { w with clock := w.clock.advance elapsed } where
  connecting := kept.connecting
  waiting := kept.waiting
  ticking i k due mem := by
    obtain ⟨key, live, soon, behind⟩ := kept.ticking i k due mem
    refine ⟨key, live, ?_, behind⟩
    rw [advance_now]
    omega
  armed := kept.armed
  stream := kept.stream
  ended := kept.ended

/- While the stream is not closed, no timer is going to open it. -/
theorem no_reconnect (kept : Kept w) (inUse : w.connection ≠ .closed) {k due : Nat} :
    ⟨k, due, .connect⟩ ∉ w.clock.timers := fun mem => inUse (kept.connecting k due mem).1

theorem in_use_live (kept : Kept w) (inUse : w.connection ≠ .closed) : w.disposed = false := by
  cases disposed : w.disposed with
  | false => rfl
  | true => exact absurd (kept.ended disposed).1 inUse

theorem accepted_kept (kept : Kept w) (opening : w.connection = .opening)
    {server : InboxEventStream.World} {k : Nat} :
    Kept { w with server := server, connection := .streaming k 0 [], connected := true } := by
  have inUse : w.connection ≠ .closed := by simp [opening]
  constructor
  · intro j due mem
    exact absurd mem (no_reconnect kept inUse)
  · intro _ closed
    contradiction
  · intro i j due mem
    obtain ⟨key, live, soon, behind⟩ := kept.ticking i j due mem
    refine ⟨key, live, soon, fun acts => ?_⟩
    cases i with
    | lease => exact behind acts
    | fallback | activityFallback => contradiction
  · exact kept.armed
  · exact ⟨fun _ => ⟨k, 0, [], rfl⟩, fun _ => rfl⟩
  · intro disposed
    have live := in_use_live kept inUse
    rw [show w.disposed = true from disposed] at live
    contradiction

/- The intervals go on; the minute counts from the moment the stream was lost. -/
theorem error_kept (kept : Kept w) (inUse : w.connection ≠ .closed) : Kept (onError w) := by
  have live := in_use_live kept inUse
  have closed : Kept { w with
      connection := .closed, connected := false, closedAt := w.clock.now
      downSince := if w.connected then w.clock.now else w.downSince
      ran := if w.visible then Function.update w.ran .activityFallback w.clock.now else w.ran
      reconnectTimer := some w.clock.issued, clock := w.clock.set reconnectMs .connect } := by
    constructor
    · intro k due mem
      rcases mem_set.mp mem with old | new
      · exact absurd old (no_reconnect kept inUse)
      · simp only [Timer.mk.injEq] at new
        obtain ⟨rfl, rfl, _⟩ := new
        exact ⟨rfl, rfl, Nat.le_refl _, live⟩
    · exact fun _ _ => ⟨_, _, mem_set.mpr (Or.inr rfl)⟩
    · intro i k due mem
      rcases mem_set.mp mem with old | new
      · obtain ⟨key, _, soon, behind⟩ := kept.ticking i k due old
        refine ⟨key, live, soon, fun acts => ?_⟩
        cases i with
        | lease =>
          have visible : w.visible = true := acts
          have ran : (if w.visible then Function.update w.ran .activityFallback w.clock.now
              else w.ran) .lease = w.ran .lease := by
            rw [if_pos visible]
            rfl
          dsimp only
          rw [ran]
          exact (behind acts).imp_right fun other => by simp at other
        | fallback =>
          cases connected : w.connected with
          | true => exact Or.inr ⟨rfl, soon⟩
          | false =>
            have before := behind (by simp [active, connected])
            cases w.visible <;> exact before
        | activityFallback =>
          have visible : w.visible = true := by simpa [active] using acts
          refine Or.inl ?_
          dsimp only
          rw [if_pos visible, Function.update_self]
          exact soon
      · simp at new
    · intro _ i
      obtain ⟨due, mem⟩ := kept.armed live i
      exact ⟨due, mem_set.mpr (Or.inl mem)⟩
    · constructor
      · intro connected
        contradiction
      · rintro ⟨_, _, _, streaming⟩
        contradiction
    · intro disposed
      rw [show w.disposed = true from disposed] at live
      contradiction
  unfold onError
  cases visible : w.visible <;> simpa [visible, refreshActivity, World.done] using closed

theorem connect_kept (kept : Kept w) {timer : Timer Callback} {clock : Clock Callback}
    (fires : w.clock.fire = some (timer, clock)) (own : timer.action = .connect) :
    Kept { w with clock := clock, connection := .opening } := by
  obtain ⟨mem, _, _, rfl⟩ := fire_first fires
  obtain ⟨k, due, action⟩ := timer
  dsimp only at own
  subst own
  obtain ⟨closed, armed, _, live⟩ := kept.connecting k due mem
  have stopped : ¬ w.connected = true := by
    rw [kept.stream, closed]
    rintro ⟨_, _, _, streaming⟩
    contradiction
  constructor
  · intro j due' still
    obtain ⟨other, differs⟩ := mem_clear.mp still
    obtain ⟨_, armed', _⟩ := kept.connecting j due' other
    rw [armed] at armed'
    exact absurd (Option.some.inj armed').symm differs
  · intro _ closed
    contradiction
  · exact fun i j due' still => kept.ticking i j due' (mem_clear.mp still).1
  · intro _ i
    obtain ⟨due', ticks⟩ := kept.armed live i
    refine ⟨due', mem_clear.mpr ⟨ticks, fun same => ?_⟩⟩
    exact absurd (same_timer ticks mem same) (by simp)
  · constructor
    · exact fun connected => absurd connected stopped
    · rintro ⟨_, _, _, streaming⟩
      contradiction
  · intro disposed
    rw [show w.disposed = true from disposed] at live
    contradiction

/- An interval is armed again before it does what it is for. -/
theorem again_kept (kept : Kept w) {i : Interval} {k due : Nat}
    (mem : ⟨k, due, .tick i⟩ ∈ w.clock.timers) :
    Kept { w with
      clock := (w.clock.clear k).set (periodMs i) (.tick i)
      intervals := Function.update w.intervals i w.clock.issued
      ran := if active w i then Function.update w.ran i w.clock.now else w.ran } := by
  obtain ⟨key, live, _, _⟩ := kept.ticking i k due mem
  have others : ∀ j key' due', ⟨key', due', .tick j⟩ ∈ (w.clock.clear k).timers →
      j ≠ i ∧ ⟨key', due', .tick j⟩ ∈ w.clock.timers := by
    intro j key' due' still
    obtain ⟨old, differs⟩ := mem_clear.mp still
    refine ⟨?_, old⟩
    rintro rfl
    exact differs ((kept.ticking j key' due' old).1.trans key.symm)
  constructor
  · intro j due' mem'
    rcases mem_set.mp mem' with old | new
    · exact kept.connecting j due' (mem_clear.mp old).1
    · simp at new
  · intro isLive closed
    obtain ⟨j, due', connecting⟩ := kept.waiting isLive closed
    refine ⟨j, due', mem_set.mpr (Or.inl (mem_clear.mpr ⟨connecting, fun same => ?_⟩))⟩
    exact absurd (same_timer connecting mem same) (by simp)
  · intro j key' due' mem'
    rcases mem_set.mp mem' with old | new
    · obtain ⟨differs, before⟩ := others j key' due' old
      obtain ⟨same, _, soon, behind⟩ := kept.ticking j key' due' before
      have ran : (if active w i then Function.update w.ran i w.clock.now else w.ran) j = w.ran j := by
        split
        · exact Function.update_of_ne differs ..
        · rfl
      dsimp only
      rw [Function.update_of_ne differs, ran]
      exact ⟨same, live, soon, behind⟩
    · simp only [Timer.mk.injEq, Callback.tick.injEq] at new
      obtain ⟨rfl, rfl, rfl⟩ := new
      dsimp only
      refine ⟨by rw [Function.update_self]; rfl, live, Nat.le_refl _, fun acts => Or.inl ?_⟩
      rw [if_pos (show active w j = true by cases j <;> exact acts), Function.update_self]
      exact Nat.le_refl _
  · intro _ j
    by_cases own : j = i
    · subst own
      exact ⟨_, mem_set.mpr (Or.inr (by dsimp only; rw [Function.update_self]; rfl))⟩
    · obtain ⟨due', ticks⟩ := kept.armed live j
      refine ⟨due', mem_set.mpr (Or.inl (mem_clear.mpr ⟨?_, fun same => ?_⟩))⟩
      · dsimp only
        rw [Function.update_of_ne own]
        exact ticks
      · dsimp only at same
        rw [Function.update_of_ne own] at same
        have eq := same_timer ticks mem same
        simp only [Timer.mk.injEq, Callback.tick.injEq] at eq
        exact own eq.2.2
  · exact kept.stream
  · exact kept.ended

/- The effect of an interval, once it has been noted that it ran. -/
theorem tick_same {i : Interval} (live : w.disposed = false) (acts : active w i = true) :
    SameStream { w with ran := Function.update w.ran i w.clock.now } (tick client w i) := by
  have here : ¬ w.disposed = true := by simp [live]
  cases i with
  | lease =>
    have reports : presence w false =
        { w with presences := w.presences ++ [w.visible]
                 ran := Function.update w.ran .lease w.clock.now } := if_pos acts
    rw [tick, reports]
    refine ⟨Iff.rfl, Iff.rfl, rfl, rfl, rfl, rfl, rfl, rfl, rfl, fun _ j acts' => Or.inr ⟨?_, rfl⟩,
      fun gone => absurd gone here⟩
    cases j <;> exact acts'
  | fallback | activityFallback => exact apart_same rfl rfl rfl rfl rfl rfl rfl rfl rfl rfl rfl

theorem tick_kept (kept : Kept w) {timer : Timer Callback} {clock : Clock Callback}
    (fires : w.clock.fire = some (timer, clock)) {i : Interval} (own : timer.action = .tick i) :
    Kept (runCallback client { w with clock := clock } (.tick i)) := by
  obtain ⟨mem, _, _, rfl⟩ := fire_first fires
  obtain ⟨k, due, action⟩ := timer
  dsimp only at own
  subst own
  have again := again_kept kept mem
  have live := (kept.ticking i k due mem).2.1
  have same : ∀ clock intervals, active { w with clock := clock, intervals := intervals } i =
      active w i := by
    intro clock intervals
    cases i <;> rfl
  unfold runCallback
  dsimp only
  rw [same]
  cases acts : active w i with
  | true =>
    rw [if_pos acts] at again
    rw [if_pos rfl]
    exact same_kept again (tick_same (w := { w with
      clock := (w.clock.clear k).set (periodMs i) (.tick i)
      intervals := Function.update w.intervals i w.clock.issued }) live ((same _ _).trans acts))
  | false =>
    rw [if_neg (by simp [acts])] at again
    rw [if_neg (by simp)]
    exact again

theorem dispose_timers (kept : Kept w) : (dispose w).clock.timers = [] := by
  rw [List.eq_nil_iff_forall_not_mem]
  rintro ⟨k, due, action⟩ mem
  simp only [dispose, onPageHide, mem_clear] at mem
  obtain ⟨⟨⟨cleared, lease⟩, fallback⟩, activity⟩ := mem
  cases action with
  | tick i =>
    have still : ⟨k, due, .tick i⟩ ∈ w.clock.timers := by
      split at cleared
      · exact (mem_clear.mp cleared).1
      · exact cleared
    have key := (kept.ticking i k due still).1
    cases i with
    | lease => exact lease key
    | fallback => exact fallback key
    | activityFallback => exact activity key
  | connect =>
    split at cleared
    · rename_i j armed
      obtain ⟨still, differs⟩ := mem_clear.mp cleared
      obtain ⟨_, own, _⟩ := kept.connecting k due still
      rw [armed] at own
      exact differs (Option.some.inj own).symm
    · rename_i armed
      obtain ⟨_, own, _⟩ := kept.connecting k due cleared
      rw [armed] at own
      contradiction

theorem dispose_kept (kept : Kept w) : Kept (dispose w) := by
  have timers := dispose_timers kept
  constructor
  · intro k due mem
    rw [timers] at mem
    contradiction
  · intro isLive
    contradiction
  · intro i k due mem
    rw [timers] at mem
    contradiction
  · intro isLive
    contradiction
  · constructor
    · intro connected
      contradiction
    · rintro ⟨_, _, _, streaming⟩
      contradiction
  · exact fun _ => ⟨rfl, by simp [dispose, onPageHide]⟩

theorem page_hide_same (w : World State) :
    SameStream w (if w.disposed then w else onPageHide w) := by
  split
  · exact apart_same rfl rfl rfl rfl rfl rfl rfl rfl rfl rfl rfl
  · rename_i live
    refine ⟨Iff.rfl, Iff.rfl, rfl, rfl, rfl, rfl, rfl, rfl, rfl, fun _ i acts => Or.inr ⟨?_, rfl⟩,
      fun gone => absurd gone live⟩
    cases i <;> exact acts

theorem stream_kept (kept : Kept w) {k transmitted transmitted' : Nat}
    {wire wire' : List (Sent Event Items)} (streaming : w.connection = .streaming k transmitted wire) :
    Kept { w with connection := .streaming k transmitted' wire' } := by
  refine same_kept kept ⟨by simp [streaming], ?_, rfl, rfl, rfl, rfl, rfl, rfl, rfl,
    fun _ i acts => Or.inr ⟨?_, rfl⟩, fun _ => rfl⟩
  · exact ⟨fun _ => ⟨_, _, _, streaming⟩, fun _ => ⟨_, _, _, rfl⟩⟩
  · cases i <;> exact acts

theorem queries_kept (kept : Kept w) (queries : List Query) :
    Kept (invalidateQueries client w queries) :=
  same_kept kept (apart_same rfl rfl rfl rfl rfl rfl rfl rfl rfl rfl rfl)

theorem next_kept {capacity : Nat} (kept : Kept w) {l : Label Turn}
    (step : next client capacity w l = some w') : Kept w' := by
  have apart : ∀ {v : World State}, SameStream w v → Kept v := fun same => same_kept kept same
  cases l with
  | change d | invalidate queries =>
    rw [next, Option.some.injEq] at step
    exact step ▸ apart (apart_same rfl rfl rfl rfl rfl rfl rfl rfl rfl rfl rfl)
  | server l =>
    rw [next] at step
    split at step
    · contradiction
    · obtain ⟨server, _, rfl⟩ := Option.map_eq_some_iff.mp step
      exact apart (apart_same rfl rfl rfl rfl rfl rfl rfl rfl rfl rfl rfl)
  | accepted k =>
    rw [next] at step
    split at step
    · rename_i opening
      obtain ⟨server, _, rfl⟩ := Option.map_eq_some_iff.mp step
      exact same_kept (queries_kept (accepted_kept kept opening) _) (done_same _ .fallback)
    · contradiction
  | transmit =>
    rw [next] at step
    split at step
    · rename_i k transmitted wire streaming
      obtain ⟨message, _, rfl⟩ := Option.map_eq_some_iff.mp step
      exact stream_kept kept streaming
    · contradiction
  | message =>
    rw [next] at step
    split at step
    · rename_i k transmitted message wire streaming
      rw [Option.some.injEq] at step
      subst step
      exact stream_kept (queries_kept kept (invalidated message)) streaming
    · contradiction
  | error =>
    rw [next] at step
    split at step
    · contradiction
    · rename_i inUse
      rw [Option.some.injEq] at step
      exact step ▸ error_kept kept inUse
  | fire =>
    rw [next] at step
    split at step
    · rename_i timer clock fires
      rw [Option.some.injEq] at step
      subst step
      cases own : timer.action with
      | connect =>
        have live : w.disposed = false := by
          obtain ⟨k, due, action⟩ := timer
          dsimp only at own
          subst own
          exact (kept.connecting k due (fire_first fires).1).2.2.2
        rw [runCallback, if_neg (by simp [live])]
        exact connect_kept kept fires own
      | tick i => exact tick_kept kept fires own
    · contradiction
  | wait elapsed =>
    rw [next, Option.some.injEq] at step
    exact step ▸ wait_kept kept elapsed
  | visibility visible =>
    rw [next, Option.some.injEq] at step
    exact step ▸ apart (visibility_same w visible)
  | pageHide =>
    rw [next, Option.some.injEq] at step
    exact step ▸ apart (page_hide_same w)
  | dispose =>
    rw [next] at step
    split at step
    · contradiction
    · rw [Option.some.injEq] at step
      exact step ▸ dispose_kept kept
  | serve q request | deliver q request | turn turn | saveFailed =>
    obtain ⟨page, _, rfl⟩ := Option.map_eq_some_iff.mp step
    exact apart (apart_same rfl rfl rfl rfl rfl rfl rfl rfl rfl rfl rfl)
  | submit =>
    rw [next] at step
    split at step
    · rw [Option.some.injEq] at step
      exact step ▸ apart (apart_same rfl rfl rfl rfl rfl rfl rfl rfl rfl rfl rfl)
    · contradiction
  | patch | saved =>
    rw [next] at step
    split at step
    · rw [Option.some.injEq] at step
      exact step ▸ apart (apart_same rfl rfl rfl rfl rfl rfl rfl rfl rfl rfl rfl)
    · contradiction

theorem run_kept {capacity : Nat} {visible : Bool} {labels : List (Label Turn)}
    (run : replay (next client capacity) (.initial client visible) labels = some w) : Kept w :=
  replay_invariant Kept (initial_kept visible) (fun _ _ _ kept step => next_kept kept step) run

/-- In every run the page has a stream in use or exactly one timer that will open the next
one, at most three seconds after the last one was closed. Without an open stream it refetches
at least once a minute, however often a new one fails, and asks for the activity list every
two seconds as long as it is visible; then it also renews its presence every 20 seconds.
After its cleanup it has neither a stream nor a timer, and has reported that it is hidden. -/
theorem stream_is_reopened {capacity : Nat} {visible : Bool} {labels : List (Label Turn)}
    (run : replay (next client capacity) (.initial client visible) labels = some w) :
    (w.disposed = true → w.connection = .closed ∧ w.clock.timers = [] ∧
      w.presences.getLast? = some false) ∧
      (w.disposed = false →
        (w.connection = .closed ↔ ∃ k due, ⟨k, due, .connect⟩ ∈ w.clock.timers) ∧
        (∀ j k due due', ⟨j, due, .connect⟩ ∈ w.clock.timers →
          ⟨k, due', .connect⟩ ∈ w.clock.timers → j = k) ∧
        (w.clock.fire = none →
          (w.connection = .closed → w.clock.now < w.closedAt + reconnectMs) ∧
          (w.connected = false → w.clock.now < w.ran .fallback + periodMs .fallback ∨
            w.clock.now < w.downSince + periodMs .fallback) ∧
          (w.connected = false → w.visible = true →
            w.clock.now < w.ran .activityFallback + periodMs .activityFallback) ∧
          (w.visible = true → w.clock.now < w.ran .lease + periodMs .lease))) := by
  have kept := run_kept run
  refine ⟨fun disposed => ⟨(kept.ended disposed).1, ?_, (kept.ended disposed).2⟩,
    fun live => ⟨⟨kept.waiting live, ?_⟩, ?_, fun idle => ?_⟩⟩
  · rw [List.eq_nil_iff_forall_not_mem]
    rintro ⟨k, due, action⟩ mem
    cases action with
    | connect =>
      rw [(kept.connecting k due mem).2.2.2] at disposed
      contradiction
    | tick i =>
      rw [(kept.ticking i k due mem).2.1] at disposed
      contradiction
  · rintro ⟨k, due, mem⟩
    exact (kept.connecting k due mem).1
  · intro j k due due' first second
    have armed := (kept.connecting j due first).2.1
    rw [(kept.connecting k due' second).2.1] at armed
    exact (Option.some.inj armed).symm
  · have recent : ∀ i, active w i = true → w.clock.now < w.ran i + periodMs i ∨
        i = .fallback ∧ w.clock.now < w.downSince + periodMs i := by
      intro i acts
      obtain ⟨due, mem⟩ := kept.armed live i
      have early : w.clock.now < due := idle_not_due idle mem
      exact ((kept.ticking i _ due mem).2.2.2 acts).imp (Nat.lt_of_lt_of_le early)
        (And.imp_right (Nat.lt_of_lt_of_le early))
    refine ⟨fun closed => ?_, fun lost => ?_, fun lost shown => ?_, fun shown => ?_⟩
    · obtain ⟨k, due, mem⟩ := kept.waiting live closed
      exact Nat.lt_of_lt_of_le (idle_not_due idle mem) (kept.connecting k due mem).2.2.1
    · exact (recent .fallback (by simp [active, lost])).imp_right And.right
    · exact (recent .activityFallback (by simp [active, lost, shown])).resolve_right (by simp)
    · exact (recent .lease shown).resolve_right (by simp)

/- The stream breaks, is opened again and breaks once more. -/
def flaky : List (Label (QueryCache.Turn Query)) :=
  [.accepted 0, .wait 100, .error, .wait 3000, .fire, .fire, .error, .wait 1999]

theorem flaky_closed : (replay (next plain 64) (.initial plain true) flaky).map
    (fun w => (w.disposed, w.clock.fire.isNone, w.connected, w.visible, w.clock.now,
      w.downSince)) = some (false, true, false, true, 5099, 100) := rfl

theorem stream_is_reopened_flaky : ∃ w,
    replay (next plain 64) (.initial plain true) flaky = some w ∧ w.clock.now = 5099 ∧
      w.downSince = 100 ∧ (w.connection = .closed ↔ ∃ k due, ⟨k, due, .connect⟩ ∈ w.clock.timers) ∧
      (w.clock.now < w.ran .fallback + periodMs .fallback ∨
        w.clock.now < w.downSince + periodMs .fallback) ∧
      w.clock.now < w.ran .activityFallback + periodMs .activityFallback := by
  obtain ⟨w, run, facts⟩ := Option.map_eq_some_iff.mp flaky_closed
  simp only [Prod.mk.injEq, Option.isNone_iff_eq_none] at facts
  obtain ⟨live, idle, lost, visible, now, down⟩ := facts
  obtain ⟨closed, _, recent⟩ := (stream_is_reopened run).2 live
  obtain ⟨_, fallback, activity, _⟩ := recent idle
  exact ⟨w, run, now, down, closed, fallback lost, activity lost visible⟩

end InboxLiveUpdates
