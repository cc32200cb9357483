import InboxOne.RefreshTicks

/-!
The refresh policy on top of the queue of requests. A tick hands its requests to the queue,
where they merge with those of others; scheduling an account anew drops what waits for it,
stops its drain task and forgets when the account was served. Between two ticks anything else
may happen. As in `RefreshTicks`, a tick reads and issues in one step. `rounds` only observes.
-/
namespace InboxRefreshRounds
open LabelledRuns CoalescingQueue InboxRequests

abbrev Log := List (Event Nat Scope Nat)

/-- A tick with the log of the queue just before its requests and just after them. -/
structure Round (T : Type*) where
  tick : InboxRefreshTicks.Tick T
  before : Log
  after : Log

/- `known` are the keys of `_last_full`. -/
structure World (T : Type*) where
  refresh : InboxRefreshTicks.World T
  known : List Nat
  queue : Requests
  rounds : List (Round T)

def World.initial {T : Type*} [Zero T] (interval : T) : World T :=
  ⟨.initial interval, [], .initial, []⟩

def issue (stamp : Nat) (q : Requests) (r : InboxRefreshTicks.Request) : Requests :=
  (requestSync q r.account r.scope.folders r.scope.discover none stamp).1

inductive Label (T : Type*) where
  | tick (now : T) (stamp : Nat)
  | setInterval (interval : T)
  | setActive (accounts : List Nat)
  | addFolder (id account : Nat) (path : String) (isInbox : Bool)
  | removeFolder (id : Nat)
  | updateAccountFolders (account : Nat) (selections : List InboxRefreshTicks.Selection)
  | schedule (account : Nat)
  | queue (step : InboxRequests.Label)

variable {T : Type*} [AddCommGroup T] [LinearOrder T]

def withPolicy (w : World T) (l : InboxRefreshTicks.Label T) : Option (World T) :=
  (InboxRefreshTicks.next w.refresh l).map fun refresh => { w with refresh := refresh }

/-- `schedule_account_sync` and `unschedule_account_sync`, on the tables and the queue. -/
def reschedule (w : World T) (account : Nat) : World T :=
  { w with
    known := w.known.filter (· ≠ account)
    queue := cancelAccount w.queue account }

/- The requests of a tick, after the accounts that are not active any more were cancelled. -/
def finishTick (w : World T) (now : T) (stamp : Nat) (refresh : InboxRefreshTicks.World T) :
    World T :=
  let issued := (InboxRefreshTicks.tick w.refresh.interval now w.refresh.active w.refresh.rows
    w.refresh.timers).issued
  let stopped := (w.known.filter (· ∉ w.refresh.active)).foldl cancelAccount w.queue
  let queue := issued.foldl (issue stamp) stopped
  { refresh := refresh
    known := w.refresh.active
    queue := queue
    rounds := ⟨⟨now, w.refresh.interval, w.refresh.active, w.refresh.rows, issued⟩,
      stopped.log, queue.log⟩ :: w.rounds }

def next (w : World T) : Label T → Option (World T)
  | .tick now stamp =>
      (InboxRefreshTicks.next w.refresh (.tick now)).map (finishTick w now stamp)
  | .setInterval interval => withPolicy w (.setInterval interval)
  | .setActive accounts => withPolicy w (.setActive accounts)
  | .addFolder id account path isInbox => withPolicy w (.addFolder id account path isInbox)
  | .removeFolder id => withPolicy w (.removeFolder id)
  -- the choices are committed and the account is scheduled anew
  | .updateAccountFolders account selections =>
      (withPolicy w (.updateAccountFolders account selections)).map (reschedule · account)
  | .schedule account => (withPolicy w (.unschedule account)).map (reschedule · account)
  -- requests of others, drain tasks and their passes
  | .queue (.cancel _) => none
  | .queue step => (InboxRequests.next w.queue step).map fun queue => { w with queue := queue }

section Logs

/-- The log has grown from `base` without a cancellation of the account. -/
def Kept (account : Nat) (log base : Log) : Prop :=
  ∃ newer, log = newer ++ base ∧ .dropped account ∉ newer

theorem kept_refl (account : Nat) (log : Log) : Kept account log log :=
  ⟨[], rfl, by simp⟩

theorem kept_trans {account : Nat} {log middle base : Log} (later : Kept account log middle)
    (earlier : Kept account middle base) : Kept account log base := by
  obtain ⟨newer, rfl, keeps⟩ := later
  obtain ⟨older, rfl, keeps'⟩ := earlier
  refine ⟨newer ++ older, (List.append_assoc newer older base).symm, fun mem => ?_⟩
  rcases List.mem_append.mp mem with new | old
  · exact keeps new
  · exact keeps' old

/-- The log grows by what comes before `base`, and drops only the accounts of `stopped`. -/
def Grows (stopped : Nat → Prop) (log base : Log) : Prop :=
  ∃ newer, log = newer ++ base ∧ ∀ account, .dropped account ∈ newer → stopped account

theorem grows_refl (stopped : Nat → Prop) (log : Log) : Grows stopped log log :=
  ⟨[], rfl, fun _ mem => by contradiction⟩

theorem grows_trans {stopped : Nat → Prop} {log middle base : Log}
    (later : Grows stopped log middle) (earlier : Grows stopped middle base) :
    Grows stopped log base := by
  obtain ⟨newer, rfl, drops⟩ := later
  obtain ⟨older, rfl, drops'⟩ := earlier
  refine ⟨newer ++ older, (List.append_assoc newer older base).symm, fun account mem => ?_⟩
  rcases List.mem_append.mp mem with new | old
  · exact drops account new
  · exact drops' account old

theorem grows_weaken {stopped stopped' : Nat → Prop} {log base : Log}
    (grows : Grows stopped log base) (weaker : ∀ account, stopped account → stopped' account) :
    Grows stopped' log base := by
  obtain ⟨newer, same, drops⟩ := grows
  exact ⟨newer, same, fun account mem => weaker account (drops account mem)⟩

theorem request_log (s : Requests) (account : Nat) (folders : Option (Finset Nat))
    (discover : Bool) (parent : Option Nat) (now : Nat) :
    (requestSync s account folders discover parent now).1.log =
      .requested account ⟨folders, discover⟩ :: s.log := by
  unfold requestSync ensureDrain
  split
  · rfl
  · rfl

theorem cancel_log (s : Requests) (account : Nat) :
    (cancelAccount s account).log = .dropped account :: s.log := by
  unfold cancelAccount retireDrain
  split
  · rfl
  · rfl

theorem drain_loop_log (s : Requests) (task account : Nat) :
    Grows (fun _ => False) (drainLoop s task account).log s.log := by
  unfold drainLoop
  split
  · exact grows_refl _ _
  · dsimp only
    split
    · exact grows_refl _ _
    · exact ⟨[_], rfl, fun a mem => by simp at mem⟩

/- Only cancel_account drops anything. -/
theorem queue_log {s s' : Requests} {l : InboxRequests.Label} (uncancelled : ∀ a, l ≠ .cancel a)
    (step : InboxRequests.next s l = some s') : Grows (fun _ => False) s'.log s.log := by
  cases l with
  | request account folders discover parent now =>
    cases step
    exact ⟨[_], request_log s account folders discover parent now, fun a mem => by simp at mem⟩
  | cancel account => exact absurd rfl (uncancelled account)
  | start task =>
    simp only [InboxRequests.next] at step
    split at step
    · cases step
      exact drain_loop_log s _ _
    · cases step
      exact grows_refl _ _
    · contradiction
  | passEnds task outcome =>
    simp only [InboxRequests.next] at step
    split at step
    · split at step
      · cases step
        exact drain_loop_log { s with activities := _ } _ _
      · cases step
        exact drain_loop_log { s with activities := _ } _ _
      · split at step
        · cases step
          exact grows_refl _ _
        · contradiction
    · contradiction
  | doneCallback task =>
    simp only [InboxRequests.next] at step
    split at step
    · cases step
      exact grows_refl _ _
    · contradiction

theorem cancel_all_log (accounts : List Nat) :
    ∀ s : Requests, Grows (· ∈ accounts) (accounts.foldl cancelAccount s).log s.log := by
  induction accounts with
  | nil => exact fun s => grows_refl _ _
  | cons account rest ih =>
    intro s
    have later := grows_weaken (ih (cancelAccount s account))
      fun a mem => List.mem_cons_of_mem account mem
    apply grows_trans later
    refine ⟨[.dropped account], cancel_log s account, fun a mem => ?_⟩
    cases List.mem_singleton.mp mem
    exact List.mem_cons_self

/- The requests of a tick are in the log, and nothing is dropped meanwhile. -/
theorem issue_all_log (stamp : Nat) (issued : List InboxRefreshTicks.Request) :
    ∀ s : Requests, ∃ newer, (issued.foldl (issue stamp) s).log = newer ++ s.log ∧
      (∀ account, .dropped account ∉ newer) ∧
      ∀ r ∈ issued, .requested r.account r.scope ∈ newer := by
  induction issued with
  | nil => exact fun s => ⟨[], rfl, by simp, by simp⟩
  | cons r rest ih =>
    intro s
    obtain ⟨newer, log, undropped, there⟩ := ih (issue stamp s r)
    have first : (issue stamp s r).log = .requested r.account r.scope :: s.log :=
      request_log s r.account r.scope.folders r.scope.discover none stamp
    refine ⟨newer ++ [.requested r.account r.scope], ?_, fun account mem => ?_, fun q mem => ?_⟩
    · rw [List.foldl_cons, log, first, List.append_assoc]
      rfl
    · rcases List.mem_append.mp mem with later | here
      · exact undropped account later
      · simp at here
    · rcases List.mem_cons.mp mem with rfl | later
      · exact List.mem_append_right _ List.mem_cons_self
      · exact List.mem_append_left _ (there q later)

end Logs

section Tables
open InboxRefreshTicks
variable {interval now : T} {folders : List FolderRow}

omit [AddCommGroup T] [LinearOrder T] in
theorem set_inboxes_full (fs : List FolderRow) :
    ∀ t : Turn T, (fs.foldl (setInbox now) t).timers.lastFull = t.timers.lastFull := by
  induction fs with
  | nil => exact fun t => rfl
  | cons f rest ih => exact fun t => ih (setInbox now t f)

theorem refresh_inboxes_full (account : Nat) (fs : List FolderRow) :
    ∀ t : Turn T, (fs.foldl (refreshInbox interval now account) t).timers.lastFull =
      t.timers.lastFull := by
  induction fs with
  | nil => exact fun t => rfl
  | cons f rest ih =>
    intro t
    rw [List.foldl_cons, ih, refreshInbox]
    split
    · rfl
    · rfl

/- One account's turn sets its own entry, if at all. -/
theorem refresh_full_other {account a : Nat} (other : a ≠ account) (t : Turn T) :
    (refresh interval now folders t account).timers.lastFull a = t.timers.lastFull a := by
  rw [refresh, refresh_inboxes_full, refreshAccount]
  split
  · rw [set_inboxes_full]
    exact Function.update_of_ne other _ _
  · split
    · exact Function.update_of_ne other _ _
    · rfl

theorem refresh_full_here (account : Nat) (t : Turn T) :
    (refresh interval now folders t account).timers.lastFull account ≠ none := by
  rw [refresh, refresh_inboxes_full, refreshAccount]
  split
  · rw [set_inboxes_full]
    simp [setFull, request]
  · rename_i last entry
    split
    · simp [setFull, request]
    · rw [entry]
      exact Option.some_ne_none last

theorem refresh_all_full (active : List Nat) (a : Nat) :
    ∀ t : Turn T, (active.foldl (refresh interval now folders) t).timers.lastFull a ≠ none ↔
      a ∈ active ∨ t.timers.lastFull a ≠ none := by
  induction active with
  | nil => simp
  | cons account rest ih =>
    intro t
    rw [List.foldl_cons, ih, List.mem_cons]
    by_cases same : a = account
    · subst same
      simp [refresh_full_here]
    · rw [refresh_full_other same]
      simp [same]

/- An account without an entry is asked for as a whole. -/
theorem refresh_all_asks {a : Nat} {active : List Nat} (listed : a ∈ active) :
    ∀ t : Turn T, t.timers.lastFull a = none →
      ⟨a, ⟨none, true⟩⟩ ∈ (active.foldl (refresh interval now folders) t).issued := by
  induction active with
  | nil => contradiction
  | cons account rest ih =>
    intro t entry
    by_cases same : a = account
    · subst same
      apply refresh_all_grows rest
      apply refresh_inboxes_grows
      rw [refreshAccount, entry]
      dsimp only
      rw [set_inboxes_issued]
      simp [setFull, request]
    · have later : a ∈ rest := (List.mem_cons.mp listed).resolve_left same
      apply ih later
      rw [refresh_full_other same]
      exact entry

theorem tick_full (active : List Nat) (rows : List FolderRow) (timers : Timers T) (a : Nat) :
    (tick interval now active rows timers).timers.lastFull a ≠ none ↔ a ∈ active := by
  simp only [tick, refresh_all_full]
  constructor
  · rintro (listed | entry)
    · exact listed
    · simp only [unscheduleInactive] at entry
      by_contra unlisted
      rw [if_neg unlisted] at entry
      exact entry rfl
  · exact Or.inl

theorem tick_asks {a : Nat} {active : List Nat} (rows : List FolderRow) {timers : Timers T}
    (listed : a ∈ active) (entry : timers.lastFull a = none) :
    ⟨a, ⟨none, true⟩⟩ ∈ (tick interval now active rows timers).issued := by
  apply refresh_all_asks listed
  simp only [unscheduleInactive, if_pos listed]
  exact entry

end Tables

/- Where a round begins in the log: at the end of the one before. -/
def base : List (Round T) → Log
  | [] => []
  | r :: _ => r.after

/-- What a round makes of the log: an account that was cancelled since the last round is asked
for as a whole, and what the tick issues is in the log. -/
structure Follows (r : Round T) (previous : Log) : Prop where
  gap : ∃ newer, r.before = newer ++ previous ∧ ∀ a ∈ r.tick.active, .dropped a ∈ newer →
    ⟨a, ⟨none, true⟩⟩ ∈ r.tick.issued
  issued : ∃ newer, r.after = newer ++ r.before ∧ (∀ a, .dropped a ∉ newer) ∧
    ∀ q ∈ r.tick.issued, .requested q.account q.scope ∈ newer

def Linked : List (Round T) → Prop
  | [] => True
  | r :: older => Follows r (base older) ∧ Linked older

/- A folder keeps its id and its account as long as a tick sees it. -/
def SameRows (later earlier : Round T) : Prop :=
  ∀ f ∈ earlier.tick.rows, ∀ g ∈ later.tick.rows, g.serial = f.serial →
    g.id = f.id ∧ g.account = f.account

/-- Both machines are sound, and they agree: since the last round only accounts without an
entry were cancelled. -/
structure Sound (w : World T) : Prop where
  refresh : InboxRefreshTicks.Sound w.refresh
  queue : InboxRequests.Sound w.queue
  ticks : w.refresh.ticks = w.rounds.map Round.tick
  linked : Linked w.rounds
  grown : Grows (fun a => w.refresh.timers.lastFull a = none) w.queue.log (base w.rounds)
  rows : w.rounds.Pairwise SameRows
  own : ∀ r ∈ w.rounds, SameRows r r
  known : ∀ a, a ∈ w.known ↔ w.refresh.timers.lastFull a ≠ none

section Steps
variable [IsOrderedAddMonoid T] {w w' : World T}

omit [IsOrderedAddMonoid T] in
theorem initial_sound (interval : T) : Sound (World.initial interval) where
  refresh := InboxRefreshTicks.sound_initial interval
  queue := InboxRequests.initial_sound
  ticks := rfl
  linked := trivial
  grown := grows_refl _ _
  rows := List.Pairwise.nil
  own := by simp [World.initial]
  known := by simp [World.initial, InboxRefreshTicks.World.initial]

/- Rows, choices and the interval change; the tables stay. -/
theorem policy_sound (sound : Sound w) {l : InboxRefreshTicks.Label T}
    (keeps : ∀ refresh, InboxRefreshTicks.next w.refresh l = some refresh →
      refresh.ticks = w.refresh.ticks ∧ refresh.timers = w.refresh.timers)
    (step : withPolicy w l = some w') : Sound w' := by
  obtain ⟨refresh, next, rfl⟩ := Option.map_eq_some_iff.mp step
  obtain ⟨ticks, timers⟩ := keeps refresh next
  constructor
  · exact InboxRefreshTicks.next_sound sound.refresh next
  · exact sound.queue
  · exact ticks.trans sound.ticks
  · exact sound.linked
  · simp only [timers]
    exact sound.grown
  · exact sound.rows
  · exact sound.own
  · simp only [timers]
    exact sound.known

omit [IsOrderedAddMonoid T] in
/- An account that is scheduled anew loses its entry and what waits for it. -/
theorem reschedule_sound (sound : Sound w) (account : Nat)
    {refresh : InboxRefreshTicks.World T} (policy : InboxRefreshTicks.Sound refresh)
    (ticks : refresh.ticks = w.refresh.ticks)
    (timers : refresh.timers = InboxRefreshTicks.unschedule w.refresh.timers account) :
    Sound (reschedule { w with refresh := refresh } account) := by
  constructor
  · exact policy
  · exact InboxRequests.cancel_sound sound.queue account
  · exact ticks.trans sound.ticks
  · exact sound.linked
  · obtain ⟨newer, log, drops⟩ := sound.grown
    refine ⟨.dropped account :: newer, ?_, fun a mem => ?_⟩
    · show (cancelAccount w.queue account).log = _
      rw [cancel_log, log]
      rfl
    · show refresh.timers.lastFull a = none
      rw [timers]
      by_cases same : a = account
      · subst same
        simp [InboxRefreshTicks.unschedule]
      · have earlier : .dropped a ∈ newer := by
          rcases List.mem_cons.mp mem with here | earlier
          · exact absurd (Event.dropped.inj here) same
          · exact earlier
        exact (Function.update_of_ne same none _).trans (drops a earlier)
  · exact sound.rows
  · exact sound.own
  · intro a
    show a ∈ w.known.filter (· ≠ account) ↔ refresh.timers.lastFull a ≠ none
    rw [timers, List.mem_filter, sound.known]
    by_cases same : a = account
    · subst same
      simp [InboxRefreshTicks.unschedule]
    · simp [InboxRefreshTicks.unschedule, same]

omit [IsOrderedAddMonoid T] in
theorem queue_sound (sound : Sound w) {l : InboxRequests.Label} {queue : Requests}
    (uncancelled : ∀ a, l ≠ .cancel a) (step : InboxRequests.next w.queue l = some queue) :
    Sound { w with queue := queue } where
  refresh := sound.refresh
  queue := InboxRequests.next_sound sound.queue step
  ticks := sound.ticks
  linked := sound.linked
  grown := grows_trans (grows_weaken (queue_log uncancelled step) fun _ none => none.elim)
    sound.grown
  rows := sound.rows
  own := sound.own
  known := sound.known

omit [AddCommGroup T] [LinearOrder T] [IsOrderedAddMonoid T] in
theorem cancel_all_sound (accounts : List Nat) :
    ∀ {s : Requests}, InboxRequests.Sound s →
      InboxRequests.Sound (accounts.foldl cancelAccount s) := by
  induction accounts with
  | nil => exact fun sound => sound
  | cons a rest ih => exact fun sound => ih (InboxRequests.cancel_sound sound a)

omit [AddCommGroup T] [LinearOrder T] [IsOrderedAddMonoid T] in
theorem issue_all_sound (stamp : Nat) (issued : List InboxRefreshTicks.Request) :
    ∀ {s : Requests}, InboxRequests.Sound s →
      InboxRequests.Sound (issued.foldl (issue stamp) s) := by
  induction issued with
  | nil => exact fun sound => sound
  | cons r rest ih => exact fun sound => ih (InboxRequests.request_sound sound _ _ _ _ _)

/- The round that a tick adds. -/
theorem tick_sound (sound : Sound w) {now : T} {stamp : Nat} {refresh : InboxRefreshTicks.World T}
    (step : InboxRefreshTicks.next w.refresh (.tick now) = some refresh) :
    Sound (finishTick w now stamp refresh) := by
  have policy := InboxRefreshTicks.next_sound sound.refresh step
  simp only [InboxRefreshTicks.next] at step
  split at step
  · cases step
    obtain ⟨newer, log, undropped, there⟩ := issue_all_log stamp
      (InboxRefreshTicks.tick w.refresh.interval now w.refresh.active w.refresh.rows
        w.refresh.timers).issued
      ((w.known.filter (· ∉ w.refresh.active)).foldl cancelAccount w.queue)
    constructor
    · exact policy
    · exact issue_all_sound stamp _ (cancel_all_sound _ sound.queue)
    · exact congrArg (List.cons _) sound.ticks
    · refine ⟨⟨?_, newer, log, undropped, there⟩, sound.linked⟩
      obtain ⟨stopped, stopLog, inactive⟩ := cancel_all_log
        (w.known.filter (· ∉ w.refresh.active)) w.queue
      obtain ⟨since, sinceLog, drops⟩ := sound.grown
      refine ⟨stopped ++ since, ?_, fun a listed mem => ?_⟩
      · rw [List.append_assoc, ← sinceLog]
        exact stopLog
      · rcases List.mem_append.mp mem with now | before
        · have unlisted := (List.mem_filter.mp (inactive a now)).2
          simp only [decide_eq_true_eq] at unlisted
          exact absurd listed unlisted
        · exact tick_asks w.refresh.rows listed (drops a before)
    · exact grows_refl _ _
    · apply List.pairwise_cons.mpr
      refine ⟨fun r mem f fm g gm same => ?_, sound.rows⟩
      have past : r.tick ∈ w.refresh.ticks := by
        rw [sound.ticks]
        exact List.mem_map_of_mem mem
      exact (sound.refresh.past r.tick past).same f fm g gm same
    · intro r mem
      rcases List.mem_cons.mp mem with rfl | old
      · intro f fm g gm same
        rw [List.inj_on_of_nodup_map sound.refresh.serials gm fm same]
        exact ⟨rfl, rfl⟩
      · exact sound.own r old
    · intro a
      exact (tick_full w.refresh.active w.refresh.rows w.refresh.timers a).symm
  · contradiction

theorem next_sound (sound : Sound w) {l : Label T} (step : next w l = some w') : Sound w' := by
  cases l with
  | tick now stamp =>
    obtain ⟨refresh, ticked, rfl⟩ := Option.map_eq_some_iff.mp step
    exact tick_sound sound ticked
  | setInterval interval =>
    apply policy_sound sound _ step
    rintro refresh ⟨⟩
    exact ⟨rfl, rfl⟩
  | setActive accounts =>
    apply policy_sound sound _ step
    rintro refresh ⟨⟩
    exact ⟨rfl, rfl⟩
  | addFolder id account path isInbox =>
    apply policy_sound sound _ step
    intro refresh added
    simp only [InboxRefreshTicks.next] at added
    split at added
    · contradiction
    · cases added
      exact ⟨rfl, rfl⟩
  | removeFolder id =>
    apply policy_sound sound _ step
    rintro refresh ⟨⟩
    exact ⟨rfl, rfl⟩
  | updateAccountFolders account selections =>
    obtain ⟨chosen, policy, rfl⟩ := Option.map_eq_some_iff.mp step
    obtain ⟨refresh, next, rfl⟩ := Option.map_eq_some_iff.mp policy
    have kept := InboxRefreshTicks.next_sound sound.refresh next
    simp only [InboxRefreshTicks.next] at next
    split at next
    · cases next
      exact reschedule_sound sound account kept rfl rfl
    · contradiction
  | schedule account =>
    simp only [next] at step
    obtain ⟨chosen, policy, rfl⟩ := Option.map_eq_some_iff.mp step
    obtain ⟨refresh, next, rfl⟩ := Option.map_eq_some_iff.mp policy
    have kept := InboxRefreshTicks.next_sound sound.refresh next
    cases next
    exact reschedule_sound sound account kept rfl rfl
  | queue step' =>
    cases step' with
    | cancel account => contradiction
    | request account folders discover parent now =>
      simp only [next] at step
      obtain ⟨queue, next, rfl⟩ := Option.map_eq_some_iff.mp step
      exact queue_sound sound (fun a => by intro same; contradiction) next
    | start task =>
      simp only [next] at step
      obtain ⟨queue, next, rfl⟩ := Option.map_eq_some_iff.mp step
      exact queue_sound sound (fun a => by intro same; contradiction) next
    | passEnds task outcome =>
      simp only [next] at step
      obtain ⟨queue, next, rfl⟩ := Option.map_eq_some_iff.mp step
      exact queue_sound sound (fun a => by intro same; contradiction) next
    | doneCallback task =>
      simp only [next] at step
      obtain ⟨queue, next, rfl⟩ := Option.map_eq_some_iff.mp step
      exact queue_sound sound (fun a => by intro same; contradiction) next

end Steps

section Linking
omit [AddCommGroup T] [LinearOrder T]
variable {rs earlier : List (Round T)} {first : Round T} {a : Nat}

theorem linked_suffix {l rest : List (Round T)} (linked : Linked (l ++ rest)) : Linked rest := by
  induction l with
  | nil => exact linked
  | cons r l ih => exact ih linked.2

/- A cancellation before a round makes the round ask for the whole account. -/
theorem round_asks_or_keeps {r : Round T} {previous : Log} (follows : Follows r previous)
    (listed : a ∈ r.tick.active) :
    ⟨a, ⟨none, true⟩⟩ ∈ r.tick.issued ∨ Kept a r.after previous := by
  obtain ⟨gap, before, asks⟩ := follows.gap
  obtain ⟨issued, after, undropped, _⟩ := follows.issued
  by_cases dropped : .dropped a ∈ gap
  · exact Or.inl (asks a listed dropped)
  · exact Or.inr (kept_trans ⟨issued, after, undropped a⟩ ⟨gap, before, dropped⟩)

/- Of several rounds one has asked for the whole account after its last cancellation, or it was
   not cancelled at all since the first of them. -/
theorem rounds_ask_or_keep (linked : Linked (rs ++ first :: earlier))
    (listed : ∀ r ∈ rs, a ∈ r.tick.active) :
    (∃ r ∈ rs, ⟨a, ⟨none, true⟩⟩ ∈ r.tick.issued ∧
        Kept a (base (rs ++ first :: earlier)) r.after) ∨
      ∀ r ∈ rs ++ [first], Kept a (base (rs ++ first :: earlier)) r.after := by
  induction rs with
  | nil =>
    right
    intro r mem
    rw [List.mem_singleton.mp mem]
    exact kept_refl a first.after
  | cons u rest ih =>
    rcases round_asks_or_keeps linked.1 (listed u List.mem_cons_self) with asks | keeps
    · exact Or.inl ⟨u, List.mem_cons_self, asks, kept_refl a u.after⟩
    · rcases ih linked.2 fun r mem => listed r (List.mem_cons_of_mem u mem) with
        ⟨r, mem, asks, kept⟩ | kept
      · exact Or.inl ⟨r, List.mem_cons_of_mem u mem, asks, kept_trans keeps kept⟩
      · right
        intro r mem
        rcases List.mem_cons.mp mem with rfl | older
        · exact kept_refl a r.after
        · exact kept_trans keeps (kept r older)

theorem base_extends (linked : Linked (rs ++ first :: earlier)) :
    ∃ newer, base (rs ++ first :: earlier) = newer ++ first.after := by
  induction rs with
  | nil => exact ⟨[], rfl⟩
  | cons u rest ih =>
    rw [List.cons_append] at linked
    obtain ⟨older, same⟩ := ih linked.2
    obtain ⟨gap, before, _⟩ := linked.1.gap
    obtain ⟨issued, after, _⟩ := linked.1.issued
    refine ⟨issued ++ (gap ++ older), ?_⟩
    show u.after = _
    rw [after, before, same]
    simp only [List.append_assoc]

/- A request of a round, as it lies in the log behind what came before the rounds. -/
theorem request_in_log (linked : Linked (rs ++ first :: earlier)) {r : Round T} (mem : r ∈ rs)
    {q : InboxRefreshTicks.Request} (asked : q ∈ r.tick.issued) :
    ∃ newer older, r.after = newer ++ .requested q.account q.scope :: (older ++ first.after) ∧
      ∀ a, .dropped a ∉ newer := by
  obtain ⟨l, m, rfl⟩ := List.append_of_mem mem
  rw [List.append_assoc, List.cons_append] at linked
  obtain ⟨follows, rest⟩ := linked_suffix linked
  obtain ⟨gap, before, _⟩ := follows.gap
  obtain ⟨issued, after, undropped, there⟩ := follows.issued
  obtain ⟨older, same⟩ := base_extends rest
  obtain ⟨newer, behind, split⟩ := List.append_of_mem (there q asked)
  refine ⟨newer, behind ++ (gap ++ older), ?_, fun a dropped => undropped a ?_⟩
  · rw [after, before, same, split]
    simp only [List.append_assoc, List.cons_append]
  · rw [split]
    exact List.mem_append_left _ dropped

end Linking

/-- A pass over these folders goes over the folder. -/
def Covers (scope : Scope) (folder : Nat) : Prop :=
  ∀ ids, scope.folders = some ids → folder ∈ ids

theorem covers_within {scope entry : Scope} {folder : Nat} (covers : Covers scope folder)
    (within : scope.Within entry) : Covers entry folder := by
  intro ids all
  have below := within.1
  rw [all] at below
  cases own : scope.folders with
  | none => rw [own] at below; exact below.elim
  | some asked =>
    rw [own] at below
    exact below (covers asked own)

/-- A pass that covers the folder was begun after the round, or waits for a task that will
begin it with its next step. -/
def Looked (queue : Requests) (since : Log) (account folder : Nat) : Prop :=
  ∃ recent, queue.log = recent ++ since ∧
    ((∃ task scope, .taken task account scope ∈ recent ∧ Covers scope folder) ∨
      ∃ entry task, queue.pending account = some entry ∧ Covers entry folder ∧
        queue.running account = some task ∧ WillServe queue task account entry)

/- What is asked for is waiting or was begun, unless it was cancelled. -/
theorem asked_is_looked {queue : Requests} (sound : InboxRequests.Sound queue)
    {newer older since : Log} {account folder : Nat} {scope : Scope}
    (log : queue.log = newer ++ .requested account scope :: (older ++ since))
    (undropped : .dropped account ∉ newer) (covers : Covers scope folder) :
    Looked queue since account folder := by
  refine ⟨newer ++ .requested account scope :: older, ?_, ?_⟩
  · rw [log, List.append_assoc, List.cons_append]
  · rcases waiting_or_taken (log ▸ sound.exact) undropped with waits | ⟨task, entry, mem, below⟩
    · right
      rw [← log] at waits
      obtain ⟨entry, all, below⟩ := joinAll_nonempty waits
      have queued := (sound.merged account).trans all
      obtain ⟨task, running⟩ := sound.queued account entry queued (by simp)
      exact ⟨entry, task, queued, covers_within covers below, running,
        registered_serves sound running queued⟩
    · left
      exact ⟨task, entry, List.mem_append_left _ mem, covers_within covers below⟩

section Freshness
variable [IsOrderedAddMonoid T] {w : World T}

theorem run_sound {interval : T} {labels : List (Label T)}
    (run : replay next (World.initial interval) labels = some w) : Sound w :=
  replay_invariant Sound (initial_sound interval)
    (fun _ _ _ sound step => next_sound sound step) run

variable {later between earlier : List (Round T)} {first second : Round T}
variable {row : InboxRefreshTicks.FolderRow}

omit [IsOrderedAddMonoid T] in
/- The rows that the rounds see under one serial number. -/
theorem same_row (sound : Sound w)
    (rounds : w.rounds = later ++ second :: (between ++ first :: earlier)) {r : Round T}
    (mem : r ∈ second :: (between ++ [first])) {f : InboxRefreshTicks.FolderRow}
    (fm : f ∈ r.tick.rows) (rowMem : row ∈ second.tick.rows) (serial : f.serial = row.serial) :
    row.id = f.id ∧ row.account = f.account := by
  have pairs := sound.rows
  rw [rounds] at pairs
  have after := List.pairwise_cons.mp (List.pairwise_append.mp pairs).2.1
  rcases List.mem_cons.mp mem with rfl | older
  · have own := sound.own r (by rw [rounds]; simp)
    exact own f fm row rowMem serial.symm
  · refine after.1 r ?_ f fm row rowMem serial.symm
    rcases List.mem_append.mp older with inside | last
    · exact List.mem_append_left _ inside
    · rw [List.mem_singleton.mp last]
      exact List.mem_append_right _ List.mem_cons_self

omit [IsOrderedAddMonoid T] in
/- A request of one of the rounds after the first, if the account was not cancelled since. -/
theorem request_is_looked (sound : Sound w)
    (rounds : w.rounds = later ++ second :: (between ++ first :: earlier)) {r : Round T}
    (mem : r ∈ second :: between) {q : InboxRefreshTicks.Request} (asks : q ∈ r.tick.issued)
    {folder : Nat} (covers : q.Covers folder) (still : Kept q.account second.after r.after)
    (kept : Kept q.account w.queue.log second.after) :
    Looked w.queue first.after q.account folder := by
  have linked : Linked ((second :: between) ++ first :: earlier) := by
    have all := sound.linked
    rw [rounds] at all
    exact linked_suffix all
  obtain ⟨newer, older, log, undropped⟩ := request_in_log linked mem asks
  obtain ⟨latest, whole, unstopped⟩ := kept
  obtain ⟨middle, tail, unstopped'⟩ := still
  have found : w.queue.log = (latest ++ (middle ++ newer)) ++
      .requested q.account q.scope :: (older ++ first.after) := by
    rw [whole, tail, log]
    simp only [List.append_assoc]
  apply asked_is_looked sound.queue found
  · intro dropped
    simp only [List.mem_append] at dropped
    rcases dropped with one | two | three
    · exact unstopped one
    · exact unstopped' two
    · exact undropped q.account three
  · exact covers

/-- For two ticks that are at least the interval of the later one apart (`apart` follows if it
is positive), and a folder of an active account that both and all between see: since the first
of them a pass over the folder was begun, or one waits for a task that is there to begin it,
whatever was requested, merged, finished or cancelled between them, until the account is
cancelled after the later tick. -/
theorem every_folder_gets_a_pass {interval : T} {labels : List (Label T)}
    (run : replay next (World.initial interval) labels = some w)
    (rounds : w.rounds = later ++ second :: (between ++ first :: earlier))
    (apart : first.tick.time < second.tick.time)
    (due : second.tick.interval ≤ second.tick.time - first.tick.time)
    (listed : row ∈ second.tick.folders)
    (present : ∀ r ∈ between ++ [first], InboxRefreshTicks.Present r.tick row.serial)
    (kept : Kept row.account w.queue.log second.after) :
    Looked w.queue first.after row.account row.id := by
  have sound := run_sound run
  obtain ⟨rowMem, active⟩ := InboxRefreshTicks.mem_folders.mp listed
  have linked : Linked ((second :: between) ++ first :: earlier) := by
    have all := sound.linked
    rw [rounds] at all
    exact linked_suffix all
  have seen : ∀ r ∈ second :: (between ++ [first]),
      InboxRefreshTicks.Present r.tick row.serial := by
    intro r mem
    rcases List.mem_cons.mp mem with rfl | older
    · exact ⟨row, rowMem, rfl, active⟩
    · exact present r older
  have inside : ∀ r ∈ second :: between, r ∈ second :: (between ++ [first]) := by
    intro r mem
    rw [← List.cons_append]
    exact List.mem_append_left _ mem
  have actives : ∀ r ∈ second :: between, row.account ∈ r.tick.active := by
    intro r mem
    obtain ⟨f, fm, serial, live⟩ := seen r (inside r mem)
    rw [(same_row sound rounds (inside r mem) fm rowMem serial).2]
    exact live
  rcases rounds_ask_or_keep linked actives with ⟨r, mem, asks, still⟩ | still
  -- after its last cancellation the account was asked for as a whole
  · exact request_is_looked sound rounds mem asks (fun ids all => by contradiction) still kept
  -- not cancelled since the first tick, so the request that served the folder counts
  · have ticks : w.refresh.ticks = later.map Round.tick ++ second.tick ::
        (between.map Round.tick ++ first.tick :: earlier.map Round.tick) := by
      rw [sound.ticks, rounds]
      simp only [List.map_append, List.map_cons]
    have all : ∀ u ∈ second.tick :: (between.map Round.tick ++ [first.tick]),
        InboxRefreshTicks.Present u row.serial := by
      intro u um
      have renamed : u ∈ (second :: (between ++ [first])).map Round.tick := by
        simpa using um
      obtain ⟨r, mem, rfl⟩ := List.mem_map.mp renamed
      exact seen r mem
    obtain ⟨u, um, _, _, f, fm, serial, q, asks, account, covers⟩ :=
      sound.refresh.fed _ _ _ ticks _ _ _ rfl apart due row.serial all
    have renamed : u ∈ (second :: between).map Round.tick := um
    obtain ⟨r, mem, rfl⟩ := List.mem_map.mp renamed
    obtain ⟨id, owner⟩ := same_row sound rounds (inside r mem) fm rowMem serial
    have same : q.account = row.account := account.trans owner.symm
    rw [← id] at covers
    rw [← same] at still kept ⊢
    exact request_is_looked sound rounds mem asks covers (still r (List.mem_append_left _ mem)) kept

end Freshness

/- An edit cancels the account between two ticks, and the interval is made shorter. -/
def editedDay : List (Label ℤ) :=
  [.setActive [7], .addFolder 1 7 "INBOX" true, .addFolder 2 7 "Archive" false, .tick 10 0,
    .queue (.start 0), .queue (.passEnds 0 .normal), .schedule 7, .tick 600 1, .setInterval 300,
    .tick 1000 2, .queue (.start 1)]

theorem every_folder_gets_a_pass_edited : ∃ w, replay next (World.initial 900) editedDay = some w ∧
    ∃ since, Looked w.queue since 7 2 := by
  refine ⟨_, rfl, ?_⟩
  have archive : (⟨1, 2, 7, "Archive", false⟩ : InboxRefreshTicks.FolderRow) ∈
      [⟨0, 1, 7, "INBOX", true⟩, ⟨1, 2, 7, "Archive", false⟩] := by simp
  have looked := every_folder_gets_a_pass
    (show replay next (World.initial 900) editedDay = some _ from rfl)
    (show _ = [] ++ _ :: ([_] ++ _ :: []) from rfl) (show (10 : ℤ) < 1000 by omega)
    (show (300 : ℤ) ≤ 1000 - 10 by omega)
    (InboxRefreshTicks.mem_folders.mpr ⟨archive, List.mem_singleton_self 7⟩) (by decide)
    ⟨[.taken 1 7 ⟨none, true⟩], rfl, by simp⟩
  exact ⟨_, looked⟩

end InboxRefreshRounds
