import InboxOne.CancelledSyncs

/-!
A cancellation is final unless another exception takes its place on the way out of
`sync_account`, or it arrives where that function handles an exception: a run without
these steps keeps the invariant `Final`, and one of them is enough to break it.
-/
namespace InboxFinalCancellation
open LabelledRuns InboxSyncTask InboxCancelledSyncs
open InboxRequests (Drain Phase Scope requestSync cancelAccount)
open InboxWatcher (safeError)

/-- No exception takes the place of a CancelledError on its way, and none arrives at the
    rollback after an exception of the pass. -/
def careful (w : World) : Label → Bool
  | .cancel account =>
      match (w.requests.running account).bind w.syncs with
      | some s => s.pc ≠ .outerRollback
      | none => true
  | .answer task (.fail _) =>
      match w.syncs task with
      | some s => s.pc ≠ .awaitOpening ∧ s.pc ≠ .closeSession .cancelled
      | none => true
  | _ => true

/-- What the steps that are careful keep: a cancelled call only unwinds, the other tasks
    are registered, and a task that was retired leaves no record. -/
structure Final (w : World) : Prop where
  linked : Linked w
  doomed : ∀ t s account scope activity, w.syncs t = some s →
    w.requests.tasks t = some ⟨account, .inPass scope activity, true⟩ → Doomed s
  live : ∀ t account phase, w.requests.tasks t = some ⟨account, phase, false⟩ → phase ≠ .done →
    w.requests.running account = some t
  retired : ∀ t account, .retired t account ∈ w.log → ∃ drain, w.requests.tasks t = some drain ∧
    (drain.cancelled = true ∨ drain.phase = .done)
  quiet : ∀ newer t account older, w.log = newer ++ .retired t account :: older →
    ∀ r ∈ newer, r.actor ≠ some t
  served : ∀ t account registered, .taken t account registered ∈ w.log → registered = some t

/- Records of a task that was not retired. -/
theorem quiet_more {log : List Record} (extra : List Record) {task : Nat}
    (quiet : ∀ newer t account older, log = newer ++ .retired t account :: older →
      ∀ r ∈ newer, r.actor ≠ some t)
    (own : ∀ r ∈ extra, r.actor = some task)
    (active : ∀ account, .retired task account ∉ log) :
    ∀ newer t account older, extra ++ log = newer ++ .retired t account :: older →
      ∀ r ∈ newer, r.actor ≠ some t := by
  intro newer t account older split r mem
  have absent : .retired t account ∉ extra := by
    intro inside
    have none := own _ inside
    contradiction
  obtain ⟨later, new, old⟩ := past_split split absent
  rw [new] at mem
  rcases List.mem_append.mp mem with inExtra | inLater
  · rw [own r inExtra]
    intro same
    apply active account
    rw [old, Option.some.inj same]
    exact List.mem_append_right _ List.mem_cons_self
  · exact quiet later t account older old r inLater

theorem not_retired {w : World} (final : Final w) {task account : Nat} {phase : Phase}
    (found : w.requests.tasks task = some ⟨account, phase, false⟩) (active : phase ≠ .done) :
    ∀ a, .retired task a ∉ w.log := by
  intro a mem
  obtain ⟨drain, found', gone⟩ := final.retired task a mem
  rw [found] at found'
  cases found'
  rcases gone with cancelled | ended
  · contradiction
  · exact active ended

/- A step that changes none of the tables that decide about tasks. -/
theorem final_frame {w w' : World} (final : Final w) (linked : Linked w')
    (tasks : w'.requests.tasks = w.requests.tasks)
    (running : w'.requests.running = w.requests.running) (syncs : w'.syncs = w.syncs)
    (log : w'.log = w.log) : Final w' := by
  refine ⟨linked, ?_, ?_, ?_, ?_, ?_⟩
  · rw [tasks, syncs]
    exact final.doomed
  · rw [tasks, running]
    exact final.live
  · rw [tasks, log]
    exact final.retired
  · rw [log]
    exact final.quiet
  · rw [log]
    exact final.served

/- One task and its call are rewritten. -/
theorem final_update {w w' : World} {task : Nat} {drain : Drain} {call : Option Sync}
    (final : Final w) (linked : Linked w')
    (tasks : w'.requests.tasks = Function.update w.requests.tasks task (some drain))
    (syncs : w'.syncs = Function.update w.syncs task call)
    (doomed : ∀ s scope activity, call = some s → drain.phase = .inPass scope activity →
      drain.cancelled = true → Doomed s)
    (live : drain.cancelled = false → drain.phase ≠ .done →
      w'.requests.running drain.account = some task)
    (others : ∀ a t, t ≠ task → w.requests.running a = some t → w'.requests.running a = some t)
    (retired : ∀ t a, .retired t a ∈ w'.log → if t = task then
      drain.cancelled = true ∨ drain.phase = .done else .retired t a ∈ w.log)
    (quiet : ∀ newer t account older, w'.log = newer ++ .retired t account :: older →
      ∀ r ∈ newer, r.actor ≠ some t)
    (served : ∀ t account registered, .taken t account registered ∈ w'.log →
      registered = some t) : Final w' := by
  refine ⟨linked, ?_, ?_, ?_, quiet, served⟩
  · intro t s account scope activity suspended found
    rw [syncs] at suspended
    rw [tasks] at found
    rcases written_cell found with ⟨rfl, rfl⟩ | ⟨same, old⟩
    · rw [Function.update_self] at suspended
      exact doomed s scope activity suspended rfl rfl
    · rw [Function.update_of_ne same] at suspended
      exact final.doomed t s account scope activity suspended old
  · intro t account phase found active
    rw [tasks] at found
    rcases written_cell found with ⟨rfl, rfl⟩ | ⟨same, old⟩
    · exact live rfl active
    · exact others account t same (final.live t account phase old active)
  · intro t account mem
    have origin := retired t account mem
    rw [tasks]
    by_cases same : t = task
    · rw [if_pos same] at origin
      exact ⟨drain, by rw [same, Function.update_self], origin⟩
    · rw [if_neg same] at origin
      rw [Function.update_of_ne same]
      exact final.retired t account origin

/- A task goes on, which only one that was not cancelled may do, or it ends. -/
theorem moves_final {w w' : World} {task account : Nat} {drain : Drain} (final : Final w)
    (linked : Linked w') (moves : Moves w w' task account)
    (found : w.requests.tasks task = some drain) (own : drain.account = account)
    (active : drain.phase ≠ .done)
    (allowed : drain.cancelled = false ∨
      w'.requests.tasks = Function.update w.requests.tasks task (some ⟨account, .done, false⟩)) :
    Final w' := by
  obtain ⟨a, phase, cancelled⟩ := drain
  simp only at own active allowed
  subst own
  cases moves with
  | again scope activity tasks running syncs log =>
    have calm : cancelled = false := by
      rcases allowed with calm | ends
      · exact calm
      · have both := congrFun (tasks.symm.trans ends) task
        simp at both
    subst calm
    have notRetired := not_retired final found active
    have registered := final.live task a phase found active
    refine final_update final linked tasks syncs ?_ ?_ ?_ ?_ ?_ ?_
    · intro s scope activity _ _ cancelled
      contradiction
    · intro _ _
      rw [running]
      exact registered
    · intro b t _ stays
      rw [running]
      exact stays
    · intro t b mem
      rw [log] at mem
      have old : .retired t b ∈ w.log := by simpa using mem
      have same : t ≠ task := fun same => notRetired b (same ▸ old)
      rw [if_neg same]
      exact old
    · rw [log]
      refine quiet_more [_] final.quiet ?_ notRetired
      intro r mem
      rw [List.mem_singleton.mp mem]
      rfl
    · intro t b taker mem
      rw [log] at mem
      rcases List.mem_cons.mp mem with new | old
      · cases new
        exact registered
      · exact final.served t b taker old
  | ends tasks running syncs log =>
    refine final_update final linked tasks syncs ?_ ?_ ?_ ?_ ?_ ?_
    · intro s scope activity started
      contradiction
    · intro _ notDone
      contradiction
    · intro b t other stays
      exact (running b t other).mpr stays
    · intro t b mem
      rw [log] at mem
      split
      · exact Or.inr rfl
      · exact mem
    · rw [log]
      exact final.quiet
    · rw [log]
      exact final.served

theorem request_final {w : World} (final : Final w) (account : Nat)
    (folders : Option (Finset Nat)) (discover : Bool) (parent : Option Nat) (now : Nat) :
    Final { w with
      requests := (requestSync w.requests account folders discover parent now).1 } := by
  have linked := request_linked final.linked account folders discover parent now
  rcases request_tasks w.requests account folders discover parent now with
    ⟨tasks, running⟩ | ⟨free, tasks, running⟩
  · exact final_frame final linked tasks running rfl rfl
  · have fresh := final.linked.requests.unspawned w.requests.spawned (Nat.le_refl _)
    have idle : w.syncs = Function.update w.syncs w.requests.spawned none := by
      apply no_call final.linked
      simp [fresh]
    refine final_update final linked tasks idle ?_ ?_ ?_ ?_ final.quiet final.served
    · intro s scope activity started
      contradiction
    · intro _ _
      dsimp only
      rw [running, Function.update_self]
    · intro a t _ stays
      have other : a ≠ account := by
        intro same
        rw [same, free] at stays
        contradiction
      dsimp only
      rw [running, Function.update_of_ne other]
      exact stays
    · intro t a mem
      obtain ⟨drain, found, _⟩ := final.retired t a mem
      have older : t ≠ w.requests.spawned := by
        intro same
        rw [same, fresh] at found
        contradiction
      rw [if_neg older]
      exact mem

theorem cancel_final {w : World} (final : Final w) {account : Nat}
    (allowed : careful w (.cancel account) = true) : Final (cancelSync w account) := by
  have linked := cancel_linked final.linked account
  rcases cancel_tasks w.requests account with
    ⟨free, tasks, running⟩ | ⟨task, registered, tasks, running⟩
  · unfold cancelSync at linked ⊢
    rw [free] at linked ⊢
    exact final_frame final linked tasks running rfl rfl
  · obtain ⟨phase, drain, active⟩ := final.linked.requests.registered account task registered
    rw [drain, Option.map_some] at tasks
    unfold cancelSync at linked ⊢
    rw [registered] at linked ⊢
    refine final_update final linked tasks rfl ?_ ?_ ?_ ?_ ?_ ?_
    · intro s scope activity called _ _
      obtain ⟨s', suspended, eq⟩ := Option.map_eq_some_iff.mp called
      subst eq
      left
      refine ⟨rfl, ?_, ?_⟩
      · simpa [careful, registered, suspended] using allowed
      · intro handling
        obtain ⟨_, _, _, _, found, must⟩ := final.linked.running task s' suspended
        have place : s'.pc = .shutdown := handling
        have thrown := must (Or.inr (by rw [place]; trivial))
        rw [drain] at found
        cases found
        contradiction
    · intro calm
      contradiction
    · intro a t other stays
      have otherAccount : a ≠ account := by
        intro same
        rw [same, registered] at stays
        exact other (Option.some.inj stays).symm
      dsimp only
      rw [running, Function.update_of_ne otherAccount]
      exact stays
    · intro t a mem
      split
      · exact Or.inl rfl
      · rename_i other
        rcases List.mem_cons.mp mem with new | old
        · cases new
          contradiction
        · exact old
    · intro newer t a older split r mem
      rcases cons_split split with ⟨empty, _, _⟩ | ⟨newer', grown, rest⟩
      · simp [empty] at mem
      · rw [grown] at mem
        rcases List.mem_cons.mp mem with new | old
        · simp [new, Record.actor]
        · exact final.quiet newer' t a older rest r old
    · intro t a taker mem
      exact final.served t a taker (by simpa using mem)

/- What a task that is not cancelled writes. -/
theorem writes_final {w w' : World} {task account : Nat} {phase : Phase} (final : Final w)
    (found : w.requests.tasks task = some ⟨account, phase, false⟩) (active : phase ≠ .done)
    (requests : w'.requests = w.requests) (syncs : w'.syncs = w.syncs) {extra : List Record}
    (log : w'.log = extra ++ w.log)
    (own : ∀ r ∈ extra, r = .wroteErrors task ∨ r = .wroteStatus task) : Final w' := by
  have notRetired := not_retired final found active
  have actors : ∀ r ∈ extra, r.actor = some task := by
    intro r mem
    rcases own r mem with rfl | rfl <;> rfl
  have old : ∀ {t a}, .retired t a ∈ w'.log → .retired t a ∈ w.log := by
    intro t a mem
    rw [log] at mem
    rcases List.mem_append.mp mem with new | old
    · rcases own _ new with same | same <;> contradiction
    · exact old
  refine ⟨linked_frame final.linked (requests ▸ final.linked.requests) (by rw [requests]) syncs,
    ?_, ?_, ?_, ?_, ?_⟩
  · rw [requests, syncs]
    exact final.doomed
  · rw [requests]
    exact final.live
  · intro t a mem
    rw [requests]
    exact final.retired t a (old mem)
  · rw [log]
    exact quiet_more extra final.quiet actors notRetired
  · intro t a taker mem
    rw [log] at mem
    rcases List.mem_append.mp mem with new | old
    · rcases own _ new with same | same <;> contradiction
    · exact final.served t a taker old

/- The task stays in its pass, on the way out if it was cancelled. -/
theorem suspend_final {w : World} {task account : Nat} {scope : Scope} {activity : Nat}
    {cancelled : Bool} {s : Sync} (final : Final w)
    (linked : Linked { w with syncs := Function.update w.syncs task (some s) })
    (found : w.requests.tasks task = some ⟨account, .inPass scope activity, cancelled⟩)
    (further : cancelled = true → Unwinding s) :
    Final { w with syncs := Function.update w.syncs task (some s) } := by
  have same : w.requests.tasks = Function.update w.requests.tasks task
      (some ⟨account, .inPass scope activity, cancelled⟩) := by
    rw [← found, Function.update_eq_self]
  refine final_update final linked same rfl ?_ ?_ (fun _ _ _ stays => stays) ?_ final.quiet
    final.served
  · intro x _ _ call _ isCancelled
    cases call
    exact Or.inr (further isCancelled)
  · intro calm active
    exact final.live task account _ (calm ▸ found) active
  · intro t a mem
    split
    · rename_i own
      obtain ⟨drain, found', gone⟩ := final.retired t a mem
      rw [own, found] at found'
      cases found'
      exact gone
    · exact mem

theorem answer_final {w w' : World} {task : Nat} {a : Answer} (final : Final w)
    (allowed : careful w (.answer task a) = true) (step : next w (.answer task a) = some w') :
    Final w' := by
  have linked := answer_linked final.linked step
  obtain ⟨account, scope, activity, cancelled, s, s', writes, found, suspended, resumed, eq⟩ :=
    answer_cases step
  obtain ⟨requests, syncs, extra, log, own⟩ := writes_frame task account writes w
  have written : Final (writes.foldl (applyWrite task account) w) ∧
      (cancelled = true → Unwinding s') := by
    cases cancelled with
    | true =>
      have clean : ∀ e, a = .fail e → s.pc ≠ .awaitOpening ∧ s.pc ≠ .closeSession .cancelled := by
        intro e failed
        subst failed
        simpa [careful, suspended] using allowed
      obtain ⟨further, silent⟩ :=
        unwind_resume (final.doomed task s account scope activity suspended found) clean resumed
      subst silent
      exact ⟨final, fun _ => further⟩
    | false =>
      refine ⟨writes_final final found ?_ requests syncs log own, ?_⟩
      · simp
      · intro isCancelled
        contradiction
  obtain ⟨written, further⟩ := written
  rw [← requests] at found
  rw [eq] at linked ⊢
  rcases proceed_cases (writes.foldl (applyWrite task account) w) task account activity s' with
    ⟨_, stays⟩ | ⟨leave, pc, leaves⟩
  · rw [stays] at linked ⊢
    exact suspend_final written linked found further
  · rw [leaves] at linked ⊢
    -- Only CancelledError gets a cancelled task out of its pass.
    have calm : leave ≠ .cancelled → cancelled = false := by
      intro other
      cases cancelled with
      | false => rfl
      | true =>
        obtain ⟨_, place⟩ := further rfl
        rw [pc] at place
        cases leave with
        | cancelled => contradiction
        | _ => exact place.elim
    cases leave with
    | returned =>
      have active := calm (by simp)
      exact moves_final written linked (returned_moves _ task account activity) found rfl
        (by simp) (Or.inl active)
    | raised exception =>
      have active := calm (by simp)
      subst active
      have reported : Final (applyWrite task account (writes.foldl (applyWrite task account) w)
          (.accountError (safeError exception))) := by
        have one : ∀ v : World, (applyWrite task account v
            (.accountError (safeError exception))).log = [.wroteErrors task] ++ v.log :=
          fun _ => rfl
        refine writes_final written found ?_ ?_ ?_ (one _) ?_
        · simp
        · rfl
        · rfl
        · simp
      rw [raised_returned] at linked ⊢
      exact moves_final reported linked (returned_moves _ task account activity) found rfl
        (by simp) (Or.inl rfl)
    | cancelled =>
      exact moves_final written linked (cancelled_moves _ task account activity) found rfl
        (by simp) (Or.inr rfl)

theorem next_final {w w' : World} {l : Label} (final : Final w) (allowed : careful w l = true)
    (step : next w l = some w') : Final w' := by
  have linked := next_linked final.linked step
  cases l with
  | request account folders discover parent now =>
    cases step
    exact request_final final account folders discover parent now
  | cancel account =>
    cases step
    exact cancel_final final allowed
  | start task =>
    simp only [next] at step
    split at step
    · rename_i account found
      cases step
      exact moves_final final linked (enter_loop_moves w task account) found rfl (by simp)
        (Or.inl rfl)
    · rename_i account found
      cases step
      exact moves_final final linked (abandon_moves final.linked found) found rfl (by simp)
        (Or.inr rfl)
    · contradiction
  | answer task a => exact answer_final final allowed step
  | doneCallback task =>
    obtain ⟨requests, stepped, eq⟩ := Option.map_eq_some_iff.mp step
    subst eq
    simp only [InboxRequests.next] at stepped
    split at stepped
    · cases stepped
      refine final_frame final linked ?_ ?_ ?_ ?_
      all_goals rfl
    · contradiction

theorem initial_final : Final .initial where
  linked := initial_linked
  doomed t s account scope activity call := by contradiction
  live t account phase found := by contradiction
  retired t account mem := by contradiction
  quiet newer t account older split := by
    have empty : ([] : List Record) = newer ++ .retired t account :: older := split
    simp at empty
  served t account registered mem := by contradiction

theorem run_final {labels : List Label} {w : World}
    (run : replay (restrict careful next) .initial labels = some w) : Final w := by
  apply replay_invariant Final initial_final _ run
  intro t l u final step
  obtain ⟨allowed, stepped⟩ := restrict_step step
  exact next_final final allowed stepped

/-- A task that `cancel_account` retired takes nothing and writes nothing any more, and a
    request is only taken by the task that is registered for the account. -/
theorem cancellation_is_final {labels : List Label} {w : World}
    (run : replay (restrict careful next) .initial labels = some w) :
    (∀ newer task account older, w.log = newer ++ .retired task account :: older →
      (∀ a registered, .taken task a registered ∉ newer) ∧ .wroteErrors task ∉ newer ∧
        .wroteStatus task ∉ newer) ∧
    ∀ task account registered, .taken task account registered ∈ w.log →
      registered = some task := by
  have final := run_final run
  constructor
  · intro newer task account older split
    have quiet := final.quiet newer task account older split
    refine ⟨?_, ?_, ?_⟩
    · intro a registered taken
      exact quiet _ taken rfl
    · intro wrote
      exact quiet _ wrote rfl
    · intro wrote
      exact quiet _ wrote rfl
  · exact final.served

/- The account is cancelled while its task waits for the connection, and synced again. -/
def restart : List Label :=
  [.request 1 none true none 100, .start 0, .answer 0 .ok, .answer 0 .ok,
    .answer 0 (.account (some [7])), .cancel 1, .request 1 none true none 101,
    .answer 0 .cancelled, .start 1, .request 1 none true none 102]

theorem cancellation_is_final_restart : ∃ w newer older,
    replay (restrict careful next) .initial
      (restart ++ [.answer 0 .ok, .answer 0 .ok, .answer 0 .ok, .answer 0 .ok]) = some w ∧
    w.log = newer ++ .retired 0 1 :: older ∧ newer = [.taken 1 1 (some 1)] ∧
    w.requests.running 1 = some 1 ∧ (w.requests.pending 1).isSome ∧
    (∀ a registered, .taken 0 a registered ∉ newer) ∧ .wroteErrors 0 ∉ newer ∧
    .wroteStatus 0 ∉ newer := by
  have ends : ∃ w, replay (restrict careful next) .initial
      (restart ++ [.answer 0 .ok, .answer 0 .ok, .answer 0 .ok, .answer 0 .ok]) = some w ∧
      w.log = [.taken 1 1 (some 1)] ++ .retired 0 1 :: [.taken 0 1 (some 0)] ∧
      w.requests.running 1 = some 1 ∧ (w.requests.pending 1).isSome := ⟨_, rfl, rfl, rfl, rfl⟩
  obtain ⟨w, run, log, registered, waiting⟩ := ends
  have promises := cancellation_is_final run
  exact ⟨w, _, _, run, log, rfl, registered, waiting, promises.1 _ 0 1 _ log⟩

/- The connection attempt fails, or the cancellation finds the task at the rollback after
   an exception. -/
theorem replaced_or_late_cancellation_writes :
    (∃ w, replay next .initial (restart ++ [.answer 0 (.fail "OSError"), .answer 0 .ok,
        .answer 0 .ok, .answer 0 .ok, .answer 0 .ok]) = some w ∧
      w.log = [.taken 0 1 (some 1), .wroteStatus 0, .wroteErrors 0, .taken 1 1 (some 1),
        .retired 0 1, .taken 0 1 (some 0)] ∧
      w.accountErrors 1 = some (safeError "OSError") ∧
      w.lastSync 1 = some (lastSyncOf [safeError "OSError"])) ∧
    ∃ w, replay next .initial [.request 1 none true none 100, .start 0, .answer 0 .ok,
        .answer 0 .ok, .answer 0 (.account (some [7])), .answer 0 (.fail "OSError"), .cancel 1,
        .answer 0 .cancelled] = some w ∧
      w.log = [.wroteStatus 0, .retired 0 1, .wroteErrors 0, .taken 0 1 (some 0)] ∧
      w.lastSync 1 = some (lastSyncOf [safeError "OSError"]) :=
  ⟨⟨_, rfl, rfl, rfl, rfl⟩, _, rfl, rfl, rfl⟩

end InboxFinalCancellation
