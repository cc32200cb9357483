import InboxOne.WatcherStops

/-!
What becomes of the responses that a server sends during IDLE. Those that idle_check
returns lead to a request once IDLE runs again; those that only idle_done returns are
dropped, which matters when a renewal is due to the timer alone.
-/
namespace InboxIdleEvents
open LabelledRuns InboxWatcher

/-- No response arrives while a renewal that is due to the timer ends the IDLE command. -/
def quietRenewal (s : Scheduler) : Label → Bool
  | .report task _ =>
      match s.tasks task with
      | none => true
      | some w => w.pc ≠ .idleDone []
  | _ => true

def Effect.IsFailure : Effect → Prop
  | .publish values => values.state = .error ∨ values.state = .reconnecting
  | _ => False

/-- In how many resumptions the watcher requests a sync for what it was told. -/
def requestRank (w : Watch) : Option Nat :=
  match w.pc with
  | .idle => some 1
  | .reIdle responses =>
      if responses ≠ [] then some 1 else if w.received ≠ [] then some 4 else none
  | .idleDone responses => if responses ≠ [] then some 2 else none
  | .idleCheck => if w.received ≠ [] then some 3 else none
  | _ => none

theorem request_rank_bounds {w : Watch} {k : Nat} (rank : requestRank w = some k) :
    1 ≤ k ∧ k ≤ 4 := by
  unfold requestRank at rank
  split at rank
  · obtain rfl := Option.some.inj rank
    omega
  · split at rank
    · obtain rfl := Option.some.inj rank
      omega
    · split at rank
      · obtain rfl := Option.some.inj rank
        omega
      · contradiction
  · split at rank
    · obtain rfl := Option.some.inj rank
      omega
    · contradiction
  · split at rank
    · obtain rfl := Option.some.inj rank
      omega
    · contradiction
  · contradiction

theorem handler_fails (w : Watch) (exception : String) :
    ∃ e ∈ (handler w exception).2, Effect.IsFailure e := by
  refine ⟨_, List.mem_cons_self, ?_⟩
  simp only [Effect.IsFailure]
  split
  · exact Or.inl rfl
  · exact Or.inr rfl

/- What a resumption does for the responses that wait. -/
def Answers (effects : List Effect) (w' : Watch) (k : Nat) : Prop :=
  .requestSync ∈ effects ∨ (∃ e ∈ effects, Effect.IsFailure e) ∨
    ∃ k' < k, requestRank w' = some k'

theorem rank_resume {w w' : Watch} {a : Answer} {effects : List Effect} {k : Nat}
    (calm : w.mustCancel = false) (rank : requestRank w = some k)
    (step : resume w a = some (w', effects)) : Answers effects w' k := by
  have failure : ∀ {exception : String}, handler w exception = (w', effects) →
      Answers effects w' k := by
    intro exception same
    have fails := handler_fails w exception
    rw [same] at fails
    exact Or.inr (Or.inl fails)
  unfold resume at step
  rw [if_neg (by simp [calm])] at step
  cases pc : w.pc with
  | idle =>
    cases a with
    | ok =>
      simp only [pc, Option.some.injEq, Prod.mk.injEq] at step
      obtain ⟨_, rfl⟩ := step
      exact Or.inl (by simp)
    | fail e =>
      simp only [pc, Option.some.injEq] at step
      exact failure step
    | _ => simp [pc] at step
  | idleCheck =>
    have some_received : w.received ≠ [] := by
      intro none
      simp [requestRank, pc, none] at rank
    have three : k = 3 := by
      simp only [requestRank, pc, if_pos some_received, Option.some.injEq] at rank
      exact rank.symm
    cases a with
    | checked elapsed =>
      simp only [pc, Option.some.injEq] at step
      unfold afterCheck at step
      simp only at step
      split at step
      · have fails := handler_fails { w with received := [] } "ConnectionError"
        rw [step] at fails
        exact Or.inr (Or.inl fails)
      · rw [if_pos (Or.inl some_received), Prod.mk.injEq] at step
        obtain ⟨rfl, _⟩ := step
        exact Or.inr (Or.inr ⟨2, by omega, by simp [requestRank, some_received]⟩)
    | fail e =>
      simp only [pc, Option.some.injEq] at step
      exact failure step
    | _ => simp [pc] at step
  | idleDone responses =>
    have some_responses : responses ≠ [] := by
      intro none
      simp [requestRank, pc, none] at rank
    have two : k = 2 := by
      simp only [requestRank, pc, if_pos some_responses, Option.some.injEq] at rank
      exact rank.symm
    cases a with
    | ok =>
      simp only [pc, Option.some.injEq, Prod.mk.injEq] at step
      obtain ⟨rfl, _⟩ := step
      exact Or.inr (Or.inr ⟨1, by omega, by simp [requestRank, some_responses]⟩)
    | fail e =>
      simp only [pc, Option.some.injEq] at step
      exact failure step
    | _ => simp [pc] at step
  | reIdle responses =>
    cases a with
    | ok =>
      simp only [pc, Option.some.injEq, Prod.mk.injEq] at step
      obtain ⟨rfl, rfl⟩ := step
      by_cases some_responses : responses ≠ []
      · exact Or.inl (by simp [some_responses])
      · have some_received : w.received ≠ [] := by
          intro none
          simp [requestRank, pc, some_responses, none] at rank
        have four : k = 4 := by
          simp only [requestRank, pc, if_neg some_responses, if_pos some_received,
            Option.some.injEq] at rank
          exact rank.symm
        exact Or.inr (Or.inr ⟨3, by omega, by simp [requestRank, some_received]⟩)
    | fail e =>
      simp only [pc, Option.some.injEq] at step
      exact failure step
    | _ => simp [pc] at step
  | _ => simp [requestRank, pc] at rank

theorem after_finally_no_renewal (w : Watch) (again : Bool) :
    (afterFinally w again).1.pc ≠ .idleDone [] := by
  cases again <;> simp [afterFinally, iterate, outerFinally]

theorem inner_finally_no_renewal (w : Watch) (again : Bool) :
    (innerFinally w again).1.pc ≠ .idleDone [] := by
  unfold innerFinally
  cases w.client with
  | some client => simp
  | none => exact after_finally_no_renewal w again

theorem throw_no_renewal (w : Watch) : (throwCancelled w).1.pc ≠ .idleDone [] := by
  unfold throwCancelled
  cases w.pc <;> first | exact inner_finally_no_renewal _ _ | simp [outerFinally]

theorem after_session_no_renewal (w : Watch) (leave : Leave) :
    (afterSession w leave).1.pc ≠ .idleDone [] := by
  cases leave with
  | proceed => simp [afterSession]
  | returned => exact inner_finally_no_renewal w false
  | raised exception => simp [afterSession, handler]
  | cancelled => exact inner_finally_no_renewal w false

theorem after_check_received (w : Watch) (elapsed : Bool) :
    (afterCheck w elapsed).1.received = [] := by
  unfold afterCheck
  simp only
  split
  · rfl
  · split <;> rfl

/- A renewal that is due to the timer starts with nothing received. -/
theorem resume_renewal {w w' : Watch} {a : Answer} {effects : List Effect}
    (step : resume w a = some (w', effects)) (renewal : w'.pc = .idleDone []) :
    w'.received = [] := by
  unfold resume at step
  split at step
  · split at step
    · have same : (throwCancelled w).1 = w' := congrArg Prod.fst (Option.some.inj step)
      exact absurd (same ▸ renewal) (throw_no_renewal w)
    · contradiction
  · split at step
    all_goals first
      | contradiction
      | have same := congrArg Prod.fst (Option.some.inj step)
        subst same
        first
          | exact after_check_received _ _
          | exact absurd renewal (after_session_no_renewal _ _)
          | exact absurd renewal (after_finally_no_renewal _ _)
          | exact absurd renewal (inner_finally_no_renewal _ _)
          | simp [iterate, handler] at renewal

/-- Some response came that no request, failure or stop has followed. -/
def outstanding (task : Nat) : List Record → Prop
  | [] => False
  | .reported t _ :: older => t = task ∨ outstanding task older
  | .stopped t :: older => t ≠ task ∧ outstanding task older
  | .effect t e :: older =>
      ¬ (t = task ∧ (e = .requestSync ∨ Effect.IsFailure e)) ∧ outstanding task older

theorem outstanding_effects {task t : Nat} {effects : List Effect} {log : List Record}
    (waits : outstanding task ((effects.map (Record.effect t)).reverse ++ log)) :
    outstanding task log ∧ (t = task → .requestSync ∉ effects ∧
      ∀ e ∈ effects, ¬ Effect.IsFailure e) := by
  induction effects using List.reverseRecOn with
  | nil => exact ⟨waits, by simp⟩
  | append_singleton earlier e ih =>
    rw [List.map_append, List.reverse_append] at waits
    obtain ⟨not, rest⟩ := waits
    obtain ⟨older, quiet⟩ := ih rest
    refine ⟨older, ?_⟩
    intro same
    obtain ⟨noRequest, noFailure⟩ := quiet same
    constructor
    · intro mem
      rcases List.mem_append.mp mem with inside | last
      · exact noRequest inside
      · exact not ⟨same, Or.inl (List.mem_singleton.mp last).symm⟩
    · intro x mem failure
      rcases List.mem_append.mp mem with inside | last
      · exact noFailure x inside failure
      · exact not ⟨same, Or.inr (List.mem_singleton.mp last ▸ failure)⟩

theorem reported_outstanding {task : Nat} {newer older : List Record} {r : Untagged}
    (unanswered : ∀ e, .effect task e ∈ newer → e ≠ .requestSync ∧ ¬ Effect.IsFailure e)
    (running : .stopped task ∉ newer) :
    outstanding task (newer ++ .reported task r :: older) := by
  induction newer with
  | nil => exact Or.inl rfl
  | cons record newer ih =>
    have rest := ih (fun e mem => unanswered e (List.mem_cons_of_mem _ mem))
      (fun mem => running (List.mem_cons_of_mem _ mem))
    cases record with
    | reported t r' => exact Or.inr rest
    | stopped t =>
      refine ⟨?_, rest⟩
      intro same
      exact running (same ▸ List.mem_cons_self)
    | effect t e =>
      refine ⟨?_, rest⟩
      rintro ⟨same, clears⟩
      obtain ⟨noRequest, noFailure⟩ := unanswered e (same ▸ List.mem_cons_self)
      exact clears.elim noRequest noFailure

/- Whatever a running watcher was told waits in its buffer or in a renewal that will
   request a sync. -/
structure Heard (s : Scheduler) : Prop where
  heard : ∀ t, outstanding t s.log → ∃ w, s.tasks t = some w ∧
    (w.cancelling = false → ∃ k, requestRank w = some k)
  drained : ∀ t w, s.tasks t = some w → w.pc = .idleDone [] → w.received = []
  calm : ∀ t w, s.tasks t = some w → w.mustCancel = true → w.cancelling = true
  unspawned : ∀ t, s.spawned ≤ t → s.tasks t = none

theorem initial_heard : Heard .initial := by
  constructor <;> simp [Scheduler.initial, outstanding]

theorem report_rank {w : Watch} (listening : w.pc.Listening = true)
    (notRenewal : w.pc ≠ .idleDone []) (r : Untagged) :
    ∃ k, requestRank { w with received := w.received ++ [r] } = some k := by
  cases pc : w.pc with
  | idle => exact ⟨1, by simp [requestRank]⟩
  | idleCheck => exact ⟨3, by simp [requestRank]⟩
  | idleDone responses =>
    have some_responses : responses ≠ [] := by
      intro none
      exact notRenewal (none ▸ pc)
    exact ⟨2, by simp [requestRank, some_responses]⟩
  | reIdle responses =>
    by_cases some_responses : responses ≠ []
    · exact ⟨1, by simp [requestRank, some_responses]⟩
    · exact ⟨4, by simp [requestRank, some_responses]⟩
  | _ => simp [Pc.Listening, pc] at listening

theorem report_keeps_rank {w : Watch} {k : Nat} (rank : requestRank w = some k) (r : Untagged) :
    requestRank { w with received := w.received ++ [r] } = some k := by
  have received : w.received ++ [r] ≠ [] := by simp
  unfold requestRank at rank ⊢
  cases pc : w.pc with
  | reIdle responses =>
    rw [pc] at rank
    simp only at rank ⊢
    split at rank
    · rename_i some_responses
      rw [if_pos some_responses]
      exact rank
    · rename_i no_responses
      split at rank
      · rw [if_neg no_responses, if_pos received]
        exact rank
      · contradiction
  | idleCheck =>
    rw [pc] at rank
    simp only at rank ⊢
    split at rank
    · rw [if_pos received]
      exact rank
    · contradiction
  | idle | idleDone =>
    rw [pc] at rank
    exact rank
  | _ =>
    rw [pc] at rank
    contradiction

theorem rewrite_heard {s s' : Scheduler} (heard : Heard s) {task : Nat} {w w' : Watch}
    (found : s.tasks task = some w)
    (tasks : s'.tasks = Function.update s.tasks task (some w')) (spawned : s'.spawned = s.spawned)
    (others : ∀ t, t ≠ task → outstanding t s'.log → outstanding t s.log)
    (own : outstanding task s'.log → w'.cancelling = false → ∃ k, requestRank w' = some k)
    (drained : w'.pc = .idleDone [] → w'.received = [])
    (calm : w'.mustCancel = true → w'.cancelling = true) : Heard s' := by
  have cases_task : ∀ {t x}, s'.tasks t = some x →
      (t = task ∧ x = w') ∨ (t ≠ task ∧ s.tasks t = some x) := by
    intro t x eq
    rw [tasks] at eq
    exact written_cell eq
  constructor
  · intro t waits
    rw [tasks]
    by_cases same : t = task
    · subst same
      exact ⟨w', Function.update_self .., own waits⟩
    · rw [Function.update_of_ne same]
      exact heard.heard t (others t same waits)
  · intro t x eq renewal
    rcases cases_task eq with ⟨_, rfl⟩ | ⟨_, old⟩
    · exact drained renewal
    · exact heard.drained t x old renewal
  · intro t x eq must
    rcases cases_task eq with ⟨_, rfl⟩ | ⟨_, old⟩
    · exact calm must
    · exact heard.calm t x old must
  · intro t above
    rw [spawned] at above
    have none := heard.unspawned t above
    have other : t ≠ task := by
      intro same
      rw [same, found] at none
      contradiction
    rw [tasks, Function.update_of_ne other]
    exact none

theorem tables_heard {s s' : Scheduler} (heard : Heard s) (tasks : s'.tasks = s.tasks)
    (spawned : s'.spawned = s.spawned) (log : s'.log = s.log) : Heard s' := by
  constructor
  · rw [tasks, log]
    exact heard.heard
  · rw [tasks]
    exact heard.drained
  · rw [tasks]
    exact heard.calm
  · rw [tasks, spawned]
    exact heard.unspawned

theorem not_cancelled_calm {s : Scheduler} (heard : Heard s) {task : Nat} {w : Watch}
    (found : s.tasks task = some w) (running : w.cancelling = false) : w.mustCancel = false := by
  cases must : w.mustCancel with
  | false => rfl
  | true =>
    rw [heard.calm task w found must] at running
    contradiction

theorem answer_heard {s s' : Scheduler} (heard : Heard s) {task : Nat} {a : Answer}
    (step : next s (.answer task a) = some s') : Heard s' := by
  obtain ⟨w, w', effects, answer, resumed⟩ := answer_step step
  have keeps := resume_keeps answer
  refine rewrite_heard heard resumed.found resumed.tasks resumed.spawned ?_ ?_ ?_ ?_
  · intro t _ waits
    rw [resumed.log] at waits
    exact (outstanding_effects waits).1
  · intro waits running
    rw [resumed.log] at waits
    obtain ⟨older, unanswered⟩ := outstanding_effects waits
    obtain ⟨noRequest, noFailure⟩ := unanswered rfl
    obtain ⟨x, found, ranked⟩ := heard.heard task older
    have same : x = w := Option.some.inj (found.symm.trans resumed.found)
    subst same
    have wasRunning : x.cancelling = false := keeps.cancelling.symm.trans running
    obtain ⟨k, rank⟩ := ranked wasRunning
    rcases rank_resume (not_cancelled_calm heard found wasRunning) rank answer with
      request | ⟨e, mem, failure⟩ | ⟨k', _, rank'⟩
    · exact absurd request noRequest
    · exact absurd failure (noFailure e mem)
    · exact ⟨k', rank'⟩
  · exact resume_renewal answer
  · intro must
    rw [keeps.thrown] at must
    contradiction

theorem stop_heard {s : Scheduler} (heard : Heard s) (folder : Nat) :
    Heard (stopFolder s folder) := by
  refine tables_heard (s := stopTask { s with
    clients := Function.update s.clients folder none } folder) ?_ rfl rfl rfl
  have closed : Heard { s with clients := Function.update s.clients folder none } :=
    tables_heard heard rfl rfl rfl
  rcases stop_task_cases { s with clients := Function.update s.clients folder none } folder with
    ⟨tasks, spawned, log⟩ | ⟨task, w, _, found, tasks, spawned, log⟩
  · exact tables_heard closed tasks spawned log
  · refine rewrite_heard closed found tasks spawned ?_ ?_ ?_ ?_
    · intro t _ waits
      rw [log] at waits
      exact waits.2
    · intro _ running
      contradiction
    · exact closed.drained task w found
    · intro _
      rfl

theorem spawn_heard {s : Scheduler} (heard : Heard s) (account folder : Nat) (path : String) :
    Heard (spawnWatcher s account folder path) := by
  have other : ∀ {t w}, s.tasks t = some w → t ≠ s.spawned := by
    intro t w found same
    rw [heard.unspawned t (Nat.le_of_eq same.symm)] at found
    contradiction
  have cases_task : ∀ {t w}, (spawnWatcher s account folder path).tasks t = some w →
      w = ⟨account, folder, path, .created, none, [], false, false⟩ ∨ s.tasks t = some w := by
    intro t w found
    rcases written_cell found with ⟨_, new⟩ | ⟨_, old⟩
    · exact Or.inl new
    · exact Or.inr old
  constructor
  · intro t waits
    obtain ⟨w, found, ranked⟩ := heard.heard t waits
    exact ⟨w, (Function.update_of_ne (other found) ..).trans found, ranked⟩
  · intro t w found renewal
    rcases cases_task found with rfl | old
    · contradiction
    · exact heard.drained t w old renewal
  · intro t w found must
    rcases cases_task found with rfl | old
    · contradiction
    · exact heard.calm t w old must
  · intro t above
    simp only [spawnWatcher] at above ⊢
    have differs : t ≠ s.spawned := by omega
    rw [Function.update_of_ne differs]
    exact heard.unspawned t (by omega)

theorem next_heard {s s' : Scheduler} {l : Label} (heard : Heard s)
    (step : restrict quietRenewal next s l = some s') : Heard s' := by
  obtain ⟨quiet, step⟩ := restrict_step step
  cases l with
  | spawn account folder path =>
    obtain ⟨_, rfl⟩ := spawn_step step
    exact spawn_heard heard account folder path
  | stop folder =>
    obtain rfl := stop_step step
    exact stop_heard heard folder
  | answer task a => exact answer_heard heard step
  | report task response =>
    obtain ⟨w, found, listening, rfl⟩ := report_step step
    have notRenewal : w.pc ≠ .idleDone [] := by simpa [quietRenewal, found] using quiet
    refine rewrite_heard heard found rfl rfl ?_ ?_ ?_ ?_
    · intro t other waits
      exact waits.resolve_left (Ne.symm other)
    · intro _ _
      exact report_rank listening notRenewal response
    · intro renewal
      exact absurd renewal notRenewal
    · exact heard.calm task w found
  | doneCallback task =>
    obtain ⟨_, _, _, rfl⟩ := callback_step step
    exact tables_heard heard rfl rfl rfl

theorem run_heard {s : Scheduler} {labels : List Label}
    (run : replay (restrict quietRenewal next) .initial labels = some s) : Heard s :=
  replay_invariant Heard initial_heard (fun _ _ _ heard step => next_heard heard step) run

/- The watcher was told something and has neither failed nor been stopped. -/
def Told (task : Nat) (s : Scheduler) (k : Nat) : Prop :=
  ∃ w, s.tasks task = some w ∧ w.cancelling = false ∧ w.mustCancel = false ∧
    requestRank w = some k

/-- A request of the watcher, its failure or its stop is among the records. -/
def Settled (task : Nat) (records : List Record) : Prop :=
  .effect task .requestSync ∈ records ∨
    (∃ e, .effect task e ∈ records ∧ Effect.IsFailure e) ∨ .stopped task ∈ records

theorem Settled.mono {task : Nat} {records more : List Record} (settled : Settled task records) :
    Settled task (more ++ records) := by
  rcases settled with request | ⟨e, mem, failure⟩ | stopped
  · exact Or.inl (List.mem_append_right _ request)
  · exact Or.inr (Or.inl ⟨e, List.mem_append_right _ mem, failure⟩)
  · exact Or.inr (Or.inr (List.mem_append_right _ stopped))

/- Each step settles what the watcher was told or uses up a resumption. -/
theorem told_step {s s' : Scheduler} {l : Label} {task k : Nat} (heard : Heard s)
    (told : Told task s k) (step : next s l = some s') :
    ∃ records, s'.log = records ++ s.log ∧
      (Settled task records ∨ ∃ k', Told task s' k' ∧ k' + resumes task l ≤ k) := by
  obtain ⟨w, found, running, calm, rank⟩ := told
  cases l with
  | spawn account folder path =>
    obtain ⟨_, rfl⟩ := spawn_step step
    have other : task ≠ s.spawned := by
      intro same
      rw [heard.unspawned task (Nat.le_of_eq same.symm)] at found
      contradiction
    exact ⟨[], rfl, Or.inr ⟨k, ⟨w, (Function.update_of_ne other ..).trans found, running, calm,
      rank⟩, Nat.le_refl _⟩⟩
  | stop folder =>
    obtain rfl := stop_step step
    rcases stop_task_cases { s with clients := Function.update s.clients folder none } folder with
      ⟨tasks, _, log⟩ | ⟨t, x, _, known, tasks, _, log⟩
    · refine ⟨[], log, Or.inr ⟨k, ⟨w, ?_, running, calm, rank⟩, Nat.le_refl _⟩⟩
      exact (congrFun tasks task).trans found
    · by_cases same : t = task
      · subst same
        exact ⟨[.stopped t], log, Or.inl (Or.inr (Or.inr List.mem_cons_self))⟩
      · refine ⟨[.stopped t], log, Or.inr ⟨k, ⟨w, ?_, running, calm, rank⟩, Nat.le_refl _⟩⟩
        exact (congrFun tasks task).trans
          ((Function.update_of_ne (Ne.symm same) ..).trans found)
  | answer t a =>
    obtain ⟨x, x', effects, answer, resumed⟩ := answer_step step
    refine ⟨_, resumed.log, ?_⟩
    by_cases same : t = task
    · subst same
      have eq : x = w := Option.some.inj (resumed.found.symm.trans found)
      subst eq
      have keeps := resume_keeps answer
      have recorded : ∀ {e}, e ∈ effects →
          Record.effect t e ∈ (effects.map (Record.effect t)).reverse := by
        intro e mem
        rw [List.mem_reverse]
        exact List.mem_map_of_mem mem
      rcases rank_resume calm rank answer with request | ⟨e, mem, failure⟩ | ⟨k', less, rank'⟩
      · exact Or.inl (Or.inl (recorded request))
      · exact Or.inl (Or.inr (Or.inl ⟨e, recorded mem, failure⟩))
      · refine Or.inr ⟨k', ⟨x', ?_, keeps.cancelling.trans running, keeps.thrown, rank'⟩, ?_⟩
        · rw [resumed.tasks]
          exact Function.update_self ..
        · rw [resumes, if_pos rfl]
          exact less
    · refine Or.inr ⟨k, ⟨w, ?_, running, calm, rank⟩, ?_⟩
      · rw [resumed.tasks, Function.update_of_ne (Ne.symm same)]
        exact found
      · rw [resumes, if_neg same]
        exact Nat.le_refl _
  | report t response =>
    obtain ⟨x, known, _, rfl⟩ := report_step step
    refine ⟨[.reported t response], rfl, Or.inr ⟨k, ?_, Nat.le_refl _⟩⟩
    by_cases same : t = task
    · subst same
      have eq : x = w := Option.some.inj (known.symm.trans found)
      subst eq
      exact ⟨_, Function.update_self .., running, calm, report_keeps_rank rank response⟩
    · exact ⟨w, (Function.update_of_ne (Ne.symm same) ..).trans found, running, calm, rank⟩
  | doneCallback t =>
    obtain ⟨_, _, _, rfl⟩ := callback_step step
    exact ⟨[], rfl, Or.inr ⟨k, ⟨w, found, running, calm, rank⟩, Nat.le_refl _⟩⟩

theorem told_run (task : Nat) (more : List Label) : ∀ {s s' : Scheduler} {k : Nat}, Heard s →
    Told task s k → replay (restrict quietRenewal next) s more = some s' →
    ∃ records, s'.log = records ++ s.log ∧
      (Settled task records ∨ resumptions task more < k) := by
  induction more with
  | nil =>
    intro s s' k _ told run
    rw [replay_nil, Option.some.injEq] at run
    obtain ⟨w, _, _, _, rank⟩ := told
    have positive := (request_rank_bounds rank).1
    exact ⟨[], by rw [run, List.nil_append], Or.inr positive⟩
  | cons l rest ih =>
    intro s s' k heard told run
    rw [replay_cons] at run
    obtain ⟨t, step, run⟩ := Option.bind_eq_some_iff.mp run
    have heard' := next_heard heard step
    obtain ⟨records, log, settled | ⟨k', told', paid⟩⟩ :=
      told_step heard told (restrict_step step).2
    · obtain ⟨later, grows⟩ := run_log_grows run
      exact ⟨later ++ records, by rw [grows, log, List.append_assoc], Or.inl settled.mono⟩
    · obtain ⟨later, log', settled | fewer⟩ := ih heard' told' run
      · refine ⟨later ++ records, by rw [log', log, List.append_assoc], Or.inl ?_⟩
        rcases settled with request | ⟨e, mem, failure⟩ | stopped
        · exact Or.inl (List.mem_append_left _ request)
        · exact Or.inr (Or.inl ⟨e, List.mem_append_left _ mem, failure⟩)
        · exact Or.inr (Or.inr (List.mem_append_left _ stopped))
      · refine ⟨later ++ records, by rw [log', log, List.append_assoc], Or.inr ?_⟩
        simp only [resumptions, List.map_cons, List.foldr_cons] at fewer ⊢
        omega

/- In a run where no response arrives while a timer-driven renewal ends the IDLE command,
   every response is followed by a request, a failure or a stop by the time the watcher
   has been resumed four times, and a watcher that idles with nothing received has
   answered everything. -/
theorem idle_misses_nothing {s : Scheduler} {labels : List Label}
    (run : replay (restrict quietRenewal next) .initial labels = some s) (task : Nat)
    (newer older : List Record) (response : Untagged)
    (log : s.log = newer ++ .reported task response :: older)
    (w : Watch) (found : s.tasks task = some w) (running : w.cancelling = false) :
    (w.pc = .idleCheck → w.received = [] → Settled task newer) ∧
    ∀ more s', replay (restrict quietRenewal next) s more = some s' →
      4 ≤ resumptions task more →
      ∃ records, s'.log = records ++ .reported task response :: older ∧
        Settled task records := by
  have heard := run_heard run
  have settled_or_told : Settled task newer ∨ ∃ k, Told task s k := by
    by_cases settled : Settled task newer
    · exact Or.inl settled
    · right
      have waits : outstanding task s.log := by
        rw [log]
        apply reported_outstanding
        · intro e mem
          constructor
          · intro request
            exact settled (Or.inl (request ▸ mem))
          · intro failure
            exact settled (Or.inr (Or.inl ⟨e, mem, failure⟩))
        · intro stopped
          exact settled (Or.inr (Or.inr stopped))
      obtain ⟨x, known, ranked⟩ := heard.heard task waits
      have same : x = w := Option.some.inj (known.symm.trans found)
      subst same
      obtain ⟨k, rank⟩ := ranked running
      exact ⟨k, x, found, running, not_cancelled_calm heard found running, rank⟩
  constructor
  · intro checking nothing
    rcases settled_or_told with settled | ⟨k, x, known, _, _, rank⟩
    · exact settled
    · have same : x = w := Option.some.inj (known.symm.trans found)
      subst same
      simp [requestRank, checking, nothing] at rank
  · intro more s' later often
    obtain ⟨records, grown⟩ := run_log_grows later
    rcases settled_or_told with settled | ⟨k, told⟩
    · refine ⟨records ++ newer, ?_, settled.mono⟩
      rw [grown, log, List.append_assoc]
    · obtain ⟨records', grown', settled | few⟩ := told_run task more heard told later
      · refine ⟨records' ++ newer, ?_, ?_⟩
        · rw [grown', log, List.append_assoc]
        · rcases settled with request | ⟨e, mem, failure⟩ | stopped
          · exact Or.inl (List.mem_append_left _ request)
          · exact Or.inr (Or.inl ⟨e, List.mem_append_left _ mem, failure⟩)
          · exact Or.inr (Or.inr (List.mem_append_left _ stopped))
      · obtain ⟨_, _, _, _, rank⟩ := told
        have bound := (request_rank_bounds rank).2
        omega

/- A watcher that idles, with the catch-up request made. -/
def idlingLabels : List Label :=
  [.spawn 1 10 "INBOX", .answer 0 .ok, .answer 0 .ok, .answer 0 (.account true),
    .answer 0 (.opened 0), .answer 0 .ok, .answer 0 .ok, .answer 0 (.capable true),
    .answer 0 .ok]

/- Told during the check, the watcher renews and requests. -/
def toldWhileChecking : List Label := idlingLabels ++ [.report 0 (.event 5)]

def renewal (elapsed : Bool) : List Label :=
  [.answer 0 (.checked elapsed), .answer 0 .ok, .answer 0 .ok, .answer 0 (.checked false)]

theorem told_while_checking : ∃ s, replay (restrict quietRenewal next) .initial
    toldWhileChecking = some s ∧ (∃ older, s.log = [] ++ .reported 0 (.event 5) :: older) ∧
      ∃ w, s.tasks 0 = some w ∧ w.cancelling = false ∧
        ∃ s', replay (restrict quietRenewal next) s (renewal false) = some s' :=
  ⟨_, rfl, ⟨_, rfl⟩, _, rfl, rfl, _, rfl⟩

theorem idle_misses_nothing_while_checking : ∃ s s' older,
    replay (restrict quietRenewal next) .initial toldWhileChecking = some s ∧
      replay (restrict quietRenewal next) s (renewal false) = some s' ∧
      ∃ records, s'.log = records ++ .reported 0 (.event 5) :: older ∧ Settled 0 records := by
  obtain ⟨s, run, ⟨older, log⟩, w, found, running, s', later⟩ := told_while_checking
  exact ⟨s, s', older, run, later,
    (idle_misses_nothing run 0 [] older (.event 5) log w found running).2 _ s' later
      (by decide)⟩

theorem empty_check {w : Watch} (calm : w.mustCancel = false) (checking : w.pc = .idleCheck)
    (nothing : w.received = []) : resume w (.checked false) = some (w, []) := by
  obtain ⟨account, folder, path, pc, client, received, mustCancel, cancelling⟩ := w
  simp only at calm checking nothing
  subst calm checking nothing
  rfl

/- Rounds of idle_check that return nothing leave no trace. -/
theorem empty_rounds (n : Nat) : ∀ {s : Scheduler} {task : Nat} {w : Watch},
    s.tasks task = some w → w.mustCancel = false → w.pc = .idleCheck → w.received = [] →
    ∃ s', replay next s (List.replicate n (.answer task (.checked false))) = some s' ∧
      s'.log = s.log := by
  induction n with
  | zero =>
    intro s task w _ _ _ _
    exact ⟨s, rfl, rfl⟩
  | succ n ih =>
    intro s task w found calm checking nothing
    have check := empty_check calm checking nothing
    obtain ⟨s1, step⟩ := answer_enabled found (a := .checked false) (by rw [check]; rfl) rfl
    obtain ⟨x, x', effects, answer, resumed⟩ := answer_step step
    have same : x = w := Option.some.inj (resumed.found.symm.trans found)
    subst same
    rw [check, Option.some.injEq, Prod.mk.injEq] at answer
    obtain ⟨rfl, rfl⟩ := answer
    have found1 : s1.tasks task = some x := by
      rw [resumed.tasks]
      exact Function.update_self ..
    obtain ⟨s', run, log⟩ := ih found1 calm checking nothing
    refine ⟨s', ?_, log.trans resumed.log⟩
    rw [List.replicate_succ, replay_cons, step]
    exact run

/- The response comes after the last idle_check of a quiet interval, so only idle_done
   returns it: no number of further rounds requests a sync for it. -/
theorem timer_renewal_loses_response : ∃ s older, replay next .initial
    (idlingLabels ++ [.answer 0 (.checked true), .report 0 (.event 5), .answer 0 .ok,
      .answer 0 .ok]) = some s ∧ s.log = .reported 0 (.event 5) :: older ∧
    ∀ n, ∃ s', replay next s (List.replicate n (.answer 0 (.checked false))) = some s' ∧
      s'.log = .reported 0 (.event 5) :: older := by
  refine ⟨_, _, rfl, rfl, ?_⟩
  intro n
  exact empty_rounds n rfl rfl rfl rfl

end InboxIdleEvents
