import InboxOne.Watcher

/-!
Stopping a watcher. Once CancelledError is in a task it only unwinds, unless the
connection attempt that was pending, or the session it used, fails meanwhile: that
exception takes the place of the cancellation and the retry loop goes on.
-/
namespace InboxWatcherStops
open LabelledRuns InboxWatcher

/-- No exception takes the place of a CancelledError. -/
def unwindsCleanly (s : Scheduler) : Label → Bool
  | .answer task (.fail _) =>
      match s.tasks task with
      | none => true
      | some w => w.mustCancel || (w.pc ≠ .awaitOpening && w.pc ≠ .closeSession .cancelled)
  | _ => true

/-- The awaits of a task that unwinds. -/
def Unwinds : Pc → Prop
  | .awaitOpening | .closeSession .cancelled | .shutdownClient false | .shutdownExecutor
  | .done => True
  | _ => False

/-- How many more steps a stopped task takes at most. -/
def unwindRank (w : Watch) : Nat :=
  if w.mustCancel then 5
  else match w.pc with
    | .awaitOpening => 4
    | .closeSession _ => 3
    | .shutdownClient _ => 2
    | .shutdownExecutor => 1
    | _ => 0

def Stopping (w : Watch) : Prop := w.mustCancel = true ∨ Unwinds w.pc

def OnlyCloses (effects : List Effect) : Prop := ∀ e ∈ effects, ∃ client, e = .close client

theorem unwind_rank_bounded (w : Watch) : unwindRank w ≤ 5 := by
  unfold unwindRank
  split
  · omega
  · split <;> omega

/- The way out from the inner finally on. -/
theorem inner_finally_unwinds (w : Watch) (calm : w.mustCancel = false) :
    Unwinds (innerFinally w false).1.pc ∧ unwindRank (innerFinally w false).1 ≤ 2 ∧
      OnlyCloses (innerFinally w false).2 := by
  unfold innerFinally
  cases w.client with
  | some client => simp [Unwinds, unwindRank, OnlyCloses, calm]
  | none => simp [afterFinally, outerFinally, Unwinds, unwindRank, OnlyCloses, calm]

theorem throw_unwinds (w : Watch) : Unwinds (throwCancelled w).1.pc ∧
    unwindRank (throwCancelled w).1 ≤ 4 ∧ OnlyCloses (throwCancelled w).2 := by
  have through : ∀ x : Watch, x.mustCancel = false → Unwinds (innerFinally x false).1.pc ∧
      unwindRank (innerFinally x false).1 ≤ 4 ∧ OnlyCloses (innerFinally x false).2 := by
    intro x calm
    obtain ⟨unwinds, rank, closes⟩ := inner_finally_unwinds x calm
    exact ⟨unwinds, by omega, closes⟩
  unfold throwCancelled
  cases w.pc
  all_goals first
    | exact through _ rfl
    | simp [Unwinds, unwindRank, OnlyCloses, outerFinally]

/- Each step of a stopping task brings it nearer to its end and only closes clients. -/
theorem stopping_resume {w w' : Watch} {a : Answer} {effects : List Effect}
    (stopping : Stopping w)
    (clean : ∀ e, a = .fail e → w.mustCancel = true ∨
      (w.pc ≠ .awaitOpening ∧ w.pc ≠ .closeSession .cancelled))
    (step : resume w a = some (w', effects)) :
    Unwinds w'.pc ∧ unwindRank w' < unwindRank w ∧ OnlyCloses effects := by
  cases must : w.mustCancel with
  | true =>
    unfold resume at step
    rw [if_pos must] at step
    split at step
    · have same := Option.some.inj step
      obtain ⟨unwinds, rank, closes⟩ := throw_unwinds w
      rw [same] at unwinds rank closes
      have full : unwindRank w = 5 := by rw [unwindRank, if_pos must]
      exact ⟨unwinds, full ▸ Nat.lt_succ_of_le rank, closes⟩
    · contradiction
  | false =>
    have unwinds : Unwinds w.pc := stopping.resolve_left (by simp [must])
    obtain ⟨finalUnwinds, finalRank, finalCloses⟩ := inner_finally_unwinds w must
    unfold resume at step
    rw [if_neg (by simp [must])] at step
    cases pc : w.pc with
    | awaitOpening =>
      cases a with
      | opened client =>
        simp only [pc, Option.some.injEq, Prod.mk.injEq] at step
        obtain ⟨rfl, rfl⟩ := step
        simp [Unwinds, unwindRank, OnlyCloses, must, pc]
      | fail e => simp_all
      | _ => simp [pc] at step
    | closeSession leave =>
      cases leave with
      | cancelled =>
        cases a with
        | ok =>
          simp only [pc, afterSession, Option.some.injEq] at step
          rw [step] at finalUnwinds finalRank finalCloses
          have rank : unwindRank w = 3 := by simp [unwindRank, must, pc]
          exact ⟨finalUnwinds, rank ▸ Nat.lt_succ_of_le finalRank, finalCloses⟩
        | fail e => simp_all
        | _ => simp [pc] at step
      | _ => simp [pc, Unwinds] at unwinds
    | shutdownClient again =>
      cases again with
      | true => simp [pc, Unwinds] at unwinds
      | false =>
        cases a with
        | ok | fail =>
          simp only [pc, afterFinally, outerFinally, Bool.false_eq_true, if_false,
            Option.some.injEq, Prod.mk.injEq] at step
          obtain ⟨rfl, rfl⟩ := step
          simp [Unwinds, unwindRank, OnlyCloses, must, pc]
        | _ => simp [pc] at step
    | shutdownExecutor =>
      cases a with
      | ok | fail =>
        simp only [pc, Option.some.injEq, Prod.mk.injEq] at step
        obtain ⟨rfl, rfl⟩ := step
        simp [Unwinds, unwindRank, OnlyCloses, must, pc]
      | _ => simp [pc] at step
    | done => simp [pc] at step
    | _ => simp [pc, Unwinds] at unwinds

theorem ended_does_not_resume {w : Watch} (calm : w.mustCancel = false) (ended : w.pc = .done)
    (a : Answer) : resume w a = none := by
  unfold resume
  rw [if_neg (by simp [calm]), ended]

/- A stopping task always waits for something that can be answered. -/
theorem stopping_enabled {s : Scheduler} {task : Nat} {w : Watch} (found : s.tasks task = some w)
    (stopping : Stopping w) (active : w.pc ≠ .done) :
    ∃ a s', unwindsCleanly s (.answer task a) = true ∧ next s (.answer task a) = some s' := by
  have clean : ∀ {a : Answer}, (∀ e, a ≠ .fail e) →
      unwindsCleanly s (.answer task a) = true := by
    intro a noFail
    cases a with
    | fail e => exact absurd rfl (noFail e)
    | _ => rfl
  cases must : w.mustCancel with
  | true =>
    obtain ⟨s', step⟩ := answer_enabled (a := .cancelled) found (by simp [resume, must]) rfl
    exact ⟨.cancelled, s', clean (by simp), step⟩
  | false =>
    have unwinds : Unwinds w.pc := stopping.resolve_left (by simp [must])
    cases pc : w.pc with
    | awaitOpening =>
      obtain ⟨s', step⟩ := answer_enabled (a := .opened s.opened) found
        (by simp [resume, must, pc]) (by simp [freshClient])
      exact ⟨_, s', clean (by simp), step⟩
    | closeSession | shutdownClient | shutdownExecutor =>
      obtain ⟨s', step⟩ := answer_enabled (a := .ok) found (by simp [resume, must, pc]) rfl
      exact ⟨_, s', clean (by simp), step⟩
    | done => exact absurd pc active
    | _ => simp [pc, Unwinds] at unwinds

/- The tasks, the registry and the record of a reachable state. -/
structure Sound (s : Scheduler) : Prop where
  stopping : ∀ t w, s.tasks t = some w → w.cancelling = true → Stopping w
  pending : ∀ t w, s.tasks t = some w → w.mustCancel = true →
    w.cancelling = true ∧ w.pc ≠ .done
  stopped : ∀ t, .stopped t ∈ s.log → ∃ w, s.tasks t = some w ∧ w.cancelling = true
  live : ∀ t w, s.tasks t = some w → w.cancelling = false → w.pc ≠ .done →
    s.registry w.folder = some t
  registered : ∀ f t, s.registry f = some t →
    ∃ w, s.tasks t = some w ∧ w.folder = f ∧ w.cancelling = false
  unspawned : ∀ t, s.spawned ≤ t → s.tasks t = none
  quiet : ∀ t newer older, s.log = newer ++ .stopped t :: older →
    ∀ e, .effect t e ∈ newer → ∃ client, e = .close client

theorem initial_sound : Sound .initial := by
  constructor <;> simp [Scheduler.initial]

theorem spawn_sound {s : Scheduler} (sound : Sound s) {account folder : Nat} {path : String}
    (vacant : s.registry folder = none) : Sound (spawnWatcher s account folder path) := by
  have other : ∀ {t w}, s.tasks t = some w → t ≠ s.spawned := by
    intro t w found same
    rw [sound.unspawned t (Nat.le_of_eq same.symm)] at found
    contradiction
  have cases_task : ∀ {t w}, (spawnWatcher s account folder path).tasks t = some w →
      (t = s.spawned ∧ w = ⟨account, folder, path, .created, none, [], false, false⟩) ∨
        s.tasks t = some w := by
    intro t w found
    rcases written_cell found with new | ⟨_, old⟩
    · exact Or.inl new
    · exact Or.inr old
  constructor
  · intro t w found cancelling
    rcases cases_task found with ⟨_, rfl⟩ | old
    · contradiction
    · exact sound.stopping t w old cancelling
  · intro t w found must
    rcases cases_task found with ⟨_, rfl⟩ | old
    · contradiction
    · exact sound.pending t w old must
  · intro t mem
    obtain ⟨w, found, cancelling⟩ := sound.stopped t mem
    exact ⟨w, (Function.update_of_ne (other found) ..).trans found, cancelling⟩
  · intro t w found calm active
    simp only [spawnWatcher]
    rcases cases_task found with ⟨rfl, rfl⟩ | old
    · exact Function.update_self ..
    · have registered := sound.live t w old calm active
      have differs : w.folder ≠ folder := by
        intro same
        rw [same, vacant] at registered
        contradiction
      rw [Function.update_of_ne differs]
      exact registered
  · intro f t registered
    simp only [spawnWatcher] at registered ⊢
    rcases written_cell registered with ⟨rfl, rfl⟩ | ⟨_, registered⟩
    · exact ⟨_, Function.update_self .., rfl, rfl⟩
    · obtain ⟨w, found, rest⟩ := sound.registered f t registered
      exact ⟨w, (Function.update_of_ne (other found) ..).trans found, rest⟩
  · intro t above
    simp only [spawnWatcher] at above ⊢
    have differs : t ≠ s.spawned := by omega
    rw [Function.update_of_ne differs]
    exact sound.unspawned t (by omega)
  · exact sound.quiet

/- Dictionaries that no invariant mentions. -/
theorem tables_sound {s s' : Scheduler} (sound : Sound s) (tasks : s'.tasks = s.tasks)
    (registry : s'.registry = s.registry) (spawned : s'.spawned = s.spawned)
    (log : s'.log = s.log) : Sound s' := by
  constructor
  · rw [tasks]
    exact sound.stopping
  · rw [tasks]
    exact sound.pending
  · rw [tasks, log]
    exact sound.stopped
  · rw [tasks, registry]
    exact sound.live
  · rw [tasks, registry]
    exact sound.registered
  · rw [tasks, spawned]
    exact sound.unspawned
  · rw [log]
    exact sound.quiet

/- A task is rewritten in place and closes at most clients if it is stopping. -/
theorem rewrite_sound {s s' : Scheduler} (sound : Sound s) {task : Nat} {w w' : Watch}
    {records : List Record} (found : s.tasks task = some w)
    (tasks : s'.tasks = Function.update s.tasks task (some w'))
    (registry : s'.registry = s.registry) (spawned : s'.spawned = s.spawned)
    (log : s'.log = records ++ s.log) (folder : w'.folder = w.folder)
    (cancelling : w'.cancelling = w.cancelling)
    (pending : w'.mustCancel = true → w'.cancelling = true ∧ w'.pc ≠ .done)
    (stopping : w.cancelling = true → Stopping w')
    (active : w'.pc ≠ .done → w.pc ≠ .done) (notStopped : ∀ t, .stopped t ∉ records)
    (own : ∀ t e, .effect t e ∈ records → t = task)
    (closes : w.cancelling = true → ∀ t e, .effect t e ∈ records → ∃ client, e = .close client) :
    Sound s' := by
  have cases_task : ∀ {t x}, s'.tasks t = some x →
      (t = task ∧ x = w') ∨ (t ≠ task ∧ s.tasks t = some x) := by
    intro t x eq
    rw [tasks] at eq
    exact written_cell eq
  have still : ∀ {t x}, s.tasks t = some x → ∃ x', s'.tasks t = some x' ∧
      x'.folder = x.folder ∧ x'.cancelling = x.cancelling := by
    intro t x old
    rw [tasks]
    by_cases same : t = task
    · subst same
      rw [found, Option.some.injEq] at old
      subst old
      exact ⟨w', Function.update_self .., folder, cancelling⟩
    · exact ⟨x, (Function.update_of_ne same ..).trans old, rfl, rfl⟩
  have stopped_older : ∀ t, .stopped t ∈ s'.log → .stopped t ∈ s.log := by
    intro t mem
    rw [log] at mem
    exact (List.mem_append.mp mem).resolve_left (notStopped t)
  constructor
  · intro t x eq isCancelling
    rcases cases_task eq with ⟨_, rfl⟩ | ⟨_, old⟩
    · exact stopping (cancelling ▸ isCancelling)
    · exact sound.stopping t x old isCancelling
  · intro t x eq must
    rcases cases_task eq with ⟨_, rfl⟩ | ⟨_, old⟩
    · exact pending must
    · exact sound.pending t x old must
  · intro t mem
    obtain ⟨x, old, isCancelling⟩ := sound.stopped t (stopped_older t mem)
    obtain ⟨x', new, _, same⟩ := still old
    exact ⟨x', new, same.trans isCancelling⟩
  · intro t x eq calm running
    rw [registry]
    rcases cases_task eq with ⟨rfl, rfl⟩ | ⟨_, old⟩
    · rw [folder]
      exact sound.live t w found (cancelling ▸ calm) (active running)
    · exact sound.live t x old calm running
  · intro f t registered
    rw [registry] at registered
    obtain ⟨x, old, sameFolder, calm⟩ := sound.registered f t registered
    obtain ⟨x', new, keepsFolder, keepsCalm⟩ := still old
    exact ⟨x', new, keepsFolder.trans sameFolder, keepsCalm.trans calm⟩
  · intro t above
    rw [spawned] at above
    have none := sound.unspawned t above
    have other : t ≠ task := by
      intro same
      rw [same, found] at none
      contradiction
    rw [tasks, Function.update_of_ne other]
    exact none
  · intro t newer older split e mem
    rw [log] at split
    obtain ⟨later, new, old⟩ := past_split split (notStopped t)
    rw [new] at mem
    rcases List.mem_append.mp mem with inRecords | inLater
    · have same := own t e inRecords
      obtain ⟨x, known, isCancelling⟩ := sound.stopped t (by rw [old]; simp)
      rw [same, found, Option.some.injEq] at known
      exact closes (known ▸ isCancelling) t e inRecords
    · exact sound.quiet t later older old e inLater

theorem answer_sound {s s' : Scheduler} (sound : Sound s) {task : Nat} {a : Answer}
    (clean : unwindsCleanly s (.answer task a) = true)
    (step : next s (.answer task a) = some s') : Sound s' := by
  obtain ⟨w, w', effects, answer, resumed⟩ := answer_step step
  have keeps := resume_keeps answer
  have cleanly : ∀ e, a = .fail e → w.mustCancel = true ∨
      (w.pc ≠ .awaitOpening ∧ w.pc ≠ .closeSession .cancelled) := by
    intro e fails
    subst fails
    simpa [unwindsCleanly, resumed.found] using clean
  have unwinding : w.cancelling = true → Unwinds w'.pc ∧ unwindRank w' < unwindRank w ∧
      OnlyCloses effects := fun cancelling =>
    stopping_resume (sound.stopping task w resumed.found cancelling) cleanly answer
  have listed : ∀ {t e}, .effect t e ∈ (effects.map (Record.effect task)).reverse →
      t = task ∧ e ∈ effects := by
    intro t e mem
    simp only [List.mem_reverse, List.mem_map, Record.effect.injEq] at mem
    obtain ⟨e', inside, same, rfl⟩ := mem
    exact ⟨same.symm, inside⟩
  refine rewrite_sound sound resumed.found resumed.tasks resumed.registry resumed.spawned
    resumed.log keeps.folder keeps.cancelling ?_ ?_ ?_ ?_ ?_ ?_
  · intro must
    rw [keeps.thrown] at must
    contradiction
  · intro cancelling
    exact Or.inr (unwinding cancelling).1
  · intro _ ended
    cases must : w.mustCancel with
    | true => exact (sound.pending task w resumed.found must).2 ended
    | false =>
      rw [ended_does_not_resume must ended a] at answer
      contradiction
  · intro t mem
    simp at mem
  · intro t e mem
    exact (listed mem).1
  · intro cancelling t e mem
    exact (unwinding cancelling).2.2 e (listed mem).2

section Unregister
variable {s s' : Scheduler} {folder task : Nat} {w : Watch}

theorem unregistered (sound : Sound s) (found : s.tasks task = some w) (sameFolder : w.folder = folder)
    (registry : s'.registry = Function.update s.registry folder none) {f t : Nat}
    (eq : s'.registry f = some t) : s.registry f = some t ∧ t ≠ task := by
  rw [registry] at eq
  by_cases same : f = folder
  · subst same
    rw [Function.update_self] at eq
    contradiction
  · rw [Function.update_of_ne same] at eq
    refine ⟨eq, ?_⟩
    intro sameTask
    obtain ⟨x, other, otherFolder, _⟩ := sound.registered f t eq
    rw [sameTask, found, Option.some.injEq] at other
    subst other
    exact same (otherFolder.symm.trans sameFolder)

theorem stays_registered (sound : Sound s) (registered : s.registry folder = some task)
    (registry : s'.registry = Function.update s.registry folder none) {t : Nat} {x : Watch}
    (other : s.tasks t = some x) (calm : x.cancelling = false) (active : x.pc ≠ .done)
    (differs : t ≠ task) : s'.registry x.folder = some t := by
  have live := sound.live t x other calm active
  have notHere : x.folder ≠ folder := by
    intro same
    rw [same, registered, Option.some.injEq] at live
    exact differs live.symm
  rw [registry, Function.update_of_ne notHere]
  exact live

theorem unregister_ended_sound (sound : Sound s) (registered : s.registry folder = some task)
    (found : s.tasks task = some w) (sameFolder : w.folder = folder)
    (registry : s'.registry = Function.update s.registry folder none)
    (spawned : s'.spawned = s.spawned) (ended : w.pc = .done) (tasks : s'.tasks = s.tasks)
    (log : s'.log = s.log) : Sound s' := by
  constructor
  · rw [tasks]
    exact sound.stopping
  · rw [tasks]
    exact sound.pending
  · rw [tasks, log]
    exact sound.stopped
  · intro t x other calm active
    rw [tasks] at other
    apply stays_registered sound registered registry other calm active
    intro same
    rw [same, found, Option.some.injEq] at other
    exact active (other ▸ ended)
  · intro f t eq
    rw [tasks]
    exact sound.registered f t (unregistered sound found sameFolder registry eq).1
  · rw [tasks, spawned]
    exact sound.unspawned
  · rw [log]
    exact sound.quiet

/- Leaving the registry is what makes room for the next watcher of the folder. -/
theorem unregister_active_sound (sound : Sound s) (registered : s.registry folder = some task)
    (found : s.tasks task = some w) (sameFolder : w.folder = folder)
    (registry : s'.registry = Function.update s.registry folder none)
    (spawned : s'.spawned = s.spawned) (active : w.pc ≠ .done)
    (tasks : s'.tasks = Function.update s.tasks task
      (some { w with mustCancel := true, cancelling := true }))
    (log : s'.log = .stopped task :: s.log) : Sound s' := by
  have cases_task : ∀ {t x}, s'.tasks t = some x →
      (t = task ∧ x = { w with mustCancel := true, cancelling := true }) ∨
        (t ≠ task ∧ s.tasks t = some x) := by
    intro t x eq
    rw [tasks] at eq
    exact written_cell eq
  constructor
  · intro t x eq cancelling
    rcases cases_task eq with ⟨_, rfl⟩ | ⟨_, old⟩
    · exact Or.inl rfl
    · exact sound.stopping t x old cancelling
  · intro t x eq must
    rcases cases_task eq with ⟨_, rfl⟩ | ⟨_, old⟩
    · exact ⟨rfl, active⟩
    · exact sound.pending t x old must
  · intro t mem
    rw [tasks]
    rw [log] at mem
    by_cases same : t = task
    · subst same
      exact ⟨_, Function.update_self .., rfl⟩
    · have older : .stopped t ∈ s.log := by simpa [same] using mem
      obtain ⟨x, old, cancelling⟩ := sound.stopped t older
      exact ⟨x, (Function.update_of_ne same ..).trans old, cancelling⟩
  · intro t x eq calm stillActive
    rcases cases_task eq with ⟨_, rfl⟩ | ⟨differs, old⟩
    · contradiction
    · exact stays_registered sound registered registry old calm stillActive differs
  · intro f t eq
    obtain ⟨old, differs⟩ := unregistered sound found sameFolder registry eq
    obtain ⟨x, known, rest⟩ := sound.registered f t old
    rw [tasks]
    exact ⟨x, (Function.update_of_ne differs ..).trans known, rest⟩
  · intro t above
    rw [spawned] at above
    have none := sound.unspawned t above
    have differs : t ≠ task := by
      intro same
      rw [same, found] at none
      contradiction
    rw [tasks]
    exact (Function.update_of_ne differs ..).trans none
  · intro t newer older split e mem
    rw [log] at split
    rcases cons_split split with ⟨empty, _, _⟩ | ⟨newer', grown, rest⟩
    · simp [empty] at mem
    · have inside : .effect t e ∈ newer' := by simpa [grown] using mem
      exact sound.quiet t newer' older rest e inside

end Unregister

theorem stop_task_sound {s : Scheduler} (sound : Sound s) (folder : Nat) :
    Sound (stopTask s folder) := by
  unfold stopTask
  cases registered : s.registry folder with
  | none => exact sound
  | some task =>
    obtain ⟨w, found, sameFolder, _⟩ := sound.registered folder task registered
    unfold cancelTask
    simp only [found]
    split
    · rename_i ended
      exact unregister_ended_sound sound registered found sameFolder rfl rfl ended rfl rfl
    · rename_i active
      exact unregister_active_sound sound registered found sameFolder rfl rfl active rfl rfl

theorem stop_sound {s : Scheduler} (sound : Sound s) (folder : Nat) :
    Sound (stopFolder s folder) := by
  have closed : Sound { s with clients := Function.update s.clients folder none } :=
    tables_sound sound rfl rfl rfl rfl
  exact tables_sound (stop_task_sound closed folder) rfl rfl rfl rfl

theorem next_sound {s s' : Scheduler} {l : Label} (sound : Sound s)
    (step : restrict unwindsCleanly next s l = some s') : Sound s' := by
  obtain ⟨clean, step⟩ := restrict_step step
  cases l with
  | spawn account folder path =>
    obtain ⟨vacant, rfl⟩ := spawn_step step
    exact spawn_sound sound vacant
  | stop folder =>
    obtain rfl := stop_step step
    exact stop_sound sound folder
  | answer task a => exact answer_sound sound clean step
  | report task response =>
    obtain ⟨w, found, _, rfl⟩ := report_step step
    refine rewrite_sound sound found rfl rfl rfl (List.singleton_append).symm
      rfl rfl ?_ ?_ ?_ ?_ ?_ ?_
    · exact sound.pending task w found
    · exact sound.stopping task w found
    · exact fun active => active
    · simp
    · simp
    · simp
  | doneCallback task =>
    obtain ⟨_, _, _, rfl⟩ := callback_step step
    exact tables_sound sound rfl rfl rfl rfl

theorem run_sound {s : Scheduler} {labels : List Label}
    (run : replay (restrict unwindsCleanly next) .initial labels = some s) : Sound s :=
  replay_invariant Sound initial_sound (fun _ _ _ sound step => next_sound sound step) run

/- The rank pays for every resumption of the stopped task, whatever else happens. -/
theorem stopped_step {s s' : Scheduler} {l : Label} (sound : Sound s) {task : Nat} {w : Watch}
    (found : s.tasks task = some w) (cancelling : w.cancelling = true)
    (step : restrict unwindsCleanly next s l = some s') :
    ∃ w', s'.tasks task = some w' ∧ w'.cancelling = true ∧
      unwindRank w' + resumes task l ≤ unwindRank w := by
  obtain ⟨clean, step⟩ := restrict_step step
  cases l with
  | spawn account folder path =>
    obtain ⟨_, rfl⟩ := spawn_step step
    have other : task ≠ s.spawned := by
      intro same
      rw [sound.unspawned task (Nat.le_of_eq same.symm)] at found
      contradiction
    exact ⟨w, (Function.update_of_ne other ..).trans found, cancelling, Nat.le_refl _⟩
  | stop folder =>
    obtain rfl := stop_step step
    refine ⟨w, ?_, cancelling, Nat.le_refl _⟩
    simp only [stopFolder, stopTask]
    cases registered : s.registry folder with
    | none => exact found
    | some t =>
      obtain ⟨x, known, _, calm⟩ := sound.registered folder t registered
      have other : task ≠ t := by
        intro same
        rw [← same, found, Option.some.injEq] at known
        rw [known, calm] at cancelling
        contradiction
      simp only [cancelTask, known]
      split
      · exact found
      · exact (Function.update_of_ne other ..).trans found
  | answer t a =>
    obtain ⟨x, x', effects, answer, resumed⟩ := answer_step step
    by_cases same : t = task
    · subst same
      have eq : x = w := Option.some.inj (resumed.found.symm.trans found)
      subst eq
      have cleanly : ∀ e, a = .fail e → x.mustCancel = true ∨
          (x.pc ≠ .awaitOpening ∧ x.pc ≠ .closeSession .cancelled) := by
        intro e fails
        subst fails
        simpa [unwindsCleanly, found] using clean
      obtain ⟨_, smaller, _⟩ :=
        stopping_resume (sound.stopping t x found cancelling) cleanly answer
      refine ⟨x', ?_, (resume_keeps answer).cancelling.trans cancelling, ?_⟩
      · rw [resumed.tasks]
        exact Function.update_self ..
      · rw [resumes, if_pos rfl]
        exact smaller
    · refine ⟨w, ?_, cancelling, ?_⟩
      · rw [resumed.tasks, Function.update_of_ne (Ne.symm same)]
        exact found
      · rw [resumes, if_neg same]
        exact Nat.le_refl _
  | report t response =>
    obtain ⟨x, known, _, rfl⟩ := report_step step
    by_cases same : t = task
    · subst same
      have eq : x = w := Option.some.inj (known.symm.trans found)
      subst eq
      exact ⟨_, Function.update_self .., cancelling, Nat.le_refl _⟩
    · exact ⟨w, (Function.update_of_ne (Ne.symm same) ..).trans found, cancelling, Nat.le_refl _⟩
  | doneCallback t =>
    obtain ⟨_, _, _, rfl⟩ := callback_step step
    exact ⟨w, found, cancelling, Nat.le_refl _⟩

theorem stopped_run (task : Nat) (more : List Label) :
    ∀ {s s' : Scheduler} {w : Watch}, Sound s → s.tasks task = some w → w.cancelling = true →
      replay (restrict unwindsCleanly next) s more = some s' →
      resumptions task more ≤ unwindRank w := by
  induction more with
  | nil =>
    intro s s' w _ _ _ _
    exact Nat.zero_le _
  | cons l rest ih =>
    intro s s' w sound found cancelling run
    rw [replay_cons] at run
    obtain ⟨t, step, run⟩ := Option.bind_eq_some_iff.mp run
    obtain ⟨w', found', cancelling', paid⟩ := stopped_step sound found cancelling step
    have later := ih (next_sound sound step) found' cancelling' run
    simp only [resumptions, List.map_cons, List.foldr_cons] at later ⊢
    omega

/- In a run where no exception takes the place of a cancellation, a stopped watcher only
   closes clients and ends within five resumptions, and no folder has two watchers that
   are not stopped. -/
theorem stopping_is_final {s : Scheduler} {labels : List Label}
    (run : replay (restrict unwindsCleanly next) .initial labels = some s) :
    (∀ t newer older, s.log = newer ++ .stopped t :: older →
      ∀ e, .effect t e ∈ newer → ∃ client, e = .close client) ∧
    (∀ t1 t2 w1 w2, s.tasks t1 = some w1 → s.tasks t2 = some w2 →
      w1.cancelling = false → w2.cancelling = false → w1.pc ≠ .done → w2.pc ≠ .done →
      w1.folder = w2.folder → t1 = t2) ∧
    ∀ t w, s.tasks t = some w → w.cancelling = true →
      (w.pc ≠ .done → ∃ a s', restrict unwindsCleanly next s (.answer t a) = some s') ∧
      ∀ more s', replay (restrict unwindsCleanly next) s more = some s' →
        resumptions t more ≤ 5 := by
  have sound := run_sound run
  refine ⟨sound.quiet, ?_, ?_⟩
  · intro t1 t2 w1 w2 found1 found2 calm1 calm2 active1 active2 sameFolder
    have first := sound.live t1 w1 found1 calm1 active1
    have second := sound.live t2 w2 found2 calm2 active2
    rw [sameFolder, second, Option.some.injEq] at first
    exact first.symm
  · intro t w found cancelling
    constructor
    · intro active
      obtain ⟨a, s', clean, step⟩ :=
        stopping_enabled found (sound.stopping t w found cancelling) active
      exact ⟨a, s', by rw [restrict, if_pos clean, step]⟩
    · intro more s' later
      exact Nat.le_trans (stopped_run t more sound found cancelling later)
        (unwind_rank_bounded w)

/- Stopped while the connection is opened, which then succeeds. -/
def stopWhileOpening : List Label :=
  [.spawn 1 10 "INBOX", .answer 0 .ok, .answer 0 .ok, .answer 0 (.account true), .stop 10,
    .answer 0 .cancelled]

theorem opened_after_stop : (replay (restrict unwindsCleanly next) .initial
    (stopWhileOpening ++ [.answer 0 (.opened 0), .answer 0 .ok, .answer 0 .ok])).map
      Scheduler.log =
    some [.effect 0 (.close (some 0)), .effect 0 (.close (some 0)), .stopped 0,
      .effect 0 .connect, .effect 0 (.publish ⟨some 1, .connecting, .polling, none⟩)] := rfl

theorem stopping_is_final_while_opening : ∃ s, replay (restrict unwindsCleanly next) .initial
    (stopWhileOpening ++ [.answer 0 (.opened 0), .answer 0 .ok, .answer 0 .ok]) = some s ∧
    s.log.length = 5 ∧ ∀ newer older, s.log = newer ++ .stopped 0 :: older →
      ∀ e, .effect 0 e ∈ newer → ∃ client, e = .close client := by
  obtain ⟨s, run, log⟩ := Option.map_eq_some_iff.mp opened_after_stop
  exact ⟨s, run, by rw [log]; rfl, (stopping_is_final run).1 0⟩

/- The same stop, but the attempt fails: the task publishes, connects again and
   registers its client while a second watcher runs for the folder. -/
theorem failed_attempt_survives_stop : ∃ s newer older, replay next .initial
    (stopWhileOpening ++ [.answer 0 (.fail "OSError"), .spawn 1 10 "INBOX", .answer 0 .ok,
      .answer 0 .ok, .answer 0 .ok, .answer 0 (.account true), .answer 0 (.opened 0),
      .answer 0 .ok]) = some s ∧ s.log = newer ++ .stopped 0 :: older ∧
    (∃ values, .effect 0 (.publish values) ∈ newer) ∧ .effect 0 .connect ∈ newer ∧
      .effect 0 (.register 0) ∈ newer ∧ s.clients 10 = some 0 ∧ s.registry 10 = some 1 := by
  refine ⟨_, [.effect 0 (.register 0), .effect 0 .connect,
    .effect 0 (.publish ⟨some 1, .connecting, .polling, none⟩), .effect 0 (.close none),
    .effect 0 (.publish _)], _, rfl, rfl, ⟨⟨some 1, .connecting, .polling, none⟩, ?_⟩, ?_, ?_, rfl, rfl⟩
  · simp
  · simp
  · simp

end InboxWatcherStops
