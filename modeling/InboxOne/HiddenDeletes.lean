import InboxOne.DeleteUndo

/- Which messages the page hides while deletes are pending or their requests are on the way. -/
namespace InboxHiddenDeletes
open LabelledRuns Timers InboxDeleteUndo
variable {w w' : World}

/-- The messages that an instance of the page leaves out of its list. -/
def hidden (w : World) (p : Nat) : Finset Nat := (w.pages p).pendingDeleteIds

/- The delete buttons belong to messages that the mounted page shows. -/
def onlyShown (w : World) : Label → Bool
  | .delete id => id ∉ hidden w w.page
  | _ => true

/- A message is hidden while its timer is armed or its request is on the way, and not both. -/
structure Hides (w : World) : Prop where
  iff_open : ∀ p id, id ∈ hidden w p ↔
    timerOf w p id ≠ none ∨ ∃ call, w.calls call = some (p, id)
  apart : ∀ p id call, w.calls call = some (p, id) → timerOf w p id = none
  single : ∀ a b x, w.calls a = some x → w.calls b = some x → a = b
  coming : ∀ call, w.nextCall ≤ call → w.calls call = none

structure SamePages (w w' : World) : Prop where
  pages : w'.pages = w.pages
  calls : w'.calls = w.calls
  nextCall : w'.nextCall = w.nextCall

theorem same_hides (hides : Hides w) (same : SamePages w w') : Hides w' := by
  obtain ⟨pages, calls, nextCall⟩ := same
  have hidden_eq : ∀ p, hidden w' p = hidden w p := fun p => by rw [hidden, hidden, pages]
  have timer_eq : ∀ p id, timerOf w' p id = timerOf w p id := fun p id => by
    rw [timerOf, timerOf, pages]
  constructor
  · intro p id
    rw [hidden_eq, timer_eq, calls]
    exact hides.iff_open p id
  · intro p id call sent
    rw [timer_eq]
    exact hides.apart p id call (calls ▸ sent)
  · rw [calls]
    exact hides.single
  · rw [calls, nextCall]
    exact hides.coming

theorem accept_hides (hides : Hides w) {id : Nat} (shown : id ∉ hidden w w.page) :
    Hides (handleDelete w id) := by
  have closed := fun still => shown ((hides.iff_open w.page id).mpr still)
  have free : timerOf w w.page id = none := by
    by_contra pending
    exact closed (Or.inl pending)
  have idle : ¬ ((w.pages w.page).deleteTimers id).isSome = true := by
    rw [show (w.pages w.page).deleteTimers id = none from free]
    simp
  have timers := (delete_accepted free).timerOf
  have calls : (handleDelete w id).calls = w.calls ∧ (handleDelete w id).nextCall = w.nextCall := by
    unfold handleDelete
    rw [if_neg idle]
    exact ⟨rfl, rfl⟩
  have hidden_eq : ∀ p, hidden (handleDelete w id) p =
      if p = w.page then insert id (hidden w p) else hidden w p := by
    intro p
    unfold handleDelete
    rw [if_neg idle]
    show (Function.update w.pages w.page _ p).pendingDeleteIds = _
    by_cases own : p = w.page
    · subst own
      rw [Function.update_self, if_pos rfl]
      rfl
    · rw [Function.update_of_ne own, if_neg own]
      rfl
  constructor
  · intro p j
    rw [hidden_eq, timers, calls.1]
    by_cases own : p = w.page
    · subst own
      by_cases same : j = id
      · subst same
        simp
      · simp [same, hides.iff_open]
    · simp [own, hides.iff_open]
  · intro p j call sent
    rw [calls.1] at sent
    rw [timers, if_neg]
    · exact hides.apart p j call sent
    · rintro ⟨rfl, rfl⟩
      exact closed (Or.inr ⟨call, sent⟩)
  · rw [calls.1]
    exact hides.single
  · rw [calls.1, calls.2]
    exact hides.coming

theorem commit_hides (hides : Hides w) {k p id : Nat} {clock : Clock Callback}
    (pending : timerOf w p id = some k) :
    Hides (commitDelete { w with clock := clock } k p id) := by
  have timers : ∀ q j, timerOf (commitDelete { w with clock := clock } k p id) q j =
      if q = p ∧ j = id then none else timerOf w q j := timer_of_write rfl rfl
  have hidden_eq : ∀ q, hidden (commitDelete { w with clock := clock } k p id) q = hidden w q := by
    intro q
    show (Function.update w.pages p _ q).pendingDeleteIds = _
    by_cases own : q = p
    · subst own
      rw [Function.update_self]
      rfl
    · rw [Function.update_of_ne own]
      rfl
  have calls_eq : ∀ call, (commitDelete { w with clock := clock } k p id).calls call =
      if call = w.nextCall then some (p, id) else w.calls call := by
    intro call
    exact Function.update_apply ..
  have fresh : ∀ call x, w.calls call = some x → call ≠ w.nextCall := by
    rintro call x sent rfl
    rw [hides.coming _ (Nat.le_refl _)] at sent
    contradiction
  have unsent : ∀ call, w.calls call ≠ some (p, id) := by
    intro call sent
    rw [hides.apart p id call sent] at pending
    contradiction
  constructor
  · intro q j
    rw [hidden_eq, timers, hides.iff_open]
    by_cases cell : q = p ∧ j = id
    · obtain ⟨rfl, rfl⟩ := cell
      have sent : ∃ call, (commitDelete { w with clock := clock } k q j).calls call = some (q, j) :=
        ⟨w.nextCall, by rw [calls_eq, if_pos rfl]⟩
      simp [pending, sent]
    · rw [if_neg cell]
      refine or_congr_right ⟨fun ⟨call, sent⟩ => ⟨call, ?_⟩, fun ⟨call, sent⟩ => ⟨call, ?_⟩⟩
      · rw [calls_eq, if_neg (fresh call _ sent)]
        exact sent
      · rw [calls_eq] at sent
        split at sent
        · obtain ⟨rfl, rfl⟩ := Prod.mk.inj (Option.some.inj sent)
          exact absurd ⟨rfl, rfl⟩ cell
        · exact sent
  · intro q j call sent
    rw [calls_eq] at sent
    rw [timers]
    split at sent
    · obtain ⟨rfl, rfl⟩ := Prod.mk.inj (Option.some.inj sent)
      rw [if_pos ⟨rfl, rfl⟩]
    · rw [hides.apart q j call sent, ite_self]
  · intro a b x first second
    rw [calls_eq] at first second
    split at first
    · split at second
      · rename_i same same'
        rw [same, same']
      · rw [← first] at second
        exact absurd second (unsent b)
    · split at second
      · rw [← second] at first
        exact absurd first (unsent a)
      · exact hides.single a b x first second
  · intro call later
    rw [calls_eq, if_neg (by
      rintro rfl
      exact Nat.lt_irrefl _ later)]
    exact hides.coming call (Nat.le_of_succ_le later)

/- Undo, and the end of the request: nothing is open for the message any more. -/
theorem removed_hides (p id : Nat) (hides : Hides w) (pages : ∀ q j,
    timerOf w' q j = if q = p ∧ j = id then none else timerOf w q j)
    (hidden_eq : ∀ q, hidden w' q = if q = p then (hidden w q).erase id else hidden w q)
    (calls : ∀ call, w'.calls call = if w.calls call = some (p, id) then none else w.calls call)
    (nextCall : w'.nextCall = w.nextCall) : Hides w' := by
  constructor
  · intro q j
    rw [hidden_eq, pages]
    by_cases cell : q = p ∧ j = id
    · obtain ⟨rfl, rfl⟩ := cell
      have none_left : ¬ ∃ call, w'.calls call = some (q, j) := by
        rintro ⟨call, sent⟩
        rw [calls] at sent
        split at sent
        · contradiction
        · rename_i differs
          exact differs sent
      simp [none_left]
    · have listed : j ∈ (if q = p then (hidden w q).erase id else hidden w q) ↔ j ∈ hidden w q := by
        split
        · rename_i own
          rw [Finset.mem_erase, and_iff_right fun same => cell ⟨own, same⟩]
        · rfl
      rw [listed, hides.iff_open, if_neg cell]
      refine or_congr_right (exists_congr fun call => ?_)
      rw [calls]
      split
      · rename_i sent
        rw [sent]
        simp only [Option.some.injEq, Prod.mk.injEq, reduceCtorEq, iff_false]
        exact fun same => cell ⟨same.1.symm, same.2.symm⟩
      · rfl
  · intro q j call sent
    rw [calls] at sent
    split at sent
    · contradiction
    · rw [pages, hides.apart q j call sent, ite_self]
  · intro a b x first second
    rw [calls] at first second
    split at first
    · contradiction
    · split at second
      · contradiction
      · exact hides.single a b x first second
  · intro call later
    rw [calls, hides.coming call (nextCall ▸ later), ite_self]

theorem next_hides (sound : Sound w) (hides : Hides w) {l : Label}
    (step : restrict onlyShown next w l = some w') : Hides w' := by
  obtain ⟨allowed, step⟩ := restrict_step step
  cases l with
  | delete id =>
    have result : handleDelete w id = w' := Option.some.inj step
    exact result ▸ accept_hides hides (by simpa [onlyShown] using allowed)
  | undo toast =>
    obtain ⟨t, shown, p, id, rfl, action, rfl⟩ := undo_step step
    obtain ⟨k, _, _, _, pending, _⟩ := sound.offered t shown p id action
    have unsent : ∀ call, w.calls call ≠ some (p, id) := by
      intro call sent
      rw [hides.apart p id call sent] at pending
      contradiction
    refine removed_hides p id hides (undo_timers w p id t.id) ?_ ?_ rfl
    · intro q
      show (Function.update (Function.update w.pages p _) p _ q).pendingDeleteIds = _
      by_cases own : q = p
      · subst own
        simp [forget, setPage, hidden]
      · simp [own, hidden]
    · intro call
      rw [if_neg (unsent call)]
      rfl
  | dismiss toast =>
    obtain ⟨t, _, rfl⟩ := Option.map_eq_some_iff.mp step
    exact same_hides hides ⟨rfl, rfl, rfl⟩
  | notify message duration =>
    rw [next, Option.some.injEq] at step
    exact step ▸ same_hides hides ⟨rfl, rfl, rfl⟩
  | fire =>
    unfold next at step
    dsimp only at step
    split at step
    · rename_i fires
      rw [Option.some.injEq] at step
      exact step ▸ commit_hides hides (sound.committing _ _ _ _ (fire_first fires).1)
    · rw [Option.some.injEq] at step
      exact step ▸ same_hides hides ⟨rfl, rfl, rfl⟩
    · contradiction
  | wait elapsed =>
    rw [next, Option.some.injEq] at step
    exact step ▸ same_hides hides ⟨rfl, rfl, rfl⟩
  | answer call failure =>
    unfold next at step
    dsimp only at step
    split at step
    · rename_i p id sent
      rw [Option.some.injEq] at step
      subst step
      have idle := hides.apart p id call sent
      have parts : (finishDelete w call p id failure).calls = Function.update w.calls call none ∧
          (finishDelete w call p id failure).nextCall = w.nextCall ∧
          (finishDelete w call p id failure).pages = Function.update w.pages p
            { w.pages p with pendingDeleteIds := (w.pages p).pendingDeleteIds.erase id } := by
        cases failure <;> exact ⟨rfl, rfl, rfl⟩
      obtain ⟨calls, nextCall, pages⟩ := parts
      refine removed_hides p id hides ?_ ?_ ?_ nextCall
      · intro q j
        unfold timerOf at idle ⊢
        rw [pages]
        by_cases own : q = p
        · subst own
          by_cases same : j = id
          · subst same
            simp [idle]
          · simp [same]
        · simp [own]
      · intro q
        unfold hidden
        rw [pages]
        by_cases own : q = p
        · subst own
          simp
        · simp [own]
      · intro other
        rw [calls, Function.update_apply]
        by_cases same : other = call
        · subst same
          rw [if_pos rfl, if_pos sent]
        · rw [if_neg same]
          split
          · rename_i sent'
            exact absurd (hides.single other call _ sent' sent) same
          · rfl
    · contradiction
  | select id =>
    rw [next, Option.some.injEq] at step
    exact step ▸ same_hides hides ⟨rfl, rfl, rfl⟩
  | remount =>
    rw [next, Option.some.injEq] at step
    exact step ▸ same_hides hides ⟨rfl, rfl, rfl⟩

theorem initial_hides : Hides .initial := by
  constructor <;> simp [World.initial, hidden, timerOf]

/-- As long as Delete is used on messages that the mounted page shows, each instance of the
page hides exactly the messages whose delete timer it has armed or whose request it has on
the way, never both at once, and it has at most one such request for a message. -/
theorem open_deletes_are_hidden {labels : List Label}
    (run : replay (restrict onlyShown next) .initial labels = some w) :
    (∀ p id, id ∈ hidden w p ↔ timerOf w p id ≠ none ∨ ∃ call, w.calls call = some (p, id)) ∧
      (∀ p id call, w.calls call = some (p, id) → timerOf w p id = none) ∧
      ∀ a b x, w.calls a = some x → w.calls b = some x → a = b := by
  have inv : Sound w ∧ Hides w := by
    refine replay_invariant (fun w => Sound w ∧ Hides w) ⟨initial_sound, initial_hides⟩ ?_ run
    intro w l w' before step
    exact ⟨next_sound before.1 (restrict_step step).2, next_hides before.1 before.2 step⟩
  exact ⟨inv.2.iff_open, inv.2.apart, inv.2.single⟩

/- Before the request of the second delete is answered. -/
theorem request_open : (replay (restrict onlyShown next) .initial
    (lastMoment.take 8)).map (fun w => w.calls 0) = some (some (0, 8)) := rfl

theorem open_deletes_are_hidden_last_moment : ∃ w,
    replay (restrict onlyShown next) .initial (lastMoment.take 8) = some w ∧ 8 ∈ hidden w 0 := by
  obtain ⟨w, run, sent⟩ := Option.map_eq_some_iff.mp request_open
  exact ⟨w, run, ((open_deletes_are_hidden run).1 0 8).mpr (Or.inr ⟨0, sent⟩)⟩

end InboxHiddenDeletes
