import InboxOne.Activity
import InboxOne.LabelledRuns
import InboxOne.OverflowQueue

/-!
`live.publish` and the response of `/api/sync/events` to each of its subscribers. The
only await of the response that matters here is that of `live.snapshot`: the list of
activities is read after it. What `live.snapshot` answers and the heartbeats are left out.
-/
namespace InboxEventStream
open InboxActivity LabelledRuns OverflowQueue

abbrev Items := List (Nat × Item)

inductive Event where
  | activity (items : Items)
  | connection (accountId folderId : Option Nat)
  | folder (accountId folderId : Nat)
  | folders (accountId : Nat)
  | settings
  deriving DecidableEq, Repr

def Event.items : Event → Option Items
  | .activity items => some items
  | _ => none

abbrev Subscriber := Consumer Event Items

structure World where
  activities : Activities
  published : List Event
  subscribers : Nat → Option Subscriber

def World.initial : World := ⟨.empty, [], fun _ => none⟩

def publish (capacity : Nat) (w : World) (event : Event) : World :=
  { w with
    published := w.published ++ [event]
    subscribers := fun k => (w.subscribers k).map (offer capacity w.published.length event) }

/-- `activity._publish`, after a change of the table. -/
def publishActivity (capacity : Nat) (w : World) (activities : Activities) : World :=
  publish capacity { w with activities := activities } (.activity activities.snapshot)

def beginActivity (capacity : Nat) (w : World) (item : Item) : World :=
  publishActivity capacity w (w.activities.begin item).1

def isActive (activities : Activities) (id : Nat) : Bool :=
  activities.active.any fun entry => entry.1 = id

def updateActivity (capacity : Nat) (w : World) (id : Nat) (values : Item → Item) : World :=
  if isActive w.activities id then publishActivity capacity w (w.activities.update id values)
  else w

def finishActivity (capacity : Nat) (w : World) (id : Nat) : World :=
  if isActive w.activities id then publishActivity capacity w (w.activities.finish id) else w

inductive Label where
  | begin (item : Item)
  | update (id : Nat) (values : Item → Item)
  | finish (id : Nat)
  | connection (accountId folderId : Option Nat)
  | folder (accountId folderId : Nat)
  | folders (accountId : Nat)
  | settings
  | connect (k : Nat)
  | get (k : Nat)
  | statusAnswered (k : Nat)
  | disconnect (k : Nat)

def World.set (w : World) (k : Nat) (subscriber : Option Subscriber) : World :=
  { w with subscribers := Function.update w.subscribers k subscriber }

/- The step of one response; all others are as before. -/
def stepSubscriber (w : World) (k : Nat) (step : Subscriber → Option Subscriber) :
    Option World :=
  match (w.subscribers k).bind step with
  | some subscriber => some (w.set k (some subscriber))
  | none => none

def next (capacity : Nat) (w : World) : Label → Option World
  | .begin item => some (beginActivity capacity w item)
  | .update id values => some (updateActivity capacity w id values)
  | .finish id => some (finishActivity capacity w id)
  | .connection accountId folderId => some (publish capacity w (.connection accountId folderId))
  | .folder accountId folderId => some (publish capacity w (.folder accountId folderId))
  | .folders accountId => some (publish capacity w (.folders accountId))
  | .settings => some (publish capacity w .settings)
  | .connect k =>
      match w.subscribers k with
      | none => some (w.set k (some (connected w.published.length)))
      | some _ => none
  | .get k => stepSubscriber w k (take w.published.length)
  | .statusAnswered k => stepSubscriber w k (answer w.activities.snapshot)
  | .disconnect k => some (w.set k none)

/-- What one step means for a response that was registered before: an event was offered to
    it, or it made a step of its own, or nothing happened. -/
inductive SubscriberStep (capacity : Nat) (w w' : World) (c c' : Subscriber) : Prop where
  | offered (event : Event) (published : w'.published = w.published ++ [event])
      (carried : w'.activities.snapshot = event.items.getD w.activities.snapshot)
      (eq : c' = offer capacity w.published.length event c)
  | moved (published : w'.published = w.published) (activities : w'.activities = w.activities)
      (stepped : c' = c ∨ take w.published.length c = some c' ∨
        answer w.activities.snapshot c = some c')

theorem publish_step {capacity : Nat} {w : World} {activities : Activities} {event : Event}
    (carried : activities.snapshot = event.items.getD w.activities.snapshot) {k : Nat}
    {c' : Subscriber}
    (registered : (publish capacity { w with activities := activities } event).subscribers k =
      some c') :
    ∃ c, w.subscribers k = some c ∧
      SubscriberStep capacity w (publish capacity { w with activities := activities } event) c c' := by
  obtain ⟨c, before, offered⟩ := Option.map_eq_some_iff.mp registered
  exact ⟨c, before, .offered event rfl carried offered.symm⟩

theorem unchanged_step {capacity : Nat} {w : World} {k : Nat} {c : Subscriber}
    (registered : w.subscribers k = some c) :
    ∃ c', w.subscribers k = some c' ∧ SubscriberStep capacity w w c' c :=
  ⟨c, registered, .moved rfl rfl (Or.inl rfl)⟩

theorem set_step {capacity : Nat} {w : World} {j k : Nat} {new : Option Subscriber}
    {c' : Subscriber} (registered : (w.set j new).subscribers k = some c')
    (own : ∀ c', k = j → new = some c' → ∃ c, w.subscribers k = some c ∧
      (take w.published.length c = some c' ∨ answer w.activities.snapshot c = some c')) :
    ∃ c, w.subscribers k = some c ∧ SubscriberStep capacity w (w.set j new) c c' := by
  change Function.update w.subscribers j new k = some c' at registered
  by_cases same : k = j
  · have updated : new = some c' := by rw [← registered, same, Function.update_self]
    obtain ⟨c, before, stepped⟩ := own c' same updated
    exact ⟨c, before, .moved rfl rfl (Or.inr stepped)⟩
  · rw [Function.update_of_ne same] at registered
    exact ⟨c', registered, .moved rfl rfl (Or.inl rfl)⟩

theorem step_subscriber_cases {w w' : World} {k : Nat}
    {step : Subscriber → Option Subscriber} (stepped : stepSubscriber w k step = some w') :
    ∃ before after, w.subscribers k = some before ∧ step before = some after ∧
      w' = w.set k (some after) := by
  unfold stepSubscriber at stepped
  split at stepped
  · rename_i after moved
    obtain ⟨before, registered, moves⟩ := Option.bind_eq_some_iff.mp moved
    exact ⟨before, after, registered, moves, (Option.some.inj stepped).symm⟩
  · contradiction

theorem subscriber_step {capacity : Nat} {w w' : World} {l : Label} {k : Nat} {c' : Subscriber}
    (step : next capacity w l = some w') (registered : w'.subscribers k = some c')
    (earlier : l ≠ .connect k) :
    ∃ c, w.subscribers k = some c ∧ SubscriberStep capacity w w' c c' := by
  cases l with
  | begin item =>
    cases step
    exact publish_step rfl registered
  | update id values =>
    cases step
    unfold updateActivity at registered ⊢
    split at registered
    · rename_i active
      rw [if_pos active]
      exact publish_step rfl registered
    · rename_i inactive
      rw [if_neg inactive]
      exact unchanged_step registered
  | finish id =>
    cases step
    unfold finishActivity at registered ⊢
    split at registered
    · rename_i active
      rw [if_pos active]
      exact publish_step rfl registered
    · rename_i inactive
      rw [if_neg inactive]
      exact unchanged_step registered
  | connection accountId folderId =>
    cases step
    exact publish_step rfl registered
  | folder accountId folderId =>
    cases step
    exact publish_step rfl registered
  | folders accountId =>
    cases step
    exact publish_step rfl registered
  | settings =>
    cases step
    exact publish_step rfl registered
  | connect j =>
    simp only [next] at step
    split at step
    · cases step
      apply set_step registered
      intro c' same _
      exact absurd (congrArg Label.connect same.symm) earlier
    · contradiction
  | get j =>
    obtain ⟨before, after, found, taken, eq⟩ := step_subscriber_cases step
    subst eq
    apply set_step registered
    intro c' same updated
    exact ⟨before, same ▸ found, Or.inl (updated ▸ taken)⟩
  | statusAnswered j =>
    obtain ⟨before, after, found, answered, eq⟩ := step_subscriber_cases step
    subst eq
    apply set_step registered
    intro c' same updated
    exact ⟨before, same ▸ found, Or.inr (updated ▸ answered)⟩
  | disconnect j =>
    cases step
    apply set_step registered
    intro c' _ gone
    contradiction

theorem connect_step {capacity : Nat} {w w' : World} {k : Nat}
    (step : next capacity w (.connect k) = some w') :
    w' = w.set k (some (connected w.published.length)) := by
  simp only [next] at step
  split at step
  · exact (Option.some.inj step).symm
  · contradiction

def Sound (w : World) : Prop :=
  ∀ k subscriber, w.subscribers k = some subscriber →
    subscriber.Sound Event.items w.published w.activities.snapshot

theorem next_sound {capacity : Nat} {w w' : World} {l : Label} (sound : Sound w)
    (step : next capacity w l = some w') : Sound w' := by
  intro k c' registered
  by_cases new : l = .connect k
  · subst new
    rw [connect_step step] at registered ⊢
    have same := Function.update_self k (some (connected w.published.length)) w.subscribers
    have eq : connected w.published.length = c' :=
      Option.some.inj (same.symm.trans registered)
    exact eq ▸ connected_sound Event.items w.published w.activities.snapshot
  · obtain ⟨c, before, cases⟩ := subscriber_step step registered new
    have kept := sound k c before
    cases cases with
    | offered event published carried eq =>
      rw [published, carried, eq]
      exact offer_sound kept capacity event
    | moved published activities stepped =>
      rw [published, activities]
      rcases stepped with same | taken | answered
      · exact same ▸ kept
      · exact take_sound kept taken
      · exact answer_sound kept answered

theorem run_sound {capacity : Nat} {labels : List Label} {w : World}
    (run : replay (next capacity) .initial labels = some w) : Sound w :=
  replay_invariant Sound (by intro k subscriber registered; contradiction)
    (fun _ _ _ sound step => next_sound sound step) run

/- Steps of the response k alone. -/
def Own (k : Nat) (l : Label) : Prop := l = .get k ∨ l = .statusAnswered k

/-- A response whose client is served goes on until it waits at an empty queue. -/
theorem subscriber_settles (capacity : Nat) {w : World} {k : Nat} {subscriber : Subscriber}
    (registered : w.subscribers k = some subscriber) :
    ∃ labels settled, (∀ l ∈ labels, Own k l) ∧
      replay (next capacity) w labels = some (w.set k (some settled)) ∧ settled.Idle ∧
      settled.sent = subscriber.stream w.published.length w.activities.snapshot := by
  induction bound : remaining subscriber using Nat.strongRecOn generalizing w subscriber with
  | ind bound' ih =>
    rcases consumer_progress subscriber w.published.length w.activities.snapshot with
      idle | ⟨moved, less, step⟩
    · refine ⟨[], subscriber, by simp, ?_, idle, (stream_idle idle).symm⟩
      rw [replay_nil, World.set, ← registered, Function.update_eq_self]
    · have found : (w.set k (some moved)).subscribers k = some moved := Function.update_self ..
      obtain ⟨labels, settled, own, run, idle, sent⟩ := ih (remaining moved) (by omega) found rfl
      have twice : (w.set k (some moved)).set k (some settled) = w.set k (some settled) := by
        simp [World.set]
      rw [twice] at run
      have stepped : ∃ l, Own k l ∧ next capacity w l = some (w.set k (some moved)) ∧
          moved.stream w.published.length w.activities.snapshot =
            subscriber.stream w.published.length w.activities.snapshot := by
        rcases step with taken | answered
        · refine ⟨.get k, Or.inl rfl, ?_, (stream_take taken _).1⟩
          simp [next, stepSubscriber, registered, taken]
        · refine ⟨.statusAnswered k, Or.inr rfl, ?_, (stream_answer answered _).1⟩
          simp [next, stepSubscriber, registered, answered]
      obtain ⟨l, ownStep, stepEq, same⟩ := stepped
      refine ⟨l :: labels, settled, ?_, ?_, idle, sent.trans same⟩
      · intro l' mem
        rcases List.mem_cons.mp mem with first | rest
        · exact first ▸ ownStep
        · exact own l' rest
      · rw [replay_cons, stepEq]
        exact run

/-- In every run, with any number of responses and any capacity: the stream of a
    response holds events published since it registered, in their order, and every other
    such event is made good by a later snapshot; a response that waits at an empty queue
    was last sent the present list of activities; and it gets there by its own steps,
    which send what its stream still held. -/
theorem event_stream_converges {capacity : Nat} {labels : List Label} {w : World}
    (run : replay (next capacity) .initial labels = some w) {k : Nat} {subscriber : Subscriber}
    (registered : w.subscribers k = some subscriber) :
    Faithful w.published subscriber.since
        (subscriber.stream w.published.length w.activities.snapshot) ∧
      (subscriber.Idle → Faithful w.published subscriber.since subscriber.sent ∧
        ShowsLast Event.items w.activities.snapshot subscriber.sent) ∧
      ∃ steps settled, (∀ l ∈ steps, Own k l) ∧
        replay (next capacity) w steps = some (w.set k (some settled)) ∧ settled.Idle ∧
        settled.sent = subscriber.stream w.published.length w.activities.snapshot := by
  have sound := run_sound run k subscriber registered
  refine ⟨sound.faithful, ?_, subscriber_settles capacity registered⟩
  intro idle
  have all : subscriber.stream w.published.length w.activities.snapshot = subscriber.sent :=
    stream_idle idle
  exact ⟨all ▸ sound.faithful, all ▸ sound.latest⟩

def sendingItem (startedAt : Nat) : Item where
  label := "Sending…"
  kind := .send
  state := .running
  startedAt := startedAt
  accountId := some 1
  folderId := none
  messageId := none
  folderIds := none
  parentId := none

/- A place for one event overflows while the first snapshot is computed, and the work
   ends while the snapshot for the marker is computed. -/
def overflowLabels : List Label :=
  [.connect 0, .begin (sendingItem 5), .connection (some 1) none, .statusAnswered 0, .get 0,
    .finish 0, .statusAnswered 0, .get 0]

example : (replay (next 1) .initial overflowLabels).bind (fun w =>
      (w.subscribers 0).map Consumer.sent) =
    some [.snapshot 0 [(0, sendingItem 5)], .snapshot 2 [], .event 2 (.activity [])] := by
  decide

theorem event_stream_converges_overflow : ∃ w subscriber,
    replay (next 1) .initial overflowLabels = some w ∧ w.subscribers 0 = some subscriber ∧
      subscriber.Idle ∧ ShowsLast Event.items w.activities.snapshot subscriber.sent := by
  have ends : ∃ w subscriber, replay (next 1) .initial overflowLabels = some w ∧
      w.subscribers 0 = some subscriber ∧ subscriber.Idle := ⟨_, _, rfl, rfl, rfl, rfl⟩
  obtain ⟨w, subscriber, run, registered, idle⟩ := ends
  exact ⟨w, subscriber, run, registered, idle,
    ((event_stream_converges run registered).2.1 idle).2⟩

end InboxEventStream
