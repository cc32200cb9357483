import InboxOne.OwnedIds
import InboxOne.Requests

/-!
Everything that begins and finishes an activity: the queue of requests, the passes of the
drain tasks and the blocks of `activity.track`, which nest. A task other than a drain task
inherits the parent of the context it was created in. `within` records for each activity
the one that was current where it began; the code keeps no such table.
-/
namespace InboxBusyIndicator
open LabelledRuns InboxActivity InboxRequests OwnedIds

/-- A task that runs tracked blocks: any task, or a drain task in its pass. -/
inductive Source where
  | task (task : Nat)
  | drain (task : Nat)
  deriving DecidableEq, Repr

structure World where
  requests : Requests
  inherited : Nat → Option (Option Nat)
  blocks : Source → List Nat
  within : Nat → Option Nat

def World.initial : World := ⟨.initial, fun _ => none, fun _ => [], fun _ => none⟩

/-- The activity of the pass that a drain task is in, a cancelled one included. -/
def passActivity (s : Requests) (task : Nat) : Option Nat :=
  (s.tasks task).bind fun drain =>
    match drain.phase with
    | .inPass _ activity => some activity
    | _ => none

/-- `_parent.get()` where the source runs; `none` when it does not run code. -/
def currentParent (w : World) : Source → Option (Option Nat)
  | .task task => (w.inherited task).map fun parent => (w.blocks (.task task)).head?.or parent
  | .drain task =>
      (passActivity w.requests task).map fun activity =>
        (w.blocks (.drain task)).head?.or (some activity)

def setBlocks (w : World) (source : Source) (blocks : List Nat) : Source → List Nat :=
  Function.update w.blocks source blocks

/-- The beginning of a block of `activity.track`. -/
def track (w : World) (source : Source) (parent : Option Nat) (item : Item) : World :=
  let begun := w.requests.activities.begin { item with parentId := parent }
  { w with
    requests := { w.requests with activities := begun.1 }
    blocks := setBlocks w source (begun.2 :: w.blocks source)
    within := Function.update w.within begun.2 parent }

/-- The end of the innermost block, by whatever way it is left. -/
def untrack (w : World) (source : Source) (id : Nat) (rest : List Nat) : World :=
  { w with
    requests := { w.requests with activities := w.requests.activities.finish id }
    blocks := setBlocks w source rest }

def requestFrom (w : World) (parent : Option Nat) (account : Nat) (folders : Option (Finset Nat))
    (discover : Bool) (now : Nat) : World :=
  { w with
    requests := (requestSync w.requests account folders discover parent now).1
    within :=
      match w.requests.pendingActivity account with
      | some _ => w.within
      | none => Function.update w.within w.requests.activities.issued parent }

inductive Label where
  | spawn (task : Nat) (creator : Option Source)
  | exit (task : Nat)
  | track (source : Source) (item : Item)
  | untrack (source : Source)
  | request (source : Source) (account : Nat) (folders : Option (Finset Nat)) (discover : Bool)
      (now : Nat)
  | cancel (account : Nat)
  | start (task : Nat)
  | passEnds (task : Nat) (outcome : Outcome)
  | doneCallback (task : Nat)

def stepRequests (w : World) (l : InboxRequests.Label) : Option World :=
  (InboxRequests.next w.requests l).map fun requests => { w with requests := requests }

def next (w : World) : Label → Option World
  | .spawn task creator =>
      match w.inherited task with
      | some _ => none
      | none =>
          match creator with
          | none => some { w with inherited := Function.update w.inherited task (some none) }
          | some source =>
              (currentParent w source).map fun parent =>
                { w with inherited := Function.update w.inherited task (some parent) }
  | .exit task =>
      if w.blocks (.task task) = [] then
        some { w with inherited := Function.update w.inherited task none }
      else none
  | .track source item => (currentParent w source).map fun parent => track w source parent item
  | .untrack source =>
      match w.blocks source with
      | id :: rest => some (untrack w source id rest)
      | [] => none
  | .request source account folders discover now =>
      (currentParent w source).map fun parent => requestFrom w parent account folders discover now
  | .cancel account => stepRequests w (.cancel account)
  | .start task => stepRequests w (.start task)
  -- a pass has left its blocks when it ends
  | .passEnds task outcome =>
      if w.blocks (.drain task) = [] then stepRequests w (.passEnds task outcome) else none
  | .doneCallback task => stepRequests w (.doneCallback task)

/-- Where an activity is held until it is finished. -/
inductive Place where
  | queue (account : Nat)
  | pass (task : Nat)
  | block (source : Source)
  deriving DecidableEq, Repr

def Holds (w : World) : Place → Nat → Prop
  | .queue account, id => w.requests.pendingActivity account = some id
  | .pass task, id => passActivity w.requests task = some id
  | .block source, id => id ∈ w.blocks source

/-- A queued request, a pass or a tracked block that has not ended. -/
def Open (w : World) (id : Nat) : Prop := ∃ place, Holds w place id

def shown (w : World) : List Nat := w.requests.activities.snapshot.map Prod.fst

def keys (activities : Activities) : List Nat := activities.active.map Prod.fst

/-- An entry of the table: its parent is where it began, and older than itself. -/
structure Rooted (within : Nat → Option Nat) (issued : Nat) (entry : Nat × Item) : Prop where
  issued : entry.1 < issued
  parent : entry.2.parentId = within entry.1
  older : ∀ p, within entry.1 = some p → p < entry.1

structure Accounted (w : World) : Prop where
  same : ∀ account, (w.requests.pending account).isSome =
    (w.requests.pendingActivity account).isSome
  exact : Exact (Holds w) (keys w.requests.activities)
  distinct : ∀ source, (w.blocks source).Nodup
  rooted : ∀ entry ∈ w.requests.activities.active,
    Rooted w.within w.requests.activities.issued entry
  inherits : ∀ task p, w.inherited task = some (some p) → p < w.requests.activities.issued

theorem initial_accounted : Accounted .initial := by
  constructor
  · intro account
    rfl
  · constructor
    · exact List.nodup_nil
    · intro id
      constructor
      · intro mem
        contradiction
      · intro found
        obtain ⟨place, hold⟩ := found
        cases place with
        | queue account => contradiction
        | pass task => contradiction
        | block source => contradiction
    · intro id first second one
      cases first with
      | queue account => contradiction
      | pass task => contradiction
      | block source => contradiction
  · intro source
    exact List.nodup_nil
  · intro entry mem
    contradiction
  · intro task p inherited
    contradiction

/-! ### The activity table -/

theorem rewrite_keys (active : List (Nat × Item)) (id : Nat) (f : Item → Item) :
    (rewriteItem active id f).map Prod.fst = active.map Prod.fst := by
  unfold rewriteItem
  rw [List.map_map]
  refine List.map_congr_left fun entry _ => ?_
  simp only [Function.comp]
  split <;> rfl

theorem keys_begin (s : Activities) (item : Item) :
    keys (s.begin item).1 = keys s ++ [s.issued] := by
  unfold keys Activities.begin
  simp only [List.map_append, List.map_cons, List.map_nil]
  congr 1
  split
  · split
    · exact rewrite_keys s.active _ _
    · rfl
  · rfl

theorem keys_update (s : Activities) (id : Nat) (f : Item → Item) :
    keys (s.update id f) = keys s := rewrite_keys s.active id f

theorem keys_finish (s : Activities) (id : Nat) :
    keys (s.finish id) = (keys s).filter fun x => x ≠ id := by
  unfold keys Activities.finish
  rw [List.filter_map]
  rfl

/- An entry with the same key and the same parent. -/
theorem rooted_rewrite {within : Nat → Option Nat} {issued : Nat} {active : List (Nat × Item)}
    {id : Nat} {f : Item → Item} (kept : ∀ item, (f item).parentId = item.parentId)
    (rooted : ∀ entry ∈ active, Rooted within issued entry) :
    ∀ entry ∈ rewriteItem active id f, Rooted within issued entry := by
  intro entry mem
  obtain ⟨⟨key, item⟩, old, eq⟩ := List.mem_map.mp mem
  have former := rooted _ old
  simp only at eq
  split at eq
  · rw [← eq]
    exact ⟨former.issued, (kept item).trans former.parent, former.older⟩
  · rw [← eq]
    exact former

theorem rooted_update {within : Nat → Option Nat} {issued : Nat} (s : Activities) (id : Nat)
    (f : Item → Item) (kept : ∀ item, (f item).parentId = item.parentId)
    (rooted : ∀ entry ∈ s.active, Rooted within issued entry) :
    ∀ entry ∈ (s.update id f).active, Rooted within issued entry :=
  rooted_rewrite kept rooted

theorem rooted_finish {within : Nat → Option Nat} {s : Activities} {id : Nat}
    (rooted : ∀ entry ∈ s.active, Rooted within s.issued entry) :
    ∀ entry ∈ (s.finish id).active, Rooted within (s.finish id).issued entry :=
  fun entry mem => rooted entry (List.mem_of_mem_filter mem)

theorem rooted_begin {within : Nat → Option Nat} {s : Activities} {item : Item}
    (rooted : ∀ entry ∈ s.active, Rooted within s.issued entry)
    (older : ∀ p, item.parentId = some p → p < s.issued) :
    ∀ entry ∈ (s.begin item).1.active,
      Rooted (Function.update within s.issued item.parentId) (s.begin item).1.issued entry := by
  have grown : ∀ entry, Rooted within s.issued entry →
      Rooted (Function.update within s.issued item.parentId) (s.issued + 1) entry := by
    intro entry former
    have other : entry.1 ≠ s.issued := Nat.ne_of_lt former.issued
    constructor
    · exact Nat.lt_succ_of_lt former.issued
    · rw [Function.update_of_ne other]
      exact former.parent
    · rw [Function.update_of_ne other]
      exact former.older
  intro entry mem
  simp only [Activities.begin] at mem
  rcases List.mem_append.mp mem with old | new
  · refine grown entry ?_
    split at old
    · split at old
      · refine rooted_rewrite ?_ rooted entry old
        exact fun _ => rfl
      · exact rooted entry old
    · exact rooted entry old
  · rw [List.mem_singleton] at new
    subst new
    constructor
    · exact Nat.lt_succ_self s.issued
    · simp only [Function.update_self]
    · rw [Function.update_self]
      exact older

theorem begin_id (s : Activities) (item : Item) : (s.begin item).2 = s.issued := rfl

variable {w w' : World}

theorem open_issued (accounted : Accounted w) {id : Nat} (isOpen : Open w id) :
    id < w.requests.activities.issued := by
  have mem := (accounted.exact.held id).mpr isOpen
  obtain ⟨entry, found, rfl⟩ := List.mem_map.mp mem
  exact (accounted.rooted entry found).issued

theorem issued_fresh (accounted : Accounted w) :
    w.requests.activities.issued ∉ keys w.requests.activities := by
  intro mem
  have := open_issued accounted ((accounted.exact.held _).mp mem)
  omega

theorem parent_issued (accounted : Accounted w) {source : Source} {parent : Option Nat}
    (current : currentParent w source = some parent) :
    ∀ p, parent = some p → p < w.requests.activities.issued := by
  have block : ∀ {p rest}, w.blocks source = p :: rest → p < w.requests.activities.issued := by
    intro p rest eq
    apply open_issued accounted
    exact ⟨.block source, by rw [Holds, eq]; exact List.mem_cons_self⟩
  intro p eq
  subst eq
  cases source with
  | task task =>
    obtain ⟨inherited, found, eq⟩ := Option.map_eq_some_iff.mp current
    cases blocks : w.blocks (.task task) with
    | nil =>
      simp only [blocks, List.head?_nil, Option.none_or] at eq
      exact accounted.inherits task p (eq ▸ found)
    | cons first rest =>
      simp only [blocks, List.head?_cons, Option.some_or, Option.some.injEq] at eq
      exact eq ▸ block blocks
  | drain task =>
    obtain ⟨activity, found, eq⟩ := Option.map_eq_some_iff.mp current
    cases blocks : w.blocks (.drain task) with
    | nil =>
      simp only [blocks, List.head?_nil, Option.none_or, Option.some.injEq] at eq
      exact open_issued accounted ⟨.pass task, eq ▸ found⟩
    | cons first rest =>
      simp only [blocks, List.head?_cons, Option.some_or, Option.some.injEq] at eq
      exact eq ▸ block blocks

theorem inherits_mono (accounted : Accounted w) {issued : Nat}
    (grown : w.requests.activities.issued ≤ issued) :
    ∀ task p, w.inherited task = some (some p) → p < issued :=
  fun task p found => Nat.lt_of_lt_of_le (accounted.inherits task p found) grown

/-! ### The tracked blocks -/

theorem set_blocks_other (w : World) {source other : Source} (apart : other ≠ source)
    (blocks : List Nat) : setBlocks w source blocks other = w.blocks other :=
  Function.update_of_ne apart ..

theorem holds_set_blocks {requests : Requests} {within : Nat → Option Nat} {source : Source}
    {blocks : List Nat} (sameQueue : requests.pendingActivity = w.requests.pendingActivity)
    (sameTasks : requests.tasks = w.requests.tasks) :
    ∀ p, p ≠ .block source → ∀ x,
      Holds ⟨requests, w.inherited, setBlocks w source blocks, within⟩ p x ↔ Holds w p x := by
  intro p apart x
  cases p with
  | queue account => simp only [Holds, sameQueue]
  | pass task => simp only [Holds, passActivity, sameTasks]
  | block other =>
    have different : other ≠ source := fun eq => apart (congrArg Place.block eq)
    simp only [Holds, set_blocks_other w different]

theorem track_accounted (accounted : Accounted w) {source : Source} {parent : Option Nat}
    (current : currentParent w source = some parent) (item : Item) :
    Accounted (track w source parent item) := by
  have fresh := issued_fresh accounted
  constructor
  · exact accounted.same
  · simp only [track, keys_begin, begin_id]
    refine exact_open accounted.exact fresh ?_ (holds_set_blocks rfl rfl)
    intro x
    simp only [Holds, setBlocks, Function.update_self, List.mem_cons]
    exact or_comm
  · intro other
    by_cases here : other = source
    · subst here
      simp only [track, setBlocks, Function.update_self, begin_id, List.nodup_cons]
      refine ⟨?_, accounted.distinct other⟩
      exact fun mem => fresh ((accounted.exact.held _).mpr ⟨.block other, mem⟩)
    · simp only [track, set_blocks_other w here]
      exact accounted.distinct other
  · exact rooted_begin accounted.rooted (parent_issued accounted current)
  · exact inherits_mono accounted (Nat.le_succ _)

theorem untrack_accounted (accounted : Accounted w) {source : Source} {id : Nat}
    {rest : List Nat} (blocks : w.blocks source = id :: rest) :
    Accounted (untrack w source id rest) := by
  have stack := accounted.distinct source
  rw [blocks, List.nodup_cons] at stack
  constructor
  · exact accounted.same
  · simp only [untrack, keys_finish]
    have hold : Holds w (.block source) id := by
      rw [Holds, blocks]
      exact List.mem_cons_self
    refine exact_close accounted.exact hold ?_ (holds_set_blocks rfl rfl)
    intro x
    simp only [Holds, setBlocks, Function.update_self, blocks, List.mem_cons]
    constructor
    · exact fun mem => ⟨Or.inr mem, fun eq => stack.1 (eq ▸ mem)⟩
    · exact fun both => both.1.resolve_left both.2
  · intro other
    by_cases here : other = source
    · subst here
      simp only [untrack, setBlocks, Function.update_self]
      exact stack.2
    · simp only [untrack, set_blocks_other w here]
      exact accounted.distinct other
  · exact rooted_finish accounted.rooted
  · exact accounted.inherits

/-! ### The requests -/

theorem pass_activity_update (s : Requests) (task : Nat) (drain : Drain) (other : Nat) :
    passActivity { s with tasks := Function.update s.tasks task (some drain) } other =
      if other = task then
        match drain.phase with
        | .inPass _ activity => some activity
        | _ => none
      else passActivity s other := by
  unfold passActivity
  by_cases here : other = task
  · subst here
    simp only [Function.update_self, Option.bind_some, if_pos]
  · simp only [Function.update_of_ne here, if_neg here]

/- `request_sync` starts at most a task that has not begun. -/
theorem request_pass (s : Requests) (sound : Sound s) (account : Nat)
    (folders : Option (Finset Nat)) (discover : Bool) (parent : Option Nat) (now task : Nat) :
    passActivity (requestSync s account folders discover parent now).1 task =
      passActivity s task := by
  unfold requestSync ensureDrain
  split
  · rfl
  · refine (pass_activity_update (enqueue s account folders discover parent now) s.spawned _
      task).trans ?_
    split
    · rename_i here
      unfold passActivity
      rw [here, sound.unspawned s.spawned (Nat.le_refl _)]
      rfl
    · rfl

theorem request_queue (s : Requests) (account : Nat) (folders : Option (Finset Nat))
    (discover : Bool) (parent : Option Nat) (now : Nat) :
    let s' := (requestSync s account folders discover parent now).1
    let queued := queueActivity s account (pendingScope (s.pending account) folders discover).folders
      parent now
    s'.activities = queued.1 ∧
      s'.pendingActivity = Function.update s.pendingActivity account (some queued.2) ∧
      s'.pending = Function.update s.pending account
        (some (pendingScope (s.pending account) folders discover)) := by
  unfold requestSync ensureDrain
  split <;> exact ⟨rfl, rfl, rfl⟩

theorem queue_activity_present {s : Requests} {account id : Nat}
    (queued : s.pendingActivity account = some id) (folders : Option (Finset Nat))
    (parent : Option Nat) (now : Nat) :
    (queueActivity s account folders parent now).2 = id ∧
      keys (queueActivity s account folders parent now).1 = keys s.activities ∧
      (queueActivity s account folders parent now).1.issued = s.activities.issued ∧
      ∀ within issued, (∀ entry ∈ s.activities.active, Rooted within issued entry) →
        ∀ entry ∈ (queueActivity s account folders parent now).1.active,
          Rooted within issued entry := by
  have rewritten : queueActivity s account folders parent now =
      (s.activities.update id fun item =>
        { item with folderIds := sortedFolders folders, folderId := singleFolder folders }, id) := by
    simp only [queueActivity, queued]
  rw [rewritten]
  refine ⟨rfl, keys_update s.activities id _, rfl, ?_⟩
  intro within issued rooted
  exact rooted_update s.activities id _ (fun _ => rfl) rooted

theorem queue_activity_absent {s : Requests} {account : Nat}
    (idle : s.pendingActivity account = none) (folders : Option (Finset Nat))
    (parent : Option Nat) (now : Nat) :
    queueActivity s account folders parent now =
      s.activities.begin (queuedItem account folders parent now) := by
  simp only [queueActivity, idle]

theorem request_accounted (accounted : Accounted w) (sound : Sound w.requests)
    {source : Source} {parent : Option Nat} (current : currentParent w source = some parent)
    (account : Nat) (folders : Option (Finset Nat)) (discover : Bool) (now : Nat) :
    Accounted (requestFrom w parent account folders discover now) := by
  obtain ⟨activities, queue, pending⟩ :=
    request_queue w.requests account folders discover parent now
  have pass := request_pass w.requests sound account folders discover parent now
  have same : ∀ a, ((requestFrom w parent account folders discover now).requests.pending a).isSome =
      ((requestFrom w parent account folders discover now).requests.pendingActivity a).isSome := by
    intro a
    simp only [requestFrom, queue, pending]
    by_cases here : a = account
    · subst here
      simp only [Function.update_self, Option.isSome_some]
    · simp only [Function.update_of_ne here]
      exact accounted.same a
  have others : ∀ p, p ≠ .queue account → ∀ x,
      Holds (requestFrom w parent account folders discover now) p x ↔ Holds w p x := by
    intro p apart x
    cases p with
    | queue a =>
      have different : a ≠ account := fun eq => apart (congrArg Place.queue eq)
      simp only [Holds, requestFrom, queue, Function.update_of_ne different]
    | pass task => simp only [Holds, requestFrom, pass]
    | block other => rfl
  cases queued : w.requests.pendingActivity account with
  | some id =>
    obtain ⟨sameId, sameKeys, sameIssued, rooted⟩ := queue_activity_present queued
      (pendingScope (w.requests.pending account) folders discover).folders parent now
    constructor
    · exact same
    · simp only [requestFrom, activities, sameKeys]
      refine exact_congr accounted.exact ?_
      intro p x
      by_cases here : p = .queue account
      · subst here
        simp only [Holds, queue, Function.update_self, sameId, queued]
      · exact others p here x
    · exact accounted.distinct
    · simp only [requestFrom, activities, sameIssued, queued]
      exact rooted w.within _ accounted.rooted
    · simp only [requestFrom, activities, sameIssued]
      exact accounted.inherits
  | none =>
    have begun := queue_activity_absent queued
      (pendingScope (w.requests.pending account) folders discover).folders parent now
    constructor
    · exact same
    · simp only [requestFrom, activities, begun, keys_begin]
      refine exact_open accounted.exact (issued_fresh accounted) ?_ others
      intro x
      simp only [Holds, queue, begun, begin_id, Function.update_self, queued, Option.some.injEq]
      simp [eq_comm]
    · exact accounted.distinct
    · simp only [requestFrom, activities, begun, queued]
      exact rooted_begin accounted.rooted (parent_issued accounted current)
    · simp only [requestFrom, activities, begun]
      exact inherits_mono accounted (Nat.le_succ _)

theorem retire_pass (s : Requests) (account task : Nat) :
    passActivity (retireDrain s account) task = passActivity s task := by
  unfold retireDrain
  split
  · rfl
  · rename_i own _
    unfold passActivity
    by_cases here : task = own
    · subst here
      simp only [Function.update_self, Option.bind_map]
      cases s.tasks task <;> rfl
    · simp only [Function.update_of_ne here]

theorem cancel_queue (s : Requests) (account : Nat) :
    (cancelAccount s account).activities = (dropPending s account).activities ∧
      (cancelAccount s account).pendingActivity =
        Function.update s.pendingActivity account none ∧
      (cancelAccount s account).pending = Function.update s.pending account none := by
  unfold cancelAccount retireDrain
  split <;> exact ⟨rfl, rfl, rfl⟩

/- Dropping an entry of both queues keeps their keys the same. -/
theorem same_dropped (accounted : Accounted w) (account a : Nat) :
    (Function.update w.requests.pending account none a).isSome =
      (Function.update w.requests.pendingActivity account none a).isSome := by
  by_cases here : a = account
  · subst here
    simp only [Function.update_self, Option.isSome_none]
  · simp only [Function.update_of_ne here]
    exact accounted.same a

theorem cancel_accounted (accounted : Accounted w) (account : Nat) :
    Accounted { w with requests := cancelAccount w.requests account } := by
  obtain ⟨activities, queue, pending⟩ := cancel_queue w.requests account
  have others : ∀ p, p ≠ .queue account → ∀ x,
      Holds { w with requests := cancelAccount w.requests account } p x ↔ Holds w p x := by
    intro p apart x
    cases p with
    | queue a =>
      have different : a ≠ account := fun eq => apart (congrArg Place.queue eq)
      simp only [Holds, queue, Function.update_of_ne different]
    | pass task =>
      simp only [Holds, cancelAccount, retire_pass]
      rfl
    | block other => rfl
  have same : ∀ a, ((cancelAccount w.requests account).pending a).isSome =
      ((cancelAccount w.requests account).pendingActivity a).isSome := by
    intro a
    rw [queue, pending]
    exact same_dropped accounted account a
  cases queued : w.requests.pendingActivity account with
  | some id =>
    have finished : (cancelAccount w.requests account).activities =
        w.requests.activities.finish id := by
      rw [activities]
      simp only [dropPending, queued]
    constructor
    · exact same
    · simp only [finished, keys_finish]
      refine exact_close accounted.exact (show Holds w (.queue account) id from queued) ?_ others
      intro x
      simp only [Holds, queue, Function.update_self, queued, Option.some.injEq, reduceCtorEq,
        false_iff, not_and, not_not]
      exact Eq.symm
    · exact accounted.distinct
    · simp only [finished]
      exact rooted_finish accounted.rooted
    · simp only [finished]
      exact accounted.inherits
  | none =>
    have untouched : (cancelAccount w.requests account).activities = w.requests.activities := by
      rw [activities]
      simp only [dropPending, queued]
    constructor
    · exact same
    · simp only [untouched]
      refine exact_congr accounted.exact ?_
      intro p x
      by_cases here : p = .queue account
      · subst here
        simp only [Holds, queue, Function.update_self, queued]
      · exact others p here x
    · exact accounted.distinct
    · simp only [untouched]
      exact accounted.rooted
    · simp only [untouched]
      exact accounted.inherits

/- The registered and retired tasks hold nothing. -/
theorem registry_accounted {s : Requests} (accounted : Accounted { w with requests := s })
    (running : Nat → Option Nat) (retired : Finset Nat) :
    Accounted { w with requests := { s with running := running, retired := retired } } := by
  refine ⟨accounted.same, ?_, accounted.distinct, accounted.rooted, accounted.inherits⟩
  refine exact_congr accounted.exact ?_
  intro p x
  cases p <;> rfl

/- A task that was in no pass ends. -/
theorem end_accounted (accounted : Accounted w) {task : Nat}
    (idle : passActivity w.requests task = none) (account : Nat) {requests : Requests}
    (queue : requests.pendingActivity = w.requests.pendingActivity)
    (pending : ∀ a, (requests.pending a).isSome = (w.requests.pending a).isSome)
    (activities : requests.activities = w.requests.activities)
    (tasks : requests.tasks =
      Function.update w.requests.tasks task (some ⟨account, .done, false⟩)) :
    Accounted { w with requests := requests } := by
  constructor
  · intro a
    rw [pending, queue]
    exact accounted.same a
  · simp only [activities]
    refine exact_congr accounted.exact ?_
    intro p x
    cases p with
    | queue a => simp only [Holds, queue]
    | pass t =>
      have ended := pass_activity_update w.requests task ⟨account, .done, false⟩ t
      simp only [Holds]
      by_cases here : t = task
      · rw [if_pos here] at ended
        simp only [passActivity, tasks] at ended ⊢
        rw [ended, here]
        simp only [passActivity] at idle
        rw [idle]
      · rw [if_neg here] at ended
        simp only [passActivity, tasks] at ended ⊢
        rw [ended]
    | block other => rfl
  · exact accounted.distinct
  · simp only [activities]
    exact accounted.rooted
  · simp only [activities]
    exact accounted.inherits

/- A task that was in no pass takes the entry of its account over. -/
theorem adopt_accounted (accounted : Accounted w) {task account id : Nat} {scope : Scope}
    (idle : passActivity w.requests task = none)
    (queued : w.requests.pendingActivity account = some id) {requests : Requests}
    (queue : requests.pendingActivity = Function.update w.requests.pendingActivity account none)
    (pending : requests.pending = Function.update w.requests.pending account none)
    (activities : requests.activities = w.requests.activities)
    (tasks : requests.tasks =
      Function.update w.requests.tasks task (some ⟨account, .inPass scope id, false⟩)) :
    Accounted { w with requests := requests } := by
  have pass : ∀ t, passActivity requests t =
      if t = task then some id else passActivity w.requests t := by
    intro t
    have moved := pass_activity_update w.requests task ⟨account, .inPass scope id, false⟩ t
    simp only [passActivity, tasks] at moved ⊢
    exact moved
  constructor
  · intro a
    simp only [queue, pending]
    exact same_dropped accounted account a
  · simp only [activities]
    refine exact_hand accounted.exact (show Holds w (.queue account) id from queued)
      (show Place.pass task ≠ .queue account from Place.noConfusion) ?_ ?_ ?_
    · intro x
      simp only [Holds, queue, Function.update_self, queued, Option.some.injEq, reduceCtorEq,
        false_iff, not_and, not_not]
      exact Eq.symm
    · intro x
      simp only [Holds, pass, if_pos, idle, Option.some.injEq, reduceCtorEq, false_or]
      exact eq_comm
    · intro p apart other x
      cases p with
      | queue a =>
        have different : a ≠ account := fun eq => apart (congrArg Place.queue eq)
        simp only [Holds, queue, Function.update_of_ne different]
      | pass t =>
        have different : t ≠ task := fun eq => other (congrArg Place.pass eq)
        simp only [Holds, pass, if_neg different]
      | block source => rfl
  · exact accounted.distinct
  · simp only [activities]
    exact accounted.rooted
  · simp only [activities]
    exact accounted.inherits

theorem loop_accounted (accounted : Accounted w) {task : Nat}
    (idle : passActivity w.requests task = none) (account : Nat) :
    Accounted { w with requests := drainLoop w.requests task account } := by
  have keys := accounted.same account
  cases waiting : w.requests.pending account with
  | none =>
    have loop : drainLoop w.requests task account = exitDrain w.requests task account := by
      simp only [drainLoop, waiting]
    rw [loop]
    exact end_accounted accounted idle account rfl (fun _ => rfl) rfl rfl
  | some scope =>
    rw [waiting, Option.isSome_some, eq_comm, Option.isSome_iff_exists] at keys
    obtain ⟨id, queued⟩ := keys
    simp only [drainLoop, waiting, queued]
    exact adopt_accounted accounted idle queued rfl rfl rfl rfl

/- The end of a pass closes its activity, whatever its task does next. -/
theorem finish_accounted (accounted : Accounted w) {task id : Nat}
    (pass : passActivity w.requests task = some id) (drain : Drain)
    (idle : ∀ scope activity, drain.phase ≠ .inPass scope activity) :
    Accounted { w with requests :=
      { w.requests with
        activities := w.requests.activities.finish id
        tasks := Function.update w.requests.tasks task (some drain) } } := by
  have none_left : (match drain.phase with
      | .inPass _ activity => some activity
      | _ => none) = (none : Option Nat) := by
    cases phase : drain.phase with
    | created => rfl
    | inPass scope activity => exact absurd phase (idle scope activity)
    | done => rfl
  have left : ∀ t, passActivity { w.requests with
        activities := w.requests.activities.finish id
        tasks := Function.update w.requests.tasks task (some drain) } t =
      if t = task then none else passActivity w.requests t := by
    intro t
    exact (pass_activity_update w.requests task drain t).trans (by rw [none_left])
  constructor
  · exact accounted.same
  · simp only [keys_finish]
    refine exact_close accounted.exact (show Holds w (.pass task) id from pass) ?_ ?_
    · intro x
      simp only [Holds, left, if_pos, pass, Option.some.injEq, reduceCtorEq, false_iff, not_and,
        not_not]
      exact Eq.symm
    · intro p apart x
      cases p with
      | queue a => rfl
      | pass t =>
        have different : t ≠ task := fun eq => apart (congrArg Place.pass eq)
        simp only [Holds, left, if_neg different]
      | block source => rfl
  · exact accounted.distinct
  · exact rooted_finish accounted.rooted
  · exact accounted.inherits

/- The loop and the end of a task do not read what the task was doing. -/
theorem drain_loop_forgets (s : Requests) (task account : Nat) (drain : Drain) :
    drainLoop { s with tasks := Function.update s.tasks task (some drain) } task account =
      drainLoop s task account := by
  unfold drainLoop exitDrain
  cases s.pending account with
  | none => simp only [Function.update_idem]
  | some scope =>
    cases queued : s.pendingActivity account with
    | none => simp only [queued, Function.update_idem]
    | some id => simp only [queued, Function.update_idem]

theorem start_accounted (accounted : Accounted w) {task : Nat} {requests : Requests}
    (step : InboxRequests.next w.requests (.start task) = some requests) :
    Accounted { w with requests := requests } := by
  rw [InboxRequests.next] at step
  split at step
  · rename_i account found
    cases step
    exact loop_accounted accounted (by simp only [passActivity, found, Option.bind_some]) account
  · rename_i account found
    cases step
    exact end_accounted accounted (by simp only [passActivity, found, Option.bind_some]) account
      rfl (fun _ => rfl) rfl rfl
  · contradiction

theorem pass_ends_accounted (accounted : Accounted w) {task : Nat} {outcome : Outcome}
    {requests : Requests}
    (step : InboxRequests.next w.requests (.passEnds task outcome) = some requests) :
    Accounted { w with requests := requests } := by
  rw [InboxRequests.next] at step
  split at step
  · rename_i account scope id cancelled found
    have pass : passActivity w.requests task = some id := by
      simp only [passActivity, found, Option.bind_some]
    let closed := { w.requests with activities := w.requests.activities.finish id }
    have looped : Accounted { w with requests := drainLoop closed task account } := by
      have finished := finish_accounted accounted pass ⟨account, .created, false⟩
        (fun _ _ => Phase.noConfusion)
      rw [← drain_loop_forgets closed task account ⟨account, .created, false⟩]
      refine loop_accounted finished ?_ account
      simp only [passActivity, Function.update_self, Option.bind_some]
    cases outcome with
    | normal =>
      cases step
      exact looped
    | exception =>
      cases step
      exact looped
    | cancelledError =>
      simp only at step
      split at step
      · cases step
        exact registry_accounted (finish_accounted accounted pass ⟨account, .done, false⟩
          fun _ _ => Phase.noConfusion) _ w.requests.retired
      · contradiction
  · contradiction

theorem done_callback_accounted (accounted : Accounted w) {task : Nat} {requests : Requests}
    (step : InboxRequests.next w.requests (.doneCallback task) = some requests) :
    Accounted { w with requests := requests } := by
  rw [InboxRequests.next] at step
  split at step
  · cases step
    exact registry_accounted accounted w.requests.running _
  · contradiction

theorem spawn_accounted (accounted : Accounted w) {task : Nat} {parent : Option Nat}
    (known : ∀ p, parent = some p → p < w.requests.activities.issued) :
    Accounted { w with inherited := Function.update w.inherited task (some parent) } := by
  refine ⟨accounted.same, ?_, accounted.distinct, accounted.rooted, ?_⟩
  · refine exact_congr accounted.exact ?_
    intro p x
    cases p <;> rfl
  · intro t p found
    rcases written_cell found with ⟨_, eq⟩ | ⟨_, before⟩
    · exact known p eq.symm
    · exact accounted.inherits t p before

theorem exit_accounted (accounted : Accounted w) (task : Nat) :
    Accounted { w with inherited := Function.update w.inherited task none } := by
  refine ⟨accounted.same, ?_, accounted.distinct, accounted.rooted, ?_⟩
  · refine exact_congr accounted.exact ?_
    intro p x
    cases p <;> rfl
  · intro t p found
    by_cases here : t = task
    · simp [here] at found
    · simp only [Function.update_of_ne here] at found
      exact accounted.inherits t p found

structure Sane (w : World) : Prop where
  requests : Sound w.requests
  accounted : Accounted w

theorem step_requests_sane (sane : Sane w) {l : InboxRequests.Label}
    (accounted : ∀ requests, InboxRequests.next w.requests l = some requests →
      Accounted { w with requests := requests })
    (step : stepRequests w l = some w') : Sane w' := by
  obtain ⟨requests, stepped, rfl⟩ := Option.map_eq_some_iff.mp step
  exact ⟨InboxRequests.next_sound sane.requests stepped, accounted requests stepped⟩

theorem next_sane {l : Label} (sane : Sane w) (step : next w l = some w') : Sane w' := by
  have accounted := sane.accounted
  cases l with
  | spawn task creator =>
    simp only [next] at step
    split at step
    · contradiction
    cases creator with
    | none =>
      cases step
      exact ⟨sane.requests, spawn_accounted accounted fun p eq => absurd eq.symm (by simp)⟩
    | some source =>
      obtain ⟨parent, current, rfl⟩ := Option.map_eq_some_iff.mp step
      exact ⟨sane.requests, spawn_accounted accounted (parent_issued accounted current)⟩
  | exit task =>
    simp only [next] at step
    split at step
    · cases step
      exact ⟨sane.requests, exit_accounted accounted task⟩
    · contradiction
  | track source item =>
    obtain ⟨parent, current, rfl⟩ := Option.map_eq_some_iff.mp step
    exact ⟨activities_sound sane.requests _ w.requests.retired,
      track_accounted accounted current item⟩
  | untrack source =>
    simp only [next] at step
    split at step
    · rename_i id rest blocks
      cases step
      exact ⟨activities_sound sane.requests _ w.requests.retired,
        untrack_accounted accounted blocks⟩
    · contradiction
  | request source account folders discover now =>
    obtain ⟨parent, current, rfl⟩ := Option.map_eq_some_iff.mp step
    exact ⟨request_sound sane.requests account folders discover parent now,
      request_accounted accounted sane.requests current account folders discover now⟩
  | cancel account =>
    refine step_requests_sane sane ?_ step
    intro requests stepped
    cases stepped
    exact cancel_accounted accounted account
  | start task =>
    exact step_requests_sane sane (fun _ stepped => start_accounted accounted stepped) step
  | passEnds task outcome =>
    simp only [next] at step
    split at step
    · exact step_requests_sane sane (fun _ stepped => pass_ends_accounted accounted stepped) step
    · contradiction
  | doneCallback task =>
    exact step_requests_sane sane (fun _ stepped => done_callback_accounted accounted stepped) step

theorem run_sane {labels : List Label} (run : replay next .initial labels = some w) : Sane w :=
  replay_invariant Sane ⟨initial_sound, initial_accounted⟩
    (fun _ _ _ before step => next_sane before step) run

/-! ### The snapshot -/

theorem snapshot_nodup {s : Activities} (nodup : (keys s).Nodup) :
    (s.snapshot.map Prod.fst).Nodup := by
  have sorted := List.perm_insertionSort (fun a b : Nat × Item => a.2.startedAt ≤ b.2.startedAt)
    s.active
  have all := (sorted.map Prod.fst).nodup_iff.mpr nodup
  exact all.sublist (List.filter_sublist.map Prod.fst)

theorem mem_shown {s : Activities} {id : Nat} :
    id ∈ s.snapshot.map Prod.fst ↔
      id ∈ keys s ∧ ∀ entry ∈ s.active, entry.2.parentId ≠ some id := by
  have parents : some id ∉ s.active.map (fun entry => entry.2.parentId) ↔
      ∀ entry ∈ s.active, entry.2.parentId ≠ some id := by
    simp [List.mem_map]
  rw [← parents]
  simp only [Activities.snapshot, keys, List.mem_map, List.mem_filter, List.mem_insertionSort,
    decide_eq_true_eq]
  constructor
  · intro found
    obtain ⟨entry, ⟨mem, leaf⟩, rfl⟩ := found
    exact ⟨⟨entry, mem, rfl⟩, leaf⟩
  · intro found
    obtain ⟨⟨entry, mem, rfl⟩, leaf⟩ := found
    exact ⟨entry, ⟨mem, leaf⟩, rfl⟩

/-- Open, with no open activity begun directly within. -/
def Innermost (w : World) (id : Nat) : Prop :=
  Open w id ∧ ∀ inner, Open w inner → w.within inner ≠ some id

theorem shown_innermost (accounted : Accounted w) {id : Nat} :
    id ∈ shown w ↔ Innermost w id := by
  have nested : (∀ entry ∈ w.requests.activities.active, entry.2.parentId ≠ some id) ↔
      ∀ inner, Open w inner → w.within inner ≠ some id := by
    constructor
    · intro leaf inner isOpen
      obtain ⟨entry, mem, rfl⟩ := List.mem_map.mp ((accounted.exact.held inner).mpr isOpen)
      rw [← (accounted.rooted entry mem).parent]
      exact leaf entry mem
    · intro leaf entry mem
      rw [(accounted.rooted entry mem).parent]
      exact leaf entry.1 ((accounted.exact.held _).mp (List.mem_map_of_mem mem))
  rw [shown, mem_shown, nested, accounted.exact.held id]
  rfl

/- Since parents are older, the snapshot never hides everything. -/
theorem snapshot_nonempty (accounted : Accounted w) :
    w.requests.activities.snapshot ≠ [] ↔ ∃ id, Open w id := by
  constructor
  · intro some_shown
    obtain ⟨entry, mem⟩ := List.exists_mem_of_ne_nil _ some_shown
    exact ⟨entry.1, ((shown_innermost accounted).mp (List.mem_map_of_mem mem)).1⟩
  · intro found
    obtain ⟨id, isOpen⟩ := found
    have mem := (accounted.exact.held id).mpr isOpen
    have older : ∀ x ∈ keys w.requests.activities, ∀ p, w.within x = some p → p < x := by
      intro x xm
      obtain ⟨entry, em, rfl⟩ := List.mem_map.mp xm
      exact (accounted.rooted entry em).older
    obtain ⟨last, lm, leaf⟩ := innermost_exists (List.ne_nil_of_mem mem) older
    have visible : last ∈ shown w := by
      apply (shown_innermost accounted).mpr
      exact ⟨(accounted.exact.held last).mp lm,
        fun inner innerOpen => leaf inner ((accounted.exact.held inner).mpr innerOpen)⟩
    intro empty
    simp only [shown, empty, List.map_nil, List.not_mem_nil] at visible

def InPass (w : World) (task : Nat) : Prop :=
  ∃ activity, passActivity w.requests task = some activity

theorem open_cases (accounted : Accounted w) : (∃ id, Open w id) ↔
    (∃ account, w.requests.pending account ≠ none) ∨ (∃ task, InPass w task) ∨
      ∃ source, w.blocks source ≠ [] := by
  constructor
  · intro found
    obtain ⟨id, place, hold⟩ := found
    cases place with
    | queue account =>
      refine Or.inl ⟨account, ?_⟩
      have same := accounted.same account
      simp only [Holds] at hold
      rw [hold, Option.isSome_some] at same
      exact Option.isSome_iff_ne_none.mp same
    | pass task => exact Or.inr (Or.inl ⟨task, id, hold⟩)
    | block source => exact Or.inr (Or.inr ⟨source, List.ne_nil_of_mem hold⟩)
  · intro cases
    rcases cases with ⟨account, queued⟩ | ⟨task, activity, pass⟩ | ⟨source, blocks⟩
    · have same := accounted.same account
      rw [Option.isSome_iff_ne_none.mpr queued, eq_comm, Option.isSome_iff_exists] at same
      obtain ⟨id, hold⟩ := same
      exact ⟨id, .queue account, hold⟩
    · exact ⟨activity, .pass task, pass⟩
    · obtain ⟨id, mem⟩ := List.exists_mem_of_ne_nil _ blocks
      exact ⟨id, .block source, mem⟩

/-- In every state between two steps: both queues have the same accounts, the snapshot is
    empty only when nothing is queued, in a pass or tracked, it shows each innermost open
    activity once and no other, and nothing remains when everything has ended. -/
theorem busy_indicator_exact {labels : List Label} {w : World}
    (run : replay next .initial labels = some w) :
    (∀ account, w.requests.pending account ≠ none ↔ w.requests.pendingActivity account ≠ none) ∧
    (w.requests.activities.snapshot ≠ [] ↔ (∃ account, w.requests.pending account ≠ none) ∨
      (∃ task, InPass w task) ∨ ∃ source, w.blocks source ≠ []) ∧
    (∀ id, Innermost w id → (shown w).count id = 1) ∧
    (∀ id ∈ shown w, Innermost w id) ∧
    ((∀ account, w.requests.pending account = none) →
      (∀ task drain, w.requests.tasks task = some drain → drain.phase = .done) →
      (∀ source, w.blocks source = []) → w.requests.activities.active = []) := by
  have accounted := (run_sane run).accounted
  refine ⟨?_, ?_, ?_, ?_, ?_⟩
  · intro account
    rw [← Option.isSome_iff_ne_none, ← Option.isSome_iff_ne_none, accounted.same account]
  · exact (snapshot_nonempty accounted).trans (open_cases accounted)
  · intro id innermost
    exact List.count_eq_one_of_mem (snapshot_nodup accounted.exact.nodup)
      ((shown_innermost accounted).mpr innermost)
  · exact fun id mem => (shown_innermost accounted).mp mem
  · intro idle ended left
    have closed : ¬ ∃ id, Open w id := by
      rw [open_cases accounted]
      rintro (⟨account, queued⟩ | ⟨task, activity, pass⟩ | ⟨source, blocks⟩)
      · exact queued (idle account)
      · obtain ⟨drain, found, phase⟩ := Option.bind_eq_some_iff.mp pass
        rw [ended task drain found] at phase
        contradiction
      · exact blocks (left source)
    apply List.eq_nil_iff_forall_not_mem.mpr
    intro entry mem
    exact closed ⟨entry.1, (accounted.exact.held _).mp (List.mem_map_of_mem mem)⟩

/- A handler requests a pass within its block, cancels it before the task has begun, and
   requests another one; the pass tracks a block and is cancelled in it. -/
def busyHour : List Label :=
  [.spawn 0 none,
    .track (.task 0) ⟨"Testing", .test, .running, 1, some 7, none, none, none, none⟩,
    .request (.task 0) 7 none true 2, .cancel 7, .start 0, .request (.task 0) 7 none true 3,
    .start 1, .untrack (.task 0),
    .track (.drain 1) ⟨"Syncing", .sync, .running, 4, some 7, none, none, none, none⟩, .cancel 7]

theorem busy_hour_exact : ∃ w, replay next .initial busyHour = some w ∧ shown w = [3] ∧
    (∀ id, Innermost w id → (shown w).count id = 1) :=
  ⟨_, rfl, by decide,
    (busy_indicator_exact (show replay next .initial busyHour = some _ from rfl)).2.2.1⟩

end InboxBusyIndicator
