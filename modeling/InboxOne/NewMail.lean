import InboxOne.LabelledRuns
import InboxOne.MessageList

/-!
Notifications of new mail. The watcher compares each response of the recent-unread query
with the one before; the query is cut off at 200 messages, so a message can leave the list
and come back without being new. Messages are numbered in the order they were added to the
cache, since the database may give a free id to another message.
-/
namespace InboxNewMail
open LabelledRuns KeysetPages InboxTables InboxDatabase InboxMessageList

/-- `unread_only=true&notifications_only=true&limit=200`. -/
def recentUnread : Filters := ⟨none, none, true, true, none⟩

def recentLimit : Nat := 200

/-- What useRecentUnread gets from this state of the cache. -/
def recentItems (db : Database) : List Message :=
  ((listMessages db recentUnread recentLimit none).map Page.items).getD []

/- The refs of NewMailWatcher. -/
structure Refs where
  previousMembership : List Nat
  seenIds : Option (List Nat)
  deriving DecidableEq, Repr

/-- The effect of NewMailWatcher: the refs after it and the messages it notifies. -/
def effect (membership : List Nat) (canNotify : Bool) (data : Option (List Message)) (refs : Refs) :
    Refs × List Message :=
  let refs := if refs.previousMembership ≠ membership then ⟨membership, none⟩ else refs
  match data with
  | none => (refs, [])
  | some items =>
      let messages := items.filter fun m => m.folderId ∈ membership
      let currentIds := messages.map Message.id
      match refs.seenIds with
      | none => ({ refs with seenIds := some currentIds }, [])
      | some seen =>
          ({ refs with seenIds := some currentIds },
            if canNotify then messages.filter fun m => m.id ∉ seen else [])

/- The cache and the watcher. `serials` numbers the message under an id, `added` is how many
   there were so far, `baseline` how many there were at the first response; `shown` and
   `listed` are the messages of all responses and of the last one. -/
structure Session where
  db : Database
  serials : Nat → Nat
  added : Nat
  refs : Refs
  baseline : Nat
  shown : List Nat
  listed : List Nat
  notified : List Nat

inductive Label where
  | commit (db : Database) (born : List Nat)
  | response

def inboxIds (db : Database) : List Nat := (db.folders.filter Folder.isInbox).map Folder.id

/- A commit leaves the inboxes as they are; a row that it did not add was there before. -/
def Commits (db db' : Database) (born : List Nat) : Prop :=
  inboxIds db' = inboxIds db ∧
    ∀ m ∈ db'.messages.rows, m.id ∉ born →
      ∃ old ∈ db.messages.rows, old.id = m.id ∧ old.identity = m.identity

instance (db db' : Database) (born : List Nat) : Decidable (Commits db db' born) :=
  inferInstanceAs (Decidable (_ ∧ _))

/- The messages of a response that are in the membership. -/
def responded (membership : List Nat) (s : Session) : List Message :=
  (recentItems s.db).filter fun m => m.folderId ∈ membership

def numbers (s : Session) (messages : List Message) : List Nat :=
  messages.map fun m => s.serials m.id

def next (membership : List Nat) (canNotify : Bool) (s : Session) : Label → Option Session
  | .commit db born =>
      if Commits s.db db born then
        some { s with
          db := db
          serials := fun id => if id ∈ born then s.added + born.idxOf id else s.serials id
          added := s.added + born.length }
      else none
  | .response =>
      let (refs, messages) := effect membership canNotify (some (recentItems s.db)) s.refs
      some { s with
        refs := refs
        baseline := if s.refs.seenIds = none then s.added else s.baseline
        shown := s.shown ++ numbers s (responded membership s)
        listed := numbers s (responded membership s)
        notified := s.notified ++ numbers s messages }

/-- Every notified message was added after the response that set the baseline, and none is
notified twice. -/
def OnlyNew (s : Session) : Prop := (∀ n ∈ s.notified, s.baseline ≤ n) ∧ s.notified.Nodup

/- What has been in the cache since the baseline or in a response already. -/
def Known (s : Session) (n : Nat) : Prop := n < s.baseline ∨ n ∈ s.shown

instance (s : Session) (n : Nat) : Decidable (Known s n) := inferInstanceAs (Decidable (_ ∨ _))

/-- No known message comes into the list: what the response lists of them, the response
before listed too. Without permission it does not matter. -/
def steady (membership : List Nat) (canNotify : Bool) (s : Session) : Label → Bool
  | .commit _ _ => true
  | .response =>
      canNotify = false ∨ s.refs.seenIds = none ∨
        ∀ n ∈ numbers s (responded membership s), Known s n → n ∈ s.listed

/- A session begins with its membership and without a response. -/
structure Start (membership : List Nat) (s : Session) : Prop where
  refs : s.refs = ⟨membership, none⟩
  shown : s.shown = []
  listed : s.listed = []
  notified : s.notified = []
  numbered : ∀ m ∈ s.db.messages.rows, s.serials m.id < s.added
  distinct : ∀ m ∈ s.db.messages.rows, ∀ m' ∈ s.db.messages.rows,
    s.serials m.id = s.serials m'.id → m.id = m'.id

theorem recent_items_eq (db : Database) :
    recentItems db = (candidates sortKey none (selected db recentUnread)).take recentLimit := by
  have page := list_messages_page db recentUnread recentLimit none
  rw [Option.map_none] at page
  rw [recentItems, page, Option.map_some, Option.getD_some, page_items]

theorem recent_item_row {db : Database} {m : Message} (mem : m ∈ recentItems db) :
    m ∈ db.messages.rows := by
  rw [recent_items_eq] at mem
  have candidate := (mem_candidates sortKey).mp (List.mem_of_mem_take mem)
  exact (mem_selected.mp candidate.1).1

theorem recent_items_nodup (db : Database) : ((recentItems db).map Message.id).Nodup := by
  rw [recent_items_eq]
  have keys : ((selected db recentUnread).map Message.id).Nodup :=
    db.messages.keys.sublist (List.filter_sublist.map _)
  have perm : (candidates sortKey none (selected db recentUnread)).Perm
      ((selected db recentUnread).filter fun m => decide (Under none (sortKey m))) :=
    List.perm_insertionSort _ _
  have all : ((candidates sortKey none (selected db recentUnread)).map Message.id).Nodup :=
    (perm.map Message.id).nodup_iff.mpr (keys.sublist (List.filter_sublist.map _))
  exact all.sublist ((List.take_sublist _ _).map _)

section Responses
variable {membership : List Nat} {s : Session}

theorem responded_row {m : Message} (mem : m ∈ responded membership s) :
    m ∈ s.db.messages.rows :=
  recent_item_row (List.mem_of_mem_filter mem)

theorem responded_nodup : ((responded membership s).map Message.id).Nodup :=
  (recent_items_nodup s.db).sublist (List.filter_sublist.map _)

/- The effect of a response with the membership of before. -/
theorem effect_first {canNotify : Bool} {items : List Message} :
    effect membership canNotify (some items) ⟨membership, none⟩ =
      (⟨membership, some ((items.filter fun m => m.folderId ∈ membership).map Message.id)⟩, []) := by
  simp [effect]

theorem effect_later {canNotify : Bool} {items : List Message} {seen : List Nat} :
    effect membership canNotify (some items) ⟨membership, some seen⟩ =
      (⟨membership, some ((items.filter fun m => m.folderId ∈ membership).map Message.id)⟩,
        if canNotify then (items.filter fun m => m.folderId ∈ membership).filter fun m => m.id ∉ seen
        else []) := by
  simp [effect]

end Responses

/- What a session in which every response is steady relies on. -/
structure Sound (membership : List Nat) (s : Session) : Prop where
  membership : s.refs.previousMembership = membership
  numbered : ∀ m ∈ s.db.messages.rows, s.serials m.id < s.added
  distinct : ∀ m ∈ s.db.messages.rows, ∀ m' ∈ s.db.messages.rows,
    s.serials m.id = s.serials m'.id → m.id = m'.id
  shown : ∀ n ∈ s.shown, n < s.added
  listed : ∀ n ∈ s.listed, n ∈ s.shown
  notified : ∀ n ∈ s.notified, n ∈ s.shown
  seen : ∀ ids, s.refs.seenIds = some ids → ∀ m ∈ s.db.messages.rows,
    s.serials m.id ∈ s.listed → m.id ∈ ids
  unseen : s.refs.seenIds = none → s.notified = []
  onlyNew : OnlyNew s

theorem start_sound {membership : List Nat} {s : Session} (start : Start membership s) :
    Sound membership s := by
  refine ⟨by rw [start.refs], start.numbered, start.distinct, ?_, ?_, ?_, ?_, ?_, ?_, ?_⟩
  · simp [start.shown]
  · simp [start.listed]
  · simp [start.notified]
  · simp [start.listed]
  · exact fun _ => start.notified
  · simp [start.notified]
  · simp [start.notified]

/- A row keeps its number, or it was added and has a new one. -/
theorem number_after_commit {s : Session} {db : Database} {born : List Nat}
    (commits : Commits s.db db born) {m : Message} (mem : m ∈ db.messages.rows) :
    (m.id ∈ born ∧ born.idxOf m.id < born.length) ∨
      (m.id ∉ born ∧ ∃ old ∈ s.db.messages.rows, old.id = m.id) := by
  by_cases new : m.id ∈ born
  · exact Or.inl ⟨new, List.idxOf_lt_length_of_mem new⟩
  · obtain ⟨old, oldMem, same, _⟩ := commits.2 m mem new
    exact Or.inr ⟨new, old, oldMem, same⟩

theorem commit_sound {membership : List Nat} {s : Session} {db : Database} {born : List Nat}
    (sound : Sound membership s) (commits : Commits s.db db born) :
    Sound membership { s with
      db := db
      serials := fun id => if id ∈ born then s.added + born.idxOf id else s.serials id
      added := s.added + born.length } := by
  have old_below : ∀ {m : Message}, m ∈ s.db.messages.rows → s.serials m.id < s.added :=
    fun mem => sound.numbered _ mem
  refine ⟨sound.membership, ?_, ?_, ?_, sound.listed, sound.notified, ?_, sound.unseen,
    sound.onlyNew⟩
  · intro m mem
    dsimp only
    rcases number_after_commit commits mem with ⟨new, below⟩ | ⟨old, row, rowMem, same⟩
    · rw [if_pos new]
      omega
    · have below := old_below rowMem
      rw [if_neg old, ← same]
      omega
  · intro m mem m' mem' equal
    dsimp only at equal
    rcases number_after_commit commits mem with ⟨new, below⟩ | ⟨old, row, rowMem, same⟩
    · rcases number_after_commit commits mem' with ⟨new', below'⟩ | ⟨old', row', rowMem', same'⟩
      · rw [if_pos new, if_pos new'] at equal
        exact (List.idxOf_inj new).mp (by omega)
      · have below' := old_below rowMem'
        rw [if_pos new, if_neg old', ← same'] at equal
        omega
    · have below := old_below rowMem
      rcases number_after_commit commits mem' with ⟨new', below'⟩ | ⟨old', row', rowMem', same'⟩
      · rw [if_neg old, if_pos new', ← same] at equal
        omega
      · rw [if_neg old, if_neg old', ← same, ← same'] at equal
        rw [← same, ← same']
        exact sound.distinct row rowMem row' rowMem' equal
  · intro n mem
    have below := sound.shown n mem
    dsimp only
    omega
  · intro ids seen m mem listed
    dsimp only at listed
    rcases number_after_commit commits mem with ⟨new, _⟩ | ⟨old, row, rowMem, same⟩
    · have below := sound.shown _ (sound.listed _ listed)
      rw [if_pos new] at below
      omega
    · rw [if_neg old, ← same] at listed
      rw [← same]
      exact sound.seen ids seen row rowMem listed

/- The numbers of the messages that a response notifies. -/
theorem notified_numbers {membership : List Nat} {s : Session} {ids : List Nat} (canNotify : Bool)
    (sound : Sound membership s) (seen : s.refs.seenIds = some ids)
    (calm : steady membership canNotify s .response = true) :
    (numbers s (if canNotify then (responded membership s).filter fun m => m.id ∉ ids else [])).Nodup ∧
      ∀ n ∈ numbers s (if canNotify then (responded membership s).filter fun m => m.id ∉ ids else []),
        n ∈ numbers s (responded membership s) ∧ s.baseline ≤ n ∧ n ∉ s.shown := by
  split
  · rename_i permitted
    have known : ∀ n ∈ numbers s (responded membership s), Known s n → n ∈ s.listed := by
      simpa [steady, seen, permitted] using calm
    constructor
    · have nodup : (((responded membership s).filter fun m => m.id ∉ ids).map Message.id).Nodup :=
        responded_nodup.sublist (List.filter_sublist.map _)
      unfold numbers
      rw [List.Nodup, List.pairwise_map] at nodup ⊢
      refine nodup.imp_of_mem fun {a b} aMem bMem different equal => different ?_
      exact sound.distinct a (responded_row (List.mem_of_mem_filter aMem)) b
        (responded_row (List.mem_of_mem_filter bMem)) equal
    · intro n mem
      obtain ⟨m, entering, rfl⟩ := List.mem_map.mp mem
      obtain ⟨inside, unseen⟩ := List.mem_filter.mp entering
      have here : s.serials m.id ∈ numbers s (responded membership s) :=
        List.mem_map.mpr ⟨m, inside, rfl⟩
      have fresh : s.serials m.id ∉ s.listed := fun listed =>
        (by simpa using unseen : m.id ∉ ids) (sound.seen ids seen m (responded_row inside) listed)
      have unknown : ¬ Known s (s.serials m.id) := fun old => fresh (known _ here old)
      unfold Known at unknown
      exact ⟨here, by omega, fun old => unknown (Or.inr old)⟩
  · exact ⟨List.nodup_nil, by simp [numbers]⟩

/- The session after a response that notifies these messages. -/
def afterResponse (membership : List Nat) (s : Session) (baseline : Nat) (messages : List Message) :
    Session :=
  { s with
    refs := ⟨membership, some ((responded membership s).map Message.id)⟩
    baseline := baseline
    shown := s.shown ++ numbers s (responded membership s)
    listed := numbers s (responded membership s)
    notified := s.notified ++ numbers s messages }

theorem next_response {membership : List Nat} {s : Session} (canNotify : Bool)
    (same : s.refs.previousMembership = membership) :
    (s.refs.seenIds = none ∧
      next membership canNotify s .response = some (afterResponse membership s s.added [])) ∨
    ∃ ids, s.refs.seenIds = some ids ∧ next membership canNotify s .response =
      some (afterResponse membership s s.baseline
        (if canNotify then (responded membership s).filter fun m => m.id ∉ ids else [])) := by
  obtain ⟨db, serials, added, ⟨previous, seenIds⟩, baseline, shown, listed, notified⟩ := s
  subst same
  cases seenIds with
  | none =>
    refine Or.inl ⟨rfl, ?_⟩
    simp [next, effect_first, afterResponse, responded, numbers]
  | some ids =>
    refine Or.inr ⟨ids, rfl, ?_⟩
    simp only [next, effect_later, afterResponse, responded, numbers, reduceCtorEq, if_false]

theorem after_response_sound {membership : List Nat} {s : Session} (sound : Sound membership s)
    {baseline : Nat} {messages : List Message}
    (among : ∀ n ∈ numbers s messages, n ∈ numbers s (responded membership s))
    (only : OnlyNew (afterResponse membership s baseline messages)) :
    Sound membership (afterResponse membership s baseline messages) := by
  refine ⟨rfl, sound.numbered, sound.distinct, ?_, ?_, ?_, ?_, fun none => by contradiction, only⟩
  · intro n mem
    rcases List.mem_append.mp mem with before | now
    · exact sound.shown n before
    · obtain ⟨m, inside, rfl⟩ := List.mem_map.mp now
      exact sound.numbered m (responded_row inside)
  · exact fun n mem => List.mem_append_right _ mem
  · intro n mem
    rcases List.mem_append.mp mem with before | now
    · exact List.mem_append_left _ (sound.notified n before)
    · exact List.mem_append_right _ (among n now)
  · intro ids seen m mem listed
    obtain ⟨m', inside, equal⟩ := List.mem_map.mp listed
    have same := sound.distinct m' (responded_row inside) m mem equal
    rw [← Option.some.inj seen, ← same]
    exact List.mem_map_of_mem inside

theorem response_sound {membership : List Nat} {canNotify : Bool} {s t : Session}
    (sound : Sound membership s) (calm : steady membership canNotify s .response = true)
    (step : next membership canNotify s .response = some t) : Sound membership t := by
  rcases next_response canNotify sound.membership with
    ⟨first, eq⟩ | ⟨ids, seen, eq⟩
  · rw [← Option.some.inj (eq.symm.trans step)]
    apply after_response_sound sound
    · simp [numbers]
    · have nothing := sound.unseen first
      constructor
      · simp [afterResponse, numbers, nothing]
      · simp [afterResponse, numbers, nothing]
  · rw [← Option.some.inj (eq.symm.trans step)]
    obtain ⟨nodup, entering⟩ := notified_numbers canNotify sound seen calm
    apply after_response_sound sound
    · exact fun n mem => (entering n mem).1
    · constructor
      · intro n mem
        rcases List.mem_append.mp mem with before | now
        · exact sound.onlyNew.1 n before
        · exact (entering n now).2.1
      · refine List.Nodup.append sound.onlyNew.2 nodup fun n before now => ?_
        exact (entering n now).2.2 (sound.notified n before)

/-- While no known message comes into the list, only new mail is notified, and once. -/
theorem only_new_mail_notified {membership : List Nat} {canNotify : Bool} {s t : Session}
    {labels : List Label} (start : Start membership s)
    (run : replay (restrict (steady membership canNotify) (next membership canNotify)) s labels = some t) :
    OnlyNew t := by
  have sound : Sound membership t := by
    refine replay_invariant (Sound membership) (start_sound start) ?_ run
    intro s l u inv step
    obtain ⟨allowed, step⟩ := restrict_step step
    cases l with
    | commit db born =>
      simp only [next] at step
      split at step
      · rename_i commits
        rw [← Option.some.inj step]
        exact commit_sound inv commits
      · contradiction
    | response => exact response_sound inv allowed step
  exact sound.onlyNew

def eligible (messageId : Nat) (isSeen : Bool) : Message :=
  { letter messageId none with
    notificationEligible := true
    isSeen := isSeen }

/- The mailbox of `tied` with other letters. -/
theorem eligible_home (messageId : Nat) (isSeen : Bool) : ∃ old ∈ tied.messages.rows,
    old.folderId = (eligible messageId isSeen).folderId ∧
      old.accountId = (eligible messageId isSeen).accountId :=
  ⟨letter 1 (some noon), List.mem_cons_self, rfl, rfl⟩

def oneLetter (isSeen : Bool) : Database :=
  tied.withMessages ⟨[eligible 1 isSeen], List.nodup_singleton _, List.nodup_singleton _⟩ (by
    intro m mem
    rw [List.mem_singleton.mp mem]
    exact eligible_home 1 isSeen)

def twoLetters : Database :=
  tied.withMessages ⟨[eligible 1 false, eligible 2 false], by decide, by decide⟩ (by
    intro m mem
    rcases List.mem_cons.mp mem with first | rest
    · exact first ▸ eligible_home 1 false
    · exact List.mem_singleton.mp rest ▸ eligible_home 2 false)

/- A session that begins with one unread letter in the inbox. -/
def opened : Session where
  db := oneLetter false
  serials := fun _ => 0
  added := 1
  refs := ⟨[1], none⟩
  baseline := 0
  shown := []
  listed := []
  notified := []

theorem opened_start : Start [1] opened := by
  have only : ∀ m ∈ opened.db.messages.rows, m.id = 1 := by
    intro m mem
    rw [List.mem_singleton.mp mem]
    rfl
  exact ⟨rfl, rfl, rfl, rfl, fun _ _ => Nat.one_pos,
    fun m mem m' mem' _ => (only m mem).trans (only m' mem').symm⟩

/- A second letter comes between two responses. -/
def arrival : List Label :=
  [.response, .commit twoLetters [2], .response]

theorem arrival_run : (replay (restrict (steady [1] true) (next [1] true)) opened arrival).map
    Session.notified = some [1] := by
  decide +kernel

theorem only_new_mail_notified_arrival : ∃ t,
    replay (restrict (steady [1] true) (next [1] true)) opened arrival = some t ∧
      t.notified = [1] ∧ OnlyNew t := by
  obtain ⟨t, run, notified⟩ := Option.map_eq_some_iff.mp arrival_run
  exact ⟨t, run, notified, only_new_mail_notified opened_start run⟩

/- The letter is read and marked unread again between three responses. -/
def rereading : List Label :=
  [.response, .commit (oneLetter true) [], .response, .commit (oneLetter false) [], .response]

theorem reread_run : (replay (next [1] true) opened rereading).map
    (fun t => (t.baseline, t.notified)) = some (1, [0]) := by
  decide +kernel

theorem reread_mail_is_notified :
    ¬ ∀ t, replay (next [1] true) opened rereading = some t → OnlyNew t := by
  intro all
  obtain ⟨t, run, shape⟩ := Option.map_eq_some_iff.mp reread_run
  obtain ⟨baseline, notified⟩ := Prod.mk.inj shape
  have above := (all t run).1 0 (by rw [notified]; exact List.mem_singleton_self 0)
  omega

end InboxNewMail
