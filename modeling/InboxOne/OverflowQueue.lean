import Mathlib.Data.List.Basic
import Mathlib.Data.List.Forall2

/-!
A bounded queue between a publisher and a consumer. A full queue is emptied into one
marker, and the consumer answers the marker with a snapshot that it computes while more
is being published. The stream of a consumer is what it was sent together with what its
queue would still make it send; the steps of the consumer do not change it.
-/
namespace OverflowQueue
variable {E C : Type*}

inductive Entry (E : Type*) where
  | event (number : Nat) (event : E)
  | marker
  deriving DecidableEq

/-- A snapshot remembers how many events there were when its computation began. -/
inductive Sent (E C : Type*) where
  | event (number : Nat) (event : E)
  | snapshot (begun : Nat) (content : C)
  deriving DecidableEq

/-- While a snapshot is computed, `computing` says how many events there were when it
    began. -/
structure Consumer (E C : Type*) where
  since : Nat
  queue : List (Entry E)
  computing : Option Nat
  sent : List (Sent E C)
  deriving DecidableEq

/-- A new consumer first computes a snapshot. -/
def connected (total : Nat) : Consumer E C := ⟨total, [], some total, []⟩

/-- A capacity of zero is no bound. -/
def full (capacity : Nat) (queue : List (Entry E)) : Bool :=
  capacity ≠ 0 ∧ capacity ≤ queue.length

def offer (capacity number : Nat) (event : E) (c : Consumer E C) : Consumer E C :=
  if full capacity c.queue then { c with queue := [.marker] }
  else { c with queue := c.queue ++ [.event number event] }

def take (total : Nat) (c : Consumer E C) : Option (Consumer E C) :=
  match c.computing, c.queue with
  | none, .event number event :: rest =>
      some { c with queue := rest, sent := c.sent ++ [.event number event] }
  | none, .marker :: rest => some { c with queue := rest, computing := some total }
  | _, _ => none

def answer (current : C) (c : Consumer E C) : Option (Consumer E C) :=
  match c.computing with
  | some begun => some { c with computing := none, sent := c.sent ++ [.snapshot begun current] }
  | none => none

def Entry.due (total : Nat) (current : C) : Entry E → Sent E C
  | .event number e => .event number e
  | .marker => .snapshot total current

/-- What is still to be sent: the snapshot being computed, then the queue. -/
def Consumer.pending (total : Nat) (current : C) (c : Consumer E C) : List (Sent E C) :=
  (c.computing.map fun begun => .snapshot begun current).toList ++
    c.queue.map (Entry.due total current)

def Consumer.stream (total : Nat) (current : C) (c : Consumer E C) : List (Sent E C) :=
  c.sent ++ c.pending total current

def Consumer.Idle (c : Consumer E C) : Prop := c.computing = none ∧ c.queue = []

theorem stream_idle {total : Nat} {current : C} {c : Consumer E C} (idle : c.Idle) :
    c.stream total current = c.sent := by
  simp [Consumer.stream, Consumer.pending, idle.1, idle.2]

theorem stream_connected (total : Nat) (current : C) :
    (connected total : Consumer E C).stream total current = [.snapshot total current] := rfl

theorem stream_take {total : Nat} {c c' : Consumer E C} (taken : take total c = some c')
    (current : C) : c'.stream total current = c.stream total current ∧ c'.since = c.since ∧
      c.sent.length ≤ c'.sent.length := by
  unfold take at taken
  split at taken
  · rename_i idle queue
    cases taken
    simp [Consumer.stream, Consumer.pending, Entry.due, idle, queue]
  · rename_i idle queue
    cases taken
    simp [Consumer.stream, Consumer.pending, Entry.due, idle, queue]
  · contradiction

theorem stream_answer {current : C} {c c' : Consumer E C} (answered : answer current c = some c')
    (total : Nat) : c'.stream total current = c.stream total current ∧ c'.since = c.since ∧
      c.sent.length ≤ c'.sent.length := by
  unfold answer at answered
  split at answered
  · rename_i begun computing
    cases answered
    simp [Consumer.stream, Consumer.pending, computing]
  · contradiction

/-- The numbers of the events in a stream. -/
def numbers (stream : List (Sent E C)) : List Nat :=
  stream.filterMap fun
    | .event number _ => some number
    | .snapshot _ _ => none

@[simp] theorem numbers_append (first second : List (Sent E C)) :
    numbers (first ++ second) = numbers first ++ numbers second := List.filterMap_append

theorem mem_numbers {stream : List (Sent E C)} {number : Nat} :
    number ∈ numbers stream ↔ ∃ event, .event number event ∈ stream := by
  unfold numbers
  rw [List.mem_filterMap]
  constructor
  · intro found
    obtain ⟨sent, mem, eq⟩ := found
    cases sent with
    | event n event => exact ⟨event, Option.some.inj eq ▸ mem⟩
    | snapshot begun content => contradiction
  · intro found
    obtain ⟨event, mem⟩ := found
    exact ⟨_, mem, rfl⟩

/-- An event is made good by a snapshot whose computation began after it and that only
    later events follow. -/
def Recovered (number : Nat) (stream : List (Sent E C)) : Prop :=
  ∃ before begun content after, stream = before ++ .snapshot begun content :: after ∧
    number < begun ∧ ∀ later ∈ numbers after, number < later

/-- A stream that loses nothing: its events are those published, in that order, and
    every other one is made good. -/
structure Faithful (published : List E) (since : Nat) (stream : List (Sent E C)) : Prop where
  genuine : ∀ number event, .event number event ∈ stream →
    since ≤ number ∧ published[number]? = some event
  ordered : (numbers stream).Pairwise (· < ·)
  complete : ∀ number, since ≤ number → number < published.length →
    number ∈ numbers stream ∨ Recovered number stream

def Sent.content (shown : E → Option C) : Sent E C → Option C
  | .event _ e => shown e
  | .snapshot _ content => some content

/-- The contents that a consumer was shown, by events that carry one and by snapshots. -/
def contents (shown : E → Option C) (stream : List (Sent E C)) : List C :=
  stream.filterMap (Sent.content shown)

def ShowsLast (shown : E → Option C) (current : C) (stream : List (Sent E C)) : Prop :=
  (contents shown stream).getLast? = some current

/- The same message, except that a snapshot still to come sees more. -/
inductive Renewed : Sent E C → Sent E C → Prop where
  | event (number : Nat) (event : E) : Renewed (.event number event) (.event number event)
  | snapshot (begun begun' : Nat) (content content' : C) (later : begun ≤ begun') :
      Renewed (.snapshot begun content) (.snapshot begun' content')

theorem renewed_refl (sent : Sent E C) : Renewed sent sent := by
  cases sent with
  | event number event => exact .event number event
  | snapshot begun content => exact .snapshot begun begun content content (Nat.le_refl begun)

theorem pending_renewed (c : Consumer E C) (total : Nat) (current current' : C) :
    List.Forall₂ Renewed (c.pending total current) (c.pending (total + 1) current') := by
  unfold Consumer.pending
  apply List.rel_append
  · cases c.computing with
    | none => exact .nil
    | some begun => exact .cons (.snapshot begun begun current current' (Nat.le_refl begun)) .nil
  · induction c.queue with
    | nil => exact .nil
    | cons entry rest ih =>
      cases entry with
      | event number event => exact .cons (.event number event) ih
      | marker => exact .cons (.snapshot total (total + 1) current current' (by omega)) ih

theorem stream_renewed (c : Consumer E C) (total : Nat) (current current' : C) :
    List.Forall₂ Renewed (c.stream total current) (c.stream (total + 1) current') :=
  List.rel_append (List.forall₂_same.mpr fun sent _ => renewed_refl sent)
    (pending_renewed c total current current')

theorem renewed_numbers {stream stream' : List (Sent E C)}
    (renewed : List.Forall₂ Renewed stream stream') : numbers stream' = numbers stream := by
  induction renewed with
  | nil => rfl
  | cons head _ ih =>
    cases head with
    | event number event => exact congrArg (number :: ·) ih
    | snapshot => exact ih

theorem renewed_event {stream stream' : List (Sent E C)}
    (renewed : List.Forall₂ Renewed stream stream') {number : Nat} {event : E}
    (mem : .event number event ∈ stream') : .event number event ∈ stream := by
  induction renewed with
  | nil => contradiction
  | cons head _ ih =>
    rcases List.mem_cons.mp mem with first | rest
    · subst first
      cases head
      exact List.mem_cons_self
    · exact List.mem_cons_of_mem _ (ih rest)

theorem recovered_cons {number : Nat} {sent : Sent E C} {stream : List (Sent E C)} :
    Recovered number (sent :: stream) ↔
      (∃ begun content, sent = .snapshot begun content ∧ number < begun ∧
        ∀ later ∈ numbers stream, number < later) ∨ Recovered number stream := by
  constructor
  · intro recovered
    obtain ⟨before, begun, content, after, eq, bound, late⟩ := recovered
    cases before with
    | nil =>
      obtain ⟨same, rest⟩ := List.cons.inj eq
      exact Or.inl ⟨begun, content, same, bound, rest ▸ late⟩
    | cons first before =>
      obtain ⟨_, rest⟩ := List.cons.inj eq
      exact Or.inr ⟨before, begun, content, after, rest, bound, late⟩
  · intro cases
    rcases cases with ⟨begun, content, same, bound, late⟩ | recovered
    · exact ⟨[], begun, content, stream, by rw [same, List.nil_append], bound, late⟩
    · obtain ⟨before, begun, content, after, eq, bound, late⟩ := recovered
      exact ⟨sent :: before, begun, content, after, by rw [eq, List.cons_append], bound, late⟩

theorem recovered_renewed {stream stream' : List (Sent E C)}
    (renewed : List.Forall₂ Renewed stream stream') {number : Nat}
    (recovered : Recovered number stream) : Recovered number stream' := by
  induction renewed with
  | nil => exact recovered
  | cons head tail ih =>
    rw [recovered_cons] at recovered ⊢
    rcases recovered with ⟨begun, content, same, bound, late⟩ | rest
    · subst same
      left
      cases head with
      | snapshot _ begun' _ content' later =>
        exact ⟨begun', content', rfl, by omega, renewed_numbers tail ▸ late⟩
    · exact Or.inr (ih rest)

theorem recovered_append {stream : List (Sent E C)} {number : Nat} {more : List (Sent E C)}
    (recovered : Recovered number stream) (late : ∀ later ∈ numbers more, number < later) :
    Recovered number (stream ++ more) := by
  obtain ⟨before, begun, content, after, eq, bound, lateAfter⟩ := recovered
  refine ⟨before, begun, content, after ++ more, by simp [eq], bound, ?_⟩
  intro later mem
  rw [numbers_append, List.mem_append] at mem
  rcases mem with inAfter | inMore
  · exact lateAfter later inAfter
  · exact late later inMore

theorem faithful_renewed {published : List E} {since : Nat} {stream stream' : List (Sent E C)}
    (renewed : List.Forall₂ Renewed stream stream') (faithful : Faithful published since stream) :
    Faithful published since stream' where
  genuine number event mem := faithful.genuine number event (renewed_event renewed mem)
  ordered := by
    rw [renewed_numbers renewed]
    exact faithful.ordered
  complete number above below := by
    rw [renewed_numbers renewed]
    rcases faithful.complete number above below with delivered | recovered
    · exact Or.inl delivered
    · exact Or.inr (recovered_renewed renewed recovered)

theorem faithful_bound {published : List E} {since number : Nat} {stream : List (Sent E C)}
    (faithful : Faithful published since stream) (mem : number ∈ numbers stream) :
    number < published.length := by
  obtain ⟨event, sent⟩ := mem_numbers.mp mem
  exact (List.getElem?_eq_some_iff.mp (faithful.genuine number event sent).2).1

/- What was published keeps its number. -/
theorem genuine_append {published : List E} {since : Nat} {stream : List (Sent E C)}
    (faithful : Faithful published since stream) (event : E) {number : Nat} {earlier : E}
    (mem : .event number earlier ∈ stream) :
    since ≤ number ∧ (published ++ [event])[number]? = some earlier := by
  have bound := faithful_bound faithful (mem_numbers.mpr ⟨earlier, mem⟩)
  rw [List.getElem?_append_left bound]
  exact faithful.genuine number earlier mem

theorem faithful_event {published : List E} {since : Nat} {stream : List (Sent E C)}
    (faithful : Faithful published since stream) (early : since ≤ published.length) (event : E) :
    Faithful (published ++ [event]) since (stream ++ [.event published.length event]) where
  genuine number earlier mem := by
    rcases List.mem_append.mp mem with old | new
    · exact genuine_append faithful event old
    · cases List.mem_singleton.mp new
      simp [early]
  ordered := by
    rw [numbers_append, List.pairwise_append]
    refine ⟨faithful.ordered, List.pairwise_singleton _ _, ?_⟩
    intro number old latest new
    cases List.mem_singleton.mp new
    exact faithful_bound faithful old
  complete number above below := by
    rw [List.length_append, List.length_singleton] at below
    by_cases latest : number = published.length
    · left
      exact mem_numbers.mpr ⟨event, by simp [latest]⟩
    · have older : number < published.length := by omega
      rcases faithful.complete number above older with delivered | recovered
      · left
        rw [numbers_append, List.mem_append]
        exact Or.inl delivered
      · right
        apply recovered_append recovered
        intro later mem
        cases List.mem_singleton.mp mem
        exact older

/- The marker stands for all that the queue held and for the event it makes way for. -/
theorem faithful_marker {published : List E} {since : Nat} {front back : List (Sent E C)}
    (faithful : Faithful published since (front ++ back)) (event : E) (current : C) :
    Faithful (published ++ [event]) since
      (front ++ [.snapshot (published.length + 1) current]) where
  genuine number earlier mem := by
    rcases List.mem_append.mp mem with old | new
    · exact genuine_append faithful event (List.mem_append_left back old)
    · contradiction
  ordered := by
    have all := faithful.ordered
    rw [numbers_append, List.pairwise_append] at all
    rw [numbers_append]
    exact (List.append_nil (numbers front)).symm ▸ all.1
  complete number _ below := by
    right
    rw [List.length_append, List.length_singleton] at below
    exact ⟨front, published.length + 1, current, [], rfl, below, by intro later mem; contradiction⟩

@[simp] theorem contents_append (shown : E → Option C) (first second : List (Sent E C)) :
    contents shown (first ++ second) = contents shown first ++ contents shown second :=
  List.filterMap_append

theorem shows_last_snapshot (shown : E → Option C) (front : List (Sent E C)) (begun : Nat)
    (current : C) : ShowsLast shown current (front ++ [.snapshot begun current]) := by
  unfold ShowsLast
  rw [contents_append]
  exact List.getLast?_concat

/- How much was published matters for the snapshots to come, not for what they show. -/
theorem contents_total (shown : E → Option C) (c : Consumer E C) (total total' : Nat)
    (current : C) :
    contents shown (c.pending total current) = contents shown (c.pending total' current) := by
  have due : Sent.content shown ∘ Entry.due total current =
      Sent.content shown ∘ Entry.due total' current := by
    funext entry
    cases entry <;> rfl
  unfold Consumer.pending
  rw [contents_append, contents_append]
  congr 1
  unfold contents
  rw [List.filterMap_map, List.filterMap_map, due]

/-- After an event the pending messages end with the new content, or the event had none
    and they show what they showed before. -/
theorem pending_offer (shown : E → Option C) (c : Consumer E C) (capacity total : Nat)
    (current : C) (event : E) :
    ShowsLast shown ((shown event).getD current)
        ((offer capacity total event c).pending (total + 1) ((shown event).getD current)) ∨
      shown event = none ∧
        contents shown ((offer capacity total event c).pending (total + 1) current) =
          contents shown (c.pending total current) := by
  unfold offer
  split
  · exact Or.inl (shows_last_snapshot shown _ _ _)
  · have appended : ∀ current', ({ c with queue := c.queue ++ [.event total event] } :
        Consumer E C).pending (total + 1) current' =
        c.pending (total + 1) current' ++ [.event total event] := by
      intro current'
      simp [Consumer.pending, Entry.due]
    rw [appended, appended]
    cases carries : shown event with
    | some content =>
      left
      have one : contents shown [(.event total event : Sent E C)] = [content] := by
        simp [contents, Sent.content, carries]
      unfold ShowsLast
      rw [contents_append, one]
      exact List.getLast?_concat
    | none =>
      right
      have silent : contents shown [(.event total event : Sent E C)] = [] := by
        simp [contents, Sent.content, carries]
      rw [contents_append, silent, List.append_nil]
      exact ⟨rfl, contents_total shown c (total + 1) total current⟩

theorem shows_last_append {shown : E → Option C} {current : C} {last : List (Sent E C)}
    (shows : ShowsLast shown current last) (first : List (Sent E C)) :
    ShowsLast shown current (first ++ last) := by
  unfold ShowsLast at shows ⊢
  rw [contents_append, List.getLast?_append, shows]
  rfl

theorem offer_sent (capacity total : Nat) (event : E) (c : Consumer E C) :
    (offer capacity total event c).sent = c.sent ∧
      (offer capacity total event c).since = c.since := by
  unfold offer
  split
  · exact ⟨rfl, rfl⟩
  · exact ⟨rfl, rfl⟩

/-- What holds of a registered consumer between any two steps. -/
structure Consumer.Sound (shown : E → Option C) (published : List E) (current : C)
    (c : Consumer E C) : Prop where
  early : c.since ≤ published.length
  faithful : Faithful published c.since (c.stream published.length current)
  latest : ShowsLast shown current (c.stream published.length current)

theorem connected_sound (shown : E → Option C) (published : List E) (current : C) :
    (connected published.length : Consumer E C).Sound shown published current where
  early := Nat.le_refl _
  faithful := by
    rw [stream_connected]
    constructor
    · intro number event mem
      cases List.mem_singleton.mp mem
    · exact List.Pairwise.nil
    · intro number above below
      exact absurd above (Nat.not_le.mpr below)
  latest := shows_last_snapshot shown [] published.length current

theorem offer_faithful {published : List E} {current current' : C} {c : Consumer E C}
    (early : c.since ≤ published.length)
    (faithful : Faithful published c.since (c.stream published.length current)) (capacity : Nat)
    (event : E) :
    Faithful (published ++ [event]) c.since
      ((offer capacity published.length event c).stream (published.length + 1) current') := by
  have renewed := faithful_renewed
    (stream_renewed c published.length current current') faithful
  unfold offer
  split
  · unfold Consumer.stream Consumer.pending at renewed ⊢
    rw [← List.append_assoc] at renewed ⊢
    exact faithful_marker renewed event current'
  · have appended : ({ c with queue := c.queue ++ [.event published.length event] } :
        Consumer E C).stream (published.length + 1) current' =
        c.stream (published.length + 1) current' ++ [.event published.length event] := by
      simp [Consumer.stream, Consumer.pending, Entry.due]
    rw [appended]
    exact faithful_event renewed early event

theorem offer_sound {shown : E → Option C} {published : List E} {current : C}
    {c : Consumer E C} (sound : c.Sound shown published current) (capacity : Nat) (event : E) :
    (offer capacity published.length event c).Sound shown (published ++ [event])
      ((shown event).getD current) := by
  have length : (published ++ [event]).length = published.length + 1 := List.length_append
  obtain ⟨sent, since⟩ := offer_sent capacity published.length event c
  constructor
  · have early := sound.early
    omega
  · rw [length, since]
    exact offer_faithful sound.early sound.faithful capacity event
  · rw [length]
    unfold Consumer.stream
    rw [sent]
    rcases pending_offer shown c capacity published.length current event with
      last | ⟨silent, same⟩
    · exact shows_last_append last c.sent
    · rw [silent, Option.getD_none]
      have latest := sound.latest
      unfold ShowsLast Consumer.stream at latest
      unfold ShowsLast
      rw [contents_append] at latest ⊢
      rw [same]
      exact latest

theorem take_sound {shown : E → Option C} {published : List E} {current : C}
    {c c' : Consumer E C} (sound : c.Sound shown published current)
    (taken : take published.length c = some c') : c'.Sound shown published current := by
  obtain ⟨stream, since, _⟩ := stream_take taken current
  constructor
  · exact since ▸ sound.early
  · rw [since, stream]
    exact sound.faithful
  · rw [stream]
    exact sound.latest

theorem answer_sound {shown : E → Option C} {published : List E} {current : C}
    {c c' : Consumer E C} (sound : c.Sound shown published current)
    (answered : answer current c = some c') : c'.Sound shown published current := by
  obtain ⟨stream, since, _⟩ := stream_answer answered published.length
  constructor
  · exact since ▸ sound.early
  · rw [since, stream]
    exact sound.faithful
  · rw [stream]
    exact sound.latest

/-- An upper bound for the steps a consumer has to make when nothing more is published. -/
def remaining (c : Consumer E C) : Nat := 2 * c.queue.length + c.computing.toList.length

theorem consumer_progress (c : Consumer E C) (total : Nat) (current : C) :
    c.Idle ∨ ∃ c', remaining c' < remaining c ∧
      (take total c = some c' ∨ answer current c = some c') := by
  obtain ⟨since, queue, computing, sent⟩ := c
  cases computing with
  | some begun =>
    right
    exact ⟨_, by simp [remaining], Or.inr rfl⟩
  | none =>
    cases queue with
    | nil => exact Or.inl ⟨rfl, rfl⟩
    | cons entry rest =>
      right
      cases entry with
      | event number event =>
        refine ⟨_, ?_, Or.inl rfl⟩
        simp only [remaining, List.length_cons]
        omega
      | marker =>
        refine ⟨_, ?_, Or.inl rfl⟩
        simp [remaining]
        omega

end OverflowQueue
