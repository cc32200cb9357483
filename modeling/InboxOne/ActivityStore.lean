import InboxOne.EventStream

/-!
`activityStore.ts` and the parts of `LiveUpdates.tsx` that feed it, beside the server
whose events and snapshots it merges. A message leaves the server after it was sent and
may be lost when the connection breaks; a request is answered at any time after its
start or not at all. The field `log` only observes the run, newest first.
-/
namespace InboxActivityStore
open InboxActivity InboxEventStream LabelledRuns OverflowQueue

/-- A call of `refreshActivity` that awaits its response. -/
structure Request where
  revision : Nat
  response : Option Items
  deriving DecidableEq

inductive Record where
  | started (request : Nat)
  | received
  | disconnected
  | answered (request : Nat) (applied : Bool)
  deriving DecidableEq

structure Store where
  server : Items
  revision : Nat
  snapshotRequest : Nat
  appliedSnapshot : Nat
  requests : Nat → Option Request
  log : List Record

def Store.initial : Store := ⟨[], 0, 0, 0, fun _ => none, []⟩

def receiveActivity (s : Store) (items : Items) (record : Record) : Store :=
  { s with server := items, revision := s.revision + 1, log := record :: s.log }

/-- `refreshActivity` up to its `fetch`. -/
def refreshActivity (s : Store) : Store :=
  let request := s.snapshotRequest + 1
  { s with
    snapshotRequest := request
    requests := Function.update s.requests request (some ⟨s.revision, none⟩)
    log := .started request :: s.log }

/-- The rest of `refreshActivity` when the response was read. -/
def applyResponse (s : Store) (request revision : Nat) (items : Items) : Store :=
  let s := { s with requests := Function.update s.requests request none }
  if s.revision = revision ∧ s.appliedSnapshot ≤ request then
    { s with
      appliedSnapshot := request
      server := items
      log := .answered request true :: s.log }
  else { s with log := .answered request false :: s.log }

/-- The `onmessage` handler, as far as it concerns the store. -/
def onMessage (s : Store) (message : Sent Event Items) : Store :=
  match message.content Event.items with
  | some items => receiveActivity s items .received
  | none => s

/-- The connection of `LiveUpdates`. Of the messages that the server sent on it,
    `transmitted` have left the server and those in `wire` were not delivered yet. -/
inductive Connection where
  | closed
  | opening
  | streaming (k transmitted : Nat) (wire : List (Sent Event Items))

structure World where
  server : InboxEventStream.World
  store : Store
  connection : Connection

def World.initial : World := ⟨.initial, .initial, .closed⟩

inductive Label where
  | server (step : InboxEventStream.Label)
  | connect
  | accepted (k : Nat)
  | transmit
  | message
  | error (visible : Bool)
  | unmount
  | refresh
  | serve (request : Nat)
  | response (request : Nat)
  | failure (request : Nat)

/- A connection that is in use is not opened a second time. -/
def reopens (w : World) : InboxEventStream.Label → Bool
  | .connect k =>
      match w.connection with
      | .streaming j _ _ => j = k
      | _ => false
  | _ => false

def serveRequest (w : World) (request : Nat) : Option World :=
  match w.store.requests request with
  | some ⟨revision, none⟩ =>
      some { w with store := { w.store with
        requests := Function.update w.store.requests request
          (some ⟨revision, some w.server.activities.snapshot⟩) } }
  | _ => none

/- What `onerror` and the cleanup of the effect do to the store. -/
def dropStream (s : Store) : Store := receiveActivity s [] .disconnected

def next (capacity : Nat) (w : World) : Label → Option World
  | .server step =>
      if reopens w step then none
      else (InboxEventStream.next capacity w.server step).map fun server =>
        { w with server := server }
  | .connect =>
      match w.connection with
      | .closed => some { w with connection := .opening }
      | _ => none
  | .accepted k =>
      match w.connection with
      | .opening => (InboxEventStream.next capacity w.server (.connect k)).map fun server =>
          { w with server := server, connection := .streaming k 0 [] }
      | _ => none
  | .transmit =>
      match w.connection with
      | .streaming k transmitted wire =>
          ((w.server.subscribers k).bind fun c => c.sent[transmitted]?).map fun message =>
            { w with connection := .streaming k (transmitted + 1) (wire ++ [message]) }
      | _ => none
  | .message =>
      match w.connection with
      | .streaming k transmitted (message :: wire) =>
          some { w with
            store := onMessage w.store message
            connection := .streaming k transmitted wire }
      | _ => none
  | .error visible =>
      match w.connection with
      | .closed => none
      | _ => some { w with
          store := if visible then refreshActivity (dropStream w.store) else dropStream w.store
          connection := .closed }
  | .unmount => some { w with store := dropStream w.store, connection := .closed }
  | .refresh => some { w with store := refreshActivity w.store }
  | .serve request => serveRequest w request
  | .response request =>
      match w.store.requests request with
      | some ⟨revision, some items⟩ =>
          some { w with store := applyResponse w.store request revision items }
      | _ => none
  | .failure request =>
      some { w with store :=
        { w.store with requests := Function.update w.store.requests request none } }

/-- From the start of the request up to now no event or disconnect was received, and no
    request started since then has been answered. -/
def Fresh (request : Nat) (log : List Record) : Prop :=
  ∃ since before, log = since ++ .started request :: before ∧ .received ∉ since ∧
    .disconnected ∉ since ∧
    ∀ later applied, .started later ∈ since → .answered later applied ∉ log

/-- Only fresh responses were applied, and what the two counters say of the requests that
    still wait. -/
structure Ordered (s : Store) : Prop where
  past : ∀ newer request older, s.log = newer ++ .answered request true :: older →
    Fresh request older
  started : ∀ i r, s.requests i = some r → ∃ since before, s.log = since ++ .started i :: before ∧
    (∀ later, .started later ∈ since → i < later) ∧
    (r.revision = s.revision → .received ∉ since ∧ .disconnected ∉ since)
  below : ∀ i r, s.requests i = some r → i ≤ s.snapshotRequest ∧ r.revision ≤ s.revision
  monotone : ∀ i j r r', s.requests i = some r → s.requests j = some r' → i ≤ j →
    r.revision ≤ r'.revision
  answeredBelow : ∀ j applied, .answered j applied ∈ s.log → j ≤ s.snapshotRequest
  overtaken : ∀ j applied, .answered j applied ∈ s.log → ∀ i r, s.requests i = some r → i < j →
    r.revision < s.revision ∨ i < s.appliedSnapshot

/- One more record, which is no application of a response. -/
theorem past_cons {log : List Record} {record : Record}
    (past : ∀ newer request older, log = newer ++ .answered request true :: older →
      Fresh request older) (other : ∀ request, record ≠ .answered request true) :
    ∀ newer request older, record :: log = newer ++ .answered request true :: older →
      Fresh request older := by
  intro newer request older eq
  cases newer with
  | nil => exact absurd (List.cons.inj eq).1 (other request)
  | cons first newer => exact past newer request older (List.cons.inj eq).2

theorem initial_ordered : Ordered .initial where
  past newer request older eq := by
    cases newer <;> contradiction
  started i r waits := by contradiction
  below i r waits := by contradiction
  monotone i j r r' waits := by contradiction
  answeredBelow j applied mem := by contradiction
  overtaken j applied mem := by contradiction

theorem receive_ordered {s : Store} (ordered : Ordered s) (items : Items) {record : Record}
    (kind : record = .received ∨ record = .disconnected) :
    Ordered (receiveActivity s items record) where
  past := by
    apply past_cons ordered.past
    intro request same
    rcases kind with rfl | rfl <;> contradiction
  started i r waits := by
    obtain ⟨since, before, eq, later, _⟩ := ordered.started i r waits
    refine ⟨record :: since, before, congrArg (record :: ·) eq, ?_, ?_⟩
    · intro j mem
      rcases List.mem_cons.mp mem with same | old
      · rcases kind with rfl | rfl <;> contradiction
      · exact later j old
    · intro current
      have below := (ordered.below i r waits).2
      have now : r.revision = s.revision + 1 := current
      omega
  below i r waits := by
    have below := ordered.below i r waits
    exact ⟨below.1, Nat.le_succ_of_le below.2⟩
  monotone := ordered.monotone
  answeredBelow j applied mem := by
    rcases List.mem_cons.mp mem with same | old
    · rcases kind with rfl | rfl <;> contradiction
    · exact ordered.answeredBelow j applied old
  overtaken j applied mem i r waits less :=
    Or.inl (Nat.lt_succ_of_le (ordered.below i r waits).2)

theorem refresh_ordered {s : Store} (ordered : Ordered s) : Ordered (refreshActivity s) := by
  have waiting : ∀ i r, (refreshActivity s).requests i = some r →
      (i = s.snapshotRequest + 1 ∧ r.revision = s.revision) ∨
        (i ≤ s.snapshotRequest ∧ s.requests i = some r) := by
    intro i r waits
    rcases written_cell waits with ⟨new, rfl⟩ | ⟨_, waits⟩
    · exact Or.inl ⟨new, rfl⟩
    · exact Or.inr ⟨(ordered.below i r waits).1, waits⟩
  constructor
  · exact past_cons ordered.past (by intro request same; contradiction)
  · intro i r waits
    rcases waiting i r waits with ⟨new, _⟩ | ⟨old, waits⟩
    · exact ⟨[], s.log, by rw [new]; rfl, by simp, by simp⟩
    · obtain ⟨since, before, eq, later, current⟩ := ordered.started i r waits
      refine ⟨.started (s.snapshotRequest + 1) :: since, before, congrArg (_ :: ·) eq, ?_, ?_⟩
      · intro j mem
        rcases List.mem_cons.mp mem with same | earlier
        · cases same
          omega
        · exact later j earlier
      · intro same
        obtain ⟨noEvent, noDisconnect⟩ := current same
        simp [noEvent, noDisconnect]
  · intro i r waits
    rcases waiting i r waits with ⟨new, revision⟩ | ⟨old, waits⟩
    · exact ⟨Nat.le_of_eq new, Nat.le_of_eq revision⟩
    · exact ⟨Nat.le_succ_of_le old, (ordered.below i r waits).2⟩
  · intro i j r r' waits waits' order
    rcases waiting j r' waits' with ⟨_, revision'⟩ | ⟨old', waits'⟩
    · rcases waiting i r waits with ⟨_, revision⟩ | ⟨_, waits⟩
      · omega
      · exact revision' ▸ (ordered.below i r waits).2
    · rcases waiting i r waits with ⟨new, _⟩ | ⟨_, waits⟩
      · omega
      · exact ordered.monotone i j r r' waits waits' order
  · intro j applied mem
    rcases List.mem_cons.mp mem with same | old
    · contradiction
    · exact Nat.le_succ_of_le (ordered.answeredBelow j applied old)
  · intro j applied mem i r waits less
    rcases List.mem_cons.mp mem with same | old
    · contradiction
    · rcases waiting i r waits with ⟨new, _⟩ | ⟨_, waits⟩
      · have below := ordered.answeredBelow j applied old
        omega
      · exact ordered.overtaken j applied old i r waits less

/- Requests that were answered or given up; the others are as they were. -/
theorem requests_ordered {s : Store} (ordered : Ordered s) {requests : Nat → Option Request}
    (fewer : ∀ i r, requests i = some r → ∃ r', s.requests i = some r' ∧ r'.revision = r.revision) :
    Ordered { s with requests := requests } where
  past := ordered.past
  started i r waits := by
    obtain ⟨r', waited, same⟩ := fewer i r waits
    exact same ▸ ordered.started i r' waited
  below i r waits := by
    obtain ⟨r', waited, same⟩ := fewer i r waits
    exact same ▸ ordered.below i r' waited
  monotone i j r₁ r₂ waits waits' order := by
    obtain ⟨r, waited, same⟩ := fewer i r₁ waits
    obtain ⟨r', waited', same'⟩ := fewer j r₂ waits'
    exact same ▸ same' ▸ ordered.monotone i j r r' waited waited' order
  answeredBelow := ordered.answeredBelow
  overtaken j applied mem i r waits less := by
    obtain ⟨r', waited, same⟩ := fewer i r waits
    exact same ▸ ordered.overtaken j applied mem i r' waited less

theorem erased_request {s : Store} {request i : Nat} {r : Request}
    (waits : Function.update s.requests request none i = some r) :
    i ≠ request ∧ s.requests i = some r := by
  by_cases same : i = request
  · subst same
    rw [Function.update_self] at waits
    contradiction
  · rw [Function.update_of_ne same] at waits
    exact ⟨same, waits⟩

theorem response_fresh {s : Store} (ordered : Ordered s) {request : Nat} {r : Request}
    (waits : s.requests request = some r) (current : r.revision = s.revision)
    (latest : s.appliedSnapshot ≤ request) : Fresh request s.log := by
  obtain ⟨since, before, eq, later, untouched⟩ := ordered.started request r waits
  obtain ⟨noEvent, noDisconnect⟩ := untouched current
  refine ⟨since, before, eq, noEvent, noDisconnect, ?_⟩
  intro j applied startedLater answered
  rcases ordered.overtaken j applied answered request r waits (later j startedLater) with
    older | overtaken
  · omega
  · omega

/- The log after a response, whether it was applied or not: each request that started
   before it and still waits is overtaken. -/
theorem answered_ordered {s : Store} (ordered : Ordered s) {request : Nat} {r : Request}
    (waits : s.requests request = some r) (items : Items) (applied : Bool) {bound : Nat}
    (grows : s.appliedSnapshot ≤ bound)
    (fresh : applied = true → Fresh request s.log)
    (overtakes : r.revision < s.revision ∨ request ≤ bound) :
    Ordered { s with
      server := items
      appliedSnapshot := bound
      requests := Function.update s.requests request none
      log := .answered request applied :: s.log } where
  past newer i older eq := by
    cases newer with
    | nil =>
      obtain ⟨same, rest⟩ := List.cons.inj eq
      injection same with request' applied'
      exact request' ▸ rest ▸ fresh applied'
    | cons first newer => exact ordered.past newer i older (List.cons.inj eq).2
  started i r' waits' := by
    obtain ⟨_, waited⟩ := erased_request waits'
    obtain ⟨since, before, eq, later, untouched⟩ := ordered.started i r' waited
    refine ⟨.answered request applied :: since, before, congrArg (_ :: ·) eq, ?_, ?_⟩
    · intro j mem
      rcases List.mem_cons.mp mem with same | old
      · contradiction
      · exact later j old
    · intro same
      obtain ⟨noEvent, noDisconnect⟩ := untouched same
      simp [noEvent, noDisconnect]
  below i r' waits' := ordered.below i r' (erased_request waits').2
  monotone i j r₁ r₂ waits₁ waits₂ :=
    ordered.monotone i j r₁ r₂ (erased_request waits₁).2 (erased_request waits₂).2
  answeredBelow j applied' mem := by
    rcases List.mem_cons.mp mem with same | old
    · injection same with request' _
      exact request' ▸ (ordered.below request r waits).1
    · exact ordered.answeredBelow j applied' old
  overtaken j applied' mem i r' waits' less := by
    obtain ⟨_, waited⟩ := erased_request waits'
    rcases List.mem_cons.mp mem with same | old
    · injection same with request' _
      subst request'
      have revisions := ordered.monotone i j r' r waited waits (Nat.le_of_lt less)
      rcases overtakes with older | overtaken
      · exact Or.inl (Nat.lt_of_le_of_lt revisions older)
      · exact Or.inr (Nat.lt_of_lt_of_le less overtaken)
    · rcases ordered.overtaken j applied' old i r' waited less with older | overtaken
      · exact Or.inl older
      · exact Or.inr (Nat.lt_of_lt_of_le overtaken grows)

theorem response_ordered {s : Store} (ordered : Ordered s) {request revision : Nat}
    {items : Items} (waits : s.requests request = some ⟨revision, some items⟩) :
    Ordered (applyResponse s request revision items) := by
  have below := (ordered.below request _ waits).2
  unfold applyResponse
  dsimp only
  split
  · rename_i applies
    obtain ⟨current, latest⟩ := applies
    exact answered_ordered ordered waits items true latest
      (fun _ => response_fresh ordered waits current.symm latest) (Or.inr (Nat.le_refl _))
  · rename_i rejected
    apply answered_ordered ordered waits s.server false (Nat.le_refl _)
    · intro impossible
      contradiction
    · by_cases current : s.revision = revision
      · right
        have overtaken : ¬s.appliedSnapshot ≤ request := fun latest => rejected ⟨current, latest⟩
        omega
      · left
        simp only at below ⊢
        omega

theorem message_ordered {s : Store} (ordered : Ordered s) (message : Sent Event Items) :
    Ordered (onMessage s message) := by
  unfold onMessage
  split
  · exact receive_ordered ordered _ (Or.inl rfl)
  · exact ordered

theorem drop_ordered {s : Store} (ordered : Ordered s) : Ordered (dropStream s) :=
  receive_ordered ordered [] (Or.inr rfl)

/-- The store shows the server's list, and no response that may still be applied shows
    another one. -/
structure Agrees (s : Store) (current : Items) : Prop where
  list : s.server = current
  responses : ∀ i r items, s.requests i = some r → r.revision = s.revision →
    r.response = some items → items = current

/-- The messages that the client was not delivered, up to the server's present state. -/
def undelivered (server : InboxEventStream.World) (c : Subscriber) (transmitted : Nat)
    (wire : List (Sent Event Items)) : List (Sent Event Items) :=
  wire ++ (c.stream server.published.length server.activities.snapshot).drop transmitted

/-- Either the server's list is still on its way, or the client agrees with it. -/
def Merged (s : Store) (current : Items) (coming : List (Sent Event Items)) : Prop :=
  ShowsLast Event.items current coming ∨ contents Event.items coming = [] ∧ Agrees s current

theorem merged_message {s : Store} (ordered : Ordered s) {current : Items}
    {message : Sent Event Items} {coming : List (Sent Event Items)}
    (merged : Merged s current (message :: coming)) :
    Merged (onMessage s message) current coming := by
  have split : contents Event.items (message :: coming) =
      (message.content Event.items).toList ++ contents Event.items coming := by
    cases carries : message.content Event.items <;> simp [contents, carries]
  unfold onMessage
  cases carries : message.content Event.items with
  | none =>
    unfold Merged ShowsLast at merged ⊢
    rw [split, carries] at merged
    exact merged
  | some items =>
    unfold Merged ShowsLast at merged ⊢
    rw [split, carries] at merged
    rcases merged with last | ⟨silent, _⟩
    · cases rest : contents Event.items coming with
      | nil =>
        right
        rw [rest] at last
        refine ⟨rfl, Option.some.inj last, ?_⟩
        intro i r items' waits now
        have below := (ordered.below i r waits).2
        have later : r.revision = s.revision + 1 := now
        omega
      | cons first more =>
        left
        rw [rest] at last
        simpa using last
    · contradiction

theorem merged_refresh {s : Store} {current : Items} {coming : List (Sent Event Items)}
    (merged : Merged s current coming) : Merged (refreshActivity s) current coming := by
  rcases merged with last | ⟨silent, agrees⟩
  · exact Or.inl last
  · refine Or.inr ⟨silent, agrees.list, ?_⟩
    intro i r items waits now answered
    rcases written_cell waits with ⟨_, rfl⟩ | ⟨_, waits⟩
    · contradiction
    · exact agrees.responses i r items waits now answered

/- Requests that were given up or answered with the present list. -/
theorem merged_requests {s : Store} {current : Items} {coming : List (Sent Event Items)}
    (merged : Merged s current coming) {requests : Nat → Option Request}
    (answers : ∀ i r items, requests i = some r → r.response = some items →
      s.requests i = some r ∨ items = current) :
    Merged { s with requests := requests } current coming := by
  rcases merged with last | ⟨silent, agrees⟩
  · exact Or.inl last
  · refine Or.inr ⟨silent, agrees.list, ?_⟩
    intro i r items waits now answered
    rcases answers i r items waits answered with before | present
    · exact agrees.responses i r items before now answered
    · exact present

theorem merged_response {s : Store} {current : Items} {coming : List (Sent Event Items)}
    (merged : Merged s current coming) {request revision : Nat} {items : Items}
    (waits : s.requests request = some ⟨revision, some items⟩) :
    Merged (applyResponse s request revision items) current coming := by
  rcases merged with last | ⟨silent, agrees⟩
  · exact Or.inl last
  · refine Or.inr ⟨silent, ?_⟩
    have responses : ∀ i r items', Function.update s.requests request none i = some r →
        r.revision = s.revision → r.response = some items' → items' = current := by
      intro i r items' waits' now answered
      exact agrees.responses i r items' (erased_request waits').2 now answered
    unfold applyResponse
    dsimp only
    split
    · rename_i applies
      have shown := agrees.responses request _ items waits applies.1.symm rfl
      exact ⟨shown, responses⟩
    · exact ⟨agrees.list, responses⟩

/- What the client of the connection k is still to be told. -/
def Told (server : InboxEventStream.World) (s : Store) (k transmitted : Nat)
    (wire : List (Sent Event Items)) : Prop :=
  ∀ c, server.subscribers k = some c → transmitted ≤ c.sent.length ∧
    Merged s server.activities.snapshot (undelivered server c transmitted wire)

theorem told_offered {server server' : InboxEventStream.World} {s : Store} {c : Subscriber}
    {transmitted : Nat} {wire : List (Sent Event Items)} (bound : transmitted ≤ c.sent.length)
    (merged : Merged s server.activities.snapshot (undelivered server c transmitted wire))
    {capacity : Nat} {event : Event} (published : server'.published = server.published ++ [event])
    (carried : server'.activities.snapshot = event.items.getD server.activities.snapshot) :
    Merged s server'.activities.snapshot (undelivered server'
      (offer capacity server.published.length event c) transmitted wire) := by
  have length : server'.published.length = server.published.length + 1 := by
    rw [published, List.length_append, List.length_singleton]
  unfold undelivered Consumer.stream at merged ⊢
  rw [length, carried, (offer_sent capacity server.published.length event c).1,
    List.drop_append_of_le_length bound, ← List.append_assoc]
  rw [List.drop_append_of_le_length bound, ← List.append_assoc] at merged
  rcases pending_offer Event.items c capacity server.published.length server.activities.snapshot
    event with last | ⟨silent, same⟩
  · exact Or.inl (shows_last_append last _)
  · rw [silent, Option.getD_none]
    unfold Merged ShowsLast at merged ⊢
    rw [contents_append] at merged ⊢
    rw [same]
    exact merged

theorem told_server {capacity : Nat} {server server' : InboxEventStream.World}
    {l : InboxEventStream.Label} (step : InboxEventStream.next capacity server l = some server')
    {s : Store} {k transmitted : Nat} {wire : List (Sent Event Items)}
    (earlier : l ≠ .connect k) (told : Told server s k transmitted wire) :
    Told server' s k transmitted wire := by
  intro c' registered
  obtain ⟨c, before, cases⟩ := subscriber_step step registered earlier
  obtain ⟨bound, merged⟩ := told c before
  cases cases with
  | offered event published carried eq =>
    subst eq
    constructor
    · exact (offer_sent capacity server.published.length event c).1 ▸ bound
    · exact told_offered bound merged published carried
  | moved published activities stepped =>
    have moves : c'.stream server.published.length server.activities.snapshot =
        c.stream server.published.length server.activities.snapshot ∧
        c.sent.length ≤ c'.sent.length := by
      rcases stepped with same | taken | answered
      · exact ⟨same ▸ rfl, same ▸ Nat.le_refl _⟩
      · obtain ⟨stream, _, grows⟩ := stream_take taken server.activities.snapshot
        exact ⟨stream, grows⟩
      · obtain ⟨stream, _, grows⟩ := stream_answer answered server.published.length
        exact ⟨stream, grows⟩
    obtain ⟨stream, grows⟩ := moves
    refine ⟨Nat.le_trans bound grows, ?_⟩
    unfold undelivered at merged ⊢
    rw [published, activities, stream]
    exact merged

theorem told_connected {capacity : Nat} {server server' : InboxEventStream.World} {k : Nat}
    (step : InboxEventStream.next capacity server (.connect k) = some server') (s : Store) :
    Told server' s k 0 [] := by
  intro c registered
  rw [connect_step step] at registered ⊢
  have same := Function.update_self k (some (connected server.published.length))
    server.subscribers
  have eq : connected server.published.length = c := Option.some.inj (same.symm.trans registered)
  subst eq
  exact ⟨Nat.zero_le _, Or.inl rfl⟩

theorem told_transmit {server : InboxEventStream.World} {s : Store} {k transmitted : Nat}
    {wire : List (Sent Event Items)} (told : Told server s k transmitted wire)
    {c : Subscriber} (registered : server.subscribers k = some c) {message : Sent Event Items}
    (sent : c.sent[transmitted]? = some message) :
    Told server s k (transmitted + 1) (wire ++ [message]) := by
  intro c' registered'
  cases registered.symm.trans registered'
  obtain ⟨bound, merged⟩ := told c registered
  obtain ⟨less, eq⟩ := List.getElem?_eq_some_iff.mp sent
  refine ⟨less, ?_⟩
  have same : undelivered server c (transmitted + 1) (wire ++ [message]) =
      undelivered server c transmitted wire := by
    unfold undelivered Consumer.stream
    rw [List.drop_append_of_le_length less, List.drop_append_of_le_length bound,
      List.drop_eq_getElem_cons less, eq, List.append_assoc, List.singleton_append,
      List.cons_append]
  rw [same]
  exact merged

/-- What holds between any two steps of the client and the server. -/
structure Sound (w : World) : Prop where
  ordered : Ordered w.store
  told : ∀ k transmitted wire, w.connection = .streaming k transmitted wire →
    Told w.server w.store k transmitted wire

/- A change of the store that the client makes while it stays connected. -/
theorem store_sound {w : World} (sound : Sound w) {store : Store} (ordered : Ordered store)
    (merges : ∀ coming, Merged w.store w.server.activities.snapshot coming →
      Merged store w.server.activities.snapshot coming) :
    Sound { w with store := store } where
  ordered := ordered
  told k transmitted wire opened c registered := by
    obtain ⟨bound, merged⟩ := sound.told k transmitted wire opened c registered
    exact ⟨bound, merges _ merged⟩

theorem closed_sound {w : World} {store : Store} (ordered : Ordered store) :
    Sound { w with store := store, connection := .closed } where
  ordered := ordered
  told k transmitted wire opened := by contradiction

theorem next_sound {capacity : Nat} {w w' : World} {l : Label} (sound : Sound w)
    (step : next capacity w l = some w') : Sound w' := by
  cases l with
  | server l =>
    simp only [next] at step
    split at step
    · contradiction
    · rename_i allowed
      obtain ⟨server, stepped, eq⟩ := Option.map_eq_some_iff.mp step
      subst eq
      refine ⟨sound.ordered, ?_⟩
      intro k transmitted wire streaming
      apply told_server stepped _ (sound.told k transmitted wire streaming)
      intro reopened
      subst reopened
      have connection : w.connection = .streaming k transmitted wire := streaming
      simp [reopens, connection] at allowed
  | connect =>
    simp only [next] at step
    split at step
    · cases step
      exact ⟨sound.ordered, by intro k transmitted wire streaming; contradiction⟩
    · contradiction
  | accepted k =>
    simp only [next] at step
    split at step
    · obtain ⟨server, stepped, eq⟩ := Option.map_eq_some_iff.mp step
      subst eq
      refine ⟨sound.ordered, ?_⟩
      intro j transmitted wire streaming
      injection streaming with sameK unsent empty
      subst sameK unsent empty
      exact told_connected stepped w.store
    · contradiction
  | transmit =>
    simp only [next] at step
    split at step
    · rename_i k transmitted wire streaming
      obtain ⟨message, sent, eq⟩ := Option.map_eq_some_iff.mp step
      obtain ⟨c, registered, found⟩ := Option.bind_eq_some_iff.mp sent
      subst eq
      refine ⟨sound.ordered, ?_⟩
      intro j transmitted' wire' streaming'
      injection streaming' with sameK more longer
      subst sameK more longer
      exact told_transmit (sound.told k transmitted wire streaming) registered found
    · contradiction
  | message =>
    simp only [next] at step
    split at step
    · rename_i k transmitted message wire streaming
      cases step
      refine ⟨message_ordered sound.ordered message, ?_⟩
      intro j transmitted' wire' streaming' c registered
      injection streaming' with sameK same rest
      subst sameK same rest
      obtain ⟨bound, merged⟩ := sound.told k transmitted (message :: wire) streaming c registered
      exact ⟨bound, merged_message sound.ordered merged⟩
    · contradiction
  | error visible =>
    have dropped := drop_ordered sound.ordered
    simp only [next] at step
    split at step
    · contradiction
    · cases step
      apply closed_sound
      split
      · exact refresh_ordered dropped
      · exact dropped
  | unmount =>
    cases step
    exact closed_sound (drop_ordered sound.ordered)
  | refresh =>
    cases step
    exact store_sound sound (refresh_ordered sound.ordered) fun _ merged => merged_refresh merged
  | serve request =>
    simp only [next, serveRequest] at step
    split at step
    · rename_i revision waits
      cases step
      apply store_sound sound
      · apply requests_ordered sound.ordered
        intro i r waits'
        rcases written_cell waits' with ⟨rfl, rfl⟩ | ⟨_, before⟩
        · exact ⟨_, waits, rfl⟩
        · exact ⟨r, before, rfl⟩
      · intro coming merged
        apply merged_requests merged
        intro i r items waits' answered
        rcases written_cell waits' with ⟨_, rfl⟩ | ⟨_, before⟩
        · exact Or.inr (Option.some.inj answered).symm
        · exact Or.inl before
    · contradiction
  | response request =>
    simp only [next] at step
    split at step
    · rename_i revision items waits
      cases step
      exact store_sound sound (response_ordered sound.ordered waits) fun _ merged =>
        merged_response merged waits
    · contradiction
  | failure request =>
    cases step
    apply store_sound sound
    · apply requests_ordered sound.ordered
      intro i r waits
      exact ⟨r, (erased_request waits).2, rfl⟩
    · intro coming merged
      apply merged_requests merged
      intro i r items waits _
      exact Or.inl (erased_request waits).2

theorem run_sound {capacity : Nat} {labels : List Label} {w : World}
    (run : replay (next capacity) .initial labels = some w) : Sound w :=
  replay_invariant Sound
    ⟨initial_ordered, by intro k transmitted wire streaming; contradiction⟩
    (fun _ _ _ sound step => next_sound sound step) run

/-- In every run only fresh responses are applied, and a client that was delivered all
    that its connection sent shows the server's list, whether or not requests are still
    outstanding. -/
theorem activity_merges_safely {capacity : Nat} {labels : List Label} {w : World}
    (run : replay (next capacity) .initial labels = some w) :
    (∀ newer request older, w.store.log = newer ++ .answered request true :: older →
      Fresh request older) ∧
    ∀ k transmitted c, w.connection = .streaming k transmitted [] →
      w.server.subscribers k = some c → c.Idle → transmitted = c.sent.length →
        w.store.server = w.server.activities.snapshot := by
  have sound := run_sound run
  refine ⟨sound.ordered.past, ?_⟩
  intro k transmitted c streaming registered idle all
  obtain ⟨_, merged⟩ := sound.told k transmitted [] streaming c registered
  have nothing : undelivered w.server c transmitted [] = [] := by
    unfold undelivered
    rw [stream_idle idle, all, List.drop_length, List.append_nil]
  rw [nothing] at merged
  rcases merged with last | ⟨_, agrees⟩
  · contradiction
  · exact agrees.list

/- The first response arrives after the snapshot of the stream and the second one, which
   was read before the work began, in time. -/
def mergeLabels : List Label :=
  [.connect, .refresh, .accepted 0, .serve 1, .server (.statusAnswered 0), .transmit, .message,
    .response 1, .refresh, .serve 2, .server (.begin (sendingItem 5)), .response 2,
    .server (.get 0), .transmit, .message]

theorem activity_merges_safely_work : ∃ w, replay (next 64) .initial mergeLabels = some w ∧
    w.store.log = [.received, .answered 2 true, .started 2, .answered 1 false, .received,
      .started 1] ∧
    w.store.server = [(0, sendingItem 5)] ∧ w.store.server = w.server.activities.snapshot := by
  have ends : ∃ w c, replay (next 64) .initial mergeLabels = some w ∧
      w.connection = .streaming 0 2 [] ∧ w.server.subscribers 0 = some c ∧ c.Idle ∧
      2 = c.sent.length ∧ w.store.log = [.received, .answered 2 true, .started 2,
        .answered 1 false, .received, .started 1] ∧ w.store.server = [(0, sendingItem 5)] :=
    ⟨_, _, rfl, rfl, rfl, ⟨rfl, rfl⟩, rfl, rfl, rfl⟩
  obtain ⟨w, c, run, streaming, registered, idle, all, log, shown⟩ := ends
  have merges := (activity_merges_safely run).2 0 2 c streaming registered idle all
  exact ⟨w, run, log, shown, merges⟩

end InboxActivityStore
