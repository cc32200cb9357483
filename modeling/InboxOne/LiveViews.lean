import InboxOne.LiveUpdates

/- What the queries of the page show once the event stream has been read: at least the data
   that the server has announced. -/
namespace InboxLiveViews
open LabelledRuns OverflowQueue QueryCache Timers InboxLiveUpdates
open InboxEventStream (Event Items Subscriber SubscriberStep subscriber_step connect_step)

/-- What an entry of the queue will make the page refetch. -/
def brings : Entry Event → List Query
  | .event number event => invalidated (.event number event)
  | .marker => [.settings, .messages, .accounts, .connections]

/-- A message that makes the page refetch the query is still on its way. -/
def Coming (c : Subscriber) (transmitted : Nat) (wire : List (Sent Event Items)) (q : Query) :
    Prop :=
  (∃ message ∈ wire ++ c.sent.drop transmitted, q ∈ invalidated message) ∨
    c.computing.isSome ∨ ∃ entry ∈ c.queue, q ∈ brings entry

theorem marker_brings (q : Query) : q ∈ brings .marker := by
  cases q <;> simp [brings]

theorem snapshot_invalidates (begun : Nat) (items : Items) (q : Query) :
    q ∈ invalidated (.snapshot begun items) := by
  cases q <;> simp [invalidated]

/-- The event tells of something that the query shows. -/
def Concerns (event : Event) (q : Query) : Prop := ∃ d ∈ tells event, d ∈ reads q

theorem concerns_invalidated {event : Event} {q : Query} (concerns : Concerns event q)
    (number : Nat) : q ∈ invalidated (.event number event) := by
  obtain ⟨d, told, read⟩ := concerns
  cases event with
  | activity items => contradiction
  | connection accountId folderId =>
    rw [tells, List.mem_singleton] at told
    subst told
    cases q <;> simp_all [reads, invalidated]
  | folder accountId folderId => cases q <;> simp_all [tells, reads, invalidated]
  | folders accountId => cases q <;> simp_all [tells, reads, invalidated]
  | settings =>
    rw [tells, List.mem_singleton] at told
    subst told
    cases q <;> simp_all [reads, invalidated]

section Queue
variable {c c' : Subscriber} {transmitted : Nat} {wire : List (Sent Event Items)} {q : Query}

theorem coming_offer (capacity total : Nat) (event : Event)
    (coming : Coming c transmitted wire q ∨ Concerns event q) :
    Coming (offer capacity total event c) transmitted wire q := by
  unfold offer
  split
  · exact Or.inr (Or.inr ⟨.marker, List.mem_singleton_self _, marker_brings q⟩)
  · rcases coming with (sent | computing | ⟨entry, mem, brought⟩) | concerns
    · exact Or.inl sent
    · exact Or.inr (Or.inl computing)
    · exact Or.inr (Or.inr ⟨entry, List.mem_append_left _ mem, brought⟩)
    · exact Or.inr (Or.inr ⟨.event total event, List.mem_append_right _ (List.mem_singleton_self _),
        concerns_invalidated concerns total⟩)

/- What the response sends comes behind what was sent before. -/
theorem sent_coming (within : transmitted ≤ c.sent.length) {message : Sent Event Items}
    (sent : c'.sent = c.sent ++ [message]) (invalidates : q ∈ invalidated message) :
    Coming c' transmitted wire q := by
  refine Or.inl ⟨message, List.mem_append_right _ ?_, invalidates⟩
  rw [sent, List.drop_append_of_le_length within]
  exact List.mem_append_right _ (List.mem_singleton_self _)

theorem coming_sent (within : transmitted ≤ c.sent.length) {more : List (Sent Event Items)}
    (sent : c'.sent = c.sent ++ more)
    (coming : ∃ message ∈ wire ++ c.sent.drop transmitted, q ∈ invalidated message) :
    Coming c' transmitted wire q := by
  obtain ⟨message, mem, invalidates⟩ := coming
  refine Or.inl ⟨message, ?_, invalidates⟩
  rw [sent, List.drop_append_of_le_length within, ← List.append_assoc]
  exact List.mem_append_left _ mem

theorem coming_take {total : Nat} (within : transmitted ≤ c.sent.length)
    (taken : take total c = some c') (coming : Coming c transmitted wire q) :
    Coming c' transmitted wire q := by
  unfold take at taken
  split at taken
  · rename_i number event rest idle queue
    cases taken
    rcases coming with sent | computing | ⟨entry, mem, brought⟩
    · exact coming_sent within rfl sent
    · rw [idle] at computing
      contradiction
    · rw [queue] at mem
      rcases List.mem_cons.mp mem with rfl | later
      · exact sent_coming within rfl brought
      · exact Or.inr (Or.inr ⟨entry, later, brought⟩)
  · cases taken
    exact Or.inr (Or.inl rfl)
  · contradiction

theorem coming_answer {current : Items} (within : transmitted ≤ c.sent.length)
    (answered : answer current c = some c') : Coming c' transmitted wire q := by
  unfold answer at answered
  split at answered
  · cases answered
    exact sent_coming within rfl (snapshot_invalidates _ _ q)
  · contradiction

theorem coming_transmit {message : Sent Event Items}
    (found : c.sent[transmitted]? = some message) (coming : Coming c transmitted wire q) :
    Coming c (transmitted + 1) (wire ++ [message]) q := by
  obtain ⟨inside, same⟩ := List.getElem?_eq_some_iff.mp found
  refine coming.imp_left fun ⟨m, mem, invalidates⟩ => ⟨m, ?_, invalidates⟩
  rw [List.drop_eq_getElem_cons inside, same] at mem
  simpa using mem

theorem coming_delivered {message : Sent Event Items}
    (coming : Coming c transmitted (message :: wire) q) :
    q ∈ invalidated message ∨ Coming c transmitted wire q := by
  rcases coming with ⟨m, mem, invalidates⟩ | later
  · rcases List.mem_cons.mp mem with rfl | rest
    · exact Or.inl invalidates
    · exact Or.inr (Or.inl ⟨m, rest, invalidates⟩)
  · exact Or.inr (Or.inr later)

end Queue

variable {State Turn : Type} {client : Client Query Data State Turn}

/-- The queries are in order, and a query that is behind the announcements has a message
    coming that makes the page refetch it. -/
structure Sound (client : Client Query Data State Turn) (w : World State) : Prop where
  page : QueryCache.Sound client w.page w.data
  written : ∀ q, w.page.written q = true → q = .settings
  saved : ∀ data, w.save = some (some data) → data ≤ w.data
  announced : w.announced ≤ w.data
  within : ∀ k transmitted wire c, w.connection = .streaming k transmitted wire →
    w.server.subscribers k = some c → transmitted ≤ c.sent.length
  coming : ∀ k transmitted wire c, w.connection = .streaming k transmitted wire →
    w.server.subscribers k = some c → ∀ q, w.page.missed q = false →
      (∀ d ∈ reads q, w.announced d ≤ w.page.since q d) ∨ Coming c transmitted wire q

theorem initial_sound (documented : Documented client) (visible : Bool) :
    Sound client (.initial client visible) where
  page := QueryCache.initial_sound documented
  written q found := by contradiction
  saved data found := by contradiction
  announced _ := Nat.le_refl _
  within k transmitted wire c streaming := by contradiction
  coming k transmitted wire c streaming := by contradiction

variable {w w' : World State} {q : Query}

/- Steps that touch neither the stream nor what is known of the queries. -/
structure SameBooks (w w' : World State) : Prop where
  since : w'.page.since = w.page.since
  missed : w'.page.missed = w.page.missed
  announced : w'.announced = w.announced
  connection : w'.connection = w.connection
  server : w'.server = w.server

theorem same_books_sound (sound : Sound client w) (same : SameBooks w w')
    (page : QueryCache.Sound client w'.page w'.data) (later : w.data ≤ w'.data)
    (written : ∀ q, w'.page.written q = true → w.page.written q = true ∨ q = .settings)
    (saved : ∀ data, w'.save = some (some data) → w.save = some (some data) ∨ data ≤ w'.data) :
    Sound client w' where
  page := page
  written q found := (written q found).elim (sound.written q) id
  saved data found := (saved data found).elim (fun old => le_trans (sound.saved data old) later) id
  announced := by
    rw [same.announced]
    exact le_trans sound.announced later
  within := by
    rw [same.connection, same.server]
    exact sound.within
  coming := by
    rw [same.connection, same.server, same.since, same.missed, same.announced]
    exact sound.coming

/- Steps of the stream and of the timers. -/
theorem untouched_sound (sound : Sound client w) (page : w'.page = w.page)
    (data : w'.data = w.data) (save : w'.save = w.save) (announced : w'.announced = w.announced)
    (connection : w'.connection = w.connection) (server : w'.server = w.server) :
    Sound client w' := by
  refine same_books_sound sound ⟨by rw [page], by rw [page], announced, connection, server⟩ ?_ ?_
    ?_ ?_
  · rw [page, data]
    exact sound.page
  · rw [data]
  · rw [page]
    exact fun _ => Or.inl
  · rw [save]
    exact fun _ => Or.inl

/- A stream that is not open promises nothing. -/
theorem quiet_sound (sound : Sound client w) (page : w'.page = w.page) (data : w'.data = w.data)
    (save : w'.save = w.save) (announced : w'.announced = w.announced)
    (quiet : ∀ k transmitted wire, w'.connection ≠ .streaming k transmitted wire) :
    Sound client w' where
  page := by
    rw [page, data]
    exact sound.page
  written := by
    rw [page]
    exact sound.written
  saved := by
    rw [save, data]
    exact sound.saved
  announced := by
    rw [announced, data]
    exact sound.announced
  within k transmitted wire c streaming := absurd streaming (quiet _ _ _)
  coming k transmitted wire c streaming := absurd streaming (quiet _ _ _)

theorem invalidate_current (documented : Documented client) (sound : Sound client w)
    {queries : List Query} (listed : q ∈ queries)
    (seen : (invalidateQueries client w queries).page.missed q = false) :
    ∀ d ∈ reads q, w.announced d ≤ (invalidateQueries client w queries).page.since q d := by
  intro d _
  rw [show (invalidateQueries client w queries).page.since q = w.data from
    invalidated_since documented listed seen]
  exact sound.announced d

theorem unlisted_same (client : Client Query Data State Turn) (w : World State)
    {queries : List Query} (unlisted : q ∉ queries) :
    (invalidateQueries client w queries).page.since q = w.page.since q ∧
      (invalidateQueries client w queries).page.missed q = w.page.missed q := by
  unfold invalidateQueries Exchange.invalidate
  dsimp only
  rw [if_neg (fun both => unlisted both.1), if_neg unlisted]
  exact ⟨rfl, rfl⟩

theorem queries_sound (documented : Documented client) (sound : Sound client w)
    (queries : List Query) : Sound client (invalidateQueries client w queries) where
  page := invalidate_sound documented sound.page queries
  written := sound.written
  saved := sound.saved
  announced := sound.announced
  within := sound.within
  coming k transmitted wire c streaming registered q seen := by
    by_cases listed : q ∈ queries
    · exact Or.inl (invalidate_current documented sound listed seen)
    · obtain ⟨since, missed⟩ := unlisted_same client w listed
      rw [missed] at seen
      rw [since]
      exact sound.coming k transmitted wire c streaming registered q seen

/- What a step of the server announces. -/
theorem announced_offered {server : InboxEventStream.World} {event : Event}
    (published : server.published = w.server.published ++ [event]) (d : Datum) :
    (withServer w server).announced d = if d ∈ tells event then w.data d else w.announced d := by
  simp [withServer, published]

theorem announced_moved {server : InboxEventStream.World}
    (published : server.published = w.server.published) :
    (withServer w server).announced = w.announced := by
  simp [withServer, published]

theorem announced_bound {server : InboxEventStream.World} (bound : w.announced ≤ w.data) :
    (withServer w server).announced ≤ w.data := by
  intro d
  unfold withServer
  dsimp only
  split
  · exact Nat.le_refl _
  · exact bound d

theorem server_sound {capacity : Nat} (sound : Sound client w) {l : InboxEventStream.Label}
    {server : InboxEventStream.World} (apart : opensOwn w l = false)
    (step : InboxEventStream.next capacity w.server l = some server) :
    Sound client (withServer w server) := by
  have moves : ∀ k transmitted wire c', w.connection = .streaming k transmitted wire →
      server.subscribers k = some c' → transmitted ≤ c'.sent.length ∧
        ∀ q, w.page.missed q = false →
          (∀ d ∈ reads q, (withServer w server).announced d ≤ w.page.since q d) ∨
            Coming c' transmitted wire q := by
    intro k transmitted wire c' streaming registered
    have earlier : l ≠ .connect k := by
      rintro rfl
      simp [opensOwn, streaming] at apart
    obtain ⟨c, before, cases⟩ := subscriber_step step registered earlier
    have within := sound.within k transmitted wire c streaming before
    have coming := sound.coming k transmitted wire c streaming before
    cases cases with
    | offered event published carried eq =>
      subst eq
      refine ⟨by rw [(offer_sent ..).1]; exact within, fun q found => ?_⟩
      by_cases concerns : Concerns event q
      · exact Or.inr (coming_offer capacity _ event (Or.inr concerns))
      · refine (coming q found).imp (fun current d read => ?_)
          fun on => coming_offer capacity _ event (Or.inl on)
        rw [announced_offered published, if_neg fun told => concerns ⟨d, told, read⟩]
        exact current d read
    | moved published activities stepped =>
      rw [announced_moved published]
      rcases stepped with rfl | taken | answered
      · exact ⟨within, coming⟩
      · refine ⟨Nat.le_trans within (stream_take taken []).2.2, fun q found => ?_⟩
        exact (coming q found).imp_right fun on => coming_take within taken on
      · refine ⟨Nat.le_trans within (stream_answer answered 0).2.2, fun q _ => Or.inr ?_⟩
        exact coming_answer within answered
  exact ⟨sound.page, sound.written, sound.saved, announced_bound sound.announced,
    fun k transmitted wire c streaming registered =>
      (moves k transmitted wire c streaming registered).1,
    fun k transmitted wire c streaming registered =>
      (moves k transmitted wire c streaming registered).2⟩

theorem accepted_sound {capacity : Nat} (documented : Documented client) (sound : Sound client w)
    {k : Nat} {server : InboxEventStream.World}
    (step : InboxEventStream.next capacity w.server (.connect k) = some server) :
    Sound client (invalidate client
      { w with server := server, connection := .streaming k 0 [], connected := true }) := by
  have registered : server.subscribers k = some (connected w.server.published.length) := by
    rw [connect_step step]
    exact Function.update_self ..
  have opened : Sound client { w with
      server := server, connection := .streaming k 0 [], connected := true } := by
    refine ⟨sound.page, sound.written, sound.saved, sound.announced,
      fun j transmitted wire c streaming found => ?_,
      fun j transmitted wire c streaming found q _ => Or.inr ?_⟩
    · cases streaming
      exact Nat.zero_le _
    · cases streaming
      rw [registered, Option.some.injEq] at found
      exact found ▸ Or.inr (Or.inl rfl)
  exact untouched_sound (queries_sound documented opened [.messages, .accounts, .connections])
    rfl rfl rfl rfl rfl rfl

theorem transmit_sound (sound : Sound client w) {k transmitted : Nat}
    {wire : List (Sent Event Items)} (streaming : w.connection = .streaming k transmitted wire)
    {c : Subscriber} (registered : w.server.subscribers k = some c) {message : Sent Event Items}
    (found : c.sent[transmitted]? = some message) :
    Sound client { w with connection := .streaming k (transmitted + 1) (wire ++ [message]) } := by
  have inside := (List.getElem?_eq_some_iff.mp found).1
  refine ⟨sound.page, sound.written, sound.saved, sound.announced,
    fun j t v c' streaming' registered' => ?_, fun j t v c' streaming' registered' q clear => ?_⟩
  · cases streaming'
    rw [show w.server.subscribers k = some c' from registered', Option.some.injEq] at registered
    exact registered ▸ inside
  · cases streaming'
    rw [show w.server.subscribers k = some c' from registered', Option.some.injEq] at registered
    subst registered
    exact (sound.coming k transmitted wire c' streaming registered' q clear).imp_right
      (coming_transmit found)

theorem message_sound (documented : Documented client) (sound : Sound client w)
    {k transmitted : Nat} {wire : List (Sent Event Items)} {message : Sent Event Items}
    (streaming : w.connection = .streaming k transmitted (message :: wire)) :
    Sound client { invalidateQueries client w (invalidated message) with
      connection := .streaming k transmitted wire } := by
  have refetched := queries_sound documented sound (invalidated message)
  refine ⟨refetched.page, refetched.written, refetched.saved, refetched.announced,
    fun j t v c streaming' registered => ?_, fun j t v c streaming' registered q clear => ?_⟩
  · cases streaming'
    exact sound.within k transmitted _ c streaming registered
  · cases streaming'
    by_cases listed : q ∈ invalidated message
    · exact Or.inl (invalidate_current documented sound listed clear)
    · obtain ⟨since, missed⟩ := unlisted_same client w listed
      dsimp only at clear ⊢
      rw [missed] at clear
      rw [since]
      refine (sound.coming k transmitted _ c streaming registered q clear).imp_right fun on => ?_
      exact (coming_delivered on).resolve_left listed

theorem grown (data : Data) (d : Datum) : data ≤ Function.update data d (data d + 1) := by
  intro e
  by_cases same : e = d
  · subst same
    rw [Function.update_self]
    exact Nat.le_succ _
  · rw [Function.update_of_ne same]

theorem change_sound (sound : Sound client w) (d : Datum) :
    Sound client { w with data := Function.update w.data d (w.data d + 1) } :=
  same_books_sound sound ⟨rfl, rfl, rfl, rfl, rfl⟩ (later_sound sound.page (grown w.data d))
    (grown w.data d) (fun _ => Or.inl) fun _ => Or.inl

theorem patch_sound (sound : Sound client w) :
    Sound client { w with
      data := Function.update w.data .settingsRow (w.data .settingsRow + 1)
      save := some (some (Function.update w.data .settingsRow (w.data .settingsRow + 1))) } :=
  same_books_sound sound ⟨rfl, rfl, rfl, rfl, rfl⟩
    (later_sound sound.page (grown w.data .settingsRow)) (grown w.data .settingsRow)
    (fun _ => Or.inl) fun data found => by
      rw [Option.some.injEq, Option.some.injEq] at found
      exact Or.inr (le_of_eq found.symm)

theorem save_ended_sound (sound : Sound client w) {save : Option (Option Data)}
    (idle : ∀ data, save ≠ some (some data)) : Sound client { w with save := save } :=
  same_books_sound sound ⟨rfl, rfl, rfl, rfl, rfl⟩ sound.page (le_refl _) (fun _ => Or.inl)
    fun data found => absurd found (idle data)

theorem success_sound (documented : Documented client) (sound : Sound client w) {saved : Data}
    (answered : w.save = some (some saved)) : Sound client (onSuccess client w saved) := by
  refine queries_sound documented ?_ [.connections]
  refine same_books_sound sound ⟨rfl, rfl, rfl, rfl, rfl⟩
    (set_sound documented sound.page .settings (sound.saved saved answered)) (le_refl _) ?_ ?_
  · intro q found
    by_cases same : q = .settings
    · exact Or.inr same
    · left
      rw [← found]
      exact (Function.update_of_ne same ..).symm
  · intro data found
    contradiction

theorem served_books {x x' : Exchange Query Data State} {now : Data} {n : Nat}
    (step : x.serve now q n = some x') :
    x'.since = x.since ∧ x'.missed = x.missed ∧ x'.written = x.written := by
  unfold Exchange.serve at step
  split at step
  · obtain rfl := Option.some.inj step
    exact ⟨rfl, rfl, rfl⟩
  · contradiction

theorem delivered_books {x x' : Exchange Query Data State} {n : Nat}
    (step : x.deliver client q n = some x') :
    x'.since = x.since ∧ x'.missed = x.missed ∧
      ∀ p, x'.written p = true → x.written p = true := by
  obtain ⟨d, _, rfl⟩ := Option.map_eq_some_iff.mp step
  refine ⟨rfl, rfl, fun p found => ?_⟩
  dsimp only at found
  split at found
  · by_cases own : p = q
    · subst own
      rw [Function.update_self] at found
      contradiction
    · rwa [Function.update_of_ne own] at found
  · exact found

theorem fire_sound (documented : Documented client) (sound : Sound client w)
    {clock : Clock Callback} (callback : Callback) :
    Sound client (runCallback client { w with clock := clock } callback) := by
  cases callback with
  | connect =>
    unfold runCallback
    dsimp only
    split
    · exact untouched_sound sound rfl rfl rfl rfl rfl rfl
    · exact quiet_sound sound rfl rfl rfl rfl (fun _ _ _ streaming => by contradiction)
  | tick i =>
    unfold runCallback
    dsimp only
    split
    · cases i with
      | lease =>
        unfold tick presence
        dsimp only
        split
        · exact untouched_sound sound rfl rfl rfl rfl rfl rfl
        · exact untouched_sound sound rfl rfl rfl rfl rfl rfl
      | fallback =>
        exact untouched_sound (queries_sound documented sound
          [.messages, .accounts, .connections]) rfl rfl rfl rfl rfl rfl
      | activityFallback => exact untouched_sound sound rfl rfl rfl rfl rfl rfl
    · exact untouched_sound sound rfl rfl rfl rfl rfl rfl

theorem error_sound (sound : Sound client w) : Sound client (onError w) := by
  unfold onError
  dsimp only
  split
  · exact quiet_sound sound rfl rfl rfl rfl (fun _ _ _ streaming => by contradiction)
  · exact quiet_sound sound rfl rfl rfl rfl (fun _ _ _ streaming => by contradiction)

theorem visibility_sound (sound : Sound client w) (visible : Bool) :
    Sound client (onVisibility { w with visible := visible }) := by
  unfold onVisibility presence
  dsimp only
  split
  · exact untouched_sound sound rfl rfl rfl rfl rfl rfl
  · split
    · exact untouched_sound sound rfl rfl rfl rfl rfl rfl
    · exact untouched_sound sound rfl rfl rfl rfl rfl rfl

theorem next_sound {capacity : Nat} (documented : Documented client) (sound : Sound client w)
    {l : Label Turn} (step : next client capacity w l = some w') : Sound client w' := by
  cases l with
  | change d =>
    rw [next, Option.some.injEq] at step
    exact step ▸ change_sound sound d
  | server l =>
    rw [next] at step
    split at step
    · contradiction
    · rename_i apart
      obtain ⟨server, moved, rfl⟩ := Option.map_eq_some_iff.mp step
      exact server_sound sound (by simpa using apart) moved
  | accepted k =>
    rw [next] at step
    split at step
    · obtain ⟨server, moved, rfl⟩ := Option.map_eq_some_iff.mp step
      exact accepted_sound documented sound moved
    · contradiction
  | transmit =>
    rw [next] at step
    split at step
    · rename_i streaming
      obtain ⟨message, found, rfl⟩ := Option.map_eq_some_iff.mp step
      obtain ⟨c, registered, inside⟩ := Option.bind_eq_some_iff.mp found
      exact transmit_sound sound streaming registered inside
    · contradiction
  | message =>
    rw [next] at step
    split at step
    · rename_i streaming
      rw [Option.some.injEq] at step
      exact step ▸ message_sound documented sound streaming
    · contradiction
  | error =>
    rw [next] at step
    split at step
    · contradiction
    · rw [Option.some.injEq] at step
      exact step ▸ error_sound sound
  | fire =>
    rw [next] at step
    split at step
    · rw [Option.some.injEq] at step
      exact step ▸ fire_sound documented sound _
    · contradiction
  | wait elapsed =>
    rw [next, Option.some.injEq] at step
    exact step ▸ untouched_sound sound rfl rfl rfl rfl rfl rfl
  | visibility visible =>
    rw [next, Option.some.injEq] at step
    exact step ▸ visibility_sound sound visible
  | pageHide =>
    rw [next, Option.some.injEq] at step
    subst step
    split
    · exact sound
    · exact untouched_sound sound rfl rfl rfl rfl rfl rfl
  | dispose =>
    rw [next] at step
    split at step
    · contradiction
    · rw [Option.some.injEq] at step
      subst step
      exact quiet_sound sound rfl rfl rfl rfl (fun _ _ _ streaming => by contradiction)
  | invalidate queries =>
    rw [next, Option.some.injEq] at step
    exact step ▸ queries_sound documented sound queries
  | serve q n =>
    obtain ⟨page, served, rfl⟩ := Option.map_eq_some_iff.mp step
    obtain ⟨since, missed, written⟩ := served_books served
    exact same_books_sound sound ⟨since, missed, rfl, rfl, rfl⟩ (serve_sound sound.page served)
      (le_refl _) (fun _ found => Or.inl (written ▸ found)) fun _ => Or.inl
  | deliver q n =>
    obtain ⟨page, delivered, rfl⟩ := Option.map_eq_some_iff.mp step
    obtain ⟨since, missed, written⟩ := delivered_books delivered
    exact same_books_sound sound ⟨since, missed, rfl, rfl, rfl⟩
      (deliver_sound documented sound.page delivered) (le_refl _)
      (fun q found => Or.inl (written q found)) fun _ => Or.inl
  | turn turn =>
    obtain ⟨page, moved, rfl⟩ := Option.map_eq_some_iff.mp step
    have owned := own_sound documented sound.page moved
    obtain ⟨state, _, rfl⟩ := Option.map_eq_some_iff.mp moved
    exact same_books_sound sound ⟨rfl, rfl, rfl, rfl, rfl⟩ owned (le_refl _) (fun _ => Or.inl)
      fun _ => Or.inl
  | submit =>
    rw [next] at step
    split at step
    · rw [Option.some.injEq] at step
      exact step ▸ save_ended_sound sound fun _ => by simp
    · contradiction
  | patch =>
    rw [next] at step
    split at step
    · rw [Option.some.injEq] at step
      exact step ▸ patch_sound sound
    · contradiction
  | saved =>
    rw [next] at step
    split at step
    · rename_i data answered
      rw [Option.some.injEq] at step
      exact step ▸ success_sound documented sound answered
    · contradiction
  | saveFailed =>
    obtain ⟨_, _, rfl⟩ := Option.map_eq_some_iff.mp step
    exact save_ended_sound sound fun _ found => by contradiction

theorem run_sound {capacity : Nat} {visible : Bool} {labels : List (Label Turn)}
    (documented : Documented client)
    (run : replay (next client capacity) (.initial client visible) labels = some w) :
    Sound client w :=
  replay_invariant (Sound client) (initial_sound documented visible)
    (fun _ _ _ sound step => next_sound documented sound step) run

/-- The open stream has brought everything that the server had for it. -/
structure Delivered (w : World State) : Prop where
  idle : ∃ k transmitted c, w.connection = .streaming k transmitted [] ∧
    w.server.subscribers k = some c ∧ c.Idle ∧ c.sent.length ≤ transmitted

/-- In every run, for every cache that is as documented: when the open stream is delivered,
a query without a request on the way shows at least what the server had announced of the
data that the query shows, and never more than there is. It may be behind only if its last
request failed, if the last event came during its very first request, which is not sent
again, or if it is the settings and shows the answer to a save. -/
theorem views_catch_up (documented : Documented client) {capacity : Nat} {visible : Bool}
    {labels : List (Label Turn)}
    (run : replay (next client capacity) (.initial client visible) labels = some w)
    (delivered : Delivered w) (q : Query) (idle : (client.view w.page.state q).request = none)
    {data : Data} (shown : (client.view w.page.state q).shown = some data) :
    data ≤ w.data ∧ ((∀ d ∈ reads q, w.announced d ≤ data d) ∨
      (client.view w.page.state q).failed = true ∨ w.page.missed q = true ∨
      q = .settings ∧ w.page.written q = true) := by
  have sound := run_sound documented run
  obtain ⟨past, current⟩ := idle_shows sound.page idle shown
  refine ⟨past, ?_⟩
  obtain ⟨k, transmitted, c, streaming, registered, ⟨computing, queue⟩, all⟩ := delivered.idle
  cases missed : w.page.missed q with
  | true => exact Or.inr (Or.inr (Or.inl rfl))
  | false =>
    rcases current with since | failed | seen | written
    · refine Or.inl fun d read => Nat.le_trans ?_ (since d)
      rcases sound.coming k transmitted [] c streaming registered q missed with told | coming
      · exact told d read
      · rcases coming with ⟨message, mem, _⟩ | busy | ⟨entry, mem, _⟩
        · rw [List.nil_append, List.drop_of_length_le all] at mem
          contradiction
        · rw [computing] at busy
          contradiction
        · rw [queue] at mem
          contradiction
    · exact Or.inr (Or.inl failed)
    · rw [missed] at seen
      contradiction
    · exact Or.inr (Or.inr (Or.inr ⟨sound.written q written, written⟩))

/- The list is loaded, mail arrives, and the event makes the page fetch it. -/
def arrival : List (Label (QueryCache.Turn Query)) :=
  [.turn (.fetch .messages), .serve .messages 0, .deliver .messages 0, .accepted 0,
    .server (.statusAnswered 0), .transmit, .message, .change .messageRows, .server (.folder 1 2),
    .server (.get 0), .transmit, .message, .serve .messages 3, .deliver .messages 3]

theorem arrival_delivered : ∃ w data, replay (next plain 64) (.initial plain true) arrival = some w ∧
    Delivered w ∧ (w.page.state .messages).request = none ∧
    (w.page.state .messages).shown = some data ∧ data .messageRows = 1 ∧
    w.announced .messageRows = 1 :=
  ⟨_, _, rfl, ⟨_, _, _, rfl, rfl, ⟨rfl, rfl⟩, Nat.le_refl _⟩, rfl, rfl, rfl, rfl⟩

theorem views_catch_up_arrival : ∃ w data,
    replay (next plain 64) (.initial plain true) arrival = some w ∧ data .messageRows = 1 ∧
    w.announced .messageRows = 1 ∧ data ≤ w.data ∧
    ((∀ d ∈ reads .messages, w.announced d ≤ data d) ∨
      (w.page.state .messages).failed = true ∨ w.page.missed .messages = true ∨
      Query.messages = .settings ∧ w.page.written .messages = true) := by
  obtain ⟨w, data, run, delivered, idle, shown, version, announced⟩ := arrival_delivered
  exact ⟨w, data, run, version, announced,
    views_catch_up plain_documented run delivered .messages idle shown⟩

end InboxLiveViews
