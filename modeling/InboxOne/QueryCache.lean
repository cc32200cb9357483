import Mathlib.Logic.Function.Basic
import Mathlib.Order.Basic

/- A cache of queries beside a server whose data only grow. The cache is any one that keeps
   to a few rules; when it sends, repeats and gives up requests is left to it. -/
namespace QueryCache
variable {Key D State Event : Type*}

/-- What a cache has of a query: the data it shows, the number of its request on the way,
    and whether its last request failed. -/
structure View (D : Type*) where
  shown : Option D
  request : Option Nat
  failed : Bool

/- The first request of the query is on the way. -/
def View.loading (v : View D) : Bool := v.shown.isNone && v.request.isSome

/-- A cache. What may send a request gets a fresh number for it; `own` is what the cache
    does by itself and on behalf of its other users. -/
structure Client (Key D State Event : Type*) where
  initial : State
  view : State → Key → View D
  invalidateQueries : State → List Key → Nat → State
  setQueryData : State → Key → D → State
  answer : State → Key → Nat → D → State
  own : State → Event → Nat → Option State

/-- A query is left alone, sends a request, or gives up the one on the way. -/
def Continues (n : Nat) (v v' : View D) : Prop :=
  v' = v ∨ (v'.shown = v.shown ∧ v'.request = some n) ∨
    (v'.shown = v.shown ∧ v'.request = none ∧ v'.failed = true)

/-- The rules of a cache whose queries are all observed. An invalidated query is requested
    again, in place of a request on the way, unless that is its first one. An answer
    counts if it is that of the request on the way. -/
structure Documented (client : Client Key D State Event) : Prop where
  empty : ∀ q, (client.view client.initial q).shown = none ∧
    (client.view client.initial q).request = none
  invalidate_other : ∀ s queries n q, q ∉ queries →
    client.view (client.invalidateQueries s queries n) q = client.view s q
  invalidate_loading : ∀ s queries n q, (client.view s q).loading = true →
    client.view (client.invalidateQueries s queries n) q = client.view s q
  invalidate_sends : ∀ s queries n q, q ∈ queries → (client.view s q).loading = false →
    (client.view (client.invalidateQueries s queries n) q).shown = (client.view s q).shown ∧
      (client.view (client.invalidateQueries s queries n) q).request = some n
  set_other : ∀ s q d p, p ≠ q → client.view (client.setQueryData s q d) p = client.view s p
  set_shown : ∀ s q d, (client.view (client.setQueryData s q d) q).shown = some d ∧
    (client.view (client.setQueryData s q d) q).request = (client.view s q).request
  answer_other : ∀ s q n d p, p ≠ q → client.view (client.answer s q n d) p = client.view s p
  answer_late : ∀ s q n d, (client.view s q).request ≠ some n →
    client.view (client.answer s q n d) q = client.view s q
  answer_shown : ∀ s q n d, (client.view s q).request = some n →
    (client.view (client.answer s q n d) q).shown = some d ∧
      (client.view (client.answer s q n d) q).request = none
  own_continues : ∀ s e n s', client.own s e n = some s' →
    ∀ q, Continues n (client.view s q) (client.view s' q)

/-- A cache and the answers that the server has given. `since` is what the server had when
    the query was invalidated last, `missed` says that this came during its first request,
    and `written` that it shows what was set and not an answer. -/
structure Exchange (Key D State : Type*) where
  state : State
  issued : Nat
  served : Key → Nat → Option D
  since : Key → D
  missed : Key → Bool
  written : Key → Bool

variable (client : Client Key D State Event)

def Exchange.initial (now : D) : Exchange Key D State where
  state := client.initial
  issued := 0
  served := fun _ _ => none
  since := fun _ => now
  missed := fun _ => false
  written := fun _ => false

def Exchange.own (x : Exchange Key D State) (e : Event) : Option (Exchange Key D State) :=
  (client.own x.state e x.issued).map fun s => { x with state := s, issued := x.issued + 1 }

section Operations
variable [DecidableEq Key]

def Exchange.invalidate (x : Exchange Key D State) (now : D) (queries : List Key) :
    Exchange Key D State :=
  { x with
    state := client.invalidateQueries x.state queries x.issued
    issued := x.issued + 1
    since := fun q =>
      if q ∈ queries ∧ (client.view x.state q).loading = false then now else x.since q
    missed := fun q => if q ∈ queries then (client.view x.state q).loading else x.missed q }

def Exchange.set (x : Exchange Key D State) (q : Key) (d : D) : Exchange Key D State :=
  { x with
    state := client.setQueryData x.state q d, written := Function.update x.written q true }

/- The server answers a request; the answer is on the way from then on. -/
def Exchange.serve (x : Exchange Key D State) (now : D) (q : Key) (n : Nat) :
    Option (Exchange Key D State) :=
  if n < x.issued ∧ (x.served q n).isNone then
    some { x with
      served := Function.update x.served q (Function.update (x.served q) n (some now)) }
  else none

def Exchange.deliver (x : Exchange Key D State) (q : Key) (n : Nat) :
    Option (Exchange Key D State) :=
  (x.served q n).map fun d => { x with
    state := client.answer x.state q n d
    written := if (client.view x.state q).request = some n then Function.update x.written q false
      else x.written }

/- An invalidation sends the query's request again, or it is only noted. -/
theorem invalidate_cases {client : Client Key D State Event} (documented : Documented client)
    (x : Exchange Key D State) (now : D) (queries : List Key) (q : Key) :
    (client.view (x.invalidate client now queries).state q = client.view x.state q ∧
      (x.invalidate client now queries).since q = x.since q ∧
      ((x.invalidate client now queries).missed q = false → x.missed q = false ∧ q ∉ queries)) ∨
    ((client.view (x.invalidate client now queries).state q).shown =
        (client.view x.state q).shown ∧
      (client.view (x.invalidate client now queries).state q).request = some x.issued ∧
      (x.invalidate client now queries).since q = now) := by
  unfold Exchange.invalidate
  dsimp only
  by_cases listed : q ∈ queries
  · cases loading : (client.view x.state q).loading with
    | true =>
      refine Or.inl ⟨documented.invalidate_loading _ _ _ _ loading, ?_, fun seen => ?_⟩
      · rw [if_neg (by simp)]
      · rw [if_pos listed] at seen
        contradiction
    | false =>
      obtain ⟨shown, request⟩ := documented.invalidate_sends _ _ x.issued _ listed loading
      exact Or.inr ⟨shown, request, if_pos ⟨listed, rfl⟩⟩
  · refine Or.inl ⟨documented.invalidate_other _ _ _ _ listed, ?_, fun seen => ?_⟩
    · rw [if_neg (by simp [listed])]
    · rw [if_neg listed] at seen
      exact ⟨seen, listed⟩

theorem invalidated_since {client : Client Key D State Event} (documented : Documented client)
    {x : Exchange Key D State} {now : D} {queries : List Key} {q : Key} (listed : q ∈ queries)
    (seen : (x.invalidate client now queries).missed q = false) :
    (x.invalidate client now queries).since q = now := by
  rcases invalidate_cases documented x now queries q with ⟨_, _, missed⟩ | ⟨_, _, since⟩
  · exact absurd listed (missed seen).2
  · exact since

end Operations

section Rules
variable [Preorder D]

/-- The data of a query are of the server, and those of a request that was sent after the
    last invalidation are not older than that. -/
structure Sound (client : Client Key D State Event) (x : Exchange Key D State) (now : D) :
    Prop where
  since : ∀ q, x.since q ≤ now
  unserved : ∀ q n, x.issued ≤ n → x.served q n = none
  served : ∀ q n d, x.served q n = some d → d ≤ now
  request : ∀ q n, (client.view x.state q).request = some n → n < x.issued ∧
    ∀ d, x.served q n = some d → x.missed q = false → x.since q ≤ d
  shown : ∀ q d, (client.view x.state q).shown = some d → d ≤ now ∧
    ((client.view x.state q).request = none → (client.view x.state q).failed = false →
      x.missed q = false → x.written q = false → x.since q ≤ d)

variable {client : Client Key D State Event} {x x' : Exchange Key D State} {now : D}

theorem initial_sound (documented : Documented client) :
    Sound client (Exchange.initial client now) now where
  since _ := le_refl now
  unserved _ _ _ := rfl
  served q n d found := by contradiction
  request q n found := by
    have empty := (documented.empty q).2.symm.trans found
    contradiction
  shown q d found := by
    have empty := (documented.empty q).1.symm.trans found
    contradiction

theorem later_sound (sound : Sound client x now) {later : D} (le : now ≤ later) :
    Sound client x later where
  since q := le_trans (sound.since q) le
  unserved := sound.unserved
  served q n d found := le_trans (sound.served q n d found) le
  request := sound.request
  shown q d found := ⟨le_trans (sound.shown q d found).1 le, (sound.shown q d found).2⟩

theorem own_sound (documented : Documented client) (sound : Sound client x now) {e : Event}
    (step : x.own client e = some x') : Sound client x' now := by
  obtain ⟨s, moved, rfl⟩ := Option.map_eq_some_iff.mp step
  have continues := documented.own_continues x.state e x.issued s moved
  constructor
  · exact sound.since
  · exact fun q n fresh => sound.unserved q n (Nat.le_of_succ_le fresh)
  · exact sound.served
  · intro q n request
    rcases continues q with same | ⟨_, sent⟩ | ⟨_, given, _⟩
    · rw [same] at request
      obtain ⟨old, current⟩ := sound.request q n request
      exact ⟨Nat.lt_succ_of_lt old, current⟩
    · obtain rfl := Option.some.inj (sent.symm.trans request)
      refine ⟨Nat.lt_succ_self _, fun d served => ?_⟩
      have fresh := (sound.unserved q x.issued (Nat.le_refl _)).symm.trans served
      contradiction
    · exact absurd (given.symm.trans request) (by simp)
  · intro q d found
    rcases continues q with same | ⟨same, sent⟩ | ⟨same, _, failed⟩
    · rw [same] at found ⊢
      exact sound.shown q d found
    · rw [same] at found
      refine ⟨(sound.shown q d found).1, fun idle => ?_⟩
      exact absurd (sent.symm.trans idle) (by simp)
    · rw [same] at found
      refine ⟨(sound.shown q d found).1, fun _ fine => ?_⟩
      exact absurd (failed.symm.trans fine) (by simp)

/-- An idle query shows at least what the server had at its last invalidation, unless its
    last request failed, the invalidation came during the first one, or what it shows was
    set. -/
theorem idle_shows (sound : Sound client x now) {q : Key}
    (idle : (client.view x.state q).request = none) {d : D}
    (shown : (client.view x.state q).shown = some d) :
    d ≤ now ∧ (x.since q ≤ d ∨ (client.view x.state q).failed = true ∨ x.missed q = true ∨
      x.written q = true) := by
  obtain ⟨past, current⟩ := sound.shown q d shown
  refine ⟨past, ?_⟩
  cases failed : (client.view x.state q).failed with
  | true => exact Or.inr (Or.inl rfl)
  | false =>
    cases missed : x.missed q with
    | true => exact Or.inr (Or.inr (Or.inl rfl))
    | false =>
      cases written : x.written q with
      | true => exact Or.inr (Or.inr (Or.inr rfl))
      | false => exact Or.inl (current idle failed missed written)

variable [DecidableEq Key]

theorem invalidate_sound (documented : Documented client) (sound : Sound client x now)
    (queries : List Key) : Sound client (x.invalidate client now queries) now where
  since q := by
    rcases invalidate_cases documented x now queries q with ⟨_, since, _⟩ | ⟨_, _, since⟩
    · rw [since]
      exact sound.since q
    · rw [since]
  unserved q n fresh := sound.unserved q n (Nat.le_of_succ_le fresh)
  served := sound.served
  request q n found := by
    rcases invalidate_cases documented x now queries q with ⟨view, since, seen⟩ | ⟨_, sent, _⟩
    · rw [view] at found
      obtain ⟨old, current⟩ := sound.request q n found
      refine ⟨Nat.lt_succ_of_lt old, fun d served missed => ?_⟩
      rw [since]
      exact current d served (seen missed).1
    · obtain rfl := Option.some.inj (sent.symm.trans found)
      refine ⟨Nat.lt_succ_self _, fun d served => ?_⟩
      have fresh := (sound.unserved q x.issued (Nat.le_refl _)).symm.trans served
      contradiction
  shown q d found := by
    rcases invalidate_cases documented x now queries q with ⟨view, since, seen⟩ | ⟨same, sent, _⟩
    · rw [view] at found ⊢
      rw [since]
      obtain ⟨past, current⟩ := sound.shown q d found
      exact ⟨past, fun idle fine missed => current idle fine (seen missed).1⟩
    · rw [same] at found
      refine ⟨(sound.shown q d found).1, fun idle => ?_⟩
      rw [sent] at idle
      contradiction

theorem set_sound (documented : Documented client) (sound : Sound client x now) (q : Key) {d : D}
    (past : d ≤ now) : Sound client (x.set client q d) now where
  since := sound.since
  unserved := sound.unserved
  served := sound.served
  request p n found := by
    have request : (client.view x.state p).request = some n := by
      rw [← found]
      by_cases own : p = q
      · subst own
        exact (documented.set_shown x.state p d).2.symm
      · rw [show (x.set client q d).state = client.setQueryData x.state q d from rfl,
          documented.set_other _ _ _ _ own]
    exact sound.request p n request
  shown p e found := by
    by_cases own : p = q
    · subst own
      obtain rfl := Option.some.inj ((documented.set_shown x.state p d).1.symm.trans found)
      refine ⟨past, fun _ _ _ answered => ?_⟩
      rw [show (x.set client p d).written = Function.update x.written p true from rfl,
        Function.update_self] at answered
      contradiction
    · have view : client.view (x.set client q d).state p = client.view x.state p :=
        documented.set_other _ _ _ _ own
      have written : (x.set client q d).written p = x.written p := Function.update_of_ne own ..
      rw [view] at found ⊢
      rw [written]
      exact sound.shown p e found

theorem serve_sound (sound : Sound client x now) {q : Key} {n : Nat}
    (step : x.serve now q n = some x') : Sound client x' now := by
  unfold Exchange.serve at step
  split at step
  · rename_i fresh
    rw [Option.some.injEq] at step
    subst step
    have cases : ∀ p m d, Function.update x.served q (Function.update (x.served q) n (some now)) p m
        = some d → d = now ∨ x.served p m = some d := by
      intro p m d found
      by_cases own : p = q
      · subst own
        rw [Function.update_self] at found
        by_cases same : m = n
        · subst same
          rw [Function.update_self, Option.some.injEq] at found
          exact Or.inl found.symm
        · rw [Function.update_of_ne same] at found
          exact Or.inr found
      · rw [Function.update_of_ne own] at found
        exact Or.inr found
    constructor
    · exact sound.since
    · intro p m later
      have differs : m ≠ n := Nat.ne_of_gt (Nat.lt_of_lt_of_le fresh.1 later)
      have old := sound.unserved p m later
      by_cases own : p = q
      · subst own
        dsimp only
        rw [Function.update_self, Function.update_of_ne differs]
        exact old
      · dsimp only
        rw [Function.update_of_ne own]
        exact old
    · intro p m d found
      rcases cases p m d found with rfl | old
      · exact le_refl d
      · exact sound.served p m d old
    · intro p m request
      obtain ⟨sent, current⟩ := sound.request p m request
      refine ⟨sent, fun d found => ?_⟩
      rcases cases p m d found with rfl | old
      · exact fun _ => sound.since p
      · exact current d old
    · exact sound.shown
  · contradiction

theorem deliver_sound (documented : Documented client) (sound : Sound client x now) {q : Key}
    {n : Nat} (step : x.deliver client q n = some x') : Sound client x' now := by
  obtain ⟨d, served, rfl⟩ := Option.map_eq_some_iff.mp step
  have other : ∀ p, p ≠ q → client.view (client.answer x.state q n d) p = client.view x.state p :=
    fun p => documented.answer_other x.state q n d p
  by_cases current : (client.view x.state q).request = some n
  · obtain ⟨shows, idle⟩ := documented.answer_shown x.state q n d current
    rw [if_pos current]
    constructor
    · exact sound.since
    · exact sound.unserved
    · exact sound.served
    · intro p m request
      by_cases own : p = q
      · subst own
        exact absurd (idle.symm.trans request) (by simp)
      · rw [other p own] at request
        exact sound.request p m request
    · intro p e found
      by_cases own : p = q
      · subst own
        obtain rfl := Option.some.inj (shows.symm.trans found)
        exact ⟨sound.served p n d served,
          fun _ _ missed _ => (sound.request p n current).2 d served missed⟩
      · have written : Function.update x.written q false p = x.written p :=
          Function.update_of_ne own ..
        rw [other p own] at found ⊢
        obtain ⟨past, current⟩ := sound.shown p e found
        exact ⟨past, fun idle fine seen answered => current idle fine seen (written ▸ answered)⟩
  · have same : ∀ p, client.view (client.answer x.state q n d) p = client.view x.state p := by
      intro p
      by_cases own : p = q
      · subst own
        exact documented.answer_late x.state p n d current
      · exact other p own
    rw [if_neg current]
    constructor
    · exact sound.since
    · exact sound.unserved
    · exact sound.served
    · intro p m request
      rw [same] at request
      exact sound.request p m request
    · intro p e found
      rw [same] at found ⊢
      exact sound.shown p e found

end Rules

section Plain
variable [DecidableEq Key]

/-- What a plain cache does by itself: it sends the request of a query, as at the mount of
    its observer or after a failed attempt, or it gives the request up. -/
inductive Turn (Key : Type*) where
  | fetch (q : Key)
  | fail (q : Key)

/-- A cache that is nothing but the views of its queries. -/
def plain : Client Key D (Key → View D) (Turn Key) where
  initial := fun _ => ⟨none, none, false⟩
  view s q := s q
  invalidateQueries s queries n q :=
    if q ∈ queries ∧ (s q).loading = false then { s q with request := some n } else s q
  setQueryData s q d := Function.update s q { s q with shown := some d, failed := false }
  answer s q n d :=
    if (s q).request = some n then Function.update s q ⟨some d, none, false⟩ else s
  own s turn n :=
    match turn with
    | .fetch q => some (Function.update s q { s q with request := some n })
    | .fail q => some (Function.update s q { s q with request := none, failed := true })

theorem plain_documented : Documented (plain : Client Key D (Key → View D) (Turn Key)) where
  empty _ := ⟨rfl, rfl⟩
  invalidate_other s queries n q unlisted := if_neg fun both => unlisted both.1
  invalidate_loading s queries n q loading := if_neg fun both => by
    rw [show (s q).loading = true from loading] at both
    exact absurd both.2 (by simp)
  invalidate_sends s queries n q listed idle := by
    rw [show plain.view (plain.invalidateQueries s queries n) q = { s q with request := some n }
      from if_pos ⟨listed, idle⟩]
    exact ⟨rfl, rfl⟩
  set_other s q d p differs := Function.update_of_ne differs ..
  set_shown s q d := by
    rw [show plain.view (plain.setQueryData s q d) q = { s q with shown := some d, failed := false }
      from Function.update_self ..]
    exact ⟨rfl, rfl⟩
  answer_other s q n d p differs := by
    simp only [plain]
    split
    · exact Function.update_of_ne differs ..
    · rfl
  answer_late s q n d late := congrFun (if_neg late) q
  answer_shown s q n d current := by
    rw [show plain.view (plain.answer s q n d) q = ⟨some d, none, false⟩ from
      (congrFun (if_pos current) q).trans (Function.update_self ..)]
    exact ⟨rfl, rfl⟩
  own_continues s turn n s' moved q := by
    cases turn with
    | fetch p =>
      obtain rfl := Option.some.inj moved
      by_cases own : q = p
      · subst own
        refine Or.inr (Or.inl ?_)
        simp [plain]
      · exact Or.inl (Function.update_of_ne own ..)
    | fail p =>
      obtain rfl := Option.some.inj moved
      by_cases own : q = p
      · subst own
        refine Or.inr (Or.inr ?_)
        simp [plain]
      · exact Or.inl (Function.update_of_ne own ..)

end Plain

end QueryCache
