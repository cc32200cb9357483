import Mathlib.Data.Prod.Lex
import Mathlib.Order.WithBot
import InboxOne.Cursor
import InboxOne.Database
import InboxOne.KeysetPages
import InboxOne.SqlLike

/-!
The message list endpoint: its filters, its order and its pages. The order is the one
of keyset pagination over the key of date and id, with a missing date at the bottom.
-/
namespace InboxMessageList
open InboxPython InboxTables InboxDatabase InboxCursor KeysetPages

structure Filters where
  accountId : Option Nat
  folderId : Option Nat
  unreadOnly : Bool
  notificationsOnly : Bool
  search : Option String
  deriving DecidableEq, Repr

/-- The characters that `str.strip` takes for blanks. -/
def isSpace (c : Char) : Bool :=
  let n := c.toNat
  (9 ≤ n ∧ n ≤ 13) ∨ (28 ≤ n ∧ n ≤ 32) ∨ n = 133 ∨ n = 160 ∨ n = 5760 ∨ (8192 ≤ n ∧ n ≤ 8202) ∨
    n = 8232 ∨ n = 8233 ∨ n = 8239 ∨ n = 8287 ∨ n = 12288

def strip (text : List Char) : List Char :=
  ((text.dropWhile isSpace).reverse.dropWhile isSpace).reverse

/-- `text.replace(c, "\\" + c)`. -/
def escapeOne (c : Char) (text : List Char) : List Char :=
  text.flatMap fun d => if d = c then ['\\', d] else [d]

def searchPattern (term : List Char) : List Char :=
  '%' :: escapeOne '_' (escapeOne '%' (escapeOne '\\' term)) ++ ['%']

/- The cached envelope fields; bodies are never stored. -/
def searchFields (m : Message) : List (Option String) :=
  [m.subject, m.fromName, m.fromAddr, m.toAddrs, m.ccAddrs]

def matchesSearch (search : Option String) (m : Message) : Bool :=
  let term := strip (search.getD "").toList
  if term = [] then true
  else (searchFields m).any fun field =>
    SqlLike.ilike '\\' (searchPattern term) (field.map String.toList)

/- Without a folder the list covers the inboxes; notifications are asked of inboxes with
   a complete history in either case. -/
def matchesFilters (db : Database) (filters : Filters) (m : Message) : Bool :=
  (match filters.accountId with
    | none => true
    | some account => m.accountId == account) &&
  (match filters.folderId with
    | none => (db.folderOf m).any Folder.isInbox
    | some folder => m.folderId == folder) &&
  (!filters.notificationsOnly || (m.notificationEligible &&
    (db.folderOf m).any fun f => f.historyComplete && f.isInbox)) &&
  (!filters.unreadOnly || !m.isSeen) &&
  matchesSearch filters.search m

def selected (db : Database) (filters : Filters) : List Message :=
  db.messages.rows.filter (matchesFilters db filters)

instance : LinearOrder Clock := LinearOrder.lift' Clock.micros clock_micros_injective

abbrev SortKey := Lex (WithBot Clock × Nat)

/-- `date_sent, id`, compared in this order. -/
def sortKey (m : Message) : SortKey := toLex (m.dateSent, m.id)

/-- The WHERE clause of the cursor. A comparison with NULL is never true. -/
def underCursor : Option (Option Clock × Nat) → Message → Bool
  | none, _ => true
  | some (none, cursorId), m => m.dateSent == none && decide (m.id < cursorId)
  | some (some cursorDate, cursorId), m =>
      (match m.dateSent with
        | none => false
        | some date => decide (date < cursorDate)) ||
      m.dateSent == none ||
      (m.dateSent == some cursorDate && decide (m.id < cursorId))

/-- The cursor as bound to the query. An empty text is no cursor. -/
def readCursor : Option String → Option (Option (Option Clock × Nat))
  | none => some none
  | some text =>
      if text = "" then some none
      else do
        let (date, messageId) ← decodeCursor text
        match processBindParam date with
        | .ok bound => some (some (bound, messageId))
        | .error _ => none

structure Page where
  items : List Message
  nextCursor : Option String
  deriving DecidableEq, Repr

/-- `list_messages`; a cursor that cannot be read fails the request. -/
def listMessages (db : Database) (filters : Filters) (limit : Nat) (cursor : Option String) :
    Option Page := do
  let under ← readCursor cursor
  let rows := (descending sortKey ((selected db filters).filter (underCursor under))).take (limit + 1)
  let hasMore := decide (limit < rows.length)
  let rows := rows.take limit
  some {
    items := rows
    nextCursor := if hasMore then
        rows.getLast?.map fun m => encodeCursor (processResultValue m.dateSent) m.id
      else none }

/-- Follows next_cursor, each request on the table of its time, until a page has none. -/
def walk (filters : Filters) (limit : Nat) : Option String → List Database →
    Option (List (List Message))
  | _, [] => none
  | cursor, db :: rest => do
      let page ← listMessages db filters limit cursor
      match page.nextCursor with
      | some next => (walk filters limit (some next) rest).map fun pages => page.items :: pages
      | none => if rest.isEmpty then some [page.items] else none

/-- a stands before b in a list by date and id, latest first and undated last. -/
def ListedBefore (a b : Message) : Prop :=
  match a.dateSent, b.dateSent with
  | some da, some db => db.micros < da.micros ∨ (da = db ∧ b.id < a.id)
  | some _, none => True
  | none, some _ => False
  | none, none => b.id < a.id

/- Escaping in three replacements is escaping once, because the backslash comes first. -/
theorem escape_literal (term : List Char) :
    escapeOne '_' (escapeOne '%' (escapeOne '\\' term)) = SqlLike.literal '\\' term := by
  induction term with
  | nil => rfl
  | cons c term ih =>
    have split : ∀ d (front back : List Char),
        escapeOne d (front ++ back) = escapeOne d front ++ escapeOne d back :=
      fun d front back => List.flatMap_append
    have each : escapeOne '_' (escapeOne '%' (escapeOne '\\' [c])) = SqlLike.literalChar '\\' c := by
      by_cases backslash : c = '\\'
      · subst backslash
        rfl
      · by_cases percent : c = '%'
        · subst percent
          rfl
        · by_cases underscore : c = '_'
          · subst underscore
            rfl
          · simp [escapeOne, SqlLike.literalChar, backslash, percent, underscore]
    rw [← List.singleton_append, split, split, split, each, ih]
    rfl

theorem search_pattern_eq (term : List Char) :
    searchPattern term = '%' :: SqlLike.literal '\\' term ++ ['%'] := by
  rw [searchPattern, escape_literal]

/- The pattern finds the term itself, whatever characters it has, and neither the pattern
   nor its folding ends in an escape that has nothing to escape. -/
theorem search_term_is_literal (term text : List Char) :
    (SqlLike.ilike '\\' (searchPattern term) (some text) = true ↔
      ∃ front part back, text = front ++ part ++ back ∧
        SqlLike.lower part = SqlLike.lower term) ∧
    SqlLike.dangling '\\' (searchPattern term) = false ∧
    SqlLike.dangling '\\' (SqlLike.lower (searchPattern term)) = false := by
  rw [search_pattern_eq]
  refine ⟨?_, ?_, ?_⟩
  · rw [SqlLike.ilike_containing (by decide) (by decide) (by decide)]
    exact SqlLike.lower_part_iff term text
  · exact SqlLike.containing_not_dangling (by decide) term
  · rw [SqlLike.lower_containing (by decide) (by decide)]
    exact SqlLike.containing_not_dangling (by decide) (SqlLike.lower term)

/- The search asks for the stripped term as a part of one of the envelope fields. -/
theorem matches_search_iff (search : Option String) (m : Message) :
    matchesSearch search m = true ↔
      strip (search.getD "").toList = [] ∨ ∃ field ∈ searchFields m, ∃ text, field = some text ∧
        SqlLike.lower (strip (search.getD "").toList) <:+: SqlLike.lower text.toList := by
  unfold matchesSearch
  simp only
  split
  · rename_i blank
    simp [blank]
  · rename_i present
    rw [or_iff_right present, List.any_eq_true]
    apply exists_congr
    intro field
    apply and_congr_right
    intro _
    rw [search_pattern_eq]
    cases field with
    | none => simp [SqlLike.ilike]
    | some text =>
      rw [Option.map_some, SqlLike.ilike_containing (by decide) (by decide) (by decide)]
      constructor
      · intro part
        exact ⟨text, rfl, part⟩
      · intro there
        obtain ⟨same, eq, part⟩ := there
        rw [Option.some.injEq] at eq
        exact eq ▸ part

/-- The key that a cursor stands for. -/
def cursorKey (cursor : Option Clock × Nat) : SortKey := toLex cursor

theorem under_key_iff (m : Message) (date : Option Clock) (messageId : Nat) :
    Under (some (cursorKey (date, messageId))) (sortKey m) ↔
      (show WithBot Clock from m.dateSent) < (show WithBot Clock from date) ∨
        (m.dateSent = date ∧ m.id < messageId) :=
  Prod.Lex.lt_iff

/- The WHERE clause of the cursor matches the ORDER BY. -/
theorem under_cursor_iff (cursor : Option (Option Clock × Nat)) (m : Message) :
    underCursor cursor m = decide (Under (cursor.map cursorKey) (sortKey m)) := by
  rw [Bool.eq_iff_iff, decide_eq_true_eq]
  rcases cursor with _ | ⟨_ | date, messageId⟩
  · simp [underCursor, Under]
  · have bottom : ¬ (show WithBot Clock from m.dateSent) < (⊥ : WithBot Clock) := not_lt_bot
    simp only [underCursor, Bool.and_eq_true, beq_iff_eq, decide_eq_true_eq, Option.map_some,
      under_key_iff]
    exact ⟨fun both => .inr both, fun either => either.resolve_left bottom⟩
  · simp only [underCursor, Bool.or_eq_true, Bool.and_eq_true, beq_iff_eq, decide_eq_true_eq,
      Option.map_some, under_key_iff]
    cases missing : m.dateSent with
    | none =>
      have less : (⊥ : WithBot Clock) < (date : WithBot Clock) := WithBot.bot_lt_coe date
      constructor
      · intro _
        exact .inl less
      · intro _
        exact .inl (.inr rfl)
    | some sent =>
      have less : ((sent : WithBot Clock) < (date : WithBot Clock)) ↔ sent < date :=
        WithBot.coe_lt_coe
      constructor
      · intro either
        rcases either with (earlier | absent) | tie
        · exact .inl (less.mpr (of_decide_eq_true earlier))
        · contradiction
        · exact .inr tie
      · intro either
        rcases either with earlier | tie
        · exact .inl (.inl (decide_eq_true (less.mp earlier)))
        · exact .inr tie

theorem sort_key_lt_iff (a b : Message) : sortKey b < sortKey a ↔ ListedBefore a b := by
  have key : sortKey b < sortKey a ↔ Under (some (cursorKey (a.dateSent, a.id))) (sortKey b) :=
    Iff.rfl
  rw [key, under_key_iff]
  unfold ListedBefore
  cases later : a.dateSent with
  | none =>
    have bottom : ¬ (show WithBot Clock from b.dateSent) < (⊥ : WithBot Clock) := not_lt_bot
    cases earlier : b.dateSent with
    | none =>
      rw [earlier] at bottom
      exact ⟨fun either => (either.resolve_left bottom).2, fun less => .inr ⟨rfl, less⟩⟩
    | some date =>
      rw [earlier] at bottom
      simp only [reduceCtorEq, false_and, or_false, iff_false]
      exact bottom
  | some date =>
    cases earlier : b.dateSent with
    | none =>
      have less : (⊥ : WithBot Clock) < (date : WithBot Clock) := WithBot.bot_lt_coe date
      exact ⟨fun _ => trivial, fun _ => .inl less⟩
    | some sent =>
      have less : ((sent : WithBot Clock) < (date : WithBot Clock)) ↔ sent < date :=
        WithBot.coe_lt_coe
      constructor
      · intro either
        rcases either with before | ⟨same, smaller⟩
        · exact .inl (less.mp before)
        · exact .inr ⟨(Option.some.inj same).symm, smaller⟩
      · intro either
        rcases either with before | ⟨same, smaller⟩
        · exact .inl (less.mpr before)
        · exact .inr ⟨same ▸ rfl, smaller⟩

def cursorOf (key : SortKey) : Option Clock × Nat := ofLex key

theorem cursor_key_of (cursor : Option SortKey) : (cursor.map cursorOf).map cursorKey = cursor := by
  cases cursor <;> rfl

/-- The text of the cursor with a given key. -/
def cursorText (key : SortKey) : String :=
  encodeCursor (processResultValue (cursorOf key).1) (cursorOf key).2

theorem read_cursor_text (cursor : Option SortKey) :
    readCursor (cursor.map cursorText) = some (cursor.map cursorOf) := by
  cases cursor with
  | none => rfl
  | some key =>
    simp only [Option.map_some, readCursor, cursorText, if_neg (cursor_nonempty _ _),
      decode_encode_cursor, Option.bind_eq_bind, Option.bind_some, bind_param_result_value]

/- A page of the endpoint is a keyset page of the selected messages. -/
theorem list_messages_page (db : Database) (filters : Filters) (limit : Nat)
    (cursor : Option SortKey) :
    listMessages db filters limit (cursor.map cursorText) =
      some ⟨(page sortKey limit cursor (selected db filters)).1,
        (page sortKey limit cursor (selected db filters)).2.map cursorText⟩ := by
  have filtered : (selected db filters).filter (underCursor (cursor.map cursorOf)) =
      (selected db filters).filter fun m => decide (Under cursor (sortKey m)) := by
    apply List.filter_congr
    intro m _
    rw [under_cursor_iff, cursor_key_of]
  have found : descending sortKey ((selected db filters).filter
      (underCursor (cursor.map cursorOf))) = candidates sortKey cursor (selected db filters) := by
    rw [filtered]
    rfl
  rw [listMessages, read_cursor_text, Option.bind_eq_bind, Option.bind_some, found]
  unfold page
  by_cases more : limit < ((candidates sortKey cursor (selected db filters)).take (limit + 1)).length
  · simp only [decide_eq_true more, if_pos more, if_true, Option.map_map]
    rfl
  · simp only [decide_eq_false more, if_neg more, Bool.false_eq_true, if_false, Option.map_none]

theorem keys_distinct (db : Database) (filters : Filters) :
    ((selected db filters).map sortKey).Nodup := by
  have ids : ((selected db filters).map Message.id).Nodup :=
    db.messages.keys.sublist (List.filter_sublist.map _)
  rw [List.Nodup, List.pairwise_map] at ids ⊢
  apply ids.imp
  intro a b different same
  exact different (congrArg (fun key : SortKey => (ofLex key).2) same)

/- A walk of the endpoint is a keyset walk. -/
theorem walk_pages (filters : Filters) (limit : Nat) (dbs : List Database) :
    ∀ (cursor : Option SortKey) (pages : List (List Message)),
      walk filters limit (cursor.map cursorText) dbs = some pages ↔
        Walk sortKey limit cursor (dbs.map fun db => selected db filters) pages := by
  induction dbs with
  | nil =>
    intro cursor pages
    rw [walk, List.map_nil]
    constructor
    · intro absent
      contradiction
    · intro absent
      cases absent
  | cons db rest ih =>
    intro cursor pages
    rw [walk, list_messages_page, Option.bind_eq_bind, Option.bind_some, List.map_cons]
    cases next : (page sortKey limit cursor (selected db filters)).2 with
    | none =>
      rw [walk_last_iff sortKey next, List.map_eq_nil_iff]
      cases rest with
      | nil => simp [eq_comm]
      | cons other rest => simp
    | some key =>
      rw [walk_more_iff sortKey next]
      constructor
      · intro found
        obtain ⟨later, walked, shape⟩ := Option.map_eq_some_iff.mp found
        exact ⟨later, (ih (some key) later).mp walked, shape⟩
      · intro there
        obtain ⟨later, walked, shape⟩ := there
        exact Option.map_eq_some_iff.mpr ⟨later, (ih (some key) later).mpr walked, shape⟩

/- An id stands for one message throughout: only its flags may change. -/
def OneIdentity (dbs : List Database) : Prop :=
  ∀ db ∈ dbs, ∀ other ∈ dbs, ∀ m ∈ db.messages.rows, ∀ m' ∈ other.messages.rows,
    m.id = m'.id → m.dateSent = m'.dateSent

theorem mem_selected {db : Database} {filters : Filters} {m : Message} :
    m ∈ selected db filters ↔ m ∈ db.messages.rows ∧ matchesFilters db filters m = true := by
  rw [selected, List.mem_filter]

theorem selected_distinct (dbs : List Database) (filters : Filters) :
    ∀ rows ∈ dbs.map fun db => selected db filters, (rows.map sortKey).Nodup := by
  intro rows mem
  obtain ⟨db, _, same⟩ := List.mem_map.mp mem
  rw [← same]
  exact keys_distinct db filters

theorem walk_order {filters : Filters} {limit : Nat} {dbs : List Database}
    {pages : List (List Message)} (walked : walk filters limit none dbs = some pages) :
    pages.flatten.Pairwise ListedBefore ∧
      ∀ m ∈ pages.flatten, ∃ db ∈ dbs, m ∈ db.messages.rows ∧ matchesFilters db filters m = true := by
  have keyset := (walk_pages filters limit dbs none pages).mp walked
  have distinct := selected_distinct dbs filters
  obtain ⟨falling, inside⟩ := walk_descending sortKey keyset distinct
  constructor
  · exact falling.imp fun less => (sort_key_lt_iff _ _).mp less
  · intro m mem
    obtain ⟨_, rows, rowsMem, mMem⟩ := inside m mem
    obtain ⟨db, dbMem, same⟩ := List.mem_map.mp rowsMem
    rw [← same] at mMem
    exact ⟨db, dbMem, mem_selected.mp mMem⟩

theorem walk_once {filters : Filters} {limit : Nat} {dbs : List Database}
    {pages : List (List Message)} (walked : walk filters limit none dbs = some pages)
    (identity : OneIdentity dbs) : (pages.flatten.map Message.id).Nodup := by
  obtain ⟨falling, inside⟩ := walk_order walked
  rw [List.Nodup, List.pairwise_map]
  apply List.Pairwise.imp_of_mem _ falling
  intro a b aMem bMem before same
  obtain ⟨da, daMem, aRow, _⟩ := inside a aMem
  obtain ⟨db, dbMem, bRow, _⟩ := inside b bMem
  have dates := identity da daMem db dbMem a aRow b bRow same
  unfold ListedBefore at before
  rw [← dates, same] at before
  cases date : a.dateSent <;> simp [date] at before

theorem walk_nothing_skipped {filters : Filters} {limit : Nat} (positive : 1 ≤ limit)
    {dbs : List Database} {pages : List (List Message)}
    (walked : walk filters limit none dbs = some pages) (identity : OneIdentity dbs)
    {messageId : Nat} (stays : ∀ db ∈ dbs, ∃ m ∈ db.messages.rows,
      m.id = messageId ∧ matchesFilters db filters m = true) :
    messageId ∈ pages.flatten.map Message.id := by
  have keyset := (walk_pages filters limit dbs none pages).mp walked
  have distinct := selected_distinct dbs filters
  cases dbs with
  | nil => contradiction
  | cons first rest =>
    obtain ⟨m, mRow, mId, _⟩ := stays first List.mem_cons_self
    have found : ∃ r ∈ pages.flatten, sortKey r = sortKey m := by
      apply walk_complete sortKey positive keyset distinct (k := sortKey m) trivial
      intro rows mem
      obtain ⟨db, dbMem, same⟩ := List.mem_map.mp mem
      obtain ⟨m', row, sameId, matched⟩ := stays db dbMem
      have dates := identity db dbMem first List.mem_cons_self m' row m mRow (sameId.trans mId.symm)
      refine ⟨m', same ▸ mem_selected.mpr ⟨row, matched⟩, ?_⟩
      rw [sortKey, sortKey, dates, sameId, mId]
    obtain ⟨r, mem, same⟩ := found
    have ids : r.id = m.id := congrArg (fun key => (cursorOf key).2) same
    exact List.mem_map.mpr ⟨r, mem, ids.trans mId⟩

/- On a table that does not change a walk returns the matching messages, each once. -/
theorem unchanged_pages {filters : Filters} {limit n : Nat} (positive : 1 ≤ limit) {db : Database}
    {pages : List (List Message)} (walked : walk filters limit none (List.replicate n db) = some pages) :
    (pages.flatten.map Message.id).Nodup ∧
      ∀ m, m ∈ pages.flatten ↔ m ∈ db.messages.rows ∧ matchesFilters db filters m = true := by
  have unchanged : ∀ other ∈ List.replicate n db, other = db := fun other mem =>
    List.eq_of_mem_replicate mem
  have identity : OneIdentity (List.replicate n db) := by
    intro a aMem b bMem m mRow m' row same
    rw [unchanged a aMem] at mRow
    rw [unchanged b bMem] at row
    rw [id_determines mRow row same]
  refine ⟨walk_once walked identity, fun m => ?_⟩
  constructor
  · intro mem
    obtain ⟨other, otherMem, both⟩ := (walk_order walked).2 m mem
    rw [unchanged other otherMem] at both
    exact both
  · intro both
    have stays : ∀ other ∈ List.replicate n db, ∃ m' ∈ other.messages.rows,
        m'.id = m.id ∧ matchesFilters other filters m' = true := by
      intro other otherMem
      rw [unchanged other otherMem]
      exact ⟨m, both.1, rfl, both.2⟩
    have returned := walk_nothing_skipped positive walked identity stays
    obtain ⟨r, mem, same⟩ := List.mem_map.mp returned
    obtain ⟨other, otherMem, row, _⟩ := (walk_order walked).2 r mem
    rw [unchanged other otherMem] at row
    rw [← id_determines row both.1 same]
    exact mem

/- Such a walk ends. -/
theorem unchanged_walk_ends (filters : Filters) (limit : Nat) (db : Database) :
    ∃ n pages, walk filters limit none (List.replicate n db) = some pages := by
  obtain ⟨n, pages, keyset⟩ :=
    walk_ends sortKey limit (keys_distinct db filters) _ none (le_refl _)
  refine ⟨n, pages, (walk_pages filters limit (List.replicate n db) none pages).mpr ?_⟩
  rw [List.map_replicate]
  exact keyset

theorem walk_of_unchanged (filters : Filters) {limit : Nat} (positive : 1 ≤ limit)
    (db : Database) : ∃ n pages, walk filters limit none (List.replicate n db) = some pages ∧
      ∀ m, m ∈ pages.flatten ↔ m ∈ db.messages.rows ∧ matchesFilters db filters m = true := by
  obtain ⟨n, pages, walked⟩ := unchanged_walk_ends filters limit db
  exact ⟨n, pages, walked, (unchanged_pages positive walked).2⟩

/- Every message that stays and matches throughout is returned exactly once, and none
   twice; the pages fall in date and id with the undated last. -/
theorem pages_neither_skip_nor_repeat (filters : Filters) (limit : Nat) (positive : 1 ≤ limit) :
    (∀ dbs pages, walk filters limit none dbs = some pages → OneIdentity dbs →
      (∀ messageId, (∀ db ∈ dbs, ∃ m ∈ db.messages.rows,
          m.id = messageId ∧ matchesFilters db filters m = true) →
        (pages.flatten.map Message.id).count messageId = 1) ∧
      (pages.flatten.map Message.id).Nodup ∧
      pages.flatten.Pairwise ListedBefore) ∧
    (∀ db, ∃ n pages, walk filters limit none (List.replicate n db) = some pages ∧
      ∀ m, m ∈ pages.flatten ↔ m ∈ db.messages.rows ∧ matchesFilters db filters m = true) ∧
    ∀ date messageId, decodeCursor (encodeCursor date messageId) = some (date, messageId) := by
  refine ⟨?_, fun db => walk_of_unchanged filters positive db, decode_encode_cursor⟩
  intro dbs pages walked identity
  have once := walk_once walked identity
  refine ⟨?_, once, (walk_order walked).1⟩
  intro messageId stays
  exact List.count_eq_one_of_mem once (walk_nothing_skipped positive walked identity stays)

def inbox : Folder :=
  { id := 1, accountId := 1, imapPath := "INBOX", displayName := none, isInbox := true,
    historyComplete := true, lastUidvalidity := some 1, lastSeenUid := 4 }

def owner : Account :=
  { id := 1, protocol := .imapBasic, imapHost := none, smtpHost := none }

def noon : Clock := ⟨dayMicros / 2, by decide⟩

def letter (messageId : Nat) (dateSent : Option Clock) : Message :=
  { id := messageId, accountId := 1, folderId := 1, uid := messageId, uidvalidity := 1,
    notificationEligible := false, messageIdHeader := none, inReplyTo := none, references := none,
    subject := some "Hello", fromName := none, fromAddr := none, toAddrs := none, ccAddrs := none,
    dateSent := dateSent, isSeen := false, isFlagged := false, isAnswered := false,
    hasAttachments := false, snippet := none, sizeBytes := none }

/-- The inbox with one message. -/
def inboxWith (m : Message) (home : m.folderId = 1) (account : m.accountId = 1) : Database :=
  { accounts := [owner]
    folders := [inbox]
    messages := ⟨[m], List.nodup_singleton _, List.nodup_singleton _⟩
    accountKeys := List.nodup_singleton _
    folderKeys := List.nodup_singleton _
    folderPaths := List.nodup_singleton _
    folderOwners := fun _ mem => List.mem_singleton.mp mem ▸ ⟨owner, List.mem_cons_self, rfl⟩
    messageHomes := fun _ mem =>
      List.mem_singleton.mp mem ▸ ⟨inbox, List.mem_cons_self, home.symm, account.symm⟩ }

def unreadMail : Filters := ⟨none, none, true, false, some " ELL "⟩

/-- Two letters of one date and one without. -/
def tied : Database :=
  { accounts := [owner]
    folders := [inbox]
    messages := ⟨[letter 1 (some noon), letter 2 (some noon), letter 3 none], by decide, by decide⟩
    accountKeys := by decide
    folderKeys := by decide
    folderPaths := by decide
    folderOwners := by decide
    messageHomes := by decide }

/-- The first page's letter is gone and a new one has arrived. -/
def changed : Database :=
  { accounts := [owner]
    folders := [inbox]
    messages := ⟨[letter 1 (some noon), letter 3 none, letter 4 (some noon)], by decide, by decide⟩
    accountKeys := by decide
    folderKeys := by decide
    folderPaths := by decide
    folderOwners := by decide
    messageHomes := by decide }

theorem changed_walk : walk unreadMail 1 none [tied, changed, changed] =
    some [[letter 2 (some noon)], [letter 1 (some noon)], [letter 3 none]] := by
  decide +kernel

theorem changed_identity : OneIdentity [tied, changed, changed] := by
  unfold OneIdentity
  decide

theorem pages_neither_skip_nor_repeat_changed : 1 ≤ 1 ∧
    ∃ pages, walk unreadMail 1 none [tied, changed, changed] = some pages ∧
      (pages.flatten.map Message.id).count 3 = 1 ∧ pages.flatten.Pairwise ListedBefore := by
  have law := (pages_neither_skip_nor_repeat unreadMail 1 (le_refl 1)).1 _ _ changed_walk
    changed_identity
  exact ⟨le_refl 1, _, changed_walk, law.1 3 (by decide +kernel), law.2.2⟩

end InboxMessageList
