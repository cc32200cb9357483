import InboxOne.UnreadCounts

/-!
mark_all_read in a call in which no step fails: its calls are run on their own, and the
endpoint keeps beside them with the rows it has marked. The badge, the unread list and the
batches then meet over one scope.
-/
namespace InboxMarkedScopes
open FaultyCalls PairedRuns InboxPython InboxTables InboxDatabase InboxFolderSync
open InboxImapClient InboxMessageRoutes InboxMessageList InboxRouteRules InboxRecordedChanges
open InboxUnreadCounts

variable (env : Environment)

/- The request beside its calls alone: the same outcomes to come and the same servers. -/
structure Alike (session : Database) (c c' : Config Request) : Prop where
  outcomes : c.outcomes = c'.outcomes
  servers : c.state.servers = c'.state.servers
  session : c.state.session = session

theorem marked_perm {session : Database} {rows rows' : List Message} (same : rows.Perm rows') :
    marked session rows = marked session rows' := by
  refine with_messages_eq rfl rfl ?_
  simp only [marked, Database.changeFlags, Database.withMessages, change_flags_rows]
  apply List.map_congr_left
  intro m _
  unfold FlagChange.applyTo
  simp only [(same.map Message.id).mem_iff]

theorem stores_all (groups : List (String × List Message)) (c : Config Request)
    (ok : (storeBatches (folderBatches groups) c).1 = .ok ()) :
    storeFolders groups c =
      (groups.flatMap Prod.snd, (storeBatches (folderBatches groups) c).2) := by
  induction groups generalizing c with
  | nil => rfl
  | cons group rest ih =>
    obtain ⟨path, rows⟩ := group
    have shape : storeBatches (folderBatches ((path, rows) :: rest)) =
        storeFolder path rows >>= fun _ => storeBatches (folderBatches rest) := by
      unfold storeBatches storeFolder folderBatches
      rw [List.flatMap_cons, fold_each_append, fold_each_map]
    rw [shape] at ok ⊢
    unfold storeFolders
    cases run : storeFolder path rows c with
    | mk result d =>
      cases result with
      | error e =>
        rw [run_bind_error (e := e) (by rw [run])] at ok
        contradiction
      | ok u =>
        rw [run_bind_ok (a := u) (by rw [run]), run] at ok ⊢
        dsimp only
        rw [ih d ok, List.flatMap_cons]

theorem beside_batches {account : Nat} {session : Database} {base : Servers}
    (sent : List (String × List Nat)) :
    Paired (Joined account session base) (storeBatches sent) (storeBatches sent)
      (fun _ => Joined account session base) (Beside account session base) :=
  paired_fold_each (fun batch _ _ => beside_mark_seen batch.1 batch.2) ()

/- One account: what its calls alone do to the servers the request does too, and all the
   account's rows are marked. -/
theorem account_through {db session : Database} {group : Nat × List Message} {owner : Account}
    (familiar : Familiar db session) (known : db.accountById group.1 = some owner)
    {c c' : Config Request} (alike : Alike session c c')
    (ok : (sendAccount env (owner, folderBatches (groupBy (pathOf db) group.2)) c').1 = .ok ()) :
    (markAccount env group c).1 = .ok group.2.length ∧
      Alike (marked session group.2) (markAccount env group c).2
        (sendAccount env (owner, folderBatches (groupBy (pathOf db) group.2)) c').2 := by
  have ownId : owner.id = group.1 := by simpa using List.find?_some known
  have beside : Beside group.1 session c.state.servers c c' :=
    ⟨alike.outcomes, congrFun alike.servers _, alike.session, fun _ _ => rfl⟩
  have itself : Beside group.1 c'.state.session c.state.servers c' c' :=
    ⟨rfl, rfl, rfl, fun other _ => (congrFun alike.servers other).symm⟩
  -- the calls alone, step by step
  obtain ⟨_, opened, alone⟩ := bind_answers ok
  have joined := paired_answer (beside_open env ownId) beside opened
  have joined' := (paired_answer (beside_open env ownId) itself opened).2
  rw [sendAccount, alone] at ok ⊢
  obtain ⟨_, stored, alone'⟩ := bind_answers ok
  have after' := (paired_answer (beside_batches _) joined' stored).2.1
  rw [alone'] at ok ⊢
  obtain ⟨count, after⟩ := mark_folders_run (groupBy (pathOf db) group.2) joined.2
  rw [stores_all _ _ stored] at count after
  obtain ⟨closed, left⟩ := beside_logout after
  obtain ⟨closed', left'⟩ := beside_logout after'
  have regrouped := group_by_perm (pathOf db) group.2
  rw [regrouped.length_eq] at count
  rw [marked_perm regrouped] at left
  -- the request, which handles what does not happen
  rw [(mark_account_opened env familiar alike.session known).1 joined.1, run_bind_ok count,
    run_bind_ok (closed.mpr (closed'.mp ok))]
  refine ⟨rfl, left.outcomes.trans left'.outcomes.symm, ?_, left.session⟩
  funext other
  by_cases own : other = group.1
  · rw [own]
    exact left.server.trans left'.server.symm
  · exact (left.others other own).trans (left'.others other own).symm

/- The accounts, one after the other. -/
theorem accounts_through {db : Database} (groups : List (Nat × List Message))
    (known : ∀ g ∈ groups, ∃ owner, db.accountById g.1 = some owner) {n : Nat} {session : Database}
    {c c' : Config Request} (familiar : Familiar db session) (alike : Alike session c c')
    (ok : (sendAll env (accountBatches db groups) c').1 = .ok ()) :
    (foldEach groups n (fun updated accountRows => do
        let n ← markAccount env accountRows
        pure (updated + n)) c).1 = .ok (n + (groups.flatMap Prod.snd).length) ∧
      Alike (marked session (groups.flatMap Prod.snd))
        (foldEach groups n (fun updated accountRows => do
          let n ← markAccount env accountRows
          pure (updated + n)) c).2
        (sendAll env (accountBatches db groups) c').2 := by
  induction groups generalizing n session c c' with
  | nil =>
    refine ⟨rfl, ?_⟩
    show Alike (marked session []) c c'
    rw [marked_nothing]
    exact alike
  | cons group rest ih =>
    obtain ⟨owner, here⟩ := known group List.mem_cons_self
    have calls : sendAll env (accountBatches db (group :: rest)) =
        sendAccount env (owner, folderBatches (groupBy (pathOf db) group.2)) >>= fun _ =>
          sendAll env (accountBatches db rest) := by
      rw [account_batches_cons here]
      rfl
    rw [calls] at ok ⊢
    obtain ⟨_, sent, alone⟩ := bind_answers ok
    obtain ⟨count, after⟩ := account_through env familiar here alike sent
    rw [alone] at ok ⊢
    have step : (markAccount env group >>= fun more => pure (n + more) : Action Nat) c =
        (.ok (n + group.2.length), (markAccount env group c).2) := by
      rw [run_bind_ok count]
      rfl
    rw [foldEach, run_bind_ok (congrArg Prod.fst step), step, List.flatMap_cons,
      List.length_append, ← Nat.add_assoc, ← marked_again]
    exact ih (fun g mem => known g (List.mem_cons_of_mem _ mem)) (familiar_change familiar) after ok

/- A call in which no step fails marks what it selected, and what it does to the servers is
   what its batches do. -/
theorem mark_all_read_through (db : Database) (servers : Servers) (outcomes : List Outcome)
    (accountId folderId : Option Nat)
    (ok : (sendAll env (sentBatches db accountId folderId) ⟨begin db servers, outcomes⟩).1 =
      .ok ()) :
    (markAllRead env accountId folderId ⟨begin db servers, outcomes⟩).1 =
        .ok (unreadRows db accountId folderId).length ∧
      (markAllRead env accountId folderId ⟨begin db servers, outcomes⟩).2.state.stored =
        marked db (unreadRows db accountId folderId) ∧
      (markAllRead env accountId folderId ⟨begin db servers, outcomes⟩).2.state.servers =
        (sendAll env (sentBatches db accountId folderId)
          ⟨begin db servers, outcomes⟩).2.state.servers := by
  have alike : Alike db (⟨begin db servers, outcomes⟩ : Config Request)
      ⟨begin db servers, outcomes⟩ := ⟨rfl, rfl, rfl⟩
  obtain ⟨count, after⟩ := accounts_through env (n := 0)
    (groupBy (fun m => m.accountId) (unreadRows db accountId folderId))
    (fun _ mem => group_account mem) (⟨rfl, rfl⟩ : Familiar db db) alike ok
  have regrouped := group_by_perm (fun m : Message => m.accountId) (unreadRows db accountId folderId)
  rw [Nat.zero_add, regrouped.length_eq] at count
  rw [marked_perm regrouped] at after
  rw [mark_all_read_shape]
  unfold markAccounts
  rw [run_bind_ok count]
  exact ⟨rfl, after.session, after.servers⟩

/-- A row as the call leaves it. -/
def afterMarking (db : Database) (accountId folderId : Option Nat) (m : Message) : Message :=
  if m ∈ unreadRows db accountId folderId then { m with isSeen := true } else m

theorem marked_rows (db : Database) (accountId folderId : Option Nat) :
    (marked db (unreadRows db accountId folderId)).messages.rows =
      db.messages.rows.map (afterMarking db accountId folderId) := by
  have rows : (marked db (unreadRows db accountId folderId)).messages.rows =
      db.messages.rows.map (FlagChange.applyTo { seen := some true }
        ((unreadRows db accountId folderId).map Message.id)) := change_flags_rows _ _ _
  rw [rows]
  apply List.map_congr_left
  intro m mem
  have selected_iff : m.id ∈ (unreadRows db accountId folderId).map Message.id ↔
      m ∈ unreadRows db accountId folderId := by
    constructor
    · intro there
      obtain ⟨r, rMem, same⟩ := List.mem_map.mp there
      rw [← id_determines (List.mem_of_mem_filter rMem) mem same]
      exact rMem
    · exact fun inside => List.mem_map.mpr ⟨m, inside, rfl⟩
  unfold FlagChange.applyTo afterMarking
  simp only [selected_iff]
  rfl

/- Afterwards the scope has nothing unread. -/
theorem nothing_unread (db : Database) (accountId folderId : Option Nat) :
    unreadRows (marked db (unreadRows db accountId folderId)) accountId folderId = [] := by
  unfold unreadRows
  rw [List.filter_eq_nil_iff, ← unreadRows, marked_rows]
  intro m mem unread
  obtain ⟨old, oldMem, same⟩ := List.mem_map.mp mem
  unfold afterMarking at same
  split at same
  · rw [← same] at unread
    simp at unread
  · rename_i unselected
    subst same
    exact unselected (List.mem_filter.mpr ⟨oldMem, unread⟩)

/-- What a call on one scope leaves behind: its answer, the servers as its batches alone leave
them, nothing unread in the scope, and every row outside the selection as it was. -/
structure Cleared (db : Database) (servers : Servers) (outcomes : List Outcome)
    (accountId folderId : Option Nat) (run : Except PyException Nat × Config Request) : Prop where
  answer : run.1 = .ok (unreadBadge db accountId folderId)
  sent : run.2.state.servers = (sendAll env (sentBatches db accountId folderId)
    ⟨begin db servers, outcomes⟩).2.state.servers
  badge : unreadBadge run.2.state.stored accountId folderId = 0
  list : ∀ limit, listMessages run.2.state.stored (unreadFilters accountId folderId) limit none =
    some ⟨[], none⟩
  rows : run.2.state.stored.messages.rows =
    db.messages.rows.map (afterMarking db accountId folderId)
  others : run.2.state.stored.accounts = db.accounts ∧ run.2.state.stored.folders = db.folders

theorem cleared (db : Database) (servers : Servers) (outcomes : List Outcome)
    (accountId folderId : Option Nat)
    (ok : (sendAll env (sentBatches db accountId folderId) ⟨begin db servers, outcomes⟩).1 =
      .ok ()) :
    Cleared env db servers outcomes accountId folderId
      (markAllRead env accountId folderId ⟨begin db servers, outcomes⟩) := by
  obtain ⟨answer, committed, sent⟩ := mark_all_read_through env db servers outcomes _ _ ok
  have empty := nothing_unread db accountId folderId
  constructor
  · rw [badge_eq]
    exact answer
  · exact sent
  · rw [committed, badge_eq, empty]
    rfl
  · intro limit
    have first := list_messages_page (marked db (unreadRows db accountId folderId))
      (unreadFilters accountId folderId) limit none
    rw [unread_list_eq, empty, KeysetPages.page_nil] at first
    rw [committed]
    exact first
  · rw [committed]
    exact marked_rows db accountId folderId
  · rw [committed]
    exact ⟨rfl, rfl⟩

/-- Over every database and every scope the badge, the unread list and mark_all_read find the
same messages; the batches send each of them once, under its account and its folder; and a call
in which no step fails leaves nothing unread in the scope and no other row changed. -/
theorem badge_list_and_marking_agree (db : Database) (accountId folderId : Option Nat) :
    (unreadRows db accountId folderId).length = unreadBadge db accountId folderId ∧
    (∀ limit, 1 ≤ limit →
      (∃ n pages, walk (unreadFilters accountId folderId) limit none (List.replicate n db) =
        some pages) ∧
      ∀ n pages, walk (unreadFilters accountId folderId) limit none (List.replicate n db) =
          some pages →
        pages.flatten.length = unreadBadge db accountId folderId ∧
          pages.flatten.Perm (unreadRows db accountId folderId)) ∧
    (sentUids (sentBatches db accountId folderId)).Perm
      ((unreadRows db accountId folderId).map fun m => (m.accountId, pathOf db m, m.uid)) ∧
    (∀ account ∈ sentBatches db accountId folderId, ∀ batch ∈ account.2,
      batch.2.length ≤ readBatch) ∧
    ∀ servers outcomes,
      (sendAll env (sentBatches db accountId folderId) ⟨begin db servers, outcomes⟩).1 = .ok () →
      Cleared env db servers outcomes accountId folderId
        (markAllRead env accountId folderId ⟨begin db servers, outcomes⟩) := by
  refine ⟨(badge_eq db accountId folderId).symm, fun limit positive => ⟨?_, ?_⟩,
    sent_uids_perm db accountId folderId, ?_,
    fun servers outcomes => cleared env db servers outcomes accountId folderId⟩
  · exact unchanged_walk_ends _ limit db
  · intro n pages walked
    have listed := unread_pages db accountId folderId positive walked
    exact ⟨listed.length_eq.trans (badge_eq db accountId folderId).symm, listed⟩
  · intro account mem batch inside
    obtain ⟨group, _, entry⟩ := List.mem_filterMap.mp mem
    obtain ⟨owner, _, same⟩ := Option.map_eq_some_iff.mp entry
    subst same
    obtain ⟨folder, _, parts⟩ := List.mem_flatMap.mp inside
    obtain ⟨uids, uMem, same⟩ := List.mem_map.mp parts
    subst same
    exact batches_small uMem

theorem tied_inbox_is_cleared : 1 ≤ 50 ∧
    (sendAll InboxRowTargets.noSpecials (sentBatches tied (some 1) (some 1))
      ⟨begin tied currentServers, []⟩).1 = .ok () ∧
    (markAllRead InboxRowTargets.noSpecials (some 1) (some 1)
      ⟨begin tied currentServers, []⟩).1 = .ok 3 ∧
    ∃ n pages, walk (unreadFilters (some 1) (some 1)) 50 none (List.replicate n tied) = some pages ∧
      pages.flatten.length = 3 := by
  have law := badge_list_and_marking_agree InboxRowTargets.noSpecials tied (some 1) (some 1)
  have ok : (sendAll InboxRowTargets.noSpecials (sentBatches tied (some 1) (some 1))
      ⟨begin tied currentServers, []⟩).1 = .ok () := rfl
  have done := law.2.2.2.2 currentServers [] ok
  obtain ⟨⟨n, pages, walked⟩, all⟩ := law.2.1 50 (by decide)
  exact ⟨by decide, ok, done.answer, n, pages, walked, (all n pages walked).1⟩

end InboxMarkedScopes
