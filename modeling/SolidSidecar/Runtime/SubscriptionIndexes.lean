import SolidSidecar.Run.Machine
import SolidSidecar.Runtime.Subscriptions

/-!
# The indexes of the subscription registry

The indexes should list, under every WebID and channel, the ids of the stored subscriptions with it, each
once; then every listed id leads to a subscription and `CreateSubscription` never follows a missing one.
The cleanup deletes a subscription before it looks it up to unindex it, so over a run the indexes stay
exact exactly when no cleanup finds anything stale (`indexes_exact_iff_fits`).

Both indexes are the same to the proofs: `key` reads off a subscription what it is listed under.
-/

namespace Runtime
open Go List SubscriptionTable Postings Run

/-- The index lists the stored subscriptions by what `key` reads off them. -/
def SubscriptionTable.IndexedBy (table : SubscriptionTable) (key : Subscription → Str) (p : Postings Str Str) : Prop :=
  p.Lists fun value id => ∃ sub, table.lookup id = some sub ∧ key sub = value

section OneIndex

variable {table : SubscriptionTable} {key : Subscription → Str} {p : Postings Str Str}
  (indexed : table.IndexedBy key p)

include indexed

theorem SubscriptionTable.IndexedBy.insert {sub} (fresh : table.lookup sub.subscriptionID = none) :
    (table.put sub).IndexedBy key (p.enter (key sub) sub.subscriptionID) := by
  have gets (value : Str) : (∃ s, (table.put sub).lookup sub.subscriptionID = some s ∧ key s = value) ↔
      value ∈ [key sub] := by
    simp [lookup_put, eq_comm]
  refine (Lists.enterAll_iff indexed gets).mpr ⟨nodup_singleton _, ?_, ?_⟩
  · rintro value ⟨_, stored, -⟩
    rw [fresh] at stored
    cases stored
  · intro value id apart
    rw [lookup_put, if_neg apart]

/-- A subscription is changed in what it is not listed under. -/
theorem SubscriptionTable.IndexedBy.modify {sub sub'}
    (stored : table.lookup sub'.subscriptionID = some sub) (same : key sub' = key sub) :
    (table.put sub').IndexedBy key p := by
  refine (Lists.same_iff indexed).mpr fun value id => ?_
  rw [lookup_put]
  split_ifs with own
  · subst own
    simp [stored, same]
  · rfl

theorem SubscriptionTable.IndexedBy.cancel {id sub} (stored : table.lookup id = some sub) :
    (table.delete id).IndexedBy key (p.leaveFirst (key sub) id) := by
  refine .leaveFirst indexed (fun value id' => ?_) fun value => ?_
  · rw [lookup_delete]
    split_ifs with own <;> simp [own]
  · rintro ⟨_, stored', rfl⟩
    rw [stored] at stored'
    cases stored'
    rfl

/-- A table that holds fewer subscriptions is not the one that is indexed. -/
theorem SubscriptionTable.IndexedBy.same_iff {table' : SubscriptionTable}
    (sub : ∀ id s, table'.lookup id = some s → table.lookup id = some s) :
    table'.IndexedBy key p ↔ ∀ id, table'.lookup id = table.lookup id := by
  constructor
  · intro indexed' id
    cases stored : table.lookup id with
    | none =>
      cases stored' : table'.lookup id with
      | none => rfl
      | some s =>
        rw [sub id s stored'] at stored
        cases stored
    | some s =>
      have listed : id ∈ p.under (key s) := ((indexed (key s)).2 id).mpr ⟨s, stored, rfl⟩
      obtain ⟨s', stored', -⟩ := ((indexed' (key s)).2 id).mp listed
      rw [stored', ← sub id s' stored', stored]
  · intro same
    refine (Lists.same_iff indexed).mpr fun value id => ?_
    rw [same]

end OneIndex

namespace SubscriptionRegistry

structure Consistent (r : SubscriptionRegistry) : Prop where
  byWebID : r.subscriptions.IndexedBy Subscription.webID r.subscriptionsByWebID
  byChannel : r.subscriptions.IndexedBy Subscription.channelID r.subscriptionsByChannel

inductive Op where
  | create (c : CallContext) (request : CreateRequest)
  | update (now : Time) (id : Str) (filter : Option StreamFilter) (priority : Option Int)
      (metadata : Option (GoMap Str Str))
  | pause (now : Time) (id : Str)
  | resume (now : Time) (id : Str)
  | cancel (id : Str)
  | cleanup (now : Time) (order : RangeOrder (Str × Subscription))

/-- The registry after an operation, and whether the operation followed a subscription that is missing. -/
def step (r : SubscriptionRegistry) : Op → SubscriptionRegistry × Bool
  | .create c request =>
    ((createSubscription c r request).1, match (createSubscription c r request).2 with
      | .nilDereference => true
      | _ => false)
  | .update now id filter priority metadata => ((updateSubscription now r id filter priority metadata).1, false)
  | .pause now id => ((pauseSubscription now r id).1, false)
  | .resume now id => ((resumeSubscription now r id).1, false)
  | .cancel id => ((cancelSubscription r id).1, false)
  | .cleanup now order => (cleanupStaleSubscriptions now order r, false)

def Op.newID : Op → Option Str
  | .create c _ => some c.newID
  | _ => none

section Step

variable {r : SubscriptionRegistry}

/-- A duplicate is searched among stored subscriptions only. -/
theorem isDuplicate_isSome {request listed} (stored : ∀ id ∈ listed, (r.subscriptions.lookup id).isSome = true) :
    (r.isDuplicate request listed).isSome = true := by
  induction listed with
  | nil => rfl
  | cons id rest ih =>
    obtain ⟨_, found⟩ := Option.isSome_iff_exists.mp (stored id mem_cons_self)
    rw [isDuplicate, found]
    dsimp only
    split_ifs
    · rfl
    · exact ih fun id' mem => stored id' (mem_cons_of_mem id mem)

theorem createSubscription_cases (c : CallContext) (request : CreateRequest) :
    (createSubscription c r request).1 = r ∨
      ∃ webID, (createSubscription c r request).1 = r.insert (newSubscription c request webID) := by
  unfold createSubscription
  split
  · exact .inl rfl
  · rename_i webID _
    dsimp only
    split
    · exact .inl rfl
    · exact .inl rfl
    · exact .inr ⟨webID, rfl⟩

theorem Consistent.create (consistent : r.Consistent) {c}
    (fresh : r.subscriptions.lookup c.newID = none) (request : CreateRequest) :
    (createSubscription c r request).1.Consistent ∧ (r.step (.create c request)).2 = false := by
  constructor
  · rcases createSubscription_cases c request with same | ⟨webID, added⟩
    · rw [same]
      exact consistent
    · rw [added]
      exact ⟨consistent.byWebID.insert fresh, consistent.byChannel.insert fresh⟩
  · have found (listed : List Str) (some : ∀ id ∈ listed, ∃ webID, id ∈ r.subscriptionsByWebID.under webID) :
        r.isDuplicate request listed ≠ none := by
      apply Option.isSome_iff_ne_none.mp
      apply isDuplicate_isSome
      intro id mem
      obtain ⟨webID, listed⟩ := some id mem
      obtain ⟨_, stored, -⟩ := ((consistent.byWebID webID).2 id).mp listed
      rw [stored]
      rfl
    unfold step createSubscription
    dsimp only
    split
    · rename_i missing
      split at missing
      · cases missing
      · split at missing
        · rename_i webID _ _ none
          refine absurd none (found _ fun id mem => ?_)
          split_ifs at mem
          · exact ⟨_, mem⟩
          · cases mem
        · cases missing
        · cases missing
    · rfl

/-- A change that keeps the id, the WebID and the channel. -/
theorem Consistent.modify (consistent : r.Consistent) {id f}
    (keeps : ∀ sub sub', f sub = .ok sub' → sub'.subscriptionID = sub.subscriptionID ∧
      sub'.webID = sub.webID ∧ sub'.channelID = sub.channelID) : (r.modify id f).1.Consistent := by
  unfold SubscriptionRegistry.modify
  split_ifs
  · exact consistent
  · split
    · exact consistent
    · rename_i sub stored
      split
      · exact consistent
      · rename_i sub' changed
        obtain ⟨sameID, sameWebID, sameChannel⟩ := keeps sub sub' changed
        have stored' : r.subscriptions.lookup sub'.subscriptionID = some sub := by
          rw [sameID, r.subscriptions.keyed id sub stored]
          exact stored
        exact ⟨consistent.byWebID.modify stored' sameWebID, consistent.byChannel.modify stored' sameChannel⟩

theorem Consistent.cancel (consistent : r.Consistent) (id : Str) : (cancelSubscription r id).1.Consistent := by
  unfold cancelSubscription
  split_ifs
  · exact consistent
  · split
    · exact consistent
    · rename_i _ stored
      unfold removeFromIndexes
      rw [stored]
      exact ⟨consistent.byWebID.cancel stored, consistent.byChannel.cancel stored⟩

/-- Nothing is found in the indexes for a subscription that was deleted. -/
theorem removeFromIndexes_delete (id : Str) : (r.delete id).removeFromIndexes id = r.delete id := by
  have gone : (r.delete id).subscriptions.lookup id = none := by
    rw [delete, lookup_delete, if_pos rfl]
  unfold removeFromIndexes
  rw [gone]

theorem lookup_deleteAll (ids : List Str) (id : Str) :
    (ids.foldl (fun r id => (r.delete id).removeFromIndexes id) r).subscriptions.lookup id =
      if id ∈ ids then none else r.subscriptions.lookup id := by
  induction ids generalizing r with
  | nil => simp
  | cons first rest ih =>
    rw [foldl_cons, removeFromIndexes_delete, ih, delete, lookup_delete]
    by_cases same : id = first <;> simp [same]

/-- The indexes stay as they are when subscriptions are deleted first. -/
theorem indexes_deleteAll (ids : List Str) :
    (ids.foldl (fun r id => (r.delete id).removeFromIndexes id) r).subscriptionsByWebID = r.subscriptionsByWebID ∧
    (ids.foldl (fun r id => (r.delete id).removeFromIndexes id) r).subscriptionsByChannel =
      r.subscriptionsByChannel := by
  induction ids generalizing r with
  | nil => exact ⟨rfl, rfl⟩
  | cons first rest ih =>
    rw [foldl_cons, removeFromIndexes_delete]
    exact ih

def NothingStale (r : SubscriptionRegistry) (now : Time) : Prop :=
  r.closed = true ∨ ∀ id sub, r.subscriptions.lookup id = some sub →
    stale (now.add (-r.config.maxSubscriptionAge)) sub = false

theorem Consistent.cleanup_iff (consistent : r.Consistent) (now : Time) (order : RangeOrder (Str × Subscription)) :
    (cleanupStaleSubscriptions now order r).Consistent ↔ r.NothingStale now := by
  unfold cleanupStaleSubscriptions NothingStale
  split_ifs with closed
  · exact iff_of_true consistent (.inl closed)
  · rw [or_iff_right closed]
    dsimp only
    generalize cut : now.add _ = cutoff
    generalize listed : ((order.visit r.subscriptions.entries.pairs).filter fun e => stale cutoff e.2).map Prod.fst =
      ids
    have stored (id : Str) : id ∈ ids ↔ ∃ sub, r.subscriptions.lookup id = some sub ∧ stale cutoff sub = true := by
      rw [← listed]
      simp [order.mem_visit, GoMap.mem_pairs, SubscriptionTable.lookup]
    have lookup := lookup_deleteAll (r := r) ids
    have fewer : ∀ id s, (ids.foldl (fun r id => (r.delete id).removeFromIndexes id) r).subscriptions.lookup id =
        some s → r.subscriptions.lookup id = some s := by
      intro id s found
      rw [lookup] at found
      split_ifs at found
      exact found
    obtain ⟨webIDs, channels⟩ := indexes_deleteAll ids
    have kept : (∀ id, (ids.foldl (fun r id => (r.delete id).removeFromIndexes id) r).subscriptions.lookup id =
        r.subscriptions.lookup id) ↔ ∀ id sub, r.subscriptions.lookup id = some sub → stale cutoff sub = false := by
      simp only [lookup]
      constructor
      · intro all id sub found
        by_contra old
        have mem : id ∈ ids := (stored id).mpr ⟨sub, found, Bool.eq_true_of_not_eq_false old⟩
        have gone := all id
        rw [if_pos mem, found] at gone
        cases gone
      · intro none id
        rw [if_neg]
        intro mem
        obtain ⟨sub, found, old⟩ := (stored id).mp mem
        rw [none id sub found] at old
        cases old
    constructor
    · rintro ⟨byWebID, -⟩
      rw [webIDs] at byWebID
      exact kept.mp ((consistent.byWebID.same_iff fewer).mp byWebID)
    · intro none
      constructor
      · rw [webIDs]
        exact (consistent.byWebID.same_iff fewer).mpr (kept.mpr none)
      · rw [channels]
        exact (consistent.byChannel.same_iff fewer).mpr (kept.mpr none)

theorem setStatus_keeps (now : Time) (status : SubscriptionStatus) (sub : Subscription) :
    (setStatus now status sub).subscriptionID = sub.subscriptionID ∧ (setStatus now status sub).webID = sub.webID ∧
      (setStatus now status sub).channelID = sub.channelID := by
  unfold setStatus
  split_ifs <;> exact ⟨rfl, rfl, rfl⟩

/-- The condition of an operation: a cleanup has nothing to do. -/
def Fits (r : SubscriptionRegistry) : Op → Prop
  | .cleanup now _ => r.NothingStale now
  | _ => True

theorem Consistent.step_iff (consistent : r.Consistent) (op : Op)
    (fresh : ∀ id, op.newID = some id → r.subscriptions.lookup id = none) :
    ((r.step op).1.Consistent ↔ r.Fits op) ∧ (r.step op).2 = false := by
  cases op with
  | create c request =>
    obtain ⟨after, followed⟩ := consistent.create (fresh c.newID rfl) request
    exact ⟨iff_of_true after trivial, followed⟩
  | update now id filter priority metadata =>
    refine ⟨iff_of_true (consistent.modify fun sub sub' changed => ?_) trivial, rfl⟩
    obtain ⟨-, changed⟩ := then_eq_ok.mp changed
    cases changed
    exact ⟨rfl, rfl, rfl⟩
  | pause now id =>
    refine ⟨iff_of_true (consistent.modify fun sub sub' changed => ?_) trivial, rfl⟩
    cases changed
    exact setStatus_keeps now .paused sub
  | resume now id =>
    refine ⟨iff_of_true (consistent.modify fun sub sub' changed => ?_) trivial, rfl⟩
    cases changed
    exact setStatus_keeps now .active sub
  | cancel id => exact ⟨iff_of_true (consistent.cancel id) trivial, rfl⟩
  | cleanup now order => exact ⟨consistent.cleanup_iff now order, rfl⟩

end Step

variable (config : SubscriptionRegistryConfig)

theorem consistent_new : (new config).Consistent := by
  have nothing (key : Subscription → Str) : empty.IndexedBy key ∅ := by
    intro value
    refine ⟨nodup_nil, fun id => iff_of_false not_mem_nil ?_⟩
    rintro ⟨_, stored, _⟩
    cases stored
  exact ⟨nothing _, nothing _⟩

/-- An operation stores nothing under an id that was free, except a creation under its own. -/
theorem lookup_step_eq_none {r : SubscriptionRegistry} {op id} (free : r.subscriptions.lookup id = none)
    (other : op.newID ≠ some id) : (r.step op).1.subscriptions.lookup id = none := by
  have modify (id' : Str) (f : Subscription → Except SubscriptionError Subscription)
      (keeps : ∀ sub sub', f sub = .ok sub' → sub'.subscriptionID = sub.subscriptionID) :
      (r.modify id' f).1.subscriptions.lookup id = none := by
    unfold modify
    split_ifs
    · exact free
    · split
      · exact free
      · rename_i sub stored
        split
        · exact free
        · rename_i sub' changed
          rw [lookup_put, if_neg]
          · exact free
          · rintro rfl
            rw [keeps sub sub' changed, r.subscriptions.keyed id' sub stored, stored] at free
            cases free
  cases op with
  | create c request =>
    rcases createSubscription_cases c request with same | ⟨_, added⟩
    · rw [step, same]
      exact free
    · rw [step, added]
      refine (lookup_put _ _ id).trans (if_neg ?_ |>.trans free)
      rintro rfl
      exact other rfl
  | update now id' filter priority metadata =>
    refine modify id' _ fun sub sub' changed => ?_
    obtain ⟨-, changed⟩ := then_eq_ok.mp changed
    cases changed
    rfl
  | pause now id' =>
    refine modify id' _ fun sub sub' changed => ?_
    cases changed
    exact (setStatus_keeps now .paused sub).1
  | resume now id' =>
    refine modify id' _ fun sub sub' changed => ?_
    cases changed
    exact (setStatus_keeps now .active sub).1
  | cancel id' =>
    unfold step cancelSubscription
    dsimp only
    split_ifs
    · exact free
    · split
      · exact free
      · rw [delete, lookup_delete]
        unfold removeFromIndexes
        split_ifs
        · rfl
        · split <;> exact free
  | cleanup now order =>
    unfold step cleanupStaleSubscriptions
    split_ifs
    · exact free
    · rw [lookup_deleteAll, free]
      exact ite_self none

/-- What no creation of a run generated is free after it. -/
theorem lookup_exec_eq_none {ops id} (unused : id ∉ ops.filterMap Op.newID) :
    (exec step (new config) ops).subscriptions.lookup id = none := by
  induction ops using reverseRecOn with
  | nil => rfl
  | append_singleton before op ih =>
    rw [filterMap_append, mem_append, not_or] at unused
    rw [exec_snoc]
    refine lookup_step_eq_none (ih unused.1) fun same => unused.2 ?_
    exact mem_filterMap.mpr ⟨op, mem_singleton_self op, same⟩

/-- With fresh ids, the indexes are exact in every state of a run and no operation follows a subscription
that is missing, exactly when every cleanup of the run finds nothing stale. -/
theorem indexes_exact_iff_fits (config : SubscriptionRegistryConfig) (ops : List Op)
    (fresh : (ops.filterMap Op.newID).Nodup) :
    ((∀ before after, ops = before ++ after → (Run.exec step (new config) before).Consistent) ∧
      ∀ p ∈ Run.trace step (new config) ops, p.2 = false) ↔
    ∀ before op after, ops = before ++ op :: after → (Run.exec step (new config) before).Fits op := by
  have free (before : List Op) (op : Op) (after : List Op) (split : ops = before ++ op :: after) (id : Str)
      (generates : op.newID = some id) : (exec step (new config) before).subscriptions.lookup id = none := by
    apply lookup_exec_eq_none
    intro used
    rw [split, filterMap_append, filterMap_cons_some generates] at fresh
    exact (nodup_append.mp fresh).2.2 id used id mem_cons_self rfl
  constructor
  · rintro ⟨all, -⟩ before op after split
    have here := all before _ split
    rw [← (here.step_iff op (free before op after split)).1, ← exec_snoc]
    refine all _ after ?_
    rw [split, append_assoc]
    rfl
  · intro fits
    have all : ∀ before after, ops = before ++ after → (exec step (new config) before).Consistent := by
      apply run_inv (consistent_new config)
      intro before op after split here
      exact ((here.step_iff op (free before op after split)).1).mpr (fits before op after split)
    refine ⟨all, fun p mem => ?_⟩
    obtain ⟨before, after, split, out⟩ := mem_trace mem
    rw [out]
    exact ((all before _ split).step_iff p.1 (free before p.1 after split)).2

/-- One agent asks for the notifications of a channel. -/
def notesRequest : CreateRequest where
  webID := "https://pod/me"
  token := []
  clientID := "app"
  channelID := "notes"
  filter := ⟨[], [], [], [], [], [], []⟩
  endpoint := []
  protocol := "websocket"
  priority := 0
  metadata := none

/-- The agent subscribes, stays away until a cleanup, and subscribes again. -/
def awayRun (hours : Int) : List Op :=
  [.create { now := .zero, newID := "sub-1" } notesRequest, .cleanup (Time.zero.add (hours * hour)) default,
    .create { now := Time.zero.add (26 * hour), newID := "sub-2" } notesRequest]

theorem indexes_exact_iff_fits_away : ((awayRun 23).filterMap Op.newID).Nodup ∧
    (∀ before after, awayRun 23 = before ++ after →
      (Run.exec step (new defaultSubscriptionRegistryConfig) before).Consistent) ∧
    ∀ p ∈ Run.trace step (new defaultSubscriptionRegistryConfig) (awayRun 23), p.2 = false := by
  have young : ∀ p ∈ (exec step (new defaultSubscriptionRegistryConfig) ((awayRun 23).take 1)).subscriptions.entries.pairs,
      stale ((Time.zero.add (23 * hour)).add (-defaultSubscriptionRegistryConfig.maxSubscriptionAge)) p.2 = false := by
    decide +kernel
  refine ⟨by decide, (indexes_exact_iff_fits _ (awayRun 23) (by decide)).mpr ?_⟩
  refine (along_iff (P := Fits)).mp ⟨trivial, .inr ?_, trivial, trivial⟩
  exact fun id sub found => young (id, sub) (GoMap.mem_pairs.mpr found)

/-- After more than a day the cleanup leaves the id in the index, and the second subscription follows it to
nothing. -/
theorem away_dereferences_missing : ((awayRun 25).filterMap Op.newID).Nodup ∧
    ¬ (Run.exec step (new defaultSubscriptionRegistryConfig) ((awayRun 25).take 2)).Consistent ∧
    ((Run.trace step (new defaultSubscriptionRegistryConfig) (awayRun 25)).map Prod.snd) = [false, false, true] := by
  refine ⟨by decide, fun consistent => ?_, by decide +kernel⟩
  have listed : str "sub-1" ∈ under (exec step (new defaultSubscriptionRegistryConfig)
      ((awayRun 25).take 2)).subscriptionsByWebID "https://pod/me" := by decide +kernel
  obtain ⟨sub, stored, -⟩ := ((consistent.byWebID _).2 _).mp listed
  have gone : ((exec step (new defaultSubscriptionRegistryConfig)
      ((awayRun 25).take 2)).subscriptions.lookup (str "sub-1")).isNone = true := by decide +kernel
  rw [stored] at gone
  cases gone

end SubscriptionRegistry

end Runtime
