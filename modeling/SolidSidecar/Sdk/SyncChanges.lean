import SolidSidecar.Run.Machine
import SolidSidecar.Sdk.SyncClient

/-!
# Pending changes under concurrent calls

A call works on a copy of the pending changes and clears the list of the client when the server has
accepted the copy. A change that is queued in between is in the list and not in the copy, and is
cleared with the rest. Where no change is queued for a resource while a call holds a copy for it, no
change is lost (`kept_of_undisturbed`).
-/

namespace Sdk
open Go List GoMap SyncStore SyncConfig Sdk.Task Thread Run

structure SyncSystem where
  store : SyncStore := {}
  threads : List Thread := []

inductive SyncEvent where
  | addChanges (uri : Str) (triples : List RDFTriple)
  | removeChange (uri : Str) (triple : RDFTriple)
  | discardChanges (uri : Str)
  | trackResource (uri : Str)
  | untrackResource (uri : Str)
  | reset
  /-- A call of `Sync`, `SyncBatch`, `SyncAll` or `FullSync` begins. -/
  | call (jobs : List Job)
  /-- A call in flight makes a step, with the answer if it is an exchange. -/
  | step (thread : Nat) (answer : Answer)

def SyncEvent.removes (uri : Str) (triple : RDFTriple) : SyncEvent → Bool
  | .removeChange uri' triple' => uri' = uri && SyncStore.sameChange triple triple'
  | .discardChanges uri' | .untrackResource uri' => uri' = uri
  | .reset => true
  | _ => false

/-- An event, with what the server has accepted in it. -/
def SyncSystem.step (cfg : SyncConfig) (s : SyncSystem) : SyncEvent → SyncSystem × Option (Str × List RDFTriple)
  | .addChanges uri triples => ({ s with store := s.store.addChanges uri triples }, none)
  | .removeChange uri triple => ({ s with store := s.store.removeChange uri triple }, none)
  | .discardChanges uri => ({ s with store := s.store.discardChanges uri }, none)
  | .trackResource uri => ({ s with store := s.store.trackResource uri }, none)
  | .untrackResource uri => ({ s with store := s.store.untrackResource uri }, none)
  | .reset => ({ s with store := s.store.reset }, none)
  | .call jobs => ({ s with threads := s.threads ++ [⟨none, jobs⟩] }, none)
  | .step i answer =>
    match s.threads[i]? with
    | none => (s, none)
    | some thread =>
      let (store, thread, accepted) := thread.step cfg s.store answer
      (⟨store, s.threads.set i thread⟩, accepted)

namespace SyncStore

variable {s : SyncStore} {uri : Str}

@[simp] theorem pending_modify (ref : Ref) (f : SyncState → SyncState) (uri : Str) :
    (s.modify ref f).pending uri = s.pending uri := rfl

@[simp] theorem pending_getSyncState (uri uri' : Str) : (s.getSyncState uri).1.pending uri' = s.pending uri' := by
  unfold getSyncState
  split <;> rfl

variable (uri : Str)

@[simp] theorem pending_updateSyncState (ref : Ref) (uri' : Str) :
    (s.updateSyncState uri ref).pending uri' = s.pending uri' := rfl

@[simp] theorem pending_store (state : SyncState) (uri' : Str) :
    (s.store uri state).pending uri' = s.pending uri' := rfl

@[simp] theorem pending_modifyStored (f : SyncState → SyncState) (uri' : Str) :
    (s.modifyStored uri f).pending uri' = s.pending uri' := by
  unfold modifyStored
  split <;> rfl

theorem pending_clearPendingChanges (uri uri' : Str) :
    (s.clearPendingChanges uri).pending uri' = if uri' = uri then [] else s.pending uri' := by
  simp only [pending, clearPendingChanges, lookup_erase_eq]
  split_ifs <;> rfl

theorem pending_insert (triples : List RDFTriple) (uri' : Str) :
    ({ s with pendingChanges := s.pendingChanges.insert uri triples } : SyncStore).pending uri' =
      if uri' = uri then triples else s.pending uri' := by
  simp only [pending, lookup_insert_eq]
  split_ifs <;> rfl

theorem pending_addChanges (triples : List RDFTriple) (uri' : Str) : (s.addChanges uri triples).pending uri' =
      if uri' = uri then s.pending uri ++ triples else s.pending uri' := by
  rw [← pending_insert]
  simp only [addChanges]
  split <;> rfl

theorem pending_removeChange (triple : RDFTriple) (uri' : Str) : (s.removeChange uri triple).pending uri' =
      if uri' = uri then (s.pending uri).filter (fun change => !sameChange change triple)
      else s.pending uri' := by
  unfold removeChange
  cases found : s.pendingChanges.lookup uri with
  | none =>
    have empty : s.pending uri = [] := by rw [pending, found]; rfl
    split_ifs with here
    · rw [here, empty]
      rfl
    · rfl
  | some changes =>
    have here : s.pending uri = changes := by rw [pending, found]; rfl
    rw [here, ← pending_insert]
    simp only
    split_ifs
    · exact pending_modifyStored _ _ _
    · rfl

theorem pending_discardChanges (uri uri' : Str) :
    (s.discardChanges uri).pending uri' = if uri' = uri then [] else s.pending uri' := by
  rw [discardChanges, pending_modifyStored, pending_clearPendingChanges]

@[simp] theorem pending_trackResource (uri uri' : Str) : (s.trackResource uri).pending uri' = s.pending uri' := by
  unfold trackResource
  split <;> rfl

theorem pending_untrackResource (uri uri' : Str) :
    (s.untrackResource uri).pending uri' = if uri' = uri then [] else s.pending uri' := by
  simp only [pending, untrackResource, lookup_erase_eq]
  split_ifs <;> rfl

end SyncStore

/-- The copy of the pending changes that a call works on, with the resource. -/
def Task.copy : Task → Option (Str × List RDFTriple)
  | .pushState uri pending | .head uri _ pending | .create uri pending | .put uri _ _ pending
  | .mergeGet uri _ _ pending | .mergePut uri _ _ _ pending | .mergeHead uri _ pending
  | .update uri _ (some pending) | .clear uri pending _ => some (uri, pending)
  | _ => none

/-- The copy of a call that the server has accepted, and that is about to be cleared. -/
def Task.written : Task → Option (Str × List RDFTriple)
  | .mergeHead uri _ pending | .update uri _ (some pending) | .clear uri pending _ => some (uri, pending)
  | _ => none

variable {task : Task}

theorem Task.copy_of_written {p} (has : task.written = some p) : task.copy = some p := by
  cases task with
  | mergeHead | clear => exact has
  | update uri ref pending =>
    cases pending <;> exact has
  | _ => cases has

/-- A call goes on from `task` with `next`: the copy is that of `task` or has just been taken, and it
counts as written only if it did before or the server has just accepted a body that holds it. -/
structure Task.Follows (s : SyncStore) (accepted : Option (Str × List RDFTriple)) (task next : Task) :
    Prop where
  copy {uri : Str} {pending : List RDFTriple} : next.copy = some (uri, pending) →
    task.copy = some (uri, pending) ∨ task.copy = none ∧ pending = s.pending uri
  written {uri : Str} {pending : List RDFTriple} : next.written = some (uri, pending) →
    task.written = some (uri, pending) ∨ ∃ body, accepted = some (uri, body) ∧ pending ⊆ body

namespace Task

variable {s : SyncStore} {accepted : Option (Str × List RDFTriple)} {task next : Task}

theorem Follows.of_none (copy : next.copy = none) (written : next.written = none) :
    Follows s accepted task next where
  copy has := by rw [copy] at has; cases has
  written has := by rw [written] at has; cases has

/-- The next task keeps the copy, and nothing has been written. -/
theorem Follows.of_copy (copy : next.copy = task.copy) (written : next.written = none) :
    Follows s accepted task next where
  copy has := .inl (copy ▸ has)
  written has := by rw [written] at has; cases has

/-- The next task keeps the copy, which is as much written as it was. -/
theorem Follows.of_same (copy : next.copy = task.copy) (written : next.written = task.written) :
    Follows s accepted task next where
  copy has := .inl (copy ▸ has)
  written has := .inl (written ▸ has)

variable {uri : Str}

theorem Follows.of_taken (free : task.copy = none)
    (copy : next.copy = some (uri, s.pending uri)) (written : next.written = none) :
    Follows s accepted task next where
  copy has := by
    rw [copy] at has
    cases has
    exact .inr ⟨free, rfl⟩
  written has := by rw [written] at has; cases has

theorem Follows.of_accepted {pending body}
    (copy : next.copy = task.copy) (written : next.written = some (uri, pending))
    (held : pending ⊆ body) : Follows s (some (uri, body)) task next where
  copy has := .inl (copy ▸ has)
  written has := by
    rw [written] at has
    cases has
    exact .inr ⟨body, rfl, held⟩

end Task

namespace SyncConfig

variable {cfg : SyncConfig} {s : SyncStore} {uri : Str} {ref : Ref} {etag : Str} {pending : List RDFTriple}

@[simp] theorem pending_handleConflict (uri' : Str) :
    (cfg.handleConflict s uri ref etag pending).1.pending uri' = s.pending uri' := by
  unfold handleConflict
  split <;> rfl

variable {accepted : Option (Str × List RDFTriple)} {task next : Task}

theorem follows_applyPendingChanges (copy : task.copy = some (uri, pending))
    (goes : cfg.applyPendingChanges uri ref etag pending = some next) :
    Follows s accepted task next := by
  unfold applyPendingChanges at goes
  split_ifs at goes
  cases goes
  exact .of_copy copy.symm rfl

theorem follows_handleConflict (copy : task.copy = some (uri, pending))
    (goes : (cfg.handleConflict s uri ref etag pending).2 = some next) :
    Follows s accepted task next := by
  unfold handleConflict at goes
  split at goes
  case h_4 => exact follows_applyPendingChanges copy goes
  case h_5 =>
    cases goes
    exact .of_copy copy.symm rfl
  all_goals
    cases goes
    exact .of_none rfl rfl

end SyncConfig

/-- What a step does to the pending changes: nothing, or it clears those of one resource, for which the
copy of the call has been accepted. -/
theorem Task.step_pending (cfg : SyncConfig) (s : SyncStore) (answer : Answer) (task : Task) (uri : Str) :
    (task.step cfg s answer).1.pending uri = s.pending uri ∨
      (task.step cfg s answer).1.pending uri = [] ∧ ∃ pending, task.written = some (uri, pending) := by
  cases task with
  | clear uri' pending created =>
    rw [step, pending_clearPendingChanges]
    split_ifs with here
    · exact .inr ⟨rfl, pending, by rw [here]; rfl⟩
    · exact .inl rfl
  | _ =>
    cases answer <;> simp only [step] <;> (try split_ifs) <;> (try split) <;> simp

theorem Task.step_follows {cfg s answer next} (goes : (task.step cfg s answer).2.1 = some next) :
    Follows s (task.step cfg s answer).2.2 task next := by
  cases task with
  | sync | fullPull | existing | serverWins =>
    cases answer <;> cases goes <;> exact .of_none rfl rfl
  | snapshot uri ref =>
    simp only [step, Option.some.injEq] at goes
    subst goes
    split_ifs
    · exact .of_none rfl rfl
    · exact .of_taken rfl rfl rfl
  | fullPush uri =>
    simp only [step] at goes
    split_ifs at goes
    cases goes
    exact .of_taken rfl rfl rfl
  | pushState uri pending =>
    cases goes
    exact .of_copy rfl rfl
  | pullOnly uri ref =>
    simp only [step] at goes
    split at goes <;> try split_ifs at goes
    all_goals cases goes
    all_goals exact .of_none rfl rfl
  | head uri ref pending =>
    cases answer with
    | failed | «exists» | preconditionFailed => cases goes
    | notFound =>
      simp only [step] at goes
      split_ifs at goes
      cases goes
      exact .of_copy rfl rfl
    | ok etag triples =>
      simp only [step] at goes
      split_ifs at goes
      · exact follows_handleConflict rfl goes
      · exact follows_applyPendingChanges rfl goes
  | create uri pending =>
    cases answer <;> cases goes
    · exact .of_none rfl rfl
    · exact .of_accepted rfl rfl (Subset.refl pending)
  | put uri ref etag pending =>
    cases answer with
    | failed | notFound | «exists» => cases goes
    | preconditionFailed current => exact follows_handleConflict rfl goes
    | ok =>
      cases goes
      exact .of_accepted rfl rfl (Subset.refl pending)
  | mergeGet uri ref etag pending =>
    simp only [step] at goes
    split at goes <;> try cases goes
    split_ifs at goes
    split at goes
    · exact follows_applyPendingChanges rfl goes
    · split_ifs at goes
      cases goes
      exact .of_copy rfl rfl
  | mergePut uri ref etag server pending =>
    cases answer <;> cases goes
    exact .of_accepted rfl rfl (subset_append_right server pending)
  | mergeHead uri ref pending =>
    cases answer <;> cases goes <;> exact .of_same rfl rfl
  | update uri ref written =>
    cases written <;> cases goes
    exact .of_same rfl rfl
  | clear uri pending created =>
    cases created <;> cases goes
    exact .of_none rfl rfl
  | updateNew => cases goes

namespace Thread

def copy (thread : Thread) : Option (Str × List RDFTriple) := thread.task.bind Task.copy

def written (thread : Thread) : Option (Str × List RDFTriple) := thread.task.bind Task.written

theorem copy_of_written {thread : Thread} {p} (has : thread.written = some p) : thread.copy = some p := by
  obtain ⟨task, running, written⟩ := Option.bind_eq_some_iff.mp has
  exact Option.bind_eq_some_iff.mpr ⟨task, running, Task.copy_of_written written⟩

variable {cfg : SyncConfig} {s : SyncStore} {answer : Answer} {thread : Thread} {uri : Str}

theorem step_pending (uri : Str) : (thread.step cfg s answer).1.pending uri = s.pending uri ∨
      (thread.step cfg s answer).1.pending uri = [] ∧ ∃ pending, thread.written = some (uri, pending) := by
  unfold step
  split
  case h_1 task running =>
    rw [written, running]
    exact task.step_pending cfg s answer uri
  case h_2 =>
    left
    split <;> rfl

variable {pending : List RDFTriple}

theorem step_copy (has : (thread.step cfg s answer).2.1.copy = some (uri, pending)) :
    thread.copy = some (uri, pending) ∨ thread.copy = none ∧ pending = s.pending uri := by
  unfold step at has
  split at has
  case h_1 task running =>
    obtain ⟨_, goes, nextCopy⟩ := Option.bind_eq_some_iff.mp has
    rw [copy, running]
    exact (step_follows goes).copy nextCopy
  case h_2 =>
    split at has
    · exact .inl has
    all_goals cases has

theorem step_written (has : (thread.step cfg s answer).2.1.written = some (uri, pending)) :
    thread.written = some (uri, pending) ∨
      ∃ body, (thread.step cfg s answer).2.2 = some (uri, body) ∧ pending ⊆ body := by
  unfold step at has ⊢
  split at has
  case h_1 task running =>
    obtain ⟨_, goes, nextWritten⟩ := Option.bind_eq_some_iff.mp has
    rw [written, running]
    exact (step_follows goes).written nextWritten
  case h_2 =>
    split at has
    · exact .inl has
    all_goals cases has

end Thread

/-- The event makes a call for the resource resolve a conflict. -/
def SyncSystem.resolves (s : SyncSystem) (uri : Str) : SyncEvent → Bool
  | .step i answer =>
    match s.threads[i]?.bind Thread.task, answer with
    | some (.head uri' ref _), .ok etag _ =>
      uri' = uri && (s.store.stateOf ref).serverETag ≠ [] && (s.store.stateOf ref).serverETag ≠ etag
    | some (.put uri' _ _ _), .preconditionFailed _ => uri' = uri
    | _, _ => false
  | _ => false

/-- No call in flight works on a copy of the changes of a resource when a change is queued for it. -/
def SyncSystem.Undisturbed (s : SyncSystem) : SyncEvent → Prop
  | .addChanges uri _ => ∀ thread ∈ s.threads, thread.copy.all (·.1 ≠ uri)
  | _ => True

instance (s : SyncSystem) : ∀ e, Decidable (s.Undisturbed e)
  | .addChanges _ _ => inferInstanceAs (Decidable (∀ _ ∈ _, _))
  | .removeChange _ _ | .discardChanges _ | .trackResource _ | .untrackResource _ | .reset | .call _
  | .step _ _ => inferInstanceAs (Decidable True)

theorem SyncSystem.Undisturbed.copy_ne {s : SyncSystem} {uri triples}
    (quiet : s.Undisturbed (.addChanges uri triples)) :
    ∀ thread ∈ s.threads, ∀ pending, thread.copy ≠ some (uri, pending) := by
  intro thread inFlight pending copy
  have other := quiet thread inFlight
  rw [copy] at other
  simp at other

section Runs

variable (cfg : SyncConfig)

/-- The server has accepted a body with the triple in a step of the trace. -/
def Sent (uri : Str) (triple : RDFTriple) (trace : List (SyncEvent × Option (Str × List RDFTriple))) : Prop :=
  ∃ p ∈ trace, ∃ body, p.2 = some (uri, body) ∧ triple ∈ body

/-- No queued triple is lost: from the event that queues it to any later state of the run, it is
pending, or the server has accepted it, or a conflict has been resolved, or it has been removed. -/
def Kept (events : List SyncEvent) : Prop :=
  ∀ before uri triples after rest, events = before ++ .addChanges uri triples :: (after ++ rest) →
    let queued := Run.exec (SyncSystem.step cfg) {} (before ++ [.addChanges uri triples])
    ∀ triple ∈ triples, triple ∈ (Run.exec (SyncSystem.step cfg) queued after).store.pending uri ∨
      Sent uri triple (Run.trace (SyncSystem.step cfg) queued after) ∨
      (∃ early e late, after = early ++ e :: late ∧ (Run.exec (SyncSystem.step cfg) queued early).resolves uri e) ∨
      ∃ e ∈ after, e.removes uri triple

/-- What holds from the event that queues a triple on: it is not lost, it is in each copy as long as it
is pending, and a copy that is about to be cleared with it has been accepted. -/
structure Held (uri : Str) (triple : RDFTriple)
    (history : List (SyncEvent × Option (Str × List RDFTriple))) (s : SyncSystem) : Prop where
  kept : triple ∈ s.store.pending uri ∨ Sent uri triple history ∨ ∃ p ∈ history, p.1.removes uri triple
  copies : ∀ thread ∈ s.threads, ∀ pending, thread.copy = some (uri, pending) →
    triple ∈ s.store.pending uri → triple ∈ pending
  accepted : ∀ thread ∈ s.threads, ∀ pending, thread.written = some (uri, pending) →
    triple ∈ pending → Sent uri triple history

variable {cfg : SyncConfig} {uri : Str} {triple : RDFTriple}
  {history : List (SyncEvent × Option (Str × List RDFTriple))} {s : SyncSystem}

theorem Sent.snoc (sent : Sent uri triple history) (p : SyncEvent × Option (Str × List RDFTriple)) :
    Sent uri triple (history ++ [p]) := by
  obtain ⟨q, earlier, found⟩ := sent
  exact ⟨q, mem_append_left _ earlier, found⟩

theorem Held.snoc (held : Held uri triple history s) (p : SyncEvent × Option (Str × List RDFTriple)) :
    Held uri triple (history ++ [p]) s := by
  refine ⟨?_, held.copies, fun thread inFlight pending written present =>
    (held.accepted thread inFlight pending written present).snoc p⟩
  obtain pending | sent | ⟨q, earlier, removed⟩ := held.kept
  · exact .inl pending
  · exact .inr (.inl (sent.snoc p))
  · exact .inr (.inr ⟨q, mem_append_left _ earlier, removed⟩)

variable {e : SyncEvent} {store : SyncStore}

section

variable (held : Held uri triple history s)

include held

/-- An event under the lock that does not touch the calls. -/
theorem Held.of_store (step : s.step cfg e = ({ s with store }, none))
    (lost : triple ∈ s.store.pending uri → triple ∈ store.pending uri ∨ e.removes uri triple)
    (grown : triple ∈ store.pending uri → triple ∈ s.store.pending uri ∨
      ∀ thread ∈ s.threads, ∀ pending, thread.copy ≠ some (uri, pending)) :
    Held uri triple (history ++ [(e, (s.step cfg e).2)]) (s.step cfg e).1 := by
  rw [step]
  have later := held.snoc (e, none)
  refine ⟨?_, fun thread inFlight pending copy still => ?_, later.accepted⟩
  · obtain pending | settled := later.kept
    · obtain still | removed := lost pending
      · exact .inl still
      · exact .inr (.inr ⟨_, mem_append_right _ (mem_singleton_self _), removed⟩)
    · exact .inr settled
  · obtain already | free := grown still
    · exact held.copies thread inFlight pending copy already
    · exact absurd copy (free thread inFlight pending)

/-- An event under the lock that takes changes away. -/
theorem Held.of_filter (step : s.step cfg e = ({ s with store }, none))
    (fewer : store.pending uri = (s.store.pending uri).filter fun change => !e.removes uri change) :
    Held uri triple (history ++ [(e, (s.step cfg e).2)]) (s.step cfg e).1 := by
  refine held.of_store step (fun pending => ?_) (fun pending => .inl ?_)
  · rw [fewer]
    cases removed : e.removes uri triple with
    | true => exact .inr rfl
    | false => exact .inl (mem_filter.mpr ⟨pending, by simp [removed]⟩)
  · rw [fewer] at pending
    exact mem_of_mem_filter pending

theorem Held.of_call (jobs : List Job) :
    Held uri triple (history ++ [(.call jobs, (s.step cfg (.call jobs)).2)]) (s.step cfg (.call jobs)).1 := by
  have later := held.snoc (.call jobs, none)
  refine ⟨later.kept, fun thread inFlight => ?_, fun thread inFlight => ?_⟩
  all_goals obtain there | rfl := mem_append.mp inFlight |>.imp_right mem_singleton.mp
  · exact later.copies thread there
  · intro pending copy
    cases copy
  · exact later.accepted thread there
  · intro pending written
    cases written

/-- A step of a call. Where it clears the list, the copy has been accepted, and the triple is in it. -/
theorem Held.of_step {thread i answer} (here : s.threads[i]? = some thread) :
    Held uri triple (history ++ [(.step i answer, (s.step cfg (.step i answer)).2)])
      (s.step cfg (.step i answer)).1 := by
  have inFlight : thread ∈ s.threads := mem_of_getElem? here
  simp only [SyncSystem.step, here]
  have fewer (still : triple ∈ (thread.step cfg s.store answer).1.pending uri) : triple ∈ s.store.pending uri := by
    obtain same | ⟨cleared, -⟩ := thread.step_pending uri
    · rwa [same] at still
    · rw [cleared] at still
      cases still
  have later := held.snoc (.step i answer, (thread.step cfg s.store answer).2.2)
  refine ⟨?_, fun other mem pending copy still => ?_, fun other mem pending written present => ?_⟩
  · obtain pending | settled := later.kept
    · obtain same | ⟨-, copy, written⟩ := @Thread.step_pending cfg s.store answer thread uri
      · exact .inl (same ▸ pending)
      · have within := held.copies thread inFlight copy (Thread.copy_of_written written) pending
        exact .inr (.inl (later.accepted thread inFlight copy written within))
    · exact .inr settled
  · obtain there | rfl := mem_or_eq_of_mem_set mem
    · exact held.copies other there pending copy (fewer still)
    · obtain had | ⟨-, taken⟩ := step_copy copy
      · exact held.copies thread inFlight pending had (fewer still)
      · exact taken ▸ fewer still
  · obtain there | rfl := mem_or_eq_of_mem_set mem
    · exact later.accepted other there pending written present
    · obtain had | ⟨body, now, sub⟩ := step_written written
      · exact later.accepted thread inFlight pending had present
      · exact ⟨_, mem_append_right _ (mem_singleton_self _), body, now, sub present⟩

theorem Held.step (quiet : s.Undisturbed e) :
    Held uri triple (history ++ [(e, (s.step cfg e).2)]) (s.step cfg e).1 := by
  cases e with
  | addChanges uri' triples =>
    refine held.of_store rfl (fun pending => ?_) (fun pending => ?_)
    all_goals rw [pending_addChanges] at *
    · left
      split_ifs with here
      · exact mem_append_left _ (here ▸ pending)
      · exact pending
    · split_ifs at pending with here
      · exact .inr (here ▸ quiet.copy_ne)
      · exact .inl pending
  | removeChange | discardChanges | untrackResource =>
    refine held.of_filter rfl ?_
    simp only [pending_removeChange, pending_discardChanges, pending_untrackResource]
    split_ifs with here
    · simp [SyncEvent.removes, here]
    · simp [SyncEvent.removes, Ne.symm here]
  | reset =>
    refine held.of_filter rfl ?_
    simp only [SyncEvent.removes, Bool.not_true, filter_false]
    rfl
  | trackResource uri' =>
    refine held.of_filter rfl ?_
    simp [SyncEvent.removes]
  | call jobs => exact held.of_call jobs
  | step i answer =>
    cases here : s.threads[i]? with
    | some thread => exact held.of_step here
    | none =>
      have idle : s.step cfg (.step i answer) = ({ s with store := s.store }, none) := by
        simp [SyncSystem.step, here]
      exact held.of_store idle .inl .inl

end

/-- The triple has just been queued, and no call works on a copy. -/
theorem Held.of_queued {triples} (quiet : s.Undisturbed (.addChanges uri triples))
    (queued : triple ∈ triples) : Held uri triple [] (s.step cfg (.addChanges uri triples)).1 := by
  refine ⟨.inl ?_, fun thread inFlight pending copy => ?_, fun thread inFlight pending written => ?_⟩
  · simp only [SyncSystem.step]
    rw [pending_addChanges, if_pos rfl]
    exact mem_append_right _ queued
  · exact absurd copy (quiet.copy_ne thread inFlight pending)
  · exact absurd (Thread.copy_of_written written) (quiet.copy_ne thread inFlight pending)

/-- Where no change is queued for a resource while a call works on a copy of its changes, no change is
lost. -/
theorem kept_of_undisturbed (cfg : SyncConfig) (events : List SyncEvent)
    (quiet : ∀ before e after, events = before ++ e :: after →
      (Run.exec (SyncSystem.step cfg) {} before).Undisturbed e) :
    Kept cfg events := by
  intro before uri triples after rest split queued triple mem
  have start : Held uri triple [] queued := by
    have here := quiet before _ _ split
    rw [show queued = _ from exec_snoc _ _]
    exact .of_queued here mem
  have held : ∀ early late, after = early ++ late → Held uri triple (trace (SyncSystem.step cfg) queued early)
        (exec (SyncSystem.step cfg) queued early) := by
    refine history_inv start fun early e late parts held => ?_
    refine held.step ?_
    have here := quiet (before ++ .addChanges uri triples :: early) e (late ++ rest) (by rw [split, parts]; simp)
    have reached : exec (SyncSystem.step cfg) {} (before ++ .addChanges uri triples :: early) =
        exec (SyncSystem.step cfg) queued early := by
      rw [← exec_append, append_assoc]
      rfl
    rwa [reached] at here
  obtain pending | sent | ⟨p, found, removed⟩ := (held after [] (append_nil _).symm).kept
  · exact .inl pending
  · exact .inr (.inl sent)
  · obtain ⟨early, late, parts, -⟩ := mem_trace found
    refine .inr (.inr (.inr ⟨p.1, ?_, removed⟩))
    rw [parts]
    exact mem_append_right _ mem_cons_self

def sampleChange (object : String) : RDFTriple :=
  { subject := "/a", predicate := "says", object := str object }

/-- `Sync` from the start of the call to its `Put`, which finds the resource. -/
def syncToPut : List SyncEvent :=
  [.call [.sync "/a"], .step 0 .failed, .step 0 .failed, .step 0 .failed, .step 0 (.ok "1" none)]

/-- The rest of the call: the server accepts, the state is stored and the list is cleared. -/
def syncFromPut : List SyncEvent := [.step 0 (.ok "2" none), .step 0 .failed, .step 0 .failed]

theorem kept_of_undisturbed_sync : Kept {} (.addChanges (str "/a") [sampleChange "one"] :: syncToPut ++ syncFromPut ++
      [.addChanges (str "/a") [sampleChange "two"]]) := by
  refine kept_of_undisturbed {} _ (Run.along_iff.mp ?_)
  decide +kernel

/-- The state in which a second change has been queued before the `Put` of a call. -/
def disturbed : SyncSystem :=
  Run.exec (SyncSystem.step {}) {} (.addChanges "/a" [sampleChange "one"] :: syncToPut ++
    [.addChanges "/a" [sampleChange "two"]])

/-- A change that is queued between the copy and the acceptance of `Put`: the list is cleared with the
change in it. There was no conflict, and no body that was ever accepted has the change. -/
theorem change_lost : ¬ Kept {} (.addChanges (str "/a") [sampleChange "one"] :: syncToPut ++
      .addChanges (str "/a") [sampleChange "two"] :: syncFromPut) ∧
    ∀ p ∈ Run.trace (SyncSystem.step {}) {} (.addChanges (str "/a") [sampleChange "one"] :: syncToPut ++
      .addChanges (str "/a") [sampleChange "two"] :: syncFromPut),
      ∀ accepted ∈ p.2, sampleChange "two" ∉ accepted.2 := by
  refine ⟨fun kept => ?_, by decide +kernel⟩
  obtain pending | ⟨p, found, _, accepted, present⟩ | ⟨early, e, late, split, conflict⟩ | ⟨e, found, _⟩ :=
    kept _ "/a" [sampleChange "two"] syncFromPut [] rfl _ (mem_singleton_self _)
  · revert pending
    decide +kernel
  · have unsent : ∀ p ∈ trace (SyncSystem.step {}) disturbed syncFromPut,
        ∀ accepted ∈ p.2, sampleChange "two" ∉ accepted.2 := by decide +kernel
    exact unsent p found _ accepted present
  · have calm : Along (SyncSystem.step {}) (fun s e => ¬ s.resolves "/a" e) disturbed
        syncFromPut := by decide +kernel
    exact Run.along_iff.mp calm early e late split conflict
  · revert e
    decide +kernel

end Runs

end Sdk
