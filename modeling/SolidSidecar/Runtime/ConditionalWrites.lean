import SolidSidecar.Runtime.Storage

/-!
# Conditional writes and lost updates

Whoever writes with If-Match and the validator of what they have read is to fail once the body has
changed. A validator is computed from the body, or taken as the caller gives it; in a
read-modify-write cycle that is the validator of the body that was read. `ValidatorsTell` says that the
callers of a run do not give one validator to two bodies.
-/

namespace Runtime
open Go List Run

inductive StorageOp where
  | get (uri : Str)
  | put (now : Time) (uri : Str) (resource : StorageResource)
  | putConditional (now : Time) (uri : Str) (resource : StorageResource) (p : StoragePreconditions)
  | delete (uri : Str)
  | deleteConditional (uri : Str) (p : StoragePreconditions)

namespace StorageOp

variable (sha256 : Str → Str)

def run (m : InMemoryStorageBackend) :
    StorageOp → InMemoryStorageBackend × Except StorageError (Option StorageResource)
  | .get uri => (m, (m.get uri).map some)
  | .put now uri r => ((m.put now uri r).1, (m.put now uri r).2.map fun _ => none)
  | .putConditional now uri r p =>
    ((m.putConditional sha256 now uri r p).1, (m.putConditional sha256 now uri r p).2.map fun _ => none)
  | .delete uri => ((m.delete uri).1, (m.delete uri).2.map fun _ => none)
  | .deleteConditional uri p =>
    ((m.deleteConditional uri p).1, (m.deleteConditional uri p).2.map fun _ => none)

def writes : StorageOp → Option (Str × StorageResource)
  | .put _ uri r => some (uri, r)
  | .putConditional _ uri r _ => some (uri, r)
  | _ => none

def validator : StorageOp → Str
  | .put _ _ r => r.currentETag
  | .putConditional _ _ r _ =>
    if r.etag = [] then InMemoryStorageBackend.strongStorageETag sha256 r.body else r.etag
  | _ => []

def givesValidator : StorageOp → Bool
  | .put _ _ _ => true
  | .putConditional _ _ r _ => r.etag ≠ []
  | _ => false

/-- The operation is made on `uri` only if its validator is `e`. -/
def guardedBy (uri e : Str) : StorageOp → Prop
  | .putConditional _ uri' _ p => uri' = uri ∧ p.ifMatch = [e]
  | .deleteConditional uri' p => uri' = uri ∧ p.ifMatch = [e]
  | _ => False

end StorageOp

/-- A write that succeeded: the step stores the body under the URI. -/
def Stores (uri body : Str) (step : StorageOp × Except StorageError (Option StorageResource)) : Prop :=
  (∃ result, step.2 = .ok result) ∧ ∃ r, step.1.writes = some (uri, r) ∧ r.body = body

namespace InMemoryStorageBackend

variable (sha256 : Str → Str)

def after (ops : List StorageOp) : InMemoryStorageBackend := Run.exec (StorageOp.run sha256) {} ops

/-- Once `PutConditional` with If-Match `e` has replaced a body by another, whoever comes with If-Match
`e` fails, unless a write between the two has restored the first body. -/
def NoLostUpdate (ops : List StorageOp) : Prop :=
  ∀ before now uri r p between op rest e old, ops = before ++ .putConditional now uri r p :: (between ++ op :: rest) →
    p.ifMatch = [e] → (after sha256 before).data.lookup uri = some old → r.body ≠ old.body →
    ((after sha256 before).putConditional sha256 now uri r p).2 = .ok () →
    op.guardedBy uri e →
    (∀ step ∈ Run.trace (StorageOp.run sha256)
      (after sha256 (before ++ [.putConditional now uri r p])) between, ¬ Stores uri old.body step) →
    ∀ result, (op.run sha256 (after sha256 (before ++ .putConditional now uri r p :: between))).2 ≠ .ok result

/-- No If-Match is the wildcard, and two writes of the run that succeed under one URI with one validator,
which a caller has given to one of them, have one body. -/
structure ValidatorsTell (ops : List StorageOp) : Prop where
  tags : ∀ op ∈ ops, ∀ uri, ¬ op.guardedBy uri "*"
  bodies : ∀ step ∈ Run.trace (StorageOp.run sha256) {} ops, ∀ step' ∈ Run.trace (StorageOp.run sha256) {} ops,
    ∀ uri body body', Stores uri body step → Stores uri body' step' →
      step.1.validator sha256 = step'.1.validator sha256 → step.1.validator sha256 ≠ [] →
      (step.1.givesValidator || step'.1.givesValidator) = true → body = body'

variable {sha256} {m : InMemoryStorageBackend}

theorem strongStorageETag_ne_nil (body : Str) : strongStorageETag sha256 body ≠ [] := by
  have quoted : str "\"sha256-" ≠ [] := by decide +kernel
  exact append_ne_nil_of_left_ne_nil quoted _

theorem strongStorageETag_injective (collisionFree : Function.Injective sha256) :
    Function.Injective (strongStorageETag sha256) := by
  intro body body' same
  have inner := append_cancel_right same
  exact collisionFree (hexEncode_injective (append_cancel_left inner))

/-- What a conditional write stores has the validator that goes with it. -/
theorem conditionalEntry_currentETag (now : Time) (uri : Str) (r : StorageResource)
    (p : StoragePreconditions) (current : Option StorageResource) :
    (StorageOp.putConditional now uri r p).validator sha256 =
      (conditionalEntry sha256 now uri r current).currentETag := by
  have named : (if r.etag = [] then strongStorageETag sha256 r.body else r.etag) ≠ [] := by
    split
    · exact strongStorageETag_ne_nil r.body
    · assumption
  exact (if_pos named).symm

variable {uri e body : Str} {entry : StorageResource} {p : StoragePreconditions}
  {step : StorageOp × Except StorageError (Option StorageResource)}

/-- What a step leaves under a URI was there, or is what the step stores. -/
theorem lookup_run (op : StorageOp) (found : (op.run sha256 m).1.data.lookup uri = some entry) :
    m.data.lookup uri = some entry ∨
      (Stores uri entry.body (op, (op.run sha256 m).2) ∧ op.validator sha256 = entry.currentETag) := by
  cases op with
  | get uri' => exact .inl found
  | put now uri' r =>
    replace found : (m.put now uri' r).1.data.lookup uri = some entry := found
    simp only [StorageOp.run]
    unfold put at found ⊢
    split at found
    · exact .inl found
    · rename_i running
      rw [GoMap.lookup_insert_eq] at found
      split at found
      · rename_i same
        subst same
        obtain rfl := Option.some.inj found
        rw [if_neg running]
        exact .inr ⟨⟨⟨none, rfl⟩, r, rfl, rfl⟩, rfl⟩
      · exact .inl found
  | putConditional now uri' r p =>
    replace found : (m.putConditional sha256 now uri' r p).1.data.lookup uri = some entry := found
    simp only [StorageOp.run]
    unfold putConditional at found ⊢
    split at found
    · exact .inl found
    · rename_i running
      rw [if_neg running]
      cases passed : evaluateStoragePreconditions (currentETag (m.data.lookup uri'))
          (m.data.lookup uri').isSome p with
      | error err =>
        simp only [passed] at found
        exact .inl found
      | ok done =>
        simp only [passed, GoMap.lookup_insert_eq] at found ⊢
        split at found
        · rename_i same
          subst same
          obtain rfl := Option.some.inj found
          exact .inr ⟨⟨⟨none, rfl⟩, r, rfl, rfl⟩, conditionalEntry_currentETag now uri r p _⟩
        · exact .inl found
  | delete uri' =>
    replace found : (m.delete uri').1.data.lookup uri = some entry := found
    unfold delete at found
    split at found
    · exact .inl found
    · exact .inl (GoMap.erase_sub _ _ _ _ found)
  | deleteConditional uri' p =>
    replace found : (m.deleteConditional uri' p).1.data.lookup uri = some entry := found
    unfold deleteConditional at found
    split at found
    · exact .inl found
    · simp only at found
      split at found
      · exact .inl found
      · exact .inl (GoMap.erase_sub _ _ _ _ found)

/-- What a run leaves under a URI was there, or is what one of its steps stored. -/
theorem lookup_exec (ops : List StorageOp)
    (found : (exec (StorageOp.run sha256) m ops).data.lookup uri = some entry) :
    m.data.lookup uri = some entry ∨ ∃ step ∈ trace (StorageOp.run sha256) m ops,
        Stores uri entry.body step ∧ step.1.validator sha256 = entry.currentETag := by
  induction ops generalizing m with
  | nil => exact .inl found
  | cons op rest ih =>
    rcases ih found with kept | ⟨step, mem, stored⟩
    · rcases lookup_run op kept with kept | stored
      · exact .inl kept
      · exact .inr ⟨_, mem_cons_self, stored⟩
    · exact .inr ⟨step, mem_cons_of_mem _ mem, stored⟩

/-- A validator in If-Match lets only the resource pass that has it. -/
theorem match_of_evaluate {current there}
    (passed : evaluateStoragePreconditions current there p = .ok ()) (single : p.ifMatch = [e])
    (tag : e ≠ "*") : there = true ∧ current = e ∧ e ≠ [] := by
  obtain ⟨matched, -⟩ := then_eq_ok.mp passed
  rw [refuse_eq_ok, single] at matched
  by_contra other
  apply matched
  refine ⟨cons_ne_nil _ _, ?_⟩
  cases there with
  | false => rfl
  | true =>
    simp only [etagListMatches, if_neg tag]
    rw [if_neg]
    · rfl
    · intro same
      simp only [true_and, Bool.and_eq_true, decide_eq_true_eq] at same
      exact other ⟨rfl, same.2.symm, same.1⟩

/-- A guarded operation that succeeds has found its validator. -/
theorem found_of_guarded {op : StorageOp} {result}
    (guarded : op.guardedBy uri e) (tag : e ≠ "*") (done : (op.run sha256 m).2 = .ok result) :
    ∃ entry, m.data.lookup uri = some entry ∧ entry.currentETag = e ∧ e ≠ [] := by
  have passed : ∃ p, p.ifMatch = [e] ∧ evaluateStoragePreconditions (currentETag (m.data.lookup uri))
      (m.data.lookup uri).isSome p = .ok () := by
    match op, guarded with
    | .putConditional now _ r p, ⟨rfl, single⟩ =>
      refine ⟨p, single, ?_⟩
      simp only [StorageOp.run, putConditional] at done
      split at done
      · cases done
      · split at done
        · cases done
        · assumption
    | .deleteConditional _ p, ⟨rfl, single⟩ =>
      refine ⟨p, single, ?_⟩
      simp only [StorageOp.run, deleteConditional] at done
      split at done
      · cases done
      · split at done
        · cases done
        · assumption
  obtain ⟨p, single, passed⟩ := passed
  obtain ⟨there, same, named⟩ := match_of_evaluate passed single tag
  obtain ⟨entry, found⟩ := Option.isSome_iff_exists.mp there
  rw [found] at same
  exact ⟨entry, found, same, named⟩

/-- A validator that no caller gave is that of the body. -/
theorem validator_of_computed (stored : Stores uri body step) (computed : step.1.givesValidator = false) :
    step.1.validator sha256 = strongStorageETag sha256 body := by
  obtain ⟨-, r, writes, rfl⟩ := stored
  match step, writes, computed with
  | (.putConditional _ _ _ _, _), rfl, computed =>
    have unset : r.etag = [] := by simpa [StorageOp.givesValidator] using computed
    exact if_pos unset

variable {ops : List StorageOp}

/-- In a run whose callers give each validator to one body, so do all its steps. -/
theorem ValidatorsTell.body_eq (collisionFree : Function.Injective sha256) (tell : ValidatorsTell sha256 ops) {step'}
    (mem : step ∈ trace (StorageOp.run sha256) {} ops)
    (mem' : step' ∈ trace (StorageOp.run sha256) {} ops) {body'}
    (stored : Stores uri body step) (stored' : Stores uri body' step')
    (same : step.1.validator sha256 = step'.1.validator sha256) (named : step.1.validator sha256 ≠ []) :
    body = body' := by
  cases given : step.1.givesValidator || step'.1.givesValidator with
  | true => exact tell.bodies step mem step' mem' uri body body' stored stored' same named given
  | false =>
    obtain ⟨computed, computed'⟩ := Bool.or_eq_false_iff.mp given
    rw [validator_of_computed stored computed, validator_of_computed stored' computed'] at same
    exact strongStorageETag_injective collisionFree same

theorem lookup_putConditional {now r} (done : (m.putConditional sha256 now uri r p).2 = .ok ()) :
    (m.putConditional sha256 now uri r p).1.data.lookup uri =
      some (conditionalEntry sha256 now uri r (m.data.lookup uri)) := by
  unfold putConditional at done ⊢
  split at done
  · cases done
  · rename_i running
    rw [if_neg running]
    simp only at done
    split at done
    · cases done
    · rename_i passed
      simp only [passed]
      exact AList.lookup_insert _

/-- In every run whose callers give each validator to one body, no update is lost. -/
theorem noLostUpdate_of_validatorsTell (sha256 : Str → Str) (collisionFree : Function.Injective sha256)
    {ops : List StorageOp} (tell : ValidatorsTell sha256 ops) : NoLostUpdate sha256 ops := by
  intro before now uri r p between op rest e old split single held changed done guarded restored result succeeded
  have tag : e ≠ "*" := by
    rintro rfl
    exact tell.tags (.putConditional now uri r p) (by simp [split]) uri ⟨rfl, single⟩
  let write := StorageOp.putConditional now uri r p
  have outcome : (write.run sha256 (after sha256 before)).2 = .ok none := by
    show Except.map _ ((after sha256 before).putConditional sha256 now uri r p).2 = _
    rw [done]
    rfl
  have next : after sha256 _ = ((after sha256 before).putConditional sha256 now uri r p).1 := exec_snoc before write
  have whole : trace (StorageOp.run sha256) {} ops = trace (StorageOp.run sha256) {} before ++ (write, .ok none) ::
        (trace (StorageOp.run sha256) (after sha256 (before ++ [write])) between ++ trace (StorageOp.run sha256)
            (exec (StorageOp.run sha256) (after sha256 (before ++ [write])) between) (op :: rest)) := by
    rw [split, trace_append, trace, trace_append, next, ← outcome]
    rfl
  -- the write that left what the first writer had read
  have guard : write.guardedBy uri e := ⟨rfl, single⟩
  obtain ⟨_, held', read, named⟩ := found_of_guarded guard tag outcome
  obtain rfl := Option.some.inj (held.symm.trans held')
  rcases lookup_exec before held with none | ⟨first, mem, stored, validator⟩
  · cases none
  have mem : first ∈ trace (StorageOp.run sha256) {} ops := by
    rw [whole]
    exact mem_append_left _ mem
  have alike : ∀ step ∈ trace (StorageOp.run sha256) {} ops, ∀ body, Stores uri body step →
      step.1.validator sha256 = e → old.body = body := by
    intro step mem' body stored' same
    apply tell.body_eq collisionFree mem mem' stored stored'
    · rw [validator, read, same]
    · rw [validator, read]
      exact named
  -- the write that left what the second one finds
  obtain ⟨current, found, again, -⟩ := found_of_guarded guarded tag succeeded
  have found : (exec (StorageOp.run sha256) (after sha256 (before ++ [write])) between).data.lookup uri =
      some current := by
    rw [← found, after, ← exec_append, append_assoc]
    rfl
  rcases lookup_exec between found with kept | ⟨later, mem', stored', validator'⟩
  · rw [next, lookup_putConditional done] at kept
    obtain rfl := Option.some.inj kept
    apply changed
    refine (alike (write, .ok none) ?_ r.body ⟨⟨_, rfl⟩, r, rfl, rfl⟩ ?_).symm
    · rw [whole]
      exact mem_append_right _ mem_cons_self
    · rw [← again]
      exact conditionalEntry_currentETag now uri r p _
  · apply restored later mem'
    rw [alike later _ current.body stored' (validator'.trans again)]
    · exact stored'
    · rw [whole]
      exact mem_append_right _ (mem_cons_of_mem _ (mem_append_left _ mem'))

/-- A note is written, and written again with the validator of the first body as condition; a third writer has
that validator as well. -/
def rewriteRun : List StorageOp :=
  [.putConditional Time.zero "n" { body := "a" } {},
   .putConditional Time.zero "n" { body := "b" } { ifMatch := [strongStorageETag id "a"] },
   .putConditional Time.zero "n" { body := "c" } { ifMatch := [strongStorageETag id "a"] }]

theorem noLostUpdate_of_validatorsTell_rewrite : NoLostUpdate id rewriteRun := by
  apply noLostUpdate_of_validatorsTell id Function.injective_id
  constructor
  · intro op mem uri guarded
    simp only [rewriteRun, mem_cons, not_mem_nil, or_false] at mem
    rcases mem with rfl | rfl | rfl
    all_goals exact absurd guarded.2 (by decide +kernel)
  · intro step mem step' mem' uri body body' _ _ _ _ given
    have computed : ∀ step ∈ trace (StorageOp.run id) {} rewriteRun,
        step.1.givesValidator = false := by decide +kernel
    rw [computed step mem, computed step' mem'] at given
    cases given

/-- In a read-modify-write cycle the resource that was read goes back with the validator that it was read
with; a second writer with that validator is not stopped. -/
theorem not_noLostUpdate_readModifyWrite : ¬ NoLostUpdate id
      [.putConditional Time.zero (str "n") { body := str "a" } {}, .get (str "n"),
       .putConditional Time.zero (str "n") { body := str "b", etag := strongStorageETag id (str "a") }
         { ifMatch := [strongStorageETag id (str "a")] },
       .deleteConditional (str "n") { ifMatch := [strongStorageETag id (str "a")] }] := by
  intro h
  have fails := h [_, _] _ _ _ _ [] _ [] _ (conditionalEntry id .zero "n" { body := "a" } none)
    rfl rfl (by decide +kernel) (by decide +kernel) (by decide +kernel) ⟨rfl, rfl⟩
    (fun step mem => absurd mem not_mem_nil) none
  exact fails (by decide +kernel)

end InMemoryStorageBackend

end Runtime
