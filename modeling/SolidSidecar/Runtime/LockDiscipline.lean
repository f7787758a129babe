import SolidSidecar.Runtime.DurableEventLog

/-!
# Lock discipline

Which public calls of the policy engine and of the durable event log come back from their lock. Every call starts
with the lock free. `LoadPolicy` and `RemovePolicy` ask for the write lock again when they invalidate the cache,
`Evaluate` asks for it under its own read lock when it caches, and keeps the read lock when it answers from the
cache, and `WriteEvent` asks again when it rotates: each of them is disciplined only when it stops before that.
-/

namespace Runtime
open Go Run Guarded PolicyEngineLayer

def writing : RWLock := ⟨true, 0⟩

theorem writing_ne_free : writing ≠ .free := by decide

namespace PolicyEngineLayer

variable (p : PolicyEngineLayer)

theorem invalidatePolicyCache_waits : invalidatePolicyCache .kept writing p = none :=
  exclusively_held writing_ne_free _ _

theorem cacheEvaluationResult_waits {l} (held : l ≠ .free) (order : RangeOrder Str) (key : Str)
    (result : PolicyEvaluationResult) : cacheEvaluationResult .kept order key result l p = none :=
  exclusively_held held _ _

theorem dropPolicy_waits (uri : Str) : dropPolicy .kept uri writing p = none := by
  unfold dropPolicy
  rw [bind_of_some (modify_apply _ writing p)]
  exact bind_of_none (invalidatePolicyCache_waits _) _

theorem removePolicy_balanced_iff (uri : Str) : Balanced (removePolicy .kept uri) p ↔ p.closed = true := by
  constructor
  · intro balanced
    by_contra isOpen
    refine not_balanced_exclusively ?_ balanced
    rw [bind_of_some (read_apply _ _ p), Bool.eq_false_of_not_eq_true isOpen]
    exact dropPolicy_waits p uri
  · intro closed
    apply balanced_exclusively
    rw [bind_of_some (read_apply _ _ p), closed]
    rfl

/-- `GetPolicy` reads under the read lock and gives it back on every path. -/
theorem getPolicy_balanced (uri : Str) : Balanced (getPolicy .kept uri) p :=
  balanced_shared rfl

theorem storePolicy_waits (policy : PolicyDocument) : storePolicy .kept policy writing p = none := by
  unfold storePolicy
  rw [bind_of_some (modify_apply _ writing p)]
  exact bind_of_none (invalidatePolicyCache_waits _) _

theorem recordEvaluation_reading (result : PolicyEvaluationResult) :
    recordEvaluation .kept result ⟨false, 1⟩ p = some ((), ⟨false, 1⟩, p) := by
  unfold recordEvaluation
  cases result.policyURIs <;> rfl

section

variable [Unicode]

/-- `LoadPolicy` is refused: by its checks, by a closed layer or by the size of the content. -/
def LoadRefused (p : PolicyEngineLayer) (uri content contentType : Str) : Prop :=
  checkLoad uri content contentType ≠ .ok () ∨ p.closed = true ∨ p.config.maxPolicySize < content.length

theorem admitted_eq_ok_iff (now : Time) (uri content contentType : Str) :
    (∃ policy, p.admitted now uri content contentType = .ok policy) ↔
      ¬(p.closed = true ∨ p.config.maxPolicySize < content.length) := by
  unfold admitted
  simp only [then_eq_ok, refuse_eq_ok, not_or]
  exact ⟨fun ⟨_, notClosed, fits, _⟩ => ⟨notClosed, fits⟩, fun ⟨notClosed, fits⟩ => ⟨_, notClosed, fits, rfl⟩⟩

theorem loadPolicy_balanced_iff (now : Time) (uri content contentType : Str) :
    Balanced (loadPolicy .kept now uri content contentType) p ↔ p.LoadRefused uri content contentType := by
  unfold loadPolicy LoadRefused
  cases checkLoad uri content contentType with
  | error err => exact ⟨fun _ => .inl nofun, fun _ => ⟨_, _, rfl⟩⟩
  | ok _ =>
    have admission := admitted_eq_ok_iff p now uri content contentType
    constructor
    · intro balanced
      by_contra taken
      obtain ⟨policy, found⟩ := admission.mpr fun refused => taken (.inr refused)
      refine not_balanced_exclusively ?_ balanced
      rw [bind_of_some (read_apply _ _ p), found]
      exact storePolicy_waits p policy
    · rintro (unchecked | refused)
      · exact absurd rfl unchecked
      · cases found : p.admitted now uri content contentType with
        | ok policy => exact absurd refused (admission.mp ⟨policy, found⟩)
        | error err =>
          apply balanced_exclusively
          rw [bind_of_some (read_apply _ _ p), found]
          rfl

theorem evaluateMiss_waits (now : Time) (orders : EvaluateOrders) (ctx : PolicyEvaluationContext) :
    evaluateMiss .kept now orders ctx ⟨false, 1⟩ p = none := by
  unfold evaluateMiss
  rw [bind_of_some (read_apply _ _ p), bind_of_some (recordEvaluation_reading p _)]
  exact bind_of_none (cacheEvaluationResult_waits _ (by decide) _ _ _) _

theorem evaluate_balanced_iff (now : Time) (orders : EvaluateOrders) (evaluationCtx : Option PolicyEvaluationContext) :
    Balanced (evaluate .kept now orders evaluationCtx) p ↔
      (checkContext evaluationCtx).isOk = false ∨ p.closed = true := by
  unfold evaluate
  cases checkContext evaluationCtx with
  | error err => exact ⟨fun _ => .inl rfl, fun _ => ⟨_, _, rfl⟩⟩
  | ok ctx =>
    rw [Except.isOk, Except.toBool]
    simp only [Bool.true_eq_false, false_or]
    constructor
    · rintro ⟨a, _, done⟩
      by_contra isOpen
      rw [bind_of_some (rlock_free p), bind_of_some (read_apply _ _ p), Bool.eq_false_of_not_eq_true isOpen] at done
      -- a hit returns with the read lock, a miss waits
      cases cached : p.evaluationCache.lookup _ with
      | some result =>
        rw [cached] at done
        exact absurd (congrArg (Option.map fun r => r.2.1) done) (by simp [RWLock.free])
      | none =>
        rw [cached] at done
        cases (evaluateMiss_waits p now orders ctx).symm.trans done
    · intro closed
      refine ⟨.error .closed, p, ?_⟩
      rw [bind_of_some (rlock_free p), bind_of_some (read_apply _ _ p), closed]
      rfl

end

end PolicyEngineLayer

namespace DurableEventLog

theorem rotateFile_waits (timestamp : Int) (diskFails : Bool) (l : DurableEventLog) :
    rotateFile .kept timestamp diskFails writing l = none := by
  unfold rotateFile
  rw [bind_of_some (modify_apply _ writing l)]
  exact exclusively_held writing_ne_free _ _

variable {needed : DurableEventLog → Bool} {l : DurableEventLog} {line : Str}

theorem rotateIf_of_not (unneeded : needed l = false) (m : Mutex)
    (timestamp : Int) (diskFails : Bool) (held : RWLock) :
    rotateIf m needed timestamp diskFails held l = some (.ok (), held, l) := by
  unfold rotateIf
  rw [bind_of_some (read_apply _ _ l), unneeded]
  rfl

theorem rotateIf_waits (isNeeded : needed l = true)
    (timestamp : Int) (diskFails : Bool) : rotateIf .kept needed timestamp diskFails writing l = none := by
  unfold rotateIf
  rw [bind_of_some (read_apply _ _ l), isNeeded]
  exact rotateFile_waits timestamp diskFails l

theorem writeLine_waits (rotates : ¬(outgrown line l = false ∧ crowded l = false))
    (c : WriteContext) (event : StreamEvent) : writeLine .kept c event line writing l = none := by
  unfold writeLine
  cases long : outgrown line l with
  | true => exact bind_of_none (rotateIf_waits long _ _) _
  | false =>
    rw [bind_of_some (rotateIf_of_not long _ _ _ _)]
    cases many : crowded l with
    | true => exact bind_of_none (rotateIf_waits many _ _) _
    | false => exact absurd ⟨long, many⟩ rotates

theorem writeLine_stays (long : outgrown line l = false) (many : crowded l = false)
    (m : Mutex) (c : WriteContext) (event : StreamEvent) (held : RWLock) :
    writeLine m c event line held l = some ((append c event line l).1, held, (append c event line l).2) := by
  unfold writeLine
  rw [bind_of_some (rotateIf_of_not long _ _ _ _)]
  exact bind_of_some (rotateIf_of_not many _ _ _ _) _

section

variable [Unicode]

/-- `WriteEvent` stays with its file: it is refused, or the line fits where it is. -/
def Unrotated (l : DurableEventLog) (c : WriteContext) (event : StreamEvent) : Prop :=
  ∀ line, l.prepare c event = .ok line → outgrown line l = false ∧ crowded l = false

theorem writeEvent_balanced_iff (c : WriteContext) (event : StreamEvent) (l : DurableEventLog) :
    Balanced (writeEvent .kept c event) l ↔ l.Unrotated c event := by
  constructor
  · intro balanced line prepared
    by_contra rotates
    refine not_balanced_exclusively ?_ balanced
    rw [bind_of_some (read_apply _ _ l), prepared]
    exact writeLine_waits rotates c event
  · intro stays
    cases prepared : l.prepare c event with
    | error err =>
      apply balanced_exclusively
      rw [bind_of_some (read_apply _ _ l), prepared]
      rfl
    | ok line =>
      obtain ⟨long, many⟩ := stays line prepared
      apply balanced_exclusively
      rw [bind_of_some (read_apply _ _ l), prepared]
      exact writeLine_stays long many .kept c event _

end

end DurableEventLog

section

variable [Unicode]

/-- A public call, with the state in which it finds its layer. -/
inductive LayerCall where
  | loadPolicy (layer : PolicyEngineLayer) (now : Time) (uri content contentType : Str)
  | removePolicy (layer : PolicyEngineLayer) (uri : Str)
  | evaluate (layer : PolicyEngineLayer) (now : Time) (orders : PolicyEngineLayer.EvaluateOrders)
      (evaluationCtx : Option PolicyEvaluationContext)
  | getPolicy (layer : PolicyEngineLayer) (uri : Str)
  | writeEvent (log : DurableEventLog) (c : DurableEventLog.WriteContext) (event : StreamEvent)

/-- The call returns without waiting for a lock that it holds, and leaves the lock free. -/
def LayerCall.Disciplined : LayerCall → Prop
  | .loadPolicy layer now uri content contentType =>
    Guarded.Balanced (PolicyEngineLayer.loadPolicy .kept now uri content contentType) layer
  | .removePolicy layer uri => Guarded.Balanced (PolicyEngineLayer.removePolicy .kept uri) layer
  | .evaluate layer now orders evaluationCtx =>
    Guarded.Balanced (PolicyEngineLayer.evaluate .kept now orders evaluationCtx) layer
  | .getPolicy layer uri => Guarded.Balanced (PolicyEngineLayer.getPolicy .kept uri) layer
  | .writeEvent log c event => Guarded.Balanced (DurableEventLog.writeEvent .kept c event) log

/-- The call does not come to the place where it would ask for its own lock, or keep it. -/
def LayerCall.StopsShort : LayerCall → Prop
  | .loadPolicy layer _ uri content contentType => layer.LoadRefused uri content contentType
  | .removePolicy layer _ => layer.closed = true
  | .evaluate layer _ _ evaluationCtx =>
    (PolicyEngineLayer.checkContext evaluationCtx).isOk = false ∨ layer.closed = true
  | .getPolicy _ _ => True
  | .writeEvent log c event => log.Unrotated c event

/-- Calls are disciplined exactly where they stop short of their second use of the lock. -/
theorem disciplined_iff_stopsShort (call : LayerCall) : call.Disciplined ↔ call.StopsShort := by
  cases call with
  | loadPolicy layer now uri content contentType =>
    exact loadPolicy_balanced_iff layer now uri content contentType
  | removePolicy layer uri => exact removePolicy_balanced_iff layer uri
  | evaluate layer now orders evaluationCtx =>
    exact evaluate_balanced_iff layer now orders evaluationCtx
  | getPolicy layer uri => exact iff_of_true (getPolicy_balanced layer uri) trivial
  | writeEvent log c event => exact DurableEventLog.writeEvent_balanced_iff c event log

end

/-- A log on an empty directory whose files may hold no more than one byte. -/
def narrowLog : DurableEventLog :=
  ((DurableEventLog.blank { defaultDurableEventLogConfig with maxLogSize := 1 } ∅).startFile 0 false).2

def plainEvent : StreamEvent := ⟨"e1", [], "https://h/a", [], .zero, [], [], [], none, 0, .zero, []⟩

def plainContext : PolicyEvaluationContext := ⟨"https://h/a", [], [], [], [], [], [], .zero⟩

/-- On new layers, a small policy, a removal, a request and an event each end in a wait that does not end. -/
theorem calls_wait_for_themselves :
    letI := Unicode.ascii
    let layer := new defaultPolicyEngineConfig
    ¬(LayerCall.loadPolicy layer .zero (str "https://h/a") (str "x") (str "text/turtle")).Disciplined ∧
    ¬(LayerCall.removePolicy layer (str "https://h/a")).Disciplined ∧
    ¬(LayerCall.evaluate layer .zero ⟨default, default⟩ (some plainContext)).Disciplined ∧
    ¬(LayerCall.writeEvent narrowLog ⟨.zero, default, 0, 0, false⟩ plainEvent).Disciplined := by
  refine ⟨?_, ?_, ?_, ?_⟩ <;>
    exact not_balanced_of_none (Option.isNone_iff_eq_none.mp (by decide +kernel))

end Runtime
