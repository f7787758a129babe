import SolidSidecar.Sdk.SyncChanges

/-!
# Conflict safety of the sync client

One client works on a resource that other clients write as well. The server gives each version its own
ETag and evaluates the precondition of a request and applies it in one step. A request stays in the
network from when it is sent: it may arrive at any time and, since the HTTP client repeats requests,
more than once.

A conflict is recognized by comparing the server's ETag with the one that the sync state remembers, and
that one moves with every pull and every conflict that is met, while the pending changes stay. So a
change may be written over a version that it was not made for. Where the remembered ETag is still that
under which the changes were queued, no such write happens (`safe_of_remembered`).
-/

namespace Sdk
open Go List Run

/-- The ETags of a server: each version has its own, and none is empty. -/
structure Tags where
  tag : Nat → Str
  injective : Function.Injective tag
  nonempty : ∀ n, tag n ≠ []

inductive Author where
  | client
  | other
  deriving DecidableEq, Repr

/-- A version of the resource, with its place in the order of all versions. -/
structure Version where
  number : Nat
  author : Author
  deriving DecidableEq, Repr

/-- A resource at the server: how many versions there have been, and the one that is there. -/
structure Server where
  count : Nat := 0
  current : Option Version := none

/-- A queued change, with the ETag of the version with which the client was in sync. -/
structure Change where
  triple : RDFTriple
  base : Str
  deriving DecidableEq, Repr

/-- A request of the client. A body comes with the changes that it is built from. -/
inductive SyncRequest where
  | read
  /-- `Create`, with `If-None-Match: *`. -/
  | create (changes : List Change)
  /-- `Put`, with `If-Match`. -/
  | put (etag : Str) (changes : List Change)

/-- How a request whose precondition fails is refused: 409, or 412 with or without the ETag. -/
inductive Refusal where
  | conflict
  | tagged
  | bare

/-- What the server is free to choose. A server that does not heed `If-None-Match` overwrites, and says
so with 200. -/
structure Choice where
  refusal : Refusal := .tagged
  heeds : Bool := true

/-- A write of the client that has replaced a version. -/
structure Overwrite where
  changes : List Change
  version : Version
  deriving DecidableEq, Repr

namespace Server

def write (server : Server) (author : Author) : Server :=
  ⟨server.count + 1, some ⟨server.count, author⟩⟩

def delete (server : Server) : Server := { server with current := none }

def etag (tags : Tags) (server : Server) : Str := (server.current.map (tags.tag ·.number)).getD []

def refuse (tags : Tags) (server : Server) : Refusal → Answer
  | .conflict => .exists
  | .tagged => .preconditionFailed (server.etag tags)
  | .bare => .preconditionFailed []

def handle (tags : Tags) (server : Server) (choice : Choice) : SyncRequest → Server × Answer × Option Overwrite
  | .read =>
    match server.current with
    | none => (server, .notFound, none)
    | some version => (server, .ok (tags.tag version.number) none, none)
  | .create changes =>
    match server.current with
    | none => (server.write .client, .ok (tags.tag server.count) none, none)
    | some version =>
      if choice.heeds then (server, server.refuse tags choice.refusal, none)
      else (server.write .client, .exists, some ⟨changes, version⟩)
  | .put etag changes =>
    match server.current with
    | none => (server, server.refuse tags choice.refusal, none)
    | some version =>
      if tags.tag version.number = etag then
        (server.write .client, .ok (tags.tag server.count) none, some ⟨changes, version⟩)
      else (server, server.refuse tags choice.refusal, none)

end Server

/-- The request that a call is about to make, for a copy of the given changes. -/
def Task.request (changes : List Change) : Task → Option SyncRequest
  | .pullOnly _ _ | .head _ _ _ | .existing _ | .serverWins _ _ | .mergeGet _ _ _ _
  | .mergeHead _ _ _ => some .read
  | .create _ _ => some (.create changes)
  | .put _ _ etag _ | .mergePut _ _ etag _ _ => some (.put etag changes)
  | .sync _ | .snapshot _ _ | .fullPull _ | .fullPush _ | .pushState _ _ | .update _ _ _ | .clear _ _ _
  | .updateNew _ _ => none

/-- A call in flight, with the changes of its copy and the number of its request. -/
structure SyncCall where
  thread : Thread
  changes : List Change := []
  request : Option Nat := none

/-- The client, its requests and their replies, and the server. `queued` are the pending changes. -/
structure SyncWorld where
  store : SyncStore := {}
  queued : List Change := []
  calls : List SyncCall := []
  sent : List SyncRequest := []
  replies : List (Nat × Answer) := []
  server : Server := {}

inductive WorldEvent where
  | addChanges (triples : List RDFTriple)
  /-- A call begins. -/
  | sync
  | fullSync (order : RangeOrder Str)
  /-- A call makes a step; if it waits for a reply, with one that has come or none. -/
  | step (call : Nat) (reply : Nat)
  /-- A request arrives at the server. -/
  | deliver (request : Nat) (choice : Choice)
  | otherWrite
  | otherDelete

/-- The ETag of the version with which the client is in sync. -/
def SyncStore.lastSynced (s : SyncStore) (uri : Str) : Str :=
  ((s.syncState.lookup uri).map fun ref => (s.stateOf ref).localETag).getD []

namespace SyncWorld

/-- The outcome of the exchange that a call waits for. -/
def outcome (s : SyncWorld) (call : SyncCall) (reply : Nat) : Answer :=
  match s.replies[reply]? with
  | some (request, answer) => if call.request = some request then answer else .failed
  | none => .failed

/-- A step of a call. The copy of the changes is taken where there was none before; the changes are
cleared with the list of the client. -/
def stepCall (cfg : SyncConfig) (uri : Str) (s : SyncWorld) (i : Nat) (call : SyncCall) (answer : Answer) :
    SyncWorld :=
  let result := call.thread.step cfg s.store answer
  let changes := if call.thread.copy = none then s.queued else call.changes
  let request := result.2.1.task.bind (Task.request changes)
  { s with
    store := result.1
    queued := if result.1.pending uri = [] then [] else s.queued
    calls := s.calls.set i ⟨result.2.1, changes, request.map fun _ => s.sent.length⟩
    sent := s.sent ++ request.toList }

/-- An event, with the version that a write of the client replaces in it. -/
def step (tags : Tags) (cfg : SyncConfig) (uri : Str) (s : SyncWorld) : WorldEvent → SyncWorld × Option Overwrite
  | .addChanges triples =>
    ({ s with
      store := s.store.addChanges uri triples
      queued := s.queued ++ triples.map (⟨·, s.store.lastSynced uri⟩) }, none)
  | .sync => ({ s with calls := s.calls ++ [{ thread := ⟨none, [.sync uri]⟩ }] }, none)
  | .fullSync order => ({ s with calls := s.calls ++ [{ thread := ⟨none, [.fullSync order]⟩ }] }, none)
  | .step i reply =>
    match s.calls[i]? with
    | none => (s, none)
    | some call => (s.stepCall cfg uri i call (s.outcome call reply), none)
  | .deliver k choice =>
    match s.sent[k]? with
    | none => (s, none)
    | some request =>
      let result := s.server.handle tags choice request
      ({ s with server := result.1, replies := s.replies ++ [(k, result.2.1)] }, result.2.2)
  | .otherWrite => ({ s with server := s.server.write .other }, none)
  | .otherDelete => ({ s with server := s.server.delete }, none)

end SyncWorld

/-- The queued changes are the pending ones, and those of a call are its copy. -/
structure SyncWorld.Agrees (uri : Str) (s : SyncWorld) : Prop where
  queued : s.queued.map Change.triple = s.store.pending uri
  copies : ∀ call ∈ s.calls, ∀ pending, call.thread.copy = some (uri, pending) →
    call.changes.map Change.triple = pending

namespace SyncWorld

variable {tags : Tags} {cfg : SyncConfig} {uri : Str} {s : SyncWorld}

theorem Agrees.stepCall (h : s.Agrees uri) {i call} (mem : call ∈ s.calls)
    (answer : Answer) : (s.stepCall cfg uri i call answer).Agrees uri := by
  constructor
  · simp only [SyncWorld.stepCall]
    split_ifs with cleared
    · rw [cleared]
      rfl
    · obtain same | ⟨empty, -⟩ := @Thread.step_pending cfg s.store answer call.thread uri
      · rw [same]
        exact h.queued
      · exact absurd empty cleared
  · intro other inFlight pending copy
    obtain there | rfl := mem_or_eq_of_mem_set inFlight
    · exact h.copies other there pending copy
    · obtain had | ⟨free, rfl⟩ := Thread.step_copy copy
      · rw [if_neg (by rw [had]; exact Option.some_ne_none _)]
        exact h.copies call mem pending had
      · rw [if_pos free]
        exact h.queued

theorem Agrees.begin (h : s.Agrees uri) (jobs : List Job) :
    ({ s with calls := s.calls ++ [{ thread := ⟨none, jobs⟩ }] } : SyncWorld).Agrees uri := by
  refine ⟨h.queued, fun call inFlight pending copy => ?_⟩
  obtain there | new := mem_append.mp inFlight
  · exact h.copies call there pending copy
  · rw [mem_singleton.mp new] at copy
    cases copy

theorem Agrees.step (h : s.Agrees uri) (e : WorldEvent) : (s.step tags cfg uri e).1.Agrees uri := by
  cases e with
  | addChanges triples =>
    refine ⟨?_, h.copies⟩
    simp only [SyncWorld.step, SyncStore.pending_addChanges, map_append, h.queued, map_map]
    exact congrArg _ (map_id triples)
  | sync => exact h.begin _
  | fullSync order => exact h.begin _
  | step i reply =>
    simp only [SyncWorld.step]
    split
    · exact h
    · next call here => exact h.stepCall (mem_of_getElem? here) _
  | deliver k choice =>
    simp only [SyncWorld.step]
    split
    · exact h
    · exact ⟨h.queued, h.copies⟩
  | otherWrite => exact ⟨h.queued, h.copies⟩
  | otherDelete => exact ⟨h.queued, h.copies⟩

/-- In every run the changes of a call are those that its body is built from. -/
theorem agrees_exec (events : List WorldEvent) : (exec (step tags cfg uri) {} events).Agrees uri := by
  apply exec_inv (fun s e h => h.step e)
  exact ⟨rfl, fun call none => by cases none⟩

end SyncWorld

/-- No change is written over a version that another client wrote after the one it was made for. -/
def Overwrite.Safe (tags : Tags) (w : Overwrite) : Prop :=
  ∀ change ∈ w.changes, ∀ v, tags.tag v = change.base → w.version.author = .other → w.version.number ≤ v

/-- The changes were queued under this ETag, or under none. -/
def Based (changes : List Change) (etag : Str) : Prop :=
  ∀ change ∈ changes, change.base = [] ∨ change.base = etag

instance (changes : List Change) (etag : Str) : Decidable (Based changes etag) :=
  inferInstanceAs (Decidable (∀ _ ∈ _, _))

/-- The strategies that do not write what conflicts. -/
structure SyncConfig.Careful (cfg : SyncConfig) : Prop where
  handler : cfg.onConflict = none
  strategy : cfg.conflictStrategy = .serverWins ∨ cfg.conflictStrategy = .latestWins ∨ cfg.conflictStrategy = .manual

/-- When a call compares the ETag of the server with the one it remembers, its changes have been queued
under that one. -/
def Task.Remembered (s : SyncStore) (changes : List Change) : Task → Prop
  | .head _ ref _ => Based changes (s.stateOf ref).serverETag
  | _ => True

/-- A creation is not answered by a server that ignores its precondition. -/
def SyncRequest.Heeded (choice : Choice) : SyncRequest → Prop
  | .create _ => choice.heeds
  | _ => True

def SyncWorld.Remembered (s : SyncWorld) : WorldEvent → Prop
  | .step i _ => ∀ call ∈ s.calls[i]?, ∀ task ∈ call.thread.task, task.Remembered s.store call.changes
  | .deliver k choice => ∀ request ∈ s.sent[k]?, request.Heeded choice
  | _ => True

instance (s : SyncStore) (changes : List Change) : ∀ task : Task, Decidable (task.Remembered s changes)
  | .head _ _ _ => inferInstanceAs (Decidable (Based _ _))
  | .sync _ | .snapshot _ _ | .fullPull _ | .fullPush _ | .pushState _ _ | .pullOnly _ _ | .create _ _
  | .existing _ | .put _ _ _ _ | .serverWins _ _ | .mergeGet _ _ _ _ | .mergePut _ _ _ _ _
  | .mergeHead _ _ _ | .update _ _ _ | .clear _ _ _ | .updateNew _ _ => inferInstanceAs (Decidable True)

instance (choice : Choice) : ∀ request : SyncRequest, Decidable (request.Heeded choice)
  | .create _ => inferInstanceAs (Decidable (_ = true))
  | .read | .put _ _ => inferInstanceAs (Decidable True)

instance (s : SyncWorld) : ∀ e, Decidable (s.Remembered e)
  | .step _ _ => inferInstanceAs (Decidable (∀ _ ∈ _, ∀ _ ∈ _, _))
  | .deliver _ _ => inferInstanceAs (Decidable (∀ _ ∈ _, _))
  | .addChanges _ | .sync | .fullSync _ | .otherWrite | .otherDelete => inferInstanceAs (Decidable True)

/-- A call that is about to write requires the ETag under which its changes were queued. -/
def Task.Grounded (changes : List Change) : Task → Prop
  | .put _ _ etag _ => Based changes etag
  | .mergeGet _ _ _ _ | .mergePut _ _ _ _ _ => False
  | _ => True

def SyncRequest.Grounded : SyncRequest → Prop
  | .put etag changes => Based changes etag
  | _ => True

section Safety

variable {cfg : SyncConfig} {s : SyncStore} {changes : List Change} {task next : Task}

theorem Task.Grounded.request (grounded : task.Grounded changes) {request}
    (sends : task.request changes = some request) : request.Grounded := by
  cases task with
  | put => cases sends; exact grounded
  | mergePut => exact grounded.elim
  | _ => cases sends <;> trivial

theorem Task.grounded_of_copy_none (free : task.copy = none) : task.Grounded changes := by
  cases task <;> trivial

theorem Task.remembered_of_copy_none (free : task.copy = none) : task.Remembered s changes := by
  cases task <;> trivial

variable {uri etag : Str} {ref : Ref} {pending : List RDFTriple} {answer : Answer}

theorem SyncConfig.Careful.grounded_handleConflict (careful : cfg.Careful)
    (goes : (cfg.handleConflict s uri ref etag pending).2 = some next) : next.Grounded changes := by
  unfold handleConflict SyncConfig.strategy at goes
  rw [careful.handler] at goes
  obtain wins | wins | wins := careful.strategy
  all_goals
    rw [wins] at goes
    cases goes
    trivial

theorem SyncConfig.grounded_applyPendingChanges (based : Based changes etag)
    (goes : cfg.applyPendingChanges uri ref etag pending = some next) : next.Grounded changes := by
  unfold applyPendingChanges at goes
  split_ifs at goes
  cases goes
  exact based

theorem Task.Grounded.step (careful : cfg.Careful) (grounded : task.Grounded changes)
    (remembered : task.Remembered s changes)
    (goes : (task.step cfg s answer).2.1 = some next) : next.Grounded changes := by
  cases task with
  | head uri ref pending =>
    cases answer with
    | ok etag triples =>
      simp only [step] at goes
      split_ifs at goes with differs
      · exact careful.grounded_handleConflict goes
      · refine SyncConfig.grounded_applyPendingChanges (fun change mem => ?_) goes
        obtain none | same := remembered change mem
        · exact .inl none
        · -- the remembered ETag is empty, or it is the server's
          by_cases empty : (s.stateOf ref).serverETag = []
          · exact .inl (same.trans empty)
          · exact .inr (same.trans (by_contra fun moved => differs ⟨empty, moved⟩))
    | notFound =>
      simp only [step] at goes
      split_ifs at goes
      cases goes
      trivial
    | _ => cases goes
  | put uri ref etag pending =>
    cases answer with
    | ok => cases goes; trivial
    | preconditionFailed current => exact careful.grounded_handleConflict goes
    | _ => cases goes
  | mergeGet | mergePut => exact grounded.elim
  | snapshot uri ref =>
    simp only [step, Option.some.injEq] at goes
    subst goes
    split_ifs <;> trivial
  | fullPush uri =>
    simp only [step] at goes
    split_ifs at goes
    cases goes
    trivial
  | pullOnly uri ref =>
    simp only [step] at goes
    split at goes <;> try split_ifs at goes
    all_goals cases goes
    all_goals trivial
  | update uri ref written =>
    cases written <;> cases goes
    trivial
  | clear uri pending created =>
    cases created <;> cases goes
    trivial
  | _ => cases answer <;> cases goes <;> trivial

/-- The same for a call, whose copy is taken from the queue where it has none. -/
theorem Thread.grounded_step (careful : cfg.Careful) {thread : Thread}
    {queued} (grounded : ∀ task, thread.task = some task → task.Grounded changes)
    (remembered : ∀ task ∈ thread.task, task.Remembered s changes)
    (goes : (thread.step cfg s answer).2.1.task = some next) :
    next.Grounded (if thread.copy = none then queued else changes) := by
  unfold step at goes
  split at goes
  case h_1 task running =>
    split_ifs with free
    · have idle : task.copy = none := by rwa [copy, running] at free
      exact (Task.grounded_of_copy_none idle).step careful (Task.remembered_of_copy_none idle) goes
    · exact (grounded task running).step careful (remembered task running) goes
  case h_2 idle =>
    split at goes
    · rw [idle] at goes
      cases goes
    all_goals cases goes
    all_goals trivial

end Safety

namespace SyncWorld

/-- Every write that is under way requires the ETag under which its changes were queued. -/
structure Grounded (s : SyncWorld) : Prop where
  calls : ∀ call ∈ s.calls, ∀ task, call.thread.task = some task → task.Grounded call.changes
  sent : ∀ request ∈ s.sent, request.Grounded

variable {tags : Tags} {cfg : SyncConfig} {uri : Str} {s : SyncWorld}

theorem Grounded.stepCall (h : s.Grounded) (careful : cfg.Careful) {i call} (mem : call ∈ s.calls) (answer : Answer)
    (remembered : ∀ task ∈ call.thread.task, task.Remembered s.store call.changes) :
    (s.stepCall cfg uri i call answer).Grounded := by
  have next : ∀ task, (call.thread.step cfg s.store answer).2.1.task = some task →
      task.Grounded (if call.thread.copy = none then s.queued else call.changes) :=
    fun _ => Thread.grounded_step careful (h.calls call mem) remembered
  constructor
  · intro other inFlight task running
    obtain there | rfl := mem_or_eq_of_mem_set inFlight
    · exact h.calls other there task running
    · exact next task running
  · intro request mem
    obtain earlier | new := mem_append.mp mem
    · exact h.sent request earlier
    · obtain ⟨task, running, sends⟩ := Option.bind_eq_some_iff.mp (Option.mem_toList.mp new)
      exact (next task running).request sends

theorem Grounded.begin (h : s.Grounded) (jobs : List Job) :
    ({ s with calls := s.calls ++ [{ thread := ⟨none, jobs⟩ }] } : SyncWorld).Grounded := by
  refine ⟨fun call inFlight task running => ?_, h.sent⟩
  obtain there | new := mem_append.mp inFlight
  · exact h.calls call there task running
  · rw [mem_singleton.mp new] at running
    cases running

variable {e : WorldEvent} {w : Overwrite}

theorem Grounded.step (h : s.Grounded) (careful : cfg.Careful)
    (remembered : s.Remembered e) : (s.step tags cfg uri e).1.Grounded := by
  cases e with
  | sync => exact h.begin _
  | fullSync order => exact h.begin _
  | step i reply =>
    simp only [step]
    split
    · exact h
    · next call here =>
      exact h.stepCall careful (mem_of_getElem? here) _ (remembered call here)
  | deliver k choice =>
    simp only [step]
    split
    · exact h
    · exact ⟨h.calls, h.sent⟩
  | addChanges => exact ⟨h.calls, h.sent⟩
  | otherWrite => exact ⟨h.calls, h.sent⟩
  | otherDelete => exact ⟨h.calls, h.sent⟩

/-- A request replaces a version safely: `Put` only the one that its changes were queued for. -/
theorem safe_of_handle {server : Server} {choice request}
    (grounded : request.Grounded) (heeded : request.Heeded choice)
    (replaces : (server.handle tags choice request).2.2 = some w) : w.Safe tags := by
  cases request with
  | read =>
    simp only [Server.handle] at replaces
    split at replaces <;> cases replaces
  | create changes =>
    have heeds : choice.heeds = true := heeded
    simp only [Server.handle, if_pos heeds] at replaces
    split at replaces <;> cases replaces
  | put etag changes =>
    simp only [Server.handle] at replaces
    split at replaces
    · cases replaces
    · next version current =>
      split_ifs at replaces with same
      cases replaces
      intro change mem v tagged _
      obtain none | based := grounded change mem
      · exact absurd (tagged.trans none) (tags.nonempty v)
      · -- the version that is replaced is the one under which the change was queued
        exact (tags.injective (same.trans (based.symm.trans tagged.symm))).le

theorem Grounded.safe (h : s.Grounded) (remembered : s.Remembered e)
    (replaces : (s.step tags cfg uri e).2 = some w) : w.Safe tags := by
  cases e with
  | deliver k choice =>
    simp only [SyncWorld.step] at replaces
    split at replaces
    · cases replaces
    · next request here =>
      exact safe_of_handle (h.sent request (mem_of_getElem? here)) (remembered request here) replaces
  | step i reply =>
    simp only [SyncWorld.step] at replaces
    split at replaces <;> cases replaces
  | _ => cases replaces

end SyncWorld

/-- Where each comparison of ETags is made against the one under which the changes were queued, no
change is written over a version of another client that is newer than the one it was made for. -/
theorem safe_of_remembered (tags : Tags) (cfg : SyncConfig) (careful : cfg.Careful) (uri : Str)
    (events : List WorldEvent)
    (remembered : ∀ before e after, events = before ++ e :: after →
      (Run.exec (SyncWorld.step tags cfg uri) {} before).Remembered e) :
    ∀ p ∈ Run.trace (SyncWorld.step tags cfg uri) {} events, ∀ w ∈ p.2, w.Safe tags := by
  have grounded : ∀ before after, events = before ++ after →
      (exec (SyncWorld.step tags cfg uri) {} before).Grounded := by
    refine run_inv ⟨fun call none => (by cases none), fun request none => (by cases none)⟩ ?_
    intro before e after split h
    exact h.step careful (remembered before e after split)
  intro p found w replaces
  obtain ⟨before, after, split, out⟩ := mem_trace found
  rw [out] at replaces
  exact (grounded before _ split).safe (remembered before p.1 after split) replaces

def sampleTags : Tags where
  tag n := 'v'.toUInt8 :: List.replicate n 0x7C
  injective m n same := by simpa using congrArg List.length same
  nonempty n := cons_ne_nil _ _

/-- A call makes its next steps, none of which waits for a reply. -/
def locked (call n : Nat) : List WorldEvent := List.replicate n (.step call 0)

/-- An exchange: the request arrives and the reply comes back. Requests are numbered as they are sent,
and replies as they come. -/
def exchange (call n : Nat) : List WorldEvent := [.deliver n {}, .step call n]

/-- Another client writes the first version, which the client pulls. -/
def firstPull : List WorldEvent :=
  .otherWrite :: .sync :: locked 0 3 ++ exchange 0 0 ++ locked 0 1

theorem safe_of_remembered_push : ({ conflictStrategy := .serverWins } : SyncConfig).Careful ∧
    ∀ p ∈ Run.trace (SyncWorld.step sampleTags { conflictStrategy := .serverWins } (str "/a")) {}
      (firstPull ++ .addChanges [sampleChange "one"] :: .sync :: locked 1 3 ++ exchange 1 1 ++
        exchange 1 2 ++ locked 1 2), ∀ w ∈ p.2, w.Safe sampleTags := by
  refine ⟨⟨rfl, .inl rfl⟩, safe_of_remembered sampleTags _ ⟨rfl, .inl rfl⟩ "/a" _ (Run.along_iff.mp ?_)⟩
  decide +kernel

/-- The client queues a change at the first version, and another client writes the second. -/
def changedTwice : List WorldEvent := firstPull ++ [.addChanges [sampleChange "one"], .otherWrite]

/-- The overwrite of the second version with the change that was queued at the first. -/
def lostVersion : Overwrite := ⟨[⟨sampleChange "one", sampleTags.tag 0⟩], ⟨1, .other⟩⟩

theorem not_safe_of_lostVersion {cfg events} (lost : some lostVersion ∈
      (trace (SyncWorld.step sampleTags cfg (str "/a")) {} events).map Prod.snd) :
    ¬ ∀ p ∈ trace (SyncWorld.step sampleTags cfg "/a") {} events, ∀ w ∈ p.2, w.Safe sampleTags := by
  intro safe
  obtain ⟨p, found, out⟩ := mem_map.mp lost
  have newer := safe p found lostVersion out _ (mem_singleton_self _) 0 rfl rfl
  exact absurd newer (by decide)

/-- The call that meets the conflict pulls, or reports it, and the next call writes over the version of
the other client; a full synchronization does so in one call. -/
theorem version_lost : (∀ strategy ∈ [SyncConflictStrategy.serverWins, .latestWins],
      ¬ ∀ p ∈ Run.trace (SyncWorld.step sampleTags { conflictStrategy := strategy } (str "/a")) {}
        (changedTwice ++ .sync :: locked 1 3 ++ exchange 1 1 ++ exchange 1 2 ++ locked 1 1 ++
          .sync :: locked 2 3 ++ exchange 2 3 ++ exchange 2 4), ∀ w ∈ p.2, w.Safe sampleTags) ∧
    (¬ ∀ p ∈ Run.trace (SyncWorld.step sampleTags { conflictStrategy := .manual } (str "/a")) {}
        (changedTwice ++ .sync :: locked 1 3 ++ exchange 1 1 ++ locked 1 1 ++
          .sync :: locked 2 3 ++ exchange 2 2 ++ exchange 2 3), ∀ w ∈ p.2, w.Safe sampleTags) ∧
    ∀ strategy ∈ [SyncConflictStrategy.serverWins, .latestWins, .manual],
      ¬ ∀ p ∈ Run.trace (SyncWorld.step sampleTags { conflictStrategy := strategy } (str "/a")) {}
        (changedTwice ++ .fullSync default :: locked 1 3 ++ exchange 1 1 ++ locked 1 4 ++
          exchange 1 2 ++ exchange 1 3), ∀ w ∈ p.2, w.Safe sampleTags := by
  refine ⟨fun strategy mem => not_safe_of_lostVersion ?_, not_safe_of_lostVersion ?_,
    fun strategy mem => not_safe_of_lostVersion ?_⟩
  · revert strategy
    decide +kernel
  · decide +kernel
  · revert strategy
    decide +kernel

end Sdk
