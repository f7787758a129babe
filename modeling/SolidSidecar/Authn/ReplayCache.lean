import SolidSidecar.Go.Map
import SolidSidecar.Go.Str
import SolidSidecar.Go.Time
import SolidSidecar.Run.Lease

/-!
# The DPoP replay cache

`ReplayCache.Store` records a key until a deadline and refuses a key whose deadline is still ahead.
Every call first deletes the expired entries; at capacity it also evicts entries in map order, which
Go leaves open. As long as a call finds room, the cache is a table of leases: `store_refines`. A key that
was stored is refused until its deadline if no call in between evicts (`spares_remembers`).
-/

namespace Authn
open Go Run GoMap List

def defaultReplayCacheMaxEntries : Nat := 10000

/-- The cache: deadlines by key, under a positive bound. The clock is an argument of each call. -/
structure ReplayCache where
  entries : GoMap Str Time
  maxEntries : Nat
  positive : 0 < maxEntries

namespace ReplayCache

variable {now : Time} {c : ReplayCache} {held : Str → Option Time}

/-- `NewReplayCacheWithConfig`: a bound that is not positive means the default one. -/
def new (maxEntries : Int) : ReplayCache :=
  if h : 0 < maxEntries then ⟨∅, maxEntries.toNat, by omega⟩
  else ⟨∅, defaultReplayCacheMaxEntries, by decide⟩

def live (entries : GoMap Str Time) (now : Time) : GoMap Str Time :=
  entries.filter fun _ expires => expires.after now

def evict (order : RangeOrder Str) (now : Time) (maxEntries : Nat) (entries : GoMap Str Time) : GoMap Str Time :=
  if maxEntries ≤ entries.size then
    let tenth := max 1 ((maxEntries + 9) / 10)
    let expired := entries.entries.filter fun e => !e.2.after now
    let entries := if expired = [] then entries else live entries now
    let numToEvict :=
      if expired = [] then tenth
      else if entries.size < maxEntries then tenth else max 1 (maxEntries - entries.size)
    if maxEntries ≤ entries.size then
      let evicted := (order.visit entries.keys).take numToEvict
      entries.filter fun k _ => !evicted.contains k
    else entries
  else entries

/-- The deadline of a new entry: one that is already past becomes a minute from now. -/
def deadline (now expiresAt : Time) : Time :=
  if expiresAt.after now then expiresAt else now.add minute

def store (order : RangeOrder Str) (now : Time) (c : ReplayCache) (key : Str) (expiresAt : Time) :
    ReplayCache × Bool :=
  if key = [] then (c, false)
  else
    let entries := live c.entries now
    if (entries.lookup key).any (·.after now) then ({ c with entries }, false)
    else
      let entries := evict order now c.maxEntries entries
      ({ c with entries := entries.insert key (deadline now expiresAt) }, true)

/-- The call at `now` does not find the cache full of live entries. -/
def HasRoom (c : ReplayCache) (now : Time) : Prop := (live c.entries now).size < c.maxEntries

instance (c : ReplayCache) (now : Time) : Decidable (c.HasRoom now) :=
  inferInstanceAs (Decidable (_ < _))

def attempt (now : Time) (key : Str) (expiresAt : Time) : Run.Attempt Str Time :=
  ⟨key, now, deadline now expiresAt⟩

theorem lookup_live {entries e k} : (live entries now).lookup k = some e ↔ entries.lookup k = some e ∧ now < e := by
  simp [live]

theorem evict_of_room {order maxEntries entries} (room : entries.size < maxEntries) :
    evict order now maxEntries entries = entries := by
  rw [evict, if_neg (by omega)]

/-- The cache agrees with a table of leases at every instant from `now` on: an entry is a lease,
and a lease that is not an entry has run out. -/
structure Refines (c : ReplayCache) (held : Str → Option Time) (now : Time) : Prop where
  lease : ∀ k e, c.entries.lookup k = some e → held k = some e
  entry : ∀ k e, held k = some e → c.entries.lookup k = some e ∨ e ≤ now

theorem refines_new (maxEntries : Int) (now : Time) : Refines (new maxEntries) Lease.free now := by
  constructor
  · intro k e found
    unfold new at found
    split at found <;> simp at found
  · intro k e held
    simp [Lease.free] at held

section

variable (h : Refines c held now)

include h

theorem Refines.mono {later} (clock : now ≤ later) : Refines c held later :=
  ⟨h.lease, fun k e held => (h.entry k e held).imp_right fun past => le_trans past clock⟩

/-- Deleting expired entries loses no running lease. -/
theorem Refines.live : Refines { c with entries := live c.entries now } held now := by
  constructor
  · intro k e found
    exact h.lease k e (lookup_live.mp found).1
  · intro k e lease
    rcases h.entry k e lease with found | past
    · rcases le_or_gt e now with past | running
      · exact .inr past
      · exact .inl (lookup_live.mpr ⟨found, running⟩)
    · exact .inr past

/-- A running entry is seen by `Store` exactly when the lease runs. -/
theorem Refines.running_iff {key} : ((ReplayCache.live c.entries now).lookup key).any (·.after now) = true ↔
      ∃ e ∈ held key, now < e := by
  rw [Option.any_eq_true]
  constructor
  · rintro ⟨e, found, _⟩
    obtain ⟨found, running⟩ := lookup_live.mp found
    exact ⟨e, h.lease key e found, running⟩
  · rintro ⟨e, lease, running⟩
    rcases h.entry key e lease with found | past
    · exact ⟨e, lookup_live.mpr ⟨found, running⟩, by simpa using running⟩
    · exact absurd running (not_lt.mpr past)

theorem Refines.insert (key : Str) (til : Time) :
    Refines { c with entries := c.entries.insert key til } (Function.update held key (some til))
      now := by
  constructor
  · intro k e found
    rw [lookup_insert_eq] at found
    rw [Function.update_apply]
    split_ifs at found ⊢
    · exact found
    · exact h.lease k e found
  · intro k e lease
    rw [Function.update_apply] at lease
    rw [lookup_insert_eq]
    split_ifs at lease ⊢
    · exact .inl lease
    · exact h.entry k e lease

end

/-- **Main result.** With room, a call of `Store` is an attempt on a lease. -/
theorem store_refines {key : Str}
    (order : RangeOrder Str) (expiresAt : Time) (h : Refines c held now) (named : key ≠ [])
    (room : c.HasRoom now) :
    (store order now c key expiresAt).2 = (Lease.step held (attempt now key expiresAt)).2 ∧
      Refines (store order now c key expiresAt).1 (Lease.step held (attempt now key expiresAt)).1 now := by
  unfold store
  simp only [if_neg named]
  by_cases running : ∃ e ∈ held key, now < e
  · rw [if_pos (h.running_iff.mpr running), Lease.step_running running]
    exact ⟨rfl, h.live⟩
  · rw [if_neg fun hit => running (h.running_iff.mp hit), Lease.step_lapsed running, evict_of_room room]
    exact ⟨rfl, h.live.insert key _⟩

/-- One call of `Store`, with the instant and the order in which it ranges over the map. -/
structure StoreCall where
  key : Str
  expiresAt : Time
  now : Time
  order : RangeOrder Str := default

def call (c : ReplayCache) (s : StoreCall) : ReplayCache × Bool := c.store s.order s.now s.key s.expiresAt

/-- A key that was stored until a deadline ahead is refused before that deadline. -/
def Remembers (c : ReplayCache) (calls : List StoreCall) : Prop :=
  (Run.trace call c calls).Pairwise fun p q => p.2 = true → p.1.now < p.1.expiresAt →
    q.1.key = p.1.key → q.1.now < p.1.expiresAt → q.2 = false

/-- A call that adds a key does not find the cache full of live entries. -/
def Spares (c : ReplayCache) (s : StoreCall) : Prop :=
  s.key = [] ∨ ((live c.entries s.now).lookup s.key).isSome = true ∨ c.HasRoom s.now

instance (c : ReplayCache) (s : StoreCall) : Decidable (c.Spares s) := inferInstanceAs (Decidable (_ ∨ _ ∨ _))

section

variable {s : StoreCall} {k : Str} {e : Time}

/-- Such a call keeps every entry that is live, and refuses its key. -/
theorem Spares.keeps (spares : c.Spares s) (found : c.entries.lookup k = some e) (ahead : s.now < e) :
    (c.call s).1.entries.lookup k = some e ∧ (s.key = k → (c.call s).2 = false) := by
  have kept := lookup_live.mpr ⟨found, ahead⟩
  unfold call store
  dsimp only
  split_ifs with unnamed hit
  · exact ⟨found, fun _ => rfl⟩
  · exact ⟨kept, fun _ => rfl⟩
  · have other : k ≠ s.key := by
      rintro rfl
      exact hit (by simpa [kept] using ahead)
    have room : c.HasRoom s.now := by
      refine (spares.resolve_left unnamed).resolve_left fun live => hit ?_
      obtain ⟨_, live⟩ := Option.isSome_iff_exists.mp live
      simpa [live] using (lookup_live.mp live).2
    rw [evict_of_room room, lookup_insert_eq, if_neg other]
    exact ⟨kept, fun same => absurd same.symm other⟩

theorem lookup_of_stored (stored : (c.call s).2 = true) (ahead : s.now < s.expiresAt) :
    (c.call s).1.entries.lookup s.key = some s.expiresAt := by
  unfold call store at stored ⊢
  dsimp only at stored ⊢
  split_ifs at stored ⊢
  rw [lookup_insert_eq, if_pos rfl, deadline, if_pos (by simpa using ahead)]

theorem lookup_of_spares {calls} (ahead : ∀ s ∈ calls, s.now < e) (spares : Along call Spares c calls)
    (found : c.entries.lookup k = some e) :
    (exec call c calls).entries.lookup k = some e := by
  induction calls generalizing c with
  | nil => exact found
  | cons s rest ih =>
    obtain ⟨first, ahead⟩ := List.forall_mem_cons.mp ahead
    exact ih ahead spares.2 (spares.1.keeps found first).1

end

/-- **Main result.** In every run under a clock that does not run backwards, a key that was stored until a
deadline ahead is refused before that deadline, if the calls in between all spare the live entries. -/
theorem spares_remembers (c : ReplayCache) (before between after : List StoreCall) (s q : StoreCall)
    (clock : (before ++ s :: (between ++ q :: after)).Pairwise fun s t => s.now ≤ t.now)
    (stored : ((exec call c before).call s).2 = true) (ahead : s.now < s.expiresAt)
    (spares : Along call Spares ((exec call c before).call s).1 between)
    (same : q.key = s.key) (early : q.now < s.expiresAt) :
    ((exec call c (before ++ s :: between)).call q).2 = false := by
  have clock := (List.pairwise_cons.mp (List.pairwise_append.mp clock).2.1).2
  have order := (List.pairwise_append.mp clock).2.2
  have early' : ∀ m ∈ between, m.now < s.expiresAt :=
    fun m mem => lt_of_le_of_lt (order m mem q (by simp)) early
  have found := lookup_of_spares early' spares (lookup_of_stored stored ahead)
  rw [exec_append]
  -- the entry is still there, so the call answers no without looking at the bound
  have live := lookup_live.mpr ⟨found, early⟩
  have refuses : Spares (exec call ((exec call c before).call s).1 between) q :=
    .inr (.inl (by rw [same, live]; rfl))
  exact (refuses.keeps found early).2 same

def forAMinute (key : String) : StoreCall := ⟨str key, ⟨minute⟩, .zero, default⟩

/-- A second use of a proof is refused, with another key stored in between. -/
theorem spares_remembers_twice : Along call Spares ((new 2).call (forAMinute "proof")).1 [forAMinute "other"] ∧
    ((exec call (new 2) [forAMinute "proof", forAMinute "other"]).call (forAMinute "proof")).2 = false := by
  have spares : Along call Spares ((new 2).call (forAMinute "proof")).1 [forAMinute "other"] := by decide +kernel
  exact ⟨spares, spares_remembers (new 2) [] [forAMinute "other"] [] (forAMinute "proof") (forAMinute "proof")
    (by decide) (by decide +kernel) (by decide +kernel) spares rfl (by decide +kernel)⟩

/-- One other key pushes a proof out of a cache of one entry, and the proof is taken again. -/
theorem evicted_taken_again :
    [forAMinute "proof", forAMinute "other", forAMinute "proof"].Pairwise (fun s t => s.now ≤ t.now) ∧
      ¬ (new 1).Remembers [forAMinute "proof", forAMinute "other", forAMinute "proof"] := by
  unfold Remembers
  decide +kernel

end ReplayCache

end Authn
