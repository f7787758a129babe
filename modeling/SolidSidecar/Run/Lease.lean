import SolidSidecar.Run.Machine

/-!
# Leases

A key is leased until a deadline. An attempt on a key is granted when no lease on it is still
running, and a granted attempt starts a new lease. With a clock that does not run backwards, a key
is granted at most once exactly when the lease of its first attempt covers every later attempt:
`exclusive_iff_covered`.
-/

namespace Run
open List

/-- An attempt on `key` at the instant `now`, for a lease until `til`. -/
structure Attempt (κ τ : Type) where
  key : κ
  now : τ
  til : τ
  deriving DecidableEq, Repr

namespace Lease

variable {κ τ : Type} [DecidableEq κ] [LinearOrder τ]

variable (attempts : List (Attempt κ τ))

/-- One attempt: the deadlines after it, and whether it was granted. -/
def step (held : κ → Option τ) (a : Attempt κ τ) : (κ → Option τ) × Bool :=
  if ∃ deadline ∈ held a.key, a.now < deadline then (held, false)
  else (Function.update held a.key (some a.til), true)

def free : κ → Option τ := fun _ => none

def Exclusive : Prop :=
  (trace step free attempts).Pairwise fun p q => p.2 = true → q.2 = true → p.1.key ≠ q.1.key

/-- The lease of a key's first attempt runs longer than every later attempt on that key. -/
def Covered : Prop :=
  ∀ before a between b after, attempts = before ++ a :: (between ++ b :: after) →
    (∀ p ∈ before, p.key ≠ a.key) → b.key = a.key → b.now < a.til

def Ordered : Prop := attempts.Pairwise fun a b => a.now ≤ b.now

variable {held : κ → Option τ} {a : Attempt κ τ}

theorem step_running (h : ∃ deadline ∈ held a.key, a.now < deadline) : step held a = (held, false) :=
  if_pos h

theorem step_lapsed (h : ¬ ∃ deadline ∈ held a.key, a.now < deadline) :
    step held a = (Function.update held a.key (some a.til), true) :=
  if_neg h

theorem step_granted (h : (step held a).2 = true) : (∀ deadline, held a.key = some deadline → deadline ≤ a.now) ∧
      (step held a).1 = Function.update held a.key (some a.til) := by
  by_cases running : ∃ deadline ∈ held a.key, a.now < deadline
  · rw [step_running running] at h
    cases h
  · rw [step_lapsed running]
    refine ⟨fun deadline lease => ?_, rfl⟩
    exact not_lt.mp fun later => running ⟨deadline, lease, later⟩

theorem step_refused (h : (step held a).2 = false) :
    (∃ deadline, held a.key = some deadline ∧ a.now < deadline) ∧ (step held a).1 = held := by
  by_cases running : ∃ deadline ∈ held a.key, a.now < deadline
  · rw [step_running running]
    exact ⟨running, rfl⟩
  · rw [step_lapsed running] at h
    cases h

/-- What the deadlines say about the attempts made so far: a lease that is held was granted, and
the lease of every granted attempt is held or has run out by the last attempt's instant. -/
structure Recorded (history : List (Attempt κ τ × Bool)) (held : κ → Option τ) : Prop where
  granted : ∀ k deadline, held k = some deadline → ∃ p ∈ history, p.2 = true ∧ p.1.key = k ∧ p.1.til = deadline
  kept : ∀ p ∈ history, p.2 = true → held p.1.key = some p.1.til ∨ ∃ q ∈ history, p.1.til ≤ q.1.now

theorem Recorded.snoc {history} (h : Recorded history held) :
    Recorded (history ++ [(a, (step held a).2)]) (step held a).1 := by
  cases result : (step held a).2 with
  | false =>
    obtain ⟨_, same⟩ := step_refused result
    rw [same]
    constructor
    · intro k deadline lease
      obtain ⟨p, mem, facts⟩ := h.granted k deadline lease
      exact ⟨p, mem_append_left _ mem, facts⟩
    · intro p mem success
      rcases mem_append.mp mem with old | new
      · rcases h.kept p old success with lease | ⟨q, earlier, lapsed⟩
        · exact .inl lease
        · exact .inr ⟨q, mem_append_left _ earlier, lapsed⟩
      · rw [mem_singleton] at new
        rw [new] at success
        cases success
  | true =>
    obtain ⟨lapsed, next⟩ := step_granted result
    rw [next]
    constructor
    · intro k deadline lease
      by_cases same : k = a.key
      · subst same
        rw [Function.update_self] at lease
        exact ⟨(a, true), by simp, rfl, rfl, Option.some.inj lease⟩
      · rw [Function.update_of_ne same] at lease
        obtain ⟨p, mem, facts⟩ := h.granted k deadline lease
        exact ⟨p, mem_append_left _ mem, facts⟩
    · intro p mem success
      rcases mem_append.mp mem with old | new
      · rcases h.kept p old success with lease | ⟨q, earlier, past⟩
        · by_cases same : p.1.key = a.key
          -- the new lease replaces an old one, which has run out by now
          · exact .inr ⟨(a, true), by simp, lapsed _ (same ▸ lease)⟩
          · exact .inl (by rw [Function.update_of_ne same]; exact lease)
        · exact .inr ⟨q, mem_append_left _ earlier, past⟩
      · rw [mem_singleton] at new
        subst new
        exact .inl (by rw [Function.update_self])

theorem recorded : Recorded (trace step free attempts) (exec step free attempts) := by
  have start : Recorded ([] : List (Attempt κ τ × Bool)) free :=
    ⟨fun _ _ lease => by simp [free] at lease, fun _ mem => by simp at mem⟩
  exact history_inv start (fun _ _ _ _ inv => inv.snoc) attempts [] (append_nil attempts).symm

theorem first_granted {before} (first : ∀ p ∈ before, p.key ≠ a.key) : (step (exec step free before) a).2 = true := by
  cases result : (step _ a).2 with
  | true => rfl
  | false =>
    obtain ⟨⟨_, lease, _⟩, _⟩ := step_refused result
    obtain ⟨p, mem, _, same, _⟩ := (recorded before).granted _ _ lease
    obtain ⟨_, _, split, _⟩ := mem_trace mem
    exact absurd same (first p.1 (by rw [split]; simp))

/-- Between two grants of one key the first lease has run out. -/
theorem til_le_of_granted {before between after : List (Attempt κ τ)} {a b}
    (clock : Ordered (before ++ a :: (between ++ b :: after))) (same : b.key = a.key)
    (first : (step (exec step free before) a).2 = true)
    (second : (step (exec step free (before ++ a :: between)) b).2 = true) : a.til ≤ b.now := by
  have mem : (a, true) ∈ trace step free (before ++ a :: between) := by
    rw [trace_append, trace, first]
    simp
  rcases (recorded _).kept _ mem rfl with lease | ⟨q, earlier, past⟩
  · exact (step_granted second).1 _ (by rw [same]; exact lease)
  · obtain ⟨_, _, split, _⟩ := mem_trace earlier
    have inside : q.1 ∈ before ++ a :: between := by rw [split]; simp
    have reordered : before ++ a :: (between ++ b :: after) = (before ++ a :: between) ++ b :: after := by simp
    rw [Ordered, reordered, pairwise_append] at clock
    exact le_trans past (clock.2.2 q.1 inside b mem_cons_self)

omit [LinearOrder τ] in
/-- The first attempt on the key of an attempt: it is the attempt itself or one before it. -/
theorem exists_first (before : List (Attempt κ τ)) (a : Attempt κ τ) : (∀ p ∈ before, p.key ≠ a.key) ∨
      ∃ pre b post, before = pre ++ b :: post ∧ b.key = a.key ∧ ∀ p ∈ pre, p.key ≠ b.key := by
  cases found : before.find? (fun p => p.key = a.key) with
  | none =>
    refine .inl fun p mem => ?_
    simpa using List.find?_eq_none.mp found p mem
  | some b =>
    obtain ⟨hit, pre, post, split, miss⟩ := List.find?_eq_some_iff_append.mp found
    have same : b.key = a.key := by simpa using hit
    refine .inr ⟨pre, b, post, split, same, fun p mem => ?_⟩
    rw [same]
    simpa using miss p mem

theorem exclusive_of_covered {attempts : List (Attempt κ τ)} (clock : Ordered attempts)
    (covered : Covered attempts) : Exclusive attempts := by
  refine pairwise_trace_iff.mpr fun before a between b after split first second same => ?_
  have twice := til_le_of_granted (split ▸ clock) same.symm first second
  rcases exists_first before a with absent | ⟨pre, c, post, inside, hit, absent⟩
  · exact absurd (covered before a between b after split absent same.symm) (not_lt.mpr twice)
  -- the first attempt `c` is granted, so its lease has run out when `a` is granted
  · have longer : attempts = pre ++ c :: (post ++ a :: (between ++ b :: after)) := by
      rw [split, inside]; simp
    have covers := covered pre c post a _ longer absent hit.symm
    have lapsed := til_le_of_granted (longer ▸ clock) hit.symm (first_granted absent) (inside ▸ first)
    exact absurd covers (not_lt.mpr lapsed)

theorem covered_of_exclusive {attempts : List (Attempt κ τ)} (exclusive : Exclusive attempts) : Covered attempts := by
  intro before a between b after split absent same
  have first := first_granted absent
  have pair := pairwise_trace_iff.mp exclusive before a between b after split first
  cases second : (step _ b).2 with
  | true => exact absurd same.symm (pair second)
  | false =>
    obtain ⟨⟨_, lease, running⟩, _⟩ := step_refused second
    obtain ⟨p, mem, granted, key, til⟩ := (recorded _).granted _ _ lease
    obtain ⟨_, post, place, out⟩ := mem_trace mem
    rw [granted] at out
    -- `p` is granted on the same key, hence it is `a`
    rcases append_eq_append_iff.mp place with ⟨mid, rfl, rest⟩ | ⟨mid, rfl, rest⟩
    · cases mid with
      | nil =>
        have here : a = p.1 := (cons.inj rest).1
        rw [here, til]
        exact running
      | cons c mid =>
        obtain ⟨rfl, rfl⟩ := cons.inj rest
        have longer : attempts = before ++ a :: (mid ++ p.1 :: (post ++ b :: after)) := by
          rw [split]; simp
        have clash := pairwise_trace_iff.mp exclusive before a mid p.1 _ longer first out.symm
        exact absurd (key.trans same).symm clash
    · cases mid with
      | nil =>
        have here : p.1 = a := (cons.inj rest).1
        rw [← here, til]
        exact running
      | cons c mid =>
        obtain ⟨rfl, rfl⟩ := cons.inj rest
        exact absurd (key.trans same) (absent p.1 (by simp))

/-- **Main result.** A key is granted at most once exactly when the lease of its first attempt
covers the later ones. -/
theorem exclusive_iff_covered {attempts : List (Attempt κ τ)} (clock : Ordered attempts) :
    Exclusive attempts ↔ Covered attempts :=
  ⟨covered_of_exclusive, exclusive_of_covered clock⟩

end Lease

end Run
