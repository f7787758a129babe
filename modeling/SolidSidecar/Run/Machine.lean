import Mathlib

/-!
# Runs of a deterministic machine

A component is a step function `σ → ι → σ × ο`: a state and an input give the next state and an
output. `exec` is the state after a list of inputs and `trace` the inputs paired with the outputs.
Three rules carry invariants over whole runs: `exec_inv` for what every state satisfies, `run_inv` for
what the states of one run satisfy, and `history_inv` for an invariant that relates the state to
everything that happened before it. `exec_filter` compares a run with the run without some of its
inputs. `Along` is a condition on the steps of a run. `latest` is what the last event of a kind left
behind.
-/

namespace Run
open List

variable {σ ι ο : Type}

def exec (step : σ → ι → σ × ο) (s : σ) (inputs : List ι) : σ :=
  inputs.foldl (fun s i => (step s i).1) s

/-- The inputs of a run, each with the output it got. -/
def trace (step : σ → ι → σ × ο) : σ → List ι → List (ι × ο)
  | _, [] => []
  | s, i :: rest => (i, (step s i).2) :: trace step (step s i).1 rest

variable {step : σ → ι → σ × ο} {s : σ}

@[simp] theorem exec_nil : exec step s [] = s := rfl

@[simp] theorem exec_cons (i : ι) (rest : List ι) : exec step s (i :: rest) = exec step (step s i).1 rest := rfl

theorem exec_append (before after : List ι) : exec step s (before ++ after) = exec step (exec step s before) after :=
  foldl_append

theorem exec_snoc (before : List ι) (i : ι) : exec step s (before ++ [i]) = (step (exec step s before) i).1 := by
  rw [exec_append]
  rfl

theorem trace_append (before after : List ι) : trace step s (before ++ after) =
      trace step s before ++ trace step (exec step s before) after := by
  induction before generalizing s with
  | nil => rfl
  | cons i rest ih => simp [trace, ih]

theorem trace_snoc (before : List ι) (i : ι) : trace step s (before ++ [i]) =
      trace step s before ++ [(i, (step (exec step s before) i).2)] := by
  rw [trace_append]
  rfl

/-- An element of a trace is one step of the run, after the inputs before it. -/
theorem mem_trace {inputs p} (h : p ∈ trace step s inputs) :
    ∃ before after, inputs = before ++ p.1 :: after ∧ p.2 = (step (exec step s before) p.1).2 := by
  induction inputs generalizing s with
  | nil => cases h
  | cons i rest ih =>
    rcases mem_cons.mp h with rfl | later
    · exact ⟨[], rest, rfl, rfl⟩
    · obtain ⟨before, after, split, out⟩ := ih later
      exact ⟨i :: before, after, by rw [split]; rfl, out⟩

/-- What relates every two steps of a run, the earlier one first. -/
theorem pairwise_trace_iff {R inputs} : (trace step s inputs).Pairwise R ↔
      ∀ before a between b after, inputs = before ++ a :: (between ++ b :: after) →
        R (a, (step (exec step s before) a).2) (b, (step (exec step s (before ++ a :: between)) b).2) := by
  constructor
  · rintro pairs before a between b after rfl
    rw [trace_append] at pairs
    have tail := (pairwise_append.mp pairs).2.1
    rw [trace, trace_append] at tail
    have first := (pairwise_cons.mp tail).1
    rw [exec_append]
    exact first _ (mem_append_right _ mem_cons_self)
  · intro pairs
    induction inputs generalizing s with
    | nil => exact .nil
    | cons i rest ih =>
      refine pairwise_cons.mpr ⟨fun q later => ?_, ih fun before a between b after split => ?_⟩
      · obtain ⟨between, after, split, out⟩ := mem_trace later
        have pair := pairs [] i between q.1 after (by rw [split]; rfl)
        rw [nil_append, exec_cons, ← out] at pair
        exact pair
      · exact pairs (i :: before) a between b after (by rw [split]; rfl)

/-- The places of a list are its head and the places of its tail. -/
theorem forall_split_cons {α : Type} {x : α} {l} {Q : List α → α → Prop} :
    (∀ before e after, x :: l = before ++ e :: after → Q before e) ↔
      Q [] x ∧ ∀ before e after, l = before ++ e :: after → Q (x :: before) e := by
  constructor
  · exact fun all => ⟨all [] x l rfl, fun before e after split => all (x :: before) e after (by rw [split]; rfl)⟩
  · rintro ⟨here, later⟩ before e after split
    cases before with
    | nil =>
      cases split
      exact here
    | cons _ before =>
      cases split
      exact later before e after rfl

/-- Every step of a run meets a condition on the input and the state before it. -/
def Along (step : σ → ι → σ × ο) (P : σ → ι → Prop) : σ → List ι → Prop
  | _, [] => True
  | s, i :: rest => P s i ∧ Along step P (step s i).1 rest

instance Along.decidable {P : σ → ι → Prop} [∀ s i, Decidable (P s i)] :
    ∀ (s : σ) (inputs : List ι), Decidable (Along step P s inputs)
  | _, [] => inferInstanceAs (Decidable True)
  | s, i :: rest =>
    @instDecidableAnd _ _ inferInstance (Along.decidable (step s i).1 rest)

theorem along_iff {P inputs} : Along step P s inputs ↔
      ∀ before i after, inputs = before ++ i :: after → P (exec step s before) i := by
  induction inputs generalizing s with
  | nil => simp [Along]
  | cons i rest ih =>
    rw [Along, ih, forall_split_cons]
    rfl

/-- What the last event of a history that has an effect left behind. -/
def latest {β α : Type} (effect : β → Option α) (history : List β) : Option α :=
  history.reverse.findSome? effect

theorem latest_snoc {β α} (effect : β → Option α) (history : List β) (e : β) :
    latest effect (history ++ [e]) = (effect e).or (latest effect history) := by
  unfold latest
  cases effected : effect e <;> simp [effected]

/-- A state property that every step keeps holds after every run. -/
theorem exec_inv {Inv : σ → Prop} (keep : ∀ s i, Inv s → Inv (step s i).1) (start : Inv s)
    (inputs : List ι) : Inv (exec step s inputs) := by
  induction inputs generalizing s with
  | nil => exact start
  | cons i rest ih => exact ih (keep s i start)

/-- An invariant of the state and its history: it holds before the run and each further input of
the run keeps it, hence it holds after every initial part of the run. -/
theorem history_inv {Inv : List (ι × ο) → σ → Prop} {inputs} (start : Inv [] s)
    (keep : ∀ before i after, inputs = before ++ i :: after → Inv (trace step s before) (exec step s before) →
      Inv (trace step s before ++ [(i, (step (exec step s before) i).2)]) (step (exec step s before) i).1) :
    ∀ before after, inputs = before ++ after → Inv (trace step s before) (exec step s before) := by
  intro before
  induction before using reverseRecOn with
  | nil => intro _ _; exact start
  | append_singleton before i ih =>
    intro after split
    rw [trace_snoc, exec_snoc]
    have longer : inputs = before ++ i :: after := by rw [split]; simp
    exact keep before i after longer (ih (i :: after) longer)

/-- A state property that every step of a run keeps holds after every initial part of that run. -/
theorem run_inv {Inv : σ → Prop} {inputs} (start : Inv s) (keep : ∀ before i after, inputs = before ++ i :: after →
      Inv (exec step s before) → Inv (step (exec step s before) i).1) :
    ∀ before after, inputs = before ++ after → Inv (exec step s before) :=
  @history_inv σ ι ο step s (fun _ s => Inv s) inputs start keep

/-- Unwinding: a run is related to the run without some of its inputs, if an input that is kept keeps
two related states related and one that is left out keeps the state of the whole run related. -/
theorem exec_filter {keep} {R : σ → σ → Prop} {inputs} (start : R s s)
    (both : ∀ before i after, inputs = before ++ i :: after → keep i = true →
      R (exec step s before) (exec step s (before.filter keep)) →
      R (step (exec step s before) i).1 (step (exec step s (before.filter keep)) i).1)
    (skip : ∀ before i after, inputs = before ++ i :: after → keep i = false →
      R (exec step s before) (exec step s (before.filter keep)) →
      R (step (exec step s before) i).1 (exec step s (before.filter keep))) :
    R (exec step s inputs) (exec step s (inputs.filter keep)) := by
  suffices every : ∀ before after, inputs = before ++ after →
      R (exec step s before) (exec step s (before.filter keep)) by
    exact every inputs [] (append_nil _).symm
  intro before
  induction before using reverseRecOn with
  | nil => exact fun _ _ => start
  | append_singleton before i ih =>
    intro after split
    have longer : inputs = before ++ i :: after := by rw [split]; simp
    have related := ih (i :: after) longer
    rw [filter_append, exec_snoc]
    cases kept : keep i with
    | true =>
      rw [filter_cons_of_pos kept, filter_nil, exec_snoc]
      exact both before i after longer kept related
    | false =>
      rw [filter_cons_of_neg (by simp [kept]), filter_nil, append_nil]
      exact skip before i after longer kept related

end Run
