import SolidSidecar.Go.Order

/-!
# Records as JSON objects

JSON values, with their text left aside. An encoder writes a record as the members that its fields
have, in the order of the fields (`members`); a derived decoder with unknown fields denied takes an
object whose names are known and distinct (`closedObject`) and reads each field by its name. The
lemmas about `members` are what a round trip rests on: the names are those of the fields, and a field
is found under its name.
-/

namespace Serde
open Go List Option

inductive Value where
  | null
  | bool (b : Bool)
  | number (n : Int)
  | string (s : Str)
  | array (items : List Value)
  | object (members : List (Str × Value))

section Encode

variable {F : Type}

/-- The members of a record: each field that has a value, under its name. -/
def members (name : F → Str) (value : F → Option Value) (fields : List F) : List (Str × Value) :=
  fields.filterMap fun f => (value f).map fun v => (name f, v)

variable {name : F → Str} {value : F → Option Value} {fields : List F}

theorem mem_names {s} : s ∈ (members name value fields).map Prod.fst ↔
      ∃ f ∈ fields, (value f).isSome = true ∧ name f = s := by
  simp only [members, map_filterMap, mem_filterMap, Option.map_map, map_eq_some_iff, isSome_iff_exists]
  constructor
  · rintro ⟨f, hf, v, present, rfl⟩
    exact ⟨f, hf, ⟨v, present⟩, rfl⟩
  · rintro ⟨f, hf, ⟨v, present⟩, rfl⟩
    exact ⟨f, hf, v, present, rfl⟩

theorem nodup_names (inj : Function.Injective name) (distinct : fields.Nodup) :
    ((members name value fields).map Prod.fst).Nodup := by
  have part : ((members name value fields).map Prod.fst).Sublist (fields.map name) := by
    unfold members
    induction fields with
    | nil => exact Sublist.refl _
    | cons f rest ih =>
      have tail := ih (nodup_cons.mp distinct).2
      cases present : value f with
      | none => simpa [present] using tail.cons (name f)
      | some v => simpa [present] using tail.cons_cons (name f)
  exact (distinct.map inj).sublist part

theorem lookup_members_eq [DecidableEq F] (inj : Function.Injective name) (f : F) :
    (members name value fields).lookup (name f) = if f ∈ fields then value f else none := by
  unfold members
  induction fields with
  | nil => rfl
  | cons g rest ih =>
    by_cases same : f = g
    · subst same
      cases present : value f with
      | some v => simp [present]
      | none => simp [present, ih]
    · have other : (name f == name g) = false := beq_eq_false_iff_ne.mpr fun eq => same (inj eq)
      cases present : value g with
      | none => simp [present, ih, same]
      | some v => simp [present, ih, same, lookup_cons, other]

theorem lookup_members [DecidableEq F] (inj : Function.Injective name) {f} (known : f ∈ fields) :
    (members name value fields).lookup (name f) = value f := by
  rw [lookup_members_eq inj, if_pos known]

end Encode

section Decode

variable {α : Type}

/-- The members of an object with known and distinct names. -/
def closedObject (known : List Str) : Value → Option (List (Str × Value))
  | .object ms =>
    if (ms.map Prod.fst).Nodup ∧ ∀ s ∈ ms.map Prod.fst, s ∈ known then some ms else none
  | _ => none

/-- An encoded record is taken when its fields with unknown names have no value. -/
theorem closedObject_members {F name fields}
    (inj : Function.Injective name) (distinct : fields.Nodup) (known : List Str)
    (value : F → Option Value) {ms} :
    closedObject known (.object (members name value fields)) = some ms ↔
      (∀ f ∈ fields, name f ∉ known → value f = none) ∧ members name value fields = ms := by
  have names : (∀ s ∈ (members name value fields).map Prod.fst, s ∈ known) ↔
      ∀ f ∈ fields, name f ∉ known → value f = none := by
    constructor
    · intro all f mem unknown
      by_contra present
      exact unknown (all _ (mem_names.mpr ⟨f, mem, isSome_iff_ne_none.mpr present, rfl⟩))
    · intro all s mem
      obtain ⟨f, hf, present, rfl⟩ := mem_names.mp mem
      by_contra unknown
      exact isSome_iff_ne_none.mp present (all f hf unknown)
  simp only [closedObject, nodup_names inj distinct]
  split <;> simp_all

def asString : Value → Option Str
  | .string s => some s
  | _ => none

def asU64 : Value → Option (Fin (2 ^ 64))
  | .number n => if h : 0 ≤ n ∧ n < 2 ^ 64 then some ⟨n.toNat, by omega⟩ else none
  | _ => none

def asList (item : Value → Option α) : Value → Option (List α)
  | .array items => items.mapM item
  | _ => none

/-- A map with string values; of two members with one name the later one stays. -/
def asMap : Value → Option (GoMap Str Str)
  | .object ms => do
    let pairs ← ms.mapM fun m => (asString m.2).map fun s => (m.1, s)
    return GoMap.ofPairs pairs
  | _ => none

def required (read : Value → Option α) (ms : List (Str × Value)) (name : Str) : Option α :=
  (ms.lookup name).bind read

/-- A field of an `Option` type: absent and null are nothing. -/
def nullable (read : Value → Option α) (ms : List (Str × Value)) (name : Str) : Option (Option α) :=
  match ms.lookup name with
  | none | some .null => some none
  | some v => (read v).map some

def defaulted (read : Value → Option α) (standard : α) (ms : List (Str × Value)) (name : Str) : Option α :=
  match ms.lookup name with
  | none => some standard
  | some v => read v

/-- Reading a field of an encoded record reads the value the field was encoded with. -/
theorem required_members {F} [DecidableEq F] {name : F → Str} {value fields}
    (inj : Function.Injective name) {f} (known : f ∈ fields) (read : Value → Option α) :
    required read (members name value fields) (name f) = (value f).bind read := by
  rw [required, lookup_members inj known]

/-- A list whose items are encoded one by one is read item by item. -/
theorem asList_map {β : Type} {item : Value → Option α} {encode} {l : List β}
    {read} (each : ∀ b ∈ l, item (encode b) = some (read b)) :
    asList item (.array (l.map encode)) = some (l.map read) := by
  unfold asList
  induction l with
  | nil => rfl
  | cons b rest ih =>
    obtain ⟨first, others⟩ := forall_mem_cons.mp each
    simp [first, ih others]

theorem isSome_of_asList_map {β : Type} {item : Value → Option α} {encode} {l : List β}
    {out} (taken : asList item (.array (l.map encode)) = some out) :
    ∀ b ∈ l, (item (encode b)).isSome = true := by
  unfold asList at taken
  induction l generalizing out with
  | nil => simp
  | cons b rest ih =>
    simp only [map_cons, mapM_cons, bind_eq_bind, bind_eq_some_iff] at taken
    obtain ⟨_, first, _, later, _⟩ := taken
    exact forall_mem_cons.mpr ⟨by simp [first], ih later⟩

theorem asMap_inOrder (m : GoMap Str Str) : asMap (.object (m.inOrder.map fun kv => (kv.1, .string kv.2))) =
      some (GoMap.ofPairs m.inOrder) := by
  have read (pairs : List (Str × Str)) : (pairs.map fun kv => (kv.1, Value.string kv.2)).mapM
        (fun m => (asString m.2).map fun s => (m.1, s)) = some pairs := by
    induction pairs with
    | nil => rfl
    | cons kv rest ih =>
      rw [map_cons, mapM_cons, ih]
      rfl
  simp [asMap, read]

theorem asU64_number {n} (low : 0 ≤ n) (high : n < 2 ^ 64) : asU64 (.number n) = some ⟨n.toNat, by omega⟩ := by
  simp only [asU64, low, high, and_self, dite_true]

end Decode

end Serde
