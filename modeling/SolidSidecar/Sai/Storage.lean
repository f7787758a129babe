import SolidSidecar.Go.Heap
import SolidSidecar.Go.Map
import SolidSidecar.Sai.Types

/-!
# The in-memory storage

`InMemorySAIStorage` keeps pointers by id and, for most kinds of values, a second index with the ids
of a user. The kinds differ in the fields they are filed under, in the copy that a reader gets, and
in whether there is an index: they are one table with these as parameters. Storing keeps the pointer
it is given, and a registration of an application is handed out as the pointer that is kept.
-/

namespace Sai
open Go Option

/-- What tells one kind of stored values from another. -/
structure Kind (α : Type) where
  name : String
  id : α → Str
  user : α → Str
  /-- The copy function, or nothing where the stored pointer itself is returned. -/
  copy : Option (α → α)
  /-- There is an index by user. -/
  indexed : Bool

variable {α : Type}

def Kind.copied (k : Kind α) (v : α) : α :=
  match k.copy with
  | none => v
  | some f => f v

/-- "SAI storage failed: KIND cannot be nil", "SAI storage failed: KIND ID cannot be empty" and "SAI resource not
found: KIND not found: ID". -/
inductive StorageError where
  | cannotBeNil (kind : String)
  | idCannotBeEmpty (kind : String)
  | notFound (kind : String) (id : Str)
  deriving DecidableEq, Repr

/-- The values of one kind: the structs that callers and storage share, the pointers by id, and the
ids by user. -/
structure Table (α : Type) where
  heap : Heap α := {}
  values : GoMap Str Ref := ∅
  byUser : GoMap Str (List Str) := ∅

namespace Table

variable (k : Kind α) (t : Table α)

def index (user : Str) : List Str := (t.byUser.lookup user).getD []

def stored (id : Str) : Option α := (t.values.lookup id).bind t.heap.read

def withIndexed (user id : Str) : GoMap Str (List Str) :=
  if k.indexed then t.byUser.insert user (t.index user ++ [id]) else t.byUser

def store (ref : Option Ref) : Table α × Option StorageError :=
  match ref.bind fun r => (t.heap.read r).map fun v => (r, v) with
  | none => (t, some (.cannotBeNil k.name))
  | some (r, v) =>
    if k.id v = [] then (t, some (.idCannotBeEmpty k.name))
    else ({ t with
      values := t.values.insert (k.id v) r
      byUser := t.withIndexed k (k.user v) (k.id v) }, none)

/-- The pointer that is handed out for a stored one. -/
def copyOut (h : Heap α) (r : Ref) : Heap α × Ref :=
  match k.copy, h.read r with
  | some f, some v => h.alloc (f v)
  | _, _ => (h, r)

def get (id : Str) : Table α × Except StorageError Ref :=
  match t.values.lookup id with
  | none => (t, .error (.notFound k.name id))
  | some r => ({ t with heap := (copyOut k t.heap r).1 }, .ok (copyOut k t.heap r).2)

/-- The loop over ids: a copy for each, and nil where nothing is stored. -/
def copyAll (k : Kind α) (values : GoMap Str Ref) : Heap α → List Str → Heap α × List (Option Ref)
  | h, [] => (h, [])
  | h, id :: rest =>
    match values.lookup id with
    | none => ((copyAll k values h rest).1, none :: (copyAll k values h rest).2)
    | some r =>
      let copied := copyOut k h r
      ((copyAll k values copied.1 rest).1, some copied.2 :: (copyAll k values copied.1 rest).2)

/-- `List…`: the ids of the user, or everything in the order of `range` where there is no index. -/
def list (order : RangeOrder Str) (user : Str) : Table α × List (Option Ref) :=
  let ids := if k.indexed then t.index user else order.visit t.values.keys
  ({ t with heap := (copyAll k t.values t.heap ids).1 }, (copyAll k t.values t.heap ids).2)

/-- The index after one entry of the id is taken out for a user who has one. -/
def withoutIndexed (user id : Str) : GoMap Str (List Str) :=
  if k.indexed && (t.byUser.lookup user).isSome then t.byUser.insert user ((t.index user).erase id)
  else t.byUser

/-- `Delete…`; the user is read from the stored struct. -/
def delete (id : Str) : Table α × Option StorageError :=
  match t.stored id with
  | none => (t, some (.notFound k.name id))
  | some v => ({ t with
      values := t.values.erase id
      byUser := t.withoutIndexed k (k.user v) id }, none)

end Table

def applicationRegistrations : Kind ApplicationRegistration where
  name := "application registration"
  id := (·.id)
  user := (·.registeredBy)
  copy := none
  indexed := true

def accessGrants : Kind AccessGrant where
  name := "access grant"
  id := (·.id)
  user := (·.fromAgent)
  copy := some copyAccessGrant
  indexed := true

def dataRegistrations : Kind DataRegistration where
  name := "data registration"
  id := (·.id)
  user := (·.registeredBy)
  copy := some copyDataRegistration
  indexed := true

/-- Data grants are filed by id only; the user they belong to is their owner. -/
def dataGrants : Kind DataGrant where
  name := "data grant"
  id := (·.id)
  user := (·.dataOwner)
  copy := some copyDataGrant
  indexed := false

/-- `InMemorySAIStorage`, without the kinds that nothing here reads. Applications and data instances
only come from the service, which does not touch them again, and are kept by value. -/
structure InMemorySAIStorage where
  applications : GoMap Str Application := ∅
  applicationRegistrations : Table ApplicationRegistration := {}
  accessGrants : Table AccessGrant := {}
  dataRegistrations : Table DataRegistration := {}
  dataGrants : Table DataGrant := {}
  dataInstances : GoMap Str DataInstance := ∅

namespace Table

variable {k : Kind α} {t : Table α}

theorem index_withIndexed (indexed : k.indexed = true) (user user' id : Str) :
    (({ t with byUser := t.withIndexed k user id } : Table α).index user') =
      if user' = user then t.index user ++ [id] else t.index user' := by
  simp only [index, withIndexed, if_pos indexed, GoMap.lookup_insert_eq]
  split_ifs <;> rfl

theorem copyOut_extends (k : Kind α) (h : Heap α) (r : Ref) : h.Extends (copyOut k h r).1 := by
  unfold copyOut
  split
  · exact h.extends_alloc _
  · exact .refl h

theorem read_copyOut {h r v} (found : h.read r = some v) :
    (copyOut k h r).1.read (copyOut k h r).2 = some (k.copied v) := by
  unfold copyOut Kind.copied
  rw [found]
  cases k.copy with
  | none => exact found
  | some f => exact h.read_alloc (f v)

theorem copyAll_extends (k : Kind α) (values : GoMap Str Ref) (h : Heap α) (ids : List Str) :
    h.Extends (copyAll k values h ids).1 := by
  induction ids generalizing h with
  | nil => exact .refl h
  | cons id rest ih =>
    unfold copyAll
    split
    · exact ih h
    · rename_i r _
      exact (copyOut_extends k h r).trans (ih _)

/-- The list that is handed out, read: what is stored under each id, copied. -/
theorem read_copyAll {values h} (ids : List Str)
    (pointed : ∀ id r, values.lookup id = some r → (h.read r).isSome = true) :
    (copyAll k values h ids).2.map (fun ref => ref.bind (copyAll k values h ids).1.read) =
      ids.map fun id => ((values.lookup id).bind h.read).map k.copied := by
  induction ids generalizing h with
  | nil => rfl
  | cons id rest ih =>
    unfold copyAll
    split
    · rename_i absent
      simp [absent, ih pointed]
    · rename_i r found
      obtain ⟨_, here⟩ := isSome_iff_exists.mp (pointed id r found)
      have grown := copyOut_extends k h r
      have pointed' : ∀ id r', values.lookup id = some r' → ((copyOut k h r).1.read r').isSome = true := by
        intro id r' found'
        obtain ⟨w, old⟩ := isSome_iff_exists.mp (pointed id r' found')
        exact isSome_iff_exists.mpr ⟨w, grown r' w old⟩
      have later : (copyOut k h r).1.Extends (copyAll k values (copyOut k h r).1 rest).1 :=
        copyAll_extends k values _ rest
      have first := later _ _ (read_copyOut here)
      simp only [List.map_cons, bind_some, found, here, ih pointed']
      congr 1
      refine List.map_congr_left fun id' _ => ?_
      cases found' : values.lookup id' with
      | none => rfl
      | some r' =>
        obtain ⟨w, old⟩ := isSome_iff_exists.mp (pointed id' r' found')
        rw [bind_some, bind_some, old, grown r' w old]

end Table

end Sai
