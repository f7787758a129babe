import SolidSidecar.Go.Http

/-!
# Response writers of `net/http`

What a handler does to a `http.ResponseWriter` is a list of calls: changes of the header map,
`WriteHeader` and `Write`. A server's writer takes the status and the header map of the first
`WriteHeader`, which the first `Write` calls with 200 if the handler did not.
-/

namespace Go.Http

namespace Header

def set (h : Header) (key value : Str) : Header := h.insert (canonicalHeaderKey key) [value]

def add (h : Header) (key value : Str) : Header :=
  h.insert (canonicalHeaderKey key) (h.values key ++ [value])

def del (h : Header) (key : Str) : Header := h.erase (canonicalHeaderKey key)

/-- Assign the entries of another map, in the order of `range`, but for some keys. -/
def assign (order : RangeOrder (Str × List Str)) (skip : Str → Bool) (h source : Header) : Header :=
  (order.visit source.pairs).foldl (fun h p => if skip p.1 then h else h.insert p.1 p.2) h

theorem values_eq {key} (canonical : canonicalHeaderKey key = key) (h : Header) :
    h.values key = (h.lookup key).getD [] := by
  unfold values
  rw [canonical]

theorem get_eq {key} (canonical : canonicalHeaderKey key = key) (h : Header) :
    h.get key = ((h.lookup key).getD []).headD [] := by
  rw [get, values_eq canonical]

theorem lookup_set {key name} (canonical : canonicalHeaderKey key = name) (h : Header) (value : Str)
    (other : Str) : (h.set key value).lookup other = if other = name then some [value] else h.lookup other := by
  rw [set, canonical, GoMap.lookup_insert_eq]

theorem lookup_del {key name} (canonical : canonicalHeaderKey key = name) (h : Header) (other : Str) :
    (h.del key).lookup other = if other = name then none else h.lookup other := by
  rw [del, canonical, GoMap.lookup_erase_eq]

def Same (h h' : Header) : Prop := ∀ key, h.lookup key = h'.lookup key

theorem Same.refl (h : Header) : Same h h := fun _ => rfl

theorem lookup_foldl (skip : Str → Bool) (l : List (Str × List Str)) (nodup : (l.map Prod.fst).Nodup)
    (h : Header) (key : Str) :
    (l.foldl (fun h p => if skip p.1 then h else h.insert p.1 p.2) h).lookup key =
      match l.find? (fun p => p.1 = key && !skip p.1) with
      | some p => some p.2
      | none => h.lookup key := by
  induction l generalizing h with
  | nil => rfl
  | cons p rest ih =>
    obtain ⟨out, nodup⟩ := List.nodup_cons.mp nodup
    rw [List.foldl_cons, ih nodup]
    by_cases here : p.1 = key
    · -- no later entry has the key
      have later : rest.find? (fun p => p.1 = key && !skip p.1) = none := by
        rw [List.find?_eq_none]
        intro q mem
        have apart : q.1 ≠ key := fun same => out (here ▸ same ▸ List.mem_map_of_mem mem)
        simp [apart]
      rw [later]
      cases skipped : skip p.1 with
      | true => simp [later, skipped]
      | false => simp [here, here ▸ skipped]
    · have apart : key ≠ p.1 := .symm here
      have unchanged : (if skip p.1 then h else h.insert p.1 p.2).lookup key = h.lookup key := by
        split_ifs
        · rfl
        · rw [GoMap.lookup_insert_eq, if_neg apart]
      simp [here, unchanged]

theorem lookup_assign (order : RangeOrder (Str × List Str)) (skip : Str → Bool) (h source : Header) (key : Str) :
    (assign order skip h source).lookup key =
      if skip key then h.lookup key else (source.lookup key).or (h.lookup key) := by
  have nodup : ((order.visit source.pairs).map Prod.fst).Nodup :=
    ((order.perm source.pairs).map Prod.fst).nodup_iff.mpr source.pairs_nodup_keys
  rw [assign, lookup_foldl skip _ nodup]
  cases found : (order.visit source.pairs).find? (fun p => p.1 = key && !skip p.1) with
  | some p =>
    obtain ⟨here, kept⟩ : p.1 = key ∧ skip p.1 = false := by simpa using List.find?_some found
    subst here
    have mem := order.mem_visit.mp (List.mem_of_find?_eq_some found)
    rw [if_neg (by simp [kept]), GoMap.mem_pairs.mp mem]
    rfl
  | none =>
    rw [List.find?_eq_none] at found
    cases skipped : skip key with
    | true => simp
    | false =>
      have absent : source.lookup key = none := by
        cases there : source.lookup key with
        | none => rfl
        | some values =>
          have mem := order.mem_visit.mpr (GoMap.mem_pairs.mpr there)
          exact absurd (found _ mem) (by simp [skipped])
      simp [absent]

end Header

inductive Change where
  | set (key value : Str)
  | add (key value : Str)
  | del (key : Str)
  deriving DecidableEq, Repr

def Change.apply (h : Header) : Change → Header
  | .set key value => h.set key value
  | .add key value => h.add key value
  | .del key => h.del key

/-- A call that a handler makes on its response writer. -/
inductive Call where
  | change (c : Change)
  | writeHeader (status : Int)
  | write (b : Str)
  deriving DecidableEq, Repr

def Call.isChange : Call → Bool
  | .change _ => true
  | .writeHeader _ | .write _ => false

structure Response where
  status : Int
  header : Header
  body : Str

structure Writer where
  header : Header := ∅
  sent : Option (Int × Header) := none
  body : Str := []

namespace Writer

variable (w : Writer)

def writeHeader (status : Int) : Writer :=
  if w.sent.isSome then w else { w with sent := some (status, w.header) }

def write (b : Str) : Writer := { w.writeHeader 200 with body := w.body ++ b }

def call : Call → Writer
  | .writeHeader status => w.writeHeader status
  | .write b => w.write b
  | .change c => { w with header := c.apply w.header }

def serve (calls : List Call) : Writer := calls.foldl call w

theorem serve_cons (c : Call) (rest : List Call) : w.serve (c :: rest) = (w.call c).serve rest := rfl

theorem serve_append (first rest : List Call) :
    w.serve (first ++ rest) = (w.serve first).serve rest := List.foldl_append

/-- What is sent when the handler returns; without any call that is an empty response with 200. -/
def response : Response :=
  match w.sent with
  | some (status, header) => ⟨status, header, w.body⟩
  | none => ⟨200, w.header, w.body⟩

end Writer

end Go.Http
