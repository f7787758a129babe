import SolidSidecar.Authz.RdfBoundary

/-!
# A canonical form of triples

`canonicalizeTriples` takes one layer of brackets or quotes off every term and sorts by subject, predicate
and object. The result is a canonical form as far as no term has two layers and these three tell the
triples apart.
-/

namespace Authz
open Go List

namespace RDFTriple

def Tied (a b : RDFTriple) : Prop := a.subject = b.subject ∧ a.predicate = b.predicate ∧ a.object = b.object

theorem tied_iff {a b} : Tied a b ↔ a.less b = false ∧ b.less a = false := by
  constructor
  · rintro ⟨subject, predicate, object⟩
    simp [less, subject, predicate, object, Str.less, Str.le_refl]
  · rw [less_eq_false, less_eq_false]
    rintro ⟨first, second⟩
    obtain ⟨subject, first, second⟩ := first.antisymm second
    obtain ⟨predicate, first, second⟩ := first.antisymm second
    exact ⟨subject.symm, predicate.symm, Str.le_antisymm second first⟩

/-- The order with one triple before those it is tied with. -/
def Ahead (first a b : RDFTriple) : Prop := b.less a = false ∧ (a.less b = false → b = first → a = first)

instance (first : RDFTriple) : DecidableRel (Ahead first) := fun _ _ => inferInstanceAs (Decidable (_ ∧ _))

instance (first : RDFTriple) : Std.Total (Ahead first) where
  total a b := by
    by_cases left : b.less a = false
    · by_cases right : a.less b = false
      · by_cases is : a = first
        · exact .inl ⟨left, fun _ _ => is⟩
        · exact .inr ⟨right, fun _ same => absurd same is⟩
      · exact .inl ⟨left, fun tied => absurd tied right⟩
    · exact .inr ⟨(less_total a b).resolve_left left, fun tied => absurd tied left⟩

instance (first : RDFTriple) : IsTrans RDFTriple (Ahead first) where
  trans a b c ab bc := by
    refine ⟨less_trans ab.1 bc.1, fun tied same => ?_⟩
    exact ab.2 (less_trans bc.1 tied) (bc.2 (less_trans tied ab.1) same)

/-- An outcome of the sort that puts one triple before those it is tied with, where it is the first to
come, and another one elsewhere. -/
def sortAhead (a b : RDFTriple) : SortSlice less where
  run l := if l.head? = some a then l.insertionSort (Ahead a) else l.insertionSort (Ahead b)
  perm l := by split_ifs <;> exact perm_insertionSort _ l
  sorted l := by
    split_ifs
    · exact (pairwise_insertionSort (Ahead a) l).imp And.left
    · exact (pairwise_insertionSort (Ahead b) l).imp And.left

/-- Of two triples that are tied, only one comes first. -/
theorem Tied.not_ahead {a b} (tied : Tied a b) (apart : a ≠ b) {l : List RDFTriple} (left : a ∈ l)
    (right : b ∈ l) (first : l.Pairwise (Ahead a)) : ¬ l.Pairwise (Ahead b) := by
  intro second
  obtain ⟨ab, ba⟩ := tied_iff.mp tied
  obtain ⟨before, after, rfl⟩ := append_of_mem left
  rw [pairwise_append, pairwise_cons] at first second
  rcases mem_append.mp right with earlier | later
  · exact apart ((first.2.2 b earlier a mem_cons_self).2 ba rfl).symm
  · exact apart ((second.2.1.1 b ((mem_cons.mp later).resolve_left (Ne.symm apart))).2 ab rfl)

end RDFTriple

section Layers

def bracketed (term : Str) : Bool := Strings.hasPrefix term "<" && Strings.hasSuffix term ">"

def wrapped (term : Str) : Bool :=
  bracketed term || ((Strings.hasPrefix term "\"" && Strings.hasSuffix term "\"") ||
    (Strings.hasPrefix term "'" && Strings.hasSuffix term "'"))

variable {layer : Str → Bool} {term r : Str}

def strip (layer : Str → Bool) (term : Str) : Option Str :=
  if layer (Strings.trimSpace term) then (Strings.trimSpace term).slice 1 ((Strings.trimSpace term).length - 1)
  else some (Strings.trimSpace term)

theorem normalizeRDFTerm_eq_strip (term : Str) : normalizeRDFTerm term = strip wrapped term := by
  unfold normalizeRDFTerm strip wrapped bracketed
  grind

theorem normalizeDatatypeURI_eq_strip (uri : Str) : normalizeDatatypeURI uri = strip bracketed uri := rfl

def Bare (layer : Str → Bool) (term : Str) : Prop := Strings.trimSpace term = term ∧ layer term = false

/-- At most one layer is around a term, and it is not a lone quote. -/
def OneLayer (layer : Str → Bool) (term : Str) : Prop :=
  layer (Strings.trimSpace term) = true →
    ∃ a inside b, Strings.trimSpace term = a :: (inside ++ [b]) ∧ Bare layer inside

theorem slice_within (a b : UInt8) (inside : Str) :
    Str.slice (a :: (inside ++ [b])) 1 ((a :: (inside ++ [b])).length - 1) = some inside := by
  simp [Str.slice]

theorem slice_eq_some {s : Str} (cut : s.slice 1 (s.length - 1) = some r) : ∃ a b, s = a :: (r ++ [b]) := by
  match s with
  | [] => cases cut
  | [_] => cases cut
  | a :: c :: rest =>
    obtain ⟨inside, b, whole⟩ := (eq_nil_or_concat (c :: rest)).resolve_left (cons_ne_nil c rest)
    rw [whole, concat_eq_append] at cut ⊢
    rw [slice_within] at cut
    cases cut
    exact ⟨a, b, rfl⟩

theorem length_trimSpace (s : Str) :
    (Strings.trimSpace s).length ≤ s.length ∧ ((Strings.trimSpace s).length = s.length → Strings.trimSpace s = s) := by
  have left := Strings.dropSpace_suffix Strings.spaces 0 s
  have right := Strings.dropSpace_suffix (Strings.spaces.map reverse) 0 (Strings.dropSpace Strings.spaces 0 s).reverse
  have inside : Strings.trimSpace s <:+: s := by
    refine IsInfix.trans ?_ left.isInfix
    rw [← reverse_reverse (Strings.dropSpace Strings.spaces 0 s)]
    exact ( reverse_prefix.mpr right).isInfix
  exact ⟨inside.length_le, inside.eq_of_length⟩

theorem length_strip (stripped : strip layer term = some r) :
    r.length ≤ term.length ∧ (r.length = term.length → r = term) := by
  obtain ⟨shorter, same⟩ := length_trimSpace term
  unfold strip at stripped
  split_ifs at stripped
  · obtain ⟨a, b, whole⟩ := slice_eq_some stripped
    have length := congrArg length whole
    simp only [length_cons, length_append] at length
    exact ⟨by omega, fun equal => by omega⟩
  · cases stripped
    exact ⟨shorter, same⟩

theorem strip_eq_self_iff : strip layer term = some term ↔ Bare layer term := by
  constructor
  · intro stays
    unfold strip at stays
    split_ifs at stays with more
    · obtain ⟨a, b, whole⟩ := slice_eq_some stays
      have length := congrArg length whole
      have := (length_trimSpace term).1
      simp only [length_cons, length_append] at length
      omega
    · have trimmed := Option.some.inj stays
      rw [trimmed] at more
      exact ⟨trimmed, by simpa using more⟩
  · rintro ⟨trimmed, none⟩
    simp [strip, trimmed, none]

/-- A second pass changes nothing exactly on terms with at most one layer. -/
theorem strip_strip_iff : (∃ r, strip layer term = some r ∧ strip layer r = some r) ↔ OneLayer layer term := by
  unfold OneLayer
  cases more : layer (Strings.trimSpace term) with
  | false =>
    have bare : Bare layer (Strings.trimSpace term) := ⟨Strings.trimSpace_trimSpace term, more⟩
    simp only [Bool.false_eq_true, false_implies, iff_true]
    exact ⟨_, by simp [strip, more], strip_eq_self_iff.mpr bare⟩
  | true =>
    have first : strip layer term = (Strings.trimSpace term).slice 1 ((Strings.trimSpace term).length - 1) := if_pos more
    simp only [first, strip_eq_self_iff, forall_const]
    constructor
    · rintro ⟨r, cut, bare⟩
      obtain ⟨a, b, whole⟩ := slice_eq_some cut
      exact ⟨a, r, b, whole, bare⟩
    · rintro ⟨a, inside, b, whole, bare⟩
      exact ⟨inside, by rw [whole, slice_within], bare⟩

end Layers

section Canonical

variable [Unicode]

/-- Applied twice or to the triples in another order, `canonicalizeTriples` returns the same. -/
def CanonicalOn (l : List RDFTriple) : Prop :=
  ∀ sort, ∃ canon, canonicalizeTriples sort l = some canon ∧ canonicalizeTriples sort canon = some canon ∧
    ∀ l', l'.Perm l → canonicalizeTriples sort l' = some canon

theorem canonicalizeTriples_eq_some {sort l canon} : canonicalizeTriples sort l = some canon ↔
      (∀ t ∈ l, (canonicalizeTriple t).isSome = true) ∧ sort.run (l.filterMap canonicalizeTriple) = canon := by
  unfold canonicalizeTriples
  split_ifs with empty
  · subst empty
    have nothing : sort.run [] = [] := (sort.perm []).eq_nil
    simp [nothing]
  · simp [mapM_eq_some]

theorem canonicalOn_iff_perm (l : List RDFTriple) :
    let normalized := l.filterMap canonicalizeTriple
    CanonicalOn l ↔ (∀ t ∈ l ++ normalized, (canonicalizeTriple t).isSome = true) ∧
      (normalized.filterMap canonicalizeTriple).Perm normalized ∧
      ∀ a ∈ normalized, ∀ b ∈ normalized, RDFTriple.Tied a b → a = b := by
  intro normalized
  unfold CanonicalOn
  simp only [canonicalizeTriples_eq_some]
  constructor
  · intro canonical
    obtain ⟨canon, ⟨all, sorted⟩, ⟨again, stays⟩, -⟩ := canonical RDFTriple.insertionSort
    have perm : canon.Perm normalized := sorted ▸ RDFTriple.insertionSort.perm _
    refine ⟨?_, ?_, ?_⟩
    · intro t mem
      rcases mem_append.mp mem with first | second
      · exact all t first
      · exact again t (perm.mem_iff.mpr second)
    · have twice := RDFTriple.insertionSort.perm (canon.filterMap canonicalizeTriple)
      rw [stays] at twice
      exact ((perm.filterMap _).symm.trans twice.symm).trans perm
    · intro a first b second tied
      by_contra apart
      obtain ⟨x, x_mem, x_is⟩ := mem_filterMap.mp first
      obtain ⟨y, y_mem, y_is⟩ := mem_filterMap.mp second
      obtain ⟨canon, -, -, any⟩ := canonical (RDFTriple.sortAhead a b)
      have other : y ∈ l.erase x := by
        refine (mem_erase_of_ne ?_).mpr y_mem
        rintro rfl
        exact apart (Option.some.inj (x_is.symm.trans y_is))
      have front : (x :: y :: (l.erase x).erase y).Perm l :=
        ((perm_cons_erase other).symm.cons x).trans (perm_cons_erase x_mem).symm
      obtain ⟨-, ahead⟩ := any _ front
      obtain ⟨-, behind⟩ := any _ ((Perm.swap _ _ _).trans front)
      simp only [RDFTriple.sortAhead, filterMap_cons, x_is, y_is, head?_cons, Option.some_inj, Ne.symm apart] at ahead behind
      refine tied.not_ahead apart (l := canon) ?_ ?_ (ahead ▸ pairwise_insertionSort _ _)
        (behind ▸ pairwise_insertionSort _ _)
      · simp [← ahead]
      · simp [← ahead]
  · rintro ⟨all, twice, unique⟩ sort
    have same {l' : List RDFTriple} (perm : l'.Perm normalized) : sort.run l' = sort.run normalized := by
      refine Perm.eq_of_pairwise (fun a b first second ab ba => ?_) (sort.sorted _) (sort.sorted _)
        ((sort.perm _).trans (perm.trans (sort.perm _).symm))
      rw [(sort.perm _).mem_iff] at first second
      exact unique a (perm.mem_iff.mp first) b second (RDFTriple.tied_iff.mpr ⟨ba, ab⟩)
    refine ⟨sort.run normalized, ⟨fun t mem => all t (mem_append_left _ mem), rfl⟩, ⟨?_, ?_⟩, fun l' perm => ⟨?_, ?_⟩⟩
    · exact fun t mem => all t (mem_append_right _ ((sort.perm _).mem_iff.mp mem))
    · exact same (((sort.perm _).filterMap _).trans twice)
    · exact fun t mem => all t (mem_append_left _ (perm.mem_iff.mp mem))
    · exact same (perm.filterMap _)

/-- A language tag in lower case and without white space around it. -/
def InLowerCase (tag : Str) : Prop := Strings.toLower (Strings.trimSpace tag) = tag

/-- A triple whose terms have at most one layer each, and whose language tag has a lower case. -/
structure RDFTriple.Settled (t : RDFTriple) : Prop where
  subject : OneLayer wrapped t.subject
  predicate : OneLayer wrapped t.predicate
  object : OneLayer wrapped t.object
  datatype : OneLayer bracketed t.datatype
  language : InLowerCase (normalizeLanguageTag t.language)

theorem canonicalizeTriple_eq_some {t u} : canonicalizeTriple t = some u ↔ strip wrapped t.subject = some u.subject ∧
    strip wrapped t.predicate = some u.predicate ∧ strip wrapped t.object = some u.object ∧
    strip bracketed t.datatype = some u.datatype ∧ u.objectType = t.objectType ∧
    u.language = normalizeLanguageTag t.language := by
  simp only [canonicalizeTriple, normalizeRDFTerm_eq_strip, Option.bind_eq_bind,
    Option.pure_def, Option.bind_eq_some_iff, Option.some_inj]
  constructor
  · rintro ⟨_, subject, _, predicate, _, object, _, datatype, rfl⟩
    exact ⟨subject, predicate, object, datatype, rfl, rfl⟩
  · rintro ⟨subject, predicate, object, datatype, type, language⟩
    exact ⟨_, subject, _, predicate, _, object, _, datatype, by rw [← type, ← language]⟩

/-- A second pass leaves a triple as the first one made it exactly if it is settled. -/
theorem settled_iff {t : RDFTriple} :
    t.Settled ↔ ∃ u, canonicalizeTriple t = some u ∧ canonicalizeTriple u = some u := by
  simp only [canonicalizeTriple_eq_some]
  constructor
  · rintro ⟨subject, predicate, object, datatype, language⟩
    obtain ⟨_, s, s'⟩ := strip_strip_iff.mpr subject
    obtain ⟨_, p, p'⟩ := strip_strip_iff.mpr predicate
    obtain ⟨_, o, o'⟩ := strip_strip_iff.mpr object
    obtain ⟨_, d, d'⟩ := strip_strip_iff.mpr datatype
    exact ⟨⟨_, _, _, t.objectType, _, _⟩, ⟨s, p, o, d, rfl, rfl⟩, s', p', o', d', trivial, language.symm⟩
  · rintro ⟨u, ⟨s, p, o, d, -, l⟩, s', p', o', d', -, l'⟩
    exact ⟨strip_strip_iff.mp ⟨_, s, s'⟩, strip_strip_iff.mp ⟨_, p, p'⟩, strip_strip_iff.mp ⟨_, o, o'⟩,
      strip_strip_iff.mp ⟨_, d, d'⟩, l ▸ l'.symm⟩

/-- How much of a triple there is to take layers off. -/
def RDFTriple.weight (t : RDFTriple) : Nat := t.subject.length + t.predicate.length + t.object.length

theorem weight_canonicalizeTriple {t u} (read : canonicalizeTriple t = some u) :
    u.weight ≤ t.weight ∧ (u.weight = t.weight → RDFTriple.Tied u t) := by
  obtain ⟨subject, predicate, object, -⟩ := canonicalizeTriple_eq_some.mp read
  obtain ⟨s, s'⟩ := length_strip subject
  obtain ⟨p, p'⟩ := length_strip predicate
  obtain ⟨o, o'⟩ := length_strip object
  unfold RDFTriple.weight
  exact ⟨by omega, fun same => ⟨s' (by omega), p' (by omega), o' (by omega)⟩⟩

/-- A pass that takes nothing off a list as a whole takes nothing off any triple. -/
theorem tied_of_weight {l : List RDFTriple} (all : ∀ t ∈ l, (canonicalizeTriple t).isSome = true) :
    ((l.filterMap canonicalizeTriple).map RDFTriple.weight).sum ≤ (l.map RDFTriple.weight).sum ∧
    (((l.filterMap canonicalizeTriple).map RDFTriple.weight).sum = (l.map RDFTriple.weight).sum →
      ∀ t ∈ l, ∀ u, canonicalizeTriple t = some u → RDFTriple.Tied u t) := by
  induction l with
  | nil => simp
  | cons t l ih =>
    obtain ⟨first, all⟩ := forall_mem_cons.mp all
    obtain ⟨u, read⟩ := Option.isSome_iff_exists.mp first
    obtain ⟨lighter, tied⟩ := weight_canonicalizeTriple read
    obtain ⟨rest, same⟩ := ih all
    rw [filterMap_cons_some read, map_cons, map_cons, sum_cons, sum_cons]
    refine ⟨by omega, fun equal => forall_mem_cons.mpr ⟨fun v read' => ?_, same (by omega)⟩⟩
    cases read.symm.trans read'
    exact tied (by omega)

/-- The list has a canonical form exactly if no term has more than one layer of brackets or quotes around it, and
subject, predicate and object tell the triples apart once the layers are off. -/
theorem canonicalOn_iff (l : List RDFTriple) : CanonicalOn l ↔ (∀ t ∈ l, t.Settled) ∧
      ∀ a ∈ l.filterMap canonicalizeTriple, ∀ b ∈ l.filterMap canonicalizeTriple, RDFTriple.Tied a b → a = b := by
  refine (canonicalOn_iff_perm l).trans ?_
  constructor
  · rintro ⟨all, twice, unique⟩
    refine ⟨fun t mem => settled_iff.mpr ?_, unique⟩
    obtain ⟨u, read⟩ := Option.isSome_iff_exists.mp (all t (mem_append_left _ mem))
    have inside := mem_filterMap.mpr ⟨t, mem, read⟩
    obtain ⟨v, again⟩ := Option.isSome_iff_exists.mp (all u (mem_append_right _ inside))
    have tied := (tied_of_weight fun t mem => all t (mem_append_right _ mem)).2 (twice.map _).sum_eq u inside v again
    -- what the second pass makes of the triple is in the list, and nothing else there has its terms
    have there := twice.mem_iff.mp (mem_filterMap.mpr ⟨u, inside, again⟩)
    rw [unique v there u inside tied] at again
    exact ⟨u, read, again⟩
  · rintro ⟨settled, unique⟩
    have fixed : ∀ u ∈ l.filterMap canonicalizeTriple, canonicalizeTriple u = some u := by
      intro u mem
      obtain ⟨t, mem, read⟩ := mem_filterMap.mp mem
      obtain ⟨_, read', again⟩ := settled_iff.mp (settled t mem)
      cases read.symm.trans read'
      exact again
    refine ⟨fun t mem => ?_, ?_, unique⟩
    · rcases mem_append.mp mem with first | second
      · obtain ⟨u, read, -⟩ := settled_iff.mp (settled t first)
        rw [read]
        rfl
      · rw [fixed t second]
        rfl
    · have same : (l.filterMap canonicalizeTriple).filterMap canonicalizeTriple = l.filterMap canonicalizeTriple :=
        (filterMap_congr fixed).trans filterMap_some
      rw [same]

end Canonical

section Sample

attribute [local instance] Unicode.ascii

def saying (object language : String) : RDFTriple :=
  ⟨"note", "says", str object, .literal, str language, []⟩

/-- Brackets within brackets are taken off one by one, and two languages stay in the order in which they
come. -/
theorem not_canonical : canonicalizeTriples RDFTriple.insertionSort [saying "<<a>>" ""] = some [saying "<a>" ""] ∧
    canonicalizeTriples RDFTriple.insertionSort [saying "<a>" ""] = some [saying "a" ""] ∧
    canonicalizeTriples RDFTriple.insertionSort [saying "a" "de", saying "a" "en"] ≠
      canonicalizeTriples RDFTriple.insertionSort [saying "a" "en", saying "a" "de"] := by
  decide +kernel

end Sample

end Authz
