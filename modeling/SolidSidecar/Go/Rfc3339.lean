import SolidSidecar.Go.JsonEncode
import SolidSidecar.Go.Time

/-!
# Instants as text

`time.RFC3339Nano` in UTC, which is what `Time.MarshalJSON` writes, and the reading of RFC 3339 text. A
date is the number of days since the zero time: the year by whole cycles of 400, 100, 4 and 1 years, the
month by the lengths of the months. Reading what was written gives the same instant (`parse_format`).
-/

namespace Go.Rfc3339
open Json List Option

def isLeap (year : Int) : Bool := year % 4 = 0 && (year % 100 ≠ 0 || year % 400 = 0)

def monthLengths (leap : Bool) : List Nat := [31, if leap then 29 else 28, 31, 30, 31, 30, 31, 31, 30, 31, 30, 31]

/-- The year of a day, given in days since the zero time, and the number of the day in it from 0. -/
def yearDay (days : Int) : Int × Int :=
  let cycle := days % 146097
  let century := min 3 (cycle / 36524)
  let day := cycle - 36524 * century
  let year := min 3 (day % 1461 / 365)
  (400 * (days / 146097) + 100 * century + 4 * (day / 1461) + year + 1, day % 1461 - 365 * year)

/-- The days from the zero time to the start of a year. -/
def daysBefore (year : Int) : Int := 365 * (year - 1) + (year - 1) / 4 - (year - 1) / 100 + (year - 1) / 400

/-- The month, counted on from `month`, and the day in it from 0. -/
def monthDay : List Nat → Nat → Nat → Nat × Nat
  | [], month, day => (month, day)
  | length :: rest, month, day =>
    if day < length then (month, day) else monthDay rest (month + 1) (day - length)

theorem yearDay_spec (days : Int) : daysBefore (yearDay days).1 + (yearDay days).2 = days ∧ 0 ≤ (yearDay days).2 ∧
      (yearDay days).2 < (if isLeap (yearDay days).1 then 366 else 365) := by
  obtain ⟨a, cycle, _, _, rfl⟩ : ∃ a cycle, 0 ≤ cycle ∧ cycle < 146097 ∧ days = 146097 * a + cycle :=
    ⟨days / 146097, days % 146097, by omega, by omega, by omega⟩
  have whole : (146097 * a + cycle) / 146097 = a := by omega
  have rest : (146097 * a + cycle) % 146097 = cycle := by omega
  unfold yearDay
  simp only [whole, rest]
  obtain ⟨b, hb⟩ : ∃ b, min 3 (cycle / 36524) = b := ⟨_, rfl⟩
  have century : 0 ≤ b ∧ b ≤ 3 ∧ 36524 * b ≤ cycle ∧ cycle - 36524 * b ≤ 36524 ∧
      (b < 3 → cycle - 36524 * b < 36524) := by omega
  rw [hb]
  obtain ⟨day, hday⟩ : ∃ day, cycle - 36524 * b = day := ⟨_, rfl⟩
  rw [hday]
  obtain ⟨c, n, hc, hn, -, -⟩ : ∃ c n, day / 1461 = c ∧ day % 1461 = n ∧ day = 1461 * c + n ∧
      (0 ≤ n ∧ n < 1461) := ⟨_, _, rfl, rfl, by omega, by omega⟩
  rw [hc, hn]
  obtain ⟨e, he⟩ : ∃ e, min 3 (n / 365) = e := ⟨_, rfl⟩
  have year : 0 ≤ e ∧ e ≤ 3 ∧ 365 * e ≤ n ∧ n - 365 * e ≤ 365 ∧ (e < 3 → n - 365 * e < 365) := by omega
  rw [he]
  have quads : 0 ≤ c ∧ c ≤ 24 ∧ (c = 24 → b < 3 → n < 1460) := by omega
  have inner : (400 * a + 100 * b + 4 * c + e + 1 - 1) / 4 = 100 * a + 25 * b + c ∧
      (400 * a + 100 * b + 4 * c + e + 1 - 1) / 100 = 4 * a + b ∧
      (400 * a + 100 * b + 4 * c + e + 1 - 1) / 400 = a := by omega
  refine ⟨?_, by omega, ?_⟩
  · unfold daysBefore
    rw [inner.1, inner.2.1, inner.2.2]
    omega
  · -- Only the last year of four has a 366th day, and of the last years of a century only the fourth.
    by_cases last : n - 365 * e = 365
    · have leap : isLeap (400 * a + 100 * b + 4 * c + e + 1) = true := by
        have three : e = 3 := by omega
        simp only [isLeap, Bool.and_eq_true, Bool.or_eq_true, decide_eq_true_eq, ne_eq]
        omega
      rw [leap]
      simp only [if_true]
      omega
    · split_ifs <;> omega

theorem monthDay_spec {leap : Bool} {day} (inside : day < if leap then 366 else 365) :
    let found := monthDay (monthLengths leap) 1 day
    1 ≤ found.1 ∧ found.1 ≤ 12 ∧ ((monthLengths leap).take (found.1 - 1)).sum + found.2 = day ∧
      found.2 < (monthLengths leap).getD (found.1 - 1) 0 := by
  have every (leap : Bool) : ∀ day : Fin (if leap then 366 else 365),
      let found := monthDay (monthLengths leap) 1 day
      1 ≤ found.1 ∧ found.1 ≤ 12 ∧ ((monthLengths leap).take (found.1 - 1)).sum + found.2 = day ∧
        found.2 < (monthLengths leap).getD (found.1 - 1) 0 := by
    cases leap <;> decide +kernel
  exact every leap ⟨day, inside⟩

def pad (w n : Nat) : Str := List.replicate (w - (ofNat n).length) 0x30 ++ ofNat n

/-- The fraction of a second, without zeros at its end. -/
def fraction (nanos : Nat) : Str :=
  match (pad 9 nanos).rdropWhile (· == 0x30) with
  | [] => []
  | ds => 0x2E :: ds

def daysOf (t : Time) : Int := t.ns / second / 86400

def secondOfDay (t : Time) : Nat := (t.ns / second % 86400).toNat

def year (t : Time) : Int := (yearDay (daysOf t)).1

def monthAndDay (t : Time) : Nat × Nat :=
  monthDay (monthLengths (isLeap (year t))) 1 (yearDay (daysOf t)).2.toNat

def format (t : Time) : Str :=
  (if year t < 0 then [0x2D] else []) ++ pad 4 (year t).natAbs ++ 0x2D :: (pad 2 (monthAndDay t).1 ++
    0x2D :: (pad 2 ((monthAndDay t).2 + 1) ++ 0x54 :: (pad 2 (secondOfDay t / 3600) ++
    0x3A :: (pad 2 (secondOfDay t / 60 % 60) ++ 0x3A :: (pad 2 (secondOfDay t % 60) ++
    (fraction (t.ns % second).toNat ++ [0x5A]))))))

def InRange (t : Time) : Prop := 0 ≤ year t ∧ year t ≤ 9999

instance (t : Time) : Decidable (InRange t) := inferInstanceAs (Decidable (_ ∧ _))

def ofTime (t : Time) : Option Str := if InRange t then some (ofString (format t)) else none

/-- A number of `w` digits between two bounds, and what follows it. -/
def uint (w low high : Nat) (s : Str) : Option (Nat × Str) :=
  let ds := s.take w
  if ds.length = w ∧ ds.all isDigit = true ∧ low ≤ natOf ds ∧ natOf ds ≤ high then
    some (natOf ds, s.drop w)
  else none

def expect (b : UInt8) : Str → Option Str
  | [] => none
  | c :: rest => if c = b then some rest else none

/-- The fraction of a second, to the ninth digit, and what follows it. -/
def parseFraction (s : Str) : Nat × Str :=
  match s with
  | 0x2E :: d :: rest =>
    if isDigit d then
      let ds := ((d :: rest).takeWhile isDigit).take 9
      (natOf ds * 10 ^ (9 - ds.length), (d :: rest).dropWhile isDigit)
    else (0, s)
  | _ => (0, s)

def parseZone (s : Str) : Option Int :=
  if s = [0x5A] then some 0
  else match s with
    | sign :: rest => do
      let (hours, rest) ← uint 2 0 23 rest
      let rest ← expect 0x3A rest
      let (minutes, rest) ← uint 2 0 59 rest
      if rest ≠ [] then none
      else if sign = 0x2B then some ((hours * 60 + minutes) * 60)
      else if sign = 0x2D then some (-((hours * 60 + minutes) * 60))
      else none
    | [] => none

def parse (s : Str) : Option Time := do
  let (year, s) ← uint 4 0 9999 s
  let s ← expect 0x2D s
  let (month, s) ← uint 2 1 12 s
  let s ← expect 0x2D s
  let (day, s) ← uint 2 1 ((monthLengths (isLeap year)).getD (month - 1) 0) s
  let s ← expect 0x54 s
  let (hours, s) ← uint 2 0 23 s
  let s ← expect 0x3A s
  let (minutes, s) ← uint 2 0 59 s
  let s ← expect 0x3A s
  let (seconds, s) ← uint 2 0 59 s
  let (nanos, s) := parseFraction s
  let offset ← parseZone s
  let days := daysBefore year + ((monthLengths (isLeap year)).take (month - 1)).sum + (day - 1)
  some ⟨(days * 86400 + (hours * 60 + minutes) * 60 + seconds - offset) * second + nanos⟩

/-- `Time.UnmarshalJSON`, which takes the text between the quotes as it is. -/
def intoTime (old : Time) (raw : Str) : Option Time :=
  if raw = "null" then some old
  else match raw with
    | 0x22 :: rest => parse rest.dropLast
    | _ => none

theorem natOf_replicate_append (k : Nat) (s : Str) : natOf (replicate k 0x30 ++ s) = natOf s := by
  have zeros : natOf (replicate k 0x30) = 0 := by
    induction k with
    | zero => rfl
    | succ k ih => exact ih
  rw [natOf_append, zeros, zero_mul, zero_add]

theorem natOf_pad (w n : Nat) : natOf (pad w n) = n := by
  rw [pad, natOf_replicate_append, natOf_ofNat]

theorem digits_pad (w n : Nat) : ∀ b ∈ pad w n, isDigit b = true := by
  intro b mem
  rcases mem_append.mp mem with zero | digit
  · rw [eq_of_mem_replicate zero]
    rfl
  · exact digits_ofNat n b digit

theorem length_pad {w n} (positive : 0 < w) (small : n < 10 ^ w) : (pad w n).length = w := by
  have short : (ofNat n).length ≤ w := by
    unfold ofNat
    split_ifs
    · exact positive
    · rw [length_reverse, length_map, Nat.digits_length_le_iff (by omega)]
      exact small
  rw [pad, length_append, length_replicate]
  omega

theorem uint_pad {w low high n} (positive : 0 < w) (small : n < 10 ^ w) (above : low ≤ n)
    (below : n ≤ high) (rest : Str) : uint w low high (pad w n ++ rest) = some (n, rest) := by
  have length := length_pad positive small
  have front : (pad w n ++ rest).take w = pad w n := by
    rw [take_append_of_le_length (by omega), take_of_length_le (by omega)]
  have back : (pad w n ++ rest).drop w = rest := drop_left' length
  have good : (pad w n).length = w ∧ (pad w n).all isDigit = true ∧ low ≤ natOf (pad w n) ∧
      natOf (pad w n) ≤ high := by
    rw [natOf_pad]
    exact ⟨length, all_eq_true.mpr (digits_pad w n), above, below⟩
  unfold uint
  rw [front, back]
  rw [if_pos good, natOf_pad]

theorem expect_cons (b : UInt8) (rest : Str) : expect b (b :: rest) = some rest := if_pos rfl

theorem parseFraction_fraction {nanos} (small : nanos < 10 ^ 9) :
    parseFraction (fraction nanos ++ [0x5A]) = (nanos, [0x5A]) := by
  obtain ⟨kept, hkept⟩ : ∃ kept, (pad 9 nanos).rdropWhile (· == 0x30) = kept := ⟨_, rfl⟩
  obtain ⟨k, whole⟩ : ∃ k, pad 9 nanos = kept ++ replicate k 0x30 := by
    refine ⟨((pad 9 nanos).rtakeWhile (· == 0x30)).length, ?_⟩
    have zeros : (pad 9 nanos).rtakeWhile (· == 0x30) =
        replicate ((pad 9 nanos).rtakeWhile (· == 0x30)).length 0x30 := by
      apply eq_replicate_of_mem
      intro b mem
      have zero := mem_rtakeWhile_imp mem
      exact beq_iff_eq.mp zero
    rw [← zeros, ← hkept, rdropWhile_append_rtakeWhile]
  have length := length_pad (by omega) small
  have value := natOf_pad 9 nanos
  rw [whole, length_append, length_replicate] at length
  have scaled : natOf kept * 10 ^ (9 - kept.length) = nanos := by
    have zeros : natOf (replicate k 0x30) = 0 := by
      have := natOf_replicate_append k []
      rwa [append_nil] at this
    rw [whole, natOf_append, length_replicate] at value
    have same : 9 - kept.length = k := by omega
    rw [same]
    omega
  have digits : ∀ b ∈ kept, isDigit b = true := fun b mem =>
    digits_pad 9 nanos b (by rw [whole]; exact mem_append_left _ mem)
  unfold fraction
  rw [hkept]
  cases kept with
  | nil =>
    have zero : nanos = 0 := by
      rw [← scaled]
      exact zero_mul _
    rw [zero]
    rfl
  | cons d ds =>
    have first := digits d mem_cons_self
    have taken : ((d :: ds) ++ [0x5A]).takeWhile isDigit = d :: ds := by
      rw [takeWhile_append_of_pos digits]
      simp [isDigit]
    have left : ((d :: ds) ++ [0x5A]).dropWhile isDigit = [0x5A] := by
      rw [dropWhile_append_of_pos digits]
      decide
    have short : (d :: ds).take 9 = d :: ds := take_of_length_le (by omega)
    rw [cons_append] at taken left
    show parseFraction (0x2E :: d :: (ds ++ [0x5A])) = _
    unfold parseFraction
    simp only [first, if_true, taken, left, short, scaled]

/-- What was written for an instant is read back as the same instant. -/
theorem parse_format {t : Time} (range : InRange t) : parse (format t) = some t := by
  obtain ⟨early, late⟩ := range
  obtain ⟨days, low, high⟩ := yearDay_spec (daysOf t)
  have four : (10 : Nat) ^ 4 = 10000 := by norm_num
  have two : (10 : Nat) ^ 2 = 100 := by norm_num
  have nine : (10 : Nat) ^ 9 = 1000000000 := by norm_num
  obtain ⟨dayNo, hday⟩ : ∃ n : Nat, (yearDay (daysOf t)).2 = n := ⟨_, (Int.toNat_of_nonneg low).symm⟩
  obtain ⟨y, hy⟩ : ∃ y : Nat, year t = y := ⟨_, (Int.toNat_of_nonneg early).symm⟩
  have inside : dayNo < if isLeap (year t) then 366 else 365 := by
    have high : (yearDay (daysOf t)).2 < (if isLeap (year t) then 366 else 365 : Int) := high
    rw [hday] at high
    split_ifs at high ⊢ <;> omega
  have found := monthDay_spec inside
  have same : monthDay (monthLengths (isLeap (year t))) 1 dayNo = monthAndDay t := by
    rw [monthAndDay, hday]
    rfl
  simp only [same] at found
  obtain ⟨m1, m12, sum, dayIn⟩ := found
  have longest : ∀ leap, ∀ n ∈ monthLengths leap, n ≤ 31 := by decide
  have day31 : (monthAndDay t).2 + 1 ≤ 31 := by
    have bound : (monthLengths (isLeap (year t))).getD ((monthAndDay t).1 - 1) 0 ≤ 31 := by
      rw [getD_eq_getElem?_getD]
      cases at' : (monthLengths (isLeap (year t)))[(monthAndDay t).1 - 1]? with
      | none => exact Nat.zero_le _
      | some n => exact longest _ n (mem_of_getElem? at')
    omega
  have sod : secondOfDay t < 86400 := by
    unfold secondOfDay
    omega
  have nanosLow : 0 ≤ t.ns % second := by unfold second; omega
  have nanosHigh : (t.ns % second).toNat < 10 ^ 9 := by
    unfold second
    omega
  have sign : ¬ year t < 0 := by omega
  unfold format
  rw [if_neg sign, hy]
  simp only [nil_append, Int.natAbs_natCast]
  rw [hy] at sum dayIn
  unfold parse
  rw [uint_pad (by omega) (by omega) (Nat.zero_le y) (by omega)]
  simp only [bind_eq_bind, bind_some, expect_cons]
  rw [uint_pad (by omega) (by omega) m1 m12]
  simp only [bind_some, expect_cons]
  rw [uint_pad (by omega) (by omega) (Nat.succ_pos _) dayIn]
  simp only [bind_some, expect_cons]
  rw [uint_pad (by omega) (by omega) (Nat.zero_le _) (by omega)]
  simp only [bind_some, expect_cons]
  rw [uint_pad (by omega) (by omega) (Nat.zero_le _) (by omega)]
  simp only [bind_some, expect_cons]
  rw [uint_pad (by omega) (by omega) (Nat.zero_le _) (by omega)]
  simp only [bind_some, parseFraction_fraction nanosHigh, parseZone, if_true]
  refine congrArg some (Time.ext ?_)
  have yearDays : daysBefore y + dayNo = daysOf t := by
    rw [← hy, ← hday]
    exact days
  have seconds : (secondOfDay t : Int) = t.ns / second % 86400 := by
    unfold secondOfDay
    omega
  have nanos : ((t.ns % second).toNat : Int) = t.ns % second := Int.toNat_of_nonneg nanosLow
  have parts : ((secondOfDay t / 3600 : Nat) : Int) * 60 + ((secondOfDay t / 60 % 60 : Nat) : Int) =
      (secondOfDay t / 60 : Nat) := by omega
  show (_ : Int) = t.ns
  simp only [nanos, parts]
  have dayCount : daysBefore (y : Int) + (((monthLengths (isLeap y)).take ((monthAndDay t).1 - 1)).sum : Nat) +
      ((((monthAndDay t).2 + 1 : Nat) : Int) - 1) = daysOf t := by omega
  rw [dayCount]
  unfold daysOf
  unfold second at *
  omega

/-- A text in which nothing has to be escaped is quoted as it is. -/
theorem quoteFrom_plain {s} (plain : ∀ b ∈ s, 0x20 ≤ b.toNat ∧ b.toNat < 0x80 ∧ b.toNat ≠ 0x22 ∧
    b.toNat ≠ 0x5C ∧ b.toNat ≠ 0x3C ∧ b.toNat ≠ 0x3E ∧ b.toNat ≠ 0x26) : quoteFrom 0 s = s := by
  induction s with
  | nil => rfl
  | cons b s ih =>
    obtain ⟨_, high, _, _, _, _, _⟩ := plain b mem_cons_self
    have one : decodeRune b s = (b.toNat, 1) := decodeRune_ascii high
    have proper : ¬ (b.toNat, 1) = (runeError, 1) := by
      intro same
      have := congrArg Prod.fst same
      simp only [runeError] at this
      omega
    have itself : quoteRune b.toNat = [b] := by
      unfold quoteRune
      rw [if_neg (by omega), if_neg (by omega), if_neg (by omega), if_neg (by omega), if_neg (by omega),
        if_neg (by omega), if_neg (by omega), if_neg (by omega), if_neg (by omega), Strings.encodeRune,
        if_pos high, UInt8.ofNat_toNat]
    have later := ih fun b mem => plain b (mem_cons_of_mem _ mem)
    rw [quoteFrom, one, if_neg proper, itself]
    exact congrArg (b :: ·) later

theorem plain_of_isDigit {b} (digit : isDigit b = true) : 0x30 ≤ b.toNat ∧ b.toNat ≤ 0x39 := by
  simpa [isDigit] using digit

/-- The text of an instant is made of digits and a few marks. -/
theorem mem_format {t b} (mem : b ∈ format t) :
    isDigit b = true ∨ b = 0x2D ∨ b = 0x54 ∨ b = 0x3A ∨ b = 0x2E ∨ b = 0x5A := by
  have frac : ∀ n, ∀ b ∈ fraction n, isDigit b = true ∨ b = 0x2E := by
    intro n b mem
    unfold fraction at mem
    split at mem
    · cases mem
    · rcases mem_cons.mp mem with rfl | inside
      · exact .inr rfl
      · exact .inl (digits_pad 9 n b (( rdropWhile_prefix _ _).subset inside))
  simp only [format, mem_append, mem_cons, not_mem_nil, or_false] at mem
  rcases mem with (sign | num) | rfl | num | rfl | num | rfl | num | rfl | num | rfl | num | fr | rfl
  · split_ifs at sign
    · exact .inr (.inl (mem_singleton.mp sign))
    · cases sign
  · exact .inl (digits_pad _ _ _ num)
  · simp
  · exact .inl (digits_pad _ _ _ num)
  · simp
  · exact .inl (digits_pad _ _ _ num)
  · simp
  · exact .inl (digits_pad _ _ _ num)
  · simp
  · exact .inl (digits_pad _ _ _ num)
  · simp
  · exact .inl (digits_pad _ _ _ num)
  · rcases frac _ b fr with digit | rfl
    · exact .inl digit
    · simp
  · simp

theorem quoteFrom_format (t : Time) : quoteFrom 0 (format t) = format t := by
  apply quoteFrom_plain
  intro b mem
  rcases mem_format mem with digit | rfl | rfl | rfl | rfl | rfl
  · have := plain_of_isDigit digit
    omega
  all_goals decide

theorem intoTime_ofTime {t raw} (written : ofTime t = some raw) (old : Time) : intoTime old raw = some t := by
  unfold ofTime at written
  split_ifs at written with range
  cases written
  rw [ofString, quoteFrom_format]
  show parse (format t ++ [0x22]).dropLast = some t
  rw [dropLast_concat]
  exact parse_format range

theorem encoded_ofTime {t raw} (written : ofTime t = some raw) : Encoded 0 raw := by
  unfold ofTime at written
  split_ifs at written
  cases written
  exact encoded_ofString _

end Go.Rfc3339
