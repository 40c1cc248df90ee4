import Evergreen.Settings
import Mathlib.Data.List.Basic
import Mathlib.Tactic.MkIffOfInductiveProp

/-!
# Settings that are written and read again

The text of a duration is a list of items, one for each unit of which there is any, and reading
it adds the items up. The units share the duration out (`Spelled`), so that no sum on the way
exceeds it and every check against words and durations passes (`foldlM_items`). Settings are
then read back from the document they are written to (`settings_round_trip`).

- `finish?_eq`: the end of a text counts as a space.
- `foldlM_toDigits`: the digits of a number are read back.
- `Legible`, `foldlM_item`: an item whose unit the reader knows is added to the sum.
- `read?_write`, `read?_le`: durations are read back, and nothing longer is ever read.
- `ofDocument?_eq_some_iff`: settings are read part by part.
-/

namespace Evergreen

namespace Text.Span

/-! ### Characters -/

/-- A letter of a unit cannot be taken for a digit or a space. -/
theorem isDigit_isSpace_of_isLetter {c : Char} (h : isLetter c = true) :
    c.isDigit = false ∧ isSpace c = false := by
  have hn : (65 ≤ c.toNat ∧ c.toNat ≤ 90) ∨ (97 ≤ c.toNat ∧ c.toNat ≤ 122) ∨ c.toNat = 181 := by
    simp only [isLetter, Bool.or_eq_true, beq_iff_eq] at h
    rcases h with h | rfl
    · rcases Bool.or_eq_true_iff.mp h with upper | lower
      · exact .inl (of_decide_eq_true upper)
      · obtain ⟨least, greatest⟩ := Bool.and_eq_true_iff.mp lower
        exact .inr (.inl ⟨of_decide_eq_true least, of_decide_eq_true greatest⟩)
    · exact .inr (.inr rfl)
  constructor
  · simp only [Char.isDigit, Bool.and_eq_false_iff, decide_eq_false_iff_not,
      UInt32.le_iff_toNat_le, ge_iff_le]
    change ¬48 ≤ c.toNat ∨ ¬c.toNat ≤ 57
    omega
  · simp only [isSpace, Bool.or_eq_false_iff, Bool.and_eq_false_iff, decide_eq_false_iff_not,
      beq_eq_false_iff_ne]
    omega

/-- The value of a written digit is read back. -/
theorem digit?_digitChar (n : Nat) {d : Nat} (hd : d < 10) :
    digit? n d.digitChar = word? (10 * n + d) := by
  rw [digit?, Nat.toNat_digitChar_of_lt_ten hd]
  congr 2
  change 48 + d - 48 = d
  omega

/-! ### Numbers -/

/-- The digits of a number, read where an item may begin, leave the reader with the number. -/
theorem foldlM_toDigits {total : Nat} {started : Bool} {n : Nat} (hn : n < wordSize) :
    (Nat.toDigits 10 n).foldlM Reader.step? ⟨total, started, .between⟩ =
      some ⟨total, started, .number n⟩ := by
  -- on the number, which is ten times what stands before its last digit, and the digit
  induction n using Nat.strongRecOn with
  | ind n ih =>
    have digit : ∀ d < 10, d.digitChar.isDigit = true := fun d hd => by
      simp [Nat.isDigit_digitChar, hd]
    by_cases h : n < 10
    · rw [Nat.toDigits_of_lt_base h]
      simp [Reader.step?, digit n h, digit?_digitChar 0 h, word?, hn]
    · have hmod : n % 10 < 10 := Nat.mod_lt n (by decide)
      have hdiv := Nat.div_add_mod n 10
      rw [Nat.toDigits_of_base_le (by decide) (by omega), List.foldlM_append,
        ih (n / 10) (by omega) (by omega)]
      simp [Reader.step?, digit _ hmod, digit?_digitChar _ hmod, hdiv, word?, hn]

/-- The letters of a unit are kept. -/
theorem foldlM_letters {total n : Nat} {started : Bool} {d : Option Decimals} {kept cs : List Char}
    (h : ∀ c ∈ cs, isLetter c = true) :
    cs.foldlM Reader.step? ⟨total, started, .unit n d kept⟩ =
      some ⟨total, started, .unit n d (cs.reverse ++ kept)⟩ := by
  induction cs generalizing kept with
  | nil => rfl
  | cons c cs ih =>
    have hc := h c List.mem_cons_self
    obtain ⟨hd, hs⟩ := isDigit_isSpace_of_isLetter hc
    have step : Reader.step? ⟨total, started, .unit n d kept⟩ c =
        some ⟨total, started, .unit n d (c :: kept)⟩ := by
      simp [Reader.step?, hc, hd, hs]
    rw [List.foldlM_cons, step]
    simpa using ih fun c' hc' => h c' (List.mem_cons_of_mem c hc')

/-- The name of a unit, read after a number. -/
theorem foldlM_name {total n : Nat} {started : Bool} {cs : List Char} (hcs : cs ≠ [])
    (h : ∀ c ∈ cs, isLetter c = true) :
    cs.foldlM Reader.step? ⟨total, started, .number n⟩ =
      some ⟨total, started, .unit n none cs.reverse⟩ := by
  obtain ⟨c, cs, rfl⟩ := List.exists_cons_of_ne_nil hcs
  have hc := h c List.mem_cons_self
  obtain ⟨hd, hs⟩ := isDigit_isSpace_of_isLetter hc
  have step : Reader.step? ⟨total, started, .number n⟩ c =
      some ⟨total, started, .unit n none [c]⟩ := by
    simp [Reader.step?, hc, hd, hs]
  rw [List.foldlM_cons, step]
  simpa using foldlM_letters fun c' hc' => h c' (List.mem_cons_of_mem c hc')

/-! ### Sums -/

/-- An amount in nanoseconds. -/
def Amount.nanoseconds (a : Amount) : Nat := a.seconds * Clock.second + a.nanos

/-- A sum never exceeds the longest duration. -/
theorem plus?_le {total t : Nat} {a : Amount} (h : plus? total a = some t) :
    t ≤ Clock.longest := by
  simp only [plus?, Option.bind_eq_bind, Option.bind_eq_some_iff] at h
  obtain ⟨nanos, -, h⟩ := h
  split at h
  · cases h
    assumption
  · cases h

/-- Amounts add up while the sum is a duration; of the sum so far only what is below a second
meets the nanoseconds of the amount. -/
theorem plus?_eq_some {total : Nat} {a : Amount} (ha : a.nanos + Clock.second ≤ wordSize)
    (h : total + a.nanoseconds ≤ Clock.longest) : plus? total a = some (total + a.nanoseconds) := by
  have hmod : total % Clock.second < Clock.second := Nat.mod_lt total (by decide)
  have hword : word? (total % Clock.second + a.nanos) = some (total % Clock.second + a.nanos) :=
    word?_eq_some_iff.mpr ⟨rfl, by omega⟩
  have hsum : (total / Clock.second + a.seconds) * Clock.second +
      (total % Clock.second + a.nanos) = total + a.nanoseconds := by
    have hdiv := Nat.div_add_mod' total Clock.second
    rw [Amount.nanoseconds, Nat.add_mul]
    omega
  rw [plus?, hword, Option.bind_eq_bind, Option.bind_some, hsum]
  exact if_pos h

/-- An amount several times over, where its parts fit words. -/
theorem times?_eq_some {a : Amount} {n : Nat} (hs : n * a.seconds < wordSize)
    (hn : n * a.nanos < wordSize) : a.times? n = some ⟨n * a.seconds, n * a.nanos⟩ := by
  simp [Amount.times?, word?, hs, hn]

/-! ### Items -/

/-- An item that is complete leaves the reader between items. -/
theorem close?_between {r r' : Reader} {n : Nat} {d : Option Decimals} {letters : List Char}
    (h : r.close? n d letters = some r') :
    r'.phase = .between ∧ r'.started = true ∧ r'.total ≤ Clock.longest := by
  simp only [Reader.close?, Option.bind_eq_bind, Option.bind_eq_some_iff] at h
  obtain ⟨m, -, a, -, total, hplus, h⟩ := h
  cases d with
  | none =>
    cases h
    exact ⟨rfl, rfl, plus?_le hplus⟩
  | some d =>
    simp only [Option.bind_eq_some_iff] at h
    obtain ⟨b, -, c, -, part, -, sum, hsum, h⟩ := h
    cases h
    exact ⟨rfl, rfl, plus?_le hsum⟩

/-- The end of a text counts as a space. -/
theorem finish?_eq (r : Reader) : r.finish? = (r.step? ' ').bind Reader.finish? := by
  have hd : ' '.isDigit = false := by decide
  have hs : isSpace ' ' = true := by decide
  obtain ⟨total, started, phase⟩ := r
  cases phase with
  | between => simp [Reader.step?, hd, hs]
  | number n => simp [Reader.step?, hd, hs]
  | decimals n d => simp [Reader.step?, hd, hs]
  | unit n d letters =>
    simp only [Reader.step?, hd, hs, Reader.finish?, Bool.false_eq_true, if_false, if_true]
    cases h : Reader.close? ⟨total, started, .unit n d letters⟩ n d letters with
    | none => rfl
    | some r =>
      obtain ⟨hphase, hstarted, -⟩ := close?_between h
      simp [Reader.finish?, hphase, hstarted]

/-- A name that the reader takes for `size` nanoseconds, in items of a duration that is less
than `bound`. A unit that is not a whole number of seconds is met only below a second. -/
@[mk_iff]
structure Legible (bound size : Nat) (name : String) : Prop where
  nonempty : name.toList ≠ []
  letters : name.toList.all isLetter = true
  measured : ∃ m ∈ measures.find? (·.names.contains name),
    m.whole.nanoseconds = size ∧ (m.whole.nanos = 0 ∨ bound ≤ Clock.second)

instance (bound size : Nat) (name : String) : Decidable (Legible bound size name) :=
  decidable_of_iff _ (legible_iff bound size name).symm

/-- Units that share out whatever is less than `bound`, by names that the reader knows: each
takes what the one before it has left over, and the last leaves nothing. -/
def Spelled : Nat → List (Nat × String × Bool) → Prop
  | bound, [] => bound = 1
  | bound, (size, name, inflected) :: units =>
    (0 < size ∧ Legible bound size name ∧ (inflected = true → Legible bound size (name ++ "s"))) ∧
      Spelled size units

instance decidableSpelled : ∀ bound units, Decidable (Spelled bound units)
  | bound, [] => inferInstanceAs (Decidable (bound = 1))
  | _, (size, _) :: units =>
    have := decidableSpelled size units
    inferInstanceAs (Decidable (_ ∧ Spelled size units))

/-- The units of written durations share out every duration. -/
theorem spelled_written : Spelled (Clock.longest + 1) written := by
  decide

/-- Whole numbers of a unit that add up to no more than a duration are small enough to be
computed with. -/
theorem parts_fit {n bound size : Nat} {m : Measure} (hsize : m.whole.nanoseconds = size)
    (hnanos : m.whole.nanos = 0 ∨ bound ≤ Clock.second) (hbound : n * size < bound)
    (h : n * size ≤ Clock.longest) :
    n * m.whole.seconds < wordSize ∧ n * m.whole.nanos + Clock.second ≤ wordSize := by
  have hsplit : n * m.whole.seconds * Clock.second + n * m.whole.nanos = n * size := by
    rw [← hsize, Amount.nanoseconds, Nat.mul_add, Nat.mul_assoc]
  have hlongest : Clock.longest < wordSize * Clock.second := by decide
  have hroom : Clock.second + Clock.second ≤ wordSize := by decide
  constructor
  · exact Nat.lt_of_mul_lt_mul_right (a := Clock.second) (by omega)
  · rcases hnanos with hnanos | hnanos
    · rw [hnanos]
      omega
    · omega

/-- The number of an item is read in a word: there is no more of a unit than of nanoseconds or
of seconds. -/
theorem number_fits {n bound size : Nat} {m : Measure} (hpos : 0 < size)
    (hsize : m.whole.nanoseconds = size)
    (hnanos : m.whole.nanos = 0 ∨ bound ≤ Clock.second) (hbound : n * size < bound)
    (h : n * size ≤ Clock.longest) : n < wordSize := by
  obtain ⟨hs, hn⟩ := parts_fit hsize hnanos hbound h
  -- a unit that is less than a second has nanoseconds
  by_cases hzero : m.whole.seconds = 0
  · have : n ≤ n * m.whole.nanos := Nat.le_mul_of_pos_right n (by
      rw [Amount.nanoseconds, hzero] at hsize
      omega)
    have : 0 < Clock.second := by decide
    omega
  · exact Nat.lt_of_le_of_lt (Nat.le_mul_of_pos_right n (by omega)) hs

/-- An item followed by a space is added to the sum. -/
theorem foldlM_item {total n bound size : Nat} {started : Bool} {name : String} (hpos : 0 < size)
    (hname : Legible bound size name) (hbound : n * size < bound)
    (h : total + n * size ≤ Clock.longest) :
    ((toString n ++ name).toList ++ [' ']).foldlM Reader.step? ⟨total, started, .between⟩ =
      some ⟨total + n * size, true, .between⟩ := by
  obtain ⟨m, hm, hsize, hnanos⟩ := hname.measured
  obtain ⟨hs, hn⟩ := parts_fit hsize hnanos hbound (by omega)
  have hfit := number_fits hpos hsize hnanos hbound (by omega)
  have hwhole : (⟨n * m.whole.seconds, n * m.whole.nanos⟩ : Amount).nanoseconds = n * size := by
    rw [← hsize, Amount.nanoseconds, Amount.nanoseconds, Nat.mul_add, Nat.mul_assoc]
  have digits : (toString n).toList = Nat.toDigits 10 n := Nat.toList_repr
  rw [String.toList_append, digits, List.foldlM_append, List.foldlM_append, foldlM_toDigits hfit,
    Option.bind_eq_bind, Option.bind_some,
    foldlM_name hname.nonempty (List.all_eq_true.mp hname.letters)]
  have times : m.whole.times? n = some ⟨n * m.whole.seconds, n * m.whole.nanos⟩ :=
    times?_eq_some hs (Nat.lt_of_lt_of_le (Nat.lt_add_of_pos_right (by decide)) hn)
  have plus : plus? total ⟨n * m.whole.seconds, n * m.whole.nanos⟩ = some (total + n * size) :=
    hwhole ▸ plus?_eq_some hn (hwhole ▸ h)
  have close : Reader.close? ⟨total, started, .unit n none name.toList.reverse⟩ n none
      name.toList.reverse = some ⟨total + n * size, true, .between⟩ := by
    rw [Reader.close?, List.reverse_reverse, String.ofList_toList, hm]
    simp [times, plus]
  have hd : ' '.isDigit = false := by decide
  have hspace : isSpace ' ' = true := by decide
  simp [Reader.step?, hd, hspace, close]

/-- What stands in an item for the unit. -/
theorem legible_item {bound n size : Nat} {name : String} {inflected : Bool}
    (h : Legible bound size name) (h' : inflected = true → Legible bound size (name ++ "s")) :
    ∃ spelled, item n name inflected = toString n ++ spelled ∧ Legible bound size spelled := by
  unfold item
  split
  · rename_i hs
    simp only [Bool.and_eq_true] at hs
    exact ⟨name ++ "s", String.append_assoc .., h' hs.1⟩
  · exact ⟨name, String.append_empty .., h⟩

/-- Reading items, each followed by a space, adds the duration they were made from. -/
theorem foldlM_items {units : List (Nat × String × Bool)} :
    ∀ {bound total t : Nat} {started : Bool}, Spelled bound units → t < bound →
      total + t ≤ Clock.longest → (started = true ∨ items units t ≠ []) →
      ((items units t).flatMap fun i => i.toList ++ [' ']).foldlM Reader.step?
        ⟨total, started, .between⟩ = some ⟨total + t, true, .between⟩ := by
  induction units with
  | nil =>
    intro bound total t started hus ht _ hstarted
    obtain rfl : t = 0 := by
      have : bound = 1 := hus
      omega
    obtain rfl : started = true := hstarted.resolve_right (by simp [items])
    rfl
  | cons u units ih =>
    obtain ⟨size, name, inflected⟩ := u
    intro bound total t started ⟨⟨hpos, hname, hplural⟩, hus⟩ ht hsum hstarted
    have hrest : t % size < size := Nat.mod_lt t hpos
    have hdiv := Nat.div_add_mod' t size
    -- a unit of which there is none is not written, and all is left to the smaller ones
    by_cases hn : t / size = 0
    · have hless : t < size := (Nat.div_eq_zero_iff_lt hpos).mp hn
      have hmod : t % size = t := Nat.mod_eq_of_lt hless
      simp only [items, if_pos hn, hmod] at hstarted ⊢
      exact ih hus hless hsum hstarted
    · obtain ⟨spelled, hitem, hlegible⟩ := legible_item (n := t / size) hname hplural
      simp only [items, if_neg hn, List.flatMap_cons]
      rw [List.foldlM_append, hitem, foldlM_item hpos hlegible (by omega) (by omega),
        Option.bind_eq_bind, Option.bind_some, ih hus hrest (by omega) (.inl rfl), Nat.add_assoc,
        hdiv]

/-- Items between which there are spaces, and one more at the end. -/
theorem intercalate_space {xs : List (List Char)} (h : xs ≠ []) :
    [' '].intercalate xs ++ [' '] = xs.flatMap (· ++ [' ']) := by
  induction xs with
  | nil => exact absurd rfl h
  | cons x xs ih =>
    cases xs with
    | nil => simp
    | cons y xs =>
      rw [List.intercalate_cons_cons, List.append_assoc, ih (by simp)]
      simp

/-- A duration that is not zero has an item. -/
theorem items_ne_nil {units : List (Nat × String × Bool)} :
    ∀ {bound t : Nat}, Spelled bound units → t < bound → t ≠ 0 → items units t ≠ [] := by
  induction units with
  | nil =>
    intro bound t hus ht hne
    have : bound = 1 := hus
    omega
  | cons u units ih =>
    obtain ⟨size, name, inflected⟩ := u
    intro bound t ⟨⟨hpos, _⟩, hus⟩ ht hne
    unfold items
    split
    · rename_i hn
      have hless : t < size := (Nat.div_eq_zero_iff_lt hpos).mp hn
      rw [Nat.mod_eq_of_lt hless]
      exact ih hus hless hne
    · simp

/-- A text is read as if a space followed it. -/
theorem foldlM_finish?_eq (cs : List Char) (r : Reader) :
    (cs.foldlM Reader.step? r).bind Reader.finish? =
      ((cs ++ [' ']).foldlM Reader.step? r).bind Reader.finish? := by
  rw [List.foldlM_append, Option.bind_eq_bind, Option.bind_assoc]
  congr 1
  funext r
  simpa using finish?_eq r

/-- **Reading what was written.** The text of a duration gives the duration, up to the longest
one. -/
theorem read?_write {t : Nat} (h : t ≤ Clock.longest) : read? (write t) = some t := by
  by_cases hzero : t = 0
  · subst hzero
    decide
  have hne : items written t ≠ [] := items_ne_nil spelled_written (by omega) hzero
  have htext : (write t).toList ++ [' '] =
      (items written t).flatMap fun i => i.toList ++ [' '] := by
    rw [write, if_neg hzero, String.toList_intercalate,
      show " ".toList = [' '] from rfl, intercalate_space (by simpa using hne), List.flatMap_map]
  have hread : ((write t).toList.foldlM Reader.step? {}).bind Reader.finish? = some t := by
    rw [foldlM_finish?_eq, htext, foldlM_items spelled_written (Nat.lt_succ_of_le h) (by omega)
      (.inr hne)]
    simp [Reader.finish?]
  -- A lone zero would be read without a unit, but nothing is written like that.
  have hlone : write t ≠ "0" := fun h0 => by
    have hnone : ("0".toList.foldlM Reader.step? {}).bind Reader.finish? = none := by decide
    rw [h0, hnone] at hread
    cases hread
  rw [read?, if_neg hlone]
  exact hread

/-! ### What is read -/

/-- A character completes an item, or leaves the sum as it is. -/
theorem total_step? {r r' : Reader} {c : Char} (h : r.step? c = some r') :
    r'.total = r.total ∨ r'.total ≤ Clock.longest := by
  obtain ⟨total, started, phase⟩ := r
  cases phase with
  | unit n d letters =>
    grind [Reader.step?, Option.bind_eq_some_iff, → close?_between]
  | _ =>
    left
    grind [Reader.step?, Option.bind_eq_some_iff]

/-- Sums on the way stay durations. -/
theorem total_foldlM_le {cs : List Char} {r r' : Reader} (h : cs.foldlM Reader.step? r = some r')
    (hr : r.total ≤ Clock.longest) : r'.total ≤ Clock.longest := by
  induction cs generalizing r with
  | nil =>
    cases h
    exact hr
  | cons c cs ih =>
    rw [List.foldlM_cons, Option.bind_eq_bind, Option.bind_eq_some_iff] at h
    obtain ⟨r₁, hstep, h⟩ := h
    rcases total_step? hstep with heq | hle
    · exact ih h (heq ▸ hr)
    · exact ih h hle

/-- A text never gives more than the longest duration. -/
theorem read?_le {s : String} {t : Nat} (h : read? s = some t) : t ≤ Clock.longest := by
  unfold read? at h
  split at h
  · cases h
    exact Nat.zero_le _
  · rw [Option.bind_eq_bind, Option.bind_eq_some_iff] at h
    obtain ⟨⟨total, started, phase⟩, hread, h⟩ := h
    cases phase with
    | between =>
      simp only [Reader.finish?, Option.ite_none_right_eq_some, Option.some.injEq] at h
      exact h.2 ▸ total_foldlM_le hread (Nat.zero_le _)
    | unit n d letters =>
      simp only [Reader.finish?, Option.map_eq_some_iff] at h
      obtain ⟨r, hclose, rfl⟩ := h
      exact (close?_between hclose).2.2
    | _ => cases h

end Text.Span

namespace Settings

open Text

/-! ### Settings and their documents -/

/-- What settings can hold: a duration, and numbers of workers and of places in the queue that
fit words. -/
structure Fits (s : Settings) : Prop where
  pollInterval : s.pollInterval ≤ Clock.longest
  workers : ∀ n, s.workers = some n → n < wordSize
  queueCapacity : s.queueCapacity < wordSize

/-- Settings on a machine with `processors` processors, with the number of workers filled in. -/
def onMachine (processors : Nat) (s : Settings) : Settings :=
  { s with workers := some (s.workers.getD (max processors 1)) }

/-- Settings are read part by part. -/
theorem ofDocument?_eq_some_iff {d : Document} {s : Settings} :
    ofDocument? d = some s ↔ ∃ poll workers queue, d.parts? names = some [poll, workers, queue] ∧
      Document.orElse minPollInterval span? poll = some s.pollInterval ∧
      Document.orElse none (fun d => d.count?.map some) workers = some s.workers ∧
      Document.orElse defaultQueueCapacity Document.count? queue = some s.queueCapacity := by
  obtain ⟨p, w, q⟩ := s
  constructor
  · intro h
    rw [ofDocument?, Option.bind_eq_bind, Option.bind_eq_some_iff] at h
    obtain ⟨parts, hparts, h⟩ := h
    obtain ⟨poll, workers, queue, rfl⟩ : ∃ poll workers queue, parts = [poll, workers, queue] :=
      List.length_eq_three.mp (Document.length_of_parts? hparts)
    simp only [Option.bind_eq_bind, Option.bind_eq_some_iff, Option.pure_def,
      Option.some.injEq, mk.injEq] at h
    obtain ⟨p', hp, w', hw, q', hq, rfl, rfl, rfl⟩ := h
    exact ⟨poll, workers, queue, hparts, hp, hw, hq⟩
  · rintro ⟨poll, workers, queue, hparts, hp, hw, hq⟩
    simp only [ofDocument?, hparts, hp, hw, hq, Option.bind_eq_bind, Option.bind_some,
      Option.pure_def]

/-- The parts of written settings. -/
theorem parts?_toDocument (s : Settings) : s.toDocument.parts? names =
    some [some (.text (Span.write s.pollInterval)), s.workers.map .natural,
      some (.natural s.queueCapacity)] := by
  obtain ⟨p, w, q⟩ := s
  cases w <;> rfl

theorem count?_natural {n : Nat} : (Document.natural n).count? = some n ↔ n < wordSize := by
  simp [Document.count?, word?_eq_some_iff]

theorem lt_of_count? {d : Document} {n : Nat} (h : d.count? = some n) : n < wordSize := by
  cases d with
  | natural m =>
    obtain ⟨rfl, hm⟩ := word?_eq_some_iff.mp h
    exact hm
  | _ => cases h

/-- What is read of a part, or stands for it, has a property that all of these have. -/
theorem of_orElse {α : Type} {P : α → Prop} {missing a : α} {read : Document → Option α}
    {part : Option Document} (h : Document.orElse missing read part = some a) (hmissing : P missing)
    (hread : ∀ d a, read d = some a → P a) : P a := by
  cases part with
  | none =>
    cases h
    exact hmissing
  | some d => exact hread d a h

/-- Settings that are read fit. -/
theorem fits_of_ofDocument? {d : Document} {s : Settings} (h : ofDocument? d = some s) :
    s.Fits := by
  obtain ⟨poll, workers, queue, -, hp, hw, hq⟩ := ofDocument?_eq_some_iff.mp h
  refine ⟨of_orElse (P := (· ≤ Clock.longest)) hp (by decide) fun d t ht => ?_,
    of_orElse (P := fun w => ∀ n, w = some n → n < wordSize) hw nofun fun d w hw n hn => ?_,
    of_orElse (P := (· < wordSize)) hq (by decide) fun d n => lt_of_count?⟩
  · obtain ⟨text, -, hread⟩ := Option.bind_eq_some_iff.mp ht
    exact Span.read?_le hread
  · obtain ⟨m, hm, hmw⟩ := Option.map_eq_some_iff.mp hw
    cases hmw.trans hn
    exact lt_of_count? hm

/-- Settings are read back from their document iff they fit. -/
theorem ofDocument?_toDocument_iff {s : Settings} :
    ofDocument? s.toDocument = some s ↔ s.Fits := by
  refine ⟨fits_of_ofDocument?, fun h => ofDocument?_eq_some_iff.mpr ?_⟩
  refine ⟨_, _, _, parts?_toDocument s, ?_, ?_, ?_⟩
  · exact Span.read?_write h.pollInterval
  · cases hw : s.workers with
    | none => rfl
    | some n => simp [Document.orElse, count?_natural.mpr (h.workers n hw)]
  · exact count?_natural.mpr h.queueCapacity

/-- Filling in the number of workers keeps settings within what they can hold. -/
theorem Fits.onMachine {s : Settings} {processors : Nat} (h : s.Fits)
    (hp : processors < wordSize) : (s.onMachine processors).Fits := by
  refine ⟨h.pollInterval, fun n hn => ?_, h.queueCapacity⟩
  have hn : s.workers.getD (max processors 1) = n := Option.some.inj hn
  cases hw : s.workers with
  | none =>
    rw [hw, Option.getD_none] at hn
    have : 1 < wordSize := by decide
    omega
  | some m =>
    rw [hw, Option.getD_some] at hn
    exact hn ▸ h.workers m hw

/-- Parts nobody asks for do not show in those that are asked for. -/
theorem parts?_filter (xs : List (String × Document)) :
    Document.parts? names (.fields (xs.filter fun x => names.contains x.1)) =
      Document.parts? names (.fields xs) := by
  rw [Document.parts?_fields, Document.parts?_fields]
  refine congrArg some (List.map_congr_left fun name hname => ?_)
  simp only [Document.field?, List.find?_filter]
  congr 2
  funext x
  by_cases hx : x.1 = name <;> simp [hx, hname]

/-- **Settings are what their document says.** Settings are read back from the document they
are written to exactly if they fit: an interval up to the longest duration, to the nanosecond,
and numbers that fit words. Whatever a document gives does fit and is read back in turn, also
with the number of workers of a machine filled in. What a document leaves out has its default,
and parts with other names change nothing. -/
theorem settings_round_trip :
    (∀ s : Settings, ofDocument? s.toDocument = some s ↔ s.Fits) ∧
    (∀ d s, ofDocument? d = some s → s.Fits ∧ ofDocument? s.toDocument = some s ∧
      ∀ processors < wordSize,
        ofDocument? (s.onMachine processors).toDocument = some (s.onMachine processors)) ∧
    (∀ d s, ofDocument? d = some s →
      ∃ poll workers queue, d.parts? names = some [poll, workers, queue] ∧
        (poll = none → s.pollInterval = minPollInterval) ∧
        (workers = none →
          ∀ processors, (s.onMachine processors).workers = some (max processors 1)) ∧
        (queue = none → s.queueCapacity = defaultQueueCapacity)) ∧
    (∀ xs, ofDocument? (.fields (xs.filter fun x => names.contains x.1)) =
      ofDocument? (.fields xs)) := by
  refine ⟨fun s => ofDocument?_toDocument_iff, fun d s h => ?_, fun d s h => ?_, fun xs => ?_⟩
  · have hfits := fits_of_ofDocument? h
    exact ⟨hfits, ofDocument?_toDocument_iff.mpr hfits, fun processors hp =>
      ofDocument?_toDocument_iff.mpr (hfits.onMachine hp)⟩
  · obtain ⟨poll, workers, queue, hparts, hp, hw, hq⟩ := ofDocument?_eq_some_iff.mp h
    refine ⟨poll, workers, queue, hparts, ?_, ?_, ?_⟩
    · rintro rfl
      exact (Option.some.inj hp).symm
    · rintro rfl processors
      have hnone : s.workers = none := (Option.some.inj hw).symm
      simp [onMachine, hnone]
    · rintro rfl
      exact (Option.some.inj hq).symm
  · rw [ofDocument?, ofDocument?, parts?_filter]

/-- The longest interval with as many workers as a word holds is read back, and so is what a
document gives in decimals, with its number of workers left out and a part nobody knows. -/
theorem settings_round_trip_longest :
    let s : Settings := ⟨Clock.longest, some (wordSize - 1), wordSize - 1⟩
    let d : Document := .fields [("poll_interval", .text "1h 30m 0.5 s"), ("comment", .null),
      ("queue_capacity", .natural 7)]
    (s.Fits ∧ ofDocument? s.toDocument = some s) ∧
    ∃ s', ofDocument? d = some s' ∧ ofDocument? s'.toDocument = some s' ∧
      ofDocument? (s'.onMachine 8).toDocument = some (s'.onMachine 8) := by
  have hfits : (⟨Clock.longest, some (wordSize - 1), wordSize - 1⟩ : Settings).Fits :=
    ⟨by decide, fun n hn => by cases hn; decide, by decide⟩
  have hread : ofDocument? (.fields [("poll_interval", .text "1h 30m 0.5 s"), ("comment", .null),
      ("queue_capacity", .natural 7)]) = some ⟨5400500 * Clock.millisecond, none, 7⟩ := by decide
  obtain ⟨-, hback, hmachine⟩ := settings_round_trip.2.1 _ _ hread
  exact ⟨⟨hfits, (settings_round_trip.1 _).mpr hfits⟩, _, hread, hback, hmachine 8 (by decide)⟩

end Settings

end Evergreen
