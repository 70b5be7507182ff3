import Mathlib
import CacheHierarchy.Trace.Core

set_option autoImplicit false

/-! # Which texts are traces

A trace line is read as **words**: its maximal runs of characters other than space and tab.
A line reads as an access exactly when its words are an operation letter followed by one, two
or three numerals (`Trace.Reads`), where a numeral is `0x` or `0X` and hexadecimal digits, or
decimal digits, of value below 2^64 (`Trace.Numeral`):

* one numeral is the address, with size 8 and pc 0;
* two numerals are the address and the size, when the second is below 2^32; a second numeral
  of 2^32 or more is the pc instead, with size 8;
* three numerals are the address, the size (below 2^32) and the pc.

The reader of a line (`Trace.entry`) backtracks silently: a hexadecimal numeral too large for
64 bits is read as the decimal `0` before its `x`, and a size too large for 32 bits is no
size. Neither ever leads anywhere but to a failure or to the reading above
(`Trace.entry_eq_ok_iff`): a number that does not end at a space, a tab or the end of the line
never ends the line.

A text is a trace exactly when each of its lines, cut at its first `#`, is blank or reads as
an access; the entries are then those of its non-blank lines in order, and otherwise the error
names the first line that is neither (`Trace.parse_accepts_access_lines`).
-/

namespace CacheHierarchy.Trace

/-! ## Words -/

/-- The words of a line: its maximal runs of characters other than space and tab. -/
def words (line : List Char) : List (List Char) :=
  (line.splitOnP isSeparator).filter fun w => !w.isEmpty

/-- Text at the end of a word: empty, or starting with a separator. -/
def Boundary (r : List Char) : Prop := ∀ c ∈ r.head?, isSeparator c = true

/-- Text without separators. -/
def SepFree (t : List Char) : Prop := ∀ c ∈ t, isSeparator c = false

theorem boundary_dropWhile_not (l : List Char) :
    Boundary (l.dropWhile fun c => !isSeparator c) := by
  intro c hc
  have h := List.head?_dropWhile_not (fun c => !isSeparator c) l
  rw [hc] at h
  simpa using h

theorem sepFree_takeWhile (l : List Char) : SepFree (l.takeWhile fun c => !isSeparator c) := by
  intro c hc
  simpa using List.mem_takeWhile_imp hc

/-- Text that does not start at the end of a word starts with a character of a word. -/
theorem not_boundary_iff {r : List Char} :
    ¬Boundary r ↔ ∃ c r', r = c :: r' ∧ isSeparator c = false := by
  cases r with
  | nil => simp [Boundary]
  | cons c r => simp [Boundary]

@[simp] theorem words_nil : words [] = [] := by
  simp [words, List.splitOnP_nil]

theorem words_sep_cons {s : Char} (hs : isSeparator s = true) (r : List Char) :
    words (s :: r) = words r := by
  simp [words, List.splitOnP_cons_eq_if_modifyHead, hs]

/-- A word followed by the end of the line or a separator is the first word. -/
theorem words_token {t r : List Char} (ht : t ≠ []) (hsep : SepFree t) (hr : Boundary r) :
    words (t ++ r) = t :: words r := by
  cases r with
  | nil => simp [words, List.splitOnP_eq_singleton hsep, ht]
  | cons s r =>
    have hs : isSeparator s = true := hr s rfl
    rw [words, List.splitOnP_append_cons_of_forall_mem hsep s hs r, List.filter_cons_of_pos
      (by simpa using ht), words_sep_cons hs r]
    rfl

/-- The first word of a text that starts inside a word. -/
theorem words_cons_of_not_sep {c : Char} (hc : isSeparator c = false) (r : List Char) :
    words (c :: r) =
      (c :: r.takeWhile fun c => !isSeparator c) :: words (r.dropWhile fun c => !isSeparator c) := by
  have hsep : SepFree (c :: r.takeWhile fun c => !isSeparator c) := by
    intro x hx
    rcases List.mem_cons.1 hx with rfl | hx
    · exact hc
    · exact sepFree_takeWhile r x hx
  have h := words_token (List.cons_ne_nil _ _) hsep (boundary_dropWhile_not r)
  rwa [List.cons_append, List.takeWhile_append_dropWhile] at h

theorem words_dropWhile (l : List Char) : words (l.dropWhile isSeparator) = words l := by
  induction l with
  | nil => rfl
  | cons c l ih =>
    by_cases hc : isSeparator c = true
    · rw [List.dropWhile_cons_of_pos hc, ih, words_sep_cons hc]
    · rw [List.dropWhile_cons_of_neg hc]

theorem words_eq_nil_iff (l : List Char) : words l = [] ↔ l.dropWhile isSeparator = [] := by
  induction l with
  | nil => simp
  | cons c l ih =>
    by_cases hc : isSeparator c = true
    · rw [List.dropWhile_cons_of_pos hc, words_sep_cons hc, ih]
    · rw [List.dropWhile_cons_of_neg hc, words_cons_of_not_sep (by simpa using hc)]
      simp

/-- The first word of a text, and the text after it. -/
theorem words_eq_cons {l t : List Char} {ts : List (List Char)} (h : words l = t :: ts) :
    ∃ r, l.dropWhile isSeparator = t ++ r ∧ Boundary r ∧ words r = ts ∧ t ≠ [] ∧ SepFree t := by
  cases hl : l.dropWhile isSeparator with
  | nil =>
    rw [← words_dropWhile, hl, words_nil] at h
    cases h
  | cons c r =>
    have hc : isSeparator c = false := by
      have h' := List.head?_dropWhile_not isSeparator l
      rw [hl] at h'
      simpa using h'
    rw [← words_dropWhile, hl, words_cons_of_not_sep hc] at h
    obtain ⟨rfl, rfl⟩ := List.cons.inj h
    refine ⟨r.dropWhile fun c => !isSeparator c, ?_, boundary_dropWhile_not r, rfl,
      List.cons_ne_nil _ _, ?_⟩
    · rw [List.cons_append, List.takeWhile_append_dropWhile]
    · intro x hx
      rcases List.mem_cons.1 hx with rfl | hx
      · exact hc
      · exact sepFree_takeWhile r x hx

/-- A text splits into a word and what follows it in one way only. -/
theorem token_unique {t t' r r' : List Char} (h : t ++ r = t' ++ r') (ht : SepFree t)
    (ht' : SepFree t') (hr : Boundary r) (hr' : Boundary r') : t = t' ∧ r = r' := by
  have htake : ∀ {u s : List Char}, SepFree u → Boundary s →
      (u ++ s).takeWhile (fun c => !isSeparator c) = u := by
    intro u s hu hs
    rw [List.takeWhile_append_of_pos (by simpa [SepFree] using hu)]
    cases s with
    | nil => simp
    | cons c s => simp [hs c rfl]
  have htt : t = t' := by rw [← htake ht hr, h, htake ht' hr']
  subst htt
  exact ⟨rfl, List.append_cancel_left h⟩

/-! ## Numerals -/

/-- `t` is a numeral of value `v`: `0x` or `0X` and hexadecimal digits, or decimal digits, of
value below 2^64. -/
def Numeral (t : List Char) (v : Nat) : Prop :=
  v < 2 ^ 64 ∧
    ((∃ x ds, t = '0' :: x :: ds ∧ (x = 'x' ∨ x = 'X') ∧ ds ≠ [] ∧
        (∀ d ∈ ds, isHexDigit d = true) ∧ v = numeralValue 16 hexDigitValue ds) ∨
      (t ≠ [] ∧ (∀ d ∈ t, d.isDigit = true) ∧
        v = numeralValue 10 (fun d => d.toNat - '0'.toNat) t))

theorem isSeparator_of_isHexDigit {c : Char} (h : isHexDigit c = true) : isSeparator c = false := by
  cases hs : isSeparator c
  · rfl
  · simp only [isSeparator, Bool.or_eq_true, beq_iff_eq] at hs
    rcases hs with rfl | rfl <;> revert h <;> decide

theorem isHexDigit_of_isDigit {c : Char} (h : c.isDigit = true) : isHexDigit c = true := by
  simp [isHexDigit, h]

theorem not_isDigit_x {x : Char} (hx : x = 'x' ∨ x = 'X') : x.isDigit = false := by
  rcases hx with rfl | rfl <;> decide

theorem sepFree_of_numeral {t : List Char} {v : Nat} (h : Numeral t v) : t ≠ [] ∧ SepFree t := by
  obtain ⟨-, ⟨x, ds, rfl, hx, -, hds, -⟩ | ⟨hne, hdig, -⟩⟩ := h
  · refine ⟨List.cons_ne_nil _ _, fun c hc => ?_⟩
    simp only [List.mem_cons] at hc
    rcases hc with rfl | rfl | hc
    · decide
    · rcases hx with rfl | rfl <;> decide
    · exact isSeparator_of_isHexDigit (hds c hc)
  · exact ⟨hne, fun c hc => isSeparator_of_isHexDigit (isHexDigit_of_isDigit (hdig c hc))⟩

/-- A numeral has one value. -/
theorem Numeral.unique {t : List Char} {v w : Nat} (hv : Numeral t v) (hw : Numeral t w) : v = w := by
  -- a hexadecimal numeral has its `x` where a decimal one has a digit
  have hexNotDec : ∀ {x : Char} {ds : List Char}, (x = 'x' ∨ x = 'X') →
      ¬∀ d ∈ '0' :: x :: ds, d.isDigit = true := fun {x} {_} hx hdig => by
    simpa [not_isDigit_x hx] using hdig x (by simp)
  obtain ⟨-, ⟨x, ds, rfl, hx, -, -, rfl⟩ | ⟨-, hdig, rfl⟩⟩ := hv
  · obtain ⟨-, ⟨x', ds', hxds, -, -, -, rfl⟩ | ⟨-, hdig', -⟩⟩ := hw
    · obtain ⟨-, rfl⟩ := List.cons.inj (List.cons.inj hxds).2
      rfl
    · exact absurd hdig' (hexNotDec hx)
  · obtain ⟨-, ⟨x', ds', rfl, hx', -, -, -⟩ | ⟨-, -, rfl⟩⟩ := hw
    · exact absurd hdig (hexNotDec hx')
    · rfl

theorem drop_length_takeWhile (p : Char → Bool) (l : List Char) :
    l.drop (l.takeWhile p).length = l.dropWhile p := by
  induction l with
  | nil => rfl
  | cons c l ih => by_cases hc : p c <;> simp [hc, ih]

theorem hexNumber?_token {l r : List Char} {v : Nat} (h : hexNumber? l = some (v, r)) :
    ∃ t, l = t ++ r ∧ Numeral t v := by
  unfold hexNumber? at h
  split at h
  · rename_i x rest
    split at h
    · rename_i hx
      dsimp only at h
      split at h
      · rename_i hok
        simp only [Option.some.injEq, Prod.mk.injEq] at h
        obtain ⟨rfl, rfl⟩ := h
        simp only [Bool.and_eq_true, Bool.not_eq_true', List.isEmpty_eq_false_iff,
          decide_eq_true_eq, Nat.pow_eq] at hok
        simp only [Bool.or_eq_true, beq_iff_eq] at hx
        refine ⟨'0' :: x :: rest.takeWhile isHexDigit, ?_, hok.2, .inl ⟨x, _, rfl, hx, hok.1,
          fun d hd => List.mem_takeWhile_imp hd, rfl⟩⟩
        rw [drop_length_takeWhile]
        simp
      · cases h
    · cases h
  · cases h

theorem decimalNumber?_token {l r : List Char} {v : Nat} (h : decimalNumber? l = some (v, r)) :
    ∃ t, l = t ++ r ∧ Numeral t v := by
  unfold decimalNumber? at h
  dsimp only at h
  split at h
  · rename_i hok
    simp only [Option.some.injEq, Prod.mk.injEq] at h
    obtain ⟨rfl, rfl⟩ := h
    simp only [Bool.and_eq_true, Bool.not_eq_true', List.isEmpty_eq_false_iff,
      decide_eq_true_eq, Nat.pow_eq] at hok
    refine ⟨l.takeWhile Char.isDigit, ?_, hok.2, .inr ⟨hok.1,
      fun d hd => List.mem_takeWhile_imp hd, rfl⟩⟩
    rw [drop_length_takeWhile]
    simp
  · cases h

/-- What `number?` reads is a numeral at the front of the text. -/
theorem number?_token {l r : List Char} {v : Nat} (h : number? l = some (v, r)) :
    ∃ t, l = t ++ r ∧ SepFree t ∧ Numeral t v := by
  have hnum : ∃ t, l = t ++ r ∧ Numeral t v := by
    unfold number? at h
    cases hh : hexNumber? l with
    | some p =>
      rw [hh, Option.some_or] at h
      exact hexNumber?_token (hh.trans h)
    | none =>
      rw [hh, Option.none_or] at h
      exact decimalNumber?_token h
  obtain ⟨t, rfl, ht⟩ := hnum
  exact ⟨t, rfl, (sepFree_of_numeral ht).2, ht⟩

/-- No character of a word is taken at a word's end. -/
theorem takeWhile_of_boundary {p : Char → Bool} {r : List Char}
    (hp : ∀ c, isSeparator c = true → p c = false) (hr : Boundary r) : r.takeWhile p = [] := by
  cases r with
  | nil => rfl
  | cons c r => simp [hp c (hr c rfl)]

theorem isHexDigit_of_isSeparator {c : Char} (h : isSeparator c = true) : isHexDigit c = false := by
  cases hc : isHexDigit c
  · rfl
  · simp [isSeparator_of_isHexDigit hc] at h

/-- A decimal numeral never reads as hexadecimal. -/
theorem hexNumber?_of_digits {t r : List Char} (ht : ∀ d ∈ t, d.isDigit = true)
    (hr : Boundary r) : hexNumber? (t ++ r) = none := by
  unfold hexNumber?
  split
  · rename_i x rest heq
    -- the character after the leading `0` is a digit of `t` or the separator after it
    have hx : x.isDigit = true ∨ isSeparator x = true := by
      rcases t with _ | ⟨d, _ | ⟨d', t'⟩⟩
      · rw [List.nil_append] at heq
        subst heq
        exact absurd (hr '0' rfl) (by decide)
      · simp only [List.cons_append, List.nil_append, List.cons.injEq] at heq
        exact .inr (hr x (by simp [heq.2]))
      · simp only [List.cons_append, List.cons.injEq] at heq
        exact .inl (ht x (by simp [← heq.2.1]))
    have hnx : (x == 'x' || x == 'X') = false := by
      rcases hx with hx | hx
      · cases h : (x == 'x' || x == 'X')
        · rfl
        · simp only [Bool.or_eq_true, beq_iff_eq] at h
          simp [not_isDigit_x h] at hx
      · simp only [isSeparator, Bool.or_eq_true, beq_iff_eq] at hx
        rcases hx with rfl | rfl <;> decide
    simp [hnx]
  · rfl

/-- A numeral that ends at a word's end is read whole. -/
theorem number?_of_numeral {t r : List Char} {v : Nat} (ht : Numeral t v) (hr : Boundary r) :
    number? (t ++ r) = some (v, r) := by
  obtain ⟨hlt, ⟨x, ds, rfl, hx, hne, hds, rfl⟩ | ⟨hne, hdig, rfl⟩⟩ := ht
  · have htake : (ds ++ r).takeWhile isHexDigit = ds := by
      rw [List.takeWhile_append_of_pos (by simpa using hds),
        takeWhile_of_boundary (fun _ => isHexDigit_of_isSeparator) hr, List.append_nil]
    have hxx : (x == 'x' || x == 'X') = true := by
      rcases hx with rfl | rfl <;> rfl
    have hhex : hexNumber? ('0' :: x :: (ds ++ r)) = some (numeralValue 16 hexDigitValue ds, r) := by
      simp [hexNumber?, hxx, htake, hne]
      simpa using hlt
    rw [number?, List.cons_append, List.cons_append, hhex, Option.some_or]
  · have htake : (t ++ r).takeWhile Char.isDigit = t := by
      rw [List.takeWhile_append_of_pos (by simpa using hdig),
        takeWhile_of_boundary (fun c hc => by
          cases h : c.isDigit
          · rfl
          · simp [isSeparator_of_isHexDigit (isHexDigit_of_isDigit h)] at hc) hr,
        List.append_nil]
    simp [number?, hexNumber?_of_digits hdig hr, decimalNumber?, htake, hne]
    simpa using hlt

/-- A number read up to a word's end is the whole word, and a numeral. -/
theorem numeral_of_number? {t r r' : List Char} {n : Nat} (hsep : SepFree t) (hr : Boundary r)
    (h : number? (t ++ r) = some (n, r')) (hr' : Boundary r') : Numeral t n ∧ r' = r := by
  obtain ⟨u, hu, husep, hnum⟩ := number?_token h
  obtain ⟨rfl, rfl⟩ := token_unique hu.symm husep hsep hr' hr
  exact ⟨hnum, rfl⟩

/-- A number read from a word that is no numeral stops inside the word. -/
theorem not_boundary_of_not_numeral {t r r' : List Char} {n : Nat} (hsep : SepFree t)
    (hr : Boundary r) (hnum : ¬∃ n, Numeral t n) (h : number? (t ++ r) = some (n, r')) :
    ¬Boundary r' :=
  fun hb' => hnum ⟨n, (numeral_of_number? hsep hr h hb').1⟩

/-! ## The fields after the operation -/

/-- The words after the address: none, a size, a pc too large for a size, or a size and a pc.
The size is 8 and the pc 0 where they are not given. -/
def SizeAndPc : List (List Char) → Nat × Nat → Prop
  | [], (size, pc) => size = 8 ∧ pc = 0
  | [s], (size, pc) =>
    (Numeral s size ∧ size < 2 ^ 32 ∧ pc = 0) ∨ (Numeral s pc ∧ 2 ^ 32 ≤ pc ∧ size = 8)
  | [s, p], (size, pc) => Numeral s size ∧ size < 2 ^ 32 ∧ Numeral p pc
  | _ :: _ :: _ :: _, _ => False

/-- The words after the operation letter: the address, then the size and the pc. -/
def Fields : List (List Char) → Nat × Nat × Nat → Prop
  | [], _ => False
  | a :: rest, (addr, size, pc) => Numeral a addr ∧ SizeAndPc rest (size, pc)

/-- The line reads as the access `e`: its words are the operation letter of `e`, then the
address, size and pc of `e` as `Fields` places them. -/
def Reads (line : List Char) (e : Entry) : Prop :=
  ∃ c ts, words line = [c] :: ts ∧ operationOf? c = some e.op ∧
    Fields ts (e.addr.toNat, e.size, e.pc.toNat)

theorem numeral_of_sizeAndPc {b : List Char} {ws : List (List Char)} {v : Nat × Nat}
    (h : SizeAndPc (b :: ws) v) : ∃ n, Numeral b n := by
  obtain ⟨size, pc⟩ := v
  match ws, h with
  | [], .inl h | [], .inr h | [_], h => exact ⟨_, h.1⟩

theorem number?_nil : number? [] = none := by
  simp [number?, hexNumber?, decimalNumber?]

/-- At a word's end, `spacedNumber?` reads the next word. -/
theorem spacedNumber?_of_boundary {r : List Char} (hr : Boundary r) :
    spacedNumber? r = number? (r.dropWhile isSeparator) := by
  cases r with
  | nil => simp [spacedNumber?, number?_nil]
  | cons c r => simp [spacedNumber?, hr c rfl]

theorem spacedNumber?_of_not_boundary {r : List Char} (hr : ¬Boundary r) :
    spacedNumber? r = none := by
  obtain ⟨c, r', rfl, hc⟩ := not_boundary_iff.1 hr
  simp [spacedNumber?, hc]

theorem dropWhile_ne_nil_of_not_boundary {r : List Char} (hr : ¬Boundary r) :
    r.dropWhile isSeparator ≠ [] := by
  obtain ⟨c, r', rfl, hc⟩ := not_boundary_iff.1 hr
  simp [hc]

/-- Reading stopped inside a word: no size, no pc, and the line is not finished. -/
theorem unfinished_of_not_boundary {r : List Char} (hr : ¬Boundary r) :
    (pcField (sizeField r).2).2.dropWhile isSeparator ≠ [] := by
  simpa [sizeField, pcField, spacedNumber?_of_not_boundary hr] using
    dropWhile_ne_nil_of_not_boundary hr

/-- What is left after the size: nothing, or one numeral, the pc. -/
theorem pcField_finished {r : List Char} (hr : Boundary r) (pc : Nat) :
    ((pcField r).2.dropWhile isSeparator = [] ∧ (pcField r).1 = pc) ↔
      (words r = [] ∧ pc = 0) ∨ ∃ p, words r = [p] ∧ Numeral p pc := by
  rcases hw : words r with _ | ⟨p, ws⟩
  · -- nothing after the size
    simp [pcField, spacedNumber?_of_boundary hr, (words_eq_nil_iff r).1 hw, number?_nil, eq_comm]
  · obtain ⟨r2, hd, hb2, hw2, hne, hsep⟩ := words_eq_cons hw
    have hsp : spacedNumber? r = number? (p ++ r2) := by rw [spacedNumber?_of_boundary hr, hd]
    by_cases hnum : ∃ n, Numeral p n
    · obtain ⟨n, hn⟩ := hnum
      have hfin : r2.dropWhile isSeparator = [] ↔ ws = [] := by rw [← words_eq_nil_iff, hw2]
      have hval : Numeral p pc ↔ n = pc := ⟨hn.unique, fun h => h ▸ hn⟩
      simp [pcField, hsp, number?_of_numeral hn hb2, hfin, hval]
    · have hno : ¬(∃ p', p :: ws = [p'] ∧ Numeral p' pc) := by
        rintro ⟨p', hp', hn⟩
        obtain ⟨rfl, -⟩ := List.cons.inj hp'
        exact hnum ⟨pc, hn⟩
      simp only [List.cons_ne_nil, false_and, false_or, hno, iff_false, not_and]
      intro hfin
      cases hnp : number? (p ++ r2) with
      | none =>
        simp [pcField, hsp, hnp, hd, hne] at hfin
      | some nr =>
        obtain ⟨n, r'⟩ := nr
        have hb' := not_boundary_of_not_numeral hsep hb2 hnum hnp
        simp only [pcField, hsp, hnp] at hfin
        exact absurd hfin (dropWhile_ne_nil_of_not_boundary hb')

/-- A second word that reads as a size below 2^32: the pc, if any, is the word after it. -/
theorem fields_after_size {r b r2 : List Char} {ws : List (List Char)} {n : Nat}
    (hsp : spacedNumber? r = number? (b ++ r2)) (hb2 : Boundary r2) (hw2 : words r2 = ws)
    (hn : Numeral b n) (hlt : n < 2 ^ 32) (size pc : Nat) :
    ((pcField (sizeField r).2).2.dropWhile isSeparator = [] ∧ (sizeField r).1 = size ∧
      (pcField (sizeField r).2).1 = pc) ↔ SizeAndPc (b :: ws) (size, pc) := by
  have hval : ∀ m, Numeral b m ↔ m = n := fun m => ⟨fun h => h.unique hn, fun h => h ▸ hn⟩
  have hsz : sizeField r = (n, r2) := by
    simp [sizeField, hsp, number?_of_numeral hn hb2, show n < 4294967296 from hlt]
  have hpc := pcField_finished hb2 pc
  rw [hw2] at hpc
  rw [hsz]
  rcases ws with _ | ⟨p, _ | ⟨q, ws⟩⟩
  · -- the size alone
    replace hpc := hpc.trans (by simp : _ ↔ pc = 0)
    simp only [SizeAndPc, hval]
    constructor
    · rintro ⟨hfin, rfl, hp⟩
      exact .inl ⟨rfl, hlt, hpc.1 ⟨hfin, hp⟩⟩
    · rintro (⟨rfl, -, rfl⟩ | ⟨rfl, hge, -⟩)
      · exact ⟨(hpc.2 rfl).1, rfl, (hpc.2 rfl).2⟩
      · omega
  · -- a size and a pc
    replace hpc := hpc.trans (by simp : _ ↔ Numeral p pc)
    simp only [SizeAndPc, hval]
    constructor
    · rintro ⟨hfin, rfl, hp⟩
      exact ⟨rfl, hlt, hpc.1 ⟨hfin, hp⟩⟩
    · rintro ⟨rfl, -, hp⟩
      exact ⟨(hpc.2 hp).1, rfl, (hpc.2 hp).2⟩
  · -- a word after the pc
    replace hpc := hpc.trans (by simp : _ ↔ False)
    simp only [SizeAndPc, iff_false, not_and]
    exact fun hfin _ hp => hpc.1 ⟨hfin, hp⟩

/-- A second word too large for a size is read again as the pc, and the line must end there. -/
theorem fields_after_large {r b r2 : List Char} {ws : List (List Char)} {n : Nat}
    (hsp : spacedNumber? r = number? (b ++ r2)) (hb2 : Boundary r2)
    (hfin2 : r2.dropWhile isSeparator = [] ↔ ws = []) (hn : Numeral b n) (hlt : ¬n < 2 ^ 32)
    (size pc : Nat) :
    ((pcField (sizeField r).2).2.dropWhile isSeparator = [] ∧ (sizeField r).1 = size ∧
      (pcField (sizeField r).2).1 = pc) ↔ SizeAndPc (b :: ws) (size, pc) := by
  have hval : ∀ m, Numeral b m ↔ m = n := fun m => ⟨fun h => h.unique hn, fun h => h ▸ hn⟩
  have hb := number?_of_numeral hn hb2
  have hsz : sizeField r = (8, r) := by
    simp [sizeField, hsp, hb, show ¬n < 4294967296 from hlt]
  have hpc : pcField r = (n, r2) := by simp [pcField, hsp, hb]
  rw [hsz, hpc]
  rcases ws with _ | ⟨p, _ | ⟨q, ws⟩⟩
  · simp only [SizeAndPc, hval]
    constructor
    · rintro ⟨-, rfl, rfl⟩
      exact .inr ⟨rfl, by omega, rfl⟩
    · rintro (⟨rfl, hlt', -⟩ | ⟨rfl, -, rfl⟩)
      · exact absurd hlt' hlt
      · exact ⟨hfin2.2 rfl, rfl, rfl⟩
  · simp only [SizeAndPc, hval]
    constructor
    · rintro ⟨hfin, -, -⟩
      cases hfin2.1 hfin
    · rintro ⟨rfl, hlt', -⟩
      exact absurd hlt' hlt
  · simp only [SizeAndPc, iff_false, not_and]
    intro hfin
    cases hfin2.1 hfin

/-- A second word that is no numeral: whatever is read of it stops inside it, so text is left
after the fields. -/
theorem fields_unfinished_of_not_numeral {r b r2 : List Char}
    (hsp : spacedNumber? r = number? (b ++ r2)) (hd : r.dropWhile isSeparator = b ++ r2)
    (hb2 : Boundary r2) (hne : b ≠ []) (hsep : SepFree b) (hnum : ¬∃ n, Numeral b n) :
    (pcField (sizeField r).2).2.dropWhile isSeparator ≠ [] := by
  intro hfin
  cases hnp : number? (b ++ r2) with
  | none =>
    simp only [sizeField, pcField, hsp, hnp, hd] at hfin
    simp [hne] at hfin
  | some nr =>
    obtain ⟨n, r'⟩ := nr
    have hb' := not_boundary_of_not_numeral hsep hb2 hnum hnp
    by_cases hlt : n < 2 ^ 32
    · have hsz : sizeField r = (n, r') := by
        simp [sizeField, hsp, hnp, show n < 4294967296 from hlt]
      simp only [hsz, pcField, spacedNumber?_of_not_boundary hb'] at hfin
      exact absurd hfin (dropWhile_ne_nil_of_not_boundary hb')
    · have hsz : sizeField r = (8, r) := by
        simp [sizeField, hsp, hnp, show ¬n < 4294967296 from hlt]
      simp only [hsz, pcField, hsp, hnp] at hfin
      exact absurd hfin (dropWhile_ne_nil_of_not_boundary hb')

/-- What is left after the address reads as a size and a pc exactly as `SizeAndPc` says: a
second word of 2^32 or more is not taken as the size and is read again as the pc. -/
theorem fields_after_address {r : List Char} (hr : Boundary r) (size pc : Nat) :
    ((pcField (sizeField r).2).2.dropWhile isSeparator = [] ∧ (sizeField r).1 = size ∧
      (pcField (sizeField r).2).1 = pc) ↔ SizeAndPc (words r) (size, pc) := by
  rcases hw : words r with _ | ⟨b, ws⟩
  · -- nothing after the address
    have hn : spacedNumber? r = none := by
      rw [spacedNumber?_of_boundary hr, (words_eq_nil_iff r).1 hw, number?_nil]
    have hpc := (pcField_finished hr pc).trans (by simp [hw] : _ ↔ pc = 0)
    simp only [sizeField, hn, SizeAndPc]
    constructor
    · rintro ⟨hfin, rfl, hp⟩
      exact ⟨rfl, hpc.1 ⟨hfin, hp⟩⟩
    · rintro ⟨rfl, hp⟩
      exact ⟨(hpc.2 hp).1, rfl, (hpc.2 hp).2⟩
  · obtain ⟨r2, hd, hb2, hw2, hne, hsep⟩ := words_eq_cons hw
    have hsp : spacedNumber? r = number? (b ++ r2) := by rw [spacedNumber?_of_boundary hr, hd]
    by_cases hnum : ∃ n, Numeral b n
    · obtain ⟨n, hn⟩ := hnum
      by_cases hlt : n < 2 ^ 32
      · exact fields_after_size hsp hb2 hw2 hn hlt size pc
      · have hfin2 : r2.dropWhile isSeparator = [] ↔ ws = [] := by rw [← words_eq_nil_iff, hw2]
        exact fields_after_large hsp hb2 hfin2 hn hlt size pc
    · exact ⟨fun h => absurd h.1 (fields_unfinished_of_not_numeral hsp hd hb2 hne hsep hnum),
        fun h => absurd (numeral_of_sizeAndPc h) hnum⟩

/-- From the address on, a line reads exactly as `Fields` says. -/
theorem fields_ok_iff {l : List Char} (hl : l.dropWhile isSeparator = l) (addr size pc : Nat) :
    (∃ afterAddr, number? l = some (addr, afterAddr) ∧
      (pcField (sizeField afterAddr).2).2.dropWhile isSeparator = [] ∧
      (sizeField afterAddr).1 = size ∧ (pcField (sizeField afterAddr).2).1 = pc) ↔
    Fields (words l) (addr, size, pc) := by
  rcases hw : words l with _ | ⟨a, ws⟩
  · -- an empty line has no address
    have hnil : l = [] := hl ▸ (words_eq_nil_iff l).1 hw
    simp [hnil, number?_nil, Fields]
  · obtain ⟨r1, hd, hb1, hw1, -, hsep⟩ := words_eq_cons hw
    rw [hl] at hd
    subst hd
    constructor
    · rintro ⟨afterAddr, hnum, hrest⟩
      by_cases hb : Boundary afterAddr
      · obtain ⟨ha, rfl⟩ := numeral_of_number? hsep hb1 hnum hb
        exact ⟨ha, hw1 ▸ (fields_after_address hb1 size pc).1 hrest⟩
      · exact absurd hrest.1 (unfinished_of_not_boundary hb)
    · rintro ⟨ha, hrest⟩
      exact ⟨r1, number?_of_numeral ha hb1, (fields_after_address hb1 size pc).2 (hw1 ▸ hrest)⟩

theorem dropWhile_dropWhile_sep (l : List Char) :
    (l.dropWhile isSeparator).dropWhile isSeparator = l.dropWhile isSeparator := by
  have h := List.head?_dropWhile_not isSeparator l
  revert h
  cases l.dropWhile isSeparator with
  | nil => simp
  | cons c r => intro h; simpa using h

theorem number?_lt {l r : List Char} {n : Nat} (h : number? l = some (n, r)) : n < 2 ^ 64 := by
  obtain ⟨t, -, -, ht⟩ := number?_token h
  exact ht.1

/-- The pc read is a 64-bit value. -/
theorem pcField_lt (r : List Char) : (pcField r).1 < 2 ^ 64 := by
  unfold pcField spacedNumber?
  split
  · rename_i n r' h
    split at h
    · split at h
      · exact number?_lt h
      · cases h
    · cases h
  · norm_num

/-- **A line reads as an access exactly as its words say**: the reader, with all its
backtracking, accepts a line exactly when `Reads` holds, and then gives the access `Reads`
describes. -/
theorem entry_eq_ok_iff (line : List Char) (e : Entry) : entry line = .ok e ↔ Reads line e := by
  have hhead := List.head?_dropWhile_not isSeparator line
  unfold entry Reads
  rw [← words_dropWhile line]
  revert hhead
  generalize line.dropWhile isSeparator = l0
  intro hhead
  rcases l0 with _ | ⟨c, afterOp⟩
  · simp
  · have hc : isSeparator c = false := by simpa using hhead
    rw [words_cons_of_not_sep hc]
    cases hop : operationOf? c with
    | none => simp [hop]
    | some op =>
      rcases afterOp with _ | ⟨s, rest⟩
      · simp [Fields, hop]
      · by_cases hs : isSeparator s = true
        · -- the operation letter is a word of its own; the fields start at the next word
          have htake : (s :: rest).takeWhile (fun c => !isSeparator c) = [] := by simp [hs]
          have hdrop : (s :: rest).dropWhile (fun c => !isSeparator c) = s :: rest := by simp [hs]
          rw [htake, hdrop, words_sep_cons hs, ← words_dropWhile rest]
          have hfirst : ∀ v, (∃ c' ts, [c] :: words (rest.dropWhile isSeparator) = [c'] :: ts ∧
              operationOf? c' = some e.op ∧ Fields ts v) ↔
              op = e.op ∧ Fields (words (rest.dropWhile isSeparator)) v := by
            intro v
            constructor
            · rintro ⟨c', ts, h, hop', hf⟩
              obtain ⟨⟨rfl, -⟩, rfl⟩ := List.cons_eq_cons.1 h |>.imp_left List.cons_eq_cons.1
              exact ⟨Option.some.inj (hop.symm.trans hop'), hf⟩
            · rintro ⟨rfl, hf⟩
              exact ⟨c, _, rfl, hop, hf⟩
          simp only [hs, hop, Bool.not_true, Bool.false_eq_true, ↓reduceIte, List.dropWhile_cons_of_pos,
            hfirst]
          rw [← fields_ok_iff (dropWhile_dropWhile_sep rest)]
          cases hnum : number? (rest.dropWhile isSeparator) with
          | none => simp
          | some p =>
            obtain ⟨addr, afterAddr⟩ := p
            have haddr : addr < 18446744073709551616 := number?_lt hnum
            have hpc : (pcField (sizeField afterAddr).2).1 < 18446744073709551616 := pcField_lt _
            simp only [Option.some.injEq, Prod.mk.injEq]
            split
            · rename_i hfin
              constructor
              · rintro ⟨⟩
                exact ⟨rfl, afterAddr, ⟨by simp [Nat.mod_eq_of_lt haddr], rfl⟩, hfin, rfl,
                  by simp [Nat.mod_eq_of_lt hpc]⟩
              · rintro ⟨hop', _, ⟨haddr', rfl⟩, -, hsize, hpc'⟩
                obtain ⟨eop, eaddr, esize, epc⟩ := e
                simp only at hop' haddr' hsize hpc' ⊢
                subst hop' hsize
                rw [haddr', hpc']
                simp
            · rename_i junk hjunk
              simp only [reduceCtorEq, false_iff, not_and, not_exists]
              rintro - _ ⟨-, rfl⟩ hfin
              exact absurd hfin hjunk
        · simp [hs, hop]

/-- A line reads as at most one access. -/
theorem Reads.unique {line : List Char} {e e' : Entry} (h : Reads line e) (h' : Reads line e') :
    e = e' := by
  rw [← entry_eq_ok_iff] at h h'
  exact Except.ok.inj (h.symm.trans h')

/-! ## Texts -/

/-- A line of a trace, its comment cut: blank, or an access. -/
def TraceLine (body : List Char) : Prop := isBlankLine body = true ∨ ∃ e, Reads body e

/-- The lines that hold an access, their comments cut, in order. -/
def accessLines (ls : List (List Char)) : List (List Char) :=
  (ls.map uncommented).filter fun body => !isBlankLine body

theorem parseLines_eq_ok_iff (n : Nat) (ls : List (List Char)) (es : List Entry) :
    parseLines n ls = .ok es ↔ List.Forall₂ Reads (accessLines ls) es := by
  induction ls generalizing n es with
  | nil =>
    simp only [parseLines, accessLines, List.map_nil, List.filter_nil, List.forall₂_nil_left_iff]
    exact ⟨fun h => (Except.ok.inj h).symm, fun h => h ▸ rfl⟩
  | cons line more ih =>
    by_cases hb : isBlankLine (uncommented line) = true
    · have hacc : accessLines (line :: more) = accessLines more := by simp [accessLines, hb]
      rw [hacc, ← ih (n + 1)]
      simp [parseLines, hb]
    · have hacc : accessLines (line :: more) = uncommented line :: accessLines more := by
        simp [accessLines, hb]
      rw [hacc, List.forall₂_cons_left_iff]
      simp only [parseLines, hb, Bool.false_eq_true, ↓reduceIte]
      cases he : entry (uncommented line) with
      | error f =>
        simp only [reduceCtorEq, false_iff, not_exists, not_and]
        intro e _ hr
        rw [← entry_eq_ok_iff, he] at hr
        cases hr
      | ok e =>
        have hread : ∀ e', Reads (uncommented line) e' ↔ e' = e := fun e' => by
          rw [← entry_eq_ok_iff, he, Except.ok.injEq, eq_comm]
        constructor
        · intro h
          cases hp : parseLines (n + 1) more with
          | error _ => simp [hp, Except.map] at h
          | ok es' =>
            simp only [hp, Except.map, Except.ok.injEq] at h
            exact ⟨e, es', (hread e).2 rfl, (ih (n + 1) es').1 hp, h.symm⟩
        · rintro ⟨e', es', hr, hf, rfl⟩
          rw [(hread e').1 hr, (ih (n + 1) es').2 hf]
          rfl

theorem parseLines_eq_error {n : Nat} {ls : List (List Char)} {err : Error}
    (h : parseLines n ls = .error err) :
    ∃ i l, ls[i]? = some l ∧ err.line = n + i ∧ ¬TraceLine (uncommented l) ∧
      ∀ j l', j < i → ls[j]? = some l' → TraceLine (uncommented l') := by
  induction ls generalizing n with
  | nil => simp [parseLines] at h
  | cons line more ih =>
    -- a line before the first offending one is blank or an access
    have hnext : parseLines (n + 1) more = .error err → TraceLine (uncommented line) →
        ∃ i l, (line :: more)[i]? = some l ∧ err.line = n + i ∧ ¬TraceLine (uncommented l) ∧
          ∀ j l', j < i → (line :: more)[j]? = some l' → TraceLine (uncommented l') := by
      intro hm hline
      obtain ⟨i, l, hl, hline', hbad, hbefore⟩ := ih hm
      refine ⟨i + 1, l, by simpa using hl, by omega, hbad, fun j l' hj hl' => ?_⟩
      cases j with
      | zero => simp only [List.getElem?_cons_zero, Option.some.injEq] at hl'; exact hl' ▸ hline
      | succ j => exact hbefore j l' (by omega) (by simpa using hl')
    by_cases hb : isBlankLine (uncommented line) = true
    · simp only [parseLines, hb, ↓reduceIte] at h
      exact hnext h (.inl hb)
    · simp only [parseLines, hb, Bool.false_eq_true, ↓reduceIte] at h
      cases he : entry (uncommented line) with
      | error f =>
        simp only [he, Except.error.injEq] at h
        refine ⟨0, line, rfl, by rw [← h]; rfl, ?_, fun j _ hj => absurd hj (Nat.not_lt_zero j)⟩
        rintro (hb' | ⟨e, hr⟩)
        · exact hb hb'
        · rw [← entry_eq_ok_iff, he] at hr
          cases hr
      | ok e =>
        simp only [he] at h
        cases hrest : parseLines (n + 1) more with
        | ok _ => simp [hrest, Except.map] at h
        | error err' =>
          simp only [hrest, Except.map, Except.error.injEq] at h
          subst h
          exact hnext hrest (.inr ⟨e, (entry_eq_ok_iff _ _).1 he⟩)

theorem exists_of_forall₂_of_mem {R : List Char → Entry → Prop} {l₁ : List (List Char)}
    {l₂ : List Entry} (h : List.Forall₂ R l₁ l₂) {a : List Char} (ha : a ∈ l₁) : ∃ b, R a b := by
  induction h with
  | nil => cases ha
  | cons hr _ ih =>
    rcases List.mem_cons.1 ha with rfl | ha
    · exact ⟨_, hr⟩
    · exact ih ha

/-- **A text is a trace exactly when each of its lines is blank or an access.** Each line of
the text, cut at its first `#`, must hold only White_Space or read as an access (`Reads`). The
entries are then the accesses of the non-blank lines, in order. Otherwise the error is at the
first line that is neither, numbered from 1 over all lines, and its message names that number. -/
theorem parse_accepts_access_lines (s : String) :
    ((∃ t, parse s = .ok t) ↔ ∀ l ∈ lines s, TraceLine (uncommented l)) ∧
    (∀ t, parse s = .ok t → List.Forall₂ Reads (accessLines (lines s)) t.entries) ∧
    (∀ err, parse s = .error err → ∃ i l, (lines s)[i]? = some l ∧ err.line = i + 1 ∧
      ¬TraceLine (uncommented l) ∧
      (∀ j l', j < i → (lines s)[j]? = some l' → TraceLine (uncommented l')) ∧
      ∃ rest, err.message = "failed to parse line " ++ toString (i + 1) ++ ": " ++ rest) := by
  have hok : ∀ t, parse s = .ok t → List.Forall₂ Reads (accessLines (lines s)) t.entries := by
    intro t h
    cases hp : parseLines 1 (lines s) with
    | error _ => simp [parse, hp, Except.map] at h
    | ok es =>
      simp only [parse, hp, Except.map, Except.ok.injEq] at h
      subst h
      exact (parseLines_eq_ok_iff 1 _ es).1 hp
  have herr : ∀ err, parse s = .error err → ∃ i l, (lines s)[i]? = some l ∧ err.line = i + 1 ∧
      ¬TraceLine (uncommented l) ∧
      ∀ j l', j < i → (lines s)[j]? = some l' → TraceLine (uncommented l') := by
    intro err h
    cases hp : parseLines 1 (lines s) with
    | ok _ => simp [parse, hp, Except.map] at h
    | error err' =>
      simp only [parse, hp, Except.map, Except.error.injEq] at h
      subst h
      obtain ⟨i, l, hl, hline, hbad, hbefore⟩ := parseLines_eq_error hp
      exact ⟨i, l, hl, by omega, hbad, hbefore⟩
  refine ⟨⟨?_, fun hall => ?_⟩, hok, fun err h => ?_⟩
  · -- every line of an accepted text is blank or read as one of the entries
    rintro ⟨t, ht⟩ l hl
    by_cases hb : isBlankLine (uncommented l) = true
    · exact .inl hb
    · have hmem : uncommented l ∈ accessLines (lines s) := by
        simp only [accessLines, List.mem_filter, List.mem_map]
        exact ⟨⟨l, hl, rfl⟩, by simpa using hb⟩
      exact .inr (exists_of_forall₂_of_mem (hok t ht) hmem)
  · -- a text whose lines all pass is not refused
    cases ht : parse s with
    | ok t => exact ⟨t, rfl⟩
    | error err =>
      obtain ⟨i, l, hl, -, hbad, -⟩ := herr err ht
      exact absurd (hall l (List.mem_of_getElem? hl)) hbad
  · obtain ⟨i, l, hl, hline, hbad, hbefore⟩ := herr err h
    refine ⟨i, l, hl, hline, hbad, hbefore, "Parsing Error: Error \x7b input: " ++
      Text.quote err.rest ++ ", code: " ++ err.fault.code ++ " \x7d", ?_⟩
    have hsplit : (": Parsing Error: Error \x7b input: " : String) =
        ": " ++ "Parsing Error: Error \x7b input: " := by simp
    unfold Error.message
    rw [hline, hsplit]
    simp only [String.append_assoc]

/-- A size too large for 32 bits is read as the pc: the second number of this line is no
size, and the line is not refused. -/
theorem parse_reads_large_size_as_pc :
    parse "R 0x1 4294967296" = .ok ⟨[⟨.read, 1, 8, 4294967296⟩]⟩ := by
  decide

end CacheHierarchy.Trace
