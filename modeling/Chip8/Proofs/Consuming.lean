import Chip8.Proofs.Cursor
import Chip8.Proofs.Encoding
import Mathlib.Data.Nat.Digits.Defs

/-! # Each digit is read once

Whatever a fresh cursor is asked, its answers are groups of the word's four digits, one behind the
other and none left out, up to the first call that there are not enough digits left for or that asks
for the family too late.  That call is a fault, and it ends the sequence.

The non-trivial ingredient is `drop_answers`: behind any number of answers the cursor stands behind
the digits of the calls so far, and from there the bound of each reader is the end of the word.
-/

namespace Chip8

/-! ## Digits of a number -/

namespace Numeral

/-- The lowest `count` hexadecimal digits of a number, the most significant one first. -/
def places : Nat → Nat → List Nat
  | 0, _ => []
  | count + 1, n => n / 16 ^ count % 16 :: places count n

theorem length_places (count n : Nat) : (places count n).length = count := by
  induction count with
  | zero => rfl
  | succ count ih => rw [places, List.length_cons, ih]

theorem places_add (front back n : Nat) :
    places (front + back) n = places front (n / 16 ^ back) ++ places back n := by
  induction front with
  | zero => rw [Nat.zero_add, places, List.nil_append]
  | succ front ih =>
    rw [Nat.add_right_comm, places, ih, places, List.cons_append, Nat.div_div_eq_div_mul,
      ← Nat.pow_add, Nat.add_comm back]

/-- The digits of a number spell it, as far as they reach. -/
theorem ofDigits_places (count n : Nat) :
    Nat.ofDigits 16 (places count n).reverse = n % 16 ^ count := by
  induction count with
  | zero => rw [places, List.reverse_nil, Nat.ofDigits_nil, Nat.pow_zero, Nat.mod_one]
  | succ count ih =>
    rw [places, List.reverse_cons, Nat.ofDigits_append, Nat.ofDigits_singleton, ih,
      List.length_reverse, length_places, Nat.mod_pow_succ]

/-- Digits further up make no difference. -/
theorem places_mod {count width : Nat} (low : count ≤ width) (n : Nat) :
    places count (n % 16 ^ width) = places count n := by
  induction count with
  | zero => rfl
  | succ count ih =>
    obtain ⟨more, rfl⟩ := Nat.exists_eq_add_of_le low
    rw [places, places, ih (Nat.le_of_succ_le low), Nat.succ_add_eq_add_succ, Nat.pow_add,
      Nat.mod_mul_right_div_self, Nat.pow_succ, Nat.mod_mul_left_mod]

end Numeral

namespace Word

open Numeral

/-- The four digits of a word, as the pattern table takes them apart. -/
def spelling (w : UInt16) : List Nat :=
  [family w, (x w).toNat, (y w).toNat, lastDigit w]

theorem spelling_eq (w : UInt16) : spelling w = places 4 w.toNat := by
  have first : w.toNat / 0x1000 = w.toNat / 16 ^ 3 % 16 := by
    have bound : w.toNat < 0x10000 := w.toNat_lt
    omega
  simp only [spelling, places, toNat_x, toNat_y, family, lastDigit, first, Nat.pow_zero,
    Nat.div_one]
  rfl

/-- The number that `count` digits of a word spell, the ones behind the first `before`. -/
def group (w : UInt16) (before count : Nat) : Nat :=
  Nat.ofDigits 16 (((spelling w).drop before).take count).reverse

variable (w : UInt16) {before count : Nat}

theorem take_drop_spelling (inside : before + count ≤ 4) :
    ((spelling w).drop before).take count
      = places count (w.toNat / 16 ^ (4 - before - count)) := by
  have split : 4 = before + (count + (4 - before - count)) := by omega
  rw [spelling_eq, split, places_add, List.drop_left' (length_places ..), places_add,
    List.take_left' (length_places ..), ← split]

theorem group_eq (inside : before + count ≤ 4) :
    group w before count = w.toNat / 16 ^ (4 - before - count) % 16 ^ count := by
  rw [group, take_drop_spelling w inside, ofDigits_places]

theorem group_lt (inside : before + count ≤ 4) : group w before count < 16 ^ count := by
  rw [group_eq w inside]
  exact Nat.mod_lt _ (Nat.pow_pos (by decide))

theorem places_group (inside : before + count ≤ 4) :
    places count (group w before count) = ((spelling w).drop before).take count := by
  rw [group_eq w inside, places_mod (Nat.le_refl _), take_drop_spelling w inside]

theorem digits_ok_iff (first count value : Nat) : digits w first count = .ok value ↔
    (1 ≤ first ∧ first + count ≤ 5)
      ∧ value = w.toNat / 16 ^ (5 - first - count) % 16 ^ count := by
  by_cases inside : 1 ≤ first ∧ first + count ≤ 5
  · rw [digits_eq w inside.1 inside.2, Except.ok.injEq, eq_comm]
    exact (and_iff_right inside).symm
  · rw [digits_outside w inside]
    constructor
    · intro given
      cases given
    · rintro ⟨inside', _⟩
      exact absurd inside' inside

theorem digits_error_iff (first count : Nat) (fault : Fault) :
    digits w first count = .error fault ↔
      ¬ (1 ≤ first ∧ first + count ≤ 5) ∧ fault = .overflow := by
  by_cases inside : 1 ≤ first ∧ first + count ≤ 5
  · rw [digits_eq w inside.1 inside.2]
    constructor
    · intro failed
      cases failed
    · rintro ⟨outside, _⟩
      exact absurd inside outside
  · rw [digits_outside w inside, Except.error.injEq, eq_comm]
    exact (and_iff_right inside).symm

end Word

/-! ## Calls -/

/-- What a cursor may be asked for. -/
inductive DigitCall where
  | family
  | register
  /-- A small constant, which is read as a register is. -/
  | constant
  | byte
  | address
  deriving DecidableEq, Repr, Inhabited

namespace DigitCall

/-- How many digits a call is for. -/
def width : DigitCall → Nat
  | .family | .register | .constant => 1
  | .byte => 2
  | .address => 3

/-- The number that a cursor answers. -/
def ask : DigitCall → DigitReader Nat
  | .family => Cursor.family
  | .register | .constant => UInt8.toNat <$> Cursor.register
  | .byte => UInt8.toNat <$> Cursor.byte
  | .address => UInt16.toNat <$> Cursor.address

/-- How many digits some calls are for together. -/
def span (calls : List DigitCall) : Nat :=
  (calls.map width).sum

/-- With so many digits behind it, a call would read past the last one, or it asks for the family
    when the first one is gone. -/
def Overreads (call : DigitCall) (before : Nat) : Prop :=
  4 < before + call.width ∨ call = .family ∧ before ≠ 0

/-- The call number `i` would read past the last digit, or it asks for the family and is not the
    first call. -/
def Misread (calls : List DigitCall) (i : Nat) : Prop :=
  ∃ call, calls[i]? = some call
    ∧ (4 < span (calls.take i) + call.width ∨ call = .family ∧ i ≠ 0)

/-- The digits of an answer, as many as its call is for; a fault has none. -/
def written (call : DigitCall) : Except Fault Nat → List Nat
  | .ok value => Numeral.places call.width value
  | .error _ => []

variable {calls : List DigitCall} {call : DigitCall} {i : Nat}

theorem width_pos (call : DigitCall) : 0 < call.width := by
  cases call <;> decide

theorem span_take_succ (here : calls[i]? = some call) :
    span (calls.take (i + 1)) = span (calls.take i) + call.width := by
  rw [List.take_add_one, here, span, List.map_append, List.sum_append]
  rfl

/-- Nothing is read as long as nothing is asked for. -/
theorem span_take_eq_zero_iff (here : calls[i]? = some call) :
    span (calls.take i) = 0 ↔ i = 0 := by
  cases i with
  | zero => exact ⟨fun _ => rfl, fun _ => rfl⟩
  | succ i =>
    obtain ⟨inside, _⟩ := List.getElem?_eq_some_iff.mp here
    have some : 0 < span (calls.take (i + 1)) := by
      rw [span_take_succ (List.getElem?_eq_getElem (Nat.lt_of_succ_lt inside))]
      exact Nat.add_pos_right _ (width_pos _)
    exact iff_of_false (Nat.ne_of_gt some) (Nat.succ_ne_zero i)

theorem misread_iff (here : calls[i]? = some call) :
    Misread calls i ↔ call.Overreads (span (calls.take i)) := by
  simp only [Misread, Overreads, here, Option.some.injEq, exists_eq_left', ne_eq,
    span_take_eq_zero_iff here]

end DigitCall

namespace Cursor

open DigitCall Word

/-! ## One call -/

variable (w : UInt16) {before count i : Nat} {calls : List DigitCall} {call : DigitCall}

/-- A bound that leaves room for the digits of a reader, and no more, lets it read wherever they are
    inside the word. -/
theorem take_group (last : Nat) (bound : last + count = 5) (inside : before + count ≤ 4) :
    take count last ⟨w, before + 1⟩
      = .ok (group w before count, ⟨w, before + count + 1⟩) := by
  have behind : 5 - (before + 1) - count = 4 - before - count := by omega
  rw [take_eq w (Nat.succ_pos before) (by omega) (by omega), behind, group_eq w inside,
    Nat.add_right_comm]

theorem take_outside (last : Nat) (bound : last + count = 5) (outside : 4 < before + count) :
    take count last ⟨w, before + 1⟩ = .error .digitsMisread := by
  have past : ¬ before + 1 ≤ last := by omega
  exact if_neg past

theorem ask_group (fits : ¬ call.Overreads before) :
    call.ask ⟨w, before + 1⟩
      = .ok (group w before call.width, ⟨w, before + call.width + 1⟩) := by
  obtain ⟨inside, early⟩ := not_or.mp fits
  replace inside := Nat.le_of_not_lt inside
  have small := group_lt w inside
  cases call with
  | family =>
    obtain rfl : before = 0 := not_not.mp fun late => early ⟨rfl, late⟩
    exact take_group w 4 rfl inside
  | register | constant =>
    have read := map_ok UInt8.toNat (map_ok UInt8.ofNat (take_group w 4 rfl inside))
    rwa [UInt8.toNat_ofNat_of_lt' (Nat.lt_trans small (by decide))] at read
  | byte =>
    have read := map_ok UInt8.toNat (map_ok UInt8.ofNat (take_group w 3 rfl inside))
    rwa [UInt8.toNat_ofNat_of_lt' small] at read
  | address =>
    have read := map_ok UInt16.toNat (map_ok UInt16.ofNat (take_group w 2 rfl inside))
    rwa [UInt16.toNat_ofNat_of_lt' (Nat.lt_trans small (by decide))] at read

theorem ask_overread (past : call.Overreads before) :
    call.ask ⟨w, before + 1⟩ = .error .digitsMisread := by
  cases call with
  | family =>
    have late : ¬ before + 1 = 1 := by
      rcases past with outside | ⟨_, late⟩
      · simp only [width] at outside
        omega
      · omega
    exact if_neg late
  | register | constant | byte | address =>
    have outside := past.resolve_right fun late => by cases late.1
    exact map_error _ (map_error _ (take_outside w _ rfl outside))

/-! ## Calls one after the other -/

/-- What a cursor answers to calls in turn.  A fault is the last answer. -/
def answers (c : Cursor) : List DigitCall → List (Except Fault Nat)
  | [] => []
  | call :: rest =>
    match call.ask c with
    | .ok (value, c') => .ok value :: answers c' rest
    | .error fault => [.error fault]

theorem answers_of_fits (fits : ¬ call.Overreads before) (rest : List DigitCall) :
    answers ⟨w, before + 1⟩ (call :: rest)
      = .ok (group w before call.width) :: answers ⟨w, before + call.width + 1⟩ rest := by
  rw [answers, ask_group w fits]

theorem answers_of_overread (past : call.Overreads before) (rest : List DigitCall) :
    answers ⟨w, before + 1⟩ (call :: rest) = [.error .digitsMisread] := by
  rw [answers, ask_overread w past]

/-- While nothing was misread, the cursor stands behind the digits that were asked for. -/
theorem drop_answers (inside : i ≤ calls.length) (read : ∀ j < i, ¬ Misread calls j) :
    (answers (start w) calls).drop i
      = answers ⟨w, span (calls.take i) + 1⟩ (calls.drop i) := by
  induction i with
  | zero => rfl
  | succ i ih =>
    have here := List.getElem?_eq_getElem inside
    have fits := mt (misread_iff here).mpr (read i (Nat.lt_succ_self i))
    have earlier := ih (Nat.le_of_succ_le inside) fun j before => read j (Nat.lt_succ_of_lt before)
    -- the next answer comes off with its call, and its digits are behind the cursor then
    rw [List.drop_eq_getElem_cons inside, answers_of_fits w fits] at earlier
    rw [← List.drop_drop, earlier, span_take_succ here]
    rfl

theorem getElem?_answers (here : calls[i]? = some call) (read : ∀ j < i, ¬ Misread calls j) :
    (answers (start w) calls)[i]? =
      (answers ⟨w, span (calls.take i) + 1⟩ (call :: calls.drop (i + 1)))[0]? := by
  obtain ⟨inside, rfl⟩ := List.getElem?_eq_some_iff.mp here
  have behind := drop_answers w (Nat.le_of_lt inside) read
  rw [← List.drop_eq_getElem_cons inside, ← behind, List.getElem?_drop, Nat.add_zero]

/-- Only a call with no misread one in front of it is answered at all. -/
theorem read_of_answered (answered : i < (answers (start w) calls).length) :
    i < calls.length ∧ ∀ j < i, ¬ Misread calls j := by
  induction i with
  | zero =>
    refine ⟨Nat.pos_of_ne_zero fun none => ?_, fun j before => absurd before (Nat.not_lt_zero j)⟩
    rw [List.length_eq_zero_iff.mp none] at answered
    cases answered
  | succ i ih =>
    obtain ⟨inside, read⟩ := ih (Nat.lt_of_succ_lt answered)
    have here := List.getElem?_eq_getElem inside
    -- neither a misread call nor the last one would leave another answer behind its own
    have left : 1 < (answers ⟨w, span (calls.take i) + 1⟩ (calls.drop i)).length := by
      rw [← drop_answers w (Nat.le_of_lt inside) read, List.length_drop]
      omega
    rw [List.drop_eq_getElem_cons inside] at left
    have fits : ¬ Misread calls i := by
      intro misread
      rw [answers_of_overread w ((misread_iff here).mp misread)] at left
      exact absurd left (Nat.lt_irrefl 1)
    refine ⟨Nat.lt_of_le_of_ne inside fun last => ?_, Nat.forall_lt_succ_right.mpr ⟨read, fits⟩⟩
    rw [answers_of_fits w (mt (misread_iff here).mpr fits), last, List.drop_length] at left
    exact absurd left (Nat.lt_irrefl 1)

theorem answer_of_read (here : calls[i]? = some call) (read : ∀ j ≤ i, ¬ Misread calls j) :
    (answers (start w) calls)[i]? = some (.ok (group w (span (calls.take i)) call.width)) := by
  have fits := mt (misread_iff here).mpr (read i (Nat.le_refl i))
  rw [getElem?_answers w here fun j before => read j (Nat.le_of_lt before), answers_of_fits w fits]
  rfl

theorem answer_of_misread (misread : Misread calls i) (read : ∀ j < i, ¬ Misread calls j) :
    (answers (start w) calls)[i]? = some (.error .digitsMisread) := by
  have ⟨call, here, _⟩ := misread
  rw [getElem?_answers w here read, answers_of_overread w ((misread_iff here).mp misread)]
  rfl

/-- Everything that an answer can be. -/
theorem answer_cases {answer : Except Fault Nat}
    (answered : (answers (start w) calls)[i]? = some answer) :
    (∀ j ≤ i, ¬ Misread calls j) ∧ (∃ call, calls[i]? = some call
        ∧ answer = .ok (group w (span (calls.take i)) call.width))
      ∨ Misread calls i ∧ (∀ j < i, ¬ Misread calls j) ∧ answer = .error .digitsMisread := by
  obtain ⟨reached, _⟩ := List.getElem?_eq_some_iff.mp answered
  obtain ⟨inside, read⟩ := read_of_answered w reached
  by_cases misread : Misread calls i
  · rw [answer_of_misread w misread read, Option.some.injEq] at answered
    exact .inr ⟨misread, read, answered.symm⟩
  · have here := List.getElem?_eq_getElem inside
    have read' : ∀ j ≤ i, ¬ Misread calls j := by
      intro j before
      rcases Nat.lt_or_eq_of_le before with earlier | rfl
      · exact read j earlier
      · exact misread
    rw [answer_of_read w here read', Option.some.injEq] at answered
    exact .inl ⟨read', _, here, answered.symm⟩

theorem answer_ok_iff (calls : List DigitCall) (i value : Nat) :
    (answers (start w) calls)[i]? = some (.ok value) ↔
      (∀ j ≤ i, ¬ Misread calls j)
        ∧ ∃ call, calls[i]? = some call ∧ value = group w (span (calls.take i)) call.width := by
  constructor
  · intro answered
    obtain ⟨read, call, here, same⟩ | ⟨_, _, same⟩ := answer_cases w answered
    · exact ⟨read, call, here, Except.ok.inj same⟩
    · cases same
  · rintro ⟨read, call, here, rfl⟩
    exact answer_of_read w here read

theorem answer_error_iff (calls : List DigitCall) (i : Nat) (fault : Fault) :
    (answers (start w) calls)[i]? = some (.error fault) ↔
      Misread calls i ∧ (∀ j < i, ¬ Misread calls j) ∧ fault = .digitsMisread := by
  constructor
  · intro answered
    obtain ⟨_, _, _, same⟩ | ⟨misread, read, same⟩ := answer_cases w answered
    · cases same
    · exact ⟨misread, read, Except.error.inj same⟩
  · rintro ⟨misread, read, rfl⟩
    exact answer_of_misread w misread read

theorem written_prefix (calls : List DigitCall) (before : Nat) :
    (List.zipWith written calls (answers ⟨w, before + 1⟩ calls)).flatten
      <+: (spelling w).drop before := by
  induction calls generalizing before with
  | nil => exact List.nil_prefix
  | cons call rest ih =>
    by_cases past : call.Overreads before
    · rw [answers_of_overread w past, List.zipWith_cons_cons, List.zipWith_nil_right]
      exact List.nil_prefix
    · have inside := Nat.le_of_not_lt (not_or.mp past).1
      have later := ih (before + call.width)
      rw [answers_of_fits w past, List.zipWith_cons_cons, List.flatten_cons, written,
        places_group w inside]
      rw [← List.drop_drop] at later
      nth_rewrite 2 [← List.take_append_drop call.width ((spelling w).drop before)]
      exact (List.prefix_append_right_inj _).mpr later

/-- A fresh cursor hands out the four digits of its word once each.  Whatever it is asked in turn, a
    call is answered exactly if neither it nor one in front of it is misread, and then with the
    number that the next digits spell, so the answers put behind one another are the leading digits
    of the word.  The first misread call is a fault and no other one is; the bound of its reader
    finds it, and never the arithmetic behind.  Asked for directly, `count` digits from the `first`
    on are a remainder of a quotient of the word, even where that is no digit at all, and a fault
    exactly if `first` is 0 or they end behind the fourth digit. -/
theorem each_digit_read_once (w : UInt16) :
    (∀ calls i value, (answers (start w) calls)[i]? = some (.ok value) ↔
        (∀ j ≤ i, ¬ Misread calls j) ∧ ∃ call, calls[i]? = some call
          ∧ value = group w (span (calls.take i)) call.width)
      ∧ (∀ calls i fault, (answers (start w) calls)[i]? = some (.error fault) ↔
          Misread calls i ∧ (∀ j < i, ¬ Misread calls j) ∧ fault = .digitsMisread)
      ∧ (∀ calls, (List.zipWith written calls (answers (start w) calls)).flatten <+: spelling w)
      ∧ ∀ first count,
        (∀ value, digits w first count = .ok value ↔ (1 ≤ first ∧ first + count ≤ 5)
            ∧ value = w.toNat / 16 ^ (5 - first - count) % 16 ^ count)
          ∧ ∀ fault, digits w first count = .error fault ↔
              ¬ (1 ≤ first ∧ first + count ≤ 5) ∧ fault = .overflow :=
  ⟨answer_ok_iff w, answer_error_iff w, fun calls => written_prefix w calls 0, fun first count =>
    ⟨digits_ok_iff w first count, digits_error_iff w first count⟩⟩

example : answers (start 0xD12A) [.family, .register, .byte, .constant, .family]
    = [.ok 0xD, .ok 0x1, .ok 0x2A, .error .digitsMisread] := by decide

end Cursor

end Chip8
