import Chip8.Proofs.Decoding
import Chip8.Log

/-! # Reading a listing back

The text of an instruction tells which instruction it is, up to the second register of a shift,
which it leaves out.  A listing is cut into words at its blanks and commas, a word is a name or a
number in one of three dresses, and a table by the kinds of the operands gives the instruction that
the words list.

The non-trivial ingredient is `ofListing?_mnemonic`: this reader takes back what a listing shows.
So no two of the thirty-six texts have to be held against each other.
-/

namespace Chip8

namespace Numeral

/-! ## Digits read back -/

/-- What holds of every digit alone, and still holds when one more is put behind, holds of the
    digits of every number. -/
theorem toDigits_induction {base : Nat} {motive : Nat → List Char → Prop} (proper : 1 < base)
    (digit : ∀ d < base, motive d [d.digitChar])
    (behind : ∀ n digits d, d < base → motive n digits →
      motive (base * n + d) (digits ++ [d.digitChar]))
    (n : Nat) : motive n (Nat.toDigits base n) := by
  induction n using Nat.strong_induction_on with
  | _ n ih =>
    rcases lt_or_ge n base with small | large
    · rw [Nat.toDigits_of_lt_base small]
      exact digit n small
    · have shorter : n / base < n := Nat.div_lt_self (by omega) proper
      have last : n % base < base := Nat.mod_lt _ (by omega)
      have pushed := behind _ _ _ last (ih _ shorter)
      rw [Nat.div_add_mod, ← Nat.toDigits_of_base_le proper large] at pushed
      exact pushed

theorem forall_mem_toDigits {base : Nat} {P : Char → Prop} (proper : 1 < base)
    (digit : ∀ d < base, P d.digitChar) (n : Nat) : ∀ c ∈ Nat.toDigits base n, P c := by
  refine toDigits_induction (motive := fun _ digits => ∀ c ∈ digits, P c) proper ?_ ?_ n
  · intro d small
    exact List.forall_mem_singleton.mpr (digit d small)
  · intro _ digits d small held
    exact List.forall_mem_append.mpr ⟨held, List.forall_mem_singleton.mpr (digit d small)⟩

/-- The number that a hexadecimal digit of either case stands for. -/
def hexValue (c : Char) : Nat :=
  if c.isDigit then c.toNat - '0'.toNat
  else if c.isUpper then c.toNat - 'A'.toNat + 10
  else c.toNat - 'a'.toNat + 10

/-- The number that a run of hexadecimal digits spells. -/
def ofHex (digits : List Char) : Nat :=
  digits.foldl (fun n c => 16 * n + hexValue c) 0

theorem ofHex_snoc (digits : List Char) (c : Char) :
    ofHex (digits ++ [c]) = 16 * ofHex digits + hexValue c := by
  rw [ofHex, List.foldl_append]
  rfl

theorem ofHex_zeros (k : Nat) (digits : List Char) :
    ofHex (List.replicate k '0' ++ digits) = ofHex digits := by
  induction k with
  | zero => rfl
  | succ k ih => exact ih

/-- A number is what its digits spell, in either case. -/
theorem ofHex_map (dress : Char → Char) (keeps : ∀ d < 16, hexValue (dress d.digitChar) = d)
    (n : Nat) : ofHex ((Nat.toDigits 16 n).map dress) = n := by
  refine toDigits_induction (motive := fun n digits => ofHex (digits.map dress) = n) (by decide)
    ?_ ?_ n
  · intro d small
    simpa [ofHex] using keeps d small
  · intro n digits d small same
    rw [List.map_append, List.map_singleton, ofHex_snoc, same, keeps d small]

theorem ofHex_hexDigits (width n : Nat) : ofHex (hexDigits width n) = n := by
  have lower := ofHex_map id (by decide) n
  rw [List.map_id] at lower
  rw [hexDigits, List.leftpad, ofHex_zeros, lower]

end Numeral

/-! ## The words of a listing -/

/-- A word of a listing: a name, or a number in one of three dresses. -/
inductive Token where
  | name (text : String)
  | register (r : UInt8)
  | marked (n : Nat)
  | decimal (n : Nat)

namespace Token

open Instruction Numeral

def ofWord (word : List Char) : Token :=
  if word.all Char.isDigit then .decimal (Nat.ofDigitChars 10 word 0)
  else
    match word with
    | 'V' :: digits => .register (.ofNat (ofHex digits))
    | '0' :: 'x' :: digits => .marked (ofHex digits)
    | _ => .name (String.ofList word)

theorem ofWord_digits {word : List Char} (digits : word.all Char.isDigit = true) :
    ofWord word = .decimal (Nat.ofDigitChars 10 word 0) := by
  unfold ofWord
  rw [if_pos digits]

theorem ofWord_register (digits : List Char) :
    ofWord ('V' :: digits) = .register (.ofNat (ofHex digits)) := rfl

theorem ofWord_marked (digits : List Char) :
    ofWord ('0' :: 'x' :: digits) = .marked (ofHex digits) := rfl

/-- The words between the blanks of a text, with no heed to commas. -/
def ofListing (text : String) : List Token :=
  ((text.toList.filter (· ≠ ',')).splitOn ' ').map ofWord

theorem ofListing_blank (a b : String) :
    ofListing (a ++ " " ++ b) = ofListing a ++ ofListing b := by
  simp [ofListing, List.splitOn_append_cons_self]

theorem ofListing_comma (a b : String) :
    ofListing (a ++ ", " ++ b) = ofListing a ++ ofListing b := by
  simp [ofListing, List.splitOn_append_cons_self]

/-- A character inside a word. -/
def IsPlain (c : Char) : Prop :=
  c ≠ ' ' ∧ c ≠ ','

instance (c : Char) : Decidable (IsPlain c) :=
  inferInstanceAs (Decidable (_ ∧ _))

theorem ofListing_of_plain {word : String} (plain : ∀ c ∈ word.toList, IsPlain c) :
    ofListing word = [ofWord word.toList] := by
  have noBlank : ' ' ∉ word.toList := fun member => (plain _ member).1 rfl
  have noComma : word.toList.filter (· ≠ ',') = word.toList :=
    List.filter_eq_self.mpr fun c member => decide_eq_true (plain c member).2
  rw [ofListing, noComma, List.splitOn_eq_singleton noBlank, List.map_singleton]

theorem ofListing_registerName (r : UInt8) : ofListing (registerName r) = [.register r] := by
  have text : (registerName r).toList = 'V' :: (Nat.toDigits 16 r.toNat).map Char.toUpper := by
    simp [registerName, upperHex]
  have digits : ∀ c ∈ Nat.toDigits 16 r.toNat, IsPlain c.toUpper :=
    forall_mem_toDigits (by decide) (by decide) _
  have plain : ∀ c ∈ (registerName r).toList, IsPlain c := by
    rw [text]
    exact List.forall_mem_cons.mpr ⟨by decide, List.forall_mem_map.mpr digits⟩
  rw [ofListing_of_plain plain, text, ofWord_register, ofHex_map _ (by decide), UInt8.ofNat_toNat]

theorem ofListing_marked (width n : Nat) : ofListing (Numeral.marked width n) = [.marked n] := by
  have text : (Numeral.marked width n).toList = '0' :: 'x' :: hexDigits width n := by
    simp [Numeral.marked, hex]
  have zeros (k : Nat) : ∀ c ∈ List.replicate k '0', IsPlain c := by
    intro c member
    rw [List.eq_of_mem_replicate member]
    decide
  have digits : ∀ c ∈ Nat.toDigits 16 n, IsPlain c := forall_mem_toDigits (by decide) (by decide) _
  have plain : ∀ c ∈ (Numeral.marked width n).toList, IsPlain c := by
    rw [text, List.forall_mem_cons, List.forall_mem_cons]
    exact ⟨by decide, by decide, List.forall_mem_append.mpr ⟨zeros _, digits⟩⟩
  rw [ofListing_of_plain plain, text, ofWord_marked, ofHex_hexDigits]

theorem ofListing_decimal (n : Nat) : ofListing (Numeral.decimal n) = [.decimal n] := by
  have text : (Numeral.decimal n).toList = Nat.toDigits 10 n := String.toList_ofList
  have digits : ∀ c ∈ Nat.toDigits 10 n, c.isDigit = true ∧ IsPlain c :=
    forall_mem_toDigits (by decide) (by decide) _
  have plain : ∀ c ∈ (Numeral.decimal n).toList, IsPlain c := by
    rw [text]
    exact fun c member => (digits c member).2
  rw [ofListing_of_plain plain, text,
    ofWord_digits (List.all_eq_true.mpr fun c member => (digits c member).1),
    Nat.ofDigitChars_ten_toDigits]

end Token

namespace Instruction

open Token

/-! ## The table of listings -/

/-- The instruction without operands of such a name. -/
def ofName? : String → Option Instruction
  | "CLS" => some .clearScreen
  | "RET" => some .ret
  | _ => none

/-- The instruction on an address. -/
def ofAddress? (addr : UInt16) : String → Option Instruction
  | "SYS" => some (.sys addr)
  | "JP" => some (.jump addr)
  | "CALL" => some (.call addr)
  | "???" => some (.unknown addr)
  | _ => none

/-- The instruction on one register.  A shift is given V0 for the register that is not listed. -/
def ofRegister? (x : UInt8) : String → Option Instruction
  | "SHR" => some (.shiftRight x 0)
  | "SHL" => some (.shiftLeft x 0)
  | "SKP" => some (.skipIfKey x)
  | "SKNP" => some (.skipUnlessKey x)
  | _ => none

/-- The instruction on two registers. -/
def ofRegisters? (x y : UInt8) : String → Option Instruction
  | "SE" => some (.skipIfSame x y)
  | "LD" => some (.copy x y)
  | "OR" => some (.or x y)
  | "AND" => some (.and x y)
  | "XOR" => some (.xor x y)
  | "ADD" => some (.add x y)
  | "SUB" => some (.sub x y)
  | "SUBN" => some (.subReverse x y)
  | "SNE" => some (.skipUnlessSame x y)
  | _ => none

/-- The instruction on a register and a number, which is a byte or an address. -/
def ofConstant? (x kk : UInt8) (addr : UInt16) : String → Option Instruction
  | "SE" => some (.skipIfByte x kk)
  | "SNE" => some (.skipUnlessByte x kk)
  | "LD" => some (.loadByte x kk)
  | "ADD" => some (.addByte x kk)
  | "RND" => some (.random x kk)
  | "JP" => some (.jumpOffset addr)
  | _ => none

/-- The instruction that brings the contents of a place to a register. -/
def fromPlace? (x : UInt8) : String → String → Option Instruction
  | "LD", "DT" => some (.readDelay x)
  | "LD", "K" => some (.awaitKey x)
  | "LD", "[I]" => some (.restoreRegisters x)
  | _, _ => none

/-- The instruction that brings the contents of a register to a place. -/
def toPlace? (x : UInt8) : String → String → Option Instruction
  | "LD", "DT" => some (.setDelay x)
  | "LD", "ST" => some (.setSound x)
  | "LD", "F" => some (.pointGlyph x)
  | "LD", "B" => some (.storeDecimal x)
  | "LD", "[I]" => some (.saveRegisters x)
  | "ADD", "I" => some (.addIndex x)
  | _, _ => none

/-- The instruction that the words of a listing show, by the kinds of its operands. -/
def ofTokens? : List Token → Option Instruction
  | [.name operation] => ofName? operation
  | [.name operation, .marked n] => ofAddress? (.ofNat n) operation
  | [.name operation, .register x] => ofRegister? x operation
  | [.name operation, .register x, .register y] => ofRegisters? x y operation
  | [.name operation, .register x, .marked n] => ofConstant? x (.ofNat n) (.ofNat n) operation
  | [.name operation, .register x, .name place] => fromPlace? x operation place
  | [.name operation, .name place, .register x] => toPlace? x operation place
  | [.name "LD", .name "I", .marked n] => some (.loadIndex (.ofNat n))
  | [.name "DRW", .register x, .register y, .decimal n] => some (.draw x y (.ofNat n))
  | _ => none

def ofListing? (text : String) : Option Instruction :=
  ofTokens? (Token.ofListing text)

/-- The instruction as its listing shows it, which is without the second register of a shift. -/
def listed : Instruction → Instruction
  | .shiftRight x _ => .shiftRight x 0
  | .shiftLeft x _ => .shiftLeft x 0
  | i => i

section Shapes

variable (operation place : String) (named : ofListing operation = [.name operation])
  (placed : ofListing place = [.name place])

include named

theorem ofListing?_address (width : Nat) (addr : UInt16) :
    ofListing? (operation ++ " " ++ Numeral.marked width addr.toNat) =
      ofAddress? addr operation := by
  rw [ofListing?, ofListing_blank, named, ofListing_marked]
  exact congrArg (ofAddress? · operation) UInt16.ofNat_toNat

theorem ofListing?_register (x : UInt8) :
    ofListing? (operation ++ " " ++ registerName x) = ofRegister? x operation := by
  rw [ofListing?, ofListing_blank, named, ofListing_registerName]
  rfl

theorem ofListing_listPair (x y : UInt8) :
    ofListing (listPair operation x y) = [.name operation, .register x, .register y] := by
  rw [listPair, ofListing_comma, ofListing_blank, named, ofListing_registerName,
    ofListing_registerName]
  rfl

theorem ofListing?_listPair (x y : UInt8) :
    ofListing? (listPair operation x y) = ofRegisters? x y operation := by
  rw [ofListing?, ofListing_listPair operation named]
  rfl

theorem ofListing?_listConstant (x kk : UInt8) :
    ofListing? (listConstant operation x kk) =
      ofConstant? x kk (.ofNat kk.toNat) operation := by
  rw [ofListing?, listConstant, ofListing_comma, ofListing_blank, named, ofListing_registerName,
    byteConstant, ofListing_marked]
  exact congrArg (ofConstant? x · _ operation) UInt8.ofNat_toNat

include placed

theorem ofListing?_fromPlace (x : UInt8) :
    ofListing? (operation ++ " " ++ registerName x ++ (", " ++ place)) =
      fromPlace? x operation place := by
  rw [ofListing?, ← String.append_assoc, ofListing_comma, ofListing_blank, named,
    ofListing_registerName, placed]
  rfl

theorem ofListing?_toPlace (x : UInt8) :
    ofListing? (operation ++ " " ++ place ++ ", " ++ registerName x) =
      toPlace? x operation place := by
  rw [ofListing?, ofListing_comma, ofListing_blank, named, ofListing_registerName, placed]
  rfl

end Shapes

/-- Reading takes back what a listing shows. -/
theorem ofListing?_mnemonic (i : Instruction) : ofListing? i.mnemonic = some i.listed := by
  -- what stands in front of the operands is, by computation, the operation and a blank
  cases i with
  | clearScreen | ret => rfl
  | sys addr => exact ofListing?_address "SYS" rfl 3 addr
  | jump addr => exact ofListing?_address "JP" rfl 3 addr
  | call addr => exact ofListing?_address "CALL" rfl 3 addr
  | unknown word => exact ofListing?_address "???" rfl 4 word
  | skipIfByte x kk | skipUnlessByte x kk | loadByte x kk | addByte x kk | random x kk =>
    exact ofListing?_listConstant _ rfl x kk
  | skipIfSame x y | copy x y | or x y | and x y | xor x y | add x y | sub x y | subReverse x y
  | skipUnlessSame x y => exact ofListing?_listPair _ rfl x y
  | shiftRight x _ => exact ofListing?_register "SHR" rfl x
  | shiftLeft x _ => exact ofListing?_register "SHL" rfl x
  | skipIfKey x => exact ofListing?_register "SKP" rfl x
  | skipUnlessKey x => exact ofListing?_register "SKNP" rfl x
  | loadIndex addr =>
    have words : ofListing (mnemonic (.loadIndex addr)) =
        [.name "LD", .name "I", .marked addr.toNat] :=
      (ofListing_comma "LD I" _).trans (congrArg ([_, _] ++ ·) (ofListing_marked 3 _))
    rw [ofListing?, words, ofTokens?, UInt16.ofNat_toNat]
    rfl
  | jumpOffset addr =>
    have words : ofListing (mnemonic (.jumpOffset addr)) =
        [.name "JP", .register 0, .marked addr.toNat] :=
      (ofListing_comma "JP V0" _).trans (congrArg ([_, _] ++ ·) (ofListing_marked 3 _))
    rw [ofListing?, words, ofTokens?, UInt16.ofNat_toNat]
    rfl
  | draw x y n =>
    rw [ofListing?, mnemonic, ofListing_comma, ofListing_listPair "DRW" rfl, ofListing_decimal]
    exact congrArg (fun n => some (draw x y n)) UInt8.ofNat_toNat
  | readDelay x => exact ofListing?_fromPlace "LD" "DT" rfl rfl x
  | awaitKey x => exact ofListing?_fromPlace "LD" "K" rfl rfl x
  | restoreRegisters x => exact ofListing?_fromPlace "LD" "[I]" rfl rfl x
  | setDelay x => exact ofListing?_toPlace "LD" "DT" rfl rfl x
  | setSound x => exact ofListing?_toPlace "LD" "ST" rfl rfl x
  | addIndex x => exact ofListing?_toPlace "ADD" "I" rfl rfl x
  | pointGlyph x => exact ofListing?_toPlace "LD" "F" rfl rfl x
  | storeDecimal x => exact ofListing?_toPlace "LD" "B" rfl rfl x
  | saveRegisters x => exact ofListing?_toPlace "LD" "[I]" rfl rfl x

/-! ## What two texts have in common -/

variable {a b : Instruction}

theorem mnemonic_listed (i : Instruction) : i.listed.mnemonic = i.mnemonic := by
  cases i <;> rfl

theorem mnemonic_eq_iff_listed : a.mnemonic = b.mnemonic ↔ a.listed = b.listed := by
  constructor
  · intro same
    have read := ofListing?_mnemonic a
    rw [same, ofListing?_mnemonic] at read
    exact (Option.some.inj read).symm
  · intro same
    rw [← mnemonic_listed, same, mnemonic_listed]

theorem listed_eq_iff : a.listed = b.listed ↔ a = b
    ∨ (∃ x y y', a = .shiftLeft x y ∧ b = .shiftLeft x y')
    ∨ ∃ x y y', a = .shiftRight x y ∧ b = .shiftRight x y' := by
  fun_cases listed a <;> fun_cases listed b <;> grind

end Instruction

/-! ## Shifts as words -/

namespace Word

variable {w : UInt16} {x y : UInt8} {f last : Nat}

/-- A word of two registers is told by its first digit, its last digit and the registers. -/
theorem ofRegisters_eq_iff (digit : f < 16) (low : last < 16) :
    (x.toNat < 16 ∧ y.toNat < 16) ∧ ofRegisters f x y last = w ↔
      Pattern.Fits ⟨f, none, none, some last⟩ w ∧ Word.x w = x ∧ Word.y w = y := by
  constructor
  · rintro ⟨⟨first, second⟩, rfl⟩
    refine ⟨⟨family_ofRegisters digit first second low, by simp, by simp, ?_⟩,
      x_ofRegisters first second low, y_ofRegisters second low⟩
    rintro d ⟨⟩
    exact lastDigit_ofRegisters digit first second low
  · rintro ⟨⟨first, _, _, fourth⟩, rfl, rfl⟩
    have begins : family w = f := first
    have ends : lastDigit w = last := fourth last rfl
    rw [← begins, ← ends]
    exact ⟨⟨x_lt w, y_lt w⟩, ofRegisters_fields w⟩

end Word

namespace Instruction

open Word

variable {i : Instruction} {w w' : UInt16} {x y : UInt8}

theorem decode_eq_iff : decode w = i ↔ i.WellFormed ∧ encode i = w := by
  constructor
  · rintro rfl
    exact ⟨decode_wellFormed w, encode_decode w⟩
  · rintro ⟨formed, rfl⟩
    exact decode_encode formed

theorem decode_eq_shiftLeft_iff : decode w = .shiftLeft x y ↔
    Pattern.Fits ⟨0x8, none, none, some 0xE⟩ w ∧ Word.x w = x ∧ Word.y w = y :=
  decode_eq_iff.trans (ofRegisters_eq_iff (by decide) (by decide))

theorem decode_eq_shiftRight_iff : decode w = .shiftRight x y ↔
    Pattern.Fits ⟨0x8, none, none, some 0x6⟩ w ∧ Word.x w = x ∧ Word.y w = y :=
  decode_eq_iff.trans (ofRegisters_eq_iff (by decide) (by decide))

/-- Words of one pattern of two registers decode to instructions of one first register if they
    have the same second digit. -/
theorem exists_first_iff {make : UInt8 → UInt8 → Instruction} {last : Nat}
    (decodes : ∀ w x y, decode w = make x y ↔
      Pattern.Fits ⟨0x8, none, none, some last⟩ w ∧ Word.x w = x ∧ Word.y w = y) :
    (∃ x y y', decode w = make x y ∧ decode w' = make x y') ↔
      Pattern.Fits ⟨0x8, none, none, some last⟩ w ∧ Pattern.Fits ⟨0x8, none, none, some last⟩ w'
        ∧ Word.x w = Word.x w' := by
  simp only [decodes]
  constructor
  · rintro ⟨x, y, y', ⟨fits, rfl, _⟩, fits', same, _⟩
    exact ⟨fits, fits', same.symm⟩
  · rintro ⟨fits, fits', same⟩
    exact ⟨_, _, _, ⟨fits, rfl, rfl⟩, fits', same.symm, rfl⟩

theorem decode_inj : decode w = decode w' ↔ w = w' := by
  constructor
  · intro same
    rw [← encode_decode w, same, encode_decode]
  · exact congrArg decode

/-- The text of an instruction tells which one it is, up to the second register of a shift.  So the
    trace of two words is the same at the same address exactly if the words are, or if both are
    shifts of one direction, `8XYE` or `8XY6`, by the same first register. -/
theorem mnemonic_identifies :
    (∀ a b : Instruction, a.mnemonic = b.mnemonic ↔ a = b
        ∨ (∃ x y y', a = .shiftLeft x y ∧ b = .shiftLeft x y')
        ∨ ∃ x y y', a = .shiftRight x y ∧ b = .shiftRight x y')
      ∧ ∀ w w', ∃ i i', read w = .ok i ∧ read w' = .ok i'
        ∧ (∀ pc, (Notice.executing pc i).text = (Notice.executing pc i').text ↔
          i.mnemonic = i'.mnemonic)
        ∧ (i.mnemonic = i'.mnemonic ↔ w = w' ∨ ∃ last ∈ [0xE, 0x6],
          Pattern.Fits ⟨0x8, none, none, some last⟩ w ∧ Pattern.Fits ⟨0x8, none, none, some last⟩ w'
            ∧ Word.x w = Word.x w') := by
  have texts (a b : Instruction) := mnemonic_eq_iff_listed.trans (listed_eq_iff (a := a) (b := b))
  refine ⟨texts, ?_⟩
  intro w w'
  refine ⟨_, _, read_eq_decode w, read_eq_decode w', ?_, ?_⟩
  · intro pc
    exact String.append_right_inj _
  · rw [texts, decode_inj, exists_first_iff fun _ _ _ => decode_eq_shiftLeft_iff,
      exists_first_iff fun _ _ _ => decode_eq_shiftRight_iff]
    simp

end Instruction

end Chip8
