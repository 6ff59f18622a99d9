import Chip8.Instruction
import Chip8.Numeral

/-! # Texts of an instruction

Two of them.  `mnemonic` is what an assembler listing shows: registers in upper-case hexadecimal,
constants and addresses in padded hexadecimal, the height of a sprite in decimal.  `description`
names the operation and gives its operands in decimal; it is for inspection.
-/

namespace Chip8.Instruction

open Numeral

/-- A register, as listings show it. -/
def registerName (r : UInt8) : String :=
  "V" ++ upperHex r.toNat

/-- A byte constant, as listings show it. -/
def byteConstant (kk : UInt8) : String :=
  marked 2 kk.toNat

/-- An operation on two registers. -/
def listPair (operation : String) (x y : UInt8) : String :=
  operation ++ " " ++ registerName x ++ ", " ++ registerName y

/-- An operation on a register and a constant. -/
def listConstant (operation : String) (x kk : UInt8) : String :=
  operation ++ " " ++ registerName x ++ ", " ++ byteConstant kk

/-- The assembler's text of an instruction. -/
def mnemonic : Instruction → String
  | .sys addr => "SYS " ++ address addr.toNat
  | .clearScreen => "CLS"
  | .ret => "RET"
  | .jump addr => "JP " ++ address addr.toNat
  | .call addr => "CALL " ++ address addr.toNat
  | .skipIfByte x kk => listConstant "SE" x kk
  | .skipUnlessByte x kk => listConstant "SNE" x kk
  | .skipIfSame x y => listPair "SE" x y
  | .loadByte x kk => listConstant "LD" x kk
  | .addByte x kk => listConstant "ADD" x kk
  | .copy x y => listPair "LD" x y
  | .or x y => listPair "OR" x y
  | .and x y => listPair "AND" x y
  | .xor x y => listPair "XOR" x y
  | .add x y => listPair "ADD" x y
  | .sub x y => listPair "SUB" x y
  | .shiftRight x _ => "SHR " ++ registerName x
  | .subReverse x y => listPair "SUBN" x y
  | .shiftLeft x _ => "SHL " ++ registerName x
  | .skipUnlessSame x y => listPair "SNE" x y
  | .loadIndex addr => "LD I, " ++ address addr.toNat
  | .jumpOffset addr => "JP V0, " ++ address addr.toNat
  | .random x kk => listConstant "RND" x kk
  | .draw x y n => listPair "DRW" x y ++ ", " ++ decimal n.toNat
  | .skipIfKey x => "SKP " ++ registerName x
  | .skipUnlessKey x => "SKNP " ++ registerName x
  | .readDelay x => "LD " ++ registerName x ++ ", DT"
  | .awaitKey x => "LD " ++ registerName x ++ ", K"
  | .setDelay x => "LD DT, " ++ registerName x
  | .setSound x => "LD ST, " ++ registerName x
  | .addIndex x => "ADD I, " ++ registerName x
  | .pointGlyph x => "LD F, " ++ registerName x
  | .storeDecimal x => "LD B, " ++ registerName x
  | .saveRegisters x => "LD [I], " ++ registerName x
  | .restoreRegisters x => "LD " ++ registerName x ++ ", [I]"
  | .unknown w => "??? " ++ marked 4 w.toNat

/-- An operation's name and its operands in brackets. -/
def describeWith (operation : String) (operands : List Nat) : String :=
  operation ++ "(" ++ ", ".intercalate (operands.map decimal) ++ ")"

/-- An operation on registers and constants. -/
def describeBytes (operation : String) (operands : List UInt8) : String :=
  describeWith operation (operands.map UInt8.toNat)

/-- An operation on an address. -/
def describeAddress (operation : String) (addr : UInt16) : String :=
  describeWith operation [addr.toNat]

/-- The name of the operation with its operands in decimal. -/
def description : Instruction → String
  | .sys addr => describeAddress "Sys" addr
  | .clearScreen => "ClearScreen"
  | .ret => "PopSubroutine"
  | .jump addr => describeAddress "Jump" addr
  | .call addr => describeAddress "PushSubroutine" addr
  | .skipIfByte x kk => describeBytes "SkipEqualConstant" [x, kk]
  | .skipUnlessByte x kk => describeBytes "SkipNotEqualConstant" [x, kk]
  | .skipIfSame x y => describeBytes "SkipEqualRegister" [x, y]
  | .loadByte x kk => describeBytes "SetRegister" [x, kk]
  | .addByte x kk => describeBytes "AddToRegister" [x, kk]
  | .copy x y => describeBytes "CopyRegister" [x, y]
  | .or x y => describeBytes "Or" [x, y]
  | .and x y => describeBytes "And" [x, y]
  | .xor x y => describeBytes "XOr" [x, y]
  | .add x y => describeBytes "Add" [x, y]
  | .sub x y => describeBytes "SubtractForward" [x, y]
  | .shiftRight x y => describeBytes "RightShift" [x, y]
  | .subReverse x y => describeBytes "SubtractBackward" [x, y]
  | .shiftLeft x y => describeBytes "LeftShift" [x, y]
  | .skipUnlessSame x y => describeBytes "SkipNotEqualRegister" [x, y]
  | .loadIndex addr => describeAddress "SetIndexRegister" addr
  | .jumpOffset addr => describeAddress "JumpWithOffset" addr
  | .random x kk => describeBytes "Random" [x, kk]
  | .draw x y n => describeBytes "Display" [x, y, n]
  | .skipIfKey x => describeBytes "SkipIfPressed" [x]
  | .skipUnlessKey x => describeBytes "SkipIfNotPressed" [x]
  | .readDelay x => describeBytes "CopyDelayToRegister" [x]
  | .awaitKey x => describeBytes "GetKey" [x]
  | .setDelay x => describeBytes "CopyRegisterToDelay" [x]
  | .setSound x => describeBytes "CopyRegisterToSound" [x]
  | .addIndex x => describeBytes "AddToIndex" [x]
  | .pointGlyph x => describeBytes "PointChar" [x]
  | .storeDecimal x => describeBytes "ToDecimal" [x]
  | .saveRegisters x => describeBytes "StoreRegisterToMemory" [x]
  | .restoreRegisters x => describeBytes "LoadRegisterFromMemory" [x]
  | .unknown w => describeAddress "Unknown" w

end Chip8.Instruction
